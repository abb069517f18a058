import StockQuant.ItemIds
import StockQuant.Lookups

/-! Downloads of snapshots that run while ingests commit. -/

namespace StockQuant

open Lookups ReadCommitted Spreadsheet

/-- The headers keep their ids, dates and sessions. -/
def HeadersKept (store store' : SnapshotStore) : Prop :=
  ∀ s ∈ store.snapshots, ∃ s' ∈ store'.snapshots, s'.id = s.id ∧ s'.key = s.key

theorem HeadersKept.refl (store : SnapshotStore) : HeadersKept store store :=
  fun s hs => ⟨s, hs, rfl, rfl⟩

theorem HeadersKept.trans {store store' store'' : SnapshotStore} (h : HeadersKept store store')
    (h' : HeadersKept store' store'') : HeadersKept store store'' := by
  intro s hs
  obtain ⟨s', hs', hid, hkey⟩ := h s hs
  obtain ⟨s'', hs'', hid', hkey'⟩ := h' s' hs'
  exact ⟨s'', hs'', hid'.trans hid, hkey'.trans hkey⟩

section Commits

variable {body : SnapshotIngestBody} {ids : SnapshotIds} {store store' : SnapshotStore}

theorem headersKept_replace {existing : ScreenSnapshot} {deleted : List Uuid}
    (h : body.replace ids existing deleted store = some store') : HeadersKept store store' := by
  obtain ⟨rows, -, hsnapshots, -⟩ := replace_eq_some h
  intro s hs
  refine ⟨_, hsnapshots ▸ List.mem_map_of_mem hs, ?_⟩
  split_ifs <;> exact ⟨rfl, rfl⟩

theorem headersKept_create (h : body.create ids store = some store') : HeadersKept store store' := by
  obtain ⟨rows, -, hsnapshots, -⟩ := create_eq_some h
  exact fun s hs => ⟨s, hsnapshots ▸ List.mem_cons_of_mem _ hs, rfl, rfl⟩

theorem itemsOf_replace {existing : ScreenSnapshot} {deleted : List Uuid} {snapshotId : Uuid}
    (h : body.replace ids existing deleted store = some store') (hother : snapshotId ≠ existing.id)
    (hkept : ∀ item ∈ itemsOf store snapshotId, item.id ∉ deleted) :
    itemsOf store' snapshotId = itemsOf store snapshotId := by
  obtain ⟨rows, hrows, -, hitems⟩ := replace_eq_some h
  have hnone : rows.filter (·.snapshotId = snapshotId) = [] := by
    refine List.filter_eq_nil_iff.mpr fun row hrow => ?_
    simpa [(mem_rows hrows hrow).1] using hother.symm
  unfold itemsOf at hkept ⊢
  rw [hitems, List.filter_append, hnone, List.append_nil, List.filter_filter]
  refine List.filter_congr fun item hitem => ?_
  by_cases hown : item.snapshotId = snapshotId
  · have hin := hkept item (List.mem_filter.mpr ⟨hitem, decide_eq_true hown⟩)
    simp [hown, hin]
  · simp [hown]

theorem itemsOf_create (h : body.create ids store = some store') {s : ScreenSnapshot}
    (hs : s ∈ store.snapshots) : itemsOf store' s.id = itemsOf store s.id := by
  obtain ⟨rows, hrows, hsnapshots, hitems⟩ := create_eq_some h
  have hnew : ids.snapshotId ∉ store.snapshots.map (·.id) := by
    have hnodup := store'.ids_nodup
    rw [hsnapshots, List.map_cons] at hnodup
    exact (List.nodup_cons.mp hnodup).1
  have hnone : rows.filter (·.snapshotId = s.id) = [] := by
    refine List.filter_eq_nil_iff.mpr fun row hrow => ?_
    rw [(mem_rows hrows hrow).1, decide_eq_true_eq]
    exact fun hid : ids.snapshotId = s.id => hnew (hid ▸ List.mem_map_of_mem hs)
  unfold itemsOf
  rw [hitems, List.filter_append, hnone, List.append_nil]

end Commits

theorem getSnapshotItems_congr {store store' : SnapshotStore} {snapshotId : Uuid}
    (h : itemsOf store' snapshotId = itemsOf store snapshotId) :
    getSnapshotItems store' snapshotId = getSnapshotItems store snapshotId :=
  congrArg (List.insertionSort fun a b : ScreenSnapshotItem => a.rank ≤ b.rank) h

theorem getSnapshot_eq_some {store : SnapshotStore} {date : Date} {session : String}
    {s : ScreenSnapshot} (h : getSnapshot store date session = some s) :
    s ∈ store.snapshots ∧ s.key = (date, session) := by
  unfold getSnapshot at h
  have hmatch : s.tradeDate = date ∧ s.session = session := by simpa using List.find?_some h
  exact ⟨List.mem_of_find?_eq_some h, Prod.ext hmatch.1 hmatch.2⟩

/-- The workbook of a day takes only the date and the session of its header. -/
theorem snapshotToXlsx_congr (bind : String → Option CellValue) (strftime : String → Date → String)
    {s s' : ScreenSnapshot} (h : s.key = s'.key) (items : List ScreenSnapshotItem) :
    snapshotToXlsx bind strftime s items = snapshotToXlsx bind strftime s' items := by
  obtain ⟨hdate, hsession⟩ := Prod.mk.inj h
  unfold snapshotToXlsx snapshotTitle
  rw [hdate, hsession]

section Steps

variable {L ι : Type} [LinearOrder L] [DecidableEq ι]

theorem headersKept_step (env : MarketEnv L) (requests : ι → MarketRequest)
    (c : Config ι MarketTables MarketPoint) (i : ι) (x : Unit) :
    HeadersKept c.store.store (step (marketProgram env requests) c i x).store.store := by
  rcases step_snapshots env requests c i x with hsame | ⟨body, ids, -, hreplace | hcreate⟩
  · rw [hsame]
    exact HeadersKept.refl _
  · obtain ⟨existing, deleted, -, hreplace⟩ := hreplace
    exact headersKept_replace hreplace
  · exact headersKept_create hcreate

end Steps

section Day

variable {L ι : Type} [LinearOrder L] [DecidableEq ι]

/-- The download answers as it would alone on the snapshots that its first statement finds, or its
second. -/
def DayOfMoment (env : MarketEnv L) (requests : ι → MarketRequest)
    (start : Config ι MarketTables MarketPoint) (j : ι) (date : Date) (session : String)
    (schedule : List (ι × Unit)) (reply : XlsxReply) : Prop :=
  ∃ n ≤ 1, ∃ tables, FindsAt (marketProgram env requests) start schedule j n tables ∧
    reply = downloadSnapshot env.bind env.strftime tables.store (getSnapshotItems tables.store) date
      session

def DayKnows (env : MarketEnv L) (requests : ι → MarketRequest)
    (start : Config ι MarketTables MarketPoint) (j : ι) (date : Date) (session : String)
    (schedule : List (ι × Unit)) (now : SnapshotStore) : DayPoint → Prop
  | .header => stepCount j schedule = 0
  | .items snap => stepCount j schedule = 1 ∧ session ∈ sessions ∧ snap.key = (date, session) ∧
    ∃ s ∈ now.snapshots, s.id = snap.id ∧ s.key = snap.key
  | .finished reply => DayOfMoment env requests start j date session schedule reply

variable {env : MarketEnv L} {requests : ι → MarketRequest}
  {start : Config ι MarketTables MarketPoint} {j : ι} {date : Date} {session : String}
  {schedule : List (ι × Unit)}

theorem DayOfMoment.later {reply : XlsxReply}
    (h : DayOfMoment env requests start j date session schedule reply) (event : ι × Unit) :
    DayOfMoment env requests start j date session (schedule ++ [event]) reply := by
  obtain ⟨n, hn, tables, hfound, hreply⟩ := h
  exact ⟨n, hn, tables, hfound.later event, hreply⟩

theorem DayKnows.other {now now' : SnapshotStore} {point : DayPoint}
    (h : DayKnows env requests start j date session schedule now point)
    (hkept : HeadersKept now now') {i : ι} (hi : i ≠ j) (x : Unit) :
    DayKnows env requests start j date session (schedule ++ [(i, x)]) now' point := by
  cases point with
  | header => exact (stepCount_snoc_of_ne hi schedule x).trans h
  | items snap =>
    obtain ⟨hcount, hsession, hkey, s, hs, hid, hsame⟩ := h
    obtain ⟨s', hs', hid', hsame'⟩ := hkept s hs
    exact ⟨(stepCount_snoc_of_ne hi schedule x).trans hcount, hsession, hkey, s', hs',
      hid'.trans hid, hsame'.trans hsame⟩
  | finished reply => exact DayOfMoment.later h (i, x)

theorem DayKnows.own {point : DayPoint} {now : SnapshotStore}
    (hnow : (run (marketProgram env requests) start schedule).store.store = now)
    (h : DayKnows env requests start j date session schedule now point) (x : Unit) :
    DayKnows env requests start j date session (schedule ++ [(j, x)]) now
      ((dayAction env date session point).perform now).2 := by
  subst hnow
  have hlast (hcount : stepCount j schedule ≤ 1) (reply : XlsxReply)
      (hreply : let store := (run (marketProgram env requests) start schedule).store.store
        reply = downloadSnapshot env.bind env.strftime store (getSnapshotItems store) date session) :
      DayOfMoment env requests start j date session (schedule ++ [(j, x)]) reply :=
    ⟨_, hcount, _, findsAt_last _ start schedule j x, hreply⟩
  cases point with
  | header =>
    have hcount : stepCount j schedule = 0 := h
    by_cases hsession : session ∈ sessions
    · have haction : dayAction env date session .header = .read _ :=
        if_neg (not_not.mpr hsession)
      rw [haction, perform_read]
      cases hfind : getSnapshot (run (marketProgram env requests) start schedule).store.store date
          session with
      | none =>
        refine hlast (hcount.trans_le zero_le_one) _ ?_
        simp [downloadSnapshot, hsession, hfind, dayFile]
      | some snap =>
        obtain ⟨hsnap, hkey⟩ := getSnapshot_eq_some hfind
        exact ⟨by rw [stepCount_snoc_self, hcount], hsession, hkey, snap, hsnap, rfl, rfl⟩
    · have haction : dayAction env date session .header =
          .work (.finished (.refused unknownSession)) := if_pos hsession
      rw [haction, perform_work]
      refine hlast (hcount.trans_le zero_le_one) _ ?_
      simp [downloadSnapshot, hsession]
  | items snap =>
    -- The header is still there, and the items are read with it at this very moment.
    obtain ⟨hcount, hsession, hkey, s, hs, hid, hsame⟩ := h
    obtain ⟨hdate, hsessions⟩ := Prod.mk.inj (hsame.trans hkey)
    refine hlast hcount.le _ ?_
    dsimp only
    rw [← hdate, ← hsessions, downloadSnapshot_of_mem hs (hsessions ▸ hsession), hid,
      snapshotToXlsx_congr _ _ hsame]
    rfl
  | finished reply => exact DayOfMoment.later h (j, x)

/-- Whatever ingests commit while a day is downloaded, the workbook is the one of a single
moment: it never mixes two versions of the day. -/
theorem downloadSnapshot_ofMoment (hrequest : requests j = .day date session)
    (hstart : start.session j = .day .header) {reply : XlsxReply}
    (hreply : (run (marketProgram env requests) start schedule).session j =
      .day (.finished reply)) :
    DayOfMoment env requests start j date session schedule reply := by
  suffices hknows : ∃ point, (run (marketProgram env requests) start schedule).session j =
      .day point ∧ DayKnows env requests start j date session schedule
        (run (marketProgram env requests) start schedule).store.store point by
    obtain ⟨point, hpoint, hknows⟩ := hknows
    rw [hreply] at hpoint
    cases hpoint
    exact hknows
  refine session_invariant (fun schedule tables place => ∃ point, place = .day point ∧
    DayKnows env requests start j date session schedule tables.store point) ?_ ?_ ?_
    (follows_all start schedule)
  · exact ⟨.header, hstart, rfl⟩
  · rintro schedule x now ⟨point, hpoint, hknows⟩
    rw [marketProgram, hrequest, hpoint, marketAction, perform_map, perform_onPart fun _ => rfl,
      perform_day]
    exact ⟨_, rfl, hknows.own rfl x⟩
  · rintro schedule i x now hi - ⟨point, hpoint, hknows⟩
    exact ⟨point, hpoint, hknows.other (headersKept_step _ _ _ _ _) hi x⟩

end Day

/-- An ingest that replaces the first of two days. -/
def replacement : SnapshotIngestBody where
  tradeDate := 10
  session := "eod"
  generatedAt := 1
  items := [{ rank := 1, symbol := "2317" }, { rank := 2, symbol := "2454" }]

def replaces : MarketRequest := .snapshot replacement { snapshotId := 9, itemId := fun k => k + 7 }

def dayAndReplacement : Bool → MarketRequest
  | true => .day 10 "eod"
  | false => replaces

def replacedBetween : List (Bool × Unit) :=
  [(true, ()), (false, ()), (false, ()), (false, ()), (true, ())]

def dayStarted : Config Bool MarketTables MarketPoint :=
  marketStarted { store := tiedStore } dayAndReplacement

theorem downloadSnapshot_ofMoment_replaced :
    DayOfMoment plainMarket dayAndReplacement dayStarted true 10 "eod" replacedBetween
      (let store :=
        (run (marketProgram plainMarket dayAndReplacement) dayStarted replacedBetween).store.store
      downloadSnapshot bindText januaryDay store (getSnapshotItems store) 10 "eod") :=
  downloadSnapshot_ofMoment (show dayAndReplacement true = .day 10 "eod" from rfl) rfl
    (by decide +kernel)

section Range

variable {L ι : Type} [LinearOrder L] [DecidableEq ι]

def MarketPoint.pendingSnapshots : MarketPoint → List ScreenSnapshot
  | .range (.items _ todo _) => todo
  | _ => []

/-- No ingest commits over a snapshot of which the download has yet to read the items. -/
def SparesItems (j : ι) (c : Config ι MarketTables MarketPoint) (i : ι) (_ : Unit) : Prop :=
  ∀ replaced ∈ (c.session i).replacing, ∀ s ∈ (c.session j).pendingSnapshots,
    s.id ≠ replaced.1.id

instance (j : ι) (c : Config ι MarketTables MarketPoint) (i : ι) (x : Unit) :
    Decidable (SparesItems j c i x) :=
  inferInstanceAs (Decidable (∀ _ ∈ _, _))

theorem getSnapshotItems_step (env : MarketEnv L) {requests : ι → MarketRequest}
    {c : Config ι MarketTables MarketPoint} (hapart : IdsApart requests c) {i j : ι} {x : Unit}
    (hspares : SparesItems j c i x)
    {s : ScreenSnapshot} (hpending : s ∈ (c.session j).pendingSnapshots)
    (hstored : ∃ s' ∈ c.store.store.snapshots, s'.id = s.id) :
    getSnapshotItems (step (marketProgram env requests) c i x).store.store s.id =
      getSnapshotItems c.store.store s.id := by
  refine getSnapshotItems_congr ?_
  rcases step_snapshots env requests c i x with hsame | ⟨body, ids, -, hreplace | hcreate⟩
  · rw [hsame]
  · obtain ⟨existing, deleted, hsession, hreplace⟩ := hreplace
    have hreplacing : (existing, deleted) ∈ (c.session i).replacing := by
      rw [hsession]
      rfl
    have hother := hspares _ hreplacing s hpending
    refine itemsOf_replace hreplace hother fun item hitem hdeleted => hother ?_
    obtain ⟨hitem, hof⟩ := List.mem_filter.mp hitem
    exact (of_decide_eq_true hof).symm.trans (hapart.owned i _ hreplacing item hitem hdeleted)
  · obtain ⟨s', hs', hid⟩ := hstored
    rw [← hid]
    exact itemsOf_create hcreate hs'

theorem foldl_askItems (store : SnapshotStore) (snaps : List ScreenSnapshot) :
    snaps.foldl (askItems store) [] = snaps.map fun s => (s, getSnapshotItems store s.id) := by
  induction snaps using List.reverseRecOn with
  | nil => rfl
  | append_singleton snaps s ih => rw [List.foldl_append, ih, List.map_append]; rfl

/-- The download answers as it would alone on the snapshots that its first statement finds. -/
def RangeOfMoment (env : MarketEnv L) (requests : ι → MarketRequest)
    (started : Config ι MarketTables MarketPoint) (j : ι) (start stop : Date) (session : String)
    (schedule : List (ι × Unit)) (reply : XlsxReply) : Prop :=
  ∃ tables, FindsAt (marketProgram env requests) started schedule j 0 tables ∧
    reply = downloadSnapshotsRange env.collation env.bind env.strftime tables.store
      (getSnapshotItems tables.store) start stop session

/-- What the checks of the request have let through. -/
structure RangeAccepted (start stop : Date) (session : String) : Prop where
  session_mem : session ∈ sessions
  ordered : ¬ stop < start
  bounded : ¬ Download.maxRangeDays < stop - start

def RangeKnows (env : MarketEnv L) (requests : ι → MarketRequest)
    (started : Config ι MarketTables MarketPoint) (j : ι) (start stop : Date) (session : String)
    (schedule : List (ι × Unit)) (now : SnapshotStore) : RangePoint → Prop
  | .headers => stepCount j schedule = 0
  | .items snaps todo rows => RangeAccepted start stop session ∧
    (∀ s ∈ todo, ∃ s' ∈ now.snapshots, s'.id = s.id) ∧
    ∃ tables, FindsAt (marketProgram env requests) started schedule j 0 tables ∧
      snaps ≠ [] ∧
      snaps = listSnapshotsInRange env.collation tables.store start stop (some session) ∧
      AsOf askItems tables.store snaps [] now todo rows
  | .finished reply => RangeOfMoment env requests started j start stop session schedule reply

variable {env : MarketEnv L} {requests : ι → MarketRequest}
  {started : Config ι MarketTables MarketPoint} {j : ι} {start stop : Date} {session : String}
  {schedule : List (ι × Unit)}

theorem RangeOfMoment.later {reply : XlsxReply}
    (h : RangeOfMoment env requests started j start stop session schedule reply)
    (event : ι × Unit) :
    RangeOfMoment env requests started j start stop session (schedule ++ [event]) reply := by
  obtain ⟨tables, hfound, hreply⟩ := h
  exact ⟨tables, hfound.later event, hreply⟩

theorem RangeKnows.other {now now' : SnapshotStore} {point : RangePoint}
    (h : RangeKnows env requests started j start stop session schedule now point)
    (hkept : HeadersKept now now')
    (hspared : ∀ s ∈ (MarketPoint.range point).pendingSnapshots,
      (∃ s' ∈ now.snapshots, s'.id = s.id) →
        getSnapshotItems now' s.id = getSnapshotItems now s.id) {i : ι} (hi : i ≠ j) (x : Unit) :
    RangeKnows env requests started j start stop session (schedule ++ [(i, x)]) now' point := by
  cases point with
  | headers => exact (stepCount_snoc_of_ne hi schedule x).trans h
  | items snaps todo rows =>
    obtain ⟨haccepted, hstored, tables, hfound, hne, hsnaps, hasOf⟩ := h
    refine ⟨haccepted, fun s hs => ?_, tables, hfound.later _, hne, hsnaps, ?_⟩
    · obtain ⟨s', hs', hid⟩ := hstored s hs
      obtain ⟨s'', hs'', hid', -⟩ := hkept s' hs'
      exact ⟨s'', hs'', hid'.trans hid⟩
    · refine hasOf.change fun s hs rows => ?_
      unfold askItems
      rw [hspared s hs (hstored s hs)]
  | finished reply => exact RangeOfMoment.later h (i, x)

theorem RangeKnows.own {point : RangePoint} {now : SnapshotStore}
    (hnow : (run (marketProgram env requests) started schedule).store.store = now)
    (h : RangeKnows env requests started j start stop session schedule now point) (x : Unit) :
    RangeKnows env requests started j start stop session (schedule ++ [(j, x)]) now
      ((rangeAction env start stop session point).perform now).2 := by
  subst hnow
  cases point with
  | headers =>
    have hcount : stepCount j schedule = 0 := h
    have hfirst : FindsAt (marketProgram env requests) started (schedule ++ [(j, x)]) j 0
        (run (marketProgram env requests) started schedule).store :=
      hcount ▸ findsAt_last _ started schedule j x
    by_cases hsession : session ∈ sessions
    · unfold rangeAction
      dsimp only
      rw [if_neg (not_not.mpr hsession)]
      split_ifs with hlate hlong
      · refine ⟨_, hfirst, ?_⟩
        simp [downloadSnapshotsRange, hsession, hlate]
      · refine ⟨_, hfirst, ?_⟩
        simp [downloadSnapshotsRange, hsession, hlate, hlong]
      · rw [perform_read]
        dsimp only
        split_ifs with hnil
        · refine ⟨_, hfirst, ?_⟩
          simp [downloadSnapshotsRange, hsession, hlate, hlong, hnil, rangeFile]
        · refine ⟨⟨hsession, hlate, hlong⟩, fun s hs => ?_, _, hfirst, hnil, rfl,
            AsOf.refl _ _ _ _⟩
          exact ⟨s, List.mem_of_mem_filter (listSnapshotsInRange_perm.mem_iff.mp hs), rfl⟩
    · have haction : rangeAction env start stop session .headers =
          .work (.finished (.refused unknownSession)) := if_pos hsession
      rw [haction, perform_work]
      refine ⟨_, hfirst, ?_⟩
      simp [downloadSnapshotsRange, hsession]
  | items snaps todo rows =>
    obtain ⟨haccepted, hstored, tables, hfound, hne, hsnaps, hasOf⟩ := h
    cases todo with
    | nil =>
      refine ⟨tables, hfound.later _, ?_⟩
      rw [downloadSnapshotsRange, if_neg (not_not.mpr haccepted.session_mem),
        if_neg haccepted.ordered, if_neg haccepted.bounded, ← hsnaps, if_neg hne,
        ← foldl_askItems, ← hasOf.finish]
      rfl
    | cons s todo =>
      exact ⟨haccepted, fun s hs => hstored s (List.mem_cons_of_mem _ hs), tables,
        hfound.later _, hne, hsnaps, hasOf.next⟩
  | finished reply => exact RangeOfMoment.later h (j, x)

/-- A range is downloaded as it was when its first statement ran, if no ingest commits over a
snapshot that is still to be read. -/
theorem downloadSnapshotsRange_ofMoment (hrequest : requests j = .range start stop session)
    (hstart : ∀ i, started.session i = (requests i).start)
    (hdrawn : ItemIdsDrawn requests started.store.store)
    (hschedule : Follows (marketProgram env requests) (SparesItems j) started schedule)
    {reply : XlsxReply}
    (hreply : (run (marketProgram env requests) started schedule).session j =
      .range (.finished reply)) :
    RangeOfMoment env requests started j start stop session schedule reply := by
  have hapart (schedule : List (ι × Unit)) :
      IdsApart requests (run (marketProgram env requests) started schedule) :=
    run_invariant (IdsApart requests) (fun _ i x h => h.after hdrawn i x) schedule
      (idsApart_start hdrawn hstart)
  suffices hknows : ∃ point, (run (marketProgram env requests) started schedule).session j =
      .range point ∧ RangeKnows env requests started j start stop session schedule
        (run (marketProgram env requests) started schedule).store.store point by
    obtain ⟨point, hpoint, hknows⟩ := hknows
    rw [hreply] at hpoint
    cases hpoint
    exact hknows
  refine session_invariant (fun schedule tables place => ∃ point, place = .range point ∧
    RangeKnows env requests started j start stop session schedule tables.store point) ?_ ?_ ?_
    hschedule
  · exact ⟨.headers, by rw [hstart, hrequest]; rfl, rfl⟩
  · rintro schedule x now ⟨point, hpoint, hknows⟩
    rw [marketProgram, hrequest, hpoint, marketAction, perform_map, perform_onPart fun _ => rfl,
      perform_range]
    exact ⟨_, rfl, hknows.own rfl x⟩
  · rintro schedule i x now hi hspares ⟨point, hpoint, hknows⟩
    refine ⟨point, hpoint, hknows.other (headersKept_step _ _ _ _ _) (fun s hs hstored => ?_) hi x⟩
    exact getSnapshotItems_step env (hapart schedule) hspares (by rw [hpoint]; exact hs) hstored

end Range

def rangeAndReplacement : Bool → MarketRequest
  | true => .range 10 11 "eod"
  | false => replaces

/-- The first day is replaced after its items were read. -/
def replacedBehind : List (Bool × Unit) :=
  [(true, ()), (true, ()), (false, ()), (false, ()), (false, ()), (true, ()), (true, ())]

theorem itemIdsDrawn_replaces : ItemIdsDrawn rangeAndReplacement tiedStore where
  unstored := by
    rintro (_ | _) body ids hrequest k hk
    · cases hrequest
      simp [tiedStore]
    · cases hrequest
  apart := by
    rintro (_ | _) body ids hrequest (_ | _) body' ids' hrequest' hne
    · exact absurd rfl hne
    · cases hrequest'
    · cases hrequest
    · exact absurd rfl hne

theorem downloadSnapshotsRange_ofMoment_replaced :
    RangeOfMoment plainMarket rangeAndReplacement
      (marketStarted { store := tiedStore } rangeAndReplacement) true 10 11 "eod" replacedBehind
      (downloadSnapshotsRange (Function.Embedding.refl String) bindText januaryDay tiedStore
        (getSnapshotItems tiedStore) 10 11 "eod") :=
  downloadSnapshotsRange_ofMoment (show rangeAndReplacement true = .range 10 11 "eod" from rfl)
    (fun _ => rfl) itemIdsDrawn_replaces (by decide +kernel) (by decide +kernel)

end StockQuant
