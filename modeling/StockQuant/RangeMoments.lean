import StockQuant.BacktestMoments
import StockQuant.CoverageMoments

/-! A backtest with an end of its range left open, while ingests commit. -/

namespace StockQuant

open GrowingKeys ReadCommitted

theorem mem_listSnapshotEntries {store : SnapshotStore} {lo hi : Date} {s : ScreenSnapshot}
    {item : ScreenSnapshotItem} (hs : s ∈ store.snapshots) (hlo : lo ≤ s.tradeDate)
    (hhi : s.tradeDate ≤ hi) (hitem : item ∈ store.items) (hof : item.snapshotId = s.id) :
    (s.tradeDate, item) ∈ listSnapshotEntries store lo hi s.session := by
  have hrange : inRange lo hi s.session s = true := by simp [inRange, hlo, hhi]
  refine (List.mem_insertionSort entryOrder).mpr (List.mem_flatMap.mpr ⟨s, ?_, ?_⟩)
  · exact List.mem_filter.mpr ⟨hs, hrange⟩
  · exact List.mem_map_of_mem (List.mem_filter.mpr ⟨hitem, decide_eq_true hof⟩)

-- The other refusals have other texts.

theorem validatedMode_ne {mode message : String} (h : validatedMode mode = .error message) :
    message ≠ startAfterEnd := by
  unfold validatedMode at h
  split at h
  · rw [← Except.error.inj h]
    decide +kernel
  · cases h

theorem normalizeHorizons_ne {values : List Int} {message : String}
    (h : normalizeHorizons values = .error message) : message ≠ startAfterEnd := by
  unfold normalizeHorizons at h
  dsimp only at h
  split_ifs at h
  all_goals
    rw [← Except.error.inj h]
    decide +kernel

theorem checkParams_ne {params : BacktestParams} {message : String}
    (h : checkParams params = .error message) : message ≠ startAfterEnd := by
  unfold checkParams at h
  split at h
  · rw [← Except.error.inj h]
    decide +kernel
  · split_ifs at h
    · cases hhorizons : normalizeHorizons params.horizons with
      | ok horizons =>
        rw [hhorizons] at h
        cases h
      | error text =>
        rw [hhorizons] at h
        cases h
        exact normalizeHorizons_ne hhorizons
    · rw [← Except.error.inj h]
      decide +kernel

theorem error_of_mapM {α β ε : Type} {f : α → Except ε β} {l : List α} {e : ε}
    (h : l.mapM f = .error e) : ∃ a ∈ l, f a = .error e := by
  induction l with
  | nil => cases h
  | cons a l ih =>
    rw [List.mapM_cons] at h
    cases ha : f a with
    | error e' =>
      rw [ha] at h
      cases (show Except.error e' = Except.error e from h)
      exact ⟨a, List.mem_cons_self, ha⟩
    | ok b =>
      rw [ha] at h
      cases hl : l.mapM f with
      | ok bs =>
        rw [hl] at h
        cases h
      | error e' =>
        rw [hl] at h
        cases h
        obtain ⟨a', ha', herror⟩ := ih hl
        exact ⟨a', List.mem_cons_of_mem a ha', herror⟩

theorem parseHorizon_ne {int : String → Option Int} {repr : String → String} {part message : String}
    (h : parseHorizon int repr part = .error message) : message ≠ startAfterEnd := by
  unfold parseHorizon at h
  split at h
  · rw [← Except.error.inj h]
    intro heq
    have hhead := congrArg (·.toList.head?) heq
    have hfirst : "N 需為整數，收到 ".toList.head? = some 'N' := by decide +kernel
    have hother : startAfterEnd.toList.head? = some '起' := by decide +kernel
    simp only [String.toList_append, List.append_assoc, List.head?_append, hfirst, hother,
      Option.some_or] at hhead
    exact absurd (Option.some.inj hhead) (by decide)
  · cases h

theorem parseHorizons_ne {int : String → Option Int} {repr : String → String} {raw : Option String}
    {message : String} (h : parseHorizons int repr raw = .error message) :
    message ≠ startAfterEnd := by
  unfold parseHorizons at h
  split at h
  · cases h
  · split_ifs at h
    dsimp only at h
    split at h
    · next hparts =>
      obtain ⟨part, -, hpart⟩ := error_of_mapM hparts
      cases h
      exact parseHorizon_ne hpart
    · split_ifs at h
      rw [← Except.error.inj h]
      decide +kernel

/-- The range has the ends that the request gives, and no snapshot that was stored when the request
came in is out of the reach of the others. -/
structure RangeReaches (query : BacktestQuery) (asked : SnapshotStore) (params : BacktestParams) :
    Prop where
  mode : validatedMode query.mode = .ok params.mode
  given : (∀ day ∈ query.start, params.start = day) ∧ ∀ day ∈ query.stop, params.stop = day
  reached : ∀ s ∈ asked.snapshots, (query.start = none → params.start ≤ s.tradeDate) ∧
    (query.stop = none → s.tradeDate ≤ params.stop)

/-- The request answers on all the entries of its range as one of its statements finds them, those
of the snapshots among them that were stored when it came in. -/
structure AnswersReached (query : BacktestQuery) (asked found : SnapshotStore)
    (params : BacktestParams) (response : BacktestResponse) : Prop where
  range : RangeReaches query asked params
  answered : ∃ (reads : BacktestReads) (closes : ClosePrices), reads.rows =
      listSnapshotEntries found params.start params.stop (modeSession params.mode) ∧
    response = reads.response params closes
  considered : ∀ s ∈ asked.snapshots, s.session = modeSession params.mode →
    (∀ day ∈ query.start, day ≤ s.tradeDate) → (∀ day ∈ query.stop, s.tradeDate ≤ day) →
    ∀ item ∈ found.items, item.snapshotId = s.id → (s.tradeDate, item) ∈
      listSnapshotEntries found params.start params.stop (modeSession params.mode)

theorem RangeReaches.considered {query : BacktestQuery} {asked found : SnapshotStore}
    {params : BacktestParams} (h : RangeReaches query asked params)
    (hkept : HeadersKept asked found) {s : ScreenSnapshot} (hs : s ∈ asked.snapshots)
    (hsession : s.session = modeSession params.mode)
    (hstart : ∀ day ∈ query.start, day ≤ s.tradeDate)
    (hstop : ∀ day ∈ query.stop, s.tradeDate ≤ day) {item : ScreenSnapshotItem}
    (hitem : item ∈ found.items) (hof : item.snapshotId = s.id) :
    (s.tradeDate, item) ∈
      listSnapshotEntries found params.start params.stop (modeSession params.mode) := by
  obtain ⟨s', hs', hid, hkey⟩ := hkept s hs
  obtain ⟨hdate, hsame⟩ := Prod.mk.inj hkey
  obtain ⟨hfirst, hlast⟩ := h.reached s hs
  rw [← hdate, ← hsession, ← hsame]
  refine mem_listSnapshotEntries hs' ?_ ?_ hitem (hof.trans hid.symm)
  · rw [hdate]
    cases hgiven : query.start with
    | none => exact hfirst hgiven
    | some day =>
      rw [h.given.1 day hgiven]
      exact hstart day hgiven
  · rw [hdate]
    cases hgiven : query.stop with
    | none => exact hlast hgiven
    | some day =>
      rw [h.given.2 day hgiven]
      exact hstop day hgiven

def RowsSeen (asked : MarketTables) (seen : MarketTables → Prop) (params : BacktestParams)
    (rows : List (Date × ScreenSnapshotItem)) : Prop :=
  ∃ found, seen found ∧ HeadersKept asked.store found.store ∧
    rows = listSnapshotEntries found.store params.start params.stop (modeSession params.mode)

def KnowsResult (asked : MarketTables) (seen : MarketTables → Prop) (params : BacktestParams) :
    Except String BacktestResponse → Prop
  | .ok response => ∃ (reads : BacktestReads) (closes : ClosePrices),
    RowsSeen asked seen params reads.rows ∧ response = reads.response params closes
  | .error message => message ≠ startAfterEnd

def KnowsRun (asked : MarketTables) (seen : MarketTables → Prop) (params : BacktestParams) :
    BacktestPoint → Prop
  | .entries => True
  | .calendar _ _ rows => RowsSeen asked seen params rows
  | .load reads _ _ => RowsSeen asked seen params reads.rows
  | .finished result => KnowsResult asked seen params result

def KnowsQuery (query : BacktestQuery) (asked now : MarketTables) (seen : MarketTables → Prop) :
    QueryPoint → Prop
  | .start => False
  | .range mode point => validatedMode query.mode = .ok mode ∧
    (point = .total ∨ ∃ asked', snapshotKeys asked.store ⊆ asked' ∧ asked'.Nodup ∧
      KnowsDays asked' (snapshotKeys now.store) point)
  | .run params point => RangeReaches query asked.store params ∧ KnowsRun asked seen params point
  | .finished (.ok response) => ∃ params, RangeReaches query asked.store params ∧
    KnowsResult asked seen params (.ok response)
  | .finished (.error message) => query.start = none → query.stop = none → message ≠ startAfterEnd

section Points

variable {query : BacktestQuery} {asked now now' : MarketTables} {seen seen' : MarketTables → Prop}
  {params : BacktestParams}

theorem RowsSeen.later {rows : List (Date × ScreenSnapshotItem)}
    (h : RowsSeen asked seen params rows) (hseen : ∀ s, seen s → seen' s) :
    RowsSeen asked seen' params rows := by
  obtain ⟨found, hfound, hrest⟩ := h
  exact ⟨found, hseen found hfound, hrest⟩

theorem KnowsResult.later {result : Except String BacktestResponse}
    (h : KnowsResult asked seen params result) (hseen : ∀ s, seen s → seen' s) :
    KnowsResult asked seen' params result := by
  cases result with
  | error message => exact h
  | ok response =>
    obtain ⟨reads, closes, hrows, hresponse⟩ := h
    exact ⟨reads, closes, hrows.later hseen, hresponse⟩

theorem KnowsQuery.later {point : QueryPoint} (h : KnowsQuery query asked now seen point)
    (hseen : ∀ s, seen s → seen' s) (hkept : TablesKept now now') :
    KnowsQuery query asked now' seen' point := by
  cases point with
  | start => exact h
  | range mode point =>
    refine ⟨h.1, h.2.imp_right ?_⟩
    rintro ⟨asked', hasked, hnodup, hpoint⟩
    exact ⟨asked', hasked, hnodup, hpoint.later hkept.headers.snapshotKeys⟩
  | run params point =>
    refine ⟨h.1, ?_⟩
    cases point with
    | entries => trivial
    | calendar key horizons rows => exact RowsSeen.later h.2 hseen
    | load reads todo found => exact RowsSeen.later h.2 hseen
    | finished result => exact KnowsResult.later h.2 hseen
  | finished result =>
    cases result with
    | error message => exact h
    | ok response =>
      obtain ⟨params, hrange, hresult⟩ := h
      exact ⟨params, hrange, hresult.later hseen⟩

/-- The checks once the range is known. -/
theorem knowsQuery_overRange {L : Type} [LinearOrder L] (env : MarketEnv L) {mode : Mode}
    {start stop : Date} (hmode : validatedMode query.mode = .ok mode)
    (hgiven : (∀ day ∈ query.start, start = day) ∧ ∀ day ∈ query.stop, stop = day)
    (hreached : ∀ s ∈ asked.store.snapshots, (query.start = none → start ≤ s.tradeDate) ∧
      (query.stop = none → s.tradeDate ≤ stop))
    (hends : query.start = none → query.stop = none → start ≤ stop) :
    KnowsQuery query asked now seen (overRange env query mode start stop) := by
  unfold overRange
  split_ifs with hwrong hlong
  · exact fun hstart hstop => absurd (hends hstart hstop) (not_le.mpr hwrong)
  · exact fun _ _ => by decide +kernel
  · cases hhorizons : parseHorizons env.int env.repr query.horizons with
    | error message => exact fun _ _ => parseHorizons_ne hhorizons
    | ok horizons =>
      dsimp only
      split_ifs
      · exact fun _ _ => by decide +kernel
      · exact ⟨⟨hmode, hgiven, hreached⟩, trivial⟩

/-- The ends that the snapshots fill in. -/
theorem knowsQuery_afterRange {L : Type} [LinearOrder L] (env : MarketEnv L) (today : Date)
    {mode : Mode} {point : DaysPoint} {asked' : List (Date × String)}
    (hmode : validatedMode query.mode = .ok mode) (hasked : snapshotKeys asked.store ⊆ asked')
    (hnodup : asked'.Nodup) (h : KnowsDays asked' (snapshotKeys now.store) point) :
    KnowsQuery query asked now seen (afterRange env today query mode point) := by
  cases point with
  | finished coverage =>
    obtain ⟨minDate, maxDate, days, total⟩ := coverage
    have hbetween : Between (snapshotKeys asked.store) (snapshotKeys now.store) minDate maxDate days
      total := Between.earlier h hasked
    refine knowsQuery_overRange env hmode ⟨fun day hday => ?_, fun day hday => ?_⟩
      (fun s hs => ?_) fun hstart hstop => ?_
    · simp [Option.mem_def.mp hday]
    · simp [Option.mem_def.mp hday]
    · obtain ⟨⟨least, hleast, hle⟩, greatest, hgreatest, hge⟩ :=
        hbetween.reached s.key (List.mem_map_of_mem hs)
      rw [Option.mem_def.mp hleast, Option.mem_def.mp hgreatest]
      constructor
      · intro hstart
        rw [hstart]
        exact hle
      · intro hstop
        rw [hstop]
        exact hge
    · rw [hstart, hstop]
      obtain ⟨rfl, rfl⟩ | ⟨lo, hi, rfl, rfl, hle⟩ := hbetween.ends
      · exact le_rfl
      · exact hle
  | total | least | greatest | days => exact ⟨hmode, Or.inr ⟨asked', hasked, hnodup, h⟩⟩

theorem knowsQuery_afterRun {point : BacktestPoint} (hrange : RangeReaches query asked.store params)
    (h : KnowsRun asked seen params point) :
    KnowsQuery query asked now seen (afterRun params point) := by
  cases point with
  | finished result =>
    cases result with
    | ok response => exact ⟨params, hrange, h⟩
    | error message => exact fun _ _ => h
  | entries | calendar | load => exact ⟨hrange, h⟩

theorem knowsRun_next {L : Type} [LinearOrder L] (env : MarketEnv L) {point : BacktestPoint}
    (h : KnowsRun asked seen params point) (hnow : seen now)
    (hkept : HeadersKept asked.store now.store) :
    KnowsRun asked seen params ((backtestAction env params point).perform now).2 := by
  cases point with
  | entries =>
    unfold backtestAction
    cases hchecked : checkParams params with
    | error message => exact checkParams_ne hchecked
    | ok checked => exact ⟨now, hnow, hkept, rfl⟩
  | calendar key horizons rows =>
    unfold backtestAction
    dsimp only [perform_read]
    split_ifs
    · refine ⟨_, _, ?_, rfl⟩
      exact h
    · exact h
  | load reads todo found =>
    cases todo with
    | nil => exact ⟨reads, found, h, rfl⟩
    | cons query todo => exact h
  | finished result => exact h

theorem knowsQuery_first {L : Type} [LinearOrder L] (env : MarketEnv L) (today : Date) :
    KnowsQuery query asked now seen ((queryAction env today query .start).perform asked).2 := by
  unfold queryAction
  cases hmode : validatedMode query.mode with
  | error message => exact fun _ _ => validatedMode_ne hmode
  | ok mode =>
    cases hstart : query.start with
    | none => exact ⟨hmode, Or.inl rfl⟩
    | some start =>
      cases hstop : query.stop with
      | none => exact ⟨hmode, Or.inl rfl⟩
      | some stop =>
        refine knowsQuery_overRange env hmode ⟨?_, ?_⟩ (fun s _ => ?_) fun hopen => ?_
        · simp [hstart]
        · simp [hstop]
        · simp [hstart, hstop]
        · simp [hstart] at hopen

theorem knowsQuery_next {L : Type} [LinearOrder L] (env : MarketEnv L) (today : Date)
    {point : QueryPoint} (h : KnowsQuery query asked now seen point) (hnow : seen now)
    (hkept : TablesKept asked now) :
    KnowsQuery query asked now seen ((queryAction env today query point).perform now).2 := by
  cases point with
  | start => cases h
  | range mode point =>
    rw [queryAction, perform_map]
    obtain ⟨hmode, rfl | ⟨asked', hasked, hnodup, hpoint⟩⟩ := h
    · exact knowsQuery_afterRange env today hmode hkept.headers.snapshotKeys now.store.keys_nodup
        (days_first (snapshotKeys ∘ MarketTables.store) snapshotDays_eq now)
    · exact knowsQuery_afterRange env today hmode hasked hnodup
        (days_next (snapshotKeys ∘ MarketTables.store) snapshotDays_eq hnodup hpoint)
  | run params point =>
    rw [queryAction, perform_map]
    exact knowsQuery_afterRun h.1 (knowsRun_next env h.2 hnow hkept.headers)
  | finished result => exact h

end Points

section Alone

variable {L : Type} [LinearOrder L] (env : MarketEnv L) (params : BacktestParams)
  (tables : MarketTables)

theorem load_comesTo (reads : BacktestReads) (queries : List CloseQuery) (found : ClosePrices) :
    ComesTo (backtestAction env params) tables (.load reads queries found)
      (.finished (.ok (reads.response params
        (queries.foldl (askCloses tables.prices) found)))) := by
  induction queries generalizing found with
  | nil => exact Relation.ReflTransGen.single rfl
  | cons query queries ih => exact Relation.ReflTransGen.head rfl (ih _)

theorem backtest_comesTo : ComesTo (backtestAction env params) tables .entries
    (.finished (runBacktest tables.store tables.prices params)) := by
  unfold runBacktest
  cases hchecked : checkParams params with
  | error message =>
    refine Relation.ReflTransGen.single ?_
    rw [runBacktestOn_eq, hchecked, backtestAction, hchecked]
    rfl
  | ok checked =>
    obtain ⟨key, horizons⟩ := checked
    let rows := listSnapshotEntries tables.store params.start params.stop (modeSession params.mode)
    have hentries : (backtestAction env params .entries).perform tables =
        (tables, .calendar key horizons rows) := by
      rw [backtestAction, hchecked]
      rfl
    refine Relation.ReflTransGen.head hentries ?_
    let reads : BacktestReads :=
      { key, horizons, rows, calendar := listPriceTradingDays tables.prices }
    have hcalendar : (backtestAction env params (.calendar key horizons rows)).perform tables =
        (tables, if rows = [] ∨ reads.calendar = [] then .finished (.ok (reads.response params ∅))
          else .load reads (env.arrange (closeQueries (reads.wanted params.mode))) ∅) := rfl
    split_ifs at hcalendar with hnothing
    · rw [response_of_reads env hchecked (or_assoc.mp (Or.inl hnothing))] at hcalendar
      exact Relation.ReflTransGen.single hcalendar
    · have hload := load_comesTo env params tables reads
        (env.arrange (closeQueries (reads.wanted params.mode))) ∅
      rw [response_of_reads env hchecked (Or.inr (Or.inr rfl))] at hload
      exact Relation.ReflTransGen.head hcalendar hload

variable (today : Date) (query : BacktestQuery)

theorem overRange_comesTo (mode : Mode) (start stop : Date) :
    ComesTo (queryAction env today query) tables (overRange env query mode start stop)
      (.finished (if stop < start then .error startAfterEnd
        else if maxRangeDays < stop - start then .error rangeTooLong
        else runOver env.int env.repr tables.prices query mode start stop
          (listSnapshotEntries tables.store start stop (modeSession mode)))) := by
  unfold overRange runOver
  split_ifs
  · exact Relation.ReflTransGen.refl
  · exact Relation.ReflTransGen.refl
  · cases parseHorizons env.int env.repr query.horizons with
    | error message => exact Relation.ReflTransGen.refl
    | ok horizons =>
      dsimp only
      split_ifs
      · exact Relation.ReflTransGen.refl
      · refine (backtest_comesTo env _ tables).goOn (afterRun _) fun point => ?_
        cases point with
        | finished result => exact Or.inl rfl
        | entries | calendar | load => exact Or.inr rfl

theorem query_comesTo : ComesTo (queryAction env today query) tables .start
    (.finished (runQuery env.int env.repr tables.store tables.prices today query)) := by
  unfold runQuery
  cases hmode : validatedMode query.mode with
  | error message =>
    refine Relation.ReflTransGen.single ?_
    rw [queryAction, hmode]
    rfl
  | ok mode =>
    have hends : afterRange env today query mode (.finished (figuresOf (snapshotDays tables))) =
        overRange env query mode (firstDay tables.store today query.start)
          (lastDay tables.store today query.stop) := by
      rw [← getSnapshotCoverage_eq]
      rfl
    have hopen : ComesTo (queryAction env today query) tables (.range mode .total)
        (afterRange env today query mode (.finished (figuresOf (snapshotDays tables)))) := by
      refine (days_comesTo snapshotDays tables).goOn (afterRange env today query mode)
        fun point => ?_
      cases point with
      | finished coverage => exact Or.inl rfl
      | total | least | greatest | days => exact Or.inr rfl
    rw [hends] at hopen
    have hrange : ComesTo (queryAction env today query) tables .start
        (overRange env query mode (firstDay tables.store today query.start)
          (lastDay tables.store today query.stop)) := by
      cases hstart : query.start with
      | none =>
        rw [hstart] at hopen
        refine Relation.ReflTransGen.head ?_ hopen
        rw [queryAction, hmode]
        dsimp only
        rw [hstart]
        rfl
      | some start =>
        cases hstop : query.stop with
        | none =>
          rw [hstart, hstop] at hopen
          refine Relation.ReflTransGen.head ?_ hopen
          rw [queryAction, hmode]
          dsimp only
          rw [hstart, hstop]
          rfl
        | some stop =>
          refine Relation.ReflTransGen.single ?_
          rw [queryAction, hmode]
          dsimp only
          rw [hstart, hstop]
          rfl
    refine (hrange.trans (overRange_comesTo env tables today query _ _ _)).trans ?_
    rw [resolveRange_eq]
    dsimp only
    split_ifs <;> exact Relation.ReflTransGen.refl

/-- With the tables to itself the request answers as `runQuery` does. -/
theorem query_alone :
    ∃ n, ∀ m, n ≤ m →
      alone (fun _ : Unit => queryAction env today query) (fun _ => ()) (tables, .start) m =
        (tables, .finished (runQuery env.int env.repr tables.store tables.prices today query)) :=
  (query_comesTo env tables today query).stays rfl

end Alone

section Session

variable {L ι : Type} [LinearOrder L] [DecidableEq ι] {env : MarketEnv L}
  {requests : ι → MarketRequest} {start : Config ι MarketTables MarketPoint} {j : ι} {today : Date}
  {query : BacktestQuery} {schedule : List (ι × Unit)}

/-- An end that is left open reaches every snapshot that was stored when the request came in,
whatever commits meanwhile, and what is filled in for both of them is never refused as the wrong
way around. -/
theorem query_reaches (hrequest : requests j = .query today query)
    (hstart : start.session j = .query .start) :
    (∀ response, (run (marketProgram env requests) start schedule).session j =
        .query (.finished (.ok response)) →
      ∃ asked, FindsAt (marketProgram env requests) start schedule j 0 asked ∧
        ∃ n found, FindsAt (marketProgram env requests) start schedule j n found ∧
          ∃ params, AnswersReached query asked.store found.store params response) ∧
    (query.start = none → query.stop = none →
      (run (marketProgram env requests) start schedule).session j ≠
        .query (.finished (.error startAfterEnd))) := by
  let seen (schedule : List (ι × Unit)) (tables : MarketTables) : Prop :=
    ∃ n, FindsAt (marketProgram env requests) start schedule j n tables
  have hseen (schedule : List (ι × Unit)) (event : ι × Unit) (tables : MarketTables)
      (h : seen schedule tables) : seen (schedule ++ [event]) tables :=
    h.imp fun n hfound => hfound.later event
  suffices hknows : ∃ point, (run (marketProgram env requests) start schedule).session j =
      .query point ∧ ((stepCount j schedule = 0 ∧ point = .start) ∨
        ∃ asked, FindsAt (marketProgram env requests) start schedule j 0 asked ∧
          TablesKept asked (run (marketProgram env requests) start schedule).store ∧
          KnowsQuery query asked (run (marketProgram env requests) start schedule).store
            (seen schedule) point) by
    obtain ⟨point, hpoint, hknows⟩ := hknows
    constructor
    · intro response hreply
      rw [hreply] at hpoint
      cases hpoint
      obtain ⟨-, hpoint⟩ | ⟨asked, hasked, -, params, hrange, reads, closes, hrows, hresponse⟩ :=
        hknows
      · cases hpoint
      · obtain ⟨found, ⟨n, hfound⟩, hkept, hrows⟩ := hrows
        refine ⟨asked, hasked, n, found, hfound, params, hrange,
          ⟨reads, closes, hrows, hresponse⟩, ?_⟩
        exact fun s hs hsession hfirst hlast item hitem hof =>
          hrange.considered hkept hs hsession hfirst hlast hitem hof
    · intro hfirst hlast hreply
      rw [hreply] at hpoint
      cases hpoint
      obtain ⟨-, hpoint⟩ | ⟨asked, -, -, hknows⟩ := hknows
      · cases hpoint
      · exact hknows hfirst hlast rfl
  refine session_invariant (fun schedule tables place => ∃ point, place = .query point ∧
    ((stepCount j schedule = 0 ∧ point = .start) ∨
      ∃ asked, FindsAt (marketProgram env requests) start schedule j 0 asked ∧
        TablesKept asked tables ∧ KnowsQuery query asked tables (seen schedule) point)) ?_ ?_ ?_
    (follows_all start schedule)
  · exact ⟨_, hstart, Or.inl ⟨rfl, rfl⟩⟩
  · rintro schedule x now ⟨point, hpoint, hknows⟩
    have hlast := findsAt_last (marketProgram env requests) start schedule j x
    rw [marketProgram, hrequest, hpoint, marketAction, perform_map, perform_query]
    refine ⟨_, rfl, Or.inr ?_⟩
    obtain ⟨hcount, rfl⟩ | ⟨asked, hasked, hkept, hknows⟩ := hknows
    · exact ⟨_, hcount ▸ hlast, TablesKept.refl _, knowsQuery_first env today⟩
    · refine ⟨asked, hasked.later _, hkept, knowsQuery_next env today ?_ ⟨_, hlast⟩ hkept⟩
      exact hknows.later (hseen schedule (j, x)) (TablesKept.refl _)
  · rintro schedule i x now hi - ⟨point, hpoint, hknows⟩
    refine ⟨point, hpoint, ?_⟩
    obtain ⟨hcount, hpoint⟩ | ⟨asked, hasked, hkept, hknows⟩ := hknows
    · exact Or.inl ⟨(stepCount_snoc_of_ne hi schedule x).trans hcount, hpoint⟩
    · have hstep := tablesKept_step env requests now i x
      refine Or.inr ⟨asked, hasked.later _, hkept.trans hstep, ?_⟩
      exact hknows.later (hseen schedule (i, x)) hstep

end Session

def openQuery : BacktestQuery where
  mode := "intraday_to_close"
  detailSort := "return_pct"

def rescreening : SnapshotIngestBody where
  tradeDate := 11
  session := "intraday_1300"
  generatedAt := 1
  items :=
    [{ rank := 1, symbol := "2317", close := some 55 }, { rank := 2, symbol := "1101" },
      { rank := 3, symbol := "2454", close := some 80 }]

def queryAndRescreening : Bool → MarketRequest
  | true => .query 20 openQuery
  | false => .snapshot rescreening { snapshotId := 9, itemId := fun k => k + 7 }

/-- The last day is known and not yet read when the new items commit. -/
def rescreenedBetween : List (Bool × Unit) :=
  List.replicate 4 (true, ()) ++ List.replicate 3 (false, ()) ++ List.replicate 6 (true, ())

def MarketPoint.answer : MarketPoint → Option BacktestResponse
  | .query (.finished (.ok response)) => some response
  | _ => none

theorem MarketPoint.eq_of_answer {point : MarketPoint} {response : BacktestResponse}
    (h : point.answer = some response) : point = .query (.finished (.ok response)) := by
  unfold MarketPoint.answer at h
  split at h <;> cases h
  rfl

theorem query_reaches_rescreened :
    let program := marketProgram plainMarket queryAndRescreening
    let start := marketStarted watchTables queryAndRescreening
    ∃ response, (run program start rescreenedBetween).session true =
        .query (.finished (.ok response)) ∧
      (response.start, response.stop, response.entries) = (10, 11, 6) ∧
      ∃ asked, FindsAt program start rescreenedBetween true 0 asked ∧
        ∃ n found, FindsAt program start rescreenedBetween true n found ∧
          ∃ params, AnswersReached openQuery asked.store found.store params response := by
  intro program start
  have hanswer : ((run program start rescreenedBetween).session true).answer.map (fun response =>
      (response.start, response.stop, response.entries)) = some (10, 11, 6) := by decide +kernel
  obtain ⟨response, hresponse, hrange⟩ := Option.map_eq_some_iff.mp hanswer
  have hsession := MarketPoint.eq_of_answer hresponse
  exact ⟨response, hsession, hrange, (query_reaches
    (show queryAndRescreening true = .query 20 openQuery from rfl) rfl).1 response hsession⟩

end StockQuant
