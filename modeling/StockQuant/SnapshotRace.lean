import StockQuant.SnapshotReplace

/-! Two calls of `upsert_snapshot` for the same date and session at the same time. -/

namespace StockQuant

open ReadCommitted

variable {first second : SnapshotIngestBody} {ids : SnapshotIds} {store store' : SnapshotStore}

@[simp] def UpsertPoint.committed : UpsertPoint → Bool
  | .refresh _ _ => true
  | .finished _ _ => true
  | _ => false

@[simp] def UpsertPoint.isFinished : UpsertPoint → Bool
  | .finished _ _ => true
  | _ => false

def OneEmpty (first second : SnapshotIngestBody) (loadedCount : Int) : Prop :=
  (first.items = [] ∧ second.items = []) ∨ (first.items = [] ∧ second.itemCount ≠ loadedCount) ∨
    (second.items = [] ∧ loadedCount = 0)

/-- Where the second call may be when the first one commits: before its select, between
its select and its delete with a count that it writes or shares, or after its delete
with at most one body that has items. -/
def Apart (first second : SnapshotIngestBody) : UpsertPoint → Prop
  | .delete existing =>
    second.itemCount = existing.itemCount → second.itemCount = first.itemCount
  | .replace existing _ => OneEmpty first second existing.itemCount
  | _ => True

def CommitsApart (bodies : Bool → SnapshotIngestBody) (c : Config Bool SnapshotStore UpsertPoint)
    (i : Bool) : Prop :=
  match c.session i with
  | .replace _ _ => Apart (bodies i) (bodies !i) (c.session !i)
  | _ => True

def FreshIds (store : SnapshotStore) (count : Nat) (ids : SnapshotIds) : Prop :=
  ∀ k < count, ids.itemId k ∉ store.items.map (·.id)

instance (first second : SnapshotIngestBody) (loadedCount : Int) :
    Decidable (OneEmpty first second loadedCount) :=
  inferInstanceAs (Decidable (_ ∨ _ ∨ _))

instance (first second : SnapshotIngestBody) (p : UpsertPoint) :
    Decidable (Apart first second p) := by
  unfold Apart
  split <;> infer_instance

instance (bodies : Bool → SnapshotIngestBody) (c : Config Bool SnapshotStore UpsertPoint)
    (i : Bool) : Decidable (CommitsApart bodies c i) := by
  unfold CommitsApart
  split <;> infer_instance

instance (store : SnapshotStore) (count : Nat) (ids : SnapshotIds) :
    Decidable (FreshIds store count ids) :=
  inferInstanceAs (Decidable (∀ k < count, _))

/-- A call that has not committed, in tables that no one has changed since it came. -/
def Loaded (store : SnapshotStore) (key : Date × String) : UpsertPoint → Prop
  | .select => True
  | .delete existing => findSnapshot store key = some existing
  | .replace existing deleted => findSnapshot store key = some existing ∧
      deleted = (itemsOf store existing.id).map (·.id)
  | .create => findSnapshot store key = none
  | _ => False

/-- A call that has not committed, in tables that hold what the other one brought. -/
def Behind (first second : SnapshotIngestBody) (store : SnapshotStore) (sid : Uuid) :
    UpsertPoint → Prop
  | .select => True
  | .create => True
  | .delete existing => existing.id = sid ∧
      (second.itemCount = existing.itemCount → second.itemCount = first.itemCount)
  | .replace existing deleted => existing.id = sid ∧
      ((∀ item ∈ itemsOf store sid, item.id ∈ deleted) ∧
          (second.itemCount = existing.itemCount → second.itemCount = first.itemCount) ∨
        (∀ item ∈ itemsOf store sid, item.id ∉ deleted) ∧
          OneEmpty first second existing.itemCount)
  | _ => False

inductive Progress (bodies : Bool → SnapshotIngestBody)
    (c : Config Bool SnapshotStore UpsertPoint) : Prop where
  | failed (i : Bool) (h : c.session i = .failed)
  | none (h : ∀ i, Loaded c.store (bodies i).key (c.session i))
  | one (i : Bool) (sid : Uuid) (h : (c.session i).committed) (hholds : Holds (bodies i) c.store sid)
      (hbehind : Behind (bodies i) (bodies !i) c.store sid (c.session !i))
  | both (i : Bool) (sid : Uuid) (h : ∀ j, (c.session j).committed)
      (hholds : Holds (bodies i) c.store sid)

section Step

variable {bodies : Bool → SnapshotIngestBody} {c : Config Bool SnapshotStore UpsertPoint}

theorem behind_commit {existing : ScreenSnapshot} {deleted : List Uuid} {sid : Uuid}
    (hfirst : Holds first store sid) (hkey : first.key = second.key)
    (hbehind : Behind first second store sid (.replace existing deleted))
    (h : second.replace ids existing deleted store = some store') :
    Holds first store' sid ∨ Holds second store' sid := by
  obtain ⟨rfl, hcase⟩ := hbehind
  obtain ⟨s, hs, hid, hskey, hcount⟩ := hfirst.header
  have hreplaced : sent existing.itemCount s.itemCount second.itemCount = second.itemCount →
      (∀ item ∈ itemsOf store existing.id, item.id ∈ deleted) → Holds second store' existing.id :=
    holds_replaced h hs hid (hskey.trans hkey)
  -- With the first body empty there is nothing for the delete to have missed.
  have hnothing : first.items = [] → ∀ item ∈ itemsOf store existing.id, item.id ∈ deleted := by
    intro hempty item hitem
    have hitems := hfirst.items
    unfold ItemsAre at hitems
    rw [hempty, List.forall₂_nil_left_iff] at hitems
    rw [hitems] at hitem
    cases hitem
  have hsent : (second.itemCount = existing.itemCount → second.itemCount = first.itemCount) →
      sent existing.itemCount s.itemCount second.itemCount = second.itemCount := by
    intro hsame
    unfold sent
    split_ifs with heq
    · rw [hcount, hsame heq]
    · rfl
  rcases hcase with ⟨hdeleted, hsame⟩ | ⟨hmissed, ⟨hfirst', hsecond⟩ | ⟨hfirst', hne⟩ |
    ⟨hsecond, hzero⟩⟩
  · exact Or.inr (hreplaced (hsent hsame) hdeleted)
  · refine Or.inr (hreplaced (hsent fun _ => ?_) (hnothing hfirst'))
    simp [SnapshotIngestBody.itemCount, hfirst', hsecond]
  · exact Or.inr (hreplaced (hsent fun heq => absurd heq hne) (hnothing hfirst'))
  · refine Or.inl (holds_kept h hfirst hsecond ?_ hmissed)
    simp [SnapshotIngestBody.itemCount, hsecond, hzero]

theorem first_replace {existing : ScreenSnapshot} {deleted : List Uuid} {p : UpsertPoint}
    (hkey : first.key = second.key)
    (hloaded : Loaded store first.key (.replace existing deleted))
    (hother : Loaded store second.key p)
    (hapart : Apart first second p)
    (hfresh : FreshIds store first.items.length ids)
    (h : first.replace ids existing deleted store = some store') :
    Holds first store' existing.id ∧ Behind first second store' existing.id p := by
  obtain ⟨hfind, rfl⟩ := hloaded
  obtain ⟨hs, hskey⟩ := findSnapshot_eq_some_iff.mp hfind
  have hall : ∀ item ∈ itemsOf store existing.id,
      item.id ∈ (itemsOf store existing.id).map (·.id) :=
    fun item hitem => List.mem_map.mpr ⟨item, hitem, rfl⟩
  refine ⟨holds_replaced h hs rfl hskey (sent_self _ _) hall, ?_⟩
  cases p with
  | select | create => trivial
  | delete existing' =>
    have heq := hother
    unfold Loaded at heq
    rw [← hkey, hfind] at heq
    obtain rfl := Option.some_inj.mp heq
    exact ⟨rfl, hapart⟩
  | replace existing' deleted' =>
    obtain ⟨hfind', rfl⟩ := hother
    rw [← hkey, hfind] at hfind'
    obtain rfl := Option.some_inj.mp hfind'
    refine ⟨rfl, Or.inr ⟨fun item hitem hmem => ?_, hapart⟩⟩
    obtain ⟨rows, hrows, -, hitems⟩ := replace_eq_some h
    rw [itemsOf_replaced hrows hitems, List.filter_eq_nil_iff.mpr (by simpa using hall),
      List.nil_append] at hitem
    obtain ⟨-, k, hk, hid⟩ := mem_rows hrows hitem
    obtain ⟨old, hold, holdid⟩ := List.mem_map.mp hmem
    exact hfresh k hk (hid ▸ List.mem_map.mpr ⟨old, (List.mem_filter.mp hold).1, holdid⟩)
  | _ => exact hother

theorem first_create {p : UpsertPoint} (hkey : first.key = second.key)
    (hloaded : Loaded store first.key .create) (hother : Loaded store second.key p)
    (h : first.create ids store = some store') :
    Holds first store' ids.snapshotId ∧ Behind first second store' ids.snapshotId p := by
  refine ⟨holds_created h, ?_⟩
  have hnone : findSnapshot store second.key = none := hkey ▸ hloaded
  cases p with
  | select | create => trivial
  | delete existing =>
    unfold Loaded at hother
    rw [hnone] at hother
    cases hother
  | replace existing deleted =>
    have hfind := hother.1
    rw [hnone] at hfind
    cases hfind
  | _ => exact hother

theorem perform_committed {p : UpsertPoint} (hp : p.committed) (body : SnapshotIngestBody)
    (ids : SnapshotIds) (store : SnapshotStore) :
    ((upsertAction body ids p).perform store).1 = store ∧
      (((upsertAction body ids p).perform store).2.committed ∨
        ((upsertAction body ids p).perform store).2 = .failed) := by
  cases p with
  | refresh sid replaced =>
    refine ⟨rfl, ?_⟩
    simp only [upsertAction, perform_read]
    cases store.snapshots.find? (·.id = sid) with
    | none => exact Or.inr rfl
    | some snapshot => exact Or.inl rfl
  | finished snapshot replaced => exact ⟨rfl, Or.inl rfl⟩
  | _ => cases hp

theorem progress_behind {k : Bool} {ids : SnapshotIds} {sid : Uuid}
    {c' : Config Bool SnapshotStore UpsertPoint} (hkey : (bodies !k).key = (bodies k).key)
    (hi : (c.session !k).committed) (hholds : Holds (bodies !k) c.store sid)
    (hbehind : Behind (bodies !k) (bodies k) c.store sid (c.session k))
    (hother : c'.session (!k) = c.session !k)
    (hself : c'.session k = ((upsertAction (bodies k) ids (c.session k)).perform c.store).2)
    (hstore : c'.store = ((upsertAction (bodies k) ids (c.session k)).perform c.store).1) :
    Progress bodies c' := by
  have hone : c'.store = c.store →
      Behind (bodies !k) (bodies k) c.store sid (c'.session k) → Progress bodies c' := by
    intro hsame hbehind'
    refine .one (!k) sid (hother ▸ hi) (hsame ▸ hholds) ?_
    rw [hsame, Bool.not_not]
    exact hbehind'
  cases hp : c.session k with
  | select =>
    obtain ⟨s, hfind, hid, hcount⟩ := hholds.find hkey
    simp only [hp, upsertAction, perform_read, hfind] at hself hstore
    exact hone hstore (by rw [hself]; exact ⟨hid, fun h => h.trans hcount⟩)
  | delete existing =>
    simp only [hp, upsertAction, perform_read] at hself hstore
    rw [hp] at hbehind
    obtain ⟨rfl, hcount⟩ := hbehind
    refine hone hstore ?_
    rw [hself]
    exact ⟨rfl, Or.inl ⟨fun item hitem => List.mem_map.mpr ⟨item, hitem, rfl⟩, hcount⟩⟩
  | replace existing deleted =>
    simp only [hp, upsertAction, Action.perform] at hself hstore
    rw [hp] at hbehind
    cases hw : (bodies k).replace ids existing deleted c.store with
    | none =>
      rw [hw] at hself
      exact .failed k hself
    | some store' =>
      rw [hw] at hself hstore
      have hall : ∀ j, (c'.session j).committed := by
        intro j
        rcases Bool.eq_or_eq_not j k with rfl | rfl
        · rw [hself]
          rfl
        · exact hother ▸ hi
      rcases behind_commit hholds hkey hbehind hw with hfirst | hsecond
      · exact .both (!k) sid hall (hstore ▸ hfirst)
      · exact .both k sid hall (hstore ▸ hsecond)
  | create =>
    simp only [hp, upsertAction, Action.perform, create_of_holds hholds hkey] at hself hstore
    exact .failed k hself
  | refresh | finished | failed =>
    rw [hp] at hbehind
    exact hbehind.elim

/-- A step before either call has committed. -/
theorem progress_before {k : Bool} {ids : SnapshotIds}
    {c' : Config Bool SnapshotStore UpsertPoint} (hkey : (bodies k).key = (bodies !k).key)
    (h : ∀ i, Loaded c.store (bodies i).key (c.session i))
    (hfresh : FreshIds c.store (bodies k).items.length ids) (hapart : CommitsApart bodies c k)
    (hother : c'.session (!k) = c.session !k)
    (hself : c'.session k = ((upsertAction (bodies k) ids (c.session k)).perform c.store).2)
    (hstore : c'.store = ((upsertAction (bodies k) ids (c.session k)).perform c.store).1) :
    Progress bodies c' := by
  -- A step that only reads leaves both calls as they were before any commit.
  have hread : c'.store = c.store → Loaded c.store (bodies k).key (c'.session k) →
      Progress bodies c' := by
    intro hsame hk
    refine .none fun i => ?_
    rw [hsame]
    rcases Bool.eq_or_eq_not i k with rfl | rfl
    · exact hk
    · exact hother ▸ h !k
  have hk := h k
  cases hp : c.session k with
  | select =>
    simp only [hp, upsertAction, perform_read] at hself hstore
    cases hfind : findSnapshot c.store (bodies k).key with
    | none =>
      rw [hfind] at hself
      exact hread hstore (by rw [hself]; exact hfind)
    | some existing =>
      rw [hfind] at hself
      exact hread hstore (by rw [hself]; exact hfind)
  | delete existing =>
    simp only [hp, upsertAction, perform_read] at hself hstore
    rw [hp] at hk
    exact hread hstore (by rw [hself]; exact ⟨hk, rfl⟩)
  | replace existing deleted =>
    simp only [hp, upsertAction, Action.perform] at hself hstore
    simp only [CommitsApart, hp] at hapart
    rw [hp] at hk
    cases hw : (bodies k).replace ids existing deleted c.store with
    | none =>
      rw [hw] at hself
      exact .failed k hself
    | some store' =>
      rw [hw] at hself hstore
      obtain ⟨hholds, hbehind⟩ := first_replace hkey hk (h !k) hapart hfresh hw
      exact .one k existing.id (by rw [hself]; rfl) (hstore ▸ hholds)
        (by rw [hstore, hother]; exact hbehind)
  | create =>
    simp only [hp, upsertAction, Action.perform] at hself hstore
    rw [hp] at hk
    cases hw : (bodies k).create ids c.store with
    | none =>
      rw [hw] at hself
      exact .failed k hself
    | some store' =>
      rw [hw] at hself hstore
      obtain ⟨hholds, hbehind⟩ := first_create hkey hk (h !k) hw
      exact .one k ids.snapshotId (by rw [hself]; rfl) (hstore ▸ hholds)
        (by rw [hstore, hother]; exact hbehind)
  | refresh | finished | failed =>
    rw [hp] at hk
    exact hk.elim

theorem progress_step {k : Bool} {ids : SnapshotIds} (hkey : ∀ i, (bodies i).key = (bodies !i).key)
    (h : Progress bodies c) (hfresh : FreshIds c.store (bodies k).items.length ids)
    (hapart : CommitsApart bodies c k) :
    Progress bodies (step (upsertProgram bodies) c k ids) := by
  have hother : (step (upsertProgram bodies) c k ids).session (!k) = c.session !k :=
    step_session_of_ne c (by simp) ids
  have hself : (step (upsertProgram bodies) c k ids).session k = _ := step_session_self c k ids
  have hstore : (step (upsertProgram bodies) c k ids).store = _ := step_store c k ids
  generalize step (upsertProgram bodies) c k ids = c' at hother hself hstore
  cases h with
  | failed i hi =>
    rcases Bool.eq_or_eq_not i k with rfl | rfl
    · refine .failed i ?_
      rw [hself, hi]
      rfl
    · exact .failed (!k) (hother ▸ hi)
  | none h => exact progress_before (hkey k) h hfresh hapart hother hself hstore
  | one i sid hi hholds hbehind =>
    rcases Bool.eq_or_eq_not i k with rfl | rfl
    · obtain ⟨hsame, hnext⟩ := perform_committed hi (bodies i) ids c.store
      have hsame' : c'.store = c.store := hstore.trans hsame
      rcases hnext with hnext | hnext
      · refine .one i sid (hself ▸ hnext) (hsame' ▸ hholds) ?_
        rw [hsame', hother]
        exact hbehind
      · exact .failed i (hself.trans hnext)
    · rw [Bool.not_not] at hbehind
      exact progress_behind (by simpa using (hkey k).symm) hi hholds hbehind hother hself hstore
  | both i sid hi hholds =>
    obtain ⟨hsame, hnext⟩ := perform_committed (hi k) (bodies k) ids c.store
    rcases hnext with hnext | hnext
    · refine .both i sid (fun j => ?_) (hstore.trans hsame ▸ hholds)
      rcases Bool.eq_or_eq_not j k with rfl | rfl
      · exact hself ▸ hnext
      · exact hother ▸ hi !k
    · exact .failed k (hself.trans hnext)

end Step

/-- When the first of the two commits comes while the other call can still take it into
account, the snapshot holds exactly one of the two bodies once both have finished. -/
theorem upsertSnapshot_replaces {bodies : Bool → SnapshotIngestBody}
    (hkey : (bodies true).key = (bodies false).key)
    {c c' : Config Bool SnapshotStore UpsertPoint} (hstart : ∀ i, c.session i = .select)
    (hreach : Reaches (upsertProgram bodies)
      (fun c i ids => FreshIds c.store (bodies i).items.length ids ∧ CommitsApart bodies c i) c c')
    (hdone : ∀ i, (c'.session i).isFinished) :
    ∃ i, ∃ s, findSnapshot c'.store (bodies i).key = some s ∧
      ItemsAre (bodies i) s.id (itemsOf c'.store s.id) ∧
      s.itemCount = (itemsOf c'.store s.id).length := by
  have hkeys : ∀ i, (bodies i).key = (bodies !i).key := by
    intro i
    cases i
    · exact hkey.symm
    · exact hkey
  have hprogress := hreach.invariant (Progress bodies)
    (.none fun i => by rw [hstart]; trivial)
    fun _ _ _ h hallowed => progress_step hkeys h hallowed.1 hallowed.2
  cases hprogress with
  | failed i h =>
    have hi := hdone i
    rw [h] at hi
    cases hi
  | none h =>
    have hi := h true
    have hdone := hdone true
    cases hp : c'.session true <;> simp [hp, Loaded] at hi hdone
  | one i sid h hholds hbehind =>
    have hi := hdone !i
    cases hp : c'.session !i <;> simp [hp, Behind] at hi hbehind
  | both i sid h hholds =>
    obtain ⟨s, hfind, rfl, hcount⟩ := hholds.find rfl
    refine ⟨i, s, hfind, hholds.items, ?_⟩
    rw [hcount, SnapshotIngestBody.itemCount, hholds.items.length_eq]

def screened : SnapshotStore where
  snapshots := [{ id := 1, tradeDate := 10, session := sessionEod, generatedAt := 0, itemCount := 1 }]
  items := [{ id := 1, snapshotId := 1, rank := 1, symbol := "2330" }]
  ids_nodup := by decide
  itemIds_nodup := by decide
  keys_nodup := by decide
  items_owned := by decide

/-- Two screenings of the same session that differ. -/
def rescreen (i : Bool) : SnapshotIngestBody where
  tradeDate := 10
  session := sessionEod
  generatedAt := if i then 60 else 120
  items :=
    if i then [{ rank := 1, symbol := "2330" }]
    else [{ rank := 1, symbol := "2317" }, { rank := 2, symbol := "2454" }]

def sendAgain (_ : Bool) : SnapshotIngestBody where
  tradeDate := 10
  session := sessionEod
  generatedAt := 60
  items := [{ rank := 1, symbol := "2330" }]

def bothSent : Config Bool SnapshotStore UpsertPoint where
  store := screened
  session _ := .select

def upsertSteps (i : Bool) (n : Nat) : List (Bool × SnapshotIds) :=
  (List.range n).map fun m =>
    (i, { snapshotId := 2, itemId := fun k => (if i then 10 else 20) + 2 * m + k })

/-- Both calls have found the stored snapshot before the first of them commits; the other
deletes its items afterwards. -/
def interleaved : Config Bool SnapshotStore UpsertPoint :=
  run (upsertProgram rescreen) bothSent
    (upsertSteps true 1 ++ upsertSteps false 1 ++ upsertSteps true 3 ++ upsertSteps false 3)

theorem upsertSnapshot_replaces_interleaved :
    (itemsOf interleaved.store 1).map (·.symbol) = ["2317", "2454"] ∧
    ∃ i, ∃ s, findSnapshot interleaved.store (rescreen i).key = some s ∧
      ItemsAre (rescreen i) s.id (itemsOf interleaved.store s.id) ∧
      s.itemCount = (itemsOf interleaved.store s.id).length :=
  ⟨by decide +kernel, upsertSnapshot_replaces
    (show (rescreen true).key = (rescreen false).key from rfl)
    (show ∀ i, bothSent.session i = .select from fun _ => rfl)
    (reaches_run (show Follows _ (fun c i ids =>
        FreshIds c.store (rescreen i).items.length ids ∧ CommitsApart rescreen c i) bothSent
        (upsertSteps true 1 ++ upsertSteps false 1 ++ upsertSteps true 3 ++ upsertSteps false 3)
        by decide +kernel))
    (by decide +kernel)⟩

def crossed : Config Bool SnapshotStore UpsertPoint :=
  run (upsertProgram sendAgain) bothSent
    (upsertSteps true 2 ++ upsertSteps false 2 ++ upsertSteps true 2 ++ upsertSteps false 2)

theorem upsertSnapshot_doubles :
    (∀ i, (crossed.session i).isFinished) ∧
      ¬ ∃ i, ∃ s, findSnapshot crossed.store (sendAgain i).key = some s ∧
        ItemsAre (sendAgain i) s.id (itemsOf crossed.store s.id) ∧
        s.itemCount = (itemsOf crossed.store s.id).length := by
  refine ⟨by decide +kernel, ?_⟩
  rintro ⟨i, s, hfind, hitems, -⟩
  have hfind' : findSnapshot crossed.store (sendAgain i).key =
      some { id := 1, tradeDate := 10, session := sessionEod, generatedAt := 60, itemCount := 1 } := by
    cases i <;> decide +kernel
  obtain rfl := Option.some_inj.mp (hfind'.symm.trans hfind)
  have hlength : 1 = (itemsOf crossed.store 1).length := hitems.length_eq
  exact absurd hlength (by decide +kernel)

end StockQuant
