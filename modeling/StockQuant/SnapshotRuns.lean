import StockQuant.LastWrite
import StockQuant.SnapshotContent
import StockQuant.SnapshotRace

/-! Sequences of snapshot ingests, each of which may fail before its commit. -/

namespace StockQuant

open LastWrite ReadCommitted

structure IngestResult where
  tradeDate : Date
  session : String
  itemCount : Int
  replaced : Bool
  deriving DecidableEq

/-- One request, and how many statements it gets through, if it is to fail then. -/
structure Ingest where
  body : SnapshotIngestBody
  ids : SnapshotIds
  fails : Option ℕ := none

namespace Ingest

def after (r : Ingest) (store : SnapshotStore) (n : ℕ) : SnapshotStore × UpsertPoint :=
  alone (upsertAction r.body) (fun _ => r.ids) (store, .select) n

/-- A failure is one that comes before the commit; the upsert has at most five statements. -/
def upsert (r : Ingest) (store : SnapshotStore) : SnapshotStore × UpsertPoint :=
  match r.fails with
  | none => r.after store 5
  | some n => if (r.after store n).2.committed then r.after store 5 else r.after store n

end Ingest

/-- The tables after a request, and its answer unless it failed. -/
def ingestSnapshot (r : Ingest) (store : SnapshotStore) : SnapshotStore × Option IngestResult :=
  if r.body.session ∈ sessions then
    match r.upsert store with
    | (store, .finished snapshot replaced) =>
      (store, some
        { tradeDate := snapshot.tradeDate, session := snapshot.session,
          itemCount := snapshot.itemCount, replaced })
    | (store, _) => (store, none)
  else (store, none)

section Alone

variable {r : Ingest} {store store' : SnapshotStore}

theorem after_succ (n : ℕ) :
    r.after store (n + 1) =
      (upsertAction r.body r.ids (r.after store n).2).perform (r.after store n).1 := rfl

theorem after_fixed {m : ℕ} {s : SnapshotStore × UpsertPoint} (h : r.after store m = s)
    (hfixed : upsertAction r.body r.ids s.2 = .work s.2) (n : ℕ) : r.after store (m + n) = s := by
  induction n with
  | zero => exact h
  | succ n ih => rw [← Nat.add_assoc, after_succ, ih, hfixed, perform_work]

theorem perform_refresh {snapshotId : Uuid} (h : Holds r.body store' snapshotId)
    (replaced : Bool) :
    ∃ s, findSnapshot store' r.body.key = some s ∧
      (upsertAction r.body r.ids (.refresh snapshotId replaced)).perform store' =
        (store', .finished s replaced) := by
  obtain ⟨s, hs, hid, hkey, -⟩ := h.header
  refine ⟨s, findSnapshot_eq_some_iff.mpr ⟨hs, hkey⟩, ?_⟩
  cases hfind : store'.snapshots.find? (·.id = snapshotId) with
  | none => simpa [hid] using List.find?_eq_none.mp hfind s hs
  | some t =>
    have ht : t.id = snapshotId := by simpa using List.find?_some hfind
    obtain rfl := List.inj_on_of_nodup_map store'.ids_nodup (List.mem_of_find?_eq_some hfind) hs
      (ht.trans hid.symm)
    simp [upsertAction, hfind]

theorem perform_commit {write : SnapshotStore → Option SnapshotStore} {done refused : UpsertPoint} :
    (Action.commit write done refused).perform store =
      (write store).elim (store, refused) (·, done) := by
  unfold Action.perform
  dsimp only
  cases write store <;> rfl

/-- The statements of an upsert up to its commit leave the tables, and the commit decides. -/
theorem after_commit (r : Ingest) (store : SnapshotStore) :
    ∃ m ≤ 2, (∀ n ≤ m, (r.after store n).1 = store ∧ (r.after store n).2.committed = false) ∧
      r.after store (m + 1) = (r.body.commit r.ids store).elim (store, .failed) (·,
        .refresh ((findSnapshot store r.body.key).elim r.ids.snapshotId (·.id))
          (findSnapshot store r.body.key).isSome) := by
  have h₀ : r.after store 0 = (store, .select) := rfl
  cases hfind : findSnapshot store r.body.key with
  | none =>
    have h₁ : r.after store 1 = (store, .create) := by
      rw [after_succ, h₀]
      simp [upsertAction, hfind]
    refine ⟨1, by omega, fun n hn => ?_, ?_⟩
    · obtain rfl | rfl : n = 0 ∨ n = 1 := by omega
      · rw [h₀]
        exact ⟨rfl, rfl⟩
      · rw [h₁]
        exact ⟨rfl, rfl⟩
    · rw [after_succ, h₁, SnapshotIngestBody.commit, hfind]
      exact perform_commit
  | some existing =>
    have h₁ : r.after store 1 = (store, .delete existing) := by
      rw [after_succ, h₀]
      simp [upsertAction, hfind]
    have h₂ : r.after store 2 =
        (store, .replace existing ((itemsOf store existing.id).map (·.id))) := by
      rw [after_succ, h₁]
      rfl
    refine ⟨2, le_rfl, fun n hn => ?_, ?_⟩
    · obtain rfl | rfl | rfl : n = 0 ∨ n = 1 ∨ n = 2 := by omega
      · rw [h₀]
        exact ⟨rfl, rfl⟩
      · rw [h₁]
        exact ⟨rfl, rfl⟩
      · rw [h₂]
        exact ⟨rfl, rfl⟩
    · rw [after_succ, h₂, SnapshotIngestBody.commit, hfind]
      exact perform_commit

/-- The body as it is when its commit is done. -/
theorem holds_commit (h : r.body.commit r.ids store = some store') :
    Holds r.body store' ((findSnapshot store r.body.key).elim r.ids.snapshotId (·.id)) := by
  unfold SnapshotIngestBody.commit at h
  cases hfind : findSnapshot store r.body.key with
  | none =>
    rw [hfind] at h
    exact holds_created h
  | some existing =>
    rw [hfind] at h
    obtain ⟨hmem, hkey⟩ := findSnapshot_eq_some_iff.mp hfind
    exact holds_replaced h hmem rfl hkey (sent_self _ _) fun item hitem =>
      List.mem_map_of_mem hitem

/-- A request leaves the tables or makes its commit, and only then has an answer. -/
theorem upsert_cases (r : Ingest) (store : SnapshotStore) :
    ((r.upsert store).1 = store ∧ (∀ s replaced, (r.upsert store).2 ≠ .finished s replaced) ∧
        (r.fails = none → r.body.commit r.ids store = none)) ∨
      ∃ store' s, r.body.commit r.ids store = some store' ∧
        findSnapshot store' r.body.key = some s ∧
        r.upsert store = (store', .finished s (findSnapshot store r.body.key).isSome) := by
  obtain ⟨m, hm, hbefore, hcommit⟩ := after_commit r store
  have hearly {n : ℕ} (hn : (r.after store n).1 = store ∧ (r.after store n).2.committed = false)
      {P : Prop} (hwhy : P) : (r.after store n).1 = store ∧
        (∀ s replaced, (r.after store n).2 ≠ .finished s replaced) ∧ P := by
    refine ⟨hn.1, fun s replaced heq => ?_, hwhy⟩
    rw [heq] at hn
    cases hn.2
  unfold Ingest.upsert
  cases hwrite : r.body.commit r.ids store with
  | none =>
    rw [hwrite] at hcommit
    have hall (n : ℕ) : (r.after store n).1 = store ∧ (r.after store n).2.committed = false := by
      by_cases hn : n ≤ m
      · exact hbefore n hn
      · have hfixed := after_fixed hcommit rfl (n - (m + 1))
        rw [show m + 1 + (n - (m + 1)) = n by omega] at hfixed
        rw [hfixed]
        exact ⟨rfl, rfl⟩
    refine Or.inl ?_
    split
    · exact hearly (hall _) fun _ => rfl
    · split_ifs
      · exact hearly (hall _) fun _ => rfl
      · exact hearly (hall _) fun _ => rfl
  | some store' =>
    rw [hwrite] at hcommit
    obtain ⟨s, hfind, hrefresh⟩ := perform_refresh (holds_commit hwrite)
      (findSnapshot store r.body.key).isSome
    have hdone : r.after store (m + 2) =
        (store', .finished s (findSnapshot store r.body.key).isSome) := by
      rw [after_succ, hcommit]
      exact hrefresh
    have hend : r.after store 5 = (store', .finished s (findSnapshot store r.body.key).isSome) := by
      have hfixed := after_fixed hdone rfl (3 - m)
      rwa [show m + 2 + (3 - m) = 5 by omega] at hfixed
    split
    · exact Or.inr ⟨store', s, rfl, hfind, hend⟩
    · next n hfails =>
      split_ifs with hcommitted
      · exact Or.inr ⟨store', s, rfl, hfind, hend⟩
      · by_cases hn : n ≤ m
        · refine Or.inl (hearly (hbefore n hn) fun hnone => ?_)
          rw [hnone] at hfails
          cases hfails
        · refine absurd ?_ hcommitted
          obtain rfl | ⟨k, rfl⟩ : n = m + 1 ∨ ∃ k, n = m + 2 + k :=
            (Nat.lt_or_eq_of_le (Nat.lt_of_not_le hn)).symm.imp Eq.symm fun hlt =>
              ⟨n - (m + 2), by omega⟩
          · rw [hcommit]
            rfl
          · rw [after_fixed hdone rfl k]
            rfl

/-- What one ingest does to the tables, and when it says that it has replaced. -/
structure IngestStep (r : Ingest) (store store' : SnapshotStore) (result : Option IngestResult) :
    Prop where
  failed : result = none → store' = store
  succeeded : result ≠ none → Written r.body store store'
  replaced : ∀ answer, result = some answer →
    (answer.replaced = true ↔ (findSnapshot store r.body.key).isSome)
  /-- A request that is not broken off is stored exactly if the columns take what it sends. -/
  stored : r.fails = none → r.ids.Fresh store →
    (result ≠ none ↔ r.body.session ∈ sessions ∧ r.body.content.isSome)

theorem ingestSnapshot_step (r : Ingest) (store : SnapshotStore) :
    IngestStep r store (ingestSnapshot r store).1 (ingestSnapshot r store).2 := by
  have hnone {store' : SnapshotStore} (h : store' = store)
      (hwhy : r.fails = none → r.body.session ∈ sessions → r.body.commit r.ids store = none) :
      IngestStep r store store' none := by
    refine ⟨fun _ => h, fun hne => absurd rfl hne, fun _ hsome => (by cases hsome),
      fun hfails hfresh => iff_of_false (fun hne => hne rfl) ?_⟩
    rintro ⟨hsession, htaken⟩
    rw [← isSome_commit_iff hfresh, hwhy hfails hsession] at htaken
    cases htaken
  unfold ingestSnapshot
  split_ifs with hsession
  · rcases upsert_cases r store with ⟨hstore, hpoint, hwhy⟩ | ⟨store', s, hcommit, -, hdone⟩
    · split
      · next store' s replaced heq => exact absurd (congrArg Prod.snd heq) (hpoint s replaced)
      · next store' point _ heq =>
        exact hnone ((congrArg Prod.fst heq).symm.trans hstore) fun hfails _ => hwhy hfails
    · rw [hdone]
      refine ⟨fun hnone => ?_, fun _ => written_commit hcommit, fun answer hanswer => ?_,
        fun _ hfresh => iff_of_true (by simp) ⟨hsession, ?_⟩⟩
      · cases hnone
      · obtain rfl := Option.some.inj hanswer
        exact Iff.rfl
      · exact (isSome_commit_iff hfresh).mp (Option.isSome_of_eq_some hcommit)
  · exact hnone rfl fun _ h => absurd h hsession

end Alone

def emptySnapshots : SnapshotStore where
  snapshots := []
  items := []
  ids_nodup := List.nodup_nil
  itemIds_nodup := List.nodup_nil
  keys_nodup := List.nodup_nil
  items_owned := by simp

structure IngestRun where
  store : SnapshotStore := emptySnapshots
  log : List (Ingest × Option IngestResult) := []

def IngestRun.ingest (s : IngestRun) (r : Ingest) : IngestRun where
  store := (ingestSnapshot r s.store).1
  log := s.log ++ [(r, (ingestSnapshot r s.store).2)]

def runIngests (ingests : List Ingest) : IngestRun := ingests.foldl IngestRun.ingest {}

/-- The keys and bodies of the ingests that succeeded, in order. -/
def IngestRun.successes (s : IngestRun) : List ((Date × String) × Option SnapshotContent) :=
  s.log.filterMap fun entry => entry.2.map fun _ => (entry.1.body.key, entry.1.body.content)

def Counted (store : SnapshotStore) : Prop :=
  ∀ s ∈ store.snapshots, s.itemCount = (itemsOf store s.id).length

/-- The tables hold what the last successful ingest of each key brought. -/
structure LastWriteWins (s : IngestRun) : Prop where
  content : ∀ key, contentOf s.store key = written (fun _ => none) s.successes key
  stored : ∀ w ∈ s.successes, w.2.isSome
  counted : Counted s.store

theorem Written.counted {body : SnapshotIngestBody} {store store' : SnapshotStore}
    (h : Written body store store') (hcounted : Counted store) : Counted store' := by
  intro s hs
  have hfind : findSnapshot store' s.key = some s := findSnapshot_eq_some_iff.mpr ⟨hs, rfl⟩
  by_cases hkey : s.key = body.key
  · obtain ⟨snapshotId, rows, hare, -, hheader, rfl⟩ := h.stored
    rw [hkey, hheader] at hfind
    obtain rfl := Option.some.inj hfind
    exact congrArg Nat.cast hare.length_eq
  · obtain ⟨hsame, hitems⟩ := h.others s.key hkey
    rw [hsame] at hfind
    rw [hitems s hfind]
    exact hcounted s (findSnapshot_eq_some_iff.mp hfind).1

theorem LastWriteWins.ingest {s : IngestRun} (h : LastWriteWins s) (r : Ingest) :
    LastWriteWins (s.ingest r) := by
  have hstep := ingestSnapshot_step r s.store
  unfold IngestRun.ingest
  rcases hresult : ingestSnapshot r s.store with ⟨store', _ | answer⟩
  · rw [hresult] at hstep
    have hstore : store' = s.store := hstep.failed rfl
    have hsame : IngestRun.successes { store := store', log := s.log ++ [(r, none)] } =
        s.successes := by simp [IngestRun.successes]
    refine ⟨?_, ?_, ?_⟩
    · rw [hsame, hstore]
      exact h.content
    · rw [hsame]
      exact h.stored
    · rw [hstore]
      exact h.counted
  · rw [hresult] at hstep
    have hwritten := hstep.succeeded (by simp)
    obtain ⟨hsome, hcontent⟩ := hwritten.contentOf
    have hmore : IngestRun.successes { store := store', log := s.log ++ [(r, some answer)] } =
        s.successes ++ [(r.body.key, r.body.content)] := by simp [IngestRun.successes]
    refine ⟨fun key => ?_, fun w hw => ?_, hwritten.counted h.counted⟩
    · rw [hmore, written_snoc_apply]
      by_cases hkey : key = r.body.key
      · rw [if_pos hkey, hkey]
        exact hcontent
      · rw [if_neg hkey, ← h.content key]
        exact hwritten.contentOf_of_ne hkey
    · rw [hmore] at hw
      rcases List.mem_append.mp hw with hw | hw
      · exact h.stored w hw
      · rw [List.mem_singleton.mp hw]
        exact hsome

theorem runIngests_snoc (ingests : List Ingest) (r : Ingest) :
    runIngests (ingests ++ [r]) = (runIngests ingests).ingest r := by
  simp [runIngests]

theorem runIngests_lastWriteWins (ingests : List Ingest) : LastWriteWins (runIngests ingests) := by
  induction ingests using List.reverseRecOn with
  | nil =>
    refine ⟨fun _ => rfl, fun w hw => ?_, fun s hs => ?_⟩
    · cases hw
    · cases hs
  | append_singleton ingests r ih =>
    rw [runIngests_snoc]
    exact ih.ingest r

theorem countP_key (store : SnapshotStore) (key : Date × String) :
    store.snapshots.countP (·.key = key) = if (contentOf store key).isSome then 1 else 0 := by
  have hcount : store.snapshots.countP (·.key = key) =
      (store.snapshots.map ScreenSnapshot.key).count key := by
    rw [List.count, List.countP_map]
    exact List.countP_congr fun s _ => by simp
  have hmem : (contentOf store key).isSome ↔ key ∈ store.snapshots.map ScreenSnapshot.key := by
    rw [contentOf, Option.isSome_map, Option.isSome_iff_exists]
    simp only [findSnapshot_eq_some_iff, List.mem_map]
  simp only [hcount, store.keys_nodup.count, hmem]

end StockQuant
