import Mathlib.Data.Prod.Lex
import Mathlib.Data.String.Basic
import Mathlib.Logic.Embedding.Basic
import StockQuant.Models
import StockQuant.StableSort

/-! The list of snapshot headers for the download page, newest first up to a limit, or all
of a range, oldest first. -/

namespace StockQuant

open StableSort

structure SnapshotMeta where
  tradeDate : Date
  session : String
  generatedAt : ℚ
  source : String
  «universe» : Int
  quotable : Int
  poolSize : Int
  itemCount : Int
  warning : Option String := none
  deriving DecidableEq

def snapshotMeta (s : ScreenSnapshot) : SnapshotMeta where
  tradeDate := s.tradeDate
  session := s.session
  generatedAt := s.generatedAt
  source := s.source
  «universe» := s.universe
  quotable := s.quotable
  poolSize := s.poolSize
  itemCount := s.itemCount
  warning := s.warning

/-- The query parameters; the framework refuses a limit out of bounds. -/
structure SnapshotQuery where
  limit : Nat := 365
  start : Option Date := none
  stop : Option Date := none
  session : Option String := none
  limit_pos : 1 ≤ limit := by decide
  limit_le : limit ≤ 2000 := by decide

section Listing

-- `collation` is the order in which the database puts texts.
variable {L : Type} [LinearOrder L] (collation : String ↪ L)

def ScreenSnapshot.newest (s : ScreenSnapshot) : Dateᵒᵈ ×ₗ L :=
  toLex (OrderDual.toDual s.tradeDate, collation s.session)

def ScreenSnapshot.oldest (s : ScreenSnapshot) : Date ×ₗ L :=
  toLex (s.tradeDate, collation s.session)

def listSnapshots (store : SnapshotStore) (limit : Nat) : List ScreenSnapshot :=
  (store.snapshots.insertionSort fun a b => a.newest collation ≤ b.newest collation).take limit

def listSnapshotsInRange (store : SnapshotStore) (start stop : Date) (session : Option String) :
    List ScreenSnapshot :=
  (store.snapshots.filter fun s =>
    start ≤ s.tradeDate && s.tradeDate ≤ stop && session.all (s.session == ·)).insertionSort
      fun a b => a.oldest collation ≤ b.oldest collation

/-- The endpoint of the download module. -/
def Download.listSnapshots (store : SnapshotStore) (query : SnapshotQuery) :
    Except String (List SnapshotMeta) :=
  match query.start, query.stop with
  | none, none => .ok ((StockQuant.listSnapshots collation store query.limit).map snapshotMeta)
  | some start, some stop =>
    if stop < start then .error "start must not be after end."
    else if query.session.any (· ∉ sessions) then
      .error "session must be one of ('intraday_1300', 'eod')."
    else .ok ((listSnapshotsInRange collation store start stop query.session).map snapshotMeta)
  | _, _ => .error "start and end must be provided together."

end Listing

section Place

variable {L : Type} {collation : String ↪ L} {a b : ScreenSnapshot}

theorem newest_injective (h : a.newest collation = b.newest collation) :
    a.key = b.key := by
  have hplace := toLex_inj.mp h
  exact Prod.ext (OrderDual.toDual_inj.mp (Prod.mk.inj hplace).1)
    (collation.injective (Prod.mk.inj hplace).2)

theorem oldest_injective (h : a.oldest collation = b.oldest collation) :
    a.key = b.key := by
  have hplace := toLex_inj.mp h
  exact Prod.ext (Prod.mk.inj hplace).1 (collation.injective (Prod.mk.inj hplace).2)

end Place

/-- The header satisfies every filter that is given. -/
def SnapshotQuery.matches (query : SnapshotQuery) (s : ScreenSnapshot) : Bool :=
  query.start.all (· ≤ s.tradeDate) && query.stop.all (s.tradeDate ≤ ·) &&
    query.session.all (s.session == ·)

def SnapshotQuery.known (query : SnapshotQuery) : Prop := ∀ session ∈ query.session, session ∈ sessions

section Listing

variable {L : Type} [LinearOrder L] (collation : String ↪ L)

/-- All headers that match are listed for a range, and the newest of them without one; a
session that does not exist is refused. -/
structure ListsMatching (store : SnapshotStore) (query : SnapshotQuery)
    (answer : Except String (List SnapshotMeta)) : Prop where
  unknown : ¬ query.known → ∃ message, answer = .error message
  ranged : ∀ start stop, query.start = some start → query.stop = some stop → start ≤ stop →
    query.known → ∃ rows : List ScreenSnapshot, answer = .ok (rows.map snapshotMeta) ∧
      rows.Perm (store.snapshots.filter query.matches) ∧
      rows.Pairwise fun a b => a.oldest collation < b.oldest collation
  newest : query.start = none → query.stop = none → query.known →
    ∃ rows : List ScreenSnapshot, answer = .ok ((rows.take query.limit).map snapshotMeta) ∧
      rows.Perm (store.snapshots.filter query.matches) ∧
      rows.Pairwise fun a b => a.newest collation < b.newest collation

/-- No header of another session is among the newest ones that the limit lets through. -/
def OnlySession (store : SnapshotStore) (limit : Nat) (session : String) : Prop :=
  ∀ s ∈ store.snapshots, s.session ≠ session →
    limit ≤ store.snapshots.countP fun t => t.newest collation < s.newest collation

variable {collation}

/-- The rows of the table are in a strict order once they are sorted by a place that tells
them apart. -/
theorem pairwise_sorted {P : Type} [LinearOrder P] {place : ScreenSnapshot → P}
    (hplace : ∀ a b, place a = place b → a.key = b.key) {l : List ScreenSnapshot}
    (hl : (l.map ScreenSnapshot.key).Nodup) :
    (l.insertionSort fun a b => place a ≤ place b).Pairwise fun a b => place a < place b := by
  have : Std.Total fun a b : ScreenSnapshot => place a ≤ place b := ⟨fun _ _ => le_total _ _⟩
  have : IsTrans ScreenSnapshot fun a b => place a ≤ place b := ⟨fun _ _ _ => le_trans⟩
  have hle := List.pairwise_insertionSort (fun a b : ScreenSnapshot => place a ≤ place b) l
  have hnodup : ((l.insertionSort fun a b => place a ≤ place b).map ScreenSnapshot.key).Nodup :=
    ((List.perm_insertionSort _ l).map _).nodup_iff.mpr hl
  refine hle.and (List.pairwise_map.mp hnodup) |>.imp fun {a b} h => ?_
  exact lt_of_le_of_ne h.1 fun heq => h.2 (hplace a b heq)

theorem newest_sorted (collation : String ↪ L) (store : SnapshotStore) :
    (store.snapshots.insertionSort fun a b =>
      a.newest collation ≤ b.newest collation).Pairwise
        fun a b => a.newest collation < b.newest collation :=
  pairwise_sorted (fun _ _ => newest_injective) store.keys_nodup

theorem onlySession_iff {store : SnapshotStore} {limit : Nat} {session : String} :
    OnlySession collation store limit session ↔
      ∀ s ∈ listSnapshots collation store limit, s.session = session := by
  have hperm := List.perm_insertionSort
    (fun a b : ScreenSnapshot => a.newest collation ≤ b.newest collation) store.snapshots
  have : Std.Asymm fun a b : ScreenSnapshot => a.newest collation < b.newest collation :=
    ⟨fun _ _ => lt_asymm⟩
  have htake (s : ScreenSnapshot) (hs : s ∈ store.snapshots) :=
    mem_take_iff_countP limit (newest_sorted collation store) (hperm.mem_iff.mpr hs)
  unfold listSnapshots
  constructor
  · intro h s hs
    by_contra hsession
    have hstored := hperm.mem_iff.mp (List.mem_of_mem_take hs)
    have hlt := (htake s hstored).mp hs
    rw [hperm.countP_eq] at hlt
    exact absurd (h s hstored hsession) (not_le.mpr hlt)
  · intro h s hs hsession
    by_contra hlt
    rw [not_le, ← hperm.countP_eq] at hlt
    exact hsession (h s ((htake s hs).mpr hlt))

theorem listSnapshots_newest_iff (collation : String ↪ L) (store : SnapshotStore)
    {query : SnapshotQuery} (hstart : query.start = none) (hstop : query.stop = none) :
    (∃ rows : List ScreenSnapshot,
      (listSnapshots collation store query.limit).map snapshotMeta =
        (rows.take query.limit).map snapshotMeta ∧
      rows.Perm (store.snapshots.filter query.matches) ∧
      rows.Pairwise fun a b => a.newest collation < b.newest collation) ↔
      ∀ session ∈ query.session, OnlySession collation store query.limit session := by
  have hmatches (s : ScreenSnapshot) : query.matches s ↔ ∀ session ∈ query.session,
      s.session = session := by
    unfold SnapshotQuery.matches
    rw [hstart, hstop]
    cases query.session <;> simp
  simp only [onlySession_iff]
  constructor
  · rintro ⟨rows, hsame, hperm, -⟩ session hsession s hs
    have hmeta : snapshotMeta s ∈ (rows.take query.limit).map snapshotMeta :=
      hsame ▸ List.mem_map_of_mem hs
    obtain ⟨t, ht, heq⟩ := List.mem_map.mp hmeta
    have hmatch := (List.mem_filter.mp (hperm.mem_iff.mp (List.mem_of_mem_take ht))).2
    exact (congrArg SnapshotMeta.session heq).symm.trans ((hmatches t).mp hmatch session hsession)
  · intro h
    let sorted := store.snapshots.insertionSort fun a b =>
      a.newest collation ≤ b.newest collation
    refine ⟨sorted.filter query.matches, ?_, (List.perm_insertionSort _ _).filter _,
      (newest_sorted collation store).filter _⟩
    have hall : ∀ s ∈ sorted.take query.limit, query.matches s := fun s hs =>
      (hmatches s).mpr fun session hsession => h session hsession s hs
    rw [take_filter_of_take _ hall]
    rfl

theorem listSnapshotsInRange_spec (store : SnapshotStore) {query : SnapshotQuery}
    {start stop : Date} (hstart : query.start = some start) (hstop : query.stop = some stop) :
    (listSnapshotsInRange collation store start stop query.session).Perm
        (store.snapshots.filter query.matches) ∧
      (listSnapshotsInRange collation store start stop query.session).Pairwise
        fun a b => a.oldest collation < b.oldest collation := by
  have hmatches : query.matches = fun s : ScreenSnapshot =>
      start ≤ s.tradeDate && s.tradeDate ≤ stop && query.session.all (s.session == ·) := by
    funext s
    unfold SnapshotQuery.matches
    rw [hstart, hstop]
    rfl
  rw [hmatches]
  refine ⟨List.perm_insertionSort _ _, pairwise_sorted (fun _ _ => oldest_injective) ?_⟩
  exact store.keys_nodup.sublist (List.filter_sublist.map _)

theorem known_iff {query : SnapshotQuery} :
    query.known ↔ ¬ query.session.any (· ∉ sessions) := by
  unfold SnapshotQuery.known
  cases query.session <;> simp

theorem listsMatching_of_oneEnd {store : SnapshotStore} {query : SnapshotQuery} (message : String)
    (h : query.start.isSome ≠ query.stop.isSome) :
    ListsMatching collation store query (.error message) := by
  refine ⟨fun _ => ⟨message, rfl⟩, fun start stop hstart hstop => ?_, fun hstart hstop => ?_⟩
  · rw [hstart, hstop] at h
    exact absurd rfl h
  · rw [hstart, hstop] at h
    exact absurd rfl h

/-- What the endpoint answers once both ends are given. -/
theorem listsMatching_of_range {store : SnapshotStore} {query : SnapshotQuery} {start stop : Date}
    (hstart : query.start = some start) (hstop : query.stop = some stop) :
    ListsMatching collation store query
      (if stop < start then .error "start must not be after end."
      else if query.session.any (· ∉ sessions) then
        .error "session must be one of ('intraday_1300', 'eod')."
      else .ok ((listSnapshotsInRange collation store start stop query.session).map
        snapshotMeta)) := by
  refine ⟨fun hunknown => ?_, fun lo hi hlo hhi hle hknown => ?_, fun hstart' => ?_⟩
  · rw [known_iff, not_not] at hunknown
    rw [if_pos hunknown]
    split_ifs <;> exact ⟨_, rfl⟩
  · obtain rfl := Option.some.inj (hstart.symm.trans hlo)
    obtain rfl := Option.some.inj (hstop.symm.trans hhi)
    rw [if_neg (not_lt.mpr hle), if_neg (known_iff.mp hknown)]
    exact ⟨_, rfl, listSnapshotsInRange_spec store hstart hstop⟩
  · rw [hstart] at hstart'
    cases hstart'

/-- The filters are honoured unless a session is given without a range, and it does not exist
or the newest headers are not all of that session. -/
theorem listSnapshots_matching_iff (collation : String ↪ L) (store : SnapshotStore)
    (query : SnapshotQuery) :
    ListsMatching collation store query (Download.listSnapshots collation store query) ↔
      (query.start = none → query.stop = none → ∀ session ∈ query.session,
        session ∈ sessions ∧ OnlySession collation store query.limit session) := by
  unfold Download.listSnapshots
  rcases hstart : query.start with _ | start <;> rcases hstop : query.stop with _ | stop
  · have hnewest := listSnapshots_newest_iff collation store hstart hstop
    constructor
    · intro h _ _ session hsession
      have hknown : query.known := by
        by_contra hunknown
        obtain ⟨message, hmessage⟩ := h.unknown hunknown
        cases hmessage
      obtain ⟨rows, hrows, hspec⟩ := h.newest hstart hstop hknown
      exact ⟨hknown session hsession,
        hnewest.mp ⟨rows, Except.ok.inj hrows, hspec⟩ session hsession⟩
    · intro h
      have hknown : query.known := fun session hsession => (h rfl rfl session hsession).1
      obtain ⟨rows, hrows, hspec⟩ :=
        hnewest.mpr fun session hsession => (h rfl rfl session hsession).2
      refine ⟨fun hunknown => absurd hknown hunknown, fun start stop hstart' => ?_,
        fun _ _ _ => ⟨rows, congrArg _ hrows, hspec⟩⟩
      rw [hstart] at hstart'
      cases hstart'
  · exact iff_of_true (listsMatching_of_oneEnd _ (by simp [hstart, hstop]))
      fun _ hstop' => nomatch hstop'
  · exact iff_of_true (listsMatching_of_oneEnd _ (by simp [hstart, hstop]))
      fun hstart' => nomatch hstart'
  · exact iff_of_true (listsMatching_of_range hstart hstop) fun hstart' => nomatch hstart'

end Listing

/-- A day with a snapshot of each session. -/
def bothSessions : SnapshotStore where
  snapshots :=
    [{ id := 1, tradeDate := 10, session := "intraday_1300", generatedAt := 0 },
      { id := 2, tradeDate := 10, session := "eod", generatedAt := 0 }]
  items := []
  ids_nodup := by decide
  itemIds_nodup := List.nodup_nil
  keys_nodup := by decide
  items_owned := by decide

theorem listSnapshots_ignores_session :
    let list (session : String) := Download.listSnapshots (Function.Embedding.refl String)
      bothSessions { session := some session }
    list "eod" = .ok (bothSessions.snapshots.reverse.map snapshotMeta) ∧
      ¬ ListsMatching (Function.Embedding.refl String) bothSessions { session := some "eod" }
        (list "eod") ∧
      ¬ ListsMatching (Function.Embedding.refl String) bothSessions { session := some "weekly" }
        (list "weekly") := by
  intro list
  have hlisted : list "eod" = .ok (bothSessions.snapshots.reverse.map snapshotMeta) := by
    decide +kernel
  refine ⟨hlisted, fun h => ?_, fun h => ?_⟩
  · obtain ⟨rows, hrows, hperm, -⟩ := h.newest rfl rfl (by simp [SnapshotQuery.known, sessions,
      sessionEod])
    have hboth : ∀ s ∈ bothSessions.snapshots.reverse.map snapshotMeta, s.session = "eod" := by
      rw [Except.ok.inj (hlisted.symm.trans hrows)]
      intro s hs
      obtain ⟨t, ht, rfl⟩ := List.mem_map.mp hs
      have hmatch := (List.mem_filter.mp (hperm.mem_iff.mp (List.mem_of_mem_take ht))).2
      simpa [SnapshotQuery.matches, snapshotMeta] using hmatch
    exact absurd hboth (by decide)
  · obtain ⟨message, hmessage⟩ :=
      h.unknown (by simp [SnapshotQuery.known, sessions, sessionEod, sessionIntraday1300])
    cases hmessage

end StockQuant
