import StockQuant.SnapshotListing
import StockQuant.Snapshots

/-! The entries of a backtest and those of the downloads: one join sorted on two columns, and
the items of each listed snapshot in turn. -/

namespace StockQuant

/-- A result the database may return for the items of a snapshot. -/
structure IsSnapshotItems (store : SnapshotStore) (snapshotId : Uuid)
    (items : List ScreenSnapshotItem) : Prop where
  perm : items.Perm (store.items.filter (·.snapshotId = snapshotId))
  ordered : items.Pairwise fun a b => a.rank ≤ b.rank

def getSnapshotItems (store : SnapshotStore) (snapshotId : Uuid) : List ScreenSnapshotItem :=
  (store.items.filter (·.snapshotId = snapshotId)).insertionSort fun a b => a.rank ≤ b.rank

theorem getSnapshotItems_isSnapshotItems (store : SnapshotStore) (snapshotId : Uuid) :
    IsSnapshotItems store snapshotId (getSnapshotItems store snapshotId) := by
  have : Std.Total fun a b : ScreenSnapshotItem => a.rank ≤ b.rank := ⟨fun _ _ => le_total _ _⟩
  have : IsTrans ScreenSnapshotItem fun a b => a.rank ≤ b.rank := ⟨fun _ _ _ => le_trans⟩
  exact ⟨List.perm_insertionSort _ _, List.pairwise_insertionSort _ _⟩

/-- The items of each snapshot with its date, one snapshot after the other. -/
def nestedEntries (snapshots : List ScreenSnapshot) (items : Uuid → List ScreenSnapshotItem) :
    List (Date × ScreenSnapshotItem) :=
  snapshots.flatMap fun s => (items s.id).map (s.tradeDate, ·)

/-- Where an entry stands: entries of equal place are of one snapshot and of equal rank. -/
def entryPlace (entry : Date × ScreenSnapshotItem) : Date × Uuid × Int :=
  (entry.1, entry.2.snapshotId, entry.2.rank)

section Nested

variable {L : Type} [LinearOrder L] {collation : String ↪ L} {store : SnapshotStore}
  {start stop : Date} {session : String}

theorem listSnapshotsInRange_perm :
    (listSnapshotsInRange collation store start stop (some session)).Perm
      (store.snapshots.filter (inRange start stop session)) :=
  List.perm_insertionSort _ _

/-- Within one session the listed snapshots are of strictly ascending days. -/
theorem listSnapshotsInRange_ascending :
    (listSnapshotsInRange collation store start stop (some session)).Pairwise
      fun a b => a.tradeDate < b.tradeDate := by
  have hkeys := store.keys_nodup.sublist
    (List.filter_sublist (p := inRange start stop session).map ScreenSnapshot.key)
  have hplaces : (listSnapshotsInRange collation store start stop (some session)).Pairwise
      fun a b => a.oldest collation < b.oldest collation :=
    pairwise_sorted (fun _ _ => oldest_injective) hkeys
  refine hplaces.imp_of_mem fun {a b} ha hb hlt => ?_
  have hsession (s : ScreenSnapshot)
      (hs : s ∈ listSnapshotsInRange collation store start stop (some session)) :
      s.session = session := by
    have hs := (List.mem_filter.mp (listSnapshotsInRange_perm.mem_iff.mp hs)).2
    simp only [inRange, Bool.and_eq_true, beq_iff_eq] at hs
    exact hs.2
  rcases Prod.Lex.toLex_lt_toLex.mp hlt with hday | ⟨-, hlt⟩
  · exact hday
  · dsimp only at hlt
    rw [hsession a ha, hsession b hb] at hlt
    exact absurd hlt (lt_irrefl _)

variable {items : Uuid → List ScreenSnapshotItem}
  (hitems : ∀ s ∈ store.snapshots, IsSnapshotItems store s.id (items s.id))
include hitems

theorem nestedEntries_perm :
    (nestedEntries (listSnapshotsInRange collation store start stop (some session)) items).Perm
      (snapshotEntryRows store start stop session) := by
  refine (listSnapshotsInRange_perm.flatMap_right _).trans ?_
  refine List.Perm.flatMap_left _ fun s hs => ?_
  exact (hitems s (List.mem_of_mem_filter hs)).perm.map _

theorem nestedEntries_ordered :
    (nestedEntries (listSnapshotsInRange collation store start stop (some session))
      items).Pairwise entryOrder := by
  refine List.pairwise_flatMap.mpr ⟨fun s hs => ?_, ?_⟩
  · have hstored := List.mem_of_mem_filter (listSnapshotsInRange_perm.mem_iff.mp hs)
    rw [List.pairwise_map]
    exact (hitems s hstored).ordered.imp fun hle => Or.inr ⟨rfl, hle⟩
  · refine listSnapshotsInRange_ascending.imp fun {a b} hlt x hx y hy => ?_
    obtain ⟨_, -, rfl⟩ := List.mem_map.mp hx
    obtain ⟨_, -, rfl⟩ := List.mem_map.mp hy
    exact Or.inl hlt

end Nested

theorem antisymm_entryOrder {a b : Date × ScreenSnapshotItem} (hab : entryOrder a b)
    (hba : entryOrder b a) : a.1 = b.1 ∧ a.2.rank = b.2.rank := by
  rcases hab with hlt | ⟨hday, hle⟩
  · rcases hba with hlt' | ⟨hday, -⟩
    · exact absurd hlt (lt_asymm hlt')
    · exact absurd hday hlt.ne'
  · rcases hba with hlt | ⟨-, hle'⟩
    · exact absurd hday hlt.ne'
    · exact ⟨hday, le_antisymm hle hle'⟩

/-- An entry belongs to the one snapshot of its day. -/
theorem snapshotId_of_day {store : SnapshotStore} {start stop : Date} {session : String}
    {a b : Date × ScreenSnapshotItem} (ha : a ∈ snapshotEntryRows store start stop session)
    (hb : b ∈ snapshotEntryRows store start stop session) (h : a.1 = b.1) :
    a.2.snapshotId = b.2.snapshotId := by
  have howner (e : Date × ScreenSnapshotItem)
      (he : e ∈ snapshotEntryRows store start stop session) :
      ∃ s ∈ store.snapshots, s.key = (e.1, session) ∧ s.id = e.2.snapshotId := by
    obtain ⟨s, hs, he⟩ := List.mem_flatMap.mp he
    obtain ⟨hstored, hrange⟩ := List.mem_filter.mp hs
    obtain ⟨item, hitem, rfl⟩ := List.mem_map.mp he
    simp only [inRange, Bool.and_eq_true, beq_iff_eq] at hrange
    have hid := of_decide_eq_true (List.mem_filter.mp hitem).2
    exact ⟨s, hstored, Prod.ext rfl hrange.2, hid.symm⟩
  obtain ⟨s, hs, hkey, hid⟩ := howner a ha
  obtain ⟨t, ht, hkey', hid'⟩ := howner b hb
  rw [← hid, ← hid', List.inj_on_of_nodup_map store.keys_nodup hs ht (by rw [hkey, hkey', h])]

/-- The join returns the entries of the downloads, in the same order up to items of equal rank
within one snapshot. -/
theorem listSnapshotEntries_nested {L : Type} [LinearOrder L] (collation : String ↪ L)
    {store : SnapshotStore} {start stop : Date} {session : String}
    {rows : List (Date × ScreenSnapshotItem)} {items : Uuid → List ScreenSnapshotItem}
    (hrows : IsSnapshotEntries store start stop session rows)
    (hitems : ∀ s ∈ store.snapshots, IsSnapshotItems store s.id (items s.id)) :
    let nested :=
      nestedEntries (listSnapshotsInRange collation store start stop (some session)) items
    rows.Perm nested ∧ rows.map entryPlace = nested.map entryPlace := by
  intro nested
  have hnested : nested.Perm (snapshotEntryRows store start stop session) :=
    nestedEntries_perm hitems
  have hperm : rows.Perm nested := hrows.perm.trans hnested.symm
  refine ⟨hperm, ?_⟩
  let before (a b : Date × Uuid × Int) : Prop := a.1 < b.1 ∨ (a.1 = b.1 ∧ a.2.2 ≤ b.2.2)
  have hjoined : (rows.map entryPlace).Pairwise before := List.pairwise_map.mpr hrows.ordered
  have hlisted : (nested.map entryPlace).Pairwise before :=
    List.pairwise_map.mpr (nestedEntries_ordered hitems)
  refine List.Perm.eq_of_pairwise (fun a b ha hb hab hba => ?_) hjoined hlisted (hperm.map _)
  obtain ⟨x, hx, rfl⟩ := List.mem_map.mp ha
  obtain ⟨y, hy, rfl⟩ := List.mem_map.mp hb
  obtain ⟨hday, hrank⟩ := antisymm_entryOrder hab hba
  have hsnapshot := snapshotId_of_day (hrows.perm.mem_iff.mp hx) (hnested.mem_iff.mp hy) hday
  exact Prod.ext hday (Prod.ext hsnapshot hrank)

/-- Two days, the second with two items of one rank, beside a session without items. -/
def tiedStore : SnapshotStore where
  snapshots :=
    [{ id := 1, tradeDate := 11, session := "eod", generatedAt := 0 },
      { id := 2, tradeDate := 10, session := "eod", generatedAt := 0 },
      { id := 3, tradeDate := 10, session := "intraday_1300", generatedAt := 0 }]
  items :=
    [{ id := 1, snapshotId := 1, rank := 1, symbol := "2330" },
      { id := 2, snapshotId := 1, rank := 1, symbol := "2317" },
      { id := 3, snapshotId := 2, rank := 1, symbol := "2330" }]
  ids_nodup := by decide
  itemIds_nodup := by decide
  keys_nodup := by decide
  items_owned := by decide

theorem listSnapshotEntries_nested_tied :
    let rows := listSnapshotEntries tiedStore 10 11 sessionEod
    let nested := nestedEntries (listSnapshotsInRange (Function.Embedding.refl String) tiedStore
      10 11 (some sessionEod)) (getSnapshotItems tiedStore)
    rows.Perm nested ∧ rows.map entryPlace = nested.map entryPlace :=
  listSnapshotEntries_nested (Function.Embedding.refl String)
    (listSnapshotEntries_isSnapshotEntries tiedStore 10 11 sessionEod)
    fun s _ => getSnapshotItems_isSnapshotItems tiedStore s.id

end StockQuant
