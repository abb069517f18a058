import StockQuant.Models

/-! Reading the snapshot tables: the join the backtest draws its entries from, and
the same entries found item by item. -/

namespace StockQuant

def inRange (start stop : Date) (session : String) (s : ScreenSnapshot) : Bool :=
  start ≤ s.tradeDate && s.tradeDate ≤ stop && s.session == session

def snapshotEntryRows (store : SnapshotStore) (start stop : Date) (session : String) :
    List (Date × ScreenSnapshotItem) :=
  (store.snapshots.filter (inRange start stop session)).flatMap fun s =>
    (store.items.filter (·.snapshotId = s.id)).map (s.tradeDate, ·)

def entryOrder (a b : Date × ScreenSnapshotItem) : Prop :=
  a.1 < b.1 ∨ (a.1 = b.1 ∧ a.2.rank ≤ b.2.rank)

instance : DecidableRel entryOrder := fun a b =>
  inferInstanceAs (Decidable (a.1 < b.1 ∨ (a.1 = b.1 ∧ a.2.rank ≤ b.2.rank)))

instance : Std.Total entryOrder where
  total a b := by unfold entryOrder; grind

instance : IsTrans (Date × ScreenSnapshotItem) entryOrder where
  trans a b c := by unfold entryOrder; grind

/-- A result the database may return for the query: its rows in some order that
the `ORDER BY` allows. -/
structure IsSnapshotEntries (store : SnapshotStore) (start stop : Date) (session : String)
    (rows : List (Date × ScreenSnapshotItem)) : Prop where
  perm : rows.Perm (snapshotEntryRows store start stop session)
  ordered : rows.Pairwise entryOrder

def listSnapshotEntries (store : SnapshotStore) (start stop : Date) (session : String) :
    List (Date × ScreenSnapshotItem) :=
  (snapshotEntryRows store start stop session).insertionSort entryOrder

theorem listSnapshotEntries_isSnapshotEntries (store : SnapshotStore) (start stop : Date)
    (session : String) :
    IsSnapshotEntries store start stop session (listSnapshotEntries store start stop session) :=
  ⟨List.perm_insertionSort _ _, List.pairwise_insertionSort _ _⟩

def snapshotOf (store : SnapshotStore) (item : ScreenSnapshotItem) : Option ScreenSnapshot :=
  store.snapshots.find? (·.id = item.snapshotId)

def itemsInRange (store : SnapshotStore) (start stop : Date) (session : String) :
    List (Date × ScreenSnapshotItem) :=
  store.items.filterMap fun item =>
    ((snapshotOf store item).filter (inRange start stop session)).map (·.tradeDate, item)

theorem filter_id_eq_find? {l : List ScreenSnapshot} (h : (l.map (·.id)).Nodup) (id : Uuid) :
    l.filter (·.id = id) = (l.find? (·.id = id)).toList := by
  induction l with
  | nil => rfl
  | cons s l ih =>
    have hnd := List.nodup_cons.mp h
    by_cases hs : s.id = id
    · have hno : l.filter (·.id = id) = [] := by
        rw [List.filter_eq_nil_iff]
        intro t ht he
        have he' : t.id = id := by simpa using he
        exact hnd.1 (List.mem_map.mpr ⟨t, ht, he'.trans hs.symm⟩)
      simp [hs, hno]
    · simpa [hs] using ih hnd.2

theorem flatMap_ite {α β : Type} (l : List α) (p : α → Bool) (f : α → β) :
    l.flatMap (fun a => if p a then [f a] else []) = (l.filter p).map f := by
  induction l with
  | nil => rfl
  | cons a l ih => by_cases hp : p a <;> simp [hp, ih]

theorem item_rows (store : SnapshotStore) (start stop : Date) (session : String)
    (item : ScreenSnapshotItem) :
    (store.snapshots.filter (inRange start stop session)).flatMap
        (fun s => if s.id = item.snapshotId then [(s.tradeDate, item)] else []) =
      (((snapshotOf store item).filter (inRange start stop session)).map
        (·.tradeDate, item)).toList := by
  have hfilter : (store.snapshots.filter (inRange start stop session)).filter
      (·.id = item.snapshotId) =
      ((snapshotOf store item).filter (inRange start stop session)).toList := by
    rw [List.filter_comm, filter_id_eq_find? store.ids_nodup, snapshotOf]
    cases store.snapshots.find? (·.id = item.snapshotId) with
    | none => rfl
    | some s => by_cases hs : inRange start stop session s <;> simp [hs, Option.filter]
  have hite := flatMap_ite (store.snapshots.filter (inRange start stop session))
    (fun s => decide (s.id = item.snapshotId)) (fun s => (s.tradeDate, item))
  simp only [decide_eq_true_eq] at hite
  rw [hite, hfilter, Option.toList_map]

/-- The join returns the same pairs, with the same multiplicities, as the scan of
the item table. -/
theorem snapshotEntryRows_perm (store : SnapshotStore) (start stop : Date) (session : String) :
    (snapshotEntryRows store start stop session).Perm
      (itemsInRange store start stop session) := by
  unfold snapshotEntryRows itemsInRange
  generalize store.items = items
  induction items with
  | nil => simp
  | cons item items ih =>
    have hsplit := (List.flatMap_append_perm
      (store.snapshots.filter (inRange start stop session))
      (fun s => if s.id = item.snapshotId then [(s.tradeDate, item)] else [])
      (fun s => (items.filter (·.snapshotId = s.id)).map (s.tradeDate, ·))).symm
    rw [item_rows] at hsplit
    convert hsplit.trans (ih.append_left _) using 1
    · refine List.flatMap_congr fun s _ => ?_
      by_cases hs : item.snapshotId = s.id
      · simp [hs]
      · simp [hs, Ne.symm hs]
    · rw [List.filterMap_cons]
      cases ((snapshotOf store item).filter (inRange start stop session)).map
        (fun s => (s.tradeDate, item)) <;> rfl

theorem IsSnapshotEntries.perm_items {store : SnapshotStore} {start stop : Date} {session : String}
    {rows : List (Date × ScreenSnapshotItem)} (h : IsSnapshotEntries store start stop session rows) :
    rows.Perm (itemsInRange store start stop session) :=
  h.perm.trans (snapshotEntryRows_perm store start stop session)

end StockQuant
