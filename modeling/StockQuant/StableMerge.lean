import StockQuant.StableSort

/-! Sorting a list from its parts: the sorted parts merge into the sorted whole, and the first
elements of the whole are among the first elements of each part. -/

namespace StableSort

variable {α : Type*} {r : α → α → Prop} [DecidableRel r]

/-- Of two tied heads the one of the left list comes first. -/
def mergeBy (r : α → α → Prop) [DecidableRel r] (l l' : List α) : List α :=
  List.merge l l' fun a b => decide (r a b)

@[simp] theorem nil_mergeBy (l : List α) : mergeBy r [] l = l := List.nil_merge l

@[simp] theorem mergeBy_nil (l : List α) : mergeBy r l [] = l := List.merge_right l

theorem mergeBy_cons (a b : α) (l l' : List α) : mergeBy r (a :: l) (b :: l') =
    if r a b then a :: mergeBy r l (b :: l') else b :: mergeBy r (a :: l) l' := by
  unfold mergeBy
  rw [List.cons_merge_cons]
  simp only [decide_eq_true_eq]

theorem orderedInsert_eq_mergeBy (a : α) (l : List α) :
    l.orderedInsert r a = mergeBy r [a] l := by
  induction l with
  | nil => simp
  | cons b l ih => rw [List.orderedInsert_cons, mergeBy_cons, nil_mergeBy, ih]

section Sorted

variable [Std.Total r] [IsTrans α r]

theorem orderedInsert_mergeBy (a : α) (l l' : List α) :
    (mergeBy r l l').orderedInsert r a = mergeBy r (l.orderedInsert r a) l' := by
  induction l generalizing l' with
  | nil => rw [nil_mergeBy, orderedInsert_eq_mergeBy, List.orderedInsert_nil]
  | cons b l ihl =>
    induction l' with
    | nil => rw [mergeBy_nil, mergeBy_nil]
    | cons c l' ih =>
      rw [mergeBy_cons, List.orderedInsert_cons r a b l]
      by_cases hbc : r b c
      · by_cases hab : r a b
        · have hac : r a c := IsTrans.trans a b c hab hbc
          rw [if_pos hbc, if_pos hab, mergeBy_cons, if_pos hac, mergeBy_cons, if_pos hbc,
            List.orderedInsert_cons, if_pos hab]
        · rw [if_pos hbc, if_neg hab, mergeBy_cons, if_pos hbc, List.orderedInsert_cons,
            if_neg hab, ihl]
      · have hcb : r c b := (Std.Total.total b c).resolve_left hbc
        rw [if_neg hbc, List.orderedInsert_cons]
        by_cases hac : r a c
        · have hab : r a b := IsTrans.trans a c b hac hcb
          rw [if_pos hac, if_pos hab, mergeBy_cons, if_pos hac, mergeBy_cons, if_neg hbc]
        · rw [if_neg hac, ih, List.orderedInsert_cons]
          by_cases hab : r a b
          · rw [if_pos hab, mergeBy_cons, if_neg hac]
          · rw [if_neg hab, mergeBy_cons, if_neg hbc]

theorem insertionSort_append (l l' : List α) : (l ++ l').insertionSort r =
    mergeBy r (l.insertionSort r) (l'.insertionSort r) := by
  induction l with
  | nil => simp
  | cons a l ih =>
    rw [List.cons_append, List.insertionSort_cons, List.insertionSort_cons, ih,
      orderedInsert_mergeBy]

end Sorted

/-- For its first `k` elements the merge looks no further than the first `k` of either list. -/
theorem take_mergeBy_take {k m n : ℕ} (hm : k ≤ m) (hn : k ≤ n) (l l' : List α) :
    (mergeBy r (l.take m) (l'.take n)).take k = (mergeBy r l l').take k := by
  induction k generalizing m n l l' with
  | zero => rw [List.take_zero, List.take_zero]
  | succ k ih =>
    obtain ⟨m, rfl⟩ := Nat.exists_eq_add_of_le' hm
    obtain ⟨n, rfl⟩ := Nat.exists_eq_add_of_le' hn
    cases l with
    | nil => simp [List.take_take]
    | cons a l =>
      cases l' with
      | nil => simp [List.take_take]
      | cons b l' =>
        have hleft := ih (m := m + k) (n := n + (k + 1)) (by omega) (by omega) l (b :: l')
        have hright := ih (m := m + (k + 1)) (n := n + k) (by omega) (by omega) (a :: l) l'
        rw [← Nat.add_assoc, List.take_succ_cons] at hleft hright
        rw [← Nat.add_assoc, ← Nat.add_assoc, List.take_succ_cons, List.take_succ_cons,
          mergeBy_cons, mergeBy_cons]
        split_ifs
        · rw [List.take_succ_cons, List.take_succ_cons, hleft]
        · rw [List.take_succ_cons, List.take_succ_cons, hright]

/-- The first `k` of the whole come from the first `k` of each part. -/
theorem take_insertionSort_append [Std.Total r] [IsTrans α r] (k : ℕ) (l l' : List α) :
    ((l ++ l').insertionSort r).take k =
      (((l.insertionSort r).take k ++ (l'.insertionSort r).take k).insertionSort r).take k := by
  have hsorted (l : List α) : ((l.insertionSort r).take k).insertionSort r =
      (l.insertionSort r).take k :=
    ((List.pairwise_insertionSort r l).sublist (List.take_sublist _ _)).insertionSort_eq
  rw [insertionSort_append, insertionSort_append, hsorted, hsorted, take_mergeBy_take le_rfl le_rfl]

end StableSort
