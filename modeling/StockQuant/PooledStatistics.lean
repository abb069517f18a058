import Mathlib.Order.Interval.Set.UnorderedInterval
import StockQuant.Statistics

/-! Two samples pooled into one: its mean and its median lie between those of the samples, and
its extremes are the outer ones. -/

namespace Statistics

section Position

variable {α : Type*} [LinearOrder α] {s : List α}

theorem le_getElem_iff (h : s.Pairwise (· ≤ ·)) {k : ℕ} (hk : k < s.length) {x : α} :
    x ≤ s[k] ↔ s.countP (· < x) ≤ k := by
  induction s generalizing k with
  | nil => cases hk
  | cons a s ih =>
    obtain ⟨ha, hs⟩ := List.pairwise_cons.mp h
    rw [List.countP_cons]
    by_cases hax : a < x
    · cases k with
      | zero => simp [hax]
      | succ k =>
        rw [List.getElem_cons_succ, ih hs (Nat.lt_of_succ_lt_succ hk)]
        simp [hax]
    · have hnone : s.countP (· < x) = 0 := by
        rw [List.countP_eq_zero]
        intro b hb
        simpa using (not_lt.mp hax).trans (ha b hb)
      have hle : x ≤ (a :: s)[k] := by
        rcases List.mem_cons.mp (List.getElem_mem hk) with heq | hmem
        · exact (not_lt.mp hax).trans heq.ge
        · exact (not_lt.mp hax).trans (ha _ hmem)
      simp [hnone, hax, hle]

theorem getElem_le_iff (h : s.Pairwise (· ≤ ·)) {k : ℕ} (hk : k < s.length) {x : α} :
    s[k] ≤ x ↔ s.countP (x < ·) + k < s.length := by
  induction s generalizing k with
  | nil => cases hk
  | cons a s ih =>
    obtain ⟨ha, hs⟩ := List.pairwise_cons.mp h
    rw [List.countP_cons, List.length_cons]
    by_cases hxa : x < a
    · have hall : s.countP (x < ·) = s.length :=
        List.countP_eq_length.mpr fun b hb => by simpa using hxa.trans_le (ha b hb)
      have hlt : x < (a :: s)[k] := by
        rcases List.mem_cons.mp (List.getElem_mem hk) with heq | hmem
        · exact hxa.trans_eq heq.symm
        · exact hxa.trans_le (ha _ hmem)
      refine iff_of_false (not_le.mpr hlt) ?_
      rw [hall, if_pos (decide_eq_true hxa)]
      omega
    · cases k with
      | zero =>
        have hle : s.countP (x < ·) ≤ s.length := List.countP_le_length
        simp [hxa, not_lt.mp hxa]
        omega
      | succ k =>
        rw [List.getElem_cons_succ, ih hs (Nat.lt_of_succ_lt_succ hk)]
        simp [hxa]
        omega

end Position

/-- `lo` and `hi` are the middle of `n` elements, of which `below x` are less than `x`. -/
structure IsMiddle {α : Type*} [LinearOrder α] (below : α → ℕ) (n : ℕ) (lo hi : α) : Prop where
  le_lo : ∀ x, x ≤ lo ↔ 2 * below x < n
  le_hi : ∀ x, x ≤ hi ↔ 2 * below x ≤ n

section Middle

variable {α : Type*} [LinearOrder α] {below below' : α → ℕ} {n n' : ℕ} {lo hi lo' hi' : α}

theorem IsMiddle.lo_le_hi (h : IsMiddle below n lo hi) : lo ≤ hi :=
  (h.le_hi lo).mpr ((h.le_lo lo).mp le_rfl).le

/-- A middle inside the other one bounds that of the pool, and otherwise the lower one does. -/
theorem IsMiddle.pool_of_le (hmono : Monotone below) (hmono' : Monotone below')
    (h : IsMiddle below n lo hi) (h' : IsMiddle below' n' lo' hi') {low high : α}
    (hpool : IsMiddle (fun x => below x + below' x) (n + n') low high) (hlo : lo ≤ lo') :
    (lo ≤ low ∧ hi ≤ high) ∨ (lo' ≤ low ∧ hi' ≤ high) := by
  have hbelow := (h.le_lo lo).mp le_rfl
  have hbelow' := (h'.le_lo lo').mp le_rfl
  have habove := (h.le_hi hi).mp le_rfl
  have habove' := (h'.le_hi hi').mp le_rfl
  rcases le_total hi hi' with hhi | hhi
  · have hless := hmono' hlo
    have hless' := hmono' hhi
    exact Or.inl ⟨(hpool.le_lo lo).mpr (by omega), (hpool.le_hi hi).mpr (by omega)⟩
  · have hless := hmono (h'.lo_le_hi.trans hhi)
    have hless' := hmono hhi
    exact Or.inr ⟨(hpool.le_lo lo').mpr (by omega), (hpool.le_hi hi').mpr (by omega)⟩

theorem IsMiddle.pool (hmono : Monotone below) (hmono' : Monotone below')
    (h : IsMiddle below n lo hi) (h' : IsMiddle below' n' lo' hi') {low high : α}
    (hpool : IsMiddle (fun x => below x + below' x) (n + n') low high) :
    (lo ≤ low ∧ hi ≤ high) ∨ (lo' ≤ low ∧ hi' ≤ high) := by
  rcases le_total lo lo' with hlo | hlo
  · exact h.pool_of_le hmono hmono' h' hpool hlo
  · refine (h'.pool_of_le hmono' hmono h ?_ hlo).symm
    simpa only [Nat.add_comm] using hpool

end Middle

section Sorted

variable {α : Type*} [LinearOrder α] {s : List α} {i j : ℕ}

theorem isMiddle_of_sorted (h : s.Pairwise (· ≤ ·)) (hi : i < s.length) (hj : j < s.length)
    (hlo : (s.length - 1) / 2 = i) (hhi : s.length / 2 = j) :
    IsMiddle (fun x => s.countP (· < x)) s.length s[i] s[j] := by
  constructor
  · intro x
    rw [le_getElem_iff h]
    omega
  · intro x
    rw [le_getElem_iff h]
    omega

/-- Seen from above the middle elements change places. -/
theorem isMiddle_dual_of_sorted (h : s.Pairwise (· ≤ ·)) (hi : i < s.length) (hj : j < s.length)
    (hlo : (s.length - 1) / 2 = i) (hhi : s.length / 2 = j) :
    IsMiddle (fun x : αᵒᵈ => s.countP (OrderDual.ofDual x < ·)) s.length
      (OrderDual.toDual s[j]) (OrderDual.toDual s[i]) := by
  constructor
  · intro x
    rw [OrderDual.le_toDual, getElem_le_iff h]
    omega
  · intro x
    rw [OrderDual.le_toDual, getElem_le_iff h]
    omega

end Sorted

theorem countP_lt_mono {α : Type*} [LinearOrder α] (l : List α) :
    Monotone fun x => l.countP (· < x) := by
  intro x y hxy
  refine List.countP_mono_left fun a _ hax => ?_
  simp only [decide_eq_true_eq] at *
  exact hax.trans_le hxy

theorem countP_gt_mono {α : Type*} [LinearOrder α] (l : List α) :
    Monotone fun x : αᵒᵈ => l.countP (OrderDual.ofDual x < ·) := by
  intro x y hxy
  refine List.countP_mono_left fun a _ hxa => ?_
  simp only [decide_eq_true_eq] at *
  exact (OrderDual.ofDual_le_ofDual.mpr hxy).trans_lt hxa

variable {l l' : List ℚ}

theorem median_middle (h : l ≠ []) : ∃ lo hi, median l = (lo + hi) / 2 ∧
    IsMiddle (fun x => l.countP (· < x)) l.length lo hi ∧
    IsMiddle (fun x : ℚᵒᵈ => l.countP (OrderDual.ofDual x < ·)) l.length
      (OrderDual.toDual hi) (OrderDual.toDual lo) := by
  have hpos := List.length_pos_iff.mpr h
  have hperm : (l.insertionSort (· ≤ ·)).Perm l := List.perm_insertionSort _ _
  have hsorted : (l.insertionSort (· ≤ ·)).Pairwise (· ≤ ·) := List.pairwise_insertionSort _ _
  have hlength := hperm.length_eq
  have hi : (l.length - 1) / 2 < (l.insertionSort (· ≤ ·)).length := by omega
  have hj : l.length / 2 < (l.insertionSort (· ≤ ·)).length := by omega
  have hlow := isMiddle_of_sorted hsorted hi hj (by rw [hlength]) (by rw [hlength])
  have hhigh := isMiddle_dual_of_sorted hsorted hi hj (by rw [hlength]) (by rw [hlength])
  simp only [hperm.countP_eq, hlength] at hlow hhigh
  refine ⟨_, _, ?_, hlow, hhigh⟩
  unfold median
  dsimp only
  split_ifs with hodd
  · have hsame : (l.length - 1) / 2 = l.length / 2 := by omega
    rw [List.getD_eq_getElem?_getD, List.getElem?_eq_getElem hj, Option.getD_some]
    simp only [hsame, add_self_div_two]
  · have hbefore : (l.length - 1) / 2 = l.length / 2 - 1 := by omega
    rw [← hbefore, List.getD_eq_getElem?_getD, List.getD_eq_getElem?_getD,
      List.getElem?_eq_getElem hi, List.getElem?_eq_getElem hj, Option.getD_some, Option.getD_some]

theorem median_append_mem (h : l ≠ []) (h' : l' ≠ []) :
    median (l ++ l') ∈ Set.uIcc (median l) (median l') := by
  obtain ⟨lo, hi, hmedian, hlow, hhigh⟩ := median_middle h
  obtain ⟨lo', hi', hmedian', hlow', hhigh'⟩ := median_middle h'
  obtain ⟨low, high, hpool, hlower, hupper⟩ :=
    median_middle (l := l ++ l') (List.append_ne_nil_of_left_ne_nil h l')
  simp only [List.countP_append, List.length_append] at hlower hupper
  have hleast := hlow.pool (countP_lt_mono l) (countP_lt_mono l') hlow' hlower
  have hgreatest := hhigh.pool (countP_gt_mono l) (countP_gt_mono l') hhigh' hupper
  simp only [OrderDual.toDual_le_toDual] at hgreatest
  rw [hpool, hmedian, hmedian']
  constructor
  · rcases hleast with ⟨h1, h2⟩ | ⟨h1, h2⟩
    · exact inf_le_left.trans (by linarith)
    · exact inf_le_right.trans (by linarith)
  · rcases hgreatest with ⟨h1, h2⟩ | ⟨h1, h2⟩
    · exact le_sup_of_le_left (by linarith)
    · exact le_sup_of_le_right (by linarith)

/-- The mean of a pool, and the share of it that counts, are weighted by the sizes. -/
theorem pooled_mem {a b m n : ℚ} (hm : 0 < m) (hn : 0 < n) :
    (a + b) / (m + n) ∈ Set.uIcc (a / m) (b / n) := by
  have hsum : a / m * m + b / n * n = a + b := by
    rw [div_mul_cancel₀ a hm.ne', div_mul_cancel₀ b hn.ne']
  constructor
  · rw [le_div_iff₀ (by positivity), mul_add, ← hsum]
    exact add_le_add (mul_le_mul_of_nonneg_right inf_le_left hm.le)
      (mul_le_mul_of_nonneg_right inf_le_right hn.le)
  · rw [div_le_iff₀ (by positivity), mul_add, ← hsum]
    exact add_le_add (mul_le_mul_of_nonneg_right le_sup_left hm.le)
      (mul_le_mul_of_nonneg_right le_sup_right hn.le)

theorem mean_append_mem (h : l ≠ []) (h' : l' ≠ []) :
    mean (l ++ l') ∈ Set.uIcc (mean l) (mean l') := by
  have hpos : (0 : ℚ) < l.length := by exact_mod_cast List.length_pos_iff.mpr h
  have hpos' : (0 : ℚ) < l'.length := by exact_mod_cast List.length_pos_iff.mpr h'
  unfold mean
  rw [List.sum_append, List.length_append, Nat.cast_add]
  exact pooled_mem hpos hpos'

theorem best_append (h : l ≠ []) (h' : l' ≠ []) : best (l ++ l') = max (best l) (best l') := by
  have hne : l ++ l' ≠ [] := List.append_ne_nil_of_left_ne_nil h l'
  refine le_antisymm ?_ (max_le ?_ ?_)
  · rcases List.mem_append.mp (best_mem hne) with hmem | hmem
    · exact le_max_of_le_left (le_best hmem)
    · exact le_max_of_le_right (le_best hmem)
  · exact le_best (List.mem_append_left l' (best_mem h))
  · exact le_best (List.mem_append_right l (best_mem h'))

theorem worst_append (h : l ≠ []) (h' : l' ≠ []) :
    worst (l ++ l') = min (worst l) (worst l') := by
  have hne : l ++ l' ≠ [] := List.append_ne_nil_of_left_ne_nil h l'
  refine le_antisymm (le_min ?_ ?_) ?_
  · exact worst_le (List.mem_append_left l' (worst_mem h))
  · exact worst_le (List.mem_append_right l (worst_mem h'))
  · rcases List.mem_append.mp (worst_mem hne) with hmem | hmem
    · exact min_le_of_left_le (worst_le hmem)
    · exact min_le_of_right_le (worst_le hmem)

end Statistics
