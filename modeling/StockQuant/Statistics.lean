import Mathlib.Data.Rat.Floor
import Mathlib.Data.List.Sort
import Mathlib.Algebra.BigOperators.Group.List.Basic
import Mathlib.Algebra.Order.BigOperators.Group.List
import Mathlib.Algebra.Order.Ring.Rat
import Mathlib.Tactic.Linarith

/-! Rounding and the usual summaries of a list of rationals. Rounding keeps the order, and
the summaries lie between the least and the greatest value, in whatever order the list is. -/

namespace Statistics

def halfEven (x : ℚ) : ℤ :=
  let below := ⌊x⌋
  if x - below < 1 / 2 then below
  else if 1 / 2 < x - below then below + 1
  else if below % 2 = 0 then below
  else below + 1

def halfAway (x : ℚ) : ℤ := if 0 ≤ x then ⌊x + 1 / 2⌋ else ⌈x - 1 / 2⌉

def roundTo (digits : Nat) (x : ℚ) : ℚ := halfEven (x * 10 ^ digits) / 10 ^ digits

def mean (l : List ℚ) : ℚ := l.sum / l.length

def median (l : List ℚ) : ℚ :=
  let sorted := l.insertionSort (· ≤ ·)
  let half := l.length / 2
  if l.length % 2 = 1 then sorted.getD half 0
  else (sorted.getD (half - 1) 0 + sorted.getD half 0) / 2

def best (l : List ℚ) : ℚ := l.max?.getD 0

def worst (l : List ℚ) : ℚ := l.min?.getD 0

variable {l l' : List ℚ}

theorem mean_perm (h : l.Perm l') : mean l = mean l' := by
  rw [mean, mean, h.sum_eq, h.length_eq]

theorem insertionSort_perm (h : l.Perm l') :
    l.insertionSort (· ≤ ·) = l'.insertionSort (· ≤ ·) := by
  refine List.Perm.eq_of_pairwise
    (fun a b _ _ (hab : a ≤ b) (hba : b ≤ a) => le_antisymm hab hba)
    (List.pairwise_insertionSort _ _) (List.pairwise_insertionSort _ _) ?_
  exact (List.perm_insertionSort _ _).trans (h.trans (List.perm_insertionSort _ _).symm)

theorem median_perm (h : l.Perm l') : median l = median l' := by
  rw [median, median, insertionSort_perm h, h.length_eq]

theorem best_perm (h : l.Perm l') : best l = best l' := by
  have hm : l.max? = l'.max? := by
    ext a
    simp only [List.max?_eq_some_iff, h.mem_iff]
  rw [best, best, hm]

theorem worst_perm (h : l.Perm l') : worst l = worst l' := by
  have hm : l.min? = l'.min? := by
    ext a
    simp only [List.min?_eq_some_iff, h.mem_iff]
  rw [worst, worst, hm]

theorem halfEven_le (x : ℚ) : (halfEven x : ℚ) ≤ x + 1 / 2 := by
  have hfloor := Int.floor_le x
  unfold halfEven
  dsimp only
  split_ifs <;> push_cast <;> linarith

theorem le_halfEven (x : ℚ) : x - 1 / 2 ≤ halfEven x := by
  have hfloor := Int.lt_floor_add_one x
  unfold halfEven
  dsimp only
  split_ifs <;> push_cast <;> linarith

theorem halfEven_mono {x y : ℚ} (hxy : x ≤ y) : halfEven x ≤ halfEven y := by
  rcases hxy.eq_or_lt with rfl | hlt
  · exact le_rfl
  · by_contra hgt
    have hstep : (halfEven y : ℚ) + 1 ≤ halfEven x := by exact_mod_cast not_le.mp hgt
    have hx := halfEven_le x
    have hy := le_halfEven y
    linarith

theorem halfEven_zero : halfEven 0 = 0 := by decide +kernel

theorem roundTo_mono (digits : ℕ) : Monotone (roundTo digits) := by
  intro x y hxy
  have hscaled : x * 10 ^ digits ≤ y * 10 ^ digits :=
    mul_le_mul_of_nonneg_right hxy (by positivity)
  exact div_le_div_of_nonneg_right (Int.cast_le.mpr (halfEven_mono hscaled)) (by positivity)

theorem roundTo_zero (digits : ℕ) : roundTo digits 0 = 0 := by
  rw [roundTo, zero_mul, halfEven_zero, Int.cast_zero, zero_div]

theorem pos_of_roundTo_pos {digits : ℕ} {x : ℚ} (h : 0 < roundTo digits x) : 0 < x := by
  by_contra hle
  have hrounded := roundTo_mono digits (not_lt.mp hle)
  rw [roundTo_zero] at hrounded
  exact absurd h (not_lt.mpr hrounded)

theorem neg_of_roundTo_neg {digits : ℕ} {x : ℚ} (h : roundTo digits x < 0) : x < 0 := by
  by_contra hle
  have hrounded := roundTo_mono digits (not_lt.mp hle)
  rw [roundTo_zero] at hrounded
  exact absurd h (not_lt.mpr hrounded)

theorem max?_eq_best (h : l ≠ []) : l.max? = some (best l) := by
  obtain ⟨x, hx⟩ := List.exists_mem_of_ne_nil l h
  obtain ⟨m, hm⟩ := Option.isSome_iff_exists.mp (List.isSome_max?_of_mem hx)
  rw [best, hm, Option.getD_some]

theorem min?_eq_worst (h : l ≠ []) : l.min? = some (worst l) := by
  obtain ⟨x, hx⟩ := List.exists_mem_of_ne_nil l h
  obtain ⟨m, hm⟩ := Option.isSome_iff_exists.mp (List.isSome_min?_of_mem hx)
  rw [worst, hm, Option.getD_some]

theorem best_mem (h : l ≠ []) : best l ∈ l := (List.max?_eq_some_iff.mp (max?_eq_best h)).1

theorem le_best {x : ℚ} (hx : x ∈ l) : x ≤ best l :=
  (List.max?_eq_some_iff.mp (max?_eq_best (List.ne_nil_of_mem hx))).2 x hx

theorem worst_mem (h : l ≠ []) : worst l ∈ l := (List.min?_eq_some_iff.mp (min?_eq_worst h)).1

theorem worst_le {x : ℚ} (hx : x ∈ l) : worst l ≤ x :=
  (List.min?_eq_some_iff.mp (min?_eq_worst (List.ne_nil_of_mem hx))).2 x hx

theorem best_map {f : ℚ → ℚ} (hf : Monotone f) (h : l ≠ []) : best (l.map f) = f (best l) := by
  refine le_antisymm ?_ (le_best (List.mem_map_of_mem (best_mem h)))
  obtain ⟨x, hx, hfx⟩ := List.mem_map.mp (best_mem (l := l.map f) (by simpa using h))
  rw [← hfx]
  exact hf (le_best hx)

theorem worst_map {f : ℚ → ℚ} (hf : Monotone f) (h : l ≠ []) : worst (l.map f) = f (worst l) := by
  refine le_antisymm (worst_le (List.mem_map_of_mem (worst_mem h))) ?_
  obtain ⟨x, hx, hfx⟩ := List.mem_map.mp (worst_mem (l := l.map f) (by simpa using h))
  rw [← hfx]
  exact hf (worst_le hx)

theorem mean_bounds (h : l ≠ []) : worst l ≤ mean l ∧ mean l ≤ best l := by
  have hpos : (0 : ℚ) < l.length := by exact_mod_cast List.length_pos_iff.mpr h
  constructor
  · rw [mean, le_div_iff₀ hpos, mul_comm, ← nsmul_eq_mul]
    exact List.card_nsmul_le_sum l _ fun x hx => worst_le hx
  · rw [mean, div_le_iff₀ hpos, mul_comm, ← nsmul_eq_mul]
    exact List.sum_le_card_nsmul l _ fun x hx => le_best hx

theorem median_bounds (h : l ≠ []) : worst l ≤ median l ∧ median l ≤ best l := by
  have hpos := List.length_pos_iff.mpr h
  have hmem {i : ℕ} (hi : i < l.length) : (l.insertionSort (· ≤ ·)).getD i 0 ∈ l := by
    have hi' : i < (l.insertionSort (· ≤ ·)).length := by rwa [List.length_insertionSort]
    rw [List.getD_eq_getElem?_getD, List.getElem?_eq_getElem hi', Option.getD_some,
      ← List.mem_insertionSort (· ≤ ·)]
    exact List.getElem_mem hi'
  have hmiddle := hmem (show l.length / 2 < l.length by omega)
  have hbefore := hmem (show l.length / 2 - 1 < l.length by omega)
  unfold median
  dsimp only
  split_ifs
  · exact ⟨worst_le hmiddle, le_best hmiddle⟩
  · have hlow := worst_le hmiddle
    have hlow' := worst_le hbefore
    have hhigh := le_best hmiddle
    have hhigh' := le_best hbefore
    constructor <;> linarith

end Statistics
