import Mathlib.Data.List.Sort
import Mathlib.Data.List.Dedup
import Mathlib.Data.List.Count
import Mathlib.Order.Defs.LinearOrder

/-! Strictly ascending lists: the distinct elements of a list in order, positions
found by bisection, and the element at a given distance past a point. -/

namespace SortedList

variable {α : Type*} [LinearOrder α]

def distinct (l : List α) : List α := l.dedup.insertionSort (· ≤ ·)

theorem mem_distinct {l : List α} {x : α} : x ∈ distinct l ↔ x ∈ l := by
  simp [distinct]

theorem distinct_pairwise (l : List α) : (distinct l).Pairwise (· < ·) := by
  have hle : (distinct l).Pairwise (· ≤ ·) := List.pairwise_insertionSort _ _
  have hnd : (distinct l).Nodup :=
    (List.perm_insertionSort _ _).nodup_iff.mpr (List.nodup_dedup l)
  exact hle.imp₂ (fun _ _ h hne => lt_of_le_of_ne h hne) hnd

def bisectLeft (l : List α) (x : α) : Nat := (l.takeWhile (· < x)).length

def bisectRight (l : List α) (x : α) : Nat := (l.takeWhile (· ≤ x)).length

theorem dropWhile_le_eq_filter {l : List α} (h : l.Pairwise (· ≤ ·)) (x : α) :
    l.dropWhile (· ≤ x) = l.filter (x < ·) := by
  induction l with
  | nil => rfl
  | cons a l ih =>
    have hp := List.pairwise_cons.mp h
    by_cases ha : a ≤ x
    · simpa [ha, not_lt.mpr ha] using ih hp.2
    · have hall : ∀ b ∈ l, decide (x < b) = true := fun b hb =>
        decide_eq_true ((not_le.mp ha).trans_le (hp.1 b hb))
      simp [ha, not_le.mp ha, List.filter_eq_self.mpr hall]

theorem drop_bisectRight {l : List α} (h : l.Pairwise (· < ·)) (x : α) :
    l.drop (bisectRight l x) = l.filter (x < ·) := by
  rw [← dropWhile_le_eq_filter (h.imp le_of_lt), bisectRight]
  have hsplit := List.takeWhile_append_dropWhile (p := fun c => decide (c ≤ x)) (l := l)
  calc l.drop (l.takeWhile (· ≤ x)).length
      = (l.takeWhile (· ≤ x) ++ l.dropWhile (· ≤ x)).drop (l.takeWhile (· ≤ x)).length := by
        rw [hsplit]
    _ = l.dropWhile (· ≤ x) := List.drop_left

theorem getElem?_bisectLeft {l : List α} (h : l.Pairwise (· < ·)) (x : α) :
    l[bisectLeft l x]? = some x ↔ x ∈ l := by
  induction l with
  | nil => simp [bisectLeft]
  | cons a l ih =>
    have hp := List.pairwise_cons.mp h
    rcases lt_trichotomy a x with hlt | rfl | hgt
    · have hne : x ≠ a := hlt.ne'
      simpa [bisectLeft, hlt, hne] using ih hp.2
    · simp [bisectLeft]
    · have hx : x ∉ l := fun hm => lt_asymm hgt (hp.1 x hm)
      simp [bisectLeft, hgt.not_gt, hgt.ne, hgt.ne', hx]

theorem getElem?_eq_some_iff_countP {l : List α} (h : l.Pairwise (· < ·)) {k : Nat} {d : α} :
    l[k]? = some d ↔ d ∈ l ∧ l.countP (· < d) = k := by
  induction l generalizing k with
  | nil => simp
  | cons a l ih =>
    have hp := List.pairwise_cons.mp h
    cases k with
    | zero =>
      rw [List.getElem?_cons_zero, Option.some.injEq, List.countP_cons]
      constructor
      · rintro rfl
        have hno : ∀ b ∈ l, ¬ b < a := fun b hb => (hp.1 b hb).not_gt
        simpa [List.countP_eq_zero] using hno
      · rintro ⟨hm, hc⟩
        rcases List.mem_cons.mp hm with rfl | hm
        · rfl
        · simp [hp.1 d hm] at hc
    | succ k =>
      rw [List.getElem?_cons_succ, ih hp.2, List.countP_cons, List.mem_cons]
      constructor
      · rintro ⟨hm, rfl⟩
        exact ⟨Or.inr hm, by simp [hp.1 d hm]⟩
      · rintro ⟨rfl | hm, hc⟩
        · have hno : l.countP (· < d) = 0 := by
            rw [List.countP_eq_zero]
            intro b hb
            simpa using (hp.1 b hb).le
          simp [hno] at hc
        · refine ⟨hm, ?_⟩
          simpa [hp.1 d hm] using hc

omit [LinearOrder α] in
theorem countP_eq_iff_of_subset {l l' : List α} (hnd : l.Nodup) (hnd' : l'.Nodup) (hsub : l ⊆ l')
    (p : α → Bool) : l'.countP p = l.countP p ↔ ∀ x ∈ l', p x → x ∈ l := by
  have hfilter : (l.filter p).Subperm (l'.filter p) :=
    List.subperm_of_subset (hnd.filter p) fun x hx => by
      have hx := List.mem_filter.mp hx
      exact List.mem_filter.mpr ⟨hsub hx.1, hx.2⟩
  rw [List.countP_eq_length_filter, List.countP_eq_length_filter]
  constructor
  · intro hlen x hx hp
    have hperm := hfilter.perm_of_length_le hlen.le
    exact (List.mem_filter.mp (hperm.mem_iff.mpr (List.mem_filter.mpr ⟨hx, hp⟩))).1
  · intro hall
    refine le_antisymm (List.subperm_of_subset (hnd'.filter p) fun x hx => ?_).length_le
      hfilter.length_le
    have hx := List.mem_filter.mp hx
    exact List.mem_filter.mpr ⟨hall x hx.1 hx.2, hx.2⟩

theorem countP_Ioc {l : List α} (hnd : l.Nodup) {x d : α} (hm : d ∈ l) (hlt : x < d) :
    l.countP (fun c => x < c ∧ c ≤ d) =
      l.countP (fun c => decide (c < d) && decide (x < c)) + 1 := by
  have hone : l.countP (· = d) = 1 := by
    simpa [List.count, beq_eq_decide] using List.count_eq_one_of_mem hnd hm
  rw [← hone]
  clear hone hnd hm
  induction l with
  | nil => rfl
  | cons a l ih =>
    simp only [List.countP_cons, ih]
    rcases lt_trichotomy a d with hd | rfl | hd
    · by_cases hx : x < a
      · simp [hd, hd.le, hd.ne, hx]
        omega
      · simp [hx, hd.ne]
    · simp [hlt]
      omega
    · simp [hd.not_gt, hd.not_ge, hd.ne']

/-- The element `k` positions past the bisection point of `x` is the one with
exactly `k + 1` elements in the half-open interval up to it. -/
theorem getElem?_bisectRight_add {l : List α} (h : l.Pairwise (· < ·)) {x d : α} {k : Nat} :
    l[bisectRight l x + k]? = some d ↔
      d ∈ l ∧ x < d ∧ l.countP (fun c => x < c ∧ c ≤ d) = k + 1 := by
  rw [← List.getElem?_drop, drop_bisectRight h,
    getElem?_eq_some_iff_countP (h.sublist List.filter_sublist), List.countP_filter,
    List.mem_filter, and_assoc, decide_eq_true_iff]
  refine and_congr_right fun hm => and_congr_right fun hlt => ?_
  rw [countP_Ioc (h.imp fun hab => hab.ne) hm hlt]
  omega

-- Bisection as a loop. Each element that it looks at has to be there: `none` is an index outside
-- the list.
omit [LinearOrder α]

def bisectLoop (before : α → Bool) (l : List α) (lo hi : Nat) : Option Nat :=
  if lo < hi then
    match l[(lo + hi) / 2]? with
    | none => none
    | some a =>
      if before a then bisectLoop before l ((lo + hi) / 2 + 1) hi
      else bisectLoop before l lo ((lo + hi) / 2)
  else some lo
termination_by hi - lo

theorem before_iff_lt_length_takeWhile {before : α → Bool} {l : List α}
    (h : l.Pairwise fun a b => before b → before a) {i : Nat} {a : α} (ha : l[i]? = some a) :
    before a ↔ i < (l.takeWhile before).length := by
  induction l generalizing i with
  | nil => cases ha
  | cons b l ih =>
    obtain ⟨hhead, htail⟩ := List.pairwise_cons.mp h
    by_cases hb : before b
    · rw [List.takeWhile_cons_of_pos hb, List.length_cons]
      cases i with
      | zero =>
        obtain rfl := Option.some.inj ha
        exact iff_of_true hb (Nat.succ_pos _)
      | succ i =>
        rw [List.getElem?_cons_succ] at ha
        rw [ih htail ha]
        omega
    · have hmem : a ∈ b :: l := List.mem_of_getElem? ha
      have hnot : ¬ before a := by
        rcases List.mem_cons.mp hmem with rfl | hmem
        · exact hb
        · exact fun hbefore => hb (hhead a hmem hbefore)
      rw [List.takeWhile_cons_of_neg hb]
      exact iff_of_false hnot (Nat.not_lt_zero i)

/-- The loop stays within the list, and the bounds close in on the first element that is not
before the point. -/
theorem bisectLoop_eq {before : α → Bool} {l : List α}
    (h : l.Pairwise fun a b => before b → before a) {lo hi : Nat}
    (hlo : lo ≤ (l.takeWhile before).length) (hhi : (l.takeWhile before).length ≤ hi)
    (hlength : hi ≤ l.length) : bisectLoop before l lo hi = some (l.takeWhile before).length := by
  fun_induction bisectLoop before l lo hi with
  | case1 lo hi hlt hnone =>
    have hout := List.getElem?_eq_none_iff.mp hnone
    omega
  | case2 lo hi hlt a ha hbefore ih =>
    have hmid := (before_iff_lt_length_takeWhile h ha).mp hbefore
    exact ih hmid hhi hlength
  | case3 lo hi hlt a ha hbefore ih =>
    have hmid := mt (before_iff_lt_length_takeWhile h ha).mpr hbefore
    exact ih hlo (by omega) (by omega)
  | case4 lo hi hlt =>
    congr 1
    omega

end SortedList
