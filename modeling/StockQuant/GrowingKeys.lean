import Mathlib.Data.List.Dedup
import Mathlib.Data.List.Nodup
import Mathlib.Data.List.Perm.Subperm
import Mathlib.Data.Int.Order.Basic
import Mathlib.Order.MinMax

/-! Keys that are only ever added, and figures on them of which each is taken at a moment of its
own, in turn. -/

namespace GrowingKeys

section Counts

variable {α : Type*} [DecidableEq α] {first last l l' : List α} {count : ℤ}

theorem length_dedup_mono (h : l ⊆ l') : l.dedup.length ≤ l'.dedup.length :=
  (List.subperm_of_subset (List.nodup_dedup l) fun _ hx =>
    List.mem_dedup.mpr (h (List.mem_dedup.mp hx))).length_le

/-- No fewer than there were at first, no more than there are in the end. -/
def CountedBetween (first last : List α) (count : ℤ) : Prop :=
  (first.dedup.length : ℤ) ≤ count ∧ count ≤ last.dedup.length

theorem CountedBetween.taken (h : first ⊆ l) (h' : l ⊆ last) :
    CountedBetween first last l.dedup.length :=
  ⟨by exact_mod_cast length_dedup_mono h, by exact_mod_cast length_dedup_mono h'⟩

theorem CountedBetween.earlier (h : CountedBetween first last count) (hsub : l ⊆ first) :
    CountedBetween l last count := by
  have hle : (l.dedup.length : ℤ) ≤ first.dedup.length := by exact_mod_cast length_dedup_mono hsub
  exact ⟨hle.trans h.1, h.2⟩

theorem CountedBetween.later (h : CountedBetween first last count) (hsub : last ⊆ l) :
    CountedBetween first l count := by
  have hle : (last.dedup.length : ℤ) ≤ l.dedup.length := by exact_mod_cast length_dedup_mono hsub
  exact ⟨h.1, h.2.trans hle⟩

end Counts

variable {α β : Type*} [LinearOrder α] [DecidableEq β]

/-- The figures stand between the keys of two moments: no key of the first is out of reach, and
no end of the range is made up. -/
structure Between (first last : List (α × β)) (least greatest : Option α) (firsts total : ℤ) :
    Prop where
  total : CountedBetween first last total
  firsts : CountedBetween (first.map Prod.fst) (last.map Prod.fst) firsts
  reached : ∀ key ∈ first, (∃ lo ∈ least, lo ≤ key.1) ∧ ∃ hi ∈ greatest, key.1 ≤ hi
  stored : (∀ lo ∈ least, lo ∈ last.map Prod.fst) ∧ ∀ hi ∈ greatest, hi ∈ last.map Prod.fst
  ends : (least = none ∧ greatest = none) ∨
    ∃ lo hi, least = some lo ∧ greatest = some hi ∧ lo ≤ hi

section Moments

variable {at₀ at₁ at₂ at₃ last : List (α × β)}

/-- An empty table is not asked further. -/
theorem Between.empty (hempty : at₀ = []) (last : List (α × β)) :
    Between at₀ last none none 0 0 where
  total := by simp [CountedBetween, hempty]
  firsts := by simp [CountedBetween, hempty]
  reached key hkey := by simp [hempty] at hkey
  stored := by simp
  ends := Or.inl ⟨rfl, rfl⟩

/-- The total, the two ends and the number of the distinct ones, asked for one after the
other. -/
theorem Between.taken (hne : at₀ ≠ []) (hnodup : at₀.Nodup) (h₁ : at₀ ⊆ at₁) (h₂ : at₁ ⊆ at₂)
    (h₃ : at₂ ⊆ at₃) (hlast : at₃ ⊆ last) :
    Between at₀ last (at₁.map Prod.fst).min? (at₂.map Prod.fst).max?
      (at₃.map Prod.fst).dedup.length at₀.length where
  total := by
    have hkept := List.Subset.trans h₁ (List.Subset.trans h₂ (List.Subset.trans h₃ hlast))
    have htotal := CountedBetween.taken (List.Subset.refl at₀) hkept
    rwa [hnodup.dedup] at htotal
  firsts := by
    have hkept := List.Subset.trans h₁ (List.Subset.trans h₂ h₃)
    exact CountedBetween.taken (List.map_subset Prod.fst hkept) (List.map_subset Prod.fst hlast)
  reached key hkey := by
    have hkey₁ : key.1 ∈ at₁.map Prod.fst := List.mem_map_of_mem (h₁ hkey)
    have hkey₂ : key.1 ∈ at₂.map Prod.fst := List.mem_map_of_mem (h₂ (h₁ hkey))
    obtain ⟨lo, hlo⟩ := Option.isSome_iff_exists.mp (List.isSome_min?_of_mem hkey₁)
    obtain ⟨hi, hhi⟩ := Option.isSome_iff_exists.mp (List.isSome_max?_of_mem hkey₂)
    exact ⟨⟨lo, hlo, (List.min?_eq_some_iff.mp hlo).2 _ hkey₁⟩,
      ⟨hi, hhi, (List.max?_eq_some_iff.mp hhi).2 _ hkey₂⟩⟩
  stored := by
    constructor
    · intro lo hlo
      have hkept := List.Subset.trans h₂ (List.Subset.trans h₃ hlast)
      exact List.map_subset Prod.fst hkept (List.min?_eq_some_iff.mp hlo).1
    · intro hi hhi
      have hkept := List.Subset.trans h₃ hlast
      exact List.map_subset Prod.fst hkept (List.max?_eq_some_iff.mp hhi).1
  ends := by
    obtain ⟨key, hkey⟩ := List.exists_mem_of_ne_nil _ hne
    have hkey₁ : key.1 ∈ at₁.map Prod.fst := List.mem_map_of_mem (h₁ hkey)
    obtain ⟨lo, hlo⟩ := Option.isSome_iff_exists.mp (List.isSome_min?_of_mem hkey₁)
    -- The least of the earlier moment is still there when the greatest is asked for.
    have hlater := List.map_subset Prod.fst h₂ (List.min?_eq_some_iff.mp hlo).1
    obtain ⟨hi, hhi⟩ := Option.isSome_iff_exists.mp (List.isSome_max?_of_mem hlater)
    exact Or.inr ⟨lo, hi, hlo, hhi, (List.max?_eq_some_iff.mp hhi).2 lo hlater⟩

theorem Between.earlier {first first' : List (α × β)} {least greatest : Option α}
    {firsts total : ℤ} (h : Between first' last least greatest firsts total)
    (hsub : first ⊆ first') : Between first last least greatest firsts total where
  total := h.total.earlier hsub
  firsts := h.firsts.earlier (List.map_subset Prod.fst hsub)
  reached key hkey := h.reached key (hsub hkey)
  stored := h.stored
  ends := h.ends

theorem Between.later {first last' : List (α × β)} {least greatest : Option α}
    {firsts total : ℤ} (h : Between first last least greatest firsts total)
    (hsub : last ⊆ last') : Between first last' least greatest firsts total where
  total := h.total.later hsub
  firsts := h.firsts.later (List.map_subset Prod.fst hsub)
  reached := h.reached
  stored := ⟨fun lo hlo => List.map_subset Prod.fst hsub (h.stored.1 lo hlo),
    fun hi hhi => List.map_subset Prod.fst hsub (h.stored.2 hi hhi)⟩
  ends := h.ends

end Moments

end GrowingKeys
