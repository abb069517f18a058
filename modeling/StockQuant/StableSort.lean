import Mathlib.Data.List.Sort

/-! Insertion sort by a total preorder. Ties keep the order in which they came, and an
element stands behind exactly those that rank ahead of it. -/

namespace StableSort

variable {α : Type*} {r s : α → α → Prop}

/-- Ordered by `r`, and by `s` where `r` ties. -/
def Refines (r s : α → α → Prop) (a b : α) : Prop := r a b ∧ (r b a → s a b)

section Stable

variable [DecidableRel r] [Std.Total r] [IsTrans α r]

theorem pairwise_orderedInsert {a : α} {l : List α} (h : l.Pairwise (Refines r s))
    (ha : ∀ b ∈ l, s a b) : (l.orderedInsert r a).Pairwise (Refines r s) := by
  induction l with
  | nil => exact List.pairwise_singleton _ _
  | cons b l ih =>
    obtain ⟨hb, hl⟩ := List.pairwise_cons.mp h
    by_cases hab : r a b
    · rw [List.orderedInsert_cons_of_le r l hab]
      refine List.pairwise_cons.mpr ⟨fun c hc => ⟨?_, fun _ => ha c hc⟩, h⟩
      rcases List.mem_cons.mp hc with rfl | hc
      · exact hab
      · exact IsTrans.trans _ _ _ hab (hb c hc).1
    · rw [List.orderedInsert_cons, if_neg hab]
      refine List.pairwise_cons.mpr ⟨fun c hc => ?_, ih hl fun c hc => ha c (by simp [hc])⟩
      rcases (List.mem_orderedInsert r).mp hc with rfl | hc
      · exact ⟨(Std.Total.total _ b).resolve_left hab, fun hcb => absurd hcb hab⟩
      · exact hb c hc

/-- The sort by `r` leaves ties of `r` in the order `s` of the input. -/
theorem pairwise_insertionSort {l : List α} (h : l.Pairwise s) :
    (l.insertionSort r).Pairwise (Refines r s) := by
  induction l with
  | nil => exact List.Pairwise.nil
  | cons a l ih =>
    obtain ⟨ha, hl⟩ := List.pairwise_cons.mp h
    exact pairwise_orderedInsert (ih hl) fun b hb => ha b ((List.mem_insertionSort r).mp hb)

end Stable

section Position

variable [DecidableRel r] {l l' : List α}

/-- All that rank ahead of the element at a position stand before it. -/
theorem countP_ahead_le (h : l.Pairwise r) {i : ℕ} (hi : i < l.length) (hrefl : r l[i] l[i]) :
    l.countP (fun a => ¬ r l[i] a) ≤ i := by
  have hsplit : l.take i ++ l[i] :: l.drop (i + 1) = l := by
    rw [List.getElem_cons_drop, List.take_append_drop]
  have hafter : ∀ a ∈ l[i] :: l.drop (i + 1), r l[i] a := by
    have hsuffix := h.sublist (List.drop_sublist i l)
    rw [← List.getElem_cons_drop hi, List.pairwise_cons] at hsuffix
    intro a ha
    rcases List.mem_cons.mp ha with rfl | ha
    · exact hrefl
    · exact hsuffix.1 a ha
  have hnone : (l[i] :: l.drop (i + 1)).countP (fun a => ¬ r l[i] a) = 0 := by
    rw [List.countP_eq_zero]
    intro a ha
    simpa using hafter a ha
  calc l.countP (fun a => ¬ r l[i] a)
      = (l.take i ++ l[i] :: l.drop (i + 1)).countP (fun a => ¬ r l[i] a) := by rw [hsplit]
    _ = (l.take i).countP (fun a => ¬ r l[i] a) := by rw [List.countP_append, hnone, Nat.add_zero]
    _ ≤ (l.take i).length := List.countP_le_length
    _ ≤ i := List.length_take_le i l

/-- Two sorted arrangements of the same elements tie at every position. -/
theorem rel_getElem [Std.Total r] [IsTrans α r] (h : l.Pairwise r) (h' : l'.Pairwise r)
    (hperm : l.Perm l') {i : ℕ} (hi : i < l.length) (hi' : i < l'.length) : r l[i] l'[i] := by
  by_contra hlt
  have hahead := countP_ahead_le h hi (Std.Refl.refl _)
  have hprefix : ∀ a ∈ l'.take (i + 1), ¬ r l[i] a := by
    intro a ha hla
    obtain ⟨j, hj, rfl⟩ := List.getElem_of_mem ha
    rw [List.length_take] at hj
    rw [List.getElem_take] at hla
    refine hlt (IsTrans.trans _ _ _ hla ?_)
    rcases Nat.lt_or_eq_of_le (show j ≤ i by omega) with hji | rfl
    · exact List.pairwise_iff_getElem.mp h' j i (by omega) hi' hji
    · exact Std.Refl.refl _
  have hcount : (l'.take (i + 1)).countP (fun a => ¬ r l[i] a) = i + 1 := by
    rw [List.countP_eq_length.mpr fun a ha => by simpa using hprefix a ha, List.length_take]
    omega
  have hle := (List.take_sublist (i + 1) l').countP_le (p := fun a => decide (¬ r l[i] a))
  rw [hperm.countP_eq] at hahead
  omega

/-- An element that comes before all its ties stands right behind those that rank ahead of
it. -/
theorem getElem?_first {x : α} (h : l.Pairwise fun a b => r a b ∧ (b = x → ¬ r b a))
    (hrefl : r x x) (hx : x ∈ l) : l[l.countP (fun a => ¬ r x a)]? = some x := by
  obtain ⟨before, after, rfl⟩ := List.append_of_mem hx
  obtain ⟨-, hafter, hbefore⟩ := List.pairwise_append.mp h
  have hall : before.countP (fun a => ¬ r x a) = before.length :=
    List.countP_eq_length.mpr fun a ha => by simpa using (hbefore a ha x (by simp)).2 rfl
  have hnone : (x :: after).countP (fun a => ¬ r x a) = 0 := by
    rw [List.countP_eq_zero]
    intro a ha
    rcases List.mem_cons.mp ha with rfl | ha
    · simpa using hrefl
    · simpa using ((List.pairwise_cons.mp hafter).1 a ha).1
  rw [List.countP_append, hall, hnone]
  simp

end Position

section Take

variable {l : List α} (k : ℕ)

theorem mem_take_iff_countP [DecidableRel r] [Std.Asymm r] (h : l.Pairwise r) {x : α}
    (hx : x ∈ l) : x ∈ l.take k ↔ l.countP (r · x) < k := by
  obtain ⟨before, after, rfl⟩ := List.append_of_mem hx
  obtain ⟨-, hafter, hbefore⟩ := List.pairwise_append.mp h
  have hall : before.countP (r · x) = before.length :=
    List.countP_eq_length.mpr fun a ha => by simpa using hbefore a ha x (by simp)
  have hnone : (x :: after).countP (r · x) = 0 := by
    rw [List.countP_eq_zero]
    intro a ha
    rcases List.mem_cons.mp ha with rfl | ha
    · simpa using Std.Irrefl.irrefl a
    · simpa using Std.Asymm.asymm _ _ ((List.pairwise_cons.mp hafter).1 a ha)
  rw [List.countP_append, hall, hnone, Nat.add_zero, List.take_append, List.mem_append]
  constructor
  · rintro (hmem | hmem)
    · exact absurd (hbefore x (List.mem_of_mem_take hmem) x (by simp)) (Std.Irrefl.irrefl x)
    · by_contra hle
      rw [Nat.sub_eq_zero_of_le (not_lt.mp hle), List.take_zero] at hmem
      cases hmem
  · intro hlt
    obtain ⟨i, hi⟩ := Nat.exists_eq_add_of_lt hlt
    refine Or.inr ?_
    rw [show k - before.length = i + 1 by omega, List.take_succ_cons]
    exact List.mem_cons_self

theorem take_filter_of_take {p : α → Bool} (h : ∀ x ∈ l.take k, p x) :
    (l.filter p).take k = l.take k := by
  have hsplit : l.filter p = l.take k ++ (l.drop k).filter p := by
    rw [← List.filter_eq_self.mpr h, ← List.filter_append, List.take_append_drop]
  rcases Nat.le_total l.length k with hle | hle
  · rw [hsplit, List.drop_of_length_le hle, List.filter_nil, List.append_nil, List.take_take,
      Nat.min_self]
  · rw [hsplit, List.take_append_of_le_length (by simp [hle]), List.take_take, Nat.min_self]

end Take

end StableSort
