import Mathlib.Data.List.Nodup

/-! An update of all rows under a unique key that is checked row by row: whether it goes through
may depend on the order of the rows, but not where a second update would leave the new keys
alone. -/

namespace UniqueUpdates

variable {α κ : Type*}

section Rows

variable [DecidableEq κ] (key : α → κ) (f : α → α)

/-- The rows of the first list have their new values, those of the second are still to come; `none`
where the new key of a row is that of another one at the time. -/
def updateEach : List α → List α → Option (List α)
  | updated, [] => some updated
  | updated, row :: todo =>
    if key (f row) ∈ (updated ++ todo).map key then none else updateEach (updated ++ [f row]) todo

end Rows

variable {key : α → κ} {f : α → α} {g : κ → κ} {updated todo : List α} {row : α}

/-- The rows that have their new values have keys of their own, which a second update leaves. -/
structure Settled (key : α → κ) (g : κ → κ) (updated : List α) : Prop where
  again : ∀ row ∈ updated, g (key row) = key row
  nodup : (updated.map key).Nodup

theorem Settled.nil : Settled key g [] where
  again := by simp
  nodup := List.nodup_nil

theorem Settled.snoc (h : Settled key g updated) (hagain : g (key row) = key row)
    (hfresh : key row ∉ updated.map key) : Settled key g (updated ++ [row]) where
  again other hother := by
    rcases List.mem_append.mp hother with hupdated | hrow
    · exact h.again other hupdated
    · rwa [List.mem_singleton.mp hrow]
  nodup := by
    rw [List.map_append, List.map_singleton]
    exact List.nodup_append.mpr ⟨h.nodup, by simp, fun k hk k' hk' hsame =>
      hfresh (List.mem_singleton.mp hk' ▸ hsame ▸ hk)⟩

/-- A row that has the new key now will have it in the end. -/
theorem not_nodup_of_clash (hf : ∀ row, key (f row) = g (key row)) (hg : ∀ k, g (g k) = g k)
    (hclash : key (f row) ∈ (updated ++ todo).map key) :
    ¬ ((updated ++ (row :: todo).map f).map key).Nodup := by
  intro hnodup
  rw [List.map_append, List.map_cons, List.map_cons, List.nodup_middle, List.nodup_cons,
    ← List.map_append] at hnodup
  refine hnodup.1 ?_
  obtain ⟨other, hother, hsame⟩ := List.mem_map.mp hclash
  rcases List.mem_append.mp hother with hupdated | htodo
  · exact hsame ▸ List.mem_map_of_mem (List.mem_append_left _ hupdated)
  · have hlast : key (f other) = key (f row) := by rw [hf, hsame, hf, hg]
    exact hlast ▸ List.mem_map_of_mem (List.mem_append_right _ (List.mem_map_of_mem htodo))

variable [DecidableEq κ]

theorem updateEach_eq (hf : ∀ row, key (f row) = g (key row)) (hg : ∀ k, g (g k) = g k)
    (todo : List α) (hsettled : Settled key g updated) :
    updateEach key f updated todo =
      if ((updated ++ todo.map f).map key).Nodup then some (updated ++ todo.map f) else none := by
  induction todo generalizing updated with
  | nil => simp [updateEach, hsettled.nodup]
  | cons row todo ih =>
    rw [updateEach]
    by_cases hclash : key (f row) ∈ (updated ++ todo).map key
    · rw [if_pos hclash, if_neg (not_nodup_of_clash hf hg hclash)]
    · have hfresh : key (f row) ∉ updated.map key := fun hmem =>
        hclash (List.map_append .. ▸ List.mem_append_left _ hmem)
      have hagain : g (key (f row)) = key (f row) := by rw [hf, hg]
      rw [if_neg hclash, ih (hsettled.snoc hagain hfresh), List.append_assoc, List.map_cons,
        List.singleton_append]

/-- Whether the update goes through does not depend on the order of the rows. -/
theorem updateAll_eq (hf : ∀ row, key (f row) = g (key row)) (hg : ∀ k, g (g k) = g k)
    (rows : List α) :
    updateEach key f [] rows =
      if ((rows.map key).map g).Nodup then some (rows.map f) else none := by
  have hkeys : (rows.map f).map key = (rows.map key).map g := by
    rw [List.map_map, List.map_map]
    exact List.map_congr_left fun row _ => hf row
  rw [updateEach_eq hf hg rows Settled.nil, List.nil_append, hkeys]

/-- It may where a second update would move the keys on. -/
example : updateEach id Nat.succ [] [1, 2] = none ∧
    updateEach id Nat.succ [] [2, 1] = some [3, 2] := by decide

end UniqueUpdates
