import Mathlib.Data.List.Induction
import Mathlib.Logic.Function.Basic

/-! Maps that are written one key at a time: the last write of a key decides, and `none`
takes the key out. -/

namespace LastWrite

variable {κ ν : Type*} [DecidableEq κ]

def written (start : κ → Option ν) (writes : List (κ × Option ν)) : κ → Option ν :=
  writes.foldl (fun m w => Function.update m w.1 w.2) start

variable {start : κ → Option ν} {writes : List (κ × Option ν)}

@[simp] theorem written_nil : written start [] = start := rfl

theorem written_append (more : List (κ × Option ν)) :
    written start (writes ++ more) = written (written start writes) more := by
  simp [written]

theorem written_snoc (w : κ × Option ν) :
    written start (writes ++ [w]) = Function.update (written start writes) w.1 w.2 := by
  simp [written]

theorem written_snoc_apply (w : κ × Option ν) (k : κ) :
    written start (writes ++ [w]) k = if k = w.1 then w.2 else written start writes k := by
  rw [written_snoc, Function.update_apply]

theorem mem_of_written {k : κ} {v : ν} (h : written (fun _ => none) writes k = some v) :
    (k, some v) ∈ writes := by
  induction writes using List.reverseRecOn with
  | nil => cases h
  | append_singleton writes w ih =>
    rw [written_snoc_apply] at h
    rw [List.mem_append, List.mem_singleton]
    split_ifs at h with hk
    · exact Or.inr (Prod.ext hk h.symm)
    · exact Or.inl (ih h)

theorem isSome_written_iff {k : κ} (h : ∀ w ∈ writes, w.2.isSome) :
    (written (fun _ => none) writes k).isSome ↔ k ∈ writes.map Prod.fst := by
  induction writes using List.reverseRecOn with
  | nil => simp
  | append_singleton writes w ih =>
    have hw : w.2.isSome := h w (by simp)
    have ih := ih fun v hv => h v (by simp [hv])
    rw [written_snoc_apply, List.map_append, List.mem_append]
    by_cases hk : k = w.1
    · simp [hk, hw]
    · simp [hk, ih]

end LastWrite
