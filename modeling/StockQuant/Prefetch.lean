import Mathlib.Data.List.AList

/-! A finite map filled ahead of time with a source's answers to the keys that a
later reader will ask for. -/

namespace Prefetch

variable {κ ν : Type} [DecidableEq κ]

/-- The entries of the table are the source's answers to the keys asked for. -/
def Answers (source : κ → Option ν) (out : AList (fun _ : κ => ν)) (asked : κ → Prop) : Prop :=
  ∀ k v, out.lookup k = some v ↔ asked k ∧ source k = some v

variable {source : κ → Option ν} {out : AList (fun _ : κ => ν)} {asked : κ → Prop}

theorem Answers.congr {asked' : κ → Prop} (h : Answers source out asked)
    (hasked : ∀ k, (source k).isSome → (asked k ↔ asked' k)) : Answers source out asked' := by
  intro k v
  rw [h k v]
  refine and_congr_left fun hv => hasked k ?_
  simp [hv]

theorem Answers.lookup_eq (h : Answers source out asked) {k : κ} (hk : asked k) :
    out.lookup k = source k := by
  refine Option.ext fun v => ?_
  rw [h k v, and_iff_right hk]

theorem answers_empty (source : κ → Option ν) : Answers source ∅ (fun _ => False) := by
  intro k v
  simp

theorem Answers.insert (h : Answers source out asked) {key : κ} {value : ν}
    (hkey : source key = some value) :
    Answers source (out.insert key value) (fun k => asked k ∨ k = key) := by
  intro k v
  by_cases hk : k = key
  · subst hk
    simp [AList.lookup_insert, hkey]
  · have hask : asked k ∨ k = key ↔ asked k := or_iff_left hk
    rw [AList.lookup_insert_ne hk, h k v]
    exact and_congr_left fun _ => hask.symm

theorem Answers.skip (h : Answers source out asked) {key : κ} (hkey : source key = none) :
    Answers source out (fun k => asked k ∨ k = key) := by
  refine h.congr fun k hk => ?_
  have hne : k ≠ key := by
    rintro rfl
    simp [hkey] at hk
  exact (or_iff_left hne).symm

/-- A loop whose every round asks for some keys asks for them all, whatever else it carries
along with the table. -/
theorem Answers.foldl_view {σ β : Type} (view : σ → AList (fun _ : κ => ν)) {step : σ → β → σ}
    (adds : β → κ → Prop) (l : List β)
    (hstep : ∀ x ∈ l, ∀ {s asked}, Answers source (view s) asked →
      Answers source (view (step s x)) (fun k => asked k ∨ adds x k))
    {s : σ} (h : Answers source (view s) asked) :
    Answers source (view (l.foldl step s)) (fun k => asked k ∨ ∃ x ∈ l, adds x k) := by
  induction l generalizing s asked with
  | nil => simpa using h
  | cons x l ih =>
    refine (ih (fun y hy => hstep y (by simp [hy])) (hstep x (by simp) h)).congr fun k _ => ?_
    simp only [List.exists_mem_cons_iff, or_assoc]

theorem Answers.foldl {β : Type} {step : AList (fun _ : κ => ν) → β → AList (fun _ : κ => ν)}
    (adds : β → κ → Prop) (l : List β)
    (hstep : ∀ x ∈ l, ∀ {out asked}, Answers source out asked →
      Answers source (step out x) (fun k => asked k ∨ adds x k))
    (h : Answers source out asked) :
    Answers source (l.foldl step out) (fun k => asked k ∨ ∃ x ∈ l, adds x k) :=
  Answers.foldl_view id adds l hstep h

theorem foldl_iff_exists {σ β : Type} (step : σ → β → σ) (holds : σ → Prop) {adds : β → Prop}
    (hstep : ∀ s x, holds (step s x) ↔ holds s ∨ adds x) (l : List β) (s : σ) :
    holds (l.foldl step s) ↔ holds s ∨ ∃ x ∈ l, adds x := by
  induction l generalizing s with
  | nil => simp
  | cons x l ih => rw [List.foldl_cons, ih, hstep, List.exists_mem_cons_iff, or_assoc]

end Prefetch
