import Mathlib.Data.List.Induction

/-! Credentials that are good for one use: an owner has the one issued to it last,
until that is used. -/

namespace SingleUse

inductive Event (Owner Name Time : Type*) where
  | issue (owner : Owner) (name : Name) (time : Time)
  | use (name : Name)

variable {Owner Name Time : Type*}

def IssuedLast (history : List (Event Owner Name Time)) (owner : Owner) (name : Name)
    (time : Time) : Prop :=
  ∃ before after, history = before ++ .issue owner name time :: after ∧
    ∀ name' time', .issue owner name' time' ∉ after

/-- It was issued last, and has not been used. -/
def Outstanding (history : List (Event Owner Name Time)) (owner : Owner) (name : Name)
    (time : Time) : Prop :=
  IssuedLast history owner name time ∧ .use name ∉ history

variable {history : List (Event Owner Name Time)} {owner owner' : Owner} {name name' : Name}
  {time time' : Time}

theorem not_issuedLast_nil : ¬ IssuedLast ([] : List (Event Owner Name Time)) owner name time := by
  rintro ⟨before, after, h, -⟩
  simp at h

theorem issuedLast_snoc {event : Event Owner Name Time} :
    IssuedLast (history ++ [event]) owner name time ↔
      event = .issue owner name time ∨
        (∀ name' time', event ≠ .issue owner name' time') ∧
          IssuedLast history owner name time := by
  constructor
  · rintro ⟨before, after, h, hlast⟩
    rcases List.eq_nil_or_concat after with rfl | ⟨after, last, rfl⟩
    · exact Or.inl (List.singleton_inj.mp (List.append_inj_right' h rfl))
    · rw [List.concat_eq_append, ← List.cons_append, ← List.append_assoc] at h
      obtain ⟨hinit, hevent⟩ := List.append_inj' h rfl
      obtain rfl := List.singleton_inj.mp hevent
      refine Or.inr ⟨fun n t heq => hlast n t (by simp [heq]), before, after, hinit,
        fun n t hmem => ?_⟩
      exact hlast n t (by simp [hmem])
  · rintro (rfl | ⟨hne, before, after, rfl, hlast⟩)
    · exact ⟨history, [], rfl, by simp⟩
    · refine ⟨before, after ++ [event], by simp, fun n t hmem => ?_⟩
      rcases List.mem_append.mp hmem with hmem | hmem
      · exact hlast n t hmem
      · exact hne n t (List.mem_singleton.mp hmem).symm

theorem outstanding_use :
    Outstanding (history ++ [.use name']) owner name time ↔
      name ≠ name' ∧ Outstanding history owner name time := by
  simp [Outstanding, issuedLast_snoc]
  tauto

theorem outstanding_issue (hfresh : .use name' ∉ history) :
    Outstanding (history ++ [.issue owner' name' time']) owner name time ↔
      (owner = owner' ∧ name = name' ∧ time = time') ∨
        owner ≠ owner' ∧ Outstanding history owner name time := by
  by_cases howner : owner = owner'
  · subst howner
    unfold Outstanding
    rw [issuedLast_snoc]
    constructor
    · rintro ⟨heq | ⟨hne, -⟩, -⟩
      · cases heq
        exact Or.inl ⟨rfl, rfl, rfl⟩
      · exact absurd rfl (hne name' time')
    · rintro (⟨-, rfl, rfl⟩ | ⟨hne, -⟩)
      · exact ⟨Or.inl rfl, by simp [hfresh]⟩
      · exact absurd rfl hne
  · simp [Outstanding, issuedLast_snoc, howner, Ne.symm howner]

theorem IssuedLast.unique (h : IssuedLast history owner name time)
    (h' : IssuedLast history owner name' time') : name = name' ∧ time = time' := by
  induction history using List.reverseRecOn with
  | nil => exact absurd h not_issuedLast_nil
  | append_singleton history event ih =>
    rcases issuedLast_snoc.mp h with rfl | ⟨hne, hlast⟩
    · rcases issuedLast_snoc.mp h' with heq | ⟨hne, -⟩
      · cases heq
        exact ⟨rfl, rfl⟩
      · exact absurd rfl (hne name time)
    · rcases issuedLast_snoc.mp h' with rfl | ⟨-, hlast'⟩
      · exact absurd rfl (hne name' time')
      · exact ih hlast hlast'

end SingleUse
