import Mathlib.Data.List.Basic

/-! Answers that are collected from a store one question at a time, while the store may change:
when those of one moment are all that is collected. -/

namespace Lookups

variable {S Q A : Type}

/-- With the questions of `todo` left, the answers are those of the store of a moment, and the
store has kept its answers to the questions that are left. -/
structure AsOf (ask : S → A → Q → A) (moment : S) (questions : List Q) (start : A) (now : S)
    (todo : List Q) (answers : A) : Prop where
  answered : ∃ asked, questions = asked ++ todo ∧ answers = asked.foldl (ask moment) start
  kept : ∀ question ∈ todo, ∀ answers, ask now answers question = ask moment answers question

variable {ask : S → A → Q → A} {moment now now' : S} {questions todo : List Q} {start answers : A}
  {question : Q}

theorem AsOf.refl (ask : S → A → Q → A) (moment : S) (questions : List Q) (start : A) :
    AsOf ask moment questions start moment questions start :=
  ⟨⟨[], rfl, rfl⟩, fun _ _ _ => rfl⟩

theorem AsOf.next (h : AsOf ask moment questions start now (question :: todo) answers) :
    AsOf ask moment questions start now todo (ask now answers question) := by
  obtain ⟨asked, hquestions, hanswers⟩ := h.answered
  refine ⟨⟨asked ++ [question], ?_, ?_⟩, fun other hother => ?_⟩
  · rw [hquestions, List.append_assoc, List.singleton_append]
  · rw [h.kept question List.mem_cons_self, List.foldl_append, ← hanswers]
    rfl
  · exact h.kept other (List.mem_cons_of_mem _ hother)

/-- A change that spares the questions that are left. -/
theorem AsOf.change (h : AsOf ask moment questions start now todo answers)
    (hspared : ∀ question ∈ todo, ∀ answers, ask now' answers question = ask now answers question) :
    AsOf ask moment questions start now' todo answers :=
  ⟨h.answered, fun question hquestion answers =>
    (hspared question hquestion answers).trans (h.kept question hquestion answers)⟩

theorem AsOf.finish (h : AsOf ask moment questions start now [] answers) :
    answers = questions.foldl (ask moment) start := by
  obtain ⟨asked, hquestions, hanswers⟩ := h.answered
  rw [hanswers, hquestions, List.append_nil]

end Lookups
