import Mathlib.Data.List.Induction
import Mathlib.Data.List.Perm.Basic

/-! Machines whose events each act on one part of the state. What is seen of a part after a run is
due to the events of that part alone, in their order: how those of different parts were mixed does
not show, nor, where they are absorbed, which of them came repeatedly. -/

namespace KeyedRuns

variable {σ ε κ ν : Type*}

/-- An event changes what is seen at its own key, and that only by what was seen there before. -/
structure Keyed (step : σ → ε → σ) (key : ε → κ) (view : σ → κ → ν) : Prop where
  other : ∀ s e k, k ≠ key e → view (step s e) k = view s k
  own : ∀ s s' e, view s (key e) = view s' (key e) →
    view (step s e) (key e) = view (step s' e) (key e)

variable {step : σ → ε → σ} {key : ε → κ} {view : σ → κ → ν} {s s' : σ} {events events' : List ε}

theorem Keyed.view_step (h : Keyed step key view) (e : ε) {k : κ} (hview : view s k = view s' k) :
    view (step s e) k = view (step s' e) k := by
  by_cases hk : k = key e
  · subst hk
    exact h.own s s' e hview
  · rw [h.other s e k hk, h.other s' e k hk, hview]

theorem Keyed.view_filter [DecidableEq κ] (h : Keyed step key view) (s : σ) (events : List ε)
    (k : κ) :
    view (events.foldl step s) k = view ((events.filter (key · = k)).foldl step s) k := by
  induction events using List.reverseRecOn with
  | nil => rfl
  | append_singleton events e ih =>
    rw [List.foldl_concat, List.filter_append]
    by_cases hk : k = key e
    · rw [List.filter_cons_of_pos (by simp [hk]), List.filter_nil, List.foldl_concat]
      exact h.view_step e ih
    · rw [List.filter_cons_of_neg (by simp [Ne.symm hk]), List.filter_nil, List.append_nil, ← ih]
      exact h.other _ e k hk

/-- The same events in the same order, any of which may come again right after itself. -/
inductive Repeats : List ε → List ε → Prop where
  | nil : Repeats [] []
  | next {events events' : List ε} (e : ε) (h : Repeats events events') :
    Repeats (events ++ [e]) (events' ++ [e])
  | again {events events' : List ε} (e : ε) (h : Repeats events (events' ++ [e])) :
    Repeats events (events' ++ [e] ++ [e])

theorem Repeats.refl (events : List ε) : Repeats events events := by
  induction events using List.reverseRecOn with
  | nil => exact .nil
  | append_singleton events e ih => exact .next e ih

/-- An event that comes again changes nothing that its key shows. -/
def Absorbs (step : σ → ε → σ) (key : ε → κ) (view : σ → κ → ν) : Prop :=
  ∀ s e, view (step (step s e) e) (key e) = view (step s e) (key e)

theorem Keyed.view_repeats (h : Keyed step key view) (habsorbs : Absorbs step key view) (s : σ)
    (hrepeats : Repeats events events') (k : κ) :
    view (events.foldl step s) k = view (events'.foldl step s) k := by
  induction hrepeats with
  | nil => rfl
  | next e _ ih =>
    rw [List.foldl_concat, List.foldl_concat]
    exact h.view_step e ih
  | @again events events' e _ ih =>
    rw [ih, List.foldl_concat, List.foldl_concat, List.foldl_concat]
    by_cases hk : k = key e
    · subst hk
      exact (habsorbs _ e).symm
    · exact (h.other _ e k hk).symm

/-- Every key has the same events in the same order, some of which may come repeatedly. -/
def RepeatsByKey [DecidableEq κ] (key : ε → κ) (events events' : List ε) : Prop :=
  ∀ k, Repeats (events.filter (key · = k)) (events'.filter (key · = k))

theorem Keyed.view_eq [DecidableEq κ] (h : Keyed step key view) (habsorbs : Absorbs step key view)
    (s : σ) (hrepeats : RepeatsByKey key events events') :
    view (events.foldl step s) = view (events'.foldl step s) := by
  funext k
  rw [h.view_filter, h.view_filter s events']
  exact h.view_repeats habsorbs s (hrepeats k) k

end KeyedRuns
