import Mathlib.Data.List.Infix

/-! A fixed list of calls to a peer that may fail any of them: what has been called when it
stops, with a first call that opens the conversation and a last one that closes it whatever
happens in between. -/

namespace Conversations

variable {C F : Type*}

/-- What a call fails with, if it does, told by all the calls up to it. -/
abbrev Counterpart (C F : Type*) := List C → Option F

section Run

variable (peer : Counterpart C F)

/-- The calls in turn, up to the first that fails. -/
def attempt : List C → List C → List C × Option F
  | said, [] => (said, none)
  | said, c :: script =>
    match peer (said ++ [c]) with
    | some failure => (said ++ [c], some failure)
    | none => attempt (said ++ [c]) script

/-- The closing call follows whenever the opening one has succeeded. A failure of its own does
not show. -/
def bracket (opening : C) (script : List C) (closing : C) : List C × Option F :=
  match peer [opening] with
  | some failure => ([opening], some failure)
  | none =>
    let (said, failure) := attempt peer [opening] script
    (said ++ [closing], failure)

/-- Each of the calls has succeeded. -/
def Accepted (said : List C) : Prop :=
  ∀ earlier c, earlier ++ [c] <+: said → peer (earlier ++ [c]) = none

end Run

variable {peer : Counterpart C F} {said script : List C} {opening closing : C}

theorem accepted_nil : Accepted peer [] := by
  intro earlier c h
  simp at h

theorem Accepted.snoc (h : Accepted peer said) {c : C} (hc : peer (said ++ [c]) = none) :
    Accepted peer (said ++ [c]) := by
  intro earlier d hpart
  rcases List.prefix_concat_iff.mp hpart with hwhole | hpart
  · rwa [hwhole]
  · exact h earlier d hpart

theorem Accepted.of_prefix (h : Accepted peer said) {earlier : List C}
    (hpart : earlier <+: said) : Accepted peer earlier :=
  fun _ _ hearlier => h _ _ (hearlier.trans hpart)

/-- The script is carried out up to a call, and stops there only where the call fails. -/
theorem attempt_spec (h : Accepted peer said) (script : List C) :
    ((attempt peer said script).2 = none ∧ (attempt peer said script).1 = said ++ script ∧
        Accepted peer (said ++ script)) ∨
      ∃ before c after failure, script = before ++ c :: after ∧
        attempt peer said script = (said ++ before ++ [c], some failure) ∧
        Accepted peer (said ++ before) ∧ peer (said ++ before ++ [c]) = some failure := by
  induction script generalizing said with
  | nil => exact Or.inl ⟨rfl, (List.append_nil said).symm, by rwa [List.append_nil]⟩
  | cons c script ih =>
    cases hpeer : peer (said ++ [c]) with
    | some failure =>
      refine Or.inr ⟨[], c, script, failure, rfl, ?_, by rwa [List.append_nil],
        by simpa using hpeer⟩
      simp [attempt, hpeer]
    | none =>
      have hstep : attempt peer said (c :: script) = attempt peer (said ++ [c]) script := by
        simp [attempt, hpeer]
      rw [hstep]
      rcases ih (h.snoc hpeer) with ⟨hdone, hsaid, haccepted⟩ |
        ⟨before, d, after, failure, rfl, hrun, haccepted, hfailed⟩
      · exact Or.inl ⟨hdone, by simpa using hsaid, by simpa using haccepted⟩
      · exact Or.inr ⟨c :: before, d, after, failure, rfl, by simpa using hrun,
          by simpa using haccepted, by simpa using hfailed⟩

/-- A conversation is never opened, or is carried out, or is broken off at the first failure;
the last two end with the closing call. -/
inductive Ended (peer : Counterpart C F) (opening : C) (script : List C) (closing : C) :
    List C × Option F → Prop where
  | refused (failure : F) (hfailed : peer [opening] = some failure) :
    Ended peer opening script closing ([opening], some failure)
  | carriedOut (haccepted : Accepted peer (opening :: script)) :
    Ended peer opening script closing (opening :: script ++ [closing], none)
  | brokenOff (before : List C) (c : C) (after : List C) (failure : F)
      (hscript : script = before ++ c :: after) (haccepted : Accepted peer (opening :: before))
      (hfailed : peer (opening :: before ++ [c]) = some failure) :
    Ended peer opening script closing (opening :: before ++ [c, closing], some failure)

theorem bracket_ended (peer : Counterpart C F) (opening : C) (script : List C) (closing : C) :
    Ended peer opening script closing (bracket peer opening script closing) := by
  cases hopen : peer [opening] with
  | some failure =>
    have hrefused : bracket peer opening script closing = ([opening], some failure) := by
      simp [bracket, hopen]
    rw [hrefused]
    exact .refused failure hopen
  | none =>
    have hstep : bracket peer opening script closing =
        ((attempt peer [opening] script).1 ++ [closing], (attempt peer [opening] script).2) := by
      simp [bracket, hopen]
    have hopened : Accepted peer [opening] := accepted_nil.snoc hopen
    rw [hstep]
    rcases attempt_spec hopened script with
      ⟨hdone, hsaid, haccepted⟩ | ⟨before, c, after, failure, hscript, hrun, haccepted, hfailed⟩
    · rw [hdone, hsaid]
      exact .carriedOut haccepted
    · rw [hrun]
      have hended : Ended peer opening script closing
          (opening :: before ++ [c, closing], some failure) :=
        .brokenOff before c after failure hscript haccepted hfailed
      simpa using hended

/-- What is reported is what a call has failed with. -/
theorem Ended.failed {calls : List C} {failure : F}
    (h : Ended peer opening script closing (calls, some failure)) :
    ∃ said, said <+: calls ∧ peer said = some failure := by
  cases h with
  | refused _ hfailed => exact ⟨_, List.prefix_refl _, hfailed⟩
  | brokenOff before c after _ hscript haccepted hfailed =>
    exact ⟨_, ⟨[closing], by simp⟩, hfailed⟩

theorem accepted_before (haccepted : Accepted peer said) {c d : C} {before : List C}
    (h : before ++ [d] <+: said ++ [c]) : Accepted peer before := by
  refine haccepted.of_prefix ?_
  rcases List.prefix_concat_iff.mp h with hwhole | hpart
  · rw [(List.append_inj' hwhole rfl).1]
  · exact (List.prefix_append _ _).trans hpart

/-- Whatever is called before the conversation is closed has its place in the script, and all
before it has succeeded. -/
theorem bracket_split {before after : List C} {c : C}
    (h : (bracket peer opening script closing).1 = before ++ c :: after) (hc : c ≠ closing) :
    before ++ [c] <+: opening :: script ∧ Accepted peer before := by
  have hpart : before ++ [c] <+: (bracket peer opening script closing).1 :=
    ⟨after, by rw [h, List.append_assoc, List.singleton_append]⟩
  have hclosed {said : List C} (hsaid : before ++ [c] <+: said ++ [closing]) :
      before ++ [c] <+: said := by
    rcases List.prefix_concat_iff.mp hsaid with hwhole | hsaid
    · exact absurd (List.singleton_inj.mp (List.append_inj' hwhole rfl).2) hc
    · exact hsaid
  generalize hresult : bracket peer opening script closing = result at hpart
  cases hresult ▸ bracket_ended peer opening script closing with
  | refused failure hfailed =>
    exact ⟨hpart.trans (List.prefix_append [opening] script),
      accepted_before accepted_nil (show before ++ [c] <+: [] ++ [opening] from hpart)⟩
  | carriedOut haccepted =>
    have hsaid := hclosed hpart
    exact ⟨hsaid, haccepted.of_prefix ((List.prefix_append _ _).trans hsaid)⟩
  | brokenOff begun d rest failure hscript haccepted hfailed =>
    have hsaid : before ++ [c] <+: opening :: begun ++ [d] := hclosed (by simpa using hpart)
    refine ⟨hsaid.trans ⟨rest, ?_⟩, accepted_before haccepted hsaid⟩
    rw [hscript]
    simp

/-- A call that is not in the first part comes after all of it. -/
theorem prefix_of_not_mem {first second before : List C} {c : C}
    (h : before ++ [c] <+: first ++ second) (hc : c ∉ first) : first <+: before := by
  rcases List.prefix_or_prefix_of_prefix h (List.prefix_append first second) with hearly | hlate
  · exact absurd (hearly.subset (List.mem_append_right before (List.mem_singleton_self c))) hc
  · rcases List.prefix_concat_iff.mp hlate with hwhole | hlate
    · exact absurd (hwhole ▸ List.mem_append_right before (List.mem_singleton_self c)) hc
    · exact hlate

/-- A call that is only the last one of the script is made when all the others have been. -/
theorem eq_of_prefix_concat {first before : List C} {c d : C} (h : before ++ [c] <+: first ++ [d])
    (hc : c ∉ first) : before = first ∧ c = d := by
  rcases List.prefix_concat_iff.mp h with hwhole | hearly
  · obtain ⟨hbefore, hlast⟩ := List.append_inj' hwhole rfl
    exact ⟨hbefore, List.singleton_inj.mp hlast⟩
  · exact absurd (hearly.subset (List.mem_append_right before (List.mem_singleton_self c))) hc

end Conversations
