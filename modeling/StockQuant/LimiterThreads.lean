import StockQuant.RateLimitWindow

/-! Threads that read the clock before they take the lock of the limiter. The queue is in the
order of the entries, which need not be that of the readings. -/

namespace StockQuant

open SlidingWindow

structure Threads (I : Type) where
  clock : ℚ
  limiter : SlidingWindowLimiter
  reading : I → Option ℚ := fun _ => none
  log : List (ℚ × Bool) := []

inductive ThreadAction (I : Type) where
  | tick (now : ℚ)
  | read (i : I)
  | enter (i : I)

theorem le_of_drained {cutoff : ℚ} {queue : List ℚ} (hsorted : queue.Pairwise (· ≤ ·))
    (h : drained cutoff queue) : ∀ x ∈ queue, x ≤ cutoff := by
  rcases List.eq_nil_or_concat queue with rfl | ⟨rest, last, rfl⟩
  · simp
  · rw [List.concat_eq_append] at hsorted h ⊢
    have hlast : last ≤ cutoff := by simpa [drained] using h
    intro x hx
    rcases List.mem_append.mp hx with hx | hx
    · exact ((List.pairwise_append.mp hsorted).2.2 x hx last (by simp)).trans hlast
    · rwa [List.mem_singleton.mp hx]

namespace Threads

variable {I : Type}

/-- `check` in two steps: the clock is read, and the rest runs under the lock. -/
def step [DecidableEq I] (key : String) (rule : Rule) (s : Threads I) :
    ThreadAction I → Threads I
  | .tick now => { s with clock := max s.clock now }
  | .read i =>
    if s.reading i = none then { s with reading := Function.update s.reading i (some s.clock) }
    else s
  | .enter i =>
    match s.reading i with
    | none => s
    | some now =>
      let (limiter, allowed, _) := s.limiter.check key rule now
      { s with
        limiter
        reading := Function.update s.reading i none
        log := s.log ++ [(now, allowed)] }

/-- The readings of the allowed calls, in the order in which they entered. -/
def allowed (s : Threads I) : List ℚ := (s.log.filter (·.2)).map Prod.fst

def queue (s : Threads I) (key : String) : List ℚ := (s.limiter.hits key).getD []

/-- What is left of the queue for a call to count. -/
def counted (s : Threads I) (key : String) (rule : Rule) (now : ℚ) : List ℚ :=
  (((s.limiter.maybeSweep now).hits key).getD []).dropWhile (· ≤ now - rule.windowSeconds)

/-- No hit that the queue has lost counts for a call that enters with this reading, and no hit
that counts is swept. -/
structure Unpruned (s : Threads I) (key : String) (rule : Rule) (now : ℚ) : Prop where
  kept : Tracks (rule.windowSeconds : ℚ) now s.allowed (s.queue key)
  swept : sweepInterval ≤ now - s.limiter.lastSweep → drained (now - widestWindow) (s.queue key) →
    ∀ x ∈ s.queue key, x ≤ now - rule.windowSeconds

variable {s : Threads I} {key : String} {rule : Rule} {now : ℚ}

theorem Unpruned.counted (h : s.Unpruned key rule now) :
    Tracks (rule.windowSeconds : ℚ) now s.allowed (s.counted key rule now) := by
  refine Tracks.prune ?_
  unfold SlidingWindowLimiter.maybeSweep
  split_ifs with hsoon
  · exact h.kept
  · cases hq : s.limiter.hits key with
    | none => simpa [queue, hq] using h.kept
    | some waiting =>
      have hqueue : s.queue key = waiting := by simp [queue, hq]
      have hkept := h.kept
      rw [hqueue] at hkept
      by_cases hd : drained (now - widestWindow) waiting
      · have hold := h.swept (not_lt.mp hsoon) (by rwa [hqueue])
        rw [hqueue] at hold
        rw [← List.append_nil waiting] at hkept
        simpa [Option.filter, hq, hd] using hkept.forget hold
      · simpa [Option.filter, hq, hd] using hkept

/-- The entries so far came in order, and what the queue has lost counts for no later one. -/
structure InOrder (s : Threads I) (key : String) (rule : Rule) : Prop where
  sorted : (s.log.map Prod.fst).Pairwise (· ≤ ·)
  tracks : ∀ now, (∀ e ∈ s.log, e.1 ≤ now) →
    Tracks (rule.windowSeconds : ℚ) now s.allowed (s.queue key)

theorem InOrder.unpruned (h : s.InOrder key rule)
    (hwindow : rule.windowSeconds ≤ widestWindow) (hnow : ∀ e ∈ s.log, e.1 ≤ now) :
    s.Unpruned key rule now := by
  refine ⟨h.tracks now hnow, fun _ hdrained x hx => ?_⟩
  have hallowed : s.allowed.Pairwise (· ≤ ·) :=
    h.sorted.sublist (List.filter_sublist.map Prod.fst)
  obtain ⟨dropped, hqueue, -⟩ := h.tracks now hnow
  rw [hqueue] at hallowed
  have hle := le_of_drained (List.pairwise_append.mp hallowed).2.1 hdrained x hx
  have hwidest : (rule.windowSeconds : ℚ) ≤ widestWindow := by exact_mod_cast hwindow
  linarith

section Step

variable [DecidableEq I] {i : I}

theorem step_enter (key : String) (rule : Rule) (hreading : s.reading i = some now) :
    (s.step key rule (.enter i)).log =
        s.log ++ [(now, decide ((s.counted key rule now).length < rule.limit))] ∧
      (s.step key rule (.enter i)).queue key =
        if rule.limit ≤ (s.counted key rule now).length then s.counted key rule now
        else s.counted key rule now ++ [now] := by
  unfold step
  simp only [hreading, check_eq (show _ = s.counted key rule now from rfl)]
  simp [queue]

theorem allowed_enter (hreading : s.reading i = some now) :
    (s.step key rule (.enter i)).allowed =
      s.allowed ++ if (s.counted key rule now).length < rule.limit then [now] else [] := by
  unfold allowed
  rw [(step_enter key rule hreading).1, List.filter_append, List.map_append]
  by_cases hroom : (s.counted key rule now).length < rule.limit <;> simp [hroom]

/-- A call that enters unharmed keeps every window in bounds. -/
theorem atMost_enter (h : AtMost rule.limit (rule.windowSeconds : ℚ) s.allowed)
    (hreading : s.reading i = some now) (hunpruned : s.Unpruned key rule now) :
    AtMost rule.limit (rule.windowSeconds : ℚ) (s.step key rule (.enter i)).allowed := by
  rw [allowed_enter hreading]
  split_ifs with hroom
  · exact h.snoc (hunpruned.counted.length_live_le.trans_lt hroom)
  · rwa [List.append_nil]

theorem InOrder.enter (h : s.InOrder key rule) (hwindow : rule.windowSeconds ≤ widestWindow)
    (hreading : s.reading i = some now) (hnow : ∀ e ∈ s.log, e.1 ≤ now) :
    (s.step key rule (.enter i)).InOrder key rule := by
  have hcounted := (h.unpruned hwindow hnow).counted
  obtain ⟨hlog, hqueue⟩ := step_enter key rule hreading
  constructor
  · rw [hlog, List.map_append]
    refine List.pairwise_append.mpr ⟨h.sorted, by simp, fun x hx y hy => ?_⟩
    obtain ⟨e, he, rfl⟩ := List.mem_map.mp hx
    obtain rfl : y = now := by simpa using hy
    exact hnow e he
  · intro now' hnow'
    rw [hlog] at hnow'
    have hle : now ≤ now' := hnow' _ (List.mem_append_right _ (List.mem_singleton_self _))
    rw [allowed_enter hreading, hqueue]
    by_cases hfull : rule.limit ≤ (s.counted key rule now).length
    · rw [if_neg (not_lt.mpr hfull), if_pos hfull, List.append_nil]
      exact hcounted.mono hle
    · rw [if_pos (not_le.mp hfull), if_neg hfull]
      exact (hcounted.snoc now).mono hle

end Step

end Threads

section Runs

variable {I : Type} [DecidableEq I]

def runThreads (key : String) (rule : Rule) (start : ℚ) (actions : List (ThreadAction I)) :
    Threads I :=
  actions.foldl (Threads.step key rule) { clock := start, limiter := { lastSweep := start } }

theorem runThreads_snoc (key : String) (rule : Rule) (start : ℚ) (actions : List (ThreadAction I))
    (action : ThreadAction I) :
    runThreads key rule start (actions ++ [action]) =
      (runThreads key rule start actions).step key rule action := by
  simp [runThreads]

/-- Each call finds on its entry what the others have left of the hits that count for it. -/
def UnprunedRun (key : String) (rule : Rule) (start : ℚ) (actions : List (ThreadAction I)) : Prop :=
  ∀ before i after now, actions = before ++ .enter i :: after →
    (runThreads key rule start before).reading i = some now →
    (runThreads key rule start before).Unpruned key rule now

theorem UnprunedRun.reached {key : String} {rule : Rule} {start : ℚ}
    {actions reached : List (ThreadAction I)} (h : UnprunedRun key rule start actions)
    (hreached : reached <+: actions) : UnprunedRun key rule start reached := by
  obtain ⟨rest, rfl⟩ := hreached
  rintro before i after now rfl
  exact h before i (after ++ rest) now (by simp)

/-- In every state that such a run reaches, no window holds more of the allowed readings than
the limit. -/
theorem runThreads_atMost (key : String) (rule : Rule) (start : ℚ)
    {actions : List (ThreadAction I)} (h : UnprunedRun key rule start actions) :
    ∀ reached, reached <+: actions →
      AtMost rule.limit (rule.windowSeconds : ℚ) (runThreads key rule start reached).allowed := by
  intro reached hreached
  replace h := h.reached hreached
  clear hreached
  induction reached using List.reverseRecOn with
  | nil => exact atMost_nil
  | append_singleton reached action ih =>
    have ih := ih (h.reached (List.prefix_append _ _))
    rw [runThreads_snoc]
    cases action with
    | tick now => exact ih
    | read i =>
      unfold Threads.step
      dsimp only
      split_ifs <;> exact ih
    | enter i =>
      cases hreading : (runThreads key rule start reached).reading i with
      | none => simpa [Threads.step, hreading] using ih
      | some now => exact Threads.atMost_enter ih hreading (h reached i [] now rfl hreading)

variable {key : String} {rule : Rule} {start : ℚ}

/-- A run whose calls enter in the order of their readings is unharmed. -/
theorem unprunedRun_of_inOrder (hwindow : rule.windowSeconds ≤ widestWindow)
    {actions : List (ThreadAction I)}
    (horder : ∀ before i after now, actions = before ++ .enter i :: after →
      (runThreads key rule start before).reading i = some now →
      ∀ e ∈ (runThreads key rule start before).log, e.1 ≤ now) :
    UnprunedRun key rule start actions := by
  have hinOrder : ∀ reached, reached <+: actions →
      (runThreads key rule start reached).InOrder key rule := by
    intro reached
    induction reached using List.reverseRecOn with
    | nil => exact fun _ => ⟨List.Pairwise.nil, fun _ _ => tracks_nil⟩
    | append_singleton reached action ih =>
      intro hreached
      have ih := ih ((List.prefix_append _ _).trans hreached)
      obtain ⟨after, hafter⟩ := hreached
      rw [runThreads_snoc]
      cases action with
      | tick now => exact ⟨ih.sorted, ih.tracks⟩
      | read i =>
        unfold Threads.step
        dsimp only
        split_ifs
        · exact ⟨ih.sorted, ih.tracks⟩
        · exact ih
      | enter i =>
        cases hreading : (runThreads key rule start reached).reading i with
        | none => simpa [Threads.step, hreading] using ih
        | some now =>
          exact ih.enter hwindow hreading
            (horder reached i after now (by simp [← hafter]) hreading)
  intro before i after now hsplit hreading
  exact (hinOrder before ⟨_, hsplit.symm⟩).unpruned hwindow
    (horder before i after now hsplit hreading)

/-- A call that enters here is unharmed. -/
def Threads.UnprunedAt (s : Threads I) (key : String) (rule : Rule) : ThreadAction I → Prop
  | .enter i => ∀ now ∈ s.reading i, s.Unpruned key rule now
  | .tick _ | .read _ => True

/-- So is every call that enters later. -/
def Threads.UnprunedFrom (key : String) (rule : Rule) :
    Threads I → List (ThreadAction I) → Prop
  | _, [] => True
  | s, action :: actions =>
    s.UnprunedAt key rule action ∧ UnprunedFrom key rule (s.step key rule action) actions

theorem Threads.UnprunedFrom.at {s : Threads I} {before after : List (ThreadAction I)}
    {action : ThreadAction I} (h : UnprunedFrom key rule s (before ++ action :: after)) :
    (before.foldl (Threads.step key rule) s).UnprunedAt key rule action := by
  induction before generalizing s with
  | nil => exact h.1
  | cons first before ih => exact ih h.2

theorem unprunedRun_of_from {actions : List (ThreadAction I)}
    (h : Threads.UnprunedFrom key rule { clock := start, limiter := { lastSweep := start } }
      actions) : UnprunedRun key rule start actions := by
  rintro before i after now rfl hreading
  exact h.at now hreading

instance (events queue : List ℚ) (window now : ℚ) : Decidable (Tracks window now events queue) :=
  decidable_of_iff (∃ k ≤ events.length, events.drop k = queue ∧
      ∀ x ∈ events.take k, x ≤ now - window) <| by
    constructor
    · rintro ⟨k, -, rfl, hdropped⟩
      exact ⟨events.take k, (List.take_append_drop k events).symm, hdropped⟩
    · rintro ⟨dropped, rfl, hdropped⟩
      exact ⟨dropped.length, by simp, by simp, by simpa using hdropped⟩

instance (s : Threads I) (key : String) (rule : Rule) (now : ℚ) :
    Decidable (s.Unpruned key rule now) :=
  decidable_of_iff (Tracks (rule.windowSeconds : ℚ) now s.allowed (s.queue key) ∧
      (sweepInterval ≤ now - s.limiter.lastSweep → drained (now - widestWindow) (s.queue key) →
        ∀ x ∈ s.queue key, x ≤ now - rule.windowSeconds))
    ⟨fun h => ⟨h.1, h.2⟩, fun h => ⟨h.1, h.2⟩⟩

instance (s : Threads I) (key : String) (rule : Rule) :
    (action : ThreadAction I) → Decidable (s.UnprunedAt key rule action)
  | .enter i =>
    match hreading : s.reading i with
    | none => isTrue fun now hnow => by simp [hreading] at hnow
    | some now => decidable_of_iff (s.Unpruned key rule now) (by
        simp [Threads.UnprunedAt, hreading])
  | .tick _ | .read _ => isTrue trivial

instance decidableUnprunedFrom (key : String) (rule : Rule) :
    (s : Threads I) → (actions : List (ThreadAction I)) →
      Decidable (Threads.UnprunedFrom key rule s actions)
  | _, [] => isTrue trivial
  | s, action :: actions =>
    have := decidableUnprunedFrom key rule (s.step key rule action) actions
    inferInstanceAs (Decidable (_ ∧ _))

end Runs

/-- Two threads at once, which enter in the opposite order of their readings each time. The
limit is reached in the first hour, and the last two calls find room when it is over. -/
def overlappingCalls : List (ThreadAction ℕ) :=
  [.read 0, .tick 1, .read 1, .enter 1, .enter 0, .tick 10, .read 0, .tick 20, .read 1, .enter 1,
    .enter 0, .tick 3602, .read 0, .tick 3603, .read 1, .enter 1, .enter 0]

theorem runThreads_atMost_overlapping :
    let run := runThreads "forgot_email:a" mailRule 0
    (run overlappingCalls).log = [(1, true), (0, true), (20, true), (10, false), (3603, true),
        (3602, true)] ∧
      ∀ reached, reached <+: overlappingCalls →
        AtMost mailRule.limit (mailRule.windowSeconds : ℚ) (run reached).allowed :=
  ⟨by decide +kernel, runThreads_atMost "forgot_email:a" mailRule 0
    (unprunedRun_of_from (by decide +kernel))⟩

/-- Three reset mails of one hour, and two more calls at its end that enter in the opposite order of
their readings. -/
def swappedCalls : List (ThreadAction ℕ) :=
  [.read 0, .enter 0, .read 0, .enter 0, .read 0, .enter 0, .tick 3599, .read 0, .tick 3600,
    .read 1, .enter 1, .enter 0]

theorem runThreads_exceeds :
    (runThreads "forgot_email:a" mailRule 0 swappedCalls).allowed = [0, 0, 0, 3600, 3599] ∧
      ¬ AtMost mailRule.limit (mailRule.windowSeconds : ℚ)
        (runThreads "forgot_email:a" mailRule 0 swappedCalls).allowed := by
  have hallowed : (runThreads "forgot_email:a" mailRule 0 swappedCalls).allowed =
      [0, 0, 0, 3600, 3599] := by decide +kernel
  refine ⟨hallowed, fun h => ?_⟩
  rw [hallowed] at h
  exact absurd (h (-1 / 2)) (by decide +kernel)

end StockQuant
