import StockQuant.LimiterThreads

/-! What the limiter remembers from call to call: the keys that were hit lately, each with no
more hits than its rules let through. -/

namespace StockQuant

structure CheckCall where
  key : String
  rule : Rule
  now : ℚ

abbrev CheckLog := List (CheckCall × Bool)

def checkCall (acc : SlidingWindowLimiter × CheckLog) (call : CheckCall) :
    SlidingWindowLimiter × CheckLog :=
  let result := acc.1.check call.key call.rule call.now
  (result.1, acc.2 ++ [(call, result.2.1)])

/-- The calls on a limiter built at `start`, each with whether it was allowed. -/
def checkCalls (start : ℚ) (calls : List CheckCall) : SlidingWindowLimiter × CheckLog :=
  calls.foldl checkCall ({ lastSweep := start }, [])

theorem checkCalls_snoc (start : ℚ) (calls : List CheckCall) (call : CheckCall) :
    checkCalls start (calls ++ [call]) = checkCall (checkCalls start calls) call := by
  simp [checkCalls]

theorem checkCalls_calls (start : ℚ) (calls : List CheckCall) :
    (checkCalls start calls).2.map Prod.fst = calls := by
  induction calls using List.reverseRecOn with
  | nil => rfl
  | append_singleton calls call ih => simp [checkCalls_snoc, checkCall, ih]

/-- A stored queue holds some hits of its key, in order, no more than one of the rules that the
key was called with allows, and the newest of them is later than `since`. -/
structure Remembered (log : CheckLog) (since : ℚ) (key : String) (queue : List ℚ) : Prop where
  sorted : queue.Pairwise (· ≤ ·)
  limited : ∃ e ∈ log, e.1.key = key ∧ queue.length ≤ e.1.rule.limit
  newest : ∃ e ∈ log, e.2 ∧ e.1.key = key ∧ queue.getLast? = some e.1.now ∧ since < e.1.now

/-- The key of a hit is stored, with this hit or a later one. -/
def Stored (limiter : SlidingWindowLimiter) (key : String) (hit : ℚ) : Prop :=
  ∃ queue, limiter.hits key = some queue ∧ ∃ newest, queue.getLast? = some newest ∧ hit ≤ newest

/-- The limiter holds no key without a hit later than its last sweep reached, and each key with
such a hit. -/
structure Memory (limiter : SlidingWindowLimiter) (log : CheckLog) : Prop where
  remembered : ∀ key queue, limiter.hits key = some queue →
    Remembered log (limiter.lastSweep - widestWindow) key queue
  stored : ∀ e ∈ log, e.2 → limiter.lastSweep - widestWindow < e.1.now →
    Stored limiter e.1.key e.1.now

section Steps

variable {limiter : SlidingWindowLimiter} {log : CheckLog} {key : String} {queue : List ℚ}
  {since now : ℚ}

theorem Remembered.mono {since' : ℚ} {e : CheckCall × Bool} (h : Remembered log since key queue)
    (hsince : since' ≤ since) : Remembered (log ++ [e]) since' key queue := by
  obtain ⟨e₁, he₁, hlimited⟩ := h.limited
  obtain ⟨e₂, he₂, hallowed, hkey, hlast, hnewest⟩ := h.newest
  exact ⟨h.sorted, ⟨e₁, List.mem_append_left _ he₁, hlimited⟩,
    ⟨e₂, List.mem_append_left _ he₂, hallowed, hkey, hlast, hsince.trans_lt hnewest⟩⟩

theorem le_getLast? {newest : ℚ} (hsorted : queue.Pairwise (· ≤ ·))
    (hlast : queue.getLast? = some newest) : ∀ x ∈ queue, x ≤ newest :=
  le_of_drained hsorted (by simp [drained, hlast])

theorem lastSweep_maybeSweep (limiter : SlidingWindowLimiter) {now : ℚ}
    (hnow : limiter.lastSweep ≤ now) :
    limiter.lastSweep ≤ (limiter.maybeSweep now).lastSweep ∧
      (limiter.maybeSweep now).lastSweep ≤ now ∧
      now - sweepInterval < (limiter.maybeSweep now).lastSweep := by
  unfold SlidingWindowLimiter.maybeSweep
  split_ifs with hsoon
  · exact ⟨le_rfl, hnow, by linarith⟩
  · exact ⟨hnow, le_rfl, by norm_num [sweepInterval]⟩

/-- The sweep forgets the keys without a hit in the widest window and no others. -/
theorem Memory.maybeSweep (h : Memory limiter log) (hnow : limiter.lastSweep ≤ now) :
    Memory (limiter.maybeSweep now) log := by
  unfold SlidingWindowLimiter.maybeSweep
  split_ifs with hsoon
  · exact h
  · constructor
    · intro key queue hqueue
      obtain ⟨hstored, hdrained⟩ := Option.filter_eq_some_iff.mp hqueue
      have hqueue := h.remembered key queue hstored
      obtain ⟨e, he, hallowed, hkey, hlast, -⟩ := hqueue.newest
      refine ⟨hqueue.sorted, hqueue.limited, e, he, hallowed, hkey, hlast, ?_⟩
      simpa [drained, hlast] using hdrained
    · intro e he hallowed hrecent
      have hbefore : limiter.lastSweep - widestWindow < e.1.now :=
        (sub_le_sub_right hnow _).trans_lt hrecent
      obtain ⟨queue, hstored, newest, hlast, hle⟩ := h.stored e he hallowed hbefore
      refine ⟨queue, Option.filter_eq_some_iff.mpr ⟨hstored, ?_⟩, newest, hlast, hle⟩
      simpa [drained, hlast] using hrecent.trans_le hle

theorem getLast?_dropWhile {p : ℚ → Bool} (hne : queue.dropWhile p ≠ []) :
    (queue.dropWhile p).getLast? = queue.getLast? := by
  conv_rhs => rw [← List.takeWhile_append_dropWhile (p := p) (l := queue)]
  rw [List.getLast?_append_of_ne_nil _ hne]

/-- What a denied call leaves of the queue of its key. -/
theorem Remembered.denied {e : CheckCall × Bool} {p : ℚ → Bool}
    (h : Remembered log since key queue) (hne : queue.dropWhile p ≠ []) :
    Remembered (log ++ [e]) since key (queue.dropWhile p) := by
  obtain ⟨hsorted, ⟨e₁, he₁, hkey₁, hlimited⟩, hnewest⟩ := h.mono (e := e) le_rfl
  have hsub : (queue.dropWhile p).Sublist queue := List.dropWhile_sublist p
  refine ⟨hsorted.sublist hsub, ⟨e₁, he₁, hkey₁, hsub.length_le.trans hlimited⟩, ?_⟩
  rwa [getLast?_dropWhile hne]

theorem Remembered.allowed {call : CheckCall} (hsorted : queue.Pairwise (· ≤ ·))
    (hpast : ∀ x ∈ queue, x ≤ call.now) (hroom : queue.length < call.rule.limit)
    (hsince : since < call.now) :
    Remembered (log ++ [(call, true)]) since call.key (queue ++ [call.now]) := by
  have hmem : (call, true) ∈ log ++ [(call, true)] := by simp
  refine ⟨List.pairwise_append.mpr ⟨hsorted, List.pairwise_singleton _ _, fun x hx y hy => ?_⟩,
    ⟨_, hmem, rfl, by simpa using Nat.succ_le_of_lt hroom⟩,
    ⟨_, hmem, rfl, rfl, by simp, hsince⟩⟩
  obtain rfl := List.mem_singleton.mp hy
  exact hpast x hx

/-- No stored hit is later than the calls so far. -/
theorem Memory.le_now (h : Memory limiter log) (hlog : ∀ e ∈ log, e.1.now ≤ now)
    (hqueue : limiter.hits key = some queue) : ∀ x ∈ queue, x ≤ now := by
  have hremembered := h.remembered key queue hqueue
  obtain ⟨e, he, -, -, hlast, -⟩ := hremembered.newest
  exact fun x hx => (le_getLast? hremembered.sorted hlast x hx).trans (hlog e he)

/-- One call changes the queue of its key alone. -/
theorem Memory.update {call : CheckCall} {allowed : Bool} (h : Memory limiter log)
    (hown : Remembered (log ++ [(call, allowed)]) (limiter.lastSweep - widestWindow) call.key queue)
    (hstored : ∀ e ∈ log ++ [(call, allowed)], e.1.key = call.key → e.2 →
      limiter.lastSweep - widestWindow < e.1.now →
      ∃ newest, queue.getLast? = some newest ∧ e.1.now ≤ newest) :
    Memory { limiter with hits := Function.update limiter.hits call.key (some queue) }
      (log ++ [(call, allowed)]) := by
  constructor
  · intro key queue' hqueue
    by_cases hkey : key = call.key
    · subst hkey
      obtain rfl : queue = queue' := by simpa using hqueue
      exact hown
    · have hqueue : limiter.hits key = some queue' := by
        simpa [Function.update_of_ne hkey] using hqueue
      exact (h.remembered key queue' hqueue).mono le_rfl
  · intro e he hallowed hrecent
    by_cases hkey : e.1.key = call.key
    · exact ⟨queue, by simp [hkey], hstored e he hkey hallowed hrecent⟩
    · have hlog : e ∈ log := by
        refine (List.mem_append.mp he).resolve_right fun hnew => hkey ?_
        rw [List.mem_singleton.mp hnew]
      obtain ⟨queue', hqueue', hnewest⟩ := h.stored e hlog hallowed hrecent
      exact ⟨queue', by simpa [Function.update_of_ne hkey] using hqueue', hnewest⟩

/-- The queue of the call is what the sweep and the pruning leave of it, with the call itself
where it is allowed. -/
theorem Memory.checkSwept {call : CheckCall} (h : Memory limiter log)
    (hsweep : limiter.lastSweep ≤ call.now) (hlog : ∀ e ∈ log, e.1.now ≤ call.now)
    {counted : List ℚ} (hcounted : ((limiter.hits call.key).getD []).dropWhile
      (· ≤ call.now - call.rule.windowSeconds) = counted) :
    Memory { limiter with
        hits := Function.update limiter.hits call.key
          (some (if call.rule.limit ≤ counted.length then counted else counted ++ [call.now])) }
      (log ++ [(call, decide (counted.length < call.rule.limit))]) := by
  subst hcounted
  split_ifs with hfull
  · rw [decide_eq_false (not_lt.mpr hfull)]
    have hne := List.ne_nil_of_length_pos (call.rule.limit_pos.trans_le hfull)
    cases hqueue : limiter.hits call.key with
    | none => simp [hqueue] at hne
    | some queue =>
      rw [hqueue, Option.getD_some] at hne
      have hremembered := h.remembered call.key queue hqueue
      refine h.update (hremembered.denied hne) fun e he hkey hallowed hrecent => ?_
      rw [Option.getD_some, getLast?_dropWhile hne]
      rcases List.mem_append.mp he with he | he
      · obtain ⟨queue', hqueue', hnewest⟩ := h.stored e he hallowed hrecent
        rw [hkey, hqueue] at hqueue'
        rwa [Option.some.inj hqueue']
      · rw [List.mem_singleton.mp he] at hallowed
        cases hallowed
  · rw [decide_eq_true (not_le.mp hfull)]
    have hwidest : (0 : ℚ) < widestWindow := by norm_num [widestWindow, rules]
    have hsince : limiter.lastSweep - widestWindow < call.now := by linarith
    have hpast : ∀ e ∈ log ++ [(call, true)], e.1.now ≤ call.now := by
      intro e he
      rcases List.mem_append.mp he with he | he
      · exact hlog e he
      · rw [List.mem_singleton.mp he]
    refine h.update (Remembered.allowed ?_ ?_ (not_le.mp hfull) hsince)
      fun e he _ _ _ => ⟨call.now, by simp, hpast e he⟩
    all_goals cases hqueue : limiter.hits call.key with
      | none => simp
      | some queue => ?_
    · exact (h.remembered call.key queue hqueue).sorted.sublist (List.dropWhile_sublist _)
    · exact fun x hx => h.le_now hlog hqueue x ((List.dropWhile_sublist _).subset hx)

end Steps

theorem Memory.check {acc : SlidingWindowLimiter × CheckLog} {call : CheckCall}
    (h : Memory acc.1 acc.2) (hsweep : acc.1.lastSweep ≤ call.now)
    (hlog : ∀ e ∈ acc.2, e.1.now ≤ call.now) :
    Memory (checkCall acc call).1 (checkCall acc call).2 := by
  unfold checkCall
  rw [check_eq rfl]
  exact (h.maybeSweep hsweep).checkSwept (lastSweep_maybeSweep acc.1 hsweep).2.1 hlog rfl

theorem lastSweep_checkCall (acc : SlidingWindowLimiter × CheckLog) (call : CheckCall) :
    (checkCall acc call).1.lastSweep = (acc.1.maybeSweep call.now).lastSweep := by
  unfold checkCall
  rw [check_eq rfl]

/-- The clock of the calls starts when the limiter is built. -/
def Ordered (start : ℚ) (calls : List CheckCall) : Prop :=
  (start :: calls.map (·.now)).Pairwise (· ≤ ·)

theorem Ordered.snoc {start : ℚ} {calls : List CheckCall} {call : CheckCall}
    (h : Ordered start (calls ++ [call])) :
    Ordered start calls ∧ start ≤ call.now ∧ ∀ c ∈ calls, c.now ≤ call.now := by
  unfold Ordered at h
  rw [List.map_append, ← List.cons_append] at h
  obtain ⟨hcalls, -, hlast⟩ := List.pairwise_append.mp h
  refine ⟨hcalls, hlast start (by simp) call.now (by simp), fun c hc => ?_⟩
  exact hlast c.now (List.mem_cons_of_mem _ (List.mem_map_of_mem hc)) call.now (by simp)

theorem checkCalls_run {start : ℚ} {calls : List CheckCall} (h : Ordered start calls) {now : ℚ}
    (hstart : start ≤ now) (hnow : ∀ c ∈ calls, c.now ≤ now) :
    Memory (checkCalls start calls).1 (checkCalls start calls).2 ∧
      (checkCalls start calls).1.lastSweep ≤ now := by
  induction calls using List.reverseRecOn generalizing now with
  | nil => exact ⟨⟨by simp [checkCalls], by simp [checkCalls]⟩, hstart⟩
  | append_singleton calls call ih =>
    obtain ⟨hcalls, hfirst, hpast⟩ := h.snoc
    obtain ⟨hmemory, hsweep⟩ := ih hcalls hfirst hpast
    have hlog : ∀ e ∈ (checkCalls start calls).2, e.1.now ≤ call.now := by
      intro e he
      refine hpast e.1 ?_
      rw [← checkCalls_calls start calls]
      exact List.mem_map_of_mem he
    rw [checkCalls_snoc]
    refine ⟨hmemory.check hsweep hlog, ?_⟩
    rw [lastSweep_checkCall]
    exact (lastSweep_maybeSweep _ hsweep).2.1.trans (hnow call (by simp))

/-- After each call of a run: every stored key was hit within the widest window and one sweep
interval, and no key is forgotten while a hit of it still counts. -/
theorem checkCalls_memory {start : ℚ} {calls : List CheckCall} {call : CheckCall}
    (hrules : ∀ c ∈ calls ++ [call], c.rule ∈ rules.map Prod.snd)
    (htimes : Ordered start (calls ++ [call])) :
    let result := checkCalls start (calls ++ [call])
    (∀ key queue, result.1.hits key = some queue →
      Remembered result.2 (call.now - (widestWindow + sweepInterval)) key queue) ∧
    ∀ e ∈ result.2, e.2 → call.now < e.1.now + e.1.rule.windowSeconds →
      Stored result.1 e.1.key e.1.now := by
  obtain ⟨hcalls, hfirst, hpast⟩ := htimes.snoc
  have hsweep := (checkCalls_run hcalls hfirst hpast).2
  have hupto : ∀ c ∈ calls ++ [call], c.now ≤ call.now := by
    intro c hc
    rcases List.mem_append.mp hc with hc | hc
    · exact hpast c hc
    · rw [List.mem_singleton.mp hc]
  have hmemory := (checkCalls_run htimes hfirst hupto).1
  have hlast := lastSweep_checkCall (checkCalls start calls) call
  rw [← checkCalls_snoc] at hlast
  obtain ⟨-, hle, hlt⟩ := lastSweep_maybeSweep _ hsweep
  rw [← hlast] at hle hlt
  refine ⟨fun key queue hqueue => ?_, fun e he hallowed hinside => ?_⟩
  · obtain ⟨hsorted, hlimited, e, he, hallowed, hkey, hnewest, hsince⟩ :=
      hmemory.remembered key queue hqueue
    exact ⟨hsorted, hlimited, e, he, hallowed, hkey, hnewest, by linarith⟩
  · refine hmemory.stored e he hallowed ?_
    have hcall : e.1 ∈ calls ++ [call] := by
      rw [← checkCalls_calls start (calls ++ [call])]
      exact List.mem_map_of_mem he
    have hwindow : e.1.rule.windowSeconds ≤ widestWindow := by
      have hall : ∀ rule ∈ rules.map Prod.snd, rule.windowSeconds ≤ widestWindow := by decide
      exact hall e.1.rule (hrules e.1 hcall)
    have hwindow : (e.1.rule.windowSeconds : ℚ) ≤ widestWindow := by exact_mod_cast hwindow
    linarith

/-- Two calls on one key, the second as the sweep falls due. -/
theorem checkCalls_memory_swept :
    let calls : List CheckCall := [⟨"forgot_email:a", mailRule, 0⟩]
    let call : CheckCall := ⟨"forgot_email:a", mailRule, 600⟩
    let result := checkCalls 0 (calls ++ [call])
    (∀ key queue, result.1.hits key = some queue →
      Remembered result.2 (600 - (widestWindow + sweepInterval)) key queue) ∧
    ∀ e ∈ result.2, e.2 → 600 < e.1.now + e.1.rule.windowSeconds →
      Stored result.1 e.1.key e.1.now :=
  checkCalls_memory (by decide) (by unfold Ordered; norm_num)

end StockQuant
