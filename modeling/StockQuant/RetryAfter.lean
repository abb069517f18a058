import StockQuant.RateLimitWindow

/-! What a denied call is told to wait: no call before gets through, and the first one after
does. -/

namespace StockQuant

open SlidingWindow

section Check

variable {limiter : SlidingWindowLimiter} {key : String} {rule : Rule} {now : ℚ} {r : Int}

theorem check_eq_denied {counted : List ℚ}
    (hcounted : (((limiter.maybeSweep now).hits key).getD []).dropWhile
      (· ≤ now - rule.windowSeconds) = counted)
    (h : (limiter.check key rule now).2 = (false, r)) :
    ∃ first, counted.head? = some first ∧ rule.limit ≤ counted.length ∧
      r = max (truncate (first + rule.windowSeconds - now) + 1) 1 := by
  rw [check_eq hcounted] at h
  obtain ⟨hfull, hr⟩ := Prod.mk.inj h
  have hfull : rule.limit ≤ counted.length := not_lt.mp (of_decide_eq_false hfull)
  have hhead := List.head?_eq_some_head (List.ne_nil_of_length_pos (rule.limit_pos.trans_le hfull))
  rw [if_pos hfull, List.headD_eq_head?_getD, hhead] at hr
  exact ⟨_, hhead, hfull, hr.symm⟩

theorem truncate_bounds {x : ℚ} (hx : 0 < x) :
    0 ≤ truncate x ∧ (truncate x : ℚ) ≤ x ∧ x < truncate x + 1 := by
  unfold truncate
  rw [if_pos hx.le]
  exact ⟨Int.floor_nonneg.mpr hx.le, Int.floor_le x, Int.lt_floor_add_one x⟩

/-- The wait ends within the second after the oldest event has left the window. -/
theorem wait_bounds {first : ℚ} {window : ℕ} (hpast : first ≤ now) (hcounts : now < first + window)
    (hr : r = max (truncate (first + window - now) + 1) 1) :
    (1 ≤ r ∧ r ≤ window + 1) ∧ now + r - 1 ≤ first + window ∧ first + window < now + r := by
  obtain ⟨hnonneg, hle, hlt⟩ := truncate_bounds (show 0 < first + window - now by linarith)
  rw [max_eq_left (by omega)] at hr
  have hrq : (r : ℚ) = truncate (first + window - now) + 1 := by
    rw [hr]
    push_cast
    rfl
  have hwindow : truncate (first + window - now) ≤ window := by
    have : (truncate (first + window - now) : ℚ) ≤ window := by linarith
    exact_mod_cast this
  refine ⟨⟨by omega, by omega⟩, ?_, ?_⟩
  · linarith
  · linarith

end Check

section Calls

variable {lastSweep : ℚ} {calls : List EnforceCall} {bucket identifier : String} {rule : Rule}

theorem allowedTimes_past {now : ℚ} (hnow : ∀ call ∈ calls, call.now ≤ now) :
    ∀ x ∈ allowedTimes (enforceCalls { lastSweep } calls).2 bucket identifier, x ≤ now := by
  intro x hx
  obtain ⟨e, he, rfl⟩ := List.mem_map.mp hx
  refine hnow e.1 ?_
  rw [← enforceCalls_calls { lastSweep } calls]
  exact List.mem_map_of_mem (List.mem_of_mem_filter he)

theorem allowedTimes_sorted (lastSweep : ℚ) (bucket identifier : String)
    (hsorted : calls.Pairwise (fun a b => a.now ≤ b.now)) :
    (allowedTimes (enforceCalls { lastSweep } calls).2 bucket identifier).Pairwise (· ≤ ·) :=
  allowedTimes_pairwise (by rwa [enforceCalls_calls]) bucket identifier

theorem allowedTimes_call (call : EnforceCall) :
    allowedTimes (enforceCalls { lastSweep } (calls ++ [call])).2 bucket identifier =
      allowedTimes (enforceCalls { lastSweep } calls).2 bucket identifier ++
        if call.bucket = bucket ∧ call.identifier = identifier ∧
          nextRaised lastSweep calls call = none then [call.now] else [] := by
  rw [enforceCalls_snoc, enforceCall, allowedTimes_snoc]
  rfl

/-- The calls on a pair that were allowed never fill a window beyond the limit. -/
theorem enforceCalls_atMost (lastSweep : ℚ) (identifier : String)
    (hrule : rules.lookup bucket = some rule) (hsorted : calls.Pairwise (fun a b => a.now ≤ b.now)) :
    AtMost rule.limit (rule.windowSeconds : ℚ)
      (allowedTimes (enforceCalls { lastSweep } calls).2 bucket identifier) := by
  induction calls using List.reverseRecOn with
  | nil => exact atMost_nil
  | append_singleton calls call ih =>
    have ih := ih (List.pairwise_append.mp hsorted).1
    rw [allowedTimes_call]
    split_ifs with hallowed
    · obtain ⟨rfl, rfl, hnone⟩ := hallowed
      rw [enforceCalls_verdict lastSweep hsorted hrule, windowVerdict_eq_none_iff] at hnone
      exact ih.snoc hnone
    · rwa [List.append_nil]

/-- The calls that follow add to those that were allowed, and denied ones nothing. -/
theorem allowedTimes_append (lastSweep : ℚ) (bucket identifier : String)
    (calls later : List EnforceCall) :
    ∃ added, allowedTimes (enforceCalls { lastSweep } (calls ++ later)).2 bucket identifier =
        allowedTimes (enforceCalls { lastSweep } calls).2 bucket identifier ++ added ∧
      ((∀ before call after, later = before ++ call :: after → call.bucket = bucket →
        call.identifier = identifier → nextRaised lastSweep (calls ++ before) call ≠ none) →
        added = []) := by
  induction later using List.reverseRecOn with
  | nil => exact ⟨[], by simp, fun _ => rfl⟩
  | append_singleton later call ih =>
    obtain ⟨added, hadded, hdenied⟩ := ih
    rw [← List.append_assoc, allowedTimes_call, hadded, List.append_assoc]
    refine ⟨_, rfl, fun h => ?_⟩
    have hnil := hdenied fun before c after hlater => h before c (after ++ [call]) (by simp [hlater])
    rw [hnil, List.nil_append, if_neg]
    rintro ⟨hbucket, hidentifier, hnone⟩
    exact h later call [] (by simp) hbucket hidentifier hnone

/-- The queue of the pair, once it is pruned, has the allowed calls that still count. -/
theorem enforceCalls_pruned {call : EnforceCall}
    (hsorted : (calls ++ [call]).Pairwise (fun a b => a.now ≤ b.now))
    (hrule : rules.lookup call.bucket = some rule) :
    ((((enforceCalls { lastSweep } calls).1.maybeSweep call.now).hits
      (limitKey call.bucket call.identifier)).getD []).dropWhile
        (· ≤ call.now - rule.windowSeconds) =
      live (rule.windowSeconds : ℚ) call.now
        (allowedTimes (enforceCalls { lastSweep } calls).2 call.bucket call.identifier) := by
  obtain ⟨hpre, -, hlast⟩ := List.pairwise_append.mp hsorted
  have hcounts := enforceCalls_counts lastSweep hpre fun c hc => hlast c hc call (by simp)
  have hswept := hcounts.maybeSweep (by rwa [enforceCalls_calls])
  exact (hswept call.bucket call.identifier rule hrule).prune_eq_live (allowedTimes_sorted _ _ _ hpre)

/-- A call that is denied with `r` is told the truth: until `r - 1` seconds have passed no
call on the pair is allowed, and after `r` the next one is. -/
theorem retryAfter_honest (lastSweep : ℚ) {calls : List EnforceCall} {call : EnforceCall}
    {rule : Rule} {r : Int} (hsorted : (calls ++ [call]).Pairwise (fun a b => a.now ≤ b.now))
    (hrule : rules.lookup call.bucket = some rule)
    (hdenied : ((enforceCalls { lastSweep } calls).1.check
      (limitKey call.bucket call.identifier) rule call.now).2 = (false, r)) :
    nextRaised lastSweep calls call = some (tooManyRequests r) ∧
    (1 ≤ r ∧ r ≤ rule.windowSeconds + 1) ∧
    ∀ later call', (calls ++ call :: later ++ [call']).Pairwise (fun a b => a.now ≤ b.now) →
      call'.bucket = call.bucket → call'.identifier = call.identifier →
      (call'.now < call.now + r - 1 → nextRaised lastSweep (calls ++ call :: later) call' ≠ none) ∧
      (call.now + r ≤ call'.now →
        (∀ before c after, later = before ++ c :: after → c.bucket = call.bucket →
          c.identifier = call.identifier →
          nextRaised lastSweep (calls ++ call :: before) c ≠ none) →
        nextRaised lastSweep (calls ++ call :: later) call' = none) := by
  obtain ⟨hpre, -, hlast⟩ := List.pairwise_append.mp hsorted
  have hpast : ∀ c ∈ calls, c.now ≤ call.now := fun c hc => hlast c hc call (by simp)
  obtain ⟨first, hfirst, hfull, hr⟩ := check_eq_denied (enforceCalls_pruned hsorted hrule) hdenied
  have hverdict : nextRaised lastSweep calls call = some (tooManyRequests r) := by
    rw [enforceCalls_verdict lastSweep hsorted hrule, windowVerdict, if_pos hfull,
      List.headD_eq_head?_getD, hfirst, Option.getD_some, ← hr]
  -- The oldest call that counts is inside the window.
  obtain ⟨hallowed, hcounts⟩ := mem_live.mp (List.mem_of_mem_head? hfirst)
  obtain ⟨hbounds, hexpires, hexpired⟩ :=
    wait_bounds (allowedTimes_past hpast first hallowed) (by linarith) hr
  refine ⟨hverdict, hbounds, fun later call' hall hbucket hidentifier => ?_⟩
  have hsorted' := allowedTimes_sorted lastSweep call.bucket call.identifier hpre
  obtain ⟨added, hadded, hnone⟩ :=
    allowedTimes_append lastSweep call.bucket call.identifier calls (call :: later)
  rw [enforceCalls_verdict lastSweep hall (hbucket ▸ hrule), hbucket, hidentifier, hadded]
  constructor
  · intro hearly hverdict'
    rw [windowVerdict_eq_none_iff, live_append, List.length_append] at hverdict'
    have hkept := length_live_le hsorted' hfirst
      (show call'.now < first + rule.windowSeconds by linarith)
    omega
  · intro hlate hbetween
    have hnil : added = [] := by
      refine hnone fun before c after hsplit hb hi => ?_
      cases before with
      | nil =>
        obtain ⟨rfl, -⟩ := List.cons.inj hsplit
        rw [List.append_nil, hverdict]
        exact Option.some_ne_none _
      | cons d before =>
        obtain ⟨rfl, hrest⟩ := List.cons.inj hsplit
        exact hbetween before c after hrest hb hi
    have hdropped := length_live_lt hfirst
      (show first + rule.windowSeconds ≤ call'.now by linarith)
    have hroom := (enforceCalls_atMost lastSweep call.identifier hrule hpre).length_live_le
      (allowedTimes_past hpast)
    rw [hnil, List.append_nil, windowVerdict_eq_none_iff]
    omega

end Calls

/-- A fourth reset mail within the hour. -/
def fourthMail : List EnforceCall :=
  [⟨"forgot_email", "a", 0⟩, ⟨"forgot_email", "a", 5⟩, ⟨"forgot_email", "a", 10⟩]

theorem retryAfter_honest_mails :
    nextRaised 0 fourthMail nextMail = some (tooManyRequests 3581) ∧
    ((1 : Int) ≤ 3581 ∧ (3581 : Int) ≤ mailRule.windowSeconds + 1) ∧
    ∀ later call', (fourthMail ++ nextMail :: later ++ [call']).Pairwise
        (fun a b => a.now ≤ b.now) →
      call'.bucket = nextMail.bucket → call'.identifier = nextMail.identifier →
      (call'.now < nextMail.now + (3581 : Int) - 1 →
        nextRaised 0 (fourthMail ++ nextMail :: later) call' ≠ none) ∧
      (nextMail.now + (3581 : Int) ≤ call'.now →
        (∀ before c after, later = before ++ c :: after → c.bucket = nextMail.bucket →
          c.identifier = nextMail.identifier →
          nextRaised 0 (fourthMail ++ nextMail :: before) c ≠ none) →
        nextRaised 0 (fourthMail ++ nextMail :: later) call' = none) :=
  retryAfter_honest 0
    (show (fourthMail ++ [nextMail]).Pairwise (fun a b => a.now ≤ b.now) by decide +kernel)
    (show rules.lookup nextMail.bucket = some mailRule by decide)
    (by decide +kernel)

end StockQuant
