import StockQuant.RateLimit
import StockQuant.SlidingWindow

/-! Every decision of the limiter is that of a plain sliding window over the calls
of one bucket and identifier. -/

namespace StockQuant

open SlidingWindow

structure EnforceCall where
  bucket : String
  identifier : String
  now : ℚ
  deriving DecidableEq

abbrev EnforceLog := List (EnforceCall × Option HTTPException)

def enforceCall (acc : SlidingWindowLimiter × EnforceLog) (call : EnforceCall) :
    SlidingWindowLimiter × EnforceLog :=
  let result := enforce true acc.1 call.bucket call.identifier call.now
  (result.1, acc.2 ++ [(call, result.2)])

def enforceCalls (limiter : SlidingWindowLimiter) (calls : List EnforceCall) :
    SlidingWindowLimiter × EnforceLog :=
  calls.foldl enforceCall (limiter, [])

theorem enforceCalls_snoc (limiter : SlidingWindowLimiter) (calls : List EnforceCall)
    (call : EnforceCall) :
    enforceCalls limiter (calls ++ [call]) = enforceCall (enforceCalls limiter calls) call := by
  simp [enforceCalls]

theorem enforceCalls_calls (limiter : SlidingWindowLimiter) (calls : List EnforceCall) :
    (enforceCalls limiter calls).2.map Prod.fst = calls := by
  induction calls using List.reverseRecOn with
  | nil => rfl
  | append_singleton calls call ih => simp [enforceCalls_snoc, enforceCall, ih]

def allowedTimes (log : EnforceLog) (bucket identifier : String) : List ℚ :=
  (log.filter fun e => e.1.bucket = bucket ∧ e.1.identifier = identifier ∧ e.2 = none).map
    (·.1.now)

theorem allowedTimes_snoc (log : EnforceLog) (call : EnforceCall) (raised : Option HTTPException)
    (bucket identifier : String) :
    allowedTimes (log ++ [(call, raised)]) bucket identifier =
      allowedTimes log bucket identifier ++
        if call.bucket = bucket ∧ call.identifier = identifier ∧ raised = none then [call.now]
        else [] := by
  unfold allowedTimes
  rw [List.filter_append, List.map_append]
  by_cases h : call.bucket = bucket ∧ call.identifier = identifier ∧ raised = none <;> simp [h]

theorem allowedTimes_pairwise {log : EnforceLog}
    (h : (log.map Prod.fst).Pairwise (fun a b => a.now ≤ b.now)) (bucket identifier : String) :
    (allowedTimes log bucket identifier).Pairwise (· ≤ ·) := by
  unfold allowedTimes
  rw [List.pairwise_map] at h ⊢
  exact h.sublist List.filter_sublist

theorem append_colon_inj {b b' i i' : List Char} (hb : ':' ∉ b) (hb' : ':' ∉ b')
    (h : b ++ ':' :: i = b' ++ ':' :: i') : b = b' ∧ i = i' := by
  have htake (l r : List Char) (hl : ':' ∉ l) :
      (l ++ ':' :: r).takeWhile (· ≠ ':') = l := by
    rw [List.takeWhile_append_of_pos fun c hc => by
      simpa using fun he : c = ':' => hl (he ▸ hc)]
    simp
  have hbb : b = b' := by rw [← htake b i hb, h, htake b' i' hb']
  subst hbb
  simpa using h

theorem limitKey_inj {bucket bucket' identifier identifier' : String} {rule rule' : Rule}
    (hb : rules.lookup bucket = some rule) (hb' : rules.lookup bucket' = some rule')
    (h : limitKey bucket identifier = limitKey bucket' identifier') :
    bucket = bucket' ∧ identifier = identifier' := by
  have hcolon {b : String} {r : Rule} (hb : rules.lookup b = some r) : ':' ∉ b.toList := by
    obtain ⟨l₁, l₂, hl, _⟩ := List.lookup_eq_some_iff.mp hb
    have hall : ∀ p ∈ rules, ':' ∉ p.1.toList := by decide
    exact hall (b, r) (by simp [hl])
  have hlist := congrArg String.toList h
  simp only [limitKey, String.toList_append, List.append_assoc] at hlist
  obtain ⟨h₁, h₂⟩ := append_colon_inj (hcolon hb) (hcolon hb') hlist
  exact ⟨String.toList_injective h₁, String.toList_injective h₂⟩

/-- Each queue holds the allowed calls on its pair, less some that count no
longer. -/
def Counts (limiter : SlidingWindowLimiter) (log : EnforceLog) (now : ℚ) : Prop :=
  ∀ bucket identifier rule, rules.lookup bucket = some rule →
    Tracks (rule.windowSeconds : ℚ) now (allowedTimes log bucket identifier)
      ((limiter.hits (limitKey bucket identifier)).getD [])

theorem windowSeconds_le_widest {bucket : String} {rule : Rule}
    (h : rules.lookup bucket = some rule) : rule.windowSeconds ≤ widestWindow := by
  obtain ⟨l₁, l₂, hl, _⟩ := List.lookup_eq_some_iff.mp h
  have hall : ∀ p ∈ rules, p.2.windowSeconds ≤ widestWindow := by decide
  exact hall (bucket, rule) (by simp [hl])

/-- The sweep, which knows the widest window only, drops no hit that counts. -/
theorem Counts.maybeSweep {limiter : SlidingWindowLimiter} {log : EnforceLog} {now : ℚ}
    (h : Counts limiter log now)
    (hsorted : (log.map Prod.fst).Pairwise (fun a b => a.now ≤ b.now)) :
    Counts (limiter.maybeSweep now) log now := by
  intro bucket identifier rule hrule
  have htracks := h bucket identifier rule hrule
  unfold SlidingWindowLimiter.maybeSweep
  split_ifs with hsoon
  · exact htracks
  · cases hq : limiter.hits (limitKey bucket identifier) with
    | none => simpa [hq] using htracks
    | some queue =>
      rw [hq, Option.getD_some] at htracks
      by_cases hd : drained (now - widestWindow) queue
      · have hclear := htracks.clear (allowedTimes_pairwise hsorted bucket identifier)
          fun x hx => by
            have hx : x ≤ now - widestWindow := by simpa [drained, hx] using hd
            have hw : (rule.windowSeconds : ℚ) ≤ widestWindow := by
              exact_mod_cast windowSeconds_le_widest hrule
            linarith
        simpa [Option.filter, hq, hd] using hclear
      · simpa [Option.filter, hq, hd] using htracks

def windowVerdict (rule : Rule) (now : ℚ) (counted : List ℚ) : Option HTTPException :=
  if rule.limit ≤ counted.length then
    some (tooManyRequests (max (truncate (counted.headD 0 + rule.windowSeconds - now) + 1) 1))
  else none

theorem windowVerdict_eq_none_iff {rule : Rule} {now : ℚ} {counted : List ℚ} :
    windowVerdict rule now counted = none ↔ counted.length < rule.limit := by
  simp [windowVerdict]

/-- A check in terms of the queue as it is once the sweep and the pruning are done. -/
theorem check_eq {limiter : SlidingWindowLimiter} {key : String} {rule : Rule} {now : ℚ}
    {counted : List ℚ}
    (hcounted : (((limiter.maybeSweep now).hits key).getD []).dropWhile
      (· ≤ now - rule.windowSeconds) = counted) :
    limiter.check key rule now =
      ({ limiter.maybeSweep now with
          hits := Function.update (limiter.maybeSweep now).hits key
            (some (if rule.limit ≤ counted.length then counted else counted ++ [now])) },
        decide (counted.length < rule.limit),
        if rule.limit ≤ counted.length then
          max (truncate (counted.headD 0 + rule.windowSeconds - now) + 1) 1
        else 0) := by
  subst hcounted
  unfold SlidingWindowLimiter.check
  dsimp only
  split_ifs with h
  · simp [List.headD_eq_head?_getD, List.head?_eq_some_head
      (List.ne_nil_of_length_pos (rule.limit_pos.trans_le h)), h]
  · simp [not_le.mp h]

theorem enforce_eq {limiter : SlidingWindowLimiter} {bucket identifier : String} {now : ℚ}
    {rule : Rule} {counted : List ℚ} (hrule : rules.lookup bucket = some rule)
    (hcounted : (((limiter.maybeSweep now).hits (limitKey bucket identifier)).getD []).dropWhile
      (· ≤ now - rule.windowSeconds) = counted) :
    enforce true limiter bucket identifier now =
      ({ limiter.maybeSweep now with
          hits := Function.update (limiter.maybeSweep now).hits (limitKey bucket identifier)
            (some (if rule.limit ≤ counted.length then counted else counted ++ [now])) },
        windowVerdict rule now counted) := by
  unfold enforce windowVerdict
  rw [if_neg (by decide)]
  simp only [hrule, check_eq hcounted]
  by_cases h : rule.limit ≤ counted.length
  · simp [h, not_lt.mpr h]
  · simp [h, not_le.mp h]

theorem Counts.update {limiter : SlidingWindowLimiter} {log : EnforceLog} {call : EnforceCall}
    {raised : Option HTTPException} {rule : Rule} {queue : List ℚ}
    (h : Counts limiter log call.now) (hrule : rules.lookup call.bucket = some rule)
    (htracks : Tracks (rule.windowSeconds : ℚ) call.now
      (allowedTimes (log ++ [(call, raised)]) call.bucket call.identifier) queue) :
    Counts { limiter with
        hits := Function.update limiter.hits (limitKey call.bucket call.identifier) (some queue) }
      (log ++ [(call, raised)]) call.now := by
  intro bucket identifier rule' hrule'
  by_cases hkey : limitKey bucket identifier = limitKey call.bucket call.identifier
  · obtain ⟨rfl, rfl⟩ := limitKey_inj hrule' hrule hkey
    obtain rfl : rule = rule' := Option.some.inj (hrule.symm.trans hrule')
    simpa using htracks
  · have hne : ¬ (call.bucket = bucket ∧ call.identifier = identifier ∧ raised = none) := by
      rintro ⟨rfl, rfl, _⟩
      exact hkey rfl
    rw [allowedTimes_snoc, if_neg hne, List.append_nil]
    simpa [Function.update_of_ne hkey] using h bucket identifier rule' hrule'

theorem Counts.mono {limiter : SlidingWindowLimiter} {log : EnforceLog} {now now' : ℚ}
    (h : Counts limiter log now) (hle : now ≤ now') : Counts limiter log now' :=
  fun bucket identifier rule hrule => (h bucket identifier rule hrule).mono hle

/-- One call is answered as by the plain window, and the queues count on. -/
theorem Counts.ruledCall {limiter : SlidingWindowLimiter} {log : EnforceLog} {c : EnforceCall}
    {rule : Rule} (h : Counts limiter log c.now)
    (hsorted : (log.map Prod.fst).Pairwise (fun a b => a.now ≤ b.now))
    (hrule : rules.lookup c.bucket = some rule) :
    let result := enforce true limiter c.bucket c.identifier c.now
    result.2 = windowVerdict rule c.now (live (rule.windowSeconds : ℚ) c.now
        (allowedTimes log c.bucket c.identifier)) ∧
      Counts result.1 (log ++ [(c, result.2)]) c.now := by
  have hswept := h.maybeSweep hsorted
  have hown := hswept c.bucket c.identifier rule hrule
  have hlive := hown.prune_eq_live (allowedTimes_pairwise hsorted _ _)
  have hpruned := hown.prune
  rw [hlive] at hpruned
  rw [enforce_eq hrule hlive]
  refine ⟨rfl, hswept.update hrule ?_⟩
  rw [allowedTimes_snoc]
  by_cases hfull : rule.limit ≤ (live (rule.windowSeconds : ℚ) c.now
      (allowedTimes log c.bucket c.identifier)).length
  · simpa [windowVerdict, hfull] using hpruned
  · simpa [windowVerdict, hfull] using hpruned.snoc c.now

theorem Counts.unruledCall {limiter : SlidingWindowLimiter} {log : EnforceLog}
    {call : EnforceCall} (h : Counts limiter log call.now)
    (hrule : rules.lookup call.bucket = none) :
    let result := enforce true limiter call.bucket call.identifier call.now
    Counts result.1 (log ++ [(call, result.2)]) call.now := by
  have hresult : enforce true limiter call.bucket call.identifier call.now =
      (limiter, none) := by simp [enforce, hrule]
  have hcounts : Counts limiter (log ++ [(call, none)]) call.now := by
    intro bucket identifier rule hrule'
    rw [allowedTimes_snoc, if_neg, List.append_nil]
    · exact h bucket identifier rule hrule'
    · rintro ⟨rfl, _⟩
      simp [hrule] at hrule'
  rw [hresult]
  exact hcounts

theorem enforceCalls_counts (lastSweep : ℚ) {calls : List EnforceCall}
    (hsorted : calls.Pairwise (fun a b => a.now ≤ b.now)) {now : ℚ}
    (hnow : ∀ call ∈ calls, call.now ≤ now) :
    Counts (enforceCalls { lastSweep } calls).1 (enforceCalls { lastSweep } calls).2 now := by
  induction calls using List.reverseRecOn generalizing now with
  | nil =>
    intro bucket identifier rule _
    simpa [enforceCalls, allowedTimes] using tracks_nil
  | append_singleton calls call ih =>
    obtain ⟨hpre, _, hlast⟩ := List.pairwise_append.mp hsorted
    have hcounts := ih hpre fun c hc => hlast c hc call (by simp)
    have hlog : ((enforceCalls { lastSweep } calls).2.map Prod.fst).Pairwise
        (fun a b => a.now ≤ b.now) := by rwa [enforceCalls_calls]
    rw [enforceCalls_snoc]
    refine Counts.mono ?_ (hnow call (by simp))
    cases hrule : rules.lookup call.bucket with
    | none => exact hcounts.unruledCall hrule
    | some rule => exact (hcounts.ruledCall hlog hrule).2

def nextRaised (lastSweep : ℚ) (calls : List EnforceCall) (call : EnforceCall) :
    Option HTTPException :=
  (enforce true (enforceCalls { lastSweep } calls).1 call.bucket call.identifier call.now).2

theorem enforceCalls_verdict (lastSweep : ℚ) {calls : List EnforceCall} {call : EnforceCall}
    {rule : Rule} (hsorted : (calls ++ [call]).Pairwise (fun a b => a.now ≤ b.now))
    (hrule : rules.lookup call.bucket = some rule) :
    nextRaised lastSweep calls call =
      windowVerdict rule call.now (live (rule.windowSeconds : ℚ) call.now
        (allowedTimes (enforceCalls { lastSweep } calls).2 call.bucket call.identifier)) := by
  obtain ⟨hpre, _, hlast⟩ := List.pairwise_append.mp hsorted
  have hcounts := enforceCalls_counts lastSweep hpre fun c hc => hlast c hc call (by simp)
  exact (hcounts.ruledCall (by rwa [enforceCalls_calls]) hrule).1

def onPair (bucket identifier : String) (call : EnforceCall) : Bool :=
  call.bucket = bucket ∧ call.identifier = identifier

theorem allowedTimes_filter (lastSweep : ℚ) {bucket : String} {rule : Rule}
    (hrule : rules.lookup bucket = some rule) (identifier : String) {calls : List EnforceCall}
    (hsorted : calls.Pairwise (fun a b => a.now ≤ b.now)) :
    allowedTimes (enforceCalls { lastSweep } (calls.filter (onPair bucket identifier))).2
        bucket identifier =
      allowedTimes (enforceCalls { lastSweep } calls).2 bucket identifier := by
  induction calls using List.reverseRecOn with
  | nil => rfl
  | append_singleton calls call ih =>
    have ih := ih (List.pairwise_append.mp hsorted).1
    rw [List.filter_append, enforceCalls_snoc, enforceCall, allowedTimes_snoc]
    by_cases hpair : onPair bucket identifier call
    · have hown : call.bucket = bucket ∧ call.identifier = identifier := by
        simpa [onPair] using hpair
      obtain ⟨rfl, rfl⟩ := hown
      have hsub : (calls.filter (onPair call.bucket call.identifier) ++ [call]).Sublist
          (calls ++ [call]) := List.filter_sublist.append (List.Sublist.refl _)
      rw [List.filter_singleton, hpair, cond_true, enforceCalls_snoc, enforceCall,
        allowedTimes_snoc, ih]
      have hverdict := enforceCalls_verdict lastSweep hsorted hrule
      rw [← ih, ← enforceCalls_verdict lastSweep (hsorted.sublist hsub) hrule] at hverdict
      unfold nextRaised at hverdict
      rw [hverdict]
    · have hne : ¬ (call.bucket = bucket ∧ call.identifier = identifier) := by
        simpa [onPair] using hpair
      rw [if_neg fun h => hne ⟨h.1, h.2.1⟩, List.append_nil, ← ih]
      simp [hpair]

/-- A call is allowed exactly when fewer calls on its pair than the limit were
allowed in the window that ends with it, and it is answered as if only the calls
on its pair had been made. -/
theorem enforce_window (lastSweep : ℚ) {calls : List EnforceCall} {call : EnforceCall}
    {rule : Rule} (hsorted : (calls ++ [call]).Pairwise (fun a b => a.now ≤ b.now))
    (hrule : rules.lookup call.bucket = some rule) :
    (nextRaised lastSweep calls call = none ↔
      (enforceCalls { lastSweep } calls).2.countP (fun e =>
        e.1.bucket = call.bucket ∧ e.1.identifier = call.identifier ∧ e.2 = none ∧
          call.now - rule.windowSeconds < e.1.now ∧ e.1.now ≤ call.now) < rule.limit) ∧
      nextRaised lastSweep calls call =
        nextRaised lastSweep (calls.filter (onPair call.bucket call.identifier)) call := by
  have hsub : (calls.filter (onPair call.bucket call.identifier) ++ [call]).Sublist
      (calls ++ [call]) := List.filter_sublist.append (List.Sublist.refl _)
  have hverdict := enforceCalls_verdict lastSweep hsorted hrule
  constructor
  · have hpast : ∀ e ∈ (enforceCalls { lastSweep } calls).2, e.1.now ≤ call.now := by
      intro e he
      refine (List.pairwise_append.mp hsorted).2.2 e.1 ?_ call (by simp)
      rw [← enforceCalls_calls { lastSweep } calls]
      exact List.mem_map.mpr ⟨e, he, rfl⟩
    have hcount : (live (rule.windowSeconds : ℚ) call.now
        (allowedTimes (enforceCalls { lastSweep } calls).2 call.bucket call.identifier)).length =
        (enforceCalls { lastSweep } calls).2.countP (fun e =>
          e.1.bucket = call.bucket ∧ e.1.identifier = call.identifier ∧ e.2 = none ∧
            call.now - rule.windowSeconds < e.1.now ∧ e.1.now ≤ call.now) := by
      rw [live, ← List.countP_eq_length_filter, allowedTimes, List.countP_map, List.countP_filter]
      refine List.countP_congr fun e he => ?_
      simp only [Function.comp_apply, Bool.and_eq_true, decide_eq_true_eq]
      have hle := hpast e he
      tauto
    rw [← hcount, ← windowVerdict_eq_none_iff, ← hverdict]
  · have hown := enforceCalls_verdict lastSweep (hsorted.sublist hsub) hrule
    rw [allowedTimes_filter lastSweep hrule _ (List.pairwise_append.mp hsorted).1] at hown
    exact hverdict.trans hown.symm

/-- Reset mails for one address around one for another. -/
def firstMails : List EnforceCall :=
  [⟨"forgot_email", "a", 0⟩, ⟨"forgot_email", "b", 5⟩, ⟨"forgot_email", "a", 10⟩]

def nextMail : EnforceCall := ⟨"forgot_email", "a", 20⟩

def mailRule : Rule := (rules.lookup "forgot_email").get (by decide)

theorem enforce_window_mails :
    (nextRaised 0 firstMails nextMail = none ↔
      (enforceCalls { lastSweep := 0 } firstMails).2.countP (fun e =>
        e.1.bucket = nextMail.bucket ∧ e.1.identifier = nextMail.identifier ∧ e.2 = none ∧
          nextMail.now - mailRule.windowSeconds < e.1.now ∧ e.1.now ≤ nextMail.now) <
            mailRule.limit) ∧
      nextRaised 0 firstMails nextMail =
        nextRaised 0 (firstMails.filter (onPair nextMail.bucket nextMail.identifier)) nextMail :=
  enforce_window 0
    (show (firstMails ++ [nextMail]).Pairwise (fun a b => a.now ≤ b.now) by decide +kernel)
    (show rules.lookup nextMail.bucket = some mailRule by decide)

end StockQuant
