import StockQuant.AuthHandlers
import StockQuant.RateLimitWindow

/-! The two counters a login passes, over runs of logins from many clients. -/

namespace StockQuant

open SlidingWindow

variable {Tok : Type}

structure LoginAttempt where
  ctx : Context
  body : LoginRequest

def LoginAttempt.ip (a : LoginAttempt) : String := clientIp a.ctx.request

def LoginAttempt.email (env : Env Tok) (a : LoginAttempt) : String :=
  normalizeEmail env.lower a.body.email

def runLogins (env : Env Tok) (app : App) (attempts : List LoginAttempt) : App :=
  attempts.foldl (fun app a => (login env a.ctx a.body app).1) app

def TooManyRequests {α : Type} (result : Except Failure α) : Prop :=
  ∃ exception, result = .error (.http exception) ∧ exception.statusCode = 429

theorem enforce_statusCode {enabled : Bool} {limiter : SlidingWindowLimiter}
    {bucket identifier : String} {now : ℚ} {exception : HTTPException}
    (h : (enforce enabled limiter bucket identifier now).2 = some exception) :
    exception.statusCode = 429 := by
  unfold enforce at h
  split_ifs at h
  cases hrule : rules.lookup bucket with
  | none => simp [hrule] at h
  | some rule =>
    simp only [hrule] at h
    split at h
    · simp at h
    · cases Option.some.inj h
      rfl

def loginLimits (env : Env Tok) (a : LoginAttempt) (limiter : SlidingWindowLimiter) :
    SlidingWindowLimiter × Option HTTPException :=
  match enforce env.rateLimitEnabled limiter "login_ip" a.ip a.ctx.clock with
  | (limiter, some exception) => (limiter, some exception)
  | (limiter, none) =>
    enforce env.rateLimitEnabled limiter "login_email" (a.email env) a.ctx.clock

theorem login_spec (env : Env Tok) (a : LoginAttempt) (app : App) :
    (login env a.ctx a.body app).1 =
        { app with limiter := (loginLimits env a app.limiter).1 } ∧
      (TooManyRequests (login env a.ctx a.body app).2 ↔
        (loginLimits env a app.limiter).2 ≠ none) := by
  have hip : app.enforce env a.ctx "login_ip" (clientIp a.ctx.request) =
      ({ app with limiter := (enforce env.rateLimitEnabled app.limiter "login_ip" a.ip
          a.ctx.clock).1 },
        (enforce env.rateLimitEnabled app.limiter "login_ip" a.ip a.ctx.clock).2) := rfl
  unfold login loginUser loginLimits
  dsimp only
  rw [hip]
  cases h₁ : enforce env.rateLimitEnabled app.limiter "login_ip" a.ip a.ctx.clock with
  | mk limiter raised =>
    cases raised with
    | some exception =>
      have hcode := enforce_statusCode (congrArg Prod.snd h₁)
      exact ⟨rfl, by simpa [TooManyRequests] using hcode⟩
    | none =>
      have hemail : App.enforce env a.ctx { app with limiter } "login_email"
          (normalizeEmail env.lower a.body.email) =
          ({ app with limiter := (enforce env.rateLimitEnabled limiter "login_email"
              (a.email env) a.ctx.clock).1 },
            (enforce env.rateLimitEnabled limiter "login_email" (a.email env) a.ctx.clock).2) :=
        rfl
      dsimp only
      rw [hemail]
      cases h₂ : enforce env.rateLimitEnabled limiter "login_email" (a.email env) a.ctx.clock with
      | mk limiter raised =>
        cases raised with
        | some exception =>
          have hcode := enforce_statusCode (congrArg Prod.snd h₂)
          exact ⟨rfl, by simpa [TooManyRequests] using hcode⟩
        | none =>
          dsimp only
          cases getUserByEmail env.lower app.db (normalizeEmail env.lower a.body.email) with
          | none => simp [TooManyRequests, invalidLogin]
          | some user =>
            rcases hverify : env.verifyPassword a.body.password user.passwordHash with
              _ | _ | _ <;> simp [hverify, TooManyRequests, invalidLogin]

def loginRule : Rule := (rules.lookup "login_ip").get (by decide)

theorem lookup_login_ip : rules.lookup "login_ip" = some loginRule := by decide

theorem lookup_login_email : rules.lookup "login_email" = some loginRule := by decide

def fromIp (env : Env Tok) (attempts : List LoginAttempt) (ip : String) : List (ℚ × String) :=
  (attempts.filter (·.ip = ip)).map fun a => (a.ctx.clock, a.email env)

def admittedFrom (env : Env Tok) (attempts : List LoginAttempt) (ip : String) : List (ℚ × String) :=
  admitted loginRule.limit (loginRule.windowSeconds : ℚ) (fromIp env attempts ip)

theorem admittedFrom_snoc (env : Env Tok) (attempts : List LoginAttempt) (a : LoginAttempt)
    (ip : String) :
    admittedFrom env (attempts ++ [a]) ip =
      if a.ip = ip then letIn loginRule.limit (loginRule.windowSeconds : ℚ)
        (admittedFrom env attempts ip) (a.ctx.clock, a.email env)
      else admittedFrom env attempts ip := by
  unfold admittedFrom fromIp
  by_cases h : a.ip = ip
  · simp [List.filter_append, h, admitted_snoc]
  · simp [List.filter_append, h]

def LoginAttempt.ipCall (a : LoginAttempt) : EnforceCall := ⟨"login_ip", a.ip, a.ctx.clock⟩

def LoginAttempt.emailCall (env : Env Tok) (a : LoginAttempt) : EnforceCall :=
  ⟨"login_email", a.email env, a.ctx.clock⟩

/-- The counters of a run in which all attempts that name `address` come from the
client `source`. -/
structure LoginCounts (env : Env Tok) (source address : String) (attempts : List LoginAttempt)
    (limiter : SlidingWindowLimiter) (log : EnforceLog) (now : ℚ) : Prop where
  counts : Counts limiter log now
  sorted : (log.map Prod.fst).Pairwise (fun a b => a.now ≤ b.now)
  past : ∀ call ∈ log.map Prod.fst, call.now ≤ now
  byIp : ∀ ip, allowedTimes log "login_ip" ip = (admittedFrom env attempts ip).map Prod.fst
  byEmail : allowedTimes log "login_email" address =
    ((admittedFrom env attempts source).filter (·.2 = address)).map Prod.fst

theorem LoginCounts.mono {env : Env Tok} {source address : String} {attempts : List LoginAttempt}
    {limiter : SlidingWindowLimiter} {log : EnforceLog} {now now' : ℚ}
    (h : LoginCounts env source address attempts limiter log now) (hle : now ≤ now') :
    LoginCounts env source address attempts limiter log now' :=
  { h with
    counts := h.counts.mono hle
    past := fun call hcall => (h.past call hcall).trans hle }

theorem sorted_snoc {log : EnforceLog} (call : EnforceCall) (raised : Option HTTPException)
    (hsorted : (log.map Prod.fst).Pairwise (fun a b => a.now ≤ b.now))
    (hpast : ∀ c ∈ log.map Prod.fst, c.now ≤ call.now) :
    ((log ++ [(call, raised)]).map Prod.fst).Pairwise (fun a b => a.now ≤ b.now) := by
  rw [List.map_append, List.map_singleton, List.pairwise_append]
  refine ⟨hsorted, by simp, fun c hc d hd => ?_⟩
  obtain rfl := List.mem_singleton.mp hd
  exact hpast c hc

theorem past_snoc {log : EnforceLog} (call : EnforceCall) (raised : Option HTTPException)
    (hpast : ∀ c ∈ log.map Prod.fst, c.now ≤ call.now) :
    ∀ c ∈ (log ++ [(call, raised)]).map Prod.fst, c.now ≤ call.now := by
  intro c hc
  rw [List.map_append, List.map_singleton] at hc
  rcases List.mem_append.mp hc with hc | hc
  · exact hpast c hc
  · rw [List.mem_singleton.mp hc]

section Step

variable {env : Env Tok} {source address : String} {attempts : List LoginAttempt}
  {limiter limiter' : SlidingWindowLimiter} {log : EnforceLog} {a : LoginAttempt}

/-- A login that the client's counter stops. -/
theorem LoginCounts.stopped {exception : HTTPException}
    (h : LoginCounts env source address attempts limiter log a.ctx.clock)
    (hfull : ¬ (live (loginRule.windowSeconds : ℚ) a.ctx.clock
      ((admittedFrom env attempts a.ip).map Prod.fst)).length < loginRule.limit)
    (hcounts : Counts limiter' (log ++ [(a.ipCall, some exception)]) a.ctx.clock) :
    LoginCounts env source address (attempts ++ [a]) limiter' (log ++ [(a.ipCall, some exception)])
      a.ctx.clock := by
  refine ⟨hcounts, sorted_snoc a.ipCall _ h.sorted h.past, past_snoc a.ipCall _ h.past,
    fun ip => ?_, ?_⟩
  · rw [allowedTimes_snoc, admittedFrom_snoc, h.byIp ip]
    by_cases hip : a.ip = ip
    · subst hip
      simp [letIn, hfull]
    · simp [hip]
  · rw [allowedTimes_snoc, admittedFrom_snoc, h.byEmail]
    by_cases hip : a.ip = source
    · subst hip
      simp [letIn, hfull]
    · simp [hip]

/-- A login that the client's counter lets pass. -/
theorem LoginCounts.passed {raised : Option HTTPException}
    (h : LoginCounts env source address attempts limiter log a.ctx.clock)
    (hsource : a.email env = address → a.ip = source)
    (hroom : (live (loginRule.windowSeconds : ℚ) a.ctx.clock
      ((admittedFrom env attempts a.ip).map Prod.fst)).length < loginRule.limit)
    (hpass : a.email env = address → raised = none)
    (hcounts : Counts limiter' (log ++ [(a.ipCall, none)] ++ [(a.emailCall env, raised)])
      a.ctx.clock) :
    LoginCounts env source address (attempts ++ [a]) limiter'
      (log ++ [(a.ipCall, none)] ++ [(a.emailCall env, raised)]) a.ctx.clock := by
  have hsorted := sorted_snoc a.ipCall none h.sorted h.past
  have hpast := past_snoc a.ipCall none h.past
  refine ⟨hcounts, sorted_snoc (a.emailCall env) raised hsorted hpast,
    past_snoc (a.emailCall env) raised hpast, fun ip => ?_, ?_⟩
  · rw [allowedTimes_snoc, allowedTimes_snoc, admittedFrom_snoc, h.byIp ip]
    by_cases hip : a.ip = ip
    · subst hip
      simp [letIn, hroom, LoginAttempt.ipCall, LoginAttempt.emailCall]
    · simp [hip, LoginAttempt.ipCall, LoginAttempt.emailCall]
  · rw [allowedTimes_snoc, allowedTimes_snoc, admittedFrom_snoc, h.byEmail]
    by_cases he : a.email env = address
    · obtain rfl := hsource he
      simp [letIn, hroom, he, hpass he, LoginAttempt.ipCall, LoginAttempt.emailCall]
    · by_cases hip : a.ip = source
      · subst hip
        simp [letIn, hroom, he, LoginAttempt.ipCall, LoginAttempt.emailCall]
      · simp [hip, he, LoginAttempt.ipCall, LoginAttempt.emailCall]

/-- What one login does to the counters. Both have one limit and one window, so an
attempt that the client's counter lets pass is never stopped by the address's. -/
theorem LoginCounts.step (henabled : env.rateLimitEnabled = true)
    (h : LoginCounts env source address attempts limiter log a.ctx.clock)
    (hsource : a.email env = address → a.ip = source) :
    ∃ log', LoginCounts env source address (attempts ++ [a]) (loginLimits env a limiter).1 log'
      a.ctx.clock := by
  have hfirst := Counts.ruledCall (c := a.ipCall) h.counts h.sorted lookup_login_ip
  unfold loginLimits
  rw [henabled]
  rcases h₁ : enforce true limiter "login_ip" a.ip a.ctx.clock with ⟨limiter₁, raised₁⟩
  simp only [LoginAttempt.ipCall, h₁, h.byIp a.ip] at hfirst
  obtain ⟨hraised₁, hcounts₁⟩ := hfirst
  cases raised₁ with
  | some exception =>
    have hfull : ¬ (live (loginRule.windowSeconds : ℚ) a.ctx.clock
        ((admittedFrom env attempts a.ip).map Prod.fst)).length < loginRule.limit := by
      rw [← windowVerdict_eq_none_iff, ← hraised₁]
      simp
    exact ⟨_, h.stopped hfull hcounts₁⟩
  | none =>
    have hroom := windowVerdict_eq_none_iff.mp hraised₁.symm
    have hsecond := Counts.ruledCall (c := a.emailCall env) hcounts₁
      (sorted_snoc a.ipCall none h.sorted h.past) lookup_login_email
    rcases h₂ : enforce true limiter₁ "login_email" (a.email env) a.ctx.clock with
      ⟨limiter₂, raised₂⟩
    simp only [LoginAttempt.emailCall, h₂] at hsecond
    obtain ⟨hraised₂, hcounts₂⟩ := hsecond
    have hpass (he : a.email env = address) : raised₂ = none := by
      obtain rfl := hsource he
      rw [hraised₂, windowVerdict_eq_none_iff, he, allowedTimes_snoc, if_neg (by simp),
        List.append_nil, h.byEmail]
      refine lt_of_le_of_lt ?_ hroom
      simp only [length_live_map_fst]
      exact List.filter_sublist.countP_le
    dsimp only
    rw [h₂]
    exact ⟨_, h.passed hsource hroom hpass hcounts₂⟩

end Step

theorem runLogins_snoc (env : Env Tok) (app : App) (attempts : List LoginAttempt) (a : LoginAttempt) :
    (runLogins env app (attempts ++ [a])).limiter =
      (loginLimits env a (runLogins env app attempts).limiter).1 := by
  rw [runLogins, List.foldl_append, List.foldl_cons, List.foldl_nil, (login_spec env a _).1]
  rfl

theorem runLogins_counts {env : Env Tok} (henabled : env.rateLimitEnabled = true) {app : App}
    {lastSweep : ℚ} (hfresh : app.limiter = { lastSweep }) {attempts : List LoginAttempt}
    (hsorted : attempts.Pairwise (fun a b => a.ctx.clock ≤ b.ctx.clock)) {source address : String}
    (hsource : ∀ a ∈ attempts, a.email env = address → a.ip = source) {now : ℚ}
    (hnow : ∀ a ∈ attempts, a.ctx.clock ≤ now) :
    ∃ log, LoginCounts env source address attempts (runLogins env app attempts).limiter log
      now := by
  induction attempts using List.reverseRecOn generalizing now with
  | nil =>
    refine ⟨[], fun bucket identifier rule _ => ?_, by simp, by simp, fun ip => rfl, rfl⟩
    simpa [runLogins, hfresh, allowedTimes] using tracks_nil
  | append_singleton attempts a ih =>
    obtain ⟨hpre, _, hlast⟩ := List.pairwise_append.mp hsorted
    obtain ⟨log, hlog⟩ := ih hpre (fun b hb => hsource b (by simp [hb]))
      fun b hb => hlast b hb a (by simp)
    obtain ⟨log', hlog'⟩ := hlog.step henabled (hsource a (by simp))
    rw [runLogins_snoc]
    exact ⟨log', hlog'.mono (hnow a (by simp))⟩

theorem loginLimits_disabled {env : Env Tok} (henabled : env.rateLimitEnabled = false)
    (a : LoginAttempt) (limiter : SlidingWindowLimiter) : (loginLimits env a limiter).2 = none := by
  simp [loginLimits, enforce, henabled]

theorem LoginCounts.raised_iff {env : Env Tok} (henabled : env.rateLimitEnabled = true)
    {source : String} {attempts : List LoginAttempt} {limiter : SlidingWindowLimiter}
    {log : EnforceLog} {a : LoginAttempt}
    (h : LoginCounts env source (a.email env) attempts limiter log a.ctx.clock)
    (hroom : (admittedFrom env attempts a.ip).countP
      (fun e => a.ctx.clock - loginRule.windowSeconds < e.1) < loginRule.limit) :
    (loginLimits env a limiter).2 = none ↔
      (admittedFrom env attempts source).countP (fun e =>
        e.2 = a.email env ∧ a.ctx.clock - loginRule.windowSeconds < e.1) < loginRule.limit := by
  have hfirst := Counts.ruledCall (c := a.ipCall) h.counts h.sorted lookup_login_ip
  unfold loginLimits
  rw [henabled]
  rcases h₁ : enforce true limiter "login_ip" a.ip a.ctx.clock with ⟨limiter₁, raised₁⟩
  simp only [LoginAttempt.ipCall, h₁, h.byIp a.ip] at hfirst
  obtain ⟨hraised₁, hcounts₁⟩ := hfirst
  obtain rfl : raised₁ = none := by
    rw [hraised₁, windowVerdict_eq_none_iff, length_live_map_fst]
    exact hroom
  have hsecond := Counts.ruledCall (c := a.emailCall env) hcounts₁
    (sorted_snoc a.ipCall none h.sorted h.past) lookup_login_email
  dsimp only [LoginAttempt.emailCall] at hsecond ⊢
  rw [hsecond.1, windowVerdict_eq_none_iff, allowedTimes_snoc, if_neg (by simp), List.append_nil,
    h.byEmail, length_live_map_fst, List.countP_filter]
  simp only [Bool.decide_and, Bool.and_comm]

/-- All attempts that named the address came from one client. Another client with
room in its own counter is stopped exactly when ten attempts naming the address,
out of those the first client's counter let pass, are in the window. -/
theorem login_tooManyRequests_iff {env : Env Tok} {app : App} {lastSweep : ℚ}
    (hfresh : app.limiter = { lastSweep }) {attempts : List LoginAttempt} {a : LoginAttempt}
    (hsorted : (attempts ++ [a]).Pairwise (fun a b => a.ctx.clock ≤ b.ctx.clock))
    {source : String} (hsource : ∀ b ∈ attempts, b.email env = a.email env → b.ip = source)
    (hown : attempts.countP (fun b =>
      b.ip = a.ip ∧ a.ctx.clock - loginRule.windowSeconds < b.ctx.clock) < loginRule.limit) :
    ¬ TooManyRequests (login env a.ctx a.body (runLogins env app attempts)).2 ↔
      env.rateLimitEnabled = false ∨
        (admittedFrom env attempts source).countP (fun e =>
          e.2 = a.email env ∧ a.ctx.clock - loginRule.windowSeconds < e.1) < loginRule.limit := by
  rw [(login_spec env a _).2, not_not]
  cases henabled : env.rateLimitEnabled with
  | false => simp [loginLimits_disabled henabled]
  | true =>
    obtain ⟨hpre, _, hlast⟩ := List.pairwise_append.mp hsorted
    obtain ⟨log, hlog⟩ := runLogins_counts henabled hfresh hpre hsource
      fun b hb => hlast b hb a (by simp)
    have hroom : (admittedFrom env attempts a.ip).countP
        (fun e => a.ctx.clock - loginRule.windowSeconds < e.1) < loginRule.limit := by
      refine lt_of_le_of_lt ((admitted_sublist _).countP_le) (lt_of_eq_of_lt ?_ hown)
      rw [fromIp, List.countP_map, List.countP_filter]
      simp [and_comm]
    simp [hlog.raised_iff henabled hroom]

def signIn (ip : String) (clock : ℚ) : LoginAttempt where
  ctx := { plainContext clock with request := { clientHost := some ip } }
  body := { email := "owner@example.com", password := "secret", password_length := by decide }

def attackerSignIns : List LoginAttempt :=
  (List.range 10).map fun k => signIn "203.0.113.1" k

def ownerSignIn : LoginAttempt := signIn "198.51.100.2" 10

theorem login_tooManyRequests_iff_owner :
    ¬ TooManyRequests (login plainEnv ownerSignIn.ctx ownerSignIn.body
        (runLogins plainEnv freshApp attackerSignIns)).2 ↔
      plainEnv.rateLimitEnabled = false ∨
        (admittedFrom plainEnv attackerSignIns "203.0.113.1").countP (fun e =>
          e.2 = ownerSignIn.email plainEnv ∧
            ownerSignIn.ctx.clock - loginRule.windowSeconds < e.1) < loginRule.limit :=
  login_tooManyRequests_iff (show freshApp.limiter = { lastSweep := 0 } from rfl)
    (show (attackerSignIns ++ [ownerSignIn]).Pairwise (fun a b => a.ctx.clock ≤ b.ctx.clock) by
      decide +kernel)
    (by decide +kernel) (by decide +kernel)

theorem login_owner_locked_out :
    (∀ b ∈ attackerSignIns, b.ip = "203.0.113.1" ∧ b.ip ≠ ownerSignIn.ip) ∧
      TooManyRequests (login plainEnv ownerSignIn.ctx ownerSignIn.body
        (runLogins plainEnv freshApp attackerSignIns)).2 := by
  rw [(login_spec plainEnv ownerSignIn _).2]
  decide +kernel

end StockQuant
