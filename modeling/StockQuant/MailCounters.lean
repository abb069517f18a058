import StockQuant.LoginLimits
import StockQuant.MailedTokens

/-! What a request that mails has paid for at the counters. -/

namespace StockQuant

open KeyedTable SlidingWindow

variable {Tok : Type}

/-- The counters after the calls of a log. -/
structure Limited (limiter : SlidingWindowLimiter) (log : EnforceLog) (now : ℚ) : Prop where
  counts : Counts limiter log now
  sorted : (log.map Prod.fst).Pairwise (fun a b => a.now ≤ b.now)
  past : ∀ call ∈ log.map Prod.fst, call.now ≤ now
  atMost : ∀ bucket identifier rule, rules.lookup bucket = some rule →
    AtMost rule.limit (rule.windowSeconds : ℚ) (allowedTimes log bucket identifier)

def Grows (log log' : EnforceLog) : Prop :=
  ∀ bucket identifier, (allowedTimes log bucket identifier).Sublist
    (allowedTimes log' bucket identifier)

/-- One more call on the pair was allowed at that time. -/
def Charged (log log' : EnforceLog) (bucket identifier : String) (now : ℚ) : Prop :=
  (allowedTimes log bucket identifier ++ [now]).Sublist (allowedTimes log' bucket identifier)

theorem Grows.refl (log : EnforceLog) : Grows log log := fun _ _ => List.Sublist.refl _

theorem Grows.trans {log log' log'' : EnforceLog} (h : Grows log log') (h' : Grows log' log'') :
    Grows log log'' := fun bucket identifier => (h bucket identifier).trans (h' bucket identifier)

theorem Grows.charged {log log' log'' : EnforceLog} {bucket identifier : String} {now : ℚ}
    (h : Grows log log') (h' : Charged log' log'' bucket identifier now) :
    Charged log log'' bucket identifier now :=
  ((h bucket identifier).append (List.Sublist.refl _)).trans h'

section Enforce

variable {limiter : SlidingWindowLimiter} {log : EnforceLog}

theorem Limited.mono {now now' : ℚ} (h : Limited limiter log now) (hle : now ≤ now') :
    Limited limiter log now' :=
  { h with
    counts := h.counts.mono hle
    past := fun call hcall => (h.past call hcall).trans hle }

theorem Limited.call {call : EnforceCall} (h : Limited limiter log call.now) :
    Limited (enforce true limiter call.bucket call.identifier call.now).1
      (log ++ [(call, (enforce true limiter call.bucket call.identifier call.now).2)]) call.now := by
  refine
    { counts := ?_
      sorted := sorted_snoc call _ h.sorted h.past
      past := past_snoc call _ h.past
      atMost := fun bucket identifier rule hrule => ?_ }
  · cases hrule : rules.lookup call.bucket with
    | none => exact h.counts.unruledCall hrule
    | some rule => exact (h.counts.ruledCall h.sorted hrule).2
  · rw [allowedTimes_snoc]
    split_ifs with hpair
    · obtain ⟨rfl, rfl, hnone⟩ := hpair
      have hverdict := (h.counts.ruledCall h.sorted hrule).1
      rw [hnone] at hverdict
      exact (h.atMost _ _ rule hrule).snoc (windowVerdict_eq_none_iff.mp hverdict.symm)
    · rw [List.append_nil]
      exact h.atMost bucket identifier rule hrule

variable {env : Env Tok} {ctx : Context} {app app' : App} {bucket identifier : String}
  {raised : Option HTTPException}

theorem Limited.enforce (henabled : env.rateLimitEnabled = true)
    (h : Limited app.limiter log ctx.clock)
    (hlimit : app.enforce env ctx bucket identifier = (app', raised)) :
    ∃ log', Limited app'.limiter log' ctx.clock ∧ Grows log log' ∧
      (raised = none → Charged log log' bucket identifier ctx.clock) := by
  have hcall : Limited _ (log ++ [(⟨bucket, identifier, ctx.clock⟩, _)]) _ := h.call
  unfold App.enforce at hlimit
  rw [henabled] at hlimit
  obtain ⟨rfl, rfl⟩ := Prod.mk.inj hlimit
  refine ⟨_, hcall, fun bucket' identifier' => ?_, fun hnone => ?_⟩
  · rw [allowedTimes_snoc]
    exact List.sublist_append_left _ _
  · unfold Charged
    rw [allowedTimes_snoc, if_pos ⟨rfl, rfl, hnone⟩]

end Enforce

def accountsOf (db : Accounts) : List (Uuid × String) :=
  db.users.rows.map fun user => (user.id, user.email)

theorem accountsOf_mapUsers {db : Accounts} {f : User → User} (hid : ∀ u, (f u).id = u.id)
    (hemail : ∀ u, (f u).email = u.email) : accountsOf (db.mapUsers f hid hemail) = accountsOf db := by
  simp [accountsOf, Accounts.mapUsers, hid, hemail]

theorem mem_accountsOf {db : Accounts} {user : User} (h : user ∈ db.users.rows) :
    (user.id, user.email) ∈ accountsOf db := List.mem_map.mpr ⟨user, h, rfl⟩

theorem accountsOf_unique {db : Accounts} {id id' : Uuid} {email : String}
    (h : (id, email) ∈ accountsOf db) (h' : (id', email) ∈ accountsOf db) : id = id' := by
  obtain ⟨user, huser, heq⟩ := List.mem_map.mp h
  obtain ⟨user', huser', heq'⟩ := List.mem_map.mp h'
  obtain ⟨rfl, rfl⟩ := Prod.mk.inj heq
  obtain ⟨rfl, hemail⟩ := Prod.mk.inj heq'
  rw [Accounts.eq_of_email huser huser' hemail.symm]

theorem accountsOf_markEmailVerified (db : Accounts) (user : User) (now : ℚ) :
    accountsOf (markEmailVerified db user now) = accountsOf db := by
  unfold markEmailVerified
  split_ifs
  · exact accountsOf_mapUsers _ _
  · rfl

theorem accountsOf_setPassword (db : Accounts) (user : User) (passwordHash : String) (now : ℚ) :
    accountsOf (setPassword db user passwordHash now) = accountsOf db := by
  unfold setPassword Accounts.writePassword
  exact accountsOf_mapUsers _ _

theorem accountsOf_issueEmailToken (env : Env Tok) (ctx : Context) (db : Accounts) (user : User)
    (purpose : Purpose) (minutes : Int) :
    accountsOf (issueEmailToken env ctx db user purpose minutes).1 = accountsOf db := by
  unfold accountsOf
  rw [issueEmailToken_users]

/-- The accounts stay, and one that is added has a new address as the service spells it. -/
structure AccountsKept (env : Env Tok) (db db' : Accounts) : Prop where
  kept : ∀ account ∈ accountsOf db, account ∈ accountsOf db'
  added : ∀ account ∈ accountsOf db', account ∈ accountsOf db ∨
    (∀ id, (id, account.2) ∉ accountsOf db) ∧ ∃ email, account.2 = normalizeEmail env.lower email

theorem AccountsKept.of_eq {env : Env Tok} {db db' : Accounts} (h : accountsOf db' = accountsOf db) :
    AccountsKept env db db' := ⟨fun _ ha => h ▸ ha, fun _ ha => Or.inl (h ▸ ha)⟩

def repliedMails : Except Failure (Reply Tok) → List Mail
  | .ok reply => reply.mails
  | .error _ => []

theorem repliedMails_map {α : Type} {f : α → Reply Tok} (hf : ∀ a, (f a).mails = [])
    (result : Except Failure α) : repliedMails (result.map f) = [] := by
  cases result with
  | error failure => rfl
  | ok a => exact hf a

/-- What a call queues, and the counter that it has passed for it. -/
inductive Sent (env : Env Tok) (ctx : Context) (db db' : Accounts) (log log' : EnforceLog) :
    AuthCall Tok → List Mail → Prop where
  | none (call : AuthCall Tok) : Sent env ctx db db' log log' call []
  | reset (body : ForgotPasswordRequest) (mail : Mail)
      (hrecipient : mail.recipient =
        normalizeEmail env.lower (normalizeEmail env.lower body.email))
      (hcharged : Charged log log' "forgot_email" (normalizeEmail env.lower body.email) ctx.clock) :
    Sent env ctx db db' log log' (.forgotPassword body) [mail]
  | resent (credentials : Option Tok) (mail : Mail) (id : Uuid)
      (haccount : (id, mail.recipient) ∈ accountsOf db)
      (hcharged : Charged log log' "resend_user" (toString id) ctx.clock) :
    Sent env ctx db db' log log' (.resendVerification credentials) [mail]
  | registered (body : RegisterRequest) (mail : Mail) (id : Uuid)
      (hnew : ∀ id, (id, mail.recipient) ∉ accountsOf db)
      (haccount : (id, mail.recipient) ∈ accountsOf db') :
    Sent env ctx db db' log log' (.register body) [mail]

/-- A request as the counters and the accounts see it. -/
structure Metered (env : Env Tok) (ctx : Context) (app app' : App) (log log' : EnforceLog)
    (call : AuthCall Tok) (mails : List Mail) : Prop where
  limited : Limited app'.limiter log' ctx.clock
  grows : Grows log log'
  accounts : AccountsKept env app.db app'.db
  sent : Sent env ctx app.db app'.db log log' call mails

section Metered

variable {env : Env Tok} {ctx : Context} {app app' : App} {log log' : EnforceLog}

theorem Metered.quiet (hlimited : Limited app'.limiter log' ctx.clock) (hgrows : Grows log log')
    (haccounts : accountsOf app'.db = accountsOf app.db) (call : AuthCall Tok) :
    Metered env ctx app app' log log' call [] :=
  ⟨hlimited, hgrows, .of_eq haccounts, .none call⟩

theorem accountsOf_insertUser {db db' : Accounts} {user : User} (h : db.insertUser user = some db') :
    accountsOf db' = (user.id, user.email) :: accountsOf db ∧
      ∀ id, (id, user.email) ∉ accountsOf db := by
  obtain ⟨-, hrows, -⟩ := insertUser_eq_some h
  constructor
  · simp [accountsOf, hrows]
  · intro id hmem
    obtain ⟨other, hother, heq⟩ := List.mem_map.mp hmem
    have hnodup := db'.emails_nodup
    rw [hrows, List.map_cons, List.nodup_cons] at hnodup
    exact hnodup.1 (List.mem_map.mpr ⟨other, hother, (Prod.mk.inj heq).2⟩)

theorem forgotPassword_metered (henabled : env.rateLimitEnabled = true)
    (h : Limited app.limiter log ctx.clock) (body : ForgotPasswordRequest) :
    ∃ log', Metered env ctx app (answer env ctx app (.forgotPassword body)).1 log log'
      (.forgotPassword body) (repliedMails (answer env ctx app (.forgotPassword body)).2) := by
  unfold answer forgotPassword
  dsimp only
  rcases hip : app.enforce env ctx "forgot_ip" (clientIp ctx.request) with ⟨app₁, _ | exception⟩
  · obtain ⟨log₁, hlimited₁, hgrows₁, -⟩ := h.enforce henabled hip
    dsimp only
    rcases hemail : app₁.enforce env ctx "forgot_email" (normalizeEmail env.lower body.email) with
      ⟨app₂, _ | exception⟩
    · obtain ⟨log₂, hlimited₂, hgrows₂, hcharged⟩ := hlimited₁.enforce henabled hemail
      have hdb : app₂.db = app.db :=
        (enforce_db env ctx app₁ hemail).trans (enforce_db env ctx app hip)
      dsimp only
      cases huser : getUserByEmail env.lower app₂.db (normalizeEmail env.lower body.email) with
      | none =>
        exact ⟨log₂, .quiet hlimited₂ (hgrows₁.trans hgrows₂) (congrArg accountsOf hdb) _⟩
      | some user =>
        have haccounts := accountsOf_issueEmailToken env ctx app₂.db user .passwordReset
          env.passwordResetTtlMinutes
        dsimp only
        rcases hissue : issueEmailToken env ctx app₂.db user .passwordReset
          env.passwordResetTtlMinutes with ⟨db₂, _ | mail⟩
        · rw [hissue, hdb] at haccounts
          exact ⟨log₂, hlimited₂, hgrows₁.trans hgrows₂, .of_eq haccounts, .none _⟩
        · rw [hissue, hdb] at haccounts
          have hfound : user.email = normalizeEmail env.lower (normalizeEmail env.lower body.email) :=
            by simpa using List.find?_some huser
          exact ⟨log₂, hlimited₂, hgrows₁.trans hgrows₂, .of_eq haccounts,
            .reset body mail ((congrArg Mail.recipient (issueEmailToken_mail hissue)).trans hfound)
              (hgrows₁.charged (hcharged rfl))⟩
    · obtain ⟨log₂, hlimited₂, hgrows₂, -⟩ := hlimited₁.enforce henabled hemail
      have hdb : app₂.db = app.db :=
        (enforce_db env ctx app₁ hemail).trans (enforce_db env ctx app hip)
      exact ⟨log₂, .quiet hlimited₂ (hgrows₁.trans hgrows₂) (congrArg accountsOf hdb) _⟩
  · obtain ⟨log₁, hlimited₁, hgrows₁, -⟩ := h.enforce henabled hip
    exact ⟨log₁, .quiet hlimited₁ hgrows₁ (congrArg accountsOf (enforce_db env ctx app hip)) _⟩

theorem resendVerification_metered (henabled : env.rateLimitEnabled = true)
    (h : Limited app.limiter log ctx.clock) (credentials : Option Tok) :
    ∃ log', Metered env ctx app (answer env ctx app (.resendVerification credentials)).1 log log'
      (.resendVerification credentials)
      (repliedMails (answer env ctx app (.resendVerification credentials)).2) := by
  unfold answer resendVerification
  dsimp only
  cases hcurrent : getCurrentUser env app.db credentials ctx.now with
  | error exception => exact ⟨log, .quiet h (Grows.refl log) rfl _⟩
  | ok user =>
    have hmem := getCurrentUser_mem hcurrent
    dsimp only
    rcases hlimit : app.enforce env ctx "resend_user" (toString user.id) with ⟨app₁, _ | exception⟩
    · obtain ⟨log₁, hlimited, hgrows, hcharged⟩ := h.enforce henabled hlimit
      have hdb := enforce_db env ctx app hlimit
      dsimp only
      split_ifs
      · exact ⟨log₁, .quiet hlimited hgrows (congrArg accountsOf hdb) _⟩
      · have haccounts := accountsOf_issueEmailToken env ctx app₁.db user .verifyEmail
          env.emailVerifyTtlMinutes
        unfold issueVerificationEmail
        rcases hissue : issueEmailToken env ctx app₁.db user .verifyEmail
          env.emailVerifyTtlMinutes with ⟨db₁, _ | mail⟩
        · rw [hissue, hdb] at haccounts
          exact ⟨log₁, hlimited, hgrows, .of_eq haccounts, .none _⟩
        · rw [hissue, hdb] at haccounts
          refine ⟨log₁, hlimited, hgrows, .of_eq haccounts, .resent credentials mail user.id ?_ ?_⟩
          · rw [issueEmailToken_mail hissue]
            exact mem_accountsOf hmem
          · exact hcharged rfl
    · obtain ⟨log₁, hlimited, hgrows, -⟩ := h.enforce henabled hlimit
      exact ⟨log₁, .quiet hlimited hgrows (congrArg accountsOf (enforce_db env ctx app hlimit)) _⟩

theorem accountsKept_insertUser {db db₁ db₂ : Accounts} {user : User} {email : String}
    (hinsert : db.insertUser user = some db₁) (hsame : accountsOf db₂ = accountsOf db₁)
    (hemail : user.email = normalizeEmail env.lower email) : AccountsKept env db db₂ := by
  obtain ⟨haccounts, hnew⟩ := accountsOf_insertUser hinsert
  rw [haccounts] at hsame
  constructor
  · intro account haccount
    rw [hsame]
    exact List.mem_cons_of_mem _ haccount
  · intro account haccount
    rw [hsame] at haccount
    rcases List.mem_cons.mp haccount with rfl | haccount
    · exact Or.inr ⟨hnew, email, hemail⟩
    · exact Or.inl haccount

theorem register_metered (henabled : env.rateLimitEnabled = true)
    (h : Limited app.limiter log ctx.clock) (body : RegisterRequest) :
    ∃ log', Metered env ctx app (answer env ctx app (.register body)).1 log log'
      (.register body) (repliedMails (answer env ctx app (.register body)).2) := by
  unfold answer register
  dsimp only
  rcases hlimit : app.enforce env ctx "register_ip" (clientIp ctx.request) with ⟨app₁, _ | exception⟩
  · obtain ⟨log₁, hlimited, hgrows, -⟩ := h.enforce henabled hlimit
    have hdb := enforce_db env ctx app hlimit
    dsimp only
    split_ifs
    · exact ⟨log₁, .quiet hlimited hgrows (congrArg accountsOf hdb) _⟩
    cases env.hashPassword body.password ctx.salt with
    | none => exact ⟨log₁, .quiet hlimited hgrows (congrArg accountsOf hdb) _⟩
    | some passwordHash =>
      dsimp only
      cases hcreate : createUser env.lower app₁.db ctx.userId (normalizeEmail env.lower body.email)
        passwordHash body.displayName ctx.now with
      | none => exact ⟨log₁, .quiet hlimited hgrows (congrArg accountsOf hdb) _⟩
      | some created =>
        obtain ⟨user, db₁⟩ := created
        obtain ⟨hinsert, -⟩ := createUser_eq_some hcreate
        have hemail : user.email = normalizeEmail env.lower (normalizeEmail env.lower body.email) := by
          rw [createUser_user hcreate]
        have hsame := accountsOf_issueEmailToken env ctx db₁ user .verifyEmail
          env.emailVerifyTtlMinutes
        obtain ⟨haccounts, hnew⟩ := accountsOf_insertUser hinsert
        dsimp only
        unfold issueVerificationEmail
        rcases hissue : issueEmailToken env ctx db₁ user .verifyEmail env.emailVerifyTtlMinutes with
          ⟨db₂, _ | mail⟩
        · rw [hissue] at hsame
          exact ⟨log₁, hlimited, hgrows, hdb ▸ accountsKept_insertUser hinsert hsame hemail, .none _⟩
        · rw [hissue] at hsame
          rw [hdb] at hnew hinsert
          refine ⟨log₁, hlimited, hgrows, accountsKept_insertUser hinsert hsame hemail,
            .registered body mail user.id ?_ ?_⟩
          · rw [issueEmailToken_mail hissue]
            exact hnew
          · rw [issueEmailToken_mail hissue]
            exact hsame ▸ haccounts ▸ List.mem_cons_self
  · obtain ⟨log₁, hlimited, hgrows, -⟩ := h.enforce henabled hlimit
    exact ⟨log₁, .quiet hlimited hgrows (congrArg accountsOf (enforce_db env ctx app hlimit)) _⟩

theorem accountsOf_of_effect {db db' : Accounts} {call : AuthCall Tok}
    {result : Except Failure (Reply Tok)} (h : Effect env ctx db call db' result)
    (hcall : ∀ body, call ≠ .register body) : accountsOf db' = accountsOf db := by
  cases h with
  | failed | nothing => rfl
  | issued => exact accountsOf_issueEmailToken _ _ _ _ _ _
  | registered body => exact absurd rfl (hcall body)
  | verified => exact accountsOf_markEmailVerified _ _ _
  | burned => rfl
  | reset => exact (accountsOf_markEmailVerified _ _ _).trans (accountsOf_setPassword _ _ _ _)

theorem checkLogin_metered (henabled : env.rateLimitEnabled = true)
    (h : Limited app.limiter log ctx.clock) (body : LoginRequest) :
    ∃ log', Metered env ctx app (answer env ctx app (.checkLogin body)).1 log log'
      (.checkLogin body) (repliedMails (answer env ctx app (.checkLogin body)).2) := by
  have hmails : repliedMails (answer env ctx app (.checkLogin body)).2 = [] :=
    repliedMails_map (fun _ => rfl) _
  have haccounts := accountsOf_of_effect (answer_effect env ctx app (.checkLogin body))
    fun _ heq => by cases heq
  rw [hmails]
  suffices ∃ log', Limited (loginUser env ctx body app).1.limiter log' ctx.clock ∧ Grows log log' by
    obtain ⟨log', hlimited, hgrows⟩ := this
    exact ⟨log', .quiet hlimited hgrows haccounts _⟩
  unfold loginUser
  rcases hip : app.enforce env ctx "login_ip" (clientIp ctx.request) with ⟨app₁, _ | exception⟩
  · obtain ⟨log₁, hlimited₁, hgrows₁, -⟩ := h.enforce henabled hip
    dsimp only
    rcases hemail : app₁.enforce env ctx "login_email" (normalizeEmail env.lower body.email) with
      ⟨app₂, _ | exception⟩
    · obtain ⟨log₂, hlimited₂, hgrows₂, -⟩ := hlimited₁.enforce henabled hemail
      refine ⟨log₂, ?_, hgrows₁.trans hgrows₂⟩
      dsimp only
      split <;> [skip; split] <;> exact hlimited₂
    · obtain ⟨log₂, hlimited₂, hgrows₂, -⟩ := hlimited₁.enforce henabled hemail
      exact ⟨log₂, hlimited₂, hgrows₁.trans hgrows₂⟩
  · obtain ⟨log₁, hlimited₁, hgrows₁, -⟩ := h.enforce henabled hip
    exact ⟨log₁, hlimited₁, hgrows₁⟩

theorem verifyEmail_limiter (body : VerifyEmailRequest) :
    (verifyEmail env ctx body app).1.limiter = app.limiter := by
  unfold verifyEmail
  split
  · rfl
  · split
    · rfl
    · dsimp only
      split <;> rfl

theorem resetPassword_limiter (body : ResetPasswordRequest) :
    (resetPassword env ctx body app).1.limiter = app.limiter := by
  unfold resetPassword
  split
  · rfl
  · split
    · rfl
    · dsimp only
      split
      · rfl
      · split <;> rfl

/-- Whatever is called, the counters and the accounts allow for what is queued. -/
theorem answer_metered (henabled : env.rateLimitEnabled = true)
    (h : Limited app.limiter log ctx.clock) (call : AuthCall Tok) :
    ∃ log', Metered env ctx app (answer env ctx app call).1 log log' call
      (repliedMails (answer env ctx app call).2) := by
  have hquiet (hlimiter : (answer env ctx app call).1.limiter = app.limiter)
      (hmails : repliedMails (answer env ctx app call).2 = [])
      (hcall : ∀ body, call ≠ .register body) :
      ∃ log', Metered env ctx app (answer env ctx app call).1 log log' call
        (repliedMails (answer env ctx app call).2) := by
    rw [hmails]
    exact ⟨log, .quiet (hlimiter ▸ h) (Grows.refl log)
      (accountsOf_of_effect (answer_effect env ctx app call) hcall) _⟩
  cases call with
  | register body => exact register_metered henabled h body
  | checkLogin body => exact checkLogin_metered henabled h body
  | resendVerification credentials => exact resendVerification_metered henabled h credentials
  | forgotPassword body => exact forgotPassword_metered henabled h body
  | answerLogin k => exact hquiet rfl rfl fun _ heq => by cases heq
  | verifyEmail body =>
    exact hquiet (verifyEmail_limiter body) (repliedMails_map (fun _ => rfl) _)
      fun _ heq => by cases heq
  | resetPassword body =>
    exact hquiet (resetPassword_limiter body) (repliedMails_map (fun _ => rfl) _)
      fun _ heq => by cases heq
  | me credentials =>
    exact hquiet rfl (repliedMails_map (fun _ => rfl) _) fun _ heq => by cases heq

end Metered

end StockQuant
