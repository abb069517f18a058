import StockQuant.AuthRuns
import StockQuant.TokenVersions

/-! What a request can do to the tables, case by case. -/

namespace StockQuant

open KeyedTable

variable {Tok : Type}

def ttlMinutes (env : Env Tok) : Purpose → Int
  | .verifyEmail => env.emailVerifyTtlMinutes
  | .passwordReset => env.passwordResetTtlMinutes

def mailed (response : Option (AuthResponse Tok)) : Option Mail → Except Failure (Reply Tok)
  | none => .error .crash
  | some mail => .ok { response, mails := [mail] }

inductive Effect (env : Env Tok) (ctx : Context) (db : Accounts) :
    AuthCall Tok → Accounts → Except Failure (Reply Tok) → Prop where
  | failed (call : AuthCall Tok) (failure : Failure)
      (hunusable : ∀ purpose raw, call.presents = some (purpose, raw) →
        getUsableEmailToken db purpose (env.hashEmailToken raw) ctx.now = none) :
    Effect env ctx db call db (.error failure)
  | nothing (call : AuthCall Tok) (hcall : call.presents = none) :
    Effect env ctx db call db (.ok {})
  | issued (call : AuthCall Tok) (hcall : call.presents = none) (user : User)
      (huser : user ∈ db.users.rows) (purpose : Purpose) :
    Effect env ctx db call (issueEmailToken env ctx db user purpose (ttlMinutes env purpose)).1
      (mailed none (issueEmailToken env ctx db user purpose (ttlMinutes env purpose)).2)
  | registered (body : RegisterRequest) (user : User) (db₁ : Accounts)
      (hinsert : db.insertUser user = some db₁) (hversion : user.tokenVersion = 0) :
    Effect env ctx db (.register body)
      (issueEmailToken env ctx db₁ user .verifyEmail (ttlMinutes env .verifyEmail)).1
      (mailed (some { token := tokenFor env ctx user, user := userOut user })
        (issueEmailToken env ctx db₁ user .verifyEmail (ttlMinutes env .verifyEmail)).2)
  | verified (body : VerifyEmailRequest) (token : EmailToken) (user : User)
      (husable : getUsableEmailToken db .verifyEmail (env.hashEmailToken body.token) ctx.now =
        some token)
      (huser : db.users.get? token.userId = some user) :
    Effect env ctx db (.verifyEmail body)
      (markEmailVerified (consumeEmailToken db token ctx.now) user ctx.now) (.ok {})
  | burned (body : ResetPasswordRequest) (token : EmailToken) (user : User)
      (husable : getUsableEmailToken db .passwordReset (env.hashEmailToken body.token) ctx.now =
        some token)
      (huser : db.users.get? token.userId = some user)
      (hhash : env.hashPassword body.password ctx.salt = none) :
    Effect env ctx db (.resetPassword body)
      (invalidateEmailTokens (consumeEmailToken db token ctx.now) user.id .passwordReset ctx.now)
      (.error .crash)
  | reset (body : ResetPasswordRequest) (token : EmailToken) (user row : User)
      (passwordHash : String)
      (husable : getUsableEmailToken db .passwordReset (env.hashEmailToken body.token) ctx.now =
        some token)
      (huser : db.users.get? token.userId = some user)
      (hrow : (markEmailVerified (setPassword
        (invalidateEmailTokens (consumeEmailToken db token ctx.now) user.id .passwordReset ctx.now)
        user passwordHash ctx.now) user ctx.now).users.get? user.id = some row) :
    Effect env ctx db (.resetPassword body)
      (markEmailVerified (setPassword
        (invalidateEmailTokens (consumeEmailToken db token ctx.now) user.id .passwordReset ctx.now)
        user passwordHash ctx.now) user ctx.now)
      (.ok { response := some { token := tokenFor env ctx row, user := userOut row } })

theorem createUser_eq_some {lower : String → String} {db db' : Accounts} {id : Uuid}
    {email passwordHash : String} {displayName : Option String} {now : ℚ} {user : User}
    (h : createUser lower db id email passwordHash displayName now = some (user, db')) :
    db.insertUser user = some db' ∧ user.tokenVersion = 0 := by
  obtain ⟨db₁, hinsert, heq⟩ := Option.map_eq_some_iff.mp h
  cases heq
  exact ⟨hinsert, rfl⟩

theorem createUser_user {lower : String → String} {db db' : Accounts} {id : Uuid}
    {email passwordHash : String} {displayName : Option String} {now : ℚ} {user : User}
    (h : createUser lower db id email passwordHash displayName now = some (user, db')) :
    user = { id, email := normalizeEmail lower email, passwordHash, displayName,
             passwordChangedAt := now } := by
  obtain ⟨db₁, -, heq⟩ := Option.map_eq_some_iff.mp h
  exact (Prod.mk.inj heq).1.symm

theorem markEmailVerified_get? {db : Accounts} {user : User} (now : ℚ)
    (h : (db.users.get? user.id).isSome) :
    ((markEmailVerified db user now).users.get? user.id).isSome := by
  unfold markEmailVerified Accounts.writeVerified Accounts.mapUsers
  split_ifs
  · rw [Table.get?_map]
    simpa using h
  · exact h

theorem getCurrentUser_mem {env : Env Tok} {db : Accounts} {credentials : Option Tok} {now : ℚ}
    {user : User} (h : getCurrentUser env db credentials now = .ok user) :
    user ∈ db.users.rows := by
  cases credentials with
  | none => cases h
  | some token =>
    obtain ⟨_, -, -, hget, -⟩ := getCurrentUser_eq_ok_iff.mp h
    exact (Table.get?_eq_some_iff.mp hget).1

theorem issueEmailToken_users (env : Env Tok) (ctx : Context) (db : Accounts) (user : User)
    (purpose : Purpose) (minutes : Int) :
    (issueEmailToken env ctx db user purpose minutes).1.users = db.users := by
  unfold issueEmailToken createEmailToken Accounts.insertToken
  dsimp only
  split
  · rfl
  · next db' h =>
    split at h
    · obtain rfl := Option.some_inj.mp h
      rfl
    · cases h

theorem issueEmailToken_mail {env : Env Tok} {ctx : Context} {db db' : Accounts} {user : User}
    {purpose : Purpose} {minutes : Int} {mail : Mail}
    (h : issueEmailToken env ctx db user purpose minutes = (db', some mail)) :
    mail = { recipient := user.email, purpose, raw := ctx.rawToken,
             displayName := user.displayName } := by
  unfold issueEmailToken at h
  dsimp only at h
  split at h
  · cases h
  · cases h
    rfl

theorem Effect.refused {env : Env Tok} {ctx : Context} {db : Accounts} {call : AuthCall Tok}
    (failure : Failure) (hcall : call.presents = none) :
    Effect env ctx db call db (.error failure) :=
  .failed call failure fun _ _ h => by simp [hcall] at h

theorem get?_of_usable {db : Accounts} {purpose : Purpose} {tokenHash : String} {now : ℚ}
    {token : EmailToken} (h : getUsableEmailToken db purpose tokenHash now = some token) :
    ∃ user, db.users.get? token.userId = some user := by
  obtain ⟨user, huser, hown⟩ :=
    db.tokens_owned token (getUsableEmailToken_eq_some_iff.mp h).1
  exact ⟨user, hown ▸ Table.get?_of_mem huser⟩

section Effects

variable (env : Env Tok) (ctx : Context) (app : App)

theorem enforce_db {app' : App} {raised : Option HTTPException} {bucket identifier : String}
    (h : app.enforce env ctx bucket identifier = (app', raised)) : app'.db = app.db := by
  cases h
  rfl

theorem register_effect (body : RegisterRequest) :
    Effect env ctx app.db (.register body) (register env ctx body app).1.db
      ((register env ctx body app).2.map fun reply =>
        { response := some reply.1, mails := reply.2 }) := by
  unfold register
  rcases hlimit : app.enforce env ctx "register_ip" (clientIp ctx.request) with ⟨app', _ | exception⟩
  · have hdb := enforce_db env ctx app hlimit
    dsimp only
    split_ifs
    · rw [hdb]
      exact .refused _ rfl
    cases env.hashPassword body.password ctx.salt with
    | none =>
      dsimp only
      rw [hdb]
      exact .refused _ rfl
    | some passwordHash =>
      dsimp only
      cases hcreate : createUser env.lower app'.db ctx.userId (normalizeEmail env.lower body.email)
        passwordHash body.displayName ctx.now with
      | none =>
        dsimp only
        rw [hdb]
        exact .refused _ rfl
      | some created =>
        obtain ⟨user, db₁⟩ := created
        obtain ⟨hinsert, hversion⟩ := createUser_eq_some hcreate
        have heffect : Effect env ctx app.db (.register body) _ _ :=
          .registered body user db₁ (hdb ▸ hinsert) hversion
        rcases hissue : issueVerificationEmail env ctx db₁ user with ⟨db₂, mail⟩
        have hissue' : issueEmailToken env ctx db₁ user .verifyEmail (ttlMinutes env .verifyEmail) =
            (db₂, mail) := hissue
        rw [hissue'] at heffect
        dsimp only
        rw [hissue]
        cases mail <;> exact heffect
  · dsimp only
    rw [enforce_db env ctx app hlimit]
    exact .refused _ rfl

theorem loginUser_db (body : LoginRequest) : (loginUser env ctx body app).1.db = app.db := by
  unfold loginUser
  rcases hip : app.enforce env ctx "login_ip" (clientIp ctx.request) with ⟨app₁, _ | exception⟩
  · rcases hemail : app₁.enforce env ctx "login_email" (normalizeEmail env.lower body.email) with
      ⟨app₂, _ | exception⟩
    · have hdb : app₂.db = app.db :=
        (enforce_db env ctx app₁ hemail).trans (enforce_db env ctx app hip)
      dsimp only
      rw [hemail]
      dsimp only
      split <;> [skip; split] <;> exact hdb
    dsimp only
    rw [hemail]
    exact (enforce_db env ctx app₁ hemail).trans (enforce_db env ctx app hip)
  · exact enforce_db env ctx app hip

theorem checkLogin_effect (body : LoginRequest) :
    Effect env ctx app.db (.checkLogin body) (loginUser env ctx body app).1.db
      ((loginUser env ctx body app).2.map fun _ => {}) := by
  rw [loginUser_db]
  cases (loginUser env ctx body app).2 with
  | error failure => exact .refused _ rfl
  | ok user => exact .nothing _ rfl

theorem verifyEmail_effect (body : VerifyEmailRequest) :
    Effect env ctx app.db (.verifyEmail body) (verifyEmail env ctx body app).1.db
      ((verifyEmail env ctx body app).2.map fun _ => {}) := by
  unfold verifyEmail
  cases husable : getUsableEmailToken app.db .verifyEmail (env.hashEmailToken body.token)
    ctx.now with
  | none => exact .failed _ _ fun _ _ h => by cases h; exact husable
  | some token =>
    obtain ⟨user, huser⟩ := get?_of_usable husable
    have hsome : ((markEmailVerified (consumeEmailToken app.db token ctx.now) user
        ctx.now).users.get? user.id).isSome := by
      refine markEmailVerified_get? ctx.now ?_
      rw [(Table.get?_eq_some_iff.mp huser).2]
      exact Option.isSome_of_eq_some huser
    obtain ⟨row, hrow⟩ := Option.isSome_iff_exists.mp hsome
    dsimp only
    rw [huser]
    dsimp only
    rw [hrow]
    exact .verified body token user husable huser

theorem resendVerification_effect (credentials : Option Tok) :
    Effect env ctx app.db (.resendVerification credentials)
      (resendVerification env ctx credentials app).1.db
      ((resendVerification env ctx credentials app).2.map fun reply => { mails := reply.2 }) := by
  unfold resendVerification
  cases huser : getCurrentUser env app.db credentials ctx.now with
  | error exception => exact .refused _ rfl
  | ok user =>
    dsimp only
    rcases hlimit : app.enforce env ctx "resend_user" (toString user.id) with
      ⟨app', _ | exception⟩
    · have hdb := enforce_db env ctx app hlimit
      dsimp only
      split_ifs
      · rw [hdb]
        exact .nothing _ rfl
      · have heffect : Effect env ctx app.db (.resendVerification credentials) _ _ :=
          .issued _ rfl user (getCurrentUser_mem huser) .verifyEmail
        rw [← hdb] at heffect ⊢
        rcases hissue : issueVerificationEmail env ctx app'.db user with ⟨db₂, mail⟩
        have hissue' : issueEmailToken env ctx app'.db user .verifyEmail
            (ttlMinutes env .verifyEmail) = (db₂, mail) := hissue
        rw [hissue'] at heffect
        cases mail <;> exact heffect
    dsimp only
    rw [enforce_db env ctx app hlimit]
    exact .refused _ rfl

theorem forgotPassword_effect (body : ForgotPasswordRequest) :
    Effect env ctx app.db (.forgotPassword body) (forgotPassword env ctx body app).1.db
      ((forgotPassword env ctx body app).2.map fun reply => { mails := reply.2 }) := by
  unfold forgotPassword
  rcases hip : app.enforce env ctx "forgot_ip" (clientIp ctx.request) with ⟨app₁, _ | exception⟩
  · dsimp only
    rcases hemail : app₁.enforce env ctx "forgot_email" (normalizeEmail env.lower body.email) with
      ⟨app₂, _ | exception⟩
    · have hdb : app₂.db = app.db :=
        (enforce_db env ctx app₁ hemail).trans (enforce_db env ctx app hip)
      rw [← hdb]
      dsimp only
      cases huser : getUserByEmail env.lower app₂.db (normalizeEmail env.lower body.email) with
      | none => exact .nothing _ rfl
      | some user =>
        have heffect : Effect env ctx app₂.db (.forgotPassword body) _ _ :=
          .issued _ rfl user (List.mem_of_find?_eq_some huser) .passwordReset
        rcases hissue : issueEmailToken env ctx app₂.db user .passwordReset
          (ttlMinutes env .passwordReset) with ⟨db₂, mail⟩
        rw [hissue] at heffect
        have hissue' : issueEmailToken env ctx app₂.db user .passwordReset
            env.passwordResetTtlMinutes = (db₂, mail) := hissue
        dsimp only
        rw [hissue']
        cases mail <;> exact heffect
    dsimp only
    rw [(enforce_db env ctx app₁ hemail).trans (enforce_db env ctx app hip)]
    exact .refused _ rfl
  · dsimp only
    rw [enforce_db env ctx app hip]
    exact .refused _ rfl

theorem resetPassword_effect (body : ResetPasswordRequest) :
    Effect env ctx app.db (.resetPassword body) (resetPassword env ctx body app).1.db
      ((resetPassword env ctx body app).2.map fun response => { response := some response }) := by
  unfold resetPassword
  cases husable : getUsableEmailToken app.db .passwordReset (env.hashEmailToken body.token)
    ctx.now with
  | none => exact .failed _ _ fun _ _ h => by cases h; exact husable
  | some token =>
    obtain ⟨user, huser⟩ := get?_of_usable husable
    dsimp only
    rw [huser]
    dsimp only
    cases hhash : env.hashPassword body.password ctx.salt with
    | none => exact .burned body token user husable huser hhash
    | some passwordHash =>
      have hsome : ((markEmailVerified (setPassword (invalidateEmailTokens
          (consumeEmailToken app.db token ctx.now) user.id .passwordReset ctx.now) user
          passwordHash ctx.now) user ctx.now).users.get? user.id).isSome := by
        refine markEmailVerified_get? ctx.now ?_
        unfold setPassword Accounts.writePassword Accounts.mapUsers
        rw [Table.get?_map, Option.isSome_map, (Table.get?_eq_some_iff.mp huser).2]
        exact Option.isSome_of_eq_some huser
      obtain ⟨row, hrow⟩ := Option.isSome_iff_exists.mp hsome
      dsimp only
      rw [hrow]
      exact .reset body token user row passwordHash husable huser hrow

theorem me_effect (credentials : Option Tok) :
    Effect env ctx app.db (.me credentials) app.db
      (((getCurrentUser env app.db credentials ctx.now).mapError Failure.http).map fun _ => {}) := by
  cases getCurrentUser env app.db credentials ctx.now with
  | error exception => exact .refused _ rfl
  | ok user => exact .nothing _ rfl

theorem answer_effect (call : AuthCall Tok) :
    Effect env ctx app.db call (answer env ctx app call).1.db (answer env ctx app call).2 := by
  cases call with
  | register body => exact register_effect env ctx app body
  | checkLogin body => exact checkLogin_effect env ctx app body
  | answerLogin k => exact .nothing _ rfl
  | verifyEmail body => exact verifyEmail_effect env ctx app body
  | resendVerification credentials => exact resendVerification_effect env ctx app credentials
  | forgotPassword body => exact forgotPassword_effect env ctx app body
  | resetPassword body => exact resetPassword_effect env ctx app body
  | me credentials => exact me_effect env ctx app credentials

end Effects

end StockQuant
