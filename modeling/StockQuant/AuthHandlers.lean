import StockQuant.Accounts

/-! The auth endpoints, each run from start to end on its own. -/

namespace StockQuant

variable {Tok : Type}

/-- The claims of a session token; `none` for one that is absent or malformed. -/
structure Payload where
  sub : Option Uuid
  ver : Option Int
  iat : Int
  jti : String
  exp : Int
  deriving DecidableEq

/-- The settings, and the library functions the endpoints call, where `none` is an
exception. `Tok` stands for the strings that are session tokens. -/
structure Env (Tok : Type) where
  lower : String → String
  hashEmailToken : String → String
  hashPassword : String → String → Option String
  verifyPassword : String → String → Option Bool
  encode : Payload → Tok
  decode : Tok → ℚ → Option Payload
  jwtExpireMinutes : Int := 1440
  emailVerifyTtlMinutes : Int := 1440
  passwordResetTtlMinutes : Int := 30
  rateLimitEnabled : Bool := true

/-- What a request brings besides its body: the client, the two clocks, and the
random values it draws. -/
structure Context where
  request : Request
  now : ℚ
  clock : ℚ
  userId : Uuid
  tokenId : Uuid
  rawToken : String
  salt : String
  jti : String

@[ext] structure App where
  db : Accounts
  limiter : SlidingWindowLimiter

structure Mail where
  recipient : String
  purpose : Purpose
  raw : String
  displayName : Option String
  deriving DecidableEq

inductive Failure where
  | http (exception : HTTPException)
  | crash
  deriving DecidableEq

structure UserOut where
  id : Uuid
  email : String
  displayName : Option String
  emailVerified : Bool
  deriving DecidableEq

structure AuthResponse (Tok : Type) where
  token : Tok
  user : UserOut
  deriving DecidableEq

structure RegisterRequest where
  email : String
  password : String
  displayName : Option String := none
  password_length : 8 ≤ password.length ∧ password.length ≤ 72

structure LoginRequest where
  email : String
  password : String
  password_length : 1 ≤ password.length ∧ password.length ≤ 72

structure ForgotPasswordRequest where
  email : String

structure VerifyEmailRequest where
  token : String
  token_length : 1 ≤ token.length

structure ResetPasswordRequest where
  token : String
  password : String
  token_length : 1 ≤ token.length
  password_length : 8 ≤ password.length ∧ password.length ≤ 72

def credentialsException : HTTPException where
  statusCode := 401
  detail := "Could not validate credentials"
  headers := [("WWW-Authenticate", "Bearer")]

def invalidToken : HTTPException where
  statusCode := 400
  detail := "This link is invalid or has expired. Please request a new one."

def emailTaken : HTTPException where
  statusCode := 409
  detail := "Email already registered"

def invalidLogin : HTTPException where
  statusCode := 401
  detail := "Invalid email or password"

def genericEmailAck : String :=
  "If that address has an account, we've sent an email with the next steps."

/-- The dates in the payload lose their fraction of a second. -/
def accessPayload (env : Env Tok) (userId : Uuid) (tokenVersion : Nat) (now : ℚ) (jti : String) :
    Payload where
  sub := some userId
  ver := some tokenVersion
  iat := ⌊now⌋
  jti := jti
  exp := ⌊now + env.jwtExpireMinutes * 60⌋

def tokenFor (env : Env Tok) (ctx : Context) (user : User) : Tok :=
  env.encode (accessPayload env user.id user.tokenVersion ctx.now ctx.jti)

/-- `credentials` is `none` also for an empty token. -/
def getCurrentUser (env : Env Tok) (db : Accounts) (credentials : Option Tok) (now : ℚ) :
    Except HTTPException User :=
  match credentials with
  | none => .error credentialsException
  | some token =>
    match env.decode token now with
    | none => .error credentialsException
    | some payload =>
      match payload.sub with
      | none => .error credentialsException
      | some userId =>
        match db.users.get? userId with
        | none => .error credentialsException
        | some user =>
          if payload.ver = some (user.tokenVersion : Int) then .ok user
          else .error credentialsException

def App.enforce (env : Env Tok) (ctx : Context) (app : App) (bucket identifier : String) :
    App × Option HTTPException :=
  let result := StockQuant.enforce env.rateLimitEnabled app.limiter bucket identifier ctx.clock
  ({ app with limiter := result.1 }, result.2)

def userOut (user : User) : UserOut where
  id := user.id
  email := user.email
  displayName := user.displayName
  emailVerified := user.emailVerified

/-- Retires the earlier tokens of the purpose and mints a new one. The first of the
two commits stands when the second fails. -/
def issueEmailToken (env : Env Tok) (ctx : Context) (db : Accounts) (user : User) (purpose : Purpose)
    (ttlMinutes : Int) : Accounts × Option Mail :=
  let db := invalidateEmailTokens db user.id purpose ctx.now
  match createEmailToken db ctx.tokenId user.id purpose (env.hashEmailToken ctx.rawToken)
    ttlMinutes ctx.now with
  | none => (db, none)
  | some db =>
    (db, some { recipient := user.email, purpose, raw := ctx.rawToken,
                displayName := user.displayName })

def issueVerificationEmail (env : Env Tok) (ctx : Context) (db : Accounts) (user : User) :
    Accounts × Option Mail :=
  issueEmailToken env ctx db user .verifyEmail env.emailVerifyTtlMinutes

def register (env : Env Tok) (ctx : Context) (body : RegisterRequest) (app : App) :
    App × Except Failure (AuthResponse Tok × List Mail) :=
  match app.enforce env ctx "register_ip" (clientIp ctx.request) with
  | (app, some exception) => (app, .error (.http exception))
  | (app, none) =>
    let email := normalizeEmail env.lower body.email
    if getUserByEmail env.lower app.db email ≠ none then (app, .error (.http emailTaken))
    else
      match env.hashPassword body.password ctx.salt with
      | none => (app, .error .crash)
      | some passwordHash =>
        match createUser env.lower app.db ctx.userId email passwordHash body.displayName
          ctx.now with
        | none => (app, .error .crash)
        | some (user, db) =>
          match issueVerificationEmail env ctx db user with
          | (db, none) => ({ app with db }, .error .crash)
          | (db, some mail) =>
            ({ app with db },
              .ok ({ token := tokenFor env ctx user, user := userOut user }, [mail]))

/-- `login` up to the check of the password on the row it read. -/
def loginUser (env : Env Tok) (ctx : Context) (body : LoginRequest) (app : App) :
    App × Except Failure User :=
  let email := normalizeEmail env.lower body.email
  match app.enforce env ctx "login_ip" (clientIp ctx.request) with
  | (app, some exception) => (app, .error (.http exception))
  | (app, none) =>
    match app.enforce env ctx "login_email" email with
    | (app, some exception) => (app, .error (.http exception))
    | (app, none) =>
      match getUserByEmail env.lower app.db email with
      | none => (app, .error (.http invalidLogin))
      | some user =>
        match env.verifyPassword body.password user.passwordHash with
        | none => (app, .error .crash)
        | some false => (app, .error (.http invalidLogin))
        | some true => (app, .ok user)

def login (env : Env Tok) (ctx : Context) (body : LoginRequest) (app : App) :
    App × Except Failure (AuthResponse Tok) :=
  match loginUser env ctx body app with
  | (app, .error failure) => (app, .error failure)
  | (app, .ok user) => (app, .ok { token := tokenFor env ctx user, user := userOut user })

def verifyEmail (env : Env Tok) (ctx : Context) (body : VerifyEmailRequest) (app : App) :
    App × Except Failure UserOut :=
  match getUsableEmailToken app.db .verifyEmail (env.hashEmailToken body.token) ctx.now with
  | none => (app, .error (.http invalidToken))
  | some token =>
    match app.db.users.get? token.userId with
    | none => (app, .error (.http invalidToken))
    | some user =>
      let db := consumeEmailToken app.db token ctx.now
      let db := markEmailVerified db user ctx.now
      match db.users.get? user.id with
      | none => ({ app with db }, .error .crash)
      | some user => ({ app with db }, .ok (userOut user))

def resendVerification (env : Env Tok) (ctx : Context) (credentials : Option Tok) (app : App) :
    App × Except Failure (String × List Mail) :=
  match getCurrentUser env app.db credentials ctx.now with
  | .error exception => (app, .error (.http exception))
  | .ok user =>
    match app.enforce env ctx "resend_user" (toString user.id) with
    | (app, some exception) => (app, .error (.http exception))
    | (app, none) =>
      if user.emailVerified then (app, .ok ("This address is already verified.", []))
      else
        match issueVerificationEmail env ctx app.db user with
        | (db, none) => ({ app with db }, .error .crash)
        | (db, some mail) => ({ app with db }, .ok ("Verification email sent.", [mail]))

def forgotPassword (env : Env Tok) (ctx : Context) (body : ForgotPasswordRequest) (app : App) :
    App × Except Failure (String × List Mail) :=
  let email := normalizeEmail env.lower body.email
  match app.enforce env ctx "forgot_ip" (clientIp ctx.request) with
  | (app, some exception) => (app, .error (.http exception))
  | (app, none) =>
    match app.enforce env ctx "forgot_email" email with
    | (app, some exception) => (app, .error (.http exception))
    | (app, none) =>
      match getUserByEmail env.lower app.db email with
      | none => (app, .ok (genericEmailAck, []))
      | some user =>
        match issueEmailToken env ctx app.db user .passwordReset env.passwordResetTtlMinutes with
        | (db, none) => ({ app with db }, .error .crash)
        | (db, some mail) => ({ app with db }, .ok (genericEmailAck, [mail]))

def resetPassword (env : Env Tok) (ctx : Context) (body : ResetPasswordRequest) (app : App) :
    App × Except Failure (AuthResponse Tok) :=
  match getUsableEmailToken app.db .passwordReset (env.hashEmailToken body.token) ctx.now with
  | none => (app, .error (.http invalidToken))
  | some token =>
    match app.db.users.get? token.userId with
    | none => (app, .error (.http invalidToken))
    | some user =>
      let db := consumeEmailToken app.db token ctx.now
      let db := invalidateEmailTokens db user.id .passwordReset ctx.now
      match env.hashPassword body.password ctx.salt with
      | none => ({ app with db }, .error .crash)
      | some passwordHash =>
        let db := setPassword db user passwordHash ctx.now
        let db := markEmailVerified db user ctx.now
        match db.users.get? user.id with
        | none => ({ app with db }, .error .crash)
        | some user =>
          ({ app with db }, .ok { token := tokenFor env ctx user, user := userOut user })

/-- An environment to run the endpoints in: session tokens are their payloads and
hashes are the marked input. -/
def plainEnv : Env Payload where
  lower s := String.ofList (s.toList.map Char.toLower)
  hashEmailToken s := "sha256:" ++ s
  hashPassword password _ := if '\x00' ∈ password.toList then none else some ("bcrypt:" ++ password)
  verifyPassword password hash := some (hash = "bcrypt:" ++ password)
  encode := id
  decode token now := if token.iat ≤ now ∧ now < token.exp then some token else none

def plainContext (now : ℚ) : Context where
  request := { clientHost := some "203.0.113.1" }
  now := now
  clock := now
  userId := 1
  tokenId := 1
  rawToken := "link"
  salt := ""
  jti := ""

def contextWith (now : ℚ) (tokenId : Uuid) (rawToken : String) : Context :=
  { plainContext now with tokenId, rawToken }

def freshApp : App where
  db := Accounts.empty
  limiter := { lastSweep := 0 }

def ownerRegistration : RegisterRequest where
  email := "owner@example.com"
  password := "old password"
  password_length := by decide

def ownerLogin : LoginRequest where
  email := "owner@example.com"
  password := "old password"
  password_length := by decide

def newPassword : ResetPasswordRequest where
  token := "link"
  password := "new password"
  token_length := by decide
  password_length := by decide

end StockQuant
