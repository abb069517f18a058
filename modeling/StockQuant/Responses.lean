import StockQuant.LoginLimits

/-! What the client of an auth endpoint gets to see, and the answer to a login as a
function of its counters and the row it reads. -/

namespace StockQuant

variable {Tok : Type}

inductive Content (α : Type) where
  | json (value : α)
  | detail (detail : String)
  | plain (message : String)
  deriving DecidableEq

structure Response (α : Type) where
  statusCode : Nat
  content : Content α
  headers : List (String × String) := []
  deriving DecidableEq

/-- An exception that no handler catches is answered by the server. -/
def respond {α : Type} (statusCode : Nat) : Except Failure α → Response α
  | .ok value => { statusCode, content := .json value }
  | .error (.http exception) =>
    { statusCode := exception.statusCode, content := .detail exception.detail,
      headers := exception.headers }
  | .error .crash => { statusCode := 500, content := .plain "Internal Server Error" }

/-- `login` past its counters. -/
def checkPassword (env : Env Tok) (body : LoginRequest) (db : Accounts) : Except Failure User :=
  match getUserByEmail env.lower db (normalizeEmail env.lower body.email) with
  | none => .error (.http invalidLogin)
  | some user =>
    match env.verifyPassword body.password user.passwordHash with
    | none => .error .crash
    | some false => .error (.http invalidLogin)
    | some true => .ok user

def loginAnswer (env : Env Tok) (a : LoginAttempt) (db : Accounts) :
    Option HTTPException → Except Failure (AuthResponse Tok)
  | some exception => .error (.http exception)
  | none => (checkPassword env a.body db).map fun user =>
      { token := tokenFor env a.ctx user, user := userOut user }

theorem login_result (env : Env Tok) (a : LoginAttempt) (app : App) :
    (login env a.ctx a.body app).2 =
      loginAnswer env a app.db (loginLimits env a app.limiter).2 := by
  have hip : app.enforce env a.ctx "login_ip" (clientIp a.ctx.request) =
      ({ app with limiter := (enforce env.rateLimitEnabled app.limiter "login_ip" a.ip
          a.ctx.clock).1 },
        (enforce env.rateLimitEnabled app.limiter "login_ip" a.ip a.ctx.clock).2) := rfl
  unfold login loginUser loginLimits
  dsimp only
  rw [hip]
  rcases enforce env.rateLimitEnabled app.limiter "login_ip" a.ip a.ctx.clock with
    ⟨limiter, _ | exception⟩
  · have hemail : App.enforce env a.ctx { app with limiter } "login_email"
        (normalizeEmail env.lower a.body.email) =
        ({ app with limiter := (enforce env.rateLimitEnabled limiter "login_email"
            (a.email env) a.ctx.clock).1 },
          (enforce env.rateLimitEnabled limiter "login_email" (a.email env) a.ctx.clock).2) :=
      rfl
    dsimp only
    rw [hemail]
    rcases enforce env.rateLimitEnabled limiter "login_email" (a.email env) a.ctx.clock with
      ⟨limiter', _ | exception⟩
    · dsimp only [loginAnswer, checkPassword]
      cases getUserByEmail env.lower app.db (normalizeEmail env.lower a.body.email) with
      | none => rfl
      | some user =>
        dsimp only
        rcases env.verifyPassword a.body.password user.passwordHash with _ | _ | _ <;> rfl
    · rfl
  · rfl

end StockQuant
