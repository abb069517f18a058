import StockQuant.RegisterSessions
import StockQuant.Responses

/-! All requests to the account endpoints at once, statement by statement. -/

namespace StockQuant

open ReadCommitted

variable {Tok : Type}

/-- Where a login is that the counters let through. -/
inductive LoginPoint where
  | start
  | verify (user : User)
  | signedIn (user : User)
  | rejected
  | crashed
  deriving DecidableEq

def loginAction (env : Env Tok) (body : LoginRequest) : LoginPoint → Action Accounts LoginPoint
  | .start => .read fun db =>
      match getUserByEmail env.lower db (normalizeEmail env.lower body.email) with
      | none => .rejected
      | some user => .verify user
  | .verify user => .work <|
      match env.verifyPassword body.password user.passwordHash with
      | none => .crashed
      | some false => .rejected
      | some true => .signedIn user
  | .signedIn user => .work (.signedIn user)
  | .rejected => .work .rejected
  | .crashed => .work .crashed

def loginEnd : Except Failure User → LoginPoint
  | .ok user => .signedIn user
  | .error (.http _) => .rejected
  | .error .crash => .crashed

theorem checkPassword_eq_statements (env : Env Tok) (body : LoginRequest) (db : Accounts) :
    alone (fun _ : Unit => loginAction env body) (fun _ => ()) (db, .start) 2 =
      (db, loginEnd (checkPassword env body db)) := by
  simp only [alone, loginAction, perform_read]
  unfold checkPassword
  cases getUserByEmail env.lower db (normalizeEmail env.lower body.email) with
  | none => rfl
  | some user =>
    dsimp only [loginAction, perform_work]
    rcases env.verifyPassword body.password user.passwordHash with _ | _ | _ <;> rfl

inductive AccountJob (Tok : Type) where
  | login (body : LoginRequest)
  | register (body : RegisterRequest)
  | link (job : LinkJob Tok)
  | token (job : TokenJob)

inductive AccountPoint (Tok : Type) where
  | login (point : LoginPoint)
  | register (point : RegisterPoint)
  | link (point : LinkPoint)
  | token (point : TokenPoint Tok)
  deriving DecidableEq

def AccountJob.start : AccountJob Tok → AccountPoint Tok
  | .login _ => .login .start
  | .register _ => .register .start
  | .link _ => .link .start
  | .token _ => .token .lookup

/-- A request is only ever at the points of its own endpoint. -/
def accountAction (env : Env Tok) (ctx : Context) :
    AccountJob Tok → AccountPoint Tok → Action Accounts (AccountPoint Tok)
  | .login body, .login point => (loginAction env body point).map .login
  | .register body, .register point => (registerAction env ctx body point).map .register
  | .link job, .link point => (linkAction env ctx job point).map .link
  | .token job, .token point => (tokenAction env ctx job point).map .token
  | _, point => .work point

def accountProgram {ι : Type} (env : Env Tok) (jobs : ι → AccountJob Tok) (i : ι) (ctx : Context) :
    AccountPoint Tok → Action Accounts (AccountPoint Tok) :=
  accountAction env ctx (jobs i)

section Alone

variable (env : Env Tok) (ctx : Context)

theorem alone_login (body : LoginRequest) (db : Accounts) :
    alone (fun _ : Unit => accountAction env ctx (.login body)) (fun _ => ())
        (db, .login .start) 2 =
      (db, .login (loginEnd (checkPassword env body db))) := by
  rw [alone_map AccountPoint.login fun _ _ => rfl, checkPassword_eq_statements]

theorem alone_register (body : RegisterRequest) {app app' : App}
    (henforce : app.enforce env ctx "register_ip" (clientIp ctx.request) = (app', none)) :
    alone (fun ctx => accountAction env ctx (.register body)) (fun _ => ctx)
        (app'.db, .register .start) 10 =
      ((register env ctx body app).1.db,
        .register (registerEnd (register env ctx body app).2)) := by
  have halone := register_eq_statements env ctx body henforce
  unfold registerStatements at halone
  rw [alone_map AccountPoint.register fun _ _ => rfl, halone]

theorem alone_link (job : LinkJob Tok) {db : Accounts} {user : User}
    (huser : db.users.get? user.id = some user) :
    let issued := issueEmailToken env ctx db user job.purpose (ttlMinutes env job.purpose)
    alone (fun ctx => accountAction env ctx (.link job)) (fun _ => ctx)
        (db, .link (.selectOutstanding user)) 6 =
      (issued.1, .link (linkEndPoint user.id issued.2)) := by
  have halone := issueEmailToken_eq_statements env ctx job huser
  unfold linkStatements at halone
  dsimp only
  rw [alone_map AccountPoint.link fun _ _ => rfl, halone]

theorem alone_resetPassword (body : ResetPasswordRequest) (app : App) :
    alone (fun ctx => accountAction env ctx (.token (.resetPassword body))) (fun _ => ctx)
        (app.db, .token .lookup) 15 =
      ((resetPassword env ctx body app).1.db,
        .token (endPoint (resetPassword env ctx body app).2)) := by
  have halone := resetPassword_eq_statements env ctx body app
  unfold statements at halone
  rw [alone_map AccountPoint.token fun _ _ => rfl, halone]

theorem alone_verifyEmail (body : VerifyEmailRequest) (app : App) :
    alone (fun ctx => accountAction env ctx (.token (.verifyEmail body))) (fun _ => ctx)
        (app.db, .token .lookup) 7 =
      ((verifyEmail env ctx body app).1.db,
        .token (verifyEndPoint (verifyEmail env ctx body app).2)) := by
  have halone := verifyEmail_eq_statements env ctx body app
  unfold statements at halone
  rw [alone_map AccountPoint.token fun _ _ => rfl, halone]

end Alone

end StockQuant
