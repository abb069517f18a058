import StockQuant.LinkSessions

/-! `register` statement by statement. -/

namespace StockQuant

open ReadCommitted KeyedTable

variable {Tok : Type}

/-- Where a registration is that the counter lets through: the statement it comes to next, with
what it has computed. -/
inductive RegisterPoint where
  | start
  | hashing
  | insert (passwordHash : String)
  | refresh (userId : Uuid)
  | issue (p : LinkPoint)
  | taken
  | created (userId : Uuid) (mail : Mail)
  | crashed
  deriving DecidableEq

/-- The mail is sent off with the answer. -/
def registerPoint : LinkPoint → RegisterPoint
  | .sent userId mail => .created userId mail
  | .crashed => .crashed
  | p => .issue p

def registerAction (env : Env Tok) (ctx : Context) (body : RegisterRequest) :
    RegisterPoint → Action Accounts RegisterPoint
  | .start => .read fun db =>
      let email := normalizeEmail env.lower body.email
      if getUserByEmail env.lower db email ≠ none then .taken else .hashing
  | .hashing =>
      match env.hashPassword body.password ctx.salt with
      | none => .work .crashed
      | some passwordHash => .work (.insert passwordHash)
  | .insert passwordHash =>
      .commit
        (fun db => (createUser env.lower db ctx.userId (normalizeEmail env.lower body.email)
          passwordHash body.displayName ctx.now).map (·.2))
        (.refresh ctx.userId) .crashed
  | .refresh userId => .read fun db =>
      match db.users.get? userId with
      | none => .crashed
      | some user => .issue (.selectOutstanding user)
  -- The statements of `resend_verification` once it has its user.
  | .issue p => (linkAction env ctx (.resendVerification none) p).map registerPoint
  | .taken => .work .taken
  | .created userId mail => .work (.created userId mail)
  | .crashed => .work .crashed

def registerProgram {ι : Type} (env : Env Tok) (bodies : ι → RegisterRequest) (i : ι)
    (ctx : Context) : RegisterPoint → Action Accounts RegisterPoint :=
  registerAction env ctx (bodies i)

/-- The request has answered. -/
@[simp] def RegisterPoint.answered : RegisterPoint → Bool
  | .taken | .created _ _ | .crashed => true
  | _ => false

/-- The request has found the address free and not inserted its row yet. -/
@[simp] def RegisterPoint.pending : RegisterPoint → Bool
  | .hashing | .insert _ => true
  | _ => false

/-- The request has found the address free. -/
@[simp] def RegisterPoint.passed : RegisterPoint → Bool
  | .start | .taken => false
  | _ => true

section Perform

variable {env : Env Tok} {ctx : Context} {body : RegisterRequest} {db : Accounts}

theorem passed_registerPoint (p : LinkPoint) : (registerPoint p).passed := by
  cases p <;> rfl

/-- What a request has found it does not look up again. -/
theorem passed_perform {p : RegisterPoint} (h : p.passed) :
    ((registerAction env ctx body p).perform db).2.passed := by
  cases p with
  | start | taken => cases h
  | created | crashed => rfl
  | issue p =>
    simp only [registerAction, perform_map]
    exact passed_registerPoint _
  | hashing =>
    unfold registerAction
    cases env.hashPassword body.password ctx.salt <;> rfl
  | insert passwordHash =>
    simp only [registerAction, Action.perform]
    cases (createUser env.lower db ctx.userId (normalizeEmail env.lower body.email) passwordHash
      body.displayName ctx.now).map (·.2) <;> rfl
  | refresh userId =>
    simp only [registerAction, perform_read]
    cases db.users.get? userId <;> rfl

end Perform

section Statements

variable (env : Env Tok) (ctx : Context) (body : RegisterRequest)

def registerStatements (start : Accounts × RegisterPoint) (n : ℕ) : Accounts × RegisterPoint :=
  alone (fun ctx => registerAction env ctx body) (fun _ => ctx) start n

theorem registerStatements_succ (start : Accounts × RegisterPoint) (n : ℕ) :
    registerStatements env ctx body start (n + 1) =
      registerStatements env ctx body ((registerAction env ctx body start.2).perform start.1) n :=
  alone_succ _ _ _ _

theorem registerStatements_stopped (db : Accounts) {p : RegisterPoint} (hp : p.answered) (n : ℕ) :
    registerStatements env ctx body (db, p) n = (db, p) := by
  refine alone_of_fixed ?_ n
  cases p <;> first | rfl | cases hp

theorem perform_registerPoint (db : Accounts) (p : LinkPoint) :
    (registerAction env ctx body (registerPoint p)).perform db =
      (((linkAction env ctx (.resendVerification none) p).perform db).1,
        registerPoint ((linkAction env ctx (.resendVerification none) p).perform db).2) := by
  cases p with
  | sent | crashed => rfl
  | _ =>
    simp only [registerPoint, registerAction]
    exact perform_map _ _ _

theorem registerStatements_issue (db : Accounts) (p : LinkPoint) (n : ℕ) :
    registerStatements env ctx body (db, registerPoint p) n =
      ((linkStatements env ctx (.resendVerification none) (db, p) n).1,
        registerPoint (linkStatements env ctx (.resendVerification none) (db, p) n).2) := by
  induction n with
  | zero => rfl
  | succ n ih =>
    unfold registerStatements linkStatements at ih ⊢
    rw [alone, ih, perform_registerPoint]
    rfl

def registerEnd : Except Failure (AuthResponse Tok × List Mail) → RegisterPoint
  | .ok (response, mail :: _) => .created response.user.id mail
  | .ok (_, []) => .crashed
  | .error (.http _) => .taken
  | .error .crash => .crashed

theorem createUser_row {lower : String → String} {db db' : Accounts} {id : Uuid}
    {email passwordHash : String} {displayName : Option String} {now : ℚ} {user : User}
    (h : createUser lower db id email passwordHash displayName now = some (user, db')) :
    user.id = id ∧ user.email = normalizeEmail lower email ∧
      db'.users.rows = user :: db.users.rows := by
  obtain rfl := createUser_user h
  exact ⟨rfl, rfl, (insertUser_eq_some (createUser_eq_some h).1).2.1⟩

theorem register_eq_statements {app app' : App}
    (henforce : app.enforce env ctx "register_ip" (clientIp ctx.request) = (app', none)) :
    registerStatements env ctx body (app'.db, .start) 10 =
      ((register env ctx body app).1.db, registerEnd (register env ctx body app).2) := by
  unfold register
  rw [henforce, registerStatements_succ]
  simp only [registerAction, perform_read]
  split_ifs with htaken
  · exact registerStatements_stopped env ctx body app'.db rfl _
  · rw [registerStatements_succ]
    simp only [registerAction]
    cases hhash : env.hashPassword body.password ctx.salt with
    | none => exact registerStatements_stopped env ctx body app'.db rfl _
    | some passwordHash =>
      simp only [perform_work]
      rw [registerStatements_succ]
      simp only [registerAction, Action.perform]
      cases hcreate : createUser env.lower app'.db ctx.userId (normalizeEmail env.lower body.email)
          passwordHash body.displayName ctx.now with
      | none => exact registerStatements_stopped env ctx body app'.db rfl _
      | some created =>
        obtain ⟨user, db⟩ := created
        obtain ⟨hid, -, hrows⟩ := createUser_row hcreate
        have huser : db.users.get? user.id = some user :=
          Table.get?_of_mem (hrows ▸ List.mem_cons_self)
        simp only [Option.map_some, ← hid]
        rw [registerStatements_succ]
        simp only [registerAction, perform_read, huser]
        refine (registerStatements_issue env ctx body db (.selectOutstanding user) 6).trans ?_
        rw [issueEmailToken_eq_statements env ctx (.resendVerification none) huser]
        simp only [issueVerificationEmail, LinkJob.purpose, ttlMinutes]
        obtain ⟨db', mail⟩ := issueEmailToken env ctx db user .verifyEmail env.emailVerifyTtlMinutes
        cases mail <;> rfl

end Statements

end StockQuant
