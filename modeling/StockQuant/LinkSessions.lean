import StockQuant.MailedTokens
import StockQuant.TokenHandlers

/-! The endpoints that mail a new link to an account that exists, statement by statement. -/

namespace StockQuant

open ReadCommitted KeyedTable

variable {Tok : Type}

inductive LinkJob (Tok : Type) where
  | forgotPassword (body : ForgotPasswordRequest)
  | resendVerification (credentials : Option Tok)

def LinkJob.purpose : LinkJob Tok → Purpose
  | .forgotPassword _ => .passwordReset
  | .resendVerification _ => .verifyEmail

/-- Where a request is that the counters let through: the statement it comes to next,
with what it has loaded. -/
inductive LinkPoint where
  | start
  | selectOutstanding (user : User)
  | retire (userId : Uuid) (ids : List Uuid)
  | reloadUser (userId : Uuid)
  | insert (userId : Uuid)
  | refreshToken (userId tokenId : Uuid) (raw : String)
  | loadUser (userId : Uuid) (raw : String)
  | sent (userId : Uuid) (mail : Mail)
  | finished
  | rejected
  | crashed
  deriving DecidableEq

def linkAction (env : Env Tok) (ctx : Context) (job : LinkJob Tok) :
    LinkPoint → Action Accounts LinkPoint
  | .start => .read fun db =>
      match job with
      | .forgotPassword body =>
        match getUserByEmail env.lower db (normalizeEmail env.lower body.email) with
        | none => .finished
        | some user => .selectOutstanding user
      | .resendVerification credentials =>
        match getCurrentUser env db credentials ctx.now with
        | .error _ => .rejected
        | .ok user => if user.emailVerified then .finished else .selectOutstanding user
  | .selectOutstanding user => .read fun db =>
      let rows := db.tokens.rows.filter (outstanding user.id job.purpose)
      -- Nothing to retire means no commit, so the loaded row stays loaded.
      if rows = [] then .insert user.id else .retire user.id (rows.map EmailToken.id)
  | .retire userId ids =>
      .commit (fun db => some (db.markUsed (·.id ∈ ids) ctx.now)) (.reloadUser userId) .crashed
  | .reloadUser userId => .read fun db =>
      match db.users.get? userId with
      | none => .crashed
      | some _ => .insert userId
  | .insert userId =>
      .commit
        (fun db => createEmailToken db ctx.tokenId userId job.purpose
          (env.hashEmailToken ctx.rawToken) (ttlMinutes env job.purpose) ctx.now)
        (.refreshToken userId ctx.tokenId ctx.rawToken) .crashed
  | .refreshToken userId tokenId raw => .read fun db =>
      match db.tokens.get? tokenId with
      | none => .crashed
      | some _ => .loadUser userId raw
  | .loadUser userId raw => .read fun db =>
      match db.users.get? userId with
      | none => .crashed
      | some user =>
        .sent userId
          { recipient := user.email, purpose := job.purpose, raw, displayName := user.displayName }
  | .sent userId mail => .work (.sent userId mail)
  | .finished => .work .finished
  | .rejected => .work .rejected
  | .crashed => .work .crashed

def linkProgram {ι : Type} (env : Env Tok) (jobs : ι → LinkJob Tok) (i : ι) (ctx : Context) :
    LinkPoint → Action Accounts LinkPoint :=
  linkAction env ctx (jobs i)

def LinkPoint.underWay : LinkPoint → Bool
  | .start | .sent _ _ | .finished | .rejected | .crashed => false
  | _ => true

/-- The user whose outstanding tokens the request is about to read. -/
@[simp] def LinkPoint.selecting : LinkPoint → Option Uuid
  | .selectOutstanding user => some user.id
  | _ => none

/-- The tokens that the request has read and is about to mark. -/
@[simp] def LinkPoint.loaded : LinkPoint → List Uuid
  | .retire _ ids => ids
  | _ => []

/-- The user whose outstanding tokens the request has read. -/
@[simp] def LinkPoint.served : LinkPoint → Option Uuid
  | .retire userId _ | .reloadUser userId | .insert userId | .refreshToken userId _ _
  | .loadUser userId _ | .sent userId _ => some userId
  | _ => none

section Perform

variable (env : Env Tok) (ctx : Context) (job : LinkJob Tok) (db : Accounts)

/-- The statements that leave the tables, and no request about to mark or to read. -/
theorem perform_quiet {p : LinkPoint} (hselect : ∀ user, p ≠ .selectOutstanding user)
    (hretire : ∀ userId ids, p ≠ .retire userId ids) (hinsert : ∀ userId, p ≠ .insert userId) :
    ((linkAction env ctx job p).perform db).1 = db ∧
      ((linkAction env ctx job p).perform db).2.loaded = p.loaded ∧
      ∀ userId, ((linkAction env ctx job p).perform db).2.served = some userId →
        p.served = some userId := by
  cases p with
  | selectOutstanding user => exact absurd rfl (hselect user)
  | retire userId ids => exact absurd rfl (hretire userId ids)
  | insert userId => exact absurd rfl (hinsert userId)
  | start =>
    cases job with
    | forgotPassword body =>
      simp only [linkAction, perform_read]
      cases getUserByEmail env.lower db (normalizeEmail env.lower body.email) <;> simp
    | resendVerification credentials =>
      simp only [linkAction, perform_read]
      cases getCurrentUser env db credentials ctx.now with
      | error exception => simp
      | ok user =>
        dsimp only
        split_ifs <;> simp
  | reloadUser userId =>
    simp only [linkAction, perform_read]
    cases db.users.get? userId <;> simp
  | refreshToken userId tokenId raw =>
    simp only [linkAction, perform_read]
    cases db.tokens.get? tokenId <;> simp
  | loadUser userId raw =>
    simp only [linkAction, perform_read]
    cases db.users.get? userId <;> simp
  | sent | finished | rejected | crashed => exact ⟨rfl, rfl, fun _ h => h⟩

end Perform

section Statements

variable (env : Env Tok) (ctx : Context) (job : LinkJob Tok)

theorem createEmailToken_eq_some {db db' : Accounts} {id userId : Uuid} {purpose : Purpose}
    {tokenHash : String} {ttlMinutes : Int} {now : ℚ}
    (h : createEmailToken db id userId purpose tokenHash ttlMinutes now = some db') :
    db'.users = db.users ∧ db'.tokens.rows =
      { id, userId, purpose, tokenHash, expiresAt := now + ttlMinutes * 60 } :: db.tokens.rows := by
  unfold createEmailToken Accounts.insertToken at h
  split at h
  · obtain rfl := Option.some_inj.mp h
    exact ⟨rfl, rfl⟩
  · cases h

def linkStatements (start : Accounts × LinkPoint) (n : ℕ) : Accounts × LinkPoint :=
  alone (fun ctx => linkAction env ctx job) (fun _ => ctx) start n

theorem linkStatements_succ (start : Accounts × LinkPoint) (n : ℕ) :
    linkStatements env ctx job start (n + 1) =
      linkStatements env ctx job ((linkAction env ctx job start.2).perform start.1) n :=
  alone_succ _ _ _ _

theorem linkStatements_stopped (db : Accounts) {p : LinkPoint}
    (hp : p = .crashed ∨ ∃ userId mail, p = .sent userId mail) (n : ℕ) :
    linkStatements env ctx job (db, p) n = (db, p) := by
  refine alone_of_fixed ?_ n
  obtain rfl | ⟨userId, mail, rfl⟩ := hp <;> rfl

def linkEndPoint (userId : Uuid) : Option Mail → LinkPoint
  | none => .crashed
  | some mail => .sent userId mail

theorem linkStatements_insert {db : Accounts} {user : User}
    (huser : db.users.get? user.id = some user) (n : ℕ) :
    linkStatements env ctx job (db, .insert user.id) (n + 3) =
      match createEmailToken db ctx.tokenId user.id job.purpose (env.hashEmailToken ctx.rawToken)
        (ttlMinutes env job.purpose) ctx.now with
      | none => (db, .crashed)
      | some db =>
        (db, .sent user.id
          { recipient := user.email, purpose := job.purpose, raw := ctx.rawToken,
            displayName := user.displayName }) := by
  rw [linkStatements_succ]
  simp only [linkAction, Action.perform]
  cases hcreate : createEmailToken db ctx.tokenId user.id job.purpose
      (env.hashEmailToken ctx.rawToken) (ttlMinutes env job.purpose) ctx.now with
  | none => exact linkStatements_stopped env ctx job db (Or.inl rfl) _
  | some db' =>
    obtain ⟨husers, htokens⟩ := createEmailToken_eq_some hcreate
    have htoken := Table.get?_of_mem (htokens ▸ List.mem_cons_self)
    rw [← husers] at huser
    dsimp only
    rw [linkStatements_succ, linkStatements_succ]
    simp only [linkAction, perform_read, htoken, huser]
    exact linkStatements_stopped env ctx job db' (Or.inr ⟨_, _, rfl⟩) n

theorem issueEmailToken_eq_statements {db : Accounts} {user : User}
    (huser : db.users.get? user.id = some user) :
    linkStatements env ctx job (db, .selectOutstanding user) 6 =
      ((issueEmailToken env ctx db user job.purpose (ttlMinutes env job.purpose)).1,
        linkEndPoint user.id
          (issueEmailToken env ctx db user job.purpose (ttlMinutes env job.purpose)).2) := by
  have hinsert (n : ℕ) : linkStatements env ctx job
      (invalidateEmailTokens db user.id job.purpose ctx.now, .insert user.id) (n + 3) =
      ((issueEmailToken env ctx db user job.purpose (ttlMinutes env job.purpose)).1,
        linkEndPoint user.id
          (issueEmailToken env ctx db user job.purpose (ttlMinutes env job.purpose)).2) := by
    rw [linkStatements_insert env ctx job (show (invalidateEmailTokens db user.id job.purpose
      ctx.now).users.get? user.id = some user from huser)]
    unfold issueEmailToken
    dsimp only
    cases createEmailToken (invalidateEmailTokens db user.id job.purpose ctx.now) ctx.tokenId
      user.id job.purpose (env.hashEmailToken ctx.rawToken) (ttlMinutes env job.purpose) ctx.now with
    | none => rfl
    | some db' => rfl
  rw [linkStatements_succ]
  simp only [linkAction, perform_read]
  split_ifs with hnone
  · rw [← hinsert 2]
    unfold invalidateEmailTokens
    rw [markUsed_of_filter_eq_nil hnone]
  · rw [linkStatements_succ, linkStatements_succ, ← hinsert 0]
    simp only [linkAction, perform_commit_some, perform_read, markUsed_ids]
    rw [show (db.markUsed (outstanding user.id job.purpose) ctx.now).users.get? user.id = some user
      from huser]
    rfl

end Statements

end StockQuant
