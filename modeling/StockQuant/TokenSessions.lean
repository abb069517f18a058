import StockQuant.AuthHandlers
import StockQuant.ReadCommitted

/-! The endpoints that a mailed token opens, statement by statement. Every commit
expires what the session has loaded, so the next attribute that is read loads the
row anew. -/

namespace StockQuant

open ReadCommitted

variable {Tok : Type}

inductive TokenJob where
  | verifyEmail (body : VerifyEmailRequest)
  | resetPassword (body : ResetPasswordRequest)

def TokenJob.purpose : TokenJob → Purpose
  | .verifyEmail _ => .verifyEmail
  | .resetPassword _ => .passwordReset

def TokenJob.token : TokenJob → String
  | .verifyEmail body => body.token
  | .resetPassword body => body.token

inductive TokenReply (Tok : Type) where
  | verified (user : UserOut)
  | signedIn (response : AuthResponse Tok)
  deriving DecidableEq

/-- Where a request is: the statement it comes to next, with what it has loaded. -/
inductive TokenPoint (Tok : Type) where
  | lookup
  | getUser (token : EmailToken)
  | consume (token : EmailToken)
  | refreshToken (token : EmailToken)
  | loadUser (userId : Uuid)
  | selectOutstanding (user : User)
  | retire (userId : Uuid) (ids : List Uuid)
  | hashPassword (userId : Uuid) (loaded : Option User)
  | setPassword (userId : Uuid) (passwordHash : String) (version : Nat)
  | findUser (userId : Uuid) (passwordHash : String)
  | flushPassword (userId : Uuid) (passwordHash : String)
  | reloadUser (userId : Uuid) (passwordHash : String) (changedAt : ℚ)
  | setVersion (userId : Uuid) (passwordHash : String) (changedAt : ℚ) (version : Nat)
  | checkVerified (userId : Uuid)
  | markVerified (userId : Uuid)
  | refreshVerified (userId : Uuid)
  | finished (reply : TokenReply Tok)
  | rejected
  | crashed
  deriving DecidableEq

def TokenPoint.succeeded : TokenPoint Tok → Bool
  | .finished _ => true
  | _ => false

def tokenReply (env : Env Tok) (ctx : Context) (job : TokenJob) (user : User) : TokenReply Tok :=
  match job with
  | .verifyEmail _ => .verified (userOut user)
  | .resetPassword _ => .signedIn { token := tokenFor env ctx user, user := userOut user }

def tokenAction (env : Env Tok) (ctx : Context) (job : TokenJob) :
    TokenPoint Tok → Action Accounts (TokenPoint Tok)
  | .lookup => .read fun db =>
      match getUsableEmailToken db job.purpose (env.hashEmailToken job.token) ctx.now with
      | none => .rejected
      | some token => .getUser token
  | .getUser token => .read fun db =>
      match db.users.get? token.userId with
      | none => .rejected
      | some _ => .consume token
  | .consume token =>
      .commit (fun db => some (consumeEmailToken db token ctx.now)) (.refreshToken token) .crashed
  | .refreshToken token => .read fun db =>
      match db.tokens.get? token.id with
      | none => .crashed
      | some _ =>
        match job with
        | .verifyEmail _ => .checkVerified token.userId
        | .resetPassword _ => .loadUser token.userId
  | .loadUser userId => .read fun db =>
      match db.users.get? userId with
      | none => .crashed
      | some user => .selectOutstanding user
  | .selectOutstanding user => .read fun db =>
      let rows := db.tokens.rows.filter (outstanding user.id .passwordReset)
      -- Nothing to retire means no commit, so the loaded row stays loaded.
      if rows = [] then .hashPassword user.id (some user)
      else .retire user.id (rows.map EmailToken.id)
  | .retire userId ids =>
      .commit (fun db => some (db.markUsed (·.id ∈ ids) ctx.now)) (.hashPassword userId none)
        .crashed
  | .hashPassword userId loaded => .work <|
      match job with
      | .verifyEmail _ => .crashed
      | .resetPassword body =>
        match env.hashPassword body.password ctx.salt, loaded with
        | none, _ => .crashed
        | some passwordHash, some user => .setPassword userId passwordHash (user.tokenVersion + 1)
        | some passwordHash, none => .findUser userId passwordHash
  | .setPassword userId passwordHash version =>
      .commit (fun db => some (db.writePassword userId passwordHash ctx.now version))
        (.checkVerified userId) .crashed
  -- The row is expired and its password already assigned: reading `token_version` flushes that
  -- first. The flush loads the row for its primary key and sends an UPDATE, which stays
  -- uncommitted and keeps the row locked; only then the version is read.
  | .findUser userId passwordHash => .read fun db =>
      match db.users.get? userId with
      | none => .crashed
      | some _ => .flushPassword userId passwordHash
  | .flushPassword userId passwordHash => .read fun db =>
      match db.users.get? userId with
      | none => .crashed
      | some _ => .reloadUser userId passwordHash ctx.now
  | .reloadUser userId passwordHash changedAt => .read fun db =>
      match db.users.get? userId with
      | none => .crashed
      | some user => .setVersion userId passwordHash changedAt (user.tokenVersion + 1)
  | .setVersion userId passwordHash changedAt version =>
      .commit (fun db => some (db.writePassword userId passwordHash changedAt version))
        (.checkVerified userId) .crashed
  | .checkVerified userId => .read fun db =>
      match db.users.get? userId with
      | none => .crashed
      | some user =>
        if user.emailVerifiedAt = none then .markVerified userId
        else .finished (tokenReply env ctx job user)
  | .markVerified userId =>
      .commit (fun db => some (db.writeVerified userId ctx.now)) (.refreshVerified userId) .crashed
  | .refreshVerified userId => .read fun db =>
      match db.users.get? userId with
      | none => .crashed
      | some user => .finished (tokenReply env ctx job user)
  | .finished reply => .work (.finished reply)
  | .rejected => .work .rejected
  | .crashed => .work .crashed

def tokenProgram {ι : Type} (env : Env Tok) (jobs : ι → TokenJob) (i : ι) (ctx : Context) :
    TokenPoint Tok → Action Accounts (TokenPoint Tok) :=
  tokenAction env ctx (jobs i)

/-- The row of `users` that a request keeps locked, from an UPDATE that it has sent to its commit. -/
@[simp] def TokenPoint.locks : TokenPoint Tok → Option Uuid
  | .reloadUser userId _ _ | .setVersion userId _ _ _ => some userId
  | _ => none

/-- The row of `users` that the next statement of a request updates. -/
@[simp] def TokenPoint.writes : TokenPoint Tok → Option Uuid
  | .setPassword userId _ _ | .flushPassword userId _ | .setVersion userId _ _ _
  | .markVerified userId => some userId
  | _ => none

/-- The next statement of a request does not wait for the row lock of another. -/
abbrev Unlocked {ι : Type} (c : Config ι Accounts (TokenPoint Tok)) (i : ι) : Prop :=
  Unblocked TokenPoint.locks TokenPoint.writes c i

@[simp] def TokenPoint.pending : TokenPoint Tok → Option EmailToken
  | .getUser token => some token
  | .consume token => some token
  | _ => none

@[simp] def TokenPoint.Consumed : TokenPoint Tok → Prop
  | .lookup | .getUser _ | .consume _ | .rejected | .crashed => False
  | _ => True

def TokenPoint.Passed (p : TokenPoint Tok) : Prop := (∃ token, p.pending = some token) ∨ p.Consumed

@[simp] theorem TokenPoint.passed_lookup : ¬ (lookup : TokenPoint Tok).Passed := by
  simp [Passed, pending]

@[simp] theorem TokenPoint.passed_getUser (token : EmailToken) :
    (getUser token : TokenPoint Tok).Passed := by simp [Passed, pending]

@[simp] theorem TokenPoint.passed_consume (token : EmailToken) :
    (consume token : TokenPoint Tok).Passed := by simp [Passed, pending]

@[simp] theorem TokenPoint.passed_rejected : ¬ (rejected : TokenPoint Tok).Passed := by
  simp [Passed, pending]

theorem TokenPoint.consumed_of_succeeded {p : TokenPoint Tok} (h : p.succeeded) : p.Consumed := by
  cases p <;> trivial

theorem TokenPoint.Consumed.pending_eq_none {p : TokenPoint Tok} (h : p.Consumed) :
    p.pending = none := by
  cases p <;> first | rfl | exact h.elim

theorem TokenPoint.consumed_or (p : TokenPoint Tok) :
    p.Consumed ∨ p = .lookup ∨ (∃ token, p = .getUser token) ∨ (∃ token, p = .consume token) ∨
      (p = .rejected ∨ p = .crashed) := by
  cases p <;> simp

section Perform

variable (env : Env Tok) (job : TokenJob) (db : Accounts)

theorem perform_lookup (ctx : Context) :
    (tokenAction env ctx job .lookup).perform db = (db, .rejected) ∨
      ∃ token, getUsableEmailToken db job.purpose (env.hashEmailToken job.token) ctx.now =
          some token ∧
        (tokenAction env ctx job .lookup).perform db = (db, .getUser token) := by
  simp only [tokenAction, perform_read]
  cases getUsableEmailToken db job.purpose (env.hashEmailToken job.token) ctx.now with
  | none => exact Or.inl rfl
  | some token => exact Or.inr ⟨token, rfl, rfl⟩

theorem perform_getUser (token : EmailToken) (ctx : Context) :
    (tokenAction env ctx job (.getUser token)).perform db = (db, .rejected) ∨
      (tokenAction env ctx job (.getUser token)).perform db = (db, .consume token) := by
  simp only [tokenAction, perform_read]
  cases db.users.get? token.userId with
  | none => exact Or.inl rfl
  | some _ => exact Or.inr rfl

/-- Once its token is used, a request never comes back to it. -/
theorem perform_of_consumed {p : TokenPoint Tok} (hp : p.Consumed) (ctx : Context) :
    db.Later ((tokenAction env ctx job p).perform db).1 ∧
      (((tokenAction env ctx job p).perform db).2.Consumed ∨
        ((tokenAction env ctx job p).perform db).2 = .crashed) := by
  cases p with
  | refreshToken token =>
    refine ⟨Accounts.Later.refl db, ?_⟩
    simp only [tokenAction, perform_read]
    cases db.tokens.get? token.id with
    | none => exact Or.inr rfl
    | some _ => cases job <;> exact Or.inl trivial
  | selectOutstanding user =>
    refine ⟨Accounts.Later.refl db, ?_⟩
    simp only [tokenAction, perform_read]
    split_ifs <;> exact Or.inl trivial
  | retire userId ids =>
    simp only [tokenAction, perform_commit_some]
    exact ⟨Accounts.markUsed_later _ _ _, Or.inl trivial⟩
  | hashPassword userId loaded =>
    refine ⟨Accounts.Later.refl db, ?_⟩
    cases job with
    | verifyEmail body => exact Or.inr rfl
    | resetPassword body =>
      simp only [tokenAction, perform_work]
      cases env.hashPassword body.password ctx.salt with
      | none => exact Or.inr rfl
      | some _ => cases loaded <;> exact Or.inl trivial
  | loadUser userId | findUser userId _ | flushPassword userId _ | reloadUser userId _ _
  | refreshVerified userId =>
    refine ⟨Accounts.Later.refl db, ?_⟩
    simp only [tokenAction, perform_read]
    cases db.users.get? userId with
    | none => exact Or.inr rfl
    | some _ => exact Or.inl trivial
  | setPassword | setVersion | markVerified =>
    simp only [tokenAction, perform_commit_some]
    exact ⟨Accounts.mapUsers_later _ _ _, Or.inl trivial⟩
  | checkVerified userId =>
    refine ⟨Accounts.Later.refl db, ?_⟩
    simp only [tokenAction, perform_read]
    cases db.users.get? userId with
    | none => exact Or.inr rfl
    | some _ =>
      dsimp only
      split_ifs <;> exact Or.inl trivial
  | finished reply => exact ⟨Accounts.Later.refl db, Or.inl trivial⟩
  | lookup | getUser | consume | rejected | crashed => exact hp.elim

end Perform

-- An account to run the requests on: one user, to whom a link of each kind was mailed.
def owner : User where
  id := 1
  email := "owner@example.com"
  passwordHash := "bcrypt:old password"
  passwordChangedAt := 0

def resetLink : EmailToken where
  id := 1
  userId := 1
  purpose := .passwordReset
  tokenHash := "sha256:link"
  expiresAt := 1800

def verifyLink : EmailToken where
  id := 2
  userId := 1
  purpose := .verifyEmail
  tokenHash := "sha256:verify"
  expiresAt := 86400

def ownerAccounts : Accounts where
  users := ⟨[owner], by decide⟩
  tokens := ⟨[resetLink, verifyLink], by decide⟩
  emails_nodup := by decide
  hashes_nodup := by decide
  tokens_owned := by decide

end StockQuant
