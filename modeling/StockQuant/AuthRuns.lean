import Mathlib.Data.List.Induction
import StockQuant.AuthHandlers

/-! Runs of the auth endpoints: each request on its own, except that a login answers
some time after it has read its user. -/

namespace StockQuant

variable {Tok : Type}

inductive AuthCall (Tok : Type) where
  | register (body : RegisterRequest)
  | checkLogin (body : LoginRequest)
  /-- The answer to one of the logins that are past the check. -/
  | answerLogin (k : Nat)
  | verifyEmail (body : VerifyEmailRequest)
  | resendVerification (credentials : Option Tok)
  | forgotPassword (body : ForgotPasswordRequest)
  | resetPassword (body : ResetPasswordRequest)
  | me (credentials : Option Tok)

def AuthCall.presents : AuthCall Tok → Option (Purpose × String)
  | .verifyEmail body => some (.verifyEmail, body.token)
  | .resetPassword body => some (.passwordReset, body.token)
  | _ => none

structure AuthRequest (Tok : Type) where
  ctx : Context
  call : AuthCall Tok

structure Reply (Tok : Type) where
  response : Option (AuthResponse Tok) := none
  mails : List Mail := []

def answer (env : Env Tok) (ctx : Context) (app : App) :
    AuthCall Tok → App × Except Failure (Reply Tok)
  | .register body =>
    (register env ctx body app).map id
      (Except.map fun reply => { response := some reply.1, mails := reply.2 })
  | .checkLogin body => (loginUser env ctx body app).map id (Except.map fun _ => {})
  | .answerLogin _ => (app, .ok {})
  | .verifyEmail body => (verifyEmail env ctx body app).map id (Except.map fun _ => {})
  | .resendVerification credentials =>
    (resendVerification env ctx credentials app).map id (Except.map fun reply => { mails := reply.2 })
  | .forgotPassword body =>
    (forgotPassword env ctx body app).map id (Except.map fun reply => { mails := reply.2 })
  | .resetPassword body =>
    (resetPassword env ctx body app).map id (Except.map fun response => { response := some response })
  | .me credentials =>
    (app, ((getCurrentUser env app.db credentials ctx.now).mapError Failure.http).map fun _ => {})

/-- A request that was answered, and the place in the log at which the user row behind
its answer was read. -/
structure Answered (Tok : Type) where
  request : AuthRequest Tok
  result : Except Failure (Reply Tok)
  readAt : Nat

structure AuthState (Tok : Type) where
  app : App
  checked : List (Nat × User) := []
  log : List (Answered Tok) := []

def loginReply (env : Env Tok) (ctx : Context) (user : User) : Reply Tok where
  response := some { token := tokenFor env ctx user, user := userOut user }

def AuthState.checkedAfter (env : Env Tok) (s : AuthState Tok) (r : AuthRequest Tok) :
    List (Nat × User) :=
  match r.call with
  | .checkLogin body =>
    match (loginUser env r.ctx body s.app).2 with
    | .ok user => s.checked ++ [(s.log.length, user)]
    | .error _ => s.checked
  | .answerLogin k => s.checked.eraseIdx k
  | _ => s.checked

def AuthState.answered (env : Env Tok) (s : AuthState Tok) (r : AuthRequest Tok) : Answered Tok :=
  match r.call with
  | .answerLogin k =>
    match s.checked[k]? with
    | some (readAt, user) =>
      { request := r, result := .ok (loginReply env r.ctx user), readAt }
    | none => { request := r, result := .ok {}, readAt := s.log.length }
  | call =>
    { request := r, result := (answer env r.ctx s.app call).2, readAt := s.log.length }

def AuthState.handle (env : Env Tok) (s : AuthState Tok) (r : AuthRequest Tok) :
    AuthState Tok where
  app := (answer env r.ctx s.app r.call).1
  checked := s.checkedAfter env r
  log := s.log ++ [s.answered env r]

def runAuth (env : Env Tok) (s : AuthState Tok) (requests : List (AuthRequest Tok)) :
    AuthState Tok :=
  requests.foldl (AuthState.handle env) s

section Runs

variable (env : Env Tok) (s : AuthState Tok)

theorem answered_cases (r : AuthRequest Tok) :
    (∃ k readAt user, r.call = .answerLogin k ∧ s.checked[k]? = some (readAt, user) ∧
        s.answered env r = { request := r, result := .ok (loginReply env r.ctx user), readAt }) ∨
      s.answered env r =
        { request := r, result := (answer env r.ctx s.app r.call).2, readAt := s.log.length } := by
  obtain ⟨ctx, call⟩ := r
  cases call with
  | answerLogin k =>
    unfold AuthState.answered
    dsimp only
    cases hk : s.checked[k]? with
    | none => exact Or.inr rfl
    | some checked => exact Or.inl ⟨k, checked.1, checked.2, rfl, hk, rfl⟩
  | _ => exact Or.inr rfl

theorem answered_request (r : AuthRequest Tok) : (s.answered env r).request = r := by
  rcases answered_cases env s r with ⟨k, readAt, user, -, -, h⟩ | h <;> rw [h]

theorem runAuth_snoc (requests : List (AuthRequest Tok)) (r : AuthRequest Tok) :
    runAuth env s (requests ++ [r]) = (runAuth env s requests).handle env r := by
  simp [runAuth]

theorem runAuth_requests (requests : List (AuthRequest Tok)) :
    (runAuth env s requests).log.map Answered.request = s.log.map Answered.request ++ requests := by
  induction requests using List.reverseRecOn with
  | nil => simp [runAuth]
  | append_singleton requests r ih =>
    rw [runAuth_snoc, AuthState.handle, List.map_append, ih, List.map_singleton, answered_request,
      List.append_assoc]

/-- A login that nothing comes between is its check followed by its answer. -/
theorem runAuth_login {ctx : Context} {body : LoginRequest} {response : AuthResponse Tok}
    (h : (login env ctx body s.app).2 = .ok response) :
    (runAuth env s [{ ctx, call := .checkLogin body },
        { ctx, call := .answerLogin s.checked.length }]) =
      { app := (login env ctx body s.app).1
        checked := s.checked
        log := s.log ++
          [{ request := { ctx, call := .checkLogin body }, result := .ok {},
             readAt := s.log.length },
           { request := { ctx, call := .answerLogin s.checked.length },
             result := .ok { response := some response }, readAt := s.log.length }] } := by
  unfold login at h ⊢
  rcases huser : loginUser env ctx body s.app with ⟨app, failure | user⟩
  · simp [huser] at h
  · simp only [huser] at h ⊢
    obtain rfl := Except.ok.inj h
    have hchecked : (s.checked ++ [(s.log.length, user)]).eraseIdx s.checked.length = s.checked := by
      rw [List.eraseIdx_append_of_length_le le_rfl]
      simp
    simp [runAuth, AuthState.handle, AuthState.answered, AuthState.checkedAfter, answer, huser,
      loginReply, hchecked, Except.map]

end Runs

end StockQuant
