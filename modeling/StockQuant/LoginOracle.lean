import StockQuant.Passwords
import StockQuant.Responses

/-! What the answer to a login tells about the address it names. -/

namespace StockQuant

variable {Tok : Type} {env : Env Tok}

def loginResponse (env : Env Tok) (a : LoginAttempt) (app : App) : Response (AuthResponse Tok) :=
  respond 200 (login env a.ctx a.body app).2

def LoginAttempt.readsUser (env : Env Tok) (a : LoginAttempt) (db : Accounts) : Option User :=
  getUserByEmail env.lower db (a.email env)

theorem checkPassword_unregistered {a : LoginAttempt} {db : Accounts}
    (h : a.readsUser env db = none) :
    checkPassword env a.body db = .error (.http invalidLogin) := by
  have h : getUserByEmail env.lower db (normalizeEmail env.lower a.body.email) = none := h
  simp [checkPassword, h]

theorem checkPassword_wrong {a : LoginAttempt} {db : Accounts} {user : User}
    (h : a.readsUser env db = some user)
    (hwrong : env.verifyPassword a.body.password user.passwordHash ≠ some true) :
    checkPassword env a.body db =
      if env.verifyPassword a.body.password user.passwordHash = none then .error .crash
      else .error (.http invalidLogin) := by
  have h : getUserByEmail env.lower db (normalizeEmail env.lower a.body.email) = some user := h
  unfold checkPassword
  simp only [h]
  rcases hverify : env.verifyPassword a.body.password user.passwordHash with _ | _ | _
  · simp
  · simp
  · exact absurd hverify hwrong

/-- A login with a password that is not the account's is answered as if the address had
no account, unless the verifier gets to see a NUL character. -/
theorem loginResponse_eq_iff (hraises : ∀ password hash,
      env.verifyPassword password hash = none ↔ '\x00' ∈ password.toList)
    (a : LoginAttempt) {limiter : SlidingWindowLimiter} {db db' : Accounts} {user : User}
    (hunregistered : a.readsUser env db = none) (hregistered : a.readsUser env db' = some user)
    (hwrong : env.verifyPassword a.body.password user.passwordHash ≠ some true) :
    loginResponse env a ⟨db, limiter⟩ = loginResponse env a ⟨db', limiter⟩ ↔
      (loginLimits env a limiter).2 ≠ none ∨ '\x00' ∉ a.body.password.toList := by
  unfold loginResponse
  rw [login_result, login_result]
  cases hlimits : (loginLimits env a limiter).2 with
  | some exception => simp [loginAnswer]
  | none =>
    have hnul := hraises a.body.password user.passwordHash
    dsimp only [loginAnswer]
    rw [checkPassword_unregistered hunregistered, checkPassword_wrong hregistered hwrong]
    by_cases hraise : env.verifyPassword a.body.password user.passwordHash = none
    · simp [hraise, hnul.mp hraise, respond, Except.map, invalidLogin]
    · have hclean : '\x00' ∉ a.body.password.toList := fun h => hraise (hnul.mpr h)
      simp [hraise, hclean]

/-- A login with a password that begins with a NUL. -/
def nulSignIn : LoginAttempt where
  ctx := plainContext 0
  body := { email := "owner@example.com", password := "\x00", password_length := by decide }

def accountHolder : User where
  id := 1
  email := "owner@example.com"
  passwordHash := plainHash "old password"
  passwordChangedAt := 0

def ownerOnly : Accounts := (Accounts.empty.insertUser accountHolder).get (by decide +kernel)

theorem loginResponse_eq_iff_nul :
    loginResponse bcryptEnv nulSignIn ⟨Accounts.empty, { lastSweep := 0 }⟩ =
        loginResponse bcryptEnv nulSignIn ⟨ownerOnly, { lastSweep := 0 }⟩ ↔
      (loginLimits bcryptEnv nulSignIn { lastSweep := 0 }).2 ≠ none ∨
        '\x00' ∉ nulSignIn.body.password.toList :=
  loginResponse_eq_iff (fun _ _ => bcrypt_bcryptEnv.verify_raises) nulSignIn
    (show nulSignIn.readsUser bcryptEnv Accounts.empty = none by decide +kernel)
    (show nulSignIn.readsUser bcryptEnv ownerOnly = some accountHolder by decide +kernel)
    (by decide +kernel)

theorem loginResponse_reveals_owner :
    Accounts.empty.insertUser accountHolder = some ownerOnly ∧
      bcryptEnv.verifyPassword nulSignIn.body.password accountHolder.passwordHash ≠ some true ∧
      (loginResponse bcryptEnv nulSignIn ⟨Accounts.empty, { lastSweep := 0 }⟩).statusCode = 401 ∧
      (loginResponse bcryptEnv nulSignIn ⟨ownerOnly, { lastSweep := 0 }⟩).statusCode = 500 := by
  decide +kernel

end StockQuant
