import StockQuant.AuthEffects
import StockQuant.LastWrite
import StockQuant.LoginOracle

/-! The password that an account has after a run of requests, and the passwords it then
lets in. -/

namespace StockQuant

open KeyedTable LastWrite

variable {Tok : Type} {env : Env Tok} {ctx : Context} {app : App}

/-- The account and the password that an answered request has set. -/
def Answered.passwordSet (a : Answered Tok) : Option (Uuid × Option String) :=
  match a.request.call, a.result with
  | .register body, .ok { response := some response, .. } =>
    some (response.user.id, some body.password)
  | .resetPassword body, .ok { response := some response, .. } =>
    some (response.user.id, some body.password)
  | _, _ => none

def passwordAfter (log : List (Answered Tok)) : Uuid → Option String :=
  written (fun _ => none) (log.filterMap Answered.passwordSet)

def StoredPassword (env : Env Tok) (db : Accounts) (userId : Uuid) (password : String) : Prop :=
  ∃ user ∈ db.users.rows, user.id = userId ∧
    ∃ salt, env.hashPassword password salt = some user.passwordHash

theorem register_eq_ok {app' : App} {body : RegisterRequest} {response : AuthResponse Tok}
    {mails : List Mail} (h : register env ctx body app = (app', .ok (response, mails))) :
    ∃ user ∈ app'.db.users.rows, user.id = response.user.id ∧
      env.hashPassword body.password ctx.salt = some user.passwordHash := by
  unfold register at h
  split at h
  · cases h
  · dsimp only at h
    split_ifs at h
    · cases h
    · split at h
      · cases h
      · next passwordHash hhash =>
        split at h
        · cases h
        · next user db₁ hcreate =>
          split at h
          · cases h
          · next db₂ mail hissue =>
            cases h
            have husers := issueEmailToken_users env ctx db₁ user .verifyEmail
              env.emailVerifyTtlMinutes
            have hissue : issueEmailToken env ctx db₁ user .verifyEmail env.emailVerifyTtlMinutes =
              (db₂, some mail) := hissue
            rw [hissue] at husers
            refine ⟨user, ?_, rfl, ?_⟩
            · rw [husers, (insertUser_eq_some (createUser_eq_some hcreate).1).2.1]
              exact List.mem_cons_self
            · rw [createUser_user hcreate]
              exact hhash

theorem setPassword_get? {db : Accounts} {user : User} {passwordHash : String} {now : ℚ}
    {row : User} (h : (setPassword db user passwordHash now).users.get? user.id = some row) :
    row.passwordHash = passwordHash := by
  unfold setPassword Accounts.writePassword Accounts.mapUsers at h
  rw [Table.get?_map] at h
  obtain ⟨old, hold, rfl⟩ := Option.map_eq_some_iff.mp h
  rw [if_pos (Table.get?_eq_some_iff.mp hold).2]

theorem markEmailVerified_get?_hash {db : Accounts} {user : User} {now : ℚ} {userId : Uuid}
    {row : User} (h : (markEmailVerified db user now).users.get? userId = some row) :
    ∃ old, db.users.get? userId = some old ∧ old.passwordHash = row.passwordHash := by
  unfold markEmailVerified Accounts.writeVerified Accounts.mapUsers at h
  split_ifs at h
  · rw [Table.get?_map] at h
    obtain ⟨old, hold, rfl⟩ := Option.map_eq_some_iff.mp h
    refine ⟨old, hold, ?_⟩
    split <;> rfl
  · exact ⟨row, h, rfl⟩

theorem resetPassword_eq_ok {app' : App} {body : ResetPasswordRequest}
    {response : AuthResponse Tok} (h : resetPassword env ctx body app = (app', .ok response)) :
    ∃ user ∈ app'.db.users.rows, user.id = response.user.id ∧
      env.hashPassword body.password ctx.salt = some user.passwordHash := by
  unfold resetPassword at h
  split at h
  · cases h
  · next token husable =>
    split at h
    · cases h
    · next user huser =>
      dsimp only at h
      split at h
      · cases h
      · next passwordHash hhash =>
        split at h
        · cases h
        · next row hrow =>
          cases h
          obtain ⟨old, hold, hkept⟩ := markEmailVerified_get?_hash hrow
          refine ⟨row, (Table.get?_eq_some_iff.mp hrow).1, rfl, ?_⟩
          rw [hhash, ← hkept, setPassword_get? hold]

/-- An answered request that sets a password has stored it. -/
theorem answer_stores {call : AuthCall Tok} {readAt : Nat} {userId : Uuid} {password : Option String}
    (h : Answered.passwordSet
      { request := { ctx, call }, result := (answer env ctx app call).2, readAt } =
        some (userId, password)) :
    ∃ p, password = some p ∧ StoredPassword env (answer env ctx app call).1.db userId p := by
  cases call with
  | register body =>
    rcases hregister : register env ctx body app with ⟨app', failure | ⟨response, mails⟩⟩
    · simp [Answered.passwordSet, answer, hregister, Except.map] at h
    · obtain ⟨user, huser, hid, hhash⟩ := register_eq_ok hregister
      simp only [Answered.passwordSet, answer, hregister, Prod.map, Except.map, id,
        Option.some.injEq, Prod.mk.injEq] at h ⊢
      obtain ⟨rfl, rfl⟩ := h
      exact ⟨_, rfl, user, huser, hid, ctx.salt, hhash⟩
  | resetPassword body =>
    rcases hreset : resetPassword env ctx body app with ⟨app', failure | response⟩
    · simp [Answered.passwordSet, answer, hreset, Except.map] at h
    · obtain ⟨user, huser, hid, hhash⟩ := resetPassword_eq_ok hreset
      simp only [Answered.passwordSet, answer, hreset, Prod.map, Except.map, id,
        Option.some.injEq, Prod.mk.injEq] at h ⊢
      obtain ⟨rfl, rfl⟩ := h
      exact ⟨_, rfl, user, huser, hid, ctx.salt, hhash⟩
  | _ => simp [Answered.passwordSet] at h

theorem mem_setPassword {db : Accounts} {owner user : User} (hne : user.id ≠ owner.id)
    (passwordHash : String) (now : ℚ) (huser : user ∈ db.users.rows) :
    user ∈ (setPassword db owner passwordHash now).users.rows :=
  List.mem_map.mpr ⟨user, huser, if_neg hne⟩

theorem mem_markEmailVerified_hash {db : Accounts} (verified : User) (now : ℚ) {user : User}
    (huser : user ∈ db.users.rows) :
    ∃ user' ∈ (markEmailVerified db verified now).users.rows,
      user'.id = user.id ∧ user'.passwordHash = user.passwordHash := by
  unfold markEmailVerified
  split_ifs
  · refine ⟨_, List.mem_map.mpr ⟨user, huser, rfl⟩, ?_⟩
    split <;> exact ⟨rfl, rfl⟩
  · exact ⟨user, huser, rfl, rfl⟩

/-- A user keeps the hash in every request but a reset that is answered for it. -/
theorem Effect.hash {db db' : Accounts} {call : AuthCall Tok} {result : Except Failure (Reply Tok)}
    (h : Effect env ctx db call db' result) {user : User} (huser : user ∈ db.users.rows) :
    (∃ user' ∈ db'.users.rows, user'.id = user.id ∧ user'.passwordHash = user.passwordHash) ∨
      ∃ body response, call = .resetPassword body ∧
        result = .ok { response := some response } ∧ response.user.id = user.id := by
  cases h with
  | failed => exact Or.inl ⟨user, huser, rfl, rfl⟩
  | nothing => exact Or.inl ⟨user, huser, rfl, rfl⟩
  | issued => exact Or.inl ⟨user, by rwa [issueEmailToken_users], rfl, rfl⟩
  | registered body new db₁ hinsert =>
    refine Or.inl ⟨user, ?_, rfl, rfl⟩
    rw [issueEmailToken_users, (insertUser_eq_some hinsert).2.1]
    exact List.mem_cons_of_mem _ huser
  | verified => exact Or.inl (mem_markEmailVerified_hash _ _ huser)
  | burned => exact Or.inl ⟨user, huser, rfl, rfl⟩
  | reset body token owner row passwordHash _ _ hrow =>
    by_cases hown : owner.id = user.id
    · exact Or.inr ⟨body, _, rfl, rfl, (Table.get?_eq_some_iff.mp hrow).2.trans hown⟩
    · have hne : user.id ≠ owner.id := fun heq => hown heq.symm
      exact Or.inl (mem_markEmailVerified_hash owner ctx.now (mem_setPassword hne _ _ huser))

theorem passwordAfter_snoc (log : List (Answered Tok)) (a : Answered Tok) (userId : Uuid) :
    passwordAfter (log ++ [a]) userId =
      match a.passwordSet with
      | none => passwordAfter log userId
      | some w => if userId = w.1 then w.2 else passwordAfter log userId := by
  unfold passwordAfter
  rw [List.filterMap_append]
  cases hset : a.passwordSet with
  | none => simp [hset]
  | some w => simp [hset, written_snoc_apply]

def PasswordsStored (env : Env Tok) (db : Accounts) (log : List (Answered Tok)) : Prop :=
  ∀ userId p, passwordAfter log userId = some p → StoredPassword env db userId p

theorem PasswordsStored.keep {db db' : Accounts} {log : List (Answered Tok)} {a : Answered Tok}
    (h : PasswordsStored env db log)
    (hkept : ∀ user ∈ db.users.rows,
      (∃ user' ∈ db'.users.rows, user'.id = user.id ∧ user'.passwordHash = user.passwordHash) ∨
        ∃ password, a.passwordSet = some (user.id, password))
    (hset : ∀ userId password, a.passwordSet = some (userId, password) →
      ∃ p, password = some p ∧ StoredPassword env db' userId p) :
    PasswordsStored env db' (log ++ [a]) := by
  intro userId p hp
  rw [passwordAfter_snoc] at hp
  have hold (hp : passwordAfter log userId = some p)
      (hother : ∀ password, a.passwordSet ≠ some (userId, password)) :
      StoredPassword env db' userId p := by
    obtain ⟨user, huser, rfl, salt, hhash⟩ := h _ _ hp
    rcases hkept user huser with ⟨user', huser', hid, hsame⟩ | ⟨password, hown⟩
    · exact ⟨user', huser', hid, salt, hsame ▸ hhash⟩
    · exact absurd hown (hother password)
  cases hw : a.passwordSet with
  | none =>
    simp only [hw] at hp
    exact hold hp (by simp [hw])
  | some w =>
    obtain ⟨w, password⟩ := w
    simp only [hw] at hp
    split_ifs at hp with heq
    · obtain ⟨p', hp', hstored⟩ := hset _ _ hw
      obtain rfl : p' = p := Option.some.inj (hp'.symm.trans hp)
      rwa [heq]
    · refine hold hp fun password' hsome => heq ?_
      rw [hw] at hsome
      exact (Prod.mk.inj (Option.some.inj hsome)).1.symm

theorem passwordsStored_handle {s : AuthState Tok} (h : PasswordsStored env s.app.db s.log)
    (r : AuthRequest Tok) :
    PasswordsStored env (s.handle env r).app.db (s.handle env r).log := by
  have heffect := answer_effect env r.ctx s.app r.call
  rcases answered_cases env s r with ⟨k, readAt, user, hcall, -, hanswered⟩ | hanswered
  · have hset : (s.answered env r).passwordSet = none := by
      simp [hanswered, Answered.passwordSet, hcall]
    have hnone : ∀ userId password,
        (s.answered env r).passwordSet ≠ some (userId, password) := by simp [hset]
    refine h.keep (fun user huser => ?_) fun userId password hsome => absurd hsome (hnone _ _)
    rcases heffect.hash huser with hkept | ⟨body, response, hcall', -⟩
    · exact Or.inl hkept
    · rw [hcall] at hcall'
      cases hcall'
  · refine h.keep (fun user huser => ?_) fun userId password hset => ?_
    · rcases heffect.hash huser with hkept | ⟨body, response, hcall, hok, hown⟩
      · exact Or.inl hkept
      · refine Or.inr ⟨some body.password, ?_⟩
        simp [hanswered, Answered.passwordSet, hcall, ← hown, hcall ▸ hok]
    · rw [hanswered] at hset
      exact answer_stores hset

theorem passwordsStored_run (requests : List (AuthRequest Tok)) :
    PasswordsStored env (runAuth env { app } requests).app.db
      (runAuth env { app } requests).log := by
  induction requests using List.reverseRecOn with
  | nil =>
    intro userId p hp
    simp [runAuth, passwordAfter] at hp
  | append_singleton requests r ih =>
    rw [runAuth_snoc]
    exact passwordsStored_handle ih r

theorem checkPassword_eq_ok_iff (hbcrypt : Bcrypt env) {a : LoginAttempt} {db : Accounts}
    {user : User} {p salt : String} (hreads : a.readsUser env db = some user)
    (hhash : env.hashPassword p salt = some user.passwordHash) :
    (∃ row, checkPassword env a.body db = .ok row) ↔
      '\x00' ∉ a.body.password.toList ∧ bcryptBytes a.body.password = bcryptBytes p := by
  have hreads : getUserByEmail env.lower db (normalizeEmail env.lower a.body.email) = some user :=
    hreads
  rw [← hbcrypt.verify_hash hhash]
  unfold checkPassword
  simp only [hreads]
  rcases env.verifyPassword a.body.password user.passwordHash with _ | _ | _ <;> simp

/-- After any run, a login to an account whose password was last set to `p` is refused
exactly when a counter stops it, its password has a NUL character, or its password differs
from `p` in the first 72 bytes. -/
theorem login_refused_iff (hbcrypt : Bcrypt env) {requests : List (AuthRequest Tok)}
    {s : AuthState Tok} (hs : s = runAuth env { app } requests) {a : LoginAttempt} {user : User}
    {p : String} (hreads : a.readsUser env s.app.db = some user)
    (hset : passwordAfter s.log user.id = some p) :
    (¬ ∃ response, (login env a.ctx a.body s.app).2 = .ok response) ↔
      (loginLimits env a s.app.limiter).2 ≠ none ∨ '\x00' ∈ a.body.password.toList ∨
        bcryptBytes a.body.password ≠ bcryptBytes p := by
  subst hs
  obtain ⟨row, hrow, hid, salt, hhash⟩ := passwordsStored_run requests _ _ hset
  obtain rfl : row = user := Table.eq_of_key hrow (List.mem_of_find?_eq_some hreads) hid
  rw [login_result]
  cases hlimits : (loginLimits env a (runAuth env { app } requests).app.limiter).2 with
  | some exception => simp [loginAnswer]
  | none =>
    have hok := checkPassword_eq_ok_iff hbcrypt hreads hhash
    have hanswer : (∃ response, loginAnswer env a (runAuth env { app } requests).app.db none =
        .ok response) ↔ ∃ row, checkPassword env a.body (runAuth env { app } requests).app.db =
          .ok row := by
      dsimp only [loginAnswer]
      cases checkPassword env a.body (runAuth env { app } requests).app.db with
      | error failure => simp [Except.map]
      | ok row => simp [Except.map]
    rw [hanswer, hok]
    simp only [ne_eq, not_true_eq_false, false_or, not_and_or, not_not]

/-- Two passwords of 25 characters that differ past byte 72. -/
def longPassword (last : Char) : String := String.ofList (List.replicate 24 '密' ++ [last])

def longRegistration : RegisterRequest :=
  { ownerRegistration with password := longPassword 'a', password_length := by decide +kernel }

def longSignIn : LoginAttempt where
  ctx := plainContext 60
  body := { ownerLogin with password := longPassword 'b', password_length := by decide +kernel }

def afterLong : AuthState Payload :=
  runAuth bcryptEnv { app := freshApp }
    [{ ctx := plainContext 0, call := .register longRegistration }]

def longOwner : User :=
  { accountHolder with passwordHash := plainHash (longPassword 'a') }

theorem login_refused_iff_long :
    (¬ ∃ response, (login bcryptEnv longSignIn.ctx longSignIn.body afterLong.app).2 =
        .ok response) ↔
      (loginLimits bcryptEnv longSignIn afterLong.app.limiter).2 ≠ none ∨
        '\x00' ∈ longSignIn.body.password.toList ∨
        bcryptBytes longSignIn.body.password ≠ bcryptBytes (longPassword 'a') :=
  login_refused_iff bcrypt_bcryptEnv (show afterLong = runAuth bcryptEnv _ _ from rfl)
    (show longSignIn.readsUser bcryptEnv afterLong.app.db = some longOwner by decide +kernel)
    (show passwordAfter afterLong.log longOwner.id = some (longPassword 'a') by decide +kernel)

theorem login_accepts_truncated :
    passwordAfter afterLong.log longOwner.id = some (longPassword 'a') ∧
      longSignIn.body.password ≠ longPassword 'a' ∧
      (login bcryptEnv longSignIn.ctx longSignIn.body afterLong.app).2.isOk := by
  decide +kernel

end StockQuant
