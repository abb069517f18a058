import StockQuant.TokenSessions

/-! A password reset that stops after some number of its statements. -/

namespace StockQuant

open ReadCommitted KeyedTable

variable {Tok : Type}

/-- The tables and the request after `n` statements, `ctx k` being what the `k`-th
statement has at hand. -/
def resetAlone (env : Env Tok) (ctx : ℕ → Context) (body : ResetPasswordRequest) (db : Accounts) :
    ℕ → Accounts × TokenPoint Tok :=
  alone (fun ctx => tokenAction env ctx (.resetPassword body)) ctx (db, .lookup)

def othersOutstanding (db : Accounts) (token : EmailToken) : Bool :=
  db.tokens.rows.any fun row => row.id ≠ token.id && outstanding token.userId .passwordReset row

def hashStatement (db : Accounts) (token : EmailToken) : ℕ :=
  if othersOutstanding db token then 7 else 6

/-- With other links retired, the row has to be loaded, flushed under its new password and
loaded again before the version is written. -/
def passwordCommit (db : Accounts) (token : EmailToken) : ℕ :=
  if othersOutstanding db token then 12 else 8

def lastCommit (db : Accounts) (token : EmailToken) (user : User) : ℕ :=
  if user.emailVerified then passwordCommit db token else passwordCommit db token + 2

/-- The link is not usable, or the request stops before its first commit, or it gets
through its last one. -/
def StopsSafely (env : Env Tok) (ctx : ℕ → Context) (body : ResetPasswordRequest)
    (db : Accounts) (n : ℕ) : Prop :=
  ∀ token ∈ getUsableEmailToken db .passwordReset (env.hashEmailToken body.token) (ctx 0).now,
    n < 3 ∨ (env.hashPassword body.password (ctx (hashStatement db token)).salt).isSome ∧
      ∀ user ∈ db.users.get? token.userId, lastCommit db token user ≤ n

structure Applied (env : Env Tok) (body : ResetPasswordRequest) (token : EmailToken) (user : User)
    (db : Accounts) : Prop where
  used : ∃ row ∈ db.tokens.rows, row.id = token.id ∧ row.usedAt ≠ none
  retired : ∀ row ∈ db.tokens.rows, ¬ outstanding user.id .passwordReset row
  changed : ∃ row salt, db.users.get? user.id = some row ∧
    env.hashPassword body.password salt = some row.passwordHash ∧
    row.tokenVersion = user.tokenVersion + 1 ∧ row.emailVerified

def AllEffects (env : Env Tok) (body : ResetPasswordRequest) (db db' : Accounts) : Prop :=
  ∃ token user, findEmailToken db .passwordReset (env.hashEmailToken body.token) = some token ∧
    db.users.get? token.userId = some user ∧ Applied env body token user db'

section Stages

variable (env : Env Tok) (ctx : ℕ → Context) (body : ResetPasswordRequest) (db : Accounts)
  (token : EmailToken) (user : User)

def hashed : Option String := env.hashPassword body.password (ctx (hashStatement db token)).salt

structure Burned (db' : Accounts) : Prop where
  users : db'.users = db.users
  used : ∃ row ∈ db'.tokens.rows, row.id = token.id ∧ row.usedAt ≠ none

def Retired (db' : Accounts) : Prop :=
  ∀ row ∈ db'.tokens.rows, ¬ outstanding user.id .passwordReset row

structure Changed (verified : Bool) (db' : Accounts) : Prop where
  used : ∃ row ∈ db'.tokens.rows, row.id = token.id ∧ row.usedAt ≠ none
  retired : Retired user db'
  changed : ∃ row, db'.users.get? user.id = some row ∧
    hashed env ctx body db token = some row.passwordHash ∧
    row.tokenVersion = user.tokenVersion + 1 ∧ row.emailVerified = verified

/-- What holds from the hash of the password to its commit when other links were retired. -/
structure Expired (userId : Uuid) (hash : String) (db' : Accounts) : Prop where
  others : othersOutstanding db token
  burned : Burned db token db'
  retired : Retired user db'
  user : userId = user.id
  hashes : hashed env ctx body db token = some hash

/-- What holds at each statement of a reset whose link is usable. -/
def ResetAt (n : ℕ) (s : Accounts × TokenPoint Tok) : Prop :=
  let consumed := consumeEmailToken db token (ctx 2).now
  match s.2 with
  | .lookup => n = 0 ∧ s.1 = db
  | .getUser t => n = 1 ∧ s.1 = db ∧ t = token
  | .consume t => n = 2 ∧ s.1 = db ∧ t = token
  | .refreshToken t => n = 3 ∧ s.1 = consumed ∧ t = token
  | .loadUser userId => n = 4 ∧ s.1 = consumed ∧ userId = user.id
  | .selectOutstanding loaded => n = 5 ∧ s.1 = consumed ∧ loaded = user
  | .retire userId ids => n = 6 ∧ othersOutstanding db token ∧ s.1 = consumed ∧ userId = user.id ∧
      ids = (consumed.tokens.rows.filter (outstanding user.id .passwordReset)).map EmailToken.id
  | .hashPassword userId loaded => n = hashStatement db token ∧ Burned db token s.1 ∧
      Retired user s.1 ∧ userId = user.id ∧
      loaded = if othersOutstanding db token then none else some user
  | .setPassword userId hash version => n + 1 = passwordCommit db token ∧ Burned db token s.1 ∧
      Retired user s.1 ∧ userId = user.id ∧ hashed env ctx body db token = some hash ∧
      version = user.tokenVersion + 1
  | .findUser userId hash => n = 8 ∧ Expired env ctx body db token user userId hash s.1
  | .flushPassword userId hash => n = 9 ∧ Expired env ctx body db token user userId hash s.1
  | .reloadUser userId hash _ => n = 10 ∧ Expired env ctx body db token user userId hash s.1
  | .setVersion userId hash _ version => n = 11 ∧
      Expired env ctx body db token user userId hash s.1 ∧ version = user.tokenVersion + 1
  | .checkVerified userId => n = passwordCommit db token ∧ userId = user.id ∧
      Changed env ctx body db token user user.emailVerified s.1
  | .markVerified userId => n = passwordCommit db token + 1 ∧ userId = user.id ∧
      user.emailVerified = false ∧ Changed env ctx body db token user false s.1
  | .refreshVerified userId => n = lastCommit db token user ∧ userId = user.id ∧
      Changed env ctx body db token user true s.1
  | .finished _ => lastCommit db token user ≤ n ∧ Changed env ctx body db token user true s.1
  | .rejected => False
  | .crashed => 3 ≤ n ∧ Burned db token s.1 ∧ hashed env ctx body db token = none

end Stages

section Reset

variable {env : Env Tok} {ctx : ℕ → Context} {body : ResetPasswordRequest} {db db' : Accounts}
  {token : EmailToken} {user : User}

theorem burned_consume (htoken : token ∈ db.tokens.rows) (now : ℚ) :
    Burned db token (consumeEmailToken db token now) :=
  ⟨rfl, _, (Table.get?_eq_some_iff.mp (consumeEmailToken_get? htoken now)).1, rfl, by simp⟩

theorem outstanding_consume (db : Accounts) (token : EmailToken) (now : ℚ) :
    (consumeEmailToken db token now).tokens.rows.filter (outstanding token.userId .passwordReset) =
      [] ↔ ¬ othersOutstanding db token := by
  simp only [consumeEmailToken, Accounts.markUsed, Table.rows_map, List.filter_eq_nil_iff,
    List.forall_mem_map, othersOutstanding, List.any_eq_true, not_exists, not_and]
  refine forall₂_congr fun row _ => ?_
  by_cases hid : row.id = token.id <;> simp [hid, outstanding]

theorem Burned.markUsed (h : Burned db token db') (p : EmailToken → Bool) (now : ℚ) :
    Burned db token (db'.markUsed p now) := by
  obtain ⟨row, hrow, hid, hused⟩ := h.used
  refine ⟨h.users, _, List.mem_map.mpr ⟨row, hrow, rfl⟩, ?_⟩
  split
  · exact ⟨hid, by simp⟩
  · exact ⟨hid, hused⟩

theorem retired_markUsed (now : ℚ) :
    Retired user (db'.markUsed (fun row => row.id ∈
      (db'.tokens.rows.filter (outstanding user.id .passwordReset)).map EmailToken.id) now) := by
  intro row hrow
  obtain ⟨old, hold, rfl⟩ := List.mem_map.mp hrow
  split
  · simp [outstanding]
  · next hnot =>
    intro hout
    refine hnot (decide_eq_true (List.mem_map.mpr ⟨old, ?_, rfl⟩))
    exact List.mem_filter.mpr ⟨hold, hout⟩

theorem changed_writePassword {hash : String} (hburned : Burned db token db')
    (hretired : Retired user db') (huser : db.users.get? user.id = some user)
    (hhash : hashed env ctx body db token = some hash) (now : ℚ) :
    Changed env ctx body db token user user.emailVerified
      (db'.writePassword user.id hash now (user.tokenVersion + 1)) := by
  refine ⟨hburned.used, hretired, { user with
    passwordHash := hash, passwordChangedAt := now, tokenVersion := user.tokenVersion + 1 }, ?_,
    hhash, rfl, rfl⟩
  unfold Accounts.writePassword Accounts.mapUsers
  rw [Table.get?_map, hburned.users, huser]
  simp

theorem Expired.get? {userId : Uuid} {hash : String} (huser : db.users.get? user.id = some user)
    (h : Expired env ctx body db token user userId hash db') : db'.users.get? userId = some user := by
  rw [h.burned.users, h.user, huser]

theorem Expired.commit_eq {userId : Uuid} {hash : String}
    (h : Expired env ctx body db token user userId hash db') : passwordCommit db token = 12 := by
  simp [passwordCommit, h.others]

theorem Changed.writeVerified {verified : Bool}
    (h : Changed env ctx body db token user verified db') (now : ℚ) :
    Changed env ctx body db token user true (db'.writeVerified user.id now) := by
  obtain ⟨row, hrow, hhash, hversion, -⟩ := h.changed
  refine ⟨h.used, h.retired, { row with emailVerifiedAt := some now }, ?_, hhash, hversion, rfl⟩
  have hid := (Table.get?_eq_some_iff.mp hrow).2
  unfold Accounts.writeVerified Accounts.mapUsers
  rw [Table.get?_map, hrow]
  simp [hid]

theorem resetAt_step
    (husable : getUsableEmailToken db .passwordReset (env.hashEmailToken body.token) (ctx 0).now =
      some token) (huser : db.users.get? token.userId = some user) (n : ℕ)
    (s : Accounts × TokenPoint Tok) (h : ResetAt env ctx body db token user n s) :
    ResetAt env ctx body db token user (n + 1)
      ((tokenAction env (ctx n) (.resetPassword body) s.2).perform s.1) := by
  obtain ⟨hmem, -⟩ := getUsableEmailToken_eq_some_iff.mp husable
  obtain ⟨-, hid⟩ := Table.get?_eq_some_iff.mp huser
  obtain ⟨d, p⟩ := s
  cases p with
  | lookup =>
    obtain ⟨rfl, rfl⟩ := h
    simp only [tokenAction, perform_read, TokenJob.purpose, TokenJob.token]
    rw [husable]
    exact ⟨rfl, rfl, rfl⟩
  | getUser t =>
    obtain ⟨rfl, rfl, rfl⟩ := h
    simp only [tokenAction, perform_read, huser]
    exact ⟨rfl, rfl, rfl⟩
  | consume t =>
    obtain ⟨rfl, rfl, rfl⟩ := h
    exact ⟨rfl, rfl, rfl⟩
  | refreshToken t =>
    obtain ⟨rfl, rfl, rfl⟩ := h
    simp only [tokenAction, perform_read, consumeEmailToken_get? hmem]
    exact ⟨rfl, rfl, hid.symm⟩
  | loadUser userId =>
    obtain ⟨rfl, rfl, rfl⟩ := h
    have hload : (consumeEmailToken db token (ctx 2).now).users.get? user.id = some user := by
      rw [hid]
      exact huser
    simp only [tokenAction, perform_read, hload]
    exact ⟨rfl, rfl, rfl⟩
  | selectOutstanding loaded =>
    obtain ⟨rfl, rfl, rfl⟩ := h
    have hothers := outstanding_consume db token (ctx 2).now
    rw [← hid] at hothers
    simp only [tokenAction, perform_read]
    split_ifs with hrows
    · have hno := hothers.mp hrows
      refine ⟨by simp [hashStatement, hno], burned_consume hmem _, fun row hrow => ?_, rfl,
        by simp [hno]⟩
      simpa using List.filter_eq_nil_iff.mp hrows row hrow
    · exact ⟨rfl, by simpa using hothers.not.mp hrows, rfl, rfl, rfl⟩
  | retire userId ids =>
    obtain ⟨rfl, hothers, rfl, rfl, rfl⟩ := h
    refine ⟨by simp [hashStatement, hothers], (burned_consume hmem _).markUsed _ _, ?_, rfl,
      by simp [hothers]⟩
    exact retired_markUsed _
  | hashPassword userId loaded =>
    obtain ⟨rfl, hburned, hretired, rfl, rfl⟩ := h
    simp only [tokenAction, perform_work]
    cases hhash : env.hashPassword body.password (ctx (hashStatement db token)).salt with
    | none => exact ⟨by unfold hashStatement; split_ifs <;> omega, hburned, hhash⟩
    | some hash =>
      cases hothers : othersOutstanding db token with
      | false => exact ⟨by simp [hashStatement, passwordCommit, hothers], hburned, hretired, rfl,
          hhash, rfl⟩
      | true => exact ⟨by simp [hashStatement, hothers], hothers, hburned, hretired, rfl, hhash⟩
  | findUser userId hash | flushPassword userId hash =>
    obtain ⟨rfl, hexpired⟩ := h
    simp only [tokenAction, perform_read, hexpired.get? (hid ▸ huser)]
    exact ⟨rfl, hexpired⟩
  | reloadUser userId hash changedAt =>
    obtain ⟨rfl, hexpired⟩ := h
    simp only [tokenAction, perform_read, hexpired.get? (hid ▸ huser)]
    exact ⟨rfl, hexpired, rfl⟩
  | setVersion userId hash changedAt version =>
    obtain ⟨rfl, hexpired, rfl⟩ := h
    obtain rfl := hexpired.user
    exact ⟨hexpired.commit_eq.symm, rfl,
      changed_writePassword hexpired.burned hexpired.retired (hid ▸ huser) hexpired.hashes _⟩
  | setPassword userId hash version =>
    obtain ⟨hn, hburned, hretired, rfl, hhash, rfl⟩ := h
    exact ⟨hn, rfl, changed_writePassword hburned hretired (hid ▸ huser) hhash _⟩
  | checkVerified userId =>
    obtain ⟨rfl, rfl, hchanged⟩ := h
    obtain ⟨row, hrow, -, -, hverified⟩ := hchanged.changed
    simp only [tokenAction, perform_read, hrow]
    split_ifs with hnone
    · have hno : user.emailVerified = false := by
        rw [← hverified]
        simp [User.emailVerified, hnone]
      exact ⟨rfl, rfl, hno, hno ▸ hchanged⟩
    · have hyes : user.emailVerified = true := by
        rw [← hverified]
        exact Option.isSome_iff_ne_none.mpr hnone
      exact ⟨by simp [lastCommit, hyes], hyes ▸ hchanged⟩
  | markVerified userId =>
    obtain ⟨rfl, rfl, hno, hchanged⟩ := h
    exact ⟨by simp [lastCommit, hno], rfl, hchanged.writeVerified _⟩
  | refreshVerified userId =>
    obtain ⟨rfl, rfl, hchanged⟩ := h
    obtain ⟨row, hrow, -⟩ := hchanged.changed
    simp only [tokenAction, perform_read, hrow]
    exact ⟨Nat.le_succ _, hchanged⟩
  | finished reply => exact ⟨h.1.trans (Nat.le_succ n), h.2⟩
  | rejected => exact h
  | crashed => exact ⟨h.1.trans (Nat.le_succ n), h.2⟩

theorem resetAlone_rejected
    (hnone : getUsableEmailToken db .passwordReset (env.hashEmailToken body.token) (ctx 0).now =
      none) (n : ℕ) : (resetAlone env ctx body db n).1 = db := by
  have hat : n = 0 ∧ resetAlone env ctx body db n = (db, .lookup) ∨
      resetAlone env ctx body db n = (db, .rejected) := by
    refine alone_invariant (fun ctx => tokenAction env ctx (.resetPassword body)) ctx (db, .lookup)
      (fun n s => n = 0 ∧ s = (db, .lookup) ∨ s = (db, .rejected)) (Or.inl ⟨rfl, rfl⟩)
      (fun n s h => Or.inr ?_) n
    rcases h with ⟨rfl, rfl⟩ | rfl
    · simp only [tokenAction, perform_read, TokenJob.purpose, TokenJob.token]
      rw [hnone]
    · rfl
  rcases hat with ⟨-, h⟩ | h <;> rw [h]

theorem resetAlone_at
    (husable : getUsableEmailToken db .passwordReset (env.hashEmailToken body.token) (ctx 0).now =
      some token) (huser : db.users.get? token.userId = some user) (n : ℕ) :
    ResetAt env ctx body db token user n (resetAlone env ctx body db n) :=
  alone_invariant (fun ctx => tokenAction env ctx (.resetPassword body)) ctx (db, .lookup)
    (ResetAt env ctx body db token user) ⟨rfl, rfl⟩ (resetAt_step husable huser) n

theorem ne_of_used (htoken : token ∈ db.tokens.rows) (hunused : token.usedAt = none)
    (hused : ∃ row ∈ db'.tokens.rows, row.id = token.id ∧ row.usedAt ≠ none) : db' ≠ db := by
  rintro rfl
  obtain ⟨row, hrow, hid, hne⟩ := hused
  exact hne (Table.eq_of_key hrow htoken hid ▸ hunused)

theorem allEffects_iff
    (hfind : findEmailToken db .passwordReset (env.hashEmailToken body.token) = some token)
    (huser : db.users.get? token.userId = some user) :
    AllEffects env body db db' ↔ Applied env body token user db' := by
  constructor
  · rintro ⟨token', user', hfind', huser', happlied⟩
    obtain rfl := Option.some_inj.mp (hfind.symm.trans hfind')
    obtain rfl := Option.some_inj.mp (huser.symm.trans huser')
    exact happlied
  · exact fun happlied => ⟨token, user, hfind, huser, happlied⟩

theorem Burned.not_applied (h : Burned db token db') (huser : db.users.get? user.id = some user) :
    ¬ Applied env body token user db' := by
  rintro ⟨-, -, row, salt, hrow, -, hversion, -⟩
  rw [h.users, huser] at hrow
  obtain rfl := Option.some_inj.mp hrow
  omega

theorem Changed.applied_iff {verified : Bool}
    (h : Changed env ctx body db token user verified db') :
    Applied env body token user db' ↔ verified = true := by
  obtain ⟨row, hrow, hhash, hversion, rfl⟩ := h.changed
  constructor
  · rintro ⟨-, -, row', salt, hrow', -, -, hverified⟩
    rw [hrow] at hrow'
    obtain rfl := Option.some_inj.mp hrow'
    exact hverified
  · exact fun hverified => ⟨h.used, h.retired, row, _, hrow, hhash, hversion, hverified⟩

theorem Changed.hashed_isSome {verified : Bool}
    (h : Changed env ctx body db token user verified db') :
    (hashed env ctx body db token).isSome := by
  obtain ⟨row, -, hhash, -⟩ := h.changed
  rw [hhash]
  rfl

theorem statement_bounds (db : Accounts) (token : EmailToken) (user : User) :
    6 ≤ hashStatement db token ∧ hashStatement db token + 1 < passwordCommit db token ∧
      8 ≤ passwordCommit db token ∧ passwordCommit db token ≤ lastCommit db token user := by
  unfold lastCommit passwordCommit hashStatement
  split_ifs <;> omega

/-- At each statement the tables show none of the effects, some, or all. -/
theorem ResetAt.atomic_iff (hmem : token ∈ db.tokens.rows) (hunused : token.usedAt = none)
    (huser : db.users.get? user.id = some user) {n : ℕ} {s : Accounts × TokenPoint Tok}
    (h : ResetAt env ctx body db token user n s) :
    (s.1 = db ∨ Applied env body token user s.1) ↔
      n < 3 ∨ (hashed env ctx body db token).isSome ∧ lastCommit db token user ≤ n := by
  obtain ⟨d, p⟩ := s
  have hburned : ∀ {d : Accounts}, Burned db token d →
      ¬ (d = db ∨ Applied env body token user d) :=
    fun h => not_or.mpr ⟨ne_of_used hmem hunused h.used, h.not_applied huser⟩
  have hchanged : ∀ {d : Accounts} {verified : Bool},
      Changed env ctx body db token user verified d →
      ((d = db ∨ Applied env body token user d) ↔ verified = true) :=
    fun h => (or_iff_right (ne_of_used hmem hunused h.used)).trans h.applied_iff
  have hconsumed := hburned (burned_consume hmem (ctx 2).now)
  have hbounds := statement_bounds db token user
  cases p with
  | lookup =>
    obtain ⟨rfl, rfl⟩ := h
    exact iff_of_true (Or.inl rfl) (Or.inl (by omega))
  | getUser t | consume t =>
    obtain ⟨rfl, rfl, -⟩ := h
    exact iff_of_true (Or.inl rfl) (Or.inl (by omega))
  | refreshToken t | loadUser t | selectOutstanding t =>
    obtain ⟨rfl, rfl, rfl⟩ := h
    exact iff_of_false hconsumed (by omega)
  | retire userId ids =>
    obtain ⟨rfl, -, rfl, -⟩ := h
    exact iff_of_false hconsumed (by omega)
  | hashPassword userId loaded =>
    obtain ⟨rfl, h, -⟩ := h
    exact iff_of_false (hburned h) (by omega)
  | findUser userId hash | flushPassword userId hash | reloadUser userId hash changedAt =>
    obtain ⟨rfl, h⟩ := h
    have hcommit := h.commit_eq
    exact iff_of_false (hburned h.burned) (by omega)
  | setVersion userId hash changedAt version =>
    obtain ⟨rfl, h, -⟩ := h
    have hcommit := h.commit_eq
    exact iff_of_false (hburned h.burned) (by omega)
  | setPassword userId hash version =>
    obtain ⟨hn, h, -⟩ := h
    exact iff_of_false (hburned h) (by omega)
  | checkVerified userId =>
    obtain ⟨rfl, -, h⟩ := h
    rw [hchanged h, lastCommit]
    cases user.emailVerified <;> simp [h.hashed_isSome]
    omega
  | markVerified userId =>
    obtain ⟨rfl, -, hno, h⟩ := h
    rw [hchanged h]
    exact iff_of_false Bool.false_ne_true (by simp [lastCommit, hno]; omega)
  | refreshVerified userId =>
    obtain ⟨rfl, -, h⟩ := h
    exact iff_of_true ((hchanged h).mpr rfl) (Or.inr ⟨h.hashed_isSome, le_rfl⟩)
  | finished reply =>
    obtain ⟨hle, h⟩ := h
    exact iff_of_true ((hchanged h).mpr rfl) (Or.inr ⟨h.hashed_isSome, hle⟩)
  | rejected => exact h.elim
  | crashed =>
    obtain ⟨hn, h, hnone⟩ := h
    exact iff_of_false (hburned h) (by simp [hnone]; omega)

/-- Wherever a reset stops, all of its effects are there or none, exactly when it stops
before its first commit or after its last one. -/
theorem resetAlone_atomic_iff (env : Env Tok) (ctx : ℕ → Context) (body : ResetPasswordRequest)
    (db : Accounts) (n : ℕ) :
    ((resetAlone env ctx body db n).1 = db ∨
        AllEffects env body db (resetAlone env ctx body db n).1) ↔
      StopsSafely env ctx body db n := by
  cases husable : getUsableEmailToken db .passwordReset (env.hashEmailToken body.token)
    (ctx 0).now with
  | none => simp [StopsSafely, husable, resetAlone_rejected husable]
  | some token =>
    obtain ⟨hmem, hhash, hpurpose, hunused, -⟩ := getUsableEmailToken_eq_some_iff.mp husable
    obtain ⟨user, hmemUser, hid⟩ := db.tokens_owned token hmem
    have huser : db.users.get? token.userId = some user := hid ▸ Table.get?_of_mem hmemUser
    have hsafe : StopsSafely env ctx body db n ↔
        n < 3 ∨ (hashed env ctx body db token).isSome ∧ lastCommit db token user ≤ n := by
      simp [StopsSafely, husable, huser, hashed]
    rw [hsafe, allEffects_iff (findEmailToken_eq_some_iff.mpr ⟨hmem, hhash, hpurpose⟩) huser]
    exact (resetAlone_at husable huser n).atomic_iff hmem hunused (hid ▸ huser)

end Reset

/-- A password that cannot be hashed. -/
def nulPassword : ResetPasswordRequest :=
  { newPassword with password := "new\x00password", password_length := by decide }

def burnedAccounts : Accounts :=
  (resetAlone plainEnv (fun _ => plainContext 60) nulPassword ownerAccounts 12).1

/-- The link was usable and is used, and nothing else has changed. -/
theorem resetAlone_nul_password :
    getUsableEmailToken ownerAccounts .passwordReset "sha256:link" 60 = some resetLink ∧
      burnedAccounts.users = ownerAccounts.users ∧
      ¬ (burnedAccounts = ownerAccounts ∨
        AllEffects plainEnv nulPassword ownerAccounts burnedAccounts) := by
  have hburned : Burned ownerAccounts resetLink burnedAccounts :=
    ⟨by decide +kernel, by decide +kernel⟩
  have heffects : AllEffects plainEnv nulPassword ownerAccounts burnedAccounts ↔
      Applied plainEnv nulPassword resetLink owner burnedAccounts :=
    allEffects_iff (by decide +kernel) (by decide +kernel)
  refine ⟨by decide +kernel, hburned.users, not_or.mpr ⟨by decide +kernel, ?_⟩⟩
  exact heffects.not.mpr (hburned.not_applied (by decide +kernel))

end StockQuant
