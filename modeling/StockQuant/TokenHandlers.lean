import StockQuant.TokenSessions

/-! The endpoints as `AuthHandlers` has them are their statements, run with no other
request in between. -/

namespace StockQuant

open ReadCommitted KeyedTable

variable {Tok : Type}

theorem markUsed_ids (db : Accounts) (p : EmailToken → Bool) (now : ℚ) :
    db.markUsed (fun row => row.id ∈ (db.tokens.rows.filter p).map EmailToken.id) now =
      db.markUsed p now := by
  refine Accounts.ext_tables rfl (Table.ext_rows (List.map_congr_left fun row hrow => ?_))
  have hiff : row.id ∈ (db.tokens.rows.filter p).map EmailToken.id ↔ p row := by
    constructor
    · rintro hid
      obtain ⟨other, hother, heq⟩ := List.mem_map.mp hid
      obtain ⟨hmem, hp⟩ := List.mem_filter.mp hother
      exact Table.eq_of_key hmem hrow heq ▸ hp
    · exact fun hp => List.mem_map.mpr ⟨row, List.mem_filter.mpr ⟨hrow, hp⟩, rfl⟩
  simp only [decide_eq_true_eq, hiff]

def endPoint : Except Failure (AuthResponse Tok) → TokenPoint Tok
  | .ok response => .finished (.signedIn response)
  | .error (.http _) => .rejected
  | .error .crash => .crashed

section Statements

variable (env : Env Tok) (ctx : Context)

def statements (job : TokenJob) (start : Accounts × TokenPoint Tok) (n : ℕ) :
    Accounts × TokenPoint Tok :=
  alone (fun ctx => tokenAction env ctx job) (fun _ => ctx) start n

theorem statements_succ (job : TokenJob) (start : Accounts × TokenPoint Tok) (n : ℕ) :
    statements env ctx job start (n + 1) =
      statements env ctx job ((tokenAction env ctx job start.2).perform start.1) n :=
  alone_succ _ _ _ _

theorem statements_stopped (job : TokenJob) (db : Accounts) {p : TokenPoint Tok}
    (hp : p = .rejected ∨ p = .crashed ∨ ∃ reply, p = .finished reply) (n : ℕ) :
    statements env ctx job (db, p) n = (db, p) := by
  refine alone_of_fixed ?_ n
  obtain rfl | rfl | ⟨reply, rfl⟩ := hp <;> rfl

theorem statements_checkVerified (job : TokenJob) {db : Accounts} {user row : User}
    (hrow : db.users.get? user.id = some row) (hsame : row.emailVerifiedAt = user.emailVerifiedAt)
    (n : ℕ) :
    ∃ row', (markEmailVerified db user ctx.now).users.get? user.id = some row' ∧
      statements env ctx job (db, .checkVerified user.id) (n + 3) =
        (markEmailVerified db user ctx.now, .finished (tokenReply env ctx job row')) := by
  unfold markEmailVerified
  rw [statements_succ]
  simp only [tokenAction, perform_read, hrow, hsame]
  split_ifs with hnone
  · have hget : (db.writeVerified user.id ctx.now).users.get? user.id =
        some { row with emailVerifiedAt := some ctx.now } := by
      unfold Accounts.writeVerified Accounts.mapUsers
      rw [Table.get?_map, hrow]
      simp [(Table.get?_eq_some_iff.mp hrow).2]
    refine ⟨_, hget, ?_⟩
    rw [statements_succ, statements_succ]
    simp only [tokenAction, perform_read, perform_commit_some, hget]
    exact statements_stopped _ _ _ _ (Or.inr (Or.inr ⟨_, rfl⟩)) _
  · exact ⟨row, hrow, statements_stopped _ _ _ _ (Or.inr (Or.inr ⟨_, rfl⟩)) _⟩

theorem statements_changed (body : ResetPasswordRequest) {db : Accounts} {user : User}
    (huser : db.users.get? user.id = some user) (hash : String) (n : ℕ) :
    ∃ row, (markEmailVerified (setPassword db user hash ctx.now) user ctx.now).users.get? user.id =
        some row ∧
      statements env ctx (.resetPassword body)
          (setPassword db user hash ctx.now, .checkVerified user.id) (n + 3) =
        (markEmailVerified (setPassword db user hash ctx.now) user ctx.now,
          .finished (tokenReply env ctx (.resetPassword body) row)) := by
  have hget : (setPassword db user hash ctx.now).users.get? user.id = some { user with
      passwordHash := hash, passwordChangedAt := ctx.now, tokenVersion := user.tokenVersion + 1 } := by
    unfold setPassword Accounts.writePassword Accounts.mapUsers
    rw [Table.get?_map, huser]
    simp
  exact statements_checkVerified env ctx (.resetPassword body) hget rfl n

theorem statements_setPassword (body : ResetPasswordRequest) (db : Accounts) (user : User)
    (hash : String) (n : ℕ) :
    statements env ctx (.resetPassword body)
        (db, .setPassword user.id hash (user.tokenVersion + 1)) (n + 1) =
      statements env ctx (.resetPassword body)
        (setPassword db user hash ctx.now, .checkVerified user.id) n := by
  rw [statements_succ]
  rfl

/-- With the row expired, the flush and the two loads end in the same commit. -/
theorem statements_findUser (body : ResetPasswordRequest) {db : Accounts} {user : User}
    (huser : db.users.get? user.id = some user) (hash : String) (n : ℕ) :
    statements env ctx (.resetPassword body) (db, .findUser user.id hash) (n + 4) =
      statements env ctx (.resetPassword body)
        (setPassword db user hash ctx.now, .checkVerified user.id) n := by
  rw [statements_succ, statements_succ, statements_succ]
  simp only [tokenAction, perform_read, huser]
  rw [statements_succ]
  rfl

theorem resetPassword_eq_statements (body : ResetPasswordRequest) (app : App) :
    statements env ctx (.resetPassword body) (app.db, .lookup) 15 =
      ((resetPassword env ctx body app).1.db, endPoint (resetPassword env ctx body app).2) := by
  unfold resetPassword
  rw [statements_succ]
  simp only [tokenAction, perform_read, TokenJob.purpose, TokenJob.token]
  cases husable : getUsableEmailToken app.db .passwordReset (env.hashEmailToken body.token)
    ctx.now with
  | none => exact statements_stopped _ _ _ _ (Or.inl rfl) _
  | some token =>
    dsimp only
    rw [statements_succ]
    simp only [tokenAction, perform_read]
    cases huser : app.db.users.get? token.userId with
    | none => exact statements_stopped _ _ _ _ (Or.inl rfl) _
    | some user =>
      obtain ⟨hmem, -⟩ := getUsableEmailToken_eq_some_iff.mp husable
      obtain ⟨-, hid⟩ := Table.get?_eq_some_iff.mp huser
      have hload : (consumeEmailToken app.db token ctx.now).users.get? user.id = some user :=
        hid ▸ huser
      dsimp only
      rw [statements_succ, statements_succ, statements_succ]
      simp only [tokenAction, perform_commit_some, perform_read, consumeEmailToken_get? hmem, ← hid,
        hload]
      rw [statements_succ]
      simp only [tokenAction, perform_read]
      split_ifs with hrows
      · have hnothing : invalidateEmailTokens (consumeEmailToken app.db token ctx.now) user.id
            .passwordReset ctx.now = consumeEmailToken app.db token ctx.now :=
          markUsed_of_filter_eq_nil hrows _
        rw [hnothing, statements_succ]
        simp only [tokenAction, perform_work]
        cases hhash : env.hashPassword body.password ctx.salt with
        | none => exact statements_stopped _ _ _ _ (Or.inr (Or.inl rfl)) _
        | some hash =>
          obtain ⟨row, hrow, hend⟩ := statements_changed env ctx body hload hash 4
          dsimp only
          rw [statements_setPassword, hend, hrow]
          rfl
      · have hretired : (consumeEmailToken app.db token ctx.now).markUsed
            (fun row => row.id ∈ ((consumeEmailToken app.db token ctx.now).tokens.rows.filter
              (outstanding user.id .passwordReset)).map EmailToken.id) ctx.now =
            invalidateEmailTokens (consumeEmailToken app.db token ctx.now) user.id .passwordReset
              ctx.now := markUsed_ids _ _ _
        rw [statements_succ]
        simp only [tokenAction, perform_commit_some, hretired]
        rw [statements_succ]
        simp only [tokenAction, perform_work]
        cases hhash : env.hashPassword body.password ctx.salt with
        | none => exact statements_stopped _ _ _ _ (Or.inr (Or.inl rfl)) _
        | some hash =>
          have hreload : (invalidateEmailTokens (consumeEmailToken app.db token ctx.now) user.id
              .passwordReset ctx.now).users.get? user.id = some user := hload
          obtain ⟨row, hrow, hend⟩ := statements_changed env ctx body hreload hash 0
          dsimp only
          rw [statements_findUser env ctx body hreload, hend, hrow]
          rfl

def verifyEndPoint : Except Failure UserOut → TokenPoint Tok
  | .ok user => .finished (.verified user)
  | .error (.http _) => .rejected
  | .error .crash => .crashed

theorem verifyEmail_eq_statements (body : VerifyEmailRequest) (app : App) :
    statements env ctx (.verifyEmail body) (app.db, .lookup) 7 =
      ((verifyEmail env ctx body app).1.db, verifyEndPoint (verifyEmail env ctx body app).2) := by
  unfold verifyEmail
  rw [statements_succ]
  simp only [tokenAction, perform_read, TokenJob.purpose, TokenJob.token]
  cases husable : getUsableEmailToken app.db .verifyEmail (env.hashEmailToken body.token)
    ctx.now with
  | none => exact statements_stopped _ _ _ _ (Or.inl rfl) _
  | some token =>
    dsimp only
    rw [statements_succ]
    simp only [tokenAction, perform_read]
    cases huser : app.db.users.get? token.userId with
    | none => exact statements_stopped _ _ _ _ (Or.inl rfl) _
    | some user =>
      obtain ⟨hmem, -⟩ := getUsableEmailToken_eq_some_iff.mp husable
      obtain ⟨-, hid⟩ := Table.get?_eq_some_iff.mp huser
      have hload : (consumeEmailToken app.db token ctx.now).users.get? user.id = some user :=
        hid ▸ huser
      obtain ⟨row, hrow, hend⟩ :=
        statements_checkVerified env ctx (.verifyEmail body) hload rfl 0
      dsimp only
      rw [statements_succ, statements_succ]
      simp only [tokenAction, perform_commit_some, perform_read, consumeEmailToken_get? hmem, ← hid]
      rw [hend, hrow]
      rfl

variable {ι : Type} [DecidableEq ι] {jobs : ι → TokenJob}

theorem run_resetPassword {c : Config ι Accounts (TokenPoint Tok)} {i : ι}
    {body : ResetPasswordRequest} (hstart : c.session i = .lookup)
    (hjob : jobs i = .resetPassword body) (limiter : SlidingWindowLimiter) :
    run (tokenProgram env jobs) c ((List.range 15).map fun _ => (i, ctx)) =
      { store := (resetPassword env ctx body { db := c.store, limiter }).1.db
        session := Function.update c.session i
          (endPoint (resetPassword env ctx body { db := c.store, limiter }).2) } := by
  have halone := resetPassword_eq_statements env ctx body { db := c.store, limiter }
  unfold statements at halone
  rw [run_eq_alone, hstart]
  unfold tokenProgram
  rw [hjob, halone]

theorem run_verifyEmail {c : Config ι Accounts (TokenPoint Tok)} {i : ι}
    {body : VerifyEmailRequest} (hstart : c.session i = .lookup)
    (hjob : jobs i = .verifyEmail body) (limiter : SlidingWindowLimiter) :
    run (tokenProgram env jobs) c ((List.range 7).map fun _ => (i, ctx)) =
      { store := (verifyEmail env ctx body { db := c.store, limiter }).1.db
        session := Function.update c.session i
          (verifyEndPoint (verifyEmail env ctx body { db := c.store, limiter }).2) } := by
  have halone := verifyEmail_eq_statements env ctx body { db := c.store, limiter }
  unfold statements at halone
  rw [run_eq_alone, hstart]
  unfold tokenProgram
  rw [hjob, halone]

end Statements

end StockQuant
