import StockQuant.TokenHistory

/-! Runs of the auth endpoints, and what presenting a mailed token then does. -/

namespace StockQuant

open KeyedTable SingleUse

variable {Tok : Type}

section Runs

variable {env : Env Tok} {s : AuthState Tok}

theorem mailed_handle (hinj : Function.Injective env.hashEmailToken)
    (hpassword : ∀ password salt, env.hashPassword password salt ≠ none)
    (h : Mailed env s.app.db s.log) {r : AuthRequest Tok}
    (hraw : ∀ a ∈ s.log, a.request.ctx.rawToken ≠ r.ctx.rawToken)
    (hid : ∀ a ∈ s.log, a.request.ctx.tokenId ≠ r.ctx.tokenId) :
    Mailed env (s.handle env r).app.db (s.handle env r).log := by
  unfold AuthState.handle
  rcases answered_cases env s r with ⟨k, readAt, user, hcall, -, hanswered⟩ | hanswered
  · rw [hanswered, hcall]
    exact h.quiet (by simp [Answered.events, loginReply, hcall, AuthCall.presents])
  · rw [hanswered]
    exact h.effect hinj hpassword (answer_effect env r.ctx s.app r.call) hraw hid _

theorem mailed_run (hinj : Function.Injective env.hashEmailToken)
    (hpassword : ∀ password salt, env.hashPassword password salt ≠ none) {app : App}
    (hempty : app.db.tokens.rows = []) {requests : List (AuthRequest Tok)}
    (hraw : (requests.map (·.ctx.rawToken)).Nodup) (hid : (requests.map (·.ctx.tokenId)).Nodup) :
    Mailed env (runAuth env { app } requests).app.db (runAuth env { app } requests).log := by
  induction requests using List.reverseRecOn with
  | nil => exact mailed_start hempty
  | append_singleton requests r ih =>
    rw [List.map_append, List.nodup_append] at hraw hid
    have hlog : ∀ a ∈ (runAuth env { app } requests).log, a.request ∈ requests := by
      intro a ha
      have hmem := List.mem_map_of_mem (f := Answered.request) ha
      rwa [runAuth_requests] at hmem
    rw [runAuth_snoc]
    refine mailed_handle hinj hpassword (ih hraw.1 hid.1) (fun a ha => ?_) fun a ha => ?_
    · exact hraw.2.2 _ (List.mem_map.mpr ⟨_, hlog a ha, rfl⟩) _ (by simp)
    · exact hid.2.2 _ (List.mem_map.mpr ⟨_, hlog a ha, rfl⟩) _ (by simp)

end Runs

/-- No row changes but the user's own and those of its tokens of the purpose. -/
structure OnlyChanges (user : User) (purpose : Purpose) (db db' : Accounts) : Prop where
  users : ∀ row, row.id ≠ user.id → (row ∈ db'.users.rows ↔ row ∈ db.users.rows)
  tokens : ∀ row, ¬ (row.userId = user.id ∧ row.purpose = purpose) →
    (row ∈ db'.tokens.rows ↔ row ∈ db.tokens.rows)

section Changes

variable {db db' db'' : Accounts} {user : User} {purpose : Purpose}

theorem OnlyChanges.refl : OnlyChanges user purpose db db := ⟨fun _ _ => Iff.rfl, fun _ _ => Iff.rfl⟩

theorem OnlyChanges.trans (h : OnlyChanges user purpose db db')
    (h' : OnlyChanges user purpose db' db'') : OnlyChanges user purpose db db'' :=
  ⟨fun row hrow => (h'.users row hrow).trans (h.users row hrow),
    fun row hrow => (h'.tokens row hrow).trans (h.tokens row hrow)⟩

theorem mem_map_iff_of_changes {α : Type} {l : List α} {f : α → α} {p : α → Prop}
    (hkept : ∀ a ∈ l, ¬ p a → f a = a) (hp : ∀ a ∈ l, p (f a) ↔ p a) {a : α} (ha : ¬ p a) :
    a ∈ l.map f ↔ a ∈ l := by
  constructor
  · intro hmem
    obtain ⟨b, hb, rfl⟩ := List.mem_map.mp hmem
    rwa [hkept b hb ((hp b hb).not.mp ha)]
  · exact fun hmem => List.mem_map.mpr ⟨a, hmem, hkept a hmem ha⟩

theorem onlyChanges_mapUsers {f : User → User} (hid : ∀ u, (f u).id = u.id)
    (hemail : ∀ u, (f u).email = u.email) (hf : ∀ u, u.id ≠ user.id → f u = u) :
    OnlyChanges user purpose db (db.mapUsers f hid hemail) := by
  refine ⟨fun row hrow => ?_, fun _ _ => Iff.rfl⟩
  exact mem_map_iff_of_changes (p := fun u => u.id = user.id) (fun u _ => hf u)
    (fun u _ => by rw [hid]) hrow

theorem onlyChanges_markUsed {p : EmailToken → Bool} (now : ℚ)
    (hp : ∀ row ∈ db.tokens.rows, p row → row.userId = user.id ∧ row.purpose = purpose) :
    OnlyChanges user purpose db (db.markUsed p now) := by
  refine ⟨fun _ _ => Iff.rfl, fun row hrow => ?_⟩
  refine mem_map_iff_of_changes (p := fun row => row.userId = user.id ∧ row.purpose = purpose)
    (fun row hmem hnot => ?_) (fun row _ => ?_) hrow
  · exact if_neg fun hrow => hnot (hp row hmem hrow)
  · split <;> exact Iff.rfl

theorem onlyChanges_consume {token : EmailToken} (htoken : token ∈ db.tokens.rows)
    (hown : user.id = token.userId) (now : ℚ) :
    OnlyChanges user token.purpose db (consumeEmailToken db token now) := by
  refine onlyChanges_markUsed now fun row hrow hid => ?_
  obtain rfl := Table.eq_of_key hrow htoken (of_decide_eq_true hid)
  exact ⟨hown.symm, rfl⟩

theorem onlyChanges_invalidate (now : ℚ) :
    OnlyChanges user purpose db (invalidateEmailTokens db user.id purpose now) :=
  onlyChanges_markUsed now fun row _ hout => by
    have hout : row.userId = user.id ∧ row.purpose = purpose ∧ row.usedAt = none := by
      simpa [outstanding, and_assoc] using hout
    exact ⟨hout.1, hout.2.1⟩

theorem onlyChanges_markEmailVerified (now : ℚ) :
    OnlyChanges user purpose db (markEmailVerified db user now) := by
  unfold markEmailVerified Accounts.writeVerified
  split_ifs
  · exact onlyChanges_mapUsers _ _ fun u hu => if_neg hu
  · exact .refl

theorem onlyChanges_setPassword (passwordHash : String) (now : ℚ) :
    OnlyChanges user purpose db (setPassword db user passwordHash now) := by
  unfold setPassword Accounts.writePassword
  exact onlyChanges_mapUsers _ _ fun u hu => if_neg hu

theorem Effect.presented {env : Env Tok} {ctx : Context} {call : AuthCall Tok}
    {result : Except Failure (Reply Tok)} {raw : String}
    (hpassword : ∀ password salt, env.hashPassword password salt ≠ none)
    (h : Effect env ctx db call db' result) (hcall : call.presents = some (purpose, raw)) :
    (getUsableEmailToken db purpose (env.hashEmailToken raw) ctx.now = none ∧ db' = db ∧
        result.isOk = false) ∨
      ∃ token user, getUsableEmailToken db purpose (env.hashEmailToken raw) ctx.now = some token ∧
        db.users.get? token.userId = some user ∧ OnlyChanges user purpose db db' ∧
        result.isOk = true := by
  cases h with
  | failed _ failure hunusable => exact Or.inl ⟨hunusable purpose raw hcall, rfl, rfl⟩
  | nothing _ hnone => simp [hnone] at hcall
  | issued _ hnone => simp [hnone] at hcall
  | registered => simp [AuthCall.presents] at hcall
  | verified body token user husable huser =>
    cases hcall
    obtain ⟨hmem, -, hpurpose, -⟩ := getUsableEmailToken_eq_some_iff.mp husable
    have hconsume := onlyChanges_consume hmem (Table.get?_eq_some_iff.mp huser).2 ctx.now
    rw [hpurpose] at hconsume
    exact Or.inr ⟨token, user, husable, huser,
      hconsume.trans (onlyChanges_markEmailVerified ctx.now), rfl⟩
  | burned body token user husable huser hnone => exact absurd hnone (hpassword _ _)
  | reset body token user row passwordHash husable huser hrow =>
    cases hcall
    obtain ⟨hmem, -, hpurpose, -⟩ := getUsableEmailToken_eq_some_iff.mp husable
    have hconsume := onlyChanges_consume hmem (Table.get?_eq_some_iff.mp huser).2 ctx.now
    rw [hpurpose] at hconsume
    refine Or.inr ⟨token, user, husable, huser, ?_, rfl⟩
    exact ((hconsume.trans (onlyChanges_invalidate ctx.now)).trans
      (onlyChanges_setPassword passwordHash ctx.now)).trans (onlyChanges_markEmailVerified ctx.now)

end Changes

theorem answer_limiter (env : Env Tok) (ctx : Context) (app : App) (call : AuthCall Tok)
    (hcall : call.presents ≠ none) : (answer env ctx app call).1.limiter = app.limiter := by
  cases call with
  | verifyEmail body =>
    unfold answer verifyEmail
    dsimp only [Prod.map]
    split
    · rfl
    · split
      · rfl
      · split <;> rfl
  | resetPassword body =>
    unfold answer resetPassword
    dsimp only [Prod.map]
    split
    · rfl
    · split
      · rfl
      · split
        · rfl
        · split <;> rfl
  | _ => exact absurd rfl hcall

/-- After any run, a presented token is accepted exactly when it is the one last mailed
to its owner for the purpose, unused and in time. Accepting it changes what is the
owner's, refusing it changes nothing, and no owner has two unused tokens. -/
theorem presentToken_iff {env : Env Tok} (hinj : Function.Injective env.hashEmailToken)
    (hpassword : ∀ password salt, env.hashPassword password salt ≠ none) {app : App}
    (hempty : app.db.tokens.rows = []) {requests : List (AuthRequest Tok)}
    (hraw : (requests.map (·.ctx.rawToken)).Nodup) (hid : (requests.map (·.ctx.tokenId)).Nodup)
    {s : AuthState Tok} (hs : s = runAuth env { app } requests) :
    (∀ (ctx : Context) (call : AuthCall Tok) (purpose : Purpose) (raw : String),
      call.presents = some (purpose, raw) →
        ((answer env ctx s.app call).2.isOk ↔
          ∃ email time, Outstanding (history s.log) (email, purpose) raw time ∧
            ctx.now < time + ttl env purpose) ∧
        ((answer env ctx s.app call).2.isOk →
          (answer env ctx s.app call).1.limiter = s.app.limiter ∧
          ∃ user ∈ s.app.db.users.rows, ∃ time,
            Outstanding (history s.log) (user.email, purpose) raw time ∧
            OnlyChanges user purpose s.app.db (answer env ctx s.app call).1.db) ∧
        (¬ (answer env ctx s.app call).2.isOk → (answer env ctx s.app call).1 = s.app)) ∧
      ∀ row ∈ s.app.db.tokens.rows, ∀ row' ∈ s.app.db.tokens.rows, row.userId = row'.userId →
        row.purpose = row'.purpose → row.usedAt = none → row'.usedAt = none → row = row' := by
  have hmailed : Mailed env s.app.db s.log := hs ▸ mailed_run hinj hpassword hempty hraw hid
  refine ⟨fun ctx call purpose raw hcall => ?_, fun row hrow row' hrow' huser hpurpose hunused
    hunused' => hmailed.eq_of_unused hrow hrow' huser hpurpose hunused hunused'⟩
  have hlimiter := answer_limiter env ctx s.app call (by rw [hcall]; simp)
  have husable : (getUsableEmailToken s.app.db purpose (env.hashEmailToken raw) ctx.now).isSome ↔
      ∃ email time, Outstanding (history s.log) (email, purpose) raw time ∧
        ctx.now < time + ttl env purpose := by
    rw [getUsableEmailToken_isSome_iff]
    simp only [hmailed.outstanding]
  rw [← husable]
  rcases (answer_effect env ctx s.app call).presented hpassword hcall with
    ⟨hnone, hdb, hfailed⟩ | ⟨token, user, hsome, huser, hchanges, hok⟩
  · rw [hnone, hfailed]
    exact ⟨by simp, by simp, fun _ => App.ext hdb hlimiter⟩
  · rw [hsome, hok]
    refine ⟨by simp, fun _ => ⟨hlimiter, ?_⟩, by simp⟩
    obtain ⟨hmem, hown⟩ := Table.get?_eq_some_iff.mp huser
    obtain ⟨htoken, hhash, hpurpose, hunused, -⟩ := getUsableEmailToken_eq_some_iff.mp hsome
    refine ⟨user, hmem, token.expiresAt - ttl env token.purpose, ?_, hchanges⟩
    rw [hmailed.outstanding]
    exact ⟨user, hmem, token, htoken, by rw [hpurpose], hown.symm, hhash, hunused, by simp⟩

def totalEnv : Env Payload :=
  { plainEnv with hashPassword := fun password _ => some ("bcrypt:" ++ password) }

theorem totalEnv_injective : Function.Injective totalEnv.hashEmailToken := by
  intro raw raw' h
  simpa [totalEnv, plainEnv] using h

def twoLinks : List (AuthRequest Payload) :=
  [{ ctx := contextWith 0 1 "welcome", call := .register ownerRegistration },
    { ctx := contextWith 60 2 "first", call := .forgotPassword { email := "owner@example.com" } },
    { ctx := contextWith 120 3 "second", call := .forgotPassword { email := "owner@example.com" } }]

def presentReset (token : String) (h : 1 ≤ token.length) : AuthCall Payload :=
  .resetPassword { newPassword with token, token_length := h }

theorem presentToken_iff_second :
    (∃ email time, Outstanding (history (runAuth totalEnv { app := freshApp } twoLinks).log)
        (email, .passwordReset) "second" time ∧
      (plainContext 180).now < time + ttl totalEnv .passwordReset) ∧
    ¬ ∃ email time, Outstanding (history (runAuth totalEnv { app := freshApp } twoLinks).log)
        (email, .passwordReset) "first" time ∧
      (plainContext 180).now < time + ttl totalEnv .passwordReset := by
  obtain ⟨hpresent, -⟩ := presentToken_iff totalEnv_injective
    (show ∀ password salt, totalEnv.hashPassword password salt ≠ none from fun _ _ => by
      simp [totalEnv])
    (show freshApp.db.tokens.rows = [] from rfl) (show (twoLinks.map _).Nodup by decide)
    (show (twoLinks.map _).Nodup by decide) rfl
  exact ⟨(hpresent (plainContext 180) (presentReset "second" (by decide)) _ _ rfl).1.mp
      (by decide +kernel),
    (hpresent (plainContext 180) (presentReset "first" (by decide)) _ _ rfl).1.not.mp
      (by decide +kernel)⟩

end StockQuant
