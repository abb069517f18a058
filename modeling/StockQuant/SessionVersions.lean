import StockQuant.AuthEffects

/-! The stored token versions over runs of the auth endpoints: they count resets. -/

namespace StockQuant

open KeyedTable

variable {Tok : Type}

def Answered.resetOf (a : Answered Tok) : Option Uuid :=
  match a.request.call, a.result with
  | .resetPassword _, .ok reply => reply.response.map (·.user.id)
  | _, _ => none

def Answered.minted (a : Answered Tok) : Option (AuthResponse Tok) :=
  match a.result with
  | .ok reply => reply.response
  | .error _ => none

def tokenExpiry (env : Env Tok) (now : ℚ) : Int := ⌊now + env.jwtExpireMinutes * 60⌋

def resets (log : List (Answered Tok)) (userId : Uuid) : Nat :=
  log.countP fun a => a.resetOf = some userId

/-- A user row as it was read at some place in the log: the user is there, and its
version counts the resets up to that place. -/
structure ReadAt (db : Accounts) (log : List (Answered Tok)) (readAt : Nat) (user : User) :
    Prop where
  known : db.version? user.id ≠ none
  past : readAt < log.length
  version : user.tokenVersion = resets (log.take (readAt + 1)) user.id

/-- The stored versions, and those behind every token, count the resets. -/
structure Sessions (env : Env Tok) (db : Accounts) (checked : List (Nat × User))
    (log : List (Answered Tok)) : Prop where
  versions : ∀ userId v, db.version? userId = some v → v = resets log userId
  known : ∀ a ∈ log, ∀ userId, a.resetOf = some userId → db.version? userId ≠ none
  checked : ∀ read ∈ checked, ReadAt db log read.1 read.2
  minted : ∀ a ∈ log, ∀ response, a.minted = some response → ∃ user,
    response = { token := tokenFor env a.request.ctx user, user := userOut user } ∧
      ReadAt db log a.readAt user

section Step

variable {env : Env Tok} {db db' : Accounts} {checked : List (Nat × User)}
  {log : List (Answered Tok)} {a : Answered Tok}

theorem resets_snoc (userId : Uuid) :
    resets (log ++ [a]) userId = resets log userId + if a.resetOf = some userId then 1 else 0 := by
  simp [resets, List.countP_append]

theorem ReadAt.snoc {readAt : Nat} {user : User} (h : ReadAt db log readAt user)
    (hkept : ∀ userId, db.version? userId ≠ none → db'.version? userId ≠ none) :
    ReadAt db' (log ++ [a]) readAt user := by
  refine ⟨hkept _ h.known, by simpa using Nat.lt_succ_of_lt h.past, ?_⟩
  rw [List.take_append_of_le_length h.past]
  exact h.version

theorem readAt_last {user : User} (hknown : db'.version? user.id = some user.tokenVersion)
    (hversion : user.tokenVersion = resets (log ++ [a]) user.id) :
    ReadAt db' (log ++ [a]) log.length user := by
  refine ⟨by simp [hknown], by simp, ?_⟩
  rwa [List.take_of_length_le (by simp)]

theorem sessions_start (hempty : db.users.rows = []) : Sessions env db [] [] := by
  refine ⟨fun userId v hv => ?_, by simp, by simp, by simp⟩
  obtain ⟨user, hget, -⟩ := Accounts.version?_eq_some_iff.mp hv
  simpa [hempty] using (Table.get?_eq_some_iff.mp hget).1

theorem Sessions.snoc (h : Sessions env db checked log) (reset : Option Uuid)
    (ha : a.resetOf = reset)
    (hkept : ∀ userId, db.version? userId ≠ none → db'.version? userId ≠ none)
    (hversions : ∀ userId v, db'.version? userId = some v →
      v = resets log userId + if reset = some userId then 1 else 0)
    (hreset : ∀ userId, reset = some userId → db'.version? userId ≠ none)
    (hminted : ∀ response, a.minted = some response → ∃ user,
      response = { token := tokenFor env a.request.ctx user, user := userOut user } ∧
        ReadAt db' (log ++ [a]) a.readAt user) :
    Sessions env db' checked (log ++ [a]) := by
  subst ha
  refine ⟨fun userId v hv => ?_, fun b hb userId hb' => ?_, fun read hread => ?_,
    fun b hb response hb' => ?_⟩
  · rw [resets_snoc]
    exact hversions userId v hv
  · rcases List.mem_append.mp hb with hb | hb
    · exact hkept userId (h.known b hb userId hb')
    · obtain rfl := List.mem_singleton.mp hb
      exact hreset userId hb'
  · exact (h.checked read hread).snoc hkept
  · rcases List.mem_append.mp hb with hb | hb
    · obtain ⟨user, hresponse, hread⟩ := h.minted b hb response hb'
      exact ⟨user, hresponse, hread.snoc hkept⟩
    · obtain rfl := List.mem_singleton.mp hb
      exact hminted response hb'

theorem Sessions.quiet (h : Sessions env db checked log)
    (hsame : ∀ userId, db'.version? userId = db.version? userId) (hreset : a.resetOf = none)
    (hminted : a.minted = none) : Sessions env db' checked (log ++ [a]) := by
  refine h.snoc none hreset (fun userId hu => by rwa [hsame]) (fun userId v hv => ?_) (by simp)
    (by simp [hminted])
  rw [hsame] at hv
  simpa using h.versions userId v hv

/-- An answer that leaves one user with another version, and mints at that version. -/
theorem Sessions.write (h : Sessions env db checked log) (id : Uuid) (v : Nat)
    (reset : Option Uuid) (ha : a.resetOf = reset) (hat : a.readAt = log.length)
    (hreset : ∀ userId, reset = some userId → userId = id)
    (hversions : ∀ userId, db'.version? userId =
      if userId = id then some v else db.version? userId)
    (hv : v = resets log id + if reset = some id then 1 else 0)
    (hminted : ∀ response, a.minted = some response → ∃ user,
      response = { token := tokenFor env a.request.ctx user, user := userOut user } ∧
        user.id = id ∧ user.tokenVersion = v) :
    Sessions env db' checked (log ++ [a]) := by
  refine h.snoc reset ha (fun userId hu => ?_) (fun userId w hw => ?_) (fun userId hid => ?_)
    fun response hresponse => ?_
  · rw [hversions]
    split_ifs
    · simp
    · exact hu
  · rw [hversions] at hw
    split_ifs at hw with hid
    · obtain rfl := Option.some_inj.mp hw
      rwa [hid]
    · have hother : reset ≠ some userId := fun heq => hid (hreset userId heq)
      simpa [hother] using h.versions userId w hw
  · rw [hversions, if_pos (hreset userId hid)]
    simp
  · obtain ⟨user, hresponse, rfl, rfl⟩ := hminted response hresponse
    refine ⟨user, hresponse, hat ▸ readAt_last ?_ ?_⟩
    · rw [hversions, if_pos rfl]
    · rwa [resets_snoc, ha]

theorem resetOf_of_response_eq_none (h : a.minted = none) : a.resetOf = none := by
  unfold Answered.resetOf
  unfold Answered.minted at h
  split
  · next hresult =>
    rw [hresult] at h
    simp [show _ = none from h]
  · rfl

theorem Sessions.version_eq {userId : Uuid} (h : Sessions env db checked log)
    (hnone : db.version? userId = none) : resets log userId = 0 := by
  refine List.countP_eq_zero.mpr fun a ha hreset => ?_
  exact h.known a ha userId (of_decide_eq_true hreset) hnone

theorem version?_issueEmailToken (env : Env Tok) (ctx : Context) (db : Accounts) (user : User)
    (purpose : Purpose) (minutes : Int) (userId : Uuid) :
    (issueEmailToken env ctx db user purpose minutes).1.version? userId = db.version? userId := by
  unfold Accounts.version?
  rw [issueEmailToken_users]

theorem minted_mailed (request : AuthRequest Tok) (response : Option (AuthResponse Tok))
    (mail : Option Mail) (readAt : Nat) :
    (Answered.mk request (mailed response mail) readAt).minted = mail.bind fun _ => response := by
  cases mail <;> rfl

theorem Sessions.effect (h : Sessions env db checked log) {ctx : Context} {call : AuthCall Tok}
    {result : Except Failure (Reply Tok)} (heffect : Effect env ctx db call db' result) :
    Sessions env db' checked
      (log ++ [{ request := { ctx, call }, result, readAt := log.length }]) := by
  cases heffect with
  | failed => exact h.quiet (fun _ => rfl) (resetOf_of_response_eq_none rfl) rfl
  | nothing => exact h.quiet (fun _ => rfl) (resetOf_of_response_eq_none rfl) rfl
  | issued _ hcall user huser purpose =>
    refine h.quiet (version?_issueEmailToken env ctx db user purpose _) ?_ ?_
    · exact resetOf_of_response_eq_none (by rw [minted_mailed]; simp)
    · rw [minted_mailed]
      simp
  | registered body user db₁ hinsert hversion =>
    have hnew := (Accounts.version?_insertUser hinsert user.id).1
    refine h.write user.id user.tokenVersion none rfl rfl (by simp) (fun userId => ?_) ?_
      fun response hresponse => ?_
    · rw [version?_issueEmailToken]
      exact (Accounts.version?_insertUser hinsert userId).2
    · rw [hversion, h.version_eq hnew]
      rfl
    · rw [minted_mailed, Option.bind_eq_some_iff] at hresponse
      obtain ⟨mail, -, hresponse⟩ := hresponse
      exact ⟨user, (Option.some_inj.mp hresponse).symm, rfl, rfl⟩
  | verified body token user husable huser =>
    refine h.quiet (fun userId => ?_) rfl rfl
    exact Accounts.version?_markEmailVerified _ _ _
  | burned body token user husable huser hnone => exact h.quiet (fun _ => rfl) rfl rfl
  | reset body token user row passwordHash husable huser hrow =>
    have huser' : db.users.get? user.id = some user := by
      rw [(Table.get?_eq_some_iff.mp huser).2]
      exact huser
    have hold : db.version? user.id = some user.tokenVersion :=
      Accounts.version?_eq_some_iff.mpr ⟨user, huser', rfl⟩
    have hrowid : row.id = user.id := (Table.get?_eq_some_iff.mp hrow).2
    have hversions : ∀ userId, (markEmailVerified (setPassword (invalidateEmailTokens
        (consumeEmailToken db token ctx.now) user.id .passwordReset ctx.now) user passwordHash
          ctx.now) user ctx.now).version? userId =
        if userId = user.id then some (user.tokenVersion + 1) else db.version? userId := by
      intro userId
      rw [Accounts.version?_markEmailVerified]
      exact Accounts.version?_setPassword hold passwordHash ctx.now userId
    have hnew : row.tokenVersion = user.tokenVersion + 1 := by
      have hrow' := Accounts.version?_eq_some_iff.mpr ⟨row, hrow, rfl⟩
      rw [hversions, if_pos rfl] at hrow'
      exact (Option.some_inj.mp hrow').symm
    refine h.write user.id (user.tokenVersion + 1) (some user.id) ?_ rfl
      (fun userId hid => (Option.some_inj.mp hid).symm) hversions ?_ fun response hresponse => ?_
    · simp [Answered.resetOf, userOut, hrowid]
    · rw [if_pos rfl, h.versions _ _ hold]
    · exact ⟨row, (Option.some_inj.mp hresponse).symm, hrowid, hnew⟩

end Step

section Runs

variable {env : Env Tok} {s : AuthState Tok}

theorem loginUser_mem {ctx : Context} {body : LoginRequest} {app : App} {user : User}
    (h : (loginUser env ctx body app).2 = .ok user) : user ∈ app.db.users.rows := by
  unfold loginUser at h
  rcases hip : app.enforce env ctx "login_ip" (clientIp ctx.request) with ⟨app₁, _ | exception⟩
  · rcases hemail : app₁.enforce env ctx "login_email" (normalizeEmail env.lower body.email) with
      ⟨app₂, _ | exception⟩
    · have hdb : app₂.db = app.db :=
        (enforce_db env ctx app₁ hemail).trans (enforce_db env ctx app hip)
      simp only [hip, hemail] at h
      split at h
      · cases h
      · next row hrow =>
        rw [← hdb]
        split at h
        · cases h
        · cases h
        · obtain rfl := Except.ok.inj h
          exact List.mem_of_find?_eq_some hrow
    · simp [hip, hemail] at h
  · simp [hip] at h

theorem mem_checkedAfter {r : AuthRequest Tok} {read : Nat × User}
    (h : read ∈ s.checkedAfter env r) :
    read ∈ s.checked ∨
      read.1 = s.log.length ∧ read.2 ∈ s.app.db.users.rows ∧
        (answer env r.ctx s.app r.call).1.db = s.app.db ∧
        (s.answered env r).resetOf = none := by
  obtain ⟨ctx, call⟩ := r
  cases call with
  | checkLogin body =>
    unfold AuthState.checkedAfter at h
    dsimp only at h
    split at h
    · next user huser =>
      rcases List.mem_append.mp h with h | h
      · exact Or.inl h
      · obtain rfl := List.mem_singleton.mp h
        exact Or.inr ⟨rfl, loginUser_mem huser, loginUser_db env ctx s.app body, rfl⟩
    · exact Or.inl h
  | answerLogin k => exact Or.inl (List.mem_of_mem_eraseIdx h)
  | _ => exact Or.inl h

theorem Sessions.handle (h : Sessions env s.app.db s.checked s.log) (r : AuthRequest Tok) :
    Sessions env (s.handle env r).app.db (s.handle env r).checked (s.handle env r).log := by
  have hkept : Sessions env (s.handle env r).app.db s.checked (s.handle env r).log := by
    unfold AuthState.handle
    rcases answered_cases env s r with ⟨k, readAt, user, hcall, hk, hentry⟩ | hentry
    · -- The answer of a login past its check mints a token for the row it read back then.
      have hread := h.checked _ (List.mem_of_getElem? hk)
      rw [hentry, hcall]
      refine h.snoc none (by simp [Answered.resetOf, hcall]) (fun _ hu => hu) (fun userId v hv => ?_)
        (by simp) fun response hresponse => ?_
      · simpa using h.versions userId v hv
      · exact ⟨user, (Option.some_inj.mp hresponse).symm, hread.snoc fun _ hu => hu⟩
    · rw [hentry]
      exact h.effect (answer_effect env r.ctx s.app r.call)
  refine { hkept with checked := fun read hread => ?_ }
  rcases mem_checkedAfter hread with hread | ⟨hat, hmem, hdb, hreset⟩
  · exact hkept.checked read hread
  · have hold : s.app.db.version? read.2.id = some read.2.tokenVersion :=
      Accounts.version?_eq_some_iff.mpr ⟨_, Table.get?_of_mem hmem, rfl⟩
    unfold AuthState.handle
    rw [hat, hdb]
    refine readAt_last hold ?_
    rw [resets_snoc, hreset]
    simpa using h.versions _ _ hold

theorem sessions_run {app : App} (hempty : app.db.users.rows = [])
    (requests : List (AuthRequest Tok)) :
    Sessions env (runAuth env { app } requests).app.db (runAuth env { app } requests).checked
      (runAuth env { app } requests).log := by
  induction requests using List.reverseRecOn with
  | nil => exact sessions_start hempty
  | append_singleton requests r ih =>
    rw [runAuth_snoc]
    exact ih.handle r

end Runs

end StockQuant
