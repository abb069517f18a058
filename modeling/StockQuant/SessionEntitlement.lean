import StockQuant.AccountSafety
import StockQuant.SessionTokens

/-! Who is handed a session: the one who registers the address, knows the password of its account,
or reads its mail. -/

namespace StockQuant

open KeyedTable

variable {Tok : Type} {env : Env Tok}

/-- The address under which the handlers look for an account. -/
def lookedUp (env : Env Tok) (email : String) : String :=
  normalizeEmail env.lower (normalizeEmail env.lower email)

/-- The request after these answers gives the password of the account. -/
structure KnowsPassword (env : Env Tok) (log : List (Answered Tok)) (r : AuthRequest Tok)
    (user : User) (body : LoginRequest) : Prop where
  call : r.call = .checkLogin body
  account : (bookOf env log).accounts (lookedUp env body.email) = some user
  password : env.verifyPassword body.password user.passwordHash = some true

/-- What entitles a request to a session of the user, after these answers. -/
inductive Entitles (env : Env Tok) (log : List (Answered Tok)) (a : Answered Tok) (user : UserOut) :
    Prop where
  | registers (body : RegisterRequest) (hcall : a.request.call = .register body)
      (huser : user = userOut (newUser env a.request.ctx body))
  | knowsPassword (k : Nat) (hcall : a.request.call = .answerLogin k) (checked : Answered Tok)
      (hchecked : log[a.readAt]? = some checked) (body : LoginRequest) (account : User)
      (hknows : KnowsPassword env (log.take a.readAt) checked.request account body)
      (huser : user = userOut account)
  | readsMail (body : ResetPasswordRequest) (hcall : a.request.call = .resetPassword body)
      (hmailed : MailedTo log user.email .passwordReset body.token) (account : User)
      (haccount : (bookOf env log).accounts user.email = some account)
      (hid : account.id = user.id)

/-- The row of a login that is past its check is the account, as it was then, of the address it
gave. -/
def ChecksPassed (env : Env Tok) (log : List (Answered Tok)) (checked : List (Nat × User)) : Prop :=
  ∀ read ∈ checked, ∃ a body, log[read.1]? = some a ∧
    KnowsPassword env (log.take read.1) a.request read.2 body

section Step

variable {s : AuthState Tok}

theorem getElem?_snoc {α : Type} {l : List α} {a b : α} {i : Nat} (h : l[i]? = some b) :
    (l ++ [a])[i]? = some b ∧ (l ++ [a]).take i = l.take i := by
  have hi : i < l.length := (List.getElem?_eq_some_iff.mp h).1
  exact ⟨(List.getElem?_append_left hi).trans h, List.take_append_of_le_length hi.le⟩

theorem ChecksPassed.snoc {log : List (Answered Tok)} {checked : List (Nat × User)}
    (h : ChecksPassed env log checked) (a : Answered Tok) : ChecksPassed env (log ++ [a]) checked := by
  intro read hread
  obtain ⟨b, body, hb, hknows⟩ := h read hread
  obtain ⟨hb', htake⟩ := getElem?_snoc (a := a) hb
  exact ⟨b, body, hb', htake ▸ hknows⟩

theorem loginUser_eq_ok {ctx : Context} {body : LoginRequest} {app : App} {user : User}
    (h : (loginUser env ctx body app).2 = .ok user) :
    app.db.byEmail (lookedUp env body.email) = some user ∧
      env.verifyPassword body.password user.passwordHash = some true := by
  unfold loginUser at h
  rcases hip : app.enforce env ctx "login_ip" (clientIp ctx.request) with ⟨app₁, _ | exception⟩
  · rcases hemail : app₁.enforce env ctx "login_email" (normalizeEmail env.lower body.email) with
      ⟨app₂, _ | exception⟩
    · have hdb : app₂.db = app.db :=
        (enforce_db env ctx app₁ hemail).trans (enforce_db env ctx app hip)
      simp only [hip, hemail] at h
      split at h
      · cases h
      · next row hrow =>
        rw [hdb] at hrow
        split at h
        · cases h
        · cases h
        · next hpassword =>
          obtain rfl := Except.ok.inj h
          exact ⟨hrow, hpassword⟩
    · simp [hip, hemail] at h
  · simp [hip] at h

theorem ChecksPassed.handle (h : ChecksPassed env s.log s.checked)
    (hbook : InBook env s.app.db s.log (bookOf env s.log)) (r : AuthRequest Tok) :
    ChecksPassed env (s.handle env r).log (s.handle env r).checked := by
  have hkept : ChecksPassed env (s.handle env r).log s.checked := h.snoc _
  intro read hread
  obtain ⟨ctx, call⟩ := r
  change read ∈ s.checkedAfter env _ at hread
  cases call with
  | checkLogin body =>
    unfold AuthState.checkedAfter at hread
    dsimp only at hread
    split at hread
    · next user huser =>
      rcases List.mem_append.mp hread with hread | hread
      · exact hkept read hread
      · obtain rfl := List.mem_singleton.mp hread
        obtain ⟨haccount, hpassword⟩ := loginUser_eq_ok huser
        refine ⟨s.answered env ⟨ctx, .checkLogin body⟩, body, by simp [AuthState.handle], ?_⟩
        rw [answered_request]
        refine ⟨rfl, ?_, hpassword⟩
        rw [show (s.handle env ⟨ctx, .checkLogin body⟩).log.take s.log.length = s.log by
          simp [AuthState.handle], ← hbook.accounts]
        exact haccount
    · exact hkept read hread
  | answerLogin k => exact hkept read (List.mem_of_mem_eraseIdx hread)
  | _ => exact hkept read hread

theorem mem_of_names {db db' : Accounts} (h : db'.names = db.names) {row : User}
    (hrow : row ∈ db'.users.rows) :
    ∃ user ∈ db.users.rows, user.id = row.id ∧ user.email = row.email := by
  have hname : (row.id, row.email) ∈ db.names := h ▸ List.mem_map.mpr ⟨row, hrow, rfl⟩
  obtain ⟨user, huser, heq⟩ := List.mem_map.mp hname
  exact ⟨user, huser, (Prod.mk.inj heq).1, (Prod.mk.inj heq).2⟩

/-- Besides the registrations only resets answer with a session at once. -/
theorem entitles_effect {db db' : Accounts} {log : List (Answered Tok)}
    (hbook : InBook env db log (bookOf env log)) {ctx : Context} {call : AuthCall Tok}
    {result : Except Failure (Reply Tok)} (heffect : Effect env ctx db call db' result)
    (hcall : ∀ body, call ≠ .register body) {readAt : Nat} {response : AuthResponse Tok}
    (hminted : (Answered.mk ⟨ctx, call⟩ result readAt).minted = some response) :
    Entitles env log (Answered.mk ⟨ctx, call⟩ result readAt) response.user := by
  cases heffect with
  | failed => cases hminted
  | nothing => cases hminted
  | issued =>
    rw [minted_mailed] at hminted
    simp at hminted
  | registered body => exact absurd rfl (hcall body)
  | verified => cases hminted
  | burned => cases hminted
  | reset body token user row passwordHash husable huser hrow =>
    obtain rfl := Option.some.inj hminted
    obtain ⟨huser, hlink⟩ := hbook.link husable huser
    obtain ⟨hmem, hid⟩ := Table.get?_eq_some_iff.mp hrow
    obtain ⟨account, haccount, hsame, hemail⟩ := mem_of_names
      ((names_markEmailVerified _ _).trans (names_setPassword _ _ _)) hmem
    obtain rfl : account = user := Table.eq_of_key haccount huser (hsame.trans hid)
    have hbooked := hbook.account huser
    rw [hemail] at hlink hbooked
    exact .readsMail body rfl (mailedTo_of_links hlink) account hbooked hsame

theorem entitles_handle (hbook : InBook env s.app.db s.log (bookOf env s.log))
    (h : ChecksPassed env s.log s.checked) {r : AuthRequest Tok} {response : AuthResponse Tok}
    (hminted : (s.answered env r).minted = some response) :
    Entitles env s.log (s.answered env r) response.user := by
  rcases answered_cases env s r with ⟨k, readAt, user, hcall, hk, hanswered⟩ | hanswered
  · rw [hanswered] at hminted ⊢
    obtain rfl := Option.some.inj hminted
    obtain ⟨checked, body, hchecked, hknows⟩ := h _ (List.mem_of_getElem? hk)
    exact .knowsPassword k hcall checked hchecked body user hknows rfl
  · rw [hanswered] at hminted ⊢
    obtain ⟨ctx, call⟩ := r
    cases call with
    | register body =>
      rcases hregister : register env ctx body s.app with ⟨app', failure | ⟨response', mails⟩⟩
      · simp [Answered.minted, answer, hregister, Except.map] at hminted
      · obtain ⟨huser, -⟩ := register_user hregister
        obtain rfl : response' = response := by
          simpa [Answered.minted, answer, hregister, Except.map] using hminted
        exact .registers body rfl huser
    | _ => exact entitles_effect hbook (answer_effect env ctx s.app _) (by simp) hminted

end Step

section Runs

variable {app : App} {requests : List (AuthRequest Tok)}

theorem checksPassed_run (hinj : Function.Injective env.hashEmailToken)
    (husers : app.db.users.rows = []) (htokens : app.db.tokens.rows = [])
    (hraw : (requests.map (·.ctx.rawToken)).Nodup) (hid : (requests.map (·.ctx.tokenId)).Nodup) :
    ChecksPassed env (runAuth env { app } requests).log (runAuth env { app } requests).checked := by
  induction requests using List.reverseRecOn with
  | nil => exact fun _ hread => absurd hread List.not_mem_nil
  | append_singleton requests r ih =>
    have hraw' := List.Nodup.sublist (List.sublist_append_left _ _) (List.map_append ▸ hraw)
    have hid' := List.Nodup.sublist (List.sublist_append_left _ _) (List.map_append ▸ hid)
    rw [runAuth_snoc]
    exact (ih hraw' hid').handle (inBook_run hinj husers htokens hraw' hid') r

theorem entitles_run (hinj : Function.Injective env.hashEmailToken)
    (husers : app.db.users.rows = []) (htokens : app.db.tokens.rows = [])
    (hraw : (requests.map (·.ctx.rawToken)).Nodup) (hid : (requests.map (·.ctx.tokenId)).Nodup)
    {i : Nat} {a : Answered Tok} (ha : (runAuth env { app } requests).log[i]? = some a)
    {response : AuthResponse Tok} (hminted : a.minted = some response) :
    Entitles env ((runAuth env { app } requests).log.take i) a response.user := by
  induction requests using List.reverseRecOn with
  | nil => cases ha
  | append_singleton requests r ih =>
    have hraw' := List.Nodup.sublist (List.sublist_append_left _ _) (List.map_append ▸ hraw)
    have hid' := List.Nodup.sublist (List.sublist_append_left _ _) (List.map_append ▸ hid)
    rw [runAuth_snoc] at ha ⊢
    let before := runAuth env { app } requests
    change (before.log ++ [before.answered env r])[i]? = some a at ha
    change Entitles env ((before.log ++ [before.answered env r]).take i) a response.user
    rcases Nat.lt_or_ge i before.log.length with hi | hi
    · rw [List.getElem?_append_left hi] at ha
      rw [List.take_append_of_le_length hi.le]
      exact ih hraw' hid' ha
    · obtain ⟨hlast, hanswered⟩ : i = before.log.length ∧ before.answered env r = a := by
        rw [List.getElem?_append_right hi, List.getElem?_singleton] at ha
        split_ifs at ha with hzero
        exact ⟨by omega, Option.some.inj ha⟩
      subst hlast hanswered
      rw [List.take_append_of_le_length le_rfl, List.take_length]
      exact entitles_handle (inBook_run hinj husers htokens hraw' hid')
        (checksPassed_run hinj husers htokens hraw' hid') hminted

/-- Every session that was ever handed out is one of the user that the answer names, and was to a
request that registered the address, or gave the password that its account had then, or presented a
reset link that had been mailed to it. -/
theorem runAuth_entitled (hinj : Function.Injective env.hashEmailToken)
    (husers : app.db.users.rows = []) (htokens : app.db.tokens.rows = [])
    (hraw : (requests.map (·.ctx.rawToken)).Nodup) (hid : (requests.map (·.ctx.tokenId)).Nodup)
    {i : Nat} {a : Answered Tok} (ha : (runAuth env { app } requests).log[i]? = some a)
    {response : AuthResponse Tok} (hminted : a.minted = some response) :
    (∃ user, response = { token := tokenFor env a.request.ctx user, user := userOut user }) ∧
      Entitles env ((runAuth env { app } requests).log.take i) a response.user := by
  refine ⟨?_, entitles_run hinj husers htokens hraw hid ha hminted⟩
  obtain ⟨user, hresponse, -⟩ :=
    (sessions_run husers requests).minted a (List.mem_of_getElem? ha) response hminted
  exact ⟨user, hresponse⟩

end Runs

/-- A login that answers after the password it gave was reset. -/
def loginAroundReset : List (AuthRequest Payload) :=
  [{ ctx := contextWith 0 1 "welcome", call := .register ownerRegistration },
    { ctx := contextWith 60 2 "unused", call := .checkLogin ownerLogin },
    { ctx := contextWith 90 3 "link", call := .forgotPassword { email := "owner@example.com" } },
    { ctx := contextWith 100 4 "unused too", call := .resetPassword newPassword },
    { ctx := contextWith 110 5 "never sent", call := .answerLogin 0 }]

theorem runAuth_entitled_aroundReset :
    ∃ a, (runAuth plainEnv { app := freshApp } loginAroundReset).log[4]? = some a ∧
      Entitles plainEnv ((runAuth plainEnv { app := freshApp } loginAroundReset).log.take 4) a
        (ownerOut false) := by
  have hlogin : (runAuth plainEnv { app := freshApp } loginAroundReset).log[4]?.bind
      Answered.minted = some { token := ownerToken 0 110, user := ownerOut false } := by
    decide +kernel
  obtain ⟨a, ha, hminted⟩ := Option.bind_eq_some_iff.mp hlogin
  exact ⟨a, ha, (runAuth_entitled (fun raw raw' h => by simpa [plainEnv] using h) rfl rfl
    (by decide) (by decide) ha hminted).2⟩

end StockQuant
