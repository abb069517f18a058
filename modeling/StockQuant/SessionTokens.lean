import StockQuant.SessionVersions

/-! Which session tokens are accepted after a run of the auth endpoints. -/

namespace StockQuant

open KeyedTable

variable {Tok : Type}

theorem resets_take_eq_iff {log : List (Answered Tok)} {n : Nat} {userId : Uuid} :
    resets (log.take n) userId = resets log userId ↔
      ∀ b ∈ log.drop n, b.resetOf ≠ some userId := by
  have hsplit : resets log userId = resets (log.take n) userId + resets (log.drop n) userId := by
    conv_lhs => rw [← List.take_append_drop n log]
    exact List.countP_append
  rw [hsplit, left_eq_add]
  simp [resets, List.countP_eq_zero]

/-- A token that was encoded decodes to its payload, from its date until it expires. -/
def DecodesEncoded (env : Env Tok) : Prop :=
  ∀ payload now payload', env.decode (env.encode payload) now = some payload' ↔
    payload' = payload ∧ payload.iat ≤ now ∧ now < payload.exp

def AcceptedAs (env : Env Tok) (db : Accounts) (token : Tok) (now : ℚ) (userId : Uuid) : Prop :=
  ∃ row, getCurrentUser env db (some token) now = .ok row ∧ row.id = userId

/-- No reset of the user came after the read of the row behind this answer, and its
token has not expired. -/
def Answered.Live (env : Env Tok) (log : List (Answered Tok)) (a : Answered Tok) (now : ℚ)
    (userId : Uuid) : Prop :=
  now < tokenExpiry env a.request.ctx.now ∧ ∀ b ∈ log.drop (a.readAt + 1), b.resetOf ≠ some userId

section Acceptance

variable {env : Env Tok} {now : ℚ}

theorem decode_tokenFor_eq_some_iff (hjwt : DecodesEncoded env) {ctx : Context} {user : User}
    (hnow : ctx.now ≤ now) {payload : Payload} :
    env.decode (tokenFor env ctx user) now = some payload ↔
      payload = accessPayload env user.id user.tokenVersion ctx.now ctx.jti ∧
        now < tokenExpiry env ctx.now := by
  have hissued : ((⌊ctx.now⌋ : Int) : ℚ) ≤ now := (Int.floor_le ctx.now).trans hnow
  refine (hjwt _ _ _).trans (and_congr_right fun _ => ?_)
  exact and_iff_right hissued

theorem Sessions.accepted_iff (hjwt : DecodesEncoded env) {db : Accounts}
    {checked : List (Nat × User)} {log : List (Answered Tok)} (h : Sessions env db checked log)
    {a : Answered Tok} (ha : a ∈ log) {response : AuthResponse Tok}
    (hresponse : a.minted = some response) (hnow : a.request.ctx.now ≤ now) (userId : Uuid) :
    AcceptedAs env db response.token now userId ↔
      response.user.id = userId ∧ a.Live env log now userId := by
  obtain ⟨user, rfl, hread⟩ := h.minted a ha response hresponse
  unfold AcceptedAs Answered.Live
  simp only [getCurrentUser_eq_ok_iff, decode_tokenFor_eq_some_iff hjwt hnow]
  constructor
  · rintro ⟨row, ⟨payload, ⟨rfl, hexpires⟩, hsub, hget, hver⟩, rfl⟩
    obtain hid : user.id = row.id := Option.some_inj.mp hsub
    have hversion : user.tokenVersion = row.tokenVersion := by
      simpa [accessPayload] using hver
    refine ⟨hid, hexpires, resets_take_eq_iff.mp ?_⟩
    rw [← hid, ← hread.version, hversion, hid]
    exact h.versions _ _ (Accounts.version?_eq_some_iff.mpr ⟨row, hget, rfl⟩)
  · rintro ⟨rfl, hexpires, hquiet⟩
    obtain ⟨version, hversion⟩ := Option.ne_none_iff_exists'.mp hread.known
    obtain ⟨row, hget, rfl⟩ := Accounts.version?_eq_some_iff.mp hversion
    obtain hid : row.id = user.id := (Table.get?_eq_some_iff.mp hget).2
    have hsame : user.tokenVersion = row.tokenVersion := by
      rw [hread.version, h.versions _ _ hversion]
      exact resets_take_eq_iff.mpr hquiet
    refine ⟨row, ⟨_, ⟨rfl, hexpires⟩, by rw [hid]; rfl, by rwa [hid], ?_⟩, hid⟩
    simp [accessPayload, hsame]

/-- After any run, a bearer token is accepted as a user exactly when the server minted it
for that user, it has not expired, and no reset of the user came after the row behind it
was read. Any of the answers that handed out the token decides. -/
theorem getCurrentUser_iff (hjwt : DecodesEncoded env) {app : App}
    (hempty : app.db.users.rows = []) {requests : List (AuthRequest Tok)} {s : AuthState Tok}
    (hs : s = runAuth env { app } requests) {token : Tok}
    (hforged : env.decode token now ≠ none →
      ∃ a ∈ s.log, ∃ response, a.minted = some response ∧ response.token = token)
    (hnow : ∀ a ∈ s.log, a.request.ctx.now ≤ now) (userId : Uuid) :
    (AcceptedAs env s.app.db token now userId ↔
      ∃ a ∈ s.log, ∃ response, a.minted = some response ∧ response.token = token ∧
        response.user.id = userId ∧ a.Live env s.log now userId) ∧
    ∀ a ∈ s.log, ∀ response, a.minted = some response → response.token = token →
      (AcceptedAs env s.app.db token now userId ↔
        response.user.id = userId ∧ a.Live env s.log now userId) := by
  have hsessions : Sessions env s.app.db s.checked s.log := hs ▸ sessions_run hempty requests
  have hminted : ∀ a ∈ s.log, ∀ response, a.minted = some response → response.token = token →
      (AcceptedAs env s.app.db token now userId ↔
        response.user.id = userId ∧ a.Live env s.log now userId) := by
    rintro a ha response hresponse rfl
    exact hsessions.accepted_iff hjwt ha hresponse (hnow a ha) userId
  refine ⟨⟨fun haccepted => ?_, ?_⟩, hminted⟩
  · obtain ⟨row, hrow, hid⟩ := haccepted
    obtain ⟨payload, hdecode, -⟩ := getCurrentUser_eq_ok_iff.mp hrow
    obtain ⟨a, ha, response, hresponse, htoken⟩ := hforged (by simp [hdecode])
    exact ⟨a, ha, response, hresponse, htoken,
      (hminted a ha response hresponse htoken).mp ⟨row, hrow, hid⟩⟩
  · rintro ⟨a, ha, response, hresponse, htoken, hlive⟩
    exact (hminted a ha response hresponse htoken).mpr hlive

end Acceptance

theorem decodesEncoded_plainEnv : DecodesEncoded plainEnv := by
  intro payload now payload'
  simp only [plainEnv, id]
  split_ifs with hlive
  · simp [hlive, eq_comm]
  · simp [hlive]

def lateLogin : List (AuthRequest Payload) :=
  [{ ctx := contextWith 0 1 "welcome", call := .register ownerRegistration },
    { ctx := plainContext 60, call := .checkLogin ownerLogin },
    { ctx := contextWith 90 2 "link", call := .forgotPassword { email := "owner@example.com" } },
    { ctx := plainContext 100, call := .resetPassword newPassword },
    { ctx := plainContext 110, call := .answerLogin 0 }]

def afterLateLogin : AuthState Payload := runAuth plainEnv { app := freshApp } lateLogin

def ownerToken (version iat : Int) : Payload where
  sub := some 1
  ver := some version
  iat := iat
  jti := ""
  exp := iat + 86400

def ownerOut (emailVerified : Bool) : UserOut where
  id := 1
  email := "owner@example.com"
  displayName := none
  emailVerified := emailVerified

theorem length_afterLateLogin : afterLateLogin.log.length = 5 := by decide +kernel

def lateAnswer (k : Fin 5) : Answered Payload :=
  afterLateLogin.log.get (k.cast length_afterLateLogin.symm)

theorem getCurrentUser_iff_lateLogin :
    ¬ AcceptedAs plainEnv afterLateLogin.app.db (ownerToken 0 110) 120 1 ∧
      AcceptedAs plainEnv afterLateLogin.app.db (ownerToken 1 100) 120 1 := by
  have hlogin : (lateAnswer 4).minted =
      some { token := ownerToken 0 110, user := ownerOut false } := by decide +kernel
  have hreset : (lateAnswer 3).minted =
      some { token := ownerToken 1 100, user := ownerOut true } := by decide +kernel
  have hnow : ∀ a ∈ afterLateLogin.log, a.request.ctx.now ≤ 120 := by decide +kernel
  constructor
  · have hstale : ¬ (lateAnswer 4).Live plainEnv afterLateLogin.log 120 1 := fun hlive =>
      absurd hlive.2 (by decide +kernel)
    exact ((getCurrentUser_iff decodesEncoded_plainEnv rfl rfl
      (fun _ => ⟨lateAnswer 4, List.get_mem _ _, _, hlogin, rfl⟩) hnow 1).2 (lateAnswer 4)
      (List.get_mem _ _) _ hlogin rfl).not.mpr fun hlive => hstale hlive.2
  · have hlive : (lateAnswer 3).Live plainEnv afterLateLogin.log 120 1 :=
      ⟨by decide +kernel, by decide +kernel⟩
    exact ((getCurrentUser_iff decodesEncoded_plainEnv rfl rfl
      (fun _ => ⟨lateAnswer 3, List.get_mem _ _, _, hreset, rfl⟩) hnow 1).2 (lateAnswer 3)
      (List.get_mem _ _) _ hreset rfl).mpr ⟨rfl, hlive⟩

end StockQuant
