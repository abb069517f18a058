import StockQuant.AuthEffects
import StockQuant.AuthSessions

/-! Where the passwords, the links and the sessions come from, however the requests to the account
endpoints interleave. -/

namespace StockQuant

open KeyedTable ReadCommitted

variable {ι Tok : Type}

namespace Accounts

/-- The raw value is that of a link for the account. -/
def HasLink (db : Accounts) (env : Env Tok) (purpose : Purpose) (userId : Uuid) (raw : String) :
    Prop :=
  ∃ token ∈ db.tokens.rows,
    token.tokenHash = env.hashEmailToken raw ∧ token.purpose = purpose ∧ token.userId = userId

def HasAddress (db : Accounts) (userId : Uuid) (email : String) : Prop :=
  ∃ user ∈ db.users.rows, user.id = userId ∧ user.email = email

/-- Later contents of the tables. Passwords and versions are left open. -/
structure Grown (db db' : Accounts) : Prop where
  users : ∀ user ∈ db.users.rows, ∃ user' ∈ db'.users.rows, user'.id = user.id ∧
    user'.email = user.email ∧ user'.displayName = user.displayName ∧
    (user.emailVerified → user'.emailVerified)
  tokens : db.Later db'

variable {db db' db'' : Accounts}

theorem Grown.refl (db : Accounts) : db.Grown db :=
  ⟨fun user huser => ⟨user, huser, rfl, rfl, rfl, id⟩, Later.refl db⟩

theorem Grown.trans (h : db.Grown db') (h' : db'.Grown db'') : db.Grown db'' where
  users user huser := by
    obtain ⟨user', huser', hid, hemail, hname, hverified⟩ := h.users user huser
    obtain ⟨user'', huser'', hid', hemail', hname', hverified'⟩ := h'.users user' huser'
    exact ⟨user'', huser'', hid'.trans hid, hemail'.trans hemail, hname'.trans hname,
      hverified' ∘ hverified⟩
  tokens := ⟨h'.tokens.hasToken ∘ h.tokens.hasToken, h'.tokens.used ∘ h.tokens.used⟩

theorem HasLink.grown {env : Env Tok} {purpose : Purpose} {userId : Uuid} {raw : String}
    (h : db.HasLink env purpose userId raw) (hgrown : db.Grown db') :
    db'.HasLink env purpose userId raw := by
  obtain ⟨token, htoken, hhash, hpurpose, huser⟩ := h
  obtain ⟨usedAt, hlater⟩ := hgrown.tokens.hasToken ⟨token.usedAt, htoken⟩
  exact ⟨_, hlater, hhash, hpurpose, huser⟩

theorem HasAddress.grown {userId : Uuid} {email : String} (h : db.HasAddress userId email)
    (hgrown : db.Grown db') : db'.HasAddress userId email := by
  obtain ⟨user, huser, hid, hemail⟩ := h
  obtain ⟨user', huser', hid', hemail', -⟩ := hgrown.users user huser
  exact ⟨user', huser', hid'.trans hid, hemail'.trans hemail⟩

end Accounts

def storedAddress (env : Env Tok) (email : String) : String :=
  normalizeEmail env.lower (normalizeEmail env.lower email)

section Explained

variable (env : Env Tok) (jobs : ι → AccountJob Tok) (schedule : List (ι × Context)) (db : Accounts)

def DrawnId (i : ι) (userId : Uuid) : Prop := ∃ ctx, (i, ctx) ∈ schedule ∧ ctx.userId = userId

/-- The request asks for a link of the purpose for the account: it names the account's address, or
it brings a session of the account, or it has registered the account, whose id it has drawn. -/
def AsksLink (i : ι) : AccountJob Tok → Purpose → Uuid → Prop
  | .link (.forgotPassword body), .passwordReset, userId =>
    db.HasAddress userId (storedAddress env body.email)
  | .link (.resendVerification credentials), .verifyEmail, userId =>
    ∃ token now payload, credentials = some token ∧ env.decode token now = some payload ∧
      payload.sub = some userId
  | .register body, .verifyEmail, userId =>
    DrawnId schedule i userId ∧ db.HasAddress userId (storedAddress env body.email)
  | _, _, _ => False

/-- A request that asks for the link has drawn its raw value. -/
def DrawnLink (token : EmailToken) : Prop :=
  ∃ i ctx, (i, ctx) ∈ schedule ∧ token.tokenHash = env.hashEmailToken ctx.rawToken ∧
    AsksLink env schedule db i (jobs i) token.purpose token.userId

/-- The hash is that of the password of a request, with the salt that it drew. -/
def HashedBy (i : ι) (password passwordHash : String) : Prop :=
  ∃ ctx, (i, ctx) ∈ schedule ∧ env.hashPassword password ctx.salt = some passwordHash

/-- The password is the one with which the address was registered, or that of a reset which
presents a link for the account. -/
inductive PasswordGiven (userId : Uuid) (email passwordHash : String) : Prop
  | registered (i : ι) (body : RegisterRequest) (hjob : jobs i = .register body)
    (hdrawn : DrawnId schedule i userId) (hemail : email = storedAddress env body.email)
    (hhash : HashedBy env schedule i body.password passwordHash)
  | reset (i : ι) (body : ResetPasswordRequest) (hjob : jobs i = .token (.resetPassword body))
    (hlink : db.HasLink env .passwordReset userId body.token)
    (hhash : HashedBy env schedule i body.password passwordHash)

def LinkPresented (userId : Uuid) : Prop :=
  ∃ i job, jobs i = .token job ∧ db.HasLink env job.purpose userId job.token

structure AccountsExplained : Prop where
  passwords : ∀ user ∈ db.users.rows,
    PasswordGiven env jobs schedule db user.id user.email user.passwordHash
  verified : ∀ user ∈ db.users.rows, user.emailVerified → LinkPresented env jobs db user.id
  links : ∀ token ∈ db.tokens.rows, DrawnLink env jobs schedule db token

end Explained

section Later

variable {env : Env Tok} {jobs : ι → AccountJob Tok} {schedule schedule' : List (ι × Context)}
  {db db' : Accounts}

theorem DrawnId.later {i : ι} {userId : Uuid} (h : DrawnId schedule i userId)
    (hsub : schedule ⊆ schedule') : DrawnId schedule' i userId :=
  h.imp fun _ h => ⟨hsub h.1, h.2⟩

theorem AsksLink.later {i : ι} {job : AccountJob Tok} {purpose : Purpose} {userId : Uuid}
    (h : AsksLink env schedule db i job purpose userId) (hsub : schedule ⊆ schedule')
    (hgrown : db.Grown db') : AsksLink env schedule' db' i job purpose userId := by
  rcases job with body | body | (body | credentials) | job <;> cases purpose
  all_goals first
    | exact h
    | exact h.elim
    | exact Accounts.HasAddress.grown h hgrown
    | exact ⟨h.1.later hsub, h.2.grown hgrown⟩

theorem DrawnLink.later {token : EmailToken} (h : DrawnLink env jobs schedule db token)
    (hsub : schedule ⊆ schedule') (hgrown : db.Grown db') :
    DrawnLink env jobs schedule' db' token := by
  obtain ⟨i, ctx, hevent, hhash, hasks⟩ := h
  exact ⟨i, ctx, hsub hevent, hhash, hasks.later hsub hgrown⟩

theorem HashedBy.later {i : ι} {password passwordHash : String}
    (h : HashedBy env schedule i password passwordHash) (hsub : schedule ⊆ schedule') :
    HashedBy env schedule' i password passwordHash :=
  h.imp fun _ h => ⟨hsub h.1, h.2⟩

theorem PasswordGiven.later {userId : Uuid} {email passwordHash : String}
    (h : PasswordGiven env jobs schedule db userId email passwordHash)
    (hsub : schedule ⊆ schedule') (hgrown : db.Grown db') :
    PasswordGiven env jobs schedule' db' userId email passwordHash := by
  cases h with
  | registered i body hjob hdrawn hemail hhash =>
    exact .registered i body hjob (hdrawn.later hsub) hemail (hhash.later hsub)
  | reset i body hjob hlink hhash =>
    exact .reset i body hjob (hlink.grown hgrown) (hhash.later hsub)

theorem LinkPresented.grown {userId : Uuid} (h : LinkPresented env jobs db userId)
    (hgrown : db.Grown db') : LinkPresented env jobs db' userId := by
  obtain ⟨i, job, hjob, hlink⟩ := h
  exact ⟨i, job, hjob, hlink.grown hgrown⟩

end Later

/-- The contents of the tables after a statement of the request `i`, with what accounts for the
writes. -/
inductive AccountWrite (env : Env Tok) (jobs : ι → AccountJob Tok) (schedule : List (ι × Context))
    (i : ι) (db : Accounts) : Accounts → Prop
  | nothing : AccountWrite env jobs schedule i db db
  | used (p : EmailToken → Bool) (now : ℚ) :
    AccountWrite env jobs schedule i db (db.markUsed p now)
  | password (body : ResetPasswordRequest) (userId : Uuid) (passwordHash : String) (now : ℚ)
    (version : Nat) (hjob : jobs i = .token (.resetPassword body))
    (hlink : db.HasLink env .passwordReset userId body.token)
    (hhash : HashedBy env schedule i body.password passwordHash) :
    AccountWrite env jobs schedule i db (db.writePassword userId passwordHash now version)
  | verified (job : TokenJob) (userId : Uuid) (now : ℚ) (hjob : jobs i = .token job)
    (hlink : db.HasLink env job.purpose userId job.token) :
    AccountWrite env jobs schedule i db (db.writeVerified userId now)
  | link (token : EmailToken) (db' : Accounts) (hinsert : db.insertToken token = some db')
    (hdrawn : DrawnLink env jobs schedule db token) : AccountWrite env jobs schedule i db db'
  | user (body : RegisterRequest) (user : User) (db' : Accounts)
    (hinsert : db.insertUser user = some db') (hunverified : user.emailVerified = false)
    (hgiven : PasswordGiven env jobs schedule db user.id user.email user.passwordHash) :
    AccountWrite env jobs schedule i db db'

section Writes

variable {env : Env Tok} {jobs : ι → AccountJob Tok} {schedule : List (ι × Context)} {i : ι}
  {db db' : Accounts}

theorem insertToken_eq_some {token : EmailToken} (h : db.insertToken token = some db') :
    db'.users = db.users ∧ db'.tokens.rows = token :: db.tokens.rows := by
  unfold Accounts.insertToken at h
  split at h
  · obtain rfl := Option.some_inj.mp h
    exact ⟨rfl, rfl⟩
  · cases h

theorem grown_mapUsers {f : User → User} (hid : ∀ u, (f u).id = u.id)
    (hemail : ∀ u, (f u).email = u.email) (hname : ∀ u, (f u).displayName = u.displayName)
    (hverified : ∀ u, u.emailVerified → (f u).emailVerified) :
    db.Grown (db.mapUsers f hid hemail) where
  users user huser :=
    ⟨f user, List.mem_map_of_mem huser, hid user, hemail user, hname user, hverified user⟩
  tokens := Accounts.mapUsers_later db hid hemail

theorem grown_of_tokens {token : EmailToken} (husers : db'.users = db.users)
    (htokens : db'.tokens.rows = token :: db.tokens.rows) : db.Grown db' where
  users user huser := ⟨user, husers ▸ huser, rfl, rfl, rfl, id⟩
  tokens :=
    { hasToken := fun ⟨usedAt, hrow⟩ => ⟨usedAt, htokens ▸ List.mem_cons_of_mem _ hrow⟩
      used := fun ⟨row, hrow, hused⟩ => ⟨row, htokens ▸ List.mem_cons_of_mem _ hrow, hused⟩ }

theorem grown_of_users {user : User} (husers : db'.users.rows = user :: db.users.rows)
    (htokens : db'.tokens = db.tokens) : db.Grown db' where
  users row hrow := ⟨row, husers ▸ List.mem_cons_of_mem _ hrow, rfl, rfl, rfl, id⟩
  tokens :=
    { hasToken := fun ⟨usedAt, hrow⟩ => ⟨usedAt, htokens ▸ hrow⟩
      used := fun ⟨row, hrow, hused⟩ => ⟨row, htokens ▸ hrow, hused⟩ }

theorem AccountWrite.grown (h : AccountWrite env jobs schedule i db db') : db.Grown db' := by
  cases h with
  | nothing => exact Accounts.Grown.refl db
  | used p now =>
    exact ⟨(Accounts.Grown.refl db).users, Accounts.markUsed_later db p now⟩
  | password body userId passwordHash now version hjob hlink hhash =>
    refine grown_mapUsers _ _ (fun user => ?_) fun user hverified => ?_
    · split <;> rfl
    · split <;> exact hverified
  | verified job userId now hjob hlink =>
    refine grown_mapUsers _ _ (fun user => ?_) fun user hverified => ?_
    · split <;> rfl
    · split
      · rfl
      · exact hverified
  | link token db' hinsert hdrawn =>
    obtain ⟨husers, htokens⟩ := insertToken_eq_some hinsert
    exact grown_of_tokens husers htokens
  | user body user db' hinsert hunverified hgiven =>
    obtain ⟨-, husers, htokens⟩ := insertUser_eq_some hinsert
    exact grown_of_users husers htokens

/-- The users of a table whose rows were changed in place. -/
theorem explained_mapUsers {f : User → User} {hid : ∀ u, (f u).id = u.id}
    {hemail : ∀ u, (f u).email = u.email} (h : AccountsExplained env jobs schedule db)
    (hgrown : db.Grown (db.mapUsers f hid hemail))
    (hpassword : ∀ u ∈ db.users.rows, (f u).passwordHash = u.passwordHash ∨
      PasswordGiven env jobs schedule db u.id u.email (f u).passwordHash)
    (hverified : ∀ u ∈ db.users.rows, (f u).emailVerified = u.emailVerified ∨
      LinkPresented env jobs db u.id) :
    AccountsExplained env jobs schedule (db.mapUsers f hid hemail) where
  passwords user huser := by
    obtain ⟨old, hold, rfl⟩ := List.mem_map.mp huser
    rw [hid, hemail]
    rcases hpassword old hold with hsame | hgiven
    · rw [hsame]
      exact (h.passwords old hold).later (List.Subset.refl _) hgrown
    · exact hgiven.later (List.Subset.refl _) hgrown
  verified user huser hnow := by
    obtain ⟨old, hold, rfl⟩ := List.mem_map.mp huser
    rw [hid]
    rcases hverified old hold with hsame | hpresented
    · exact (h.verified old hold (hsame ▸ hnow)).grown hgrown
    · exact hpresented.grown hgrown
  links token htoken := (h.links token htoken).later (List.Subset.refl _) hgrown

theorem AccountsExplained.write (h : AccountsExplained env jobs schedule db)
    (hwrite : AccountWrite env jobs schedule i db db') :
    AccountsExplained env jobs schedule db' := by
  have hgrown := hwrite.grown
  have hsame := List.Subset.refl schedule
  cases hwrite with
  | nothing => exact h
  | used p now =>
    refine ⟨fun user huser => (h.passwords user huser).later hsame hgrown,
      fun user huser hnow => (h.verified user huser hnow).grown hgrown, fun token htoken => ?_⟩
    obtain ⟨old, hold, rfl⟩ := List.mem_map.mp htoken
    have hdrawn := (h.links old hold).later hsame hgrown
    split
    · exact hdrawn
    · exact hdrawn
  | password body userId passwordHash now version hjob hlink hhash =>
    refine explained_mapUsers h hgrown (fun user huser => ?_) fun user huser => ?_
    · split_ifs with hid
      · exact Or.inr (.reset i body hjob (hid ▸ hlink) hhash)
      · exact Or.inl rfl
    · exact Or.inl (by split <;> rfl)
  | verified job userId now hjob hlink =>
    refine explained_mapUsers h hgrown (fun user huser => ?_) fun user huser => ?_
    · exact Or.inl (by split <;> rfl)
    · split_ifs with hid
      · exact Or.inr ⟨i, job, hjob, hid ▸ hlink⟩
      · exact Or.inl rfl
  | link token db' hinsert hdrawn =>
    obtain ⟨husers, htokens⟩ := insertToken_eq_some hinsert
    refine ⟨fun user huser => (h.passwords user (husers ▸ huser)).later hsame hgrown,
      fun user huser hnow => (h.verified user (husers ▸ huser) hnow).grown hgrown,
      fun row hrow => ?_⟩
    rw [htokens] at hrow
    rcases List.mem_cons.mp hrow with rfl | hrow
    · exact hdrawn.later hsame hgrown
    · exact (h.links row hrow).later hsame hgrown
  | user body user db' hinsert hunverified hgiven =>
    obtain ⟨-, husers, htokens⟩ := insertUser_eq_some hinsert
    refine ⟨fun row hrow => ?_, fun row hrow hnow => ?_,
      fun token htoken => (h.links token (htokens ▸ htoken)).later hsame hgrown⟩
    · rw [husers] at hrow
      rcases List.mem_cons.mp hrow with rfl | hrow
      · exact hgiven.later hsame hgrown
      · exact (h.passwords row hrow).later hsame hgrown
    · rw [husers] at hrow
      rcases List.mem_cons.mp hrow with rfl | hrow
      · rw [hunverified] at hnow
        cases hnow
      · exact (h.verified row hrow hnow).grown hgrown

end Writes

/-- A mail for the account that its link is for, which is the account that was asked for. -/
def SentToOwner (env : Env Tok) (schedule : List (ι × Context)) (i : ι) (db : Accounts)
    (job : AccountJob Tok) (userId : Uuid) (mail : Mail) : Prop :=
  AsksLink env schedule db i job mail.purpose userId ∧ db.HasAddress userId mail.recipient ∧
    db.HasLink env mail.purpose userId mail.raw

section Points

variable (env : Env Tok) (jobs : ι → AccountJob Tok) (schedule : List (ι × Context)) (i : ι)
  (db : Accounts)

/-- The row was read at the time; its password need not be the account's any more. -/
def LoginExplained (body : LoginRequest) : LoginPoint → Prop
  | .verify user => user.email = storedAddress env body.email ∧
    PasswordGiven env jobs schedule db user.id user.email user.passwordHash
  | .signedIn user => user.email = storedAddress env body.email ∧
    PasswordGiven env jobs schedule db user.id user.email user.passwordHash ∧
    env.verifyPassword body.password user.passwordHash = some true
  | _ => True

def LinkExplained (job : AccountJob Tok) (purpose : Purpose) : LinkPoint → Prop
  | .selectOutstanding user => AsksLink env schedule db i job purpose user.id
  | .retire userId _ | .reloadUser userId | .insert userId => AsksLink env schedule db i job purpose userId
  | .refreshToken userId _ raw | .loadUser userId raw =>
    AsksLink env schedule db i job purpose userId ∧ db.HasLink env purpose userId raw
  | .sent userId mail => SentToOwner env schedule i db job userId mail
  | _ => True

def RegisterExplained (body : RegisterRequest) : RegisterPoint → Prop
  | .insert passwordHash => HashedBy env schedule i body.password passwordHash
  | .refresh userId =>
    DrawnId schedule i userId ∧ db.HasAddress userId (storedAddress env body.email)
  | .issue point => LinkExplained env schedule i db (.register body) .verifyEmail point
  | .created userId mail => SentToOwner env schedule i db (.register body) userId mail
  | _ => True

def TokenExplained (job : TokenJob) : TokenPoint Tok → Prop
  | .getUser token | .consume token | .refreshToken token => db.HasToken token ∧
    token.tokenHash = env.hashEmailToken job.token ∧ token.purpose = job.purpose
  | .selectOutstanding user => db.HasLink env job.purpose user.id job.token
  | .loadUser userId | .retire userId _ | .hashPassword userId _ | .checkVerified userId
  | .markVerified userId | .refreshVerified userId => db.HasLink env job.purpose userId job.token
  | .setPassword userId passwordHash _ | .findUser userId passwordHash
  | .flushPassword userId passwordHash | .reloadUser userId passwordHash _
  | .setVersion userId passwordHash _ _ =>
    db.HasLink env job.purpose userId job.token ∧
      ∃ body, job = .resetPassword body ∧ HashedBy env schedule i body.password passwordHash
  | .finished (.verified user) => db.HasLink env job.purpose user.id job.token
  | .finished (.signedIn response) => job.purpose = .passwordReset ∧
    db.HasLink env job.purpose response.user.id job.token
  | _ => True

def PointExplained : AccountJob Tok → AccountPoint Tok → Prop
  | .login body, .login point => LoginExplained env jobs schedule db body point
  | .register body, .register point => RegisterExplained env schedule i db body point
  | .link job, .link point => LinkExplained env schedule i db (.link job) job.purpose point
  | .token job, .token point => TokenExplained env schedule i db job point
  | _, _ => False

end Points

section LaterPoints

variable {env : Env Tok} {jobs : ι → AccountJob Tok} {schedule schedule' : List (ι × Context)}
  {i : ι} {db db' : Accounts}

theorem SentToOwner.later {job : AccountJob Tok} {userId : Uuid} {mail : Mail}
    (h : SentToOwner env schedule i db job userId mail) (hsub : schedule ⊆ schedule')
    (hgrown : db.Grown db') : SentToOwner env schedule' i db' job userId mail :=
  ⟨h.1.later hsub hgrown, h.2.1.grown hgrown, h.2.2.grown hgrown⟩

theorem LinkExplained.later {job : AccountJob Tok} {purpose : Purpose} {point : LinkPoint}
    (h : LinkExplained env schedule i db job purpose point) (hsub : schedule ⊆ schedule')
    (hgrown : db.Grown db') : LinkExplained env schedule' i db' job purpose point := by
  cases point with
  | selectOutstanding | retire | reloadUser | insert => exact AsksLink.later h hsub hgrown
  | refreshToken | loadUser => exact ⟨h.1.later hsub hgrown, h.2.grown hgrown⟩
  | sent userId mail => exact SentToOwner.later h hsub hgrown
  | start | finished | rejected | crashed => trivial

theorem TokenExplained.later {job : TokenJob} {point : TokenPoint Tok}
    (h : TokenExplained env schedule i db job point) (hsub : schedule ⊆ schedule')
    (hgrown : db.Grown db') : TokenExplained env schedule' i db' job point := by
  cases point with
  | getUser | consume | refreshToken => exact ⟨hgrown.tokens.hasToken h.1, h.2⟩
  | selectOutstanding | loadUser | retire | hashPassword | checkVerified | markVerified
  | refreshVerified => exact Accounts.HasLink.grown h hgrown
  | finished reply =>
    cases reply with
    | verified user => exact Accounts.HasLink.grown h hgrown
    | signedIn response => exact ⟨h.1, h.2.grown hgrown⟩
  | setPassword | findUser | flushPassword | reloadUser | setVersion =>
    obtain ⟨hlink, body, hjob, hhash⟩ := h
    exact ⟨hlink.grown hgrown, body, hjob, hhash.later hsub⟩
  | lookup | rejected | crashed => trivial

theorem PointExplained.later {job : AccountJob Tok} {point : AccountPoint Tok}
    (h : PointExplained env jobs schedule i db job point) (hsub : schedule ⊆ schedule')
    (hgrown : db.Grown db') : PointExplained env jobs schedule' i db' job point := by
  rcases job with body | body | job | job <;> rcases point with point | point | point | point
  all_goals try exact h.elim
  · cases point with
    | verify user => exact ⟨h.1, h.2.later hsub hgrown⟩
    | signedIn user => exact ⟨h.1, h.2.1.later hsub hgrown, h.2.2⟩
    | start | rejected | crashed => trivial
  · cases point with
    | insert passwordHash => exact HashedBy.later h hsub
    | refresh userId => exact ⟨h.1.later hsub, h.2.grown hgrown⟩
    | issue point => exact LinkExplained.later h hsub hgrown
    | created userId mail => exact SentToOwner.later h hsub hgrown
    | start | hashing | taken | crashed => trivial
  · exact LinkExplained.later h hsub hgrown
  · exact TokenExplained.later h hsub hgrown

end LaterPoints

section Steps

variable {env : Env Tok} {jobs : ι → AccountJob Tok} {schedule : List (ι × Context)} {i : ι}
  {ctx : Context} {db : Accounts}

theorem login_explained (hdb : AccountsExplained env jobs schedule db) {body : LoginRequest}
    {point : LoginPoint} (h : LoginExplained env jobs schedule db body point) :
    ((loginAction env body point).perform db).1 = db ∧
      LoginExplained env jobs schedule db body ((loginAction env body point).perform db).2 := by
  cases point with
  | start =>
    refine ⟨rfl, ?_⟩
    simp only [loginAction, perform_read]
    cases hfind : getUserByEmail env.lower db (normalizeEmail env.lower body.email) with
    | none => trivial
    | some user =>
      obtain ⟨huser, hemail⟩ := getUserByEmail_eq_some_iff.mp hfind
      exact ⟨hemail, hdb.passwords user huser⟩
  | verify user =>
    refine ⟨rfl, ?_⟩
    simp only [loginAction, perform_work]
    rcases hverify : env.verifyPassword body.password user.passwordHash with _ | _ | _
    · trivial
    · trivial
    · exact ⟨h.1, h.2, hverify⟩
  | signedIn user => exact ⟨rfl, h⟩
  | rejected | crashed => exact ⟨rfl, trivial⟩

theorem link_started (env : Env Tok) (schedule : List (ι × Context)) (i : ι) (ctx : Context)
    (db : Accounts) (job : LinkJob Tok) :
    ((linkAction env ctx job .start).perform db).1 = db ∧
      LinkExplained env schedule i db (.link job) job.purpose
        ((linkAction env ctx job .start).perform db).2 := by
  refine ⟨by cases job <;> rfl, ?_⟩
  cases job with
  | forgotPassword body =>
    simp only [linkAction, perform_read]
    cases hfind : getUserByEmail env.lower db (normalizeEmail env.lower body.email) with
    | none => trivial
    | some user =>
      obtain ⟨huser, hemail⟩ := getUserByEmail_eq_some_iff.mp hfind
      exact ⟨user, huser, rfl, hemail⟩
  | resendVerification credentials =>
    simp only [linkAction, perform_read]
    cases hcurrent : getCurrentUser env db credentials ctx.now with
    | error exception => trivial
    | ok user =>
      dsimp only
      split_ifs
      · trivial
      · cases credentials with
        | none => cases hcurrent
        | some token =>
          obtain ⟨payload, hdecode, hsub, hget, -⟩ := getCurrentUser_eq_ok_iff.mp hcurrent
          exact ⟨token, ctx.now, payload, rfl, hdecode, hsub⟩

theorem link_explained (hevent : (i, ctx) ∈ schedule) (job : LinkJob Tok) {point : LinkPoint}
    (hstart : point ≠ .start)
    (h : LinkExplained env schedule i db (jobs i) job.purpose point) :
    AccountWrite env jobs schedule i db ((linkAction env ctx job point).perform db).1 ∧
      LinkExplained env schedule i ((linkAction env ctx job point).perform db).1 (jobs i) job.purpose
        ((linkAction env ctx job point).perform db).2 := by
  cases point with
  | start => exact absurd rfl hstart
  | selectOutstanding user =>
    refine ⟨.nothing, ?_⟩
    simp only [linkAction, perform_read]
    split_ifs <;> exact h
  | retire userId ids =>
    have hwrite : AccountWrite env jobs schedule i db (db.markUsed (·.id ∈ ids) ctx.now) :=
      .used _ ctx.now
    exact ⟨hwrite, AsksLink.later h (List.Subset.refl _) hwrite.grown⟩
  | reloadUser userId =>
    refine ⟨.nothing, ?_⟩
    simp only [linkAction, perform_read]
    cases db.users.get? userId with
    | none => trivial
    | some user => exact h
  | insert userId =>
    simp only [linkAction, Action.perform]
    cases hcreate : createEmailToken db ctx.tokenId userId job.purpose
      (env.hashEmailToken ctx.rawToken) (ttlMinutes env job.purpose) ctx.now with
    | none => exact ⟨.nothing, trivial⟩
    | some db' =>
      have hrows := (insertToken_eq_some hcreate).2
      have hwrite : AccountWrite env jobs schedule i db db' :=
        .link _ db' hcreate ⟨i, ctx, hevent, rfl, h⟩
      refine ⟨hwrite, AsksLink.later h (List.Subset.refl _) hwrite.grown, ?_⟩
      exact ⟨_, hrows ▸ List.mem_cons_self, rfl, rfl, rfl⟩
  | refreshToken userId tokenId raw =>
    refine ⟨.nothing, ?_⟩
    simp only [linkAction, perform_read]
    cases db.tokens.get? tokenId with
    | none => trivial
    | some token => exact h
  | loadUser userId raw =>
    refine ⟨.nothing, ?_⟩
    simp only [linkAction, perform_read]
    cases hget : db.users.get? userId with
    | none => trivial
    | some user =>
      obtain ⟨huser, hid⟩ := Table.get?_eq_some_iff.mp hget
      exact ⟨h.1, ⟨user, huser, hid, rfl⟩, h.2⟩
  | sent userId mail => exact ⟨.nothing, h⟩
  | finished | rejected | crashed => exact ⟨.nothing, trivial⟩

theorem registerExplained_registerPoint {body : RegisterRequest} {point : LinkPoint}
    (h : LinkExplained env schedule i db (.register body) .verifyEmail point) :
    RegisterExplained env schedule i db body (registerPoint point) := by
  cases point <;> exact h

theorem register_explained (hevent : (i, ctx) ∈ schedule) {body : RegisterRequest}
    (hjob : jobs i = .register body) {point : RegisterPoint}
    (h : RegisterExplained env schedule i db body point) :
    AccountWrite env jobs schedule i db ((registerAction env ctx body point).perform db).1 ∧
      RegisterExplained env schedule i ((registerAction env ctx body point).perform db).1 body
        ((registerAction env ctx body point).perform db).2 := by
  cases point with
  | start =>
    refine ⟨.nothing, ?_⟩
    simp only [registerAction, perform_read]
    split_ifs <;> trivial
  | hashing =>
    simp only [registerAction]
    cases hhash : env.hashPassword body.password ctx.salt with
    | none => exact ⟨.nothing, trivial⟩
    | some passwordHash => exact ⟨.nothing, ctx, hevent, hhash⟩
  | insert passwordHash =>
    simp only [registerAction, Action.perform]
    cases hcreate : createUser env.lower db ctx.userId (normalizeEmail env.lower body.email)
      passwordHash body.displayName ctx.now with
    | none => exact ⟨.nothing, trivial⟩
    | some created =>
      obtain ⟨user, db'⟩ := created
      have hinsert := (createUser_eq_some hcreate).1
      obtain rfl := createUser_user hcreate
      obtain ⟨-, husers, -⟩ := insertUser_eq_some hinsert
      have hdrawn : DrawnId schedule i ctx.userId := ⟨ctx, hevent, rfl⟩
      refine ⟨.user body _ db' hinsert rfl (.registered i body hjob hdrawn rfl h), hdrawn, ?_⟩
      exact ⟨_, husers ▸ List.mem_cons_self, rfl, rfl⟩
  | refresh userId =>
    refine ⟨.nothing, ?_⟩
    simp only [registerAction, perform_read]
    cases hget : db.users.get? userId with
    | none => trivial
    | some user =>
      obtain ⟨-, hid⟩ := Table.get?_eq_some_iff.mp hget
      obtain rfl := hid
      exact h
  | issue point =>
    simp only [registerAction, perform_map]
    by_cases hstart : point = .start
    · subst hstart
      exact ⟨.nothing, trivial⟩
    · have hlink : LinkExplained env schedule i db (jobs i) .verifyEmail point := hjob ▸ h
      obtain ⟨hwrite, hnext⟩ := link_explained hevent (.resendVerification none) hstart hlink
      exact ⟨hwrite, registerExplained_registerPoint (hjob ▸ hnext)⟩
  | created userId mail => exact ⟨.nothing, h⟩
  | taken | crashed => exact ⟨.nothing, trivial⟩

theorem hasLink_of_hasToken {token : EmailToken} {purpose : Purpose} {raw : String}
    (h : db.HasToken token) (hhash : token.tokenHash = env.hashEmailToken raw)
    (hpurpose : token.purpose = purpose) : db.HasLink env purpose token.userId raw := by
  obtain ⟨usedAt, hrow⟩ := h
  exact ⟨_, hrow, hhash, hpurpose, rfl⟩

theorem finished_explained {job : TokenJob} {user : User}
    (h : db.HasLink env job.purpose user.id job.token) :
    TokenExplained env schedule i db job (.finished (tokenReply env ctx job user)) := by
  cases job with
  | verifyEmail body => exact h
  | resetPassword body => exact ⟨rfl, h⟩

theorem token_explained (hevent : (i, ctx) ∈ schedule) {job : TokenJob}
    (hjob : jobs i = .token job) {point : TokenPoint Tok}
    (h : TokenExplained env schedule i db job point) :
    AccountWrite env jobs schedule i db ((tokenAction env ctx job point).perform db).1 ∧
      TokenExplained env schedule i ((tokenAction env ctx job point).perform db).1 job
        ((tokenAction env ctx job point).perform db).2 := by
  cases point with
  | lookup =>
    refine ⟨.nothing, ?_⟩
    simp only [tokenAction, perform_read]
    cases husable : getUsableEmailToken db job.purpose (env.hashEmailToken job.token) ctx.now with
    | none => trivial
    | some token =>
      obtain ⟨htoken, hhash, hpurpose, -⟩ := getUsableEmailToken_eq_some_iff.mp husable
      exact ⟨⟨token.usedAt, htoken⟩, hhash, hpurpose⟩
  | getUser token =>
    refine ⟨.nothing, ?_⟩
    simp only [tokenAction, perform_read]
    cases db.users.get? token.userId with
    | none => trivial
    | some user => exact h
  | consume token =>
    have hwrite : AccountWrite env jobs schedule i db (consumeEmailToken db token ctx.now) :=
      .used _ ctx.now
    exact ⟨hwrite, hwrite.grown.tokens.hasToken h.1, h.2⟩
  | refreshToken token =>
    refine ⟨.nothing, ?_⟩
    have hlink := hasLink_of_hasToken h.1 h.2.1 h.2.2
    simp only [tokenAction, perform_read]
    cases db.tokens.get? token.id with
    | none => trivial
    | some row => cases job <;> exact hlink
  | loadUser userId =>
    refine ⟨.nothing, ?_⟩
    simp only [tokenAction, perform_read]
    cases hget : db.users.get? userId with
    | none => trivial
    | some user =>
      obtain ⟨-, rfl⟩ := Table.get?_eq_some_iff.mp hget
      exact h
  | selectOutstanding user =>
    refine ⟨.nothing, ?_⟩
    simp only [tokenAction, perform_read]
    split_ifs <;> exact h
  | retire userId ids =>
    have hwrite : AccountWrite env jobs schedule i db (db.markUsed (·.id ∈ ids) ctx.now) :=
      .used _ ctx.now
    exact ⟨hwrite, Accounts.HasLink.grown h hwrite.grown⟩
  | hashPassword userId loaded =>
    refine ⟨.nothing, ?_⟩
    cases job with
    | verifyEmail body => trivial
    | resetPassword body =>
      simp only [tokenAction, perform_work]
      cases hhash : env.hashPassword body.password ctx.salt with
      | none => trivial
      | some passwordHash => cases loaded <;> exact ⟨h, body, rfl, ctx, hevent, hhash⟩
  | findUser userId passwordHash | flushPassword userId passwordHash
  | reloadUser userId passwordHash changedAt =>
    refine ⟨.nothing, ?_⟩
    simp only [tokenAction, perform_read]
    cases db.users.get? userId with
    | none => trivial
    | some user => exact h
  | setPassword userId passwordHash version =>
    obtain ⟨hlink, body, rfl, hhash⟩ := h
    have hwrite : AccountWrite env jobs schedule i db
        (db.writePassword userId passwordHash ctx.now version) :=
      .password body userId passwordHash ctx.now version hjob hlink hhash
    exact ⟨hwrite, hlink.grown hwrite.grown⟩
  | setVersion userId passwordHash changedAt version =>
    obtain ⟨hlink, body, rfl, hhash⟩ := h
    have hwrite : AccountWrite env jobs schedule i db
        (db.writePassword userId passwordHash changedAt version) :=
      .password body userId passwordHash changedAt version hjob hlink hhash
    exact ⟨hwrite, hlink.grown hwrite.grown⟩
  | checkVerified userId =>
    refine ⟨.nothing, ?_⟩
    simp only [tokenAction, perform_read]
    cases hget : db.users.get? userId with
    | none => trivial
    | some user =>
      obtain ⟨-, rfl⟩ := Table.get?_eq_some_iff.mp hget
      dsimp only
      split_ifs
      · exact h
      · exact finished_explained h
  | markVerified userId =>
    have hwrite : AccountWrite env jobs schedule i db (db.writeVerified userId ctx.now) :=
      .verified job userId ctx.now hjob h
    exact ⟨hwrite, Accounts.HasLink.grown h hwrite.grown⟩
  | refreshVerified userId =>
    refine ⟨.nothing, ?_⟩
    simp only [tokenAction, perform_read]
    cases hget : db.users.get? userId with
    | none => trivial
    | some user =>
      obtain ⟨-, rfl⟩ := Table.get?_eq_some_iff.mp hget
      exact finished_explained h
  | finished reply => exact ⟨.nothing, h⟩
  | rejected | crashed => exact ⟨.nothing, trivial⟩

theorem account_explained (hdb : AccountsExplained env jobs schedule db)
    (hevent : (i, ctx) ∈ schedule) {point : AccountPoint Tok}
    (h : PointExplained env jobs schedule i db (jobs i) point) :
    AccountWrite env jobs schedule i db ((accountProgram env jobs i ctx point).perform db).1 ∧
      PointExplained env jobs schedule i ((accountProgram env jobs i ctx point).perform db).1
        (jobs i) ((accountProgram env jobs i ctx point).perform db).2 := by
  unfold accountProgram
  cases hjob : jobs i with
  | login body =>
    rw [hjob] at h
    cases point with
    | login point =>
      obtain ⟨hsame, hnext⟩ := login_explained hdb h
      simp only [accountAction, perform_map, hsame]
      exact ⟨.nothing, hnext⟩
    | register | link | token => exact h.elim
  | register body =>
    rw [hjob] at h
    cases point with
    | register point =>
      simp only [accountAction, perform_map]
      exact register_explained hevent hjob h
    | login | link | token => exact h.elim
  | link job =>
    rw [hjob] at h
    cases point with
    | link point =>
      simp only [accountAction, perform_map]
      by_cases hstart : point = .start
      · subst hstart
        obtain ⟨hsame, hnext⟩ := link_started env schedule i ctx db job
        rw [hsame]
        exact ⟨.nothing, hnext⟩
      · have hlink : LinkExplained env schedule i db (jobs i) job.purpose point := hjob ▸ h
        obtain ⟨hwrite, hnext⟩ := link_explained hevent job hstart hlink
        rw [hjob] at hnext
        exact ⟨hwrite, hnext⟩
    | login | register | token => exact h.elim
  | token job =>
    rw [hjob] at h
    cases point with
    | token point =>
      simp only [accountAction, perform_map]
      exact token_explained hevent hjob h
    | login | register | link => exact h.elim

end Steps

end StockQuant
