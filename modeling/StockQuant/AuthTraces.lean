import StockQuant.AuthProvenance

/-! Runs of all account requests, interleaved statement by statement: what is stored and what was
handed out, traced back to the requests behind it. -/

namespace StockQuant

open ReadCommitted

variable {ι Tok : Type}

section Traces

variable {env : Env Tok} {jobs : ι → AccountJob Tok} {schedule : List (ι × Context)}

/-- A request that asks for a link of the purpose for the account has drawn the raw value. -/
def LinkTraced (env : Env Tok) (jobs : ι → AccountJob Tok) (schedule : List (ι × Context))
    (db : Accounts) (purpose : Purpose) (userId : Uuid) (raw : String) : Prop :=
  ∃ i ctx, (i, ctx) ∈ schedule ∧ ctx.rawToken = raw ∧
    AsksLink env schedule db i (jobs i) purpose userId

theorem AccountsExplained.traced {db : Accounts} (h : AccountsExplained env jobs schedule db)
    (hinj : Function.Injective env.hashEmailToken) {purpose : Purpose} {userId : Uuid}
    {raw : String} (hlink : db.HasLink env purpose userId raw) :
    LinkTraced env jobs schedule db purpose userId raw := by
  obtain ⟨token, htoken, hhash, rfl, rfl⟩ := hlink
  obtain ⟨i, ctx, hevent, hdrawn, hasks⟩ := h.links token htoken
  exact ⟨i, ctx, hevent, hinj (hdrawn.symm.trans hhash), hasks⟩

/-- The password is that of the registration which has drawn the id of the account and given its
address, or that of a reset which presents a link that was asked for the account. -/
inductive PasswordTraced (env : Env Tok) (jobs : ι → AccountJob Tok)
    (schedule : List (ι × Context)) (db : Accounts) (user : User) : Prop
  | registered (i : ι) (body : RegisterRequest) (hjob : jobs i = .register body)
    (hdrawn : DrawnId schedule i user.id) (hemail : user.email = storedAddress env body.email)
    (hhash : HashedBy env schedule i body.password user.passwordHash)
  | reset (i : ι) (body : ResetPasswordRequest) (hjob : jobs i = .token (.resetPassword body))
    (hlink : LinkTraced env jobs schedule db .passwordReset user.id body.token)
    (hhash : HashedBy env schedule i body.password user.passwordHash)

theorem AccountsExplained.passwordTraced {db : Accounts} {user : User}
    (h : AccountsExplained env jobs schedule db) (hinj : Function.Injective env.hashEmailToken)
    (hgiven : PasswordGiven env jobs schedule db user.id user.email user.passwordHash) :
    PasswordTraced env jobs schedule db user := by
  cases hgiven with
  | registered i body hjob hdrawn hemail hhash => exact .registered i body hjob hdrawn hemail hhash
  | reset i body hjob hlink hhash => exact .reset i body hjob (h.traced hinj hlink) hhash

/-- The account for which a request has been answered with a session. -/
def AccountPoint.entered : AccountPoint Tok → Option Uuid
  | .login (.signedIn user) => some user.id
  | .register (.created userId _) => some userId
  | .token (.finished (.signedIn response)) => some response.user.id
  | _ => none

def AccountPoint.sent : AccountPoint Tok → Option (Uuid × Mail)
  | .link (.sent userId mail) => some (userId, mail)
  | .register (.created userId mail) => some (userId, mail)
  | _ => none

/-- How the request came to a session of the account: it gave the password of a row that was read,
it has registered the account, whose id it has drawn, or it presented a reset link of the account. -/
inductive SessionTraced (env : Env Tok) (jobs : ι → AccountJob Tok)
    (schedule : List (ι × Context)) (i : ι) (db : Accounts) (userId : Uuid) :
    AccountJob Tok → Prop
  | login (body : LoginRequest) (user : User) (hid : user.id = userId)
    (hemail : user.email = storedAddress env body.email)
    (hpassword : env.verifyPassword body.password user.passwordHash = some true)
    (hgiven : PasswordTraced env jobs schedule db user) :
    SessionTraced env jobs schedule i db userId (.login body)
  | register (body : RegisterRequest) (hdrawn : DrawnId schedule i userId)
    (haddress : db.HasAddress userId (storedAddress env body.email)) :
    SessionTraced env jobs schedule i db userId (.register body)
  | reset (body : ResetPasswordRequest)
    (hlink : LinkTraced env jobs schedule db .passwordReset userId body.token) :
    SessionTraced env jobs schedule i db userId (.token (.resetPassword body))

theorem sessionTraced {i : ι} {db : Accounts} {job : AccountJob Tok} {point : AccountPoint Tok}
    {userId : Uuid} (h : AccountsExplained env jobs schedule db)
    (hinj : Function.Injective env.hashEmailToken)
    (hpoint : PointExplained env jobs schedule i db job point)
    (hentered : point.entered = some userId) :
    SessionTraced env jobs schedule i db userId job := by
  rcases job with body | body | job | job <;> rcases point with point | point | point | point
  all_goals try exact hpoint.elim
  · cases point with
    | signedIn user =>
      obtain ⟨hemail, hgiven, hpassword⟩ := hpoint
      exact .login body user (Option.some.inj hentered) hemail hpassword
        (h.passwordTraced hinj hgiven)
    | start | verify | rejected | crashed => cases hentered
  · cases point with
    | created owner mail =>
      obtain rfl := Option.some.inj hentered
      have hasks := hpoint.1
      cases hpurpose : mail.purpose with
      | verifyEmail =>
        rw [hpurpose] at hasks
        exact .register body hasks.1 hasks.2
      | passwordReset =>
        rw [hpurpose] at hasks
        exact hasks.elim
    | start | hashing | insert | refresh | issue | taken | crashed => cases hentered
  · cases hentered
  · cases point with
    | finished reply =>
      cases reply with
      | verified user => cases hentered
      | signedIn response =>
        obtain rfl := Option.some.inj hentered
        obtain ⟨hpurpose, hlink⟩ := hpoint
        cases job with
        | verifyEmail body => cases hpurpose
        | resetPassword body => exact .reset body (h.traced hinj hlink)
    | _ => cases hentered

theorem sentToOwner_of_sent {i : ι} {db : Accounts} {job : AccountJob Tok}
    {point : AccountPoint Tok} {userId : Uuid} {mail : Mail}
    (hpoint : PointExplained env jobs schedule i db job point)
    (hsent : point.sent = some (userId, mail)) : SentToOwner env schedule i db job userId mail := by
  rcases job with body | body | job | job <;> rcases point with point | point | point | point
  all_goals try exact hpoint.elim
  · cases hsent
  · cases point with
    | created owner sent =>
      obtain ⟨rfl, rfl⟩ := Prod.mk.inj (Option.some.inj hsent)
      exact hpoint
    | start | hashing | insert | refresh | issue | taken | crashed => cases hsent
  · cases point with
    | sent owner sent =>
      obtain ⟨rfl, rfl⟩ := Prod.mk.inj (Option.some.inj hsent)
      exact hpoint
    | start | selectOutstanding | retire | reloadUser | insert | refreshToken | loadUser | finished
    | rejected | crashed => cases hsent
  · cases hsent

end Traces

section Runs

variable {env : Env Tok} {jobs : ι → AccountJob Tok} {c : Config ι Accounts (AccountPoint Tok)}
  {schedule : List (ι × Context)}

structure RunExplained (env : Env Tok) (jobs : ι → AccountJob Tok)
    (schedule : List (ι × Context)) (c : Config ι Accounts (AccountPoint Tok)) : Prop where
  stored : AccountsExplained env jobs schedule c.store
  points : ∀ i, PointExplained env jobs schedule i c.store (jobs i) (c.session i)

theorem RunExplained.event (h : RunExplained env jobs schedule c) (event : ι × Context) :
    RunExplained env jobs (schedule ++ [event]) c := by
  have hsub : schedule ⊆ schedule ++ [event] := List.subset_append_left _ _
  have hgrown := Accounts.Grown.refl c.store
  exact
    { stored :=
        { passwords := fun user huser => (h.stored.passwords user huser).later hsub hgrown
          verified := h.stored.verified
          links := fun token htoken => (h.stored.links token htoken).later hsub hgrown }
      points := fun i => (h.points i).later hsub hgrown }

theorem runExplained_start (env : Env Tok) (husers : c.store.users.rows = [])
    (htokens : c.store.tokens.rows = []) (hstart : ∀ i, c.session i = (jobs i).start) :
    RunExplained env jobs [] c where
  stored := ⟨by simp [husers], by simp [husers], by simp [htokens]⟩
  points i := by
    rw [hstart]
    cases jobs i <;> trivial

variable [DecidableEq ι]

theorem RunExplained.step (h : RunExplained env jobs schedule c) {i : ι} {ctx : Context}
    (hevent : (i, ctx) ∈ schedule) :
    let next := step (accountProgram env jobs) c i ctx
    c.store.Grown next.store ∧ RunExplained env jobs schedule next := by
  obtain ⟨hwrite, hpoint⟩ := account_explained h.stored hevent (h.points i)
  refine ⟨hwrite.grown, h.stored.write hwrite, fun j => ?_⟩
  by_cases hj : j = i
  · subst hj
    rw [step_session_self]
    exact hpoint
  · rw [step_session_of_ne c hj]
    exact (h.points j).later (List.Subset.refl _) hwrite.grown

theorem run_explained (h : RunExplained env jobs [] c) (schedule : List (ι × Context)) :
    RunExplained env jobs schedule (run (accountProgram env jobs) c schedule) := by
  induction schedule using List.reverseRecOn with
  | nil => exact h
  | append_singleton schedule event ih =>
    rw [run_snoc]
    exact ((ih.event event).step (List.mem_append_right _ (List.mem_singleton_self event))).2

theorem run_grown (h : RunExplained env jobs [] c) (first rest : List (ι × Context)) :
    (run (accountProgram env jobs) c first).store.Grown
      (run (accountProgram env jobs) c (first ++ rest)).store := by
  induction rest using List.reverseRecOn with
  | nil =>
    rw [List.append_nil]
    exact Accounts.Grown.refl _
  | append_singleton rest event ih =>
    rw [← List.append_assoc, run_snoc]
    have hrun := (run_explained h (first ++ rest)).event event
    exact ih.trans (hrun.step (List.mem_append_right _ (List.mem_singleton_self event))).1

structure AccountsTraced (env : Env Tok) (jobs : ι → AccountJob Tok)
    (schedule : List (ι × Context)) (c : Config ι Accounts (AccountPoint Tok)) : Prop where
  passwords : ∀ user ∈ c.store.users.rows, PasswordTraced env jobs schedule c.store user
  verified : ∀ user ∈ c.store.users.rows, user.emailVerified → ∃ i job, jobs i = .token job ∧
    LinkTraced env jobs schedule c.store job.purpose user.id job.token
  sessions : ∀ i userId, (c.session i).entered = some userId →
    SessionTraced env jobs schedule i c.store userId (jobs i)
  mails : ∀ i userId mail, (c.session i).sent = some (userId, mail) →
    SentToOwner env schedule i c.store (jobs i) userId mail

/-- However the statements of the requests interleave, the accounts only grow, and everything in
them can be traced: a password to a registration of the address or to a reset with a link that was
asked for the account, a verified address to a presented link, a session to a password that was
right when it was read, to the registration or to such a reset, and a mail goes to the address of
the account whose link it carries. -/
theorem runAccounts_traced (hinj : Function.Injective env.hashEmailToken)
    (husers : c.store.users.rows = []) (htokens : c.store.tokens.rows = [])
    (hstart : ∀ i, c.session i = (jobs i).start) (first rest : List (ι × Context)) :
    (run (accountProgram env jobs) c first).store.Grown
      (run (accountProgram env jobs) c (first ++ rest)).store ∧
    AccountsTraced env jobs (first ++ rest) (run (accountProgram env jobs) c (first ++ rest)) := by
  have hempty := runExplained_start env husers htokens hstart
  obtain ⟨hstored, hpoints⟩ := run_explained hempty (first ++ rest)
  refine ⟨run_grown hempty first rest, ?_⟩
  exact
    { passwords := fun user huser => hstored.passwordTraced hinj (hstored.passwords user huser)
      verified := fun user huser hverified => by
        obtain ⟨i, job, hjob, hlink⟩ := hstored.verified user huser hverified
        exact ⟨i, job, hjob, hstored.traced hinj hlink⟩
      sessions := fun i userId hentered => sessionTraced hstored hinj (hpoints i) hentered
      mails := fun i userId mail hsent => sentToOwner_of_sent (hpoints i) hsent }

end Runs

def registersAndResets : Fin 3 → AccountJob Payload
  | 0 => .register ownerRegistration
  | 1 => .link (.forgotPassword { email := "owner@example.com" })
  | 2 => .token (.resetPassword newPassword)

def accountsStarted : Config (Fin 3) Accounts (AccountPoint Payload) where
  store := Accounts.empty
  session i := (registersAndResets i).start

def registering : List (Fin 3 × Context) := List.replicate 10 (0, contextWith 0 1 "welcome")

/-- The reset presents the link before the request that asked for it has come to its end. -/
def resetting : List (Fin 3 × Context) :=
  List.replicate 3 (1, contextWith 60 2 "link") ++ List.replicate 5 (2, contextWith 61 3 "") ++
    List.replicate 3 (1, contextWith 62 2 "") ++ List.replicate 8 (2, contextWith 63 3 "")

theorem runAccounts_traced_reset :
    let now := run (accountProgram plainEnv registersAndResets) accountsStarted
      (registering ++ resetting)
    (∃ user ∈ now.store.users.rows, user.passwordHash = "bcrypt:new password" ∧
      PasswordTraced plainEnv registersAndResets (registering ++ resetting) now.store user) ∧
    (∃ userId, (now.session 0).entered = some userId ∧
      SessionTraced plainEnv registersAndResets (registering ++ resetting) 0 now.store userId
        (registersAndResets 0)) ∧
    ∃ userId, (now.session 2).entered = some userId ∧
      SessionTraced plainEnv registersAndResets (registering ++ resetting) 2 now.store userId
        (registersAndResets 2) := by
  intro now
  have hreset : ∃ user ∈ now.store.users.rows, user.passwordHash = "bcrypt:new password" := by
    decide +kernel
  obtain ⟨user, huser, hhash⟩ := hreset
  have hentered : (now.session 0).entered.isSome ∧ (now.session 2).entered.isSome := by
    decide +kernel
  obtain ⟨⟨userId, hregistered⟩, userId', hback⟩ :=
    hentered.imp Option.isSome_iff_exists.mp Option.isSome_iff_exists.mp
  have htraced : AccountsTraced plainEnv registersAndResets (registering ++ resetting) now :=
    (runAccounts_traced (fun raw raw' h => by simpa [plainEnv] using h) rfl rfl (fun _ => rfl)
      registering resetting).2
  exact ⟨⟨user, huser, hhash, htraced.passwords user huser⟩,
    ⟨userId, hregistered, htraced.sessions 0 userId hregistered⟩,
    userId', hback, htraced.sessions 2 userId' hback⟩

end StockQuant
