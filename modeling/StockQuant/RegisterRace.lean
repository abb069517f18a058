import Mathlib.Data.Fintype.Basic
import StockQuant.RegisterSessions

/-! Requests that register one address at the same time. -/

namespace StockQuant

open ReadCommitted KeyedTable

variable {Tok ι : Type}

/-- The accounts of an address, as the lookup compares it. -/
def accountsAt (env : Env Tok) (email : String) (db : Accounts) : List User :=
  db.users.rows.filter (·.email = normalizeEmail env.lower email)

/-- One request has created the account, and the others have been told that there is one. -/
structure RegisteredOnce (env : Env Tok) (email : String) (c : Config ι Accounts RegisterPoint) :
    Prop where
  answers : ∃ w userId mail, c.session w = .created userId mail ∧ ∀ j, j ≠ w → c.session j = .taken
  account : ∃ user, accountsAt env email c.store = [user]

/-- The database can take the row of the request, unless the address is there already. -/
def FitsUser (env : Env Tok) (db : Accounts) (ctx : Context) (body : RegisterRequest) : Prop :=
  ctx.userId ∉ db.users.rows.map User.id ∧
    (text (normalizeEmail env.lower (normalizeEmail env.lower body.email))).isSome ∧
    (body.displayName.mapM text).isSome

/-- The database can take the token of the request. -/
def FitsToken (env : Env Tok) (db : Accounts) (ctx : Context) (userId : Uuid) : Prop :=
  (createEmailToken db ctx.tokenId userId .verifyEmail (env.hashEmailToken ctx.rawToken)
    (ttlMinutes env .verifyEmail) ctx.now).isSome

/-- A request looks up the address while no other is on its way from the lookup to the insert,
and what it then hashes and writes is accepted. -/
def RegistersApart (env : Env Tok) (bodies : ι → RegisterRequest)
    (c : Config ι Accounts RegisterPoint) (i : ι) (ctx : Context) : Prop :=
  match c.session i with
  | .start => ∀ j, (c.session j).pending = false
  | .hashing => (env.hashPassword (bodies i).password ctx.salt).isSome
  | .insert _ => FitsUser env c.store ctx (bodies i)
  | .issue (.insert userId) => FitsToken env c.store ctx userId
  | _ => True

section Decide

variable (env : Env Tok) (bodies : ι → RegisterRequest) (c : Config ι Accounts RegisterPoint)

instance (db : Accounts) (ctx : Context) (body : RegisterRequest) :
    Decidable (FitsUser env db ctx body) :=
  inferInstanceAs (Decidable (_ ∧ _ ∧ _))

instance (db : Accounts) (ctx : Context) (userId : Uuid) :
    Decidable (FitsToken env db ctx userId) :=
  inferInstanceAs (Decidable (_ = true))

instance [Fintype ι] (i : ι) (ctx : Context) : Decidable (RegistersApart env bodies c i ctx) := by
  unfold RegistersApart
  split <;> infer_instance

end Decide

def Issuing (db : Accounts) (userId : Uuid) : LinkPoint → Prop
  | .selectOutstanding user => user.id = userId
  | .retire id _ | .reloadUser id | .insert id | .loadUser id _ => id = userId
  | .refreshToken id tokenId _ => id = userId ∧ (db.tokens.get? tokenId).isSome
  | _ => False

def Serving (db : Accounts) (userId : Uuid) : RegisterPoint → Prop
  | .refresh id | .created id _ => id = userId
  | .issue p => Issuing db userId p
  | _ => False

section Perform

variable {env : Env Tok} {ctx : Context} {body : RegisterRequest} {db : Accounts} {userId : Uuid}

/-- The statements of the mail succeed while the account is there. -/
theorem Issuing.perform {p : LinkPoint} (h : Issuing db userId p)
    (huser : (db.users.get? userId).isSome)
    (htoken : ∀ id, p = .insert id → FitsToken env db ctx id) :
    let result := (linkAction env ctx (.resendVerification none) p).perform db
    result.1.users = db.users ∧ Serving result.1 userId (registerPoint result.2) := by
  obtain ⟨user, huser⟩ := Option.isSome_iff_exists.mp huser
  cases p with
  | start | sent | finished | rejected | crashed => cases h
  | selectOutstanding user =>
    obtain rfl : user.id = userId := h
    simp only [linkAction, perform_read]
    split_ifs <;> exact ⟨trivial, rfl⟩
  | retire id ids => exact ⟨rfl, h⟩
  | reloadUser id =>
    obtain rfl : id = userId := h
    simp only [linkAction, perform_read, huser]
    exact ⟨trivial, rfl⟩
  | insert id =>
    obtain rfl : id = userId := h
    obtain ⟨db', hcreate⟩ := Option.isSome_iff_exists.mp (htoken id rfl)
    obtain ⟨husers, htokens⟩ := createEmailToken_eq_some hcreate
    have hrow := Table.get?_of_mem (htokens ▸ List.mem_cons_self)
    simp only [linkAction, Action.perform, LinkJob.purpose, hcreate]
    refine ⟨husers, rfl, ?_⟩
    rw [hrow]
    rfl
  | refreshToken id tokenId raw =>
    obtain ⟨token, htoken⟩ := Option.isSome_iff_exists.mp h.2
    obtain rfl : id = userId := h.1
    simp only [linkAction, perform_read, htoken]
    exact ⟨trivial, rfl⟩
  | loadUser id raw =>
    obtain rfl : id = userId := h
    simp only [linkAction, perform_read, huser]
    exact ⟨trivial, rfl⟩

theorem isSome_createUser_iff {email passwordHash : String} {displayName : Option String} {now : ℚ}
    {id : Uuid} :
    (createUser env.lower db id email passwordHash displayName now).isSome ↔
      id ∉ db.users.rows.map User.id ∧
        normalizeEmail env.lower email ∉ db.users.rows.map User.email ∧
        (text (normalizeEmail env.lower email)).isSome ∧ (displayName.mapM text).isSome := by
  unfold createUser Accounts.insertUser
  rw [Option.isSome_map]
  split_ifs with h
  · exact iff_of_true rfl h
  · exact iff_of_false Bool.false_ne_true h

theorem getUserByEmail_eq_none_iff {email : String} :
    getUserByEmail env.lower db email = none ↔ accountsAt env email db = [] := by
  unfold getUserByEmail accountsAt
  rw [List.find?_eq_none, List.filter_eq_nil_iff]

theorem not_mem_emails_iff {email : String} :
    normalizeEmail env.lower email ∉ db.users.rows.map User.email ↔
      accountsAt env email db = [] := by
  unfold accountsAt
  rw [List.filter_eq_nil_iff]
  simp

end Perform

/-- No request has looked up yet, one is on its way to the insert, one has inserted its row, or
the address was there from the start. -/
inductive Phase (env : Env Tok) (email : String) (c : Config ι Accounts RegisterPoint) : Prop
  | unclaimed (hfree : accountsAt env email c.store = []) (hothers : ∀ j, c.session j = .start)
  | claimed (w : ι) (hfree : accountsAt env email c.store = []) (hw : (c.session w).pending)
    (hothers : ∀ j, j ≠ w → c.session j = .start)
  | inserted (w : ι) (user : User) (hrow : accountsAt env email c.store = [user])
    (hw : Serving c.store user.id (c.session w))
    (hothers : ∀ j, j ≠ w → c.session j = .start ∨ c.session j = .taken)

/-- A request has crashed, or two have found the address free. -/
def Spoiled (c : Config ι Accounts RegisterPoint) : Prop :=
  (∃ i, c.session i = .crashed) ∨ ∃ i j, i ≠ j ∧ (c.session i).passed ∧ (c.session j).passed

section Step

variable [DecidableEq ι] {env : Env Tok} {bodies : ι → RegisterRequest} {email : String}
  {c : Config ι Accounts RegisterPoint} {i : ι} {ctx : Context}

theorem passed_step {j : ι} (h : (c.session j).passed) :
    ((step (registerProgram env bodies) c i ctx).session j).passed := by
  by_cases hj : j = i
  · subst hj
    rw [step_session_self]
    exact passed_perform h
  · rwa [step_session_of_ne c hj]

theorem Spoiled.step (h : Spoiled c) : Spoiled (step (registerProgram env bodies) c i ctx) := by
  rcases h with ⟨j, hj⟩ | ⟨j, k, hne, hj, hk⟩
  · refine Or.inl ⟨j, ?_⟩
    by_cases hji : j = i
    · subst hji
      rw [step_session_self, hj]
      rfl
    · rwa [step_session_of_ne c hji]
  · exact Or.inr ⟨j, k, hne, passed_step hj, passed_step hk⟩

theorem Spoiled.not_once (h : Spoiled c) : ¬ RegisteredOnce env email c := by
  rintro ⟨⟨w, userId, mail, hw, hothers⟩, -⟩
  have hpassed (j : ι) (hj : (c.session j).passed) : j = w := by
    by_contra hne
    rw [hothers j hne] at hj
    cases hj
  rcases h with ⟨j, hj⟩ | ⟨j, k, hne, hj, hk⟩
  · obtain rfl := hpassed j (by rw [hj]; rfl)
    rw [hj] at hw
    cases hw
  · exact hne ((hpassed j hj).trans (hpassed k hk).symm)

/-- A request that looks up finds what is there. -/
theorem step_start (ctx : Context) (hemail : ∀ i, normalizeEmail env.lower (bodies i).email = email)
    (hi : c.session i = .start) :
    (step (registerProgram env bodies) c i ctx).store = c.store ∧
      (step (registerProgram env bodies) c i ctx).session i =
        if accountsAt env email c.store = [] then .hashing else .taken := by
  rw [step_store, step_session_self, registerProgram, hi]
  simp only [registerAction, perform_read, hemail, ne_eq, getUserByEmail_eq_none_iff, true_and]
  split_ifs <;> rfl

/-- Where the address is there, a request that has not found it free is told so. -/
theorem step_taken (ctx : Context)
    (hemail : ∀ i, normalizeEmail env.lower (bodies i).email = email)
    (htaken : accountsAt env email c.store ≠ [])
    (hi : c.session i = .start ∨ c.session i = .taken) :
    (step (registerProgram env bodies) c i ctx).store = c.store ∧
      (step (registerProgram env bodies) c i ctx).session i = .taken := by
  rcases hi with hi | hi
  · obtain ⟨hstore, hself⟩ := step_start ctx hemail hi
    rw [if_neg htaken] at hself
    exact ⟨hstore, hself⟩
  · rw [step_store, step_session_self, registerProgram, hi]
    exact ⟨rfl, rfl⟩

theorem Serving.not_pending {db : Accounts} {userId : Uuid} {p : RegisterPoint}
    (h : Serving db userId p) : p.pending = false := by
  cases p <;> first | rfl | cases h

theorem accountsAt_congr {db db' : Accounts} (h : db'.users = db.users) :
    accountsAt env email db' = accountsAt env email db := by
  rw [accountsAt, h]
  rfl

section Claimed

variable {w : ι} (hfree : accountsAt env email c.store = [])
  (hemail : ∀ i, normalizeEmail env.lower (bodies i).email = email)
include hfree hemail

theorem step_unclaimed (hstart : ∀ j, c.session j = .start) :
    Phase env email (step (registerProgram env bodies) c i ctx) := by
  obtain ⟨hstore, hi⟩ := step_start ctx hemail (hstart i)
  rw [if_pos hfree] at hi
  refine .claimed i (hstore ▸ hfree) (hi ▸ rfl) fun j hj => ?_
  rw [step_session_of_ne c hj, hstart j]

/-- A second request that looks up finds the address free as well. -/
theorem step_claimed_other (hw : (c.session w).pending) (hne : i ≠ w) (hi : c.session i = .start) :
    Spoiled (step (registerProgram env bodies) c i ctx) := by
  have hpassed : (c.session w).passed := by
    cases hp : c.session w <;> simp [hp] at hw <;> rfl
  refine Or.inr ⟨i, w, hne, ?_, passed_step hpassed⟩
  rw [(step_start ctx hemail hi).2, if_pos hfree]
  rfl

omit hemail in
theorem step_hashing (bodies : ι → RegisterRequest) (ctx : Context)
    (hw : c.session w = .hashing) (hothers : ∀ j, j ≠ w → c.session j = .start) :
    let c' := step (registerProgram env bodies) c w ctx
    ((env.hashPassword (bodies w).password ctx.salt).isSome → Phase env email c') ∧
      (¬ (env.hashPassword (bodies w).password ctx.salt).isSome → Spoiled c') := by
  intro c'
  have hothers' : ∀ j, j ≠ w → c'.session j = .start := fun j hj =>
    (step_session_of_ne c hj ctx).trans (hothers j hj)
  have hself : c'.session w = _ := step_session_self c w ctx
  have hstore : c'.store = _ := step_store c w ctx
  simp only [registerProgram, hw, registerAction] at hself hstore
  cases hhash : env.hashPassword (bodies w).password ctx.salt with
  | none =>
    rw [hhash] at hself
    exact ⟨fun h => absurd h Bool.false_ne_true, fun _ => Or.inl ⟨w, hself⟩⟩
  | some passwordHash =>
    rw [hhash] at hself hstore
    refine ⟨fun _ => .claimed w ?_ (hself ▸ rfl) hothers', fun h => absurd rfl h⟩
    rw [hstore]
    exact hfree

theorem step_insert (ctx : Context) {passwordHash : String}
    (hw : c.session w = .insert passwordHash) (hothers : ∀ j, j ≠ w → c.session j = .start) :
    let c' := step (registerProgram env bodies) c w ctx
    (FitsUser env c.store ctx (bodies w) → Phase env email c') ∧
      (¬ FitsUser env c.store ctx (bodies w) → Spoiled c') := by
  intro c'
  have hself : c'.session w = _ := step_session_self c w ctx
  have hstore : c'.store = _ := step_store c w ctx
  simp only [registerProgram, hw, registerAction, Action.perform] at hself hstore
  have hfits : FitsUser env c.store ctx (bodies w) ↔
      (createUser env.lower c.store ctx.userId (normalizeEmail env.lower (bodies w).email)
        passwordHash (bodies w).displayName ctx.now).isSome := by
    rw [isSome_createUser_iff, not_mem_emails_iff, hemail w, and_iff_right hfree, FitsUser,
      hemail w]
  rw [hfits]
  cases hcreate : createUser env.lower c.store ctx.userId
      (normalizeEmail env.lower (bodies w).email) passwordHash (bodies w).displayName ctx.now with
  | none =>
    rw [hcreate] at hself
    exact ⟨fun h => absurd h Bool.false_ne_true, fun _ => Or.inl ⟨w, hself⟩⟩
  | some created =>
    obtain ⟨user, db⟩ := created
    obtain ⟨hid, haddress, hrows⟩ := createUser_row hcreate
    rw [hcreate] at hself hstore
    refine ⟨fun _ => .inserted w user ?_ ?_ fun j hj => Or.inl ?_, fun h => absurd rfl h⟩
    · have hrow : accountsAt env email db = [user] := by
        rw [hemail w] at haddress
        rw [accountsAt, hrows, List.filter_cons_of_pos (by simpa using haddress)]
        exact congrArg _ hfree
      rw [hstore]
      exact hrow
    · rw [hself]
      exact hid.symm
    · exact (step_session_of_ne c hj ctx).trans (hothers j hj)

end Claimed

omit [DecidableEq ι] in
theorem registersApart_issue {p : LinkPoint} (hp : c.session i = .issue p) :
    RegistersApart env bodies c i ctx ↔ ∀ id, p = .insert id → FitsToken env c.store ctx id := by
  unfold RegistersApart
  rw [hp]
  cases p <;> simp

section Inserted

variable {w : ι} {user : User} (hrow : accountsAt env email c.store = [user])
include hrow

theorem step_inserted_self (hw : Serving c.store user.id (c.session w))
    (hothers : ∀ j, j ≠ w → c.session j = .start ∨ c.session j = .taken) :
    let c' := step (registerProgram env bodies) c w ctx
    (RegistersApart env bodies c w ctx → Phase env email c') ∧
      (¬ RegistersApart env bodies c w ctx → Spoiled c') := by
  intro c'
  have hmem : user ∈ c.store.users.rows :=
    List.mem_of_mem_filter (hrow ▸ List.mem_singleton_self user)
  have huser : c.store.users.get? user.id = some user := Table.get?_of_mem hmem
  have hself : c'.session w = _ := step_session_self c w ctx
  have hstore : c'.store = _ := step_store c w ctx
  have hothers' : ∀ j, j ≠ w → c'.session j = .start ∨ c'.session j = .taken := by
    intro j hj
    rw [show c'.session j = c.session j from step_session_of_ne c hj ctx]
    exact hothers j hj
  have hinserted (husers : c'.store.users = c.store.users)
      (hserving : Serving c'.store user.id (c'.session w)) : Phase env email c' :=
    .inserted w user (accountsAt_congr husers ▸ hrow) hserving hothers'
  cases hp : c.session w with
  | start | hashing | insert | taken | crashed =>
    rw [hp] at hw
    cases hw
  | refresh id =>
    rw [hp] at hw
    obtain rfl : id = user.id := hw
    simp only [registerProgram, hp, registerAction, perform_read, huser] at hself hstore
    exact ⟨fun _ => hinserted (hstore ▸ rfl) (hself ▸ rfl),
      fun hnot => absurd (by simp [RegistersApart, hp]) hnot⟩
  | created id mail =>
    simp only [registerProgram, hp, registerAction, perform_work] at hself hstore
    rw [hp] at hw
    exact ⟨fun _ => hinserted (hstore ▸ rfl) (hself ▸ hw),
      fun hnot => absurd (by simp [RegistersApart, hp]) hnot⟩
  | issue p =>
    rw [registersApart_issue hp]
    simp only [registerProgram, hp, registerAction, perform_map] at hself hstore
    rw [hp] at hw
    refine ⟨fun hfits => ?_, fun hnot => ?_⟩
    · obtain ⟨husers, hserving⟩ := Issuing.perform hw (huser ▸ rfl) hfits
      rw [← hstore] at husers hserving
      exact hinserted husers (hself ▸ hserving)
    · push Not at hnot
      obtain ⟨id, rfl, hfull⟩ := hnot
      have hnone : createEmailToken c.store ctx.tokenId id .verifyEmail
          (env.hashEmailToken ctx.rawToken) (ttlMinutes env .verifyEmail) ctx.now = none :=
        Option.not_isSome_iff_eq_none.mp hfull
      refine Or.inl ⟨w, ?_⟩
      rw [hself]
      simp only [linkAction, LinkJob.purpose, Action.perform, hnone]
      rfl

theorem step_inserted_other (hemail : ∀ i, normalizeEmail env.lower (bodies i).email = email)
    (hw : Serving c.store user.id (c.session w))
    (hothers : ∀ j, j ≠ w → c.session j = .start ∨ c.session j = .taken) (hne : i ≠ w) :
    Phase env email (step (registerProgram env bodies) c i ctx) := by
  have hi := step_taken ctx hemail (hrow ▸ List.cons_ne_nil user []) (hothers i hne)
  refine .inserted w user (hi.1 ▸ hrow) ?_ fun j hj => ?_
  · rwa [hi.1, step_session_of_ne c hne.symm]
  · by_cases hji : j = i
    · exact Or.inr (hji ▸ hi.2)
    · rw [step_session_of_ne c hji]
      exact hothers j hj

end Inserted

/-- A step that the condition allows keeps the phases; one that it does not spoils the run. -/
theorem phase_step (i : ι) (ctx : Context)
    (hemail : ∀ i, normalizeEmail env.lower (bodies i).email = email) (h : Phase env email c) :
    let c' := step (registerProgram env bodies) c i ctx
    (RegistersApart env bodies c i ctx → Phase env email c') ∧
      (¬ RegistersApart env bodies c i ctx → Spoiled c') := by
  cases h with
  | unclaimed hfree hstart =>
    have hapart : RegistersApart env bodies c i ctx := by
      simp [RegistersApart, hstart]
    exact ⟨fun _ => step_unclaimed hfree hemail hstart, fun hnot => absurd hapart hnot⟩
  | claimed w hfree hw hothers =>
    by_cases hiw : i = w
    · subst hiw
      cases hp : c.session i with
      | hashing =>
        have hstep := step_hashing hfree bodies ctx hp hothers
        simpa [RegistersApart, hp] using hstep
      | insert passwordHash =>
        have hstep := step_insert hfree hemail ctx hp hothers
        simpa [RegistersApart, hp] using hstep
      | _ => simp [hp] at hw
    · refine ⟨fun hapart => ?_, fun _ => step_claimed_other hfree hemail hw hiw (hothers i hiw)⟩
      simp only [RegistersApart, hothers i hiw] at hapart
      rw [hapart w] at hw
      cases hw
  | inserted w user hrow hw hothers =>
    by_cases hiw : i = w
    · subst hiw
      exact step_inserted_self hrow hw hothers
    · have hapart : RegistersApart env bodies c i ctx := by
        rcases hothers i hiw with hi | hi
        · simp only [RegistersApart, hi]
          intro j
          by_cases hjw : j = w
          · exact hjw ▸ hw.not_pending
          · rcases hothers j hjw with hj | hj <;> rw [hj] <;> rfl
        · simp [RegistersApart, hi]
      exact ⟨fun _ => step_inserted_other hrow hemail hw hothers hiw,
        fun hnot => absurd hapart hnot⟩

end Step

section Runs

variable [DecidableEq ι] {env : Env Tok} {bodies : ι → RegisterRequest} {email : String}
  {c : Config ι Accounts RegisterPoint} {schedule : List (ι × Context)}

omit [DecidableEq ι] in
/-- A run that has answered every request ends in the last phase. -/
theorem Phase.once [Nonempty ι] (h : Phase env email c) (hanswered : ∀ i, (c.session i).answered) :
    RegisteredOnce env email c := by
  cases h with
  | unclaimed _ hstart =>
    obtain ⟨i⟩ := ‹Nonempty ι›
    have hi := hanswered i
    rw [hstart i] at hi
    cases hi
  | claimed w _ hw _ =>
    have hi := hanswered w
    cases hp : c.session w <;> simp [hp] at hw hi
  | inserted w user hrow hw hothers =>
    have htaken : ∀ j, j ≠ w → c.session j = .taken := by
      intro j hj
      refine (hothers j hj).resolve_left fun hstart => ?_
      have hi := hanswered j
      rw [hstart] at hi
      cases hi
    have hi := hanswered w
    cases hp : c.session w with
    | created userId mail => exact ⟨⟨w, userId, mail, hp, htaken⟩, user, hrow⟩
    | taken | crashed =>
      rw [hp] at hw
      cases hw
    | _ => simp [hp] at hi

/-- While the address is taken, a request finds it taken. -/
theorem taken_run (schedule : List (ι × Context))
    (hemail : ∀ i, normalizeEmail env.lower (bodies i).email = email)
    (htaken : accountsAt env email c.store ≠ [])
    (hsession : ∀ i, c.session i = .start ∨ c.session i = .taken) (i : ι) :
    (run (registerProgram env bodies) c schedule).session i = .start ∨
      (run (registerProgram env bodies) c schedule).session i = .taken := by
  refine (run_invariant
    (fun c => accountsAt env email c.store ≠ [] ∧ ∀ i, c.session i = .start ∨ c.session i = .taken)
    ?_ schedule ⟨htaken, hsession⟩).2 i
  rintro c i ctx ⟨htaken, hsession⟩
  have hi := step_taken ctx hemail htaken (hsession i)
  refine ⟨hi.1 ▸ htaken, fun j => ?_⟩
  by_cases hji : j = i
  · exact Or.inr (hji ▸ hi.2)
  · rw [step_session_of_ne c hji]
    exact hsession j

/-- A run in which every request is answered registers the address once if and only if it was
free and the requests stay apart. -/
theorem register_race_iff [Nonempty ι]
    (hemail : ∀ i, normalizeEmail env.lower (bodies i).email = email)
    (hstart : ∀ i, c.session i = .start)
    (hanswered : ∀ i, ((run (registerProgram env bodies) c schedule).session i).answered) :
    RegisteredOnce env email (run (registerProgram env bodies) c schedule) ↔
      getUserByEmail env.lower c.store email = none ∧
        Follows (registerProgram env bodies) (RegistersApart env bodies) c schedule := by
  rw [getUserByEmail_eq_none_iff]
  constructor
  · intro honce
    have hfree : accountsAt env email c.store = [] := by
      by_contra htaken
      obtain ⟨w, userId, mail, hw, -⟩ := honce.answers
      rcases taken_run schedule hemail htaken (fun i => Or.inl (hstart i)) w with hi | hi
      all_goals
        rw [hi] at hw
        cases hw
    have hfollows := follows_or_spoiled (Phase env email) Spoiled
      (fun c i ctx h => (phase_step i ctx hemail h).1)
      (fun c i ctx h => (phase_step i ctx hemail h).2) (fun _ _ _ h => h.step) schedule
      (.unclaimed hfree hstart)
    exact ⟨hfree, hfollows.resolve_right fun hspoiled => hspoiled.not_once honce⟩
  · rintro ⟨hfree, hfollows⟩
    have hphase : Phase env email (run (registerProgram env bodies) c schedule) :=
      (reaches_run hfollows).invariant (Phase env email) (.unclaimed hfree hstart)
        fun _ _ _ h hapart => (phase_step _ _ hemail h).1 hapart
    exact hphase.once hanswered

end Runs

/-- One address is registered by two requests. -/
def twoRegistrations (second : Bool) : RegisterRequest :=
  if second then { ownerRegistration with email := " Owner@Example.com" } else ownerRegistration

def registrationsStarted : Config Bool Accounts RegisterPoint where
  store := Accounts.empty
  session _ := .start

def registerSteps (i : Bool) (n : ℕ) : List (Bool × Context) :=
  List.replicate n (i, { contextWith 60 (if i then 11 else 12) (if i then "first" else "second")
    with userId := if i then 1 else 2 })

/-- The second request looks up after the first one's insert. -/
def registeringApart : List (Bool × Context) :=
  registerSteps true 3 ++ registerSteps false 1 ++ registerSteps true 5

def registeredApart : Config Bool Accounts RegisterPoint :=
  run (registerProgram plainEnv twoRegistrations) registrationsStarted registeringApart

theorem register_race_iff_apart :
    RegisteredOnce plainEnv "owner@example.com" registeredApart := by
  have hfollows : Follows (registerProgram plainEnv twoRegistrations)
      (RegistersApart plainEnv twoRegistrations) registrationsStarted registeringApart := by
    decide +kernel
  exact (register_race_iff
    (show ∀ i, normalizeEmail plainEnv.lower (twoRegistrations i).email = "owner@example.com" by
      decide)
    (show ∀ i, registrationsStarted.session i = .start from fun _ => rfl)
    (show ∀ i, (registeredApart.session i).answered by decide +kernel)).mpr ⟨by decide, hfollows⟩

/-- Both look up before either inserts. -/
def registeredTogether : Config Bool Accounts RegisterPoint :=
  run (registerProgram plainEnv twoRegistrations) registrationsStarted
    (registerSteps true 1 ++ registerSteps false 1 ++ registerSteps true 7 ++ registerSteps false 2)

theorem register_race_crashes :
    (∀ i, normalizeEmail plainEnv.lower (twoRegistrations i).email = "owner@example.com") ∧
      getUserByEmail plainEnv.lower registrationsStarted.store "owner@example.com" = none ∧
      (∀ i, (registeredTogether.session i).answered) ∧
      registeredTogether.session false = .crashed ∧
      ¬ RegisteredOnce plainEnv "owner@example.com" registeredTogether := by
  have hend : (∀ i, (registeredTogether.session i).answered) ∧
      registeredTogether.session false = .crashed := by
    decide +kernel
  exact ⟨by decide, by decide, hend.1, hend.2, Spoiled.not_once (Or.inl ⟨false, hend.2⟩)⟩

end StockQuant
