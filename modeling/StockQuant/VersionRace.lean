import Mathlib.Data.Fintype.Card
import StockQuant.TokenRace
import StockQuant.TokenVersions

/-! Password resets of one user at the same time, and the `token_version` they leave. -/

namespace StockQuant

open ReadCommitted KeyedTable

variable {Tok ι : Type}

@[simp] def answering : TokenJob → TokenPoint Tok → Option Uuid
  | .resetPassword _, .checkVerified userId => some userId
  | .resetPassword _, .markVerified userId => some userId
  | .resetPassword _, .refreshVerified userId => some userId
  | _, _ => none

@[simp] def changed (job : TokenJob) : TokenPoint Tok → Option Uuid
  | .finished (.signedIn response) => some response.user.id
  | p => answering job p

@[simp] def holding (job : TokenJob) : TokenPoint Tok → Option Uuid
  | .hashPassword userId (some _) => some userId
  | .setPassword userId _ _ => some userId
  | p => answering job p

/-- Between the plain read of the row that a reset computes the next version from and its
answer, no other reset of the user commits. A reset that reads the row under its row lock
needs this from its commit on only. -/
def ResetsApart (jobs : ι → TokenJob) (c : Config ι Accounts (TokenPoint Tok)) (i : ι)
    (_ : Context) : Prop :=
  match c.session i with
  | .setPassword userId _ _ | .setVersion userId _ _ _ =>
    ∀ j, j ≠ i → holding (jobs j) (c.session j) ≠ some userId
  | .selectOutstanding user =>
    -- The row read before the select is written from only if nothing is to be retired.
    c.store.tokens.rows.filter (outstanding user.id .passwordReset) = [] →
      ∀ version ∈ c.store.version? user.id, user.tokenVersion = version
  | _ => True

instance [Fintype ι] [DecidableEq ι] (jobs : ι → TokenJob)
    (c : Config ι Accounts (TokenPoint Tok)) (i : ι) (ctx : Context) :
    Decidable (ResetsApart jobs c i ctx) := by
  unfold ResetsApart
  split <;> infer_instance

/-- A step that waits for no row lock, with the resets apart. -/
def StepsApart (jobs : ι → TokenJob) (c : Config ι Accounts (TokenPoint Tok)) (i : ι)
    (ctx : Context) : Prop :=
  Unlocked c i ∧ ResetsApart jobs c i ctx

instance [Fintype ι] [DecidableEq ι] (jobs : ι → TokenJob)
    (c : Config ι Accounts (TokenPoint Tok)) (i : ι) (ctx : Context) :
    Decidable (StepsApart jobs c i ctx) :=
  inferInstanceAs (Decidable (_ ∧ _))

def UpToDate (job : TokenJob) (db : Accounts) : TokenPoint Tok → Prop
  | .hashPassword userId (some user) => ∀ v, db.version? userId = some v → user.tokenVersion = v
  | .findUser _ _ | .flushPassword _ _ | .reloadUser _ _ _ => job.purpose = .passwordReset
  | .setPassword userId _ version | .setVersion userId _ _ version =>
    job.purpose = .passwordReset ∧ ∀ v, db.version? userId = some v → version = v + 1
  | _ => True

/-- The rows that what a request has at hand depends on. -/
def reliesOn (job : TokenJob) (p : TokenPoint Tok) (userId : Uuid) : Prop :=
  holding job p = some userId ∨ p.locks = some userId

theorem holding_of_answering {job : TokenJob} {p : TokenPoint Tok} {u : Uuid}
    (h : answering job p = some u) : holding job p = some u := by
  cases p <;> first | exact h | (cases job <;> simp at h)

theorem changed_of_answering {job : TokenJob} {p : TokenPoint Tok} {u : Uuid}
    (h : answering job p = some u) : changed job p = some u := by
  cases p <;> first | exact h | (cases job <;> simp at h)

theorem UpToDate.congr {job : TokenJob} {db db' : Accounts} {p : TokenPoint Tok}
    (h : UpToDate job db p)
    (hsame : ∀ userId, reliesOn job p userId → db'.version? userId = db.version? userId) :
    UpToDate job db' p := by
  cases p with
  | hashPassword userId loaded =>
    cases loaded with
    | none => trivial
    | some user => exact fun v hv => h v (hsame userId (Or.inl rfl) ▸ hv)
  | findUser | flushPassword | reloadUser => exact h
  | setPassword userId hash w => exact ⟨h.1, fun v hv => h.2 v (hsame userId (Or.inl rfl) ▸ hv)⟩
  | setVersion userId hash changedAt w =>
    exact ⟨h.1, fun v hv => h.2 v (hsame userId (Or.inr rfl) ▸ hv)⟩
  | _ => trivial

/-- The request comes to the commit that gives `u` a new version. -/
@[simp] def TokenPoint.raises (u : Uuid) : TokenPoint Tok → Prop
  | .setPassword userId _ _ | .setVersion userId _ _ _ => userId = u
  | _ => False

theorem TokenPoint.raises_iff {p : TokenPoint Tok} {u : Uuid} :
    p.raises u ↔ (∃ hash w, p = .setPassword u hash w) ∨
      ∃ hash changedAt w, p = .setVersion u hash changedAt w := by
  cases p <;> simp

section Perform

variable {env : Env Tok} {job : TokenJob} {db : Accounts} {p : TokenPoint Tok} {u : Uuid}

theorem perform_version (hp : ¬ p.raises u) (ctx : Context) :
    ((tokenAction env ctx job p).perform db).1.version? u = db.version? u := by
  cases p with
  | consume token => exact Accounts.version?_markUsed _ _ _
  | retire userId ids => exact Accounts.version?_markUsed _ _ _
  | markVerified userId => exact Accounts.version?_writeVerified _ _ _
  | setPassword | setVersion => exact Accounts.version?_writePassword_of_ne (Ne.symm hp) _ _ _
  | _ => rfl

theorem perform_changed (hp : ¬ p.raises u) (hu : db.version? u ≠ none) (ctx : Context) :
    changed job ((tokenAction env ctx job p).perform db).2 = some u ↔ changed job p = some u := by
  have hrow : db.users.get? u ≠ none := fun h => hu (by rw [Accounts.version?, h]; rfl)
  cases p with
  | lookup =>
    rcases perform_lookup env job db ctx with h | ⟨token, -, h⟩ <;> simp [h]
  | getUser token =>
    rcases perform_getUser env job db token ctx with h | h <;> simp [h]
  | consume | retire | finished | rejected | crashed => simp [tokenAction]
  | refreshToken token =>
    simp only [tokenAction, perform_read]
    cases db.tokens.get? token.id <;> cases job <;> simp
  | loadUser userId | findUser userId _ | flushPassword userId _ | reloadUser userId _ _ =>
    simp only [tokenAction, perform_read]
    cases db.users.get? userId <;> simp
  | selectOutstanding user =>
    simp only [tokenAction, perform_read]
    split_ifs <;> simp
  | hashPassword userId loaded =>
    cases job with
    | verifyEmail body => simp [tokenAction]
    | resetPassword body =>
      simp only [tokenAction, perform_work]
      cases env.hashPassword body.password ctx.salt <;> cases loaded <;> simp
  | setPassword userId | setVersion userId =>
    have hne : userId ≠ u := hp
    cases job <;> simp [tokenAction, hne]
  | markVerified userId => cases job <;> simp [tokenAction]
  | checkVerified userId | refreshVerified userId =>
    simp only [tokenAction, perform_read]
    cases hget : db.users.get? userId with
    | none =>
      have hne : userId ≠ u := fun h => hrow (h ▸ hget)
      cases job <;> simp [hne]
    | some user =>
      obtain rfl := (Table.get?_eq_some_iff.mp hget).2
      cases job <;> simp [tokenReply, userOut] <;> split_ifs <;> simp

theorem perform_upToDate (h : UpToDate job db p) (ctx : Context)
    (hselect : ∀ user, p = .selectOutstanding user →
      db.tokens.rows.filter (outstanding user.id .passwordReset) = [] →
        ∀ version ∈ db.version? user.id, user.tokenVersion = version) :
    UpToDate job ((tokenAction env ctx job p).perform db).1
      ((tokenAction env ctx job p).perform db).2 := by
  cases p with
  | lookup =>
    rcases perform_lookup env job db ctx with h | ⟨token, -, h⟩ <;>
      rw [h] <;> trivial
  | getUser token =>
    rcases perform_getUser env job db token ctx with h | h <;>
      rw [h] <;> trivial
  | consume | retire | setPassword | setVersion | markVerified | finished | rejected | crashed =>
    trivial
  | refreshToken token =>
    simp only [tokenAction, perform_read]
    cases db.tokens.get? token.id <;> cases job <;> trivial
  | loadUser userId | refreshVerified userId =>
    simp only [tokenAction, perform_read]
    cases db.users.get? userId <;> trivial
  | checkVerified userId =>
    simp only [tokenAction, perform_read]
    cases db.users.get? userId with
    | none => trivial
    | some user => dsimp only; split_ifs <;> trivial
  | selectOutstanding user =>
    simp only [tokenAction, perform_read]
    split_ifs with hrows
    · exact hselect user rfl hrows
    · trivial
  | hashPassword userId loaded =>
    cases job with
    | verifyEmail body => trivial
    | resetPassword body =>
      simp only [tokenAction, perform_work]
      cases env.hashPassword body.password ctx.salt with
      | none => trivial
      | some hash =>
        cases loaded with
        | none => rfl
        | some user => exact ⟨rfl, fun v hv => congrArg (· + 1) (h v hv)⟩
  | findUser userId hash | flushPassword userId hash =>
    simp only [tokenAction, perform_read]
    cases db.users.get? userId with
    | none => trivial
    | some _ => exact h
  | reloadUser userId hash changedAt =>
    simp only [tokenAction, perform_read]
    cases hget : db.users.get? userId with
    | none => trivial
    | some user =>
      refine ⟨h, fun v hv => ?_⟩
      obtain ⟨user', hget', rfl⟩ := Accounts.version?_eq_some_iff.mp hv
      rw [hget] at hget'
      rw [Option.some_inj.mp hget']

/-- The reset of `u` will answer, or has answered, with a token of a version up to `v`. -/
def Answers (env : Env Tok) (job : TokenJob) (u : Uuid) (v : Nat) (db : Accounts)
    (p : TokenPoint Tok) : Prop :=
  (answering job p = some u ∧ db.version? u = some v) ∨
    ∃ ctx user, p = .finished (.signedIn { token := tokenFor env ctx user, user := userOut user }) ∧
      user.id = u ∧ user.tokenVersion ≤ v

theorem Answers.mono {v w : Nat} (h : Answers env job u v db p) (hw : db.version? u = some w)
    (hle : v ≤ w) : Answers env job u w db p := by
  rcases h with ⟨hp, hv⟩ | ⟨ctx, user, hp, hid, hv⟩
  · exact Or.inl ⟨hp, hw⟩
  · exact Or.inr ⟨ctx, user, hp, hid, hv.trans hle⟩

theorem perform_answers {v : Nat} (h : Answers env job u v db p) (ctx : Context) :
    Answers env job u v ((tokenAction env ctx job p).perform db).1
      ((tokenAction env ctx job p).perform db).2 := by
  rcases h with ⟨hp, hv⟩ | ⟨ctx', user, rfl, hid, hle⟩
  · obtain ⟨row, hrow, hver⟩ := Accounts.version?_eq_some_iff.mp hv
    have hid := (Table.get?_eq_some_iff.mp hrow).2
    cases job with
    | verifyEmail body => simp at hp
    | resetPassword body =>
      cases p with
      | checkVerified userId =>
        obtain rfl : userId = u := by simpa using hp
        simp only [tokenAction, perform_read, hrow]
        split_ifs
        · exact Or.inl ⟨rfl, hv⟩
        · exact Or.inr ⟨ctx, row, rfl, hid, hver.le⟩
      | markVerified userId =>
        obtain rfl : userId = u := by simpa using hp
        exact Or.inl ⟨rfl, (Accounts.version?_writeVerified _ _ _).trans hv⟩
      | refreshVerified userId =>
        obtain rfl : userId = u := by simpa using hp
        simp only [tokenAction, perform_read, hrow]
        exact Or.inr ⟨ctx, row, rfl, hid, hver.le⟩
      | _ => simp at hp
  · exact Or.inr ⟨ctx', user, rfl, hid, hle⟩

end Perform

section Step

variable [DecidableEq ι] {env : Env Tok} {jobs : ι → TokenJob}
  {c : Config ι Accounts (TokenPoint Tok)} {i : ι} {ctx : Context} {u : Uuid} {v : Nat}

def changers [Fintype ι] (jobs : ι → TokenJob) (u : Uuid) (c : Config ι Accounts (TokenPoint Tok)) :
    Finset ι :=
  Finset.univ.filter fun i => changed (jobs i) (c.session i) = some u

omit [DecidableEq ι] in
theorem mem_changers [Fintype ι] : i ∈ changers jobs u c ↔ changed (jobs i) (c.session i) = some u :=
  Finset.mem_filter.trans (and_iff_right (Finset.mem_univ i))

omit [DecidableEq ι] in
theorem ResetsApart.of_raises (h : ResetsApart jobs c i ctx) (hp : (c.session i).raises u) {j : ι}
    (hji : j ≠ i) : holding (jobs j) (c.session j) ≠ some u := by
  rcases TokenPoint.raises_iff.mp hp with ⟨hash, w, hp⟩ | ⟨hash, changedAt, w, hp⟩ <;>
    rw [ResetsApart, hp] at h <;> exact h j hji

omit [DecidableEq ι] in
theorem StepsApart.not_relies (h : StepsApart jobs c i ctx) (hp : (c.session i).raises u) {j : ι}
    (hji : j ≠ i) : ¬ reliesOn (jobs j) (c.session j) u := by
  rintro (hheld | hlocked)
  · exact h.2.of_raises hp hji hheld
  · refine h.1 j hji u hlocked ?_
    rcases TokenPoint.raises_iff.mp hp with ⟨hash, w, hp⟩ | ⟨hash, changedAt, w, hp⟩ <;>
      rw [hp] <;> rfl

variable (env) in
theorem step_upToDate (h : ∀ j, UpToDate (jobs j) c.store (c.session j))
    (hallowed : StepsApart jobs c i ctx) (j : ι) :
    UpToDate (jobs j) (step (tokenProgram env jobs) c i ctx).store
      ((step (tokenProgram env jobs) c i ctx).session j) := by
  by_cases hji : j = i
  · subst hji
    rw [step_store, step_session_self]
    refine perform_upToDate (h j) ctx fun user hp hrows => ?_
    have happart := hallowed.2
    simp only [ResetsApart, hp] at happart
    exact happart hrows
  · rw [step_session_of_ne c hji, step_store]
    refine (h j).congr fun userId hrelies => perform_version (fun hp => ?_) ctx
    exact hallowed.not_relies hp hji hrelies

theorem step_answers {j : ι} (h : Answers env (jobs j) u v c.store (c.session j))
    (hallowed : StepsApart jobs c i ctx) :
    Answers env (jobs j) u v (step (tokenProgram env jobs) c i ctx).store
      ((step (tokenProgram env jobs) c i ctx).session j) := by
  by_cases hji : j = i
  · subst hji
    rw [step_store, step_session_self]
    exact perform_answers h ctx
  · rw [step_session_of_ne c hji, step_store]
    rcases h with ⟨hp, hv⟩ | hfinished
    · refine Or.inl ⟨hp, (perform_version (fun hset => ?_) ctx).trans hv⟩
      exact hallowed.2.of_raises hset hji (holding_of_answering hp)
    · exact Or.inr hfinished

variable (env) in
theorem step_version (hv : c.store.version? u = some v)
    (h : UpToDate (jobs i) c.store (c.session i)) (ctx : Context) :
    ((step (tokenProgram env jobs) c i ctx).store.version? u = some v ∧
      ∀ j, changed (jobs j) ((step (tokenProgram env jobs) c i ctx).session j) = some u ↔
        changed (jobs j) (c.session j) = some u) ∨
    ((step (tokenProgram env jobs) c i ctx).store.version? u = some (v + 1) ∧
      changed (jobs i) (c.session i) ≠ some u ∧
      answering (jobs i) ((step (tokenProgram env jobs) c i ctx).session i) = some u) := by
  by_cases hset : (c.session i).raises u
  · rw [step_store, step_session_self, tokenProgram]
    rcases TokenPoint.raises_iff.mp hset with ⟨hash, w, hp⟩ | ⟨hash, changedAt, w, hp⟩ <;>
    · rw [hp] at h ⊢
      obtain ⟨hjob, hw⟩ := h
      obtain rfl := hw v hv
      cases hj : jobs i with
      | verifyEmail body => simp [hj, TokenJob.purpose] at hjob
      | resetPassword body =>
        exact Or.inr ⟨Accounts.version?_writePassword hv _ _ _, by simp, rfl⟩
  · refine Or.inl ⟨(perform_version hset ctx).trans hv, fun j => ?_⟩
    by_cases hji : j = i
    · subst hji
      rw [step_session_self]
      exact perform_changed hset (by simp [hv]) ctx
    · rw [step_session_of_ne c hji]

/-- What holds along a run in which resets stay apart. -/
structure Versioned [Fintype ι] (env : Env Tok) (jobs : ι → TokenJob) (u : Uuid) (start : Nat)
    (c : Config ι Accounts (TokenPoint Tok)) : Prop where
  upToDate : ∀ i, UpToDate (jobs i) c.store (c.session i)
  counted : c.store.version? u = some (start + (changers jobs u c).card)
  answers : ∀ i ∈ changers jobs u c,
    Answers env (jobs i) u (start + (changers jobs u c).card) c.store (c.session i)

theorem Versioned.step [Fintype ι] {start : Nat} (h : Versioned env jobs u start c)
    (hallowed : StepsApart jobs c i ctx) :
    Versioned env jobs u start (ReadCommitted.step (tokenProgram env jobs) c i ctx) := by
  have hupToDate := step_upToDate env h.upToDate hallowed
  rcases step_version env h.counted (h.upToDate i) ctx with ⟨hver, hsame⟩ |
    ⟨hver, hnew, hanswering⟩
  · have hchangers : changers jobs u (ReadCommitted.step (tokenProgram env jobs) c i ctx) =
        changers jobs u c := Finset.filter_congr fun j _ => hsame j
    refine ⟨hupToDate, by rw [hchangers, hver], fun j hj => ?_⟩
    rw [hchangers] at hj ⊢
    exact step_answers (h.answers j hj) hallowed
  · have hchangers : changers jobs u (ReadCommitted.step (tokenProgram env jobs) c i ctx) =
        insert i (changers jobs u c) := by
      ext j
      rw [Finset.mem_insert, mem_changers, mem_changers]
      by_cases hji : j = i
      · subst hji
        simpa using changed_of_answering hanswering
      · rw [step_session_of_ne c hji, or_iff_right hji]
    have hcard : (changers jobs u (ReadCommitted.step (tokenProgram env jobs) c i ctx)).card =
        (changers jobs u c).card + 1 := by
      rw [hchangers, Finset.card_insert_of_notMem (mem_changers.not.mpr hnew)]
    refine ⟨hupToDate, by rw [hcard, hver, Nat.add_assoc], fun j hj => ?_⟩
    rw [hchangers, Finset.mem_insert] at hj
    rcases hj with rfl | hj
    · exact Or.inl ⟨hanswering, by rw [hcard, hver, Nat.add_assoc]⟩
    · exact (step_answers (h.answers j hj) hallowed).mono (by rw [hcard, hver, Nat.add_assoc])
        (by omega)

omit [DecidableEq ι] in
theorem versioned_start [Fintype ι] (hstart : ∀ i, c.session i = .lookup)
    (hv : c.store.version? u = some v) : Versioned env jobs u v c := by
  have hchangers : changers jobs u c = ∅ := by
    ext i
    simp [mem_changers, hstart]
  refine ⟨fun i => by rw [hstart]; trivial, by simp [hchangers, hv], fun i hi => ?_⟩
  simp [hchangers] at hi

structure Since (env : Env Tok) (jobs : ι → TokenJob) (u : Uuid)
    (c₁ : Config ι Accounts (TokenPoint Tok)) (v : Nat) (c : Config ι Accounts (TokenPoint Tok)) :
    Prop where
  grows : ∃ w, c.store.version? u = some w ∧ v ≤ w ∧
    ∀ j, changed (jobs j) (c₁.session j) ≠ some u → changed (jobs j) (c.session j) = some u → v < w
  answers : ∀ i, changed (jobs i) (c₁.session i) = some u →
    Answers env (jobs i) u v c.store (c.session i)

theorem Since.step {c₁ : Config ι Accounts (TokenPoint Tok)} (h : Since env jobs u c₁ v c)
    (hupToDate : ∀ j, UpToDate (jobs j) c.store (c.session j))
    (hallowed : StepsApart jobs c i ctx) :
    Since env jobs u c₁ v (ReadCommitted.step (tokenProgram env jobs) c i ctx) := by
  refine ⟨?_, fun j hj => step_answers (h.answers j hj) hallowed⟩
  obtain ⟨w, hw, hle, hlater⟩ := h.grows
  rcases step_version env hw (hupToDate i) ctx with ⟨hver, hsame⟩ | ⟨hver, -, -⟩
  · exact ⟨w, hver, hle, fun j hnew hj => hlater j hnew ((hsame j).mp hj)⟩
  · exact ⟨w + 1, hver, by omega, fun j _ _ => by omega⟩

omit [DecidableEq ι] in
theorem Versioned.since [Fintype ι] {start : Nat} (h : Versioned env jobs u start c) :
    Since env jobs u c (start + (changers jobs u c).card) c :=
  ⟨⟨_, h.counted, le_rfl, fun _ hnew hj => absurd hj hnew⟩,
    fun i hi => h.answers i (mem_changers.mpr hi)⟩

end Step

theorem getCurrentUser_tokenFor_of_ne {env : Env Tok}
    (hdecode : ∀ payload now payload',
      env.decode (env.encode payload) now = some payload' → payload' = payload)
    {db : Accounts} {user : User} {v : Nat} (hv : db.version? user.id = some v)
    (hne : user.tokenVersion ≠ v) (ctx : Context) (now : ℚ) :
    getCurrentUser env db (some (tokenFor env ctx user)) now = .error credentialsException := by
  refine getCurrentUser_eq_error fun row hrow => ?_
  obtain ⟨payload, hpayload, hsub, hget, hver⟩ := getCurrentUser_eq_ok_iff.mp hrow
  obtain rfl := hdecode _ _ _ hpayload
  rw [← Option.some_inj.mp hsub] at hget
  have hstored : db.version? user.id = some row.tokenVersion :=
    Accounts.version?_eq_some_iff.mpr ⟨row, hget, rfl⟩
  have hsame : (user.tokenVersion : Int) = row.tokenVersion := Option.some_inj.mp hver
  rw [hv] at hstored
  exact hne ((Int.ofNat_inj.mp hsame).trans (Option.some_inj.mp hstored).symm)

/-- While resets stay apart, every one of them counts, and once one has committed, what
was minted from an earlier version is turned away, the answers of earlier resets
included. -/
theorem resets_counted [Fintype ι] [DecidableEq ι] {env : Env Tok} {jobs : ι → TokenJob}
    (hdecode : ∀ payload now payload',
      env.decode (env.encode payload) now = some payload' → payload' = payload)
    {c c₁ c₂ : Config ι Accounts (TokenPoint Tok)} (hstart : ∀ i, c.session i = .lookup)
    (h₁ : Reaches (tokenProgram env jobs) (StepsApart jobs) c c₁)
    (h₂ : Reaches (tokenProgram env jobs) (StepsApart jobs) c₁ c₂) {u : Uuid} {v : Nat}
    (hv : c.store.version? u = some v) :
    c₂.store.version? u = some (v + (changers jobs u c₂).card) ∧
      ∀ j, j ∉ changers jobs u c₁ → j ∈ changers jobs u c₂ →
        (∀ user ∈ c₁.store.users.get? u, ∀ ctx now,
          getCurrentUser env c₂.store (some (tokenFor env ctx user)) now =
            .error credentialsException) ∧
        ∀ i ∈ changers jobs u c₁, ∀ response, c₂.session i = .finished (.signedIn response) →
          ∀ now, getCurrentUser env c₂.store (some response.token) now =
            .error credentialsException := by
  have hversioned := h₁.invariant (Versioned env jobs u v) (versioned_start hstart hv)
    fun _ _ _ h hallowed => h.step hallowed
  obtain ⟨hversioned₂, hsince⟩ := h₂.invariant
    (fun c => Versioned env jobs u v c ∧ Since env jobs u c₁ (v + (changers jobs u c₁).card) c)
    ⟨hversioned, hversioned.since⟩
    fun _ _ _ h hallowed => ⟨h.1.step hallowed, h.2.step h.1.upToDate hallowed⟩
  obtain ⟨w, hw, -, hlater⟩ := hsince.grows
  refine ⟨hversioned₂.counted, fun j hnew hj => ?_⟩
  have hlt := hlater j (mem_changers.not.mp hnew) (mem_changers.mp hj)
  refine ⟨fun user huser ctx now => ?_, fun i hi response hfinished now => ?_⟩
  · have hid := (Table.get?_eq_some_iff.mp huser).2
    have hver : some user.tokenVersion = some _ :=
      (Accounts.version?_eq_some_iff.mpr ⟨user, huser, rfl⟩).symm.trans hversioned.counted
    rw [← hid] at hw
    exact getCurrentUser_tokenFor_of_ne hdecode hw (by rw [Option.some_inj] at hver; omega) ctx now
  · rcases hsince.answers i (mem_changers.mp hi) with ⟨hp, -⟩ | ⟨ctx, user, hp, hid, hle⟩
    · rw [hfinished] at hp
      cases hjob : jobs i <;> simp [hjob] at hp
    · rw [hfinished] at hp
      obtain rfl : response = { token := tokenFor env ctx user, user := userOut user } := by
        simpa using hp
      rw [← hid] at hw
      exact getCurrentUser_tokenFor_of_ne hdecode hw (by omega) ctx now

theorem plainEnv_decode (payload : Payload) (now : ℚ) (payload' : Payload)
    (h : plainEnv.decode (plainEnv.encode payload) now = some payload') : payload' = payload := by
  simp only [plainEnv] at h
  split_ifs at h
  exact (Option.some_inj.mp h).symm

def olderLink : EmailToken :=
  { resetLink with id := 3, tokenHash := "sha256:older link" }

/-- With another reset link outstanding, both resets find it and lose the row they have loaded. -/
def bothLinked : Config Bool Accounts (TokenPoint Payload) where
  store :=
    { ownerAccounts with
      tokens := ⟨[resetLink, verifyLink, olderLink], by decide⟩
      hashes_nodup := by decide
      tokens_owned := by decide }
  session _ := .lookup

/-- One reset has flushed its password and locked the row before the other comes to its flush. -/
def bothFlush : List (Bool × Context) :=
  stepsOf false 1 ++ stepsOf true 6 ++ stepsOf false 5 ++ stepsOf true 4 ++ stepsOf false 3

def oneReset : Config Bool Accounts (TokenPoint Payload) :=
  run (tokenProgram plainEnv twoResets) bothLinked (bothFlush ++ stepsOf true 5)

def bothReset : Config Bool Accounts (TokenPoint Payload) :=
  run (tokenProgram plainEnv twoResets) oneReset (stepsOf false 4)

def oneAnswer : AuthResponse Payload where
  token := tokenFor plainEnv (plainContext 60) { owner with tokenVersion := 1 }
  user := userOut { owner with emailVerifiedAt := some 60 }

theorem resets_counted_locked :
    bothReset.store.version? 1 = some 2 ∧
      bothReset.store.version? 1 = some (0 + (changers twoResets 1 bothReset).card) ∧
      bothReset.session true = .finished (.signedIn oneAnswer) ∧
      getCurrentUser plainEnv bothReset.store (some oneAnswer.token) 60 =
        .error credentialsException := by
  obtain ⟨hcount, hearlier⟩ := resets_counted plainEnv_decode
    (show ∀ i, bothLinked.session i = .lookup from fun _ => rfl)
    (reaches_run (show Follows _ (StepsApart twoResets) bothLinked
      (bothFlush ++ stepsOf true 5) by decide +kernel))
    (reaches_run (show Follows _ (StepsApart twoResets) oneReset (stepsOf false 4) by
      decide +kernel))
    (show bothLinked.store.version? 1 = some 0 by decide)
  have hanswer : bothReset.session true = .finished (.signedIn oneAnswer) := by decide +kernel
  exact ⟨by decide +kernel, hcount, hanswer, (hearlier false (by decide +kernel)
    (by decide +kernel)).2 true (by decide +kernel) oneAnswer hanswer 60⟩

example : ¬ Unlocked (run (tokenProgram plainEnv twoResets) bothLinked bothFlush) false := by
  decide +kernel

/-- Without another link both resets write back what they have read before the other's commit. -/
def lostSchedule : List (Bool × Context) :=
  stepsOf false 1 ++ stepsOf true 5 ++ stepsOf false 5 ++ stepsOf true 6 ++ stepsOf false 5

def oneLost : Config Bool Accounts (TokenPoint Payload) :=
  run (tokenProgram plainEnv twoResets) bothLookUp lostSchedule

theorem reset_lost :
    Follows (tokenProgram plainEnv twoResets) (fun c i _ => Unlocked c i) bothLookUp lostSchedule ∧
      bothLookUp.store.version? 1 = some 0 ∧ (oneLost.session false).succeeded ∧
      (oneLost.session true).succeeded ∧ oneLost.store.version? 1 = some 1 ∧
      oneLost.session true = .finished (.signedIn oneAnswer) ∧
      (getCurrentUser plainEnv oneLost.store (some oneAnswer.token) 60).toOption.isSome := by
  decide +kernel

end StockQuant
