import Mathlib.Data.Fintype.Basic
import StockQuant.LinkSessions

/-! Requests that mail new links to one account at the same time. -/

namespace StockQuant

open ReadCommitted KeyedTable

variable {Tok ι : Type}

def OneOutstanding (db : Accounts) (userId : Uuid) (purpose : Purpose) : Prop :=
  ∀ row ∈ db.tokens.rows, ∀ row' ∈ db.tokens.rows, outstanding userId purpose row →
    outstanding userId purpose row' → row = row'

/-- A request has read the token and is about to mark it as used. -/
def Doomed (c : Config ι Accounts LinkPoint) (tokenId : Uuid) : Prop :=
  ∃ j, tokenId ∈ (c.session j).loaded

/-- A request for the user is about to read the outstanding tokens. -/
def Selecting (jobs : ι → LinkJob Tok) (c : Config ι Accounts LinkPoint) (userId : Uuid)
    (purpose : Purpose) : Prop :=
  ∃ j, (c.session j).selecting = some userId ∧ (jobs j).purpose = purpose

/-- A request that commits its token finds every unused one about to be marked, or another
request about to read them. -/
def InsertsApart (jobs : ι → LinkJob Tok) (c : Config ι Accounts LinkPoint) (i : ι) : Prop :=
  match c.session i with
  | .insert userId =>
    Selecting jobs c userId (jobs i).purpose ∨ ∀ row ∈ c.store.tokens.rows,
      outstanding userId (jobs i).purpose row → Doomed c row.id
  | _ => True

section Decide

variable [Fintype ι] (jobs : ι → LinkJob Tok) (c : Config ι Accounts LinkPoint)

instance (db : Accounts) (userId : Uuid) (purpose : Purpose) :
    Decidable (OneOutstanding db userId purpose) :=
  inferInstanceAs (Decidable (∀ row ∈ db.tokens.rows, _))

instance (tokenId : Uuid) : Decidable (Doomed c tokenId) :=
  inferInstanceAs (Decidable (∃ _ : ι, _))

instance (userId : Uuid) (purpose : Purpose) : Decidable (Selecting jobs c userId purpose) :=
  inferInstanceAs (Decidable (∃ _ : ι, _))

instance (i : ι) : Decidable (InsertsApart jobs c i) := by
  unfold InsertsApart
  split <;> infer_instance

end Decide

/-- The unused tokens that no request is about to mark are at most one. -/
def Settled (c : Config ι Accounts LinkPoint) (userId : Uuid) (purpose : Purpose) : Prop :=
  ∀ row ∈ c.store.tokens.rows, ∀ row' ∈ c.store.tokens.rows, outstanding userId purpose row →
    outstanding userId purpose row' → ¬ Doomed c row.id → ¬ Doomed c row'.id → row = row'

def Served (jobs : ι → LinkJob Tok) (c : Config ι Accounts LinkPoint) (userId : Uuid)
    (purpose : Purpose) : Prop :=
  ∃ j, (c.session j).served = some userId ∧ (jobs j).purpose = purpose

section Step

variable {env : Env Tok} {jobs : ι → LinkJob Tok} {c c' : Config ι Accounts LinkPoint} {i : ι}
  {userId : Uuid} {purpose : Purpose}

theorem Settled.of_le (h : Settled c userId purpose)
    (hle : ∀ row ∈ c'.store.tokens.rows, outstanding userId purpose row → ¬ Doomed c' row.id →
      row ∈ c.store.tokens.rows ∧ ¬ Doomed c row.id) :
    Settled c' userId purpose := by
  intro row hrow row' hrow' hout hout' hlasts hlasts'
  obtain ⟨hmem, hdoomed⟩ := hle row hrow hout hlasts
  obtain ⟨hmem', hdoomed'⟩ := hle row' hrow' hout' hlasts'
  exact h row hmem row' hmem' hout hout' hdoomed hdoomed'

theorem Selecting.of_ne (h : Selecting jobs c userId purpose)
    (hi : (c.session i).selecting ≠ some userId ∨ (jobs i).purpose ≠ purpose)
    (hother : ∀ j, j ≠ i → c'.session j = c.session j) : Selecting jobs c' userId purpose := by
  obtain ⟨j, hj, hpurpose⟩ := h
  have hji : j ≠ i := by
    rintro rfl
    exact hi.elim (· hj) (· hpurpose)
  exact ⟨j, hother j hji ▸ hj, hpurpose⟩

theorem Selecting.of_none (h : Selecting jobs c userId purpose)
    (hi : (c.session i).selecting = none) (hother : ∀ j, j ≠ i → c'.session j = c.session j) :
    Selecting jobs c' userId purpose := by
  refine h.of_ne (Or.inl fun heq => ?_) hother
  rw [hi] at heq
  cases heq

theorem served_of_step (hother : ∀ j, j ≠ i → c'.session j = c.session j)
    (hself : ∀ userId, (c'.session i).served = some userId → (c.session i).served = some userId)
    (h : Served jobs c' userId purpose) : Served jobs c userId purpose := by
  obtain ⟨j, hj, hpurpose⟩ := h
  refine ⟨j, ?_, hpurpose⟩
  by_cases hji : j = i
  · subst hji
    exact hself userId hj
  · exact hother j hji ▸ hj

theorem doomed_of_loaded (hother : ∀ j, j ≠ i → c'.session j = c.session j)
    (hself : ∀ id ∈ (c.session i).loaded, id ∈ (c'.session i).loaded) {tokenId : Uuid}
    (h : Doomed c tokenId) : Doomed c' tokenId := by
  obtain ⟨j, hj⟩ := h
  by_cases hji : j = i
  · subst hji
    exact ⟨j, hself tokenId hj⟩
  · exact ⟨j, (hother j hji).symm ▸ hj⟩

theorem outstanding_of_markUsed {db : Accounts} {ids : List Uuid} {now : ℚ} {row : EmailToken}
    (hrow : row ∈ (db.markUsed (·.id ∈ ids) now).tokens.rows)
    (hout : outstanding userId purpose row) : row ∈ db.tokens.rows ∧ row.id ∉ ids := by
  obtain ⟨old, hold, rfl⟩ := List.mem_map.mp hrow
  by_cases hid : old.id ∈ ids
  · simp [outstanding, hid] at hout
  · rw [if_neg (by simpa using hid)]
    exact ⟨hold, hid⟩

/-- Once some request has read the outstanding tokens of the user, another is about to, or
they are settled. -/
def LinksSettled (jobs : ι → LinkJob Tok) (before : Prop) (userId : Uuid) (purpose : Purpose)
    (c : Config ι Accounts LinkPoint) : Prop :=
  before ∨ Served jobs c userId purpose → Selecting jobs c userId purpose ∨ Settled c userId purpose

variable {before : Prop} {ctx : Context}

theorem linksSettled_of_le (h : LinksSettled jobs before userId purpose c)
    (hother : ∀ j, j ≠ i → c'.session j = c.session j)
    (hserved : ∀ userId, (c'.session i).served = some userId → (c.session i).served = some userId)
    (hselecting : (c.session i).selecting = none)
    (hle : ∀ row ∈ c'.store.tokens.rows, outstanding userId purpose row → ¬ Doomed c' row.id →
      row ∈ c.store.tokens.rows ∧ ¬ Doomed c row.id) :
    LinksSettled jobs before userId purpose c' := by
  intro hbefore
  rcases h (hbefore.imp_right (served_of_step hother hserved)) with hselect | hsettled
  · exact Or.inl (hselect.of_none hselecting hother)
  · exact Or.inr (hsettled.of_le hle)

theorem linksSettled_select {user : User} (h : LinksSettled jobs before userId purpose c)
    (hp : c.session i = .selectOutstanding user)
    (hother : ∀ j, j ≠ i → c'.session j = c.session j)
    (hself : c'.session i = ((linkAction env ctx (jobs i) (c.session i)).perform c.store).2)
    (hstore : c'.store = c.store) : LinksSettled jobs before userId purpose c' := by
  have hdoomed {id : Uuid} (hdoomed : Doomed c id) : Doomed c' id :=
    doomed_of_loaded hother (by simp [hp]) hdoomed
  simp only [hp, linkAction, perform_read] at hself
  by_cases hkey : user.id = userId ∧ (jobs i).purpose = purpose
  · obtain ⟨rfl, rfl⟩ := hkey
    -- What is unused now has been read by this request.
    refine fun _ => Or.inr fun row hrow _ _ hout _ hlasts => absurd ⟨i, ?_⟩ hlasts
    have hmem : row ∈ c.store.tokens.rows.filter (outstanding user.id (jobs i).purpose) :=
      List.mem_filter.mpr ⟨hstore ▸ hrow, hout⟩
    rw [hself, if_neg (List.ne_nil_of_mem hmem)]
    exact List.mem_map.mpr ⟨row, hmem, rfl⟩
  · intro hbefore
    have hserved : Served jobs c' userId purpose → Served jobs c userId purpose := by
      rintro ⟨j, hj, hpurpose⟩
      have hji : j ≠ i := by
        rintro rfl
        rw [hself] at hj
        split_ifs at hj
        · exact hkey ⟨Option.some.inj hj, hpurpose⟩
        · exact hkey ⟨Option.some.inj hj, hpurpose⟩
      exact ⟨j, hother j hji ▸ hj, hpurpose⟩
    rcases h (hbefore.imp_right hserved) with hselect | hsettled
    · refine Or.inl (hselect.of_ne ?_ hother)
      rw [hp]
      exact (not_and_or.mp hkey).imp_left fun hne heq => hne (Option.some.inj heq)
    · refine Or.inr (hsettled.of_le fun row hrow _ hlasts => ⟨hstore ▸ hrow, fun hd => ?_⟩)
      exact hlasts (hdoomed hd)

theorem linksSettled_insert {owner : Uuid} (h : LinksSettled jobs before userId purpose c)
    (hp : c.session i = .insert owner) (hallowed : InsertsApart jobs c i)
    (hother : ∀ j, j ≠ i → c'.session j = c.session j)
    (hself : c'.session i = ((linkAction env ctx (jobs i) (c.session i)).perform c.store).2)
    (hstore : c'.store = ((linkAction env ctx (jobs i) (c.session i)).perform c.store).1) :
    LinksSettled jobs before userId purpose c' := by
  have hdoomed {id : Uuid} (hdoomed : Doomed c id) : Doomed c' id :=
    doomed_of_loaded hother (by simp [hp]) hdoomed
  have hselecting : (c.session i).selecting = none := by simp [hp]
  unfold InsertsApart at hallowed
  simp only [hp, linkAction, Action.perform] at hself hstore hallowed
  cases hcreate : createEmailToken c.store ctx.tokenId owner (jobs i).purpose
      (env.hashEmailToken ctx.rawToken) (ttlMinutes env (jobs i).purpose) ctx.now with
  | none =>
    rw [hcreate] at hself hstore
    dsimp only at hself hstore
    refine linksSettled_of_le h hother (fun _ hserved => ?_) hselecting fun row hrow _ hlasts =>
      ⟨hstore ▸ hrow, fun hd => hlasts (hdoomed hd)⟩
    rw [hself] at hserved
    cases hserved
  | some db =>
    rw [hcreate] at hself hstore
    obtain ⟨-, htokens⟩ := createEmailToken_eq_some hcreate
    by_cases hkey : owner = userId ∧ (jobs i).purpose = purpose
    · obtain ⟨rfl, rfl⟩ := hkey
      rcases hallowed with hselect | hall
      · exact fun _ => Or.inl (hselect.of_none hselecting hother)
      · have hnew {row : EmailToken} (hout : outstanding owner (jobs i).purpose row)
            (hlasts : ¬ Doomed c' row.id) : row ∉ c.store.tokens.rows :=
          fun hold => hlasts (hdoomed (hall row hold hout))
        refine fun _ => Or.inr fun row hrow row' hrow' hout hout' hlasts hlasts' => ?_
        rw [hstore, htokens] at hrow hrow'
        rw [(List.mem_cons.mp hrow).resolve_right (hnew hout hlasts),
          (List.mem_cons.mp hrow').resolve_right (hnew hout' hlasts')]
    · refine linksSettled_of_le h hother (fun _ hserved => ?_) hselecting
        fun row hrow hout hlasts => ?_
      · rw [hself] at hserved
        rwa [hp]
      · rw [hstore, htokens] at hrow
        refine ⟨(List.mem_cons.mp hrow).resolve_left ?_, fun hd => hlasts (hdoomed hd)⟩
        rintro rfl
        simp [outstanding] at hout
        exact hkey hout

theorem linksSettled_step [DecidableEq ι] (h : LinksSettled jobs before userId purpose c)
    (hallowed : InsertsApart jobs c i) :
    LinksSettled jobs before userId purpose (step (linkProgram env jobs) c i ctx) := by
  have hother : ∀ j, j ≠ i → (step (linkProgram env jobs) c i ctx).session j = c.session j :=
    fun j hj => step_session_of_ne c hj ctx
  have hself : (step (linkProgram env jobs) c i ctx).session i = _ := step_session_self c i ctx
  have hstore : (step (linkProgram env jobs) c i ctx).store = _ := step_store c i ctx
  generalize step (linkProgram env jobs) c i ctx = c' at hother hself hstore
  unfold linkProgram at hself hstore
  by_cases hselect : ∃ user, c.session i = .selectOutstanding user
  · obtain ⟨user, hp⟩ := hselect
    refine linksSettled_select h hp hother hself ?_
    rw [hstore, hp]
    rfl
  by_cases hretire : ∃ userId ids, c.session i = .retire userId ids
  · obtain ⟨owner, ids, hp⟩ := hretire
    simp only [hp, linkAction, perform_commit_some] at hself hstore
    refine linksSettled_of_le h hother (by simp [hself, hp]) (by simp [hp])
      fun row hrow hout hlasts => ?_
    rw [hstore] at hrow
    obtain ⟨hold, hid⟩ := outstanding_of_markUsed hrow hout
    refine ⟨hold, ?_⟩
    rintro ⟨j, hj⟩
    by_cases hji : j = i
    · subst hji
      rw [hp] at hj
      exact hid hj
    · exact hlasts ⟨j, (hother j hji).symm ▸ hj⟩
  by_cases hinsert : ∃ userId, c.session i = .insert userId
  · obtain ⟨owner, hp⟩ := hinsert
    exact linksSettled_insert h hp hallowed hother hself hstore
  · obtain ⟨hsame, hloaded, hserved⟩ := perform_quiet env ctx (jobs i) c.store
      (fun user hp => hselect ⟨user, hp⟩) (fun userId ids hp => hretire ⟨userId, ids, hp⟩)
      fun userId hp => hinsert ⟨userId, hp⟩
    rw [← hself] at hloaded hserved
    have hselecting : (c.session i).selecting = none := by
      cases hp : c.session i <;> first | rfl | exact absurd ⟨_, hp⟩ hselect
    refine linksSettled_of_le h hother hserved hselecting fun row hrow _ hlasts =>
      ⟨hsame ▸ hstore ▸ hrow, fun hd => hlasts (doomed_of_loaded hother (fun _ hid => hloaded ▸ hid) hd)⟩

end Step

/-- When a token is committed only while the unused ones are about to go, no more than one
is left of them once no request is under way. -/
theorem links_one_outstanding [DecidableEq ι] {env : Env Tok} {jobs : ι → LinkJob Tok}
    {c c' : Config ι Accounts LinkPoint} (hstart : ∀ i, c.session i = .start)
    (hreach : Reaches (linkProgram env jobs) (fun c i _ => InsertsApart jobs c i) c c')
    (hquiet : ∀ i, (c'.session i).underWay = false) {userId : Uuid} {purpose : Purpose}
    (h : OneOutstanding c.store userId purpose ∨
      ∃ i mail, c'.session i = .sent userId mail ∧ (jobs i).purpose = purpose) :
    OneOutstanding c'.store userId purpose := by
  have hrun := hreach.invariant
    (LinksSettled jobs (OneOutstanding c.store userId purpose) userId purpose) (by
      rintro (hone | ⟨i, hi, -⟩)
      · exact Or.inr fun row hrow row' hrow' hout hout' _ _ => hone row hrow row' hrow' hout hout'
      · simp [hstart] at hi)
    fun _ _ _ hinv hallowed => linksSettled_step hinv hallowed
  have hlasts (id : Uuid) : ¬ Doomed c' id := by
    rintro ⟨i, hi⟩
    have hi' := hquiet i
    cases hp : c'.session i <;> simp [hp, LinkPoint.underWay] at hi hi'
  have hsettled := hrun (h.imp_right fun ⟨i, mail, hi, hpurpose⟩ => ⟨i, by rw [hi]; rfl, hpurpose⟩)
  rcases hsettled with ⟨i, hi, -⟩ | hsettled
  · have hi' := hquiet i
    cases hp : c'.session i <;> simp [hp, LinkPoint.underWay] at hi hi'
  · exact fun row hrow row' hrow' hout hout' =>
      hsettled row hrow row' hrow' hout hout' (hlasts _) (hlasts _)

/-- One account asks for a link twice. -/
def twoForgot (_ : Bool) : LinkJob Payload := .forgotPassword { email := "owner@example.com" }

def twoResends (_ : Bool) : LinkJob Payload :=
  .resendVerification (some (accessPayload plainEnv 1 0 0 ""))

def linksStarted : Config Bool Accounts LinkPoint where
  store := ownerAccounts
  session _ := .start

def linkSteps (i : Bool) (n : Nat) : List (Bool × Context) :=
  List.replicate n (i, contextWith 60 (if i then 11 else 12) (if i then "first" else "second"))

/-- The second request reads the outstanding tokens after the first one's commit. -/
def overtaking : List (Bool × Context) :=
  linkSteps false 1 ++ linkSteps true 5 ++ linkSteps false 6 ++ linkSteps true 2

def overtaken : Config Bool Accounts LinkPoint :=
  run (linkProgram plainEnv twoForgot) linksStarted overtaking

theorem links_one_outstanding_overtaken : OneOutstanding overtaken.store 1 .passwordReset := by
  have hfollows : Follows (linkProgram plainEnv twoForgot) (fun c i _ => InsertsApart twoForgot c i)
      linksStarted overtaking := by
    decide +kernel
  exact links_one_outstanding (show ∀ i, linksStarted.session i = .start from fun _ => rfl)
    (reaches_run hfollows) (show ∀ i, (overtaken.session i).underWay = false by decide +kernel)
    (Or.inl (show OneOutstanding ownerAccounts 1 .passwordReset by decide))

/-- The second request reads them between the first one's two commits. -/
def interposed (jobs : Bool → LinkJob Payload) : Config Bool Accounts LinkPoint :=
  run (linkProgram plainEnv jobs) linksStarted
    (linkSteps true 4 ++ linkSteps false 2 ++ linkSteps true 3 ++ linkSteps false 3)

theorem links_two_outstanding :
    (OneOutstanding ownerAccounts 1 .passwordReset ∧
      (∀ i, ((interposed twoForgot).session i).served = some 1 ∧
        ((interposed twoForgot).session i).underWay = false) ∧
      ¬ OneOutstanding (interposed twoForgot).store 1 .passwordReset) ∧
    OneOutstanding ownerAccounts 1 .verifyEmail ∧
      (∀ i, ((interposed twoResends).session i).served = some 1 ∧
        ((interposed twoResends).session i).underWay = false) ∧
      ¬ OneOutstanding (interposed twoResends).store 1 .verifyEmail := by
  decide +kernel

end StockQuant
