import Mathlib.Data.Fintype.Basic
import StockQuant.TokenSessions

/-! Requests that present one mailed token at the same time. -/

namespace StockQuant

open ReadCommitted

variable {Tok ι : Type}

def SameToken (job job' : TokenJob) : Prop :=
  job.purpose = job'.purpose ∧ job.token = job'.token

instance (job job' : TokenJob) : Decidable (SameToken job job') :=
  inferInstanceAs (Decidable (_ ∧ _))

theorem SameToken.symm {job job' : TokenJob} (h : SameToken job job') : SameToken job' job :=
  ⟨h.1.symm, h.2.symm⟩

/-- No request looks a token up between another's lookup of it and that one's commit
of its use, unless the token has expired by then. -/
def LookupsApart (jobs : ι → TokenJob) (c : Config ι Accounts (TokenPoint Tok)) (i : ι)
    (ctx : Context) : Prop :=
  c.session i = .lookup → ∀ j, j ≠ i → SameToken (jobs j) (jobs i) →
    ∀ token ∈ (c.session j).pending, token.expiresAt ≤ ctx.now

instance [Fintype ι] [DecidableEq ι] [DecidableEq Tok] (jobs : ι → TokenJob)
    (c : Config ι Accounts (TokenPoint Tok)) (i : ι) (ctx : Context) :
    Decidable (LookupsApart jobs c i ctx) :=
  inferInstanceAs (Decidable (_ → _))

/-- At most one of the requests with one token is past its lookup, and once one of
them has used the token, the table says so. -/
structure UsedOnce (env : Env Tok) (jobs : ι → TokenJob)
    (c : Config ι Accounts (TokenPoint Tok)) : Prop where
  one : ∀ i j, i ≠ j → SameToken (jobs i) (jobs j) → (c.session i).Passed →
    ¬ (c.session j).Passed
  stored : ∀ i token, (c.session i).pending = some token → c.store.HasToken token ∧
    token.purpose = (jobs i).purpose ∧ token.tokenHash = env.hashEmailToken (jobs i).token
  used : ∀ i, (c.session i).Consumed →
    c.store.Used (jobs i).purpose (env.hashEmailToken (jobs i).token)

theorem getUsableEmailToken_of_used {db : Accounts} {purpose : Purpose} {tokenHash : String}
    {now : ℚ} (h : db.Used purpose tokenHash) :
    getUsableEmailToken db purpose tokenHash now = none := by
  obtain ⟨row, hrow, hhash, hpurpose, hused⟩ := h
  refine Option.eq_none_iff_forall_ne_some.mpr fun token htoken => ?_
  obtain ⟨hmem, hhash', _, hnone, _⟩ := getUsableEmailToken_eq_some_iff.mp htoken
  have heq := Accounts.eq_of_tokenHash hrow hmem (hhash.trans hhash'.symm)
  exact hused (heq ▸ hnone)

theorem used_consumeEmailToken {db : Accounts} {token : EmailToken} (h : db.HasToken token)
    (now : ℚ) : (consumeEmailToken db token now).Used token.purpose token.tokenHash := by
  obtain ⟨usedAt, hrow⟩ := h
  exact ⟨_, List.mem_map.mpr ⟨_, hrow, rfl⟩, by simp, by simp, by simp⟩

section Step

variable [DecidableEq ι] {env : Env Tok} {jobs : ι → TokenJob}
  {c c' : Config ι Accounts (TokenPoint Tok)} {i : ι}

theorem UsedOnce.of_later (h : UsedOnce env jobs c) (hlater : c.store.Later c'.store)
    (hother : ∀ j, j ≠ i → c'.session j = c.session j)
    (hpassed : (c'.session i).Passed → (c.session i).Passed)
    (hpending : ∀ token, (c'.session i).pending = some token → (c.session i).pending = some token)
    (hused : (c'.session i).Consumed →
      c'.store.Used (jobs i).purpose (env.hashEmailToken (jobs i).token)) :
    UsedOnce env jobs c' := by
  have hback : ∀ j, (c'.session j).Passed → (c.session j).Passed := by
    intro j hj
    by_cases hji : j = i
    · subst hji
      exact hpassed hj
    · exact hother j hji ▸ hj
  refine ⟨fun j k hjk hsame hj hk => h.one j k hjk hsame (hback j hj) (hback k hk), ?_, ?_⟩
  · intro j token hj
    have hj : (c.session j).pending = some token := by
      by_cases hji : j = i
      · subst hji
        exact hpending token hj
      · exact hother j hji ▸ hj
    exact (h.stored j token hj).imp_left hlater.hasToken
  · intro j hj
    by_cases hji : j = i
    · subst hji
      exact hused hj
    · exact hlater.used (h.used j (hother j hji ▸ hj))

theorem UsedOnce.of_rejected (h : UsedOnce env jobs c) (hstore : c'.store = c.store)
    (hother : ∀ j, j ≠ i → c'.session j = c.session j) (hnext : c'.session i = .rejected) :
    UsedOnce env jobs c' :=
  h.of_later (hstore ▸ Accounts.Later.refl _) hother (fun hpassed => by simp [hnext] at hpassed)
    (fun token hpending => by simp [hnext] at hpending) fun hused => by simp [hnext] at hused

theorem UsedOnce.of_lookup {token : EmailToken} (h : UsedOnce env jobs c)
    (hstore : c'.store = c.store) (hother : ∀ j, j ≠ i → c'.session j = c.session j)
    {now : ℚ} (hfound : getUsableEmailToken c.store (jobs i).purpose
      (env.hashEmailToken (jobs i).token) now = some token)
    (hnext : c'.session i = .getUser token)
    (hapart : ∀ j, j ≠ i → SameToken (jobs j) (jobs i) →
      ∀ token ∈ (c.session j).pending, token.expiresAt ≤ now) :
    UsedOnce env jobs c' := by
  obtain ⟨hmem, hhash, hpurpose, hunused, hlive⟩ := getUsableEmailToken_eq_some_iff.mp hfound
  -- Another request past the lookup has either used the token or waits with a live one.
  have hnone : ∀ j, j ≠ i → SameToken (jobs j) (jobs i) → ¬ (c'.session j).Passed := by
    rintro j hji hsame hj
    rw [hother j hji] at hj
    rcases hj with ⟨other, hpending⟩ | hconsumed
    · obtain ⟨⟨usedAt, hrow⟩, hpurpose', hhash'⟩ := h.stored j other hpending
      have heq := Accounts.eq_of_tokenHash hrow hmem (by
        show other.tokenHash = token.tokenHash
        rw [hhash', hhash, hsame.2])
      have hexpires : other.expiresAt = token.expiresAt := by rw [← heq]
      exact absurd (hapart j hji hsame other hpending) (by rw [hexpires]; exact not_le.mpr hlive)
    · have hused := h.used j hconsumed
      rw [hsame.1, hsame.2] at hused
      rw [getUsableEmailToken_of_used hused] at hfound
      cases hfound
  refine ⟨fun j k hjk hsame hj hk => ?_, fun j other hj => ?_, fun j hj => ?_⟩
  · by_cases hji : j = i
    · subst hji
      exact hnone k hjk.symm hsame.symm hk
    · by_cases hki : k = i
      · subst hki
        exact hnone j hji hsame hj
      · rw [hother j hji] at hj
        rw [hother k hki] at hk
        exact h.one j k hjk hsame hj hk
  · rw [hstore]
    by_cases hji : j = i
    · subst hji
      rw [hnext] at hj
      obtain rfl := Option.some_inj.mp hj
      exact ⟨⟨token.usedAt, hmem⟩, hpurpose, hhash⟩
    · exact h.stored j other (hother j hji ▸ hj)
  · by_cases hji : j = i
    · subst hji
      rw [hnext] at hj
      exact hj.elim
    · exact hstore ▸ h.used j (hother j hji ▸ hj)

theorem usedOnce_step {ctx : Context} (h : UsedOnce env jobs c)
    (hallowed : LookupsApart jobs c i ctx) :
    UsedOnce env jobs (step (tokenProgram env jobs) c i ctx) := by
  have hother : ∀ j, j ≠ i → (step (tokenProgram env jobs) c i ctx).session j = c.session j :=
    fun j hj => step_session_of_ne c hj ctx
  have hself : (step (tokenProgram env jobs) c i ctx).session i = _ := step_session_self c i ctx
  have hstore : (step (tokenProgram env jobs) c i ctx).store = _ := step_store c i ctx
  generalize step (tokenProgram env jobs) c i ctx = c' at hother hself hstore
  rcases (c.session i).consumed_or with hp | hp | ⟨token, hp⟩ | ⟨token, hp⟩ | hp
  · obtain ⟨hlater, hnext⟩ := perform_of_consumed env (jobs i) c.store hp ctx
    refine h.of_later (hstore ▸ hlater) hother (fun _ => Or.inr hp) (fun token hpending => ?_)
      fun _ => hstore ▸ hlater.used (h.used i hp)
    rw [hself] at hpending
    rcases hnext with hnext | hnext
    · rw [tokenProgram, hnext.pending_eq_none] at hpending
      cases hpending
    · rw [tokenProgram, hnext] at hpending
      cases hpending
  · simp only [tokenProgram, hp] at hself hstore
    rcases perform_lookup env (jobs i) c.store ctx with heq | ⟨token, hfound, heq⟩
    · rw [heq] at hself hstore
      exact h.of_rejected hstore hother hself
    · rw [heq] at hself hstore
      exact h.of_lookup hstore hother hfound hself (hallowed hp)
  · simp only [tokenProgram, hp] at hself hstore
    rcases perform_getUser env (jobs i) c.store token ctx with heq | heq
    · rw [heq] at hself hstore
      exact h.of_rejected hstore hother hself
    · rw [heq] at hself hstore
      exact h.of_later (hstore ▸ Accounts.Later.refl _) hother (fun _ => by simp [hp])
        (fun token hpending => by simpa [hself, hp] using hpending)
        fun hused => by simp [hself] at hused
  · simp only [tokenProgram, hp, tokenAction, perform_commit_some] at hself hstore
    obtain ⟨htoken, hpurpose, hhash⟩ := h.stored i token (by rw [hp]; rfl)
    refine h.of_later (hstore ▸ Accounts.markUsed_later _ _ _) hother (fun _ => by simp [hp])
      (fun token hpending => by simp [hself] at hpending) fun _ => ?_
    rw [hstore, ← hpurpose, ← hhash]
    exact used_consumeEmailToken htoken ctx.now
  · rcases hp with hp | hp
    all_goals
      simp only [tokenProgram, hp, tokenAction, perform_work] at hself hstore
      refine h.of_later (hstore ▸ Accounts.Later.refl _) hother (fun hpassed => ?_)
        (fun token hpending => by simp [hself] at hpending) fun hused => by simp [hself] at hused
      rwa [hself, ← hp] at hpassed

end Step

theorem usedOnce_start {env : Env Tok} {jobs : ι → TokenJob}
    {c : Config ι Accounts (TokenPoint Tok)} (hstart : ∀ i, c.session i = .lookup) :
    UsedOnce env jobs c := by
  refine ⟨fun i j _ _ hi => ?_, fun i token hi => ?_, fun i hi => ?_⟩
  · simp [hstart] at hi
  · simp [hstart] at hi
  · simp [hstart] at hi

/-- While lookups stay apart, at most one request with a token succeeds. -/
theorem token_single_use [DecidableEq ι] {env : Env Tok} {jobs : ι → TokenJob}
    {c c' : Config ι Accounts (TokenPoint Tok)} (hstart : ∀ i, c.session i = .lookup)
    (hreach : Reaches (tokenProgram env jobs) (LookupsApart jobs) c c') {i j : ι} (hij : i ≠ j)
    (hsame : SameToken (jobs i) (jobs j)) :
    ¬ ((c'.session i).succeeded ∧ (c'.session j).succeeded) := by
  rintro ⟨hi, hj⟩
  have hinv := hreach.invariant (UsedOnce env jobs) (usedOnce_start hstart)
    fun _ _ _ h hallowed => usedOnce_step h hallowed
  exact hinv.one i j hij hsame (Or.inr (TokenPoint.consumed_of_succeeded hi))
    (Or.inr (TokenPoint.consumed_of_succeeded hj))

/-- The link of one account is presented by two requests. -/
def twoResets (_ : Bool) : TokenJob := .resetPassword newPassword

def twoVerifications (_ : Bool) : TokenJob :=
  .verifyEmail { token := "verify", token_length := by decide }

def bothLookUp : Config Bool Accounts (TokenPoint Payload) where
  store := ownerAccounts
  session _ := .lookup

def stepsOf (i : Bool) (n : Nat) : List (Bool × Context) :=
  List.replicate n (i, plainContext 60)

def replayed : Config Bool Accounts (TokenPoint Payload) :=
  run (tokenProgram plainEnv twoResets) bothLookUp (stepsOf false 11 ++ stepsOf true 11)

theorem token_single_use_replayed :
    (replayed.session false).succeeded ∧
      ¬ ((replayed.session false).succeeded ∧ (replayed.session true).succeeded) :=
  ⟨by decide +kernel,
    token_single_use (show ∀ i, bothLookUp.session i = .lookup from fun _ => rfl)
      (reaches_run (show Follows _ (LookupsApart twoResets) _ _ by decide +kernel))
      Bool.false_ne_true (show SameToken (twoResets false) (twoResets true) by decide)⟩

def raced (jobs : Bool → TokenJob) : Config Bool Accounts (TokenPoint Payload) :=
  run (tokenProgram plainEnv jobs) bothLookUp
    (stepsOf false 1 ++ stepsOf true 11 ++ stepsOf false 10)

theorem token_used_twice :
    ((raced twoResets).session false).succeeded ∧ ((raced twoResets).session true).succeeded ∧
      ((raced twoVerifications).session false).succeeded ∧
      ((raced twoVerifications).session true).succeeded := by
  decide +kernel

end StockQuant
