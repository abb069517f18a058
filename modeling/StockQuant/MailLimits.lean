import StockQuant.MailCounters

/-! How much mail the service sends to one mailbox. -/

namespace StockQuant

open KeyedTable SlidingWindow

variable {Tok : Type}

def AuthCall.resets : AuthCall Tok → Bool
  | .forgotPassword _ => true
  | _ => false

def AuthCall.resends : AuthCall Tok → Bool
  | .resendVerification _ => true
  | _ => false

def AuthCall.registers : AuthCall Tok → Bool
  | .register _ => true
  | _ => false

def Answered.mails (a : Answered Tok) : List Mail := repliedMails a.result

def Answered.mailedTo (env : Env Tok) (address : String) (a : Answered Tok) : List ℚ :=
  (a.mails.filter fun mail =>
    normalizeEmail env.lower mail.recipient = normalizeEmail env.lower address).map
      fun _ => a.request.ctx.clock

/-- When calls of a kind queued mail for an address, in any spelling. -/
def mailTimes (env : Env Tok) (kind : AuthCall Tok → Bool) (log : List (Answered Tok))
    (address : String) : List ℚ :=
  (log.filter fun a => kind a.request.call).flatMap (Answered.mailedTo env address)

def inWindow (t : ℚ) (times : List ℚ) : Nat := times.countP fun x => t < x ∧ x ≤ t + 3600

/-- What the accounts need of `str.lower`: it leaves what is lower case, and all whitespace. -/
structure Lowers (lower : String → String) : Prop where
  again : ∀ s, lower (lower s) = lower s
  strip : ∀ s, strip (lower s) = lower (strip s)

theorem strip_strip (s : String) : strip (strip s) = strip s := by
  have hleft : ((s.toList.dropWhile isSpace).rdropWhile isSpace).dropWhile isSpace =
      (s.toList.dropWhile isSpace).rdropWhile isSpace := by
    refine List.dropWhile_eq_self_iff.mpr fun hlength => ?_
    have hpre := List.rdropWhile_prefix isSpace (l := s.toList.dropWhile isSpace)
    rw [hpre.getElem hlength]
    exact List.dropWhile_get_zero_not isSpace s.toList (hlength.trans_le hpre.length_le)
  unfold strip
  rw [String.toList_ofList, hleft, List.rdropWhile_idempotent]

theorem Lowers.normalizeEmail {lower : String → String} (h : Lowers lower) (email : String) :
    normalizeEmail lower (normalizeEmail lower email) = normalizeEmail lower email := by
  unfold StockQuant.normalizeEmail
  rw [h.strip, h.again, strip_strip]

section Times

variable {env : Env Tok} {kind : AuthCall Tok → Bool} {log : List (Answered Tok)}
  {a : Answered Tok} {address : String} {t : ℚ}

theorem mailTimes_snoc :
    mailTimes env kind (log ++ [a]) address =
      mailTimes env kind log address ++
        if kind a.request.call then a.mailedTo env address else [] := by
  unfold mailTimes
  rw [List.filter_append, List.flatMap_append]
  by_cases hkind : kind a.request.call <;> simp [hkind]

theorem mailTimes_skip (h : kind a.request.call = false ∨ a.mailedTo env address = []) :
    mailTimes env kind (log ++ [a]) address = mailTimes env kind log address := by
  rw [mailTimes_snoc]
  rcases h with h | h <;> simp [h]

theorem mailedTo_singleton {mail : Mail} (h : a.mails = [mail]) :
    a.mailedTo env address =
      if normalizeEmail env.lower mail.recipient = normalizeEmail env.lower address then
        [a.request.ctx.clock] else [] := by
  unfold Answered.mailedTo
  rw [h]
  split_ifs with hto <;> simp [hto]

theorem inWindow_append (t : ℚ) (times times' : List ℚ) :
    inWindow t (times ++ times') = inWindow t times + inWindow t times' := List.countP_append

/-- A call that mails is of one of the three kinds. -/
theorem inWindow_all (h : ∀ a ∈ log, a.mails ≠ [] →
      a.request.call.resets ∨ a.request.call.resends ∨ a.request.call.registers) :
    inWindow t (mailTimes env (fun _ => true) log address) =
      inWindow t (mailTimes env AuthCall.resets log address) +
        inWindow t (mailTimes env AuthCall.resends log address) +
        inWindow t (mailTimes env AuthCall.registers log address) := by
  induction log using List.reverseRecOn with
  | nil => rfl
  | append_singleton log a ih =>
    have ih := ih fun b hb => h b (List.mem_append_left _ hb)
    by_cases hmails : a.mails = []
    · have hto : a.mailedTo env address = [] := by
        unfold Answered.mailedTo
        rw [hmails]
        rfl
      simpa only [mailTimes_skip (Or.inr hto)] using ih
    · have hkind := h a (List.mem_append_right _ List.mem_cons_self) hmails
      simp only [mailTimes_snoc, inWindow_append, ih, if_true]
      cases hcall : a.request.call <;>
        simp [hcall, AuthCall.resets, AuthCall.resends, AuthCall.registers, inWindow] at hkind ⊢ <;>
        omega

end Times

/-- The mail for one address after a run, with the calls that the counters have seen. -/
structure MailLedger (env : Env Tok) (address : String) (app : App) (answered : List (Answered Tok))
    (log : EnforceLog) (now : ℚ) : Prop where
  limited : Limited app.limiter log now
  stored : ∀ account ∈ accountsOf app.db, normalizeEmail env.lower account.2 = account.2
  resets : (mailTimes env AuthCall.resets answered address).Sublist
    (allowedTimes log "forgot_email" (normalizeEmail env.lower address))
  resends : ∀ id, (id, normalizeEmail env.lower address) ∈ accountsOf app.db →
    (mailTimes env AuthCall.resends answered address).Sublist
      (allowedTimes log "resend_user" (toString id))
  registers : (mailTimes env AuthCall.registers answered address).length ≤ 1
  absent : (∀ id, (id, normalizeEmail env.lower address) ∉ accountsOf app.db) →
    mailTimes env AuthCall.resends answered address = [] ∧
      mailTimes env AuthCall.registers answered address = []
  kinds : ∀ a ∈ answered, a.mails ≠ [] →
    a.request.call.resets ∨ a.request.call.resends ∨ a.request.call.registers

section Ledger

variable {env : Env Tok} {address : String} {app app' : App} {answered : List (Answered Tok)}
  {log log' : EnforceLog} {now : ℚ} {a : Answered Tok}

theorem MailLedger.mono {now' : ℚ} (h : MailLedger env address app answered log now)
    (hle : now ≤ now') : MailLedger env address app answered log now' :=
  { h with limited := h.limited.mono hle }

/-- The ledger once a request has been answered, but for the mail that it queued. -/
theorem MailLedger.metered (hlower : Lowers env.lower) {ctx : Context} {call : AuthCall Tok}
    {mails : List Mail} (h : MailLedger env address app answered log ctx.clock)
    (hmetered : Metered env ctx app app' log log' call mails) :
    MailLedger env address app' answered log' ctx.clock := by
  have hback {id : Uuid} (hid : (id, normalizeEmail env.lower address) ∈ accountsOf app'.db) :
      (id, normalizeEmail env.lower address) ∈ accountsOf app.db ∨
        ∀ id, (id, normalizeEmail env.lower address) ∉ accountsOf app.db :=
    (hmetered.accounts.added _ hid).imp_right And.left
  refine
    { limited := hmetered.limited
      stored := fun account haccount => ?_
      resets := h.resets.trans (hmetered.grows _ _)
      resends := fun id hid => ?_
      registers := h.registers
      absent := fun hnone => h.absent fun id hid => hnone id (hmetered.accounts.kept _ hid)
      kinds := h.kinds }
  · rcases hmetered.accounts.added account haccount with hold | ⟨-, email, hemail⟩
    · exact h.stored account hold
    · rw [hemail, hlower.normalizeEmail]
  · rcases hback hid with hold | hnone
    · exact (h.resends id hold).trans (hmetered.grows _ _)
    · rw [(h.absent hnone).1]
      exact List.nil_sublist _

theorem MailLedger.skip (h : MailLedger env address app answered log now)
    (hto : a.mailedTo env address = [])
    (hkind : a.mails ≠ [] →
      a.request.call.resets ∨ a.request.call.resends ∨ a.request.call.registers) :
    MailLedger env address app (answered ++ [a]) log now := by
  have hsame (kind : AuthCall Tok → Bool) : mailTimes env kind (answered ++ [a]) address =
      mailTimes env kind answered address := mailTimes_skip (Or.inr hto)
  refine ⟨h.limited, h.stored, ?_, ?_, ?_, ?_, List.forall_mem_append.mpr ⟨h.kinds, ?_⟩⟩
  · exact hsame _ ▸ h.resets
  · exact hsame _ ▸ h.resends
  · exact hsame _ ▸ h.registers
  · rw [hsame, hsame]
    exact h.absent
  · simpa using hkind

theorem mailTimes_sent (answered : List (Answered Tok)) {kind : AuthCall Tok → Bool} {mail : Mail}
    (hkind : kind a.request.call) (hmails : a.mails = [mail])
    (hto : normalizeEmail env.lower mail.recipient = normalizeEmail env.lower address) :
    mailTimes env kind (answered ++ [a]) address =
      mailTimes env kind answered address ++ [a.request.ctx.clock] := by
  rw [mailTimes_snoc, if_pos hkind, mailedTo_singleton hmails, if_pos hto]

/-- One request keeps the ledger. -/
theorem MailLedger.step (hlower : Lowers env.lower) {ctx : Context} {call : AuthCall Tok}
    (h : MailLedger env address app answered log ctx.clock)
    (hmetered : Metered env ctx app app' log log' call a.mails)
    (hrequest : a.request = { ctx, call }) :
    MailLedger env address app' (answered ++ [a]) log' ctx.clock := by
  have hnext := h.metered hlower hmetered
  have hskip {kind : AuthCall Tok → Bool} (hkind : kind call = false) :
      mailTimes env kind (answered ++ [a]) address = mailTimes env kind answered address :=
    mailTimes_skip (Or.inl (hrequest ▸ hkind))
  have hclock : a.request.ctx.clock = ctx.clock := by rw [hrequest]
  have hcall : a.request.call = call := by rw [hrequest]
  have hsent := hmetered.sent
  generalize hmails : a.mails = mails at hsent
  cases hsent with
  | none =>
    refine hnext.skip ?_ fun hne => absurd hmails hne
    unfold Answered.mailedTo
    rw [hmails]
    rfl
  | reset body mail hrecipient hcharged =>
    have hkind : a.mails ≠ [] → a.request.call.resets ∨ a.request.call.resends ∨
        a.request.call.registers := fun _ => Or.inl (hcall ▸ rfl)
    by_cases hto : normalizeEmail env.lower mail.recipient = normalizeEmail env.lower address
    · -- The counter's key is the mailbox.
      have hkey : normalizeEmail env.lower body.email = normalizeEmail env.lower address := by
        rw [← hto, hrecipient, hlower.normalizeEmail, hlower.normalizeEmail]
      have hresets := mailTimes_sent answered
        (show AuthCall.resets a.request.call by rw [hcall]; rfl) hmails hto
      refine { hnext with
        resets := ?_
        resends := by rw [hskip rfl]; exact hnext.resends
        registers := by rw [hskip rfl]; exact hnext.registers
        absent := by rw [hskip rfl, hskip rfl]; exact hnext.absent
        kinds := List.forall_mem_append.mpr ⟨hnext.kinds, by simpa using hkind⟩ }
      rw [hresets, hclock, ← hkey]
      exact ((hkey ▸ h.resets).append (List.Sublist.refl _)).trans hcharged
    · exact hnext.skip (by rw [mailedTo_singleton hmails, if_neg hto]) hkind
  | resent credentials mail id haccount hcharged =>
    have hkind : a.mails ≠ [] → a.request.call.resets ∨ a.request.call.resends ∨
        a.request.call.registers := fun _ => Or.inr (Or.inl (hcall ▸ rfl))
    by_cases hto : normalizeEmail env.lower mail.recipient = normalizeEmail env.lower address
    · have hresends := mailTimes_sent answered
        (show AuthCall.resends a.request.call by rw [hcall]; rfl) hmails hto
      have hmailbox : mail.recipient = normalizeEmail env.lower address :=
        (h.stored _ haccount).symm.trans hto
      rw [hmailbox] at haccount
      have hkept := hmetered.accounts.kept _ haccount
      refine { hnext with
        resets := by rw [hskip rfl]; exact hnext.resets
        resends := fun id' hid' => ?_
        registers := by rw [hskip rfl]; exact hnext.registers
        absent := fun hnone => absurd hkept (hnone id)
        kinds := List.forall_mem_append.mpr ⟨hnext.kinds, by simpa using hkind⟩ }
      obtain rfl := accountsOf_unique hkept hid'
      rw [hresends, hclock]
      exact ((h.resends id haccount).append (List.Sublist.refl _)).trans hcharged
    · exact hnext.skip (by rw [mailedTo_singleton hmails, if_neg hto]) hkind
  | registered body mail id hnew haccount =>
    have hkind : a.mails ≠ [] → a.request.call.resets ∨ a.request.call.resends ∨
        a.request.call.registers := fun _ => Or.inr (Or.inr (hcall ▸ rfl))
    by_cases hto : normalizeEmail env.lower mail.recipient = normalizeEmail env.lower address
    · have hregisters := mailTimes_sent answered
        (show AuthCall.registers a.request.call by rw [hcall]; rfl) hmails hto
      have hmailbox : mail.recipient = normalizeEmail env.lower address :=
        (hnext.stored _ haccount).symm.trans hto
      rw [hmailbox] at hnew haccount
      refine { hnext with
        resets := by rw [hskip rfl]; exact hnext.resets
        resends := by rw [hskip rfl]; exact hnext.resends
        registers := ?_
        absent := fun hnone => absurd haccount (hnone id)
        kinds := List.forall_mem_append.mpr ⟨hnext.kinds, by simpa using hkind⟩ }
      rw [hregisters, (h.absent hnew).2]
      exact le_rfl
    · exact hnext.skip (by rw [mailedTo_singleton hmails, if_neg hto]) hkind

end Ledger

section Runs

variable {env : Env Tok}

theorem answered_mails (s : AuthState Tok) (r : AuthRequest Tok) :
    (s.answered env r).mails = repliedMails (answer env r.ctx s.app r.call).2 := by
  unfold Answered.mails
  rcases answered_cases env s r with ⟨k, readAt, user, hcall, -, h⟩ | h
  · rw [h, hcall]
    rfl
  · rw [h]

theorem runAuth_ledger (henabled : env.rateLimitEnabled = true) (hlower : Lowers env.lower)
    {app : App} {lastSweep : ℚ} (hfresh : app.limiter = { lastSweep })
    (hstored : ∀ user ∈ app.db.users.rows, normalizeEmail env.lower user.email = user.email)
    {requests : List (AuthRequest Tok)}
    (hsorted : requests.Pairwise (fun a b => a.ctx.clock ≤ b.ctx.clock)) (address : String) {now : ℚ}
    (hnow : ∀ r ∈ requests, r.ctx.clock ≤ now) :
    ∃ log, MailLedger env address (runAuth env { app } requests).app
      (runAuth env { app } requests).log log now := by
  induction requests using List.reverseRecOn generalizing now with
  | nil =>
    refine ⟨[],
      { limited := ⟨fun bucket identifier rule _ => ?_, by simp, by simp, fun _ _ _ _ => atMost_nil⟩
        stored := ?_
        resets := List.nil_sublist _
        resends := fun _ _ => List.nil_sublist _
        registers := Nat.zero_le 1
        absent := fun _ => ⟨rfl, rfl⟩
        kinds := by simp [runAuth] }⟩
    · simpa [runAuth, hfresh, allowedTimes] using tracks_nil
    · rintro account haccount
      obtain ⟨user, huser, rfl⟩ := List.mem_map.mp haccount
      exact hstored user huser
  | append_singleton requests r ih =>
    obtain ⟨hpre, _, hlast⟩ := List.pairwise_append.mp hsorted
    obtain ⟨log, hlog⟩ := ih hpre fun b hb => hlast b hb r (by simp)
    obtain ⟨log', hmetered⟩ := answer_metered henabled hlog.limited r.call
    rw [runAuth_snoc]
    rw [← answered_mails] at hmetered
    exact ⟨log', (hlog.step hlower hmetered (answered_request env _ r)).mono (hnow r (by simp))⟩

end Runs

theorem inWindow_le {rule : Rule} (hwindow : rule.windowSeconds = 3600) {times events : List ℚ}
    (h : AtMost rule.limit (rule.windowSeconds : ℚ) events) (hsub : times.Sublist events) (t : ℚ) :
    inWindow t times ≤ rule.limit := by
  have hmost := (h.sublist hsub) t
  rw [hwindow] at hmost
  exact_mod_cast hmost

def resendRule : Rule := (rules.lookup "resend_user").get (by decide)

/-- With the counters on since the process started, no hour brings a mailbox more than three
links to reset, three to verify that were asked for, and the one of its registration. -/
theorem mails_limited {env : Env Tok} (henabled : env.rateLimitEnabled = true)
    (hlower : Lowers env.lower) {app : App} {lastSweep : ℚ} (hfresh : app.limiter = { lastSweep })
    (hstored : ∀ user ∈ app.db.users.rows, normalizeEmail env.lower user.email = user.email)
    {requests : List (AuthRequest Tok)}
    (hsorted : requests.Pairwise (fun a b => a.ctx.clock ≤ b.ctx.clock)) (address : String) (t : ℚ) :
    let log := (runAuth env { app } requests).log
    inWindow t (mailTimes env AuthCall.resets log address) ≤ 3 ∧
      inWindow t (mailTimes env AuthCall.resends log address) ≤ 3 ∧
      inWindow t (mailTimes env AuthCall.registers log address) ≤ 1 ∧
      inWindow t (mailTimes env (fun _ => true) log address) ≤ 7 := by
  obtain ⟨now, hnow⟩ : ∃ now : ℚ, ∀ r ∈ requests, r.ctx.clock ≤ now := by
    rcases List.eq_nil_or_concat requests with rfl | ⟨earlier, last, rfl⟩
    · exact ⟨0, by simp⟩
    · rw [List.concat_eq_append] at hsorted ⊢
      obtain ⟨-, -, hlast⟩ := List.pairwise_append.mp hsorted
      exact ⟨last.ctx.clock, List.forall_mem_append.mpr
        ⟨fun r hr => hlast r hr last List.mem_cons_self, by simp⟩⟩
  obtain ⟨log, h⟩ := runAuth_ledger henabled hlower hfresh hstored hsorted address hnow
  have hresets := inWindow_le (by decide)
    (h.limited.atMost "forgot_email" (normalizeEmail env.lower address) mailRule (by decide))
    h.resets t
  have hresends : inWindow t (mailTimes env AuthCall.resends (runAuth env { app } requests).log
      address) ≤ resendRule.limit := by
    by_cases hid : ∃ id, (id, normalizeEmail env.lower address) ∈
        accountsOf (runAuth env { app } requests).app.db
    · obtain ⟨id, hid⟩ := hid
      exact inWindow_le (by decide)
        (h.limited.atMost "resend_user" (toString id) resendRule (by decide)) (h.resends id hid) t
    · rw [(h.absent (not_exists.mp hid)).1]
      exact Nat.zero_le _
  have hregisters : inWindow t (mailTimes env AuthCall.registers
      (runAuth env { app } requests).log address) ≤ 1 :=
    List.countP_le_length.trans h.registers
  have hmail : mailRule.limit = 3 := by decide
  have hresend : resendRule.limit = 3 := by decide
  rw [hmail] at hresets
  rw [hresend] at hresends
  refine ⟨hresets, hresends, hregisters, ?_⟩
  rw [inWindow_all h.kinds]
  omega

theorem toNat_toLower (c : Char) :
    c.toLower.toNat = if 65 ≤ c.toNat ∧ c.toNat ≤ 90 then c.toNat + 32 else c.toNat := by
  unfold Char.toLower
  split_ifs with hupper hrange hrange
  · have hsum : (c.val + ('a'.val - 'A'.val)).toNat = c.toNat + 32 := by
      rw [UInt32.toNat_add]
      exact Nat.mod_eq_of_lt (by have : 'a'.val.toNat = 97 := rfl; simp at *; omega)
    exact hsum
  · exact absurd hupper hrange
  · exact absurd hrange hupper
  · rfl

theorem isSpace_toLower (c : Char) : isSpace c.toLower = isSpace c := by
  rw [Bool.eq_iff_iff]
  simp only [isSpace, toNat_toLower, List.mem_cons, List.not_mem_nil, Bool.or_eq_true,
    Bool.and_eq_true, decide_eq_true_eq, or_false]
  split_ifs <;> omega

theorem toLower_toLower (c : Char) : c.toLower.toLower = c.toLower := by
  refine Char.ext (UInt32.toNat_inj.mp (show c.toLower.toLower.toNat = c.toLower.toNat from ?_))
  rw [toNat_toLower c.toLower, toNat_toLower]
  split_ifs <;> omega

theorem lowers_plainEnv : Lowers plainEnv.lower where
  again s := by
    unfold plainEnv
    simp only [String.toList_ofList, List.map_map, Function.comp_def, toLower_toLower]
  strip s := by
    have hspace : isSpace ∘ Char.toLower = isSpace := funext isSpace_toLower
    unfold plainEnv strip List.rdropWhile
    simp only [String.toList_ofList, List.dropWhile_map, ← List.map_reverse, hspace]

def askReset (k : Nat) (email : String) : AuthRequest Payload where
  ctx := contextWith k (k + 2) ("reset" ++ toString k)
  call := .forgotPassword { email }

def askVerification (k : Nat) : AuthRequest Payload where
  ctx := contextWith k (k + 2) ("verify" ++ toString k)
  call := .resendVerification (some (accessPayload plainEnv 1 0 0 ""))

def mailRequests : List (AuthRequest Payload) :=
  { ctx := contextWith 0 1 "link", call := .register ownerRegistration } ::
    (["owner@example.com", " OWNER@example.com", "Owner@Example.com ", "owner@EXAMPLE.com"].mapIdx
        askReset ++ (List.range' 4 4).map askVerification)

theorem mails_limited_spellings :
    let log := (runAuth plainEnv { app := freshApp } mailRequests).log
    inWindow (-1) (mailTimes plainEnv AuthCall.resets log "OWNER@example.com") ≤ 3 ∧
      inWindow (-1) (mailTimes plainEnv AuthCall.resends log "OWNER@example.com") ≤ 3 ∧
      inWindow (-1) (mailTimes plainEnv AuthCall.registers log "OWNER@example.com") ≤ 1 ∧
      inWindow (-1) (mailTimes plainEnv (fun _ => true) log "OWNER@example.com") ≤ 7 :=
  mails_limited (show plainEnv.rateLimitEnabled = true from rfl) lowers_plainEnv
    (show freshApp.limiter = { lastSweep := 0 } from rfl)
    (show ∀ user ∈ freshApp.db.users.rows, normalizeEmail plainEnv.lower user.email = user.email by
      decide)
    (show mailRequests.Pairwise (fun a b => a.ctx.clock ≤ b.ctx.clock) by decide +kernel) _ _

example :
    let log := (runAuth plainEnv { app := freshApp } mailRequests).log
    inWindow (-1) (mailTimes plainEnv (fun _ => true) log "OWNER@example.com") = 7 := by
  decide +kernel

end StockQuant
