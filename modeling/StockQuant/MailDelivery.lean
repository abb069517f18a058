import StockQuant.Conversations
import StockQuant.MailLimits
import StockQuant.MailTemplates

/-! The mails that are queued, as they leave: what a mail server is told, in which order and over
which channel, and what remains in the log. -/

namespace StockQuant

open Conversations

structure EmailConfig where
  emailBackend : String := "console"
  emailFrom : String := "no-reply@localhost"
  emailFromName : String := "Stock Quant"
  smtpHost : String := ""
  smtpPort : Nat := 587
  smtpUser : String := ""
  smtpPassword : String := ""
  smtpStarttls : Bool := true
  smtpSsl : Bool := false

structure EmailMessage where
  subject : String
  sender : String
  recipient : String
  content : String
  alternative : Option String
  deriving DecidableEq

/-- The calls on a connection. Opening one is a call of its own. -/
inductive SmtpCall where
  | connect (ssl : Bool) (host : String) (port : Nat)
  | ehlo
  | starttls
  | login (user password : String)
  | sendMessage (message : EmailMessage)
  | quit
  deriving DecidableEq

structure Fault where
  kind : String
  text : String
  deriving DecidableEq

/-- What is left in the log of a mail. -/
inductive LogRecord where
  | notSent (recipient fromName fromAddress subject text : String)
  | failedToSend (subject recipient : String) (fault : Fault)
  deriving DecidableEq

inductive EmailSender where
  | console
  | smtp
  deriving DecidableEq

def getEmailSender (config : EmailConfig) : EmailSender :=
  if config.emailBackend = "smtp" then
    if config.smtpHost = "" then .console else .smtp
  else .console

section Send

-- `formataddr` writes a name and an address into one header, and `rejected` is what the message
-- object raises for values that no header can hold.
variable (formataddr : String → String → Except Fault String)
  (rejected : EmailMessage → Option Fault) (config : EmailConfig)
  (peer : Counterpart SmtpCall Fault)

def composeMessage (recipient : String) (message : Message) : Except Fault EmailMessage :=
  match formataddr config.emailFromName config.emailFrom with
  | .error fault => .error fault
  | .ok sender =>
    let composed : EmailMessage :=
      { subject := message.subject
        sender
        recipient
        content := message.text
        alternative := if message.html = "" then none else some message.html }
    match rejected composed with
    | some fault => .error fault
    | none => .ok composed

def smtpConnect : SmtpCall := .connect config.smtpSsl config.smtpHost config.smtpPort

def smtpScript (composed : EmailMessage) : List SmtpCall :=
  .ehlo ::
    (if config.smtpStarttls ∧ ¬ config.smtpSsl then [.starttls, .ehlo] else []) ++
    (if config.smtpUser ≠ "" then [.login config.smtpUser config.smtpPassword] else []) ++
    [.sendMessage composed]

/-- The last call comes whatever has failed, and its own failure is dropped. -/
def smtpSend (recipient : String) (message : Message) : List SmtpCall × Option Fault :=
  match composeMessage formataddr rejected config recipient message with
  | .error fault => ([], some fault)
  | .ok composed => bracket peer (smtpConnect config) (smtpScript config composed) .quit

structure Sending where
  calls : List SmtpCall := []
  log : List LogRecord := []
  returned : Bool := true
  deriving DecidableEq

/-- `send_email` with the sender that is configured. -/
def sendEmailOver (recipient : String) (message : Message) : Sending :=
  match getEmailSender config with
  | .console =>
    { log := [.notSent recipient config.emailFromName config.emailFrom message.subject
        message.text] }
  | .smtp =>
    match smtpSend formataddr rejected config peer recipient message with
    | (calls, none) => { calls }
    | (calls, some fault) =>
      { calls, log := [.failedToSend message.subject recipient fault], returned := false }

end Send

def SmtpCall.Secures : SmtpCall → Prop
  | .connect ssl _ _ => ssl = true
  | .starttls => True
  | _ => False

def SmtpCall.Confidential : SmtpCall → Prop
  | .login _ _ => True
  | .sendMessage _ => True
  | _ => False

/-- One of the calls has succeeded in making the channel secret. -/
def Secured (peer : Counterpart SmtpCall Fault) (before : List SmtpCall) : Prop :=
  ∃ earlier call, earlier ++ [call] <+: before ∧ call.Secures ∧ peer (earlier ++ [call]) = none

/-- The server has taken the message over. -/
def Submitted (peer : Counterpart SmtpCall Fault) (calls : List SmtpCall)
    (composed : EmailMessage) : Prop :=
  ∃ before, before ++ [.sendMessage composed] <+: calls ∧
    peer (before ++ [.sendMessage composed]) = none

structure SentSafely (formataddr : String → String → Except Fault String)
    (rejected : EmailMessage → Option Fault) (config : EmailConfig)
    (peer : Counterpart SmtpCall Fault) (recipient : String) (message : Message)
    (sending : Sending) : Prop where
  confidential : config.smtpSsl ∨ config.smtpStarttls →
    ∀ before call after, sending.calls = before ++ call :: after → call.Confidential →
      Secured peer before
  submission : ∀ before composed after,
    sending.calls = before ++ .sendMessage composed :: after →
      composed.recipient = recipient ∧ composed.content = message.text ∧
        (config.smtpUser ≠ "" → .login config.smtpUser config.smtpPassword ∈ before) ∧
        ∀ other, .sendMessage other ∉ before ++ after
  /-- A connection that was made is given up, at the end and once. -/
  closed : sending.calls = [] ∨
    (sending.calls = [smtpConnect config] ∧ peer [smtpConnect config] ≠ none) ∨
    peer [smtpConnect config] = none ∧
      ∃ said, .quit ∉ said ∧ sending.calls = smtpConnect config :: said ++ [.quit]
  returned : getEmailSender config = .smtp →
    (sending.returned ↔ ∃ composed, Submitted peer sending.calls composed)
  logged : getEmailSender config = .smtp →
    (sending.returned ∧ sending.log = []) ∨
      ¬ sending.returned ∧
        ∃ fault, sending.log = [.failedToSend message.subject recipient fault] ∧
          (composeMessage formataddr rejected config recipient message = .error fault ∨
            ∃ said, said <+: sending.calls ∧ peer said = some fault)

section Script

variable {config : EmailConfig} {composed : EmailMessage}

/-- The calls that set up the channel. -/
def smtpChannel (config : EmailConfig) : List SmtpCall :=
  smtpConnect config :: .ehlo ::
    (if config.smtpStarttls ∧ ¬ config.smtpSsl then [.starttls, .ehlo] else [])

def smtpCredentials (config : EmailConfig) : List SmtpCall :=
  if config.smtpUser ≠ "" then [.login config.smtpUser config.smtpPassword] else []

theorem smtpScript_eq : smtpConnect config :: smtpScript config composed =
    smtpChannel config ++ (smtpCredentials config ++ [.sendMessage composed]) := by
  simp [smtpScript, smtpChannel, smtpCredentials]

theorem mem_smtpChannel {call : SmtpCall} (h : call ∈ smtpChannel config) :
    call = smtpConnect config ∨ call = .ehlo ∨ call = .starttls := by
  unfold smtpChannel at h
  split_ifs at h <;> simp at h <;> tauto

theorem mem_smtpCredentials {call : SmtpCall} (h : call ∈ smtpCredentials config) :
    call = .login config.smtpUser config.smtpPassword := by
  unfold smtpCredentials at h
  split_ifs at h <;> simp at h
  exact h

theorem not_confidential_of_channel {call : SmtpCall} (h : call ∈ smtpChannel config) :
    ¬ call.Confidential := by
  rcases mem_smtpChannel h with rfl | rfl | rfl <;> exact not_false

theorem sendMessage_not_mem (other : EmailMessage) :
    .sendMessage other ∉ smtpChannel config ++ smtpCredentials config := by
  intro h
  rcases List.mem_append.mp h with h | h
  · exact not_confidential_of_channel h trivial
  · exact absurd (mem_smtpCredentials h) (by simp)

theorem quit_not_mem : .quit ∉ smtpScript config composed := by
  intro h
  have hmem : .quit ∈ smtpConnect config :: smtpScript config composed := List.mem_cons_of_mem _ h
  rw [smtpScript_eq] at hmem
  rcases List.mem_append.mp hmem with hmem | hmem
  · rcases mem_smtpChannel hmem with h | h | h <;> cases h
  · rcases List.mem_append.mp hmem with hmem | hmem
    · cases mem_smtpCredentials hmem
    · cases List.mem_singleton.mp hmem

/-- The channel is made secret while it is set up. -/
theorem exists_secures (h : config.smtpSsl ∨ config.smtpStarttls) :
    ∃ earlier call, earlier ++ [call] <+: smtpChannel config ∧ call.Secures := by
  by_cases hssl : config.smtpSsl = true
  · exact ⟨[], smtpConnect config, List.prefix_append [smtpConnect config] _, hssl⟩
  · refine ⟨[smtpConnect config, .ehlo], .starttls, ?_, trivial⟩
    have hstarttls : config.smtpStarttls ∧ ¬ config.smtpSsl = true := ⟨h.resolve_left hssl, hssl⟩
    unfold smtpChannel
    rw [if_pos hstarttls]
    exact List.prefix_append [smtpConnect config, .ehlo, .starttls] [.ehlo]

end Script

section Mail

variable {config : EmailConfig} {peer : Counterpart SmtpCall Fault} {composed : EmailMessage}
  {before after : List SmtpCall}

theorem secured_of_calls (h : config.smtpSsl ∨ config.smtpStarttls) {call : SmtpCall}
    (hcalls : (bracket peer (smtpConnect config) (smtpScript config composed) .quit).1 =
      before ++ call :: after) (hcall : call.Confidential) : Secured peer before := by
  have hquit : call ≠ .quit := by
    rintro rfl
    exact hcall
  obtain ⟨hplace, haccepted⟩ := bracket_split hcalls hquit
  rw [smtpScript_eq] at hplace
  have hchannel := prefix_of_not_mem hplace fun hmem => not_confidential_of_channel hmem hcall
  obtain ⟨earlier, secures, hpart, hsecures⟩ := exists_secures h
  exact ⟨earlier, secures, hpart.trans hchannel, hsecures,
    haccepted earlier secures (hpart.trans hchannel)⟩

/-- The message is submitted when all else has been called, and by that call alone. -/
theorem submission_of_calls {other : EmailMessage}
    (hcalls : (bracket peer (smtpConnect config) (smtpScript config composed) .quit).1 =
      before ++ .sendMessage other :: after) :
    other = composed ∧ before = smtpChannel config ++ smtpCredentials config := by
  obtain ⟨hplace, -⟩ := bracket_split hcalls (by simp)
  rw [smtpScript_eq, ← List.append_assoc] at hplace
  obtain ⟨hbefore, hcall⟩ := eq_of_prefix_concat hplace (sendMessage_not_mem other)
  exact ⟨SmtpCall.sendMessage.inj hcall, hbefore⟩

theorem submission_once {other another : EmailMessage}
    (hcalls : (bracket peer (smtpConnect config) (smtpScript config composed) .quit).1 =
      before ++ .sendMessage other :: after) : .sendMessage another ∉ before ++ after := by
  intro h
  rcases List.mem_append.mp h with hearlier | hlater
  · rw [(submission_of_calls hcalls).2] at hearlier
    exact sendMessage_not_mem another hearlier
  · obtain ⟨between, rest, rfl⟩ := List.append_of_mem hlater
    have hsplit : (bracket peer (smtpConnect config) (smtpScript config composed) .quit).1 =
        (before ++ .sendMessage other :: between) ++ .sendMessage another :: rest := by
      rw [hcalls, List.append_assoc, List.cons_append]
    have hsecond := (submission_of_calls hsplit).2
    exact sendMessage_not_mem other (hsecond ▸ List.mem_append_right before List.mem_cons_self)

theorem closed_of_ended {result : List SmtpCall × Option Fault}
    (h : Ended peer (smtpConnect config) (smtpScript config composed) .quit result) :
    (result.1 = [smtpConnect config] ∧ peer [smtpConnect config] ≠ none) ∨
      peer [smtpConnect config] = none ∧
        ∃ said, .quit ∉ said ∧ result.1 = smtpConnect config :: said ++ [.quit] := by
  have hopened {script : List SmtpCall} (haccepted : Accepted peer (smtpConnect config :: script)) :
      peer [smtpConnect config] = none :=
    haccepted [] (smtpConnect config) (List.prefix_append [smtpConnect config] script)
  cases h with
  | refused fault hfailed => exact Or.inl ⟨rfl, by simp [hfailed]⟩
  | carriedOut haccepted => exact Or.inr ⟨hopened haccepted, _, quit_not_mem, rfl⟩
  | brokenOff begun call rest fault hscript haccepted hfailed =>
    refine Or.inr ⟨hopened haccepted, begun ++ [call], fun hquit => ?_, by simp⟩
    have hnot : .quit ∉ smtpScript config composed := quit_not_mem
    rw [hscript] at hnot
    refine hnot ?_
    rcases List.mem_append.mp hquit with hquit | hquit
    · exact List.mem_append_left _ hquit
    · exact List.mem_append_right _ (List.mem_singleton.mp hquit ▸ List.mem_cons_self)

/-- Nothing fails exactly when the server has taken the message over. -/
theorem submitted_iff_of_ended {result : List SmtpCall × Option Fault}
    (h : Ended peer (smtpConnect config) (smtpScript config composed) .quit result) :
    result.2 = none ↔ ∃ other, Submitted peer result.1 other := by
  have hscript : smtpConnect config :: smtpScript config composed =
      (smtpChannel config ++ smtpCredentials config) ++ [.sendMessage composed] := by
    rw [smtpScript_eq, List.append_assoc]
  cases h with
  | refused fault hfailed =>
    refine iff_of_false (by simp) ?_
    rintro ⟨other, earlier, hpart, -⟩
    have hplace : earlier ++ [.sendMessage other] <+: [] ++ [smtpConnect config] := hpart
    cases (eq_of_prefix_concat hplace (by simp)).2
  | carriedOut haccepted =>
    refine iff_of_true rfl ⟨composed, smtpChannel config ++ smtpCredentials config, ?_, ?_⟩
    · rw [← hscript]
      exact List.prefix_append _ [SmtpCall.quit]
    · refine haccepted _ _ ?_
      rw [← hscript]
  | brokenOff begun call rest fault hrest haccepted hfailed =>
    refine iff_of_false (by simp) ?_
    rintro ⟨other, earlier, hpart, htaken⟩
    have hsaid : smtpConnect config :: begun ++ [call] <+:
        (smtpChannel config ++ smtpCredentials config) ++ [.sendMessage composed] := by
      rw [← hscript, hrest]
      exact ⟨rest, by simp⟩
    have hearlier : earlier ++ [.sendMessage other] <+: smtpConnect config :: begun ++ [call] := by
      have hwhole : earlier ++ [.sendMessage other] <+:
          (smtpConnect config :: begun ++ [call]) ++ [.quit] := by simpa using hpart
      rcases List.prefix_concat_iff.mp hwhole with heq | hearlier
      · cases List.singleton_inj.mp (List.append_inj' heq rfl).2
      · exact hearlier
    -- The submission ends the script, so the call that has failed is the submission.
    obtain ⟨rfl, hother⟩ := eq_of_prefix_concat (hearlier.trans hsaid) (sendMessage_not_mem other)
    rw [hother] at hearlier htaken
    have hsame := hearlier.eq_of_length (le_antisymm hearlier.length_le hsaid.length_le)
    rw [hsame, hfailed] at htaken
    cases htaken

end Mail

theorem composeMessage_ok {formataddr : String → String → Except Fault String}
    {rejected : EmailMessage → Option Fault} {config : EmailConfig} {recipient : String}
    {message : Message} {composed : EmailMessage}
    (h : composeMessage formataddr rejected config recipient message = .ok composed) :
    composed.recipient = recipient ∧ composed.content = message.text := by
  unfold composeMessage at h
  split at h
  · cases h
  · dsimp only at h
    split at h
    · cases h
    · cases h
      exact ⟨rfl, rfl⟩

/-- Where nothing is called, only the log can say anything. -/
theorem sentSafely_of_calls_nil {formataddr : String → String → Except Fault String}
    {rejected : EmailMessage → Option Fault} {config : EmailConfig}
    {peer : Counterpart SmtpCall Fault} {recipient : String} {message : Message}
    {sending : Sending} (hcalls : sending.calls = [])
    (hreturned : getEmailSender config = .smtp → sending.returned = false)
    (hlog : getEmailSender config = .smtp →
      ∃ fault, sending.log = [.failedToSend message.subject recipient fault] ∧
        composeMessage formataddr rejected config recipient message = .error fault) :
    SentSafely formataddr rejected config peer recipient message sending where
  confidential _ before call after h := by simp [hcalls] at h
  submission before composed after h := by simp [hcalls] at h
  closed := Or.inl hcalls
  returned hsmtp := by
    rw [hreturned hsmtp]
    refine iff_of_false (by simp) ?_
    rintro ⟨composed, before, hpart, -⟩
    rw [hcalls, List.prefix_nil] at hpart
    simp at hpart
  logged hsmtp := by
    obtain ⟨fault, hlog, hcomposing⟩ := hlog hsmtp
    exact Or.inr ⟨by simp [hreturned hsmtp], fault, hlog, Or.inl hcomposing⟩

theorem sentSafely_of_bracket {formataddr : String → String → Except Fault String}
    {rejected : EmailMessage → Option Fault} {config : EmailConfig}
    {peer : Counterpart SmtpCall Fault} {recipient : String} {message : Message}
    {composed : EmailMessage} {sending : Sending}
    (hcomposed : composed.recipient = recipient ∧ composed.content = message.text)
    (hcalls : sending.calls =
      (bracket peer (smtpConnect config) (smtpScript config composed) .quit).1)
    (hreturned : sending.returned ↔
      (bracket peer (smtpConnect config) (smtpScript config composed) .quit).2 = none)
    (hlog : ∀ fault, (bracket peer (smtpConnect config) (smtpScript config composed) .quit).2 =
      some fault → sending.log = [.failedToSend message.subject recipient fault])
    (hquiet : sending.returned → sending.log = []) :
    SentSafely formataddr rejected config peer recipient message sending where
  confidential htls before call after h hcall := secured_of_calls htls (hcalls.symm.trans h) hcall
  submission before other after h := by
    have h := hcalls.symm.trans h
    obtain ⟨rfl, hbefore⟩ := submission_of_calls h
    refine ⟨hcomposed.1, hcomposed.2, fun huser => ?_, fun another => submission_once h⟩
    rw [hbefore, smtpCredentials, if_pos huser]
    exact List.mem_append_right _ List.mem_cons_self
  closed := by
    rw [hcalls]
    exact Or.inr (closed_of_ended (bracket_ended _ _ _ _))
  returned _ := by
    rw [hreturned, hcalls]
    exact submitted_iff_of_ended (bracket_ended _ _ _ _)
  logged _ := by
    have hended := bracket_ended peer (smtpConnect config) (smtpScript config composed) .quit
    rcases hresult : bracket peer (smtpConnect config) (smtpScript config composed) .quit with
      ⟨calls, _ | fault⟩
    · have hsent := hreturned.mpr (congrArg Prod.snd hresult)
      exact Or.inl ⟨hsent, hquiet hsent⟩
    · have hunsent : ¬ sending.returned := by
        rw [hreturned, hresult]
        simp
      refine Or.inr ⟨hunsent, fault, hlog fault (congrArg Prod.snd hresult), Or.inr ?_⟩
      rw [hcalls, hresult]
      rw [hresult] at hended
      exact hended.failed

theorem sendEmailOver_safely (formataddr : String → String → Except Fault String)
    (rejected : EmailMessage → Option Fault) (config : EmailConfig)
    (peer : Counterpart SmtpCall Fault)
    (recipient : String) (message : Message) :
    SentSafely formataddr rejected config peer recipient message
      (sendEmailOver formataddr rejected config peer recipient message) := by
  unfold sendEmailOver
  cases hsender : getEmailSender config with
  | console =>
    exact sentSafely_of_calls_nil rfl (fun h => absurd (hsender.symm.trans h) (by simp))
      fun h => absurd (hsender.symm.trans h) (by simp)
  | smtp =>
    cases hcompose : composeMessage formataddr rejected config recipient message with
    | error fault =>
      have hsend : smtpSend formataddr rejected config peer recipient message =
          ([], some fault) := by
        simp [smtpSend, hcompose]
      rw [hsend]
      exact sentSafely_of_calls_nil rfl (fun _ => rfl) fun _ => ⟨fault, rfl, hcompose⟩
    | ok composed =>
      have hsend : smtpSend formataddr rejected config peer recipient message =
          bracket peer (smtpConnect config) (smtpScript config composed) .quit := by
        simp [smtpSend, hcompose]
      rw [hsend]
      rcases hresult : bracket peer (smtpConnect config) (smtpScript config composed) .quit with
        ⟨calls, _ | fault⟩
      · refine sentSafely_of_bracket (composeMessage_ok hcompose) ?_ ?_ ?_ fun _ => rfl
        · rw [hresult]
        · rw [hresult]
          simp
        · simp [hresult]
      · refine sentSafely_of_bracket (composeMessage_ok hcompose) ?_ ?_ ?_ (by simp)
        · rw [hresult]
        · rw [hresult]
          simp
        · simp [hresult]

def mailer : EmailConfig :=
  { emailBackend := "smtp", smtpHost := "smtp.example.com", smtpUser := "mailer" }

def nameAndAddress (name address : String) : Except Fault String :=
  .ok (name ++ " <" ++ address ++ ">")

/-- A server that offers no encryption hears no password and no message. -/
example : sendEmailOver nameAndAddress (fun _ => none) mailer
    (fun calls => if .starttls ∈ calls then some { kind := "SMTPNotSupportedError", text := "" }
      else none)
    "owner@example.com" { subject := "", text := "", html := "" } =
      { calls := [.connect false "smtp.example.com" 587, .ehlo, .starttls, .quit]
        log := [.failedToSend "" "owner@example.com"
          { kind := "SMTPNotSupportedError", text := "" }]
        returned := false } := by decide

section Runs

variable {Tok : Type} {env : Env Tok}

theorem mailed_recipient {ctx : Context} {db : Accounts} {user : User} {purpose : Purpose}
    {response : Option (AuthResponse Tok)} {mail : Mail}
    (h : mail ∈ repliedMails (mailed response
      (issueEmailToken env ctx db user purpose (ttlMinutes env purpose)).2)) :
    mail.recipient = user.email := by
  rcases hissue : issueEmailToken env ctx db user purpose (ttlMinutes env purpose) with
    ⟨db', _ | issued⟩
  · rw [hissue] at h
    cases h
  · rw [hissue] at h
    rw [List.mem_singleton.mp h, issueEmailToken_mail hissue]

/-- A request keeps the accounts, and mails to one of them at most. -/
theorem accounts_of_effect {ctx : Context} {db db' : Accounts} {call : AuthCall Tok}
    {result : Except Failure (Reply Tok)} (h : Effect env ctx db call db' result) :
    accountsOf db ⊆ accountsOf db' ∧
      ∀ mail ∈ repliedMails result, ∃ id, (id, mail.recipient) ∈ accountsOf db' := by
  cases h with
  | failed call failure hunusable => exact ⟨List.Subset.refl _, by simp [repliedMails]⟩
  | nothing call hcall => exact ⟨List.Subset.refl _, by simp [repliedMails]⟩
  | issued call hcall user huser purpose =>
    rw [accountsOf_issueEmailToken]
    refine ⟨List.Subset.refl _, fun mail hmail => ⟨user.id, ?_⟩⟩
    rw [mailed_recipient hmail]
    exact mem_accountsOf huser
  | registered body user db₁ hinsert hversion =>
    rw [accountsOf_issueEmailToken, (accountsOf_insertUser hinsert).1]
    refine ⟨List.subset_cons_self _ _, fun mail hmail => ⟨user.id, ?_⟩⟩
    rw [mailed_recipient hmail]
    exact List.mem_cons_self
  | verified body token user husable huser =>
    rw [accountsOf_markEmailVerified]
    exact ⟨List.Subset.refl _, by simp [repliedMails]⟩
  | burned body token user husable huser hhash =>
    exact ⟨List.Subset.refl _, by simp [repliedMails]⟩
  | reset body token user row passwordHash husable huser hrow =>
    rw [accountsOf_markEmailVerified, accountsOf_setPassword]
    exact ⟨List.Subset.refl _, by simp [repliedMails]⟩

/-- Every mail of a run is for the address of an account, whatever address the requests name. -/
theorem runAuth_recipients (app : App) (requests : List (AuthRequest Tok)) :
    ∀ a ∈ (runAuth env { app } requests).log, ∀ mail ∈ a.mails,
      ∃ id, (id, mail.recipient) ∈ accountsOf (runAuth env { app } requests).app.db := by
  induction requests using List.reverseRecOn with
  | nil => simp [runAuth]
  | append_singleton requests r ih =>
    rw [runAuth_snoc]
    obtain ⟨hkept, hmailed⟩ :=
      accounts_of_effect (answer_effect env r.ctx (runAuth env { app } requests).app r.call)
    intro a ha mail hmail
    rcases List.mem_append.mp ha with ha | ha
    · exact (ih a ha mail hmail).imp fun id hid => hkept hid
    · obtain rfl := List.mem_singleton.mp ha
      rw [answered_mails] at hmail
      exact hmailed mail hmail

/-- However a mail server treats them, the mails of a run leave over a secret channel, each at
most once and to the address of an account. -/
theorem runAuth_delivered (formataddr : String → String → Except Fault String)
    (rejected : EmailMessage → Option Fault) (config : EmailConfig) (settings : MailSettings)
    (app : App) (requests : List (AuthRequest Tok)) :
    ∀ a ∈ (runAuth env { app } requests).log, ∀ mail ∈ a.mails,
      (∃ id, (id, mail.recipient) ∈ accountsOf (runAuth env { app } requests).app.db) ∧
        ∀ peer, SentSafely formataddr rejected config peer mail.recipient (mail.message settings)
          (sendEmailOver formataddr rejected config peer mail.recipient (mail.message settings)) :=
  fun a ha mail hmail => ⟨runAuth_recipients app requests a ha mail hmail, fun _ =>
    sendEmailOver_safely formataddr rejected config _ _ _⟩

end Runs

def welcomed : List (AuthRequest Payload) :=
  [{ ctx := contextWith 0 1 "welcome", call := .register ownerRegistration }]

def welcome : Mail where
  recipient := "owner@example.com"
  purpose := .verifyEmail
  raw := "welcome"
  displayName := none

theorem runAuth_delivered_welcome :
    SentSafely nameAndAddress (fun _ => none) mailer (fun _ => none) "owner@example.com"
      (welcome.message {})
      (sendEmailOver nameAndAddress (fun _ => none) mailer (fun _ => none) "owner@example.com"
        (welcome.message {})) := by
  have hmailed : ∃ a ∈ (runAuth plainEnv { app := freshApp } welcomed).log, welcome ∈ a.mails := by
    decide +kernel
  obtain ⟨a, ha, hmail⟩ := hmailed
  exact (runAuth_delivered nameAndAddress (fun _ => none) mailer {} freshApp welcomed a ha
    welcome hmail).2 _

end StockQuant
