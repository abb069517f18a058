import StockQuant.AddressBook
import StockQuant.MailLimits

/-! Who can change an account: no one but the reader of a mail that was sent to its address. -/

namespace StockQuant

open KeyedTable

variable {Tok : Type} {env : Env Tok}

/-- One of the answers mailed the link to the address. -/
def MailedTo (log : List (Answered Tok)) (email : String) (purpose : Purpose) (raw : String) : Prop :=
  ∃ a ∈ log, ∃ mail ∈ a.mails, mail.recipient = email ∧ mail.purpose = purpose ∧ mail.raw = raw

theorem MailedTo.later {log : List (Answered Tok)} {email : String} {purpose : Purpose} {raw : String}
    (h : MailedTo log email purpose raw) (a : Answered Tok) : MailedTo (log ++ [a]) email purpose raw :=
  h.imp fun _ hb => ⟨List.mem_append_left _ hb.1, hb.2⟩

theorem links_act (ctx : Context) (book : AddressBook) (call : AuthCall Tok) :
    (book.act env ctx call).links = book.links := by
  unfold AddressBook.act AddressBook.follow
  cases call with
  | verifyEmail body => dsimp only; split <;> rfl
  | resetPassword body => dsimp only; split <;> rfl
  | _ => rfl

theorem links_mails {mails : List Mail} {book : AddressBook} {purpose : Purpose} {raw email : String}
    (h : (mails.foldl AddressBook.mail book).links purpose raw = some email) :
    book.links purpose raw = some email ∨
      ∃ mail ∈ mails, mail.recipient = email ∧ mail.purpose = purpose ∧ mail.raw = raw := by
  induction mails generalizing book with
  | nil => exact Or.inl h
  | cons mail mails ih =>
    rcases ih h with hbefore | ⟨later, hlater, hmail⟩
    · by_cases hthis : purpose = mail.purpose ∧ raw = mail.raw
      · obtain ⟨rfl, rfl⟩ := hthis
        have hrecipient : mail.recipient = email := by simpa [AddressBook.mail] using hbefore
        exact Or.inr ⟨mail, List.mem_cons_self, hrecipient, rfl, rfl⟩
      · refine Or.inl (Eq.trans ?_ hbefore)
        unfold AddressBook.mail
        dsimp only
        by_cases hpurpose : purpose = mail.purpose
        · have hraw : raw ≠ mail.raw := fun hraw => hthis ⟨hpurpose, hraw⟩
          rw [hpurpose, Function.update_self, Function.update_of_ne hraw]
        · rw [Function.update_of_ne hpurpose]
    · exact Or.inr ⟨later, List.mem_cons_of_mem _ hlater, hmail⟩

theorem mailedTo_of_links {log : List (Answered Tok)} {purpose : Purpose} {raw email : String}
    (h : (bookOf env log).links purpose raw = some email) : MailedTo log email purpose raw := by
  induction log using List.reverseRecOn with
  | nil => cases h
  | append_singleton log a ih =>
    rw [bookOf_snoc] at h
    unfold AddressBook.record at h
    cases hresult : a.result with
    | error failure =>
      rw [hresult] at h
      exact (ih h).later a
    | ok reply =>
      rw [hresult] at h
      rcases links_mails h with hbefore | ⟨mail, hmail, hlink⟩
      · rw [links_act] at hbefore
        exact (ih hbefore).later a
      · exact ⟨a, by simp, mail, by rwa [Answered.mails, hresult], hlink⟩

/-- The account of the same user: its address stays verified, and its password changes only with
the version of its sessions. -/
structure SameAccount (user user' : User) : Prop where
  id : user'.id = user.id
  email : user'.email = user.email
  displayName : user'.displayName = user.displayName
  verified : ∀ time, user.emailVerifiedAt = some time → user'.emailVerifiedAt = some time
  version : user.tokenVersion ≤ user'.tokenVersion
  password : user'.tokenVersion = user.tokenVersion →
    user'.passwordHash = user.passwordHash ∧ user'.passwordChangedAt = user.passwordChangedAt

theorem SameAccount.refl (user : User) : SameAccount user user :=
  ⟨rfl, rfl, rfl, fun _ h => h, le_rfl, fun _ => ⟨rfl, rfl⟩⟩

theorem SameAccount.trans {user user' user'' : User} (h : SameAccount user user')
    (h' : SameAccount user' user'') : SameAccount user user'' where
  id := h'.id.trans h.id
  email := h'.email.trans h.email
  displayName := h'.displayName.trans h.displayName
  verified time htime := h'.verified time (h.verified time htime)
  version := h.version.trans h'.version
  password hsame := by
    have hle := h.version
    have hle' := h'.version
    obtain ⟨hhash, htime⟩ := h.password (by omega)
    obtain ⟨hhash', htime'⟩ := h'.password (by omega)
    exact ⟨hhash'.trans hhash, htime'.trans htime⟩

theorem sameAccount_verifiedAt (now : ℚ) (user : User) : SameAccount user (user.verifiedAt now) := by
  refine ⟨rfl, rfl, rfl, fun time htime => ?_, le_rfl, fun _ => ⟨rfl, rfl⟩⟩
  simp [User.verifiedAt, htime]

theorem sameAccount_withPassword (passwordHash : String) (now : ℚ) (user : User) :
    SameAccount user (user.withPassword passwordHash now) := by
  refine ⟨rfl, rfl, rfl, fun _ h => h, Nat.le_succ _, fun hsame => ?_⟩
  exact absurd hsame (Nat.succ_ne_self _)

theorem accounts_mails (mails : List Mail) (book : AddressBook) :
    (mails.foldl AddressBook.mail book).accounts = book.accounts := by
  induction mails generalizing book with
  | nil => rfl
  | cons mail mails ih => exact ih (book.mail mail)

theorem accounts_follow {book : AddressBook} {email : String} {user : User}
    (h : book.accounts email = some user) (purpose : Purpose) (raw : String) (f : User → User) :
    (book.follow purpose raw f).accounts email = some user ∨
      book.links purpose raw = some email ∧
        (book.follow purpose raw f).accounts email = some (f user) := by
  unfold AddressBook.follow
  cases hlink : book.links purpose raw with
  | none => exact Or.inl h
  | some owner =>
    dsimp only
    by_cases howner : email = owner
    · subst howner
      exact Or.inr ⟨rfl, by rw [Function.update_self, h, Option.map_some]⟩
    · rw [Function.update_of_ne howner]
      exact Or.inl h

/-- The request has left the account, or has presented a link that was mailed to its address. -/
def LeftOrLinked (log : List (Answered Tok)) (call : AuthCall Tok) (user user' : User) : Prop :=
  user' = user ∨ ∃ purpose raw, call.presents = some (purpose, raw) ∧
    MailedTo log user.email purpose raw ∧
    (purpose = .verifyEmail → user'.tokenVersion = user.tokenVersion)

theorem record_account {log : List (Answered Tok)} {a : Answered Tok} {user : User}
    (h : (bookOf env log).accounts user.email = some user)
    (hnew : ∀ body reply, a.request.call = .register body → a.result = .ok reply →
      user.email ≠ (newUser env a.request.ctx body).email) :
    ∃ user', ((bookOf env log).record env a).accounts user.email = some user' ∧
      SameAccount user user' ∧ LeftOrLinked log a.request.call user user' := by
  have hleft {accounts : String → Option User} (hsame : accounts user.email = some user) :
      ∃ user', accounts user.email = some user' ∧ SameAccount user user' ∧
        LeftOrLinked log a.request.call user user' := ⟨user, hsame, SameAccount.refl user, Or.inl rfl⟩
  unfold AddressBook.record
  cases hresult : a.result with
  | error failure => exact hleft h
  | ok reply =>
    dsimp only
    rw [accounts_mails]
    unfold AddressBook.act
    cases hcall : a.request.call with
    | register body =>
      rw [hcall] at hleft
      exact hleft ((Function.update_of_ne (hnew body reply hcall hresult) _ _).trans h)
    | verifyEmail body =>
      rcases accounts_follow h .verifyEmail body.token (User.verifiedAt a.request.ctx.now) with
        hsame | ⟨hlink, hchanged⟩
      · rw [hcall] at hleft
        exact hleft hsame
      · exact ⟨_, hchanged, sameAccount_verifiedAt _ _,
          Or.inr ⟨_, _, rfl, mailedTo_of_links hlink, fun _ => rfl⟩⟩
    | resetPassword body =>
      rcases accounts_follow h .passwordReset body.token (User.verifiedAt a.request.ctx.now ∘
        User.withPassword ((env.hashPassword body.password a.request.ctx.salt).getD "")
          a.request.ctx.now) with hsame | ⟨hlink, hchanged⟩
      · rw [hcall] at hleft
        exact hleft hsame
      · exact ⟨_, hchanged, (sameAccount_withPassword _ _ _).trans (sameAccount_verifiedAt _ _),
          Or.inr ⟨_, _, rfl, mailedTo_of_links hlink, fun hpurpose => by cases hpurpose⟩⟩
    | _ =>
      rw [hcall] at hleft
      exact hleft h

theorem register_email_new {s : AuthState Tok} {r : AuthRequest Tok} {body : RegisterRequest}
    {reply : Reply Tok} (hcall : r.call = .register body)
    (hresult : (s.answered env r).result = .ok reply) {user : User}
    (huser : user ∈ s.app.db.users.rows) : user.email ≠ (newUser env r.ctx body).email := by
  obtain ⟨ctx, call⟩ := r
  obtain rfl : call = .register body := hcall
  have hanswer : (answer env ctx s.app (.register body)).2 = .ok reply := hresult
  rcases hregister : register env ctx body s.app with ⟨app', failure | ⟨response, mails⟩⟩
  · simp [answer, hregister, Except.map] at hanswer
  · obtain ⟨-, db₁, mail, hinsert, -, -⟩ := register_user hregister
    have hnodup := db₁.emails_nodup
    rw [(insertUser_eq_some hinsert).2.1, List.map_cons] at hnodup
    exact fun hemail =>
      (List.nodup_cons.mp hnodup).1 (List.mem_map.mpr ⟨user, huser, hemail⟩)

theorem account_step (hinj : Function.Injective env.hashEmailToken) {s : AuthState Tok}
    (h : InBook env s.app.db s.log (bookOf env s.log)) {r : AuthRequest Tok}
    (hfresh : FreshDraws env s.app.db r.ctx) {user : User} (huser : user ∈ s.app.db.users.rows) :
    ∃ user' ∈ (s.handle env r).app.db.users.rows, SameAccount user user' ∧
      LeftOrLinked s.log r.call user user' := by
  have hrequest := answered_request env s r
  obtain ⟨user', hafter, hsame, htouched⟩ := record_account (a := s.answered env r) (h.account huser)
    fun body reply hcall hresult => by
      rw [hrequest] at hcall ⊢
      exact register_email_new hcall hresult huser
  rw [hrequest] at htouched
  rw [← (inBook_handle hinj h hfresh).accounts] at hafter
  exact ⟨user', (byEmail_eq_some_iff.mp hafter).1, hsame, htouched⟩

/-- Whatever requests follow, an account stays with its user: its address does not become
unverified, and its password does not change without an end to its sessions. It changes only
through a request that presents a link which was mailed to its address before, and its password
only through a reset link. -/
theorem runAuth_sameAccount (hinj : Function.Injective env.hashEmailToken) {app : App}
    (husers : app.db.users.rows = []) (htokens : app.db.tokens.rows = [])
    {requests more : List (AuthRequest Tok)}
    (hraw : ((requests ++ more).map (·.ctx.rawToken)).Nodup)
    (hid : ((requests ++ more).map (·.ctx.tokenId)).Nodup) {user : User}
    (huser : user ∈ (runAuth env { app } requests).app.db.users.rows) :
    ∃ user' ∈ (runAuth env { app } (requests ++ more)).app.db.users.rows, SameAccount user user' ∧
      ((∀ earlier r, earlier ++ [r] <+: more → ∀ raw, r.call.presents = some (.passwordReset, raw) →
        ¬ MailedTo (runAuth env { app } (requests ++ earlier)).log user.email .passwordReset raw) →
          user'.tokenVersion = user.tokenVersion) ∧
      ((∀ earlier r, earlier ++ [r] <+: more → ∀ purpose raw, r.call.presents = some (purpose, raw) →
        ¬ MailedTo (runAuth env { app } (requests ++ earlier)).log user.email purpose raw) →
          user' = user) := by
  induction more using List.reverseRecOn with
  | nil =>
    rw [List.append_nil]
    exact ⟨user, huser, SameAccount.refl user, fun _ => rfl, fun _ => rfl⟩
  | append_singleton more r ih =>
    rw [← List.append_assoc] at hraw hid ⊢
    have hraw' := List.Nodup.sublist (List.sublist_append_left _ _) (List.map_append ▸ hraw)
    have hid' := List.Nodup.sublist (List.sublist_append_left _ _) (List.map_append ▸ hid)
    obtain ⟨user', huser', hsame, hversion, hleft⟩ := ih hraw' hid'
    have hbook := inBook_run hinj husers htokens hraw' hid'
    obtain ⟨user'', huser'', hsame', htouched⟩ := account_step hinj hbook
      (hbook.fresh_next hinj (runAuth_requests env _ _) hraw hid) huser'
    have hnext {earlier : List (AuthRequest Tok)} {r' : AuthRequest Tok}
        (h : earlier ++ [r'] <+: more) : earlier ++ [r'] <+: more ++ [r] :=
      h.trans (List.prefix_append more [r])
    rw [runAuth_snoc]
    refine ⟨user'', huser'', hsame.trans hsame', fun hreset => ?_, fun hlink => ?_⟩
    · have hbefore := hversion fun earlier r' hr' => hreset earlier r' (hnext hr')
      rcases htouched with rfl | ⟨purpose, raw, hpresents, hmailed, hkept⟩
      · exact hbefore
      · cases purpose with
        | verifyEmail => exact (hkept rfl).trans hbefore
        | passwordReset =>
          rw [hsame.email] at hmailed
          exact absurd hmailed (hreset more r List.prefix_rfl raw hpresents)
    · obtain rfl := hleft fun earlier r' hr' => hlink earlier r' (hnext hr')
      rcases htouched with rfl | ⟨purpose, raw, hpresents, hmailed, -⟩
      · rfl
      · exact absurd hmailed (hlink more r List.prefix_rfl purpose raw hpresents)

/-- After a registration someone asks for a link to the address, and presents a guessed one. -/
def guessedLink : List (AuthRequest Payload) :=
  [{ ctx := contextWith 60 2 "link", call := .forgotPassword { email := "owner@example.com" } },
    { ctx := contextWith 120 3 "unused",
      call := .resetPassword { newPassword with token := "guess", token_length := by decide } }]

def ownerRegistered : User where
  id := 1
  email := "owner@example.com"
  passwordHash := "bcrypt:old password"
  passwordChangedAt := 0

theorem runAuth_sameAccount_guessed :
    ownerRegistered ∈ (runAuth plainEnv { app := freshApp }
      (registerAndReset.take 1 ++ guessedLink)).app.db.users.rows := by
  have huser : ownerRegistered ∈
      (runAuth plainEnv { app := freshApp } (registerAndReset.take 1)).app.db.users.rows := by
    decide +kernel
  have hdrawn : ((registerAndReset.take 1 ++ guessedLink).map (·.ctx.rawToken)).Nodup := by decide
  obtain ⟨user', huser', -, -, hleft⟩ := runAuth_sameAccount
    (fun raw raw' h => by simpa [plainEnv] using h) rfl rfl hdrawn (by decide) huser
  refine hleft (fun earlier r hr purpose raw hpresents => ?_) ▸ huser'
  rcases earlier with _ | ⟨asked, _ | ⟨presented, earlier⟩⟩
  · obtain rfl := (List.cons_prefix_cons.mp hr).1
    cases hpresents
  · obtain ⟨rfl, hnext⟩ := List.cons_prefix_cons.mp hr
    obtain rfl := (List.cons_prefix_cons.mp hnext).1
    cases hpresents
    unfold MailedTo
    decide +kernel
  · simpa [guessedLink] using hr.length_le

end StockQuant
