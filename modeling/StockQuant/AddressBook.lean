import StockQuant.MailedTokens
import StockQuant.PasswordRuns

/-! The user table against an address book that is kept from outside: what was answered to whom,
and to which address each link was mailed. -/

namespace StockQuant

open KeyedTable

variable {Tok : Type}

/-- The account of each address, and the address that each link was mailed to. -/
structure AddressBook where
  accounts : String → Option User := fun _ => none
  links : Purpose → String → Option String := fun _ _ => none

def newUser (env : Env Tok) (ctx : Context) (body : RegisterRequest) : User where
  id := ctx.userId
  email := normalizeEmail env.lower (normalizeEmail env.lower body.email)
  passwordHash := (env.hashPassword body.password ctx.salt).getD ""
  displayName := body.displayName
  passwordChangedAt := ctx.now

/-- The first time that an address is verified is the one that is kept. -/
def User.verifiedAt (now : ℚ) (user : User) : User :=
  { user with emailVerifiedAt := user.emailVerifiedAt.or (some now) }

def User.withPassword (passwordHash : String) (now : ℚ) (user : User) : User :=
  { user with passwordHash, passwordChangedAt := now, tokenVersion := user.tokenVersion + 1 }

namespace AddressBook

def mail (book : AddressBook) (mail : Mail) : AddressBook :=
  { book with
    links := Function.update book.links mail.purpose
      (Function.update (book.links mail.purpose) mail.raw (some mail.recipient)) }

/-- A link acts on the account of the address that it was mailed to. -/
def follow (book : AddressBook) (purpose : Purpose) (raw : String) (f : User → User) : AddressBook :=
  match book.links purpose raw with
  | none => book
  | some email =>
    { book with
      accounts := Function.update book.accounts email ((book.accounts email).map f) }

def act (env : Env Tok) (ctx : Context) (book : AddressBook) : AuthCall Tok → AddressBook
  | .register body =>
    { book with
      accounts := Function.update book.accounts (newUser env ctx body).email
        (some (newUser env ctx body)) }
  | .verifyEmail body => book.follow .verifyEmail body.token (User.verifiedAt ctx.now)
  | .resetPassword body =>
    book.follow .passwordReset body.token
      (User.verifiedAt ctx.now ∘
        User.withPassword ((env.hashPassword body.password ctx.salt).getD "") ctx.now)
  | _ => book

/-- A request that fails leaves no trace. -/
def record (env : Env Tok) (book : AddressBook) (a : Answered Tok) : AddressBook :=
  match a.result with
  | .error _ => book
  | .ok reply => reply.mails.foldl AddressBook.mail (book.act env a.request.ctx a.request.call)

end AddressBook

def bookOf (env : Env Tok) (log : List (Answered Tok)) : AddressBook :=
  log.foldl (AddressBook.record env) {}

theorem bookOf_snoc (env : Env Tok) (log : List (Answered Tok)) (a : Answered Tok) :
    bookOf env (log ++ [a]) = (bookOf env log).record env a := by
  simp [bookOf]

theorem AddressBook.links_mail_of_ne (book : AddressBook) {mail : Mail} {raw : String}
    (h : raw ≠ mail.raw) {purpose : Purpose} :
    (book.mail mail).links purpose raw = book.links purpose raw := by
  unfold AddressBook.mail
  dsimp only
  by_cases hpurpose : purpose = mail.purpose
  · rw [hpurpose, Function.update_self, Function.update_of_ne h]
  · rw [Function.update_of_ne hpurpose]

def Accounts.byEmail (db : Accounts) (email : String) : Option User :=
  db.users.rows.find? (·.email = email)

section Tables

variable {db db' : Accounts} {user : User} {email : String}

theorem byEmail_eq_some_iff :
    db.byEmail email = some user ↔ user ∈ db.users.rows ∧ user.email = email := by
  unfold Accounts.byEmail
  constructor
  · intro h
    exact ⟨List.mem_of_find?_eq_some h, by simpa using List.find?_some h⟩
  · rintro ⟨hmem, rfl⟩
    cases hfind : db.users.rows.find? (·.email = user.email) with
    | none => simpa using List.find?_eq_none.mp hfind user hmem
    | some other =>
      have hemail : other.email = user.email := by simpa using List.find?_some hfind
      rw [Accounts.eq_of_email (List.mem_of_find?_eq_some hfind) hmem hemail]

theorem byEmail_mapUsers {f : User → User} (huser : user ∈ db.users.rows)
    (hid : ∀ u, (f u).id = u.id) (hemail : ∀ u, (f u).email = u.email)
    (hother : ∀ u, u.id ≠ user.id → f u = u) :
    (db.mapUsers f hid hemail).byEmail email =
      if email = user.email then some (f user) else db.byEmail email := by
  have hmap : (db.mapUsers f hid hemail).byEmail email = (db.byEmail email).map f := by
    unfold Accounts.byEmail Accounts.mapUsers
    rw [Table.rows_map, List.find?_map]
    simp only [Function.comp_def, hemail]
  rw [hmap]
  split_ifs with h
  · rw [h, byEmail_eq_some_iff.mpr ⟨huser, rfl⟩, Option.map_some]
  · cases hfound : db.byEmail email with
    | none => rfl
    | some other =>
      obtain ⟨hmem, rfl⟩ := byEmail_eq_some_iff.mp hfound
      rw [Option.map_some, hother other fun hsame => h (by rw [Table.eq_of_key hmem huser hsame])]

theorem byEmail_setPassword (huser : user ∈ db.users.rows) (passwordHash : String) (now : ℚ) :
    (setPassword db user passwordHash now).byEmail email =
      if email = user.email then some (user.withPassword passwordHash now)
      else db.byEmail email := by
  unfold setPassword Accounts.writePassword
  rw [byEmail_mapUsers huser _ _ fun u hu => if_neg hu, if_pos rfl]
  rfl

/-- `user` is the row as the handler has loaded it, and `row` as it is now. -/
theorem byEmail_markEmailVerified {row : User} (hrow : row ∈ db.users.rows) (hid : row.id = user.id)
    (hverified : row.emailVerifiedAt = user.emailVerifiedAt) (now : ℚ) :
    (markEmailVerified db user now).byEmail email =
      if email = row.email then some (row.verifiedAt now) else db.byEmail email := by
  unfold markEmailVerified Accounts.writeVerified User.verifiedAt
  rw [hverified, ← hid]
  cases hstored : user.emailVerifiedAt with
  | none =>
    rw [if_pos rfl, byEmail_mapUsers hrow _ _ fun u hu => if_neg hu, if_pos rfl]
    rfl
  | some time =>
    rw [if_neg (by simp)]
    split_ifs with h
    · rw [h, byEmail_eq_some_iff.mpr ⟨hrow, rfl⟩, Option.some_or, ← hstored, ← hverified]
    · rfl

/-- Who has which address. -/
def Accounts.names (db : Accounts) : List (Uuid × String) :=
  db.users.rows.map fun user => (user.id, user.email)

theorem names_mapUsers {f : User → User} (hid : ∀ u, (f u).id = u.id)
    (hemail : ∀ u, (f u).email = u.email) : (db.mapUsers f hid hemail).names = db.names := by
  unfold Accounts.names Accounts.mapUsers
  rw [Table.rows_map, List.map_map]
  exact List.map_congr_left fun u _ => Prod.ext (hid u) (hemail u)

theorem names_setPassword (user : User) (passwordHash : String) (now : ℚ) :
    (setPassword db user passwordHash now).names = db.names := by
  unfold setPassword Accounts.writePassword
  exact names_mapUsers _ _

theorem names_markEmailVerified (user : User) (now : ℚ) :
    (markEmailVerified db user now).names = db.names := by
  unfold markEmailVerified
  split_ifs
  · exact names_mapUsers _ _
  · rfl

theorem markEmailVerified_tokens (user : User) (now : ℚ) :
    (markEmailVerified db user now).tokens = db.tokens := by
  unfold markEmailVerified
  split_ifs <;> rfl

theorem byEmail_congr (h : db'.users = db.users) : db'.byEmail email = db.byEmail email := by
  unfold Accounts.byEmail
  rw [h]

theorem byEmail_insertUser (h : db.insertUser user = some db') :
    db'.byEmail email = if email = user.email then some user else db.byEmail email := by
  obtain ⟨-, hrows, -⟩ := insertUser_eq_some h
  unfold Accounts.byEmail
  rw [hrows, List.find?_cons]
  by_cases he : email = user.email
  · simp [he]
  · simp [he, Ne.symm he]

end Tables

structure InBook (env : Env Tok) (db : Accounts) (log : List (Answered Tok)) (book : AddressBook) :
    Prop where
  accounts : ∀ email, db.byEmail email = book.accounts email
  links : ∀ row ∈ db.tokens.rows, ∀ raw, row.tokenHash = env.hashEmailToken raw →
    ∃ user ∈ db.users.rows, user.id = row.userId ∧
      book.links row.purpose raw = some user.email
  drawn : ∀ row ∈ db.tokens.rows, ∃ a ∈ log, row.id = a.request.ctx.tokenId ∧
    row.tokenHash = env.hashEmailToken a.request.ctx.rawToken

section Step

variable {env : Env Tok} {db db' : Accounts} {log : List (Answered Tok)} {book : AddressBook}

theorem inBook_start (husers : db.users.rows = []) (htokens : db.tokens.rows = []) :
    InBook env db [] {} := by
  refine ⟨fun email => ?_, by simp [htokens], by simp [htokens]⟩
  unfold Accounts.byEmail
  rw [husers]
  rfl

theorem InBook.snoc (h : InBook env db log book) (a : Answered Tok) :
    InBook env db (log ++ [a]) book :=
  ⟨h.accounts, h.links, fun row hrow =>
    (h.drawn row hrow).imp fun _ hb => ⟨List.mem_append_left _ hb.1, hb.2⟩⟩

/-- Tokens that are marked as used are the same links. -/
theorem InBook.markUsed (h : InBook env db log book) (p : EmailToken → Bool) (now : ℚ) :
    InBook env (db.markUsed p now) log book := by
  refine ⟨h.accounts, fun row' hrow' => ?_, fun row' hrow' => ?_⟩
  · obtain ⟨row, hrow, rfl⟩ := List.mem_map.mp hrow'
    have hlinks := h.links row hrow
    split <;> exact hlinks
  · obtain ⟨row, hrow, rfl⟩ := List.mem_map.mp hrow'
    have hdrawn := h.drawn row hrow
    split <;> exact hdrawn

/-- The user table is written, and the book with it. -/
theorem InBook.write {accounts : String → Option User} (h : InBook env db log book)
    (htokens : db'.tokens = db.tokens) (hnames : db.names ⊆ db'.names)
    (haccounts : ∀ email, db'.byEmail email = accounts email) :
    InBook env db' log { book with accounts } := by
  refine ⟨haccounts, fun row hrow raw hraw => ?_, htokens ▸ h.drawn⟩
  obtain ⟨user, huser, hown, hlink⟩ := h.links row (htokens ▸ hrow) raw hraw
  obtain ⟨user', huser', hname⟩ := List.mem_map.mp (hnames (List.mem_map.mpr ⟨user, huser, rfl⟩))
  obtain ⟨hid, hemail⟩ := Prod.mk.inj hname
  exact ⟨user', huser', hid.trans hown, hlink.trans (congrArg some hemail.symm)⟩

/-- The tokens that a request draws are not those of the table. -/
structure FreshDraws (env : Env Tok) (db : Accounts) (ctx : Context) : Prop where
  id : ctx.tokenId ∉ db.tokens.rows.map EmailToken.id
  hash : env.hashEmailToken ctx.rawToken ∉ db.tokens.rows.map EmailToken.tokenHash

theorem InBook.fresh (h : InBook env db log book) (hinj : Function.Injective env.hashEmailToken)
    {ctx : Context} (hraw : ∀ a ∈ log, a.request.ctx.rawToken ≠ ctx.rawToken)
    (hid : ∀ a ∈ log, a.request.ctx.tokenId ≠ ctx.tokenId) : FreshDraws env db ctx := by
  constructor
  · intro hmem
    obtain ⟨row, hrow, heq⟩ := List.mem_map.mp hmem
    obtain ⟨a, ha, hdrawn, -⟩ := h.drawn row hrow
    exact hid a ha (hdrawn.symm.trans heq)
  · intro hmem
    obtain ⟨row, hrow, heq⟩ := List.mem_map.mp hmem
    obtain ⟨a, ha, -, hdrawn⟩ := h.drawn row hrow
    exact hraw a ha (hinj (hdrawn.symm.trans heq))

/-- A link is mailed: where the token was drawn for it, it is a row of its own. -/
theorem InBook.issue (h : InBook env db log book)
    (hinj : Function.Injective env.hashEmailToken) {ctx : Context} {user : User}
    (huser : user ∈ db.users.rows) (hfresh : FreshDraws env db ctx) (purpose : Purpose)
    {a : Answered Tok} (hctx : a.request.ctx = ctx) :
    ∃ db', issueEmailToken env ctx db user purpose (ttlMinutes env purpose) =
        (db', some { recipient := user.email, purpose, raw := ctx.rawToken,
                     displayName := user.displayName }) ∧
      InBook env db' (log ++ [a]) (book.mail
        { recipient := user.email, purpose, raw := ctx.rawToken,
          displayName := user.displayName }) := by
  obtain ⟨db', hissue, husers, htokens⟩ :=
    issueEmailToken_of_fresh env huser hfresh.id hfresh.hash purpose
  have hretired : InBook env (invalidateEmailTokens db user.id purpose ctx.now) log book :=
    h.markUsed _ _
  refine ⟨db', hissue, fun email => (byEmail_congr husers).trans (h.accounts email), ?_, ?_⟩
  · intro row' hrow' raw hraw
    rw [husers]
    rw [htokens, List.mem_cons] at hrow'
    rcases hrow' with rfl | hrow'
    · obtain rfl := hinj hraw
      exact ⟨user, huser, rfl, by simp [AddressBook.mail]⟩
    · obtain ⟨owner, howner, hown, hlink⟩ := hretired.links row' hrow' raw hraw
      have hne : raw ≠ ctx.rawToken := by
        rintro rfl
        have hhash := hfresh.hash
        rw [← invalidateEmailTokens_map EmailToken.tokenHash (fun _ _ => rfl) user.id purpose
          ctx.now] at hhash
        exact hhash (List.mem_map.mpr ⟨row', hrow', hraw⟩)
      exact ⟨owner, howner, hown, (book.links_mail_of_ne hne).trans hlink⟩
  · intro row' hrow'
    rw [htokens, List.mem_cons] at hrow'
    rcases hrow' with rfl | hrow'
    · exact ⟨a, by simp, by rw [hctx], by rw [hctx]⟩
    · obtain ⟨b, hb, hdrawn⟩ := hretired.drawn row' hrow'
      exact ⟨b, List.mem_append_left _ hb, hdrawn⟩

/-- A link that is good is in the book. -/
theorem InBook.link (h : InBook env db log book) {purpose : Purpose} {raw : String} {now : ℚ}
    {token : EmailToken} {user : User}
    (husable : getUsableEmailToken db purpose (env.hashEmailToken raw) now = some token)
    (huser : db.users.get? token.userId = some user) :
    user ∈ db.users.rows ∧ book.links purpose raw = some user.email := by
  obtain ⟨htoken, hhash, rfl, -⟩ := getUsableEmailToken_eq_some_iff.mp husable
  obtain ⟨hmem, hid⟩ := Table.get?_eq_some_iff.mp huser
  obtain ⟨owner, howner, hown, hlink⟩ := h.links token htoken raw hhash
  obtain rfl := Table.eq_of_key howner hmem (hown.trans hid.symm)
  exact ⟨hmem, hlink⟩

theorem InBook.account (h : InBook env db log book) {user : User} (huser : user ∈ db.users.rows) :
    book.accounts user.email = some user :=
  (h.accounts _).symm.trans (byEmail_eq_some_iff.mpr ⟨huser, rfl⟩)

theorem InBook.linked (h : InBook env db log book) {purpose : Purpose} {raw : String} {now : ℚ}
    {token : EmailToken} {user : User}
    (husable : getUsableEmailToken db purpose (env.hashEmailToken raw) now = some token)
    (huser : db.users.get? token.userId = some user) (f : User → User) :
    user ∈ db.users.rows ∧ book.follow purpose raw f =
      { book with accounts := Function.update book.accounts user.email (some (f user)) } := by
  obtain ⟨hmem, hlink⟩ := h.link husable huser
  refine ⟨hmem, ?_⟩
  unfold AddressBook.follow
  rw [hlink]
  dsimp only
  rw [h.account hmem, Option.map_some]

theorem InBook.verified (h : InBook env db log book) {body : VerifyEmailRequest} {now : ℚ}
    {token : EmailToken} {user : User}
    (husable : getUsableEmailToken db .verifyEmail (env.hashEmailToken body.token) now = some token)
    (huser : db.users.get? token.userId = some user) :
    InBook env (markEmailVerified (consumeEmailToken db token now) user now) log
      (book.follow .verifyEmail body.token (User.verifiedAt now)) := by
  obtain ⟨hmem, hfollow⟩ := h.linked husable huser (User.verifiedAt now)
  rw [hfollow]
  refine (h.markUsed _ now).write (markEmailVerified_tokens _ _) ?_ fun email => ?_
  · rw [names_markEmailVerified]
    exact List.Subset.refl _
  · rw [byEmail_markEmailVerified (show user ∈ (consumeEmailToken db token now).users.rows from hmem)
      rfl rfl, Function.update_apply, ← h.accounts]
    rfl

theorem InBook.reset (h : InBook env db log book) {body : ResetPasswordRequest} {now : ℚ}
    {token : EmailToken} {user : User}
    (husable : getUsableEmailToken db .passwordReset (env.hashEmailToken body.token) now = some token)
    (huser : db.users.get? token.userId = some user) (passwordHash : String) :
    InBook env (markEmailVerified (setPassword (invalidateEmailTokens
        (consumeEmailToken db token now) user.id .passwordReset now) user passwordHash now) user now)
      log (book.follow .passwordReset body.token
        (User.verifiedAt now ∘ User.withPassword passwordHash now)) := by
  obtain ⟨hmem, hfollow⟩ :=
    h.linked husable huser (User.verifiedAt now ∘ User.withPassword passwordHash now)
  rw [hfollow]
  let retired := invalidateEmailTokens (consumeEmailToken db token now) user.id .passwordReset now
  have hrow : user.withPassword passwordHash now ∈
      (setPassword retired user passwordHash now).users.rows :=
    List.mem_map.mpr ⟨user, hmem, if_pos rfl⟩
  refine ((h.markUsed _ now).markUsed _ now).write (markEmailVerified_tokens _ _) ?_ fun email => ?_
  · rw [names_markEmailVerified, names_setPassword]
    exact List.Subset.refl _
  · have hverified : (markEmailVerified (setPassword retired user passwordHash now) user
        now).byEmail email =
        if email = user.email then some ((user.withPassword passwordHash now).verifiedAt now)
        else (setPassword retired user passwordHash now).byEmail email :=
      byEmail_markEmailVerified hrow rfl rfl now
    rw [hverified, byEmail_setPassword (show user ∈ retired.users.rows from hmem),
      Function.update_apply, ← h.accounts]
    split_ifs <;> rfl

theorem InBook.failed (h : InBook env db log book) {ctx : Context} (hfresh : FreshDraws env db ctx)
    {call : AuthCall Tok} {failure : Failure} (heffect : Effect env ctx db call db' (.error failure))
    (a : Answered Tok) : InBook env db' (log ++ [a]) book := by
  generalize hresult : Except.error failure = result at heffect
  cases heffect with
  | failed => exact h.snoc a
  | nothing => cases hresult
  | issued _ _ user huser purpose =>
    -- a fresh token can be stored, so the request would not have failed
    obtain ⟨_, hissue, -⟩ := issueEmailToken_of_fresh env huser hfresh.id hfresh.hash purpose
    rw [hissue] at hresult
    cases hresult
  | registered body user db₁ hinsert =>
    obtain ⟨-, hrows, htokens⟩ := insertUser_eq_some hinsert
    have huser : user ∈ db₁.users.rows := hrows ▸ List.mem_cons_self
    obtain ⟨_, hissue, -⟩ := issueEmailToken_of_fresh env huser (htokens ▸ hfresh.id)
      (htokens ▸ hfresh.hash) .verifyEmail
    rw [hissue] at hresult
    cases hresult
  | verified => cases hresult
  | burned body token user => exact ((h.markUsed _ _).markUsed _ _).snoc a
  | reset => cases hresult

theorem register_user {ctx : Context} {body : RegisterRequest} {app app' : App}
    {response : AuthResponse Tok} {mails : List Mail}
    (h : register env ctx body app = (app', .ok (response, mails))) :
    response.user = userOut (newUser env ctx body) ∧
      ∃ db₁ mail, app.db.insertUser (newUser env ctx body) = some db₁ ∧ mails = [mail] ∧
        issueEmailToken env ctx db₁ (newUser env ctx body) .verifyEmail
          (ttlMinutes env .verifyEmail) = (app'.db, some mail) := by
  unfold register at h
  rcases hlimit : app.enforce env ctx "register_ip" (clientIp ctx.request) with
    ⟨limited, _ | exception⟩
  · rw [hlimit] at h
    dsimp only at h
    split_ifs at h
    · cases h
    cases hhash : env.hashPassword body.password ctx.salt with
    | none => simp [hhash] at h
    | some passwordHash =>
      rw [hhash] at h
      dsimp only at h
      cases hcreate : createUser env.lower limited.db ctx.userId (normalizeEmail env.lower body.email)
        passwordHash body.displayName ctx.now with
      | none => simp [hcreate] at h
      | some created =>
        obtain ⟨user, db₁⟩ := created
        have huser : user = newUser env ctx body := by
          rw [createUser_user hcreate]
          simp [newUser, hhash]
        obtain ⟨hinsert, -⟩ := createUser_eq_some hcreate
        rw [huser, enforce_db env ctx app hlimit] at hinsert
        rw [hcreate, huser] at h
        dsimp only at h
        rcases hissue : issueVerificationEmail env ctx db₁ (newUser env ctx body) with
          ⟨db₂, _ | mail⟩
        · simp [hissue] at h
        · rw [hissue] at h
          cases h
          exact ⟨rfl, db₁, mail, hinsert, rfl, hissue⟩
  · simp [hlimit] at h

/-- The one row more of a registration. -/
theorem InBook.registered (h : InBook env db log book)
    (hinj : Function.Injective env.hashEmailToken) {ctx : Context} (hfresh : FreshDraws env db ctx)
    {body : RegisterRequest} {db₁ : Accounts} {mail : Mail}
    (hinsert : db.insertUser (newUser env ctx body) = some db₁)
    (hissue : issueEmailToken env ctx db₁ (newUser env ctx body) .verifyEmail
      (ttlMinutes env .verifyEmail) = (db', some mail)) {a : Answered Tok}
    (hctx : a.request.ctx = ctx) :
    InBook env db' (log ++ [a]) ((book.act env ctx (.register body)).mail mail) := by
  obtain ⟨-, hrows, htokens⟩ := insertUser_eq_some hinsert
  have huser : newUser env ctx body ∈ db₁.users.rows := hrows ▸ List.mem_cons_self
  have h₁ : InBook env db₁ log (book.act env ctx (.register body)) := by
    refine h.write htokens ?_ fun email => ?_
    · unfold Accounts.names
      rw [hrows]
      exact List.subset_cons_self _ _
    · rw [byEmail_insertUser hinsert, Function.update_apply, h.accounts]
  obtain ⟨db₂, hissue', hdone⟩ :=
    h₁.issue hinj huser ⟨htokens ▸ hfresh.id, htokens ▸ hfresh.hash⟩ .verifyEmail hctx
  rw [hissue] at hissue'
  obtain ⟨rfl, hmail⟩ := Prod.mk.inj hissue'
  exact Option.some.inj hmail ▸ hdone

/-- The password of a reset is stored in the row that the reset has loaded. -/
def StoresReset (env : Env Tok) (ctx : Context) (db' : Accounts) (call : AuthCall Tok)
    (reply : Reply Tok) : Prop :=
  ∀ body, call = .resetPassword body → ∀ row ∈ db'.users.rows,
    reply.response.map (·.user.id) = some row.id →
      env.hashPassword body.password ctx.salt = some row.passwordHash

theorem InBook.succeeded (h : InBook env db log book)
    (hinj : Function.Injective env.hashEmailToken) {ctx : Context} (hfresh : FreshDraws env db ctx)
    {call : AuthCall Tok} {reply : Reply Tok} (heffect : Effect env ctx db call db' (.ok reply))
    (hcall : ∀ body, call ≠ .register body) (hstores : StoresReset env ctx db' call reply)
    (readAt : Nat) :
    InBook env db' (log ++ [{ request := { ctx, call }, result := .ok reply, readAt }])
      (book.record env { request := { ctx, call }, result := .ok reply, readAt }) := by
  have hquiet (hpresents : call.presents = none) : book.act env ctx call = book := by
    cases call with
    | register body => exact absurd rfl (hcall body)
    | verifyEmail => simp [AuthCall.presents] at hpresents
    | resetPassword => simp [AuthCall.presents] at hpresents
    | _ => rfl
  generalize hresult : Except.ok reply = result at heffect
  cases heffect with
  | failed => cases hresult
  | nothing _ hpresents =>
    cases hresult
    unfold AddressBook.record
    dsimp only
    rw [hquiet hpresents]
    exact h.snoc _
  | issued _ hpresents user huser purpose =>
    obtain ⟨db', hissue, hdone⟩ := h.issue hinj huser hfresh purpose
      (a := { request := { ctx, call }, result := .ok reply, readAt }) rfl
    rw [hissue] at hresult ⊢
    cases hresult
    unfold AddressBook.record
    dsimp only
    rw [hquiet hpresents]
    exact hdone
  | registered body => exact absurd rfl (hcall body)
  | verified body token user husable huser =>
    cases hresult
    exact (h.verified husable huser).snoc _
  | burned => cases hresult
  | reset body token user row passwordHash husable huser hrow =>
    cases hresult
    have hpassword := hstores body rfl row (Table.get?_eq_some_iff.mp hrow).1 rfl
    obtain ⟨old, hold, hkept⟩ := markEmailVerified_get?_hash hrow
    have hhash : (env.hashPassword body.password ctx.salt).getD "" = passwordHash := by
      rw [hpassword, ← hkept, setPassword_get? hold, Option.getD_some]
    have hdone := (h.reset husable huser passwordHash).snoc
      { request := { ctx, call := .resetPassword body }, readAt,
        result := .ok { response := some { token := tokenFor env ctx row, user := userOut row } } }
    rw [← hhash] at hdone ⊢
    exact hdone

theorem inBook_handle (hinj : Function.Injective env.hashEmailToken) {s : AuthState Tok}
    (h : InBook env s.app.db s.log book) {r : AuthRequest Tok}
    (hfresh : FreshDraws env s.app.db r.ctx) :
    InBook env (s.handle env r).app.db (s.handle env r).log
      (book.record env (s.answered env r)) := by
  unfold AuthState.handle
  rcases answered_cases env s r with ⟨k, readAt, user, hcall, -, hanswered⟩ | hanswered
  · rw [hanswered, hcall]
    unfold AddressBook.record
    dsimp only
    rw [hcall]
    exact h.snoc _
  · rw [hanswered]
    obtain ⟨ctx, call⟩ := r
    have heffect := answer_effect env ctx s.app call
    dsimp only at hfresh ⊢
    cases hresult : (answer env ctx s.app call).2 with
    | error failure =>
      rw [hresult] at heffect
      exact h.failed hfresh heffect _
    | ok reply =>
      cases call with
      | register body =>
        rcases hregister : register env ctx body s.app with ⟨app', failure | ⟨response, mails⟩⟩
        · simp [answer, hregister, Except.map] at hresult
        · obtain ⟨-, db₁, mail, hinsert, rfl, hissue⟩ := register_user hregister
          obtain rfl : { response := some response, mails := [mail] } = reply := by
            simpa [answer, hregister, Except.map] using hresult
          rw [show (answer env ctx s.app (.register body)).1 = app' by simp [answer, hregister]]
          exact h.registered hinj hfresh hinsert hissue rfl
      | resetPassword body =>
        rw [hresult] at heffect
        refine h.succeeded hinj hfresh heffect (by simp) ?_ _
        rintro body' ⟨⟩ row hrow hresponse
        rcases hreset : resetPassword env ctx body s.app with ⟨app', failure | response⟩
        · simp [answer, hreset, Except.map] at hresult
        · obtain ⟨stored, hstored, hid, hhash⟩ := resetPassword_eq_ok hreset
          obtain rfl : { response := some response } = reply := by
            simpa [answer, hreset, Except.map] using hresult
          rw [show (answer env ctx s.app (.resetPassword body)).1 = app' by
            simp [answer, hreset]] at hrow
          obtain rfl := Table.eq_of_key hstored hrow (hid.trans (Option.some.inj hresponse))
          exact hhash
      | _ =>
        rw [hresult] at heffect
        exact h.succeeded hinj hfresh heffect (by simp) (fun _ hcall => by cases hcall) _

theorem InBook.fresh_next (h : InBook env db log book)
    (hinj : Function.Injective env.hashEmailToken) {requests : List (AuthRequest Tok)}
    {r : AuthRequest Tok} (hlog : log.map Answered.request = requests)
    (hraw : ((requests ++ [r]).map (·.ctx.rawToken)).Nodup)
    (hid : ((requests ++ [r]).map (·.ctx.tokenId)).Nodup) : FreshDraws env db r.ctx := by
  rw [List.map_append, List.nodup_append] at hraw hid
  have hearlier : ∀ a ∈ log, a.request ∈ requests := fun a ha => hlog ▸ List.mem_map_of_mem ha
  exact h.fresh hinj
    (fun a ha => hraw.2.2 _ (List.mem_map.mpr ⟨_, hearlier a ha, rfl⟩) _ (by simp))
    (fun a ha => hid.2.2 _ (List.mem_map.mpr ⟨_, hearlier a ha, rfl⟩) _ (by simp))

end Step

theorem inBook_run {env : Env Tok} (hinj : Function.Injective env.hashEmailToken) {app : App}
    (husers : app.db.users.rows = []) (htokens : app.db.tokens.rows = [])
    {requests : List (AuthRequest Tok)} (hraw : (requests.map (·.ctx.rawToken)).Nodup)
    (hid : (requests.map (·.ctx.tokenId)).Nodup) :
    InBook env (runAuth env { app } requests).app.db (runAuth env { app } requests).log
      (bookOf env (runAuth env { app } requests).log) := by
  induction requests using List.reverseRecOn with
  | nil => exact inBook_start husers htokens
  | append_singleton requests r ih =>
    have hbefore := ih (List.Nodup.sublist (List.sublist_append_left _ _) (List.map_append ▸ hraw))
      (List.Nodup.sublist (List.sublist_append_left _ _) (List.map_append ▸ hid))
    have hafter := inBook_handle hinj hbefore
      (hbefore.fresh_next hinj (runAuth_requests env _ _) hraw hid)
    rw [← bookOf_snoc] at hafter
    rw [runAuth_snoc]
    exact hafter

/-- After any run the table holds exactly the accounts of the address book: each as it was
registered, with what the links that were mailed to its address have since done to it. -/
theorem runAuth_book {env : Env Tok} (hinj : Function.Injective env.hashEmailToken) {app : App}
    (husers : app.db.users.rows = []) (htokens : app.db.tokens.rows = [])
    {requests : List (AuthRequest Tok)} (hraw : (requests.map (·.ctx.rawToken)).Nodup)
    (hid : (requests.map (·.ctx.tokenId)).Nodup) (user : User) :
    user ∈ (runAuth env { app } requests).app.db.users.rows ↔
      (bookOf env (runAuth env { app } requests).log).accounts user.email = some user := by
  rw [← (inBook_run hinj husers htokens hraw hid).accounts, byEmail_eq_some_iff, and_iff_left rfl]

/-- An account that is registered and whose password is then reset by link. -/
def registerAndReset : List (AuthRequest Payload) :=
  [{ ctx := contextWith 0 1 "welcome", call := .register ownerRegistration },
    { ctx := contextWith 60 2 "link", call := .forgotPassword { email := "owner@example.com" } },
    { ctx := contextWith 120 3 "unused", call := .resetPassword newPassword }]

def ownerAfterReset : User where
  id := 1
  email := "owner@example.com"
  passwordHash := "bcrypt:new password"
  emailVerifiedAt := some 120
  passwordChangedAt := 120
  tokenVersion := 1

theorem runAuth_book_reset :
    ownerAfterReset ∈ (runAuth plainEnv { app := freshApp } registerAndReset).app.db.users.rows ∧
      (bookOf plainEnv (runAuth plainEnv { app := freshApp } registerAndReset).log).accounts
        "owner@example.com" = some ownerAfterReset :=
  have hrow : ownerAfterReset ∈
      (runAuth plainEnv { app := freshApp } registerAndReset).app.db.users.rows := by decide +kernel
  ⟨hrow, (runAuth_book (fun raw raw' h => by simpa [plainEnv] using h) rfl rfl (by decide)
    (by decide) ownerAfterReset).mp hrow⟩

end StockQuant
