import StockQuant.AuthEffects

/-! The rows of the token table that are still unused, and what each write does to them. -/

namespace StockQuant

open KeyedTable

variable {Tok : Type}

def ttl (env : Env Tok) (purpose : Purpose) : ℚ := ttlMinutes env purpose * 60

/-- A row of the table is unused and stands for a token mailed at that time. -/
def Unused (env : Env Tok) (db : Accounts) (owner : String × Purpose) (raw : String) (time : ℚ) :
    Prop :=
  ∃ user ∈ db.users.rows, ∃ row ∈ db.tokens.rows, owner = (user.email, row.purpose) ∧
    row.userId = user.id ∧ row.tokenHash = env.hashEmailToken raw ∧ row.usedAt = none ∧
    row.expiresAt = time + ttl env row.purpose

section Tables

variable {env : Env Tok} {db db' : Accounts} {owner : String × Purpose} {raw : String} {time : ℚ}

theorem Accounts.eq_of_email {user user' : User} (h : user ∈ db.users.rows)
    (h' : user' ∈ db.users.rows) (hemail : user.email = user'.email) : user = user' :=
  List.inj_on_of_nodup_map db.emails_nodup h h' hemail

theorem unused_mapUsers {f : User → User} (hid : ∀ u, (f u).id = u.id)
    (hemail : ∀ u, (f u).email = u.email) :
    Unused env (db.mapUsers f hid hemail) owner raw time ↔ Unused env db owner raw time := by
  simp [Unused, Accounts.mapUsers, hid, hemail]

theorem unused_markEmailVerified {user : User} (now : ℚ) :
    Unused env (markEmailVerified db user now) owner raw time ↔ Unused env db owner raw time := by
  unfold markEmailVerified
  split_ifs
  · exact unused_mapUsers _ _
  · exact Iff.rfl

theorem unused_setPassword {user : User} (passwordHash : String) (now : ℚ) :
    Unused env (setPassword db user passwordHash now) owner raw time ↔
      Unused env db owner raw time := by
  unfold setPassword Accounts.writePassword
  exact unused_mapUsers _ _

theorem unused_insertUser {user : User} (h : db.insertUser user = some db') :
    Unused env db' owner raw time ↔ Unused env db owner raw time := by
  obtain ⟨hnew, husers, htokens⟩ := insertUser_eq_some h
  unfold Unused
  rw [husers, htokens, List.exists_mem_cons_iff, or_iff_right]
  rintro ⟨row, hrow, -, hown, -⟩
  obtain ⟨old, hold, hid⟩ := db.tokens_owned row hrow
  exact hnew (List.mem_map.mpr ⟨old, hold, hid.trans hown⟩)

theorem unused_consume (hinj : Function.Injective env.hashEmailToken) {token : EmailToken}
    {presented : String} (htoken : token ∈ db.tokens.rows)
    (hhash : token.tokenHash = env.hashEmailToken presented) (now : ℚ) :
    Unused env (consumeEmailToken db token now) owner raw time ↔
      raw ≠ presented ∧ Unused env db owner raw time := by
  constructor
  · rintro ⟨user, huser, row', hrow', howner, hown, hraw, hunused, hexpires⟩
    obtain ⟨row, hrow, rfl⟩ := List.mem_map.mp hrow'
    have hne : ¬ row.id = token.id := by
      intro hid
      simp [hid] at hunused
    simp only [hne, decide_false, Bool.false_eq_true, if_false] at howner hown hraw hunused hexpires
    refine ⟨?_, user, huser, row, hrow, howner, hown, hraw, hunused, hexpires⟩
    rintro rfl
    exact hne (congrArg EmailToken.id (Accounts.eq_of_tokenHash hrow htoken (hraw.trans hhash.symm)))
  · rintro ⟨hne, user, huser, row, hrow, howner, hown, hraw, hunused, hexpires⟩
    have hid : ¬ row.id = token.id := by
      intro hid
      obtain rfl := Table.eq_of_key hrow htoken hid
      exact hne (hinj (hraw.symm.trans hhash))
    refine ⟨user, huser, row, List.mem_map.mpr ⟨row, hrow, ?_⟩, howner, hown, hraw, hunused, hexpires⟩
    simp [hid]

theorem insertToken_of_fresh (token : EmailToken)
    (hid : token.id ∉ db.tokens.rows.map EmailToken.id)
    (hhash : token.tokenHash ∉ db.tokens.rows.map EmailToken.tokenHash)
    (howned : ∃ user ∈ db.users.rows, user.id = token.userId) :
    ∃ db', db.insertToken token = some db' ∧ db'.users = db.users ∧
      db'.tokens.rows = token :: db.tokens.rows := by
  unfold Accounts.insertToken
  rw [dif_pos ⟨hid, hhash, howned⟩]
  exact ⟨_, rfl, rfl, rfl⟩

theorem invalidateEmailTokens_map {α : Type} (f : EmailToken → α)
    (hf : ∀ row usedAt, f { row with usedAt } = f row) (userId : Uuid) (purpose : Purpose)
    (now : ℚ) :
    (invalidateEmailTokens db userId purpose now).tokens.rows.map f = db.tokens.rows.map f := by
  simp only [invalidateEmailTokens, Accounts.markUsed, Table.rows_map, List.map_map]
  refine List.map_congr_left fun row _ => ?_
  dsimp only [Function.comp_apply]
  split
  · exact hf row _
  · rfl

theorem issueEmailToken_of_fresh (env : Env Tok) {ctx : Context} {user : User}
    (huser : user ∈ db.users.rows)
    (hid : ctx.tokenId ∉ db.tokens.rows.map EmailToken.id)
    (hhash : env.hashEmailToken ctx.rawToken ∉ db.tokens.rows.map EmailToken.tokenHash)
    (purpose : Purpose) :
    ∃ db', issueEmailToken env ctx db user purpose (ttlMinutes env purpose) =
        (db', some
          { recipient := user.email, purpose, raw := ctx.rawToken,
            displayName := user.displayName }) ∧
      db'.users = db.users ∧ db'.tokens.rows =
        { id := ctx.tokenId, userId := user.id, purpose,
          tokenHash := env.hashEmailToken ctx.rawToken,
          expiresAt := ctx.now + ttl env purpose } ::
        (invalidateEmailTokens db user.id purpose ctx.now).tokens.rows := by
  rw [← invalidateEmailTokens_map EmailToken.id (fun _ _ => rfl) user.id purpose ctx.now] at hid
  rw [← invalidateEmailTokens_map EmailToken.tokenHash (fun _ _ => rfl) user.id purpose ctx.now]
    at hhash
  obtain ⟨db', hinsert, husers, hrows⟩ := insertToken_of_fresh
    ⟨ctx.tokenId, user.id, purpose, env.hashEmailToken ctx.rawToken, ctx.now + ttl env purpose, none⟩
    hid hhash ⟨user, huser, rfl⟩
  refine ⟨db', ?_, husers, hrows⟩
  unfold issueEmailToken createEmailToken
  dsimp only
  rw [show ctx.now + (ttlMinutes env purpose : ℚ) * 60 = ctx.now + ttl env purpose from rfl, hinsert]

theorem unused_issue (hinj : Function.Injective env.hashEmailToken) {ctx : Context} {user : User}
    {purpose : Purpose} (huser : user ∈ db.users.rows) (husers : db'.users = db.users)
    (htokens : db'.tokens.rows =
      { id := ctx.tokenId, userId := user.id, purpose,
        tokenHash := env.hashEmailToken ctx.rawToken,
        expiresAt := ctx.now + ttl env purpose } ::
      (invalidateEmailTokens db user.id purpose ctx.now).tokens.rows) :
    Unused env db' owner raw time ↔
      (owner = (user.email, purpose) ∧ raw = ctx.rawToken ∧ time = ctx.now) ∨
        owner ≠ (user.email, purpose) ∧ Unused env db owner raw time := by
  have hid : ∀ {u}, u ∈ db.users.rows → u.id = user.id → u = user :=
    fun hu heq => Table.eq_of_key hu huser heq
  constructor
  · rintro ⟨u, hu, row', hrow', rfl, hown, hraw, hunused, hexpires⟩
    rw [husers] at hu
    rw [htokens, List.mem_cons] at hrow'
    rcases hrow' with rfl | hrow'
    · obtain rfl := hid hu hown.symm
      exact Or.inl ⟨rfl, (hinj hraw).symm, (add_right_cancel hexpires).symm⟩
    · obtain ⟨row, hrow, hretired⟩ := List.mem_map.mp hrow'
      have hout : outstanding user.id purpose row = false := by
        by_contra hout
        rw [← hretired] at hunused
        simp [hout] at hunused
      obtain rfl : row = row' := by simpa [hout] using hretired
      refine Or.inr ⟨fun heq => ?_, u, hu, row, hrow, rfl, hown, hraw, hunused, hexpires⟩
      obtain ⟨hemail, hpurpose⟩ := Prod.mk.inj heq
      obtain rfl := Accounts.eq_of_email hu huser hemail
      simp [outstanding, hown, hpurpose, hunused] at hout
  · rintro (⟨rfl, rfl, rfl⟩ | ⟨hne, u, hu, row, hrow, rfl, hown, hraw, hunused, hexpires⟩)
    · rw [← husers] at huser
      exact ⟨user, huser, _, htokens ▸ List.mem_cons_self, rfl, rfl, rfl, rfl, rfl⟩
    · have hout : outstanding user.id purpose row = false := by
        by_contra hout
        have hout : (row.userId = user.id ∧ row.purpose = purpose) ∧ row.usedAt = none := by
          simpa [outstanding, and_assoc] using hout
        obtain rfl := hid hu (hown.symm.trans hout.1.1)
        exact hne (by rw [hout.1.2])
      refine ⟨u, husers ▸ hu, row, ?_, rfl, hown, hraw, hunused, hexpires⟩
      rw [htokens]
      refine List.mem_cons_of_mem _ (List.mem_map.mpr ⟨row, hrow, ?_⟩)
      simp [hout]

theorem getUsableEmailToken_isSome_iff {purpose : Purpose} {now : ℚ} :
    (getUsableEmailToken db purpose (env.hashEmailToken raw) now).isSome ↔
      ∃ email time, Unused env db (email, purpose) raw time ∧ now < time + ttl env purpose := by
  rw [Option.isSome_iff_exists]
  constructor
  · rintro ⟨token, h⟩
    obtain ⟨hmem, hhash, rfl, hunused, hlive⟩ := getUsableEmailToken_eq_some_iff.mp h
    obtain ⟨user, huser, hown⟩ := db.tokens_owned token hmem
    refine ⟨user.email, token.expiresAt - ttl env token.purpose, ?_, by simpa using hlive⟩
    exact ⟨user, huser, token, hmem, rfl, hown.symm, hhash, hunused, by simp⟩
  · rintro ⟨email, time, ⟨user, huser, row, hrow, howner, hown, hhash, hunused, hexpires⟩, hlive⟩
    obtain ⟨rfl, rfl⟩ := Prod.mk.inj howner
    exact ⟨row, getUsableEmailToken_eq_some_iff.mpr
      ⟨hrow, hhash, rfl, hunused, hexpires ▸ hlive⟩⟩

end Tables

end StockQuant
