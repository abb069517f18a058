import StockQuant.MailedTokens
import StockQuant.SingleUse

/-! The token table against the history of what was mailed and used. -/

namespace StockQuant

open KeyedTable SingleUse

variable {Tok : Type}

def Answered.events (a : Answered Tok) : List (Event (String × Purpose) String ℚ) :=
  match a.result with
  | .error _ => []
  | .ok reply =>
    reply.mails.map (fun mail => .issue (mail.recipient, mail.purpose) mail.raw a.request.ctx.now) ++
      (a.request.call.presents.map fun presented => .use presented.2).toList

def history (log : List (Answered Tok)) : List (Event (String × Purpose) String ℚ) :=
  log.flatMap Answered.events

theorem history_snoc (log : List (Answered Tok)) (a : Answered Tok) :
    history (log ++ [a]) = history log ++ a.events := by
  simp [history]

/-- The unused rows of the table are the tokens outstanding in the history, and every
row was drawn by a request of the log. -/
structure Mailed (env : Env Tok) (db : Accounts) (log : List (Answered Tok)) : Prop where
  drawn : ∀ row ∈ db.tokens.rows, ∃ a ∈ log, row.id = a.request.ctx.tokenId ∧
    row.tokenHash = env.hashEmailToken a.request.ctx.rawToken
  used : ∀ raw, .use raw ∈ history log →
    ∃ row ∈ db.tokens.rows, row.tokenHash = env.hashEmailToken raw
  outstanding : ∀ owner raw time,
    Outstanding (history log) owner raw time ↔ Unused env db owner raw time

section Step

variable {env : Env Tok} {db db' : Accounts} {log : List (Answered Tok)} {a : Answered Tok}

theorem mailed_start (hempty : db.tokens.rows = []) : Mailed env db [] := by
  refine ⟨by simp [hempty], by simp [history], fun owner raw time => ?_⟩
  refine iff_of_false (fun h => not_issuedLast_nil h.1) ?_
  rintro ⟨user, -, row, hrow, -⟩
  simp [hempty] at hrow

theorem Mailed.eq_of_unused (h : Mailed env db log) {row row' : EmailToken}
    (hrow : row ∈ db.tokens.rows) (hrow' : row' ∈ db.tokens.rows) (huser : row.userId = row'.userId)
    (hpurpose : row.purpose = row'.purpose) (hunused : row.usedAt = none)
    (hunused' : row'.usedAt = none) : row = row' := by
  obtain ⟨user, hmem, hown⟩ := db.tokens_owned row hrow
  obtain ⟨a, -, -, hhash⟩ := h.drawn row hrow
  obtain ⟨a', -, -, hhash'⟩ := h.drawn row' hrow'
  have hout := (h.outstanding (user.email, row.purpose) a.request.ctx.rawToken
    (row.expiresAt - ttl env row.purpose)).mpr
    ⟨user, hmem, row, hrow, rfl, hown.symm, hhash, hunused, by simp⟩
  have hout' := (h.outstanding (user.email, row.purpose) a'.request.ctx.rawToken
    (row'.expiresAt - ttl env row'.purpose)).mpr
    ⟨user, hmem, row', hrow', by rw [hpurpose], (hown.trans huser).symm, hhash', hunused', by simp⟩
  obtain ⟨hraw, -⟩ := hout.1.unique hout'.1
  exact Accounts.eq_of_tokenHash hrow hrow' (by rw [hhash, hhash', hraw])

theorem Mailed.quiet (h : Mailed env db log) (hevents : a.events = []) :
    Mailed env db (log ++ [a]) := by
  have hsame : history (log ++ [a]) = history log := by rw [history_snoc, hevents, List.append_nil]
  refine ⟨fun row hrow => ?_, by rw [hsame]; exact h.used, by rw [hsame]; exact h.outstanding⟩
  obtain ⟨b, hb, hdrawn⟩ := h.drawn row hrow
  exact ⟨b, List.mem_append_left _ hb, hdrawn⟩

theorem Mailed.users (h : Mailed env db log) (htokens : db'.tokens = db.tokens)
    (hunused : ∀ owner raw time, Unused env db' owner raw time ↔ Unused env db owner raw time) :
    Mailed env db' log :=
  ⟨htokens ▸ h.drawn, htokens ▸ h.used,
    fun owner raw time => (h.outstanding owner raw time).trans (hunused owner raw time).symm⟩

theorem Mailed.use (hinj : Function.Injective env.hashEmailToken) (h : Mailed env db log)
    {token : EmailToken} {presented : String} (htoken : token ∈ db.tokens.rows)
    (hhash : token.tokenHash = env.hashEmailToken presented) (now : ℚ)
    (ha : a.events = [.use presented]) :
    Mailed env (consumeEmailToken db token now) (log ++ [a]) := by
  have hkept : ∀ row ∈ db.tokens.rows, ∃ row' ∈ (consumeEmailToken db token now).tokens.rows,
      row'.tokenHash = row.tokenHash := by
    intro row hrow
    refine ⟨_, List.mem_map.mpr ⟨row, hrow, rfl⟩, ?_⟩
    split <;> rfl
  refine ⟨fun row' hrow' => ?_, fun raw hraw => ?_, fun owner raw time => ?_⟩
  · obtain ⟨row, hrow, rfl⟩ := List.mem_map.mp hrow'
    obtain ⟨b, hb, hid, hdrawn⟩ := h.drawn row hrow
    refine ⟨b, List.mem_append_left _ hb, ?_⟩
    split <;> exact ⟨hid, hdrawn⟩
  · rw [history_snoc, ha, List.mem_append, List.mem_singleton] at hraw
    rcases hraw with hraw | heq
    · obtain ⟨row, hrow, hold⟩ := h.used raw hraw
      obtain ⟨row', hrow', hsame⟩ := hkept row hrow
      exact ⟨row', hrow', hsame.trans hold⟩
    · cases heq
      obtain ⟨row', hrow', hsame⟩ := hkept token htoken
      exact ⟨row', hrow', hsame.trans hhash⟩
  · rw [history_snoc, ha, outstanding_use, unused_consume hinj htoken hhash, h.outstanding]

theorem Mailed.issue (hinj : Function.Injective env.hashEmailToken) (h : Mailed env db log)
    {ctx : Context} {user : User} {purpose : Purpose} (huser : user ∈ db.users.rows)
    (hraw : ∀ a ∈ log, a.request.ctx.rawToken ≠ ctx.rawToken)
    (hctx : a.request.ctx = ctx)
    (ha : a.events = [.issue (user.email, purpose) ctx.rawToken ctx.now])
    (husers : db'.users = db.users)
    (htokens : db'.tokens.rows =
      { id := ctx.tokenId, userId := user.id, purpose,
        tokenHash := env.hashEmailToken ctx.rawToken,
        expiresAt := ctx.now + ttl env purpose } ::
      (invalidateEmailTokens db user.id purpose ctx.now).tokens.rows) :
    Mailed env db' (log ++ [a]) := by
  refine ⟨fun row' hrow' => ?_, fun raw hused => ?_, fun owner raw time => ?_⟩
  · rw [htokens, List.mem_cons] at hrow'
    rcases hrow' with rfl | hrow'
    · exact ⟨a, by simp, by rw [hctx], by rw [hctx]⟩
    · obtain ⟨row, hrow, rfl⟩ := List.mem_map.mp hrow'
      obtain ⟨b, hb, hid, hdrawn⟩ := h.drawn row hrow
      refine ⟨b, List.mem_append_left _ hb, ?_⟩
      split <;> exact ⟨hid, hdrawn⟩
  · rw [history_snoc, ha, List.mem_append, List.mem_singleton] at hused
    obtain ⟨row, hrow, hhash⟩ := h.used raw (hused.resolve_right (by simp))
    refine ⟨_, htokens ▸ List.mem_cons_of_mem _ (List.mem_map.mpr ⟨row, hrow, rfl⟩), ?_⟩
    split <;> exact hhash
  · have hfresh : .use ctx.rawToken ∉ history log := by
      intro hused
      obtain ⟨row, hrow, hhash⟩ := h.used _ hused
      obtain ⟨b, hb, -, hdrawn⟩ := h.drawn row hrow
      exact hraw b hb (hinj (hdrawn.symm.trans hhash))
    rw [history_snoc, ha, outstanding_issue hfresh, unused_issue hinj huser husers htokens,
      h.outstanding]

theorem Mailed.invalidate_consume (h : Mailed env db log) {token : EmailToken} {user : User}
    (htoken : token ∈ db.tokens.rows) (hunused : token.usedAt = none)
    (hown : user.id = token.userId) (now : ℚ) :
    invalidateEmailTokens (consumeEmailToken db token now) user.id token.purpose now =
      consumeEmailToken db token now := by
  refine markUsed_of_filter_eq_nil (List.filter_eq_nil_iff.mpr fun row' hrow' hout => ?_) now
  obtain ⟨row, hrow, hmarked⟩ := List.mem_map.mp hrow'
  obtain ⟨huser, hpurpose, hnone⟩ : row'.userId = user.id ∧ row'.purpose = token.purpose ∧
      row'.usedAt = none := by simpa [StockQuant.outstanding, and_assoc] using hout
  have hne : ¬ row.id = token.id := by
    intro hid
    rw [← hmarked] at hnone
    simp [hid] at hnone
  obtain rfl : row = row' := by simpa [hne] using hmarked
  exact hne (congrArg EmailToken.id
    (h.eq_of_unused hrow htoken (huser.trans hown) hpurpose hnone hunused))

theorem fresh_of_drawn {ctx : Context} (hinj : Function.Injective env.hashEmailToken)
    (h : Mailed env db log) (hraw : ∀ a ∈ log, a.request.ctx.rawToken ≠ ctx.rawToken)
    (hid : ∀ a ∈ log, a.request.ctx.tokenId ≠ ctx.tokenId) :
    ctx.tokenId ∉ db.tokens.rows.map EmailToken.id ∧
      env.hashEmailToken ctx.rawToken ∉ db.tokens.rows.map EmailToken.tokenHash := by
  constructor
  · rintro hmem
    obtain ⟨row, hrow, heq⟩ := List.mem_map.mp hmem
    obtain ⟨a, ha, hdrawn, -⟩ := h.drawn row hrow
    exact hid a ha (hdrawn.symm.trans heq)
  · rintro hmem
    obtain ⟨row, hrow, heq⟩ := List.mem_map.mp hmem
    obtain ⟨a, ha, -, hdrawn⟩ := h.drawn row hrow
    exact hraw a ha (hinj (hdrawn.symm.trans heq))

theorem Mailed.effect (hinj : Function.Injective env.hashEmailToken)
    (hpassword : ∀ password salt, env.hashPassword password salt ≠ none)
    (h : Mailed env db log) {ctx : Context} {call : AuthCall Tok}
    {result : Except Failure (Reply Tok)} (heffect : Effect env ctx db call db' result)
    (hraw : ∀ a ∈ log, a.request.ctx.rawToken ≠ ctx.rawToken)
    (hid : ∀ a ∈ log, a.request.ctx.tokenId ≠ ctx.tokenId) (readAt : Nat) :
    Mailed env db' (log ++ [{ request := { ctx, call }, result, readAt }]) := by
  obtain ⟨hid, hhash⟩ := fresh_of_drawn hinj h hraw hid
  cases heffect with
  | failed => exact h.quiet rfl
  | nothing _ hcall => exact h.quiet (by simp [Answered.events, hcall])
  | issued _ hcall user huser purpose =>
    obtain ⟨db', hissue, husers, htokens⟩ :=
      issueEmailToken_of_fresh env huser hid hhash purpose
    rw [hissue]
    exact h.issue hinj huser hraw rfl (by simp [Answered.events, mailed, hcall]) husers htokens
  | registered body user db₁ hinsert hversion =>
    obtain ⟨-, hrows, htokens₁⟩ := insertUser_eq_some hinsert
    have h₁ : Mailed env db₁ log := h.users htokens₁ fun _ _ _ => unused_insertUser hinsert
    have huser : user ∈ db₁.users.rows := by
      rw [hrows]
      exact List.mem_cons_self
    rw [← htokens₁] at hid hhash
    obtain ⟨db', hissue, husers, htokens⟩ :=
      issueEmailToken_of_fresh env huser hid hhash .verifyEmail
    rw [hissue]
    exact h₁.issue hinj huser hraw rfl (by simp [Answered.events, mailed, AuthCall.presents])
      husers htokens
  | verified body token user husable huser =>
    obtain ⟨hmem, hhash, -⟩ := getUsableEmailToken_eq_some_iff.mp husable
    refine Mailed.users (h.use hinj hmem hhash ctx.now rfl) ?_ fun _ _ _ =>
      unused_markEmailVerified _
    unfold markEmailVerified
    split_ifs <;> rfl
  | burned body token user husable huser hnone => exact absurd hnone (hpassword _ _)
  | reset body token user row passwordHash husable huser hrow =>
    obtain ⟨hmem, hhash, hpurpose, hunused, -⟩ := getUsableEmailToken_eq_some_iff.mp husable
    obtain ⟨-, hown⟩ := Table.get?_eq_some_iff.mp huser
    have hsame := h.invalidate_consume hmem hunused hown ctx.now
    rw [hpurpose] at hsame
    rw [hsame]
    refine Mailed.users (h.use hinj hmem hhash ctx.now rfl) ?_ fun _ _ _ =>
      (unused_markEmailVerified _).trans (unused_setPassword _ _)
    unfold markEmailVerified
    split_ifs <;> rfl

end Step

end StockQuant
