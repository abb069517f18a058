import StockQuant.LoginOracle
import StockQuant.MailedTokens

/-! What a sequence of reset requests tells about the accounts. -/

namespace StockQuant

variable {Tok : Type} {env : Env Tok}

/-- One request, and what the mail server does with a message; `none` is an exception. -/
structure ForgotCall where
  ctx : Context
  body : ForgotPasswordRequest
  sender : Mail → Option Unit

def sendEmail (sender : Mail → Option Unit) (mail : Mail) : Bool :=
  match sender mail with
  | some () => true
  | none => false

structure ForgotOutcome where
  response : Response String
  sent : List Bool
  deriving DecidableEq

/-- The queued messages go out once the response has. -/
def forgotCall (env : Env Tok) (c : ForgotCall) (app : App) : App × ForgotOutcome :=
  match forgotPassword env c.ctx c.body app with
  | (app, .ok (message, mails)) =>
    (app, { response := respond 202 (.ok message), sent := mails.map (sendEmail c.sender) })
  | (app, .error failure) => (app, { response := respond 202 (.error failure), sent := [] })

def runForgot (env : Env Tok) (app : App) : List ForgotCall → List ForgotOutcome
  | [] => []
  | c :: calls => (forgotCall env c app).2 :: runForgot env (forgotCall env c app).1 calls

/-- The same request as the client and the limiter see it. -/
structure SameRequest (c c' : ForgotCall) : Prop where
  request : c.ctx.request = c'.ctx.request
  clock : c.ctx.clock = c'.ctx.clock
  body : c.body = c'.body

/-- The ids and the hashes that the calls draw are new to the tables and to each other. -/
structure Drawn (env : Env Tok) (db : Accounts) (calls : List ForgotCall) : Prop where
  ids : (db.tokens.rows.map EmailToken.id ++ calls.map (·.ctx.tokenId)).Nodup
  hashes : (db.tokens.rows.map EmailToken.tokenHash ++
    calls.map (env.hashEmailToken ·.ctx.rawToken)).Nodup

def forgotLimits (env : Env Tok) (c : ForgotCall) (limiter : SlidingWindowLimiter) :
    SlidingWindowLimiter × Option HTTPException :=
  match enforce env.rateLimitEnabled limiter "forgot_ip" (clientIp c.ctx.request) c.ctx.clock with
  | (limiter, some exception) => (limiter, some exception)
  | (limiter, none) =>
    enforce env.rateLimitEnabled limiter "forgot_email" (normalizeEmail env.lower c.body.email)
      c.ctx.clock

def forgotResponse : Option HTTPException → Response String
  | some exception => respond 202 (.error (.http exception))
  | none => respond 202 (.ok genericEmailAck)

theorem forgotLimits_congr {c c' : ForgotCall} (h : SameRequest c c')
    (limiter : SlidingWindowLimiter) : forgotLimits env c limiter = forgotLimits env c' limiter := by
  unfold forgotLimits
  rw [h.request, h.clock, h.body]

/-- `forgot_password` past its counters. -/
def forgotIssue (env : Env Tok) (c : ForgotCall) (db : Accounts) :
    Accounts × Except Failure (String × List Mail) :=
  match getUserByEmail env.lower db (normalizeEmail env.lower c.body.email) with
  | none => (db, .ok (genericEmailAck, []))
  | some user =>
    match issueEmailToken env c.ctx db user .passwordReset env.passwordResetTtlMinutes with
    | (db, none) => (db, .error .crash)
    | (db, some mail) => (db, .ok (genericEmailAck, [mail]))

theorem forgotPassword_eq (env : Env Tok) (c : ForgotCall) (app : App) :
    forgotPassword env c.ctx c.body app =
      match forgotLimits env c app.limiter with
      | (limiter, some exception) => ({ app with limiter }, .error (.http exception))
      | (limiter, none) =>
        ({ db := (forgotIssue env c app.db).1, limiter }, (forgotIssue env c app.db).2) := by
  have hip : app.enforce env c.ctx "forgot_ip" (clientIp c.ctx.request) =
      ({ app with limiter := (enforce env.rateLimitEnabled app.limiter "forgot_ip"
          (clientIp c.ctx.request) c.ctx.clock).1 },
        (enforce env.rateLimitEnabled app.limiter "forgot_ip" (clientIp c.ctx.request)
          c.ctx.clock).2) := rfl
  unfold forgotPassword forgotLimits
  dsimp only
  rw [hip]
  rcases enforce env.rateLimitEnabled app.limiter "forgot_ip" (clientIp c.ctx.request)
    c.ctx.clock with ⟨limiter, _ | exception⟩
  · have hemail : App.enforce env c.ctx { app with limiter } "forgot_email"
        (normalizeEmail env.lower c.body.email) =
        ({ app with limiter := (enforce env.rateLimitEnabled limiter "forgot_email"
            (normalizeEmail env.lower c.body.email) c.ctx.clock).1 },
          (enforce env.rateLimitEnabled limiter "forgot_email"
            (normalizeEmail env.lower c.body.email) c.ctx.clock).2) := rfl
    dsimp only
    rw [hemail]
    rcases enforce env.rateLimitEnabled limiter "forgot_email"
      (normalizeEmail env.lower c.body.email) c.ctx.clock with ⟨limiter', _ | exception⟩
    · dsimp only [forgotIssue]
      cases getUserByEmail env.lower app.db (normalizeEmail env.lower c.body.email) with
      | none => rfl
      | some user =>
        dsimp only
        rcases issueEmailToken env c.ctx app.db user .passwordReset env.passwordResetTtlMinutes with
          ⟨db, _ | mail⟩ <;> rfl
    · rfl
  · rfl

section Draws

variable {db : Accounts} {c : ForgotCall} {calls : List ForgotCall}

theorem Drawn.fresh (h : Drawn env db (c :: calls)) :
    c.ctx.tokenId ∉ db.tokens.rows.map EmailToken.id ∧
      env.hashEmailToken c.ctx.rawToken ∉ db.tokens.rows.map EmailToken.tokenHash :=
  ⟨fun hmem => List.disjoint_of_nodup_append h.ids hmem List.mem_cons_self,
    fun hmem => List.disjoint_of_nodup_append h.hashes hmem List.mem_cons_self⟩

theorem Drawn.skip (h : Drawn env db (c :: calls)) : Drawn env db calls :=
  ⟨h.ids.sublist ((List.Sublist.refl _).append (List.sublist_cons_self _ _)),
    h.hashes.sublist ((List.Sublist.refl _).append (List.sublist_cons_self _ _))⟩

theorem Drawn.use {db' : Accounts} (h : Drawn env db (c :: calls))
    (hids : db'.tokens.rows.map EmailToken.id =
      c.ctx.tokenId :: db.tokens.rows.map EmailToken.id)
    (hhashes : db'.tokens.rows.map EmailToken.tokenHash =
      env.hashEmailToken c.ctx.rawToken :: db.tokens.rows.map EmailToken.tokenHash) :
    Drawn env db' calls := by
  constructor
  · rw [hids]
    exact (List.perm_middle.nodup_iff).mp h.ids
  · rw [hhashes]
    exact (List.perm_middle.nodup_iff).mp h.hashes

theorem forgotIssue_drawn (h : Drawn env db (c :: calls)) :
    (∃ mails, (forgotIssue env c db).2 = .ok (genericEmailAck, mails)) ∧
      Drawn env (forgotIssue env c db).1 calls := by
  unfold forgotIssue
  cases huser : getUserByEmail env.lower db (normalizeEmail env.lower c.body.email) with
  | none => exact ⟨⟨[], rfl⟩, h.skip⟩
  | some user =>
    obtain ⟨hid, hhash⟩ := h.fresh
    obtain ⟨db', hissue, -, hrows⟩ := issueEmailToken_of_fresh env
      (List.mem_of_find?_eq_some huser) hid hhash .passwordReset
    have hissue' : issueEmailToken env c.ctx db user .passwordReset env.passwordResetTtlMinutes =
      (db', some _) := hissue
    dsimp only
    rw [hissue']
    refine ⟨⟨_, rfl⟩, h.use ?_ ?_⟩
    · rw [hrows, List.map_cons, invalidateEmailTokens_map _ fun _ _ => rfl]
    · rw [hrows, List.map_cons, invalidateEmailTokens_map _ fun _ _ => rfl]

/-- One request is answered from the counters alone. -/
theorem forgotCall_spec {app : App} (h : Drawn env app.db (c :: calls)) :
    (forgotCall env c app).2.response = forgotResponse (forgotLimits env c app.limiter).2 ∧
      (forgotCall env c app).1.limiter = (forgotLimits env c app.limiter).1 ∧
      Drawn env (forgotCall env c app).1.db calls := by
  obtain ⟨⟨mails, hok⟩, hdrawn⟩ := forgotIssue_drawn h
  unfold forgotCall
  rw [forgotPassword_eq]
  rcases forgotLimits env c app.limiter with ⟨limiter, _ | exception⟩
  · dsimp only
    rw [hok]
    exact ⟨rfl, rfl, hdrawn⟩
  · exact ⟨rfl, rfl, h.skip⟩

end Draws

/-- Two runs over any two databases from the same counters give the same responses. -/
theorem runForgot_responses {app app' : App} (hlimiter : app.limiter = app'.limiter)
    {calls calls' : List ForgotCall} (hsame : List.Forall₂ SameRequest calls calls')
    (hdrawn : Drawn env app.db calls) (hdrawn' : Drawn env app'.db calls') :
    (runForgot env app calls).map ForgotOutcome.response =
      (runForgot env app' calls').map ForgotOutcome.response := by
  induction hsame generalizing app app' with
  | nil => rfl
  | @cons c c' calls calls' hc _ ih =>
    obtain ⟨hresponse, hnext, hrest⟩ := forgotCall_spec hdrawn
    obtain ⟨hresponse', hnext', hrest'⟩ := forgotCall_spec hdrawn'
    have hlimits : forgotLimits env c app.limiter = forgotLimits env c' app'.limiter := by
      rw [hlimiter, forgotLimits_congr hc]
    rw [runForgot, runForgot, List.map_cons, List.map_cons, hresponse, hresponse', hlimits,
      ih (by rw [hnext, hnext', hlimits]) hrest hrest']

/-- Four requests for an address with an account and without one, while the mail server is down in
one of the runs. -/
def forgotCalls (sender : Mail → Option Unit) : List ForgotCall :=
  (List.range 4).map fun k : Nat =>
    { ctx := contextWith k (k + 10) ("link" ++ toString k),
      body := { email := "Owner@example.com" }, sender }

theorem runForgot_responses_owner :
    (runForgot bcryptEnv ⟨Accounts.empty, { lastSweep := 0 }⟩
        (forgotCalls fun _ => some ())).map ForgotOutcome.response =
      (runForgot bcryptEnv ⟨ownerOnly, { lastSweep := 0 }⟩
        (forgotCalls fun _ => none)).map ForgotOutcome.response := by
  refine runForgot_responses (by rfl) ?_ ⟨?_, ?_⟩ ⟨?_, ?_⟩
  · exact .cons ⟨rfl, rfl, rfl⟩ (.cons ⟨rfl, rfl, rfl⟩ (.cons ⟨rfl, rfl, rfl⟩
      (.cons ⟨rfl, rfl, rfl⟩ .nil)))
  all_goals decide +kernel

example : (runForgot bcryptEnv ⟨ownerOnly, { lastSweep := 0 }⟩ (forgotCalls fun _ => none)).map
    (fun outcome => (outcome.response.statusCode, outcome.sent)) =
      [(202, [false]), (202, [false]), (202, [false]), (429, [])] := by
  decide +kernel

end StockQuant
