import StockQuant.RecordRuns
import StockQuant.SessionTokens

/-! The service for its users: the auth endpoints, and the records that their sessions open. -/

namespace StockQuant

open KeyedTable LastWrite

variable {Tok : Type}

/-- A request to the auth endpoints, or one for records with the bearer token that it brings. -/
inductive ServiceRequest (Tok : Type) where
  | auth (r : AuthRequest Tok)
  | records (credentials : Option Tok) (now : ℚ) (call : RecordCall)

/-- A request for records, the user it was taken for, and how many answers of the auth endpoints
came before it. -/
structure ServedRequest (Tok : Type) where
  credentials : Option Tok
  now : ℚ
  call : RecordCall
  answeredBefore : Nat
  user : Option Uuid
  reply : Except HTTPException RecordReply

structure Service (Tok : Type) where
  auth : AuthState Tok
  records : RecordTable := ∅
  served : List (ServedRequest Tok) := []

section Handlers

variable {L : Type} [LinearOrder L] (env : Env Tok) (collation : String ↪ L)

def Service.serve (s : Service Tok) (credentials : Option Tok) (now : ℚ) (call : RecordCall) :
    Service Tok :=
  let served (user : Option Uuid) (reply : Except HTTPException RecordReply) :
      List (ServedRequest Tok) :=
    s.served ++ [{ credentials, now, call, answeredBefore := s.auth.log.length, user, reply }]
  match getCurrentUser env s.auth.app.db credentials now with
  | .error exception => { s with served := served none (.error exception) }
  | .ok user =>
    let answered := answerRecord collation s.records { userId := user.id, now, call }
    { s with records := answered.1, served := served (some user.id) (.ok answered.2) }

def Service.handle (s : Service Tok) : ServiceRequest Tok → Service Tok
  | .auth r => { s with auth := s.auth.handle env r }
  | .records credentials now call => s.serve env collation credentials now call

def runService (app : App) (requests : List (ServiceRequest Tok)) : Service Tok :=
  requests.foldl (Service.handle env collation) { auth := { app } }

theorem runService_snoc (app : App) (requests : List (ServiceRequest Tok)) (r : ServiceRequest Tok) :
    runService env collation app (requests ++ [r]) =
      (runService env collation app requests).handle env collation r := by
  simp [runService]

end Handlers

/-- The records request that was answered, when it was taken for a user. -/
def ServedRequest.answered (r : ServedRequest Tok) : Option (RecordRequest × RecordReply) :=
  match r.user, r.reply with
  | some userId, .ok reply => some ({ userId, now := r.now, call := r.call }, reply)
  | _, _ => none

/-- The request brought a token that had been handed out for the user, that has not expired, and
since the row behind it was read the user's password was not reset. -/
def ServedRequest.Speaks (env : Env Tok) (log : List (Answered Tok)) (r : ServedRequest Tok)
    (userId : Uuid) : Prop :=
  ∃ a ∈ log.take r.answeredBefore, ∃ response, a.minted = some response ∧
    r.credentials = some response.token ∧ response.user.id = userId ∧
      a.Live env (log.take r.answeredBefore) r.now userId

/-- At no request for records has the clock run back, or does a token decode that was not handed
out before. -/
def HandedOut (env : Env Tok) (s : Service Tok) : ServiceRequest Tok → Prop
  | .auth _ => True
  | .records credentials now _ =>
    (∀ a ∈ s.auth.log, a.request.ctx.now ≤ now) ∧
    ∀ token, credentials = some token → env.decode token now ≠ none →
      ∃ a ∈ s.auth.log, ∃ response, a.minted = some response ∧ response.token = token

section Step

variable {L : Type} [LinearOrder L] {env : Env Tok} {collation : String ↪ L} {s : Service Tok}

theorem getCurrentUser_speaks (hjwt : DecodesEncoded env)
    (h : Sessions env s.auth.app.db s.auth.checked s.auth.log) {credentials : Option Tok} {now : ℚ}
    {call : RecordCall} (hhanded : HandedOut env s (.records credentials now call)) (userId : Uuid) :
    (∃ row, getCurrentUser env s.auth.app.db credentials now = .ok row ∧ row.id = userId) ↔
      ∃ a ∈ s.auth.log, ∃ response, a.minted = some response ∧
        credentials = some response.token ∧ response.user.id = userId ∧
          a.Live env s.auth.log now userId := by
  obtain ⟨hnow, hforged⟩ := hhanded
  constructor
  · rintro ⟨row, hrow, hid⟩
    cases credentials with
    | none => cases hrow
    | some token =>
      obtain ⟨payload, hdecode, -⟩ := getCurrentUser_eq_ok_iff.mp hrow
      obtain ⟨a, ha, response, hminted, rfl⟩ := hforged token rfl (by simp [hdecode])
      exact ⟨a, ha, response, hminted, rfl,
        (h.accepted_iff hjwt ha hminted (hnow a ha) userId).mp ⟨row, hrow, hid⟩⟩
  · rintro ⟨a, ha, response, hminted, rfl, hlive⟩
    exact (h.accepted_iff hjwt ha hminted (hnow a ha) userId).mpr hlive

/-- What was served, against the answers of the auth endpoints and against a run of the records
endpoints alone. -/
structure ServedOwners (env : Env Tok) (collation : String ↪ L) (s : Service Tok) : Prop where
  sessions : Sessions env s.auth.app.db s.auth.checked s.auth.log
  past : ∀ r ∈ s.served, r.answeredBefore ≤ s.auth.log.length
  speaks : ∀ r ∈ s.served, ∀ userId, r.user = some userId ↔ r.Speaks env s.auth.log userId
  refused : ∀ r ∈ s.served, r.user = none → r.reply = .error credentialsException
  answered : (s.records, s.served.filterMap ServedRequest.answered) =
    runRecords collation ∅ ((s.served.filterMap ServedRequest.answered).map Prod.fst)

theorem ServedOwners.auth (h : ServedOwners env collation s) (r : AuthRequest Tok) :
    ServedOwners env collation { s with auth := s.auth.handle env r } where
  sessions := h.sessions.handle r
  past served hserved := by
    have hpast := h.past served hserved
    simp only [AuthState.handle, List.length_append]
    omega
  speaks served hserved userId := by
    rw [h.speaks served hserved]
    unfold ServedRequest.Speaks AuthState.handle
    rw [List.take_append_of_le_length (h.past served hserved)]
  refused := h.refused
  answered := h.answered

/-- One request for records more. -/
theorem ServedOwners.snoc (h : ServedOwners env collation s) {records : RecordTable}
    {r : ServedRequest Tok} (hpast : r.answeredBefore = s.auth.log.length)
    (hspeaks : ∀ userId, r.user = some userId ↔ r.Speaks env s.auth.log userId)
    (hrefused : r.user = none → r.reply = .error credentialsException)
    (hanswered : (records, s.served.filterMap ServedRequest.answered ++ r.answered.toList) =
      runRecords collation ∅
        ((s.served.filterMap ServedRequest.answered ++ r.answered.toList).map Prod.fst)) :
    ServedOwners env collation { s with records, served := s.served ++ [r] } := by
  have hall {p : ServedRequest Tok → Prop} (hserved : ∀ r ∈ s.served, p r) (hr : p r) :
      ∀ r' ∈ s.served ++ [r], p r' := by
    simpa [or_imp, forall_and] using ⟨hserved, hr⟩
  have hone : [r].filterMap ServedRequest.answered = r.answered.toList := by
    cases h : r.answered <;> simp [h]
  refine ⟨h.sessions, hall h.past hpast.le, hall h.speaks hspeaks, hall h.refused hrefused, ?_⟩
  rw [List.filterMap_append, hone]
  exact hanswered

theorem ServedOwners.serve (hjwt : DecodesEncoded env) (h : ServedOwners env collation s)
    {credentials : Option Tok} {now : ℚ} {call : RecordCall}
    (hhanded : HandedOut env s (.records credentials now call)) :
    ServedOwners env collation (s.serve env collation credentials now call) := by
  have hspeaks := getCurrentUser_speaks hjwt h.sessions hhanded
  unfold Service.serve
  rw [← List.take_length (l := s.auth.log)] at hspeaks
  cases huser : getCurrentUser env s.auth.app.db credentials now with
  | error exception =>
    refine h.snoc rfl (fun userId => ?_) (fun _ => ?_)
      (by simpa [ServedRequest.answered] using h.answered)
    · rw [ServedRequest.Speaks, ← hspeaks, huser]
      simp
    · have hexception : getCurrentUser env s.auth.app.db credentials now =
          .error credentialsException := getCurrentUser_eq_error (by simp [huser])
      rw [huser] at hexception
      obtain rfl := Except.error.inj hexception
      rfl
  | ok user =>
    refine h.snoc rfl (fun userId => ?_) (by simp) ?_
    · rw [ServedRequest.Speaks, ← hspeaks, huser]
      simp
    · have hrun := h.answered
      simp only [ServedRequest.answered, Option.toList_some, List.map_append, List.map_singleton]
      rw [runRecords_snoc, ← hrun]

end Step

section Runs

variable {L : Type} [LinearOrder L] {env : Env Tok} {collation : String ↪ L} {app : App}
  {requests : List (ServiceRequest Tok)}

theorem servedOwners_run (hjwt : DecodesEncoded env) (husers : app.db.users.rows = [])
    (hhanded : ∀ earlier r, earlier ++ [r] <+: requests →
      HandedOut env (runService env collation app earlier) r) :
    ServedOwners env collation (runService env collation app requests) := by
  induction requests using List.reverseRecOn with
  | nil => exact ⟨sessions_start husers, by simp [runService], by simp [runService],
      by simp [runService], rfl⟩
  | append_singleton requests r ih =>
    have hbefore := ih fun earlier r' hr' =>
      hhanded earlier r' (hr'.trans (List.prefix_append requests [r]))
    rw [runService_snoc]
    cases r with
    | auth r => exact hbefore.auth r
    | records credentials now call =>
      exact hbefore.serve hjwt (hhanded requests _ List.prefix_rfl)

/-- A request for records is taken for the user for whom its token was handed out, as long as the
session lives. A user then has the records that these requests wrote, and is answered as if there
were no others. -/
theorem runService_owned (hjwt : DecodesEncoded env) (husers : app.db.users.rows = [])
    (hhanded : ∀ earlier r, earlier ++ [r] <+: requests →
      HandedOut env (runService env collation app earlier) r) :
    let s := runService env collation app requests
    (∀ r ∈ s.served, (∀ userId, r.user = some userId ↔ r.Speaks env s.auth.log userId) ∧
      (r.user = none → r.reply = .error credentialsException)) ∧
    ∀ userId,
      let own := (s.served.filterMap ServedRequest.answered).filter (·.1.userId = userId)
      own = (runRecords collation ∅ (own.map Prod.fst)).2 ∧
      ∀ record, record ∈ listRecords collation s.records userId ↔
        written (fun _ => none) (writesOf (own.map Prod.fst) userId)
          (record.marketCode, record.symbol) = some record := by
  intro s
  have hserved : ServedOwners env collation s := servedOwners_run hjwt husers hhanded
  refine ⟨fun r hr => ⟨hserved.speaks r hr, hserved.refused r hr⟩, fun userId => ?_⟩
  let entries := s.served.filterMap ServedRequest.answered
  have hrun : (s.records, entries) = runRecords collation ∅ (entries.map Prod.fst) :=
    hserved.answered
  have hown : (entries.filter (·.1.userId = userId)).map Prod.fst =
      (entries.map Prod.fst).filter (·.userId = userId) := by
    rw [List.filter_map]
    rfl
  dsimp only
  constructor
  · rw [hown, ← log_filter, ← hrun]
  · intro record
    rw [hown, writesOf_filter, mem_listRecords, show s.records = _ from congrArg Prod.fst hrun,
      ownRecords_runRecords]
    rfl

end Runs

/-- Two requests with the session of a registration, the second of which comes too late. -/
def registeredSession : List (ServiceRequest Payload) :=
  [.auth { ctx := contextWith 0 1 "welcome", call := .register ownerRegistration },
    .records (some (ownerToken 0 0)) 10 (.put "TWSE" "2330" { targetPrice := some 1000 }),
    .records (some (ownerToken 0 0)) 86400 (.delete "TWSE" "2330")]

def registeredService (n : Nat) : Service Payload :=
  runService plainEnv (Function.Embedding.refl String) freshApp (registeredSession.take n)

theorem handedOut_registered {n : Nat} (hn : n = 1 ∨ n = 2) {now : ℚ} (hnow : 0 ≤ now)
    (call : RecordCall) :
    HandedOut plainEnv (registeredService n) (.records (some (ownerToken 0 0)) now call) := by
  have htimes : (registeredService n).auth.log.map (·.request.ctx.now) = [0] := by
    rcases hn with rfl | rfl <;> decide +kernel
  have htoken : (registeredService n).auth.log[0]?.bind Answered.minted =
      some { token := ownerToken 0 0, user := ownerOut false } := by
    rcases hn with rfl | rfl <;> decide +kernel
  constructor
  · intro a ha
    have htime : a.request.ctx.now ∈ [0] := htimes ▸ List.mem_map.mpr ⟨a, ha, rfl⟩
    rwa [List.mem_singleton.mp htime]
  · rintro token ⟨⟩ -
    obtain ⟨a, ha, hminted⟩ := Option.bind_eq_some_iff.mp htoken
    exact ⟨a, List.mem_of_getElem? ha, _, hminted, rfl⟩

theorem runService_owned_late :
    { userId := 1, marketCode := "TWSE", symbol := "2330", targetPrice := some 1000,
      updatedAt := 10 } ∈
        listRecords (Function.Embedding.refl String) (registeredService 3).records 1 := by
  refine ((runService_owned decodesEncoded_plainEnv rfl fun earlier r hr => ?_).2 1).2 _ |>.mpr
    (by decide +kernel)
  rcases earlier with _ | ⟨first, _ | ⟨second, _ | ⟨third, earlier⟩⟩⟩
  · obtain rfl := (List.cons_prefix_cons.mp hr).1
    trivial
  · obtain ⟨rfl, hnext⟩ := List.cons_prefix_cons.mp hr
    obtain rfl := (List.cons_prefix_cons.mp hnext).1
    exact handedOut_registered (Or.inl rfl) (by decide) _
  · obtain ⟨rfl, hnext⟩ := List.cons_prefix_cons.mp hr
    obtain ⟨rfl, hlast⟩ := List.cons_prefix_cons.mp hnext
    obtain rfl := (List.cons_prefix_cons.mp hlast).1
    exact handedOut_registered (Or.inr rfl) (by decide) _
  · have hlong := hr.length_le
    have hthree : (registeredSession.take 3).length = 3 := by decide
    rw [hthree, List.length_append] at hlong
    simp only [List.length_cons] at hlong
    omega

end StockQuant
