import StockQuant.AuthRuns
import StockQuant.RateLimitWindow

/-! The client address behind the proxy: what a client writes into `X-Forwarded-For` is noise
to the left of it. -/

namespace StockQuant

structure Peer where
  address : String
  nonempty : address ≠ ""
  no_comma : ',' ∉ address.toList
  trimmed : strip address = address

/-- The request that the proxy passes on, with the peer after what the client sent. -/
def Peer.forwarded (peer : Peer) (proxyHost header : Option String) : Request where
  forwardedFor :=
    match header with
    | none => some peer.address
    | some sent => some (sent ++ ", " ++ peer.address)
  clientHost := proxyHost

section Address

variable {peer : Peer}

theorem strip_cons_space {cs : List Char} :
    strip (String.ofList (' ' :: cs)) = strip (String.ofList cs) := by
  unfold strip
  rw [String.toList_ofList, String.toList_ofList, List.dropWhile_cons_of_pos (by decide)]

theorem splitOn_of_no_comma {cs : List Char} (h : ',' ∉ cs) : cs.splitOn ',' = [cs] := by
  rw [List.splitOn_eq_splitOnP]
  refine List.splitOnP_eq_singleton fun c hc => beq_false_of_ne ?_
  rintro rfl
  exact h hc

/-- The last piece is the peer, whatever comes before it. -/
theorem Peer.splitOn_forwarded (peer : Peer) (sent : String) :
    (sent ++ ", " ++ peer.address).toList.splitOn ',' =
      sent.toList.splitOn ',' ++ [' ' :: peer.address.toList] := by
  have hcomma : (sent ++ ", " ++ peer.address).toList =
      sent.toList ++ ',' :: ' ' :: peer.address.toList := by
    simp
  have hlast : (' ' :: peer.address.toList).splitOn ',' = [' ' :: peer.address.toList] :=
    splitOn_of_no_comma fun hc => peer.no_comma (List.mem_of_ne_of_mem (by decide) hc)
  rw [hcomma, List.splitOn_eq_splitOnP, List.splitOn_eq_splitOnP,
    List.splitOnP_append_cons _ _ (by simp), ← List.splitOn_eq_splitOnP,
    ← List.splitOn_eq_splitOnP, hlast]

theorem clientIp_of_parts {request : Request} (parts : List String) {address : String}
    (hparts : ((request.forwardedFor.getD "").toList.splitOn ',').map (strip ∘ String.ofList) =
      parts ++ [address]) (hne : address ≠ "") : clientIp request = address := by
  have hkept : [address].filter (· ≠ "") = [address] := by simp [hne]
  unfold clientIp
  dsimp only
  rw [hparts, List.filter_append, hkept, List.getLast?_append_of_ne_nil _ (by simp)]
  rfl

theorem clientIp_forwarded (peer : Peer) (proxyHost header : Option String) :
    clientIp (peer.forwarded proxyHost header) = peer.address := by
  have hself : strip (String.ofList peer.address.toList) = peer.address := by
    rw [String.ofList_toList, peer.trimmed]
  cases header with
  | none =>
    refine clientIp_of_parts [] ?_ peer.nonempty
    change (peer.address.toList.splitOn ',').map (strip ∘ String.ofList) = [peer.address]
    rw [splitOn_of_no_comma peer.no_comma, List.map_singleton, Function.comp_apply, hself]
  | some sent =>
    refine clientIp_of_parts ((sent.toList.splitOn ',').map (strip ∘ String.ofList)) ?_
      peer.nonempty
    change ((sent ++ ", " ++ peer.address).toList.splitOn ',').map (strip ∘ String.ofList) = _
    rw [peer.splitOn_forwarded, List.map_append, List.map_singleton, Function.comp_apply,
      strip_cons_space, hself]

end Address

/-- A call of the limiter, for the client address where no other identifier is counted. -/
structure ProxiedCall where
  bucket : String
  identifier : Option String
  peer : Peer
  proxyHost : Option String
  now : ℚ

def ProxiedCall.enforced (call : ProxiedCall) (header : Option String) : EnforceCall where
  bucket := call.bucket
  identifier := call.identifier.getD (clientIp (call.peer.forwarded call.proxyHost header))
  now := call.now

structure ProxiedRequest (Tok : Type) where
  request : AuthRequest Tok
  peer : Peer
  proxyHost : Option String

def ProxiedRequest.sent {Tok : Type} (r : ProxiedRequest Tok) (header : Option String) :
    AuthRequest Tok where
  ctx := { r.request.ctx with request := r.peer.forwarded r.proxyHost header }
  call := r.request.call

section Runs

variable {Tok : Type} (env : Env Tok)

section Context

variable {ctx : Context} {request : Request} (h : clientIp request = clientIp ctx.request)
  (app : App)
include h

theorem register_of_clientIp (body : RegisterRequest) :
    register env { ctx with request } body app = register env ctx body app := by
  unfold register
  dsimp only
  rw [h]
  rfl

theorem loginUser_of_clientIp (body : LoginRequest) :
    loginUser env { ctx with request } body app = loginUser env ctx body app := by
  unfold loginUser
  dsimp only
  rw [h]
  rfl

theorem forgotPassword_of_clientIp (body : ForgotPasswordRequest) :
    forgotPassword env { ctx with request } body app = forgotPassword env ctx body app := by
  unfold forgotPassword
  dsimp only
  rw [h]
  rfl

/-- The endpoints read nothing of a request but the client address. -/
theorem answer_of_clientIp (call : AuthCall Tok) :
    answer env { ctx with request } app call = answer env ctx app call := by
  cases call with
  | register body => exact congrArg (Prod.map _ _) (register_of_clientIp env h app body)
  | checkLogin body => exact congrArg (Prod.map _ _) (loginUser_of_clientIp env h app body)
  | forgotPassword body => exact congrArg (Prod.map _ _) (forgotPassword_of_clientIp env h app body)
  | answerLogin | verifyEmail | resendVerification | resetPassword | me => rfl

theorem checkedAfter_of_clientIp (checked : List (Nat × User)) {log log' : List (Answered Tok)}
    (hlength : log.length = log'.length) (call : AuthCall Tok) :
    AuthState.checkedAfter env ⟨app, checked, log⟩ { ctx := { ctx with request }, call } =
      AuthState.checkedAfter env ⟨app, checked, log'⟩ { ctx, call } := by
  cases call with
  | checkLogin body =>
    unfold AuthState.checkedAfter
    dsimp only
    rw [loginUser_of_clientIp env h, hlength]
  | _ => rfl

theorem answered_of_clientIp (checked : List (Nat × User)) {log log' : List (Answered Tok)}
    (hlength : log.length = log'.length) (call : AuthCall Tok) :
    let answered := AuthState.answered env ⟨app, checked, log⟩ { ctx := { ctx with request }, call }
    let answered' := AuthState.answered env ⟨app, checked, log'⟩ { ctx, call }
    (answered.result, answered.readAt) = (answered'.result, answered'.readAt) := by
  cases call with
  | answerLogin k =>
    unfold AuthState.answered
    dsimp only
    cases checked[k]? with
    | none => rw [hlength]
    | some found => rfl
  | _ =>
    unfold AuthState.answered
    dsimp only
    rw [answer_of_clientIp env h, hlength]

end Context

/-- Two states that are the same but for the requests in their logs. -/
structure SameAnswers (s s' : AuthState Tok) : Prop where
  app : s.app = s'.app
  checked : s.checked = s'.checked
  answers : s.log.map (fun a => (a.result, a.readAt)) = s'.log.map fun a => (a.result, a.readAt)

theorem SameAnswers.handle {s s' : AuthState Tok} (h : SameAnswers s s') (r : ProxiedRequest Tok)
    (header header' : Option String) :
    SameAnswers (s.handle env (r.sent header)) (s'.handle env (r.sent header')) := by
  obtain ⟨app, checked, log⟩ := s
  obtain ⟨app', checked', log'⟩ := s'
  obtain ⟨rfl, rfl, hanswers⟩ := h
  have hlength : log.length = log'.length := by simpa using congrArg List.length hanswers
  have hsame : clientIp (r.peer.forwarded r.proxyHost header) =
      clientIp (r.sent header').ctx.request := by
    change _ = clientIp (r.peer.forwarded r.proxyHost header')
    rw [clientIp_forwarded, clientIp_forwarded]
  refine ⟨?_, checkedAfter_of_clientIp env hsame app checked hlength r.request.call, ?_⟩
  · exact congrArg Prod.fst (answer_of_clientIp env hsame app r.request.call)
  · have hanswered := answered_of_clientIp env hsame app checked hlength r.request.call
    unfold AuthState.handle
    rw [List.map_append, List.map_append]
    exact congr (congrArg _ hanswers) (congrArg (fun a => [a]) hanswered)

/-- A client does not choose its address, and so neither the counters it is counted on nor any
answer. -/
theorem clientIp_unforgeable (env : Env Tok) :
    (∀ (peer : Peer) (proxyHost header : Option String),
      clientIp (peer.forwarded proxyHost header) = peer.address) ∧
    (∀ limiter (calls : List (ProxiedCall × Option String × Option String)),
      enforceCalls limiter (calls.map fun c => c.1.enforced c.2.1) =
        enforceCalls limiter (calls.map fun c => c.1.enforced c.2.2)) ∧
    ∀ s (requests : List (ProxiedRequest Tok × Option String × Option String)),
      SameAnswers (runAuth env s (requests.map fun r => r.1.sent r.2.1))
        (runAuth env s (requests.map fun r => r.1.sent r.2.2)) := by
  refine ⟨clientIp_forwarded, fun limiter calls => ?_, fun s requests => ?_⟩
  · refine congrArg _ (List.map_congr_left fun c _ => ?_)
    unfold ProxiedCall.enforced
    rw [clientIp_forwarded, clientIp_forwarded]
  · induction requests using List.reverseRecOn with
    | nil => exact ⟨rfl, rfl, rfl⟩
    | append_singleton requests r ih =>
      rw [List.map_append, List.map_append, List.map_singleton, List.map_singleton, runAuth_snoc,
        runAuth_snoc]
      exact ih.handle env r.1 r.2.1 r.2.2

end Runs

def attacker : Peer where
  address := "203.0.113.7"
  nonempty := by decide
  no_comma := by decide
  trimmed := by decide

/-- Six accounts within the hour that admits five. -/
def attackerRequests : List (ProxiedRequest Payload) :=
  (List.range 6).map fun (k : Nat) =>
    { request :=
        { ctx := { plainContext k with
            userId := k + 1
            tokenId := k + 1
            rawToken := "link" ++ toString k }
          call := .register { ownerRegistration with email := toString k ++ "@example.com" } }
      peer := attacker
      proxyHost := some "10.0.0.2" }

/-- A new forged address in each header, and no header at all. -/
def forgedHeaders : List (Option String × Option String) :=
  (List.range 6).map fun k => (some ("198.51.100." ++ toString k ++ ", 127.0.0.1"), none)

theorem clientIp_unforgeable_attacker :
    let requests := attackerRequests.zip forgedHeaders
    let calls := requests.map fun r =>
      (ProxiedCall.mk "register_ip" none r.1.peer r.1.proxyHost r.1.request.ctx.clock, r.2)
    let limiter : SlidingWindowLimiter := { lastSweep := 0 }
    let forged := enforceCalls limiter (calls.map fun c => c.1.enforced c.2.1)
    let run := runAuth plainEnv { app := freshApp } (requests.map fun r => r.1.sent r.2.1)
    clientIp (attacker.forwarded (some "10.0.0.2") (some "198.51.100.1, 127.0.0.1")) =
        "203.0.113.7" ∧
      forged.2.map (·.2.isSome) = [false, false, false, false, false, true] ∧
      forged = enforceCalls limiter (calls.map fun c => c.1.enforced c.2.2) ∧
      run.app.db.users.rows.length = 5 ∧
      SameAnswers run (runAuth plainEnv { app := freshApp } (requests.map fun r => r.1.sent r.2.2)) := by
  intro requests calls limiter forged run
  obtain ⟨haddress, hcalls, hruns⟩ := clientIp_unforgeable plainEnv
  exact ⟨haddress attacker _ _, by decide +kernel, hcalls limiter calls, by decide +kernel,
    hruns _ requests⟩

end StockQuant
