import Mathlib.Algebra.Order.Ring.Rat
import Mathlib.Data.List.DropRight
import Mathlib.Data.Rat.Floor

/-! The in-process rate limiter of the auth endpoints. Times are exact seconds of
the monotonic clock. -/

namespace StockQuant

structure Rule where
  limit : Nat
  windowSeconds : Nat
  limit_pos : 0 < limit
  deriving DecidableEq

def rules : List (String × Rule) :=
  [("login_ip", ⟨10, 15 * 60, by decide⟩),
    ("login_email", ⟨10, 15 * 60, by decide⟩),
    ("register_ip", ⟨5, 60 * 60, by decide⟩),
    ("forgot_ip", ⟨10, 60 * 60, by decide⟩),
    ("forgot_email", ⟨3, 60 * 60, by decide⟩),
    ("resend_user", ⟨3, 60 * 60, by decide⟩)]

def truncate (x : ℚ) : Int := if 0 ≤ x then ⌊x⌋ else ⌈x⌉

structure SlidingWindowLimiter where
  hits : String → Option (List ℚ) := fun _ => none
  lastSweep : ℚ

def sweepInterval : ℚ := 600

def widestWindow : Nat := (rules.map (·.2.windowSeconds)).max?.getD 3600

def drained (cutoff : ℚ) (hits : List ℚ) : Bool :=
  match hits.getLast? with
  | none => true
  | some last => last ≤ cutoff

def SlidingWindowLimiter.maybeSweep (limiter : SlidingWindowLimiter) (now : ℚ) :
    SlidingWindowLimiter :=
  if now - limiter.lastSweep < sweepInterval then limiter
  else
    { hits := fun key => (limiter.hits key).filter (!drained (now - widestWindow) ·)
      lastSweep := now }

/-- Records an attempt: whether it is allowed, and after how many seconds to
retry. -/
def SlidingWindowLimiter.check (limiter : SlidingWindowLimiter) (key : String) (rule : Rule)
    (now : ℚ) : SlidingWindowLimiter × Bool × Int :=
  let limiter := limiter.maybeSweep now
  let hits := ((limiter.hits key).getD []).dropWhile (· ≤ now - rule.windowSeconds)
  if h : rule.limit ≤ hits.length then
    let first := hits.head (List.ne_nil_of_length_pos (rule.limit_pos.trans_le h))
    let retryAfter := truncate (first + rule.windowSeconds - now) + 1
    ({ limiter with hits := Function.update limiter.hits key (some hits) }, false,
      max retryAfter 1)
  else
    ({ limiter with hits := Function.update limiter.hits key (some (hits ++ [now])) }, true, 0)

structure HTTPException where
  statusCode : Nat
  detail : String
  headers : List (String × String) := []
  deriving DecidableEq

def tooManyRequests (retryAfter : Int) : HTTPException where
  statusCode := 429
  detail := "Too many requests. Please try again later."
  headers := [("Retry-After", toString retryAfter)]

def limitKey (bucket identifier : String) : String := bucket ++ ":" ++ identifier

def enforce (enabled : Bool) (limiter : SlidingWindowLimiter) (bucket identifier : String)
    (now : ℚ) : SlidingWindowLimiter × Option HTTPException :=
  if !enabled then (limiter, none)
  else
    match rules.lookup bucket with
    | none => (limiter, none)
    | some rule =>
      match limiter.check (limitKey bucket identifier) rule now with
      | (limiter, true, _) => (limiter, none)
      | (limiter, false, retryAfter) => (limiter, some (tooManyRequests retryAfter))

def isSpace (c : Char) : Bool :=
  c.toNat ∈ [0x20, 0x85, 0xa0, 0x1680, 0x2028, 0x2029, 0x202f, 0x205f, 0x3000] ||
    (0x09 ≤ c.toNat && c.toNat ≤ 0x0d) || (0x1c ≤ c.toNat && c.toNat ≤ 0x1f) ||
    (0x2000 ≤ c.toNat && c.toNat ≤ 0x200a)

def strip (s : String) : String :=
  String.ofList ((s.toList.dropWhile isSpace).rdropWhile isSpace)

/-- What the limiter reads of a request: its `X-Forwarded-For` header and the peer
address. -/
structure Request where
  forwardedFor : Option String := none
  clientHost : Option String
  deriving DecidableEq

def clientIp (request : Request) : String :=
  let parts := ((request.forwardedFor.getD "").toList.splitOn ',').map (strip ∘ String.ofList)
  match (parts.filter (· ≠ "")).getLast? with
  | some ip => ip
  | none => request.clientHost.getD "unknown"

end StockQuant
