import Mathlib.Data.Rat.Floor
import TestExchange.Rate.Window

/-!
# The rate limiter

`FixedWindowRateLimiter`: one dictionary of windows for all keys, a counter of
calls since it was last cleaned up, and `consume`, which cleans up when a
thousand calls have passed, finds or opens the key's window, counts the call and
reports what is left. Its lock makes each call one step.

Times are exact here, as rationals. The configured length is an `int`, but
nothing the limiter does depends on that.
-/

namespace TestExchange

structure RateLimitResult where
  allowed : Bool
  limit : Int
  remaining : Int
  retryAfter : Int
  deriving DecidableEq

/-- `_Window`: `started_at` and `requests`. -/
abbrev RateWindow := Rate.Window ℚ

structure FixedWindowRateLimiter where
  windowSeconds : ℚ
  windows : String → Option RateWindow
  requestsSinceCleanup : Nat

namespace FixedWindowRateLimiter

/-- `FixedWindowRateLimiter(window_seconds)` -/
def new (windowSeconds : ℚ) : FixedWindowRateLimiter where
  windowSeconds := windowSeconds
  windows _ := none
  requestsSinceCleanup := 0

/-- Count a call, and on every thousandth keep only the windows that started after the cutoff. -/
def cleanup (limiter : FixedWindowRateLimiter) (currentTime : ℚ) : FixedWindowRateLimiter :=
  let requestsSinceCleanup := limiter.requestsSinceCleanup + 1
  if 1000 ≤ requestsSinceCleanup then
    let cutoff := currentTime - limiter.windowSeconds
    { limiter with
      windows := fun windowKey =>
        (limiter.windows windowKey).filter fun window => cutoff < window.startedAt
      requestsSinceCleanup := 0 }
  else { limiter with requestsSinceCleanup }

/-- The key's window, or a new one if there is none or its time is up. -/
def currentWindow (limiter : FixedWindowRateLimiter) (key : String) (currentTime : ℚ) :
    RateWindow :=
  match limiter.windows key with
  | none => ⟨currentTime, 0⟩
  | some window =>
      if limiter.windowSeconds ≤ currentTime - window.startedAt then ⟨currentTime, 0⟩ else window

/-- What a call is told about the window it was counted in. -/
def result (windowSeconds : ℚ) (limit : Int) (currentTime : ℚ) (window : RateWindow) :
    RateLimitResult where
  allowed := (window.requests : Int) ≤ limit
  limit := limit
  remaining := max (limit - window.requests) 0
  retryAfter := max 1 ⌈windowSeconds - (currentTime - window.startedAt)⌉

def consume (limiter : FixedWindowRateLimiter) (key : String) (limit : Int) (currentTime : ℚ) :
    RateLimitResult × FixedWindowRateLimiter :=
  let limiter := limiter.cleanup currentTime
  let window := limiter.currentWindow key currentTime
  let window := { window with requests := window.requests + 1 }
  (result limiter.windowSeconds limit currentTime window,
    { limiter with windows := Function.update limiter.windows key (some window) })

end FixedWindowRateLimiter

/-- The arguments of one `consume`. -/
structure ConsumeCall where
  key : String
  limit : Int
  now : ℚ

/-- The limiter after the listed calls. -/
def FixedWindowRateLimiter.after (limiter : FixedWindowRateLimiter) (calls : List ConsumeCall) :
    FixedWindowRateLimiter :=
  calls.foldl (fun limiter call => (limiter.consume call.key call.limit call.now).2) limiter

/-- The answer to each call of a list, with the call. -/
def FixedWindowRateLimiter.log (limiter : FixedWindowRateLimiter) :
    List ConsumeCall → List (ConsumeCall × RateLimitResult)
  | [] => []
  | call :: calls =>
      let (result, limiter) := limiter.consume call.key call.limit call.now
      (call, result) :: limiter.log calls

/-! ## The middleware -/

/-- The settings the middleware reads. -/
structure RateLimitSettings where
  rateLimitEnabled : Bool := true
  rateLimitReadRequests : Nat := 120
  rateLimitWriteRequests : Nat := 30

/-- What the middleware looks at in a request. -/
structure IncomingRequest where
  method : String
  path : String
  clientHost : Option String

/-- `_request_identity` -/
def requestIdentity (request : IncomingRequest) : String :=
  "ip:" ++ request.clientHost.getD "unknown"

/-- The requests the middleware lets pass without counting. -/
def isExempt (settings : RateLimitSettings) (request : IncomingRequest) : Bool :=
  !settings.rateLimitEnabled || request.method ∈ ["OPTIONS", "HEAD"]
    || request.path ∈ ["/health", "/ready", "/docs", "/openapi.json", "/redoc"]

/-- The call of `dispatch` to the limiter, for a request that is counted. -/
def dispatchCall (settings : RateLimitSettings) (request : IncomingRequest) (now : ℚ) :
    Option ConsumeCall :=
  if isExempt settings request then none
  else
    let isWrite := request.method ≠ "GET"
    let limit := if isWrite then settings.rateLimitWriteRequests else settings.rateLimitReadRequests
    let scope := if isWrite then "write" else "read"
    some ⟨s!"{requestIdentity request}:{scope}", limit, now⟩

end TestExchange
