import Goodmoneying.Library.SlidingWindow
import Mathlib.Algebra.Order.Field.Rat

/-!
# The message limiter of the gateway

`WebSocketRateLimiter` of `websocket_protocol.py`: at most `per_second` grants in a second and at
most `per_minute` in a minute, both answered from one queue. Instants and durations are exact
numbers of seconds. The lock is held for one pass of the loop of `acquire`, so a pass is a step; a
caller that was told to sleep takes its next pass whenever it wakes.
-/

namespace Goodmoneying.Program.WebSocket

/-- A `WebSocketRateLimiter`. -/
structure WebSocketRateLimiter where
  perSecond : ℕ
  perMinute : ℕ
  calls : List ℚ
  deriving DecidableEq, Repr

/-- `WebSocketRateLimiter.__init__`. -/
def WebSocketRateLimiter.init (perSecond perMinute : ℕ) : WebSocketRateLimiter where
  perSecond := perSecond
  perMinute := perMinute
  calls := []

/-- What a pass of the loop of `acquire` comes to. -/
inductive Pass where
  | granted
  | sleeps (seconds : ℚ)
  | indexError
  deriving DecidableEq, Repr

/-- `waits.append(window - (now - calls[0]))` where `calls` is full. -/
def windowWait (limit : ℕ) (window now : ℚ) (calls : List ℚ) : Except Unit (List ℚ) :=
  if limit ≤ calls.length then
    match calls with
    | [] => .error ()
    | first :: _ => .ok [window - (now - first)]
  else .ok []

/-- One pass of the loop of `acquire`, with the clock at `now`. -/
def WebSocketRateLimiter.pass (limiter : WebSocketRateLimiter) (now : ℚ) :
    Pass × WebSocketRateLimiter :=
  let calls := SlidingWindow.prune 60 now limiter.calls
  let secondCalls := calls.filter fun item => decide (now - item < 1)
  let waits := do
    let second ← windowWait limiter.perSecond 1 now secondCalls
    let minute ← windowWait limiter.perMinute 60 now calls
    pure (second ++ minute)
  match waits with
  | .error () => (.indexError, { limiter with calls := calls })
  | .ok [] => (.granted, { limiter with calls := calls ++ [now] })
  | .ok (wait :: rest) =>
    (.sleeps (max (rest.foldl max wait) (1 / 1000)), { limiter with calls := calls })

/-- A pass of one of the callers, and what the clock reads there. -/
structure AcquirePass where
  caller : ℕ
  now : ℚ
  deriving DecidableEq, Repr

/-- The limiter, and what its passes came to. -/
structure AcquireRun where
  limiter : WebSocketRateLimiter
  log : List (AcquirePass × Pass)
  deriving DecidableEq, Repr

namespace AcquireRun

def start (perSecond perMinute : ℕ) : AcquireRun := ⟨.init perSecond perMinute, []⟩

def after (run : AcquireRun) (acquire : AcquirePass) : AcquireRun where
  limiter := (run.limiter.pass acquire.now).2
  log := run.log ++ [(acquire, (run.limiter.pass acquire.now).1)]

/-- The run after passes of any callers in any order. -/
def afterPasses (run : AcquireRun) (passes : List AcquirePass) : AcquireRun :=
  passes.foldl after run

/-- The times of the grants. -/
def grants (run : AcquireRun) : List ℚ :=
  run.log.filterMap fun entry => if entry.2 = .granted then some entry.1.now else none

end AcquireRun

end Goodmoneying.Program.WebSocket
