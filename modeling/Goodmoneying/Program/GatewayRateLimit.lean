import Goodmoneying.Library.DoubleRounding
import Goodmoneying.Library.SlidingWindow
import Goodmoneying.Program.PortfolioTables

/-!
# The request limiter of the gateway

`GroupRateLimiter` of `rate_limit.py`: for every group of endpoints at most `limit` calls in
a window of `window` seconds, and none before the group's block deadline. Instants and
durations are floats: numbers of seconds whose sums and differences are rounded to a double, and
that are compared as they are. The lock is held for one pass of the loop of `acquire` and for the
whole of `observe` and `defer`, so these are the steps; a caller that was told to sleep takes its
next pass whenever it wakes.
-/

namespace Goodmoneying.Program.Gateway

open Library

/-- What `str.isdigit` and `int` make of a character. -/
structure DigitTable where
  isDigit : Char → Bool
  decimal : Char → Option ℕ

/-- The digits of ASCII. -/
def DigitTable.ascii : DigitTable where
  isDigit := Char.isDigit
  decimal c := if c.isDigit then some (c.toNat - 48) else none

/-- What the methods of the limiter raise. -/
inductive LimiterError where
  | keyError (group : String)
  | indexError
  | valueError
  deriving DecidableEq, Repr

/-- `int` of a text, which refuses more than 4300 digits. -/
def readQuota (digits : DigitTable) (text : String) : Except LimiterError ℕ :=
  if 4300 < text.length then .error .valueError
  else
    match text.toList.mapM digits.decimal with
    | none => .error .valueError
    | some values => .ok (values.foldl (fun n d => 10 * n + d) 0)

/-- `key.strip(), item.strip()` of a component that holds a `=`. -/
def splitComponent (component : List Char) : Option (String × String) :=
  if '=' ∈ component then
    some (strip (.ofList (component.takeWhile (· ≠ '='))),
      strip (.ofList ((component.dropWhile (· ≠ '=')).drop 1)))
  else none

/-- `parse_remaining_req`. -/
def parseRemainingReq (digits : DigitTable) (value : Option String) :
    Except LimiterError (Option (String × ℕ)) :=
  match value with
  | none => .ok none
  | some text =>
    -- A key that comes twice keeps its last item.
    let fields := ((text.toList.splitOn ';').filterMap splitComponent).reverse
    match fields.lookup "group", fields.lookup "sec" with
    | some group, some secondQuota =>
      if secondQuota ≠ "" ∧ secondQuota.toList.all digits.isDigit then
        (readQuota digits secondQuota).map fun quota => some (group, quota)
      else .ok none
    | _, _ => .ok none

/-- A `GroupRateLimiter`. -/
structure GroupRateLimiter where
  limits : String → Option (ℕ × ℚ)
  calls : String → List ℚ
  blockedUntil : String → Option ℚ

/-- `GroupRateLimiter.__init__`. -/
def GroupRateLimiter.init (limits : String → Option (ℕ × ℚ)) : GroupRateLimiter where
  limits := limits
  calls := fun _ => []
  blockedUntil := fun _ => none

/-- What a pass of the loop of `acquire` comes to. -/
inductive Attempt where
  | granted
  | sleeps (seconds : ℚ)
  deriving DecidableEq, Repr

/-- `now - call`, of floats. -/
def elapsed (now call : ℚ) : ℚ := roundDouble (now - call)

namespace GroupRateLimiter

/-- `self._calls[group]` changed. -/
def withCalls (limiter : GroupRateLimiter) (group : String) (calls : List ℚ) :
    GroupRateLimiter := { limiter with calls := Function.update limiter.calls group calls }

/-- One pass of the loop of `acquire`, with the clock at `now`. -/
def attempt (limiter : GroupRateLimiter) (group : String) (now : ℚ) :
    Except LimiterError Attempt × GroupRateLimiter :=
  match limiter.limits group with
  | none => (.error (.keyError group), limiter)
  | some (limit, window) =>
    let blockedUntil := (limiter.blockedUntil group).getD now
    if now < blockedUntil then (.ok (.sleeps (roundDouble (blockedUntil - now))), limiter)
    else
      let calls := SlidingWindow.pruneBy elapsed window now (limiter.calls group)
      if calls.length < limit then (.ok .granted, limiter.withCalls group (calls ++ [now]))
      else
        match calls with
        | [] => (.error .indexError, limiter.withCalls group [])
        | first :: _ =>
          (.ok (.sleeps (roundDouble (window - elapsed now first))), limiter.withCalls group calls)

/-- `self._blocked_until.get(group, 0.0)`. -/
def deadline (limiter : GroupRateLimiter) (group : String) : ℚ :=
  (limiter.blockedUntil group).getD 0

/-- The block deadline of a group, moved to `asked` where that is later. -/
def block (limiter : GroupRateLimiter) (group : String) (asked : ℚ) : GroupRateLimiter :=
  { limiter with
    blockedUntil := Function.update limiter.blockedUntil group
      (some (max (limiter.deadline group) asked)) }

/-- `observe`: the limiter, and the block it was asked for, if any. -/
def observe (digits : DigitTable) (limiter : GroupRateLimiter) (value : Option String)
    (now : ℚ) : Except LimiterError (Option (String × ℚ) × GroupRateLimiter) := do
  let remaining ← parseRemainingReq digits value
  match remaining with
  | none => pure (none, limiter)
  | some (group, secondQuota) =>
    if secondQuota = 0 ∧ (limiter.limits group).isSome then
      pure (some (group, roundDouble (now + 1)), limiter.block group (roundDouble (now + 1)))
    else pure (none, limiter)

/-- `defer`. -/
def defer (limiter : GroupRateLimiter) (group : String) (seconds now : ℚ) :
    GroupRateLimiter := limiter.block group (roundDouble (now + seconds))

end GroupRateLimiter

/-- One hold of the lock, with what the clock reads there. -/
inductive LimiterEvent where
  | acquire (group : String) (now : ℚ)
  | observe (value : Option String) (now : ℚ)
  | defer (group : String) (seconds now : ℚ)
  deriving DecidableEq, Repr

/-- What the clock reads. -/
def LimiterEvent.now : LimiterEvent → ℚ
  | acquire _ now => now
  | observe _ now => now
  | defer _ _ now => now

/-- What a run of the limiter shows: grants, waits handed to `sleep`, and the block deadlines
asked for with the deadline the limiter then holds. -/
inductive LimiterEntry where
  | granted (group : String) (instant : ℚ)
  | slept (seconds : ℚ)
  | blocked (group : String) (asked deadline : ℚ)
  deriving DecidableEq, Repr

/-- The instant of a grant to a group. -/
def LimiterEntry.grantTo (group : String) : LimiterEntry → Option ℚ
  | .granted holder instant => if holder = group then some instant else none
  | _ => none

/-- What a pass of `acquire` shows. -/
def attemptEntries (group : String) (now : ℚ) : Except LimiterError Attempt → List LimiterEntry
  | .error _ => []
  | .ok .granted => [.granted group now]
  | .ok (.sleeps seconds) => [.slept seconds]

/-- What a block shows. -/
def blockEntry (limiter : GroupRateLimiter) (group : String) (asked : ℚ) : LimiterEntry :=
  .blocked group asked (limiter.deadline group)

/-- A limiter and what it has shown so far, oldest first. -/
structure LimiterRun where
  limiter : GroupRateLimiter
  log : List LimiterEntry

namespace LimiterRun

/-- A run before its first call. -/
def start (limits : String → Option (ℕ × ℚ)) : LimiterRun := ⟨.init limits, []⟩

/-- One hold of the lock. An `observe` that raises leaves the limiter as it was. -/
def after (digits : DigitTable) (run : LimiterRun) : LimiterEvent → LimiterRun
  | .acquire group now =>
    let (attempt, limiter) := run.limiter.attempt group now
    ⟨limiter, run.log ++ attemptEntries group now attempt⟩
  | .observe value now =>
    match run.limiter.observe digits value now with
    | .error _ => run
    | .ok (none, limiter) => ⟨limiter, run.log⟩
    | .ok (some (group, asked), limiter) =>
      ⟨limiter, run.log ++ [blockEntry limiter group asked]⟩
  | .defer group seconds now =>
    let limiter := run.limiter.defer group seconds now
    ⟨limiter, run.log ++ [blockEntry limiter group (roundDouble (now + seconds))]⟩

/-- A run of holds of the lock. -/
def afterEvents (digits : DigitTable) (run : LimiterRun) (events : List LimiterEvent) :
    LimiterRun := events.foldl (after digits) run

/-- The instants at which a group's calls were granted. -/
def grants (run : LimiterRun) (group : String) : List ℚ :=
  run.log.filterMap (LimiterEntry.grantTo group)

end LimiterRun

end Goodmoneying.Program.Gateway
