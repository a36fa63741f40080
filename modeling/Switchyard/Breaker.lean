import Switchyard.Outcome
import Switchyard.Log
import Switchyard.Span
import Switchyard.Decimal.Layout
/-!
A circuit breaker. Closed, it counts outcomes and trips on failures; open, it refuses calls until the break
is over; half-open, it admits a few trial calls. Changes that are due by time are applied at the start of
every operation, and outcomes count only for the generation in which their call was admitted.
The calls themselves are not modelled here: a caller admits, runs, and then settles or abandons.
-/
namespace Switchyard

namespace Breaker

inductive Phase where
  | closed | opened | halfOpen
  deriving DecidableEq, Repr, Inhabited

def Phase.text : Phase → String
  | closed => "closed"
  | opened => "open"
  | halfOpen => "half-open"

def Phase.debug : Phase → String
  | closed => "Closed"
  | opened => "Open"
  | halfOpen => "HalfOpen"

/-- Errors that say nothing about the health of a dependency do not count. -/
def countsAsFailure (e : Error) : Bool :=
  match e.kind with
  | .notFound | .cancelled | .badRequest => false
  | _ => true

structure Config where
  name : String := "default"
  /-- Trial calls of a half-open period, and successes needed to close. Zero counts as one. -/
  halfOpenMax : Nat := 1
  /-- Length of a closed counting window; zero means that it never ends. -/
  sampling : Span := .ofSeconds 60
  /-- Time spent open, and time a trial call has to answer. -/
  breakFor : Span := .ofSeconds 60
  failureCount : Nat := 5
  /-- Bits of a failure ratio; when set it replaces the count. -/
  ratio : Option UInt64 := none
  minRequests : Option Nat := none
  isFailure : Error → Bool := countsAsFailure
  logger : Log.Logger := .plain

def Config.named (name : String) : Config := { name := name }

def Config.limit (c : Config) : Nat := max c.halfOpenMax 1

/-- Whether a call that ended this way counts as a success. -/
def Config.succeeds {α : Type} (c : Config) : Outcome α → Bool
  | .value _ => true
  | .failure e => !c.isFailure e
  | .panic _ => false

structure Counts where
  requests : Nat
  successes : Nat
  failures : Nat
  consecutiveSuccesses : Nat
  consecutiveFailures : Nat
  deriving DecidableEq, Repr, Inhabited

namespace Counts

def zero : Counts := ⟨0, 0, 0, 0, 0⟩

/-- The largest number that is counted to. -/
def most : Nat := 4294967295

def more (n : Nat) : Nat := min (n + 1) most

def acquire (c : Counts) : Counts := { c with requests := more c.requests }

def release (c : Counts) : Counts := { c with requests := c.requests - 1 }

def succeed (c : Counts) : Counts :=
  { c with successes := more c.successes, consecutiveSuccesses := more c.consecutiveSuccesses, consecutiveFailures := 0 }

def fail (c : Counts) : Counts :=
  { c with failures := more c.failures, consecutiveFailures := more c.consecutiveFailures, consecutiveSuccesses := 0 }

/-- Calls admitted in this generation that are neither settled nor given up. -/
def inFlight (c : Counts) : Nat := c.requests - min (c.successes + c.failures) most

end Counts

/-- Of the calls of a whole life, whatever the generation. -/
structure Totals where
  requests : Nat
  successes : Nat
  failures : Nat
  rejections : Nat
  deriving DecidableEq, Repr, Inhabited

namespace Totals

/-- Where a total starts over from zero. -/
def size : Nat := 18446744073709551616

def more (n : Nat) : Nat := (n + 1) % size

def ask (t : Totals) : Totals := { t with requests := more t.requests }
def reject (t : Totals) : Totals := { t with rejections := more t.rejections }

def settle (t : Totals) (success : Bool) : Totals :=
  if success then { t with successes := more t.successes } else { t with failures := more t.failures }

end Totals

/-- A change of phase: from, to. -/
abbrev Transition := Phase × Phase

end Breaker

open Breaker in
structure Breaker where
  config : Config
  phase : Phase
  generation : Nat
  counts : Counts
  /-- End of the counting window, of the break, or of the time trial calls have. -/
  expiry : Option Instant
  totals : Totals

namespace Breaker

def Config.expiry (c : Config) (phase : Phase) (now : Instant) : Option Instant :=
  match phase with
  | .closed => if c.sampling = 0 then none else some (now + c.sampling)
  | .opened => some (now + c.breakFor)
  | .halfOpen => some (now + c.breakFor)

def make (config : Config) (now : Instant) : Breaker :=
  ⟨config, .closed, 0, .zero, config.expiry .closed now, ⟨0, 0, 0, 0⟩⟩

def isDue (b : Breaker) (now : Instant) : Bool := b.expiry.any (· ≤ now)

def renew (b : Breaker) (now : Instant) : Breaker :=
  { b with generation := b.generation + 1, counts := .zero, expiry := b.config.expiry b.phase now }

/-- Moves to a phase, with a new generation; nothing happens if it is the present one. -/
def enter (b : Breaker) (phase : Phase) (now : Instant) : Breaker × List Transition :=
  if b.phase = phase then (b, []) else (({ b with phase }).renew now, [(b.phase, phase)])

/-- Applies what is due by time. A half-open breaker reopens if a trial call is still out. -/
def refresh (b : Breaker) (now : Instant) : Breaker × List Transition :=
  if b.isDue now then
    match b.phase with
    | .closed => (b.renew now, [])
    | .opened => b.enter .halfOpen now
    | .halfOpen =>
      if 0 < b.counts.inFlight then b.enter .opened now
      else ({ b with expiry := some (now + b.config.breakFor) }, [])
  else (b, [])

def hasRoom (b : Breaker) : Bool :=
  match b.phase with
  | .closed => true
  | .opened => false
  | .halfOpen => b.counts.requests < b.config.limit

/-- Decides on a call. One that is admitted is given the generation it belongs to. -/
def beforeCall (b : Breaker) (now : Instant) : Breaker × List Transition × Except Error Nat :=
  let (b, ts) := b.refresh now
  if b.hasRoom then ({ b with counts := b.counts.acquire }, ts, .ok b.generation)
  else (b, ts, .error (.circuitOpen b.config.name))

/-- Asks to run a call. -/
def acquire (b : Breaker) (now : Instant) : Breaker × List Transition × Except Error Nat :=
  match ({ b with totals := b.totals.ask }).beforeCall now with
  | (b, ts, .ok generation) => (b, ts, .ok generation)
  | (b, ts, .error e) => ({ b with totals := b.totals.reject }, ts, .error e)

def ratioReached (failures requests : Nat) (ratio : UInt64) : Bool :=
  Float.ofBits ratio ≤ failures.toFloat / requests.toFloat

def Config.trips (c : Config) (counts : Counts) : Bool :=
  match c.ratio with
  | some ratio =>
    max (c.minRequests.getD 1) 1 ≤ counts.requests && ratioReached counts.failures counts.requests ratio
  | none => max c.failureCount 1 ≤ counts.failures

def succeed (b : Breaker) (now : Instant) : Breaker × List Transition :=
  match b.phase with
  | .closed => ({ b with counts := b.counts.succeed }, [])
  | .halfOpen =>
    let b := { b with counts := b.counts.succeed }
    if b.config.limit ≤ b.counts.consecutiveSuccesses then b.enter .closed now else (b, [])
  | .opened => (b, [])

def fail (b : Breaker) (now : Instant) : Breaker × List Transition :=
  match b.phase with
  | .closed =>
    let b := { b with counts := b.counts.fail }
    if b.config.trips b.counts then b.enter .opened now else (b, [])
  | .halfOpen => b.enter .opened now
  | .opened => (b, [])

/-- Counts the outcome of an admitted call, if its generation has not passed. -/
def record (b : Breaker) (generation : Nat) (success : Bool) (now : Instant) : Breaker × List Transition :=
  let (b, ts) := b.refresh now
  if b.generation = generation then
    let (b, more) := if success then b.succeed now else b.fail now
    (b, ts ++ more)
  else (b, ts)

def settle (b : Breaker) (generation : Nat) (success : Bool) (now : Instant) : Breaker × List Transition :=
  ({ b with totals := b.totals.settle success }).record generation success now

/-- Gives up an admitted call that will have no outcome. -/
def abandon (b : Breaker) (generation : Nat) (now : Instant) : Breaker × List Transition :=
  let (b, ts) := b.refresh now
  (if b.generation = generation then { b with counts := b.counts.release } else b, ts)

def force (b : Breaker) (phase : Phase) (now : Instant) : Breaker × List Transition :=
  if b.phase = phase then (b.renew now, []) else b.enter phase now

def reset (b : Breaker) (now : Instant) : Breaker × List Transition := b.force .closed now
def forceOpen (b : Breaker) (now : Instant) : Breaker × List Transition := b.force .opened now

/-! ### What is written about it -/

def opening (c : Config) : Log.Line :=
  ⟨.debug, "Circuit breaker '" ++ c.name ++ "' initialized (failure threshold " ++ toString c.failureCount ++
    ", break " ++ c.breakFor.text ++ ")"⟩

def rejected (c : Config) : Log.Line := ⟨.debug, "Circuit breaker '" ++ c.name ++ "' rejected call"⟩

def abandoned (c : Config) : Log.Line :=
  ⟨.debug, "Circuit breaker '" ++ c.name ++ "' call abandoned before completion"⟩

def announce (c : Config) (t : Transition) : Log.Line :=
  let change := " (" ++ t.1.text ++ " -> " ++ t.2.text ++ ")"
  match t.2 with
  | .opened => ⟨.warn, "Circuit breaker '" ++ c.name ++ "' OPENED" ++ change⟩
  | .closed => ⟨.info, "Circuit breaker '" ++ c.name ++ "' CLOSED" ++ change⟩
  | .halfOpen => ⟨.debug, "Circuit breaker '" ++ c.name ++ "' probing" ++ change⟩

def Config.debug (c : Config) : String :=
  Text.record "CircuitBreakerConfig"
    [("name", Text.quote c.name), ("max_requests_in_half_open", toString c.halfOpenMax),
     ("sampling_interval", c.sampling.text), ("break_duration", c.breakFor.text),
     ("failure_count_threshold", toString c.failureCount),
     ("failure_ratio_threshold", Text.optional (c.ratio.map Decimal.Layout.debug.text)),
     ("min_requests_for_ratio", Text.optional (c.minRequests.map toString))] true

def debug (b : Breaker) : String :=
  Text.record "CircuitBreaker" [("name", Text.quote b.config.name), ("state", b.phase.debug)] false

end Breaker
end Switchyard
