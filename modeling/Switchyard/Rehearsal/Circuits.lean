import Switchyard.Rehearsal.Act
/-!
Calls through breakers: admission, outcome, calls given up, and what is told of the changes.
-/
namespace Switchyard.Rehearsal.Act

open Breaker (Transition)

def applyTo (id : BreakerId) (f : Breaker → Instant → Breaker × List Transition) : Act (List Transition) :=
  modifyGet fun w =>
    match w.circuit? id with
    | none => ([], w)
    | some c =>
      let (breaker, changes) := f c.breaker w.now
      let circuits := w.circuits.map fun (i, old) => (i, if i = id then { c with breaker } else old)
      (changes, { w with circuits })

/-- What a breaker says of itself after what is due by time, and the changes that were due. It is read before
anybody is told of them. -/
def refreshed {α : Type} (id : BreakerId) (f : Breaker → α) (other : α) : Act (α × List Transition) := do
  let changes ← applyTo id Breaker.refresh
  return (((← get).circuit? id).elim other (f ·.breaker), changes)

/-- Callbacks may ask the breaker, which may change it again, but no two such changes follow one another
without time passing. -/
def callbackDepth : Nat := 16

def announce (id : BreakerId) : Nat → List Transition → Act Unit
  | 0, _ => return
  | _, [] => return
  | depth + 1, change :: rest => do
    match (← get).circuit? id with
    | none => return
    | some c =>
      log c.breaker.config.logger [Breaker.announce c.breaker.config change]
      if c.callback ≠ .none then report (.moved c.breaker.config.name change)
      if c.callback = .query then
        let (phase, changes) ← refreshed id (·.phase) .closed
        announce id depth changes
        let (counts, changes) ← refreshed id (·.counts) .zero
        announce id depth changes
        report (.queried phase counts.requests)
    announce id depth rest

def operate (id : BreakerId) (f : Breaker → Instant → Breaker × List Transition) : Act Unit := do
  announce id callbackDepth (← applyTo id f)

def acquire (id : BreakerId) : Act (Except Error Nat) := do
  let w ← get
  match w.circuit? id with
  | none => return .ok 0
  | some c =>
    let (breaker, changes, admitted) := c.breaker.acquire w.now
    let _ ← applyTo id fun _ _ => (breaker, [])
    announce id callbackDepth changes
    if admitted.toOption.isNone then log breaker.config.logger [Breaker.rejected breaker.config]
    return admitted

/-- Records the outcome of an admitted call. A panic counts as a failure. -/
def settle (id : BreakerId) (generation : Nat) (o : Ended) : Act Unit := do
  match (← get).circuit? id with
  | none => return
  | some c =>
    let success := c.breaker.config.succeeds o
    operate id fun b now => b.settle generation success now

def abandon (id : BreakerId) (generation : Nat) : Act Unit := do
  let changes ← applyTo id fun b now => b.abandon generation now
  if let some c := (← get).circuit? id then
    log c.breaker.config.logger [Breaker.abandoned c.breaker.config]
  announce id callbackDepth changes

def phaseOf (id : BreakerId) : Act Breaker.Phase := do
  let (phase, changes) ← refreshed id (·.phase) .closed
  announce id callbackDepth changes
  return phase

def countsOf (id : BreakerId) : Act Breaker.Counts := do
  let (counts, changes) ← refreshed id (·.counts) .zero
  announce id callbackDepth changes
  return counts

/-- The state is read first, then the totals, and the counts last. -/
def statsOf (id : BreakerId) : Act BreakerView := do
  let phase ← phaseOf id
  let c := (← get).circuit? id
  let counts ← countsOf id
  return ⟨c.elim "" (·.breaker.config.name), phase, c.elim ⟨0, 0, 0, 0⟩ (·.breaker.totals), counts⟩

end Switchyard.Rehearsal.Act
