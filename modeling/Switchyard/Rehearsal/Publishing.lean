import Switchyard.Rehearsal.Act
/-!
Drains of the bus, and what reaches the messaging side.
-/
namespace Switchyard.Rehearsal.Publishing

open Act Events

def setBus (bus : Bus Raised) : Act Unit := modify fun w => { w with bus := some bus }

def lock : Act Move := do
  match (← get).bus with
  | none => return .value .unit
  | some bus =>
    match bus.lock.take? with
    | some lock =>
      setBus { bus with lock }
      return .value .unit
    | none =>
      let k ← ticket
      setBus { bus with lock := bus.lock.join k }
      return .park (.lock k)

def drain (ctx : Context) : Act Move := return .go [.locking ctx] (.within ctx .lock)

/-- A drain that has the lock. An empty queue does not reach the breaker. -/
def locked (ctx : Context) : Act Move := do
  match (← get).bus with
  | none => return .value .unit
  | some bus =>
    if bus.queue.isEmpty then return .value .unit
    else return .become (.guarded .bus (.drainQueue ⟨ctx, ← reading, 0⟩))

def tryDrain (ctx : Context) : Act Move := do
  match (← get).bus with
  | none => return .value (.flag true)
  | some bus =>
    match bus.lock.take? with
    | some lock =>
      setBus { bus with lock }
      return .go [.lockHeld, .flagged] (.locked ctx)
    | none =>
      log bus.logger [Bus.inFlight]
      return .value (.flag false)

def proceed (d : Bus.Drain) (stand : Bus.Stand Raised) : Act Move := do
  setBus stand.bus
  log stand.bus.logger stand.lines
  match stand.next with
  | .notify e => return .go [.notifying d e] (.notify d.ctx e)
  | .send e m => return .go [.caught, .sending d e] (.within d.ctx (.transmit m))
  | .again d => return .become (.drainQueue d)
  | .finish (.ok ()) => return .value .unit
  | .finish (.error e) => return .fail e

def drainQueue (d : Bus.Drain) : Act Move := do
  match (← get).bus with
  | none => return .value .unit
  | some bus => proceed d (bus.advance d (← check d.ctx) d.started)

/-- Puts the event of a drain back that ends without an answer. -/
def restore (e : QueuedEvent) : Act Unit := do
  if let some bus := (← get).bus then setBus (bus.restore e)

def notified (d : Bus.Drain) (e : QueuedEvent) (r : Except Error Unit) : Act Move := do
  match (← get).bus with
  | none => return .value .unit
  | some bus => proceed d (bus.notified d e r d.started)

def sent (d : Bus.Drain) (e : QueuedEvent) (r : Except Error Unit) : Act Move := do
  match (← get).bus with
  | none => return .value .unit
  | some bus => proceed d (bus.sent d e r)

/-! ### The messaging side -/

def transmit (m : Message) : Act Move := do
  return .go [.transmitting m] (.sleep ((← get).broker.latency.getD 0))

def arrive (m : Message) : Act Move := do
  match (← get).broker.panicOf m.topic with
  | some text => return .give (.panic text)
  | none => return .become (.publish m)

/-- A subscriber runs in a context of its own before the publication is answered. -/
def publish (m : Message) : Act Move := do
  let r ← modifyGet fun w =>
    let (broker, r) := w.broker.publish m
    (r, { w with broker })
  match r with
  | .error e => return .fail e
  | .ok none => return .value .unit
  | .ok (some task) =>
    let ctx ← background
    note (.received m.topic m.id m.payload)
    return .go [.discard] (.script ctx task)

def subscribe (topic : String) (task : Script) : Act Move := do
  modify fun w => { w with broker := w.broker.subscribe topic task }
  return .value .unit

def unsubscribe (topic : String) : Act Move := do
  modify fun w => { w with broker := w.broker.unsubscribe topic }
  return .value .unit

end Switchyard.Rehearsal.Publishing
