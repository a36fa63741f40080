import Switchyard.Rehearsal.World
/-!
What can be done to the state of a rehearsal: telling, waking and starting tasks, making and cancelling contexts,
beginning waits and giving them up.
-/
namespace Switchyard.Rehearsal

abbrev Act := StateM World

namespace Act

def time : Act Instant := return (← get).now

def ticket : Act Nat := modifyGet fun w => (w.tickets, { w with tickets := w.tickets + 1 })

/-- A reading of the wall clock, later than all before. -/
def reading : Act Stamp := modifyGet fun w => (.reading w.readings, { w with readings := w.readings + 1 })

def draw : Act Ident := modifyGet fun w => (.drawn w.drawn, { w with drawn := w.drawn + 1 })

def log (logger : Log.Logger) (lines : List Log.Line) : Act Unit :=
  modify fun w =>
    let records := w.filter.write logger lines
    { w with logs := w.logs ++ records, written := w.written ++ records }

def note (n : Note) : Act Unit := modify fun w => { w with notes := w.notes ++ [n] }

def report (r : Report) : Act Unit := modify fun w => { w with reports := w.reports ++ [r] }

/-- The place of a drain start among those shown. -/
def placeOf (n : Nat) : Act Nat :=
  modifyGet fun w =>
    match w.shown.idxOf? n with
    | some i => (i, w)
    | none => (w.shown.length, { w with shown := w.shown ++ [n] })

def showDrain : Option Stamp → Act (Option ShownTime)
  | none => return none
  | some (.given m) => return some (.given m)
  | some (.reading n) => return some (.drain (← placeOf n))

def showMessage (m : Events.Message) : Act ShownMessage := do
  let created : ShownTime :=
    match m.createdAt with
    | .given t => .given t
    | .reading _ => .present
  return ⟨m.id, m.topic, created, ← showDrain m.publishedAt, m.payload⟩

/-! ### Tasks -/

def wake (id : Nat) : Act Unit :=
  modify fun w =>
    if w.current = some id then { w with again := true }
    else if w.ready.contains id then w
    else { w with ready := w.ready ++ [id] }

def wakeAll (ids : List Nat) : Act Unit := ids.forM wake

theorem wake_rouses (id : Nat) (w : World) : ∃ again ready, (wake id w).2 = { w with again, ready } := by
  have runs : (wake id w).2 = if w.current = some id then { w with again := true }
      else if w.ready.contains id then w else { w with ready := w.ready ++ [id] } := rfl
  rw [runs]
  split
  · exact ⟨_, w.ready, rfl⟩
  · split
    · exact ⟨w.again, w.ready, rfl⟩
    · exact ⟨w.again, _, rfl⟩

theorem wakeAll_rouses (ids : List Nat) (w : World) : ∃ again ready, (wakeAll ids w).2 = { w with again, ready } := by
  induction ids generalizing w with
  | nil => exact ⟨w.again, w.ready, rfl⟩
  | cons id ids ih =>
    obtain ⟨again, ready, once⟩ := wake_rouses id w
    obtain ⟨again', ready', rest⟩ := ih (wake id w).2
    refine ⟨again', ready', rest.trans ?_⟩
    rw [once]

def setTask (id : Nat) (t : Task) : Act Unit := modify fun w => { w with tasks := w.tasks.set id t }

def modifyTask (id : Nat) (f : Task → Task) : Act Unit := modify fun w => { w with tasks := w.tasks.modify id f }

def spawn (role : Role) (c : Call) : Act Nat := do
  let id := (← get).tasks.length
  modify fun w => { w with tasks := w.tasks ++ [.fresh role c] }
  wake id
  return id

/-- Numbers of the tasks for which `f` gives tickets, in the order of the tickets. -/
def inOrder (w : World) (f : Task → List Nat) : List Nat :=
  let found := w.tasks.zipIdx.flatMap fun (t, id) => (f t).map (·, id)
  (found.mergeSort fun a b => a.1 ≤ b.1).map (·.2)

/-! ### Contexts -/

/-- Tickets under which a task waits for the cancellation of a scope. -/
def listens (scope : Nat) (t : Task) : List Nat :=
  let here : List Nat :=
    match t.mode with
    | .parked (.cancellation ctx k) => if ctx.lineage.head? = some scope then [k] else []
    | _ => []
  here ++ t.stack.filterMap fun
    | .within ctx k => if ctx.lineage.head? = some scope then some k else none
    | _ => none

/-- Cancels a context; those who wait for it learn of it in turn. -/
def cancel (ctx : Context) : Act Unit := do
  let w ← get
  let (scopes, reached) := w.scopes.cancel ctx.lineage
  set { w with scopes }
  wakeAll (reached.flatMap fun scope => inOrder w (listens scope))

def isCancelled (ctx : Context) : Act Bool := return ctx.isCancelled (← get).scopes (← get).now

def check (ctx : Context) : Act (Except Error Unit) := return ctx.check (← get).scopes (← get).now

def cancellation (ctx : Context) : Act Error := return ctx.cancellation (← get).scopes

def derive (f : Scopes → Scopes × Context) : Act Context :=
  modifyGet fun w =>
    let (scopes, ctx) := f w.scopes
    (ctx, { w with scopes })

def background : Act Context := derive fun s => Context.background s .nil

def resolve (current : Option Context) : ContextRef → Act Context
  | .fresh => background
  | .current =>
    match current with
    | some ctx => return ctx
    | none => background
  | .named name => do
    match (← get).contexts.lookup name with
    | some ctx => return ctx
    | none => background

/-! ### Waits -/

def wakeParked (p : Wait → Bool) : Act Unit := do
  let w ← get
  wakeAll (inOrder w fun t =>
    match t.mode with
    | .parked wait => if p wait then [0] else []
    | _ => [])

/-- Whether a wait is over. Some waits end whenever their task has a turn: the task then looks for itself. -/
def isOver (wait : Wait) : Act Bool := do
  let w ← get
  match wait with
  | .time due _ => return due ≤ w.now
  | .turn | .sweep _ _ | .items _ => return true
  | .forever => return false
  | .cancellation ctx _ => isCancelled ctx
  | .lock k => return !(w.bus.any (·.lock.waiting.contains k))
  | .place k => return w.cache.all fun c => c.channel.closed || c.channel.granted.contains k
  | .ending id => return (w.outcome? id).isSome

/-- Gives the lock of the bus up; it goes to the first who waits. -/
def releaseLock : Act Unit := do
  let w ← get
  match w.bus with
  | none => return
  | some bus =>
    let (lock, next) := bus.lock.release
    set { w with bus := some { bus with lock } }
    match next with
    | some k => wakeParked fun | .lock j => j = k | _ => false
    | none => return

def wakeSenders (tickets : List Nat) : Act Unit :=
  tickets.forM fun k => wakeParked fun | .place j => j = k | _ => false

def wakeWriter : Act Unit := wakeParked fun | .items _ => true | _ => false

def wakeSweeper : Act Unit := wakeParked fun | .sweep _ _ => true | _ => false

def setChannel (channel : State.Channel) : Act Unit :=
  modify fun w => { w with cache := w.cache.map fun c => { c with channel } }

def closeChannel : Act Unit := do
  match (← get).cache with
  | none => return
  | some cache =>
    let (channel, refused) := cache.channel.close
    setChannel channel
    wakeSenders refused

/-- Gives a wait up before it is over. What it was given meanwhile goes to the next. -/
def giveUp : Wait → Act Unit
  | .lock k => do
    let w ← get
    match w.bus with
    | none => return
    | some bus =>
      if bus.lock.waiting.contains k then set { w with bus := some { bus with lock := bus.lock.leave k } }
      else releaseLock
  | .place k => do
    match (← get).cache with
    | none => return
    | some cache =>
      let (channel, next) := cache.channel.leave k
      setChannel channel
      wakeSenders next.toList
  | _ => return

end Act
end Switchyard.Rehearsal
