import Switchyard.Rehearsal.Circuits
import Switchyard.State.Service
/-!
Operations on the store, the cache in front of it, its background tasks, and the service above them.
-/
namespace Switchyard.Rehearsal

namespace Move

def ofAnswer : Except Error State.Answer → Move
  | .ok a => .value (.answer a)
  | .error e => .fail e

end Move

def Value.answered : Value → State.Answer
  | .answer a => a
  | _ => .done

namespace Storage

open Act State

/-! ### The store -/

def ask (op : Op) : Act Move := do
  let store := (← get).store
  match store.panicOf op with
  | some m => return .give (.panic m)
  | none =>
    modify fun w => { w with store := w.store.record op }
    return .go [.asked op] (.sleep (store.latency.getD 0))

def perform (op : Op) : Act Move :=
  modifyGet fun w =>
    let (store, r) := w.store.perform op
    (.ofAnswer r, { w with store })

/-! ### The cache -/

def setMemory (memory : Memory) : Act Unit :=
  modify fun w => { w with cache := w.cache.map fun c => { c with memory } }

def finish (p : Pending) (r : Except Error Answer) : Act Move := do
  let w ← get
  match w.cache with
  | none => return .ofAnswer r
  | some c =>
    let (memory, r) := c.memory.finish c.config p r w.now
    setMemory memory
    return .ofAnswer r

def push (item : KeyValue) (p : Pending) : Act Move := do
  modify fun w => { w with cache := w.cache.map fun c => { c with channel := c.channel.push item } }
  wakeWriter
  finish p (.ok .done)

def cached (op : Op) : Act Move := do
  let w ← get
  match w.cache with
  | none => return .become (.ask op)
  | some c =>
    let (memory, begun) := c.memory.begin c.config op w.now
    setMemory memory
    match begun with
    | .served a => return .value (.answer a)
    | .ask p => return .go [.cached p] (.ask op)
    | .queue item p =>
      let k ← ticket
      let (channel, admission) := c.channel.reserve k
      setChannel channel
      match admission with
      | .granted => push item p
      | .wait => return .go [.placed item p k] (.await (.place k))
      | .refused => finish p (.error writerStopped)

def placed (item : KeyValue) (p : Pending) (k : Nat) : Act Move := do
  match (← get).cache with
  | none => finish p (.error writerStopped)
  | some c =>
    let (channel, admission) := c.channel.claim k
    setChannel channel
    match admission with
    | .granted => push item p
    | _ => finish p (.error writerStopped)

/-! ### The sweeper -/

def sweepAt (due : Instant) : Act Move := do
  let k ← ticket
  return .go [.sweeping due] (.await (.sweep due k))

def sweeper : Act Move := do
  let w ← get
  sweepAt (w.now + (w.cache.elim 0 (·.config.cleanup)))

def sweep (due : Instant) : Act Move := do
  let w ← get
  match w.cache with
  | none => return .value .unit
  | some c =>
    if c.stopping then return .value .unit
    else if due ≤ w.now then
      let (memory, removed) := c.memory.purge w.now
      setMemory memory
      if 0 < removed then log c.config.logger [swept removed]
      sweepAt (due + c.config.cleanup)
    else sweepAt due

/-! ### The batch writer -/

def writer (state : Writer) : Act Move := do
  let w ← get
  match w.cache with
  | none => return .value .unit
  | some c =>
    let (channel, turn, given) :=
      state.turn c.channel w.now c.config.buffer (← ticket) c.stopping c.orphaned
    setChannel channel
    wakeSenders given
    match turn with
    | .wait state => return .go [.writing state] (.await (.items state))
    | .flush items last => return .become (.flush items (if last then .close else .again))
    | .stop => return .become .closeWriter

/-- Hands a window to the store, under a deadline of its own. -/
def flush (items : List KeyValue) (after : AfterFlush) : Act Move := do
  let w ← get
  let items := dedupe items
  let root ← background
  let ctx ← derive fun s => root.withTimeout s w.now (w.cache.elim 0 (·.config.timeout))
  return .go [.flushed items.length after] (.within ctx (.ask (.batchSet items)))

def endWriter (logger : Log.Logger) : Act Move := do
  log logger [writerEnded]
  return .value .unit

def closeWriter : Act Move := do
  closeChannel
  match (← get).cache with
  | none => return .value .unit
  | some c =>
    let (channel, rest) := c.channel.drain
    setChannel channel
    if rest.isEmpty then endWriter c.config.logger else return .become (.flush rest .stop)

/-- Goes on after a flush. A panic of the store ends the writer. -/
def flushed (count : Nat) (after : AfterFlush) (o : Ended) : Act Move := do
  let logger := (← get).cache.elim .plain (·.config.logger)
  let tell (line : Log.Line) : Act Unit := log logger [line]
  let goOn : Act Move :=
    match after with
    | .again => return .become (.writer .idle)
    | .close => return .become .closeWriter
    | .stop => endWriter logger
  match o with
  | .value _ =>
    tell (State.flushed count)
    goOn
  | .failure e =>
    tell (flushFailed count e)
    goOn
  | .panic m =>
    closeChannel
    return .give (.panic m)

/-! ### Shutdown -/

def beginStop : Act Unit := do
  match (← get).cache with
  | none => return
  | some c =>
    if !c.stopping then
      modify fun w => { w with cache := some { c with stopping := true } }
      wakeSweeper
      wakeWriter

def stopCache : Act Move := do
  beginStop
  let tasks := ((← get).cache.map (·.tasks)).getD []
  modify fun w => { w with cache := w.cache.map fun c => { c with tasks := [] } }
  return .become (.join tasks)

def join : List Nat → Act Move
  | [] => return .value .unit
  | task :: rest => return .go [.joining task rest] (.await (.ending task))

def taskFailed (task : Nat) (message : String) : Log.Line :=
  ⟨.error, "Cache task failed: task " ++ toString task ++ " panicked with message " ++ Text.quote message⟩

def joined (task : Nat) (rest : List Nat) : Act Move := do
  let w ← get
  match w.outcome? task, w.cache with
  | some (.panic m), some c => log c.config.logger [taskFailed task m]
  | _, _ => pure ()
  join rest

def stopService : Act Move := do
  if (← get).service.any (·.cached) then return .go [.serviceStopped] .stopCache else return .value .unit

def serviceStopped : Act Move := do
  if let some s := (← get).service then log s.logger [Service.cacheStopped]
  return .value .unit

/-- Lets the background tasks go once nobody can reach the cache any more. -/
def release : Act Unit := do
  let w ← get
  match w.cache with
  | none => return
  | some c =>
    if !c.orphaned ∧ !w.cacheLives then
      set { w with cache := some { c with orphaned := true } }
      beginStop

/-! ### The service -/

def serve (ctx : Context) (op : Op) : Act Move := do
  if Service.isIdle op then return .value (.answer .done)
  let inner : Call := if (← get).service.any (·.cached) then .cached op else .ask op
  let call : Call := .guarded .service (.within ctx inner)
  match op with
  | .delete _ => return .go [.deleted] call
  | _ => return .become call

/-- Types under which values are read; the value is shown as it was read. -/
def read : ValueType → Json.Reader Json
  | .u32 => fun j => .int <$> Json.readU32 j
  | .i64 => fun j => .int <$> Json.readI64 j
  | .u8 => fun j => .int <$> Json.readU8 j
  | .string => fun j => .str <$> Json.readString j
  | .bool => fun j => .bool <$> Json.readBool j
  | .profile => profile
  | .vecU32 => fun j => (fun ns => .arr (ns.map .int)) <$> Json.readList Json.readU32 j
  | .optString => fun j => (fun s => s.elim .null .str) <$> Json.readOption Json.readString j
  | .unit => fun j => (fun _ => .null) <$> Json.readUnit j
  | .pair => fun j => (fun p => .arr [.int p.1, .str p.2]) <$> Json.readPair Json.readU32 Json.readString j
  | .mapU32 => fun j => (fun fs => .obj (fs.map fun f => (f.1, .int f.2))) <$> Json.readMap Json.readU32 j
  | .char => fun j => .str <$> Json.readChar j
  | .value => Json.readAny
where
  shown (name : String) (age : Int) : Json := .ofFields [("name", .str name), ("age", .int age)]
  expected : String := "struct Profile with 2 elements"
  /-- The fields of an object are read in the order in which it has them. -/
  profile : Json.Reader Json
    | .obj fields => do
      let age ← (fields.lookup "age").mapM Json.readU32
      let name ← (fields.lookup "name").mapM Json.readString
      match name, age with
      | some name, some age => .ok (shown name age)
      | none, _ => .error (Json.missingField "name")
      | _, none => .error (Json.missingField "age")
    | .arr [] => .error (Json.wrongLength 0 expected)
    | .arr [name] => do
      let _ ← Json.readString name
      .error (Json.wrongLength 1 expected)
    | .arr (name :: age :: rest) => do
      let name ← Json.readString name
      let age ← Json.readU32 age
      if rest.isEmpty then .ok (shown name age)
      else .error (Json.wrongLength (rest.length + 2) "fewer elements in array")
    | j => .error (Json.wrongType j "struct Profile")

def typed (type : ValueType) (r : Except Error Answer) : Except Error (Option Json) :=
  Service.typed (read type) (Service.found r)

end Storage
end Switchyard.Rehearsal
