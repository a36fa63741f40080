import Switchyard.State.KeyValue
import Switchyard.Log
import Switchyard.Span
/-!
The memory of a cache in front of a store, and what each operation does to it before and after the store is
asked. Writes go to memory first; a write that fails takes back its own entry only. A value read from the
store is kept only if no write has begun since the read began.
-/
namespace Switchyard.State

structure Entry where
  value : Json
  expires : Instant
  /-- The write that stored the entry; zero for a value read from the store. -/
  version : Nat
  deriving Repr, Inhabited

def Entry.isFresh (e : Entry) (now : Instant) : Bool := now < e.expires

/-- Entries by key, each key once, and the number of writes begun so far. -/
structure Memory where
  entries : List (String × Entry)
  writes : Nat
  deriving Repr, Inhabited

namespace Memory

def empty : Memory := ⟨[], 0⟩

def find? (m : Memory) (key : String) : Option Entry := m.entries.lookup key

def size (m : Memory) : Nat := m.entries.length

def erase (m : Memory) (key : String) : Memory := { m with entries := m.entries.filter (·.1 ≠ key) }

def eraseIf (m : Memory) (key : String) (p : Entry → Bool) : Memory :=
  { m with entries := m.entries.filter fun e => !(e.1 = key && p e.2) }

def insert (m : Memory) (key : String) (e : Entry) : Memory :=
  { m with entries := (m.erase key).entries ++ [(key, e)] }

def beginWrite (m : Memory) : Memory := { m with writes := m.writes + 1 }

def fresh? (m : Memory) (key : String) (now : Instant) : Option Json :=
  ((m.find? key).filter (·.isFresh now)).map (·.value)

/-- Looks a key up, dropping an entry that has expired. -/
def look (m : Memory) (key : String) (now : Instant) : Memory × Option Json :=
  match m.fresh? key now with
  | some v => (m, some v)
  | none => (m.eraseIf key fun e => !e.isFresh now, none)

def purge (m : Memory) (now : Instant) : Memory × Nat :=
  let kept := m.entries.filter fun e => e.2.isFresh now
  ({ m with entries := kept }, m.entries.length - kept.length)

/-- Keeps a value that was read from the store when `seen` writes had begun, and gives the value that the
reader should see. -/
def fill (m : Memory) (key : String) (value : Json) (seen : Nat) (now : Instant) (ttl : Span) : Memory × Json :=
  match m.fresh? key now with
  | some v => (m, v)
  | none => if m.writes ≠ seen then (m, value) else (m.insert key ⟨value, now + ttl, 0⟩, value)

end Memory

inductive Op where
  | has (key : String)
  | get (key : String)
  | set (key : String) (value : Json)
  | delete (key : String)
  | batchSet (items : List KeyValue)
  deriving Repr, Inhabited

def Op.method : Op → String
  | .has _ => "has"
  | .get _ => "get"
  | .set _ _ => "set"
  | .delete _ => "delete"
  | .batchSet _ => "batch_set"

def Op.keys : Op → List String
  | .has k | .get k | .set k _ | .delete k => [k]
  | .batchSet items => items.map (·.key)

inductive Answer where
  | flag (b : Bool)
  | value (v : Json)
  | done
  deriving Repr, Inhabited

structure CacheConfig where
  expiration : Span := .ofSeconds 300
  /-- Period of the sweep; zero for none. -/
  cleanup : Span := .ofSeconds 600
  batch : Bool := false
  /-- Length of a batch window from its first item. -/
  buffer : Span := .ofSeconds 60
  timeout : Span := .ofSeconds 10
  capacity : Nat := 1024
  logger : Log.Logger := .plain
  deriving DecidableEq, Repr

def CacheConfig.debug (c : CacheConfig) : String :=
  Text.record "CacheConfig"
    [("item_expiration", c.expiration.text), ("cleanup_interval", c.cleanup.text),
     ("use_batch", Text.truth c.batch), ("batch_buffer_interval", c.buffer.text),
     ("batch_timeout", c.timeout.text), ("batch_channel_capacity", toString c.capacity),
     ("logger", c.logger.debug)] false

inductive Pending where
  | pass
  /-- A read that missed when `seen` writes had begun. -/
  | read (key : String) (seen : Nat)
  | write (key : String) (version : Nat)
  /-- A deletion, which is content with a missing key. -/
  | deletion
  deriving DecidableEq, Repr, Inhabited

/-- How an operation goes on after memory was looked at. -/
inductive Begun where
  | served (a : Answer)
  | ask (p : Pending)
  /-- The item waits for the batch writer. -/
  | queue (item : KeyValue) (p : Pending)
  deriving Repr

/-- The part of an operation before the store is asked. -/
def Memory.begin (m : Memory) (config : CacheConfig) (op : Op) (now : Instant) : Memory × Begun :=
  match op with
  | .has key =>
    match m.look key now with
    | (m, some _) => (m, .served (.flag true))
    | (m, none) => (m, .ask .pass)
  | .get key =>
    match m.look key now with
    | (m, some v) => (m, .served (.value v))
    | (m, none) => (m, .ask (.read key m.writes))
  | .set key value =>
    let m := m.beginWrite
    let p := Pending.write key m.writes
    (m.insert key ⟨value, now + config.expiration, m.writes⟩,
     if config.batch then .queue ⟨key, value⟩ p else .ask p)
  | .delete key => ((m.beginWrite).erase key, .ask .deletion)
  | .batchSet items => (items.foldl (fun m i => m.erase i.key) m.beginWrite, .ask .pass)

/-- The part of an operation after the store has answered. -/
def Memory.finish (m : Memory) (config : CacheConfig) (p : Pending) (r : Except Error Answer) (now : Instant) :
    Memory × Except Error Answer :=
  match p, r with
  | .pass, r => (m, r)
  | .read key seen, .ok (.value v) =>
    let (m, v) := m.fill key v seen now config.expiration
    (m, .ok (.value v))
  | .read _ _, r => (m, r)
  | .write _ _, .ok a => (m, .ok a)
  | .write key version, .error e => (m.eraseIf key (·.version = version), .error e)
  | .deletion, .ok a => (m, .ok a)
  | .deletion, .error e => (m, if e.isNotFound then .ok .done else .error e)

def started (c : CacheConfig) : Log.Line :=
  ⟨.debug, "Cache proxy started (ttl " ++ c.expiration.text ++ ", batch " ++ Text.truth c.batch ++ ")"⟩

def swept (n : Nat) : Log.Line := ⟨.debug, "Swept " ++ toString n ++ " expired cache entries"⟩

end Switchyard.State
