import Switchyard.State.Memory
/-!
Batched writes: the bounded channel through which items reach the writer, and the windows in which the writer
hands them on. Of several values for a key in one window the last is written, in the place of the first.
-/
namespace Switchyard.State

/-- A channel with room for a number of items. Room is handed on in the order in which it was asked for. -/
structure Channel where
  queue : List KeyValue
  /-- Places that nobody has taken. -/
  room : Nat
  /-- Tickets of senders who wait for a place. -/
  waiting : List Nat
  /-- Tickets of senders who were given a place and have not used it. -/
  granted : List Nat
  closed : Bool
  deriving Repr, Inhabited

inductive Admission where
  | granted | wait | refused
  deriving DecidableEq, Repr

namespace Channel

/-- A capacity of zero counts as one. -/
def ofCapacity (capacity : Nat) : Channel := ⟨[], max capacity 1, [], [], false⟩

def reserve (c : Channel) (ticket : Nat) : Channel × Admission :=
  if c.closed then (c, .refused)
  else if 0 < c.room then ({ c with room := c.room - 1 }, .granted)
  else ({ c with waiting := c.waiting ++ [ticket] }, .wait)

/-- Uses a place that was given. A closed channel takes nothing more, not even there. -/
def claim (c : Channel) (ticket : Nat) : Channel × Admission :=
  if c.closed then (c, .refused)
  else if c.granted.contains ticket then ({ c with granted := c.granted.filter (· ≠ ticket) }, .granted)
  else (c, .wait)

def push (c : Channel) (item : KeyValue) : Channel := { c with queue := c.queue ++ [item] }

/-- Gives a place back: to the first who waits, if anybody does. -/
def vacate (c : Channel) : Channel × Option Nat :=
  match c.waiting with
  | [] => ({ c with room := c.room + 1 }, none)
  | t :: rest => ({ c with waiting := rest, granted := c.granted ++ [t] }, some t)

/-- Takes the oldest item and gives back its place. -/
def receive (c : Channel) : Option (KeyValue × Channel × Option Nat) :=
  match c.queue with
  | [] => none
  | item :: rest =>
    let (c, woken) := { c with queue := rest }.vacate
    some (item, c, woken)

/-- Stops waiting. A place that was given is passed on. -/
def leave (c : Channel) (ticket : Nat) : Channel × Option Nat :=
  if c.granted.contains ticket then { c with granted := c.granted.filter (· ≠ ticket) }.vacate
  else ({ c with waiting := c.waiting.filter (· ≠ ticket) }, none)

/-- Refuses senders from now on, with those who wait. -/
def close (c : Channel) : Channel × List Nat := ({ c with waiting := [], closed := true }, c.waiting)

def drain (c : Channel) : Channel × List KeyValue :=
  ({ c with queue := [], room := c.room + c.queue.length }, c.queue)

end Channel

/-- Items with each key once, and where in them the item of a key stands. -/
structure Merged where
  items : List KeyValue
  index : List (String × Nat)
  within : ∀ key place, index.lookup key = some place → place < items.length

namespace Merged

def empty : Merged := ⟨[], [], nofun⟩

/-- Puts an item over the one with its key, or at the end. -/
def add (m : Merged) (item : KeyValue) : Merged :=
  match found : m.index.lookup item.key with
  | some place =>
    let old := m.items.get ⟨place, m.within item.key place found⟩
    { m with
      items := m.items.set place { old with value := item.value }
      within := fun key place found => Nat.lt_of_lt_of_eq (m.within key place found) List.length_set.symm }
  | none =>
    { items := m.items ++ [item]
      index := (item.key, m.items.length) :: m.index
      within := by
        intro key place found
        rw [List.length_append, List.length_singleton]
        rw [List.lookup_cons] at found
        split at found
        · cases found
          exact Nat.lt_succ_self _
        · exact Nat.lt_succ_of_lt (m.within key place found) }

def ofItems (items : List KeyValue) : Merged := items.foldl add empty

end Merged

/-- Last value of each key, in the order in which the keys were first seen. -/
def dedupe (window : List KeyValue) : List KeyValue := (Merged.ofItems window).items

inductive Writer where
  | idle
  /-- Gathering items until a time; the ticket is from when it began. -/
  | window (items : List KeyValue) (due : Instant) (ticket : Nat)
  deriving Repr, Inhabited

inductive Turn where
  | wait (w : Writer)
  /-- Hands a window on; `last` if the writer stops afterwards. -/
  | flush (items : List KeyValue) (last : Bool)
  | stop
  deriving Repr

/-- Takes all items that are there. Also tells which senders were given room. -/
def Channel.gather : Nat → Channel → Channel × List KeyValue × List Nat
  | 0, c => (c, [], [])
  | fuel + 1, c =>
    match c.receive with
    | none => (c, [], [])
    | some (item, c, woken) =>
      let (c, items, more) := gather fuel c
      (c, item :: items, woken.toList ++ more)

/-- A turn of the writer. A window that begins takes the ticket. `stopping` once a shutdown has begun, `orphaned`
when nobody can send any more. -/
def Writer.turn (w : Writer) (c : Channel) (now : Instant) (buffer : Span) (ticket : Nat) (stopping orphaned : Bool) :
    Channel × Turn × List Nat :=
  match w with
  | .idle =>
    if stopping then (c, .stop, [])
    else
      match c.receive with
      | none => (c, if orphaned then .stop else .wait .idle, [])
      | some (item, c, woken) =>
        let due := now + buffer
        if due ≤ now then (c, .flush [item] false, woken.toList)
        else
          let (c, items, more) := c.gather c.queue.length
          (c, if orphaned then .flush (item :: items) true else .wait (.window (item :: items) due ticket),
           woken.toList ++ more)
  | .window items due ticket =>
    if due ≤ now then (c, .flush items false, [])
    else if stopping then (c, .flush items true, [])
    else
      let (c, more, woken) := c.gather c.queue.length
      (c, if orphaned then .flush (items ++ more) true else .wait (.window (items ++ more) due ticket), woken)

def writerStopped : Error := .internal "batch writer stopped" none

def flushed (n : Nat) : Log.Line := ⟨.debug, "Flushed batch of " ++ toString n ++ " keys"⟩

def flushFailed (n : Nat) (e : Error) : Log.Line :=
  ⟨.error, "Batch write of " ++ toString n ++ " keys failed: " ++ e.message⟩

def writerEnded : Log.Line := ⟨.debug, "Batch writer stopped"⟩

end Switchyard.State
