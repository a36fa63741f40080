import Switchyard.State.Memory
import Switchyard.Testing.Failure
import Switchyard.Testing.Recorder
/-!
A store held in memory, with recorded calls, latency and failures put in. A missing key is an error for
reading and for deleting.
-/
namespace Switchyard.Testing

open State

structure Store where
  data : List (String × Json)
  batches : List (List KeyValue)
  failure : Option Failure
  latency : Option Span
  calls : Calls
  /-- Keys whose calls panic before they reach the store. -/
  panicKeys : List String
  deriving Repr

namespace Store

def empty : Store := ⟨[], [], none, none, [], []⟩

def put (data : List (String × Json)) (key : String) (value : Json) : List (String × Json) :=
  match data with
  | [] => [(key, value)]
  | (k, v) :: rest => if k = key then (k, value) :: rest else (k, v) :: put rest key value

def seed (s : Store) (key : String) (value : Json) : Store := { s with data := put s.data key value }

def value? (s : Store) (key : String) : Option Json := s.data.lookup key

def size (s : Store) : Nat := s.data.length

def record (s : Store) (op : Op) : Store := { s with calls := s.calls ++ [(op.method, op.keys)] }

def panicOf (s : Store) (op : Op) : Option String :=
  (op.keys.find? s.panicKeys.contains).map ("adapter panicked on " ++ ·)

def apply (s : Store) (op : Op) : Store × Except Error Answer :=
  match op with
  | .has key => (s, .ok (.flag (s.value? key).isSome))
  | .get key =>
    (s, match s.value? key with
        | some v => .ok (.value v)
        | none => .error (.notFound key))
  | .set key value => ({ s with data := put s.data key value }, .ok .done)
  | .delete key =>
    match s.value? key with
    | some _ => ({ s with data := s.data.filter (·.1 ≠ key) }, .ok .done)
    | none => (s, .error (.notFound key))
  | .batchSet items =>
    let data := items.foldl (fun d i => put d i.key i.value) s.data
    ({ s with data, batches := s.batches ++ [items] }, .ok .done)

/-- The part of a call after its latency: a failure put in, or the effect. -/
def perform (s : Store) (op : Op) : Store × Except Error Answer :=
  match Failure.take s.failure with
  | (left, some e) => ({ s with failure := left }, .error e)
  | (left, none) => { s with failure := left }.apply op

def debug (s : Store) : String :=
  Text.record "InMemoryStateAdapter" [("len", toString s.size), ("calls", s.calls.debug)] false

end Store
end Switchyard.Testing
