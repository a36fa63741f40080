import Switchyard.Entity
/-!
One entry of a batch write.
-/
namespace Switchyard

namespace State

structure KeyValue where
  key : String
  value : Json
  deriving Repr, Inhabited

def KeyValue.fieldNames : List String := ["key", "value"]

def KeyValue.read : Json.Reader KeyValue := fun j => do
  match ← Json.readStruct "KeyValue" KeyValue.fieldNames j with
  | [key, value] =>
    let key ← Json.required "key" Json.readString key
    let value ← Json.required "value" Json.readAny value
    .ok ⟨key, value⟩
  | _ => .error ""

def KeyValue.fields (kv : KeyValue) : List (String × Json) := [("key", .str kv.key), ("value", kv.value)]

def KeyValue.debug (kv : KeyValue) : String :=
  Text.record "KeyValue" [("key", Text.quote kv.key), ("value", kv.value.debug)] false

end State
end Switchyard
