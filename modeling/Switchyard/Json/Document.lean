import Switchyard.Json.Decode
/-!
Records in JSON text. Of an object only the named fields are read, each at most once, and the others need only be
well formed; a record in the form of an array is read whole.
-/
namespace Switchyard.Json

def hasRepeats : List String → Bool
  | [] => false
  | s :: rest => rest.contains s || hasRepeats rest

def Raw.record? (names : List String) : Raw → Option Json
  | .obj fields => do
    let named ← fields.mapM fun (k, v) => k.map (·, v)
    let known := named.filter fun f => names.contains f.1
    if hasRepeats (known.map (·.1)) then none
    else (Raw.fields? (depthLimit - 1) (known.map fun f => (some f.1, f.2))).map ofFields
  | r => r.value? depthLimit

/-- Reads a record with the named fields out of text. -/
def readDocument {α : Type} (names : List String) (read : Reader α) (text : String) : Option α :=
  (read? text).bind fun r => (r.record? names).bind fun j => (read j).toOption

/-- Compact text of a record, its fields in the given order. -/
def documentText (fields : List (String × Json)) : String := objectText (fields.map fun f => (f.1, compact f.2))

end Switchyard.Json
