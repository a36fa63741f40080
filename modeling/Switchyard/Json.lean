/-!
JSON values. Objects keep their fields sorted by key, each key once.
-/
namespace Switchyard

/-- Whole numbers fit in 64 bits, signed or unsigned; all others are floats, held by their bits. -/
inductive Number where
  | int (value : Int)
  | float (bits : UInt64)
  deriving DecidableEq, Repr, Inhabited

inductive Json where
  | null
  | bool (value : Bool)
  | num (value : Number)
  | str (value : String)
  | arr (items : List Json)
  | obj (fields : List (String × Json))
  deriving Repr, Inhabited, BEq

namespace Json

def int (n : Int) : Json := .num (.int n)
def nat (n : Nat) : Json := .num (.int n)

/-- Puts a field in its place among sorted fields, over an earlier one of the same key. -/
def insert (key : String) (value : Json) : List (String × Json) → List (String × Json)
  | [] => [(key, value)]
  | (k, v) :: rest =>
    if key = k then (key, value) :: rest
    else if key < k then (key, value) :: (k, v) :: rest
    else (k, v) :: insert key value rest

/-- An object of the given fields; the last of equal keys counts. -/
def ofFields (fields : List (String × Json)) : Json :=
  .obj (fields.foldl (fun acc f => insert f.1 f.2 acc) [])

def field? (key : String) : Json → Option Json
  | .obj fields => fields.lookup key
  | _ => none

end Json
end Switchyard
