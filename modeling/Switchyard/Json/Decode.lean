import Switchyard.Json.Parser
import Switchyard.Json.Printer
/-!
Typed reading of JSON values, with the wording of each refusal.
-/
namespace Switchyard.Json

/-- How a refusal names the value it met. -/
def described : Json → String
  | .null => "null"
  | .bool b => "boolean " ++ ticked (Text.truth b)
  | .num (.int n) => "integer " ++ ticked (toString n)
  | .num (.float bits) => "floating point " ++ ticked (numberText (.float bits))
  | .str s => "string " ++ Text.quote s
  | .arr _ => "sequence"
  | .obj _ => "map"
where
  ticked (s : String) : String := "\x60" ++ s ++ "\x60"

def wrongType (j : Json) (expected : String) : String :=
  "invalid type: " ++ described j ++ ", expected " ++ expected

def wrongValue (j : Json) (expected : String) : String :=
  "invalid value: " ++ described j ++ ", expected " ++ expected

def wrongLength (n : Nat) (expected : String) : String :=
  "invalid length " ++ toString n ++ ", expected " ++ expected

def missingField (name : String) : String := "missing field \x60" ++ name ++ "\x60"

abbrev Reader (α : Type) := Json → Except String α

def readInt (name : String) (low high : Int) : Reader Int
  | .num (.int n) => if low ≤ n ∧ n ≤ high then .ok n else .error (wrongValue (.num (.int n)) name)
  | j => .error (wrongType j name)

def readU8 : Reader Int := readInt "u8" 0 255
def readU32 : Reader Int := readInt "u32" 0 4294967295
def readI64 : Reader Int := readInt "i64" (-9223372036854775808) 9223372036854775807

def readString : Reader String
  | .str s => .ok s
  | j => .error (wrongType j "a string")

def readBool : Reader Bool
  | .bool b => .ok b
  | j => .error (wrongType j "a boolean")

def readUnit : Reader Unit
  | .null => .ok ()
  | j => .error (wrongType j "unit")

def readChar : Reader String
  | .str s => if s.length = 1 then .ok s else .error (wrongValue (.str s) "a character")
  | j => .error (wrongType j "a character")

def readOption {α : Type} (read : Reader α) : Reader (Option α)
  | .null => .ok none
  | j => (read j).map some

def readItems {α : Type} (read : Reader α) : List Json → Except String (List α)
  | [] => .ok []
  | j :: rest => do
    let x ← read j
    let xs ← readItems read rest
    .ok (x :: xs)

def readList {α : Type} (read : Reader α) : Reader (List α)
  | .arr items => readItems read items
  | j => .error (wrongType j "a sequence")

def readEntries {α : Type} (read : Reader α) : List (String × Json) → Except String (List (String × α))
  | [] => .ok []
  | (k, j) :: rest => do
    let x ← read j
    let xs ← readEntries read rest
    .ok ((k, x) :: xs)

def readMap {α : Type} (read : Reader α) : Reader (List (String × α))
  | .obj fields => readEntries read fields
  | j => .error (wrongType j "a map")

def readPair {α β : Type} (first : Reader α) (second : Reader β) : Reader (α × β)
  | .arr [] => .error (wrongLength 0 "a tuple of size 2")
  | .arr [a] => do
    let _ ← first a
    .error (wrongLength 1 "a tuple of size 2")
  | .arr (a :: b :: rest) => do
    let x ← first a
    let y ← second b
    if rest = [] then .ok (x, y) else .error (wrongLength (rest.length + 2) "fewer elements in array")
  | j => .error (wrongType j "a tuple of size 2")

def readAny : Reader Json := .ok

end Switchyard.Json
