import Switchyard.Json
import Switchyard.Decimal.Layout
import Switchyard.Text.Record
/-!
Compact JSON text, and the debug text of JSON values.
-/
namespace Switchyard.Json

def hexDigits (n width : Nat) : List Char :=
  let digits := Nat.toDigits 16 n
  List.replicate (width - digits.length) '0' ++ digits

def escapeChar (c : Char) : List Char :=
  if c = '"' then ['\\', '"']
  else if c = '\\' then ['\\', '\\']
  else if c = '\n' then ['\\', 'n']
  else if c = '\r' then ['\\', 'r']
  else if c = '\t' then ['\\', 't']
  else if c.toNat = 8 then ['\\', 'b']
  else if c.toNat = 12 then ['\\', 'f']
  else if c.toNat < 32 then ['\\', 'u'] ++ hexDigits c.toNat 4
  else [c]

def quote (s : String) : String :=
  String.ofList (['"'] ++ s.toList.flatMap escapeChar ++ ['"'])

def numberText : Number → String
  | .int n => toString n
  | .float bits => if (Decimal.binary? bits).isSome then Decimal.Layout.json.text bits else "null"

/-- Fields given with the text of their values. -/
def objectText (fields : List (String × String)) : String :=
  Text.opening ++ ",".intercalate (fields.map fun f => quote f.1 ++ ":" ++ f.2) ++ Text.closing

def arrayText (items : List String) : String := "[" ++ ",".intercalate items ++ "]"

mutual
def compact : Json → String
  | .null => "null"
  | .bool b => Text.truth b
  | .num n => numberText n
  | .str s => quote s
  | .arr items => arrayText (compactItems items)
  | .obj fields => objectText (compactFields fields)

def compactItems : List Json → List String
  | [] => []
  | j :: rest => compact j :: compactItems rest

def compactFields : List (String × Json) → List (String × String)
  | [] => []
  | (k, j) :: rest => (k, compact j) :: compactFields rest
end

mutual
def debug : Json → String
  | .null => "Null"
  | .bool b => Text.tagged "Bool" (Text.truth b)
  | .num n => Text.tagged "Number" (numberText n)
  | .str s => Text.tagged "String" (Text.quote s)
  | .arr items => "Array " ++ Text.listed (debugItems items)
  | .obj fields => "Object " ++ Text.opening ++ ", ".intercalate (debugFields fields) ++ Text.closing

def debugItems : List Json → List String
  | [] => []
  | j :: rest => debug j :: debugItems rest

def debugFields : List (String × Json) → List String
  | [] => []
  | (k, j) :: rest => (Text.quote k ++ ": " ++ debug j) :: debugFields rest
end

end Switchyard.Json
