import Switchyard.Json
/-!
Reading JSON text. The text is first read into a tree that keeps every number as it was written and
notes strings whose escapes name no character; `Raw.value?` then asks for a proper value. Parts that a
reader skips need only be well formed, which is why the two passes are apart.
-/
namespace Switchyard.Json

/-- A number as written: sign, digits before the point, digits after it, exponent. -/
structure Numeral where
  negative : Bool
  whole : List Nat
  decimals : Option (List Nat)
  exponent : Option (Bool × List Nat)
  deriving DecidableEq, Repr, Inhabited

/-- Well formed JSON text. A string is `none` when an escape in it names no character. -/
inductive Raw where
  | null
  | bool (value : Bool)
  | num (value : Numeral)
  | str (value : Option String)
  | arr (items : List Raw)
  | obj (fields : List (Option String × Raw))
  deriving Repr, Inhabited

def isBlank (c : Char) : Bool := c = ' ' || c = '\n' || c = '\t' || c = '\r'

def skipBlank (cs : List Char) : List Char := cs.dropWhile isBlank

def digit? (c : Char) : Option Nat :=
  if '0' ≤ c ∧ c ≤ '9' then some (c.toNat - '0'.toNat) else none

def hexDigit? (c : Char) : Option Nat :=
  if '0' ≤ c ∧ c ≤ '9' then some (c.toNat - '0'.toNat)
  else if 'a' ≤ c ∧ c ≤ 'f' then some (c.toNat - 'a'.toNat + 10)
  else if 'A' ≤ c ∧ c ≤ 'F' then some (c.toNat - 'A'.toNat + 10)
  else none

def digits : List Char → List Nat × List Char
  | [] => ([], [])
  | c :: rest =>
    match digit? c with
    | some d => let (ds, tail) := digits rest; (d :: ds, tail)
    | none => ([], c :: rest)

def exponentPart : List Char → Option (Option (Bool × List Nat) × List Char)
  | [] => some (none, [])
  | c :: rest =>
    if c = 'e' ∨ c = 'E' then
      let (negative, rest) :=
        match rest with
        | '-' :: tail => (true, tail)
        | '+' :: tail => (false, tail)
        | _ => (false, rest)
      match digits rest with
      | ([], _) => none
      | (ds, tail) => some (some (negative, ds), tail)
    else some (none, c :: rest)

def decimalPart : List Char → Option (Option (List Nat) × List Char)
  | '.' :: rest =>
    match digits rest with
    | ([], _) => none
    | (ds, tail) => some (some ds, tail)
  | cs => some (none, cs)

/-- A number after its sign. A zero in front stands alone. -/
def numeral (negative : Bool) (cs : List Char) : Option (Numeral × List Char) := do
  let (whole, cs) := digits cs
  match whole with
  | [] => none
  | 0 :: _ :: _ => none
  | _ =>
    let (decimals, cs) ← decimalPart cs
    let (exponent, cs) ← exponentPart cs
    some (⟨negative, whole, decimals, exponent⟩, cs)

def hex4? : List Char → Option (Nat × List Char)
  | a :: b :: c :: d :: rest => do
    let a ← hexDigit? a
    let b ← hexDigit? b
    let c ← hexDigit? c
    let d ← hexDigit? d
    some (((a * 16 + b) * 16 + c) * 16 + d, rest)
  | _ => none

/-- What one escape after the backslash stands for: a unit of sixteen bits or a character. -/
inductive Piece where
  | char (c : Char)
  | unit (u : Nat)
  deriving DecidableEq, Repr

def escape? : List Char → Option (Piece × List Char)
  | 'u' :: rest => (hex4? rest).map fun (u, tail) => (.unit u, tail)
  | '"' :: rest => some (.char '"', rest)
  | '\\' :: rest => some (.char '\\', rest)
  | '/' :: rest => some (.char '/', rest)
  | 'b' :: rest => some (.char (Char.ofNat 8), rest)
  | 'f' :: rest => some (.char (Char.ofNat 12), rest)
  | 'n' :: rest => some (.char '\n', rest)
  | 'r' :: rest => some (.char '\r', rest)
  | 't' :: rest => some (.char '\t', rest)
  | _ => none

/-- The pieces of a string up to its closing quote. `fuel` is at least the length of the text. -/
def pieces : Nat → List Char → Option (List Piece × List Char)
  | 0, _ => none
  | _, [] => none
  | _, '"' :: rest => some ([], rest)
  | fuel + 1, '\\' :: rest => do
    let (p, rest) ← escape? rest
    let (ps, rest) ← pieces fuel rest
    some (p :: ps, rest)
  | fuel + 1, c :: rest =>
    if c.toNat < 32 then none
    else do
      let (ps, rest) ← pieces fuel rest
      some (.char c :: ps, rest)

/-- Joins pairs of units; `none` when a unit is half of a pair and its partner is missing. -/
def joined : List Piece → Option (List Char)
  | [] => some []
  | .char c :: rest => (joined rest).map (c :: ·)
  | .unit u :: rest =>
    if 0xDC00 ≤ u ∧ u ≤ 0xDFFF then none
    else if 0xD800 ≤ u ∧ u ≤ 0xDBFF then
      match rest with
      | .unit low :: rest =>
        if 0xDC00 ≤ low ∧ low ≤ 0xDFFF then
          (joined rest).map (Char.ofNat (0x10000 + (u - 0xD800) * 0x400 + (low - 0xDC00)) :: ·)
        else none
      | _ => none
    else (joined rest).map (Char.ofNat u :: ·)

def string (fuel : Nat) (cs : List Char) : Option (Option String × List Char) := do
  let (ps, rest) ← pieces fuel cs
  some ((joined ps).map String.ofList, rest)

def word (w : String) (r : Raw) (cs : List Char) : Option (Raw × List Char) :=
  if w.toList.isPrefixOf cs then some (r, cs.drop w.length) else none

mutual
/-- A value, after blanks. `fuel` counts the characters that may still be taken. -/
def value : Nat → List Char → Option (Raw × List Char)
  | 0, _ => none
  | fuel + 1, cs =>
    match skipBlank cs with
    | '"' :: rest => (string (fuel + 1) rest).map fun (s, tail) => (.str s, tail)
    | '[' :: rest =>
      match skipBlank rest with
      | ']' :: tail => some (.arr [], tail)
      | rest => (items fuel rest).map fun (xs, tail) => (.arr xs, tail)
    | '\x7b' :: rest =>
      match skipBlank rest with
      | '\x7d' :: tail => some (.obj [], tail)
      | rest => (fields fuel rest).map fun (xs, tail) => (.obj xs, tail)
    | '-' :: rest => (numeral true rest).map fun (n, tail) => (.num n, tail)
    | 'n' :: rest => word "null" .null ('n' :: rest)
    | 't' :: rest => word "true" (.bool true) ('t' :: rest)
    | 'f' :: rest => word "false" (.bool false) ('f' :: rest)
    | rest => (numeral false rest).map fun (n, tail) => (.num n, tail)

/-- Items up to the closing bracket, at least one. -/
def items : Nat → List Char → Option (List Raw × List Char)
  | 0, _ => none
  | fuel + 1, cs => do
    let (x, rest) ← value fuel cs
    match skipBlank rest with
    | ']' :: tail => some ([x], tail)
    | ',' :: tail => (items fuel tail).map fun (xs, tail) => (x :: xs, tail)
    | _ => none

/-- Fields up to the closing brace, at least one. -/
def fields : Nat → List Char → Option (List (Option String × Raw) × List Char)
  | 0, _ => none
  | fuel + 1, cs => do
    match skipBlank cs with
    | '"' :: rest =>
      let (key, rest) ← string (fuel + 1) rest
      match skipBlank rest with
      | ':' :: rest =>
        let (x, rest) ← value fuel rest
        match skipBlank rest with
        | '\x7d' :: tail => some ([(key, x)], tail)
        | ',' :: tail => (fields fuel tail).map fun (xs, tail) => ((key, x) :: xs, tail)
        | _ => none
      | _ => none
    | _ => none
end

def read? (s : String) : Option Raw := do
  let cs := s.toList
  let (r, rest) ← value (cs.length + 2) cs
  if skipBlank rest = [] then some r else none

def natOf (ds : List Nat) : Nat := ds.foldl (fun n d => n * 10 + d) 0

/-- The largest whole number kept exactly while digits are read. -/
def significandLimit : Nat := Nat.pow 2 64 - 1

/-- Takes digits while the number they form stays within the limit; gives back those that are left. -/
def significand : Nat → List Nat → Nat × List Nat
  | n, [] => (n, [])
  | n, d :: rest => if n * 10 + d ≤ significandLimit then significand (n * 10 + d) rest else (n, d :: rest)

/-- `value * 10 ^ exponent` by steps of at most `10 ^ 308`; `none` when it overflows. After two steps down
every value below `10 ^ 20` is zero. -/
def scaled : Nat → Float → Int → Option Float
  | 0, f, _ => some f
  | fuel + 1, f, e =>
    if e.natAbs ≤ 308 then
      let power := Float.ofScientific 1 false e.natAbs
      if 0 ≤ e then
        let r := f * power
        if r.isInf then none else some r
      else some (f / power)
    else if f == 0 then some f
    else if 0 ≤ e then none
    else scaled fuel (f / 1e308) (e + 308)

def floatOf (negative : Bool) (n : Nat) (e : Int) : Option Number := do
  let f ← scaled 8 (UInt64.ofNat n).toFloat e
  some (.float (if negative then -f else f).toBits)

/-- Exponents are held in 32 bits. -/
def exponentLimit : Nat := Nat.pow 2 31 - 1

/-- The number that a numeral denotes; `none` when it is out of range. -/
def Numeral.number? (n : Numeral) : Option Number :=
  let (first, left) := significand 0 n.whole
  let whole := left.isEmpty
  match n.decimals, n.exponent with
  | none, none =>
    if whole then
      if n.negative then
        if first = 0 ∨ Nat.pow 2 63 < first then floatOf true first 0 else some (.int (-(first : Int)))
      else some (.int first)
    else floatOf n.negative first left.length
  | decimals, exponent =>
    let (mantissa, dropped) := significand first (decimals.getD [])
    let taken : Nat := (decimals.getD []).length - dropped.length
    let base : Int := (left.length : Int) - taken
    match exponent with
    | none => floatOf n.negative mantissa base
    | some (negative, ds) =>
      let e := natOf ds
      if exponentLimit < e then
        if mantissa ≠ 0 ∧ !negative then none
        else some (.float (if n.negative then (-0.0 : Float) else 0.0).toBits)
      else floatOf n.negative mantissa (base + if negative then -(e : Int) else e)

mutual
/-- The value that a tree denotes; `none` past `depth` levels of nesting, for a number out of range and
for a string with an escape that names no character. -/
def Raw.value? (depth : Nat) : Raw → Option Json
  | .null => some .null
  | .bool b => some (.bool b)
  | .num n => n.number?.map .num
  | .str s => s.map .str
  | .arr xs => if depth = 0 then none else (Raw.items? (depth - 1) xs).map .arr
  | .obj fs => if depth = 0 then none else (Raw.fields? (depth - 1) fs).map Json.ofFields

def Raw.items? (depth : Nat) : List Raw → Option (List Json)
  | [] => some []
  | x :: rest => do
    let x ← Raw.value? depth x
    let xs ← Raw.items? depth rest
    some (x :: xs)

def Raw.fields? (depth : Nat) : List (Option String × Raw) → Option (List (String × Json))
  | [] => some []
  | (k, x) :: rest => do
    let k ← k
    let x ← Raw.value? depth x
    let xs ← Raw.fields? depth rest
    some ((k, x) :: xs)
end

/-- Nesting that a reader follows. -/
def depthLimit : Nat := 127

def parse? (s : String) : Option Json := (read? s).bind (Raw.value? depthLimit)

end Switchyard.Json
