/-!
Identifiers of 128 bits, their text forms, and identifiers that were drawn at random.
-/
namespace Switchyard

/-- Sixteen octets, the most significant first. -/
structure Uuid where
  octets : List UInt8
  deriving DecidableEq, Repr, Inhabited

namespace Uuid

def nil : Uuid := ⟨List.replicate 16 0⟩

def nibble? (c : Char) : Option UInt8 :=
  if '0' ≤ c ∧ c ≤ '9' then some (c.toNat - '0'.toNat).toUInt8
  else if 'a' ≤ c ∧ c ≤ 'f' then some (c.toNat - 'a'.toNat + 10).toUInt8
  else if 'A' ≤ c ∧ c ≤ 'F' then some (c.toNat - 'A'.toNat + 10).toUInt8
  else none

def octets? : List Char → Option (List UInt8)
  | [] => some []
  | [_] => none
  | a :: b :: rest => do
    let a ← nibble? a
    let b ← nibble? b
    let os ← octets? rest
    some ((a * 16 + b) :: os)

def ofPlain? (cs : List Char) : Option Uuid :=
  if cs.length = 32 then (octets? cs).map Uuid.mk else none

/-- Groups of 8, 4, 4, 4 and 12 digits with hyphens between them. -/
def ofHyphenated? : List Char → Option Uuid := fun cs =>
  if cs.length = 36 ∧ cs[8]? = some '-' ∧ cs[13]? = some '-' ∧ cs[18]? = some '-' ∧ cs[23]? = some '-' then
    ofPlain? (cs.take 8 ++ (cs.drop 9).take 4 ++ (cs.drop 14).take 4 ++ (cs.drop 19).take 4 ++ cs.drop 24)
  else none

def urn : List Char := "urn:uuid:".toList

/-- Plain, hyphenated, hyphenated in braces, or hyphenated as a URN; letters of either case throughout. -/
def parse? (s : String) : Option Uuid :=
  let cs := s.toList
  if cs.length = 32 then ofPlain? cs
  else if cs.length = 36 then ofHyphenated? cs
  else if cs.length = 38 ∧ cs.head? = some '\x7b' ∧ cs.getLast? = some '\x7d' then
    ofHyphenated? (cs.drop 1).dropLast
  else if cs.length = 45 ∧ (cs.take 9).map Char.toLower = urn then ofHyphenated? (cs.drop 9)
  else none

def octetText (o : UInt8) : List Char :=
  [Nat.digitChar (o.toNat / 16), Nat.digitChar (o.toNat % 16)]

/-- Lower case digits in groups of 8, 4, 4, 4 and 12. -/
def text (u : Uuid) : String :=
  let part (start count : Nat) := ((u.octets.drop start).take count).flatMap octetText
  String.ofList (part 0 4 ++ ['-'] ++ part 4 2 ++ ['-'] ++ part 6 2 ++ ['-'] ++ part 8 2 ++ ['-'] ++ part 10 6)

def version (u : Uuid) : Nat := (u.octets.getD 6 0).toNat / 16

end Uuid

/-- An identifier: one that was given, or the `n`-th that was drawn at random. -/
inductive Ident where
  | given (id : Uuid)
  | drawn (n : Nat)
  deriving DecidableEq, Repr, Inhabited

namespace Ident

def nil : Ident := .given .nil

def isNil (i : Ident) : Bool := i = nil

/-- Drawn identifiers are named by their number. -/
def text : Ident → String
  | .given u => u.text
  | .drawn n => "gen-" ++ toString n

/-- Drawn identifiers are of version 4. -/
def version : Ident → Nat
  | .given u => u.version
  | .drawn _ => 4

end Ident
end Switchyard
