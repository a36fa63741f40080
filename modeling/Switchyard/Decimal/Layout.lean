import Switchyard.Decimal.Shortest
/-!
How shortest digits are laid out as text: when the point is written in place, when an exponent is used,
and how the exponent is signed.
-/
namespace Switchyard.Decimal

/--
Numbers whose point falls after `low` and at or before `high` digits are written in place; `plus` marks
the exponents that are not negative.
-/
structure Layout where
  low : Int
  high : Int
  tie : Tie
  plus : String
  deriving DecidableEq, Repr

def Layout.json : Layout := ⟨-5, 16, .toEven, "+"⟩

def Layout.debug : Layout := ⟨-4, 16, .up, ""⟩

def Layout.inPlace (l : Layout) (point : Int) : Bool :=
  l.low < point && point ≤ l.high

def zeros (n : Nat) : String := String.ofList (List.replicate n '0')

def placed (digits : List Char) (point : Int) : String :=
  let count := digits.length
  if point ≤ 0 then "0." ++ zeros (-point).toNat ++ String.ofList digits
  else if (count : Int) ≤ point then String.ofList digits ++ zeros (point - count).toNat ++ ".0"
  else String.ofList (digits.take point.toNat) ++ "." ++ String.ofList (digits.drop point.toNat)

def Layout.exponentText (l : Layout) (exponent : Int) : String :=
  (if exponent < 0 then "e" else "e" ++ l.plus) ++ toString exponent

/-- One digit before the point, the rest after it, then the power of ten. -/
def Layout.powered (l : Layout) (digits : List Char) (point : Int) : String :=
  match digits with
  | [] => ""
  | [d] => String.ofList [d] ++ l.exponentText (point - 1)
  | d :: rest => String.ofList [d] ++ "." ++ String.ofList rest ++ l.exponentText (point - 1)

def Layout.render (l : Layout) (s : Scientific) : String :=
  let digits := Nat.toDigits 10 s.digits
  let point := (digits.length : Int) + s.exponent
  if l.inPlace point then placed digits point else l.powered digits point

def Layout.text (l : Layout) (bits : UInt64) : String :=
  match binary? bits with
  | none => if isNaN bits then "NaN" else if signBit bits then "-inf" else "inf"
  | some b =>
    let sign := if b.negative then "-" else ""
    if b.mantissa = 0 then sign ++ "0.0" else sign ++ l.render (shortest l.tie b)

end Switchyard.Decimal
