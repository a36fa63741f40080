/-!
The fewest decimal digits that read back as a given binary floating point value, nearest first.
Works on the bits in exact natural number arithmetic. Infinities and NaN have no digits.
-/
namespace Switchyard.Decimal

/-- A positive decimal `digits * 10 ^ exponent`. -/
structure Scientific where
  digits : Nat
  exponent : Int
  deriving DecidableEq, Repr, Inhabited

/-- A finite value `mantissa * 2 ^ exponent`; `narrow` when the gap below is half the gap above. -/
structure Binary where
  negative : Bool
  mantissa : Nat
  exponent : Int
  narrow : Bool
  deriving DecidableEq, Repr

def signBit (bits : UInt64) : Bool := bits.toNat ≥ Nat.pow 2 63

/-- `none` for infinities and NaN. -/
def binary? (bits : UInt64) : Option Binary :=
  let biased : Nat := bits.toNat % Nat.pow 2 63 / Nat.pow 2 52
  let fraction : Nat := bits.toNat % Nat.pow 2 52
  if biased = 2047 then none
  else if biased = 0 then some ⟨signBit bits, fraction, -1074, false⟩
  else some ⟨signBit bits, fraction + Nat.pow 2 52, (biased : Int) - 1075, decide (fraction = 0 ∧ 1 < biased)⟩

def isNaN (bits : UInt64) : Bool := Nat.pow 2 52 * 2047 < bits.toNat % Nat.pow 2 63

/-- A nonnegative rational, `den` positive. -/
structure Ratio where
  num : Nat
  den : Nat
  deriving DecidableEq, Repr

def Ratio.scaled (mantissa : Nat) (exponent : Int) : Ratio :=
  match exponent with
  | .ofNat e => ⟨mantissa * Nat.pow 2 e, 1⟩
  | .negSucc e => ⟨mantissa, Nat.pow 2 (e + 1)⟩

def Ratio.le (a b : Ratio) : Bool := a.num * b.den ≤ b.num * a.den
def Ratio.lt (a b : Ratio) : Bool := a.num * b.den < b.num * a.den

/-- `n * 10 ^ k`. -/
def Ratio.decimal (n : Nat) (k : Int) : Ratio :=
  match k with
  | .ofNat e => ⟨n * Nat.pow 10 e, 1⟩
  | .negSucc e => ⟨n, Nat.pow 10 (e + 1)⟩

/-- The greatest whole `n` with `n * 10 ^ k ≤ r`. -/
def Ratio.steps (r : Ratio) (k : Int) : Nat :=
  match k with
  | .ofNat e => r.num / (r.den * Nat.pow 10 e)
  | .negSucc e => r.num * Nat.pow 10 (e + 1) / r.den

def Ratio.distance (a b : Ratio) : Ratio :=
  let l := a.num * b.den
  let r := b.num * a.den
  ⟨if l ≤ r then r - l else l - r, a.den * b.den⟩

/-- Position of the leading digit of `r`: the greatest `k` with `10 ^ k ≤ r`, for `r` above `10 ^ -fuel`. -/
def Ratio.leading (r : Ratio) : Nat → Int → Int
  | 0, k => k
  | fuel + 1, k => if (Ratio.decimal 1 k).le r then k else Ratio.leading r fuel (k - 1)

structure Basin where
  low : Ratio
  high : Ratio
  closed : Bool

def Binary.basin (b : Binary) : Basin :=
  ⟨.scaled (4 * b.mantissa - if b.narrow then 1 else 2) (b.exponent - 2),
   .scaled (4 * b.mantissa + 2) (b.exponent - 2), b.mantissa % 2 = 0⟩

def Basin.holds (b : Basin) (r : Ratio) : Bool :=
  if b.closed then b.low.le r && r.le b.high else b.low.lt r && r.lt b.high

/-- Which of two neighbours is taken when the value lies halfway between them. -/
inductive Tie where
  | up
  | toEven
  deriving DecidableEq, Repr

def Tie.takesUpper (below : Nat) : Tie → Bool
  | up => true
  | toEven => below % 2 = 1

/-- The nearer of the two neighbours of `value` on the grid of `10 ^ k` that lie in the basin. -/
def nearest? (tie : Tie) (basin : Basin) (value : Ratio) (k : Int) : Option Nat :=
  let below := value.steps k
  let lower := Ratio.decimal below k
  let upper := Ratio.decimal (below + 1) k
  match basin.holds lower && below ≠ 0, basin.holds upper with
  | true, true =>
    let up := value.distance upper
    let down := value.distance lower
    if up.lt down || (up.le down && tie.takesUpper below) then some (below + 1) else some below
  | true, false => some below
  | false, true => some (below + 1)
  | false, false => none

/-- Tries grids of one digit, two digits and so on, starting at position `k`. -/
def firstGrid (tie : Tie) (basin : Basin) (value : Ratio) : Nat → Int → Scientific
  | 0, k => ⟨value.steps k, k⟩
  | fuel + 1, k =>
    match nearest? tie basin value k with
    | some n => ⟨n, k⟩
    | none => firstGrid tie basin value fuel (k - 1)

def Scientific.trim : Nat → Scientific → Scientific
  | 0, s => s
  | fuel + 1, s =>
    if s.digits ≠ 0 ∧ s.digits % 10 = 0 then trim fuel ⟨s.digits / 10, s.exponent + 1⟩ else s

def shortest (tie : Tie) (b : Binary) : Scientific :=
  let value := Ratio.scaled b.mantissa b.exponent
  (firstGrid tie b.basin value 17 (value.leading 700 310)).trim 20

end Switchyard.Decimal
