/-!
Points of civil time in UTC: reading RFC 3339 text with an offset, and writing it with `Z`.
-/
namespace Switchyard

/-- Seconds since 1970 and nanoseconds; a leap second holds a thousand million nanoseconds or more. -/
structure Moment where
  seconds : Int
  nanos : Nat
  deriving DecidableEq, Repr, Inhabited

namespace Moment

structure Date where
  year : Int
  month : Nat
  day : Nat
  deriving DecidableEq, Repr

def isLeap (year : Int) : Bool := year % 4 = 0 && (year % 100 ≠ 0 || year % 400 = 0)

def monthLength (year : Int) (month : Nat) : Nat :=
  match month with
  | 2 => if isLeap year then 29 else 28
  | 4 | 6 | 9 | 11 => 30
  | _ => 31

/-- Days before the first of January of `year`, counted from the first of January of year 1. -/
def daysBeforeYear (year : Int) : Int :=
  let y := year - 1
  y * 365 + y / 4 - y / 100 + y / 400

def daysBeforeMonth (year : Int) (month : Nat) : Nat :=
  (List.range (month - 1)).foldl (fun days m => days + monthLength year (m + 1)) 0

def Date.days (d : Date) : Int :=
  daysBeforeYear d.year + daysBeforeMonth d.year d.month + (d.day : Int) - 1 - daysBeforeYear 1970

/-- The month in which the day `left` of the year falls, from `month` on. -/
def monthOf (year : Int) : Nat → Nat → Nat → Nat × Nat
  | 0, month, left => (month, left)
  | fuel + 1, month, left =>
    let n := monthLength year month
    if left < n then (month, left) else monthOf year fuel (month + 1) (left - n)

def Date.ofDays (days : Int) : Date :=
  let n := days + daysBeforeYear 1970
  let guess := n * 400 / 146097 + 1
  let year :=
    if n < daysBeforeYear guess then guess - 1
    else if daysBeforeYear (guess + 1) ≤ n then guess + 1 else guess
  let (month, left) := monthOf year 11 1 (n - daysBeforeYear year).toNat
  ⟨year, month, left + 1⟩

def pad (width n : Nat) : String :=
  let digits := Nat.toDigits 10 n
  String.ofList (List.replicate (width - digits.length) '0' ++ digits)

/-- Four digits from 0 to 9999, a sign and at least four digits otherwise. -/
def yearText (year : Int) : String :=
  if 0 ≤ year ∧ year ≤ 9999 then pad 4 year.toNat
  else (if year < 0 then "-" else "+") ++ pad 4 year.natAbs

/-- No fraction, or 3, 6 or 9 digits, as few as show it whole. -/
def fractionText (nanos : Nat) : String :=
  if nanos = 0 then ""
  else if nanos % 1000000 = 0 then "." ++ pad 3 (nanos / 1000000)
  else if nanos % 1000 = 0 then "." ++ pad 6 (nanos / 1000)
  else "." ++ pad 9 nanos

/-- Date and time of day with the second that a leap second adds. -/
structure Civil where
  date : Date
  hour : Nat
  minute : Nat
  second : Nat
  nanos : Nat
  deriving DecidableEq, Repr

def civil (m : Moment) : Civil :=
  let ofDay := (m.seconds % 86400).toNat
  let leap := 1000000000 ≤ m.nanos
  ⟨Date.ofDays (m.seconds / 86400), ofDay / 3600, ofDay / 60 % 60, ofDay % 60 + (if leap then 1 else 0),
   if leap then m.nanos - 1000000000 else m.nanos⟩

def Civil.dateText (c : Civil) : String :=
  yearText c.date.year ++ "-" ++ pad 2 c.date.month ++ "-" ++ pad 2 c.date.day

def Civil.timeText (c : Civil) : String :=
  pad 2 c.hour ++ ":" ++ pad 2 c.minute ++ ":" ++ pad 2 c.second

/-- RFC 3339 text up to the offset. -/
def unzoned (m : Moment) : String :=
  let c := m.civil
  c.dateText ++ "T" ++ c.timeText ++ fractionText c.nanos

def text (m : Moment) : String := m.unzoned ++ "Z"

/-! ### Reading -/

def isSpace (c : Char) : Bool :=
  c = ' ' || (9 ≤ c.toNat && c.toNat ≤ 13) || c.toNat = 0x85 || c.toNat = 0xA0 || c.toNat = 0x1680 ||
  (0x2000 ≤ c.toNat && c.toNat ≤ 0x200A) || c.toNat = 0x2028 || c.toNat = 0x2029 || c.toNat = 0x202F ||
  c.toNat = 0x205F || c.toNat = 0x3000

def trim (cs : List Char) : List Char := cs.dropWhile isSpace

def isDigit (c : Char) : Bool := '0' ≤ c && c ≤ '9'

def natOf (cs : List Char) : Nat := cs.foldl (fun n c => n * 10 + (c.toNat - '0'.toNat)) 0

/-- One to `width` digits, after blanks. -/
def number? (width : Nat) (cs : List Char) : Option (Nat × List Char) :=
  let cs := trim cs
  match (cs.takeWhile isDigit).take width with
  | [] => none
  | ds => some (natOf ds, cs.drop ds.length)

def ranged? (width low high : Nat) (cs : List Char) : Option (Nat × List Char) := do
  let (n, rest) ← number? width cs
  if low ≤ n ∧ n ≤ high then some (n, rest) else none

def mark? (c : Char) (cs : List Char) : Option (List Char) :=
  match trim cs with
  | d :: rest => if d = c then some rest else none
  | [] => none

def year? (cs : List Char) : Option (Int × List Char) :=
  match trim cs with
  | '-' :: rest => (unsigned rest).map fun (n, tail) => (-(n : Int), tail)
  | '+' :: rest => (unsigned rest).map fun (n, tail) => ((n : Int), tail)
  | rest => (number? 4 rest).map fun (n, tail) => ((n : Int), tail)
where
  unsigned (cs : List Char) : Option (Nat × List Char) :=
    match cs.takeWhile isDigit with
    | [] => none
    | ds => some (natOf ds, cs.drop ds.length)

/-- Years outside this span are neither read nor reached by an offset. -/
def inReach (year : Int) : Bool := decide (-262143 ≤ year ∧ year ≤ 262142)

def date? (cs : List Char) : Option (Date × List Char) := do
  let (year, cs) ← year? cs
  let cs ← mark? '-' cs
  let (month, cs) ← ranged? 2 1 12 cs
  let cs ← mark? '-' cs
  let (day, cs) ← ranged? 2 1 31 cs
  if inReach year ∧ day ≤ monthLength year month then some (⟨year, month, day⟩, cs)
  else none

/-- Nanoseconds after a point: nine digits count, later ones are passed over. -/
def nanos? : List Char → Option (Nat × List Char)
  | '.' :: rest =>
    match rest.takeWhile isDigit with
    | [] => none
    | ds => some (natOf (ds.take 9) * Nat.pow 10 (9 - (ds.take 9).length), rest.drop ds.length)
  | cs => some (0, cs)

/-- Two digits of a clock offset, the first at most `top`. -/
def pair? (top : Char) : List Char → Option (Nat × List Char)
  | a :: b :: rest => if isDigit a ∧ a ≤ top ∧ isDigit b then some (natOf [a, b], rest) else none
  | _ => none

/-- `Z`, `UTC`, or hours and minutes east of Greenwich, in seconds. -/
def offset? (cs : List Char) : Option (Int × List Char) :=
  match cs with
  | 'Z' :: rest => some (0, rest)
  | 'z' :: rest => some (0, rest)
  | '+' :: rest => clock 1 rest
  | '-' :: rest => clock (-1) rest
  | '−' :: rest => clock (-1) rest
  | a :: b :: c :: rest =>
    if a.toUpper = 'U' ∧ b.toUpper = 'T' ∧ c.toUpper = 'C' then some (0, rest) else none
  | _ => none
where
  clock (sign : Int) (cs : List Char) : Option (Int × List Char) := do
    let (hours, cs) ← pair? '9' cs
    let (minutes, cs) ← pair? '5' (cs.dropWhile fun c => c = ':' || isSpace c)
    if hours < 24 then some (sign * (hours * 3600 + minutes * 60 : Nat), cs) else none

/-- RFC 3339 text; blanks may stand between its parts and a blank may stand for the `T`. -/
def parse? (s : String) : Option Moment := do
  let (date, cs) ← date? s.toList
  let cs ← match cs with
    | 'T' :: rest => some rest
    | 't' :: rest => some rest
    | ' ' :: rest => some rest
    | _ => none
  let (hour, cs) ← ranged? 2 0 23 cs
  let cs ← mark? ':' cs
  let (minute, cs) ← ranged? 2 0 59 cs
  let cs ← mark? ':' cs
  let (second, cs) ← ranged? 2 0 60 cs
  let (nanos, cs) ← nanos? cs
  let (offset, cs) ← offset? (trim cs)
  if trim cs = [] then
    let leap := second = 60
    let clock : Nat := hour * 3600 + minute * 60 + (if leap then 59 else second)
    let seconds := date.days * 86400 + clock - offset
    if inReach (Date.ofDays (seconds / 86400)).year then
      some ⟨seconds, if leap then nanos + 1000000000 else nanos⟩
    else none
  else none

end Moment
end Switchyard
