/-!
Lengths of time in nanoseconds, and their text in the largest fitting unit.
-/
namespace Switchyard

abbrev Span := Nat

abbrev Instant := Nat

namespace Span

def ofMillis (ms : Nat) : Span := ms * 1000000
def ofSeconds (s : Nat) : Span := s * 1000000000
def millis (s : Span) : Nat := s / 1000000

/-- The first `places` decimal digits of `part / 10 ^ places`, without final zeros. -/
def fraction (part places : Nat) : List Char :=
  let digits := Nat.toDigits 10 part
  let padded := List.replicate (places - digits.length) '0' ++ digits
  (padded.reverse.dropWhile (· = '0')).reverse

/-- `value / 10 ^ places` followed by the unit. -/
def inUnit (value places : Nat) (unit : String) : String :=
  let whole := toString (value / Nat.pow 10 places)
  match fraction (value % Nat.pow 10 places) places with
  | [] => whole ++ unit
  | digits => whole ++ "." ++ String.ofList digits ++ unit

/-- Seconds, milliseconds, microseconds or nanoseconds, whichever is the largest that is not above it. -/
def text (s : Span) : String :=
  if 1000000000 ≤ s then inUnit s 9 "s"
  else if 1000000 ≤ s then inUnit s 6 "ms"
  else if 1000 ≤ s then inUnit s 3 "µs"
  else inUnit s 0 "ns"

end Span
end Switchyard
