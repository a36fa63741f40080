import Switchyard.Moment
/-!
Times that records carry: one that was given, or a reading of the wall clock known only by its number.
-/
namespace Switchyard

inductive Stamp where
  | given (time : Moment)
  | reading (n : Nat)
  deriving DecidableEq, Repr, Inhabited

namespace Stamp

/-- Given times before this second lie before every reading, those from it on lie after. -/
def present : Int := 1767225600

def text : Stamp → String
  | given m => m.text
  | reading n => "now-" ++ toString n

def le : Stamp → Stamp → Bool
  | given a, given b => a.seconds < b.seconds || (a.seconds = b.seconds && a.nanos ≤ b.nanos)
  | given a, reading _ => a.seconds < present
  | reading _, given b => present ≤ b.seconds
  | reading a, reading b => a ≤ b

end Stamp
end Switchyard
