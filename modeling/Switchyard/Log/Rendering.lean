import Switchyard.Log
import Switchyard.Moment
import Switchyard.Json.Printer
/-!
The bytes written for one record, in the three formats. Times are shown in UTC and without colour.
-/
namespace Switchyard.Log

/-- What a sink writes of each record. -/
structure Rendering where
  format : Format
  timestamps : Bool
  modulePath : Bool
  deriving DecidableEq, Repr

def Rendering.full (format : Format) : Rendering := ⟨format, true, true⟩

structure Stamped where
  level : Level
  target : String
  message : String
  time : Moment
  deriving DecidableEq, Repr

def padRight (width : Nat) (s : String) : String :=
  s ++ String.ofList (List.replicate (width - s.length) ' ')

def pretty (r : Rendering) (s : Stamped) : String :=
  let c := s.time.civil
  (if r.timestamps then
    c.dateText ++ " " ++ c.timeText ++ "." ++ Moment.pad 3 (c.nanos / 1000000) ++ " " else "") ++
  padRight 5 s.level.text ++ " " ++
  (if r.modulePath && s.target ≠ "" then "[" ++ s.target ++ "] " else "") ++ s.message

def compact (r : Rendering) (s : Stamped) : String :=
  (if r.timestamps then s.time.civil.timeText ++ " " else "") ++
  String.ofList (s.level.text.toList.take 1) ++ " " ++
  (if r.modulePath && s.target ≠ "" then s.target ++ ": " else "") ++ s.message

/-- One object with all four fields, whatever is left out of the other formats. -/
def structured (s : Stamped) : String :=
  Json.objectText
    [("timestamp", Json.quote (s.time.unzoned ++ "+00:00")), ("level", Json.quote s.level.text),
     ("target", Json.quote s.target), ("message", Json.quote s.message)]

def Rendering.text (r : Rendering) (s : Stamped) : String :=
  (match r.format with
   | .pretty => pretty r s
   | .compact => compact r s
   | .json => structured s) ++ "\n"

end Switchyard.Log
