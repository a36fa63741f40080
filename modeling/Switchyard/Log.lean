import Switchyard.Text.Record
/-!
Log levels, the process-wide filter, loggers and captured records.
-/
namespace Switchyard.Log

inductive Level where
  | trace | debug | info | warn | error | off
  deriving DecidableEq, Repr, Inhabited

namespace Level

def all : List Level := [trace, debug, info, warn, error, off]

def rank : Level → Nat
  | trace => 0 | debug => 1 | info => 2 | warn => 3 | error => 4 | off => 5

def text : Level → String
  | trace => "TRACE" | debug => "DEBUG" | info => "INFO" | warn => "WARN" | error => "ERROR" | off => "OFF"

/-- Level names, with `warning` and `none` for two of them. -/
def names : List (String × Level) :=
  [("trace", trace), ("debug", debug), ("info", info), ("warn", warn), ("warning", warn), ("error", error),
   ("off", off), ("none", off)]

/-- Case does not matter. Only the letters of ASCII have to be lowered: the lower case of no other
character is a letter of a level's name. -/
def parse? (s : String) : Option Level := names.lookup (s.map Char.toLower)

end Level

inductive Format where
  | pretty | compact | json
  deriving DecidableEq, Repr, Inhabited

namespace Format

def names : List (String × Format) := [("pretty", pretty), ("compact", compact), ("json", json)]

def parse? (s : String) : Option Format := names.lookup (s.map Char.toLower)

def debug : Format → String
  | pretty => "Pretty" | compact => "Compact" | json => "Json"

end Format

/-- The filter of a process: the least level written, and a switch that lets debug records through. -/
structure Filter where
  level : Level
  debug : Bool
  deriving DecidableEq, Repr, Inhabited

namespace Filter

def initial : Filter := ⟨.info, false⟩

def admits (f : Filter) (l : Level) : Bool := l ≠ .off && f.level.rank ≤ l.rank

def enabled (f : Filter) (l : Level) : Bool := f.admits l || (l = .debug && f.debug)

def setLevel (f : Filter) (l : Level) : Filter := { f with level := l }

/-- Switching debug on lowers the level to debug if it was above. -/
def setDebug (f : Filter) (on : Bool) : Filter :=
  { level := if on ∧ Level.debug.rank < f.level.rank then .debug else f.level, debug := on }

end Filter

/-- A handle through which a component writes; the target replaces that of the record. -/
structure Logger where
  target : Option String
  deriving DecidableEq, Repr, Inhabited

namespace Logger

def plain : Logger := ⟨none⟩
def withTarget (t : String) : Logger := ⟨some t⟩

def debug (l : Logger) : String :=
  Text.record "Logger" [("target", Text.optional (l.target.map Text.quote))] true

end Logger

structure Line where
  level : Level
  message : String
  deriving DecidableEq, Repr, Inhabited

structure Record where
  level : Level
  target : Option String
  message : String
  deriving DecidableEq, Repr, Inhabited

def Filter.write (f : Filter) (logger : Logger) (lines : List Line) : List Record :=
  (lines.filter fun l => f.enabled l.level).map fun l => ⟨l.level, logger.target, l.message⟩

def messagesAt (level : Level) (records : List Record) : List String :=
  (records.filter (·.level = level)).map (·.message)

def isInfix (needle : List Char) : List Char → Bool
  | [] => needle.isEmpty
  | c :: rest => needle.isPrefixOf (c :: rest) || isInfix needle rest

def mentions (needle : String) (records : List Record) : Bool :=
  records.any fun r => isInfix needle.toList r.message.toList

end Switchyard.Log
