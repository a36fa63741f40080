import Switchyard.Log
/-!
Log settings read from environment variables.
-/
namespace Switchyard.Log

structure Settings where
  debug : Bool
  level : Level
  format : Format
  color : Bool
  timestamps : Bool
  modulePath : Bool
  deriving DecidableEq, Repr

abbrev Variables := List (String × String)

/-- On for `1` and for `true` in any case, off for any other value, `none` when not set. -/
def flag? (vars : Variables) (name : String) : Option Bool :=
  (vars.lookup name).map fun v => v = "1" || v.map Char.toLower = "true"

/-- A terminal is named and colour is not ruled out. -/
def supportsColor (vars : Variables) : Bool :=
  (vars.lookup "NO_COLOR").isNone && (vars.lookup "TERM").isSome

/-- Debug lowers the level unless a level is named. -/
def Settings.ofVariables (vars : Variables) : Settings :=
  let debug := (flag? vars "KEEL_DEBUG").getD false
  { debug
    level := ((vars.lookup "KEEL_LOG_LEVEL").bind Level.parse?).getD (if debug then .debug else .info)
    format := ((vars.lookup "KEEL_LOG_FORMAT").bind Format.parse?).getD .json
    color := (flag? vars "KEEL_LOG_COLOR").getD (supportsColor vars)
    timestamps := (flag? vars "KEEL_LOG_TIMESTAMPS").getD true
    modulePath := (flag? vars "KEEL_LOG_MODULE").getD true }

def Settings.filter (s : Settings) : Filter := ⟨s.level, s.debug⟩

end Switchyard.Log
