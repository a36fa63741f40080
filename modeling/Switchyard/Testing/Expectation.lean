import Switchyard.Error
import Switchyard.Log
/-!
Expectations on results and the text they fail with.
-/
namespace Switchyard.Testing

/-- Expects an error of a kind; `shown` is the debug text of a value. -/
def expectKind (r : Except Error String) (expected : ErrorKind) : Except String Unit :=
  match r with
  | .ok shown => .error ("Expected " ++ expected.text ++ " error, got Ok(" ++ shown ++ ")")
  | .error e =>
    if e.kind = expected then .ok ()
    else .error ("assertion \x60left == right\x60 failed: Expected " ++ expected.text ++ " error, got " ++ e.kind.text ++
      ": " ++ e.message ++ "\n  left: " ++ e.kind.debug ++ "\n right: " ++ expected.debug)

def expectOk {α : Type} (r : Except Error α) : Except String α :=
  match r with
  | .ok a => .ok a
  | .error e => .error ("Expected Ok, got " ++ e.kind.text ++ " error: " ++ e.message)

/-- Expects an error whose message contains a text. -/
def expectMention (r : Except Error String) (needle : String) : Except String Unit :=
  match r with
  | .ok shown => .error ("Expected error containing '" ++ needle ++ "', got Ok(" ++ shown ++ ")")
  | .error e =>
    if Log.isInfix needle.toList e.message.toList then .ok ()
    else .error ("Expected error containing '" ++ needle ++ "', got: " ++ e.message)

end Switchyard.Testing
