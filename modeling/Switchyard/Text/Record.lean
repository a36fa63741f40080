import Switchyard.Text.Quoted
/-!
One-line text of structured values: records with named fields, tagged values, lists.
-/
namespace Switchyard.Text

def opening : String := "\x7b"
def closing : String := "\x7d"

def field (f : String × String) : String := f.1 ++ ": " ++ f.2

/-- `Name { field: text, .. }`; `partly` when some fields are left out. -/
def record (name : String) (fields : List (String × String)) ( partly : Bool) : String :=
  let shown := fields.map field ++ if partly then [".."] else []
  if shown = [] then name else name ++ " " ++ opening ++ " " ++ ", ".intercalate shown ++ " " ++ closing

def tagged (name : String) (inner : String) : String := name ++ "(" ++ inner ++ ")"

def listed (items : List String) : String := "[" ++ ", ".intercalate items ++ "]"

def optional : Option String → String
  | none => "None"
  | some s => tagged "Some" s

def truth (b : Bool) : String := if b then "true" else "false"

end Switchyard.Text
