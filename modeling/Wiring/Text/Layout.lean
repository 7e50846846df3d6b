import Wiring.Text.Quoted

namespace Wiring.Text

/-- A record with at least one field, as in Name followed by its braced fields. -/
def record (name : String) (fields : List (String × String)) : String :=
  name ++ " \x7b " ++ ", ".intercalate (fields.map fun f => f.1 ++ ": " ++ f.2) ++ " \x7d"

def form (name : String) (content : String) : String := name ++ "(" ++ content ++ ")"

def listed (items : List String) : String := "[" ++ ", ".intercalate items ++ "]"

def optional (part : Option String) : String :=
  match part with
  | none => "None"
  | some text => form "Some" text

def truth (b : Bool) : String := if b then "true" else "false"

end Wiring.Text
