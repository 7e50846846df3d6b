import Wiring.BeanType.Name

namespace Wiring

/-- What goes through method calls; `β` is what stands for a bean. -/
inductive Value (β : Type) where
  | unit
  | bool (b : Bool)
  | int (i : Int64)
  | str (s : String)
  | bean (b : β)
  deriving DecidableEq

namespace Value

def str? {β : Type} : Value β → Option String
  | .str s => some s
  | _ => none

def int? {β : Type} : Value β → Option Int64
  | .int i => some i
  | _ => none

def bool? {β : Type} : Value β → Option Bool
  | .bool b => some b
  | _ => none

def bean? {β : Type} : Value β → Option β
  | .bean b => some b
  | _ => none

/-- A bean is shown by its type alone and is not asked anything else. -/
def describe {β : Type} (typeName : β → String) : Value β → String
  | .unit => "Unit"
  | .bool b => Text.form "Bool" (Text.truth b)
  | .int i => Text.form "Int" (toString i.toInt)
  | .str s => Text.form "Str" (Text.quote s)
  | .bean b => Text.form "Bean" (BeanType.lastPart (typeName b))

end Value

/-- A call of a method by name. -/
structure Call (β : Type) where
  method : String
  args : List (Value β) := []

def Call.describe {β : Type} (typeName : β → String) (call : Call β) : String :=
  Text.record "MethodCall" [("method", Text.quote call.method),
    ("args", Text.listed (call.args.map (·.describe typeName)))]

end Wiring
