import Wiring.BeanType

namespace Wiring

def Visibility.describe : Visibility → String
  | .everyone => "Public"
  | .heirs => "Protected"
  | .package => "Crate"
  | .owner => "Private"

def Kind.describe : Kind → String
  | .interface => "Interface"
  | .concrete final plainConstructor =>
    Text.record "Class" [("is_final", Text.truth final),
      ("no_arg_constructor", Text.optional (plainConstructor.map (·.describe)))]

namespace BeanType

mutual
def describe : BeanType → String
  | ⟨name, kind, interfaces, methods⟩ =>
    Text.record "BeanType" [("name", Text.quote name), ("kind", kind.describe),
      ("interfaces", Text.listed (describeAll interfaces)),
      ("methods", Text.listed (describeMethods methods))]

def describeAll : List BeanType → List String
  | [] => []
  | t :: rest => t.describe :: describeAll rest

def describeMethods : List (Method BeanType) → List String
  | [] => []
  | m :: rest => describeMethod m :: describeMethods rest

def describeMethod : Method BeanType → String
  | ⟨name, returns⟩ =>
    Text.record "MethodSpec" [("name", Text.quote name), ("kind", describeReturn returns)]

def describeReturn : Option BeanType → String
  | none => "Plain"
  | some t => Text.record "Producer" [("return_type", t.describe)]
end

end BeanType

end Wiring
