import Wiring.BeanType.Description

namespace Wiring

/-- A bean that is asked for by type, with the parameter that it is for as a label. -/
structure Dependency where
  type : BeanType
  parameter : Option String := none

def Dependency.display (d : Dependency) : String :=
  match d.parameter with
  | none => d.type.name
  | some p => s!"{d.type.name} ({p})"

def Dependency.describe (d : Dependency) : String :=
  Text.record "DependencyDescriptor" [("dependency_type", d.type.describe),
    ("parameter", Text.optional (d.parameter.map Text.quote))]

end Wiring
