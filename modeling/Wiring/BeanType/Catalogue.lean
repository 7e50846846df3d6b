import Wiring.BeanType
import Wiring.Table

namespace Wiring

/-- Types under the keys by which other declarations refer to them. -/
abbrev Catalogue := Table String BeanType

namespace Catalogue

/-- One step of building a type. The last two concern classes only. -/
inductive Step where
  | implements (key : String)
  | method (name : String)
  | producer (name key : String)
  | final
  | plainConstructor (v : Option Visibility)
  | unknown (verb : String)

structure Declaration where
  key : String
  name : String
  isInterface : Bool
  steps : List Step

inductive Refusal where
  | noType (key : String)
  | unknownStep (verb : String)

def find (c : Catalogue) (key : String) : Except Refusal BeanType :=
  match c.get? key with
  | none => .error (.noType key)
  | some t => .ok t

def addMethod (t : BeanType) (m : Method BeanType) : BeanType :=
  { t with methods := t.methods ++ [m] }

def apply (c : Catalogue) (t : BeanType) : Step → Except Refusal BeanType
  | .implements key => do
    let i ← c.find key
    return { t with interfaces := t.interfaces ++ [i] }
  | .method name => .ok (addMethod t ⟨name, none⟩)
  | .producer name key => do return addMethod t ⟨name, some (← c.find key)⟩
  | .final =>
    match t.kind with
    | .interface => .ok t
    | .concrete _ v => .ok { t with kind := .concrete true v }
  | .plainConstructor v =>
    match t.kind with
    | .interface => .ok t
    | .concrete final _ => .ok { t with kind := .concrete final v }
  | .unknown verb => .error (.unknownStep verb)

/-- Adds a type in the place of one with the same key. -/
def declare (c : Catalogue) (d : Declaration) : Except Refusal Catalogue := do
  let start := if d.isInterface then BeanType.interface d.name else BeanType.plainClass d.name
  return c.insert d.key (← d.steps.foldlM c.apply start)

def ofDeclarations (ds : List Declaration) : Except Refusal Catalogue := ds.foldlM declare {}

end Catalogue

end Wiring
