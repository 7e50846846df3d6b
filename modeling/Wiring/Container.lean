import Wiring.BeanType
import Wiring.Dependency
import Wiring.Error
import Wiring.Table

namespace Wiring

structure BeanId where
  index : Nat
  deriving DecidableEq

structure ContainerId where
  index : Nat
  deriving DecidableEq

/-- How a singleton is to be made. -/
structure Recipe (C : Type) where
  name : String
  type : BeanType
  lazy : Bool := false
  primary : Bool := false
  factory : C

/-- A recipe in a container: `serial` tells it from all others there, and `created` is the bean that
its factory made and that was accepted. -/
structure Definition (C : Type) extends Recipe C where
  serial : Nat
  created : Option BeanId := none

def Definition.describe {C : Type} (d : Definition C) : String :=
  Text.record "BeanDefinition" [("name", Text.quote d.name), ("bean_type", Text.quote d.type.name),
    ("lazy", Text.truth d.lazy), ("primary", Text.truth d.primary),
    ("created", Text.truth d.created.isSome)]

/-- The definition a recipe becomes. -/
def Recipe.definition {C : Type} (r : Recipe C) (serial : Nat) : Definition C :=
  { r with serial }

/-- Definitions, the singletons that are registered, and the names that are known. A definition that is
overridden stays on record, so that a creation under way can still be entered into the one it began with. -/
structure Container (C : Type) where
  /-- The latest first; the first of a name is the one in force. -/
  definitions : List (Definition C) := []
  singletons : Table String BeanId := {}
  /-- In the order of first registration. -/
  names : List String := []

namespace Container

variable {C : Type}

def definition? (c : Container C) (name : String) : Option (Definition C) :=
  c.definitions.find? (·.name == name)

def hasDefinition (c : Container C) (name : String) : Bool := (c.definition? name).isSome

def singleton? (c : Container C) (name : String) : Option BeanId := c.singletons.get? name

def hasSingleton (c : Container C) (name : String) : Bool := (c.singleton? name).isSome

def hasBean (c : Container C) (name : String) : Bool := c.hasDefinition name || c.hasSingleton name

def definitionNames (c : Container C) : List String := c.names.filter c.hasDefinition

def singletonCount (c : Container C) : Nat := c.singletons.size

def remember (c : Container C) (name : String) : Container C :=
  if c.names.contains name then c else { c with names := c.names ++ [name] }

/-- The definition takes the place of an earlier one of its name. -/
def define (c : Container C) (r : Recipe C) : Container C :=
  { c with definitions := r.definition c.definitions.length :: c.definitions }.remember r.name

def bind (c : Container C) (name : String) (bean : BeanId) : Container C :=
  { c with singletons := c.singletons.insert name bean }

/-- Enters the bean that was made into its definition. -/
def accept (c : Container C) (serial : Nat) (bean : BeanId) : Container C :=
  { c with definitions := c.definitions.map fun d =>
      if d.serial = serial then { d with created := some bean } else d }

/-- The type under which a name is found: the declared one, or else that of the singleton as
`plainType` tells it, which leaves out early references. An early reference is never a candidate,
since it could resolve to itself. -/
def registeredType (plainType : BeanId → Option BeanType) (c : Container C) (name : String) :
    Option BeanType :=
  match c.definition? name with
  | some d => some d.type
  | none => (c.singleton? name).bind plainType

def isCandidate (plainType : BeanId → Option BeanType) (c : Container C) (target : BeanType)
    (name : String) : Bool :=
  (c.registeredType plainType name).any (·.isAssignableTo target)

/-- The names that fit a type, but not the one that asks. -/
def candidates (plainType : BeanId → Option BeanType) (c : Container C) (target : BeanType)
    (requesting : Option String) : List String :=
  (c.names.filter (some · != requesting)).filter (c.isCandidate plainType target)

def isPrimary (c : Container C) (name : String) : Bool := (c.definition? name).any (·.primary)

/-- The one name for a dependency: the only candidate, or the only primary one among several. -/
def select (plainType : BeanId → Option BeanType) (c : Container C) (d : Dependency)
    (requesting : Option String) : Except Error String :=
  match c.candidates plainType d.type requesting with
  | [] => .error (.noSuchBean d.type.name d.parameter)
  | [only] => .ok only
  | many =>
    match many.filter c.isPrimary with
    | [primary] => .ok primary
    | _ => .error (.noUniqueBean d.type.name many)

end Container

end Wiring
