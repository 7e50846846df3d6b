import Wiring.EarlyReference
import Wiring.Settings
import Wiring.Text.Blank

namespace Wiring

/-- The feature method that a specification comes from. -/
structure Source where
  configuration : String
  method : String
  deriving DecidableEq

namespace Source

def display (s : Source) : String := s!"{s.configuration}::{s.method}()"

def describe (s : Source) : String :=
  Text.record "SpecificationSource" [("configuration", Text.quote s.configuration),
    ("method", Text.quote s.method)]

end Source

/-- An instruction: to register a ready-made bean, or one that is up to user code. -/
inductive Specification (C : Type) where
  | register (name : String) (bean : BeanId) (source : Option Source)
  | custom (code : C)

inductive Executor (C : Type) where
  /-- Registers the bean of a specification. -/
  | registering
  | custom (code : C)

/-- The executor type of the specifications that register a bean. -/
def registeringType : String := "bean-registering"

/-- A method that makes a bean, which is registered under the name of the method. -/
structure Producer (C : Type) where
  name : String
  returns : BeanType
  lazy : Bool
  factory : C

def Producer.recipe {C : Type} (p : Producer C) : Recipe C :=
  { name := p.name, type := p.returns, lazy := p.lazy, factory := p.factory }

/-- A method that returns a specification; a parameter is given by its type. -/
structure Feature (C : Type) where
  name : String
  parameters : List BeanType
  body : C

/-- Producer methods, and feature methods that are run in a bootstrap pass. -/
structure Configuration (C : Type) where
  name : String
  producers : List (Producer C)
  features : List (Feature C)

/-- The configuration as a type: a class that declares its producer methods. -/
def Configuration.declaringType {C : Type} (c : Configuration C) : BeanType :=
  { BeanType.plainClass c.name with methods := c.producers.map fun p => ⟨p.name, some p.returns⟩ }

/-- What runs the feature methods of its configurations against one container. -/
structure Processor (C : Type) where
  container : ContainerId
  status : StatusId
  configurations : List (Configuration C) := []
  executors : Table String (Executor C)
  settings : Settings

namespace Processor

variable {C : Type}

def make (container : ContainerId) (status : StatusId) (settings : Settings) : Processor C :=
  { container, status, settings, executors := ⟨[(registeringType, .registering)]⟩ }

def creator (p : Processor C) : Creator C := ⟨.container p.container, p.status⟩

def configuration? (p : Processor C) (name : String) : Option (Configuration C) :=
  p.configurations.find? (·.name == name)

def withExecutor (p : Processor C) (executorType : String) (e : Executor C) : Processor C :=
  { p with executors := p.executors.insert executorType e }

end Processor

/-- What a feature method can refer to while it runs. -/
structure Context (C : Type) where
  processor : Processor C
  configuration : Configuration C

/-- The dependency of a parameter of a feature method. -/
def parameterDependency (s : Source) (index : Nat) (t : BeanType) : Dependency :=
  ⟨t, some s!"parameter {index} of {s.display}"⟩

end Wiring
