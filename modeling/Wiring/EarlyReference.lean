import Wiring.Container
import Wiring.Value

namespace Wiring

structure StatusId where
  index : Nat
  deriving DecidableEq

/-- Where a reference looks for its target. -/
inductive Registry (C : Type) where
  | container (c : ContainerId)
  | custom (code : C)

/-- What makes early references: they look in its registry and obey its flag. -/
structure Creator (C : Type) where
  registry : Registry C
  status : StatusId

inductive Target where
  | dependency (d : Dependency)
  | named (name : String) (type : BeanType)

namespace Target

def type : Target → BeanType
  | dependency d => d.type
  | named _ t => t

def describe : Target → String
  | dependency d => Text.form "Dependency" d.describe
  | named name type =>
    Text.record "ByName" [("bean_name", Text.quote name), ("bean_type", type.describe)]

end Target

inductive ObjectMethod where
  | describe
  | equals
  | hashCode
  deriving DecidableEq

/-- What answers a call. -/
inductive Route where
  | produce (m : Method BeanType)
  | object (m : ObjectMethod)
  | dereference
  | delegate

def describeMethod : String := "describe"

def equalsMethod : String := "equals"

def hashCodeMethod : String := "hash_code"

def dereferenceMethod : String := "dereference_target_bean"

/-- The routes by method name. -/
abbrev Routes := Table String Route

namespace Routes

/-- The routes of every reference. -/
def standard : Routes :=
  ((((⟨[]⟩ : Routes).insert dereferenceMethod .dereference).insert describeMethod
    (.object .describe)).insert equalsMethod (.object .equals)).insert hashCodeMethod
    (.object .hashCode)

def addProducer (routes : Routes) (m : Method BeanType) : Routes :=
  if m.isProducer then routes.insert m.name (.produce m) else routes

/-- Producer methods come last, so that they win over a standard route of their name. -/
def forType (t : BeanType) : Routes := t.allMethods.foldl addProducer standard

def route (routes : Routes) (method : String) : Route := (routes.get? method).getD .delegate

end Routes

/-- A bean that stands in for one that may not exist yet. It has the type of its target. -/
structure EarlyReference (C : Type) where
  target : Target
  routes : Routes
  creator : Creator C
  /-- The target, once it has been found. -/
  resolved : Option BeanId := none

namespace EarlyReference

variable {C : Type}

def make (creator : Creator C) (target : Target) : EarlyReference C :=
  ⟨target, Routes.forType target.type, creator, none⟩

def type (r : EarlyReference C) : BeanType := r.target.type

def describe (r : EarlyReference C) : String :=
  Text.record "EarlyBeanReferenceProxy" [("target", r.target.describe),
    ("resolved", Text.truth r.resolved.isSome)]

end EarlyReference

/-- Why no reference can stand in for a type: it has to be an interface, or a class that is not final
and whose constructor without arguments is not private. -/
def capability (t : BeanType) : Except Error Unit :=
  match t.kind with
  | .interface => .ok ()
  | .concrete true _ =>
    .error (.proxyCreation (s!"Cannot create subclass proxy for bean type {t.name} because it is a " ++
      "final class. Make the class non-final or inject the bean by interface rather than by " ++
      "concrete class."))
  | .concrete false none =>
    .error (.proxyCreation (s!"Cannot create subclass proxy for bean type {t.name} because it does " ++
      "not have a no-arg constructor. Add a no-arg constructor or attempt to inject the bean by " ++
      "interface rather than by concrete class."))
  | .concrete false (some .owner) =>
    .error (.proxyCreation (s!"Cannot create subclass proxy for bean type {t.name} because its " ++
      "no-arg constructor is private. Increase the visibility of the no-arg constructor or " ++
      "attempt to inject the bean by interface rather than by concrete class."))
  | .concrete false (some _) => .ok ()

/-- The target of a reference to the bean of a producer method: the bean of that name. -/
def producedTarget (declaring : BeanType) (m : Method BeanType) : Except Error Target :=
  let method := s!"{declaring.simpleName}::{m.name}()"
  match m.returns with
  | none => .error (.illegalState s!"{method} is not a bean method")
  | some t =>
    if t.isInterface then .ok (.named m.name t)
    else
      .error (.proxyCreation (s!"Bean method {method} is referenced from within a feature method, " ++
        "so its return type must be an interface, but it returns concrete type " ++
        s!"{t.simpleName}. Either change the return type of {m.name}() to an interface or do not " ++
        "reference it from within feature methods."))

/-- The fixed description of every reference to a type. -/
def earlyDescription (t : BeanType) : String :=
  s!"EarlyBeanReferenceProxy for bean of type {t.simpleName}"

/-- The object methods never touch the target. -/
def answerObjectMethod {β : Type} (m : ObjectMethod) (t : BeanType) : Except Error (Value β) :=
  match m with
  | .describe => .ok (.str (earlyDescription t))
  | .equals | .hashCode =>
    .error (.unsupportedOperation (s!"equals() and hashCode() methods on [{earlyDescription t}] " ++
      "should not be called as doing so will cause premature instantiation of the target bean " ++
      "object. This may have occurred because the proxied object was added to a hash-based " ++
      "collection."))

end Wiring
