import Wiring.Program
import Wiring.Scenario.Report
import Wiring.Scenario.Syntax

namespace Wiring.Scenario

/-- The pieces of user code of a scenario. -/
inductive Code where
  | factory (name : String) (actions : List Action) (result : BeanExpr)
  | bean (methods : List (String × Behaviour))
  | feature (name : String) (actions : List Action) (spec : SpecExpr)
  | spec (keepsSource : Bool) (executor payload : String) (invalid : Field) (source : Option Source)
  | executor (label : String) (actions : List Action)
  /-- A registry that logs what it is asked and passes it on to a container. -/
  | recorder (c : ContainerId)

structure Session where
  registers : Table String BeanId := {}
  statuses : Table String StatusId := {}
  creators : Table String (Creator Code) := {}
  processors : Table String (Processor Code) := {}
  fields : Table BeanId (Table String (Value BeanId)) := {}
  shown : List BeanId := []
  log : Array Logged := #[]

/-- What stays the same in a scenario: the types, and the names that a state is probed for. -/
structure Stage where
  types : Table String BeanType
  probe : List String

/-- Where an action runs: its script, the container that it uses unless it chooses one, the arguments,
and in a feature method its context. -/
structure Frame where
  scope : String
  container : ContainerId := ⟨0⟩
  args : List (Value BeanId) := []
  context : Option (Context Code) := none

abbrev Script := Program Code Session

namespace Script

variable {α : Type}

/-- A scenario that is wrong in itself. -/
def complain (text : String) : Script α := Program.fail (.illegalState ("driver: " ++ text))

/-- The text of a field that has to be there. -/
def need (label : String) (f : Field) : Script String :=
  match f with
  | some s => pure s
  | none => complain s!"'{label}' must be a string"

def found (kind name : String) : Option α → Script α
  | some a => pure a
  | none => complain s!"no {kind} '{name}'"

def log (scope verb : String) (note : Note) : Script Unit :=
  Program.modify fun s => { s with log := s.log.push ⟨scope, verb, note⟩ }

def register (name : String) : Script BeanId := do
  found "register" name ((← Program.read).registers.get? name)

def status (f : Field) : Script StatusId := do
  let name ← need "s" f
  found "status" name ((← Program.read).statuses.get? name)

def creator (f : Field) : Script (Creator Code) := do
  let name ← need "k" f
  found "creator" name ((← Program.read).creators.get? name)

def processor (name : String) : Script (Processor Code) := do
  found "processor" name ((← Program.read).processors.get? name)

def typeOf (stage : Stage) (label : String) (f : Field) : Script BeanType := do
  let key ← need label f
  found "type" key (stage.types.get? key)

/-- Puts a bean into the register of an action, if it names one. -/
def store (into : Field) (b : BeanId) : Script Unit :=
  match into with
  | none => pure ()
  | some name => Program.modify fun s => { s with registers := s.registers.insert name b }

/-- The number under which a bean is shown; the next free one if it was not shown before. -/
def number (b : BeanId) : Script Nat := do
  let s ← Program.read
  match s.shown.idxOf? b with
  | some n => return n
  | none =>
    Program.modify fun s => { s with shown := s.shown ++ [b] }
    return s.shown.length

def exhibit (b : BeanId) : Script Shown := do
  let v ← Program.request (.bean b)
  return ⟨← number b, v.type.name, v.isEarly⟩

def exhibitAll : List BeanId → Script (List Shown)
  | [] => return []
  | b :: rest => do return (← exhibit b) :: (← exhibitAll rest)

def exhibitValue : Value BeanId → Script (Value Shown)
  | .unit => return .unit
  | .bool b => return .bool b
  | .int i => return .int i
  | .str s => return .str s
  | .bean b => do return .bean (← exhibit b)

/-- The bean goes into its register and is shown. -/
def deliver (into : Field) (b : BeanId) : Script Report := do
  store into b
  return .bean (← exhibit b)

def early? (b : BeanId) : Script (Option (EarlyReference Code)) := do
  return (← Program.request (.bean b)).early?

def typeName (b : BeanId) : Script String := do
  return (← Program.request (.bean b)).type.name

/-- The flag has this value while the script runs, and then the one from before. -/
def guarded (s : StatusId) (value : Bool) (script : Script α) : Script α := do
  let previous ← Program.request (.status s)
  let _ ← Program.request (.setStatus s value)
  script.ensuring (Program.request (.setStatus s previous))

end Script

/-- Builds an error; what is missing is a complaint. -/
def ErrorExpr.build : ErrorExpr → Except Error Error
  | mk kind texts candidates source =>
    let complain := fun {α : Type} (text : String) =>
      (throw (.illegalState ("driver: " ++ text)) : Except Error α)
    let text := fun (label : String) =>
      match texts.lookup label with
      | some s => (pure s : Except Error String)
      | none => complain s!"'{label}' must be a string"
    match kind with
    | none => complain "'kind' must be a string"
    | some "ProxyCreation" => return .proxyCreation (← text "text")
    | some "UnsupportedOperation" => return .unsupportedOperation (← text "text")
    | some "NoSuchBeanDefinition" => return .noSuchBeanDefinition (← text "text")
    | some "SingletonAlreadyRegistered" => return .singletonAlreadyRegistered (← text "text")
    | some "CurrentlyInCreation" => return .currentlyInCreation (← text "text")
    | some "IllegalState" => return .illegalState (← text "text")
    | some "InvalidSpecification" => return .invalidSpecification (← text "text")
    | some "NoExecutor" => return .noExecutor (← text "text")
    | some "ConfigParse" => return .configParse (← text "text")
    | some "NoSuchBean" => return .noSuchBean (← text "type_name") (texts.lookup "parameter")
    | some "NoUniqueBean" => return .noUniqueBean (← text "type_name") candidates
    | some "BeanCreation" => return .beanCreation (← text "bean_name") (← text "reason")
    | some "NoSuchMethod" => return .noSuchMethod (← text "type_name") (← text "method")
    | some "FeatureMethodExecution" => do
      let method ← text "method"
      match source with
      | none => complain "'kind' must be a string"
      | some e => return .featureMethodExecution method (← e.build)
    | some other => complain s!"unknown error kind '{other}'"

end Wiring.Scenario
