import Wiring.Library
import Wiring.Scenario.Action

namespace Wiring.Scenario

def asValues (beans : List BeanId) : List (Value BeanId) := beans.map .bean

def fieldsOf (self : BeanId) : Script (Table String (Value BeanId)) := do
  return ((← Program.read).fields.get? self).getD {}

def setField (self : BeanId) (field : String) (v : Value BeanId) : Script Unit := do
  let fields ← fieldsOf self
  Program.modify fun s => { s with fields := s.fields.insert self (fields.insert field v) }

/-- The type names of the beans among some values. -/
def beanNames : List (Value BeanId) → Script (List (BeanId × String))
  | [] => return []
  | .bean b :: rest => do return (b, ← Script.typeName b) :: (← beanNames rest)
  | _ :: rest => beanNames rest

def describeCall (call : Call BeanId) : Script String := do
  let names ← beanNames call.args
  return call.describe fun b => (names.lookup b).getD ""

def Behaviour.run (stage : Stage) (self : BeanId) (call : Call BeanId) :
    Behaviour → Script (Value BeanId)
  | .get field => do return ((← fieldsOf self).get? field).getD .unit
  | .set field => do
    match call.args with
    | [] => return .unit
    | v :: _ =>
      setField self field v
      return .unit
  | .count field => do
    let before := (((← fieldsOf self).get? field).bind (·.int?)).getD 0
    setField self field (.int (before + 1))
    return .int (before + 1)
  | .describe => do return .str (← describeCall call)
  | .script actions result => do
    let f : Frame := { scope := "method:" ++ call.method, args := call.args }
    runScript stage f actions
    result.eval stage f

def invokeScripted (stage : Stage) (methods : List (String × Behaviour)) (self : BeanId)
    (call : Call BeanId) : Script (Value BeanId) := do
  match methods.lookup call.method with
  | some behaviour => behaviour.run stage self call
  | none => Program.fail (.noSuchMethod (← Script.typeName self) call.method)

def makeScripted (stage : Stage) (name : String) (actions : List Action) (result : BeanExpr)
    (c : ContainerId) : Script BeanId := do
  let f : Frame := { scope := "factory:" ++ name, container := c }
  Script.log f.scope "enter" .entered
  runScript stage f actions
  result.eval stage f

def runBody (stage : Stage) (name : String) (actions : List Action) (spec : SpecExpr)
    (ctx : Context Code) (parameters : List BeanId) : Script (Specification Code) := do
  let f : Frame :=
    { scope := "feature:" ++ name
      container := ctx.processor.container
      args := asValues parameters
      context := some ctx }
  Script.log f.scope "enter" (.parameters (← Script.exhibitAll parameters))
  runScript stage f actions
  spec.eval stage f

def validateScripted (keepsSource : Bool) (payload : String) (invalid : Field)
    (source : Option Source) : Script Unit := do
  if keepsSource then Script.log "spec" "validate" (.validated payload source) else pure ()
  match invalid with
  | some text => Program.fail (.invalidSpecification text)
  | none => return ()

def describeSpec (keepsSource : Bool) (payload : String) (source : Option Source) : String :=
  if keepsSource then
    Text.record "CustomSpec" [("payload", Text.quote payload),
      ("source", Text.optional (source.map (·.describe)))]
  else Text.record "PlainSpec" [("payload", Text.quote payload)]

def Code.executorType : Code → String
  | .spec _ type _ _ _ => type
  | _ => ""

def Code.describe : Code → String
  | .spec keepsSource _ payload _ source => describeSpec keepsSource payload source
  | _ => ""

def specType : Specification Code → String
  | .register _ _ _ => registeringType
  | .custom code => code.executorType

def specNote : Specification Code → Script Note
  | .register name bean source => do return .registering name (← Script.exhibit bean) source
  | .custom (.spec true _ payload _ source) => return .custom payload source
  | .custom code => return .plain code.describe

def executeScripted (stage : Stage) (label : String) (actions : List Action)
    (s : Specification Code) (c : ContainerId) : Script Unit := do
  let f : Frame := { scope := "executor:" ++ label, container := c }
  Script.log f.scope (specType s) (← specNote s)
  runScript stage f actions

/-- User code of one kind in the place of another cannot be run. -/
def misplaced {α : Type} : Script α := Program.panic "misplaced user code"

def runCode (stage : Stage) : Code → (e : Entry Code) → Script e.Answer
  | .factory name actions result, .make c => makeScripted stage name actions result c
  | .bean methods, .invoke self call => invokeScripted stage methods self call
  | .feature name actions spec, .body ctx parameters => runBody stage name actions spec ctx parameters
  | .spec true executor payload invalid _, .setSource source => do
    Script.log "spec" "set_source" (.source source)
    return .spec true executor payload invalid (some source)
  | .spec false executor payload invalid source, .setSource _ =>
    return .spec false executor payload invalid source
  | .spec keepsSource _ payload invalid source, .validate =>
    validateScripted keepsSource payload invalid source
  | .spec _ executor _ _ _, .executorType => return executor
  | .executor label actions, .execute s c => executeScripted stage label actions s c
  | .recorder c, .resolve d requesting => do
    Script.log "registry" "resolve_dependency" (.resolving d.display requesting)
    Program.request (.resolve c d requesting)
  | .recorder c, .getBean name => do
    Script.log "registry" "get_bean" (.lookingUp name)
    Program.request (.getBean c name)
  | _, _ => misplaced

def language (stage : Stage) : Language Code Session where
  run := runCode stage
  describe := Code.describe

abbrev State := World Code Session

/-- How deep calls of user code may be nested. -/
def depth : Nat := 10000

/-- Runs an action of the scenario itself. -/
def runStep (stage : Stage) (w : State) (a : Action) : StepReport × State :=
  let start : State := { w with trace := #[], user := { w.user with log := #[] } }
  let program := (a.run stage { scope := "" }).attempt
  let (ending, final) :=
    match program.interpret (answer (language stage) depth) start with
    | none => (Ending.panic "calls are nested too deep", start)
    | some (.ok (.ok r), w') => (.report r, w')
    | some (.ok (.error e), w') => (.report (.error e), w')
    | some (.error e, w') => (.report (.error e), w')
    | some (.panic text, w') => (.panic text, w')
  (⟨ending, final.user.log.toList, final.trace.toList.map (·.line)⟩, final)

def runSteps (stage : Stage) (w : State) : List Action → List StepReport
  | [] => []
  | a :: rest =>
    let (report, next) := runStep stage w a
    report :: runSteps stage next rest

/-- The reports of the actions, one after the other in one world. -/
def run (stage : Stage) (actions : List Action) : List StepReport :=
  runSteps stage { user := {} } actions

end Wiring.Scenario
