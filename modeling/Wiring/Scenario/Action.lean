import Wiring.Scenario.Expression

namespace Wiring.Scenario

/-- There are three containers. -/
def containerOf (f : Frame) (chosen : Option Int) : Script ContainerId :=
  match chosen with
  | none => return f.container
  | some i =>
    if 0 ≤ i && i < 3 then return ⟨i.toNat⟩
    else Script.complain ("no container " ++ toString i)

def contextOf (f : Frame) : Script (Context Code) :=
  match f.context with
  | some ctx => return ctx
  | none => Script.complain "not in a feature method"

def defineRecipe (c : ContainerId) (r : Recipe Code) : Script Unit :=
  Program.request (.define c r)

def recipe (stage : Stage) (name type : Field) (factory : FactoryExpr) (lazy primary : Bool) :
    Script (Recipe Code) := do
  let n ← Script.need "name" name
  let t ← Script.typeOf stage "type" type
  return { name := n, type := t, lazy, primary, factory := factory.code n }

def dependency (stage : Stage) (type parameter : Field) : Script Dependency := do
  let t ← Script.typeOf stage "type" type
  return ⟨t, parameter⟩

/-- A bean that has to be there. -/
def requireBean (c : ContainerId) (name : String) : Script BeanId := do
  match ← (Program.request (.getBean c name)).attempt with
  | .ok b => return b
  | .error e =>
    Program.panic (s!"Failed to resolve required bean '{name}': " ++ e.message)

def stateReport (stage : Stage) (c : ContainerId) : Script Report := do
  let box ← Program.request (.container c)
  let definitions := box.definitionNames
  let probed := definitions ++ stage.probe.filter (!definitions.contains ·)
  return .state definitions (probed.filter box.hasSingleton) box.singletonCount

def addProcessor (c : ContainerId) (name : String) (settings : Settings) : Script Report := do
  let status ← Program.request .newStatus
  let p : Processor Code := Processor.make c status settings
  Program.modify fun s =>
    { s with
      processors := s.processors.insert name p
      statuses := s.statuses.insert name status
      creators := s.creators.insert name p.creator }
  let box ← Program.request (.container c)
  return .number box.singletonCount

def setProcessor (name : String) (p : Processor Code) : Script Unit :=
  Program.modify fun s => { s with processors := s.processors.insert name p }

/-- What an early reference tells, or that the bean is none. -/
def ofEarly (b : BeanId) (tell : EarlyReference Code → Script Report) : Script Report := do
  match ← Script.early? b with
  | none => return .text "not early"
  | some r => tell r

def returned (stage : Stage) (returns : Field) : Script (Option BeanType) :=
  match returns with
  | none => return none
  | some key => do return some (← Script.typeOf stage "returns" (some key))

/-- Takes a step; `c` is the container chosen by the action or its script, and `own` the one chosen by
the action or else the first. -/
def Step.run (stage : Stage) (f : Frame) (c own : ContainerId) (into : Field) : Step → Script Report
  | .define name type factory lazy primary => do
    let r ← recipe stage name type factory lazy primary
    defineRecipe c r
    return .text (r.definition 0).describe
  | .addSingleton name type factory lazy => do
    defineRecipe c (← recipe stage name type factory lazy false)
    return .nothing
  | .registerSingleton name bean => do
    let n ← Script.need "name" name
    let b ← bean.eval stage f
    Program.request (.registerSingleton c n b)
    return .nothing
  | .get name => do
    let n ← Script.need "name" name
    Script.deliver into (← Program.request (.getBean c n))
  | .require name => do
    let n ← Script.need "name" name
    Script.deliver into (← requireBean c n)
  | .resolve type parameter requesting => do
    let d ← dependency stage type parameter
    Script.deliver into (← Program.request (.resolve c d requesting))
  | .contains name => do
    let n ← Script.need "name" name
    let box ← Program.request (.container c)
    return .presence (box.hasDefinition n) (box.hasSingleton n) (box.hasBean n)
  | .preinstantiate => do
    Program.request (.preinstantiate c)
    return .nothing
  | .state => stateReport stage c
  | .newStatus status => do
    let name ← Script.need "s" status
    let id ← Program.request .newStatus
    Program.modify fun s => { s with statuses := s.statuses.insert name id }
    return .nothing
  | .setStatus status value => do
    Program.request (.setStatus (← Script.status status) value)
    return .nothing
  | .getStatus status => do return .flag (← Program.request (.status (← Script.status status)))
  | .newCreator creator status recording => do
    let name ← Script.need "k" creator
    let id ← Script.status status
    let registry := if recording then .custom (.recorder own) else .container own
    Program.modify fun s => { s with creators := s.creators.insert name ⟨registry, id⟩ }
    return .nothing
  | .proxy creator type parameter => do
    let k ← Script.creator creator
    let d ← dependency stage type parameter
    Script.deliver into (← Program.request (.createProxy k d))
  | .methodProxy creator type method returns => do
    let k ← Script.creator creator
    let t ← Script.typeOf stage "type" type
    let m ← Script.need "method" method
    let r ← returned stage returns
    Script.deliver into (← Program.request (.createMethodProxy k t ⟨m, r⟩))
  | .create bean => do Script.deliver into (← bean.eval stage f)
  | .invoke bean method args => do
    let b ← bean.eval stage f
    let m ← Script.need "method" method
    let vs ← evalValues stage f args
    let v ← Program.request (.invoke b ⟨m, vs⟩)
    match v with
    | .bean result => Script.store into result
    | _ => pure ()
    return .value (← Script.exhibitValue v)
  | .describe bean => do return .text (← Program.request (.describe (← bean.eval stage f)))
  | .equals bean other => do
    let b ← bean.eval stage f
    let v ← other.eval stage f
    return .flag (← Program.request (.equals b v))
  | .hashCode bean => do
    let _ ← Program.request (.hashCode (← bean.eval stage f))
    return .text "HASH"
  | .sameHash a b => do
    let x ← a.eval stage f
    let y ← b.eval stage f
    let hx : HashCode ← Program.request (.hashCode x)
    let hy : HashCode ← Program.request (.hashCode y)
    return .flag (decide (hx = hy))
  | .dereference bean => do
    let b ← bean.eval stage f
    ofEarly b fun _ => do Script.deliver into (← Program.request (.dereference b))
  | .targetType bean => do ofEarly (← bean.eval stage f) fun r => return .text r.type.name
  | .inspect bean => do Script.deliver into (← bean.eval stage f)
  | .debug bean => do ofEarly (← bean.eval stage f) fun r => return .text r.describe
  | .newProcessor processor settings => do
    addProcessor own (← Script.need "p" processor) settings
  | .registerConfiguration processor configuration => do
    let name ← Script.need "p" processor
    let p ← Script.processor name
    let c ← configuration.eval stage
    setProcessor name (← Program.request (.registerConfiguration p c))
    return .configuration (summary c)
  | .registerExecutor processor executorType executor => do
    let name ← Script.need "p" processor
    let p ← Script.processor name
    let type ← Script.need "executor" executorType
    setProcessor name (p.withExecutor type executor.executor)
    return .text type
  | .process processor => do
    let p ← Script.processor (← Script.need "p" processor)
    Program.request (.process p)
    return .nothing
  | .execute spec executor => do
    let s ← spec.eval stage f
    Program.request (.execute c s executor.executor)
    return .nothing
  | .beanMethod name => do
    let ctx ← contextOf f
    let n ← Script.need "name" name
    Script.deliver into (← Program.request (.beanMethod ctx n))
  | .beanMethodOn configuration name => do
    let ctx ← contextOf f
    let other ← Script.need "configuration" configuration
    let n ← Script.need "name" name
    Script.deliver into (← Program.request (.beanMethodOn ctx other n))
  | .mode => do
    let ctx ← contextOf f
    return .flag (← Program.request (.status ctx.processor.status))
  | .fail error => do
    match error.build with
    | .ok e | .error e => Program.fail e
  | .panic message => Program.panic message
  | .unknown verb => Script.complain s!"unknown action '{verb}'"

def Action.verb : Action → String
  | .mk verb _ _ _ => verb

mutual

def Op.run (stage : Stage) (f : Frame) (c own : ContainerId) (into : Field) : Op → Script Report
  | .step s => s.run stage f c own into
  | .underStatus value status actions => do
    let id ← Script.status status
    Script.guarded id value (runScript stage f actions)
    return .nothing
  | .attempt actions => do
    match ← (runScript stage f actions).attempt with
    | .ok _ => return .text "ok"
    | .error e => return .error e

/-- The container of an action is looked up first. -/
def Action.run (stage : Stage) (f : Frame) : Action → Script Report
  | .mk _ container into op => do
    let c ← containerOf f container
    let own := if container.isSome then c else ⟨0⟩
    op.run stage f c own into

/-- Runs actions up to the first that fails, and logs each as it ends. -/
def runScript (stage : Stage) (f : Frame) : List Action → Script Unit
  | [] => return ()
  | a :: rest => do
    match ← (a.run stage f).attempt with
    | .ok r =>
      Script.log f.scope a.verb (.report r)
      runScript stage f rest
    | .error e =>
      Script.log f.scope a.verb (.report (.error e))
      Program.fail e

end

end Wiring.Scenario
