import Wiring.Reference

namespace Wiring

namespace Specification

variable {C S : Type}

def setSource (user : UserCode C S) (source : Source) : Specification C → Run C S (Specification C)
  | register name bean _ => return register name bean (some source)
  | custom code => do return custom (← user code (.setSource source))

def validate (user : UserCode C S) : Specification C → Run C S Unit
  | register name _ _ =>
    if Text.isBlank name then
      Run.fail (.invalidSpecification "a bean name is required to register a bean")
    else return ()
  | custom code => user code .validate

def executorType (user : UserCode C S) : Specification C → Run C S String
  | register _ _ _ => return registeringType
  | custom code => user code .executorType

def describe (lang : Language C S) (w : World C S) : Specification C → String
  | register name bean source =>
    Text.record "BeanRegisteringSpecification" [("bean_name", Text.quote name),
      ("bean_type", Text.quote (w.typeName bean)),
      ("source", Text.optional (source.map (·.describe)))]
  | custom code => lang.describe code

/-- Applies a specification that was validated. -/
def applyTo (lang : Language C S) (user : UserCode C S) (c : ContainerId) (e : Executor C)
    (s : Specification C) : Run C S Unit :=
  match e, s with
  | .custom code, s => user code (.execute s c)
  | .registering, register name bean _ => Lookup.registerSingleton c name bean
  | .registering, custom code =>
    Run.fail (.illegalState s!"bean-registering executor cannot process {lang.describe code}")

/-- Applies a specification if it is valid. -/
def execute (lang : Language C S) (user : UserCode C S) (c : ContainerId) (e : Executor C)
    (s : Specification C) : Run C S Unit := do
  s.validate user
  s.applyTo lang user c e

end Specification

namespace Bootstrap

variable {C S : Type}

def defineAll (c : ContainerId) (producers : List (Producer C)) (w : World C S) : World C S :=
  producers.foldl (fun w p => w.define c p.recipe) w

/-- Registers a configuration and a definition for each of its producers. -/
def registerConfiguration (p : Processor C) (c : Configuration C) : Run C S (Processor C) :=
  if (p.configuration? c.name).isSome then
    Run.fail (.illegalState s!"a configuration named '{c.name}' is already registered")
  else do
    Run.modify (defineAll p.container c.producers)
    Run.record (.registeredConfiguration c.name c.producers.length c.features.length)
    return { p with configurations := p.configurations ++ [c] }

/-- The bean of a producer method: a reference while the flag is on, else the real bean. -/
def callProducer (user : UserCode C S) (p : Processor C) (c : Configuration C) (name : String) :
    Run C S BeanId :=
  match c.declaringType.methods.find? fun m => m.name == name && m.isProducer with
  | none => Run.fail (.noSuchMethod c.name name)
  | some m => do
    let w ← Run.get
    if w.creatingProxies p.status then
      Reference.createMethodProxy p.creator c.declaringType m
    else Lookup.getBean user p.container name

def callProducerOn (user : UserCode C S) (p : Processor C) (configuration name : String) :
    Run C S BeanId :=
  match p.configuration? configuration with
  | none => Run.fail (.illegalState s!"no configuration named '{configuration}' is registered")
  | some c => callProducer user p c name

/-- What a feature method gets for one parameter. -/
def parameter (user : UserCode C S) (p : Processor C) (d : Dependency) : Run C S BeanId :=
  if p.settings.proxyFeatureParameters then Reference.createProxy p.creator d
  else Run.guarded p.status false (Lookup.resolve user p.container d none)

def parameters (user : UserCode C S) (p : Processor C) (source : Source) (index : Nat) :
    List BeanType → Run C S (List BeanId)
  | [] => return []
  | t :: rest => do
    let b ← parameter user p (parameterDependency source index t)
    let more ← parameters user p source (index + 1) rest
    return b :: more

/-- The specification of a feature method; all of this phase runs with the flag on. -/
def specification (user : UserCode C S) (p : Processor C) (c : Configuration C) (f : Feature C) :
    Run C S (Specification C) :=
  Run.guarded p.status true do
    let args ← parameters user p ⟨c.name, f.name⟩ 0 f.parameters
    user f.body (.body ⟨p, c⟩ args)

/-- Has a validated specification executed by the executor of its type. -/
def dispatch (lang : Language C S) (user : UserCode C S) (p : Processor C) (s : Specification C) :
    Run C S Unit := do
  let type ← s.executorType user
  match p.executors.get? type with
  | none => Run.fail (.noExecutor type)
  | some e => do
    let w ← Run.get
    Run.record (.executing type (s.describe lang w))
    s.applyTo lang user p.container e

def runFeature (lang : Language C S) (user : UserCode C S) (p : Processor C) (c : Configuration C)
    (f : Feature C) : Run C S Unit := do
  let returned ← specification user p c f
  let s ← returned.setSource user ⟨c.name, f.name⟩
  s.validate user
  dispatch lang user p s

/-- Runs a feature method; a failure is reported as that of the method. -/
def processFeature (lang : Language C S) (user : UserCode C S) (p : Processor C)
    (c : Configuration C) (f : Feature C) : Run C S Unit :=
  let method := (Source.mk c.name f.name).display
  (Run.record (.processing method)).followedBy fun _ =>
    (runFeature lang user p c f).followedBy fun
      | .error e => do
        Run.record (.featureFailed method e.message)
        Run.fail (.featureMethodExecution method e)
      | o => Run.done o

def processFeatures (lang : Language C S) (user : UserCode C S) (p : Processor C)
    (c : Configuration C) : List (Feature C) → Run C S Unit
  | [] => return ()
  | f :: rest => do
    processFeature lang user p c f
    processFeatures lang user p c rest

def processConfigurations (lang : Language C S) (user : UserCode C S) (p : Processor C) :
    List (Configuration C) → Run C S Unit
  | [] => return ()
  | c :: rest => do
    if c.features.isEmpty then Run.record (.nothingToProcess c.name)
    else processFeatures lang user p c c.features
    processConfigurations lang user p rest

/-- A bootstrap pass. The first failure of a feature method ends it. -/
def process (lang : Language C S) (user : UserCode C S) (p : Processor C) : Run C S Unit :=
  (Run.record .entered).followedBy fun _ =>
    Run.cleanup
      (do
        processConfigurations lang user p p.configurations
        if p.settings.preinstantiateSingletons then Lookup.preinstantiate user p.container
        else return ())
      (·.record .left)

end Bootstrap

end Wiring
