import Wiring.World

namespace Wiring

/-- How pieces of user code are run. -/
abbrev UserCode (C S : Type) : Type := C → (e : Entry C) → Run C S e.Answer

namespace World

variable {C S : Type}

def define (w : World C S) (c : ContainerId) (r : Recipe C) : World C S :=
  let warned :=
    if (w.container c).hasDefinition r.name then w.record (.overridingDefinition r.name) else w
  (warned.record (.registeredDefinition r.name r.type.name r.lazy)).setContainer c
    ((w.container c).define r)

def accept (w : World C S) (c : ContainerId) (serial : Nat) (b : BeanId) : World C S :=
  w.setContainer c ((w.container c).accept serial b)

def bind (w : World C S) (c : ContainerId) (name : String) (b : BeanId) : World C S :=
  (w.record (.registeredSingleton name)).setContainer c ((w.container c).bind name b)

def remember (w : World C S) (c : ContainerId) (name : String) : World C S :=
  w.setContainer c ((w.container c).remember name)

def mark (w : World C S) (name : String) : World C S := { w with marks := name :: w.marks }

def unmark (w : World C S) (name : String) : World C S := { w with marks := w.marks.erase name }

end World

namespace Lookup

variable {C S α : Type}

/-- Makes a bean that user code hands over certain to exist. -/
def existing (r : Run C S BeanId) : Run C S BeanId := do
  let b ← r
  let _ ← Run.bean b
  return b

/-- Runs a creation under the mark of its bean. A bean that bears the mark already is asked for by its
own creation. -/
def marked (name : String) (r : Run C S α) : Run C S α := fun w =>
  if w.marks.contains name then some (.error (.currentlyInCreation name), w)
  else (r.cleanup (·.unmark name)) (w.mark name)

/-- The bean of a factory, if its type is the declared one or one assignable to it. -/
def accepted (c : ContainerId) (d : Definition C) (b : BeanId) : Run C S BeanId := do
  let v ← Run.bean b
  if v.type.isAssignableTo d.type then
    Run.modify (·.accept c d.serial b)
    return b
  else
    Run.fail (.beanCreation d.name
      s!"factory produced a {v.type.name} where a {d.type.name} was declared")

/-- The bean of a definition; its factory is run unless one was accepted before. -/
def create (user : UserCode C S) (c : ContainerId) (d : Definition C) : Run C S BeanId :=
  match d.created with
  | some b => pure b
  | none => marked d.name do
    let b ← user d.factory (.make c)
    accepted c d b

/-- Registers a created bean, unless its factory has registered one itself; that one is kept. -/
def keep (c : ContainerId) (name : String) (b : BeanId) : Run C S BeanId := fun w =>
  match (w.container c).singleton? name with
  | some kept => some (.ok kept, w)
  | none => some (.ok b, w.bind c name b)

/-- A factory may do anything to the same container, so the state is read again after it. -/
def getBean (user : UserCode C S) (c : ContainerId) (name : String) : Run C S BeanId := do
  let w ← Run.get
  match (w.container c).singleton? name with
  | some b => return b
  | none =>
    match (w.container c).definition? name with
    | none => Run.fail (.noSuchBeanDefinition name)
    | some d =>
      let b ← create user c d
      keep c name b

def resolve (user : UserCode C S) (c : ContainerId) (d : Dependency) (requesting : Option String) :
    Run C S BeanId := do
  let w ← Run.get
  let name ← Run.ofExcept ((w.container c).select w.plainType d requesting)
  getBean user c name

def registerSingleton (c : ContainerId) (name : String) (b : BeanId) : Run C S Unit := do
  let _ ← Run.bean b
  let w ← Run.get
  if (w.container c).hasSingleton name then Run.fail (.singletonAlreadyRegistered name)
  else Run.modify fun w => (w.bind c name b).remember c name

/-- Creates the bean of one name, if its definition is not lazy and there is no singleton yet. -/
def preinstantiateOne (user : UserCode C S) (c : ContainerId) (name : String) : Run C S Unit := do
  let w ← Run.get
  if ((w.container c).definition? name).any (!·.lazy) && !(w.container c).hasSingleton name then
    Run.record (.preinstantiating name)
    let _ ← getBean user c name
    return ()
  else return ()

def preinstantiateEach (user : UserCode C S) (c : ContainerId) : List String → Run C S Unit
  | [] => return ()
  | name :: rest => do
    preinstantiateOne user c name
    preinstantiateEach user c rest

/-- The names are those of the definitions at the start; what stands behind each is read at its turn. -/
def preinstantiate (user : UserCode C S) (c : ContainerId) : Run C S Unit := do
  let w ← Run.get
  preinstantiateEach user c (w.container c).definitionNames

end Lookup

end Wiring
