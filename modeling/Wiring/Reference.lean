import Wiring.Lookup

namespace Wiring

namespace Reference

variable {C S : Type}

def make (k : Creator C) (target : Target) : Run C S BeanId := fun w =>
  let (b, w') := (w.record (.creatingReference target.type.name)).addBean
    (.early (.make k target))
  some (.ok b, w')

def createProxy (k : Creator C) (d : Dependency) : Run C S BeanId := do
  Run.ofExcept (capability d.type)
  make k (.dependency d)

def createMethodProxy (k : Creator C) (declaring : BeanType) (m : Method BeanType) :
    Run C S BeanId := do
  let target ← Run.ofExcept (producedTarget declaring m)
  make k target

/-- A producer method called on a reference yields a reference to the bean of the method, while the
flag is on. -/
def produce (r : EarlyReference C) (m : Method BeanType) : Run C S (Value BeanId) := do
  let w ← Run.get
  if w.creatingProxies r.creator.status then
    let b ← createMethodProxy r.creator r.type m
    return .bean b
  else
    Run.fail (.illegalState (s!"bean method {r.type.simpleName}::{m.name}() was called on an early " ++
      "bean reference outside of forward-reference mode"))

def report : Target → Event
  | .dependency d => .dereferencingByType d.display
  | .named name _ => .dereferencingByName name

def lookUp (user : UserCode C S) (registry : Registry C) (target : Target) : Run C S BeanId := do
  Run.record (report target)
  match registry, target with
  | .container c, .dependency d => Lookup.resolve user c d none
  | .container c, .named name _ => Lookup.getBean user c name
  | .custom code, .dependency d => Lookup.existing (user code (.resolve d none))
  | .custom code, .named name _ => Lookup.existing (user code (.getBean name))

/-- Pins the target that was found, unless the reference has one by now; that one is kept. -/
def settle (b target : BeanId) : Run C S BeanId := fun w =>
  match (w.bean? b).bind fun v => v.early?.bind (·.resolved) with
  | some kept => some (.ok kept, w)
  | none => some (.ok target, w.pin b target)

/-- The target of a reference. It is looked for with the flag off, at most until it is found once. -/
def findTarget (user : UserCode C S) (b : BeanId) (r : EarlyReference C) : Run C S BeanId :=
  match r.resolved with
  | some target => pure target
  | none => do
    let target ← Run.guarded r.creator.status false (lookUp user r.creator.registry r.target)
    settle b target

/-- What a route answers; delegation needs no more here than the target itself. -/
def onRoute (user : UserCode C S) (b : BeanId) (r : EarlyReference C) (route : Route) :
    Run C S (Value BeanId) :=
  match route with
  | .produce m => produce r m
  | .object m => Run.ofExcept (answerObjectMethod m r.type)
  | .dereference | .delegate => do
    let target ← findTarget user b r
    return .bean target

/-- An answer that does not fit the method it was asked of. -/
def unexpected {α : Type} (method : String) (v : Value BeanId) : Run C S α := do
  let w ← Run.get
  Run.fail (.illegalState
    (s!"early bean reference returned {v.describe w.typeName} from {method}"))

/-- The bean behind a reference, by way of the route of the method that asks for it. -/
def dereference (user : UserCode C S) (b : BeanId) (r : EarlyReference C) : Run C S BeanId := do
  let v ← onRoute user b r (r.routes.route dereferenceMethod)
  match v with
  | .bean target => return target
  | other => unexpected dereferenceMethod other

/-- A call on a reference; `ask` makes the call on the target if it is delegated. -/
def invoke (user : UserCode C S) (ask : (q : Request C) → Run C S q.Answer) (b : BeanId)
    (r : EarlyReference C) (call : Call BeanId) : Run C S (Value BeanId) :=
  match r.routes.route call.method with
  | .delegate => do
    let target ← dereference user b r
    let w ← Run.get
    Run.record (.delegating call.method (w.typeName target))
    ask (.invoke target call)
  | route => onRoute user b r route

end Reference

namespace Bean

variable {C S : Type}

def invoke (user : UserCode C S) (ask : (q : Request C) → Run C S q.Answer) (b : BeanId)
    (call : Call BeanId) : Run C S (Value BeanId) := do
  match ← Run.bean b with
  | .object _ code => user code (.invoke b call)
  | .early r => Reference.invoke user ask b r call

/-- An object is described by its type and address; addresses are not told apart. -/
def describe (user : UserCode C S) (ask : (q : Request C) → Run C S q.Answer) (b : BeanId) :
    Run C S String := do
  match ← Run.bean b with
  | .object t _ => return s!"{t.simpleName}@ADDRESS"
  | .early r =>
    match ← Reference.invoke user ask b r ⟨describeMethod, []⟩ with
    | .str s => return s
    | other => Reference.unexpected describeMethod other

/-- An object equals itself only. -/
def equals (user : UserCode C S) (ask : (q : Request C) → Run C S q.Answer) (b : BeanId)
    (other : Value BeanId) : Run C S Bool := do
  match ← Run.bean b with
  | .object _ _ => return other.bean? == some b
  | .early r =>
    match ← Reference.invoke user ask b r ⟨equalsMethod, [other]⟩ with
    | .bool v => return v
    | other => Reference.unexpected equalsMethod other

/-- The hash code of an object is its identity; that of a reference is an integer as a word. -/
def hashCode (user : UserCode C S) (ask : (q : Request C) → Run C S q.Answer) (b : BeanId) :
    Run C S HashCode := do
  match ← Run.bean b with
  | .object _ _ => return .identity b
  | .early r =>
    match ← Reference.invoke user ask b r ⟨hashCodeMethod, []⟩ with
    | .int i => return .word i.toUInt64
    | other => Reference.unexpected hashCodeMethod other

def dereference (user : UserCode C S) (b : BeanId) : Run C S BeanId := do
  match ← Run.bean b with
  | .object t _ => Run.panic s!"{t.name} is not an early reference"
  | .early r => Reference.dereference user b r

end Bean

end Wiring
