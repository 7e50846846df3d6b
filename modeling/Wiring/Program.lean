import Wiring.Feature

namespace Wiring

/-- How a computation ends. A panic passes through everything that does not clean up after itself. -/
inductive Outcome (α : Type) where
  | ok (a : α)
  | error (e : Error)
  | panic (text : String)

/-- A bean: an object of user code, or an early reference. -/
inductive Bean (C : Type) where
  | object (type : BeanType) (code : C)
  | early (r : EarlyReference C)

namespace Bean

variable {C : Type}

def type : Bean C → BeanType
  | object t _ => t
  | early r => r.type

def early? : Bean C → Option (EarlyReference C)
  | object _ _ => none
  | early r => some r

def isEarly (b : Bean C) : Bool := b.early?.isSome

end Bean

/-- The hash code of a bean: its identity, or a number that it gives itself. -/
inductive HashCode where
  | identity (b : BeanId)
  | word (w : UInt64)
  deriving DecidableEq

/-- What user code can ask for. -/
inductive Request (C : Type) where
  | define (c : ContainerId) (r : Recipe C)
  | registerSingleton (c : ContainerId) (name : String) (bean : BeanId)
  | getBean (c : ContainerId) (name : String)
  | resolve (c : ContainerId) (d : Dependency) (requesting : Option String)
  | preinstantiate (c : ContainerId)
  | container (c : ContainerId)
  | create (type : BeanType) (code : C)
  | bean (b : BeanId)
  | invoke (b : BeanId) (call : Call BeanId)
  | describe (b : BeanId)
  | equals (b : BeanId) (other : Value BeanId)
  | hashCode (b : BeanId)
  | dereference (b : BeanId)
  | newStatus
  | status (s : StatusId)
  | setStatus (s : StatusId) (value : Bool)
  | createProxy (k : Creator C) (d : Dependency)
  | createMethodProxy (k : Creator C) (declaring : BeanType) (m : Method BeanType)
  | registerConfiguration (p : Processor C) (c : Configuration C)
  | process (p : Processor C)
  | beanMethod (ctx : Context C) (name : String)
  | beanMethodOn (ctx : Context C) (configuration name : String)
  | execute (c : ContainerId) (s : Specification C) (e : Executor C)

/-- What a request is answered with if it succeeds. -/
@[reducible] def Request.Answer {C : Type} : Request C → Type
  | define _ _ => Unit
  | registerSingleton _ _ _ => Unit
  | getBean _ _ => BeanId
  | resolve _ _ _ => BeanId
  | preinstantiate _ => Unit
  | container _ => Container C
  | create _ _ => BeanId
  | bean _ => Bean C
  | invoke _ _ => Value BeanId
  | describe _ => String
  | equals _ _ => Bool
  | hashCode _ => HashCode
  | dereference _ => BeanId
  | newStatus => StatusId
  | status _ => Bool
  | setStatus _ _ => Unit
  | createProxy _ _ => BeanId
  | createMethodProxy _ _ _ => BeanId
  | registerConfiguration _ _ => Processor C
  | process _ => Unit
  | beanMethod _ _ => BeanId
  | beanMethodOn _ _ _ => BeanId
  | execute _ _ _ => Unit

/-- User code as a tree: it ends, looks at its own state, changes it, or asks for something and goes on
by the answer, be it a failure or a panic. -/
inductive Program (C S : Type) (α : Type) where
  | done (o : Outcome α)
  | peek (next : S → Program C S α)
  | poke (s : S) (next : Program C S α)
  | ask (q : Request C) (next : Outcome q.Answer → Program C S α)

namespace Program

variable {C S α β : Type}

/-- Goes on however the first program ends. -/
def followedBy (p : Program C S α) (next : Outcome α → Program C S β) : Program C S β :=
  match p with
  | done o => next o
  | peek k => peek fun s => (k s).followedBy next
  | poke s k => poke s (k.followedBy next)
  | ask q k => ask q fun a => (k a).followedBy next

def fail (e : Error) : Program C S α := done (.error e)

def panic (text : String) : Program C S α := done (.panic text)

/-- Goes on if the first program succeeds. -/
def andThen (p : Program C S α) (next : α → Program C S β) : Program C S β :=
  p.followedBy fun
    | .ok a => next a
    | .error e => fail e
    | .panic text => panic text

instance : Monad (Program C S) where
  pure a := done (.ok a)
  bind := andThen

/-- Asks, and fails or panics where the answer does. -/
def request (q : Request C) : Program C S q.Answer := ask q done

/-- A failure becomes a value; a panic does not. -/
def attempt (p : Program C S α) : Program C S (Except Error α) :=
  p.followedBy fun
    | .ok a => done (.ok (.ok a))
    | .error e => done (.ok (.error e))
    | .panic text => panic text

/-- Runs the last program at the end, however the first one ends. -/
def ensuring (p : Program C S α) (last : Program C S Unit) : Program C S α :=
  p.followedBy fun o => last.followedBy fun
    | .ok _ => done o
    | .error e => fail e
    | .panic text => panic text

def ofExcept : Except Error α → Program C S α
  | .ok a => done (.ok a)
  | .error e => fail e

def read : Program C S S := peek fun s => done (.ok s)

def modify (f : S → S) : Program C S Unit := peek fun s => poke (f s) (done (.ok ()))

end Program

/-- The ways in which the library calls user code. -/
inductive Entry (C : Type) where
  /-- A factory makes its bean. -/
  | make (c : ContainerId)
  | invoke (self : BeanId) (call : Call BeanId)
  | body (ctx : Context C) (parameters : List BeanId)
  /-- A specification is told where it comes from; the answer is the specification after that. -/
  | setSource (source : Source)
  | validate
  | executorType
  | execute (s : Specification C) (c : ContainerId)
  | resolve (d : Dependency) (requesting : Option String)
  | getBean (name : String)

@[reducible] def Entry.Answer {C : Type} : Entry C → Type
  | make _ => BeanId
  | invoke _ _ => Value BeanId
  | body _ _ => Specification C
  | setSource _ => C
  | validate => Unit
  | executorType => String
  | execute _ _ => Unit
  | resolve _ _ => BeanId
  | getBean _ => BeanId

/-- The meaning of user code: `C` names its pieces, and `S` is the state that it keeps for itself. -/
structure Language (C S : Type) where
  run : C → (e : Entry C) → Program C S e.Answer
  describe : C → String

end Wiring
