import Wiring.Event
import Wiring.ForwardMode
import Wiring.Program

namespace Wiring

/-- The state that the library works on. All containers exist from the start and are empty; a bean or flag is
known by its number. A run is one of a single thread. -/
structure World (C S : Type) where
  containers : Table ContainerId (Container C) := {}
  beans : Array (Bean C) := #[]
  statuses : Array ForwardMode := #[]
  /-- The names of the beans in creation in this thread, in whatever container, the innermost first. -/
  marks : List String := []
  trace : Array Event := #[]
  user : S

namespace World

variable {C S : Type}

def container (w : World C S) (c : ContainerId) : Container C := (w.containers.get? c).getD {}

def setContainer (w : World C S) (c : ContainerId) (v : Container C) : World C S :=
  { w with containers := w.containers.insert c v }

def bean? (w : World C S) (b : BeanId) : Option (Bean C) := w.beans[b.index]?

/-- The type of a bean that is no early reference. -/
def plainType (w : World C S) (b : BeanId) : Option BeanType :=
  match w.bean? b with
  | some (.object t _) => some t
  | _ => none

def typeName (w : World C S) (b : BeanId) : String :=
  match w.bean? b with
  | some v => v.type.name
  | none => ""

def creatingProxies (w : World C S) (s : StatusId) : Bool :=
  (w.statuses[s.index]?).any (·.creatingProxies)

def setCreatingProxies (w : World C S) (s : StatusId) (value : Bool) : World C S :=
  { w with statuses := w.statuses.modify s.index (·.set value) }

def record (w : World C S) (e : Event) : World C S := { w with trace := w.trace.push e }

def addBean (w : World C S) (b : Bean C) : BeanId × World C S :=
  (⟨w.beans.size⟩, { w with beans := w.beans.push b })

/-- Pins the target of an early reference. -/
def pin (w : World C S) (b target : BeanId) : World C S :=
  { w with beans := w.beans.modify b.index fun
      | .early r => .early { r with resolved := some target }
      | .object t code => .object t code }

end World

/-- A computation on the world. It ends in some outcome, or does not end within the depth of calls that
it was given. -/
def Run (C S α : Type) : Type := World C S → Option (Outcome α × World C S)

namespace Run

variable {C S α β : Type}

def done (o : Outcome α) : Run C S α := fun w => some (o, w)

/-- Goes on however the first computation ends. -/
def followedBy (r : Run C S α) (next : Outcome α → Run C S β) : Run C S β := fun w =>
  match r w with
  | none => none
  | some (o, w') => next o w'

def fail (e : Error) : Run C S α := done (.error e)

def panic (text : String) : Run C S α := done (.panic text)

/-- Goes on if the first computation succeeds. -/
def andThen (r : Run C S α) (next : α → Run C S β) : Run C S β :=
  r.followedBy fun
    | .ok a => next a
    | .error e => fail e
    | .panic text => panic text

instance : Monad (Run C S) where
  pure a := done (.ok a)
  bind := andThen

def get : Run C S (World C S) := fun w => some (.ok w, w)

def modify (f : World C S → World C S) : Run C S Unit := fun w => some (.ok (), f w)

def ofExcept : Except Error α → Run C S α
  | .ok a => done (.ok a)
  | .error e => fail e

/-- Changes the world at the end, however the computation ends. -/
def cleanup (r : Run C S α) (f : World C S → World C S) : Run C S α := fun w =>
  match r w with
  | none => none
  | some (o, w') => some (o, f w')

def record (e : Event) : Run C S Unit := modify (·.record e)

/-- A bean that does not exist is a mistake of user code. -/
def bean (b : BeanId) : Run C S (Bean C) := fun w =>
  match w.bean? b with
  | some v => some (.ok v, w)
  | none => some (.panic "no such bean", w)

/-- The flag has this value while the computation runs, and then the one from before. -/
def guarded (s : StatusId) (value : Bool) (r : Run C S α) : Run C S α := fun w =>
  (r.cleanup (·.setCreatingProxies s (w.creatingProxies s))) (w.setCreatingProxies s value)

end Run

/-- Runs a program, with its requests answered by `ask`. -/
def Program.interpret {C S α : Type} (ask : (q : Request C) → Run C S q.Answer) :
    Program C S α → Run C S α
  | done o => Run.done o
  | peek k => fun w => (k w.user).interpret ask w
  | poke s k => fun w => k.interpret ask { w with user := s }
  | .ask q k => (ask q).followedBy fun a => (k a).interpret ask

end Wiring
