import Wiring.Table
import Wiring.Text.Layout

namespace Wiring

/-- Whether producer methods yield early references. -/
structure ForwardMode where
  creatingProxies : Bool := false
  deriving DecidableEq

/-- What the flag was before the guard was taken. A guard that is released out of order gives back what it
found all the same. -/
structure ForwardMode.Guard where
  previous : Bool

namespace ForwardMode

def set (value : Bool) (_ : ForwardMode) : ForwardMode := ⟨value⟩

def guard (value : Bool) (m : ForwardMode) : Guard × ForwardMode :=
  (⟨m.creatingProxies⟩, m.set value)

def Guard.release (g : Guard) (m : ForwardMode) : ForwardMode := m.set g.previous

def describe (m : ForwardMode) : String :=
  Text.record "EarlyReferenceStatus" [("create_proxies", Text.truth m.creatingProxies)]

/-- What can be done to a flag from outside; guards are held under names. -/
inductive Step where
  | set (value : Bool)
  | take (value : Bool) (guard : String)
  | drop (guard : String)
  | unknown (verb : String)

inductive Refusal where
  | guardInUse
  | unknownStep (verb : String)

structure Held where
  mode : ForwardMode := {}
  guards : Table String Guard := {}

def Held.step (h : Held) : Step → Except Refusal Held
  | .set value => .ok { h with mode := h.mode.set value }
  | .take value name =>
    if h.guards.contains name then .error .guardInUse
    else
      let (g, mode) := h.mode.guard value
      .ok ⟨mode, h.guards.insert name g⟩
  | .drop name =>
    match h.guards.get? name with
    | none => .ok h
    | some g => .ok ⟨g.release h.mode, h.guards.erase name⟩
  | .unknown verb => .error (.unknownStep verb)

/-- The flag after each step. -/
def Held.run (h : Held) : List Step → Except Refusal (List ForwardMode)
  | [] => .ok []
  | s :: rest => do
    let next ← h.step s
    let later ← next.run rest
    return next.mode :: later

end ForwardMode

end Wiring
