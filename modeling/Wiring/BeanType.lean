import Wiring.Text.Layout

namespace Wiring

/-- Who may call the constructor without arguments of a class. -/
inductive Visibility where
  | everyone
  | heirs
  | package
  | owner
  deriving DecidableEq

inductive Kind where
  | interface
  /-- A class; a constructor without arguments need not be declared at all. -/
  | concrete (final : Bool) (plainConstructor : Option Visibility)
  deriving DecidableEq

/-- A method over types of the form `τ`; one with a return type is a producer. -/
structure Method (τ : Type) where
  name : String
  returns : Option τ := none

/-- What a bean is known by at run time. Types are compared by name, while look-ups follow the structure. -/
structure BeanType where
  name : String
  kind : Kind
  interfaces : List BeanType
  methods : List (Method BeanType)

namespace BeanType

/-- An interface without methods. -/
def interface (name : String) : BeanType := ⟨name, .interface, [], []⟩

/-- A class without methods that is not final and that everyone can construct. -/
def plainClass (name : String) : BeanType := ⟨name, .concrete false (some .everyone), [], []⟩

def isInterface (t : BeanType) : Bool := t.kind == .interface

/-- Adds the methods whose names are not there yet. -/
def inherit (known more : List (Method BeanType)) : List (Method BeanType) :=
  more.foldl (fun out m => if out.any (·.name == m.name) then out else out ++ [m]) known

mutual
/-- The declared methods, then those of the interfaces in order: a name that is there already
shadows a later one. -/
def allMethods : BeanType → List (Method BeanType)
  | ⟨_, _, interfaces, methods⟩ => inheritAll methods interfaces

def inheritAll (known : List (Method BeanType)) : List BeanType → List (Method BeanType)
  | [] => known
  | i :: rest => inheritAll (inherit known i.allMethods) rest
end

def method? (t : BeanType) (name : String) : Option (Method BeanType) :=
  t.allMethods.find? (·.name == name)

mutual
/-- A bean of this type may stand where the target is asked for. -/
def isAssignableTo : BeanType → BeanType → Bool
  | ⟨name, _, interfaces, _⟩, target => name == target.name || anyAssignableTo interfaces target

def anyAssignableTo : List BeanType → BeanType → Bool
  | [], _ => false
  | i :: rest, target => i.isAssignableTo target || anyAssignableTo rest target
end

end BeanType

def Method.isProducer (m : Method BeanType) : Bool := m.returns.isSome

end Wiring
