import Wiring.Feature

namespace Wiring.Scenario

/-- A bean as it is shown: by the order in which beans are first shown, and by its type. -/
structure Shown where
  number : Nat
  type : String
  early : Bool

/-- What a configuration tells about itself. -/
structure Summary where
  name : String
  producers : List (String × String × Bool)
  features : List (String × List String)
  declaringType : String × Bool
  declared : List (String × Option String)

/-- The result of an action that succeeds. -/
inductive Report where
  | nothing
  | flag (b : Bool)
  | number (n : Nat)
  | text (s : String)
  | value (v : Value Shown)
  | bean (b : Shown)
  | presence (definition singleton bean : Bool)
  | state (definitions singletons : List String) (count : Nat)
  | configuration (s : Summary)
  | error (e : Error)

/-- What was logged about a moment. -/
inductive Note where
  | entered
  | parameters (beans : List Shown)
  | report (r : Report)
  | source (s : Source)
  | validated (payload : String) (source : Option Source)
  | registering (name : String) (bean : Shown) (source : Option Source)
  | custom (payload : String) (source : Option Source)
  | plain (text : String)
  | resolving (dependency : String) (requesting : Option String)
  | lookingUp (name : String)

structure Logged where
  scope : String
  verb : String
  note : Note

/-- How an action of the scenario itself ends. -/
inductive Ending where
  | report (r : Report)
  | panic (text : String)

/-- The end of an action, what was logged until then, and the events of the library. -/
structure StepReport where
  ending : Ending
  log : List Logged
  trace : List String

end Wiring.Scenario
