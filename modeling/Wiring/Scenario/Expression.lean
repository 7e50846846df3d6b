import Wiring.Scenario.Session

namespace Wiring.Scenario

def argument (f : Frame) (index : Nat) : Value BeanId := (f.args[index]?).getD .unit

def beanArgument (f : Frame) (index : Nat) : Script BeanId :=
  match argument f index with
  | .bean b => return b
  | _ => Script.complain ("no bean argument " ++ toString index)

mutual

/-- The bean of an expression; each evaluation of a new one makes another. -/
def BeanExpr.eval (stage : Stage) (f : Frame) : BeanExpr → Script BeanId
  | .register name => Script.register name
  | .argument index => beanArgument f index
  | .create type methods fields => do
    let t ← Script.typeOf stage "type" type
    let values ← evalFields stage f fields
    let b ← Program.request (.create t (.bean methods))
    Program.modify fun s => { s with fields := s.fields.insert b ⟨values⟩ }
    return b
  | .missing => Script.complain "'bean' must be a string"

def ValueExpr.eval (stage : Stage) (f : Frame) : ValueExpr → Script (Value BeanId)
  | .unit => return .unit
  | .bool b => return .bool b
  | .int i => return .int i
  | .outOfRange => Script.complain "integer out of range"
  | .str s => return .str s
  | .bean b => do return .bean (← b.eval stage f)
  | .argument index => return argument f index
  | .malformed => Script.complain "bad value"

def evalFields (stage : Stage) (f : Frame) :
    List (String × ValueExpr) → Script (List (String × Value BeanId))
  | [] => return []
  | (name, e) :: rest => do
    let v ← e.eval stage f
    return (name, v) :: (← evalFields stage f rest)

end

def evalValues (stage : Stage) (f : Frame) : List ValueExpr → Script (List (Value BeanId))
  | [] => return []
  | e :: rest => do
    let v ← e.eval stage f
    return v :: (← evalValues stage f rest)

def SpecExpr.eval (stage : Stage) (f : Frame) : SpecExpr → Script (Specification Code)
  | .register name bean => do
    let n ← Script.need "name" name
    return .register n (← bean.eval stage f) none
  | .custom keepsSource executor payload invalid => do
    let e ← Script.need "executor" executor
    let p ← Script.need "payload" payload
    return .custom (.spec keepsSource e p invalid none)
  | .missing => Script.complain "bad spec"

def FactoryExpr.code (name : String) : FactoryExpr → Code
  | .mk actions result => .factory name actions result

def ExecutorExpr.executor : ExecutorExpr → Executor Code
  | .mk none _ => .registering
  | .mk (some label) actions => .custom (.executor label actions)

def ProducerExpr.eval (stage : Stage) : ProducerExpr → Script (Producer Code)
  | .mk name type lazy factory => do
    let n ← Script.need "name" name
    let t ← Script.typeOf stage "type" type
    return ⟨n, t, lazy, factory.code n⟩

def parameterTypes (stage : Stage) : List Field → Script (List BeanType)
  | [] => return []
  | p :: rest => do
    let t ← Script.typeOf stage "type" p
    return t :: (← parameterTypes stage rest)

def FeatureExpr.eval (stage : Stage) : FeatureExpr → Script (Feature Code)
  | .mk name parameters actions spec => do
    let n ← Script.need "name" name
    let ts ← parameterTypes stage parameters
    return ⟨n, ts, .feature n actions spec⟩

def evalAll {α β : Type} (eval : α → Script β) : List α → Script (List β)
  | [] => return []
  | e :: rest => do
    let v ← eval e
    return v :: (← evalAll eval rest)

def ConfigurationExpr.eval (stage : Stage) : ConfigurationExpr → Script (Configuration Code)
  | .mk name producers features => do
    let n ← Script.need "name" name
    let ps ← evalAll (·.eval stage) producers
    let fs ← evalAll (·.eval stage) features
    return ⟨n, ps, fs⟩

def summary (c : Configuration Code) : Summary where
  name := c.name
  producers := c.producers.map fun p => (p.name, p.returns.name, p.lazy)
  features := c.features.map fun f => (f.name, f.parameters.map (·.name))
  declaringType := (c.declaringType.name, c.declaringType.isInterface)
  declared := c.declaringType.methods.map fun m => (m.name, m.returns.map (·.name))

end Wiring.Scenario
