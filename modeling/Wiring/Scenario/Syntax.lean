import Wiring.BeanType
import Wiring.Settings

namespace Wiring.Scenario

/-- The text of a field, if it has one. -/
abbrev Field := Option String

/-- An error to be built; the fields of its kind are looked up when it is. -/
inductive ErrorExpr where
  | mk (kind : Field) (texts : List (String × String)) (candidates : List String)
    (source : Option ErrorExpr)

mutual

/-- A bean: in a register, among the arguments, or to be made. -/
inductive BeanExpr where
  | register (name : String)
  | argument (index : Nat)
  | create (type : Field) (methods : List (String × Behaviour)) (fields : List (String × ValueExpr))
  | missing

inductive ValueExpr where
  | unit
  | bool (b : Bool)
  | int (i : Int64)
  | outOfRange
  | str (s : String)
  | bean (b : BeanExpr)
  | argument (index : Nat)
  | malformed

/-- What a method of a scripted bean does. -/
inductive Behaviour where
  | get (field : String)
  | set (field : String)
  | count (field : String)
  | describe
  | script (actions : List Action) (result : ValueExpr)

inductive SpecExpr where
  | register (name : Field) (bean : BeanExpr)
  /-- `keepsSource` tells whether the specification notes where it comes from. -/
  | custom (keepsSource : Bool) (executor payload invalid : Field)
  | missing

inductive FactoryExpr where
  | mk (actions : List Action) (result : BeanExpr)

inductive ProducerExpr where
  | mk (name type : Field) (lazy : Bool) (factory : FactoryExpr)

inductive FeatureExpr where
  | mk (name : Field) (parameters : List Field) (actions : List Action) (spec : SpecExpr)

inductive ConfigurationExpr where
  | mk (name : Field) (producers : List ProducerExpr) (features : List FeatureExpr)

/-- A scripted executor has a label; without one it is the executor that registers beans. -/
inductive ExecutorExpr where
  | mk (label : Field) (actions : List Action)

/-- What an action without a script of its own does. -/
inductive Step where
  | define (name type : Field) (factory : FactoryExpr) (lazy primary : Bool)
  | addSingleton (name type : Field) (factory : FactoryExpr) (lazy : Bool)
  | registerSingleton (name : Field) (bean : BeanExpr)
  | get (name : Field)
  | require (name : Field)
  | resolve (type parameter requesting : Field)
  | contains (name : Field)
  | preinstantiate
  | state
  | newStatus (status : Field)
  | setStatus (status : Field) (value : Bool)
  | getStatus (status : Field)
  | newCreator (creator status : Field) (recording : Bool)
  | proxy (creator type parameter : Field)
  | methodProxy (creator type method returns : Field)
  | create (bean : BeanExpr)
  | invoke (bean : BeanExpr) (method : Field) (args : List ValueExpr)
  | describe (bean : BeanExpr)
  | equals (bean : BeanExpr) (other : ValueExpr)
  | hashCode (bean : BeanExpr)
  | sameHash (a b : BeanExpr)
  | dereference (bean : BeanExpr)
  | targetType (bean : BeanExpr)
  | inspect (bean : BeanExpr)
  | debug (bean : BeanExpr)
  | newProcessor (processor : Field) (settings : Settings)
  | registerConfiguration (processor : Field) (configuration : ConfigurationExpr)
  | registerExecutor (processor executorType : Field) (executor : ExecutorExpr)
  | process (processor : Field)
  | execute (spec : SpecExpr) (executor : ExecutorExpr)
  | beanMethod (name : Field)
  | beanMethodOn (configuration name : Field)
  | mode
  | fail (error : ErrorExpr)
  | panic (message : String)
  | unknown (verb : String)

inductive Op where
  | step (s : Step)
  /-- Runs a script while a flag has a value. -/
  | underStatus (value : Bool) (status : Field) (actions : List Action)
  /-- Runs a script whose failure is a result. -/
  | attempt (actions : List Action)

/-- An operation with the word for it, the container it chooses, and the register for its bean. -/
inductive Action where
  | mk (verb : String) (container : Option Int) (into : Field) (op : Op)

end

end Wiring.Scenario
