namespace Wiring

/-- Why a lookup, a call or a bootstrap pass fails. -/
inductive Error where
  | proxyCreation (text : String)
  | unsupportedOperation (text : String)
  | noSuchBeanDefinition (name : String)
  | noSuchBean (typeName : String) (parameter : Option String)
  | noUniqueBean (typeName : String) (candidates : List String)
  | singletonAlreadyRegistered (name : String)
  | currentlyInCreation (name : String)
  | beanCreation (name reason : String)
  | noSuchMethod (typeName method : String)
  | illegalState (text : String)
  | invalidSpecification (text : String)
  | noExecutor (executorType : String)
  | featureMethodExecution (method : String) (source : Error)
  | configRead (text : String)
  | configParse (text : String)
  deriving DecidableEq

namespace Error

def message : Error → String
  | proxyCreation text => text
  | unsupportedOperation text => text
  | noSuchBeanDefinition name => s!"No bean named '{name}' is defined"
  | noSuchBean typeName parameter =>
    s!"No qualifying bean of type '{typeName}' found for dependency" ++
      match parameter with
      | none => ""
      | some p => s!" [{p}]"
  | noUniqueBean typeName candidates =>
    s!"No qualifying bean of type '{typeName}' is defined: expected single matching bean but found " ++
      toString candidates.length ++ ": " ++ ", ".intercalate candidates
  | singletonAlreadyRegistered name =>
    s!"Could not register object under bean name '{name}': there is already an object bound"
  | currentlyInCreation name =>
    s!"Requested bean '{name}' is currently in creation: is there an unresolvable circular reference?"
  | beanCreation name reason => s!"Error creating bean with name '{name}': {reason}"
  | noSuchMethod typeName method => s!"No method '{method}' on bean type {typeName}"
  | illegalState text => s!"Illegal state: {text}"
  | invalidSpecification text => s!"Invalid specification: {text}"
  | noExecutor executorType =>
    s!"No specification executor registered for executor type '{executorType}'"
  | featureMethodExecution method _ => s!"Failed to execute feature method {method}"
  | configRead text => s!"Failed to read processor configuration: {text}"
  | configParse text => s!"Failed to parse processor configuration: {text}"

/-- The failure at the bottom of all feature methods that pass it on. -/
def rootCause : Error → Error
  | featureMethodExecution _ source => source.rootCause
  | e => e

end Error

end Wiring
