import Wiring.Text.Layout

namespace Wiring

/-- What the library reports while it works. -/
inductive Event where
  | overridingDefinition (name : String)
  | registeredDefinition (name typeName : String) (lazy : Bool)
  | registeredSingleton (name : String)
  | preinstantiating (name : String)
  | creatingReference (typeName : String)
  | dereferencingByType (dependency : String)
  | dereferencingByName (name : String)
  | delegating (method typeName : String)
  | registeredConfiguration (name : String) (producers features : Nat)
  | nothingToProcess (configuration : String)
  | processing (method : String)
  | featureFailed (method error : String)
  | executing (executorType specification : String)
  | entered
  | left
  deriving DecidableEq

namespace Event

/-- The span of a bootstrap pass. -/
def span : String := "process_feature_methods"

def line : Event → String
  | overridingDefinition name => s!"WARN overriding bean definition bean={name}"
  | registeredDefinition name typeName lazy =>
    s!"DEBUG registered bean definition bean={name} bean_type={typeName} lazy=" ++ Text.truth lazy
  | registeredSingleton name => s!"DEBUG registered singleton bean={name}"
  | preinstantiating name => s!"TRACE pre-instantiating singleton bean={name}"
  | creatingReference typeName => s!"DEBUG creating early bean reference bean_type={typeName}"
  | dereferencingByType dependency =>
    s!"TRACE dereferencing early bean reference by type dependency={dependency}"
  | dereferencingByName name => s!"TRACE dereferencing early bean reference by name bean={name}"
  | delegating method typeName =>
    s!"TRACE delegating call to target bean method={method} bean_type={typeName}"
  | registeredConfiguration name producers features =>
    s!"DEBUG registered configuration configuration={name} producers=" ++ toString producers ++
      " features=" ++ toString features
  | nothingToProcess configuration =>
    s!"TRACE no feature methods, skipping configuration={configuration}"
  | processing method => s!"DEBUG processing feature method method={method}"
  | featureFailed method error => s!"WARN feature method failed method={method} error={error}"
  | executing executorType specification =>
    s!"TRACE executing specification executor={executorType} specification={specification}"
  | entered => s!"ENTER {span}"
  | left => s!"EXIT {span}"

end Event

end Wiring
