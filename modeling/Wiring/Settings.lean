import Wiring.Text.Layout

namespace Wiring

/-- The settings of a bootstrap pass. -/
structure Settings where
  /-- Feature methods get early references for their parameters, and else real beans. -/
  proxyFeatureParameters : Bool := true
  /-- Once every feature method ran, the singletons that are not lazy are created. -/
  preinstantiateSingletons : Bool := true
  deriving DecidableEq

namespace Settings

def proxyKey : String := "proxy_feature_parameters"

def preinstantiateKey : String := "preinstantiate_singletons"

/-- The keys that a document may have. -/
def keys : List String := [proxyKey, preinstantiateKey]

/-- The settings by their keys. -/
def value (s : Settings) (key : String) : Bool :=
  if key = proxyKey then s.proxyFeatureParameters else s.preinstantiateSingletons

def ofValues (value : String → Bool) : Settings := ⟨value proxyKey, value preinstantiateKey⟩

/-- The settings as a document. -/
def render (s : Settings) : String :=
  proxyKey ++ ": " ++ Text.truth s.proxyFeatureParameters ++ "\n" ++
    preinstantiateKey ++ ": " ++ Text.truth s.preinstantiateSingletons ++ "\n"

end Settings

end Wiring
