import Wiring.BeanType.Catalogue
import Wiring.Scenario.Run
import Wiring.Settings.File
import Wiring.Proofs.Change
import Wiring.Proofs.Chronicle
import Wiring.Proofs.Lookup
import Wiring.Proofs.Origin
import Wiring.Proofs.Parallel
import Wiring.Proofs.Faithful
import Wiring.Proofs.History
import Wiring.Proofs.Permanence
import Wiring.Proofs.Coherence
import Wiring.Proofs.Agreement
import Wiring.Proofs.ForwardPhase
import Wiring.Proofs.DependencyGraph
import Wiring.Proofs.Orderly
import Wiring.Proofs.Progress
import Wiring.Proofs.Creation
import Wiring.Proofs.Depth
import Wiring.Proofs.Marks
import Wiring.Proofs.Acceptance
import Wiring.Proofs.Targets
import Wiring.Proofs.Injection
import Wiring.Proofs.Delegation
import Wiring.Proofs.Dereference
import Wiring.Proofs.Simulation
import Wiring.Proofs.Transparency
import Wiring.Proofs.Turns
import Wiring.Proofs.Stages
import Wiring.Proofs.Flag
import Wiring.Proofs.Pipeline
import Wiring.Proofs.FlagScope
import Wiring.Proofs.Pinning
import Wiring.Proofs.Names
import Wiring.Proofs.Tally
import Wiring.Proofs.Isolation
import Wiring.Proofs.Selection
import Wiring.Proofs.Registration
import Wiring.Proofs.Preinstantiation
import Wiring.Proofs.Closure
import Wiring.Proofs.Failure
import Wiring.Proofs.ObjectMethods
import Wiring.Proofs.Producers
import Wiring.Proofs.Enrolment
import Wiring.Proofs.Hierarchy
import Wiring.Proofs.MethodSearch
import Wiring.Proofs.Configurations
import Wiring.Proofs.FlatDocument
import Wiring.Proofs.Scanning
import Wiring.Proofs.Delivery
import Wiring.Proofs.Reader
import Wiring.Proofs.SettingsDocument
import Wiring.Proofs.LastPart
