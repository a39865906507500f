import Automation.Action.Standard
import Automation.Loop.Drive
import Automation.Proofs.Action.Assign
import Automation.Proofs.Action.Fallback
import Automation.Proofs.Action.Filter
import Automation.Proofs.Binding.Change
import Automation.Proofs.Binding.Environment
import Automation.Proofs.Binding.Upstream
import Automation.Proofs.Binding.Vault
import Automation.Proofs.Condition.Evaluation
import Automation.Proofs.Condition.Laws
import Automation.Proofs.Condition.Renaming
import Automation.Proofs.Condition.Written
import Automation.Proofs.Flow.Document
import Automation.Proofs.Loop.Hygiene
import Automation.Proofs.Loop.Listing
import Automation.Proofs.Run.Cancellation
import Automation.Proofs.Run.Lookup
import Automation.Proofs.Run.Nesting
import Automation.Proofs.Run.Order
import Automation.Proofs.Run.Reporting
import Automation.Proofs.Run.Routing
import Automation.Proofs.Run.Secrecy
import Automation.Proofs.Run.Visibility
import Automation.Proofs.Run.Workspace
import Automation.Proofs.Service.Isolation
import Automation.Service.Client
