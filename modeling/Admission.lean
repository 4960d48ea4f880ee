import Admission.Number.Scalar
import Admission.Registration
import Admission.Settings.Environment
import Admission.Settings.Presets
import Admission.Deployment.Operation
import Admission.Text.UnitOrder
import Admission.Proofs.Bucket.Windows
import Admission.Proofs.Memory.Run
import Admission.Proofs.Memory.Admissions
import Admission.Proofs.Memory.Sweeps
import Admission.Proofs.Number.Exact
import Admission.Proofs.Shared.Table
import Admission.Proofs.Shared.Fleet
import Admission.Proofs.Shared.Mirror
import Admission.Proofs.Settings.Acceptance
import Admission.Proofs.Shared.Budget
import Admission.Proofs.Memory.Numbers
import Admission.Proofs.Deployment.Deadline
import Admission.Proofs.Deployment.Attempts
import Admission.Proofs.Deployment.Policy
import Admission.Proofs.Memory.Recency
import Admission.Proofs.Deployment.Lifecycle
import Admission.Proofs.Deployment.Guarding
import Admission.Proofs.Memory.Reuse
import Admission.Proofs.Bucket.Comparison
import Admission.Proofs.Shared.Slack
import Admission.Proofs.Number.Stored
import Admission.Proofs.Memory.Idle
import Admission.Proofs.Settings.Refusal
import Admission.Proofs.Shared.Atomic
import Admission.Proofs.Deployment.StartupLaws
import Admission.Proofs.Settings.Completion
import Admission.Proofs.Settings.Variables
import Admission.Proofs.Key.Composite
import Admission.Proofs.Deployment.Registering
