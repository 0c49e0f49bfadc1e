import TraceGuard.Traces
import TraceGuard.LedgerResults
import TraceGuard.LedgerBudget
import TraceGuard.ExecutorDispatch
import TraceGuard.FieldComplete
import TraceGuard.Noninterference
import TraceGuard.Policy
import TraceGuard.UntrustedObservations
import TraceGuard.ExecutionRuns
import TraceGuard.AuditChain
import TraceGuard.FourEyes
import TraceGuard.ReviewLifecycle
import TraceGuard.GrantCurrency
import TraceGuard.IdempotencyKeys
import TraceGuard.Supervision
import TraceGuard.Dialogue
import TraceGuard.Reconciliation
import TraceGuard.StrictReads
import TraceGuard.Rollback
import TraceGuard.OfflineAuthorization
import TraceGuard.ApprovedReviews
import TraceGuard.TenantIsolation
import TraceGuard.Eras
import TraceGuard.Rekey
import TraceGuard.DenyRules
import TraceGuard.Merging
import TraceGuard.Narrowing
import TraceGuard.GatewaySupervision
import TraceGuard.ReadInventory
import TraceGuard.ReleaseLiterals
import TraceGuard.ReleaseCredentials
import TraceGuard.RedactionCoverage
import TraceGuard.AuthorityDigest
import TraceGuard.JsonAdmission
import TraceGuard.CalculatorContract
import TraceGuard.RequestAdmission
import TraceGuard.ConfinedFiles
import TraceGuard.StagedCopies
import TraceGuard.EvaluationMatrix
import TraceGuard.RenderedManifests
import TraceGuard.EmbeddedContainment
import TraceGuard.EmbeddedTruth
import TraceGuard.EmbeddedEscalation
import TraceGuard.EmbeddedRestarts
