import Amlguard.Library.Program
import Amlguard.Library.Pool
import Amlguard.Library.Conduct
import Amlguard.Library.Knowledge
import Amlguard.Library.Execution
import Amlguard.Library.Dict
import Amlguard.Library.Numeric
import Amlguard.Library.HashChain
import Amlguard.Library.Transitions
import Amlguard.Library.Ranking
import Amlguard.Library.Spelling
import Amlguard.Library.Drawing
import Amlguard.Domain.Values
import Amlguard.Domain.PyValue
import Amlguard.Experiments.Domain
import Amlguard.Experiments.Queue
import Amlguard.Experiments.Postgres
import Amlguard.Experiments.InMemory
import Amlguard.Experiments.Effect
import Amlguard.Experiments.Worker
import Amlguard.Experiments.Issued
import Amlguard.Experiments.Rows
import Amlguard.Experiments.Ceiling
import Amlguard.Experiments.Ledger
import Amlguard.Experiments.Terminal
import Amlguard.Experiments.Pause
import Amlguard.Experiments.Fencing
import Amlguard.Experiments.Attempts
import Amlguard.Experiments.Results
import Amlguard.Experiments.Sessions
import Amlguard.Experiments.SessionKeys
import Amlguard.Experiments.Scheduling
import Amlguard.Experiments.Enlistment
import Amlguard.Experiments.Lockstep
import Amlguard.Experiments.Agreement
import Amlguard.Experiments.Stopping
import Amlguard.Investigations.Domain
import Amlguard.Investigations.Controls
import Amlguard.Investigations.State
import Amlguard.Investigations.Repository
import Amlguard.Investigations.Builder
import Amlguard.Investigations.Service
import Amlguard.Investigations.Phases
import Amlguard.Investigations.Conduct
import Amlguard.Investigations.Writes
import Amlguard.Investigations.ReviewGate
import Amlguard.Investigations.ExactVersion
import Amlguard.Investigations.Engagement
import Amlguard.Investigations.HardBlock
import Amlguard.Investigations.StatusChecks
import Amlguard.Investigations.ReleaseGate
import Amlguard.Investigations.OutOfTurn
import Amlguard.Investigations.CaseCreation
import Amlguard.Investigations.Provenance
import Amlguard.Investigations.EvidenceScope
import Amlguard.Investigations.EvidenceOrder
import Amlguard.Investigations.View
import Amlguard.Investigations.Custody
import Amlguard.Investigations.FinalDecision
import Amlguard.Investigations.Citations
import Amlguard.Investigations.CausalEvidence
import Amlguard.Investigations.FailureDiagnostics
import Amlguard.Investigations.FailedDraft
import Amlguard.Experiments.Handler
import Amlguard.Experiments.ProviderFailure
import Amlguard.Governance.AuditChain
import Amlguard.Governance.ConcurrentAudit
import Amlguard.Governance.Readiness
import Amlguard.Policy.Applicability
import Amlguard.Policy.Retrieval
import Amlguard.Policy.DerivedFacts
import Amlguard.Monitoring.Redaction
import Amlguard.Monitoring.Artifacts
import Amlguard.Monitoring.KeyFile
import Amlguard.Api.Progress
import Amlguard.Evaluation.PackageContents
import Amlguard.Evaluation.CappedScore
import Amlguard.Evaluation.SessionCounts
import Amlguard.Evaluation.Tolerance
import Amlguard.Evaluation.Deterministic
import Amlguard.Evaluation.Capability
import Amlguard.Simulation.Independence
import Amlguard.Simulation.Detection
import Amlguard.Simulation.Backends
import Amlguard.Simulation.Generator
import Amlguard.Simulation.Integrity
import Amlguard.Investigations.StageHooks
import Amlguard.Investigations.FakeLives
import Amlguard.Investigations.Supplements
import Amlguard.Investigations.EvidenceLedger
import Amlguard.Api.Duties
import Amlguard.Api.Reads
import Amlguard.Experiments.Concurrency
import Amlguard.Monitoring.Trajectories
import Amlguard.Investigations.PolicyProvenance
import Amlguard.Investigations.Agreement
