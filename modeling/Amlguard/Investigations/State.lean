import Amlguard.Investigations.Controls
import Amlguard.Library.Program

/-!
# Graph state and calls

The state that the investigation graph carries between its stages, the checkpoint that a
thread keeps of it, and the calls that the graph and the engine await: the repository, the
hooks, the model and the checkpointer.

A stage returns an update of some keys, which the runtime merges into the state; here a stage
returns the merged state. Dumped models are kept as the models themselves. The six keys that
name the run are present together or not at all.
-/

namespace Amlguard

open Awaited

/-- The stages of the investigation graph. -/
inductive Stage where
  | loadAndRetrieve | draftRecommendation | validateControls | collectInformation | humanReview
  deriving DecidableEq, Repr

/-- The name of a stage. -/
def Stage.name : Stage → String
  | .loadAndRetrieve => "load_and_retrieve"
  | .draftRecommendation => "draft_recommendation"
  | .validateControls => "validate_controls"
  | .collectInformation => "collect_information"
  | .humanReview => "human_review"

/-- The keys of the state that name the run. -/
structure CaseBinding where
  runId : UUID
  caseId : UUID
  alertId : String
  customerId : String
  actorId : String
  contextCondition : String

/-- The state of one investigation. -/
structure InvestigationState where
  binding : Option CaseBinding := none
  evidence : List EvidenceItem := []
  policies : List PolicyChunk := []
  policyApplicabilityFacts : List Json := []
  policyRetrieval : List Json := []
  policyAsOfDate : Option String := none
  recommendation : Option InvestigationRecommendation := none
  recommendationVersion : Option ℕ := none
  controlResults : List ControlResult := []
  securityEvents : List String := []
  hardBlocks : List String := []
  reviewerFeedback : Option String := none
  review : Option HumanReview := none
  status : CaseStatus := .open
  errors : List InvestigationError := []

/-- The value that a `Command` resumes an interrupted stage with. -/
inductive Resume where
  | review (review : HumanReview)
  | information (submission : Submission)

/-- What the graph is invoked with: the input of a new run, or a value to resume with. -/
inductive GraphInput where
  | start (binding : CaseBinding)
  | resume (value : Resume)

/-- What a thread keeps: the state, the stage that wrote it last, and the stage to run next. -/
structure Checkpoint where
  values : InvestigationState
  last : Option Stage
  next : Option Stage

/-- The state that a thread has saved; empty without a checkpoint. -/
def savedValues (saved : Option Checkpoint) : InvestigationState :=
  match saved with
  | some checkpoint => checkpoint.values
  | none => {}

/-- The input of a new run written over the state of earlier ones. -/
def InvestigationState.started (values : InvestigationState) (binding : CaseBinding) :
    InvestigationState :=
  { values with
    binding := some binding, evidence := [], policies := [], controlResults := []
    securityEvents := [], hardBlocks := [], errors := [], status := .open }

/-- The stage that the edges of the graph lead to from a stage that has returned. -/
def route (stage : Stage) (values : InvestigationState) : Option Stage :=
  match stage with
  | .loadAndRetrieve => if values.status = .failed then none else some .draftRecommendation
  | .draftRecommendation => if values.status = .failed then none else some .validateControls
  | .validateControls =>
    if values.status = .failed ∨ values.status = .hardBlocked then none
    else if values.status = .waitingForInformation then some .collectInformation
    else some .humanReview
  | .collectInformation => if values.status = .failed then none else some .draftRecommendation
  | .humanReview => if values.status = .reworkRequired then some .draftRecommendation else none

/-- The stage after the last writer of a checkpoint; the entry when it was the input. -/
def routeAfter (last : Option Stage) (values : InvestigationState) : Option Stage :=
  match last with
  | some stage => route stage values
  | none => some .loadAndRetrieve

/-- No edge leads back to the entry of the graph. -/
theorem route_ne_loadAndRetrieve (stage : Stage) (values : InvestigationState) :
    route stage values ≠ some .loadAndRetrieve := by
  cases stage <;> simp only [route] <;> split <;> (try split) <;> simp

/-- A failed stage leads nowhere. -/
theorem route_failed (stage : Stage) {values : InvestigationState} (h : values.status = .failed) :
    route stage values = none := by
  cases stage <;> simp [route, h]

/-- Human review follows validation, of a state that is not blocked. -/
theorem route_eq_humanReview {stage : Stage} {values : InvestigationState}
    (h : route stage values = some .humanReview) :
    stage = .validateControls ∧ values.status ≠ .hardBlocked ∧
      values.status ≠ .waitingForInformation := by
  cases stage with
  | validateControls =>
    simp only [route] at h
    split at h
    · cases h
    · rename_i hgo
      split at h
      · cases h
      · rename_i hwait
        exact ⟨rfl, fun hb => hgo (.inr hb), hwait⟩
  | loadAndRetrieve | draftRecommendation | collectInformation | humanReview =>
    simp only [route] at h
    split at h <;> cases h

/-- One retrieved policy: its excerpt and its retrieval record. -/
structure PolicyMatch where
  chunk : PolicyChunk
  record : Json

/-- What the policies are selected to be for a list of evidence. -/
structure PolicySelection where
  policyAsOfDate : String
  applicabilityFacts : List Json
  policyMatches : List PolicyMatch

/-- The state with newly selected policies for its evidence. -/
def InvestigationState.withEvidence (values : InvestigationState) (evidence : List EvidenceItem)
    (selection : PolicySelection) : InvestigationState :=
  { values with
    evidence
    policies := selection.policyMatches.map (·.chunk)
    policyApplicabilityFacts := selection.applicabilityFacts
    policyRetrieval := selection.policyMatches.map (·.record)
    policyAsOfDate := some selection.policyAsOfDate
    status := .running }

/-- The state with a saved draft. -/
def InvestigationState.withDraft (values : InvestigationState)
    (recommendation : InvestigationRecommendation) (version : ℕ) : InvestigationState :=
  { values with
    recommendation := some recommendation, recommendationVersion := some version
    reviewerFeedback := none }

/-- The state with the results of a validation. -/
def InvestigationState.withValidation (values : InvestigationState) (validation : Validation) :
    InvestigationState :=
  { values with
    controlResults := validation.results, securityEvents := validation.securityEvents
    hardBlocks := validation.decision.hardBlocks, status := validation.status }

/-- The status that a review leads to. -/
def HumanReview.outcome (review : HumanReview) : CaseStatus :=
  match review.action with
  | .rejectAndRequestRework => .reworkRequired
  | .approve | .editAndApprove => .completed

/-- What a review tells the next draft. -/
def HumanReview.feedback (review : HumanReview) : Option String :=
  match review.action with
  | .rejectAndRequestRework => some review.rationale
  | .approve | .editAndApprove => none

/-- The state with a review. -/
def InvestigationState.withReview (values : InvestigationState) (review : HumanReview) :
    InvestigationState :=
  { values with
    review := some review, reviewerFeedback := review.feedback, status := review.outcome }

/-- The state with the record of a failure. -/
def InvestigationState.withFailure (values : InvestigationState) (failure : InvestigationError) :
    InvestigationState :=
  { values with status := .failed, errors := values.errors ++ [failure] }

/-- The events of a trajectory with their payloads. -/
inductive TrajectoryEvent where
  | evidenceRetrieved (evidence : List EvidenceItem) (toolExecutions : List ToolExecution)
  | policiesRetrieved (trigger : Option String) (jurisdiction : String) (selection : PolicySelection)
  | recommendationDrafted (modelId : String) (recommendation : InvestigationRecommendation)
      (version : ℕ)
  | controlsEvaluated (results : List ControlResult) (securityEvents : List String)
      (releaseDecision : ReleaseStatus) (hardBlocks : List String)
  | caseInformationSupplied (evidence : EvidenceItem)
  | humanReview (review : HumanReview)
  | investigationFailed (failure : InvestigationError)
  | investigationHardBlocked (securityEvent : String) (hardBlocks : List String)

/-- The payloads of audit events. -/
inductive AuditPayload where
  | execution (execution : ToolExecution)
  | failure (failure : InvestigationError)
  | hardBlocks (hardBlocks : List String)
  | securityEvent (securityEvent : String) (hardBlocks : List String)
  | informationSupplied (fields : List String) (evidenceId : String)
      (recommendationVersion : Option ℕ)
  | reset (alertId : String) (previousStatus : CaseStatus) (recommendationVersion : ℕ)
  deriving DecidableEq

/-- What a draft asks the model. -/
structure ModelRequest where
  evidence : List EvidenceItem
  policies : List PolicyChunk
  policyContext : List Json
  contextCondition : String
  reviewerFeedback : Option String

/-- An alert of the bank: its ID, its customer and its dump. -/
structure SyntheticAlert where
  alertId : String
  customerId : String
  document : Json

/-- A customer of the bank. The turnover is the text of its decimal. -/
structure SyntheticCustomer where
  customerId : String
  customerType : String
  displayToken : String
  countryCode : String
  occupationOrSector : String
  expectedMonthlyTurnover : String
  riskLevel : String

/-- A KYC record of the bank. -/
structure SyntheticKYC where
  kycId : String
  customerId : String
  document : Json

/-- A transaction of the bank. -/
structure SyntheticTransaction where
  transactionId : String
  customerId : String
  document : Json

/-- A case as the repository serves it. -/
structure CaseData where
  caseId : UUID
  runId : UUID
  alertId : String
  customerId : String
  tenantId : String
  assignedInvestigatorId : String
  status : CaseStatus := .open
  recommendation : Option InvestigationRecommendation := none
  recommendationVersion : ℕ := 0
  reviews : List HumanReview := []

/-- The calls of the investigation engine. Two of them await nothing in the source: drawing a
UUID, and reading the log of the tools. -/
inductive EngineCall where
  | createCase (alertId tenantId investigatorId : String)
  | getCase (caseId : UUID)
  | deleteCase (caseId : UUID)
  | getAlert (alertId : String)
  | getCustomer (customerId : String)
  | getKyc (customerId : String)
  | getTransactions (customerId : String)
  | saveRecommendation (caseId : UUID) (recommendation : InvestigationRecommendation)
  | saveReview (review : HumanReview)
  | setStatus (caseId : UUID) (status : CaseStatus)
  | audit (eventType actorId : String) (caseId : UUID) (payload : AuditPayload)
  | trajectoryHook (runId : UUID) (event : TrajectoryEvent)
  | stageHook (runId : UUID) (stage : Stage) (event : String)
  | recommend (request : ModelRequest)
  | uuid4
  | toolExecutions
  | loadCheckpoint (thread : UUID) (input : GraphInput)
  | putCheckpoint (thread : UUID) (checkpoint : Checkpoint)
  | getState (thread : UUID)
  | updateState (thread : UUID) (securityEvents hardBlocks : List String)
  | deleteThread (thread : UUID)

/-- What a call returns. -/
@[reducible] def EngineCall.Reply : EngineCall → Type
  | .createCase _ _ _ => CaseData × Bool
  | .getCase _ => CaseData
  | .getAlert _ => SyntheticAlert
  | .getCustomer _ => SyntheticCustomer
  | .getKyc _ => SyntheticKYC
  | .getTransactions _ => List SyntheticTransaction
  | .saveRecommendation _ _ => ℕ
  | .recommend _ => InvestigationRecommendation
  | .uuid4 => UUID
  | .toolExecutions => List ToolExecution
  | .loadCheckpoint _ _ => Option Checkpoint
  | .getState _ => Option Checkpoint
  | _ => Unit

/-- A call that writes neither a case nor a checkpoint, and whose data no later step relies on. -/
def EngineCall.Quiet : EngineCall → Prop
  | .getAlert _ | .getCustomer _ | .getKyc _ | .getTransactions _ | .stageHook _ _ _
  | .recommend _ | .uuid4 | .getState _ => True
  | .audit eventType _ _ _ => eventType ≠ "case_information_supplied"
  | .trajectoryHook _ (.evidenceRetrieved _ _) => False
  | .trajectoryHook _ _ => True
  | _ => False

/-- A quiet call to the audit log or to the trajectory. -/
def EngineCall.Reporting : EngineCall → Prop
  | .audit eventType _ _ _ => eventType ≠ "case_information_supplied"
  | .trajectoryHook _ (.evidenceRetrieved _ _) => False
  | .trajectoryHook _ _ => True
  | _ => False

/-- A call that fails from outside; the two calls that await nothing in the source do not. -/
def EngineCall.MayFail : EngineCall → Bool
  | .uuid4 | .toolExecutions => false
  | _ => true

/-- Writes that await nothing: the log of the tools, and the history of the engine.

The history is for proofs only; no program reads it. An operation is `admitted` to the graph
of a case when it has passed its status check, `loaded` when its run has read the checkpoint,
and `left` when its run has ended. A reset is `resetting` from its status check until it ends. -/
inductive EngineMark where
  | executed (execution : ToolExecution)
  | admitted (task : ℕ) (caseId : UUID)
  | loaded (task : ℕ) (caseId : UUID)
  | resetting (task : ℕ) (caseId : UUID)
  | left (task : ℕ) (caseId : UUID)
  | drafted (caseId : UUID) (version : ℕ)
  | decided (caseId : UUID) (version : Option ℕ) (validation : Validation)
  | reviewed (request review : HumanReview)

/-- The signature of the investigation engine. -/
abbrev engineSignature : Signature where
  Call := EngineCall
  Reply := EngineCall.Reply
  Fault := PyError
  Mark := EngineMark

end Amlguard
