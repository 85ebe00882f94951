import Amlguard.Investigations.Builder
import Amlguard.Library.Pool

/-!
# The investigation engine

The operations of `LangGraphInvestigationEngine`, and the start of an investigation from the
user interface, which runs a failed case again. An operation on a case checks the stored
status, or that it has created the case, and then invokes the graph on the thread of the case.

The pool interleaves any number of operations at their awaited calls. The repository is
assumed to serve copies of its records.
-/

namespace Amlguard

open Awaited Prog

/-- What a request learns about an investigation. -/
structure InvestigationRun where
  runId : UUID
  caseId : UUID
  alertId : String
  customerId : String
  status : CaseStatus
  recommendation : Option InvestigationRecommendation
  evidence : List EvidenceItem
  policies : List PolicyChunk
  policyApplicabilityFacts : List Json
  policyRetrieval : List Json
  policyAsOfDate : Option String
  controlResults : List ControlResult
  hardBlocks : List String
  errors : List InvestigationError
  reviews : List HumanReview
  recommendationVersion : ℕ

/-- The run that a stored case and its checkpoint make up. -/
def runOf (case : CaseData) (saved : Option Checkpoint) : InvestigationRun :=
  let values := savedValues saved
  { runId := case.runId
    caseId := case.caseId
    alertId := case.alertId
    customerId := case.customerId
    status := case.status
    recommendation := case.recommendation
    evidence := values.evidence
    policies := values.policies
    policyApplicabilityFacts := values.policyApplicabilityFacts
    policyRetrieval := values.policyRetrieval
    policyAsOfDate := values.policyAsOfDate
    controlResults := values.controlResults
    hardBlocks := values.hardBlocks
    errors := values.errors
    reviews := case.reviews
    recommendationVersion := case.recommendationVersion }

namespace LangGraphInvestigationEngine

/-- The part of `_to_run` after its `get_case`. -/
def assembleRun (case : CaseData) : Investigation InvestigationRun := do
  let saved ← invoke (.getState case.caseId)
  pure (runOf case saved)

/-- `_to_run`. -/
def toRun (caseId : UUID) : Investigation InvestigationRun := do
  let case ← invoke (.getCase caseId)
  assembleRun case

variable (env : EngineEnvironment) (task : ℕ)

/-- The span in which an operation is admitted to the graph of a case. -/
def admittedTo {α : Type} (caseId : UUID) (p : Investigation α) : Investigation α := do
  jot (.admitted task caseId)
  finally' p (jot (.left task caseId))

/-- `run_prepared`. -/
def runPrepared (case : CaseData) (actorId contextCondition : String) :
    Investigation InvestigationRun := do
  admittedTo task case.caseId (ainvoke env task case.caseId (.start
    ⟨case.runId, case.caseId, case.alertId, case.customerId, actorId, contextCondition⟩))
  toRun case.caseId

/-- `start`. -/
def start (alertId actorId tenantId contextCondition : String) :
    Investigation InvestigationRun := do
  let prepared ← invoke (.createCase alertId tenantId actorId)
  if prepared.2 then runPrepared env task prepared.1 actorId contextCondition
  else toRun prepared.1.caseId

/-- `_run_ui_investigation`, the background job of a start: its exceptions end with it. -/
def runUiInvestigation (case : CaseData) (actorId contextCondition : String) :
    Investigation Unit :=
  suppress (do
    let _ ← runPrepared env task case actorId contextCondition
    pure ())

/-- `ui_start_investigation`: a failed case is run again. Its status is what `get_case` has read
inside `engine.get`, so the operation is admitted from that read on. -/
def uiStart (alertId actorId tenantId contextCondition : String) : Investigation Unit := do
  let prepared ← invoke (.createCase alertId tenantId actorId)
  if prepared.2 then runUiInvestigation env task prepared.1 actorId contextCondition
  else
    let case ← invoke (.getCase prepared.1.caseId)
    if case.status = .failed then
      admittedTo task case.caseId (do
        let _ ← assembleRun case
        runUiInvestigation env task case actorId contextCondition)
    else
      let _ ← assembleRun case
      pure ()

/-- `review`. -/
def review (review : HumanReview) : Investigation InvestigationRun := do
  let case ← invoke (.getCase review.caseId)
  computed (raiseIf (case.status = .hardBlocked)
    (.valueError "case is hard blocked and cannot be reviewed"))
  computed (raiseIf (review.recommendationVersion ≠ case.recommendationVersion)
    (.valueError "review targets a stale recommendation version"))
  admittedTo task case.caseId (ainvoke env task case.caseId (.resume (.review review)))
  toRun case.caseId

/-- `supply_information`. -/
def supplyInformation (caseId : UUID) (submission : Submission) :
    Investigation InvestigationRun := do
  let case ← invoke (.getCase caseId)
  computed (raiseIf (case.status ≠ .waitingForInformation)
    (.valueError "case is not waiting for information"))
  admittedTo task case.caseId (ainvoke env task case.caseId (.resume (.information submission)))
  toRun case.caseId

/-- `record_security_event`. -/
def recordSecurityEvent (caseId : UUID) (eventType : String) : Investigation InvestigationRun := do
  computed (raiseIf (eventType ∉ HardBlockEvaluator.criticalEvents)
    (.valueError ("unknown critical security event: " ++ eventType)))
  let case ← invoke (.getCase caseId)
  let saved ← invoke (.getState caseId)
  let values := savedValues saved
  let securityEvents := sortedSet (values.securityEvents ++ [eventType])
  let decision := HardBlockEvaluator.evaluate values.controlResults securityEvents
  invoke (.updateState caseId securityEvents decision.hardBlocks)
  invoke (.setStatus caseId .hardBlocked)
  let actorId := match values.binding with
    | some b => b.actorId
    | none => case.assignedInvestigatorId
  invoke (.audit "investigation_hard_blocked" actorId caseId
    (.securityEvent eventType decision.hardBlocks))
  invoke (.trajectoryHook case.runId (.investigationHardBlocked eventType decision.hardBlocks))
  toRun caseId

/-- `reset`. -/
def reset (caseId : UUID) (actorId : String) : Investigation CaseData := do
  let case ← invoke (.getCase caseId)
  computed (raiseIf (case.status = .open ∨ case.status = .running)
    (.valueError "a running investigation cannot be reset"))
  jot (.resetting task caseId)
  finally' (do
    invoke (.audit "investigation_reset" actorId caseId
      (.reset case.alertId case.status case.recommendationVersion))
    invoke (.deleteCase caseId)
    suppress (invoke (.deleteThread caseId))) (jot (.left task caseId))
  pure case

end LangGraphInvestigationEngine

/-- The operations that may be started on the engine. -/
inductive EngineOp where
  | start (alertId actorId tenantId contextCondition : String)
  | uiStart (alertId actorId tenantId contextCondition : String)
  | runPrepared (case : CaseData) (actorId contextCondition : String)
  | review (review : HumanReview)
  | supplyInformation (caseId : UUID) (submission : Submission)
  | recordSecurityEvent (caseId : UUID) (eventType : String)
  | reset (caseId : UUID) (actorId : String)
  | get (caseId : UUID)

namespace EngineOp

open LangGraphInvestigationEngine

/-- Run a request for its effects. -/
def discard {α : Type} (p : Investigation α) : Investigation Unit := do
  let _ ← p
  pure ()

/-- The program of an operation. -/
def program (env : EngineEnvironment) (task : ℕ) : EngineOp → Investigation Unit
  | .start alertId actorId tenantId contextCondition =>
    discard (LangGraphInvestigationEngine.start env task alertId actorId tenantId contextCondition)
  | .uiStart alertId actorId tenantId contextCondition =>
    LangGraphInvestigationEngine.uiStart env task alertId actorId tenantId contextCondition
  | .runPrepared case actorId contextCondition =>
    discard (LangGraphInvestigationEngine.runPrepared env task case actorId contextCondition)
  | .review request => discard (LangGraphInvestigationEngine.review env task request)
  | .supplyInformation caseId submission =>
    discard (LangGraphInvestigationEngine.supplyInformation env task caseId submission)
  | .recordSecurityEvent caseId eventType =>
    discard (LangGraphInvestigationEngine.recordSecurityEvent caseId eventType)
  | .reset caseId actorId => discard (LangGraphInvestigationEngine.reset task caseId actorId)
  | .get caseId => discard (toRun caseId)

/-- Remember the reviews that are requested. -/
def enroll (op : EngineOp) (w : EngineWorld) : EngineWorld :=
  match op with
  | .review request => w.remember fun h => { h with requests := request :: h.requests }
  | _ => w

end EngineOp

/-- Any number of operations on one engine. -/
def engineSystem (env : EngineEnvironment) :
    System engineSignature EngineWorld EngineDraws EngineOp where
  perform := EngineWorld.perform env
  record := EngineWorld.record
  program := EngineOp.program env
  enroll _ op := op.enroll

/-- A pool of operations. -/
abbrev EnginePool := Pool engineSignature EngineWorld EngineOp

/-- An engine on which nothing has been started. -/
def idleEngine (bank : SyntheticBank) : EnginePool := System.fresh { bank }

/-- A bank with one alert, of a customer who has made no transaction. -/
def sampleBank : SyntheticBank where
  alerts := [⟨"A-1", "C-1", .null⟩]
  customers := [⟨"C-1", "company", "token", "FR", "trade", "1000", "low"⟩]
  kycRecords := [⟨"K-1", "C-1", .null⟩]
  transactions := []

/-- An environment in which no policy is retrieved. -/
def sampleEnvironment (backend : RepositoryBackend) : EngineEnvironment where
  backend := backend
  canonicalHash _ := "digest"
  eventHash _ _ _ _ _ _ := "digest"
  uuid5 _ _ := 0
  selectPolicies _ := .ok ⟨"2026-01-01", [], []⟩
  policyJurisdiction := "FR"
  modelId := "fake"

/-- The summary of the sample recommendations is long enough. -/
theorem length_closed : 1 ≤ "closed".length ∧ "closed".length ≤ 4000 := by
  decide

/-- A recommendation without findings. -/
def sampleRecommendation (kind : RecommendationKind) : InvestigationRecommendation where
  schemaVersion := "1.0"
  recommendation := kind
  summary := "closed"
  materialFindings := []
  counterIndicators := []
  missingInformation := []
  contradictions := []
  recommendedNextSteps := []
  limitations := []
  summary_length := length_closed

/-- Draws of a call that does not fail. -/
def quietDraws : EngineDraws := ⟨.none, sampleRecommendation .closeWithRationale, 0⟩

/-- The first case that is created is approved in its first version. -/
def sampleApproval : HumanReview where
  reviewId := 0
  caseId := 0
  recommendationVersion := 1
  action := .approve
  reviewerId := "reviewer"
  rationale := "fine"
  editedRecommendation := none
  reviewedAt := 0
  version_pos := by decide
  rationale_length := by decide
  edited_iff := by decide

/-- The start of the first investigation. -/
def sampleStart : EngineOp := .start "A-1" "investigator" "tenant" "B5"

/-- An operation that is started and makes a number of calls that do not fail. -/
def undisturbed (task : ℕ) (op : EngineOp) (calls : ℕ) : List (Move EngineOp EngineDraws) :=
  .start op :: List.replicate calls (.advance task quietDraws)

end Amlguard
