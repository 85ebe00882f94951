import Amlguard.Domain.Values
import Mathlib.Data.List.Sort
import Mathlib.Data.List.Dedup

/-!
# Findings, recommendations and reviews

The frozen records of an investigation, with what their schemas enforce as fields: a finding
cites evidence, a review names a version from one on, and an edited recommendation comes with
the action that releases it and with no other.
-/

namespace Amlguard

/-- The kinds of recommendation. -/
inductive RecommendationKind where
  | closeWithRationale | requestMoreInformation | escalateToHumanAmlAnalyst
  deriving DecidableEq, Repr

/-- The statuses of a case. -/
inductive CaseStatus where
  | open | running | waitingForInformation | waitingForHumanReview | reworkRequired | completed
  | failed | hardBlocked
  deriving DecidableEq, Repr

/-- The value of a status. -/
def CaseStatus.value : CaseStatus → String
  | .open => "OPEN"
  | .running => "RUNNING"
  | .waitingForInformation => "WAITING_FOR_INFORMATION"
  | .waitingForHumanReview => "WAITING_FOR_HUMAN_REVIEW"
  | .reworkRequired => "REWORK_REQUIRED"
  | .completed => "COMPLETED"
  | .failed => "FAILED"
  | .hardBlocked => "HARD_BLOCKED"

/-- The actions of a human review. -/
inductive ReviewAction where
  | approve | editAndApprove | rejectAndRequestRework
  deriving DecidableEq, Repr

/-- What a finding says about the concern. -/
inductive Assessment where
  | supportsConcern | counterIndicator | neutral
  deriving DecidableEq, Repr

/-- Whether a finding is a fact or an inference. -/
inductive ClaimType where
  | fact | inference
  deriving DecidableEq, Repr

/-- One finding of a recommendation. -/
structure MaterialFinding where
  claim : String
  evidenceIds : List String
  policyIds : List String
  assessment : Assessment
  claimType : ClaimType
  claim_length : 1 ≤ claim.length ∧ claim.length ≤ 2000
  evidenceIds_ne_nil : evidenceIds ≠ []
  deriving DecidableEq

/-- A recommendation that its schema accepts. -/
structure InvestigationRecommendation where
  schemaVersion : String
  recommendation : RecommendationKind
  summary : String
  materialFindings : List MaterialFinding
  counterIndicators : List MaterialFinding
  missingInformation : List String
  contradictions : List String
  recommendedNextSteps : List String
  limitations : List String
  summary_length : 1 ≤ summary.length ∧ summary.length ≤ 4000
  deriving DecidableEq

namespace InvestigationRecommendation

/-- `[*material_findings, *counter_indicators]`. -/
def findings (r : InvestigationRecommendation) : List MaterialFinding :=
  r.materialFindings ++ r.counterIndicators

/-- The evidence IDs that the findings cite. -/
def citedEvidenceIds (r : InvestigationRecommendation) : List String :=
  r.findings.flatMap (·.evidenceIds)

/-- The policy IDs that the findings cite. -/
def citedPolicyIds (r : InvestigationRecommendation) : List String :=
  r.findings.flatMap (·.policyIds)

end InvestigationRecommendation

/-- One item of evidence of a case. -/
structure EvidenceItem where
  evidenceId : String
  evidenceType : String
  sourceRecordId : String
  caseId : UUID
  customerId : String
  content : Json
  contentHash : String
  provenance : String
  evidenceId_length : 3 ≤ evidenceId.length ∧ evidenceId.length ≤ 100
  deriving DecidableEq

/-- A retrieved policy excerpt: its ID and its dump. -/
structure PolicyChunk where
  policyId : String
  document : Json
  deriving DecidableEq

/-- The outcomes of a control. -/
inductive ControlOutcome where
  | pass | warn | fail | notApplicable
  deriving DecidableEq, Repr

/-- The severities of a control. -/
inductive Severity where
  | info | low | medium | high | critical
  deriving DecidableEq, Repr

/-- The result of one control. -/
structure ControlResult where
  controlId : String
  controlVersion : String
  outcome : ControlOutcome
  reason : String
  evidenceIds : List String
  policyIds : List String
  severity : Severity
  hardBlock : Bool
  deriving DecidableEq

/-- One issue of a sanitized schema failure. -/
structure FailureIssue where
  location : String
  issueType : String
  deriving DecidableEq

/-- The record of a failed stage. -/
structure InvestigationError where
  errorId : UUID
  stage : String
  errorType : String
  errorCode : String
  safeMessage : String
  upstreamStatus : Option ℤ
  validationIssues : List FailureIssue
  validationIssueCount : ℕ
  deriving DecidableEq

/-- One access of a tool to the case's data. -/
structure ToolExecution where
  caseId : UUID
  toolName : String
  sanitizedArguments : Json
  authorized : Bool
  evidenceIds : List String
  errorCode : Option String
  deriving DecidableEq

/-- A review that its schema accepts. -/
structure HumanReview where
  reviewId : UUID
  caseId : UUID
  recommendationVersion : ℕ
  action : ReviewAction
  reviewerId : String
  rationale : String
  editedRecommendation : Option InvestigationRecommendation
  reviewedAt : Datetime
  version_pos : 1 ≤ recommendationVersion
  rationale_length : 1 ≤ rationale.length ∧ rationale.length ≤ 4000
  edited_iff : editedRecommendation.isSome = true ↔ action = .editAndApprove
  deriving DecidableEq

/-- Information that a user submits for a case. -/
structure Submission where
  actorId : String
  information : List (String × Json)
  submissionId : String

/-- `sorted(set(…))`. -/
def sortedSet (items : List String) : List String := items.dedup.insertionSort (· ≤ ·)

/-- Sorting a set keeps its elements. -/
@[simp] theorem mem_sortedSet {items : List String} {s : String} :
    s ∈ sortedSet items ↔ s ∈ items := by
  rw [sortedSet, List.mem_insertionSort, List.mem_dedup]

/-- The sorted set is empty exactly when the list is. -/
@[simp] theorem sortedSet_eq_nil {items : List String} : sortedSet items = [] ↔ items = [] := by
  simp only [List.eq_nil_iff_forall_not_mem, mem_sortedSet]

namespace HumanReview

/-- An approving review releases the case. -/
def Approves (review : HumanReview) : Prop :=
  review.action = .approve ∨ review.action = .editAndApprove

/-- The review with the case and the version of a checkpoint in place of its own:
`HumanReview.model_validate({**payload, "case_id": …, "recommendation_version": …})`. -/
def rebind (review : HumanReview) (caseId : UUID) (version : ℕ) : Except PyError HumanReview :=
  if h : 1 ≤ version then
    .ok { review with caseId, recommendationVersion := version, version_pos := h }
  else
    .error (.validationError [⟨["recommendation_version"], "greater_than_equal"⟩])

/-- A submission of information is no review: three fields are missing and three are extra. -/
def submissionIssues : List ValidationIssue :=
  [⟨["action"], "missing"⟩, ⟨["reviewer_id"], "missing"⟩, ⟨["rationale"], "missing"⟩,
    ⟨["actor_id"], "extra_forbidden"⟩, ⟨["information"], "extra_forbidden"⟩,
    ⟨["submission_id"], "extra_forbidden"⟩]

/-- A rebound review differs from the original in case and version only. -/
theorem rebind_eq_ok {review rebound : HumanReview} {caseId : UUID} {version : ℕ}
    (h : review.rebind caseId version = .ok rebound) :
    rebound.caseId = caseId ∧ rebound.recommendationVersion = version ∧
      rebound.action = review.action ∧ rebound.editedRecommendation = review.editedRecommendation ∧
        rebound.reviewerId = review.reviewerId ∧ rebound.reviewId = review.reviewId := by
  unfold rebind at h
  split at h
  · cases h
    exact ⟨rfl, rfl, rfl, rfl, rfl, rfl⟩
  · cases h

end HumanReview

end Amlguard
