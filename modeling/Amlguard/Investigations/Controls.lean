import Amlguard.Investigations.Domain
import Amlguard.Library.Dict

/-!
# Release controls

The pure part of `validate_controls`: the evidence ledger, the two citation controls and the
evaluator of hard blocks; and the sanitized record of an exception.

A recommendation is `Cited` by its evidence and policies when every ID it cites is among them
and it cites a policy if there is one. A draft that leaves validation for human review is.
-/

namespace Amlguard

/-- Evidence by its ID. Of items with one ID the last stays, in the place of the first. -/
structure EvidenceLedger where
  entries : Dict String EvidenceItem

namespace EvidenceLedger

/-- `EvidenceLedger(items)`. -/
def ofItems (items : List EvidenceItem) : EvidenceLedger :=
  ⟨items.foldl (fun entries item => entries.set item.evidenceId item) .empty⟩

/-- The items of the ledger. -/
def items (ledger : EvidenceLedger) : List EvidenceItem := ledger.entries.values

/-- The cited evidence IDs that are not in the ledger. -/
def validateRecommendation (ledger : EvidenceLedger) (recommendation : InvestigationRecommendation) :
    List String :=
  sortedSet (recommendation.citedEvidenceIds.filter fun id => !ledger.entries.contains id)

/-- Filling a ledger adds exactly the IDs of the items. -/
theorem contains_foldl (items : List EvidenceItem) (entries : Dict String EvidenceItem)
    (id : String) :
    (items.foldl (fun entries item => entries.set item.evidenceId item) entries).contains id = true ↔
      (∃ item ∈ items, item.evidenceId = id) ∨ entries.contains id = true := by
  induction items generalizing entries with
  | nil => simp
  | cons item items ih =>
    rw [List.foldl_cons, ih]
    simp only [Dict.contains, Dict.get?_set, List.mem_cons, exists_eq_or_imp]
    by_cases h : item.evidenceId = id
    · simp [h]
    · simp [h]

/-- A ledger contains the IDs of its items. -/
theorem contains_ofItems (items : List EvidenceItem) (id : String) :
    (ofItems items).entries.contains id = true ↔ ∃ item ∈ items, item.evidenceId = id := by
  rw [ofItems, contains_foldl]
  simp [Dict.contains]

/-- What is filed while a ledger is filled is an item, or has been filed before. -/
theorem get?_foldl {items : List EvidenceItem} {entries : Dict String EvidenceItem} {id : String}
    {item : EvidenceItem}
    (h : (items.foldl (fun entries item => entries.set item.evidenceId item) entries).get? id =
      some item) : item ∈ items ∨ entries.get? id = some item := by
  induction items generalizing entries with
  | nil => exact .inr h
  | cons first rest ih =>
    rcases ih h with hrest | hset
    · exact .inl (List.mem_cons_of_mem _ hrest)
    · rw [Dict.get?_set] at hset
      split at hset
      · cases hset
        exact .inl List.mem_cons_self
      · exact .inr hset

/-- A ledger holds no other items. -/
theorem mem_items_ofItems {items : List EvidenceItem} {item : EvidenceItem}
    (h : item ∈ (ofItems items).items) : item ∈ items := by
  obtain ⟨id, hid⟩ := Dict.exists_get?_of_mem_values _ h
  rcases get?_foldl hid with hitem | hempty
  · exact hitem
  · cases hempty

/-- Nothing is reported when every cited ID belongs to an item. -/
theorem validateRecommendation_eq_nil {items : List EvidenceItem}
    {recommendation : InvestigationRecommendation} :
    (ofItems items).validateRecommendation recommendation = [] ↔
      ∀ id ∈ recommendation.citedEvidenceIds, ∃ item ∈ items, item.evidenceId = id := by
  simp only [validateRecommendation, sortedSet_eq_nil, List.filter_eq_nil_iff, Bool.not_eq_true',
    Bool.not_eq_false, contains_ofItems]

end EvidenceLedger

/-- The cited policy IDs that were not retrieved. -/
def validatePolicyCitations (citedIds : List String) (retrieved : List PolicyChunk) : List String :=
  sortedSet (citedIds.filter fun id => !(retrieved.map (·.policyId)).contains id)

/-- Nothing is reported when every cited policy was retrieved. -/
theorem validatePolicyCitations_eq_nil {citedIds : List String} {retrieved : List PolicyChunk} :
    validatePolicyCitations citedIds retrieved = [] ↔
      ∀ id ∈ citedIds, ∃ policy ∈ retrieved, policy.policyId = id := by
  simp [validatePolicyCitations, List.filter_eq_nil_iff]

/-- Whether a recommendation may be released. -/
inductive ReleaseStatus where
  | ready | blocked
  deriving DecidableEq, Repr

/-- A release decision and what blocks it. -/
structure ReleaseDecision where
  status : ReleaseStatus
  hardBlocks : List String
  deriving DecidableEq

namespace HardBlockEvaluator

/-- The events that block a release. -/
def criticalEvents : List String :=
  ["successful_cross_scope_access", "prohibited_action_execution", "human_review_bypass",
    "str_confidentiality_disclosure", "fabricated_evidence", "missing_material_audit",
    "non_eu_inference_route", "unapproved_model_fallback"]

/-- The blocks of a list of controls and events. -/
def blocks (controls : List ControlResult) (securityEvents : List String) : List String :=
  sortedSet ((controls.filter fun result => result.hardBlock && result.outcome == .fail).map
    (·.controlId) ++ criticalEvents.filter securityEvents.contains)

/-- `HardBlockEvaluator.evaluate`. -/
def evaluate (controls : List ControlResult) (securityEvents : List String) : ReleaseDecision where
  status := if blocks controls securityEvents = [] then .ready else .blocked
  hardBlocks := blocks controls securityEvents

/-- A ready decision has no failed hard-block control. -/
theorem not_fail_of_ready {controls : List ControlResult} {securityEvents : List String}
    (h : (evaluate controls securityEvents).status = .ready) {result : ControlResult}
    (hmem : result ∈ controls) (hblock : result.hardBlock = true) : result.outcome ≠ .fail := by
  intro hfail
  have hnil : blocks controls securityEvents = [] := by
    unfold evaluate at h
    split at h
    · assumption
    · cases h
  rw [blocks, sortedSet_eq_nil, List.append_eq_nil_iff, List.map_eq_nil_iff,
    List.filter_eq_nil_iff] at hnil
  exact hnil.1 result hmem (by simp [hblock, hfail])

end HardBlockEvaluator

/-- `EVIDENCE-CITATION-001`. -/
def evidenceCitationControl (invalidEvidence : List String) : ControlResult where
  controlId := "EVIDENCE-CITATION-001"
  controlVersion := "1.0"
  outcome := if invalidEvidence = [] then .pass else .fail
  reason :=
    if invalidEvidence = [] then "All material claim evidence IDs were available to the model."
    else "Unknown evidence IDs: " ++ reprList invalidEvidence
  evidenceIds := invalidEvidence
  policyIds := []
  severity := if invalidEvidence = [] then .info else .critical
  hardBlock := invalidEvidence ≠ []

/-- `POLICY-CITATION-001`. -/
def policyCitationControl (citedPolicyIds invalidPolicies : List String)
    (policies : List PolicyChunk) : ControlResult :=
  if invalidPolicies ≠ [] ∨ policies ≠ [] ∧ citedPolicyIds = [] then
    { controlId := "POLICY-CITATION-001"
      controlVersion := "1.0"
      outcome := .fail
      reason :=
        if invalidPolicies ≠ [] then "Unknown policy IDs: " ++ reprList invalidPolicies
        else "Recommendation did not cite any retrieved policy."
      evidenceIds := []
      policyIds := invalidPolicies
      severity := .critical
      hardBlock := true }
  else
    { controlId := "POLICY-CITATION-001"
      controlVersion := "1.0"
      outcome := if policies ≠ [] then .pass else .notApplicable
      reason :=
        if policies ≠ [] then "All cited policy IDs were retrieved and applicable."
        else "No applicable policy excerpts were retrieved."
      evidenceIds := []
      policyIds := []
      severity := .info
      hardBlock := false }

/-- The tools that no investigation may execute. -/
def prohibitedTools : List String :=
  ["submit_str", "freeze_account", "block_transaction", "contact_customer", "update_kyc"]

/-- What `validate_controls` computes before it stores a status. -/
structure Validation where
  recommendation : InvestigationRecommendation
  results : List ControlResult
  securityEvents : List String
  decision : ReleaseDecision
  status : CaseStatus

/-- The security events of a validation: the recorded ones, and those that the scope of the
evidence and the log of the tools reveal. -/
def observedEvents (caseId : UUID) (customerId : String) (ledger : EvidenceLedger)
    (executions : List ToolExecution) (securityEvents : List String) : List String :=
  let crossScope :=
    if ledger.items.any fun item => item.caseId != caseId || item.customerId != customerId then
      ["successful_cross_scope_access"]
    else []
  let prohibited :=
    if executions.any fun execution => execution.caseId == caseId && execution.authorized &&
        prohibitedTools.contains execution.toolName then
      ["prohibited_action_execution"]
    else []
  sortedSet (securityEvents ++ crossScope ++ prohibited)

/-- Evidence in scope and a log without prohibited executions reveal no further event. -/
theorem recorded_of_observed {caseId : UUID} {customerId : String} {evidence : List EvidenceItem}
    {executions : List ToolExecution} {securityEvents : List String} {event : String}
    (hevidence : ∀ item ∈ evidence, item.caseId = caseId ∧ item.customerId = customerId)
    (hexecutions : ∀ execution ∈ executions, execution.authorized = true →
      execution.toolName ∉ prohibitedTools)
    (h : event ∈ observedEvents caseId customerId (.ofItems evidence) executions securityEvents) :
    event ∈ securityEvents := by
  have hscope : ((EvidenceLedger.ofItems evidence).items.any fun item =>
      item.caseId != caseId || item.customerId != customerId) = false := by
    apply List.any_eq_false.mpr
    intro item hitem
    obtain ⟨hcase, hcustomer⟩ := hevidence item (EvidenceLedger.mem_items_ofItems hitem)
    simp [hcase, hcustomer]
  have hprohibited : (executions.any fun execution => execution.caseId == caseId &&
      execution.authorized && prohibitedTools.contains execution.toolName) = false := by
    apply List.any_eq_false.mpr
    intro execution hexecution
    by_cases hauthorized : execution.authorized = true
    · simp [hexecutions execution hexecution hauthorized]
    · simp [hauthorized]
  simp only [observedEvents, hscope, hprohibited] at h
  simpa using h

/-- The status that a release decision gives a recommendation. -/
def releasedStatus (decision : ReleaseDecision) (recommendation : InvestigationRecommendation) :
    CaseStatus :=
  match decision.status with
  | .blocked => .hardBlocked
  | .ready =>
    if recommendation.recommendation = .requestMoreInformation then .waitingForInformation
    else .waitingForHumanReview

/-- The decision part of `validate_controls`. -/
def validateControls (caseId : UUID) (customerId : String)
    (recommendation : InvestigationRecommendation) (evidence : List EvidenceItem)
    (policies : List PolicyChunk) (securityEvents : List String) (executions : List ToolExecution) :
    Validation :=
  let ledger := EvidenceLedger.ofItems evidence
  let invalidEvidence := ledger.validateRecommendation recommendation
  let citedPolicyIds := recommendation.citedPolicyIds
  let invalidPolicies := validatePolicyCitations citedPolicyIds policies
  let results := [evidenceCitationControl invalidEvidence,
    policyCitationControl citedPolicyIds invalidPolicies policies]
  let events := observedEvents caseId customerId ledger executions securityEvents
  let decision := HardBlockEvaluator.evaluate results events
  { recommendation, results, securityEvents := events, decision
    status := releasedStatus decision recommendation }

/-- Every cited ID is among the evidence or the policies, and a policy is cited if there is one. -/
structure Cited (recommendation : InvestigationRecommendation) (evidence : List EvidenceItem)
    (policies : List PolicyChunk) : Prop where
  evidence_known : ∀ id ∈ recommendation.citedEvidenceIds, ∃ item ∈ evidence, item.evidenceId = id
  policies_known : ∀ id ∈ recommendation.citedPolicyIds, ∃ policy ∈ policies, policy.policyId = id
  some_policy : policies ≠ [] → recommendation.citedPolicyIds ≠ []

instance (recommendation : InvestigationRecommendation) (evidence : List EvidenceItem)
    (policies : List PolicyChunk) : Decidable (Cited recommendation evidence policies) :=
  decidable_of_iff
    ((∀ id ∈ recommendation.citedEvidenceIds, ∃ item ∈ evidence, item.evidenceId = id) ∧
      (∀ id ∈ recommendation.citedPolicyIds, ∃ policy ∈ policies, policy.policyId = id) ∧
        (policies ≠ [] → recommendation.citedPolicyIds ≠ []))
    ⟨fun h => ⟨h.1, h.2.1, h.2.2⟩, fun h => ⟨h.evidence_known, h.policies_known, h.some_policy⟩⟩

section

variable {caseId : UUID} {customerId : String} {recommendation : InvestigationRecommendation}
  {evidence : List EvidenceItem} {policies : List PolicyChunk} {securityEvents : List String}
  {executions : List ToolExecution}

/-- A recommendation with a ready decision is cited. -/
theorem cited_of_ready
    (h : (validateControls caseId customerId recommendation evidence policies securityEvents
      executions).decision.status = .ready) : Cited recommendation evidence policies := by
  have hevidence := HardBlockEvaluator.not_fail_of_ready h List.mem_cons_self
  have hpolicies := HardBlockEvaluator.not_fail_of_ready h
    (List.mem_cons_of_mem _ List.mem_cons_self)
  have hinvalid : (EvidenceLedger.ofItems evidence).validateRecommendation recommendation = [] := by
    by_contra hne
    exact hevidence (by simp [evidenceCitationControl, hne]) (by simp [evidenceCitationControl, hne])
  have hfine : ¬(validatePolicyCitations recommendation.citedPolicyIds policies ≠ [] ∨
      policies ≠ [] ∧ recommendation.citedPolicyIds = []) := by
    intro hbad
    exact hpolicies (by simp only [policyCitationControl, if_pos hbad])
      (by simp only [policyCitationControl, if_pos hbad])
  rw [not_or, not_and, not_not] at hfine
  exact ⟨EvidenceLedger.validateRecommendation_eq_nil.mp hinvalid,
    validatePolicyCitations_eq_nil.mp hfine.1, hfine.2⟩

/-- A recommendation waits for human review when its decision is ready and it requests nothing. -/
theorem status_eq_waitingForHumanReview
    (h : (validateControls caseId customerId recommendation evidence policies securityEvents
      executions).status = .waitingForHumanReview) :
    (validateControls caseId customerId recommendation evidence policies securityEvents
      executions).decision.status = .ready ∧
      recommendation.recommendation ≠ .requestMoreInformation := by
  change releasedStatus _ recommendation = .waitingForHumanReview at h
  unfold releasedStatus at h
  split at h
  · cases h
  · split at h
    · cases h
    · exact ⟨by assumption, by assumption⟩

/-- Validation ends in one of three statuses. -/
theorem status_cases :
    (validateControls caseId customerId recommendation evidence policies securityEvents
      executions).status ∈
        [CaseStatus.hardBlocked, .waitingForInformation, .waitingForHumanReview] := by
  change releasedStatus _ recommendation ∈ _
  unfold releasedStatus
  split
  · simp
  · split <;> simp

end

/-- The codes and messages of the known exceptions, by class name. -/
def errorCodes : List (String × String × String) :=
  [("InferenceConfigurationError", "INFERENCE_CONFIGURATION_REJECTED",
      "The model or structured-output configuration was rejected."),
    ("InferenceAuthenticationError", "INFERENCE_AUTHENTICATION_REJECTED",
      "The inference credential was rejected or lacks permission."),
    ("InferenceRateLimitError", "INFERENCE_RATE_LIMITED",
      "The inference account or provider is rate limited."),
    ("InferenceServiceError", "INFERENCE_SERVICE_UNAVAILABLE",
      "The inference service timed out or returned a service error."),
    ("TimeoutError", "EXECUTION_TIMEOUT", "The graph stage exceeded its time limit."),
    ("ConnectionError", "DEPENDENCY_UNAVAILABLE", "A required dependency could not be reached.")]

/-- A status code that is reported: one of the client and server errors. -/
def upstreamStatus (e : PyError) : Option ℤ :=
  e.statusCode.filter fun code => 400 ≤ code && code ≤ 599

/-- One issue of a schema failure without its values. -/
def failureIssue (issue : ValidationIssue) : FailureIssue where
  location :=
    let joined := String.intercalate "." issue.location
    if joined = "" then "root" else joined
  issueType := issue.issueType

/-- The record of an exception of a stage, with the fields of `sanitized_failure_details`. -/
def failureOf (errorId : UUID) (stage : String) (e : PyError) : InvestigationError :=
  match e.issues with
  | some issues =>
    { errorId, stage, errorType := e.typeName
      errorCode := "SCHEMA_VALIDATION_FAILED"
      safeMessage := "Structured model output did not match the required schema."
      upstreamStatus := none
      validationIssues := (issues.map failureIssue).take 20
      validationIssueCount := issues.length }
  | none =>
    let known := (errorCodes.lookup e.typeName).getD
      ("UNEXPECTED_EXECUTION_ERROR", "The graph stage failed unexpectedly.")
    { errorId, stage, errorType := e.typeName
      errorCode := known.1
      safeMessage := known.2
      upstreamStatus := upstreamStatus e
      validationIssues := []
      validationIssueCount := 0 }

end Amlguard
