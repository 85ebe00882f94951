import Amlguard.Investigations.Controls
import Amlguard.Investigations.State
import Amlguard.Policy.Applicability

/-!
# The deterministic model

`FakeStructuredLLM.recommend`: one finding that cites the alert, its causal transactions and all
supplemental information, and every retrieved policy. A recommendation of this model passes both
citation controls, and it asks for information exactly when the KYC status is missing and nothing has
been supplied, or when the rule of the alert is none of the built-in ones.

How `str` renders a value is a parameter, as for the policy facts.
-/

namespace Amlguard

/-- A field of a document that is an object. -/
def Json.fieldOf (document : Json) (key : String) : Option Json :=
  match document with
  | .object fields => (fields.find? fun field => field.1 = key).map (·.2)
  | _ => none

/-- The fields of an item are those of its content. -/
theorem EvidenceItem.field_eq (item : EvidenceItem) (key : String) :
    item.field key = item.content.fieldOf key := by
  unfold EvidenceItem.field EvidenceItem.fields Json.fieldOf
  cases item.content <;> rfl

namespace FakeStructuredLLM

/-- The rules that the model knows. -/
def builtInRules : List String :=
  ["EXPECTED_ACTIVITY_VARIANCE", "RAPID_FUNDS_MOVEMENT", "STRUCTURING_LIKE_REPEATED_CREDITS"]

/-- `next` without a default finds nothing, inside a coroutine. -/
def coroutineStop : PyError :=
  { typeName := "RuntimeError", message := "coroutine raised StopIteration" }

/-- The kind of the recommendation. -/
def kindOf (kyc : Option EvidenceItem) (supplemental : List EvidenceItem) (ruleId : String) :
    RecommendationKind :=
  if (kyc.bind fun item => item.field "status") = some (.string "missing") ∧ supplemental = [] then
    .requestMoreInformation
  else if ruleId = "EXPECTED_ACTIVITY_VARIANCE" then .closeWithRationale
  else if ruleId = "RAPID_FUNDS_MOVEMENT" ∨ ruleId = "STRUCTURING_LIKE_REPEATED_CREDITS" then
    .escalateToHumanAmlAnalyst
  else .requestMoreInformation

/-- The IDs that are cited besides that of the alert: the first five causal transactions that have
been retrieved, or the last transaction, and all supplemental information. -/
def citedOf (causalIds : List String) (transactions supplemental : List EvidenceItem) :
    List String :=
  let available := transactions.map (·.evidenceId)
  let cited := (causalIds.filter fun id => available.contains id).take 5
  (if cited = [] then transactions.getLast?.toList.map (·.evidenceId) else cited) ++
    supplemental.map (·.evidenceId)

/-- The claim of the finding. -/
def claimOf (ruleId : String) : String :=
  "The deterministic alert " ++ ruleId ++ " is supported by retrieved transactions."

/-- The limitations; feedback is quoted up to its first 200 characters. -/
def limitationsOf (reviewerFeedback : Option String) : List String :=
  "Synthetic research data only; no criminal determination is made." ::
    match reviewerFeedback with
    | none | some "" => []
    | some feedback =>
      ["Reviewer feedback considered: " ++ String.ofList (feedback.toList.take 200)]

/-- The summary of every recommendation. -/
def summary : String := "Case-scoped evidence was reviewed against the deterministic alert."

/-- `FakeStructuredLLM.recommend`. -/
def recommend (py : PyBuiltins) (request : ModelRequest) :
    Except PyError InvestigationRecommendation := do
  let alert ← orRaise ((itemsOfType request.evidence "alert").head?) coroutineStop
  let kyc := (itemsOfType request.evidence "kyc_profile").head?
  let transactions := itemsOfType request.evidence "transaction"
  let supplemental := itemsOfType request.evidence "supplemental_information"
  let rule ← orRaise (alert.field "rule_id") (.keyError "rule_id")
  let ruleId := py.str rule
  let kind := kindOf kyc supplemental ruleId
  let causal ← PyBuiltins.items ((alert.field "causal_transaction_ids").getD (.array []))
  let cited := citedOf (causal.map py.str) transactions supplemental
  if hclaim : 1 ≤ (claimOf ruleId).length ∧ (claimOf ruleId).length ≤ 2000 then
    pure
      { schemaVersion := "1.0"
        recommendation := kind
        summary
        materialFindings :=
          [{ claim := claimOf ruleId
             evidenceIds := alert.evidenceId :: cited
             policyIds := request.policies.map (·.policyId)
             assessment := .supportsConcern
             claimType := .fact
             claim_length := hclaim
             evidenceIds_ne_nil := by simp }]
        counterIndicators := []
        missingInformation :=
          if kind = .requestMoreInformation then
            ["Provide current KYC or source-of-funds information."]
          else []
        contradictions := []
        recommendedNextSteps := ["A human AML analyst must review the evidence and recommendation."]
        limitations := limitationsOf request.reviewerFeedback
        summary_length := by decide +kernel }
  else
    throw (.validationError [⟨["claim"], "string_too_long"⟩])

/-- The KYC record has the status that asks for information. -/
def KycMissing (kyc : Json) : Prop := kyc.fieldOf "status" = some (.string "missing")

/-- The rule of an alert is one of the built-in ones. -/
def BuiltIn (py : PyBuiltins) (alert : Json) : Prop :=
  ∃ rule, alert.fieldOf "rule_id" = some rule ∧ py.str rule ∈ builtInRules

/-- The evidence makes the model ask for information. -/
def Requests (py : PyBuiltins) (evidence : List EvidenceItem) : Prop :=
  (∃ kyc, (itemsOfType evidence "kyc_profile").head? = some kyc ∧ KycMissing kyc.content) ∧
      itemsOfType evidence "supplemental_information" = [] ∨
    ¬∃ alert, (itemsOfType evidence "alert").head? = some alert ∧ BuiltIn py alert.content

section

variable {py : PyBuiltins} {request : ModelRequest} {r : InvestigationRecommendation}
  {evidence : List EvidenceItem} {evidenceType : String} {item : EvidenceItem}

/-- An item of a type is an item. -/
theorem mem_of_itemsOfType (h : item ∈ itemsOfType evidence evidenceType) : item ∈ evidence :=
  List.mem_of_mem_filter h

/-- Information is asked for under one of two conditions. -/
theorem kindOf_eq_request {kyc : Option EvidenceItem} {supplemental : List EvidenceItem}
    {ruleId : String} :
    kindOf kyc supplemental ruleId = .requestMoreInformation ↔
      (kyc.bind fun item => item.field "status") = some (.string "missing") ∧ supplemental = [] ∨
        ruleId ∉ builtInRules := by
  simp only [builtInRules, List.mem_cons, List.not_mem_nil, or_false, not_or]
  unfold kindOf
  split
  · simp [*]
  · split
    · simp [*]
    · split
      · rename_i hknown
        simp_all only [not_and, reduceCtorEq, not_false_eq_true, true_and, false_iff]
        rintro (⟨hmissing, hnone⟩ | ⟨hrapid, hstructuring⟩)
        · simp_all
        · exact hknown.elim hrapid hstructuring
      · simp_all

/-- Every ID that is cited is that of a transaction or of supplemental information. -/
theorem mem_citedOf {causalIds : List String} {transactions supplemental : List EvidenceItem}
    {id : String} (h : id ∈ citedOf causalIds transactions supplemental) :
    ∃ item ∈ transactions ++ supplemental, item.evidenceId = id := by
  rcases List.mem_append.mp h with hcited | hsupplemental
  · split at hcited
    · obtain ⟨item, hitem, rfl⟩ := List.mem_map.mp hcited
      have hlast : transactions.getLast? = some item := by simpa using hitem
      exact ⟨item, List.mem_append_left _ (List.mem_of_getLast? hlast), rfl⟩
    · have havailable := (List.mem_filter.mp (List.mem_of_mem_take hcited)).2
      obtain ⟨item, hitem, rfl⟩ := List.mem_map.mp (List.contains_iff_mem.mp havailable)
      exact ⟨item, List.mem_append_left _ hitem, rfl⟩
  · obtain ⟨item, hitem, rfl⟩ := List.mem_map.mp hsupplemental
    exact ⟨item, List.mem_append_right _ hitem, rfl⟩

/-- What the model has found when it returns. -/
theorem recommend_eq_ok (h : recommend py request = .ok r) :
    ∃ alert rule cited, (itemsOfType request.evidence "alert").head? = some alert ∧
      alert.field "rule_id" = some rule ∧
      (∃ causalIds, cited = citedOf causalIds (itemsOfType request.evidence "transaction")
        (itemsOfType request.evidence "supplemental_information")) ∧
      r.recommendation = kindOf ((itemsOfType request.evidence "kyc_profile").head?)
        (itemsOfType request.evidence "supplemental_information") (py.str rule) ∧
      r.citedEvidenceIds = alert.evidenceId :: cited ∧
      r.citedPolicyIds = request.policies.map (·.policyId) := by
  unfold recommend at h
  obtain ⟨alert, halert, h⟩ := bind_eq_ok.mp h
  obtain ⟨rule, hrule, h⟩ := bind_eq_ok.mp h
  obtain ⟨causal, -, h⟩ := bind_eq_ok.mp h
  dsimp only at h
  split at h
  · cases h
    refine ⟨alert, rule, _, orRaise_eq_ok.mp halert, orRaise_eq_ok.mp hrule, ⟨causal.map py.str, rfl⟩,
      rfl, ?_, ?_⟩
    · simp [InvestigationRecommendation.citedEvidenceIds, InvestigationRecommendation.findings]
    · simp [InvestigationRecommendation.citedPolicyIds, InvestigationRecommendation.findings]
  · cases h

/-- Whatever the evidence and the policies are, the model cites only what it was given. -/
theorem recommend_cited (h : recommend py request = .ok r) :
    Cited r request.evidence request.policies := by
  obtain ⟨alert, rule, cited, halert, -, ⟨causalIds, rfl⟩, -, hevidence, hpolicies⟩ := recommend_eq_ok h
  constructor
  · intro id hid
    rw [hevidence] at hid
    rcases List.mem_cons.mp hid with rfl | hcited
    · exact ⟨alert, mem_of_itemsOfType (List.mem_of_head? halert), rfl⟩
    · obtain ⟨item, hitem, rfl⟩ := mem_citedOf hcited
      rcases List.mem_append.mp hitem with hitem | hitem <;>
        exact ⟨item, mem_of_itemsOfType hitem, rfl⟩
  · intro id hid
    rw [hpolicies] at hid
    simpa using hid
  · intro hsome
    rw [hpolicies]
    simpa using hsome

/-- The model asks for information exactly when the evidence makes it. -/
theorem recommend_requests (h : recommend py request = .ok r) :
    r.recommendation = .requestMoreInformation ↔ Requests py request.evidence := by
  obtain ⟨alert, rule, cited, halert, hrule, -, hkind, -, -⟩ := recommend_eq_ok h
  have hfield := hrule
  rw [EvidenceItem.field_eq] at hfield
  rw [hkind, kindOf_eq_request]
  apply or_congr
  · simp [KycMissing, Option.bind_eq_some_iff, EvidenceItem.field_eq]
  · simp [halert, BuiltIn, hfield]

end

end FakeStructuredLLM

section

variable {b : CaseBinding} {recommendation : InvestigationRecommendation}
  {evidence : List EvidenceItem} {policies : List PolicyChunk} {executions : List ToolExecution}
  {securityEvents : List String}

/-- A cited recommendation on evidence in scope, with a clean log and no recorded event, is ready. -/
theorem ready_of_cited (hcited : Cited recommendation evidence policies)
    (hevidence : ∀ item ∈ evidence, item.caseId = b.caseId ∧ item.customerId = b.customerId)
    (hexecutions : ∀ execution ∈ executions, execution.authorized = true →
      execution.toolName ∉ prohibitedTools) (hrecorded : securityEvents = []) :
    (validateControls b.caseId b.customerId recommendation evidence policies securityEvents
        executions).decision = ⟨.ready, []⟩ ∧
      (validateControls b.caseId b.customerId recommendation evidence policies securityEvents
        executions).securityEvents = [] := by
  subst hrecorded
  have hevents : observedEvents b.caseId b.customerId (.ofItems evidence) executions [] = [] := by
    apply List.eq_nil_iff_forall_not_mem.mpr
    intro event hevent
    exact List.not_mem_nil (recorded_of_observed hevidence hexecutions hevent)
  have hinvalid : (EvidenceLedger.ofItems evidence).validateRecommendation recommendation = [] :=
    EvidenceLedger.validateRecommendation_eq_nil.mpr hcited.evidence_known
  have hpolicies : validatePolicyCitations recommendation.citedPolicyIds policies = [] :=
    validatePolicyCitations_eq_nil.mpr hcited.policies_known
  have hfine : ¬(validatePolicyCitations recommendation.citedPolicyIds policies ≠ [] ∨
      policies ≠ [] ∧ recommendation.citedPolicyIds = []) := by
    rintro (hne | ⟨hsome, hnone⟩)
    · exact hne hpolicies
    · exact hcited.some_policy hsome hnone
  refine ⟨?_, hevents⟩
  have hblocks : HardBlockEvaluator.blocks
      [evidenceCitationControl ((EvidenceLedger.ofItems evidence).validateRecommendation recommendation),
        policyCitationControl recommendation.citedPolicyIds
          (validatePolicyCitations recommendation.citedPolicyIds policies) policies]
      (observedEvents b.caseId b.customerId (.ofItems evidence) executions []) = [] := by
    rw [hevents, hinvalid]
    unfold policyCitationControl
    rw [if_neg hfine]
    simp [HardBlockEvaluator.blocks, evidenceCitationControl]
  change HardBlockEvaluator.evaluate _ _ = _
  unfold HardBlockEvaluator.evaluate
  rw [hblocks]
  rfl

end

end Amlguard
