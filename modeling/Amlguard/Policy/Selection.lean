import Amlguard.Investigations.FakeModel
import Amlguard.Policy.Corpus

/-!
# Selecting the policies of a case

`select_policies`: the query and the date that the evidence of a case gives, and what the index returns
for its alert. What a date is read from and written to, and what the dump of an excerpt is, is left open.

On the index of a root, every selected policy is an excerpt that the root serves on the day of the alert,
and none is missed that is mapped to the alert and whose conditions the evidence meets.
-/

namespace Amlguard.Policy

open Ranking FakeStructuredLLM

/-- What the selection of policies is configured with, and the functions on dates and excerpts that it
calls. -/
structure PolicySettings where
  py : PyBuiltins
  fromisoformat : String → Except PyError Date
  isoformat : Date → String
  dump : PolicyChunk → Json
  index : PolicyIndex
  jurisdiction : String
  resultLimit : ℤ

/-- `value.replace("_", " ")`. -/
def spaced (value : String) : String :=
  String.ofList (value.toList.map fun c => if c = '_' then ' ' else c)

/-- The value of a stage. -/
def PolicyStage.value : PolicyStage → String
  | .initialAnalysis => "initial_analysis"
  | .informationCollection => "information_collection"
  | .enhancedExamination => "enhanced_examination"
  | .reportingAssessment => "reporting_assessment"
  | .confidentiality => "confidentiality"
  | .recordkeeping => "recordkeeping"

/-- The value of a reason. -/
def PolicyRetrievalReason.value : PolicyRetrievalReason → String
  | .alertMapping => "alert_mapping"
  | .conditionalMapping => "conditional_mapping"
  | .contextualKeyword => "contextual_keyword"

/-- The dump of `to_record`. -/
def PolicyMatch.toRecord (found : PolicyMatch) : Json :=
  .object [("policy_id", .string found.chunk.policyId), ("reason", .string found.reason.value),
    ("stage", (found.stage.map fun stage => Json.string stage.value).getD .null),
    ("score", .number found.score), ("matched_fact_ids", .array (found.matchedFactIds.map .string)),
    ("explanation", .string found.explanation)]

/-- The dump of a fact. -/
def dumpFact (fact : PolicyApplicabilityFact) : Json :=
  .object [("fact_id", .string fact.factId), ("explanation", .string fact.explanation),
    ("evidence_ids", .array (fact.evidenceIds.map .string))]

namespace PolicySettings

variable (settings : PolicySettings)

/-- The query for the policies of a case. -/
def policyQuery (evidence : List EvidenceItem) (alert customer kyc : EvidenceItem)
    (facts : List PolicyApplicabilityFact) : String :=
  let transactions := itemsOfType evidence "transaction"
  let supplementalFieldNames := (itemsOfType evidence "supplemental_information").flatMap fun item =>
    item.information.map fun field => spaced field.1
  String.intercalate " "
    (["AML investigation suspicious report reporting threshold analysis regulation",
      "déclaration soupçon seuil client bénéficiaire effectif transaction vigilance",
      spaced (alert.textOf settings.py "rule_id"), customer.textOf settings.py "customer_type",
      customer.textOf settings.py "risk_level", kyc.textOf settings.py "purpose"] ++
      facts.map (fun fact => spaced fact.factId) ++ supplementalFieldNames ++
      (transactions.drop (transactions.length - 50)).map fun item =>
        item.textOf settings.py "description")

/-- A policy as the graph keeps it. -/
def dumped (chunk : PolicyChunk) : Amlguard.PolicyChunk := ⟨chunk.policyId, settings.dump chunk⟩

/-- `select_policies`, inside a coroutine. -/
def selectPolicies (evidence : List EvidenceItem) : Except PyError PolicySelection := do
  let alert ← orRaise (itemsOfType evidence "alert").head? coroutineStop
  let customer ← orRaise (itemsOfType evidence "customer_profile").head? coroutineStop
  let kyc ← orRaise (itemsOfType evidence "kyc_profile").head? coroutineStop
  let facts ← derivePolicyApplicabilityFacts settings.py evidence
  let query := settings.policyQuery evidence alert customer kyc facts
  let createdAt ← orRaise (alert.field "created_at") (.keyError "created_at")
  let asOfDate ← settings.fromisoformat (String.ofList ((settings.py.str createdAt).toList.take 10))
  let found ← settings.index.searchForAlert settings.py.lower query settings.jurisdiction asOfDate
    (alert.textOf settings.py "rule_id") facts settings.resultLimit
  pure
    { policyAsOfDate := settings.isoformat asOfDate
      applicabilityFacts := facts.map dumpFact
      policyMatches := found.map fun item => ⟨settings.dumped item.chunk, item.toRecord⟩ }

end PolicySettings

/-- Policies that are selected for evidence: of the alert, on its day, under its mapping, and by the facts
that are derived from the evidence. -/
structure PolicySettings.Grounds (settings : PolicySettings) (root : PolicyRoot)
    (evidence : List EvidenceItem) (policies : List Amlguard.PolicyChunk) (alert : EvidenceItem)
    (day : Date) (mapping : AlertPolicyMapping) (facts : List PolicyApplicabilityFact) : Prop where
  alert_first : (itemsOfType evidence "alert").head? = some alert
  created : ∃ createdAt, alert.field "created_at" = some createdAt ∧
    settings.fromisoformat (String.ofList ((settings.py.str createdAt).toList.take 10)) = .ok day
  mapped : ∃ mappings, root.alertPolicyMappings = some (.ok mappings) ∧ mapping ∈ mappings ∧
    mapping.alertRuleId = alert.textOf settings.py "rule_id"
  derived : derivePolicyApplicabilityFacts settings.py evidence = .ok facts
  unique : (policies.map (·.policyId)).Nodup
  limited : (policies.length : ℤ) ≤ settings.resultLimit
  served (policy : Amlguard.PolicyChunk) (h : policy ∈ policies) :
    ∃ excerpt, root.Serves settings.jurisdiction day excerpt ∧
      policy = settings.dumped excerpt.toPolicyChunk
  complete (rule : MappedPolicyRule) (hrule : rule ∈ mapping.rules) (happlies : rule.Applies facts)
    (excerpt : PolicyExcerpt) (hserves : root.Serves settings.jurisdiction day excerpt)
    (hid : excerpt.policyId = rule.policyId) : settings.dumped excerpt.toPolicyChunk ∈ policies

section Grounds

variable {root : PolicyRoot} {settings : PolicySettings} {chunks : List PolicyChunk}
  {lower : String → String} {query jurisdiction alertRuleId : String} {day : Date}
  {facts : List PolicyApplicabilityFact} {limit : ℤ} {index : PolicyIndex} {mapping : AlertPolicyMapping}

/-- What `search_for_alert` returns is what is to be returned under the mapping of the rule. -/
theorem searchForAlert_eq_ok {result : List PolicyMatch} (hunique : (chunks.map (·.policyId)).Nodup)
    (hchunks : index.chunks = chunks)
    (hloaded : ∀ mapping, index.alertMappings.get? alertRuleId = some mapping → Loaded mapping)
    (h : index.searchForAlert lower query jurisdiction day alertRuleId facts limit = .ok result) :
    ∃ mapping, index.alertMappings.get? alertRuleId = some mapping ∧
      ((mappedPolicies chunks jurisdiction day facts mapping).length : ℤ) ≤ limit ∧
      result = alertPolicies chunks jurisdiction day facts lower query mapping limit := by
  by_cases hlimit : 1 ≤ limit ∧ limit ≤ 20
  · cases hmapping : index.alertMappings.get? alertRuleId with
    | none =>
      rw [searchForAlert_noMapping hlimit hmapping] at h
      cases h
    | some mapping =>
      have heq := searchForAlert_eq lower query jurisdiction day facts hunique (hloaded mapping hmapping)
        hchunks hmapping hlimit
      split at heq
      · obtain ⟨e, he⟩ := heq
        rw [he] at h
        cases h
      · rename_i hroom
        rw [heq] at h
        cases h
        exact ⟨mapping, rfl, not_lt.mp hroom, rfl⟩
  · rw [searchForAlert_outOfRange hlimit] at h
    cases h

/-- No more policies are to be returned than the limit allows. -/
theorem length_alertPolicies
    (hroom : ((mappedPolicies chunks jurisdiction day facts mapping).length : ℤ) ≤ limit) :
    ((alertPolicies chunks jurisdiction day facts lower query mapping limit).length : ℤ) ≤ limit := by
  unfold alertPolicies
  dsimp only
  rw [List.length_append, List.length_map, List.length_take]
  omega

/-- A policy in force of a rule that applies is to be returned. -/
theorem mem_alertPolicies_of_applies (hunique : (chunks.map (·.policyId)).Nodup) {rule : MappedPolicyRule}
    (hrule : rule ∈ mapping.rules) (happlies : rule.Applies facts) {chunk : PolicyChunk}
    (hchunk : chunk ∈ chunks) (hforce : chunk.InForce jurisdiction day)
    (hid : chunk.policyId = rule.policyId) :
    ∃ found ∈ alertPolicies chunks jurisdiction day facts lower query mapping limit,
      found.chunk = chunk := by
  have hfind : (chunks.find? fun chunk => chunk.policyId = rule.policyId ∧
      chunk.InForce jurisdiction day) = some chunk := by
    cases hfound : chunks.find? fun chunk => chunk.policyId = rule.policyId ∧
        chunk.InForce jurisdiction day with
    | none =>
      have hnot := List.find?_eq_none.mp hfound chunk hchunk
      exact absurd (decide_eq_true (⟨hid, hforce⟩ : _ ∧ _)) hnot
    | some other =>
      have hother := List.find?_some hfound
      rw [decide_eq_true_eq] at hother
      have hsame := List.inj_on_of_nodup_map hunique (List.mem_of_find?_eq_some hfound) hchunk
        (hother.1.trans hid.symm)
      rw [hsame]
  have hmatch (reason : PolicyRetrievalReason) : ∃ found,
      ruleMatch chunks jurisdiction day facts reason rule = some found ∧ found.chunk = chunk := by
    unfold ruleMatch
    rw [hfind]
    exact ⟨_, rfl, rfl⟩
  rcases List.mem_append.mp hrule with halways | hconditional
  · obtain ⟨found, hfound, hsame⟩ := hmatch .alertMapping
    refine ⟨found, List.mem_append_left _ (List.mem_append_left _ ?_), hsame⟩
    exact List.mem_filterMap.mpr ⟨rule, halways, hfound⟩
  · obtain ⟨found, hfound, hsame⟩ := hmatch .conditionalMapping
    refine ⟨found, List.mem_append_left _ (List.mem_append_right _ ?_), hsame⟩
    exact List.mem_filterMap.mpr ⟨rule, List.mem_filter.mpr ⟨hconditional, decide_eq_true happlies⟩, hfound⟩

/-- The policies that are selected with the index of a root are grounded in it. -/
theorem PolicySettings.grounds_of_select (hload : loadPolicyIndex root = .ok settings.index)
    {evidence : List EvidenceItem} {selection : PolicySelection}
    (h : settings.selectPolicies evidence = .ok selection) :
    ∃ alert day mapping facts,
      settings.Grounds root evidence (selection.policyMatches.map (·.chunk)) alert day mapping facts := by
  obtain ⟨sources, excerpts, mappings, hcorpus, hfile, hfit, hindex⟩ := loadPolicyIndex_eq_ok.mp hload
  simp only [PolicySettings.selectPolicies, bind_eq_ok, orRaise_eq_ok] at h
  obtain ⟨alert, halert, customer, -, kyc, -, facts, hfacts, createdAt, hcreated, day, hday, found, hfound,
    hselection⟩ := h
  cases hselection
  have hunique := hcorpus.chunks_unique
  have hget (ruleId : String) (mapping : AlertPolicyMapping)
      (hmapping : settings.index.alertMappings.get? ruleId = some mapping) :
      mapping ∈ mappings ∧ mapping.alertRuleId = ruleId := by
    rw [get?_alertMappings ruleId hfit.rules_unique (hindex ▸ init_of_fit hfit)] at hmapping
    have hsame := List.find?_some hmapping
    rw [decide_eq_true_eq] at hsame
    exact ⟨List.mem_of_find?_eq_some hmapping, hsame⟩
  have hloaded (ruleId : String) (mapping : AlertPolicyMapping)
      (hmapping : settings.index.alertMappings.get? ruleId = some mapping) : Loaded mapping :=
    ⟨hfit.always mapping (hget ruleId mapping hmapping).1⟩
  obtain ⟨mapping, hmapping, hroom, hresult⟩ := searchForAlert_eq_ok hunique
    (congrArg PolicyIndex.chunks hindex) (hloaded _) hfound
  obtain ⟨hmem, hrule⟩ := hget _ _ hmapping
  have hpolicies : (found.map fun item => (⟨settings.dumped item.chunk, item.toRecord⟩ :
      Amlguard.PolicyMatch)).map (·.chunk) = found.map fun item => settings.dumped item.chunk := by
    rw [List.map_map]
    rfl
  dsimp only
  rw [hpolicies]
  refine ⟨alert, day, mapping, facts, halert, ⟨createdAt, hcreated, hday⟩, ⟨mappings, hfile, hmem, hrule⟩,
    hfacts, ?_, ?_, ?_, ?_⟩
  · rw [List.map_map, hresult]
    exact nodup_alertPolicies hunique mapping
  · rw [List.length_map, hresult]
    exact length_alertPolicies hroom
  · intro policy hpolicy
    obtain ⟨item, hitem, rfl⟩ := List.mem_map.mp hpolicy
    rw [hresult] at hitem
    obtain ⟨hchunk, hforce, -⟩ := mem_alertPolicies hitem
    obtain ⟨excerpt, hexcerpt, hsame⟩ := List.mem_map.mp hchunk
    refine ⟨excerpt, hcorpus.serves_iff.mpr ⟨hexcerpt, ?_⟩, ?_⟩
    · rw [hsame]
      exact hforce
    · rw [hsame]
  · intro rule hrule happlies excerpt hserves hid
    obtain ⟨hexcerpt, hforce⟩ := hcorpus.serves_iff.mp hserves
    obtain ⟨item, hitem, hchunk⟩ := mem_alertPolicies_of_applies hunique hrule happlies
      (List.mem_map_of_mem hexcerpt) hforce hid
    rw [← hresult] at hitem
    exact List.mem_map.mpr ⟨item, hitem, by rw [hchunk]⟩

end Grounds

/-- Settings with the index of the sample root. Every alert is of the first day. -/
def sampleSettings : PolicySettings where
  py := sampleBuiltins
  fromisoformat _ := .ok 0
  isoformat _ := "0001-01-01"
  dump _ := .null
  index := indexOf sampleExcerpts [sampleMapping]
  jurisdiction := "FR"
  resultLimit := 20

/-- An alert of the mapped rule. -/
def mappedAlert : Json :=
  .object [("rule_id", .string "RAPID_FUNDS_MOVEMENT"), ("created_at", .string "0001-01-01T00:00:00"),
    ("causal_transaction_ids", .array [.string "T-1"])]

/-- A current KYC record. -/
def currentKyc : Json := .object [("status", .string "current"), ("purpose", .string "salary")]

/-- A transaction with a known counterparty. -/
def knownCounterparty : Json := .object [("counterparty_country_code", .string "FR")]

/-- Evidence of an alert of the mapped rule, with what is read of it. -/
structure MappedEvidence (evidence : List EvidenceItem) : Prop where
  alert : ∃ alert ∈ (itemsOfType evidence "alert").head?, (alert.field "created_at").isSome ∧
    alert.textOf sampleBuiltins "rule_id" = "RAPID_FUNDS_MOVEMENT"
  customer : (itemsOfType evidence "customer_profile").head?.isSome
  kyc : (itemsOfType evidence "kyc_profile").head?.isSome

instance (evidence : List EvidenceItem) : Decidable (MappedEvidence evidence) :=
  decidable_of_iff (_ ∧ _ ∧ _) ⟨fun h => ⟨h.1, h.2.1, h.2.2⟩, fun h => ⟨h.alert, h.customer, h.kyc⟩⟩

/-- The match of the policy that is mapped to the alert. -/
def mappedMatch : PolicyMatch where
  chunk := sampleChunk "P-1" "one"
  score := 1
  reason := .alertMapping
  stage := some .initialAnalysis
  matchedFactIds := []
  explanation := "first"

/-- The policies that are selected by facts for an alert of the mapped rule. -/
def mappedSelection (facts : List PolicyApplicabilityFact) : PolicySelection where
  policyAsOfDate := "0001-01-01"
  applicabilityFacts := facts.map dumpFact
  policyMatches := [⟨⟨"P-1", .null⟩, mappedMatch.toRecord⟩]

/-- The mapped policy is all that is to be returned under the sample mapping. -/
theorem alertPolicies_sampleMapping (facts : List PolicyApplicabilityFact) (query : String) :
    alertPolicies (sampleExcerpts.map (·.toPolicyChunk)) "FR" 0 facts id query sampleMapping 20 =
      [mappedMatch] := by
  have hmapped : mappedPolicies (sampleExcerpts.map (·.toPolicyChunk)) "FR" 0 facts sampleMapping =
      [mappedMatch] := rfl
  have hremaining : remainingPolicies (sampleExcerpts.map (·.toPolicyChunk)) "FR" 0 id query
      [mappedMatch] = [] := by
    rw [List.eq_nil_iff_forall_not_mem]
    intro item hitem
    obtain ⟨hchunk, hforce, hother⟩ := mem_remainingPolicies hitem
    have hnone : ∀ chunk ∈ sampleExcerpts.map (·.toPolicyChunk), chunk.InForce "FR" 0 →
        chunk.policyId = "P-1" := by
      decide
    exact hother mappedMatch List.mem_cons_self (hnone item.1 hchunk hforce).symm
  unfold alertPolicies
  rw [hmapped]
  dsimp only
  rw [hremaining]
  simp [sortedBy]

/-- The policies that are selected for an alert of the mapped rule. -/
theorem select_mappedEvidence {evidence : List EvidenceItem} {facts : List PolicyApplicabilityFact}
    (h : MappedEvidence evidence) (hfacts : derivePolicyApplicabilityFacts sampleBuiltins evidence = .ok facts) :
    sampleSettings.selectPolicies evidence = .ok (mappedSelection facts) := by
  obtain ⟨alert, halert, hcreated, hrule⟩ := h.alert
  obtain ⟨createdAt, hcreated⟩ := Option.isSome_iff_exists.mp hcreated
  obtain ⟨customer, hcustomer⟩ := Option.isSome_iff_exists.mp h.customer
  obtain ⟨kyc, hkyc⟩ := Option.isSome_iff_exists.mp h.kyc
  have hsearch : sampleSettings.index.searchForAlert id
      (sampleSettings.policyQuery evidence alert customer kyc facts) "FR" 0 "RAPID_FUNDS_MOVEMENT" facts 20 =
        .ok [mappedMatch] := by
    have hloaded : Loaded sampleMapping := ⟨by decide⟩
    have hmapping : sampleSettings.index.alertMappings.get? "RAPID_FUNDS_MOVEMENT" = some sampleMapping := rfl
    have hlimit : (1 : ℤ) ≤ 20 ∧ (20 : ℤ) ≤ 20 := by decide
    have hroom : ¬(20 : ℤ) < (mappedPolicies (sampleExcerpts.map (·.toPolicyChunk)) "FR" 0 facts
        sampleMapping).length := by
      change ¬(20 : ℤ) < 1
      decide
    have heq := searchForAlert_eq id (sampleSettings.policyQuery evidence alert customer kyc facts) "FR" 0
      facts sampleRoot_corpus.chunks_unique hloaded rfl hmapping hlimit
    rwa [alertPolicies_sampleMapping, if_neg hroom] at heq
  simp only [PolicySettings.selectPolicies, bind_eq_ok, orRaise_eq_ok]
  refine ⟨alert, halert, customer, hcustomer, kyc, hkyc, facts, hfacts, createdAt, hcreated, 0, rfl,
    [mappedMatch], ?_, rfl⟩
  change sampleSettings.index.searchForAlert id _ "FR" 0 (alert.textOf sampleBuiltins "rule_id") facts 20 = _
  rw [hrule]
  exact hsearch

end Amlguard.Policy
