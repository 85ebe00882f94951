import Amlguard.Policy.Applicability
import Amlguard.Library.Ranking
import Mathlib.Data.Prod.Lex
import Mathlib.Algebra.Order.Field.Rat
import Mathlib.Data.String.Basic

/-!
# Policy retrieval

The index of policy excerpts: the checks under which the mappings of alert rules are loaded, the
keyword search, and `search_for_alert`, which puts the mapped rules that apply before the best of
the remaining excerpts. Scores are rational numbers, and what `str.lower` does is left open.
-/

namespace Amlguard.Policy

open Ranking

/-- The day of a `date`, counted from the first. -/
abbrev Date := ℕ

/-- A policy excerpt. -/
structure PolicyChunk where
  policyId : String
  provision : String
  text : String
  topics : List String
  jurisdiction : String
  effectiveFrom : Option Date
  effectiveTo : Option Date
  approved : Bool
  deriving DecidableEq

/-- The stages of an investigation that a rule may belong to. -/
inductive PolicyStage where
  | initialAnalysis | informationCollection | enhancedExamination | reportingAssessment
  | confidentiality | recordkeeping
  deriving DecidableEq

/-- Why a policy is returned. -/
inductive PolicyRetrievalReason where
  | alertMapping | conditionalMapping | contextualKeyword
  deriving DecidableEq

/-- The review states of a mapping. -/
inductive ReviewStatus where
  | researcherCurated | expertReviewed | rejected
  deriving DecidableEq

/-- A policy that is mapped to an alert rule, and the facts under which it applies. -/
structure MappedPolicyRule where
  policyId : String
  stage : PolicyStage
  rationale : String
  whenAll : List String
  whenAny : List String
  rationale_length : 1 ≤ rationale.length
  conditions_unique : (whenAll ++ whenAny).Nodup

/-- The policies that are mapped to an alert rule. -/
structure AlertPolicyMapping where
  alertRuleId : String
  alwaysPolicyRules : List MappedPolicyRule
  conditionalPolicyRules : List MappedPolicyRule
  reviewStatus : ReviewStatus
  always_nonempty : 1 ≤ alwaysPolicyRules.length
  policyIds_unique : ((alwaysPolicyRules ++ conditionalPolicyRules).map (·.policyId)).Nodup

/-- All rules of a mapping. -/
def AlertPolicyMapping.rules (mapping : AlertPolicyMapping) : List MappedPolicyRule :=
  mapping.alwaysPolicyRules ++ mapping.conditionalPolicyRules

/-- A returned policy. -/
structure PolicyMatch where
  chunk : PolicyChunk
  score : ℚ
  reason : PolicyRetrievalReason
  stage : Option PolicyStage
  matchedFactIds : List String
  explanation : String
  deriving DecidableEq

/-- The mapped policies that no excerpt has. -/
def unknownPolicyIds (chunks : List PolicyChunk) (mappings : List AlertPolicyMapping) : List String :=
  sortedSet (((mappings.flatMap (·.rules)).map (·.policyId)).filter fun id =>
    !(chunks.map (·.policyId)).contains id)

/-- The error for mappings that name no excerpt. -/
def unknownPolicies (ids : List String) : PyError :=
  .valueError ("alert mappings reference unknown policy IDs: " ++ reprList ids)

/-- The conditions of the rules of one mapping: none on those that always apply, some on others. -/
def checkConditions (mapping : AlertPolicyMapping) : Except PyError Unit := do
  raiseIf (∃ rule ∈ mapping.alwaysPolicyRules, rule.whenAll ≠ [] ∨ rule.whenAny ≠ [])
    (.valueError ("always policy rules cannot have conditions: " ++ mapping.alertRuleId))
  raiseIf (∃ rule ∈ mapping.conditionalPolicyRules, rule.whenAll = [] ∧ rule.whenAny = [])
    (.valueError ("conditional policy rules require conditions: " ++ mapping.alertRuleId))

/-- `load_alert_policy_mappings`, once the file has been parsed. -/
def loadAlertPolicyMappings (chunks : List PolicyChunk) (mappings : List AlertPolicyMapping) :
    Except PyError (List AlertPolicyMapping) := do
  let ruleIds := mappings.map (·.alertRuleId)
  let duplicateRules := sortedSet (ruleIds.filter fun id => 1 < ruleIds.count id)
  raiseIf (duplicateRules ≠ [])
    (.valueError ("duplicate alert rule IDs in policy mappings: " ++ reprList duplicateRules))
  let unknown := unknownPolicyIds chunks mappings
  raiseIf (unknown ≠ []) (unknownPolicies unknown)
  let mappedRules := mappings.flatMap (·.rules)
  let unapproved := sortedSet ((mappedRules.map (·.policyId)).filter fun id =>
    (chunks.find? fun chunk => chunk.policyId = id).any fun chunk => !chunk.approved)
  raiseIf (unapproved ≠ [])
    (.valueError ("alert mappings reference unapproved policy IDs: " ++ reprList unapproved))
  let rejected := sortedBy id
    ((mappings.filter fun mapping => mapping.reviewStatus = .rejected).map (·.alertRuleId))
  raiseIf (rejected ≠ [])
    (.valueError ("rejected alert policy mappings cannot be loaded: " ++ reprList rejected))
  mappings.forM checkConditions
  let unknownFactIds := sortedSet ((mappings.flatMap fun mapping =>
    mapping.conditionalPolicyRules.flatMap fun rule => rule.whenAll ++ rule.whenAny).filter
      fun factId => !policyFactIds.contains factId)
  raiseIf (unknownFactIds ≠ [])
    (.valueError ("alert mappings reference unknown policy facts: " ++ reprList unknownFactIds))
  pure mappings

/-- An index of policy excerpts. -/
structure PolicyIndex where
  chunks : List PolicyChunk
  alertMappings : Dict String AlertPolicyMapping

/-- `PolicyIndex.__init__`. -/
def PolicyIndex.init (chunks : List PolicyChunk) (mappings : List AlertPolicyMapping) :
    Except PyError PolicyIndex := do
  let alertMappings := Dict.empty.update (mappings.map fun item => (item.alertRuleId, item))
  raiseIf (alertMappings.entries.length ≠ mappings.length)
    (.valueError "duplicate alert rule IDs in policy mappings")
  let unknown := unknownPolicyIds chunks mappings
  raiseIf (unknown ≠ []) (unknownPolicies unknown)
  pure ⟨chunks, alertMappings⟩

/-- A character of `[a-zA-ZÀ-ÿ0-9]`. -/
def wordChar (c : Char) : Bool :=
  ('a' ≤ c && c ≤ 'z') || ('A' ≤ c && c ≤ 'Z') || (192 ≤ c.toNat && c.toNat ≤ 255) ||
    ('0' ≤ c && c ≤ '9')

/-- The set of the words of a text: the longest runs of word characters. -/
def words (text : String) : List String :=
  (((text.toList.splitOnP fun c => !wordChar c).filter (· ≠ [])).map String.ofList).dedup

namespace PolicyChunk

/-- The words of the query that are words of the excerpt, as a share of those of the query. -/
def score (lower : String → String) (query : String) (chunk : PolicyChunk) : ℚ :=
  let tokens := words (lower query)
  let searchable := String.intercalate " "
    ([chunk.policyId, chunk.provision, chunk.text] ++ chunk.topics)
  let haystack := words (lower searchable)
  ((tokens.filter haystack.contains).length : ℚ) / (max 1 tokens.length : ℕ)

/-- The filter of both searches: approved, of an allowed jurisdiction, and in force. -/
def eligible (jurisdiction : String) (asOfDate : Date) (chunk : PolicyChunk) : Bool :=
  chunk.approved && [jurisdiction, "EU", "INTL"].contains chunk.jurisdiction &&
    chunk.effectiveFrom.all (· ≤ asOfDate) && chunk.effectiveTo.all (asOfDate ≤ ·)

end PolicyChunk

/-- The key of the ranking: the best score first, then the policy ID. -/
def rankKey (item : PolicyChunk × ℚ) : ℚ ×ₗ String := toLex (-item.2, item.1.policyId)

/-- The error for a limit outside of the range. -/
def limitError : PyError := .valueError "policy result limit must be between 1 and 20"

/-- `_rule_applies`. -/
def MappedPolicyRule.applies (factIds : List String) (rule : MappedPolicyRule) : Bool :=
  rule.whenAll.all factIds.contains &&
    (rule.whenAny.isEmpty || rule.whenAny.any factIds.contains)

namespace PolicyIndex

variable (lower : String → String) (index : PolicyIndex) (query jurisdiction : String)
  (asOfDate : Date)

/-- `search`. -/
def search (limit : ℤ) : Except PyError (List (PolicyChunk × ℚ)) := do
  raiseIf (¬(1 ≤ limit ∧ limit ≤ 20)) limitError
  let eligible := index.chunks.filter (·.eligible jurisdiction asOfDate)
  let scored := (eligible.map fun chunk => (chunk, chunk.score lower query)).filter (·.2 ≠ 0)
  pure ((sortedBy rankKey scored).take limit.toNat)

/-- The match of a mapped rule. -/
def mappedMatch (alwaysIds factIds : List String) (rule : MappedPolicyRule) (chunk : PolicyChunk) :
    PolicyMatch where
  chunk := chunk
  score := 1
  reason := if alwaysIds.contains rule.policyId then .alertMapping else .conditionalMapping
  stage := some rule.stage
  matchedFactIds := rule.whenAll ++ rule.whenAny.filter factIds.contains
  explanation := rule.rationale

/-- The match of an excerpt that the query finds. -/
def contextualMatch (found : PolicyChunk × ℚ) : PolicyMatch where
  chunk := found.1
  score := found.2
  reason := .contextualKeyword
  stage := none
  matchedFactIds := []
  explanation := "The policy shares terms with the bounded investigation query."

/-- `search_for_alert`. -/
def searchForAlert (alertRuleId : String) (applicabilityFacts : List PolicyApplicabilityFact)
    (limit : ℤ) : Except PyError (List PolicyMatch) := do
  raiseIf (¬(1 ≤ limit ∧ limit ≤ 20)) limitError
  let mapping ← orRaise (index.alertMappings.get? alertRuleId)
    (.valueError ("no policy mapping for alert rule " ++ alertRuleId))
  let factIds := applicabilityFacts.map (·.factId)
  let selectedRules := mapping.alwaysPolicyRules ++
    mapping.conditionalPolicyRules.filter (·.applies factIds)
  let eligible := Dict.empty.update
    ((index.chunks.filter (·.eligible jurisdiction asOfDate)).map fun chunk => (chunk.policyId, chunk))
  let eligibleRules := selectedRules.filter fun rule => eligible.contains rule.policyId
  raiseIf (limit < eligibleRules.length)
    (.valueError ("policy result limit " ++ toString limit ++ " is smaller than the " ++
      toString eligibleRules.length ++ " applicable mapped policies for " ++ alertRuleId))
  let alwaysIds := mapping.alwaysPolicyRules.map (·.policyId)
  let mapped ← eligibleRules.mapM fun rule => do
    let chunk ← orRaise (eligible.get? rule.policyId) (.keyError rule.policyId)
    pure (mappedMatch alwaysIds factIds rule chunk)
  let mappedIds := mapped.map (·.chunk.policyId)
  let found ← index.search lower query jurisdiction asOfDate 20
  let contextual := (found.filter fun item => !mappedIds.contains item.1.policyId).map contextualMatch
  pure (mapped ++ contextual.take (limit - mapped.length).toNat)

end PolicyIndex

section Specification

/-- An excerpt that may be returned: approved, of an allowed jurisdiction, and in force on the
date. -/
def PolicyChunk.InForce (jurisdiction : String) (asOfDate : Date) (chunk : PolicyChunk) : Prop :=
  chunk.approved = true ∧
    (chunk.jurisdiction = jurisdiction ∨ chunk.jurisdiction = "EU" ∨ chunk.jurisdiction = "INTL") ∧
    (∀ day ∈ chunk.effectiveFrom, day ≤ asOfDate) ∧ ∀ day ∈ chunk.effectiveTo, asOfDate ≤ day

instance (jurisdiction : String) (asOfDate : Date) (chunk : PolicyChunk) :
    Decidable (chunk.InForce jurisdiction asOfDate) := by
  unfold PolicyChunk.InForce
  infer_instance

/-- A fact is among the given ones. -/
def Given (facts : List PolicyApplicabilityFact) (factId : String) : Prop :=
  ∃ fact ∈ facts, fact.factId = factId

instance (facts : List PolicyApplicabilityFact) (factId : String) : Decidable (Given facts factId) :=
  inferInstanceAs (Decidable (∃ fact ∈ facts, _))

/-- The conditions of a rule hold of the given facts. -/
def MappedPolicyRule.Applies (facts : List PolicyApplicabilityFact) (rule : MappedPolicyRule) : Prop :=
  (∀ factId ∈ rule.whenAll, Given facts factId) ∧
    (rule.whenAny = [] ∨ ∃ factId ∈ rule.whenAny, Given facts factId)

instance (facts : List PolicyApplicabilityFact) (rule : MappedPolicyRule) :
    Decidable (rule.Applies facts) := by
  unfold MappedPolicyRule.Applies
  infer_instance

variable (chunks : List PolicyChunk) (jurisdiction : String) (asOfDate : Date)
  (facts : List PolicyApplicabilityFact)

/-- The match of a rule whose policy is in force, with those of its conditions that are given. -/
def ruleMatch (reason : PolicyRetrievalReason) (rule : MappedPolicyRule) : Option PolicyMatch :=
  (chunks.find? fun chunk => chunk.policyId = rule.policyId ∧ chunk.InForce jurisdiction asOfDate).map
    fun chunk =>
      { chunk
        score := 1
        reason
        stage := some rule.stage
        matchedFactIds := (rule.whenAll ++ rule.whenAny).filter fun factId => Given facts factId
        explanation := rule.rationale }

/-- The mapped policies that are to be returned: those that always apply, and then those whose
conditions hold, each in the order of the mapping. -/
def mappedPolicies (mapping : AlertPolicyMapping) : List PolicyMatch :=
  mapping.alwaysPolicyRules.filterMap (ruleMatch chunks jurisdiction asOfDate facts .alertMapping) ++
    (mapping.conditionalPolicyRules.filter fun rule => rule.Applies facts).filterMap
      (ruleMatch chunks jurisdiction asOfDate facts .conditionalMapping)

/-- The other excerpts in force that share a word with the query, with their scores. -/
def remainingPolicies (lower : String → String) (query : String) (mapped : List PolicyMatch) :
    List (PolicyChunk × ℚ) :=
  (chunks.filter fun chunk => chunk.InForce jurisdiction asOfDate ∧ 0 < chunk.score lower query ∧
    ∀ item ∈ mapped, item.chunk.policyId ≠ chunk.policyId).map
      fun chunk => (chunk, chunk.score lower query)

/-- The policies that are to be returned: the mapped ones, and as many of the others as the limit
leaves room for, the best first. -/
def alertPolicies (lower : String → String) (query : String) (mapping : AlertPolicyMapping)
    (limit : ℤ) : List PolicyMatch :=
  let mapped := mappedPolicies chunks jurisdiction asOfDate facts mapping
  mapped ++ ((sortedBy rankKey (remainingPolicies chunks jurisdiction asOfDate lower query mapped)).take
    (limit - mapped.length).toNat).map PolicyIndex.contextualMatch

end Specification

section Rules

variable {jurisdiction : String} {asOfDate : Date} {chunks : List PolicyChunk}
  {facts : List PolicyApplicabilityFact}

/-- The filter of the searches is what an excerpt in force means. -/
theorem eligible_iff {chunk : PolicyChunk} :
    chunk.eligible jurisdiction asOfDate = true ↔ chunk.InForce jurisdiction asOfDate := by
  simp [PolicyChunk.eligible, PolicyChunk.InForce, Option.all_eq_true, and_assoc]

/-- The test of a rule is what its conditions mean. -/
theorem applies_iff {rule : MappedPolicyRule} :
    rule.applies (facts.map (·.factId)) = true ↔ rule.Applies facts := by
  simp [MappedPolicyRule.applies, MappedPolicyRule.Applies, Given]

/-- A score is not negative. -/
theorem score_nonneg (lower : String → String) (query : String) (chunk : PolicyChunk) :
    0 ≤ chunk.score lower query := div_nonneg (Nat.cast_nonneg _) (Nat.cast_nonneg _)

/-- The dictionary of the eligible excerpts reads the one in force with the ID. -/
theorem get?_eligible (hunique : (chunks.map (·.policyId)).Nodup) (policyId : String) :
    (Dict.empty.update ((chunks.filter (·.eligible jurisdiction asOfDate)).map fun chunk =>
        (chunk.policyId, chunk))).get? policyId =
      chunks.find? fun chunk => chunk.policyId = policyId ∧ chunk.InForce jurisdiction asOfDate := by
  rw [Dict.get?_ofEntries]
  · rw [List.find?_map, List.find?_filter, Option.map_map]
    simp only [Function.comp_def, Option.map_id']
    congr 1
    funext chunk
    have heligible : chunk.eligible jurisdiction asOfDate = true ↔
      chunk.InForce jurisdiction asOfDate := eligible_iff
    simp [← heligible, Bool.and_comm]
  · rw [List.map_map]
    exact hunique.sublist (List.filter_sublist.map _)

/-- The rules whose policies are found are matched one by one, without an exception. -/
theorem mapM_found {eligible : Dict String PolicyChunk} (build : MappedPolicyRule → PolicyChunk → PolicyMatch)
    (rules : List MappedPolicyRule) :
    ((rules.filter fun rule => eligible.contains rule.policyId).mapM fun rule => do
        let chunk ← orRaise (eligible.get? rule.policyId) (.keyError rule.policyId)
        pure (build rule chunk)) =
      .ok (rules.filterMap fun rule => (eligible.get? rule.policyId).map (build rule)) := by
  induction rules with
  | nil => rfl
  | cons rule rest ih =>
    cases hfound : eligible.get? rule.policyId with
    | none =>
      rw [List.filter_cons_of_neg (by simp [Dict.contains, hfound]),
        List.filterMap_cons_none (by simp [hfound]), ih]
    | some chunk =>
      rw [List.filter_cons_of_pos (by simp [Dict.contains, hfound]),
        List.filterMap_cons_some (by rw [hfound]; rfl), List.mapM_cons, hfound, ih]
      rfl

/-- A rule is matched with the excerpt that has its policy ID. -/
theorem policyId_of_ruleMatch {reason : PolicyRetrievalReason} {rule : MappedPolicyRule}
    {found : PolicyMatch} (h : ruleMatch chunks jurisdiction asOfDate facts reason rule = some found) :
    found.chunk ∈ chunks ∧ found.chunk.policyId = rule.policyId ∧
      found.chunk.InForce jurisdiction asOfDate := by
  obtain ⟨chunk, hchunk, rfl⟩ := Option.map_eq_some_iff.mp h
  have hfound := List.find?_some hchunk
  rw [decide_eq_true_eq] at hfound
  exact ⟨List.mem_of_find?_eq_some hchunk, hfound.1, hfound.2⟩

/-- The policy IDs of matched rules are among those of the rules, in their order. -/
theorem policyIds_sublist {reason : PolicyRetrievalReason} (rules : List MappedPolicyRule) :
    ((rules.filterMap (ruleMatch chunks jurisdiction asOfDate facts reason)).map
      (·.chunk.policyId)).Sublist (rules.map (·.policyId)) := by
  induction rules with
  | nil => exact .slnil
  | cons rule rest ih =>
    cases hfound : ruleMatch chunks jurisdiction asOfDate facts reason rule with
    | none =>
      rw [List.filterMap_cons_none hfound]
      exact ih.cons _
    | some found =>
      rw [List.filterMap_cons_some hfound, List.map_cons, List.map_cons,
        (policyId_of_ruleMatch hfound).2.1]
      exact ih.cons_cons _

/-- No policy is mapped twice. -/
theorem nodup_mappedPolicies (mapping : AlertPolicyMapping) :
    ((mappedPolicies chunks jurisdiction asOfDate facts mapping).map (·.chunk.policyId)).Nodup := by
  have hids : ((mappedPolicies chunks jurisdiction asOfDate facts mapping).map
      (·.chunk.policyId)).Sublist
        ((mapping.alwaysPolicyRules ++ mapping.conditionalPolicyRules).map (·.policyId)) := by
    rw [mappedPolicies, List.map_append, List.map_append]
    apply List.Sublist.append
    · exact policyIds_sublist _
    · exact (policyIds_sublist _).trans (List.filter_sublist.map _)
  exact mapping.policyIds_unique.sublist hids

/-- A mapped policy is in force, and the facts it is matched by are given. -/
theorem mem_mappedPolicies {mapping : AlertPolicyMapping} {found : PolicyMatch}
    (h : found ∈ mappedPolicies chunks jurisdiction asOfDate facts mapping) :
    found.chunk ∈ chunks ∧ found.chunk.InForce jurisdiction asOfDate ∧
      ∀ factId ∈ found.matchedFactIds, Given facts factId := by
  have hmatched {reason : PolicyRetrievalReason} {rule : MappedPolicyRule}
      (hrule : ruleMatch chunks jurisdiction asOfDate facts reason rule = some found) :
      found.chunk ∈ chunks ∧ found.chunk.InForce jurisdiction asOfDate ∧
        ∀ factId ∈ found.matchedFactIds, Given facts factId := by
    obtain ⟨hmem, -, hforce⟩ := policyId_of_ruleMatch hrule
    obtain ⟨chunk, -, rfl⟩ := Option.map_eq_some_iff.mp hrule
    exact ⟨hmem, hforce, fun factId hfact => of_decide_eq_true (List.mem_filter.mp hfact).2⟩
  rcases List.mem_append.mp h with halways | hconditional
  · obtain ⟨rule, -, hrule⟩ := List.mem_filterMap.mp halways
    exact hmatched hrule
  · obtain ⟨rule, -, hrule⟩ := List.mem_filterMap.mp hconditional
    exact hmatched hrule

/-- The rules of a loaded mapping: none that always applies has a condition. -/
structure Loaded (mapping : AlertPolicyMapping) : Prop where
  always : ∀ rule ∈ mapping.alwaysPolicyRules, rule.whenAll = [] ∧ rule.whenAny = []

/-- What `search_for_alert` makes of the selected rules are the mapped policies. -/
theorem matched_eq (jurisdiction : String) (asOfDate : Date) (facts : List PolicyApplicabilityFact)
    (hunique : (chunks.map (·.policyId)).Nodup) {mapping : AlertPolicyMapping}
    (hloaded : Loaded mapping) :
    ((mapping.alwaysPolicyRules ++ mapping.conditionalPolicyRules.filter
        (·.applies (facts.map (·.factId)))).filterMap fun rule =>
      ((Dict.empty.update ((chunks.filter (·.eligible jurisdiction asOfDate)).map fun chunk =>
        (chunk.policyId, chunk))).get? rule.policyId).map
          (PolicyIndex.mappedMatch (mapping.alwaysPolicyRules.map (·.policyId))
            (facts.map (·.factId)) rule)) =
      mappedPolicies chunks jurisdiction asOfDate facts mapping := by
  have hgiven : (facts.map (·.factId)).contains = fun factId => decide (Given facts factId) := by
    funext factId
    rw [Bool.eq_iff_iff, List.contains_iff_mem, decide_eq_true_eq]
    exact List.mem_map
  rw [List.filterMap_append, mappedPolicies]
  congr 1
  · apply List.filterMap_congr
    intro rule hrule
    obtain ⟨hall, hany⟩ := hloaded.always rule hrule
    rw [get?_eligible hunique, ruleMatch]
    congr 1
    funext chunk
    have halways : (mapping.alwaysPolicyRules.map (·.policyId)).contains rule.policyId = true :=
      List.contains_iff_mem.mpr (List.mem_map_of_mem hrule)
    simp only [PolicyIndex.mappedMatch, halways, hall, hany]
    rfl
  · have hrules : mapping.conditionalPolicyRules.filter (·.applies (facts.map (·.factId))) =
        mapping.conditionalPolicyRules.filter fun rule => rule.Applies facts := by
      congr 1
      funext rule
      rw [Bool.eq_iff_iff, applies_iff, decide_eq_true_eq]
    rw [hrules]
    apply List.filterMap_congr
    intro rule hrule
    obtain ⟨hmem, happlies⟩ := List.mem_filter.mp hrule
    have happlies := of_decide_eq_true happlies
    rw [get?_eligible hunique, ruleMatch]
    congr 1
    funext chunk
    have hother : (mapping.alwaysPolicyRules.map (·.policyId)).contains rule.policyId = false := by
      have hdistinct := mapping.policyIds_unique
      rw [List.map_append, List.nodup_append] at hdistinct
      rw [Bool.eq_false_iff, Ne, List.contains_iff_mem]
      exact fun hin => hdistinct.2.2 _ hin _ (List.mem_map_of_mem hmem) rfl
    have hall : rule.whenAll.filter (fun factId => decide (Given facts factId)) = rule.whenAll :=
      List.filter_eq_self.mpr fun factId hfact => decide_eq_true (happlies.1 factId hfact)
    simp only [PolicyIndex.mappedMatch, hother, List.filter_append, hall, hgiven]
    rfl

/-- As many rules are matched as policies are found. -/
theorem length_eligibleRules {eligible : Dict String PolicyChunk}
    (build : MappedPolicyRule → PolicyChunk → PolicyMatch) (rules : List MappedPolicyRule) :
    (rules.filter fun rule => eligible.contains rule.policyId).length =
      (rules.filterMap fun rule => (eligible.get? rule.policyId).map (build rule)).length := by
  have hmatched := mapM_eq_ok.mp (@mapM_found eligible build rules)
  exact hmatched.length_eq

end Rules

section Context

variable {lower : String → String} {query jurisdiction : String} {asOfDate : Date}
  {chunks : List PolicyChunk} {mapped : List PolicyMatch}

/-- The excerpts in force that share a word with the query, with their scores. -/
def scoredPolicies (lower : String → String) (query jurisdiction : String) (asOfDate : Date)
    (chunks : List PolicyChunk) : List (PolicyChunk × ℚ) :=
  ((chunks.filter (·.eligible jurisdiction asOfDate)).map fun chunk =>
    (chunk, chunk.score lower query)).filter (·.2 ≠ 0)

/-- No two scored excerpts have one policy ID. -/
theorem nodup_scoredPolicies (hunique : (chunks.map (·.policyId)).Nodup) :
    ((scoredPolicies lower query jurisdiction asOfDate chunks).map (·.1.policyId)).Nodup := by
  have hsublist : ((scoredPolicies lower query jurisdiction asOfDate chunks).map (·.1.policyId)).Sublist
      (chunks.map (·.policyId)) := by
    have hscored : (scoredPolicies lower query jurisdiction asOfDate chunks).Sublist
        (chunks.map fun chunk => (chunk, chunk.score lower query)) :=
      List.filter_sublist.trans (List.filter_sublist.map _)
    have hids := hscored.map (·.1.policyId)
    rwa [List.map_map] at hids
  exact hunique.sublist hsublist

/-- What is left of the scored excerpts without the mapped ones. -/
theorem filter_scoredPolicies :
    ((scoredPolicies lower query jurisdiction asOfDate chunks).filter fun item =>
        !(mapped.map (·.chunk.policyId)).contains item.1.policyId) =
      remainingPolicies chunks jurisdiction asOfDate lower query mapped := by
  rw [scoredPolicies, remainingPolicies, List.filter_filter, List.filter_map, List.filter_filter]
  congr 2
  funext chunk
  have hscore : chunk.score lower query ≠ 0 ↔ 0 < chunk.score lower query :=
    (score_nonneg lower query chunk).lt_iff_ne'.symm
  rw [Bool.eq_iff_iff]
  simp [hscore, eligible_iff]
  tauto

/-- Cutting the ranking to twenty before the mapped policies are dropped loses none of those that
the limit leaves room for. -/
theorem take_contextual (hunique : (chunks.map (·.policyId)).Nodup) {limit : ℤ} (hlimit : limit ≤ 20)
    (hroom : (mapped.length : ℤ) ≤ limit) :
    (((sortedBy rankKey (scoredPolicies lower query jurisdiction asOfDate chunks)).take 20).filter
        fun item => !(mapped.map (·.chunk.policyId)).contains item.1.policyId).take
          (limit - mapped.length).toNat =
      (sortedBy rankKey (remainingPolicies chunks jurisdiction asOfDate lower query mapped)).take
        (limit - mapped.length).toNat := by
  rw [← filter_scoredPolicies, ← filter_sortedBy]
  apply take_filter_take (m := mapped.length)
  · generalize hfirst : (sortedBy rankKey
      (scoredPolicies lower query jurisdiction asOfDate chunks)).take 20 = first
    have hnodup : (first.map (·.1.policyId)).Nodup := by
      rw [← hfirst]
      have hperm : ((sortedBy rankKey (scoredPolicies lower query jurisdiction asOfDate chunks)).map
        (·.1.policyId)).Perm _ := sortedBy_perm.map _
      exact (hperm.nodup_iff.mpr (nodup_scoredPolicies hunique)).sublist
        ((List.take_sublist _ _).map _)
    have hsubset : ((first.filter fun item =>
        !(!(mapped.map (·.chunk.policyId)).contains item.1.policyId)).map (·.1.policyId)) ⊆
          mapped.map (·.chunk.policyId) := by
      intro policyId hmem
      obtain ⟨item, hitem, rfl⟩ := List.mem_map.mp hmem
      have hin := (List.mem_filter.mp hitem).2
      rwa [Bool.not_not, List.contains_iff_mem] at hin
    have hkept := hnodup.sublist ((List.filter_sublist (l := first) (p := fun item =>
      !(!(mapped.map (·.chunk.policyId)).contains item.1.policyId))).map (·.1.policyId))
    have hcount := (List.subperm_of_subset hkept hsubset).length_le
    rwa [List.length_map, List.length_map] at hcount
  · omega

/-- The other policies are in force, and none of them is mapped. -/
theorem mem_remainingPolicies {item : PolicyChunk × ℚ}
    (h : item ∈ remainingPolicies chunks jurisdiction asOfDate lower query mapped) :
    item.1 ∈ chunks ∧ item.1.InForce jurisdiction asOfDate ∧
      ∀ found ∈ mapped, found.chunk.policyId ≠ item.1.policyId := by
  obtain ⟨chunk, hchunk, rfl⟩ := List.mem_map.mp h
  obtain ⟨hmem, htest⟩ := List.mem_filter.mp hchunk
  have hkept := of_decide_eq_true htest
  exact ⟨hmem, hkept.1, hkept.2.2⟩

/-- No two of the other policies have one ID. -/
theorem nodup_remainingPolicies (hunique : (chunks.map (·.policyId)).Nodup) :
    ((remainingPolicies chunks jurisdiction asOfDate lower query mapped).map (·.1.policyId)).Nodup := by
  rw [← filter_scoredPolicies]
  exact (nodup_scoredPolicies hunique).sublist (List.filter_sublist.map _)

end Context

section Exactness

variable {lower : String → String} {query jurisdiction alertRuleId : String} {asOfDate : Date}
  {chunks : List PolicyChunk} {mappings : List AlertPolicyMapping} {index : PolicyIndex}
  {facts : List PolicyApplicabilityFact} {limit : ℤ}

/-- Mappings whose conditions are checked have no condition on a rule that always applies. -/
theorem loaded_of_forM {u : Unit} (h : mappings.forM checkConditions = .ok u) :
    ∀ mapping ∈ mappings, Loaded mapping := by
  induction mappings with
  | nil => exact fun _ hmem => by cases hmem
  | cons mapping rest ih =>
    change (checkConditions mapping >>= fun _ => rest.forM checkConditions) = _ at h
    obtain ⟨_, hmapping, hrest⟩ := bind_eq_ok.mp h
    obtain ⟨_, halways, -⟩ := bind_eq_ok.mp hmapping
    intro other hother
    rcases List.mem_cons.mp hother with rfl | hother
    · rw [raiseIf_eq_ok] at halways
      constructor
      intro rule hrule
      by_contra hcondition
      rw [not_and_or] at hcondition
      exact halways ⟨rule, hrule, hcondition⟩
    · exact ih hrest other hother

/-- Loaded mappings are of distinct alert rules, and their rules are conditioned as they must be. -/
theorem loaded_of_load (hload : loadAlertPolicyMappings chunks mappings = .ok mappings) :
    (mappings.map (·.alertRuleId)).Nodup ∧ ∀ mapping ∈ mappings, Loaded mapping := by
  obtain ⟨_, hduplicates, h⟩ := bind_eq_ok.mp hload
  obtain ⟨_, -, h⟩ := bind_eq_ok.mp h
  obtain ⟨_, -, h⟩ := bind_eq_ok.mp h
  obtain ⟨_, -, h⟩ := bind_eq_ok.mp h
  obtain ⟨_, hconditions, -⟩ := bind_eq_ok.mp h
  constructor
  · rw [raiseIf_eq_ok, not_ne_iff, sortedSet_eq_nil, List.filter_eq_nil_iff] at hduplicates
    rw [List.nodup_iff_count_le_one]
    intro ruleId
    by_cases hmem : ruleId ∈ mappings.map (·.alertRuleId)
    · have hcount := hduplicates ruleId hmem
      rw [decide_eq_true_eq] at hcount
      omega
    · rw [List.count_eq_zero.mpr hmem]
      omega
  · exact fun mapping => loaded_of_forM hconditions mapping

/-- What the index holds. -/
theorem init_eq_ok (hindex : PolicyIndex.init chunks mappings = .ok index) :
    index = ⟨chunks, Dict.empty.update (mappings.map fun item => (item.alertRuleId, item))⟩ := by
  obtain ⟨_, -, h⟩ := bind_eq_ok.mp hindex
  obtain ⟨_, -, h⟩ := bind_eq_ok.mp h
  cases h
  rfl

/-- The mapping of an alert rule in the index. -/
theorem get?_alertMappings (alertRuleId : String)
    (hdistinct : (mappings.map (·.alertRuleId)).Nodup)
    (hindex : PolicyIndex.init chunks mappings = .ok index) :
    index.alertMappings.get? alertRuleId =
      mappings.find? fun mapping => mapping.alertRuleId = alertRuleId := by
  rw [init_eq_ok hindex, Dict.get?_ofEntries]
  · rw [List.find?_map, Option.map_map]
    simp [Function.comp_def]
  · rwa [List.map_map]

/-- The keyword search with the limit of twenty. -/
theorem search_twenty : index.search lower query jurisdiction asOfDate 20 =
    .ok ((sortedBy rankKey (scoredPolicies lower query jurisdiction asOfDate index.chunks)).take 20) :=
  rfl

/-- `search_for_alert` on the mapping of a rule: it raises when the limit is too small for the
mapped policies, and otherwise returns the policies that are to be returned. -/
theorem searchForAlert_eq (lower : String → String) (query jurisdiction : String) (asOfDate : Date)
    (facts : List PolicyApplicabilityFact) (hunique : (chunks.map (·.policyId)).Nodup)
    {mapping : AlertPolicyMapping} (hloaded : Loaded mapping) (hchunks : index.chunks = chunks)
    (hmapping : index.alertMappings.get? alertRuleId = some mapping) (hlimit : 1 ≤ limit ∧ limit ≤ 20) :
    if limit < (mappedPolicies chunks jurisdiction asOfDate facts mapping).length then
      ∃ e, index.searchForAlert lower query jurisdiction asOfDate alertRuleId facts limit = .error e
    else
      index.searchForAlert lower query jurisdiction asOfDate alertRuleId facts limit =
        .ok (alertPolicies chunks jurisdiction asOfDate facts lower query mapping limit) := by
  have hmatched := matched_eq jurisdiction asOfDate facts hunique hloaded
  unfold PolicyIndex.searchForAlert
  rw [raiseIf, if_neg (not_not_intro hlimit), ok_bind, hmapping, orRaise, ok_bind, hchunks]
  dsimp only
  rw [length_eligibleRules (PolicyIndex.mappedMatch (mapping.alwaysPolicyRules.map (·.policyId))
    (facts.map (·.factId))), hmatched]
  split
  · rename_i hsmall
    rw [raiseIf, if_pos hsmall, error_bind]
    exact ⟨_, rfl⟩
  · rename_i hroom
    rw [raiseIf, if_neg hroom, ok_bind, mapM_found, ok_bind, hmatched, search_twenty, ok_bind, hchunks,
      ← List.map_take, take_contextual hunique hlimit.2 (not_lt.mp hroom)]
    rfl

/-- A limit out of range is refused. -/
theorem searchForAlert_outOfRange (hlimit : ¬(1 ≤ limit ∧ limit ≤ 20)) :
    index.searchForAlert lower query jurisdiction asOfDate alertRuleId facts limit =
      .error limitError := by
  unfold PolicyIndex.searchForAlert
  rw [raiseIf, if_pos hlimit]
  rfl

/-- A rule without a mapping is refused. -/
theorem searchForAlert_noMapping (hlimit : 1 ≤ limit ∧ limit ≤ 20)
    (hmapping : index.alertMappings.get? alertRuleId = none) :
    index.searchForAlert lower query jurisdiction asOfDate alertRuleId facts limit =
      .error (.valueError ("no policy mapping for alert rule " ++ alertRuleId)) := by
  unfold PolicyIndex.searchForAlert
  rw [raiseIf, if_neg (not_not_intro hlimit), ok_bind, hmapping]
  rfl

/-- No policy ID occurs twice among the policies that are to be returned. -/
theorem nodup_alertPolicies (hunique : (chunks.map (·.policyId)).Nodup) (mapping : AlertPolicyMapping) :
    ((alertPolicies chunks jurisdiction asOfDate facts lower query mapping limit).map
      (·.chunk.policyId)).Nodup := by
  unfold alertPolicies
  generalize hmapped : mappedPolicies chunks jurisdiction asOfDate facts mapping = mapped
  dsimp only
  rw [List.map_append, List.map_map]
  apply List.nodup_append.mpr
  refine ⟨hmapped ▸ nodup_mappedPolicies mapping, ?_, ?_⟩
  · have hperm : ((sortedBy rankKey (remainingPolicies chunks jurisdiction asOfDate lower query
      mapped)).map (·.1.policyId)).Perm _ := sortedBy_perm.map _
    exact (hperm.nodup_iff.mpr (nodup_remainingPolicies hunique)).sublist
      ((List.take_sublist _ _).map _)
  · intro policyId hmem otherId hother
    obtain ⟨found, hfound, rfl⟩ := List.mem_map.mp hmem
    obtain ⟨item, hitem, rfl⟩ := List.mem_map.mp hother
    exact (mem_remainingPolicies (mem_sortedBy.mp (List.mem_of_mem_take hitem))).2.2 found hfound

/-- Every policy that is to be returned is an excerpt in force, and is matched by given facts. -/
theorem mem_alertPolicies {mapping : AlertPolicyMapping} {found : PolicyMatch}
    (h : found ∈ alertPolicies chunks jurisdiction asOfDate facts lower query mapping limit) :
    found.chunk ∈ chunks ∧ found.chunk.InForce jurisdiction asOfDate ∧
      ∀ factId ∈ found.matchedFactIds, Given facts factId := by
  rcases List.mem_append.mp h with hmapped | hcontextual
  · exact mem_mappedPolicies hmapped
  · obtain ⟨item, hitem, rfl⟩ := List.mem_map.mp hcontextual
    have hremaining := mem_remainingPolicies (mem_sortedBy.mp (List.mem_of_mem_take hitem))
    exact ⟨hremaining.1, hremaining.2.1, fun _ hfact => by cases hfact⟩

/-- On an index of distinct policies with loaded mappings, `search_for_alert` raises exactly when the
limit is out of range, the rule has no mapping, or more mapped policies apply than the limit allows.
Otherwise it returns the mapped policies that apply and then the best of the others, as a plain
ranking of all of them gives it; every one of them once, in force, and matched by given facts. -/
theorem searchForAlert_exact (lower : String → String) (chunks : List PolicyChunk)
    (mappings : List AlertPolicyMapping) (index : PolicyIndex)
    (hunique : (chunks.map (·.policyId)).Nodup)
    (hload : loadAlertPolicyMappings chunks mappings = .ok mappings)
    (hindex : PolicyIndex.init chunks mappings = .ok index) (query jurisdiction alertRuleId : String)
    (asOfDate : Date) (facts : List PolicyApplicabilityFact) (limit : ℤ) :
    ((∃ e, index.searchForAlert lower query jurisdiction asOfDate alertRuleId facts limit = .error e) ↔
      ¬(1 ≤ limit ∧ limit ≤ 20) ∨ (∀ mapping ∈ mappings, mapping.alertRuleId ≠ alertRuleId) ∨
      ∃ mapping ∈ mappings, mapping.alertRuleId = alertRuleId ∧
        limit < (mappedPolicies chunks jurisdiction asOfDate facts mapping).length) ∧
    ∀ result, index.searchForAlert lower query jurisdiction asOfDate alertRuleId facts limit = .ok result →
      (∃ mapping ∈ mappings, mapping.alertRuleId = alertRuleId ∧
        result = alertPolicies chunks jurisdiction asOfDate facts lower query mapping limit) ∧
      (result.map (·.chunk.policyId)).Nodup ∧
      ∀ found ∈ result, found.chunk ∈ chunks ∧ found.chunk.InForce jurisdiction asOfDate ∧
        ∀ factId ∈ found.matchedFactIds, Given facts factId := by
  obtain ⟨hdistinct, hloaded⟩ := loaded_of_load hload
  have hchunks : index.chunks = chunks := congrArg PolicyIndex.chunks (init_eq_ok hindex)
  have hget := get?_alertMappings alertRuleId hdistinct hindex
  by_cases hlimit : 1 ≤ limit ∧ limit ≤ 20
  · cases hfind : mappings.find? fun mapping => mapping.alertRuleId = alertRuleId with
    | none =>
      have hnone (mapping : AlertPolicyMapping) (hmem : mapping ∈ mappings) :
          mapping.alertRuleId ≠ alertRuleId := by
        have hother := List.find?_eq_none.mp hfind mapping hmem
        rwa [decide_eq_true_eq] at hother
      have hraise : index.searchForAlert lower query jurisdiction asOfDate alertRuleId facts limit =
          .error (.valueError ("no policy mapping for alert rule " ++ alertRuleId)) :=
        searchForAlert_noMapping hlimit (hget.trans hfind)
      refine ⟨⟨fun _ => .inr (.inl hnone), fun _ => ⟨_, hraise⟩⟩, fun result hresult => ?_⟩
      rw [hraise] at hresult
      cases hresult
    | some mapping =>
      have hmem : mapping ∈ mappings := List.mem_of_find?_eq_some hfind
      have hrule : mapping.alertRuleId = alertRuleId := by
        have hfound := List.find?_some hfind
        rwa [decide_eq_true_eq] at hfound
      have hunfold := searchForAlert_eq lower query jurisdiction asOfDate facts hunique
        (hloaded mapping hmem) hchunks (hget.trans hfind) hlimit
      have honly (other : AlertPolicyMapping) (hother : other ∈ mappings)
          (hid : other.alertRuleId = alertRuleId) : other = mapping :=
        List.inj_on_of_nodup_map hdistinct hother hmem (hid.trans hrule.symm)
      split at hunfold
      · rename_i hsmall
        obtain ⟨e, hraise⟩ := hunfold
        refine ⟨⟨fun _ => .inr (.inr ⟨mapping, hmem, hrule, hsmall⟩), fun _ => ⟨e, hraise⟩⟩,
          fun result hresult => ?_⟩
        rw [hraise] at hresult
        cases hresult
      · rename_i hroom
        constructor
        · constructor
          · rintro ⟨e, hraise⟩
            rw [hunfold] at hraise
            cases hraise
          · rintro (hrange | hnone | ⟨other, hother, hid, hsmall⟩)
            · exact absurd hlimit hrange
            · exact absurd hrule (hnone mapping hmem)
            · rw [honly other hother hid] at hsmall
              exact absurd hsmall hroom
        · intro result hresult
          rw [hunfold] at hresult
          cases hresult
          exact ⟨⟨mapping, hmem, hrule, rfl⟩, nodup_alertPolicies hunique mapping,
            fun found hfound => mem_alertPolicies hfound⟩
  · have hraise : index.searchForAlert lower query jurisdiction asOfDate alertRuleId facts limit =
        .error limitError := searchForAlert_outOfRange hlimit
    refine ⟨⟨fun _ => .inl hlimit, fun _ => ⟨_, hraise⟩⟩, fun result hresult => ?_⟩
    rw [hraise] at hresult
    cases hresult

end Exactness

/-- An excerpt that is always in force. -/
def sampleChunk (policyId text : String) : PolicyChunk where
  policyId := policyId
  provision := "provision"
  text := text
  topics := []
  jurisdiction := "EU"
  effectiveFrom := none
  effectiveTo := none
  approved := true

/-- A rule that always applies. -/
def sampleRule : MappedPolicyRule where
  policyId := "P-1"
  stage := .initialAnalysis
  rationale := "first"
  whenAll := []
  whenAny := []
  rationale_length := by decide
  conditions_unique := List.nodup_nil

/-- A mapping to the first of two excerpts. -/
def sampleMapping : AlertPolicyMapping where
  alertRuleId := "RAPID_FUNDS_MOVEMENT"
  alwaysPolicyRules := [sampleRule]
  conditionalPolicyRules := []
  reviewStatus := .researcherCurated
  always_nonempty := by decide
  policyIds_unique := by decide

/-- The mapping passes the checks of the loader. -/
theorem load_sampleMapping : loadAlertPolicyMappings
    [sampleChunk "P-1" "one", sampleChunk "P-2" "two"] [sampleMapping] = .ok [sampleMapping] := by
  simp [loadAlertPolicyMappings, unknownPolicyIds, raiseIf, AlertPolicyMapping.rules, sampleMapping,
    sampleRule, sampleChunk, sortedBy]
  rfl

/-- The mapped excerpt of a rule, and another, are found with a limit of two. -/
theorem searchForAlert_exact_sample :
    ∃ index result, PolicyIndex.init [sampleChunk "P-1" "one", sampleChunk "P-2" "two"]
        [sampleMapping] = .ok index ∧
      index.searchForAlert id "two" "FR" 0 "RAPID_FUNDS_MOVEMENT" [] 2 = .ok result ∧
      (∃ mapping ∈ [sampleMapping], mapping.alertRuleId = "RAPID_FUNDS_MOVEMENT" ∧
        result = alertPolicies [sampleChunk "P-1" "one", sampleChunk "P-2" "two"] "FR" 0 [] id "two"
          mapping 2) ∧
      (result.map (·.chunk.policyId)).Nodup := by
  obtain ⟨hraises, hresult⟩ := searchForAlert_exact id
    [sampleChunk "P-1" "one", sampleChunk "P-2" "two"] [sampleMapping] _ (by decide)
    load_sampleMapping rfl "two" "FR" "RAPID_FUNDS_MOVEMENT" 0 [] 2
  cases hfound : PolicyIndex.searchForAlert id
      ⟨_, Dict.empty.update ([sampleMapping].map fun item => (item.alertRuleId, item))⟩ "two" "FR" 0
      "RAPID_FUNDS_MOVEMENT" [] 2 with
  | ok result =>
    obtain ⟨hexact, hnodup, -⟩ := hresult result hfound
    exact ⟨_, result, rfl, hfound, hexact, hnodup⟩
  | error e =>
    rcases hraises.mp ⟨e, hfound⟩ with hrange | hnone | ⟨mapping, hmem, -, hsmall⟩
    · exact absurd (by decide) hrange
    · exact absurd rfl (hnone sampleMapping List.mem_cons_self)
    · obtain rfl := List.mem_singleton.mp hmem
      exact absurd hsmall (by decide)

end Amlguard.Policy
