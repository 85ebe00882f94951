import Amlguard.Investigations.Domain
import Amlguard.Domain.PyValue
import Amlguard.Library.Dict

/-!
# Policy applicability facts

`derive_policy_applicability_facts`: the facts that the evidence of a case supports, after the
supplemental information of all its submissions has been merged, the later over the earlier.

What `str`, `str.lower` and `Decimal` make of the texts and numbers of the evidence is left open,
except that `str` of a number is not blank.
-/

namespace Amlguard

/-- A decimal that a text may denote. -/
inductive PyDecimal where
  | finite (value : ℚ)
  | infinity (negative : Bool)
  | nan

/-- `a > b`. -/
def PyDecimal.greater : PyDecimal → PyDecimal → Except PyError Bool
  | .nan, _ | _, .nan => .error invalidOperation
  | .finite a, .finite b => .ok (b < a)
  | .infinity a, .finite _ => .ok (!a)
  | .finite _, .infinity b => .ok b
  | .infinity a, .infinity b => .ok (!a && b)

/-- The built-in functions on texts and numbers. -/
structure PyBuiltins where
  number : ℚ → String
  lower : String → String
  decimal : String → Option PyDecimal
  number_visible : ∀ q, ¬Blank (number q)

/-- `str(value)`. -/
def PyBuiltins.str (py : PyBuiltins) (value : Json) : String := (PyValue.ofJson py.number value).text

/-- The items that a loop over a value visits. -/
def PyBuiltins.items : Json → Except PyError (List Json)
  | .array items => .ok items
  | .object fields => .ok (fields.map fun field => .string field.1)
  | .string value => .ok (value.toList.map fun c => .string (String.singleton c))
  | .null | .bool _ | .number _ =>
    .error { typeName := "TypeError", message := "object is not iterable" }

/-- `next` of an iterator without items. -/
def stopIteration : PyError := { typeName := "StopIteration" }

/-- The fields of the content of an item. -/
def EvidenceItem.fields (item : EvidenceItem) : List (String × Json) :=
  match item.content with
  | .object fields => fields
  | _ => []

/-- `item.content.get(key)`. -/
def EvidenceItem.field (item : EvidenceItem) (key : String) : Option Json :=
  (item.fields.find? fun field => field.1 = key).map (·.2)

/-- `key in item.content`. -/
def EvidenceItem.has (item : EvidenceItem) (key : String) : Bool := (item.field key).isSome

/-- `str(item.content.get(key, ""))`. -/
def EvidenceItem.textOf (py : PyBuiltins) (item : EvidenceItem) (key : String) : String :=
  py.str ((item.field key).getD (.string ""))

/-- The entries that a supplemental item adds: those of its information when it is an object. -/
def EvidenceItem.information (item : EvidenceItem) : List (String × Json) :=
  match item.field "information" with
  | some (.object fields) => fields
  | _ => []

/-- A fact, and the evidence for it. -/
structure PolicyApplicabilityFact where
  factId : String
  explanation : String
  evidenceIds : List String
  deriving DecidableEq

/-- `POLICY_FACT_IDS`. -/
def policyFactIds : List String :=
  ["activity_variance_pattern", "beneficial_owner_data_unavailable", "business_customer",
    "causal_amount_exceeds_expected_monthly_turnover", "counterparty_geography_unavailable",
    "high_risk_customer", "kyc_missing", "kyc_not_current", "pep_status_unavailable",
    "potential_enhanced_examination_pattern", "rapid_funds_movement_pattern",
    "relationship_purpose_unavailable", "repeated_credit_pattern",
    "sanctions_screening_status_unavailable"]

/-- The facts that have been added, by their IDs. -/
abbrev Facts := Dict String PolicyApplicabilityFact

/-- `add`, under a condition. -/
def Facts.add (facts : Facts) (condition : Bool) (factId explanation : String)
    (evidenceIds : List String) : Facts :=
  if condition then facts.set factId ⟨factId, explanation, evidenceIds.eraseDups⟩ else facts

section Derivation

variable (py : PyBuiltins)

/-- The facts of the rule that raised the alert. -/
def addRuleFacts (ruleId : String) (causalEvidenceIds : List String) (facts : Facts) : Facts :=
  if ruleId = "EXPECTED_ACTIVITY_VARIANCE" then
    facts.add true "activity_variance_pattern"
      "The monitoring engine recorded an expected-activity variance." causalEvidenceIds
  else if ruleId = "RAPID_FUNDS_MOVEMENT" then
    (facts.add true "rapid_funds_movement_pattern"
      "The monitoring engine recorded incoming funds followed by rapid outgoing movement."
      causalEvidenceIds).add true "potential_enhanced_examination_pattern"
      ("The rapid movement is an atypical pattern requiring assessment " ++
        "against the legal enhanced-examination criteria.") causalEvidenceIds
  else if ruleId = "STRUCTURING_LIKE_REPEATED_CREDITS" then
    (facts.add true "repeated_credit_pattern"
      "The monitoring engine recorded repeated credits within a short window."
      causalEvidenceIds).add true "potential_enhanced_examination_pattern"
      ("The repeated-credit pattern requires assessment against the legal " ++
        "enhanced-examination criteria.") causalEvidenceIds
  else facts

/-- The IDs of the items behind a gap of the KYC data. -/
def gapEvidenceIds (customer : EvidenceItem) (kyc : Option EvidenceItem)
    (supplementalIds : List String) : List String :=
  customer.evidenceId :: (kyc.toList.map (·.evidenceId) ++ supplementalIds)

/-- The facts of the customer profile. -/
def addCustomerFacts (customer : EvidenceItem) (kyc : Option EvidenceItem)
    (supplementalInformation : Dict String Json) (supplementalIds : List String)
    (facts : Facts) : Facts :=
  let facts := facts.add (py.lower (customer.textOf py "risk_level") = "high") "high_risk_customer"
    "The customer profile is classified as high risk." [customer.evidenceId]
  if py.lower (customer.textOf py "customer_type") = "business" then
    (facts.add true "business_customer"
      "The customer profile identifies a business customer." [customer.evidenceId]).add
      (kyc.all (fun kyc => !kyc.has "beneficial_owner") &&
        !supplementalInformation.contains "beneficial_owner")
      "beneficial_owner_data_unavailable"
      "The retrieved KYC evidence does not contain beneficial-owner information."
      (gapEvidenceIds customer kyc supplementalIds)
  else facts

/-- The facts of the KYC profile. -/
def addKycFacts (customer : EvidenceItem) (kyc : Option EvidenceItem)
    (supplementalInformation : Dict String Json) (supplementalIds : List String)
    (facts : Facts) : Facts :=
  let missing := kyc.all fun kyc => py.lower (kyc.textOf py "status") = "missing"
  let facts := if missing then
      facts.add true "kyc_missing" "No usable KYC profile is available in the retrieved evidence."
        (gapEvidenceIds customer kyc [])
    else
      facts.add (kyc.any fun kyc => py.lower (kyc.textOf py "status") ≠ "current") "kyc_not_current"
        "The retrieved KYC profile is not marked current." (kyc.toList.map (·.evidenceId))
  facts.add (kyc.all (fun kyc => strip (kyc.textOf py "purpose") = "") &&
      strip (py.str ((supplementalInformation.get? "purpose").getD (.string ""))) = "")
    "relationship_purpose_unavailable"
    "The purpose of the business relationship is absent from retrieved KYC evidence."
    (gapEvidenceIds customer kyc supplementalIds)

/-- The facts of the screening of the customer. -/
def addScreeningFacts (customer : EvidenceItem) (supplementalInformation : Dict String Json)
    (facts : Facts) : Facts :=
  (facts.add (!customer.has "pep_status" && !supplementalInformation.contains "pep_status")
    "pep_status_unavailable" "The retrieved customer profile does not contain a PEP assessment."
    [customer.evidenceId]).add
    (!customer.has "sanctions_screening_status" &&
      !supplementalInformation.contains "sanctions_screening_status")
    "sanctions_screening_status_unavailable"
    "The retrieved customer profile does not contain a sanctions-screening result."
    [customer.evidenceId]

/-- Whether a causal transaction exceeds the expected turnover of the customer. -/
def exceedsTurnover (customer : EvidenceItem) (causalTransactions : List EvidenceItem) :
    Except PyError Bool := do
  let turnover := (customer.field "expected_monthly_turnover").getD (.string "0")
  let expectedTurnover := (py.decimal (py.str turnover)).getD (.finite 0)
  if ← expectedTurnover.greater (.finite 0) then
    causalTransactions.anyM fun item => do
      let amount ← orRaise (py.decimal (py.str ((item.field "amount").getD (.string "0"))))
        invalidOperation
      amount.greater expectedTurnover
  else pure false

/-- The supplemental information of all submissions, the later over the earlier. -/
def mergeSupplemental (supplemental : List EvidenceItem) : Dict String Json :=
  supplemental.foldl (fun merged item => merged.update item.information) .empty

/-- The items of a type. -/
def itemsOfType (evidence : List EvidenceItem) (evidenceType : String) : List EvidenceItem :=
  evidence.filter fun item => item.evidenceType = evidenceType

/-- The transactions that the alert names. -/
def causalTransactions (evidence : List EvidenceItem) (alert : EvidenceItem) :
    Except PyError (List EvidenceItem) := do
  let causal ← PyBuiltins.items ((alert.field "causal_transaction_ids").getD (.array []))
  let causalIds := causal.map py.str
  pure ((itemsOfType evidence "transaction").filter fun item => causalIds.contains item.evidenceId)

/-- `derive_policy_applicability_facts`. -/
def derivePolicyApplicabilityFacts (evidence : List EvidenceItem) :
    Except PyError (List PolicyApplicabilityFact) := do
  let alert ← orRaise (itemsOfType evidence "alert").head? stopIteration
  let customer ← orRaise (itemsOfType evidence "customer_profile").head? stopIteration
  let kyc := (itemsOfType evidence "kyc_profile").head?
  let supplemental := itemsOfType evidence "supplemental_information"
  let supplementalInformation := mergeSupplemental supplemental
  let supplementalIds := supplemental.map (·.evidenceId)
  let causal ← causalTransactions py evidence alert
  let causalEvidenceIds := alert.evidenceId :: causal.map (·.evidenceId)
  let facts := addRuleFacts (alert.textOf py "rule_id") causalEvidenceIds .empty
  let facts := addCustomerFacts py customer kyc supplementalInformation supplementalIds facts
  let facts := addKycFacts py customer kyc supplementalInformation supplementalIds facts
  let facts := addScreeningFacts customer supplementalInformation facts
  let exceeds ← exceedsTurnover py customer causal
  let facts := facts.add exceeds "causal_amount_exceeds_expected_monthly_turnover"
    "At least one causal transaction exceeds the recorded expected monthly turnover."
    (customer.evidenceId :: causalEvidenceIds)
  let facts := facts.add (causal.all (fun item => !item.has "counterparty_country_code") &&
      !supplementalInformation.contains "counterparty_country_code")
    "counterparty_geography_unavailable"
    "The causal transaction evidence does not include counterparty geography." causalEvidenceIds
  pure (facts.values.mergeSort fun a b => a.factId ≤ b.factId)

end Derivation

/-- A fact about data that is missing. -/
inductive Gap where
  | beneficialOwner | relationshipPurpose | pepStatus | sanctionsScreeningStatus
  | counterpartyGeography
  deriving DecidableEq

/-- The ID of the fact. -/
def Gap.factId : Gap → String
  | .beneficialOwner => "beneficial_owner_data_unavailable"
  | .relationshipPurpose => "relationship_purpose_unavailable"
  | .pepStatus => "pep_status_unavailable"
  | .sanctionsScreeningStatus => "sanctions_screening_status_unavailable"
  | .counterpartyGeography => "counterparty_geography_unavailable"

/-- The field of a submission that fills the gap. -/
def Gap.fieldName : Gap → String
  | .beneficialOwner => "beneficial_owner"
  | .relationshipPurpose => "purpose"
  | .pepStatus => "pep_status"
  | .sanctionsScreeningStatus => "sanctions_screening_status"
  | .counterpartyGeography => "counterparty_country_code"

/-- The evidence other than the submissions leaves the gap. -/
def Gap.Left (py : PyBuiltins) (evidence : List EvidenceItem) : Gap → Prop
  | .beneficialOwner =>
    (∃ customer ∈ (itemsOfType evidence "customer_profile").head?,
      py.lower (customer.textOf py "customer_type") = "business") ∧
    ∀ kyc ∈ (itemsOfType evidence "kyc_profile").head?, kyc.has "beneficial_owner" = false
  | .relationshipPurpose =>
    ∀ kyc ∈ (itemsOfType evidence "kyc_profile").head?, Blank (kyc.textOf py "purpose")
  | .pepStatus =>
    ∃ customer ∈ (itemsOfType evidence "customer_profile").head?, customer.has "pep_status" = false
  | .sanctionsScreeningStatus =>
    ∃ customer ∈ (itemsOfType evidence "customer_profile").head?,
      customer.has "sanctions_screening_status" = false
  | .counterpartyGeography =>
    ∃ alert ∈ (itemsOfType evidence "alert").head?, ∃ causal,
      causalTransactions py evidence alert = .ok causal ∧
        ∀ item ∈ causal, item.has "counterparty_country_code" = false

/-- The merged submissions fill the gap, as the source tests it. -/
def Gap.Filled (py : PyBuiltins) (information : Dict String Json) : Gap → Prop
  | .relationshipPurpose => ¬Blank (py.str ((information.get? "purpose").getD (.string "")))
  | gap => information.contains gap.fieldName = true

/-- A value other than null and the blank string. -/
def Json.Substantial (value : Json) : Prop := value ≠ .null ∧ ∀ s, value = .string s → ¬Blank s

/-- The value that an item supplies for a field. -/
def EvidenceItem.supplied (item : EvidenceItem) (key : String) : Option Json :=
  (Dict.empty.update item.information).get? key

section Facts

/-- The IDs of the facts that have been added. -/
theorem Facts.contains_add {facts : Facts} {condition : Bool} {factId explanation k : String}
    {evidenceIds : List String} :
    (facts.add condition factId explanation evidenceIds).contains k = true ↔
      condition = true ∧ factId = k ∨ facts.contains k = true := by
  unfold Facts.add Dict.contains
  cases condition with
  | false => simp
  | true =>
    by_cases hk : factId = k <;> simp [Dict.get?_set, hk]

/-- Every fact is kept under its ID. -/
def Facts.Keyed (facts : Facts) : Prop := ∀ k fact, facts.get? k = some fact → fact.factId = k

/-- An added fact is kept under its ID. -/
theorem Facts.Keyed.add {facts : Facts} (h : facts.Keyed) {condition : Bool}
    {factId explanation : String} {evidenceIds : List String} :
    (facts.add condition factId explanation evidenceIds).Keyed := by
  unfold Facts.add
  cases condition with
  | false => exact h
  | true =>
    intro k fact hfact
    rw [if_pos rfl, Dict.get?_set] at hfact
    split at hfact
    · rename_i hk
      cases hfact
      exact hk
    · exact h k fact hfact

/-- The IDs of sorted facts. -/
theorem Facts.Keyed.mem_sorted {facts : Facts} (h : facts.Keyed)
    {le : PolicyApplicabilityFact → PolicyApplicabilityFact → Bool} {k : String} :
    k ∈ (facts.values.mergeSort le).map (·.factId) ↔ facts.contains k = true := by
  simp only [List.mem_map, List.mem_mergeSort, Dict.contains, Option.isSome_iff_exists]
  constructor
  · rintro ⟨fact, hfact, rfl⟩
    obtain ⟨k, hk⟩ := facts.exists_get?_of_mem_values hfact
    rw [h k fact hk]
    exact ⟨fact, hk⟩
  · rintro ⟨fact, hfact⟩
    exact ⟨fact, facts.mem_values_of_get? hfact, h k fact hfact⟩

end Facts

/-- What the derivation reads apart from the submissions. -/
structure Readings where
  alert : EvidenceItem
  customer : EvidenceItem
  kyc : Option EvidenceItem
  causal : List EvidenceItem
  exceeds : Bool

section Readings

variable {py : PyBuiltins} {evidence : List EvidenceItem} {item : EvidenceItem} {r : Readings}

/-- The reading part of the derivation: all that may raise. -/
def readings (py : PyBuiltins) (evidence : List EvidenceItem) : Except PyError Readings := do
  let alert ← orRaise (itemsOfType evidence "alert").head? stopIteration
  let customer ← orRaise (itemsOfType evidence "customer_profile").head? stopIteration
  let causal ← causalTransactions py evidence alert
  let exceeds ← exceedsTurnover py customer causal
  pure ⟨alert, customer, (itemsOfType evidence "kyc_profile").head?, causal, exceeds⟩

/-- The facts that are added, from what has been read and the submissions. -/
def Readings.facts (py : PyBuiltins) (r : Readings) (supplemental : List EvidenceItem) : Facts :=
  let information := mergeSupplemental supplemental
  let supplementalIds := supplemental.map (·.evidenceId)
  let causalEvidenceIds := r.alert.evidenceId :: r.causal.map (·.evidenceId)
  ((addScreeningFacts r.customer information (addKycFacts py r.customer r.kyc information supplementalIds
      (addCustomerFacts py r.customer r.kyc information supplementalIds
        (addRuleFacts (r.alert.textOf py "rule_id") causalEvidenceIds .empty)))).add r.exceeds
    "causal_amount_exceeds_expected_monthly_turnover"
    "At least one causal transaction exceeds the recorded expected monthly turnover."
    (r.customer.evidenceId :: causalEvidenceIds)).add
    (r.causal.all (fun item => !item.has "counterparty_country_code") &&
      !information.contains "counterparty_country_code")
    "counterparty_geography_unavailable"
    "The causal transaction evidence does not include counterparty geography." causalEvidenceIds

/-- The derivation reads, and then adds. -/
theorem derive_eq : derivePolicyApplicabilityFacts py evidence = (readings py evidence).map fun r =>
    (r.facts py (itemsOfType evidence "supplemental_information")).values.mergeSort
      fun a b => a.factId ≤ b.factId := by
  unfold derivePolicyApplicabilityFacts readings
  cases orRaise (itemsOfType evidence "alert").head? stopIteration with
  | error e => rfl
  | ok alert =>
    cases orRaise (itemsOfType evidence "customer_profile").head? stopIteration with
    | error e => rfl
    | ok customer =>
      simp only [bind, Except.bind]
      cases causalTransactions py evidence alert with
      | error e => rfl
      | ok causal =>
        cases hexceeds : exceedsTurnover py customer causal with
        | error e => simp only [hexceeds]; rfl
        | ok exceeds => simp only [hexceeds]; rfl

/-- The facts of the rule are kept under their IDs. -/
theorem keyed_addRuleFacts {ruleId : String} {ids : List String} {facts : Facts} (h : facts.Keyed) :
    (addRuleFacts ruleId ids facts).Keyed := by
  unfold addRuleFacts
  split
  · exact h.add
  · split
    · exact h.add.add
    · split
      · exact h.add.add
      · exact h

/-- The facts of the customer are kept under their IDs. -/
theorem keyed_addCustomerFacts {customer : EvidenceItem} {kyc : Option EvidenceItem}
    {information : Dict String Json} {ids : List String} {facts : Facts} (h : facts.Keyed) :
    (addCustomerFacts py customer kyc information ids facts).Keyed := by
  dsimp only [addCustomerFacts]
  split
  · exact h.add.add.add
  · exact h.add

/-- The facts of the KYC profile are kept under their IDs. -/
theorem keyed_addKycFacts {customer : EvidenceItem} {kyc : Option EvidenceItem}
    {information : Dict String Json} {ids : List String} {facts : Facts} (h : facts.Keyed) :
    (addKycFacts py customer kyc information ids facts).Keyed := by
  dsimp only [addKycFacts]
  split
  · exact h.add.add
  · exact h.add.add

/-- All facts are kept under their IDs. -/
theorem Readings.keyed_facts {supplemental : List EvidenceItem} : (r.facts py supplemental).Keyed := by
  have hempty : Facts.Keyed .empty := fun _ _ h => by cases h
  apply Facts.Keyed.add
  apply Facts.Keyed.add
  exact (keyed_addKycFacts (keyed_addCustomerFacts (keyed_addRuleFacts hempty))).add.add

/-- No rule adds a fact about missing data. -/
theorem contains_addRuleFacts {ruleId : String} {ids : List String} {facts : Facts} (gap : Gap) :
    (addRuleFacts ruleId ids facts).contains gap.factId = true ↔ facts.contains gap.factId = true := by
  unfold addRuleFacts
  split
  · cases gap <;> simp [Facts.contains_add, Gap.factId]
  · split
    · cases gap <;> simp [Facts.contains_add, Gap.factId]
    · split
      · cases gap <;> simp [Facts.contains_add, Gap.factId]
      · rfl

/-- The customer profile adds one fact about missing data. -/
theorem contains_addCustomerFacts {customer : EvidenceItem} {kyc : Option EvidenceItem}
    {information : Dict String Json} {ids : List String} {facts : Facts} (gap : Gap) :
    (addCustomerFacts py customer kyc information ids facts).contains gap.factId = true ↔
      gap = .beneficialOwner ∧ py.lower (customer.textOf py "customer_type") = "business" ∧
        (∀ profile ∈ kyc, profile.has "beneficial_owner" = false) ∧
          information.contains "beneficial_owner" = false ∨
      facts.contains gap.factId = true := by
  dsimp only [addCustomerFacts]
  split
  · rename_i hbusiness
    cases gap <;> simp [Facts.contains_add, Gap.factId, hbusiness, Option.all_eq_true]
  · rename_i hbusiness
    cases gap <;> simp [Facts.contains_add, Gap.factId, hbusiness]

/-- The KYC profile adds one fact about missing data. -/
theorem contains_addKycFacts {customer : EvidenceItem} {kyc : Option EvidenceItem}
    {information : Dict String Json} {ids : List String} {facts : Facts} (gap : Gap) :
    (addKycFacts py customer kyc information ids facts).contains gap.factId = true ↔
      gap = .relationshipPurpose ∧ (∀ profile ∈ kyc, Blank (profile.textOf py "purpose")) ∧
        Blank (py.str ((information.get? "purpose").getD (.string ""))) ∨
      facts.contains gap.factId = true := by
  dsimp only [addKycFacts]
  split
  · cases gap <;> simp [Facts.contains_add, Gap.factId, strip_eq_empty, Option.all_eq_true]
  · cases gap <;> simp [Facts.contains_add, Gap.factId, strip_eq_empty, Option.all_eq_true]

/-- The screening adds two facts about missing data. -/
theorem contains_addScreeningFacts {customer : EvidenceItem} {information : Dict String Json}
    {facts : Facts} (gap : Gap) :
    (addScreeningFacts customer information facts).contains gap.factId = true ↔
      (gap = .pepStatus ∨ gap = .sanctionsScreeningStatus) ∧ customer.has gap.fieldName = false ∧
        information.contains gap.fieldName = false ∨
      facts.contains gap.factId = true := by
  unfold addScreeningFacts
  cases gap <;> simp [Facts.contains_add, Gap.factId, Gap.fieldName]

/-- What has been read from the evidence. -/
theorem readings_eq_ok (h : readings py evidence = .ok r) :
    (itemsOfType evidence "alert").head? = some r.alert ∧
      (itemsOfType evidence "customer_profile").head? = some r.customer ∧
      (itemsOfType evidence "kyc_profile").head? = r.kyc ∧
      causalTransactions py evidence r.alert = .ok r.causal := by
  obtain ⟨alert, halert, h⟩ := bind_eq_ok.mp h
  obtain ⟨customer, hcustomer, h⟩ := bind_eq_ok.mp h
  obtain ⟨causal, hcausal, h⟩ := bind_eq_ok.mp h
  obtain ⟨exceeds, hexceeds, h⟩ := bind_eq_ok.mp h
  cases h
  exact ⟨orRaise_eq_ok.mp halert, orRaise_eq_ok.mp hcustomer, rfl, hcausal⟩

/-- A fact about missing data is derived exactly when the other evidence leaves the gap and the
submissions do not fill it. -/
theorem contains_facts (h : readings py evidence = .ok r) {supplemental : List EvidenceItem}
    (gap : Gap) : (r.facts py supplemental).contains gap.factId = true ↔
      gap.Left py evidence ∧ ¬gap.Filled py (mergeSupplemental supplemental) := by
  obtain ⟨halert, hcustomer, hkyc, hcausal⟩ := readings_eq_ok h
  have hempty (k : String) : Dict.contains (.empty : Facts) k = false := rfl
  dsimp only [Readings.facts]
  rw [Facts.contains_add, Facts.contains_add, contains_addScreeningFacts, contains_addKycFacts,
    contains_addCustomerFacts, contains_addRuleFacts, hempty]
  cases gap with
  | beneficialOwner =>
    simp [Gap.Left, Gap.Filled, Gap.factId, Gap.fieldName, hcustomer, hkyc, and_assoc]
  | relationshipPurpose => simp [Gap.Left, Gap.Filled, Gap.factId, hkyc]
  | pepStatus | sanctionsScreeningStatus =>
    simp [Gap.Left, Gap.Filled, Gap.factId, Gap.fieldName, hcustomer]
  | counterpartyGeography =>
    simp [Gap.Left, Gap.Filled, Gap.factId, Gap.fieldName, halert, hcausal]

/-- The facts about missing data that are derived. -/
theorem mem_derived {facts : List PolicyApplicabilityFact}
    (h : derivePolicyApplicabilityFacts py evidence = .ok facts) (gap : Gap) :
    gap.factId ∈ facts.map (·.factId) ↔ gap.Left py evidence ∧
      ¬gap.Filled py (mergeSupplemental (itemsOfType evidence "supplemental_information")) := by
  rw [derive_eq] at h
  cases hread : readings py evidence with
  | error e =>
    rw [hread] at h
    cases h
  | ok r =>
    rw [hread] at h
    cases h
    rw [Readings.keyed_facts.mem_sorted, contains_facts hread]

/-- A submission is no item of another type. -/
theorem itemsOfType_append (htype : item.evidenceType = "supplemental_information") {t : String}
    (ht : t ≠ "supplemental_information") :
    itemsOfType (evidence ++ [item]) t = itemsOfType evidence t := by
  have hother : ¬item.evidenceType = t := fun h => ht (h.symm.trans htype)
  simp [itemsOfType, hother]

/-- The other evidence is the same after a submission. -/
theorem causalTransactions_append (htype : item.evidenceType = "supplemental_information")
    (alert : EvidenceItem) :
    causalTransactions py (evidence ++ [item]) alert = causalTransactions py evidence alert := by
  unfold causalTransactions
  rw [itemsOfType_append htype (by decide)]

/-- What is read apart from the submissions is the same after one. -/
theorem readings_append (htype : item.evidenceType = "supplemental_information") :
    readings py (evidence ++ [item]) = readings py evidence := by
  unfold readings
  rw [itemsOfType_append htype (by decide), itemsOfType_append htype (by decide),
    itemsOfType_append htype (by decide)]
  simp only [causalTransactions_append htype]

/-- The other evidence leaves the same gaps after a submission. -/
theorem left_append (htype : item.evidenceType = "supplemental_information") (gap : Gap) :
    gap.Left py (evidence ++ [item]) ↔ gap.Left py evidence := by
  have hother {t : String} (ht : t ≠ "supplemental_information") :
      itemsOfType (evidence ++ [item]) t = itemsOfType evidence t := itemsOfType_append htype ht
  cases gap <;> simp [Gap.Left, causalTransactions_append htype, hother]

/-- The submissions after one more. -/
theorem mergeSupplemental_append (evidence : List EvidenceItem)
    (htype : item.evidenceType = "supplemental_information") (k : String) :
    (mergeSupplemental (itemsOfType (evidence ++ [item]) "supplemental_information")).get? k =
      (item.supplied k).or
        ((mergeSupplemental (itemsOfType evidence "supplemental_information")).get? k) := by
  have hitems : itemsOfType (evidence ++ [item]) "supplemental_information" =
      itemsOfType evidence "supplemental_information" ++ [item] := by
    simp [itemsOfType, htype]
  rw [hitems, mergeSupplemental, List.foldl_append]
  exact Dict.get?_update _ _ k

/-- The derivation raises after a submission when it raised before. -/
theorem derive_append_error (htype : item.evidenceType = "supplemental_information") {e : PyError}
    (h : derivePolicyApplicabilityFacts py evidence = .error e) :
    derivePolicyApplicabilityFacts py (evidence ++ [item]) = .error e := by
  rw [derive_eq] at h ⊢
  rw [readings_append htype]
  cases hread : readings py evidence with
  | error e' =>
    rw [hread] at h
    cases h
    rfl
  | ok r =>
    rw [hread] at h
    cases h

/-- The derivation returns after a submission when it returned before. -/
theorem derive_append_ok (htype : item.evidenceType = "supplemental_information")
    {facts : List PolicyApplicabilityFact}
    (h : derivePolicyApplicabilityFacts py evidence = .ok facts) :
    ∃ facts', derivePolicyApplicabilityFacts py (evidence ++ [item]) = .ok facts' := by
  rw [derive_eq] at h ⊢
  rw [readings_append htype]
  cases hread : readings py evidence with
  | error e' =>
    rw [hread] at h
    cases h
  | ok r => exact ⟨_, rfl⟩

/-- A gap is filled after a submission as its value says, or else as it was before. -/
theorem filled_append (htype : item.evidenceType = "supplemental_information") (gap : Gap) :
    gap.Filled py (mergeSupplemental (itemsOfType (evidence ++ [item]) "supplemental_information")) ↔
      match item.supplied gap.fieldName with
      | some value => gap = .relationshipPurpose → ∀ s, value = .string s → ¬Blank s
      | none =>
        gap.Filled py (mergeSupplemental (itemsOfType evidence "supplemental_information")) := by
  have hmerged := mergeSupplemental_append evidence htype gap.fieldName
  cases hsupplied : item.supplied gap.fieldName with
  | none =>
    rw [hsupplied, Option.none_or] at hmerged
    cases gap <;> simp only [Gap.Filled, Gap.fieldName, Dict.contains] at hmerged ⊢ <;> rw [hmerged]
  | some value =>
    rw [hsupplied, Option.some_or] at hmerged
    cases gap with
    | relationshipPurpose =>
      simp only [Gap.Filled, Gap.fieldName] at hmerged ⊢
      rw [hmerged, Option.getD_some, PyBuiltins.str, blank_text_ofJson py.number_visible]
      simp
    | beneficialOwner | pepStatus | sanctionsScreeningStatus | counterpartyGeography =>
      simp only [Gap.Filled, Gap.fieldName, Dict.contains] at hmerged ⊢
      simp [hmerged]

end Readings

/-- What one more item may do to a fact about missing data: it does not add it, and clears it only
with a value for the field that is neither null nor blank. -/
def OnlyClears (gap : Gap) (item : EvidenceItem) (before after : List PolicyApplicabilityFact) :
    Prop :=
  (gap.factId ∈ after.map (·.factId) → gap.factId ∈ before.map (·.factId)) ∧
    (gap.factId ∈ before.map (·.factId) → gap.factId ∉ after.map (·.factId) →
      ∃ value, item.supplied gap.fieldName = some value ∧ value.Substantial)

/-- The value that an item supplies for a gap which the other evidence leaves is no empty one: a
blank purpose does not follow an earlier one, no purpose is null, and the value of another field
that has not been supplied before is neither null nor blank. -/
def Gap.AnsweredBy (py : PyBuiltins) (evidence : List EvidenceItem) (item : EvidenceItem) (gap : Gap) :
    Prop :=
  let earlier := mergeSupplemental (itemsOfType evidence "supplemental_information")
  gap.Left py evidence → ∀ value, item.supplied gap.fieldName = some value →
    (gap.Filled py earlier → gap = .relationshipPurpose → ∀ s, value = .string s → ¬Blank s) ∧
    (¬gap.Filled py earlier → value ≠ .null ∧ (gap ≠ .relationshipPurpose → value.Substantial))

/-- One more supplemental item leaves the derivation raising, or returning. Each fact about missing
data is then only cleared, and only with content, exactly when the item answers its gap. -/
theorem onlyClears_iff_answeredBy (py : PyBuiltins) (evidence : List EvidenceItem)
    (item : EvidenceItem) (htype : item.evidenceType = "supplemental_information") :
    (∀ e, derivePolicyApplicabilityFacts py evidence = .error e →
      derivePolicyApplicabilityFacts py (evidence ++ [item]) = .error e) ∧
    ∀ before, derivePolicyApplicabilityFacts py evidence = .ok before →
      ∃ after, derivePolicyApplicabilityFacts py (evidence ++ [item]) = .ok after ∧
        ∀ gap, OnlyClears gap item before after ↔ gap.AnsweredBy py evidence item := by
  refine ⟨fun e h => derive_append_error htype h, fun before h => ?_⟩
  obtain ⟨after, hafter⟩ := derive_append_ok htype h
  refine ⟨after, hafter, fun gap => ?_⟩
  unfold OnlyClears Gap.AnsweredBy
  rw [mem_derived h gap, mem_derived hafter gap, left_append htype, filled_append htype]
  cases hsupplied : item.supplied gap.fieldName with
  | none => simp
  | some value =>
    have hnull : value = .null → ∀ s, value = .string s → ¬Blank s := by
      rintro rfl s hs
      cases hs
    simp only [Option.some.injEq, forall_eq', exists_eq_left', Json.Substantial]
    generalize (∀ s, value = .string s → ¬Blank s) = visible at hnull ⊢
    generalize gap.Left py evidence = left
    generalize gap.Filled py _ = filled
    by_cases hgap : gap = .relationshipPurpose
    · simp only [hgap, ne_eq, not_true_eq_false, true_imp_iff, false_imp_iff, and_true]
      grind
    · simp only [hgap, ne_eq, not_false_eq_true, true_imp_iff, false_imp_iff]
      grind

/-- Built-in functions that suffice for the samples. -/
def sampleBuiltins : PyBuiltins where
  number _ := "0"
  lower := id
  decimal _ := none
  number_visible _ := by simp [Blank, isSpace]

/-- An item of the first case. -/
def sampleItem (evidenceType : String) (fields : List (String × Json)) : EvidenceItem where
  evidenceId := "ITEM"
  evidenceType := evidenceType
  sourceRecordId := "ITEM"
  caseId := 0
  customerId := "C-1"
  content := .object fields
  contentHash := "digest"
  provenance := "sample"
  evidenceId_length := by decide

/-- An alert and a profile in which nothing is recorded. -/
def bareEvidence : List EvidenceItem := [sampleItem "alert" [], sampleItem "customer_profile" []]

/-- A submission that leaves the PEP status null. -/
def nullStatus : EvidenceItem := sampleItem "supplemental_information"
  [("information", .object [("pep_status", .null), ("comment", .string "nothing on file")])]

/-- Facts are derived from the bare evidence. -/
theorem derive_bareEvidence :
    ∃ before, derivePolicyApplicabilityFacts sampleBuiltins bareEvidence = .ok before := by
  rw [derive_eq]
  exact ⟨_, rfl⟩

/-- A submission of a PEP status answers every gap, and clears facts with content only. -/
theorem onlyClears_iff_answeredBy_status :
    let item := sampleItem "supplemental_information"
      [("information", .object [("pep_status", .string "not_pep")])]
    ∃ before after, derivePolicyApplicabilityFacts sampleBuiltins bareEvidence = .ok before ∧
      derivePolicyApplicabilityFacts sampleBuiltins (bareEvidence ++ [item]) = .ok after ∧
        ∀ gap, OnlyClears gap item before after ↔ gap.AnsweredBy sampleBuiltins bareEvidence item := by
  intro item
  obtain ⟨before, hbefore⟩ := derive_bareEvidence
  obtain ⟨after, hafter, hgaps⟩ :=
    (onlyClears_iff_answeredBy sampleBuiltins bareEvidence item rfl).2 before hbefore
  exact ⟨before, after, hbefore, hafter, hgaps⟩

/-- A null PEP status clears the fact that the PEP status is unavailable. -/
theorem null_clears_pepStatus :
    ¬∀ (py : PyBuiltins) (evidence : List EvidenceItem) (item : EvidenceItem),
      itemsOfType evidence "alert" ≠ [] → itemsOfType evidence "customer_profile" ≠ [] →
        item.evidenceType = "supplemental_information" → ∀ before after,
          derivePolicyApplicabilityFacts py evidence = .ok before →
            derivePolicyApplicabilityFacts py (evidence ++ [item]) = .ok after →
              ∀ gap, OnlyClears gap item before after := by
  intro h
  obtain ⟨before, hbefore⟩ := derive_bareEvidence
  have htype : nullStatus.evidenceType = "supplemental_information" := rfl
  obtain ⟨after, hafter⟩ := derive_append_ok htype hbefore
  have hclears := h sampleBuiltins bareEvidence nullStatus (by decide) (by decide) htype before after
    hbefore hafter .pepStatus
  have hleft : Gap.Left sampleBuiltins bareEvidence .pepStatus := ⟨_, rfl, rfl⟩
  have hgiven : (Gap.pepStatus.factId ∈ before.map (·.factId)) := by
    rw [mem_derived hbefore]
    exact ⟨hleft, Bool.false_ne_true⟩
  have hcleared : Gap.pepStatus.factId ∉ after.map (·.factId) := by
    rw [mem_derived hafter]
    exact fun hstill => hstill.2 rfl
  obtain ⟨value, hvalue, hsubstantial⟩ := hclears.2 hgiven hcleared
  cases hvalue
  exact hsubstantial.1 rfl

end Amlguard
