import Amlguard.Policy.Applicability
import Mathlib.Data.String.Basic

/-!
# The shape of the derived facts

The derivation adds its facts in four stages and two last steps. Every added fact is one of
`POLICY_FACT_IDS` and is backed by items of the evidence. A stage adds facts of its own only, so
which facts exclude or imply each other is settled inside one stage.
-/

namespace Amlguard

/-- A fact of the whitelist that rests on different items of the evidence, at least one. -/
structure PolicyApplicabilityFact.Backed (evidence : List EvidenceItem)
    (fact : PolicyApplicabilityFact) : Prop where
  known : fact.factId ∈ policyFactIds
  nonempty : fact.evidenceIds ≠ []
  unique : fact.evidenceIds.Nodup
  occurring : ∀ id ∈ fact.evidenceIds, id ∈ evidence.map (·.evidenceId)

/-- All facts are kept under their IDs, and backed. -/
structure Facts.Sound (evidence : List EvidenceItem) (facts : Facts) : Prop where
  keyed : facts.Keyed
  backed : ∀ k fact, facts.get? k = some fact → fact.Backed evidence

/-- What is left after duplicates have been erased has none. -/
theorem nodup_eraseDups {α : Type} [DecidableEq α] (l : List α) : l.eraseDups.Nodup := by
  induction hn : l.length using Nat.strong_induction_on generalizing l with
  | _ n ih =>
    cases l with
    | nil => simp
    | cons a rest =>
      rw [List.eraseDups_cons, List.nodup_cons]
      constructor
      · simp
      · have hlength := List.length_filter_le (fun b => !b == a) rest
        apply ih _ _ _ rfl
        rw [← hn, List.length_cons]
        omega

section Sound

variable {evidence : List EvidenceItem} {facts : Facts}

/-- Before any is added the facts are sound. -/
theorem Facts.sound_empty : Facts.Sound evidence .empty where
  keyed := fun _ _ h => by cases h
  backed := fun _ _ h => by cases h

/-- Adding a fact of the whitelist keeps the facts sound, when it rests on an item of the evidence
and on nothing else. -/
theorem Facts.Sound.add (h : facts.Sound evidence) {condition : Bool} {factId explanation : String}
    {ids : List String} (hknown : factId ∈ policyFactIds) (hnonempty : condition = true → ids ≠ [])
    (hids : ids ⊆ evidence.map (·.evidenceId)) :
    (facts.add condition factId explanation ids).Sound evidence := by
  constructor
  · exact h.keyed.add
  · unfold Facts.add
    cases condition with
    | false => exact h.backed
    | true =>
      intro k fact hfact
      rw [if_pos rfl, Dict.get?_set] at hfact
      split at hfact
      · cases hfact
        have hkept : ids.eraseDups ≠ [] := by
          obtain ⟨id, rest, rfl⟩ := List.exists_cons_of_ne_nil (hnonempty rfl)
          rw [List.eraseDups_cons]
          exact List.cons_ne_nil _ _
        exact ⟨hknown, hkept, nodup_eraseDups ids, fun id hid => hids (List.mem_eraseDups.mp hid)⟩
      · exact h.backed k fact hfact

end Sound

section Stages

variable {py : PyBuiltins} {evidence : List EvidenceItem} {facts : Facts} {customer : EvidenceItem}
  {kyc : Option EvidenceItem} {information : Dict String Json} {ids : List String} {ruleId : String}

/-- The evidence behind a gap of the KYC data occurs. -/
theorem gapEvidenceIds_subset (hcustomer : customer ∈ evidence) (hkyc : ∀ item ∈ kyc, item ∈ evidence)
    (hids : ids ⊆ evidence.map (·.evidenceId)) :
    gapEvidenceIds customer kyc ids ⊆ evidence.map (·.evidenceId) := by
  intro id hid
  rcases List.mem_cons.mp hid with rfl | hid
  · exact List.mem_map_of_mem hcustomer
  rcases List.mem_append.mp hid with hid | hid
  · obtain ⟨item, hitem, rfl⟩ := List.mem_map.mp hid
    exact List.mem_map_of_mem (hkyc item (Option.mem_toList.mp hitem))
  · exact hids hid

/-- The facts of the rule are sound. -/
theorem Facts.Sound.addRuleFacts (h : facts.Sound evidence) (hnonempty : ids ≠ [])
    (hids : ids ⊆ evidence.map (·.evidenceId)) :
    (addRuleFacts ruleId ids facts).Sound evidence := by
  unfold Amlguard.addRuleFacts
  split
  · exact h.add (by decide) (fun _ => hnonempty) hids
  · split
    · apply Facts.Sound.add _ (by decide) (fun _ => hnonempty) hids
      exact h.add (by decide) (fun _ => hnonempty) hids
    · split
      · apply Facts.Sound.add _ (by decide) (fun _ => hnonempty) hids
        exact h.add (by decide) (fun _ => hnonempty) hids
      · exact h

/-- The facts of the customer are sound. -/
theorem Facts.Sound.addCustomerFacts (h : facts.Sound evidence) (hcustomer : customer ∈ evidence)
    (hkyc : ∀ item ∈ kyc, item ∈ evidence) (hids : ids ⊆ evidence.map (·.evidenceId)) :
    (addCustomerFacts py customer kyc information ids facts).Sound evidence := by
  have hone : [customer.evidenceId] ⊆ evidence.map (·.evidenceId) :=
    List.cons_subset.mpr ⟨List.mem_map_of_mem hcustomer, List.nil_subset _⟩
  dsimp only [Amlguard.addCustomerFacts]
  split
  · apply Facts.Sound.add _ (by decide) (fun _ => List.cons_ne_nil _ _)
      (gapEvidenceIds_subset hcustomer hkyc hids)
    apply Facts.Sound.add _ (by decide) (fun _ => List.cons_ne_nil _ _) hone
    exact h.add (by decide) (fun _ => List.cons_ne_nil _ _) hone
  · exact h.add (by decide) (fun _ => List.cons_ne_nil _ _) hone

/-- The facts of the KYC profile are sound. -/
theorem Facts.Sound.addKycFacts (h : facts.Sound evidence) (hcustomer : customer ∈ evidence)
    (hkyc : ∀ item ∈ kyc, item ∈ evidence) (hids : ids ⊆ evidence.map (·.evidenceId)) :
    (addKycFacts py customer kyc information ids facts).Sound evidence := by
  dsimp only [Amlguard.addKycFacts]
  apply Facts.Sound.add _ (by decide) (fun _ => List.cons_ne_nil _ _)
    (gapEvidenceIds_subset hcustomer hkyc hids)
  split
  · apply h.add (by decide) (fun _ => List.cons_ne_nil _ _)
    exact gapEvidenceIds_subset hcustomer hkyc (List.nil_subset _)
  · apply h.add (by decide)
    · intro hstatus
      cases kyc with
      | none => cases hstatus
      | some profile => exact List.cons_ne_nil _ _
    · intro id hid
      obtain ⟨item, hitem, rfl⟩ := List.mem_map.mp hid
      exact List.mem_map_of_mem (hkyc item (Option.mem_toList.mp hitem))

/-- The facts of the screening are sound. -/
theorem Facts.Sound.addScreeningFacts (h : facts.Sound evidence) (hcustomer : customer ∈ evidence) :
    (addScreeningFacts customer information facts).Sound evidence := by
  have hone : [customer.evidenceId] ⊆ evidence.map (·.evidenceId) :=
    List.cons_subset.mpr ⟨List.mem_map_of_mem hcustomer, List.nil_subset _⟩
  unfold Amlguard.addScreeningFacts
  apply Facts.Sound.add _ (by decide) (fun _ => List.cons_ne_nil _ _) hone
  exact h.add (by decide) (fun _ => List.cons_ne_nil _ _) hone

end Stages

/-- The facts of the rule that raised the alert. -/
def ruleFactIds : List String :=
  ["activity_variance_pattern", "rapid_funds_movement_pattern", "repeated_credit_pattern",
    "potential_enhanced_examination_pattern"]

/-- The facts of the customer profile. -/
def customerFactIds : List String :=
  ["high_risk_customer", "business_customer", "beneficial_owner_data_unavailable"]

/-- The facts of the KYC profile. -/
def kycFactIds : List String :=
  ["kyc_missing", "kyc_not_current", "relationship_purpose_unavailable"]

/-- The facts of the screening. -/
def screeningFactIds : List String :=
  ["pep_status_unavailable", "sanctions_screening_status_unavailable"]

section Exclusions

variable {py : PyBuiltins} {facts : Facts} {customer : EvidenceItem} {kyc : Option EvidenceItem}
  {information : Dict String Json} {ids : List String} {ruleId k : String}

/-- The stage of the rule adds its own facts only. -/
theorem contains_addRuleFacts_of_notMem (hk : k ∉ ruleFactIds) :
    (addRuleFacts ruleId ids facts).contains k = true ↔ facts.contains k = true := by
  simp only [ruleFactIds, List.mem_cons, List.not_mem_nil, or_false, not_or, eq_comm (a := k)] at hk
  unfold addRuleFacts
  split
  · simp [Facts.contains_add, hk]
  · split
    · simp [Facts.contains_add, hk]
    · split
      · simp [Facts.contains_add, hk]
      · rfl

/-- The stage of the customer adds its own facts only. -/
theorem contains_addCustomerFacts_of_notMem (hk : k ∉ customerFactIds) :
    (addCustomerFacts py customer kyc information ids facts).contains k = true ↔
      facts.contains k = true := by
  simp only [customerFactIds, List.mem_cons, List.not_mem_nil, or_false, not_or,
    eq_comm (a := k)] at hk
  dsimp only [addCustomerFacts]
  split
  · simp [Facts.contains_add, hk]
  · simp [Facts.contains_add, hk]

/-- The stage of the KYC profile adds its own facts only. -/
theorem contains_addKycFacts_of_notMem (hk : k ∉ kycFactIds) :
    (addKycFacts py customer kyc information ids facts).contains k = true ↔
      facts.contains k = true := by
  simp only [kycFactIds, List.mem_cons, List.not_mem_nil, or_false, not_or, eq_comm (a := k)] at hk
  dsimp only [addKycFacts]
  split
  · simp [Facts.contains_add, hk]
  · simp [Facts.contains_add, hk]

/-- The stage of the screening adds its own facts only. -/
theorem contains_addScreeningFacts_of_notMem (hk : k ∉ screeningFactIds) :
    (addScreeningFacts customer information facts).contains k = true ↔ facts.contains k = true := by
  simp only [screeningFactIds, List.mem_cons, List.not_mem_nil, or_false, not_or,
    eq_comm (a := k)] at hk
  simp [addScreeningFacts, Facts.contains_add, hk]

/-- A business customer is recorded with every fact about its beneficial owners. -/
theorem business_of_beneficialOwner
    (h : (addCustomerFacts py customer kyc information ids facts).contains
      "beneficial_owner_data_unavailable" = true)
    (hnew : facts.contains "beneficial_owner_data_unavailable" = false) :
    (addCustomerFacts py customer kyc information ids facts).contains "business_customer" = true := by
  dsimp only [addCustomerFacts] at h ⊢
  split at h
  · rename_i hbusiness
    simp [Facts.contains_add, hbusiness]
  · simp [Facts.contains_add, hnew] at h

/-- A KYC profile that is missing is not also out of date. -/
theorem kyc_exclusive
    (hmissing : (addKycFacts py customer kyc information ids facts).contains "kyc_missing" = true)
    (hdated : (addKycFacts py customer kyc information ids facts).contains "kyc_not_current" = true)
    (hnew : facts.contains "kyc_missing" = false) (hnew' : facts.contains "kyc_not_current" = false) :
    False := by
  dsimp only [addKycFacts] at hmissing hdated
  split at hmissing
  · rename_i hstatus
    simp [Facts.contains_add, hstatus, hnew'] at hdated
  · simp [Facts.contains_add, hnew] at hmissing

/-- A rule calls for an enhanced examination exactly when it is about rapid movements or repeated
credits. -/
theorem enhanced_iff (hnew : ∀ k ∈ ruleFactIds, facts.contains k = false) :
    (addRuleFacts ruleId ids facts).contains "potential_enhanced_examination_pattern" = true ↔
      (addRuleFacts ruleId ids facts).contains "rapid_funds_movement_pattern" = true ∨
        (addRuleFacts ruleId ids facts).contains "repeated_credit_pattern" = true := by
  have hpotential := hnew "potential_enhanced_examination_pattern" (by decide)
  have hrapid := hnew "rapid_funds_movement_pattern" (by decide)
  have hrepeated := hnew "repeated_credit_pattern" (by decide)
  unfold addRuleFacts
  split
  · simp [Facts.contains_add, hpotential, hrapid, hrepeated]
  · split
    · simp [Facts.contains_add]
    · split
      · simp [Facts.contains_add]
      · simp [hpotential, hrapid, hrepeated]

end Exclusions

/-- The value of a field denotes a finite decimal when the field is present. -/
def EvidenceItem.FiniteAt (py : PyBuiltins) (item : EvidenceItem) (key : String) : Prop :=
  ∀ value, item.field key = some value → ∃ q, py.decimal (py.str value) = some (.finite q)

/-- The causal transactions of an alert are given by values that can be visited. -/
def EvidenceItem.NamesCausal (item : EvidenceItem) : Prop :=
  ∃ ids, PyBuiltins.items ((item.field "causal_transaction_ids").getD (.array [])) = .ok ids

/-- Facts in the order of their IDs, each backed by the evidence, that exclude and imply each other
as they should. -/
structure WellFormedFacts (evidence : List EvidenceItem) (facts : List PolicyApplicabilityFact) :
    Prop where
  increasing : (facts.map (·.factId)).Pairwise (· < ·)
  backed : ∀ fact ∈ facts, fact.Backed evidence
  kyc : ¬("kyc_missing" ∈ facts.map (·.factId) ∧ "kyc_not_current" ∈ facts.map (·.factId))
  beneficialOwner : "beneficial_owner_data_unavailable" ∈ facts.map (·.factId) →
    "business_customer" ∈ facts.map (·.factId)
  enhanced : "potential_enhanced_examination_pattern" ∈ facts.map (·.factId) ↔
    "rapid_funds_movement_pattern" ∈ facts.map (·.factId) ∨
      "repeated_credit_pattern" ∈ facts.map (·.factId)

section Derived

variable {py : PyBuiltins} {evidence : List EvidenceItem} {r : Readings}

/-- Facts that are kept under their IDs have different ones. -/
theorem Facts.Keyed.nodup_factIds {facts : Facts} (h : facts.Keyed) :
    (facts.values.map (·.factId)).Nodup := by
  have hkeys : facts.values.map (·.factId) = facts.entries.map Prod.fst := by
    rw [Dict.values, List.map_map]
    apply List.map_congr_left
    intro entry hentry
    exact h entry.1 entry.2 ((facts.mem_entries_iff entry.1 entry.2).mp hentry)
  rw [hkeys]
  exact facts.nodup

/-- Sorted by their IDs, the facts are in strictly increasing order. -/
theorem Facts.Keyed.increasing {facts : Facts} (h : facts.Keyed) :
    ((facts.values.mergeSort fun a b => a.factId ≤ b.factId).map (·.factId)).Pairwise (· < ·) := by
  have hsorted : (facts.values.mergeSort fun a b => a.factId ≤ b.factId).Pairwise
      fun a b => decide (a.factId ≤ b.factId) = true := by
    apply List.pairwise_mergeSort
    · intro a b c hab hbc
      rw [decide_eq_true_eq] at hab hbc ⊢
      exact le_trans hab hbc
    · intro a b
      rw [Bool.or_eq_true, decide_eq_true_eq, decide_eq_true_eq]
      exact le_total _ _
  have hle : ((facts.values.mergeSort fun a b => a.factId ≤ b.factId).map (·.factId)).Pairwise
      (· ≤ ·) := by
    apply List.Pairwise.map
    · intro a b hab
      exact of_decide_eq_true hab
    · exact hsorted
  have hnodup : ((facts.values.mergeSort fun a b => a.factId ≤ b.factId).map (·.factId)).Nodup :=
    (((List.mergeSort_perm _ _).map _).nodup_iff).mpr h.nodup_factIds
  apply (hle.and hnodup).imp
  intro a b hab
  exact lt_of_le_of_ne hab.1 hab.2

/-- The comparison with the turnover does not raise on finite decimals. -/
theorem exceedsTurnover_ok {customer : EvidenceItem} {causal : List EvidenceItem}
    (hzero : py.decimal "0" = some (.finite 0))
    (hturnover : customer.FiniteAt py "expected_monthly_turnover")
    (hamounts : ∀ item ∈ causal, item.FiniteAt py "amount") :
    ∃ exceeds, exceedsTurnover py customer causal = .ok exceeds := by
  have hfinite {item : EvidenceItem} {key : String} (h : item.FiniteAt py key) :
      ∃ q, py.decimal (py.str ((item.field key).getD (.string "0"))) = some (.finite q) := by
    cases hfield : item.field key with
    | none => exact ⟨0, hzero⟩
    | some value => exact h value hfield
  obtain ⟨turnover, hturnover⟩ := hfinite hturnover
  unfold exceedsTurnover
  simp only [hturnover, Option.getD_some, PyDecimal.greater, ok_bind]
  split
  · induction causal with
    | nil => exact ⟨false, rfl⟩
    | cons item rest ih =>
      obtain ⟨amount, hamount⟩ := hfinite (hamounts item List.mem_cons_self)
      obtain ⟨others, hothers⟩ := ih fun other hother => hamounts other (List.mem_cons_of_mem _ hother)
      rw [List.anyM_cons]
      simp only [hamount, orRaise, ok_bind]
      split
      · exact ⟨true, rfl⟩
      · exact ⟨others, hothers⟩
  · exact ⟨false, rfl⟩

/-- What has been read occurs in the evidence. -/
theorem readings_mem (h : readings py evidence = .ok r) :
    r.alert ∈ evidence ∧ r.customer ∈ evidence ∧ (∀ item ∈ r.kyc, item ∈ evidence) ∧
      ∀ item ∈ r.causal, item ∈ evidence := by
  have hfirst {evidenceType : String} {item : EvidenceItem}
      (hhead : (itemsOfType evidence evidenceType).head? = some item) : item ∈ evidence :=
    List.mem_of_mem_filter (List.mem_of_head? hhead)
  obtain ⟨halert, hcustomer, hkyc, hcausal⟩ := readings_eq_ok h
  obtain ⟨ids, -, hcausal⟩ := bind_eq_ok.mp hcausal
  refine ⟨hfirst halert, hfirst hcustomer, fun item hitem => hfirst (hkyc.trans hitem), ?_⟩
  intro item hitem
  rw [← Except.ok.inj hcausal] at hitem
  exact List.mem_of_mem_filter (List.mem_of_mem_filter hitem)

/-- All derived facts are backed. -/
theorem Readings.sound_facts (h : readings py evidence = .ok r) :
    (r.facts py (itemsOfType evidence "supplemental_information")).Sound evidence := by
  obtain ⟨halert, hcustomer, hkyc, hcausal⟩ := readings_mem h
  have hcausalIds : r.alert.evidenceId :: r.causal.map (·.evidenceId) ⊆
      evidence.map (·.evidenceId) := by
    intro id hid
    rcases List.mem_cons.mp hid with rfl | hid
    · exact List.mem_map_of_mem halert
    · obtain ⟨item, hitem, rfl⟩ := List.mem_map.mp hid
      exact List.mem_map_of_mem (hcausal item hitem)
  have hsupplemental : (itemsOfType evidence "supplemental_information").map (·.evidenceId) ⊆
      evidence.map (·.evidenceId) := by
    intro id hid
    obtain ⟨item, hitem, rfl⟩ := List.mem_map.mp hid
    exact List.mem_map_of_mem (List.mem_of_mem_filter hitem)
  apply Facts.Sound.add _ (by decide) (fun _ => List.cons_ne_nil _ _) hcausalIds
  apply Facts.Sound.add _ (by decide) (fun _ => List.cons_ne_nil _ _)
  · exact List.cons_subset.mpr ⟨List.mem_map_of_mem hcustomer, hcausalIds⟩
  · apply Facts.Sound.addScreeningFacts _ hcustomer
    apply Facts.Sound.addKycFacts _ hcustomer hkyc hsupplemental
    apply Facts.Sound.addCustomerFacts _ hcustomer hkyc hsupplemental
    exact Facts.sound_empty.addRuleFacts (List.cons_ne_nil _ _) hcausalIds

/-- The derivation reads all that it needs from finite decimals. -/
theorem readings_ok (hzero : py.decimal "0" = some (.finite 0))
    (halert : ∃ alert, (itemsOfType evidence "alert").head? = some alert ∧ alert.NamesCausal)
    (hcustomer : ∃ customer, (itemsOfType evidence "customer_profile").head? = some customer ∧
      customer.FiniteAt py "expected_monthly_turnover")
    (hamounts : ∀ item ∈ itemsOfType evidence "transaction", item.FiniteAt py "amount") :
    ∃ r, readings py evidence = .ok r := by
  obtain ⟨alert, halert, ids, hids⟩ := halert
  obtain ⟨customer, hcustomer, hturnover⟩ := hcustomer
  have hcausal : causalTransactions py evidence alert = .ok
      ((itemsOfType evidence "transaction").filter fun item =>
        (ids.map py.str).contains item.evidenceId) := by
    unfold causalTransactions
    rw [hids]
    rfl
  obtain ⟨exceeds, hexceeds⟩ := exceedsTurnover_ok hzero hturnover
    fun item hitem => hamounts item (List.mem_of_mem_filter hitem)
  unfold readings
  rw [halert, hcustomer]
  simp only [orRaise, ok_bind, hcausal]
  rw [hexceeds]
  exact ⟨_, rfl⟩

/-- The facts after the stage of the rule. -/
def Readings.ruleFacts (py : PyBuiltins) (r : Readings) : Facts :=
  addRuleFacts (r.alert.textOf py "rule_id") (r.alert.evidenceId :: r.causal.map (·.evidenceId)) .empty

/-- The facts after the stage of the customer profile. -/
def Readings.customerFacts (py : PyBuiltins) (r : Readings) (supplemental : List EvidenceItem) : Facts :=
  addCustomerFacts py r.customer r.kyc (mergeSupplemental supplemental)
    (supplemental.map (·.evidenceId)) (r.ruleFacts py)

/-- The facts after the stage of the KYC profile. -/
def Readings.kycFacts (py : PyBuiltins) (r : Readings) (supplemental : List EvidenceItem) : Facts :=
  addKycFacts py r.customer r.kyc (mergeSupplemental supplemental)
    (supplemental.map (·.evidenceId)) (r.customerFacts py supplemental)

variable {supplemental : List EvidenceItem} {k : String}

/-- What is added after the stage of the KYC profile. -/
theorem Readings.contains_facts_of_notMem (hscreening : k ∉ screeningFactIds)
    (hlast : k ∉ ["causal_amount_exceeds_expected_monthly_turnover",
      "counterparty_geography_unavailable"]) :
    (r.facts py supplemental).contains k = true ↔ (r.kycFacts py supplemental).contains k = true := by
  simp only [List.mem_cons, List.not_mem_nil, or_false, not_or, eq_comm (a := k)] at hlast
  dsimp only [Readings.facts]
  rw [Facts.contains_add, Facts.contains_add, contains_addScreeningFacts_of_notMem hscreening]
  simp only [hlast, and_false, false_or]
  rfl

/-- The facts of the KYC profile are those of its stage. -/
theorem Readings.contains_kycFacts (hk : k ∈ kycFactIds) :
    (r.facts py supplemental).contains k = true ↔ (r.kycFacts py supplemental).contains k = true := by
  apply Readings.contains_facts_of_notMem
  · exact (by decide : ∀ k ∈ kycFactIds, k ∉ screeningFactIds) k hk
  · exact (by decide : ∀ k ∈ kycFactIds, k ∉ _) k hk

/-- The facts of the customer profile are those of its stage. -/
theorem Readings.contains_customerFacts (hk : k ∈ customerFactIds) :
    (r.facts py supplemental).contains k = true ↔
      (r.customerFacts py supplemental).contains k = true := by
  rw [Readings.contains_facts_of_notMem, Readings.kycFacts, contains_addKycFacts_of_notMem]
  · exact (by decide : ∀ k ∈ customerFactIds, k ∉ kycFactIds) k hk
  · exact (by decide : ∀ k ∈ customerFactIds, k ∉ screeningFactIds) k hk
  · exact (by decide : ∀ k ∈ customerFactIds, k ∉ _) k hk

/-- The facts of the rule are those of its stage. -/
theorem Readings.contains_ruleFacts (hk : k ∈ ruleFactIds) :
    (r.facts py supplemental).contains k = true ↔ (r.ruleFacts py).contains k = true := by
  rw [Readings.contains_facts_of_notMem, Readings.kycFacts, contains_addKycFacts_of_notMem,
    Readings.customerFacts, contains_addCustomerFacts_of_notMem]
  · exact (by decide : ∀ k ∈ ruleFactIds, k ∉ customerFactIds) k hk
  · exact (by decide : ∀ k ∈ ruleFactIds, k ∉ kycFactIds) k hk
  · exact (by decide : ∀ k ∈ ruleFactIds, k ∉ screeningFactIds) k hk
  · exact (by decide : ∀ k ∈ ruleFactIds, k ∉ _) k hk

/-- No stage before its own adds a fact of the rule, of the customer, or of the KYC profile. -/
theorem Readings.fresh (r : Readings) :
    (∀ k ∉ ruleFactIds, (r.ruleFacts py).contains k = false) ∧
      ∀ k ∈ kycFactIds, (r.customerFacts py supplemental).contains k = false := by
  have hrule : ∀ k ∉ ruleFactIds, (r.ruleFacts py).contains k = false := by
    intro k hk
    rw [← Bool.not_eq_true, Readings.ruleFacts, contains_addRuleFacts_of_notMem hk]
    exact Bool.false_ne_true
  refine ⟨hrule, fun k hk => ?_⟩
  rw [← Bool.not_eq_true, Readings.customerFacts, contains_addCustomerFacts_of_notMem
    ((by decide : ∀ k ∈ kycFactIds, k ∉ customerFactIds) k hk)]
  exact Bool.eq_false_iff.mp (hrule k ((by decide : ∀ k ∈ kycFactIds, k ∉ ruleFactIds) k hk))

/-- The facts that are derived are well formed, whatever the evidence is. -/
theorem wellFormed_of_derived {facts : List PolicyApplicabilityFact}
    (h : derivePolicyApplicabilityFacts py evidence = .ok facts) : WellFormedFacts evidence facts := by
  rw [derive_eq] at h
  cases hread : readings py evidence with
  | error e =>
    rw [hread] at h
    cases h
  | ok r =>
    rw [hread] at h
    cases h
    have hsound := Readings.sound_facts hread
    obtain ⟨hrule, hcustomer⟩ : (∀ k ∉ ruleFactIds, (r.ruleFacts py).contains k = false) ∧
        ∀ k ∈ kycFactIds, (r.customerFacts py
          (itemsOfType evidence "supplemental_information")).contains k = false :=
      r.fresh
    constructor
    · exact hsound.keyed.increasing
    · intro fact hfact
      obtain ⟨k, hk⟩ := Dict.exists_get?_of_mem_values _ (List.mem_mergeSort.mp hfact)
      exact hsound.backed k fact hk
    all_goals simp only [hsound.keyed.mem_sorted]
    · rw [Readings.contains_kycFacts (by decide), Readings.contains_kycFacts (by decide)]
      intro hboth
      exact kyc_exclusive hboth.1 hboth.2 (hcustomer _ (by decide)) (hcustomer _ (by decide))
    · rw [Readings.contains_customerFacts (by decide), Readings.contains_customerFacts (by decide)]
      intro howner
      exact business_of_beneficialOwner howner (hrule _ (by decide))
    · rw [Readings.contains_ruleFacts (by decide), Readings.contains_ruleFacts (by decide),
        Readings.contains_ruleFacts (by decide)]
      exact enhanced_iff fun _ _ => rfl

end Derived

/-- From an alert, a customer profile and any further items, in which the amounts and the turnover
are finite decimals, well-formed facts are derived. The causal transactions of an alert are a list,
as the schema of alerts has it. -/
theorem derived_wellFormed (py : PyBuiltins) (evidence : List EvidenceItem)
    (hzero : py.decimal "0" = some (.finite 0))
    (halert : itemsOfType evidence "alert" ≠ [])
    (hcustomer : itemsOfType evidence "customer_profile" ≠ [])
    (hcausal : ∀ item ∈ itemsOfType evidence "alert", item.NamesCausal)
    (hturnover : ∀ item ∈ itemsOfType evidence "customer_profile",
      item.FiniteAt py "expected_monthly_turnover")
    (hamounts : ∀ item ∈ itemsOfType evidence "transaction", item.FiniteAt py "amount") :
    ∃ facts, derivePolicyApplicabilityFacts py evidence = .ok facts ∧
      WellFormedFacts evidence facts := by
  obtain ⟨alert, alerts, halert⟩ := List.exists_cons_of_ne_nil halert
  obtain ⟨customer, customers, hcustomer⟩ := List.exists_cons_of_ne_nil hcustomer
  have hread : ∃ r, readings py evidence = .ok r := by
    apply readings_ok hzero
    · exact ⟨alert, by rw [halert]; rfl, hcausal alert (by rw [halert]; exact List.mem_cons_self)⟩
    · exact ⟨customer, by rw [hcustomer]; rfl,
        hturnover customer (by rw [hcustomer]; exact List.mem_cons_self)⟩
    · exact hamounts
  obtain ⟨r, hread⟩ := hread
  have hderived : ∃ facts, derivePolicyApplicabilityFacts py evidence = .ok facts := by
    rw [derive_eq, hread]
    exact ⟨_, rfl⟩
  obtain ⟨facts, hfacts⟩ := hderived
  exact ⟨facts, hfacts, wellFormed_of_derived hfacts⟩

/-- Built-in functions that suffice for the sample case. -/
def caseBuiltins : PyBuiltins where
  number _ := "0"
  lower := id
  decimal s :=
    if s = "0" then some (.finite 0)
    else if s = "10000" then some (.finite 10000)
    else if s = "15000" then some (.finite 15000)
    else none
  number_visible := sampleBuiltins.number_visible

/-- A rapid movement of funds by a business customer. -/
def rapidEvidence : List EvidenceItem :=
  [{ sampleItem "alert" [("rule_id", .string "RAPID_FUNDS_MOVEMENT"),
        ("causal_transaction_ids", .array [.string "TX-1"])] with
      evidenceId := "ALERT-1", evidenceId_length := by decide },
    { sampleItem "customer_profile" [("customer_type", .string "business"),
        ("risk_level", .string "high"), ("expected_monthly_turnover", .string "10000")] with
      evidenceId := "CUSTOMER-1", evidenceId_length := by decide },
    { sampleItem "kyc_profile" [("status", .string "current"), ("purpose", .string "trade")] with
      evidenceId := "KYC-1", evidenceId_length := by decide },
    { sampleItem "transaction" [("amount", .string "15000")] with
      evidenceId := "TX-1", evidenceId_length := by decide }]

/-- Well-formed facts are derived from the rapid movement. -/
theorem derived_wellFormed_rapid :
    ∃ facts, derivePolicyApplicabilityFacts caseBuiltins rapidEvidence = .ok facts ∧
      WellFormedFacts rapidEvidence facts := by
  apply derived_wellFormed caseBuiltins rapidEvidence
  · rfl
  · decide
  · decide
  · intro item hitem
    rw [show itemsOfType rapidEvidence "alert" = [_] from rfl, List.mem_singleton] at hitem
    subst hitem
    exact ⟨_, rfl⟩
  · intro item hitem value hvalue
    rw [show itemsOfType rapidEvidence "customer_profile" = [_] from rfl, List.mem_singleton] at hitem
    subst hitem
    cases hvalue
    exact ⟨10000, rfl⟩
  · intro item hitem value hvalue
    rw [show itemsOfType rapidEvidence "transaction" = [_] from rfl, List.mem_singleton] at hitem
    subst hitem
    cases hvalue
    exact ⟨15000, rfl⟩

end Amlguard
