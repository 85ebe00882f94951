import Amlguard.Simulation.InjectedPatterns

/-!
# The verification of injected alerts

An injection returns exactly when the transactions can be made, the expected rule is triggered by them,
the KYC record that is to be changed exists, and `json.dumps` accepts the facts. The bank has been changed
by the time that anything but the first of these fails.

The rules that are reported to have fired are the expected one. The others are not run; on what is
injected, the rule for sampled variance always fires as well.
-/

namespace Amlguard.Simulation

open Rounding (ten)

section Steps

variable {env : InjectionEnvironment} {bank : SyntheticBank} {scenario : ScenarioDefinition}

/-- The customer is chosen and has enough accounts. -/
def Chooses (env : InjectionEnvironment) (bank : SyntheticBank) (scenario : ScenarioDefinition)
    (customer : SyntheticCustomer) : Prop :=
  chosenCustomer env bank scenario = some customer ∧
    scenario.pattern.preconditions.minimumAccounts ≤ (accountsOf bank customer.customerId).length

/-- What is prepared is for the chosen customer and has the shape of the family. -/
theorem prepare_eq_ok {customer : SyntheticCustomer} {injected : List SyntheticTransaction}
    (h : prepare env bank scenario = .ok (customer, injected)) :
    Chooses env bank scenario customer ∧ Buildable scenario ∧
      Shape scenario customer.customerId injected := by
  obtain ⟨chosen, hchosen, h⟩ := bind_eq_ok.mp h
  obtain ⟨_, hcount, h⟩ := bind_eq_ok.mp h
  obtain ⟨account, _, h⟩ := bind_eq_ok.mp h
  obtain ⟨made, hmade, h⟩ := bind_eq_ok.mp h
  cases h
  exact ⟨⟨orRaise_eq_ok.mp hchosen, not_lt.mp (raiseIf_eq_ok.mp hcount)⟩, familyTransactions_eq_ok hmade⟩

/-- The transactions are prepared for a chosen customer when they can be made. -/
theorem exists_prepare {customer : SyntheticCustomer} (hchooses : Chooses env bank scenario customer)
    (hbuildable : Buildable scenario) :
    ∃ injected, prepare env bank scenario = .ok (customer, injected) := by
  have hpos := scenario.pattern.preconditions.minimumAccounts_pos.trans hchooses.2
  cases haccounts : accountsOf bank customer.customerId with
  | nil =>
    rw [haccounts] at hpos
    cases hpos
  | cons account rest =>
    obtain ⟨injected, hinjected⟩ :=
      @exists_familyTransactions scenario customer.customerId account.accountId hbuildable
    refine ⟨injected, ?_⟩
    rw [prepare, hchooses.1, orRaise, ok_bind]
    dsimp only
    rw [(raiseIf_eq_ok (u := ())).mpr (not_lt.mpr hchooses.2), ok_bind, haccounts]
    simp only [List.head?_cons, orRaise, ok_bind, hinjected]
    rfl

/-- A rule gives alerts of its own ID. -/
theorem ruleId_of_fires {ruleId customerId : String} {rule : AlertRule}
    (hrule : rules.lookup ruleId = some rule) {injected : List SyntheticTransaction}
    {alert : SyntheticAlert} (h : rule customerId injected = .ok (some alert)) :
    alert.ruleId = ruleId := by
  obtain ⟨rfl, rfl⟩ | ⟨rfl, rfl⟩ | ⟨rfl, rfl⟩ := rule_of_lookup hrule
  · unfold expectedActivityVariance at h
    split at h
    · cases h
    · obtain ⟨createdAt, _, h⟩ := bind_eq_ok.mp h
      cases h
      rfl
  · obtain ⟨_, _, hlook⟩ := Search.exists_of_firstHit h
    obtain ⟨_, _, _, _, rfl⟩ := drainedAlert_eq_some (rapidMovement_eq_some hlook).2.2
    rfl
  · obtain ⟨_, _, _, hwindow⟩ := exists_window_of_fires h
    obtain ⟨_, _, rfl⟩ := windowAlert_eq_some.mp hwindow
    rfl

/-- The expected alert is that of the expected rule, which is the only one that is reported. -/
theorem verifyAlert_eq_ok {customerId : String} {injected : List SyntheticTransaction}
    {expectedAlert : SyntheticAlert} {fired : List String}
    (h : verifyAlert scenario customerId injected = .ok (expectedAlert, fired)) :
    (∃ rule, rules.lookup scenario.expectedAlert.ruleId = some rule ∧
      RuleFires rule customerId injected) ∧
      expectedAlert.alertId = "ALT-" ++ scenario.scenarioId ∧
      fired = [scenario.expectedAlert.ruleId] := by
  obtain ⟨rule, hrule, h⟩ := bind_eq_ok.mp h
  obtain ⟨result, hresult, h⟩ := bind_eq_ok.mp h
  obtain ⟨alert, halert, h⟩ := bind_eq_ok.mp h
  obtain ⟨_, _, h⟩ := bind_eq_ok.mp h
  cases h
  rw [orRaise_eq_ok] at hrule halert
  subst halert
  have hid : alert.ruleId = scenario.expectedAlert.ruleId := ruleId_of_fires hrule hresult
  exact ⟨⟨rule, hrule, alert, hresult⟩, rfl, congrArg (fun id => [id]) hid⟩

/-- The expected alert is verified when the scenario triggers the expected rule. -/
theorem exists_verifyAlert_iff {customerId : String} {injected : List SyntheticTransaction}
    (hshape : Shape scenario customerId injected) :
    (∃ verified, verifyAlert scenario customerId injected = .ok verified) ↔
      Triggers scenario scenario.expectedAlert.ruleId := by
  constructor
  · intro ⟨⟨expectedAlert, fired⟩, h⟩
    obtain ⟨⟨rule, hrule, hfires⟩, _⟩ := verifyAlert_eq_ok h
    exact (ruleFires_iff_triggers hshape hrule).mp hfires
  · intro htriggers
    obtain ⟨rule, hrule⟩ := exists_rule_of_triggers htriggers
    obtain ⟨alert, halert⟩ := (ruleFires_iff_triggers hshape hrule).mpr htriggers
    have hid := ruleId_of_fires hrule halert
    refine ⟨({ alert with alertId := "ALT-" ++ scenario.scenarioId }, [alert.ruleId]), ?_⟩
    simp only [verifyAlert, hrule, orRaise, ok_bind, halert]
    rw [(raiseIf_eq_ok (u := ())).mpr (by simp [hid]), ok_bind]
    rfl

/-- The KYC record can be changed when there is one. -/
theorem exists_injectKyc_iff {customerId : String} {kycRecords : List SyntheticKYC} :
    (∃ changed, injectKyc scenario customerId kycRecords = .ok changed) ↔
      (ChangesKyc scenario → ∃ item ∈ kycRecords, item.customerId = customerId) := by
  unfold injectKyc
  by_cases hchanges : ChangesKyc scenario
  · rw [if_pos hchanges]
    simp only [hchanges, true_imp_iff]
    cases hindex : kycRecords.findIdx? fun item => item.customerId = customerId with
    | none =>
      rw [List.findIdx?_eq_none_iff] at hindex
      apply iff_of_false
      · exact fun ⟨_, h⟩ => nomatch h
      · intro ⟨item, hitem, hsame⟩
        simpa [hsame] using hindex item hitem
    | some index =>
      obtain ⟨hlt, hfound, _⟩ := List.findIdx?_eq_some_iff_getElem.mp hindex
      dsimp only
      rw [List.getElem?_eq_getElem hlt]
      exact iff_of_true ⟨_, rfl⟩ ⟨_, List.getElem_mem hlt, of_decide_eq_true hfound⟩
  · simp [hchanges]

/-- The facts of a scenario are accepted by `json.dumps`. -/
def Serialisable (env : InjectionEnvironment) (scenario : ScenarioDefinition) : Prop :=
  (∃ document, env.jsonValue scenario.hiddenFacts = .ok document) ∧
    ∃ document, env.jsonValue scenario.visibleFacts = .ok document

/-- The result is made when the facts are accepted. -/
theorem exists_injectionResult_iff {customerId : String} {records : List InjectedRecord}
    {expectedAlert : SyntheticAlert} {fired : List String} :
    (∃ result, injectionResult env scenario customerId records expectedAlert fired = .ok result) ↔
      Serialisable env scenario := by
  constructor
  · intro ⟨result, h⟩
    obtain ⟨hidden, hhidden, h⟩ := bind_eq_ok.mp h
    obtain ⟨visible, hvisible, _⟩ := bind_eq_ok.mp h
    exact ⟨⟨hidden, hhidden⟩, visible, hvisible⟩
  · intro ⟨⟨hidden, hhidden⟩, visible, hvisible⟩
    simp only [injectionResult, hhidden, hvisible, ok_bind]
    exact ⟨_, rfl⟩

end Steps

section Outcomes

variable {env : InjectionEnvironment} {bank bank' : SyntheticBank} {scenario : ScenarioDefinition}
  {result : InjectionResult}

/-- The stages of a call that returns, and the bank that it leaves. -/
structure Injects (env : InjectionEnvironment) (bank : SyntheticBank) (scenario : ScenarioDefinition)
    (result : InjectionResult) (bank' : SyntheticBank) (customer : SyntheticCustomer)
    (injected : List SyntheticTransaction) (expectedAlert : SyntheticAlert)
    (kycChange : List InjectedRecord) : Prop where
  prepares : prepare env bank scenario = .ok (customer, injected)
  verifies : verifyAlert scenario customer.customerId injected =
    .ok (expectedAlert, result.firedRuleIds)
  changesKyc : injectKyc scenario customer.customerId bank.kycRecords = .ok (bank'.kycRecords, kycChange)
  customerId : result.customerId = customer.customerId
  records : result.injectedRecords = transactionRecords scenario injected ++ kycChange
  hiddenAlert : result.hiddenGroundTruth.expectedAlert = expectedAlert
  serialisable : Serialisable env scenario
  customers : bank'.customers = bank.customers
  accounts : bank'.accounts = bank.accounts
  transactions : bank'.transactions = bank.transactions ++ injected
  alerts : bank'.alerts = bank.alerts ++ [expectedAlert]

/-- A call that returns has gone through all stages. -/
theorem inject_eq_ok (h : inject env bank scenario = (.ok result, bank')) :
    ∃ customer injected expectedAlert kycChange,
      Injects env bank scenario result bank' customer injected expectedAlert kycChange := by
  unfold inject at h
  split at h
  · cases (Prod.mk.inj h).1
  · rename_i customer injected hprepare
    dsimp only at h
    split at h
    · cases (Prod.mk.inj h).1
    · rename_i expectedAlert fired hverify
      split at h
      · cases (Prod.mk.inj h).1
      · rename_i kycRecords kycChange hkyc
        obtain ⟨hresult, hbank⟩ := Prod.mk.inj h
        have hserialisable := exists_injectionResult_iff.mp ⟨_, hresult⟩
        obtain ⟨hidden, _, hresult⟩ := bind_eq_ok.mp hresult
        obtain ⟨visible, _, hresult⟩ := bind_eq_ok.mp hresult
        cases hresult
        subst hbank
        exact ⟨customer, injected, expectedAlert, kycChange, hprepare, hverify, hkyc, rfl, rfl, rfl,
          hserialisable, rfl, rfl, rfl, rfl⟩

/-- Once the transactions are prepared, the expected rule is triggered, a KYC record that is to be changed
exists, and the facts are accepted. -/
def Completes (env : InjectionEnvironment) (bank : SyntheticBank) (scenario : ScenarioDefinition)
    (customer : SyntheticCustomer) : Prop :=
  Triggers scenario scenario.expectedAlert.ruleId ∧
    (ChangesKyc scenario → ∃ item ∈ bank.kycRecords, item.customerId = customer.customerId) ∧
    Serialisable env scenario

/-- A prepared call returns when it can be completed. Otherwise it raises, with the transactions in the
bank. -/
theorem inject_of_prepare {customer : SyntheticCustomer} {injected : List SyntheticTransaction}
    (hprepare : prepare env bank scenario = .ok (customer, injected)) :
    (Completes env bank scenario customer ∧ ∃ result bank', inject env bank scenario = (.ok result, bank')) ∨
      (¬Completes env bank scenario customer ∧ ∃ e bank', inject env bank scenario = (.error e, bank') ∧
        bank'.transactions = bank.transactions ++ injected) := by
  obtain ⟨_, _, hshape⟩ := prepare_eq_ok hprepare
  have hverify := exists_verifyAlert_iff hshape
  have hkyc := @exists_injectKyc_iff scenario customer.customerId bank.kycRecords
  unfold inject Completes
  rw [hprepare, ← hverify, ← hkyc]
  dsimp only
  cases hverified : verifyAlert scenario customer.customerId injected with
  | error e => exact .inr ⟨fun h => (nomatch h.1.choose_spec), e, _, rfl, rfl⟩
  | ok verified =>
    dsimp only
    cases hchanged : injectKyc scenario customer.customerId bank.kycRecords with
    | error e => exact .inr ⟨fun h => (nomatch h.2.1.choose_spec), e, _, rfl, rfl⟩
    | ok changed =>
      dsimp only
      rw [← @exists_injectionResult_iff env scenario customer.customerId
        (transactionRecords scenario injected ++ changed.2) verified.1 verified.2]
      cases hresult : injectionResult env scenario customer.customerId
        (transactionRecords scenario injected ++ changed.2) verified.1 verified.2 with
      | error e => exact .inr ⟨fun h => (nomatch h.2.2.choose_spec), e, _, rfl, rfl⟩
      | ok result => exact .inl ⟨⟨⟨_, rfl⟩, ⟨_, rfl⟩, _, rfl⟩, result, _, rfl⟩

end Outcomes

section Sample

/-- The choice among the customers of the sample bank. -/
def sampleEnvironment : InjectionEnvironment where
  choice _ _ := 0
  jsonValue _ := .ok (.object [])
  digest _ _ _ _ := "digest"
  choice_lt _ _ h := h

/-- The families of the sample scenarios. -/
def sampleFamilies : List String :=
  ["ordinary", "rapid_funds_movement", "missing_kyc", "contradictory_records"]

/-- A scenario of a family that expects a rule. -/
def sampleScenario (family ruleId : String) (scenarioId : String := "DEV-001") : ScenarioDefinition where
  scenarioId
  seed := 20260811
  visibleFacts := []
  hiddenFacts := []
  pattern := { family }
  expectedAlert := { ruleId }

variable {family ruleId scenarioId : String}

/-- The amount of a sample scenario is the default of its family. -/
theorem amountOr_sample (default : ℕ) :
    (amountOr (sampleScenario family ruleId scenarioId) default).value = default :=
  Decimal.value_ofNat default

/-- The transactions of a sample scenario can be made. -/
theorem buildable_sample (hfamily : family ∈ sampleFamilies) :
    Buildable (sampleScenario family ruleId scenarioId) := by
  have hwhole : ∀ n : ℕ, 0 < n → n < 10 ^ 26 → ValidAmount n := fun n => validAmount_natCast
  have hvalid : ∀ default : ℕ, 0 < default → default < 10 ^ 26 →
      ValidAmount (amountOr (sampleScenario family ruleId scenarioId) default).value := by
    intro default hpos hshort
    rw [amountOr_sample]
    exact hwhole default hpos hshort
  simp only [sampleFamilies, List.mem_cons, List.not_mem_nil, or_false] at hfamily
  obtain rfl | rfl | rfl | rfl := hfamily
  · exact .inr (.inr ⟨.inl rfl, hvalid 250 (by decide) (by decide)⟩)
  · refine .inl ⟨rfl, hvalid 15000 (by decide) (by decide), ?_⟩
    have hthird : third 15000 = (5000 : ℕ) := by
      have hshort : decimalContext.Representable 5000 :=
        ⟨5000, 0, by decide, by decide, by norm_num [ten]⟩
      rw [third, show (15000 : ℚ) / 3 = 5000 by norm_num, hshort.nearest_eq]
      norm_num
    rw [amountOr_sample, Nat.cast_ofNat, hthird]
    exact hwhole 5000 (by decide) (by decide)
  · exact .inr (.inr ⟨.inr (by simp [sampleScenario, conditionFamilies]),
      hvalid 250 (by decide) (by decide)⟩)
  · exact .inr (.inr ⟨.inr (by simp [sampleScenario, conditionFamilies]),
      hvalid 250 (by decide) (by decide)⟩)

/-- The transactions of a sample scenario are prepared for the customer of the sample bank, whatever the
bank holds besides. -/
theorem exists_prepare_sample {bank : SyntheticBank} (hcustomers : bank.customers = sampleBank.customers)
    (haccounts : bank.accounts = sampleBank.accounts) (hfamily : family ∈ sampleFamilies) :
    ∃ customer injected, customer.customerId = "CUS-000001" ∧
      prepare sampleEnvironment bank (sampleScenario family ruleId scenarioId) =
        .ok (customer, injected) := by
  let customer : SyntheticCustomer := ⟨"CUS-000001", "business", "SYN-A", "FR", "retail", .ofNat 4000, "low"⟩
  have hchooses : Chooses sampleEnvironment bank (sampleScenario family ruleId scenarioId) customer := by
    unfold Chooses chosenCustomer candidates accountsOf
    rw [hcustomers, haccounts]
    exact ⟨rfl, le_rfl⟩
  obtain ⟨injected, hprepare⟩ := exists_prepare hchooses (buildable_sample hfamily)
  exact ⟨customer, injected, rfl, hprepare⟩

/-- A sample scenario that triggers its rule is injected. -/
theorem exists_inject_sample {bank : SyntheticBank} (hcustomers : bank.customers = sampleBank.customers)
    (haccounts : bank.accounts = sampleBank.accounts)
    (hkyc : ∃ item ∈ bank.kycRecords, item.customerId = "CUS-000001")
    (hfamily : family ∈ sampleFamilies)
    (htriggers : Triggers (sampleScenario family ruleId scenarioId) ruleId) :
    ∃ result bank', inject sampleEnvironment bank (sampleScenario family ruleId scenarioId) =
      (.ok result, bank') := by
  obtain ⟨customer, injected, hid, hprepare⟩ :=
    @exists_prepare_sample family ruleId scenarioId _ hcustomers haccounts hfamily
  obtain ⟨_, hreturned⟩ | ⟨hnot, _⟩ := inject_of_prepare hprepare
  · exact hreturned
  · apply absurd _ hnot
    exact ⟨htriggers, fun _ => hid.symm ▸ hkyc, ⟨_, rfl⟩, _, rfl⟩

/-- There is a KYC record of the customer in the sample bank. -/
theorem exists_kyc_sample : ∃ item ∈ sampleBank.kycRecords, item.customerId = "CUS-000001" :=
  ⟨_, List.mem_singleton.mpr rfl, rfl⟩

end Sample

section Failure

variable (env : InjectionEnvironment) (bank : SyntheticBank) (scenario : ScenarioDefinition)

/-- When `inject` raises, the transactions, the alerts and the KYC records are what they were. -/
def Intact : Prop :=
  ∀ e bank', inject env bank scenario = (.error e, bank') →
    bank'.transactions = bank.transactions ∧ bank'.alerts = bank.alerts ∧
      bank'.kycRecords = bank.kycRecords

/-- A failed injection leaves the bank intact exactly when no customer with enough accounts is chosen, or
the transactions cannot be made, or else nothing can fail after that. -/
theorem intact_iff :
    Intact env bank scenario ↔
      ∀ customer, Chooses env bank scenario customer → Buildable scenario →
        Completes env bank scenario customer := by
  constructor
  · intro hintact customer hchooses hbuildable
    obtain ⟨injected, hprepare⟩ := exists_prepare hchooses hbuildable
    obtain ⟨hcompletes, _⟩ | ⟨_, e, bank', hraised, htransactions⟩ := inject_of_prepare hprepare
    · exact hcompletes
    · have hsame := (hintact e bank' hraised).1
      rw [htransactions] at hsame
      exact absurd (List.append_right_eq_self.mp hsame) (prepare_eq_ok hprepare).2.2.ne_nil
  · intro h e bank' hraised
    cases hprepare : prepare env bank scenario with
    | error e' =>
      rw [inject, hprepare] at hraised
      cases hraised
      exact ⟨rfl, rfl, rfl⟩
    | ok prepared =>
      obtain ⟨hchooses, hbuildable, _⟩ := prepare_eq_ok hprepare
      obtain ⟨_, result, bank'', hreturned⟩ | ⟨hnot, _⟩ := inject_of_prepare hprepare
      · rw [hreturned] at hraised
        cases (Prod.mk.inj hraised).1
      · exact absurd (h prepared.1 hchooses hbuildable) hnot

/-- With an unknown rule the transactions have been put into the bank when the call raises. -/
theorem not_intact_unknown_rule :
    ¬∀ (env : InjectionEnvironment) (bank : SyntheticBank) (scenario : ScenarioDefinition),
      Intact env bank scenario := by
  intro h
  have hintact := h sampleEnvironment sampleBank (sampleScenario "ordinary" "UNKNOWN")
  obtain ⟨customer, injected, _, hprepare⟩ :=
    @exists_prepare_sample "ordinary" "UNKNOWN" "DEV-001" sampleBank rfl rfl (by decide)
  obtain ⟨⟨htriggers, _⟩, _⟩ | ⟨_, e, bank', hraised, htransactions⟩ := inject_of_prepare hprepare
  · simp [Triggers, sampleScenario] at htriggers
  · have hsame := (hintact e bank' hraised).1
    rw [htransactions] at hsame
    exact absurd (List.append_right_eq_self.mp hsame) (prepare_eq_ok hprepare).2.2.ne_nil

end Failure

section Companions

variable {env : InjectionEnvironment} {bank bank' : SyntheticBank} {scenario : ScenarioDefinition}
  {result : InjectionResult}

/-- The transactions that a call has put into the bank. -/
def injectedInto (bank bank' : SyntheticBank) : List SyntheticTransaction :=
  bank'.transactions.drop bank.transactions.length

/-- Every rule that fires for the customer on the injected transactions is expected or allowed, and the
rules that are reported are those that fire. -/
structure Unaccompanied (scenario : ScenarioDefinition) (result : InjectionResult)
    (injected : List SyntheticTransaction) : Prop where
  expected : ∀ ruleId rule, rules.lookup ruleId = some rule →
    RuleFires rule result.customerId injected →
      ruleId = scenario.expectedAlert.ruleId ∨ ruleId ∈ scenario.expectedAlert.allowedAdditionalRuleIds
  reported : ∀ ruleId, ruleId ∈ result.firedRuleIds ↔
    ∃ rule, rules.lookup ruleId = some rule ∧ RuleFires rule result.customerId injected

/-- The alert of a call that returns is unaccompanied exactly when the scenario expects the rule for
sampled variance and triggers neither of the others. -/
theorem unaccompanied_iff (h : inject env bank scenario = (.ok result, bank')) :
    Unaccompanied scenario result (injectedInto bank bank') ↔
      scenario.expectedAlert.ruleId = "EXPECTED_ACTIVITY_VARIANCE" ∧
        ¬Triggers scenario "RAPID_FUNDS_MOVEMENT" ∧
        ¬Triggers scenario "STRUCTURING_LIKE_REPEATED_CREDITS" := by
  obtain ⟨customer, injected, expectedAlert, kycChange, hinjects⟩ := inject_eq_ok h
  obtain ⟨_, _, hshape⟩ := prepare_eq_ok hinjects.prepares
  obtain ⟨_, _, hfired⟩ := verifyAlert_eq_ok hinjects.verifies
  have hinjected : injectedInto bank bank' = injected := by
    rw [injectedInto, hinjects.transactions, List.drop_left]
  have hfires : ∀ ruleId, (∃ rule, rules.lookup ruleId = some rule ∧
      RuleFires rule customer.customerId injected) ↔ Triggers scenario ruleId := by
    intro ruleId
    constructor
    · intro ⟨rule, hrule, hfires⟩
      exact (ruleFires_iff_triggers hshape hrule).mp hfires
    · intro htriggers
      obtain ⟨rule, hrule⟩ := exists_rule_of_triggers htriggers
      exact ⟨rule, hrule, (ruleFires_iff_triggers hshape hrule).mpr htriggers⟩
  rw [hinjected]
  constructor
  · intro hclaim
    have hreported := hclaim.reported
    rw [hinjects.customerId, hfired] at hreported
    simp only [hfires, List.mem_singleton] at hreported
    have hvariance : "EXPECTED_ACTIVITY_VARIANCE" = scenario.expectedAlert.ruleId :=
      (hreported _).mpr (.inl rfl)
    rw [← hvariance] at hreported ⊢
    exact ⟨rfl, fun hrapid => absurd ((hreported _).mpr hrapid) (by decide),
      fun hstructuring => absurd ((hreported _).mpr hstructuring) (by decide)⟩
  · intro ⟨hvariance, hrapid, hstructuring⟩
    have honly : ∀ ruleId, Triggers scenario ruleId ↔ ruleId = scenario.expectedAlert.ruleId := by
      intro ruleId
      rw [hvariance]
      constructor
      · intro htriggers
        obtain hsame | ⟨hsame, hrest⟩ | ⟨hsame, hrest⟩ := htriggers
        · exact hsame
        · exact absurd (.inr (.inl ⟨rfl, hrest⟩)) hrapid
        · exact absurd (.inr (.inr ⟨rfl, hrest⟩)) hstructuring
      · exact .inl
    constructor
    · intro ruleId rule hrule hrulefires
      rw [hinjects.customerId] at hrulefires
      exact .inl ((honly ruleId).mp ((hfires ruleId).mp ⟨rule, hrule, hrulefires⟩))
    · intro ruleId
      rw [hinjects.customerId, hfires, honly, hfired, List.mem_singleton]

/-- An ordinary transaction triggers the rule for sampled variance alone. -/
theorem unaccompanied_ordinary : ∃ result bank',
    inject sampleEnvironment sampleBank (sampleScenario "ordinary" "EXPECTED_ACTIVITY_VARIANCE") =
      (.ok result, bank') ∧
    Unaccompanied (sampleScenario "ordinary" "EXPECTED_ACTIVITY_VARIANCE") result
      (injectedInto sampleBank bank') := by
  obtain ⟨result, bank', hreturned⟩ :=
    @exists_inject_sample "ordinary" "EXPECTED_ACTIVITY_VARIANCE" "DEV-001" sampleBank rfl rfl
      exists_kyc_sample (by decide) (.inl rfl)
  refine ⟨result, bank', hreturned, (unaccompanied_iff hreturned).mpr ⟨rfl, ?_, ?_⟩⟩
  · simp [Triggers, sampleScenario, conditionFamilies]
  · simp [Triggers, sampleScenario]

/-- A rapid movement is reported alone, though the rule for sampled variance fires on it too. -/
theorem accompanied_rapid :
    ¬∀ (env : InjectionEnvironment) (bank bank' : SyntheticBank) (scenario : ScenarioDefinition)
      (result : InjectionResult), inject env bank scenario = (.ok result, bank') →
        Unaccompanied scenario result (injectedInto bank bank') := by
  intro h
  have hlarge : 5000 ≤ cents (amountOr
      (sampleScenario "rapid_funds_movement" "RAPID_FUNDS_MOVEMENT") 15000).value := by
    rw [amountOr_sample, cents_natCast]
    norm_num
  obtain ⟨result, bank', hreturned⟩ :=
    @exists_inject_sample "rapid_funds_movement" "RAPID_FUNDS_MOVEMENT" "DEV-001" sampleBank rfl rfl
      exists_kyc_sample (by decide) (.inr (.inl ⟨rfl, .inr ⟨rfl, hlarge⟩⟩))
  have hclaim := h _ _ _ _ _ hreturned
  obtain ⟨customer, injected, expectedAlert, kycChange, hinjects⟩ := inject_eq_ok hreturned
  obtain ⟨_, _, hshape⟩ := prepare_eq_ok hinjects.prepares
  obtain ⟨_, _, hfired⟩ := verifyAlert_eq_ok hinjects.verifies
  have hinjected : injectedInto sampleBank bank' = injected := by
    rw [injectedInto, hinjects.transactions, List.drop_left]
  have hvariance := (hclaim.reported "EXPECTED_ACTIVITY_VARIANCE").mpr
    ⟨_, rfl, hinjects.customerId ▸ hinjected ▸ variance_fires hshape⟩
  rw [hfired] at hvariance
  exact absurd hvariance (by decide)

end Companions

end Amlguard.Simulation
