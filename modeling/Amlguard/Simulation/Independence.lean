import Amlguard.Library.Transitions
import Amlguard.Simulation.Verification

/-!
# Scenarios in one bank

A sequence of injections adds transactions and alerts to the bank, and the records that it listed stay
there. A KYC record is not added but changed. When a missing record and a contradictory one are injected
for the same customer, the one that comes last replaces the other.
-/

namespace Amlguard.Simulation

section Records

/-- The KYC record of a customer: the first one in the list, which is the one that is read. -/
def kycOf (kycRecords : List SyntheticKYC) (customerId : String) : Option SyntheticKYC :=
  kycRecords.find? fun item => item.customerId = customerId

/-- To replace the first record of a customer changes the record of no other customer. -/
theorem kycOf_set {kycRecords : List SyntheticKYC} {customerId : String} {index : ℕ}
    (hindex : (kycRecords.findIdx? fun item => item.customerId = customerId) = some index)
    {kyc : SyntheticKYC} (hkyc : kyc.customerId = customerId) (other : String) :
    kycOf (kycRecords.set index kyc) other =
      if other = customerId then some kyc else kycOf kycRecords other := by
  unfold kycOf
  induction kycRecords generalizing index with
  | nil => cases hindex
  | cons item rest ih =>
    rw [List.findIdx?_cons] at hindex
    by_cases hitem : item.customerId = customerId
    · rw [if_pos (decide_eq_true hitem)] at hindex
      cases hindex
      rw [List.set_cons_zero, List.find?_cons, List.find?_cons, hkyc, hitem]
      by_cases hother : other = customerId
      · simp [hother]
      · simp [hother, Ne.symm hother]
    · rw [if_neg (by simpa using hitem), Option.map_eq_some_iff] at hindex
      obtain ⟨next, hnext, rfl⟩ := hindex
      rw [List.set_cons_succ, List.find?_cons, List.find?_cons, ih hnext]
      by_cases hother : other = customerId
      · simp [hother, hitem]
      · simp [hother]

variable {scenario : ScenarioDefinition} {customerId : String} {kycRecords kycRecords' : List SyntheticKYC}
  {kycChange : List InjectedRecord}

/-- A family that does not change the KYC record leaves the records as they are. -/
theorem injectKyc_unchanged (hchanges : ¬ChangesKyc scenario)
    (h : injectKyc scenario customerId kycRecords = .ok (kycRecords', kycChange)) :
    kycRecords' = kycRecords ∧ kycChange = [] := by
  rw [injectKyc, if_neg hchanges] at h
  cases h
  exact ⟨rfl, rfl⟩

/-- A family that changes the KYC record changes that of the customer alone. -/
theorem injectKyc_changed (hchanges : ChangesKyc scenario)
    (h : injectKyc scenario customerId kycRecords = .ok (kycRecords', kycChange)) :
    ∃ current, kycOf kycRecords customerId = some current ∧
      (kycChange.map fun record => (record.recordId, record.recordType)) = [(current.kycId, "kyc")] ∧
      ∀ other, kycOf kycRecords' other =
        if other = customerId then some (injectedKyc scenario current) else kycOf kycRecords other := by
  rw [injectKyc, if_pos hchanges] at h
  split at h
  · cases h
  · rename_i index hindex
    split at h
    · cases h
    · rename_i current hcurrent
      cases h
      have hfound : (kycRecords.find? fun item => item.customerId = customerId) = some current := by
        rw [List.find?_eq_bind_findIdx?_getElem?, hindex]
        exact hcurrent
      have hid : current.customerId = customerId := by simpa using List.find?_some hfound
      exact ⟨current, hfound, rfl, kycOf_set hindex hid⟩

/-- The change of a KYC record is listed as one. -/
theorem recordType_of_injectKyc (h : injectKyc scenario customerId kycRecords = .ok (kycRecords', kycChange))
    {record : InjectedRecord} (hrecord : record ∈ kycChange) : record.recordType = "kyc" := by
  by_cases hchanges : ChangesKyc scenario
  · obtain ⟨current, _, hchange, _⟩ := injectKyc_changed hchanges h
    have hlisted := List.mem_map_of_mem (f := fun record : InjectedRecord =>
      (record.recordId, record.recordType)) hrecord
    rw [hchange, List.mem_singleton] at hlisted
    exact congrArg Prod.snd hlisted
  · rw [(injectKyc_unchanged hchanges h).2] at hrecord
    cases hrecord

/-- A customer who has a KYC record has one after the change of another or of that. -/
theorem exists_kyc_of_injectKyc {other : String}
    (h : injectKyc scenario customerId kycRecords = .ok (kycRecords', kycChange))
    (hkyc : ∃ item ∈ kycRecords, item.customerId = other) :
    ∃ item ∈ kycRecords', item.customerId = other := by
  have hsome : ∀ records : List SyntheticKYC,
      (∃ item ∈ records, item.customerId = other) ↔ (kycOf records other).isSome := by
    intro records
    simp [kycOf]
  by_cases hchanges : ChangesKyc scenario
  · obtain ⟨current, _, _, hafter⟩ := injectKyc_changed hchanges h
    rw [hsome, hafter]
    split
    · rfl
    · exact (hsome _).mp hkyc
  · rw [(injectKyc_unchanged hchanges h).1]
    exact hkyc

/-- To inject the condition of one family twice is to inject it once. -/
theorem injectedKyc_twice {other : ScenarioDefinition}
    (hfamily : other.pattern.family = scenario.pattern.family) (current : SyntheticKYC) :
    injectedKyc other (injectedKyc scenario current) = injectedKyc scenario current := by
  unfold injectedKyc
  rw [hfamily]
  by_cases hmissing : scenario.pattern.family = "missing_kyc" <;> simp [hmissing]

/-- The conditions of the two families can be told apart. -/
theorem family_eq_of_injectedKyc {other : ScenarioDefinition} {current current' : SyntheticKYC}
    (hchanges : ChangesKyc scenario) (hother : ChangesKyc other)
    (hsame : injectedKyc scenario current = injectedKyc other current') :
    scenario.pattern.family = other.pattern.family := by
  have hstatus : (injectedKyc scenario current).status = (injectedKyc other current').status :=
    congrArg SyntheticKYC.status hsame
  unfold injectedKyc at hstatus
  obtain hmissing | hcontradictory := hchanges <;> obtain hmissing' | hcontradictory' := hother <;>
    simp_all

end Records

section Sequences

open Transitions (Run)

/-- A call that has returned, with the bank before and after it. -/
structure InjectCall where
  scenario : ScenarioDefinition
  result : InjectionResult
  before : SyntheticBank
  after : SyntheticBank

/-- A step of a sequence: a scenario is injected. -/
def Returns (env : InjectionEnvironment) (bank : SyntheticBank) (call : InjectCall) (bank' : SyntheticBank) :
    Prop :=
  call.before = bank ∧ call.after = bank' ∧ inject env bank call.scenario = (.ok call.result, bank')

/-- Every record that a call has listed is in the bank, with the content that the call has injected. -/
structure Kept (bank : SyntheticBank) (call : InjectCall) : Prop where
  transactions : ∀ record ∈ call.result.injectedRecords, record.recordType = "transaction" →
    ∃ item ∈ injectedInto call.before call.after,
      item.transactionId = record.recordId ∧ item ∈ bank.transactions
  alert : call.result.hiddenGroundTruth.expectedAlert ∈ bank.alerts
  kyc : ∀ record ∈ call.result.injectedRecords, record.recordType = "kyc" →
    ∃ current, kycOf call.before.kycRecords call.result.customerId = some current ∧
      current.kycId = record.recordId ∧
      kycOf bank.kycRecords call.result.customerId = some (injectedKyc call.scenario current)

/-- Two scenarios that change the KYC record of one customer are of one family. -/
def Compatible (env : InjectionEnvironment) (bank : SyntheticBank) (scenarios : List ScenarioDefinition) :
    Prop :=
  ∀ a ∈ scenarios, ∀ b ∈ scenarios, ChangesKyc a → ChangesKyc b →
    (chosenCustomer env bank a).map SyntheticCustomer.customerId =
      (chosenCustomer env bank b).map SyntheticCustomer.customerId →
    a.pattern.family = b.pattern.family

variable {env : InjectionEnvironment} {bank bank' bank'' : SyntheticBank} {call : InjectCall}
  {calls : List InjectCall}

/-- The customer that a call has chosen. -/
theorem Returns.chosen (h : Returns env bank call bank') :
    (chosenCustomer env bank call.scenario).map SyntheticCustomer.customerId =
      some call.result.customerId := by
  obtain ⟨customer, injected, expectedAlert, kycChange, hinjects⟩ := inject_eq_ok h.2.2
  rw [(prepare_eq_ok hinjects.prepares).1.1, hinjects.customerId]
  rfl

/-- A sequence adds to the transactions and the alerts, and leaves the customers as they are. -/
theorem run_grows (hrun : Run (Returns env) (fun _ _ => True) bank calls bank') :
    bank.transactions ⊆ bank'.transactions ∧ bank.alerts ⊆ bank'.alerts ∧
      bank'.customers = bank.customers := by
  induction hrun with
  | nil bank => exact ⟨List.Subset.refl _, List.Subset.refl _, rfl⟩
  | cons bank next bank' call rest _ hstep hrest ih =>
    obtain ⟨customer, injected, expectedAlert, kycChange, hinjects⟩ := inject_eq_ok hstep.2.2
    obtain ⟨htransactions, halerts, hcustomers⟩ := ih
    rw [hinjects.transactions] at htransactions
    rw [hinjects.alerts] at halerts
    exact ⟨fun _ h => htransactions (List.mem_append_left _ h), fun _ h => halerts (List.mem_append_left _ h),
      hcustomers.trans hinjects.customers⟩

/-- What a call does to the KYC records when its family changes them. -/
theorem Returns.changed (h : Returns env bank call bank') (hchanges : ChangesKyc call.scenario) :
    ∃ current, kycOf bank.kycRecords call.result.customerId = some current ∧
      (∃ record ∈ call.result.injectedRecords, record.recordType = "kyc") ∧
      (∀ record ∈ call.result.injectedRecords, record.recordType = "kyc" →
        current.kycId = record.recordId) ∧
      ∀ other, kycOf bank'.kycRecords other =
        if other = call.result.customerId then some (injectedKyc call.scenario current)
        else kycOf bank.kycRecords other := by
  obtain ⟨customer, injected, expectedAlert, kycChange, hinjects⟩ := inject_eq_ok h.2.2
  obtain ⟨current, hcurrent, hchange, hother⟩ := injectKyc_changed hchanges hinjects.changesKyc
  rw [hinjects.customerId, hinjects.records]
  obtain ⟨record, rfl⟩ : ∃ record, kycChange = [record] := by
    apply List.length_eq_one_iff.mp
    simpa using congrArg List.length hchange
  obtain ⟨hid, htype⟩ := Prod.mk.inj (List.singleton_inj.mp hchange)
  refine ⟨current, hcurrent, ⟨record, by simp, htype⟩, ?_, hother⟩
  intro listed hlisted hkyc
  obtain htransaction | hsame := List.mem_append.mp hlisted
  · obtain ⟨item, _, rfl⟩ := List.mem_map.mp htransaction
    exact absurd hkyc (by simp)
  · rw [List.mem_singleton.mp hsame]
    exact hid.symm

/-- The injected condition stays while the scenarios that change the record of the customer are of the
family that has injected it. -/
theorem run_keeps_kyc {scenario : ScenarioDefinition} {customerId : String} {current : SyntheticKYC}
    (hrun : Run (Returns env) (fun _ _ => True) bank calls bank')
    (hfamily : ∀ call ∈ calls, ChangesKyc call.scenario → call.result.customerId = customerId →
      call.scenario.pattern.family = scenario.pattern.family)
    (hkyc : kycOf bank.kycRecords customerId = some (injectedKyc scenario current)) :
    kycOf bank'.kycRecords customerId = some (injectedKyc scenario current) := by
  induction hrun with
  | nil bank => exact hkyc
  | cons bank next bank' call rest _ hstep hrest ih =>
    apply ih (fun later hlater => hfamily later (List.mem_cons_of_mem _ hlater))
    by_cases hchanges : ChangesKyc call.scenario
    · obtain ⟨before, hbefore, _, _, hafter⟩ := hstep.changed hchanges
      rw [hafter]
      by_cases hsame : customerId = call.result.customerId
      · have hcondition := hfamily call List.mem_cons_self hchanges hsame.symm
        rw [← hsame, hkyc] at hbefore
        cases hbefore
        rw [if_pos hsame, injectedKyc_twice hcondition]
      · rw [if_neg hsame, hkyc]
    · obtain ⟨customer, injected, expectedAlert, kycChange, hinjects⟩ := inject_eq_ok hstep.2.2
      rw [(injectKyc_unchanged hchanges hinjects.changesKyc).1, hkyc]

/-- The customer that a call of a sequence chooses can be read off the bank at its start. -/
theorem run_chosen (hrun : Run (Returns env) (fun _ _ => True) bank calls bank') (hcall : call ∈ calls) :
    (chosenCustomer env bank call.scenario).map SyntheticCustomer.customerId =
      some call.result.customerId := by
  obtain ⟨before, after, first, last, hfirst, hstep, _, _⟩ := hrun.exists_of_mem hcall
  rw [← hstep.chosen, chosenCustomer, chosenCustomer, candidates, candidates, (run_grows hfirst).2.2]

/-- Scenarios whose records are all in the bank with their content are compatible. -/
theorem compatible_of_kept (hrun : Run (Returns env) (fun _ _ => True) bank calls bank')
    (hkept : ∀ call ∈ calls, Kept bank' call) : Compatible env bank (calls.map InjectCall.scenario) := by
  have hcondition : ∀ call ∈ calls, ChangesKyc call.scenario → ∃ current,
      kycOf bank'.kycRecords call.result.customerId = some (injectedKyc call.scenario current) := by
    intro call hcall hchanges
    obtain ⟨before, after, first, last, _, hstep, _, _⟩ := hrun.exists_of_mem hcall
    obtain ⟨_, _, ⟨record, hrecord, htype⟩, _⟩ := hstep.changed hchanges
    obtain ⟨current, _, _, hcurrent⟩ := (hkept call hcall).kyc record hrecord htype
    exact ⟨current, hcurrent⟩
  intro a ha b hb hchanges hchanges' hsame
  obtain ⟨call, hcall, rfl⟩ := List.mem_map.mp ha
  obtain ⟨call', hcall', rfl⟩ := List.mem_map.mp hb
  rw [run_chosen hrun hcall, run_chosen hrun hcall', Option.some_inj] at hsame
  obtain ⟨current, hcurrent⟩ := hcondition call hcall hchanges
  obtain ⟨current', hcurrent'⟩ := hcondition call' hcall' hchanges'
  rw [hsame, hcurrent', Option.some_inj] at hcurrent
  exact family_eq_of_injectedKyc hchanges hchanges' hcurrent.symm

/-- After a sequence every record that a call has listed is in the bank with its content, exactly when the
scenarios that change the KYC record of one customer are of one family. -/
theorem kept_iff_compatible (hrun : Run (Returns env) (fun _ _ => True) bank calls bank') :
    (∀ call ∈ calls, Kept bank' call) ↔ Compatible env bank (calls.map InjectCall.scenario) := by
  constructor
  · exact compatible_of_kept hrun
  · intro hcompatible call hcall
    obtain ⟨before, after, first, last, _, hstep, hlast, rfl⟩ := hrun.exists_of_mem hcall
    obtain ⟨customer, injected, expectedAlert, kycChange, hinjects⟩ := inject_eq_ok hstep.2.2
    obtain ⟨hbefore, hafter, _⟩ := id hstep
    obtain ⟨htransactions, halerts, _⟩ := run_grows hlast
    have hlast' : ∀ later ∈ last, later ∈ first ++ call :: last := fun later h =>
      List.mem_append_right _ (List.mem_cons_of_mem _ h)
    have hinjected : injectedInto call.before call.after = injected := by
      rw [injectedInto, hbefore, hafter, hinjects.transactions, List.drop_left]
    constructor
    · intro record hrecord htype
      rw [hinjected]
      rw [hinjects.records] at hrecord
      obtain htransaction | hkyc := List.mem_append.mp hrecord
      · obtain ⟨item, hitem, rfl⟩ := List.mem_map.mp htransaction
        apply Exists.intro item
        refine ⟨hitem, rfl, htransactions ?_⟩
        rw [hinjects.transactions]
        exact List.mem_append_right _ hitem
      · rw [recordType_of_injectKyc hinjects.changesKyc hkyc] at htype
        exact absurd htype (by decide)
    · rw [hinjects.hiddenAlert]
      apply halerts
      rw [hinjects.alerts]
      exact List.mem_append_right _ (List.mem_singleton.mpr rfl)
    · intro record hrecord htype
      by_cases hchanges : ChangesKyc call.scenario
      · obtain ⟨current, hcurrent, _, hid, hkyc⟩ := hstep.changed hchanges
        rw [hbefore]
        apply Exists.intro current
        refine ⟨hcurrent, hid record hrecord htype, run_keeps_kyc hlast ?_ ?_⟩
        · intro later hlater hlaterchanges hsame
          apply hcompatible _ (List.mem_map_of_mem (hlast' later hlater)) _ (List.mem_map_of_mem hcall)
            hlaterchanges hchanges
          rw [run_chosen hrun (hlast' later hlater), run_chosen hrun hcall, hsame]
        · rw [hkyc, if_pos rfl]
      · obtain ⟨_, rfl⟩ := injectKyc_unchanged hchanges hinjects.changesKyc
        rw [hinjects.records, List.append_nil] at hrecord
        obtain ⟨item, _, rfl⟩ := List.mem_map.mp hrecord
        exact absurd htype (by simp)

/-- The sample scenarios that change the KYC record, one after the other. -/
theorem exists_run_sample {family family' : String} (hfamily : family ∈ sampleFamilies)
    (hfamily' : family' ∈ sampleFamilies) :
    ∃ calls bank', Run (Returns sampleEnvironment) (fun _ _ => True) sampleBank calls bank' ∧
      calls.map InjectCall.scenario =
        [sampleScenario family "EXPECTED_ACTIVITY_VARIANCE" "DEV-001",
          sampleScenario family' "EXPECTED_ACTIVITY_VARIANCE" "DEV-002"] := by
  obtain ⟨result, bank, hreturned⟩ :=
    @exists_inject_sample family "EXPECTED_ACTIVITY_VARIANCE" "DEV-001" sampleBank rfl rfl
      exists_kyc_sample hfamily (.inl rfl)
  obtain ⟨customer, injected, expectedAlert, kycChange, hinjects⟩ := inject_eq_ok hreturned
  have hkyc := exists_kyc_of_injectKyc hinjects.changesKyc exists_kyc_sample
  obtain ⟨result', bank', hreturned'⟩ :=
    @exists_inject_sample family' "EXPECTED_ACTIVITY_VARIANCE" "DEV-002" bank hinjects.customers
      hinjects.accounts hkyc hfamily' (.inl rfl)
  refine ⟨[⟨_, result, sampleBank, bank⟩, ⟨_, result', bank, bank'⟩], bank', ?_, rfl⟩
  exact .cons _ bank _ _ _ trivial ⟨rfl, rfl, hreturned⟩
    (.cons _ bank' _ _ _ trivial ⟨rfl, rfl, hreturned'⟩ (.nil bank'))

/-- Two scenarios of one family share the customer of the sample bank. -/
theorem kept_same_family : ∃ calls bank',
    Run (Returns sampleEnvironment) (fun _ _ => True) sampleBank calls bank' ∧ calls ≠ [] ∧
      ∀ call ∈ calls, Kept bank' call := by
  obtain ⟨calls, bank', hrun, hscenarios⟩ :=
    @exists_run_sample "missing_kyc" "missing_kyc" (by decide) (by decide)
  refine ⟨calls, bank', hrun, ?_, (kept_iff_compatible hrun).mpr ?_⟩
  · intro hnil
    rw [hnil] at hscenarios
    cases hscenarios
  · rw [hscenarios]
    simp [Compatible, sampleScenario]

/-- A contradictory record that is injected after a missing one replaces it. -/
theorem not_kept_contradictory :
    ¬∀ (env : InjectionEnvironment) (bank bank' : SyntheticBank) (calls : List InjectCall),
      Run (Returns env) (fun _ _ => True) bank calls bank' →
      (calls.map fun call => call.scenario.scenarioId).Nodup → ∀ call ∈ calls, Kept bank' call := by
  intro h
  obtain ⟨calls, bank', hrun, hscenarios⟩ :=
    @exists_run_sample "missing_kyc" "contradictory_records" (by decide) (by decide)
  have hdistinct : (calls.map fun call => call.scenario.scenarioId).Nodup := by
    have hids := congrArg (List.map ScenarioDefinition.scenarioId) hscenarios
    rw [List.map_map] at hids
    rw [show (calls.map fun call => call.scenario.scenarioId) = _ from hids]
    simp [sampleScenario]
  have hcompatible := compatible_of_kept hrun (h _ _ _ _ hrun hdistinct)
  rw [hscenarios] at hcompatible
  have hsame := hcompatible _ List.mem_cons_self _ (List.mem_cons_of_mem _ List.mem_cons_self)
    (.inl rfl) (.inr rfl) rfl
  simp [sampleScenario] at hsame

end Sequences

end Amlguard.Simulation
