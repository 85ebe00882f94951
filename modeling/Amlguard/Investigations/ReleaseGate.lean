import Amlguard.Investigations.Writes
import Amlguard.Library.Execution
import Mathlib.Data.String.Basic

/-!
# The release gate

What `validate_controls` decides, control by control and event by event, and what it leaves in the
repository and in the checkpoint when none of its calls raises.
-/

namespace Amlguard

open Awaited Prog

namespace EvidenceLedger

/-- Filling a ledger with items of distinct IDs lists them in their order. -/
theorem values_foldl (items : List EvidenceItem) (entries : Dict String EvidenceItem)
    (hdistinct : (items.map (·.evidenceId)).Nodup)
    (hnew : ∀ item ∈ items, entries.get? item.evidenceId = none) :
    (items.foldl (fun entries item => entries.set item.evidenceId item) entries).values =
      entries.values ++ items := by
  induction items generalizing entries with
  | nil => simp
  | cons item rest ih =>
    rw [List.map_cons, List.nodup_cons] at hdistinct
    rw [List.foldl_cons, ih _ hdistinct.2, Dict.values_set_of_none _ (hnew item (List.mem_cons_self ..)),
      List.append_assoc, List.singleton_append]
    intro other hother
    have hne : item.evidenceId ≠ other.evidenceId := by
      intro heq
      exact hdistinct.1 (heq ▸ List.mem_map_of_mem hother)
    rw [Dict.get?_set_ne _ hne]
    exact hnew other (List.mem_cons_of_mem _ hother)

/-- A ledger of items with distinct IDs holds them all. -/
theorem items_ofItems {items : List EvidenceItem} (hdistinct : (items.map (·.evidenceId)).Nodup) :
    (ofItems items).items = items := by
  rw [ofItems, EvidenceLedger.items, values_foldl items .empty hdistinct (fun _ _ => rfl)]
  rfl

end EvidenceLedger

/-- A sorted set is strictly sorted. -/
theorem sortedSet_pairwise (items : List String) : (sortedSet items).Pairwise (· < ·) := by
  have hsorted : (sortedSet items).Pairwise (· ≤ ·) := List.pairwise_insertionSort _ _
  have hnodup : (sortedSet items).Nodup :=
    (List.perm_insertionSort _ _).nodup_iff.mpr (List.nodup_dedup items)
  exact (hsorted.and hnodup).imp fun h => lt_of_le_of_ne h.1 h.2

section Decision

variable (caseId : UUID) (customerId : String) (recommendation : InvestigationRecommendation)
  (evidence : List EvidenceItem) (policies : List PolicyChunk) (securityEvents : List String)
  (executions : List ToolExecution)

/-- Some finding cites an evidence ID that is not in the evidence. -/
def CitesUnknownEvidence : Prop :=
  ∃ finding ∈ recommendation.findings, ∃ id ∈ finding.evidenceIds,
    ∀ item ∈ evidence, item.evidenceId ≠ id

/-- Some finding cites a policy ID that is not among the retrieved policies. -/
def CitesUnknownPolicy : Prop :=
  ∃ finding ∈ recommendation.findings, ∃ id ∈ finding.policyIds,
    ∀ policy ∈ policies, policy.policyId ≠ id

/-- Policies were retrieved and none is cited. -/
def CitesNoPolicy : Prop :=
  policies ≠ [] ∧ ∀ finding ∈ recommendation.findings, finding.policyIds = []

/-- Some evidence item is outside the scope of the case or of its customer. -/
def OutOfScope : Prop := ∃ item ∈ evidence, item.caseId ≠ caseId ∨ item.customerId ≠ customerId

/-- The log holds an authorized prohibited execution of the case. -/
def ExecutesProhibited : Prop :=
  ∃ execution ∈ executions, execution.caseId = caseId ∧ execution.authorized = true ∧
    execution.toolName ∈ prohibitedTools

/-- A prior event is critical. -/
def CriticalEvent : Prop := ∃ event ∈ securityEvents, event ∈ HardBlockEvaluator.criticalEvents

/-- Something stands against the release of a recommendation. -/
def Violated : Prop :=
  CitesUnknownEvidence recommendation evidence ∨ CitesUnknownPolicy recommendation policies ∨
    CitesNoPolicy recommendation policies ∨ OutOfScope caseId customerId evidence ∨
      ExecutesProhibited caseId executions ∨ CriticalEvent securityEvents

/-- A control ID that is violated, or a critical event. -/
def BlockedBy (id : String) : Prop :=
  (id = "EVIDENCE-CITATION-001" ∧ CitesUnknownEvidence recommendation evidence) ∨
    (id = "POLICY-CITATION-001" ∧
      (CitesUnknownPolicy recommendation policies ∨ CitesNoPolicy recommendation policies)) ∨
    (id ∈ HardBlockEvaluator.criticalEvents ∧ (id ∈ securityEvents ∨
      (id = "successful_cross_scope_access" ∧ OutOfScope caseId customerId evidence) ∨
      (id = "prohibited_action_execution" ∧ ExecutesProhibited caseId executions)))

variable {caseId customerId recommendation evidence policies securityEvents executions}

/-- Something stands against a release exactly when some ID blocks it. -/
theorem exists_blockedBy :
    (∃ id, BlockedBy caseId customerId recommendation evidence policies securityEvents executions
      id) ↔
      Violated caseId customerId recommendation evidence policies securityEvents executions := by
  constructor
  · rintro ⟨id, ⟨-, h⟩ | ⟨-, h | h⟩ | ⟨hcritical, h | ⟨-, h⟩ | ⟨-, h⟩⟩⟩
    · exact .inl h
    · exact .inr (.inl h)
    · exact .inr (.inr (.inl h))
    · exact .inr (.inr (.inr (.inr (.inr ⟨id, h, hcritical⟩))))
    · exact .inr (.inr (.inr (.inl h)))
    · exact .inr (.inr (.inr (.inr (.inl h))))
  · rintro (h | h | h | h | h | ⟨id, h, hcritical⟩)
    · exact ⟨_, .inl ⟨rfl, h⟩⟩
    · exact ⟨_, .inr (.inl ⟨rfl, .inl h⟩)⟩
    · exact ⟨_, .inr (.inl ⟨rfl, .inr h⟩)⟩
    · exact ⟨_, .inr (.inr ⟨by decide, .inr (.inl ⟨rfl, h⟩)⟩)⟩
    · exact ⟨_, .inr (.inr ⟨by decide, .inr (.inr ⟨rfl, h⟩)⟩)⟩
    · exact ⟨id, .inr (.inr ⟨hcritical, .inl h⟩)⟩

/-- The ledger reports an evidence ID exactly when some finding cites an unknown one. -/
theorem validateRecommendation_ne_nil :
    (EvidenceLedger.ofItems evidence).validateRecommendation recommendation ≠ [] ↔
      CitesUnknownEvidence recommendation evidence := by
  rw [Ne, EvidenceLedger.validateRecommendation_eq_nil]
  simp only [InvestigationRecommendation.citedEvidenceIds, List.mem_flatMap, CitesUnknownEvidence]
  push Not
  constructor
  · rintro ⟨id, ⟨finding, hfinding, hid⟩, hunknown⟩
    exact ⟨finding, hfinding, id, hid, hunknown⟩
  · rintro ⟨finding, hfinding, id, hid, hunknown⟩
    exact ⟨id, ⟨finding, hfinding, hid⟩, hunknown⟩

/-- A policy ID is reported exactly when some finding cites an unknown one. -/
theorem validatePolicyCitations_ne_nil :
    validatePolicyCitations recommendation.citedPolicyIds policies ≠ [] ↔
      CitesUnknownPolicy recommendation policies := by
  rw [Ne, validatePolicyCitations_eq_nil]
  simp only [InvestigationRecommendation.citedPolicyIds, List.mem_flatMap, CitesUnknownPolicy]
  push Not
  constructor
  · rintro ⟨id, ⟨finding, hfinding, hid⟩, hunknown⟩
    exact ⟨finding, hfinding, id, hid, hunknown⟩
  · rintro ⟨finding, hfinding, id, hid, hunknown⟩
    exact ⟨id, ⟨finding, hfinding, hid⟩, hunknown⟩

/-- No policy is cited exactly when no finding cites one. -/
theorem citesNoPolicy_iff :
    CitesNoPolicy recommendation policies ↔ policies ≠ [] ∧ recommendation.citedPolicyIds = [] := by
  rw [CitesNoPolicy, InvestigationRecommendation.citedPolicyIds, List.flatMap_eq_nil_iff]

/-- A control that has failed and blocks. -/
def ControlResult.blocks (result : ControlResult) : Bool := result.hardBlock && result.outcome == .fail

/-- The evidence control blocks exactly when some finding cites unknown evidence. -/
theorem evidenceControl_blocks :
    (evidenceCitationControl
      ((EvidenceLedger.ofItems evidence).validateRecommendation recommendation)).blocks = true ↔
        CitesUnknownEvidence recommendation evidence := by
  rw [← validateRecommendation_ne_nil]
  by_cases hnil : (EvidenceLedger.ofItems evidence).validateRecommendation recommendation = []
  · simp [ControlResult.blocks, evidenceCitationControl, hnil]
  · simp [ControlResult.blocks, evidenceCitationControl, hnil]

/-- The policy control blocks exactly when some finding cites an unknown policy, or none cites one
of those retrieved. -/
theorem policyControl_blocks :
    (policyCitationControl recommendation.citedPolicyIds
      (validatePolicyCitations recommendation.citedPolicyIds policies) policies).blocks = true ↔
        CitesUnknownPolicy recommendation policies ∨ CitesNoPolicy recommendation policies := by
  rw [← validatePolicyCitations_ne_nil, citesNoPolicy_iff]
  by_cases hbad : validatePolicyCitations recommendation.citedPolicyIds policies ≠ [] ∨
      policies ≠ [] ∧ recommendation.citedPolicyIds = []
  · simp only [ControlResult.blocks, policyCitationControl, if_pos hbad]
    exact ⟨fun _ => hbad, fun _ => rfl⟩
  · simp only [ControlResult.blocks, policyCitationControl, if_neg hbad]
    exact ⟨fun h => by simp at h, fun h => absurd h hbad⟩

/-- The events of a validation. -/
theorem mem_observedEvents {id : String} (hdistinct : (evidence.map (·.evidenceId)).Nodup) :
    id ∈ observedEvents caseId customerId (EvidenceLedger.ofItems evidence) executions
        securityEvents ↔
      id ∈ securityEvents ∨
        (id = "successful_cross_scope_access" ∧ OutOfScope caseId customerId evidence) ∨
        (id = "prohibited_action_execution" ∧ ExecutesProhibited caseId executions) := by
  have hscope : ((EvidenceLedger.ofItems evidence).items.any fun item =>
      item.caseId != caseId || item.customerId != customerId) = true ↔
        OutOfScope caseId customerId evidence := by
    rw [EvidenceLedger.items_ofItems hdistinct]
    simp [OutOfScope]
  have hprohibited : (executions.any fun execution => execution.caseId == caseId &&
      execution.authorized && prohibitedTools.contains execution.toolName) = true ↔
        ExecutesProhibited caseId executions := by
    simp [ExecutesProhibited, and_assoc]
  rw [observedEvents, mem_sortedSet, List.mem_append, List.mem_append, or_assoc]
  apply or_congr_right
  apply or_congr
  · rw [← hscope]
    split <;> simp_all
  · rw [← hprohibited]
    split <;> simp_all

/-- The blocks of two controls and of a list of events. -/
theorem mem_blocks {first second : ControlResult} {events : List String} {id : String} :
    id ∈ HardBlockEvaluator.blocks [first, second] events ↔
      (id = first.controlId ∧ first.blocks = true) ∨ (id = second.controlId ∧ second.blocks = true) ∨
        (id ∈ HardBlockEvaluator.criticalEvents ∧ id ∈ events) := by
  rw [HardBlockEvaluator.blocks, mem_sortedSet, List.mem_append, List.mem_map, ← or_assoc]
  apply or_congr
  · constructor
    · rintro ⟨result, hresult, rfl⟩
      obtain ⟨hmem, hblocks⟩ := List.mem_filter.mp hresult
      rcases List.mem_cons.mp hmem with rfl | hmem
      · exact .inl ⟨rfl, hblocks⟩
      · rw [List.mem_singleton.mp hmem] at hblocks ⊢
        exact .inr ⟨rfl, hblocks⟩
    · rintro (⟨rfl, hblocks⟩ | ⟨rfl, hblocks⟩)
      · exact ⟨first, List.mem_filter.mpr ⟨List.mem_cons_self .., hblocks⟩, rfl⟩
      · have hmem : second ∈ [first, second] := List.mem_cons_of_mem _ (List.mem_singleton_self _)
        exact ⟨second, List.mem_filter.mpr ⟨hmem, hblocks⟩, rfl⟩
  · rw [List.mem_filter, List.contains_iff_mem]

/-- The policy control keeps its ID in both of its outcomes. -/
theorem policyCitationControl_controlId {cited invalid : List String} :
    (policyCitationControl cited invalid policies).controlId = "POLICY-CITATION-001" := by
  unfold policyCitationControl
  split <;> rfl

/-- The hard blocks are exactly the violated control IDs and the critical events. -/
theorem mem_hardBlocks {id : String} (hdistinct : (evidence.map (·.evidenceId)).Nodup) :
    id ∈ (validateControls caseId customerId recommendation evidence policies securityEvents
        executions).decision.hardBlocks ↔
      BlockedBy caseId customerId recommendation evidence policies securityEvents executions id := by
  change id ∈ HardBlockEvaluator.blocks _ _ ↔ _
  rw [mem_blocks, evidenceControl_blocks, policyControl_blocks, policyCitationControl_controlId,
    mem_observedEvents hdistinct]
  rfl

/-- A decision blocks exactly when there is a block. -/
theorem releasedStatus_eq_hardBlocked {controls : List ControlResult} {events : List String} :
    releasedStatus (HardBlockEvaluator.evaluate controls events) recommendation = .hardBlocked ↔
      ∃ id, id ∈ HardBlockEvaluator.blocks controls events := by
  by_cases hnil : HardBlockEvaluator.blocks controls events = []
  · simp only [releasedStatus, HardBlockEvaluator.evaluate, hnil, if_pos, List.not_mem_nil,
      exists_false, iff_false]
    split <;> simp
  · simp only [releasedStatus, HardBlockEvaluator.evaluate, if_neg hnil, true_iff]
    exact List.exists_mem_of_ne_nil _ hnil

/-- A validation blocks exactly when something stands against the release. -/
theorem status_eq_hardBlocked (hdistinct : (evidence.map (·.evidenceId)).Nodup) :
    (validateControls caseId customerId recommendation evidence policies securityEvents
        executions).status = .hardBlocked ↔
      Violated caseId customerId recommendation evidence policies securityEvents executions := by
  rw [← exists_blockedBy]
  simp only [← mem_hardBlocks hdistinct]
  exact releasedStatus_eq_hardBlocked

/-- A recommendation that is not blocked waits for what it asks for. -/
theorem status_of_not_blocked
    (h : (validateControls caseId customerId recommendation evidence policies securityEvents
        executions).status ≠ .hardBlocked) :
    (validateControls caseId customerId recommendation evidence policies securityEvents
        executions).status =
      if recommendation.recommendation = .requestMoreInformation then .waitingForInformation
      else .waitingForHumanReview := by
  change releasedStatus _ recommendation ≠ _ at h
  change releasedStatus _ recommendation = _
  unfold releasedStatus at h ⊢
  split
  · rename_i hblocked
    rw [hblocked] at h
    exact absurd rfl h
  · rfl

end Decision

section Execution

variable {env : EngineEnvironment} {w w' : EngineWorld}

/-- A call returns. -/
def Succeeds (env : EngineEnvironment) (w : EngineWorld) (draws : EngineDraws) (c : EngineCall) :
    Prop := ∃ reply, (w.perform env draws c).1 = .ok reply

/-- A program of the engine is executed on its own, and no call raises. -/
abbrev Completes {α : Type} (env : EngineEnvironment) (p : Investigation α) (w : EngineWorld)
    (r : Except PyError α) (w' : EngineWorld) : Prop :=
  p.Executes (engineSystem env).toMachine (Succeeds env) w r w'

/-- A call that returns, and its effect. -/
theorem completes_invoke {c : EngineCall} {r : Except PyError c.Reply}
    (h : Completes env (invoke c) w r w') :
    ∃ draws reply, r = .ok reply ∧ w.effect env draws c = (.ok reply, w') := by
  obtain ⟨draws, ⟨reply, hreply⟩, rfl, rfl⟩ := executes_call.mp h
  have heffect := perform_ok hreply
  refine ⟨draws, reply, hreply, ?_⟩
  rw [← hreply]
  exact heffect.symm

/-- A sequence whose first part is a call. -/
theorem completes_invoke_bind {α : Type} {c : EngineCall} {f : c.Reply → Investigation α}
    {r : Except PyError α} (h : Completes env (invoke c >>= f) w r w') :
    ∃ draws reply w₁, w.effect env draws c = (.ok reply, w₁) ∧ Completes env (f reply) w₁ r w' := by
  obtain ⟨r₁, w₁, hcall, hthen⟩ := executes_bind.mp h
  obtain ⟨draws, reply, rfl, heffect⟩ := completes_invoke hcall
  exact ⟨draws, reply, w₁, heffect, hthen⟩

/-- The progress of a stage is notified, and nothing else changes. -/
theorem completes_notifyStage {b : CaseBinding} {stage : Stage} {event : String}
    {r : Except PyError Unit} (h : Completes env (notifyStage b stage event) w r w') :
    r = .ok () ∧ w = w' := by
  obtain ⟨rfl, r₁, hcall⟩ := executes_suppress.mp h
  obtain ⟨draws, reply, -, heffect⟩ := completes_invoke hcall
  exact ⟨rfl, congrArg Prod.snd heffect⟩

/-- A status that is set is stored. -/
theorem effect_setStatus {draws : EngineDraws} {c : UUID} {status : CaseStatus} {reply : Unit}
    (h : w.effect env draws (.setStatus c status) = (.ok reply, w')) :
    ∃ case, w'.store.cases.get? c = some case ∧ case.status = status := by
  simp only [EngineWorld.effect, EngineWorld.onStore, Store.setStatus, Store.updateCase] at h
  split at h
  · cases h
  · rename_i case hcase
    cases h
    exact ⟨{ case with status }, Dict.get?_set_self _ _ _, rfl⟩

/-- A stage runs, and the state that it returns is saved: one round of `drive`. -/
def runStage (env : EngineEnvironment) (thread : UUID) (stage : Stage) (resume : Option Resume)
    (values : InvestigationState) : Investigation (Option InvestigationState) := do
  match ← guarded env values stage resume with
  | .interrupted => pure none
  | .updated values' =>
    invoke (.putCheckpoint thread ⟨values', some stage, route stage values'⟩)
    pure (some values')

/-- The graph runs a stage, saves its state, and goes on along the edges. -/
theorem drive_succ (env : EngineEnvironment) (thread : UUID) (fuel : ℕ) (stage : Stage)
    (resume : Option Resume) (values : InvestigationState) :
    drive env thread (fuel + 1) stage resume values =
      runStage env thread stage resume values >>= fun saved =>
        match saved with
        | none => pure ()
        | some values' =>
          match route stage values' with
          | some next => drive env thread fuel next none values'
          | none => pure () := by
  rw [drive, runStage, bind_assoc]
  congr 1
  funext ended
  cases ended with
  | interrupted => rfl
  | updated values' => rw [bind_assoc]; rfl

/-- The body of `validate_controls` when no call raises. -/
theorem completes_validate {b : CaseBinding} {values : InvestigationState}
    {recommendation : InvestigationRecommendation} {r : Except PyError StageEnd}
    (hrecommendation : values.recommendation = some recommendation)
    (h : Completes env (validate b values) w r w') :
    ∃ case, r = .ok (.updated (values.withValidation (validateControls b.caseId b.customerId
        recommendation values.evidence values.policies values.securityEvents w.executions))) ∧
      w'.store.cases.get? b.caseId = some case ∧
        case.status = (validateControls b.caseId b.customerId recommendation values.evidence
          values.policies values.securityEvents w.executions).status := by
  unfold validate at h
  rw [hrecommendation] at h
  obtain ⟨_, _, hcomputed, h⟩ := executes_bind.mp h
  obtain ⟨rfl, rfl⟩ := executes_settleResult.mp hcomputed
  obtain ⟨draws, executions, w₁, hexecutions, h⟩ := completes_invoke_bind h
  have hread : w.executions = executions ∧ w = w₁ := by
    cases hexecutions
    exact ⟨rfl, rfl⟩
  obtain ⟨rfl, rfl⟩ := hread
  generalize validateControls b.caseId b.customerId recommendation values.evidence values.policies
    values.securityEvents w.executions = validation at h
  obtain ⟨_, w₂, hjot, h⟩ := executes_bind.mp h
  obtain ⟨rfl, rfl⟩ := executes_note.mp hjot
  obtain ⟨draws, _, w₂, hstatus, h⟩ := completes_invoke_bind h
  obtain ⟨case, hcase, hset⟩ := effect_setStatus hstatus
  have hreported : r = .ok (.updated (values.withValidation validation)) ∧ w'.store = w₂.store := by
    dsimp only at h
    split at h
    · obtain ⟨draws, _, w₃, haudit, h⟩ := completes_invoke_bind h
      obtain ⟨draws, _, w₄, hhook, h⟩ := completes_invoke_bind h
      obtain ⟨rfl, rfl⟩ := executes_pure.mp h
      cases haudit
      cases hhook
      exact ⟨rfl, rfl⟩
    · obtain ⟨draws, _, w₃, hhook, h⟩ := completes_invoke_bind h
      obtain ⟨rfl, rfl⟩ := executes_pure.mp h
      cases hhook
      exact ⟨rfl, rfl⟩
  obtain ⟨rfl, hstore⟩ := hreported
  exact ⟨case, rfl, by rw [hstore]; exact hcase, hset⟩

/-- `validate_controls` under its guard, when no call raises. -/
theorem completes_guarded_validate {b : CaseBinding} {values : InvestigationState}
    {recommendation : InvestigationRecommendation} {resume : Option Resume}
    {r : Except PyError StageEnd} (hbinding : values.binding = some b)
    (hrecommendation : values.recommendation = some recommendation)
    (h : Completes env (guarded env values .validateControls resume) w r w') :
    ∃ case, r = .ok (.updated (values.withValidation (validateControls b.caseId b.customerId
        recommendation values.evidence values.policies values.securityEvents w.executions))) ∧
      w'.store.cases.get? b.caseId = some case ∧
        case.status = (validateControls b.caseId b.customerId recommendation values.evidence
          values.policies values.securityEvents w.executions).status := by
  unfold guarded at h
  rw [hbinding] at h
  obtain ⟨_, _, hcomputed, h⟩ := executes_bind.mp h
  obtain ⟨rfl, rfl⟩ := executes_settleResult.mp hcomputed
  obtain ⟨_, _, hstarted, h⟩ := executes_bind.mp h
  obtain ⟨rfl, rfl⟩ := completes_notifyStage hstarted
  obtain ⟨_, w₁, hattempt, h⟩ := executes_bind.mp h
  obtain ⟨ended, hbody, rfl⟩ := executes_attempt.mp hattempt
  obtain ⟨case, rfl, hcase, hstatus⟩ := completes_validate hrecommendation hbody
  obtain ⟨_, _, hcompleted, h⟩ := executes_bind.mp h
  obtain ⟨rfl, rfl⟩ := completes_notifyStage hcompleted
  obtain ⟨rfl, rfl⟩ := executes_pure.mp h
  exact ⟨case, rfl, hcase, hstatus⟩

end Execution

/-- When `validate_controls` runs without a call that raises, the stored status and that of the
checkpoint are one: the case is blocked exactly when something stands against its release, waits
otherwise for what its recommendation asks for, and the blocks are listed in strict order. -/
theorem release_gate_exact (env : EngineEnvironment) (thread : UUID) {values : InvestigationState}
    {b : CaseBinding} {recommendation : InvestigationRecommendation} {w w' : EngineWorld}
    {r : Except PyError (Option InvestigationState)} (hbinding : values.binding = some b)
    (hrecommendation : values.recommendation = some recommendation)
    (hdistinct : (values.evidence.map (·.evidenceId)).Nodup)
    (hrun : Completes env (runStage env thread .validateControls none values) w r w') :
    ∃ case checkpoint, w'.store.cases.get? b.caseId = some case ∧
      w'.store.threads.get? thread = some checkpoint ∧ case.status = checkpoint.values.status ∧
      (case.status = .hardBlocked ↔ Violated b.caseId b.customerId recommendation values.evidence
        values.policies values.securityEvents w.executions) ∧
      (case.status ≠ .hardBlocked → case.status =
        if recommendation.recommendation = .requestMoreInformation then .waitingForInformation
        else .waitingForHumanReview) ∧
      checkpoint.values.hardBlocks.Pairwise (· < ·) ∧
      ∀ id, id ∈ checkpoint.values.hardBlocks ↔ BlockedBy b.caseId b.customerId recommendation
        values.evidence values.policies values.securityEvents w.executions id := by
  obtain ⟨_, w₁, hguarded, h⟩ := executes_bind.mp hrun
  obtain ⟨case, rfl, hcase, hstatus⟩ :=
    completes_guarded_validate hbinding hrecommendation hguarded
  obtain ⟨draws, _, w₂, hput, h⟩ := completes_invoke_bind h
  obtain ⟨rfl, rfl⟩ := executes_pure.mp h
  cases hput
  refine ⟨case, _, hcase, Dict.get?_set_self _ _ _, hstatus, ?_, ?_, ?_, ?_⟩
  · rw [hstatus]
    exact status_eq_hardBlocked hdistinct
  · rw [hstatus]
    exact status_of_not_blocked
  · exact sortedSet_pairwise _
  · exact fun id => mem_hardBlocks hdistinct

/-- An item of evidence of the sample case. -/
def retrievedItem : EvidenceItem where
  evidenceId := "TX-7"
  evidenceType := "transaction"
  sourceRecordId := "TX-7"
  caseId := 0
  customerId := "C-1"
  content := .object [("amount", .string "9800.00")]
  contentHash := "b7"
  provenance := "transactions"
  evidenceId_length := by decide

/-- A finding of the sample case that cites a policy and some evidence. -/
def citingFinding (evidenceId : String) : MaterialFinding where
  claim := "cash"
  evidenceIds := [evidenceId]
  policyIds := ["P-1"]
  assessment := .supportsConcern
  claimType := .fact
  claim_length := by decide
  evidenceIds_ne_nil := List.cons_ne_nil _ _

/-- A recommendation that cites evidence which was retrieved, and other evidence. -/
def citingRecommendation : InvestigationRecommendation :=
  { sampleRecommendation .closeWithRationale with
    materialFindings := [citingFinding "TX-7"], counterIndicators := [citingFinding "TX-9"] }

/-- A case with this recommendation, for which an event has been recorded. -/
def sampleCheckpoint : InvestigationState where
  binding := some ⟨0, 0, "A-1", "C-1", "investigator", "B5"⟩
  evidence := [retrievedItem]
  policies := [⟨"P-1", .object []⟩]
  securityEvents := ["missing_material_audit"]
  recommendation := some citingRecommendation
  recommendationVersion := some 1

/-- A case of the sample bank. -/
def openCase : CaseData where
  caseId := 0
  runId := 0
  alertId := "A-1"
  customerId := "C-1"
  tenantId := "tenant"
  assignedInvestigatorId := "investigator"

/-- An engine with one case. -/
def oneCase : EngineWorld := ⟨sampleBank, { cases := Dict.empty.set 0 openCase }, [], [], []⟩

/-- The engine after a tool has read the evidence of the case. -/
def readCase : EngineWorld :=
  { oneCase with executions := [⟨0, "get_transactions", .object [], true, ["TX-7"], none⟩] }

/-- A call that returns is seen to. -/
theorem succeeds_of_isOk {env : EngineEnvironment} (w : EngineWorld) (draws : EngineDraws)
    (c : EngineCall) (h : (w.perform env draws c).1.isOk = true) : Succeeds env w draws c := by
  unfold Succeeds
  cases hreply : (w.perform env draws c).1 with
  | ok reply => exact ⟨reply, rfl⟩
  | error e =>
    rw [hreply] at h
    cases h

/-- The last round of the graph runs one stage. -/
theorem completes_drive_one {env : EngineEnvironment} {thread : UUID} {stage : Stage} {resume : Option Resume}
    {values : InvestigationState} {w w' : EngineWorld} {r : Except PyError Unit}
    (h : Completes env (drive env thread 1 stage resume values) w r w') :
    ∃ saved, Completes env (runStage env thread stage resume values) w saved w' := by
  rw [drive_succ] at h
  obtain ⟨saved, w₁, hstage, hthen⟩ := executes_bind.mp h
  cases saved with
  | error e =>
    obtain ⟨-, rfl⟩ := hthen
    exact ⟨_, hstage⟩
  | ok saved =>
    cases saved with
    | none =>
      obtain ⟨-, rfl⟩ := executes_pure.mp hthen
      exact ⟨_, hstage⟩
    | some values' =>
      cases hroute : route stage values' with
      | none =>
        simp only [ThenExecutes, hroute] at hthen
        obtain ⟨-, rfl⟩ := executes_pure.mp hthen
        exact ⟨_, hstage⟩
      | some next =>
        simp only [ThenExecutes, hroute] at hthen
        obtain ⟨-, rfl⟩ := executes_settleResult.mp hthen
        exact ⟨_, hstage⟩

/-- The recommendation cites evidence that was not retrieved. -/
theorem citesUnknownEvidence_sample : CitesUnknownEvidence citingRecommendation [retrievedItem] := by
  unfold CitesUnknownEvidence
  decide

/-- It is blocked for that and for the event, and for nothing else. -/
theorem blockedBy_sample (id : String) :
    BlockedBy 0 "C-1" citingRecommendation sampleCheckpoint.evidence sampleCheckpoint.policies
      sampleCheckpoint.securityEvents readCase.executions id ↔
        id = "EVIDENCE-CITATION-001" ∨ id = "missing_material_audit" := by
  have hunknown : ¬CitesUnknownPolicy citingRecommendation sampleCheckpoint.policies := by
    unfold CitesUnknownPolicy
    decide
  have hnone : ¬CitesNoPolicy citingRecommendation sampleCheckpoint.policies := by
    unfold CitesNoPolicy
    decide
  have hscope : ¬OutOfScope 0 "C-1" sampleCheckpoint.evidence := by
    unfold OutOfScope
    decide
  have hprohibited : ¬ExecutesProhibited 0 readCase.executions := by
    unfold ExecutesProhibited
    decide
  have hcritical : "missing_material_audit" ∈ HardBlockEvaluator.criticalEvents := by decide
  constructor
  · rintro (⟨hid, -⟩ | ⟨-, h | h⟩ | ⟨-, h | ⟨-, h⟩ | ⟨-, h⟩⟩)
    · exact .inl hid
    · exact absurd h hunknown
    · exact absurd h hnone
    · exact .inr (List.mem_singleton.mp h)
    · exact absurd h hscope
    · exact absurd h hprohibited
  · rintro (hid | rfl)
    · exact .inl ⟨hid, citesUnknownEvidence_sample⟩
    · exact .inr (.inr ⟨hcritical, .inl (List.mem_singleton_self _)⟩)

/-- The graph blocks a recommendation that cites evidence which was not retrieved, for that and for an event. -/
theorem release_gate_exact_sample :
    ∃ r w', Completes (sampleEnvironment .inMemory)
        (drive (sampleEnvironment .inMemory) 0 1 .validateControls none sampleCheckpoint) readCase r w' ∧
      ∃ case checkpoint, w'.store.cases.get? 0 = some case ∧ w'.store.threads.get? 0 = some checkpoint ∧
        case.status = .hardBlocked ∧ checkpoint.values.status = .hardBlocked ∧
          ∀ id, id ∈ checkpoint.values.hardBlocks ↔
            id = "EVIDENCE-CITATION-001" ∨ id = "missing_material_audit" := by
  obtain ⟨r, w', hrun, -⟩ := exists_executes (engineSystem (sampleEnvironment .inMemory)).toMachine
    (fun w draws c => (w.perform (sampleEnvironment .inMemory) draws c).1.isOk) succeeds_of_isOk
    quietDraws (drive (sampleEnvironment .inMemory) 0 1 .validateControls none sampleCheckpoint)
    readCase (fun _ => true) (by decide +kernel)
  have hdistinct : (sampleCheckpoint.evidence.map (·.evidenceId)).Nodup := List.nodup_singleton _
  obtain ⟨saved, hstage⟩ := completes_drive_one hrun
  obtain ⟨case, checkpoint, hcase, hcheckpoint, hstatus, hblocked, -, -, hblocks⟩ :=
    release_gate_exact (sampleEnvironment .inMemory) 0 rfl rfl hdistinct hstage
  have hcaseBlocked : case.status = .hardBlocked := hblocked.mpr (.inl citesUnknownEvidence_sample)
  refine ⟨r, w', hrun, case, checkpoint, hcase, hcheckpoint, hcaseBlocked, hstatus ▸ hcaseBlocked, ?_⟩
  exact fun id => (hblocks id).trans (blockedBy_sample id)

end Amlguard
