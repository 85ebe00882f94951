import Amlguard.Investigations.Citations
import Amlguard.Investigations.StateRules
import Amlguard.Policy.Selection

/-!
# Provenance of policies

The engine on the index of a root. In every reachable pool, the policies of a saved state are those that
the root grounds in its evidence, and so are the policies that the model is given and those that the
trajectories show. What a completed case cites are then excerpts of sources that have been accepted.
-/

namespace Amlguard

open Awaited Policy

/-- The policies of a state are those that are selected for its evidence; without evidence it has none. -/
def InvestigationState.Selected (env : EngineEnvironment) (values : InvestigationState) : Prop :=
  values.evidence = [] ∧ values.policies = [] ∨
    ∃ selection, env.selectPolicies values.evidence = .ok selection ∧
      values.policies = selection.policyMatches.map (·.chunk)

/-- Whatever happens to a state, its policies are selected for its evidence. -/
theorem selected_rule (env : EngineEnvironment) : StateRule env (InvestigationState.Selected env) where
  empty := .inl ⟨rfl, rfl⟩
  started _ _ _ := .inl ⟨rfl, rfl⟩
  withEvidence _ _ selection _ hselection := .inr ⟨selection, hselection, rfl⟩
  withDraft _ _ _ h := h
  withValidation _ _ h := h
  withReview _ _ h := h
  withFailure _ _ h := h
  blocked _ _ _ h := h

/-- The engine that selects policies as it is set up. -/
def EngineEnvironment.selecting (env : EngineEnvironment) (settings : PolicySettings) :
    EngineEnvironment :=
  { env with selectPolicies := settings.selectPolicies, policyJurisdiction := settings.jurisdiction }

/-- Policies that a root grounds in evidence; without evidence there are none. -/
def GroundedIn (settings : PolicySettings) (root : PolicyRoot) (evidence : List EvidenceItem)
    (policies : List PolicyChunk) : Prop :=
  evidence = [] ∧ policies = [] ∨
    ∃ alert day mapping facts, settings.Grounds root evidence policies alert day mapping facts

section Provenance

variable {env : EngineEnvironment} {settings : PolicySettings} {root : PolicyRoot}

/-- The policies of a state for whose evidence they are selected are grounded in it. -/
theorem InvestigationState.Selected.grounded {values : InvestigationState}
    (h : values.Selected (env.selecting settings)) (hload : loadPolicyIndex root = .ok settings.index) :
    GroundedIn settings root values.evidence values.policies := by
  rcases h with hnone | ⟨selection, hselection, hpolicies⟩
  · exact .inl hnone
  · rw [hpolicies]
    exact .inr (settings.grounds_of_select hload hselection)

end Provenance

/-- A bank with one alert of the mapped rule. -/
def alertedBank : SyntheticBank where
  alerts := [⟨"A-1", "C-1", mappedAlert⟩]
  customers := sampleBank.customers
  kycRecords := [⟨"K-1", "C-1", currentKyc⟩]
  transactions := [⟨"T-1", "C-1", knownCounterparty⟩]

/-- The sample engine on the index of the sample root. -/
def corpusEnvironment : EngineEnvironment := (sampleEnvironment .postgres).selecting sampleSettings

/-- The same engine, with the selection for the mapped rule worked out. -/
def workedOut : EngineEnvironment :=
  { corpusEnvironment with
    selectPolicies := fun evidence =>
      match derivePolicyApplicabilityFacts sampleBuiltins evidence with
      | .ok facts =>
        if MappedEvidence evidence then .ok (mappedSelection facts) else sampleSettings.selectPolicies evidence
      | .error _ => sampleSettings.selectPolicies evidence }

/-- Working out a selection changes nothing. -/
theorem workedOut_eq : workedOut = corpusEnvironment := by
  have hselect : workedOut.selectPolicies = corpusEnvironment.selectPolicies := by
    funext evidence
    change (match derivePolicyApplicabilityFacts sampleBuiltins evidence with
      | .ok facts => if MappedEvidence evidence then _ else _
      | .error _ => _) = sampleSettings.selectPolicies evidence
    cases hfacts : derivePolicyApplicabilityFacts sampleBuiltins evidence with
    | error e => rfl
    | ok facts =>
      dsimp only
      split
      · rename_i hmapped
        exact (select_mappedEvidence hmapped hfacts).symm
      · rfl
  unfold workedOut at hselect ⊢
  dsimp only at hselect
  rw [hselect]

/-- A finding that cites the mapped policy. -/
def mappedFinding : MaterialFinding where
  claim := "mapped"
  evidenceIds := ["ALERT-A-1"]
  policyIds := ["P-1"]
  assessment := .supportsConcern
  claimType := .fact
  claim_length := by decide
  evidenceIds_ne_nil := by decide

/-- Draws of calls that do not fail, of a model that cites the mapped policy. -/
def citingDraws : EngineDraws where
  failure := .none
  answer := { sampleRecommendation .closeWithRationale with materialFindings := [mappedFinding] }
  uuid := 0

/-- A start and the approval of what it has drafted. -/
def approvedAlert : List (Move EngineOp EngineDraws) :=
  .start sampleStart :: List.replicate 34 (.advance 0 citingDraws) ++
    .start (.review sampleApproval) :: List.replicate 10 (.advance 1 citingDraws)

/-- A run in which the case of the alert is completed with a policy in its checkpoint. -/
theorem exists_approved : ∃ p, (engineSystem corpusEnvironment).Reaches (RoutineMoves CitesAlone)
    (idleEngine alertedBank) p ∧ ∃ case checkpoint, p.world.store.cases.get? 0 = some case ∧
      case.status = .completed ∧ p.world.store.threads.get? 0 = some checkpoint ∧
        checkpoint.values.policies ≠ [] := by
  rw [← workedOut_eq]
  obtain ⟨p, hreach, htest⟩ := System.exists_reaches (engineSystem workedOut)
    (fun p m => decide (RoutineMoves CitesAlone p m)) (fun _ _ h => of_decide_eq_true h)
    (idleEngine alertedBank) approvedAlert
    (fun p => (p.world.store.cases.get? 0).any fun case => case.status = .completed ∧
      ((p.world.store.threads.get? 0).any fun checkpoint => checkpoint.values.policies ≠ []))
    (by decide +kernel)
  obtain ⟨case, hcase, hchecked⟩ := (Option.any_eq_true _ _).mp htest
  obtain ⟨hcompleted, hthread⟩ := of_decide_eq_true hchecked
  obtain ⟨checkpoint, hsaved, hpolicies⟩ := (Option.any_eq_true _ _).mp hthread
  exact ⟨p, hreach, case, checkpoint, hcase, hcompleted, hsaved, of_decide_eq_true hpolicies⟩

/-- On the index of a root the policies of every saved state, those of every request to the model, and
those of every selection that a trajectory shows are grounded in the root, whatever fails and however the
operations are interleaved. -/
theorem policies_grounded (env : EngineEnvironment) (settings : PolicySettings) (root : PolicyRoot)
    (hload : loadPolicyIndex root = .ok settings.index) (bank : SyntheticBank)
    (allowed : EnginePool → Move EngineOp EngineDraws → Prop) (p : EnginePool)
    (hreach : (engineSystem (env.selecting settings)).Reaches allowed (idleEngine bank) p) :
    (∀ c checkpoint, p.world.store.threads.get? c = some checkpoint →
      GroundedIn settings root checkpoint.values.evidence checkpoint.values.policies) ∧
    (∀ i request, p.awaits i = some (.recommend request) →
      GroundedIn settings root request.evidence request.policies) ∧
    ∀ runId trigger jurisdiction selection,
      (runId, TrajectoryEvent.policiesRetrieved trigger jurisdiction selection) ∈ p.world.trajectory →
        jurisdiction = settings.jurisdiction ∧
          ∃ evidence, GroundedIn settings root evidence (selection.policyMatches.map (·.chunk)) := by
  obtain ⟨hobeys, hrequests⟩ := obeys_reaches (selected_rule (env.selecting settings)) hreach
  constructor
  · exact fun c checkpoint hsaved => (hobeys.saved c checkpoint hsaved).grounded hload
  constructor
  · intro i request hawaits
    obtain ⟨values, hvalues, hmade⟩ := hrequests i request hawaits
    rw [hmade.evidence, hmade.policies]
    exact hvalues.grounded hload
  · intro runId trigger jurisdiction selection hshown
    obtain ⟨hjurisdiction, evidence, hselection⟩ := hobeys.shown runId _ hshown
    exact ⟨hjurisdiction, evidence, .inr (settings.grounds_of_select hload hselection)⟩

/-- The policies of the completed case are grounded in the sample root. -/
theorem policies_grounded_approved : ∃ p,
    (engineSystem corpusEnvironment).Reaches (RoutineMoves CitesAlone) (idleEngine alertedBank) p ∧
      ∃ checkpoint, p.world.store.threads.get? 0 = some checkpoint ∧ checkpoint.values.policies ≠ [] ∧
        GroundedIn sampleSettings sampleRoot checkpoint.values.evidence checkpoint.values.policies := by
  obtain ⟨p, hreach, -, checkpoint, -, -, hsaved, hpolicies⟩ := exists_approved
  have hgrounded := policies_grounded (sampleEnvironment .postgres) sampleSettings sampleRoot
    loadPolicyIndex_sampleRoot alertedBank _ p hreach
  exact ⟨p, hreach, checkpoint, hsaved, hpolicies, hgrounded.1 0 checkpoint hsaved⟩

/-- When only recommendations that are cited from the checkpoint can be released, a completed case cites
policies of its alert only: each is an excerpt of the root that is in force on the day of the alert, of a
registered source that has not been rejected. It cites one if a mapped policy applies. -/
theorem released_policies_grounded (env : EngineEnvironment) (settings : PolicySettings) (root : PolicyRoot)
    (hload : loadPolicyIndex root = .ok settings.index) (bank : SyntheticBank) (p : EnginePool)
    (hreach : (engineSystem (env.selecting settings)).Reaches (RoutineMoves CitesAlone) (idleEngine bank) p)
    (c : UUID) (case : CaseData) (hcase : p.world.store.cases.get? c = some case)
    (hcompleted : case.status = .completed) :
    ∃ checkpoint recommendation, p.world.store.threads.get? c = some checkpoint ∧
      case.recommendation = some recommendation ∧
      (recommendation.citedPolicyIds = [] ∧ checkpoint.values.policies = [] ∨
        ∃ alert day mapping facts,
          settings.Grounds root checkpoint.values.evidence checkpoint.values.policies alert day mapping
            facts ∧
          (∀ id ∈ recommendation.citedPolicyIds, ∃ excerpt, root.Serves settings.jurisdiction day excerpt ∧
            excerpt.policyId = id ∧ settings.dumped excerpt.toPolicyChunk ∈ checkpoint.values.policies) ∧
          ((∃ rule ∈ mapping.rules, rule.Applies facts ∧ ∃ excerpt,
            root.Serves settings.jurisdiction day excerpt ∧ excerpt.policyId = rule.policyId) →
              recommendation.citedPolicyIds ≠ [])) := by
  obtain ⟨φ, -, h⟩ := custody_reaches (citation_rules (env.selecting settings)) hreach
  obtain ⟨v, hview, rfl⟩ := exists_view hcase
  have hcited : ∃ checkpoint, v.saved = some checkpoint ∧ CitedFrom v.case checkpoint.values := by
    by_cases hrun : ∃ i, (φ i).inRun = some c
    · obtain ⟨i, hi⟩ := hrun
      obtain ⟨honThread, hknown⟩ := h.held i c v hi hview
      exact hknown.completed hi honThread hcompleted
    · exact CitedOnThread.completed (h.free c v (not_exists.mp hrun) hview) hcompleted
  obtain ⟨checkpoint, hsaved, recommendation, hcurrent, hfrom⟩ := hcited
  have hthread : p.world.store.threads.get? c = some checkpoint :=
    (view_eq_some hview).2.1.symm.trans hsaved
  obtain ⟨hobeys, -⟩ := obeys_reaches (selected_rule (env.selecting settings)) hreach
  refine ⟨checkpoint, recommendation, hthread, hcurrent, ?_⟩
  rcases (hobeys.saved c checkpoint hthread).grounded hload with
    ⟨-, hnone⟩ | ⟨alert, day, mapping, facts, hgrounds⟩
  · left
    constructor
    · rw [List.eq_nil_iff_forall_not_mem]
      intro id hid
      obtain ⟨policy, hpolicy, -⟩ := hfrom.policies_known id hid
      rw [hnone] at hpolicy
      cases hpolicy
    · exact hnone
  · right
    refine ⟨alert, day, mapping, facts, hgrounds, ?_, ?_⟩
    · intro id hid
      obtain ⟨policy, hpolicy, hpolicyId⟩ := hfrom.policies_known id hid
      obtain ⟨excerpt, hserves, rfl⟩ := hgrounds.served policy hpolicy
      exact ⟨excerpt, hserves, hpolicyId, hpolicy⟩
    · rintro ⟨rule, hrule, happlies, excerpt, hserves, hid⟩
      apply hfrom.some_policy
      exact List.ne_nil_of_mem (hgrounds.complete rule hrule happlies excerpt hserves hid)

/-- The completed case cites an excerpt that the sample root serves. -/
theorem released_policies_grounded_approved : ∃ p case recommendation,
    (engineSystem corpusEnvironment).Reaches (RoutineMoves CitesAlone) (idleEngine alertedBank) p ∧
      p.world.store.cases.get? 0 = some case ∧ case.recommendation = some recommendation ∧
      ∀ id ∈ recommendation.citedPolicyIds, ∃ day excerpt, sampleRoot.Serves "FR" day excerpt ∧
        excerpt.policyId = id := by
  obtain ⟨p, hreach, case, checkpoint, hcase, hcompleted, hsaved, hpolicies⟩ := exists_approved
  obtain ⟨checkpoint', recommendation, hsaved', hcurrent, hreleased⟩ :=
    released_policies_grounded (sampleEnvironment .postgres) sampleSettings sampleRoot
      loadPolicyIndex_sampleRoot alertedBank p hreach 0 case hcase hcompleted
  obtain rfl := Option.some.inj (hsaved.symm.trans hsaved')
  refine ⟨p, case, recommendation, hreach, hcase, hcurrent, fun id hid => ?_⟩
  rcases hreleased with ⟨-, hnone⟩ | ⟨alert, day, mapping, facts, -, hcited, -⟩
  · exact absurd hnone hpolicies
  · obtain ⟨excerpt, hserves, hsame, -⟩ := hcited id hid
    exact ⟨day, excerpt, hserves, hsame⟩

end Amlguard
