import Amlguard.Investigations.EvidenceOrder
import Amlguard.Investigations.FinalDecision

/-!
# Released citations

`validate_controls` checks the citations of a draft. A reviewer may edit the draft as it is approved,
and what the edit cites is checked by nobody.

When every edit that reaches `human_review` cites the evidence and the policies of the checkpoint, so
does the recommendation of every completed case, whatever fails.
-/

namespace Amlguard

open Awaited

/-- An edited recommendation that resumes `human_review` is cited from the checkpoint. -/
def EditsCited (w : EngineWorld) : EngineCall → Prop
  | .loadCheckpoint c (.resume (.review request)) =>
    ∀ checkpoint ∈ w.store.threads.get? c, checkpoint.next = some .humanReview →
      ∀ edited ∈ request.editedRecommendation,
        Cited edited checkpoint.values.evidence checkpoint.values.policies
  | _ => True

instance (w : EngineWorld) : (call : EngineCall) → Decidable (EditsCited w call)
  | .loadCheckpoint c (.resume (.review request)) => inferInstanceAs (Decidable
      (∀ checkpoint ∈ w.store.threads.get? c, checkpoint.next = some .humanReview →
        ∀ edited ∈ request.editedRecommendation,
          Cited edited checkpoint.values.evidence checkpoint.values.policies))
  | .loadCheckpoint _ (.resume (.information _)) | .loadCheckpoint _ (.start _) | .createCase ..
  | .getCase _ | .deleteCase _ | .getAlert _ | .getCustomer _ | .getKyc _ | .getTransactions _
  | .saveRecommendation .. | .saveReview _ | .setStatus .. | .audit .. | .trajectoryHook ..
  | .stageHook .. | .recommend _ | .uuid4 | .toolExecutions | .putCheckpoint .. | .getState _
  | .updateState .. | .deleteThread _ =>
    isTrue trivial

/-- Runs are in custody of their case, and edits are cited. -/
def CitesAlone (w : EngineWorld) (_ : EngineDraws) (call : EngineCall) : Prop :=
  LoadsAlone w call ∧ EntersOpen w call ∧ EditsCited w call

instance (w : EngineWorld) (draws : EngineDraws) (call : EngineCall) :
    Decidable (CitesAlone w draws call) := by
  unfold CitesAlone
  infer_instance

/-- The current recommendation of the case is cited from a state. -/
def CitedFrom (case : CaseData) (values : InvestigationState) : Prop :=
  ∃ recommendation, case.recommendation = some recommendation ∧
    Cited recommendation values.evidence values.policies

/-- What is known of the case when a stage comes next. -/
def CitedAt (case : CaseData) (values : InvestigationState) : Stage → Prop
  | .humanReview => CitedFrom case values
  | .validateControls => case.status ≠ .completed ∧ case.recommendation = values.recommendation
  | .loadAndRetrieve | .draftRecommendation | .collectInformation => case.status ≠ .completed

/-- What is known of a case outside every run. -/
structure CitedOnThread (v : CaseView) : Prop where
  completed : v.case.status = .completed → ∃ checkpoint, v.saved = some checkpoint ∧
    CitedFrom v.case checkpoint.values
  next : ∀ values last s, v.saved = some ⟨values, last, some s⟩ → CitedAt v.case values s

/-- What a validation says about the citations of the case. -/
structure CitedBy (case : CaseData) (values : InvestigationState) (validation : Validation) : Prop where
  status : case.status ≠ .completed
  current : case.recommendation = values.recommendation
  ending : validation.status ∈ [CaseStatus.hardBlocked, .waitingForInformation, .waitingForHumanReview]
  cited : validation.status = .waitingForHumanReview → CitedFrom case values

/-- What is known of the citations of a case in a phase of its run, and outside every run. -/
def Phase.Cites (m : Phase) (v : CaseView) : Prop :=
  match m with
  | .entering _ _ => v.case.status ≠ .completed ∧ CitedOnThread v
  | .stage _ s resume values => CitedAt v.case values s ∧
      ∀ request, resume = some (.review request) → s = .humanReview →
        ∀ edited ∈ request.editedRecommendation, Cited edited values.evidence values.policies
  | .loading _ _ | .logged _ _ _ | .informed _ _ _ | .collecting _ _ _ =>
    v.case.status ≠ .completed
  | .saved _ _ recommendation _ | .drafted _ _ recommendation _ =>
    v.case.status ≠ .completed ∧ v.case.recommendation = some recommendation
  | .deciding _ values validation | .released _ values validation =>
    CitedBy v.case values validation
  | .reviewing _ values review | .reviewed _ values review => CitedFrom v.case values ∧
      ∀ edited ∈ review.editedRecommendation, Cited edited values.evidence values.policies
  | .edited _ values _ => CitedFrom v.case values
  | .concluded _ values review => CitedFrom v.case values ∧ v.case.status = review.outcome
  | .failing _ s values => CitedAt v.case values s
  | .failed _ s values => v.case.status ≠ .completed ∧ CitedAt v.case values s
  | .idle _ | .read _ _ _ | .deleting _ | .resetting _ | .admitted _ _ | .loaded _ _ | .ran _ =>
    CitedOnThread v

section Steps

variable {env : EngineEnvironment} {op : EngineOp} {m m' : Phase} {call : EngineCall}
  {r : Except PyError call.Reply} {i : ℕ} {n : EngineMark} {c : UUID} {v v' : CaseView}

/-- What is known of a case that a stage works on. -/
theorem Phase.Cites.works {s : Stage} {values : InvestigationState} (h : m.Cites v)
    (hm : m.Works env c s values) : CitedAt v.case values s := by
  cases hm with
  | stage => exact h.1
  | drafted => exact h.1
  | loading | collecting | failing => exact h

/-- What is known of a case on which a stage reports. -/
theorem Phase.Cites.reports {s : Stage} {values : InvestigationState} (h : m.Cites v)
    (hm : m.Reports c s values) : CitedAt v.case values s := by
  cases hm with
  | collecting => exact h
  | released => exact ⟨h.status, h.current⟩
  | concluded => exact h.1

/-- A case that is not completed and has kept its recommendation is cited as before. -/
theorem CitedAt.setStatus {case : CaseData} {values : InvestigationState} {s : Stage}
    {status : CaseStatus} (h : CitedAt case values s) (hstatus : status ≠ .completed) :
    CitedAt { case with status } values s := by
  cases s with
  | humanReview => exact h
  | validateControls => exact ⟨hstatus, h.2⟩
  | loadAndRetrieve | draftRecommendation | collectInformation => exact hstatus

/-- What is known of a thread on which a stage comes next. -/
theorem citedOnThread_of_next {values : InvestigationState} {last : Option Stage} {s : Stage}
    (hsaved : v.saved = some ⟨values, last, some s⟩) (h : CitedAt v.case values s) :
    CitedOnThread v := by
  constructor
  · intro hcompleted
    refine ⟨_, hsaved, ?_⟩
    cases s with
    | humanReview => exact h
    | validateControls => exact absurd hcompleted h.1
    | loadAndRetrieve | draftRecommendation | collectInformation => exact absurd hcompleted h
  · intro values' last' s' hsaved'
    cases hsaved.symm.trans hsaved'
    exact h

/-- What a stage returns is cited where the case is completed, and where a stage comes next. -/
theorem Phase.Cites.yields {s : Stage} {values : InvestigationState} (h : m.Cites v)
    (hm : m.Yields c s values) : (v.case.status = .completed → CitedFrom v.case values) ∧
      ∀ next, route s values = some next → CitedAt v.case values next := by
  cases hm with
  | loading | collecting =>
    refine ⟨fun hcompleted => absurd hcompleted h, fun next hnext => ?_⟩
    obtain rfl : Stage.draftRecommendation = next := Option.some.inj hnext
    exact h
  | drafted _ values recommendation version =>
    refine ⟨fun hcompleted => absurd hcompleted h.1, fun next hnext => ?_⟩
    rw [route] at hnext
    split at hnext
    · cases hnext
    · obtain rfl : Stage.validateControls = next := Option.some.inj hnext
      exact h
  | released _ values validation =>
    have hcited : CitedBy v.case values validation := h
    refine ⟨fun hcompleted => absurd hcompleted hcited.status, fun next hnext => ?_⟩
    change (if validation.status = .failed ∨ validation.status = .hardBlocked then none
      else if validation.status = .waitingForInformation then some Stage.collectInformation
      else some Stage.humanReview) = some next at hnext
    have hending := hcited.ending
    simp only [List.mem_cons, List.not_mem_nil, or_false] at hending
    rcases hending with heq | heq | heq
    · simp [heq] at hnext
    · rw [heq] at hnext
      obtain rfl : Stage.collectInformation = next := Option.some.inj hnext
      exact hcited.status
    · rw [heq] at hnext
      obtain rfl : Stage.humanReview = next := Option.some.inj hnext
      exact hcited.cited heq
  | blocked _ resume values hblocked =>
    refine ⟨fun _ => h.1, fun next hnext => ?_⟩
    rw [route, hblocked] at hnext
    cases hnext
  | concluded _ values review =>
    refine ⟨fun _ => h.1, fun next hnext => ?_⟩
    rw [route] at hnext
    split at hnext
    · rename_i hrework
      obtain rfl : Stage.draftRecommendation = next := Option.some.inj hnext
      intro hcompleted
      have hstatus : review.outcome = .completed := h.2.symm.trans hcompleted
      exact absurd (hstatus.symm.trans hrework) (by decide)
    · cases hnext
  | failed _ s values failure =>
    refine ⟨fun hcompleted => absurd hcompleted h.1, fun next hnext => ?_⟩
    rw [route_failed s rfl] at hnext
    cases hnext

/-- What is known of the thread of a stage that returns. -/
theorem Phase.Cites.before {s : Stage} {values : InvestigationState} (h : m.Cites v)
    (hm : m.Yields c s values) :
    ∃ given, m.under = some (s, given) ∧ CitedAt v.case given s := by
  cases hm with
  | loading | collecting => exact ⟨_, rfl, h⟩
  | drafted => exact ⟨_, rfl, h.1⟩
  | released => exact ⟨_, rfl, h.status, h.current⟩
  | blocked | concluded => exact ⟨_, rfl, h.1⟩
  | failed => exact ⟨_, rfl, h.2⟩

/-- A call of a run keeps the citations of a released recommendation. -/
theorem Phase.Cites.edge (hrun : m.inRun = some c) (honThread : m.OnThread v.saved) (h : m.Cites v)
    (hedge : Edge env op m call r m') (hview : ViewStep env c v call r v')
    (hmoves : m' = m → call.Alters c) : m'.Cites v' := by
  cases hedge with
  | outside _ _ _ _ hout | created _ _ _ _ _ _ hout | located _ _ _ _ _ _ hout | asked _ _ _ _ hout
    | unknown _ _ _ _ hout | revised _ _ _ _ _ _ _ hout | revoked _ _ _ _ _ hout =>
    exact absurd (.inl hrun) hout.not_runs
  | deleted | forgotten | loadFails | loadStart | loadNothing | loadStage => cases hrun
  | waits _ call _ _ hq | works _ _ _ _ call _ _ hq => exact absurd (hmoves rfl) hq.not_alters
  | reports _ _ _ _ call _ _ hq => exact absurd (hmoves rfl) hq.not_alters
  | notified | notifies | looks => exact (hmoves rfl).elim
  | reportFails m k s values call e hm hq =>
    rw [hview.eq_of_not_alters hq.not_alters]
    exact h.reports hm
  | entered k values r =>
    cases hrun
    obtain ⟨hstatus, hthread⟩ := h
    cases r with
    | ok u =>
      rw [hview.put_ok]
      exact ⟨hstatus, fun _ h => by cases h⟩
    | error e =>
      cases hview with
      | kept => exact hthread
      | put => exact citedOnThread_of_next rfl hstatus
  | runs k resume values r =>
    cases hrun
    have hkept : v'.case.status ≠ .completed := by
      cases hview with
      | kept => exact h.1
      | status => exact fun hcompleted => by cases hcompleted
    cases r with
    | ok u => exact hkept
    | error e => exact hkept
  | logs =>
    rw [hview.eq_of_not_alters id]
    exact h
  | shows k values b evidence executions r =>
    rw [hview.eq_of_not_alters id]
    cases r with
    | ok u => exact h
    | error e => exact h
  | saves k resume values recommendation version =>
    cases hrun
    obtain ⟨rfl, -⟩ := hview.recommended_ok
    exact ⟨h.1, rfl⟩
  | saveFails =>
    cases hview with
    | kept => exact h.1
    | recommended => exact h.1
  | decides k values validation r =>
    cases hrun
    have hcited : CitedBy v.case values validation := h
    have hstatus : validation.status ≠ .completed := by
      intro hcompleted
      have hending := hcited.ending
      rw [hcompleted] at hending
      simp at hending
    cases r with
    | ok u =>
      rw [hview.status_ok]
      exact ⟨hstatus, hcited.current, hcited.ending, hcited.cited⟩
    | error e =>
      cases hview with
      | kept => exact ⟨hcited.status, hcited.current⟩
      | status => exact ⟨hstatus, hcited.current⟩
  | informs k submission values b version evidence r =>
    have hkept : v'.case.status ≠ .completed := by
      cases hview with
      | kept => exact h.1
      | supplied => exact h.1
    cases r with
    | ok u => exact hkept
    | error e => exact hkept
  | collects k values evidence r =>
    cases hrun
    have hkept : v'.case.status ≠ .completed := by
      cases hview with
      | kept => exact h
      | status => exact fun hcompleted => by cases hcompleted
    cases r with
    | ok u => exact hkept
    | error e => exact hkept
  | stores k values review r =>
    obtain ⟨hcited, hedited⟩ := h
    have hkept : CitedFrom v'.case values := by
      cases hview with
      | kept => exact hcited
      | reviewed => exact hcited
    cases r with
    | ok u => exact ⟨hkept, hedited⟩
    | error e => exact hkept
  | edits k values review recommendation r hr =>
    cases hrun
    have hkept : CitedFrom v'.case values := by
      cases hview with
      | kept => exact h.1
      | recommended => exact ⟨recommendation, rfl, h.2 recommendation hr⟩
    cases r with
    | ok u => exact hkept
    | error e => exact hkept
  | concludes m k values review r hm =>
    have hk : k = c ∧ CitedFrom v.case values := by
      rcases hm with rfl | ⟨rfl, -⟩
      · cases hrun
        exact ⟨rfl, h⟩
      · cases hrun
        exact ⟨rfl, h.1⟩
    obtain ⟨rfl, hcited⟩ := hk
    cases r with
    | ok u =>
      rw [hview.status_ok]
      exact ⟨hcited, rfl⟩
    | error e =>
      cases hview with
      | kept => exact hcited
      | status => exact hcited
  | givesUp m k s values r hm =>
    cases hm.inRun.symm.trans hrun
    have hcited := h.works hm
    have hfailed : CaseStatus.failed ≠ .completed := by decide
    cases r with
    | ok u =>
      rw [hview.status_ok]
      exact ⟨hfailed, hcited.setStatus hfailed⟩
    | error e =>
      obtain ⟨last, hsaved⟩ := honThread s values hm.under
      cases hview with
      | kept => exact citedOnThread_of_next hsaved hcited
      | status => exact citedOnThread_of_next hsaved (hcited.setStatus hfailed)
  | puts m k s values r hm =>
    cases hm.inRun.symm.trans hrun
    obtain ⟨hcompleted, hnext⟩ := h.yields hm
    have hput : CitedOnThread { v with saved := some ⟨values, some s, route s values⟩ } := by
      refine ⟨fun hstatus => ⟨_, rfl, hcompleted hstatus⟩, ?_⟩
      intro values' last' s' hsaved'
      obtain ⟨rfl, rfl, hroute⟩ := Checkpoint.mk.inj (Option.some.inj hsaved')
      exact hnext s' hroute
    cases r with
    | ok u =>
      rw [hview.put_ok]
      change (Phase.advance _ (route s values) values).Cites _
      cases hroute : route s values with
      | none =>
        rw [hroute] at hput
        exact hput
      | some next => exact ⟨hnext next hroute, fun _ h => by cases h⟩
    | error e =>
      cases hview with
      | kept =>
        obtain ⟨given, hunder, hcited⟩ := h.before hm
        obtain ⟨last, hsaved⟩ := honThread s given hunder
        exact citedOnThread_of_next hsaved hcited
      | put => exact hput

/-- A mark of a run keeps the citations of a released recommendation. -/
theorem Phase.Cites.mark (hrun : m.inRun = some c) (honThread : m.OnThread v.saved) (h : m.Cites v)
    (hedge : MarkEdge i op m n m') : m'.Cites v := by
  cases hedge with
  | executed => exact h
  | prepared | created | checked | again | loaded | resets => cases hrun
  | left m k ran hleaves =>
    have hstage {s : Stage} {resume : Option Resume} {values : InvestigationState}
        (hm : m = .stage k s resume values) : (Phase.idle ran).Cites v := by
      subst hm
      obtain ⟨last, hsaved⟩ := honThread s values rfl
      exact citedOnThread_of_next hsaved h.1
    cases hleaves with
    | idle | deleting | admitted | ran => cases hrun
    | unbound | halted => exact hstage rfl
  | drafted => exact h
  | decided k resume values b recommendation executions hb hrec validation hvalidation =>
    obtain ⟨⟨hstatus, hcurrent⟩, -⟩ := h
    subst hvalidation
    refine ⟨hstatus, hcurrent, status_cases, fun hready => ?_⟩
    exact ⟨recommendation, hcurrent.trans hrec, cited_of_ready (status_eq_waitingForHumanReview hready).1⟩
  | reviewed k values request review version hstatus hv hr =>
    refine ⟨h.1, fun edited hedited => ?_⟩
    rw [(HumanReview.rebind_eq_ok hr).2.2.2.1] at hedited
    exact h.2 request rfl rfl edited hedited

/-- The rules that keep the citations of a released recommendation. -/
theorem citation_rules (env : EngineEnvironment) :
    CustodyRules env CitesAlone fun _ => Phase.Cites where
  alone _ _ _ h := h.1
  rest c m v hm := by
    cases m with
    | idle | read | deleting | resetting | admitted | loaded | ran => exact Iff.rfl
    | entering | stage | loading | logged | saved | drafted | deciding | released | informed
      | collecting | reviewing | reviewed | edited | concluded | failing | failed => cases hm
  created s alert tenantId investigatorId :=
    ⟨fun (h : CaseStatus.open = .completed) => (by cases h), fun _ _ _ h => (by cases h)⟩
  entered c b v r hok _ h := by
    obtain ⟨w, draws, hview, hok, -⟩ := hok
    exact ⟨hok.2.1 v.case (view_eq_some hview).1, h⟩
  resumed c v value r values last s hok hsaved h := by
    refine ⟨h.next values last s hsaved, ?_⟩
    rintro request ⟨⟩ rfl
    obtain ⟨w, draws, hview, hok, -⟩ := hok
    exact hok.2.2 _ ((view_eq_some hview).2.1.symm.trans hsaved) rfl
  edge c op m call r m' v v' hrun honThread h hedge hview _ hmoves :=
    h.edge hrun honThread hedge hview hmoves
  mark c i op m n m' v hrun honThread h hedge := h.mark hrun honThread hedge

/-- A completed case is cited from its thread, in every phase of its run. -/
theorem Phase.Cites.completed (hrun : m.inRun = some c) (honThread : m.OnThread v.saved)
    (h : m.Cites v) (hcompleted : v.case.status = .completed) :
    ∃ checkpoint, v.saved = some checkpoint ∧ CitedFrom v.case checkpoint.values := by
  have hthread {s : Stage} {values : InvestigationState} (hunder : m.under = some (s, values))
      (hcited : CitedAt v.case values s) :
      ∃ checkpoint, v.saved = some checkpoint ∧ CitedFrom v.case checkpoint.values := by
    obtain ⟨last, hsaved⟩ := honThread s values hunder
    exact (citedOnThread_of_next hsaved hcited).completed hcompleted
  cases m with
  | idle | read | deleting | resetting | admitted | loaded | ran => cases hrun
  | entering => exact absurd hcompleted h.1
  | stage c s resume values => exact hthread rfl h.1
  | loading | logged | informed | collecting => exact absurd hcompleted h
  | saved | drafted => exact absurd hcompleted h.1
  | deciding | released => exact absurd hcompleted h.status
  | reviewing c values review | reviewed c values review =>
    exact hthread (s := .humanReview) rfl h.1
  | edited c values review => exact hthread (s := .humanReview) rfl h
  | concluded c values review => exact hthread (s := .humanReview) rfl h.1
  | failing c s values => exact hthread rfl h
  | failed c s values => exact hthread rfl h.2

end Steps

/-- When the thread of a case is read for a stage only while no run of the case is in flight, a run is
begun on no completed case, and every edited recommendation that resumes `human_review` is cited from
the checkpoint, the recommendation of every completed case is cited from its checkpoint. -/
theorem released_cited_of_citesAlone (env : EngineEnvironment) (bank : SyntheticBank) (p : EnginePool)
    (hreach : (engineSystem env).Reaches (RoutineMoves CitesAlone) (idleEngine bank) p) (c : UUID)
    (case : CaseData) (hcase : p.world.store.cases.get? c = some case)
    (hcompleted : case.status = .completed) :
    ∃ checkpoint recommendation, p.world.store.threads.get? c = some checkpoint ∧
      case.recommendation = some recommendation ∧
        Cited recommendation checkpoint.values.evidence checkpoint.values.policies := by
  obtain ⟨φ, -, h⟩ := custody_reaches (citation_rules env) hreach
  obtain ⟨v, hview, rfl⟩ := exists_view hcase
  have hcited : ∃ checkpoint, v.saved = some checkpoint ∧ CitedFrom v.case checkpoint.values := by
    by_cases hrun : ∃ i, (φ i).inRun = some c
    · obtain ⟨i, hi⟩ := hrun
      obtain ⟨honThread, hknown⟩ := h.held i c v hi hview
      exact hknown.completed hi honThread hcompleted
    · exact CitedOnThread.completed (h.free c v (not_exists.mp hrun) hview) hcompleted
  obtain ⟨checkpoint, hsaved, recommendation, hcurrent, hfrom⟩ := hcited
  exact ⟨checkpoint, recommendation, (view_eq_some hview).2.1.symm.trans hsaved, hcurrent, hfrom⟩

/-- The recommendation of a case that is approved as it was drafted is cited. -/
theorem released_cited_of_citesAlone_approved :
    ∃ (p : EnginePool) (case : CaseData) (checkpoint : Checkpoint)
        (recommendation : InvestigationRecommendation),
      (engineSystem (sampleEnvironment .postgres)).Reaches (RoutineMoves CitesAlone)
          (idleEngine sampleBank) p ∧
      p.world.store.cases.get? 0 = some case ∧ case.status = .completed ∧
      p.world.store.threads.get? 0 = some checkpoint ∧ case.recommendation = some recommendation ∧
        Cited recommendation checkpoint.values.evidence checkpoint.values.policies := by
  obtain ⟨p, hreach, htest⟩ := System.exists_reaches (engineSystem (sampleEnvironment .postgres))
    (fun p m => decide (RoutineMoves CitesAlone p m)) (fun _ _ h => of_decide_eq_true h)
    (idleEngine sampleBank) (undisturbed 0 sampleStart 34 ++ undisturbed 1 (.review sampleApproval) 10)
    (fun p => (p.world.store.cases.get? 0).any fun case => case.status = .completed)
    (by decide +kernel)
  obtain ⟨case, hcase, hstatus⟩ := (Option.any_eq_true _ _).mp htest
  have hcompleted : case.status = .completed := of_decide_eq_true hstatus
  obtain ⟨checkpoint, recommendation, hsaved, hcurrent, hcited⟩ :=
    released_cited_of_citesAlone _ _ p hreach 0 case hcase hcompleted
  exact ⟨p, case, checkpoint, recommendation, hreach, hcase, hcompleted, hsaved, hcurrent, hcited⟩

/-- A finding that cites evidence that nobody has retrieved. -/
def fabricatedFinding : MaterialFinding where
  claim := "fabricated"
  evidenceIds := ["FAKE-1"]
  policyIds := []
  assessment := .supportsConcern
  claimType := .fact
  claim_length := by decide
  evidenceIds_ne_nil := by decide

/-- An approval with an edit whose citation is fabricated. -/
def sampleEdit : HumanReview :=
  { sampleApproval with
    action := .editAndApprove
    editedRecommendation := some { sampleRecommendation .closeWithRationale with
      materialFindings := [fabricatedFinding] }
    edited_iff := by decide }

/-- An edit with a fabricated citation is released, one request after the other. -/
theorem fabricated_citation_released :
    ¬∀ p, (engineSystem (sampleEnvironment .postgres)).Reaches
        (fun p m => Consecutive p m ∧ Faultless p m) (idleEngine sampleBank) p →
      ∀ c case, p.world.store.cases.get? c = some case → case.status = .completed →
        ∃ checkpoint recommendation, p.world.store.threads.get? c = some checkpoint ∧
          case.recommendation = some recommendation ∧
            Cited recommendation checkpoint.values.evidence checkpoint.values.policies := by
  obtain ⟨p, hreach, htest⟩ := System.exists_reaches (engineSystem (sampleEnvironment .postgres))
    (fun p m => decide (Consecutive p m ∧ Faultless p m)) (fun _ _ h => of_decide_eq_true h)
    (idleEngine sampleBank) (undisturbed 0 sampleStart 34 ++ undisturbed 1 (.review sampleEdit) 11)
    (fun p => (p.world.store.cases.get? 0).any fun case => case.status = .completed ∧
      ∀ checkpoint ∈ p.world.store.threads.get? 0, ∀ recommendation ∈ case.recommendation,
        ¬Cited recommendation checkpoint.values.evidence checkpoint.values.policies)
    (by decide +kernel)
  intro hall
  obtain ⟨case, hcase, hreleased⟩ := (Option.any_eq_true _ _).mp htest
  obtain ⟨hcompleted, hfabricated⟩ := of_decide_eq_true hreleased
  obtain ⟨checkpoint, recommendation, hsaved, hcurrent, hcited⟩ := hall p hreach 0 case hcase hcompleted
  exact hfabricated checkpoint hsaved recommendation hcurrent hcited

end Amlguard
