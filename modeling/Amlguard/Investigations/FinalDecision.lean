import Amlguard.Investigations.Custody
import Amlguard.Investigations.ExactVersion

/-!
# One final decision

A review is stored for the version that its run has read from the thread, and the status of the case
is written before the trajectory is. Two reviews that resume the same checkpoint are therefore both
stored in memory, where a duplicate has the same action too, and a report that raises takes a
completed case back to `FAILED`.

When a thread is read for a stage only while no run of the case is in flight, a run is begun on no
completed case, and no status, checkpoint or report of an approving review fails, a version is
reviewed once and a completed case stays completed.
-/

namespace Amlguard

open Awaited

/-- A run from the entry is begun on no completed case. -/
def EntersOpen (w : EngineWorld) : EngineCall → Prop
  | .loadCheckpoint c (.start _) => ∀ case ∈ w.store.cases.get? c, case.status ≠ .completed
  | _ => True

instance (w : EngineWorld) (call : EngineCall) : Decidable (EntersOpen w call) := by
  unfold EntersOpen
  split <;> infer_instance

/-- A call whose exception takes back no decision. -/
def EngineCall.SparesDecision : EngineCall → Prop
  | .setStatus _ _ | .putCheckpoint _ _ => False
  | .trajectoryHook _ (.humanReview review) => review.outcome ≠ .completed
  | _ => True

instance (call : EngineCall) : Decidable call.SparesDecision := by
  unfold EngineCall.SparesDecision
  split <;> infer_instance

/-- Runs are in custody of their case, and no exception takes back a decision. -/
def DecidesAlone (w : EngineWorld) (draws : EngineDraws) (call : EngineCall) : Prop :=
  LoadsAlone w call ∧ EntersOpen w call ∧ (draws.failure.Raises → call.SparesDecision)

instance (w : EngineWorld) (draws : EngineDraws) (call : EngineCall) :
    Decidable (DecidesAlone w draws call) := by
  unfold DecidesAlone
  infer_instance

/-- The current version of the case has not been reviewed. -/
def Unreviewed (case : CaseData) : Prop :=
  ∀ review ∈ case.reviews, review.recommendationVersion < case.recommendationVersion

/-- No two reviews of the case are of one version, and none is of a version yet to come. -/
structure ReviewedOnce (case : CaseData) : Prop where
  nodup : (case.reviews.map (·.recommendationVersion)).Nodup
  upTo : ∀ review ∈ case.reviews, review.recommendationVersion ≤ case.recommendationVersion

/-- A stage comes next on a case that is not completed; validation and human review are of the current
version, which has not been reviewed. -/
structure Undecided (case : CaseData) (s : Stage) (values : InvestigationState) : Prop where
  status : case.status ≠ .completed
  current : s = .validateControls ∨ s = .humanReview →
    values.recommendationVersion = some case.recommendationVersion ∧ Unreviewed case

/-- What is known of the decision on a case in a phase of its run, and outside every run. -/
def Phase.Deciding (m : Phase) (v : CaseView) : Prop :=
  match m with
  | .entering _ _ | .loading _ _ | .logged _ _ _ | .informed _ _ _ | .collecting _ _ _
  | .reviewed _ _ _ | .edited _ _ _ | .failing _ _ _ | .failed _ _ _ => v.case.status ≠ .completed
  | .stage _ s _ values => Undecided v.case s values
  | .saved _ _ _ version | .drafted _ _ _ version =>
    v.case.status ≠ .completed ∧ version = v.case.recommendationVersion ∧ Unreviewed v.case
  | .deciding _ values validation =>
    Undecided v.case .validateControls values ∧ validation.status ≠ .completed
  | .released _ values _ => Undecided v.case .validateControls values
  | .reviewing _ _ review =>
    v.case.status ≠ .completed ∧ review.recommendationVersion = v.case.recommendationVersion ∧
      Unreviewed v.case
  | .concluded _ _ review => v.case.status = review.outcome
  | .idle _ | .read _ _ _ | .deleting _ | .resetting _ | .admitted _ _ | .loaded _ _ | .ran _ =>
    ∀ values last s, v.saved = some ⟨values, last, some s⟩ → Undecided v.case s values

/-- A case is reviewed once for each version, and its decision is as the phase of its run says. -/
def DecidedOnce (_ : UUID) (m : Phase) (v : CaseView) : Prop := ReviewedOnce v.case ∧ m.Deciding v

section Steps

variable {env : EngineEnvironment} {op : EngineOp} {m m' : Phase} {call : EngineCall}
  {r : Except PyError call.Reply} {i : ℕ} {n : EngineMark} {c : UUID} {v v' : CaseView}

/-- A case that a stage works on is not completed. -/
theorem Phase.Deciding.works {s : Stage} {values : InvestigationState} (h : m.Deciding v)
    (hm : m.Works env c s values) : v.case.status ≠ .completed := by
  cases hm with
  | stage => exact Undecided.status h
  | drafted => exact h.1
  | loading | collecting | failing => exact h

/-- A new recommendation has not been reviewed. -/
theorem ReviewedOnce.recommended {case : CaseData} (h : ReviewedOnce case)
    (recommendation : InvestigationRecommendation) :
    ReviewedOnce (case.recommended recommendation) ∧ Unreviewed (case.recommended recommendation) :=
  ⟨⟨h.nodup, fun review hmem => Nat.le_succ_of_le (h.upTo review hmem)⟩,
    fun review hmem => Nat.lt_succ_of_le (h.upTo review hmem)⟩

/-- A review of a version that has not been reviewed is the only one of it. -/
theorem ReviewedOnce.reviewed {case : CaseData} (h : ReviewedOnce case) (hnew : Unreviewed case)
    {review : HumanReview} (hversion : review.recommendationVersion = case.recommendationVersion) :
    ReviewedOnce (case.reviewed review) := by
  constructor
  · change ((case.reviews ++ [review]).map (·.recommendationVersion)).Nodup
    rw [List.map_append, List.nodup_append]
    refine ⟨h.nodup, List.nodup_singleton _, ?_⟩
    intro version hmem later hlater heq
    obtain ⟨stored, hstored, rfl⟩ := List.mem_map.mp hmem
    rw [List.map_singleton, List.mem_singleton] at hlater
    have hlt := hnew stored hstored
    omega
  · intro stored hmem
    rcases List.mem_append.mp hmem with hold | hlast
    · exact h.upTo stored hold
    · rw [List.mem_singleton.mp hlast]
      exact Nat.le_of_eq hversion

/-- What comes next on the thread after a stage has returned. -/
theorem Phase.Deciding.yields {s next : Stage} {values : InvestigationState} (h : m.Deciding v)
    (hm : m.Yields c s values) (hnext : route s values = some next) :
    Undecided v.case next values := by
  cases hm with
  | loading | collecting =>
    obtain rfl : Stage.draftRecommendation = next := Option.some.inj hnext
    exact ⟨h, by rintro (h | h) <;> cases h⟩
  | drafted _ values recommendation version =>
    obtain ⟨hstatus, rfl, hnew⟩ := h
    exact ⟨hstatus, fun _ => ⟨rfl, hnew⟩⟩
  | released _ values validation =>
    have hundecided : Undecided v.case .validateControls values := h
    exact ⟨hundecided.status, fun _ => hundecided.current (.inl rfl)⟩
  | blocked _ resume values hblocked =>
    rw [route, hblocked] at hnext
    cases hnext
  | concluded _ values review =>
    rw [route] at hnext
    split at hnext
    · rename_i hrework
      obtain rfl : Stage.draftRecommendation = next := Option.some.inj hnext
      refine ⟨fun hcompleted => ?_, by rintro (h | h) <;> cases h⟩
      have hstatus : review.outcome = .completed := h.symm.trans hcompleted
      exact absurd (hstatus.symm.trans hrework) (by decide)
    · cases hnext
  | failed _ s values failure =>
    rw [route_failed s rfl] at hnext
    cases hnext

/-- Under way a status is written and a checkpoint put without an exception. -/
theorem DecidesAlone.quiet {w : EngineWorld} {draws : EngineDraws} (h : DecidesAlone w draws call)
    (hcall : ¬call.SparesDecision) : ¬draws.failure.Raises := fun hraises => hcall (h.2.2 hraises)

/-- The report of an approving review does not raise. -/
theorem Admitted.hook_ok {runId : UUID} {review : HumanReview} {r : Except PyError Unit}
    (h : Admitted env DecidesAlone c v (.trajectoryHook runId (.humanReview review)) r)
    (hreview : review.outcome = .completed) : r = .ok () := by
  obtain ⟨w, draws, -, hok, rfl⟩ := h
  rw [perform_of_not_raises (hok.quiet fun hspares => hspares hreview)]
  rfl

/-- A call of a run keeps a version reviewed once and a completed case completed. -/
theorem DecidedOnce.edge (hrun : m.inRun = some c) (honThread : m.OnThread v.saved)
    (h : DecidedOnce c m v) (hedge : Edge env op m call r m') (hview : ViewStep env c v call r v')
    (hok : Admitted env DecidesAlone c v call r) (hmoves : m' = m → call.Alters c) :
    DecidedOnce c m' v' := by
  obtain ⟨honce, hknown⟩ := h
  have hstatus {status : CaseStatus} {r : Except PyError Unit}
      (h : Admitted env DecidesAlone c v (.setStatus c status) r) : r = .ok () :=
    h.setStatus_ok fun _ _ hok => hok.quiet id
  cases hedge with
  | outside _ _ _ _ hout | created _ _ _ _ _ _ hout | located _ _ _ _ _ _ hout | asked _ _ _ _ hout
    | unknown _ _ _ _ hout | revised _ _ _ _ _ _ _ hout | revoked _ _ _ _ _ hout =>
    exact absurd (.inl hrun) hout.not_runs
  | deleted | forgotten | loadFails | loadStart | loadNothing | loadStage => cases hrun
  | waits _ call _ _ hq | works _ _ _ _ call _ _ hq => exact absurd (hmoves rfl) hq.not_alters
  | reports _ _ _ _ call _ _ hq => exact absurd (hmoves rfl) hq.not_alters
  | notified | notifies | looks => exact (hmoves rfl).elim
  | reportFails m k s values call e hm hq ht =>
    rw [hview.eq_of_not_alters hq.not_alters]
    refine ⟨honce, ?_⟩
    cases hm with
    | collecting => exact hknown
    | released => exact Undecided.status hknown
    | concluded _ values review =>
      obtain ⟨runId, rfl⟩ := ht
      intro hcompleted
      cases hok.hook_ok (hknown.symm.trans hcompleted)
  | entered k values =>
    cases hrun
    obtain rfl := hok.put_ok fun _ _ hok => hok.quiet id
    rw [hview.put_ok]
    exact ⟨honce, hknown, by rintro (h | h) <;> cases h⟩
  | runs k resume values =>
    cases hrun
    obtain rfl := hstatus hok
    rw [hview.status_ok]
    exact ⟨⟨honce.nodup, honce.upTo⟩, fun hcompleted => by cases hcompleted⟩
  | logs =>
    rw [hview.eq_of_not_alters id]
    exact ⟨honce, hknown⟩
  | shows k values b evidence executions r =>
    rw [hview.eq_of_not_alters id]
    cases r with
    | ok u => exact ⟨honce, hknown⟩
    | error e => exact ⟨honce, hknown⟩
  | saves k resume values recommendation version =>
    cases hrun
    obtain ⟨rfl, rfl⟩ := hview.recommended_ok
    obtain ⟨honce', hnew⟩ := honce.recommended recommendation
    have hundecided : Undecided v.case .draftRecommendation values := hknown
    exact ⟨honce', hundecided.status, rfl, hnew⟩
  | saveFails k resume values recommendation e =>
    have hundecided : Undecided v.case .draftRecommendation values := hknown
    cases hview with
    | kept => exact ⟨honce, hundecided.status⟩
    | recommended => exact ⟨(honce.recommended recommendation).1, hundecided.status⟩
  | decides k values validation =>
    cases hrun
    obtain rfl := hstatus hok
    rw [hview.status_ok]
    exact ⟨⟨honce.nodup, honce.upTo⟩, hknown.2, hknown.1.current⟩
  | informs k submission values b version evidence r =>
    have hundecided : Undecided v.case .collectInformation values := hknown
    have hkept : ReviewedOnce v'.case ∧ v'.case.status ≠ .completed := by
      cases hview with
      | kept => exact ⟨honce, hundecided.status⟩
      | supplied => exact ⟨honce, hundecided.status⟩
    cases r with
    | ok u => exact hkept
    | error e => exact hkept
  | collects k values evidence =>
    cases hrun
    obtain rfl := hstatus hok
    rw [hview.status_ok]
    exact ⟨⟨honce.nodup, honce.upTo⟩, fun hcompleted => by cases hcompleted⟩
  | stores k values review r =>
    obtain ⟨hstatus, hversion, hnew⟩ := hknown
    have hkept : ReviewedOnce v'.case ∧ v'.case.status ≠ .completed := by
      cases hview with
      | kept => exact ⟨honce, hstatus⟩
      | reviewed => exact ⟨honce.reviewed hnew hversion, hstatus⟩
    cases r with
    | ok u => exact hkept
    | error e => exact hkept
  | edits k values review recommendation r =>
    have hkept : ReviewedOnce v'.case ∧ v'.case.status ≠ .completed := by
      cases hview with
      | kept => exact ⟨honce, hknown⟩
      | recommended => exact ⟨(honce.recommended recommendation).1, hknown⟩
    cases r with
    | ok u => exact hkept
    | error e => exact hkept
  | concludes m k values review r hm =>
    have hk : k = c := by
      rcases hm with rfl | ⟨rfl, -⟩ <;> cases hrun <;> rfl
    subst hk
    obtain rfl := hstatus hok
    rw [hview.status_ok]
    exact ⟨⟨honce.nodup, honce.upTo⟩, rfl⟩
  | givesUp m k s values r hm =>
    cases hm.inRun.symm.trans hrun
    obtain rfl := hstatus hok
    rw [hview.status_ok]
    exact ⟨⟨honce.nodup, honce.upTo⟩, fun hcompleted => by cases hcompleted⟩
  | puts m k s values r hm =>
    cases hm.inRun.symm.trans hrun
    obtain rfl := hok.put_ok fun _ _ hok => hok.quiet id
    rw [hview.put_ok]
    refine ⟨honce, ?_⟩
    change (Phase.advance _ (route s values) values).Deciding _
    cases hnext : route s values with
    | none =>
      rintro _ _ _ ⟨⟩
    | some next => exact hknown.yields hm hnext

/-- A mark of a run keeps a version reviewed once and a completed case completed. -/
theorem DecidedOnce.mark (hrun : m.inRun = some c) (honThread : m.OnThread v.saved)
    (h : DecidedOnce c m v) (hedge : MarkEdge i op m n m') : DecidedOnce c m' v := by
  obtain ⟨honce, hknown⟩ := h
  refine ⟨honce, ?_⟩
  cases hedge with
  | executed => exact hknown
  | prepared | created | checked | again | loaded | resets => cases hrun
  | left m k ran hleaves =>
    have hstage {s : Stage} {resume : Option Resume} {values : InvestigationState}
        (hm : m = .stage k s resume values) : (Phase.idle ran).Deciding v := by
      subst hm
      intro values' last' s' hsaved'
      obtain ⟨last, hsaved⟩ := honThread s values rfl
      cases hsaved.symm.trans hsaved'
      exact hknown
    cases hleaves with
    | idle | deleting | admitted | ran => cases hrun
    | unbound | halted => exact hstage rfl
  | drafted => exact hknown
  | decided k resume values b recommendation executions hb hrec validation hvalidation =>
    refine ⟨hknown, fun hcompleted => ?_⟩
    subst hvalidation
    have hcases : CaseStatus.completed ∈
        [CaseStatus.hardBlocked, .waitingForInformation, .waitingForHumanReview] :=
      hcompleted ▸ status_cases
    simp at hcases
  | reviewed k values request review version hstatus hv hr =>
    have hundecided : Undecided v.case .humanReview values := hknown
    obtain ⟨hversion, hnew⟩ := hundecided.current (.inr rfl)
    refine ⟨hundecided.status, ?_, hnew⟩
    rw [(HumanReview.rebind_eq_ok hr).2.1]
    exact Option.some.inj (hv.symm.trans hversion)

/-- No run sets the status of a completed case. -/
theorem Phase.Deciding.setStatus {status : CaseStatus} {r : Except PyError Unit} (h : m.Deciding v)
    (hrun : m.inRun = some c) (hedge : Edge env op m (.setStatus c status) r m') :
    v.case.status ≠ .completed := by
  cases hedge with
  | outside _ _ _ _ hout | revoked _ _ _ _ _ hout => exact absurd (.inl hrun) hout.not_runs
  | waits _ _ _ _ hq | works _ _ _ _ _ _ _ hq | reports _ _ _ _ _ _ _ hq
    | reportFails _ _ _ _ _ _ _ hq => exact hq.elim
  | runs => exact Undecided.status h
  | decides => exact h.1.status
  | collects => exact h
  | concludes m c values review r hm =>
    rcases hm with rfl | ⟨rfl, -⟩
    · exact h
    · exact h
  | givesUp m c s values r hm => exact h.works hm

/-- The rules that keep one decision. -/
theorem decision_rules (env : EngineEnvironment) : CustodyRules env DecidesAlone DecidedOnce where
  alone _ _ _ h := h.1
  rest c m v hm := by
    cases m with
    | idle | read | deleting | resetting | admitted | loaded | ran => exact Iff.rfl
    | entering | stage | loading | logged | saved | drafted | deciding | released | informed
      | collecting | reviewing | reviewed | edited | concluded | failing | failed => cases hm
  created s alert tenantId investigatorId :=
    ⟨⟨List.nodup_nil, nofun⟩, fun _ _ _ h => by cases h⟩
  entered c b v r hok _ h := by
    refine ⟨h.1, ?_⟩
    obtain ⟨w, draws, hview, hok, -⟩ := hok
    exact hok.2.1 v.case (view_eq_some hview).1
  resumed c v value r values last s _ hsaved h := ⟨h.1, h.2 values last s hsaved⟩
  edge c op m call r m' v v' hrun honThread h hedge hview hok hmoves :=
    h.edge hrun honThread hedge hview hok hmoves
  mark c i op m n m' v hrun honThread h hedge := h.mark hrun honThread hedge

end Steps

/-- A step leaves a completed case completed. -/
theorem completed_step (env : EngineEnvironment) {p q : EnginePool} {φ : ℕ → Phase}
    (hφ : (routineChart env).Traces p φ) (h : InCustody DecidedOnce φ p.world)
    (hstep : (engineSystem env).Step (RoutineMoves DecidesAlone) p q) {c : UUID}
    {case case' : CaseData} (hcase : p.world.store.cases.get? c = some case)
    (hcompleted : case.status = .completed) (hcase' : q.world.store.cases.get? c = some case') :
    case'.status = .completed := by
  obtain ⟨move, -, hmove⟩ := hstep
  cases move with
  | start op =>
    rw [System.move_start] at hmove
    cases hmove
    change ((engineSystem env).rest _ (op.enroll p.world)).2.store.cases.get? c = some case' at hcase'
    rw [rest_cases, enroll_cases, hcase] at hcase'
    cases hcase'
    exact hcompleted
  | advance i draws =>
    obtain ⟨op, call, k, htask, rfl⟩ := System.move_advance hmove
    change ((engineSystem env).rest _ (p.world.perform env draws call).2).2.store.cases.get? c =
      some case' at hcase'
    rw [rest_cases] at hcase'
    have hop := (hφ.follows i _ htask).1
    have hreply : expectedReply call (p.world.perform env draws call).1 := h.filed.expected call
    obtain ⟨m, hedge⟩ := hφ.edge htask hreply
    obtain ⟨v, hview, rfl⟩ := exists_view hcase
    obtain ⟨v', hview', rfl⟩ := exists_view hcase'
    rcases h.view_back hop hedge hview' with ⟨_, hv, hchange⟩ | ⟨rfl, -⟩
    · cases hview.symm.trans hv
      by_cases hrun : (φ i).inRun = some c
      · obtain ⟨-, -, hknown⟩ := h.held i c v hrun hview
        cases hchange with
        | kept | recommended | reviewed | put | supplied => exact hcompleted
        | status status r => exact absurd hcompleted (hknown.setStatus hrun hedge)
      · rw [hchange.eq_of_not_alters (h.not_alters hop hedge hview' hrun)]
        exact hcompleted
    · exact absurd (h.filed.keyed _ _ hcase).2 (Nat.lt_irrefl _)

/-- When the thread of a case is read for a stage only while no run of the case is in flight, a run is
begun on no completed case, and no exception takes back a decision, a case has at most one review of
each version, and a completed case stays completed. -/
theorem one_decision_of_decidesAlone (env : EngineEnvironment) (bank : SyntheticBank) (p : EnginePool)
    (hreach : (engineSystem env).Reaches (RoutineMoves DecidesAlone) (idleEngine bank) p) :
    (∀ c case, p.world.store.cases.get? c = some case →
      (case.reviews.map (·.recommendationVersion)).Nodup) ∧
    ∀ q c case case', (engineSystem env).Step (RoutineMoves DecidesAlone) p q →
      p.world.store.cases.get? c = some case → case.status = .completed →
        q.world.store.cases.get? c = some case' → case'.status = .completed := by
  obtain ⟨φ, hφ, h⟩ := custody_reaches (decision_rules env) hreach
  refine ⟨fun c case hcase => ?_, fun q c case case' hstep hcase hcompleted hcase' =>
    completed_step env hφ h hstep hcase hcompleted hcase'⟩
  obtain ⟨v, hview, rfl⟩ := exists_view hcase
  by_cases hrun : ∃ i, (φ i).inRun = some c
  · obtain ⟨i, hi⟩ := hrun
    exact (h.held i c v hi hview).2.1.nodup
  · exact (h.free c v (not_exists.mp hrun) hview).1.nodup

/-- A case that has been approved stays completed as another review is requested. -/
theorem one_decision_of_decidesAlone_approved :
    ∃ (p q : EnginePool) (case case' : CaseData), (engineSystem (sampleEnvironment .inMemory)).Reaches
        (RoutineMoves DecidesAlone) (idleEngine sampleBank) p ∧
      p.world.store.cases.get? 0 = some case ∧ case.status = .completed ∧
      q.world.store.cases.get? 0 = some case' ∧ case'.status = .completed ∧
        (case.reviews.map (·.recommendationVersion)).Nodup := by
  let sys := engineSystem (sampleEnvironment .inMemory)
  obtain ⟨p, hreach, htest⟩ := System.exists_reaches sys
    (fun p m => decide (RoutineMoves DecidesAlone p m)) (fun _ _ h => of_decide_eq_true h)
    (idleEngine sampleBank) (undisturbed 0 sampleStart 34 ++ undisturbed 1 (.review sampleApproval) 10)
    (fun p => ((p.world.store.cases.get? 0).any fun case => case.status = .completed) &&
      (sys.move p (.start (.review sampleRejection))).any fun q =>
        (q.world.store.cases.get? 0).isSome)
    (by decide +kernel)
  obtain ⟨hdone, hmoved⟩ := Bool.and_eq_true_iff.mp htest
  obtain ⟨case, hcase, hcompleted⟩ := (Option.any_eq_true _ _).mp hdone
  obtain ⟨q, hmove, hsome⟩ := (Option.any_eq_true _ _).mp hmoved
  obtain ⟨case', hcase'⟩ := Option.isSome_iff_exists.mp hsome
  have hstatus : case.status = .completed := of_decide_eq_true hcompleted
  obtain ⟨hnodup, hstays⟩ := one_decision_of_decidesAlone _ _ p hreach
  exact ⟨p, q, case, case', hreach, hcase, hstatus, hcase',
    hstays q 0 case case' ⟨.start (.review sampleRejection), trivial, hmove⟩ hcase hstatus hcase',
    hnodup 0 case hcase⟩

/-- An approval and a rejection that have both read the thread are both stored in memory. -/
theorem two_decisions_on_one_version :
    ¬∀ p, (engineSystem (sampleEnvironment .inMemory)).Reaches Faultless (idleEngine sampleBank) p →
      (∀ c case, p.world.store.cases.get? c = some case →
        (case.reviews.map (·.recommendationVersion)).Nodup) ∧
      ∀ q c case case', (engineSystem (sampleEnvironment .inMemory)).Step Faultless p q →
        p.world.store.cases.get? c = some case → case.status = .completed →
          q.world.store.cases.get? c = some case' → case'.status = .completed := by
  obtain ⟨p, hreach, htest⟩ := System.exists_reaches (engineSystem (sampleEnvironment .inMemory))
    (fun p m => decide (Faultless p m)) (fun _ _ h => of_decide_eq_true h) (idleEngine sampleBank)
    (undisturbed 0 sampleStart 34 ++ undisturbed 1 (.review sampleApproval) 2 ++
      undisturbed 2 (.review sampleRejection) 2 ++ List.replicate 8 (.advance 1 quietDraws) ++
        List.replicate 2 (.advance 2 quietDraws))
    (fun p => (p.world.store.cases.get? 0).any fun case =>
      ¬(case.reviews.map (·.recommendationVersion)).Nodup)
    (by decide +kernel)
  intro hall
  obtain ⟨case, hcase, htwice⟩ := (Option.any_eq_true _ _).mp htest
  exact of_decide_eq_true htwice ((hall p hreach).1 0 case hcase)

end Amlguard
