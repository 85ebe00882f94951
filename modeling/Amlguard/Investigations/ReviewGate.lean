import Amlguard.Investigations.Writes

/-!
# The gate of human review

A case is completed only by a review that approves a version which was drafted for the case and
which `validate_controls` has found ready.

Every state that a run carries names a drafted version, every state that waits for human review
names a released one, and only `human_review` completes a case, after it has stored its review.
What an assertion says of the history and of the stored reviews only grows, so it does not matter
how the operations are interleaved.
-/

namespace Amlguard

open Awaited

/-- The version was drafted for the case, and `validate_controls` has found it ready. -/
def Released (s : Store) (c : UUID) (version : ℕ) : Prop :=
  (c, version) ∈ s.history.drafted ∧
    ∃ validation, (c, some version, validation) ∈ s.history.decided ∧
      validation.decision.status = .ready ∧
        validation.recommendation.recommendation ≠ .requestMoreInformation

/-- The version that a state names was drafted for the case. -/
def Drafted (s : Store) (c : UUID) (values : InvestigationState) : Prop :=
  ∀ version, values.recommendationVersion = some version → (c, version) ∈ s.history.drafted

/-- The version that a state names is released, unless the state is blocked. -/
def Gated (s : Store) (c : UUID) (values : InvestigationState) : Prop :=
  values.status ≠ .hardBlocked →
    ∀ version, values.recommendationVersion = some version → Released s c version

/-- The validation of a state is on record, with a status that a validation may have. -/
structure Decided (s : Store) (c : UUID) (values : InvestigationState) (validation : Validation) :
    Prop where
  recorded : (c, values.recommendationVersion, validation) ∈ s.history.decided
  ready : validation.status = .waitingForHumanReview → validation.decision.status = .ready ∧
    validation.recommendation.recommendation ≠ .requestMoreInformation
  status_mem : validation.status ∈ [CaseStatus.hardBlocked, .waitingForInformation,
    .waitingForHumanReview]

/-- The review addresses a released version. -/
structure Addressed (s : Store) (c : UUID) (review : HumanReview) : Prop where
  caseId : review.caseId = c
  released : Released s c review.recommendationVersion

/-- The review is stored as long as its case is. -/
structure StoredReview (s : Store) (c : UUID) (review : HumanReview) : Prop where
  drawn : c < s.nextUuid
  stored : ∀ case, s.cases.get? c = some case → review ∈ case.reviews

/-- What is known of the state that a run carries. -/
def Phase.Sound (s : Store) : Phase → Prop
  | .loaded _ next => next.Sound s
  | .entering c values | .loading c values | .logged c values _ | .saved c values _ _
  | .informed c values _ | .collecting c values _ | .failing c _ values | .failed c _ values =>
    Drafted s c values
  | .stage c step _ values => Drafted s c values ∧ (step = .humanReview → Gated s c values)
  | .drafted c values _ version => Drafted s c values ∧ (c, version) ∈ s.history.drafted
  | .deciding c values validation | .released c values validation =>
    Drafted s c values ∧ Decided s c values validation
  | .reviewing c values review => Drafted s c values ∧ Addressed s c review
  | .reviewed c values review | .edited c values review | .concluded c values review =>
    Drafted s c values ∧ Addressed s c review ∧ StoredReview s c review
  | .idle _ | .read _ _ _ | .deleting _ | .resetting _ | .admitted _ _ | .ran _ => True

/-- A stored review of the case approves a released version. -/
def Approved (s : Store) (c : UUID) (case : CaseData) : Prop :=
  ∃ review ∈ case.reviews, review.action ≠ .rejectAndRequestRework ∧
    Released s c review.recommendationVersion

/-- What is known of the stored cases and threads. -/
structure Gatekept (s : Store) : Prop where
  filed : Filed s
  threads : ∀ c checkpoint, s.threads.get? c = some checkpoint →
    Drafted s c checkpoint.values ∧
      (checkpoint.next = some .humanReview → Gated s c checkpoint.values)
  completed : ∀ c case, s.cases.get? c = some case → case.status = .completed → Approved s c case

/-- A later store: the history has grown, and no stored case has lost a review. -/
structure Store.Grown (s s' : Store) : Prop where
  drafted : s.history.drafted ⊆ s'.history.drafted
  decided : s.history.decided ⊆ s'.history.decided
  drawn : s.nextUuid ≤ s'.nextUuid
  reviews : ∀ c case', s'.cases.get? c = some case' → c < s.nextUuid →
    ∃ case, s.cases.get? c = some case ∧ case.reviews ⊆ case'.reviews

namespace Store.Grown

variable {s s' : Store} {c : UUID} {values : InvestigationState}

theorem released (h : s.Grown s') {version : ℕ} (hr : Released s c version) :
    Released s' c version := by
  obtain ⟨hdrafted, validation, hdecided, hready⟩ := hr
  exact ⟨h.drafted hdrafted, validation, h.decided hdecided, hready⟩

theorem draftedState (h : s.Grown s') (hd : Drafted s c values) : Drafted s' c values :=
  fun version hv => h.drafted (hd version hv)

theorem gated (h : s.Grown s') (hg : Gated s c values) : Gated s' c values :=
  fun hs version hv => h.released (hg hs version hv)

theorem decidedState (h : s.Grown s') {validation : Validation}
    (hd : Decided s c values validation) : Decided s' c values validation :=
  ⟨h.decided hd.recorded, hd.ready, hd.status_mem⟩

theorem addressed (h : s.Grown s') {review : HumanReview} (ha : Addressed s c review) :
    Addressed s' c review := ⟨ha.caseId, h.released ha.released⟩

theorem storedReview (h : s.Grown s') {review : HumanReview} (hs : StoredReview s c review) :
    StoredReview s' c review := by
  refine ⟨Nat.lt_of_lt_of_le hs.drawn h.drawn, fun case' hcase' => ?_⟩
  obtain ⟨case, hcase, hsub⟩ := h.reviews c case' hcase' hs.drawn
  exact hsub (hs.stored case hcase)

/-- What is known in a phase stays known. -/
theorem sound (h : s.Grown s') {m : Phase} (hm : m.Sound s) : m.Sound s' := by
  induction m with
  | loaded c next ih => exact ih hm
  | entering | loading | logged | saved | informed | collecting | failing | failed =>
    exact h.draftedState hm
  | stage => exact ⟨h.draftedState hm.1, fun hs => h.gated (hm.2 hs)⟩
  | drafted => exact ⟨h.draftedState hm.1, h.drafted hm.2⟩
  | deciding | released => exact ⟨h.draftedState hm.1, h.decidedState hm.2⟩
  | reviewing => exact ⟨h.draftedState hm.1, h.addressed hm.2⟩
  | reviewed | edited | concluded =>
    exact ⟨h.draftedState hm.1, h.addressed hm.2.1, h.storedReview hm.2.2⟩
  | idle | read | deleting | resetting | admitted | ran => trivial

end Store.Grown

section Steps

variable {env : EngineEnvironment} {s s' : Store} {op : EngineOp} {m m' : Phase}
  {call : EngineCall} {r : Except PyError call.Reply}

/-- No call forgets what has been drafted and decided, or loses a review. -/
theorem Writes.grown (hw : Writes env s call r s') : s.Grown s' := by
  refine ⟨by rw [hw.history]; exact List.Subset.refl _,
    by rw [hw.history]; exact List.Subset.refl _, hw.nextUuid_le, fun c case' hcase' hc => ?_⟩
  cases hw.caseChange hcase' with
  | kept _ _ case hcase => exact ⟨case', hcase, List.Subset.refl _⟩
  | created => exact absurd hc (Nat.lt_irrefl _)
  | recommended _ _ case hcase | status _ _ case hcase => exact ⟨case, hcase, List.Subset.refl _⟩
  | reviewed review case hcase => exact ⟨case, hcase, List.subset_append_left _ _⟩

/-- The state that a stage returns names a drafted version, and a released one when a review
follows. -/
theorem Phase.Sound.yields {c : UUID} {step : Stage} {values : InvestigationState}
    (hm : m.Sound s) (hyields : m.Yields c step values) :
    Drafted s c values ∧ (route step values = some .humanReview → Gated s c values) := by
  cases hyields with
  | loading | collecting =>
    refine ⟨hm, fun hroute => ?_⟩
    cases (route_eq_humanReview hroute).1
  | drafted c values recommendation version =>
    refine ⟨fun v hv => ?_, fun hroute => ?_⟩
    · cases hv
      exact hm.2
    · cases (route_eq_humanReview hroute).1
  | released c values validation =>
    refine ⟨hm.1, fun hroute hstatus version hversion => ⟨hm.1 version hversion, validation, ?_⟩⟩
    obtain ⟨-, hblocked, hwaits⟩ := route_eq_humanReview hroute
    have hrecorded := hm.2.recorded
    rw [show values.recommendationVersion = some version from hversion] at hrecorded
    have hready : validation.status = .waitingForHumanReview := by
      have hmem := hm.2.status_mem
      simp only [List.mem_cons, List.not_mem_nil, or_false] at hmem
      exact (hmem.resolve_left hblocked).resolve_left hwaits
    exact ⟨hrecorded, hm.2.ready hready⟩
  | blocked => exact ⟨hm.1, fun hroute => absurd (route_eq_humanReview hroute).1 (by decide)⟩
  | concluded => exact ⟨hm.1, fun hroute => absurd (route_eq_humanReview hroute).1 (by decide)⟩
  | failed c step values failure =>
    refine ⟨hm, fun hroute => ?_⟩
    rw [route_failed step rfl] at hroute
    cases hroute

/-- The state of a thread names a drafted version. -/
theorem Gatekept.drafted_saved (hs : Gatekept s) (c : UUID) :
    Drafted s c (savedValues (s.threads.get? c)) := by
  cases hsaved : s.threads.get? c with
  | none => exact fun version hv => by cases hv
  | some checkpoint => exact (hs.threads c checkpoint hsaved).1

/-- A review that has been saved is stored. -/
theorem Writes.storedReview {review : HumanReview} {c : UUID} {u : Unit}
    (hw : Writes env s (.saveReview review) (.ok u) s') (hs : Filed s) (hc : review.caseId = c) :
    StoredReview s' c review := by
  subst hc
  cases hw with
  | unchanged _ _ haside => exact (haside u rfl).elim
  | reviewed review case r hcase =>
    refine ⟨(hs.keyed _ _ hcase).2, fun case' hcase' => ?_⟩
    change (s.cases.set review.caseId (case.reviewed review)).get? review.caseId = some case' at hcase'
    rw [Dict.get?_set_self] at hcase'
    cases hcase'
    exact List.mem_append_right _ List.mem_cons_self

/-- A run that works at a stage carries a drafted version. -/
theorem Phase.Sound.works {c : UUID} {step : Stage} {values : InvestigationState}
    (hm : m.Sound s) (hworks : m.Works env c step values) : Drafted s c values := by
  cases hworks with
  | loading | failing => exact hm
  | stage | drafted => exact hm.1
  | collecting => exact hm

/-- A run that reports at a stage carries a drafted version. -/
theorem Phase.Sound.reports {c : UUID} {step : Stage} {values : InvestigationState}
    (hm : m.Sound s) (hreports : m.Reports c step values) : Drafted s c values := by
  cases hreports with
  | collecting => exact hm
  | released | concluded => exact hm.1

/-- Where a reply leads is sound when both phases are. -/
theorem sound_landed {α : Type} {r : Except PyError α} {m m' : Phase} (hok : m.Sound s)
    (herror : m'.Sound s) : (Phase.landed r m m').Sound s := by
  cases r with
  | ok a => exact hok
  | error e => exact herror

/-- The stage that follows a checkpoint is sound when the checkpoint is. -/
theorem sound_advance {c : UUID} {next : Option Stage} {values : InvestigationState}
    (hdrafted : Drafted s c values) (hgated : next = some .humanReview → Gated s c values) :
    (Phase.advance c next values).Sound s := by
  cases next with
  | none => trivial
  | some step => exact ⟨hdrafted, fun hstep => hgated (congrArg some hstep)⟩

/-- What is known in a phase leads to what is known in the next one. -/
theorem Phase.Sound.edge (hm : m.Sound s) (hs : Gatekept s) (hedge : Edge env op m call r m')
    (hw : Writes env s call r s') : m'.Sound s' := by
  have hgrown := hw.grown
  cases hedge with
  | outside | created | located | asked | unknown | forgotten | revised | revoked | loadFails
    | loadNothing => trivial
  | deleted => exact sound_landed trivial trivial
  | givesUp m c step values r hworks =>
    exact sound_landed (m := .failed c step values) (hgrown.draftedState (hm.works hworks)) trivial
  | waits | works | reports | notifies | notified | looks => exact hgrown.sound hm
  | reportFails m c step values call e hreports => exact hgrown.draftedState (hm.reports hreports)
  | loadStart c b saved =>
    have hsaved := hw.loadCheckpoint_ok
    exact hgrown.draftedState (hsaved ▸ hs.drafted_saved c)
  | loadStage c runId value values last step =>
    have hsaved := hw.loadCheckpoint_ok
    exact hgrown.sound (m := .stage c step (some value) values)
      ⟨(hs.threads _ _ hsaved).1, fun hstep => (hs.threads _ _ hsaved).2 (congrArg some hstep)⟩
  | entered c values => exact sound_landed ⟨hgrown.draftedState hm, nofun⟩ trivial
  | runs => exact sound_landed (hgrown.draftedState hm.1) (hgrown.draftedState hm.1)
  | logs => exact hgrown.draftedState hm
  | shows => exact sound_landed (hgrown.draftedState hm) (hgrown.draftedState hm)
  | saves | saveFails => exact hgrown.draftedState hm.1
  | decides =>
    exact sound_landed (hgrown.sound (m := .released _ _ _) hm) (hgrown.draftedState hm.1)
  | informs => exact sound_landed (hgrown.draftedState hm.1) (hgrown.draftedState hm.1)
  | collects => exact sound_landed (hgrown.draftedState hm) (hgrown.draftedState hm)
  | stores c values review r =>
    cases r with
    | error e => exact hgrown.draftedState hm.1
    | ok u =>
      exact ⟨hgrown.draftedState hm.1, hgrown.addressed hm.2, hw.storedReview hs.filed hm.2.caseId⟩
  | edits => exact sound_landed (hgrown.sound hm) (hgrown.draftedState hm.1)
  | concludes m c values review r hphase =>
    have hknown : Drafted s c values ∧ Addressed s c review ∧ StoredReview s c review := by
      rcases hphase with rfl | ⟨rfl, -⟩
      · exact hm
      · exact hm
    exact sound_landed (hgrown.sound (m := .concluded c values review) hknown)
      (hgrown.draftedState hknown.1)
  | puts m c step values r hyields =>
    obtain ⟨hdrafted, hgated⟩ := hm.yields hyields
    exact sound_landed
      (sound_advance (hgrown.draftedState hdrafted) fun h => hgrown.gated (hgated h)) trivial

/-- A case that a later store keeps is approved when it was. -/
theorem Store.Grown.approved (h : s.Grown s') {c : UUID} {case case' : CaseData}
    (happroved : Approved s c case) (hsub : case.reviews ⊆ case'.reviews) : Approved s' c case' := by
  obtain ⟨review, hmem, haction, hreleased⟩ := happroved
  exact ⟨review, hsub hmem, haction, h.released hreleased⟩

/-- A status that an operation writes completes a case only when a review approves it. -/
theorem Phase.Sound.setStatus {c : UUID} {status : CaseStatus} {r : Except PyError Unit}
    (hm : m.Sound s) (hedge : Edge env op m (.setStatus c status) r m') {case : CaseData}
    (hcase : s.cases.get? c = some case) (hcompleted : status = .completed) :
    Approved s c case := by
  have hnone {P : Prop} (h : EngineCall.Quiet (.setStatus c status)) : P := h.elim
  cases hedge with
  | outside _ _ _ _ _ hq | waits _ _ _ _ hq | works _ _ _ _ _ _ _ hq | reports _ _ _ _ _ _ _ hq
    | reportFails _ _ _ _ _ _ _ hq => exact hnone hq
  | revoked | runs | collects | givesUp => cases hcompleted
  | decides c values validation =>
    have hmem := hm.2.status_mem
    rw [hcompleted] at hmem
    simp at hmem
  | concludes m c values review r hphase =>
    have hknown : Drafted s c values ∧ Addressed s c review ∧ StoredReview s c review := by
      rcases hphase with rfl | ⟨rfl, -⟩
      · exact hm
      · exact hm
    refine ⟨review, hknown.2.2.stored case hcase, fun haction => ?_, hknown.2.1.released⟩
    rw [HumanReview.outcome, haction] at hcompleted
    cases hcompleted

/-- A checkpoint that an operation writes is gated. -/
theorem Phase.Sound.putCheckpoint {c : UUID} {checkpoint : Checkpoint} {r : Except PyError Unit}
    (hm : m.Sound s) (hedge : Edge env op m (.putCheckpoint c checkpoint) r m') :
    Drafted s c checkpoint.values ∧
      (checkpoint.next = some .humanReview → Gated s c checkpoint.values) := by
  cases hedge with
  | outside _ _ _ _ _ hq | waits _ _ _ _ hq | works _ _ _ _ _ _ _ hq | reports _ _ _ _ _ _ _ hq
    | reportFails _ _ _ _ _ _ _ hq => exact hq.elim
  | entered => exact ⟨hm, fun h => by cases h⟩
  | puts m c step values r hyields => exact hm.yields hyields

/-- A call along an edge keeps the store gatekept. -/
theorem Gatekept.edge (hs : Gatekept s) (hm : m.Sound s) (hedge : Edge env op m call r m')
    (hw : Writes env s call r s') : Gatekept s' := by
  have hgrown := hw.grown
  refine ⟨hs.filed.edge hedge hw, fun c checkpoint hsaved => ?_, fun c case hcase hcompleted => ?_⟩
  · have hlift (h : Drafted s c checkpoint.values ∧
        (checkpoint.next = some .humanReview → Gated s c checkpoint.values)) :
        Drafted s' c checkpoint.values ∧
          (checkpoint.next = some .humanReview → Gated s' c checkpoint.values) :=
      ⟨hgrown.draftedState h.1, fun hnext => hgrown.gated (h.2 hnext)⟩
    cases hw.threadChange hsaved with
    | kept _ _ _ hold => exact hlift (hs.threads c checkpoint hold)
    | put => exact hlift (hm.putCheckpoint hedge)
    | updated _ securityEvents hardBlocks saved hold values hvalues =>
      subst hvalues hold
      have hdrafted := hs.drafted_saved c
      rw [← getD_values] at hdrafted
      exact hlift ⟨hdrafted, fun hnext => absurd hnext (routeAfter_hardBlocked rfl)⟩
  · cases hw.caseChange hcase with
    | kept _ _ _ hold => exact hgrown.approved (hs.completed c case hold hcompleted) (List.Subset.refl _)
    | created => cases hcompleted
    | recommended _ _ old hold =>
      exact hgrown.approved (hs.completed c old hold hcompleted) (List.Subset.refl _)
    | reviewed review old hold =>
      exact hgrown.approved (hs.completed _ old hold hcompleted) (List.subset_append_left _ _)
    | status _ status old hold =>
      exact hgrown.approved (hm.setStatus hedge hold hcompleted) (List.Subset.refl _)

/-- What is known of a store stays known when only its history grows. -/
theorem Gatekept.grow (hs : Gatekept s) (hgrown : s.Grown s') (hfiled : Filed s')
    (hcases : s'.cases = s.cases) (hthreads : s'.threads = s.threads) : Gatekept s' := by
  refine ⟨hfiled, fun c checkpoint hsaved => ?_, fun c case hcase hcompleted => ?_⟩
  · rw [hthreads] at hsaved
    obtain ⟨hdrafted, hgated⟩ := hs.threads c checkpoint hsaved
    exact ⟨hgrown.draftedState hdrafted, fun hnext => hgrown.gated (hgated hnext)⟩
  · rw [hcases] at hcase
    exact hgrown.approved (hs.completed c case hcase hcompleted) (List.Subset.refl _)

/-- No mark forgets what has been drafted and decided. -/
theorem record_grown (n : EngineMark) (w : EngineWorld) : w.store.Grown (w.record n).store := by
  refine ⟨?_, ?_, by simp, fun c case' hcase' _ => ⟨case', by simpa using hcase', List.Subset.refl _⟩⟩
  · cases n with
    | drafted => exact List.subset_cons_self _ _
    | executed | admitted | loaded | resetting | left | decided | reviewed => exact List.Subset.refl _
  · cases n with
    | decided => exact List.subset_cons_self _ _
    | executed | admitted | loaded | resetting | left | drafted | reviewed => exact List.Subset.refl _

/-- Enrolling an operation forgets nothing. -/
theorem enroll_grown (op : EngineOp) (w : EngineWorld) : w.store.Grown (op.enroll w).store := by
  cases op <;> exact ⟨List.Subset.refl _, List.Subset.refl _, Nat.le_refl _,
    fun c case' hcase' _ => ⟨case', hcase', List.Subset.refl _⟩⟩

/-- What is known in a phase leads over a mark to what is known in the next one. -/
theorem Phase.Sound.mark {task : ℕ} {w : EngineWorld} {n : EngineMark} (hm : m.Sound w.store)
    (hedge : MarkEdge task op m n m') : m'.Sound (w.record n).store := by
  have hgrown := record_grown n w
  cases hedge with
  | prepared | created | checked | resets | left => trivial
  | executed | again | loaded => exact hgrown.sound hm
  | drafted c values recommendation version =>
    exact ⟨hgrown.draftedState hm, List.mem_cons_self⟩
  | decided c resume values b recommendation executions hb hrec validation h =>
    refine ⟨hgrown.draftedState hm.1, List.mem_cons_self, fun hwaits => ?_, ?_⟩
    · subst h
      exact status_eq_waitingForHumanReview hwaits
    · subst h
      exact status_cases
  | reviewed c values request review version hstatus hv hr =>
    obtain ⟨hcase, hversion, -⟩ := HumanReview.rebind_eq_ok hr
    refine ⟨hgrown.draftedState hm.1, hcase, ?_⟩
    rw [hversion]
    exact hgrown.released (hm.2 rfl hstatus version hv)

end Steps

/-- What is known of all tasks and of the store. -/
structure GateInvariant (φ : ℕ → Phase) (w : EngineWorld) : Prop where
  sound : ∀ i, (φ i).Sound w.store
  gatekept : Gatekept w.store

/-- Moving one task keeps what is known of the others. -/
theorem sound_update {φ : ℕ → Phase} {i : ℕ} {m : Phase} {s s' : Store}
    (h : ∀ j, (φ j).Sound s) (hgrown : s.Grown s') (hm : m.Sound s') (j : ℕ) :
    (Function.update φ i m j).Sound s' := by
  by_cases hj : j = i
  · subst hj
    rwa [Function.update_self]
  · rw [Function.update_of_ne hj]
    exact hgrown.sound (h j)

/-- Every move of the engine keeps the gate, whatever fails and however operations interleave. -/
theorem gate_keeps (env : EngineEnvironment) (allowed : EnginePool → Move EngineOp EngineDraws → Prop) :
    (engineChart env).Keeps (engineSystem env) allowed GateInvariant fun _ => GateInvariant where
  serves _ _ _ := trivial
  start := by
    intro p op φ _ _ h
    have hgrown := enroll_grown op p.world
    exact ⟨fun j => hgrown.sound (h.sound j), h.gatekept.grow hgrown (h.gatekept.filed.enroll op)
      (enroll_cases op p.world) (enroll_threads op p.world)⟩
  expected := by
    intro p i o op c k φ _ _ _ h
    exact h.gatekept.filed.expected c
  call := by
    intro p i o op c k φ m _ _ _ h hedge
    have hw := perform_writes env p.world o c
    exact ⟨sound_update h.sound hw.grown ((h.sound i).edge h.gatekept hedge hw),
      h.gatekept.edge (h.sound i) hedge hw⟩
  mark := by
    intro i op n φ m w _ h hedge
    have hgrown := record_grown n w
    exact ⟨sound_update h.sound hgrown ((h.sound i).mark hedge),
      h.gatekept.grow hgrown (h.gatekept.filed.record n) (record_cases n w) (record_threads n w)⟩
  settled _ _ _ h := h

/-- Nothing has been stored. -/
theorem gatekept_empty : Gatekept {} :=
  ⟨filed_empty, fun _ _ h => (by cases h), fun _ _ h => (by cases h)⟩

/-- A completed case has a stored review that approves a version drafted for it, for which
`validate_controls` has computed the decision `READY` on a recommendation that requests no
information: in every pool that operations reach, in whatever order they move and whatever call
fails. -/
theorem completed_reviewed (env : EngineEnvironment) (bank : SyntheticBank) (p : EnginePool)
    (hreach : (engineSystem env).Reaches (fun _ _ => True) (idleEngine bank) p) (c : UUID)
    (case : CaseData) (hcase : p.world.store.cases.get? c = some case)
    (hcompleted : case.status = .completed) :
    ∃ review ∈ case.reviews, review.Approves ∧ Released p.world.store c review.recommendationVersion := by
  obtain ⟨φ, -, hinv⟩ := (gate_keeps env _).reaches (engineChart_covers env)
    (idleEngine_traces env bank) ⟨fun _ => trivial, gatekept_empty⟩ hreach
  obtain ⟨review, hmem, haction, hreleased⟩ := hinv.gatekept.completed c case hcase hcompleted
  refine ⟨review, hmem, ?_, hreleased⟩
  cases hact : review.action with
  | approve => exact .inl hact
  | editAndApprove => exact .inr hact
  | rejectAndRequestRework => exact absurd hact haction

/-- A case that is started and then approved is completed. -/
theorem completed_reviewed_approved :
    ∃ p case, (engineSystem (sampleEnvironment .inMemory)).Reaches (fun _ _ => True)
        (idleEngine sampleBank) p ∧
      p.world.store.cases.get? 0 = some case ∧ case.status = .completed ∧
        ∃ review ∈ case.reviews,
          review.Approves ∧ Released p.world.store 0 review.recommendationVersion := by
  obtain ⟨p, hreach, htest⟩ := System.exists_reaches (engineSystem (sampleEnvironment .inMemory))
    (fun _ _ => true) (fun _ _ _ => trivial) (idleEngine sampleBank)
    (undisturbed 0 sampleStart 34 ++ undisturbed 1 (.review sampleApproval) 10)
    (fun p => (p.world.store.cases.get? 0).any fun case => case.status = .completed)
    (by decide +kernel)
  obtain ⟨case, hcase, hcompleted⟩ := (Option.any_eq_true _ _).mp htest
  have hstatus : case.status = .completed := of_decide_eq_true hcompleted
  exact ⟨p, case, hreach, hcase, hstatus, completed_reviewed _ _ p hreach 0 case hcase hstatus⟩

end Amlguard
