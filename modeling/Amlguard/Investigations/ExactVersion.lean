import Amlguard.Investigations.ReviewGate

/-!
# The version that a review is recorded against

`review` compares the version that a request names with the stored case, and resumes the graph
in a later step. `human_review` records the review with the version of the checkpoint that it
finds then, which a rework round of another review may have moved on.

The two agree whenever the checkpoint that a review request resumes still carries the version
that the request names. Then every stored review is recorded with the version of its request,
however the requests are interleaved.
-/

namespace Amlguard

open Awaited

/-- A stored review comes from a request, and every request that it comes from names its
version. -/
def VersionsBound (w : EngineWorld) : Prop :=
  ∀ c case, w.store.cases.get? c = some case → ∀ review ∈ case.reviews,
    (∃ request ∈ w.store.history.requests, (request, review) ∈ w.store.history.reviewed) ∧
      ∀ request, (request, review) ∈ w.store.history.reviewed →
        request.recommendationVersion = review.recommendationVersion

/-- A review request that finds its thread at `human_review` finds the version that it names. -/
def MeetsVersion (w : EngineWorld) (_ : EngineDraws) : EngineCall → Prop
  | .loadCheckpoint c (.resume (.review request)) =>
    ∀ checkpoint ∈ w.store.threads.get? c, checkpoint.next = some .humanReview →
      ∀ version ∈ checkpoint.values.recommendationVersion, version = request.recommendationVersion
  | _ => True

instance (w : EngineWorld) (o : EngineDraws) (call : EngineCall) :
    Decidable (MeetsVersion w o call) := by
  unfold MeetsVersion
  split <;> infer_instance

/-- A review that is requested is remembered. -/
def Remembered (op : EngineOp) (w : EngineWorld) : Prop :=
  ∀ request, op = .review request → request ∈ w.store.history.requests

/-- Every review that has been requested is remembered. -/
def Enrolled (p : EnginePool) : Prop := ∀ t ∈ p.tasks, Remembered t.op p.world

/-- What is known of the review at hand. -/
def Phase.Meets (h : History) : Phase → Prop
  | .loaded _ next => next.Meets h
  | .stage _ step resume values =>
    step = .humanReview → ∀ request, resume = some (.review request) →
      request ∈ h.requests ∧
        ∀ version, values.recommendationVersion = some version →
          version = request.recommendationVersion
  | .reviewing _ _ review => ∃ request ∈ h.requests, (request, review) ∈ h.reviewed
  | _ => True

/-- What is known of the reviews that have been made and stored. -/
structure Bound (s : Store) : Prop where
  filed : Filed s
  versions : ∀ request review, (request, review) ∈ s.history.reviewed →
    request.recommendationVersion = review.recommendationVersion
  stored : ∀ c case, s.cases.get? c = some case → ∀ review ∈ case.reviews,
    ∃ request ∈ s.history.requests, (request, review) ∈ s.history.reviewed

/-- The requests and the reviews that have been made are never forgotten. -/
structure History.Extends (h h' : History) : Prop where
  requests : h.requests ⊆ h'.requests
  reviewed : h.reviewed ⊆ h'.reviewed

theorem History.Extends.refl (h : History) : h.Extends h :=
  ⟨List.Subset.refl _, List.Subset.refl _⟩

/-- What is known of a review at hand stays known. -/
theorem History.Extends.meets {h h' : History} (hext : h.Extends h') {m : Phase} (hm : m.Meets h) :
    m.Meets h' := by
  induction m with
  | loaded c next ih => exact ih hm
  | stage c step resume values =>
    intro hstep request hresume
    obtain ⟨hrequest, hversion⟩ := hm hstep request hresume
    exact ⟨hext.requests hrequest, hversion⟩
  | reviewing c values review =>
    obtain ⟨request, hrequest, hreviewed⟩ := hm
    exact ⟨request, hext.requests hrequest, hext.reviewed hreviewed⟩
  | idle | read | deleting | resetting | admitted | entering | loading | logged | saved | drafted | deciding
    | released | informed | collecting | reviewed | edited | concluded | failing | failed | ran =>
    trivial

/-- No mark forgets a request or a review. -/
theorem record_extends (n : EngineMark) (w : EngineWorld) :
    w.store.history.Extends (w.record n).store.history := by
  cases n with
  | reviewed => exact ⟨List.Subset.refl _, List.subset_cons_self _ _⟩
  | executed | admitted | loaded | resetting | left | drafted | decided =>
    exact ⟨List.Subset.refl _, List.Subset.refl _⟩

/-- Enrolling an operation forgets no request and no review. -/
theorem enroll_extends (op : EngineOp) (w : EngineWorld) :
    w.store.history.Extends (op.enroll w).store.history := by
  cases op with
  | review => exact ⟨List.subset_cons_self _ _, List.Subset.refl _⟩
  | start | uiStart | runPrepared | supplyInformation | recordSecurityEvent | reset | get =>
    exact .refl _

section Steps

variable {env : EngineEnvironment} {s s' : Store} {op : EngineOp} {m m' : Phase}
  {call : EngineCall} {r : Except PyError call.Reply} {h : History}

/-- Where a reply leads meets the version when both phases do. -/
theorem meets_landed {α : Type} {r : Except PyError α} (hok : m.Meets h) (herror : m'.Meets h) :
    (Phase.landed r m m').Meets h := by
  cases r with
  | ok a => exact hok
  | error e => exact herror

/-- The stage that follows a checkpoint has no review at hand. -/
theorem meets_advance {c : UUID} {next : Option Stage} {values : InvestigationState} :
    (Phase.advance c next values).Meets h := by
  cases next with
  | none => trivial
  | some step => exact fun _ request hresume => by cases hresume

/-- Only a review request resumes a run with a review. -/
theorem EngineOp.Resumes.eq_review {request : HumanReview} (hop : op.Resumes (.review request)) :
    op = .review request := by
  cases op with
  | review other =>
    cases hop
    rfl
  | supplyInformation => cases hop
  | start | uiStart | runPrepared | recordSecurityEvent | reset | get => exact hop.elim

/-- What is known of a review at hand along a call. -/
theorem Phase.Meets.edge {w : EngineWorld} {o : EngineDraws} (hm : m.Meets w.store.history)
    (hedge : Edge env op m call r m') (hw : Writes env w.store call r s')
    (hmeets : MeetsVersion w o call)
    (hrequest : Remembered op w) :
    m'.Meets w.store.history := by
  cases hedge with
  | outside | created | located | asked | unknown | forgotten | revised | revoked | loadFails
    | loadNothing | loadStart | logs | saves | saveFails | reportFails => trivial
  | waits | works | reports | notifies | notified | looks => exact hm
  | deleted | givesUp | shows | decides | informs | collects | edits | concludes | runs | stores =>
    exact meets_landed trivial trivial
  | entered => exact meets_landed (fun h => by cases h) trivial
  | puts => exact meets_landed meets_advance trivial
  | loadStage c runId value values last step hop =>
    intro hstep request hresume
    cases hresume
    have hsaved := hw.loadCheckpoint_ok
    subst hstep
    exact ⟨hrequest request hop.eq_review, fun version hversion => hmeets _ hsaved rfl version hversion⟩

/-- What is known of a review at hand along a mark. -/
theorem Phase.Meets.mark {task : ℕ} {w : EngineWorld} {n : EngineMark}
    (hm : m.Meets w.store.history) (hedge : MarkEdge task op m n m') :
    m'.Meets (w.record n).store.history := by
  have hext := record_extends n w
  cases hedge with
  | prepared | created | checked | resets | left | drafted | decided => trivial
  | executed | again | loaded => exact hext.meets hm
  | reviewed c values request review version hstatus hv hr =>
    exact ⟨request, hext.requests (hm rfl request rfl).1, List.mem_cons_self⟩

/-- A review is made with the version that its request names. -/
theorem Bound.mark {task : ℕ} {w : EngineWorld} {n : EngineMark} (hs : Bound w.store)
    (hm : m.Meets w.store.history) (hedge : MarkEdge task op m n m') : Bound (w.record n).store := by
  have hext := record_extends n w
  refine ⟨hs.filed.record n, fun request review hmem => ?_, fun c case hcase review hmem => ?_⟩
  · cases hedge with
    | reviewed c values _ _ version hstatus hv hr =>
      rcases List.mem_cons.mp hmem with heq | hold
      · cases heq
        obtain ⟨-, hversion, -⟩ := HumanReview.rebind_eq_ok hr
        rw [hversion]
        exact ((hm rfl _ rfl).2 version hv).symm
      · exact hs.versions request review hold
    | executed | prepared | created | checked | again | loaded | resets | left | drafted | decided =>
      exact hs.versions request review hmem
  · rw [record_cases] at hcase
    obtain ⟨request, hrequest, hreviewed⟩ := hs.stored c case hcase review hmem
    exact ⟨request, hext.requests hrequest, hext.reviewed hreviewed⟩

/-- Only a review at hand is stored. -/
theorem Bound.edge (hs : Bound s) (hm : m.Meets s.history) (hedge : Edge env op m call r m')
    (hw : Writes env s call r s') : Bound s' := by
  refine ⟨hs.filed.edge hedge hw, ?_, fun c case hcase review hmem => ?_⟩
  · rw [hw.history]
    exact hs.versions
  · rw [hw.history]
    cases hw.caseChange hcase with
    | kept _ _ _ hold => exact hs.stored c case hold review hmem
    | created => cases hmem
    | recommended _ _ old hold | status _ _ old hold => exact hs.stored c old hold review hmem
    | reviewed saved old hold =>
      rcases List.mem_append.mp hmem with hmem | hnew
      · exact hs.stored _ old hold review hmem
      · obtain rfl := List.mem_singleton.mp hnew
        cases hedge with
        | outside _ _ _ _ _ hq | waits _ _ _ _ hq | works _ _ _ _ _ _ _ hq
          | reports _ _ _ _ _ _ _ hq | reportFails _ _ _ _ _ _ _ hq => exact hq.elim
        | stores => exact hm

/-- Enrolling a request keeps the versions bound. -/
theorem Bound.enroll {w : EngineWorld} (hs : Bound w.store) (op : EngineOp) :
    Bound (op.enroll w).store := by
  have hext := enroll_extends op w
  have hreviewed : (op.enroll w).store.history.reviewed = w.store.history.reviewed := by
    cases op <;> rfl
  refine ⟨hs.filed.enroll op, ?_, fun c case hcase review hmem => ?_⟩
  · rw [hreviewed]
    exact hs.versions
  · rw [enroll_cases] at hcase
    obtain ⟨request, hrequest, hmade⟩ := hs.stored c case hcase review hmem
    exact ⟨request, hext.requests hrequest, hext.reviewed hmade⟩

end Steps

/-- Every request that is enrolled stays so. -/
theorem enrolled_step {env : EngineEnvironment}
    {allowed : EnginePool → Move EngineOp EngineDraws → Prop} {p q : EnginePool} (hp : Enrolled p)
    (hstep : (engineSystem env).Step allowed p q) : Enrolled q := by
  apply System.ops_step _ _ _ _ hp hstep
  · rintro i op w request rfl
    exact List.mem_cons_self
  · intro i op op' w h request hop
    exact (enroll_extends op' w).requests (h request hop)
  · intro op w o c h request hop
    have hw := perform_writes env w o c
    change request ∈ (w.perform env o c).2.store.history.requests
    rw [hw.history]
    exact h request hop
  · intro op n w h request hop
    exact (record_extends n w).requests (h request hop)

/-- What is known of all tasks and of the store. -/
structure VersionInvariant (φ : ℕ → Phase) (w : EngineWorld) : Prop where
  meets : ∀ i, (φ i).Meets w.store.history
  bound : Bound w.store

/-- Moving one task keeps what is known of the reviews at hand. -/
theorem meets_update {φ : ℕ → Phase} {i : ℕ} {m : Phase} {h h' : History}
    (hφ : ∀ j, (φ j).Meets h) (hext : h.Extends h') (hm : m.Meets h') (j : ℕ) :
    (Function.update φ i m j).Meets h' := by
  by_cases hj : j = i
  · subst hj
    rwa [Function.update_self]
  · rw [Function.update_of_ne hj]
    exact hext.meets (hφ j)

/-- Every move in which a review request meets its version keeps the versions bound. -/
theorem version_keeps (env : EngineEnvironment) :
    (engineChart env).Keeps (engineSystem env)
      (fun p m => Outcomes MeetsVersion p m ∧ Enrolled p) VersionInvariant
      fun _ => VersionInvariant where
  serves _ _ _ := trivial
  start := by
    intro p op φ _ _ h
    have hext := enroll_extends op p.world
    exact ⟨fun j => hext.meets (h.meets j), h.bound.enroll op⟩
  expected := by
    intro p i o op c k φ _ _ _ h
    exact h.bound.filed.expected c
  call := by
    intro p i o op c k φ m _ htask hallowed h hedge
    have hw := perform_writes env p.world o c
    have hmeets : MeetsVersion p.world o c := hallowed.1 c (by simp [Pool.awaits, htask])
    have hrequest : Remembered op p.world := hallowed.2 _ (List.mem_of_getElem? htask)
    refine ⟨?_, h.bound.edge (h.meets i) hedge hw⟩
    have hhistory := hw.history
    change (p.world.perform env o c).2.store.history = _ at hhistory
    change ∀ j, (Function.update φ i m j).Meets (p.world.perform env o c).2.store.history
    rw [hhistory]
    exact meets_update h.meets (.refl _) ((h.meets i).edge hedge hw hmeets hrequest)
  mark := by
    intro i op n φ m w _ h hedge
    exact ⟨meets_update h.meets (record_extends n w) ((h.meets i).mark hedge),
      h.bound.mark (h.meets i) hedge⟩
  settled _ _ _ h := h

/-- When every review request that finds its thread at `human_review` finds there the version
that it names, every stored review is recorded with the version of its request. -/
theorem versions_bound_of_meetsVersion (env : EngineEnvironment) (bank : SyntheticBank)
    (p : EnginePool)
    (hreach : (engineSystem env).Reaches (Outcomes MeetsVersion) (idleEngine bank) p) :
    VersionsBound p.world := by
  have hempty : Bound (idleEngine bank).world.store :=
    ⟨filed_empty, fun _ _ h => (by cases h), fun _ _ h => (by cases h)⟩
  have hstrong := hreach.strengthen (K := Enrolled) (fun _ h => by cases h)
    fun _ _ hp hstep => enrolled_step hp hstep
  obtain ⟨φ, -, hinv⟩ := (version_keeps env).reaches (engineChart_covers env)
    (idleEngine_traces env bank) ⟨fun _ => trivial, hempty⟩ hstrong
  intro c case hcase review hmem
  exact ⟨hinv.bound.stored c case hcase review hmem,
    fun request hmade => hinv.bound.versions request review hmade⟩

/-- A review of the first version that asks for rework. -/
def sampleRejection : HumanReview :=
  { sampleApproval with
    reviewId := 1, action := .rejectAndRequestRework, reviewerId := "second reviewer"
    edited_iff := by decide }

/-- A review that finds the version that it names is stored with it. -/
theorem versions_bound_of_meetsVersion_approved :
    ∃ p, (engineSystem (sampleEnvironment .postgres)).Reaches (Outcomes MeetsVersion)
        (idleEngine sampleBank) p ∧
      (p.world.store.cases.get? 0).any (fun case => case.reviews = [sampleApproval]) = true ∧
        VersionsBound p.world := by
  obtain ⟨p, hreach, htest⟩ := System.exists_reaches (engineSystem (sampleEnvironment .postgres))
    (fun p m => decide (Outcomes MeetsVersion p m)) (fun _ _ h => of_decide_eq_true h)
    (idleEngine sampleBank)
    (undisturbed 0 sampleStart 34 ++ undisturbed 1 (.review sampleApproval) 10)
    (fun p => (p.world.store.cases.get? 0).any fun case => case.reviews = [sampleApproval])
    (by decide +kernel)
  exact ⟨p, hreach, htest, versions_bound_of_meetsVersion _ _ p hreach⟩

/-- Two reviews of the first version pass their check; the rejection is carried out, and the
approval is then recorded against the second version. -/
theorem approval_recorded_for_redraft :
    ¬∀ p, (engineSystem (sampleEnvironment .postgres)).Reaches (fun _ _ => True)
        (idleEngine sampleBank) p → VersionsBound p.world := by
  obtain ⟨p, hreach, htest⟩ := System.exists_reaches (engineSystem (sampleEnvironment .postgres))
    (fun _ _ => true) (fun _ _ _ => trivial) (idleEngine sampleBank)
    (undisturbed 0 sampleStart 34 ++ undisturbed 1 (.review sampleRejection) 1 ++
      undisturbed 2 (.review sampleApproval) 1 ++ List.replicate 23 (.advance 1 quietDraws) ++
        List.replicate 3 (.advance 2 quietDraws))
    (fun p => (p.world.store.cases.get? 0).any fun case =>
      case.reviews.any fun review => p.world.store.history.reviewed.any fun pair =>
        pair.2 = review ∧ pair.1.recommendationVersion ≠ review.recommendationVersion)
    (by decide +kernel)
  intro hbound
  obtain ⟨case, hcase, hreviews⟩ := (Option.any_eq_true _ _).mp htest
  obtain ⟨review, hmem, hpairs⟩ := List.any_eq_true.mp hreviews
  obtain ⟨⟨request, made⟩, hmade, hpair⟩ := List.any_eq_true.mp hpairs
  obtain ⟨rfl, hne⟩ := of_decide_eq_true hpair
  exact hne ((hbound p hreach 0 case hcase made hmem).2 request hmade)

end Amlguard
