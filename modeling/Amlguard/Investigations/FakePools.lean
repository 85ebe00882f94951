import Amlguard.Investigations.FakeStages
import Amlguard.Investigations.CausalEvidence
import Amlguard.Investigations.EvidenceScope

/-!
# Operations with the deterministic model

Any number of operations on one engine whose model is deterministic, in any interleaving and whatever
fails, as long as no security event is recorded from outside. Every decision is ready, and every
thread fits the stage with which it goes on.
-/

namespace Amlguard

open Awaited Prog FakeStructuredLLM

section Operations

variable {py : PyBuiltins} {bank : SyntheticBank} {env : EngineEnvironment} {m : Wake} {α β : Type}

/-- A program that writes no checkpoint, and no draft and no decision to the history. -/
theorem walks_harmless {p : Investigation α} (hp : p.Only EngineCall.Harmless Unmarked) :
    Walks py bank p (fun _ _ => True) m := by
  apply Diagram.follows_of_only (D := fakePath py bank) (I := fun _ => True) hp trivial
  · intro m n _ hn
    refine ⟨m, ?_, trivial⟩
    cases n with
    | executed => exact ⟨hn, rfl⟩
    | drafted | decided => exact hn.elim
    | admitted | loaded | resetting | left | reviewed => rfl
  · intro m call r _ hcall
    refine ⟨m.after call r, ⟨?_, rfl⟩, trivial⟩
    cases call <;> first | exact hcall.elim | trivial

theorem harmless_bind {p : Investigation α} {f : α → Investigation β}
    (hp : p.Only EngineCall.Harmless Unmarked) (hf : ∀ a, (f a).Only EngineCall.Harmless Unmarked) :
    (p >>= f).Only EngineCall.Harmless Unmarked := hp.bind hf

theorem harmless_invoke {call : EngineCall} (h : call.Harmless) :
    (invoke call).Only EngineCall.Harmless Unmarked :=
  (only_call (S := engineSignature) call).mpr h

theorem harmless_jot {n : EngineMark} (h : Unmarked n) : (jot n).Only EngineCall.Harmless Unmarked :=
  (only_note (S := engineSignature) n).mpr h

theorem harmless_computed (r : Except PyError α) :
    (computed r).Only EngineCall.Harmless Unmarked := only_settleResult (S := engineSignature) r

theorem harmless_pure (a : α) : (pure a : Investigation α).Only EngineCall.Harmless Unmarked :=
  only_pure (S := engineSignature) a

/-- A sequence of which nothing is asked at its end. -/
theorem walks_then {p : Investigation α} {f : α → Investigation β}
    {mid : Except PyError α → Wake → Prop} (hp : Walks py bank p mid m)
    (hf : ∀ a m, mid (.ok a) m → Walks py bank (f a) (fun _ _ => True) m) :
    Walks py bank (p >>= f) (fun _ _ => True) m :=
  walks_bind hp hf fun _ _ _ => trivial

/-- A harmless part and what follows it. -/
theorem walks_harmless_bind {p : Investigation α} {f : α → Investigation β}
    (hp : p.Only EngineCall.Harmless Unmarked)
    (hf : ∀ a m, Walks py bank (f a) (fun _ _ => True) m) :
    Walks py bank (p >>= f) (fun _ _ => True) m :=
  walks_then (walks_harmless hp) fun a m _ => hf a m

/-- Where a run of the graph is left: a run from a new input ends with a failure, or waits. -/
def runLeft (py : PyBuiltins) (bank : SyntheticBank) :
    GraphInput → Except PyError Unit → Wake → Prop
  | .start b, r, m => r = .ok () → m.Left py bank b False False
  | .resume _, _, _ => True

/-- The state of a new input fits the entry of the graph. -/
theorem fit_started (values : InvestigationState) (b : CaseBinding) :
    Fit py bank b False .loadAndRetrieve (values.started b) :=
  ⟨rfl, rfl, fun _ hitem => absurd hitem List.not_mem_nil, fun _ => not_false,
    fun hne => absurd rfl hne, nofun, nofun, nofun, nofun⟩

/-- A run from a new input. -/
theorem started_walks {values : InvestigationState} {b : CaseBinding} (hm : m.pending = none) :
    Walks py bank (do
      invoke (.putCheckpoint b.caseId ⟨values.started b, none, some .loadAndRetrieve⟩)
      drive env b.caseId recursionLimit .loadAndRetrieve none (values.started b))
      (runLeft py bank (.start b)) m := by
  have hfit : Fit py bank b False .loadAndRetrieve (values.started b) := fit_started values b
  apply walks_invoke_bind
  · intro b' hb'
    cases hb'
    refine ⟨rfl, fun stage hstage => ?_⟩
    cases hstage
    exact ⟨False, hfit⟩
  · intro _ _
    apply (drive_walks recursionLimit hfit _ _).mono
    · intro r m' hleft hr
      exact (hleft hr).mono nofun
    · intro draft hdraft
      exact absurd (hm.symm.trans hdraft) nofun
    · intro _ hinterrupts
      rcases hinterrupts with h | h <;> cases h
  · exact fun e => nofun

/-- A run of the graph on a state that names no run raises. -/
theorem unbound_walks {thread : UUID} {fuel : ℕ} {stage : Stage} {resume : Option Resume}
    {values : InvestigationState} (hbinding : values.binding = none) :
    Walks py bank (drive env thread fuel stage resume values) (fun _ _ => True) m := by
  cases fuel with
  | zero => exact walks_computed trivial
  | succ fuel =>
    unfold drive
    have hguarded : Walks py bank (guarded env values stage resume) (fun r _ => ∃ e, r = .error e) m := by
      unfold guarded
      rw [hbinding]
      exact walks_computed_bind (fun _ h => by cases h) fun e _ => ⟨e, rfl⟩
    apply walks_bind hguarded
    · rintro a _ ⟨e, he⟩
      cases he
    · exact fun _ _ _ => trivial

/-- A run of the graph. -/
theorem ainvoke_walks {task : ℕ} {c : UUID} {input : GraphInput}
    (hinput : ∀ b, input = .start b → b.caseId = c) (hm : m.pending = none) :
    Walks py bank (ainvoke env task c input) (runLeft py bank input) m := by
  unfold ainvoke
  apply walks_call_bind
  · trivial
  · intro saved hsaved
    apply walks_jot_bind m
    · rfl
    cases input with
    | start b =>
      obtain rfl := hinput b rfl
      exact started_walks hm
    | resume value =>
      match saved with
      | none => exact walks_pure trivial
      | some ⟨values, last, none⟩ => exact walks_pure trivial
      | some ⟨values, last, some stage⟩ =>
        have hfits := hsaved _ rfl
        cases hbinding : values.binding with
        | none => exact unbound_walks hbinding
        | some b =>
          obtain ⟨rfl, hstage⟩ := hfits b hbinding
          obtain ⟨supplied, hfit⟩ := hstage stage rfl
          apply (drive_walks recursionLimit hfit _ _).mono
          · exact fun _ _ _ => trivial
          · intro draft hdraft
            exact absurd (hm.symm.trans hdraft) nofun
          · exact nofun
  · intro e
    cases input <;> simp [runLeft]

/-- A span of an operation. -/
theorem admittedTo_walks {task : ℕ} {c : UUID} {p : Investigation α}
    (hp : Walks py bank p (fun _ _ => True) m) :
    Walks py bank (LangGraphInvestigationEngine.admittedTo task c p) (fun _ _ => True) m := by
  apply walks_jot_bind m
  · rfl
  apply walks_finally hp _ fun _ _ _ _ => trivial
  exact (only_note (S := engineSignature) _).mpr trivial

open LangGraphInvestigationEngine

/-- `_to_run` only reads. -/
theorem assembleRun_untracked {case : CaseData} :
    (assembleRun case).Only EngineCall.Untracked Unmarked :=
  ((only_call (S := engineSignature) _).mpr trivial).bind fun _ => only_pure (S := engineSignature) _

theorem assembleRun_harmless {case : CaseData} :
    (assembleRun case).Only EngineCall.Harmless Unmarked :=
  harmless_bind (harmless_invoke trivial) fun _ => harmless_pure _

theorem toRun_harmless {c : UUID} : (toRun c).Only EngineCall.Harmless Unmarked :=
  harmless_bind (harmless_invoke trivial) fun _ => assembleRun_harmless

/-- `run_prepared`. -/
theorem runPrepared_walks {task : ℕ} {case : CaseData} {actorId contextCondition : String}
    (hm : m.pending = none) :
    Walks py bank (runPrepared env task case actorId contextCondition) (fun _ _ => True) m := by
  apply walks_then (admittedTo_walks _)
  · exact fun _ _ _ => walks_harmless toRun_harmless
  · apply (ainvoke_walks _ hm).mono fun _ _ _ => trivial
    intro b hb
    cases hb
    rfl

/-- A resumed run and the result that is read after it. -/
theorem resumed_walks {task : ℕ} {c : UUID} {value : Resume} {k : UUID} (hm : m.pending = none) :
    Walks py bank (do
      admittedTo task c (ainvoke env task c (.resume value))
      toRun k) (fun _ _ => True) m := by
  apply walks_then (admittedTo_walks _)
  · exact fun _ _ _ => walks_harmless toRun_harmless
  · exact (ainvoke_walks (fun _ h => by cases h) hm).mono fun _ _ _ => trivial

/-- The background job of a start. -/
theorem runUiInvestigation_walks {task : ℕ} {case : CaseData} {actorId contextCondition : String}
    (hm : m.pending = none) :
    Walks py bank (runUiInvestigation env task case actorId contextCondition) (fun _ _ => True) m := by
  apply (Diagram.follows_suppress (D := fakePath py bank) _ _ m).mpr
  exact walks_then (runPrepared_walks hm) fun _ _ _ => walks_pure trivial

/-- `reset`. -/
theorem reset_harmless {task : ℕ} {c : UUID} {actorId : String} :
    (reset task c actorId).Only EngineCall.Harmless Unmarked := by
  refine harmless_bind (harmless_invoke trivial) fun case => ?_
  refine harmless_bind (harmless_computed _) fun _ => harmless_bind (harmless_jot trivial) fun _ => ?_
  refine harmless_bind (Only.finally' ?_ (harmless_jot trivial)) fun _ => harmless_pure _
  refine harmless_bind (harmless_invoke trivial) fun _ => harmless_bind (harmless_invoke trivial) fun _ => ?_
  apply Only.suppress
  exact harmless_invoke trivial

/-- No security event is recorded from outside. -/
def EngineOp.Unrecorded : EngineOp → Prop
  | .recordSecurityEvent _ _ => False
  | _ => True

instance : (op : EngineOp) → Decidable op.Unrecorded
  | .recordSecurityEvent _ _ => isFalse id
  | .start .. | .uiStart .. | .runPrepared .. | .review _ | .supplyInformation .. | .reset .. | .get _ =>
    isTrue trivial

/-- Every operation that records no security event. -/
theorem program_walks (task : ℕ) {op : EngineOp} (hop : op.Unrecorded) :
    Walks py bank (EngineOp.program env task op) (fun _ _ => True) {} := by
  have hdiscard {α : Type} {p : Investigation α} (hp : Walks py bank p (fun _ _ => True) {}) :
      Walks py bank (EngineOp.discard p) (fun _ _ => True) {} :=
    walks_then hp fun _ _ _ => walks_pure trivial
  cases op with
  | start alertId actorId tenantId contextCondition =>
    apply hdiscard
    apply walks_invoke_bind
    · trivial
    · intro prepared _
      split
      · exact runPrepared_walks rfl
      · exact walks_harmless toRun_harmless
    · exact fun _ => trivial
  | uiStart alertId actorId tenantId contextCondition =>
    apply walks_invoke_bind
    · trivial
    · intro prepared _
      split
      · exact runUiInvestigation_walks rfl
      · apply walks_invoke_bind
        · trivial
        · intro case _
          split
          · apply admittedTo_walks
            apply walks_then (walks_untracked assembleRun_untracked)
            rintro _ _ rfl
            exact runUiInvestigation_walks rfl
          · exact walks_harmless_bind assembleRun_harmless fun _ _ => walks_pure trivial
        · exact fun _ => trivial
    · exact fun _ => trivial
  | runPrepared case actorId contextCondition => exact hdiscard (runPrepared_walks rfl)
  | review request =>
    apply hdiscard
    apply walks_call_bind
    · trivial
    · intro case _
      apply walks_computed_bind
      · intro _ _
        apply walks_computed_bind
        · exact fun _ _ => resumed_walks rfl
        · exact fun _ _ => trivial
      · exact fun _ _ => trivial
    · exact fun _ => trivial
  | supplyInformation c submission =>
    apply hdiscard
    apply walks_call_bind
    · trivial
    · intro case _
      apply walks_computed_bind
      · exact fun _ _ => resumed_walks rfl
      · exact fun _ _ => trivial
    · exact fun _ => trivial
  | recordSecurityEvent => exact hop.elim
  | reset c actorId => exact hdiscard (walks_harmless reset_harmless)
  | get c => exact hdiscard (walks_harmless toRun_harmless)

end Operations

/-- The chart of the operations that record no security event. -/
def fakeChart (py : PyBuiltins) (bank : SyntheticBank) : Chart engineSignature EngineOp Wake where
  diagram _ _ := fakePath py bank
  initial := {}
  Ends _ _ _ := True
  Serves := EngineOp.Unrecorded

/-- The model answers as the deterministic one does, unless the call raises. -/
def FakeAnswers (py : PyBuiltins) (draws : EngineDraws) (call : EngineCall) : Prop :=
  ∀ request, call = .recommend request →
    draws.failure.Raises ∨ recommend py request = .ok draws.answer

/-- Operations that record no security event are started, and the model is deterministic. -/
def FakeMoves (py : PyBuiltins) (p : EnginePool) : Move EngineOp EngineDraws → Prop
  | .start op => op.Unrecorded
  | .advance i draws => ∀ call ∈ p.awaits i, FakeAnswers py draws call

/-- Every thread fits, every execution is clean, and every decision is ready. -/
structure Passing (py : PyBuiltins) (bank : SyntheticBank) (w : EngineWorld) : Prop where
  bank_eq : w.bank = bank
  filed : Filed w.store
  threads : ∀ c checkpoint, w.store.threads.get? c = some checkpoint → checkpoint.Fits py bank c
  executions : ∀ execution ∈ w.executions, execution.Clean
  decided : ∀ c version validation, (c, version, validation) ∈ w.store.history.decided →
    validation.decision = ⟨.ready, []⟩

namespace Passing

variable {py : PyBuiltins} {bank : SyntheticBank} {env : EngineEnvironment} {w : EngineWorld}

/-- Nothing has happened in an idle engine. -/
theorem idle (py : PyBuiltins) (bank : SyntheticBank) : Passing py bank { bank } :=
  ⟨rfl, filed_empty, fun _ _ h => (by cases h), fun _ h => (by cases h), fun _ _ _ h => (by cases h)⟩

/-- A call that writes fitting checkpoints. -/
theorem perform (h : Passing py bank w) (draws : EngineDraws) {call : EngineCall}
    (hcall : MayWrite py bank call) : Passing py bank (w.perform env draws call).2 := by
  have hw := perform_writes env w draws call
  have hput : ∀ c checkpoint, call = .putCheckpoint c checkpoint → checkpoint.Fits py bank c := by
    rintro c checkpoint rfl
    exact hcall
  constructor
  · exact (perform_bank env w draws call).trans h.bank_eq
  · exact h.filed.writes hw fun c checkpoint heq b hb => (hput c checkpoint heq b hb).1
  · intro c checkpoint hsaved
    cases hw.threadChange hsaved with
    | kept _ _ _ hold => exact h.threads c checkpoint hold
    | put => exact hput c checkpoint rfl
    | updated => exact hcall.elim
  · rw [(perform_logs env w draws call).1]
    exact h.executions
  · intro c version validation hdecided
    rw [hw.history] at hdecided
    exact h.decided c version validation hdecided

/-- A mark that a run may write. -/
theorem record (h : Passing py bank w) {m m' : Wake} {n : EngineMark} (hn : m.Marks n m') :
    Passing py bank (w.record n) := by
  have hfiled := h.filed.record n
  cases n with
  | executed execution =>
    refine ⟨h.bank_eq, hfiled, h.threads, fun e he => ?_, h.decided⟩
    rcases List.mem_append.mp he with hold | hnew
    · exact h.executions e hold
    · obtain rfl := List.mem_singleton.mp hnew
      exact hn.1
  | decided c version validation =>
    refine ⟨h.bank_eq, hfiled, h.threads, h.executions, fun c' version' validation' hd => ?_⟩
    rcases List.mem_cons.mp hd with hnew | hold
    · cases hnew
      exact hn.1
    · exact h.decided c' version' validation' hold
  | admitted | loaded | resetting | left | drafted | reviewed =>
    exact ⟨h.bank_eq, hfiled, h.threads, h.executions, h.decided⟩

/-- The replies are those that are expected. -/
theorem answered (h : Passing py bank w) {draws : EngineDraws} {call : EngineCall}
    (hfake : FakeAnswers py draws call) : Answered py bank call (w.perform env draws call).1 := by
  cases call with
  | getAlert alertId =>
    intro alert halert
    have heffect : (w.effect env draws (.getAlert alertId)).1 = .ok alert := by
      rw [← perform_ok halert, halert]
    rw [← h.bank_eq]
    exact orRaise_eq_ok.mp heffect
  | getKyc customerId =>
    intro kyc hkyc
    have heffect : (w.effect env draws (.getKyc customerId)).1 = .ok kyc := by
      rw [← perform_ok hkyc, hkyc]
    rw [← h.bank_eq]
    exact orRaise_eq_ok.mp heffect
  | recommend request =>
    intro answer hanswer
    have hanswered : (w.effect env draws (.recommend request)).1 = .ok answer := by
      rw [← perform_ok hanswer, hanswer]
    cases hanswered
    apply (hfake request rfl).resolve_left
    intro hraises
    cases hfailure : draws.failure with
    | none =>
      rw [hfailure] at hraises
      exact hraises
    | before e | after e =>
      simp only [EngineWorld.perform, EngineCall.MayFail, hfailure] at hanswer
      cases hanswer
  | toolExecutions => exact ⟨w.executions, rfl, h.executions⟩
  | loadCheckpoint c input =>
    intro checkpoint hsaved
    exact h.threads c checkpoint
      (hsaved ▸ perform_writes env w draws (.loadCheckpoint c input)).loadCheckpoint_ok
  | createCase | getCase | deleteCase | getCustomer | getTransactions | saveRecommendation | saveReview
    | setStatus | audit | trajectoryHook | stageHook | uuid4 | putCheckpoint | getState | updateState
    | deleteThread => trivial

end Passing

/-- Every allowed move keeps the engine passing. -/
theorem fake_keeps (env : EngineEnvironment) (py : PyBuiltins) (bank : SyntheticBank) :
    (fakeChart py bank).Keeps (engineSystem env) (FakeMoves py) (fun _ w => Passing py bank w)
      fun _ _ w => Passing py bank w where
  serves _ _ hallowed := hallowed
  start p op φ _ _ h := by
    have hfiled := h.filed.enroll op
    cases op <;> exact ⟨h.bank_eq, hfiled, h.threads, h.executions, h.decided⟩
  expected p i draws op call k φ _ htask hallowed h := by
    apply h.answered
    exact hallowed call (by simp [Pool.awaits, htask])
  call := by
    rintro p i draws op call k φ m - - - h ⟨hcall, rfl⟩
    exact h.perform draws hcall
  mark i op n φ m w _ h hedge := h.record hedge
  settled _ _ _ h := h

/-- With the deterministic model every reachable engine is passing. -/
theorem fake_reaches (env : EngineEnvironment) (py : PyBuiltins) (bank : SyntheticBank)
    {p : EnginePool} (hreach : (engineSystem env).Reaches (FakeMoves py) (idleEngine bank) p) :
    Passing py bank p.world := by
  obtain ⟨_, -, h⟩ := (fake_keeps env py bank).reaches (fun i op hop => program_walks i hop)
    (Chart.traces_fresh _ _) (Passing.idle py bank) hreach
  exact h

end Amlguard
