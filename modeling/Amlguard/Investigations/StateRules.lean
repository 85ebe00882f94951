import Amlguard.Investigations.Conduct
import Amlguard.Investigations.Writes
import Amlguard.Library.Contract

/-!
# Rules of the saved states

What holds of an empty state, and is kept by each of the steps in which a run changes its state, holds
of every state that is ever saved, whatever fails and however the runs are interleaved. It also holds
of the states from which the model is asked.

The selections of policies that the trajectories show are those of some evidence.
-/

namespace Amlguard

open Awaited

/-- What a run or a security event may do to a state keeps a condition on it. -/
structure StateRule (env : EngineEnvironment) (P : InvestigationState → Prop) : Prop where
  empty : P {}
  started (values : InvestigationState) (b : CaseBinding) (h : P values) : P (values.started b)
  withEvidence (values : InvestigationState) (evidence : List EvidenceItem) (selection : PolicySelection)
    (h : P values) (hselection : env.selectPolicies evidence = .ok selection) :
    P (values.withEvidence evidence selection)
  withDraft (values : InvestigationState) (recommendation : InvestigationRecommendation) (version : ℕ)
    (h : P values) : P (values.withDraft recommendation version)
  withValidation (values : InvestigationState) (validation : Validation) (h : P values) :
    P (values.withValidation validation)
  withReview (values : InvestigationState) (review : HumanReview) (h : P values) :
    P (values.withReview review)
  withFailure (values : InvestigationState) (failure : InvestigationError) (h : P values) :
    P (values.withFailure failure)
  blocked (values : InvestigationState) (securityEvents hardBlocks : List String) (h : P values) :
    P { values with securityEvents, hardBlocks, status := .hardBlocked }

/-- A selection of policies that is shown is one for some evidence. -/
def TrajectoryEvent.Selected (env : EngineEnvironment) : TrajectoryEvent → Prop
  | .policiesRetrieved _ jurisdiction selection =>
    jurisdiction = env.policyJurisdiction ∧ ∃ evidence, env.selectPolicies evidence = .ok selection
  | _ => True

/-- A request to the model is made from a state. -/
structure ModelRequest.MadeFrom (request : ModelRequest) (values : InvestigationState) : Prop where
  evidence : request.evidence = values.evidence
  policies : request.policies = values.policies
  policyContext : request.policyContext = values.policyRetrieval
  reviewerFeedback : request.reviewerFeedback = values.reviewerFeedback

/-- The contract of a condition on the states that are saved. -/
def stateContract (env : EngineEnvironment) (P : InvestigationState → Prop) :
    Contract engineSignature where
  calls
    | .putCheckpoint _ checkpoint => P checkpoint.values
    | .recommend request => ∃ values, P values ∧ request.MadeFrom values
    | .trajectoryHook _ event => event.Selected env
    | _ => True
  expected
    | .loadCheckpoint _ _, r => ∀ checkpoint, r = .ok (some checkpoint) → P checkpoint.values
    | _, _ => True

/-- A call on which the contract lays no condition. -/
def EngineCall.Free : EngineCall → Prop
  | .putCheckpoint _ _ | .recommend _ | .trajectoryHook _ _ => False
  | _ => True

section Rules

variable {env : EngineEnvironment} {P : InvestigationState → Prop} {α β : Type}

/-- The program keeps to the contract of a condition on the states, and what it returns is as the
postcondition says. -/
abbrev KeepsTo (env : EngineEnvironment) (P : InvestigationState → Prop) (p : Investigation α)
    (post : α → Prop) : Prop :=
  (stateContract env P).Honours p fun r => ∀ a, r = .ok a → post a

/-- A free call is always one of the contract. -/
theorem EngineCall.Free.calls {call : EngineCall} (h : call.Free) : (stateContract env P).calls call := by
  cases call with
  | putCheckpoint | recommend | trajectoryHook => exact h.elim
  | _ => trivial

/-- A tool makes free calls only. -/
theorem free_of_gathers {p : Investigation α} (h : GatheringProgram p) : p.Only EngineCall.Free Logs := by
  apply Prog.Only.mono h
  · intro call hcall
    cases call with
    | putCheckpoint | recommend | trajectoryHook => exact hcall.elim
    | _ => trivial
  · exact fun _ hn => hn

namespace KeepsTo

/-- A returned value. -/
theorem returned {a : α} {post : α → Prop} (h : post a) : KeepsTo env P (pure a) post := by
  apply Contract.honours_pure (S := engineSignature)
  rintro _ ⟨⟩
  exact h

/-- An exception. -/
theorem raised {e : PyError} {post : α → Prop} : KeepsTo env P (computed (.error e)) post := by
  apply Contract.honours_settleResult (S := engineSignature)
  rintro _ ⟨⟩

/-- A part of a program and what follows it. -/
theorem sequence {p : Investigation α} {f : α → Investigation β} (mid : α → Prop) {post : β → Prop}
    (hp : KeepsTo env P p mid) (hf : ∀ a, mid a → KeepsTo env P (f a) post) :
    KeepsTo env P (p >>= f) post := by
  apply Contract.honours_bind hp
  · exact fun a ha => hf a (ha a rfl)
  · rintro e - _ ⟨⟩

/-- A call of the contract and what follows it. -/
theorem invoking {call : EngineCall} {f : call.Reply → Investigation β} {post : β → Prop}
    (hcall : (stateContract env P).calls call)
    (hf : ∀ a, (stateContract env P).expected call (.ok a) → KeepsTo env P (f a) post) :
    KeepsTo env P (invoke call >>= f) post := by
  apply sequence (fun a => (stateContract env P).expected call (.ok a)) _ hf
  apply Contract.honours_call hcall
  rintro _ hr a rfl
  exact hr

/-- A computed result and what follows it. -/
theorem computing {r : Except PyError α} {f : α → Investigation β} {post : β → Prop}
    (hf : ∀ a, r = .ok a → KeepsTo env P (f a) post) : KeepsTo env P (computed r >>= f) post :=
  sequence _ (Contract.honours_settleResult (S := engineSignature) fun _ ha => ha) hf

/-- A part of free calls and what follows it. -/
theorem freely {p : Investigation α} {f : α → Investigation β} {marks : EngineMark → Prop}
    {post : β → Prop} (hp : p.Only EngineCall.Free marks) (hf : ∀ a, KeepsTo env P (f a) post) :
    KeepsTo env P (p >>= f) post := by
  apply sequence (fun _ => True) _ fun a _ => hf a
  apply Contract.Honours.mono (Contract.honours_of_only (S := engineSignature) hp fun _ hc => hc.calls)
  exact fun _ _ _ _ => trivial

/-- A mark and what follows it. -/
theorem jotting {n : EngineMark} {f : Unit → Investigation β} {post : β → Prop}
    (hf : KeepsTo env P (f ()) post) : KeepsTo env P (jot n >>= f) post := by
  have hnote : (jot n).Only EngineCall.Free fun _ => True :=
    (Prog.only_note (S := engineSignature) n).mpr trivial
  exact freely hnote fun _ => hf

/-- A suppressed part and what follows it. -/
theorem suppressing {p : Investigation Unit}
    {f : Unit → Investigation β} {post : β → Prop} (hp : KeepsTo env P p fun _ => True)
    (hf : KeepsTo env P (f ()) post) : KeepsTo env P (Prog.suppress p >>= f) post := by
  apply sequence (fun _ => True) _ fun _ _ => hf
  apply Contract.honours_suppress (S := engineSignature)
  · exact Contract.Honours.mono hp fun _ _ => trivial
  · exact fun _ _ => trivial

end KeepsTo

/-- What a stage returns meets the condition. -/
def stageObeys (P : InvestigationState → Prop) : StageEnd → Prop
  | .updated values => P values
  | .interrupted => True

section Stages

variable {b : CaseBinding} {values : InvestigationState} {resume : Option Resume}

/-- The body of `load_and_retrieve`. -/
theorem loadAndRetrieve_keeps (hP : StateRule env P) (h : P values) :
    KeepsTo env P (loadAndRetrieve env b values) (stageObeys P) := by
  unfold loadAndRetrieve
  apply KeepsTo.invoking
  · trivial
  intro _ _
  apply KeepsTo.freely (free_of_gathers (getAlert_gathers b.alertId))
  intro alert
  apply KeepsTo.freely (free_of_gathers (getCustomerProfile_gathers b.customerId))
  intro customer
  apply KeepsTo.freely (free_of_gathers (getKycProfile_gathers b.customerId))
  intro kyc
  apply KeepsTo.freely (free_of_gathers (getTransactions_gathers b.customerId))
  intro transactions
  apply KeepsTo.computing
  intro selection hselection
  apply KeepsTo.invoking
  · trivial
  intro executions _
  apply KeepsTo.invoking
  · trivial
  intro _ _
  apply KeepsTo.invoking
  · exact ⟨rfl, _, hselection⟩
  intro _ _
  exact KeepsTo.returned (hP.withEvidence values _ selection h hselection)

/-- The body of `draft`. -/
theorem draft_keeps (hP : StateRule env P) (h : P values) :
    KeepsTo env P (draft env b values) (stageObeys P) := by
  unfold draft
  apply KeepsTo.invoking
  · exact ⟨values, h, rfl, rfl, rfl, rfl⟩
  intro recommendation _
  apply KeepsTo.invoking
  · trivial
  intro version _
  apply KeepsTo.jotting
  apply KeepsTo.invoking
  · trivial
  intro _ _
  exact KeepsTo.returned (hP.withDraft values recommendation version h)

/-- The body of `validate`. -/
theorem validate_keeps (hP : StateRule env P) (h : P values) :
    KeepsTo env P (validate b values) (stageObeys P) := by
  unfold validate
  apply KeepsTo.computing
  intro recommendation _
  apply KeepsTo.invoking
  · trivial
  intro executions _
  apply KeepsTo.jotting
  apply KeepsTo.invoking
  · trivial
  intro _ _
  split
  · apply KeepsTo.invoking
    · trivial
    intro _ _
    apply KeepsTo.invoking
    · trivial
    intro _ _
    exact KeepsTo.returned (hP.withValidation values _ h)
  · apply KeepsTo.invoking
    · trivial
    intro _ _
    exact KeepsTo.returned (hP.withValidation values _ h)

/-- The body of `collect_information`. -/
theorem collectInformation_keeps (hP : StateRule env P) (h : P values) :
    KeepsTo env P (collectInformation env b values resume) (stageObeys P) := by
  unfold collectInformation
  apply KeepsTo.computing
  intro recommendation _
  apply KeepsTo.computing
  intro version _
  cases resume with
  | none => exact KeepsTo.returned trivial
  | some value =>
    cases value with
    | review request => exact KeepsTo.raised
    | information submission =>
      apply KeepsTo.computing
      intro evidence _
      apply KeepsTo.invoking
      · trivial
      intro _ _
      apply KeepsTo.invoking
      · trivial
      intro _ _
      apply KeepsTo.invoking
      · trivial
      intro _ _
      apply KeepsTo.computing
      intro selection hselection
      apply KeepsTo.invoking
      · exact ⟨rfl, _, hselection⟩
      intro _ _
      exact KeepsTo.returned (hP.withEvidence values _ selection h hselection)

/-- The body of `human_review`. -/
theorem humanReview_keeps (hP : StateRule env P) (h : P values) :
    KeepsTo env P (humanReview b values resume) (stageObeys P) := by
  have hend (review : HumanReview) :
      KeepsTo env P
        (do
          invoke (.setStatus b.caseId review.outcome)
          invoke (.trajectoryHook b.runId (.humanReview review))
          pure (.updated (values.withReview review))) (stageObeys P) := by
    apply KeepsTo.invoking
    · trivial
    intro _ _
    apply KeepsTo.invoking
    · trivial
    intro _ _
    exact KeepsTo.returned (hP.withReview values review h)
  unfold humanReview
  split
  · exact KeepsTo.returned h
  apply KeepsTo.computing
  intro version _
  cases resume with
  | none => exact KeepsTo.returned trivial
  | some value =>
    cases value with
    | information submission => exact KeepsTo.raised
    | review request =>
      apply KeepsTo.computing
      intro review _
      apply KeepsTo.jotting
      apply KeepsTo.invoking
      · trivial
      intro _ _
      split
      · apply KeepsTo.invoking
        · trivial
        intro _ _
        exact hend review
      · exact hend review

/-- The body of a stage. -/
theorem stageBody_keeps (hP : StateRule env P) (stage : Stage) (h : P values) :
    KeepsTo env P (stageBody env b values stage resume) (stageObeys P) := by
  cases stage with
  | loadAndRetrieve => exact loadAndRetrieve_keeps hP h
  | draftRecommendation => exact draft_keeps hP h
  | validateControls => exact validate_keeps hP h
  | collectInformation => exact collectInformation_keeps hP h
  | humanReview => exact humanReview_keeps hP h

end Stages

section Run

variable {b : CaseBinding} {c : UUID} {s : Stage} {resume : Option Resume} {values : InvestigationState}
  {task : ℕ}

/-- A notification. -/
theorem notifyStage_keeps (event : String) : KeepsTo env P (notifyStage b s event) fun _ => True := by
  apply Contract.honours_suppress (S := engineSignature)
  · apply Contract.honours_call (S := engineSignature) (c := .stageHook b.runId s event)
    · trivial
    · exact fun _ _ => trivial
  · exact fun _ _ => trivial

/-- A failure is recorded in the state that the stage has begun with. -/
theorem recordFailure_keeps (hP : StateRule env P) (e : PyError) (h : P values) :
    KeepsTo env P (recordFailure b values s e) (stageObeys P) := by
  have hreport (call : EngineCall) (hcall : (stateContract env P).calls call) :
      KeepsTo env P (invoke call) fun _ => True :=
    Contract.honours_call (S := engineSignature) hcall fun _ _ _ _ => trivial
  unfold recordFailure
  apply KeepsTo.invoking
  · trivial
  intro errorId _
  apply KeepsTo.invoking
  · trivial
  intro _ _
  apply KeepsTo.suppressing (hreport (.audit _ _ _ _) trivial)
  apply KeepsTo.suppressing (hreport (.trajectoryHook b.runId (.investigationFailed
    (failureOf errorId s.name e))) trivial)
  exact KeepsTo.returned (hP.withFailure values _ h)

/-- A guarded stage. -/
theorem guarded_keeps (hP : StateRule env P) (h : P values) :
    KeepsTo env P (guarded env values s resume) (stageObeys P) := by
  unfold guarded
  apply KeepsTo.computing
  intro b _
  apply KeepsTo.sequence _ (notifyStage_keeps "started")
  intro _ _
  apply KeepsTo.sequence (fun r => ∀ ended, r = .ok ended → stageObeys P ended)
  · apply Contract.honours_attempt (S := engineSignature)
    apply Contract.Honours.mono (stageBody_keeps hP s h)
    rintro r hr _ ⟨⟩
    exact hr
  intro r hr
  cases r with
  | ok ended =>
    cases ended with
    | interrupted =>
      apply KeepsTo.sequence _ (notifyStage_keeps "interrupted")
      intro _ _
      exact KeepsTo.returned trivial
    | updated values' =>
      apply KeepsTo.sequence _ (notifyStage_keeps "completed")
      intro _ _
      exact KeepsTo.returned (hr _ rfl)
  | error e =>
    apply Contract.honours_finally' (S := engineSignature) (recordFailure_keeps hP e h)
    · exact Contract.Honours.mono (notifyStage_keeps "failed") fun _ _ => trivial
    · rintro e _ ⟨⟩

/-- The stages of one invocation. -/
theorem drive_keeps (hP : StateRule env P) (fuel : ℕ) (h : P values) :
    KeepsTo env P (drive env c fuel s resume values) fun _ => True := by
  induction fuel generalizing s resume values with
  | zero => exact KeepsTo.raised
  | succ fuel ih =>
    unfold drive
    apply KeepsTo.sequence _ (guarded_keeps hP h)
    intro ended hended
    cases ended with
    | interrupted => exact KeepsTo.returned trivial
    | updated values' =>
      apply KeepsTo.invoking
      · exact hended
      intro _ _
      cases route s values' with
      | none => exact KeepsTo.returned trivial
      | some next => exact ih hended

/-- An invocation of the graph. -/
theorem ainvoke_keeps (hP : StateRule env P) (input : GraphInput) :
    KeepsTo env P (ainvoke env task c input) fun _ => True := by
  unfold ainvoke
  apply KeepsTo.invoking
  · trivial
  intro saved hsaved
  apply KeepsTo.jotting
  cases input with
  | start b =>
    have hread : P (savedValues saved) := by
      cases saved with
      | none => exact hP.empty
      | some checkpoint => exact hsaved checkpoint rfl
    apply KeepsTo.invoking
    · exact hP.started _ b hread
    intro _ _
    exact drive_keeps hP recursionLimit (hP.started _ b hread)
  | resume value =>
    rcases saved with _ | ⟨values, last, _ | stage⟩
    · exact KeepsTo.returned trivial
    · exact KeepsTo.returned trivial
    · exact drive_keeps hP recursionLimit (hsaved _ rfl)

end Run

section Operations

open LangGraphInvestigationEngine

variable {c : UUID} {task : ℕ}

/-- A part of an operation whose result is not used further. -/
theorem KeepsTo.ended {p : Investigation α} {post : α → Prop} (h : KeepsTo env P p post) :
    (stateContract env P).Honours p fun _ => True :=
  Contract.Honours.mono h fun _ _ => trivial

/-- A part of an operation and the mark with which it leaves. -/
theorem leaving_keeps {p : Investigation α} {post : α → Prop} (h : KeepsTo env P p post) :
    KeepsTo env P (Prog.finally' p (jot (.left task c))) post := by
  apply Contract.honours_finally' (S := engineSignature) h
  · exact Contract.honours_note (S := engineSignature) trivial
  · rintro e _ ⟨⟩

/-- `_to_run` after its `get_case`. -/
theorem assembleRun_keeps {case : CaseData} : KeepsTo env P (assembleRun case) fun _ => True := by
  apply KeepsTo.invoking
  · trivial
  intro saved _
  exact KeepsTo.returned trivial

/-- `_to_run`. -/
theorem toRun_keeps : KeepsTo env P (toRun c) fun _ => True := by
  apply KeepsTo.invoking
  · trivial
  intro case _
  exact assembleRun_keeps

/-- An invocation in the span of an operation, and the reading of the run. -/
theorem invocation_keeps (hP : StateRule env P) (input : GraphInput) :
    KeepsTo env P
      (do
        admittedTo task c (ainvoke env task c input)
        toRun c) fun _ => True := by
  apply KeepsTo.sequence fun _ => True
  · apply KeepsTo.jotting
    exact leaving_keeps (ainvoke_keeps hP input)
  · exact fun _ _ => toRun_keeps

/-- `_run_ui_investigation`. -/
theorem runUiInvestigation_keeps (hP : StateRule env P) (case : CaseData)
    (actorId contextCondition : String) :
    KeepsTo env P (runUiInvestigation env task case actorId contextCondition) fun _ => True := by
  apply Contract.honours_suppress (S := engineSignature)
  · have hrun : KeepsTo env P
        (do
          let _ ← runPrepared env task case actorId contextCondition
          pure ()) fun _ => True :=
      KeepsTo.sequence _ (invocation_keeps hP _) fun _ _ => KeepsTo.returned trivial
    exact hrun.ended
  · exact fun _ _ => trivial

/-- `start`. -/
theorem start_keeps (hP : StateRule env P) (alertId actorId tenantId contextCondition : String) :
    KeepsTo env P (start env task alertId actorId tenantId contextCondition) fun _ => True := by
  apply KeepsTo.invoking
  · trivial
  intro prepared _
  split
  · exact invocation_keeps hP _
  · exact toRun_keeps

/-- `ui_start_investigation`. -/
theorem uiStart_keeps (hP : StateRule env P) (alertId actorId tenantId contextCondition : String) :
    KeepsTo env P (uiStart env task alertId actorId tenantId contextCondition) fun _ => True := by
  apply KeepsTo.invoking
  · trivial
  intro prepared _
  split
  · exact runUiInvestigation_keeps hP _ _ _
  · apply KeepsTo.invoking
    · trivial
    intro case _
    split
    · apply KeepsTo.jotting
      apply leaving_keeps
      apply KeepsTo.sequence _ assembleRun_keeps
      exact fun _ _ => runUiInvestigation_keeps hP _ _ _
    · apply KeepsTo.sequence _ assembleRun_keeps
      exact fun _ _ => KeepsTo.returned trivial

/-- `record_security_event` changes a saved state in the store itself. -/
theorem recordSecurityEvent_keeps (eventType : String) :
    KeepsTo env P (recordSecurityEvent c eventType) fun _ => True := by
  apply KeepsTo.computing
  intro _ _
  apply KeepsTo.invoking
  · trivial
  intro case _
  apply KeepsTo.invoking
  · trivial
  intro saved _
  apply KeepsTo.invoking
  · trivial
  intro _ _
  apply KeepsTo.invoking
  · trivial
  intro _ _
  apply KeepsTo.invoking
  · trivial
  intro _ _
  apply KeepsTo.invoking
  · trivial
  intro _ _
  exact toRun_keeps

/-- `reset`. -/
theorem reset_keeps (actorId : String) : KeepsTo env P (reset task c actorId) fun _ => True := by
  apply KeepsTo.invoking
  · trivial
  intro case _
  apply KeepsTo.computing
  intro _ _
  apply KeepsTo.jotting
  apply KeepsTo.sequence fun _ => True
  · apply leaving_keeps
    apply KeepsTo.invoking
    · trivial
    intro _ _
    apply KeepsTo.invoking
    · trivial
    intro _ _
    apply Contract.honours_suppress (S := engineSignature)
    · exact Contract.honours_call (S := engineSignature) (c := .deleteThread c) trivial fun _ _ => trivial
    · exact fun _ _ => trivial
  · exact fun _ _ => KeepsTo.returned trivial

/-- Every operation keeps to the contract. -/
theorem program_keeps (hP : StateRule env P) (op : EngineOp) :
    (stateContract env P).Honours (op.program env task) fun _ => True := by
  have hdiscard {γ : Type} {p : Investigation γ} (h : KeepsTo env P p fun _ => True) :
      (stateContract env P).Honours (EngineOp.discard p) fun _ => True := by
    have hdiscarded : KeepsTo env P (EngineOp.discard p) fun _ => True :=
      KeepsTo.sequence _ h fun _ _ => KeepsTo.returned trivial
    exact hdiscarded.ended
  cases op with
  | start alertId actorId tenantId contextCondition =>
    exact hdiscard (start_keeps hP alertId actorId tenantId contextCondition)
  | uiStart alertId actorId tenantId contextCondition =>
    exact (uiStart_keeps hP alertId actorId tenantId contextCondition).ended
  | runPrepared case actorId contextCondition => exact hdiscard (invocation_keeps hP _)
  | review request =>
    apply hdiscard
    apply KeepsTo.invoking
    · trivial
    intro case _
    apply KeepsTo.computing
    intro _ _
    apply KeepsTo.computing
    intro _ _
    exact invocation_keeps hP _
  | supplyInformation c submission =>
    apply hdiscard
    apply KeepsTo.invoking
    · trivial
    intro case _
    apply KeepsTo.computing
    intro _ _
    exact invocation_keeps hP _
  | recordSecurityEvent c eventType => exact hdiscard (recordSecurityEvent_keeps eventType)
  | reset c actorId => exact hdiscard (reset_keeps actorId)
  | get c => exact hdiscard toRun_keeps

end Operations

end Rules

/-- Every saved state meets the condition, and every selection that is shown is one for some evidence. -/
structure EngineWorld.Obeys (env : EngineEnvironment) (P : InvestigationState → Prop) (w : EngineWorld) :
    Prop where
  saved (c : UUID) (checkpoint : Checkpoint) (h : w.store.threads.get? c = some checkpoint) :
    P checkpoint.values
  shown (runId : UUID) (event : TrajectoryEvent) (h : (runId, event) ∈ w.trajectory) : event.Selected env

section Worlds

variable {env : EngineEnvironment} {P : InvestigationState → Prop} {w : EngineWorld} {draws : EngineDraws}
  {call : EngineCall}

/-- A call shows no event other than the one that it hands to the hook. -/
theorem shown_perform {entry : UUID × TrajectoryEvent}
    (h : entry ∈ (w.perform env draws call).2.trajectory) :
    entry ∈ w.trajectory ∨ call = .trajectoryHook entry.1 entry.2 := by
  have heffect (hentry : entry ∈ (w.effect env draws call).2.trajectory) :
      entry ∈ w.trajectory ∨ call = .trajectoryHook entry.1 entry.2 := by
    cases call with
    | trajectoryHook runId event =>
      rcases List.mem_append.mp hentry with hold | hnew
      · exact .inl hold
      · cases List.mem_singleton.mp hnew
        exact .inr rfl
    | createCase | getCase | deleteCase | getAlert | getCustomer | getKyc | getTransactions
      | saveRecommendation | saveReview | setStatus | audit | stageHook | recommend | uuid4
      | toolExecutions | loadCheckpoint | putCheckpoint | getState | updateState | deleteThread =>
      exact .inl hentry
  rcases engine_perform_cases env w draws call with heq | ⟨_, e, heq | heq⟩
  · exact heffect (heq ▸ h)
  · rw [heq] at h
    exact .inl h
  · rw [heq] at h
    exact heffect h

namespace EngineWorld.Obeys

/-- A call of the contract keeps the condition. -/
theorem perform (h : w.Obeys env P) (hP : StateRule env P) (draws : EngineDraws)
    (hcall : (stateContract env P).calls call) : (w.perform env draws call).2.Obeys env P := by
  constructor
  · intro c checkpoint hsaved
    cases (perform_writes env w draws call).threadChange hsaved with
    | kept _ _ _ hold => exact h.saved c checkpoint hold
    | put => exact hcall
    | updated _ securityEvents hardBlocks saved hthread values hvalues =>
      have hread : P saved.values := by
        rw [hthread, getD_values]
        cases hthread : w.store.threads.get? c with
        | none => exact hP.empty
        | some checkpoint => exact h.saved c checkpoint hthread
      rw [hvalues]
      exact hP.blocked saved.values securityEvents hardBlocks hread
  · intro runId event hmem
    rcases shown_perform hmem with hold | rfl
    · exact h.shown runId event hold
    · exact hcall

/-- Replies are as the contract expects them. -/
theorem expected (h : w.Obeys env P) (draws : EngineDraws) :
    (stateContract env P).expected call (w.perform env draws call).1 := by
  cases call with
  | loadCheckpoint c input =>
    intro checkpoint hreply
    have hw := perform_writes env w draws (.loadCheckpoint c input)
    exact h.saved c checkpoint (hreply ▸ hw).loadCheckpoint_ok
  | createCase | getCase | deleteCase | getAlert | getCustomer | getKyc | getTransactions
    | saveRecommendation | saveReview | setStatus | audit | trajectoryHook | stageHook | recommend | uuid4
    | toolExecutions | putCheckpoint | getState | updateState | deleteThread => trivial

/-- A world with the same threads and the same trajectory. -/
theorem congr (h : w.Obeys env P) {w' : EngineWorld} (hthreads : w'.store.threads = w.store.threads)
    (htrajectory : w'.trajectory = w.trajectory) : w'.Obeys env P := by
  constructor
  · rw [hthreads]
    exact h.saved
  · rw [htrajectory]
    exact h.shown

end EngineWorld.Obeys

/-- In every reachable pool all saved states meet the condition, every selection that is shown is one
for some evidence, and the model is asked from states that meet the condition. -/
theorem obeys_reaches (hP : StateRule env P) {bank : SyntheticBank}
    {allowed : EnginePool → Move EngineOp EngineDraws → Prop} {p : EnginePool}
    (hreach : (engineSystem env).Reaches allowed (idleEngine bank) p) :
    p.world.Obeys env P ∧ ∀ i request, p.awaits i = some (.recommend request) →
      ∃ values, P values ∧ request.MadeFrom values := by
  have hidle : EngineWorld.Obeys env P { bank } :=
    ⟨fun _ _ hsaved => (by cases hsaved), fun _ _ hmem => (by cases hmem)⟩
  have hprogram (task : ℕ) (op : EngineOp) :
      (stateContract env P).Honours ((engineSystem env).program task op) fun _ => True :=
    program_keeps hP op
  have henroll (task : ℕ) (op : EngineOp) (w : EngineWorld) (h : w.Obeys env P) :
      ((engineSystem env).enroll task op w).Obeys env P :=
    h.congr (enroll_threads op w) (by cases op <;> rfl)
  have hmark (n : EngineMark) (w : EngineWorld) (h : w.Obeys env P) : (w.record n).Obeys env P :=
    h.congr (record_threads n w) (by cases n <;> rfl)
  obtain ⟨hworld, hcalls⟩ := Contract.holds hprogram henroll hmark
    (fun _ draws _ h => h.expected draws) (fun _ draws _ h => h.perform hP draws) hidle hreach quietDraws
  exact ⟨hworld, fun i request hawaits => hcalls i _ hawaits⟩

end Worlds

end Amlguard
