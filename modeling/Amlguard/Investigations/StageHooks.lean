import Amlguard.Api.Progress
import Amlguard.Investigations.Service
import Amlguard.Investigations.StageCalls
import Amlguard.Library.Silence

/-!
# The stage hook

A stage hook is told when a stage starts and how it ends. It keeps a state of its own, and each of its
calls returns or raises as it likes. The engine suppresses what it raises and hears nothing else from it, so
operations that are executed one at a time have the same results, and leave the same repository,
checkpoints, audit log and trajectory, as with the hook that does nothing.
-/

namespace Amlguard

open Awaited Prog LangGraphInvestigationEngine

/-- A hook that is told of the stages. -/
structure StageHook where
  State : Type
  start : State
  notify : State → UUID → Stage → String → Except PyError Unit × State

/-- `_noop_stage`. -/
def noopStage : StageHook where
  State := Unit
  start := ()
  notify _ _ _ _ := (.ok (), ())

/-- The progress jobs of the user interface as a hook. -/
def InvestigationJobStore.asHook (jobs : InvestigationJobStore) : StageHook where
  State := InvestigationJobStore
  start := jobs
  notify s runId stage event :=
    match s.stageHook runId stage.name event with
    | .ok s' => (.ok (), s')
    | .error e => (.error e, s)

/-- The call tells the hook of a stage. -/
def EngineCall.Notifies : EngineCall → Bool
  | .stageHook _ _ _ => true
  | _ => false

/-- A hook as the observer of the engine. -/
def StageHook.observer (hook : StageHook) : Observer engineSignature where
  State := hook.State
  start := hook.start
  answer s
    | .stageHook runId stage event => hook.notify s runId stage event
    | _ => (.error (.runtimeError "not a call of the stage hook"), s)

/-- The operations of a case. -/
inductive CaseOperation where
  | start (alertId actorId tenantId contextCondition : String)
  | supplyInformation (caseId : UUID) (submission : Submission)
  | review (review : HumanReview)
  | recordSecurityEvent (caseId : UUID) (eventType : String)

/-- The program of an operation. -/
def CaseOperation.program (env : EngineEnvironment) (task : ℕ) :
    CaseOperation → Investigation InvestigationRun
  | .start alertId actorId tenantId contextCondition =>
    LangGraphInvestigationEngine.start env task alertId actorId tenantId contextCondition
  | .supplyInformation caseId submission =>
    LangGraphInvestigationEngine.supplyInformation env task caseId submission
  | .review request => LangGraphInvestigationEngine.review env task request
  | .recordSecurityEvent caseId eventType =>
    LangGraphInvestigationEngine.recordSecurityEvent caseId eventType

section Evaluation

variable (env : EngineEnvironment) (hook : StageHook) (draw : ℕ → EngineDraws)

/-- Execute one program with a hook. -/
def executeWith {α : Type} (p : Investigation α) (w : EngineWorld) (i : ℕ) (s : hook.State) :
    Except PyError α × EngineWorld × ℕ × hook.State :=
  p.evaluate (engineSystem env).toMachine EngineCall.Notifies hook.observer draw w i s

/-- Execute operations one at a time: their results, and the world that they leave. -/
def executeAll : List CaseOperation → ℕ → EngineWorld → ℕ → hook.State →
    List (Except PyError InvestigationRun) × EngineWorld
  | [], _, w, _, _ => ([], w)
  | op :: rest, task, w, i, s =>
    let ended := executeWith env hook draw (op.program env task) w i s
    let others := executeAll rest (task + 1) ended.2.1 ended.2.2.1 ended.2.2.2
    (ended.1 :: others.1, others.2)

end Evaluation

/-- A program that does not listen to the stage hook. -/
abbrev Unhooked {α : Type} (p : Investigation α) : Prop := p.Deaf EngineCall.Notifies

section Programs

variable {env : EngineEnvironment} {task : ℕ} {b : CaseBinding} {values : InvestigationState}
  {resume : Option Resume} {stage : Stage} {α β : Type}

theorem unhooked_bind {p : Investigation α} {f : α → Investigation β} (hp : Unhooked p)
    (hf : ∀ a, Unhooked (f a)) : Unhooked (p >>= f) := hp.bind hf

theorem unhooked_computed (r : Except PyError α) : Unhooked (computed r) :=
  deaf_settleResult (S := engineSignature) r

theorem unhooked_pure (a : α) : Unhooked (pure a) :=
  deaf_pure (S := engineSignature) a

theorem unhooked_jot (n : EngineMark) : Unhooked (jot n) := deaf_note (S := engineSignature) n

theorem unhooked_invoke {call : EngineCall} (h : call.Notifies = false) : Unhooked (invoke call) :=
  deaf_call (S := engineSignature) h

/-- A stage does not notify the hook itself. -/
theorem stageBody_unhooked : Unhooked (stageBody env b values stage resume) := by
  apply Deaf.of_only
  apply stageBody_only stage
  intro call hcall
  cases call with
  | stageHook => cases stage <;> exact absurd hcall not_false
  | _ => rfl

/-- What the hook replies to a notification is not heard. -/
theorem notifyStage_unhooked {event : String} : Unhooked (notifyStage b stage event) := by
  apply Deaf.unheard
  · rfl
  · intro r r'
    cases r <;> cases r' <;> rfl
  · intro r
    cases r <;> exact .done _

/-- A record of a failure does not notify the hook. -/
theorem recordFailure_unhooked {e : PyError} : Unhooked (recordFailure b values stage e) := by
  apply Deaf.of_only
  apply recordFailure_only
  intro call hcall
  cases call with
  | stageHook => exact absurd hcall not_false
  | _ => rfl

/-- However a stage ends, the hook is not heard. -/
theorem settleStage_unhooked (ended : Except PyError StageEnd) :
    Unhooked (settleStage b values stage ended) := by
  unfold settleStage
  split
  · exact unhooked_bind notifyStage_unhooked fun _ => unhooked_pure _
  · exact unhooked_bind notifyStage_unhooked fun _ => unhooked_pure _
  · exact recordFailure_unhooked.finally' notifyStage_unhooked

/-- A guarded stage does not listen to the hook. -/
theorem guarded_unhooked : Unhooked (guarded env values stage resume) := by
  apply unhooked_bind (unhooked_computed _)
  intro b
  apply unhooked_bind notifyStage_unhooked
  intro _
  apply unhooked_bind stageBody_unhooked.attempt
  intro ended
  exact settleStage_unhooked ended

/-- A run of the graph does not listen to the hook. -/
theorem drive_unhooked (thread : UUID) (fuel : ℕ) (stage : Stage) (resume : Option Resume)
    (values : InvestigationState) : Unhooked (drive env thread fuel stage resume values) := by
  induction fuel generalizing stage resume values with
  | zero => exact unhooked_computed _
  | succ fuel ih =>
    apply unhooked_bind guarded_unhooked
    intro ended
    cases ended with
    | interrupted => exact unhooked_pure _
    | updated values' =>
      apply unhooked_bind (unhooked_invoke rfl)
      intro _
      split
      · exact ih _ _ _
      · exact unhooked_pure _

/-- An invocation of the graph does not listen to the hook. -/
theorem ainvoke_unhooked {thread : UUID} {input : GraphInput} :
    Unhooked (ainvoke env task thread input) := by
  apply unhooked_bind (unhooked_invoke rfl)
  intro saved
  apply unhooked_bind (unhooked_jot _)
  intro _
  cases input with
  | start binding =>
    apply unhooked_bind (unhooked_invoke rfl)
    intro _
    exact drive_unhooked _ _ _ _ _
  | resume value =>
    dsimp only
    split
    · exact drive_unhooked _ _ _ _ _
    · exact unhooked_pure _

/-- The assembly of a run does not listen to the hook. -/
theorem toRun_unhooked {caseId : UUID} : Unhooked (toRun caseId) := by
  apply unhooked_bind (unhooked_invoke rfl)
  intro case
  apply unhooked_bind (unhooked_invoke rfl)
  intro saved
  exact unhooked_pure _

/-- An admitted invocation, with the assembly of its run, does not listen to the hook. -/
theorem invoked_unhooked {caseId thread caseId' : UUID} {input : GraphInput} :
    Unhooked (do
      admittedTo task caseId (ainvoke env task thread input)
      toRun caseId') := by
  apply unhooked_bind
  · apply unhooked_bind (unhooked_jot _)
    intro _
    exact ainvoke_unhooked.finally' (unhooked_jot _)
  · intro _
    exact toRun_unhooked

/-- No operation listens to the hook. -/
theorem program_unhooked (op : CaseOperation) : Unhooked (op.program env task) := by
  cases op with
  | start =>
    apply unhooked_bind (unhooked_invoke rfl)
    intro prepared
    split
    · exact invoked_unhooked
    · exact toRun_unhooked
  | supplyInformation =>
    apply unhooked_bind (unhooked_invoke rfl)
    intro case
    apply unhooked_bind (unhooked_computed _)
    intro _
    exact invoked_unhooked
  | review =>
    apply unhooked_bind (unhooked_invoke rfl)
    intro case
    apply unhooked_bind (unhooked_computed _)
    intro _
    apply unhooked_bind (unhooked_computed _)
    intro _
    exact invoked_unhooked
  | recordSecurityEvent =>
    apply unhooked_bind (unhooked_computed _)
    intro _
    apply unhooked_bind (unhooked_invoke rfl)
    intro case
    apply unhooked_bind (unhooked_invoke rfl)
    intro saved
    apply unhooked_bind (unhooked_invoke rfl)
    intro _
    apply unhooked_bind (unhooked_invoke rfl)
    intro _
    apply unhooked_bind (unhooked_invoke rfl)
    intro _
    apply unhooked_bind (unhooked_invoke rfl)
    intro _
    exact toRun_unhooked

end Programs

section Outcomes

variable {env : EngineEnvironment} {hook : StageHook} {draw : ℕ → EngineDraws}

/-- What is executed with a hook is an execution of the engine, in which the calls of the hook fail as the
hook does. -/
theorem executes_executeWith {α : Type} (p : Investigation α) (w : EngineWorld) (i : ℕ) (s : hook.State) :
    p.Executes (engineSystem env).toMachine (fun _ _ _ => True) w
      (executeWith env hook draw p w i s).1 (executeWith env hook draw p w i s).2.1 := by
  apply executes_of_evaluate
  intro w c r hc
  cases c with
  | stageHook runId stage event =>
    cases r with
    | ok reply => exact ⟨quietDraws, rfl⟩
    | error e => exact ⟨{ quietDraws with failure := .before e }, rfl⟩
  | _ => cases hc

/-- Two hooks make no difference. -/
theorem executeAll_eq (hook hook' : StageHook) (ops : List CaseOperation) (task i : ℕ) (w : EngineWorld)
    (s : hook.State) (t : hook'.State) :
    executeAll env hook draw ops task w i s = executeAll env hook' draw ops task w i t := by
  induction ops generalizing task i w s t with
  | nil => rfl
  | cons op rest ih =>
    obtain ⟨hresult, hworld, hdraws⟩ : _ ∧ _ ∧ _ :=
      @Deaf.evaluate_eq _ _ _ _ _ (engineSystem env).toMachine draw _ (@program_unhooked env task op)
        hook.observer hook'.observer w i s t
    simp only [executeAll, executeWith]
    rw [hresult, hworld, hdraws, ih]

/-- Operations that are executed one at a time have the same results, and leave the same world, as with the
hook that does nothing. -/
theorem executeAll_noopStage (env : EngineEnvironment) (hook : StageHook) (draw : ℕ → EngineDraws)
    (ops : List CaseOperation) (task i : ℕ) (w : EngineWorld) :
    executeAll env hook draw ops task w i hook.start =
      executeAll env noopStage draw ops task w i noopStage.start :=
  executeAll_eq hook noopStage ops task i w hook.start noopStage.start

/-- The progress that the user interface shows of the first investigation. -/
def sampleProgress : StageHook :=
  InvestigationJobStore.asHook (InvestigationJobStore.create {}
    { jobId := 7, caseId := 0, runId := 1, actorId := "investigator", tenantId := "tenant",
      steps := initialSteps })

/-- An investigation whose progress is shown, and a security event in its case, which no job hears of. -/
theorem executeAll_noopStage_progress :
    executeAll (sampleEnvironment .inMemory) sampleProgress (fun _ => quietDraws)
        [.start "A-1" "investigator" "tenant" "B5", .recordSecurityEvent 0 "critical_alert"] 0
        { bank := sampleBank } 0 sampleProgress.start =
      executeAll (sampleEnvironment .inMemory) noopStage (fun _ => quietDraws)
        [.start "A-1" "investigator" "tenant" "B5", .recordSecurityEvent 0 "critical_alert"] 0
        { bank := sampleBank } 0 noopStage.start :=
  executeAll_noopStage (sampleEnvironment .inMemory) sampleProgress (fun _ => quietDraws) _ 0 0
    { bank := sampleBank }

end Outcomes

end Amlguard
