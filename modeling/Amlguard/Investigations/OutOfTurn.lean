import Amlguard.Investigations.ExactVersion
import Amlguard.Investigations.OneRun
import Amlguard.Investigations.ReleaseGate
import Amlguard.Investigations.StageCalls

/-!
# Requests out of turn

What `review` and `supply_information` do to a case that is not waiting for them. A submission is
refused before the graph is invoked, whatever fails. A review is refused so for a blocked case or a
stale version only: otherwise it resumes whichever stage comes next on the thread, and returns.
-/

namespace Amlguard

open Awaited Prog

/-- The case is stored. -/
def Stored (c : UUID) (w : EngineWorld) : Prop := ∃ case, w.store.cases.get? c = some case

/-- A call that deletes no case. -/
def EngineCall.Spares : EngineCall → Prop
  | .deleteCase _ => False
  | _ => True

/-- A program that deletes no case. -/
abbrev Sparing {α : Type} (p : Investigation α) : Prop := p.Only EngineCall.Spares fun _ => True

/-- A program of the engine is executed on its own, and no call fails from outside. -/
abbrev Unperturbed {α : Type} (env : EngineEnvironment) (p : Investigation α) (w : EngineWorld)
    (r : Except PyError α) (w' : EngineWorld) : Prop :=
  p.Executes (engineSystem env).toMachine (fun _ draws _ => ¬draws.failure.Raises) w r w'

section Sparing

variable {env : EngineEnvironment} {b : CaseBinding} {values : InvestigationState}
  {resume : Option Resume} {α β : Type}

/-- No stage deletes a case. -/
theorem stageBody_sparing (stage : Stage) : Sparing (stageBody env b values stage resume) := by
  apply stageBody_only stage
  intro call hcall
  cases call with
  | deleteCase => cases stage <;> exact absurd hcall not_false
  | _ => trivial

end Sparing

section Stages

variable {env : EngineEnvironment} {b : CaseBinding} {values : InvestigationState}
  {resume : Option Resume} {stage : Stage}

/-- What a stage that returns leaves in the state: the case of the run, and, for a stage that can be
interrupted and was not resumed, a block. -/
def StageEnd.Leads (stage : Stage) (resume : Option Resume) (values : InvestigationState) :
    StageEnd → Prop
  | .interrupted => True
  | .updated values' => values'.binding = values.binding ∧ (resume = none →
      stage ≠ .collectInformation ∧ (stage = .humanReview → values'.status = .hardBlocked))

/-- The part of `collect_information` that is resumed keeps the case of the run. -/
theorem supplied_yields {version : ℕ} {submission : Submission} :
    (supplied env b values version submission).Yields
      (StageEnd.Leads .collectInformation (some (.information submission)) values) := by
  refine yields_bind fun evidence => ?_
  refine yields_bind fun _ => yields_bind fun _ => yields_bind fun _ => ?_
  refine yields_bind fun selection => yields_bind fun _ => ?_
  exact yields_pure.mpr ⟨rfl, nofun⟩

/-- The part of `human_review` that is resumed keeps the case of the run. -/
theorem concluded_yields {request review : HumanReview} :
    (concluded b values request review).Yields
      (StageEnd.Leads .humanReview (some (.review request)) values) := by
  refine yields_bind fun _ => yields_bind fun _ => ?_
  split
  · refine yields_bind fun _ => yields_bind fun _ => yields_bind fun _ => ?_
    exact yields_pure.mpr ⟨rfl, nofun⟩
  · refine yields_bind fun _ => yields_bind fun _ => ?_
    exact yields_pure.mpr ⟨rfl, nofun⟩

/-- What a stage leaves in the state when it returns. -/
theorem stageBody_yields :
    (stageBody env b values stage resume).Yields (StageEnd.Leads stage resume values) := by
  cases stage with
  | loadAndRetrieve =>
    refine yields_bind fun _ => yields_bind fun _ => yields_bind fun _ => yields_bind fun _ => ?_
    refine yields_bind fun _ => yields_bind fun _ => yields_bind fun _ => yields_bind fun _ => ?_
    refine yields_bind fun _ => ?_
    exact yields_pure.mpr ⟨rfl, fun _ => ⟨nofun, nofun⟩⟩
  | draftRecommendation =>
    refine yields_bind fun _ => yields_bind fun _ => yields_bind fun _ => yields_bind fun _ => ?_
    exact yields_pure.mpr ⟨rfl, fun _ => ⟨nofun, nofun⟩⟩
  | validateControls =>
    refine yields_bind fun _ => yields_bind fun _ => yields_bind fun _ => yields_bind fun _ => ?_
    dsimp only
    split
    · refine yields_bind fun _ => yields_bind fun _ => ?_
      exact yields_pure.mpr ⟨rfl, fun _ => ⟨nofun, nofun⟩⟩
    · refine yields_bind fun _ => ?_
      exact yields_pure.mpr ⟨rfl, fun _ => ⟨nofun, nofun⟩⟩
  | collectInformation =>
    refine yields_bind fun _ => yields_bind fun version => ?_
    split
    · exact yields_pure.mpr trivial
    · exact yields_error
    · exact supplied_yields
  | humanReview =>
    change (humanReview b values resume).Yields _
    unfold humanReview
    split
    · rename_i hblocked
      exact yields_pure.mpr ⟨rfl, fun _ => ⟨nofun, fun _ => hblocked⟩⟩
    · refine yields_bind fun version => ?_
      split
      · exact yields_pure.mpr trivial
      · exact yields_error
      · exact yields_bind fun review => concluded_yields

end Stages

section Alone

variable {env : EngineEnvironment} {w w' : EngineWorld} {b : CaseBinding}
  {values : InvestigationState} {resume : Option Resume} {stage : Stage} {c : UUID}

/-- A call that does not fail has its effect. -/
theorem unperturbed_invoke {call : EngineCall} {r : Except PyError call.Reply}
    (h : Unperturbed env (invoke call) w r w') : ∃ draws, w.effect env draws call = (r, w') := by
  obtain ⟨draws, hquiet, rfl, rfl⟩ := executes_call.mp h
  exact ⟨draws, (perform_of_not_raises hquiet).symm⟩

/-- A program that deletes no case leaves a stored case stored. -/
theorem stored_of_sparing {α : Type} {p : Investigation α} {r : Except PyError α}
    (h : Unperturbed env p w r w') (hp : Sparing p) (hw : Stored c w) : Stored c w' := by
  apply h.keeps _ _ hp hw
  · intro w draws call _ hspares ⟨case, hcase⟩
    cases hlater : (w.perform env draws call).2.store.cases.get? c with
    | some case' => exact ⟨case', hlater⟩
    | none =>
      cases (perform_writes env w draws call).eq_deleteCase hcase hlater
      exact hspares.elim
  · intro w n _ ⟨case, hcase⟩
    exact ⟨case, (congrArg (·.get? c) (record_cases n w)).trans hcase⟩

/-- The progress of a stage is notified. -/
theorem unperturbed_notifyStage {event : String} {r : Except PyError Unit}
    (h : Unperturbed env (notifyStage b stage event) w r w') : r = .ok () ∧ w = w' := by
  obtain ⟨rfl, r₁, hcall⟩ := executes_suppress.mp h
  obtain ⟨draws, heffect⟩ := unperturbed_invoke hcall
  exact ⟨rfl, congrArg Prod.snd heffect⟩

/-- The status of a stored case is set. -/
theorem effect_setStatus_stored {draws : EngineDraws} {status : CaseStatus} {r : Except PyError Unit}
    (h : w.effect env draws (.setStatus c status) = (r, w')) (hw : Stored c w) : r = .ok () := by
  obtain ⟨case, hcase⟩ := hw
  simp only [EngineWorld.effect, EngineWorld.onStore, Store.setStatus, Store.updateCase, hcase] at h
  exact (congrArg Prod.fst h).symm

/-- A failure of a stored case is recorded. -/
theorem unperturbed_recordFailure {e : PyError} {r : Except PyError StageEnd}
    (h : Unperturbed env (recordFailure b values stage e) w r w') (hw : Stored b.caseId w) :
    ∃ failure, r = .ok (.updated (values.withFailure failure)) := by
  obtain ⟨r₁, w₁, huuid, h⟩ := executes_bind.mp h
  obtain ⟨draws, heffect⟩ := unperturbed_invoke huuid
  cases heffect
  obtain ⟨r₂, w₂, hstatus, h⟩ := executes_bind.mp h
  obtain ⟨draws, heffect⟩ := unperturbed_invoke hstatus
  cases effect_setStatus_stored heffect hw
  obtain ⟨r₃, w₃, haudit, h⟩ := executes_bind.mp h
  obtain ⟨rfl, -⟩ := executes_suppress.mp haudit
  obtain ⟨r₄, w₄, hhook, h⟩ := executes_bind.mp h
  obtain ⟨rfl, -⟩ := executes_suppress.mp hhook
  obtain ⟨rfl, -⟩ := executes_pure.mp h
  exact ⟨_, rfl⟩

/-- A record of a failure deletes no case. -/
theorem recordFailure_sparing {e : PyError} : Sparing (recordFailure b values stage e) := by
  apply recordFailure_only
  intro call hcall
  cases call with
  | deleteCase => exact absurd hcall not_false
  | _ => trivial

/-- How a stage of a stored case ends under its guard. -/
theorem unperturbed_guarded {r : Except PyError StageEnd} (hbinding : values.binding = some b)
    (h : Unperturbed env (guarded env values stage resume) w r w') (hw : Stored b.caseId w) :
    Stored b.caseId w' ∧ ∃ ended, r = .ok ended ∧ ∀ values', ended = .updated values' →
      values'.binding = some b ∧
        (values'.status = .failed ∨ StageEnd.Leads stage resume values ended) := by
  unfold guarded at h
  rw [hbinding] at h
  obtain ⟨_, _, hcomputed, h⟩ := executes_bind.mp h
  obtain ⟨rfl, rfl⟩ := executes_settleResult.mp hcomputed
  obtain ⟨_, _, hstarted, h⟩ := executes_bind.mp h
  obtain ⟨rfl, rfl⟩ := unperturbed_notifyStage hstarted
  obtain ⟨_, w₁, hattempt, h⟩ := executes_bind.mp h
  obtain ⟨ended, hbody, rfl⟩ := executes_attempt.mp hattempt
  have hstored : Stored b.caseId w₁ := stored_of_sparing hbody (stageBody_sparing stage) hw
  change Unperturbed env (settleStage b values stage ended) w₁ r w' at h
  match ended with
  | .ok .interrupted =>
    rw [settleStage] at h
    obtain ⟨_, _, hnotified, h⟩ := executes_bind.mp h
    obtain ⟨rfl, rfl⟩ := unperturbed_notifyStage hnotified
    obtain ⟨rfl, rfl⟩ := executes_pure.mp h
    exact ⟨hstored, _, rfl, fun _ hended => by cases hended⟩
  | .ok (.updated values') =>
    have hleads := hbody.yields stageBody_yields
    rw [settleStage] at h
    obtain ⟨_, _, hnotified, h⟩ := executes_bind.mp h
    obtain ⟨rfl, rfl⟩ := unperturbed_notifyStage hnotified
    obtain ⟨rfl, rfl⟩ := executes_pure.mp h
    refine ⟨hstored, _, rfl, ?_⟩
    rintro _ ⟨⟩
    exact ⟨hleads.1.trans hbinding, .inr hleads⟩
  | .error e =>
    rw [settleStage] at h
    obtain ⟨r₁, w₂, hrecorded, h⟩ := executes_finally'.mp h
    have hstored' : Stored b.caseId w₂ := stored_of_sparing hrecorded recordFailure_sparing hstored
    obtain ⟨failure, rfl⟩ := unperturbed_recordFailure hrecorded hstored
    obtain ⟨_, _, hnotified, h⟩ := executes_bind.mp h
    obtain ⟨rfl, rfl⟩ := unperturbed_notifyStage hnotified
    obtain ⟨rfl, rfl⟩ := executes_settleResult.mp h
    refine ⟨hstored', _, rfl, ?_⟩
    rintro _ ⟨⟩
    exact ⟨hbinding, .inl rfl⟩

/-- The number of stages that a run may still go through from a stage on. -/
def Stage.rounds (resume : Option Resume) : Stage → ℕ
  | .loadAndRetrieve => 4
  | .draftRecommendation => 3
  | .validateControls => 2
  | .collectInformation | .humanReview => if resume = none then 1 else 4

/-- The edges lead to stages from which fewer rounds remain. -/
theorem rounds_route {values' : InvestigationState} {next : Stage}
    (hroute : route stage values' = some next)
    (hleads : values'.status = .failed ∨ StageEnd.Leads stage resume values (.updated values')) :
    next.rounds none < stage.rounds resume := by
  rcases hleads with hfailed | ⟨-, hleads⟩
  · rw [route_failed stage hfailed] at hroute
    cases hroute
  cases stage with
  | loadAndRetrieve | draftRecommendation =>
    simp only [route] at hroute
    split at hroute <;> cases hroute
    simp [Stage.rounds]
  | validateControls =>
    simp only [route] at hroute
    split at hroute
    · cases hroute
    · split at hroute <;> cases hroute <;> simp [Stage.rounds]
  | collectInformation =>
    simp only [route] at hroute
    split at hroute <;> cases hroute
    have hresumed : resume ≠ none := fun hnone => (hleads hnone).1 rfl
    rw [Stage.rounds, Stage.rounds, if_neg hresumed]
    decide
  | humanReview =>
    simp only [route] at hroute
    split at hroute <;> cases hroute
    rename_i hrework
    have hresumed : resume ≠ none := by
      intro hnone
      rw [(hleads hnone).2 rfl] at hrework
      cases hrework
    rw [Stage.rounds, Stage.rounds, if_neg hresumed]
    decide

/-- A run of the graph on a stored case returns when it may go through enough stages. -/
theorem unperturbed_drive {thread : UUID} {fuel : ℕ} (hfuel : stage.rounds resume ≤ fuel)
    (hbinding : values.binding = some b) {r : Except PyError Unit}
    (h : Unperturbed env (drive env thread fuel stage resume values) w r w')
    (hw : Stored b.caseId w) : r = .ok () ∧ Stored b.caseId w' := by
  induction fuel generalizing stage resume values w with
  | zero =>
    cases stage <;> simp only [Stage.rounds] at hfuel <;> (try split at hfuel) <;> omega
  | succ fuel ih =>
    obtain ⟨_, w₁, hguarded, h⟩ := executes_bind.mp h
    obtain ⟨hstored, ended, rfl, hended⟩ := unperturbed_guarded hbinding hguarded hw
    cases ended with
    | interrupted =>
      obtain ⟨rfl, rfl⟩ := executes_pure.mp h
      exact ⟨rfl, hstored⟩
    | updated values' =>
      obtain ⟨hbinding', hleads⟩ := hended values' rfl
      obtain ⟨_, w₂, hput, h⟩ := executes_bind.mp h
      obtain ⟨draws, heffect⟩ := unperturbed_invoke hput
      cases heffect
      dsimp only at h
      cases hroute : route stage values' with
      | none =>
        rw [hroute] at h
        obtain ⟨rfl, rfl⟩ := executes_pure.mp h
        exact ⟨rfl, hstored⟩
      | some next =>
        rw [hroute] at h
        have hrounds := rounds_route hroute hleads
        exact ih (by omega) hbinding' h hstored

/-- The thread of the case goes on with a stage, and its state names no run. -/
def Unbound (c : UUID) (w : EngineWorld) : Prop :=
  ∃ checkpoint, w.store.threads.get? c = some checkpoint ∧ checkpoint.next ≠ none ∧
    checkpoint.values.binding = none

/-- The case, its thread and the audit log are as they were. -/
structure Unchanged (c : UUID) (w w' : EngineWorld) : Prop where
  case : w'.store.cases.get? c = w.store.cases.get? c
  thread : w'.store.threads.get? c = w.store.threads.get? c
  audit : w'.auditEvents = w.auditEvents

/-- A request that raises. -/
def Refuses {α : Type} (r : Except PyError α) : Prop := ∃ e, r = .error e

/-- A resumed run of the graph on a stored case returns when its thread names a run. -/
theorem unperturbed_resume {task : ℕ} {value : Resume} {r : Except PyError Unit}
    (h : Unperturbed env (ainvoke env task c (.resume value)) w r w') (hw : Stored c w)
    (hfiled : Filed w.store) (hbound : ¬Unbound c w) : r = .ok () ∧ Stored c w' := by
  obtain ⟨_, _, hload, h⟩ := executes_bind.mp h
  obtain ⟨draws, heffect⟩ := unperturbed_invoke hload
  cases heffect
  obtain ⟨_, _, hjot, h⟩ := executes_bind.mp h
  obtain ⟨rfl, rfl⟩ := executes_note.mp hjot
  cases hsaved : w.store.threads.get? c with
  | none =>
    rw [hsaved] at h
    obtain ⟨rfl, rfl⟩ := executes_pure.mp h
    exact ⟨rfl, hw⟩
  | some checkpoint =>
    obtain ⟨values, last, next⟩ := checkpoint
    rw [hsaved] at h
    cases next with
    | none =>
      obtain ⟨rfl, rfl⟩ := executes_pure.mp h
      exact ⟨rfl, hw⟩
    | some stage =>
      cases hbinding : values.binding with
      | none => exact absurd ⟨_, hsaved, by simp, hbinding⟩ hbound
      | some b =>
        cases hfiled.bound c _ hsaved b hbinding
        apply unperturbed_drive _ hbinding h hw
        cases stage <;> simp only [Stage.rounds] <;> (try split) <;> decide

/-- A call that only reads raises, or returns what it reads, and changes nothing. -/
theorem executes_read {ok : EngineWorld → EngineDraws → EngineCall → Prop} {call : EngineCall}
    {r read : Except PyError call.Reply} (hread : ∀ draws, w.effect env draws call = (read, w))
    (h : (invoke call).Executes (engineSystem env).toMachine ok w r w') :
    w = w' ∧ (Refuses r ∨ r = read) := by
  obtain ⟨draws, -, hr, hw⟩ := executes_call.mp h
  change r = (w.perform env draws call).1 at hr
  change (w.perform env draws call).2 = w' at hw
  rcases engine_perform_cases env w draws call with heq | ⟨-, e, heq | heq⟩
  · rw [heq, hread] at hr hw
    exact ⟨hw, .inr hr⟩
  · rw [heq] at hr hw
    exact ⟨hw, .inl ⟨e, hr⟩⟩
  · rw [heq, hread] at hr hw
    exact ⟨hw, .inl ⟨e, hr⟩⟩

/-- However the calls of a request turn out, it raises, and the case is as it was. -/
def TurnedAway {α : Type} (env : EngineEnvironment) (c : UUID) (p : Investigation α)
    (w : EngineWorld) : Prop :=
  ∀ ok r w', p.Executes (engineSystem env).toMachine ok w r w' → Refuses r ∧ Unchanged c w w'

/-- A request that is turned away once it has read something. -/
theorem turnedAway_of_read {α : Type} {call : EngineCall} {f : call.Reply → Investigation α}
    {read : Except PyError call.Reply} (hread : ∀ draws, w.effect env draws call = (read, w))
    (hthen : ∀ reply, read = .ok reply → TurnedAway env c (f reply) w) :
    TurnedAway env c (invoke call >>= f) w := by
  intro ok r w' h
  obtain ⟨r₁, w₁, hcall, h⟩ := executes_bind.mp h
  obtain ⟨rfl, hr⟩ := executes_read hread hcall
  cases r₁ with
  | error e =>
    obtain ⟨rfl, rfl⟩ := h
    exact ⟨⟨e, rfl⟩, rfl, rfl, rfl⟩
  | ok reply =>
    rcases hr with ⟨e, herror⟩ | hr
    · cases herror
    · exact hthen reply hr.symm ok r w' h

/-- A check that fails turns the request away. -/
theorem turnedAway_of_raiseIf {α : Type} {P : Prop} [Decidable P] {e : PyError}
    {f : Unit → Investigation α} (hP : P) : TurnedAway env c (computed (raiseIf P e) >>= f) w := by
  intro ok r w' h
  rw [raiseIf, if_pos hP] at h
  obtain ⟨r₁, w₁, hcomputed, h⟩ := executes_bind.mp h
  obtain ⟨rfl, rfl⟩ := executes_settleResult.mp hcomputed
  obtain ⟨rfl, rfl⟩ := h
  exact ⟨⟨e, rfl⟩, rfl, rfl, rfl⟩

/-- A check that passes leaves it to the rest of the request. -/
theorem raiseIf_bind {α : Type} {P : Prop} [Decidable P] {e : PyError} {f : Unit → Investigation α}
    (hP : ¬P) : computed (raiseIf P e) >>= f = f () := by
  rw [raiseIf, if_neg hP]
  rfl

/-- A resumed run on a thread that names no run is turned away. -/
theorem resume_turnedAway {task : ℕ} {value : Resume} (hunbound : Unbound c w) :
    TurnedAway env c (ainvoke env task c (.resume value)) w := by
  obtain ⟨⟨values, last, next⟩, hsaved, hnext, hbinding⟩ := hunbound
  have hload (draws : EngineDraws) : w.effect env draws (.loadCheckpoint c (.resume value)) =
      (.ok (w.store.threads.get? c), w) := rfl
  apply turnedAway_of_read hload
  rintro _ ⟨⟩ ok r w' h
  obtain ⟨_, _, hjot, h⟩ := executes_bind.mp h
  obtain ⟨rfl, rfl⟩ := executes_note.mp hjot
  rw [hsaved] at h
  cases next with
  | none => exact absurd rfl hnext
  | some stage =>
    obtain ⟨_, _, hguarded, h⟩ := executes_bind.mp h
    unfold guarded at hguarded
    change values.binding = none at hbinding
    rw [hbinding] at hguarded
    obtain ⟨_, _, hcomputed, hguarded⟩ := executes_bind.mp hguarded
    obtain ⟨rfl, rfl⟩ := executes_settleResult.mp hcomputed
    obtain ⟨rfl, rfl⟩ := hguarded
    obtain ⟨rfl, rfl⟩ := h
    exact ⟨⟨_, rfl⟩, rfl, rfl, rfl⟩

end Alone

section Requests

open LangGraphInvestigationEngine

variable {env : EngineEnvironment} {w w' : EngineWorld} {c : UUID} {case : CaseData} {task : ℕ}

/-- The case that `get_case` reads. -/
theorem effect_getCase (hcase : w.store.cases.get? c = some case) (draws : EngineDraws) :
    w.effect env draws (.getCase c) = (.ok (env.backend.served case), w) := by
  simp only [EngineWorld.effect, hcase]
  rfl

/-- An operation that is turned away in its span is turned away. -/
theorem admittedTo_turnedAway {α : Type} {k : UUID} {p : Investigation α}
    (h : ∀ w₁ : EngineWorld, w₁.store.threads = w.store.threads → w₁.store.cases = w.store.cases →
      w₁.auditEvents = w.auditEvents → TurnedAway env c p w₁) :
    TurnedAway env c (admittedTo task k p) w := by
  intro ok r w' hrun
  obtain ⟨_, _, hjot, hrun⟩ := executes_bind.mp hrun
  obtain ⟨rfl, rfl⟩ := executes_note.mp hjot
  obtain ⟨r₁, w₁, hp, hrun⟩ := executes_finally'.mp hrun
  obtain ⟨⟨e, rfl⟩, hunchanged⟩ := h (w.record (.admitted task k)) rfl rfl rfl ok r₁ w₁ hp
  obtain ⟨_, _, hleft, hrun⟩ := executes_bind.mp hrun
  obtain ⟨rfl, rfl⟩ := executes_note.mp hleft
  obtain ⟨rfl, rfl⟩ := executes_settleResult.mp hrun
  exact ⟨⟨e, rfl⟩, hunchanged.case, hunchanged.thread, hunchanged.audit⟩

/-- A sequence whose first part is turned away is turned away. -/
theorem TurnedAway.bind {α β : Type} {p : Investigation α} (h : TurnedAway env c p w)
    (f : α → Investigation β) : TurnedAway env c (p >>= f) w := by
  intro ok r w' hrun
  obtain ⟨r₁, w₁, hp, hrun⟩ := executes_bind.mp hrun
  obtain ⟨⟨e, rfl⟩, hunchanged⟩ := h ok r₁ w₁ hp
  obtain ⟨rfl, rfl⟩ := hrun
  exact ⟨⟨e, rfl⟩, hunchanged⟩

/-- `supply_information` turns every submission away unless the case waits for it. -/
theorem supplyInformation_turnedAway {submission : Submission}
    (hcase : w.store.cases.get? c = some case) (hstatus : case.status ≠ .waitingForInformation) :
    TurnedAway env c (supplyInformation env task c submission) w := by
  apply turnedAway_of_read (effect_getCase hcase)
  rintro _ ⟨⟩
  apply turnedAway_of_raiseIf
  rwa [served_status]

/-- What stands against a review of a case: it is blocked, the review is of another version, or the
thread of the case names no run. -/
def Barred (request : HumanReview) (case : CaseData) (w : EngineWorld) : Prop :=
  case.status = .hardBlocked ∨ request.recommendationVersion ≠ case.recommendationVersion ∨
    Unbound request.caseId w

/-- A review that something stands against is turned away. -/
theorem review_turnedAway {request : HumanReview}
    (hcase : w.store.cases.get? request.caseId = some case) (hid : case.caseId = request.caseId)
    (hbarred : Barred request case w) :
    TurnedAway env request.caseId (review env task request) w := by
  apply turnedAway_of_read (effect_getCase hcase)
  rintro _ ⟨⟩
  rw [served_status, served_recommendationVersion, served_caseId, hid]
  by_cases hblocked : case.status = .hardBlocked
  · exact turnedAway_of_raiseIf hblocked
  rw [raiseIf_bind hblocked]
  by_cases hversion : request.recommendationVersion = case.recommendationVersion
  · rw [raiseIf_bind (fun hne => hne hversion)]
    obtain hthread := (hbarred.resolve_left hblocked).resolve_left (fun hne => hne hversion)
    apply TurnedAway.bind
    apply admittedTo_turnedAway
    intro w₁ hthreads _ _
    apply resume_turnedAway
    unfold Unbound
    rwa [hthreads]
  · exact turnedAway_of_raiseIf hversion

/-- `_to_run` of a stored case returns, when no call fails from outside. -/
theorem toRun_returns {r : Except PyError InvestigationRun} (hw : Stored c w)
    (h : Unperturbed env (toRun c) w r w') : ∃ run, r = .ok run := by
  obtain ⟨stored, hstored⟩ := hw
  obtain ⟨_, _, hget, h⟩ := executes_bind.mp h
  obtain ⟨draws, heffect⟩ := unperturbed_invoke hget
  rw [effect_getCase hstored] at heffect
  cases heffect
  obtain ⟨_, _, hstate, h⟩ := executes_bind.mp h
  obtain ⟨draws, heffect⟩ := unperturbed_invoke hstate
  cases heffect
  obtain ⟨rfl, -⟩ := executes_pure.mp h
  exact ⟨_, rfl⟩

/-- A review that nothing stands against returns, when no call fails from outside. -/
theorem review_returns {request : HumanReview} {r : Except PyError InvestigationRun}
    (hfiled : Filed w.store) (hcase : w.store.cases.get? request.caseId = some case)
    (hbarred : ¬Barred request case w)
    (h : Unperturbed env (review env task request) w r w') : ∃ run, r = .ok run := by
  have hid : case.caseId = request.caseId := (hfiled.keyed _ _ hcase).1
  have hblocked : ¬case.status = .hardBlocked := fun h => hbarred (.inl h)
  have hversion : ¬request.recommendationVersion ≠ case.recommendationVersion :=
    fun h => hbarred (.inr (.inl h))
  obtain ⟨_, _, hget, h⟩ := executes_bind.mp h
  obtain ⟨draws, heffect⟩ := unperturbed_invoke hget
  rw [effect_getCase hcase] at heffect
  cases heffect
  rw [thenExecutes_ok, served_status, served_recommendationVersion, served_caseId, hid, raiseIf_bind hblocked,
    raiseIf_bind hversion] at h
  obtain ⟨_, w₁, hadmitted, h⟩ := executes_bind.mp h
  obtain ⟨_, _, hjot, hadmitted⟩ := executes_bind.mp hadmitted
  obtain ⟨rfl, rfl⟩ := executes_note.mp hjot
  obtain ⟨_, w₂, hresume, hadmitted⟩ := executes_finally'.mp hadmitted
  obtain ⟨rfl, stored, hstored⟩ := unperturbed_resume hresume ⟨case, hcase⟩ (hfiled.record _)
    (fun hunbound => hbarred (.inr (.inr hunbound)))
  obtain ⟨_, _, hleft, hadmitted⟩ := executes_bind.mp hadmitted
  obtain ⟨rfl, rfl⟩ := executes_note.mp hleft
  obtain ⟨rfl, rfl⟩ := executes_settleResult.mp hadmitted
  apply toRun_returns _ h
  exact ⟨stored, hstored⟩

end Requests

open LangGraphInvestigationEngine in
/-- On every case that operations reach, whatever fails: a submission is turned away unless the case
waits for it, and so is a review that something stands against. When no call fails from outside, a
review is refused and changes nothing exactly when something stands against it. -/
theorem review_refused_iff_barred (env : EngineEnvironment) (bank : SyntheticBank) (p : EnginePool)
    (hreach : (engineSystem env).Reaches (fun _ _ => True) (idleEngine bank) p) (c : UUID)
    (case : CaseData) (hcase : p.world.store.cases.get? c = some case) (task : ℕ) :
    (∀ submission, case.status ≠ .waitingForInformation →
      TurnedAway env c (supplyInformation env task c submission) p.world) ∧
    ∀ request : HumanReview, request.caseId = c →
      (Barred request case p.world → TurnedAway env c (review env task request) p.world) ∧
      ∀ r w', Unperturbed env (review env task request) p.world r w' →
        (Refuses r ∧ Unchanged c p.world w' ↔ Barred request case p.world) := by
  obtain ⟨φ, -, hinv⟩ := (gate_keeps env _).reaches (engineChart_covers env)
    (idleEngine_traces env bank) ⟨fun _ => trivial, gatekept_empty⟩ hreach
  have hfiled := hinv.gatekept.filed
  refine ⟨fun submission hstatus => supplyInformation_turnedAway hcase hstatus, ?_⟩
  rintro request rfl
  have hbarred (h : Barred request case p.world) :
      TurnedAway env request.caseId (review env task request) p.world :=
    review_turnedAway hcase (hfiled.keyed _ _ hcase).1 h
  refine ⟨hbarred, fun r w' hrun => ⟨fun hrefused => ?_, fun h => hbarred h _ r w' hrun⟩⟩
  by_contra hfree
  obtain ⟨run, rfl⟩ := review_returns hfiled hcase hfree hrun
  obtain ⟨e, herror⟩ := hrefused.1
  cases herror

/-- Draws of a call that does not fail, of a model that asks for information. -/
def askingDraws : EngineDraws := ⟨.none, sampleRecommendation .requestMoreInformation, 0⟩

/-- The first investigation, up to its request for information. -/
def askedMoves : List (Move EngineOp EngineDraws) :=
  .start sampleStart :: List.replicate 34 (.advance 0 askingDraws)

open LangGraphInvestigationEngine in
/-- A case that waits for information turns away a review of a version that it does not have. -/
theorem review_refused_iff_barred_stale :
    ∃ p case, (engineSystem (sampleEnvironment .inMemory)).Reaches (fun _ _ => True)
        (idleEngine sampleBank) p ∧
      p.world.store.cases.get? 0 = some case ∧ case.status = .waitingForInformation ∧
        TurnedAway (sampleEnvironment .inMemory) 0
          (review (sampleEnvironment .inMemory) 1 { sampleApproval with
            recommendationVersion := 2, version_pos := by decide }) p.world := by
  obtain ⟨p, hreach, htest⟩ := System.exists_reaches (engineSystem (sampleEnvironment .inMemory))
    (fun _ _ => true) (fun _ _ _ => trivial) (idleEngine sampleBank) askedMoves
    (fun p => (p.world.store.cases.get? 0).any fun case =>
      case.status = .waitingForInformation ∧ case.recommendationVersion = 1)
    (by decide +kernel)
  obtain ⟨case, hcase, hasks⟩ := (Option.any_eq_true _ _).mp htest
  obtain ⟨hstatus, hversion⟩ := of_decide_eq_true hasks
  refine ⟨p, case, hreach, hcase, hstatus, ?_⟩
  apply ((review_refused_iff_barred _ _ p hreach 0 case hcase 1).2 _ rfl).1
  refine .inr (.inl fun hstale => ?_)
  rw [hversion] at hstale
  cases hstale

open LangGraphInvestigationEngine in
/-- A review of the current version of a case that waits for information returns. -/
theorem review_admitted_while_asking :
    ¬∀ (env : EngineEnvironment) (bank : SyntheticBank) (p : EnginePool),
      (engineSystem env).Reaches (fun _ _ => True) (idleEngine bank) p →
        ∀ c case, p.world.store.cases.get? c = some case → ∀ (task : ℕ) (request : HumanReview),
          request.caseId = c → case.status ≠ .waitingForHumanReview → ∀ r w',
            Unperturbed env (review env task request) p.world r w' →
              Refuses r ∧ Unchanged c p.world w' := by
  intro h
  let env := sampleEnvironment .inMemory
  obtain ⟨p, hreach, htest⟩ := System.exists_reaches (engineSystem env)
    (fun _ _ => true) (fun _ _ _ => trivial) (idleEngine sampleBank) askedMoves
    (fun p => ((p.world.store.cases.get? 0).any fun case => case.status = .waitingForInformation) &&
      ((review env 1 sampleApproval).runChecked (engineSystem env).toMachine
        (fun _ draws _ => !decide draws.failure.Raises) quietDraws p.world).any fun ended =>
          ended.1.isOk && (ended.2.store.cases.get? 0).any fun case => case.status = .failed)
    (by decide +kernel)
  obtain ⟨hasks, hrun⟩ := Bool.and_eq_true_iff.mp htest
  obtain ⟨case, hcase, hstatus⟩ := (Option.any_eq_true _ _).mp hasks
  obtain ⟨r, w', hexecutes, hended⟩ := exists_executes (engineSystem env).toMachine
    (fun _ draws _ => !decide draws.failure.Raises) (fun _ _ _ hquiet => by simpa using hquiet)
    quietDraws (review env 1 sampleApproval) p.world _ hrun
  have hwaits : case.status ≠ .waitingForHumanReview := by
    rw [of_decide_eq_true hstatus]
    decide
  obtain ⟨⟨e, rfl⟩, -⟩ := h env sampleBank p hreach 0 case hcase 1 sampleApproval rfl hwaits r w' hexecutes
  cases hended

end Amlguard
