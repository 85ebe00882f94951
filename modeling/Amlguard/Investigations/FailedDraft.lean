import Amlguard.Investigations.OutOfTurn

/-!
# Runs in which the model fails

An investigation that is started on a repository of its own, in a process that nothing else disturbs:
only the model and the store of the artifacts fail from outside. The model is asked in one stage only,
and a start reaches that stage at most once. So when the model fails the run ends at once, without a
recommendation, and the class name of its last error is that of the exception of the model.
-/

namespace Amlguard

open Awaited Prog

/-- In a process of its own, only the model and the store of the artifacts fail from outside. -/
def InProcess (_ : EngineWorld) (draws : EngineDraws) : EngineCall → Prop
  | .recommend _ | .trajectoryHook _ _ => True
  | _ => ¬draws.failure.Raises

instance (w : EngineWorld) (draws : EngineDraws) :
    (call : EngineCall) → Decidable (InProcess w draws call)
  | .recommend _ | .trajectoryHook _ _ => isTrue trivial
  | .createCase .. | .getCase _ | .deleteCase _ | .getAlert _ | .getCustomer _ | .getKyc _
  | .getTransactions _ | .saveRecommendation .. | .saveReview _ | .setStatus .. | .audit ..
  | .stageHook .. | .uuid4 | .toolExecutions | .loadCheckpoint .. | .putCheckpoint ..
  | .getState _ | .updateState .. | .deleteThread _ =>
    inferInstanceAs (Decidable ¬draws.failure.Raises)

/-- The call asks the model. -/
def EngineCall.Asks : EngineCall → Prop
  | .recommend _ => True
  | _ => False

/-- The model is asked, and fails with one of some exceptions. -/
def ModelFails (fails : PyError → Prop) (_ : EngineWorld) (draws : EngineDraws) : EngineCall → Prop
  | .recommend _ => ∃ e, (draws.failure = .before e ∨ draws.failure = .after e) ∧ fails e
  | _ => False

/-- A call that neither asks the model nor changes the recommendation of a case. -/
def EngineCall.Undrafting : EngineCall → Prop
  | .createCase _ _ _ | .deleteCase _ | .saveRecommendation _ _ | .recommend _ => False
  | _ => True

/-- A program that neither asks the model nor changes the recommendation of a case. -/
abbrev UndraftingProgram {α : Type} (p : Investigation α) : Prop :=
  p.Only EngineCall.Undrafting fun _ => True

/-- A case is stored, and has no recommendation. -/
def Undrafted (c : UUID) (w : EngineWorld) : Prop :=
  ∃ case, w.store.cases.get? c = some case ∧ case.caseId = c ∧ case.recommendation = none

section Programs

variable {env : EngineEnvironment} {b : CaseBinding} {values : InvestigationState}
  {resume : Option Resume} {stage : Stage} {α β : Type}

theorem undrafting_bind {p : Investigation α} {f : α → Investigation β} (hp : UndraftingProgram p)
    (hf : ∀ a, UndraftingProgram (f a)) : UndraftingProgram (p >>= f) := hp.bind hf

theorem undrafting_computed (r : Except PyError α) : UndraftingProgram (computed r) :=
  only_settleResult (S := engineSignature) r

theorem undrafting_pure (a : α) : UndraftingProgram (pure a) := only_pure (S := engineSignature) a

theorem undrafting_jot (n : EngineMark) : UndraftingProgram (jot n) :=
  (only_note (S := engineSignature) n).mpr trivial

theorem undrafting_invoke {call : EngineCall} (h : call.Undrafting) : UndraftingProgram (invoke call) :=
  (only_call (S := engineSignature) call).mpr h

theorem undrafting_suppress {p : Investigation Unit} (hp : UndraftingProgram p) :
    UndraftingProgram (suppress p) := hp.suppress

/-- `human_review` drafts nothing before it is resumed. -/
theorem humanReview_undrafting : UndraftingProgram (humanReview b values none) := by
  unfold humanReview
  split
  · exact undrafting_pure _
  · refine undrafting_bind (undrafting_computed _) fun version => ?_
    exact undrafting_pure _

/-- Only one stage of a run that is not resumed drafts. -/
theorem stageBody_undrafting (hstage : stage ≠ .draftRecommendation) :
    UndraftingProgram (stageBody env b values stage none) := by
  by_cases hreview : stage = .humanReview
  · subst hreview
    change UndraftingProgram (humanReview b values none)
    exact humanReview_undrafting
  apply stageBody_only stage
  intro call hcall
  cases call with
  | createCase | deleteCase | saveRecommendation | recommend =>
    cases stage <;> first | exact absurd hcall not_false | contradiction
  | _ => trivial

/-- A notification drafts nothing. -/
theorem notifyStage_undrafting {event : String} : UndraftingProgram (notifyStage b stage event) :=
  undrafting_suppress (undrafting_invoke trivial)

/-- A record of a failure drafts nothing. -/
theorem recordFailure_undrafting {e : PyError} : UndraftingProgram (recordFailure b values stage e) := by
  apply recordFailure_only
  intro call hcall
  cases call with
  | createCase | deleteCase | saveRecommendation | recommend => exact absurd hcall not_false
  | _ => trivial

/-- The end of a stage drafts nothing. -/
theorem settleStage_undrafting (ended : Except PyError StageEnd) :
    UndraftingProgram (settleStage b values stage ended) := by
  unfold settleStage
  split
  · exact undrafting_bind notifyStage_undrafting fun _ => undrafting_pure _
  · exact undrafting_bind notifyStage_undrafting fun _ => undrafting_pure _
  · exact recordFailure_undrafting.finally' notifyStage_undrafting

/-- Only one guarded stage of a run that is not resumed drafts. -/
theorem guarded_undrafting (hstage : stage ≠ .draftRecommendation) :
    UndraftingProgram (guarded env values stage none) := by
  refine undrafting_bind (undrafting_computed _) fun b => ?_
  refine undrafting_bind notifyStage_undrafting fun _ => ?_
  refine undrafting_bind (stageBody_undrafting hstage).attempt fun ended => ?_
  exact settleStage_undrafting ended

/-- What a guarded stage leaves in the state: a failure, or what the stage does. -/
def StageEnd.Settles (stage : Stage) (resume : Option Resume) (values : InvestigationState)
    (ended : StageEnd) : Prop :=
  ∀ values', ended = .updated values' → values'.binding = values.binding ∧
    (values'.status = .failed ∨ StageEnd.Leads stage resume values ended)

/-- A failure settles a stage. -/
theorem settles_withFailure (failure : InvestigationError) :
    StageEnd.Settles stage resume values (.updated (values.withFailure failure)) := by
  intro values' h
  cases h
  exact ⟨rfl, .inl rfl⟩

/-- A record of a failure settles a stage. -/
theorem recordFailure_yields {e : PyError} :
    (recordFailure b values stage e).Yields (StageEnd.Settles stage resume values) := by
  refine yields_bind fun errorId => yields_bind fun _ => yields_bind fun _ => yields_bind fun _ => ?_
  exact yields_pure.mpr (settles_withFailure _)

/-- A guarded stage settles. -/
theorem guarded_yields :
    (guarded env values stage resume).Yields (StageEnd.Settles stage resume values) := by
  refine yields_bind fun b => yields_bind fun _ => ?_
  apply stageBody_yields.attempt.bind
  intro ended hended
  match ended with
  | .ok .interrupted =>
    apply yields_bind
    intro _
    apply yields_pure.mpr
    intro values' h
    cases h
  | .ok (.updated values') =>
    have hleads : StageEnd.Leads stage resume values (.updated values') := hended _ rfl
    apply yields_bind
    intro _
    apply yields_pure.mpr
    intro values'' h
    cases h
    exact ⟨hleads.1, .inr hleads⟩
  | .error e => exact recordFailure_yields.finally'

end Programs

section Runs

variable {env : EngineEnvironment} {fails : PyError → Prop} {w w' : EngineWorld} {b : CaseBinding}
  {values : InvestigationState} {stage : Stage} {c : UUID} {α : Type}

/-- A program that drafts nothing does not ask the model. -/
theorem not_meets_of_undrafting {ok : EngineWorld → EngineDraws → EngineCall → Prop}
    {p : Investigation α} {r : Except PyError α} (hp : UndraftingProgram p) :
    ¬p.Meets (engineSystem env).toMachine ok (ModelFails fails) w r w' := by
  apply not_meets_of_only hp
  intro w draws call hundrafting hfails
  cases call with
  | recommend => exact hundrafting
  | _ => exact hfails

/-- A call that drafts nothing leaves the case without a recommendation. -/
theorem Undrafted.perform {draws : EngineDraws} {call : EngineCall} (h : Undrafted c w)
    (hcall : call.Undrafting) : Undrafted c (w.perform env draws call).2 := by
  obtain ⟨case, hcase, hid, hnone⟩ := h
  have hset (k : UUID) (old new : CaseData) (hold : w.store.cases.get? k = some old)
      (hsame : new.caseId = old.caseId ∧ new.recommendation = old.recommendation) :
      ∃ found, (w.store.cases.set k new).get? c = some found ∧ found.caseId = c ∧
        found.recommendation = none := by
    rw [Dict.get?_set]
    split
    · rename_i heq
      rw [← heq, hold] at hcase
      cases hcase
      exact ⟨new, rfl, hsame.1.trans hid, hsame.2.trans hnone⟩
    · exact ⟨case, hcase, hid, hnone⟩
  unfold Undrafted
  have hwrites := perform_writes env w draws call
  generalize (w.perform env draws call).2.store = s' at hwrites
  generalize (w.perform env draws call).1 = r at hwrites
  cases hwrites with
  | unchanged | got | loaded | put | updated | forgotten => exact ⟨case, hcase, hid, hnone⟩
  | located | created | deleted | recommended => exact hcall.elim
  | reviewed review old _ hold => exact hset _ old _ hold ⟨rfl, rfl⟩
  | status k status old _ hold => exact hset _ old _ hold ⟨rfl, rfl⟩

/-- A program that drafts nothing leaves the case without a recommendation. -/
theorem undrafted_of_undrafting {ok : EngineWorld → EngineDraws → EngineCall → Prop}
    {p : Investigation α} {r : Except PyError α}
    (h : p.Executes (engineSystem env).toMachine ok w r w') (hp : UndraftingProgram p)
    (hw : Undrafted c w) : Undrafted c w' := by
  apply h.keeps _ _ hp hw
  · intro w draws call _ hcall hw
    exact hw.perform hcall
  · intro w n _ hw
    unfold Undrafted
    change ∃ case, (w.record n).store.cases.get? c = some case ∧ _
    rwa [record_cases]

/-- What a call does in a process of its own, unless it asks the model or stores an artifact. -/
theorem inProcess_invoke {call : EngineCall} {r : Except PyError call.Reply}
    (h : (invoke call).Executes (engineSystem env).toMachine InProcess w r w')
    (hcall : ∀ w draws, InProcess w draws call → ¬draws.failure.Raises) :
    ∃ draws, w.effect env draws call = (r, w') := by
  obtain ⟨draws, hok, rfl, rfl⟩ := executes_call.mp h
  exact ⟨draws, (perform_of_not_raises (hcall w draws hok)).symm⟩

/-- A call that leaves the cases and the threads aside leaves the store as it is. -/
theorem executes_aside {ok : EngineWorld → EngineDraws → EngineCall → Prop} {call : EngineCall}
    {r : Except PyError call.Reply}
    (h : (invoke call).Executes (engineSystem env).toMachine ok w r w') (hcall : call.Aside) :
    w'.store = w.store := by
  obtain ⟨draws, -, rfl, rfl⟩ := executes_call.mp h
  exact (perform_writes env w draws call).eq_of_aside hcall

/-- A notification returns, and leaves the store as it is. -/
theorem executes_notifyStage {ok : EngineWorld → EngineDraws → EngineCall → Prop} {event : String}
    {r : Except PyError Unit}
    (h : (notifyStage b stage event).Executes (engineSystem env).toMachine ok w r w') :
    r = .ok () ∧ w'.store = w.store := by
  obtain ⟨rfl, r₁, hcall⟩ := executes_suppress.mp h
  exact ⟨rfl, executes_aside hcall trivial⟩

/-- The case has failed without a recommendation. -/
def FailedUndrafted (c : UUID) (s : Store) : Prop :=
  ∃ case, s.cases.get? c = some case ∧ case.caseId = c ∧ case.recommendation = none ∧
    case.status = .failed

/-- The record of a failure sets the status of the case. -/
theorem executes_recordFailure {e : PyError} {r : Except PyError StageEnd}
    (h : (recordFailure b values stage e).Executes (engineSystem env).toMachine InProcess w r w')
    (hw : Undrafted b.caseId w) :
    FailedUndrafted b.caseId w'.store ∧
      ∃ errorId, r = .ok (.updated (values.withFailure (failureOf errorId stage.name e))) := by
  obtain ⟨r₁, w₁, huuid, h⟩ := executes_bind.mp h
  obtain ⟨draws, heffect⟩ := inProcess_invoke huuid fun _ _ hok => hok
  cases heffect
  obtain ⟨r₂, w₂, hstatus, h⟩ := executes_bind.mp h
  obtain ⟨_, heffect⟩ := inProcess_invoke hstatus fun _ _ hok => hok
  obtain ⟨case, hcase, hid, hnone⟩ := hw
  have hset : w.store.setStatus env.backend b.caseId .failed =
      (.ok (), { w.store with cases := w.store.cases.set b.caseId { case with status := .failed } }) := by
    rw [Store.setStatus, Store.updateCase, hcase]
  simp only [EngineWorld.effect, EngineWorld.onStore, hset] at heffect
  cases heffect
  obtain ⟨_, w₃, haudit, h⟩ := executes_bind.mp h
  obtain ⟨rfl, _, hcall⟩ := executes_suppress.mp haudit
  have hstore := executes_aside hcall trivial
  obtain ⟨_, w₄, hhook, h⟩ := executes_bind.mp h
  obtain ⟨rfl, _, hcall⟩ := executes_suppress.mp hhook
  have hstore' := executes_aside hcall trivial
  obtain ⟨rfl, rfl⟩ := executes_pure.mp h
  refine ⟨⟨{ case with status := .failed }, ?_, hid, hnone, rfl⟩, draws.uuid, rfl⟩
  rw [hstore', hstore]
  exact Dict.get?_set_self _ _ _

/-- A stage that raises ends with the record of its failure. -/
theorem executes_settleStage_error {e : PyError} {r : Except PyError StageEnd}
    (h : (settleStage b values stage (.error e)).Executes (engineSystem env).toMachine InProcess w r w')
    (hw : Undrafted b.caseId w) :
    FailedUndrafted b.caseId w'.store ∧
      ∃ errorId, r = .ok (.updated (values.withFailure (failureOf errorId stage.name e))) := by
  obtain ⟨r₁, w₁, hrecorded, h⟩ := executes_finally'.mp h
  obtain ⟨hfailed, errorId, rfl⟩ := executes_recordFailure hrecorded hw
  obtain ⟨_, w₂, hnotified, h⟩ := executes_bind.mp h
  obtain ⟨rfl, hstore⟩ := executes_notifyStage hnotified
  obtain ⟨rfl, rfl⟩ := executes_settleResult.mp h
  rw [hstore]
  exact ⟨hfailed, errorId, rfl⟩

/-- Once the model has answered, a draft does not ask it again. -/
theorem drafted_asksNothing {recommendation : InvestigationRecommendation} :
    (do
      let version ← invoke (.saveRecommendation b.caseId recommendation)
      jot (.drafted b.caseId version)
      invoke (.trajectoryHook b.runId (.recommendationDrafted env.modelId recommendation version))
      pure (.updated (values.withDraft recommendation version)) :
        Investigation StageEnd).Only (fun call : EngineCall => ¬call.Asks) fun _ => True := by
  apply Only.bind
  · exact (only_call (S := engineSignature) _).mpr (fun h => h)
  intro version
  apply Only.bind
  · exact (only_note (S := engineSignature) _).mpr trivial
  intro _
  apply Only.bind
  · exact (only_call (S := engineSignature) _).mpr (fun h => h)
  intro _
  exact only_pure (S := engineSignature) _

/-- A draft in which the model fails raises the exception of the model. -/
theorem meets_draft {r : Except PyError StageEnd}
    (h : (draft env b values).Meets (engineSystem env).toMachine InProcess (ModelFails fails) w r w')
    (hw : Undrafted b.caseId w) : Undrafted b.caseId w' ∧ ∃ e, fails e ∧ r = .error e := by
  rcases meets_bind.mp h with ⟨r₁, w₁, hasked, hthen⟩ | ⟨recommendation, w₁, -, hrest⟩
  · obtain ⟨draws, -, ⟨e, hfailure, he⟩, hr, rfl⟩ := meets_call.mp hasked
    have hperform : ∀ request, (w.perform env draws (.recommend request)).1 = .error e ∧
        (w.perform env draws (.recommend request)).2 = w := by
      intro request
      rcases hfailure with hfailure | hfailure <;> simp [EngineWorld.perform, EngineCall.MayFail,
        EngineWorld.effect, hfailure]
    change r₁ = (w.perform env draws _).1 at hr
    rw [(hperform _).1] at hr
    subst hr
    obtain ⟨rfl, rfl⟩ := hthen
    refine ⟨?_, e, he, rfl⟩
    change Undrafted b.caseId (w.perform env draws _).2
    rwa [(hperform _).2]
  · refine absurd hrest (not_meets_of_only drafted_asksNothing ?_)
    intro w draws call hcall hfails
    cases call with
    | recommend request => exact hcall trivial
    | _ => exact hfails

/-- A guarded draft in which the model fails ends with the record of the failure. -/
theorem meets_guarded {r : Except PyError StageEnd} (hbinding : values.binding = some b)
    (h : (guarded env values .draftRecommendation none).Meets (engineSystem env).toMachine InProcess
      (ModelFails fails) w r w') (hw : Undrafted b.caseId w) :
    FailedUndrafted b.caseId w'.store ∧ ∃ e errorId, fails e ∧
      r = .ok (.updated (values.withFailure (failureOf errorId "draft_recommendation" e))) := by
  unfold guarded at h
  rw [hbinding] at h
  obtain ⟨_, w₁, hcomputed, h⟩ := h.rest fun _ _ => not_meets_of_undrafting (undrafting_computed _)
  obtain ⟨hb, rfl⟩ := executes_settleResult.mp hcomputed
  cases hb
  obtain ⟨_, w₂, hstarted, h⟩ := h.rest fun _ _ => not_meets_of_undrafting notifyStage_undrafting
  have hw₂ := undrafted_of_undrafting hstarted notifyStage_undrafting hw
  rcases meets_bind.mp h with ⟨r₁, w₃, hattempt, hthen⟩ | ⟨ended, w₃, -, hrest⟩
  · obtain ⟨ended, hbody, rfl⟩ := meets_attempt.mp hattempt
    obtain ⟨hw₃, e, he, rfl⟩ := meets_draft hbody hw₂
    obtain ⟨hfailed, errorId, rfl⟩ := executes_settleStage_error hthen hw₃
    exact ⟨hfailed, e, errorId, he, rfl⟩
  · exact absurd hrest (not_meets_of_undrafting (settleStage_undrafting ended))

/-- A run of the graph asks the model no more once it is past its draft. -/
theorem not_meets_drive {thread : UUID} {fuel : ℕ} {r : Except PyError Unit}
    (hstage : stage.rounds none ≤ 2) :
    ¬(drive env thread fuel stage none values).Meets (engineSystem env).toMachine InProcess
      (ModelFails fails) w r w' := by
  induction fuel generalizing stage values w with
  | zero => exact not_meets_done
  | succ fuel ih =>
    intro h
    have hne : stage ≠ .draftRecommendation := by
      rintro rfl
      simp [Stage.rounds] at hstage
    obtain ⟨ended, w₁, hguarded, h⟩ := h.rest fun _ _ => not_meets_of_undrafting (guarded_undrafting hne)
    have hsettles := hguarded.yields guarded_yields
    cases ended with
    | interrupted => exact not_meets_done h
    | updated values' =>
      obtain ⟨-, hleads⟩ := hsettles values' rfl
      obtain ⟨_, w₂, -, h⟩ := h.rest fun _ _ => not_meets_of_undrafting (undrafting_invoke trivial)
      cases hroute : route stage values' with
      | none =>
        rw [hroute] at h
        exact not_meets_done h
      | some next =>
        rw [hroute] at h
        have hrounds := rounds_route hroute hleads
        exact ih (by omega) h

/-- The errors of a saved state end with a failure of a class. -/
def LastFailure (errorType : String) (values : InvestigationState) : Prop :=
  ∃ failure, values.errors.getLast? = some failure ∧ failure.errorType = errorType

/-- The record of a failure shows the class name of the exception. -/
theorem failureOf_errorType (errorId : UUID) (name : String) (e : PyError) :
    (failureOf errorId name e).errorType = e.typeName := by
  unfold failureOf
  split <;> rfl

/-- A recorded failure is the last one. -/
theorem lastFailure_withFailure {errorId : UUID} {name : String} {e : PyError} :
    LastFailure e.typeName (values.withFailure (failureOf errorId name e)) :=
  ⟨failureOf errorId name e, List.getLast?_concat, failureOf_errorType errorId name e⟩

/-- The run of a case has failed without a recommendation, at an exception of a class. -/
structure FailedAt (errorType : String) (c : UUID) (s : Store) : Prop where
  case : FailedUndrafted c s
  thread : ∃ saved, s.threads.get? c = some saved ∧ LastFailure errorType saved.values

/-- A run of the graph in whose draft the model fails ends with that draft. -/
theorem meets_drive_draft {fuel : ℕ} {r : Except PyError Unit} (hbinding : values.binding = some b)
    (h : (drive env b.caseId (fuel + 1) .draftRecommendation none values).Meets (engineSystem env).toMachine
      InProcess (ModelFails fails) w r w') (hw : Undrafted b.caseId w) :
    r = .ok () ∧ ∃ e, fails e ∧ FailedAt e.typeName b.caseId w'.store := by
  rcases meets_bind.mp h with ⟨r₁, w₁, hguarded, h⟩ | ⟨ended, w₁, hguarded, hrest⟩
  · obtain ⟨⟨case, hcase, hfailed⟩, e, errorId, he, rfl⟩ := meets_guarded hbinding hguarded hw
    obtain ⟨_, w₂, hput, h⟩ := executes_bind.mp h
    obtain ⟨draws, heffect⟩ := inProcess_invoke hput fun _ _ hok => hok
    cases heffect
    rw [route_failed _ rfl] at h
    obtain ⟨rfl, rfl⟩ := executes_pure.mp h
    exact ⟨rfl, e, he, ⟨case, hcase, hfailed⟩, _, Dict.get?_set_self _ _ _, lastFailure_withFailure⟩
  · exfalso
    have hsettles := hguarded.yields guarded_yields
    cases ended with
    | interrupted => exact not_meets_done hrest
    | updated values' =>
      obtain ⟨-, hleads⟩ := hsettles values' rfl
      obtain ⟨_, w₂, -, h⟩ := hrest.rest fun _ _ => not_meets_of_undrafting (undrafting_invoke trivial)
      cases hroute : route .draftRecommendation values' with
      | none =>
        rw [hroute] at h
        exact not_meets_done h
      | some next =>
        rw [hroute] at h
        have hrounds := rounds_route hroute hleads
        exact not_meets_drive (Nat.le_of_lt_succ hrounds) h

/-- A run of the graph from its entry asks the model in its second stage. -/
theorem meets_drive_entry {fuel : ℕ} {r : Except PyError Unit} (hbinding : values.binding = some b)
    (h : (drive env b.caseId (fuel + 2) .loadAndRetrieve none values).Meets (engineSystem env).toMachine
      InProcess (ModelFails fails) w r w') (hw : Undrafted b.caseId w) :
    r = .ok () ∧ ∃ e, fails e ∧ FailedAt e.typeName b.caseId w'.store := by
  have hne : Stage.loadAndRetrieve ≠ .draftRecommendation := by decide
  obtain ⟨ended, w₁, hguarded, h⟩ := h.rest fun _ _ => not_meets_of_undrafting (guarded_undrafting hne)
  have hw₁ := undrafted_of_undrafting hguarded (guarded_undrafting hne) hw
  have hsettles := hguarded.yields guarded_yields
  cases ended with
  | interrupted => exact absurd h not_meets_done
  | updated values' =>
    obtain ⟨hbinding', hleads⟩ := hsettles values' rfl
    obtain ⟨_, w₂, hput, h⟩ := h.rest fun _ _ => not_meets_of_undrafting (undrafting_invoke trivial)
    have hw₂ := undrafted_of_undrafting hput (undrafting_invoke trivial) hw₁
    have hroute : route .loadAndRetrieve values' = none ∨
        route .loadAndRetrieve values' = some .draftRecommendation := by
      simp only [route]
      split
      · exact .inl rfl
      · exact .inr rfl
    rcases hroute with hroute | hroute
    · rw [hroute] at h
      exact absurd h not_meets_done
    · rw [hroute] at h
      exact meets_drive_draft (hbinding'.trans hbinding) h hw₂

end Runs

section Start

open LangGraphInvestigationEngine

variable {env : EngineEnvironment} {fails : PyError → Prop} {w w' : EngineWorld}

/-- A run that has failed without a recommendation, at an exception of a class. -/
structure InvestigationRun.EndsAt (errorType : String) (run : InvestigationRun) : Prop where
  status : run.status = .failed
  recommendation : run.recommendation = none
  failure : ∃ failure, run.errors.getLast? = some failure ∧ failure.errorType = errorType

/-- The run that a request reads of a case that has failed so. -/
theorem executes_toRun {errorType : String} {c : UUID} {r : Except PyError InvestigationRun}
    (h : (toRun c).Executes (engineSystem env).toMachine InProcess w r w')
    (hw : FailedAt errorType c w.store) : ∃ run, r = .ok run ∧ run.EndsAt errorType := by
  obtain ⟨⟨case, hcase, hid, hnone, hstatus⟩, saved, hsaved, hlast⟩ := hw
  obtain ⟨_, w₁, hget, h⟩ := executes_bind.mp h
  obtain ⟨draws, heffect⟩ := inProcess_invoke hget fun _ _ hok => hok
  rw [effect_getCase hcase] at heffect
  cases heffect
  obtain ⟨_, w₂, hstate, h⟩ := executes_bind.mp h
  obtain ⟨draws', heffect⟩ := inProcess_invoke hstate fun _ _ hok => hok
  cases heffect
  obtain ⟨rfl, rfl⟩ := executes_pure.mp h
  refine ⟨_, rfl, ?_⟩
  rw [served_caseId, hid, hsaved]
  constructor
  · exact (served_status env.backend case).trans hstatus
  · exact (served_recommendation env.backend case).trans hnone
  · exact hlast

/-- Reading a run asks the model nothing. -/
theorem toRun_undrafting {c : UUID} : UndraftingProgram (toRun c) := by
  refine undrafting_bind (undrafting_invoke trivial) fun case => ?_
  refine undrafting_bind (undrafting_invoke trivial) fun saved => ?_
  exact undrafting_pure _

/-- A run of the graph from its start in which the model fails. -/
theorem meets_ainvoke {task : ℕ} {b : CaseBinding} {r : Except PyError Unit}
    (h : (ainvoke env task b.caseId (.start b)).Meets (engineSystem env).toMachine InProcess
      (ModelFails fails) w r w') (hw : Undrafted b.caseId w) :
    r = .ok () ∧ ∃ e, fails e ∧ FailedAt e.typeName b.caseId w'.store := by
  obtain ⟨saved, w₁, hload, h⟩ := h.rest fun _ _ => not_meets_of_undrafting (undrafting_invoke trivial)
  have hw₁ := undrafted_of_undrafting hload (undrafting_invoke trivial) hw
  obtain ⟨_, w₂, hjot, h⟩ := h.rest fun _ _ => not_meets_of_undrafting (undrafting_jot _)
  have hw₂ := undrafted_of_undrafting hjot (undrafting_jot _) hw₁
  obtain ⟨_, w₃, hput, h⟩ := h.rest fun _ _ => not_meets_of_undrafting (undrafting_invoke trivial)
  have hw₃ := undrafted_of_undrafting hput (undrafting_invoke trivial) hw₂
  exact meets_drive_entry rfl h hw₃

/-- A prepared run in which the model fails. -/
theorem meets_runPrepared {task : ℕ} {case : CaseData} {actorId contextCondition : String}
    {r : Except PyError InvestigationRun}
    (h : (runPrepared env task case actorId contextCondition).Meets (engineSystem env).toMachine InProcess
      (ModelFails fails) w r w') (hw : Undrafted case.caseId w) :
    ∃ run e, r = .ok run ∧ fails e ∧ run.EndsAt e.typeName := by
  rcases meets_bind.mp h with ⟨r₁, w₁, hadmitted, h⟩ | ⟨_, w₁, -, hread⟩
  · obtain ⟨_, w₂, hjot, hadmitted⟩ :=
      hadmitted.rest fun _ _ => not_meets_of_undrafting (undrafting_jot _)
    have hw₂ := undrafted_of_undrafting hjot (undrafting_jot _) hw
    obtain ⟨r₂, w₃, hrun, hleft⟩ :=
      hadmitted.of_finally' fun _ _ _ => not_meets_of_undrafting (undrafting_jot _)
    obtain ⟨rfl, e, he, hfailed⟩ := meets_ainvoke
      (b := ⟨case.runId, case.caseId, case.alertId, case.customerId, actorId, contextCondition⟩) hrun hw₂
    obtain ⟨_, w₄, hjot, hleft⟩ := executes_bind.mp hleft
    obtain ⟨rfl, rfl⟩ := executes_note.mp hjot
    obtain ⟨rfl, rfl⟩ := executes_settleResult.mp hleft
    obtain ⟨run, rfl, hends⟩ := executes_toRun h ⟨hfailed.case, hfailed.thread⟩
    exact ⟨run, e, rfl, he, hends⟩
  · exact absurd hread (not_meets_of_undrafting toRun_undrafting)

/-- An investigation that is started on an empty repository and in which the model fails. -/
theorem meets_start {task : ℕ} {bank : SyntheticBank} {alertId actorId tenantId contextCondition : String}
    {r : Except PyError InvestigationRun}
    (h : (start env task alertId actorId tenantId contextCondition).Meets (engineSystem env).toMachine
      InProcess (ModelFails fails) { bank } r w') :
    ∃ run e, r = .ok run ∧ fails e ∧ run.EndsAt e.typeName := by
  rcases meets_bind.mp h with ⟨r₁, w₁, hcreated, h⟩ | ⟨prepared, w₁, hcreated, h⟩
  · obtain ⟨_, -, hfails, -⟩ := meets_call.mp hcreated
    exact hfails.elim
  · obtain ⟨draws, -, hr, rfl⟩ := executes_call.mp hcreated
    have hwrites : Writes env {} (.createCase alertId tenantId actorId) (.ok prepared)
        ((engineSystem env).toMachine.perform { bank } draws
          (.createCase alertId tenantId actorId)).2.store := by
      rw [hr]
      exact perform_writes env { bank } draws (.createCase alertId tenantId actorId)
    generalize ((engineSystem env).toMachine.perform { bank } draws
      (.createCase alertId tenantId actorId)).2 = w₁ at hwrites h
    generalize hs : w₁.store = s at hwrites
    cases hwrites with
    | unchanged _ _ haside => exact (haside _ rfl).elim
    | located _ _ _ c case hcase => cases hcase
    | created _ _ _ alert _ hreply =>
      cases hreply _ rfl
      apply meets_runPrepared h
      unfold Undrafted
      rw [hs]
      exact ⟨_, Dict.get?_set_self _ _ _, rfl, rfl⟩

end Start

end Amlguard
