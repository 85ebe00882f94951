import Amlguard.Investigations.OneRun

/-!
# The view of a case

What the runs of a case read and write: the case as it is stored, its thread, and the evidence that
audit events have announced for it. A call that does not alter the case leaves its view as it is.
-/

namespace Amlguard

open Awaited

/-- What the runs of a case read and write: the case, its thread, and the evidence IDs that
`case_information_supplied` events have announced for it. -/
structure CaseView where
  case : CaseData
  saved : Option Checkpoint
  supplied : List String

/-- The evidence ID that an audit event announces for a case. -/
def AuditEvent.supplies (c : UUID) (event : AuditEvent) : Option String :=
  match event.payload with
  | .informationSupplied _ evidenceId _ =>
    if event.eventType = "case_information_supplied" ∧ event.caseId = c then some evidenceId
    else none
  | _ => none

/-- The evidence IDs that have been announced for a case. -/
def EngineWorld.supplied (w : EngineWorld) (c : UUID) : List String :=
  w.auditEvents.filterMap (·.supplies c)

/-- The view of a stored case. -/
def EngineWorld.view (w : EngineWorld) (c : UUID) : Option CaseView :=
  (w.store.cases.get? c).map fun case => ⟨case, w.store.threads.get? c, w.supplied c⟩

/-- A call that writes a case that is already stored, its thread or its announced evidence. -/
def EngineCall.Alters (c : UUID) : EngineCall → Prop
  | .saveRecommendation k _ | .setStatus k _ | .putCheckpoint k _ | .updateState k _ _
  | .deleteThread k => k = c
  | .saveReview review => review.caseId = c
  | .audit eventType _ k _ => eventType = "case_information_supplied" ∧ k = c
  | _ => False

/-- A call that a run of the case makes to write to it. -/
def EngineCall.FromRun : EngineCall → Prop
  | .updateState _ _ _ | .deleteThread _ => False
  | _ => True

/-- The evidence ID in an audit payload. -/
def AuditPayload.evidenceIds : AuditPayload → List String
  | .informationSupplied _ evidenceId _ => [evidenceId]
  | _ => []

/-- How a call changes the view of a case that stays stored. -/
inductive ViewStep (env : EngineEnvironment) (c : UUID) (v : CaseView) :
    (call : EngineCall) → Except PyError call.Reply → CaseView → Prop where
  | kept (call : EngineCall) (r : Except PyError call.Reply)
      (h : call.Alters c → ∃ e, r = .error e) : ViewStep env c v call r v
  | recommended (recommendation : InvestigationRecommendation) (r : Except PyError ℕ)
      (hr : ∀ version, r = .ok version → version = v.case.recommendationVersion + 1) :
      ViewStep env c v (.saveRecommendation c recommendation) r
        { v with case := v.case.recommended recommendation }
  | reviewed (review : HumanReview) (r : Except PyError Unit) (hcase : review.caseId = c)
      (hnew : ∀ stored ∈ v.case.reviews, ¬env.backend.duplicates stored review) :
      ViewStep env c v (.saveReview review) r { v with case := v.case.reviewed review }
  | status (status : CaseStatus) (r : Except PyError Unit) :
      ViewStep env c v (.setStatus c status) r { v with case := { v.case with status } }
  | put (checkpoint : Checkpoint) (r : Except PyError Unit) :
      ViewStep env c v (.putCheckpoint c checkpoint) r { v with saved := some checkpoint }
  | supplied (actorId : String) (payload : AuditPayload) (r : Except PyError Unit) :
      ViewStep env c v (.audit "case_information_supplied" actorId c payload) r
        { v with supplied := v.supplied ++ payload.evidenceIds }

/-- A call that does not alter a case leaves its view as it is. -/
theorem ViewStep.eq_of_not_alters {env : EngineEnvironment} {c : UUID} {v v' : CaseView}
    {call : EngineCall} {r : Except PyError call.Reply} (h : ViewStep env c v call r v')
    (hcall : ¬call.Alters c) : v' = v := by
  cases h with
  | kept => rfl
  | recommended | status | put => exact absurd rfl hcall
  | reviewed review r hcase => exact absurd hcase hcall
  | supplied => exact absurd ⟨rfl, rfl⟩ hcall

/-- A quiet call alters no case. -/
theorem EngineCall.Quiet.not_alters {c : UUID} {call : EngineCall} (h : call.Quiet) :
    ¬call.Alters c := by
  intro halters
  cases call with
  | audit => exact h halters.1
  | createCase | getCase | deleteCase | saveRecommendation | saveReview | setStatus
    | loadCheckpoint | putCheckpoint | updateState | deleteThread => exact h
  | getAlert | getCustomer | getKyc | getTransactions | trajectoryHook | stageHook | recommend
    | uuid4 | toolExecutions | getState => exact halters

/-- A report alters no case. -/
theorem EngineCall.Reporting.not_alters {c : UUID} {call : EngineCall} (h : call.Reporting) :
    ¬call.Alters c := by
  intro halters
  cases call with
  | audit => exact h halters.1
  | trajectoryHook => exact halters
  | createCase | getCase | deleteCase | saveRecommendation | saveReview | setStatus
    | loadCheckpoint | putCheckpoint | updateState | deleteThread | getAlert | getCustomer
    | getKyc | getTransactions | stageHook | recommend | uuid4 | toolExecutions | getState =>
    exact h

/-- A status that has been set is seen. -/
theorem ViewStep.status_ok {env : EngineEnvironment} {c : UUID} {v v' : CaseView} {status : CaseStatus}
    {u : Unit} (h : ViewStep env c v (.setStatus c status) (.ok u) v') :
    v' = { v with case := { v.case with status } } := by
  cases h with
  | kept _ _ halters =>
    obtain ⟨e, he⟩ := halters rfl
    cases he
  | status => rfl

/-- A recommendation that has been saved is seen with its version. -/
theorem ViewStep.recommended_ok {env : EngineEnvironment} {c : UUID} {v v' : CaseView}
    {recommendation : InvestigationRecommendation} {version : ℕ}
    (h : ViewStep env c v (.saveRecommendation c recommendation) (.ok version) v') :
    v' = { v with case := v.case.recommended recommendation } ∧
      version = v.case.recommendationVersion + 1 := by
  cases h with
  | kept _ _ halters =>
    obtain ⟨e, he⟩ := halters rfl
    cases he
  | recommended recommendation _ hr => exact ⟨rfl, hr version rfl⟩

/-- A checkpoint that has been put is on the thread. -/
theorem ViewStep.put_ok {env : EngineEnvironment} {c : UUID} {v v' : CaseView}
    {checkpoint : Checkpoint} {u : Unit}
    (h : ViewStep env c v (.putCheckpoint c checkpoint) (.ok u) v') :
    v' = { v with saved := some checkpoint } := by
  cases h with
  | kept _ _ halters =>
    obtain ⟨e, he⟩ := halters rfl
    cases he
  | put => rfl

section Views

variable {env : EngineEnvironment} {w : EngineWorld} {draws : EngineDraws} {c : UUID}
  {v v' : CaseView}

/-- A view is of a stored case. -/
theorem view_eq_some (h : w.view c = some v) :
    w.store.cases.get? c = some v.case ∧ v.saved = w.store.threads.get? c ∧
      v.supplied = w.supplied c := by
  obtain ⟨case, hcase, rfl⟩ := Option.map_eq_some_iff.mp h
  exact ⟨hcase, rfl, rfl⟩

/-- A stored case is seen with its thread and with what has been announced for it. -/
theorem exists_view {case : CaseData} (h : w.store.cases.get? c = some case) :
    ∃ v, w.view c = some v ∧ v.case = case := by
  rw [EngineWorld.view, h]
  exact ⟨_, rfl, rfl⟩

/-- An audit event announces what its payload holds, for its case only. -/
theorem supplied_audit (eventType actorId : String) (k : UUID) (payload : AuditPayload) :
    (w.audit env eventType actorId k payload).supplied c =
      w.supplied c ++ if eventType = "case_information_supplied" ∧ k = c then payload.evidenceIds
        else [] := by
  unfold EngineWorld.supplied EngineWorld.audit
  rw [List.filterMap_append]
  congr 1
  by_cases h : eventType = "case_information_supplied" ∧ k = c
  · cases payload <;> simp [AuditEvent.supplies, AuditPayload.evidenceIds, h]
  · cases payload <;> simp [AuditEvent.supplies, h]

/-- What is announced for a case after a call that does not fail from outside. -/
theorem supplied_effect (env : EngineEnvironment) (w : EngineWorld) (draws : EngineDraws) (c : UUID)
    (call : EngineCall) :
    (∃ actorId payload, call = .audit "case_information_supplied" actorId c payload ∧
        (w.effect env draws call).2.supplied c = w.supplied c ++ payload.evidenceIds) ∨
      (∀ eventType actorId k payload, call = .audit eventType actorId k payload →
          ¬call.Alters c) ∧
        (w.effect env draws call).2.supplied c = w.supplied c := by
  cases call with
  | audit eventType actorId k payload =>
    change _ ∨ _ ∧ (w.audit env eventType actorId k payload).supplied c = _
    by_cases h : eventType = "case_information_supplied" ∧ k = c
    · obtain ⟨rfl, rfl⟩ := h
      refine .inl ⟨actorId, payload, rfl, ?_⟩
      change (w.audit env _ actorId k payload).supplied k = _
      rw [supplied_audit, if_pos ⟨rfl, rfl⟩]
    · refine .inr ⟨fun _ _ _ _ _ => h, ?_⟩
      rw [supplied_audit, if_neg h, List.append_nil]
  | createCase | getCase | deleteCase | getAlert | getCustomer | getKyc | getTransactions
    | saveRecommendation | saveReview | setStatus | trajectoryHook | stageHook | recommend | uuid4
    | toolExecutions | loadCheckpoint | putCheckpoint | getState | updateState | deleteThread =>
    exact .inr ⟨fun _ _ _ _ h => (by cases h), rfl⟩

/-- What is announced for a case after a call. -/
theorem supplied_perform (env : EngineEnvironment) (w : EngineWorld) (draws : EngineDraws) (c : UUID)
    (call : EngineCall) :
    (∃ actorId payload, call = .audit "case_information_supplied" actorId c payload ∧
        (w.perform env draws call).2.supplied c = w.supplied c ++ payload.evidenceIds) ∨
      (∀ eventType actorId k payload, call = .audit eventType actorId k payload → call.Alters c →
          ∃ e, (w.perform env draws call).1 = .error e) ∧
        (w.perform env draws call).2.supplied c = w.supplied c := by
  have heffect : (∃ actorId payload, call = .audit "case_information_supplied" actorId c payload ∧
      (w.effect env draws call).2.supplied c = w.supplied c ++ payload.evidenceIds) ∨
    (∀ eventType actorId k payload, call = .audit eventType actorId k payload → call.Alters c →
        ∃ e, (w.perform env draws call).1 = .error e) ∧
      (w.effect env draws call).2.supplied c = w.supplied c := by
    rcases supplied_effect env w draws c call with h | ⟨hnone, h⟩
    · exact .inl h
    · exact .inr ⟨fun eventType actorId k payload heq halters =>
        absurd halters (hnone eventType actorId k payload heq), h⟩
  rcases engine_perform_cases env w draws call with heq | ⟨_, e, heq | heq⟩
  · rw [heq] at heffect ⊢
    exact heffect
  · rw [heq]
    exact .inr ⟨fun _ _ _ _ _ _ => ⟨e, rfl⟩, rfl⟩
  · rw [heq] at heffect ⊢
    exact heffect

/-- The view of a case that was stored before a call and is stored after it, when no audit event
announces evidence for it. -/
theorem Writes.viewStep {s s' : Store} {call : EngineCall} {r : Except PyError call.Reply}
    {case' : CaseData} (hw : Writes env s call r s') (supplied : List String)
    (hrun : call.Alters c → call.FromRun)
    (hdrawn : c < s.nextUuid) (hcase' : s'.cases.get? c = some case')
    (haudit : ∀ eventType actorId k payload, call = .audit eventType actorId k payload →
      call.Alters c → ∃ e, r = .error e) :
    ∃ case, s.cases.get? c = some case ∧
      ViewStep env c ⟨case, s.threads.get? c, supplied⟩ call r
        ⟨case', s'.threads.get? c, supplied⟩ := by
  cases hw with
  | unchanged call r haside =>
    refine ⟨case', hcase', .kept _ _ fun halters => ?_⟩
    cases r with
    | error e => exact ⟨e, rfl⟩
    | ok reply =>
      have hcall := haside reply rfl
      cases call with
      | audit eventType actorId k payload => exact haudit _ _ _ _ rfl halters
      | createCase | getCase | deleteCase | saveRecommendation | saveReview | setStatus
        | loadCheckpoint | putCheckpoint | updateState | deleteThread => cases hcall
      | getAlert | getCustomer | getKyc | getTransactions | trajectoryHook | stageHook | recommend
        | uuid4 | toolExecutions | getState => cases halters
  | got | loaded | located => exact ⟨case', hcase', .kept _ _ fun halters => (by cases halters)⟩
  | created =>
    change (s.cases.set s.nextUuid _).get? c = some case' at hcase'
    rw [Dict.get?_set_ne _ (Nat.ne_of_gt hdrawn)] at hcase'
    exact ⟨case', hcase', .kept _ _ fun halters => (by cases halters)⟩
  | deleted k =>
    change (s.cases.erase k).get? c = some case' at hcase'
    rw [Dict.get?_erase] at hcase'
    split at hcase'
    · cases hcase'
    · exact ⟨case', hcase', .kept _ _ fun halters => (by cases halters)⟩
  | recommended k recommendation stored r hstored hr =>
    change (s.cases.set k _).get? c = some case' at hcase'
    rw [Dict.get?_set] at hcase'
    split at hcase'
    · rename_i hk
      subst hk
      cases hcase'
      exact ⟨stored, hstored, .recommended recommendation r hr⟩
    · rename_i hk
      exact ⟨case', hcase', .kept _ _ fun halters => absurd halters hk⟩
  | reviewed review stored r hstored hid hnew =>
    change (s.cases.set review.caseId _).get? c = some case' at hcase'
    rw [Dict.get?_set] at hcase'
    split at hcase'
    · rename_i hk
      subst hk
      cases hcase'
      exact ⟨stored, hstored, .reviewed review r rfl hnew⟩
    · rename_i hk
      exact ⟨case', hcase', .kept _ _ fun halters => absurd halters hk⟩
  | status k status stored r hstored =>
    change (s.cases.set k _).get? c = some case' at hcase'
    rw [Dict.get?_set] at hcase'
    split at hcase'
    · rename_i hk
      subst hk
      cases hcase'
      exact ⟨stored, hstored, .status status r⟩
    · rename_i hk
      exact ⟨case', hcase', .kept _ _ fun halters => absurd halters hk⟩
  | put k checkpoint r =>
    refine ⟨case', hcase', ?_⟩
    change ViewStep _ _ _ _ _ ⟨case', (s.threads.set k checkpoint).get? c, supplied⟩
    rw [Dict.get?_set]
    split
    · rename_i hk
      subst hk
      exact .put checkpoint r
    · rename_i hk
      exact .kept _ _ fun halters => absurd halters hk
  | updated k =>
    refine ⟨case', hcase', ?_⟩
    change ViewStep _ _ _ _ _ ⟨case', (s.threads.set k _).get? c, supplied⟩
    rw [Dict.get?_set_ne _ hrun]
    exact .kept _ _ fun halters => (hrun halters).elim
  | forgotten k =>
    refine ⟨case', hcase', ?_⟩
    change ViewStep _ _ _ _ _ ⟨case', (s.threads.erase k).get? c, supplied⟩
    rw [Dict.get?_erase_ne _ hrun]
    exact .kept _ _ fun halters => (hrun halters).elim

/-- The view of a case that was stored before a call and is stored after it. -/
theorem view_perform (call : EngineCall) (hrun : call.Alters c → call.FromRun)
    (hdrawn : c < w.store.nextUuid) (hview : (w.perform env draws call).2.view c = some v') :
    ∃ v, w.view c = some v ∧ ViewStep env c v call (w.perform env draws call).1 v' := by
  obtain ⟨hcase', hsaved', hsupplied'⟩ := view_eq_some hview
  have hw := perform_writes env w draws call
  rcases supplied_perform env w draws c call with
    ⟨actorId, payload, rfl, hsupplied⟩ | ⟨haudit, hsupplied⟩
  · have hstore := hw.eq_of_aside trivial
    rw [hstore] at hcase' hsaved'
    refine ⟨⟨v'.case, w.store.threads.get? c, w.supplied c⟩, ?_, ?_⟩
    · rw [EngineWorld.view, hcase']
      rfl
    · have hv' : v' = ⟨v'.case, w.store.threads.get? c, w.supplied c ++ payload.evidenceIds⟩ := by
        rw [← hsaved', ← hsupplied, ← hsupplied']
      rw [hv']
      exact .supplied actorId payload _
  · obtain ⟨case, hcase, hstep⟩ := hw.viewStep (w.supplied c) hrun hdrawn hcase' haudit
    refine ⟨⟨case, w.store.threads.get? c, w.supplied c⟩, ?_, ?_⟩
    · rw [EngineWorld.view, hcase]
      rfl
    · have hv' : v' = ⟨v'.case, v'.saved, w.supplied c⟩ := by
        rw [← hsupplied, ← hsupplied']
      rw [hv', hsaved']
      exact hstep

end Views

end Amlguard
