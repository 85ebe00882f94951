import Amlguard.Investigations.Conduct

/-!
# What the calls write

One inversion lemma for the calls of the engine: what a call may leave in the store with the
reply that it gives, whether it fails from outside or not. Every invariant of the engine is then
proved by cases on what has been written.

`Filed` is the invariant that all others rest on: cases and threads are kept under the ID of the
case that they belong to, and every ID in use has been drawn.
-/

namespace Amlguard

open Awaited

/-- A call that neither reads nor writes a case or the checkpoint to run from. -/
def EngineCall.Aside : EngineCall → Prop
  | .createCase _ _ _ | .getCase _ | .deleteCase _ | .saveRecommendation _ _ | .saveReview _
  | .setStatus _ _ | .loadCheckpoint _ _ | .putCheckpoint _ _ | .updateState _ _ _
  | .deleteThread _ => False
  | _ => True

/-- The case with a new recommendation. -/
def CaseData.recommended (case : CaseData) (recommendation : InvestigationRecommendation) :
    CaseData :=
  { case with
    recommendation := some recommendation
    recommendationVersion := case.recommendationVersion + 1 }

/-- The case with one more review. -/
def CaseData.reviewed (case : CaseData) (review : HumanReview) : CaseData :=
  { case with reviews := case.reviews ++ [review] }

/-- What a call may leave in the store with its reply. A call that writes may raise after it has
done so, but it returns only when it has. -/
inductive Writes (env : EngineEnvironment) (s : Store) :
    (c : EngineCall) → Except PyError c.Reply → Store → Prop where
  | unchanged (c : EngineCall) (r : Except PyError c.Reply) (h : ∀ reply, r = .ok reply → c.Aside) :
      Writes env s c r s
  | got (c : UUID) (stored : CaseData) (h : s.cases.get? c = some stored) :
      Writes env s (.getCase c) (.ok (env.backend.served stored)) s
  | loaded (c : UUID) (input : GraphInput) :
      Writes env s (.loadCheckpoint c input) (.ok (s.threads.get? c)) s
  | located (alertId tenantId investigatorId : String) (c : UUID) (case : CaseData)
      (h : s.cases.get? c = some case) :
      Writes env s (.createCase alertId tenantId investigatorId) (.ok (env.backend.served case, false)) s
  | created (alertId tenantId investigatorId : String) (alert : SyntheticAlert)
      (r : Except PyError (CaseData × Bool))
      (h : ∀ reply, r = .ok reply →
        reply = (s.newCase env.backend alert tenantId investigatorId, true)) :
      Writes env s (.createCase alertId tenantId investigatorId) r
        (s.insertCase (s.newCase env.backend alert tenantId investigatorId))
  | deleted (c : UUID) (r : Except PyError Unit) :
      Writes env s (.deleteCase c) r { s with cases := s.cases.erase c }
  | recommended (c : UUID) (recommendation : InvestigationRecommendation) (case : CaseData)
      (r : Except PyError ℕ) (h : s.cases.get? c = some case)
      (hr : ∀ version, r = .ok version → version = case.recommendationVersion + 1) :
      Writes env s (.saveRecommendation c recommendation) r
        { s with cases := s.cases.set c (case.recommended recommendation) }
  | reviewed (review : HumanReview) (case : CaseData) (r : Except PyError Unit)
      (h : s.cases.get? review.caseId = some case)
      (hid : ¬s.reviewIdTaken env.backend review)
      (hnew : ∀ stored ∈ case.reviews, ¬env.backend.duplicates stored review) :
      Writes env s (.saveReview review) r
        { s with cases := s.cases.set review.caseId (case.reviewed review) }
  | status (c : UUID) (status : CaseStatus) (case : CaseData) (r : Except PyError Unit)
      (h : s.cases.get? c = some case) :
      Writes env s (.setStatus c status) r { s with cases := s.cases.set c { case with status } }
  | put (c : UUID) (checkpoint : Checkpoint) (r : Except PyError Unit) :
      Writes env s (.putCheckpoint c checkpoint) r
        { s with threads := s.threads.set c checkpoint }
  | updated (c : UUID) (securityEvents hardBlocks : List String) (r : Except PyError Unit) :
      Writes env s (.updateState c securityEvents hardBlocks) r
        (s.updateState c securityEvents hardBlocks)
  | forgotten (c : UUID) (r : Except PyError Unit) :
      Writes env s (.deleteThread c) r { s with threads := s.threads.erase c }

namespace Writes

variable {env : EngineEnvironment} {s s' : Store} {c : EngineCall} {r : Except PyError c.Reply}

/-- A call that leaves the cases and the threads aside leaves the store as it is. -/
theorem eq_of_aside (h : Writes env s c r s') (hc : c.Aside) : s' = s := by
  cases h with
  | unchanged | got | loaded | located => rfl
  | created | deleted | recommended | reviewed | status | put | updated | forgotten => cases hc

/-- A call that has raised from outside may have written what it would have. -/
theorem raise (h : Writes env s c r s') (e : PyError) : Writes env s c (.error e) s' := by
  have hnone : ∀ (α : Type) (reply : α) (P : Prop), (.error e : Except PyError α) = .ok reply → P :=
    fun _ _ _ h => by cases h
  cases h with
  | unchanged => exact .unchanged _ _ fun reply => hnone _ reply _
  | got | loaded | located => exact .unchanged _ _ fun reply => hnone _ reply _
  | created alertId tenantId investigatorId alert =>
    exact .created _ _ _ alert _ fun reply => hnone _ reply _
  | deleted => exact .deleted _ _
  | recommended c recommendation case r h =>
    exact .recommended c recommendation case _ h fun version => hnone _ version _
  | reviewed review case r h hid hnew => exact .reviewed review case _ h hid hnew
  | status c status case r h => exact .status c status case _ h
  | put => exact .put _ _ _
  | updated => exact .updated _ _ _ _
  | forgotten => exact .forgotten _ _

end Writes

section Effects

variable {env : EngineEnvironment} {s : Store} {w : EngineWorld} {draws : EngineDraws}

/-- A change of a stored case either finds no case, or raises, or is stored. -/
theorem updateCase_cases {α : Type} (c : UUID) (missing : PyError)
    (change : CaseData → Except PyError (α × CaseData)) :
    (∃ e, s.updateCase c missing change = (.error e, s)) ∨
      ∃ case a case', s.cases.get? c = some case ∧ change case = .ok (a, case') ∧
        s.updateCase c missing change = (.ok a, { s with cases := s.cases.set c case' }) := by
  unfold Store.updateCase
  cases hcase : s.cases.get? c with
  | none => exact .inl ⟨missing, rfl⟩
  | some case =>
    cases hchange : change case with
    | error e => exact .inl ⟨e, by simp [hchange]⟩
    | ok changed => exact .inr ⟨case, changed.1, changed.2, rfl, hchange, by simp [hchange]⟩

/-- What `save_recommendation` writes. -/
theorem saveRecommendation_writes (c : UUID) (recommendation : InvestigationRecommendation) :
    Writes env s (.saveRecommendation c recommendation)
      (s.saveRecommendation env.backend c recommendation).1
      (s.saveRecommendation env.backend c recommendation).2 := by
  unfold Store.saveRecommendation
  rcases updateCase_cases (s := s) c (env.backend.noParent c) _ with
    ⟨e, heq⟩ | ⟨case, version, case', hcase, hchange, heq⟩
  · rw [heq]
    exact .unchanged _ _ fun _ h => by cases h
  · rw [heq]
    cases hchange
    exact .recommended c recommendation case _ hcase fun _ h => by cases h; rfl

/-- What `save_review` writes. -/
theorem saveReview_writes (review : HumanReview) :
    Writes env s (.saveReview review) (s.saveReview env.backend review).1
      (s.saveReview env.backend review).2 := by
  unfold Store.saveReview
  rcases updateCase_cases (s := s) review.caseId (env.backend.noParent review.caseId) _ with
    ⟨e, heq⟩ | ⟨case, u, case', hcase, hchange, heq⟩
  · rw [heq]
    exact .unchanged _ _ fun _ h => by cases h
  · rw [heq]
    obtain ⟨_, hid, hrest⟩ := bind_eq_ok.mp hchange
    obtain ⟨_, hnew, hpure⟩ := bind_eq_ok.mp hrest
    cases hpure
    apply Writes.reviewed review case _ hcase (raiseIf_eq_ok.mp hid)
    intro stored hstored hduplicate
    exact raiseIf_eq_ok.mp hnew ⟨stored, hstored, hduplicate⟩

/-- What `set_status` writes. -/
theorem setStatus_writes (c : UUID) (status : CaseStatus) :
    Writes env s (.setStatus c status) (s.setStatus env.backend c status).1
      (s.setStatus env.backend c status).2 := by
  unfold Store.setStatus
  rcases updateCase_cases (s := s) c (env.backend.noCase c) _ with
    ⟨e, heq⟩ | ⟨case, u, case', hcase, hchange, heq⟩
  · rw [heq]
    exact .unchanged _ _ fun _ h => by cases h
  · rw [heq]
    cases hchange
    exact .status c status case _ hcase

/-- What `delete_case` writes. -/
theorem deleteCase_writes (c : UUID) :
    Writes env s (.deleteCase c) (s.deleteCase c).1 (s.deleteCase c).2 := by
  unfold Store.deleteCase
  split
  · exact .unchanged _ _ fun _ h => by cases h
  · exact .deleted c _

/-- The case that is found for an alert is stored. -/
theorem existingCase_stored {alertId tenantId investigatorId : String} {case : CaseData}
    (h : s.existingCase alertId tenantId investigatorId = .ok (some case)) :
    ∃ c, s.cases.get? c = some case := by
  obtain ⟨_, _, hpure⟩ := bind_eq_ok.mp h
  have hfind := Except.ok.inj hpure
  exact s.cases.exists_get?_of_mem_values (List.mem_of_find?_eq_some hfind)

/-- A case that is located is stored. -/
theorem resolveCase_stored {bank : SyntheticBank} {alertId tenantId investigatorId : String}
    {case : CaseData} (h : s.resolveCase env bank alertId tenantId investigatorId = .ok (.inl case)) :
    ∃ c, s.cases.get? c = some case := by
  unfold Store.resolveCase at h
  cases hbackend : env.backend with
  | inMemory =>
    rw [hbackend] at h
    obtain ⟨found, hfound, hrest⟩ := bind_eq_ok.mp h
    cases found with
    | none =>
      obtain ⟨alert, _, hpure⟩ := bind_eq_ok.mp hrest
      cases hpure
    | some stored =>
      cases hrest
      exact existingCase_stored hfound
  | postgres =>
    rw [hbackend] at h
    obtain ⟨alert, _, hrest⟩ := bind_eq_ok.mp h
    obtain ⟨found, hfound, hpure⟩ := bind_eq_ok.mp hrest
    cases found with
    | none => cases hpure
    | some stored =>
      cases hpure
      exact existingCase_stored hfound

/-- What `create_case` writes. -/
theorem createCase_writes (bank : SyntheticBank) (alertId tenantId investigatorId : String) :
    Writes env s (.createCase alertId tenantId investigatorId)
      (s.createCase env bank alertId tenantId investigatorId).1
      (s.createCase env bank alertId tenantId investigatorId).2 := by
  unfold Store.createCase
  split
  · exact .unchanged _ _ fun _ h => by cases h
  · rename_i case hcase
    obtain ⟨c, hstored⟩ := resolveCase_stored hcase
    exact .located _ _ _ c case hstored
  · rename_i alert _
    exact .created _ _ _ alert _ fun _ h => by cases h; rfl

/-- What a call writes when it does not fail from outside. -/
theorem effect_writes (c : EngineCall) :
    Writes env w.store c (w.effect env draws c).1 (w.effect env draws c).2.store := by
  cases c with
  | createCase alertId tenantId investigatorId =>
    exact createCase_writes w.bank alertId tenantId investigatorId
  | deleteCase c => exact deleteCase_writes c
  | saveRecommendation c recommendation => exact saveRecommendation_writes c recommendation
  | saveReview review => exact saveReview_writes review
  | setStatus c status => exact setStatus_writes c status
  | putCheckpoint c checkpoint => exact .put c checkpoint _
  | updateState c securityEvents hardBlocks => exact .updated c securityEvents hardBlocks _
  | deleteThread c => exact .forgotten c _
  | getCase c =>
    cases hstored : w.store.cases.get? c with
    | none =>
      simp only [EngineWorld.effect, hstored]
      exact .unchanged _ _ fun _ h => by cases h
    | some stored =>
      simp only [EngineWorld.effect, hstored]
      exact .got c stored hstored
  | loadCheckpoint c input => exact .loaded c input
  | getAlert | getCustomer | getKyc | getTransactions | audit | trajectoryHook | stageHook
    | recommend | uuid4 | toolExecutions | getState =>
    exact .unchanged _ _ fun _ _ => trivial

/-- How a call is performed: as by its effect, or with an exception before it or after it. -/
theorem engine_perform_cases (env : EngineEnvironment) (w : EngineWorld) (draws : EngineDraws)
    (c : EngineCall) :
    w.perform env draws c = w.effect env draws c ∨
      c.MayFail = true ∧ ∃ e, w.perform env draws c = (.error e, w) ∨
        w.perform env draws c = (.error e, (w.effect env draws c).2) := by
  unfold EngineWorld.perform
  split
  · rename_i e hfail _
    exact .inr ⟨hfail, e, .inl rfl⟩
  · rename_i e hfail _
    exact .inr ⟨hfail, e, .inr rfl⟩
  · exact .inl rfl

/-- What a call writes. -/
theorem perform_writes (env : EngineEnvironment) (w : EngineWorld) (draws : EngineDraws)
    (c : EngineCall) :
    Writes env w.store c (w.perform env draws c).1 (w.perform env draws c).2.store := by
  rcases engine_perform_cases env w draws c with
    heq | ⟨_, e, heq | heq⟩
  · rw [heq]
    exact effect_writes c
  · rw [heq]
    exact .unchanged _ _ fun _ h => by cases h
  · rw [heq]
    exact (effect_writes c).raise e

/-- A call that returns has had its effect. -/
theorem perform_ok {c : EngineCall} {reply : c.Reply} (h : (w.perform env draws c).1 = .ok reply) :
    w.perform env draws c = w.effect env draws c := by
  rcases engine_perform_cases env w draws c with heq | ⟨_, e, heq | heq⟩
  · exact heq
  · rw [heq] at h
    cases h
  · rw [heq] at h
    cases h

/-- A call that is not made to fail has its effect. -/
theorem perform_of_not_raises {c : EngineCall} (h : ¬draws.failure.Raises) :
    w.perform env draws c = w.effect env draws c := by
  unfold EngineWorld.perform
  split
  · rename_i hfailure
    exact absurd (show draws.failure.Raises by rw [hfailure]; trivial) h
  · rename_i hfailure
    exact absurd (show draws.failure.Raises by rw [hfailure]; trivial) h
  · rfl

/-- A case that is read is stored. -/
theorem Writes.getCase_ok {s' : Store} {c : UUID} {case : CaseData}
    (h : Writes env s (.getCase c) (.ok case) s') :
    ∃ stored, s.cases.get? c = some stored ∧ case = env.backend.served stored := by
  cases h with
  | unchanged _ _ h => exact (h case rfl).elim
  | got _ stored h => exact ⟨stored, h, rfl⟩

/-- Reading a case leaves the store as it is. -/
theorem Writes.eq_of_getCase {s' : Store} {c : UUID} {r : Except PyError CaseData}
    (h : Writes env s (.getCase c) r s') : s' = s := by
  cases h <;> rfl

/-- A checkpoint that is loaded is that of the thread. -/
theorem Writes.loadCheckpoint_ok {s' : Store} {c : UUID} {input : GraphInput}
    {saved : Option Checkpoint} (h : Writes env s (.loadCheckpoint c input) (.ok saved) s') :
    s.threads.get? c = saved := by
  cases h with
  | unchanged _ _ h => exact (h saved rfl).elim
  | loaded => rfl

end Effects

/-- Where a case that is stored after a call comes from. -/
inductive CaseChange (env : EngineEnvironment) (s : Store) :
    EngineCall → UUID → CaseData → Prop where
  | kept (call : EngineCall) (c : UUID) (case : CaseData) (h : s.cases.get? c = some case) :
      CaseChange env s call c case
  | created (alertId tenantId investigatorId : String) (alert : SyntheticAlert) :
      CaseChange env s (.createCase alertId tenantId investigatorId) s.nextUuid
        (s.newCase env.backend alert tenantId investigatorId)
  | recommended (c : UUID) (recommendation : InvestigationRecommendation) (case : CaseData)
      (h : s.cases.get? c = some case) :
      CaseChange env s (.saveRecommendation c recommendation) c (case.recommended recommendation)
  | reviewed (review : HumanReview) (case : CaseData)
      (h : s.cases.get? review.caseId = some case)
      (hid : ¬s.reviewIdTaken env.backend review)
      (hnew : ∀ stored ∈ case.reviews, ¬env.backend.duplicates stored review) :
      CaseChange env s (.saveReview review) review.caseId (case.reviewed review)
  | status (c : UUID) (status : CaseStatus) (case : CaseData) (h : s.cases.get? c = some case) :
      CaseChange env s (.setStatus c status) c { case with status }

/-- Where a checkpoint that a thread keeps after a call comes from. -/
inductive ThreadChange (s : Store) : EngineCall → UUID → Checkpoint → Prop where
  | kept (call : EngineCall) (c : UUID) (checkpoint : Checkpoint)
      (h : s.threads.get? c = some checkpoint) : ThreadChange s call c checkpoint
  | put (c : UUID) (checkpoint : Checkpoint) :
      ThreadChange s (.putCheckpoint c checkpoint) c checkpoint
  | updated (c : UUID) (securityEvents hardBlocks : List String) (saved : Checkpoint)
      (hsaved : saved = (s.threads.get? c).getD ⟨{}, none, none⟩) (values : InvestigationState)
      (hvalues : values =
        { saved.values with securityEvents, hardBlocks, status := .hardBlocked }) :
      ThreadChange s (.updateState c securityEvents hardBlocks) c
        ⟨values, saved.last, routeAfter saved.last values⟩

/-- The state of a thread that a security event is written to. -/
theorem getD_values (saved : Option Checkpoint) :
    (saved.getD ⟨{}, none, none⟩).values = savedValues saved := by
  cases saved <;> rfl

/-- No review follows a blocked state. -/
theorem routeAfter_hardBlocked {last : Option Stage} {values : InvestigationState}
    (h : values.status = .hardBlocked) : routeAfter last values ≠ some .humanReview := by
  intro hroute
  cases last with
  | none => cases hroute
  | some step => exact (route_eq_humanReview hroute).2.1 h

namespace Writes

variable {env : EngineEnvironment} {s s' : Store} {call : EngineCall}
  {r : Except PyError call.Reply} {c : UUID}

/-- A case is as it was or has been changed by the call. -/
theorem caseChange (hw : Writes env s call r s') {case : CaseData}
    (h : s'.cases.get? c = some case) : CaseChange env s call c case := by
  cases hw with
  | unchanged | got | loaded | located | put | updated | forgotten => exact .kept _ _ _ h
  | created alertId tenantId investigatorId alert =>
    change (s.cases.set s.nextUuid _).get? c = some case at h
    rw [Dict.get?_set] at h
    split at h
    · rename_i hc
      subst hc
      cases h
      exact .created _ _ _ alert
    · exact .kept _ _ _ h
  | deleted k =>
    change (s.cases.erase k).get? c = some case at h
    rw [Dict.get?_erase] at h
    split at h
    · cases h
    · exact .kept _ _ _ h
  | recommended k recommendation stored r hstored =>
    change (s.cases.set k _).get? c = some case at h
    rw [Dict.get?_set] at h
    split at h
    · rename_i hc
      subst hc
      cases h
      exact .recommended _ _ _ hstored
    · exact .kept _ _ _ h
  | reviewed review stored r hstored hid hnew =>
    change (s.cases.set review.caseId _).get? c = some case at h
    rw [Dict.get?_set] at h
    split at h
    · rename_i hc
      subst hc
      cases h
      exact .reviewed _ _ hstored hid hnew
    · exact .kept _ _ _ h
  | status k status stored r hstored =>
    change (s.cases.set k _).get? c = some case at h
    rw [Dict.get?_set] at h
    split at h
    · rename_i hc
      subst hc
      cases h
      exact .status _ _ _ hstored
    · exact .kept _ _ _ h

/-- A checkpoint is as it was or has been written by the call. -/
theorem threadChange (hw : Writes env s call r s') {checkpoint : Checkpoint}
    (h : s'.threads.get? c = some checkpoint) : ThreadChange s call c checkpoint := by
  cases hw with
  | unchanged | got | loaded | located | created | deleted | recommended | reviewed | status => exact .kept _ _ _ h
  | put k saved =>
    change (s.threads.set k saved).get? c = some checkpoint at h
    rw [Dict.get?_set] at h
    split at h
    · rename_i hc
      subst hc
      cases h
      exact .put _ _
    · exact .kept _ _ _ h
  | updated k securityEvents hardBlocks =>
    change (s.threads.set k _).get? c = some checkpoint at h
    rw [Dict.get?_set] at h
    split at h
    · rename_i hc
      subst hc
      cases h
      exact .updated _ _ _ _ rfl _ rfl
    · exact .kept _ _ _ h
  | forgotten k =>
    change (s.threads.erase k).get? c = some checkpoint at h
    rw [Dict.get?_erase] at h
    split at h
    · cases h
    · exact .kept _ _ _ h

/-- A call writes nothing to the history. -/
theorem history (hw : Writes env s call r s') : s'.history = s.history := by
  cases hw <;> rfl

/-- UUIDs are only drawn. -/
theorem nextUuid_le (hw : Writes env s call r s') : s.nextUuid ≤ s'.nextUuid := by
  cases hw with
  | created => exact Nat.le_add_right _ 2
  | unchanged | got | loaded | located | deleted | recommended | reviewed | status | put | updated | forgotten =>
    exact Nat.le_refl _

end Writes

/-- Every case and every thread is kept under the ID of its case, which has been drawn. -/
structure Filed (s : Store) : Prop where
  keyed : ∀ c case, s.cases.get? c = some case → case.caseId = c ∧ c < s.nextUuid
  bound : ∀ c checkpoint, s.threads.get? c = some checkpoint → BoundTo c checkpoint.values

/-- Nothing is stored yet. -/
theorem filed_empty : Filed {} := ⟨fun _ _ h => (by cases h), fun _ _ h => (by cases h)⟩

/-- A checkpoint is written for the case that its state names. -/
theorem Edge.boundTo {env : EngineEnvironment} {op : EngineOp} {m m' : Phase} {call : EngineCall}
    {r : Except PyError call.Reply} (h : Edge env op m call r m') {c : UUID}
    {checkpoint : Checkpoint} (hcall : call = .putCheckpoint c checkpoint) :
    BoundTo c checkpoint.values := by
  cases h with
  | outside m ran call r hm hq | waits m call r hm hq | works m c s values call r hm hq
  | reports m c s values call r hm hq | reportFails m c s values call r hm hq =>
    subst hcall
    cases hq
  | entered c values r hb | puts m c s values r hm hb =>
    cases hcall
    exact hb
  | created | located | asked | unknown | deleted | forgotten | revised | revoked | notified
    | notifies | loadFails | loadStart | loadNothing | loadStage | runs | logs | shows | saves
    | saveFails | looks | decides | informs | collects | stores | edits | concludes | givesUp =>
    cases hcall

namespace Filed

variable {env : EngineEnvironment} {s s' : Store} {w : EngineWorld} {draws : EngineDraws}

/-- The state of a thread that has been saved or not. -/
theorem boundTo_savedValues (h : Filed s) (c : UUID) :
    BoundTo c (savedValues (s.threads.get? c)) := by
  cases hsaved : s.threads.get? c with
  | none => exact fun _ hb => by cases hb
  | some checkpoint => exact h.bound c checkpoint hsaved

/-- What a call writes is filed when a checkpoint is written for the case of its state. -/
theorem writes (h : Filed s) {call : EngineCall} {r : Except PyError call.Reply}
    (hw : Writes env s call r s')
    (hput : ∀ c checkpoint, call = .putCheckpoint c checkpoint → BoundTo c checkpoint.values) :
    Filed s' := by
  constructor
  · intro c case hcase
    have hdrawn : ∀ {k : UUID}, k < s.nextUuid → k < s'.nextUuid :=
      fun hk => Nat.lt_of_lt_of_le hk hw.nextUuid_le
    cases hw.caseChange hcase with
    | kept _ _ _ hold => exact ⟨(h.keyed c case hold).1, hdrawn (h.keyed c case hold).2⟩
    | created =>
      refine ⟨rfl, ?_⟩
      cases hw with
      | unchanged | located => exact absurd (h.keyed _ _ hcase).2 (Nat.lt_irrefl _)
      | created => exact Nat.lt_add_of_pos_right (by decide)
    | recommended c recommendation old hold | status c status old hold =>
      exact ⟨(h.keyed c old hold).1, hdrawn (h.keyed c old hold).2⟩
    | reviewed review old hold => exact ⟨(h.keyed _ old hold).1, hdrawn (h.keyed _ old hold).2⟩
  · intro c checkpoint hsaved
    cases hw.threadChange hsaved with
    | kept _ _ _ hold => exact h.bound c checkpoint hold
    | put => exact hput c checkpoint rfl
    | updated _ securityEvents hardBlocks saved hold values hvalues =>
      subst hvalues hold
      have hb := h.boundTo_savedValues c
      rw [← getD_values] at hb
      exact hb

/-- A call along an edge keeps the store filed. -/
theorem edge (h : Filed s) {op : EngineOp} {m m' : Phase} {c : EngineCall}
    {r : Except PyError c.Reply} (hedge : Edge env op m c r m') (hw : Writes env s c r s') :
    Filed s' :=
  h.writes hw fun _ _ hcall => hedge.boundTo hcall

/-- A filed store gives the replies that are expected. -/
theorem expected (h : Filed w.store) (c : EngineCall) :
    expectedReply c (w.perform env draws c).1 := by
  cases c with
  | getCase c =>
    intro case hcase
    obtain ⟨stored, hstored, rfl⟩ := (hcase ▸ perform_writes env w draws (.getCase c)).getCase_ok
    rw [served_caseId]
    exact (h.keyed c stored hstored).1
  | loadCheckpoint c input =>
    intro checkpoint hsaved
    exact h.bound c checkpoint (hsaved ▸ perform_writes env w draws (.loadCheckpoint c input)).loadCheckpoint_ok
  | uuid4 => exact ⟨draws.uuid, rfl⟩
  | toolExecutions => exact ⟨w.executions, rfl⟩
  | createCase | deleteCase | getAlert | getCustomer | getKyc | getTransactions
    | saveRecommendation | saveReview | setStatus | audit | trajectoryHook | stageHook | recommend
    | putCheckpoint | getState | updateState | deleteThread => trivial

end Filed

/-- A mark changes the history of a store only. -/
theorem record_store (n : EngineMark) (w : EngineWorld) :
    (w.record n).store = { w.store with history := (w.record n).store.history } := by
  cases n <;> rfl

@[simp] theorem record_cases (n : EngineMark) (w : EngineWorld) :
    (w.record n).store.cases = w.store.cases := by rw [record_store]

@[simp] theorem record_threads (n : EngineMark) (w : EngineWorld) :
    (w.record n).store.threads = w.store.threads := by rw [record_store]

@[simp] theorem record_nextUuid (n : EngineMark) (w : EngineWorld) :
    (w.record n).store.nextUuid = w.store.nextUuid := by rw [record_store]

/-- The marks up to the next call change no case. -/
theorem rest_cases (env : EngineEnvironment) (prog : Investigation Unit) (w : EngineWorld) :
    ((engineSystem env).rest prog w).2.store.cases = w.store.cases :=
  @System.rest_keeps _ _ _ _ (engineSystem env) (fun w' => w'.store.cases = w.store.cases)
    (fun n w' h => (record_cases n w').trans h) prog w rfl

/-- The marks up to the next call change no thread. -/
theorem rest_threads (env : EngineEnvironment) (prog : Investigation Unit) (w : EngineWorld) :
    ((engineSystem env).rest prog w).2.store.threads = w.store.threads :=
  @System.rest_keeps _ _ _ _ (engineSystem env) (fun w' => w'.store.threads = w.store.threads)
    (fun n w' h => (record_threads n w').trans h) prog w rfl

/-- The marks up to the next call draw no UUID. -/
theorem rest_nextUuid (env : EngineEnvironment) (prog : Investigation Unit) (w : EngineWorld) :
    ((engineSystem env).rest prog w).2.store.nextUuid = w.store.nextUuid :=
  @System.rest_keeps _ _ _ _ (engineSystem env) (fun w' => w'.store.nextUuid = w.store.nextUuid)
    (fun n w' h => (record_nextUuid n w').trans h) prog w rfl

/-- Enrolling an operation changes the history of a store only. -/
theorem enroll_store (op : EngineOp) (w : EngineWorld) :
    (op.enroll w).store = { w.store with history := (op.enroll w).store.history } := by
  cases op <;> rfl

@[simp] theorem enroll_cases (op : EngineOp) (w : EngineWorld) :
    (op.enroll w).store.cases = w.store.cases := by rw [enroll_store]

@[simp] theorem enroll_threads (op : EngineOp) (w : EngineWorld) :
    (op.enroll w).store.threads = w.store.threads := by rw [enroll_store]

@[simp] theorem enroll_nextUuid (op : EngineOp) (w : EngineWorld) :
    (op.enroll w).store.nextUuid = w.store.nextUuid := by rw [enroll_store]

/-- A mark keeps the store filed. -/
theorem Filed.record {w : EngineWorld} (h : Filed w.store) (n : EngineMark) :
    Filed (w.record n).store := by
  rw [record_store]
  exact ⟨h.keyed, h.bound⟩

/-- Enrolling an operation keeps the store filed. -/
theorem Filed.enroll {w : EngineWorld} (h : Filed w.store) (op : EngineOp) :
    Filed (op.enroll w).store := by
  rw [enroll_store]
  exact ⟨h.keyed, h.bound⟩

end Amlguard
