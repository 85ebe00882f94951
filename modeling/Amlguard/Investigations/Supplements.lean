import Amlguard.Investigations.Custody
import Amlguard.Investigations.OutOfTurn

/-!
# Supplied information

`collect_information` announces the evidence item of a submission in the audit log before it saves the
list of evidence with the new item, and it builds that list from the checkpoint that its run has read.
An exception in between loses the item, and so does a second run that has read the same checkpoint.

When a thread is read for a stage only while no run of the case is in flight, and nothing raises
between the announcement and the checkpoint, every item that is announced in one execution of the graph
is in every later checkpoint of it.
-/

namespace Amlguard

open Awaited

/-- The evidence IDs of a checkpoint. -/
def Checkpoint.evidenceIds (checkpoint : Checkpoint) : List String :=
  checkpoint.values.evidence.map (·.evidenceId)

/-- The evidence IDs that have been announced for a case since an earlier state. -/
def announcedSince (w w' : EngineWorld) (c : UUID) : List String :=
  (w'.supplied c).drop (w.supplied c).length

/-- A call that does not begin a new execution of the graph of the case. -/
def EngineCall.Continues (c : UUID) : EngineCall → Prop
  | .loadCheckpoint k (.start _) => k ≠ c
  | _ => True

instance (c : UUID) : (call : EngineCall) → Decidable (call.Continues c)
  | .loadCheckpoint k (.start _) => inferInstanceAs (Decidable (k ≠ c))
  | .loadCheckpoint _ (.resume _) | .createCase .. | .getCase _ | .deleteCase _ | .getAlert _
  | .getCustomer _ | .getKyc _ | .getTransactions _ | .saveRecommendation .. | .saveReview _
  | .setStatus .. | .audit .. | .trajectoryHook .. | .stageHook .. | .recommend _ | .uuid4
  | .toolExecutions | .putCheckpoint .. | .getState _ | .updateState .. | .deleteThread _ =>
    isTrue trivial

/-- Allowed moves by which an execution of the graph of the case goes on. -/
def GoesOn (allowed : EnginePool → Move EngineOp EngineDraws → Prop) (c : UUID) (p : EnginePool) :
    Move EngineOp EngineDraws → Prop
  | .start op => allowed p (.start op)
  | .advance i draws => allowed p (.advance i draws) ∧ ∀ call ∈ p.awaits i, call.Continues c

instance (allowed : EnginePool → Move EngineOp EngineDraws → Prop) [∀ p m, Decidable (allowed p m)]
    (c : UUID) (p : EnginePool) :
    (move : Move EngineOp EngineDraws) → Decidable (GoesOn allowed c p move)
  | .start op => inferInstanceAs (Decidable (allowed p (.start op)))
  | .advance i _ => inferInstanceAs (Decidable (_ ∧ ∀ call ∈ p.awaits i, call.Continues c))

/-- What has been supplied to a stored case since an earlier state `p` of an execution of its graph is
kept in a later state `q`: an item that has been made is announced, every checkpoint that is about to
be saved has what has been announced, and so has every checkpoint from then on when no run of the case
is in flight. -/
structure InformationKept (env : EngineEnvironment)
    (allowed : EnginePool → Move EngineOp EngineDraws → Prop) (c : UUID) (p q : EnginePool) : Prop where
  announces : ∀ i draws actorId fields id version q',
    q.awaits i = some (.audit "case_information_supplied" actorId c
      (.informationSupplied fields id version)) →
    allowed q (.advance i draws) → (engineSystem env).move q (.advance i draws) = some q' →
      id ∈ announcedSince p.world q'.world c
  saves : (q.world.store.cases.get? c).isSome →
    ∀ i checkpoint, q.awaits i = some (.putCheckpoint c checkpoint) →
      ∀ id ∈ announcedSince p.world q.world c, id ∈ checkpoint.evidenceIds
  keeps : (∀ pair ∈ q.world.store.history.running, pair.2 ≠ c) →
    ∀ q', (engineSystem env).Reaches (GoesOn allowed c) q q' →
      (q'.world.store.cases.get? c).isSome → ∀ id ∈ announcedSince p.world q.world c,
        ∃ checkpoint, q'.world.store.threads.get? c = some checkpoint ∧ id ∈ checkpoint.evidenceIds

/-- Policies can be selected for the evidence of a state together with the item of a submission. -/
def Selectable (env : EngineEnvironment) (values : InvestigationState) (submission : Submission) :
    Prop :=
  ∀ b ∈ values.binding, ∀ version ∈ values.recommendationVersion,
    ∀ evidence ∈ (supplementalEvidence env b version submission).toOption,
      (env.selectPolicies (values.evidence ++ [evidence])).isOk

instance (env : EngineEnvironment) (values : InvestigationState) (submission : Submission) :
    Decidable (Selectable env values submission) := by
  unfold Selectable
  infer_instance

/-- A thread on which `collect_information` comes next is resumed only with a submission for which
policies can be selected. -/
def ResumesSelectably (env : EngineEnvironment) (w : EngineWorld) : EngineCall → Prop
  | .loadCheckpoint c (.resume (.information submission)) =>
    ∀ checkpoint ∈ w.store.threads.get? c, checkpoint.next = some .collectInformation →
      Selectable env checkpoint.values submission
  | _ => True

instance (env : EngineEnvironment) (w : EngineWorld) (call : EngineCall) :
    Decidable (ResumesSelectably env w call) := by
  unfold ResumesSelectably
  split <;> infer_instance

/-- A call that `collect_information` makes from the announcement of an item to its checkpoint. -/
def EngineCall.Collects (w : EngineWorld) : EngineCall → Prop
  | .audit eventType _ _ _ => eventType = "case_information_supplied"
  | .setStatus c status => status = .running ∧
    ∃ checkpoint ∈ w.store.threads.get? c, checkpoint.next = some .collectInformation
  | .trajectoryHook _ (.caseInformationSupplied _) => True
  | .trajectoryHook _ (.policiesRetrieved trigger _ _) => trigger.isSome
  | .putCheckpoint _ checkpoint =>
    checkpoint.last = some .collectInformation ∧ checkpoint.values.status = .running
  | _ => False

instance (w : EngineWorld) : (call : EngineCall) → Decidable (call.Collects w)
  | .audit eventType _ _ _ => inferInstanceAs (Decidable (eventType = "case_information_supplied"))
  | .setStatus c status => inferInstanceAs (Decidable (status = .running ∧
      ∃ checkpoint ∈ w.store.threads.get? c, checkpoint.next = some .collectInformation))
  | .trajectoryHook _ (.caseInformationSupplied _) => isTrue trivial
  | .trajectoryHook _ (.policiesRetrieved trigger _ _) =>
    inferInstanceAs (Decidable (trigger.isSome = true))
  | .putCheckpoint _ checkpoint => inferInstanceAs (Decidable
      (checkpoint.last = some .collectInformation ∧ checkpoint.values.status = .running))
  | .trajectoryHook _ (.evidenceRetrieved ..) | .trajectoryHook _ (.recommendationDrafted ..)
  | .trajectoryHook _ (.controlsEvaluated ..) | .trajectoryHook _ (.humanReview _)
  | .trajectoryHook _ (.investigationFailed _) | .trajectoryHook _ (.investigationHardBlocked ..)
  | .createCase .. | .getCase _ | .deleteCase _ | .getAlert _ | .getCustomer _ | .getKyc _
  | .getTransactions _ | .saveRecommendation .. | .saveReview _ | .stageHook .. | .recommend _
  | .uuid4 | .toolExecutions | .loadCheckpoint .. | .getState _ | .updateState ..
  | .deleteThread _ =>
    isFalse id

/-- Runs are in custody of their case, and information is collected without an exception. -/
def CollectsAlone (env : EngineEnvironment) (w : EngineWorld) (draws : EngineDraws)
    (call : EngineCall) : Prop :=
  LoadsAlone w call ∧ ResumesSelectably env w call ∧ (draws.failure.Raises → ¬call.Collects w)

instance (env : EngineEnvironment) (w : EngineWorld) (draws : EngineDraws) (call : EngineCall) :
    Decidable (CollectsAlone env w draws call) := by
  unfold CollectsAlone
  infer_instance

/-- Information is collected alone, and no new execution of a given graph is begun. -/
def CollectsOn (env : EngineEnvironment) (since : Option (UUID × ℕ)) (w : EngineWorld)
    (draws : EngineDraws) (call : EngineCall) : Prop :=
  CollectsAlone env w draws call ∧ ∀ pair ∈ since, call.Continues pair.1

/-- The evidence IDs on the thread of a case. -/
def CaseView.evidenceIds (v : CaseView) : List String :=
  (savedValues v.saved).evidence.map (·.evidenceId)

/-- What the run of a phase has announced and has yet to save. -/
def Phase.unsaved : Phase → List String
  | .informed _ _ evidence | .collecting _ _ evidence => [evidence.evidenceId]
  | _ => []

/-- The input of a new execution is about to be written. -/
def Phase.Enters : Phase → Prop
  | .entering _ _ => True
  | _ => False

/-- Policies can be selected for the item that the phase is about. -/
def Phase.Selects (env : EngineEnvironment) : Phase → Prop
  | .stage _ .collectInformation (some (.information submission)) values =>
    Selectable env values submission
  | .informed _ values evidence | .collecting _ values evidence =>
    (env.selectPolicies (values.evidence ++ [evidence])).isOk
  | _ => True

/-- Everything that has been announced after the first `n` items is on the thread, or has yet to be
saved; nothing has been before the graph has read its evidence. -/
def Accounted (n : ℕ) (m : Phase) (v : CaseView) : Prop :=
  (∀ id ∈ v.supplied.drop n, id ∈ v.evidenceIds ∨ id ∈ m.unsaved) ∧
    ((m.Enters ∨ ∃ checkpoint ∈ v.saved, checkpoint.next = some .loadAndRetrieve) →
      v.supplied.drop n = [])

/-- Policies can be selected, and what has been announced for the case in question is accounted for. -/
def Supplies (env : EngineEnvironment) (since : Option (UUID × ℕ)) (c : UUID) (m : Phase)
    (v : CaseView) : Prop :=
  m.Selects env ∧ ∀ n, since = some (c, n) → Accounted n m v

section Steps

variable {env : EngineEnvironment} {since : Option (UUID × ℕ)} {n : ℕ} {op : EngineOp} {m m' : Phase}
  {call : EngineCall} {r : Except PyError call.Reply} {i : ℕ} {entry : EngineMark} {c : UUID}
  {v v' : CaseView}

/-- The state that a stage returns has what has been announced. -/
theorem Accounted.yields {s : Stage} {values : InvestigationState} (h : Accounted n m v)
    (honThread : m.OnThread v.saved) (hm : m.Yields c s values) :
    ∀ id ∈ v.supplied.drop n, id ∈ values.evidence.map (·.evidenceId) := by
  have hthread {s : Stage} {given : InvestigationState} (hunder : m.under = some (s, given)) :
      v.evidenceIds = given.evidence.map (·.evidenceId) := by
    obtain ⟨last, hsaved⟩ := honThread s given hunder
    rw [CaseView.evidenceIds, hsaved]
    rfl
  have hsame (s : Stage) (given : InvestigationState) (hunder : m.under = some (s, given))
      (hunsaved : m.unsaved = []) :
      ∀ id ∈ v.supplied.drop n, id ∈ given.evidence.map (·.evidenceId) := by
    intro id hid
    rw [← hthread hunder]
    rcases h.1 id hid with hkept | hnew
    · exact hkept
    · rw [hunsaved] at hnew
      cases hnew
  cases hm with
  | loading c values =>
    obtain ⟨last, hsaved⟩ := honThread _ _ rfl
    rw [h.2 (.inr ⟨_, hsaved, rfl⟩)]
    exact fun id hid => absurd hid List.not_mem_nil
  | collecting c values evidence =>
    intro id hid
    change id ∈ (values.evidence ++ [evidence]).map (·.evidenceId)
    rw [List.map_append, List.mem_append, ← hthread rfl]
    exact h.1 id hid
  | drafted c given | released c given | concluded c given | failed c s given =>
    exact hsame _ given rfl rfl
  | blocked => exact hsame _ values rfl rfl

/-- A phase that stays in its thread and announces nothing keeps what is accounted for. -/
theorem Accounted.stays (h : Accounted n m v) (hsaved : v'.saved = v.saved)
    (hsupplied : v'.supplied = v.supplied) (hunsaved : m'.unsaved = m.unsaved)
    (henters : ¬m'.Enters) : Accounted n m' v' := by
  have hids : v'.evidenceIds = v.evidenceIds := by
    rw [CaseView.evidenceIds, hsaved]
    rfl
  unfold Accounted
  rw [hids, hsupplied, hunsaved, hsaved]
  exact ⟨h.1, fun hunread => h.2 (.inr (hunread.resolve_left henters))⟩

/-- Only an announcement changes what is announced in a view. -/
theorem ViewStep.supplied_eq (h : ViewStep env c v call r v')
    (haudit : ∀ actorId payload, call ≠ .audit "case_information_supplied" actorId c payload) :
    v'.supplied = v.supplied := by
  cases h with
  | kept | recommended | reviewed | status | put => rfl
  | supplied actorId payload => exact absurd rfl (haudit actorId payload)

/-- A call that neither announces nor saves keeps what is accounted for. -/
theorem Accounted.aside (h : Accounted n m v) (hview : ViewStep env c v call r v')
    (hput : ∀ checkpoint, call ≠ .putCheckpoint c checkpoint)
    (haudit : ∀ actorId payload, call ≠ .audit "case_information_supplied" actorId c payload)
    (hunsaved : m'.unsaved = m.unsaved) (henters : ¬m'.Enters) : Accounted n m' v' :=
  h.stays (hview.saved_eq hput) (hview.supplied_eq haudit) hunsaved henters

/-- No call of the collection of information raises. -/
theorem CollectsOn.quiet {w : EngineWorld} {draws : EngineDraws} (h : CollectsOn env since w draws call)
    (hcall : call.Collects w) : ¬draws.failure.Raises := fun hraises => h.1.2.2 hraises hcall

/-- A call of the collection of information returns what it has done. -/
theorem Admitted.collects_ok (h : Admitted env (CollectsOn env since) c v call r)
    (hcall : ∀ w : EngineWorld, w.view c = some v → call.Collects w)
    (hok : ∀ (w : EngineWorld) draws, w.view c = some v →
      ∃ reply, (w.effect env draws call).1 = .ok reply) :
    ∃ reply, r = .ok reply := by
  obtain ⟨w, draws, hview, hallowed, rfl⟩ := h
  rw [perform_of_not_raises (hallowed.quiet (hcall w hview))]
  exact hok w draws hview

/-- An announcement is added to what is accounted for, until it is saved. -/
theorem Accounted.informed {k : UUID} {resume : Option Resume} {values : InvestigationState}
    {evidence : EvidenceItem} {payload : AuditPayload}
    (h : Accounted n (.stage k .collectInformation resume values) v)
    (honThread : (Phase.stage k .collectInformation resume values).OnThread v.saved)
    (hpayload : payload.evidenceIds = [evidence.evidenceId]) :
    Accounted n (.informed k values evidence) { v with supplied := v.supplied ++ payload.evidenceIds } := by
  obtain ⟨last, hsaved⟩ := honThread _ _ rfl
  constructor
  · intro id hid
    change id ∈ (v.supplied ++ payload.evidenceIds).drop n at hid
    rw [List.drop_append, hpayload, List.mem_append] at hid
    rcases hid with hold | hnew
    · rcases h.1 id hold with hkept | hlost
      · exact .inl hkept
      · cases hlost
    · exact .inr (List.mem_of_mem_drop hnew)
  · rintro (henters | ⟨checkpoint, hmem, hnext⟩)
    · cases henters
    · cases hsaved.symm.trans hmem
      cases hnext

/-- Where a reply leads, policies can be selected when they can in both phases. -/
theorem selects_landed {α : Type} {r : Except PyError α} (hok : m.Selects env)
    (herror : m'.Selects env) : (Phase.landed r m m').Selects env := by
  cases r with
  | ok a => exact hok
  | error e => exact herror

/-- Where a reply leads nothing is unsaved when nothing is in either phase. -/
theorem unsaved_landed {α : Type} {r : Except PyError α} {ids : List String} (hok : m.unsaved = ids)
    (herror : m'.unsaved = ids) : (Phase.landed r m m').unsaved = ids := by
  cases r with
  | ok a => exact hok
  | error e => exact herror

/-- Where a reply leads no execution is about to be entered when neither phase does so. -/
theorem enters_landed {α : Type} {r : Except PyError α} (hok : ¬m.Enters) (herror : ¬m'.Enters) :
    ¬(Phase.landed r m m').Enters := by
  cases r with
  | ok a => exact hok
  | error e => exact herror

/-- After a checkpoint no information is being collected. -/
theorem selects_advance {next : Option Stage} {values : InvestigationState} :
    (Phase.advance c next values).Selects env := by
  cases next with
  | none => trivial
  | some s => cases s <;> trivial

/-- After a checkpoint no execution is about to be entered. -/
theorem enters_advance {next : Option Stage} {values : InvestigationState} :
    ¬(Phase.advance c next values).Enters := by
  cases next <;> exact id

/-- The checkpoint of a stage saves what is accounted for. -/
theorem Accounted.put {s : Stage} {values : InvestigationState} (h : Accounted n m v)
    (honThread : m.OnThread v.saved) (hm : m.Yields c s values) (henters : ¬m'.Enters) :
    Accounted n m' { v with saved := some ⟨values, some s, route s values⟩ } := by
  refine ⟨fun id hid => .inl (h.yields honThread hm id hid), ?_⟩
  rintro (h' | ⟨checkpoint, hmem, hnext⟩)
  · exact absurd h' henters
  · cases hmem
    exact absurd hnext (route_ne_loadAndRetrieve s values)

/-- A checkpoint that is put has what is accounted for. -/
theorem Accounted.saved {checkpoint : Checkpoint} {r : Except PyError Unit} (h : Accounted n m v)
    (honThread : m.OnThread v.saved) (hedge : Edge env op m (.putCheckpoint c checkpoint) r m') :
    ∀ id ∈ v.supplied.drop n, id ∈ checkpoint.evidenceIds := by
  cases hedge with
  | outside _ _ _ _ _ hq | waits _ _ _ _ hq | works _ _ _ _ _ _ _ hq | reports _ _ _ _ _ _ _ hq
    | reportFails _ _ _ _ _ _ _ hq => exact hq.elim
  | entered =>
    rw [h.2 (.inl trivial)]
    exact fun id hid => absurd hid List.not_mem_nil
  | puts m k s values r hm => exact h.yields honThread hm

/-- A checkpoint is put by a run of its case. -/
theorem Edge.puts_inRun {checkpoint : Checkpoint} {r : Except PyError Unit}
    (hedge : Edge env op m (.putCheckpoint c checkpoint) r m') : m.inRun = some c := by
  cases hedge with
  | outside _ _ _ _ _ hq | waits _ _ _ _ hq | works _ _ _ _ _ _ _ hq | reports _ _ _ _ _ _ _ hq
    | reportFails _ _ _ _ _ _ _ hq => exact hq.elim
  | entered => rfl
  | puts m k s values r hm => exact hm.inRun

/-- A call of a run keeps what is accounted for, and that policies can be selected for it. -/
theorem Supplies.edge (hrun : m.inRun = some c) (honThread : m.OnThread v.saved)
    (h : Supplies env since c m v) (hedge : Edge env op m call r m')
    (hview : ViewStep env c v call r v') (hok : Admitted env (CollectsOn env since) c v call r)
    (hmoves : m' = m → call.Alters c) : Supplies env since c m' v' := by
  obtain ⟨hselects, haccounted⟩ := h
  have haside (hselects' : m'.Selects env) (hunsaved : m'.unsaved = m.unsaved) (henters : ¬m'.Enters)
      (hput : ∀ checkpoint, call ≠ .putCheckpoint c checkpoint)
      (haudit : ∀ actorId payload, call ≠ .audit "case_information_supplied" actorId c payload) :
      Supplies env since c m' v' :=
    ⟨hselects', fun n hn => (haccounted n hn).aside hview hput haudit hunsaved henters⟩
  cases hedge with
  | outside _ _ _ _ hout | created _ _ _ _ _ _ hout | located _ _ _ _ _ _ hout | asked _ _ _ _ hout
    | unknown _ _ _ _ hout | revised _ _ _ _ _ _ _ hout | revoked _ _ _ _ _ hout =>
    exact absurd (.inl hrun) hout.not_runs
  | deleted | forgotten | loadFails | loadStart | loadNothing | loadStage => cases hrun
  | waits _ call _ _ hq | works _ _ _ _ call _ _ hq => exact absurd (hmoves rfl) hq.not_alters
  | reports _ _ _ _ call _ _ hq => exact absurd (hmoves rfl) hq.not_alters
  | notified | notifies | looks => exact (hmoves rfl).elim
  | reportFails m k s values call e hm hq ht =>
    rw [hview.eq_of_not_alters hq.not_alters]
    cases hm with
    | collecting _ values evidence =>
      -- Neither report of `collect_information` raises.
      have hcollects : ∃ runId event, call = .trajectoryHook runId event ∧
          ∀ w, EngineCall.Collects w (.trajectoryHook runId event) := by
        rcases ht with ⟨runId, rfl⟩ | ⟨runId, jurisdiction, selection, rfl⟩
        · exact ⟨_, _, rfl, fun _ => trivial⟩
        · exact ⟨_, _, rfl, fun _ => rfl⟩
      obtain ⟨runId, event, rfl, hcall⟩ := hcollects
      obtain ⟨reply, hreply⟩ := hok.collects_ok (fun w _ => hcall w) fun _ _ _ => ⟨(), rfl⟩
      cases hreply
    | released | concluded => exact ⟨trivial, fun n hn => (haccounted n hn).stays rfl rfl rfl id⟩
  | entered k values r =>
    refine ⟨selects_landed trivial trivial, fun n hn => ?_⟩
    have hsupplied : v'.supplied = v.supplied := hview.supplied_eq fun _ _ h => by cases h
    have hnone : v'.supplied.drop n = [] := by
      rw [hsupplied]
      exact (haccounted n hn).2 (.inl trivial)
    refine ⟨fun id hid => ?_, fun _ => hnone⟩
    rw [hnone] at hid
    cases hid
  | runs | shows | decides | stores | edits =>
    exact haside (selects_landed trivial trivial) (unsaved_landed rfl rfl) (enters_landed id id)
      (fun _ h => by cases h) fun _ _ h => by cases h
  | logs | saves | saveFails =>
    exact haside trivial rfl id (fun _ h => by cases h) fun _ _ h => by cases h
  | informs k submission values b version evidence r hb hversion hevidence =>
    cases hrun
    obtain ⟨u, rfl⟩ := hok.collects_ok (fun _ _ => rfl) fun _ _ _ => ⟨(), rfl⟩
    refine ⟨hselects b hb version hversion evidence (by rw [hevidence]; rfl), fun n hn => ?_⟩
    cases hview with
    | kept _ _ halters =>
      obtain ⟨e, he⟩ := halters ⟨rfl, rfl⟩
      cases he
    | supplied => exact (haccounted n hn).informed honThread rfl
  | collects k values evidence r =>
    cases hrun
    obtain ⟨last, hsaved⟩ := honThread _ _ rfl
    obtain ⟨u, rfl⟩ := hok.collects_ok
      (fun w hw => ⟨rfl, _, (view_eq_some hw).2.1.symm.trans hsaved, rfl⟩)
      fun w draws hw => ⟨(), setStatus_effect_ok .running (view_eq_some hw).1 draws⟩
    exact haside hselects rfl id (fun _ h => by cases h) fun _ _ h => by cases h
  | concludes m k values review r hm =>
    have hunsaved : m.unsaved = [] := by
      rcases hm with rfl | ⟨rfl, -⟩ <;> rfl
    exact haside (selects_landed trivial trivial) (hunsaved ▸ unsaved_landed rfl rfl)
      (enters_landed id id) (fun _ h => by cases h) fun _ _ h => by cases h
  | givesUp m k s values r hm =>
    have hunsaved : m.unsaved = [] := by
      cases hm with
      | collecting _ values evidence e herror =>
        change (env.selectPolicies (values.evidence ++ [evidence])).isOk = true at hselects
        rw [herror] at hselects
        cases hselects
      | stage | loading | drafted | failing => rfl
    exact haside (selects_landed trivial trivial) (hunsaved ▸ unsaved_landed rfl rfl)
      (enters_landed id id) (fun _ h => by cases h) fun _ _ h => by cases h
  | puts m k s values r hm =>
    cases hm.inRun.symm.trans hrun
    have hsaves : (∃ u, r = .ok u) ∨ m.unsaved = [] := by
      cases hm with
      | collecting => exact .inl (hok.collects_ok (fun _ _ => ⟨rfl, rfl⟩) fun _ _ _ => ⟨(), rfl⟩)
      | loading | drafted | released | blocked | concluded | failed => exact .inr rfl
    cases r with
    | ok u =>
      rw [hview.put_ok]
      exact ⟨selects_advance, fun n hn => (haccounted n hn).put honThread hm enters_advance⟩
    | error e =>
      refine ⟨trivial, fun n hn => ?_⟩
      have hunsaved : m.unsaved = [] := hsaves.resolve_left fun ⟨u, hu⟩ => by cases hu
      cases hview with
      | kept => exact (haccounted n hn).stays rfl rfl hunsaved.symm id
      | put => exact (haccounted n hn).put honThread hm id

/-- A mark of a run keeps what is accounted for. -/
theorem Supplies.mark (hrun : m.inRun = some c) (h : Supplies env since c m v)
    (hedge : MarkEdge i op m entry m') : Supplies env since c m' v := by
  have hstays (hselects : m'.Selects env) (hunsaved : m'.unsaved = m.unsaved) (henters : ¬m'.Enters) :
      Supplies env since c m' v :=
    ⟨hselects, fun n hn => (h.2 n hn).stays rfl rfl hunsaved henters⟩
  cases hedge with
  | executed => exact h
  | prepared | created | checked | again | loaded | resets => cases hrun
  | left m k ran hleaves =>
    have hunsaved : m.unsaved = [] := by
      cases hleaves <;> rfl
    exact hstays trivial hunsaved.symm id
  | drafted | decided | reviewed => exact hstays trivial rfl id

/-- The rules by which what has been supplied is kept. -/
theorem supply_rules (env : EngineEnvironment) (since : Option (UUID × ℕ)) :
    CustodyRules env (CollectsOn env since) (Supplies env since) where
  alone _ _ _ h := h.1.1
  rest c m v hm := by
    cases m with
    | idle | read | deleting | resetting | admitted | loaded | ran => exact Iff.rfl
    | entering | stage | loading | logged | saved | drafted | deciding | released | informed
      | collecting | reviewing | reviewed | edited | concluded | failing | failed => cases hm
  created s alert tenantId investigatorId := by
    refine ⟨trivial, fun n _ => ⟨fun id hid => ?_, fun _ => List.drop_nil⟩⟩
    rw [List.drop_nil] at hid
    cases hid
  entered c b v r hok hb h := by
    obtain ⟨w, draws, -, hallowed, -⟩ := hok
    refine ⟨trivial, fun n hn => ?_⟩
    exact absurd rfl (hallowed.2 (c, n) hn)
  resumed c v value r values last s hok hsaved h := by
    obtain ⟨w, draws, hview, hallowed, -⟩ := hok
    refine ⟨?_, fun n hn => (h.2 n hn).stays rfl rfl rfl id⟩
    cases s with
    | collectInformation =>
      cases value with
      | information submission =>
        exact hallowed.1.2.1 _ ((view_eq_some hview).2.1.symm.trans hsaved) rfl
      | review request => trivial
    | loadAndRetrieve | draftRecommendation | validateControls | humanReview => trivial
  edge c op m call r m' v v' hrun honThread h hedge hview hok hmoves :=
    h.edge hrun honThread hedge hview hok hmoves
  mark c i op m n m' v hrun _ h hedge := h.mark hrun hedge

end Steps

section Runs

variable {env : EngineEnvironment} {bank : SyntheticBank} {n : ℕ} {φ : ℕ → Phase} {w : EngineWorld}
  {p q : EnginePool} {c : UUID} {id : String}
  {allowed : EnginePool → Move EngineOp EngineDraws → Prop}

/-- What is announced stays announced, in the same order. -/
theorem supplied_grows (hreach : (engineSystem env).Reaches allowed p q) :
    p.world.supplied c <+: q.world.supplied c := by
  apply System.Reaches.invariant (I := fun q : EnginePool => p.world.supplied c <+: q.world.supplied c)
    hreach List.prefix_rfl
  intro a b h hstep
  have hrest (prog : Investigation Unit) (w : EngineWorld) (hw : p.world.supplied c <+: w.supplied c) :
      p.world.supplied c <+: ((engineSystem env).rest prog w).2.supplied c := by
    apply System.rest_keeps (I := fun w : EngineWorld => p.world.supplied c <+: w.supplied c) _ prog w hw
    intro entry w hw
    cases entry <;> exact hw
  obtain ⟨move, -, hmove⟩ := hstep
  cases move with
  | start op =>
    rw [System.move_start] at hmove
    cases hmove
    apply hrest
    cases op <;> exact h
  | advance i draws =>
    obtain ⟨op, call, k, -, rfl⟩ := System.move_advance hmove
    apply hrest
    apply h.trans
    rcases supplied_perform env a.world draws c call with ⟨_, _, -, heq⟩ | ⟨-, heq⟩
    · exact heq ▸ List.prefix_append _ _
    · exact heq ▸ List.prefix_rfl

/-- What is known of a case may be weakened where the case is seen. -/
theorem InCustody.weaken {V V' : UUID → Phase → CaseView → Prop} (h : InCustody V φ w)
    (hV : ∀ c m v, w.view c = some v → V c m v → V' c m v) : InCustody V' φ w := by
  refine ⟨h.filed, h.registered, h.grounded, h.sole, ?_, ?_⟩
  · intro i c v hi hview
    obtain ⟨honThread, hknown⟩ := h.held i c v hi hview
    exact ⟨honThread, hV c _ v hview hknown⟩
  · intro c v hfree hview
    exact hV c _ v hview (h.free c v hfree hview)

/-- Nothing has been announced since now. -/
theorem supplies_now (h : InCustody (Supplies env none) φ w) :
    InCustody (Supplies env (some (c, (w.supplied c).length))) φ w := by
  apply h.weaken
  rintro k m v hview ⟨hselects, -⟩
  refine ⟨hselects, ?_⟩
  rintro n ⟨⟩
  have hnone : v.supplied.drop (w.supplied c).length = [] := by
    rw [(view_eq_some hview).2.2, List.drop_length]
  refine ⟨fun id hid => ?_, fun _ => hnone⟩
  rw [hnone] at hid
  cases hid

/-- In an execution of the graph of a case, what is announced from a state on is accounted for. -/
theorem supplies_reaches
    (hp : (engineSystem env).Reaches (RoutineMoves (CollectsAlone env)) (idleEngine bank) p)
    (hq : (engineSystem env).Reaches (GoesOn (RoutineMoves (CollectsAlone env)) c) p q) :
    ∃ φ, (routineChart env).Traces q φ ∧
      InCustody (Supplies env (some (c, (p.world.supplied c).length))) φ q.world := by
  have hnone : (engineSystem env).Reaches (RoutineMoves (CollectsOn env none)) (idleEngine bank) p := by
    refine hp.mono fun p move hmove => ?_
    cases move with
    | start op => exact hmove
    | advance i draws => exact fun call hcall => ⟨hmove call hcall, fun _ h => by cases h⟩
  have hsince : (engineSystem env).Reaches
      (RoutineMoves (CollectsOn env (some (c, (p.world.supplied c).length)))) p q := by
    refine hq.mono fun p move hmove => ?_
    cases move with
    | start op => exact hmove
    | advance i draws =>
      intro call hcall
      refine ⟨hmove.1 call hcall, ?_⟩
      rintro _ ⟨⟩
      exact hmove.2 call hcall
  obtain ⟨φ, hφ, h⟩ := custody_reaches (supply_rules env none) hnone
  exact (custody_keeps (supply_rules env _)).reaches (routineChart_covers env) hφ (supplies_now h) hsince

/-- In an execution of the graph of a case, an item that is on its thread stays there. -/
theorem kept_step (hφ : (routineChart env).Traces p φ)
    (h : InCustody (Supplies env (some (c, n))) φ p.world)
    (hstep : (engineSystem env).Step (GoesOn (RoutineMoves (CollectsAlone env)) c) p q)
    (hid : id ∈ (p.world.supplied c).drop n)
    (hkept : ∀ v, p.world.view c = some v → id ∈ v.evidenceIds) :
    ∀ v, q.world.view c = some v → id ∈ v.evidenceIds := by
  have hrest (prog : Investigation Unit) (w : EngineWorld) :
      ((engineSystem env).rest prog w).2.view c = w.view c := by
    apply System.rest_keeps (I := fun w' : EngineWorld => w'.view c = w.view c) _ prog w rfl
    intro entry w' hw'
    exact (view_record entry w' c).trans hw'
  obtain ⟨move, hallowed, hmove⟩ := hstep
  cases move with
  | start op =>
    rw [System.move_start] at hmove
    cases hmove
    intro v hview
    rw [hrest] at hview
    exact hkept v ((view_enroll op p.world c).symm.trans hview)
  | advance i draws =>
    obtain ⟨op, call, k, htask, rfl⟩ := System.move_advance hmove
    intro v' hview'
    rw [hrest] at hview'
    obtain ⟨m, hedge⟩ := hφ.edge htask (h.filed.expected call)
    rcases h.view_back (hφ.follows i _ htask).1 hedge hview' with ⟨v, hview, hchange⟩ | ⟨rfl, -⟩
    · have hthere := hkept v hview
      cases hchange with
      | kept | recommended | reviewed | status | supplied => exact hthere
      | put checkpoint =>
        obtain ⟨honThread, -, haccounted⟩ := h.held i c _ hedge.puts_inRun hview
        rw [← (view_eq_some hview).2.2] at hid
        exact (haccounted n rfl).saved honThread hedge id hid
    · -- A case for which something has been announced is not new.
      refine absurd (h.grounded.announced p.world.store.nextUuid ?_) (Nat.lt_irrefl _)
      rintro hnone
      rw [hnone, List.drop_nil] at hid
      cases hid

/-- In an execution of the graph of a case, an item that is on its thread is there ever after. -/
theorem kept_reaches
    (hp : (engineSystem env).Reaches (RoutineMoves (CollectsAlone env)) (idleEngine bank) p)
    (hq : (engineSystem env).Reaches (GoesOn (RoutineMoves (CollectsAlone env)) c) p q)
    (hid : id ∈ announcedSince p.world q.world c)
    (hkept : ∀ v, q.world.view c = some v → id ∈ v.evidenceIds) {q' : EnginePool}
    (hlater : (engineSystem env).Reaches (GoesOn (RoutineMoves (CollectsAlone env)) c) q q') :
    ∀ v, q'.world.view c = some v → id ∈ v.evidenceIds := by
  induction hlater with
  | refl => exact hkept
  | tail hprior hstep ih =>
    obtain ⟨φ, hφ, h⟩ := supplies_reaches hp (hq.trans hprior)
    apply kept_step hφ h hstep _ ih
    exact ((supplied_grows hprior).sublist.drop _).subset hid

/-- A thread with an item has a checkpoint. -/
theorem exists_checkpoint {v : CaseView} (hview : w.view c = some v) (hid : id ∈ v.evidenceIds) :
    ∃ checkpoint, w.store.threads.get? c = some checkpoint ∧ id ∈ checkpoint.evidenceIds := by
  rw [← (view_eq_some hview).2.1]
  unfold CaseView.evidenceIds at hid
  cases hsaved : v.saved with
  | none =>
    rw [hsaved] at hid
    cases hid
  | some checkpoint =>
    rw [hsaved] at hid
    exact ⟨checkpoint, rfl, hid⟩

/-- The item of a submission is announced, when the announcement does not raise. -/
theorem announced_step {i : ℕ} {draws : EngineDraws} {actorId : String} {fields : List String}
    {version : Option ℕ}
    (hawaits : q.awaits i = some (.audit "case_information_supplied" actorId c
      (.informationSupplied fields id version)))
    (hallowed : RoutineMoves (CollectsAlone env) q (.advance i draws)) {q' : EnginePool}
    (hmove : (engineSystem env).move q (.advance i draws) = some q')
    (hsooner : p.world.supplied c <+: q.world.supplied c) :
    id ∈ announcedSince p.world q'.world c := by
  have hquiet : ¬draws.failure.Raises := fun hraises =>
    (hallowed _ hawaits).2.2 hraises rfl
  have hrest (prog : Investigation Unit) (w : EngineWorld) :
      ((engineSystem env).rest prog w).2.supplied c = w.supplied c := by
    apply System.rest_keeps (I := fun w' : EngineWorld => w'.supplied c = w.supplied c) _ prog w rfl
    intro entry w' hw'
    cases entry <;> exact hw'
  obtain ⟨op, k, htask⟩ := Pool.exists_of_awaits hawaits
  obtain ⟨op', call, k', htask', rfl⟩ := System.move_advance hmove
  cases htask.symm.trans htask'
  have hsupplied : (q.world.perform env draws (.audit "case_information_supplied" actorId c
      (.informationSupplied fields id version))).2.supplied c = q.world.supplied c ++ [id] := by
    rw [perform_of_not_raises hquiet]
    exact (supplied_audit _ _ _ _).trans (by rw [if_pos ⟨rfl, rfl⟩]; rfl)
  change id ∈ (((engineSystem env).rest _ _).2.supplied c).drop _
  rw [hrest]
  change id ∈ ((q.world.perform env draws _).2.supplied c).drop _
  rw [hsupplied, List.drop_append_of_le_length hsooner.length_le]
  exact List.mem_append_right _ (List.mem_singleton_self id)

end Runs

/-- When the thread of a case is read for a stage only while no run of the case is in flight, and
nothing raises from the announcement of an item to its checkpoint, nothing that is supplied to a case is
lost in an execution of its graph. -/
theorem information_kept_of_collectsAlone (env : EngineEnvironment) (bank : SyntheticBank)
    (c : UUID) (p q : EnginePool)
    (hp : (engineSystem env).Reaches (RoutineMoves (CollectsAlone env)) (idleEngine bank) p)
    (hq : (engineSystem env).Reaches (GoesOn (RoutineMoves (CollectsAlone env)) c) p q) :
    InformationKept env (RoutineMoves (CollectsAlone env)) c p q := by
  obtain ⟨φ, hφ, h⟩ := supplies_reaches hp hq
  constructor
  · intro i draws actorId fields id version q' hawaits hallowed hmove
    exact announced_step hawaits hallowed hmove (supplied_grows hq)
  · intro hstored i checkpoint hawaits id hid
    obtain ⟨case, hcase⟩ := Option.isSome_iff_exists.mp hstored
    obtain ⟨v, hview, -⟩ := exists_view hcase
    obtain ⟨op, k, htask⟩ := Pool.exists_of_awaits hawaits
    obtain ⟨m, hedge⟩ := hφ.edge htask (r := .ok ()) trivial
    obtain ⟨honThread, -, haccounted⟩ := h.held i c v (Edge.puts_inRun hedge) hview
    apply (haccounted _ rfl).saved honThread hedge
    rwa [(view_eq_some hview).2.2]
  · intro hidle q' hlater hstored id hid
    have hfree (i : ℕ) : (φ i).inRun ≠ some c := fun hi =>
      hidle (i, c) (h.registered.running i c hi) rfl
    have hkept (v : CaseView) (hview : q.world.view c = some v) : id ∈ v.evidenceIds := by
      obtain ⟨-, haccounted⟩ := h.free c v hfree hview
      rw [announcedSince, ← (view_eq_some hview).2.2] at hid
      rcases (haccounted _ rfl).1 id hid with hthere | hlost
      · exact hthere
      · cases hlost
    obtain ⟨case, hcase⟩ := Option.isSome_iff_exists.mp hstored
    obtain ⟨v, hview, -⟩ := exists_view hcase
    exact exists_checkpoint hview (kept_reaches hp hq hid hkept hlater v hview)

/-- A submission about the source of the funds, under an ID of its own. -/
def sampleSupply (submissionId : String) : EngineOp :=
  .supplyInformation 0 ⟨"analyst", [("source_of_funds", .string "salary")], submissionId⟩

/-- An environment that names the items of the first two submissions apart. -/
def numberedItems : EngineEnvironment :=
  { sampleEnvironment .inMemory with
    uuid5 := fun _ name => if name = "1:S-1" then 1 else 2 }

/-- The item of one submission is kept. -/
theorem information_kept_of_collectsAlone_supplied :
    ∃ p q, (engineSystem numberedItems).Reaches (RoutineMoves (CollectsAlone numberedItems))
        (idleEngine sampleBank) p ∧
      (engineSystem numberedItems).Reaches
        (GoesOn (RoutineMoves (CollectsAlone numberedItems)) 0) p q ∧
      announcedSince p.world q.world 0 = ["INFO-00000000-0000-0000-0000-000000000001"] ∧
        InformationKept numberedItems (RoutineMoves (CollectsAlone numberedItems)) 0 p q := by
  obtain ⟨p, hp, htest⟩ := System.exists_reaches (engineSystem numberedItems)
    (fun p m => decide (RoutineMoves (CollectsAlone numberedItems) p m))
    (fun _ _ h => of_decide_eq_true h) (idleEngine sampleBank) askedMoves
    (fun p => ((engineSystem numberedItems).runChecked
      (fun p m => decide (GoesOn (RoutineMoves (CollectsAlone numberedItems)) 0 p m)) p
      (undisturbed 1 (sampleSupply "S-1") 25)).any fun q =>
        decide (announcedSince p.world q.world 0 = ["INFO-00000000-0000-0000-0000-000000000001"]))
    (by decide +kernel)
  obtain ⟨q, hq, hannounced⟩ := System.exists_reaches (engineSystem numberedItems) _
    (fun _ _ h => of_decide_eq_true h) p (undisturbed 1 (sampleSupply "S-1") 25)
    (fun q => decide (announcedSince p.world q.world 0 = ["INFO-00000000-0000-0000-0000-000000000001"]))
    htest
  exact ⟨p, q, hp, hq, of_decide_eq_true hannounced,
    information_kept_of_collectsAlone numberedItems sampleBank 0 p q hp hq⟩

/-- Two submissions that have both read the checkpoint, one of which then saves its evidence after the
other. -/
def overtakenMoves : List (Move EngineOp EngineDraws) :=
  undisturbed 1 (sampleSupply "S-1") 2 ++ undisturbed 2 (sampleSupply "S-2") 2 ++
    List.replicate 23 (.advance 1 quietDraws) ++ List.replicate 23 (.advance 2 quietDraws)

/-- Of two submissions that have both read the checkpoint, the item of the first is lost. -/
theorem information_overwritten :
    ¬∀ p q, (engineSystem numberedItems).Reaches Faultless (idleEngine sampleBank) p →
      (engineSystem numberedItems).Reaches (GoesOn Faultless 0) p q →
        InformationKept numberedItems Faultless 0 p q := by
  obtain ⟨p, hp, htest⟩ := System.exists_reaches (engineSystem numberedItems)
    (fun p m => decide (Faultless p m)) (fun _ _ h => of_decide_eq_true h) (idleEngine sampleBank)
    askedMoves
    (fun p => ((engineSystem numberedItems).runChecked (fun p m => decide (GoesOn Faultless 0 p m)) p
      overtakenMoves).any fun q =>
        (q.world.store.history.running.all fun pair => pair.2 ≠ 0) &&
        (q.world.store.cases.get? 0).isSome &&
        (announcedSince p.world q.world 0).any fun id =>
          (q.world.store.threads.get? 0).all fun checkpoint => id ∉ checkpoint.evidenceIds)
    (by decide +kernel)
  obtain ⟨q, hq, hlost⟩ := System.exists_reaches (engineSystem numberedItems) _
    (fun _ _ h => of_decide_eq_true h) p overtakenMoves _ htest
  obtain ⟨⟨hidle, hstored⟩, hlost⟩ :=
    (Bool.and_eq_true_iff.mp hlost).imp_left Bool.and_eq_true_iff.mp
  obtain ⟨id, hid, hmissing⟩ := List.any_eq_true.mp hlost
  intro hkept
  have hall (pair : ℕ × UUID) (hpair : pair ∈ q.world.store.history.running) : pair.2 ≠ 0 :=
    of_decide_eq_true (List.all_eq_true.mp hidle pair hpair)
  obtain ⟨checkpoint, hcheckpoint, hthere⟩ :=
    (hkept p q hp hq).keeps hall q .refl hstored id hid
  rw [hcheckpoint] at hmissing
  exact of_decide_eq_true hmissing hthere

end Amlguard
