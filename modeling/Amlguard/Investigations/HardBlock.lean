import Amlguard.Investigations.Engagement

/-!
# Hard blocks

A blocked case stays blocked when two conditions hold of the moves: whoever sets `HARD_BLOCKED`
is the only operation engaged on the case, and neither that step of a run nor the reports that
the run then makes raise.

Under them no operation that could set another status is ever engaged on a blocked case: what is
left of the run that has blocked it only reports, and no status check lets another one in.
-/

namespace Amlguard

open Awaited

/-- A step that sets `HARD_BLOCKED` finds no other operation engaged on the case. -/
def BlocksAlone (w : EngineWorld) (i : ℕ) : EngineCall → Prop
  | .setStatus c .hardBlocked => ∀ pair ∈ w.store.history.admitted, pair.2 = c → pair.1 = i
  | _ => True

/-- A call at which an exception does not end the block of a case: the operation is not engaged
on the case that the call blocks, or, for a report, on no blocked case. -/
def MayRaiseSafely (w : EngineWorld) (i : ℕ) : EngineCall → Prop
  | .setStatus c .hardBlocked => (i, c) ∉ w.store.history.admitted
  | .audit _ _ _ _ | .trajectoryHook _ _ =>
    ∀ pair ∈ w.store.history.admitted, pair.1 = i →
      ∀ case ∈ w.store.cases.get? pair.2, case.status ≠ .hardBlocked
  | _ => True

instance (w : EngineWorld) (i : ℕ) (call : EngineCall) : Decidable (BlocksAlone w i call) := by
  unfold BlocksAlone
  split <;> infer_instance

instance (w : EngineWorld) (i : ℕ) (call : EngineCall) : Decidable (MayRaiseSafely w i call) := by
  unfold MayRaiseSafely
  split <;> infer_instance

/-- Requests whose blocking steps are alone and whose blocked runs report without an exception. -/
def BlocksCleanly (p : EnginePool) : Move EngineOp EngineDraws → Prop
  | .start op => op.Requested
  | .advance i o => ∀ call ∈ p.awaits i,
    BlocksAlone p.world i call ∧ (o.failure.Raises → MayRaiseSafely p.world i call)

instance (p : EnginePool) : (m : Move EngineOp EngineDraws) → Decidable (BlocksCleanly p m)
  | .start op => inferInstanceAs (Decidable op.Requested)
  | .advance i o => inferInstanceAs (Decidable (∀ call ∈ p.awaits i,
      BlocksAlone p.world i call ∧ (o.failure.Raises → MayRaiseSafely p.world i call)))

/-- What is left of an operation that is engaged on a blocked case: the reports of the run that
has blocked it. -/
def Phase.Tail (c : UUID) (m : Phase) : Prop :=
  m.engaged = some c →
    ∃ values validation, m = .released c values validation ∧ validation.status = .hardBlocked

/-- A case that has just been read or created is stored as it is. -/
def Phase.Fresh (s : Store) : Phase → Prop
  | .read _ case created => ∃ stored, s.cases.get? case.caseId = some stored ∧
      stored.status = case.status ∧ (created = true → stored.status = .open)
  | _ => True

/-- No operation engaged on a blocked case could set another status. -/
structure BlockInvariant (φ : ℕ → Phase) (w : EngineWorld) : Prop where
  filed : Filed w.store
  registered : Registered φ w.store.history
  tail : ∀ c case, w.store.cases.get? c = some case → case.status = .hardBlocked →
    ∀ i, (φ i).Tail c

section Steps

variable {env : EngineEnvironment} {s s' : Store} {w : EngineWorld} {op : EngineOp} {m m' : Phase}
  {call : EngineCall} {r : Except PyError call.Reply} {i : ℕ} {n : EngineMark} {c : UUID}

/-- The tail of a blocking run only goes on to report, and to end. -/
theorem Phase.Tail.edge (hm : m.Tail c) (hedge : Edge env op m call r m')
    (hreport : call.Reporting → m.engaged = some c → ∃ reply, r = .ok reply) : m'.Tail c := by
  intro hengaged'
  have hengaged : m.engaged = some c := by
    rcases hedge.engaged with hnone | heq
    · rw [hnone] at hengaged'
      cases hengaged'
    · exact heq ▸ hengaged'
  obtain ⟨values, validation, rfl, hblocked⟩ := hm hengaged
  cases hedge with
  | reports | notifies => exact ⟨values, validation, rfl, hblocked⟩
  | reportFails m c s values call e hm hq =>
    obtain ⟨reply, hreply⟩ := hreport hq hengaged
    cases hreply
  | puts m c s values r hyields hb =>
    cases hyields
    have hroute : route .validateControls (values.withValidation validation) = none := by
      simp only [route, show (values.withValidation validation).status = .hardBlocked from hblocked]
      rfl
    rw [hroute] at hengaged'
    cases r <;> cases hengaged'
  | outside _ _ _ _ hm | created _ _ _ _ _ _ hm | located _ _ _ _ _ _ hm | asked _ _ _ _ hm
    | unknown _ _ _ _ hm | revised _ _ _ _ _ _ _ hm
    | revoked _ _ _ _ _ hm | waits _ _ _ hm | works _ _ _ _ _ _ hm | givesUp _ _ _ _ _ hm =>
    cases hm
  | concludes _ _ _ _ _ hm => rcases hm with hm | ⟨hm, -⟩ <;> cases hm

/-- A mark leaves the tail of a blocking run where it is. -/
theorem Phase.Tail.mark (hm : m.Tail c) (hedge : MarkEdge i op m n m')
    (hadmitted : n ≠ .admitted i c) : m'.Tail c := by
  intro hengaged'
  have hengaged : m.engaged = some c := by
    rcases hedge.engaged with hnone | heq | ⟨c', rfl, heq⟩
    · rw [hnone] at hengaged'
      cases hengaged'
    · exact heq ▸ hengaged'
    · rw [heq] at hengaged'
      cases hengaged'
      exact absurd rfl hadmitted
  obtain ⟨values, validation, rfl, hblocked⟩ := hm hengaged
  cases hedge with
  | executed => exact ⟨values, validation, rfl, hblocked⟩
  | left => cases hengaged'

/-- The step that blocks a case leaves its operation at the tail of its run, unless it raises. -/
theorem Phase.tail_of_blocks {status : CaseStatus} {r : Except PyError Unit}
    (hedge : Edge env op m (.setStatus c status) r m') (hstatus : status = .hardBlocked)
    (hok : m.engaged = some c → ∃ u, r = .ok u) : m'.Tail c := by
  cases hedge with
  | outside _ _ _ _ _ hq | waits _ _ _ _ hq | works _ _ _ _ _ _ _ hq | reports _ _ _ _ _ _ _ hq
    | reportFails _ _ _ _ _ _ _ hq => exact hq.elim
  | revoked => exact fun h => by cases h
  | decides c values validation r =>
    obtain ⟨u, rfl⟩ := hok rfl
    exact fun _ => ⟨values, validation, rfl, hstatus⟩
  | runs | collects | givesUp => cases hstatus
  | concludes m c values review =>
    unfold HumanReview.outcome at hstatus
    split at hstatus <;> cases hstatus

/-- At the tail of a blocking run no other status is set. -/
theorem Phase.Tail.setStatus {status : CaseStatus} {r : Except PyError Unit} (hm : m.Tail c)
    (hedge : Edge env op m (.setStatus c status) r m') : status = .hardBlocked := by
  have hnone (hengaged : m.engaged = some c)
      (hrel : ∀ values validation, m ≠ .released c values validation) : False := by
    obtain ⟨values, validation, heq, -⟩ := hm hengaged
    exact hrel values validation heq
  cases hedge with
  | outside _ _ _ _ _ hq | waits _ _ _ _ hq | works _ _ _ _ _ _ _ hq | reports _ _ _ _ _ _ _ hq
    | reportFails _ _ _ _ _ _ _ hq => exact hq.elim
  | revoked => rfl
  | decides | runs | collects => exact (hnone rfl fun _ _ h => by cases h).elim
  | givesUp m c s values r hworks =>
    refine (hnone (Phase.engaged_of_inRun hworks.inRun) ?_).elim
    rintro values validation rfl
    cases hworks
  | concludes m c values review r hphase =>
    rcases hphase with rfl | ⟨rfl, -⟩
    · exact (hnone rfl fun _ _ h => by cases h).elim
    · exact (hnone rfl fun _ _ h => by cases h).elim

/-- Setting the status of a stored case returns. -/
theorem setStatus_effect_ok {case : CaseData} (status : CaseStatus)
    (hcase : w.store.cases.get? c = some case) (o : EngineDraws) :
    (w.effect env o (.setStatus c status)).1 = .ok () := by
  simp only [EngineWorld.effect, EngineWorld.onStore, Store.setStatus, Store.updateCase, hcase]

/-- An operation engaged on a blocked case that reports does not raise. -/
theorem BlockInvariant.report {φ : ℕ → Phase} (h : BlockInvariant φ w) {o : EngineDraws}
    (hsafe : o.failure.Raises → MayRaiseSafely w i call) {case : CaseData}
    (hcase : w.store.cases.get? c = some case) (hblocked : case.status = .hardBlocked)
    (hreport : call.Reporting) (hengaged : (φ i).engaged = some c) :
    ∃ reply, (w.perform env o call).1 = .ok reply := by
  have hmem := h.registered.admitted i c hengaged
  have hquiet : ¬o.failure.Raises := by
    intro hraises
    have hall := hsafe hraises
    cases call with
    | audit | trajectoryHook => exact hall (i, c) hmem rfl case hcase hblocked
    | createCase | getCase | deleteCase | getAlert | getCustomer | getKyc | getTransactions
      | saveRecommendation | saveReview | setStatus | stageHook | recommend | uuid4 | toolExecutions
      | loadCheckpoint | putCheckpoint | getState | updateState | deleteThread => cases hreport
  rw [perform_of_not_raises hquiet]
  cases call with
  | audit | trajectoryHook => exact ⟨(), rfl⟩
  | createCase | getCase | deleteCase | getAlert | getCustomer | getKyc | getTransactions
    | saveRecommendation | saveReview | setStatus | stageHook | recommend | uuid4 | toolExecutions
    | loadCheckpoint | putCheckpoint | getState | updateState | deleteThread => cases hreport

/-- Where a reply leads is fresh when both phases are. -/
theorem fresh_landed {α : Type} {r : Except PyError α} (hok : m.Fresh s) (herror : m'.Fresh s) :
    (Phase.landed r m m').Fresh s := by
  cases r with
  | ok a => exact hok
  | error e => exact herror

/-- No case is read by going on to the next stage. -/
theorem fresh_advance {next : Option Stage} {values : InvestigationState} :
    (Phase.advance c next values).Fresh s := by
  cases next <;> trivial

/-- A case that is read or created is stored as it is. -/
theorem Phase.fresh_edge (hs : Filed s) (hedge : Edge env op m call r m')
    (hw : Writes env s call r s') : m'.Fresh s' := by
  cases hedge with
  | created m ran alertId tenantId investigatorId case =>
    cases hw with
    | unchanged _ _ haside => exact (haside _ rfl).elim
    | created _ _ _ alert r hreply =>
      cases hreply _ rfl
      exact ⟨_, Dict.get?_set_self _ _ _, rfl, fun _ => rfl⟩
  | asked m ran c case =>
    obtain ⟨stored, hstored, rfl⟩ := hw.getCase_ok
    obtain rfl := hw.eq_of_getCase
    refine ⟨stored, ?_, (served_status _ _).symm, fun h => by cases h⟩
    rw [served_caseId, (hs.keyed c stored hstored).1]
    exact hstored
  | waits _ _ _ hm | works _ _ _ _ _ _ hm | reports _ _ _ _ _ _ hm | notifies _ _ _ _ _ _ _ _ hm =>
    cases hm <;> trivial
  | outside | located | unknown | forgotten | revised | revoked | notified | reportFails | loadFails
    | loadStart | loadNothing | loadStage | logs | saves | saveFails | looks => trivial
  | deleted | entered | runs | shows | decides | informs | collects | stores | edits | concludes
    | givesUp => exact fresh_landed trivial trivial
  | puts m c s values r hm =>
    exact fresh_landed fresh_advance trivial

/-- A mark changes no stored case. -/
theorem Phase.Fresh.mark (hm : m.Fresh w.store) (hedge : MarkEdge i op m n m') :
    m'.Fresh (w.record n).store := by
  cases hedge with
  | executed execution => cases m <;> exact hm
  | loaded c _ hrun =>
    rcases hrun with rfl | hrun
    · trivial
    · cases m' with
      | read => cases hrun
      | idle | deleting | resetting | admitted | loaded | entering | stage | loading | logged | saved | drafted
        | deciding | released | informed | collecting | reviewing | reviewed | edited | concluded
        | failing | failed | ran => trivial
  | prepared | created | checked | again | resets | left | drafted | decided | reviewed => trivial

/-- A status check lets no operation in on a blocked case. -/
theorem EngineOp.Checks.status_ne {case : CaseData} (h : op.Checks case) :
    case.status ≠ .hardBlocked := by
  intro hblocked
  cases op with
  | uiStart | supplyInformation => simp [EngineOp.Checks, hblocked] at h
  | review => exact h.2.1 hblocked
  | start | runPrepared | recordSecurityEvent | reset | get => exact h

/-- A request is admitted only to a case that is not blocked. -/
theorem Phase.Fresh.admitted (hm : m.Fresh s) (htail : m.Tail c) (hop : op.Requested)
    (hedge : MarkEdge i op m (.admitted i c) m') {case : CaseData}
    (hcase : s.cases.get? c = some case) : case.status ≠ .hardBlocked := by
  intro hblocked
  cases hedge with
  | prepared _ _ _ h =>
    subst h
    exact hop
  | created ran read h =>
    obtain ⟨stored, hstored, -, hopen⟩ := hm
    rw [hcase] at hstored
    cases hstored
    rw [hopen rfl] at hblocked
    cases hblocked
  | checked ran read h =>
    obtain ⟨stored, hstored, hstatus, -⟩ := hm
    rw [hcase] at hstored
    cases hstored
    exact h.status_ne (hstatus.symm.trans hblocked)
  | again c runId =>
    obtain ⟨values, validation, heq, -⟩ := htail rfl
    cases heq

end Steps

/-- The invariant while one task acts. -/
structure BlockActing (i : ℕ) (φ : ℕ → Phase) (w : EngineWorld) : Prop extends
    BlockInvariant φ w where
  fresh : (φ i).Fresh w.store

/-- Moving one task keeps the tails of the others. -/
theorem tail_update {φ : ℕ → Phase} {i : ℕ} {m : Phase} {c : UUID}
    (hother : ∀ j, j ≠ i → (φ j).Tail c) (hm : m.Tail c) (j : ℕ) :
    (Function.update φ i m j).Tail c := by
  by_cases hj : j = i
  · subst hj
    rwa [Function.update_self]
  · rw [Function.update_of_ne hj]
    exact hother j hj

/-- Moves that block cleanly keep every other operation off a blocked case. -/
theorem block_keeps (env : EngineEnvironment) :
    (requestChart env).Keeps (engineSystem env) BlocksCleanly BlockInvariant BlockActing where
  serves _ _ h := h
  start := by
    intro p op φ htraces _ h
    refine ⟨⟨h.filed.enroll op, h.registered.enroll op, ?_⟩, ?_⟩
    · intro c case hcase
      change (op.enroll p.world).store.cases.get? c = some case at hcase
      rw [enroll_cases] at hcase
      exact h.tail c case hcase
    · rw [htraces.unstarted _ (Nat.le_refl _)]
      trivial
  expected := by
    intro p i o op c k φ _ _ _ h
    exact h.filed.expected c
  call := by
    intro p i o op call k φ m htraces htask hallowed h hedge
    have hw := perform_writes env p.world o call
    obtain ⟨halone, hsafe⟩ := hallowed call (by simp [Pool.awaits, htask])
    have hhistory : (p.world.perform env o call).2.store.history = p.world.store.history := hw.history
    refine ⟨⟨h.filed.edge hedge hw, hhistory ▸ h.registered.call hedge, ?_⟩, ?_⟩
    · intro c case hcase hblocked
      have hkept (old : CaseData) (hold : p.world.store.cases.get? c = some old)
          (hb : old.status = .hardBlocked) : ∀ j, (Function.update φ i m j).Tail c :=
        tail_update (fun j _ => h.tail c old hold hb j)
          ((h.tail c old hold hb i).edge hedge fun hreport hengaged =>
            h.report hsafe hold hb hreport hengaged)
      cases hw.caseChange hcase with
      | kept _ _ _ hold => exact hkept case hold hblocked
      | created => cases hblocked
      | recommended _ _ old hold | reviewed _ old hold => exact hkept old hold hblocked
      | status c status old hold =>
        change status = .hardBlocked at hblocked
        subst hblocked
        refine tail_update (fun j hj hengaged => ?_) (Phase.tail_of_blocks hedge rfl fun hengaged => ?_)
        · exact absurd (halone (j, c) (h.registered.admitted j c hengaged) rfl) hj
        · have hquiet : ¬o.failure.Raises :=
            fun hraises => hsafe hraises (h.registered.admitted i c hengaged)
          change ∃ u, (p.world.perform env o (.setStatus c .hardBlocked)).1 = .ok u
          rw [perform_of_not_raises hquiet]
          exact ⟨(), setStatus_effect_ok _ hold o⟩
    · rw [Function.update_self]
      exact Phase.fresh_edge h.filed hedge hw
  mark := by
    intro i op n φ m w hop h hedge
    refine ⟨⟨h.filed.record n, h.registered.mark hedge, ?_⟩, ?_⟩
    · intro c case hcase hblocked
      change (w.record n).store.cases.get? c = some case at hcase
      rw [record_cases] at hcase
      have htail := h.tail c case hcase hblocked
      apply tail_update fun j _ => htail j
      apply (htail i).mark hedge
      rintro rfl
      exact h.fresh.admitted (htail i) hop hedge hcase hblocked
    · rw [Function.update_self]
      exact h.fresh.mark hedge
  settled _ _ _ h := h.toBlockInvariant

/-- The case is blocked as long as it is stored. -/
structure StaysBlocked (c : UUID) (s : Store) : Prop where
  drawn : c < s.nextUuid
  blocked : ∀ case, s.cases.get? c = some case → case.status = .hardBlocked

/-- A blocked case stays blocked along a call. -/
theorem StaysBlocked.call {env : EngineEnvironment} {φ : ℕ → Phase} {w : EngineWorld} {i : ℕ}
    {op : EngineOp} {m : Phase} {call : EngineCall} {r : Except PyError call.Reply} {s' : Store}
    {c : UUID} (h : StaysBlocked c w.store) (hinv : BlockInvariant φ w)
    (hedge : Edge env op (φ i) call r m) (hw : Writes env w.store call r s') : StaysBlocked c s' := by
  refine ⟨Nat.lt_of_lt_of_le h.drawn hw.nextUuid_le, fun case hcase => ?_⟩
  cases hw.caseChange hcase with
  | kept _ _ _ hold => exact h.blocked case hold
  | created => exact absurd h.drawn (Nat.lt_irrefl _)
  | recommended _ _ old hold | reviewed _ old hold => exact h.blocked old hold
  | status _ status old hold => exact (hinv.tail c old hold (h.blocked old hold) i).setStatus hedge

/-- Once a case is blocked it stays blocked until it is deleted, in every run of requests in which
whoever blocks a case is alone with it and the blocking run does not raise. -/
theorem hardBlocked_stays_of_blocksCleanly (env : EngineEnvironment) (bank : SyntheticBank)
    (p q : EnginePool)
    (hreach : (engineSystem env).Reaches BlocksCleanly (idleEngine bank) p)
    (hlater : (engineSystem env).Reaches BlocksCleanly p q) (c : UUID) (case case' : CaseData)
    (hcase : p.world.store.cases.get? c = some case) (hblocked : case.status = .hardBlocked)
    (hcase' : q.world.store.cases.get? c = some case') : case'.status = .hardBlocked := by
  have hidle : BlockInvariant (fun _ => .idle false) (idleEngine bank).world :=
    ⟨filed_empty, Registered.idle _, fun _ _ h => by cases h⟩
  obtain ⟨φ, htraces, hinv⟩ := (block_keeps env).reaches (requestChart_covers env)
    (idleEngine_requests env bank) hidle hreach
  have hstays : StaysBlocked c p.world.store := by
    refine ⟨(hinv.filed.keyed c case hcase).2, fun stored hstored => ?_⟩
    rw [hcase] at hstored
    cases hstored
    exact hblocked
  have hkeeps := (block_keeps env).along (A := fun w => StaysBlocked c w.store)
    (fun i op w h => ⟨(enroll_nextUuid op w).symm ▸ h.drawn, (enroll_cases op w).symm ▸ h.blocked⟩)
    (fun n w h => ⟨(record_nextUuid n w).symm ▸ h.drawn, (record_cases n w).symm ▸ h.blocked⟩)
    (fun p i o op call φ m _ hinv h hedge => h.call hinv hedge (perform_writes env p.world o call))
  obtain ⟨-, -, -, hq⟩ := hkeeps.reaches (requestChart_covers env) htraces ⟨hinv, hstays⟩ hlater
  exact hq.blocked case' hcase'

/-- A security event of the first case. -/
def sampleEvent : EngineOp := .recordSecurityEvent 0 "prohibited_action_execution"

/-- Whether the first case has a status. -/
def sampleStatus (status : CaseStatus) (p : EnginePool) : Bool :=
  (p.world.store.cases.get? 0).any fun case => case.status = status

/-- A case that a security event has blocked is still blocked after a review request. -/
theorem hardBlocked_stays_of_blocksCleanly_refused :
    ∃ p q case case', (engineSystem (sampleEnvironment .postgres)).Reaches BlocksCleanly
        (idleEngine sampleBank) p ∧
      (engineSystem (sampleEnvironment .postgres)).Reaches BlocksCleanly p q ∧
        p.world.store.cases.get? 0 = some case ∧ case.status = .hardBlocked ∧
          q.world.store.cases.get? 0 = some case' ∧ case'.status = .hardBlocked := by
  have hcheck (p : EnginePool) (m : Move EngineOp EngineDraws)
      (h : decide (BlocksCleanly p m) = true) : BlocksCleanly p m := of_decide_eq_true h
  obtain ⟨p, hreach, htest⟩ := System.exists_reaches (engineSystem (sampleEnvironment .postgres))
    _ hcheck (idleEngine sampleBank)
    (undisturbed 0 sampleStart 34 ++ undisturbed 1 sampleEvent 7)
    (fun p => sampleStatus .hardBlocked p &&
      ((engineSystem (sampleEnvironment .postgres)).runChecked (fun p m => decide (BlocksCleanly p m))
        p (undisturbed 2 (.review sampleApproval) 1)).any fun q =>
          (q.world.store.cases.get? 0).isSome)
    (by decide +kernel)
  obtain ⟨hblocked, hlater⟩ := Bool.and_eq_true_iff.mp htest
  obtain ⟨q, hq, hsome⟩ := System.exists_reaches (engineSystem (sampleEnvironment .postgres))
    _ hcheck p (undisturbed 2 (.review sampleApproval) 1)
    (fun q => (q.world.store.cases.get? 0).isSome) hlater
  obtain ⟨case, hcase, hstatus⟩ := (Option.any_eq_true _ _).mp hblocked
  obtain ⟨case', hcase'⟩ := Option.isSome_iff_exists.mp hsome
  have hhard : case.status = .hardBlocked := of_decide_eq_true hstatus
  exact ⟨p, q, case, case', hreach, hq, hcase, hhard, hcase',
    hardBlocked_stays_of_blocksCleanly _ _ p q hreach hq 0 case case' hcase hhard hcase'⟩

/-- A security event blocks a case while `load_and_retrieve` is about to set its status: the case
is `RUNNING` again in the next step. -/
theorem hardBlock_overwritten_by_run :
    ¬∀ p q c case case', (engineSystem (sampleEnvironment .postgres)).Reaches Faultless
        (idleEngine sampleBank) p →
      (engineSystem (sampleEnvironment .postgres)).Reaches Faultless p q →
        p.world.store.cases.get? c = some case → case.status = .hardBlocked →
          q.world.store.cases.get? c = some case' → case'.status = .hardBlocked := by
  have hcheck (p : EnginePool) (m : Move EngineOp EngineDraws)
      (h : decide (Faultless p m) = true) : Faultless p m := of_decide_eq_true h
  obtain ⟨p, hreach, htest⟩ := System.exists_reaches (engineSystem (sampleEnvironment .postgres))
    _ hcheck (idleEngine sampleBank) (undisturbed 0 sampleStart 4 ++ undisturbed 1 sampleEvent 4)
    (fun p => sampleStatus .hardBlocked p &&
      ((engineSystem (sampleEnvironment .postgres)).runChecked (fun p m => decide (Faultless p m))
        p [.advance 0 quietDraws]).any (sampleStatus .running))
    (by decide +kernel)
  obtain ⟨hblocked, hlater⟩ := Bool.and_eq_true_iff.mp htest
  obtain ⟨q, hq, hrunning⟩ := System.exists_reaches (engineSystem (sampleEnvironment .postgres))
    _ hcheck p [.advance 0 quietDraws] (sampleStatus .running) hlater
  obtain ⟨case, hcase, hstatus⟩ := (Option.any_eq_true _ _).mp hblocked
  obtain ⟨case', hcase', hstatus'⟩ := (Option.any_eq_true _ _).mp hrunning
  intro hall
  have hhard := hall p q 0 case case' hreach hq hcase (of_decide_eq_true hstatus) hcase'
  rw [of_decide_eq_true hstatus'] at hhard
  cases hhard

end Amlguard
