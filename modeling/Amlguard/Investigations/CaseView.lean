import Amlguard.Investigations.CaseScope
import Amlguard.Library.Pool

/-!
# What an owner sees of the engine

An owner has some of the cases. What it sees of the engine is these cases, their threads, the tools
that were executed for them and the trajectories of their runs, an event that shows the log being seen
with the executions of its own case.

Calls for the cases of others leave this as it is, and calls for its own cases are answered by it alone:
in two worlds that look the same to the owner they return the same and lead to worlds that do.
-/

namespace Amlguard

open Awaited

/-- The event as the case sees it, without the executions of others. -/
def TrajectoryEvent.seenBy (c : UUID) : TrajectoryEvent → TrajectoryEvent
  | .evidenceRetrieved evidence log => .evidenceRetrieved evidence (executionsOf c log)
  | event => event

/-- The trajectory of the run of a case, as the case sees it. -/
def EngineWorld.traceOf (backend : RepositoryBackend) (c : UUID) (w : EngineWorld) :
    List TrajectoryEvent :=
  (w.trajectory.filter fun entry => entry.1 == backend.runIdOf c).map fun entry => entry.2.seenBy c

/-- Two worlds look the same to the owner of some cases. -/
structure OwnAlike (backend : RepositoryBackend) (own : UUID → Bool) (w w' : EngineWorld) : Prop where
  bank : w.bank = w'.bank
  cases : w.store.cases.restrict own = w'.store.cases.restrict own
  threads : w.store.threads.restrict own = w'.store.threads.restrict own
  executions : ∀ c, own c = true → executionsOf c w.executions = executionsOf c w'.executions
  trajectory : ∀ c, own c = true → w.traceOf backend c = w'.traceOf backend c

namespace OwnAlike

variable {backend : RepositoryBackend} {own : UUID → Bool} {w w' w'' : EngineWorld}

theorem refl (w : EngineWorld) : OwnAlike backend own w w :=
  ⟨rfl, rfl, rfl, fun _ _ => rfl, fun _ _ => rfl⟩

theorem symm (h : OwnAlike backend own w w') : OwnAlike backend own w' w :=
  ⟨h.bank.symm, h.cases.symm, h.threads.symm, fun c hc => (h.executions c hc).symm,
    fun c hc => (h.trajectory c hc).symm⟩

theorem trans (h : OwnAlike backend own w w') (h' : OwnAlike backend own w' w'') :
    OwnAlike backend own w w'' :=
  ⟨h.bank.trans h'.bank, h.cases.trans h'.cases, h.threads.trans h'.threads,
    fun c hc => (h.executions c hc).trans (h'.executions c hc),
    fun c hc => (h.trajectory c hc).trans (h'.trajectory c hc)⟩

/-- A world that differs in nothing that is seen. -/
theorem of_eq (hbank : w.bank = w'.bank) (hcases : w.store.cases = w'.store.cases)
    (hthreads : w.store.threads = w'.store.threads) (hexecutions : w.executions = w'.executions)
    (htrajectory : w.trajectory = w'.trajectory) : OwnAlike backend own w w' :=
  ⟨hbank, congrArg _ hcases, congrArg _ hthreads, fun c _ => congrArg (executionsOf c) hexecutions,
    fun c _ => by rw [EngineWorld.traceOf, EngineWorld.traceOf, htrajectory]⟩

end OwnAlike

/-- The marks that are seen: the log of the tools. -/
def EngineMark.seen : EngineMark → Bool
  | .executed _ => true
  | _ => false

section Marks

variable {backend : RepositoryBackend} {own : UUID → Bool} {w w' : EngineWorld}

/-- A mark that is not seen. -/
theorem OwnAlike.unseen {n : EngineMark} (hn : n.seen = false) (w : EngineWorld) :
    OwnAlike backend own (w.record n) w := by
  cases n with
  | executed => cases hn
  | admitted | loaded | resetting | left | drafted | decided | reviewed =>
    exact of_eq rfl rfl rfl rfl rfl

/-- A mark leads from worlds that look the same to such worlds. -/
theorem OwnAlike.record (h : OwnAlike backend own w w') (n : EngineMark) :
    OwnAlike backend own (w.record n) (w'.record n) := by
  by_cases hn : n.seen = false
  · exact (unseen hn w).trans (h.trans (unseen hn w').symm)
  · cases n with
    | executed execution =>
      refine ⟨h.bank, h.cases, h.threads, fun c hc => ?_, h.trajectory⟩
      change executionsOf c (w.executions ++ [execution]) = executionsOf c (w'.executions ++ [execution])
      rw [executionsOf, executionsOf, List.filter_append, List.filter_append]
      exact congrArg (· ++ _) (h.executions c hc)
    | admitted | loaded | resetting | left | drafted | decided | reviewed => exact absurd rfl hn

/-- A tool that is executed for the case of another is not seen. -/
theorem OwnAlike.record_foreign {c : UUID} (hc : own c = false) {n : EngineMark} (hn : n.OfCase c) :
    OwnAlike backend own w (w.record n) := by
  cases n with
  | executed execution =>
    refine ⟨rfl, rfl, rfl, fun c' hc' => ?_, fun _ _ => rfl⟩
    have hne : execution.caseId ≠ c' := by
      intro heq
      rw [← heq, hn, hc] at hc'
      cases hc'
    change executionsOf c' w.executions = executionsOf c' (w.executions ++ [execution])
    simp [executionsOf, List.filter_append, hne]
  | admitted | loaded | resetting | left | drafted | decided | reviewed => exact (unseen rfl w).symm

/-- Enrolling an operation is not seen. -/
theorem OwnAlike.enroll (op : EngineOp) (w : EngineWorld) : OwnAlike backend own (op.enroll w) w := by
  cases op <;> exact of_eq rfl rfl rfl rfl rfl

end Marks

section Programs

open LangGraphInvestigationEngine

variable {env : EngineEnvironment} {α : Type}

/-- What is seen of a program of the engine. -/
abbrev sightOf (p : Investigation α) : Investigation α := p.sight EngineMark.seen

/-- Nothing is seen of the marks of the history. -/
theorem sight_jot {n n' : EngineMark} (hn : n.seen = false) (hn' : n'.seen = false) :
    sightOf (jot n) = sightOf (jot n') :=
  (Prog.sight_note hn).trans (Prog.sight_note hn').symm

/-- Nothing is seen of which task a run is the run of. -/
theorem sight_ainvoke (i j : ℕ) (thread : UUID) (input : GraphInput) :
    sightOf (ainvoke env i thread input) = sightOf (ainvoke env j thread input) := by
  apply Prog.sight_bind_congr rfl
  intro saved
  apply Prog.sight_bind_congr
  · exact sight_jot rfl rfl
  · intro _
    rfl

/-- Nothing is seen of which task has left. -/
theorem sight_leaving (i j : ℕ) (c : UUID) {p q : Investigation α} (h : sightOf p = sightOf q) :
    sightOf (Prog.finally' p (jot (.left i c))) = sightOf (Prog.finally' q (jot (.left j c))) :=
  Prog.sight_finally'_congr h (sight_jot rfl rfl)

/-- Nothing is seen of which task has been admitted. -/
theorem sight_admittedTo (i j : ℕ) (c : UUID) {p q : Investigation α} (h : sightOf p = sightOf q) :
    sightOf (admittedTo i c p) = sightOf (admittedTo j c q) := by
  apply Prog.sight_bind_congr
  · exact sight_jot rfl rfl
  · intro _
    exact sight_leaving i j c h

theorem sight_runPrepared (i j : ℕ) (case : CaseData) (actorId contextCondition : String) :
    sightOf (runPrepared env i case actorId contextCondition) =
      sightOf (runPrepared env j case actorId contextCondition) :=
  Prog.sight_bind_congr (sight_admittedTo i j _ (sight_ainvoke i j _ _)) fun _ => rfl

theorem sight_runUiInvestigation (i j : ℕ) (case : CaseData) (actorId contextCondition : String) :
    sightOf (runUiInvestigation env i case actorId contextCondition) =
      sightOf (runUiInvestigation env j case actorId contextCondition) :=
  Prog.sight_suppress_congr
    (Prog.sight_bind_congr (sight_runPrepared i j case actorId contextCondition) fun _ => rfl)

/-- A case is resumed, and nothing is seen of by which task. -/
theorem sight_resume (i j : ℕ) (case : CaseData) (value : Resume) :
    sightOf (do
      admittedTo i case.caseId (ainvoke env i case.caseId (.resume value))
      toRun case.caseId) =
    sightOf (do
      admittedTo j case.caseId (ainvoke env j case.caseId (.resume value))
      toRun case.caseId) :=
  Prog.sight_bind_congr (sight_admittedTo i j _ (sight_ainvoke i j _ _)) fun _ => rfl

theorem sight_start (i j : ℕ) (alertId actorId tenantId contextCondition : String) :
    sightOf (start env i alertId actorId tenantId contextCondition) =
      sightOf (start env j alertId actorId tenantId contextCondition) := by
  apply Prog.sight_bind_congr rfl
  intro prepared
  split
  · exact sight_runPrepared i j _ _ _
  · rfl

theorem sight_uiStart (i j : ℕ) (alertId actorId tenantId contextCondition : String) :
    sightOf (uiStart env i alertId actorId tenantId contextCondition) =
      sightOf (uiStart env j alertId actorId tenantId contextCondition) := by
  apply Prog.sight_bind_congr rfl
  intro prepared
  split
  · exact sight_runUiInvestigation i j _ _ _
  · apply Prog.sight_bind_congr rfl
    intro case
    split
    · apply sight_admittedTo
      apply Prog.sight_bind_congr rfl
      intro _
      exact sight_runUiInvestigation i j _ _ _
    · rfl

theorem sight_reset (i j : ℕ) (c : UUID) (actorId : String) :
    sightOf (reset i c actorId) = sightOf (reset j c actorId) := by
  apply Prog.sight_bind_congr rfl
  intro case
  apply Prog.sight_bind_congr rfl
  intro _
  apply Prog.sight_bind_congr
  · exact sight_jot rfl rfl
  · intro _
    exact Prog.sight_bind_congr (sight_leaving i j c rfl) fun _ => rfl

/-- Nothing is seen of which task a program is the program of. -/
theorem sight_program (env : EngineEnvironment) (i j : ℕ) (op : EngineOp) :
    sightOf (op.program env i) = sightOf (op.program env j) := by
  have hdiscard {p q : Investigation InvestigationRun} (h : sightOf p = sightOf q) :
      sightOf (EngineOp.discard p) = sightOf (EngineOp.discard q) :=
    Prog.sight_bind_congr h fun _ => rfl
  cases op with
  | start alertId actorId tenantId contextCondition =>
    exact hdiscard (sight_start i j alertId actorId tenantId contextCondition)
  | uiStart alertId actorId tenantId contextCondition =>
    exact sight_uiStart i j alertId actorId tenantId contextCondition
  | runPrepared case actorId contextCondition =>
    exact hdiscard (sight_runPrepared i j case actorId contextCondition)
  | review request =>
    apply hdiscard
    apply Prog.sight_bind_congr rfl
    intro case
    apply Prog.sight_bind_congr rfl
    intro _
    apply Prog.sight_bind_congr rfl
    intro _
    exact sight_resume i j case (.review request)
  | supplyInformation c submission =>
    apply hdiscard
    apply Prog.sight_bind_congr rfl
    intro case
    apply Prog.sight_bind_congr rfl
    intro _
    exact sight_resume i j case (.information submission)
  | recordSecurityEvent | get => rfl
  | reset c actorId => exact Prog.sight_bind_congr (sight_reset i j c actorId) fun _ => rfl

end Programs

section Stores

variable {backend : RepositoryBackend} {own : UUID → Bool} {w w' : EngineWorld} {s s' : Store}

/-- Two stores look the same to the owner. -/
structure Store.Alike (own : UUID → Bool) (s s' : Store) : Prop where
  cases : s.cases.restrict own = s'.cases.restrict own
  threads : s.threads.restrict own = s'.threads.restrict own

theorem Store.Alike.refl (s : Store) : Store.Alike own s s := ⟨rfl, rfl⟩

theorem OwnAlike.store (h : OwnAlike backend own w w') : Store.Alike own w.store w'.store :=
  ⟨h.cases, h.threads⟩

/-- Worlds whose stores are replaced by ones that look the same. -/
theorem OwnAlike.onStore (h : OwnAlike backend own w w') {α : Type} {r r' : Except PyError α × Store}
    (hstore : Store.Alike own r.2 r'.2) :
    OwnAlike backend own (w.onStore r).2 (w'.onStore r').2 :=
  ⟨h.bank, hstore.cases, hstore.threads, h.executions, h.trajectory⟩

/-- The owner reads the same case. -/
theorem Store.Alike.case (h : Store.Alike own s s') {c : UUID} (hc : own c = true) :
    s.cases.get? c = s'.cases.get? c := by
  rw [← Dict.get?_restrict_of_own s.cases hc, h.cases, Dict.get?_restrict_of_own _ hc]

/-- The owner reads the same thread. -/
theorem Store.Alike.thread (h : Store.Alike own s s') {c : UUID} (hc : own c = true) :
    s.threads.get? c = s'.threads.get? c := by
  rw [← Dict.get?_restrict_of_own s.threads hc, h.threads, Dict.get?_restrict_of_own _ hc]

/-- The same case is stored in both. -/
theorem Store.Alike.setCase (h : Store.Alike own s s') (c : UUID) (case : CaseData) :
    Store.Alike own { s with cases := s.cases.set c case }
      { s' with cases := s'.cases.set c case } := by
  refine ⟨?_, h.threads⟩
  change (s.cases.set c case).restrict own = (s'.cases.set c case).restrict own
  rw [Dict.restrict_set, Dict.restrict_set, h.cases]

/-- The same thread is stored in both. -/
theorem Store.Alike.setThread (h : Store.Alike own s s') (c : UUID) (checkpoint : Checkpoint) :
    Store.Alike own { s with threads := s.threads.set c checkpoint }
      { s' with threads := s'.threads.set c checkpoint } := by
  refine ⟨h.cases, ?_⟩
  change (s.threads.set c checkpoint).restrict own = (s'.threads.set c checkpoint).restrict own
  rw [Dict.restrict_set, Dict.restrict_set, h.threads]

/-- The case of another is stored. -/
theorem Store.Alike.setForeignCase {c : UUID} (hc : own c = false) (s : Store) (case : CaseData) :
    Store.Alike own s { s with cases := s.cases.set c case } := by
  refine ⟨?_, rfl⟩
  change s.cases.restrict own = (s.cases.set c case).restrict own
  rw [Dict.restrict_set, hc, if_neg Bool.false_ne_true]

/-- The thread of another is stored. -/
theorem Store.Alike.setForeignThread {c : UUID} (hc : own c = false) (s : Store)
    (checkpoint : Checkpoint) :
    Store.Alike own s { s with threads := s.threads.set c checkpoint } := by
  refine ⟨rfl, ?_⟩
  change s.threads.restrict own = (s.threads.set c checkpoint).restrict own
  rw [Dict.restrict_set, hc, if_neg Bool.false_ne_true]

/-- A case of the owner is changed in the same way. -/
theorem Store.Alike.updateCase (h : Store.Alike own s s') {α : Type} {c : UUID} (hc : own c = true)
    (missing : PyError) {change change' : CaseData → Except PyError (α × CaseData)}
    (hchange : ∀ case, s.cases.get? c = some case → change case = change' case) :
    (s.updateCase c missing change).1 = (s'.updateCase c missing change').1 ∧
      Store.Alike own (s.updateCase c missing change).2 (s'.updateCase c missing change').2 := by
  unfold Store.updateCase
  rw [← h.case hc]
  cases hcase : s.cases.get? c with
  | none => exact ⟨rfl, h⟩
  | some case =>
    dsimp only
    rw [hchange case hcase]
    cases change' case with
    | error e => exact ⟨rfl, h⟩
    | ok changed => exact ⟨rfl, h.setCase c changed.2⟩

/-- The case of another is changed. -/
theorem Store.Alike.updateForeignCase {α : Type} {c : UUID} (hc : own c = false) (s : Store)
    (missing : PyError) (change : CaseData → Except PyError (α × CaseData)) :
    Store.Alike own s (s.updateCase c missing change).2 := by
  rcases updateCase_cases c missing change with ⟨e, heq⟩ | ⟨case, a, case', hcase, hchange, heq⟩
  · rw [heq]
    exact .refl s
  · rw [heq]
    exact .setForeignCase hc s case'

end Stores

section Calls

variable {env : EngineEnvironment} {own : UUID → Bool} {w w' : EngineWorld} {draws : EngineDraws}
  {c : UUID}

/-- An event of the run of another case is not seen. -/
theorem OwnAlike.recordForeign (hc : own c = false) (w : EngineWorld) (event : TrajectoryEvent) :
    OwnAlike env.backend own w
      { w with trajectory := w.trajectory ++ [(env.backend.runIdOf c, event)] } := by
  refine ⟨rfl, rfl, rfl, fun _ _ => rfl, fun c' hc' => ?_⟩
  have hne : c ≠ c' := by
    rintro rfl
    rw [hc] at hc'
    cases hc'
  simp [EngineWorld.traceOf, List.filter_append, RepositoryBackend.runIdOf_inj, hne]

/-- Events that look the same are recorded. -/
theorem OwnAlike.recordEvent (h : OwnAlike env.backend own w w') (runId : UUID)
    (event event' : TrajectoryEvent)
    (hevent : ∀ c, own c = true → runId = env.backend.runIdOf c → event.seenBy c = event'.seenBy c) :
    OwnAlike env.backend own { w with trajectory := w.trajectory ++ [(runId, event)] }
      { w' with trajectory := w'.trajectory ++ [(runId, event')] } := by
  refine ⟨h.bank, h.cases, h.threads, h.executions, fun c hc => ?_⟩
  have htrace := h.trajectory c hc
  unfold EngineWorld.traceOf at htrace ⊢
  rw [List.filter_append, List.filter_append, List.map_append, List.map_append, htrace]
  by_cases hrun : runId = env.backend.runIdOf c
  · simp [hrun, hevent c hc hrun]
  · simp [hrun]

/-- A call for the case of another is not seen. -/
theorem OwnAlike.effect_foreign (hc : own c = false) {call : EngineCall}
    (hcall : call.OfCase env.backend c) (w : EngineWorld) :
    OwnAlike env.backend own w (w.effect env draws call).2 := by
  have honStore {α : Type} {r : Except PyError α × Store} (h : Store.Alike own w.store r.2) :
      OwnAlike env.backend own w (w.onStore r).2 :=
    ⟨rfl, h.cases, h.threads, fun _ _ => rfl, fun _ _ => rfl⟩
  have hstore {s : Store} (h : Store.Alike own w.store s) :
      OwnAlike env.backend own w { w with store := s } := honStore (r := (.ok (), s)) h
  cases call with
  | createCase => exact hcall.elim
  | deleteCase c' =>
    obtain rfl : c' = c := hcall
    apply honStore
    unfold Store.deleteCase
    cases hcase : w.store.cases.get? c' with
    | none => exact .refl _
    | some case =>
      refine ⟨?_, rfl⟩
      change w.store.cases.restrict own = (w.store.cases.erase c').restrict own
      rw [Dict.restrict_erase, Dict.erase_of_none]
      rw [Dict.get?_restrict, hc, if_neg Bool.false_ne_true]
  | saveRecommendation c' recommendation =>
    obtain rfl : c' = c := hcall
    exact honStore (.updateForeignCase hc _ _ _)
  | saveReview review =>
    obtain rfl : review.caseId = c := hcall
    exact honStore (.updateForeignCase hc _ _ _)
  | setStatus c' status =>
    obtain rfl : c' = c := hcall
    exact honStore (.updateForeignCase hc _ _ _)
  | putCheckpoint c' checkpoint =>
    obtain ⟨rfl, -⟩ := hcall
    exact hstore (.setForeignThread hc _ checkpoint)
  | updateState c' securityEvents hardBlocks =>
    obtain rfl : c' = c := hcall
    exact hstore (.setForeignThread hc _ _)
  | deleteThread c' =>
    obtain rfl : c' = c := hcall
    apply hstore
    refine ⟨rfl, ?_⟩
    change w.store.threads.restrict own = (w.store.threads.erase c').restrict own
    rw [Dict.restrict_erase, Dict.erase_of_none]
    rw [Dict.get?_restrict, hc, if_neg Bool.false_ne_true]
  | trajectoryHook runId event =>
    obtain ⟨rfl, -⟩ := hcall
    exact .recordForeign hc w event
  | audit => exact of_eq rfl rfl rfl rfl rfl
  | getCase | getAlert | getCustomer | getKyc | getTransactions | stageHook | recommend | uuid4
    | toolExecutions | loadCheckpoint | getState => exact .refl w

/-- A call for the case of another is not seen, whether it fails from outside or not. -/
theorem OwnAlike.perform_foreign (hc : own c = false) {call : EngineCall}
    (hcall : call.OfCase env.backend c) (w : EngineWorld) :
    OwnAlike env.backend own w (w.perform env draws call).2 := by
  rcases engine_perform_cases env w draws call with heq | ⟨_, e, heq | heq⟩
  · rw [heq]
    exact .effect_foreign hc hcall w
  · rw [heq]
    exact .refl w
  · rw [heq]
    exact .effect_foreign hc hcall w

end Calls

/-- The stored cases of a tenant are those that it owns. -/
def Store.OwnedBy (own : UUID → Bool) (tenantId : String) (s : Store) : Prop :=
  ∀ c case, s.cases.get? c = some case → (own c = true ↔ case.tenantId = tenantId)

/-- The ID of a review is that of no review of another. -/
def Store.ReviewApart (own : UUID → Bool) (s : Store) (review : HumanReview) : Prop :=
  ∀ c case, s.cases.get? c = some case → own c = false →
    ∀ stored ∈ case.reviews, stored.reviewId ≠ review.reviewId

section Lockstep

variable {env : EngineEnvironment} {own : UUID → Bool} {w w' : EngineWorld} {s s' : Store}
  {draws : EngineDraws} {c : UUID}

/-- A review ID that is taken is taken by a review of the owner, in both stores. -/
theorem Store.Alike.reviewIdTaken (h : Store.Alike own s s') {backend : RepositoryBackend}
    {review : HumanReview} (hapart : backend = .postgres → s.ReviewApart own review)
    (htaken : s.reviewIdTaken backend review) :
    s'.reviewIdTaken backend review := by
  obtain ⟨hbackend, case, hmem, stored, hstored, hid⟩ := htaken
  refine ⟨hbackend, case, ?_, stored, hstored, hid⟩
  obtain ⟨k, hcase⟩ := s.cases.exists_get?_of_mem_values hmem
  have hown : own k = true := by
    by_contra hnot
    exact hapart hbackend k case hcase (Bool.eq_false_iff.mpr hnot) stored hstored hid
  rw [h.case hown] at hcase
  exact s'.cases.mem_values_of_get? hcase

/-- The case of the tenant for an alert is found among its own. -/
theorem Store.Alike.existingCase (h : Store.Alike own s s') {tenantId : String}
    (hs : s.OwnedBy own tenantId) (hs' : s'.OwnedBy own tenantId) (alertId investigatorId : String) :
    s.existingCase alertId tenantId investigatorId = s'.existingCase alertId tenantId investigatorId := by
  have hfind (t : Store) (ht : t.OwnedBy own tenantId) :
      (t.cases.values.find? fun case => case.alertId == alertId && case.tenantId == tenantId) =
        (t.cases.restrict own).values.find? fun case =>
          case.alertId == alertId && case.tenantId == tenantId := by
    refine (t.cases.find?_restrict _ fun k case hcase hp => (ht k case hcase).mpr ?_).symm
    rw [Bool.and_eq_true] at hp
    exact eq_of_beq hp.2
  unfold Store.existingCase
  rw [hfind s hs, hfind s' hs', h.cases]

/-- A case is created or located alike, when the same UUID is drawn for it. -/
theorem Store.Alike.createCase (env : EngineEnvironment) (h : Store.Alike own s s') {tenantId : String}
    (hs : s.OwnedBy own tenantId) (hs' : s'.OwnedBy own tenantId) (hdrawn : s.nextUuid = s'.nextUuid)
    (bank : SyntheticBank) (alertId investigatorId : String) :
    (s.createCase env bank alertId tenantId investigatorId).1 =
        (s'.createCase env bank alertId tenantId investigatorId).1 ∧
      Store.Alike own (s.createCase env bank alertId tenantId investigatorId).2
        (s'.createCase env bank alertId tenantId investigatorId).2 := by
  have hresolve : s.resolveCase env bank alertId tenantId investigatorId =
      s'.resolveCase env bank alertId tenantId investigatorId := by
    simp only [Store.resolveCase, h.existingCase hs hs' alertId investigatorId]
  unfold Store.createCase
  rw [hresolve]
  split
  · exact ⟨rfl, h⟩
  · exact ⟨rfl, h⟩
  · rename_i alert _
    have hnew : s.newCase env.backend alert tenantId investigatorId =
        s'.newCase env.backend alert tenantId investigatorId := by
      simp only [Store.newCase, hdrawn]
    have hset := h.setCase (s'.newCase env.backend alert tenantId investigatorId).caseId
      (s'.newCase env.backend alert tenantId investigatorId)
    dsimp only
    rw [hnew]
    exact ⟨rfl, hset.cases, hset.threads⟩

/-- A call for a case of the owner has the same effect in worlds that look the same to it. -/
theorem OwnAlike.effect (h : OwnAlike env.backend own w w') (draws : EngineDraws) (hc : own c = true)
    {call : EngineCall}
    (hplain : call.Plain) (hcall : call.OfCase env.backend c)
    (hids : ∀ review, call = .saveReview review → env.backend = .postgres →
      w.store.ReviewApart own review ∧ w'.store.ReviewApart own review) :
    (w.effect env draws call).1 = (w'.effect env draws call).1 ∧
      OwnAlike env.backend own (w.effect env draws call).2 (w'.effect env draws call).2 := by
  have honStore {α : Type} {r r' : Except PyError α × Store} (hr : r.1 = r'.1)
      (hstore : Store.Alike own r.2 r'.2) :
      (w.onStore r).1 = (w'.onStore r').1 ∧ OwnAlike env.backend own (w.onStore r).2 (w'.onStore r').2 :=
    ⟨hr, h.onStore hstore⟩
  have hupdate {α : Type} {r r' : Except PyError α × Store}
      (hr : r.1 = r'.1 ∧ Store.Alike own r.2 r'.2) :
      (w.onStore r).1 = (w'.onStore r').1 ∧ OwnAlike env.backend own (w.onStore r).2 (w'.onStore r').2 :=
    honStore hr.1 hr.2
  have hwrite {t t' : Store} (ht : Store.Alike own t t') :
      (.ok () : Except PyError Unit) = .ok () ∧
        OwnAlike env.backend own { w with store := t } { w' with store := t' } :=
    ⟨rfl, h.bank, ht.cases, ht.threads, h.executions, h.trajectory⟩
  cases call with
  | createCase => exact hcall.elim
  | toolExecutions => exact hplain.elim
  | getCase c' =>
    obtain rfl : c' = c := hcall
    simp only [EngineWorld.effect, h.store.case hc]
    exact ⟨trivial, h⟩
  | deleteCase c' =>
    obtain rfl : c' = c := hcall
    apply hupdate
    unfold Store.deleteCase
    rw [h.store.case hc]
    cases w'.store.cases.get? c' with
    | none => exact ⟨rfl, h.store⟩
    | some case =>
      refine ⟨rfl, ?_, h.threads⟩
      change (w.store.cases.erase c').restrict own = (w'.store.cases.erase c').restrict own
      rw [Dict.restrict_erase, Dict.restrict_erase, h.cases]
  | getAlert | getCustomer | getKyc | getTransactions =>
    simp only [EngineWorld.effect, h.bank]
    exact ⟨trivial, h⟩
  | saveRecommendation c' recommendation =>
    obtain rfl : c' = c := hcall
    exact hupdate (h.store.updateCase hc _ fun _ _ => rfl)
  | saveReview review =>
    obtain rfl : review.caseId = c := hcall
    have htaken : w.store.reviewIdTaken env.backend review ↔ w'.store.reviewIdTaken env.backend review :=
      ⟨h.store.reviewIdTaken fun hbackend => (hids review rfl hbackend).1,
        h.symm.store.reviewIdTaken fun hbackend => (hids review rfl hbackend).2⟩
    apply hupdate
    apply h.store.updateCase hc
    intro case _
    simp only [raiseIf, htaken]
  | setStatus c' status =>
    obtain rfl : c' = c := hcall
    exact hupdate (h.store.updateCase hc _ fun _ _ => rfl)
  | audit eventType actorId c' payload =>
    have haudit (w : EngineWorld) :
        OwnAlike env.backend own w (w.audit env eventType actorId c' payload) := of_eq rfl rfl rfl rfl rfl
    exact ⟨rfl, (haudit w).symm.trans (h.trans (haudit w'))⟩
  | trajectoryHook runId event => exact ⟨rfl, h.recordEvent runId event event fun _ _ _ => rfl⟩
  | stageHook | recommend | uuid4 => exact ⟨rfl, h⟩
  | loadCheckpoint c' input =>
    obtain rfl : c' = c := hcall
    simp only [EngineWorld.effect, h.store.thread hc]
    exact ⟨trivial, h⟩
  | putCheckpoint c' checkpoint =>
    exact hwrite (h.store.setThread c' checkpoint)
  | getState c' =>
    obtain rfl : c' = c := hcall
    simp only [EngineWorld.effect, h.store.thread hc]
    exact ⟨trivial, h⟩
  | updateState c' securityEvents hardBlocks =>
    obtain rfl : c' = c := hcall
    apply hwrite
    unfold Store.updateState
    rw [h.store.thread hc]
    exact h.store.setThread c' _
  | deleteThread c' =>
    apply hwrite
    refine ⟨h.cases, ?_⟩
    change (w.store.threads.erase c').restrict own = (w'.store.threads.erase c').restrict own
    rw [Dict.restrict_erase, Dict.restrict_erase, h.threads]

/-- A call that has the same effect is answered alike, whether it fails from outside or not. -/
theorem OwnAlike.perform (h : OwnAlike env.backend own w w') {draws : EngineDraws} {call : EngineCall}
    (heffect : (w.effect env draws call).1 = (w'.effect env draws call).1 ∧
      OwnAlike env.backend own (w.effect env draws call).2 (w'.effect env draws call).2) :
    (w.perform env draws call).1 = (w'.perform env draws call).1 ∧
      OwnAlike env.backend own (w.perform env draws call).2 (w'.perform env draws call).2 := by
  unfold EngineWorld.perform
  split
  · exact ⟨rfl, h⟩
  · exact ⟨rfl, heffect.2⟩
  · exact heffect

/-- Two logs that hold the same executions of a case of the owner are shown alike. -/
theorem OwnAlike.perform_show (h : OwnAlike env.backend own w w') (draws : EngineDraws)
    (evidence : List EvidenceItem) {log log' : List ToolExecution}
    (hlog : executionsOf c log = executionsOf c log') :
    (w.perform env draws
        (.trajectoryHook (env.backend.runIdOf c) (.evidenceRetrieved evidence log))).1 =
      (w'.perform env draws
        (.trajectoryHook (env.backend.runIdOf c) (.evidenceRetrieved evidence log'))).1 ∧
    OwnAlike env.backend own
      (w.perform env draws
        (.trajectoryHook (env.backend.runIdOf c) (.evidenceRetrieved evidence log))).2
      (w'.perform env draws
        (.trajectoryHook (env.backend.runIdOf c) (.evidenceRetrieved evidence log'))).2 := by
  have hshown := h.recordEvent (env.backend.runIdOf c) (.evidenceRetrieved evidence log)
    (.evidenceRetrieved evidence log') fun c' _ hrun => by
      obtain rfl := env.backend.runIdOf_inj.mp hrun
      exact congrArg (TrajectoryEvent.evidenceRetrieved evidence) hlog
  unfold EngineWorld.perform
  cases draws.failure with
  | none => exact ⟨rfl, hshown⟩
  | before e => exact ⟨rfl, h⟩
  | after e => exact ⟨rfl, hshown⟩

end Lockstep

end Amlguard
