import Amlguard.Investigations.CaseView
import Amlguard.Library.Unwinding

/-!
# Isolation of tenants

Two histories of one engine, in which the operations of a tenant and those on its cases are the same and
are performed in the same order, with the same draws. Whatever other tenants do in either history, and
whatever fails in it, the tenant cannot tell the two apart: its cases, its threads and the tools that
were executed for them are the same, and so are the trajectories of its runs but for the executions of
others that an `evidence_retrieved` event shows with its own.

This is unwinding: a task of another tenant is always in the scope of a case of another, and what is left
of a task of the tenant in the two histories differs in marks that the tenant does not see.
-/

namespace Amlguard

open Awaited

/-- Every case is stored with its run, and every thread keeps a state of its case. -/
structure RunsNumbered (backend : RepositoryBackend) (s : Store) : Prop where
  cases : ∀ c case, s.cases.get? c = some case → case.Of backend c
  threads : ∀ c checkpoint, s.threads.get? c = some checkpoint → checkpoint.values.Of backend c

/-- Nothing is stored yet. -/
theorem runsNumbered_empty (backend : RepositoryBackend) : RunsNumbered backend {} :=
  ⟨fun _ _ h => (by cases h), fun _ _ h => (by cases h)⟩

/-- Serving a case keeps its ID and its run. -/
theorem CaseData.Of.served {backend : RepositoryBackend} {c : UUID} {case : CaseData}
    (h : case.Of backend c) : (backend.served case).Of backend c := by
  cases backend with
  | inMemory => exact h
  | postgres => exact ⟨h.caseId, h.runId⟩

/-- A new case has its own run. -/
theorem newCase_of (s : Store) (backend : RepositoryBackend) (alert : SyntheticAlert)
    (tenantId investigatorId : String) :
    (s.newCase backend alert tenantId investigatorId).Of backend s.nextUuid := by
  cases backend with
  | inMemory | postgres => exact ⟨rfl, rfl⟩

namespace RunsNumbered

variable {env : EngineEnvironment} {s s' : Store} {w : EngineWorld} {draws : EngineDraws}
  {call : EngineCall}

theorem of_eq (h : RunsNumbered env.backend s) (hcases : s'.cases = s.cases)
    (hthreads : s'.threads = s.threads) : RunsNumbered env.backend s' := by
  constructor
  · rw [hcases]
    exact h.cases
  · rw [hthreads]
    exact h.threads

/-- A call keeps every case with its run when a checkpoint is written for its case. -/
theorem writes (h : RunsNumbered env.backend s) {r : Except PyError call.Reply}
    (hw : Writes env s call r s')
    (hput : ∀ c checkpoint, call = .putCheckpoint c checkpoint → checkpoint.values.Of env.backend c) :
    RunsNumbered env.backend s' := by
  constructor
  · intro c case hcase
    cases hw.caseChange hcase with
    | kept _ _ _ hold => exact h.cases c case hold
    | created alertId tenantId investigatorId alert =>
      exact newCase_of s env.backend alert tenantId investigatorId
    | recommended _ recommendation old hold | status _ status old hold | reviewed review old hold =>
      exact ⟨(h.cases _ old hold).caseId, (h.cases _ old hold).runId⟩
  · intro c checkpoint hsaved
    cases hw.threadChange hsaved with
    | kept _ _ _ hold => exact h.threads c checkpoint hold
    | put => exact hput c checkpoint rfl
    | updated _ securityEvents hardBlocks saved hold values hvalues =>
      subst hvalues hold
      cases hthread : s.threads.get? c with
      | none => exact fun _ hb => by cases hb
      | some stored => exact h.threads c stored hthread

/-- A call of a case keeps every case with its run. -/
theorem perform (h : RunsNumbered env.backend w.store) {c : UUID} (hcall : call.OfCase env.backend c) :
    RunsNumbered env.backend (w.perform env draws call).2.store := by
  apply h.writes (perform_writes env w draws call)
  rintro k checkpoint rfl
  obtain ⟨rfl, hvalues⟩ := hcall
  exact hvalues

/-- An operation reads its own case, with its run. -/
theorem reply (h : RunsNumbered env.backend w.store) {c : UUID} (hcall : call.OfCase env.backend c) :
    ReplyOfCase env.backend c call (w.perform env draws call).1 := by
  cases call with
  | getCase k =>
    obtain rfl : k = c := hcall
    intro case hcase
    obtain ⟨stored, hstored, rfl⟩ := (hcase ▸ perform_writes env w draws (.getCase k)).getCase_ok
    exact (h.cases k stored hstored).served
  | loadCheckpoint k input =>
    obtain rfl : k = c := hcall
    intro saved hsaved
    have hloaded := perform_writes env w draws (.loadCheckpoint k input)
    rw [hsaved] at hloaded
    exact h.threads k saved hloaded.loadCheckpoint_ok
  | createCase | deleteCase | getAlert | getCustomer | getKyc | getTransactions | saveRecommendation
    | saveReview | setStatus | audit | trajectoryHook | stageHook | recommend | uuid4 | toolExecutions
    | putCheckpoint | getState | updateState | deleteThread => trivial

/-- The marks up to the next call keep every case with its run. -/
theorem rest (h : RunsNumbered env.backend w.store) (p : Investigation Unit) :
    RunsNumbered env.backend ((engineSystem env).rest p w).2.store :=
  h.of_eq (rest_cases env p w) (rest_threads env p w)

end RunsNumbered

section Creation

variable {env : EngineEnvironment} {s : Store} {bank : SyntheticBank}
  {alertId tenantId investigatorId : String} {case : CaseData} {isNew : Bool}

/-- The case that is found for an alert is that of the tenant. -/
theorem existingCase_tenant (h : s.existingCase alertId tenantId investigatorId = .ok (some case)) :
    case.tenantId = tenantId := by
  obtain ⟨_, _, hpure⟩ := bind_eq_ok.mp h
  have hfound := List.find?_some (Except.ok.inj hpure)
  rw [Bool.and_eq_true] at hfound
  exact eq_of_beq hfound.2

/-- A case that is located has been found for the alert. -/
theorem resolveCase_existing
    (h : s.resolveCase env bank alertId tenantId investigatorId = .ok (.inl case)) :
    s.existingCase alertId tenantId investigatorId = .ok (some case) := by
  unfold Store.resolveCase at h
  cases hbackend : env.backend with
  | inMemory =>
    rw [hbackend] at h
    obtain ⟨found, hfound, hrest⟩ := bind_eq_ok.mp h
    cases found with
    | none =>
      obtain ⟨alert, _, hpure⟩ := bind_eq_ok.mp hrest
      cases hpure
    | some stored =>
      cases hrest
      exact hfound
  | postgres =>
    rw [hbackend] at h
    obtain ⟨alert, _, hrest⟩ := bind_eq_ok.mp h
    obtain ⟨found, hfound, hpure⟩ := bind_eq_ok.mp hrest
    cases found with
    | none => cases hpure
    | some stored =>
      cases hpure
      exact hfound

/-- The case that `create_case` returns is one of the tenant, stored with its run. -/
theorem createCase_ok (h : RunsNumbered env.backend s)
    (hreply : (s.createCase env bank alertId tenantId investigatorId).1 = .ok (case, isNew)) :
    ∃ c stored, (s.createCase env bank alertId tenantId investigatorId).2.cases.get? c = some stored ∧
      stored.tenantId = tenantId ∧ case.Of env.backend c := by
  unfold Store.createCase at hreply ⊢
  split at hreply
  · cases hreply
  · rename_i stored hresolved
    cases hreply
    have hexisting := resolveCase_existing hresolved
    obtain ⟨c, hstored⟩ := existingCase_stored hexisting
    exact ⟨c, stored, hstored, existingCase_tenant hexisting, (h.cases c stored hstored).served⟩
  · rename_i alert _
    cases hreply
    have hof := newCase_of s env.backend alert tenantId investigatorId
    refine ⟨s.nextUuid, s.newCase env.backend alert tenantId investigatorId, ?_, rfl, hof⟩
    exact Dict.get?_set_self s.cases s.nextUuid
      (s.newCase env.backend alert tenantId investigatorId)

/-- A case that is created for another tenant is not seen. -/
theorem createCase_foreign {own : UUID → Bool} {seer : String} (hne : tenantId ≠ seer)
    (hown : (s.createCase env bank alertId tenantId investigatorId).2.OwnedBy own seer) :
    Store.Alike own s (s.createCase env bank alertId tenantId investigatorId).2 := by
  unfold Store.createCase at hown ⊢
  split at hown
  · exact .refl s
  · exact .refl s
  · rename_i alert _
    have hstored : (s.cases.set s.nextUuid (s.newCase env.backend alert tenantId investigatorId)).get?
        s.nextUuid = some (s.newCase env.backend alert tenantId investigatorId) :=
      Dict.get?_set_self _ _ _
    have hforeign : own s.nextUuid = false := by
      by_contra hmine
      exact hne ((hown _ _ hstored).mp (by simpa using hmine))
    have halike := Store.Alike.setForeignCase hforeign s
      (s.newCase env.backend alert tenantId investigatorId)
    exact ⟨halike.cases, halike.threads⟩

end Creation

/-- The operation is one of the tenant or on one of its cases. -/
def EngineOp.OfTenant (own : UUID → Bool) (tenantId : String) : EngineOp → Prop
  | .start _ _ t _ | .uiStart _ _ t _ => t = tenantId
  | .runPrepared case _ _ => own case.caseId = true
  | .review request => own request.caseId = true
  | .supplyInformation c _ | .recordSecurityEvent c _ | .reset c _ | .get c => own c = true

/-- UUIDs have been drawn for something else. -/
def EngineWorld.drawn (w : EngineWorld) (n : ℕ) : EngineWorld :=
  { w with store := { w.store with nextUuid := w.store.nextUuid + n } }

/-- A case is created under the same ID in two histories, and PostgreSQL finds the ID of a review on no
review of another tenant. -/
def DrawnAlike (backend : RepositoryBackend) (own : UUID → Bool) (w w' : EngineWorld) :
    EngineCall → Prop
  | .createCase _ _ _ => w.store.nextUuid = w'.store.nextUuid
  | .saveReview review => backend = .postgres →
    w.store.ReviewApart own review ∧ w'.store.ReviewApart own review
  | _ => True

/-- The observer that sees the cases of a tenant. -/
def tenantViewpoint (backend : RepositoryBackend) (own : UUID → Bool) (tenantId : String) :
    Viewpoint engineSignature EngineWorld EngineDraws EngineOp where
  mine := EngineOp.OfTenant own tenantId
  serves := EngineOp.Requested
  reached w := w.store.OwnedBy own tenantId
  agreed w w' _ := DrawnAlike backend own w w'
  outside w w' := ∃ n, w' = w.drawn n

/-- What is left of a task of the tenant in two histories. -/
inductive OwnTask (backend : RepositoryBackend) (own : UUID → Bool) (tenantId : String) :
    Investigation Unit → Investigation Unit → Prop where
  | ended (r : Except PyError Unit) : OwnTask backend own tenantId (.done r) (.done r)
  | opening (alertId investigatorId : String)
      (k k' : Except PyError (CaseData × Bool) → Investigation Unit)
      (hk : KeepsToCase backend k) (hk' : KeepsToCase backend k')
      (hsight : ∀ r, sightOf (k r) = sightOf (k' r)) :
      OwnTask backend own tenantId (.await (.createCase alertId tenantId investigatorId) k)
        (.await (.createCase alertId tenantId investigatorId) k')
  | awaiting (c : UUID) (call : EngineCall) (k k' : Except PyError call.Reply → Investigation Unit)
      (hc : own c = true) (hk : InCase backend c (.await call k) fun _ => True)
      (hk' : InCase backend c (.await call k') fun _ => True)
      (hsight : ∀ r, sightOf (k r) = sightOf (k' r)) :
      OwnTask backend own tenantId (.await call k) (.await call k')
  | showing (c : UUID) (evidence : List EvidenceItem) (log log' : List ToolExecution)
      (k k' : Except PyError Unit → Investigation Unit) (hc : own c = true)
      (hlog : executionsOf c log = executionsOf c log') (hk : ∀ r, InCase backend c (k r) fun _ => True)
      (hk' : ∀ r, InCase backend c (k' r) fun _ => True) (hsight : ∀ r, sightOf (k r) = sightOf (k' r)) :
      OwnTask backend own tenantId
        (.await (.trajectoryHook (backend.runIdOf c) (.evidenceRetrieved evidence log)) k)
        (.await (.trajectoryHook (backend.runIdOf c) (.evidenceRetrieved evidence log')) k')

/-- What is left of a task of another tenant. -/
inductive OtherTask (backend : RepositoryBackend) (own : UUID → Bool) (tenantId : String) :
    Investigation Unit → Prop where
  | ended (r : Except PyError Unit) : OtherTask backend own tenantId (.done r)
  | opening (alertId t investigatorId : String)
      (k : Except PyError (CaseData × Bool) → Investigation Unit) (ht : t ≠ tenantId)
      (hk : KeepsToCase backend k) :
      OtherTask backend own tenantId (.await (.createCase alertId t investigatorId) k)
  | inCase (c : UUID) (p : Investigation Unit) (hc : own c = false)
      (hp : InCase backend c p fun _ => True) : OtherTask backend own tenantId p

section Programs

variable {env : EngineEnvironment} {own : UUID → Bool} {tenantId : String} {op : EngineOp}

/-- The program of a request opens a case of its tenant, or keeps to the case that it names. -/
theorem EngineOp.program_scope (env : EngineEnvironment) (own : UUID → Bool) (tenantId : String)
    (h : op.Requested) :
    (∃ t, (op.OfTenant own tenantId ↔ t = tenantId) ∧ ∀ i, Opens env.backend t (op.program env i)) ∨
      ∃ c, (op.OfTenant own tenantId ↔ own c = true) ∧
        ∀ i, InCase env.backend c (op.program env i) fun _ => True := by
  cases op with
  | start alertId actorId t contextCondition =>
    exact .inl ⟨t, Iff.rfl, fun i => start_opens alertId actorId t contextCondition⟩
  | uiStart alertId actorId t contextCondition =>
    exact .inl ⟨t, Iff.rfl, fun i => uiStart_opens alertId actorId t contextCondition⟩
  | runPrepared => exact h.elim
  | review request =>
    exact .inr ⟨request.caseId, Iff.rfl, fun i => discard_inCase (review_inCase request)⟩
  | supplyInformation c submission =>
    exact .inr ⟨c, Iff.rfl, fun i => discard_inCase (supplyInformation_inCase submission)⟩
  | recordSecurityEvent c eventType =>
    exact .inr ⟨c, Iff.rfl, fun i => discard_inCase (recordSecurityEvent_inCase eventType)⟩
  | reset c actorId => exact .inr ⟨c, Iff.rfl, fun i => discard_inCase (reset_inCase actorId)⟩
  | get c => exact .inr ⟨c, Iff.rfl, fun i => discard_inCase toRun_inCase⟩

/-- A call that has got an answer goes on in the scope of the case. -/
theorem InCase.next {c : UUID} {call : EngineCall} {k : Except PyError call.Reply → Investigation Unit}
    {w : EngineWorld} (draws : EngineDraws) (hk : InCase env.backend c (.await call k) fun _ => True)
    (hw : RunsNumbered env.backend w.store) :
    call.OfCase env.backend c ∧
      InCase env.backend c (k (w.perform env draws call).1) fun _ => True := by
  cases hk with
  | await _ _ R hc hears hnext =>
    refine ⟨hc, hnext _ ?_⟩
    rcases call.plain_or with rfl | hplain
    · exact hears.2 w.executions
    · exact (hearsOfCase_plain hplain).mp hears _ (hw.reply hc)

end Programs

section Others

variable {env : EngineEnvironment} {own : UUID → Bool} {tenantId : String} {c : UUID}

/-- The marks up to the next call of another are not seen. -/
theorem rest_foreign {p : Investigation Unit} (hc : own c = false)
    (hp : InCase env.backend c p fun _ => True) (w : EngineWorld) :
    InCase env.backend c ((engineSystem env).rest p w).1 (fun _ => True) ∧
      OwnAlike env.backend own w ((engineSystem env).rest p w).2 := by
  apply Scope.Within.settle _ hp (.refl w)
  intro n w' hn hw'
  exact hw'.trans (.record_foreign hc hn)

/-- A call of another for its case, and what follows up to the next one, is not seen. -/
theorem inCase_other {call : EngineCall} {k : Except PyError call.Reply → Investigation Unit}
    (hc : own c = false) (hk : InCase env.backend c (.await call k) fun _ => True) {w : EngineWorld}
    (hw : RunsNumbered env.backend w.store) (draws : EngineDraws) :
    let r := (engineSystem env).rest (k (w.perform env draws call).1) (w.perform env draws call).2
    RunsNumbered env.backend r.2.store ∧ OwnAlike env.backend own w r.2 ∧
      OtherTask env.backend own tenantId r.1 := by
  obtain ⟨hcall, hnext⟩ := InCase.next draws hk hw
  obtain ⟨hrest, halike⟩ := rest_foreign hc hnext (w.perform env draws call).2
  exact ⟨(hw.perform hcall).rest _, (OwnAlike.perform_foreign hc hcall w).trans halike,
    .inCase c _ hc hrest⟩

/-- Another tenant creates or locates a case, which is not seen. -/
theorem opening_other {alertId t investigatorId : String}
    {k : Except PyError (CaseData × Bool) → Investigation Unit} (ht : t ≠ tenantId)
    (hk : KeepsToCase env.backend k) {w : EngineWorld} (hw : RunsNumbered env.backend w.store)
    (draws : EngineDraws)
    (hown : (w.perform env draws (.createCase alertId t investigatorId)).2.store.OwnedBy own tenantId) :
    let r := (engineSystem env).rest (k (w.perform env draws (.createCase alertId t investigatorId)).1)
      (w.perform env draws (.createCase alertId t investigatorId)).2
    RunsNumbered env.backend r.2.store ∧ OwnAlike env.backend own w r.2 ∧
      OtherTask env.backend own tenantId r.1 := by
  have hnumbered : RunsNumbered env.backend
      (w.perform env draws (.createCase alertId t investigatorId)).2.store :=
    hw.writes (perform_writes env w draws _) fun _ _ h => by cases h
  have halike : OwnAlike env.backend own w
      (w.perform env draws (.createCase alertId t investigatorId)).2 := by
    have hcreated
        (hown' : (w.store.createCase env w.bank alertId t investigatorId).2.OwnedBy own tenantId) :
        OwnAlike env.backend own w (w.effect env draws (.createCase alertId t investigatorId)).2 :=
      ⟨rfl, (createCase_foreign ht hown').cases, (createCase_foreign ht hown').threads, fun _ _ => rfl,
        fun _ _ => rfl⟩
    rcases engine_perform_cases env w draws (.createCase alertId t investigatorId) with
      heq | ⟨_, e, heq | heq⟩
    · rw [heq] at hown ⊢
      exact hcreated hown
    · rw [heq]
      exact .refl w
    · rw [heq] at hown ⊢
      exact hcreated hown
  cases hreply : (w.perform env draws (.createCase alertId t investigatorId)).1 with
  | error e =>
    obtain ⟨r, hr⟩ := hk.2 e
    rw [hr]
    exact ⟨hnumbered, halike, .ended r⟩
  | ok got =>
    obtain ⟨case, isNew⟩ := got
    have heffect := perform_ok hreply
    rw [heffect] at hreply hown
    obtain ⟨c, stored, hstored, htenant, hcase⟩ := createCase_ok hw hreply
    have hc : own c = false := by
      by_contra hmine
      exact ht (htenant.symm.trans ((hown c stored hstored).mp (by simpa using hmine)))
    obtain ⟨hrest, hmarks⟩ := rest_foreign hc (hk.1 c case isNew hcase)
      (w.perform env draws (.createCase alertId t investigatorId)).2
    exact ⟨hnumbered.rest _, halike.trans hmarks, .inCase c _ hc hrest⟩

end Others

section Own

variable {env : EngineEnvironment} {own : UUID → Bool} {tenantId : String} {c : UUID}
  {w w' : EngineWorld}

/-- What follows the marks up to the next call is in the scope of the case. -/
theorem rest_inCase {p : Investigation Unit} (hp : InCase env.backend c p fun _ => True)
    (w : EngineWorld) : InCase env.backend c ((engineSystem env).rest p w).1 fun _ => True := by
  have hmarks (n : EngineMark) (v : EngineWorld) (_ : n.OfCase c) (h : True) : True := h
  exact (Scope.Within.settle hmarks hp (w := w) trivial).1

variable (env) in
/-- No mark is left to write. -/
theorem rest_rests (p : Investigation Unit) (w : EngineWorld) : ((engineSystem env).rest p w).1.Rests :=
  Prog.settle_rests (engineSystem env).record p w

/-- Settling what is seen of a program leads to what is seen of what it rests on. -/
theorem rest_seen (p : Investigation Unit) (h : OwnAlike env.backend own w w') :
    ((sightOf p).settle EngineWorld.record w').1 = sightOf ((engineSystem env).rest p w).1 ∧
      OwnAlike env.backend own ((engineSystem env).rest p w).2
        ((sightOf p).settle EngineWorld.record w').2 := by
  apply Prog.settle_sight _ _ p w w' h
  · intro n v v' hsame
    exact hsame.record n
  · intro n v v' hn hsame
    exact (OwnAlike.unseen hn v).trans hsame

/-- The marks up to the next call of the tenant lead to worlds that look the same. -/
theorem rest_own {p p' : Investigation Unit} (hc : own c = true)
    (hp : InCase env.backend c p fun _ => True) (hp' : InCase env.backend c p' fun _ => True)
    (hsight : sightOf p = sightOf p') (hw : OwnAlike env.backend own w w') :
    OwnAlike env.backend own ((engineSystem env).rest p w).2 ((engineSystem env).rest p' w').2 ∧
      OwnTask env.backend own tenantId ((engineSystem env).rest p w).1
        ((engineSystem env).rest p' w').1 := by
  obtain ⟨hleft, hworld⟩ := rest_seen p hw
  obtain ⟨hright, hworld'⟩ := rest_seen p' (OwnAlike.refl w')
  rw [hsight] at hleft hworld
  refine ⟨hworld.trans hworld'.symm, ?_⟩
  have hsame := hleft.symm.trans hright
  have hscope := rest_inCase hp w
  have hscope' := rest_inCase hp' w'
  have hrests := rest_rests env p w
  have hrests' := rest_rests env p' w'
  generalize ((engineSystem env).rest p w).1 = q at *
  generalize ((engineSystem env).rest p' w').1 = q' at *
  cases q with
  | mark n q => exact hrests.elim
  | done r =>
    rw [hrests'.of_sight_done hsame.symm]
    exact .ended r
  | await call k =>
    obtain ⟨k', rfl, hk'⟩ := hrests'.of_sight_await hsame.symm
    exact .awaiting c call k k' hc hscope hscope' fun r => (hk' r).symm

/-- What a call that had the same answer in both histories leads to. -/
theorem own_answered {call : EngineCall} {k k' : Except PyError call.Reply → Investigation Unit}
    {draws : EngineDraws} (hc : own c = true) (hcall : call.OfCase env.backend c)
    (hw : RunsNumbered env.backend w.store) (hw' : RunsNumbered env.backend w'.store)
    (hk : InCase env.backend c (k (w.perform env draws call).1) fun _ => True)
    (hk' : InCase env.backend c (k' (w'.perform env draws call).1) fun _ => True)
    (hsight : sightOf (k (w.perform env draws call).1) = sightOf (k' (w'.perform env draws call).1))
    (hsame : OwnAlike env.backend own (w.perform env draws call).2 (w'.perform env draws call).2) :
    let r := (engineSystem env).rest (k (w.perform env draws call).1) (w.perform env draws call).2
    let r' := (engineSystem env).rest (k' (w'.perform env draws call).1) (w'.perform env draws call).2
    (RunsNumbered env.backend r.2.store ∧ RunsNumbered env.backend r'.2.store) ∧
      OwnAlike env.backend own r.2 r'.2 ∧ OwnTask env.backend own tenantId r.1 r'.1 :=
  ⟨⟨(hw.perform hcall).rest _, (hw'.perform hcall).rest _⟩, rest_own hc hk hk' hsight hsame⟩

/-- Whatever the trajectory answers, the program goes on in the scope of the case. -/
theorem inCase_hook {runId : UUID} {event : TrajectoryEvent}
    {k : Except PyError Unit → Investigation Unit}
    (h : InCase env.backend c (.await (.trajectoryHook runId event) k) fun _ => True)
    (r : Except PyError Unit) : InCase env.backend c (k r) fun _ => True := by
  cases h with
  | await _ _ R _ hears hnext => exact hnext r (hears r trivial)

/-- A task that has read the log to show it is about to do so, in both histories. -/
theorem showing_own
    {k k' : Except PyError (List ToolExecution) → Investigation Unit} (hc : own c = true)
    (hshows : ShowsLog (env.backend.runIdOf c) k)
    (hk : InCase env.backend c (k (.ok w.executions)) fun _ => True)
    (hk' : InCase env.backend c (k' (.ok w'.executions)) fun _ => True)
    (hsight : ∀ r, sightOf (k r) = sightOf (k' r)) (hw : RunsNumbered env.backend w.store)
    (hw' : RunsNumbered env.backend w'.store) (hsame : OwnAlike env.backend own w w')
    (hlogs : executionsOf c w.executions = executionsOf c w'.executions) :
    let r := (engineSystem env).rest (k (.ok w.executions)) w
    let r' := (engineSystem env).rest (k' (.ok w'.executions)) w'
    (RunsNumbered env.backend r.2.store ∧ RunsNumbered env.backend r'.2.store) ∧
      OwnAlike env.backend own r.2 r'.2 ∧ OwnTask env.backend own tenantId r.1 r'.1 := by
  obtain ⟨evidence, next, hnext⟩ := hshows
  refine ⟨⟨hw.rest _, hw'.rest _⟩, ?_⟩
  have hseen := (hsight (.ok w'.executions)).symm
  rw [hnext] at hk hseen
  rw [hnext]
  have hself : OwnAlike env.backend own w' w' := .refl w'
  obtain ⟨hright, hworld'⟩ := rest_seen (k' (.ok w'.executions)) hself
  have hscope := rest_inCase hk' w'
  have hrests := rest_rests env (k' (.ok w'.executions)) w'
  rw [hseen] at hright hworld'
  refine ⟨hsame.trans hworld'.symm, ?_⟩
  change OwnTask env.backend own tenantId
    (.await (.trajectoryHook (env.backend.runIdOf c) (.evidenceRetrieved evidence w.executions)) next) _
  obtain ⟨next', heq, hnext'⟩ := hrests.of_sight_await hright.symm
  rw [heq] at hscope ⊢
  exact .showing c evidence _ _ next next' hc hlogs (inCase_hook hk) (inCase_hook hscope)
    fun r => (hnext' r).symm

/-- A call of the tenant for its case is answered alike in both histories. -/
theorem awaiting_own {call : EngineCall} {k k' : Except PyError call.Reply → Investigation Unit}
    {draws : EngineDraws} (hc : own c = true) (hk : InCase env.backend c (.await call k) fun _ => True)
    (hk' : InCase env.backend c (.await call k') fun _ => True)
    (hsight : ∀ r, sightOf (k r) = sightOf (k' r)) (hw : RunsNumbered env.backend w.store)
    (hw' : RunsNumbered env.backend w'.store) (hsame : OwnAlike env.backend own w w')
    (hdrawn : DrawnAlike env.backend own w w' call) :
    let r := (engineSystem env).rest (k (w.perform env draws call).1) (w.perform env draws call).2
    let r' := (engineSystem env).rest (k' (w'.perform env draws call).1) (w'.perform env draws call).2
    (RunsNumbered env.backend r.2.store ∧ RunsNumbered env.backend r'.2.store) ∧
      OwnAlike env.backend own r.2 r'.2 ∧ OwnTask env.backend own tenantId r.1 r'.1 := by
  obtain ⟨hcall, hnext⟩ := InCase.next draws hk hw
  obtain ⟨-, hnext'⟩ := InCase.next draws hk' hw'
  rcases call.plain_or with rfl | hplain
  · -- the logs differ in the executions of others
    have hlogs := hsame.executions c hc
    cases hk with
    | await _ _ R _ hears hcontinue =>
      rcases hears.1 with hheeds | hshows
      · apply own_answered hc hcall hw hw' hnext hnext' _ hsame
        change sightOf (k (.ok w.executions)) = sightOf (k' (.ok w'.executions))
        rw [hheeds w.executions w'.executions hlogs]
        exact hsight _
      · exact showing_own hc hshows hnext hnext' hsight hw hw' hsame hlogs
  · have hids (review : HumanReview) (heq : call = .saveReview review)
        (hbackend : env.backend = .postgres) :
        w.store.ReviewApart own review ∧ w'.store.ReviewApart own review := by
      subst heq
      exact hdrawn hbackend
    have hanswer : (w.perform env draws call).1 = (w'.perform env draws call).1 ∧
        OwnAlike env.backend own (w.perform env draws call).2 (w'.perform env draws call).2 :=
      hsame.perform (hsame.effect draws hc hplain hcall hids)
    apply own_answered hc hcall hw hw' hnext hnext' _ hanswer.2
    rw [hanswer.1]
    exact hsight _

/-- A case of the tenant is created or located alike in both histories. -/
theorem opening_own {alertId investigatorId : String} {draws : EngineDraws}
    {k k' : Except PyError (CaseData × Bool) → Investigation Unit} (hk : KeepsToCase env.backend k)
    (hk' : KeepsToCase env.backend k') (hsight : ∀ r, sightOf (k r) = sightOf (k' r))
    (hw : RunsNumbered env.backend w.store ∧ w.store.OwnedBy own tenantId)
    (hw' : RunsNumbered env.backend w'.store ∧ w'.store.OwnedBy own tenantId)
    (hsame : OwnAlike env.backend own w w') (hdrawn : w.store.nextUuid = w'.store.nextUuid)
    (hown : (w.perform env draws
      (.createCase alertId tenantId investigatorId)).2.store.OwnedBy own tenantId) :
    let reply := w.perform env draws (.createCase alertId tenantId investigatorId)
    let reply' := w'.perform env draws (.createCase alertId tenantId investigatorId)
    let r := (engineSystem env).rest (k reply.1) reply.2
    let r' := (engineSystem env).rest (k' reply'.1) reply'.2
    (RunsNumbered env.backend r.2.store ∧ RunsNumbered env.backend r'.2.store) ∧
      OwnAlike env.backend own r.2 r'.2 ∧ OwnTask env.backend own tenantId r.1 r'.1 := by
  have heffect : (w.effect env draws (.createCase alertId tenantId investigatorId)).1 =
        (w'.effect env draws (.createCase alertId tenantId investigatorId)).1 ∧
      OwnAlike env.backend own (w.effect env draws (.createCase alertId tenantId investigatorId)).2
        (w'.effect env draws (.createCase alertId tenantId investigatorId)).2 := by
    have hcreated := hsame.store.createCase env hw.2 hw'.2 hdrawn w.bank alertId investigatorId
    simp only [EngineWorld.effect, ← hsame.bank]
    exact ⟨hcreated.1, hsame.onStore hcreated.2⟩
  have hanswer := hsame.perform heffect
  have hnumbered (v : EngineWorld) (hv : RunsNumbered env.backend v.store) : RunsNumbered env.backend
      (v.perform env draws (.createCase alertId tenantId investigatorId)).2.store :=
    hv.writes (perform_writes env v draws _) fun _ _ h => by cases h
  intro reply reply'
  refine ⟨⟨(hnumbered w hw.1).rest _, (hnumbered w' hw'.1).rest _⟩, ?_⟩
  have hreply' : reply'.1 = reply.1 := hanswer.1.symm
  rw [hreply']
  cases hreply : reply.1 with
  | error e =>
    obtain ⟨r, hr⟩ := hk.2 e
    obtain ⟨r', hr'⟩ := hk'.2 e
    have hends := hsight (.error e)
    rw [hr, hr'] at hends
    cases hends
    rw [hr, hr']
    exact ⟨hanswer.2, .ended r⟩
  | ok got =>
    obtain ⟨case, isNew⟩ := got
    have hperformed := perform_ok hreply
    have hcreated :
        (w.store.createCase env w.bank alertId tenantId investigatorId).1 = .ok (case, isNew) := by
      have hfirst := congrArg Prod.fst hperformed
      exact hfirst.symm.trans hreply
    rw [hperformed] at hown
    obtain ⟨c, stored, hstored, htenant, hcase⟩ := createCase_ok hw.1 hcreated
    have hc : own c = true := (hown c stored hstored).mpr htenant
    exact rest_own hc (hk.1 c case isNew hcase) (hk'.1 c case isNew hcase) (hsight _) hanswer.2

end Own

section Histories

variable {env : EngineEnvironment} {own : UUID → Bool} {tenantId : String}

/-- The marks up to the next call change the owner of no case. -/
theorem ownedBy_rest {p : Investigation Unit} {w : EngineWorld} :
    ((engineSystem env).rest p w).2.store.OwnedBy own tenantId ↔ w.store.OwnedBy own tenantId := by
  unfold Store.OwnedBy
  rw [rest_cases]

/-- What is left of a task of the tenant is symmetric. -/
theorem OwnTask.symm {p q : Investigation Unit} (h : OwnTask env.backend own tenantId p q) :
    OwnTask env.backend own tenantId q p := by
  cases h with
  | ended r => exact .ended r
  | opening alertId investigatorId k k' hk hk' hsight =>
    exact .opening alertId investigatorId k' k hk' hk fun r => (hsight r).symm
  | awaiting c call k k' hc hk hk' hsight =>
    exact .awaiting c call k' k hc hk' hk fun r => (hsight r).symm
  | showing c evidence log log' k k' hc hlog hk hk' hsight =>
    exact .showing c evidence log' log k' k hc hlog.symm hk' hk fun r => (hsight r).symm

variable {w w' : EngineWorld}

/-- A task of the tenant moves alike in both histories. -/
theorem OwnTask.advance {call call' : EngineCall} {k : Except PyError call.Reply → Investigation Unit}
    {k' : Except PyError call'.Reply → Investigation Unit} {draws : EngineDraws}
    (h : OwnTask env.backend own tenantId (.await call k) (.await call' k'))
    (hw : RunsNumbered env.backend w.store ∧ w.store.OwnedBy own tenantId)
    (hw' : RunsNumbered env.backend w'.store ∧ w'.store.OwnedBy own tenantId)
    (hsame : OwnAlike env.backend own w w') (hdrawn : DrawnAlike env.backend own w w' call)
    (hown : (w.perform env draws call).2.store.OwnedBy own tenantId) :
    let r := (engineSystem env).rest (k (w.perform env draws call).1) (w.perform env draws call).2
    let r' := (engineSystem env).rest (k' (w'.perform env draws call').1) (w'.perform env draws call').2
    (RunsNumbered env.backend r.2.store ∧ RunsNumbered env.backend r'.2.store) ∧
      OwnAlike env.backend own r.2 r'.2 ∧ OwnTask env.backend own tenantId r.1 r'.1 := by
  cases h with
  | opening alertId investigatorId _ _ hk hk' hsight =>
    exact opening_own hk hk' hsight hw hw' hsame hdrawn hown
  | awaiting c _ _ _ hc hk hk' hsight => exact awaiting_own hc hk hk' hsight hw.1 hw'.1 hsame hdrawn
  | showing c evidence log log' _ _ hc hlog hk hk' hsight =>
    have hanswer := hsame.perform_show draws evidence hlog
    have hperform (v : EngineWorld) (hv : RunsNumbered env.backend v.store) (shown : List ToolExecution) :
        RunsNumbered env.backend (v.perform env draws (.trajectoryHook (env.backend.runIdOf c)
          (.evidenceRetrieved evidence shown))).2.store := hv.perform (c := c) rfl
    refine ⟨⟨(hperform w hw.1 log).rest _, (hperform w' hw'.1 log').rest _⟩, ?_⟩
    rw [← hanswer.1]
    exact rest_own hc (hk _) (hk' _) (hsight _) hanswer.2

/-- A task of another tenant moves unseen. -/
theorem OtherTask.advance {call : EngineCall} {k : Except PyError call.Reply → Investigation Unit}
    {draws : EngineDraws} (h : OtherTask env.backend own tenantId (.await call k))
    (hw : RunsNumbered env.backend w.store)
    (hown : (w.perform env draws call).2.store.OwnedBy own tenantId) :
    let r := (engineSystem env).rest (k (w.perform env draws call).1) (w.perform env draws call).2
    RunsNumbered env.backend r.2.store ∧ OwnAlike env.backend own w r.2 ∧
      OtherTask env.backend own tenantId r.1 := by
  cases h with
  | opening alertId t investigatorId _ ht hk => exact opening_other ht hk hw draws hown
  | inCase c _ hc hp => exact inCase_other hc hp hw draws

/-- A request of the tenant starts alike in both histories. -/
theorem start_own {op : EngineOp} (hop : op.OfTenant own tenantId) (hrequested : op.Requested) (i j : ℕ)
    (hsame : OwnAlike env.backend own w w') :
    let r := (engineSystem env).rest (op.program env i) (op.enroll w)
    let r' := (engineSystem env).rest (op.program env j) (op.enroll w')
    OwnAlike env.backend own r.2 r'.2 ∧ OwnTask env.backend own tenantId r.1 r'.1 := by
  have henrolled : OwnAlike env.backend own (op.enroll w) (op.enroll w') :=
    (OwnAlike.enroll op w).trans (hsame.trans (OwnAlike.enroll op w').symm)
  have hsight := sight_program env i j op
  rcases EngineOp.program_scope env own tenantId hrequested with ⟨t, hmine, hopens⟩ | ⟨c, hmine, hin⟩
  · obtain rfl := hmine.mp hop
    obtain ⟨alertId, investigatorId, k, hi, hk⟩ := hopens i
    obtain ⟨alertId', investigatorId', k', hj, hk'⟩ := hopens j
    rw [hi, hj] at hsight ⊢
    change Prog.await _ _ = Prog.await _ _ at hsight
    injection hsight with hcall hnext
    injection hcall with halert _ hinvestigator
    subst halert hinvestigator
    exact ⟨henrolled, .opening alertId investigatorId k k' hk hk' (congrFun hnext)⟩
  · exact rest_own (hmine.mp hop) (hin i) (hin j) hsight henrolled

/-- A request of another tenant starts unseen. -/
theorem start_other {op : EngineOp} (hop : ¬op.OfTenant own tenantId) (hrequested : op.Requested)
    (i : ℕ) :
    let r := (engineSystem env).rest (op.program env i) (op.enroll w)
    OwnAlike env.backend own w r.2 ∧ OtherTask env.backend own tenantId r.1 := by
  have henrolled : OwnAlike env.backend own w (op.enroll w) := (OwnAlike.enroll op w).symm
  rcases EngineOp.program_scope env own tenantId hrequested with ⟨t, hmine, hopens⟩ | ⟨c, hmine, hin⟩
  · obtain ⟨alertId, investigatorId, k, hi, hk⟩ := hopens i
    rw [hi]
    exact ⟨henrolled, .opening alertId t investigatorId k (fun heq => hop (hmine.mpr heq)) hk⟩
  · have hc : own c = false := Bool.eq_false_iff.mpr fun h => hop (hmine.mpr h)
    obtain ⟨hrest, halike⟩ := rest_foreign hc (hin i) (op.enroll w)
    exact ⟨henrolled.trans halike, .inCase c _ hc hrest⟩

/-- Enrolling an operation and the marks up to its first call keep every case with its run. -/
theorem RunsNumbered.start (hw : RunsNumbered env.backend w.store) (op : EngineOp)
    (p : Investigation Unit) :
    RunsNumbered env.backend ((engineSystem env).rest p (op.enroll w)).2.store :=
  (hw.of_eq (enroll_cases op w) (enroll_threads op w)).rest p

/-- What a single move does to what a tenant sees. -/
def tenantUnwinding (env : EngineEnvironment) (own : UUID → Bool) (tenantId : String) :
    Unwinding (tenantViewpoint env.backend own tenantId) (engineSystem env) where
  Inv w := RunsNumbered env.backend w.store ∧ w.store.OwnedBy own tenantId
  Same := OwnAlike env.backend own
  Twin := OwnTask env.backend own tenantId
  Other := OtherTask env.backend own tenantId
  same_symm _ _ h := h.symm
  same_trans _ _ _ h h' := h.trans h'
  twin_symm _ _ h := h.symm
  start i j op _ _ hop hrequested hw hw' hsame hreached hreached' :=
    ⟨⟨⟨hw.1.start op _, hreached⟩, hw'.1.start op _, hreached'⟩, start_own hop hrequested i j hsame⟩
  advance _ _ _ _ _ _ _ h hw hw' hsame hdrawn hreached hreached' :=
    have hnext := h.advance hw hw' hsame hdrawn (ownedBy_rest.mp hreached)
    ⟨⟨⟨hnext.1.1, hreached⟩, hnext.1.2, hreached'⟩, hnext.2⟩
  startOther i op _ hop hrequested hw hreached :=
    ⟨⟨hw.1.start op _, hreached⟩, start_other hop hrequested i⟩
  advanceOther _ _ _ _ h hw hreached :=
    have hnext := h.advance hw.1 (ownedBy_rest.mp hreached)
    ⟨⟨hnext.1, hreached⟩, hnext.2⟩
  outside w _ hdrawn hw hreached := by
    obtain ⟨n, rfl⟩ := hdrawn
    exact ⟨⟨hw.1.of_eq rfl rfl, hreached⟩, .of_eq rfl rfl rfl rfl rfl⟩

/-- Two histories of one engine as a tenant compares them. -/
abbrev TenantHistories (env : EngineEnvironment) (own : UUID → Bool) (tenantId : String)
    (bank : SyntheticBank) : EnginePool → EnginePool → List (ℕ × ℕ) → Prop :=
  SideBySide (tenantViewpoint env.backend own tenantId) (engineSystem env) { bank }

/-- Two histories are related as a tenant compares them. -/
theorem tenantHistories_related {bank : SyntheticBank} {p q : EnginePool} {twins : List (ℕ × ℕ)}
    (h : TenantHistories env own tenantId bank p q twins) :
    (tenantUnwinding env own tenantId).Related p q twins := by
  have hempty : Store.OwnedBy own tenantId {} := fun _ _ h => by cases h
  exact (tenantUnwinding env own tenantId).related ⟨runsNumbered_empty env.backend, hempty⟩
    (OwnAlike.refl _) h

/-- In two histories with the same operations of a tenant, the tenant sees the same, and each of its operations
has ended in the same way or not at all: by returning, or by raising the same exception. The run that it
returns is not compared. -/
theorem tenants_isolated {bank : SyntheticBank} {p q : EnginePool} {twins : List (ℕ × ℕ)}
    (h : TenantHistories env own tenantId bank p q twins) :
    OwnAlike env.backend own p.world q.world ∧ ∀ i j, (i, j) ∈ twins → ∃ op prog prog',
      p.tasks[i]? = some ⟨op, prog⟩ ∧ q.tasks[j]? = some ⟨op, prog'⟩ ∧
        ∀ r, prog = .done r ↔ prog' = .done r := by
  have hrelated := tenantHistories_related h
  refine ⟨hrelated.same, fun i j hij => ?_⟩
  obtain ⟨op, prog, prog', hi, hj, htwin⟩ := hrelated.paired i j hij
  refine ⟨op, prog, prog', hi, hj, fun r => ?_⟩
  change OwnTask env.backend own tenantId prog prog' at htwin
  cases htwin with
  | ended r' => rfl
  | opening | awaiting | showing => exact ⟨fun h => (by cases h), fun h => by cases h⟩

/-- Whether a tenant owns exactly its stored cases can be read off what is stored. -/
theorem ownedBy_of_entries {s : Store}
    (h : ∀ entry ∈ s.cases.entries, (own entry.1 == (entry.2.tenantId == tenantId)) = true) :
    s.OwnedBy own tenantId := by
  intro c case hcase
  have hentry := eq_of_beq (h _ ((s.cases.mem_entries_iff c case).mpr hcase))
  change own c = (case.tenantId == tenantId) at hentry
  rw [hentry, beq_iff_eq]

end Histories

/-- Another tenant starts the investigation of the same alert. -/
def otherStart : EngineOp := .start "A-1" "investigator" "other" "B5"

/-- The case that is created first is the tenant's. -/
def firstCase (c : UUID) : Bool := c == 0

/-- There are two histories that differ in the case of another tenant for the same alert. -/
theorem otherStart_histories : ∃ p q : EnginePool,
    TenantHistories (sampleEnvironment .postgres) firstCase "tenant" sampleBank p q [(0, 0)] ∧
      p.world.store.cases.values.map CaseData.tenantId = ["tenant", "other"] ∧
        q.world.store.cases.values.map CaseData.tenantId = ["tenant"] := by
  have hown : EngineOp.OfTenant firstCase "tenant" sampleStart ∧ sampleStart.Requested := ⟨rfl, trivial⟩
  have hother : ¬EngineOp.OfTenant firstCase "tenant" otherStart ∧ otherStart.Requested := by
    refine ⟨?_, trivial⟩
    change ¬"other" = "tenant"
    decide
  have hstarted : TenantHistories (sampleEnvironment .postgres) firstCase "tenant" sampleBank _ _ _ :=
    .start _ _ _ _ _ sampleStart .fresh hown rfl rfl (ownedBy_of_entries (by decide))
      (ownedBy_of_entries (by decide))
  have hcreated : TenantHistories (sampleEnvironment .postgres) firstCase "tenant" sampleBank _ _ _ :=
    .advance _ _ _ _ _ 0 0 quietDraws hstarted (by decide) (fun c hc => by cases hc; rfl) rfl rfl
      (ownedBy_of_entries (by decide)) (ownedBy_of_entries (by decide))
  have harrived : TenantHistories (sampleEnvironment .postgres) firstCase "tenant" sampleBank _ _ _ :=
    .startOther _ _ _ _ otherStart hcreated hother rfl (ownedBy_of_entries (by decide))
  have hboth : TenantHistories (sampleEnvironment .postgres) firstCase "tenant" sampleBank _ _ _ :=
    .advanceOther _ _ _ _ 1 quietDraws harrived (by decide) rfl (ownedBy_of_entries (by decide))
  exact ⟨_, _, hboth, by decide, by decide⟩

/-- The case of another tenant for the same alert changes nothing. -/
theorem tenants_isolated_otherStart : ∃ p q : EnginePool,
    p.world.store.cases.values.map CaseData.tenantId = ["tenant", "other"] ∧
      q.world.store.cases.values.map CaseData.tenantId = ["tenant"] ∧
        OwnAlike .postgres firstCase p.world q.world := by
  obtain ⟨p, q, h, hp, hq⟩ := otherStart_histories
  exact ⟨p, q, hp, hq, (tenants_isolated h).1⟩

end Amlguard
