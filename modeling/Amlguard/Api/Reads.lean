import Amlguard.Api.Routes
import Amlguard.Investigations.Isolation

/-!
# The routes that read

A route that reads a case asks for a role, reads the case, authorizes the actor on what it has read, and
then answers with the run of the case, with its evidence, or with the trajectory of its run. The home
page lists the cases that the actor may read. Each call of a request is performed at its own moment, with
anything in between.

Whoever is not an administrator reads nothing of other tenants: in two histories that are the same for
its tenant, every request of it is answered alike, but for the executions of others that a trajectory
shows.
-/

namespace Amlguard

open Awaited

/-- What a program returns when its calls are performed at moments that follow each other. -/
def returnsAt {α : Type} (env : EngineEnvironment) (moments : ℕ → EngineWorld × EngineDraws) :
    ℕ → Investigation α → Except PyError α
  | _, .done r => r
  | n, .mark _ p => returnsAt env moments n p
  | n, .await c k => returnsAt env moments (n + 1) (k ((moments n).1.perform env (moments n).2 c).1)

/-- The routes that read a case. -/
inductive ReadRoute where
  | investigation | evidence | trace
  deriving DecidableEq, Repr

/-- The roles of which a route asks for one. -/
def ReadRoute.allowedRoles : ReadRoute → List String
  | .investigation | .evidence => ["analyst", "reviewer", "researcher"]
  | .trace => ["researcher"]

/-- What a route does with the case. -/
def ReadRoute.action : ReadRoute → CaseAction
  | .investigation => .readCase
  | .evidence => .readEvidence
  | .trace => .readTrace

/-- How a request that reads is answered. -/
inductive ReadAnswer where
  | refused (e : HTTPException)
  | raised (e : PyError)
  | run (run : InvestigationRun)
  | evidence (items : List EvidenceItem)
  | trace (events : List TrajectoryEvent)

/-- The answer as a case sees it, without the executions of others. -/
def ReadAnswer.seenBy (c : UUID) : ReadAnswer → ReadAnswer
  | .trace events => .trace (events.map (TrajectoryEvent.seenBy c))
  | answer => answer

/-- `recorder.events.get(run_id, [])`. -/
def EngineWorld.eventsOf (w : EngineWorld) (runId : UUID) : List TrajectoryEvent :=
  (w.trajectory.filter fun entry => entry.1 == runId).map Prod.snd

/-- The answer to an exception that `get_case` raises. -/
def caseUnread (e : PyError) : ReadAnswer :=
  if e.isA "KeyError" then .refused caseNotFound else .raised e

/-- The answer to a denial, once it has been audited. -/
def accessDenied (failure : Failure) : ReadAnswer :=
  match failure with
  | .none => .refused caseNotFound
  | .before e | .after e => .raised e

/-- The answer of an authorized request. -/
def ReadRoute.read (env : EngineEnvironment) (moments : ℕ → EngineWorld × EngineDraws)
    (case : CaseData) (c : UUID) : ReadRoute → ReadAnswer
  | .trace => .trace ((moments 1).1.eventsOf case.runId)
  | .investigation =>
    match returnsAt env moments 1 (LangGraphInvestigationEngine.toRun c) with
    | .error e => .raised e
    | .ok run => .run run
  | .evidence =>
    match returnsAt env moments 1 (LangGraphInvestigationEngine.toRun c) with
    | .error e => .raised e
    | .ok run => .evidence run.evidence

/-- The answer to a request that reads a case, when the case that is read has this reviewer: it is read
at the first moment, and a denial is audited at the second. -/
def ReadRoute.respond (env : EngineEnvironment) (moments : ℕ → EngineWorld × EngineDraws)
    (actor : Actor) (c : UUID) (assignedReviewerId : Option String) (route : ReadRoute) : ReadAnswer :=
  match requireRoles route.allowedRoles actor with
  | .error e => .refused e
  | .ok _ =>
    match ((moments 0).1.perform env (moments 0).2 (.getCase c)).1 with
    | .error e => caseUnread e
    | .ok case =>
      match authorizeCase actor case assignedReviewerId route.action with
      | .error _ => accessDenied (moments 1).2.failure
      | .ok _ => route.read env moments case c

/-- `visible_cases.setdefault(case.alert_id, case)`, for a case that the actor may read. -/
def showCase (actor : Actor) (reviewers : Dict UUID String) (visible : Dict String CaseData)
    (case : CaseData) : Dict String CaseData :=
  match authorizeCase actor case (reviewers.get? case.caseId) .readCase with
  | .error _ => visible
  | .ok _ => if visible.contains case.alertId then visible else visible.set case.alertId case

/-- The cases by alert of the home page, from `list_cases` of the in-memory repository. -/
def visibleCases (w : EngineWorld) (actor : Actor) (reviewers : Dict UUID String) :
    Dict String CaseData :=
  w.store.cases.values.reverse.foldl (showCase actor reviewers) .empty

section Reads

variable {env : EngineEnvironment} {own : UUID → Bool} {tenantId : String} {actor : Actor} {c : UUID}
  {moments moments' : ℕ → EngineWorld × EngineDraws}

/-- An actor without full access is denied the cases of other tenants. -/
theorem authorizeCase_foreign {case : CaseData} (hactor : fullAccessRole ∉ actor.roles)
    (htenant : case.tenantId ≠ actor.tenantId) (reviewer : Option String) (action : CaseAction) :
    authorizeCase actor case reviewer action =
      .error (caseAccessDenied "case belongs to another tenant") := by
  simp [authorizeCase, hactor, Ne.symm htenant]

@[simp] theorem served_tenantId (backend : RepositoryBackend) (case : CaseData) :
    (backend.served case).tenantId = case.tenantId := by
  cases backend with
  | inMemory | postgres => rfl

/-- What a request for a case of another tenant is answered: as if there were none. -/
def unknownAnswer (failure : Failure) : ReadAnswer :=
  match failure with
  | .none => .refused caseNotFound
  | .before e | .after e => caseUnread e

/-- What `get_case` returns or raises. -/
theorem perform_getCase (env : EngineEnvironment) (w : EngineWorld) (draws : EngineDraws) (c : UUID) :
    (w.perform env draws (.getCase c)).1 =
      match draws.failure with
      | .none => orRaise ((w.store.cases.get? c).map env.backend.served) (unknownCase c)
      | .before e | .after e => .error e := by
  unfold EngineWorld.perform
  cases draws.failure with
  | none | before | after => rfl

/-- A request for the case of another tenant is answered as one for no case. -/
theorem respond_foreign (hactor : fullAccessRole ∉ actor.roles) (hc : own c = false)
    (hown : (moments 0).1.store.OwnedBy own actor.tenantId)
    (haudit : (moments 1).2.failure = .none) (reviewer : Option String) (route : ReadRoute) :
    route.respond env moments actor c reviewer =
      match requireRoles route.allowedRoles actor with
      | .error e => .refused e
      | .ok _ => unknownAnswer (moments 0).2.failure := by
  unfold ReadRoute.respond
  split
  · rfl
  · rw [perform_getCase]
    cases (moments 0).2.failure with
    | before e | after e => rfl
    | none =>
      cases hcase : (moments 0).1.store.cases.get? c with
      | none => rfl
      | some case =>
        have htenant : (env.backend.served case).tenantId ≠ actor.tenantId := by
          rw [served_tenantId]
          intro heq
          rw [(hown c case hcase).mpr heq] at hc
          cases hc
        change (match authorizeCase actor (env.backend.served case) reviewer route.action with
          | .error _ => accessDenied (moments 1).2.failure
          | .ok _ => route.read env moments (env.backend.served case) c) = _
        rw [authorizeCase_foreign hactor htenant, haudit]
        rfl

/-- Two histories look the same at every moment, in which the same is drawn. -/
structure MomentsAlike (backend : RepositoryBackend) (own : UUID → Bool)
    (moments moments' : ℕ → EngineWorld × EngineDraws) : Prop where
  world : ∀ n, OwnAlike backend own (moments n).1 (moments' n).1
  draws : ∀ n, (moments n).2 = (moments' n).2

/-- A call of the tenant that only reads is answered alike. -/
theorem MomentsAlike.reply (h : MomentsAlike env.backend own moments moments') (hc : own c = true)
    {call : EngineCall} (hcall : call = .getCase c ∨ call = .getState c) (n : ℕ) :
    ((moments n).1.perform env (moments n).2 call).1 =
      ((moments' n).1.perform env (moments' n).2 call).1 := by
  have hplain : call.Plain ∧ call.OfCase env.backend c ∧ ∀ review, call ≠ .saveReview review := by
    rcases hcall with rfl | rfl
    · exact ⟨trivial, rfl, fun _ heq => by cases heq⟩
    · exact ⟨trivial, rfl, fun _ heq => by cases heq⟩
  rw [← h.draws n]
  have heffect := (h.world n).effect (moments n).2 hc hplain.1 hplain.2.1
    fun review heq => absurd heq (hplain.2.2 review)
  exact ((h.world n).perform heffect).1

/-- `_to_run` reads the case and then its thread. -/
theorem returnsAt_toRun (env : EngineEnvironment) (moments : ℕ → EngineWorld × EngineDraws) (n : ℕ)
    (c : UUID) : returnsAt env moments n (LangGraphInvestigationEngine.toRun c) =
      (do
        let case ← ((moments n).1.perform env (moments n).2 (.getCase c)).1
        let saved ← ((moments (n + 1)).1.perform env (moments (n + 1)).2 (.getState case.caseId)).1
        pure (runOf case saved)) := by
  unfold LangGraphInvestigationEngine.toRun
  change returnsAt env moments (n + 1) ((Prog.done _).bind _) = _
  cases ((moments n).1.perform env (moments n).2 (.getCase c)).1 with
  | error e => rfl
  | ok case =>
    change returnsAt env moments (n + 2) ((Prog.done _).bind _) = _
    change _ = (do
      let saved ← ((moments (n + 1)).1.perform env (moments (n + 1)).2 (.getState case.caseId)).1
      pure (runOf case saved))
    cases ((moments (n + 1)).1.perform env (moments (n + 1)).2 (.getState case.caseId)).1 with
    | error e => rfl
    | ok saved => rfl

/-- The run of a case of the tenant is read alike. -/
theorem MomentsAlike.toRun (h : MomentsAlike env.backend own moments moments') (hc : own c = true)
    (hw : ∀ n, RunsNumbered env.backend (moments n).1.store) (n : ℕ) :
    returnsAt env moments n (LangGraphInvestigationEngine.toRun c) =
      returnsAt env moments' n (LangGraphInvestigationEngine.toRun c) := by
  rw [returnsAt_toRun, returnsAt_toRun, ← h.reply hc (.inl rfl) n]
  have hof : ReplyOfCase env.backend c (.getCase c)
      ((moments n).1.perform env (moments n).2 (.getCase c)).1 :=
    (hw n).reply rfl
  cases hcase : ((moments n).1.perform env (moments n).2 (.getCase c)).1 with
  | error e => rfl
  | ok case =>
    rw [hcase] at hof
    have hid : case.caseId = c := (hof case rfl).caseId
    change (do
      let saved ← ((moments (n + 1)).1.perform env (moments (n + 1)).2 (.getState case.caseId)).1
      pure (runOf case saved)) = _
    rw [hid, h.reply hc (.inr rfl) (n + 1), ← hid]
    rfl

/-- The trajectory of the run of a case, as the case sees it. -/
theorem map_eventsOf (w : EngineWorld) (backend : RepositoryBackend) (c : UUID) :
    (w.eventsOf (backend.runIdOf c)).map (TrajectoryEvent.seenBy c) = w.traceOf backend c := by
  rw [EngineWorld.eventsOf, EngineWorld.traceOf, List.map_map]
  rfl

/-- A request for a case of the tenant is answered alike. -/
theorem MomentsAlike.respond (h : MomentsAlike env.backend own moments moments') (hc : own c = true)
    (hw : ∀ n, RunsNumbered env.backend (moments n).1.store) (reviewer : Option String)
    (route : ReadRoute) :
    (route.respond env moments actor c reviewer).seenBy c =
      (route.respond env moments' actor c reviewer).seenBy c := by
  unfold ReadRoute.respond
  split
  · rfl
  rw [← h.reply hc (.inl rfl) 0, ← h.draws 1]
  have hof : ReplyOfCase env.backend c (.getCase c)
      ((moments 0).1.perform env (moments 0).2 (.getCase c)).1 :=
    (hw 0).reply rfl
  split
  · rfl
  rename_i case hcase
  rw [hcase] at hof
  split
  · rfl
  cases route with
  | investigation | evidence =>
    simp only [ReadRoute.read]
    rw [h.toRun hc hw 1]
  | trace =>
    have htrace := (h.world 1).trajectory c hc
    rw [← map_eventsOf, ← map_eventsOf] at htrace
    simp only [ReadRoute.read, ReadAnswer.seenBy, (hof case rfl).runId, htrace]

section Home

variable {w w' : EngineWorld} {reviewers reviewers' : Dict UUID String}

/-- The home page leaves out the cases of other tenants. -/
theorem showCase_foreign {visible : Dict String CaseData} {case : CaseData}
    (hactor : fullAccessRole ∉ actor.roles) (htenant : case.tenantId ≠ actor.tenantId) :
    showCase actor reviewers visible case = visible := by
  rw [showCase, authorizeCase_foreign hactor htenant]

/-- The home page shows what it would if there were no cases of other tenants. -/
theorem visibleCases_restrict (hactor : fullAccessRole ∉ actor.roles)
    (hown : w.store.OwnedBy own actor.tenantId) :
    visibleCases w actor reviewers =
      (w.store.cases.restrict own).values.reverse.foldl (showCase actor reviewers) .empty := by
  have hentries : ∀ entry ∈ w.store.cases.entries, own entry.1 ≠ true →
      entry.2.tenantId ≠ actor.tenantId := by
    intro entry hentry hnot heq
    exact hnot ((hown entry.1 entry.2 ((w.store.cases.mem_entries_iff _ _).mp hentry)).mpr heq)
  change (w.store.cases.entries.map Prod.snd).reverse.foldl _ _ =
    ((w.store.cases.entries.filter fun entry => own entry.1).map Prod.snd).reverse.foldl _ _
  rw [List.foldl_reverse, List.foldl_reverse]
  generalize w.store.cases.entries = entries at hentries
  induction entries with
  | nil => rfl
  | cons entry rest ih =>
    have hrest := ih fun e he => hentries e (List.mem_cons_of_mem _ he)
    by_cases hmine : own entry.1 = true
    · simp [hmine, hrest]
    · have hforeign := hentries entry List.mem_cons_self hmine
      simp [hmine, hrest, showCase_foreign hactor hforeign]

/-- The home page depends on the reviewers of the tenant's cases only. -/
theorem visibleCases_reviewers {cases : Dict UUID CaseData}
    (hcases : ∀ c case, cases.get? c = some case → case.caseId = c)
    (hreviewers : ∀ c, own c = true → reviewers.get? c = reviewers'.get? c) :
    (cases.restrict own).values.reverse.foldl (showCase actor reviewers) .empty =
      (cases.restrict own).values.reverse.foldl (showCase actor reviewers') .empty := by
  apply List.foldl_ext
  intro visible case hmem
  obtain ⟨c, hcase⟩ := Dict.exists_get?_of_mem_values _ (List.mem_reverse.mp hmem)
  rw [Dict.get?_restrict] at hcase
  split at hcase
  · rename_i hc
    rw [showCase, showCase, hcases c case hcase, hreviewers c hc]
  · cases hcase

end Home

/-- Whoever is not an administrator is answered alike in two histories that are the same for its tenant:
by every route that reads a case, at moments with anything in between, and by the home page. -/
theorem reads_isolated {bank : SyntheticBank} {p q : ℕ → EnginePool} {twins : ℕ → List (ℕ × ℕ)}
    (hactor : fullAccessRole ∉ actor.roles)
    (hhistories : ∀ n, TenantHistories env own actor.tenantId bank (p n) (q n) (twins n))
    {reviewers reviewers' : Dict UUID String}
    (hreviewers : ∀ c, own c = true → reviewers.get? c = reviewers'.get? c) :
    (∀ (draws : ℕ → EngineDraws) (route : ReadRoute) (c : UUID),
      (own c = false → (draws 1).failure = .none) →
        (route.respond env (fun n => ((p n).world, draws n)) actor c (reviewers.get? c)).seenBy c =
          (route.respond env (fun n => ((q n).world, draws n)) actor c (reviewers'.get? c)).seenBy c) ∧
      visibleCases (p 0).world actor reviewers = visibleCases (q 0).world actor reviewers' := by
  have hrelated n := tenantHistories_related (hhistories n)
  constructor
  · intro draws route c haudit
    cases hc : own c with
    | true =>
      have halike : MomentsAlike env.backend own (fun n => ((p n).world, draws n))
          fun n => ((q n).world, draws n) := ⟨fun n => (hrelated n).same, fun _ => rfl⟩
      rw [hreviewers c hc]
      exact halike.respond hc (fun n => (hrelated n).inv.1.1) _ route
    | false =>
      rw [respond_foreign hactor hc (hrelated 0).inv.1.2 (haudit hc),
        respond_foreign hactor hc (hrelated 0).inv.2.2 (haudit hc)]
  · rw [visibleCases_restrict hactor (hrelated 0).inv.1.2,
      visibleCases_restrict hactor (hrelated 0).inv.2.2, (hrelated 0).same.cases]
    exact visibleCases_reviewers (fun c case hcase => ((hrelated 0).inv.2.1.cases c case hcase).caseId)
      hreviewers

end Reads

/-- An analyst of the tenant. -/
def sampleAnalyst : Actor := ⟨"investigator", {"analyst"}, "tenant"⟩

/-- The home page of an analyst does not change with the case of another tenant. -/
theorem reads_isolated_otherStart : ∃ p q : EnginePool,
    p.world.store.cases.values.map CaseData.tenantId = ["tenant", "other"] ∧
      q.world.store.cases.values.map CaseData.tenantId = ["tenant"] ∧
        visibleCases p.world sampleAnalyst .empty = visibleCases q.world sampleAnalyst .empty := by
  obtain ⟨p, q, h, hp, hq⟩ := otherStart_histories
  have hactor : fullAccessRole ∉ sampleAnalyst.roles := by decide
  exact ⟨p, q, hp, hq, (reads_isolated hactor (fun _ => h) fun _ _ => rfl).2⟩

end Amlguard
