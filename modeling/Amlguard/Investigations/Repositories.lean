import Amlguard.Investigations.Repository
import Amlguard.Library.Components
import Amlguard.Library.Tables

/-!
# The two case repositories

The cases are kept in memory or in PostgreSQL, behind one protocol. Both answer the same requests: a case
as it is served comes with its assigned reviewer, and a UUID and the time are drawn for each request.

PostgreSQL takes the ID of a case for that of its run, and its exceptions are of other classes. Apart from
this the two stores answer alike, whatever was requested before, except where their constraints differ:
PostgreSQL refuses a second review of a version even if its action is another, and a review ID that is taken,
and it serves reviews in the order of their time. What the columns of its tables hold is left to the tables.
-/

namespace Amlguard

open Components

/-- A case as a repository serves it, with its assigned reviewer. -/
abbrev ServedCase := CaseData × Option String

/-- What is requested of a case repository. -/
inductive RepositoryRequest where
  | listCases
  | createCase (alertId tenantId investigatorId : String)
  | getCase (caseId : UUID)
  | deleteCase (caseId : UUID)
  | saveRecommendation (caseId : UUID) (recommendation : InvestigationRecommendation)
  | saveReview (review : HumanReview)
  | assignReviewer (caseId : UUID) (reviewerId : String)
  | setStatus (caseId : UUID) (status : CaseStatus)

/-- What a request is answered with. -/
abbrev RepositoryRequest.Reply : RepositoryRequest → Type
  | listCases => List ServedCase
  | createCase _ _ _ => ServedCase × Bool
  | getCase _ => ServedCase
  | saveRecommendation _ _ => ℕ
  | deleteCase _ | saveReview _ | assignReviewer _ _ | setStatus _ _ => Unit

/-- A request with the UUID and the time that are drawn for it. -/
structure DrawnRequest where
  request : RepositoryRequest
  uuid : UUID
  now : Datetime

/-- An answer to a request. -/
abbrev DrawnRequest.Answer (q : DrawnRequest) : Type := Except PyError q.request.Reply

/-- The cases with their assigned reviewers. -/
structure CaseStore where
  store : Store := {}
  reviewers : Dict UUID String := .empty

namespace CaseStore

variable (env : EngineEnvironment) (bank : SyntheticBank) (s : CaseStore)

/-- A stored case as it is served. -/
def served (case : CaseData) : ServedCase :=
  (env.backend.served case, s.reviewers.get? case.caseId)

/-- `assign_reviewer`. -/
def assignReviewer (caseId : UUID) (reviewerId : String) : Except PyError Unit × CaseStore :=
  match s.store.cases.get? caseId with
  | none => (.error (env.backend.noCase caseId), s)
  | some _ =>
    if ∃ assigned ∈ s.reviewers.get? caseId, assigned ≠ reviewerId then
      (.error (.valueError "case review is already assigned"), s)
    else (.ok (), { s with reviewers := s.reviewers.set caseId reviewerId })

/-- `create_case`, which draws the UUID only for a new case. -/
def createCase (alertId tenantId investigatorId : String) (uuid : UUID) :
    Except PyError (ServedCase × Bool) × CaseStore :=
  match { s.store with nextUuid := uuid }.createCase env bank alertId tenantId investigatorId with
  | (.error e, _) => (.error e, s)
  | (.ok (case, false), _) => (.ok ((case, s.reviewers.get? case.caseId), false), s)
  | (.ok (case, true), store) => (.ok ((case, none), true), ⟨store, s.reviewers.erase case.caseId⟩)

/-- `delete_case`. -/
def deleteCase (caseId : UUID) : Except PyError Unit × CaseStore :=
  match s.store.deleteCase caseId with
  | (.error e, _) => (.error e, s)
  | (.ok u, store) => (.ok u, ⟨store, s.reviewers.erase caseId⟩)

/-- Answer from a change of the store. -/
def fromStore {α : Type} (r : Except PyError α × Store) : Except PyError α × CaseStore :=
  (r.1, { s with store := r.2 })

/-- What a request is answered. In the order in which cases are listed the repositories are free. -/
def answer (q : DrawnRequest) : q.Answer × CaseStore :=
  match q with
  | ⟨.listCases, _, _⟩ => (.ok (s.store.cases.values.reverse.map (s.served env)), s)
  | ⟨.createCase alertId tenantId investigatorId, uuid, _⟩ =>
    s.createCase env bank alertId tenantId investigatorId uuid
  | ⟨.getCase caseId, _, _⟩ =>
    (orRaise ((s.store.cases.get? caseId).map (s.served env)) (unknownCase caseId), s)
  | ⟨.deleteCase caseId, _, _⟩ => s.deleteCase caseId
  | ⟨.saveRecommendation caseId recommendation, _, _⟩ =>
    s.fromStore (s.store.saveRecommendation env.backend caseId recommendation)
  | ⟨.saveReview review, _, _⟩ => s.fromStore (s.store.saveReview env.backend review)
  | ⟨.assignReviewer caseId reviewerId, _, _⟩ => s.assignReviewer env caseId reviewerId
  | ⟨.setStatus caseId status, _, _⟩ => s.fromStore (s.store.setStatus env.backend caseId status)

/-- The repository of an environment over a bank. -/
def repository : Component DrawnRequest DrawnRequest.Answer CaseStore where
  answer q s := s.answer env bank q

end CaseStore

/-- An environment with another repository. -/
def EngineEnvironment.over (env : EngineEnvironment) (backend : RepositoryBackend) :
    EngineEnvironment := { env with backend }

/-- A case of the in-memory repository as it is in PostgreSQL. -/
def CaseData.onPostgres (case : CaseData) : CaseData := { case with runId := case.caseId }

/-- The reviews of a case have been stored in the order of their time. -/
def CaseData.InOrder (case : CaseData) : Prop :=
  case.reviews.Pairwise fun a b => a.reviewedAt ≤ b.reviewedAt

/-- An answer of the in-memory repository as it is in PostgreSQL. -/
def RepositoryRequest.onPostgres : (q : RepositoryRequest) → q.Reply → q.Reply
  | listCases, cases => cases.map fun served => (served.1.onPostgres, served.2)
  | createCase _ _ _, ((case, reviewer), created) => ((case.onPostgres, reviewer), created)
  | getCase _, (case, reviewer) => (case.onPostgres, reviewer)
  | deleteCase _, u | saveReview _, u | assignReviewer _ _, u | setStatus _ _, u => u
  | saveRecommendation _ _, version => version

/-- Two answers are the same. The order in which cases are listed is free. -/
def RepositoryRequest.SameReply : (q : RepositoryRequest) → q.Reply → q.Reply → Prop
  | listCases, cases, cases' => cases.Perm cases'
  | createCase _ _ _, reply, reply' => reply = reply'
  | getCase _, reply, reply' => reply = reply'
  | deleteCase _, reply, reply' => reply = reply'
  | saveRecommendation _ _, reply, reply' => reply = reply'
  | saveReview _, reply, reply' => reply = reply'
  | assignReviewer _ _, reply, reply' => reply = reply'
  | setStatus _ _, reply, reply' => reply = reply'

/-- Two exceptions are handled alike by the routes. -/
def RepositoryRequest.SameError : RepositoryRequest → PyError → PyError → Prop
  | createCase _ _ _, e, e' => e.isA "PermissionError" = e'.isA "PermissionError"
  | getCase _, e, e' | deleteCase _, e, e' => e = e'
  | assignReviewer _ _, e, e' => e.isA "ValueError" = e'.isA "ValueError"
  | listCases, _, _ | saveRecommendation _ _, _, _ | saveReview _, _, _ | setStatus _ _, _, _ => True

/-- PostgreSQL answers as the in-memory repository does. -/
def RepositoryRequest.AlikeOnPostgres (q : RepositoryRequest) :
    Except PyError q.Reply → Except PyError q.Reply → Prop
  | .ok reply, .ok reply' => q.SameReply (q.onPostgres reply) reply'
  | .error e, .error e' => q.SameError e e'
  | .ok _, .error _ | .error _, .ok _ => False

namespace CaseStore

/-- The case of a tenant for an alert. -/
def pairCase (s : CaseStore) (alertId tenantId : String) : Option CaseData :=
  s.store.cases.values.find? fun case => case.alertId == alertId && case.tenantId == tenantId

/-- The constraints of PostgreSQL do not refuse a review that the in-memory repository accepts: there is
one with its version and action, or none with its version and none with its ID. -/
def Constrained (s : CaseStore) (case : CaseData) (review : HumanReview) : Prop :=
  (∃ stored ∈ case.reviews, stored.recommendationVersion = review.recommendationVersion ∧
      stored.action = review.action) ∨
    (∀ stored ∈ case.reviews, stored.recommendationVersion ≠ review.recommendationVersion) ∧
      ∀ other ∈ s.store.cases.values, ∀ stored ∈ other.reviews, stored.reviewId ≠ review.reviewId

/-- The repositories answer a request alike in this state of the in-memory one. -/
def Safe (s : CaseStore) : RepositoryRequest → Prop
  | .listCases => ∀ case ∈ s.store.cases.values, case.InOrder
  | .createCase alertId tenantId investigatorId => ∀ case, s.pairCase alertId tenantId = some case →
      case.assignedInvestigatorId = investigatorId → case.InOrder
  | .getCase caseId => ∀ case, s.store.cases.get? caseId = some case → case.InOrder
  | .saveReview review => ∀ case, s.store.cases.get? review.caseId = some case → s.Constrained case review
  | .deleteCase _ | .saveRecommendation _ _ | .assignReviewer _ _ | .setStatus _ _ => True

/-- PostgreSQL holds the same cases. -/
structure Twins (bank : SyntheticBank) (s s' : CaseStore) : Prop where
  cases : s'.store.cases = s.store.cases.map CaseData.onPostgres
  reviewers : s'.reviewers = s.reviewers
  keyed (c : UUID) (case : CaseData) (h : s.store.cases.get? c = some case) : case.caseId = c
  raised (c : UUID) (case : CaseData) (h : s.store.cases.get? c = some case) :
    ∃ alert, (bank.alerts.find? fun alert => alert.alertId == case.alertId) = some alert

variable {env : EngineEnvironment} {bank : SyntheticBank} {s s' : CaseStore}

/-- Reviews are served in the order in which they are stored exactly if that is the order of their time. -/
theorem served_eq_iff {case : CaseData} :
    RepositoryBackend.postgres.served case = case ↔ case.InOrder := by
  constructor
  · intro h
    have hreviews := congrArg CaseData.reviews h
    unfold CaseData.InOrder
    rw [← hreviews]
    exact List.pairwise_insertionSort _ _
  · intro h
    have hreviews := h.insertionSort_eq
    unfold RepositoryBackend.served
    rw [hreviews]

/-- The case that PostgreSQL serves is the one in memory exactly if its reviews are in order. -/
theorem onPostgres_served_iff {case : CaseData} :
    RepositoryBackend.postgres.served case.onPostgres = case.onPostgres ↔ case.InOrder :=
  served_eq_iff

/-- The new case of a pair, under the UUID that is drawn. -/
def newCase (s : CaseStore) (backend : RepositoryBackend) (alert : SyntheticAlert)
    (tenantId investigatorId : String) (uuid : UUID) : CaseData :=
  { s.store with nextUuid := uuid }.newCase backend alert tenantId investigatorId

/-- The repository with a new case. -/
def insertCase (s : CaseStore) (case : CaseData) (uuid : UUID) : CaseStore :=
  ⟨{ s.store with nextUuid := uuid }.insertCase case, s.reviewers.erase case.caseId⟩

/-- `create_case` in memory looks for the case first. -/
theorem createCase_inMemory (alertId tenantId investigatorId : String) (uuid : UUID) :
    s.createCase (env.over .inMemory) bank alertId tenantId investigatorId uuid =
      match s.pairCase alertId tenantId with
      | some case =>
        if case.assignedInvestigatorId ≠ investigatorId then
          (.error (.permissionError "alert is already assigned to another investigator"), s)
        else (.ok ((case, s.reviewers.get? case.caseId), false), s)
      | none =>
        match bank.alerts.find? fun alert => alert.alertId == alertId with
        | none => (.error (RepositoryBackend.inMemory.notFound "alert_id" alertId), s)
        | some alert =>
          let case := s.newCase .inMemory alert tenantId investigatorId uuid
          (.ok ((case, none), true), s.insertCase case uuid) := by
  unfold createCase Store.createCase Store.resolveCase Store.existingCase pairCase
  cases hpair : s.store.cases.values.find? fun case =>
      case.alertId == alertId && case.tenantId == tenantId with
  | none =>
    cases halert : bank.alerts.find? fun alert => alert.alertId == alertId with
    | none => simp [ok_bind, EngineEnvironment.over, raiseIf, orRaise]
    | some alert => simp [ok_bind, EngineEnvironment.over, raiseIf, orRaise, newCase, insertCase]
  | some case =>
    by_cases hassigned : case.assignedInvestigatorId = investigatorId
    · simp [ok_bind, pure, Except.pure, EngineEnvironment.over, raiseIf, hassigned,
        RepositoryBackend.served]
    · simp [error_bind, EngineEnvironment.over, raiseIf, hassigned]

/-- `create_case` in PostgreSQL looks for the alert first. -/
theorem createCase_postgres (alertId tenantId investigatorId : String) (uuid : UUID) :
    s.createCase (env.over .postgres) bank alertId tenantId investigatorId uuid =
      match bank.alerts.find? fun alert => alert.alertId == alertId with
      | none => (.error noResultFound, s)
      | some alert =>
        match s.pairCase alertId tenantId with
        | some case =>
          if case.assignedInvestigatorId ≠ investigatorId then
            (.error (.permissionError "alert is already assigned to another investigator"), s)
          else (.ok ((RepositoryBackend.postgres.served case, s.reviewers.get? case.caseId), false), s)
        | none =>
          let case := s.newCase .postgres alert tenantId investigatorId uuid
          (.ok ((case, none), true), s.insertCase case uuid) := by
  unfold createCase Store.createCase Store.resolveCase Store.existingCase pairCase
  cases halert : bank.alerts.find? fun alert => alert.alertId == alertId with
  | none => simp [error_bind, EngineEnvironment.over, orRaise, RepositoryBackend.notFound]
  | some alert =>
    cases hpair : s.store.cases.values.find? fun case =>
        case.alertId == alertId && case.tenantId == tenantId with
    | none => simp [ok_bind, EngineEnvironment.over, raiseIf, orRaise, newCase, insertCase]
    | some case =>
      by_cases hassigned : case.assignedInvestigatorId = investigatorId
      · simp [ok_bind, EngineEnvironment.over, raiseIf, orRaise, hassigned]
      · simp [ok_bind, error_bind, EngineEnvironment.over, raiseIf, orRaise, hassigned]

namespace Twins

/-- The same case is found for a tenant and an alert. -/
theorem pairCase (h : Twins bank s s') (alertId tenantId : String) :
    s'.pairCase alertId tenantId = (s.pairCase alertId tenantId).map CaseData.onPostgres := by
  unfold CaseStore.pairCase
  rw [h.cases, Dict.values_map, List.find?_map]
  rfl

/-- The same case is stored under an ID. -/
theorem get? (h : Twins bank s s') (c : UUID) :
    s'.store.cases.get? c = (s.store.cases.get? c).map CaseData.onPostgres := by
  rw [h.cases, Dict.get?_map]

/-- The alert of a case that is found is in the bank. -/
theorem alert (h : Twins bank s s') {alertId tenantId : String} {case : CaseData}
    (hcase : s.pairCase alertId tenantId = some case) :
    ∃ alert, (bank.alerts.find? fun alert => alert.alertId == alertId) = some alert := by
  obtain ⟨c, hc⟩ := s.store.cases.exists_get?_of_mem_values (List.mem_of_find?_eq_some hcase)
  have hpair := List.find?_some hcase
  simp only [Bool.and_eq_true, beq_iff_eq] at hpair
  rw [← hpair.1]
  exact h.raised c case hc

/-- A case that is stored in both is the same in both. -/
theorem put (h : Twins bank s s') (case : CaseData) {store store' : Store} {reviewers : Dict UUID String}
    (hraised : ∃ alert, (bank.alerts.find? fun alert => alert.alertId == case.alertId) = some alert)
    (hcases : store.cases = s.store.cases.set case.caseId case)
    (hcases' : store'.cases = s'.store.cases.set case.caseId case.onPostgres) :
    Twins bank ⟨store, reviewers⟩ ⟨store', reviewers⟩ := by
  have hstored : ∀ c stored, store.cases.get? c = some stored →
      (c = case.caseId ∧ stored = case) ∨ s.store.cases.get? c = some stored := by
    intro c stored hstored
    rw [hcases, Dict.get?_set] at hstored
    by_cases hc : case.caseId = c
    · rw [if_pos hc] at hstored
      exact .inl ⟨hc.symm, (Option.some.inj hstored).symm⟩
    · rw [if_neg hc] at hstored
      exact .inr hstored
  constructor
  · change store'.cases = store.cases.map _
    rw [hcases, hcases', h.cases, Dict.map_set]
  · rfl
  · intro c stored hc
    cases hstored c stored hc with
    | inl hnew => rw [hnew.1, hnew.2]
    | inr hold => exact h.keyed c stored hold
  · intro c stored hc
    cases hstored c stored hc with
    | inl hnew => rwa [hnew.2]
    | inr hold => exact h.raised c stored hold

/-- A case that is changed in both stays the same in both. -/
theorem change (h : Twins bank s s') {c : UUID} {case case' : CaseData}
    (hcase : s.store.cases.get? c = some case) (hid : case'.caseId = case.caseId)
    (halert : case'.alertId = case.alertId) :
    Twins bank ⟨{ s.store with cases := s.store.cases.set c case' }, s.reviewers⟩
      ⟨{ s'.store with cases := s'.store.cases.set c case'.onPostgres }, s'.reviewers⟩ := by
  have hc : c = case'.caseId := by
    rw [hid, h.keyed c case hcase]
  rw [h.reviewers]
  apply h.put case' _ (by rw [hc]) (by rw [hc])
  rw [halert]
  exact h.raised c case hcase

/-- A case that is deleted in both is gone in both. -/
theorem erase (h : Twins bank s s') (c : UUID) {reviewers : Dict UUID String} :
    Twins bank ⟨{ s.store with cases := s.store.cases.erase c }, reviewers⟩
      ⟨{ s'.store with cases := s'.store.cases.erase c }, reviewers⟩ := by
  have hstored : ∀ k stored, (s.store.cases.erase c).get? k = some stored →
      s.store.cases.get? k = some stored := by
    intro k stored hk
    rw [Dict.get?_erase] at hk
    by_cases hck : c = k
    · rw [if_pos hck] at hk
      cases hk
    · rwa [if_neg hck] at hk
  constructor
  · change s'.store.cases.erase c = (s.store.cases.erase c).map _
    rw [h.cases, Dict.map_erase]
  · rfl
  · exact fun k stored hk => h.keyed k stored (hstored k stored hk)
  · exact fun k stored hk => h.raised k stored (hstored k stored hk)

end Twins

/-- The ID of a served case. -/
def servedId (served : ServedCase) : UUID := served.1.caseId

/-- A served case with its reviews in the order of their time. -/
def inTimeOrder (served : ServedCase) : ServedCase :=
  (RepositoryBackend.postgres.served served.1, served.2)

/-- The order of the reviews does not change the ID. -/
theorem servedId_inTimeOrder (served : ServedCase) : servedId (inTimeOrder served) = servedId served :=
  served_caseId _ _

/-- Two answers to a request are alike exactly if it is safe, and a safe one leads to the same cases. -/
def Matched (bank : SyntheticBank) (q : RepositoryRequest) (safe : Prop)
    (r r' : Except PyError q.Reply × CaseStore) : Prop :=
  (q.AlikeOnPostgres r.1 r'.1 ↔ safe) ∧ (safe → Twins bank r.2 r'.2)

namespace Twins

/-- Distinct cases have distinct IDs. -/
theorem caseIds_nodup (h : Twins bank s s') : (s.store.cases.values.map (·.caseId)).Nodup := by
  have hkeys : s.store.cases.values.map (·.caseId) = s.store.cases.keys := by
    unfold Dict.values Dict.keys
    rw [List.map_map, List.map_inj_left]
    intro e he
    exact h.keyed e.1 e.2 ((s.store.cases.mem_entries_iff e.1 e.2).mp he)
  rw [hkeys]
  exact s.store.cases.nodup

/-- `list_cases` in both. -/
theorem listCases (h : Twins bank s s') :
    Matched bank .listCases (s.Safe .listCases)
      (.ok (s.store.cases.values.reverse.map (s.served (env.over .inMemory))), s)
      (.ok (s'.store.cases.values.reverse.map (s'.served (env.over .postgres))), s') := by
  constructor
  · let listed := s.store.cases.values.reverse.map fun case =>
      (case.onPostgres, s.reviewers.get? case.caseId)
    have hmemory : RepositoryRequest.listCases.onPostgres
        (s.store.cases.values.reverse.map (s.served (env.over .inMemory))) = listed := by
      simp only [RepositoryRequest.onPostgres, List.map_map]
      rfl
    have hpostgres : s'.store.cases.values.reverse.map (s'.served (env.over .postgres)) =
        listed.map inTimeOrder := by
      simp only [h.cases, Dict.values_map, listed, ← List.map_reverse, List.map_map, Function.comp_def]
      unfold CaseStore.served
      rw [h.reviewers]
      rfl
    have hnodup : (listed.map servedId).Nodup := by
      rw [List.map_map, List.map_reverse, List.nodup_reverse]
      exact h.caseIds_nodup
    change (RepositoryRequest.listCases.onPostgres _).Perm (s'.store.cases.values.reverse.map _) ↔ _
    rw [hmemory, hpostgres, List.perm_comm, Tables.map_perm_iff servedId_inTimeOrder hnodup]
    simp only [listed, inTimeOrder, List.forall_mem_map, List.mem_reverse, Prod.mk.injEq, and_true,
      onPostgres_served_iff]
    rfl
  · exact fun _ => h

/-- `create_case` in both. -/
theorem createCase (h : Twins bank s s') (alertId tenantId investigatorId : String) (uuid : UUID) :
    Matched bank (.createCase alertId tenantId investigatorId)
      (s.Safe (.createCase alertId tenantId investigatorId))
      (s.createCase (env.over .inMemory) bank alertId tenantId investigatorId uuid)
      (s'.createCase (env.over .postgres) bank alertId tenantId investigatorId uuid) := by
  rw [createCase_inMemory, createCase_postgres, h.pairCase]
  cases hpair : s.pairCase alertId tenantId with
  | none =>
    have hsafe : s.Safe (.createCase alertId tenantId investigatorId) := by
      intro case hcase
      rw [hpair] at hcase
      cases hcase
    cases halert : bank.alerts.find? fun alert => alert.alertId == alertId with
    | none => exact ⟨iff_of_true rfl hsafe, fun _ => h⟩
    | some alert =>
      constructor
      · exact iff_of_true rfl hsafe
      · intro _
        unfold insertCase
        rw [h.reviewers]
        apply h.put (s.newCase .inMemory alert tenantId investigatorId uuid) _ rfl rfl
        have hid : alert.alertId = alertId := by simpa using List.find?_some halert
        exact ⟨alert, by rw [← halert, ← hid]; rfl⟩
  | some case =>
    obtain ⟨alert, halert⟩ := h.alert hpair
    rw [halert]
    by_cases hassigned : case.assignedInvestigatorId = investigatorId
    · have hassigned' : case.onPostgres.assignedInvestigatorId = investigatorId := hassigned
      simp only [Option.map_some, hassigned, hassigned', ne_eq, not_true, if_false]
      constructor
      · change ((case.onPostgres, _), false) = ((RepositoryBackend.postgres.served case.onPostgres,
          s'.reviewers.get? case.onPostgres.caseId), false) ↔ _
        rw [h.reviewers, Prod.mk.injEq, Prod.mk.injEq, eq_comm, onPostgres_served_iff]
        constructor
        · intro hinOrder case' hcase' _
          rw [hpair] at hcase'
          cases hcase'
          exact hinOrder.1.1
        · intro hsafe
          exact ⟨⟨hsafe case hpair hassigned, rfl⟩, rfl⟩
      · intro _
        exact h
    · have hassigned' : case.onPostgres.assignedInvestigatorId ≠ investigatorId := hassigned
      simp only [Option.map_some, ne_eq, hassigned, hassigned', not_false_iff, if_true]
      constructor
      · apply iff_of_true rfl
        intro case' hcase' hassigned'
        rw [hpair] at hcase'
        cases hcase'
        exact absurd hassigned' hassigned
      · intro _
        exact h

/-- `get_case` in both. -/
theorem getCase (h : Twins bank s s') (c : UUID) :
    Matched bank (.getCase c) (s.Safe (.getCase c))
      (orRaise ((s.store.cases.get? c).map (s.served (env.over .inMemory))) (unknownCase c), s)
      (orRaise ((s'.store.cases.get? c).map (s'.served (env.over .postgres))) (unknownCase c), s') := by
  rw [h.get?]
  cases hcase : s.store.cases.get? c with
  | none =>
    constructor
    · apply iff_of_true rfl
      intro case hstored
      rw [hcase] at hstored
      cases hstored
    · exact fun _ => h
  | some case =>
    constructor
    · change ((case.onPostgres, _) = (RepositoryBackend.postgres.served case.onPostgres,
        s'.reviewers.get? case.onPostgres.caseId)) ↔ _
      rw [h.reviewers, Prod.mk.injEq, eq_comm, onPostgres_served_iff]
      constructor
      · intro hinOrder stored hstored
        rw [hcase] at hstored
        cases hstored
        exact hinOrder.1
      · intro hsafe
        exact ⟨hsafe case hcase, rfl⟩
    · exact fun _ => h

/-- `delete_case` in both. -/
theorem deleteCase (h : Twins bank s s') (c : UUID) :
    Matched bank (.deleteCase c) (s.Safe (.deleteCase c)) (s.deleteCase c) (s'.deleteCase c) := by
  unfold CaseStore.deleteCase Store.deleteCase
  rw [h.get?, h.reviewers]
  cases s.store.cases.get? c with
  | none => exact ⟨iff_of_true rfl trivial, fun _ => h⟩
  | some case => exact ⟨iff_of_true rfl trivial, fun _ => h.erase c⟩

/-- `save_recommendation` in both. -/
theorem saveRecommendation (h : Twins bank s s') (c : UUID)
    (recommendation : InvestigationRecommendation) :
    Matched bank (.saveRecommendation c recommendation) (s.Safe (.saveRecommendation c recommendation))
      (s.fromStore (s.store.saveRecommendation .inMemory c recommendation))
      (s'.fromStore (s'.store.saveRecommendation .postgres c recommendation)) := by
  unfold fromStore Store.saveRecommendation Store.updateCase
  rw [h.get?]
  cases hcase : s.store.cases.get? c with
  | none => exact ⟨iff_of_true trivial trivial, fun _ => h⟩
  | some case => exact ⟨iff_of_true rfl trivial, fun _ => h.change hcase rfl rfl⟩

/-- The constraints refuse no review that is accepted in memory when one is refused in memory, or when
PostgreSQL has neither its version nor its ID. -/
theorem constrained_iff (h : Twins bank s s') (case : CaseData) (review : HumanReview) :
    s.Constrained case review ↔
      (∃ stored ∈ case.reviews, RepositoryBackend.inMemory.duplicates stored review) ∨
        ¬(∃ stored ∈ case.onPostgres.reviews, RepositoryBackend.postgres.duplicates stored review) ∧
          ¬s'.store.reviewIdTaken .postgres review := by
  have htaken : s'.store.reviewIdTaken .postgres review ↔
      ∃ other ∈ s.store.cases.values, ∃ stored ∈ other.reviews, stored.reviewId = review.reviewId := by
    unfold Store.reviewIdTaken
    rw [h.cases, Dict.values_map]
    simp only [List.mem_map, exists_exists_and_eq_and, true_and]
    rfl
  unfold Constrained
  apply or_congr Iff.rfl
  apply and_congr
  · push Not
    rfl
  · rw [htaken]
    push Not
    rfl

/-- `save_review` in both. -/
theorem saveReview (h : Twins bank s s') (review : HumanReview) :
    Matched bank (.saveReview review) (s.Safe (.saveReview review))
      (s.fromStore (s.store.saveReview .inMemory review))
      (s'.fromStore (s'.store.saveReview .postgres review)) := by
  have hfree : ¬s.store.reviewIdTaken .inMemory review := fun htaken => by cases htaken.1
  unfold fromStore Store.saveReview Store.updateCase
  rw [h.get?]
  cases hcase : s.store.cases.get? review.caseId with
  | none =>
    constructor
    · apply iff_of_true trivial
      intro case hstored
      rw [hcase] at hstored
      cases hstored
    · exact fun _ => h
  | some case =>
    have hsafe : s.Safe (.saveReview review) ↔ s.Constrained case review := by
      simp [Safe, hcase]
    rw [hsafe, h.constrained_iff case review]
    by_cases hsame : ∃ stored ∈ case.reviews, RepositoryBackend.inMemory.duplicates stored review
    · have hversion : ∃ stored ∈ case.onPostgres.reviews,
          RepositoryBackend.postgres.duplicates stored review := by
        obtain ⟨stored, hstored, hversion, _⟩ := hsame
        exact ⟨stored, hstored, hversion⟩
      by_cases hused : s'.store.reviewIdTaken .postgres review
      · simp only [Option.map_some, raiseIf, hfree, hsame, hused, if_true, if_false, ok_bind, error_bind]
        exact ⟨iff_of_true trivial (.inl trivial), fun _ => h⟩
      · simp only [Option.map_some, raiseIf, hfree, hsame, hused, hversion, if_true, if_false, ok_bind,
          error_bind]
        exact ⟨iff_of_true trivial (.inl trivial), fun _ => h⟩
    · by_cases hused : s'.store.reviewIdTaken .postgres review
      · simp only [Option.map_some, raiseIf, hfree, hsame, hused, if_true, if_false, ok_bind, error_bind,
          not_true, and_false, or_false]
        exact ⟨Iff.rfl, False.elim⟩
      · by_cases hversion : ∃ stored ∈ case.onPostgres.reviews,
            RepositoryBackend.postgres.duplicates stored review
        · simp only [Option.map_some, raiseIf, hfree, hsame, hused, hversion, if_true, if_false, ok_bind,
            error_bind, not_true, false_and, or_false]
          exact ⟨Iff.rfl, False.elim⟩
        · simp only [Option.map_some, raiseIf, hfree, hsame, hused, hversion, if_false, ok_bind, not_false_iff,
            and_true, or_true]
          exact ⟨iff_of_true rfl trivial, fun _ => h.change hcase rfl rfl⟩

/-- `set_status` in both. -/
theorem setStatus (h : Twins bank s s') (c : UUID) (status : CaseStatus) :
    Matched bank (.setStatus c status) (s.Safe (.setStatus c status))
      (s.fromStore (s.store.setStatus .inMemory c status))
      (s'.fromStore (s'.store.setStatus .postgres c status)) := by
  unfold fromStore Store.setStatus Store.updateCase
  rw [h.get?]
  cases hcase : s.store.cases.get? c with
  | none => exact ⟨iff_of_true trivial trivial, fun _ => h⟩
  | some case => exact ⟨iff_of_true rfl trivial, fun _ => h.change hcase rfl rfl⟩

/-- `assign_reviewer` in both. -/
theorem assignReviewer (h : Twins bank s s') (c : UUID) (reviewerId : String) :
    Matched bank (.assignReviewer c reviewerId) (s.Safe (.assignReviewer c reviewerId))
      (s.assignReviewer (env.over .inMemory) c reviewerId)
      (s'.assignReviewer (env.over .postgres) c reviewerId) := by
  unfold CaseStore.assignReviewer
  rw [h.get?, h.reviewers]
  cases s.store.cases.get? c with
  | none => exact ⟨iff_of_true rfl trivial, fun _ => h⟩
  | some case =>
    simp only [Option.map_some]
    split
    · exact ⟨iff_of_true rfl trivial, fun _ => h⟩
    · exact ⟨iff_of_true rfl trivial, fun _ => ⟨h.cases, rfl, h.keyed, h.raised⟩⟩

/-- Any request in both. -/
theorem matched (h : Twins bank s s') (q : DrawnRequest) :
    Matched bank q.request (s.Safe q.request) (s.answer (env.over .inMemory) bank q)
      (s'.answer (env.over .postgres) bank q) := by
  obtain ⟨request, uuid, now⟩ := q
  cases request with
  | listCases => exact h.listCases
  | createCase alertId tenantId investigatorId =>
    exact h.createCase alertId tenantId investigatorId uuid
  | getCase c => exact h.getCase c
  | deleteCase c => exact h.deleteCase c
  | saveRecommendation c recommendation => exact h.saveRecommendation c recommendation
  | saveReview review => exact h.saveReview review
  | assignReviewer c reviewerId => exact h.assignReviewer c reviewerId
  | setStatus c status => exact h.setStatus c status

end Twins

/-- PostgreSQL answers safe requests as the in-memory repository does. -/
theorem repositories_correspond (env : EngineEnvironment) (bank : SyntheticBank)
    (admitted : DrawnRequest → Prop) :
    Corresponds (repository (env.over .inMemory) bank) (repository (env.over .postgres) bank)
      (fun q => q.request.AlikeOnPostgres) admitted (fun s q => s.Safe q.request) (Twins bank) where
  alike_iff _ _ q h _ := (h.matched q).1
  next _ _ q h _ := (h.matched q).2

/-- Two empty repositories hold the same cases. -/
theorem twins_empty (bank : SyntheticBank) : Twins bank {} {} where
  cases := rfl
  reviewers := rfl
  keyed _ _ h := by cases h
  raised _ _ h := by cases h

end CaseStore

end Amlguard
