import Amlguard.Investigations.State

/-!
# Repository, hooks and checkpointer

The world of the investigation engine and what each call does to it, for the in-memory and
the PostgreSQL repository. The two differ in the identifier of a run, in the order in which
they serve reviews, in their exceptions, and in what they take for a duplicate review.

Every call may fail from outside: before it has taken effect, or after it. The runtime is
assumed to follow the declared edges, to resume exactly the interrupted stage, and to make
the resumed value the result of its interrupt. A thread that has nothing to resume stays as
it is.
-/

namespace Amlguard

open Awaited

/-- The two repositories. -/
inductive RepositoryBackend where
  | inMemory | postgres
  deriving DecidableEq, Repr

/-- What the engine is built with, and the digests and the retrieval that it calls.

`selectPolicies` stands for the retrieval of policies for a list of evidence. -/
structure EngineEnvironment where
  backend : RepositoryBackend
  canonicalHash : Json → String
  eventHash : ℕ → String → String → UUID → AuditPayload → String → String
  uuid5 : UUID → String → UUID
  selectPolicies : List EvidenceItem → Except PyError PolicySelection
  policyJurisdiction : String
  modelId : String

/-- The records of the bank in the order in which the repository serves them. -/
structure SyntheticBank where
  alerts : List SyntheticAlert
  customers : List SyntheticCustomer
  kycRecords : List SyntheticKYC
  transactions : List SyntheticTransaction

/-- One event of the audit chain. -/
structure AuditEvent where
  sequence : ℕ
  eventType : String
  actorId : String
  caseId : UUID
  payload : AuditPayload
  previousHash : String
  eventHash : String

/-- What has happened, for proofs only. -/
structure History where
  requests : List HumanReview := []
  admitted : List (ℕ × UUID) := []
  running : List (ℕ × UUID) := []
  resetting : List (ℕ × UUID) := []
  drafted : List (UUID × ℕ) := []
  decided : List (UUID × Option ℕ × Validation) := []
  reviewed : List (HumanReview × HumanReview) := []

/-- The cases and the threads. A UUID is drawn by counting, so none is drawn twice. -/
structure Store where
  cases : Dict UUID CaseData := .empty
  threads : Dict UUID Checkpoint := .empty
  nextUuid : UUID := 0
  history : History := {}

/-- The world of the investigation engine. -/
structure EngineWorld where
  bank : SyntheticBank
  store : Store := {}
  auditEvents : List AuditEvent := []
  executions : List ToolExecution := []
  trajectory : List (UUID × TrajectoryEvent) := []

/-- Whether a call fails from outside, and whether it has taken effect by then. -/
inductive Failure where
  | none
  | before (e : PyError)
  | after (e : PyError)

/-- The call raises, if it is one that fails from outside. -/
def Failure.Raises : Failure → Prop
  | .none => False
  | .before _ | .after _ => True

instance (failure : Failure) : Decidable failure.Raises := by
  cases failure <;> unfold Failure.Raises <;> infer_instance

/-- What a call draws from outside: a failure, the answer of the model, and a UUID. -/
structure EngineDraws where
  failure : Failure
  answer : InvestigationRecommendation
  uuid : UUID

/-- The hash before the first audit event. -/
def genesisHash : String := String.ofList (List.replicate 64 '0')

/-- `get_case` and `delete_case` of an unknown case. -/
def unknownCase (caseId : UUID) : PyError := .keyError ("unknown case " ++ UUID.str caseId)

namespace RepositoryBackend

/-- No record has the value of a field. -/
def notFound (backend : RepositoryBackend) (field value : String) : PyError :=
  match backend with
  | inMemory => .keyError ("unknown " ++ field ++ "=" ++ value)
  | postgres => noResultFound

/-- A status is set for an unknown case. -/
def noCase (backend : RepositoryBackend) (caseId : UUID) : PyError :=
  match backend with
  | inMemory => unknownCase caseId
  | postgres => noResultFound

/-- A record is added to an unknown case. -/
def noParent (backend : RepositoryBackend) (caseId : UUID) : PyError :=
  match backend with
  | inMemory => unknownCase caseId
  | postgres => integrityError

/-- A case as it is read: PostgreSQL orders the reviews by their time. -/
def served (backend : RepositoryBackend) (case : CaseData) : CaseData :=
  match backend with
  | inMemory => case
  | postgres =>
    { case with reviews := case.reviews.insertionSort fun a b => a.reviewedAt ≤ b.reviewedAt }

/-- Whether a stored review of the case stands against a new one: in memory one with the same
version and action, in PostgreSQL one with the same version. -/
def duplicates (backend : RepositoryBackend) (stored review : HumanReview) : Prop :=
  match backend with
  | inMemory =>
    stored.recommendationVersion = review.recommendationVersion ∧ stored.action = review.action
  | postgres => stored.recommendationVersion = review.recommendationVersion

instance (backend : RepositoryBackend) (stored review : HumanReview) :
    Decidable (backend.duplicates stored review) := by
  cases backend <;> unfold duplicates <;> infer_instance

/-- A duplicate review is saved. -/
def duplicateReview (backend : RepositoryBackend) : PyError :=
  match backend with
  | inMemory => .valueError "duplicate review"
  | postgres => integrityError

end RepositoryBackend

/-- Serving a case changes only the order of its reviews. -/
@[simp] theorem served_status (backend : RepositoryBackend) (case : CaseData) :
    (backend.served case).status = case.status := by
  cases backend <;> rfl

@[simp] theorem served_caseId (backend : RepositoryBackend) (case : CaseData) :
    (backend.served case).caseId = case.caseId := by
  cases backend <;> rfl

@[simp] theorem served_recommendation (backend : RepositoryBackend) (case : CaseData) :
    (backend.served case).recommendation = case.recommendation := by
  cases backend <;> rfl

@[simp] theorem served_recommendationVersion (backend : RepositoryBackend) (case : CaseData) :
    (backend.served case).recommendationVersion = case.recommendationVersion := by
  cases backend <;> rfl

namespace Store

/-- The case of a tenant for an alert, which must be assigned to the investigator. -/
def existingCase (s : Store) (alertId tenantId investigatorId : String) :
    Except PyError (Option CaseData) := do
  let existing := s.cases.values.find? fun case =>
    case.alertId == alertId && case.tenantId == tenantId
  raiseIf (∃ case ∈ existing, case.assignedInvestigatorId ≠ investigatorId)
    (.permissionError "alert is already assigned to another investigator")
  pure existing

/-- A new case. The in-memory repository draws a second UUID for the run. -/
def newCase (s : Store) (backend : RepositoryBackend) (alert : SyntheticAlert)
    (tenantId investigatorId : String) : CaseData where
  caseId := s.nextUuid
  runId := match backend with
    | .inMemory => s.nextUuid + 1
    | .postgres => s.nextUuid
  alertId := alert.alertId
  customerId := alert.customerId
  tenantId := tenantId
  assignedInvestigatorId := investigatorId

/-- Store a new case. -/
def insertCase (s : Store) (case : CaseData) : Store :=
  { s with cases := s.cases.set case.caseId case, nextUuid := s.nextUuid + 2 }

/-- Find the case of an alert, or the alert to create one for. PostgreSQL looks for the alert
first, the in-memory repository for the case. -/
def resolveCase (s : Store) (env : EngineEnvironment) (bank : SyntheticBank)
    (alertId tenantId investigatorId : String) : Except PyError (CaseData ⊕ SyntheticAlert) := do
  let found := orRaise (bank.alerts.find? fun alert => alert.alertId == alertId)
    (env.backend.notFound "alert_id" alertId)
  let existing := s.existingCase alertId tenantId investigatorId
  match env.backend with
  | .inMemory =>
    match ← existing with
    | some case => pure (.inl case)
    | none => pure (.inr (← found))
  | .postgres =>
    let alert ← found
    match ← existing with
    | some case => pure (.inl case)
    | none => pure (.inr alert)

/-- `create_case`. -/
def createCase (s : Store) (env : EngineEnvironment) (bank : SyntheticBank)
    (alertId tenantId investigatorId : String) : Except PyError (CaseData × Bool) × Store :=
  match s.resolveCase env bank alertId tenantId investigatorId with
  | .error e => (.error e, s)
  | .ok (.inl case) => (.ok (env.backend.served case, false), s)
  | .ok (.inr alert) =>
    let case := s.newCase env.backend alert tenantId investigatorId
    (.ok (case, true), s.insertCase case)

/-- Change a stored case, unless the change raises. -/
def updateCase {α : Type} (s : Store) (caseId : UUID) (missing : PyError)
    (change : CaseData → Except PyError (α × CaseData)) : Except PyError α × Store :=
  match s.cases.get? caseId with
  | none => (.error missing, s)
  | some case =>
    match change case with
    | .error e => (.error e, s)
    | .ok (a, case') => (.ok a, { s with cases := s.cases.set caseId case' })

/-- `save_recommendation`. -/
def saveRecommendation (s : Store) (backend : RepositoryBackend) (caseId : UUID)
    (recommendation : InvestigationRecommendation) : Except PyError ℕ × Store :=
  s.updateCase caseId (backend.noParent caseId) fun case =>
    .ok (case.recommendationVersion + 1,
      { case with
        recommendation := some recommendation
        recommendationVersion := case.recommendationVersion + 1 })

/-- Whether the primary key of the review table stands against a review. -/
def reviewIdTaken (s : Store) (backend : RepositoryBackend) (review : HumanReview) : Prop :=
  backend = .postgres ∧
    ∃ case ∈ s.cases.values, ∃ stored ∈ case.reviews, stored.reviewId = review.reviewId

instance (s : Store) (backend : RepositoryBackend) (review : HumanReview) :
    Decidable (s.reviewIdTaken backend review) := by
  unfold reviewIdTaken
  infer_instance

/-- `save_review`. -/
def saveReview (s : Store) (backend : RepositoryBackend) (review : HumanReview) :
    Except PyError Unit × Store :=
  s.updateCase review.caseId (backend.noParent review.caseId) fun case => do
    raiseIf (s.reviewIdTaken backend review) integrityError
    raiseIf (∃ stored ∈ case.reviews, backend.duplicates stored review) backend.duplicateReview
    pure ((), { case with reviews := case.reviews ++ [review] })

/-- `set_status`. -/
def setStatus (s : Store) (backend : RepositoryBackend) (caseId : UUID) (status : CaseStatus) :
    Except PyError Unit × Store :=
  s.updateCase caseId (backend.noCase caseId) fun case => .ok ((), { case with status })

/-- `delete_case`. -/
def deleteCase (s : Store) (caseId : UUID) : Except PyError Unit × Store :=
  match s.cases.get? caseId with
  | none => (.error (unknownCase caseId), s)
  | some _ => (.ok (), { s with cases := s.cases.erase caseId })

/-- `aupdate_state` of the security fields, as the last stage that wrote the thread: the next
stage is routed anew. -/
def updateState (s : Store) (thread : UUID) (securityEvents hardBlocks : List String) : Store :=
  let saved := (s.threads.get? thread).getD ⟨{}, none, none⟩
  let values := { saved.values with securityEvents, hardBlocks, status := .hardBlocked }
  { s with
    threads := s.threads.set thread ⟨values, saved.last, routeAfter saved.last values⟩ }

end Store

namespace EngineWorld

/-- `audit`: append an event to the chain. -/
def audit (env : EngineEnvironment) (w : EngineWorld) (eventType actorId : String) (caseId : UUID)
    (payload : AuditPayload) : EngineWorld :=
  let sequence := w.auditEvents.length + 1
  let previousHash := (w.auditEvents.getLast?.map (·.eventHash)).getD genesisHash
  let eventHash := env.eventHash sequence eventType actorId caseId payload previousHash
  { w with
    auditEvents := w.auditEvents ++
      [⟨sequence, eventType, actorId, caseId, payload, previousHash, eventHash⟩] }

/-- Answer from a part of the store. -/
def onStore {α : Type} (w : EngineWorld) (r : Except PyError α × Store) :
    Except PyError α × EngineWorld :=
  (r.1, { w with store := r.2 })

/-- What a call does when it does not fail from outside. -/
def effect (env : EngineEnvironment) (w : EngineWorld) (draws : EngineDraws) :
    (c : EngineCall) → Except PyError c.Reply × EngineWorld
  | .createCase alertId tenantId investigatorId =>
    w.onStore (w.store.createCase env w.bank alertId tenantId investigatorId)
  | .getCase caseId =>
    (orRaise ((w.store.cases.get? caseId).map env.backend.served) (unknownCase caseId), w)
  | .deleteCase caseId => w.onStore (w.store.deleteCase caseId)
  | .getAlert alertId =>
    (orRaise (w.bank.alerts.find? fun alert => alert.alertId == alertId)
      (env.backend.notFound "alert_id" alertId), w)
  | .getCustomer customerId =>
    (orRaise (w.bank.customers.find? fun customer => customer.customerId == customerId)
      (env.backend.notFound "customer_id" customerId), w)
  | .getKyc customerId =>
    (orRaise (w.bank.kycRecords.find? fun kyc => kyc.customerId == customerId)
      (env.backend.notFound "customer_id" customerId), w)
  | .getTransactions customerId =>
    (.ok (w.bank.transactions.filter fun item => item.customerId == customerId), w)
  | .saveRecommendation caseId recommendation =>
    w.onStore (w.store.saveRecommendation env.backend caseId recommendation)
  | .saveReview review => w.onStore (w.store.saveReview env.backend review)
  | .setStatus caseId status => w.onStore (w.store.setStatus env.backend caseId status)
  | .audit eventType actorId caseId payload =>
    (.ok (), w.audit env eventType actorId caseId payload)
  | .trajectoryHook runId event => (.ok (), { w with trajectory := w.trajectory ++ [(runId, event)] })
  | .stageHook _ _ _ => (.ok (), w)
  | .recommend _ => (.ok draws.answer, w)
  | .uuid4 => (.ok draws.uuid, w)
  | .toolExecutions => (.ok w.executions, w)
  | .loadCheckpoint thread _ => (.ok (w.store.threads.get? thread), w)
  | .putCheckpoint thread checkpoint =>
    (.ok (), { w with
      store := { w.store with threads := w.store.threads.set thread checkpoint } })
  | .getState thread => (.ok (w.store.threads.get? thread), w)
  | .updateState thread securityEvents hardBlocks =>
    (.ok (), { w with store := w.store.updateState thread securityEvents hardBlocks })
  | .deleteThread thread =>
    (.ok (), { w with
      store := { w.store with threads := w.store.threads.erase thread } })

/-- Perform a call: with its effect, without it, or with it and an exception. -/
def perform (env : EngineEnvironment) (w : EngineWorld) (draws : EngineDraws) (c : EngineCall) :
    Except PyError c.Reply × EngineWorld :=
  match c.MayFail, draws.failure with
  | true, .before e => (.error e, w)
  | true, .after e => (.error e, (w.effect env draws c).2)
  | _, _ => w.effect env draws c

/-- Write to the history. -/
def remember (w : EngineWorld) (write : History → History) : EngineWorld :=
  { w with store := { w.store with history := write w.store.history } }

/-- Write a mark. -/
def record : EngineMark → EngineWorld → EngineWorld
  | .executed execution, w => { w with executions := w.executions ++ [execution] }
  | .admitted task caseId, w =>
    w.remember fun h => { h with admitted := (task, caseId) :: h.admitted }
  | .loaded task caseId, w =>
    w.remember fun h => { h with running := (task, caseId) :: h.running }
  | .resetting task caseId, w =>
    w.remember fun h => { h with resetting := (task, caseId) :: h.resetting }
  | .left task caseId, w =>
    w.remember fun h =>
      { h with
        admitted := h.admitted.filter (· ≠ (task, caseId))
        running := h.running.filter (· ≠ (task, caseId))
        resetting := h.resetting.filter (· ≠ (task, caseId)) }
  | .drafted caseId version, w =>
    w.remember fun h => { h with drafted := (caseId, version) :: h.drafted }
  | .decided caseId version validation, w =>
    w.remember fun h => { h with decided := (caseId, version, validation) :: h.decided }
  | .reviewed request review, w =>
    w.remember fun h => { h with reviewed := (request, review) :: h.reviewed }

end EngineWorld

end Amlguard
