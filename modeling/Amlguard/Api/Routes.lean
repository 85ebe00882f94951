import Amlguard.Api.CaseAccess
import Amlguard.Investigations.Requested
import Amlguard.Library.Transitions

/-!
# The case routes

A route that acts on a case reads it, authorizes the actor on what it has read, and then calls the
engine or assigns the reviewer; between two calls other requests go on. The engine's operations are
tasks of its pool, and the column `assigned_reviewer_id` of the stored cases is kept beside them.

The forms of the user interface make the same calls as the routes, and answer with a page. Of what the
idempotency cache holds, the keys alone decide what is called.
-/

namespace Amlguard

open Awaited

/-- A `HumanReviewRequest` that its schema accepts. -/
structure HumanReviewRequest where
  recommendationVersion : ℕ
  action : ReviewAction
  rationale : String
  editedRecommendation : Option InvestigationRecommendation
  version_pos : 1 ≤ recommendationVersion
  rationale_length : 1 ≤ rationale.length ∧ rationale.length ≤ 4000

/-- The requests that act on the cases. -/
inductive Route where
  | start (alertId contextCondition idempotencyKey : String)
  | uiStart (alertId contextCondition : String)
  | claimReview (caseId : UUID)
  | resume (caseId : UUID) (information : List (String × Json)) (submissionId : String)
  | humanReview (caseId : UUID) (body : HumanReviewRequest)
  | reset (caseId : UUID)

namespace Route

/-- The roles of which a route asks for one. -/
def allowedRoles : Route → List String
  | .start _ _ _ | .uiStart _ _ | .resume _ _ _ | .reset _ => ["analyst", "reviewer"]
  | .claimReview _ | .humanReview _ _ => ["reviewer"]

/-- The case that a route acts on, and how. -/
def target : Route → Option (UUID × CaseAction)
  | .start _ _ _ | .uiStart _ _ => none
  | .claimReview caseId => some (caseId, .claimReview)
  | .resume caseId _ _ => some (caseId, .supplyInformation)
  | .humanReview caseId _ => some (caseId, .review)
  | .reset caseId => some (caseId, .reset)

end Route

/-- How a request is answered. -/
inductive RouteAnswer where
  /-- An `HTTPException`. -/
  | refused (e : HTTPException)
  /-- An exception that the route does not handle. -/
  | raised (e : PyError)
  /-- The body of an accepted claim. -/
  | assigned (caseId : UUID) (reviewerId : String)
  /-- What the operation of the engine has returned. -/
  | served
  /-- What an earlier start has returned under the same key. -/
  | cached

/-- How far a request has got. -/
inductive RouteStage where
  /-- Its roles have been accepted. -/
  | arrived
  /-- Its access to the case has been denied, which is about to be audited. -/
  | denied (caseId : UUID) (action : CaseAction)
  /-- It is authorized on the case as it has been read. -/
  | authorized (case : CaseData)
  /-- It has assigned the case, which is about to be audited. -/
  | claimed (caseId : UUID)
  /-- It awaits an operation of the engine. -/
  | serving (task : ℕ)
  | answered (answer : RouteAnswer)

/-- A request with its actor. -/
structure RouteRequest where
  actor : Actor
  route : Route
  stage : RouteStage

/-- An audit event of a route. -/
structure RouteAudit where
  eventType : String
  actorId : String
  caseId : UUID
  payload : Json

/-- What the routes have done to reviews, for proofs only. -/
inductive RouteEvent where
  | claimed (actor : Actor) (caseId : UUID)
  | submitted (actor : Actor) (request : HumanReview)

/-- The engine, the assigned reviewers of the stored cases, the requests, and the actors and keys under
which starts are cached. -/
structure ApiWorld where
  pool : EnginePool
  reviewers : Dict UUID String := .empty
  requests : List RouteRequest := []
  idempotency : List (String × String) := []
  audits : List RouteAudit := []
  log : List RouteEvent := []

/-- What a step of a request draws from outside: whether its call fails, and the ID and the time of a
new review. -/
structure RouteDraws where
  failure : Failure
  reviewId : UUID
  now : Datetime

/-- What may happen: a request arrives, a request takes its next step, or a task of the engine does. -/
inductive ApiMove where
  | arrive (actor : Actor) (route : Route)
  | step (request : ℕ) (draws : RouteDraws)
  | engine (task : ℕ) (draws : EngineDraws)

/-- No such case, or none that the actor may know of. -/
def caseNotFound : HTTPException := ⟨404, "case not found"⟩

/-- The review that a request submits. -/
def HumanReviewRequest.toReview (body : HumanReviewRequest) (caseId : UUID) (reviewerId : String)
    (draws : RouteDraws) : Except PyError HumanReview :=
  if h : body.editedRecommendation.isSome = true ↔ body.action = .editAndApprove then
    .ok
      { reviewId := draws.reviewId
        caseId
        recommendationVersion := body.recommendationVersion
        action := body.action
        reviewerId
        rationale := body.rationale
        editedRecommendation := body.editedRecommendation
        reviewedAt := draws.now
        version_pos := body.version_pos
        rationale_length := body.rationale_length
        edited_iff := h }
  else .error (.validationError [⟨[], "value_error"⟩])

/-- How a route answers when the operation of the engine has ended. -/
def Route.answer (route : Route) : Except PyError Unit → RouteAnswer
  | .ok _ => .served
  | .error e =>
    match route with
    | .start _ _ _ | .uiStart _ _ =>
      if e.isA "PermissionError" then .refused ⟨409, "alert is already assigned within this tenant"⟩
      else .raised e
    | .resume _ _ _ | .reset _ =>
      if e.isA "ValueError" then .refused ⟨409, e.message⟩ else .raised e
    | .claimReview _ | .humanReview _ _ => .raised e

namespace ApiWorld

variable (env : EngineEnvironment) (a : ApiWorld)

/-- The store of the engine. -/
abbrev store : Store := a.pool.world.store

/-- Start an operation of the engine. -/
def serve (op : EngineOp) : ApiWorld × RouteStage :=
  ({ a with pool := ((engineSystem env).move a.pool (.start op)).getD a.pool },
    .serving a.pool.tasks.length)

/-- `get_case` with the assigned reviewer. -/
def getCase (caseId : UUID) (failure : Failure) : Except PyError (CaseData × Option String) :=
  match failure with
  | .none => do
    let case ← orRaise ((a.store.cases.get? caseId).map env.backend.served) (unknownCase caseId)
    pure (case, a.reviewers.get? caseId)
  | .before e | .after e => .error e

/-- `_case_for_action`, up to the audit of a denial. -/
def caseForAction (actor : Actor) (caseId : UUID) (action : CaseAction) (failure : Failure) :
    RouteStage :=
  match a.getCase env caseId failure with
  | .error e => .answered (if e.isA "KeyError" then .refused caseNotFound else .raised e)
  | .ok (case, assignedReviewerId) =>
    match authorizeCase actor case assignedReviewerId action with
    | .error _ => .denied caseId action
    | .ok _ => .authorized case

/-- `assign_reviewer`: the column as it is then. -/
def assignReviewer (caseId : UUID) (reviewerId : String) : Except PyError (Dict UUID String) := do
  let _ ← orRaise (a.store.cases.get? caseId) (env.backend.noCase caseId)
  raiseIf (∃ assigned ∈ a.reviewers.get? caseId, assigned ≠ reviewerId)
    (.valueError "case review is already assigned")
  pure (a.reviewers.set caseId reviewerId)

/-- The world after `assign_reviewer`. -/
def assigned (actor : Actor) (caseId : UUID) : ApiWorld :=
  match a.assignReviewer env caseId actor.actorId with
  | .error _ => a
  | .ok reviewers => { a with reviewers, log := .claimed actor caseId :: a.log }

/-- An exception of `assign_reviewer`. -/
def claimFails (e : PyError) : RouteStage :=
  .answered (if e.isA "ValueError" then .refused ⟨409, e.message⟩ else .raised e)

/-- `claim_review` on an authorized case, up to its audit. -/
def claimReview (actor : Actor) (case : CaseData) (caseId : UUID) (failure : Failure) :
    ApiWorld × RouteStage :=
  if case.status ≠ .waitingForHumanReview then
    (a, .answered (.refused ⟨409, "case is not waiting for human review"⟩))
  else
    match failure with
    | .before e => (a, claimFails e)
    | .after e => (a.assigned env actor caseId, claimFails e)
    | .none =>
      (a.assigned env actor caseId,
        match a.assignReviewer env caseId actor.actorId with
        | .error e => claimFails e
        | .ok _ => .claimed caseId)

/-- `human_review` on an authorized case. -/
def humanReview (actor : Actor) (caseId : UUID) (body : HumanReviewRequest) (draws : RouteDraws) :
    ApiWorld × RouteStage :=
  match body.toReview caseId actor.actorId draws with
  | .error e => (a, .answered (.raised e))
  | .ok review => { a with log := .submitted actor review :: a.log }.serve env (.review review)

/-- `repository.audit` in a route. -/
def audit (event : RouteAudit) (failure : Failure) (answer : RouteAnswer) : ApiWorld × RouteStage :=
  match failure with
  | .none => ({ a with audits := a.audits ++ [event] }, .answered answer)
  | .before e => (a, .answered (.raised e))
  | .after e => ({ a with audits := a.audits ++ [event] }, .answered (.raised e))

/-- A start that has returned is cached. The form of a reset also drops the keys of the case that it has
deleted, which is left out: a start under such a key is served like one under a new key. -/
def keep (actor : Actor) (route : Route) (r : Except PyError Unit) : ApiWorld :=
  match route, r with
  | .start _ _ idempotencyKey, .ok _ =>
    { a with idempotency := (actor.actorId, idempotencyKey) :: a.idempotency }
  | _, _ => a

/-- The next step of a request, unless it waits for the engine or has been answered. -/
def advance (actor : Actor) (route : Route) (draws : RouteDraws) :
    RouteStage → Option (ApiWorld × RouteStage)
  | .arrived =>
    match route with
    | .start alertId contextCondition idempotencyKey =>
      if (actor.actorId, idempotencyKey) ∈ a.idempotency then some (a, .answered .cached)
      else some (a.serve env (.start alertId actor.actorId actor.tenantId contextCondition))
    | .uiStart alertId contextCondition =>
      some (a.serve env (.uiStart alertId actor.actorId actor.tenantId contextCondition))
    | .claimReview caseId => some (a, a.caseForAction env actor caseId .claimReview draws.failure)
    | .resume caseId _ _ => some (a, a.caseForAction env actor caseId .supplyInformation draws.failure)
    | .humanReview caseId _ => some (a, a.caseForAction env actor caseId .review draws.failure)
    | .reset caseId => some (a, a.caseForAction env actor caseId .reset draws.failure)
  | .denied caseId action =>
    some (a.audit ⟨"case_authorization_denied", actor.actorId, caseId,
      .object [("action", .string action.value), ("actor_tenant_id", .string actor.tenantId),
        ("roles", .array ((actor.roles.sort (· ≤ ·)).map .string))]⟩ draws.failure
      (.refused caseNotFound))
  | .authorized case =>
    match route with
    | .start _ _ _ | .uiStart _ _ => none
    | .claimReview caseId => some (a.claimReview env actor case caseId draws.failure)
    | .resume caseId information submissionId =>
      some (a.serve env (.supplyInformation caseId ⟨actor.actorId, information, submissionId⟩))
    | .humanReview caseId body => some (a.humanReview env actor caseId body draws)
    | .reset caseId => some (a.serve env (.reset caseId actor.actorId))
  | .claimed caseId =>
    some (a.audit ⟨"case_review_claimed", actor.actorId, caseId,
      .object [("tenant_id", .string actor.tenantId)]⟩ draws.failure (.assigned caseId actor.actorId))
  | .serving task =>
    match a.pool.tasks[task]? with
    | some ⟨_, .done r⟩ => some (a.keep actor route r, .answered (route.answer r))
    | _ => none
  | .answered _ => none

/-- The world after a step of the engine: a deleted case takes its reviewer with it. -/
def settle (pool : EnginePool) : ApiWorld :=
  { a with
    pool
    reviewers := a.reviewers.filterMap fun c reviewer =>
      if (pool.world.store.cases.get? c).isSome then some reviewer else none }

/-- The effect of a move, when it can be made. -/
def move : ApiMove → Option ApiWorld
  | .arrive actor route =>
    let stage := match requireRoles route.allowedRoles actor with
      | .error e => .answered (.refused e)
      | .ok _ => .arrived
    some { a with requests := a.requests ++ [⟨actor, route, stage⟩] }
  | .step i draws => do
    let request ← a.requests[i]?
    let (a', stage) ← a.advance env request.actor request.route draws request.stage
    pure { a' with requests := a.requests.set i { request with stage } }
  | .engine task draws =>
    ((engineSystem env).move a.pool (.advance task draws)).map a.settle

/-- The effect of a list of moves, when each can be made in turn. -/
def run (a : ApiWorld) : List ApiMove → Option ApiWorld
  | [] => some a
  | m :: rest => (a.move env m).bind fun b => run b rest

end ApiWorld

/-- No request has arrived yet. -/
def idleApi (bank : SyntheticBank) : ApiWorld where
  pool := idleEngine bank

end Amlguard
