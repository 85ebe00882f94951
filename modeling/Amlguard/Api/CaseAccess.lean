import Amlguard.Investigations.State
import Mathlib.Data.Finset.Sort
import Mathlib.Data.String.Basic

/-!
# Access to cases

A route first asks for a role and then, once the case has been read, for a tie between the actor and
the case: the tenant, and for most actions an assignment. Administrators pass every check.
-/

namespace Amlguard

/-- `FULL_ACCESS_ROLE`. -/
def fullAccessRole : String := "administrator"

/-- An `Actor`. -/
structure Actor where
  actorId : String
  roles : Finset String
  tenantId : String
  deriving DecidableEq

/-- An `HTTPException`. -/
structure HTTPException where
  statusCode : ℕ
  detail : String
  deriving DecidableEq, Repr

/-- `require_roles`, for an actor that has been identified. -/
def requireRoles (allowed : List String) (actor : Actor) : Except HTTPException Unit :=
  if fullAccessRole ∉ actor.roles ∧ ∀ role ∈ allowed, role ∉ actor.roles then
    .error ⟨403, "insufficient role"⟩
  else .ok ()

/-- The actions on a case. -/
inductive CaseAction where
  | claimReview | readCase | readEvidence | readTrace | reset | review | supplyInformation
  deriving DecidableEq, Repr

/-- The literal of an action. -/
def CaseAction.value : CaseAction → String
  | .claimReview => "claim_review"
  | .readCase => "read_case"
  | .readEvidence => "read_evidence"
  | .readTrace => "read_trace"
  | .reset => "reset"
  | .review => "review"
  | .supplyInformation => "supply_information"

/-- `CaseAccessDenied(message)`. -/
def caseAccessDenied (message : String) : PyError :=
  { typeName := "CaseAccessDenied", bases := ["PermissionError", "OSError"], message }

/-- `authorize_case`, on a case with its assigned reviewer. -/
def authorizeCase (actor : Actor) (case : CaseData) (assignedReviewerId : Option String)
    (action : CaseAction) : Except PyError Unit :=
  let isInvestigator := actor.actorId = case.assignedInvestigatorId
  let isReviewer := some actor.actorId = assignedReviewerId
  if fullAccessRole ∈ actor.roles then .ok ()
  else if actor.tenantId ≠ case.tenantId then
    .error (caseAccessDenied "case belongs to another tenant")
  else match action with
    | .claimReview =>
      if "reviewer" ∉ actor.roles then .error (caseAccessDenied "reviewer role required")
      else if isInvestigator then
        .error (caseAccessDenied "an investigator cannot claim their own review")
      else .ok ()
    | .review =>
      if "reviewer" ∉ actor.roles ∨ ¬isReviewer then
        .error (caseAccessDenied "reviewer is not assigned to this case")
      else .ok ()
    | .readTrace =>
      if "researcher" ∉ actor.roles then .error (caseAccessDenied "researcher role required")
      else .ok ()
    | .readCase | .readEvidence =>
      if "researcher" ∈ actor.roles ∨ isInvestigator ∨ isReviewer then .ok ()
      else .error (caseAccessDenied "actor is not assigned to this case")
    | .supplyInformation =>
      if isInvestigator ∨ isReviewer then .ok ()
      else .error (caseAccessDenied "actor is not authorized for this case action")
    | .reset =>
      if isInvestigator then .ok ()
      else .error (caseAccessDenied "actor is not authorized for this case action")

/-- What ties an actor without full access to a case for an action. -/
def Tied (actor : Actor) (case : CaseData) (assignedReviewerId : Option String) : CaseAction → Prop
  | .claimReview => "reviewer" ∈ actor.roles ∧ actor.actorId ≠ case.assignedInvestigatorId
  | .review => "reviewer" ∈ actor.roles ∧ some actor.actorId = assignedReviewerId
  | .readTrace => "researcher" ∈ actor.roles
  | .readCase | .readEvidence => "researcher" ∈ actor.roles ∨
      actor.actorId = case.assignedInvestigatorId ∨ some actor.actorId = assignedReviewerId
  | .supplyInformation => actor.actorId = case.assignedInvestigatorId ∨
      some actor.actorId = assignedReviewerId
  | .reset => actor.actorId = case.assignedInvestigatorId

/-- Who is not refused is accepted. -/
theorem accepted_iff {P : Prop} [Decidable P] {e : PyError} :
    (if P then .ok () else .error e : Except PyError Unit) = .ok () ↔ P := by
  by_cases h : P
  · simp [h]
  · simp [h]

/-- An actor is authorized exactly with full access, or within the tenant and tied to the case. -/
theorem authorizeCase_eq_ok {actor : Actor} {case : CaseData} {assignedReviewerId : Option String}
    {action : CaseAction} : authorizeCase actor case assignedReviewerId action = .ok () ↔
      fullAccessRole ∈ actor.roles ∨
        actor.tenantId = case.tenantId ∧ Tied actor case assignedReviewerId action := by
  unfold authorizeCase
  by_cases hfull : fullAccessRole ∈ actor.roles
  · simp [hfull]
  by_cases htenant : actor.tenantId = case.tenantId
  · simp only [hfull, htenant, if_false, ne_eq, not_true_eq_false, true_and, false_or]
    cases action with
    | claimReview =>
      by_cases hrole : "reviewer" ∈ actor.roles
      · simp [hrole, Tied]
      · simp [hrole, Tied]
    | review | readTrace | reset => simp [Tied]
    | readCase | readEvidence | supplyInformation => exact accepted_iff
  · simp [hfull, htenant]

end Amlguard
