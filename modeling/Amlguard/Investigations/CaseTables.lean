import Amlguard.Investigations.CaseCreation
import Amlguard.Investigations.Repositories
import Amlguard.Investigations.Service
import Amlguard.Library.Rows
import Mathlib.Data.List.MinMax

/-!
# The tables of the cases

`PostgresInvestigationRepository` keeps a case in three tables: its own row, one row for each version of the
recommendation, and one for each review. A case is read from all of them, and the recommendation of a row is
what pydantic makes of its payload. Every request is one transaction here, and a constraint that is violated
refuses it. Texts have no null character, which PostgreSQL takes in no text.

The tables answer every request as the dictionary of cases does, as long as the columns hold the texts and the
versions and a new case has a new ID and a new reference. So what is shown of the cases of the engine holds of
the tables.
-/

namespace Amlguard

open Components

/-- A row of the customer table, with the columns that the repository reads. -/
structure CustomerRow where
  id : UUID
  customerRef : String

/-- The tables of the bank to which cases refer. -/
structure BankTables where
  alerts : List AlertRecord
  customers : List CustomerRow

/-- A row of the case table. -/
structure CaseRow extends CaseRecord where
  assignedReviewerId : Option String := none
  updatedAt : Datetime
  deriving DecidableEq

/-- A row of the recommendation table. -/
structure RecommendationRecord where
  caseId : UUID
  version : ℕ
  payload : List (String × Json)

/-- A row of the review table. -/
structure HumanReviewRecord where
  id : UUID
  caseId : UUID
  recommendationVersion : ℕ
  action : ReviewAction
  reviewerId : String
  rationale : String
  editedPayload : Option (List (String × Json))
  reviewedAt : Datetime

/-- A case with a new version of its recommendation. -/
def CaseData.saved (case : CaseData) (recommendation : InvestigationRecommendation) : CaseData :=
  { case with
    recommendation := some recommendation
    recommendationVersion := case.recommendationVersion + 1 }

/-- How pydantic dumps a recommendation to an object, and what it makes of an object. -/
structure PayloadCodec where
  modelDump : InvestigationRecommendation → List (String × Json)
  modelValidate : List (String × Json) → Except PyError InvestigationRecommendation

/-- The edited recommendation of a review, if there is a payload. An empty payload counts as none. -/
def PayloadCodec.edited (codec : PayloadCodec) :
    Option (List (String × Json)) → Except PyError (Option InvestigationRecommendation)
  | none | some [] => .ok none
  | some payload => some <$> codec.modelValidate payload

/-- The recommendation of a row, if there is one. -/
def PayloadCodec.recommended (codec : PayloadCodec) :
    Option RecommendationRecord → Except PyError (Option InvestigationRecommendation)
  | none => .ok none
  | some row => some <$> codec.modelValidate row.payload

/-- A recommendation survives its payload. -/
structure PayloadCodec.RoundTrips (codec : PayloadCodec) (r : InvestigationRecommendation) : Prop where
  dump_ne_nil : codec.modelDump r ≠ []
  validate_dump : codec.modelValidate (codec.modelDump r) = .ok r

/-- The three tables of the cases. -/
structure CaseTables where
  cases : List CaseRow := []
  recommendations : List RecommendationRecord := []
  reviews : List HumanReviewRecord := []

/-- Store a number in a column of 32 bits. -/
def integer (n : ℕ) : Except PyError ℕ := if n ≤ 2147483647 then .ok n else .error dataError

/-- `scalar_one_or_none` on more than one row. -/
def multipleResultsFound : PyError where
  typeName := "MultipleResultsFound"
  bases := ["InvalidRequestError", "SQLAlchemyError"]

variable (codec : PayloadCodec)

/-- The columns hold a review. -/
def HumanReview.Storable (review : HumanReview) : Prop :=
  review.reviewerId.length ≤ 120 ∧ review.recommendationVersion ≤ 2147483647

instance (review : HumanReview) : Decidable review.Storable :=
  inferInstanceAs (Decidable (review.reviewerId.length ≤ 120 ∧ review.recommendationVersion ≤ 2147483647))

/-- Store what limits the columns of a review. -/
def HumanReview.columns (review : HumanReview) : Except PyError Unit := do
  let _ ← varchar 120 review.reviewerId
  let _ ← integer review.recommendationVersion
  pure ()

/-- A review that can be stored fits its columns. -/
theorem HumanReview.columns_of_storable {review : HumanReview} (h : review.Storable) : review.columns = .ok () := by
  unfold columns varchar integer
  rw [if_pos h.1, if_pos h.2]
  rfl

/-- Another review does not fit them. -/
theorem HumanReview.columns_of_not_storable {review : HumanReview} (h : ¬review.Storable) :
    review.columns = .error dataError := by
  unfold columns varchar integer
  by_cases hreviewer : review.reviewerId.length ≤ 120
  · rw [if_pos hreviewer, if_neg fun hversion => h ⟨hreviewer, hversion⟩]
    rfl
  · rw [if_neg hreviewer]
    rfl

/-- The row of a review. -/
def HumanReview.toRecord (review : HumanReview) : HumanReviewRecord where
  id := review.reviewId
  caseId := review.caseId
  recommendationVersion := review.recommendationVersion
  action := review.action
  reviewerId := review.reviewerId
  rationale := review.rationale
  editedPayload := review.editedRecommendation.map codec.modelDump
  reviewedAt := review.reviewedAt

/-- The review of a row, validated once more. -/
def HumanReviewRecord.toReview (caseId : UUID) (record : HumanReviewRecord) : Except PyError HumanReview := do
  let edited ← codec.edited record.editedPayload
  if h : 1 ≤ record.recommendationVersion ∧ (1 ≤ record.rationale.length ∧ record.rationale.length ≤ 4000) ∧
      (edited.isSome = true ↔ record.action = .editAndApprove) then
    .ok
      { reviewId := record.id
        caseId
        recommendationVersion := record.recommendationVersion
        action := record.action
        reviewerId := record.reviewerId
        rationale := record.rationale
        editedRecommendation := edited
        reviewedAt := record.reviewedAt
        version_pos := h.1
        rationale_length := h.2.1
        edited_iff := h.2.2 }
  else .error (.validationError [⟨[], "value_error"⟩])

namespace CaseTables

variable (bank : BankTables) (t : CaseTables)

/-- `ORDER BY version DESC LIMIT 1`, among the recommendations of a case. -/
def latest (caseId : UUID) : Option RecommendationRecord :=
  (t.recommendations.filter fun row => row.caseId = caseId).argmax (·.version)

/-- The reviews of a case, in the order in which they were inserted. -/
def reviewsOf (caseId : UUID) : List HumanReviewRecord := t.reviews.filter fun row => row.caseId = caseId

/-- `_case_data`. -/
def caseData (record : CaseRow) : Except PyError ServedCase := do
  let alert ← orRaise (bank.alerts.find? fun alert => alert.id = record.alertId) noResultFound
  let customer ← orRaise (bank.customers.find? fun customer => customer.id = record.customerId) noResultFound
  let recommendationRow := t.latest record.id
  let reviewRows := (t.reviewsOf record.id).insertionSort fun a b => a.reviewedAt ≤ b.reviewedAt
  let recommendation ← codec.recommended recommendationRow
  let reviews ← reviewRows.mapM (HumanReviewRecord.toReview codec record.id)
  pure
    ({ caseId := record.id
       runId := record.id
       alertId := alert.alertRef
       customerId := customer.customerRef
       tenantId := record.tenantId
       assignedInvestigatorId := record.assignedInvestigatorId
       status := record.status
       recommendation
       recommendationVersion := (recommendationRow.map (·.version)).getD 0
       reviews },
      record.assignedReviewerId)

/-- The row of a case. -/
def find (caseId : UUID) : Option CaseRow := t.cases.find? fun row => row.id = caseId

/-- Change the row of a case. -/
def updateCase (caseId : UUID) (change : CaseRow → CaseRow) : CaseTables :=
  { t with cases := Rows.update (fun row => row.id) caseId change t.cases }

/-- The tables with another recommendation. -/
def withRecommendation (row : RecommendationRecord) : CaseTables :=
  { t with recommendations := t.recommendations ++ [row] }

/-- The tables with another review. -/
def withReview (row : HumanReviewRecord) : CaseTables := { t with reviews := t.reviews ++ [row] }

/-- The new row of a case. -/
def newRow (alert : AlertRecord) (tenantId investigatorId : String) (uuid : UUID) (now : Datetime) :
    CaseRow where
  id := uuid
  caseRef := caseRef uuid
  alertId := alert.id
  customerId := alert.customerId
  tenantId
  assignedInvestigatorId := investigatorId
  status := .open
  updatedAt := now

/-- `create_case`. -/
def createCase (alertId tenantId investigatorId : String) (uuid : UUID) (now : Datetime) :
    Except PyError (ServedCase × Bool) × CaseTables :=
  match bank.alerts.find? fun alert => alert.alertRef = alertId with
  | none => (.error noResultFound, t)
  | some alert =>
    match t.cases.filter fun row => row.alertId = alert.id ∧ row.tenantId = tenantId with
    | [] =>
      let row := newRow alert tenantId investigatorId uuid now
      match insertCase (t.cases.map (·.toCaseRecord)) row.toCaseRecord with
      | .error e => (.error e, t)
      | .ok _ =>
        let t' := { t with cases := t.cases ++ [row] }
        ((t'.caseData codec bank row).map fun served => (served, true), t')
    | [existing] =>
      if existing.assignedInvestigatorId ≠ investigatorId then (.error alreadyAssigned, t)
      else ((t.caseData codec bank existing).map fun served => (served, false), t)
    | _ :: _ :: _ => (.error multipleResultsFound, t)

/-- `delete_case`, which deletes what refers to the case first. -/
def deleteCase (caseId : UUID) : Except PyError Unit × CaseTables :=
  match t.find caseId with
  | none => (.error (unknownCase caseId), t)
  | some _ =>
    (.ok (),
      { cases := Rows.delete (fun row => row.id) caseId t.cases
        recommendations := t.recommendations.filter fun row => row.caseId ≠ caseId
        reviews := t.reviews.filter fun row => row.caseId ≠ caseId })

/-- `save_recommendation`: the column must hold the version, the case must exist, and the version be new. -/
def saveRecommendation (caseId : UUID) (recommendation : InvestigationRecommendation) :
    Except PyError ℕ × CaseTables :=
  match integer (((t.latest caseId).map (·.version)).getD 0 + 1) with
  | .error e => (.error e, t)
  | .ok version =>
    if t.find caseId = none ∨
        ∃ row ∈ t.recommendations, row.caseId = caseId ∧ row.version = version then
      (.error integrityError, t)
    else
      (.ok version, t.withRecommendation ⟨caseId, version, codec.modelDump recommendation⟩)

/-- `save_review`: the columns must hold it, the case must exist, and the ID and the version for the case be
new. -/
def saveReview (review : HumanReview) : Except PyError Unit × CaseTables :=
  match review.columns with
  | .error e => (.error e, t)
  | .ok _ =>
    if t.find review.caseId = none ∨ ∃ row ∈ t.reviews, row.id = review.reviewId ∨
        (row.caseId = review.caseId ∧ row.recommendationVersion = review.recommendationVersion) then
      (.error integrityError, t)
    else (.ok (), t.withReview (review.toRecord codec))

/-- `assign_reviewer`. A column that keeps its value is not written. -/
def assignReviewer (caseId : UUID) (reviewerId : String) (now : Datetime) :
    Except PyError Unit × CaseTables :=
  match t.find caseId with
  | none => (.error noResultFound, t)
  | some row =>
    if row.assignedReviewerId = some reviewerId then
      (.ok (), t.updateCase caseId fun row => { row with updatedAt := now })
    else if row.assignedReviewerId ≠ none then
      (.error (.valueError "case review is already assigned"), t)
    else
      match varchar 120 reviewerId with
      | .error e => (.error e, t)
      | .ok _ =>
        (.ok (), t.updateCase caseId fun row =>
          { row with assignedReviewerId := some reviewerId, updatedAt := now })

/-- `set_status`. -/
def setStatus (caseId : UUID) (status : CaseStatus) (now : Datetime) : Except PyError Unit × CaseTables :=
  match t.find caseId with
  | none => (.error noResultFound, t)
  | some _ => (.ok (), t.updateCase caseId fun row => { row with status, updatedAt := now })

/-- `list_cases`, in the order of the last update. -/
def listCases : Except PyError (List ServedCase) :=
  (t.cases.insertionSort fun a b => b.updatedAt ≤ a.updatedAt).mapM (t.caseData codec bank)

/-- What a request is answered. -/
def answer (q : DrawnRequest) : q.Answer × CaseTables :=
  match q with
  | ⟨.listCases, _, _⟩ => (t.listCases codec bank, t)
  | ⟨.createCase alertId tenantId investigatorId, uuid, now⟩ =>
    t.createCase codec bank alertId tenantId investigatorId uuid now
  | ⟨.getCase caseId, _, _⟩ =>
    ((orRaise (t.find caseId) (unknownCase caseId)).bind (t.caseData codec bank), t)
  | ⟨.deleteCase caseId, _, _⟩ => t.deleteCase caseId
  | ⟨.saveRecommendation caseId recommendation, _, _⟩ => t.saveRecommendation codec caseId recommendation
  | ⟨.saveReview review, _, _⟩ => t.saveReview codec review
  | ⟨.assignReviewer caseId reviewerId, _, now⟩ => t.assignReviewer caseId reviewerId now
  | ⟨.setStatus caseId status, _, now⟩ => t.setStatus caseId status now

/-- The repository on the tables of a bank. -/
def repository : Component DrawnRequest DrawnRequest.Answer CaseTables where
  answer q t := t.answer codec bank q

/-- A row with what refers to it holds a case: it can be read, and it is read as the case. -/
structure RowHolds (reviewers : Dict UUID String) (case : CaseData) (row : CaseRow) : Prop where
  caseId : case.caseId = row.id
  runId : case.runId = row.id
  alert : ∃ alert, (bank.alerts.find? fun alert => alert.id = row.alertId) = some alert ∧
    alert.alertRef = case.alertId
  customer : ∃ customer, (bank.customers.find? fun customer => customer.id = row.customerId) =
    some customer ∧ customer.customerRef = case.customerId
  tenantId : case.tenantId = row.tenantId
  investigator : case.assignedInvestigatorId = row.assignedInvestigatorId
  status : case.status = row.status
  reviewer : reviewers.get? row.id = row.assignedReviewerId
  recommendation : t.latest row.id = case.recommendation.map fun r =>
    ⟨row.id, case.recommendationVersion, codec.modelDump r⟩
  version : case.recommendation = none → case.recommendationVersion = 0
  reviews : t.reviewsOf row.id = case.reviews.map (HumanReview.toRecord codec)
  reviewed (review : HumanReview) (h : review ∈ case.reviews) : review.caseId = row.id
  readable (r : InvestigationRecommendation) (h : r ∈ case.recommendation) : codec.RoundTrips r
  reviewsReadable (review : HumanReview) (h : review ∈ case.reviews) (r : InvestigationRecommendation)
    (hr : r ∈ review.editedRecommendation) : codec.RoundTrips r

variable {codec bank t} {reviewers : Dict UUID String} {case : CaseData} {row : CaseRow}

/-- An edited recommendation is read as it was written. -/
theorem edited_map {edited : Option InvestigationRecommendation} (h : ∀ r ∈ edited, codec.RoundTrips r) :
    codec.edited (edited.map codec.modelDump) = .ok edited := by
  cases edited with
  | none => rfl
  | some r =>
    have htrips := h r rfl
    have hvalidate := htrips.validate_dump
    rw [Option.map_some]
    cases hdump : codec.modelDump r with
    | nil => exact absurd hdump htrips.dump_ne_nil
    | cons field fields =>
      rw [hdump] at hvalidate
      change some <$> codec.modelValidate (field :: fields) = _
      rw [hvalidate]
      rfl

/-- A review is read as it was written. -/
theorem toReview_toRecord {review : HumanReview}
    (h : ∀ r ∈ review.editedRecommendation, codec.RoundTrips r) :
    (review.toRecord codec).toReview codec review.caseId = .ok review := by
  unfold HumanReviewRecord.toReview HumanReview.toRecord
  dsimp only
  rw [edited_map h, ok_bind, dif_pos ⟨review.version_pos, review.rationale_length, review.edited_iff⟩]

/-- The recommendation of a row that holds a case is that of the case. -/
theorem RowHolds.recommended_eq (h : RowHolds codec bank t reviewers case row) :
    codec.recommended (t.latest row.id) = .ok case.recommendation := by
  rw [h.recommendation]
  cases hcase : case.recommendation with
  | none => rfl
  | some r =>
    change some <$> codec.modelValidate (codec.modelDump r) = _
    rw [(h.readable r hcase).validate_dump]
    rfl

/-- The version of a row that holds a case is that of the case. -/
theorem RowHolds.version_eq (h : RowHolds codec bank t reviewers case row) :
    ((t.latest row.id).map (·.version)).getD 0 = case.recommendationVersion := by
  rw [h.recommendation]
  cases hcase : case.recommendation with
  | none => exact (h.version hcase).symm
  | some r => rfl

/-- The reviews of a row that holds a case are those of the case, in the order of their time. -/
theorem RowHolds.reviews_eq (h : RowHolds codec bank t reviewers case row) :
    ((t.reviewsOf row.id).insertionSort fun a b => a.reviewedAt ≤ b.reviewedAt).mapM
      (HumanReviewRecord.toReview codec row.id) =
      .ok (case.reviews.insertionSort fun a b => a.reviewedAt ≤ b.reviewedAt) := by
  rw [h.reviews, ← List.map_insertionSort (fun a b : HumanReview => a.reviewedAt ≤ b.reviewedAt) _
    (HumanReview.toRecord codec) _ (fun _ _ _ _ => Iff.rfl), mapM_eq_ok, List.forall₂_map_left_iff,
    List.forall₂_same]
  intro review hreview
  rw [List.mem_insertionSort] at hreview
  rw [← h.reviewed review hreview]
  exact toReview_toRecord (h.reviewsReadable review hreview)

/-- A row holds its case as long as what refers to it and its reviewer stay the same. -/
theorem RowHolds.frame {t' : CaseTables} {reviewers' : Dict UUID String}
    (h : RowHolds codec bank t reviewers case row) (hlatest : t'.latest row.id = t.latest row.id)
    (hreviews : t'.reviewsOf row.id = t.reviewsOf row.id)
    (hreviewer : reviewers'.get? row.id = reviewers.get? row.id) :
    RowHolds codec bank t' reviewers' case row :=
  { h with
    reviewer := hreviewer.trans h.reviewer
    recommendation := hlatest.trans h.recommendation
    reviews := hreviews.trans h.reviews }

/-- A row holds its case whoever is assigned to review it and whenever it was updated. -/
theorem RowHolds.assigned {row' : CaseRow} {reviewers' : Dict UUID String}
    (h : RowHolds codec bank t reviewers case row) (hrecord : row'.toCaseRecord = row.toCaseRecord)
    (hreviewer : reviewers'.get? row.id = row'.assignedReviewerId) :
    RowHolds codec bank t reviewers' case row' := by
  obtain ⟨record, assignedReviewerId, updatedAt⟩ := row
  obtain ⟨record', assignedReviewerId', updatedAt'⟩ := row'
  cases hrecord
  exact { h with reviewer := hreviewer }

/-- A row that holds a case is read as the case is served. -/
theorem RowHolds.caseData_eq (h : RowHolds codec bank t reviewers case row) :
    t.caseData codec bank row =
      .ok (RepositoryBackend.postgres.served case, reviewers.get? case.caseId) := by
  obtain ⟨alert, halert, halertRef⟩ := h.alert
  obtain ⟨customer, hcustomer, hcustomerRef⟩ := h.customer
  unfold CaseTables.caseData
  rw [halert, hcustomer]
  dsimp only [orRaise]
  rw [ok_bind, ok_bind, h.recommended_eq, ok_bind, h.reviews_eq, ok_bind, h.version_eq, halertRef,
    hcustomerRef, ← h.reviewer, ← h.caseId, ← h.tenantId, ← h.investigator, ← h.status]
  unfold RepositoryBackend.served
  have hrun := h.runId
  rw [← h.caseId] at hrun
  obtain ⟨caseId, runId, alertId, customerId, tenantId, investigatorId, status, recommendation, version,
    reviews⟩ := case
  cases hrun
  rfl

/-- The next version of a case is new. -/
theorem RowHolds.version_fresh (h : RowHolds codec bank t reviewers case row)
    (other : RecommendationRecord) (hother : other ∈ t.recommendations) (hid : other.caseId = row.id) :
    other.version < case.recommendationVersion + 1 := by
  have hmem : other ∈ t.recommendations.filter fun other => other.caseId = row.id :=
    List.mem_filter.mpr ⟨hother, decide_eq_true hid⟩
  cases hlatest : t.latest row.id with
  | none =>
    unfold latest at hlatest
    rw [List.argmax_eq_none] at hlatest
    rw [hlatest] at hmem
    cases hmem
  | some latest =>
    have hle : other.version ≤ latest.version := List.le_of_mem_argmax hmem hlatest
    have hversion := h.version_eq
    rw [hlatest] at hversion
    change latest.version = _ at hversion
    omega

/-- A row with a newer version than all others of its case is the latest. -/
theorem latest_append_self {new : RecommendationRecord}
    (h : ∀ other ∈ t.recommendations, other.caseId = new.caseId → other.version < new.version) :
    (t.withRecommendation new).latest new.caseId = some new := by
  unfold latest withRecommendation
  rw [List.filter_append, List.filter_cons_of_pos (by simp), List.filter_nil, List.argmax_concat]
  cases hlatest : (t.recommendations.filter fun row => row.caseId = new.caseId).argmax (·.version) with
  | none => rfl
  | some other =>
    obtain ⟨hother, hid⟩ := List.mem_filter.mp (List.argmax_mem hlatest)
    exact if_pos (h other hother (of_decide_eq_true hid))

/-- A new row leaves the latest version of other cases as it is. -/
theorem latest_append_of_ne {new : RecommendationRecord} {c : UUID} (h : new.caseId ≠ c) :
    (t.withRecommendation new).latest c = t.latest c := by
  unfold latest withRecommendation
  rw [List.filter_append, List.filter_cons_of_neg (by simpa using h), List.filter_nil, List.append_nil]

/-- A new review is the last of its case. -/
theorem reviewsOf_append_self {new : HumanReviewRecord} :
    (t.withReview new).reviewsOf new.caseId = t.reviewsOf new.caseId ++ [new] := by
  unfold reviewsOf withReview
  rw [List.filter_append, List.filter_cons_of_pos (by simp), List.filter_nil]

/-- A new review leaves those of other cases as they are. -/
theorem reviewsOf_append_of_ne {new : HumanReviewRecord} {c : UUID} (h : new.caseId ≠ c) :
    (t.withReview new).reviewsOf c = t.reviewsOf c := by
  unfold reviewsOf withReview
  rw [List.filter_append, List.filter_cons_of_neg (by simpa using h), List.filter_nil, List.append_nil]

/-- A row holds its case after a recommendation has been saved for both. -/
theorem RowHolds.saved {c : UUID} {recommendation : InvestigationRecommendation}
    (h : RowHolds codec bank t reviewers case row) (hrow : row.id = c)
    (htrips : codec.RoundTrips recommendation) :
    RowHolds codec bank
      (t.withRecommendation ⟨c, case.recommendationVersion + 1, codec.modelDump recommendation⟩) reviewers
      (case.saved recommendation) row := by
  subst hrow
  exact
    { h with
      recommendation := latest_append_self fun other hother hid => h.version_fresh other hother hid
      version := fun hnone => by cases hnone
      readable := fun r hr => by
        cases hr
        exact htrips }

/-- A row holds its case after a review has been saved for both. -/
theorem RowHolds.withReview {review : HumanReview} (h : RowHolds codec bank t reviewers case row)
    (hrow : row.id = review.caseId) (htrips : ∀ r ∈ review.editedRecommendation, codec.RoundTrips r) :
    RowHolds codec bank (t.withReview (review.toRecord codec)) reviewers
      { case with reviews := case.reviews ++ [review] } row := by
  have hmem : ∀ other ∈ case.reviews ++ [review], other ∈ case.reviews ∨ other = review := by
    simp
  have hreviews : (t.withReview (review.toRecord codec)).reviewsOf row.id =
      (case.reviews ++ [review]).map (HumanReview.toRecord codec) := by
    rw [hrow, List.map_append, ← h.reviews, hrow]
    exact reviewsOf_append_self
  have hreviewed : ∀ other ∈ case.reviews ++ [review], other.caseId = row.id := by
    intro other hother
    cases hmem other hother with
    | inl hold => exact h.reviewed other hold
    | inr hnew => rw [hnew, hrow]
  have hreadable : ∀ other ∈ case.reviews ++ [review], ∀ r ∈ other.editedRecommendation,
      codec.RoundTrips r := by
    intro other hother
    cases hmem other hother with
    | inl hold => exact h.reviewsReadable other hold
    | inr hnew =>
      rw [hnew]
      exact htrips
  exact { h with reviews := hreviews, reviewed := hreviewed, reviewsReadable := hreadable }

end CaseTables

/-- The tables of the bank serve the alerts of a bank, with the references of their customers. -/
structure Mirrors (bank : SyntheticBank) (tables : BankTables) : Prop where
  alertIds : (tables.alerts.map (·.id)).Nodup
  alertRefs : (tables.alerts.map (·.alertRef)).Nodup
  served (alertId : String) :
    Option.Rel (fun alert row => ∃ customer,
        (tables.customers.find? fun customer => customer.id = row.customerId) = some customer ∧
          customer.customerRef = alert.customerId)
      (bank.alerts.find? fun alert => alert.alertId == alertId)
      (tables.alerts.find? fun alert => alert.alertRef = alertId)

/-- The recommendations of a request survive their payloads. -/
def RepositoryRequest.RoundTrips (codec : PayloadCodec) : RepositoryRequest → Prop
  | saveRecommendation _ recommendation => codec.RoundTrips recommendation
  | saveReview review => ∀ r ∈ review.editedRecommendation, codec.RoundTrips r
  | listCases | createCase _ _ _ | getCase _ | deleteCase _ | assignReviewer _ _ | setStatus _ _ => True

/-- Two answers to a request are the same. -/
def RepositoryRequest.SameAnswer (q : RepositoryRequest) :
    Except PyError q.Reply → Except PyError q.Reply → Prop
  | .ok reply, .ok reply' => q.SameReply reply reply'
  | .error e, .error e' => e = e'
  | .ok _, .error _ | .error _, .ok _ => False

namespace CaseTables

/-- The columns hold the texts and the version of a request, and a new case has a reference that is new. -/
def Fits (bank : SyntheticBank) (s : CaseStore) (q : DrawnRequest) : Prop :=
  match q.request with
  | .createCase alertId tenantId investigatorId =>
    (bank.alerts.find? fun alert => alert.alertId == alertId).isSome → s.pairCase alertId tenantId = none →
      tenantId.length ≤ 120 ∧ investigatorId.length ≤ 120 ∧
        ∀ c ∈ s.store.cases.keys, caseRef c ≠ caseRef q.uuid
  | .saveRecommendation c _ => ∀ case, s.store.cases.get? c = some case →
      case.recommendationVersion < 2147483647
  | .saveReview review => review.Storable
  | .assignReviewer c reviewerId =>
    s.store.cases.contains c → s.reviewers.get? c = none → reviewerId.length ≤ 120
  | .listCases | .getCase _ | .deleteCase _ | .setStatus _ _ => True

/-- The tables hold the cases of a store: every case in one row, and nothing that refers to no case. -/
structure Holds (codec : PayloadCodec) (bank : BankTables) (s : CaseStore) (t : CaseTables) : Prop where
  rows : Rows.Hold (fun row : CaseRow => row.id) (RowHolds codec bank t s.reviewers) s.store.cases t.cases
  pairs : (t.cases.map fun row => (row.alertId, row.tenantId)).Nodup
  references (row : CaseRow) (h : row ∈ t.cases) : row.caseRef = caseRef row.id
  recommendations (row : RecommendationRecord) (h : row ∈ t.recommendations) :
    row.caseId ∈ s.store.cases.keys
  reviews (row : HumanReviewRecord) (h : row ∈ t.reviews) : row.caseId ∈ s.store.cases.keys

/-- Two answers to a request are the same exactly if it fits, and one that fits leads to tables that hold
the cases again. -/
def Matches (codec : PayloadCodec) (bank : BankTables) (q : RepositoryRequest) (fits : Prop)
    (r : Except PyError q.Reply × CaseStore) (r' : Except PyError q.Reply × CaseTables) : Prop :=
  (q.SameAnswer r.1 r'.1 ↔ fits) ∧ (fits → Holds codec bank r.2 r'.2)

namespace Holds

variable {codec : PayloadCodec} {bank : BankTables} {s : CaseStore} {t : CaseTables}
  {env : EngineEnvironment} {c : UUID} {case : CaseData}

/-- The row of a case that is stored. -/
theorem find_of_some (h : Holds codec bank s t) (hcase : s.store.cases.get? c = some case) :
    ∃ row ∈ t.cases, t.find c = some row ∧ row.id = c ∧ RowHolds codec bank t s.reviewers case row :=
  h.rows.find?_of_some hcase

/-- A case that is not stored has no row. -/
theorem find_of_none (h : Holds codec bank s t) (hcase : s.store.cases.get? c = none) : t.find c = none :=
  h.rows.find?_of_none hcase

/-- `get_case` on the tables. -/
theorem getCase (h : Holds codec bank s t) (c : UUID) :
    Matches codec bank (.getCase c) True
      (orRaise ((s.store.cases.get? c).map (s.served (env.over .postgres))) (unknownCase c), s)
      ((orRaise (t.find c) (unknownCase c)).bind (t.caseData codec bank), t) := by
  cases hcase : s.store.cases.get? c with
  | none =>
    rw [h.find_of_none hcase]
    exact ⟨iff_of_true rfl trivial, fun _ => h⟩
  | some case =>
    obtain ⟨row, -, hfind, -, hholds⟩ := h.find_of_some hcase
    rw [hfind]
    change (_ ↔ _) ∧ _
    simp only [Option.map_some, orRaise, Except.bind, hholds.caseData_eq]
    exact ⟨iff_of_true rfl trivial, fun _ => h⟩

/-- `list_cases` on the tables. -/
theorem listCases (h : Holds codec bank s t) :
    Matches codec bank .listCases True
      (.ok (s.store.cases.values.reverse.map (s.served (env.over .postgres))), s)
      (t.listCases codec bank, t) := by
  have hread : List.Forall₂ (fun row served => t.caseData codec bank row = .ok served) t.cases
      (s.store.cases.values.map (s.served (env.over .postgres))) := by
    rw [List.forall₂_map_right_iff]
    exact h.rows.values.flip.imp fun row case hholds => hholds.caseData_eq
  obtain ⟨served, hserved, hperm⟩ := List.perm_comp_forall₂
    (List.perm_insertionSort (fun a b : CaseRow => b.updatedAt ≤ a.updatedAt) t.cases) hread
  have hlisted : t.listCases codec bank = .ok served := mapM_eq_ok.mpr hserved
  rw [hlisted]
  constructor
  · apply iff_of_true _ trivial
    change (s.store.cases.values.reverse.map _).Perm served
    rw [List.map_reverse]
    exact (List.reverse_perm _).trans hperm.symm
  · exact fun _ => h

/-- The tables hold the cases after one of them has been changed, with its row and with what refers to
it. -/
theorem change (h : Holds codec bank s t) {s' : CaseStore} {t' : CaseTables} (case' : CaseData)
    (change : CaseRow → CaseRow) (hcase : s.store.cases.get? c = some case)
    (hstore : s'.store.cases = s.store.cases.set c case')
    (hcases : t'.cases = Rows.update (fun row => row.id) c change t.cases)
    (hkeeps : ∀ row, (change row).id = row.id ∧ (change row).caseRef = row.caseRef ∧
      (change row).alertId = row.alertId ∧ (change row).tenantId = row.tenantId)
    (hchanged : ∀ row, row.id = c → RowHolds codec bank t s.reviewers case row →
      RowHolds codec bank t' s'.reviewers case' (change row))
    (hframe : ∀ k, k ≠ c → t'.latest k = t.latest k ∧ t'.reviewsOf k = t.reviewsOf k ∧
      s'.reviewers.get? k = s.reviewers.get? k)
    (hrecommendations : ∀ row ∈ t'.recommendations, row ∈ t.recommendations ∨ row.caseId = c)
    (hreviews : ∀ row ∈ t'.reviews, row ∈ t.reviews ∨ row.caseId = c) : Holds codec bank s' t' := by
  constructor
  · rw [hstore, hcases]
    apply h.rows.set hcase (fun row => (hkeeps row).1) hchanged
    intro other row hother hholds
    obtain ⟨hlatest, hreviewsOf, hreviewer⟩ := hframe row.id hother
    exact hholds.frame hlatest hreviewsOf hreviewer
  · rw [hcases, Rows.map_update fun row => by rw [(hkeeps row).2.2.1, (hkeeps row).2.2.2]]
    exact h.pairs
  · intro row hrow
    rw [hcases] at hrow
    obtain ⟨old, hold, rfl⟩ := List.mem_map.mp hrow
    by_cases hc : old.id = c
    · rw [if_pos hc, (hkeeps old).2.1, (hkeeps old).1]
      exact h.references old hold
    · rw [if_neg hc]
      exact h.references old hold
  · intro row hrow
    rw [hstore, Dict.mem_keys_set]
    cases hrecommendations row hrow with
    | inl hold => exact .inr (h.recommendations row hold)
    | inr hnew => exact .inl hnew
  · intro row hrow
    rw [hstore, Dict.mem_keys_set]
    cases hreviews row hrow with
    | inl hold => exact .inr (h.reviews row hold)
    | inr hnew => exact .inl hnew

/-- `set_status` on the tables. -/
theorem setStatus (h : Holds codec bank s t) (c : UUID) (status : CaseStatus) (now : Datetime) :
    Matches codec bank (.setStatus c status) True
      (s.fromStore (s.store.setStatus .postgres c status)) (t.setStatus c status now) := by
  unfold CaseStore.fromStore Store.setStatus Store.updateCase CaseTables.setStatus
  cases hcase : s.store.cases.get? c with
  | none =>
    rw [h.find_of_none hcase]
    exact ⟨iff_of_true rfl trivial, fun _ => h⟩
  | some case =>
    obtain ⟨row, -, hfind, -, -⟩ := h.find_of_some hcase
    have hnext : Holds codec bank
        ⟨{ s.store with cases := s.store.cases.set c { case with status } }, s.reviewers⟩
        (t.updateCase c fun row => { row with status, updatedAt := now }) := by
      apply h.change { case with status } (fun row => { row with status, updatedAt := now }) hcase
      · rfl
      · rfl
      · exact fun _ => ⟨rfl, rfl, rfl, rfl⟩
      · exact fun row _ hholds => { hholds with status := rfl }
      · exact fun _ _ => ⟨rfl, rfl, rfl⟩
      · exact fun _ hrow => .inl hrow
      · exact fun _ hrow => .inl hrow
    rw [hfind]
    exact ⟨iff_of_true rfl trivial, fun _ => hnext⟩

/-- The tables hold the cases after a reviewer has been assigned. -/
theorem assigned (h : Holds codec bank s t) (hcase : s.store.cases.get? c = some case)
    (reviewerId : String) (change : CaseRow → CaseRow)
    (hrecord : ∀ row, (change row).toCaseRecord = row.toCaseRecord)
    (hreviewer : ∀ row, row.id = c → RowHolds codec bank t s.reviewers case row →
      (change row).assignedReviewerId = some reviewerId) :
    Holds codec bank { s with reviewers := s.reviewers.set c reviewerId } (t.updateCase c change) := by
  apply h.change case change hcase
  · exact (s.store.cases.set_of_get? hcase).symm
  · rfl
  · intro row
    rw [hrecord row]
    exact ⟨rfl, rfl, rfl, rfl⟩
  · intro row hrow hholds
    have hframe : RowHolds codec bank (t.updateCase c change) s.reviewers case row :=
      hholds.frame rfl rfl rfl
    apply hframe.assigned (hrecord row)
    change (s.reviewers.set c reviewerId).get? row.id = _
    rw [hrow, Dict.get?_set_self, hreviewer row hrow hholds]
  · exact fun k hk => ⟨rfl, rfl, Dict.get?_set_ne _ (Ne.symm hk) _⟩
  · exact fun _ hrow => .inl hrow
  · exact fun _ hrow => .inl hrow

/-- `assign_reviewer` on the tables. -/
theorem assignReviewer (h : Holds codec bank s t) (c : UUID) (reviewerId : String) (now : Datetime) :
    Matches codec bank (.assignReviewer c reviewerId)
      (s.store.cases.contains c → s.reviewers.get? c = none → reviewerId.length ≤ 120)
      (s.assignReviewer (env.over .postgres) c reviewerId) (t.assignReviewer c reviewerId now) := by
  unfold CaseStore.assignReviewer CaseTables.assignReviewer Dict.contains
  cases hcase : s.store.cases.get? c with
  | none =>
    rw [h.find_of_none hcase]
    exact ⟨iff_of_true rfl fun hcontains => absurd hcontains Bool.false_ne_true, fun _ => h⟩
  | some case =>
    obtain ⟨row, -, hfind, hrow, hholds⟩ := h.find_of_some hcase
    have hassigned : row.assignedReviewerId = s.reviewers.get? c := by
      rw [← hholds.reviewer, hrow]
    rw [hfind]
    dsimp only
    rw [hassigned]
    cases hreviewer : s.reviewers.get? c with
    | none =>
      have hfree : ¬∃ assigned ∈ (none : Option String), assigned ≠ reviewerId := by simp
      have hnone : ¬(none : Option String) = some reviewerId := by simp
      rw [if_neg hfree, if_neg hnone, if_neg (not_not_intro rfl)]
      unfold varchar
      by_cases hfits : reviewerId.length ≤ 120
      · rw [if_pos hfits]
        constructor
        · exact iff_of_true rfl fun _ _ => hfits
        · exact fun _ => h.assigned hcase reviewerId
            (fun row => { row with assignedReviewerId := some reviewerId, updatedAt := now }) (fun _ => rfl)
            fun _ _ _ => rfl
      · rw [if_neg hfits]
        constructor
        · exact iff_of_false not_false fun hsafe => hfits (hsafe rfl rfl)
        · exact fun hsafe => absurd (hsafe rfl rfl) hfits
    | some assigned =>
      by_cases hsame : assigned = reviewerId
      · subst hsame
        have hfree : ¬∃ other ∈ some assigned, other ≠ assigned := by simp
        rw [if_neg hfree, if_pos rfl]
        constructor
        · exact iff_of_true rfl fun _ hnone => by cases hnone
        · intro _
          apply h.assigned hcase assigned (fun row => { row with updatedAt := now }) fun _ => rfl
          intro row hrow hholds
          change row.assignedReviewerId = some assigned
          rw [← hholds.reviewer, hrow, hreviewer]
      · have htaken : ∃ other ∈ some assigned, other ≠ reviewerId := ⟨assigned, rfl, hsame⟩
        have hother : ¬some assigned = some reviewerId := by simpa using hsame
        rw [if_pos htaken, if_neg hother, if_pos (Option.some_ne_none assigned)]
        constructor
        · exact iff_of_true rfl fun _ hnone => by cases hnone
        · exact fun _ => h

/-- No row refers to a case that is not stored. -/
theorem latest_of_none (h : Holds codec bank s t) (hcase : s.store.cases.get? c = none) :
    t.latest c = none := by
  unfold latest
  rw [List.argmax_eq_none, List.filter_eq_nil_iff]
  intro row hrow heq
  have hkey := h.recommendations row hrow
  rw [of_decide_eq_true heq, Dict.mem_keys_iff, hcase] at hkey
  cases hkey

/-- `save_recommendation` on the tables. -/
theorem saveRecommendation (h : Holds codec bank s t) (c : UUID)
    {recommendation : InvestigationRecommendation} (htrips : codec.RoundTrips recommendation) :
    Matches codec bank (.saveRecommendation c recommendation)
      (∀ case, s.store.cases.get? c = some case → case.recommendationVersion < 2147483647)
      (s.fromStore (s.store.saveRecommendation .postgres c recommendation))
      (t.saveRecommendation codec c recommendation) := by
  unfold CaseStore.fromStore Store.saveRecommendation Store.updateCase CaseTables.saveRecommendation integer
  cases hcase : s.store.cases.get? c with
  | none =>
    rw [h.latest_of_none hcase, if_pos (by decide : (Option.map _ none).getD 0 + 1 ≤ 2147483647)]
    dsimp only
    rw [if_pos (.inl (h.find_of_none hcase))]
    have hfits : ∀ stored : CaseData, none = some stored → stored.recommendationVersion < 2147483647 :=
      fun _ hsome => by cases hsome
    exact ⟨iff_of_true rfl hfits, fun _ => h⟩
  | some case =>
    obtain ⟨row, -, hfind, hrow, hholds⟩ := h.find_of_some hcase
    have hversion : ((t.latest c).map (·.version)).getD 0 = case.recommendationVersion := by
      rw [← hrow, hholds.version_eq]
    have hnew : ¬(t.find c = none ∨ ∃ other ∈ t.recommendations, other.caseId = c ∧
        other.version = case.recommendationVersion + 1) := by
      rintro (hnone | ⟨other, hother, hid, heq⟩)
      · rw [hfind] at hnone
        cases hnone
      · exact (hholds.version_fresh other hother (hid.trans hrow.symm)).ne heq
    rw [hversion]
    by_cases hrange : case.recommendationVersion + 1 ≤ 2147483647
    case neg =>
      rw [if_neg hrange]
      have hunfit : ¬∀ stored, some case = some stored → stored.recommendationVersion < 2147483647 :=
        fun hall => hrange (hall case rfl)
      exact ⟨iff_of_false not_false hunfit, fun hfits => absurd hfits hunfit⟩
    rw [if_pos hrange]
    dsimp only
    rw [if_neg hnew]
    have hnext : Holds codec bank
        ⟨{ s.store with cases := s.store.cases.set c (case.saved recommendation) }, s.reviewers⟩
        (t.withRecommendation ⟨c, case.recommendationVersion + 1, codec.modelDump recommendation⟩) := by
      apply h.change (case.saved recommendation) id hcase
      · rfl
      · exact Rows.update_id.symm
      · exact fun _ => ⟨rfl, rfl, rfl, rfl⟩
      · exact fun row hrow hholds => hholds.saved hrow htrips
      · exact fun k hk => ⟨latest_append_of_ne (Ne.symm hk), rfl, rfl⟩
      · intro row hrow
        cases List.mem_append.mp hrow with
        | inl hold => exact .inl hold
        | inr hnew =>
          rw [List.mem_singleton.mp hnew]
          exact .inr rfl
      · exact fun _ hrow => .inl hrow
    have hfits : ∀ stored, some case = some stored → stored.recommendationVersion < 2147483647 := by
      intro stored hstored
      cases hstored
      exact hrange
    exact ⟨iff_of_true rfl hfits, fun _ => hnext⟩

/-- The reviews in the tables are those of the cases. -/
theorem mem_reviews (h : Holds codec bank s t) {row : HumanReviewRecord} :
    row ∈ t.reviews ↔ ∃ c case, s.store.cases.get? c = some case ∧
      ∃ review ∈ case.reviews, review.caseId = c ∧ review.toRecord codec = row := by
  constructor
  · intro hrow
    have hkey := h.reviews row hrow
    rw [Dict.mem_keys_iff, Option.isSome_iff_exists] at hkey
    obtain ⟨case, hcase⟩ := hkey
    obtain ⟨caseRow, -, -, hid, hholds⟩ := h.find_of_some hcase
    have hmem : row ∈ t.reviewsOf caseRow.id := List.mem_filter.mpr ⟨hrow, decide_eq_true hid.symm⟩
    rw [hholds.reviews] at hmem
    obtain ⟨review, hreview, heq⟩ := List.mem_map.mp hmem
    exact ⟨row.caseId, case, hcase, review, hreview, (hholds.reviewed review hreview).trans hid, heq⟩
  · intro hstored
    obtain ⟨c, case, hcase, review, hreview, -, heq⟩ := hstored
    obtain ⟨caseRow, -, -, -, hholds⟩ := h.find_of_some hcase
    have hmem : row ∈ t.reviewsOf caseRow.id := by
      rw [hholds.reviews]
      exact List.mem_map.mpr ⟨review, hreview, heq⟩
    exact List.mem_of_mem_filter hmem

/-- The constraints of the review table refuse the reviews that the store refuses. -/
theorem refuses_iff (h : Holds codec bank s t) {review : HumanReview}
    (hcase : s.store.cases.get? review.caseId = some case) :
    (∃ row ∈ t.reviews, row.id = review.reviewId ∨
        (row.caseId = review.caseId ∧ row.recommendationVersion = review.recommendationVersion)) ↔
      s.store.reviewIdTaken .postgres review ∨
        ∃ stored ∈ case.reviews, RepositoryBackend.postgres.duplicates stored review := by
  constructor
  · intro hrefused
    obtain ⟨row, hrow, hconflict⟩ := hrefused
    obtain ⟨c, other, hother, stored, hstored, hid, heq⟩ := h.mem_reviews.mp hrow
    subst heq
    cases hconflict with
    | inl hsame =>
      exact .inl ⟨rfl, other, s.store.cases.mem_values_of_get? hother, stored, hstored, hsame⟩
    | inr hsame =>
      have hc : c = review.caseId := hid.symm.trans hsame.1
      rw [hc, hcase] at hother
      cases hother
      exact .inr ⟨stored, hstored, hsame.2⟩
  · intro hrefused
    cases hrefused with
    | inl htaken =>
      obtain ⟨-, other, hother, stored, hstored, hsame⟩ := htaken
      obtain ⟨c, hc⟩ := s.store.cases.exists_get?_of_mem_values hother
      obtain ⟨row, -, -, hid, hholds⟩ := h.find_of_some hc
      have hstoredCase := (hholds.reviewed stored hstored).trans hid
      exact ⟨stored.toRecord codec, h.mem_reviews.mpr ⟨c, other, hc, stored, hstored, hstoredCase, rfl⟩,
        .inl hsame⟩
    | inr hdouble =>
      obtain ⟨stored, hstored, hsame⟩ := hdouble
      obtain ⟨row, -, -, hid, hholds⟩ := h.find_of_some hcase
      have hstoredCase := (hholds.reviewed stored hstored).trans hid
      exact ⟨stored.toRecord codec,
        h.mem_reviews.mpr ⟨review.caseId, case, hcase, stored, hstored, hstoredCase, rfl⟩,
        .inr ⟨hstoredCase, hsame⟩⟩

/-- `save_review` of the store: any refusal is one of the constraints. -/
theorem saveReview_store (review : HumanReview) (hcase : s.store.cases.get? review.caseId = some case) :
    s.store.saveReview .postgres review =
      if s.store.reviewIdTaken .postgres review ∨
          ∃ stored ∈ case.reviews, RepositoryBackend.postgres.duplicates stored review then
        (.error integrityError, s.store)
      else (.ok (), { s.store with
        cases := s.store.cases.set review.caseId { case with reviews := case.reviews ++ [review] } }) := by
  unfold Store.saveReview Store.updateCase
  rw [hcase]
  by_cases htaken : s.store.reviewIdTaken .postgres review
  · simp [raiseIf, htaken, error_bind]
  · by_cases hdouble : ∃ stored ∈ case.reviews, RepositoryBackend.postgres.duplicates stored review
    · simp only [raiseIf, htaken, hdouble, if_true, if_false, ok_bind, error_bind, or_true]
      rfl
    · simp only [raiseIf, htaken, hdouble, if_false, ok_bind, or_self]
      rfl

/-- The store refuses a review with no other exception. -/
theorem saveReview_error {review : HumanReview} {e : PyError}
    (h : (s.store.saveReview .postgres review).1 = .error e) : e = integrityError := by
  cases hcase : s.store.cases.get? review.caseId with
  | none =>
    unfold Store.saveReview Store.updateCase at h
    rw [hcase] at h
    exact (Except.error.inj h).symm
  | some case =>
    rw [saveReview_store review hcase] at h
    split at h
    · exact (Except.error.inj h).symm
    · cases h

/-- `save_review` on the tables. -/
theorem saveReview (h : Holds codec bank s t) {review : HumanReview}
    (htrips : ∀ r ∈ review.editedRecommendation, codec.RoundTrips r) :
    Matches codec bank (.saveReview review) review.Storable
      (s.fromStore (s.store.saveReview .postgres review)) (t.saveReview codec review) := by
  unfold CaseStore.fromStore CaseTables.saveReview
  by_cases hfits : review.Storable
  · rw [HumanReview.columns_of_storable hfits]
    dsimp only
    cases hcase : s.store.cases.get? review.caseId with
    | none =>
      unfold Store.saveReview Store.updateCase
      rw [hcase, if_pos (.inl (h.find_of_none hcase))]
      exact ⟨iff_of_true rfl hfits, fun _ => h⟩
    | some case =>
      obtain ⟨row, -, hfind, hrow, hholds⟩ := h.find_of_some hcase
      rw [saveReview_store review hcase, hfind]
      by_cases hrefused : s.store.reviewIdTaken .postgres review ∨
          ∃ stored ∈ case.reviews, RepositoryBackend.postgres.duplicates stored review
      · rw [if_pos hrefused, if_pos (.inr ((h.refuses_iff hcase).mpr hrefused))]
        exact ⟨iff_of_true rfl hfits, fun _ => h⟩
      · have haccepted := not_or.mpr ⟨Option.some_ne_none row, mt (h.refuses_iff hcase).mp hrefused⟩
        rw [if_neg hrefused, if_neg haccepted]
        refine ⟨iff_of_true rfl hfits, fun _ => ?_⟩
        apply h.change { case with reviews := case.reviews ++ [review] } id hcase
        · rfl
        · exact Rows.update_id.symm
        · exact fun _ => ⟨rfl, rfl, rfl, rfl⟩
        · exact fun row hrow hholds => hholds.withReview hrow htrips
        · exact fun k hk => ⟨rfl, reviewsOf_append_of_ne (Ne.symm hk), rfl⟩
        · exact fun _ hrow => .inl hrow
        · intro row hrow
          cases List.mem_append.mp hrow with
          | inl hold => exact .inl hold
          | inr hnew =>
            rw [List.mem_singleton.mp hnew]
            exact .inr rfl
  · rw [HumanReview.columns_of_not_storable hfits]
    refine ⟨iff_of_false ?_ hfits, fun hsafe => absurd hsafe hfits⟩
    intro hsame
    cases hanswer : (s.store.saveReview .postgres review).1 with
    | ok u =>
      rw [hanswer] at hsame
      exact hsame
    | error e =>
      rw [hanswer] at hsame
      have hdiffer : integrityError ≠ dataError := by decide
      exact hdiffer ((saveReview_error hanswer).symm.trans hsame)

/-- `delete_case` on the tables. -/
theorem deleteCase (h : Holds codec bank s t) (c : UUID) :
    Matches codec bank (.deleteCase c) True (s.deleteCase c) (t.deleteCase c) := by
  unfold CaseStore.deleteCase Store.deleteCase CaseTables.deleteCase
  cases hcase : s.store.cases.get? c with
  | none =>
    rw [h.find_of_none hcase]
    exact ⟨iff_of_true rfl trivial, fun _ => h⟩
  | some case =>
    obtain ⟨row, -, hfind, -, -⟩ := h.find_of_some hcase
    rw [hfind]
    refine ⟨iff_of_true rfl trivial, fun _ => ?_⟩
    have hkeys : ∀ k, k ≠ c → k ∈ s.store.cases.keys → k ∈ (s.store.cases.erase c).keys := by
      intro k hk hmem
      rw [Dict.mem_keys_iff] at hmem ⊢
      rwa [Dict.get?_erase_ne _ (Ne.symm hk)]
    constructor
    · apply h.rows.erase
      intro other row hother hholds
      apply hholds.frame
      · unfold latest
        rw [List.filter_filter]
        congr 1
        apply List.filter_congr
        intro record _
        by_cases hrecord : record.caseId = row.id
        · simp [hrecord, hother]
        · simp [hrecord]
      · unfold reviewsOf
        rw [List.filter_filter]
        apply List.filter_congr
        intro record _
        by_cases hrecord : record.caseId = row.id
        · simp [hrecord, hother]
        · simp [hrecord]
      · exact Dict.get?_erase_ne _ (Ne.symm hother)
    · exact (List.filter_sublist.map _).nodup h.pairs
    · exact fun row hrow => h.references row (List.mem_of_mem_filter hrow)
    · intro row hrow
      obtain ⟨hmem, hne⟩ := List.mem_filter.mp hrow
      exact hkeys _ (of_decide_eq_true hne) (h.recommendations row hmem)
    · intro row hrow
      obtain ⟨hmem, hne⟩ := List.mem_filter.mp hrow
      exact hkeys _ (of_decide_eq_true hne) (h.reviews row hmem)

section Creation

variable {bankData : SyntheticBank} {alertId tenantId : String} {alertRow : AlertRecord}

/-- A case is of an alert exactly if its row refers to the row of the alert. -/
theorem alert_iff (hmirrors : Mirrors bankData bank) {row : CaseRow} {reviewers : Dict UUID String}
    (halertRow : (bank.alerts.find? fun alert => alert.alertRef = alertId) = some alertRow)
    (hholds : RowHolds codec bank t reviewers case row) :
    case.alertId = alertId ↔ row.alertId = alertRow.id := by
  obtain ⟨alert, hfind, href⟩ := hholds.alert
  have halert := List.mem_of_find?_eq_some hfind
  have hid : alert.id = row.alertId := by simpa using List.find?_some hfind
  have hmem := List.mem_of_find?_eq_some halertRow
  have hrowRef : alertRow.alertRef = alertId := by simpa using List.find?_some halertRow
  constructor
  · intro hcase
    have heq : alert = alertRow :=
      List.inj_on_of_nodup_map hmirrors.alertRefs halert hmem (href.trans (hcase.trans hrowRef.symm))
    rw [← hid, heq]
  · intro hrow
    have heq : alert = alertRow :=
      List.inj_on_of_nodup_map hmirrors.alertIds halert hmem (hid.trans hrow)
    rw [← href, heq, hrowRef]

/-- The rows of a tenant and an alert are the one of its case. -/
theorem pairRows (h : Holds codec bank s t) (hmirrors : Mirrors bankData bank)
    (halertRow : (bank.alerts.find? fun alert => alert.alertRef = alertId) = some alertRow)
    (tenantId : String) :
    match s.pairCase alertId tenantId with
    | none => (t.cases.filter fun row => row.alertId = alertRow.id ∧ row.tenantId = tenantId) = []
    | some case => ∃ row, RowHolds codec bank t s.reviewers case row ∧
        (t.cases.filter fun row => row.alertId = alertRow.id ∧ row.tenantId = tenantId) = [row] := by
  have hrel := h.rows.find?_value
    (p := fun case => case.alertId == alertId && case.tenantId == tenantId)
    (q := fun row => row.alertId = alertRow.id ∧ row.tenantId = tenantId)
    (fun case row hholds => by
      rw [Bool.eq_iff_iff, Bool.and_eq_true, beq_iff_eq, beq_iff_eq, decide_eq_true_eq,
        alert_iff hmirrors halertRow hholds, hholds.tenantId])
  change Option.Rel _ (s.pairCase alertId tenantId) _ at hrel
  cases hpair : s.pairCase alertId tenantId with
  | none =>
    rw [hpair] at hrel
    cases hfind : t.cases.find? fun row => row.alertId = alertRow.id ∧ row.tenantId = tenantId with
    | none =>
      rw [List.find?_eq_none] at hfind
      exact List.filter_eq_nil_iff.mpr hfind
    | some row =>
      rw [hfind] at hrel
      cases hrel
  | some case =>
    rw [hpair] at hrel
    cases hfind : t.cases.find? fun row => row.alertId = alertRow.id ∧ row.tenantId = tenantId with
    | none =>
      rw [hfind] at hrel
      cases hrel
    | some row =>
      rw [hfind] at hrel
      cases hrel with
      | some hholds =>
        have hrow : row.alertId = alertRow.id ∧ row.tenantId = tenantId := by
          simpa using List.find?_some hfind
        refine ⟨row, hholds, ?_⟩
        rw [← Tables.filter_key_eq h.pairs (List.mem_of_find?_eq_some hfind)]
        apply List.filter_congr
        intro other _
        simp only [Prod.mk.injEq, hrow.1, hrow.2]

/-- The reference of a case is short. -/
theorem caseRef_length (c : UUID) : (caseRef c).length ≤ 50 := by
  have hprefix : ("CASE-" : String).length = 5 := by decide
  have htake : (((UUID.str c).toList.take 8).map Char.toUpper).length ≤ 8 := by
    rw [List.length_map, List.length_take]
    omega
  unfold caseRef
  simp only [String.length_append, String.length_ofList, hprefix]
  omega

/-- A row can be inserted for a pair without a case exactly if it fits. -/
theorem exists_insertCase_iff (h : Holds codec bank s t) (investigatorId : String) (uuid : UUID)
    (now : Datetime)
    (hempty : (t.cases.filter fun row => row.alertId = alertRow.id ∧ row.tenantId = tenantId) = []) :
    (∃ records, insertCase (t.cases.map (·.toCaseRecord))
        (newRow alertRow tenantId investigatorId uuid now).toCaseRecord = .ok records) ↔
      tenantId.length ≤ 120 ∧ investigatorId.length ≤ 120 ∧
        ∀ c ∈ s.store.cases.keys, caseRef c ≠ caseRef uuid := by
  rw [← h.rows.keys]
  simp only [CreationDb.insertCase_eq_ok, CreationDb.Storable, List.forall_mem_map]
  constructor
  · intro hinsert
    obtain ⟨records, ⟨-, htenant, hinvestigator, hnew⟩, -, -⟩ := hinsert
    refine ⟨htenant, hinvestigator, fun row hrow => ?_⟩
    rw [← h.references row hrow]
    exact (hnew row hrow).2
  · intro hfits
    obtain ⟨htenant, hinvestigator, hnew⟩ := hfits
    refine ⟨_, ⟨caseRef_length uuid, htenant, hinvestigator, fun row hrow => ?_⟩, rfl, fun row hrow => ?_⟩
    · constructor
      · exact fun heq => hnew row hrow (congrArg caseRef heq)
      · rw [h.references row hrow]
        exact hnew row hrow
    · rw [List.filter_eq_nil_iff] at hempty
      simpa [newRow] using hempty row hrow

/-- The tables hold the cases after a case has been created in both. -/
theorem created (h : Holds codec bank s t) (hmirrors : Mirrors bankData bank) {alert : SyntheticAlert}
    {customer : CustomerRow} (investigatorId : String) {uuid : UUID} (now : Datetime)
    (halert : alert.alertId = alertId)
    (halertRow : (bank.alerts.find? fun alert => alert.alertRef = alertId) = some alertRow)
    (hcustomer : (bank.customers.find? fun customer => customer.id = alertRow.customerId) = some customer)
    (hserved : customer.customerRef = alert.customerId)
    (hempty : (t.cases.filter fun row => row.alertId = alertRow.id ∧ row.tenantId = tenantId) = [])
    (hfresh : s.store.cases.get? uuid = none) :
    RowHolds codec bank
        { t with cases := t.cases ++ [newRow alertRow tenantId investigatorId uuid now] }
        (s.reviewers.erase uuid) (s.newCase .postgres alert tenantId investigatorId uuid)
        (newRow alertRow tenantId investigatorId uuid now) ∧
      Holds codec bank
        (s.insertCase (s.newCase .postgres alert tenantId investigatorId uuid) uuid)
        { t with cases := t.cases ++ [newRow alertRow tenantId investigatorId uuid now] } := by
  have hkey : uuid ∉ s.store.cases.keys := (s.store.cases.get?_eq_none_iff uuid).mp hfresh
  have hreviews : t.reviewsOf uuid = [] := by
    unfold reviewsOf
    rw [List.filter_eq_nil_iff]
    intro record hrecord heq
    rw [decide_eq_true_eq] at heq
    exact hkey (heq ▸ h.reviews record hrecord)
  have halertMem := List.mem_of_find?_eq_some halertRow
  have hnew : RowHolds codec bank
      { t with cases := t.cases ++ [newRow alertRow tenantId investigatorId uuid now] }
      (s.reviewers.erase uuid) (s.newCase .postgres alert tenantId investigatorId uuid)
      (newRow alertRow tenantId investigatorId uuid now) := by
    constructor
    · rfl
    · rfl
    · refine ⟨alertRow, Tables.find?_key_eq hmirrors.alertIds halertMem, ?_⟩
      rw [show alertRow.alertRef = alertId by simpa using List.find?_some halertRow]
      exact halert.symm
    · exact ⟨customer, hcustomer, hserved⟩
    · rfl
    · rfl
    · rfl
    · exact Dict.get?_erase_self _ _
    · exact h.latest_of_none hfresh
    · exact fun _ => rfl
    · exact hreviews
    · exact fun review hreview => by cases hreview
    · exact fun r hr => by cases hr
    · exact fun review hreview => by cases hreview
  refine ⟨hnew, ?_⟩
  constructor
  · apply h.rows.insert hfresh rfl hnew
    intro other row hother hholds
    exact hholds.frame rfl rfl (Dict.get?_erase_ne _ (Ne.symm hother))
  · rw [List.map_append, List.map_singleton, List.nodup_append]
    refine ⟨h.pairs, List.nodup_singleton _, fun pair hpair other hother heq => ?_⟩
    obtain ⟨row, hrow, rfl⟩ := List.mem_map.mp hpair
    rw [List.mem_singleton.mp hother, Prod.mk.injEq] at heq
    rw [List.filter_eq_nil_iff] at hempty
    exact hempty row hrow (decide_eq_true heq)
  · intro row hrow
    cases List.mem_append.mp hrow with
    | inl hold => exact h.references row hold
    | inr hadded =>
      rw [List.mem_singleton.mp hadded]
      rfl
  · intro row hrow
    exact (Dict.mem_keys_set _ _ _ _).mpr (.inr (h.recommendations row hrow))
  · intro row hrow
    exact (Dict.mem_keys_set _ _ _ _).mpr (.inr (h.reviews row hrow))

/-- `create_case` on the tables. -/
theorem createCase (h : Holds codec bank s t) (hmirrors : Mirrors bankData bank)
    (investigatorId : String) (uuid : UUID) (now : Datetime) :
    Matches codec bank (.createCase alertId tenantId investigatorId)
      (Fits bankData s ⟨.createCase alertId tenantId investigatorId, uuid, now⟩)
      (s.createCase (env.over .postgres) bankData alertId tenantId investigatorId uuid)
      (t.createCase codec bank alertId tenantId investigatorId uuid now) := by
  rw [CaseStore.createCase_postgres]
  unfold CaseTables.createCase Fits
  have hserved := hmirrors.served alertId
  cases halert : bankData.alerts.find? fun alert => alert.alertId == alertId with
  | none =>
    rw [halert] at hserved
    cases halertRow : bank.alerts.find? fun alert => alert.alertRef = alertId with
    | none =>
      refine ⟨iff_of_true rfl fun hsome => ?_, fun _ => h⟩
      rw [halert] at hsome
      cases hsome
    | some alertRow =>
      rw [halertRow] at hserved
      cases hserved
  | some alert =>
    rw [halert] at hserved
    cases halertRow : bank.alerts.find? fun alert => alert.alertRef = alertId with
    | none =>
      rw [halertRow] at hserved
      cases hserved
    | some alertRow =>
      rw [halertRow] at hserved
      cases hserved with
      | some hcustomer =>
        obtain ⟨customer, hfind, href⟩ := hcustomer
        have hrows := h.pairRows hmirrors halertRow tenantId
        cases hpair : s.pairCase alertId tenantId with
        | some case =>
          rw [hpair] at hrows
          obtain ⟨row, hholds, hfilter⟩ := hrows
          dsimp only
          rw [hfilter]
          dsimp only
          have hfits : Fits bankData s ⟨.createCase alertId tenantId investigatorId, uuid, now⟩ := by
            intro _ hnone
            rw [hpair] at hnone
            cases hnone
          rw [← hholds.investigator]
          by_cases hassigned : case.assignedInvestigatorId ≠ investigatorId
          · rw [if_pos hassigned, if_pos hassigned]
            exact ⟨iff_of_true rfl hfits, fun _ => h⟩
          · rw [if_neg hassigned, if_neg hassigned, hholds.caseData_eq]
            exact ⟨iff_of_true rfl hfits, fun _ => h⟩
        | none =>
          rw [hpair] at hrows
          have hfits : Fits bankData s ⟨.createCase alertId tenantId investigatorId, uuid, now⟩ ↔
              tenantId.length ≤ 120 ∧ investigatorId.length ≤ 120 ∧
                ∀ c ∈ s.store.cases.keys, caseRef c ≠ caseRef uuid := by
            simp [Fits, halert, hpair]
          have hinsert := h.exists_insertCase_iff investigatorId uuid now hrows
          dsimp only
          rw [hrows]
          dsimp only
          cases hrecords : insertCase (t.cases.map (·.toCaseRecord))
              (newRow alertRow tenantId investigatorId uuid now).toCaseRecord with
          | error e =>
            rw [hrecords] at hinsert
            have hunfit : ¬Fits bankData s ⟨.createCase alertId tenantId investigatorId, uuid, now⟩ := by
              intro hsafe
              obtain ⟨records, heq⟩ := hinsert.mpr (hfits.mp hsafe)
              cases heq
            exact ⟨iff_of_false not_false hunfit, fun hsafe => absurd hsafe hunfit⟩
          | ok records =>
            have hsafe := hfits.mpr (hinsert.mp ⟨records, hrecords⟩)
            have hfresh : s.store.cases.get? uuid = none := by
              rw [Dict.get?_eq_none_iff]
              exact fun hmem => (hfits.mp hsafe).2.2 uuid hmem rfl
            have hid : alert.alertId = alertId := by simpa using List.find?_some halert
            obtain ⟨hnew, hnext⟩ := h.created hmirrors investigatorId now hid halertRow hfind href hrows
              hfresh
            dsimp only
            rw [hnew.caseData_eq]
            have hreviewer : (s.reviewers.erase uuid).get? uuid = none := Dict.get?_erase_self _ _
            refine ⟨iff_of_true ?_ hsafe, fun _ => hnext⟩
            change _ = ((RepositoryBackend.postgres.served _, (s.reviewers.erase uuid).get? uuid), true)
            rw [hreviewer]
            rfl

end Creation

/-- Any request on the tables. -/
theorem matches_request (h : Holds codec bank s t) {bankData : SyntheticBank}
    (hmirrors : Mirrors bankData bank) (q : DrawnRequest) (htrips : q.request.RoundTrips codec) :
    Matches codec bank q.request (Fits bankData s q) (s.answer (env.over .postgres) bankData q)
      (t.answer codec bank q) := by
  obtain ⟨request, uuid, now⟩ := q
  cases request with
  | listCases => exact h.listCases
  | createCase alertId tenantId investigatorId => exact h.createCase hmirrors investigatorId uuid now
  | getCase c => exact h.getCase c
  | deleteCase c => exact h.deleteCase c
  | saveRecommendation c recommendation => exact h.saveRecommendation c htrips
  | saveReview review => exact h.saveReview htrips
  | assignReviewer c reviewerId => exact h.assignReviewer c reviewerId now
  | setStatus c status => exact h.setStatus c status now

end Holds

/-- The tables answer requests that fit as the store does. -/
theorem tables_correspond (env : EngineEnvironment) (codec : PayloadCodec) {bank : SyntheticBank}
    {tables : BankTables} (hmirrors : Mirrors bank tables) :
    Corresponds (CaseStore.repository (env.over .postgres) bank) (repository codec tables)
      (fun q => q.request.SameAnswer) (fun q => q.request.RoundTrips codec) (Fits bank)
      (Holds codec tables) where
  alike_iff _ _ q h hq := (h.matches_request hmirrors q hq).1
  next _ _ q h hq := (h.matches_request hmirrors q hq).2

/-- Empty tables hold no cases. -/
theorem holds_empty (codec : PayloadCodec) (bank : BankTables) : Holds codec bank {} {} where
  rows := .nil
  pairs := List.nodup_nil
  references _ h := by cases h
  recommendations _ h := by cases h
  reviews _ h := by cases h

end CaseTables

/-- The tables of the cases refine the store of the engine. Whatever is requested, of empty tables that
mirror a bank and with recommendations that survive their payloads, the tables answer every request as the
store does exactly if every request fits where it is made, and then they hold its cases. -/
theorem tables_refine_store (env : EngineEnvironment) (codec : PayloadCodec) (bank : SyntheticBank)
    (tables : BankTables) (hmirrors : Mirrors bank tables) (requests : List DrawnRequest)
    (htrips : ∀ q ∈ requests, q.request.RoundTrips codec) :
    ((CaseStore.repository (env.over .postgres) bank).AnswersAlike (CaseTables.repository codec tables)
        (fun q => q.request.SameAnswer) {} {} requests ↔
      (CaseStore.repository (env.over .postgres) bank).Along (CaseTables.Fits bank) {} requests) ∧
    ((CaseStore.repository (env.over .postgres) bank).Along (CaseTables.Fits bank) {} requests →
      CaseTables.Holds codec tables ((CaseStore.repository (env.over .postgres) bank).after {} requests)
        ((CaseTables.repository codec tables).after {} requests)) := by
  have hcorrespond := CaseTables.tables_correspond env codec hmirrors
  have hempty := CaseTables.holds_empty codec tables
  constructor
  · exact hcorrespond.answersAlike_iff hempty htrips
  · exact hcorrespond.related_after hempty htrips

section Reviewed

/-- What pydantic dumps the sample recommendation to. -/
def dumpedSample : List (String × Json) :=
  [("schema_version", .string "1.0"), ("recommendation", .string "CLOSE_WITH_RATIONALE"),
    ("summary", .string "closed"), ("material_findings", .array []), ("counter_indicators", .array []),
    ("missing_information", .array []), ("contradictions", .array []),
    ("recommended_next_steps", .array []), ("limitations", .array []),
    ("human_review_required", .bool true)]

/-- The dump of the sample recommendation, and what is made of it. -/
def samplePayloadCodec : PayloadCodec where
  modelDump _ := dumpedSample
  modelValidate payload :=
    if payload = dumpedSample then .ok (sampleRecommendation .closeWithRationale)
    else .error (.validationError [⟨[], "missing"⟩])

/-- The tables of the sample bank. -/
def sampleBankTables : BankTables where
  alerts := [⟨1, "A-1", 2⟩]
  customers := [⟨2, "C-1"⟩]

/-- The life of a case that is reviewed. -/
def reviewedRequests : List DrawnRequest :=
  [⟨.createCase "A-1" "tenant" "investigator", 0, 0⟩,
    ⟨.saveRecommendation 0 (sampleRecommendation .closeWithRationale), 1, 1⟩,
    ⟨.setStatus 0 .waitingForHumanReview, 2, 2⟩, ⟨.assignReviewer 0 "reviewer", 3, 3⟩,
    ⟨.saveReview sampleApproval, 4, 4⟩, ⟨.setStatus 0 .completed, 5, 5⟩, ⟨.getCase 0, 6, 6⟩,
    ⟨.listCases, 7, 7⟩]

/-- The sample recommendation survives its payload. -/
theorem samplePayloadCodec_roundTrips :
    samplePayloadCodec.RoundTrips (sampleRecommendation .closeWithRationale) where
  dump_ne_nil := List.cons_ne_nil _ _
  validate_dump := by simp [samplePayloadCodec]

/-- The sample tables serve the alert of the sample bank. -/
theorem mirrors_sampleBank : Mirrors sampleBank sampleBankTables where
  alertIds := List.nodup_singleton _
  alertRefs := List.nodup_singleton _
  served alertId := by
    by_cases hid : "A-1" = alertId
    · subst hid
      exact .some ⟨⟨2, "C-1"⟩, rfl, rfl⟩
    · have hbank : (sampleBank.alerts.find? fun alert => alert.alertId == alertId) = none := by
        simp [sampleBank, hid]
      have htables : (sampleBankTables.alerts.find? fun alert => alert.alertRef = alertId) = none := by
        simp [sampleBankTables, hid]
      rw [hbank, htables]
      exact .none

/-- The recommendations in the life of the sample case survive their payloads. -/
theorem reviewedRequests_roundTrips : ∀ q ∈ reviewedRequests, q.request.RoundTrips samplePayloadCodec := by
  intro q hq
  simp only [reviewedRequests, List.mem_cons, List.not_mem_nil, or_false] at hq
  obtain rfl | rfl | rfl | rfl | rfl | rfl | rfl | rfl := hq
  · trivial
  · exact samplePayloadCodec_roundTrips
  · trivial
  · trivial
  · exact fun r hr => by cases hr
  · trivial
  · trivial
  · trivial

/-- The tables answer as the store does while a case is created, drafted, claimed, reviewed and read. -/
theorem tables_refine_store_reviewed :
    (CaseStore.repository ((sampleEnvironment .postgres).over .postgres) sampleBank).AnswersAlike
      (CaseTables.repository samplePayloadCodec sampleBankTables) (fun q => q.request.SameAnswer) {} {}
      reviewedRequests := by
  apply (tables_refine_store (sampleEnvironment .postgres) samplePayloadCodec sampleBank sampleBankTables
    mirrors_sampleBank reviewedRequests reviewedRequests_roundTrips).1.mpr
  have hcreated : CaseTables.Fits sampleBank {} ⟨.createCase "A-1" "tenant" "investigator", 0, 0⟩ :=
    fun _ _ => ⟨by decide, by decide, fun c hc => by cases hc⟩
  have hreviewer : "reviewer".length ≤ 120 := by decide
  have happroval : sampleApproval.Storable := by decide
  refine And.intro hcreated (And.intro ?_ (And.intro trivial (And.intro (fun _ _ => hreviewer)
    (And.intro happroval (And.intro trivial (And.intro trivial (And.intro trivial trivial)))))))
  intro case hcase
  cases hcase
  decide

end Reviewed

end Amlguard
