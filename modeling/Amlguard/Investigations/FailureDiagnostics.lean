import Amlguard.Investigations.Builder

/-!
# What a failure record shows

`record_failure` writes one and the same record of an exception to the errors of the run, to the
audit log, to the trajectory and to the log. Of a `ValidationError` the record shows the place of each
issue, and for a key that the schema does not have the place ends with that key.
-/

namespace Amlguard

/-- An issue as `ValidationError.errors()` reports it: its place in the schema, made of field names and
list indices, and the key of the data when the issue is that the schema has no such key. -/
structure SchemaIssue where
  place : List String
  extraKey : Option String
  issueType : String

namespace SchemaIssue

/-- The issue with its `loc`. -/
def reported (issue : SchemaIssue) : ValidationIssue :=
  ⟨issue.place ++ issue.extraKey.toList, issue.issueType⟩

/-- Two issues of one type at corresponding places of the schema. -/
def Corresponds (a b : SchemaIssue) : Prop :=
  a.place = b.place ∧ a.issueType = b.issueType ∧ a.extraKey.isSome = b.extraKey.isSome

/-- Two issues show the same place. An empty key at the top of the data is shown as `root`. -/
def ShownAlike (a b : SchemaIssue) : Prop :=
  a.extraKey = b.extraKey ∨
    a.place = [] ∧ (a.extraKey = some "" ∧ b.extraKey = some "root" ∨
      a.extraKey = some "root" ∧ b.extraKey = some "")

instance (a b : SchemaIssue) : Decidable (a.Corresponds b) := by
  unfold Corresponds
  infer_instance

instance (a b : SchemaIssue) : Decidable (a.ShownAlike b) := by
  unfold ShownAlike
  infer_instance

end SchemaIssue

/-- An exception of a stage, with the issues of a `ValidationError`. -/
structure StageException where
  typeName : String
  bases : List String
  message : String
  statusCode : Option ℤ
  issues : Option (List SchemaIssue)

/-- The exception as the failure handlers see it. -/
def StageException.fault (e : StageException) : PyError :=
  { typeName := e.typeName, bases := e.bases, message := e.message, statusCode := e.statusCode
    issues := e.issues.map (·.map (·.reported)) }

/-- The lists of issues of two exceptions, empty unless they are both of a schema. -/
def StageException.pairs (e₁ e₂ : StageException) : List (SchemaIssue × SchemaIssue) :=
  (e₁.issues.getD []).zip (e₂.issues.getD [])

/-- Two exceptions of one class and status code. Of a schema, they report issues of the same types at
corresponding places. -/
structure StageException.Alike (e₁ e₂ : StageException) : Prop where
  typeName : e₁.typeName = e₂.typeName
  statusCode : e₁.statusCode = e₂.statusCode
  schema : e₁.issues.isSome = e₂.issues.isSome
  count : (e₁.issues.getD []).length = (e₂.issues.getD []).length
  issues : ∀ pair ∈ e₁.pairs e₂, pair.1.Corresponds pair.2

section Places

variable {place : List String} {k k' : String}

/-- The place of an extra key. -/
def shownKey (place : List String) (key : String) : String :=
  (failureIssue ⟨place ++ [key], ""⟩).location

/-- Below the top, different keys are shown differently. -/
theorem shownKey_inj (hplace : place ≠ []) : shownKey place k = shownKey place k' ↔ k = k' := by
  have hjoined (key : String) :
      shownKey place key = String.intercalate "." place ++ "." ++ key := by
    have happend : String.intercalate "." (place ++ [key]) =
        String.intercalate "." place ++ "." ++ key := by
      rw [String.intercalate_append_of_ne_nil hplace (List.cons_ne_nil _ _),
        String.intercalate_singleton]
    have hne : String.intercalate "." (place ++ [key]) ≠ "" := by
      rw [happend]
      intro hempty
      have hlength := congrArg String.length hempty
      simp at hlength
    rw [shownKey, failureIssue]
    dsimp only
    rw [if_neg hne, happend]
  rw [hjoined, hjoined, String.append_right_inj]

/-- At the top, different keys are shown differently apart from the empty one and `root`. -/
theorem shownKey_top : shownKey [] k = shownKey [] k' ↔
    k = k' ∨ k = "" ∧ k' = "root" ∨ k = "root" ∧ k' = "" := by
  simp only [shownKey, failureIssue, List.nil_append, String.intercalate_singleton]
  by_cases hk : k = ""
  · by_cases hk' : k' = ""
    · simp [hk, hk']
    · rw [if_pos hk, if_neg hk']
      grind
  · by_cases hk' : k' = ""
    · rw [if_neg hk, if_pos hk']
      grind
    · simp [hk, hk']

/-- Corresponding issues leave the same trace exactly when they show the same place. -/
theorem failureIssue_eq_iff {a b : SchemaIssue} (h : a.Corresponds b) :
    failureIssue a.reported = failureIssue b.reported ↔ a.ShownAlike b := by
  obtain ⟨place, key, issueType⟩ := a
  obtain ⟨place', key', issueType'⟩ := b
  obtain ⟨rfl, rfl, hkey⟩ := h
  cases key with
  | none =>
    cases key' with
    | none => simp [SchemaIssue.ShownAlike]
    | some k' => cases hkey
  | some k =>
    cases key' with
    | none => cases hkey
    | some k' =>
      have hshown : failureIssue (SchemaIssue.reported ⟨place, some k, issueType⟩) =
          failureIssue (SchemaIssue.reported ⟨place, some k', issueType⟩) ↔
            shownKey place k = shownKey place k' := by
        constructor
        · exact congrArg FailureIssue.location
        · exact congrArg fun location => FailureIssue.mk location issueType
      rw [hshown, SchemaIssue.ShownAlike]
      by_cases hplace : place = []
      · subst hplace
        simp [shownKey_top]
      · simp [shownKey_inj hplace, hplace]

end Places

/-- What a list shows up to a length, it shows item by item. -/
theorem take_map_eq_iff {α β : Type} (f : α → β) (as bs : List α) (h : as.length = bs.length) (n : ℕ) :
    (as.map f).take n = (bs.map f).take n ↔ ∀ pair ∈ (as.zip bs).take n, f pair.1 = f pair.2 := by
  induction as generalizing bs n with
  | nil =>
    cases bs with
    | nil => simp
    | cons b bs => cases h
  | cons a as ih =>
    cases bs with
    | nil => cases h
    | cons b bs =>
      cases n with
      | zero => simp
      | succ n => simp [ih bs (Nat.succ.inj h) n]

section Records

variable {e₁ e₂ : StageException}

/-- The records of two alike exceptions are equal exactly when the issues that are kept show the same
places. -/
theorem failureOf_eq_iff (h : e₁.Alike e₂) (errorId : UUID) (stage : String) :
    failureOf errorId stage e₁.fault = failureOf errorId stage e₂.fault ↔
      ∀ pair ∈ (e₁.pairs e₂).take 20, pair.1.ShownAlike pair.2 := by
  obtain ⟨typeName, bases, message, statusCode, issues⟩ := e₁
  obtain ⟨typeName', bases', message', statusCode', issues'⟩ := e₂
  obtain ⟨rfl, rfl, hschema, hcount, hissues⟩ := h
  cases issues with
  | none =>
    cases issues' with
    | none => exact ⟨fun _ _ hpair => (by cases hpair), fun _ => rfl⟩
    | some issues' => cases hschema
  | some issues =>
    cases issues' with
    | none => cases hschema
    | some issues' =>
      have hcount : issues.length = issues'.length := hcount
      have hkept : (∀ pair ∈ (issues.zip issues').take 20,
          failureIssue pair.1.reported = failureIssue pair.2.reported) ↔
          ∀ pair ∈ (issues.zip issues').take 20, pair.1.ShownAlike pair.2 := by
        apply forall₂_congr
        intro pair hpair
        exact failureIssue_eq_iff (hissues pair (List.mem_of_mem_take hpair))
      change _ ↔ ∀ pair ∈ (issues.zip issues').take 20, pair.1.ShownAlike pair.2
      rw [← hkept, ← take_map_eq_iff (fun issue => failureIssue issue.reported) issues issues' hcount]
      simp [failureOf, StageException.fault, hcount, Function.comp_def]

/-- The record that the handler of a failure audits, when the calls before it return. -/
def auditedRecord : Investigation StageEnd → Option AuditPayload
  | .await .uuid4 k =>
    match k (.ok 0) with
    | .await (.setStatus _ _) k =>
      match k (.ok ()) with
      | .await (.audit _ _ _ payload) _ => some payload
      | _ => none
    | _ => none
  | _ => none

/-- Two failures are handled alike, in the errors of the run, in the audit log and in the trajectory,
exactly when their records differ in nothing but the error ID. -/
theorem recordFailure_eq_iff (b : CaseBinding) (values : InvestigationState) (stage : Stage)
    (e₁ e₂ : PyError) :
    recordFailure b values stage e₁ = recordFailure b values stage e₂ ↔
      ∀ errorId, failureOf errorId stage.name e₁ = failureOf errorId stage.name e₂ := by
  constructor
  · intro h
    have hrecord := congrArg auditedRecord h
    have hzero : failureOf 0 stage.name e₁ = failureOf 0 stage.name e₂ := by
      injection hrecord with hpayload
      injection hpayload
    intro errorId
    have hid (e : PyError) : failureOf errorId stage.name e =
        { failureOf 0 stage.name e with errorId } := by
      unfold failureOf
      split <;> rfl
    rw [hid, hid, hzero]
  · intro h
    unfold recordFailure
    congr 1
    funext errorId
    rw [h errorId]

end Records

/-- Two alike exceptions are recorded alike, up to the error ID, exactly when the first twenty issues
show the same places, which is when no key of the data makes a difference in them. -/
theorem recorded_alike_iff (b : CaseBinding) (values : InvestigationState) (stage : Stage)
    (e₁ e₂ : StageException) (h : e₁.Alike e₂) :
    recordFailure b values stage e₁.fault = recordFailure b values stage e₂.fault ↔
      ∀ pair ∈ (e₁.pairs e₂).take 20, pair.1.ShownAlike pair.2 := by
  rw [recordFailure_eq_iff]
  constructor
  · intro hrecords
    exact (failureOf_eq_iff h 0 stage.name).mp (hrecords 0)
  · intro hshown errorId
    exact (failureOf_eq_iff h errorId stage.name).mpr hshown

/-- The draft of a model does not match the schema: a finding has a key too many. The message quotes its
value. -/
def extraKeyException (key value : String) : StageException where
  typeName := "ValidationError"
  bases := ["ValueError"]
  message := "1 validation error, input_value=" ++ value
  statusCode := none
  issues := some [⟨["material_findings", "0"], some key, "extra_forbidden"⟩]

/-- Exceptions about extra keys are alike. -/
theorem alike_extraKey (key key' value value' : String) :
    (extraKeyException key value).Alike (extraKeyException key' value') where
  typeName := rfl
  statusCode := rfl
  schema := rfl
  count := rfl
  issues := by
    intro pair hpair
    rw [List.mem_singleton.mp hpair]
    exact ⟨rfl, rfl, rfl⟩

/-- Two drafts with the same extra key are recorded alike whatever its value is, and two with different extra
keys are not. -/
theorem recorded_alike_iff_note :
    recordFailure ⟨0, 0, "A-1", "C-1", "investigator", "B5"⟩ {} .draftRecommendation
        (extraKeyException "note" "17").fault =
      recordFailure ⟨0, 0, "A-1", "C-1", "investigator", "B5"⟩ {} .draftRecommendation
        (extraKeyException "note" "42").fault ∧
    recordFailure ⟨0, 0, "A-1", "C-1", "investigator", "B5"⟩ {} .draftRecommendation
        (extraKeyException "account_4711" "17").fault ≠
      recordFailure ⟨0, 0, "A-1", "C-1", "investigator", "B5"⟩ {} .draftRecommendation
        (extraKeyException "account_4712" "17").fault := by
  constructor
  · rw [recorded_alike_iff _ _ _ _ _ (alike_extraKey "note" "note" "17" "42")]
    decide
  · rw [Ne, recorded_alike_iff _ _ _ _ _ (alike_extraKey "account_4711" "account_4712" "17" "17")]
    decide

/-- Two drafts with different extra keys are alike, and are not recorded alike. -/
theorem extra_key_recorded :
    ¬∀ (b : CaseBinding) (values : InvestigationState) (stage : Stage) (e₁ e₂ : StageException),
      e₁.Alike e₂ →
        recordFailure b values stage e₁.fault = recordFailure b values stage e₂.fault := by
  intro h
  have halike := alike_extraKey "account_4711" "account_4712" "17" "17"
  have hsame := h ⟨0, 0, "A-1", "C-1", "investigator", "B5"⟩ {} .draftRecommendation _ _ halike
  have hshown := (failureOf_eq_iff halike 0 _).mp ((recordFailure_eq_iff _ _ _ _ _).mp hsame 0)
  revert hshown
  decide

end Amlguard
