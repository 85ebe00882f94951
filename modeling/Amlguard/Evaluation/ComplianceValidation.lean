import Amlguard.Evaluation.ComplianceEvidence
import Amlguard.Governance.Readiness
import Amlguard.Policy.Applicability
import Mathlib.Algebra.Order.Field.Rat
import Mathlib.Data.List.Forall2

/-!
# Validation of compliance verdicts

`validate_compliance` caps the verdicts of the harness by the rules of the registry and the evidence that
is available, and counts what is left. A verdict is a text of the payload; `met` and `partial` need a
rule, whose evidence is complete, and `attention` needs a proof.

The payload is a JSON document. The floating-point rounding of the scores is left open, as is `str` of a
number.
-/

namespace Amlguard

open PyValue (get)

/-- `ComplianceStatus`. -/
def complianceStatuses : List String := ["met", "partial", "attention", "not_evaluated"]

/-- The statuses that a rule may have for its ceiling. -/
def statusCeilings : List String := ["met", "partial", "not_evaluated"]

/-- A rule of the registry, with an allowed ceiling. -/
structure ValidationRule where
  frameworkId : PyValue
  controlId : PyValue
  statusCeiling : String
  rationale : PyValue
  requiredEvidence : List PyValue
  ceiling_allowed : statusCeiling ∈ statusCeilings

section Policy

/-- The ceiling of a rule. -/
def statusCeilingOf : PyValue → Except PyError {ceiling : String // ceiling ∈ statusCeilings}
  | .str text =>
    if h : text ∈ statusCeilings then .ok ⟨text, h⟩
    else .error (.valueError "invalid compliance status ceiling")
  | value =>
    if value.hashable then .error (.valueError "invalid compliance status ceiling")
    else .error { typeName := "TypeError", message := "unhashable type" }

/-- The required evidence of a rule. -/
def requiredEvidenceOf : Option PyValue → Except PyError (List PyValue)
  | none => .ok []
  | some (.list items) => .ok items
  | some _ => .error (.valueError "required_evidence must be a list")

/-- One entry of the registry's rules. -/
def validationRule : PyValue → Except PyError ValidationRule
  | .dict item =>
    match get item "framework_id", get item "control_id", get item "status_ceiling",
      get item "rationale" with
    | some frameworkId, some controlId, some ceiling, some rationale => do
      let statusCeiling ← statusCeilingOf ceiling
      let requiredEvidence ← requiredEvidenceOf (get item "required_evidence")
      pure
        { frameworkId
          controlId
          statusCeiling := statusCeiling.1
          rationale
          requiredEvidence
          ceiling_allowed := statusCeiling.2 }
    | _, _, _, _ => .error (.valueError "compliance validation rule is incomplete")
  | _ => .error (.valueError "compliance validation rules must be objects")

/-- `load_validation_policy`, on the loaded registry. -/
def loadValidationPolicy : PyValue → Except PyError (String × List ValidationRule)
  | .dict payload => do
    raiseIf (¬((get payload "schema_version").getD .none).equals "1.0")
      (.valueError "compliance validation registry must use schema_version 1.0")
    let controlsPath := strippedText (get payload "organizational_controls_path")
    match get payload "validation_rules" with
    | some (.list items) => do
      raiseIf (controlsPath = "") (.valueError
        "compliance validation registry requires organizational_controls_path and rules")
      let rules ← items.mapM validationRule
      pure (controlsPath, rules)
    | _ => .error (.valueError
        "compliance validation registry requires organizational_controls_path and rules")
  | _ => .error (.valueError "compliance validation registry must use schema_version 1.0")

end Policy

/-- What the verdicts are validated against. -/
structure ValidationEvidence where
  documentaryEvidence : List DocumentaryEvidence
  runtime : List (String × Json)
  readiness : GovernanceReadiness

/-- `_available_evidence`. -/
def availableEvidence (evidence : ValidationEvidence) : List String :=
  ((evidence.documentaryEvidence.filter fun item => item.documentId ≠ "").map fun item =>
      "document:" ++ item.documentId) ++
    ((evidence.runtime.filter fun item => item.2 = .bool true).map fun item => "runtime:" ++ item.1) ++
      (evidence.readiness.checks.filter approved).map fun check => "readiness:" ++ (checkId check).text

/-- `_capped_status`. -/
def cappedStatus (raw ceiling : String) (evidenceComplete : Bool) (proof : String) : String :=
  if raw = "not_evaluated" then raw
  else if raw = "attention" then
    if evidenceComplete ∧ strip proof ≠ "" then raw else "not_evaluated"
  else if ¬evidenceComplete ∨ ceiling = "not_evaluated" then "not_evaluated"
  else if raw = "met" ∧ ceiling = "partial" then "partial"
  else raw

/-- The fields of a JSON object. -/
abbrev JsonObject := List (String × Json)

/-- `item.get(key)`. -/
def getField (item : JsonObject) (key : String) : Option Json := Ordered.getEntry key item

/-- `item[key] = value`, for several keys one after another. -/
def setFields (item entries : JsonObject) : JsonObject :=
  entries.foldl (fun item entry => Ordered.putEntry entry.1 entry.2 item) item

/-- A key that is not set keeps its value. -/
theorem getField_setFields_of_notMem (item : JsonObject) {entries : JsonObject} {key : String}
    (h : key ∉ entries.map Prod.fst) : getField (setFields item entries) key = getField item key := by
  induction entries generalizing item with
  | nil => rfl
  | cons entry rest ih =>
    rw [List.map_cons, List.mem_cons, not_or] at h
    rw [setFields, List.foldl_cons, ← setFields, ih _ h.2, getField, Ordered.getEntry_putEntry,
      if_neg (Ne.symm h.1), getField]

/-- A key that is set once has the value that it is set to. -/
theorem getField_setFields_of_mem (item : JsonObject) {entries : JsonObject} {key : String} {value : Json}
    (hnodup : (entries.map Prod.fst).Nodup) (h : (key, value) ∈ entries) :
    getField (setFields item entries) key = some value := by
  induction entries generalizing item with
  | nil => cases h
  | cons entry rest ih =>
    rw [List.map_cons, List.nodup_cons] at hnodup
    rw [setFields, List.foldl_cons, ← setFields]
    rcases List.mem_cons.mp h with rfl | h
    · rw [getField_setFields_of_notMem _ hnodup.1, getField, Ordered.getEntry_putEntry, if_pos rfl]
    · exact ih _ hnodup.2 h

/-- `str(value or default)`, for an entry of a dictionary. -/
def PyBuiltins.textOr (py : PyBuiltins) (value : Option Json) (default : String) : String :=
  match value with
  | some value => if (PyValue.ofJson py.number value).truthy then py.str value else default
  | none => default

/-- A verdict that validation has changed. -/
structure ComplianceIssue where
  frameworkId : String
  controlId : String
  proofagentStatus : String
  validatedStatus : String
  reason : String
  deriving DecidableEq

/-- The number of controls with each status. -/
structure StatusCounts where
  met : ℕ := 0
  partials : ℕ := 0
  attention : ℕ := 0
  notEvaluated : ℕ := 0
  deriving DecidableEq

namespace StatusCounts

/-- One control more, when its status is one that is counted. -/
def count (counts : StatusCounts) (status : String) : StatusCounts :=
  if status = "met" then { counts with met := counts.met + 1 }
  else if status = "partial" then { counts with partials := counts.partials + 1 }
  else if status = "attention" then { counts with attention := counts.attention + 1 }
  else if status = "not_evaluated" then { counts with notEvaluated := counts.notEvaluated + 1 }
  else counts

/-- The counts of two frameworks together. -/
def add (counts counts' : StatusCounts) : StatusCounts where
  met := counts.met + counts'.met
  partials := counts.partials + counts'.partials
  attention := counts.attention + counts'.attention
  notEvaluated := counts.notEvaluated + counts'.notEvaluated

/-- The controls with a verdict. -/
def assessed (counts : StatusCounts) : ℕ := counts.met + counts.partials + counts.attention

/-- All the controls that are counted. -/
def total (counts : StatusCounts) : ℕ := counts.assessed + counts.notEvaluated

/-- The score, before it is rounded. -/
def score (counts : StatusCounts) : Option ℚ :=
  if counts.assessed = 0 then none
  else some (100 * (counts.met + counts.partials / 2) / counts.assessed)

/-- The counts as a field of a framework. -/
def document (counts : StatusCounts) : Json :=
  .object [("met", .number counts.met), ("partial", .number counts.partials),
    ("attention", .number counts.attention), ("not_evaluated", .number counts.notEvaluated)]

end StatusCounts

/-- `ComplianceValidation`. -/
structure ComplianceValidation where
  compliance : JsonObject
  issues : List ComplianceIssue
  hardBlock : Bool
  score : Option ℚ
  assessedControls : ℕ
  totalControls : ℕ

section Validation

variable (py : PyBuiltins) (rounded : ℕ → ℚ → ℚ) (rules : List ValidationRule) (available : List String)

/-- The rules by the IDs of their controls, the later over the earlier. -/
def ruleIndex : Dict (String × String) ValidationRule :=
  Dict.empty.update (rules.map fun rule => ((rule.frameworkId.text, rule.controlId.text), rule))

/-- The evidence that a control needs. -/
def requiredFor (rule : Option ValidationRule) : List String :=
  (rule.map fun rule => rule.requiredEvidence.map PyValue.text).getD []

/-- The ceiling of a control. -/
def ceilingFor (rule : Option ValidationRule) : String :=
  (rule.map (·.statusCeiling)).getD "not_evaluated"

/-- The reason that is given for a control's status. -/
def rationaleFor (rule : Option ValidationRule) : String :=
  (rule.map fun rule => rule.rationale.text).getD
    "No AMLGuard evidence-validation rule exists for this control."

/-- All that a control needs is available. -/
def evidenceComplete (rule : Option ValidationRule) : Bool :=
  (requiredFor rule).all fun item => item ∈ available

/-- The status that the harness has given a control. -/
def rawStatus (control : JsonObject) : String := py.textOr (getField control "status") "not_evaluated"

/-- The rule of a control. -/
def ruleOf (frameworkId : String) (control : JsonObject) : Option ValidationRule :=
  (ruleIndex rules).get? (frameworkId, py.textOr (getField control "id") "")

/-- The status that is left of a control's. -/
def validatedStatus (frameworkId : String) (control : JsonObject) : String :=
  let rule := ruleOf py rules frameworkId control
  cappedStatus (rawStatus py control) (ceilingFor rule) (evidenceComplete available rule)
    (py.textOr (getField control "proof") "")

/-- A control, after its validation. -/
def validatedControl (frameworkId : String) (control : JsonObject) : JsonObject :=
  let rule := ruleOf py rules frameworkId control
  setFields control
    [("proofagent_status", .string (rawStatus py control)),
      ("status", .string (validatedStatus py rules available frameworkId control)),
      ("validation_rationale", .string (rationaleFor rule)),
      ("validation_evidence",
        .array ((sortedSet ((requiredFor rule).filter (· ∈ available))).map .string)),
      ("missing_validation_evidence",
        .array ((sortedSet ((requiredFor rule).filter (· ∉ available))).map .string))]

/-- The issue of a control whose status has changed. -/
def issueOf (frameworkId : String) (control : JsonObject) : Option ComplianceIssue :=
  if validatedStatus py rules available frameworkId control ≠ rawStatus py control then
    some
      { frameworkId
        controlId := py.textOr (getField control "id") ""
        proofagentStatus := rawStatus py control
        validatedStatus := validatedStatus py rules available frameworkId control
        reason := rationaleFor (ruleOf py rules frameworkId control) }
  else none

/-- The objects of a list. Whatever else it holds is skipped. -/
def objects (items : List Json) : List JsonObject :=
  items.filterMap fun
    | .object fields => some fields
    | _ => none

/-- A control object is validated, and whatever else stands among the controls is left. -/
def validateItem (frameworkId : String) : Json → Json
  | .object control => .object (validatedControl py rules available frameworkId control)
  | value => value

/-- The counts of the controls of a framework. Here, nothing but an object is a control. -/
def countControls (controls : List Json) : Except PyError StatusCounts :=
  controls.foldlM (fun counts control =>
    match control with
    | .object control => .ok (counts.count (rawStatus py control))
    | _ => .error { typeName := "AttributeError", message := "object has no attribute 'get'" }) {}

/-- A framework, after its validation. -/
structure ValidatedFramework where
  framework : Json
  issues : List ComplianceIssue := []
  counts : StatusCounts := {}

/-- The results of a framework are written into it. -/
def summarized (counts : StatusCounts) (controls : ℕ) (framework : JsonObject) : JsonObject :=
  setFields framework
    [("counts", counts.document),
      ("score", (counts.score.map fun score => Json.number (rounded 0 score)).getD .null),
      ("coverage", .string (toString counts.assessed ++ "/" ++ toString controls)),
      ("summary", .string ("AMLGuard validated " ++ toString counts.assessed ++ " of " ++
        toString controls ++ " controls against declared runtime and documentary evidence."))]

/-- One entry of the frameworks. -/
def validateFramework : Json → Except PyError ValidatedFramework
  | .object framework =>
    let frameworkId := py.textOr (getField framework "id") ""
    match getField framework "controls" with
    | none => .ok { framework := .object (summarized rounded {} 0 framework) }
    | some (.array controls) => do
      let validated := controls.map (validateItem py rules available frameworkId)
      let counts ← countControls py validated
      pure
        { framework := .object (summarized rounded counts controls.length
            (setFields framework [("controls", .array validated)]))
          issues := (objects controls).filterMap (issueOf py rules available frameworkId)
          counts }
    | some _ => .ok { framework := .object framework }
  | value => .ok { framework := value }

/-- The entries that the loop over the frameworks visits. -/
def frameworkEntries (compliance : JsonObject) : Except PyError (List Json) :=
  match getField compliance "frameworks" with
  | none => .ok []
  | some value => PyBuiltins.items value

/-- The frameworks are changed in place, when they are a list. -/
def replaceFrameworks (compliance : JsonObject) (frameworks : List Json) : JsonObject :=
  match getField compliance "frameworks" with
  | some (.array _) => setFields compliance [("frameworks", .array frameworks)]
  | _ => compliance

/-- `validate_compliance`. -/
def validateCompliance (compliance : JsonObject) (evidence : ValidationEvidence) :
    Except PyError ComplianceValidation := do
  let entries ← frameworkEntries compliance
  let validated ← entries.mapM (validateFramework py rounded rules (availableEvidence evidence))
  let issues := validated.flatMap (·.issues)
  let counts := (validated.map (·.counts)).foldl StatusCounts.add {}
  pure
    { compliance := replaceFrameworks compliance (validated.map (·.framework))
      issues
      hardBlock := issues.any fun issue => issue.proofagentStatus = "met"
      score := counts.score.map (rounded 1)
      assessedControls := counts.assessed
      totalControls := counts.total }

end Validation

/-- A control object of the payload, with the ID of its framework. -/
structure ControlObject where
  frameworkId : String
  fields : JsonObject

/-- The control objects of a framework. -/
def controlsOf (framework : JsonObject) : List JsonObject :=
  match getField framework "controls" with
  | some (.array controls) => objects controls
  | _ => []

/-- The framework objects of the payload. -/
def frameworkObjects (compliance : JsonObject) : List JsonObject :=
  match getField compliance "frameworks" with
  | some (.array frameworks) => objects frameworks
  | _ => []

/-- The control objects of one framework object, with its ID. -/
def frameworkControls (py : PyBuiltins) (framework : JsonObject) : List ControlObject :=
  (controlsOf framework).map fun control => ⟨py.textOr (getField framework "id") "", control⟩

/-- The control objects of the payload. -/
def controlObjects (py : PyBuiltins) (compliance : JsonObject) : List ControlObject :=
  (frameworkObjects compliance).flatMap (frameworkControls py)

/-- The counts of a list of statuses. -/
def tally (statuses : List String) : StatusCounts := statuses.foldl StatusCounts.count {}

section Counting

variable {py : PyBuiltins}

/-- Whatever has been counted before stays counted. -/
theorem foldl_count (statuses : List String) (counts : StatusCounts) :
    statuses.foldl StatusCounts.count counts = counts.add (tally statuses) := by
  induction statuses using List.reverseRecOn with
  | nil => rfl
  | append_singleton statuses status ih =>
    have hcount : ∀ counts counts' : StatusCounts,
        (counts.add counts').count status = counts.add (counts'.count status) := by
      intro counts counts'
      unfold StatusCounts.count
      split <;> [rfl; split <;> [rfl; split <;> [rfl; split <;> rfl]]]
    rw [tally, List.foldl_concat, List.foldl_concat, ih, hcount]
    rfl

/-- Two lists of statuses are counted together. -/
theorem tally_append (statuses statuses' : List String) :
    tally (statuses ++ statuses') = (tally statuses).add (tally statuses') := by
  rw [tally, List.foldl_append, foldl_count]
  rfl

/-- The counts of several lists are those of all their statuses. -/
theorem foldl_add_tally (lists : List (List String)) :
    (lists.map tally).foldl StatusCounts.add {} = tally lists.flatten := by
  induction lists using List.reverseRecOn with
  | nil => rfl
  | append_singleton lists statuses ih =>
    rw [List.map_append, List.foldl_append, ih, List.flatten_append, tally_append]
    simp

/-- The controls of a framework are counted exactly when they are objects. -/
theorem countControls_eq_ok {controls : List Json} {counts : StatusCounts} :
    countControls py controls = .ok counts ↔
      (∀ control ∈ controls, ∃ fields, control = .object fields) ∧
        counts = tally ((objects controls).map (rawStatus py)) := by
  unfold countControls tally
  generalize ({} : StatusCounts) = start
  induction controls generalizing start with
  | nil => simp [objects, pure, Except.pure, eq_comm]
  | cons control rest ih =>
    rw [List.foldlM_cons, List.forall_mem_cons]
    cases control with
    | object fields =>
      rw [ok_bind, ih]
      simp [objects]
    | _ => simp [error_bind]

end Counting

section Framework

variable {py : PyBuiltins} {rounded : ℕ → ℚ → ℚ} {rules : List ValidationRule} {available : List String}

/-- A control object, after its validation. -/
def ControlObject.validated (py : PyBuiltins) (rules : List ValidationRule) (available : List String)
    (control : ControlObject) : ControlObject :=
  ⟨control.frameworkId, validatedControl py rules available control.frameworkId control.fields⟩

/-- The control objects of an entry of the frameworks. -/
def entryControls (py : PyBuiltins) : Json → List ControlObject
  | .object framework => frameworkControls py framework
  | _ => []

/-- The control objects of a list are validated, and no others come to be. -/
theorem objects_validateItem (frameworkId : String) (controls : List Json) :
    objects (controls.map (validateItem py rules available frameworkId)) =
      (objects controls).map (validatedControl py rules available frameworkId) := by
  induction controls with
  | nil => rfl
  | cons control rest ih =>
    cases control with
    | object fields => simpa [objects, validateItem] using ih
    | _ => simpa [objects, validateItem] using ih

/-- The results that are written into a framework leave its ID and its controls. -/
theorem getField_summarized (counts : StatusCounts) (controls : ℕ) (framework : JsonObject) :
    getField (summarized rounded counts controls framework) "id" = getField framework "id" ∧
      getField (summarized rounded counts controls framework) "controls" = getField framework "controls" ∧
        getField (summarized rounded counts controls framework) "counts" = some counts.document := by
  unfold summarized
  refine ⟨?_, ?_, ?_⟩
  · exact getField_setFields_of_notMem _ (by simp)
  · exact getField_setFields_of_notMem _ (by simp)
  · exact getField_setFields_of_mem _ (by simp) List.mem_cons_self

/-- What the validation of one entry gives. -/
structure ValidatedFramework.Sound (py : PyBuiltins) (rules : List ValidationRule)
    (available : List String) (entry : Json) (result : ValidatedFramework) : Prop where
  controls : entryControls py result.framework = (entryControls py entry).map
    (ControlObject.validated py rules available)
  issues : result.issues = (entryControls py entry).filterMap fun control =>
    issueOf py rules available control.frameworkId control.fields
  counts : result.counts =
    tally ((entryControls py result.framework).map fun control => rawStatus py control.fields)

/-- The validation of an entry validates its control objects, and counts the result. -/
theorem validateFramework_sound {entry : Json} {result : ValidatedFramework}
    (h : validateFramework py rounded rules available entry = .ok result) :
    result.Sound py rules available entry := by
  cases entry with
  | object framework =>
    rw [validateFramework] at h
    dsimp only at h
    split at h
    · rename_i hcontrols
      cases h
      obtain ⟨hid, hsame, -⟩ := @getField_summarized rounded {} 0 framework
      have hbefore : frameworkControls py framework = [] := by
        simp [frameworkControls, controlsOf, hcontrols]
      have hafter : frameworkControls py (summarized rounded {} 0 framework) = [] := by
        simp [frameworkControls, controlsOf, hsame, hcontrols]
      constructor <;> simp [entryControls, hbefore, hafter, tally]
    · rename_i controls hcontrols
      obtain ⟨counts, hcounts, h⟩ := bind_eq_ok.mp h
      cases h
      have hbefore : frameworkControls py framework = (objects controls).map fun control =>
          ⟨py.textOr (getField framework "id") "", control⟩ := by
        simp [frameworkControls, controlsOf, hcontrols]
      have hafter : ∀ counts n, frameworkControls py (summarized rounded counts n
          (setFields framework [("controls", .array (controls.map (validateItem py rules available
            (py.textOr (getField framework "id") ""))))])) =
          (frameworkControls py framework).map (ControlObject.validated py rules available) := by
        intro counts n
        obtain ⟨hid, hsame, -⟩ := @getField_summarized rounded counts n (setFields framework
          [("controls", .array (controls.map (validateItem py rules available
            (py.textOr (getField framework "id") ""))))])
        rw [getField_setFields_of_notMem _ (by simp)] at hid
        rw [getField_setFields_of_mem _ (by simp) List.mem_cons_self] at hsame
        rw [hbefore, frameworkControls, controlsOf, hid, hsame]
        dsimp only
        rw [objects_validateItem, List.map_map, List.map_map]
        rfl
      constructor
      · exact hafter _ _
      · rw [entryControls, hbefore, List.filterMap_map]
        rfl
      · rw [entryControls, hafter, hbefore, (countControls_eq_ok.mp hcounts).2, objects_validateItem,
          List.map_map, List.map_map, List.map_map]
        rfl
    · rename_i value hvalue hcontrols
      cases h
      have hnone : frameworkControls py framework = [] := by
        rw [frameworkControls, controlsOf, hcontrols]
        split
        · rename_i items hitems
          cases hitems
          exact absurd rfl (hvalue items)
        · rfl
      constructor <;> simp [entryControls, hnone, tally]
  | _ =>
    cases h
    exact ⟨rfl, rfl, rfl⟩

end Framework

section Payload

variable {py : PyBuiltins} {rounded : ℕ → ℚ → ℚ} {rules : List ValidationRule}
  {available : List String} {evidence : ValidationEvidence} {compliance : JsonObject}

/-- Related lists give the same when related items do. -/
theorem flatMap_of_forall₂ {α β γ : Type} {R : α → β → Prop} {f : α → List γ} {g : β → List γ}
    {as : List α} {bs : List β} (h : List.Forall₂ R as bs) (hR : ∀ a b, R a b → g b = f a) :
    bs.flatMap g = as.flatMap f := by
  induction h with
  | nil => rfl
  | cons hab _ ih => rw [List.flatMap_cons, List.flatMap_cons, hR _ _ hab, ih]

/-- The objects of a list are the objects that are in it. -/
theorem object_mem_objects {items : List Json} {fields : JsonObject} :
    fields ∈ objects items ↔ .object fields ∈ items := by
  simp only [objects, List.mem_filterMap]
  constructor
  · intro h
    obtain ⟨item, hitem, hobject⟩ := h
    cases item with
    | object fields' =>
      cases hobject
      exact hitem
    | _ => cases hobject
  · exact fun hmem => ⟨_, hmem, rfl⟩

/-- The control objects of a list of entries are those of its objects. -/
theorem flatMap_objects (items : List Json) :
    items.flatMap (entryControls py) = (objects items).flatMap (frameworkControls py) := by
  induction items with
  | nil => rfl
  | cons item rest ih =>
    rw [List.flatMap_cons, ih]
    cases item <;> simp [objects, entryControls]

/-- The control objects are those of the entries that are visited. -/
theorem flatMap_entryControls {entries : List Json} (h : frameworkEntries compliance = .ok entries) :
    entries.flatMap (entryControls py) = controlObjects py compliance := by
  rw [flatMap_objects, controlObjects, frameworkObjects]
  rw [frameworkEntries] at h
  split at h
  · rename_i hnone
    cases h
    rw [hnone]
    rfl
  · rename_i value hvalue
    rw [hvalue]
    cases value with
    | array items =>
      cases h
      rfl
    | object fields =>
      cases h
      have hnone : objects (fields.map fun field => Json.string field.1) = [] := by
        simp [objects]
      rw [hnone]
    | string text =>
      cases h
      have hnone : objects (text.toList.map fun c => Json.string (String.singleton c)) = [] := by
        simp [objects]
      rw [hnone]
    | _ => cases h

/-- The changed frameworks hold the control objects that have been validated. -/
theorem controlObjects_replaceFrameworks {frameworks : List Json}
    (h : frameworks.flatMap (entryControls py) =
      (controlObjects py compliance).map (ControlObject.validated py rules available)) :
    controlObjects py (replaceFrameworks compliance frameworks) =
      (controlObjects py compliance).map (ControlObject.validated py rules available) := by
  rw [replaceFrameworks]
  split
  · rw [← h, flatMap_objects, controlObjects, frameworkObjects,
      getField_setFields_of_mem _ (by simp) List.mem_cons_self]
  · rename_i hnone
    have hempty : controlObjects py compliance = [] := by
      rw [controlObjects, frameworkObjects]
      split
      · rename_i items hitems
        exact absurd hitems (hnone items)
      · rfl
    rw [hempty]
    rfl

/-- What a validation gives. -/
structure ComplianceValidation.Sound (py : PyBuiltins) (rounded : ℕ → ℚ → ℚ)
    (rules : List ValidationRule) (available : List String) (compliance : JsonObject)
    (result : ComplianceValidation) : Prop where
  controls : controlObjects py result.compliance =
    (controlObjects py compliance).map (ControlObject.validated py rules available)
  issues : result.issues = (controlObjects py compliance).filterMap fun control =>
    issueOf py rules available control.frameworkId control.fields
  hardBlock : result.hardBlock = result.issues.any fun issue => issue.proofagentStatus = "met"
  score : result.score = (tally ((controlObjects py result.compliance).map fun control =>
    rawStatus py control.fields)).score.map (rounded 1)
  frameworks : ∃ entries validated, frameworkEntries compliance = .ok entries ∧
    entries.mapM (validateFramework py rounded rules available) = .ok validated ∧
      result.compliance = replaceFrameworks compliance (validated.map (·.framework))

/-- A validation that returns validates every control object. -/
theorem validateCompliance_sound {result : ComplianceValidation}
    (h : validateCompliance py rounded rules compliance evidence = .ok result) :
    result.Sound py rounded rules (availableEvidence evidence) compliance := by
  obtain ⟨entries, hentries, h⟩ := bind_eq_ok.mp h
  obtain ⟨validated, hmade, h⟩ := bind_eq_ok.mp h
  cases h
  have hvalidated := mapM_eq_ok.mp hmade
  have hsound := fun entry item (h : validateFramework py rounded rules
    (availableEvidence evidence) entry = .ok item) => validateFramework_sound h
  have hflat : (validated.map (·.framework)).flatMap (entryControls py) =
      (controlObjects py compliance).map
        (ControlObject.validated py rules (availableEvidence evidence)) := by
    rw [← flatMap_entryControls hentries, List.map_flatMap, List.flatMap_map]
    exact flatMap_of_forall₂ hvalidated fun entry item h => (hsound entry item h).controls
  have hcontrols := controlObjects_replaceFrameworks hflat
  constructor
  · exact hcontrols
  · rw [← flatMap_entryControls hentries, List.filterMap_flatMap]
    exact flatMap_of_forall₂ hvalidated fun entry item h => (hsound entry item h).issues
  · rfl
  · have hcounts : validated.map (·.counts) = (validated.map fun item =>
        (entryControls py item.framework).map fun control => rawStatus py control.fields).map tally := by
      rw [List.map_map]
      apply List.map_congr_left
      intro item hitem
      obtain ⟨entry, -, hentry⟩ := exists_of_mem_mapM hmade hitem
      exact (hsound entry item hentry).counts
    rw [hcontrols, ← hflat]
    dsimp only
    rw [hcounts, foldl_add_tally, ← List.flatMap_def, List.flatMap_map, List.map_flatMap]
  · exact ⟨entries, validated, hentries, hmade, rfl⟩

/-- The framework objects are among the entries that are visited. -/
theorem object_mem_entries {entries : List Json} (h : frameworkEntries compliance = .ok entries)
    {framework : JsonObject} : .object framework ∈ entries ↔ framework ∈ frameworkObjects compliance := by
  rw [frameworkEntries] at h
  rw [frameworkObjects]
  split at h
  · rename_i hnone
    cases h
    simp [hnone]
  · rename_i value hvalue
    rw [hvalue]
    cases value with
    | array items =>
      cases h
      exact object_mem_objects.symm
    | object fields =>
      cases h
      simp
    | string text =>
      cases h
      simp
    | _ => cases h

/-- The controls of a framework can be counted. -/
def Countable (framework : JsonObject) : Prop :=
  ∀ controls, getField framework "controls" = some (.array controls) →
    ∀ control ∈ controls, ∃ fields, control = .object fields

/-- The validation of a framework returns exactly when its controls can be counted. -/
theorem exists_validateFramework_iff {framework : JsonObject} :
    (∃ item, validateFramework py rounded rules available (.object framework) = .ok item) ↔
      Countable framework := by
  unfold Countable
  rw [validateFramework]
  dsimp only
  split
  · rename_i hnone
    simp [hnone]
  · rename_i controls hcontrols
    constructor
    · intro h controls' hcontrols'
      obtain ⟨item, h⟩ := h
      obtain ⟨counts, hcounts, -⟩ := bind_eq_ok.mp h
      rw [hcontrols] at hcontrols'
      cases hcontrols'
      intro control hcontrol
      obtain ⟨fields, hfields⟩ := (countControls_eq_ok.mp hcounts).1 _ (List.mem_map_of_mem hcontrol)
      cases control with
      | object fields => exact ⟨fields, rfl⟩
      | _ => cases hfields
    · intro h
      have hall : ∀ control ∈ controls.map (validateItem py rules available
          (py.textOr (getField framework "id") "")), ∃ fields, control = .object fields := by
        intro control hcontrol
        obtain ⟨item, hitem, rfl⟩ := List.mem_map.mp hcontrol
        obtain ⟨fields, rfl⟩ := h controls hcontrols item hitem
        exact ⟨_, rfl⟩
      rw [countControls_eq_ok.mpr ⟨hall, rfl⟩]
      exact ⟨_, rfl⟩
  · rename_i value hvalue hcontrols
    rw [hcontrols]
    constructor
    · intro _ controls hcontrols
      cases hcontrols
      exact absurd rfl (hvalue controls)
    · exact fun _ => ⟨_, rfl⟩

/-- The validation returns exactly when the frameworks can be visited and their controls counted. -/
theorem exists_validation_iff :
    (∃ result, validateCompliance py rounded rules compliance evidence = .ok result) ↔
      (∃ entries, frameworkEntries compliance = .ok entries) ∧
        ∀ framework ∈ frameworkObjects compliance, Countable framework := by
  have hvisited : ∀ {entries}, frameworkEntries compliance = .ok entries →
      ((∃ validated, entries.mapM (validateFramework py rounded rules (availableEvidence evidence)) =
        .ok validated) ↔ ∀ framework ∈ frameworkObjects compliance, Countable framework) := by
    intro entries hentries
    rw [exists_mapM_iff]
    constructor
    · intro h framework hframework
      exact exists_validateFramework_iff.mp (h _ ((object_mem_entries hentries).mpr hframework))
    · intro h entry hentry
      cases entry with
      | object framework =>
        exact exists_validateFramework_iff.mpr (h framework ((object_mem_entries hentries).mp hentry))
      | _ => exact ⟨_, rfl⟩
  constructor
  · intro h
    obtain ⟨result, h⟩ := h
    obtain ⟨entries, hentries, h⟩ := bind_eq_ok.mp h
    obtain ⟨validated, hmade, -⟩ := bind_eq_ok.mp h
    exact ⟨⟨entries, hentries⟩, (hvisited hentries).mp ⟨validated, hmade⟩⟩
  · intro h
    obtain ⟨⟨entries, hentries⟩, hcountable⟩ := h
    obtain ⟨validated, hmade⟩ := (hvisited hentries).mpr hcountable
    rw [validateCompliance, hentries, ok_bind, hmade]
    exact ⟨_, rfl⟩

end Payload

end Amlguard
