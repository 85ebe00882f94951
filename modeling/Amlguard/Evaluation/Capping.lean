import Amlguard.Evaluation.ComplianceValidation

/-!
# Capping of compliance verdicts

A positive verdict survives only with a rule that allows it and with the evidence that the rule requires,
whatever the harness has reported. Capping a capped verdict changes nothing, so that the result of a
validation passes a second one unchanged.

What a control with a changed status is reported for, and what counts as a block, is read off the
statuses before and after.
-/

namespace Amlguard

section Status

variable {raw ceiling proof : String} {complete : Bool}

/-- A capped status is the raw one, a downgraded one, or none. -/
theorem cappedStatus_cases (raw ceiling : String) (complete : Bool) (proof : String) :
    cappedStatus raw ceiling complete proof = raw ∨
      raw = "met" ∧ complete = true ∧ ceiling = "partial" ∧
        cappedStatus raw ceiling complete proof = "partial" ∨
      cappedStatus raw ceiling complete proof = "not_evaluated" := by
  unfold cappedStatus
  grind

/-- What is left is a status, if the raw one is. -/
theorem cappedStatus_mem (h : raw ∈ complianceStatuses) :
    cappedStatus raw ceiling complete proof ∈ complianceStatuses := by
  rcases cappedStatus_cases raw ceiling complete proof with hsame | ⟨-, -, -, hpartly⟩ | hnone
  · rwa [hsame]
  · rw [hpartly]
    decide
  · rw [hnone]
    decide

/-- Only `met` stays `met`, with all the evidence and without a lower ceiling. -/
theorem cappedStatus_eq_met (h : cappedStatus raw ceiling complete proof = "met") :
    raw = "met" ∧ complete = true ∧ ceiling ≠ "partial" ∧ ceiling ≠ "not_evaluated" := by
  unfold cappedStatus at h
  grind

/-- What ends as `partial` was positive, and has all the evidence and a ceiling. -/
theorem cappedStatus_eq_partial (h : cappedStatus raw ceiling complete proof = "partial") :
    (raw = "met" ∨ raw = "partial") ∧ complete = true ∧ ceiling ≠ "not_evaluated" := by
  unfold cappedStatus at h
  grind

/-- Capping a capped status changes nothing. -/
theorem cappedStatus_idem :
    cappedStatus (cappedStatus raw ceiling complete proof) ceiling complete proof =
      cappedStatus raw ceiling complete proof := by
  unfold cappedStatus
  grind

end Status

/-- What a status says is supported: by the raw status, by the rule and by the evidence. -/
structure Supported (rule : Option ValidationRule) (available : List String) (raw status : String) :
    Prop where
  met : status = "met" → raw = "met" ∧ ∃ r, rule = some r ∧ r.statusCeiling = "met" ∧
    ∀ item ∈ r.requiredEvidence, item.text ∈ available
  partially : status = "partial" → (raw = "met" ∨ raw = "partial") ∧
    ∃ r, rule = some r ∧ r.statusCeiling ≠ "not_evaluated" ∧
      ∀ item ∈ r.requiredEvidence, item.text ∈ available
  unruled : rule = none → status ≠ "met" ∧ status ≠ "partial"

section Control

variable {py : PyBuiltins} {rules : List ValidationRule} {available : List String}

/-- The fields that validation sets leave the other ones. -/
theorem getField_validatedControl (frameworkId : String) (control : JsonObject) :
    getField (validatedControl py rules available frameworkId control) "id" = getField control "id" ∧
      getField (validatedControl py rules available frameworkId control) "proof" =
        getField control "proof" ∧
      getField (validatedControl py rules available frameworkId control) "status" =
        some (.string (validatedStatus py rules available frameworkId control)) := by
  unfold validatedControl
  refine ⟨?_, ?_, ?_⟩
  · exact getField_setFields_of_notMem _ (by simp)
  · exact getField_setFields_of_notMem _ (by simp)
  · exact getField_setFields_of_mem _ (by simp) (by simp)

/-- The status that validation sets is the one that is read, unless it is empty. -/
theorem rawStatus_validatedControl {frameworkId : String} {control : JsonObject}
    (h : validatedStatus py rules available frameworkId control ≠ "") :
    rawStatus py (validatedControl py rules available frameworkId control) =
      validatedStatus py rules available frameworkId control := by
  rw [rawStatus, (getField_validatedControl frameworkId control).2.2]
  simp [PyBuiltins.textOr, PyBuiltins.str, PyValue.ofJson, PyValue.truthy, PyValue.text, h]

/-- The ceiling of a control that has one comes from its rule. -/
theorem exists_rule_of_ceiling {rule : Option ValidationRule} (h : ceilingFor rule ≠ "not_evaluated") :
    ∃ r, rule = some r ∧ r.statusCeiling = ceilingFor rule := by
  cases rule with
  | none => exact absurd rfl h
  | some r => exact ⟨r, rfl, rfl⟩

/-- All the evidence that a rule requires is available when the evidence is complete. -/
theorem available_of_complete {r : ValidationRule} (h : evidenceComplete available (some r) = true) :
    ∀ item ∈ r.requiredEvidence, item.text ∈ available := by
  intro item hitem
  have hall := List.all_eq_true.mp h item.text (List.mem_map_of_mem hitem)
  simpa using hall

/-- The status that is left of a control's is supported. -/
theorem supported_validatedStatus (frameworkId : String) (control : JsonObject) :
    Supported (ruleOf py rules frameworkId control) available (rawStatus py control)
      (validatedStatus py rules available frameworkId control) := by
  have hmet : validatedStatus py rules available frameworkId control = "met" →
      rawStatus py control = "met" ∧ ∃ r, ruleOf py rules frameworkId control = some r ∧
        r.statusCeiling = "met" ∧ ∀ item ∈ r.requiredEvidence, item.text ∈ available := by
    intro h
    obtain ⟨hraw, hcomplete, hpartly, hnone⟩ := cappedStatus_eq_met h
    obtain ⟨r, hrule, hceiling⟩ := exists_rule_of_ceiling hnone
    rw [hrule] at hcomplete
    refine ⟨hraw, r, hrule, ?_, available_of_complete hcomplete⟩
    have hallowed := r.ceiling_allowed
    rw [hceiling] at hallowed ⊢
    simpa [statusCeilings, hpartly, hnone] using hallowed
  have hpartly : validatedStatus py rules available frameworkId control = "partial" →
      (rawStatus py control = "met" ∨ rawStatus py control = "partial") ∧
        ∃ r, ruleOf py rules frameworkId control = some r ∧ r.statusCeiling ≠ "not_evaluated" ∧
          ∀ item ∈ r.requiredEvidence, item.text ∈ available := by
    intro h
    obtain ⟨hraw, hcomplete, hnone⟩ := cappedStatus_eq_partial h
    obtain ⟨r, hrule, hceiling⟩ := exists_rule_of_ceiling hnone
    rw [hrule] at hcomplete
    exact ⟨hraw, r, hrule, by rwa [hceiling], available_of_complete hcomplete⟩
  constructor
  · exact hmet
  · exact hpartly
  · intro hrule
    constructor
    · intro h
      obtain ⟨-, r, hsome, -⟩ := hmet h
      rw [hrule] at hsome
      cases hsome
    · intro h
      obtain ⟨-, r, hsome, -⟩ := hpartly h
      rw [hrule] at hsome
      cases hsome

/-- A second validation leaves the status of a control. -/
theorem validatedStatus_validatedControl {frameworkId : String} {control : JsonObject}
    (h : validatedStatus py rules available frameworkId control ≠ "") :
    validatedStatus py rules available frameworkId
        (validatedControl py rules available frameworkId control) =
      validatedStatus py rules available frameworkId control := by
  obtain ⟨hid, hproof, -⟩ := @getField_validatedControl py rules available frameworkId control
  rw [validatedStatus, rawStatus_validatedControl h, ruleOf, hid, hproof, ← ruleOf]
  exact cappedStatus_idem

end Control

section WellFormed

variable {py : PyBuiltins} {rounded : ℕ → ℚ → ℚ} {rules : List ValidationRule}
  {evidence : ValidationEvidence} {compliance : JsonObject}

/-- The controls of a framework are a list of objects with statuses. -/
def WellFormedFramework (py : PyBuiltins) (framework : JsonObject) : Prop :=
  ∀ value, getField framework "controls" = some value → ∃ controls, value = .array controls ∧
    ∀ control ∈ controls, ∃ fields, control = .object fields ∧ rawStatus py fields ∈ complianceStatuses

/-- The payload has a list of framework objects, whose controls are lists of objects with statuses. -/
def WellFormed (py : PyBuiltins) (compliance : JsonObject) : Prop :=
  ∀ value, getField compliance "frameworks" = some value → ∃ frameworks, value = .array frameworks ∧
    ∀ entry ∈ frameworks, ∃ framework, entry = .object framework ∧ WellFormedFramework py framework

/-- Every control of a well-formed framework has a status. -/
theorem rawStatus_mem_controlsOf {framework : JsonObject} (h : WellFormedFramework py framework) :
    ∀ control ∈ controlsOf framework, rawStatus py control ∈ complianceStatuses := by
  intro control hcontrol
  rw [controlsOf] at hcontrol
  split at hcontrol
  · rename_i controls hcontrols
    obtain ⟨_, hvalue, hstatus⟩ := h _ hcontrols
    cases hvalue
    obtain ⟨_, hsame, hstatus⟩ := hstatus _ (object_mem_objects.mp hcontrol)
    cases hsame
    exact hstatus
  · cases hcontrol

/-- Every control object of a well-formed payload has a status. -/
theorem rawStatus_mem (h : WellFormed py compliance) :
    ∀ control ∈ controlObjects py compliance, rawStatus py control.fields ∈ complianceStatuses := by
  intro control hcontrol
  obtain ⟨framework, hframework, hcontrol⟩ := List.mem_flatMap.mp hcontrol
  obtain ⟨fields, hfields, rfl⟩ := List.mem_map.mp hcontrol
  rw [frameworkObjects] at hframework
  split at hframework
  · rename_i frameworks hframeworks
    obtain ⟨_, hvalue, hentries⟩ := h _ hframeworks
    cases hvalue
    obtain ⟨framework', hsame, hwell⟩ := hentries _ (object_mem_objects.mp hframework)
    cases hsame
    exact rawStatus_mem_controlsOf hwell fields hfields
  · cases hframework

/-- The validation of a well-formed payload returns. -/
theorem exists_validation (h : WellFormed py compliance) :
    ∃ result, validateCompliance py rounded rules compliance evidence = .ok result := by
  rw [exists_validation_iff]
  constructor
  · rw [frameworkEntries]
    split
    · exact ⟨_, rfl⟩
    · rename_i value hvalue
      obtain ⟨frameworks, rfl, -⟩ := h _ hvalue
      exact ⟨_, rfl⟩
  · intro framework hframework controls hcontrols control hcontrol
    rw [frameworkObjects] at hframework
    split at hframework
    · rename_i frameworks hframeworks
      obtain ⟨_, hvalue, hentries⟩ := h _ hframeworks
      cases hvalue
      obtain ⟨framework', hsame, hwell⟩ := hentries _ (object_mem_objects.mp hframework)
      cases hsame
      obtain ⟨_, hvalue, hcontrols⟩ := hwell _ hcontrols
      cases hvalue
      obtain ⟨fields, hfields, -⟩ := hcontrols _ hcontrol
      exact ⟨fields, hfields⟩
    · cases hframework

/-- A status is not empty. -/
theorem ne_empty_of_mem {status : String} (h : status ∈ complianceStatuses) : status ≠ "" := by
  rintro rfl
  revert h
  decide

/-- A well-formed framework is validated to a well-formed one, with its counts. -/
theorem wellFormedFramework_validated {available : List String} {framework : JsonObject}
    {item : ValidatedFramework} (h : WellFormedFramework py framework)
    (hvalid : validateFramework py rounded rules available (.object framework) = .ok item) :
    ∃ framework', item.framework = .object framework' ∧ WellFormedFramework py framework' ∧
      getField framework' "counts" = some item.counts.document := by
  rw [validateFramework] at hvalid
  dsimp only at hvalid
  split at hvalid
  · rename_i hnone
    cases hvalid
    obtain ⟨-, hsame, hcounts⟩ := @getField_summarized rounded {} 0 framework
    refine ⟨_, rfl, ?_, hcounts⟩
    intro value hvalue
    rw [hsame, hnone] at hvalue
    cases hvalue
  · rename_i controls hcontrols
    obtain ⟨counts, -, hvalid⟩ := bind_eq_ok.mp hvalid
    cases hvalid
    refine ⟨_, rfl, ?_, (getField_summarized _ _ _).2.2⟩
    intro value hvalue
    rw [(getField_summarized _ _ _).2.1, getField_setFields_of_mem _ (by simp) List.mem_cons_self] at hvalue
    cases hvalue
    refine ⟨_, rfl, ?_⟩
    intro control hcontrol
    obtain ⟨before, hbefore, rfl⟩ := List.mem_map.mp hcontrol
    obtain ⟨_, hvalue, hstatus⟩ := h _ hcontrols
    cases hvalue
    obtain ⟨fields, rfl, hraw⟩ := hstatus before hbefore
    have hmem : validatedStatus py rules available (py.textOr (getField framework "id") "") fields ∈
        complianceStatuses :=
      cappedStatus_mem hraw
    refine ⟨_, rfl, ?_⟩
    rwa [rawStatus_validatedControl (ne_empty_of_mem hmem)]
  · rename_i value hvalue hcontrols
    obtain ⟨controls, rfl, -⟩ := h _ hcontrols
    exact absurd rfl (hvalue controls)

/-- The frameworks of a validated payload come from well-formed ones. -/
theorem frameworks_validated {result : ComplianceValidation} (h : WellFormed py compliance)
    (hvalid : validateCompliance py rounded rules compliance evidence = .ok result) {value : Json}
    (hvalue : getField result.compliance "frameworks" = some value) :
    ∃ frameworks, value = .array frameworks ∧ ∀ entry ∈ frameworks, ∃ framework,
      entry = .object framework ∧ WellFormedFramework py framework ∧
        getField framework "counts" =
          some (tally ((controlsOf framework).map (rawStatus py))).document := by
  obtain ⟨entries, validated, hentries, hmade, hresult⟩ := (validateCompliance_sound hvalid).frameworks
  rw [hresult, replaceFrameworks] at hvalue
  rw [frameworkEntries] at hentries
  split at hvalue
  · rename_i frameworks hframeworks
    rw [getField_setFields_of_mem _ (by simp) List.mem_cons_self] at hvalue
    cases hvalue
    rw [hframeworks] at hentries
    cases hentries
    refine ⟨_, rfl, fun entry hentry => ?_⟩
    obtain ⟨item, hitem, rfl⟩ := List.mem_map.mp hentry
    obtain ⟨before, hbefore, hframework⟩ := exists_of_mem_mapM hmade hitem
    obtain ⟨_, hvalue, hentries⟩ := h _ hframeworks
    cases hvalue
    obtain ⟨framework, rfl, hwell⟩ := hentries before hbefore
    obtain ⟨framework', hobject, hwell', hcounts⟩ := wellFormedFramework_validated hwell hframework
    refine ⟨framework', hobject, hwell', ?_⟩
    rw [hcounts, (validateFramework_sound hframework).counts, hobject, entryControls, frameworkControls,
      List.map_map]
    rfl
  · rename_i hnone
    obtain ⟨frameworks, rfl, -⟩ := h _ hvalue
    exact absurd hvalue (hnone frameworks)

/-- A validated payload is well formed. -/
theorem wellFormed_validated {result : ComplianceValidation} (h : WellFormed py compliance)
    (hvalid : validateCompliance py rounded rules compliance evidence = .ok result) :
    WellFormed py result.compliance := by
  intro value hvalue
  obtain ⟨frameworks, rfl, hentries⟩ := frameworks_validated h hvalid hvalue
  refine ⟨frameworks, rfl, fun entry hentry => ?_⟩
  obtain ⟨framework, hobject, hwell, -⟩ := hentries entry hentry
  exact ⟨framework, hobject, hwell⟩

/-- As many controls are counted as there are. -/
theorem total_tally {statuses : List String} (h : ∀ status ∈ statuses, status ∈ complianceStatuses) :
    (tally statuses).total = statuses.length := by
  induction statuses using List.reverseRecOn with
  | nil => rfl
  | append_singleton statuses status ih =>
    have hcount : ∀ counts : StatusCounts, status ∈ complianceStatuses →
        (counts.count status).total = counts.total + 1 := by
      intro counts hstatus
      simp only [complianceStatuses, List.mem_cons, List.not_mem_nil, or_false] at hstatus
      rcases hstatus with rfl | rfl | rfl | rfl
      all_goals
        simp [StatusCounts.count, StatusCounts.total, StatusCounts.assessed]
        omega
    rw [tally, List.foldl_concat, ← tally, hcount _ (h status (by simp)), ih, List.length_append]
    · rfl
    · exact fun s hs => h s (List.mem_append_left _ hs)

end WellFormed

/-- What is asked of the capping of a payload. -/
structure CapsSoundly (py : PyBuiltins) (rules : List ValidationRule) (available : List String)
    (compliance : JsonObject) (result : ComplianceValidation) : Prop where
  controls : List.Forall₂ (fun before after => after.frameworkId = before.frameworkId ∧
      getField after.fields "id" = getField before.fields "id" ∧
        Supported (ruleOf py rules before.frameworkId before.fields) available
          (rawStatus py before.fields) (rawStatus py after.fields))
    (controlObjects py compliance) (controlObjects py result.compliance)
  issues : result.issues.map (fun issue => (issue.frameworkId, issue.controlId,
      issue.proofagentStatus, issue.validatedStatus)) =
    (((controlObjects py compliance).zip (controlObjects py result.compliance)).filter fun pair =>
      rawStatus py pair.2.fields ≠ rawStatus py pair.1.fields).map fun pair =>
        (pair.1.frameworkId, py.textOr (getField pair.1.fields "id") "", rawStatus py pair.1.fields,
          rawStatus py pair.2.fields)
  hardBlock : result.hardBlock = true ↔
    ∃ pair ∈ (controlObjects py compliance).zip (controlObjects py result.compliance),
      rawStatus py pair.2.fields ≠ rawStatus py pair.1.fields ∧ rawStatus py pair.1.fields = "met"
  counts : ∀ framework ∈ frameworkObjects result.compliance, ∃ counts : StatusCounts,
    getField framework "counts" = some counts.document ∧ counts.total = (controlsOf framework).length

section Sound

variable {py : PyBuiltins} {rounded : ℕ → ℚ → ℚ} {rules : List ValidationRule}
  {evidence : ValidationEvidence} {compliance : JsonObject} {available : List String}

/-- The status that is read from a validated control object. -/
theorem rawStatus_validated {control : ControlObject}
    (h : rawStatus py control.fields ∈ complianceStatuses) :
    rawStatus py (control.validated py rules available).fields =
      validatedStatus py rules available control.frameworkId control.fields :=
  rawStatus_validatedControl (ne_empty_of_mem (cappedStatus_mem h))

/-- The issues are the controls whose statuses have changed. -/
theorem issues_eq {controls : List ControlObject}
    (h : ∀ control ∈ controls, rawStatus py control.fields ∈ complianceStatuses) :
    (controls.filterMap fun control =>
        issueOf py rules available control.frameworkId control.fields).map (fun issue =>
          (issue.frameworkId, issue.controlId, issue.proofagentStatus, issue.validatedStatus)) =
      ((controls.zip (controls.map (ControlObject.validated py rules available))).filter fun pair =>
        rawStatus py pair.2.fields ≠ rawStatus py pair.1.fields).map fun pair =>
          (pair.1.frameworkId, py.textOr (getField pair.1.fields "id") "",
            rawStatus py pair.1.fields, rawStatus py pair.2.fields) := by
  induction controls with
  | nil => rfl
  | cons control rest ih =>
    rw [List.forall_mem_cons] at h
    have hstatus : rawStatus py (control.validated py rules available).fields =
        validatedStatus py rules available control.frameworkId control.fields :=
      rawStatus_validated h.1
    rw [List.map_cons, List.zip_cons_cons]
    by_cases hchanged : validatedStatus py rules available control.frameworkId control.fields ≠
        rawStatus py control.fields
    · rw [List.filterMap_cons_some (by rw [issueOf, if_pos hchanged]), List.filter_cons_of_pos
        (by simpa [hstatus] using hchanged), List.map_cons, List.map_cons, ih h.2, hstatus]
    · rw [List.filterMap_cons_none (by rw [issueOf, if_neg hchanged]), List.filter_cons_of_neg
        (by simpa [hstatus] using hchanged), ih h.2]

/-- Validation caps soundly. -/
theorem capsSoundly {result : ComplianceValidation} (h : WellFormed py compliance)
    (hvalid : validateCompliance py rounded rules compliance evidence = .ok result) :
    CapsSoundly py rules (availableEvidence evidence) compliance result := by
  have hsound := validateCompliance_sound hvalid
  have hraw := rawStatus_mem h
  have hissues := @issues_eq py rules (availableEvidence evidence) _ hraw
  rw [← hsound.controls, ← hsound.issues] at hissues
  constructor
  · rw [hsound.controls, List.forall₂_map_right_iff, List.forall₂_same]
    intro control hcontrol
    refine ⟨rfl, (getField_validatedControl _ _).1, ?_⟩
    rw [rawStatus_validated (hraw control hcontrol)]
    exact supported_validatedStatus _ _
  · exact hissues
  · have hmet : result.hardBlock = true ↔ ∃ change ∈ result.issues.map (fun issue =>
        (issue.frameworkId, issue.controlId, issue.proofagentStatus, issue.validatedStatus)),
          change.2.2.1 = "met" := by
      rw [hsound.hardBlock]
      simp
    rw [hmet, hissues]
    simp [and_assoc]
  · intro framework hframework
    rw [frameworkObjects] at hframework
    split at hframework
    · rename_i frameworks hframeworks
      obtain ⟨_, hvalue, hentries⟩ := frameworks_validated h hvalid hframeworks
      cases hvalue
      obtain ⟨_, hsame, hwell, hcounts⟩ := hentries _ (object_mem_objects.mp hframework)
      cases hsame
      refine ⟨_, hcounts, ?_⟩
      rw [total_tally, List.length_map]
      intro status hstatus
      obtain ⟨control, hcontrol, rfl⟩ := List.mem_map.mp hstatus
      exact rawStatus_mem_controlsOf hwell control hcontrol
    · cases hframework

end Sound

section Repetition

variable (py : PyBuiltins) (rounded : ℕ → ℚ → ℚ) (rules : List ValidationRule)

/-- `validate_compliance` on one of the payloads that its caller holds: the payload is copied, and the copy
is changed. -/
def validateComplianceIn (payloads : List JsonObject) (address : Fin payloads.length)
    (evidence : ValidationEvidence) : Except PyError (List JsonObject × ComplianceValidation) := do
  let copies := payloads ++ [payloads.get address]
  let result ← validateCompliance py rounded rules (payloads.get address) evidence
  pure (copies.set payloads.length result.compliance, result)

end Repetition

/-- The verdicts of a well-formed payload are capped soundly, a second validation changes no status, and
the payloads of the caller stay as they are. -/
theorem capping_sound (py : PyBuiltins) (rounded : ℕ → ℚ → ℚ) (rules : List ValidationRule)
    (evidence : ValidationEvidence) (payloads : List JsonObject) (address : Fin payloads.length)
    (h : WellFormed py (payloads.get address)) :
    ∃ payloads' result,
      validateComplianceIn py rounded rules payloads address evidence = .ok (payloads', result) ∧
        (∀ i < payloads.length, payloads'[i]? = payloads[i]?) ∧
        payloads'[payloads.length]? = some result.compliance ∧
        CapsSoundly py rules (availableEvidence evidence) (payloads.get address) result ∧
        ∃ result', validateCompliance py rounded rules result.compliance evidence = .ok result' ∧
          (controlObjects py result'.compliance).map (fun control => rawStatus py control.fields) =
            (controlObjects py result.compliance).map fun control => rawStatus py control.fields := by
  obtain ⟨result, hvalid⟩ := @exists_validation py rounded rules evidence _ h
  have hwell := wellFormed_validated h hvalid
  obtain ⟨result', hvalid'⟩ := @exists_validation py rounded rules evidence _ hwell
  have hraw := rawStatus_mem hwell
  refine ⟨(payloads ++ [payloads.get address]).set payloads.length result.compliance, result, ?_, ?_, ?_,
    capsSoundly h hvalid, result', hvalid', ?_⟩
  · rw [validateComplianceIn, hvalid]
    rfl
  · intro i hi
    rw [List.getElem?_set_ne (Nat.ne_of_gt hi), List.getElem?_append_left hi]
  · simp
  · rw [(validateCompliance_sound hvalid').controls, List.map_map]
    apply List.map_congr_left
    intro control hcontrol
    rw [Function.comp_apply, rawStatus_validated (hraw control hcontrol)]
    rw [(validateCompliance_sound hvalid).controls] at hcontrol
    obtain ⟨before, hbefore, rfl⟩ := List.mem_map.mp hcontrol
    have hbefore := rawStatus_mem h before hbefore
    rw [rawStatus_validated hbefore]
    exact validatedStatus_validatedControl (ne_empty_of_mem (cappedStatus_mem hbefore))

/-- A control of the sample. -/
def sampleControl (id status : String) : Json :=
  .object [("id", .string id), ("status", .string status), ("proof", .string "")]

/-- A payload with one framework. -/
def samplePayload (controls : List (String × String)) : JsonObject :=
  [("frameworks", .array [.object [("id", .string "gdpr"),
    ("controls", .array (controls.map fun control => sampleControl control.1 control.2))]])]

/-- A rule without a lower ceiling, and with a requirement on the run. -/
def sampleRule : ValidationRule where
  frameworkId := .str "gdpr"
  controlId := .str "automated_art22"
  statusCeiling := "met"
  rationale := .str "The run is held behind human review."
  requiredEvidence := [.str "runtime:human_review_required"]
  ceiling_allowed := by decide

/-- A run with human review, and no approved check. -/
def sampleValidationEvidence : ValidationEvidence where
  documentaryEvidence := []
  runtime := [("human_review_required", .bool true)]
  readiness :=
    { schemaVersion := "1.0"
      scope := .str "unknown"
      researchReady := true
      productionReady := true
      researchBlockingChecks := []
      productionBlockingChecks := []
      unassignedOwnerRoles := []
      checks := []
      sourcePaths := [] }

/-- The payload is well formed when the statuses are allowed. -/
theorem wellFormed_samplePayload {py : PyBuiltins} {controls : List (String × String)}
    (h : ∀ control ∈ controls, control.2 ∈ complianceStatuses) :
    WellFormed py (samplePayload controls) := by
  intro value hvalue
  cases hvalue
  refine ⟨_, rfl, fun entry hentry => ?_⟩
  obtain rfl := List.mem_singleton.mp hentry
  refine ⟨_, rfl, fun value hvalue => ?_⟩
  cases hvalue
  refine ⟨_, rfl, fun item hitem => ?_⟩
  obtain ⟨control, hcontrol, rfl⟩ := List.mem_map.mp hitem
  refine ⟨_, rfl, ?_⟩
  have hstatus := h control hcontrol
  have hempty := ne_empty_of_mem hstatus
  have hraw : rawStatus py [("id", .string control.1), ("status", .string control.2),
      ("proof", .string "")] = control.2 := by
    simp [rawStatus, getField, Ordered.getEntry, PyBuiltins.textOr, PyBuiltins.str, PyValue.ofJson,
      PyValue.truthy, PyValue.text, hempty]
  rwa [hraw]

/-- Two positive verdicts of one framework, of which one has a rule. -/
theorem capping_sound_two :
    ∃ payloads' result,
      validateComplianceIn sampleBuiltins (fun _ score => score) [sampleRule]
          [samplePayload [("dpia", "met"), ("automated_art22", "met")]] 0 sampleValidationEvidence =
        .ok (payloads', result) ∧
      CapsSoundly sampleBuiltins [sampleRule] (availableEvidence sampleValidationEvidence)
        (samplePayload [("dpia", "met"), ("automated_art22", "met")]) result := by
  obtain ⟨payloads', result, hvalid, -, -, hsound, -⟩ := capping_sound sampleBuiltins
    (fun _ score => score) [sampleRule] sampleValidationEvidence
    [samplePayload [("dpia", "met"), ("automated_art22", "met")]] 0
    (wellFormed_samplePayload (by decide))
  exact ⟨payloads', result, hvalid, hsound⟩

end Amlguard
