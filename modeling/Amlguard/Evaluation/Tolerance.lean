import Amlguard.Evaluation.SessionCounts

/-!
# Malformed reports of the harness

The report of the harness is any JSON object. Both functions skip what is no object in one loop and trust
the shape of the report in another: the validation counts whatever stands among the controls, and the
summary goes over whatever stands in place of a list. A status that is none of the four passes as it is
when the evidence of its rule is complete.
-/

namespace Amlguard

/-- What a status claims. -/
def statusRank (status : String) : ℕ :=
  if status = "met" then 2 else if status = "partial" then 1 else 0

/-- A value that a loop can go over, or none. -/
def Iterable : Option Json → Prop
  | none | some (.array _) | some (.object _) | some (.string _) => True
  | _ => False

section Status

variable {raw ceiling proof : String} {complete : Bool}

/-- Whatever the raw status, what is left of it claims no more than the ceiling. -/
theorem statusRank_cappedStatus_le (hceiling : ceiling ∈ statusCeilings) :
    statusRank (cappedStatus raw ceiling complete proof) ≤ statusRank ceiling := by
  simp only [statusCeilings, List.mem_cons, List.not_mem_nil, or_false] at hceiling
  by_cases hmet : cappedStatus raw ceiling complete proof = "met"
  · obtain ⟨-, -, hpartly, hnone⟩ := cappedStatus_eq_met hmet
    rcases hceiling with rfl | rfl | rfl
    · rw [hmet]
    · exact absurd rfl hpartly
    · exact absurd rfl hnone
  by_cases hpartly : cappedStatus raw ceiling complete proof = "partial"
  · obtain ⟨-, -, hnone⟩ := cappedStatus_eq_partial hpartly
    rw [hpartly]
    rcases hceiling with rfl | rfl | rfl
    · decide
    · exact le_rfl
    · exact absurd rfl hnone
  · rw [statusRank, if_neg hmet, if_neg hpartly]
    exact Nat.zero_le _

/-- A raw status that is none of the four is left as it is, unless the evidence or the rule rules it out. -/
theorem cappedStatus_mem_iff : cappedStatus raw ceiling complete proof ∈ complianceStatuses ↔
    raw ∈ complianceStatuses ∨ complete = false ∨ ceiling = "not_evaluated" := by
  by_cases hraw : raw ∈ complianceStatuses
  · exact ⟨fun _ => Or.inl hraw, fun _ => cappedStatus_mem hraw⟩
  · have hunknown : raw ≠ "not_evaluated" ∧ raw ≠ "attention" ∧ raw ≠ "met" := by
      simp only [complianceStatuses, List.mem_cons, List.not_mem_nil, or_false, not_or] at hraw
      exact ⟨hraw.2.2.2, hraw.2.2.1, hraw.1⟩
    have hcapped : cappedStatus raw ceiling complete proof =
        if complete = false ∨ ceiling = "not_evaluated" then "not_evaluated" else raw := by
      unfold cappedStatus
      simp only [Bool.not_eq_true]
      rw [if_neg hunknown.1, if_neg hunknown.2.1]
      simp [hunknown.2.2]
    rw [hcapped]
    by_cases hruled : complete = false ∨ ceiling = "not_evaluated"
    · rw [if_pos hruled]
      exact ⟨fun _ => Or.inr hruled, fun _ => by decide⟩
    · rw [if_neg hruled]
      exact ⟨Or.inl, fun h => h.resolve_right hruled⟩

/-- The ceiling of a control is one that a rule may have. -/
theorem ceilingFor_mem (rule : Option ValidationRule) : ceilingFor rule ∈ statusCeilings := by
  cases rule with
  | none => decide
  | some rule => exact rule.ceiling_allowed

end Status

section Loops

variable {py : PyBuiltins} {compliance : JsonObject}

/-- A loop over a value succeeds exactly when it is iterable. -/
theorem exists_items_iff (value : Json) :
    (∃ items, PyBuiltins.items value = .ok items) ↔ Iterable (some value) := by
  cases value <;> simp [PyBuiltins.items, Iterable]

/-- The frameworks can be gone over exactly when they are iterable. -/
theorem exists_frameworkEntries_iff :
    (∃ entries, frameworkEntries compliance = .ok entries) ↔
      Iterable (getField compliance "frameworks") := by
  unfold frameworkEntries
  cases getField compliance "frameworks" with
  | none => simp [Iterable]
  | some value => exact exists_items_iff value

/-- The controls of a framework can be gone over exactly when they are iterable. -/
theorem exists_controlEntries_iff {framework : JsonObject} :
    (∃ controls, controlEntries framework = .ok controls) ↔
      Iterable (getField framework "controls") := by
  unfold controlEntries
  cases getField framework "controls" with
  | none => simp [Iterable]
  | some value => exact exists_items_iff value

/-- A report whose loops all have something to go over. -/
def LoopsIterable (py : PyBuiltins) (compliance : JsonObject) : Prop :=
  Iterable (getField compliance "frameworks") ∧ ∀ framework ∈ frameworkObjects compliance,
    strip (py.textOr (getField framework "id") "") ≠ "" → Iterable (getField framework "controls")

/-- A report can be read exactly when its loops all have something to go over. -/
theorem readable_iff : Readable py compliance ↔ LoopsIterable py compliance := by
  unfold Readable LoopsIterable
  rw [← exists_frameworkEntries_iff]
  constructor
  · intro h
    obtain ⟨entries, hentries, hread⟩ := h
    refine ⟨⟨entries, hentries⟩, fun framework hframework hid => ?_⟩
    have hcontrols := hread framework ((object_mem_entries hentries).mpr hframework) hid
    exact exists_controlEntries_iff.mp hcontrols
  · intro h
    obtain ⟨⟨entries, hentries⟩, hread⟩ := h
    refine ⟨entries, hentries, fun framework hframework hid => ?_⟩
    have hiterable := hread framework ((object_mem_entries hentries).mp hframework) hid
    exact exists_controlEntries_iff.mpr hiterable

end Loops

/-- The validation returns, with one of the four statuses on every control object, none of them above the
ceiling of its rule. -/
def CapsEverything (py : PyBuiltins) (rounded : ℕ → ℚ → ℚ) (rules : List ValidationRule)
    (evidence : ValidationEvidence) (compliance : JsonObject) : Prop :=
  ∃ result, validateCompliance py rounded rules compliance evidence = .ok result ∧
    ∀ control ∈ controlObjects py result.compliance, ∃ status ∈ complianceStatuses,
      getField control.fields "status" = some (.string status) ∧
        statusRank status ≤ statusRank (ceilingFor (ruleOf py rules control.frameworkId control.fields))

/-- A payload whose frameworks can be gone over, whose lists of controls hold objects only, and whose
statuses are among the four wherever evidence and rule admit a verdict. -/
structure Cappable (py : PyBuiltins) (rules : List ValidationRule) (available : List String)
    (compliance : JsonObject) : Prop where
  frameworks : Iterable (getField compliance "frameworks")
  controls : ∀ framework ∈ frameworkObjects compliance, Countable framework
  statuses : ∀ control ∈ controlObjects py compliance,
    rawStatus py control.fields ∈ complianceStatuses ∨
      evidenceComplete available (ruleOf py rules control.frameworkId control.fields) = false ∨
        ceilingFor (ruleOf py rules control.frameworkId control.fields) = "not_evaluated"

section Payload

variable {py : PyBuiltins} {rounded : ℕ → ℚ → ℚ} {rules : List ValidationRule}
  {evidence : ValidationEvidence} {compliance : JsonObject}

/-- A validated control has a status within its ceiling exactly when the status it came with can be
capped. -/
theorem validated_within_iff {available : List String} (control : ControlObject) :
    (∃ status ∈ complianceStatuses,
      getField (control.validated py rules available).fields "status" = some (.string status) ∧
        statusRank status ≤ statusRank (ceilingFor (ruleOf py rules
          (control.validated py rules available).frameworkId
          (control.validated py rules available).fields))) ↔
      rawStatus py control.fields ∈ complianceStatuses ∨
        evidenceComplete available (ruleOf py rules control.frameworkId control.fields) = false ∨
          ceilingFor (ruleOf py rules control.frameworkId control.fields) = "not_evaluated" := by
  obtain ⟨hid, -, hstatus⟩ :=
    @getField_validatedControl py rules available control.frameworkId control.fields
  have hrule : ruleOf py rules (control.validated py rules available).frameworkId
      (control.validated py rules available).fields =
        ruleOf py rules control.frameworkId control.fields := by
    unfold ruleOf ControlObject.validated
    rw [hid]
  have hmem : validatedStatus py rules available control.frameworkId control.fields ∈ complianceStatuses ↔
      rawStatus py control.fields ∈ complianceStatuses ∨
        evidenceComplete available (ruleOf py rules control.frameworkId control.fields) = false ∨
          ceilingFor (ruleOf py rules control.frameworkId control.fields) = "not_evaluated" :=
    cappedStatus_mem_iff
  rw [hrule, ← hmem]
  constructor
  · intro h
    obtain ⟨status, hallowed, hfield, -⟩ := h
    rw [ControlObject.validated, hstatus] at hfield
    cases hfield
    exact hallowed
  · intro h
    exact ⟨_, h, hstatus, statusRank_cappedStatus_le (ceilingFor_mem _)⟩

/-- The validation caps everything exactly when the payload can be capped. -/
theorem capsEverything_iff : CapsEverything py rounded rules evidence compliance ↔
    Cappable py rules (availableEvidence evidence) compliance := by
  constructor
  · intro h
    obtain ⟨result, hvalid, hwithin⟩ := h
    obtain ⟨hentries, hcountable⟩ := exists_validation_iff.mp ⟨result, hvalid⟩
    constructor
    · exact exists_frameworkEntries_iff.mp hentries
    · exact hcountable
    · intro control hcontrol
      apply (validated_within_iff control).mp
      apply hwithin
      rw [(validateCompliance_sound hvalid).controls]
      exact List.mem_map_of_mem hcontrol
  · intro h
    obtain ⟨result, hvalid⟩ := exists_validation_iff.mpr
      ⟨exists_frameworkEntries_iff.mpr h.frameworks, h.controls⟩
    refine ⟨result, hvalid, fun control hcontrol => ?_⟩
    rw [(validateCompliance_sound hvalid).controls] at hcontrol
    obtain ⟨before, hbefore, rfl⟩ := List.mem_map.mp hcontrol
    exact (validated_within_iff before).mpr (h.statuses before hbefore)

end Payload

/-- Whatever the payload, the rules and the evidence, the validation returns and leaves every control
object with one of the four statuses, none above its ceiling, exactly when the payload can be capped. And
the summary returns exactly when the loops over each stored report have something to go over. -/
theorem malformed_tolerated_iff (py : PyBuiltins) (rounded : ℕ → ℚ → ℚ) (rate : ℕ → ℕ → ℚ)
    (rules : List ValidationRule) (evidence : ValidationEvidence) (compliance : JsonObject)
    (results : List (String × Json)) :
    (CapsEverything py rounded rules evidence compliance ↔
      Cappable py rules (availableEvidence evidence) compliance) ∧
    ((∃ summary, summarizeComplianceCoverage py rate results = .ok summary) ↔
      ∀ stored ∈ complianceReports results, LoopsIterable py stored) := by
  refine ⟨capsEverything_iff, ?_⟩
  rw [exists_summary_iff]
  apply forall₂_congr
  intro stored _
  exact readable_iff

/-- A text among the controls stops the validation. -/
theorem text_among_controls :
    ¬∀ (py : PyBuiltins) (rounded : ℕ → ℚ → ℚ) (rules : List ValidationRule)
      (evidence : ValidationEvidence) (compliance : JsonObject),
        CapsEverything py rounded rules evidence compliance := by
  intro h
  obtain ⟨result, hvalid, -⟩ := h sampleBuiltins (fun _ score => score) [] sampleValidationEvidence
    [("frameworks", .array [.object [("id", .string "gdpr"), ("controls", .array [.string "dpia"])]])]
  cases hvalid

end Amlguard
