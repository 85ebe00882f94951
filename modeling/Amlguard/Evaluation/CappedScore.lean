import Amlguard.Evaluation.Capping
import Mathlib.Tactic.Linarith
import Mathlib.Tactic.NormNum
import Mathlib.Tactic.Positivity
import Mathlib.Tactic.Ring

/-!
# The score of capped verdicts

The score is the mean credit of the controls with a verdict. A verdict that is withdrawn leaves the
denominator with its credit, so that the mean of the others is left, which may be higher: this is decided
by the credit that the withdrawn and the downgraded controls had.
-/

namespace Amlguard

section Score

/-- What a status contributes to the score. -/
def credit (status : String) : ℚ :=
  if status = "met" then 1 else if status = "partial" then 1 / 2 else 0

/-- The credit of each status. -/
theorem credit_values : credit "met" = 1 ∧ credit "partial" = 1 / 2 ∧ credit "not_evaluated" = 0 := by
  simp [credit]

/-- A credit is between none and the whole. -/
theorem credit_bounds (status : String) : 0 ≤ credit status ∧ credit status ≤ 1 := by
  unfold credit
  split
  · norm_num
  · split <;> norm_num

/-- A verdict. -/
def IsVerdict (status : String) : Prop := status = "met" ∨ status = "partial" ∨ status = "attention"

instance (status : String) : Decidable (IsVerdict status) := inferInstanceAs (Decidable (_ ∨ _))

/-- One status more is counted. -/
theorem count_credit (counts : StatusCounts) (status : String) :
    ((counts.count status).met + (counts.count status).partials / 2 : ℚ) =
        counts.met + counts.partials / 2 + credit status ∧
      (counts.count status).assessed = counts.assessed + if IsVerdict status then 1 else 0 := by
  by_cases hmet : status = "met"
  · subst hmet
    simp [StatusCounts.count, credit, IsVerdict, StatusCounts.assessed]
    constructor <;> [ring; omega]
  by_cases hpartly : status = "partial"
  · subst hpartly
    simp [StatusCounts.count, credit, IsVerdict, StatusCounts.assessed]
    constructor <;> [ring; omega]
  by_cases hattention : status = "attention"
  · subst hattention
    simp [StatusCounts.count, credit, IsVerdict, StatusCounts.assessed]
    omega
  · unfold StatusCounts.count
    simp only [if_neg hmet, if_neg hpartly, if_neg hattention]
    split
    all_goals simp [credit, IsVerdict, StatusCounts.assessed, hmet, hpartly, hattention]

/-- The score, by the statuses one by one. -/
theorem tally_credit (statuses : List String) :
    ((tally statuses).met + (tally statuses).partials / 2 : ℚ) = (statuses.map credit).sum ∧
      (tally statuses).assessed = statuses.countP fun status => IsVerdict status := by
  induction statuses using List.reverseRecOn with
  | nil => simp [tally, StatusCounts.assessed]
  | append_singleton statuses status ih =>
    obtain ⟨hcredit, hassessed⟩ := count_credit (tally statuses) status
    rw [tally, List.foldl_concat, ← tally, hcredit, hassessed, ih.1, ih.2]
    simp [List.countP_append, List.countP_singleton]

/-- A verdict is withdrawn. -/
def Withdrawn (py : PyBuiltins) (rules : List ValidationRule) (available : List String)
    (control : ControlObject) : Prop :=
  validatedStatus py rules available control.frameworkId control.fields = "not_evaluated" ∧
    rawStatus py control.fields ≠ "not_evaluated"

instance (py : PyBuiltins) (rules : List ValidationRule) (available : List String)
    (control : ControlObject) : Decidable (Withdrawn py rules available control) :=
  inferInstanceAs (Decidable (_ ∧ _))

/-- What validation takes from the credit of the controls. -/
def creditLost (py : PyBuiltins) (rules : List ValidationRule) (available : List String)
    (controls : List ControlObject) : ℚ :=
  (controls.map fun control => credit (rawStatus py control.fields) -
    credit (validatedStatus py rules available control.frameworkId control.fields)).sum

/-- The score that the same formula gives on the raw statuses. -/
def rawScore (py : PyBuiltins) (compliance : JsonObject) : Option ℚ :=
  (tally ((controlObjects py compliance).map fun control => rawStatus py control.fields)).score

variable {py : PyBuiltins} {rules : List ValidationRule} {available : List String}

/-- A status is a verdict unless it says that there is none. -/
theorem isVerdict_iff {status : String} (h : status ∈ complianceStatuses) :
    IsVerdict status ↔ status ≠ "not_evaluated" := by
  revert status
  decide

/-- A verdict stays one or is withdrawn, and its credit does not rise. -/
theorem capped_verdict {control : ControlObject} (h : rawStatus py control.fields ∈ complianceStatuses) :
    ((IsVerdict (rawStatus py control.fields) ∧ (IsVerdict (validatedStatus py rules available
        control.frameworkId control.fields) ↔ ¬Withdrawn py rules available control)) ∨
      (¬IsVerdict (rawStatus py control.fields) ∧ ¬IsVerdict (validatedStatus py rules available
        control.frameworkId control.fields) ∧ ¬Withdrawn py rules available control)) := by
  have hafter : validatedStatus py rules available control.frameworkId control.fields ∈
      complianceStatuses :=
    cappedStatus_mem h
  have hkept : rawStatus py control.fields = "not_evaluated" →
      validatedStatus py rules available control.frameworkId control.fields = "not_evaluated" := by
    intro hraw
    simp [validatedStatus, cappedStatus, hraw]
  unfold Withdrawn
  rw [isVerdict_iff h, isVerdict_iff hafter]
  tauto

/-- The verdicts before are those after and the withdrawn ones. -/
theorem countP_verdicts {controls : List ControlObject}
    (h : ∀ control ∈ controls, rawStatus py control.fields ∈ complianceStatuses) :
    (controls.map fun control => rawStatus py control.fields).countP (fun status => IsVerdict status) =
      (controls.map fun control => validatedStatus py rules available control.frameworkId
        control.fields).countP (fun status => IsVerdict status) +
        controls.countP fun control => Withdrawn py rules available control := by
  induction controls with
  | nil => rfl
  | cons control rest ih =>
    rw [List.forall_mem_cons] at h
    have hcontrol := @capped_verdict py rules available control h.1
    simp only [List.map_cons, List.countP_cons, ih h.2, decide_eq_true_eq]
    split <;> split <;> split <;> grind

/-- The credit before is that after and the lost one. -/
theorem sum_credit (controls : List ControlObject) :
    ((controls.map fun control => rawStatus py control.fields).map credit).sum =
      ((controls.map fun control => validatedStatus py rules available control.frameworkId
        control.fields).map credit).sum + creditLost py rules available controls := by
  unfold creditLost
  induction controls with
  | nil => simp
  | cons control rest ih =>
    simp only [List.map_cons, List.sum_cons, ih]
    ring

/-- The mean of what is left is at most the mean of all exactly when what is taken has, on the average, at
least this mean, as it has when all of its credit is taken. -/
theorem mean_le_iff {total after lost : ℚ} {all left withdrawn : ℕ} (hleft : left ≠ 0)
    (hall : all = left + withdrawn) (htotal : total = after + lost) (hmost : total ≤ all) :
    (100 * after / left ≤ 100 * total / all ↔ withdrawn * (100 * total / all) ≤ 100 * lost) ∧
      (withdrawn ≤ lost → 100 * after / left ≤ 100 * total / all) := by
  have hpos : (0 : ℚ) < left := by exact_mod_cast Nat.pos_of_ne_zero hleft
  have hcast : (all : ℚ) = left + withdrawn := by exact_mod_cast hall
  have hwithdrawn : (0 : ℚ) ≤ withdrawn := Nat.cast_nonneg _
  have hallpos : (0 : ℚ) < all := by linarith
  have hmean : 100 * total / all ≤ 100 := by
    rw [div_le_iff₀ hallpos]
    linarith
  have hiff : 100 * after / left ≤ 100 * total / all ↔
      withdrawn * (100 * total / all) ≤ 100 * lost := by
    have hproduct : 100 * total / all * left + withdrawn * (100 * total / all) = 100 * total := by
      rw [mul_comm (withdrawn : ℚ), ← mul_add, ← hcast, div_mul_cancel₀ _ hallpos.ne']
    rw [div_le_iff₀ hpos]
    constructor
    · intro h
      linarith
    · intro h
      linarith
  refine ⟨hiff, fun h => hiff.mpr ?_⟩
  calc withdrawn * (100 * total / all)
      ≤ withdrawn * 100 := mul_le_mul_of_nonneg_left hmean hwithdrawn
    _ ≤ 100 * lost := by linarith

/-- Credit is never gained. -/
theorem credit_capped_le (control : ControlObject) :
    credit (validatedStatus py rules available control.frameworkId control.fields) ≤
      credit (rawStatus py control.fields) := by
  have hcases := cappedStatus_cases (rawStatus py control.fields)
    (ceilingFor (ruleOf py rules control.frameworkId control.fields))
    (evidenceComplete available (ruleOf py rules control.frameworkId control.fields))
    (py.textOr (getField control.fields "proof") "")
  rw [← validatedStatus] at hcases
  rcases hcases with hsame | ⟨hmet, -, -, hpartly⟩ | hnone
  · rw [hsame]
  · rw [hmet, hpartly, credit_values.1, credit_values.2.1]
    norm_num
  · rw [hnone, credit_values.2.2]
    exact (credit_bounds _).1

/-- The credit of some statuses is at most their verdicts. -/
theorem sum_credit_le (statuses : List String) :
    (statuses.map credit).sum ≤ (statuses.countP fun status => IsVerdict status : ℕ) := by
  induction statuses with
  | nil => simp
  | cons status rest ih =>
    have hcredit : credit status ≤ if IsVerdict status then 1 else 0 := by
      split
      · exact (credit_bounds status).2
      · rename_i hverdict
        rw [IsVerdict, not_or, not_or] at hverdict
        simp [credit, hverdict]
    rw [List.map_cons, List.sum_cons, List.countP_cons]
    push_cast
    simp only [decide_eq_true_eq]
    linarith

/-- When only `met` is withdrawn, every withdrawn control loses its whole credit. -/
theorem withdrawn_le_creditLost {controls : List ControlObject}
    (hmet : ∀ control ∈ controls, Withdrawn py rules available control →
      rawStatus py control.fields = "met") :
    ((controls.countP fun control => Withdrawn py rules available control : ℕ) : ℚ) ≤
      creditLost py rules available controls := by
  unfold creditLost
  induction controls with
  | nil => simp
  | cons control rest ih =>
    rw [List.forall_mem_cons] at hmet
    have hrest := ih hmet.2
    have hcontrol : (if Withdrawn py rules available control then 1 else 0 : ℚ) ≤
        credit (rawStatus py control.fields) -
          credit (validatedStatus py rules available control.frameworkId control.fields) := by
      split
      · rename_i hwithdrawn
        rw [hmet.1 hwithdrawn, hwithdrawn.1, credit_values.1, credit_values.2.2]
        norm_num
      · linarith [@credit_capped_le py rules available control]
    rw [List.map_cons, List.sum_cons, List.countP_cons]
    push_cast
    simp only [decide_eq_true_eq]
    linarith

/-- The overall score is at most the raw one exactly when the withdrawn controls have, on the average, cost
at least the raw mean in credit. When only `met` is withdrawn, this is so. -/
theorem score_le_rawScore_iff (py : PyBuiltins) (rules : List ValidationRule)
    (evidence : ValidationEvidence) (compliance : JsonObject) (result : ComplianceValidation)
    (h : WellFormed py compliance)
    (hvalid : validateCompliance py (fun _ score => score) rules compliance evidence = .ok result)
    (score raw : ℚ) (hscore : result.score = some score) (hraw : rawScore py compliance = some raw) :
    (score ≤ raw ↔
      ((controlObjects py compliance).countP fun control =>
        Withdrawn py rules (availableEvidence evidence) control : ℕ) * raw ≤
          100 * creditLost py rules (availableEvidence evidence) (controlObjects py compliance)) ∧
      ((∀ control ∈ controlObjects py compliance,
        Withdrawn py rules (availableEvidence evidence) control →
          rawStatus py control.fields = "met") → score ≤ raw) := by
  have hsound := validateCompliance_sound hvalid
  have hstatuses := rawStatus_mem h
  have hafter : (controlObjects py result.compliance).map (fun control => rawStatus py control.fields) =
      (controlObjects py compliance).map fun control =>
        validatedStatus py rules (availableEvidence evidence) control.frameworkId control.fields := by
    rw [hsound.controls, List.map_map]
    apply List.map_congr_left
    intro control hcontrol
    exact rawStatus_validated (hstatuses control hcontrol)
  rw [hsound.score, hafter] at hscore
  have hverdicts := @countP_verdicts py rules (availableEvidence evidence) _ hstatuses
  have hcredit := @sum_credit py rules (availableEvidence evidence) (controlObjects py compliance)
  have hmost := sum_credit_le ((controlObjects py compliance).map fun control =>
    rawStatus py control.fields)
  have hlost := @withdrawn_le_creditLost py rules (availableEvidence evidence) (controlObjects py compliance)
  unfold rawScore at hraw
  unfold StatusCounts.score at hscore hraw
  split at hraw
  · cases hraw
  · rename_i hassessed
    split at hscore
    · cases hscore
    · rename_i hleft
      cases hraw
      cases hscore
      simp only [tally_credit] at hleft hassessed ⊢
      obtain ⟨hiff, hmean⟩ := mean_le_iff hleft hverdicts hcredit hmost
      exact ⟨hiff, fun hmet => hmean (hlost hmet)⟩

end Score

/-- The validation of the sample, with its score. -/
theorem exists_sampleValidation (controls : List (String × String)) (score : ℚ)
    (h : (validateCompliance sampleBuiltins (fun _ score => score) [sampleRule] (samplePayload controls)
      sampleValidationEvidence).map (·.score) = .ok (some score)) :
    ∃ result, validateCompliance sampleBuiltins (fun _ score => score) [sampleRule]
        (samplePayload controls) sampleValidationEvidence = .ok result ∧ result.score = some score := by
  cases hvalid : validateCompliance sampleBuiltins (fun _ score => score) [sampleRule]
      (samplePayload controls) sampleValidationEvidence with
  | error e =>
    rw [hvalid] at h
    cases h
  | ok result =>
    rw [hvalid] at h
    exact ⟨result, rfl, Except.ok.inj h⟩

/-- Of two positive verdicts, one is withdrawn, and the score stays. -/
theorem score_le_rawScore_iff_two :
    ∃ result, validateCompliance sampleBuiltins (fun _ score => score) [sampleRule]
        (samplePayload [("dpia", "met"), ("automated_art22", "met")]) sampleValidationEvidence =
          .ok result ∧
      ((100 : ℚ) ≤ 100 ↔
        ((controlObjects sampleBuiltins
            (samplePayload [("dpia", "met"), ("automated_art22", "met")])).countP fun control =>
          Withdrawn sampleBuiltins [sampleRule] (availableEvidence sampleValidationEvidence)
            control : ℕ) * (100 : ℚ) ≤
          100 * creditLost sampleBuiltins [sampleRule] (availableEvidence sampleValidationEvidence)
            (controlObjects sampleBuiltins
              (samplePayload [("dpia", "met"), ("automated_art22", "met")]))) := by
  obtain ⟨result, hvalid, hscore⟩ := exists_sampleValidation
    [("dpia", "met"), ("automated_art22", "met")] 100 (by decide +kernel)
  exact ⟨result, hvalid, (score_le_rawScore_iff sampleBuiltins [sampleRule] sampleValidationEvidence _
    result (wellFormed_samplePayload (by decide)) hvalid 100 100 hscore (by decide +kernel)).1⟩

/-- An unproved `attention` is withdrawn, and the score rises from 50 to 100. -/
theorem score_improved :
    ¬∀ (py : PyBuiltins) (rules : List ValidationRule) (evidence : ValidationEvidence)
      (compliance : JsonObject) (result : ComplianceValidation), WellFormed py compliance →
        validateCompliance py (fun _ score => score) rules compliance evidence = .ok result →
          ∀ score raw, result.score = some score → rawScore py compliance = some raw → score ≤ raw := by
  intro h
  obtain ⟨result, hvalid, hscore⟩ := exists_sampleValidation
    [("automated_art22", "met"), ("dpia", "attention")] 100 (by decide +kernel)
  have hle := h sampleBuiltins [sampleRule] sampleValidationEvidence _ result
    (wellFormed_samplePayload (by decide)) hvalid 100 50 hscore (by decide +kernel)
  exact absurd hle (by norm_num)

end Amlguard
