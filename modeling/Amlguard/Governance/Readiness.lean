import Amlguard.Domain.PyValue
import Mathlib.Data.List.Sort

/-!
# Governance readiness

`evaluate_governance_readiness` on the two loaded documents. Readiness is derived from the IDs of
the entries that are approved, and not from the entries: an entry that is not approved passes when
another one with the same ID is.
-/

namespace Amlguard

open PyValue

/-- The report, without the digests of the two files. -/
structure GovernanceReadiness where
  schemaVersion : String
  scope : PyValue
  researchReady : Bool
  productionReady : Bool
  researchBlockingChecks : List String
  productionBlockingChecks : List String
  unassignedOwnerRoles : List String
  checks : List PyDict
  sourcePaths : List String

/-- `sorted` on texts. -/
def sortedTexts (texts : List String) : List String := texts.insertionSort (· ≤ ·)

/-- The owner of a role is missing, blank, or `TBD`. Only ASCII letters become the letters of `TBD`
in upper case. -/
def unassigned (owner : PyValue) : Bool :=
  strip (if owner.truthy then owner.text else "") = "" || upper (strip owner.text) = "TBD"

/-- The roles of a profile, with their owners. -/
def ownership (profile : PyDict) : PyDict := dictOrEmpty (get profile "ownership")

/-- The roles of a profile without an owner. -/
def unassignedRoles (profile : PyDict) : List String :=
  sortedTexts (((ownership profile).filter fun item => unassigned item.2).map (·.1.text))

/-- A setting is `"required"`. -/
def required (settings : PyDict) (key : String) : Bool :=
  ((get settings key).getD .none).equals "required"

/-- The human-release settings of a profile are all as required. -/
def releaseConfigured (profile : PyDict) : Bool :=
  let release := dictOrEmpty (get profile "release")
  let humanOversight := dictOrEmpty (get profile "human_oversight")
  ((get humanOversight "final_disposition_required").getD .none).isTrue &&
    required release "human_signoff" && required release "held_out_evaluation" &&
    required release "hard_blocks_clear"

/-- The status of a built-in check. -/
def builtInStatus (passes : Bool) : PyValue :=
  .str (if passes then "implemented_and_approved" else "incomplete")

/-- The two built-in checks. -/
def builtInChecks (profilePath : String) (profile : PyDict) : List PyDict :=
  let roles := unassignedRoles profile
  [[(.str "check_id", .str "accountable_owners_assigned"),
      (.str "status", builtInStatus roles.isEmpty), (.str "research_blocking", .bool false),
      (.str "production_blocking", .bool true), (.str "evidence", .str profilePath),
      (.str "action", .str (if roles.isEmpty then "No action required."
        else "Assign named accountable owners for: " ++ String.intercalate ", " roles))],
    [(.str "check_id", .str "human_release_controls_configured"),
      (.str "status", builtInStatus (releaseConfigured profile)),
      (.str "research_blocking", .bool true), (.str "production_blocking", .bool true),
      (.str "evidence", .str profilePath),
      (.str "action", .str
        "Require final human disposition, held-out evaluation, and clear hard blocks.")]]

/-- One entry of the configured checks. -/
def configuredCheck : PyValue → Except PyError PyDict
  | .dict item =>
    if ((get item "check_id").getD .none).truthy then .ok item
    else .error (.valueError "organizational control checks require check_id")
  | _ => .error (.valueError "organizational control checks require check_id")

/-- The built-in checks and the configured ones. -/
def allChecks (profilePath : String) (profile controls : PyDict) : Except PyError (List PyDict) :=
  match get controls "checks" with
  | some (.list items) => do
    let configured ← items.mapM configuredCheck
    pure (builtInChecks profilePath profile ++ configured)
  | _ => .error (.valueError "organizational controls require a checks list")

/-- `item["check_id"]`. -/
def checkId (item : PyDict) : PyValue := (get item "check_id").getD .none

/-- A check is approved. -/
def approved (item : PyDict) : Bool :=
  ((get item "status").getD .none).equals "implemented_and_approved"

/-- A check blocks, by one of its two flags. -/
def blocking (flag : String) (item : PyDict) : Bool := ((get item flag).getD .none).isTrue

/-- The IDs of the approved checks. -/
def passing (checks : List PyDict) : List String := (checks.filter approved).map fun item =>
  (checkId item).text

/-- `value in passing`. -/
def isPassing (ids : List String) (value : PyValue) : Except PyError Bool :=
  if value.hashable then .ok (ids.any value.equals)
  else .error { typeName := "TypeError", message := "unhashable type" }

/-- The IDs of the blocking checks that do not pass. -/
def blockingIds (flag : String) (ids : List String) : List PyDict → Except PyError (List String)
  | [] => .ok []
  | item :: rest =>
    if blocking flag item then do
      let passes ← isPassing ids (checkId item)
      let others ← blockingIds flag ids rest
      pure (if passes then others else (checkId item).text :: others)
    else blockingIds flag ids rest

/-- `evaluate_governance_readiness`. -/
def evaluateGovernanceReadiness (profilePath controlsPath : String) :
    PyValue → PyValue → Except PyError GovernanceReadiness
  | .dict profile, .dict controls => do
    raiseIf (¬((get controls "schema_version").getD .none).equals "1.0")
      (.valueError "organizational controls must use schema_version 1.0")
    let checks ← allChecks profilePath profile controls
    let researchBlocks ← blockingIds "research_blocking" (passing checks) checks
    let productionBlocks ← blockingIds "production_blocking" (passing checks) checks
    pure
      { schemaVersion := "1.0"
        scope := (get controls "scope").getD (.str "unknown")
        researchReady := researchBlocks.isEmpty
        productionReady := productionBlocks.isEmpty
        researchBlockingChecks := sortedTexts researchBlocks
        productionBlockingChecks := sortedTexts productionBlocks
        unassignedOwnerRoles := unassignedRoles profile
        checks
        sourcePaths := [profilePath, controlsPath] }
  | _, _ => .error (.valueError "governance configuration must contain YAML objects")

/-- An owner is named: there is a text, which is neither blank nor `TBD`. -/
def Named (owner : PyValue) : Prop :=
  owner.truthy = true ∧ ¬Blank owner.text ∧ upper (strip owner.text) ≠ "TBD"

/-- What production readiness is to vouch for. -/
structure ProductionSound (profile : PyDict) (checks : List PyDict) : Prop where
  owned : ownership profile ≠ []
  named : ∀ item ∈ ownership profile, Named item.2
  released : releaseConfigured profile = true
  complete : ∀ item ∈ checks, blocking "production_blocking" item = true → approved item = true

/-- What research readiness is to vouch for. -/
def ResearchSound (checks : List PyDict) : Prop :=
  ∀ item ∈ checks, blocking "research_blocking" item = true → approved item = true

/-- The ID of a check is that of an approved one. -/
def SharesId (checks : List PyDict) (item : PyDict) : Prop :=
  ∃ other ∈ checks, approved other = true ∧ checkId item = .str (checkId other).text

/-- A blocking check has an ID that no approved check has. -/
def Exposed (flag : String) (checks : List PyDict) : Prop :=
  ∃ item ∈ checks, blocking flag item = true ∧ ¬SharesId checks item

/-- No blocking check that is not approved has the ID of an approved one. -/
def Unmasked (flag : String) (checks : List PyDict) : Prop :=
  ∀ item ∈ checks, blocking flag item = true → SharesId checks item → approved item = true

/-- An owner is named exactly when the role is not unassigned. -/
theorem unassigned_eq_false {owner : PyValue} : unassigned owner = false ↔ Named owner := by
  unfold unassigned Named
  cases htruthy : owner.truthy with
  | false => simp [strip_eq_empty, Blank]
  | true => simp [strip_eq_empty]

/-- No role is without an owner exactly when every owner is named. -/
theorem unassignedRoles_eq_nil {profile : PyDict} :
    unassignedRoles profile = [] ↔ ∀ item ∈ ownership profile, Named item.2 := by
  have hnil : unassignedRoles profile = [] ↔
      (ownership profile).filter (fun item => unassigned item.2) = [] := by
    rw [unassignedRoles, sortedTexts, ← List.length_eq_zero_iff, List.length_insertionSort,
      List.length_map, List.length_eq_zero_iff]
  rw [hnil, List.filter_eq_nil_iff]
  simp only [Bool.not_eq_true, unassigned_eq_false]

/-- A text is the value exactly when the value equals it. -/
theorem equals_iff {value : PyValue} {text : String} : value.equals text = true ↔ value = .str text := by
  cases value <;> simp [equals]

/-- An ID passes exactly when an approved check has it. -/
theorem any_passing {checks : List PyDict} {item : PyDict} :
    (passing checks).any (checkId item).equals = true ↔ SharesId checks item := by
  simp only [passing, List.any_map, List.any_filter, List.any_eq_true, SharesId, equals_iff,
    Bool.and_eq_true, Function.comp]

/-- No blocking ID is left over exactly when every blocking check has the ID of an approved one. -/
theorem blockingIds_eq_nil {flag : String} {ids ids' : List String} {checks : List PyDict}
    (h : blockingIds flag ids checks = .ok ids') :
    ids' = [] ↔ ∀ item ∈ checks, blocking flag item = true → ids.any (checkId item).equals = true := by
  induction checks generalizing ids' with
  | nil =>
    cases h
    simp
  | cons item rest ih =>
    rw [blockingIds] at h
    split at h
    · rename_i hblocking
      obtain ⟨passes, hpasses, h⟩ := bind_eq_ok.mp h
      obtain ⟨others, hothers, h⟩ := bind_eq_ok.mp h
      cases h
      have hany : passes = ids.any (checkId item).equals := by
        rw [isPassing] at hpasses
        split at hpasses
        · exact (Except.ok.inj hpasses).symm
        · cases hpasses
      rw [List.forall_mem_cons, ← ih hothers, ← hany]
      cases passes <;> simp [hblocking]
    · rename_i hblocking
      rw [List.forall_mem_cons, ← ih h]
      simp [hblocking]

section Evaluation

variable {profilePath controlsPath : String} {profile controls : PyDict}
  {report : GovernanceReadiness} {checks : List PyDict}

/-- The report lists all checks, and is ready when no blocking check is exposed. -/
theorem readiness_spec
    (h : evaluateGovernanceReadiness profilePath controlsPath (.dict profile) (.dict controls) =
      .ok report) :
    allChecks profilePath profile controls = .ok report.checks ∧
      (report.researchReady = true ↔ ¬Exposed "research_blocking" report.checks) ∧
      (report.productionReady = true ↔ ¬Exposed "production_blocking" report.checks) := by
  obtain ⟨_, -, h⟩ := bind_eq_ok.mp h
  obtain ⟨checks, hchecks, h⟩ := bind_eq_ok.mp h
  obtain ⟨researchBlocks, hresearch, h⟩ := bind_eq_ok.mp h
  obtain ⟨productionBlocks, hproduction, h⟩ := bind_eq_ok.mp h
  cases h
  have hready : ∀ {flag ids}, blockingIds flag (passing checks) checks = .ok ids →
      (ids.isEmpty = true ↔ ¬Exposed flag checks) := by
    intro flag ids hids
    rw [List.isEmpty_iff, blockingIds_eq_nil hids]
    simp only [any_passing, Exposed, not_exists, not_and, not_not]
  exact ⟨hchecks, hready hresearch, hready hproduction⟩

/-- The configured checks come after the built-in ones. -/
theorem builtIn_mem (hchecks : allChecks profilePath profile controls = .ok checks) :
    ∀ item ∈ builtInChecks profilePath profile, item ∈ checks := by
  unfold allChecks at hchecks
  split at hchecks
  · obtain ⟨configured, -, h⟩ := bind_eq_ok.mp hchecks
    cases h
    exact fun item hitem => List.mem_append_left _ hitem
  · cases hchecks

/-- A built-in check is approved exactly when it passes. -/
theorem builtInStatus_equals {passes : Bool} :
    (builtInStatus passes).equals "implemented_and_approved" = passes := by
  cases passes <;> decide

/-- The built-in checks vouch for the owners and for the human release. -/
theorem productionSound_iff (hchecks : allChecks profilePath profile controls = .ok checks) :
    ProductionSound profile checks ↔ ownership profile ≠ [] ∧
      ∀ item ∈ checks, blocking "production_blocking" item = true → approved item = true := by
  constructor
  · intro h
    exact ⟨h.owned, h.complete⟩
  · rintro ⟨howned, hcomplete⟩
    have hbuiltIn := fun item hitem => hcomplete item (builtIn_mem hchecks item hitem)
    have howners := hbuiltIn _ (List.mem_cons_self ..) rfl
    have hrelease := hbuiltIn _ (List.mem_cons_of_mem _ (List.mem_cons_self ..)) rfl
    refine ⟨howned, ?_, ?_, hcomplete⟩
    · apply unassignedRoles_eq_nil.mp
      exact List.isEmpty_iff.mp (builtInStatus_equals.symm.trans howners)
    · exact builtInStatus_equals.symm.trans hrelease

/-- What is vouched for, if no check with a flag is exposed, holds exactly when one is exposed or none
is masked. -/
theorem exposed_or_unmasked {flag : String} (owned : Prop) :
    (¬Exposed flag checks → owned ∧
        ∀ item ∈ checks, blocking flag item = true → approved item = true) ↔
      Exposed flag checks ∨ (owned ∧ Unmasked flag checks) := by
  constructor
  · intro h
    by_cases hexposed : Exposed flag checks
    · exact .inl hexposed
    · obtain ⟨howned, hcomplete⟩ := h hexposed
      exact .inr ⟨howned, fun item hitem hblocking _ => hcomplete item hitem hblocking⟩
  · rintro (hexposed | ⟨howned, hunmasked⟩) hready
    · exact absurd hexposed hready
    · refine ⟨howned, fun item hitem hblocking => hunmasked item hitem hblocking ?_⟩
      by_contra hshares
      exact hready ⟨item, hitem, hblocking, hshares⟩

end Evaluation

/-- Readiness is reported only where it holds exactly when a blocking check has an ID that no
approved check has, or no blocking check that is not approved has the ID of one that is, and, for
production, some role exists. -/
theorem readiness_sound_iff (profilePath controlsPath : String) (profile controls : PyDict)
    {report : GovernanceReadiness} {checks : List PyDict}
    (hchecks : allChecks profilePath profile controls = .ok checks)
    (h : evaluateGovernanceReadiness profilePath controlsPath (.dict profile) (.dict controls) =
      .ok report) :
    ((report.productionReady = true → ProductionSound profile report.checks) ∧
        (report.researchReady = true → ResearchSound report.checks)) ↔
      (Exposed "production_blocking" checks ∨
          (ownership profile ≠ [] ∧ Unmasked "production_blocking" checks)) ∧
        (Exposed "research_blocking" checks ∨ Unmasked "research_blocking" checks) := by
  obtain ⟨hreport, hresearch, hproduction⟩ := readiness_spec h
  cases Except.ok.inj (hchecks.symm.trans hreport)
  have hflags : (¬Exposed "research_blocking" report.checks → True ∧ ∀ item ∈ report.checks,
        blocking "research_blocking" item = true → approved item = true) ↔
      Exposed "research_blocking" report.checks ∨
        (True ∧ Unmasked "research_blocking" report.checks) := exposed_or_unmasked True
  simp only [true_and] at hflags
  rw [hresearch, hproduction, productionSound_iff hchecks, exposed_or_unmasked, ResearchSound, hflags]

section Samples

/-- A profile with one owner and the required settings. -/
def sampleProfile : PyDict :=
  [(.str "ownership", .dict [(.str "owner", .str "AML")]),
    (.str "human_oversight", .dict [(.str "final_disposition_required", .bool true)]),
    (.str "release", .dict [(.str "human_signoff", .str "required"),
      (.str "held_out_evaluation", .str "required"), (.str "hard_blocks_clear", .str "required")])]

/-- The same profile with no role. -/
def ownerlessProfile : PyDict := (.str "ownership", .dict []) :: sampleProfile.tail

/-- A configured check that blocks production. -/
def configured (status : String) : PyDict :=
  [(.str "check_id", .str "model_validation"), (.str "status", .str status),
    (.str "research_blocking", .bool false), (.str "production_blocking", .bool true)]

/-- Controls with some configured checks. -/
def sampleControls (checks : List PyDict) : PyDict :=
  [(.str "schema_version", .str "1.0"), (.str "checks", .list (checks.map .dict))]

/-- The report on a profile and the controls, if no check blocks. -/
def sampleReport (profile : PyDict) (configured : List PyDict) : GovernanceReadiness where
  schemaVersion := "1.0"
  scope := .str "unknown"
  researchReady := true
  productionReady := true
  researchBlockingChecks := []
  productionBlockingChecks := []
  unassignedOwnerRoles := unassignedRoles profile
  checks := builtInChecks "profile" profile ++ configured
  sourcePaths := ["profile", "controls"]

/-- A check that is only planned shares its ID with one that is approved. -/
def maskedChecks : List PyDict := [configured "implemented_and_approved", configured "planned"]

/-- With a check that is approved all are. -/
theorem approved_sample :
    ∀ item ∈ (sampleReport sampleProfile [configured "implemented_and_approved"]).checks,
      approved item = true := by decide

/-- With the check that is planned all pass. -/
theorem passing_masked : ∀ item ∈ (sampleReport sampleProfile maskedChecks).checks,
    (passing (sampleReport sampleProfile maskedChecks).checks).any (checkId item).equals = true := by decide

end Samples

/-- A profile with one owner is ready for production where the configured check is approved. It is reported to
be where another check with this ID is not, and then nothing vouches for that. -/
theorem readiness_sound_iff_sample :
    (((sampleReport sampleProfile [configured "implemented_and_approved"]).productionReady = true →
          ProductionSound sampleProfile
            (sampleReport sampleProfile [configured "implemented_and_approved"]).checks) ∧
        ((sampleReport sampleProfile [configured "implemented_and_approved"]).researchReady = true →
          ResearchSound (sampleReport sampleProfile [configured "implemented_and_approved"]).checks)) ∧
      ¬(((sampleReport sampleProfile maskedChecks).productionReady = true →
          ProductionSound sampleProfile (sampleReport sampleProfile maskedChecks).checks) ∧
        ((sampleReport sampleProfile maskedChecks).researchReady = true →
          ResearchSound (sampleReport sampleProfile maskedChecks).checks)) := by
  constructor
  · apply (@readiness_sound_iff "profile" "controls" sampleProfile
      (sampleControls [configured "implemented_and_approved"])
      (sampleReport sampleProfile [configured "implemented_and_approved"]) _ rfl rfl).mpr
    constructor
    · exact .inr ⟨List.cons_ne_nil _ _, fun item hitem _ _ => approved_sample item hitem⟩
    · exact .inr fun item hitem _ _ => approved_sample item hitem
  · rw [@readiness_sound_iff "profile" "controls" sampleProfile (sampleControls maskedChecks)
      (sampleReport sampleProfile maskedChecks) _ rfl rfl]
    rintro ⟨⟨item, hitem, -, hshares⟩ | ⟨-, hunmasked⟩, -⟩
    · exact hshares (any_passing.mp (passing_masked item hitem))
    · have hplanned : configured "planned" ∈ (sampleReport sampleProfile maskedChecks).checks :=
        List.mem_append_right _ (List.mem_cons_of_mem _ (List.mem_singleton_self _))
      have happroved := hunmasked _ hplanned rfl (any_passing.mp (passing_masked _ hplanned))
      revert happroved
      decide

/-- A profile without roles is reported to be ready for production. -/
theorem production_ready_without_owner :
    ¬∀ (profilePath controlsPath : String) (profile controls : PyDict)
      (report : GovernanceReadiness),
        evaluateGovernanceReadiness profilePath controlsPath (.dict profile) (.dict controls) =
            .ok report →
          report.productionReady = true → ProductionSound profile report.checks := by
  intro h
  have hsound := h "profile" "controls" ownerlessProfile (sampleControls [])
    (sampleReport ownerlessProfile []) rfl rfl
  exact hsound.owned rfl

end Amlguard
