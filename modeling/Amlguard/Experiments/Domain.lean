import Amlguard.Domain.Values
import Mathlib.Data.List.Perm.Basic
import Mathlib.Algebra.Order.Ring.Rat

/-!
# Experiment manifests and jobs

The frozen records of the experiment runner with the limits that their schema enforces as
fields: a configuration's cost is nonnegative, configuration IDs are unique, a ceiling is
positive. A manifest carries its JSON dump; two manifests are the same to the store exactly
when their dumps are.
-/

namespace Amlguard

/-- The states of a job. -/
inductive JobStatus where
  | pending | leased | running | retryWait | succeeded | failed | cancelled
  deriving DecidableEq, Repr

/-- One system configuration of a manifest. -/
structure SystemConfiguration where
  configurationId : String
  estimatedSessionCostEur : ℚ
  cost_nonneg : 0 ≤ estimatedSessionCostEur

/-- The part of the evaluator's configuration that scheduling reads. -/
structure ProofAgentEvaluationConfig where
  estimatedEvaluationCostEur : ℚ
  cost_nonneg : 0 ≤ estimatedEvaluationCostEur

/-- A manifest that its schema accepts. -/
structure ExperimentManifest where
  experimentId : UUID
  name : String
  configurations : List SystemConfiguration
  repetitions : ℕ
  proofagent : Option ProofAgentEvaluationConfig
  randomizationSeed : ℤ
  costCeilingEur : ℚ
  document : Json
  configurations_ne_nil : configurations ≠ []
  configurations_are_unique : (configurations.map (·.configurationId)).Nodup
  repetitions_pos : 1 ≤ repetitions
  repetitions_le : repetitions ≤ 20
  ceiling_pos : 0 < costCeilingEur

/-- A job as a worker holds it. -/
structure ExperimentJob where
  jobId : UUID
  experimentId : UUID
  sessionKey : String
  configurationId : String
  scenarioId : String
  repetition : ℕ
  status : JobStatus
  attemptCount : ℕ
  maxAttempts : ℕ
  leaseOwner : Option String
  leaseExpiresAt : Option Datetime
  notBefore : Datetime
  estimatedCostEur : ℚ
  repetition_pos : 1 ≤ repetition
  maxAttempts_pos : 1 ≤ maxAttempts
  cost_nonneg : 0 ≤ estimatedCostEur

/-- The digest of `hashlib` and the shuffle of `random.Random(seed)`. -/
structure Stdlib where
  sha256 : String → String
  shuffle : ℤ → List (String × String × String × ℕ) → List (String × String × String × ℕ)
  shuffle_perm : ∀ seed keys, (shuffle seed keys).Perm keys

/-- The key of one session: a digest of the experiment, configuration, scenario and repetition. -/
def sessionKey (lib : Stdlib) (experimentId : UUID) (configurationId scenarioId : String)
    (repetition : ℕ) : String :=
  lib.sha256 (UUID.str experimentId ++ ":" ++ configurationId ++ ":" ++ scenarioId ++ ":" ++
    toString repetition)

/-- The evaluator's part of the cost of a job. -/
def evaluatorCost (manifest : ExperimentManifest) : ℚ :=
  match manifest.proofagent with
  | some config => config.estimatedEvaluationCostEur
  | none => 0

/-- The declared cost of a job of a configuration. -/
def estimatedJobCost (manifest : ExperimentManifest) (configurationId : String) :
    Except PyError ℚ := do
  let configuration ← orRaise
    (manifest.configurations.find? fun item => item.configurationId == configurationId)
    { typeName := "StopIteration" }
  pure (configuration.estimatedSessionCostEur + evaluatorCost manifest)

/-- Every session of a manifest and its scenarios, in the order of the nested loops. -/
def scheduleKeys (lib : Stdlib) (manifest : ExperimentManifest) (scenarioIds : List String) :
    List (String × String × String × ℕ) :=
  manifest.configurations.flatMap fun configuration =>
    scenarioIds.flatMap fun scenarioId =>
      (List.range' 1 manifest.repetitions).map fun repetition =>
        (sessionKey lib manifest.experimentId configuration.configurationId scenarioId repetition,
          configuration.configurationId, scenarioId, repetition)

/-- The evaluator's cost is nonnegative. -/
theorem evaluatorCost_nonneg (manifest : ExperimentManifest) : 0 ≤ evaluatorCost manifest := by
  unfold evaluatorCost
  split
  · exact ProofAgentEvaluationConfig.cost_nonneg _
  · exact le_rfl

/-- A declared job cost is nonnegative. -/
theorem estimatedJobCost_nonneg {manifest : ExperimentManifest} {configurationId : String} {cost : ℚ}
    (h : estimatedJobCost manifest configurationId = .ok cost) : 0 ≤ cost := by
  obtain ⟨configuration, -, hcost⟩ := bind_eq_ok.mp h
  cases hcost
  exact add_nonneg configuration.cost_nonneg (evaluatorCost_nonneg manifest)

end Amlguard
