import Amlguard.Experiments.Worker
import Amlguard.Investigations.Service

/-!
# The handler of a job

`DefaultExperimentJobHandler` runs one scenario on a repository and a checkpointer of its own, and makes a
result of the run. A live model call goes through `EdenStructuredLLM`, which raises exceptions of its own
in place of those of the provider's SDK. The graph turns an exception into a failed run, and the handler
looks at the class name of the last failure of the run.

The deterministic evaluation, the evidence of runtime governance, the dump of a run and the references of
the artifacts are documents that nothing here reads; they are left open, and so is the harness.
-/

namespace Amlguard

open Awaited Prog

namespace EdenStructuredLLM

/-- An `InferenceAPIError`. -/
def inferenceError (typeName message : String) (statusCode : Option ℤ) : PyError :=
  { typeName, bases := ["InferenceAPIError", "RuntimeError"], message, statusCode }

/-- The `except` clauses of `recommend`. -/
def retyped (e : PyError) : PyError :=
  if e.isA "APIStatusError" then
    if e.statusCode ∈ [some 400, some 404, some 422] then
      inferenceError "InferenceConfigurationError"
        "the configured model or structured request was rejected" e.statusCode
    else if e.statusCode ∈ [some 401, some 403] then
      inferenceError "InferenceAuthenticationError" "the inference credential was rejected" e.statusCode
    else if e.statusCode = some 429 then
      inferenceError "InferenceRateLimitError" "the inference service is rate limited" e.statusCode
    else inferenceError "InferenceServiceError" "the inference service returned an error" e.statusCode
  else if e.isA "APITimeoutError" then
    inferenceError "InferenceServiceError" "the inference request timed out" none
  else if e.isA "APIConnectionError" then
    inferenceError "InferenceServiceError" "the inference service could not be reached" none
  else e

end EdenStructuredLLM

/-- What a job does when the evaluation by ProofAgent fails. -/
inductive FailurePolicy where
  | failJob | recordError
  deriving DecidableEq, Repr

/-- The part of the evaluator's configuration that the handler reads. -/
structure ProofAgentSettings extends ProofAgentEvaluationConfig where
  failurePolicy : FailurePolicy
  harnessVersion : String

/-- A configuration with the model that it runs. -/
structure RunConfiguration extends SystemConfiguration where
  modelId : String
  contextCondition : String

/-- A manifest with what the handler reads of it. -/
structure HandlerManifest extends ExperimentManifest where
  datasetSeed : ℤ
  scenarioPack : String
  runConfigurations : List RunConfiguration
  proofagentSettings : Option ProofAgentSettings
  runConfigurations_eq : runConfigurations.map (·.toSystemConfiguration) = configurations
  proofagentSettings_eq : proofagentSettings.map (·.toProofAgentEvaluationConfig) = proofagent

/-- A scenario of the catalog. -/
structure ScenarioDefinition where
  scenarioId : String
  pack : String

/-- A scenario injected into a generated bank. -/
structure ScenarioInjection where
  bank : SyntheticBank
  alertId : String
  logicalHash : String

/-- The settings that the handler reads. -/
structure HandlerSettings where
  experimentKillSwitch : Bool
  llmKillSwitch : Bool
  edenAiApiKey : Option String
  edenBaseUrl : String
  forceFake : Bool

/-- `EDEN_EU_BASE_URL`. -/
def edenEuBaseUrl : String := "https://api.eu.edenai.run/v3"

/-- The model of a job. -/
inductive JobModel where
  | fake
  | eden (modelId : String)
  deriving DecidableEq

/-- What the handler is built with, and what it takes from outside. -/
structure HandlerEnvironment where
  settings : HandlerSettings
  engine : EngineEnvironment
  describe : UUID → Except PyError HandlerManifest
  scenarios : Dict String ScenarioDefinition
  inject : ℤ → ScenarioDefinition → ScenarioInjection
  artifactStore : Except PyError Unit
  evaluateDeterministically : ExperimentJob → ScenarioDefinition → InvestigationRun →
    List ToolExecution → Json
  runtimeGovernance : InvestigationRun → List TrajectoryEvent → List AuditEvent →
    List ToolExecution → String → Json
  proofagent : ProofAgentSettings → ExperimentJob → ScenarioDefinition → InvestigationRun →
    InvestigationRecommendation → List ToolExecution → Json → Except PyError Json
  storeReport : ExperimentJob → Json → Except PyError (Option Json)
  runDocument : InvestigationRun → Json
  artifact : List TrajectoryEvent → Option Json
  engine_inMemory : engine.backend = .inMemory

/-- What the handler has set up for a job before it runs the graph. -/
structure JobPlan where
  manifest : HandlerManifest
  configuration : RunConfiguration
  scenario : ScenarioDefinition
  injection : ScenarioInjection
  model : JobModel

namespace JobPlan

/-- `llm.model_id`. -/
def actualModel (plan : JobPlan) : String :=
  match plan.model with
  | .fake => "fake/deterministic"
  | .eden modelId => modelId

/-- `endpoint_class`. -/
def endpointClass (plan : JobPlan) : String :=
  match plan.model with
  | .fake => "local_fake"
  | .eden _ => "EU"

/-- `cost_basis`. -/
def costBasis (plan : JobPlan) : String :=
  match plan.manifest.proofagentSettings with
  | some _ => "preregistered_session_and_evaluator_estimate"
  | none => "preregistered_session_estimate"

/-- The cost that the manifest declares for the job. -/
def cost (plan : JobPlan) : ℚ :=
  plan.configuration.estimatedSessionCostEur + evaluatorCost plan.manifest.toExperimentManifest

/-- The manifest asks for an evaluation by ProofAgent that fails the job with it. -/
def FailsJob (plan : JobPlan) : Prop :=
  ∃ settings ∈ plan.manifest.proofagentSettings, settings.failurePolicy = .failJob

instance (plan : JobPlan) : Decidable plan.FailsJob :=
  inferInstanceAs (Decidable (∃ settings ∈ plan.manifest.proofagentSettings, _))

end JobPlan

namespace DefaultExperimentJobHandler

variable (h : HandlerEnvironment) (job : ExperimentJob)

/-- `_llm`, with the checks of `EdenStructuredLLM`. -/
def llm (requestedModel : String) : Except PyError JobModel :=
  if h.settings.forceFake = true ∨ "fake/".toList.isPrefixOf requestedModel.toList = true then .ok .fake
  else do
    raiseIf (h.settings.llmKillSwitch = true) (.runtimeError "LLM kill switch is active")
    raiseIf (h.settings.edenAiApiKey.getD "" = "" ∨ requestedModel = "")
      (.valueError "Eden API key and model ID are required for live inference")
    raiseIf (h.settings.edenBaseUrl ≠ edenEuBaseUrl) (.valueError "non-EU inference endpoint rejected")
    pure (.eden requestedModel)

/-- The part of `__call__` before the graph is run. A `StopIteration` does not leave a coroutine. -/
def prepare : Except PyError JobPlan := do
  raiseIf (h.settings.experimentKillSwitch = true) (.runtimeError "experiment kill switch is active")
  let manifest ← h.describe job.experimentId
  let configuration ← orRaise
    (manifest.runConfigurations.find? fun item => item.configurationId == job.configurationId)
    (.runtimeError "coroutine raised StopIteration")
  let scenario ← orRaise
    ((h.scenarios.get? job.scenarioId).filter fun scenario => scenario.pack == manifest.scenarioPack)
    (.valueError ("scenario " ++ job.scenarioId ++ " is not in the manifest pack"))
  h.artifactStore
  let model ← llm h configuration.modelId
  pure ⟨manifest, configuration, scenario, h.inject manifest.datasetSeed scenario, model⟩

/-- The investigation of a job, on an engine of its own. -/
def investigation (plan : JobPlan) : Investigation InvestigationRun :=
  LangGraphInvestigationEngine.start { h.engine with modelId := plan.actualModel } 0
    plan.injection.alertId "amlguard-worker" "amlguard-internal" plan.configuration.contextCondition

/-- The failures of the graph that the handler raises anew, by the class name of the last error. -/
def raiseAnew (run : InvestigationRun) : Except PyError Unit :=
  match run.status, run.errors.getLast? with
  | .failed, some failure =>
    if failure.errorType = "TimeoutError" then
      .error { typeName := "TimeoutError", bases := ["OSError"]
               message := "investigation graph stage timed out" }
    else if failure.errorType = "ConnectionError" then
      .error { typeName := "ConnectionError", bases := ["OSError"]
               message := "investigation graph stage connection failed" }
    else .ok ()
  | _, _ => .ok ()

/-- The events of a run. -/
def eventsOf (runId : UUID) (trajectory : List (UUID × TrajectoryEvent)) : List TrajectoryEvent :=
  (trajectory.filter fun entry => entry.1 == runId).map (·.2)

/-- The tool executions that the events of a run carry. -/
def toolCalls (events : List TrajectoryEvent) : List ToolExecution :=
  events.flatMap fun
    | .evidenceRetrieved _ executions => executions
    | _ => []

/-- What became of the evaluation by ProofAgent. -/
structure ProofAgentOutcome where
  evaluation : Option Json := none
  report : Option Json := none
  error : Option Json := none

/-- The document of an evaluator's exception. -/
def evaluatorError (settings : ProofAgentSettings) (e : PyError) : Json :=
  .object [("error_type", .string e.typeName),
    ("message", .string (String.ofList (e.message.toList.take 500))),
    ("harness_version", .string settings.harnessVersion)]

/-- The `except` clause around the evaluation: fail the job, or record the exception. -/
def settleEvaluation (settings : ProofAgentSettings) (evaluation : Option Json) (e : PyError) :
    Except PyError ProofAgentOutcome :=
  if settings.failurePolicy = .failJob then .error e
  else .ok { evaluation, error := some (evaluatorError settings e) }

/-- The evaluation by ProofAgent, when the manifest asks for one. -/
def evaluateProofAgent (plan : JobPlan) (run : InvestigationRun) (calls : List ToolExecution)
    (governance : Json) : Except PyError ProofAgentOutcome :=
  match plan.manifest.proofagentSettings with
  | none => .ok {}
  | some settings =>
    match run.recommendation with
    | none =>
      settleEvaluation settings none
        (.runtimeError "ProofAgent evaluation requires a recommendation artifact")
    | some recommendation =>
      match h.proofagent settings job plan.scenario run recommendation calls governance with
      | .error e => settleEvaluation settings none e
      | .ok evaluation =>
        match h.storeReport job evaluation with
        | .error e => settleEvaluation settings (some evaluation) e
        | .ok report => .ok { evaluation := some evaluation, report }

/-- A field that is there when it has a value. -/
def optionalField (name : String) (value : Option Json) : List (String × Json) :=
  (value.map fun v => (name, v)).toList

/-- The result of a job. -/
def resultDocument (plan : JobPlan) (run : InvestigationRun) (evaluation : Json)
    (outcome : ProofAgentOutcome) (artifact : Option Json) : Json :=
  .object ([("session_key", .string job.sessionKey), ("run", h.runDocument run),
      ("evaluation", evaluation),
      ("evaluations",
        .object (("deterministic", evaluation) :: optionalField "proofagent" outcome.evaluation)),
      ("injection_logical_hash", .string plan.injection.logicalHash),
      ("requested_model", .string plan.configuration.modelId),
      ("actual_model", .string plan.actualModel), ("endpoint_class", .string plan.endpointClass),
      ("cost_basis", .string plan.costBasis)] ++
    optionalField "evaluator_errors" (outcome.error.map fun e => .object [("proofagent", e)]) ++
    optionalField "proofagent_report" outcome.report ++ optionalField "restricted_artifact" artifact)

/-- The part of `__call__` after the graph has run. -/
def conclude (plan : JobPlan) (run : InvestigationRun) (w : EngineWorld) : Except PyError (Json × ℚ) := do
  raiseAnew run
  let events := eventsOf run.runId w.trajectory
  let calls := toolCalls events
  let evaluation := h.evaluateDeterministically job plan.scenario run calls
  let governance := h.runtimeGovernance run events w.auditEvents calls plan.configuration.contextCondition
  let outcome ← evaluateProofAgent h job plan run calls governance
  let cost ← estimatedJobCost plan.manifest.toExperimentManifest plan.configuration.configurationId
  pure (resultDocument h job plan run evaluation outcome (h.artifact events), cost)

end DefaultExperimentJobHandler

end Amlguard
