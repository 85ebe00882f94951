import Amlguard.Investigations.Repository

/-!
# The investigation graph

The case-scoped tools and the five stages of the graph with their guard: progress is
notified, an interrupt passes, and any other exception becomes a failure record and the
status `FAILED`. `ainvoke` drives the stages along the edges until one interrupts, one leads
nowhere, or the recursion limit is reached.

Clock readings, durations and telemetry are left out: nothing reads them.
-/

namespace Amlguard

open Awaited Prog

/-- A program of the investigation engine. -/
abbrev Investigation := Prog engineSignature

/-- Await one call. -/
def invoke (c : EngineCall) : Investigation c.Reply := call (S := engineSignature) c

/-- Write one mark. -/
def jot (n : EngineMark) : Investigation Unit := note (S := engineSignature) n

/-- Hand on a result that was computed without awaiting. -/
def computed {α : Type} (r : Except PyError α) : Investigation α :=
  settleResult (S := engineSignature) r

/-- `evidence_from_model`. -/
def evidenceFromModel (env : EngineEnvironment)
    (evidenceId evidenceType sourceRecordId : String) (caseId : UUID) (customerId : String)
    (content : Json) (provenance : String) : Except PyError EvidenceItem :=
  if h : 3 ≤ evidenceId.length ∧ evidenceId.length ≤ 100 then
    .ok ⟨evidenceId, evidenceType, sourceRecordId, caseId, customerId, content,
      env.canonicalHash content, provenance, h⟩
  else
    .error (.validationError [⟨["evidence_id"],
      if evidenceId.length < 3 then "string_too_short" else "string_too_long"⟩])

namespace InvestigationTools

/-- `_authorize`: a customer outside the case is refused before the data is returned. -/
def authorize (auth : CaseBinding) (customerId toolName : String) : Investigation Unit :=
  if customerId = auth.customerId then pure ()
  else do
    let execution : ToolExecution :=
      { caseId := auth.caseId, toolName
        sanitizedArguments := .object [("customer_id", .string customerId)]
        authorized := false, evidenceIds := [], errorCode := some "CROSS_SCOPE_ACCESS" }
    jot (.executed execution)
    invoke (.audit "tool_authorization_denied" auth.actorId auth.caseId (.execution execution))
    computed (.error
      { typeName := "ToolAuthorizationError", bases := ["PermissionError", "OSError"]
        message := "customer " ++ customerId ++ " is outside case scope " ++ UUID.str auth.caseId })

/-- `_record`: an authorized access is logged and audited. -/
def record (auth : CaseBinding) (toolName : String) (arguments : Json)
    (evidence : List EvidenceItem) : Investigation Unit := do
  let execution : ToolExecution :=
    { caseId := auth.caseId, toolName, sanitizedArguments := arguments
      authorized := true, evidenceIds := evidence.map (·.evidenceId), errorCode := none }
  jot (.executed execution)
  invoke (.audit "tool_access" auth.actorId auth.caseId (.execution execution))

/-- `get_alert`. -/
def getAlert (env : EngineEnvironment) (auth : CaseBinding) (alertId : String) :
    Investigation EvidenceItem := do
  let alert ← invoke (.getAlert alertId)
  authorize auth alert.customerId "get_alert"
  let evidence ← computed (evidenceFromModel env ("ALERT-" ++ alert.alertId) "alert" alert.alertId
    auth.caseId auth.customerId alert.document "deterministic_monitoring_engine")
  record auth "get_alert" (.object [("alert_id", .string alertId)]) [evidence]
  pure evidence

/-- The seven fields of a customer that the model may see. -/
def allowedProfile (customer : SyntheticCustomer) : Json :=
  .object [("customer_id", .string customer.customerId),
    ("customer_type", .string customer.customerType),
    ("display_token", .string customer.displayToken),
    ("country_code", .string customer.countryCode),
    ("occupation_or_sector", .string customer.occupationOrSector),
    ("expected_monthly_turnover", .string customer.expectedMonthlyTurnover),
    ("risk_level", .string customer.riskLevel)]

/-- The logged argument of the tools that take a customer. -/
def customerArgument (customerId : String) : String × Json := ("customer_id", .string customerId)

/-- `get_customer_profile`. -/
def getCustomerProfile (env : EngineEnvironment) (auth : CaseBinding) (customerId : String) :
    Investigation EvidenceItem := do
  authorize auth customerId "get_customer_profile"
  let customer ← invoke (.getCustomer customerId)
  let evidence ← computed (evidenceFromModel env ("CUSTOMER-" ++ customerId) "customer_profile"
    customerId auth.caseId customerId (allowedProfile customer) "synthetic_bank.customer_profile")
  record auth "get_customer_profile" (.object [customerArgument customerId]) [evidence]
  pure evidence

/-- `get_kyc_profile`. -/
def getKycProfile (env : EngineEnvironment) (auth : CaseBinding) (customerId : String) :
    Investigation EvidenceItem := do
  authorize auth customerId "get_kyc_profile"
  let kyc ← invoke (.getKyc customerId)
  let evidence ← computed (evidenceFromModel env ("KYC-" ++ kyc.kycId) "kyc_profile" kyc.kycId
    auth.caseId customerId kyc.document "synthetic_bank.kyc")
  record auth "get_kyc_profile" (.object [customerArgument customerId]) [evidence]
  pure evidence

/-- The number of transactions that `get_transactions` returns at most. -/
def transactionLimit : ℕ := 250

/-- `get_transactions` with its default limit: the last transactions of the customer. -/
def getTransactions (env : EngineEnvironment) (auth : CaseBinding) (customerId : String) :
    Investigation (List EvidenceItem) := do
  authorize auth customerId "get_transactions"
  let all ← invoke (.getTransactions customerId)
  let transactions := all.drop (all.length - transactionLimit)
  let evidence ← computed (transactions.mapM fun item =>
    evidenceFromModel env item.transactionId "transaction" item.transactionId auth.caseId customerId
      item.document "synthetic_bank.transactions")
  record auth "get_transactions"
    (.object [customerArgument customerId, ("limit", .number transactionLimit)]) evidence
  pure evidence

end InvestigationTools

/-- How a stage ends when it does not raise: at an interrupt, or with the merged state. -/
inductive StageEnd where
  | interrupted
  | updated (values : InvestigationState)

section Stages

variable (env : EngineEnvironment) (b : CaseBinding) (values : InvestigationState)

/-- `load_and_retrieve`. -/
def loadAndRetrieve : Investigation StageEnd := do
  invoke (.setStatus b.caseId .running)
  let alert ← InvestigationTools.getAlert env b b.alertId
  let customer ← InvestigationTools.getCustomerProfile env b b.customerId
  let kyc ← InvestigationTools.getKycProfile env b b.customerId
  let transactions ← InvestigationTools.getTransactions env b b.customerId
  let evidence := [alert, customer, kyc] ++ transactions
  let selection ← computed (env.selectPolicies evidence)
  let executions ← invoke .toolExecutions
  invoke (.trajectoryHook b.runId (.evidenceRetrieved evidence executions))
  invoke (.trajectoryHook b.runId (.policiesRetrieved none env.policyJurisdiction selection))
  pure (.updated (values.withEvidence evidence selection))

/-- `draft`. -/
def draft : Investigation StageEnd := do
  let recommendation ← invoke (.recommend
    ⟨values.evidence, values.policies, values.policyRetrieval, b.contextCondition,
      values.reviewerFeedback⟩)
  let version ← invoke (.saveRecommendation b.caseId recommendation)
  jot (.drafted b.caseId version)
  invoke (.trajectoryHook b.runId (.recommendationDrafted env.modelId recommendation version))
  pure (.updated (values.withDraft recommendation version))

/-- `validate`. -/
def validate : Investigation StageEnd := do
  let recommendation ← computed (orRaise values.recommendation (.keyError "recommendation"))
  let executions ← invoke .toolExecutions
  let validation := validateControls b.caseId b.customerId recommendation values.evidence
    values.policies values.securityEvents executions
  let decision := validation.decision
  jot (.decided b.caseId values.recommendationVersion validation)
  invoke (.setStatus b.caseId validation.status)
  if decision.hardBlocks ≠ [] then
    invoke (.audit "investigation_hard_blocked" b.actorId b.caseId (.hardBlocks decision.hardBlocks))
  invoke (.trajectoryHook b.runId (.controlsEvaluated validation.results validation.securityEvents
    decision.status decision.hardBlocks))
  pure (.updated (values.withValidation validation))

/-- The supplemental evidence of a submission. -/
def supplementalEvidence (version : ℕ) (submission : Submission) : Except PyError EvidenceItem :=
  let evidenceUuid := env.uuid5 b.caseId (toString version ++ ":" ++ submission.submissionId)
  evidenceFromModel env ("INFO-" ++ UUID.str evidenceUuid) "supplemental_information"
    (UUID.str evidenceUuid) b.caseId b.customerId
    (.object [("information", .object submission.information)])
    "authenticated user submission through the investigation resume API"

/-- The part of `collect_information` after its interrupt has been resumed with a submission. -/
def supplied (version : ℕ) (submission : Submission) : Investigation StageEnd := do
  let evidence ← computed (supplementalEvidence env b version submission)
  invoke (.audit "case_information_supplied" submission.actorId b.caseId
    (.informationSupplied (sortedSet (submission.information.map (·.1))) evidence.evidenceId
      (some version)))
  invoke (.setStatus b.caseId .running)
  invoke (.trajectoryHook b.runId (.caseInformationSupplied evidence))
  let updated := values.evidence ++ [evidence]
  let selection ← computed (env.selectPolicies updated)
  invoke (.trajectoryHook b.runId
    (.policiesRetrieved (some "supplemental_information") env.policyJurisdiction selection))
  pure (.updated (values.withEvidence updated selection))

/-- `collect_information`. A review in place of a submission lacks its keys. -/
def collectInformation (resume : Option Resume) : Investigation StageEnd := do
  let _ ← computed (orRaise values.recommendation (.keyError "recommendation"))
  let version ← computed (orRaise values.recommendationVersion (.keyError "recommendation_version"))
  match resume with
  | none => pure .interrupted
  | some (.review _) => computed (.error (.keyError "actor_id"))
  | some (.information submission) => supplied env b values version submission

/-- The part of `human_review` after its interrupt has been resumed with a review. -/
def concluded (request review : HumanReview) : Investigation StageEnd := do
  jot (.reviewed request review)
  invoke (.saveReview review)
  match review.editedRecommendation with
  | some edited =>
    let _ ← invoke (.saveRecommendation b.caseId edited)
  | none => pure ()
  invoke (.setStatus b.caseId review.outcome)
  invoke (.trajectoryHook b.runId (.humanReview review))
  pure (.updated (values.withReview review))

/-- `human_review`. A submission in place of a review does not pass the review's schema. -/
def humanReview (resume : Option Resume) : Investigation StageEnd :=
  if values.status = .hardBlocked then pure (.updated values)
  else do
    let version ←
      computed (orRaise values.recommendationVersion (.keyError "recommendation_version"))
    match resume with
    | none => pure .interrupted
    | some (.information _) => computed (.error (.validationError HumanReview.submissionIssues))
    | some (.review request) =>
      let review ← computed (request.rebind b.caseId version)
      concluded b values request review

/-- The body of a stage. -/
def stageBody (stage : Stage) (resume : Option Resume) : Investigation StageEnd :=
  match stage with
  | .loadAndRetrieve => loadAndRetrieve env b values
  | .draftRecommendation => draft env b values
  | .validateControls => validate b values
  | .collectInformation => collectInformation env b values resume
  | .humanReview => humanReview b values resume

/-- `notify_stage`. -/
def notifyStage (stage : Stage) (event : String) : Investigation Unit :=
  suppress (invoke (.stageHook b.runId stage event))

/-- `record_failure`. -/
def recordFailure (stage : Stage) (e : PyError) : Investigation StageEnd := do
  let errorId ← invoke .uuid4
  let failure := failureOf errorId stage.name e
  invoke (.setStatus b.caseId .failed)
  suppress (invoke (.audit "investigation_failed" b.actorId b.caseId (.failure failure)))
  suppress (invoke (.trajectoryHook b.runId (.investigationFailed failure)))
  pure (.updated (values.withFailure failure))

/-- What `guarded` does once a stage has ended. -/
def settleStage (stage : Stage) : Except PyError StageEnd → Investigation StageEnd
  | .ok .interrupted => do
    notifyStage b stage "interrupted"
    pure .interrupted
  | .ok (.updated values') => do
    notifyStage b stage "completed"
    pure (.updated values')
  | .error e => finally' (recordFailure b values stage e) (notifyStage b stage "failed")

end Stages

/-- `guarded`: the state must name its run before anything is caught. -/
def guarded (env : EngineEnvironment) (values : InvestigationState) (stage : Stage)
    (resume : Option Resume) : Investigation StageEnd := do
  let b ← computed (orRaise values.binding (.keyError "run_id"))
  notifyStage b stage "started"
  let ended ← (stageBody env b values stage resume).attempt
  settleStage b values stage ended

/-- The number of stages that one invocation may run. -/
def recursionLimit : ℕ := 25

/-- Run stages along the edges. Only the stage that was interrupted sees the resumed value. -/
def drive (env : EngineEnvironment) (thread : UUID) :
    ℕ → Stage → Option Resume → InvestigationState → Investigation Unit
  | 0, _, _, _ =>
    computed (.error
      { typeName := "GraphRecursionError", bases := ["RecursionError", "RuntimeError"] })
  | fuel + 1, stage, resume, values => do
    match ← guarded env values stage resume with
    | .interrupted => pure ()
    | .updated values' =>
      invoke (.putCheckpoint thread ⟨values', some stage, route stage values'⟩)
      match route stage values' with
      | some next => drive env thread fuel next none values'
      | none => pure ()

/-- `graph.ainvoke` on a thread: write the input and start at the entry, or resume. -/
def ainvoke (env : EngineEnvironment) (task : ℕ) (thread : UUID) (input : GraphInput) :
    Investigation Unit := do
  let saved ← invoke (.loadCheckpoint thread input)
  jot (.loaded task thread)
  match input with
  | .start binding =>
    let values := (savedValues saved).started binding
    invoke (.putCheckpoint thread ⟨values, none, some .loadAndRetrieve⟩)
    drive env thread recursionLimit .loadAndRetrieve none values
  | .resume value =>
    match saved with
    | some ⟨values, _, some stage⟩ => drive env thread recursionLimit stage (some value) values
    | _ => pure ()

end Amlguard
