import Amlguard.Investigations.Service
import Amlguard.Library.Conduct

/-!
# Phases of the engine's operations

The phases through which an operation moves on a case, and the calls that lead from one to
the next. A phase knows what the operation holds in memory: the case that it has read, the
state that its run carries, the recommendation, validation or review at hand.
-/

namespace Amlguard

open Awaited

/-- The state is that of a case, or names no case. -/
def BoundTo (c : UUID) (values : InvestigationState) : Prop :=
  ∀ b, values.binding = some b → b.caseId = c

/-- The phases of an operation. -/
inductive Phase where
  /-- No graph is being run; `ran` once one has been. -/
  | idle (ran : Bool)
  /-- A case has just been read or created. -/
  | read (ran : Bool) (case : CaseData) (created : Bool)
  /-- The status check of a reset has passed. -/
  | deleting (c : UUID)
  /-- The case has been deleted, its thread not yet. -/
  | resetting (c : UUID)
  /-- The status check of the case has passed. -/
  | admitted (c runId : UUID)
  /-- The thread has been read; the history does not say so yet. -/
  | loaded (c : UUID) (next : Phase)
  /-- The input of a new run is about to be written. -/
  | entering (c : UUID) (values : InvestigationState)
  /-- A stage has begun. -/
  | stage (c : UUID) (s : Stage) (resume : Option Resume) (values : InvestigationState)
  /-- `load_and_retrieve` has set the status. -/
  | loading (c : UUID) (values : InvestigationState)
  /-- `load_and_retrieve` has read the log of the tools. -/
  | logged (c : UUID) (values : InvestigationState) (executions : List ToolExecution)
  /-- `draft` has saved a recommendation; the history does not say so yet. -/
  | saved (c : UUID) (values : InvestigationState) (recommendation : InvestigationRecommendation)
      (version : ℕ)
  /-- `draft` has saved a recommendation. -/
  | drafted (c : UUID) (values : InvestigationState) (recommendation : InvestigationRecommendation)
      (version : ℕ)
  /-- `validate` has decided, and is about to set the status. -/
  | deciding (c : UUID) (values : InvestigationState) (validation : Validation)
  /-- `validate` has set the status. -/
  | released (c : UUID) (values : InvestigationState) (validation : Validation)
  /-- `collect_information` has announced the evidence of a submission. -/
  | informed (c : UUID) (values : InvestigationState) (evidence : EvidenceItem)
  /-- `collect_information` has set the status. -/
  | collecting (c : UUID) (values : InvestigationState) (evidence : EvidenceItem)
  /-- `human_review` is about to save a review. -/
  | reviewing (c : UUID) (values : InvestigationState) (review : HumanReview)
  /-- `human_review` has saved a review. -/
  | reviewed (c : UUID) (values : InvestigationState) (review : HumanReview)
  /-- `human_review` has saved the edited recommendation. -/
  | edited (c : UUID) (values : InvestigationState) (review : HumanReview)
  /-- `human_review` has set the status. -/
  | concluded (c : UUID) (values : InvestigationState) (review : HumanReview)
  /-- An exception is about to be recorded. -/
  | failing (c : UUID) (s : Stage) (values : InvestigationState)
  /-- `record_failure` has set the status. -/
  | failed (c : UUID) (s : Stage) (values : InvestigationState)
  /-- The run writes nothing more. -/
  | ran (c : UUID)

namespace Phase

/-- Outside the graph. -/
inductive Outside : Phase → Bool → Prop where
  | idle (ran : Bool) : Outside (.idle ran) ran
  | read (ran : Bool) (case : CaseData) (created : Bool) : Outside (.read ran case created) ran

/-- Phases that an exception of a quiet call does not end. -/
inductive Waits : Phase → Prop where
  | deleting (c : UUID) : Waits (.deleting c)
  | admitted (c runId : UUID) : Waits (.admitted c runId)
  | failed (c : UUID) (s : Stage) (values : InvestigationState) : Waits (.failed c s values)
  | ran (c : UUID) : Waits (.ran c)

/-- A stage that has begun may raise before it has called anything that it must call. -/
def MayRaise (env : EngineEnvironment) (values : InvestigationState) :
    Stage → Option Resume → Prop
  | .loadAndRetrieve, _ => False
  | .collectInformation, some (.information submission) =>
    values.recommendation = none ∨ values.recommendationVersion = none ∨
      ∃ b version e, values.binding = some b ∧
        supplementalEvidence env b version submission = .error e
  | _, _ => True

/-- Phases of a stage in which an exception leads to `record_failure`. -/
inductive Works (env : EngineEnvironment) : Phase → UUID → Stage → InvestigationState → Prop where
  | stage (c : UUID) (s : Stage) (resume : Option Resume) (values : InvestigationState)
      (hs : MayRaise env values s resume) : Works env (.stage c s resume values) c s values
  | loading (c : UUID) (values : InvestigationState) :
      Works env (.loading c values) c .loadAndRetrieve values
  | drafted (c : UUID) (values : InvestigationState)
      (recommendation : InvestigationRecommendation) (version : ℕ) :
      Works env (.drafted c values recommendation version) c .draftRecommendation values
  | collecting (c : UUID) (values : InvestigationState) (evidence : EvidenceItem) (e : PyError)
      (h : env.selectPolicies (values.evidence ++ [evidence]) = .error e) :
      Works env (.collecting c values evidence) c .collectInformation values
  | failing (c : UUID) (s : Stage) (values : InvestigationState) :
      Works env (.failing c s values) c s values

/-- Phases of a stage that has set the status and still reports. -/
inductive Reports : Phase → UUID → Stage → InvestigationState → Prop where
  | collecting (c : UUID) (values : InvestigationState) (evidence : EvidenceItem) :
      Reports (.collecting c values evidence) c .collectInformation values
  | released (c : UUID) (values : InvestigationState) (validation : Validation) :
      Reports (.released c values validation) c .validateControls values
  | concluded (c : UUID) (values : InvestigationState) (review : HumanReview) :
      Reports (.concluded c values review) c .humanReview values

/-- What a stage that has set the status may report. -/
def Tells : Phase → EngineCall → Prop
  | .collecting _ _ evidence, call =>
    (∃ runId, call = .trajectoryHook runId (.caseInformationSupplied evidence)) ∨
      ∃ runId jurisdiction selection, call =
        .trajectoryHook runId (.policiesRetrieved (some "supplemental_information") jurisdiction selection)
  | .concluded _ _ review, call => ∃ runId, call = .trajectoryHook runId (.humanReview review)
  | _, _ => True

/-- The states that a stage may return. -/
inductive Yields : Phase → UUID → Stage → InvestigationState → Prop where
  | loading (c : UUID) (values : InvestigationState) (evidence : List EvidenceItem)
      (selection : PolicySelection) :
      Yields (.loading c values) c .loadAndRetrieve (values.withEvidence evidence selection)
  | drafted (c : UUID) (values : InvestigationState)
      (recommendation : InvestigationRecommendation) (version : ℕ) :
      Yields (.drafted c values recommendation version) c .draftRecommendation
        (values.withDraft recommendation version)
  | released (c : UUID) (values : InvestigationState) (validation : Validation) :
      Yields (.released c values validation) c .validateControls (values.withValidation validation)
  | collecting (c : UUID) (values : InvestigationState) (evidence : EvidenceItem)
      (selection : PolicySelection) :
      Yields (.collecting c values evidence) c .collectInformation
        (values.withEvidence (values.evidence ++ [evidence]) selection)
  | blocked (c : UUID) (resume : Option Resume) (values : InvestigationState)
      (h : values.status = .hardBlocked) :
      Yields (.stage c .humanReview resume values) c .humanReview values
  | concluded (c : UUID) (values : InvestigationState) (review : HumanReview) :
      Yields (.concluded c values review) c .humanReview (values.withReview review)
  | failed (c : UUID) (s : Stage) (values : InvestigationState) (failure : InvestigationError) :
      Yields (.failed c s values) c s (values.withFailure failure)

/-- Phases in which a run of the case may end, and whether one has begun. -/
inductive Leaves : Phase → UUID → Bool → Prop where
  | idle (c : UUID) (ran : Bool) : Leaves (.idle ran) c ran
  | deleting (c : UUID) : Leaves (.deleting c) c false
  | admitted (c runId : UUID) : Leaves (.admitted c runId) c false
  | unbound (c : UUID) (s : Stage) (resume : Option Resume) (values : InvestigationState)
      (h : values.binding = none) : Leaves (.stage c s resume values) c true
  | halted (c : UUID) (s : Stage) (values : InvestigationState) (hs : s ≠ .loadAndRetrieve) :
      Leaves (.stage c s none values) c true
  | ran (c : UUID) : Leaves (.ran c) c true

/-- The case on whose graph an operation is engaged, from its status check to the last step of
its run that may write. -/
def engaged : Phase → Option UUID
  | .admitted c _ | .loaded c _ | .entering c _ | .stage c _ _ _ | .loading c _ | .logged c _ _
  | .saved c _ _ _ | .drafted c _ _ _ | .deciding c _ _ | .released c _ _ | .informed c _ _
  | .collecting c _ _ | .reviewing c _ _ | .reviewed c _ _ | .edited c _ _ | .concluded c _ _
  | .failing c _ _ | .failed c _ _ => some c
  | .idle _ | .read _ _ _ | .deleting _ | .resetting _ | .ran _ => none

/-- The case on whose graph an operation is engaged since it has read the thread. -/
def inRun : Phase → Option UUID
  | .admitted _ _ | .loaded _ _ => none
  | m => m.engaged

/-- Where a reply leads: to one phase with a value, to the other with an exception. -/
def landed {α : Type} (r : Except PyError α) (onOk onError : Phase) : Phase :=
  match r with
  | .ok _ => onOk
  | .error _ => onError

/-- The phase after a checkpoint has been written: the next stage, or the end of the run. -/
def advance (c : UUID) (next : Option Stage) (values : InvestigationState) : Phase :=
  match next with
  | some s => .stage c s none values
  | none => .ran c

end Phase

namespace EngineOp

/-- Operations that create a case or locate it. -/
def Prepares : EngineOp → Prop
  | .start _ _ _ _ | .uiStart _ _ _ _ => True
  | _ => False

/-- Operations that start a run from the entry. -/
def Starts : EngineOp → Prop
  | .start _ _ _ _ | .uiStart _ _ _ _ | .runPrepared _ _ _ => True
  | _ => False

/-- Operations that resume a run with a value. -/
def Resumes : EngineOp → Resume → Prop
  | .review request, value => value = .review request
  | .supplyInformation _ submission, value => value = .information submission
  | _, _ => False

/-- The status check with which an operation enters the graph of a case that it has read. -/
def Checks : EngineOp → CaseData → Prop
  | .uiStart _ _ _ _, case => case.status = .failed
  | .review request, case =>
    request.caseId = case.caseId ∧ case.status ≠ .hardBlocked ∧
      request.recommendationVersion = case.recommendationVersion
  | .supplyInformation c _, case => c = case.caseId ∧ case.status = .waitingForInformation
  | _, _ => False

end EngineOp

open Phase

/-- Where a mark leads. -/
inductive MarkEdge (task : ℕ) (op : EngineOp) : Phase → EngineMark → Phase → Prop where
  | executed (m : Phase) (execution : ToolExecution) : MarkEdge task op m (.executed execution) m
  | prepared (case : CaseData) (actorId contextCondition : String)
      (hop : op = .runPrepared case actorId contextCondition) :
      MarkEdge task op (.idle false) (.admitted task case.caseId)
        (.admitted case.caseId case.runId)
  | created (ran : Bool) (case : CaseData) (hop : op.Prepares) :
      MarkEdge task op (.read ran case true) (.admitted task case.caseId)
        (.admitted case.caseId case.runId)
  | checked (ran : Bool) (case : CaseData) (hop : op.Checks case) :
      MarkEdge task op (.read ran case false) (.admitted task case.caseId)
        (.admitted case.caseId case.runId)
  | again (c runId : UUID) :
      MarkEdge task op (.admitted c runId) (.admitted task c) (.admitted c runId)
  | loaded (c : UUID) (m : Phase) (hm : m = .ran c ∨ m.inRun = some c) :
      MarkEdge task op (.loaded c m) (.loaded task c) m
  | resets (ran : Bool) (case : CaseData) (actorId : String)
      (hop : op = .reset case.caseId actorId)
      (hstatus : case.status ≠ .open ∧ case.status ≠ .running) :
      MarkEdge task op (.read ran case false) (.resetting task case.caseId)
        (.deleting case.caseId)
  | left (m : Phase) (c : UUID) (ran : Bool) (hm : m.Leaves c ran) :
      MarkEdge task op m (.left task c) (.idle ran)
  | drafted (c : UUID) (values : InvestigationState) (recommendation : InvestigationRecommendation)
      (version : ℕ) :
      MarkEdge task op (.saved c values recommendation version) (.drafted c version)
        (.drafted c values recommendation version)
  | decided (c : UUID) (resume : Option Resume) (values : InvestigationState) (b : CaseBinding)
      (recommendation : InvestigationRecommendation) (executions : List ToolExecution)
      (hb : values.binding = some b) (hrec : values.recommendation = some recommendation)
      (validation : Validation)
      (h : validation = validateControls b.caseId b.customerId recommendation values.evidence
        values.policies values.securityEvents executions) :
      MarkEdge task op (.stage c .validateControls resume values)
        (.decided c values.recommendationVersion validation) (.deciding c values validation)
  | reviewed (c : UUID) (values : InvestigationState) (request review : HumanReview) (version : ℕ)
      (hstatus : values.status ≠ .hardBlocked) (hv : values.recommendationVersion = some version)
      (hr : request.rebind c version = .ok review) :
      MarkEdge task op (.stage c .humanReview (some (.review request)) values)
        (.reviewed request review) (.reviewing c values review)

/-- Where a call leads with a reply. -/
inductive Edge (env : EngineEnvironment) (op : EngineOp) :
    Phase → (call : EngineCall) → Except PyError call.Reply → Phase → Prop where
  | outside (m : Phase) (ran : Bool) (call : EngineCall) (r : Except PyError call.Reply)
      (hm : m.Outside ran) (hq : call.Quiet) : Edge env op m call r (.idle ran)
  | created (m : Phase) (ran : Bool) (alertId tenantId investigatorId : String) (case : CaseData)
      (hm : m.Outside ran) :
      Edge env op m (.createCase alertId tenantId investigatorId) (.ok (case, true))
        (.read ran case true)
  | located (m : Phase) (ran : Bool) (alertId tenantId investigatorId : String)
      (r : Except PyError (CaseData × Bool)) (hm : m.Outside ran)
      (hr : ∀ case, r ≠ .ok (case, true)) :
      Edge env op m (.createCase alertId tenantId investigatorId) r (.idle ran)
  | asked (m : Phase) (ran : Bool) (c : UUID) (case : CaseData) (hm : m.Outside ran) :
      Edge env op m (.getCase c) (.ok case) (.read ran case false)
  | unknown (m : Phase) (ran : Bool) (c : UUID) (e : PyError) (hm : m.Outside ran) :
      Edge env op m (.getCase c) (.error e) (.idle ran)
  | deleted (c : UUID) (r : Except PyError Unit) :
      Edge env op (.deleting c) (.deleteCase c) r (landed r (.resetting c) (.deleting c))
  | forgotten (c : UUID) (r : Except PyError Unit) :
      Edge env op (.resetting c) (.deleteThread c) r (.idle false)
  | revised (m : Phase) (ran : Bool) (c : UUID) (eventType : String)
      (securityEvents hardBlocks : List String) (r : Except PyError Unit) (hm : m.Outside ran)
      (hop : op = .recordSecurityEvent c eventType) :
      Edge env op m (.updateState c securityEvents hardBlocks) r (.idle ran)
  | revoked (m : Phase) (ran : Bool) (c : UUID) (eventType : String) (r : Except PyError Unit)
      (hm : m.Outside ran) (hop : op = .recordSecurityEvent c eventType) :
      Edge env op m (.setStatus c .hardBlocked) r (.idle ran)
  | waits (m : Phase) (call : EngineCall) (r : Except PyError call.Reply) (hm : m.Waits)
      (hq : call.Quiet) : Edge env op m call r m
  | notified (c : UUID) (s : Stage) (resume : Option Resume) (values : InvestigationState)
      (runId : UUID) (s' : Stage) (event : String) (r : Except PyError Unit) :
      Edge env op (.stage c s resume values) (.stageHook runId s' event) r
        (.stage c s resume values)
  | works (m : Phase) (c : UUID) (s : Stage) (values : InvestigationState) (call : EngineCall)
      (r : Except PyError call.Reply) (hm : m.Works env c s values) (hq : call.Quiet) :
      Edge env op m call r m
  | reports (m : Phase) (c : UUID) (s : Stage) (values : InvestigationState) (call : EngineCall)
      (reply : call.Reply) (hm : m.Reports c s values) (hq : call.Reporting) (ht : m.Tells call) :
      Edge env op m call (.ok reply) m
  | reportFails (m : Phase) (c : UUID) (s : Stage) (values : InvestigationState)
      (call : EngineCall) (e : PyError) (hm : m.Reports c s values) (hq : call.Reporting)
      (ht : m.Tells call) : Edge env op m call (.error e) (.failing c s values)
  | notifies (m : Phase) (c : UUID) (s : Stage) (values : InvestigationState) (runId : UUID)
      (s' : Stage) (event : String) (r : Except PyError Unit) (hm : m.Reports c s values) :
      Edge env op m (.stageHook runId s' event) r m
  | loadFails (c runId : UUID) (input : GraphInput) (e : PyError) :
      Edge env op (.admitted c runId) (.loadCheckpoint c input) (.error e) (.admitted c runId)
  | loadStart (c : UUID) (b : CaseBinding) (saved : Option Checkpoint) (hop : op.Starts)
      (hb : b.caseId = c) :
      Edge env op (.admitted c b.runId) (.loadCheckpoint c (.start b)) (.ok saved)
        (.loaded c (.entering c ((savedValues saved).started b)))
  | loadNothing (c runId : UUID) (value : Resume) (saved : Option Checkpoint)
      (hop : op.Resumes value) (h : ∀ checkpoint, saved = some checkpoint → checkpoint.next = none) :
      Edge env op (.admitted c runId) (.loadCheckpoint c (.resume value)) (.ok saved)
        (.loaded c (.ran c))
  | loadStage (c runId : UUID) (value : Resume) (values : InvestigationState) (last : Option Stage)
      (s : Stage) (hop : op.Resumes value) :
      Edge env op (.admitted c runId) (.loadCheckpoint c (.resume value))
        (.ok (some ⟨values, last, some s⟩)) (.loaded c (.stage c s (some value) values))
  | entered (c : UUID) (values : InvestigationState) (r : Except PyError Unit)
      (hb : BoundTo c values) :
      Edge env op (.entering c values) (.putCheckpoint c ⟨values, none, some .loadAndRetrieve⟩) r
        (landed r (.stage c .loadAndRetrieve none values) (.ran c))
  | runs (c : UUID) (resume : Option Resume) (values : InvestigationState)
      (r : Except PyError Unit) :
      Edge env op (.stage c .loadAndRetrieve resume values) (.setStatus c .running) r
        (landed r (.loading c values) (.failing c .loadAndRetrieve values))
  | logs (c : UUID) (values : InvestigationState) (executions : List ToolExecution) :
      Edge env op (.loading c values) .toolExecutions (.ok executions) (.logged c values executions)
  | shows (c : UUID) (values : InvestigationState) (b : CaseBinding) (evidence : List EvidenceItem)
      (executions : List ToolExecution) (r : Except PyError Unit) (hb : values.binding = some b) :
      Edge env op (.logged c values executions)
        (.trajectoryHook b.runId (.evidenceRetrieved evidence executions)) r
        (landed r (.loading c values) (.failing c .loadAndRetrieve values))
  | saves (c : UUID) (resume : Option Resume) (values : InvestigationState)
      (recommendation : InvestigationRecommendation) (version : ℕ) :
      Edge env op (.stage c .draftRecommendation resume values)
        (.saveRecommendation c recommendation) (.ok version)
        (.saved c values recommendation version)
  | saveFails (c : UUID) (resume : Option Resume) (values : InvestigationState)
      (recommendation : InvestigationRecommendation) (e : PyError) :
      Edge env op (.stage c .draftRecommendation resume values)
        (.saveRecommendation c recommendation) (.error e) (.failing c .draftRecommendation values)
  | looks (c : UUID) (resume : Option Resume) (values : InvestigationState)
      (executions : List ToolExecution) :
      Edge env op (.stage c .validateControls resume values) .toolExecutions (.ok executions)
        (.stage c .validateControls resume values)
  | decides (c : UUID) (values : InvestigationState) (validation : Validation)
      (r : Except PyError Unit) :
      Edge env op (.deciding c values validation) (.setStatus c validation.status) r
        (landed r (.released c values validation) (.failing c .validateControls values))
  | informs (c : UUID) (submission : Submission) (values : InvestigationState) (b : CaseBinding)
      (version : ℕ) (evidence : EvidenceItem) (r : Except PyError Unit)
      (hb : values.binding = some b) (hversion : values.recommendationVersion = some version)
      (hevidence : supplementalEvidence env b version submission = .ok evidence) :
      Edge env op (.stage c .collectInformation (some (.information submission)) values)
        (.audit "case_information_supplied" submission.actorId c
          (.informationSupplied (sortedSet (submission.information.map (·.1))) evidence.evidenceId
            (some version))) r
        (landed r (.informed c values evidence) (.failing c .collectInformation values))
  | collects (c : UUID) (values : InvestigationState) (evidence : EvidenceItem)
      (r : Except PyError Unit) :
      Edge env op (.informed c values evidence) (.setStatus c .running) r
        (landed r (.collecting c values evidence) (.failing c .collectInformation values))
  | stores (c : UUID) (values : InvestigationState) (review : HumanReview)
      (r : Except PyError Unit) :
      Edge env op (.reviewing c values review) (.saveReview review) r
        (landed r (.reviewed c values review) (.failing c .humanReview values))
  | edits (c : UUID) (values : InvestigationState) (review : HumanReview)
      (recommendation : InvestigationRecommendation) (r : Except PyError ℕ)
      (h : review.editedRecommendation = some recommendation) :
      Edge env op (.reviewed c values review) (.saveRecommendation c recommendation) r
        (landed r (.edited c values review) (.failing c .humanReview values))
  | concludes (m : Phase) (c : UUID) (values : InvestigationState) (review : HumanReview)
      (r : Except PyError Unit)
      (hm : m = .edited c values review ∨
        m = .reviewed c values review ∧ review.editedRecommendation = none) :
      Edge env op m (.setStatus c review.outcome) r
        (landed r (.concluded c values review) (.failing c .humanReview values))
  | givesUp (m : Phase) (c : UUID) (s : Stage) (values : InvestigationState)
      (r : Except PyError Unit) (hm : m.Works env c s values) :
      Edge env op m (.setStatus c .failed) r (landed r (.failed c s values) (.ran c))
  | puts (m : Phase) (c : UUID) (s : Stage) (values : InvestigationState)
      (r : Except PyError Unit) (hm : m.Yields c s values) (hb : BoundTo c values) :
      Edge env op m (.putCheckpoint c ⟨values, some s, route s values⟩) r
        (landed r (advance c (route s values) values) (.ran c))

/-- What every reply meets: a case has the ID it was asked by, a thread the state of its case,
and the calls that await nothing do not raise. -/
def expectedReply : (call : EngineCall) → Except PyError call.Reply → Prop
  | .getCase c, r => ∀ case, r = .ok case → case.caseId = c
  | .loadCheckpoint c _, r => ∀ checkpoint, r = .ok (some checkpoint) → BoundTo c checkpoint.values
  | .uuid4, r => ∃ id, r = .ok id
  | .toolExecutions, r => ∃ executions, r = .ok executions
  | _, _ => True

/-- The diagram of one operation. -/
def conduct (env : EngineEnvironment) (task : ℕ) (op : EngineOp) :
    Diagram engineSignature Phase where
  onMark := MarkEdge task op
  onReply := Edge env op
  expected := expectedReply

/-- How an operation ends: outside the graph, after a run if it was to resume one and returns. -/
def programEnds (op : EngineOp) (r : Except PyError Unit) (m : Phase) : Prop :=
  ∃ ran, m.Outside ran ∧ ((∃ value, op.Resumes value) → r = .ok () → ran = true)

/-- The chart of the engine. -/
def engineChart (env : EngineEnvironment) : Chart engineSignature EngineOp Phase where
  diagram := conduct env
  initial := .idle false
  Ends := programEnds
  Serves _ := True

/-- The operations that come from a request: a case is run as it has been read or created. -/
def EngineOp.Requested : EngineOp → Prop
  | .runPrepared _ _ _ => False
  | _ => True

instance (op : EngineOp) : Decidable op.Requested := by
  cases op <;> unfold EngineOp.Requested <;> infer_instance

/-- The requests that write a case only by running its graph, or delete it. -/
def EngineOp.Routine : EngineOp → Prop
  | .runPrepared _ _ _ | .recordSecurityEvent _ _ => False
  | _ => True

instance (op : EngineOp) : Decidable op.Routine := by
  cases op <;> unfold EngineOp.Routine <;> infer_instance

/-- Only requests are started, and no call fails. -/
def Faultless (_ : EnginePool) : Move EngineOp EngineDraws → Prop
  | .start op => op.Requested
  | .advance _ o => ¬o.failure.Raises

instance (p : EnginePool) (m : Move EngineOp EngineDraws) : Decidable (Faultless p m) := by
  cases m <;> unfold Faultless <;> infer_instance

/-- The chart of the requests. -/
def requestChart (env : EngineEnvironment) : Chart engineSignature EngineOp Phase :=
  { engineChart env with Serves := EngineOp.Requested }

/-- The chart of the routine requests. -/
def routineChart (env : EngineEnvironment) : Chart engineSignature EngineOp Phase :=
  { engineChart env with Serves := EngineOp.Routine }

end Amlguard
