import Amlguard.Investigations.Writes
import Amlguard.Library.Scope

/-!
# The scope of a case

Once an operation has got its case, every call that reads or writes a case, a thread or a trajectory
names this case, and every tool that it executes is logged under it. The log of the tools is the one
thing of all cases that it reads: `validate_controls` looks at the executions of the case in it, and
`load_and_retrieve` hands all of it to the trajectory.

The programs of the engine are walked through within this scope.
-/

namespace Amlguard

open Awaited

/-- The `run_id` of a case. -/
def RepositoryBackend.runIdOf (backend : RepositoryBackend) (c : UUID) : UUID :=
  match backend with
  | inMemory => c + 1
  | postgres => c

/-- No two cases have the same run. -/
theorem RepositoryBackend.runIdOf_inj (backend : RepositoryBackend) {c c' : UUID} :
    backend.runIdOf c = backend.runIdOf c' ↔ c = c' := by
  cases backend with
  | inMemory => exact Nat.succ_inj
  | postgres => exact Iff.rfl

/-- The executions of a case in the log of the tools. -/
def executionsOf (c : UUID) (log : List ToolExecution) : List ToolExecution :=
  log.filter fun execution => execution.caseId == c

/-- The run of a case. -/
structure CaseBinding.Of (backend : RepositoryBackend) (c : UUID) (b : CaseBinding) : Prop where
  caseId : b.caseId = c
  runId : b.runId = backend.runIdOf c

/-- The case is stored under its ID, with its run. -/
structure CaseData.Of (backend : RepositoryBackend) (c : UUID) (case : CaseData) : Prop where
  caseId : case.caseId = c
  runId : case.runId = backend.runIdOf c

/-- The state is that of a run of the case, or of none. -/
def InvestigationState.Of (backend : RepositoryBackend) (c : UUID) (values : InvestigationState) :
    Prop :=
  ∀ b, values.binding = some b → b.Of backend c

/-- The calls of an operation that has got a case. -/
def EngineCall.OfCase (backend : RepositoryBackend) (c : UUID) : EngineCall → Prop
  | .createCase _ _ _ => False
  | .getCase c' | .deleteCase c' | .saveRecommendation c' _ | .setStatus c' _ | .loadCheckpoint c' _
  | .getState c' | .updateState c' _ _ | .deleteThread c' => c' = c
  | .saveReview review => review.caseId = c
  | .putCheckpoint c' checkpoint => c' = c ∧ checkpoint.values.Of backend c
  | .trajectoryHook runId _ => runId = backend.runIdOf c
  | .getAlert _ | .getCustomer _ | .getKyc _ | .getTransactions _ | .audit _ _ _ _ | .stageHook _ _ _
  | .recommend _ | .uuid4 | .toolExecutions => True

/-- The marks of an operation that has got a case. -/
def EngineMark.OfCase (c : UUID) : EngineMark → Prop
  | .executed execution => execution.caseId = c
  | _ => True

/-- What an operation reads of its case. -/
def ReplyOfCase (backend : RepositoryBackend) (c : UUID) :
    (call : EngineCall) → Except PyError call.Reply → Prop
  | .getCase _, r => ∀ case, r = .ok case → case.Of backend c
  | .loadCheckpoint _ _, r => ∀ saved, r = .ok (some saved) → saved.values.Of backend c
  | _, _ => True

/-- A program that goes on alike after logs with the same executions of the case. -/
def HeedsOwn {α : Type} (c : UUID) (k : Except PyError (List ToolExecution) → Investigation α) : Prop :=
  ∀ log log', executionsOf c log = executionsOf c log' → k (.ok log) = k (.ok log')

/-- A program that records the log in the trajectory of a run as soon as it has read it, and does not
look at it again. -/
def ShowsLog {α : Type} (runId : UUID) (k : Except PyError (List ToolExecution) → Investigation α) :
    Prop :=
  ∃ (evidence : List EvidenceItem) (next : Except PyError Unit → Investigation α), ∀ log,
    k (.ok log) = .await (.trajectoryHook runId (.evidenceRetrieved evidence log)) next

/-- With which replies an operation goes on. -/
def HearsOfCase (backend : RepositoryBackend) (c : UUID) :
    (call : EngineCall) → (α : Type) → (Except PyError call.Reply → Investigation α) →
      (Except PyError call.Reply → Prop) → Prop
  | .toolExecutions, _, k, R =>
    (HeedsOwn c k ∨ ShowsLog (backend.runIdOf c) k) ∧ ∀ log, R (.ok log)
  | call, _, _, R => ∀ r, ReplyOfCase backend c call r → R r

section Stability

variable {α β : Type} {c runId : UUID} {k : Except PyError (List ToolExecution) → Investigation α}

theorem HeedsOwn.bind (h : HeedsOwn c k) (f : α → Investigation β) :
    HeedsOwn c fun r => (k r).bind f :=
  fun log log' hlog => congrArg (Prog.bind · f) (h log log' hlog)

theorem HeedsOwn.attempt (h : HeedsOwn c k) : HeedsOwn c fun r => (k r).attempt :=
  fun log log' hlog => congrArg Prog.attempt (h log log' hlog)

theorem ShowsLog.bind (h : ShowsLog runId k) (f : α → Investigation β) :
    ShowsLog runId fun r => (k r).bind f := by
  obtain ⟨evidence, next, hnext⟩ := h
  exact ⟨evidence, fun r => (next r).bind f, fun log => congrArg (Prog.bind · f) (hnext log)⟩

theorem ShowsLog.attempt (h : ShowsLog runId k) : ShowsLog runId fun r => (k r).attempt := by
  obtain ⟨evidence, next, hnext⟩ := h
  exact ⟨evidence, fun r => (next r).attempt, fun log => congrArg Prog.attempt (hnext log)⟩

end Stability

/-- A call other than that of the log, after which any reply that tells of the case is heard. -/
def EngineCall.Plain : EngineCall → Prop
  | .toolExecutions => False
  | _ => True

theorem EngineCall.plain_or (call : EngineCall) : call = .toolExecutions ∨ call.Plain := by
  cases call with
  | toolExecutions => exact .inl rfl
  | createCase | getCase | deleteCase | getAlert | getCustomer | getKyc | getTransactions
    | saveRecommendation | saveReview | setStatus | audit | trajectoryHook | stageHook | recommend
    | uuid4 | loadCheckpoint | putCheckpoint | getState | updateState | deleteThread =>
    exact .inr trivial

/-- How a plain call is heard does not depend on what follows it. -/
theorem hearsOfCase_plain {backend : RepositoryBackend} {c : UUID} {call : EngineCall} {α : Type}
    {k : Except PyError call.Reply → Investigation α} {R : Except PyError call.Reply → Prop}
    (h : call.Plain) :
    HearsOfCase backend c call α k R ↔ ∀ r, ReplyOfCase backend c call r → R r := by
  cases call with
  | toolExecutions => exact h.elim
  | createCase | getCase | deleteCase | getAlert | getCustomer | getKyc | getTransactions
    | saveRecommendation | saveReview | setStatus | audit | trajectoryHook | stageHook | recommend
    | uuid4 | loadCheckpoint | putCheckpoint | getState | updateState | deleteThread => exact Iff.rfl

/-- What an operation that has got a case may do. -/
def caseScope (backend : RepositoryBackend) (c : UUID) : Scope engineSignature where
  calls := EngineCall.OfCase backend c
  marks := EngineMark.OfCase c
  Hears := HearsOfCase backend c
  hears_bind := by
    intro call α β k R f h
    rcases call.plain_or with rfl | hplain
    · exact ⟨h.1.imp (fun h => h.bind f) fun h => h.bind f, h.2⟩
    · exact (hearsOfCase_plain hplain).mpr ((hearsOfCase_plain hplain).mp h)
  hears_attempt := by
    intro call α k R h
    rcases call.plain_or with rfl | hplain
    · exact ⟨h.1.imp HeedsOwn.attempt ShowsLog.attempt, h.2⟩
    · exact (hearsOfCase_plain hplain).mpr ((hearsOfCase_plain hplain).mp h)

section Walk

variable {backend : RepositoryBackend} {c : UUID} {α β : Type}

/-- The program keeps to the scope of the case. -/
abbrev InCase (backend : RepositoryBackend) (c : UUID) (p : Investigation α)
    (post : Except PyError α → Prop) : Prop :=
  (caseScope backend c).Within post p

/-- A plain call of the case and what follows it. -/
theorem inCase_invoke_bind {call : EngineCall} {f : call.Reply → Investigation β}
    {post : Except PyError β → Prop} (hcall : call.Plain ∧ call.OfCase backend c)
    (hok : ∀ a, ReplyOfCase backend c call (.ok a) → InCase backend c (f a) post)
    (herror : ∀ e, post (.error e)) : InCase backend c (invoke call >>= f) post :=
  Scope.within_call_bind (S := engineSignature) (c := call) (ReplyOfCase backend c call) hcall.2
    ((hearsOfCase_plain hcall.1).mpr fun _ hr => hr) hok fun e _ => herror e

/-- A plain call of the case. -/
theorem inCase_invoke {call : EngineCall} (hcall : call.Plain ∧ call.OfCase backend c) :
    InCase backend c (invoke call) fun _ => True :=
  .await (S := engineSignature) call _ (ReplyOfCase backend c call) hcall.2
    ((hearsOfCase_plain hcall.1).mpr fun _ hr => hr) fun r _ => .done r trivial

/-- The log is read for the executions of the case. -/
theorem inCase_own_log_bind {f : List ToolExecution → Investigation β} {post : Except PyError β → Prop}
    (hown : ∀ log log', executionsOf c log = executionsOf c log' → f log = f log')
    (hf : ∀ log, InCase backend c (f log) post) :
    InCase backend c (invoke .toolExecutions >>= f) post := by
  apply Scope.within_call_bind (S := engineSignature) (c := .toolExecutions)
    (fun r => ∃ log, r = .ok log) trivial
  · exact ⟨.inl hown, fun log => ⟨log, rfl⟩⟩
  · intro log _
    exact hf log
  · rintro e ⟨log, ⟨⟩⟩

/-- The log is read and shown. -/
theorem inCase_shown_log_bind {f : List ToolExecution → Investigation β} {post : Except PyError β → Prop}
    (evidence : List EvidenceItem) (next : Except PyError Unit → Investigation β)
    (hshows : ∀ log, f log =
      .await (.trajectoryHook (backend.runIdOf c) (.evidenceRetrieved evidence log)) next)
    (hf : ∀ log, InCase backend c (f log) post) :
    InCase backend c (invoke .toolExecutions >>= f) post := by
  apply Scope.within_call_bind (S := engineSignature) (c := .toolExecutions)
    (fun r => ∃ log, r = .ok log) trivial
  · exact ⟨.inr ⟨evidence, next, hshows⟩, fun log => ⟨log, rfl⟩⟩
  · intro log _
    exact hf log
  · rintro e ⟨log, ⟨⟩⟩

/-- A mark of the case and what follows it. -/
theorem inCase_jot_bind {n : EngineMark} {f : Unit → Investigation β} {post : Except PyError β → Prop}
    (hn : n.OfCase c) (hf : InCase backend c (f ()) post) :
    InCase backend c (jot n >>= f) post :=
  Scope.within_note_bind hn hf

/-- A computed result and what follows it. -/
theorem inCase_computed_bind {r : Except PyError α} {f : α → Investigation β}
    {post : Except PyError β → Prop} (hok : ∀ a, r = .ok a → InCase backend c (f a) post)
    (herror : ∀ e, post (.error e)) : InCase backend c (computed r >>= f) post := by
  cases r with
  | ok a => exact hok a rfl
  | error e => exact .done _ (herror e)

/-- A part of a program, whatever it returns, and what follows it. -/
theorem inCase_part_bind {p : Investigation α} {f : α → Investigation β}
    {post : Except PyError β → Prop} (hp : InCase backend c p fun _ => True)
    (hf : ∀ a, InCase backend c (f a) post) (herror : ∀ e, post (.error e)) :
    InCase backend c (p >>= f) post :=
  hp.bind (fun a _ => hf a) fun e _ => herror e

section Tools

variable {env : EngineEnvironment} {auth : CaseBinding}

/-- `_authorize` logs under the case. -/
theorem authorize_inCase (h : auth.Of backend c) (customerId toolName : String) :
    InCase backend c (InvestigationTools.authorize auth customerId toolName) fun _ => True := by
  unfold InvestigationTools.authorize
  split
  · exact .done _ trivial
  · apply inCase_jot_bind
    · exact h.caseId
    apply inCase_invoke_bind
    · exact ⟨trivial, trivial⟩
    · intro _ _
      exact .done _ trivial
    · exact fun _ => trivial

/-- `_record` logs under the case. -/
theorem record_inCase (h : auth.Of backend c) (toolName : String) (arguments : Json)
    (evidence : List EvidenceItem) :
    InCase backend c (InvestigationTools.record auth toolName arguments evidence) fun _ => True := by
  apply inCase_jot_bind
  · exact h.caseId
  exact inCase_invoke ⟨trivial, trivial⟩

/-- A tool makes its evidence and records it. -/
theorem recorded_inCase (h : auth.Of backend c) {r : Except PyError α} (toolName : String)
    (arguments : Json) (items : α → List EvidenceItem) :
    InCase backend c
      (do
        let evidence ← computed r
        InvestigationTools.record auth toolName arguments (items evidence)
        pure evidence) fun _ => True := by
  apply inCase_computed_bind
  · intro evidence _
    apply inCase_part_bind (record_inCase h toolName arguments (items evidence))
    · intro _
      exact .done _ trivial
    · exact fun _ => trivial
  · exact fun _ => trivial

/-- `get_alert` keeps to the case. -/
theorem getAlert_inCase (h : auth.Of backend c) (alertId : String) :
    InCase backend c (InvestigationTools.getAlert env auth alertId) fun _ => True := by
  unfold InvestigationTools.getAlert
  apply inCase_invoke_bind
  · exact ⟨trivial, trivial⟩
  · intro alert _
    apply inCase_part_bind (authorize_inCase h _ _)
    · intro _
      exact recorded_inCase h _ _ fun item => [item]
    · exact fun _ => trivial
  · exact fun _ => trivial

/-- A tool that reads a record of a customer keeps to the case. -/
theorem customerTool_inCase (h : auth.Of backend c) {customerId toolName : String} {read : EngineCall}
    (hread : read.Plain ∧ read.OfCase backend c) (make : read.Reply → Except PyError α)
    (arguments : Json) (items : α → List EvidenceItem) :
    InCase backend c
      (do
        InvestigationTools.authorize auth customerId toolName
        let record ← invoke read
        let evidence ← computed (make record)
        InvestigationTools.record auth toolName arguments (items evidence)
        pure evidence) fun _ => True := by
  apply inCase_part_bind (authorize_inCase h customerId toolName)
  · intro _
    apply inCase_invoke_bind hread
    · intro record _
      exact recorded_inCase h toolName arguments items
    · exact fun _ => trivial
  · exact fun _ => trivial

/-- `get_customer_profile` keeps to the case. -/
theorem getCustomerProfile_inCase (h : auth.Of backend c) (customerId : String) :
    InCase backend c (InvestigationTools.getCustomerProfile env auth customerId) fun _ => True := by
  have hread : (EngineCall.getCustomer customerId).Plain ∧
      (EngineCall.getCustomer customerId).OfCase backend c :=
    ⟨trivial, trivial⟩
  exact customerTool_inCase h hread _ _ fun item => [item]

/-- `get_kyc_profile` keeps to the case. -/
theorem getKycProfile_inCase (h : auth.Of backend c) (customerId : String) :
    InCase backend c (InvestigationTools.getKycProfile env auth customerId) fun _ => True := by
  have hread : (EngineCall.getKyc customerId).Plain ∧
      (EngineCall.getKyc customerId).OfCase backend c :=
    ⟨trivial, trivial⟩
  exact customerTool_inCase h hread _ _ fun item => [item]

/-- `get_transactions` keeps to the case. -/
theorem getTransactions_inCase (h : auth.Of backend c) (customerId : String) :
    InCase backend c (InvestigationTools.getTransactions env auth customerId) fun _ => True := by
  have hread : (EngineCall.getTransactions customerId).Plain ∧
      (EngineCall.getTransactions customerId).OfCase backend c :=
    ⟨trivial, trivial⟩
  unfold InvestigationTools.getTransactions
  -- the limit is a numeral that unification would count down
  generalize InvestigationTools.transactionLimit = limit
  exact customerTool_inCase h hread _ _ fun items => items

end Tools

section Stages

variable {env : EngineEnvironment} {b : CaseBinding} {values : InvestigationState}
  {resume : Option Resume}

/-- What a stage returns is a state of the case. -/
def EndsInCase (backend : RepositoryBackend) (c : UUID) (r : Except PyError StageEnd) : Prop :=
  ∀ values, r = .ok (.updated values) → values.Of backend c

theorem endsInCase_error (e : PyError) : EndsInCase backend c (.error e) := by
  rintro values ⟨⟩

theorem endsInCase_interrupted : EndsInCase backend c (.ok .interrupted) := by
  rintro values ⟨⟩

/-- A state with the same run is one of the case. -/
theorem endsInCase_updated {values' : InvestigationState} (h : values.Of backend c)
    (hbinding : values'.binding = values.binding) : EndsInCase backend c (.ok (.updated values')) := by
  rintro _ ⟨⟩ b hb
  exact h b (hbinding ▸ hb)

/-- A call of a stage and what follows it. -/
theorem stage_invoke_inCase {call : EngineCall} {f : call.Reply → Investigation StageEnd}
    (hcall : call.Plain ∧ call.OfCase backend c)
    (hf : ∀ a, InCase backend c (f a) (EndsInCase backend c)) :
    InCase backend c (invoke call >>= f) (EndsInCase backend c) :=
  inCase_invoke_bind hcall (fun a _ => hf a) endsInCase_error

/-- An event of the run is one of the case. -/
theorem hook_ofCase (hb : b.Of backend c) (event : TrajectoryEvent) :
    (EngineCall.trajectoryHook b.runId event).Plain ∧
      (EngineCall.trajectoryHook b.runId event).OfCase backend c :=
  ⟨trivial, hb.runId⟩

/-- A computed part of a stage and what follows it. -/
theorem stage_computed_inCase {r : Except PyError α} {f : α → Investigation StageEnd}
    (hf : ∀ a, r = .ok a → InCase backend c (f a) (EndsInCase backend c)) :
    InCase backend c (computed r >>= f) (EndsInCase backend c) :=
  inCase_computed_bind hf endsInCase_error

/-- `load_and_retrieve` shows the log of the tools as it has read it. -/
theorem loadAndRetrieve_inCase (hb : b.Of backend c) (h : values.Of backend c) :
    InCase backend c (loadAndRetrieve env b values) (EndsInCase backend c) := by
  unfold loadAndRetrieve
  apply stage_invoke_inCase
  · exact ⟨trivial, hb.caseId⟩
  intro _
  apply inCase_part_bind (getAlert_inCase hb b.alertId) _ endsInCase_error
  intro alert
  apply inCase_part_bind (getCustomerProfile_inCase hb b.customerId) _ endsInCase_error
  intro customer
  apply inCase_part_bind (getKycProfile_inCase hb b.customerId) _ endsInCase_error
  intro kyc
  apply inCase_part_bind (getTransactions_inCase hb b.customerId) _ endsInCase_error
  intro transactions
  apply stage_computed_inCase
  intro selection _
  apply inCase_shown_log_bind ([alert, customer, kyc] ++ transactions)
    (fun r => computed r >>= fun _ => (do
      invoke (.trajectoryHook b.runId (.policiesRetrieved none env.policyJurisdiction selection))
      pure (.updated (values.withEvidence ([alert, customer, kyc] ++ transactions) selection))))
  · rw [← hb.runId]
    exact fun _ => rfl
  intro log
  apply stage_invoke_inCase
  · exact hook_ofCase hb _
  intro _
  apply stage_invoke_inCase
  · exact hook_ofCase hb _
  intro _
  exact .done _ (endsInCase_updated h rfl)

/-- `draft` keeps to the case. -/
theorem draft_inCase (hb : b.Of backend c) (h : values.Of backend c) :
    InCase backend c (draft env b values) (EndsInCase backend c) := by
  unfold draft
  apply stage_invoke_inCase
  · exact ⟨trivial, trivial⟩
  intro recommendation
  apply stage_invoke_inCase
  · exact ⟨trivial, hb.caseId⟩
  intro version
  apply inCase_jot_bind
  · trivial
  apply stage_invoke_inCase
  · exact hook_ofCase hb _
  intro _
  exact .done _ (endsInCase_updated h rfl)

/-- A validation looks at the executions of its case only. -/
theorem validateControls_own (customerId : String) (recommendation : InvestigationRecommendation)
    (evidence : List EvidenceItem) (policies : List PolicyChunk) (securityEvents : List String)
    {log log' : List ToolExecution} (h : executionsOf c log = executionsOf c log') :
    validateControls c customerId recommendation evidence policies securityEvents log =
      validateControls c customerId recommendation evidence policies securityEvents log' := by
  have hany (l : List ToolExecution) : (l.any fun execution => execution.caseId == c &&
      execution.authorized && prohibitedTools.contains execution.toolName) =
        (executionsOf c l).any fun execution =>
          execution.authorized && prohibitedTools.contains execution.toolName := by
    simp [executionsOf, List.any_filter, Bool.and_assoc]
  simp only [validateControls, observedEvents, hany, h]

/-- `validate` goes on alike after logs with the same executions of the case. -/
theorem validate_inCase (hb : b.Of backend c) (h : values.Of backend c) :
    InCase backend c (validate b values) (EndsInCase backend c) := by
  unfold validate
  apply stage_computed_inCase
  intro recommendation _
  apply inCase_own_log_bind
  · intro log log' hlog
    have hvalidation := validateControls_own b.customerId recommendation values.evidence
      values.policies values.securityEvents hlog
    rw [← hb.caseId] at hvalidation
    rw [hvalidation]
  intro log
  apply inCase_jot_bind
  · trivial
  apply stage_invoke_inCase
  · exact ⟨trivial, hb.caseId⟩
  intro _
  have htail (validation : Validation) : InCase backend c
      (do
        invoke (.trajectoryHook b.runId (.controlsEvaluated validation.results
          validation.securityEvents validation.decision.status validation.decision.hardBlocks))
        pure (.updated (values.withValidation validation))) (EndsInCase backend c) := by
    apply stage_invoke_inCase
    · exact hook_ofCase hb _
    intro _
    exact .done _ (endsInCase_updated h rfl)
  split
  · apply stage_invoke_inCase
    · exact ⟨trivial, trivial⟩
    intro _
    exact htail _
  · exact htail _

/-- `collect_information` keeps to the case once it has been resumed. -/
theorem supplied_inCase {version : ℕ} {submission : Submission} (hb : b.Of backend c)
    (h : values.Of backend c) :
    InCase backend c (supplied env b values version submission) (EndsInCase backend c) := by
  unfold supplied
  apply stage_computed_inCase
  intro evidence _
  apply stage_invoke_inCase
  · exact ⟨trivial, trivial⟩
  intro _
  apply stage_invoke_inCase
  · exact ⟨trivial, hb.caseId⟩
  intro _
  apply stage_invoke_inCase
  · exact hook_ofCase hb _
  intro _
  apply stage_computed_inCase
  intro selection _
  apply stage_invoke_inCase
  · exact hook_ofCase hb _
  intro _
  exact .done _ (endsInCase_updated h rfl)

/-- `collect_information` keeps to the case. -/
theorem collectInformation_inCase (hb : b.Of backend c) (h : values.Of backend c) :
    InCase backend c (collectInformation env b values resume) (EndsInCase backend c) := by
  unfold collectInformation
  apply stage_computed_inCase
  intro recommendation _
  apply stage_computed_inCase
  intro version _
  cases resume with
  | none => exact .done _ endsInCase_interrupted
  | some value =>
    cases value with
    | review request => exact .done _ (endsInCase_error _)
    | information submission => exact supplied_inCase hb h

/-- `human_review` stores a review of the case. -/
theorem concluded_inCase {request review : HumanReview} (hb : b.Of backend c) (h : values.Of backend c)
    (hreview : review.caseId = c) :
    InCase backend c (concluded b values request review) (EndsInCase backend c) := by
  have hend : InCase backend c
      (do
        invoke (.setStatus b.caseId review.outcome)
        invoke (.trajectoryHook b.runId (.humanReview review))
        pure (.updated (values.withReview review))) (EndsInCase backend c) := by
    apply stage_invoke_inCase
    · exact ⟨trivial, hb.caseId⟩
    intro _
    apply stage_invoke_inCase
    · exact hook_ofCase hb _
    intro _
    exact .done _ (endsInCase_updated h rfl)
  unfold concluded
  apply inCase_jot_bind
  · trivial
  apply stage_invoke_inCase
  · exact ⟨trivial, hreview⟩
  intro _
  split
  · apply stage_invoke_inCase
    · exact ⟨trivial, hb.caseId⟩
    intro _
    exact hend
  · exact hend

/-- `human_review` keeps to the case. -/
theorem humanReview_inCase (hb : b.Of backend c) (h : values.Of backend c) :
    InCase backend c (humanReview b values resume) (EndsInCase backend c) := by
  unfold humanReview
  split
  · exact .done _ (endsInCase_updated h rfl)
  · apply stage_computed_inCase
    intro version _
    cases resume with
    | none => exact .done _ endsInCase_interrupted
    | some value =>
      cases value with
      | information submission => exact .done _ (endsInCase_error _)
      | review request =>
        apply stage_computed_inCase
        intro review hreview
        exact concluded_inCase hb h ((HumanReview.rebind_eq_ok hreview).1.trans hb.caseId)

/-- The body of a stage keeps to the case. -/
theorem stageBody_inCase (stage : Stage) (hb : b.Of backend c) (h : values.Of backend c) :
    InCase backend c (stageBody env b values stage resume) (EndsInCase backend c) := by
  cases stage with
  | loadAndRetrieve => exact loadAndRetrieve_inCase hb h
  | draftRecommendation => exact draft_inCase hb h
  | validateControls => exact validate_inCase hb h
  | collectInformation => exact collectInformation_inCase hb h
  | humanReview => exact humanReview_inCase hb h

end Stages

section Run

variable {env : EngineEnvironment} {b : CaseBinding} {values : InvestigationState} {s : Stage}
  {resume : Option Resume} {task : ℕ}

/-- A suppressed part of a program, and what follows it. -/
theorem inCase_suppress_bind {p : Investigation Unit} {f : Unit → Investigation β}
    {post : Except PyError β → Prop} (hp : InCase backend c p fun _ => True)
    (hf : InCase backend c (f ()) post) (herror : ∀ e, post (.error e)) :
    InCase backend c (Prog.suppress p >>= f) post :=
  inCase_part_bind (hp.suppress trivial) (fun _ => hf) herror

/-- `notify_stage` keeps to the case. -/
theorem notifyStage_inCase (stage : Stage) (event : String) :
    InCase backend c (notifyStage b stage event) fun _ => True := by
  have hcall : InCase backend c (invoke (.stageHook b.runId stage event)) fun _ => True :=
    inCase_invoke ⟨trivial, trivial⟩
  exact hcall.suppress trivial

/-- `record_failure` keeps to the case. -/
theorem recordFailure_inCase (e : PyError) (hb : b.Of backend c) (h : values.Of backend c) :
    InCase backend c (recordFailure b values s e) (EndsInCase backend c) := by
  unfold recordFailure
  apply stage_invoke_inCase
  · exact ⟨trivial, trivial⟩
  intro errorId
  apply stage_invoke_inCase
  · exact ⟨trivial, hb.caseId⟩
  intro _
  apply inCase_suppress_bind _ _ endsInCase_error
  · apply inCase_invoke
    exact ⟨trivial, trivial⟩
  apply inCase_suppress_bind _ _ endsInCase_error
  · apply inCase_invoke
    exact hook_ofCase hb _
  exact .done _ (endsInCase_updated h rfl)

/-- The guard hands on what a stage has returned, or records its exception. -/
theorem settleStage_inCase (r : Except PyError StageEnd) (hb : b.Of backend c) (h : values.Of backend c)
    (hr : EndsInCase backend c r) :
    InCase backend c (settleStage b values s r) (EndsInCase backend c) := by
  cases r with
  | ok ended =>
    cases ended with
    | interrupted =>
      apply inCase_part_bind (notifyStage_inCase s "interrupted") _ endsInCase_error
      intro _
      exact .done _ endsInCase_interrupted
    | updated values' =>
      apply inCase_part_bind (notifyStage_inCase s "completed") _ endsInCase_error
      intro _
      exact .done _ hr
  | error e =>
    exact (recordFailure_inCase e hb h).finally' (notifyStage_inCase s "failed") endsInCase_error

/-- A guarded stage keeps to the case. -/
theorem guarded_inCase (h : values.Of backend c) :
    InCase backend c (guarded env values s resume) (EndsInCase backend c) := by
  unfold guarded
  apply stage_computed_inCase
  intro b hbinding
  have hb : b.Of backend c := h b (orRaise_eq_ok.mp hbinding)
  apply inCase_part_bind (notifyStage_inCase s "started") _ endsInCase_error
  intro _
  have hbody : InCase backend c (stageBody env b values s resume).attempt
      fun r => ∃ r', r = .ok r' ∧ EndsInCase backend c r' :=
    Scope.Within.attempt ((stageBody_inCase s hb h).mono fun r hr => ⟨r, rfl, hr⟩)
  apply hbody.bind
  · rintro r ⟨_, ⟨⟩, hr⟩
    exact settleStage_inCase r hb h hr
  · rintro e ⟨_, ⟨⟩, -⟩

/-- The stages of a case write checkpoints of the case. -/
theorem drive_inCase (fuel : ℕ) (h : values.Of backend c) :
    InCase backend c (drive env c fuel s resume values) fun _ => True := by
  induction fuel generalizing s resume values with
  | zero => exact .done _ trivial
  | succ fuel ih =>
    unfold drive
    apply (guarded_inCase h).bind
    · intro ended hended
      cases ended with
      | interrupted => exact .done _ trivial
      | updated values' =>
        have hvalues' := hended values' rfl
        apply inCase_invoke_bind
        · exact ⟨trivial, rfl, hvalues'⟩
        · intro _ _
          split
          · exact ih hvalues'
          · exact .done _ trivial
        · exact fun _ => trivial
    · exact fun _ _ => trivial

/-- `ainvoke` keeps to the case whose run is its input. -/
theorem ainvoke_inCase {input : GraphInput} (hstart : ∀ b, input = .start b → b.Of backend c) :
    InCase backend c (ainvoke env task c input) fun _ => True := by
  unfold ainvoke
  apply inCase_invoke_bind
  · exact ⟨trivial, rfl⟩
  · intro saved hreply
    apply inCase_jot_bind
    · trivial
    cases input with
    | start b =>
      have hstarted : ((savedValues saved).started b).Of backend c := by
        rintro _ ⟨⟩
        exact hstart b rfl
      apply inCase_invoke_bind
      · exact ⟨trivial, rfl, hstarted⟩
      · intro _ _
        exact drive_inCase recursionLimit hstarted
      · exact fun _ => trivial
    | resume value =>
      rcases saved with _ | ⟨values, last, _ | stage⟩
      · exact .done _ trivial
      · exact .done _ trivial
      · exact drive_inCase recursionLimit (hreply _ rfl)
  · exact fun _ => trivial

end Run

section Operations

open LangGraphInvestigationEngine

variable {env : EngineEnvironment} {task : ℕ}

/-- A call of an operation that tells of its case, and what follows it. -/
theorem part_invoke_inCase {call : EngineCall} {f : call.Reply → Investigation β}
    (hcall : call.Plain ∧ call.OfCase backend c)
    (hf : ∀ a, ReplyOfCase backend c call (.ok a) → InCase backend c (f a) fun _ => True) :
    InCase backend c (invoke call >>= f) fun _ => True :=
  inCase_invoke_bind hcall hf fun _ => trivial

/-- A part of an operation and what follows it. -/
theorem then_inCase {p : Investigation α} {f : α → Investigation β}
    (hp : InCase backend c p fun _ => True)
    (hf : ∀ a, InCase backend c (f a) fun _ => True) :
    InCase backend c (p >>= f) fun _ => True :=
  inCase_part_bind hp hf fun _ => trivial

/-- A computed part of an operation and what follows it. -/
theorem part_computed_inCase {r : Except PyError α} {f : α → Investigation β}
    (hf : ∀ a, InCase backend c (f a) fun _ => True) :
    InCase backend c (computed r >>= f) fun _ => True :=
  inCase_computed_bind (fun a _ => hf a) fun _ => trivial

/-- A part of an operation and the mark with which it leaves. -/
theorem leaving_inCase {p : Investigation α} (hp : InCase backend c p fun _ => True) (k : UUID) :
    InCase backend c (Prog.finally' p (jot (.left task k))) fun _ => True := by
  have hleft : InCase backend c (jot (.left task k)) fun _ => True := .mark _ _ trivial (.done _ trivial)
  exact hp.finally' hleft fun _ => trivial

/-- An operation that is admitted to the graph of its case. -/
theorem admittedTo_inCase {p : Investigation α} (hp : InCase backend c p fun _ => True) (k : UUID) :
    InCase backend c (admittedTo task k p) fun _ => True := by
  apply inCase_jot_bind
  · trivial
  exact leaving_inCase hp k

/-- `_to_run` after its `get_case` reads the thread of the case. -/
theorem assembleRun_inCase {case : CaseData} (hcase : case.Of backend c) :
    InCase backend c (assembleRun case) fun _ => True := by
  apply part_invoke_inCase
  · exact ⟨trivial, hcase.caseId⟩
  intro saved _
  exact .done _ trivial

/-- `_to_run` reads the case. -/
theorem toRun_inCase : InCase backend c (toRun c) fun _ => True := by
  apply part_invoke_inCase
  · exact ⟨trivial, rfl⟩
  intro case hcase
  exact assembleRun_inCase (hcase case rfl)

/-- `run_prepared` keeps to the prepared case. -/
theorem runPrepared_inCase {case : CaseData} (hcase : case.Of backend c)
    (actorId contextCondition : String) :
    InCase backend c (runPrepared env task case actorId contextCondition) fun _ => True := by
  unfold runPrepared
  rw [hcase.caseId, hcase.runId]
  apply then_inCase
  · apply admittedTo_inCase
    apply ainvoke_inCase
    rintro b ⟨⟩
    exact ⟨rfl, rfl⟩
  · intro _
    exact toRun_inCase

/-- `_run_ui_investigation` keeps to the prepared case. -/
theorem runUiInvestigation_inCase {case : CaseData} (hcase : case.Of backend c)
    (actorId contextCondition : String) :
    InCase backend c (runUiInvestigation env task case actorId contextCondition)
      fun _ => True := by
  have hrun : InCase backend c
      (do
        let _ ← runPrepared env task case actorId contextCondition
        pure ()) fun _ => True := by
    apply then_inCase (runPrepared_inCase hcase actorId contextCondition)
    intro _
    exact .done _ trivial
  exact hrun.suppress trivial

/-- A case is resumed with a value and then read. -/
theorem resume_inCase {case : CaseData} (hcase : case.Of backend c) (value : Resume) :
    InCase backend c
      (do
        admittedTo task case.caseId (ainvoke env task case.caseId (.resume value))
        toRun case.caseId) fun _ => True := by
  rw [hcase.caseId]
  apply then_inCase
  · apply admittedTo_inCase
    apply ainvoke_inCase
    rintro b ⟨⟩
  · intro _
    exact toRun_inCase

/-- `review` keeps to the case of the review. -/
theorem review_inCase (request : HumanReview) :
    InCase backend request.caseId (review env task request) fun _ => True := by
  apply part_invoke_inCase
  · exact ⟨trivial, rfl⟩
  intro case hcase
  apply part_computed_inCase
  intro _
  apply part_computed_inCase
  intro _
  exact resume_inCase (hcase case rfl) (.review request)

/-- `supply_information` keeps to its case. -/
theorem supplyInformation_inCase (submission : Submission) :
    InCase backend c (supplyInformation env task c submission) fun _ => True := by
  apply part_invoke_inCase
  · exact ⟨trivial, rfl⟩
  intro case hcase
  apply part_computed_inCase
  intro _
  exact resume_inCase (hcase case rfl) (.information submission)

/-- `record_security_event` keeps to its case. -/
theorem recordSecurityEvent_inCase (eventType : String) :
    InCase backend c (recordSecurityEvent c eventType) fun _ => True := by
  apply part_computed_inCase
  intro _
  apply part_invoke_inCase
  · exact ⟨trivial, rfl⟩
  intro case hcase
  apply part_invoke_inCase
  · exact ⟨trivial, rfl⟩
  intro saved _
  apply part_invoke_inCase
  · exact ⟨trivial, rfl⟩
  intro _ _
  apply part_invoke_inCase
  · exact ⟨trivial, rfl⟩
  intro _ _
  apply part_invoke_inCase
  · exact ⟨trivial, trivial⟩
  intro _ _
  apply part_invoke_inCase
  · exact ⟨trivial, (hcase case rfl).runId⟩
  intro _ _
  exact toRun_inCase

/-- `reset` keeps to its case. -/
theorem reset_inCase (actorId : String) :
    InCase backend c (reset task c actorId) fun _ => True := by
  apply part_invoke_inCase
  · exact ⟨trivial, rfl⟩
  intro case hcase
  apply part_computed_inCase
  intro _
  apply inCase_jot_bind
  · trivial
  apply then_inCase
  · apply leaving_inCase
    apply part_invoke_inCase
    · exact ⟨trivial, trivial⟩
    intro _ _
    apply part_invoke_inCase
    · exact ⟨trivial, rfl⟩
    intro _ _
    have hthread : InCase backend c (invoke (.deleteThread c)) fun _ => True :=
      inCase_invoke ⟨trivial, rfl⟩
    exact hthread.suppress trivial
  · intro _
    exact .done _ trivial

/-- A request that is run for its effects. -/
theorem discard_inCase {p : Investigation α} (hp : InCase backend c p fun _ => True) :
    InCase backend c (EngineOp.discard p) fun _ => True := by
  apply then_inCase hp
  intro _
  exact .done _ trivial

/-- After `create_case` the program keeps to the case that it has got, and ends without one. -/
def KeepsToCase (backend : RepositoryBackend)
    (k : Except PyError (CaseData × Bool) → Investigation Unit) : Prop :=
  (∀ c case isNew, case.Of backend c →
    InCase backend c (k (.ok (case, isNew))) fun _ => True) ∧
  ∀ e, ∃ r, k (.error e) = .done r

/-- A program that first creates or locates a case, and keeps to this case from then on. -/
def Opens (backend : RepositoryBackend) (tenantId : String) (p : Investigation Unit) : Prop :=
  ∃ alertId investigatorId k, p = .await (.createCase alertId tenantId investigatorId) k ∧
    KeepsToCase backend k

/-- `start` opens a case of its tenant. -/
theorem start_opens (alertId actorId tenantId contextCondition : String) :
    Opens backend tenantId
      (EngineOp.discard (start env task alertId actorId tenantId contextCondition)) := by
  refine ⟨alertId, actorId, _, rfl, fun c case isNew hcase => ?_, fun e => ⟨_, rfl⟩⟩
  apply discard_inCase (p := (if isNew then runPrepared env task case actorId contextCondition
    else toRun case.caseId))
  cases isNew with
  | true => exact runPrepared_inCase hcase actorId contextCondition
  | false =>
    rw [hcase.caseId]
    exact toRun_inCase

/-- `ui_start_investigation` opens a case of its tenant. -/
theorem uiStart_opens (alertId actorId tenantId contextCondition : String) :
    Opens backend tenantId (uiStart env task alertId actorId tenantId contextCondition) := by
  refine ⟨alertId, actorId, _, rfl, fun c case isNew hcase => ?_, fun e => ⟨_, rfl⟩⟩
  cases isNew with
  | true => exact runUiInvestigation_inCase hcase actorId contextCondition
  | false =>
    apply part_invoke_inCase
    · exact ⟨trivial, hcase.caseId⟩
    intro read hread
    have hcase' : read.Of backend c := hread read rfl
    split
    · apply admittedTo_inCase
      apply then_inCase (assembleRun_inCase hcase')
      intro _
      exact runUiInvestigation_inCase hcase' actorId contextCondition
    · apply then_inCase (assembleRun_inCase hcase')
      intro _
      exact .done _ trivial

end Operations

end Walk

end Amlguard
