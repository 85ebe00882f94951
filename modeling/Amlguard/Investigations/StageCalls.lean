import Amlguard.Investigations.Conduct
import Amlguard.Library.Execution

/-!
# The calls of a stage

Which calls the body of a stage may make, whatever it is answered. What a stage leaves alone is read off
from this.
-/

namespace Amlguard

open Awaited Prog

/-- The calls that the body of a stage makes. -/
def EngineCall.InStage : Stage → EngineCall → Prop
  | .loadAndRetrieve, .getAlert _ | .loadAndRetrieve, .getCustomer _ | .loadAndRetrieve, .getKyc _
  | .loadAndRetrieve, .getTransactions _ | .loadAndRetrieve, .audit _ _ _ _
  | .loadAndRetrieve, .setStatus _ _ | .loadAndRetrieve, .toolExecutions
  | .loadAndRetrieve, .trajectoryHook _ _ => True
  | .draftRecommendation, .recommend _ | .draftRecommendation, .saveRecommendation _ _
  | .draftRecommendation, .trajectoryHook _ _ => True
  | .validateControls, .toolExecutions | .validateControls, .setStatus _ _
  | .validateControls, .audit _ _ _ _ | .validateControls, .trajectoryHook _ _ => True
  | .collectInformation, .audit _ _ _ _ | .collectInformation, .setStatus _ _
  | .collectInformation, .trajectoryHook _ _ => True
  | .humanReview, .saveReview _ | .humanReview, .saveRecommendation _ _ | .humanReview, .setStatus _ _
  | .humanReview, .trajectoryHook _ _ => True
  | _, _ => False

/-- A program that makes only the calls of a stage. -/
abbrev StageProgram {α : Type} (stage : Stage) (p : Investigation α) : Prop :=
  p.Only (EngineCall.InStage stage) fun _ => True

variable {env : EngineEnvironment} {b : CaseBinding} {values : InvestigationState}
  {resume : Option Resume} {stage : Stage} {α β : Type}

theorem inStage_bind {p : Investigation α} {f : α → Investigation β} (hp : StageProgram stage p)
    (hf : ∀ a, StageProgram stage (f a)) : StageProgram stage (p >>= f) := hp.bind hf

theorem inStage_computed (r : Except PyError α) : StageProgram stage (computed r) :=
  only_settleResult (S := engineSignature) r

theorem inStage_pure (a : α) : StageProgram stage (pure a) := only_pure (S := engineSignature) a

theorem inStage_jot (n : EngineMark) : StageProgram stage (jot n) :=
  (only_note (S := engineSignature) n).mpr trivial

theorem inStage_invoke {call : EngineCall} (h : call.InStage stage) : StageProgram stage (invoke call) :=
  (only_call (S := engineSignature) call).mpr h

/-- The calls of a tool are calls of the first stage. -/
theorem inStage_of_gathers {p : Investigation α} (h : GatheringProgram p) :
    StageProgram .loadAndRetrieve p := by
  apply h.mono
  · intro call hgathers
    cases call with
    | getAlert | getCustomer | getKyc | getTransactions | audit => trivial
    | _ => exact absurd hgathers not_false
  · exact fun _ _ => trivial

/-- The calls of `load_and_retrieve`. -/
theorem loadAndRetrieve_calls : StageProgram .loadAndRetrieve (loadAndRetrieve env b values) := by
  refine inStage_bind (inStage_invoke trivial) fun _ => ?_
  refine inStage_bind (inStage_of_gathers (getAlert_gathers _)) fun alert => ?_
  refine inStage_bind (inStage_of_gathers (getCustomerProfile_gathers _)) fun customer => ?_
  refine inStage_bind (inStage_of_gathers (getKycProfile_gathers _)) fun kyc => ?_
  refine inStage_bind (inStage_of_gathers (getTransactions_gathers _)) fun transactions => ?_
  refine inStage_bind (inStage_computed _) fun selection => ?_
  refine inStage_bind (inStage_invoke trivial) fun executions => ?_
  refine inStage_bind (inStage_invoke trivial) fun _ => ?_
  refine inStage_bind (inStage_invoke trivial) fun _ => ?_
  exact inStage_pure _

/-- The calls of `draft`. -/
theorem draft_calls : StageProgram .draftRecommendation (draft env b values) := by
  refine inStage_bind (inStage_invoke trivial) fun recommendation => ?_
  refine inStage_bind (inStage_invoke trivial) fun version => ?_
  refine inStage_bind (inStage_jot _) fun _ => ?_
  refine inStage_bind (inStage_invoke trivial) fun _ => ?_
  exact inStage_pure _

/-- The calls of `validate`. -/
theorem validate_calls : StageProgram .validateControls (validate b values) := by
  refine inStage_bind (inStage_computed _) fun recommendation => ?_
  refine inStage_bind (inStage_invoke trivial) fun executions => ?_
  refine inStage_bind (inStage_jot _) fun _ => ?_
  refine inStage_bind (inStage_invoke trivial) fun _ => ?_
  dsimp only
  split
  · refine inStage_bind (inStage_invoke trivial) fun _ => ?_
    refine inStage_bind (inStage_invoke trivial) fun _ => ?_
    exact inStage_pure _
  · refine inStage_bind (inStage_invoke trivial) fun _ => ?_
    exact inStage_pure _

/-- The calls of `collect_information`. -/
theorem collectInformation_calls :
    StageProgram .collectInformation (collectInformation env b values resume) := by
  refine inStage_bind (inStage_computed _) fun _ => ?_
  refine inStage_bind (inStage_computed _) fun version => ?_
  split
  · exact inStage_pure _
  · exact inStage_computed _
  · refine inStage_bind (inStage_computed _) fun evidence => ?_
    refine inStage_bind (inStage_invoke trivial) fun _ => ?_
    refine inStage_bind (inStage_invoke trivial) fun _ => ?_
    refine inStage_bind (inStage_invoke trivial) fun _ => ?_
    refine inStage_bind (inStage_computed _) fun selection => ?_
    refine inStage_bind (inStage_invoke trivial) fun _ => ?_
    exact inStage_pure _

/-- The calls of `human_review`, once it is resumed with a review. -/
theorem concluded_calls {request review : HumanReview} :
    StageProgram .humanReview (concluded b values request review) := by
  refine inStage_bind (inStage_jot _) fun _ => ?_
  refine inStage_bind (inStage_invoke trivial) fun _ => ?_
  split
  · refine inStage_bind (inStage_invoke trivial) fun _ => ?_
    refine inStage_bind (inStage_invoke trivial) fun _ => ?_
    refine inStage_bind (inStage_invoke trivial) fun _ => ?_
    exact inStage_pure _
  · refine inStage_bind (inStage_invoke trivial) fun _ => ?_
    refine inStage_bind (inStage_invoke trivial) fun _ => ?_
    exact inStage_pure _

/-- The calls of `human_review`. -/
theorem humanReview_calls : StageProgram .humanReview (humanReview b values resume) := by
  unfold humanReview
  split
  · exact inStage_pure _
  · refine inStage_bind (inStage_computed _) fun version => ?_
    split
    · exact inStage_pure _
    · exact inStage_computed _
    · refine inStage_bind (inStage_computed _) fun review => ?_
      exact concluded_calls

/-- The body of a stage makes only the calls of that stage. -/
theorem stageBody_calls (stage : Stage) : StageProgram stage (stageBody env b values stage resume) := by
  cases stage with
  | loadAndRetrieve => exact loadAndRetrieve_calls
  | draftRecommendation => exact draft_calls
  | validateControls => exact validate_calls
  | collectInformation => exact collectInformation_calls
  | humanReview => exact humanReview_calls

/-- The body of a stage makes no call that its stage does not make. -/
theorem stageBody_only {calls : EngineCall → Prop} (stage : Stage)
    (h : ∀ call : EngineCall, call.InStage stage → calls call) :
    (stageBody env b values stage resume).Only calls fun _ => True :=
  (stageBody_calls stage).mono h fun _ _ => trivial

/-- The calls that the record of a failure makes. -/
def EngineCall.InFailure : EngineCall → Prop
  | .uuid4 | .setStatus _ _ | .audit _ _ _ _ | .trajectoryHook _ _ => True
  | _ => False

/-- The record of a failure makes only these calls. -/
theorem recordFailure_only {calls : EngineCall → Prop} {e : PyError}
    (h : ∀ call : EngineCall, call.InFailure → calls call) :
    (recordFailure b values stage e).Only calls fun _ => True := by
  have hcall : ∀ call : EngineCall, call.InFailure → (invoke call).Only calls fun _ => True :=
    fun call hcall => (only_call (S := engineSignature) call).mpr (h call hcall)
  refine (hcall _ ?_).bind fun errorId => (hcall _ ?_).bind fun _ => ?_
  · trivial
  · trivial
  refine (hcall _ ?_).suppress.bind fun _ => (hcall _ ?_).suppress.bind fun _ => ?_
  · trivial
  · trivial
  exact only_pure (S := engineSignature) _

end Amlguard
