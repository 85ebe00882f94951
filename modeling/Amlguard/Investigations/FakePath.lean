import Amlguard.Investigations.FakeModel
import Amlguard.Investigations.OutOfTurn
import Amlguard.Investigations.Provenance

/-!
# The path of the deterministic model

What a run of the graph has written last is tracked along its stages: the status of the case, the
checkpoint, and a draft that has not been validated. A state fits the stage that runs next when its
evidence is that of the bank, and its draft and its status are those that the model makes of it.

The replies are only expected to come from the bank, from the model, and from threads that fit.
-/

namespace Amlguard

open Awaited Prog FakeStructuredLLM

/-- The bank makes the model ask for information about an alert of a customer. -/
def SyntheticBank.Asks (py : PyBuiltins) (bank : SyntheticBank) (alertId customerId : String)
    (supplied : Prop) : Prop :=
  (∃ kyc, bank.kycRecords.find? (fun kyc => kyc.customerId == customerId) = some kyc ∧
      KycMissing kyc.document) ∧ ¬supplied ∨
    ¬∃ alert, bank.alerts.find? (fun alert => alert.alertId == alertId) = some alert ∧
      BuiltIn py alert.document

/-- The evidence has the alert and the KYC record of the bank. -/
structure Gathered (bank : SyntheticBank) (b : CaseBinding) (evidence : List EvidenceItem) :
    Prop where
  alert : ∃ item alert, (itemsOfType evidence "alert").head? = some item ∧
    bank.alerts.find? (fun alert => alert.alertId == b.alertId) = some alert ∧
      item.content = alert.document
  kyc : ∃ item kyc, (itemsOfType evidence "kyc_profile").head? = some item ∧
    bank.kycRecords.find? (fun kyc => kyc.customerId == b.customerId) = some kyc ∧
      item.content = kyc.document

/-- The evidence has supplemental information. -/
def Supplied (evidence : List EvidenceItem) : Prop :=
  itemsOfType evidence "supplemental_information" ≠ []

/-- On gathered evidence the model asks when the bank makes it. -/
theorem Gathered.requests_iff {py : PyBuiltins} {bank : SyntheticBank} {b : CaseBinding}
    {evidence : List EvidenceItem} (h : Gathered bank b evidence) :
    Requests py evidence ↔ bank.Asks py b.alertId b.customerId (Supplied evidence) := by
  obtain ⟨item, alert, hitem, halert, hcontent⟩ := h.alert
  obtain ⟨item', kyc, hitem', hkyc, hcontent'⟩ := h.kyc
  unfold Requests SyntheticBank.Asks Supplied
  simp [hitem, halert, hcontent, hitem', hkyc, hcontent']

/-- The stages that wait for a value to be resumed with. -/
def Stage.Interrupts (stage : Stage) : Prop := stage = .collectInformation ∨ stage = .humanReview

/-- A state fits the stage that runs next. -/
structure Fit (py : PyBuiltins) (bank : SyntheticBank) (b : CaseBinding) (supplied : Prop)
    (stage : Stage) (values : InvestigationState) : Prop where
  binding : values.binding = some b
  events : values.securityEvents = []
  inScope : ∀ item ∈ values.evidence, item.caseId = b.caseId ∧ item.customerId = b.customerId
  fresh : stage = .loadAndRetrieve → ¬supplied
  gathered : stage ≠ .loadAndRetrieve →
    Gathered bank b values.evidence ∧ (Supplied values.evidence ↔ supplied)
  live : stage = .draftRecommendation → values.status ≠ .failed
  drafted : stage = .validateControls → ∃ recommendation,
    values.recommendation = some recommendation ∧
      Cited recommendation values.evidence values.policies ∧
        (recommendation.recommendation = .requestMoreInformation ↔ Requests py values.evidence)
  asks : stage = .collectInformation →
    values.status = .waitingForInformation ∧ bank.Asks py b.alertId b.customerId supplied
  answers : stage = .humanReview →
    values.status = .waitingForHumanReview ∧ ¬bank.Asks py b.alertId b.customerId supplied

/-- A thread whose state fits the stage with which it goes on. -/
def Checkpoint.Fits (py : PyBuiltins) (bank : SyntheticBank) (c : UUID) (checkpoint : Checkpoint) :
    Prop :=
  ∀ b, checkpoint.values.binding = some b → b.caseId = c ∧
    ∀ stage, checkpoint.next = some stage → ∃ supplied, Fit py bank b supplied stage checkpoint.values

/-- A checkpoint with which a run ends: a stage has failed, a review has completed the case, or a
stage waits. -/
inductive Checkpoint.Rests (py : PyBuiltins) (bank : SyntheticBank) (b : CaseBinding)
    (supplied reviewed : Prop) (checkpoint : Checkpoint) : Prop where
  | failed (hnext : checkpoint.next = none) (hstatus : checkpoint.values.status = .failed)
      (herrors : checkpoint.values.errors ≠ [])
  | completed (hnext : checkpoint.next = none) (hstatus : checkpoint.values.status = .completed)
      (hreviewed : reviewed)
  | waits (stage : Stage) (hnext : checkpoint.next = some stage) (hstage : stage.Interrupts)
      (hfit : Fit py bank b supplied stage checkpoint.values)

/-- What a run of the graph has written last. -/
structure Wake where
  status : Option (UUID × CaseStatus) := none
  checkpoint : Option (UUID × Checkpoint) := none
  pending : Option (UUID × ℕ) := none

namespace Wake

/-- What has been written last after a call. -/
def after (m : Wake) : (call : EngineCall) → Except PyError call.Reply → Wake
  | .setStatus c status, .ok _ => { m with status := some (c, status) }
  | .putCheckpoint c checkpoint, .ok _ => { m with checkpoint := some (c, checkpoint) }
  | .createCase _ _ _, _ => { m with status := none }
  | .deleteThread _, _ => { m with checkpoint := none }
  | _, _ => m

/-- A mark is one that a run may write: executions are clean, a draft follows no other draft that is
not validated, and a decision is ready and is that of the draft. -/
def Marks (m : Wake) : EngineMark → Wake → Prop
  | .executed execution, m' => execution.Clean ∧ m' = m
  | .drafted c version, m' => m.pending = none ∧ m' = { m with pending := some (c, version) }
  | .decided c version validation, m' =>
    validation.decision = ⟨.ready, []⟩ ∧
      (∀ draft, m.pending = some draft → version = some draft.2 ∧ c = draft.1) ∧
        m' = { m with pending := none }
  | _, m' => m' = m

/-- The run has ended with a checkpoint and the status of its state. -/
def Left (m : Wake) (py : PyBuiltins) (bank : SyntheticBank) (b : CaseBinding)
    (supplied reviewed : Prop) : Prop :=
  ∃ checkpoint, m.checkpoint = some (b.caseId, checkpoint) ∧
    m.status = some (b.caseId, checkpoint.values.status) ∧ checkpoint.values.binding = some b ∧
      checkpoint.Rests py bank b supplied reviewed ∧
        (checkpoint.values.status ≠ .failed → m.pending = none)

/-- A run that has ended without a review has ended. -/
theorem Left.mono {m : Wake} {py : PyBuiltins} {bank : SyntheticBank} {b : CaseBinding}
    {supplied reviewed reviewed' : Prop} (h : m.Left py bank b supplied reviewed)
    (hreviewed : reviewed → reviewed') : m.Left py bank b supplied reviewed' := by
  obtain ⟨checkpoint, hcheckpoint, hstatus, hbinding, hrests, hpending⟩ := h
  refine ⟨checkpoint, hcheckpoint, hstatus, hbinding, ?_, hpending⟩
  cases hrests with
  | failed hnext hfailed herrors => exact .failed hnext hfailed herrors
  | completed hnext hcompleted hr => exact .completed hnext hcompleted (hreviewed hr)
  | waits stage hnext hstage hfit => exact .waits stage hnext hstage hfit

end Wake

/-- A checkpoint that is written fits its thread, and no security event is recorded. -/
def MayWrite (py : PyBuiltins) (bank : SyntheticBank) : EngineCall → Prop
  | .putCheckpoint c checkpoint => checkpoint.Fits py bank c
  | .updateState _ _ _ => False
  | _ => True

/-- What is expected of replies: records of the bank, answers of the deterministic model, a clean log
of the tools, and threads that fit. -/
def Answered (py : PyBuiltins) (bank : SyntheticBank) :
    (call : EngineCall) → Except PyError call.Reply → Prop
  | .getAlert alertId, r => ∀ alert, r = .ok alert →
    bank.alerts.find? (fun alert => alert.alertId == alertId) = some alert
  | .getKyc customerId, r => ∀ kyc, r = .ok kyc →
    bank.kycRecords.find? (fun kyc => kyc.customerId == customerId) = some kyc
  | .recommend request, r => ∀ answer, r = .ok answer → recommend py request = .ok answer
  | .toolExecutions, r => ∃ executions, r = .ok executions ∧ ∀ e ∈ executions, e.Clean
  | .loadCheckpoint c _, r => ∀ checkpoint, r = .ok (some checkpoint) → checkpoint.Fits py bank c
  | _, _ => True

/-- The path of the engine's operations with the deterministic model. -/
def fakePath (py : PyBuiltins) (bank : SyntheticBank) : Diagram engineSignature Wake where
  onMark m n m' := m.Marks n m'
  onReply m call r m' := MayWrite py bank call ∧ m' = m.after call r
  expected := Answered py bank

section Walks

variable {py : PyBuiltins} {bank : SyntheticBank} {α β : Type} {m : Wake}

/-- The program keeps to the path. -/
abbrev Walks (py : PyBuiltins) (bank : SyntheticBank) (p : Investigation α)
    (post : Except PyError α → Wake → Prop) (m : Wake) : Prop :=
  (fakePath py bank).Follows p post m

/-- A sequence walks through both of its parts. -/
theorem walks_bind {p : Investigation α} {f : α → Investigation β}
    {mid : Except PyError α → Wake → Prop} {post : Except PyError β → Wake → Prop}
    (hp : Walks py bank p mid m) (hok : ∀ a m, mid (.ok a) m → Walks py bank (f a) post m)
    (herror : ∀ e m, mid (.error e) m → post (.error e) m) : Walks py bank (p >>= f) post m := by
  apply (Diagram.follows_bind (D := fakePath py bank) p f post m).mpr
  apply hp.mono
  intro r m hm
  cases r with
  | ok a => exact hok a m hm
  | error e => exact herror e m hm

/-- A returned value. -/
theorem walks_pure {a : α} {post : Except PyError α → Wake → Prop} (h : post (.ok a) m) :
    Walks py bank (pure a) post m :=
  (Diagram.follows_pure (D := fakePath py bank) a post m).mpr h

/-- A result that has been computed. -/
theorem walks_computed {r : Except PyError α} {post : Except PyError α → Wake → Prop}
    (h : post r m) : Walks py bank (computed r) post m :=
  (Diagram.follows_settleResult (D := fakePath py bank) r post m).mpr h

/-- A computed result and what follows it. -/
theorem walks_computed_bind {r : Except PyError α} {f : α → Investigation β}
    {post : Except PyError β → Wake → Prop} (hok : ∀ a, r = .ok a → Walks py bank (f a) post m)
    (herror : ∀ e, r = .error e → post (.error e) m) :
    Walks py bank (computed r >>= f) post m := by
  have hr : Walks py bank (computed r) (fun r' m' => r' = r ∧ m' = m) m := walks_computed ⟨rfl, rfl⟩
  apply walks_bind hr
  · rintro a _ ⟨ha, rfl⟩
    exact hok a ha.symm
  · rintro e _ ⟨he, rfl⟩
    exact herror e he.symm

/-- A call and what follows it. -/
theorem walks_invoke_bind {call : EngineCall} {f : call.Reply → Investigation β}
    {post : Except PyError β → Wake → Prop} (hcall : MayWrite py bank call)
    (hok : ∀ a, Answered py bank call (.ok a) → Walks py bank (f a) post (m.after call (.ok a)))
    (herror : ∀ e, post (.error e) (m.after call (.error e))) :
    Walks py bank (invoke call >>= f) post m := by
  have hreply : Walks py bank (invoke call)
      (fun r m' => Answered py bank call r ∧ m' = m.after call r) m :=
    (Diagram.follows_call (D := fakePath py bank) call _ m).mpr
      fun r hr => ⟨_, ⟨hcall, rfl⟩, hr, rfl⟩
  apply walks_bind hreply
  · rintro a _ ⟨ha, rfl⟩
    exact hok a ha
  · rintro e _ ⟨-, rfl⟩
    exact herror e

/-- A mark and what follows it. -/
theorem walks_jot_bind (m' : Wake) {n : EngineMark} {f : Unit → Investigation β}
    {post : Except PyError β → Wake → Prop} (hn : m.Marks n m') (hf : Walks py bank (f ()) post m') :
    Walks py bank (jot n >>= f) post m := by
  have hmark : Walks py bank (jot n) (fun r m'' => r = .ok () ∧ m'' = m') m :=
    (Diagram.follows_note (D := fakePath py bank) n _ m).mpr ⟨m', hn, rfl, rfl⟩
  apply walks_bind hmark
  · rintro _ _ ⟨-, rfl⟩
    exact hf
  · rintro e _ ⟨he, -⟩
    cases he

/-- A call that is not tracked. -/
def EngineCall.Untracked : EngineCall → Prop
  | .setStatus _ _ | .putCheckpoint _ _ | .createCase _ _ _ | .deleteThread _
  | .updateState _ _ _ => False
  | _ => True

/-- A mark that is not tracked. -/
def Unmarked : EngineMark → Prop
  | .executed execution => execution.Clean
  | .drafted _ _ | .decided _ _ _ => False
  | _ => True

/-- Calls that are not tracked change nothing. -/
theorem EngineCall.Untracked.mayWrite {call : EngineCall} (h : call.Untracked) :
    MayWrite py bank call := by
  cases call <;> first | exact h.elim | trivial

theorem EngineCall.Untracked.after {call : EngineCall} (h : call.Untracked)
    (r : Except PyError call.Reply) : m.after call r = m := by
  cases call <;> first | exact h.elim | rfl

/-- A program of calls and marks that are not tracked. -/
theorem walks_untracked {p : Investigation α} (hp : p.Only EngineCall.Untracked Unmarked) :
    Walks py bank p (fun _ m' => m' = m) m := by
  apply Diagram.follows_of_only (D := fakePath py bank) (I := fun m' => m' = m) hp rfl
  · rintro _ n rfl hn
    refine ⟨_, ?_, rfl⟩
    cases n with
    | executed => exact ⟨hn, rfl⟩
    | drafted | decided => exact hn.elim
    | admitted | loaded | resetting | left | reviewed => rfl
  · rintro _ call r rfl hcall
    exact ⟨_, ⟨hcall.mayWrite, rfl⟩, hcall.after r⟩

/-- A call that is not tracked and what follows it. -/
theorem walks_call_bind {call : EngineCall} {f : call.Reply → Investigation β}
    {post : Except PyError β → Wake → Prop} (hcall : call.Untracked)
    (hok : ∀ a, Answered py bank call (.ok a) → Walks py bank (f a) post m)
    (herror : ∀ e, post (.error e) m) : Walks py bank (invoke call >>= f) post m := by
  apply walks_invoke_bind hcall.mayWrite
  · intro a ha
    rw [hcall.after]
    exact hok a ha
  · intro e
    rw [hcall.after]
    exact herror e

/-- A suppressed program that is not tracked and what follows it. -/
theorem walks_suppress_bind {p : Investigation Unit} (hp : p.Only EngineCall.Untracked Unmarked)
    {f : Unit → Investigation β} {post : Except PyError β → Wake → Prop}
    (hf : Walks py bank (f ()) post m) : Walks py bank (Prog.suppress p >>= f) post m := by
  apply (Diagram.follows_bind (D := fakePath py bank) (Prog.suppress p) f post m).mpr
  apply (Diagram.follows_suppress (D := fakePath py bank) p _ m).mpr
  apply (walks_untracked hp).mono
  rintro r _ rfl
  exact hf

/-- A block and its cleanup, which is not tracked. -/
theorem walks_finally {p : Investigation α} {cleanup : Investigation Unit}
    {post : Except PyError α → Wake → Prop} (hp : Walks py bank p post m)
    (hcleanup : cleanup.Only EngineCall.Untracked Unmarked)
    (herror : ∀ r e m, post r m → post (.error e) m) :
    Walks py bank (Prog.finally' p cleanup) post m := by
  apply (Diagram.follows_finally' (D := fakePath py bank) p cleanup post m).mpr
  apply hp.mono
  intro r m hpost
  apply (walks_untracked hcleanup).mono
  rintro r' _ rfl
  cases r' with
  | ok u => exact walks_computed hpost
  | error e => exact herror r e _ hpost

end Walks

end Amlguard
