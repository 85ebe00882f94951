import Amlguard.Investigations.Conduct
import Amlguard.Library.Knowledge

/-!
# Provenance of evidence

What a run learns before it writes a checkpoint: every item of evidence has been named in an audit
event of the case, the case has the customer of the items, and each of the two security events that
`validate_controls` can find by itself has been recorded from outside.

The programs of the engine are walked through once more, now with the facts that they know.
-/

namespace Amlguard

open Awaited

/-- The security events that `validate_controls` finds by itself. -/
def scopeViolations : List String := ["successful_cross_scope_access", "prohibited_action_execution"]

/-- What a task may know of a case. -/
inductive Fact where
  /-- An audit event of the case names an item of evidence. -/
  | named (c : UUID) (evidenceId : String)
  /-- The case has a customer. -/
  | owns (c : UUID) (customerId : String)
  /-- A scope violation has been recorded for the case. -/
  | recorded (c : UUID) (securityEvent : String)

/-- The audit event names an item of evidence: an authorized execution lists it, or a submission has
supplied it. -/
def AuditPayload.Names (c : UUID) (eventType evidenceId : String) : AuditPayload → Prop
  | .execution e =>
    eventType = "tool_access" ∧ e.caseId = c ∧ e.authorized = true ∧ evidenceId ∈ e.evidenceIds
  | .informationSupplied _ supplied _ =>
    eventType = "case_information_supplied" ∧ supplied = evidenceId
  | _ => False

/-- The facts that a state of a case rests on. -/
inductive InvestigationState.RestsOn (values : InvestigationState) (c : UUID) : Fact → Prop where
  | named (item : EvidenceItem) (h : item ∈ values.evidence) :
      RestsOn values c (.named c item.evidenceId)
  | owns (b : CaseBinding) (h : values.binding = some b) : RestsOn values c (.owns c b.customerId)
  | recorded (event : String) (h : event ∈ values.securityEvents) (hv : event ∈ scopeViolations) :
      RestsOn values c (.recorded c event)

/-- An item of evidence of a case and its customer, with the hash of its content. -/
structure EvidenceItem.Scoped (env : EngineEnvironment) (c : UUID) (customerId : String)
    (item : EvidenceItem) : Prop where
  caseId : item.caseId = c
  customerId : item.customerId = customerId
  contentHash : item.contentHash = env.canonicalHash item.content

/-- A state of a case whose evidence is in the scope of its run. -/
structure InvestigationState.Scoped (env : EngineEnvironment) (c : UUID)
    (values : InvestigationState) : Prop where
  bound : BoundTo c values
  items : ∀ item ∈ values.evidence, ∃ b, values.binding = some b ∧ item.Scoped env c b.customerId

/-- A state of a case that is scoped and rests on what is known. -/
structure InvestigationState.Backed (env : EngineEnvironment) (known : Set Fact) (c : UUID)
    (values : InvestigationState) : Prop where
  inScope : values.Scoped env c
  rests : ∀ f, values.RestsOn c f → f ∈ known

/-- An execution that lists no evidence without authorization, and prohibited tools only so. -/
structure ToolExecution.Clean (execution : ToolExecution) : Prop where
  unauthorized : execution.authorized = false → execution.evidenceIds = []
  authorized : execution.authorized = true → execution.toolName ∉ prohibitedTools

/-- What is learnt from a reply. -/
inductive Teaches (op : EngineOp) :
    (call : EngineCall) → Except PyError call.Reply → Fact → Prop where
  | prepared (call : EngineCall) (r : Except PyError call.Reply) (case : CaseData)
      (actorId contextCondition : String) (h : op = .runPrepared case actorId contextCondition) :
      Teaches op call r (.owns case.caseId case.customerId)
  | created (alertId tenantId investigatorId : String) (case : CaseData) (isNew : Bool) :
      Teaches op (.createCase alertId tenantId investigatorId) (.ok (case, isNew))
        (.owns case.caseId case.customerId)
  | read (c : UUID) (case : CaseData) :
      Teaches op (.getCase c) (.ok case) (.owns case.caseId case.customerId)
  | announced (eventType actorId : String) (c : UUID) (payload : AuditPayload) (evidenceId : String)
      (h : payload.Names c eventType evidenceId) :
      Teaches op (.audit eventType actorId c payload) (.ok ()) (.named c evidenceId)
  | loaded (c : UUID) (input : GraphInput) (checkpoint : Checkpoint) (f : Fact)
      (h : checkpoint.values.RestsOn c f) :
      Teaches op (.loadCheckpoint c input) (.ok (some checkpoint)) f

/-- What may be called with what is known: a checkpoint that is written rests on it. -/
def MayCall (env : EngineEnvironment) (op : EngineOp) (known : Set Fact) : EngineCall → Prop
  | .putCheckpoint c checkpoint => checkpoint.values.Backed env known c
  | .updateState _ _ _ => ¬op.Routine
  | _ => True

/-- What may be marked: executions are clean, and a validation adds no scope violation. -/
def MayMark (known : Set Fact) : EngineMark → Prop
  | .executed execution => execution.Clean
  | .decided c _ validation =>
    ∀ event ∈ validation.securityEvents, event ∈ scopeViolations → .recorded c event ∈ known
  | _ => True

/-- What is expected of replies: a thread is in the scope of its run, the log of the tools is clean. -/
def ScopedReply (env : EngineEnvironment) : (call : EngineCall) → Except PyError call.Reply → Prop
  | .loadCheckpoint c _, r =>
    ∀ checkpoint, r = .ok (some checkpoint) → checkpoint.values.Scoped env c
  | .toolExecutions, r => ∃ executions, r = .ok executions ∧ ∀ e ∈ executions, e.Clean
  | _, _ => True

/-- What the engine's operations learn about the evidence. -/
def provenance (env : EngineEnvironment) : Lessons engineSignature EngineOp Fact where
  teaches op call r := {f | Teaches op call r f}
  calls op known call := MayCall env op known call
  marks _ known n := MayMark known n
  expected := ScopedReply env

section Heeds

variable {env : EngineEnvironment} {op : EngineOp} {known : Set Fact} {α β : Type}

/-- The program keeps to what it may do with what it knows of the evidence. -/
abbrev Heeds (env : EngineEnvironment) (op : EngineOp) (p : Investigation α)
    (post : Except PyError α → Set Fact → Prop) (known : Set Fact) : Prop :=
  (provenance env).Heeds op p post known

/-- A call that writes no checkpoint. -/
def EngineCall.Harmless : EngineCall → Prop
  | .putCheckpoint _ _ | .updateState _ _ _ => False
  | _ => True

/-- A harmless call may always be made. -/
theorem EngineCall.Harmless.mayCall {call : EngineCall} (h : call.Harmless) :
    MayCall env op known call := by
  cases call <;> trivial

/-- A computed result and what follows it. -/
theorem heeds_computed_bind {r : Except PyError α} {f : α → Investigation β}
    {post : Except PyError β → Set Fact → Prop}
    (hok : ∀ a, r = .ok a → Heeds env op (f a) post known)
    (herror : ∀ e, r = .error e → post (.error e) known) :
    Heeds env op (computed r >>= f) post known := by
  have hr : Heeds env op (computed r) (fun r' known' => r' = r ∧ known' = known) known :=
    (Diagram.follows_settleResult (S := engineSignature) r _ known).mpr ⟨rfl, rfl⟩
  apply Lessons.heeds_bind hr
  · rintro a _ - ⟨ha, rfl⟩
    exact hok a ha.symm
  · rintro e _ - ⟨he, rfl⟩
    exact herror e he.symm

/-- A returned value. -/
theorem heeds_pure {a : α} {post : Except PyError α → Set Fact → Prop} (h : post (.ok a) known) :
    Heeds env op (pure a) post known :=
  (Diagram.follows_pure (S := engineSignature) a post known).mpr h

/-- A result that has been computed. -/
theorem heeds_computed {r : Except PyError α} {post : Except PyError α → Set Fact → Prop}
    (h : post r known) : Heeds env op (computed r) post known :=
  (Diagram.follows_settleResult (S := engineSignature) r post known).mpr h

/-- A call that may be made and what follows it. -/
theorem heeds_invoke_bind {call : EngineCall} {f : call.Reply → Investigation β}
    {post : Except PyError β → Set Fact → Prop} (hcall : MayCall env op known call)
    (hok : ∀ a known', known ⊆ known' → (∀ fact, Teaches op call (.ok a) fact → fact ∈ known') →
      ScopedReply env call (.ok a) → Heeds env op (f a) post known')
    (herror : ∀ e known', known ⊆ known' → post (.error e) known') :
    Heeds env op (invoke call >>= f) post known := by
  have hreply : Heeds env op (invoke call) (fun r known' =>
      (∀ fact, Teaches op call r fact → fact ∈ known') ∧ ScopedReply env call r) known :=
    Lessons.heeds_call hcall fun r hr => ⟨fun fact hf => .inr hf, hr⟩
  apply Lessons.heeds_bind hreply
  · rintro a known' hgrown ⟨hlearnt, hreply⟩
    exact hok a known' hgrown hlearnt hreply
  · rintro e known' hgrown -
    exact herror e known' hgrown

/-- A mark and what follows it. -/
theorem heeds_jot_bind {n : EngineMark} {f : Unit → Investigation β}
    {post : Except PyError β → Set Fact → Prop} (hn : MayMark known n)
    (hf : Heeds env op (f ()) post known) : Heeds env op (jot n >>= f) post known := by
  have hmark : Heeds env op (jot n) (fun r known' => r = .ok () ∧ known' = known) known :=
    Lessons.heeds_note hn ⟨rfl, rfl⟩
  apply Lessons.heeds_bind hmark
  · rintro _ _ - ⟨-, rfl⟩
    exact hf
  · rintro e _ - ⟨he, -⟩
    cases he

/-- A suppressed program of harmless calls and what follows it. -/
theorem heeds_suppress_bind {p : Investigation Unit}
    (hp : p.Only EngineCall.Harmless fun _ => False) {f : Unit → Investigation β}
    {post : Except PyError β → Set Fact → Prop}
    (hf : ∀ known', known ⊆ known' → Heeds env op (f ()) post known') :
    Heeds env op (Prog.suppress p >>= f) post known := by
  have hsuppress : Heeds env op (Prog.suppress p) (fun r _ => r = .ok ()) known := by
    apply (Diagram.follows_suppress (S := engineSignature) p _ known).mpr
    apply (Lessons.heeds_of_only hp (fun _ _ hc => hc.mayCall) (fun _ _ hn => hn.elim)).mono
    exact fun _ _ _ => rfl
  apply Lessons.heeds_bind hsuppress
  · rintro _ known' hgrown -
    exact hf known' hgrown
  · rintro e _ - he
    cases he

section Tools

variable {auth : CaseBinding}

/-- An item of the case that has been named. -/
def Sourced (env : EngineEnvironment) (auth : CaseBinding) (known : Set Fact) (item : EvidenceItem) :
    Prop :=
  item.Scoped env auth.caseId auth.customerId ∧ .named auth.caseId item.evidenceId ∈ known

/-- An item stays sourced. -/
theorem Sourced.mono {known' : Set Fact} {item : EvidenceItem} (h : Sourced env auth known item)
    (hgrown : known ⊆ known') : Sourced env auth known' item := ⟨h.1, hgrown h.2⟩

/-- An item that is made for the customer of the case is in its scope. -/
theorem evidenceFromModel_scoped {evidenceId evidenceType sourceRecordId customerId provenance : String}
    {c : UUID} {content : Json} {item : EvidenceItem}
    (h : evidenceFromModel env evidenceId evidenceType sourceRecordId c customerId content provenance =
      .ok item) : item.Scoped env c customerId := by
  unfold evidenceFromModel at h
  split at h
  · cases h
    exact ⟨rfl, rfl, rfl⟩
  · cases h

/-- An authorization that returns has found the customer of the case. -/
theorem authorize_heeds (customerId toolName : String) :
    Heeds env op (InvestigationTools.authorize auth customerId toolName)
      (fun r _ => r = .ok () → customerId = auth.customerId) known := by
  unfold InvestigationTools.authorize
  split
  · rename_i heq
    exact heeds_pure fun _ => heq
  · apply heeds_jot_bind
    · exact ⟨fun _ => rfl, fun h => by cases h⟩
    apply heeds_invoke_bind
    · trivial
    · intro _ known' _ _ _
      exact heeds_computed fun h => by cases h
    · intro e known' _ h
      cases h

/-- A tool returns the items that it has recorded. -/
theorem recorded_heeds {r : Except PyError α} {toolName : String} (htool : toolName ∉ prohibitedTools)
    (arguments : Json) (items : α → List EvidenceItem)
    (hr : ∀ a, r = .ok a → ∀ item ∈ items a, item.Scoped env auth.caseId auth.customerId) :
    Heeds env op
      (do
        let evidence ← computed r
        InvestigationTools.record auth toolName arguments (items evidence)
        pure evidence)
      (fun r' known' => ∀ a, r' = .ok a → ∀ item ∈ items a, Sourced env auth known' item) known := by
  apply heeds_computed_bind
  · intro evidence hevidence
    have hrecord : Heeds env op (InvestigationTools.record auth toolName arguments (items evidence))
        (fun r' known' => r' = .ok () → ∀ item ∈ items evidence, Sourced env auth known' item)
        known := by
      apply heeds_jot_bind
      · exact ⟨fun h => (by cases h), fun _ => htool⟩
      apply Lessons.heeds_call (L := provenance env)
      · trivial
      rintro r' - hok item hitem
      subst hok
      refine ⟨hr evidence hevidence item hitem, .inr (Teaches.announced _ _ _ _ _ ?_)⟩
      exact ⟨rfl, rfl, rfl, List.mem_map_of_mem hitem⟩
    apply Lessons.heeds_bind hrecord
    · intro _ known' _ hsourced
      apply heeds_pure
      rintro a ⟨⟩
      exact hsourced rfl
    · rintro e known' - - a ⟨⟩
  · rintro e - a ⟨⟩

/-- `get_alert` returns an item that it has recorded. -/
theorem getAlert_heeds (alertId : String) :
    Heeds env op (InvestigationTools.getAlert env auth alertId)
      (fun r known' => ∀ item, r = .ok item → Sourced env auth known' item) known := by
  unfold InvestigationTools.getAlert
  apply heeds_invoke_bind
  · trivial
  · intro alert known₁ _ _ _
    apply Lessons.heeds_bind (authorize_heeds alert.customerId "get_alert")
    · intro _ known₂ _ _
      apply (recorded_heeds (by decide) _ (fun item => [item]) _).mono
      · intro r known' h item hitem
        exact h item hitem item List.mem_cons_self
      · intro item hitem _ hmem
        obtain rfl := List.mem_singleton.mp hmem
        exact evidenceFromModel_scoped hitem
    · rintro e known' - - item ⟨⟩
  · rintro e known' - item ⟨⟩

/-- A tool that reads a record of the customer of the case returns the items that it makes of it. -/
theorem customerTool_heeds {customerId toolName : String} (htool : toolName ∉ prohibitedTools)
    {read : EngineCall} (hread : read.Harmless) (make : read.Reply → Except PyError α)
    (arguments : Json) (items : α → List EvidenceItem)
    (hmake : ∀ record a, make record = .ok a →
      ∀ item ∈ items a, item.Scoped env auth.caseId customerId) :
    Heeds env op
      (do
        InvestigationTools.authorize auth customerId toolName
        let record ← invoke read
        let evidence ← computed (make record)
        InvestigationTools.record auth toolName arguments (items evidence)
        pure evidence)
      (fun r known' => ∀ a, r = .ok a → ∀ item ∈ items a, Sourced env auth known' item) known := by
  apply Lessons.heeds_bind (authorize_heeds customerId toolName)
  · intro _ known₁ _ hauthorized
    obtain rfl := hauthorized rfl
    apply heeds_invoke_bind hread.mayCall
    · intro record known₂ _ _ _
      exact recorded_heeds htool arguments items fun a ha => hmake record a ha
    · rintro e known' - a ⟨⟩
  · rintro e known' - - a ⟨⟩

/-- `get_customer_profile` returns an item that it has recorded. -/
theorem getCustomerProfile_heeds (customerId : String) :
    Heeds env op (InvestigationTools.getCustomerProfile env auth customerId)
      (fun r known' => ∀ item, r = .ok item → Sourced env auth known' item) known := by
  have hread : (EngineCall.getCustomer customerId).Harmless := trivial
  apply (customerTool_heeds (by decide) hread _ _ (fun item => [item]) _).mono
  · intro r known' h item hitem
    exact h item hitem item List.mem_cons_self
  · intro customer item hitem _ hmem
    obtain rfl := List.mem_singleton.mp hmem
    exact evidenceFromModel_scoped hitem

/-- `get_kyc_profile` returns an item that it has recorded. -/
theorem getKycProfile_heeds (customerId : String) :
    Heeds env op (InvestigationTools.getKycProfile env auth customerId)
      (fun r known' => ∀ item, r = .ok item → Sourced env auth known' item) known := by
  have hread : (EngineCall.getKyc customerId).Harmless := trivial
  apply (customerTool_heeds (by decide) hread _ _ (fun item => [item]) _).mono
  · intro r known' h item hitem
    exact h item hitem item List.mem_cons_self
  · intro kyc item hitem _ hmem
    obtain rfl := List.mem_singleton.mp hmem
    exact evidenceFromModel_scoped hitem

/-- `get_transactions` returns items that it has recorded. -/
theorem getTransactions_heeds (customerId : String) :
    Heeds env op (InvestigationTools.getTransactions env auth customerId)
      (fun r known' => ∀ items, r = .ok items → ∀ item ∈ items, Sourced env auth known' item)
      known := by
  have hread : (EngineCall.getTransactions customerId).Harmless := trivial
  unfold InvestigationTools.getTransactions
  -- the limit is a numeral that unification would count down
  generalize InvestigationTools.transactionLimit = limit
  apply customerTool_heeds (by decide) hread _ _ (fun items => items)
  intro all items hitems item hitem
  obtain ⟨record, -, hmake⟩ := exists_of_mem_mapM hitems hitem
  exact evidenceFromModel_scoped hmake

end Tools

section Stages

variable {b : CaseBinding} {c : UUID} {values : InvestigationState} {resume : Option Resume}

namespace InvestigationState.Backed

/-- What is backed stays so. -/
theorem mono {known' : Set Fact} (h : values.Backed env known c) (hgrown : known ⊆ known') :
    values.Backed env known' c := ⟨h.inScope, fun f hf => hgrown (h.rests f hf)⟩

/-- A state with the same run, evidence and security events is backed too. -/
theorem congr {values' : InvestigationState} (h : values.Backed env known c)
    (hbinding : values'.binding = values.binding) (hevidence : values'.evidence = values.evidence)
    (hevents : values'.securityEvents = values.securityEvents) : values'.Backed env known c := by
  refine ⟨⟨?_, ?_⟩, ?_⟩
  · rw [BoundTo, hbinding]
    exact h.inScope.bound
  · rw [hevidence, hbinding]
    exact h.inScope.items
  · intro f hf
    apply h.rests
    cases hf with
    | named item hitem => exact .named item (hevidence ▸ hitem)
    | owns b hb => exact .owns b (hbinding ▸ hb)
    | recorded event hevent hv => exact .recorded event (hevents ▸ hevent) hv

/-- A state with evidence that has been recorded. -/
theorem withEvidence (h : values.Backed env known b.caseId) (hb : values.binding = some b)
    {evidence : List EvidenceItem} (hitems : ∀ item ∈ evidence, Sourced env b known item)
    (selection : PolicySelection) : (values.withEvidence evidence selection).Backed env known b.caseId := by
  refine ⟨⟨h.inScope.bound, fun item hitem => ⟨b, hb, (hitems item hitem).1⟩⟩, fun f hf => ?_⟩
  cases hf with
  | named item hitem => exact (hitems item hitem).2
  | owns b hb => exact h.rests _ (.owns b hb)
  | recorded event hevent hv => exact h.rests _ (.recorded event hevent hv)

/-- A state with a validation that adds no scope violation. -/
theorem withValidation (h : values.Backed env known c) {validation : Validation}
    (hevents : ∀ event ∈ validation.securityEvents, event ∈ scopeViolations →
      .recorded c event ∈ known) : (values.withValidation validation).Backed env known c := by
  refine ⟨⟨h.inScope.bound, h.inScope.items⟩, fun f hf => ?_⟩
  cases hf with
  | named item hitem => exact h.rests _ (.named item hitem)
  | owns b hb => exact h.rests _ (.owns b hb)
  | recorded event hevent hv => exact hevents event hevent hv

end InvestigationState.Backed

/-- What a stage returns is backed. -/
def stageBacks (env : EngineEnvironment) (c : UUID) (r : Except PyError StageEnd)
    (known : Set Fact) : Prop :=
  ∀ values, r = .ok (.updated values) → values.Backed env known c

/-- An exception returns no state. -/
theorem stageBacks_error {e : PyError} : stageBacks env c (.error e) known := by
  rintro values ⟨⟩

/-- An interrupt returns no state. -/
theorem stageBacks_interrupted : stageBacks env c (.ok .interrupted) known := by
  rintro values ⟨⟩

/-- The state that a stage returns. -/
theorem stageBacks_updated {values : InvestigationState} (h : values.Backed env known c) :
    stageBacks env c (.ok (.updated values)) known := by
  rintro _ ⟨⟩
  exact h

/-- A part of a stage that yields something, and what follows it. -/
theorem stage_bind {p : Investigation α} {f : α → Investigation StageEnd}
    {mid : α → Set Fact → Prop}
    (hp : Heeds env op p (fun r known' => ∀ a, r = .ok a → mid a known') known)
    (hf : ∀ a known', known ⊆ known' → mid a known' →
      Heeds env op (f a) (stageBacks env c) known') :
    Heeds env op (p >>= f) (stageBacks env c) known := by
  apply Lessons.heeds_bind hp
  · intro a known' hgrown hmid
    exact hf a known' hgrown (hmid a rfl)
  · rintro e known' - -
    exact stageBacks_error

/-- A call of a stage that may be made, and what follows its reply. -/
theorem stage_invoke_bind {call : EngineCall} {f : call.Reply → Investigation StageEnd}
    (hcall : MayCall env op known call)
    (hf : ∀ a known', known ⊆ known' → (∀ fact, Teaches op call (.ok a) fact → fact ∈ known') →
      ScopedReply env call (.ok a) → Heeds env op (f a) (stageBacks env c) known') :
    Heeds env op (invoke call >>= f) (stageBacks env c) known :=
  heeds_invoke_bind hcall hf fun _ _ _ => stageBacks_error

/-- A computed part of a stage and what follows it. -/
theorem stage_computed_bind {r : Except PyError α} {f : α → Investigation StageEnd}
    (hf : ∀ a, r = .ok a → Heeds env op (f a) (stageBacks env c) known) :
    Heeds env op (computed r >>= f) (stageBacks env c) known :=
  heeds_computed_bind hf fun _ _ => stageBacks_error

/-- The body of `load_and_retrieve` returns the items that its tools have recorded. -/
theorem loadAndRetrieve_heeds (h : values.Backed env known b.caseId) (hb : values.binding = some b) :
    Heeds env op (loadAndRetrieve env b values) (stageBacks env b.caseId) known := by
  unfold loadAndRetrieve
  apply stage_invoke_bind
  · trivial
  intro _ known₁ h₁ _ _
  apply stage_bind (getAlert_heeds b.alertId)
  intro alert known₂ h₂ halert
  apply stage_bind (getCustomerProfile_heeds b.customerId)
  intro customer known₃ h₃ hcustomer
  apply stage_bind (getKycProfile_heeds b.customerId)
  intro kyc known₄ h₄ hkyc
  apply stage_bind (getTransactions_heeds b.customerId)
  intro transactions known₅ h₅ htransactions
  have hitems : ∀ item ∈ [alert, customer, kyc] ++ transactions, Sourced env b known₅ item := by
    intro item hitem
    rcases List.mem_append.mp hitem with hitem | hitem
    · simp only [List.mem_cons, List.not_mem_nil, or_false] at hitem
      rcases hitem with rfl | rfl | rfl
      · exact halert.mono (h₃.trans (h₄.trans h₅))
      · exact hcustomer.mono (h₄.trans h₅)
      · exact hkyc.mono h₅
    · exact htransactions item hitem
  apply stage_computed_bind
  intro selection _
  apply stage_invoke_bind
  · trivial
  intro executions known₆ h₆ _ _
  apply stage_invoke_bind
  · trivial
  intro _ known₇ h₇ _ _
  apply stage_invoke_bind
  · trivial
  intro _ known₈ h₈ _ _
  have hlate : known₅ ⊆ known₈ := h₆.trans (h₇.trans h₈)
  have hall : known ⊆ known₈ := h₁.trans (h₂.trans (h₃.trans (h₄.trans (h₅.trans hlate))))
  exact heeds_pure (stageBacks_updated ((h.mono hall).withEvidence hb
    (fun item hitem => (hitems item hitem).mono hlate) selection))

/-- The body of `draft` keeps the evidence. -/
theorem draft_heeds (h : values.Backed env known c) :
    Heeds env op (draft env b values) (stageBacks env c) known := by
  unfold draft
  apply stage_invoke_bind
  · trivial
  intro recommendation known₁ h₁ _ _
  apply stage_invoke_bind
  · trivial
  intro version known₂ h₂ _ _
  apply heeds_jot_bind
  · trivial
  apply stage_invoke_bind
  · trivial
  intro _ known₃ h₃ _ _
  exact heeds_pure (stageBacks_updated ((h.mono (h₁.trans (h₂.trans h₃))).congr rfl rfl rfl))

/-- The body of `validate` adds no scope violation. -/
theorem validate_heeds (h : values.Backed env known b.caseId) (hb : values.binding = some b) :
    Heeds env op (validate b values) (stageBacks env b.caseId) known := by
  unfold validate
  apply stage_computed_bind
  intro recommendation _
  apply stage_invoke_bind
  · trivial
  rintro executions known₁ h₁ - ⟨log, hlog, hclean⟩
  cases hlog
  have hevents : ∀ event ∈ (validateControls b.caseId b.customerId recommendation values.evidence
      values.policies values.securityEvents executions).securityEvents, event ∈ scopeViolations →
        .recorded b.caseId event ∈ known₁ := by
    intro event hevent hviolation
    apply h₁
    apply h.rests
    apply InvestigationState.RestsOn.recorded event _ hviolation
    apply recorded_of_observed _ (fun execution hmem => (hclean execution hmem).authorized) hevent
    intro item hitem
    obtain ⟨b', hb', hitem⟩ := h.inScope.items item hitem
    cases hb.symm.trans hb'
    exact ⟨hitem.caseId, hitem.customerId⟩
  apply heeds_jot_bind
  · exact hevents
  apply stage_invoke_bind
  · trivial
  intro _ known₂ h₂ _ _
  have hdecided := (h.mono h₁).withValidation hevents
  split
  · apply stage_invoke_bind
    · trivial
    intro _ known₃ h₃ _ _
    apply stage_invoke_bind
    · trivial
    intro _ known₄ h₄ _ _
    exact heeds_pure (stageBacks_updated (hdecided.mono (h₂.trans (h₃.trans h₄))))
  · apply stage_invoke_bind
    · trivial
    intro _ known₃ h₃ _ _
    exact heeds_pure (stageBacks_updated (hdecided.mono (h₂.trans h₃)))

/-- A submission adds an item that has been announced. -/
theorem supplied_heeds {version : ℕ} {submission : Submission}
    (h : values.Backed env known b.caseId) (hb : values.binding = some b) :
    Heeds env op (supplied env b values version submission) (stageBacks env b.caseId) known := by
  unfold supplied
  apply stage_computed_bind
  intro evidence hevidence
  apply stage_invoke_bind
  · trivial
  intro _ known₁ h₁ hannounced _
  have hsourced : Sourced env b known₁ evidence :=
    ⟨evidenceFromModel_scoped hevidence, hannounced _ (.announced _ _ _ _ _ ⟨rfl, rfl⟩)⟩
  have hitems : ∀ item ∈ values.evidence ++ [evidence], Sourced env b known₁ item := by
    intro item hitem
    rcases List.mem_append.mp hitem with hold | hnew
    · obtain ⟨b', hb', hscoped⟩ := h.inScope.items item hold
      cases hb.symm.trans hb'
      exact ⟨hscoped, h₁ (h.rests _ (.named item hold))⟩
    · obtain rfl := List.mem_singleton.mp hnew
      exact hsourced
  apply stage_invoke_bind
  · trivial
  intro _ known₂ h₂ _ _
  apply stage_invoke_bind
  · trivial
  intro _ known₃ h₃ _ _
  apply stage_computed_bind
  intro selection _
  apply stage_invoke_bind
  · trivial
  intro _ known₄ h₄ _ _
  have hlate : known₁ ⊆ known₄ := h₂.trans (h₃.trans h₄)
  exact heeds_pure (stageBacks_updated ((h.mono (h₁.trans hlate)).withEvidence hb
    (fun item hitem => (hitems item hitem).mono hlate) selection))

/-- The body of `collect_information` returns what has been announced. -/
theorem collectInformation_heeds (h : values.Backed env known b.caseId)
    (hb : values.binding = some b) :
    Heeds env op (collectInformation env b values resume) (stageBacks env b.caseId) known := by
  unfold collectInformation
  apply stage_computed_bind
  intro recommendation _
  apply stage_computed_bind
  intro version _
  cases resume with
  | none => exact heeds_pure stageBacks_interrupted
  | some value =>
    cases value with
    | review request => exact heeds_computed stageBacks_error
    | information submission => exact supplied_heeds h hb

/-- The end of `human_review` keeps the evidence. -/
theorem concluded_heeds {request review : HumanReview} (h : values.Backed env known c) :
    Heeds env op (concluded b values request review) (stageBacks env c) known := by
  have hend {known' : Set Fact} (hgrown : known ⊆ known') :
      Heeds env op
        (do
          invoke (.setStatus b.caseId review.outcome)
          invoke (.trajectoryHook b.runId (.humanReview review))
          pure (.updated (values.withReview review))) (stageBacks env c) known' := by
    apply stage_invoke_bind
    · trivial
    intro _ known₁ h₁ _ _
    apply stage_invoke_bind
    · trivial
    intro _ known₂ h₂ _ _
    exact heeds_pure (stageBacks_updated ((h.mono (hgrown.trans (h₁.trans h₂))).congr rfl rfl rfl))
  unfold concluded
  apply heeds_jot_bind
  · trivial
  apply stage_invoke_bind
  · trivial
  intro _ known₁ h₁ _ _
  split
  · apply stage_invoke_bind
    · trivial
    intro _ known₂ h₂ _ _
    exact hend (h₁.trans h₂)
  · exact hend h₁

/-- The body of `human_review` keeps the evidence. -/
theorem humanReview_heeds (h : values.Backed env known c) :
    Heeds env op (humanReview b values resume) (stageBacks env c) known := by
  unfold humanReview
  split
  · exact heeds_pure (stageBacks_updated h)
  · apply stage_computed_bind
    intro version _
    cases resume with
    | none => exact heeds_pure stageBacks_interrupted
    | some value =>
      cases value with
      | information submission => exact heeds_computed stageBacks_error
      | review request =>
        apply stage_computed_bind
        intro review _
        exact concluded_heeds h

/-- The body of a stage returns what is backed. -/
theorem stageBody_heeds (stage : Stage) (h : values.Backed env known b.caseId)
    (hb : values.binding = some b) :
    Heeds env op (stageBody env b values stage resume) (stageBacks env b.caseId) known := by
  cases stage with
  | loadAndRetrieve => exact loadAndRetrieve_heeds h hb
  | draftRecommendation => exact draft_heeds h
  | validateControls => exact validate_heeds h hb
  | collectInformation => exact collectInformation_heeds h hb
  | humanReview => exact humanReview_heeds h

end Stages

section Run

variable {b : CaseBinding} {c : UUID} {s : Stage} {resume : Option Resume}
  {values : InvestigationState} {task : ℕ}

/-- A notification is harmless. -/
theorem notify_harmless (stage : Stage) (event : String) :
    (invoke (.stageHook b.runId stage event)).Only EngineCall.Harmless fun _ => False :=
  (Prog.only_call (S := engineSignature) _).mpr trivial

/-- `record_failure` keeps the evidence. -/
theorem recordFailure_heeds (e : PyError) (h : values.Backed env known c) :
    Heeds env op (recordFailure b values s e) (stageBacks env c) known := by
  unfold recordFailure
  apply stage_invoke_bind
  · trivial
  intro errorId known₁ h₁ _ _
  apply stage_invoke_bind
  · trivial
  intro _ known₂ h₂ _ _
  apply heeds_suppress_bind
  · exact (Prog.only_call (S := engineSignature) _).mpr trivial
  intro known₃ h₃
  apply heeds_suppress_bind
  · exact (Prog.only_call (S := engineSignature) _).mpr trivial
  intro known₄ h₄
  exact heeds_pure (stageBacks_updated
    ((h.mono (h₁.trans (h₂.trans (h₃.trans h₄)))).congr rfl rfl rfl))

/-- The guard hands on what a stage has returned, or records its exception. -/
theorem settleStage_heeds (r : Except PyError StageEnd) (h : values.Backed env known c)
    (hr : stageBacks env c r known) :
    Heeds env op (settleStage b values s r) (stageBacks env c) known := by
  cases r with
  | ok ended =>
    cases ended with
    | interrupted =>
      apply heeds_suppress_bind (notify_harmless s _)
      intro known' _
      exact heeds_pure stageBacks_interrupted
    | updated values' =>
      apply heeds_suppress_bind (notify_harmless s _)
      intro known' hgrown
      exact heeds_pure (stageBacks_updated ((hr values' rfl).mono hgrown))
  | error e =>
    apply (Diagram.follows_finally' (S := engineSignature) _ _ _ known).mpr
    apply (recordFailure_heeds e h).mono
    intro r known' hr
    apply (Diagram.follows_suppress (S := engineSignature) _ _ known').mpr
    apply (Lessons.heeds_of_only (notify_harmless s _) (fun _ _ hc => hc.mayCall)
      (fun _ _ hn => hn.elim)).grows.mono
    rintro _ known'' ⟨hgrown, -⟩
    apply heeds_computed
    intro values' hvalues'
    exact (hr values' hvalues').mono hgrown

/-- A guarded stage returns what is backed. -/
theorem guarded_heeds (h : values.Backed env known c) :
    Heeds env op (guarded env values s resume) (stageBacks env c) known := by
  unfold guarded
  apply stage_computed_bind
  intro b hbinding
  have hb : values.binding = some b := orRaise_eq_ok.mp hbinding
  obtain rfl := h.inScope.bound b hb
  apply heeds_suppress_bind (notify_harmless s _)
  intro known₁ h₁
  apply (Diagram.follows_bind (S := engineSignature) _ _ _ known₁).mpr
  apply (Diagram.follows_attempt (S := engineSignature) _ _ known₁).mpr
  apply (stageBody_heeds s (h.mono h₁) hb).grows.mono
  rintro r known₂ ⟨h₂, hr⟩
  exact settleStage_heeds r (h.mono (h₁.trans h₂)) hr

/-- The stages write what is backed until one interrupts, leads nowhere or raises. -/
theorem drive_heeds (fuel : ℕ) (h : values.Backed env known c) :
    Heeds env op (drive env c fuel s resume values) (fun _ _ => True) known := by
  induction fuel generalizing s resume values known with
  | zero => exact heeds_computed trivial
  | succ fuel ih =>
    unfold drive
    apply Lessons.heeds_bind (guarded_heeds h)
    · intro ended known₁ h₁ hended
      cases ended with
      | interrupted => exact heeds_pure trivial
      | updated values' =>
        have hvalues' := hended values' rfl
        apply heeds_invoke_bind
        · exact hvalues'
        · intro _ known₂ h₂ _ _
          cases route s values' with
          | none => exact heeds_pure trivial
          | some next => exact ih (hvalues'.mono h₂)
        · exact fun _ _ _ => trivial
    · exact fun _ _ _ _ => trivial

/-- The customer of a case is known, or the operation comes with the case. -/
def CustomerKnown (op : EngineOp) (known : Set Fact) (c : UUID) (customerId : String) : Prop :=
  .owns c customerId ∈ known ∨ ∃ case actorId contextCondition,
    op = .runPrepared case actorId contextCondition ∧ case.caseId = c ∧ case.customerId = customerId

/-- A run from the entry knows the customer of its case, and reads what is backed otherwise. -/
theorem ainvoke_heeds {input : GraphInput}
    (hstart : ∀ b, input = .start b → b.caseId = c ∧ CustomerKnown op known c b.customerId) :
    Heeds env op (ainvoke env task c input) (fun _ _ => True) known := by
  unfold ainvoke
  apply heeds_invoke_bind
  · trivial
  · intro saved known₁ h₁ hlearnt hreply
    apply heeds_jot_bind
    · trivial
    cases input with
    | start b =>
      obtain ⟨rfl, hknown⟩ := hstart b rfl
      have hcustomer : .owns b.caseId b.customerId ∈ known₁ := by
        rcases hknown with hknown | ⟨case, actorId, contextCondition, hop, hcase, hcustomer⟩
        · exact h₁ hknown
        · rw [← hcase, ← hcustomer]
          exact hlearnt _ (.prepared _ _ case actorId contextCondition hop)
      have hstarted : ((savedValues saved).started b).Backed env known₁ b.caseId := by
        refine ⟨⟨?_, fun _ h => by cases h⟩, ?_⟩
        · rintro b' ⟨⟩
          rfl
        · rintro f hf
          cases hf with
          | named item hitem => cases hitem
          | owns b' hb' =>
            cases hb'
            exact hcustomer
          | recorded event hevent => cases hevent
      apply heeds_invoke_bind
      · exact hstarted
      · intro _ known₂ h₂ _ _
        exact drive_heeds recursionLimit (hstarted.mono h₂)
      · exact fun _ _ _ => trivial
    | resume value =>
      rcases saved with _ | ⟨values, last, _ | stage⟩
      · exact heeds_pure trivial
      · exact heeds_pure trivial
      · have hsaved : values.Backed env known₁ c :=
          ⟨hreply _ rfl, fun f hf => hlearnt f (.loaded c _ _ f hf)⟩
        exact drive_heeds recursionLimit hsaved
  · exact fun _ _ _ => trivial

end Run

section Operations

open LangGraphInvestigationEngine

variable {c : UUID} {task : ℕ}

/-- A part of an operation and what follows it. -/
theorem part_bind {p : Investigation α} {f : α → Investigation β}
    {mid : Except PyError α → Set Fact → Prop} (hp : Heeds env op p mid known)
    (hf : ∀ a known', known ⊆ known' → mid (.ok a) known' →
      Heeds env op (f a) (fun _ _ => True) known') :
    Heeds env op (p >>= f) (fun _ _ => True) known :=
  Lessons.heeds_bind hp hf fun _ _ _ _ => trivial

/-- A call of an operation that may be made, and what follows its reply. -/
theorem part_invoke {call : EngineCall} {f : call.Reply → Investigation β}
    (hcall : MayCall env op known call)
    (hf : ∀ a known', known ⊆ known' → (∀ fact, Teaches op call (.ok a) fact → fact ∈ known') →
      Heeds env op (f a) (fun _ _ => True) known') :
    Heeds env op (invoke call >>= f) (fun _ _ => True) known :=
  heeds_invoke_bind hcall (fun a known' hgrown hlearnt _ => hf a known' hgrown hlearnt)
    fun _ _ _ => trivial

/-- A computed part of an operation and what follows it. -/
theorem part_computed {r : Except PyError α} {f : α → Investigation β}
    (hf : ∀ a, Heeds env op (f a) (fun _ _ => True) known) :
    Heeds env op (computed r >>= f) (fun _ _ => True) known :=
  heeds_computed_bind (fun a _ => hf a) fun _ _ => trivial

/-- A part of an operation and the mark with which it leaves. -/
theorem leaving_heeds {p : Investigation α} (hp : Heeds env op p (fun _ _ => True) known) :
    Heeds env op (Prog.finally' p (jot (.left task c))) (fun _ _ => True) known := by
  apply (Diagram.follows_finally' (S := engineSignature) _ _ _ known).mpr
  apply hp.mono
  intro r known' _
  apply Lessons.heeds_note (L := provenance env) (n := .left task c)
  · trivial
  exact heeds_computed trivial

/-- An operation that is admitted to the graph of a case. -/
theorem admittedTo_heeds {p : Investigation α} (hp : Heeds env op p (fun _ _ => True) known) :
    Heeds env op (admittedTo task c p) (fun _ _ => True) known := by
  apply heeds_jot_bind
  · trivial
  exact leaving_heeds hp

/-- `_to_run` after its `get_case` only reads. -/
theorem assembleRun_heeds {case : CaseData} :
    Heeds env op (assembleRun case) (fun _ _ => True) known := by
  apply part_invoke
  · trivial
  intro saved known' _ _
  exact heeds_pure trivial

/-- `_to_run` only reads. -/
theorem toRun_heeds : Heeds env op (toRun c) (fun _ _ => True) known := by
  apply part_invoke
  · trivial
  intro case known' _ _
  exact assembleRun_heeds

/-- `run_prepared` of a case whose customer is known. -/
theorem runPrepared_heeds {case : CaseData} {actorId contextCondition : String}
    (hcustomer : CustomerKnown op known case.caseId case.customerId) :
    Heeds env op (runPrepared env task case actorId contextCondition) (fun _ _ => True) known := by
  apply part_bind
  · apply admittedTo_heeds
    apply ainvoke_heeds
    rintro b ⟨⟩
    exact ⟨rfl, hcustomer⟩
  · intro _ known' _ _
    exact toRun_heeds

/-- `_run_ui_investigation` of a case whose customer is known. -/
theorem runUiInvestigation_heeds {case : CaseData} {actorId contextCondition : String}
    (hcustomer : CustomerKnown op known case.caseId case.customerId) :
    Heeds env op (runUiInvestigation env task case actorId contextCondition) (fun _ _ => True)
      known := by
  apply (Diagram.follows_suppress (S := engineSignature) _ _ known).mpr
  apply part_bind (runPrepared_heeds hcustomer)
  intro _ known' _ _
  exact heeds_pure trivial

/-- `start` runs the case that it has created. -/
theorem start_heeds (alertId actorId tenantId contextCondition : String) :
    Heeds env op (start env task alertId actorId tenantId contextCondition) (fun _ _ => True)
      known := by
  apply part_invoke
  · trivial
  rintro ⟨case, created⟩ known₁ _ hlearnt
  dsimp only
  split
  · exact runPrepared_heeds (.inl (hlearnt _ (.created _ _ _ case created)))
  · exact toRun_heeds

/-- `ui_start_investigation` runs the case that it has created or read. -/
theorem uiStart_heeds (alertId actorId tenantId contextCondition : String) :
    Heeds env op (uiStart env task alertId actorId tenantId contextCondition) (fun _ _ => True)
      known := by
  apply part_invoke
  · trivial
  rintro ⟨case, created⟩ known₁ _ hlearnt
  dsimp only
  split
  · exact runUiInvestigation_heeds (.inl (hlearnt _ (.created _ _ _ case created)))
  · apply part_invoke
    · trivial
    intro case known₂ _ hread
    have hcustomer : .owns case.caseId case.customerId ∈ known₂ := hread _ (.read _ case)
    split
    · apply admittedTo_heeds
      apply part_bind assembleRun_heeds
      intro run known₃ h₃ _
      exact runUiInvestigation_heeds (.inl (h₃ hcustomer))
    · apply part_bind assembleRun_heeds
      intro run known₃ _ _
      exact heeds_pure trivial

/-- A case is resumed with a value and then read. -/
theorem resume_heeds {case : CaseData} {value : Resume} :
    Heeds env op
      (do
        admittedTo task case.caseId (ainvoke env task case.caseId (.resume value))
        toRun case.caseId) (fun _ _ => True) known := by
  apply part_bind
  · apply admittedTo_heeds
    apply ainvoke_heeds
    rintro b ⟨⟩
  · intro _ known' _ _
    exact toRun_heeds

/-- `review` writes what is backed. -/
theorem review_heeds (request : HumanReview) :
    Heeds env op (review env task request) (fun _ _ => True) known := by
  apply part_invoke
  · trivial
  intro case known₁ _ _
  apply part_computed
  intro _
  apply part_computed
  intro _
  exact resume_heeds

/-- `supply_information` writes what is backed. -/
theorem supplyInformation_heeds (submission : Submission) :
    Heeds env op (supplyInformation env task c submission) (fun _ _ => True) known := by
  apply part_invoke
  · trivial
  intro case known₁ _ _
  apply part_computed
  intro _
  exact resume_heeds

/-- `record_security_event` is not routine. -/
theorem recordSecurityEvent_heeds {eventType : String} (hop : ¬op.Routine) :
    Heeds env op (recordSecurityEvent c eventType) (fun _ _ => True) known := by
  apply part_computed
  intro _
  apply part_invoke
  · trivial
  intro case known₁ _ _
  apply part_invoke
  · trivial
  intro saved known₂ _ _
  apply part_invoke
  · exact hop
  intro _ known₃ _ _
  apply part_invoke
  · trivial
  intro _ known₄ _ _
  apply part_invoke
  · trivial
  intro _ known₅ _ _
  apply part_invoke
  · trivial
  intro _ known₆ _ _
  exact toRun_heeds

/-- `reset` writes no checkpoint. -/
theorem reset_heeds (actorId : String) :
    Heeds env op (reset task c actorId) (fun _ _ => True) known := by
  apply part_invoke
  · trivial
  intro case known₁ _ _
  apply part_computed
  intro _
  apply heeds_jot_bind
  · trivial
  apply part_bind
  · apply leaving_heeds
    apply part_invoke
    · trivial
    intro _ known₂ _ _
    apply part_invoke
    · trivial
    intro _ known₃ _ _
    apply (Diagram.follows_suppress (S := engineSignature) _ _ known₃).mpr
    apply Lessons.heeds_call (L := provenance env) (c := .deleteThread c)
    · trivial
    exact fun _ _ => trivial
  · intro _ known' _ _
    exact heeds_pure trivial

/-- A request that is run for its effects. -/
theorem discard_heeds {p : Investigation α} (hp : Heeds env op p (fun _ _ => True) known) :
    Heeds env op (EngineOp.discard p) (fun _ _ => True) known := by
  apply part_bind hp
  intro _ known' _ _
  exact heeds_pure trivial

/-- Every operation writes what it has learnt to be backed. -/
theorem program_heeds (env : EngineEnvironment) (task : ℕ) (op : EngineOp) :
    Heeds env op (op.program env task) (fun _ _ => True) ∅ := by
  cases op with
  | start alertId actorId tenantId contextCondition =>
    exact discard_heeds (start_heeds alertId actorId tenantId contextCondition)
  | uiStart alertId actorId tenantId contextCondition =>
    exact uiStart_heeds alertId actorId tenantId contextCondition
  | runPrepared case actorId contextCondition =>
    exact discard_heeds
      (runPrepared_heeds (.inr ⟨case, actorId, contextCondition, rfl, rfl, rfl⟩))
  | review request => exact discard_heeds (review_heeds request)
  | supplyInformation c submission => exact discard_heeds (supplyInformation_heeds submission)
  | recordSecurityEvent c eventType => exact discard_heeds (recordSecurityEvent_heeds fun h => h)
  | reset c actorId => exact discard_heeds (reset_heeds actorId)
  | get c => exact discard_heeds toRun_heeds

end Operations

end Heeds

end Amlguard
