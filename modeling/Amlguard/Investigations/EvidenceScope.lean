import Amlguard.Investigations.Provenance
import Amlguard.Investigations.Writes
import Amlguard.Library.Execution

/-!
# Evidence in scope

What the engine's operations have learnt about the evidence is true, whatever the interleaving and
wherever a call fails: an item of evidence that reaches a checkpoint has been named in the audit log
before, and an unauthorized execution lists none.

Routine requests moreover keep every item in the scope of its case, and no validation of theirs adds a
scope violation. Run one at a time, they only ever append to the evidence of a graph execution.
-/

namespace Amlguard

open Awaited

/-- An audit event of the case names an item of evidence. -/
def AuditEvent.Names (event : AuditEvent) (c : UUID) (evidenceId : String) : Prop :=
  event.caseId = c ∧ event.payload.Names c event.eventType evidenceId

/-- What a fact means. Only `routine` requests are known to keep the customers of the cases and to
record no security event. -/
def Fact.Holds (routine : Prop) : Fact → EngineWorld → Prop
  | .named c evidenceId, w => ∃ event ∈ w.auditEvents, event.Names c evidenceId
  | .owns c customerId, w => routine → c < w.store.nextUuid ∧
      ∀ case, w.store.cases.get? c = some case → case.customerId = customerId
  | .recorded _ _, _ => ¬routine

/-- The facts that hold in a world. -/
def EngineWorld.facts (routine : Prop) (w : EngineWorld) : Set Fact := {f | f.Holds routine w}

/-- Every thread rests on facts, every execution is clean, and no validation has added a scope
violation. -/
structure EvidenceScoped (env : EngineEnvironment) (routine : Prop) (w : EngineWorld) : Prop where
  filed : Filed w.store
  threads : ∀ c checkpoint, w.store.threads.get? c = some checkpoint →
    checkpoint.values.Backed env (w.facts routine) c
  executions : ∀ execution ∈ w.executions, execution.Clean
  decided : ∀ c version validation, (c, version, validation) ∈ w.store.history.decided →
    ∀ event ∈ validation.securityEvents, event ∈ scopeViolations → ¬routine

/-- The meaning of what the engine's operations learn. -/
def scopeMeaning (env : EngineEnvironment) (routine : Prop) : Lessons.Meaning Fact EngineWorld where
  Holds := Fact.Holds routine
  inv := EvidenceScoped env routine

section Steps

variable {env : EngineEnvironment} {routine : Prop} {w w' : EngineWorld} {draws : EngineDraws}
  {op : EngineOp} {call : EngineCall} {known : Set Fact} {c : UUID}

@[simp] theorem served_customerId (backend : RepositoryBackend) (case : CaseData) :
    (backend.served case).customerId = case.customerId := by
  cases backend <;> rfl

/-- A call leaves the log of the tools as it is and removes no audit event. -/
theorem perform_logs (env : EngineEnvironment) (w : EngineWorld) (draws : EngineDraws)
    (call : EngineCall) :
    (w.perform env draws call).2.executions = w.executions ∧
      ∀ event ∈ w.auditEvents, event ∈ (w.perform env draws call).2.auditEvents := by
  have heffect : (w.effect env draws call).2.executions = w.executions ∧
      ∀ event ∈ w.auditEvents, event ∈ (w.effect env draws call).2.auditEvents := by
    cases call with
    | audit => exact ⟨rfl, fun _ h => List.mem_append_left _ h⟩
    | createCase | getCase | deleteCase | getAlert | getCustomer | getKyc | getTransactions
      | saveRecommendation | saveReview | setStatus | trajectoryHook | stageHook | recommend | uuid4
      | toolExecutions | loadCheckpoint | putCheckpoint | getState | updateState | deleteThread =>
      exact ⟨rfl, fun _ h => h⟩
  rcases engine_perform_cases env w draws call with heq | ⟨_, e, heq | heq⟩
  · rw [heq]
    exact heffect
  · rw [heq]
    exact ⟨rfl, fun _ h => h⟩
  · rw [heq]
    exact heffect

/-- An audit that returns has appended its event. -/
theorem perform_audit {eventType actorId : String} {payload : AuditPayload}
    (h : (w.perform env draws (.audit eventType actorId c payload)).1 = .ok ()) :
    ∃ event ∈ (w.perform env draws (.audit eventType actorId c payload)).2.auditEvents,
      event.eventType = eventType ∧ event.caseId = c ∧ event.payload = payload := by
  rw [perform_ok h]
  exact ⟨_, List.mem_append_right _ List.mem_cons_self, rfl, rfl, rfl⟩

/-- A stored case keeps its customer. -/
theorem Writes.customerId {s s' : Store} {r : Except PyError call.Reply} {case : CaseData}
    (hw : Writes env s call r s') (hdrawn : c < s.nextUuid) (h : s'.cases.get? c = some case) :
    ∃ old, s.cases.get? c = some old ∧ case.customerId = old.customerId := by
  cases hw.caseChange h with
  | kept _ _ _ hold => exact ⟨case, hold, rfl⟩
  | created => exact absurd hdrawn (Nat.lt_irrefl _)
  | recommended _ _ old hold | reviewed _ old hold | status _ _ old hold => exact ⟨old, hold, rfl⟩

/-- A case that has been created is stored under its ID. -/
theorem Writes.createCase_ok {s s' : Store} {alertId tenantId investigatorId : String}
    {case : CaseData} {isNew : Bool} (hfiled : Filed s)
    (hw : Writes env s (.createCase alertId tenantId investigatorId) (.ok (case, isNew)) s') :
    ∃ stored, s'.cases.get? case.caseId = some stored ∧ stored.customerId = case.customerId := by
  cases hw with
  | unchanged _ _ haside => exact (haside _ rfl).elim
  | located _ _ _ k stored hstored =>
    refine ⟨stored, ?_, (served_customerId _ _).symm⟩
    rw [served_caseId, (hfiled.keyed k stored hstored).1]
    exact hstored
  | created _ _ _ alert _ hreply =>
    cases hreply _ rfl
    exact ⟨_, Dict.get?_set_self _ _ _, rfl⟩

/-- A call keeps what holds. -/
theorem Fact.Holds.perform {f : Fact} (h : f.Holds routine w) (draws : EngineDraws)
    (call : EngineCall) : f.Holds routine (w.perform env draws call).2 := by
  cases f with
  | named c evidenceId =>
    obtain ⟨event, hevent, hnames⟩ := h
    exact ⟨event, (perform_logs env w draws call).2 event hevent, hnames⟩
  | owns c customerId =>
    intro hroutine
    obtain ⟨hdrawn, hcustomer⟩ := h hroutine
    have hw := perform_writes env w draws call
    refine ⟨Nat.lt_of_lt_of_le hdrawn hw.nextUuid_le, fun case hcase => ?_⟩
    obtain ⟨old, hold, heq⟩ := hw.customerId hdrawn hcase
    exact heq.trans (hcustomer old hold)
  | recorded => exact h

/-- The customer of a stored case is known. -/
theorem owns_of_stored (hfiled : Filed w.store) {stored : CaseData}
    (hstored : w.store.cases.get? c = some stored) :
    (Fact.owns c stored.customerId).Holds routine w := by
  intro _
  refine ⟨(hfiled.keyed c stored hstored).2, fun case hcase => ?_⟩
  cases hstored.symm.trans hcase
  rfl

/-- What a reply teaches holds after the call. -/
theorem Teaches.holds (hfiled : Filed w.store) (hserves : routine → op.Routine)
    {r : Except PyError call.Reply} (hr : (w.perform env draws call).1 = r) {f : Fact}
    (h : Teaches op call r f) (hthreads : ∀ c checkpoint, w.store.threads.get? c = some checkpoint →
      checkpoint.values.Backed env (w.facts routine) c) :
    f.Holds routine (w.perform env draws call).2 := by
  have hw := perform_writes env w draws call
  have hfiled' {call : EngineCall} (hput : ∀ c checkpoint, call ≠ .putCheckpoint c checkpoint) :
      Filed (w.perform env draws call).2.store :=
    hfiled.writes (perform_writes env w draws call) fun c checkpoint h => absurd h (hput c checkpoint)
  cases h with
  | prepared _ _ case actorId contextCondition hop =>
    intro hroutine
    rw [hop] at hserves
    exact (hserves hroutine).elim
  | created alertId tenantId investigatorId case isNew =>
    rw [hr] at hw
    obtain ⟨stored, hstored, heq⟩ := hw.createCase_ok hfiled
    rw [← heq]
    exact owns_of_stored (hfiled' fun _ _ h => by cases h) hstored
  | read c case =>
    rw [hr] at hw
    obtain ⟨stored, hstored, rfl⟩ := hw.getCase_ok
    have hold : (Fact.owns c stored.customerId).Holds routine w := owns_of_stored hfiled hstored
    rw [served_caseId, served_customerId, (hfiled.keyed c stored hstored).1]
    exact hold.perform draws _
  | announced eventType actorId c payload evidenceId hnames =>
    obtain ⟨event, hevent, htype, hcase, hpayload⟩ := perform_audit hr
    refine ⟨event, hevent, hcase, ?_⟩
    rw [htype, hpayload]
    exact hnames
  | loaded c input checkpoint f hrests =>
    rw [hr] at hw
    exact ((hthreads c checkpoint hw.loadCheckpoint_ok).rests f hrests).perform draws _

namespace EvidenceScoped

/-- The state that a thread has saved, if any, rests on facts. -/
theorem savedValues_backed (h : EvidenceScoped env routine w) (c : UUID) :
    (savedValues (w.store.threads.get? c)).Backed env (w.facts routine) c := by
  cases hsaved : w.store.threads.get? c with
  | none =>
    refine ⟨⟨fun _ h => (by cases h), fun _ h => by cases h⟩, fun f hf => ?_⟩
    cases hf with
    | named item hitem => cases hitem
    | owns b hb => cases hb
    | recorded event hevent => cases hevent
  | some checkpoint => exact h.threads c checkpoint hsaved

/-- A call that rests on what holds keeps the evidence in scope. -/
theorem perform (h : EvidenceScoped env routine w) (hserves : routine → op.Routine)
    (hknown : ∀ f ∈ known, f.Holds routine w) (hcall : MayCall env op known call)
    (draws : EngineDraws) : EvidenceScoped env routine (w.perform env draws call).2 := by
  have hw := perform_writes env w draws call
  have hfacts : w.facts routine ⊆ (w.perform env draws call).2.facts routine :=
    fun f hf => Fact.Holds.perform hf draws call
  refine ⟨h.filed.writes hw ?_, fun c checkpoint hsaved => ?_, ?_, ?_⟩
  · rintro c checkpoint rfl
    exact hcall.inScope.bound
  · cases hw.threadChange hsaved with
    | kept _ _ _ hold => exact (h.threads c checkpoint hold).mono hfacts
    | put => exact hcall.mono fun f hf => hfacts (hknown f hf)
    | updated _ securityEvents hardBlocks saved hold values hvalues =>
      have hbacked := (h.savedValues_backed c).mono hfacts
      rw [← getD_values, ← hold] at hbacked
      have hirregular : ¬routine := fun hroutine => hcall (hserves hroutine)
      subst hvalues
      refine ⟨⟨hbacked.inScope.bound, hbacked.inScope.items⟩, fun f hf => ?_⟩
      cases hf with
      | named item hitem => exact hbacked.rests _ (.named item hitem)
      | owns b hb => exact hbacked.rests _ (.owns b hb)
      | recorded event hevent hv => exact hirregular
  · rw [(perform_logs env w draws call).1]
    exact h.executions
  · rw [hw.history]
    exact h.decided

/-- A mark keeps what holds. -/
theorem record_holds {f : Fact} (hf : f.Holds routine w) (n : EngineMark) :
    f.Holds routine (w.record n) := by
  cases f with
  | named c evidenceId => cases n <;> exact hf
  | owns c customerId =>
    intro hroutine
    rw [record_nextUuid, record_cases]
    exact hf hroutine
  | recorded => exact hf

/-- A mark that rests on what holds keeps the evidence in scope. -/
theorem record (h : EvidenceScoped env routine w) (hknown : ∀ f ∈ known, f.Holds routine w)
    {n : EngineMark} (hn : MayMark known n) : EvidenceScoped env routine (w.record n) := by
  refine ⟨h.filed.record n, fun c checkpoint hsaved => ?_, ?_, ?_⟩
  · rw [record_threads] at hsaved
    exact (h.threads c checkpoint hsaved).mono fun f hf => record_holds hf n
  · cases n with
    | executed execution =>
      intro e he
      rcases List.mem_append.mp he with hold | hnew
      · exact h.executions e hold
      · obtain rfl := List.mem_singleton.mp hnew
        exact hn
    | admitted | loaded | resetting | left | drafted | decided | reviewed => exact h.executions
  · cases n with
    | decided c version validation =>
      intro c' version' validation' hmem event hevent hviolation
      rcases List.mem_cons.mp hmem with heq | hold
      · cases heq
        exact hknown _ (hn event hevent hviolation)
      · exact h.decided c' version' validation' hold event hevent hviolation
    | executed | admitted | loaded | resetting | left | drafted | reviewed => exact h.decided

/-- Enrolling an operation changes nothing that is learnt. -/
theorem enroll (h : EvidenceScoped env routine w) (op : EngineOp) :
    (scopeMeaning env routine).Stable w (op.enroll w) := by
  have hholds : ∀ f : Fact, f.Holds routine w → f.Holds routine (op.enroll w) := by
    intro f hf
    cases f with
    | named => cases op <;> exact hf
    | owns => cases op <;> exact hf
    | recorded => exact hf
  refine ⟨⟨h.filed.enroll op, fun c checkpoint hsaved => ?_, ?_, ?_⟩, hholds⟩
  · rw [enroll_threads] at hsaved
    exact (h.threads c checkpoint hsaved).mono hholds
  · cases op <;> exact h.executions
  · cases op <;> exact h.decided

/-- The replies are as expected. -/
theorem expected (h : EvidenceScoped env routine w) (draws : EngineDraws) (call : EngineCall) :
    ScopedReply env call (w.perform env draws call).1 := by
  cases call with
  | loadCheckpoint c input =>
    intro checkpoint hsaved
    have hw := perform_writes env w draws (.loadCheckpoint c input)
    rw [hsaved] at hw
    exact (h.threads c checkpoint hw.loadCheckpoint_ok).inScope
  | toolExecutions => exact ⟨w.executions, rfl, h.executions⟩
  | createCase | getCase | deleteCase | getAlert | getCustomer | getKyc | getTransactions
    | saveRecommendation | saveReview | setStatus | audit | trajectoryHook | stageHook | recommend
    | uuid4 | putCheckpoint | getState | updateState | deleteThread => trivial

/-- On an idle engine nothing has been learnt. -/
theorem idle (env : EngineEnvironment) (routine : Prop) (bank : SyntheticBank) :
    (scopeMeaning env routine).Sound (fun _ => ∅) (idleEngine bank).world := by
  refine ⟨⟨filed_empty, ?_, ?_, ?_⟩, fun i f hf => hf.elim⟩
  · intro c checkpoint hsaved
    cases hsaved
  · intro execution hmem
    cases hmem
  · intro c version validation hmem
    cases hmem

end EvidenceScoped

/-- What is learnt about the evidence is true and stays so, whatever is interleaved. -/
theorem scope_keeps (env : EngineEnvironment) (routine : Prop) {Serves : EngineOp → Prop}
    (hserves : ∀ op, Serves op → routine → op.Routine)
    {allowed : EnginePool → Move EngineOp EngineDraws → Prop}
    (hallowed : ∀ p op, allowed p (.start op) → Serves op) :
    ((provenance env).chart Serves).Keeps (engineSystem env) allowed
      (scopeMeaning env routine).Sound fun _ => (scopeMeaning env routine).Sound := by
  apply Lessons.keeps hallowed
  · intro i op w h
    exact h.enroll op
  · intro w draws call h
    exact h.expected draws call
  · intro op w draws call known hop h hknown hcall
    refine ⟨⟨h.perform (hserves op hop) hknown hcall draws, fun f hf => hf.perform draws call⟩, ?_⟩
    intro f hf
    exact hf.holds h.filed (hserves op hop) rfl h.threads
  · intro op w n known hop h hknown hn
    exact ⟨h.record hknown hn, fun f hf => EvidenceScoped.record_holds hf n⟩

end Steps

/-- Every operation heeds what it learns. -/
theorem provenance_covers (env : EngineEnvironment) (Serves : EngineOp → Prop) :
    ((provenance env).chart Serves).Covers (engineSystem env) :=
  fun i op _ => program_heeds env i op

/-- What is learnt about the evidence holds in every reachable pool. -/
theorem scope_reaches (env : EngineEnvironment) (bank : SyntheticBank) (routine : Prop)
    {Serves : EngineOp → Prop} (hserves : ∀ op, Serves op → routine → op.Routine)
    {allowed : EnginePool → Move EngineOp EngineDraws → Prop}
    (hallowed : ∀ p op, allowed p (.start op) → Serves op) {p : EnginePool}
    (hreach : (engineSystem env).Reaches allowed (idleEngine bank) p) :
    ∃ φ, ((provenance env).chart Serves).Traces p φ ∧ (scopeMeaning env routine).Sound φ p.world :=
  (scope_keeps env routine hserves hallowed).reaches (provenance_covers env Serves)
    (Chart.traces_fresh _ _) (EvidenceScoped.idle env routine bank) hreach

/-- The evidence of a checkpoint that a call leaves has been named before the call. -/
theorem EvidenceScoped.named {env : EngineEnvironment} {routine : Prop} {w : EngineWorld}
    {op : EngineOp} {call : EngineCall} {known : Set Fact} (h : EvidenceScoped env routine w)
    (hknown : ∀ f ∈ known, f.Holds routine w) (hcall : MayCall env op known call)
    {draws : EngineDraws} {c : UUID} {checkpoint : Checkpoint}
    (hsaved : (w.perform env draws call).2.store.threads.get? c = some checkpoint)
    {item : EvidenceItem} (hitem : item ∈ checkpoint.values.evidence) :
    ∃ event ∈ w.auditEvents, event.Names c item.evidenceId := by
  have hw := perform_writes env w draws call
  cases hw.threadChange hsaved with
  | kept _ _ _ hold => exact (h.threads c checkpoint hold).rests _ (.named item hitem)
  | put => exact hknown _ (hcall.rests _ (.named item hitem))
  | updated _ securityEvents hardBlocks saved hold values hvalues =>
    have hbacked := h.savedValues_backed c
    rw [← getD_values, ← hold] at hbacked
    subst hvalues
    exact hbacked.rests _ (.named item hitem)

/-- A request to one of the tools of an investigation. -/
inductive ToolRequest where
  | alert (alertId : String)
  | customerProfile (customerId : String)
  | kycProfile (customerId : String)
  | transactions (customerId : String)

/-- The tool call, with the items that it returns. -/
def ToolRequest.call (env : EngineEnvironment) (auth : CaseBinding) :
    ToolRequest → Investigation (List EvidenceItem)
  | .alert alertId => do
    let item ← InvestigationTools.getAlert env auth alertId
    pure [item]
  | .customerProfile customerId => do
    let item ← InvestigationTools.getCustomerProfile env auth customerId
    pure [item]
  | .kycProfile customerId => do
    let item ← InvestigationTools.getKycProfile env auth customerId
    pure [item]
  | .transactions customerId => InvestigationTools.getTransactions env auth customerId

section Tools

variable {env : EngineEnvironment} {auth : CaseBinding} {α : Type} {marks : List EngineMark}

/-- One authorized execution has been recorded, of the items. -/
def Authorized (auth : CaseBinding) (items : List EvidenceItem) (marks : List EngineMark) : Prop :=
  ∃ execution : ToolExecution, marks = [.executed execution] ∧ execution.authorized = true ∧
    execution.caseId = auth.caseId ∧ execution.evidenceIds = items.map (·.evidenceId)

/-- A part that records nothing when it returns leaves all marks to what follows. -/
theorem marked_after {β : Type} {p : Investigation α} {f : α → Investigation β} {b : β}
    (hp : ∀ first a, p.Marked first (.ok a) → first = [])
    (h : (p >>= f).Marked marks (.ok b)) : ∃ a, (f a).Marked marks (.ok b) := by
  obtain ⟨first, a, rest, rfl, hfirst, hrest⟩ := h.bind_ok
  rw [hp first a hfirst]
  exact ⟨a, hrest⟩

/-- A call records nothing. -/
theorem invoke_marked {call : EngineCall} (first : List EngineMark) (reply : call.Reply)
    (h : (invoke call).Marked first (.ok reply)) : first = [] := Prog.marked_call h

/-- An authorization that returns has recorded nothing. -/
theorem authorize_marked {customerId toolName : String} (first : List EngineMark) (u : Unit)
    (h : (InvestigationTools.authorize auth customerId toolName).Marked first (.ok u)) :
    first = [] := by
  unfold InvestigationTools.authorize at h
  split at h
  · exact (Prog.marked_pure.mp h).1
  · obtain ⟨_, _, _, -, -, hdenied⟩ := h.bind_ok
    obtain ⟨_, hraised⟩ := marked_after invoke_marked hdenied
    obtain ⟨-, hr⟩ := Prog.marked_settleResult.mp hraised
    cases hr

/-- What is recorded and returned has been authorized. -/
theorem recorded_marked {r : Except PyError α} {toolName : String} {arguments : Json}
    (items : α → List EvidenceItem) {a : α}
    (h : Prog.Marked (S := engineSignature)
      (do
        let evidence ← computed r
        InvestigationTools.record auth toolName arguments (items evidence)
        pure evidence) marks (.ok a)) : Authorized auth (items a) marks := by
  obtain ⟨_, evidence, _, rfl, hcomputed, hrest⟩ := h.bind_ok
  obtain ⟨rfl, -⟩ := Prog.marked_settleResult.mp hcomputed
  obtain ⟨_, _, _, rfl, hrecord, hpure⟩ := hrest.bind_ok
  obtain ⟨rfl, ha⟩ := Prog.marked_pure.mp hpure
  cases ha
  obtain ⟨_, _, _, rfl, hjot, hinvoke⟩ := hrecord.bind_ok
  rw [Prog.marked_note hjot, Prog.marked_call hinvoke]
  exact ⟨_, rfl, rfl, rfl, rfl⟩

/-- The single item that a tool returns. -/
theorem single_marked {p : Investigation EvidenceItem} {items : List EvidenceItem}
    (hp : ∀ marks item, p.Marked marks (.ok item) → Authorized auth [item] marks)
    (h : Prog.Marked (S := engineSignature)
      (do
        let item ← p
        pure [item]) marks (.ok items)) : Authorized auth items marks := by
  obtain ⟨first, item, rest, rfl, hfirst, hpure⟩ := h.bind_ok
  obtain ⟨rfl, hitems⟩ := Prog.marked_pure.mp hpure
  cases hitems
  rw [List.append_nil]
  exact hp first item hfirst

/-- A tool call that returns has recorded one execution, which is authorized and lists its items. -/
theorem toolRequest_authorized (request : ToolRequest) {items : List EvidenceItem}
    (h : (request.call env auth).Marked marks (.ok items)) : Authorized auth items marks := by
  cases request with
  | alert alertId =>
    apply single_marked _ h
    intro marks item h
    obtain ⟨alert, h⟩ := marked_after invoke_marked h
    obtain ⟨_, h⟩ := marked_after authorize_marked h
    exact recorded_marked (fun item => [item]) h
  | customerProfile customerId =>
    apply single_marked _ h
    intro marks item h
    obtain ⟨_, h⟩ := marked_after authorize_marked h
    obtain ⟨customer, h⟩ := marked_after invoke_marked h
    exact recorded_marked (fun item => [item]) h
  | kycProfile customerId =>
    apply single_marked _ h
    intro marks item h
    obtain ⟨_, h⟩ := marked_after authorize_marked h
    obtain ⟨kyc, h⟩ := marked_after invoke_marked h
    exact recorded_marked (fun item => [item]) h
  | transactions customerId =>
    unfold ToolRequest.call InvestigationTools.getTransactions at h
    -- the limit is a numeral that unification would count down
    generalize InvestigationTools.transactionLimit = limit at h
    obtain ⟨_, h⟩ := marked_after authorize_marked h
    obtain ⟨all, h⟩ := marked_after invoke_marked h
    exact recorded_marked (fun items => items) h

end Tools

/-- An item of evidence is named in the audit log of its case before it enters a checkpoint, no
unauthorized execution lists evidence, and a tool call that returns evidence has recorded an authorized
execution that lists it: wherever a call fails, and whatever is interleaved. -/
theorem evidence_audited (env : EngineEnvironment) (bank : SyntheticBank) (p q : EnginePool)
    (hreach : (engineSystem env).Reaches (fun _ _ => True) (idleEngine bank) p)
    (hstep : (engineSystem env).Step (fun _ _ => True) p q) :
    (∀ c checkpoint, q.world.store.threads.get? c = some checkpoint →
      ∀ item ∈ checkpoint.values.evidence,
        ∃ event ∈ p.world.auditEvents, event.Names c item.evidenceId) ∧
    (∀ execution ∈ q.world.executions, execution.authorized = false → execution.evidenceIds = []) ∧
    ∀ (auth : CaseBinding) (request : ToolRequest) (marks : List EngineMark)
      (items : List EvidenceItem), (request.call env auth).Marked marks (.ok items) →
        Authorized auth items marks := by
  have hall : ∀ op : EngineOp, True → False → op.Routine := fun _ _ h => h.elim
  obtain ⟨φ, hφ, hsound⟩ := scope_reaches env bank False hall (fun _ _ _ => trivial) hreach
  obtain ⟨_, -, hsound'⟩ := scope_reaches env bank False hall (fun _ _ _ => trivial)
    (hreach.tail hstep)
  refine ⟨fun c checkpoint hsaved item hitem => ?_,
    fun execution hmem => (hsound'.1.executions execution hmem).unauthorized,
    fun auth request marks items => toolRequest_authorized request⟩
  obtain ⟨move, -, hmove⟩ := hstep
  cases move with
  | start op =>
    rw [System.move_start] at hmove
    cases hmove
    change ((engineSystem env).rest _ (op.enroll p.world)).2.store.threads.get? c = some checkpoint
      at hsaved
    rw [rest_threads, enroll_threads] at hsaved
    exact (hsound.1.threads c checkpoint hsaved).rests _ (.named item hitem)
  | advance i draws =>
    obtain ⟨op, call, k, htask, rfl⟩ := System.move_advance hmove
    change ((engineSystem env).rest _ (p.world.perform env draws call).2).2.store.threads.get? c =
      some checkpoint at hsaved
    rw [rest_threads] at hsaved
    obtain ⟨m, hcall, -⟩ := hφ.edge htask (hsound.1.expected draws call)
    exact hsound.1.named (hsound.2 i) hcall hsaved hitem

/-- The first checkpoint with evidence, whose items have been audited. -/
theorem evidence_audited_start :
    ∃ (p q : EnginePool) (checkpoint : Checkpoint) (item : EvidenceItem),
      (engineSystem (sampleEnvironment .inMemory)).Reaches (fun _ _ => True)
        (idleEngine sampleBank) p ∧
      q.world.store.threads.get? 0 = some checkpoint ∧ item ∈ checkpoint.values.evidence ∧
        ∃ event ∈ p.world.auditEvents, event.Names 0 item.evidenceId := by
  obtain ⟨p, hreach, htest⟩ := System.exists_reaches (engineSystem (sampleEnvironment .inMemory))
    (fun _ _ => true) (fun _ _ _ => trivial) (idleEngine sampleBank) (undisturbed 0 sampleStart 18)
    (fun p => ((engineSystem (sampleEnvironment .inMemory)).move p (.advance 0 quietDraws)).any
      fun q => (q.world.store.threads.get? 0).any fun checkpoint => checkpoint.values.evidence ≠ [])
    (by decide +kernel)
  obtain ⟨q, hmove, hsaved⟩ := (Option.any_eq_true _ _).mp htest
  obtain ⟨checkpoint, hcheckpoint, hevidence⟩ := (Option.any_eq_true _ _).mp hsaved
  obtain ⟨item, hitem⟩ := List.exists_mem_of_ne_nil _ (of_decide_eq_true hevidence)
  exact ⟨p, q, checkpoint, item, hreach, hcheckpoint, hitem,
    (evidence_audited _ _ p q hreach ⟨_, trivial, hmove⟩).1 0 checkpoint hcheckpoint item hitem⟩

end Amlguard
