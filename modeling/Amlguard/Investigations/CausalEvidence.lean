import Amlguard.Investigations.ReleaseGate

/-!
# Causal transactions in the evidence

`load_and_retrieve` takes the transactions of the customer from `get_transactions`, which keeps the
last ones in the order in which the repository serves them: the stored order in memory, the order of
booking on PostgreSQL. A transaction that caused the alert is kept when it is among them.
-/

namespace Amlguard

open Awaited Prog

/-- `causal_transaction_ids` of an alert. -/
def SyntheticAlert.causalTransactionIds (alert : SyntheticAlert) : List String :=
  match alert.document with
  | .object fields =>
    match fields.find? fun field => field.1 = "causal_transaction_ids" with
    | some (_, .array ids) => ids.filterMap fun id => match id with
      | .string id => some id
      | _ => none
    | _ => []
  | _ => []

/-- A stored transaction with the instant of its booking. -/
structure BookedTransaction where
  record : SyntheticTransaction
  bookedAt : Datetime

/-- The order in which a repository serves stored transactions. PostgreSQL sorts them by their
booking and leaves the order of equal ones open. -/
def RepositoryBackend.Serves (backend : RepositoryBackend) (stored : List BookedTransaction)
    (served : List SyntheticTransaction) : Prop :=
  match backend with
  | .inMemory => served = stored.map (·.record)
  | .postgres => ∃ ordered : List BookedTransaction, ordered.Perm stored ∧
      ordered.Pairwise (fun a b => a.bookedAt ≤ b.bookedAt) ∧ served = ordered.map (·.record)

/-- The transactions of a customer, in the order in which they are served. -/
def transactionsOf (served : List SyntheticTransaction) (customerId : String) :
    List SyntheticTransaction :=
  served.filter fun item => item.customerId == customerId

/-- The ID is that of one of the last transactions of the customer. -/
def Recent (served : List SyntheticTransaction) (customerId id : String) : Prop :=
  ∃ item ∈ (transactionsOf served customerId).drop
    ((transactionsOf served customerId).length - InvestigationTools.transactionLimit),
    item.transactionId = id

/-- The evidence has a transaction with the ID. -/
def HoldsTransaction (evidence : List EvidenceItem) (id : String) : Prop :=
  ∃ item ∈ evidence, item.evidenceType = "transaction" ∧ item.evidenceId = id

section Loading

variable {env : EngineEnvironment} {w w' : EngineWorld} {auth : CaseBinding}

/-- A program of the engine is executed on its own, and any of its calls may fail. -/
abbrev RunsAlone {α : Type} (env : EngineEnvironment) (p : Investigation α) (w : EngineWorld)
    (r : Except PyError α) (w' : EngineWorld) : Prop :=
  p.Executes (engineSystem env).toMachine (fun _ _ _ => True) w r w'

/-- No call changes the bank. -/
theorem perform_bank (env : EngineEnvironment) (w : EngineWorld) (draws : EngineDraws)
    (c : EngineCall) : (w.perform env draws c).2.bank = w.bank := by
  have heffect : (w.effect env draws c).2.bank = w.bank := by
    cases c <;> rfl
  rcases engine_perform_cases env w draws c with heq | ⟨_, e, heq | heq⟩
  · rw [heq, heffect]
  · rw [heq]
  · rw [heq, heffect]

/-- No program changes the bank. -/
theorem RunsAlone.bank {α : Type} {p : Investigation α} {r : Except PyError α}
    (h : RunsAlone env p w r w') : w'.bank = w.bank := by
  induction h with
  | done r w => rfl
  | mark n p w w' r hrest ih =>
    rw [ih]
    cases n <;> rfl
  | await c k w w' draws r hok hrest ih =>
    rw [ih]
    exact perform_bank env w draws c

/-- A sequence that returns has run both of its parts, over the same bank. -/
theorem RunsAlone.bind {α β : Type} {p : Investigation α} {f : α → Investigation β} {b : β}
    (h : RunsAlone env (p >>= f) w (.ok b) w') :
    ∃ a w₁, RunsAlone env p w (.ok a) w₁ ∧ w₁.bank = w.bank ∧ RunsAlone env (f a) w₁ (.ok b) w' := by
  obtain ⟨r, w₁, hp, hf⟩ := executes_bind.mp h
  cases r with
  | ok a => exact ⟨a, w₁, hp, RunsAlone.bank hp, hf⟩
  | error e => cases hf.1

/-- A call that returns has had its effect. -/
theorem RunsAlone.invoke {c : EngineCall} {reply : c.Reply}
    (h : RunsAlone env (invoke c) w (.ok reply) w') :
    ∃ draws, w.effect env draws c = (.ok reply, w') := by
  obtain ⟨draws, -, hreply, rfl⟩ := executes_call.mp h
  have heffect : w.perform env draws c = w.effect env draws c := perform_ok hreply.symm
  exact ⟨draws, by rw [← heffect, hreply]; rfl⟩

/-- What has been computed is returned. -/
theorem RunsAlone.computed {α : Type} {r : Except PyError α} {a : α}
    (h : RunsAlone env (computed r) w (.ok a) w') : r = .ok a :=
  (executes_settleResult.mp h).1.symm

/-- A tool returns the evidence that it has made and recorded. -/
theorem RunsAlone.recorded {α : Type} {made : Except PyError α} {tool : String} {arguments : Json}
    {items : α → List EvidenceItem} {a : α}
    (h : RunsAlone env (do
      let evidence ← Amlguard.computed made
      InvestigationTools.record auth tool arguments (items evidence)
      pure evidence) w (.ok a) w') : made = .ok a := by
  obtain ⟨evidence, w₁, hcomputed, -, h⟩ := h.bind
  obtain ⟨_, w₂, -, -, h⟩ := h.bind
  obtain ⟨hr, -⟩ := executes_pure.mp h
  cases hr
  exact hcomputed.computed

/-- The item that is made of a record. -/
theorem evidenceFromModel_ok {evidenceId evidenceType sourceRecordId : String} {caseId : UUID}
    {customerId : String} {content : Json} {provenance : String} {item : EvidenceItem}
    (h : evidenceFromModel env evidenceId evidenceType sourceRecordId caseId customerId content
      provenance = .ok item) : item.evidenceId = evidenceId ∧ item.evidenceType = evidenceType := by
  unfold evidenceFromModel at h
  split at h
  · cases h
    exact ⟨rfl, rfl⟩
  · cases h

/-- The items of transactions have their IDs. -/
theorem holdsTransaction_mapM {records : List SyntheticTransaction} {caseId : UUID}
    {customerId provenance : String} {items : List EvidenceItem}
    (h : (records.mapM fun item => evidenceFromModel env item.transactionId "transaction"
      item.transactionId caseId customerId item.document provenance) = .ok items) (id : String) :
    HoldsTransaction items id ↔ ∃ item ∈ records, item.transactionId = id := by
  unfold HoldsTransaction
  induction records generalizing items with
  | nil =>
    cases h
    simp
  | cons record rest ih =>
    rw [List.mapM_cons] at h
    obtain ⟨first, hfirst, h⟩ := bind_eq_ok.mp h
    obtain ⟨others, hothers, h⟩ := bind_eq_ok.mp h
    cases h
    obtain ⟨hid, htype⟩ := evidenceFromModel_ok hfirst
    simp only [List.mem_cons, exists_eq_or_imp, hid, htype, true_and]
    rw [ih hothers]

/-- What `get_transactions` returns are the items of the last transactions. -/
theorem getTransactions_ok {items : List EvidenceItem}
    (h : RunsAlone env (InvestigationTools.getTransactions env auth auth.customerId) w (.ok items) w')
    (id : String) :
    HoldsTransaction items id ↔ Recent w.bank.transactions auth.customerId id := by
  obtain ⟨_, w₁, -, hbank, h⟩ := h.bind
  obtain ⟨all, w₂, hall, -, h⟩ := h.bind
  obtain ⟨draws, heffect⟩ := hall.invoke
  cases heffect
  rw [holdsTransaction_mapM h.recorded id, hbank]
  rfl

/-- An item of a tool that reads one record is no transaction. -/
theorem evidenceType_of_tool {item : EvidenceItem}
    (h : RunsAlone env (InvestigationTools.getAlert env auth auth.alertId) w (.ok item) w' ∨
      RunsAlone env (InvestigationTools.getCustomerProfile env auth auth.customerId) w (.ok item) w' ∨
      RunsAlone env (InvestigationTools.getKycProfile env auth auth.customerId) w (.ok item) w') :
    item.evidenceType ≠ "transaction" := by
  rcases h with h | h | h
  · obtain ⟨alert, w₁, -, -, h⟩ := h.bind
    obtain ⟨_, w₂, -, -, h⟩ := h.bind
    rw [(evidenceFromModel_ok h.recorded).2]
    decide
  · obtain ⟨_, w₁, -, -, h⟩ := h.bind
    obtain ⟨customer, w₂, -, -, h⟩ := h.bind
    rw [(evidenceFromModel_ok h.recorded).2]
    decide
  · obtain ⟨_, w₁, -, -, h⟩ := h.bind
    obtain ⟨kyc, w₂, -, -, h⟩ := h.bind
    rw [(evidenceFromModel_ok h.recorded).2]
    decide

/-- When the stage returns, its evidence has exactly the last transactions of the customer. -/
theorem loadAndRetrieve_ok {b : CaseBinding} {values values' : InvestigationState}
    (h : RunsAlone env (loadAndRetrieve env b values) w (.ok (.updated values')) w') (id : String) :
    HoldsTransaction values'.evidence id ↔ Recent w.bank.transactions b.customerId id := by
  obtain ⟨_, w₁, -, hbank₁, h⟩ := h.bind
  obtain ⟨alert, w₂, halert, hbank₂, h⟩ := h.bind
  obtain ⟨customer, w₃, hcustomer, hbank₃, h⟩ := h.bind
  obtain ⟨kyc, w₄, hkyc, hbank₄, h⟩ := h.bind
  obtain ⟨transactions, w₅, htransactions, -, h⟩ := h.bind
  obtain ⟨selection, w₆, -, -, h⟩ := h.bind
  obtain ⟨executions, w₇, -, -, h⟩ := h.bind
  obtain ⟨_, w₈, -, -, h⟩ := h.bind
  obtain ⟨_, w₉, -, -, h⟩ := h.bind
  obtain ⟨hr, -⟩ := executes_pure.mp h
  cases hr
  have hlast := getTransactions_ok htransactions id
  rw [hbank₄, hbank₃, hbank₂, hbank₁] at hlast
  rw [← hlast]
  have hother := evidenceType_of_tool (.inl halert)
  have hother' := evidenceType_of_tool (.inr (.inl hcustomer))
  have hother'' := evidenceType_of_tool (.inr (.inr hkyc))
  simp [HoldsTransaction, InvestigationState.withEvidence, hother, hother', hother'']

end Loading

/-- When `load_and_retrieve` returns without failure, its evidence contains a transaction for every
causal transaction ID of the alert exactly when each of them is the ID of one of the last transactions
of the customer, in the order in which the repository serves them. -/
theorem causal_in_evidence_iff_recent (env : EngineEnvironment) (w w' : EngineWorld)
    (b : CaseBinding) (values values' : InvestigationState)
    (h : RunsAlone env (loadAndRetrieve env b values) w (.ok (.updated values')) w') :
    ∀ alert ∈ w.bank.alerts.find? fun alert => alert.alertId == b.alertId,
      (∀ id ∈ alert.causalTransactionIds, HoldsTransaction values'.evidence id) ↔
        ∀ id ∈ alert.causalTransactionIds, Recent w.bank.transactions b.customerId id := by
  intro alert _
  constructor
  · intro hholds id hid
    exact (loadAndRetrieve_ok h id).mp (hholds id hid)
  · intro hrecent id hid
    exact (loadAndRetrieve_ok h id).mpr (hrecent id hid)

/-- An alert about one transaction. -/
def causalAlert : SyntheticAlert :=
  ⟨"A-1", "C-1", .object [("causal_transaction_ids", .array [.string "TX-0"])]⟩

/-- Numbered transactions of one customer, booked one microsecond after another. -/
def numberedTransactions (n : ℕ) : List BookedTransaction :=
  (List.range n).map fun i => ⟨⟨"TX-" ++ toString i, "C-1", .null⟩, i⟩

/-- A case in an engine whose bank has numbered transactions, the first of which caused the alert. -/
def numberedEngine (n : ℕ) : EngineWorld :=
  { oneCase with
    bank := { sampleBank with
      alerts := [causalAlert], transactions := (numberedTransactions n).map (·.record) } }

/-- The binding of the case. -/
def openBinding : CaseBinding := ⟨0, 0, "A-1", "C-1", "investigator", "B5"⟩

/-- The stage ends with evidence that passes a test. -/
def endsWith (test : List EvidenceItem → Bool) : Except PyError StageEnd × EngineWorld → Bool
  | (.ok (.updated values), _) => test values.evidence
  | _ => false

/-- The stage is run to its end. -/
theorem exists_loaded (n : ℕ) (test : List EvidenceItem → Bool)
    (h : ((loadAndRetrieve (sampleEnvironment .inMemory) openBinding {}).runChecked
      (engineSystem (sampleEnvironment .inMemory)).toMachine (fun _ _ _ => true) quietDraws
        (numberedEngine n)).any (endsWith test) = true) :
    ∃ values w', RunsAlone (sampleEnvironment .inMemory)
      (loadAndRetrieve (sampleEnvironment .inMemory) openBinding {}) (numberedEngine n)
        (.ok (.updated values)) w' ∧ test values.evidence = true := by
  obtain ⟨r, w', hrun, htest⟩ := exists_executes
    (engineSystem (sampleEnvironment .inMemory)).toMachine (fun _ _ _ => true) (fun _ _ _ _ => trivial)
    quietDraws _ _ (endsWith test) h
  match r, hrun, htest with
  | .ok (.updated values), hrun, htest => exact ⟨values, w', hrun, htest⟩

/-- With three transactions the causal one is in evidence. -/
theorem causal_in_evidence_iff_recent_three :
    ∃ values w', RunsAlone (sampleEnvironment .inMemory)
        (loadAndRetrieve (sampleEnvironment .inMemory) openBinding {}) (numberedEngine 3)
          (.ok (.updated values)) w' ∧
      ∀ alert ∈ (numberedEngine 3).bank.alerts.find? fun alert => alert.alertId == "A-1",
        (∀ id ∈ alert.causalTransactionIds, HoldsTransaction values.evidence id) ↔
          ∀ id ∈ alert.causalTransactionIds, Recent (numberedEngine 3).bank.transactions "C-1" id := by
  obtain ⟨values, w', hrun, -⟩ := exists_loaded 3 (fun _ => true) (by decide +kernel)
  exact ⟨values, w', hrun, causal_in_evidence_iff_recent _ _ _ openBinding _ _ hrun⟩

/-- With 251 transactions the first of them is lost, though it caused the alert. -/
theorem causal_transaction_lost :
    ¬∀ (env : EngineEnvironment) (stored : List BookedTransaction) (w w' : EngineWorld)
      (b : CaseBinding) (values values' : InvestigationState) (alert : SyntheticAlert),
      env.backend.Serves stored w.bank.transactions →
        (∀ id ∈ alert.causalTransactionIds, ∃ item ∈ stored, item.record.transactionId = id ∧
          item.record.customerId = alert.customerId) →
          (w.bank.alerts.find? fun alert => alert.alertId == b.alertId) = some alert →
            RunsAlone env (loadAndRetrieve env b values) w (.ok (.updated values')) w' →
              ∀ id ∈ alert.causalTransactionIds, HoldsTransaction values'.evidence id := by
  intro h
  obtain ⟨values, w', hrun, hlost⟩ := exists_loaded 251
    (fun evidence => evidence.all fun item => item.evidenceId ≠ "TX-0") (by decide +kernel)
  have hcausal : ∀ id ∈ causalAlert.causalTransactionIds, ∃ item ∈ numberedTransactions 251,
      item.record.transactionId = id ∧ item.record.customerId = causalAlert.customerId := by
    intro id hid
    rw [show causalAlert.causalTransactionIds = ["TX-0"] from rfl, List.mem_singleton] at hid
    subst hid
    refine ⟨⟨⟨"TX-0", "C-1", .null⟩, 0⟩, ?_, rfl, rfl⟩
    apply List.mem_map.mpr
    exact ⟨0, List.mem_range.mpr (by omega), rfl⟩
  obtain ⟨item, hitem, -, hid⟩ := h (sampleEnvironment .inMemory) (numberedTransactions 251)
    (numberedEngine 251) w' openBinding {} values causalAlert rfl hcausal rfl hrun "TX-0" (by decide)
  exact of_decide_eq_true (List.all_eq_true.mp hlost item hitem) hid

end Amlguard
