import Amlguard.Investigations.Repository
import Amlguard.Library.HashChain
import Mathlib.Data.List.Sort
import Mathlib.Logic.Equiv.List

/-!
# The audit chain

The in-memory audit log, its conversion by `build_runtime_governance_evidence`, and
`verify_chain`, which sorts the events by sequence and follows the hashes from the genesis.

The hash is a parameter, and so are the payloads: only the hash looks into them.
-/

namespace Amlguard

open HashChain

variable {Payload : Type}

/-- An event of the audit chain. -/
structure ChainedAuditEvent (Payload : Type) where
  sequence : ℤ
  eventType : String
  actorId : String
  caseId : String
  payload : Payload
  previousHash : String
  eventHash : String
  deriving DecidableEq

/-- A hash of the six fields of an event. -/
abbrev EventHash (Payload : Type) :=
  ℤ → String → String → String → Payload → String → String

/-- The hash that an event should store when it follows another hash. -/
def ChainedAuditEvent.expected (calculateEventHash : EventHash Payload) (previous : String)
    (event : ChainedAuditEvent Payload) : String :=
  calculateEventHash event.sequence event.eventType event.actorId event.caseId event.payload previous

/-- The loop of `verify_chain` over the sorted events. -/
def verifyFrom (calculateEventHash : EventHash Payload) :
    String → List (ChainedAuditEvent Payload) → List ℤ
  | _, [] => []
  | previous, event :: rest =>
    (if event.previousHash ≠ previous ∨ event.eventHash ≠ event.expected calculateEventHash previous
      then [event.sequence] else []) ++ verifyFrom calculateEventHash event.eventHash rest

/-- The events in the order of their sequence numbers. -/
def inSequence (events : List (ChainedAuditEvent Payload)) : List (ChainedAuditEvent Payload) :=
  events.insertionSort fun a b => a.sequence ≤ b.sequence

/-- Sorting neither adds nor drops events. -/
theorem mem_inSequence {events : List (ChainedAuditEvent Payload)} {event : ChainedAuditEvent Payload} :
    event ∈ inSequence events ↔ event ∈ events :=
  (List.perm_insertionSort _ events).mem_iff

/-- Events that are later in sequence are sorted behind. -/
theorem inSequence_append {front back : List (ChainedAuditEvent Payload)}
    (h : ∀ event ∈ front, ∀ later ∈ back, event.sequence ≤ later.sequence) :
    inSequence (front ++ back) = inSequence front ++ inSequence back := by
  induction front with
  | nil => rfl
  | cons event rest ih =>
    have hrest := ih fun event' hevent' => h event' (List.mem_cons_of_mem _ hevent')
    change List.orderedInsert _ event (inSequence (rest ++ back)) =
      List.orderedInsert _ event (inSequence rest) ++ inSequence back
    rw [hrest]
    generalize inSequence rest = sorted
    induction sorted with
    | nil =>
      cases hback : inSequence back with
      | nil => rfl
      | cons later others =>
        apply List.orderedInsert_cons_of_le
        apply h event (List.mem_cons_self ..) later
        rw [← mem_inSequence, hback]
        exact List.mem_cons_self ..
    | cons next others ihsorted =>
      rw [List.cons_append, List.orderedInsert_cons, List.orderedInsert_cons, ihsorted]
      split <;> rfl

/-- The last event in sequence has the greatest number. -/
theorem sequence_le_of_getLast? {events : List (ChainedAuditEvent Payload)}
    {event latest : ChainedAuditEvent Payload} (hlatest : (inSequence events).getLast? = some latest)
    (hevent : event ∈ events) : event.sequence ≤ latest.sequence := by
  obtain ⟨front, hfront⟩ := List.getLast?_eq_some_iff.mp hlatest
  have hsorted : (inSequence events).Pairwise fun a b => a.sequence ≤ b.sequence :=
    List.pairwise_insertionSort _ events
  rw [← mem_inSequence, hfront, List.mem_append, List.mem_singleton] at hevent
  rw [hfront, List.pairwise_append] at hsorted
  rcases hevent with hfront' | rfl
  · exact hsorted.2.2 event hfront' latest (List.mem_singleton_self _)
  · exact le_refl _

/-- `verify_chain`. -/
def verifyChain (calculateEventHash : EventHash Payload) (events : List (ChainedAuditEvent Payload)) :
    List ℤ :=
  verifyFrom calculateEventHash genesisHash (inSequence events)

/-- Events that follow each other from a hash. -/
abbrev Chained (calculateEventHash : EventHash Payload) (h : String)
    (events : List (ChainedAuditEvent Payload)) : Prop :=
  Linked (·.previousHash) (·.eventHash) (fun h event => event.expected calculateEventHash h) h events

/-- The loop reports nothing exactly when the events are chained. -/
theorem verifyFrom_eq_nil {calculateEventHash : EventHash Payload} {h : String}
    {events : List (ChainedAuditEvent Payload)} :
    verifyFrom calculateEventHash h events = [] ↔ Chained calculateEventHash h events := by
  induction events generalizing h with
  | nil => simp [verifyFrom, Linked]
  | cons event rest ih =>
    rw [verifyFrom, List.append_eq_nil_iff, ih]
    by_cases hprior : event.previousHash = h
    · by_cases hstored : event.eventHash = event.expected calculateEventHash h
      · simp [Linked, hprior, hstored]
      · simp [Linked, hstored]
    · simp [Linked, hprior]

/-- The events are numbered from one on, in the order in which they are listed. -/
def Numbered (events : List (ChainedAuditEvent Payload)) : Prop :=
  events.map (·.sequence) = (List.range events.length).map fun i : ℕ => (i : ℤ) + 1

/-- Numbered events are in sequence. -/
theorem Numbered.inSequence_eq {events : List (ChainedAuditEvent Payload)} (h : Numbered events) :
    inSequence events = events := by
  apply List.Pairwise.insertionSort_eq
  apply List.pairwise_map.mp
  rw [h, List.pairwise_map]
  exact List.pairwise_lt_range.imp fun hlt => by omega

/-- Events stay numbered when the next one has the next number. -/
theorem Numbered.append {events : List (ChainedAuditEvent Payload)} (h : Numbered events)
    {event : ChainedAuditEvent Payload} (hevent : event.sequence = events.length + 1) :
    Numbered (events ++ [event]) := by
  unfold Numbered
  rw [List.map_append, h, List.length_append, List.length_singleton, List.range_succ,
    List.map_append, List.map_singleton, List.map_singleton, hevent]

/-- The first of numbered events are numbered. -/
theorem Numbered.of_append {front back : List (ChainedAuditEvent Payload)}
    (h : Numbered (front ++ back)) : Numbered front := by
  unfold Numbered at h ⊢
  rw [List.map_append, List.length_append, List.range_add, List.map_append] at h
  exact (List.append_inj h (by simp)).1

/-- The numbers of numbered events. -/
theorem Numbered.mem_iff {events : List (ChainedAuditEvent Payload)} (h : Numbered events) (n : ℤ) :
    (∃ event ∈ events, event.sequence = n) ↔ 1 ≤ n ∧ n ≤ events.length := by
  rw [← List.mem_map, h, List.mem_map]
  constructor
  · rintro ⟨i, hi, rfl⟩
    have hlt := List.mem_range.mp hi
    omega
  · rintro ⟨hone, hle⟩
    exact ⟨(n - 1).toNat, List.mem_range.mpr (by omega), by omega⟩

/-- Numbered events are told apart by their numbers. -/
theorem Numbered.eq_of_sequence {events : List (ChainedAuditEvent Payload)} (h : Numbered events)
    {left right : ChainedAuditEvent Payload} (hleft : left ∈ events) (hright : right ∈ events)
    (heq : left.sequence = right.sequence) : left = right := by
  apply List.inj_on_of_nodup_map _ hleft hright heq
  rw [h]
  exact List.nodup_range.map fun i j hij => by
    have hij' : (i : ℤ) + 1 = (j : ℤ) + 1 := hij
    omega

/-- The number of the last of numbered events. -/
theorem Numbered.getLast? {events : List (ChainedAuditEvent Payload)} (h : Numbered events)
    {event : ChainedAuditEvent Payload} (hlast : events.getLast? = some event) :
    event.sequence = events.length := by
  have hmap : (events.map (·.sequence)).getLast? = some event.sequence := by
    rw [List.getLast?_map, hlast]
    rfl
  rw [h, List.getLast?_map, List.getLast?_range] at hmap
  split at hmap
  · cases hmap
  · rename_i hne
    have hnumber : ((events.length - 1 : ℕ) : ℤ) + 1 = event.sequence := Option.some.inj hmap
    omega

/-- A value in a dictionary of the audit log. -/
inductive LogValue (Payload : Type) where
  | integer (n : ℤ)
  | text (s : String)
  | uuid (id : UUID)
  | object (payload : Payload)

/-- A dictionary of the audit log. -/
abbrev LogEntry (Payload : Type) := List (String × LogValue Payload)

/-- The hash, and what Python does with payloads and with texts that should be numbers. -/
structure AuditFormat (Payload : Type) where
  calculateEventHash : EventHash Payload
  emptyPayload : Payload
  payloadText : Payload → String
  intOf : String → Except PyError ℤ

/-- The arguments of an audit call. -/
structure AuditCall (Payload : Type) where
  eventType : String
  actorId : String
  caseId : UUID
  payload : Payload

section Log

variable (format : AuditFormat Payload)

/-- `str(value)`. -/
def LogValue.str : LogValue Payload → String
  | .integer n => toString n
  | .text s => s
  | .uuid id => UUID.str id
  | .object payload => format.payloadText payload

/-- The hash at the head of the log. -/
def headHash (log : List (LogEntry Payload)) : Except PyError String :=
  match log.getLast? with
  | some entry => (orRaise (entry.lookup "event_hash") (.keyError "event_hash")).map (·.str format)
  | none => .ok genesisHash

/-- The dictionary that an audit call appends. -/
def auditEntry (call : AuditCall Payload) (sequence : ℤ) (previousHash : String) : LogEntry Payload :=
  [("sequence", .integer sequence), ("event_type", .text call.eventType),
    ("actor_id", .text call.actorId), ("case_id", .uuid call.caseId),
    ("payload", .object call.payload), ("previous_hash", .text previousHash),
    ("event_hash", .text (format.calculateEventHash sequence call.eventType call.actorId
      (UUID.str call.caseId) call.payload previousHash))]

/-- `InMemoryInvestigationRepository.audit`. -/
def appendAudit (log : List (LogEntry Payload)) (call : AuditCall Payload) :
    Except PyError (List (LogEntry Payload)) := do
  let previousHash ← headHash format log
  pure (log ++ [auditEntry format call (log.length + 1) previousHash])

/-- A sequence of audit calls. -/
def auditAll (calls : List (AuditCall Payload)) : Except PyError (List (LogEntry Payload)) :=
  calls.foldlM (appendAudit format) []

/-- `str(item.get(key, default))`. -/
def LogEntry.text (item : LogEntry Payload) (key default : String) : String :=
  ((item.lookup key).map (·.str format)).getD default

/-- The conversion of one dictionary in `build_runtime_governance_evidence`. -/
def chainedEvent (item : LogEntry Payload) : Except PyError (ChainedAuditEvent Payload) := do
  let sequence ← match (item.lookup "sequence").getD (.integer 0) with
    | .integer n => pure n
    | .text s => format.intOf s
    | .uuid _ | .object _ => pure 0
  pure
    { sequence
      eventType := item.text format "event_type" "unknown"
      actorId := item.text format "actor_id" "unknown"
      caseId := item.text format "case_id" "unknown"
      payload := match item.lookup "payload" with
        | some (.object payload) => payload
        | _ => format.emptyPayload
      previousHash := item.text format "previous_hash" ""
      eventHash := item.text format "event_hash" "" }

/-- `invalid_audit_sequences` of `build_runtime_governance_evidence`. -/
def invalidAuditSequences (log : List (LogEntry Payload)) : Except PyError (List ℤ) := do
  let chained ← log.mapM (chainedEvent format)
  pure (verifyChain format.calculateEventHash chained)

/-- The event that the dictionary of an audit call converts to. -/
def auditEvent (call : AuditCall Payload) (sequence : ℤ) (previousHash : String) :
    ChainedAuditEvent Payload where
  sequence := sequence
  eventType := call.eventType
  actorId := call.actorId
  caseId := UUID.str call.caseId
  payload := call.payload
  previousHash := previousHash
  eventHash := format.calculateEventHash sequence call.eventType call.actorId
    (UUID.str call.caseId) call.payload previousHash

/-- The log converts to a chain that is numbered from one on and ends in its head. -/
structure Faithful (log : List (LogEntry Payload)) (events : List (ChainedAuditEvent Payload)) :
    Prop where
  converts : log.mapM (chainedEvent format) = .ok events
  chained : Chained format.calculateEventHash genesisHash events
  length : events.length = log.length
  numbered : Numbered events
  head : headHash format log = .ok (tip (·.eventHash) genesisHash events)

variable {format}

/-- An audit call extends a faithful log. -/
theorem Faithful.append {log : List (LogEntry Payload)} {events : List (ChainedAuditEvent Payload)}
    (h : Faithful format log events) (call : AuditCall Payload) :
    ∃ log' events', appendAudit format log call = .ok log' ∧ Faithful format log' events' := by
  let head := tip (·.eventHash) genesisHash events
  let event := auditEvent format call (log.length + 1) head
  have happend : appendAudit format log call =
      .ok (log ++ [auditEntry format call (log.length + 1) head]) := by
    rw [appendAudit, h.head]
    rfl
  refine ⟨_, events ++ [event], happend, ?_, ?_, ?_, ?_, ?_⟩
  · rw [List.mapM_append, h.converts]
    rfl
  · exact (linked_append_singleton event).mpr ⟨h.chained, rfl, rfl⟩
  · rw [List.length_append, List.length_append, h.length]
    rfl
  · apply h.numbered.append
    rw [h.length]
    rfl
  · rw [tip_append_singleton, headHash, List.getLast?_concat]
    rfl

/-- Audit calls keep a log faithful. -/
theorem Faithful.calls (calls : List (AuditCall Payload)) {log : List (LogEntry Payload)}
    {events : List (ChainedAuditEvent Payload)} (h : Faithful format log events) :
    ∃ log' events', calls.foldlM (appendAudit format) log = .ok log' ∧
      Faithful format log' events' := by
  induction calls generalizing log events with
  | nil => exact ⟨log, events, rfl, h⟩
  | cons call rest ih =>
    obtain ⟨log₁, events₁, happend, h₁⟩ := h.append call
    obtain ⟨log', events', hrest, h'⟩ := ih h₁
    exact ⟨log', events', bind_eq_ok.mpr ⟨log₁, happend, hrest⟩, h'⟩

/-- A faithful log is verified as it stands. -/
theorem Faithful.verified {log : List (LogEntry Payload)} {events : List (ChainedAuditEvent Payload)}
    (h : Faithful format log events) : invalidAuditSequences format log = .ok [] := by
  rw [invalidAuditSequences, h.converts]
  change Except.ok (verifyFrom _ _ (inSequence events)) = _
  rw [h.numbered.inSequence_eq, verifyFrom_eq_nil.mpr h.chained]

/-- Nothing has been logged. -/
theorem faithful_nil : Faithful format [] [] := ⟨rfl, trivial, rfl, rfl, rfl⟩

end Log

/-- Hashes that differ when one of the six fields does, and that are never the genesis hash. -/
structure CollisionFree (calculateEventHash : EventHash Payload) : Prop where
  injective : ∀ sequence sequence' eventType eventType' actorId actorId' caseId caseId' payload
    payload' previous previous',
    calculateEventHash sequence eventType actorId caseId payload previous =
        calculateEventHash sequence' eventType' actorId' caseId' payload' previous' →
      sequence = sequence' ∧ eventType = eventType' ∧ actorId = actorId' ∧ caseId = caseId' ∧
        payload = payload' ∧ previous = previous'
  ne_genesis : ∀ sequence eventType actorId caseId payload previous,
    calculateEventHash sequence eventType actorId caseId payload previous ≠ genesisHash

/-- Two chains with one head are the same. -/
theorem Chained.eq_of_head {calculateEventHash : EventHash Payload}
    (hfree : CollisionFree calculateEventHash) {left right : List (ChainedAuditEvent Payload)}
    (hleft : Chained calculateEventHash genesisHash left)
    (hright : Chained calculateEventHash genesisHash right)
    (hhead : left.getLast?.map (·.eventHash) = right.getLast?.map (·.eventHash)) : left = right := by
  apply eq_of_tip_eq (B := ℤ × String × String × String × Payload)
    (fun event => (event.sequence, event.eventType, event.actorId, event.caseId, event.payload))
    _ _ _ left right hleft hright
  · rw [tip, tip, hhead]
  · intro h event h' event' heq
    obtain ⟨hsequence, htype, hactor, hcase, hpayload, hprevious⟩ :=
      hfree.injective _ _ _ _ _ _ _ _ _ _ _ _ heq
    exact ⟨hprevious, by simp only [hsequence, htype, hactor, hcase, hpayload]⟩
  · intro h event
    exact hfree.ne_genesis _ _ _ _ _ _
  · intro event event' hbody hprior hstored
    cases event
    cases event'
    simp only [Prod.mk.injEq] at hbody
    obtain ⟨hsequence, htype, hactor, hcase, hpayload⟩ := hbody
    simp only [ChainedAuditEvent.mk.injEq]
    exact ⟨hsequence, htype, hactor, hcase, hpayload, hprior, hstored⟩

/-- The code points of a text. -/
def codePoints (s : String) : List ℕ := s.toList.map Char.toNat

/-- A text is known from its code points. -/
theorem codePoints_injective : Function.Injective codePoints := by
  intro s t h
  apply String.toList_inj.mp
  exact List.map_injective_iff.mpr (fun a b hab => Char.toNat_inj.mp hab) h

/-- A number for the six fields of an event. -/
def fieldsNumber (sequence : ℤ) (eventType actorId caseId payload previous : String) : ℕ :=
  Encodable.encode (sequence, codePoints eventType, codePoints actorId, codePoints caseId,
    codePoints payload, codePoints previous)

/-- A hash that spells the number of its six fields in unary. -/
def sampleEventHash : EventHash String :=
  fun sequence eventType actorId caseId payload previous =>
    String.ofList (List.replicate
      (65 + fieldsNumber sequence eventType actorId caseId payload previous) 'x')

/-- Texts that spell numbers in unary are as long as the numbers. -/
theorem length_unary {n m : ℕ} {c d : Char}
    (h : String.ofList (List.replicate n c) = String.ofList (List.replicate m d)) : n = m := by
  have hlist := congrArg List.length (String.ofList_inj.mp h)
  rwa [List.length_replicate, List.length_replicate] at hlist

/-- The sample hash has no collisions. -/
theorem sampleEventHash_collisionFree : CollisionFree sampleEventHash := by
  constructor
  · intro sequence sequence' eventType eventType' actorId actorId' caseId caseId' payload payload'
      previous previous' h
    have hnumber := Encodable.encode_injective (Nat.add_left_cancel (length_unary h))
    simpa only [Prod.mk.injEq, codePoints_injective.eq_iff] using hnumber
  · intro sequence eventType actorId caseId payload previous h
    have hlength := length_unary h
    omega

/-- A format with the sample hash, for payloads that are texts. -/
def sampleFormat : AuditFormat String :=
  ⟨sampleEventHash, "", id, fun _ => .error (.valueError "invalid literal for int()")⟩

/-- The log of any audit calls is verified, and events that are verified are determined by the
last of their hashes, up to their order in the list. -/
theorem auditChain_tamperEvident (format : AuditFormat Payload) :
    (∀ calls, ∃ log, auditAll format calls = .ok log ∧ invalidAuditSequences format log = .ok []) ∧
      (CollisionFree format.calculateEventHash → ∀ left right,
        verifyChain format.calculateEventHash left = [] →
          verifyChain format.calculateEventHash right = [] →
            (inSequence left).getLast?.map (·.eventHash) =
                (inSequence right).getLast?.map (·.eventHash) →
              inSequence left = inSequence right ∧ left.Perm right) := by
  constructor
  · intro calls
    obtain ⟨log, events, hlog, hfaithful⟩ := faithful_nil.calls calls
    exact ⟨log, hlog, hfaithful.verified⟩
  · intro hfree left right hleft hright hhead
    have heq : inSequence left = inSequence right :=
      Chained.eq_of_head hfree (verifyFrom_eq_nil.mp hleft) (verifyFrom_eq_nil.mp hright) hhead
    have hleft' : (inSequence left).Perm left := List.perm_insertionSort _ left
    have hright' : (inSequence right).Perm right := List.perm_insertionSort _ right
    exact ⟨heq, hleft'.symm.trans (heq ▸ hright')⟩

section Samples

variable (format : AuditFormat String)

/-- The first event of a log. -/
def firstEvent : ChainedAuditEvent String :=
  auditEvent format ⟨"tool_access", "investigator", 0, "first"⟩ 1 genesisHash

/-- The event after it. -/
def secondEvent : ChainedAuditEvent String :=
  auditEvent format ⟨"tool_access", "investigator", 0, "second"⟩ 2 (firstEvent format).eventHash

/-- Two events are sorted whatever their order in the list. -/
theorem inSequence_swapped :
    inSequence [firstEvent format, secondEvent format] = [firstEvent format, secondEvent format] ∧
      inSequence [secondEvent format, firstEvent format] =
        [firstEvent format, secondEvent format] := ⟨rfl, rfl⟩

/-- Two events are verified whatever their order in the list. -/
theorem verifyChain_swapped :
    verifyChain format.calculateEventHash [firstEvent format, secondEvent format] = [] ∧
      verifyChain format.calculateEventHash [secondEvent format, firstEvent format] = [] := by
  have hchained : Chained format.calculateEventHash genesisHash
      [firstEvent format, secondEvent format] := ⟨rfl, rfl, rfl, rfl, trivial⟩
  rw [verifyChain, verifyChain, (inSequence_swapped format).1, (inSequence_swapped format).2]
  exact ⟨verifyFrom_eq_nil.mpr hchained, verifyFrom_eq_nil.mpr hchained⟩

/-- Two events have one head whatever their order in the list. -/
theorem head_swapped :
    (inSequence [firstEvent format, secondEvent format]).getLast?.map (·.eventHash) =
      (inSequence [secondEvent format, firstEvent format]).getLast?.map (·.eventHash) := by
  rw [(inSequence_swapped format).1, (inSequence_swapped format).2]

/-- Two events are not the same in another order. -/
theorem swapped_ne :
    [firstEvent format, secondEvent format] ≠ [secondEvent format, firstEvent format] := by
  intro h
  have hsequence := congrArg ChainedAuditEvent.sequence (List.cons.inj h).1
  cases hsequence

end Samples

/-- Two lists of the same two events are found to hold the same events. -/
theorem auditChain_tamperEvident_swapped :
    inSequence [firstEvent sampleFormat, secondEvent sampleFormat] =
        inSequence [secondEvent sampleFormat, firstEvent sampleFormat] ∧
      [firstEvent sampleFormat, secondEvent sampleFormat].Perm
        [secondEvent sampleFormat, firstEvent sampleFormat] :=
  (auditChain_tamperEvident sampleFormat).2 sampleEventHash_collisionFree _ _
    (verifyChain_swapped sampleFormat).1 (verifyChain_swapped sampleFormat).2
    (head_swapped sampleFormat)

/-- A list of events in another order has the same head and is verified as well. -/
theorem reordered_list_verified :
    ¬∀ format : AuditFormat String, CollisionFree format.calculateEventHash → ∀ left right,
      verifyChain format.calculateEventHash left = [] →
        verifyChain format.calculateEventHash right = [] →
          (inSequence left).getLast?.map (·.eventHash) =
              (inSequence right).getLast?.map (·.eventHash) → left = right := by
  intro h
  exact swapped_ne sampleFormat (h sampleFormat sampleEventHash_collisionFree _ _
    (verifyChain_swapped sampleFormat).1 (verifyChain_swapped sampleFormat).2
    (head_swapped sampleFormat))

end Amlguard
