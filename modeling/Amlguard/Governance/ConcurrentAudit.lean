import Amlguard.Governance.AuditChain
import Amlguard.Library.Transitions
import Mathlib.Logic.Function.Basic

/-!
# Concurrent audit transactions

`PostgresInvestigationRepository.audit` on READ COMMITTED: a transaction selects the last row of
its own snapshot, waits for the lock of that row, and inserts the row after it. The lock does not
make it look again, so a transaction that waited inserts a sequence number that is taken.

The rows are listed in the order of their commits. Hashes are assumed not to collide, so that only
the sequence number can violate a unique constraint.
-/

namespace Amlguard

open HashChain Transitions

variable {Payload : Type}

/-- A row of the audit table. -/
abbrev AuditRow (Payload : Type) := ChainedAuditEvent Payload

/-- Where an audit transaction stands. -/
inductive AuditTransaction (Payload : Type) where
  | idle
  | selected (previous : Option (AuditRow Payload))
  | locked (previous : Option (AuditRow Payload))
  | inserted (previous : Option (AuditRow Payload)) (row : AuditRow Payload)
  | committed (row : AuditRow Payload)
  | aborted

/-- The committed rows, and the transactions on them. -/
structure AuditDb (Payload : Type) where
  rows : List (AuditRow Payload)
  transactions : ℕ → AuditTransaction Payload

/-- The steps of the transactions. -/
inductive AuditStep where
  | select (t : ℕ)
  | lock (t : ℕ)
  | insert (t : ℕ)
  | commit (t : ℕ)

/-- What a transaction has selected, while it is open. -/
def AuditTransaction.selection : AuditTransaction Payload → Option (Option (AuditRow Payload))
  | .selected previous | .locked previous | .inserted previous _ => some previous
  | .idle | .committed _ | .aborted => none

/-- The row whose lock a transaction holds. -/
def AuditTransaction.lockedRow : AuditTransaction Payload → Option (AuditRow Payload)
  | .locked previous | .inserted previous _ => previous
  | .idle | .selected _ | .committed _ | .aborted => none

/-- The row that a transaction has inserted and not committed. -/
def AuditTransaction.pendingRow : AuditTransaction Payload → Option (AuditRow Payload)
  | .inserted _ row => some row
  | .idle | .selected _ | .locked _ | .committed _ | .aborted => none

/-- A row fits the columns of `AuditEventRecord`. -/
def ChainedAuditEvent.Fits (row : AuditRow Payload) : Prop :=
  row.eventType.length ≤ 100 ∧ row.actorId.length ≤ 120 ∧ row.sequence ≤ 2147483647

namespace AuditDb

variable (format : AuditFormat Payload) (calls : ℕ → AuditCall Payload)

/-- `ORDER BY sequence DESC LIMIT 1`. -/
def latest (db : AuditDb Payload) : Option (AuditRow Payload) := (inSequence db.rows).getLast?

/-- The row that an audit call inserts after another. -/
def rowAfter (previous : Option (AuditRow Payload)) (call : AuditCall Payload) : AuditRow Payload :=
  match previous with
  | some row => auditEvent format call (row.sequence + 1) row.eventHash
  | none => auditEvent format call 1 genesisHash

/-- The database with a transaction in another place. -/
def move (db : AuditDb Payload) (t : ℕ) (transaction : AuditTransaction Payload) : AuditDb Payload :=
  { db with transactions := Function.update db.transactions t transaction }

/-- A moved transaction is in its new place. -/
theorem move_self (db : AuditDb Payload) (t : ℕ) (transaction : AuditTransaction Payload) :
    (db.move t transaction).transactions t = transaction := Function.update_self ..

/-- The other transactions stay in their places. -/
theorem move_of_ne (db : AuditDb Payload) {t t' : ℕ} (transaction : AuditTransaction Payload)
    (h : t' ≠ t) : (db.move t transaction).transactions t' = db.transactions t' :=
  Function.update_of_ne h ..

/-- No other transaction holds the lock of a row. -/
def Free (db : AuditDb Payload) (t : ℕ) (row : AuditRow Payload) : Prop :=
  ∀ t', t' ≠ t → ∀ held, (db.transactions t').lockedRow = some held → held.sequence ≠ row.sequence

/-- No other transaction has inserted the sequence number of a row without committing it. -/
def Unclaimed (db : AuditDb Payload) (t : ℕ) (row : AuditRow Payload) : Prop :=
  ∀ t', t' ≠ t → ∀ pending, (db.transactions t').pendingRow = some pending →
    pending.sequence ≠ row.sequence

/-- No committed row has the sequence number of a row. -/
def Fresh (db : AuditDb Payload) (row : AuditRow Payload) : Prop :=
  ∀ stored ∈ db.rows, stored.sequence ≠ row.sequence

/-- The steps that the database admits, and where they lead. A lock and an insertion wait for the
transactions in their way. -/
inductive Step : AuditDb Payload → AuditStep → AuditDb Payload → Prop where
  | select (db : AuditDb Payload) (t : ℕ) (h : db.transactions t = .idle) :
      Step db (.select t) (db.move t (.selected db.latest))
  | lock (db : AuditDb Payload) (t : ℕ) (previous : Option (AuditRow Payload))
      (h : db.transactions t = .selected previous)
      (hfree : ∀ row, previous = some row → db.Free t row) :
      Step db (.lock t) (db.move t (.locked previous))
  | insert (db : AuditDb Payload) (t : ℕ) (previous : Option (AuditRow Payload))
      (h : db.transactions t = .locked previous)
      (hunclaimed : db.Unclaimed t (rowAfter format previous (calls t)))
      (hfresh : db.Fresh (rowAfter format previous (calls t)))
      (hfits : (rowAfter format previous (calls t)).Fits) :
      Step db (.insert t) (db.move t (.inserted previous (rowAfter format previous (calls t))))
  | refuse (db : AuditDb Payload) (t : ℕ) (previous : Option (AuditRow Payload))
      (h : db.transactions t = .locked previous)
      (hrefused : ¬(db.Fresh (rowAfter format previous (calls t)) ∧
        (rowAfter format previous (calls t)).Fits)) :
      Step db (.insert t) (db.move t .aborted)
  | commit (db : AuditDb Payload) (t : ℕ) (previous : Option (AuditRow Payload))
      (row : AuditRow Payload) (h : db.transactions t = .inserted previous row) :
      Step db (.commit t) { db.move t (.committed row) with rows := db.rows ++ [row] }

/-- An insertion is timely when the row selected before it is still the last one, and when the new
row fits its columns. -/
def Timely (db : AuditDb Payload) : AuditStep → Prop
  | .insert t =>
    db.transactions t = .locked db.latest ∧ (rowAfter format db.latest (calls t)).Fits
  | .select _ | .lock _ | .commit _ => True

/-- The rows are numbered from one on without gaps, and verified. -/
def Sound (db : AuditDb Payload) : Prop :=
  Numbered (inSequence db.rows) ∧ verifyChain format.calculateEventHash db.rows = []

/-- No call is aborted, and the event of every call that has ended is in the table. -/
def Complete (db : AuditDb Payload) : Prop :=
  ∀ t, db.transactions t ≠ .aborted ∧ ∀ row, db.transactions t = .committed row →
    row ∈ db.rows ∧ ∃ sequence previousHash, row = auditEvent format (calls t) sequence previousHash

section Rows

variable {format}

/-- A row after another has the next number. -/
theorem rowAfter_sequence (previous : Option (AuditRow Payload)) (call : AuditCall Payload) :
    (rowAfter format previous call).sequence = (previous.elim 0 (·.sequence)) + 1 := by
  cases previous <;> rfl

/-- A row after another repeats its hash. -/
theorem rowAfter_previousHash (previous : Option (AuditRow Payload)) (call : AuditCall Payload) :
    (rowAfter format previous call).previousHash = (previous.map (·.eventHash)).getD genesisHash := by
  cases previous <;> rfl

/-- A row after another stores its own hash. -/
theorem rowAfter_eventHash (previous : Option (AuditRow Payload)) (call : AuditCall Payload) :
    (rowAfter format previous call).eventHash =
      (rowAfter format previous call).expected format.calculateEventHash
        (rowAfter format previous call).previousHash := by
  cases previous <;> rfl

/-- A row after another records its call. -/
theorem rowAfter_eq (previous : Option (AuditRow Payload)) (call : AuditCall Payload) :
    ∃ sequence previousHash,
      rowAfter format previous call = auditEvent format call sequence previousHash := by
  cases previous with
  | none => exact ⟨1, genesisHash, rfl⟩
  | some row => exact ⟨row.sequence + 1, row.eventHash, rfl⟩

/-- A row that is inserted comes after the row selected before it. -/
theorem lt_rowAfter {previous : Option (AuditRow Payload)} {row : AuditRow Payload}
    (h : ∃ p, previous = some p ∧ row.sequence ≤ p.sequence) (call : AuditCall Payload) :
    row.sequence < (rowAfter format previous call).sequence := by
  obtain ⟨p, rfl, hle⟩ := h
  rw [rowAfter_sequence]
  exact Int.lt_add_one_iff.mpr hle

/-- The number of the last of sound rows. -/
theorem Sound.latest_sequence {db : AuditDb Payload} (h : db.Sound format) :
    db.latest.elim 0 (·.sequence) = (inSequence db.rows).length := by
  cases hlatest : db.latest with
  | none =>
    rw [List.getLast?_eq_none_iff.mp hlatest]
    rfl
  | some row => exact h.1.getLast? hlatest

/-- The numbers of sound rows. -/
theorem Sound.fresh_iff {db : AuditDb Payload} (h : db.Sound format) (row : AuditRow Payload) :
    db.Fresh row ↔ ¬(1 ≤ row.sequence ∧ row.sequence ≤ (inSequence db.rows).length) := by
  rw [← h.1.mem_iff]
  constructor
  · rintro hfresh ⟨stored, hstored, heq⟩
    exact hfresh stored (mem_inSequence.mp hstored) heq
  · intro hnone stored hstored heq
    exact hnone ⟨stored, mem_inSequence.mpr hstored, heq⟩

/-- Rows stay sound when the row after the last one is appended. -/
theorem Sound.append {db db' : AuditDb Payload} (h : db.Sound format) (call : AuditCall Payload)
    (hrows : db'.rows = db.rows ++ [rowAfter format db.latest call]) : db'.Sound format := by
  let row := rowAfter format db.latest call
  have hnumber : row.sequence = (inSequence db.rows).length + 1 := by
    rw [rowAfter_sequence, h.latest_sequence]
  have hsorted : inSequence db'.rows = inSequence db.rows ++ [row] := by
    rw [hrows]
    apply inSequence_append
    intro stored hstored later hlater
    rw [List.mem_singleton.mp hlater, hnumber]
    have hle := (h.1.mem_iff stored.sequence).mp ⟨stored, mem_inSequence.mpr hstored, rfl⟩
    omega
  have hchained : Chained format.calculateEventHash genesisHash (inSequence db.rows) :=
    verifyFrom_eq_nil.mp h.2
  constructor
  · rw [hsorted]
    exact h.1.append hnumber
  · rw [verifyChain, hsorted, verifyFrom_eq_nil]
    apply (linked_append_singleton row).mpr
    have hprevious : row.previousHash = tip (·.eventHash) genesisHash (inSequence db.rows) :=
      rowAfter_previousHash db.latest call
    exact ⟨hchained, hprevious, hprevious ▸ rowAfter_eventHash db.latest call⟩

end Rows

section Start

variable {format calls}

/-- The rows of the start are still in the table, and every row that comes to them, or will, is
later in sequence. -/
structure Extends (start : List (AuditRow Payload)) (db : AuditDb Payload) : Prop where
  added : ∃ added, db.rows = start ++ added ∧
    ∀ row ∈ start, ∀ later ∈ added, row.sequence < later.sequence
  selected : ∀ t previous, (db.transactions t).selection = some previous →
    ∀ row ∈ start, ∃ p, previous = some p ∧ row.sequence ≤ p.sequence
  pending : ∀ t later, (db.transactions t).pendingRow = some later →
    ∀ row ∈ start, row.sequence < later.sequence

/-- A transaction moves, and neither selects nor inserts anything but what is known to be later
than the start. -/
theorem Extends.move {start : List (AuditRow Payload)} {db : AuditDb Payload}
    (h : Extends start db) (t : ℕ) (transaction : AuditTransaction Payload)
    (hselected : ∀ previous, transaction.selection = some previous →
      ∀ row ∈ start, ∃ p, previous = some p ∧ row.sequence ≤ p.sequence)
    (hpending : ∀ later, transaction.pendingRow = some later →
      ∀ row ∈ start, row.sequence < later.sequence) : Extends start (db.move t transaction) := by
  refine ⟨h.added, ?_, ?_⟩
  · intro t' previous hprevious
    by_cases heq : t' = t
    · subst heq
      rw [move_self] at hprevious
      exact hselected previous hprevious
    · rw [move_of_ne db transaction heq] at hprevious
      exact h.selected t' previous hprevious
  · intro t' later hlater
    by_cases heq : t' = t
    · subst heq
      rw [move_self] at hlater
      exact hpending later hlater
    · rw [move_of_ne db transaction heq] at hlater
      exact h.pending t' later hlater

/-- A step keeps the rows of the start in front. -/
theorem Extends.step {start : List (AuditRow Payload)} {db db' : AuditDb Payload} {step : AuditStep}
    (h : Extends start db) (hstep : Step format calls db step db') : Extends start db' := by
  cases hstep with
  | select t hidle =>
    apply h.move t
    · intro previous hprevious row hrow
      obtain ⟨added, hrows, -⟩ := h.added
      have hmem : row ∈ db.rows := hrows ▸ List.mem_append_left added hrow
      cases hprevious
      cases hlatest : db.latest with
      | none =>
        have hnil : inSequence db.rows = [] := List.getLast?_eq_none_iff.mp hlatest
        rw [← mem_inSequence, hnil] at hmem
        cases hmem
      | some latest => exact ⟨latest, rfl, sequence_le_of_getLast? hlatest hmem⟩
    · intro later hlater
      cases hlater
  | lock t previous hselected hfree =>
    apply h.move t
    · intro previous' hprevious'
      cases hprevious'
      exact h.selected t previous (by rw [hselected]; rfl)
    · intro later hlater
      cases hlater
  | insert t previous hlocked hunclaimed hfresh hfits =>
    have hselected := h.selected t previous (by rw [hlocked]; rfl)
    apply h.move t
    · intro previous' hprevious'
      cases hprevious'
      exact hselected
    · intro later hlater row hrow
      cases hlater
      exact lt_rowAfter (hselected row hrow) (calls t)
  | refuse t previous hlocked hrefused =>
    apply h.move t
    · intro previous' hprevious'
      cases hprevious'
    · intro later hlater
      cases hlater
  | commit t previous row hinserted =>
    have hmoved : Extends start (db.move t (.committed row)) := by
      apply h.move t
      · intro previous' hprevious'
        cases hprevious'
      · intro later hlater
        cases hlater
    obtain ⟨added, hrows, hadded⟩ := h.added
    refine ⟨⟨added ++ [row], ?_, ?_⟩, hmoved.selected, hmoved.pending⟩
    · change db.rows ++ [row] = _
      rw [hrows, List.append_assoc]
    · intro first hfirst later hlater
      rcases List.mem_append.mp hlater with hlater | hlater
      · exact hadded first hfirst later hlater
      · rw [List.mem_singleton.mp hlater]
        exact h.pending t row (by rw [hinserted]; rfl) first hfirst

/-- When nothing has begun, the rows are those of the start. -/
theorem extends_self {db : AuditDb Payload} (hidle : ∀ t, db.transactions t = .idle) :
    Extends db.rows db := by
  refine ⟨⟨[], (List.append_nil _).symm, ?_⟩, ?_, ?_⟩
  · intro row hrow later hlater
    cases hlater
  · intro t previous hprevious
    rw [hidle t] at hprevious
    cases hprevious
  · intro t later hlater
    rw [hidle t] at hlater
    cases hlater

/-- Sound rows were sound before others came to them. -/
theorem Sound.of_extends {start db : AuditDb Payload} (h : db.Sound format)
    (hextends : Extends start.rows db) : start.Sound format := by
  obtain ⟨added, hrows, hadded⟩ := hextends.added
  have hsorted : inSequence db.rows = inSequence start.rows ++ inSequence added := by
    rw [hrows]
    exact inSequence_append fun row hrow later hlater => (hadded row hrow later hlater).le
  constructor
  · have hnumbered := h.1
    rw [hsorted] at hnumbered
    exact hnumbered.of_append
  · have hchained : Chained format.calculateEventHash genesisHash (inSequence db.rows) :=
      verifyFrom_eq_nil.mp h.2
    rw [hsorted] at hchained
    exact verifyFrom_eq_nil.mpr (linked_of_append hchained)

end Start

section Orderly

variable {format calls}

/-- What holds in every run from sound rows whose insertions are timely. At most one transaction
has inserted a row and not committed it, and that row follows the last one. -/
structure Orderly (format : AuditFormat Payload) (calls : ℕ → AuditCall Payload)
    (db : AuditDb Payload) : Prop where
  sound : db.Sound format
  complete : db.Complete format calls
  selected : ∀ t row, (db.transactions t).selection = some (some row) → row ∈ db.rows
  pending : ∀ t row, (db.transactions t).pendingRow = some row →
    row = rowAfter format db.latest (calls t)
  alone : ∀ t t' row row', (db.transactions t).pendingRow = some row →
    (db.transactions t').pendingRow = some row' → t = t'

/-- Nothing has begun on sound rows. -/
theorem Sound.orderly {db : AuditDb Payload} (h : db.Sound format)
    (hidle : ∀ t, db.transactions t = .idle) : Orderly format calls db := by
  refine ⟨h, ?_, ?_, ?_, ?_⟩
  · intro t
    rw [hidle t]
    simp
  · intro t row hrow
    rw [hidle t] at hrow
    cases hrow
  · intro t row hrow
    rw [hidle t] at hrow
    cases hrow
  · intro t t' row row' hrow
    rw [hidle t] at hrow
    cases hrow

/-- A transaction moves to a place where it has neither ended nor inserted out of turn. -/
theorem Orderly.move {db : AuditDb Payload} (h : Orderly format calls db) (t : ℕ)
    (transaction : AuditTransaction Payload)
    (hopen : transaction ≠ .aborted ∧ ∀ row, transaction ≠ .committed row)
    (hselected : ∀ row, transaction.selection = some (some row) → row ∈ db.rows)
    (hpending : ∀ row, transaction.pendingRow = some row →
      row = rowAfter format db.latest (calls t) ∧
        ∀ t', t' ≠ t → (db.transactions t').pendingRow = none) :
    Orderly format calls (db.move t transaction) := by
  have hplace : ∀ t', (t' = t ∧ (db.move t transaction).transactions t' = transaction) ∨
      (t' ≠ t ∧ (db.move t transaction).transactions t' = db.transactions t') := by
    intro t'
    by_cases heq : t' = t
    · exact .inl ⟨heq, heq ▸ move_self db t transaction⟩
    · exact .inr ⟨heq, move_of_ne db transaction heq⟩
  refine ⟨h.sound, ?_, ?_, ?_, ?_⟩
  · intro t'
    rcases hplace t' with ⟨-, hmoved⟩ | ⟨-, hmoved⟩
    · rw [hmoved]
      exact ⟨hopen.1, fun row hrow => absurd hrow (hopen.2 row)⟩
    · rw [hmoved]
      exact h.complete t'
  · intro t' row hrow
    rcases hplace t' with ⟨-, hmoved⟩ | ⟨-, hmoved⟩
    · exact hselected row (hmoved ▸ hrow)
    · exact h.selected t' row (hmoved ▸ hrow)
  · intro t' row hrow
    rcases hplace t' with ⟨heq, hmoved⟩ | ⟨-, hmoved⟩
    · exact heq ▸ (hpending row (hmoved ▸ hrow)).1
    · exact h.pending t' row (hmoved ▸ hrow)
  · intro t₁ t₂ row₁ row₂ hrow₁ hrow₂
    rcases hplace t₁ with ⟨heq₁, hmoved₁⟩ | ⟨hne₁, hmoved₁⟩
    · rcases hplace t₂ with ⟨heq₂, -⟩ | ⟨hne₂, hmoved₂⟩
      · rw [heq₁, heq₂]
      · rw [hmoved₂, (hpending row₁ (hmoved₁ ▸ hrow₁)).2 t₂ hne₂] at hrow₂
        cases hrow₂
    · rcases hplace t₂ with ⟨-, hmoved₂⟩ | ⟨-, hmoved₂⟩
      · rw [hmoved₁, (hpending row₂ (hmoved₂ ▸ hrow₂)).2 t₁ hne₁] at hrow₁
        cases hrow₁
      · exact h.alone t₁ t₂ row₁ row₂ (hmoved₁ ▸ hrow₁) (hmoved₂ ▸ hrow₂)

/-- The row after the last one is new. -/
theorem Sound.fresh_rowAfter {db : AuditDb Payload} (h : db.Sound format)
    (call : AuditCall Payload) : db.Fresh (rowAfter format db.latest call) := by
  rw [h.fresh_iff, rowAfter_sequence, h.latest_sequence]
  omega

/-- A row that is selected is the last one if the row after it is new. -/
theorem Sound.latest_of_fresh {db : AuditDb Payload} (h : db.Sound format)
    {previous : Option (AuditRow Payload)} (hrow : ∀ row, previous = some row → row ∈ db.rows)
    {call : AuditCall Payload} (hfresh : db.Fresh (rowAfter format previous call)) :
    previous = db.latest := by
  rw [h.fresh_iff, rowAfter_sequence] at hfresh
  have hnumber := h.latest_sequence
  cases previous with
  | none =>
    cases hlatest : db.latest with
    | none => rfl
    | some latest =>
      have hlength := List.length_pos_of_mem (List.mem_of_getLast? hlatest)
      simp only [Option.elim] at hfresh
      omega
  | some row =>
    have hmem : row ∈ inSequence db.rows := mem_inSequence.mpr (hrow row rfl)
    have hrange := (h.1.mem_iff row.sequence).mp ⟨row, hmem, rfl⟩
    cases hlatest : db.latest with
    | none =>
      rw [List.getLast?_eq_none_iff.mp hlatest] at hmem
      cases hmem
    | some latest =>
      rw [hlatest] at hnumber
      simp only [Option.elim] at hfresh hnumber
      rw [h.1.eq_of_sequence hmem (List.mem_of_getLast? hlatest) (by omega)]

/-- A timely step keeps a run orderly. -/
theorem Orderly.step {db db' : AuditDb Payload} {step : AuditStep} (h : Orderly format calls db)
    (htimely : Timely format calls db step) (hstep : Step format calls db step db') :
    Orderly format calls db' := by
  cases hstep with
  | select t hidle =>
    apply h.move t
    · simp
    · intro row hrow
      exact mem_inSequence.mp (List.mem_of_getLast? (Option.some.inj hrow))
    · intro row hrow
      cases hrow
  | lock t previous hselected hfree =>
    apply h.move t
    · simp
    · intro row hrow
      cases hrow
      exact h.selected t row (by rw [hselected]; rfl)
    · intro row hrow
      cases hrow
  | insert t previous hlocked hunclaimed hfresh hfits =>
    have hlatest : previous = db.latest :=
      AuditTransaction.locked.inj (hlocked.symm.trans htimely.1)
    apply h.move t
    · simp
    · intro row hrow
      cases hrow
      exact h.selected t row (by rw [hlocked]; rfl)
    · intro row hrow
      cases hrow
      refine ⟨by rw [hlatest], fun t' hne => ?_⟩
      cases hpending : (db.transactions t').pendingRow with
      | none => rfl
      | some row' =>
        -- It would have inserted the same number.
        apply absurd _ (hunclaimed t' hne row' hpending)
        rw [h.pending t' row' hpending, hlatest, rowAfter_sequence, rowAfter_sequence]
  | refuse t previous hlocked hrefused =>
    have hlatest : previous = db.latest :=
      AuditTransaction.locked.inj (hlocked.symm.trans htimely.1)
    apply absurd _ hrefused
    rw [hlatest]
    exact ⟨h.sound.fresh_rowAfter (calls t), htimely.2⟩
  | commit t previous row hinserted =>
    have hpending : (db.transactions t).pendingRow = some row := by rw [hinserted]; rfl
    have hrow := h.pending t row hpending
    have hnone : ∀ t' row', ¬((db.move t (.committed row)).transactions t').pendingRow = some row' := by
      intro t' row' hrow'
      by_cases heq : t' = t
      · rw [heq, move_self] at hrow'
        cases hrow'
      · rw [move_of_ne db _ heq] at hrow'
        exact heq (h.alone t' t row' row hrow' hpending)
    refine ⟨h.sound.append (calls t) (by rw [hrow]), ?_, ?_, ?_, ?_⟩
    · intro t'
      by_cases heq : t' = t
      · change (db.move t (.committed row)).transactions t' ≠ _ ∧ ∀ row',
          (db.move t (.committed row)).transactions t' = _ → row' ∈ db.rows ++ [row] ∧ _
        rw [heq, move_self]
        refine ⟨by simp, fun row' hrow' => ?_⟩
        cases hrow'
        exact ⟨List.mem_append_right _ (List.mem_singleton_self _), hrow ▸ rowAfter_eq ..⟩
      · change (db.move t (.committed row)).transactions t' ≠ _ ∧ ∀ row',
          (db.move t (.committed row)).transactions t' = _ → row' ∈ db.rows ++ [row] ∧ _
        rw [move_of_ne db _ heq]
        refine ⟨(h.complete t').1, fun row' hrow' => ?_⟩
        obtain ⟨hmem, hcall⟩ := (h.complete t').2 row' hrow'
        exact ⟨List.mem_append_left _ hmem, hcall⟩
    · intro t' row' hrow'
      apply List.mem_append_left
      by_cases heq : t' = t
      · change ((db.move t (.committed row)).transactions t').selection = _ at hrow'
        rw [heq, move_self] at hrow'
        cases hrow'
      · change ((db.move t (.committed row)).transactions t').selection = _ at hrow'
        rw [move_of_ne db _ heq] at hrow'
        exact h.selected t' row' hrow'
    · intro t' row' hrow'
      exact absurd hrow' (hnone t' row')
    · intro t₁ t₂ row₁ row₂ hrow₁
      exact absurd hrow₁ (hnone t₁ row₁)

/-- A step that is not timely aborts a transaction. -/
theorem Orderly.aborted_of_not_timely {db db' : AuditDb Payload} {step : AuditStep}
    (h : Orderly format calls db) (htimely : ¬Timely format calls db step)
    (hstep : Step format calls db step db') : ∃ t, db'.transactions t = .aborted := by
  cases hstep with
  | select t hidle => exact absurd trivial htimely
  | lock t previous hselected hfree => exact absurd trivial htimely
  | insert t previous hlocked hunclaimed hfresh hfits =>
    have hlatest : previous = db.latest := by
      apply h.sound.latest_of_fresh _ hfresh
      rintro row rfl
      exact h.selected t row (by rw [hlocked]; rfl)
    subst hlatest
    exact absurd ⟨hlocked, hfits⟩ htimely
  | refuse t previous hlocked hrefused => exact ⟨t, move_self ..⟩
  | commit t previous row hinserted => exact absurd trivial htimely

/-- An aborted transaction stays so. -/
theorem Step.aborted {db db' : AuditDb Payload} {step : AuditStep}
    (hstep : Step format calls db step db') {t : ℕ} (h : db.transactions t = .aborted) :
    db'.transactions t = .aborted := by
  have hmove : ∀ t' transaction, db.transactions t' ≠ .aborted →
      (db.move t' transaction).transactions t = .aborted := by
    intro t' transaction hne
    have hother : t ≠ t' := by
      rintro rfl
      exact hne h
    rw [move_of_ne db transaction hother, h]
  cases hstep with
  | select t' hidle => exact hmove t' _ (by simp [hidle])
  | lock t' previous hselected => exact hmove t' _ (by simp [hselected])
  | insert t' previous hlocked => exact hmove t' _ (by simp [hlocked])
  | refuse t' previous hlocked => exact hmove t' _ (by simp [hlocked])
  | commit t' previous row hinserted =>
    exact hmove t' _ (by simp [hinserted])

end Orderly

section Samples

/-- Calls that all record the same access. -/
def sampleCalls : ℕ → AuditCall String := fun _ => ⟨"tool_access", "investigator", 0, ""⟩

/-- A table without rows, before any call. -/
def emptyDb : AuditDb String := ⟨[], fun _ => .idle⟩

variable (format : AuditFormat String)

/-- The row that the first call inserts. -/
def firstRow : AuditRow String := rowAfter format none (sampleCalls 0)

/-- The row of the first call fits its columns. -/
theorem firstRow_fits : (firstRow format).Fits :=
  ⟨(by decide : "tool_access".length ≤ 100), (by decide : "investigator".length ≤ 120),
    (by decide : (1 : ℤ) ≤ 2147483647)⟩

/-- The first call in its places one after another. -/
def firstInserted : AuditDb String :=
  ((emptyDb.move 0 (.selected none)).move 0 (.locked none)).move 0 (.inserted none (firstRow format))

/-- The first call has committed its row. -/
def firstCommitted : AuditDb String :=
  { (firstInserted format).move 0 (.committed (firstRow format)) with rows := [firstRow format] }

/-- A call that runs alone inserts its row in time. -/
theorem run_single : Run (Step format sampleCalls) (Timely format sampleCalls) emptyDb
    [.select 0, .lock 0, .insert 0, .commit 0] (firstCommitted format) := by
  apply Run.cons _ (emptyDb.move 0 (.selected none)) _ _ _ trivial (.select emptyDb 0 rfl)
  apply Run.cons _ _ _ _ _ trivial (.lock _ 0 none (move_self ..) (by simp))
  apply Run.cons _ (firstInserted format) _ _ _ ⟨move_self .., firstRow_fits format⟩
  · apply Step.insert _ 0 none (move_self ..) _ _ (firstRow_fits format)
    · intro t hne pending hpending
      rw [move_of_ne _ _ hne, move_of_ne _ _ hne] at hpending
      cases hpending
    · intro stored hstored
      cases hstored
  · exact .cons _ _ _ _ _ trivial (.commit _ 0 none _ (move_self ..)) (.nil _)

/-- The row that the second call inserts after it. -/
def secondRow : AuditRow String := rowAfter format (some (firstRow format)) (sampleCalls 1)

/-- The row of the second call fits its columns. -/
theorem secondRow_fits : (secondRow format).Fits :=
  ⟨(by decide : "tool_access".length ≤ 100), (by decide : "investigator".length ≤ 120),
    (by decide : (2 : ℤ) ≤ 2147483647)⟩

/-- The second call has selected the row of the first. -/
def secondSelected : AuditDb String := (firstCommitted format).move 1 (.selected (some (firstRow format)))

/-- The second call has locked that row. -/
def secondLocked : AuditDb String := (secondSelected format).move 1 (.locked (some (firstRow format)))

/-- The second call has inserted its own. -/
def secondInserted : AuditDb String :=
  (secondLocked format).move 1 (.inserted (some (firstRow format)) (secondRow format))

/-- Both calls have committed their rows. -/
def bothCommitted : AuditDb String :=
  { (secondInserted format).move 1 (.committed (secondRow format)) with
    rows := [firstRow format, secondRow format] }

/-- The other calls hold no row while the second one is under way. -/
theorem firstCommitted_pendingRow (t : ℕ) :
    ((firstCommitted format).transactions t).pendingRow = none ∧
      ((firstCommitted format).transactions t).lockedRow = none := by
  change (((firstInserted format).move 0 _).transactions t).pendingRow = none ∧
    (((firstInserted format).move 0 _).transactions t).lockedRow = none
  by_cases hzero : t = 0
  · rw [hzero, move_self]
    exact ⟨rfl, rfl⟩
  · rw [move_of_ne _ _ hzero, firstInserted, move_of_ne _ _ hzero, move_of_ne _ _ hzero,
      move_of_ne _ _ hzero]
    exact ⟨rfl, rfl⟩

/-- A call that selects after the commit of another inserts its row in time too. -/
theorem run_inTurn : Run (Step format sampleCalls) (Timely format sampleCalls) emptyDb
    [.select 0, .lock 0, .insert 0, .commit 0, .select 1, .lock 1, .insert 1, .commit 1]
    (bothCommitted format) := by
  have hselected : Step format sampleCalls (firstCommitted format) (.select 1) (secondSelected format) :=
    .select (firstCommitted format) 1 rfl
  have hlocked : Step format sampleCalls (secondSelected format) (.lock 1) (secondLocked format) := by
    apply Step.lock _ 1 (some (firstRow format)) (move_self ..)
    intro row hrow t hne held hheld
    rw [move_of_ne _ _ hne, (firstCommitted_pendingRow format t).2] at hheld
    cases hheld
  have hinserted : Step format sampleCalls (secondLocked format) (.insert 1) (secondInserted format) := by
    apply Step.insert _ 1 (some (firstRow format)) (move_self ..) _ _ (secondRow_fits format)
    · intro t hne pending hpending
      rw [move_of_ne _ _ hne, secondSelected, move_of_ne _ _ hne,
        (firstCommitted_pendingRow format t).1] at hpending
      cases hpending
    · intro stored hstored
      rw [List.mem_singleton.mp hstored]
      change (1 : ℤ) ≠ 2
      decide
  have htimely : Timely format sampleCalls (secondLocked format) (.insert 1) :=
    ⟨move_self .., secondRow_fits format⟩
  have hcommitted : Step format sampleCalls (secondInserted format) (.commit 1) (bothCommitted format) :=
    .commit _ 1 (some (firstRow format)) _ (move_self ..)
  have hrun := (run_single format).snoc (a := AuditStep.select 1) trivial hselected
  have hrun := hrun.snoc (a := AuditStep.lock 1) trivial hlocked
  have hrun := hrun.snoc htimely hinserted
  exact hrun.snoc (a := AuditStep.commit 1) trivial hcommitted

/-- Two calls hold no lock, having found no row. -/
def bothLocked : AuditDb String :=
  (((emptyDb.move 0 (.selected none)).move 1 (.selected none)).move 0 (.locked none)).move 1
    (.locked none)

/-- The first of two calls has inserted its row. -/
def oneInserted : AuditDb String := bothLocked.move 0 (.inserted none (firstRow format))

/-- The first of two calls has committed its row. -/
def oneCommitted : AuditDb String :=
  { (oneInserted format).move 0 (.committed (firstRow format)) with rows := [firstRow format] }

/-- The second of two calls is aborted. -/
theorem run_race : Run (Step format sampleCalls) (fun _ _ => True) emptyDb
    [.select 0, .select 1, .lock 0, .lock 1, .insert 0, .commit 0, .insert 1]
    ((oneCommitted format).move 1 .aborted) := by
  apply Run.cons _ (emptyDb.move 0 (.selected none)) _ _ _ trivial (.select emptyDb 0 rfl)
  apply Run.cons _ _ _ _ _ trivial (.select _ 1 rfl)
  apply Run.cons _ _ _ _ _ trivial (.lock _ 0 none rfl (by simp))
  apply Run.cons _ bothLocked _ _ _ trivial (.lock _ 1 none (move_of_ne _ _ (by decide)) (by simp))
  apply Run.cons _ (oneInserted format) _ _ _ trivial
  · apply Step.insert bothLocked 0 none rfl _ _ (firstRow_fits format)
    · intro t hne pending hpending
      rw [bothLocked] at hpending
      by_cases hone : t = 1
      · rw [hone, move_self] at hpending
        cases hpending
      · rw [move_of_ne _ _ hone, move_of_ne _ _ hne, move_of_ne _ _ hone,
          move_of_ne _ _ hne] at hpending
        cases hpending
    · intro stored hstored
      cases hstored
  apply Run.cons _ (oneCommitted format) _ _ _ trivial (.commit _ 0 none _ (move_self ..))
  apply Run.cons _ _ _ _ _ trivial _ (.nil _)
  apply Step.refuse _ 1 none rfl
  rintro ⟨hfresh, -⟩
  exact hfresh (firstRow format) (List.mem_singleton_self _) rfl

end Samples

/-- The rows end up numbered without gaps and verified, with the event of every call among them
and no call aborted, exactly when they were numbered and verified to begin with and every insertion
found the row selected before it to be the last one. -/
theorem audit_complete_iff_timely (format : AuditFormat Payload) (calls : ℕ → AuditCall Payload)
    {db db' : AuditDb Payload} {steps : List AuditStep} (hidle : ∀ t, db.transactions t = .idle)
    (hrun : Run (Step format calls) (fun _ _ => True) db steps db') :
    db'.Sound format ∧ db'.Complete format calls ↔
      db.Sound format ∧ Run (Step format calls) (Timely format calls) db steps db' := by
  have hkeeps : ∀ db step db', Orderly format calls db → Timely format calls db step →
      Step format calls db step db' → Orderly format calls db' :=
    fun db step db' h htimely hstep => h.step htimely hstep
  constructor
  · rintro ⟨hsound, hcomplete⟩
    have hextends : Extends db.rows db' :=
      hrun.invariant (fun db step db' h _ hstep => h.step hstep) (extends_self hidle)
    have hstart := hsound.of_extends hextends
    refine ⟨hstart, ?_⟩
    apply Run.allowed_of_unspoilt (I := Orderly format calls)
      (B := fun db => ∃ t, db.transactions t = .aborted) hkeeps
    · exact fun db step db' h htimely hstep => h.aborted_of_not_timely htimely hstep
    · exact fun db step db' ⟨t, haborted⟩ hstep => ⟨t, hstep.aborted haborted⟩
    · exact hrun
    · exact hstart.orderly hidle
    · exact fun ⟨t, haborted⟩ => (hcomplete t).1 haborted
  · rintro ⟨hsound, htimely⟩
    have horderly := htimely.invariant hkeeps (hsound.orderly hidle)
    exact ⟨horderly.sound, horderly.complete⟩

/-- Two calls on an empty table are recorded, of which one selects after the commit of the other. -/
theorem audit_complete_iff_timely_inTurn :
    (bothCommitted sampleFormat).Sound sampleFormat ∧
      (bothCommitted sampleFormat).Complete sampleFormat sampleCalls := by
  apply (audit_complete_iff_timely sampleFormat sampleCalls (fun _ => rfl)
    (run_inTurn sampleFormat).any).mpr
  exact ⟨⟨rfl, rfl⟩, run_inTurn sampleFormat⟩

/-- Two calls on an empty table find no row to lock, and both insert the first sequence number. -/
theorem concurrent_audit_aborted :
    ¬∀ (format : AuditFormat String) (calls : ℕ → AuditCall String) (db db' : AuditDb String)
      (steps : List AuditStep), (∀ t, db.transactions t = .idle) → db.Sound format →
        Run (Step format calls) (fun _ _ => True) db steps db' →
          db'.Sound format ∧ db'.Complete format calls := by
  intro h
  have hcomplete := (h sampleFormat sampleCalls emptyDb _ _ (fun _ => rfl) ⟨rfl, rfl⟩
    (run_race sampleFormat)).2
  exact (hcomplete 1).1 (move_self ..)

end AuditDb

end Amlguard
