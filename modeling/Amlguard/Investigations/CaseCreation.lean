import Amlguard.Experiments.Postgres
import Amlguard.Investigations.Domain
import Amlguard.Library.Transitions
import Mathlib.Logic.Function.Basic

/-!
# Concurrent creation of a case

`PostgresInvestigationRepository.create_case`: a call looks for the case of its tenant and alert,
and when there is none it inserts one at its commit, under the unique constraints of the table.
Calls that both found no case meet the constraint and not the branch for an existing case.

Only the alert and the cases are read, and no case of the pair is deleted meanwhile.
-/

namespace Amlguard

open Transitions

/-- A row of the alert table. -/
structure AlertRecord where
  id : UUID
  alertRef : String
  customerId : UUID

/-- A row of the case table. -/
structure CaseRecord where
  id : UUID
  caseRef : String
  alertId : UUID
  customerId : UUID
  tenantId : String
  assignedInvestigatorId : String
  status : CaseStatus
  deriving DecidableEq

/-- What distinguishes the calls for one pair: the investigator, and the UUID that is drawn. -/
structure CreateCall where
  investigatorId : String
  caseId : UUID

/-- Where a call of `create_case` stands. -/
inductive CreateState where
  | idle
  | prepared (record : CaseRecord)
  | ended (outcome : Except PyError (CaseRecord × Bool))

/-- The committed cases, and the calls. -/
structure CreationDb where
  records : List CaseRecord
  calls : ℕ → CreateState

/-- The steps of the calls. -/
inductive CreateStep where
  | read (t : ℕ)
  | commit (t : ℕ)

/-- `f"CASE-{str(case_id)[:8].upper()}"`. -/
def caseRef (caseId : UUID) : String :=
  "CASE-" ++ String.ofList (((UUID.str caseId).toList.take 8).map Char.toUpper)

/-- The insertion of a case. -/
def insertCase (records : List CaseRecord) (record : CaseRecord) :
    Except PyError (List CaseRecord) := do
  let _ ← varchar 50 record.caseRef
  let _ ← varchar 120 record.tenantId
  let _ ← varchar 120 record.assignedInvestigatorId
  raiseIf (∃ stored ∈ records, stored.id = record.id ∨ stored.caseRef = record.caseRef ∨
    (stored.tenantId = record.tenantId ∧ stored.alertId = record.alertId)) integrityError
  pure (records ++ [record])

/-- The alert is already assigned. -/
def alreadyAssigned : PyError :=
  .permissionError "alert is already assigned to another investigator"

namespace CreationDb

variable (alerts : List AlertRecord) (alertId tenantId : String) (calls : ℕ → CreateCall)

/-- The alert of the calls. -/
def alert : Option AlertRecord := alerts.find? fun alert => alert.alertRef = alertId

/-- The cases of a tenant and an alert. -/
def pairCases (db : CreationDb) (alert : AlertRecord) : List CaseRecord :=
  db.records.filter fun record => record.alertId = alert.id ∧ record.tenantId = tenantId

/-- The case that a call prepares. -/
def newCase (alert : AlertRecord) (t : ℕ) : CaseRecord where
  id := (calls t).caseId
  caseRef := caseRef (calls t).caseId
  alertId := alert.id
  customerId := alert.customerId
  tenantId := tenantId
  assignedInvestigatorId := (calls t).investigatorId
  status := .open

/-- What a call does before its commit. -/
def readCase (db : CreationDb) (t : ℕ) : CreateState :=
  match alert alerts alertId with
  | none => .ended (.error noResultFound)
  | some alert =>
    match (db.pairCases tenantId alert).head? with
    | some existing =>
      if existing.assignedInvestigatorId ≠ (calls t).investigatorId then
        .ended (.error alreadyAssigned)
      else .ended (.ok (existing, false))
    | none => .prepared (newCase tenantId calls alert t)

/-- The database with a call in another place. -/
def move (db : CreationDb) (t : ℕ) (state : CreateState) : CreationDb :=
  { db with calls := Function.update db.calls t state }

/-- The steps that the database admits, and where they lead. -/
inductive Step : CreationDb → CreateStep → CreationDb → Prop where
  | read (db : CreationDb) (t : ℕ) (h : db.calls t = .idle) :
      Step db (.read t) (db.move t (readCase alerts alertId tenantId calls db t))
  | insert (db : CreationDb) (t : ℕ) (record : CaseRecord) (records : List CaseRecord)
      (h : db.calls t = .prepared record) (hinsert : insertCase db.records record = .ok records) :
      Step db (.commit t) { db.move t (.ended (.ok (record, true))) with records }
  | refuse (db : CreationDb) (t : ℕ) (record : CaseRecord) (e : PyError)
      (h : db.calls t = .prepared record) (hinsert : insertCase db.records record = .error e) :
      Step db (.commit t) (db.move t (.ended (.error e)))

/-- The columns hold a case, and its identifier and its reference are new. -/
def Storable (records : List CaseRecord) (record : CaseRecord) : Prop :=
  record.caseRef.length ≤ 50 ∧ record.tenantId.length ≤ 120 ∧
    record.assignedInvestigatorId.length ≤ 120 ∧
      ∀ stored ∈ records, stored.id ≠ record.id ∧ stored.caseRef ≠ record.caseRef

/-- A call reads in turn when its alert exists and, if there is no case yet, no other call is about
to commit one and its own can be stored. -/
def InTurn (db : CreationDb) : CreateStep → Prop
  | .read t => ∃ a, alert alerts alertId = some a ∧ (db.pairCases tenantId a = [] →
      (∀ t' record, db.calls t' ≠ .prepared record) ∧
        Storable db.records (newCase tenantId calls a t))
  | .commit _ => True

/-- What becomes of a call when the pair has a case. -/
def Served (record : CaseRecord) (t : ℕ) (state : CreateState) : Prop :=
  state = .ended (.ok (record, true)) ∨
    ((calls t).investigatorId = record.assignedInvestigatorId ∧
      state = .ended (.ok (record, false))) ∨
    ((calls t).investigatorId ≠ record.assignedInvestigatorId ∧
      state = .ended (.error alreadyAssigned))

/-- The pair has one case. One call created it, and the others found it. -/
structure Claimed (a : AlertRecord) (record : CaseRecord) (db : CreationDb) : Prop where
  single : db.pairCases tenantId a = [record]
  creator : ∃! t, db.calls t = .ended (.ok (record, true))
  served : ∀ t, db.calls t ≠ .idle → Served calls record t (db.calls t)

/-- The pair has no case, and at most one call is about to commit one. -/
structure Unclaimed (a : AlertRecord) (db : CreationDb) : Prop where
  empty : db.pairCases tenantId a = []
  waiting : ∀ t, db.calls t = .idle ∨ (db.calls t = .prepared (newCase tenantId calls a t) ∧
    Storable db.records (newCase tenantId calls a t))
  alone : ∀ t t' record record', db.calls t = .prepared record →
    db.calls t' = .prepared record' → t = t'

/-- A call has created a case or is about to. -/
def Takes (state : CreateState) : Prop :=
  ∃ record, state = .prepared record ∨ state = .ended (.ok (record, true))

/-- A call has ended, or will, in another way than it should. -/
def Spoilt (db : CreationDb) : Prop :=
  (∃ t e, db.calls t = .ended (.error e) ∧ e ≠ alreadyAssigned) ∨
    (∃ t record, db.calls t = .prepared record ∧ ¬Storable db.records record) ∨
      ∃ t t', t ≠ t' ∧ Takes (db.calls t) ∧ Takes (db.calls t')

variable {alerts alertId tenantId calls}

/-- A moved call is in its new place. -/
theorem move_self (db : CreationDb) (t : ℕ) (state : CreateState) :
    (db.move t state).calls t = state := Function.update_self ..

/-- The other calls stay in their places. -/
theorem move_of_ne (db : CreationDb) {t t' : ℕ} (state : CreateState) (h : t' ≠ t) :
    (db.move t state).calls t' = db.calls t' := Function.update_of_ne h ..

/-- A case is inserted exactly when it can be stored and the pair has none. -/
theorem insertCase_eq_ok {records records' : List CaseRecord} {record : CaseRecord} :
    insertCase records record = .ok records' ↔
      Storable records record ∧ records' = records ++ [record] ∧
        ∀ stored ∈ records, ¬(stored.alertId = record.alertId ∧ stored.tenantId = record.tenantId) := by
  simp only [insertCase, varchar, bind_eq_ok, raiseIf_eq_ok, Storable]
  constructor
  · rintro ⟨ref, href, tenant, htenant, investigator, hinvestigator, -, hnew, hrecords⟩
    split at href
    · split at htenant
      · split at hinvestigator
        · cases hrecords
          refine ⟨⟨‹_›, ‹_›, ‹_›, fun stored hstored => ?_⟩, rfl, fun stored hstored hpair => ?_⟩
          · exact ⟨fun h => hnew ⟨stored, hstored, .inl h⟩, fun h => hnew ⟨stored, hstored, .inr (.inl h)⟩⟩
          · exact hnew ⟨stored, hstored, .inr (.inr ⟨hpair.2, hpair.1⟩)⟩
        · cases hinvestigator
      · cases htenant
    · cases href
  · rintro ⟨⟨href, htenant, hinvestigator, hnew⟩, rfl, hpair⟩
    refine ⟨_, if_pos href, _, if_pos htenant, _, if_pos hinvestigator, (), ?_, rfl⟩
    rintro ⟨stored, hstored, h | h | h⟩
    · exact (hnew stored hstored).1 h
    · exact (hnew stored hstored).2 h
    · exact hpair stored hstored ⟨h.2, h.1⟩

/-- An insertion never raises a `PermissionError`. -/
theorem insertCase_ne_alreadyAssigned {records : List CaseRecord} {record : CaseRecord} {e : PyError}
    (h : insertCase records record = .error e) : e ≠ alreadyAssigned := by
  have hdata : dataError ≠ alreadyAssigned := by decide
  have hunique : integrityError ≠ alreadyAssigned := by decide
  rintro rfl
  simp only [insertCase, varchar, raiseIf] at h
  split at h
  · split at h
    · split at h
      · split at h
        · exact hunique (Except.error.inj h)
        · cases h
      · exact hdata (Except.error.inj h)
    · exact hdata (Except.error.inj h)
  · exact hdata (Except.error.inj h)

/-- A case is one of the pair of its own alert. -/
theorem pairCases_newCase {a : AlertRecord} {db : CreationDb} {t : ℕ} {records : List CaseRecord}
    (hempty : db.pairCases tenantId a = [])
    (hrecords : records = db.records ++ [newCase tenantId calls a t]) (calls' : ℕ → CreateState) :
    (⟨records, calls'⟩ : CreationDb).pairCases tenantId a = [newCase tenantId calls a t] := by
  rw [pairCases] at hempty
  rw [pairCases, hrecords, List.filter_append, hempty]
  simp [newCase]

/-- No case of the pair is stored. -/
theorem pairCases_eq_nil {a : AlertRecord} {db : CreationDb} (t : ℕ) :
    db.pairCases tenantId a = [] ↔ ∀ stored ∈ db.records,
      ¬(stored.alertId = (newCase tenantId calls a t).alertId ∧
        stored.tenantId = (newCase tenantId calls a t).tenantId) := by
  simp [pairCases, newCase]

/-- A call that reads when the pair has a case finds it. -/
theorem Claimed.reads {a : AlertRecord} {record : CaseRecord} {db : CreationDb}
    (h : Claimed tenantId calls a record db) (halert : alert alerts alertId = some a) (t : ℕ) :
    Served calls record t (readCase alerts alertId tenantId calls db t) ∧
      readCase alerts alertId tenantId calls db t ≠ .ended (.ok (record, true)) := by
  have hread : readCase alerts alertId tenantId calls db t =
      if record.assignedInvestigatorId ≠ (calls t).investigatorId then
        .ended (.error alreadyAssigned)
      else .ended (.ok (record, false)) := by
    rw [readCase, halert]
    simp only [h.single, List.head?_cons]
  rw [hread]
  split
  · rename_i hother
    exact ⟨.inr (.inr ⟨fun heq => hother heq.symm, rfl⟩), by simp⟩
  · rename_i hsame
    exact ⟨.inr (.inl ⟨(not_not.mp hsame).symm, rfl⟩), by simp⟩

/-- A step after the pair has a case. -/
theorem Claimed.step {a : AlertRecord} {record : CaseRecord} {db db' : CreationDb} {step : CreateStep}
    (h : Claimed tenantId calls a record db) (halert : alert alerts alertId = some a)
    (hstep : Step alerts alertId tenantId calls db step db') : Claimed tenantId calls a record db' := by
  cases hstep with
  | read t hidle =>
    obtain ⟨hserved, hcreated⟩ := h.reads halert t
    obtain ⟨creator, hcreator, hunique⟩ := h.creator
    refine ⟨h.single, ⟨creator, ?_, ?_⟩, ?_⟩
    · have hne : creator ≠ t := by
        rintro rfl
        rw [hidle] at hcreator
        cases hcreator
      exact (move_of_ne db _ hne).trans hcreator
    · intro t' ht'
      by_cases heq : t' = t
      · rw [heq, move_self] at ht'
        exact absurd ht' hcreated
      · rw [move_of_ne db _ heq] at ht'
        exact hunique t' ht'
    · intro t' ht'
      by_cases heq : t' = t
      · rw [heq, move_self]
        exact hserved
      · rw [move_of_ne db _ heq] at ht' ⊢
        exact h.served t' ht'
  | insert t record' records hprepared hinsert =>
    have hserved := h.served t (by simp [hprepared])
    simp [hprepared, Served] at hserved
  | refuse t record' e hprepared hinsert =>
    have hserved := h.served t (by simp [hprepared])
    simp [hprepared, Served] at hserved

/-- A step in turn while the pair has no case. -/
theorem Unclaimed.step {a : AlertRecord} {db db' : CreationDb} {step : CreateStep}
    (h : Unclaimed tenantId calls a db) (halert : alert alerts alertId = some a)
    (hturn : InTurn alerts alertId tenantId calls db step)
    (hstep : Step alerts alertId tenantId calls db step db') :
    Unclaimed tenantId calls a db' ∨ ∃ record, Claimed tenantId calls a record db' := by
  cases hstep with
  | read t hidle =>
    obtain ⟨a', halert', hturn⟩ := hturn
    cases Option.some.inj (halert.symm.trans halert')
    obtain ⟨halone, hstorable⟩ := hturn h.empty
    have hread : readCase alerts alertId tenantId calls db t =
        .prepared (newCase tenantId calls a t) := by
      rw [readCase, halert]
      simp only [h.empty, List.head?_nil]
    rw [hread]
    refine .inl ⟨h.empty, ?_, ?_⟩
    · intro t'
      by_cases heq : t' = t
      · rw [heq, move_self]
        exact .inr ⟨rfl, hstorable⟩
      · rw [move_of_ne db _ heq]
        exact h.waiting t'
    · intro t₁ t₂ record₁ record₂ h₁ h₂
      by_cases heq₁ : t₁ = t
      · by_cases heq₂ : t₂ = t
        · rw [heq₁, heq₂]
        · rw [move_of_ne db _ heq₂] at h₂
          exact absurd h₂ (halone t₂ record₂)
      · rw [move_of_ne db _ heq₁] at h₁
        exact absurd h₁ (halone t₁ record₁)
  | insert t record records hprepared hinsert =>
    have hothers : ∀ t', t' ≠ t → db.calls t' = .idle := by
      intro t' hne
      rcases h.waiting t' with hidle | ⟨hprepared', -⟩
      · exact hidle
      · exact absurd (h.alone t' t _ _ hprepared' hprepared) hne
    have hrecord : record = newCase tenantId calls a t := by
      rcases h.waiting t with hidle | ⟨hprepared', -⟩
      · rw [hidle] at hprepared
        cases hprepared
      · exact CreateState.prepared.inj (hprepared.symm.trans hprepared')
    obtain ⟨-, hrecords, -⟩ := insertCase_eq_ok.mp hinsert
    rw [hrecord] at hrecords
    refine .inr ⟨record, ?_, ⟨t, move_self .., ?_⟩, ?_⟩
    · rw [hrecord]
      exact pairCases_newCase h.empty hrecords _
    · intro t' ht'
      by_contra hne
      change (db.move t _).calls t' = _ at ht'
      rw [move_of_ne db _ hne, hothers t' hne] at ht'
      cases ht'
    · intro t' ht'
      change (db.move t _).calls t' ≠ _ at ht'
      change Served calls record t' ((db.move t _).calls t')
      by_cases heq : t' = t
      · rw [heq, move_self]
        exact .inl rfl
      · rw [move_of_ne db _ heq] at ht'
        exact absurd (hothers t' heq) ht'
  | refuse t record e hprepared hinsert =>
    rcases h.waiting t with hidle | ⟨hprepared', hstorable⟩
    · rw [hidle] at hprepared
      cases hprepared
    · cases CreateState.prepared.inj (hprepared.symm.trans hprepared')
      have hok := insertCase_eq_ok.mpr ⟨hstorable, rfl, (pairCases_eq_nil t).mp h.empty⟩
      rw [hinsert] at hok
      cases hok

/-- A call that has ended stays so. -/
theorem Step.ended {db db' : CreationDb} {step : CreateStep}
    (hstep : Step alerts alertId tenantId calls db step db') {t : ℕ}
    {outcome : Except PyError (CaseRecord × Bool)} (h : db.calls t = .ended outcome) :
    db'.calls t = .ended outcome := by
  have hmove : ∀ t' state, db.calls t' ≠ .ended outcome →
      (db.move t' state).calls t = .ended outcome := by
    intro t' state hopen
    have hne : t ≠ t' := by
      rintro rfl
      exact hopen h
    rw [move_of_ne db state hne, h]
  cases hstep with
  | read t' hidle => exact hmove t' _ (by simp [hidle])
  | insert t' record records hprepared hinsert => exact hmove t' _ (by simp [hprepared])
  | refuse t' record e hprepared hinsert => exact hmove t' _ (by simp [hprepared])

/-- A call that is about to create a case creates it or fails. -/
theorem Step.takes {db db' : CreationDb} {step : CreateStep}
    (hstep : Step alerts alertId tenantId calls db step db') {t : ℕ} (h : Takes (db.calls t)) :
    Takes (db'.calls t) ∨ ∃ e, db'.calls t = .ended (.error e) ∧ e ≠ alreadyAssigned := by
  cases hstep with
  | read t' hidle =>
    have hne : t ≠ t' := by
      rintro rfl
      simp [hidle, Takes] at h
    exact .inl ((move_of_ne db _ hne).symm ▸ h)
  | insert t' record records hprepared hinsert =>
    change Takes ((db.move t' _).calls t) ∨ _
    by_cases heq : t = t'
    · rw [heq, move_self]
      exact .inl ⟨record, .inr rfl⟩
    · exact .inl ((move_of_ne db _ heq).symm ▸ h)
  | refuse t' record e hprepared hinsert =>
    by_cases heq : t = t'
    · rw [heq, move_self]
      exact .inr ⟨e, rfl, insertCase_ne_alreadyAssigned hinsert⟩
    · exact .inl ((move_of_ne db _ heq).symm ▸ h)

/-- A case that cannot be stored cannot be stored later, and the call fails. -/
theorem Step.unstorable {db db' : CreationDb} {step : CreateStep}
    (hstep : Step alerts alertId tenantId calls db step db') {t : ℕ} {record : CaseRecord}
    (h : db.calls t = .prepared record) (hunstorable : ¬Storable db.records record) :
    (db'.calls t = .prepared record ∧ ¬Storable db'.records record) ∨
      ∃ e, db'.calls t = .ended (.error e) ∧ e ≠ alreadyAssigned := by
  cases hstep with
  | read t' hidle =>
    have hne : t ≠ t' := by
      rintro rfl
      rw [hidle] at h
      cases h
    exact .inl ⟨(move_of_ne db _ hne).trans h, hunstorable⟩
  | insert t' record' records hprepared hinsert =>
    obtain ⟨hstorable, hrecords, -⟩ := insertCase_eq_ok.mp hinsert
    have hne : t ≠ t' := by
      rintro rfl
      cases CreateState.prepared.inj (h.symm.trans hprepared)
      exact hunstorable hstorable
    refine .inl ⟨(move_of_ne db _ hne).trans h, fun hlater => hunstorable ?_⟩
    change Storable records record at hlater
    rw [hrecords] at hlater
    obtain ⟨href, htenant, hinvestigator, hnew⟩ := hlater
    exact ⟨href, htenant, hinvestigator,
      fun stored hstored => hnew stored (List.mem_append_left _ hstored)⟩
  | refuse t' record' e hprepared hinsert =>
    by_cases heq : t = t'
    · rw [heq, move_self]
      exact .inr ⟨e, rfl, insertCase_ne_alreadyAssigned hinsert⟩
    · exact .inl ⟨(move_of_ne db _ heq).trans h, hunstorable⟩

/-- What is spoilt stays so. -/
theorem Spoilt.step {db db' : CreationDb} {step : CreateStep} (h : Spoilt db)
    (hstep : Step alerts alertId tenantId calls db step db') : Spoilt db' := by
  rcases h with ⟨t, e, hended, he⟩ | ⟨t, record, hprepared, hunstorable⟩ | ⟨t, t', hne, ht, ht'⟩
  · exact .inl ⟨t, e, hstep.ended hended, he⟩
  · rcases hstep.unstorable hprepared hunstorable with hstill | ⟨e, hended, he⟩
    · exact .inr (.inl ⟨t, record, hstill⟩)
    · exact .inl ⟨t, e, hended, he⟩
  · rcases hstep.takes ht with htakes | ⟨e, hended, he⟩
    · rcases hstep.takes ht' with htakes' | ⟨e, hended, he⟩
      · exact .inr (.inr ⟨t, t', hne, htakes, htakes'⟩)
      · exact .inl ⟨t', e, hended, he⟩
    · exact .inl ⟨t, e, hended, he⟩

/-- A call that reads out of turn spoils the database. -/
theorem spoilt_of_not_inTurn {a : AlertRecord} {db db' : CreationDb} {step : CreateStep}
    (halert : alert alerts alertId = some a)
    (hturn : ¬InTurn alerts alertId tenantId calls db step)
    (hstep : Step alerts alertId tenantId calls db step db') : Spoilt db' := by
  cases hstep with
  | read t hidle =>
    by_cases hempty : db.pairCases tenantId a = []
    · have hread : readCase alerts alertId tenantId calls db t =
          .prepared (newCase tenantId calls a t) := by
        rw [readCase, halert]
        simp only [hempty, List.head?_nil]
      rw [hread]
      by_cases halone : ∀ t' record, db.calls t' ≠ .prepared record
      · refine .inr (.inl ⟨t, _, move_self .., fun hstorable => hturn ⟨a, halert, fun _ => ?_⟩⟩)
        exact ⟨halone, hstorable⟩
      · push Not at halone
        obtain ⟨t', record, hprepared⟩ := halone
        have hne : t' ≠ t := by
          rintro rfl
          rw [hidle] at hprepared
          cases hprepared
        refine .inr (.inr ⟨t, t', hne.symm, ⟨_, .inl (move_self ..)⟩, ⟨record, .inl ?_⟩⟩)
        exact (move_of_ne db _ hne).trans hprepared
    · exact absurd ⟨a, halert, fun h => absurd h hempty⟩ hturn
  | insert t record records hprepared hinsert => exact absurd trivial hturn
  | refuse t record e hprepared hinsert => exact absurd trivial hturn

/-- When every call has ended and the pair has one case, nothing is spoilt. -/
theorem Claimed.not_spoilt {a : AlertRecord} {record : CaseRecord} {db : CreationDb}
    (h : Claimed tenantId calls a record db) : ¬Spoilt db := by
  have hserved : ∀ t, db.calls t ≠ .idle → Served calls record t (db.calls t) := h.served
  have htakes : ∀ t, Takes (db.calls t) → db.calls t = .ended (.ok (record, true)) := by
    rintro t ⟨record', hstate | hstate⟩
    · have := hserved t (by simp [hstate])
      simp [hstate, Served] at this
    · have := hserved t (by simp [hstate])
      simp only [hstate, Served] at this
      simpa [hstate] using this
  rintro (⟨t, e, hended, he⟩ | ⟨t, record', hprepared, -⟩ | ⟨t, t', hne, ht, ht'⟩)
  · have := hserved t (by simp [hended])
    simp [hended, Served, he] at this
  · have := hserved t (by simp [hprepared])
    simp [hprepared, Served] at this
  · exact hne (h.creator.unique (htakes t ht) (htakes t' ht'))

/-- No call has begun, and the pair has no case. -/
theorem unclaimed_of_idle {a : AlertRecord} {db : CreationDb} (hidle : ∀ t, db.calls t = .idle)
    (hempty : db.pairCases tenantId a = []) : Unclaimed tenantId calls a db := by
  refine ⟨hempty, fun t => .inl (hidle t), ?_⟩
  intro t t' record record' hprepared
  rw [hidle t] at hprepared
  cases hprepared

/-- Without an alert, no call reads in turn. -/
theorem idle_of_inTurn (halert : alert alerts alertId = none) {db db' : CreationDb}
    {steps : List CreateStep} (hidle : ∀ t, db.calls t = .idle)
    (hrun : Run (Step alerts alertId tenantId calls) (InTurn alerts alertId tenantId calls) db steps
      db') : ∀ t, db'.calls t = .idle := by
  apply hrun.invariant (I := fun db => ∀ t, db.calls t = .idle) _ hidle
  intro db step db' hidle hturn hstep
  cases hstep with
  | read t h =>
    obtain ⟨a, ha, -⟩ := hturn
    rw [halert] at ha
    cases ha
  | insert t record records h hinsert =>
    rw [hidle t] at h
    cases h
  | refuse t record e h hinsert =>
    rw [hidle t] at h
    cases h

/-- Calls for a pair without a case leave it with one case, created by one of them and found by the
others, exactly when the alert exists and every call that found no case did so while no other was
about to commit one, with a row that could be stored. -/
theorem single_case_iff_inTurn (alerts : List AlertRecord) (alertId tenantId : String)
    (calls : ℕ → CreateCall) {db db' : CreationDb} {steps : List CreateStep}
    (hidle : ∀ t, db.calls t = .idle)
    (hempty : ∀ a, alert alerts alertId = some a → db.pairCases tenantId a = [])
    (hrun : Run (Step alerts alertId tenantId calls) (fun _ _ => True) db steps db')
    (hended : ∀ t record, db'.calls t ≠ .prepared record) (hbegun : ∃ t, db'.calls t ≠ .idle) :
    (∃ a record, alert alerts alertId = some a ∧ Claimed tenantId calls a record db') ↔
      Run (Step alerts alertId tenantId calls) (InTurn alerts alertId tenantId calls) db steps
        db' := by
  obtain ⟨t, ht⟩ := hbegun
  cases halert : alert alerts alertId with
  | none =>
    constructor
    · rintro ⟨a, record, ha, -⟩
      cases ha
    · intro hturn
      exact absurd (idle_of_inTurn halert hidle hturn t) ht
  | some a =>
    let I := fun db => Unclaimed tenantId calls a db ∨ ∃ record, Claimed tenantId calls a record db
    have hkeeps : ∀ db step db', I db → InTurn alerts alertId tenantId calls db step →
        Step alerts alertId tenantId calls db step db' → I db' := by
      intro db step db' h hturn hstep
      rcases h with hunclaimed | ⟨record, hclaimed⟩
      · exact hunclaimed.step halert hturn hstep
      · exact .inr ⟨record, hclaimed.step halert hstep⟩
    have hinit : I db := .inl (unclaimed_of_idle hidle (hempty a halert))
    constructor
    · rintro ⟨a', record, ha', hclaimed⟩
      cases Option.some.inj ha'
      apply Run.allowed_of_unspoilt (I := I) (B := Spoilt) hkeeps
      · exact fun db step db' _ hturn hstep => spoilt_of_not_inTurn halert hturn hstep
      · exact fun db step db' h hstep => h.step hstep
      · exact hrun
      · exact hinit
      · exact hclaimed.not_spoilt
    · intro hturn
      rcases hturn.invariant hkeeps hinit with hunclaimed | ⟨record, hclaimed⟩
      · rcases hunclaimed.waiting t with hstate | ⟨hstate, -⟩
        · exact absurd hstate ht
        · exact absurd hstate (hended t _)
      · exact ⟨a, record, rfl, hclaimed⟩

section Samples

/-- One alert. -/
def sampleAlerts : List AlertRecord := [⟨1, "ALERT-1", 2⟩]

/-- Calls of one investigator, apart from the third, which draw their number as the UUID. -/
def sampleCreateCalls : ℕ → CreateCall := fun t => ⟨if t = 2 then "colleague" else "investigator", t⟩

/-- No cases, before any call. -/
def noCases : CreationDb := ⟨[], fun _ => .idle⟩

/-- The case that a call creates. -/
def sampleCase (t : ℕ) : CaseRecord := newCase "tenant" sampleCreateCalls ⟨1, "ALERT-1", 2⟩ t

/-- The case of the first call can be stored. -/
theorem storable_sample : Storable [] (sampleCase 0) := by
  have hreference : (sampleCase 0).caseRef.length ≤ 50 := by decide
  have htenant : "tenant".length ≤ 120 := by decide
  have hinvestigator : "investigator".length ≤ 120 := by decide
  exact ⟨hreference, htenant, hinvestigator, fun stored hstored => by cases hstored⟩

/-- The case of the first call is stored in an empty table. -/
theorem insertCase_sample : insertCase [] (sampleCase 0) = .ok [sampleCase 0] :=
  insertCase_eq_ok.mpr ⟨storable_sample, rfl, fun stored hstored => by cases hstored⟩

/-- The first call has created its case. -/
def oneCreated : CreationDb :=
  { (noCases.move 0 (.prepared (sampleCase 0))).move 0 (.ended (.ok (sampleCase 0, true))) with
    records := [sampleCase 0] }

/-- A later call of the same investigator has been served, and one of a colleague has been refused. -/
def laterServed : CreationDb :=
  (oneCreated.move 1 (.ended (.ok (sampleCase 0, false)))).move 2 (.ended (.error alreadyAssigned))

/-- Calls one after another read in turn. -/
theorem run_inTurn :
    Run (Step sampleAlerts "ALERT-1" "tenant" sampleCreateCalls)
      (InTurn sampleAlerts "ALERT-1" "tenant" sampleCreateCalls) noCases
      [.read 0, .commit 0, .read 1, .read 2] laterServed := by
  have hfound : oneCreated.pairCases "tenant" ⟨1, "ALERT-1", 2⟩ ≠ [] := by decide
  have hfirst : InTurn sampleAlerts "ALERT-1" "tenant" sampleCreateCalls noCases (.read 0) :=
    ⟨⟨1, "ALERT-1", 2⟩, rfl, fun _ => ⟨fun t' record => by simp [noCases], storable_sample⟩⟩
  have hsecond : InTurn sampleAlerts "ALERT-1" "tenant" sampleCreateCalls oneCreated (.read 1) :=
    ⟨⟨1, "ALERT-1", 2⟩, rfl, fun hnone => absurd hnone hfound⟩
  have hthird : InTurn sampleAlerts "ALERT-1" "tenant" sampleCreateCalls
      (oneCreated.move 1 (.ended (.ok (sampleCase 0, false)))) (.read 2) :=
    ⟨⟨1, "ALERT-1", 2⟩, rfl, fun hnone => absurd hnone hfound⟩
  apply Run.cons _ (noCases.move 0 (.prepared (sampleCase 0))) _ _ _ hfirst (.read noCases 0 rfl)
  apply Run.cons _ oneCreated _ _ _ trivial (.insert _ 0 _ _ (move_self ..) insertCase_sample)
  apply Run.cons _ (oneCreated.move 1 (.ended (.ok (sampleCase 0, false)))) _ _ _ hsecond
    (.read oneCreated 1 rfl)
  exact .cons _ _ _ _ _ hthird (.read _ 2 rfl) (.nil _)

/-- Two calls have found no case. -/
def bothPrepared : CreationDb :=
  (noCases.move 0 (.prepared (sampleCase 0))).move 1 (.prepared (sampleCase 1))

/-- The first of two calls has created its case. -/
def oneOfTwoCreated : CreationDb :=
  { bothPrepared.move 0 (.ended (.ok (sampleCase 0, true))) with records := [sampleCase 0] }

/-- The second of two calls is refused. -/
theorem run_race : ∃ e, e ≠ alreadyAssigned ∧
    Run (Step sampleAlerts "ALERT-1" "tenant" sampleCreateCalls) (fun _ _ => True) noCases
      [.read 0, .read 1, .commit 0, .commit 1] (oneOfTwoCreated.move 1 (.ended (.error e))) := by
  have hrefused : ∃ e, insertCase [sampleCase 0] (sampleCase 1) = .error e := by
    cases hinsert : insertCase [sampleCase 0] (sampleCase 1) with
    | error e => exact ⟨e, rfl⟩
    | ok records =>
      obtain ⟨-, -, hpair⟩ := insertCase_eq_ok.mp hinsert
      exact absurd ⟨rfl, rfl⟩ (hpair (sampleCase 0) (List.mem_singleton_self _))
  obtain ⟨e, he⟩ := hrefused
  refine ⟨e, insertCase_ne_alreadyAssigned he, ?_⟩
  apply Run.cons _ (noCases.move 0 (.prepared (sampleCase 0))) _ _ _ trivial (.read noCases 0 rfl)
  apply Run.cons _ bothPrepared _ _ _ trivial (.read _ 1 rfl)
  apply Run.cons _ oneOfTwoCreated _ _ _ trivial
  · exact .insert bothPrepared 0 _ _ rfl (insertCase_sample)
  · exact .cons _ _ _ _ _ trivial (.refuse _ 1 _ e rfl he) (.nil _)

end Samples

/-- The first of three calls creates the case of its pair. A later one of the same investigator finds it, and one
of a colleague is refused. -/
theorem single_case_iff_inTurn_later :
    ∃ a record, alert sampleAlerts "ALERT-1" = some a ∧
      Claimed "tenant" sampleCreateCalls a record laterServed := by
  apply (single_case_iff_inTurn sampleAlerts "ALERT-1" "tenant" sampleCreateCalls (fun _ => rfl)
    (fun _ _ => rfl) run_inTurn.any _ _).mpr run_inTurn
  · intro t record
    unfold laterServed oneCreated
    by_cases htwo : t = 2
    · rw [htwo, move_self]
      exact nofun
    · rw [move_of_ne _ _ htwo]
      by_cases hone : t = 1
      · rw [hone, move_self]
        exact nofun
      · rw [move_of_ne _ _ hone]
        change (CreationDb.move _ 0 _).calls t ≠ _
        by_cases hzero : t = 0
        · rw [hzero, move_self]
          exact nofun
        · rw [move_of_ne _ _ hzero, move_of_ne _ _ hzero]
          exact nofun
  · exact ⟨0, nofun⟩

/-- Two calls that both find no case: the second one meets the unique constraint. -/
theorem concurrent_creation_refused :
    ¬∀ (alerts : List AlertRecord) (alertId tenantId : String) (calls : ℕ → CreateCall)
      (db db' : CreationDb) (steps : List CreateStep) (a : AlertRecord),
        (∀ t, db.calls t = .idle) → alert alerts alertId = some a →
          db.pairCases tenantId a = [] →
            Run (Step alerts alertId tenantId calls) (fun _ _ => True) db steps db' →
              (∀ t record, db'.calls t ≠ .prepared record) → (∃ t, db'.calls t ≠ .idle) →
                ∃ record, Claimed tenantId calls a record db' := by
  intro h
  obtain ⟨e, he, hrun⟩ := run_race
  obtain ⟨record, hclaimed⟩ := h sampleAlerts "ALERT-1" "tenant" sampleCreateCalls noCases _ _
    ⟨1, "ALERT-1", 2⟩ (fun _ => rfl) rfl rfl hrun (by
      intro t record
      by_cases hone : t = 1
      · rw [hone, move_self]
        exact nofun
      · rw [move_of_ne _ _ hone]
        change (bothPrepared.move 0 _).calls t ≠ _
        by_cases hzero : t = 0
        · rw [hzero, move_self]
          exact nofun
        · rw [move_of_ne _ _ hzero, bothPrepared, move_of_ne _ _ hone, move_of_ne _ _ hzero]
          exact nofun) ⟨1, by rw [move_self]; exact nofun⟩
  have hserved := hclaimed.served 1 (by rw [move_self]; exact nofun)
  simp [move_self, Served, he] at hserved

end CreationDb

end Amlguard
