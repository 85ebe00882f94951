import Amlguard.Experiments.Lockstep

/-!
# The queues agree where their differences are not met

`Mirrored` relates the two states: the same jobs up to LEASED and RUNNING, the same
manifests, totals that add up to the same amounts, and a reservation in memory for every row
that holds one. Each operation keeps it as long as it is `Alike`, by one lemma for each, and
`queues_agree_of_alike` carries it through a run.
-/

namespace Amlguard

open Numeric PostgresExperimentQueue

/-- A job in memory and a row that say the same. -/
structure SameJob (j : UUID) (job : ExperimentJob) (row : ExperimentJobRecord) : Prop where
  jobId : job.jobId = j
  enlisted : job.enlisted = row.enlisted
  status : job.status.seen = row.status.seen
  attemptCount : job.attemptCount = row.attemptCount
  maxAttempts : job.maxAttempts = row.maxAttempts
  leaseOwner : job.leaseOwner = row.leaseOwner
  leaseExpiresAt : job.leaseExpiresAt = row.leaseExpiresAt
  notBefore : job.notBefore = row.notBefore
  cost_nonneg : 0 ≤ row.estimatedCostEur

/-- A manifest in memory and a row that say the same. -/
structure SameManifest (manifest : ExperimentManifest) (m : ExperimentRecord) : Prop where
  ceiling : m.costCeilingEur = manifest.costCeilingEur
  payload : m.payload = manifest.document

/-- The costs and reservations in memory are those of the tables. -/
structure SameAmounts (q : InMemoryQueue) (db : Database) : Prop where
  spent : ∀ e, InMemoryExperimentQueue.spent q e =
    (db.manifests.get? e).elim 0 (·.costSpentEur)
  reserved : ∀ e, InMemoryExperimentQueue.reserved q e =
    (db.manifests.get? e).elim 0 (·.costReservedEur)
  reservations : ∀ j row, db.jobs.get? j = some row →
    SameReservation row (q.reservations.get? row.sessionKey)
  known : ∀ key r, q.reservations.get? key = some r →
    ∃ j row, db.jobs.get? j = some row ∧ row.sessionKey = key
  grid : ∀ j row, db.jobs.get? j = some row → OnGrid 4 row.reservedCostEur

/-- The two queues hold the same. -/
structure Mirrored (q : InMemoryQueue) (db : Database) (issued : List (String × ExperimentJob)) :
    Prop where
  consistent : Consistent db issued
  jobs : ∀ j, Option.Rel (SameJob j) (q.jobs.get? j) (db.jobs.get? j)
  manifests : ∀ e, Option.Rel SameManifest (q.manifests.get? e) (db.manifests.get? e)
  amounts : SameAmounts q db
  stopped : ∀ e, e ∈ q.stopped ↔ ∃ m, db.manifests.get? e = some m ∧ m.stopRequested = true
  results : ∀ key, q.results.get? key = (db.sessions.get? key).map (·.result)

/-- The two copies of a claimed job, and the row that they are copies of. -/
structure HeldJob (db : Database) (issued : List (String × ExperimentJob))
    (jobs : ExperimentJob × ExperimentJob) (row : ExperimentJobRecord) : Prop where
  same : jobs.1.jobId = jobs.2.jobId
  issued : ∃ workerId, (workerId, jobs.2) ∈ issued
  stored : db.jobs.get? jobs.2.jobId = some row
  attemptCount : row.attemptCount = jobs.2.attemptCount
  experimentId : row.experimentId = jobs.1.experimentId
  sessionKey : row.sessionKey = jobs.1.sessionKey

section Relation

variable {α β : Type} {R : α → β → Prop} {a : Option α} {b : Option β}

/-- Related to a present value is a present value. -/
theorem exists_of_rel_right (h : Option.Rel R a b) {y : β} (hb : b = some y) :
    ∃ x, a = some x ∧ R x y := by
  cases h with
  | some hxy =>
    cases hb
    exact ⟨_, rfl, hxy⟩
  | none => cases hb

/-- Related to a present value is a present value. -/
theorem exists_of_rel_left (h : Option.Rel R a b) {x : α} (ha : a = some x) :
    ∃ y, b = some y ∧ R x y := by
  cases h with
  | some hxy =>
    cases ha
    exact ⟨_, rfl, hxy⟩
  | none => cases ha

/-- Writing related values under one key keeps two dictionaries related. -/
theorem rel_set {K : Type} [DecidableEq K] {R : K → α → β → Prop} {d : Dict K α} {d' : Dict K β}
    (h : ∀ k, Option.Rel (R k) (d.get? k) (d'.get? k)) {k : K} {x : α} {y : β} (hxy : R k x y) :
    ∀ k', Option.Rel (R k') ((d.set k x).get? k') ((d'.set k y).get? k') := by
  intro k'
  rw [Dict.get?_set, Dict.get?_set]
  by_cases heq : k = k'
  · subst heq
    rw [if_pos rfl, if_pos rfl]
    exact .some hxy
  · rw [if_neg heq, if_neg heq]
    exact h k'

end Relation

/-- The stored jobs are still the same attempts of the same sessions. -/
def KeepsAttempts (jobs jobs' : Dict UUID ExperimentJobRecord) : Prop :=
  ∀ j row, jobs.get? j = some row → ∃ row', jobs'.get? j = some row' ∧
    row'.attemptCount = row.attemptCount ∧ row'.experimentId = row.experimentId ∧
      row'.sessionKey = row.sessionKey

/-- Nothing has changed. -/
theorem keepsAttempts_refl (jobs : Dict UUID ExperimentJobRecord) : KeepsAttempts jobs jobs :=
  fun _ row hrow => ⟨row, hrow, rfl, rfl, rfl⟩

/-- Another row of the same attempt has been written. -/
theorem keepsAttempts_set {jobs : Dict UUID ExperimentJobRecord} {j : UUID}
    {row row' : ExperimentJobRecord} (hrow : jobs.get? j = some row)
    (hattempts : row'.attemptCount = row.attemptCount)
    (hexperiment : row'.experimentId = row.experimentId)
    (hkey : row'.sessionKey = row.sessionKey) : KeepsAttempts jobs (jobs.set j row') := by
  intro k found hfound
  by_cases heq : j = k
  · subst heq
    rw [hrow] at hfound
    cases hfound
    exact ⟨row', Dict.get?_set_self jobs j row', hattempts, hexperiment, hkey⟩
  · exact ⟨found, (Dict.get?_set_ne jobs heq row').trans hfound, rfl, rfl, rfl⟩

/-- A claimed job stays held while its attempt stays the same. -/
theorem HeldJob.keeps {db db' : Database} {issued : List (String × ExperimentJob)}
    {jobs : ExperimentJob × ExperimentJob} {row : ExperimentJobRecord} (h : HeldJob db issued jobs row)
    (hkeeps : KeepsAttempts db.jobs db'.jobs) : ∃ row', HeldJob db' issued jobs row' := by
  obtain ⟨row', hrow', hattempts, hexperiment, hkey⟩ := hkeeps _ row h.stored
  exact ⟨row', h.same, h.issued, hrow', hattempts.trans h.attemptCount,
    hexperiment.trans h.experimentId, hkey.trans h.sessionKey⟩

section Step

variable {lib : Stdlib} {draws : Draws} {c : QueueCall} {db db' : Database}
  {block : Database → Except PyError (c.Reply × Database)}

/-- A transaction that ends normally is committed. -/
theorem step_ok (houtage : draws.outage = none)
    (hblock : perform lib draws c = Database.session block) {r : c.Reply}
    (h : block db = .ok (r, db')) :
    (postgresExperimentQueue lib).step draws c db = (.ok r, db') := by
  simp only [postgresExperimentQueue, houtage, hblock, Database.session, h]

/-- A transaction that raises is rolled back. -/
theorem step_error (houtage : draws.outage = none)
    (hblock : perform lib draws c = Database.session block) {e : PyError}
    (h : block db = .error e) :
    (postgresExperimentQueue lib).step draws c db = (.error e, db) := by
  simp only [postgresExperimentQueue, houtage, hblock, Database.session, h]

end Step

namespace SameAmounts

variable {q : InMemoryQueue} {db : Database}

/-- Writing a row that holds the same reservation keeps the amounts the same. -/
theorem setJob (h : SameAmounts q db) {j : UUID} {row row' : ExperimentJobRecord}
    (hrow : db.jobs.get? j = some row) (hexperiment : row'.experimentId = row.experimentId)
    (hkey : row'.sessionKey = row.sessionKey)
    (hreserved : row'.reservedCostEur = row.reservedCostEur) {jobs : Dict UUID ExperimentJob} :
    SameAmounts { q with jobs } { db with jobs := db.jobs.set j row' } := by
  have hfound : ∀ {k found}, (db.jobs.set j row').get? k = some found →
      ∃ old, db.jobs.get? k = some old ∧ found.experimentId = old.experimentId ∧
        found.sessionKey = old.sessionKey ∧ found.reservedCostEur = old.reservedCostEur := by
    intro k found hfound
    rw [Dict.get?_set] at hfound
    split at hfound
    · rename_i heq
      cases hfound
      exact ⟨row, heq ▸ hrow, hexperiment, hkey, hreserved⟩
    · exact ⟨found, hfound, rfl, rfl, rfl⟩
  refine ⟨h.spent, h.reserved, fun k found hget => ?_, fun key r hr => ?_, fun k found hget => ?_⟩
  · obtain ⟨old, hold, he, hk, hx⟩ := hfound hget
    unfold SameReservation
    rw [he, hk, hx]
    exact h.reservations k old hold
  · obtain ⟨k, old, hold, hk⟩ := h.known key r hr
    by_cases heq : j = k
    · subst heq
      rw [hrow] at hold
      cases hold
      exact ⟨j, row', Dict.get?_set_self _ _ _, hkey.trans hk⟩
    · exact ⟨k, old, (Dict.get?_set_ne _ heq _).trans hold, hk⟩
  · obtain ⟨old, hold, -, -, hx⟩ := hfound hget
    rw [hx]
    exact h.grid k old hold

/-- Writing a manifest with the same totals keeps the amounts the same. -/
theorem setManifest (h : SameAmounts q db) {e : UUID} {m m' : ExperimentRecord}
    (hm : db.manifests.get? e = some m) (hspent : m'.costSpentEur = m.costSpentEur)
    (hreserved : m'.costReservedEur = m.costReservedEur) {stopped : Finset UUID} :
    SameAmounts { q with stopped } { db with manifests := db.manifests.set e m' } := by
  refine ⟨fun e' => ?_, fun e' => ?_, h.reservations, h.known, h.grid⟩
  · refine (h.spent e').trans ?_
    change _ = ((db.manifests.set e m').get? e').elim 0 _
    rw [Dict.get?_set]
    split
    · rename_i heq
      rw [← heq, hm]
      exact hspent.symm
    · rfl
  · refine (h.reserved e').trans ?_
    change _ = ((db.manifests.set e m').get? e').elim 0 _
    rw [Dict.get?_set]
    split
    · rename_i heq
      rw [← heq, hm]
      exact hreserved.symm
    · rfl

/-- A reservation for a row for which memory keeps none. -/
theorem reserve (h : SameAmounts q db) {issued : List (String × ExperimentJob)}
    (hconsistent : Consistent db issued) {j : UUID} {row : ExperimentJobRecord}
    {m : ExperimentRecord} {amount : ℚ} (hrow : db.jobs.get? j = some row)
    (hm : db.manifests.get? row.experimentId = some m)
    (hfree : q.reservations.get? row.sessionKey = none) (hgrid : OnGrid 4 amount) :
    SameAmounts
      { q with reservations := q.reservations.set row.sessionKey (row.experimentId, amount) }
      { db with
        manifests := db.manifests.set row.experimentId
          { m with costReservedEur := m.costReservedEur + amount }
        jobs := db.jobs.set j { row with reservedCostEur := amount } } := by
  refine ⟨fun e => ?_, fun e => ?_, fun k found hfound => ?_, fun key r hr => ?_,
    fun k found hfound => ?_⟩
  · refine (h.spent e).trans ?_
    change _ = ((db.manifests.set row.experimentId _).get? e).elim 0 _
    rw [Dict.get?_set]
    split
    · rename_i heq
      rw [← heq, hm]
      rfl
    · rfl
  · change (q.reservations.set row.sessionKey (row.experimentId, amount)).sum _ =
      ((db.manifests.set row.experimentId _).get? e).elim 0 _
    have hold := h.reserved e
    unfold InMemoryExperimentQueue.reserved at hold
    rw [Dict.sum_set, hfree, hold, Dict.get?_set]
    by_cases heq : row.experimentId = e
    · rw [if_pos heq, if_pos heq, ← heq, hm]
      simp
    · rw [if_neg heq, if_neg heq]
      simp
  · change (db.jobs.set j _).get? k = some found at hfound
    change SameReservation found ((q.reservations.set row.sessionKey _).get? found.sessionKey)
    rw [Dict.get?_set] at hfound
    split at hfound
    · cases hfound
      exact .inl (Dict.get?_set_self _ _ _)
    · rename_i hkj
      -- another row has another key
      have hkey : row.sessionKey ≠ found.sessionKey := fun heq =>
        hkj (hconsistent.keyOf j k row found hrow hfound heq)
      rw [Dict.get?_set_ne _ hkey]
      exact h.reservations k found hfound
  · change (q.reservations.set row.sessionKey _).get? key = some r at hr
    have hback : ∀ k old, db.jobs.get? k = some old → ∃ k' row', (db.jobs.set j { row with
        reservedCostEur := amount }).get? k' = some row' ∧ row'.sessionKey = old.sessionKey := by
      intro k old hold
      by_cases heq : j = k
      · subst heq
        rw [hrow] at hold
        cases hold
        exact ⟨j, _, Dict.get?_set_self _ _ _, rfl⟩
      · exact ⟨k, old, (Dict.get?_set_ne _ heq _).trans hold, rfl⟩
    rw [Dict.get?_set] at hr
    split at hr
    · rename_i heq
      subst heq
      exact hback j row hrow
    · obtain ⟨k, old, hold, rfl⟩ := h.known key r hr
      exact hback k old hold
  · change (db.jobs.set j _).get? k = some found at hfound
    rw [Dict.get?_set] at hfound
    split at hfound
    · cases hfound
      exact hgrid
    · exact h.grid k found hfound

/-- The reservation of a row is released, and a cost may be booked. -/
theorem release (h : SameAmounts q db) {issued : List (String × ExperimentJob)}
    (cost : ℚ) (hconsistent : Consistent db issued) {j : UUID} {row row' : ExperimentJobRecord}
    {m m' : ExperimentRecord} {q' : InMemoryQueue}
    {sessions : Dict String ExperimentSessionRecord} (hrow : db.jobs.get? j = some row)
    (hm : db.manifests.get? row.experimentId = some m)
    (hkey : row'.sessionKey = row.sessionKey) (hnone : row'.reservedCostEur = 0)
    (hreserved : m'.costReservedEur = m.costReservedEur - row.reservedCostEur)
    (hspent : m'.costSpentEur = m.costSpentEur + cost)
    (hcosts : ∀ e, InMemoryExperimentQueue.spent q' e =
      InMemoryExperimentQueue.spent q e + if row.experimentId = e then cost else 0)
    (hreservations : q'.reservations = q.reservations.erase row.sessionKey) :
    SameAmounts q' ⟨db.manifests.set row.experimentId m', db.jobs.set j row', sessions⟩ := by
  have hheld := h.reservations j row hrow
  have hother : ∀ {k found}, j ≠ k → db.jobs.get? k = some found →
      row.sessionKey ≠ found.sessionKey := fun hne hfound heq =>
    hne (hconsistent.keyOf _ _ _ _ hrow hfound heq)
  refine ⟨fun e => ?_, fun e => ?_, fun k found hfound => ?_, fun key r hr => ?_,
    fun k found hfound => ?_⟩
  · rw [hcosts, h.spent, Dict.get?_set]
    by_cases heq : row.experimentId = e
    · rw [if_pos heq, if_pos heq, ← heq, hm]
      exact hspent.symm
    · rw [if_neg heq, if_neg heq, add_zero]
  · have hold := h.reserved e
    unfold InMemoryExperimentQueue.reserved at hold ⊢
    rw [hreservations, Dict.sum_erase, hold, Dict.get?_set]
    by_cases heq : row.experimentId = e
    · rw [if_pos heq, ← heq, hm]
      cases hheld with
      | inl hkept => simp [hkept, hreserved]
      | inr hnothing => simp [hnothing.1, hnothing.2, hreserved]
    · rw [if_neg heq]
      cases hheld with
      | inl hkept => simp [hkept, heq]
      | inr hnothing => simp [hnothing.1]
  · rw [hreservations]
    rw [Dict.get?_set] at hfound
    split at hfound
    · cases hfound
      rw [hkey]
      exact .inr ⟨Dict.get?_erase_self _ _, hnone⟩
    · rename_i hne
      rw [Dict.get?_erase_ne _ (hother hne hfound)]
      exact h.reservations k found hfound
  · rw [hreservations, Dict.get?_erase] at hr
    split at hr
    · cases hr
    · rename_i hne
      obtain ⟨k, old, hold, rfl⟩ := h.known key r hr
      have hjk : j ≠ k := by
        intro heq
        subst heq
        rw [hrow] at hold
        cases hold
        exact hne rfl
      exact ⟨k, old, (Dict.get?_set_ne _ hjk _).trans hold, rfl⟩
  · rw [Dict.get?_set] at hfound
    split at hfound
    · cases hfound
      rw [hnone]
      exact onGrid_zero 4
    · exact h.grid k found hfound

/-- What memory keeps for a row without a reservation can be dropped. -/
theorem forget (h : SameAmounts q db) {issued : List (String × ExperimentJob)}
    (hconsistent : Consistent db issued) {j : UUID} {row : ExperimentJobRecord} {m : ExperimentRecord}
    (hrow : db.jobs.get? j = some row) (hm : db.manifests.get? row.experimentId = some m)
    (hnone : row.reservedCostEur = 0) :
    SameAmounts { q with reservations := q.reservations.erase row.sessionKey } db := by
  have hreleased : SameAmounts { q with reservations := q.reservations.erase row.sessionKey }
      ⟨db.manifests.set row.experimentId m, db.jobs.set j row, db.sessions⟩ := by
    apply h.release 0 hconsistent hrow hm rfl hnone
    · rw [hnone, sub_zero]
    · rw [add_zero]
    · intro e
      rw [ite_self, add_zero]
      rfl
    · rfl
  rwa [Dict.set_of_get? _ hm, Dict.set_of_get? _ hrow] at hreleased

end SameAmounts

namespace Mirrored

variable {q : InMemoryQueue} {db : Database} {issued : List (String × ExperimentJob)}
  {lib : Stdlib} {draws : Draws}

/-- Two empty queues hold the same. -/
theorem initial : Mirrored InMemoryExperimentQueue.initial Database.initial [] := by
  refine ⟨Consistent.initial, fun _ => .none, fun _ => .none, ?_, fun e => ?_, fun _ => rfl⟩
  · exact ⟨fun _ => rfl, fun _ => rfl, fun _ _ h => (by cases h), fun _ _ h => (by cases h),
      fun _ _ h => (by cases h)⟩
  · constructor
    · intro h
      cases h
    · rintro ⟨m, hm, -⟩
      cases hm

/-- Queues that hold the same look the same. -/
theorem sameView {s : Twins} (h : Mirrored s.memory s.database issued) : SameView s := by
  refine ⟨fun j => ?_, h.amounts.spent, h.amounts.reserved, fun j job row hjob hrow => ?_,
    h.stopped, h.results⟩
  · cases hrow : s.database.jobs.get? j with
    | none =>
      cases hjob : s.memory.jobs.get? j with
      | none => rfl
      | some job =>
        obtain ⟨row, hsome, -⟩ := exists_of_rel_left (h.jobs j) hjob
        rw [hrow] at hsome
        cases hsome
    | some row =>
      obtain ⟨job, hjob, hsame⟩ := exists_of_rel_right (h.jobs j) hrow
      rw [hjob]
      exact congrArg some hsame.status
  · obtain ⟨job', hjob', hsame⟩ := exists_of_rel_right (h.jobs j) hrow
    rw [hjob] at hjob'
    cases hjob'
    rw [show job.sessionKey = row.sessionKey from congrArg (·.2.1) hsame.enlisted]
    exact h.amounts.reservations j row hrow

/-- The call is no claim, and completes no job that was not claimed. -/
def Justified (issued : List (String × ExperimentJob)) : QueueCall → Prop
  | .claim _ => False
  | .complete job _ _ => ∃ workerId, (workerId, job) ∈ issued
  | _ => True

/-- A justified call keeps the tables consistent. -/
theorem consistent_step (h : Mirrored q db issued) {c : QueueCall} (hc : Justified issued c) :
    Consistent ((postgresExperimentQueue lib).step draws c db).2 issued := by
  have hstep := h.consistent.effect_of_completes (by
    intro job result cost heq
    subst heq
    exact hc) (postgres_step_effect lib draws c db)
  have hnone : ∀ r, issuedBy c r = [] := by
    intro r
    cases c with
    | claim workerId => exact hc.elim
    | _ => rfl
  rw [hnone] at hstep
  exact hstep

/-- Two calls are answered alike, and they leave the queues the same and the claimed jobs at
their attempts. -/
structure CallsAgree (lib : Stdlib) (draws : Draws) (c c' : QueueCall) (q : InMemoryQueue)
    (db : Database) (issued : List (String × ExperimentJob)) : Prop where
  reply : SameReply (ended ((inMemoryExperimentQueue lib).step draws c q).1)
    (ended ((postgresExperimentQueue lib).step draws c' db).1)
  mirrored : Mirrored ((inMemoryExperimentQueue lib).step draws c q).2
    ((postgresExperimentQueue lib).step draws c' db).2 issued
  keeps : KeepsAttempts db.jobs ((postgresExperimentQueue lib).step draws c' db).2.jobs

/-- Two calls whose results are known agree when these do. -/
theorem callsAgree_of_steps (h : Mirrored q db issued) {c c' : QueueCall}
    {r : Except PyError c.Reply} {r' : Except PyError c'.Reply} {q' : InMemoryQueue} {db' : Database}
    (hc : Justified issued c')
    (hstep : (inMemoryExperimentQueue lib).step draws c q = (r, q'))
    (hstep' : (postgresExperimentQueue lib).step draws c' db = (r', db'))
    (hreply : SameReply (ended r) (ended r'))
    (hmirrored : Consistent db' issued → Mirrored q' db' issued)
    (hkeeps : KeepsAttempts db.jobs db'.jobs) : CallsAgree lib draws c c' q db issued := by
  have hconsistent := @consistent_step q db issued lib draws h c' hc
  rw [hstep'] at hconsistent
  constructor
  · rw [hstep, hstep']
    exact hreply
  · rw [hstep, hstep']
    exact hmirrored hconsistent
  · rw [hstep']
    exact hkeeps

/-- A call that fails on both queues and changes neither. -/
theorem callsAgree_of_errors (h : Mirrored q db issued) {c c' : QueueCall} {e e' : PyError}
    (hc : Justified issued c')
    (hstep : (inMemoryExperimentQueue lib).step draws c q = (.error e, q))
    (hstep' : (postgresExperimentQueue lib).step draws c' db = (.error e', db)) :
    CallsAgree lib draws c c' q db issued :=
  h.callsAgree_of_steps hc hstep hstep' trivial (fun _ => h) (keepsAttempts_refl _)

section Job

variable {jobs : ExperimentJob × ExperimentJob} {row : ExperimentJobRecord}

/-- A held job as it is stored in memory. -/
theorem exists_job (h : Mirrored q db issued) (hheld : HeldJob db issued jobs row) :
    ∃ job, q.jobs.get? jobs.1.jobId = some job ∧ SameJob jobs.2.jobId job row := by
  rw [hheld.same]
  exact exists_of_rel_right (h.jobs _) hheld.stored

/-- The manifest of a held job, on both queues. -/
theorem exists_manifest (h : Mirrored q db issued) (hheld : HeldJob db issued jobs row) :
    ∃ manifest m, q.manifests.get? jobs.1.experimentId = some manifest ∧
      db.manifests.get? row.experimentId = some m ∧ SameManifest manifest m := by
  obtain ⟨m, hm⟩ := Option.isSome_iff_exists.mp (h.consistent.manifestOf _ row hheld.stored)
  obtain ⟨manifest, hmanifest, hsame⟩ := exists_of_rel_right (h.manifests _) hm
  rw [hheld.experimentId] at hmanifest
  exact ⟨manifest, m, hmanifest, hm, hsame⟩

/-- A heartbeat for a job in progress. -/
theorem heartbeat (h : Mirrored q db issued) (hheld : HeldJob db issued jobs row)
    (houtage : draws.outage = none) {workerId : String}
    (hprogress : row.leaseOwner = some workerId → InProgress row) :
    CallsAgree lib draws (.heartbeat jobs.1.jobId workerId) (.heartbeat jobs.2.jobId workerId)
      q db issued := by
  obtain ⟨job, hjob, hsame⟩ := h.exists_job hheld
  rw [hheld.same] at hjob ⊢
  by_cases howner : row.leaseOwner = some workerId
  · have hjobOwner : job.leaseOwner = some workerId := hsame.leaseOwner.trans howner
    cases hexpires : addSeconds draws.now leaseSeconds with
    | error e =>
      have hmemory : (inMemoryExperimentQueue lib).step draws
          (.heartbeat jobs.2.jobId workerId) q = (.error e, q) := by
        change InMemoryExperimentQueue.heartbeat draws jobs.2.jobId workerId q = _
        simp [InMemoryExperimentQueue.heartbeat, hjob, hjobOwner, hexpires]
      obtain ⟨e', hdatabase⟩ : ∃ e', (postgresExperimentQueue lib).step draws
          (.heartbeat jobs.2.jobId workerId) db = (.error e', db) := by
        refine ⟨e, step_error houtage rfl ?_⟩
        rw [PostgresExperimentQueue.heartbeat, hexpires]
        rfl
      exact h.callsAgree_of_errors trivial hmemory hdatabase
    | ok expires =>
      have hmemory : (inMemoryExperimentQueue lib).step draws
          (.heartbeat jobs.2.jobId workerId) q = (.ok (), { q with
            jobs := q.jobs.set jobs.2.jobId { job with leaseExpiresAt := some expires } }) := by
        change InMemoryExperimentQueue.heartbeat draws jobs.2.jobId workerId q = _
        simp [InMemoryExperimentQueue.heartbeat, hjob, hjobOwner, hexpires]
      have hdatabase : (postgresExperimentQueue lib).step draws
          (.heartbeat jobs.2.jobId workerId) db = (.ok (), { db with
            jobs := db.jobs.set jobs.2.jobId { row with
              heartbeatAt := some draws.now, leaseExpiresAt := some expires
              status := .running } }) := by
        apply step_ok houtage rfl
        simp only [PostgresExperimentQueue.heartbeat, bind_eq_ok, orRaise_eq_ok, raiseIf_eq_ok]
        exact ⟨expires, hexpires, row, hheld.stored, (), not_not.mpr howner, rfl⟩
      have hseen : row.status.seen = .leased := by
        rcases hprogress howner with hs | hs <;> rw [hs] <;> rfl
      refine h.callsAgree_of_steps trivial hmemory hdatabase trivial (fun hconsistent => ?_)
        (keepsAttempts_set hheld.stored rfl rfl rfl)
      refine ⟨hconsistent, rel_set h.jobs ?_, h.manifests, ?_, h.stopped, h.results⟩
      · exact ⟨hsame.jobId, hsame.enlisted, hsame.status.trans hseen, hsame.attemptCount,
          hsame.maxAttempts, hsame.leaseOwner, rfl, hsame.notBefore, hsame.cost_nonneg⟩
      · apply h.amounts.setJob hheld.stored <;> rfl
  · have hmemory : (inMemoryExperimentQueue lib).step draws
        (.heartbeat jobs.2.jobId workerId) q = (.error leaseNotOwned, q) := by
      change InMemoryExperimentQueue.heartbeat draws jobs.2.jobId workerId q = _
      simp [InMemoryExperimentQueue.heartbeat, hjob, hsame.leaseOwner, howner]
    obtain ⟨e, hblock⟩ : ∃ e,
        PostgresExperimentQueue.heartbeat draws jobs.2.jobId workerId db = .error e := by
      cases hr : PostgresExperimentQueue.heartbeat draws jobs.2.jobId workerId db with
      | error e => exact ⟨e, rfl⟩
      | ok r =>
        simp only [PostgresExperimentQueue.heartbeat, bind_eq_ok, orRaise_eq_ok, raiseIf_eq_ok,
          not_not] at hr
        obtain ⟨expires, -, found, hfound, -, hfoundOwner, -⟩ := hr
        rw [hheld.stored] at hfound
        cases hfound
        exact (howner hfoundOwner).elim
    exact h.callsAgree_of_errors trivial hmemory (step_error houtage rfl hblock)

/-- The manifests stay the same when amounts or the stop flag of one of them change. -/
theorem manifests_set (h : Mirrored q db issued) {e : UUID} {m m' : ExperimentRecord}
    (hm : db.manifests.get? e = some m) (hceiling : m'.costCeilingEur = m.costCeilingEur)
    (hpayload : m'.payload = m.payload) :
    ∀ e', Option.Rel SameManifest (q.manifests.get? e') ((db.manifests.set e m').get? e') := by
  intro e'
  rw [Dict.get?_set]
  split
  · rename_i heq
    subst heq
    obtain ⟨manifest, hmanifest, hsame⟩ := exists_of_rel_right (h.manifests e) hm
    rw [hmanifest]
    exact .some ⟨hceiling.trans hsame.ceiling, hpayload.trans hsame.payload⟩
  · exact h.manifests e'

/-- The stopped experiments stay the same when a manifest keeps its stop flag. -/
theorem stopped_set (h : Mirrored q db issued) {e : UUID} {m m' : ExperimentRecord}
    (hm : db.manifests.get? e = some m) (hflag : m'.stopRequested = m.stopRequested) :
    ∀ e', e' ∈ q.stopped ↔
      ∃ found, (db.manifests.set e m').get? e' = some found ∧ found.stopRequested = true := by
  intro e'
  rw [h.stopped, Dict.get?_set]
  split
  · rename_i heq
    subst heq
    simp [hm, hflag]
  · rfl

/-- A job stays the same when its row changes only in what the memory does not keep. -/
theorem jobs_set_row (h : Mirrored q db issued) {j : UUID} {row row' : ExperimentJobRecord}
    (hrow : db.jobs.get? j = some row) (hsame : ∀ job, SameJob j job row → SameJob j job row') :
    ∀ k, Option.Rel (SameJob k) (q.jobs.get? k) ((db.jobs.set j row').get? k) := by
  intro k
  rw [Dict.get?_set]
  split
  · rename_i heq
    subst heq
    obtain ⟨job, hjob, hjobSame⟩ := exists_of_rel_right (h.jobs j) hrow
    rw [hjob]
    exact .some (hsame job hjobSame)
  · exact h.jobs k

/-- What memory keeps for a row without a reservation can be dropped. -/
theorem forget (h : Mirrored q db issued) {j : UUID} {m : ExperimentRecord}
    (hrow : db.jobs.get? j = some row) (hm : db.manifests.get? row.experimentId = some m)
    (hnone : row.reservedCostEur = 0) :
    Mirrored { q with reservations := q.reservations.erase row.sessionKey } db issued :=
  ⟨h.consistent, h.jobs, h.manifests, h.amounts.forget h.consistent hrow hm hnone, h.stopped, h.results⟩

/-- A reservation that meets none of the differences. -/
theorem reserveCost (h : Mirrored q db issued) (hheld : HeldJob db issued jobs row)
    (houtage : draws.outage = none) {amount : ℚ} (halike : ∀ m,
      db.manifests.get? row.experimentId = some m → (JobOp.reserveCost amount).Alike draws q m row) :
    CallsAgree lib draws (.reserveCost jobs.1 amount) (.reserveCost jobs.2 amount) q db issued := by
  obtain ⟨manifest, m, hmanifest, hm, hsame⟩ := h.exists_manifest hheld
  obtain ⟨workerId, hissued⟩ := hheld.issued
  obtain ⟨found, hfound, hcopy⟩ := h.consistent.copies _ hissued
  have hrow := hheld.stored
  rw [hrow] at hfound
  cases hfound
  have hm' : db.manifests.get? jobs.2.experimentId = some m := hcopy.experimentId ▸ hm
  have hreservation := h.amounts.reservations _ row hrow
  rw [hheld.sessionKey] at hreservation
  have hunchanged (kept : UUID × ℚ) (hkept : q.reservations.get? jobs.1.sessionKey = some kept) :
      (inMemoryExperimentQueue lib).step draws (.reserveCost jobs.1 amount) q = (.ok (), q) := by
    change InMemoryExperimentQueue.reserveCost jobs.1 amount q = _
    simp [InMemoryExperimentQueue.reserveCost, Dict.contains, hkept]
  have hspent : InMemoryExperimentQueue.spent q jobs.1.experimentId = m.costSpentEur := by
    rw [h.amounts.spent, ← hheld.experimentId, hm]
    rfl
  have hreserved : InMemoryExperimentQueue.reserved q jobs.1.experimentId = m.costReservedEur := by
    rw [h.amounts.reserved, ← hheld.experimentId, hm]
    rfl
  by_cases hnone : row.reservedCostEur = 0
  · rcases halike m hm hnone with
      ⟨hstopped, hbreach, hfree⟩ | ⟨hrunning, hroom, hkept, hgrid, hfits, hjobFits⟩
    · -- refused by both, in memory for the ceiling and on PostgreSQL for the stop flag
      have hmember : jobs.1.experimentId ∈ q.stopped :=
        (h.stopped _).mpr ⟨m, hheld.experimentId ▸ hm, hstopped⟩
      have hmemory : (inMemoryExperimentQueue lib).step draws (.reserveCost jobs.1 amount) q =
          (.error ceilingExceeded, q) := by
        change InMemoryExperimentQueue.reserveCost jobs.1 amount q = _
        rw [hheld.sessionKey] at hfree
        simp only [InMemoryExperimentQueue.reserveCost, Dict.contains, hfree, hmanifest, hspent, hreserved,
          ← hsame.ceiling]
        rw [if_neg (by simp), if_pos hbreach, InMemoryExperimentQueue.addStopped,
          Finset.insert_eq_of_mem hmember]
      have hdatabase : (postgresExperimentQueue lib).step draws (.reserveCost jobs.2 amount) db =
          (.error experimentStopped, db) := by
        apply step_error houtage rfl
        simp [PostgresExperimentQueue.reserveCost, hm', hrow, hnone, hstopped, orRaise, raiseIf,
          bind, Except.bind]
      exact h.callsAgree_of_errors trivial hmemory hdatabase
    have hdatabase : (postgresExperimentQueue lib).step draws (.reserveCost jobs.2 amount) db =
        (.ok (), { db with
          manifests := db.manifests.set row.experimentId
            { m with costReservedEur := m.costReservedEur + amount }
          jobs := db.jobs.set jobs.2.jobId { row with reservedCostEur := amount } }) := by
      apply step_ok houtage rfl
      have hgrids := h.consistent.stored _ _ hm
      rw [reserveCost_of_accepted hm' hrow hnone hrunning hroom hfits hjobFits,
        roundTo_of_onGrid (hgrids.reserved.add hgrid), roundTo_of_onGrid (hgrid.finer (by omega)),
        hcopy.experimentId]
    cases hfree : q.reservations.get? row.sessionKey with
    | some kept =>
      -- memory keeps 0 EUR for the job, and on PostgreSQL 0 EUR are reserved once more
      have hzero : amount = 0 := by
        rw [hfree] at hkept
        exact hkept.resolve_left (Option.some_ne_none kept)
      subst hzero
      have hmanifestSame : { m with costReservedEur := m.costReservedEur + 0 } = m := by
        rw [add_zero]
      have hrowSame : { row with reservedCostEur := 0 } = row := by
        rw [← hnone]
      rw [hmanifestSame, hrowSame, Dict.set_of_get? _ hm, Dict.set_of_get? _ hrow] at hdatabase
      rw [hheld.sessionKey] at hfree
      exact h.callsAgree_of_steps trivial (hunchanged kept hfree) hdatabase trivial (fun _ => h)
        (keepsAttempts_refl _)
    | none =>
      have hmemory : (inMemoryExperimentQueue lib).step draws (.reserveCost jobs.1 amount) q =
          (.ok (), { q with reservations :=
            q.reservations.set row.sessionKey (row.experimentId, amount) }) := by
        change InMemoryExperimentQueue.reserveCost jobs.1 amount q = _
        simp only [InMemoryExperimentQueue.reserveCost, Dict.contains, ← hheld.sessionKey, hfree, hmanifest,
          hspent, hreserved, ← hsame.ceiling]
        rw [if_neg (by simp), if_neg (not_lt.mpr hroom), hheld.experimentId]
      refine h.callsAgree_of_steps trivial hmemory hdatabase trivial (fun hconsistent => ?_)
        (keepsAttempts_set hrow rfl rfl rfl)
      refine ⟨hconsistent, h.jobs_set_row hrow fun job hjob => ?_, h.manifests_set hm rfl rfl,
        h.amounts.reserve h.consistent hrow hm hfree hgrid, h.stopped_set hm rfl, h.results⟩
      exact ⟨hjob.jobId, hjob.enlisted, hjob.status, hjob.attemptCount, hjob.maxAttempts,
        hjob.leaseOwner, hjob.leaseExpiresAt, hjob.notBefore, hjob.cost_nonneg⟩
  · have hkept := hreservation.resolve_right fun hnothing => hnone hnothing.2
    have hdatabase : (postgresExperimentQueue lib).step draws (.reserveCost jobs.2 amount) db =
        (.ok (), db) := by
      apply step_ok houtage rfl
      exact reserveCost_of_reserved amount hm' hrow hnone
    exact h.callsAgree_of_steps trivial (hunchanged _ hkept) hdatabase trivial (fun _ => h)
      (keepsAttempts_refl _)

/-- A completion that meets none of the differences. -/
theorem complete (h : Mirrored q db issued) (hheld : HeldJob db issued jobs row)
    (houtage : draws.outage = none) {result : Json} {cost : ℚ} (halike : ∀ m,
      db.manifests.get? row.experimentId = some m →
        (JobOp.complete result cost).Alike draws q m row) :
    CallsAgree lib draws (.complete jobs.1 result cost) (.complete jobs.2 result cost) q db
      issued := by
  obtain ⟨manifest, m, hmanifest, hm, hsame⟩ := h.exists_manifest hheld
  obtain ⟨job, hjob, hjobSame⟩ := h.exists_job hheld
  obtain ⟨workerId, hissued⟩ := hheld.issued
  obtain ⟨found, hfound, hcopy⟩ := h.consistent.copies _ hissued
  have hrow := hheld.stored
  rw [hrow] at hfound
  cases hfound
  have hm' : db.manifests.get? jobs.2.experimentId = some m := hcopy.experimentId ▸ hm
  have hgrids := h.consistent.stored _ _ hm
  have hspent : InMemoryExperimentQueue.spent q row.experimentId = m.costSpentEur := by
    rw [h.amounts.spent, hm]
    rfl
  rw [hheld.same] at hjob
  rw [← hheld.experimentId] at hmanifest
  rcases halike m hm with ⟨hstopped, hnone, hbreach⟩ | ⟨haccepted, hgrid⟩
  · -- refused by both, in memory for the ceiling and on PostgreSQL for the stop flag
    have hmember : row.experimentId ∈ q.stopped := (h.stopped _).mpr ⟨m, hm, hstopped⟩
    have hmemory : (inMemoryExperimentQueue lib).step draws (.complete jobs.1 result cost) q =
        (.error ceilingExceeded, { q with reservations := q.reservations.erase row.sessionKey }) := by
      change InMemoryExperimentQueue.complete jobs.1 result cost q = _
      simp only [InMemoryExperimentQueue.complete, ← hheld.experimentId, hmanifest,
        ← hheld.sessionKey, hspent, ← hsame.ceiling]
      rw [if_pos hbreach, InMemoryExperimentQueue.addStopped, Finset.insert_eq_of_mem hmember]
    have hdatabase : (postgresExperimentQueue lib).step draws (.complete jobs.2 result cost) db =
        (.error experimentStopped, db) := by
      apply step_error houtage rfl
      simp [PostgresExperimentQueue.complete, hm', hstopped, orRaise, raiseIf, bind, Except.bind]
    exact h.callsAgree_of_steps ⟨workerId, hissued⟩ hmemory hdatabase trivial
      (fun _ => h.forget hrow hm hnone) (keepsAttempts_refl _)
  have hmemory : (inMemoryExperimentQueue lib).step draws (.complete jobs.1 result cost) q =
      (.ok (), { q with
        reservations := q.reservations.erase row.sessionKey
        costs := q.costs.set row.experimentId (m.costSpentEur + cost)
        results := if q.results.contains row.sessionKey then q.results
          else q.results.set row.sessionKey result
        jobs := q.jobs.set jobs.2.jobId { job with status := .succeeded } }) := by
    change InMemoryExperimentQueue.complete jobs.1 result cost q = _
    have hroom : ¬m.costSpentEur + cost > manifest.costCeilingEur := by
      rw [← hsame.ceiling]
      exact not_lt.mpr haccepted.2.1
    simp only [InMemoryExperimentQueue.complete, ← hheld.experimentId, hmanifest,
      ← hheld.sessionKey, hheld.same, hspent, if_neg hroom, hjob]
  have hdatabase : (postgresExperimentQueue lib).step draws (.complete jobs.2 result cost) db =
      (.ok (), {
        manifests := db.manifests.set row.experimentId { m with
          costReservedEur := m.costReservedEur - row.reservedCostEur
          costSpentEur := m.costSpentEur + cost }
        jobs := db.jobs.set jobs.2.jobId { row with
          status := .succeeded, actualCostEur := some cost, reservedCostEur := 0 }
        sessions := if (db.sessions.get? row.sessionKey).isSome = true then db.sessions
          else db.sessions.set row.sessionKey { jobId := jobs.2.jobId, result } }) := by
    apply step_ok houtage rfl
    rw [complete_of_accepted h.consistent hm' hrow hcopy.sessionKey result haccepted,
      roundTo_of_onGrid (hgrids.reserved.sub (h.amounts.grid _ _ hrow)),
      roundTo_of_onGrid (hgrids.spent.add hgrid), roundTo_of_onGrid (hgrid.finer (by omega)),
      hcopy.experimentId, hcopy.sessionKey]
  refine h.callsAgree_of_steps ⟨workerId, hissued⟩ hmemory hdatabase trivial
    (fun hconsistent => ?_) (keepsAttempts_set hrow rfl rfl rfl)
  refine ⟨hconsistent, rel_set h.jobs ?_, h.manifests_set hm rfl rfl, ?_, h.stopped_set hm rfl,
    fun key => ?_⟩
  · exact ⟨hjobSame.jobId, hjobSame.enlisted, rfl, hjobSame.attemptCount, hjobSame.maxAttempts,
      hjobSame.leaseOwner, hjobSame.leaseExpiresAt, hjobSame.notBefore, hjobSame.cost_nonneg⟩
  · refine h.amounts.release cost h.consistent hrow hm ?_ ?_ ?_ ?_ (fun e => ?_) ?_ <;> try rfl
    unfold InMemoryExperimentQueue.spent at hspent ⊢
    change ((q.costs.set row.experimentId _).get? e).getD 0 = _
    rw [Dict.get?_set]
    by_cases heq : row.experimentId = e
    · rw [if_pos heq, if_pos heq, ← heq, hspent]
      rfl
    · rw [if_neg heq, if_neg heq, add_zero]
  · -- both keep the first result of a session
    have hfirst := h.results row.sessionKey
    have hkey := h.results key
    unfold Dict.contains
    rw [hfirst, Option.isSome_map]
    by_cases hstored : (db.sessions.get? row.sessionKey).isSome = true
    · rw [if_pos hstored, if_pos hstored]
      exact hkey
    · rw [if_neg hstored, if_neg hstored, Dict.get?_set, Dict.get?_set]
      split
      · rfl
      · exact hkey

/-- A failure that meets none of the differences. -/
theorem fail (h : Mirrored q db issued) (hheld : HeldJob db issued jobs row)
    (houtage : draws.outage = none) {error : Json} {retryable : Bool} (halike : ∀ m,
      db.manifests.get? row.experimentId = some m →
        (JobOp.fail error retryable).Alike draws q m row) :
    CallsAgree lib draws (.fail jobs.1 error retryable) (.fail jobs.2 error retryable) q db
      issued := by
  obtain ⟨manifest, m, hmanifest, hm, hsame⟩ := h.exists_manifest hheld
  obtain ⟨job, hjob, hjobSame⟩ := h.exists_job hheld
  obtain ⟨workerId, hissued⟩ := hheld.issued
  obtain ⟨found, hfound, hcopy⟩ := h.consistent.copies _ hissued
  have hrow := hheld.stored
  rw [hrow] at hfound
  cases hfound
  have hm' : db.manifests.get? jobs.2.experimentId = some m := hcopy.experimentId ▸ hm
  have hgrids := h.consistent.stored _ _ hm
  rw [hheld.same] at hjob
  rcases halike m hm with ⟨hnone, hlate⟩ | ⟨hfits, hclock⟩
  · -- no date: refused by both
    have hdate : addSeconds draws.now (retryDelay row.attemptCount) = .error .overflowError :=
      if_neg (not_le.mpr hlate)
    have hmemory : (inMemoryExperimentQueue lib).step draws (.fail jobs.1 error retryable) q =
        (.error .overflowError, { q with reservations := q.reservations.erase row.sessionKey }) := by
      change InMemoryExperimentQueue.fail draws jobs.1 retryable q = _
      simp only [InMemoryExperimentQueue.fail, ← hheld.sessionKey, hheld.same, hjob,
        hjobSame.attemptCount, hdate]
    have hdatabase : (postgresExperimentQueue lib).step draws (.fail jobs.2 error retryable) db =
        (.error .overflowError, db) := by
      apply step_error houtage rfl
      simp [PostgresExperimentQueue.fail, hm', hrow, orRaise, bind, Except.bind,
        ← hheld.attemptCount, hdate]
    exact h.callsAgree_of_steps trivial hmemory hdatabase trivial (fun _ => h.forget hrow hm hnone)
      (keepsAttempts_refl _)
  have hdate : addSeconds draws.now (retryDelay row.attemptCount) =
      .ok (second * retryDelay row.attemptCount + draws.now) := if_pos hclock
  have hstatus : InMemoryExperimentQueue.failedStatus job retryable =
      PostgresExperimentQueue.failedStatus jobs.2 retryable := by
    unfold InMemoryExperimentQueue.failedStatus PostgresExperimentQueue.failedStatus
    rw [hjobSame.attemptCount, hjobSame.maxAttempts, hheld.attemptCount, hcopy.maxAttempts]
  have hmemory : (inMemoryExperimentQueue lib).step draws (.fail jobs.1 error retryable) q =
      (.ok (), { q with
        reservations := q.reservations.erase row.sessionKey
        jobs := q.jobs.set jobs.2.jobId { job with
          status := PostgresExperimentQueue.failedStatus jobs.2 retryable
          notBefore := second * retryDelay row.attemptCount + draws.now
          leaseOwner := none, leaseExpiresAt := none } }) := by
    change InMemoryExperimentQueue.fail draws jobs.1 retryable q = _
    simp only [InMemoryExperimentQueue.fail, ← hheld.sessionKey, hheld.same, hjob,
      hjobSame.attemptCount, hdate, hstatus]
  have hdatabase : (postgresExperimentQueue lib).step draws (.fail jobs.2 error retryable) db =
      (.ok (), { db with
        manifests := db.manifests.set row.experimentId { m with
          costReservedEur := m.costReservedEur - row.reservedCostEur }
        jobs := db.jobs.set jobs.2.jobId { row with
          reservedCostEur := 0, status := PostgresExperimentQueue.failedStatus jobs.2 retryable
          providerError := some error
          notBefore := second * retryDelay row.attemptCount + draws.now
          leaseOwner := none, leaseExpiresAt := none } }) := by
    apply step_ok houtage rfl
    simp only [PostgresExperimentQueue.fail, bind_eq_ok, orRaise_eq_ok, ← hheld.attemptCount]
    refine ⟨m, hm', row, hrow, _, hdate, _, manifestAmount_of_fits hfits, ?_⟩
    rw [roundTo_of_onGrid (hgrids.reserved.sub (h.amounts.grid _ _ hrow)), hcopy.experimentId]
    rfl
  refine h.callsAgree_of_steps trivial hmemory hdatabase trivial (fun hconsistent => ?_)
    (keepsAttempts_set hrow rfl rfl rfl)
  refine ⟨hconsistent, rel_set h.jobs ?_, h.manifests_set hm rfl rfl, ?_, h.stopped_set hm rfl,
    h.results⟩
  · exact ⟨hjobSame.jobId, hjobSame.enlisted, rfl, hjobSame.attemptCount, hjobSame.maxAttempts,
      rfl, rfl, rfl, hjobSame.cost_nonneg⟩
  · refine h.amounts.release 0 h.consistent hrow hm ?_ ?_ ?_ ?_ (fun e => ?_) ?_ <;> try rfl
    · exact (add_zero _).symm
    · rw [ite_self, add_zero]
      rfl

end Job

/-- Stopping an experiment that has been scheduled. -/
theorem stop (h : Mirrored q db issued) (houtage : draws.outage = none) {e : UUID}
    (hknown : (q.manifests.get? e).isSome = true) :
    CallsAgree lib draws (.stop e) (.stop e) q db issued := by
  obtain ⟨manifest, hmanifest⟩ := Option.isSome_iff_exists.mp hknown
  obtain ⟨m, hm, -⟩ := exists_of_rel_left (h.manifests e) hmanifest
  have hdatabase : (postgresExperimentQueue lib).step draws (.stop e) db = (.ok (), { db with
      manifests := db.manifests.set e { m with stopRequested := true, status := .stopped } }) := by
    refine @step_ok lib draws (.stop e) db _ (PostgresExperimentQueue.stop e) houtage rfl () ?_
    simp only [PostgresExperimentQueue.stop, updateManifest, hm]
    rfl
  refine h.callsAgree_of_steps trivial rfl hdatabase trivial (fun hconsistent => ?_)
    (keepsAttempts_refl _)
  refine ⟨hconsistent, h.jobs, h.manifests_set hm rfl rfl, ?_, fun e' => ?_, h.results⟩
  · apply h.amounts.setManifest hm <;> rfl
  · change e' ∈ insert e q.stopped ↔ ∃ found, (db.manifests.set e _).get? e' = some found ∧ _
    rw [Finset.mem_insert, h.stopped, Dict.get?_set]
    by_cases heq : e = e'
    · simp [heq]
    · simp [heq, Ne.symm heq]

/-- Resuming an experiment. -/
theorem resume (h : Mirrored q db issued) (houtage : draws.outage = none) (e : UUID) :
    CallsAgree lib draws (.resume e) (.resume e) q db issued := by
  cases hm : db.manifests.get? e with
  | none =>
    have hdatabase : (postgresExperimentQueue lib).step draws (.resume e) db = (.ok (), db) := by
      refine @step_ok lib draws (.resume e) db _ (PostgresExperimentQueue.resume e) houtage rfl ()
        ?_
      simp only [PostgresExperimentQueue.resume, updateManifest, hm]
      rfl
    refine h.callsAgree_of_steps trivial rfl hdatabase trivial (fun hconsistent => ?_)
      (keepsAttempts_refl _)
    refine ⟨hconsistent, h.jobs, h.manifests, ?_, fun e' => ?_, h.results⟩
    · exact ⟨h.amounts.spent, h.amounts.reserved, h.amounts.reservations, h.amounts.known,
        h.amounts.grid⟩
    · change e' ∈ q.stopped.erase e ↔ _
      rw [Finset.mem_erase, h.stopped]
      constructor
      · exact fun hmem => hmem.2
      · rintro ⟨found, hfound, hflag⟩
        refine ⟨fun heq => ?_, found, hfound, hflag⟩
        rw [heq, hm] at hfound
        cases hfound
  | some m =>
    have hdatabase : (postgresExperimentQueue lib).step draws (.resume e) db = (.ok (), { db with
        manifests := db.manifests.set e
          { m with stopRequested := false, status := .running } }) := by
      refine @step_ok lib draws (.resume e) db _ (PostgresExperimentQueue.resume e) houtage rfl ()
        ?_
      simp only [PostgresExperimentQueue.resume, updateManifest, hm]
      rfl
    refine h.callsAgree_of_steps trivial rfl hdatabase trivial (fun hconsistent => ?_)
      (keepsAttempts_refl _)
    refine ⟨hconsistent, h.jobs, h.manifests_set hm rfl rfl, ?_, fun e' => ?_, h.results⟩
    · apply h.amounts.setManifest hm <;> rfl
    · change e' ∈ q.stopped.erase e ↔ ∃ found, (db.manifests.set e _).get? e' = some found ∧ _
      rw [Finset.mem_erase, h.stopped, Dict.get?_set]
      by_cases heq : e = e'
      · simp [heq]
      · simp [heq, Ne.symm heq]

section Schedule

variable {manifest : ExperimentManifest} {scenarioIds : List String}

/-- A new job on both queues. -/
theorem addJob (h : Mirrored q db issued) {key : String × String × String × ℕ}
    {id : UUID × Datetime} (hkey : key ∈ scheduleKeys lib manifest scenarioIds)
    (hknown : (db.manifests.get? manifest.experimentId).isSome = true)
    (hfresh : db.jobs.get? id.1 = none) (hwidth : key.1.length ≤ 160)
    (hfits : RowFits manifest key.2) (hnew : ∀ row ∈ db.jobs.values, row.sessionKey ≠ key.1) :
    ∃ job row, InMemoryExperimentQueue.newJob manifest id key = .ok job ∧ job.jobId = id.1 ∧
      row.sessionKey = key.1 ∧
      insertJob manifest id key db = .ok { db with jobs := db.jobs.set id.1 row } ∧
      Mirrored { q with jobs := q.jobs.set id.1 job } { db with jobs := db.jobs.set id.1 row }
        issued := by
  obtain ⟨hsession, -⟩ := mem_scheduleKeys.mp hkey
  obtain ⟨hconfiguration, hscenario, cost, hcost, hcostFits⟩ := hfits
  have hnonneg := estimatedJobCost_nonneg hcost
  have hinsert : insertJob manifest id key db = .ok { db with
      jobs := db.jobs.set id.1 (newRow manifest id.2 key (roundTo 6 cost)) } :=
    (insertJob_eq_ok_iff hfresh hwidth).mpr
      ⟨⟨hconfiguration, hscenario, cost, hcost, hcostFits⟩, hnew, roundTo 6 cost, rfl,
        by rw [hcost]; rfl⟩
  have hconsistent := (h.consistent.inserts hknown (.single (insertJob_inserts hinsert))).1
  have hnone : q.reservations.get? key.1 = none := by
    cases hr : q.reservations.get? key.1 with
    | none => rfl
    | some r =>
      obtain ⟨j, row, hrow, hrowKey⟩ := h.amounts.known key.1 r hr
      exact (hnew row (db.jobs.mem_values_of_get? hrow) hrowKey).elim
  have hjob : InMemoryExperimentQueue.newJob manifest id key = .ok _ :=
    bind_eq_ok.mpr ⟨cost, hcost, dif_pos ⟨hsession.2.2.1, hnonneg⟩⟩
  refine ⟨_, _, hjob, rfl, rfl, hinsert, hconsistent, rel_set h.jobs ?_, h.manifests, ?_,
    h.stopped, h.results⟩
  · exact ⟨rfl, rfl, rfl, rfl, rfl, rfl, rfl, rfl, roundTo_nonneg hnonneg⟩
  · have hold : ∀ k old, db.jobs.get? k = some old →
        (db.jobs.set id.1 (newRow manifest id.2 key (roundTo 6 cost))).get? k = some old := by
      intro k old hold
      refine (Dict.get?_set_ne _ (fun heq => ?_) _).trans hold
      rw [heq, hold] at hfresh
      cases hfresh
    have hcases : ∀ k found,
        (db.jobs.set id.1 (newRow manifest id.2 key (roundTo 6 cost))).get? k = some found →
          found = newRow manifest id.2 key (roundTo 6 cost) ∨ db.jobs.get? k = some found := by
      intro k found hfound
      rw [Dict.get?_set] at hfound
      split at hfound
      · exact .inl (Option.some.inj hfound).symm
      · exact .inr hfound
    refine ⟨h.amounts.spent, h.amounts.reserved, fun k found hfound => ?_, fun key' r hr => ?_,
      fun k found hfound => ?_⟩
    · rcases hcases k found hfound with rfl | hstored
      · exact .inr ⟨hnone, rfl⟩
      · exact h.amounts.reservations k found hstored
    · obtain ⟨k, old, hstored, hk⟩ := h.amounts.known key' r hr
      exact ⟨k, old, hold k old hstored, hk⟩
    · rcases hcases k found hfound with rfl | hstored
      · exact onGrid_zero 4
      · exact h.amounts.grid k found hstored

/-- The new jobs of a schedule on both queues. -/
theorem addJobs (h : Mirrored q db issued) {existing : List String} {fresh : ℕ → UUID × Datetime}
    {i : ℕ} (hinjective : ∀ i i', (fresh i).1 = (fresh i').1 → i = i')
    (hknown : (db.manifests.get? manifest.experimentId).isSome = true)
    (hfresh : ∀ k, i ≤ k → db.jobs.get? (fresh k).1 = none)
    (keys : List (String × String × String × ℕ))
    (hkeys : ∀ key ∈ keys, key ∈ scheduleKeys lib manifest scenarioIds)
    (hfits : ∀ key ∈ keys, key.1.length ≤ 160 ∧ RowFits manifest key.2)
    (hnodup : (keys.map (·.1)).Nodup)
    (hnew : ∀ key ∈ keys, key.1 ∉ existing → ∀ row ∈ db.jobs.values, row.sessionKey ≠ key.1) :
    ∃ q' db', InMemoryExperimentQueue.addJobs manifest fresh existing i keys q = (.ok (), q') ∧
      insertJobs manifest fresh i (keys.filter fun key => key.1 ∉ existing) db = .ok db' ∧
      Mirrored q' db' issued := by
  induction keys generalizing i q db with
  | nil => exact ⟨q, db, rfl, rfl, h⟩
  | cons key keys ih =>
    rw [List.map_cons, List.nodup_cons] at hnodup
    have hrest : ∀ k ∈ keys, k ∈ scheduleKeys lib manifest scenarioIds :=
      fun k hk => hkeys k (List.mem_cons_of_mem _ hk)
    have hrestFits : ∀ k ∈ keys, k.1.length ≤ 160 ∧ RowFits manifest k.2 :=
      fun k hk => hfits k (List.mem_cons_of_mem _ hk)
    by_cases hexisting : key.1 ∈ existing
    · obtain ⟨q', db', hadd, hinsert, hmirrored⟩ := ih h hknown hfresh hrest hrestFits hnodup.2
        fun k hk => hnew k (List.mem_cons_of_mem _ hk)
      refine ⟨q', db', ?_, ?_, hmirrored⟩
      · rw [InMemoryExperimentQueue.addJobs, if_pos hexisting]
        exact hadd
      · rw [List.filter_cons_of_neg (by simpa using hexisting)]
        exact hinsert
    · have hnone := hfresh i le_rfl
      obtain ⟨hwidth, hrow⟩ := hfits key List.mem_cons_self
      obtain ⟨job, row, hjob, hid, hrowKey, hmid, hmirrored⟩ := h.addJob
        (hkeys key List.mem_cons_self) hknown hnone hwidth hrow
          (hnew key List.mem_cons_self hexisting)
      have hlater : ∀ k ∈ keys, k.1 ∉ existing →
          ∀ found ∈ (db.jobs.set (fresh i).1 row).values, found.sessionKey ≠ k.1 := by
        intro k hk hkExisting found hfound
        rw [Dict.values_set_of_none _ hnone] at hfound
        rcases List.mem_append.mp hfound with hold | hadded
        · exact hnew k (List.mem_cons_of_mem _ hk) hkExisting found hold
        · obtain rfl := List.mem_singleton.mp hadded
          intro heq
          apply hnodup.1
          rw [← hrowKey, heq]
          exact List.mem_map_of_mem hk
      have hfresh' := fresh_after hinjective hfresh row
      obtain ⟨q', db', hadd, hinsert, hmirrored'⟩ := ih hmirrored hknown hfresh' hrest hrestFits
        hnodup.2 hlater
      refine ⟨q', db', ?_, ?_, hmirrored'⟩
      · rw [InMemoryExperimentQueue.addJobs, if_neg hexisting, hjob]
        simp only [hid]
        exact hadd
      · rw [List.filter_cons_of_pos (by simpa using hexisting), insertJobs]
        exact bind_eq_ok.mpr ⟨_, hmid, hinsert⟩

/-- The manifest of a schedule, new or known, on both queues. -/
theorem addManifest (h : Mirrored q db issued)
    (hsame : ∀ known ∈ q.manifests.get? manifest.experimentId, known = manifest)
    (hname : manifest.name.length ≤ 200) (hgrid : OnGrid 4 manifest.costCeilingEur)
    (hfits : Fits 14 4 manifest.costCeilingEur) :
    ∃ db', insertManifest manifest db = .ok db' ∧ db'.jobs = db.jobs ∧
      (db'.manifests.get? manifest.experimentId).isSome = true ∧
      Mirrored { q with manifests := q.manifests.set manifest.experimentId manifest } db'
        issued := by
  cases hfound : db.manifests.get? manifest.experimentId with
  | none =>
    have hinsert : insertManifest manifest db = .ok { db with
        manifests := db.manifests.set manifest.experimentId
          (newManifest manifest manifest.costCeilingEur) } := by
      simp only [insertManifest, hfound]
      refine bind_eq_ok.mpr ⟨_, varchar_eq_ok_iff.mpr ⟨hname, rfl⟩, bind_eq_ok.mpr
        ⟨_, manifestAmount_of_fits hfits, ?_⟩⟩
      rw [roundTo_of_onGrid hgrid]
      rfl
    have hstored : StoredAmounts (newManifest manifest manifest.costCeilingEur) :=
      ⟨onGrid_zero 4, onGrid_zero 4, hgrid⟩
    have hget : ∀ e, (db.manifests.set manifest.experimentId
        (newManifest manifest manifest.costCeilingEur)).get? e =
          if manifest.experimentId = e then some (newManifest manifest manifest.costCeilingEur)
          else db.manifests.get? e := fun e => Dict.get?_set _ _ _ _
    refine ⟨_, hinsert, rfl, ?_, h.consistent.setManifest _ hstored, h.jobs,
      rel_set h.manifests ⟨rfl, rfl⟩, ?_, fun e => ?_, h.results⟩
    · change ((db.manifests.set manifest.experimentId _).get? _).isSome = true
      rw [Dict.get?_set_self]
      rfl
    · refine ⟨fun e => ?_, fun e => ?_, h.amounts.reservations, h.amounts.known, h.amounts.grid⟩
      · refine (h.amounts.spent e).trans ?_
        simp only [hget]
        split
        · rename_i heq
          rw [← heq, hfound]
          rfl
        · rfl
      · refine (h.amounts.reserved e).trans ?_
        simp only [hget]
        split
        · rename_i heq
          rw [← heq, hfound]
          rfl
        · rfl
    · refine (h.stopped e).trans ?_
      simp only [hget]
      split
      · rename_i heq
        rw [← heq, hfound]
        simp [newManifest]
      · rfl
  | some existing =>
    obtain ⟨known, hknown, hknownSame⟩ := exists_of_rel_right (h.manifests _) hfound
    obtain rfl := hsame known hknown
    have hinsert : insertManifest known db = .ok db := by
      simp only [insertManifest, hfound]
      exact bind_eq_ok.mpr ⟨(), raiseIf_eq_ok.mpr (not_not.mpr hknownSame.payload), rfl⟩
    refine ⟨db, hinsert, rfl, by rw [hfound]; rfl, h.consistent, h.jobs, fun e => ?_,
      ⟨h.amounts.spent, h.amounts.reserved, h.amounts.reservations, h.amounts.known,
        h.amounts.grid⟩, h.stopped, h.results⟩
    have hgetSame : (q.manifests.set known.experimentId known).get? e = q.manifests.get? e := by
      rw [Dict.get?_set]
      split
      · rename_i heq
        rw [← heq, hknown]
      · rfl
    rw [hgetSame]
    exact h.manifests e

/-- A schedule that meets none of the differences. -/
theorem schedule (h : Mirrored q db issued) (houtage : draws.outage = none)
    (hinjective : ∀ i i', (draws.fresh i).1 = (draws.fresh i').1 → i = i')
    (hfresh : ∀ i, db.jobs.get? (draws.fresh i).1 = none)
    {held : Option (ExperimentJob × ExperimentJob)}
    (halike : ScheduleAlike lib ⟨q, db, held⟩ manifest scenarioIds) :
    CallsAgree lib draws (.schedule manifest scenarioIds) (.schedule manifest scenarioIds) q db
      issued := by
  obtain ⟨mid, hmid, hmidJobs, hknown, hmirrored⟩ :=
    h.addManifest halike.same halike.fits.1 halike.fits.2.1 halike.fits.2.2
  set keys := lib.shuffle manifest.randomizationSeed (scheduleKeys lib manifest scenarioIds)
    with hkeysDef
  have hperm : keys.Perm (scheduleKeys lib manifest scenarioIds) := lib.shuffle_perm _ _
  -- both queues skip the same keys
  have hjobKey : ∀ j job row, SameJob j job row → job.sessionKey = row.sessionKey :=
    fun j job row hsame => congrArg (·.2.1) hsame.enlisted
  have hskip : ∀ key ∈ keys, (key.1 ∈ InMemoryExperimentQueue.existingKeys q ↔
      key.1 ∈ existingKeys manifest.experimentId mid) := by
    intro key hkey
    have hforeign := (halike.rows key (hperm.subset hkey)).2.2
    rw [existingKeys, hmidJobs]
    constructor
    · intro hmem
      obtain ⟨job, hjob, hk⟩ := List.mem_map.mp hmem
      obtain ⟨j, hget⟩ := q.jobs.exists_get?_of_mem_values hjob
      obtain ⟨row, hrow, hsame⟩ := exists_of_rel_left (h.jobs j) hget
      have hrowKey : row.sessionKey = key.1 := (hjobKey j job row hsame).symm.trans hk
      exact List.mem_map.mpr ⟨row, List.mem_filter.mpr ⟨db.jobs.mem_values_of_get? hrow,
        decide_eq_true (hforeign j row hrow hrowKey)⟩, hrowKey⟩
    · intro hmem
      obtain ⟨row, hrow, hk⟩ := List.mem_map.mp hmem
      obtain ⟨j, hget⟩ := db.jobs.exists_get?_of_mem_values (List.mem_filter.mp hrow).1
      obtain ⟨job, hjob, hsame⟩ := exists_of_rel_right (h.jobs j) hget
      exact List.mem_map.mpr ⟨job, q.jobs.mem_values_of_get? hjob,
        (hjobKey j job row hsame).trans hk⟩
  have hnew : ∀ key ∈ keys, key.1 ∉ InMemoryExperimentQueue.existingKeys q →
      ∀ row ∈ mid.jobs.values, row.sessionKey ≠ key.1 := by
    intro key hkey hnot row hrow heq
    rw [hmidJobs] at hrow
    obtain ⟨j, hget⟩ := db.jobs.exists_get?_of_mem_values hrow
    obtain ⟨job, hjob, hsame⟩ := exists_of_rel_right (h.jobs j) hget
    exact hnot (List.mem_map.mpr ⟨job, q.jobs.mem_values_of_get? hjob,
      (hjobKey j job row hsame).trans heq⟩)
  obtain ⟨q', db', hadd, hinsert, hfinal⟩ := hmirrored.addJobs hinjective hknown
    (fun k (_ : 0 ≤ k) => by rw [hmidJobs]; exact hfresh k) keys
    (fun key hkey => hperm.subset hkey)
    (fun key hkey => ⟨(halike.rows key (hperm.subset hkey)).1,
      (halike.rows key (hperm.subset hkey)).2.1⟩)
    ((hperm.map _).nodup_iff.mpr halike.keys) hnew
  have hmemory : (inMemoryExperimentQueue lib).step draws (.schedule manifest scenarioIds) q =
      (.ok keys.length, q') := by
    change InMemoryExperimentQueue.schedule lib draws manifest scenarioIds q = _
    simp only [InMemoryExperimentQueue.schedule]
    rw [show q.jobs.values.map (·.sessionKey) = InMemoryExperimentQueue.existingKeys q from rfl,
      ← hkeysDef, hadd]
  have hrows : (keys.filter fun key => key.1 ∉ existingKeys manifest.experimentId mid) =
      keys.filter fun key => key.1 ∉ InMemoryExperimentQueue.existingKeys q := by
    apply List.filter_congr
    intro key hkey
    rw [decide_eq_decide, hskip key hkey]
  have hblock : PostgresExperimentQueue.schedule lib draws manifest scenarioIds db =
      .ok ((keys.filter fun key => key.1 ∉ existingKeys manifest.experimentId mid).length,
        db') := by
    refine bind_eq_ok.mpr ⟨mid, hmid, bind_eq_ok.mpr ⟨db', ?_, rfl⟩⟩
    rw [← hkeysDef, hrows]
    exact hinsert
  refine h.callsAgree_of_steps trivial hmemory (step_ok houtage rfl hblock) trivial
    (fun _ => hfinal) fun j row hrow => ?_
  have hkept := get?_of_inserts (insertJobs_inserts _ hinsert) j row (by rw [hmidJobs]; exact hrow)
  exact ⟨row, hkept, rfl, rfl, rfl⟩

end Schedule

section Claim

variable {workerId : String}

/-- A job that waits, is due and is not stopped. -/
def Eligible (draws : Draws) (q : InMemoryQueue) (job : ExperimentJob) : Prop :=
  job.experimentId ∉ q.stopped ∧ (job.status = .pending ∨ job.status = .retryWait) ∧
    job.notBefore ≤ draws.now

/-- No lease of an experiment that runs has expired. -/
def NoneExpired (draws : Draws) (q : InMemoryQueue) (job : ExperimentJob) : Prop :=
  job.experimentId ∉ q.stopped → job.status = .leased ∨ job.status = .running →
    ¬∃ expires ∈ job.leaseExpiresAt, expires < draws.now

/-- Without an expired lease the loop of a claim takes the first eligible job. -/
theorem claimLoop_cases (order : List (UUID × ExperimentJob))
    (hclock : ∀ entry ∈ order, Eligible draws q entry.2 →
      second * leaseSeconds + draws.now ≤ datetimeMax)
    (hexpired : ∀ entry ∈ order, NoneExpired draws q entry.2) :
    (InMemoryExperimentQueue.claimLoop draws.now workerId order q = (.ok none, q) ∧
        ∀ entry ∈ order, ¬Eligible draws q entry.2) ∨
      ∃ before entry after, order = before ++ entry :: after ∧
        (∀ e ∈ before, ¬Eligible draws q e.2) ∧ Eligible draws q entry.2 ∧
        InMemoryExperimentQueue.claimLoop draws.now workerId order q =
          (.ok (some (InMemoryExperimentQueue.leased workerId
            (second * leaseSeconds + draws.now) entry.2)),
            { q with jobs := q.jobs.set entry.1 (InMemoryExperimentQueue.leased workerId
              (second * leaseSeconds + draws.now) entry.2) }) := by
  induction order with
  | nil => exact .inl ⟨rfl, fun _ h => (by cases h)⟩
  | cons entry rest ih =>
    by_cases heligible : Eligible draws q entry.2
    · right
      refine ⟨[], entry, rest, rfl, fun _ h => (by cases h), heligible, ?_⟩
      have hdate : addSeconds draws.now leaseSeconds =
        .ok (second * leaseSeconds + draws.now) :=
          if_pos (hclock entry List.mem_cons_self heligible)
      simp only [InMemoryExperimentQueue.claimLoop, InMemoryExperimentQueue.visit,
        if_neg heligible.1, if_pos heligible.2, hdate]
    · have hvisit : InMemoryExperimentQueue.visit draws.now workerId entry.1 entry.2 q =
          (none, q) := by
        unfold InMemoryExperimentQueue.visit
        by_cases hstopped : entry.2.experimentId ∈ q.stopped
        · exact if_pos hstopped
        · rw [if_neg hstopped, if_neg fun hwaits => heligible ⟨hstopped, hwaits⟩, if_neg]
          exact fun hlease => hexpired entry List.mem_cons_self hstopped hlease.1 hlease.2
      have hloop : InMemoryExperimentQueue.claimLoop draws.now workerId (entry :: rest) q =
          InMemoryExperimentQueue.claimLoop draws.now workerId rest q := by
        simp only [InMemoryExperimentQueue.claimLoop, hvisit]
      rw [hloop]
      rcases ih (fun e he => hclock e (List.mem_cons_of_mem _ he))
          (fun e he => hexpired e (List.mem_cons_of_mem _ he)) with
        ⟨hnone, hall⟩ | ⟨before, found, after, horder, hbefore, hfound, hresult⟩
      · left
        refine ⟨hnone, fun e he => ?_⟩
        rcases List.mem_cons.mp he with rfl | he
        · exact heligible
        · exact hall e he
      · right
        refine ⟨entry :: before, found, after, by rw [horder]; rfl, fun e he => ?_, hfound, hresult⟩
        rcases List.mem_cons.mp he with rfl | he
        · exact heligible
        · exact hbefore e he

/-- Neither status that waits is confused with one that is held. -/
theorem waits_of_seen {status status' : JobStatus} (h : status.seen = status'.seen) :
    (status = .pending ∨ status = .retryWait) ↔ (status' = .pending ∨ status' = .retryWait) := by
  cases status <;> cases status' <;> simp_all [JobStatus.seen]

/-- Neither status that is held is confused with another one. -/
theorem held_of_seen {status status' : JobStatus} (h : status.seen = status'.seen) :
    (status = .leased ∨ status = .running) ↔ (status' = .leased ∨ status' = .running) := by
  cases status <;> cases status' <;> simp_all [JobStatus.seen]

section Same

variable {held : Option (ExperimentJob × ExperimentJob)} {j : UUID} {job : ExperimentJob}
  {row : ExperimentJobRecord}

/-- An experiment is stopped on one queue when it is on the other. -/
theorem running_iff (h : Mirrored q db issued) (hrow : db.jobs.get? j = some row)
    (hsame : SameJob j job row) : job.experimentId ∉ q.stopped ↔
      ∃ m ∈ db.manifests.get? row.experimentId, m.stopRequested = false := by
  have hexperiment : job.experimentId = row.experimentId := congrArg (·.1) hsame.enlisted
  obtain ⟨m, hm⟩ := Option.isSome_iff_exists.mp (h.consistent.manifestOf j row hrow)
  rw [hexperiment, h.stopped, hm]
  cases hflag : m.stopRequested <;> simp [hflag]

/-- No lease has expired in memory either. -/
theorem noneExpired (h : Mirrored q db issued) (halike : ClaimAlike ⟨q, db, held⟩ draws workerId)
    (hrow : db.jobs.get? j = some row) (hsame : SameJob j job row) :
    NoneExpired draws q job := by
  intro hrunning hheld
  rintro ⟨expires, hexpires, hlt⟩
  rw [hsame.leaseExpiresAt] at hexpires
  exact halike.leases j row hrow ((h.running_iff hrow hsame).mp hrunning)
    ((held_of_seen hsame.status).mp hheld) expires hexpires hlt

/-- The jobs that may be claimed are the same. -/
theorem claimable_iff (h : Mirrored q db issued)
    (halike : ClaimAlike ⟨q, db, held⟩ draws workerId) (hrow : db.jobs.get? j = some row)
    (hsame : SameJob j job row) (hlocked : draws.locked = []) :
    Claimable draws db j row ↔ Eligible draws q job := by
  have hrunning := h.running_iff hrow hsame
  constructor
  · rintro ⟨hmanifest, hcases, -⟩
    refine ⟨hrunning.mpr hmanifest, ?_⟩
    rcases hcases with ⟨hwaits, hdue⟩ | ⟨hheld, expires, hexpires, hlt⟩
    · exact ⟨(waits_of_seen hsame.status).mpr hwaits, hsame.notBefore ▸ hdue⟩
    · exact (halike.leases j row hrow hmanifest hheld expires hexpires hlt).elim
  · rintro ⟨hnot, hwaits, hdue⟩
    refine ⟨hrunning.mp hnot, .inl ⟨(waits_of_seen hsame.status).mp hwaits, ?_⟩, ?_⟩
    · rw [← hsame.notBefore]
      exact hdue
    · rw [hlocked]
      exact List.not_mem_nil

/-- The job that is built from a claimed row. -/
theorem exists_jobOfRow (hsame : SameJob j job row) :
    ∃ job', jobOfRow j (leasedRow draws workerId row) = .ok job' ∧ job'.jobId = j ∧
      job'.attemptCount = row.attemptCount + 1 := by
  have hrepetition : row.repetition = job.repetition :=
    (congrArg (·.2.2.2.2) hsame.enlisted).symm
  have hvalid : 1 ≤ (leasedRow draws workerId row).repetition ∧
      1 ≤ (leasedRow draws workerId row).maxAttempts ∧
        0 ≤ (leasedRow draws workerId row).estimatedCostEur := by
    refine ⟨?_, ?_, hsame.cost_nonneg⟩
    · exact hrepetition ▸ job.repetition_pos
    · exact hsame.maxAttempts ▸ job.maxAttempts_pos
  exact ⟨_, dif_pos hvalid, rfl, rfl⟩

/-- What any claim in memory does when no lease has expired. -/
theorem anyClaim_memory (h : Mirrored q db issued)
    (halike : ClaimAlike ⟨q, db, held⟩ draws workerId) (hlocked : draws.locked = [])
    {r : Except PyError (Option ExperimentJob) × InMemoryQueue}
    (hclaim : InMemoryExperimentQueue.AnyClaim draws workerId q r) :
    (r = (.ok none, q) ∧ ∀ j job, q.jobs.get? j = some job → ¬Eligible draws q job) ∨
      ∃ j job, q.jobs.get? j = some job ∧ Eligible draws q job ∧
        r = (.ok (some (InMemoryExperimentQueue.leased workerId
            (second * leaseSeconds + draws.now) job)),
          { q with jobs := q.jobs.set j (InMemoryExperimentQueue.leased workerId
            (second * leaseSeconds + draws.now) job) }) := by
  obtain ⟨order, hperm, rfl⟩ := hclaim
  have hstored : ∀ entry ∈ order, q.jobs.get? entry.1 = some entry.2 := fun entry hentry =>
    (q.jobs.mem_entries_iff entry.1 entry.2).mp (hperm.subset hentry)
  have hexpired : ∀ entry ∈ order, NoneExpired draws q entry.2 := by
    intro entry hentry
    obtain ⟨row, hrow, hsame⟩ := exists_of_rel_left (h.jobs entry.1) (hstored entry hentry)
    exact h.noneExpired halike hrow hsame
  have hclock : ∀ entry ∈ order, Eligible draws q entry.2 →
      second * leaseSeconds + draws.now ≤ datetimeMax := by
    intro entry hentry heligible
    obtain ⟨row, hrow, hsame⟩ := exists_of_rel_left (h.jobs entry.1) (hstored entry hentry)
    exact (halike.granted ⟨entry.1, row, hrow,
      (h.claimable_iff halike hrow hsame hlocked).mpr heligible⟩).2
  rcases @claimLoop_cases q draws workerId order hclock hexpired with
    ⟨hnone, hall⟩ | ⟨before, entry, after, rfl, -, heligible, hresult⟩
  · left
    refine ⟨hnone, fun j job hjob => hall (j, job) (hperm.symm.subset ?_)⟩
    exact (q.jobs.mem_entries_iff j job).mpr hjob
  · right
    exact ⟨entry.1, entry.2, hstored entry (List.mem_append_right _ List.mem_cons_self),
      heligible, hresult⟩

/-- Some order of the loop takes any given eligible job. -/
theorem exists_anyClaim_memory (h : Mirrored q db issued)
    (hclock : second * leaseSeconds + draws.now ≤ datetimeMax) (hjob : q.jobs.get? j = some job)
    (heligible : Eligible draws q job) :
    ∃ job' q', InMemoryExperimentQueue.AnyClaim draws workerId q (.ok (some job'), q') ∧
      job'.jobId = j := by
  obtain ⟨before, after, hentries⟩ := List.append_of_mem ((q.jobs.mem_entries_iff j job).mpr hjob)
  obtain ⟨row, hrow, hsame⟩ := exists_of_rel_left (h.jobs j) hjob
  have hdate : addSeconds draws.now leaseSeconds =
    .ok (second * leaseSeconds + draws.now) := if_pos hclock
  refine ⟨InMemoryExperimentQueue.leased workerId (second * leaseSeconds + draws.now) job,
    { q with jobs := q.jobs.set j (InMemoryExperimentQueue.leased workerId
      (second * leaseSeconds + draws.now) job) },
    ⟨(j, job) :: (before ++ after), ?_, ?_⟩, hsame.jobId⟩
  · rw [hentries]
    exact List.perm_middle.symm
  · simp only [InMemoryExperimentQueue.claimLoop, InMemoryExperimentQueue.visit,
      if_neg heligible.1, if_pos heligible.2, hdate]

/-- What any claim on PostgreSQL does. -/
theorem anyClaim_database (h : Mirrored q db issued)
    (halike : ClaimAlike ⟨q, db, held⟩ draws workerId)
    {r : Except PyError (Option ExperimentJob) × Database}
    (hclaim : PostgresExperimentQueue.AnyClaim draws workerId db r) :
    (r = (.ok none, db) ∧ ∀ j row, db.jobs.get? j = some row → ¬Claimable draws db j row) ∨
      ∃ j row job, db.jobs.get? j = some row ∧ Claimable draws db j row ∧
        jobOfRow j (leasedRow draws workerId row) = .ok job ∧ job.jobId = j ∧
        job.attemptCount = row.attemptCount + 1 ∧
        r = (.ok (some job), { db with jobs := db.jobs.set j (leasedRow draws workerId row) }) := by
  obtain ⟨found, hnone, hfound, rfl⟩ := hclaim
  cases found with
  | none => exact .inl ⟨rfl, hnone rfl⟩
  | some e =>
    obtain ⟨hrow, hclaimable⟩ := hfound e rfl
    obtain ⟨job, -, hsame⟩ := exists_of_rel_right (h.jobs e.1) hrow
    obtain ⟨job', hjob', hid, hattempts⟩ := @exists_jobOfRow draws workerId e.1 job e.2 hsame
    refine .inr ⟨e.1, e.2, job', hrow, hclaimable, hjob', hid, hattempts, ?_⟩
    simp only [claimFound, varchar, if_pos (halike.granted ⟨_, _, hrow, hclaimable⟩).1, hjob']
    rfl

/-- The query may return any claimable row. -/
theorem exists_anyClaim_database (halike : ClaimAlike ⟨q, db, held⟩ draws workerId)
    (hrow : db.jobs.get? j = some row) (hsame : SameJob j job row)
    (hclaimable : Claimable draws db j row) :
    ∃ job' db', PostgresExperimentQueue.AnyClaim draws workerId db (.ok (some job'), db') ∧
      job'.jobId = j := by
  obtain ⟨job', hjob', hid, -⟩ := @exists_jobOfRow draws workerId j job row hsame
  refine ⟨job', { db with jobs := db.jobs.set j (leasedRow draws workerId row) },
    ⟨some (j, row), fun hnone => (by cases hnone), fun e he => ?_, ?_⟩, hid⟩
  · cases he
    exact ⟨hrow, hclaimable⟩
  · simp only [claimFound, varchar, if_pos (halike.granted ⟨_, _, hrow, hclaimable⟩).1, hjob']
    rfl

/-- A claim that meets none of the differences: both queues have nothing to give, or both give
the same job and hold the same afterwards. -/
theorem claim (h : Mirrored q db issued) (halike : ClaimAlike ⟨q, db, held⟩ draws workerId)
    (hlocked : draws.locked = []) {r : Except PyError (Option ExperimentJob) × InMemoryQueue}
    {r' : Except PyError (Option ExperimentJob) × Database}
    (hmemory : InMemoryExperimentQueue.AnyClaim draws workerId q r)
    (hdatabase : PostgresExperimentQueue.AnyClaim draws workerId db r')
    (hpick : ∀ job job', r.1 = .ok (some job) → r'.1 = .ok (some job') →
      job.jobId = job'.jobId) :
    (r = (.ok none, q) ∧ r' = (.ok none, db)) ∨
      ∃ job job' issued' row, r.1 = .ok (some job) ∧ r'.1 = .ok (some job') ∧
        job.jobId = job'.jobId ∧ Mirrored r.2 r'.2 issued' ∧
        HeldJob r'.2 issued' (job, job') row := by
  rcases h.anyClaim_memory halike hlocked hmemory with
    ⟨rfl, hnoneMemory⟩ | ⟨j, job, hjob, heligible, rfl⟩
  · rcases h.anyClaim_database halike hdatabase with
      ⟨rfl, -⟩ | ⟨j', row, job', hrow, hclaimable, -, -, -, rfl⟩
    · exact .inl ⟨rfl, rfl⟩
    · obtain ⟨job, hjob, hsame⟩ := exists_of_rel_right (h.jobs j') hrow
      have heligible := (h.claimable_iff halike hrow hsame hlocked).mp hclaimable
      exact (hnoneMemory j' job hjob heligible).elim
  · obtain ⟨row, hrow, hsame⟩ := exists_of_rel_left (h.jobs j) hjob
    have hclaimable := (h.claimable_iff halike hrow hsame hlocked).mpr heligible
    rcases h.anyClaim_database halike hdatabase with
      ⟨rfl, hnone⟩ | ⟨j', row', job', hrow', -, hjob', hid, hattempts, rfl⟩
    · exact (hnone j row hrow hclaimable).elim
    · right
      have hjj' : j = j' := by
        rw [← hid, ← hpick _ job' rfl rfl]
        exact hsame.jobId.symm
      subst hjj'
      rw [hrow] at hrow'
      cases hrow'
      have hconsistent := h.consistent.effect_of_completes (c := .claim workerId)
        (fun _ _ _ heq => (by cases heq))
        (.leased workerId j row _ hrow hclaimable rfl)
      rw [hjob'] at hconsistent
      refine ⟨_, job', (workerId, job') :: issued, leasedRow draws workerId row, rfl, rfl,
        hsame.jobId.trans hid.symm, ⟨hconsistent, rel_set h.jobs ?_, h.manifests, ?_, h.stopped,
          h.results⟩, ?_⟩
      · exact ⟨hsame.jobId, hsame.enlisted, rfl, congrArg (· + 1) hsame.attemptCount,
          hsame.maxAttempts, rfl, rfl, hsame.notBefore, hsame.cost_nonneg⟩
      · apply h.amounts.setJob hrow <;> rfl
      · refine ⟨hsame.jobId.trans hid.symm, ⟨workerId, List.mem_cons_self⟩, ?_, ?_, ?_, ?_⟩
        · rw [hid]
          exact Dict.get?_set_self _ _ _
        · exact hattempts.symm
        · exact (congrArg (·.1) hsame.enlisted).symm
        · exact (congrArg (·.2.1) hsame.enlisted).symm

end Same

end Claim

end Mirrored

/-- The two queues hold the same, and the claimed job is an attempt that still is the latest. -/
def Twins.Agree (s : Twins) : Prop :=
  ∃ issued, Mirrored s.memory s.database issued ∧
    ∀ jobs ∈ s.held, ∃ row, HeldJob s.database issued jobs row

section Run

variable {lib : Stdlib} {draws : Draws} {s s' : Twins} {op : TwinOp}
  {r r' : Except PyError (Option ExperimentJob)}

/-- The calls of an operation that meets none of the differences agree. -/
theorem callsAgree_of_alike {issued : List (String × ExperimentJob)} {c c' : QueueCall}
    (h : Mirrored s.memory s.database issued)
    (hheld : ∀ jobs ∈ s.held, ∃ row, HeldJob s.database issued jobs row)
    (hdraws : OneAtATime draws s) (halike : Alike lib s draws op)
    (hcalls : s.calls op = some (c, c')) :
    Mirrored.CallsAgree lib draws c c' s.memory s.database issued := by
  obtain ⟨houtage, halike⟩ := halike
  cases op with
  | schedule manifest scenarioIds =>
    cases hcalls
    exact @Mirrored.schedule s.memory s.database issued lib draws manifest scenarioIds h houtage
      hdraws.distinct hdraws.database s.held halike
  | claim workerId => cases hcalls
  | stop e =>
    cases hcalls
    exact h.stop houtage halike
  | resume e =>
    cases hcalls
    exact h.resume houtage e
  | job op =>
    obtain ⟨jobs, hjobs, hpair⟩ := Option.map_eq_some_iff.mp hcalls
    obtain ⟨row, hrow⟩ := hheld jobs hjobs
    have hop := halike jobs hjobs row hrow.stored
    cases hpair
    cases op with
    | heartbeat workerId =>
      obtain ⟨-, m, -, hm, -⟩ := h.exists_manifest hrow
      exact h.heartbeat hrow houtage (hop m hm)
    | reserveCost amount => exact h.reserveCost hrow houtage hop
    | complete result cost => exact h.complete hrow houtage hop
    | fail error retryable => exact h.fail hrow houtage hop

/-- One operation that meets none of the differences is answered alike and keeps the queues
the same. -/
theorem agree_step (h : s.Agree) (halike : Alike lib s draws op)
    (hstep : TwinStep lib draws s op r r' s') : SameReply r r' ∧ s'.Agree := by
  obtain ⟨issued, hmirrored, hheld⟩ := h
  cases hstep with
  | call _ c c' hdraws hcalls _ =>
    have hagree := callsAgree_of_alike hmirrored hheld hdraws halike hcalls
    refine ⟨hagree.reply, issued, hagree.mirrored, fun jobs hjobs => ?_⟩
    obtain ⟨row, hrow⟩ := hheld jobs hjobs
    exact hrow.keeps hagree.keeps
  | claim workerId r r' hdraws hmemory hdatabase hsame =>
    obtain ⟨houtage, halike⟩ := halike
    rw [houtage] at hdatabase
    rcases hmirrored.claim halike hdraws.locked hmemory hdatabase hsame with
      ⟨rfl, rfl⟩ | ⟨job, job', issued', row, hr, hr', hid, hafter, hjob⟩
    · exact ⟨trivial, issued, hmirrored, hheld⟩
    · rw [hr, hr']
      refine ⟨hid, issued', hafter, fun jobs hjobs => ?_⟩
      cases hjobs
      exact ⟨row, hjob⟩

/-- The queues hold the same after every run whose operations meet none of the differences. -/
theorem agree_of_twinReach (h : TwinReach lib (Alike lib) s) : s.Agree := by
  induction h with
  | initial =>
    refine ⟨[], Mirrored.initial, fun jobs hjobs => ?_⟩
    cases hjobs
  | step _ halike hstep ih => exact (agree_step ih halike hstep).2

/-- A job that both queues can give may be claimed first on either. -/
theorem picks_of_agree (h : s.Agree) {workerId : String} (halike : ClaimAlike s draws workerId)
    (hlocked : draws.locked = []) (j : UUID) :
    (∃ job q, InMemoryExperimentQueue.AnyClaim draws workerId s.memory (.ok (some job), q) ∧
        job.jobId = j) ↔
      ∃ job db, PostgresExperimentQueue.AnyClaim draws workerId s.database (.ok (some job), db) ∧
        job.jobId = j := by
  obtain ⟨issued, hmirrored, -⟩ := h
  constructor
  · rintro ⟨job, q, hclaim, rfl⟩
    rcases hmirrored.anyClaim_memory halike hlocked hclaim with ⟨heq, -⟩ | ⟨j, old, hold, heligible, heq⟩
    · cases heq
    · obtain ⟨row, hrow, hsame⟩ := exists_of_rel_left (hmirrored.jobs j) hold
      have hclaimable := (hmirrored.claimable_iff halike hrow hsame hlocked).mpr heligible
      cases heq
      obtain ⟨job', db', hclaim', hid⟩ :=
        Mirrored.exists_anyClaim_database halike hrow hsame hclaimable
      exact ⟨job', db', hclaim', hid.trans hsame.jobId.symm⟩
  · rintro ⟨job, db, hclaim, rfl⟩
    rcases hmirrored.anyClaim_database halike hclaim with
      ⟨heq, -⟩ | ⟨j, row, job', hrow, hclaimable, -, hid, -, heq⟩
    · cases heq
    · cases heq
      obtain ⟨old, hold, hsame⟩ := exists_of_rel_right (hmirrored.jobs j) hrow
      have heligible := (hmirrored.claimable_iff halike hrow hsame hlocked).mp hclaimable
      have hclock := (halike.granted ⟨j, row, hrow, hclaimable⟩).2
      obtain ⟨job', q', hclaim', hid'⟩ :=
        hmirrored.exists_anyClaim_memory hclock hold heligible
      exact ⟨job', q', hclaim', hid'.trans hid.symm⟩

/-- The two queues agree in every run whose operations meet none of the differences between
them. -/
theorem queues_agree_of_alike (h : TwinReach lib (Alike lib) s) :
    QueuesAgree lib (Alike lib) s := by
  have hagree := agree_of_twinReach h
  constructor
  · obtain ⟨issued, hmirrored, -⟩ := hagree
    exact hmirrored.sameView
  · intro draws op r r' s' halike hstep
    exact (agree_step hagree halike hstep).1
  · intro draws workerId j halike hdraws
    exact picks_of_agree hagree halike.2 hdraws.locked j

end Run

/-- The draws of a call after the first one, at a number of seconds. -/
def laterDraws (seconds : ℕ) : Draws :=
  { (sampleDraws seconds 0).draws with fresh := fun i => (i + 100, 0) }

/-- Both queues after the schedule of one job of 0.01 EUR under a ceiling of 0.05 EUR. -/
def scheduledTwins : Twins where
  memory := ((inMemoryExperimentQueue sampleStdlib).step (sampleDraws 0 0).draws
    (.schedule smallManifest ["REG-001"]) Twins.initial.memory).2
  database := ((postgresExperimentQueue sampleStdlib).step (sampleDraws 0 0).draws
    (.schedule smallManifest ["REG-001"]) Twins.initial.database).2
  held := none

/-- Both queues after the claim of the job. -/
def claimedTwins : Twins :=
  let r := InMemoryExperimentQueue.claim (laterDraws 1) "worker-1" scheduledTwins.memory
  let r' := PostgresExperimentQueue.claim (laterDraws 1) "worker-1" scheduledTwins.database
  ⟨r.2, r'.2, scheduledTwins.heldAfter r.1 r'.1⟩

/-- Identifiers from 100 on are unused where all stored ones are smaller. -/
theorem oneAtATime_later (seconds : ℕ) {s : Twins} (hmemory : ∀ key ∈ s.memory.jobs.keys, key < 100)
    (hdatabase : ∀ key ∈ s.database.jobs.keys, key < 100) : OneAtATime (laterDraws seconds) s := by
  have hlarge : ∀ i, ¬(i + 100 : UUID) < 100 := fun i => Nat.not_lt.mpr (Nat.le_add_left 100 i)
  refine ⟨rfl, fun i i' h => Nat.add_right_cancel h, fun i => ?_, fun i => ?_⟩
  · exact (Dict.get?_eq_none_iff _ _).mpr fun hmem => hlarge i (hmemory _ hmem)
  · exact (Dict.get?_eq_none_iff _ _).mpr fun hmem => hlarge i (hdatabase _ hmem)

/-- The claim is reached where the schedule and the claim are admitted. -/
theorem claimedTwins_reached {ok : Twins → Draws → TwinOp → Prop}
    (hschedule : ok Twins.initial (sampleDraws 0 0).draws (.schedule smallManifest ["REG-001"]))
    (hclaim : ok scheduledTwins (laterDraws 1) (.claim "worker-1")) :
    TwinReach sampleStdlib ok claimedTwins := by
  have hfirst : OneAtATime (sampleDraws 0 0).draws Twins.initial :=
    ⟨rfl, fun i i' h => Nat.succ_injective h, fun _ => rfl, fun _ => rfl⟩
  have hsecond : OneAtATime (laterDraws 1) scheduledTwins :=
    oneAtATime_later 1 (by decide +kernel) (by decide +kernel)
  apply TwinReach.step (.step .initial hschedule (.call _ _ _ hfirst rfl ?_)) hclaim
  · apply twinStep_claim sampleStdlib "worker-1" hsecond rfl rfl rfl
    intro job job' hjob hjob'
    have hsame : ((InMemoryExperimentQueue.claim (laterDraws 1) "worker-1"
          scheduledTwins.memory).1.toOption.bind id).map (·.jobId) =
        ((PostgresExperimentQueue.claim (laterDraws 1) "worker-1"
          scheduledTwins.database).1.toOption.bind id).map (·.jobId) := by decide +kernel
    rw [hjob, hjob'] at hsame
    exact Option.some.inj hsame
  · intro manifest scenarioIds heq
    cases heq
    exact List.nodup_singleton _

/-- After the claim of one job the queues agree. -/
theorem queues_agree_of_alike_claimed :
    QueuesAgree sampleStdlib (Alike sampleStdlib) claimedTwins := by
  apply queues_agree_of_alike
  apply claimedTwins_reached
  · have hgrid : OnGrid 4 smallManifest.costCeilingEur := ⟨500, by decide +kernel⟩
    have hcost : estimatedJobCost smallManifest "fake-b5" = .ok (1 / 100) := by decide +kernel
    have hkeys : scheduleKeys sampleStdlib smallManifest ["REG-001"] =
        [(sessionKey sampleStdlib 7 "fake-b5" "REG-001" 1, "fake-b5", "REG-001", 1)] := rfl
    refine ⟨rfl, fun known h => (by cases h), ⟨by decide, hgrid, by decide +kernel⟩,
      by decide +kernel, fun key hkey => ?_⟩
    rw [hkeys] at hkey
    obtain rfl := List.mem_singleton.mp hkey
    exact ⟨by decide +kernel, ⟨by decide, by decide, 1 / 100, hcost, by decide +kernel⟩,
      fun _ _ h => (by cases h)⟩
  · refine ⟨rfl, fun _ => by decide +kernel, fun j row hrow _ _ expires hexpires => ?_⟩
    have hnone : ∀ row ∈ scheduledTwins.database.jobs.values, row.leaseExpiresAt = none := by
      decide +kernel
    rw [hnone row (Dict.mem_values_of_get? _ hrow)] at hexpires
    cases hexpires

/-- A reservation of 0.10 EUR for the claimed job pauses the experiment in memory and leaves it
running on PostgreSQL. -/
theorem queues_disagree_at_ceiling :
    ¬∀ (lib : Stdlib) (s : Twins), TwinReach lib (fun _ draws _ => draws.outage = none) s →
      QueuesAgree lib (fun _ draws _ => draws.outage = none) s := by
  intro h
  obtain ⟨jobs, hjobs⟩ : ∃ jobs, claimedTwins.held = some jobs :=
    Option.isSome_iff_exists.mp (by decide +kernel)
  have hdraws : OneAtATime (laterDraws 2) claimedTwins :=
    oneAtATime_later 2 (by decide +kernel) (by decide +kernel)
  have hcalls : claimedTwins.calls (.job (.reserveCost (1 / 10))) =
      some (.reserveCost jobs.1 (1 / 10), .reserveCost jobs.2 (1 / 10)) := by
    simp [Twins.calls, hjobs, JobOp.call]
  have hstep := @TwinStep.call sampleStdlib (laterDraws 2) claimedTwins _ _ _ hdraws hcalls
    (fun _ _ heq => by cases heq)
  have hreach := @TwinReach.step sampleStdlib (fun _ draws _ => draws.outage = none) _ _ _ _ _ _
    (claimedTwins_reached rfl rfl) rfl hstep
  have hstopped := (h sampleStdlib _ hreach).view.stopped 7
  have htest : claimedTwins.held.all (fun jobs =>
      decide (7 ∈ ((inMemoryExperimentQueue sampleStdlib).step (laterDraws 2)
        (.reserveCost jobs.1 (1 / 10)) claimedTwins.memory).2.stopped) &&
      !(postgresExperimentQueue sampleStdlib).stopped
        ((postgresExperimentQueue sampleStdlib).step (laterDraws 2)
          (.reserveCost jobs.2 (1 / 10)) claimedTwins.database).2 7) = true := by decide +kernel
  rw [hjobs, Option.all_some, Bool.and_eq_true, decide_eq_true_eq] at htest
  obtain ⟨m, hm, hflag⟩ := hstopped.mp htest.1
  have hrunning := htest.2
  simp only [postgresExperimentQueue] at hrunning hm
  rw [hm, Option.any_some, hflag] at hrunning
  cases hrunning

end Amlguard
