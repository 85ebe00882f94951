import Amlguard.Experiments.Effect
import Amlguard.Experiments.Issued

/-!
# What the tables keep

Calls change the mutable fields of a row and nothing else, so the job that a worker holds
keeps describing its row for as long as the worker runs. Session keys stay unique, every job
belongs to a stored manifest, every stored result belongs to the job of its key, and the
amounts of a manifest are values that its columns can hold.
-/

namespace Amlguard

open Awaited Numeric PostgresExperimentQueue

/-- The later row describes the same job, with no fewer attempts. -/
structure Evolves (row row' : ExperimentJobRecord) : Prop where
  experimentId : row'.experimentId = row.experimentId
  sessionKey : row'.sessionKey = row.sessionKey
  maxAttempts : row'.maxAttempts = row.maxAttempts
  estimatedCostEur : row'.estimatedCostEur = row.estimatedCostEur
  attemptCount : row.attemptCount ≤ row'.attemptCount

/-- The job that a worker holds describes the row, perhaps at an earlier attempt. -/
structure CopyOf (job : ExperimentJob) (row : ExperimentJobRecord) : Prop where
  experimentId : row.experimentId = job.experimentId
  sessionKey : row.sessionKey = job.sessionKey
  maxAttempts : row.maxAttempts = job.maxAttempts
  estimatedCostEur : row.estimatedCostEur = job.estimatedCostEur
  attemptCount : job.attemptCount ≤ row.attemptCount

/-- A copy stays a copy while its row evolves. -/
theorem CopyOf.evolves {job : ExperimentJob} {row row' : ExperimentJobRecord}
    (h : CopyOf job row) (hrow : Evolves row row') : CopyOf job row' :=
  ⟨hrow.1.trans h.1, hrow.2.trans h.2, hrow.3.trans h.3, hrow.4.trans h.4, h.5.trans hrow.5⟩

/-- A job built from a row is a copy of it. -/
theorem copyOf_jobOfRow {jobId : UUID} {row : ExperimentJobRecord} {job : ExperimentJob}
    (h : jobOfRow jobId row = .ok job) : job.jobId = jobId ∧ CopyOf job row := by
  unfold jobOfRow at h
  split at h
  · cases h
    exact ⟨rfl, rfl, rfl, rfl, rfl, le_rfl⟩
  · cases h

/-- The amounts of a manifest are values of its columns. -/
structure StoredAmounts (m : ExperimentRecord) : Prop where
  spent : OnGrid 4 m.costSpentEur
  reserved : OnGrid 4 m.costReservedEur
  ceiling : OnGrid 4 m.costCeilingEur

/-- Storing a reserved total keeps the amounts storable. -/
theorem StoredAmounts.setReserved {m : ExperimentRecord} (h : StoredAmounts m) (x : ℚ) :
    StoredAmounts { m with costReservedEur := roundTo 4 x } :=
  ⟨h.spent, onGrid_roundTo 4 x, h.ceiling⟩

/-- The tables agree with each other and with the claims that were handed out. -/
structure Consistent (db : Database) (issued : List (String × ExperimentJob)) : Prop where
  manifestOf : ∀ j row, db.jobs.get? j = some row →
    (db.manifests.get? row.experimentId).isSome = true
  widthOf : ∀ j row, db.jobs.get? j = some row → row.sessionKey.length ≤ 160
  stored : ∀ e m, db.manifests.get? e = some m → StoredAmounts m
  keyOf : ∀ j j' row row', db.jobs.get? j = some row → db.jobs.get? j' = some row' →
    row.sessionKey = row'.sessionKey → j = j'
  sessionOf : ∀ key session, db.sessions.get? key = some session →
    ∃ row, db.jobs.get? session.jobId = some row ∧ row.sessionKey = key
  copies : ∀ claim ∈ issued, ∃ row, db.jobs.get? claim.2.jobId = some row ∧ CopyOf claim.2 row

namespace Consistent

variable {db : Database} {issued : List (String × ExperimentJob)}

/-- The empty tables are consistent. -/
theorem initial : Consistent Database.initial [] :=
  ⟨fun _ _ h => (by cases h), fun _ _ h => (by cases h), fun _ _ h => (by cases h),
    fun _ _ _ _ h => (by cases h), fun _ _ h => (by cases h), fun _ h => (by cases h)⟩

/-- Writing a manifest keeps the tables consistent. -/
theorem setManifest (h : Consistent db issued) (e : UUID) {m : ExperimentRecord}
    (hm : StoredAmounts m) : Consistent { db with manifests := db.manifests.set e m } issued := by
  refine ⟨fun j row hrow => ?_, h.widthOf, fun e' m' hm' => ?_, h.keyOf, h.sessionOf, h.copies⟩
  · change ((db.manifests.set e m).get? row.experimentId).isSome = true
    rw [Dict.get?_set]
    split
    · rfl
    · exact h.manifestOf j row hrow
  · change (db.manifests.set e m).get? e' = some m' at hm'
    rw [Dict.get?_set] at hm'
    split at hm'
    · cases hm'
      exact hm
    · exact h.stored e' m' hm'

/-- Writing an evolved row keeps the tables consistent. -/
theorem setJob (h : Consistent db issued) {j : UUID} {row row' : ExperimentJobRecord}
    (hrow : db.jobs.get? j = some row) (hevolves : Evolves row row') :
    Consistent { db with jobs := db.jobs.set j row' } issued := by
  have hback : ∀ k found, (db.jobs.set j row').get? k = some found →
      ∃ old, db.jobs.get? k = some old ∧ Evolves old found := by
    intro k found hfound
    rw [Dict.get?_set] at hfound
    split at hfound
    · rename_i heq
      cases hfound
      exact ⟨row, heq ▸ hrow, hevolves⟩
    · exact ⟨found, hfound, rfl, rfl, rfl, rfl, le_rfl⟩
  have hforth : ∀ k old, db.jobs.get? k = some old →
      ∃ found, (db.jobs.set j row').get? k = some found ∧ Evolves old found := by
    intro k old hold
    rw [Dict.get?_set]
    split
    · rename_i heq
      rw [← heq, hrow] at hold
      cases hold
      exact ⟨row', rfl, hevolves⟩
    · exact ⟨old, hold, rfl, rfl, rfl, rfl, le_rfl⟩
  refine ⟨fun k found hfound => ?_, fun k found hfound => ?_, h.stored,
    fun k k' found found' hfound hfound' hkey => ?_, fun key session hsession => ?_,
    fun claim hclaim => ?_⟩
  · obtain ⟨old, hold, hev⟩ := hback k found hfound
    rw [hev.experimentId]
    exact h.manifestOf k old hold
  · obtain ⟨old, hold, hev⟩ := hback k found hfound
    rw [hev.sessionKey]
    exact h.widthOf k old hold
  · obtain ⟨old, hold, hev⟩ := hback k found hfound
    obtain ⟨old', hold', hev'⟩ := hback k' found' hfound'
    rw [hev.sessionKey, hev'.sessionKey] at hkey
    exact h.keyOf k k' old old' hold hold' hkey
  · obtain ⟨old, hold, hkey⟩ := h.sessionOf key session hsession
    obtain ⟨found, hfound, hev⟩ := hforth _ old hold
    exact ⟨found, hfound, hev.sessionKey.trans hkey⟩
  · obtain ⟨old, hold, hcopy⟩ := h.copies claim hclaim
    obtain ⟨found, hfound, hev⟩ := hforth _ old hold
    exact ⟨found, hfound, hcopy.evolves hev⟩

/-- Inserting a fresh job with a new key keeps the tables consistent. -/
theorem insertJob (h : Consistent db issued) {j : UUID} {row : ExperimentJobRecord}
    (hfresh : db.jobs.get? j = none) (hkey : ∀ old ∈ db.jobs.values, old.sessionKey ≠ row.sessionKey)
    (hwidth : row.sessionKey.length ≤ 160)
    (hmanifest : (db.manifests.get? row.experimentId).isSome = true) :
    Consistent { db with jobs := db.jobs.set j row } issued := by
  have hforth : ∀ k old, db.jobs.get? k = some old →
      (db.jobs.set j row).get? k = some old := by
    intro k old hold
    refine (Dict.get?_set_ne db.jobs (fun heq => ?_) row).trans hold
    rw [heq, hold] at hfresh
    cases hfresh
  have hnew : ∀ k old, db.jobs.get? k = some old → old.sessionKey ≠ row.sessionKey :=
    fun k old hold => hkey old (db.jobs.mem_values_of_get? hold)
  refine ⟨fun k found hfound => ?_, fun k found hfound => ?_, h.stored,
    fun k k' found found' hfound hfound' heq => ?_, fun key session hsession => ?_,
    fun claim hclaim => ?_⟩
  · change (db.jobs.set j row).get? k = some found at hfound
    rw [Dict.get?_set] at hfound
    split at hfound
    · cases hfound
      exact hmanifest
    · exact h.manifestOf k found hfound
  · change (db.jobs.set j row).get? k = some found at hfound
    rw [Dict.get?_set] at hfound
    split at hfound
    · cases hfound
      exact hwidth
    · exact h.widthOf k found hfound
  · change (db.jobs.set j row).get? k = some found at hfound
    change (db.jobs.set j row).get? k' = some found' at hfound'
    rw [Dict.get?_set] at hfound hfound'
    split at hfound <;> split at hfound'
    · simp_all
    · cases hfound
      exact (hnew k' found' hfound' heq.symm).elim
    · cases hfound'
      exact (hnew k found hfound heq).elim
    · exact h.keyOf k k' found found' hfound hfound' heq
  · obtain ⟨old, hold, hk⟩ := h.sessionOf key session hsession
    exact ⟨old, hforth _ old hold, hk⟩
  · obtain ⟨old, hold, hcopy⟩ := h.copies claim hclaim
    exact ⟨old, hforth _ old hold, hcopy⟩

/-- Inserting the rows of a stored manifest keeps the tables consistent. -/
theorem inserts {manifest : ExperimentManifest} {db' : Database} (h : Consistent db issued)
    (hknown : (db.manifests.get? manifest.experimentId).isSome = true)
    (hrows : Relation.ReflTransGen (Inserts manifest) db db') :
    Consistent db' issued ∧ db'.manifests = db.manifests := by
  induction hrows with
  | refl => exact ⟨h, rfl⟩
  | tail _ hrow ih =>
    cases hrow with
    | row jobId notBefore key cost hfresh hkey hwidth hcost hgrid =>
      refine ⟨ih.1.insertJob hfresh hkey hwidth ?_, ih.2⟩
      rw [ih.2]
      exact hknown

/-- Handing out a copy of a stored row keeps the tables consistent. -/
theorem issue (h : Consistent db issued) {jobId : UUID} {row : ExperimentJobRecord}
    (hrow : db.jobs.get? jobId = some row) (workerId : String)
    (r : Except PyError (Option ExperimentJob)) (hr : r = (jobOfRow jobId row).map some) :
    Consistent db (issuedBy (.claim workerId) r ++ issued) := by
  refine ⟨h.manifestOf, h.widthOf, h.stored, h.keyOf, h.sessionOf, fun claim hclaim => ?_⟩
  cases hjob : jobOfRow jobId row with
  | error e =>
    rw [hr, hjob] at hclaim
    exact h.copies claim hclaim
  | ok job =>
    rw [hr, hjob] at hclaim
    rcases List.mem_cons.mp hclaim with rfl | hold
    · obtain ⟨hid, hcopy⟩ := copyOf_jobOfRow hjob
      exact ⟨row, hid ▸ hrow, hcopy⟩
    · exact h.copies claim hold

/-- Storing a result under the key of its job keeps the tables consistent. -/
theorem setSession (h : Consistent db issued) {job : ExperimentJob} {row : ExperimentJobRecord}
    (hrow : db.jobs.get? job.jobId = some row) (hkey : row.sessionKey = job.sessionKey)
    {result : Json} {sessions : Dict String ExperimentSessionRecord}
    (hsessions : insertSession job result db = .ok sessions) :
    Consistent { db with sessions } issued := by
  unfold insertSession at hsessions
  split at hsessions
  · cases hsessions
    exact h
  · simp only [bind_eq_ok, raiseIf_eq_ok] at hsessions
    obtain ⟨key, hfits, -, -, hsessions⟩ := hsessions
    cases varchar_eq_ok hfits
    cases hsessions
    refine ⟨h.manifestOf, h.widthOf, h.stored, h.keyOf, fun key session hsession => ?_, h.copies⟩
    change (db.sessions.set job.sessionKey _).get? key = some session at hsession
    rw [Dict.get?_set] at hsession
    split at hsession
    · rename_i heq
      cases hsession
      exact ⟨row, hrow, hkey.trans heq⟩
    · exact h.sessionOf key session hsession

/-- Every call keeps the tables consistent, as long as only claimed jobs are completed. -/
theorem effect_of_completes {draws : Draws} {db' : Database} {c : QueueCall}
    {r : Except PyError c.Reply} (h : Consistent db issued)
    (hcompletes : ∀ job result cost, c = .complete job result cost →
      ∃ workerId, (workerId, job) ∈ issued)
    (heffect : Effect draws db c r db') : Consistent db' (issuedBy c r ++ issued) := by
  cases heffect with
  | unchanged c r hnone =>
    rw [hnone]
    exact h
  | scheduled manifest scenarioIds n db' hknown hrows => exact (h.inserts hknown hrows).1
  | created manifest scenarioIds n ceiling db' hnew hgrid hpos hrows =>
    have hstored : StoredAmounts (newManifest manifest ceiling) :=
      ⟨onGrid_zero 4, onGrid_zero 4, hgrid⟩
    exact ((h.setManifest manifest.experimentId hstored).inserts (by simp) hrows).1
  | leased workerId jobId row r hrow hclaimable hreply =>
    have hevolves : Evolves row (leasedRow draws workerId row) :=
      ⟨rfl, rfl, rfl, rfl, Nat.le_succ _⟩
    refine (h.setJob hrow hevolves).issue ?_ workerId r hreply
    exact Dict.get?_set_self db.jobs jobId _
  | beat jobId workerId row expires hrow howner =>
    exact h.setJob hrow ⟨rfl, rfl, rfl, rfl, le_rfl⟩
  | reserved job amount manifest row hmanifest hrow hnone hroom =>
    exact (h.setManifest job.experimentId ((h.stored _ _ hmanifest).setReserved _)).setJob hrow
      ⟨rfl, rfl, rfl, rfl, le_rfl⟩
  | completed job result cost manifest row sessions hmanifest hrow hrunning hroom hsessions =>
    obtain ⟨workerId, hclaim⟩ := hcompletes job result cost rfl
    obtain ⟨found, hfound, hcopy⟩ := h.copies _ hclaim
    rw [hrow] at hfound
    cases hfound
    have hstored : StoredAmounts { manifest with
        costReservedEur := roundTo 4 (manifest.costReservedEur - row.reservedCostEur)
        costSpentEur := roundTo 4 (manifest.costSpentEur + cost) } :=
      ⟨onGrid_roundTo 4 _, onGrid_roundTo 4 _, (h.stored _ _ hmanifest).ceiling⟩
    exact ((h.setSession hrow hcopy.sessionKey hsessions).setManifest job.experimentId
      hstored).setJob hrow ⟨rfl, rfl, rfl, rfl, le_rfl⟩
  | failed job error retryable manifest row notBefore hmanifest hrow hdelay =>
    exact (h.setManifest job.experimentId ((h.stored _ _ hmanifest).setReserved _)).setJob hrow
      ⟨rfl, rfl, rfl, rfl, le_rfl⟩
  | flagged c r experimentId manifest flag status hcall hmanifest =>
    have hnone : issuedBy c r = [] := by
      rcases hcall with ⟨rfl, -⟩ | ⟨rfl, -⟩ <;> rfl
    have hstored := h.stored _ _ hmanifest
    rw [hnone]
    exact h.setManifest experimentId ⟨hstored.spent, hstored.reserved, hstored.ceiling⟩

/-- Every justified call keeps the tables consistent. -/
theorem effect {draws : Draws} {db' : Database} {c : QueueCall} {r : Except PyError c.Reply}
    (h : Consistent db issued) (hissued : IssuedCall issued c)
    (heffect : Effect draws db c r db') : Consistent db' (issuedBy c r ++ issued) := by
  apply h.effect_of_completes ?_ heffect
  intro job result cost hc
  subst hc
  exact hissued

end Consistent

/-- The tables of every reachable pool of workers are consistent. -/
theorem reachable_consistent {lib : Stdlib}
    {ok : WorkerWorld (postgresExperimentQueue lib) → WorkerDraws → WorkerCall → Prop}
    {p : WorkerPool (postgresExperimentQueue lib)}
    (hreach : (workerSystem (postgresExperimentQueue lib)).Reaches (Outcomes ok)
      (idleWorkers (postgresExperimentQueue lib)) p) :
    Consistent p.world.queue p.world.issued := by
  refine worker_invariant (I := fun db issued => Consistent db issued) Consistent.initial
    (fun w w' hcall h => ?_) hreach
  obtain ⟨o, c, call, -, -, hissued, hqueue, hclaims⟩ := hcall
  rw [hqueue, hclaims]
  exact h.effect hissued (postgres_step_effect lib o.draws call w.queue)

end Amlguard
