import Amlguard.Experiments.Postgres

/-!
# What one call does to the database

`Effect` says once what a call of the PostgreSQL queue can do: either it leaves the
database as it was, or it commits one of seven writes, with the rows it found and the
guards it passed. Every invariant below is proved by cases on this relation.

The first consequences concern the immutable part of the rows: a stored job keeps its
experiment, session key and limits for ever, and its attempts only grow.
-/

namespace Amlguard

open Numeric

namespace PostgresExperimentQueue

/-- The row that scheduling inserts for a session. -/
def newRow (manifest : ExperimentManifest) (notBefore : Datetime)
    (key : String × String × String × ℕ) (estimatedCostEur : ℚ) : ExperimentJobRecord where
  experimentId := manifest.experimentId
  sessionKey := key.1
  configurationId := key.2.1
  scenarioId := key.2.2.1
  repetition := key.2.2.2
  status := .pending
  attemptCount := 0
  maxAttempts := 3
  leaseOwner := none
  leaseExpiresAt := none
  heartbeatAt := none
  notBefore := notBefore
  estimatedCostEur := estimatedCostEur
  reservedCostEur := 0
  actualCostEur := none
  providerError := none

/-- The manifest row that scheduling inserts. -/
def newManifest (manifest : ExperimentManifest) (costCeilingEur : ℚ) : ExperimentRecord where
  name := manifest.name
  payload := manifest.document
  status := .created
  costCeilingEur := costCeilingEur
  costSpentEur := 0
  costReservedEur := 0
  stopRequested := false

/-- One insertion of a scheduled job. -/
inductive Inserts (manifest : ExperimentManifest) (db : Database) : Database → Prop where
  | row (jobId : UUID) (notBefore : Datetime) (key : String × String × String × ℕ) (cost : ℚ)
      (hfresh : db.jobs.get? jobId = none)
      (hkey : ∀ row ∈ db.jobs.values, row.sessionKey ≠ key.1) (hwidth : key.1.length ≤ 160)
      (hcost : 0 ≤ cost) (hgrid : OnGrid 6 cost) :
      Inserts manifest db
        { db with jobs := db.jobs.set jobId (newRow manifest notBefore key cost) }

/-- The writes of a committed call, with the reply that goes with them. -/
inductive Effect (draws : Draws) (db : Database) :
    (c : QueueCall) → Except PyError c.Reply → Database → Prop where
  | unchanged (c : QueueCall) (r : Except PyError c.Reply) (h : issuedBy c r = []) :
      Effect draws db c r db
  | scheduled (manifest : ExperimentManifest) (scenarioIds : List String) (n : ℕ)
      (db' : Database) (hknown : (db.manifests.get? manifest.experimentId).isSome = true)
      (hrows : Relation.ReflTransGen (Inserts manifest) db db') :
      Effect draws db (.schedule manifest scenarioIds) (.ok n) db'
  | created (manifest : ExperimentManifest) (scenarioIds : List String) (n : ℕ) (ceiling : ℚ)
      (db' : Database) (hnew : db.manifests.get? manifest.experimentId = none)
      (hgrid : OnGrid 4 ceiling) (hpos : 0 ≤ ceiling)
      (hrows : Relation.ReflTransGen (Inserts manifest)
        { db with
          manifests := db.manifests.set manifest.experimentId (newManifest manifest ceiling) }
        db') :
      Effect draws db (.schedule manifest scenarioIds) (.ok n) db'
  | leased (workerId : String) (jobId : UUID) (row : ExperimentJobRecord)
      (r : Except PyError (Option ExperimentJob))
      (hrow : db.jobs.get? jobId = some row) (hclaimable : Claimable draws db jobId row)
      (hreply : r = (jobOfRow jobId (leasedRow draws workerId row)).map some) :
      Effect draws db (.claim workerId) r
        { db with jobs := db.jobs.set jobId (leasedRow draws workerId row) }
  | beat (jobId : UUID) (workerId : String) (row : ExperimentJobRecord) (expires : Datetime)
      (hrow : db.jobs.get? jobId = some row) (howner : row.leaseOwner = some workerId) :
      Effect draws db (.heartbeat jobId workerId) (.ok ())
        { db with
          jobs := db.jobs.set jobId
            { row with
              heartbeatAt := some draws.now, leaseExpiresAt := some expires, status := .running } }
  | reserved (job : ExperimentJob) (amount : ℚ) (manifest : ExperimentRecord)
      (row : ExperimentJobRecord)
      (hmanifest : db.manifests.get? job.experimentId = some manifest)
      (hrow : db.jobs.get? job.jobId = some row) (hnone : row.reservedCostEur = 0)
      (hroom : manifest.costSpentEur + manifest.costReservedEur + amount ≤
        manifest.costCeilingEur)
      (hrunning : manifest.stopRequested = false) :
      Effect draws db (.reserveCost job amount) (.ok ())
        { db with
          manifests := db.manifests.set job.experimentId
            { manifest with costReservedEur := roundTo 4 (manifest.costReservedEur + amount) }
          jobs := db.jobs.set job.jobId { row with reservedCostEur := roundTo 6 amount } }
  | completed (job : ExperimentJob) (result : Json) (cost : ℚ) (manifest : ExperimentRecord)
      (row : ExperimentJobRecord) (sessions : Dict String ExperimentSessionRecord)
      (hmanifest : db.manifests.get? job.experimentId = some manifest)
      (hrow : db.jobs.get? job.jobId = some row) (hrunning : manifest.stopRequested = false)
      (hroom : manifest.costSpentEur + cost ≤ manifest.costCeilingEur)
      (hsessions : insertSession job result db = .ok sessions) :
      Effect draws db (.complete job result cost) (.ok ())
        { manifests := db.manifests.set job.experimentId
            { manifest with
              costReservedEur := roundTo 4 (manifest.costReservedEur - row.reservedCostEur)
              costSpentEur := roundTo 4 (manifest.costSpentEur + cost) }
          jobs := db.jobs.set job.jobId
            { row with
              status := .succeeded, actualCostEur := some (roundTo 6 cost), reservedCostEur := 0 }
          sessions }
  | failed (job : ExperimentJob) (error : Json) (retryable : Bool) (manifest : ExperimentRecord)
      (row : ExperimentJobRecord) (notBefore : Datetime)
      (hmanifest : db.manifests.get? job.experimentId = some manifest)
      (hrow : db.jobs.get? job.jobId = some row)
      (hdelay : addSeconds draws.now (retryDelay job.attemptCount) = .ok notBefore) :
      Effect draws db (.fail job error retryable) (.ok ())
        { db with
          manifests := db.manifests.set job.experimentId
            { manifest with
              costReservedEur := roundTo 4 (manifest.costReservedEur - row.reservedCostEur) }
          jobs := db.jobs.set job.jobId
            { row with
              reservedCostEur := 0, status := failedStatus job retryable
              providerError := some error, notBefore, leaseOwner := none
              leaseExpiresAt := none } }
  | flagged (c : QueueCall) (r : Except PyError c.Reply) (experimentId : UUID)
      (manifest : ExperimentRecord) (flag : Bool) (status : ExperimentStatus)
      (hcall : c = .stop experimentId ∧ flag = true ∨ c = .resume experimentId ∧ flag = false)
      (hmanifest : db.manifests.get? experimentId = some manifest) :
      Effect draws db c r
        { db with
          manifests := db.manifests.set experimentId
            { manifest with stopRequested := flag, status } }

/-- A value stored in a manifest's cost column is the rounded one. -/
theorem manifestAmount_eq_ok {x y : ℚ} (h : manifestAmount x = .ok y) : y = roundTo 4 x :=
  store_eq_some (orRaise_eq_ok.mp h)

/-- A value stored in a job's cost column is the rounded one. -/
theorem jobAmount_eq_ok {x y : ℚ} (h : jobAmount x = .ok y) : y = roundTo 6 x :=
  store_eq_some (orRaise_eq_ok.mp h)

/-- Storing an amount in a manifest succeeds exactly when it fits. -/
theorem manifestAmount_of_fits {x : ℚ} (h : Fits 14 4 x) : manifestAmount x = .ok (roundTo 4 x) := by
  rw [manifestAmount, store, if_pos h]
  rfl

/-- Storing an amount in a job succeeds exactly when it fits. -/
theorem jobAmount_of_fits {x : ℚ} (h : Fits 14 6 x) : jobAmount x = .ok (roundTo 6 x) := by
  rw [jobAmount, store, if_pos h]
  rfl

/-- A stored amount fits its manifest column. -/
theorem fits_of_manifestAmount {x y : ℚ} (h : manifestAmount x = .ok y) : Fits 14 4 x := by
  by_contra hnot
  rw [manifestAmount, store, if_neg hnot] at h
  cases h

/-- A stored amount fits its job column. -/
theorem fits_of_jobAmount {x y : ℚ} (h : jobAmount x = .ok y) : Fits 14 6 x := by
  by_contra hnot
  rw [jobAmount, store, if_neg hnot] at h
  cases h

/-- A text that fits its column is stored as it is. -/
theorem varchar_eq_ok {width : ℕ} {s t : String} (h : varchar width s = .ok t) : t = s := by
  unfold varchar at h
  split at h
  · exact (Except.ok.inj h).symm
  · cases h

/-- A stored text is no longer than its column is wide. -/
theorem length_le_of_varchar {width : ℕ} {s t : String} (h : varchar width s = .ok t) :
    s.length ≤ width := by
  unfold varchar at h
  split at h
  · assumption
  · cases h

/-- A session block either commits its copy or leaves the database. -/
theorem session_cases {α : Type} (block : Database → Except PyError (α × Database))
    (db : Database) :
    (∃ a db', block db = .ok (a, db') ∧ Database.session block db = (.ok a, db')) ∨
      ∃ e, block db = .error e ∧ Database.session block db = (.error e, db) := by
  unfold Database.session
  cases h : block db with
  | ok p => exact .inl ⟨p.1, p.2, rfl, rfl⟩
  | error e => exact .inr ⟨e, rfl, rfl⟩

/-- The first row of a list is one of its rows. -/
theorem mem_of_firstRow {rows : List (UUID × ExperimentJobRecord)}
    {e : UUID × ExperimentJobRecord} (h : firstRow rows = some e) : e ∈ rows := by
  induction rows generalizing e with
  | nil => cases h
  | cons head rest ih =>
    unfold firstRow at h
    split at h
    · cases h
      exact List.mem_cons_self
    · rename_i f hf
      split at h
      · cases h
        exact List.mem_cons_self
      · cases h
        exact List.mem_cons_of_mem _ (ih hf)

/-- The candidate is a stored row that can be claimed. -/
theorem candidate_spec {draws : Draws} {db : Database} {jobId : UUID} {row : ExperimentJobRecord}
    (h : candidate draws db = some (jobId, row)) :
    db.jobs.get? jobId = some row ∧ Claimable draws db jobId row := by
  have hmem := mem_of_firstRow h
  rw [List.mem_filter, Dict.mem_entries_iff, decide_eq_true_iff] at hmem
  exact hmem

/-- An inserted job is a new row of its manifest with a nonnegative stored cost. -/
theorem insertJob_inserts {manifest : ExperimentManifest} {fresh : UUID × Datetime}
    {key : String × String × String × ℕ} {db db' : Database}
    (h : insertJob manifest fresh key db = .ok db') : Inserts manifest db db' := by
  simp only [insertJob, bind_eq_ok, raiseIf_eq_ok] at h
  obtain ⟨estimated, hestimated, s, hs, c, hc, sc, hsc, cost, hcost, -, hfresh, -, hkey, h⟩ := h
  have hwidth := length_le_of_varchar hs
  cases varchar_eq_ok hs
  cases varchar_eq_ok hc
  cases varchar_eq_ok hsc
  cases jobAmount_eq_ok hcost
  rw [Bool.not_eq_true, Option.isSome_eq_false_iff, Option.isNone_iff_eq_none] at hfresh
  cases h
  exact .row fresh.1 fresh.2 key _ hfresh (fun row hrow heq => hkey ⟨row, hrow, heq⟩) hwidth
    (roundTo_nonneg (estimatedJobCost_nonneg hestimated)) (onGrid_roundTo 6 estimated)

/-- A list of insertions inserts its rows one after the other. -/
theorem insertJobs_inserts {manifest : ExperimentManifest} {fresh : ℕ → UUID × Datetime}
    (keys : List (String × String × String × ℕ)) {i : ℕ} {db db' : Database}
    (h : insertJobs manifest fresh i keys db = .ok db') :
    Relation.ReflTransGen (Inserts manifest) db db' := by
  induction keys generalizing i db with
  | nil => cases h; exact .refl
  | cons key rest ih =>
    obtain ⟨mid, hmid, hrest⟩ := bind_eq_ok.mp h
    exact .head (insertJob_inserts hmid) (ih hrest)

/-- Inserted jobs leave the stored ones as they were. -/
theorem get?_of_inserts {manifest : ExperimentManifest} {db db' : Database}
    (hrows : Relation.ReflTransGen (Inserts manifest) db db') :
    ∀ j row, db.jobs.get? j = some row → db'.jobs.get? j = some row := by
  induction hrows with
  | refl => exact fun _ _ h => h
  | tail _ hrow ih =>
    cases hrow with
    | row jobId notBefore key cost hfresh hkey hwidth hcost hgrid =>
      intro j row hj
      have hold := ih j row hj
      refine (Dict.get?_set_ne _ (fun heq => ?_) _).trans hold
      rw [heq, hold] at hfresh
      cases hfresh

/-- Scheduling keeps a known manifest or creates its row, and then inserts jobs. -/
theorem schedule_effect {lib : Stdlib} {draws : Draws} {manifest : ExperimentManifest}
    {scenarioIds : List String} {db db' : Database} {n : ℕ}
    (h : schedule lib draws manifest scenarioIds db = .ok (n, db')) :
    Effect draws db (.schedule manifest scenarioIds) (.ok n) db' := by
  simp only [schedule, bind_eq_ok] at h
  obtain ⟨mid, hmid, last, hlast, h⟩ := h
  cases h
  have hrows := insertJobs_inserts _ hlast
  unfold insertManifest at hmid
  split at hmid
  · rename_i hnew
    simp only [bind_eq_ok] at hmid
    obtain ⟨name, hname, ceiling, hceiling, hmid⟩ := hmid
    cases varchar_eq_ok hname
    cases manifestAmount_eq_ok hceiling
    cases hmid
    exact .created manifest scenarioIds _ _ db' hnew (onGrid_roundTo 4 _)
      (roundTo_nonneg manifest.ceiling_pos.le) hrows
  · rename_i existing hknown
    simp only [bind_eq_ok] at hmid
    obtain ⟨-, -, hmid⟩ := hmid
    cases hmid
    exact .scheduled manifest scenarioIds _ db' (by rw [hknown]; rfl) hrows

/-- A claim leaves the database or leases its candidate. -/
theorem claim_cases (draws : Draws) (workerId : String) (db : Database) :
    ((claim draws workerId db).2 = db ∧ issuedBy (.claim workerId) (claim draws workerId db).1 = []) ∨
      ∃ jobId row, candidate draws db = some (jobId, row) ∧
        (claim draws workerId db).1 = (jobOfRow jobId (leasedRow draws workerId row)).map some ∧
        (claim draws workerId db).2 =
          { db with jobs := db.jobs.set jobId (leasedRow draws workerId row) } := by
  unfold claim
  rcases session_cases (claimRow draws workerId) db with
    ⟨found, db', hblock, hsession⟩ | ⟨e, -, hsession⟩
  · rw [hsession]
    unfold claimRow at hblock
    split at hblock
    · cases hblock
      exact .inl ⟨rfl, rfl⟩
    · rename_i jobId row hcandidate
      simp only [bind_eq_ok] at hblock
      obtain ⟨worker, hworker, hblock⟩ := hblock
      cases varchar_eq_ok hworker
      cases hblock
      exact .inr ⟨jobId, row, hcandidate, rfl, rfl⟩
  · rw [hsession]
    exact .inl ⟨rfl, rfl⟩

/-- A claim does what `Effect` says. -/
theorem claim_effect (draws : Draws) (workerId : String) (db : Database) :
    Effect draws db (.claim workerId) (claim draws workerId db).1 (claim draws workerId db).2 := by
  rcases claim_cases draws workerId db with ⟨hsame, hnone⟩ | ⟨jobId, row, hcandidate, hreply, hdb⟩
  · rw [hsame]
    exact .unchanged _ _ hnone
  · obtain ⟨hrow, hclaimable⟩ := candidate_spec hcandidate
    rw [hdb]
    exact .leased workerId jobId row _ hrow hclaimable hreply

/-- A committed heartbeat found its worker as the owner of the lease. -/
theorem heartbeat_effect {draws : Draws} {jobId : UUID} {workerId : String} {db db' : Database}
    (h : heartbeat draws jobId workerId db = .ok ((), db')) :
    Effect draws db (.heartbeat jobId workerId) (.ok ()) db' := by
  simp only [heartbeat, bind_eq_ok, orRaise_eq_ok, raiseIf_eq_ok, not_not] at h
  obtain ⟨expires, -, row, hrow, -, howner, h⟩ := h
  cases h
  exact .beat jobId workerId row expires hrow howner

/-- A committed reservation found the job already reserved, or room below the ceiling. -/
theorem reserveCost_effect {draws : Draws} {job : ExperimentJob} {amount : ℚ} {db db' : Database}
    (h : reserveCost job amount db = .ok ((), db')) :
    Effect draws db (.reserveCost job amount) (.ok ()) db' := by
  simp only [reserveCost, bind_eq_ok, orRaise_eq_ok] at h
  obtain ⟨manifest, hmanifest, row, hrow, h⟩ := h
  split at h
  · cases h
    exact .unchanged _ _ rfl
  · rename_i hnone
    simp only [bind_eq_ok, raiseIf_eq_ok, Bool.not_eq_true, not_lt] at h
    obtain ⟨-, hrunning, -, hroom, reserved, hreserved, jobReserved, hjob, h⟩ := h
    cases manifestAmount_eq_ok hreserved
    cases jobAmount_eq_ok hjob
    cases h
    exact .reserved job amount manifest row hmanifest hrow (not_not.mp hnone) hroom hrunning

/-- A reservation that nothing hinders is committed. -/
theorem reserveCost_of_accepted {job : ExperimentJob} {amount : ℚ} {db : Database}
    {manifest : ExperimentRecord} {row : ExperimentJobRecord}
    (hmanifest : db.manifests.get? job.experimentId = some manifest)
    (hrow : db.jobs.get? job.jobId = some row) (hnone : row.reservedCostEur = 0)
    (hrunning : manifest.stopRequested = false)
    (hroom : manifest.costSpentEur + manifest.costReservedEur + amount ≤ manifest.costCeilingEur)
    (hfits : Fits 14 4 (manifest.costReservedEur + amount)) (hjobFits : Fits 14 6 amount) :
    reserveCost job amount db = .ok ((),
      { db with
        manifests := db.manifests.set job.experimentId
          { manifest with costReservedEur := roundTo 4 (manifest.costReservedEur + amount) }
        jobs := db.jobs.set job.jobId { row with reservedCostEur := roundTo 6 amount } }) := by
  simp only [reserveCost, bind_eq_ok, orRaise_eq_ok]
  refine ⟨manifest, hmanifest, row, hrow, ?_⟩
  rw [if_neg (not_not.mpr hnone)]
  simp only [bind_eq_ok, raiseIf_eq_ok]
  exact ⟨(), by rw [hrunning]; decide, (), not_lt.mpr hroom, _, manifestAmount_of_fits hfits, _,
    jobAmount_of_fits hjobFits, rfl⟩

/-- A job that holds a reservation keeps it. -/
theorem reserveCost_of_reserved {job : ExperimentJob} {db : Database}
    {manifest : ExperimentRecord} {row : ExperimentJobRecord} (amount : ℚ)
    (hmanifest : db.manifests.get? job.experimentId = some manifest)
    (hrow : db.jobs.get? job.jobId = some row) (hheld : row.reservedCostEur ≠ 0) :
    reserveCost job amount db = .ok ((), db) := by
  simp only [reserveCost, bind_eq_ok, orRaise_eq_ok]
  exact ⟨manifest, hmanifest, row, hrow, if_pos hheld⟩

/-- A committed completion found the experiment running and the cost below the ceiling. -/
theorem complete_effect {draws : Draws} {job : ExperimentJob} {result : Json} {cost : ℚ}
    {db db' : Database} (h : complete job result cost db = .ok ((), db')) :
    Effect draws db (.complete job result cost) (.ok ()) db' := by
  simp only [complete, bind_eq_ok, orRaise_eq_ok, raiseIf_eq_ok, Bool.not_eq_true, not_lt] at h
  obtain ⟨manifest, hmanifest, -, hrunning, row, hrow, -, hroom, reserved, hreserved, spent,
    hspent, sessions, hsessions, actual, hactual, h⟩ := h
  cases manifestAmount_eq_ok hreserved
  cases manifestAmount_eq_ok hspent
  cases jobAmount_eq_ok hactual
  cases h
  exact .completed job result cost manifest row sessions hmanifest hrow hrunning hroom hsessions

/-- A committed failure releases the reservation and the lease, whatever the status was. -/
theorem fail_effect {draws : Draws} {job : ExperimentJob} {error : Json} {retryable : Bool}
    {db db' : Database} (h : fail draws job error retryable db = .ok ((), db')) :
    Effect draws db (.fail job error retryable) (.ok ()) db' := by
  simp only [fail, bind_eq_ok, orRaise_eq_ok] at h
  obtain ⟨manifest, hmanifest, row, hrow, notBefore, hdelay, reserved, hreserved, h⟩ := h
  cases manifestAmount_eq_ok hreserved
  cases h
  exact .failed job error retryable manifest row notBefore hmanifest hrow hdelay

/-- A change of a manifest's flag finds the row or does nothing. -/
theorem updateManifest_effect (draws : Draws) (c : QueueCall) (r : Except PyError c.Reply)
    (experimentId : UUID) (flag : Bool) (status : ExperimentStatus)
    (hcall : c = .stop experimentId ∧ flag = true ∨ c = .resume experimentId ∧ flag = false)
    (db : Database) :
    Effect draws db c r (updateManifest experimentId
      (fun manifest => { manifest with stopRequested := flag, status }) db) := by
  unfold updateManifest
  split
  · rename_i manifest hmanifest
    exact .flagged c r experimentId manifest flag status hcall hmanifest
  · refine .unchanged c r ?_
    rcases hcall with ⟨rfl, -⟩ | ⟨rfl, -⟩ <;> rfl

/-- Every call does what `Effect` says. -/
theorem perform_effect (lib : Stdlib) (draws : Draws) (c : QueueCall) (db : Database) :
    Effect draws db c (perform lib draws c db).1 (perform lib draws c db).2 := by
  have hsession : ∀ (c : QueueCall) (block : Database → Except PyError (c.Reply × Database)),
      (∀ a db', block db = .ok (a, db') → Effect draws db c (.ok a) db') →
      Effect draws db c (Database.session block db).1 (Database.session block db).2 := by
    intro c block hcommit
    rcases session_cases block db with ⟨a, db', hblock, h⟩ | ⟨e, -, h⟩
    · rw [h]
      exact hcommit a db' hblock
    · rw [h]
      exact .unchanged c _ (issuedBy_error c e)
  cases c with
  | schedule manifest scenarioIds =>
    exact hsession (.schedule manifest scenarioIds) (schedule lib draws manifest scenarioIds)
      fun _ _ h => schedule_effect h
  | claim workerId => exact claim_effect draws workerId db
  | heartbeat jobId workerId =>
    exact hsession (.heartbeat jobId workerId) (heartbeat draws jobId workerId)
      fun _ _ h => heartbeat_effect h
  | reserveCost job amount =>
    exact hsession (.reserveCost job amount) (reserveCost job amount)
      fun _ _ h => reserveCost_effect h
  | complete job result cost =>
    exact hsession (.complete job result cost) (complete job result cost)
      fun _ _ h => complete_effect h
  | fail job error retryable =>
    exact hsession (.fail job error retryable) (fail draws job error retryable)
      fun _ _ h => fail_effect h
  | stop experimentId =>
    exact updateManifest_effect draws (.stop experimentId) (.ok ()) experimentId true .stopped
      (.inl ⟨rfl, rfl⟩) db
  | resume experimentId =>
    exact updateManifest_effect draws (.resume experimentId) (.ok ()) experimentId false .running
      (.inr ⟨rfl, rfl⟩) db

end PostgresExperimentQueue

/-- Every step of the PostgreSQL queue does what `Effect` says. -/
theorem postgres_step_effect (lib : Stdlib) (draws : Draws) (c : QueueCall) (db : Database) :
    PostgresExperimentQueue.Effect draws db c ((postgresExperimentQueue lib).step draws c db).1
      ((postgresExperimentQueue lib).step draws c db).2 := by
  unfold postgresExperimentQueue
  dsimp only
  split
  · exact .unchanged c _ (issuedBy_error c _)
  · exact PostgresExperimentQueue.perform_effect lib draws c db

/-- A call whose connection is lost raises and does nothing. -/
theorem postgres_step_lost (lib : Stdlib) {draws : Draws} {e : PyError} (h : draws.outage = some e)
    (c : QueueCall) (db : Database) : (postgresExperimentQueue lib).step draws c db = (.error e, db) := by
  simp only [postgresExperimentQueue, h]

end Amlguard
