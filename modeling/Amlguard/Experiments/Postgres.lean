import Amlguard.Experiments.Queue
import Amlguard.Library.Dict
import Amlguard.Library.Numeric

/-!
# The PostgreSQL queue

Three tables and one transaction per method. A transaction works on a copy of the database;
`session` commits the copy when the block ends normally and keeps the old database when it
raises. Cost columns are stored through `NUMERIC(14, 4)` in the manifest and through
`NUMERIC(14, 6)` in the job.
-/

namespace Amlguard

open Numeric

/-- The states written to a manifest row. -/
inductive ExperimentStatus where
  | created | pausedCostCeiling | stopped | running
  deriving DecidableEq, Repr

/-- A row of `experiment.manifests`. -/
structure ExperimentRecord where
  name : String
  payload : Json
  status : ExperimentStatus
  costCeilingEur : ℚ
  costSpentEur : ℚ
  costReservedEur : ℚ
  stopRequested : Bool

/-- A row of `experiment.jobs`. -/
structure ExperimentJobRecord where
  experimentId : UUID
  sessionKey : String
  configurationId : String
  scenarioId : String
  repetition : ℕ
  status : JobStatus
  attemptCount : ℕ
  maxAttempts : ℕ
  leaseOwner : Option String
  leaseExpiresAt : Option Datetime
  heartbeatAt : Option Datetime
  notBefore : Datetime
  estimatedCostEur : ℚ
  reservedCostEur : ℚ
  actualCostEur : Option ℚ
  providerError : Option Json

/-- A row of `experiment.sessions`; the table is keyed by the unique session key. -/
structure ExperimentSessionRecord where
  jobId : UUID
  result : Json

/-- The experiment schema. -/
structure Database where
  manifests : Dict UUID ExperimentRecord
  jobs : Dict UUID ExperimentJobRecord
  sessions : Dict String ExperimentSessionRecord

namespace Database

/-- The schema without rows. -/
def initial : Database := ⟨.empty, .empty, .empty⟩

/-- `Database.session`: commit when the block ends normally, roll back when it raises. -/
def session {α : Type} (block : Database → Except PyError (α × Database)) (db : Database) :
    Except PyError α × Database :=
  match block db with
  | .ok (a, db') => (.ok a, db')
  | .error e => (.error e, db)

end Database

/-- A value does not fit its column. -/
def dataError : PyError :=
  { typeName := "DBAPIError", bases := ["SQLAlchemyError"] }

/-- Store an amount in a cost column of a manifest. -/
def manifestAmount (x : ℚ) : Except PyError ℚ := orRaise (store 14 4 x) dataError

/-- Store an amount in a cost column of a job. -/
def jobAmount (x : ℚ) : Except PyError ℚ := orRaise (store 14 6 x) dataError

/-- Store a text in a column of limited width. -/
def varchar (width : ℕ) (s : String) : Except PyError String :=
  if s.length ≤ width then .ok s else .error dataError

namespace PostgresExperimentQueue

/-- Insert one job row with its defaults. -/
def insertJob (manifest : ExperimentManifest) (fresh : UUID × Datetime)
    (key : String × String × String × ℕ) (db : Database) : Except PyError Database := do
  let estimated ← estimatedJobCost manifest key.2.1
  let sessionKey ← varchar 160 key.1
  let configurationId ← varchar 80 key.2.1
  let scenarioId ← varchar 80 key.2.2.1
  let estimatedCostEur ← jobAmount estimated
  raiseIf ((db.jobs.get? fresh.1).isSome = true) integrityError
  raiseIf (∃ row ∈ db.jobs.values, row.sessionKey = sessionKey) integrityError
  pure { db with
    jobs := db.jobs.set fresh.1
      { experimentId := manifest.experimentId
        sessionKey, configurationId, scenarioId
        repetition := key.2.2.2
        status := .pending, attemptCount := 0, maxAttempts := 3
        leaseOwner := none, leaseExpiresAt := none, heartbeatAt := none, notBefore := fresh.2
        estimatedCostEur, reservedCostEur := 0, actualCostEur := none, providerError := none } }

/-- Insert the rows of a list of sessions, each with its own fresh identifier. -/
def insertJobs (manifest : ExperimentManifest) (fresh : ℕ → UUID × Datetime) :
    ℕ → List (String × String × String × ℕ) → Database → Except PyError Database
  | _, [], db => pure db
  | i, key :: keys, db => do
    let db ← insertJob manifest (fresh i) key db
    insertJobs manifest fresh (i + 1) keys db

/-- Insert the manifest row, or check that the stored one has the same payload. -/
def insertManifest (manifest : ExperimentManifest) (db : Database) : Except PyError Database :=
  match db.manifests.get? manifest.experimentId with
  | none => do
    let name ← varchar 200 manifest.name
    let costCeilingEur ← manifestAmount manifest.costCeilingEur
    pure { db with
      manifests := db.manifests.set manifest.experimentId
        { name, payload := manifest.document, status := .created, costCeilingEur
          costSpentEur := 0, costReservedEur := 0, stopRequested := false } }
  | some existing => do
    raiseIf (existing.payload ≠ manifest.document)
      (.valueError "experiment ID already exists with a different manifest")
    pure db

/-- The session keys stored for an experiment. -/
def existingKeys (experimentId : UUID) (db : Database) : List String :=
  (db.jobs.values.filter fun row => decide (row.experimentId = experimentId)).map (·.sessionKey)

/-- `PostgresExperimentQueue.schedule`. -/
def schedule (lib : Stdlib) (draws : Draws) (manifest : ExperimentManifest)
    (scenarioIds : List String) (db : Database) : Except PyError (ℕ × Database) := do
  let keys := lib.shuffle manifest.randomizationSeed (scheduleKeys lib manifest scenarioIds)
  let db ← insertManifest manifest db
  let rows := keys.filter fun key => key.1 ∉ existingKeys manifest.experimentId db
  let db ← insertJobs manifest draws.fresh 0 rows db
  pure (rows.length, db)

/-- The condition of the candidate query on one job. -/
def Claimable (draws : Draws) (db : Database) (jobId : UUID) (row : ExperimentJobRecord) : Prop :=
  (∃ m ∈ db.manifests.get? row.experimentId, m.stopRequested = false) ∧
    (((row.status = .pending ∨ row.status = .retryWait) ∧ row.notBefore ≤ draws.now) ∨
      ((row.status = .leased ∨ row.status = .running) ∧
        ∃ expires ∈ row.leaseExpiresAt, expires < draws.now)) ∧
    jobId ∉ draws.locked

instance (draws : Draws) (db : Database) (jobId : UUID) (row : ExperimentJobRecord) :
    Decidable (Claimable draws db jobId row) :=
  inferInstanceAs (Decidable (_ ∧ _ ∧ _))

/-- The first of the rows by `not_before` and then by identifier. -/
def firstRow : List (UUID × ExperimentJobRecord) → Option (UUID × ExperimentJobRecord)
  | [] => none
  | e :: rest =>
    match firstRow rest with
    | none => some e
    | some f =>
      if e.2.notBefore < f.2.notBefore ∨ e.2.notBefore = f.2.notBefore ∧ e.1 ≤ f.1 then some e
      else some f

/-- The candidate of a claim. -/
def candidate (draws : Draws) (db : Database) : Option (UUID × ExperimentJobRecord) :=
  firstRow (db.jobs.entries.filter fun e => decide (Claimable draws db e.1 e.2))

/-- The row that the claim's `UPDATE` writes. -/
def leasedRow (draws : Draws) (workerId : String) (row : ExperimentJobRecord) :
    ExperimentJobRecord :=
  { row with
    status := .leased, leaseOwner := some workerId
    leaseExpiresAt := some (second * leaseSeconds + draws.now)
    heartbeatAt := some draws.now, attemptCount := row.attemptCount + 1 }

/-- The claim's transaction: update the candidate and return its row. -/
def claimRow (draws : Draws) (workerId : String) (db : Database) :
    Except PyError (Option (UUID × ExperimentJobRecord) × Database) :=
  match candidate draws db with
  | none => pure (none, db)
  | some (jobId, row) => do
    let workerId ← varchar 120 workerId
    let row := leasedRow draws workerId row
    pure (some (jobId, row), { db with jobs := db.jobs.set jobId row })

/-- The job built from a returned row; its schema checks the row again. -/
def jobOfRow (jobId : UUID) (row : ExperimentJobRecord) : Except PyError ExperimentJob :=
  if h : 1 ≤ row.repetition ∧ 1 ≤ row.maxAttempts ∧ 0 ≤ row.estimatedCostEur then
    .ok
      { jobId
        experimentId := row.experimentId
        sessionKey := row.sessionKey
        configurationId := row.configurationId
        scenarioId := row.scenarioId
        repetition := row.repetition
        status := row.status
        attemptCount := row.attemptCount
        maxAttempts := row.maxAttempts
        leaseOwner := row.leaseOwner
        leaseExpiresAt := row.leaseExpiresAt
        notBefore := row.notBefore
        estimatedCostEur := row.estimatedCostEur
        repetition_pos := h.1
        maxAttempts_pos := h.2.1
        cost_nonneg := h.2.2 }
  else .error (.validationError [])

/-- `PostgresExperimentQueue.claim`: the row is committed before the job is built from it. -/
def claim (draws : Draws) (workerId : String) (db : Database) :
    Except PyError (Option ExperimentJob) × Database :=
  match Database.session (claimRow draws workerId) db with
  | (.ok none, db) => (.ok none, db)
  | (.ok (some (jobId, row)), db) => ((jobOfRow jobId row).map some, db)
  | (.error e, db) => (.error e, db)

/-- `PostgresExperimentQueue.heartbeat`. -/
def heartbeat (draws : Draws) (jobId : UUID) (workerId : String) (db : Database) :
    Except PyError (Unit × Database) := do
  let expires ← addSeconds draws.now leaseSeconds
  let row ← orRaise (db.jobs.get? jobId) leaseNotOwned
  raiseIf (row.leaseOwner ≠ some workerId) leaseNotOwned
  pure ((), { db with
    jobs := db.jobs.set jobId
      { row with
          heartbeatAt := some draws.now, leaseExpiresAt := some expires, status := .running } })

/-- `PostgresExperimentQueue.reserve_cost`. The pause at the ceiling is written before the
exception and rolled back with it. -/
def reserveCost (job : ExperimentJob) (amount : ℚ) (db : Database) :
    Except PyError (Unit × Database) := do
  let manifest ← orRaise (db.manifests.get? job.experimentId) noResultFound
  let record ← orRaise (db.jobs.get? job.jobId) noResultFound
  if record.reservedCostEur ≠ 0 then pure ((), db)
  else do
    raiseIf (manifest.stopRequested = true) experimentStopped
    raiseIf (manifest.costSpentEur + manifest.costReservedEur + amount > manifest.costCeilingEur)
      ceilingExceeded
    let reserved ← manifestAmount (manifest.costReservedEur + amount)
    let jobReserved ← jobAmount amount
    pure ((), { db with
      manifests := db.manifests.set job.experimentId { manifest with costReservedEur := reserved }
      jobs := db.jobs.set job.jobId { record with reservedCostEur := jobReserved } })

/-- Store a result unless the session key has one. -/
def insertSession (job : ExperimentJob) (result : Json) (db : Database) :
    Except PyError (Dict String ExperimentSessionRecord) :=
  match db.sessions.get? job.sessionKey with
  | some _ => pure db.sessions
  | none => do
    let key ← varchar 160 job.sessionKey
    raiseIf (∃ row ∈ db.sessions.values, row.jobId = job.jobId) integrityError
    pure (db.sessions.set key { jobId := job.jobId, result })

/-- `PostgresExperimentQueue.complete`. -/
def complete (job : ExperimentJob) (result : Json) (cost : ℚ) (db : Database) :
    Except PyError (Unit × Database) := do
  let manifest ← orRaise (db.manifests.get? job.experimentId) noResultFound
  raiseIf (manifest.stopRequested = true) experimentStopped
  let record ← orRaise (db.jobs.get? job.jobId) noResultFound
  raiseIf (manifest.costSpentEur + cost > manifest.costCeilingEur) ceilingExceeded
  let reserved ← manifestAmount (manifest.costReservedEur - record.reservedCostEur)
  let spent ← manifestAmount (manifest.costSpentEur + cost)
  let sessions ← insertSession job result db
  let actual ← jobAmount cost
  pure ((), {
    manifests := db.manifests.set job.experimentId
      { manifest with costReservedEur := reserved, costSpentEur := spent }
    jobs := db.jobs.set job.jobId
      { record with status := .succeeded, actualCostEur := some actual, reservedCostEur := 0 }
    sessions })

/-- The status that a failed attempt leaves, decided on the worker's copy of the job. -/
def failedStatus (job : ExperimentJob) (retryable : Bool) : JobStatus :=
  if retryable = true ∧ job.attemptCount < job.maxAttempts then .retryWait else .failed

/-- `PostgresExperimentQueue.fail`. -/
def fail (draws : Draws) (job : ExperimentJob) (error : Json) (retryable : Bool) (db : Database) :
    Except PyError (Unit × Database) := do
  let manifest ← orRaise (db.manifests.get? job.experimentId) noResultFound
  let record ← orRaise (db.jobs.get? job.jobId) noResultFound
  let notBefore ← addSeconds draws.now (retryDelay job.attemptCount)
  let reserved ← manifestAmount (manifest.costReservedEur - record.reservedCostEur)
  pure ((), { db with
    manifests := db.manifests.set job.experimentId { manifest with costReservedEur := reserved }
    jobs := db.jobs.set job.jobId
      { record with
        reservedCostEur := 0, status := failedStatus job retryable
        providerError := some error, notBefore, leaseOwner := none, leaseExpiresAt := none } })

/-- Write a manifest row when it exists. -/
def updateManifest (experimentId : UUID) (f : ExperimentRecord → ExperimentRecord)
    (db : Database) : Database :=
  match db.manifests.get? experimentId with
  | some manifest => { db with manifests := db.manifests.set experimentId (f manifest) }
  | none => db

/-- `PostgresExperimentQueue.stop`. -/
def stop (experimentId : UUID) (db : Database) : Except PyError (Unit × Database) :=
  pure ((), updateManifest experimentId
    (fun manifest => { manifest with stopRequested := true, status := .stopped }) db)

/-- `PostgresExperimentQueue.resume`. -/
def resume (experimentId : UUID) (db : Database) : Except PyError (Unit × Database) :=
  pure ((), updateManifest experimentId
    (fun manifest => { manifest with stopRequested := false, status := .running }) db)

/-- `PostgresExperimentQueue.results_for`: the sessions joined with the jobs of an experiment. -/
def resultsFor (experimentId : UUID) (db : Database) : Dict String Json :=
  db.sessions.filterMap fun _ session =>
    match db.jobs.get? session.jobId with
    | some row => if row.experimentId = experimentId then some session.result else none
    | none => none

/-- One call, as one transaction. -/
def perform (lib : Stdlib) (draws : Draws) :
    (c : QueueCall) → Database → Except PyError c.Reply × Database
  | .schedule manifest scenarioIds => Database.session (schedule lib draws manifest scenarioIds)
  | .claim workerId => claim draws workerId
  | .heartbeat jobId workerId => Database.session (heartbeat draws jobId workerId)
  | .reserveCost job amount => Database.session (reserveCost job amount)
  | .complete job result cost => Database.session (complete job result cost)
  | .fail job error retryable => Database.session (fail draws job error retryable)
  | .stop experimentId => Database.session (stop experimentId)
  | .resume experimentId => Database.session (resume experimentId)

end PostgresExperimentQueue

/-- The queue on PostgreSQL. A lost connection raises before anything is committed. -/
abbrev postgresExperimentQueue (lib : Stdlib) : ExperimentQueue where
  State := Database
  initial := Database.initial
  step draws c db :=
    match draws.outage with
    | some e => (.error e, db)
    | none => PostgresExperimentQueue.perform lib draws c db
  stopped db e := (db.manifests.get? e).any (·.stopRequested)
  leaseOwner db j := (db.jobs.get? j).bind (·.leaseOwner)
  Footprint :=
    Option ExperimentJobRecord × Option ExperimentSessionRecord × Option (ℚ × ℚ)
  footprint db job :=
    (db.jobs.get? job.jobId, db.sessions.get? job.sessionKey,
      (db.manifests.get? job.experimentId).map fun m => (m.costSpentEur, m.costReservedEur))

end Amlguard
