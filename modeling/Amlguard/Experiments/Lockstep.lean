import Amlguard.Experiments.Enlistment
import Amlguard.Experiments.Fencing
import Mathlib.Data.Option.Basic

/-!
# The two queues in lockstep

Both implementations are driven by one sequence of operations, with one clock and one source
of identifiers. An operation for a job is about the job that the latest claim has returned,
on each queue its own copy.

A claim takes the first job in the order of insertion in memory and the one that has waited
longest on PostgreSQL. So that the order does not matter, a claim may here take any job that
the implementation finds eligible, and both take the same one where both take one.
-/

namespace Amlguard

open Numeric

namespace InMemoryExperimentQueue

/-- The results of a claim that may visit the stored jobs in any order. -/
def AnyClaim (draws : Draws) (workerId : String) (q : InMemoryQueue)
    (r : Except PyError (Option ExperimentJob) × InMemoryQueue) : Prop :=
  ∃ order : List (UUID × ExperimentJob), order.Perm q.jobs.entries ∧
    r = claimLoop draws.now workerId order q

/-- The claim of the implementation visits the jobs in the order of their insertion. -/
theorem anyClaim_claim (draws : Draws) (workerId : String) (q : InMemoryQueue) :
    AnyClaim draws workerId q (claim draws workerId q) :=
  ⟨q.jobs.entries, .refl _, rfl⟩

end InMemoryExperimentQueue

namespace PostgresExperimentQueue

/-- `PostgresExperimentQueue.claim` with the row that the candidate query has found. -/
def claimFound (found : Option (UUID × ExperimentJobRecord)) (draws : Draws) (workerId : String)
    (db : Database) : Except PyError (Option ExperimentJob) × Database :=
  match found with
  | none => (.ok none, db)
  | some (jobId, row) =>
    match varchar 120 workerId with
    | .error e => (.error e, db)
    | .ok workerId =>
      ((jobOfRow jobId (leasedRow draws workerId row)).map some,
        { db with jobs := db.jobs.set jobId (leasedRow draws workerId row) })

/-- The results of a claim whose query may return any claimable row. -/
def AnyClaim (draws : Draws) (workerId : String) (db : Database)
    (r : Except PyError (Option ExperimentJob) × Database) : Prop :=
  ∃ found, (found = none → ∀ j row, db.jobs.get? j = some row → ¬Claimable draws db j row) ∧
    (∀ e ∈ found, db.jobs.get? e.1 = some e.2 ∧ Claimable draws db e.1 e.2) ∧
    r = claimFound found draws workerId db

/-- Without a candidate no row can be claimed. -/
theorem not_claimable_of_none {draws : Draws} {db : Database} (h : candidate draws db = none)
    (j : UUID) (row : ExperimentJobRecord) (hrow : db.jobs.get? j = some row) :
    ¬Claimable draws db j row := by
  intro hclaimable
  have hmem : (j, row) ∈ db.jobs.entries.filter fun e => decide (Claimable draws db e.1 e.2) :=
    List.mem_filter.mpr ⟨(db.jobs.mem_entries_iff j row).mpr hrow, decide_eq_true hclaimable⟩
  unfold candidate at h
  cases hrows : db.jobs.entries.filter fun e => decide (Claimable draws db e.1 e.2) with
  | nil =>
    rw [hrows] at hmem
    cases hmem
  | cons e rest =>
    rw [hrows] at h
    simp only [firstRow] at h
    split at h
    · cases h
    · split at h <;> cases h

/-- The claim of the implementation takes the row that has waited longest. -/
theorem anyClaim_claim (draws : Draws) (workerId : String) (db : Database) :
    AnyClaim draws workerId db (claim draws workerId db) := by
  refine ⟨candidate draws db, not_claimable_of_none, fun e he => ?_, ?_⟩
  · exact candidate_spec he
  · unfold claim claimFound Database.session
    cases hfound : candidate draws db with
    | none =>
      simp only [claimRow, hfound]
      rfl
    | some e =>
      simp only [claimRow, hfound, bind, Except.bind]
      cases varchar 120 workerId <;> rfl

end PostgresExperimentQueue

/-- An operation for the job that the latest claim has returned. -/
inductive JobOp where
  | heartbeat (workerId : String)
  | reserveCost (amount : ℚ)
  | complete (result : Json) (cost : ℚ)
  | fail (error : Json) (retryable : Bool)

/-- The queue call of an operation for a job. -/
def JobOp.call (job : ExperimentJob) : JobOp → QueueCall
  | .heartbeat workerId => .heartbeat job.jobId workerId
  | .reserveCost amount => .reserveCost job amount
  | .complete result cost => .complete job result cost
  | .fail error retryable => .fail job error retryable

/-- One operation on both queues. -/
inductive TwinOp where
  | schedule (manifest : ExperimentManifest) (scenarioIds : List String)
  | claim (workerId : String)
  | job (op : JobOp)
  | stop (experimentId : UUID)
  | resume (experimentId : UUID)

/-- The two queues, and the job that the latest claim has returned, in both copies. -/
structure Twins where
  memory : InMemoryQueue
  database : Database
  held : Option (ExperimentJob × ExperimentJob)

namespace Twins

/-- Two empty queues. -/
def initial : Twins := ⟨InMemoryExperimentQueue.initial, Database.initial, none⟩

/-- The calls that an operation other than a claim makes. -/
def calls (s : Twins) : TwinOp → Option (QueueCall × QueueCall)
  | .schedule manifest scenarioIds =>
    some (.schedule manifest scenarioIds, .schedule manifest scenarioIds)
  | .claim _ => none
  | .job op => s.held.map fun jobs => (op.call jobs.1, op.call jobs.2)
  | .stop experimentId => some (.stop experimentId, .stop experimentId)
  | .resume experimentId => some (.resume experimentId, .resume experimentId)

/-- The job held after a claim. -/
def heldAfter (s : Twins) :
    Except PyError (Option ExperimentJob) → Except PyError (Option ExperimentJob) →
      Option (ExperimentJob × ExperimentJob)
  | .ok (some job), .ok (some job') => some (job, job')
  | _, _ => s.held

end Twins

/-- Whether a call succeeded, without its reply. -/
def ended {α : Type} : Except PyError α → Except PyError (Option ExperimentJob)
  | .ok _ => .ok none
  | .error e => .error e

/-- Draws for calls that are executed one at a time: no row is locked, and new identifiers are
distinct and unused. -/
structure OneAtATime (draws : Draws) (s : Twins) : Prop where
  locked : draws.locked = []
  distinct : ∀ i i', (draws.fresh i).1 = (draws.fresh i').1 → i = i'
  memory : ∀ i, s.memory.jobs.get? (draws.fresh i).1 = none
  database : ∀ i, s.database.jobs.get? (draws.fresh i).1 = none

/-- One operation on both queues, with the two replies. Scenarios are not repeated within a
schedule. -/
inductive TwinStep (lib : Stdlib) (draws : Draws) (s : Twins) :
    TwinOp → Except PyError (Option ExperimentJob) → Except PyError (Option ExperimentJob) →
      Twins → Prop where
  | call (op : TwinOp) (c c' : QueueCall) (hdraws : OneAtATime draws s)
      (hcalls : s.calls op = some (c, c'))
      (hscenarios : ∀ manifest scenarioIds, op = .schedule manifest scenarioIds →
        scenarioIds.Nodup) :
      TwinStep lib draws s op (ended ((inMemoryExperimentQueue lib).step draws c s.memory).1)
        (ended ((postgresExperimentQueue lib).step draws c' s.database).1)
        { s with
          memory := ((inMemoryExperimentQueue lib).step draws c s.memory).2
          database := ((postgresExperimentQueue lib).step draws c' s.database).2 }
  | claim (workerId : String) (r : Except PyError (Option ExperimentJob) × InMemoryQueue)
      (r' : Except PyError (Option ExperimentJob) × Database) (hdraws : OneAtATime draws s)
      (hmemory : InMemoryExperimentQueue.AnyClaim draws workerId s.memory r)
      (hdatabase : match draws.outage with
        | some e => r' = (.error e, s.database)
        | none => PostgresExperimentQueue.AnyClaim draws workerId s.database r')
      (hsame : ∀ job job', r.1 = .ok (some job) → r'.1 = .ok (some job') →
        job.jobId = job'.jobId) :
      TwinStep lib draws s (.claim workerId) r.1 r'.1
        ⟨r.2, r'.2, s.heldAfter r.1 r'.1⟩

/-- The claims of the two implementations, where both take the same job. -/
theorem twinStep_claim (lib : Stdlib) {draws : Draws} {s : Twins} (workerId : String)
    (hdraws : OneAtATime draws s) (houtage : draws.outage = none)
    {r : Except PyError (Option ExperimentJob) × InMemoryQueue}
    {r' : Except PyError (Option ExperimentJob) × Database}
    (hmemory : InMemoryExperimentQueue.claim draws workerId s.memory = r)
    (hdatabase : PostgresExperimentQueue.claim draws workerId s.database = r')
    (hsame : ∀ job job', r.1 = .ok (some job) → r'.1 = .ok (some job') → job.jobId = job'.jobId) :
    TwinStep lib draws s (.claim workerId) r.1 r'.1 ⟨r.2, r'.2, s.heldAfter r.1 r'.1⟩ := by
  refine .claim workerId r r' hdraws ?_ ?_ hsame
  · rw [← hmemory]
    exact InMemoryExperimentQueue.anyClaim_claim draws workerId s.memory
  · rw [houtage, ← hdatabase]
    exact PostgresExperimentQueue.anyClaim_claim draws workerId s.database

/-- The pairs of queues that operations with admitted draws lead to. -/
inductive TwinReach (lib : Stdlib) (ok : Twins → Draws → TwinOp → Prop) : Twins → Prop where
  | initial : TwinReach lib ok Twins.initial
  | step {s s' : Twins} {draws : Draws} {op : TwinOp}
      {r r' : Except PyError (Option ExperimentJob)} (hreach : TwinReach lib ok s)
      (hok : ok s draws op) (hstep : TwinStep lib draws s op r r' s') : TwinReach lib ok s'

/-- A status without the difference between LEASED and RUNNING. -/
def JobStatus.seen : JobStatus → JobStatus
  | .running => .leased
  | status => status

/-- What memory keeps for a job is the reservation of its row. Memory may also keep a reservation of 0 EUR, which
is none on PostgreSQL. -/
def SameReservation (row : ExperimentJobRecord) (kept : Option (UUID × ℚ)) : Prop :=
  kept = some (row.experimentId, row.reservedCostEur) ∨ kept = none ∧ row.reservedCostEur = 0

/-- What the two queues are compared by: the statuses of the jobs, the spent costs, the
outstanding reservations, the stopped experiments and the stored results. -/
structure SameView (s : Twins) : Prop where
  statuses : ∀ j, (s.memory.jobs.get? j).map (·.status.seen) =
    (s.database.jobs.get? j).map (·.status.seen)
  spent : ∀ e, InMemoryExperimentQueue.spent s.memory e =
    (s.database.manifests.get? e).elim 0 (·.costSpentEur)
  reserved : ∀ e, InMemoryExperimentQueue.reserved s.memory e =
    (s.database.manifests.get? e).elim 0 (·.costReservedEur)
  reservations : ∀ j job row, s.memory.jobs.get? j = some job →
    s.database.jobs.get? j = some row →
      SameReservation row (s.memory.reservations.get? job.sessionKey)
  stopped : ∀ e, e ∈ s.memory.stopped ↔
    ∃ m, s.database.manifests.get? e = some m ∧ m.stopRequested = true
  results : ∀ key, s.memory.results.get? key = (s.database.sessions.get? key).map (·.result)

/-- Two replies agree: both calls fail, both return no job, or both return the same job. -/
def SameReply : Except PyError (Option ExperimentJob) → Except PyError (Option ExperimentJob) → Prop
  | .ok none, .ok none => True
  | .ok (some job), .ok (some job') => job.jobId = job'.jobId
  | .error _, .error _ => True
  | _, _ => False

/-- The row of a job in progress. -/
def InProgress (row : ExperimentJobRecord) : Prop := row.status = .leased ∨ row.status = .running

/-- A call for a job meets none of the differences between the queues: a heartbeat of the owner
finds the job in progress, an amount is either refused by both queues, which then keep what they
have, or meets neither the stop flag nor the ceiling nor a rounding, and the same for the
back-off date of a failure. A job for which memory keeps 0 EUR reserves no other amount. -/
def JobOp.Alike (draws : Draws) (q : InMemoryQueue) (m : ExperimentRecord) (row : ExperimentJobRecord) :
    JobOp → Prop
  | .heartbeat workerId => row.leaseOwner = some workerId → InProgress row
  | .reserveCost amount => row.reservedCostEur = 0 →
      (m.stopRequested = true ∧ m.costCeilingEur < m.costSpentEur + m.costReservedEur + amount ∧
          q.reservations.get? row.sessionKey = none) ∨
        m.stopRequested = false ∧ m.costSpentEur + m.costReservedEur + amount ≤ m.costCeilingEur ∧
          (q.reservations.get? row.sessionKey = none ∨ amount = 0) ∧ OnGrid 4 amount ∧
            Fits 14 4 (m.costReservedEur + amount) ∧ Fits 14 6 amount
  | .complete _ cost =>
      (m.stopRequested = true ∧ row.reservedCostEur = 0 ∧
        m.costCeilingEur < m.costSpentEur + cost) ∨
        PostgresExperimentQueue.CompletionAccepted m row cost ∧ OnGrid 4 cost
  | .fail _ _ =>
      (row.reservedCostEur = 0 ∧ datetimeMax < second * retryDelay row.attemptCount + draws.now) ∨
        Fits 14 4 (m.costReservedEur - row.reservedCostEur) ∧
          second * retryDelay row.attemptCount + draws.now ≤ datetimeMax

/-- A schedule meets none of the differences between the queues: the experiment keeps its
manifest, everything fits its columns, and keys tell sessions apart. -/
structure ScheduleAlike (lib : Stdlib) (s : Twins) (manifest : ExperimentManifest)
    (scenarioIds : List String) : Prop where
  same : ∀ known ∈ s.memory.manifests.get? manifest.experimentId, known = manifest
  fits : manifest.name.length ≤ 200 ∧ OnGrid 4 manifest.costCeilingEur ∧
    Fits 14 4 manifest.costCeilingEur
  keys : ((scheduleKeys lib manifest scenarioIds).map (·.1)).Nodup
  rows : ∀ key ∈ scheduleKeys lib manifest scenarioIds,
    key.1.length ≤ 160 ∧ PostgresExperimentQueue.RowFits manifest key.2 ∧
      ∀ j row, s.database.jobs.get? j = some row → row.sessionKey = key.1 →
        row.experimentId = manifest.experimentId

/-- A claim meets none of the differences between the queues: no lease has expired, and where
there is a job to claim the lease ends before the last date and the worker's name fits its
column. -/
structure ClaimAlike (s : Twins) (draws : Draws) (workerId : String) : Prop where
  granted : (∃ j row, s.database.jobs.get? j = some row ∧
      PostgresExperimentQueue.Claimable draws s.database j row) →
    workerId.length ≤ 120 ∧ second * leaseSeconds + draws.now ≤ datetimeMax
  leases : ∀ j row, s.database.jobs.get? j = some row →
    (∃ m ∈ s.database.manifests.get? row.experimentId, m.stopRequested = false) →
      InProgress row → ∀ expires ∈ row.leaseExpiresAt, ¬expires < draws.now

/-- An operation with the database at hand that meets none of the differences between the
queues. -/
def Alike (lib : Stdlib) (s : Twins) (draws : Draws) (op : TwinOp) : Prop :=
  draws.outage = none ∧
    match op with
    | .schedule manifest scenarioIds => ScheduleAlike lib s manifest scenarioIds
    | .claim workerId => ClaimAlike s draws workerId
    | .job op => ∀ jobs ∈ s.held, ∀ row ∈ s.database.jobs.get? jobs.2.jobId,
        ∀ m ∈ s.database.manifests.get? row.experimentId, op.Alike draws s.memory m row
    | .stop experimentId => (s.memory.manifests.get? experimentId).isSome = true
    | .resume _ => True

/-- The queues agree on everything that has been done and that may be done next: they look the
same, any next operation of which it is admitted is answered alike, and a claim may take the
same jobs. -/
structure QueuesAgree (lib : Stdlib) (ok : Twins → Draws → TwinOp → Prop) (s : Twins) : Prop where
  view : SameView s
  replies : ∀ draws op r r' s', ok s draws op → TwinStep lib draws s op r r' s' → SameReply r r'
  picks : ∀ draws workerId j, ok s draws (.claim workerId) → OneAtATime draws s →
    ((∃ job r, InMemoryExperimentQueue.AnyClaim draws workerId s.memory (.ok (some job), r) ∧
        job.jobId = j) ↔
      ∃ job r, PostgresExperimentQueue.AnyClaim draws workerId s.database (.ok (some job), r) ∧
        job.jobId = j)

end Amlguard
