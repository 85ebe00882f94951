import Amlguard.Experiments.Queue
import Amlguard.Library.Dict
import Mathlib.Data.Finset.Basic

/-!
# The in-memory queue

Dictionaries in the memory of one process. A method runs without interruption, and an
exception leaves whatever was written before it: there is no transaction to roll back.
-/

namespace Amlguard

/-- The attributes of `InMemoryExperimentQueue`. -/
structure InMemoryQueue where
  manifests : Dict UUID ExperimentManifest
  jobs : Dict UUID ExperimentJob
  results : Dict String Json
  stopped : Finset UUID
  costs : Dict UUID ℚ
  reservations : Dict String (UUID × ℚ)

namespace InMemoryExperimentQueue

/-- `InMemoryExperimentQueue()`. -/
def initial : InMemoryQueue := ⟨.empty, .empty, .empty, ∅, .empty, .empty⟩

/-- The cost booked for an experiment. -/
def spent (q : InMemoryQueue) (experimentId : UUID) : ℚ := (q.costs.get? experimentId).getD 0

/-- The cost reserved for an experiment. -/
def reserved (q : InMemoryQueue) (experimentId : UUID) : ℚ :=
  q.reservations.sum fun _ r => if r.1 = experimentId then r.2 else 0

/-- Build the job of one session; its schema checks the values. -/
def newJob (manifest : ExperimentManifest) (fresh : UUID × Datetime)
    (key : String × String × String × ℕ) : Except PyError ExperimentJob := do
  let estimated ← estimatedJobCost manifest key.2.1
  if h : 1 ≤ key.2.2.2 ∧ 0 ≤ estimated then
    pure
      { jobId := fresh.1, experimentId := manifest.experimentId, sessionKey := key.1
        configurationId := key.2.1, scenarioId := key.2.2.1, repetition := key.2.2.2
        status := .pending, attemptCount := 0, maxAttempts := 3, leaseOwner := none
        leaseExpiresAt := none, notBefore := fresh.2, estimatedCostEur := estimated
        repetition_pos := h.1, maxAttempts_pos := by omega, cost_nonneg := h.2 }
  else .error (.validationError [])

/-- Add the jobs of the keys that are not known yet. -/
def addJobs (manifest : ExperimentManifest) (fresh : ℕ → UUID × Datetime) (existing : List String) :
    ℕ → List (String × String × String × ℕ) → InMemoryQueue → Except PyError Unit × InMemoryQueue
  | _, [], q => (.ok (), q)
  | i, key :: keys, q =>
    if key.1 ∈ existing then addJobs manifest fresh existing i keys q
    else
      match newJob manifest (fresh i) key with
      | .error e => (.error e, q)
      | .ok job =>
        addJobs manifest fresh existing (i + 1) keys { q with jobs := q.jobs.set job.jobId job }

/-- `InMemoryExperimentQueue.schedule`. -/
def schedule (lib : Stdlib) (draws : Draws) (manifest : ExperimentManifest)
    (scenarioIds : List String) (q : InMemoryQueue) : Except PyError ℕ × InMemoryQueue :=
  let q := { q with manifests := q.manifests.set manifest.experimentId manifest }
  let keys := lib.shuffle manifest.randomizationSeed (scheduleKeys lib manifest scenarioIds)
  let existing := q.jobs.values.map (·.sessionKey)
  match addJobs manifest draws.fresh existing 0 keys q with
  | (.error e, q) => (.error e, q)
  | (.ok _, q) => (.ok keys.length, q)

/-- The job that a claim hands out. -/
def leased (workerId : String) (expires : Datetime) (job : ExperimentJob) : ExperimentJob :=
  { job with
    status := .leased, leaseOwner := some workerId, leaseExpiresAt := some expires
    attemptCount := job.attemptCount + 1 }

/-- One iteration of the loop of `claim`: skip a stopped experiment, take a waiting job that is
due, put an expired lease back to pending. No result means that the loop goes on. -/
def visit (now : Datetime) (workerId : String) (jobId : UUID) (job : ExperimentJob)
    (q : InMemoryQueue) : Option (Except PyError (Option ExperimentJob)) × InMemoryQueue :=
  if job.experimentId ∈ q.stopped then (none, q)
  else if (job.status = .pending ∨ job.status = .retryWait) ∧ job.notBefore ≤ now then
    match addSeconds now leaseSeconds with
    | .error e => (some (.error e), q)
    | .ok expires =>
      (some (.ok (some (leased workerId expires job))),
        { q with jobs := q.jobs.set jobId (leased workerId expires job) })
  else if (job.status = .leased ∨ job.status = .running) ∧
      ∃ expires ∈ job.leaseExpiresAt, expires < now then
    (none, { q with jobs := q.jobs.set jobId { job with status := .pending, leaseOwner := none } })
  else (none, q)

/-- The loop of `claim` over the stored jobs. -/
def claimLoop (now : Datetime) (workerId : String) :
    List (UUID × ExperimentJob) → InMemoryQueue → Except PyError (Option ExperimentJob) × InMemoryQueue
  | [], q => (.ok none, q)
  | entry :: rest, q =>
    match visit now workerId entry.1 entry.2 q with
    | (some r, q) => (r, q)
    | (none, q) => claimLoop now workerId rest q

/-- `InMemoryExperimentQueue.claim`. -/
def claim (draws : Draws) (workerId : String) (q : InMemoryQueue) :
    Except PyError (Option ExperimentJob) × InMemoryQueue :=
  claimLoop draws.now workerId q.jobs.entries q

/-- `InMemoryExperimentQueue.heartbeat`. -/
def heartbeat (draws : Draws) (jobId : UUID) (workerId : String) (q : InMemoryQueue) :
    Except PyError Unit × InMemoryQueue :=
  match q.jobs.get? jobId with
  | none => (.error (.keyError (UUID.str jobId)), q)
  | some job =>
    if job.leaseOwner ≠ some workerId then (.error leaseNotOwned, q)
    else
      match addSeconds draws.now leaseSeconds with
      | .error e => (.error e, q)
      | .ok expires =>
        (.ok (), { q with jobs := q.jobs.set jobId { job with leaseExpiresAt := some expires } })

/-- `self.stopped.add(experiment_id)`. -/
def addStopped (experimentId : UUID) (q : InMemoryQueue) : InMemoryQueue :=
  { q with stopped := insert experimentId q.stopped }

/-- `InMemoryExperimentQueue.complete`: the reservation is dropped before the ceiling is tested. -/
def complete (job : ExperimentJob) (result : Json) (cost : ℚ) (q : InMemoryQueue) :
    Except PyError Unit × InMemoryQueue :=
  match q.manifests.get? job.experimentId with
  | none => (.error (.keyError (UUID.str job.experimentId)), q)
  | some manifest =>
    let spent := spent q job.experimentId
    let q := { q with reservations := q.reservations.erase job.sessionKey }
    if spent + cost > manifest.costCeilingEur then
      (.error ceilingExceeded, addStopped job.experimentId q)
    else
      let q := { q with
        costs := q.costs.set job.experimentId (spent + cost)
        results := if q.results.contains job.sessionKey then q.results
          else q.results.set job.sessionKey result }
      match q.jobs.get? job.jobId with
      | none => (.error (.keyError (UUID.str job.jobId)), q)
      | some current =>
        (.ok (), { q with jobs := q.jobs.set job.jobId { current with status := .succeeded } })

/-- `InMemoryExperimentQueue.reserve_cost`. -/
def reserveCost (job : ExperimentJob) (amount : ℚ) (q : InMemoryQueue) :
    Except PyError Unit × InMemoryQueue :=
  if q.reservations.contains job.sessionKey then (.ok (), q)
  else
    match q.manifests.get? job.experimentId with
    | none => (.error (.keyError (UUID.str job.experimentId)), q)
    | some manifest =>
      if spent q job.experimentId + reserved q job.experimentId + amount > manifest.costCeilingEur then
        (.error ceilingExceeded, addStopped job.experimentId q)
      else
        (.ok (), { q with
          reservations := q.reservations.set job.sessionKey (job.experimentId, amount) })

/-- The status that a failed attempt leaves, decided on the stored job. -/
def failedStatus (current : ExperimentJob) (retryable : Bool) : JobStatus :=
  if retryable = true ∧ current.attemptCount < current.maxAttempts then .retryWait else .failed

/-- `InMemoryExperimentQueue.fail`. -/
def fail (draws : Draws) (job : ExperimentJob) (retryable : Bool) (q : InMemoryQueue) :
    Except PyError Unit × InMemoryQueue :=
  let q := { q with reservations := q.reservations.erase job.sessionKey }
  match q.jobs.get? job.jobId with
  | none => (.error (.keyError (UUID.str job.jobId)), q)
  | some current =>
    match addSeconds draws.now (retryDelay current.attemptCount) with
    | .error e => (.error e, q)
    | .ok notBefore =>
      (.ok (), { q with
        jobs := q.jobs.set job.jobId
          { current with
            status := failedStatus current retryable, notBefore, leaseOwner := none
            leaseExpiresAt := none } })

/-- `InMemoryExperimentQueue.results_for`: the results whose key is one of the experiment's. -/
def resultsFor (experimentId : UUID) (q : InMemoryQueue) : Dict String Json :=
  let keys := (q.jobs.values.filter fun job => decide (job.experimentId = experimentId)).map
    (·.sessionKey)
  q.results.filterMap fun key result => if key ∈ keys then some result else none

/-- One call. -/
def perform (lib : Stdlib) (draws : Draws) :
    (c : QueueCall) → InMemoryQueue → Except PyError c.Reply × InMemoryQueue
  | .schedule manifest scenarioIds => schedule lib draws manifest scenarioIds
  | .claim workerId => claim draws workerId
  | .heartbeat jobId workerId => heartbeat draws jobId workerId
  | .reserveCost job amount => reserveCost job amount
  | .complete job result cost => complete job result cost
  | .fail job _ retryable => fail draws job retryable
  | .stop experimentId => fun q => (.ok (), addStopped experimentId q)
  | .resume experimentId => fun q =>
    (.ok (), { q with stopped := q.stopped.erase experimentId })

end InMemoryExperimentQueue

/-- The queue in memory. -/
abbrev inMemoryExperimentQueue (lib : Stdlib) : ExperimentQueue where
  State := InMemoryQueue
  initial := InMemoryExperimentQueue.initial
  step draws c q := InMemoryExperimentQueue.perform lib draws c q
  stopped q e := decide (e ∈ q.stopped)
  leaseOwner q j := (q.jobs.get? j).bind (·.leaseOwner)
  Footprint := Option ExperimentJob × Option Json × ℚ × ℚ
  footprint q job :=
    (q.jobs.get? job.jobId, q.results.get? job.sessionKey,
      InMemoryExperimentQueue.spent q job.experimentId,
      InMemoryExperimentQueue.reserved q job.experimentId)

end Amlguard
