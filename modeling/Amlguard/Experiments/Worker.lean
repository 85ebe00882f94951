import Amlguard.Experiments.Queue
import Amlguard.Library.Dict
import Amlguard.Library.Pool

/-!
# Workers

A worker claims a job and runs `_process` on it: reserve the declared cost, send a first
heartbeat, start the background heartbeat, run the handler, complete, and report. Any
exception on the way, the reporting after `complete` included, is answered by `fail`, and
the background heartbeat is cancelled on every way out.

The pool interleaves any number of workers, schedulers and background heartbeats at their
awaited calls. Its world keeps the queue, the background heartbeats, and every job that a
claim has handed out.
-/

namespace Amlguard

open Awaited

/-- The calls that workers and schedulers await. -/
inductive WorkerCall where
  | queue (c : QueueCall)
  | handler (job : ExperimentJob)
  | recordCompleted (job : ExperimentJob) (result : Json) (cost : ℚ)
  | recordFailed (job : ExperimentJob) (errorType : String) (retryable : Bool)
  | beat (task : ℕ)
  | cancelHeartbeat (task : ℕ)

/-- What a worker's call returns. -/
@[reducible] def WorkerCall.Reply : WorkerCall → Type
  | .queue c => c.Reply
  | .handler _ => Json × ℚ
  | _ => Unit

/-- `asyncio.create_task(self._heartbeat(job))` of one task. -/
structure HeartbeatStart where
  task : ℕ
  workerId : String
  job : ExperimentJob

/-- Workers await queue calls and create background tasks. -/
abbrev workerSignature : Signature where
  Call := WorkerCall
  Reply := WorkerCall.Reply
  Fault := PyError
  Mark := HeartbeatStart

/-- The life of a background heartbeat. -/
inductive HeartbeatState where
  | beating
  | raised (e : PyError)
  | cancelled

/-- A background heartbeat: the claim it renews and what has become of it. -/
structure Heartbeat where
  workerId : String
  job : ExperimentJob
  state : HeartbeatState

/-- The shared world of the workers of one queue. `issued` records every claim. -/
structure WorkerWorld (Q : ExperimentQueue) where
  queue : Q.State
  issued : List (String × ExperimentJob)
  heartbeats : Dict ℕ Heartbeat

/-- What a call draws from outside: the draws of the queue, and the results of the handler
and of the reporting. -/
structure WorkerDraws where
  draws : Draws
  handled : Except PyError (Json × ℚ)
  reported : Except PyError Unit

namespace WorkerWorld

variable {Q : ExperimentQueue}

/-- Nothing has been scheduled or claimed. -/
def initial (Q : ExperimentQueue) : WorkerWorld Q := ⟨Q.initial, [], .empty⟩

/-- Perform one queue call, recording a claim. -/
def callQueue (draws : Draws) (c : QueueCall) (w : WorkerWorld Q) :
    Except PyError c.Reply × WorkerWorld Q :=
  let r := Q.step draws c w.queue
  (r.1, { w with queue := r.2, issued := issuedBy c r.1 ++ w.issued })

/-- Record what became of a background heartbeat. -/
def setHeartbeat (task : ℕ) (beat : Heartbeat) (w : WorkerWorld Q) : WorkerWorld Q :=
  { w with heartbeats := w.heartbeats.set task beat }

/-- One iteration of `_heartbeat`: an exception of the queue ends the task. -/
def beat (draws : Draws) (task : ℕ) (w : WorkerWorld Q) : WorkerWorld Q :=
  match w.heartbeats.get? task with
  | some ⟨workerId, job, .beating⟩ =>
    match w.callQueue draws (.heartbeat job.jobId workerId) with
    | (.ok _, w) => w
    | (.error e, w) => w.setHeartbeat task ⟨workerId, job, .raised e⟩
  | _ => w

/-- `heartbeat.cancel()` and `await heartbeat`, when there is one: an exception that ended
the background task is raised here. -/
def cancelHeartbeat (task : ℕ) (w : WorkerWorld Q) : Except PyError Unit × WorkerWorld Q :=
  match w.heartbeats.get? task with
  | some ⟨workerId, job, .beating⟩ => (.ok (), w.setHeartbeat task ⟨workerId, job, .cancelled⟩)
  | some ⟨_, _, .raised e⟩ => (.error e, w)
  | _ => (.ok (), w)

/-- The effect of one awaited call. -/
def perform (w : WorkerWorld Q) (o : WorkerDraws) :
    (c : WorkerCall) → Except PyError c.Reply × WorkerWorld Q
  | .queue c => w.callQueue o.draws c
  | .handler _ => (o.handled, w)
  | .recordCompleted _ _ _ => (o.reported, w)
  | .recordFailed _ _ _ => (o.reported, w)
  | .beat task => (.ok (), w.beat o.draws task)
  | .cancelHeartbeat task => w.cancelHeartbeat task

/-- Register the background heartbeat of a task. -/
def record (start : HeartbeatStart) (w : WorkerWorld Q) : WorkerWorld Q :=
  w.setHeartbeat start.task ⟨start.workerId, start.job, .beating⟩

/-- The queue call that performing a worker's call amounts to. -/
def queueCall (w : WorkerWorld Q) : WorkerCall → Option QueueCall
  | .queue c => some c
  | .beat task =>
    match w.heartbeats.get? task with
    | some ⟨workerId, job, .beating⟩ => some (.heartbeat job.jobId workerId)
    | _ => none
  | _ => none

end WorkerWorld

namespace ExperimentWorker

open Prog

/-- A program of a worker. -/
abbrev Work := Prog workerSignature

/-- The exceptions that a retry may cure. -/
def retryable (e : PyError) : Bool := e.isA "TimeoutError" || e.isA "ConnectionError"

/-- The error document of a failed attempt. -/
def errorDocument (e : PyError) : Json :=
  .object [("error_type", .string e.typeName),
    ("message", .string (String.ofList (e.message.toList.take 500)))]

/-- Await one call of the queue. -/
def queue (c : QueueCall) : Work c.Reply := call (S := workerSignature) (.queue c)

/-- The body of the `try` block of `_process`. -/
def attemptJob (task : ℕ) (workerId : String) (job : ExperimentJob) : Work Unit := do
  queue (.reserveCost job job.estimatedCostEur)
  queue (.heartbeat job.jobId workerId)
  note (S := workerSignature) ⟨task, workerId, job⟩
  let outcome ← call (S := workerSignature) (.handler job)
  queue (.complete job outcome.1 outcome.2)
  call (S := workerSignature) (.recordCompleted job outcome.1 outcome.2)

/-- The answer of `_process` to an exception. -/
def answer (job : ExperimentJob) (e : PyError) : Work Unit := do
  queue (.fail job (errorDocument e) (retryable e))
  call (S := workerSignature) (.recordFailed job e.typeName (retryable e))

/-- `ExperimentWorker._process`. -/
def process (task : ℕ) (workerId : String) (job : ExperimentJob) : Work Unit :=
  finally' (rescue (attemptJob task workerId job) (answer job))
    (call (S := workerSignature) (.cancelHeartbeat task))

/-- `ExperimentWorker.run_once`. -/
def runOnce (task : ℕ) (workerId : String) : Work Unit := do
  match ← queue (.claim workerId) with
  | none => pure ()
  | some job => process task workerId job

end ExperimentWorker

/-- What may be started on a queue: a worker's round, an iteration of the background
heartbeat of a round, and the operations of the experiment API. -/
inductive WorkerOp where
  | runOnce (workerId : String)
  | beat (task : ℕ)
  | schedule (manifest : ExperimentManifest) (scenarioIds : List String)
  | stop (experimentId : UUID)
  | resume (experimentId : UUID)

/-- The program of an operation. -/
def WorkerOp.program (task : ℕ) : WorkerOp → Prog workerSignature Unit
  | .runOnce workerId => ExperimentWorker.runOnce task workerId
  | .beat round => Prog.call (S := workerSignature) (.beat round)
  | .schedule manifest scenarioIds =>
    ExperimentWorker.queue (.schedule manifest scenarioIds) >>= fun _ => pure ()
  | .stop experimentId => ExperimentWorker.queue (.stop experimentId)
  | .resume experimentId => ExperimentWorker.queue (.resume experimentId)

/-- Workers, schedulers and background heartbeats on one queue. -/
def workerSystem (Q : ExperimentQueue) :
    System workerSignature (WorkerWorld Q) WorkerDraws WorkerOp where
  perform := WorkerWorld.perform
  record := WorkerWorld.record
  program := WorkerOp.program
  enroll _ _ w := w

/-- A pool of workers. -/
abbrev WorkerPool (Q : ExperimentQueue) := Pool workerSignature (WorkerWorld Q) WorkerOp

/-- A queue that no worker has used. -/
def idleWorkers (Q : ExperimentQueue) : WorkerPool Q := System.fresh (WorkerWorld.initial Q)

end Amlguard
