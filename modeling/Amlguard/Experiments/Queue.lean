import Amlguard.Experiments.Domain

/-!
# The queue protocol

The operations that a queue offers to schedulers and workers, and what an execution draws
from outside: the clock, fresh identifiers, rows that other transactions hold locked, and a
lost connection. Each operation is one atomic step on the state of the queue.

Costs are rationals. The queues add and compare them as `Decimal` does as long as they have at most
seventeen decimals and the totals stay below `10 ^ 11` EUR, so that every sum has its digits among
the twenty-eight of the context; costs of more digits are left out.
-/

namespace Amlguard

/-- A call of `ExperimentQueue` that can write. -/
inductive QueueCall where
  | schedule (manifest : ExperimentManifest) (scenarioIds : List String)
  | claim (workerId : String)
  | heartbeat (jobId : UUID) (workerId : String)
  | reserveCost (job : ExperimentJob) (amount : ℚ)
  | complete (job : ExperimentJob) (result : Json) (cost : ℚ)
  | fail (job : ExperimentJob) (error : Json) (retryable : Bool)
  | stop (experimentId : UUID)
  | resume (experimentId : UUID)

/-- What a queue call returns. -/
@[reducible] def QueueCall.Reply : QueueCall → Type
  | .schedule _ _ => ℕ
  | .claim _ => Option ExperimentJob
  | _ => Unit

/-- What one execution of a queue call draws from its surroundings: the clock, the identifier
and clock reading of each new row, the jobs whose rows are locked, and a lost connection. -/
structure Draws where
  now : Datetime
  fresh : ℕ → UUID × Datetime
  locked : List UUID
  outage : Option PyError

/-- The default lease of `claim` and `heartbeat`, in seconds. -/
def leaseSeconds : ℕ := 120

/-- The exception of a cost ceiling. -/
def ceilingExceeded : PyError := .runtimeError "experiment cost ceiling would be exceeded"

/-- The exception of a stopped experiment. -/
def experimentStopped : PyError := .runtimeError "experiment is stopped"

/-- The exception of a heartbeat that does not own the lease. -/
def leaseNotOwned : PyError := .permissionError "worker does not own job lease"

/-- An implementation of the queue: its state, the atomic step of every call, and what can be
seen of a state: whether an experiment is stopped, who owns a job's lease, and the stored job,
its result and the cost totals that a call for a job concerns. -/
structure ExperimentQueue where
  State : Type
  initial : State
  step : Draws → (c : QueueCall) → State → Except PyError c.Reply × State
  stopped : State → UUID → Bool
  leaseOwner : State → UUID → Option String
  Footprint : Type
  footprint : State → ExperimentJob → Footprint

/-- The delay before a retry of a job: `2 ** attempt_count` seconds. -/
def retryDelay (attemptCount : ℕ) : ℕ := 2 ^ attemptCount

/-- The job that a successful claim hands out, with the worker that made it. -/
def issuedBy : (c : QueueCall) → Except PyError c.Reply → List (String × ExperimentJob)
  | .claim workerId, .ok (some job) => [(workerId, job)]
  | _, _ => []

/-- A call that raises hands out nothing. -/
theorem issuedBy_error (c : QueueCall) (e : PyError) : issuedBy c (.error e) = [] := by
  cases c <;> rfl

namespace ExperimentQueue

variable (Q : ExperimentQueue)

/-- The state after a sequence of calls, each with its own draws. -/
def after (s : Q.State) : List (Draws × QueueCall) → Q.State
  | [] => s
  | (draws, c) :: rest => after (Q.step draws c s).2 rest

/-- Two lists of calls, one after the other. -/
theorem after_append (s : Q.State) (calls calls' : List (Draws × QueueCall)) :
    Q.after s (calls ++ calls') = Q.after (Q.after s calls) calls' := by
  induction calls generalizing s with
  | nil => rfl
  | cons call rest ih => exact ih _

/-- A property that every call of a list keeps holds after the list. -/
theorem after_invariant {I : Q.State → Prop} {ok : QueueCall → Prop}
    (hstep : ∀ s draws c, ok c → I s → I (Q.step draws c s).2)
    (calls : List (Draws × QueueCall)) (hcalls : ∀ call ∈ calls, ok call.2) (s : Q.State)
    (h : I s) : I (Q.after s calls) := by
  induction calls generalizing s with
  | nil => exact h
  | cons call rest ih =>
    refine ih (fun c hc => hcalls c (List.mem_cons_of_mem _ hc)) _ ?_
    exact hstep s call.1 call.2 (hcalls call List.mem_cons_self) h

end ExperimentQueue

end Amlguard
