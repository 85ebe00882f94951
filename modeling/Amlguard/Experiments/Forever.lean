import Amlguard.Experiments.Issued
import Amlguard.Experiments.Postgres

/-!
# The worker's loop

`run_forever` claims jobs until it has as many tasks as its concurrency allows, waits until a task is done
or a second has passed, drops the tasks that are done, and begins again. When the kill switch is on it
claims no more and gathers the tasks that it still watches.

A fleet is any number of such loops on one queue, with the requests of the experiment API and the
background heartbeats between their steps. Each claim and the task that is made for its job are one round
of `run_once`, so a fleet is a pool of rounds and keeps whatever such pools keep.
-/

namespace Amlguard

open Awaited

/-- Where `run_forever` stands: at the claim of its inner loop, at `asyncio.wait` or `asyncio.sleep`, at
`asyncio.gather`, or at its end. -/
inductive ForeverPhase where
  | claiming
  | waiting
  | gathering
  | ended (result : Except PyError Unit)
deriving DecidableEq

/-- The loop has seen the kill switch, or it is at its end. -/
def ForeverPhase.Closing : ForeverPhase → Prop
  | .gathering | .ended _ => True
  | .claiming | .waiting => False

/-- A call of `run_forever`: its worker, and the tasks that it watches by their numbers. -/
structure RunForever where
  workerId : String
  concurrency : ℕ
  active : List ℕ
  phase : ForeverPhase

namespace RunForever

/-- The test of the inner loop: another claim, or the wait. -/
def claimOrWait (loop : RunForever) : RunForever :=
  { loop with phase := if loop.active.length < loop.concurrency then .claiming else .waiting }

/-- The head of the loop, where the kill switch is read and the tasks that are done are dropped. -/
def turn (loop : RunForever) (killed : Bool) (done : ℕ → Bool) : RunForever :=
  if killed then
    { loop with phase := if loop.active.isEmpty then .ended (.ok ()) else .gathering }
  else claimOrWait { loop with active := loop.active.filter fun n => !done n }

/-- `active.add(task)`, and the test of the inner loop again. -/
def watch (loop : RunForever) (task : ℕ) : RunForever :=
  claimOrWait { loop with active := loop.active ++ [task] }

/-- A loop that is to claim again has room for a task. -/
theorem room_claimOrWait (loop : RunForever) (h : loop.claimOrWait.phase = .claiming) :
    loop.claimOrWait.active.length < loop.claimOrWait.concurrency := by
  unfold claimOrWait at h ⊢
  split at h
  · assumption
  · cases h

/-- A loop that claims or waits has not ended. -/
theorem claimOrWait_ne_ended (loop : RunForever) (r : Except PyError Unit) :
    loop.claimOrWait.phase ≠ .ended r := by
  unfold claimOrWait
  split <;> simp

end RunForever

/-- What a number of a fleet stands for: the task of a job, a claim that has handed out none, or a
request. -/
inductive FleetOp where
  | process (loop : ℕ) (workerId : String) (job : ExperimentJob)
  | fruitless (workerId : String)
  | request (op : WorkerOp)

/-- It is a task of the loop. -/
def FleetOp.ofLoop (i : ℕ) : FleetOp → Bool
  | .process j _ _ => j == i
  | _ => false

/-- The claim that the task was made for. -/
def FleetOp.job : FleetOp → Option (String × ExperimentJob)
  | .process _ workerId job => some (workerId, job)
  | _ => none

/-- What is left of a task or a request. -/
structure FleetTask where
  op : FleetOp
  prog : ExperimentWorker.Work Unit

/-- The end of a task, when it is done. -/
def FleetTask.result (t : FleetTask) : Option (Except PyError Unit) :=
  match t.prog with
  | .done r => some r
  | _ => none

/-- The loops of several workers on one queue, and all claims and requests so far. -/
structure Fleet (Q : ExperimentQueue) where
  world : WorkerWorld Q
  tasks : List FleetTask
  loops : List RunForever

/-- What may happen next in a fleet: a worker starts its loop, a loop moves on from where it stands, a
request begins, or a task or request performs the call that it awaits. -/
inductive FleetMove where
  | enter (workerId : String) (concurrency : ℕ) (killed : Bool)
  | claim (loop : ℕ) (outcome : WorkerDraws)
  | wake (loop : ℕ) (killed : Bool)
  | gathered (loop : ℕ) (failed : Option ℕ)
  | request (op : WorkerOp)
  | advance (task : ℕ) (outcome : WorkerDraws)

namespace Fleet

variable {Q : ExperimentQueue}

/-- No worker has started. -/
def idle (Q : ExperimentQueue) : Fleet Q := ⟨WorkerWorld.initial Q, [], []⟩

/-- The end of the task of a number, when it is done. -/
def resultOf (f : Fleet Q) (n : ℕ) : Option (Except PyError Unit) := f.tasks[n]? >>= FleetTask.result

/-- `task.done()`. -/
def done (f : Fleet Q) (n : ℕ) : Bool := (f.resultOf n).isSome

/-- Add a task or a request, up to the first call that it awaits. -/
def begin (f : Fleet Q) (op : FleetOp) (prog : ExperimentWorker.Work Unit) (w : WorkerWorld Q) :
    Fleet Q :=
  let q := (workerSystem Q).rest prog w
  { f with world := q.2, tasks := f.tasks ++ [⟨op, q.1⟩] }

/-- Write where a loop stands. -/
def setLoop (f : Fleet Q) (i : ℕ) (loop : RunForever) : Fleet Q :=
  { f with loops := f.loops.set i loop }

/-- The claim of a loop has returned or raised. -/
def claimed (f : Fleet Q) (i : ℕ) (loop : RunForever)
    (r : Except PyError (Option ExperimentJob) × WorkerWorld Q) : Fleet Q :=
  match r.1 with
  | .error e =>
    (f.begin (.fruitless loop.workerId) (.done (.error e)) r.2).setLoop i
      { loop with phase := .ended (.error e) }
  | .ok none =>
    (f.begin (.fruitless loop.workerId) (.done (.ok ())) r.2).setLoop i { loop with phase := .waiting }
  | .ok (some job) =>
    (f.begin (.process i loop.workerId job)
      (ExperimentWorker.process f.tasks.length loop.workerId job) r.2).setLoop i
        (loop.watch f.tasks.length)

/-- How `asyncio.gather` ends, when it can end so: with the exception of a watched task, or when all of
them have returned. -/
def gatherResult (f : Fleet Q) (active : List ℕ) : Option ℕ → Option (Except PyError Unit)
  | some n =>
    match f.resultOf n with
    | some (.error e) => if n ∈ active then some (.error e) else none
    | _ => none
  | none =>
    if active.all fun n => (f.resultOf n).any Except.isOk then some (.ok ()) else none

/-- The effect of one move, when the fleet admits it. -/
def move (f : Fleet Q) : FleetMove → Option (Fleet Q)
  | .enter workerId concurrency killed =>
    some { f with
      loops := f.loops ++ [RunForever.turn ⟨workerId, concurrency, [], .waiting⟩ killed f.done] }
  | .claim i o =>
    f.loops[i]?.bind fun loop =>
      if loop.phase = .claiming then
        some (f.claimed i loop (f.world.callQueue o.draws (.claim loop.workerId)))
      else none
  | .wake i killed =>
    f.loops[i]?.bind fun loop =>
      if loop.phase = .waiting then some (f.setLoop i (loop.turn killed f.done)) else none
  | .gathered i failed =>
    f.loops[i]?.bind fun loop =>
      if loop.phase = .gathering then
        (f.gatherResult loop.active failed).map fun r => f.setLoop i { loop with phase := .ended r }
      else none
  | .request op => some (f.begin (.request op) (op.program f.tasks.length) f.world)
  | .advance n o =>
    match f.tasks[n]? with
    | some ⟨op, .await c k⟩ =>
      let r := f.world.perform o c
      let q := (workerSystem Q).rest (k r.1) r.2
      some { f with world := q.2, tasks := f.tasks.set n ⟨op, q.1⟩ }
    | _ => none

end Fleet

/-! A fleet as a pool of rounds: a claim and what it has led to are one round of `run_once`. -/

/-- The operation of a pool that a number of a fleet stands for. -/
def FleetOp.round : FleetOp → WorkerOp
  | .process _ workerId _ => .runOnce workerId
  | .fruitless workerId => .runOnce workerId
  | .request op => op

/-- The round that a task of a fleet belongs to. -/
def FleetTask.round (t : FleetTask) : Task workerSignature WorkerOp := ⟨t.op.round, t.prog⟩

/-- What the requirement on outcomes means for a move of a fleet. -/
def FleetMove.Allowed {Q : ExperimentQueue} (ok : WorkerWorld Q → WorkerDraws → WorkerCall → Prop)
    (f : Fleet Q) : FleetMove → Prop
  | .claim i o => ∀ loop ∈ f.loops[i]?, ok f.world o (.queue (.claim loop.workerId))
  | .advance n o => ∀ t ∈ f.tasks[n]?, ∀ c k, t.prog = .await c k → ok f.world o c
  | _ => True

namespace Fleet

variable {Q : ExperimentQueue} {ok : WorkerWorld Q → WorkerDraws → WorkerCall → Prop} {f g : Fleet Q}

/-- One move that the assumptions on outcomes allow. -/
def Step (ok : WorkerWorld Q → WorkerDraws → WorkerCall → Prop) (f g : Fleet Q) : Prop :=
  ∃ m : FleetMove, m.Allowed ok f ∧ f.move m = some g

/-- The fleets that allowed moves reach. -/
def Reaches (ok : WorkerWorld Q → WorkerDraws → WorkerCall → Prop) : Fleet Q → Fleet Q → Prop :=
  Relation.ReflTransGen (Step ok)

/-- The effect of a list of moves, when each is admitted in turn. -/
def run (f : Fleet Q) : List FleetMove → Option (Fleet Q)
  | [] => some f
  | m :: rest => (f.move m).bind fun g => g.run rest

/-- A list of moves reaches the fleet that it computes. -/
theorem reaches_of_run (moves : List FleetMove) (h : f.run moves = some g) : Reaches AnyOutcome f g := by
  induction moves generalizing f with
  | nil =>
    cases h
    exact .refl
  | cons m rest ih =>
    obtain ⟨mid, hmove, hrest⟩ := Option.bind_eq_some_iff.mp h
    have hallowed : m.Allowed AnyOutcome f := by cases m <;> simp [FleetMove.Allowed, AnyOutcome]
    exact .head ⟨m, hallowed, hmove⟩ (ih hrest)

/-- An advance performs the awaited call of a task and settles the continuation. -/
theorem move_advance {n : ℕ} {o : WorkerDraws} (h : f.move (.advance n o) = some g) :
    ∃ op c k, f.tasks[n]? = some ⟨op, .await c k⟩ ∧
      g = { f with
        world := ((workerSystem Q).rest (k (f.world.perform o c).1) (f.world.perform o c).2).2
        tasks := f.tasks.set n
          ⟨op, ((workerSystem Q).rest (k (f.world.perform o c).1) (f.world.perform o c).2).1⟩ } := by
  cases htask : f.tasks[n]? with
  | none => simp [move, htask] at h
  | some t =>
    obtain ⟨op, prog⟩ := t
    cases prog with
    | done r => simp [move, htask] at h
    | mark m rest => simp [move, htask] at h
    | await c k => exact ⟨op, c, k, rfl, by simpa [move, htask] using h.symm⟩

/-- The pool of the rounds of a fleet. -/
def pool (f : Fleet Q) : WorkerPool Q := ⟨f.world, f.tasks.map FleetTask.round⟩

/-- A request is an operation of the pool. -/
theorem pool_request (f : Fleet Q) (op : WorkerOp) :
    (workerSystem Q).move f.pool (.start op) =
      some (f.begin (.request op) (op.program f.tasks.length) f.world).pool := by
  rw [System.move_start]
  simp [pool, begin, FleetTask.round, FleetOp.round, workerSystem]

/-- What a round does once its claim has returned or raised. -/
def afterClaim (n : ℕ) (workerId : String) : Except PyError (Option ExperimentJob) →
    ExperimentWorker.Work Unit
  | .error e => .done (.error e)
  | .ok none => .done (.ok ())
  | .ok (some job) => ExperimentWorker.process n workerId job

/-- A round awaits its claim first. -/
theorem runOnce_eq (n : ℕ) (workerId : String) :
    ExperimentWorker.runOnce n workerId = .await (.queue (.claim workerId)) (afterClaim n workerId) := by
  change Prog.await _ _ = Prog.await _ _
  congr 1
  funext r
  cases r with
  | error e => rfl
  | ok found => cases found <;> rfl

/-- A round that is begun for a claim awaits that claim. -/
theorem pool_round (f : Fleet Q) (workerId : String) :
    (workerSystem Q).move f.pool (.start (.runOnce workerId)) =
      some ⟨f.world, f.pool.tasks ++ [⟨.runOnce workerId,
        .await (.queue (.claim workerId)) (afterClaim f.pool.tasks.length workerId)⟩]⟩ := by
  rw [System.move_start, ← runOnce_eq]
  rfl

/-- The first call of a round does to the pool what the claim of the loop does to the fleet. -/
theorem pool_claimed (f : Fleet Q) (i : ℕ) (loop : RunForever) (o : WorkerDraws) :
    (workerSystem Q).move ⟨f.world, f.pool.tasks ++ [⟨.runOnce loop.workerId,
        .await (.queue (.claim loop.workerId)) (afterClaim f.pool.tasks.length loop.workerId)⟩]⟩
      (.advance f.pool.tasks.length o) =
        some (f.claimed i loop (f.world.callQueue o.draws (.claim loop.workerId))).pool := by
  have hlength : f.pool.tasks.length = f.tasks.length := by simp [pool]
  have htasks (t : FleetTask) : (f.tasks ++ [t]).map FleetTask.round = f.pool.tasks ++ [t.round] := by
    simp [pool]
  have hset (t t' : Task workerSignature WorkerOp) :
      (f.pool.tasks ++ [t]).set f.pool.tasks.length t' = f.pool.tasks ++ [t'] := by
    simp
  have hperform : (workerSystem Q).perform f.world o (.queue (.claim loop.workerId)) =
      f.world.callQueue o.draws (.claim loop.workerId) := rfl
  simp only [System.move, List.getElem?_concat_length]
  rw [hset, hperform, hlength]
  obtain ⟨r, w⟩ := f.world.callQueue o.draws (.claim loop.workerId)
  cases r with
  | error e =>
    simp only [claimed, begin, setLoop, afterClaim, pool, htasks]
    rfl
  | ok found =>
    cases found with
    | none =>
      simp only [claimed, begin, setLoop, afterClaim, pool, htasks]
      rfl
    | some job =>
      simp only [claimed, begin, setLoop, afterClaim, pool, htasks]
      rfl

/-- Moving a loop on leaves the pool alone. -/
@[simp] theorem pool_setLoop (f : Fleet Q) (i : ℕ) (loop : RunForever) : (f.setLoop i loop).pool = f.pool :=
  rfl

/-- A move of a fleet is no move of its pool, one move, or the beginning and the claim of a round. -/
theorem pool_step (h : Step ok f g) : (workerSystem Q).Reaches (Outcomes ok) f.pool g.pool := by
  obtain ⟨m, hallowed, hmove⟩ := h
  cases m with
  | enter workerId concurrency killed =>
    cases hmove
    exact .refl
  | claim i o =>
    obtain ⟨loop, hloop, hmove⟩ := Option.bind_eq_some_iff.mp hmove
    split at hmove
    · cases hmove
      have hawaits (c : WorkerCall) (hc : c ∈ Pool.awaits (⟨f.world, f.pool.tasks ++
          [⟨.runOnce loop.workerId, .await (.queue (.claim loop.workerId))
            (afterClaim f.pool.tasks.length loop.workerId)⟩]⟩ : WorkerPool Q) f.pool.tasks.length) :
          ok f.world o c := by
        simp only [Pool.awaits, List.getElem?_concat_length, Option.mem_def, Option.some.injEq] at hc
        subst hc
        exact hallowed loop hloop
      have hround := pool_round f loop.workerId
      have hclaim := pool_claimed f i loop o
      exact .head ⟨.start _, trivial, hround⟩ (.single ⟨.advance _ o, hawaits, hclaim⟩)
    · cases hmove
  | wake i killed =>
    obtain ⟨loop, hloop, hmove⟩ := Option.bind_eq_some_iff.mp hmove
    split at hmove
    · cases hmove
      exact .refl
    · cases hmove
  | gathered i failed =>
    obtain ⟨loop, hloop, hmove⟩ := Option.bind_eq_some_iff.mp hmove
    split at hmove
    · obtain ⟨r, hr, rfl⟩ := Option.map_eq_some_iff.mp hmove
      exact .refl
    · cases hmove
  | request op =>
    cases hmove
    exact .single ⟨.start op, trivial, pool_request f op⟩
  | advance n o =>
    obtain ⟨op, c, k, htask, rfl⟩ := move_advance hmove
    have hround : f.pool.tasks[n]? = some ⟨op.round, .await c k⟩ := by simp [pool, htask, FleetTask.round]
    refine .single ⟨.advance n o, ?_, ?_⟩
    · intro c' hc'
      simp only [Pool.awaits, hround, Option.mem_def, Option.some.injEq] at hc'
      subst hc'
      exact hallowed _ htask _ _ rfl
    · simp only [System.move, hround]
      simp [pool, List.map_set, FleetTask.round, workerSystem]

/-- Every fleet that is reached is, seen as a pool of rounds, a pool that rounds reach. -/
theorem pool_reaches (h : Reaches ok f g) : (workerSystem Q).Reaches (Outcomes ok) f.pool g.pool := by
  induction h with
  | refl => exact .refl
  | tail hprior hstep ih => exact ih.trans (pool_step hstep)

end Fleet

/-- A fleet is a pool of rounds of `run_once`: whatever is reached by loops that claim and make tasks is,
task by task and with the same queue, reached by rounds under the same assumptions. -/
theorem forever_simulated {Q : ExperimentQueue} {ok : WorkerWorld Q → WorkerDraws → WorkerCall → Prop}
    (f : Fleet Q) (hreach : Fleet.Reaches ok (Fleet.idle Q) f) :
    (workerSystem Q).Reaches (Outcomes ok) (idleWorkers Q) f.pool := Fleet.pool_reaches hreach

/-- One worker with room for one task claims and completes a job and is then switched off. -/
def drainedLoop : List FleetMove :=
  [.request (.schedule (sampleManifest (1 / 100) (1 / 50) cent_nonneg twoCents_pos) ["REG-001"]),
    .advance 0 (sampleDraws 0 0), .enter "worker-1" 1 false, .claim 0 (sampleDraws 1 0)] ++
  List.replicate 6 (.advance 1 (sampleDraws 1 (1 / 100))) ++ [.wake 0 true, .gathered 0 none]

/-- The claim and the task of the worker that is switched off are one round. -/
theorem forever_simulated_drained :
    ∃ f, (Fleet.idle (postgresExperimentQueue sampleStdlib)).run drainedLoop = some f ∧
      (workerSystem (postgresExperimentQueue sampleStdlib)).Reaches (Outcomes AnyOutcome)
        (idleWorkers (postgresExperimentQueue sampleStdlib)) f.pool := by
  obtain ⟨f, hf⟩ := Option.isSome_iff_exists.mp (show ((Fleet.idle
    (postgresExperimentQueue sampleStdlib)).run drainedLoop).isSome = true by decide +kernel)
  exact ⟨f, hf, forever_simulated f (Fleet.reaches_of_run drainedLoop hf)⟩

end Amlguard
