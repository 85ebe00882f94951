import Amlguard.Experiments.Rows

/-!
# The cost ceiling

`reserve_cost` admits an amount only while spent and reserved money together stay below the
ceiling, and `complete` tests the spent money alone, trusting that the amount it books was
reserved before. The two tests keep the sum below the ceiling exactly as long as that trust
is justified and as long as booking and releasing round in the same direction.

A re-claimed job shares one reservation between two workers. When both complete, the second
booking takes money that other jobs have reserved.
-/

namespace Amlguard

open Awaited Numeric PostgresExperimentQueue

/-- No experiment has committed more than its ceiling. -/
def WithinCeiling (db : Database) : Prop :=
  ∀ e m, db.manifests.get? e = some m → m.costSpentEur + m.costReservedEur ≤ m.costCeilingEur

/-- The handler of a job returns the job's declared cost. -/
def DeclaredCost {Q : ExperimentQueue} (_ : WorkerWorld Q) (o : WorkerDraws) : WorkerCall → Prop
  | .handler job => ∀ outcome ∈ o.handled.toOption, outcome.2 = job.estimatedCostEur
  | _ => True

instance {Q : ExperimentQueue} (w : WorkerWorld Q) (o : WorkerDraws) :
    (c : WorkerCall) → Decidable (DeclaredCost w o c)
  | .handler job =>
    inferInstanceAs (Decidable (∀ outcome ∈ o.handled.toOption, outcome.2 = job.estimatedCostEur))
  | .queue _ | .recordCompleted _ _ _ | .recordFailed _ _ _ | .beat _ | .cancelHeartbeat _ =>
    isTrue trivial

/-- A completion that the stop flag and the ceiling test let through finds the amount it
books in the job's reservation, and that amount is not halfway between two stored ones. -/
def BooksReservation (db : Database) : QueueCall → Prop
  | .complete job _ cost => ∀ manifest ∈ db.manifests.get? job.experimentId,
      ∀ row ∈ db.jobs.get? job.jobId, manifest.stopRequested = false →
        manifest.costSpentEur + cost ≤ manifest.costCeilingEur →
          row.reservedCostEur = cost ∧ ¬Tie 4 cost
  | _ => True

instance (db : Database) : (c : QueueCall) → Decidable (BooksReservation db c)
  | .complete job _ cost => inferInstanceAs (Decidable
      (∀ manifest ∈ db.manifests.get? job.experimentId, ∀ row ∈ db.jobs.get? job.jobId,
        manifest.stopRequested = false →
          manifest.costSpentEur + cost ≤ manifest.costCeilingEur →
            row.reservedCostEur = cost ∧ ¬Tie 4 cost))
  | .schedule _ _ | .claim _ | .heartbeat _ _ | .reserveCost _ _ | .fail _ _ _ | .stop _
  | .resume _ => isTrue trivial

/-- Every manifest keeps below its ceiling and no reservation is negative. -/
structure CoveredDb (db : Database) : Prop where
  within : WithinCeiling db
  reservations : ∀ j row, db.jobs.get? j = some row → 0 ≤ row.reservedCostEur

namespace CoveredDb

variable {db : Database}

/-- Writing a manifest that keeps below its ceiling keeps every manifest below its own. -/
theorem setManifest (h : CoveredDb db) (e : UUID) {m : ExperimentRecord}
    (hm : m.costSpentEur + m.costReservedEur ≤ m.costCeilingEur) :
    CoveredDb { db with manifests := db.manifests.set e m } := by
  refine ⟨fun e' m' h' => ?_, h.reservations⟩
  change (db.manifests.set e m).get? e' = some m' at h'
  rw [Dict.get?_set] at h'
  split at h'
  · cases h'
    exact hm
  · exact h.within e' m' h'

/-- Writing a job without a negative reservation keeps the reservations. -/
theorem setJob (h : CoveredDb db) (j : UUID) {row : ExperimentJobRecord}
    (hrow : 0 ≤ row.reservedCostEur) :
    CoveredDb { db with jobs := db.jobs.set j row } := by
  refine ⟨h.within, fun j' row' h' => ?_⟩
  change (db.jobs.set j row).get? j' = some row' at h'
  rw [Dict.get?_set] at h'
  split at h'
  · cases h'
    exact hrow
  · exact h.reservations j' row' h'

/-- Results do not matter to the amounts. -/
theorem setSessions (h : CoveredDb db) (sessions : Dict String ExperimentSessionRecord) :
    CoveredDb { db with sessions } := ⟨h.within, h.reservations⟩

/-- New jobs reserve nothing. -/
theorem inserts {manifest : ExperimentManifest} {db' : Database} (h : CoveredDb db)
    (hrows : Relation.ReflTransGen (Inserts manifest) db db') : CoveredDb db' := by
  induction hrows with
  | refl => exact h
  | tail _ hrow ih =>
    cases hrow with
    | row jobId notBefore key cost hfresh hkey hwidth hcost hgrid => exact ih.setJob jobId le_rfl

end CoveredDb

/-- Reserving below the ceiling stays below it after rounding. -/
theorem reserve_within {m : ExperimentRecord} (h : StoredAmounts m) {amount : ℚ}
    (hroom : m.costSpentEur + m.costReservedEur + amount ≤ m.costCeilingEur) :
    m.costSpentEur + roundTo 4 (m.costReservedEur + amount) ≤ m.costCeilingEur := by
  have hbound : roundTo 4 (m.costReservedEur + amount) ≤ m.costCeilingEur - m.costSpentEur :=
    roundTo_le (h.ceiling.sub h.spent) (by linarith)
  linarith

/-- Releasing a reservation only lowers the reserved total. -/
theorem release_within {m : ExperimentRecord} (h : StoredAmounts m)
    (hwithin : m.costSpentEur + m.costReservedEur ≤ m.costCeilingEur) {amount : ℚ}
    (hamount : 0 ≤ amount) :
    m.costSpentEur + roundTo 4 (m.costReservedEur - amount) ≤ m.costCeilingEur := by
  have hbound : roundTo 4 (m.costReservedEur - amount) ≤ m.costReservedEur :=
    roundTo_le h.reserved (by linarith)
  linarith

/-- Booking exactly the released reservation moves it from reserved to spent. -/
theorem book_within {m : ExperimentRecord} (h : StoredAmounts m)
    (hwithin : m.costSpentEur + m.costReservedEur ≤ m.costCeilingEur) {cost : ℚ}
    (htie : ¬Tie 4 cost) :
    roundTo 4 (m.costSpentEur + cost) + roundTo 4 (m.costReservedEur - cost) ≤
      m.costCeilingEur := by
  rw [roundTo_add h.spent htie, roundTo_sub h.reserved htie]
  linarith

/-- A call of a worker that books only what is reserved keeps every manifest below its ceiling. -/
theorem CoveredDb.effect {draws : Draws} {db db' : Database} {c : QueueCall}
    {r : Except PyError c.Reply} {issued : List (String × ExperimentJob)} (h : CoveredDb db)
    (hconsistent : Consistent db issued) (hissued : IssuedCall issued c)
    (hbooks : BooksReservation db c) (heffect : Effect draws db c r db') : CoveredDb db' := by
  cases heffect with
  | unchanged c r _ => exact h
  | scheduled manifest scenarioIds n db' hknown hrows => exact h.inserts hrows
  | created manifest scenarioIds n ceiling db' hnew hgrid hpos hrows =>
    exact (h.setManifest manifest.experimentId (by simpa [newManifest] using hpos)).inserts hrows
  | leased workerId jobId row r hrow hclaimable hreply =>
    exact h.setJob jobId (h.reservations jobId row hrow)
  | beat jobId workerId row expires hrow howner =>
    exact h.setJob jobId (h.reservations jobId row hrow)
  | reserved job amount manifest row hmanifest hrow hnone hroom =>
    have hamount : 0 ≤ amount := by
      rw [hissued.2]
      exact job.cost_nonneg
    have hwithin := reserve_within (hconsistent.stored _ _ hmanifest) hroom
    exact (h.setManifest job.experimentId hwithin).setJob job.jobId (roundTo_nonneg hamount)
  | completed job result cost manifest row sessions hmanifest hrow hrunning hroom hsessions =>
    obtain ⟨hreserved, htie⟩ := hbooks manifest hmanifest row hrow hrunning hroom
    have hwithin := book_within (hconsistent.stored _ _ hmanifest) (h.within _ _ hmanifest) htie
    rw [hreserved]
    exact ((h.setManifest job.experimentId hwithin).setJob job.jobId le_rfl).setSessions sessions
  | failed job error retryable manifest row notBefore hmanifest hrow hdelay =>
    have hwithin := release_within (hconsistent.stored _ _ hmanifest) (h.within _ _ hmanifest)
      (h.reservations _ _ hrow)
    exact (h.setManifest job.experimentId hwithin).setJob job.jobId le_rfl
  | flagged c r experimentId manifest flag status hcall hmanifest =>
    exact h.setManifest experimentId (h.within experimentId manifest hmanifest)

/-- The outcomes of workers that report the declared cost and book only reserved money, unless the
connection is lost. -/
def BookedRuns {lib : Stdlib} (w : WorkerWorld (postgresExperimentQueue lib)) (o : WorkerDraws)
    (c : WorkerCall) : Prop :=
  DeclaredCost w o c ∧
    ∀ call ∈ w.queueCall c, o.draws.outage = none → BooksReservation w.queue call

instance {lib : Stdlib} (w : WorkerWorld (postgresExperimentQueue lib)) (o : WorkerDraws)
    (c : WorkerCall) : Decidable (BookedRuns w o c) :=
  inferInstanceAs (Decidable (_ ∧
    ∀ call ∈ w.queueCall c, o.draws.outage = none → BooksReservation w.queue call))

/-- While every accepted completion books a reservation that is in place, every reachable
state of the queue stays within every ceiling. -/
theorem within_ceiling_of_booked (lib : Stdlib)
    (p : WorkerPool (postgresExperimentQueue lib))
    (hreach : (workerSystem (postgresExperimentQueue lib)).Reaches (Outcomes BookedRuns)
      (idleWorkers (postgresExperimentQueue lib)) p) : WithinCeiling p.world.queue := by
  have hcovered : Consistent p.world.queue p.world.issued ∧ CoveredDb p.world.queue := by
    refine worker_invariant (I := fun db issued => Consistent db issued ∧ CoveredDb db) ?_
      (fun w w' hcall h => ?_) hreach
    · exact ⟨Consistent.initial, fun _ _ h => (by cases h), fun _ _ h => (by cases h)⟩
    · obtain ⟨o, c, call, hok, hcalled, hissued, hqueue, hclaims⟩ := hcall
      have heffect := postgres_step_effect lib o.draws call w.queue
      rw [hqueue, hclaims]
      refine ⟨h.1.effect hissued heffect, ?_⟩
      cases houtage : o.draws.outage with
      | none => exact h.2.effect h.1 hissued (hok.2 call hcalled houtage) heffect
      | some e =>
        rw [postgres_step_lost lib houtage]
        exact h.2
  exact hcovered.2.within

/-- One worker schedules, claims and completes a job of 0.01 EUR. -/
def singleCompletion : List (Move WorkerOp WorkerDraws) :=
  [.start (.schedule (sampleManifest (1 / 100) (1 / 50) cent_nonneg twoCents_pos) ["REG-001"])] ++
  sampleMoves 0 1 0 0 ++ [.start (.runOnce "worker-1")] ++ sampleMoves 1 6 1 (1 / 100)

/-- A single completion stays within its ceiling. -/
theorem within_ceiling_of_booked_single :
    ∃ p, (workerSystem (postgresExperimentQueue sampleStdlib)).run
      (idleWorkers (postgresExperimentQueue sampleStdlib)) singleCompletion = some p ∧
        WithinCeiling p.world.queue := by
  obtain ⟨p, hp⟩ := Option.isSome_iff_exists.mp (show ((workerSystem (postgresExperimentQueue
    sampleStdlib)).run (idleWorkers (postgresExperimentQueue sampleStdlib))
      singleCompletion).isSome = true by decide +kernel)
  exact ⟨p, hp, within_ceiling_of_booked sampleStdlib p
    (System.reaches_of_run singleCompletion hp (by decide +kernel))⟩

/-- Two jobs of 0.01 EUR are reserved under a ceiling of 0.02 EUR; the lease of the first
expires while its worker runs, and both of its workers complete it. -/
def doubleCompletion : List (Move WorkerOp WorkerDraws) :=
  [.start (.schedule (sampleManifest (1 / 100) (1 / 50) cent_nonneg twoCents_pos)
    ["REG-001", "REG-002"])] ++ sampleMoves 0 1 0 0 ++
  [.start (.runOnce "worker-1")] ++ sampleMoves 1 3 1 0 ++
  [.start (.runOnce "worker-2")] ++ sampleMoves 2 3 2 0 ++
  [.start (.runOnce "worker-3")] ++ sampleMoves 3 5 200 (1 / 100) ++
  sampleMoves 1 2 201 (1 / 100)

/-- A job that two workers complete takes 0.03 EUR from a ceiling of 0.02 EUR. -/
theorem ceiling_exceeded_by_double_completion :
    ¬∀ (lib : Stdlib) (p : WorkerPool (postgresExperimentQueue lib)),
      (workerSystem (postgresExperimentQueue lib)).Reaches (Outcomes DeclaredCost)
        (idleWorkers (postgresExperimentQueue lib)) p → WithinCeiling p.world.queue := by
  intro h
  have hrun : ((workerSystem (postgresExperimentQueue sampleStdlib)).run
      (idleWorkers (postgresExperimentQueue sampleStdlib)) doubleCompletion).map
        (fun p => (Dict.get? (Database.manifests p.world.queue) 7).map fun m =>
          (m.costSpentEur + m.costReservedEur, m.costCeilingEur)) =
      some (some (3 / 100, 1 / 50)) := by decide +kernel
  obtain ⟨p, hp, hmanifest⟩ := Option.map_eq_some_iff.mp hrun
  obtain ⟨m, hm, hvalues⟩ := Option.map_eq_some_iff.mp hmanifest
  have hadmits : (workerSystem (postgresExperimentQueue sampleStdlib)).Admits
      (Outcomes DeclaredCost) (idleWorkers (postgresExperimentQueue sampleStdlib))
      doubleCompletion := by decide +kernel
  have hwithin := h sampleStdlib p (System.reaches_of_run doubleCompletion hp hadmits) 7 m hm
  rw [Prod.mk.injEq] at hvalues
  rw [hvalues.1, hvalues.2] at hwithin
  norm_num at hwithin

end Amlguard
