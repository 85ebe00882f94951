import Amlguard.Experiments.Fencing
import Amlguard.Experiments.Leases

/-!
# Stopping and resuming an experiment

`claim` passes a stopped experiment over, and a resume makes its jobs claimable again. A job
that is already claimed meets the stop in `reserve_cost` or in `complete`: both raise, the
worker takes that for a failure of the job, and what is no timeout is never tried again.

A worker that meets the stop in neither place finishes its job, or loses its connection and puts the
job back for another attempt. A worker holds the lease of its job until then: workers hold the leases
of different jobs, and none takes a lease over, so no heartbeat is refused and `fail` is only called
for a retry. Every job keeps waiting, is in progress or has succeeded.
-/

namespace Amlguard

open Awaited Numeric PostgresExperimentQueue

/-- A job that no stop has lost: it has succeeded, a worker has claimed it, or it can be claimed
as soon as it is due in an experiment that is not stopped. -/
def NotLost (db : Database) (j : UUID) (row : ExperimentJobRecord) : Prop :=
  row.status = .succeeded ∨ (row.status = .leased ∨ row.status = .running) ∨
    ∀ draws : Draws, (∃ m ∈ db.manifests.get? row.experimentId, m.stopRequested = false) →
      row.notBefore ≤ draws.now → j ∉ draws.locked → Claimable draws db j row

/-- No job has failed, and none is lost. -/
def NoneLost (db : Database) : Prop :=
  ∀ j row, db.jobs.get? j = some row → row.status ≠ .failed ∧ NotLost db j row

/-- The handler does not raise, no claim takes over an expired lease, and no amount exceeds the
ceiling. -/
def Untroubled {lib : Stdlib} (w : WorkerWorld (postgresExperimentQueue lib)) (o : WorkerDraws) :
    WorkerCall → Prop
  | .handler _ => ∃ r, o.handled = .ok r
  | .queue (.claim _) => ∀ found ∈ candidate o.draws w.queue,
      ¬(found.2.status = .leased ∨ found.2.status = .running)
  | .queue (.reserveCost job amount) => ∀ m ∈ w.queue.manifests.get? job.experimentId,
      ∀ row ∈ w.queue.jobs.get? job.jobId, row.reservedCostEur = 0 →
        m.costSpentEur + m.costReservedEur + amount ≤ m.costCeilingEur
  | .queue (.complete job _ cost) => ∀ m ∈ w.queue.manifests.get? job.experimentId,
      m.costSpentEur + cost ≤ m.costCeilingEur
  | _ => True

/-- A lost connection may be tried again: a retry may cure its exception, and the job has attempts
left. -/
def Retried (o : WorkerDraws) (db : Database) (j : UUID) : Prop :=
  ∀ e ∈ o.draws.outage, ExperimentWorker.retryable e = true ∧
    ∀ row ∈ db.jobs.get? j, row.attemptCount < row.maxAttempts

instance (o : WorkerDraws) (db : Database) (j : UUID) : Decidable (Retried o db j) :=
  inferInstanceAs (Decidable (∀ e ∈ o.draws.outage, _ ∧ ∀ row ∈ db.jobs.get? j, _ < _))

/-- The call of a claimed job loses its connection with attempts left, or it meets no stopped
experiment and no overflow of a column or of the clock; and the reporting does not raise. -/
def Unstopped {lib : Stdlib} (w : WorkerWorld (postgresExperimentQueue lib)) (o : WorkerDraws) :
    WorkerCall → Prop
  | .queue (.reserveCost job amount) => Retried o w.queue job.jobId ∧ (o.draws.outage = none →
      ∀ m ∈ w.queue.manifests.get? job.experimentId, ∀ row ∈ w.queue.jobs.get? job.jobId,
        row.reservedCostEur = 0 → m.stopRequested = false ∧
          Fits 14 4 (m.costReservedEur + amount) ∧ Fits 14 6 amount)
  | .queue (.heartbeat jobId _) => Retried o w.queue jobId ∧ (o.draws.outage = none →
      second * leaseSeconds + o.draws.now ≤ datetimeMax)
  | .queue (.complete job _ cost) => Retried o w.queue job.jobId ∧ (o.draws.outage = none →
      ∀ m ∈ w.queue.manifests.get? job.experimentId, ∀ row ∈ w.queue.jobs.get? job.jobId,
        m.stopRequested = false ∧ Fits 14 4 (m.costReservedEur - row.reservedCostEur) ∧
          Fits 14 4 (m.costSpentEur + cost) ∧ Fits 14 6 cost)
  | .recordCompleted _ _ _ => o.reported = .ok ()
  | _ => True

section Decidable

variable {lib : Stdlib} (w : WorkerWorld (postgresExperimentQueue lib)) (o : WorkerDraws)

instance : (c : WorkerCall) → Decidable (Untroubled w o c)
  | .handler _ => 
    match h : o.handled with
    | .ok r => isTrue ⟨r, h⟩
    | .error e => isFalse fun ⟨r, hr⟩ => by rw [h] at hr; cases hr
  | .queue (.claim _) => inferInstanceAs (Decidable (∀ found ∈ candidate o.draws w.queue,
      ¬(found.2.status = .leased ∨ found.2.status = .running)))
  | .queue (.reserveCost job amount) => inferInstanceAs (Decidable
      (∀ m ∈ w.queue.manifests.get? job.experimentId, ∀ row ∈ w.queue.jobs.get? job.jobId,
        row.reservedCostEur = 0 → m.costSpentEur + m.costReservedEur + amount ≤ m.costCeilingEur))
  | .queue (.complete job _ cost) => inferInstanceAs (Decidable
      (∀ m ∈ w.queue.manifests.get? job.experimentId, m.costSpentEur + cost ≤ m.costCeilingEur))
  | .queue (.schedule _ _) | .queue (.heartbeat _ _) | .queue (.fail _ _ _) | .queue (.stop _)
  | .queue (.resume _) | .recordCompleted _ _ _ | .recordFailed _ _ _ | .beat _
  | .cancelHeartbeat _ => isTrue trivial

instance : (c : WorkerCall) → Decidable (Unstopped w o c)
  | .queue (.reserveCost job amount) => inferInstanceAs (Decidable
      (Retried o w.queue job.jobId ∧ (o.draws.outage = none →
        ∀ m ∈ w.queue.manifests.get? job.experimentId, ∀ row ∈ w.queue.jobs.get? job.jobId,
          row.reservedCostEur = 0 → m.stopRequested = false ∧
            Fits 14 4 (m.costReservedEur + amount) ∧ Fits 14 6 amount)))
  | .queue (.heartbeat jobId _) => inferInstanceAs (Decidable (Retried o w.queue jobId ∧
      (o.draws.outage = none → second * leaseSeconds + o.draws.now ≤ datetimeMax)))
  | .queue (.complete job _ cost) => inferInstanceAs (Decidable
      (Retried o w.queue job.jobId ∧ (o.draws.outage = none →
        ∀ m ∈ w.queue.manifests.get? job.experimentId, ∀ row ∈ w.queue.jobs.get? job.jobId,
          m.stopRequested = false ∧ Fits 14 4 (m.costReservedEur - row.reservedCostEur) ∧
            Fits 14 4 (m.costSpentEur + cost) ∧ Fits 14 6 cost)))
  | .recordCompleted _ _ _ => inferInstanceAs (Decidable (o.reported = .ok ()))
  | .queue (.schedule _ _) | .queue (.claim _) | .queue (.fail _ _ _) | .queue (.stop _)
  | .queue (.resume _) | .handler _ | .recordFailed _ _ _ | .beat _ | .cancelHeartbeat _ =>
    isTrue trivial

end Decidable

/-- The outcomes of runs in which no worker meets a stop between its claim and its completion. -/
def UnhinderedRuns {lib : Stdlib} (w : WorkerWorld (postgresExperimentQueue lib))
    (o : WorkerDraws) (c : WorkerCall) : Prop :=
  Untroubled w o c ∧ Unstopped w o c

instance {lib : Stdlib} (w : WorkerWorld (postgresExperimentQueue lib)) (o : WorkerDraws)
    (c : WorkerCall) : Decidable (UnhinderedRuns w o c) :=
  inferInstanceAs (Decidable (_ ∧ _))

section Worker

variable {lib : Stdlib} {claim : String × ExperimentJob}

/-- The tables are consistent, leases are held for issued claims, and a job that has failed on the way
has attempts left. -/
structure LeasesWorld (φ : ℕ → Lease) (w : WorkerWorld (postgresExperimentQueue lib)) : Prop where
  heartbeats : HeartbeatsIssued w
  consistent : Consistent w.queue w.issued
  leases : LeasesDb φ w.queue
  issued : ∀ i claim, (φ i).claim = some claim → claim ∈ w.issued
  spare : ∀ i claim, φ i = .failing claim → claim.2.attemptCount < claim.2.maxAttempts

/-- A call of an attempt raises only what a retry may cure, and only with attempts left. -/
def Spared {α : Type} (claim : String × ExperimentJob) (r : Except PyError α) : Prop :=
  ∀ e, r = .error e →
    ExperimentWorker.retryable e = true ∧ claim.2.attemptCount < claim.2.maxAttempts

namespace LeasesWorld

variable {φ : ℕ → Lease} {w w' : WorkerWorld (postgresExperimentQueue lib)} {o : WorkerDraws} {i : ℕ}

/-- The row of a job whose lease is held, and its manifest. -/
theorem exists_row (h : LeasesWorld φ w) (hi : φ i = .held claim) : ∃ row m,
    w.queue.jobs.get? claim.2.jobId = some row ∧
      w.queue.manifests.get? claim.2.experimentId = some m ∧ CopyOf claim.2 row ∧
        row.leaseOwner = some claim.1 := by
  have hclaim : (φ i).claim = some claim := by rw [hi, Lease.claim]
  obtain ⟨row, hrow, howner, -⟩ := h.leases.held i claim hclaim
  obtain ⟨found, hfound, hcopy⟩ := h.consistent.copies claim (h.issued i claim hclaim)
  rw [hrow] at hfound
  cases hfound
  obtain ⟨m, hm⟩ := Option.isSome_iff_exists.mp (h.consistent.manifestOf _ row hrow)
  rw [hcopy.experimentId] at hm
  exact ⟨row, m, hrow, hm, hcopy, howner⟩

/-- A call whose block commits unless the connection is lost. -/
theorem spared_of_block (h : LeasesWorld φ w) (hi : φ i = .held claim) {c : QueueCall}
    {block : Database → Except PyError (c.Reply × Database)}
    (hperform : perform lib o.draws c = Database.session block)
    (hretried : Retried o w.queue claim.2.jobId)
    (hblock : o.draws.outage = none → ∃ r, block w.queue = .ok r) :
    Spared claim (w.callQueue o.draws c).1 := by
  intro e he
  cases houtage : o.draws.outage with
  | none =>
    obtain ⟨r, hr⟩ := hblock houtage
    simp only [WorkerWorld.callQueue, houtage, hperform, Database.session, hr] at he
    cases he
  | some lost =>
    rw [WorkerWorld.callQueue, postgres_step_lost lib houtage] at he
    cases he
    obtain ⟨row, _, hrow, -, hcopy, -⟩ := h.exists_row hi
    obtain ⟨hretryable, hleft⟩ := hretried e houtage
    refine ⟨hretryable, hcopy.attemptCount.trans_lt ?_⟩
    rw [← hcopy.maxAttempts]
    exact hleft row hrow

/-- A reservation meets no stop. -/
theorem reserveCost_spared (h : LeasesWorld φ w) (hi : φ i = .held claim)
    (hok : UnhinderedRuns w o (.queue (.reserveCost claim.2 claim.2.estimatedCostEur))) :
    Spared claim (w.callQueue o.draws (.reserveCost claim.2 claim.2.estimatedCostEur)).1 := by
  obtain ⟨hroom, hretried, hrest⟩ := hok
  refine h.spared_of_block hi rfl hretried fun houtage => ?_
  obtain ⟨row, m, hrow, hm, -, -⟩ := h.exists_row hi
  by_cases hnone : row.reservedCostEur = 0
  · obtain ⟨hrunning, hfits, hjobFits⟩ := hrest houtage m hm row hrow hnone
    exact ⟨_, reserveCost_of_accepted hm hrow hnone hrunning (hroom m hm row hrow hnone) hfits
      hjobFits⟩
  · exact ⟨_, reserveCost_of_reserved _ hm hrow hnone⟩

/-- A heartbeat of a worker finds its lease. -/
theorem heartbeat_spared (h : LeasesWorld φ w) (hi : φ i = .held claim)
    (hok : UnhinderedRuns w o (.queue (.heartbeat claim.2.jobId claim.1))) :
    Spared claim (w.callQueue o.draws (.heartbeat claim.2.jobId claim.1)).1 := by
  obtain ⟨-, hretried, hclock⟩ := hok
  refine h.spared_of_block hi rfl hretried fun houtage => ?_
  obtain ⟨row, _, hrow, -, -, howner⟩ := h.exists_row hi
  exact ⟨_, bind_eq_ok.mpr ⟨_, if_pos (hclock houtage), bind_eq_ok.mpr
    ⟨row, orRaise_eq_ok.mpr hrow, bind_eq_ok.mpr ⟨(), raiseIf_eq_ok.mpr (not_not.mpr howner), rfl⟩⟩⟩⟩

/-- A completion meets no stop. -/
theorem complete_spared (h : LeasesWorld φ w) (hi : φ i = .held claim) {result : Json} {cost : ℚ}
    (hok : UnhinderedRuns w o (.queue (.complete claim.2 result cost))) :
    Spared claim (w.callQueue o.draws (.complete claim.2 result cost)).1 := by
  obtain ⟨hroom, hretried, hrest⟩ := hok
  refine h.spared_of_block hi rfl hretried fun houtage => ?_
  obtain ⟨row, m, hrow, hm, hcopy, -⟩ := h.exists_row hi
  obtain ⟨hrunning, hfits⟩ := hrest houtage m hm row hrow
  exact ⟨_, complete_of_accepted h.consistent hm hrow hcopy.sessionKey result
    ⟨hrunning, hroom m hm, hfits⟩⟩

/-- One task moves to another lease while claims stay issued. -/
theorem update (h : LeasesWorld φ w) {lease : Lease} (hheartbeats : HeartbeatsIssued w')
    (hconsistent : Consistent w'.queue w'.issued)
    (hleases : LeasesDb (Function.update φ i lease) w'.queue) (hsubset : w.issued ⊆ w'.issued)
    (hissued : ∀ claim, lease.claim = some claim → claim ∈ w'.issued)
    (hspare : ∀ claim, lease = .failing claim → claim.2.attemptCount < claim.2.maxAttempts) :
    LeasesWorld (Function.update φ i lease) w' := by
  refine ⟨hheartbeats, hconsistent, hleases, fun k claim hk => ?_, fun k claim hk => ?_⟩
  · by_cases hki : k = i
    · subst hki
      rw [Function.update_self] at hk
      exact hissued claim hk
    · rw [Function.update_of_ne hki] at hk
      exact hsubset (h.issued k claim hk)
  · by_cases hki : k = i
    · subst hki
      rw [Function.update_self] at hk
      exact hspare claim hk
    · rw [Function.update_of_ne hki] at hk
      exact h.spare k claim hk

/-- A call for a job whose lease is held keeps the leases. -/
theorem attempt (h : LeasesWorld φ w) (hi : φ i = .held claim) {c : QueueCall}
    (hjustified : IssuedCall w.issued c) (hclaim : ∀ workerId, c ≠ .claim workerId)
    (hfail : ∀ job error retryable, c ≠ .fail job error retryable)
    (hspared : Spared claim (w.callQueue o.draws c).1) :
    LeasesWorld (Function.update φ i (.after claim (w.callQueue o.draws c).1))
      (w.callQueue o.draws c).2 := by
  have heffect := postgres_step_effect lib o.draws c w.queue
  have hheld : (φ i).claim = some claim := by rw [hi, Lease.claim]
  apply h.update (h.heartbeats.callQueue o.draws c) (h.consistent.effect hjustified heffect)
  · apply (h.leases.effect hclaim hfail heffect).update
    intro other hother
    rw [Lease.claim_after] at hother
    rw [hheld, hother]
  · exact List.subset_append_right _ _
  · intro other hother
    rw [Lease.claim_after] at hother
    cases hother
    exact List.mem_append_right _ (h.issued i claim hheld)
  · intro other hother
    cases hr : (w.callQueue o.draws c).1 with
    | ok a =>
      rw [hr] at hother
      cases hother
    | error e =>
      rw [hr] at hother
      cases hother
      exact (hspared e hr).2

/-- A call that is neither a claim nor a failure, and not made for a job, keeps the leases. -/
theorem keep (h : LeasesWorld φ w) {c : QueueCall} (hjustified : IssuedCall w.issued c)
    (hclaim : ∀ workerId, c ≠ .claim workerId)
    (hfail : ∀ job error retryable, c ≠ .fail job error retryable)
    (hheartbeats : HeartbeatsIssued w')
    (hqueue : w'.queue = ((postgresExperimentQueue lib).step o.draws c w.queue).2)
    (hissued : w'.issued =
      issuedBy c ((postgresExperimentQueue lib).step o.draws c w.queue).1 ++ w.issued) :
    LeasesWorld φ w' := by
  have heffect := postgres_step_effect lib o.draws c w.queue
  refine ⟨hheartbeats, ?_, ?_, fun k claim hk => ?_, h.spare⟩
  · rw [hqueue, hissued]
    exact h.consistent.effect hjustified heffect
  · rw [hqueue]
    exact h.leases.effect hclaim hfail heffect
  · rw [hissued]
    exact List.mem_append_right _ (h.issued k claim hk)

/-- A call that is none of the worker's on the queue keeps the leases. -/
theorem outside (h : LeasesWorld φ w) {c : WorkerCall} (hc : ∀ q, c ≠ .queue q) :
    LeasesWorld φ (w.perform o c).2 := by
  have hheartbeats := h.heartbeats.perform o c
  rcases perform_cases w o c with ⟨-, hqueue, hissued⟩ | ⟨q, hq, hqueue, hissued⟩
  · refine ⟨hheartbeats, ?_, ?_, ?_, h.spare⟩
    · rw [hqueue, hissued]
      exact h.consistent
    · rw [hqueue]
      exact h.leases
    · rw [hissued]
      exact h.issued
  · cases c with
    | queue q => exact (hc q rfl).elim
    | beat round =>
      simp only [WorkerWorld.queueCall] at hq
      split at hq
      · rename_i workerId job hbeat
        cases hq
        have hjustified : IssuedCall w.issued (.heartbeat job.jobId workerId) :=
          ⟨job, h.heartbeats round ⟨workerId, job, .beating⟩ hbeat, rfl⟩
        exact h.keep hjustified (fun _ heq => by cases heq) (fun _ _ _ heq => by cases heq) hheartbeats
          hqueue hissued
      · cases hq
    | handler | recordCompleted | recordFailed | cancelHeartbeat => cases hq

/-- A claim that takes no lease over gives its task a lease. -/
theorem claimed (h : LeasesWorld φ w) {workerId : String} (hi : φ i = .free)
    (hok : UnhinderedRuns w o (.queue (.claim workerId))) :
    LeasesWorld (Function.update φ i (.ofClaim workerId (w.callQueue o.draws (.claim workerId)).1))
      (w.callQueue o.draws (.claim workerId)).2 := by
  have heffect := postgres_step_effect lib o.draws (.claim workerId) w.queue
  have hjustified : IssuedCall w.issued (.claim workerId) := trivial
  apply h.update (h.heartbeats.callQueue o.draws _) (h.consistent.effect hjustified heffect)
  · cases houtage : o.draws.outage with
    | none =>
      simp only [WorkerWorld.callQueue, houtage]
      exact h.leases.claim hi hok.1
    | some e =>
      rw [WorkerWorld.callQueue, postgres_step_lost lib houtage]
      exact h.leases.update fun _ hnone => by cases hnone
  · exact List.subset_append_right _ _
  · exact fun claim hclaim => List.mem_append_left _ (Lease.mem_issuedBy hclaim)
  · exact fun claim hclaim => (Lease.ofClaim_ne_failing workerId _ claim hclaim).elim

/-- A failure that is reported for a retry gives the lease back. -/
theorem failed (h : LeasesWorld φ w) (hi : φ i = .failing claim) {error : Json} :
    LeasesWorld (Function.update φ i .free) (w.callQueue o.draws (.fail claim.2 error true)).2 := by
  have heffect := postgres_step_effect lib o.draws (.fail claim.2 error true) w.queue
  have hheld : (φ i).claim = some claim := by rw [hi, Lease.claim]
  have hjustified : IssuedCall w.issued (.fail claim.2 error true) := ⟨claim.1, h.issued i claim hheld⟩
  apply h.update (h.heartbeats.callQueue o.draws _) (h.consistent.effect hjustified heffect)
  · exact h.leases.fail hheld (h.spare i claim hi) heffect
  · exact List.subset_append_right _ _
  · exact fun _ hnone => by cases hnone
  · exact fun _ hnone => by cases hnone

end LeasesWorld

/-- The calls of an attempt are expected to be answered as they are. -/
theorem LeasesWorld.expected {φ : ℕ → Lease} {p : WorkerPool (postgresExperimentQueue lib)} {i : ℕ}
    {o : WorkerDraws} {op : WorkerOp} {c : WorkerCall}
    {k : Except PyError c.Reply → Prog workerSignature Unit} (h : LeasesWorld φ p.world)
    (hφ : leaseChart.Traces p φ) (htask : p.tasks[i]? = some ⟨op, .await c k⟩)
    (hok : UnhinderedRuns p.world o c) : leaseDiagram.expected c (p.world.perform o c).1 := by
  have hedge : ∀ r, leaseDiagram.expected c r → ∃ m, leaseDiagram.onReply (φ i) c r m :=
    fun r hr => hφ.edge htask hr
  cases c with
  | handler job => exact hok.1
  | recordCompleted job result cost => exact ⟨(), hok.2⟩
  | recordFailed | beat | cancelHeartbeat => trivial
  | queue q =>
    cases q with
    | reserveCost job amount =>
      obtain ⟨_, claim, hi, rfl, rfl, -⟩ := hedge (.ok ()) fun _ he => by cases he
      exact fun e he => (h.reserveCost_spared hi hok e he).1
    | heartbeat jobId workerId =>
      obtain ⟨_, claim, hi, rfl, rfl, -⟩ := hedge (.ok ()) fun _ he => by cases he
      exact fun e he => (h.heartbeat_spared hi hok e he).1
    | complete job result cost =>
      obtain ⟨_, claim, hi, rfl, -⟩ := hedge (.ok ()) fun _ he => by cases he
      exact fun e he => (h.complete_spared hi hok e he).1
    | schedule | claim | fail | stop | resume => trivial

/-- An unhindered call keeps the leases. -/
theorem LeasesWorld.perform {φ : ℕ → Lease} {w : WorkerWorld (postgresExperimentQueue lib)} {i : ℕ}
    {o : WorkerDraws} {c : WorkerCall} {lease : Lease} (h : LeasesWorld φ w)
    (hok : UnhinderedRuns w o c) (hedge : leaseDiagram.onReply (φ i) c (w.perform o c).1 lease) :
    LeasesWorld (Function.update φ i lease) (w.perform o c).2 := by
  cases c with
  | handler | recordCompleted | recordFailed | beat | cancelHeartbeat =>
    rw [show lease = φ i from hedge, Function.update_eq_self]
    exact h.outside fun _ heq => by cases heq
  | queue q =>
    cases q with
    | claim workerId =>
      obtain ⟨hi, rfl⟩ := hedge
      exact h.claimed hi hok
    | reserveCost job amount =>
      obtain ⟨claim, hi, rfl, rfl, rfl⟩ := hedge
      have hclaim := h.issued i claim (by rw [hi, Lease.claim])
      exact h.attempt hi ⟨⟨claim.1, hclaim⟩, rfl⟩ (fun _ heq => by cases heq)
        (fun _ _ _ heq => by cases heq) (h.reserveCost_spared hi hok)
    | heartbeat jobId workerId =>
      obtain ⟨claim, hi, rfl, rfl, rfl⟩ := hedge
      have hclaim := h.issued i claim (by rw [hi, Lease.claim])
      exact h.attempt hi ⟨claim.2, hclaim, rfl⟩ (fun _ heq => by cases heq)
        (fun _ _ _ heq => by cases heq) (h.heartbeat_spared hi hok)
    | complete job result cost =>
      obtain ⟨claim, hi, rfl, rfl⟩ := hedge
      have hclaim := h.issued i claim (by rw [hi, Lease.claim])
      exact h.attempt hi ⟨claim.1, hclaim⟩ (fun _ heq => by cases heq)
        (fun _ _ _ heq => by cases heq) (h.complete_spared hi hok)
    | fail job error retryable =>
      obtain ⟨claim, hi, rfl, rfl, rfl⟩ := hedge
      exact h.failed hi
    | schedule | stop | resume =>
      rw [show lease = φ i from hedge, Function.update_eq_self]
      refine h.keep ?_ (fun _ heq => ?_) (fun _ _ _ heq => ?_) (h.heartbeats.callQueue o.draws _) rfl rfl
      · trivial
      · cases heq
      · cases heq

/-- Every move of an unhindered run keeps the leases. -/
theorem leases_keep : leaseChart.Keeps (workerSystem (postgresExperimentQueue lib))
    (Outcomes UnhinderedRuns) LeasesWorld fun _ => LeasesWorld where
  serves _ _ _ := trivial
  start _ _ _ _ _ h := h
  expected p i o op c k φ hφ htask hallowed h :=
    h.expected hφ htask (hallowed c (by simp [Pool.awaits, htask]))
  call p i o op c k φ m _ htask hallowed h hedge :=
    h.perform (hallowed c (by simp [Pool.awaits, htask])) hedge
  mark i op start φ m w _ h hedge := by
    obtain ⟨hi, rfl⟩ := hedge
    rw [Function.update_eq_self]
    have hclaim := h.issued i (start.workerId, start.job) (by rw [hi, Lease.claim])
    exact ⟨h.heartbeats.setHeartbeat start.task ⟨start.workerId, start.job, .beating⟩ hclaim,
      h.consistent, h.leases, h.issued, h.spare⟩
  settled _ _ _ h := h

/-- Nothing is claimed in an idle queue. -/
theorem LeasesWorld.idle : LeasesWorld (fun _ => .free)
    (WorkerWorld.initial (postgresExperimentQueue lib)) :=
  ⟨fun _ _ h => (by cases h), Consistent.initial, ⟨fun _ _ h => (by cases h), fun _ _ h => (by cases h),
    fun _ _ _ _ h => (by cases h)⟩, fun _ _ h => (by cases h), fun _ _ h => (by cases h)⟩

end Worker

/-- No session is lost in a run in which no worker meets a stop between its claim and its
completion. -/
theorem none_lost_of_unhindered (lib : Stdlib) (p : WorkerPool (postgresExperimentQueue lib))
    (hreach : (workerSystem (postgresExperimentQueue lib)).Reaches (Outcomes UnhinderedRuns)
      (idleWorkers (postgresExperimentQueue lib)) p) : NoneLost p.world.queue := by
  obtain ⟨φ, -, h⟩ :=
    leases_keep.reaches leaseChart_covers (Chart.traces_fresh _ _) LeasesWorld.idle hreach
  intro j row hrow
  obtain ⟨hfailed, hcancelled⟩ := h.leases.unfailed j row hrow
  refine ⟨hfailed, ?_⟩
  unfold NotLost
  cases hstatus : row.status with
  | pending =>
    exact .inr (.inr fun draws hm hdue hlocked => ⟨hm, .inl ⟨.inl hstatus, hdue⟩, hlocked⟩)
  | retryWait =>
    exact .inr (.inr fun draws hm hdue hlocked => ⟨hm, .inl ⟨.inr hstatus, hdue⟩, hlocked⟩)
  | leased => exact .inr (.inl (.inl rfl))
  | running => exact .inr (.inl (.inr rfl))
  | succeeded => exact .inl rfl
  | failed => exact (hfailed hstatus).elim
  | cancelled => exact (hcancelled hstatus).elim

/-- One job is scheduled, and a worker's round starts. -/
def startedRound (cost : ℚ) : List (Move WorkerOp WorkerDraws) :=
  [.start (.schedule (sampleManifest (1 / 100) (1 / 50) cent_nonneg twoCents_pos) ["REG-001"])] ++
  sampleMoves 0 1 0 cost ++ [.start (.runOnce "worker-1")]

/-- The database cannot be reached. -/
def unreachableDraws (seconds : ℕ) : WorkerDraws :=
  { sampleDraws seconds 0 with
    draws := { (sampleDraws seconds 0).draws with
      outage := some { typeName := "ConnectionRefusedError", bases := ["ConnectionError", "OSError"] } } }

/-- The experiment is stopped and resumed before the round claims the job. Its reservation does not
reach the database, and a second round finishes the job. -/
def resumedRound : List (Move WorkerOp WorkerDraws) :=
  startedRound (1 / 100) ++ [.start (.stop 7), .start (.resume 7)] ++
  sampleMoves 2 1 1 (1 / 100) ++ sampleMoves 3 1 2 (1 / 100) ++ sampleMoves 1 1 3 (1 / 100) ++
  [.advance 1 (unreachableDraws 3)] ++ sampleMoves 1 3 4 (1 / 100) ++
  [.start (.runOnce "worker-1")] ++ sampleMoves 4 7 9 (1 / 100)

/-- The experiment is stopped between the claim of the round and its reservation, and resumed
afterwards. -/
def stoppedRound : List (Move WorkerOp WorkerDraws) :=
  startedRound (1 / 100) ++ [.start (.stop 7), .start (.resume 7)] ++
  sampleMoves 1 1 1 (1 / 100) ++ sampleMoves 2 1 2 (1 / 100) ++ sampleMoves 1 2 3 (1 / 100) ++
  sampleMoves 3 1 4 (1 / 100)

/-- No session is lost by a stop and a resume before the claim, or by a lost connection. -/
theorem none_lost_of_unhindered_resumed :
    ∃ p, (workerSystem (postgresExperimentQueue sampleStdlib)).run
      (idleWorkers (postgresExperimentQueue sampleStdlib)) resumedRound = some p ∧
        NoneLost p.world.queue := by
  obtain ⟨p, hp, -⟩ := System.exists_run (workerSystem (postgresExperimentQueue sampleStdlib))
    (idleWorkers (postgresExperimentQueue sampleStdlib)) resumedRound (fun _ => true)
    (by decide +kernel)
  exact ⟨p, hp, none_lost_of_unhindered sampleStdlib p
    (System.reaches_of_run resumedRound hp (by decide +kernel))⟩

/-- A stop between the claim and the reservation makes the job fail for good, although nothing
else goes wrong and the experiment is resumed. -/
theorem session_lost_by_stop :
    ¬∀ (lib : Stdlib) (p : WorkerPool (postgresExperimentQueue lib)),
      (workerSystem (postgresExperimentQueue lib)).Reaches (Outcomes Untroubled)
        (idleWorkers (postgresExperimentQueue lib)) p → NoneLost p.world.queue := by
  intro h
  obtain ⟨p, hp, htest⟩ := System.exists_run (workerSystem (postgresExperimentQueue sampleStdlib))
    (idleWorkers (postgresExperimentQueue sampleStdlib)) stoppedRound
    (fun p => (Dict.get? (Database.jobs p.world.queue) 1).any fun row => row.status == .failed)
    (by decide +kernel)
  obtain ⟨row, hrow, hstatus⟩ := (Option.any_eq_true _ _).mp htest
  have hnone := h sampleStdlib p (System.reaches_of_run stoppedRound hp (by decide +kernel))
  exact (hnone 1 row hrow).1 (by simpa using hstatus)

end Amlguard
