import Amlguard.Experiments.Rows
import Amlguard.Experiments.InMemory

/-!
# The pause at the cost ceiling

Both queues stop an experiment when a reservation or a completion would exceed its ceiling,
and both report the breach by an exception. In memory the stop is an assignment that
survives the exception. On PostgreSQL it is written in the transaction that the exception
rolls back, so the experiment goes on as if nothing had happened.
-/

namespace Amlguard

/-- The two implementations of the queue protocol. -/
inductive QueueImplementation where
  | inMemory
  | postgres
  deriving DecidableEq

/-- The queue of an implementation. -/
@[reducible] def QueueImplementation.queue (lib : Stdlib) : QueueImplementation → ExperimentQueue
  | .inMemory => inMemoryExperimentQueue lib
  | .postgres => postgresExperimentQueue lib

/-- The experiment whose ceiling a call tests. -/
def ceilingTest : QueueCall → Option UUID
  | .reserveCost job _ => some job.experimentId
  | .complete job _ _ => some job.experimentId
  | _ => none

/-- The experiment is stopped, and no claim returns one of its jobs before it is resumed. -/
def PausedUntilResume (Q : ExperimentQueue) (e : UUID) (s : Q.State) : Prop :=
  Q.stopped s e = true ∧
    ∀ calls : List (Draws × QueueCall), (∀ call ∈ calls, call.2 ≠ .resume e) →
      ∀ draws workerId job,
        (Q.step draws (.claim workerId) (Q.after s calls)).1 = .ok (some job) →
          job.experimentId ≠ e

/-- The call reaches the queue and raises because of the cost ceiling. -/
def RaisesCeiling (Q : ExperimentQueue) (draws : Draws) (c : QueueCall) (s : Q.State) : Prop :=
  draws.outage = none ∧ raised (Q.step draws c s).1 = some ceilingExceeded

namespace PostgresExperimentQueue

/-- A call on a stopped experiment raises for another reason than the ceiling. -/
theorem not_stopped_of_ceiling {lib : Stdlib} {draws : Draws} {c : QueueCall} {e : UUID}
    {db : Database} (hc : ceilingTest c = some e)
    (h : (perform lib draws c db).1 = .error ceilingExceeded) :
    (perform lib draws c db).2 = db ∧ (db.manifests.get? e).any (·.stopRequested) = false := by
  have hsame : ∀ {α : Type} (block : Database → Except PyError (α × Database)),
      (Database.session block db).1 = .error ceilingExceeded →
        (Database.session block db).2 = db ∧ block db = .error ceilingExceeded := by
    intro α block hraise
    rcases session_cases block db with ⟨a, db', -, hs⟩ | ⟨e', hblock, hs⟩
    · rw [hs] at hraise
      cases hraise
    · rw [hs] at hraise ⊢
      cases hraise
      exact ⟨rfl, hblock⟩
  have hflagged : ∀ {e}, (db.manifests.get? e).any (·.stopRequested) = true →
      ∃ m, db.manifests.get? e = some m ∧ m.stopRequested = true := by
    intro e hstop
    cases hm : db.manifests.get? e with
    | none => simp [hm] at hstop
    | some m => exact ⟨m, rfl, by simpa [hm] using hstop⟩
  have hother : experimentStopped ≠ ceilingExceeded ∧ noResultFound ≠ ceilingExceeded := by decide
  cases c with
  | reserveCost job amount =>
    cases hc
    obtain ⟨hdb, hblock⟩ := hsame (reserveCost job amount) h
    refine ⟨hdb, Bool.eq_false_iff.mpr fun hstop => ?_⟩
    obtain ⟨manifest, hmanifest, hflag⟩ := hflagged hstop
    cases hrow : db.jobs.get? job.jobId with
    | none =>
      simp [reserveCost, hmanifest, hrow, orRaise, bind, Except.bind] at hblock
      exact hother.2 hblock
    | some row =>
      by_cases hreserved : row.reservedCostEur = 0
      · simp [reserveCost, hmanifest, hrow, hreserved, hflag, orRaise, raiseIf, bind,
          Except.bind] at hblock
        exact hother.1 hblock
      · simp [reserveCost, hmanifest, hrow, hreserved, orRaise, bind, Except.bind, pure,
          Except.pure] at hblock
  | complete job result cost =>
    cases hc
    obtain ⟨hdb, hblock⟩ := hsame (complete job result cost) h
    refine ⟨hdb, Bool.eq_false_iff.mpr fun hstop => ?_⟩
    obtain ⟨manifest, hmanifest, hflag⟩ := hflagged hstop
    simp [complete, hmanifest, hflag, orRaise, raiseIf, bind, Except.bind] at hblock
    exact hother.1 hblock
  | schedule | claim | heartbeat | fail | stop | resume => cases hc

end PostgresExperimentQueue

namespace InMemoryExperimentQueue

/-- Adding jobs stops and resumes nothing. -/
theorem addJobs_stopped (manifest : ExperimentManifest) (fresh : ℕ → UUID × Datetime)
    (existing : List String) (keys : List (String × String × String × ℕ)) (i : ℕ)
    (q : InMemoryQueue) : (addJobs manifest fresh existing i keys q).2.stopped = q.stopped := by
  induction keys generalizing i q with
  | nil => rfl
  | cons key keys ih =>
    unfold addJobs
    split
    · exact ih i q
    · split
      · rfl
      · rw [ih]

/-- An iteration stops and resumes nothing, and returns no job of a stopped experiment. -/
theorem visit_stopped (now : Datetime) (workerId : String) (jobId : UUID) (job : ExperimentJob)
    (q : InMemoryQueue) :
    (visit now workerId jobId job q).2.stopped = q.stopped ∧
      ∀ found, (visit now workerId jobId job q).1 = some (.ok (some found)) →
        found.experimentId ∉ q.stopped := by
  unfold visit
  split
  · exact ⟨rfl, fun found h => by cases h⟩
  · rename_i hstopped
    split
    · split
      · exact ⟨rfl, fun found h => by cases h⟩
      · refine ⟨rfl, fun found h => ?_⟩
        cases h
        exact hstopped
    · split
      · exact ⟨rfl, fun found h => by cases h⟩
      · exact ⟨rfl, fun found h => by cases h⟩

/-- A claim stops and resumes nothing, and returns no job of a stopped experiment. -/
theorem claimLoop_stopped (now : Datetime) (workerId : String)
    (entries : List (UUID × ExperimentJob)) (q : InMemoryQueue) :
    (claimLoop now workerId entries q).2.stopped = q.stopped ∧
      ∀ job, (claimLoop now workerId entries q).1 = .ok (some job) →
        job.experimentId ∉ q.stopped := by
  induction entries generalizing q with
  | nil => exact ⟨rfl, fun job h => by cases h⟩
  | cons entry rest ih =>
    obtain ⟨hsame, hnot⟩ := visit_stopped now workerId entry.1 entry.2 q
    unfold claimLoop
    split
    · rename_i r q' hvisit
      rw [hvisit] at hsame hnot
      exact ⟨hsame, fun job h => hnot job (congrArg some h)⟩
    · rename_i q' hvisit
      rw [hvisit] at hsame
      obtain ⟨hrest, hnotRest⟩ := ih q'
      exact ⟨hrest.trans hsame, fun job h => hsame ▸ hnotRest job h⟩

/-- A call other than its resume leaves a stopped experiment stopped. -/
theorem stopped_perform (lib : Stdlib) (draws : Draws) {c : QueueCall} {e : UUID}
    {q : InMemoryQueue} (hc : c ≠ .resume e) (h : e ∈ q.stopped) :
    e ∈ (perform lib draws c q).2.stopped := by
  cases c with
  | schedule manifest scenarioIds =>
    have hadd := addJobs_stopped manifest draws.fresh (q.jobs.values.map (·.sessionKey))
      (lib.shuffle manifest.randomizationSeed (scheduleKeys lib manifest scenarioIds)) 0
      { q with manifests := q.manifests.set manifest.experimentId manifest }
    simp only [perform, schedule]
    split
    · rename_i hresult
      rw [hresult] at hadd
      exact hadd ▸ h
    · rename_i hresult
      rw [hresult] at hadd
      exact hadd ▸ h
  | claim workerId =>
    change e ∈ (claimLoop draws.now workerId q.jobs.entries q).2.stopped
    rw [(claimLoop_stopped draws.now workerId q.jobs.entries q).1]
    exact h
  | heartbeat jobId workerId =>
    simp only [perform, heartbeat]
    split
    · exact h
    · split
      · exact h
      · split <;> exact h
  | reserveCost job amount =>
    simp only [perform, reserveCost]
    split
    · exact h
    · split
      · exact h
      · split
        · exact Finset.mem_insert_of_mem h
        · exact h
  | complete job result cost =>
    simp only [perform, complete]
    split
    · exact h
    · split
      · exact Finset.mem_insert_of_mem h
      · split <;> exact h
  | fail job error retryable =>
    simp only [perform, fail]
    split
    · exact h
    · split <;> exact h
  | stop experimentId => exact Finset.mem_insert_of_mem h
  | resume experimentId =>
    exact Finset.mem_erase.mpr ⟨fun heq => hc (heq ▸ rfl), h⟩

/-- A breach of the ceiling leaves the experiment stopped. -/
theorem stopped_of_ceiling {lib : Stdlib} {draws : Draws} {c : QueueCall} {e : UUID}
    {q : InMemoryQueue} (hc : ceilingTest c = some e)
    (h : (perform lib draws c q).1 = .error ceilingExceeded) :
    e ∈ (perform lib draws c q).2.stopped := by
  have hkey : ∀ key, PyError.keyError key ≠ ceilingExceeded := fun key heq => by
    simp [PyError.keyError, ceilingExceeded, PyError.runtimeError] at heq
  cases c with
  | reserveCost job amount =>
    cases hc
    simp only [perform, reserveCost] at h ⊢
    split at h
    · cases h
    · split at h
      · exact (hkey _ (Except.error.inj h)).elim
      · split at h
        · rename_i hnone _ manifest hmanifest hover
          simp only [hnone, hover]
          exact Finset.mem_insert_self _ _
        · cases h
  | complete job result cost =>
    cases hc
    simp only [perform, complete] at h ⊢
    split at h
    · exact (hkey _ (Except.error.inj h)).elim
    · split at h
      · rename_i manifest hmanifest hover
        simp only [if_pos hover]
        exact Finset.mem_insert_self _ _
      · split at h
        · exact (hkey _ (Except.error.inj h)).elim
        · cases h
  | schedule | claim | heartbeat | fail | stop | resume => cases hc

/-- A stopped experiment is paused until it is resumed. -/
theorem paused_of_stopped (lib : Stdlib) {e : UUID} {q : InMemoryQueue} (h : e ∈ q.stopped) :
    PausedUntilResume (inMemoryExperimentQueue lib) e q := by
  refine ⟨decide_eq_true h, fun calls hcalls draws workerId job hclaim heq => ?_⟩
  have hafter : e ∈ ((inMemoryExperimentQueue lib).after q calls).stopped :=
    ExperimentQueue.after_invariant (inMemoryExperimentQueue lib) (I := fun q => e ∈ q.stopped)
      (fun q draws c hc h => stopped_perform lib draws hc h) calls hcalls q h
  have hnot := (claimLoop_stopped draws.now workerId _ _).2 job hclaim
  rw [heq] at hnot
  exact hnot hafter

end InMemoryExperimentQueue

/-- After a breach of the ceiling the experiment is paused until it is resumed exactly when the
queue is the in-memory one. -/
theorem paused_after_breach_iff (lib : Stdlib) (implementation : QueueImplementation)
    (calls : List (Draws × QueueCall)) (draws : Draws) (c : QueueCall) (e : UUID)
    (hc : ceilingTest c = some e)
    (hraise : RaisesCeiling (implementation.queue lib) draws c
      ((implementation.queue lib).after (implementation.queue lib).initial calls)) :
    PausedUntilResume (implementation.queue lib) e ((implementation.queue lib).step draws c
      ((implementation.queue lib).after (implementation.queue lib).initial calls)).2 ↔
        implementation = .inMemory := by
  obtain ⟨houtage, hraise⟩ := hraise
  rw [raised_eq_some] at hraise
  cases implementation with
  | inMemory =>
    refine ⟨fun _ => rfl, fun _ => ?_⟩
    exact InMemoryExperimentQueue.paused_of_stopped lib
      (@InMemoryExperimentQueue.stopped_of_ceiling lib draws c e _ hc hraise)
  | postgres =>
    refine ⟨fun hpaused => ?_, fun h => by cases h⟩
    have hstep : ∀ db, (postgresExperimentQueue lib).step draws c db =
        PostgresExperimentQueue.perform lib draws c db := fun db => by
      simp only [postgresExperimentQueue, houtage]
    have hstopped := hpaused.1
    rw [hstep] at hraise hstopped
    obtain ⟨hdb, hrunning⟩ := PostgresExperimentQueue.not_stopped_of_ceiling hc hraise
    rw [hdb] at hstopped
    exact absurd (hstopped.symm.trans hrunning) (by decide)

/-- One job is scheduled under a ceiling of 0.05 EUR and claimed. -/
def claimedUnderCeiling : List (Draws × QueueCall) :=
  [((sampleDraws 0 0).draws, .schedule (sampleManifest (1 / 100) (1 / 20) cent_nonneg
    fiveCents_pos) ["REG-001"]), ((sampleDraws 1 0).draws, .claim "worker-1")]

/-- The reservation of 0.10 EUR for the claimed job. -/
def reservationAboveCeiling : QueueCall :=
  .reserveCost (sampleJob (1 / 100) cent_nonneg) (1 / 10)

/-- In memory the reservation above the ceiling pauses the experiment. -/
theorem paused_after_breach_inMemory :
    PausedUntilResume (inMemoryExperimentQueue sampleStdlib) 7
      ((inMemoryExperimentQueue sampleStdlib).step (sampleDraws 2 0).draws reservationAboveCeiling
        ((inMemoryExperimentQueue sampleStdlib).after
          (inMemoryExperimentQueue sampleStdlib).initial claimedUnderCeiling)).2 :=
  (paused_after_breach_iff sampleStdlib .inMemory claimedUnderCeiling (sampleDraws 2 0).draws
    reservationAboveCeiling 7 rfl ⟨rfl, by decide +kernel⟩).mpr rfl

/-- On PostgreSQL the same reservation raises and leaves the experiment running. -/
theorem not_paused_after_breach_postgres :
    ¬∀ (lib : Stdlib) (implementation : QueueImplementation) (calls : List (Draws × QueueCall))
      (draws : Draws) (c : QueueCall) (e : UUID), ceilingTest c = some e →
        RaisesCeiling (implementation.queue lib) draws c
          ((implementation.queue lib).after (implementation.queue lib).initial calls) →
        PausedUntilResume (implementation.queue lib) e ((implementation.queue lib).step draws c
          ((implementation.queue lib).after (implementation.queue lib).initial calls)).2 := by
  intro h
  have hpaused := h sampleStdlib .postgres claimedUnderCeiling (sampleDraws 2 0).draws
    reservationAboveCeiling 7 rfl ⟨rfl, by decide +kernel⟩
  exact absurd hpaused.1 (by decide +kernel)

end Amlguard
