import Amlguard.Experiments.Rows

/-!
# The number of attempts

`claim` counts an attempt without looking at the limit; only `fail` looks at it, when it
decides whether a job is tried again, and it looks at the copy of the worker that calls. A
job therefore stays within its limit as long as it comes back through `fail` alone and the
caller holds the latest claim.

It also comes back when its lease expires. That path never meets the limit, so a job whose
workers crash is claimed again and again.
-/

namespace Amlguard

open Awaited PostgresExperimentQueue

/-- No job has been attempted more often than its limit. -/
def WithinAttempts (db : Database) : Prop :=
  ∀ j row, db.jobs.get? j = some row → row.attemptCount ≤ row.maxAttempts

/-- How often a job has been handed out. -/
def timesIssued (issued : List (String × ExperimentJob)) (j : UUID) : ℕ :=
  issued.countP fun claim => decide (claim.2.jobId = j)

/-- The clock of a failure leaves room for the longest back-off of the job. -/
def ClockInRange {Q : ExperimentQueue} (_ : WorkerWorld Q) (o : WorkerDraws) : WorkerCall → Prop
  | .queue (.fail job _ _) => second * retryDelay job.maxAttempts + o.draws.now ≤ datetimeMax
  | _ => True

instance {Q : ExperimentQueue} (w : WorkerWorld Q) (o : WorkerDraws) :
    (c : WorkerCall) → Decidable (ClockInRange w o c)
  | .queue (.fail job _ _) =>
    inferInstanceAs (Decidable (second * retryDelay job.maxAttempts + o.draws.now ≤ datetimeMax))
  | .queue (.schedule _ _) | .queue (.claim _) | .queue (.heartbeat _ _)
  | .queue (.reserveCost _ _) | .queue (.complete _ _ _) | .queue (.stop _) | .queue (.resume _)
  | .handler _ | .recordCompleted _ _ _ | .recordFailed _ _ _ | .beat _ | .cancelHeartbeat _ =>
    isTrue trivial

/-- Every job stays within its attempts, no job is handed out more often than its limit, and
the back-off date of every failure that a worker is about to report exists. -/
structure BoundedAttempts {lib : Stdlib}
    (ok : WorkerWorld (postgresExperimentQueue lib) → WorkerDraws → WorkerCall → Prop)
    (p : WorkerPool (postgresExperimentQueue lib)) : Prop where
  attempts : WithinAttempts p.world.queue
  claims : ∀ j row, p.world.queue.jobs.get? j = some row →
    timesIssued p.world.issued j ≤ row.maxAttempts
  delays : ∀ i o job error retryable,
    p.awaits i = some (.queue (.fail job error retryable)) →
      ok p.world o (.queue (.fail job error retryable)) →
        ∃ date, addSeconds o.draws.now (retryDelay job.attemptCount) = .ok date

/-- A claim that takes over an expired lease finds attempts left, and so does a failure that
puts its job back for a retry. -/
def AttemptsLeft (draws : Draws) (db : Database) : QueueCall → Prop
  | .claim _ => ∀ found ∈ candidate draws db,
      found.2.status = .leased ∨ found.2.status = .running →
        found.2.attemptCount < found.2.maxAttempts
  | .fail job _ retryable => ∀ row ∈ db.jobs.get? job.jobId,
      failedStatus job retryable = .retryWait → row.attemptCount < row.maxAttempts
  | _ => True

instance (draws : Draws) (db : Database) : (c : QueueCall) → Decidable (AttemptsLeft draws db c)
  | .claim _ => inferInstanceAs (Decidable (∀ found ∈ candidate draws db,
      found.2.status = .leased ∨ found.2.status = .running →
        found.2.attemptCount < found.2.maxAttempts))
  | .fail job _ retryable => inferInstanceAs (Decidable (∀ row ∈ db.jobs.get? job.jobId,
      failedStatus job retryable = .retryWait → row.attemptCount < row.maxAttempts))
  | .schedule _ _ | .heartbeat _ _ | .reserveCost _ _ | .complete _ _ _ | .stop _ | .resume _ =>
    isTrue trivial

/-- The outcomes of runs in which every attempt is one that the limit allows, unless the connection is
lost. -/
def CheckedAttempts {lib : Stdlib} (w : WorkerWorld (postgresExperimentQueue lib))
    (o : WorkerDraws) (c : WorkerCall) : Prop :=
  ClockInRange w o c ∧
    ∀ call ∈ w.queueCall c, o.draws.outage = none → AttemptsLeft o.draws w.queue call

instance {lib : Stdlib} (w : WorkerWorld (postgresExperimentQueue lib)) (o : WorkerDraws)
    (c : WorkerCall) : Decidable (CheckedAttempts w o c) :=
  inferInstanceAs (Decidable (_ ∧
    ∀ call ∈ w.queueCall c, o.draws.outage = none → AttemptsLeft o.draws w.queue call))

/-- A job is within its limit, a waiting one strictly so, and counts every claim of it. -/
structure AttemptsDb (db : Database) (issued : List (String × ExperimentJob)) : Prop where
  within : WithinAttempts db
  waiting : ∀ j row, db.jobs.get? j = some row →
    row.status = .pending ∨ row.status = .retryWait → row.attemptCount < row.maxAttempts
  counted : ∀ j row, db.jobs.get? j = some row → timesIssued issued j ≤ row.attemptCount

namespace AttemptsDb

variable {db : Database} {issued : List (String × ExperimentJob)}

/-- Writing a row that counts its claims, within its limit, keeps every job so. -/
theorem setJob (h : AttemptsDb db issued) {j : UUID} {row : ExperimentJobRecord}
    {manifests : Dict UUID ExperimentRecord} {sessions : Dict String ExperimentSessionRecord}
    (hwithin : row.attemptCount ≤ row.maxAttempts)
    (hwaiting : row.status = .pending ∨ row.status = .retryWait →
      row.attemptCount < row.maxAttempts)
    (hcounted : timesIssued issued j ≤ row.attemptCount) :
    AttemptsDb ⟨manifests, db.jobs.set j row, sessions⟩ issued := by
  constructor
  · intro k found hfound
    change (db.jobs.set j row).get? k = some found at hfound
    rw [Dict.get?_set] at hfound
    split at hfound
    · cases hfound
      exact hwithin
    · exact h.within k found hfound
  · intro k found hfound
    change (db.jobs.set j row).get? k = some found at hfound
    rw [Dict.get?_set] at hfound
    split at hfound
    · cases hfound
      exact hwaiting
    · exact h.waiting k found hfound
  · intro k found hfound
    change (db.jobs.set j row).get? k = some found at hfound
    rw [Dict.get?_set] at hfound
    split at hfound
    · rename_i heq
      cases hfound
      rw [← heq]
      exact hcounted
    · exact h.counted k found hfound

/-- Changing a stored row within its attempts keeps every job within its limit. -/
theorem updateJob (h : AttemptsDb db issued) {j : UUID} {row row' : ExperimentJobRecord}
    {manifests : Dict UUID ExperimentRecord} {sessions : Dict String ExperimentSessionRecord}
    (hrow : db.jobs.get? j = some row) (hattempts : row'.attemptCount = row.attemptCount)
    (hmax : row'.maxAttempts = row.maxAttempts)
    (hwaiting : row'.status = .pending ∨ row'.status = .retryWait →
      row.attemptCount < row.maxAttempts) :
    AttemptsDb ⟨manifests, db.jobs.set j row', sessions⟩ issued := by
  apply h.setJob
  · rw [hattempts, hmax]
    exact h.within j row hrow
  · rw [hattempts, hmax]
    exact hwaiting
  · rw [hattempts]
    exact h.counted j row hrow

/-- No claim of a job precedes its row. -/
theorem timesIssued_eq_zero (h : Consistent db issued) {j : UUID} (hfresh : db.jobs.get? j = none) :
    timesIssued issued j = 0 := by
  apply List.countP_eq_zero.mpr
  intro claim hclaim heq
  obtain ⟨row, hrow, -⟩ := h.copies claim hclaim
  rw [of_decide_eq_true heq, hfresh] at hrow
  cases hrow

/-- New jobs have not been attempted. -/
theorem inserts {manifest : ExperimentManifest} {db' : Database} (h : AttemptsDb db issued)
    (hconsistent : Consistent db issued)
    (hknown : (db.manifests.get? manifest.experimentId).isSome = true)
    (hrows : Relation.ReflTransGen (Inserts manifest) db db') : AttemptsDb db' issued := by
  induction hrows with
  | refl => exact h
  | tail hrows hrow ih =>
    obtain ⟨hmid, -⟩ := hconsistent.inserts hknown hrows
    cases hrow with
    | row jobId notBefore key cost hfresh hkey hwidth hcost hgrid =>
      apply ih.setJob
      · exact Nat.zero_le _
      · exact fun _ => (by decide : 0 < 3)
      · exact (timesIssued_eq_zero hmid hfresh).le

/-- A claim that finds attempts left counts one more. -/
theorem claim (h : AttemptsDb db issued) {draws : Draws} {workerId : String}
    (hleft : AttemptsLeft draws db (.claim workerId)) :
    AttemptsDb (claim draws workerId db).2
      (issuedBy (.claim workerId) (PostgresExperimentQueue.claim draws workerId db).1 ++ issued) := by
  rcases claim_cases draws workerId db with ⟨hsame, hnone⟩ | ⟨jobId, row, hcandidate, hreply, hdb⟩
  · rw [hsame, hnone]
    exact h
  · obtain ⟨hrow, hclaimable⟩ := candidate_spec hcandidate
    have hlt : row.attemptCount < row.maxAttempts := by
      rcases hclaimable.2.1 with ⟨hwaiting, -⟩ | ⟨hleased, -⟩
      · exact h.waiting jobId row hrow hwaiting
      · exact hleft (jobId, row) hcandidate hleased
    have hcount : ∀ j, timesIssued (issuedBy (.claim workerId)
        (PostgresExperimentQueue.claim draws workerId db).1 ++ issued) j ≤
          timesIssued issued j + if jobId = j then 1 else 0 := by
      intro j
      rw [hreply]
      cases hjob : jobOfRow jobId (leasedRow draws workerId row) with
      | error e => exact Nat.le_add_right _ _
      | ok job =>
        rw [← (copyOf_jobOfRow hjob).1]
        simp [issuedBy, timesIssued, Except.map, List.countP_cons]
    have hold := h.counted jobId row hrow
    rw [hdb]
    constructor
    · intro k found hfound
      change (db.jobs.set jobId _).get? k = some found at hfound
      rw [Dict.get?_set] at hfound
      split at hfound
      · cases hfound
        exact hlt
      · exact h.within k found hfound
    · intro k found hfound hstatus
      change (db.jobs.set jobId _).get? k = some found at hfound
      rw [Dict.get?_set] at hfound
      split at hfound
      · cases hfound
        rcases hstatus with hs | hs <;> cases hs
      · exact h.waiting k found hfound hstatus
    · intro k found hfound
      change (db.jobs.set jobId _).get? k = some found at hfound
      have hle := hcount k
      rw [Dict.get?_set] at hfound
      split at hfound
      · rename_i heq
        cases hfound
        subst heq
        rw [if_pos rfl] at hle
        exact hle.trans (Nat.succ_le_succ hold)
      · rename_i hne
        rw [if_neg hne] at hle
        exact hle.trans (h.counted k found hfound)

/-- A call other than a claim keeps the attempts of every job. -/
theorem effect {draws : Draws} {db' : Database} {c : QueueCall} {r : Except PyError c.Reply}
    (h : AttemptsDb db issued) (hconsistent : Consistent db issued)
    (hleft : AttemptsLeft draws db c) (hclaim : ∀ workerId, c ≠ .claim workerId)
    (heffect : Effect draws db c r db') : AttemptsDb db' (issuedBy c r ++ issued) := by
  cases heffect with
  | unchanged c r hnone =>
    rw [hnone]
    exact h
  | scheduled manifest scenarioIds n db' hknown hrows => exact h.inserts hconsistent hknown hrows
  | created manifest scenarioIds n ceiling db' hnew hgrid hpos hrows =>
    have hstored : StoredAmounts (newManifest manifest ceiling) :=
      ⟨Numeric.onGrid_zero 4, Numeric.onGrid_zero 4, hgrid⟩
    apply AttemptsDb.inserts ?_ (hconsistent.setManifest manifest.experimentId hstored) (by simp)
      hrows
    exact ⟨h.within, h.waiting, h.counted⟩
  | leased workerId jobId row r hrow hclaimable hreply => exact (hclaim workerId rfl).elim
  | beat jobId workerId row expires hrow howner =>
    refine h.updateJob hrow rfl rfl fun hstatus => ?_
    rcases hstatus with hs | hs <;> cases hs
  | reserved job amount manifest row hmanifest hrow hnone hroom =>
    exact h.updateJob hrow rfl rfl (h.waiting job.jobId row hrow)
  | completed job result cost manifest row sessions hmanifest hrow hrunning hroom hsessions =>
    refine h.updateJob hrow rfl rfl fun hstatus => ?_
    rcases hstatus with hs | hs <;> cases hs
  | failed job error retryable manifest row notBefore hmanifest hrow hdelay =>
    refine h.updateJob hrow rfl rfl fun hstatus => ?_
    apply hleft row hrow
    change failedStatus job retryable = .pending ∨ failedStatus job retryable = .retryWait at hstatus
    rcases hstatus with hs | hs
    · unfold failedStatus at hs
      split at hs <;> cases hs
    · exact hs
  | flagged c r experimentId manifest flag status hcall hmanifest =>
    have hnone : issuedBy c r = [] := by
      rcases hcall with ⟨rfl, -⟩ | ⟨rfl, -⟩ <;> rfl
    rw [hnone]
    exact ⟨h.within, h.waiting, h.counted⟩

/-- A step of the queue within the limits keeps the attempts of every job. -/
theorem step (lib : Stdlib) {draws : Draws} {c : QueueCall} (h : AttemptsDb db issued)
    (hconsistent : Consistent db issued) (hleft : AttemptsLeft draws db c) :
    AttemptsDb ((postgresExperimentQueue lib).step draws c db).2
      (issuedBy c ((postgresExperimentQueue lib).step draws c db).1 ++ issued) := by
  by_cases hclaim : ∃ workerId, c = .claim workerId
  · obtain ⟨workerId, rfl⟩ := hclaim
    dsimp only [postgresExperimentQueue]
    split
    · exact h
    · exact h.claim hleft
  · exact h.effect hconsistent hleft (fun workerId heq => hclaim ⟨workerId, heq⟩)
      (postgres_step_effect lib draws c db)

end AttemptsDb

/-- An instant that is representable after a longer delay is so after a shorter one. -/
theorem addSeconds_of_le {now n m : ℕ} (hle : n ≤ m) (h : second * m + now ≤ datetimeMax) :
    ∃ date, addSeconds now n = .ok date := by
  have hmul := Nat.mul_le_mul_left second hle
  exact ⟨second * n + now, if_pos (by omega)⟩

/-- A worker that is about to call the queue acts on an issued claim. -/
theorem issuedCall_of_awaits {Q : ExperimentQueue}
    {ok : WorkerWorld Q → WorkerDraws → WorkerCall → Prop} {p : WorkerPool Q}
    (hreach : (workerSystem Q).Reaches (Outcomes ok) (idleWorkers Q) p) {i : ℕ} {call : QueueCall}
    (hawaits : p.awaits i = some (.queue call)) : IssuedCall p.world.issued call := by
  have hassumes : Assumes (issuedDiscipline (Q := Q) ok).ok (Outcomes ok) :=
    assumes_outcomes (S := workerSignature) ok
  have hsafe := Discipline.safe (workers_verified (Outcomes ok)) hassumes
    (fun task beat hbeat => by cases hbeat) hreach
  unfold Pool.awaits at hawaits
  split at hawaits
  · rename_i op c k htask
    cases hawaits
    exact hsafe.pre htask call rfl
  · cases hawaits

/-- While no exhausted job is leased again or put back for a retry, every job stays within its
attempts and every back-off date exists. -/
theorem attempts_bounded_of_checked (lib : Stdlib) (p : WorkerPool (postgresExperimentQueue lib))
    (hreach : (workerSystem (postgresExperimentQueue lib)).Reaches (Outcomes CheckedAttempts)
      (idleWorkers (postgresExperimentQueue lib)) p) : BoundedAttempts CheckedAttempts p := by
  have hinv : Consistent p.world.queue p.world.issued ∧
      AttemptsDb p.world.queue p.world.issued := by
    refine worker_invariant (I := fun db issued => Consistent db issued ∧ AttemptsDb db issued) ?_
      (fun w w' hcall h => ?_) hreach
    · exact ⟨Consistent.initial, fun _ _ h => (by cases h), fun _ _ h => (by cases h),
        fun _ _ h => (by cases h)⟩
    · obtain ⟨o, c, call, hok, hcalled, hissued, hqueue, hclaims⟩ := hcall
      rw [hqueue, hclaims]
      refine ⟨h.1.effect hissued (postgres_step_effect lib o.draws call w.queue), ?_⟩
      cases houtage : o.draws.outage with
      | none => exact h.2.step lib h.1 (hok.2 call hcalled houtage)
      | some e =>
        rw [postgres_step_lost lib houtage, issuedBy_error]
        exact h.2
  obtain ⟨hconsistent, hattempts⟩ := hinv
  refine ⟨hattempts.within, fun j row hrow => ?_, fun i o job error retryable hawaits hok => ?_⟩
  · exact (hattempts.counted j row hrow).trans (hattempts.within j row hrow)
  · obtain ⟨workerId, hissued⟩ := issuedCall_of_awaits hreach hawaits
    obtain ⟨row, hrow, hcopy⟩ := hconsistent.copies _ hissued
    have hcount : job.attemptCount ≤ job.maxAttempts := by
      rw [← hcopy.maxAttempts]
      exact hcopy.attemptCount.trans (hattempts.within _ row hrow)
    exact addSeconds_of_le (Nat.pow_le_pow_right (by decide) hcount) hok.1

/-- A worker that retries once: its handler raises a connection error, and the job succeeds
at the second attempt. -/
def secondAttempt : List (Move WorkerOp WorkerDraws) :=
  [.start (.schedule (sampleManifest (1 / 100) 1 cent_nonneg zero_lt_one) ["REG-001"])] ++
  sampleMoves 0 1 0 (1 / 100) ++ [.start (.runOnce "worker-1")] ++ sampleMoves 1 3 1 (1 / 100) ++
  [.advance 1 { sampleDraws 2 0 with handled := .error { typeName := "ConnectionError" } }] ++
  sampleMoves 1 3 3 (1 / 100) ++ [.start (.runOnce "worker-1")] ++ sampleMoves 2 6 9 (1 / 100)

/-- A job that is tried twice stays within its attempts. -/
theorem attempts_bounded_of_checked_second :
    ∃ p, (workerSystem (postgresExperimentQueue sampleStdlib)).run
      (idleWorkers (postgresExperimentQueue sampleStdlib)) secondAttempt = some p ∧
        BoundedAttempts CheckedAttempts p := by
  obtain ⟨p, hp⟩ := Option.isSome_iff_exists.mp (show ((workerSystem (postgresExperimentQueue
    sampleStdlib)).run (idleWorkers (postgresExperimentQueue sampleStdlib))
      secondAttempt).isSome = true by decide +kernel)
  exact ⟨p, hp, attempts_bounded_of_checked sampleStdlib p
    (System.reaches_of_run secondAttempt hp (by decide +kernel))⟩

/-- Four workers claim one job in turn, each two hundred seconds after the one before it has
crashed. -/
def crashedWorkers : List (Move WorkerOp WorkerDraws) :=
  [.start (.schedule (sampleManifest (1 / 100) 1 cent_nonneg zero_lt_one) ["REG-001"])] ++
  sampleMoves 0 1 0 0 ++
  [.start (.runOnce "worker-1")] ++ sampleMoves 1 1 1 0 ++
  [.start (.runOnce "worker-2")] ++ sampleMoves 2 1 201 0 ++
  [.start (.runOnce "worker-3")] ++ sampleMoves 3 1 401 0 ++
  [.start (.runOnce "worker-4")] ++ sampleMoves 4 1 601 0

/-- A job with a limit of three attempts is handed out a fourth time. -/
theorem fourth_attempt_after_crashes :
    ¬∀ (lib : Stdlib) (p : WorkerPool (postgresExperimentQueue lib)),
      (workerSystem (postgresExperimentQueue lib)).Reaches (Outcomes ClockInRange)
        (idleWorkers (postgresExperimentQueue lib)) p → BoundedAttempts ClockInRange p := by
  intro h
  have hrun : ((workerSystem (postgresExperimentQueue sampleStdlib)).run
      (idleWorkers (postgresExperimentQueue sampleStdlib)) crashedWorkers).map
        (fun p => (Dict.get? (Database.jobs p.world.queue) 1).map fun row =>
          (row.attemptCount, row.maxAttempts)) = some (some (4, 3)) := by decide +kernel
  obtain ⟨p, hp, hjob⟩ := Option.map_eq_some_iff.mp hrun
  obtain ⟨row, hrow, hcounts⟩ := Option.map_eq_some_iff.mp hjob
  have hbounded := h sampleStdlib p
    (System.reaches_of_run crashedWorkers hp (by decide +kernel))
  have hle := hbounded.attempts 1 row hrow
  rw [Prod.mk.injEq] at hcounts
  omega

end Amlguard
