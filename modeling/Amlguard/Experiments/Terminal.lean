import Amlguard.Experiments.Rows

/-!
# Terminal jobs

A finished job is left alone by `claim` and `reserve_cost`, but `heartbeat`, `complete` and
`fail` write the status without reading it. `complete` keeps the lease owner, so the owner's
background heartbeat still reaches the finished row and sets it running, from where it is
claimed again when the lease runs out; an exception of the reporting after `complete` reaches
it through `fail`.

When no such late call arrives, terminal jobs stay terminal and the succeeded jobs are
exactly those whose session has a stored result.
-/

namespace Amlguard

open Awaited Numeric PostgresExperimentQueue

/-- The job is finished. -/
def Finished (row : ExperimentJobRecord) : Prop := row.status = .succeeded ∨ row.status = .failed

/-- Finished jobs keep their status. -/
def StaysFinished (db db' : Database) : Prop :=
  ∀ j row, db.jobs.get? j = some row → Finished row →
    ∃ row', db'.jobs.get? j = some row' ∧ row'.status = row.status

/-- The succeeded jobs are those whose session key has a stored result. -/
def SucceededExactly (db : Database) : Prop :=
  ∀ j row, db.jobs.get? j = some row →
    (row.status = .succeeded ↔ (db.sessions.get? row.sessionKey).isSome = true)

/-- No later claim hands out a job that was finished. -/
def NotReissued (db : Database) (issued issued' : List (String × ExperimentJob)) : Prop :=
  ∃ later, issued' = later ++ issued ∧
    ∀ claim ∈ later, ∀ row, db.jobs.get? claim.2.jobId = some row → ¬Finished row

/-- From `w` on, finished jobs keep their status and are not claimed again, and the results
stored in `w'` are those of the succeeded jobs. -/
structure KeepsFinished {lib : Stdlib} (w w' : WorkerWorld (postgresExperimentQueue lib)) :
    Prop where
  status : StaysFinished w.queue w'.queue
  claims : NotReissued w.queue w.issued w'.issued
  results : SucceededExactly w'.queue

/-- No call rewrites the status of a finished job: no heartbeat of the lease owner and no
failure reaches a succeeded job, and no accepted completion and no retry reaches a failed one. -/
def Undisturbed (db : Database) : QueueCall → Prop
  | .heartbeat jobId workerId => ∀ row ∈ db.jobs.get? jobId,
      row.status = .succeeded → row.leaseOwner ≠ some workerId
  | .complete job _ cost => ∀ manifest ∈ db.manifests.get? job.experimentId,
      ∀ row ∈ db.jobs.get? job.jobId, row.status = .failed →
        manifest.stopRequested = true ∨ manifest.costCeilingEur < manifest.costSpentEur + cost
  | .fail job _ retryable => ∀ row ∈ db.jobs.get? job.jobId, row.status ≠ .succeeded ∧
      (row.status = .failed → retryable = true → job.maxAttempts ≤ job.attemptCount)
  | _ => True

instance (db : Database) : (c : QueueCall) → Decidable (Undisturbed db c)
  | .heartbeat jobId workerId => inferInstanceAs (Decidable (∀ row ∈ db.jobs.get? jobId,
      row.status = .succeeded → row.leaseOwner ≠ some workerId))
  | .complete job _ cost => inferInstanceAs (Decidable
      (∀ manifest ∈ db.manifests.get? job.experimentId, ∀ row ∈ db.jobs.get? job.jobId,
        row.status = .failed →
          manifest.stopRequested = true ∨ manifest.costCeilingEur < manifest.costSpentEur + cost))
  | .fail job _ retryable => inferInstanceAs (Decidable (∀ row ∈ db.jobs.get? job.jobId,
      row.status ≠ .succeeded ∧
        (row.status = .failed → retryable = true → job.maxAttempts ≤ job.attemptCount)))
  | .schedule _ _ | .claim _ | .reserveCost _ _ | .stop _ | .resume _ => isTrue trivial

/-- The outcomes of runs in which no late call rewrites a finished job, unless the connection is
lost. -/
def UndisturbedRuns {lib : Stdlib} (w : WorkerWorld (postgresExperimentQueue lib))
    (o : WorkerDraws) (c : WorkerCall) : Prop :=
  ∀ call ∈ w.queueCall c, o.draws.outage = none → Undisturbed w.queue call

instance {lib : Stdlib} (w : WorkerWorld (postgresExperimentQueue lib)) (o : WorkerDraws)
    (c : WorkerCall) : Decidable (UndisturbedRuns w o c) :=
  inferInstanceAs (Decidable (∀ call ∈ w.queueCall c, o.draws.outage = none → Undisturbed w.queue call))

/-- A failed job has no lease, and results belong exactly to the succeeded jobs. -/
structure FinishedDb (db : Database) : Prop where
  results : SucceededExactly db
  lease : ∀ j row, db.jobs.get? j = some row → row.status = .failed → row.leaseOwner = none

/-- Nothing a claim can lease is finished. -/
theorem not_finished_of_claimable {draws : Draws} {db : Database} {j : UUID}
    {row : ExperimentJobRecord} (h : Claimable draws db j row) : ¬Finished row := by
  rintro (hs | hs) <;> rcases h.2.1 with ⟨h' | h', -⟩ | ⟨h' | h', -⟩ <;> rw [hs] at h' <;> cases h'

/-- Rewriting a row keeps the finished jobs when it keeps the row's status if finished. -/
theorem staysFinished_set {db : Database} {j : UUID} {row' : ExperimentJobRecord}
    {manifests : Dict UUID ExperimentRecord} {sessions : Dict String ExperimentSessionRecord}
    (h : ∀ row, db.jobs.get? j = some row → Finished row → row'.status = row.status) :
    StaysFinished db ⟨manifests, db.jobs.set j row', sessions⟩ := by
  intro k row hrow hfinished
  change ∃ found, (db.jobs.set j row').get? k = some found ∧ _
  rw [Dict.get?_set]
  split
  · rename_i heq
    exact ⟨row', rfl, h row (heq ▸ hrow) hfinished⟩
  · exact ⟨row, hrow, rfl⟩

/-- A call that disturbs no finished job keeps every finished job's status. -/
theorem staysFinished_effect {draws : Draws} {db db' : Database} {c : QueueCall}
    {r : Except PyError c.Reply} (h : FinishedDb db) (hcalm : Undisturbed db c)
    (heffect : Effect draws db c r db') : StaysFinished db db' := by
  cases heffect with
  | unchanged c r _ => exact fun _ row hrow _ => ⟨row, hrow, rfl⟩
  | scheduled manifest scenarioIds n db' hknown hrows =>
    exact fun j row hrow _ => ⟨row, get?_of_inserts hrows j row hrow, rfl⟩
  | created manifest scenarioIds n ceiling db' hnew hgrid hpos hrows =>
    exact fun j row hrow _ => ⟨row, get?_of_inserts hrows j row hrow, rfl⟩
  | leased workerId jobId row r hrow hclaimable hreply =>
    refine staysFinished_set fun found hfound hfinished => ?_
    rw [hrow] at hfound
    cases hfound
    exact (not_finished_of_claimable hclaimable hfinished).elim
  | beat jobId workerId row expires hrow howner =>
    refine staysFinished_set fun found hfound hfinished => ?_
    rw [hrow] at hfound
    cases hfound
    rcases hfinished with hs | hs
    · exact (hcalm row hrow hs howner).elim
    · rw [h.lease jobId row hrow hs] at howner
      cases howner
  | reserved job amount manifest row hmanifest hrow hnone hroom =>
    refine staysFinished_set fun found hfound _ => ?_
    rw [hrow] at hfound
    cases hfound
    rfl
  | completed job result cost manifest row sessions hmanifest hrow hrunning hroom hsessions =>
    refine staysFinished_set fun found hfound hfinished => ?_
    rw [hrow] at hfound
    cases hfound
    rcases hfinished with hs | hs
    · exact hs.symm
    · rcases hcalm manifest hmanifest row hrow hs with hstop | hlt
      · rw [hrunning] at hstop
        cases hstop
      · exact (not_lt.mpr hroom hlt).elim
  | failed job error retryable manifest row notBefore hmanifest hrow hdelay =>
    refine staysFinished_set fun found hfound hfinished => ?_
    rw [hrow] at hfound
    cases hfound
    obtain ⟨hnot, hretry⟩ := hcalm row hrow
    rcases hfinished with hs | hs
    · exact (hnot hs).elim
    · have hspent := hretry hs
      change failedStatus job retryable = row.status
      rw [hs, failedStatus, if_neg]
      rintro ⟨hretryable, hlt⟩
      exact absurd hlt (not_lt.mpr (hspent hretryable))
  | flagged c r experimentId manifest flag status hcall hmanifest =>
    exact fun _ row hrow _ => ⟨row, hrow, rfl⟩

/-- A claim hands out a job that was not finished. -/
theorem notReissued_effect {draws : Draws} {db db' : Database} {c : QueueCall}
    {r : Except PyError c.Reply} (heffect : Effect draws db c r db')
    (issued : List (String × ExperimentJob)) : NotReissued db issued (issuedBy c r ++ issued) := by
  refine ⟨issuedBy c r, rfl, fun claim hclaim row hrow => ?_⟩
  cases heffect with
  | unchanged c r hnone =>
    rw [hnone] at hclaim
    cases hclaim
  | leased workerId jobId found r hfound hclaimable hreply =>
    cases hjob : jobOfRow jobId (leasedRow draws workerId found) with
    | error e =>
      rw [hreply, hjob] at hclaim
      cases hclaim
    | ok job =>
      rw [hreply, hjob] at hclaim
      obtain rfl := List.mem_singleton.mp hclaim
      rw [show job.jobId = jobId from (copyOf_jobOfRow hjob).1, hfound] at hrow
      cases hrow
      exact not_finished_of_claimable hclaimable
  | flagged c r experimentId manifest flag status hcall hmanifest =>
    rcases hcall with ⟨rfl, -⟩ | ⟨rfl, -⟩ <;> cases hclaim
  | scheduled | created | beat | reserved | completed | failed => cases hclaim

namespace FinishedDb

variable {db : Database} {issued : List (String × ExperimentJob)}

/-- Rewriting a row within its session key keeps the results exact. -/
theorem setJob (h : FinishedDb db) {j : UUID} {row row' : ExperimentJobRecord}
    {manifests : Dict UUID ExperimentRecord} (hrow : db.jobs.get? j = some row)
    (hkey : row'.sessionKey = row.sessionKey)
    (hstatus : row'.status = .succeeded ↔ row.status = .succeeded)
    (hlease : row'.status = .failed → row'.leaseOwner = none) :
    FinishedDb ⟨manifests, db.jobs.set j row', db.sessions⟩ := by
  constructor
  · intro k found hfound
    change (db.jobs.set j row').get? k = some found at hfound
    rw [Dict.get?_set] at hfound
    split at hfound
    · cases hfound
      rw [hstatus, hkey]
      exact h.results j row hrow
    · exact h.results k found hfound
  · intro k found hfound hfailed
    change (db.jobs.set j row').get? k = some found at hfound
    rw [Dict.get?_set] at hfound
    split at hfound
    · cases hfound
      exact hlease hfailed
    · exact h.lease k found hfound hfailed

/-- Inserted jobs are pending and have no result. -/
theorem inserts {manifest : ExperimentManifest} {db' : Database} (h : FinishedDb db)
    (hconsistent : Consistent db issued)
    (hknown : (db.manifests.get? manifest.experimentId).isSome = true)
    (hrows : Relation.ReflTransGen (Inserts manifest) db db') : FinishedDb db' := by
  induction hrows with
  | refl => exact h
  | tail hrows hrow ih =>
    obtain ⟨hmid, -⟩ := hconsistent.inserts hknown hrows
    cases hrow with
    | row jobId notBefore key cost hfresh hkey hwidth hcost hgrid =>
      constructor
      · intro k found hfound
        change (Dict.set _ jobId _).get? k = some found at hfound
        rw [Dict.get?_set] at hfound
        split at hfound
        · cases hfound
          refine ⟨fun hs => (by cases hs), fun hsome => ?_⟩
          obtain ⟨session, hsession⟩ := Option.isSome_iff_exists.mp hsome
          obtain ⟨row, hrow, hk⟩ := hmid.sessionOf _ session hsession
          exact (hkey row (Dict.mem_values_of_get? _ hrow) hk).elim
        · exact ih.results k found hfound
      · intro k found hfound hfailed
        change (Dict.set _ jobId _).get? k = some found at hfound
        rw [Dict.get?_set] at hfound
        split at hfound
        · cases hfound
          cases hfailed
        · exact ih.lease k found hfound hfailed

/-- Completing a job gives its session a result and no other. -/
theorem complete (h : FinishedDb db) (hconsistent : Consistent db issued) {job : ExperimentJob}
    {row : ExperimentJobRecord} {result : Json} {manifests : Dict UUID ExperimentRecord}
    {sessions : Dict String ExperimentSessionRecord} {actual : ℚ}
    (hrow : db.jobs.get? job.jobId = some row) (hkey : row.sessionKey = job.sessionKey)
    (hsessions : insertSession job result db = .ok sessions) :
    FinishedDb ⟨manifests, db.jobs.set job.jobId
      { row with status := .succeeded, actualCostEur := some actual, reservedCostEur := 0 },
      sessions⟩ := by
  have hget : ∀ key, (sessions.get? key).isSome = true ↔
      key = job.sessionKey ∨ (db.sessions.get? key).isSome = true := by
    intro key
    unfold insertSession at hsessions
    split at hsessions
    · rename_i session hsession
      cases hsessions
      refine ⟨.inr, ?_⟩
      rintro (rfl | hsome)
      · rw [hsession]
        rfl
      · exact hsome
    · simp only [bind_eq_ok, raiseIf_eq_ok] at hsessions
      obtain ⟨stored, hfits, -, -, hsessions⟩ := hsessions
      cases varchar_eq_ok hfits
      cases hsessions
      rw [Dict.get?_set]
      split
      · rename_i heq
        exact ⟨fun _ => .inl heq.symm, fun _ => rfl⟩
      · rename_i hne
        exact ⟨.inr, fun hor => hor.elim (fun heq => (hne heq.symm).elim) id⟩
  constructor
  · intro k found hfound
    change (db.jobs.set job.jobId _).get? k = some found at hfound
    change found.status = .succeeded ↔ (sessions.get? found.sessionKey).isSome = true
    rw [hget]
    rw [Dict.get?_set] at hfound
    split at hfound
    · cases hfound
      simp [hkey]
    · rename_i hne
      rw [h.results k found hfound]
      refine ⟨.inr, ?_⟩
      rintro (heq | hsome)
      · exact (hne (hconsistent.keyOf _ _ _ _ hrow hfound (hkey.trans heq.symm))).elim
      · exact hsome
  · intro k found hfound hfailed
    change (db.jobs.set job.jobId _).get? k = some found at hfound
    rw [Dict.get?_set] at hfound
    split at hfound
    · cases hfound
      cases hfailed
    · exact h.lease k found hfound hfailed

/-- A call that disturbs no finished job keeps the results exact. -/
theorem effect {draws : Draws} {db' : Database} {c : QueueCall} {r : Except PyError c.Reply}
    (h : FinishedDb db) (hconsistent : Consistent db issued) (hissued : IssuedCall issued c)
    (hcalm : Undisturbed db c) (heffect : Effect draws db c r db') : FinishedDb db' := by
  cases heffect with
  | unchanged c r _ => exact h
  | scheduled manifest scenarioIds n db' hknown hrows => exact h.inserts hconsistent hknown hrows
  | created manifest scenarioIds n ceiling db' hnew hgrid hpos hrows =>
    have hstored : StoredAmounts (newManifest manifest ceiling) :=
      ⟨onGrid_zero 4, onGrid_zero 4, hgrid⟩
    refine FinishedDb.inserts ?_ (hconsistent.setManifest manifest.experimentId hstored) (by simp)
      hrows
    exact ⟨h.results, h.lease⟩
  | leased workerId jobId row r hrow hclaimable hreply =>
    refine h.setJob hrow rfl ⟨fun hs => (by cases hs), fun hs => ?_⟩ fun hs => (by cases hs)
    exact (not_finished_of_claimable hclaimable (.inl hs)).elim
  | beat jobId workerId row expires hrow howner =>
    refine h.setJob hrow rfl ⟨fun hs => (by cases hs), fun hs => ?_⟩ fun hs => (by cases hs)
    exact (hcalm row hrow hs howner).elim
  | reserved job amount manifest row hmanifest hrow hnone hroom =>
    exact h.setJob hrow rfl Iff.rfl (h.lease _ row hrow)
  | completed job result cost manifest row sessions hmanifest hrow hrunning hroom hsessions =>
    obtain ⟨workerId, hclaim⟩ := hissued
    obtain ⟨found, hfound, hcopy⟩ := hconsistent.copies _ hclaim
    rw [hrow] at hfound
    cases hfound
    exact h.complete hconsistent hrow hcopy.sessionKey hsessions
  | failed job error retryable manifest row notBefore hmanifest hrow hdelay =>
    refine h.setJob hrow rfl ⟨fun hs => ?_, fun hs => ?_⟩ fun _ => rfl
    · change failedStatus job retryable = .succeeded at hs
      unfold failedStatus at hs
      split at hs <;> cases hs
    · exact ((hcalm row hrow).1 hs).elim
  | flagged c r experimentId manifest flag status hcall hmanifest => exact ⟨h.results, h.lease⟩

end FinishedDb

/-- In every reachable state of an undisturbed run the results are exact and failed jobs have
no lease. -/
theorem reachable_finishedDb {lib : Stdlib} {p : WorkerPool (postgresExperimentQueue lib)}
    (hreach : (workerSystem (postgresExperimentQueue lib)).Reaches (Outcomes UndisturbedRuns)
      (idleWorkers (postgresExperimentQueue lib)) p) :
    Consistent p.world.queue p.world.issued ∧ FinishedDb p.world.queue := by
  refine worker_invariant (I := fun db issued => Consistent db issued ∧ FinishedDb db) ?_
    (fun w w' hcall h => ?_) hreach
  · exact ⟨Consistent.initial, fun _ _ h => (by cases h), fun _ _ h => (by cases h)⟩
  · obtain ⟨o, c, call, hok, hcalled, hissued, hqueue, hclaims⟩ := hcall
    have heffect := postgres_step_effect lib o.draws call w.queue
    rw [hqueue, hclaims]
    refine ⟨h.1.effect hissued heffect, ?_⟩
    cases houtage : o.draws.outage with
    | none => exact h.2.effect h.1 hissued (hok call hcalled houtage) heffect
    | some e =>
      rw [postgres_step_lost lib houtage]
      exact h.2

/-- In an undisturbed run finished jobs stay finished and are never claimed again, and a job
is succeeded exactly when its session has a stored result. -/
theorem finished_of_undisturbed (lib : Stdlib) (p q : WorkerPool (postgresExperimentQueue lib))
    (hp : (workerSystem (postgresExperimentQueue lib)).Reaches (Outcomes UndisturbedRuns)
      (idleWorkers (postgresExperimentQueue lib)) p)
    (hq : (workerSystem (postgresExperimentQueue lib)).Reaches (Outcomes UndisturbedRuns) p q) :
    KeepsFinished p.world q.world := by
  have hkeeps : StaysFinished p.world.queue q.world.queue ∧
      NotReissued p.world.queue p.world.issued q.world.issued := by
    induction hq with
    | refl => exact ⟨fun _ row hrow _ => ⟨row, hrow, rfl⟩, [], rfl, fun _ h => by cases h⟩
    | @tail mid last hmid hstep ih =>
      have hreach := hp.trans hmid
      obtain ⟨hstays, later, hlater, hnot⟩ := ih
      rcases worker_step_cases hreach hstep with ⟨hqueue, hissued⟩ | hcall
      · rw [hqueue, hissued]
        exact ⟨hstays, later, hlater, hnot⟩
      · obtain ⟨o, c, call, hok, hcalled, -, hqueue, hclaims⟩ := hcall
        have heffect := postgres_step_effect lib o.draws call mid.world.queue
        have hstep : StaysFinished mid.world.queue
            ((postgresExperimentQueue lib).step o.draws call mid.world.queue).2 := by
          cases houtage : o.draws.outage with
          | none =>
            exact staysFinished_effect (reachable_finishedDb hreach).2 (hok call hcalled houtage)
              heffect
          | some e =>
            rw [postgres_step_lost lib houtage]
            exact fun _ row hrow _ => ⟨row, hrow, rfl⟩
        obtain ⟨fresh, hfresh, hfreshNot⟩ := notReissued_effect heffect mid.world.issued
        rw [← hqueue] at hstep
        refine ⟨fun j row hrow hfinished => ?_, fresh ++ later, ?_, ?_⟩
        · obtain ⟨row', hrow', hstatus⟩ := hstays j row hrow hfinished
          obtain ⟨row'', hrow'', hstatus'⟩ := hstep j row' hrow' (by rwa [Finished, hstatus])
          exact ⟨row'', hrow'', hstatus'.trans hstatus⟩
        · rw [hclaims, hfresh, hlater, List.append_assoc]
        · intro claim hclaim row hrow hfinished
          rcases List.mem_append.mp hclaim with hnew | hold
          · obtain ⟨row', hrow', hstatus⟩ := hstays _ row hrow hfinished
            exact hfreshNot claim hnew row' hrow' (by rwa [Finished, hstatus])
          · exact hnot claim hold row hrow hfinished
  exact ⟨hkeeps.1, hkeeps.2, (reachable_finishedDb (hp.trans hq)).2.results⟩

/-- A worker completes its job; then its round ends. -/
def completedRound : List (Move WorkerOp WorkerDraws) :=
  [.start (.schedule (sampleManifest (1 / 100) (1 / 50) cent_nonneg twoCents_pos) ["REG-001"])] ++
  sampleMoves 0 1 0 0 ++ [.start (.runOnce "worker-1")] ++ sampleMoves 1 5 1 (1 / 100)

/-- A completed job stays completed while its worker reports and stops its heartbeat. -/
theorem finished_of_undisturbed_round :
    ∃ p q, (workerSystem (postgresExperimentQueue sampleStdlib)).run
        (idleWorkers (postgresExperimentQueue sampleStdlib)) completedRound = some p ∧
      (workerSystem (postgresExperimentQueue sampleStdlib)).run p (sampleMoves 1 2 2 0) = some q ∧
        KeepsFinished p.world q.world := by
  obtain ⟨q, hq⟩ := Option.isSome_iff_exists.mp (show (((workerSystem (postgresExperimentQueue
    sampleStdlib)).run (idleWorkers (postgresExperimentQueue sampleStdlib)) completedRound).bind
      fun p => (workerSystem (postgresExperimentQueue sampleStdlib)).run p
        (sampleMoves 1 2 2 0)).isSome = true by decide +kernel)
  obtain ⟨p, hp, hq⟩ := Option.bind_eq_some_iff.mp hq
  have hadmits : ∀ p ∈ (workerSystem (postgresExperimentQueue sampleStdlib)).run
      (idleWorkers (postgresExperimentQueue sampleStdlib)) completedRound,
      (workerSystem (postgresExperimentQueue sampleStdlib)).Admits (Outcomes UndisturbedRuns) p
        (sampleMoves 1 2 2 0) := by decide +kernel
  exact ⟨p, q, hp, hq, finished_of_undisturbed sampleStdlib p q
    (System.reaches_of_run completedRound hp (by decide +kernel))
    (System.reaches_of_run _ hq (hadmits p hp))⟩

/-- One more iteration of the background heartbeat, before the round cancels it. -/
def lateHeartbeat : List (Move WorkerOp WorkerDraws) :=
  [.start (.beat 1)] ++ sampleMoves 2 1 31 0

/-- The owner's background heartbeat sets a succeeded job running again. -/
theorem succeeded_job_reopened_by_heartbeat :
    ¬∀ (lib : Stdlib) (p q : WorkerPool (postgresExperimentQueue lib)),
      (workerSystem (postgresExperimentQueue lib)).Reaches (Outcomes AnyOutcome)
        (idleWorkers (postgresExperimentQueue lib)) p →
      (workerSystem (postgresExperimentQueue lib)).Reaches (Outcomes AnyOutcome) p q →
        KeepsFinished p.world q.world := by
  intro h
  have hrun : ((workerSystem (postgresExperimentQueue sampleStdlib)).run
      (idleWorkers (postgresExperimentQueue sampleStdlib)) completedRound).bind (fun p =>
        ((workerSystem (postgresExperimentQueue sampleStdlib)).run p lateHeartbeat).map fun q =>
          ((Dict.get? (Database.jobs p.world.queue) 1).map (·.status),
            (Dict.get? (Database.jobs q.world.queue) 1).map (·.status))) =
      some (some .succeeded, some .running) := by decide +kernel
  obtain ⟨p, hp, hq⟩ := Option.bind_eq_some_iff.mp hrun
  obtain ⟨q, hq, hstatus⟩ := Option.map_eq_some_iff.mp hq
  rw [Prod.mk.injEq] at hstatus
  obtain ⟨row, hrow, hsucceeded⟩ := Option.map_eq_some_iff.mp hstatus.1
  have hkeeps := h sampleStdlib p q
    (System.reaches_of_run completedRound hp (by decide +kernel))
    (System.reaches_of_run lateHeartbeat hq ⟨trivial, fun _ _ => ⟨fun _ _ => trivial,
      fun _ _ => trivial⟩⟩)
  obtain ⟨row', hrow', hsame⟩ := hkeeps.status 1 row hrow (.inl hsucceeded)
  rw [hrow', Option.map_some, hsame, hsucceeded] at hstatus
  cases hstatus.2

end Amlguard
