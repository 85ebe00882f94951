import Amlguard.Experiments.Pause

/-!
# Stored results

A completion stores its result unless the session key has one. The results that are stored
after a run are therefore a function of the completions that succeeded in it: under each key
the first of them. The log of a run's completions says so for every interleaving, and every
later statement about stored results is read from it.

`results_for` selects among the stored results those whose key belongs to a job of the
experiment. On PostgreSQL it goes through the job that stored the result, which is the only
job of its key.
-/

namespace Amlguard

open Awaited

/-- The first entry of a log under a key. -/
def firstOf (log : List (String × Json)) (key : String) : Option Json :=
  (log.find? fun entry => decide (entry.1 = key)).map (·.2)

@[simp] theorem firstOf_nil (key : String) : firstOf [] key = none := rfl

/-- A log of one entry. -/
theorem firstOf_singleton (entry : String × Json) (key : String) :
    firstOf [entry] key = if entry.1 = key then some entry.2 else none := by
  by_cases h : entry.1 = key <;> simp [firstOf, h]

/-- A longer log keeps the first entries. -/
theorem firstOf_append (log later : List (String × Json)) (key : String) :
    firstOf (log ++ later) key = (firstOf log key).or (firstOf later key) := by
  unfold firstOf
  rw [List.find?_append]
  cases log.find? fun entry => decide (entry.1 = key) <;> simp

/-- The entry that a call adds to the log: a completion that succeeds. -/
def completedBy (Q : ExperimentQueue) (draws : Draws) (s : Q.State) :
    QueueCall → List (String × Json)
  | .complete job result cost =>
    match (Q.step draws (.complete job result cost) s).1 with
    | .ok _ => [(job.sessionKey, result)]
    | .error _ => []
  | _ => []

/-- A completion adds its result when it succeeds. -/
theorem completedBy_complete (Q : ExperimentQueue) (draws : Draws) (s : Q.State)
    (job : ExperimentJob) (result : Json) (cost : ℚ) :
    completedBy Q draws s (.complete job result cost) =
      match (Q.step draws (.complete job result cost) s).1 with
      | .ok _ => [(job.sessionKey, result)]
      | .error _ => [] := rfl

/-- No other call adds to the log. -/
theorem completedBy_of_ne (Q : ExperimentQueue) (draws : Draws) (s : Q.State) {c : QueueCall}
    (hc : ∀ job result cost, c ≠ .complete job result cost) : completedBy Q draws s c = [] := by
  unfold completedBy
  split
  · exact (hc _ _ _ rfl).elim
  · rfl

/-- After a call each key has its old result, or the one that the call has completed. -/
def StoresFirst (Q : ExperimentQueue) (stored : Q.State → String → Option Json) (draws : Draws)
    (c : QueueCall) (s : Q.State) : Prop :=
  ∀ key, stored (Q.step draws c s).2 key =
    (stored s key).or (firstOf (completedBy Q draws s c) key)

/-- The entry that a move of a pool adds to the log. -/
def completedIn {Q : ExperimentQueue} (p : WorkerPool Q) :
    Move WorkerOp WorkerDraws → List (String × Json)
  | .start _ => []
  | .advance i o =>
    ((p.awaits i).bind p.world.queueCall).elim [] (completedBy Q o.draws p.world.queue)

/-- The successful completions of a run, in their order. -/
def completions {Q : ExperimentQueue} : WorkerPool Q → List (Move WorkerOp WorkerDraws) →
    List (String × Json)
  | _, [] => []
  | p, m :: rest =>
    completedIn p m ++ ((workerSystem Q).move p m).elim [] fun q => completions q rest

namespace QueueImplementation

variable (lib : Stdlib)

/-- The result stored under a session key. -/
def stored : (implementation : QueueImplementation) → (implementation.queue lib).State → String →
    Option Json
  | .inMemory, q, key => Dict.get? (InMemoryQueue.results q) key
  | .postgres, db, key => (Dict.get? (Database.sessions db) key).map (·.result)

/-- A job of an experiment has the session key. -/
def HasJob : (implementation : QueueImplementation) → (implementation.queue lib).State → UUID →
    String → Prop
  | .inMemory, q, e, key => ∃ j job, Dict.get? (InMemoryQueue.jobs q) j = some job ∧
      job.experimentId = e ∧ job.sessionKey = key
  | .postgres, db, e, key => ∃ j row, Dict.get? (Database.jobs db) j = some row ∧
      row.experimentId = e ∧ row.sessionKey = key

/-- `results_for`. -/
def resultsFor : (implementation : QueueImplementation) → (implementation.queue lib).State → UUID →
    Dict String Json
  | .inMemory, q, e => InMemoryExperimentQueue.resultsFor e q
  | .postgres, db, e => PostgresExperimentQueue.resultsFor e db

/-- The results of an implementation are written once: after every run the stored results are
those of the first completions, no later run changes them, and `results_for` serves exactly
those of an experiment's jobs. -/
structure WriteOnce (implementation : QueueImplementation) : Prop where
  first : ∀ moves p, (workerSystem (implementation.queue lib)).run
    (idleWorkers (implementation.queue lib)) moves = some p →
      ∀ key, implementation.stored lib p.world.queue key =
        firstOf (completions (idleWorkers (implementation.queue lib)) moves) key
  kept : ∀ p q, (workerSystem (implementation.queue lib)).Reaches (Outcomes AnyOutcome)
    (idleWorkers (implementation.queue lib)) p →
      (workerSystem (implementation.queue lib)).Reaches (Outcomes AnyOutcome) p q →
        ∀ key result, implementation.stored lib p.world.queue key = some result →
          implementation.stored lib q.world.queue key = some result
  served : ∀ p, (workerSystem (implementation.queue lib)).Reaches (Outcomes AnyOutcome)
    (idleWorkers (implementation.queue lib)) p →
      ∀ e key result, (implementation.resultsFor lib p.world.queue e).get? key = some result ↔
        implementation.HasJob lib p.world.queue e key ∧
          implementation.stored lib p.world.queue key = some result

end QueueImplementation

namespace PostgresExperimentQueue

/-- A committed completion stores its result unless its key has one. -/
theorem sessions_of_complete {job : ExperimentJob} {result : Json} {cost : ℚ} {db db' : Database}
    (h : complete job result cost db = .ok ((), db')) :
    insertSession job result db = .ok db'.sessions := by
  simp only [complete, bind_eq_ok] at h
  obtain ⟨manifest, -, -, -, row, -, -, -, reserved, -, spent, -, sessions, hsessions, actual, -,
    h⟩ := h
  cases h
  exact hsessions

/-- The results after an insertion. -/
theorem get?_insertSession {job : ExperimentJob} {result : Json} {db : Database}
    {sessions : Dict String ExperimentSessionRecord}
    (h : insertSession job result db = .ok sessions) (key : String) :
    (sessions.get? key).map (·.result) =
      ((db.sessions.get? key).map (·.result)).or (firstOf [(job.sessionKey, result)] key) := by
  rw [firstOf_singleton]
  unfold insertSession at h
  split at h
  · rename_i session hsession
    cases h
    by_cases heq : job.sessionKey = key
    · rw [← heq, hsession, Option.map_some, Option.some_or]
    · rw [if_neg heq, Option.or_none]
  · rename_i hnone
    simp only [bind_eq_ok] at h
    obtain ⟨stored, hfits, -, -, h⟩ := h
    cases varchar_eq_ok hfits
    cases h
    rw [Dict.get?_set]
    by_cases heq : job.sessionKey = key
    · rw [← heq, hnone, if_pos rfl, if_pos rfl, Option.map_none, Option.none_or, Option.map_some]
    · rw [if_neg heq, if_neg heq, Option.or_none]

/-- A call that is not a completion leaves the results. -/
theorem sessions_of_effect {draws : Draws} {db db' : Database} {c : QueueCall}
    {r : Except PyError c.Reply} (h : Effect draws db c r db')
    (hc : ∀ job result cost, c ≠ .complete job result cost) : db'.sessions = db.sessions := by
  have hinserts : ∀ {manifest : ExperimentManifest} {start db' : Database},
      Relation.ReflTransGen (Inserts manifest) start db' → db'.sessions = start.sessions := by
    intro manifest start db' hrows
    induction hrows with
    | refl => rfl
    | tail _ hrow ih =>
      cases hrow with
      | row => exact ih
  cases h with
  | unchanged | leased | beat | reserved | failed | flagged => rfl
  | scheduled manifest scenarioIds n db' hknown hrows => exact hinserts hrows
  | created manifest scenarioIds n ceiling db' hnew hgrid hpos hrows =>
    exact (hinserts hrows :)
  | completed job result cost => exact (hc job result cost rfl).elim

/-- Every call stores first results only. -/
theorem stored_step (lib : Stdlib) (draws : Draws) (c : QueueCall) (db : Database) :
    StoresFirst (postgresExperimentQueue lib) (QueueImplementation.postgres.stored lib) draws c db := by
  intro key
  by_cases hcomplete : ∃ job result cost, c = .complete job result cost
  · obtain ⟨job, result, cost, rfl⟩ := hcomplete
    cases houtage : draws.outage with
    | some e => simp [completedBy, houtage]
    | none =>
      have hstep : (postgresExperimentQueue lib).step draws (.complete job result cost) db =
          Database.session (complete job result cost) db := by
        simp only [postgresExperimentQueue, houtage]
        rfl
      rw [completedBy_complete, hstep]
      rcases session_cases (complete job result cost) db with
        ⟨u, db', hblock, hsession⟩ | ⟨e, -, hsession⟩
      · rw [hsession]
        exact get?_insertSession (sessions_of_complete hblock) key
      · rw [hsession]
        exact (Option.or_none ..).symm
  · have hsame := sessions_of_effect (postgres_step_effect lib draws c db)
      fun job result cost heq => hcomplete ⟨job, result, cost, heq⟩
    rw [completedBy_of_ne _ _ _ fun job result cost heq => hcomplete ⟨job, result, cost, heq⟩,
      firstOf_nil, Option.or_none]
    exact congrArg (fun sessions => (Dict.get? sessions key).map (·.result)) hsame

/-- `results_for` serves the results of the experiment's jobs. -/
theorem resultsFor_eq_some_iff {db : Database} {issued : List (String × ExperimentJob)}
    (h : Consistent db issued) (e : UUID) (key : String) (result : Json) :
    (resultsFor e db).get? key = some result ↔
      (∃ j row, db.jobs.get? j = some row ∧ row.experimentId = e ∧ row.sessionKey = key) ∧
        (db.sessions.get? key).map (·.result) = some result := by
  rw [resultsFor, Dict.get?_filterMap, Option.bind_eq_some_iff, Option.map_eq_some_iff]
  constructor
  · rintro ⟨session, hsession, hresult⟩
    split at hresult
    · rename_i row hrow
      obtain ⟨found, hfound, hkey⟩ := h.sessionOf key session hsession
      rw [hrow] at hfound
      cases hfound
      split at hresult
      · rename_i hexperiment
        cases hresult
        exact ⟨⟨_, row, hrow, hexperiment, hkey⟩, session, hsession, rfl⟩
      · cases hresult
    · cases hresult
  · rintro ⟨⟨j, row, hrow, hexperiment, hkey⟩, session, hsession, rfl⟩
    refine ⟨session, hsession, ?_⟩
    obtain ⟨found, hfound, hfoundKey⟩ := h.sessionOf key session hsession
    obtain rfl : j = session.jobId := h.keyOf _ _ _ _ hrow hfound (hkey.trans hfoundKey.symm)
    rw [hrow]
    exact if_pos hexperiment

end PostgresExperimentQueue

namespace InMemoryExperimentQueue

/-- Later jobs: none is lost, and each is kept under its own ID if the earlier ones were. -/
structure KeepsJobs (jobs jobs' : Dict UUID ExperimentJob) : Prop where
  kept : ∀ j, (jobs.get? j).isSome = true → (jobs'.get? j).isSome = true
  own : (∀ j job, jobs.get? j = some job → job.jobId = j) →
    ∀ j job, jobs'.get? j = some job → job.jobId = j

/-- Nothing happens to the jobs. -/
theorem KeepsJobs.refl (jobs : Dict UUID ExperimentJob) : KeepsJobs jobs jobs :=
  ⟨fun _ h => h, fun h => h⟩

/-- Two changes of the jobs, one after the other. -/
theorem KeepsJobs.trans {jobs jobs' jobs'' : Dict UUID ExperimentJob} (h : KeepsJobs jobs jobs')
    (h' : KeepsJobs jobs' jobs'') : KeepsJobs jobs jobs'' :=
  ⟨fun j hj => h'.kept j (h.kept j hj), fun hown => h'.own (h.own hown)⟩

/-- A job is written under its own ID. -/
theorem keepsJobs_set (jobs : Dict UUID ExperimentJob) {j : UUID} {job : ExperimentJob}
    (hown : (∀ j job, jobs.get? j = some job → job.jobId = j) → job.jobId = j) :
    KeepsJobs jobs (jobs.set j job) := by
  constructor
  · intro k hk
    rw [Dict.get?_set]
    split
    · rfl
    · exact hk
  · intro hjobs k found hfound
    rw [Dict.get?_set] at hfound
    split at hfound
    · rename_i heq
      cases hfound
      exact (hown hjobs).trans heq
    · exact hjobs k found hfound

/-- Adding jobs keeps the old ones and every result. -/
theorem addJobs_keeps (manifest : ExperimentManifest) (fresh : ℕ → UUID × Datetime)
    (existing : List String) (keys : List (String × String × String × ℕ)) (i : ℕ)
    (q : InMemoryQueue) :
    KeepsJobs q.jobs (addJobs manifest fresh existing i keys q).2.jobs ∧
      (addJobs manifest fresh existing i keys q).2.results = q.results := by
  induction keys generalizing i q with
  | nil => exact ⟨.refl _, rfl⟩
  | cons key keys ih =>
    unfold addJobs
    split
    · exact ih i q
    · split
      · exact ⟨.refl _, rfl⟩
      · rename_i job _
        obtain ⟨hjobs, hresults⟩ := ih (i + 1) { q with jobs := q.jobs.set job.jobId job }
        exact ⟨(keepsJobs_set q.jobs fun _ => rfl).trans hjobs, hresults⟩

/-- One iteration of a claim keeps the jobs and every result, and hands out a stored job. -/
theorem visit_keeps (now : Datetime) (workerId : String) (j : UUID) (job : ExperimentJob)
    (q : InMemoryQueue) (hown : job.jobId = j) :
    (KeepsJobs q.jobs (visit now workerId j job q).2.jobs ∧
      (visit now workerId j job q).2.results = q.results) ∧
      ∀ found, (visit now workerId j job q).1 = some (.ok (some found)) →
        ((visit now workerId j job q).2.jobs.get? found.jobId).isSome = true := by
  unfold visit
  split
  · exact ⟨⟨.refl _, rfl⟩, fun found h => by cases h⟩
  · split
    · split
      · exact ⟨⟨.refl _, rfl⟩, fun found h => by cases h⟩
      · refine ⟨⟨keepsJobs_set q.jobs fun _ => hown, rfl⟩, fun found h => ?_⟩
        cases h
        change ((q.jobs.set j _).get? job.jobId).isSome = true
        rw [hown, Dict.get?_set_self]
        rfl
    · split
      · exact ⟨⟨keepsJobs_set q.jobs fun _ => hown, rfl⟩, fun found h => by cases h⟩
      · exact ⟨⟨.refl _, rfl⟩, fun found h => by cases h⟩

/-- A claim keeps the jobs and every result, and hands out a stored job. -/
theorem claimLoop_keeps (now : Datetime) (workerId : String)
    (entries : List (UUID × ExperimentJob)) (q : InMemoryQueue)
    (hown : ∀ entry ∈ entries, entry.2.jobId = entry.1) :
    (KeepsJobs q.jobs (claimLoop now workerId entries q).2.jobs ∧
      (claimLoop now workerId entries q).2.results = q.results) ∧
      ∀ found, (claimLoop now workerId entries q).1 = .ok (some found) →
        ((claimLoop now workerId entries q).2.jobs.get? found.jobId).isSome = true := by
  induction entries generalizing q with
  | nil => exact ⟨⟨.refl _, rfl⟩, fun found h => by cases h⟩
  | cons entry rest ih =>
    obtain ⟨⟨hjobs, hresults⟩, hfound⟩ :=
      visit_keeps now workerId entry.1 entry.2 q (hown entry List.mem_cons_self)
    unfold claimLoop
    split
    · rename_i r q' hvisit
      rw [hvisit] at hjobs hresults hfound
      exact ⟨⟨hjobs, hresults⟩, fun found h => hfound found (by rw [← h])⟩
    · rename_i q' hvisit
      rw [hvisit] at hjobs hresults
      obtain ⟨⟨hjobs', hresults'⟩, hfound'⟩ :=
        ih q' fun e he => hown e (List.mem_cons_of_mem _ he)
      exact ⟨⟨hjobs.trans hjobs', hresults'.trans hresults⟩, hfound'⟩

/-- A call keeps the jobs, and a claim hands out a stored one. -/
theorem perform_jobs (lib : Stdlib) (draws : Draws) (c : QueueCall) (q : InMemoryQueue)
    (hown : ∀ j job, q.jobs.get? j = some job → job.jobId = j) :
    KeepsJobs q.jobs (perform lib draws c q).2.jobs ∧
      ∀ claim ∈ issuedBy c (perform lib draws c q).1,
        ((perform lib draws c q).2.jobs.get? claim.2.jobId).isSome = true := by
  have hupdate : ∀ {j : UUID} {job job' : ExperimentJob}, q.jobs.get? j = some job →
      job'.jobId = job.jobId → KeepsJobs q.jobs (q.jobs.set j job') := by
    intro j job job' hjob hid
    exact keepsJobs_set q.jobs fun h => hid.trans (h j job hjob)
  cases c with
  | schedule manifest scenarioIds =>
    refine ⟨?_, fun claim hclaim => by cases hclaim⟩
    simp only [perform, schedule]
    have hkeeps := (addJobs_keeps manifest draws.fresh (q.jobs.values.map (·.sessionKey))
      (lib.shuffle manifest.randomizationSeed (scheduleKeys lib manifest scenarioIds)) 0
      { q with manifests := q.manifests.set manifest.experimentId manifest }).1
    split <;> rename_i hadd <;> rw [hadd] at hkeeps <;> exact hkeeps
  | claim workerId =>
    have hentries : ∀ entry ∈ q.jobs.entries, entry.2.jobId = entry.1 :=
      fun entry hentry => hown _ _ ((q.jobs.mem_entries_iff entry.1 entry.2).mp hentry)
    obtain ⟨⟨hjobs, -⟩, hfound⟩ := claimLoop_keeps draws.now workerId q.jobs.entries q hentries
    refine ⟨hjobs, fun claim hclaim => ?_⟩
    simp only [perform, InMemoryExperimentQueue.claim] at hclaim ⊢
    cases hreply : (claimLoop draws.now workerId q.jobs.entries q).1 with
    | error e =>
      rw [hreply] at hclaim
      cases hclaim
    | ok found =>
      cases found with
      | none =>
        rw [hreply] at hclaim
        cases hclaim
      | some job =>
        rw [hreply] at hclaim
        obtain rfl := List.mem_singleton.mp hclaim
        exact hfound job hreply
  | heartbeat jobId workerId =>
    refine ⟨?_, fun claim hclaim => by cases hclaim⟩
    simp only [perform, heartbeat]
    split
    · exact .refl _
    · rename_i job hjob
      split
      · exact .refl _
      · split
        · exact .refl _
        · exact hupdate hjob rfl
  | reserveCost job amount =>
    refine ⟨?_, fun claim hclaim => by cases hclaim⟩
    simp only [perform, reserveCost]
    split
    · exact .refl _
    · split
      · exact .refl _
      · split <;> exact .refl _
  | complete job result cost =>
    refine ⟨?_, fun claim hclaim => by cases hclaim⟩
    simp only [perform, complete]
    split
    · exact .refl _
    · split
      · exact .refl _
      · split
        · exact .refl _
        · rename_i current hcurrent
          exact hupdate hcurrent rfl
  | fail job error retryable =>
    refine ⟨?_, fun claim hclaim => by cases hclaim⟩
    simp only [perform, fail]
    split
    · exact .refl _
    · rename_i current hcurrent
      split
      · exact .refl _
      · exact hupdate hcurrent rfl
  | stop experimentId => exact ⟨.refl _, fun claim hclaim => by cases hclaim⟩
  | resume experimentId => exact ⟨.refl _, fun claim hclaim => by cases hclaim⟩

/-- A call that is not a completion leaves the results. -/
theorem results_perform (lib : Stdlib) (draws : Draws) {c : QueueCall} (q : InMemoryQueue)
    (hown : ∀ j job, q.jobs.get? j = some job → job.jobId = j)
    (hc : ∀ job result cost, c ≠ .complete job result cost) :
    (perform lib draws c q).2.results = q.results := by
  cases c with
  | complete job result cost => exact (hc job result cost rfl).elim
  | schedule manifest scenarioIds =>
    simp only [perform, schedule]
    have hkeeps := (addJobs_keeps manifest draws.fresh (q.jobs.values.map (·.sessionKey))
      (lib.shuffle manifest.randomizationSeed (scheduleKeys lib manifest scenarioIds)) 0
      { q with manifests := q.manifests.set manifest.experimentId manifest }).2
    split <;> rename_i hadd <;> rw [hadd] at hkeeps <;> exact hkeeps
  | claim workerId =>
    have hentries : ∀ entry ∈ q.jobs.entries, entry.2.jobId = entry.1 :=
      fun entry hentry => hown _ _ ((q.jobs.mem_entries_iff entry.1 entry.2).mp hentry)
    exact (claimLoop_keeps draws.now workerId q.jobs.entries q hentries).1.2
  | heartbeat jobId workerId =>
    simp only [perform, heartbeat]
    split
    · rfl
    · split
      · rfl
      · split <;> rfl
  | reserveCost job amount =>
    simp only [perform, reserveCost]
    split
    · rfl
    · split
      · rfl
      · split <;> rfl
  | fail job error retryable =>
    simp only [perform, fail]
    split
    · rfl
    · split <;> rfl
  | stop experimentId => rfl
  | resume experimentId => rfl

/-- A completion of a stored job raises and leaves the results, or stores its own unless its
key has one. -/
theorem complete_results (q : InMemoryQueue) (job : ExperimentJob) (result : Json) (cost : ℚ)
    (hknown : (q.jobs.get? job.jobId).isSome = true) :
    (∃ e, (complete job result cost q).1 = .error e ∧
      (complete job result cost q).2.results = q.results) ∨
    (complete job result cost q).1 = .ok () ∧
      (complete job result cost q).2.results =
        if q.results.contains job.sessionKey then q.results
        else q.results.set job.sessionKey result := by
  obtain ⟨current, hcurrent⟩ := Option.isSome_iff_exists.mp hknown
  unfold complete
  split
  · exact .inl ⟨_, rfl, rfl⟩
  · dsimp only
    split
    · exact .inl ⟨_, rfl, rfl⟩
    · rw [hcurrent]
      exact .inr ⟨rfl, rfl⟩

/-- The results after one more, unless its key has one. -/
theorem get?_setDefault (results : Dict String Json) (sessionKey : String) (result : Json)
    (key : String) :
    (if results.contains sessionKey then results else results.set sessionKey result).get? key =
      (results.get? key).or (firstOf [(sessionKey, result)] key) := by
  rw [firstOf_singleton]
  by_cases heq : sessionKey = key
  · subst heq
    rw [if_pos rfl]
    split
    · rename_i hcontains
      obtain ⟨r, hr⟩ := Option.isSome_iff_exists.mp hcontains
      rw [hr, Option.some_or]
    · rename_i hcontains
      have hnone : results.get? sessionKey = none := by
        simpa [Dict.contains] using hcontains
      rw [hnone, Dict.get?_set_self, Option.none_or]
  · rw [if_neg heq, Option.or_none]
    split
    · rfl
    · exact Dict.get?_set_ne _ heq _

/-- Every call for a stored job stores first results only. -/
theorem stored_step (lib : Stdlib) (draws : Draws) (c : QueueCall) (q : InMemoryQueue)
    (hown : ∀ j job, q.jobs.get? j = some job → job.jobId = j)
    (hknown : ∀ job result cost, c = .complete job result cost →
      (q.jobs.get? job.jobId).isSome = true) :
    StoresFirst (inMemoryExperimentQueue lib) (QueueImplementation.inMemory.stored lib) draws c q := by
  intro key
  by_cases hcomplete : ∃ job result cost, c = .complete job result cost
  · obtain ⟨job, result, cost, rfl⟩ := hcomplete
    have hstep : (inMemoryExperimentQueue lib).step draws (.complete job result cost) q =
        complete job result cost q := rfl
    rw [completedBy_complete, hstep]
    rcases complete_results q job result cost (hknown job result cost rfl) with
      ⟨e, hreply, hresults⟩ | ⟨hreply, hresults⟩
    · rw [hreply]
      exact (congrArg (fun results => Dict.get? results key) hresults).trans (Option.or_none ..).symm
    · rw [hreply]
      exact (congrArg (fun results => Dict.get? results key) hresults).trans
        (get?_setDefault q.results job.sessionKey result key)
  · have hne : ∀ job result cost, c ≠ .complete job result cost :=
      fun job result cost heq => hcomplete ⟨job, result, cost, heq⟩
    rw [completedBy_of_ne _ _ _ hne, firstOf_nil, Option.or_none]
    exact congrArg (fun results => Dict.get? results key) (results_perform lib draws q hown hne)

/-- `results_for` serves the results of the experiment's jobs. -/
theorem resultsFor_eq_some_iff (q : InMemoryQueue) (e : UUID) (key : String) (result : Json) :
    (resultsFor e q).get? key = some result ↔
      (∃ j job, q.jobs.get? j = some job ∧ job.experimentId = e ∧ job.sessionKey = key) ∧
        q.results.get? key = some result := by
  have hmem : key ∈ (q.jobs.values.filter fun job => decide (job.experimentId = e)).map
      (·.sessionKey) ↔
        ∃ j job, q.jobs.get? j = some job ∧ job.experimentId = e ∧ job.sessionKey = key := by
    simp only [List.mem_map, List.mem_filter, decide_eq_true_eq]
    constructor
    · rintro ⟨job, ⟨hjob, hexperiment⟩, hkey⟩
      obtain ⟨j, hj⟩ := q.jobs.exists_get?_of_mem_values hjob
      exact ⟨j, job, hj, hexperiment, hkey⟩
    · rintro ⟨j, job, hj, hexperiment, hkey⟩
      exact ⟨job, ⟨q.jobs.mem_values_of_get? hj, hexperiment⟩, hkey⟩
  rw [resultsFor, Dict.get?_filterMap, Option.bind_eq_some_iff, ← hmem]
  constructor
  · rintro ⟨found, hfound, hresult⟩
    split at hresult
    · rename_i hkey
      cases hresult
      exact ⟨hkey, hfound⟩
    · cases hresult
  · rintro ⟨hkey, hfound⟩
    exact ⟨result, hfound, if_pos hkey⟩

end InMemoryExperimentQueue

/-- Every list of moves is admitted when every outcome is. -/
theorem admits_anyOutcome {Q : ExperimentQueue} (moves : List (Move WorkerOp WorkerDraws))
    (p : WorkerPool Q) : (workerSystem Q).Admits (Outcomes AnyOutcome) p moves := by
  induction moves generalizing p with
  | nil => trivial
  | cons m rest ih =>
    refine ⟨?_, fun q _ => ih q⟩
    cases m with
    | start op => trivial
    | advance i o => exact fun _ _ => trivial

section Runs

variable {Q : ExperimentQueue} {stored : Q.State → String → Option Json}

/-- Every call for an issued claim of a reachable pool stores first results only. -/
def ReachableStores (Q : ExperimentQueue) (stored : Q.State → String → Option Json) : Prop :=
  ∀ p : WorkerPool Q, (workerSystem Q).Reaches (Outcomes AnyOutcome) (idleWorkers Q) p →
    ∀ draws c, IssuedCall p.world.issued c → StoresFirst Q stored draws c p.world.queue

/-- What a move of a reachable pool does to the stored results, when every call for an issued
claim does so. -/
theorem stored_move
    (hstep : ReachableStores Q stored)
    {p q : WorkerPool Q}
    (hreach : (workerSystem Q).Reaches (Outcomes AnyOutcome) (idleWorkers Q) p)
    {m : Move WorkerOp WorkerDraws} (hmove : (workerSystem Q).move p m = some q) (key : String) :
    stored q.world.queue key =
      (stored p.world.queue key).or (firstOf (completedIn p m) key) := by
  rcases worker_move_cases hreach hmove with ⟨op, rfl, hsame⟩ |
    ⟨i, o, c, rfl, hawaits, ⟨hnone, hsame⟩ | ⟨call, hcall, hissued, hqueue, -⟩⟩
  · rw [hsame.1]
    exact (Option.or_none ..).symm
  · rw [hsame.1, completedIn, hawaits, Option.bind_some, hnone]
    exact (Option.or_none ..).symm
  · rw [hqueue, completedIn, hawaits, Option.bind_some, hcall]
    exact hstep p hreach o.draws call hissued key

/-- After a run each key has its old result, or the first that the run has completed. -/
theorem stored_run
    (hstep : ReachableStores Q stored)
    (moves : List (Move WorkerOp WorkerDraws)) {p q : WorkerPool Q}
    (hreach : (workerSystem Q).Reaches (Outcomes AnyOutcome) (idleWorkers Q) p)
    (hrun : (workerSystem Q).run p moves = some q) (key : String) :
    stored q.world.queue key =
      (stored p.world.queue key).or (firstOf (completions p moves) key) := by
  induction moves generalizing p with
  | nil =>
    cases hrun
    exact (Option.or_none ..).symm
  | cons m rest ih =>
    obtain ⟨mid, hmove, hrest⟩ := Option.bind_eq_some_iff.mp hrun
    have hmid := hreach.tail ⟨m, (admits_anyOutcome [m] p).1, hmove⟩
    rw [ih hmid hrest, stored_move hstep hreach hmove key, completions, hmove, Option.elim_some,
      firstOf_append, Option.or_assoc]

/-- A stored result is kept by every later run. -/
theorem stored_kept
    (hstep : ReachableStores Q stored)
    {p q : WorkerPool Q}
    (hreach : (workerSystem Q).Reaches (Outcomes AnyOutcome) (idleWorkers Q) p)
    (hlater : (workerSystem Q).Reaches (Outcomes AnyOutcome) p q) {key : String} {result : Json}
    (hstored : stored p.world.queue key = some result) :
    stored q.world.queue key = some result := by
  induction hlater with
  | refl => exact hstored
  | tail hpath hmove ih =>
    obtain ⟨m, -, hmove⟩ := hmove
    rw [stored_move hstep (hreach.trans hpath) hmove key, ih, Option.some_or]

end Runs

/-- Every in-memory job is stored under its own ID, and every claimed job is stored. -/
theorem inMemory_jobs_known {lib : Stdlib} {p : WorkerPool (inMemoryExperimentQueue lib)}
    (hreach : (workerSystem (inMemoryExperimentQueue lib)).Reaches (Outcomes AnyOutcome)
      (idleWorkers (inMemoryExperimentQueue lib)) p) :
    (∀ j job, Dict.get? (InMemoryQueue.jobs p.world.queue) j = some job → job.jobId = j) ∧
      ∀ claim ∈ p.world.issued,
        (Dict.get? (InMemoryQueue.jobs p.world.queue) claim.2.jobId).isSome = true := by
  refine worker_invariant (Q := inMemoryExperimentQueue lib) (I := fun q issued =>
    (∀ j job, Dict.get? (InMemoryQueue.jobs q) j = some job → job.jobId = j) ∧
      ∀ claim ∈ issued, (Dict.get? (InMemoryQueue.jobs q) claim.2.jobId).isSome = true) ?_
    (fun w w' hcall h => ?_) hreach
  · exact ⟨fun _ _ h => (by cases h), fun _ h => (by cases h)⟩
  · obtain ⟨o, c, call, -, -, -, hqueue, hclaims⟩ := hcall
    obtain ⟨hkeeps, hissued⟩ :=
      InMemoryExperimentQueue.perform_jobs lib o.draws call w.queue h.1
    rw [hqueue, hclaims]
    refine ⟨hkeeps.own h.1, fun claim hclaim => ?_⟩
    rcases List.mem_append.mp hclaim with hnew | hold
    · exact hissued claim hnew
    · exact hkeeps.kept _ (h.2 claim hold)

/-- Both queues write every result once and serve exactly the results of an experiment's jobs. -/
theorem results_write_once (lib : Stdlib) (implementation : QueueImplementation) :
    implementation.WriteOnce lib := by
  cases implementation with
  | inMemory =>
    have hstep : ReachableStores (inMemoryExperimentQueue lib)
        (QueueImplementation.inMemory.stored lib) := by
      intro p hreach draws c hissued
      obtain ⟨hown, hknown⟩ := inMemory_jobs_known hreach
      refine InMemoryExperimentQueue.stored_step lib draws c p.world.queue hown ?_
      rintro job result cost rfl
      obtain ⟨workerId, hclaim⟩ := hissued
      exact hknown _ hclaim
    refine ⟨fun moves p hrun key => ?_, fun p q hreach hlater key result h => ?_,
      fun p _ e key result => ?_⟩
    · exact (stored_run hstep moves .refl hrun key).trans (Option.none_or ..)
    · exact stored_kept hstep hreach hlater h
    · exact InMemoryExperimentQueue.resultsFor_eq_some_iff p.world.queue e key result
  | postgres =>
    have hstep : ReachableStores (postgresExperimentQueue lib)
        (QueueImplementation.postgres.stored lib) :=
      fun p _ draws c _ => PostgresExperimentQueue.stored_step lib draws c p.world.queue
    refine ⟨fun moves p hrun key => ?_, fun p q hreach hlater key result h => ?_,
      fun p hreach e key result => ?_⟩
    · exact (stored_run hstep moves .refl hrun key).trans (Option.none_or ..)
    · exact stored_kept hstep hreach hlater h
    · exact PostgresExperimentQueue.resultsFor_eq_some_iff (reachable_consistent hreach) e key result

end Amlguard
