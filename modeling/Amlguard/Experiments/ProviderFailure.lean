import Amlguard.Experiments.Handler
import Amlguard.Experiments.Issued
import Amlguard.Experiments.Effect
import Amlguard.Investigations.FailedDraft

/-!
# Provider failures

A timeout or a lost connection of the provider's SDK reaches the handler as the class name
`InferenceServiceError` of the last error of a failed run. The handler looks for other names, so the
failed call becomes a result like any other, or an evaluation without a recommendation. No retry
follows from either.
-/

namespace Amlguard

open Awaited Prog Numeric PostgresExperimentQueue

namespace EdenStructuredLLM

/-- An exception of the provider's SDK for a timeout or a lost connection. -/
def Transient (e : PyError) : Prop :=
  e.isA "APIStatusError" = false ∧ (e.isA "APITimeoutError" = true ∨ e.isA "APIConnectionError" = true)

instance (e : PyError) : Decidable (Transient e) := inferInstanceAs (Decidable (_ ∧ _))

/-- What `recommend` raises in place of such an exception. -/
def Unreachable (raised : PyError) : Prop := ∃ e, Transient e ∧ raised = retyped e

/-- It is always of one class. -/
theorem Unreachable.typeName {raised : PyError} (h : Unreachable raised) :
    raised.typeName = "InferenceServiceError" := by
  obtain ⟨e, ⟨hstatus, htransient⟩, rfl⟩ := h
  unfold retyped
  rw [hstatus]
  rcases htransient with htimeout | hconnection
  · simp [htimeout, inferenceError]
  · by_cases htimeout : e.isA "APITimeoutError" = true
    · simp [htimeout, inferenceError]
    · simp [htimeout, hconnection, inferenceError]

end EdenStructuredLLM

open EdenStructuredLLM

namespace DefaultExperimentJobHandler

variable {h : HandlerEnvironment} {job : ExperimentJob} {plan : JobPlan} {run : InvestigationRun}
  {w : EngineWorld}

/-- The handler conducts the investigation of a job, and its live model call fails with a timeout or a
lost connection. -/
def ProviderFails (h : HandlerEnvironment) (job : ExperimentJob) (plan : JobPlan)
    (handled : Except PyError (Json × ℚ)) : Prop :=
  (∃ modelId, plan.model = .eden modelId) ∧ ∃ run w,
    (investigation h plan).Meets
      (engineSystem { h.engine with modelId := plan.actualModel }).toMachine InProcess
      (ModelFails Unreachable) { bank := plan.injection.bank } run w ∧
    handled = run >>= fun run => conclude h job plan run w

/-- The manifest declares the cost of a plan. -/
theorem estimatedJobCost_of_prepare (hplan : prepare h job = .ok plan) :
    estimatedJobCost plan.manifest.toExperimentManifest plan.configuration.configurationId =
      .ok plan.cost := by
  simp only [prepare, bind_eq_ok, raiseIf_eq_ok, orRaise_eq_ok] at hplan
  obtain ⟨-, -, manifest, -, configuration, hfound, scenario, -, -, -, model, -, hpure⟩ := hplan
  cases hpure
  have hid : configuration.configurationId = job.configurationId := by
    have hmatches := List.find?_some hfound
    exact beq_iff_eq.mp hmatches
  have hdeclared : manifest.configurations.find? (fun item => item.configurationId == job.configurationId) =
      some configuration.toSystemConfiguration := by
    rw [← manifest.runConfigurations_eq, List.find?_map]
    exact congrArg (Option.map _) hfound
  simp only [estimatedJobCost, hid, hdeclared]
  rfl

/-- A run that ends at an unreachable model is not raised anew. -/
theorem raiseAnew_of_endsAt (hends : run.EndsAt "InferenceServiceError") : raiseAnew run = .ok () := by
  obtain ⟨failure, hlast, htype⟩ := hends.failure
  rw [raiseAnew, hends.status, hlast]
  simp [htype]

/-- A run without a recommendation is not evaluated: that fails the job, or becomes a part of its
result. -/
theorem conclude_of_endsAt (hplan : prepare h job = .ok plan)
    (hends : run.EndsAt "InferenceServiceError") :
    if plan.FailsJob then ∃ message, conclude h job plan run w = .error (.runtimeError message)
    else ∃ result, conclude h job plan run w = .ok (result, plan.cost) := by
  unfold conclude
  rw [raiseAnew_of_endsAt hends]
  simp only [evaluateProofAgent, hends.recommendation, estimatedJobCost_of_prepare hplan]
  cases hsettings : plan.manifest.proofagentSettings with
  | none =>
    have hkeeps : ¬plan.FailsJob := fun ⟨settings, hmem, _⟩ => by simp [hsettings] at hmem
    rw [if_neg hkeeps]
    exact ⟨_, rfl⟩
  | some settings =>
    by_cases hpolicy : settings.failurePolicy = .failJob
    · have hfails : plan.FailsJob := ⟨settings, hsettings, hpolicy⟩
      rw [if_pos hfails]
      simp only [settleEvaluation, if_pos hpolicy]
      exact ⟨_, rfl⟩
    · have hkeeps : ¬plan.FailsJob := by
        intro ⟨other, hmem, hother⟩
        rw [hsettings] at hmem
        cases hmem
        exact hpolicy hother
      rw [if_neg hkeeps]
      simp only [settleEvaluation, if_neg hpolicy]
      exact ⟨_, rfl⟩

/-- What the handler makes of a provider failure: the exception of an evaluation without a
recommendation, or a result at the declared cost. -/
theorem handled_of_providerFails {handled : Except PyError (Json × ℚ)} (hplan : prepare h job = .ok plan)
    (hfails : ProviderFails h job plan handled) :
    if plan.FailsJob then ∃ message, handled = .error (.runtimeError message)
    else ∃ result, handled = .ok (result, plan.cost) := by
  obtain ⟨-, r, w, hmeets, rfl⟩ := hfails
  obtain ⟨run, e, rfl, he, hends⟩ := meets_start hmeets
  rw [he.typeName] at hends
  exact conclude_of_endsAt hplan hends

end DefaultExperimentJobHandler

section Queue

variable {job : ExperimentJob} {db db' : Database} {manifest : ExperimentRecord} {row : ExperimentJobRecord}
  {cost : ℚ}

/-- The manifest and the row of a job. -/
def Rows (job : ExperimentJob) (db : Database) (manifest : ExperimentRecord) (row : ExperimentJobRecord) :
    Prop :=
  db.manifests.get? job.experimentId = some manifest ∧ db.jobs.get? job.jobId = some row

/-- What is reserved by the manifest and by the row once the job has its reservation. -/
def reservedAmounts (job : ExperimentJob) (manifest : ExperimentRecord) (row : ExperimentJobRecord) : ℚ × ℚ :=
  if row.reservedCostEur ≠ 0 then (manifest.costReservedEur, row.reservedCostEur)
  else (roundTo 4 (manifest.costReservedEur + job.estimatedCostEur), roundTo 6 job.estimatedCostEur)

/-- The column of the manifest takes what is left of its reservations without that of the job. -/
def Releases (job : ExperimentJob) (manifest : ExperimentRecord) (row : ExperimentJobRecord) : Prop :=
  Fits 14 4 ((reservedAmounts job manifest row).1 - (reservedAmounts job manifest row).2)

/-- What stands against a result: the experiment is stopped, the cost has no room under the ceiling or in
a column, or the session cannot be stored. -/
def CompletionBarred (job : ExperimentJob) (cost : ℚ) (db : Database) (manifest : ExperimentRecord) : Prop :=
  manifest.stopRequested = true ∨ manifest.costCeilingEur < manifest.costSpentEur + cost ∨
    ¬Fits 14 4 (manifest.costSpentEur + cost) ∨ ¬Fits 14 6 cost ∨ 160 < job.sessionKey.length ∨
      ∃ session ∈ db.sessions.values, session.jobId = job.jobId

/-- A database in which the job holds its reservation. -/
structure Reserved (job : ExperimentJob) (db db' : Database) (manifest : ExperimentRecord)
    (row row' : ExperimentJobRecord) : Prop where
  rows : Rows job db manifest row
  rows' : Rows job db'
    { manifest with costReservedEur := (reservedAmounts job manifest row).1 } row'
  reserved : row'.reservedCostEur = (reservedAmounts job manifest row).2
  sessions : db'.sessions = db.sessions

/-- `reserve_cost` leaves the reservation of the job, whether it makes it or finds it. -/
theorem reserved_of_reserveCost (h : reserveCost job job.estimatedCostEur db = .ok ((), db')) :
    ∃ manifest row row', Reserved job db db' manifest row row' := by
  simp only [reserveCost, bind_eq_ok, orRaise_eq_ok] at h
  obtain ⟨manifest, hmanifest, row, hrow, h⟩ := h
  split at h
  · rename_i hheld
    cases h
    refine ⟨manifest, row, row, ⟨hmanifest, hrow⟩, ⟨?_, hrow⟩, ?_, rfl⟩
    · rw [reservedAmounts, if_pos hheld]
      exact hmanifest
    · rw [reservedAmounts, if_pos hheld]
  · rename_i hfree
    simp only [bind_eq_ok, raiseIf_eq_ok] at h
    obtain ⟨-, -, -, -, total, htotal, amount, hamount, h⟩ := h
    cases manifestAmount_eq_ok htotal
    cases jobAmount_eq_ok hamount
    cases h
    refine ⟨manifest, row, _, ⟨hmanifest, hrow⟩, ⟨?_, Dict.get?_set_self _ _ _⟩, ?_, rfl⟩
    · rw [reservedAmounts, if_neg hfree]
      exact Dict.get?_set_self _ _ _
    · rw [reservedAmounts, if_neg hfree]

/-- A heartbeat sets the row running and leaves the reservation. -/
theorem Reserved.heartbeat {mid : Database} {draws : Draws} {workerId : String} {found : ExperimentJobRecord}
    (hreserved : Reserved job db mid manifest row found)
    (h : PostgresExperimentQueue.heartbeat draws job.jobId workerId mid = .ok ((), db')) :
    ∃ row', Reserved job db db' manifest row row' ∧ row'.status = .running := by
  simp only [PostgresExperimentQueue.heartbeat, bind_eq_ok, orRaise_eq_ok, raiseIf_eq_ok] at h
  obtain ⟨expires, -, row', hrow', -, -, h⟩ := h
  cases h
  rw [hreserved.rows'.2] at hrow'
  cases hrow'
  refine ⟨_, ⟨hreserved.rows, ⟨hreserved.rows'.1, Dict.get?_set_self _ _ _⟩, hreserved.reserved,
    hreserved.sessions⟩, rfl⟩

/-- What a transient failure should leave: a job that waits for its retry while attempts remain and has
failed when none does, and no result. -/
def RetriedOrFailed (job : ExperimentJob) (db : Database) : Prop :=
  (∃ row, db.jobs.get? job.jobId = some row ∧
    row.status = if job.attemptCount < job.maxAttempts then .retryWait else .failed) ∧
  db.sessions.get? job.sessionKey = none

/-- What `fail` leaves of a failure that it is not to retry. -/
theorem retriedOrFailed_of_fail {row' : ExperimentJobRecord} {draws : Draws} {error : Json} {instant : Datetime}
    (hreserved : Reserved job db db' manifest row row') (hrunning : row'.status = .running)
    (hclock : addSeconds draws.now (retryDelay job.attemptCount) = .ok instant) :
    RetriedOrFailed job (Database.session (fail draws job error false) db').2 ↔
      job.maxAttempts ≤ job.attemptCount ∧ db.sessions.get? job.sessionKey = none ∧
        Releases job manifest row := by
  have hfail : fail draws job error false db' = (do
      let reserved ← manifestAmount
        ((reservedAmounts job manifest row).1 - (reservedAmounts job manifest row).2)
      pure ((), { db' with
        manifests := db'.manifests.set job.experimentId { manifest with costReservedEur := reserved }
        jobs := db'.jobs.set job.jobId
          { row' with
            reservedCostEur := 0, status := .failed, providerError := some error, notBefore := instant
            leaseOwner := none, leaseExpiresAt := none } })) := by
    rw [fail, hreserved.rows'.1, hreserved.rows'.2, hclock]
    simp [orRaise, ok_bind, hreserved.reserved, failedStatus]
  rw [← hreserved.sessions]
  by_cases hreleases : Releases job manifest row
  · rw [Database.session, hfail, manifestAmount_of_fits hreleases, ok_bind]
    constructor
    · rintro ⟨⟨found, hfound, hstatus⟩, hnone⟩
      change (db'.jobs.set job.jobId _).get? job.jobId = some found at hfound
      rw [Dict.get?_set_self] at hfound
      cases hfound
      refine ⟨?_, hnone, hreleases⟩
      by_contra hremain
      rw [if_pos (Nat.lt_of_not_le hremain)] at hstatus
      cases hstatus
    · rintro ⟨hexhausted, hnone, -⟩
      refine ⟨⟨_, Dict.get?_set_self _ _ _, ?_⟩, hnone⟩
      rw [if_neg (Nat.not_lt_of_le hexhausted)]
  · have herror : ∃ e, fail draws job error false db' = .error e := by
      cases hstore : manifestAmount
          ((reservedAmounts job manifest row).1 - (reservedAmounts job manifest row).2) with
      | ok reserved => exact absurd (fits_of_manifestAmount hstore) hreleases
      | error e => exact ⟨e, by rw [hfail, hstore, error_bind]⟩
    obtain ⟨e, herror⟩ := herror
    rw [Database.session, herror]
    constructor
    · rintro ⟨⟨found, hfound, hstatus⟩, -⟩
      rw [hreserved.rows'.2] at hfound
      cases hfound
      rw [hrunning] at hstatus
      split at hstatus <;> cases hstatus
    · rintro ⟨-, -, h⟩
      exact absurd h hreleases

/-- `fail` leaves the results as they are. -/
theorem sessions_fail (draws : Draws) (error : Json) (retryable : Bool) :
    (Database.session (fail draws job error retryable) db).2.sessions = db.sessions := by
  rcases session_cases (fail draws job error retryable) db with ⟨_, db', hfail, heq⟩ | ⟨e, -, heq⟩
  · rw [heq]
    simp only [fail, bind_eq_ok] at hfail
    obtain ⟨_, -, _, -, _, -, _, -, hfail⟩ := hfail
    cases hfail
    rfl
  · rw [heq]

/-- The exceptions of `complete` are none that a retry may cure. -/
theorem not_retryable_complete {result : Json} {e : PyError} (h : complete job result cost db = .error e) :
    ExperimentWorker.retryable e = false := by
  have hamount (precision scale : ℕ) (x : ℚ) (e : PyError)
      (h : orRaise (store precision scale x) dataError = .error e) :
      ExperimentWorker.retryable e = false := by
    obtain ⟨-, rfl⟩ := orRaise_eq_error.mp h
    rfl
  have hsession (e : PyError) (h : insertSession job result db = .error e) :
      ExperimentWorker.retryable e = false := by
    unfold insertSession at h
    split at h
    · cases h
    · rcases bind_eq_error.mp h with h | ⟨_, -, h⟩
      · unfold varchar at h
        split at h
        · cases h
        · cases h
          rfl
      · rcases bind_eq_error.mp h with h | ⟨_, -, h⟩
        · obtain ⟨-, rfl⟩ := raiseIf_eq_error.mp h
          rfl
        · cases h
  rcases bind_eq_error.mp h with h | ⟨found, -, h⟩
  · obtain ⟨-, rfl⟩ := orRaise_eq_error.mp h
    rfl
  rcases bind_eq_error.mp h with h | ⟨_, -, h⟩
  · obtain ⟨-, rfl⟩ := raiseIf_eq_error.mp h
    rfl
  rcases bind_eq_error.mp h with h | ⟨record, -, h⟩
  · obtain ⟨-, rfl⟩ := orRaise_eq_error.mp h
    rfl
  rcases bind_eq_error.mp h with h | ⟨_, -, h⟩
  · obtain ⟨-, rfl⟩ := raiseIf_eq_error.mp h
    rfl
  rcases bind_eq_error.mp h with h | ⟨_, -, h⟩
  · exact hamount _ _ _ _ h
  rcases bind_eq_error.mp h with h | ⟨_, -, h⟩
  · exact hamount _ _ _ _ h
  rcases bind_eq_error.mp h with h | ⟨_, -, h⟩
  · exact hsession _ h
  rcases bind_eq_error.mp h with h | ⟨_, -, h⟩
  · exact hamount _ _ _ _ h
  · cases h

/-- A completed job has a result. -/
theorem stored_of_complete {result : Json} (h : complete job result cost db = .ok ((), db')) :
    db'.sessions.get? job.sessionKey ≠ none := by
  simp only [complete, bind_eq_ok] at h
  obtain ⟨_, -, _, -, _, -, _, -, _, -, _, -, sessions, hsessions, _, -, h⟩ := h
  cases h
  unfold insertSession at hsessions
  split at hsessions
  · rename_i found
    cases hsessions
    simp [found]
  · simp only [bind_eq_ok] at hsessions
    obtain ⟨key, hkey, -, -, hsessions⟩ := hsessions
    cases varchar_eq_ok hkey
    cases hsessions
    simp

/-- Without a result so far, `complete` raises exactly when something stands against the result. -/
theorem complete_raises_iff {row' : ExperimentJobRecord} {result : Json}
    (hreserved : Reserved job db db' manifest row row') (hreleases : Releases job manifest row)
    (hnone : db.sessions.get? job.sessionKey = none) :
    (∃ e, complete job result cost db' = .error e) ↔ CompletionBarred job cost db manifest := by
  have hmanifest := hreserved.rows'.1
  have hrow := hreserved.rows'.2
  have hreserves : manifestAmount ((reservedAmounts job manifest row).1 - row'.reservedCostEur) =
      .ok (roundTo 4 ((reservedAmounts job manifest row).1 - row'.reservedCostEur)) := by
    rw [hreserved.reserved]
    exact manifestAmount_of_fits hreleases
  have hfree_of_done (done : Unit × Database) (h : complete job result cost db' = .ok done) :
      ¬CompletionBarred job cost db manifest := by
    simp only [complete, hmanifest, hrow, bind_eq_ok, orRaise_eq_ok, raiseIf_eq_ok, Option.some.injEq,
      exists_eq_left'] at h
    obtain ⟨-, hrunning, -, hroom, -, -, spent, hspent, sessions, hsessions, actual, hactual, -⟩ := h
    rw [insertSession, hreserved.sessions, hnone] at hsessions
    simp only [bind_eq_ok, raiseIf_eq_ok] at hsessions
    obtain ⟨key, hkey, -, hsession, -⟩ := hsessions
    rintro (h | h | h | h | h | h)
    · exact hrunning h
    · exact hroom h
    · exact h (fits_of_manifestAmount hspent)
    · exact h (fits_of_jobAmount hactual)
    · exact absurd (length_le_of_varchar hkey) (Nat.not_le_of_lt h)
    · exact hsession h
  have hdone_of_free (hfree : ¬CompletionBarred job cost db manifest) :
      ∃ done, complete job result cost db' = .ok done := by
    unfold CompletionBarred at hfree
    push Not at hfree
    obtain ⟨hrunning, hroom, hspent, hactual, hkey, hsession⟩ := hfree
    have hsessions : insertSession job result db' =
        .ok (db'.sessions.set job.sessionKey { jobId := job.jobId, result }) := by
      rw [insertSession, hreserved.sessions, hnone, varchar, if_pos hkey, ok_bind, raiseIf, if_neg, ok_bind]
      · rfl
      · rintro ⟨session, hmem, heq⟩
        exact hsession session hmem heq
    simp only [complete, hmanifest, hrow, orRaise, ok_bind, hreserves, hsessions,
      manifestAmount_of_fits hspent, jobAmount_of_fits hactual]
    rw [raiseIf, if_neg hrunning, ok_bind, raiseIf, if_neg (not_lt_of_ge hroom), ok_bind]
    exact ⟨_, rfl⟩
  constructor
  · rintro ⟨e, herror⟩
    by_contra hfree
    obtain ⟨done, hdone⟩ := hdone_of_free hfree
    rw [herror] at hdone
    cases hdone
  · intro hbarred
    cases hdone : complete job result cost db' with
    | ok done => exact absurd hbarred (hfree_of_done done hdone)
    | error e => exact ⟨e, rfl⟩

end Queue

section Worker

open DefaultExperimentJobHandler

variable {lib : Stdlib} {h : HandlerEnvironment} {plan : JobPlan} {task : ℕ} {workerId : String}
  {job : ExperimentJob} {w w' : WorkerWorld (postgresExperimentQueue lib)} {db : Database}
  {manifest : ExperimentRecord} {row row' : ExperimentJobRecord}

/-- No connection is lost, and the clock does not overflow at a failure. -/
def Unhindered (_ : WorkerWorld (postgresExperimentQueue lib)) (o : WorkerDraws) : WorkerCall → Prop
  | .queue (.fail job _ _) => o.draws.outage = none ∧
      ∃ instant, addSeconds o.draws.now (retryDelay job.attemptCount) = .ok instant
  | _ => o.draws.outage = none

/-- The handler meets a provider failure. -/
def MeetsProviderFailure (h : HandlerEnvironment) (plan : JobPlan)
    (_ : WorkerWorld (postgresExperimentQueue lib)) (o : WorkerDraws) : WorkerCall → Prop
  | .handler job => ProviderFails h job plan o.handled
  | _ => False

/-- A program of a worker is executed on its own. -/
abbrev WorksAlone {α : Type} (p : ExperimentWorker.Work α) (w : WorkerWorld (postgresExperimentQueue lib))
    (r : Except PyError α) (w' : WorkerWorld (postgresExperimentQueue lib)) : Prop :=
  p.Executes (workerSystem (postgresExperimentQueue lib)).toMachine Unhindered w r w'

/-- The call is one of the handler. -/
def WorkerCall.Handles : WorkerCall → Prop
  | .handler _ => True
  | _ => False

/-- Another call than that of the handler does not meet the failure. -/
theorem not_meets_work {c : WorkerCall} (hcall : ¬c.Handles) {r : Except PyError c.Reply} :
    ¬(call (S := workerSignature) c).Meets (workerSystem (postgresExperimentQueue lib)).toMachine Unhindered
      (MeetsProviderFailure h plan) w r w' := by
  intro hmeets
  obtain ⟨o, -, hfails, -⟩ := meets_call.mp hmeets
  cases c with
  | handler job => exact hcall trivial
  | _ => exact hfails

/-- A mark calls nothing. -/
theorem not_meets_note {n : HeartbeatStart} {r : Except PyError Unit} :
    ¬(note (S := workerSignature) n).Meets (workerSystem (postgresExperimentQueue lib)).toMachine Unhindered
      (MeetsProviderFailure h plan) w r w' := by
  intro hmeets
  cases hmeets with
  | mark _ _ _ _ _ hrest => exact not_meets_done hrest

/-- An answer does not call the handler. -/
theorem not_meets_answer {e : PyError} {r : Except PyError Unit} :
    ¬(ExperimentWorker.answer job e).Meets (workerSystem (postgresExperimentQueue lib)).toMachine Unhindered
      (MeetsProviderFailure h plan) w r w' := by
  intro hmeets
  obtain ⟨_, w₁, -, hreport⟩ := hmeets.rest fun _ _ => not_meets_work id
  exact not_meets_work id hreport

/-- A transaction that returns has committed. -/
theorem session_eq_ok {block : Database → Except PyError (Unit × Database)} {db₁ db₂ : Database}
    (hreply : .ok () = (Database.session block db₁).1) (hdb : db₂ = (Database.session block db₁).2) :
    block db₁ = .ok ((), db₂) := by
  rcases session_cases block db₁ with ⟨_, db', hblock, hsession⟩ | ⟨e, -, hsession⟩
  · rw [hsession] at hdb
    rw [hblock, hdb]
  · rw [hsession] at hreply
    cases hreply

/-- A call of the queue is one transaction. -/
theorem worksAlone_queue {c : QueueCall} {r : Except PyError c.Reply}
    (hrun : WorksAlone (ExperimentWorker.queue c) w r w') :
    ∃ o : WorkerDraws, Unhindered w o (.queue c) ∧ r = (perform lib o.draws c w.queue).1 ∧
      w'.queue = (perform lib o.draws c w.queue).2 := by
  obtain ⟨o, hok, rfl, rfl⟩ := executes_call.mp hrun
  have houtage : o.draws.outage = none := by
    cases c with
    | fail => exact hok.1
    | _ => exact hok
  have hstep : (postgresExperimentQueue lib).step o.draws c w.queue = perform lib o.draws c w.queue := by
    simp only [houtage]
  exact ⟨o, hok, congrArg Prod.fst hstep, congrArg Prod.snd hstep⟩

/-- A call that makes none of the queue leaves it as it is. -/
theorem worksAlone_aside {c : WorkerCall} {r : Except PyError c.Reply}
    (hrun : WorksAlone (call (S := workerSignature) c) w r w') (hnone : w.queueCall c = none) :
    w'.queue = w.queue := by
  obtain ⟨o, -, -, rfl⟩ := executes_call.mp hrun
  rcases perform_cases w o c with ⟨-, hsame⟩ | ⟨call, hcall, -⟩
  · exact hsame.1
  · rw [hnone] at hcall
    cases hcall

/-- The answer to an exception that no retry may cure. -/
theorem worksAlone_answer {e : PyError} {r : Except PyError Unit}
    (hrun : WorksAlone (ExperimentWorker.answer job e) w r w')
    (hretryable : ExperimentWorker.retryable e = false)
    (hreserved : Reserved job db w.queue manifest row row') (hrunning : row'.status = .running) :
    RetriedOrFailed job w'.queue ↔ job.maxAttempts ≤ job.attemptCount ∧
      db.sessions.get? job.sessionKey = none ∧ Releases job manifest row := by
  obtain ⟨r₁, w₁, hfail, hrest⟩ := executes_bind.mp hrun
  obtain ⟨o, ⟨-, instant, hclock⟩, -, hqueue⟩ := worksAlone_queue hfail
  have hsame : w'.queue = w₁.queue := by
    cases r₁ with
    | ok _ => exact worksAlone_aside hrest rfl
    | error _ => rw [hrest.2]
  rw [hsame, hqueue, hretryable]
  exact retriedOrFailed_of_fail hreserved hrunning hclock

/-- An answer leaves the results as they are. -/
theorem sessions_answer {e : PyError} {r : Except PyError Unit}
    (hrun : WorksAlone (ExperimentWorker.answer job e) w r w') : w'.queue.sessions = w.queue.sessions := by
  obtain ⟨r₁, w₁, hfail, hrest⟩ := executes_bind.mp hrun
  obtain ⟨o, -, -, hqueue⟩ := worksAlone_queue hfail
  have hsame : w'.queue = w₁.queue := by
    cases r₁ with
    | ok _ => exact worksAlone_aside hrest rfl
    | error _ => rw [hrest.2]
  rw [hsame, hqueue]
  exact sessions_fail _ _ _

/-- The condition under which a provider failure ends as a transient failure should: no attempt remains,
no result was stored before, the reservation can be released, and either the evaluation fails the job or
something stands against its result. -/
def EndsForGood (plan : JobPlan) (job : ExperimentJob) (db : Database) : Prop :=
  job.maxAttempts ≤ job.attemptCount ∧ db.sessions.get? job.sessionKey = none ∧
    ∃ manifest row, Rows job db manifest row ∧ Releases job manifest row ∧
      (plan.FailsJob ∨ CompletionBarred job plan.cost db manifest)

/-- The rows of a job are unique. -/
theorem Rows.unique {manifest' : ExperimentRecord} (hrows : Rows job db manifest row)
    (hrows' : Rows job db manifest' row') : manifest' = manifest ∧ row' = row := by
  constructor
  · exact Option.some.inj (hrows'.1.symm.trans hrows.1)
  · exact Option.some.inj (hrows'.2.symm.trans hrows.2)

/-- The condition on the rows that a job has. -/
theorem endsForGood_iff (hrows : Rows job db manifest row) :
    EndsForGood plan job db ↔ (job.maxAttempts ≤ job.attemptCount ∧ db.sessions.get? job.sessionKey = none ∧
      Releases job manifest row) ∧ (plan.FailsJob ∨ CompletionBarred job plan.cost db manifest) := by
  constructor
  · intro ⟨hexhausted, hnone, manifest', row', hrows', hreleases, hends⟩
    obtain ⟨rfl, rfl⟩ := hrows.unique hrows'
    exact ⟨⟨hexhausted, hnone, hreleases⟩, hends⟩
  · intro ⟨⟨hexhausted, hnone, hreleases⟩, hends⟩
    exact ⟨hexhausted, hnone, manifest, row, hrows, hreleases, hends⟩

/-- What an attempt leaves when the handler fails the job. -/
theorem answered_of_error {e : PyError} {r : Except PyError Unit}
    (hanswer : WorksAlone (ExperimentWorker.answer job e) w r w')
    (hretryable : ExperimentWorker.retryable e = false)
    (hreserved : Reserved job db w.queue manifest row row') (hrunning : row'.status = .running)
    (hends : job.maxAttempts ≤ job.attemptCount → db.sessions.get? job.sessionKey = none →
      Releases job manifest row → plan.FailsJob ∨ CompletionBarred job plan.cost db manifest) :
    RetriedOrFailed job w'.queue ↔ EndsForGood plan job db := by
  rw [worksAlone_answer hanswer hretryable hreserved hrunning, endsForGood_iff hreserved.rows]
  constructor
  · intro hgood
    exact ⟨hgood, hends hgood.1 hgood.2.1 hgood.2.2⟩
  · intro hgood
    exact hgood.1

/-- What an attempt leaves when the handler hands a result on. -/
theorem answered_of_ok {result : Json} {rest r : Except PyError Unit}
    {w₁ : WorkerWorld (postgresExperimentQueue lib)} (hkeeps : ¬plan.FailsJob)
    (hreserved : Reserved job db w.queue manifest row row') (hrunning : row'.status = .running)
    (hcomplete : WorksAlone (do
      ExperimentWorker.queue (.complete job result plan.cost)
      call (S := workerSignature) (.recordCompleted job result plan.cost)) w rest w₁)
    (hanswer : WorksAlone (answered (ExperimentWorker.answer job) rest) w₁ r w') :
    RetriedOrFailed job w'.queue ↔ EndsForGood plan job db := by
  obtain ⟨r₁, w₂, hqueue, hrecord⟩ := executes_bind.mp hcomplete
  obtain ⟨o, -, hr₁, hw₂⟩ := worksAlone_queue hqueue
  rcases session_cases (complete job result plan.cost) w.queue with
    ⟨_, db', hdone, hsession⟩ | ⟨e, herror, hsession⟩
  · -- the result is stored, whatever the reporting and the answer to its exception do
    change r₁ = (Database.session (complete job result plan.cost) w.queue).1 at hr₁
    change w₂.queue = (Database.session (complete job result plan.cost) w.queue).2 at hw₂
    rw [hsession] at hr₁ hw₂
    subst hr₁
    have hstored : w'.queue.sessions.get? job.sessionKey ≠ none := by
      have hsame : w₁.queue = w₂.queue := worksAlone_aside hrecord rfl
      have hkept : w'.queue.sessions = w₁.queue.sessions := by
        cases rest with
        | ok _ =>
          obtain ⟨-, rfl⟩ := executes_pure.mp hanswer
          rfl
        | error e => exact sessions_answer hanswer
      rw [hkept, hsame, hw₂]
      exact stored_of_complete hdone
    rw [endsForGood_iff hreserved.rows]
    constructor
    · intro hretried
      exact absurd hretried.2 hstored
    · intro ⟨⟨_, hnone, hreleases⟩, hends⟩
      rcases hends with hfails | hbarred
      · exact absurd hfails hkeeps
      · have hraises : ∃ e, complete job result plan.cost w.queue = .error e :=
          (complete_raises_iff hreserved hreleases hnone).mpr hbarred
        obtain ⟨e, herror⟩ := hraises
        rw [hdone] at herror
        cases herror
  · change r₁ = (Database.session (complete job result plan.cost) w.queue).1 at hr₁
    change w₂.queue = (Database.session (complete job result plan.cost) w.queue).2 at hw₂
    rw [hsession] at hr₁ hw₂
    subst hr₁
    obtain ⟨rfl, hsame⟩ := hrecord
    have hreserved' : Reserved job db w₁.queue manifest row row' := by
      rw [← hsame, hw₂]
      exact hreserved
    apply answered_of_error hanswer (not_retryable_complete herror) hreserved' hrunning
    intro _ hnone hreleases
    exact .inr ((complete_raises_iff hreserved hreleases hnone).mp ⟨e, herror⟩)

/-- What an attempt leaves once the handler has met a provider failure. -/
theorem answered_iff {handled : Except PyError (Json × ℚ)} {rest r : Except PyError Unit}
    {w₁ : WorkerWorld (postgresExperimentQueue lib)} (hplan : prepare h job = .ok plan)
    (hfails : ProviderFails h job plan handled)
    (hreserved : Reserved job db w.queue manifest row row') (hrunning : row'.status = .running)
    (hthen : ThenExecutes (workerSystem (postgresExperimentQueue lib)).toMachine Unhindered
      (fun outcome => do
        ExperimentWorker.queue (.complete job outcome.1 outcome.2)
        call (S := workerSignature) (.recordCompleted job outcome.1 outcome.2)) handled w rest w₁)
    (hanswer : WorksAlone (answered (ExperimentWorker.answer job) rest) w₁ r w') :
    RetriedOrFailed job w'.queue ↔ EndsForGood plan job db := by
  have hhandled := handled_of_providerFails hplan hfails
  by_cases hjob : plan.FailsJob
  · rw [if_pos hjob] at hhandled
    obtain ⟨message, rfl⟩ := hhandled
    obtain ⟨rfl, rfl⟩ := hthen
    exact answered_of_error hanswer rfl hreserved hrunning fun _ _ _ => .inl hjob
  · rw [if_neg hjob] at hhandled
    obtain ⟨result, rfl⟩ := hhandled
    exact answered_of_ok hjob hreserved hrunning hthen hanswer

end Worker

open DefaultExperimentJobHandler in
/-- An attempt whose live model call fails with a timeout or a lost connection of the provider's SDK is
never retried. It ends with a failed job and without a result exactly when no attempt remains, no result
was stored before, the reservation can be released, and either ProofAgent fails the job or something
stands against its result. -/
theorem retriedOrFailed_iff_endsForGood (lib : Stdlib) (h : HandlerEnvironment) (plan : JobPlan) (task : ℕ)
    (workerId : String) (job : ExperimentJob) (hplan : prepare h job = .ok plan)
    (w w' : WorkerWorld (postgresExperimentQueue lib)) (r : Except PyError Unit)
    (hrun : (ExperimentWorker.process task workerId job).Meets
      (workerSystem (postgresExperimentQueue lib)).toMachine Unhindered (MeetsProviderFailure h plan) w r w') :
    RetriedOrFailed job w'.queue ↔ EndsForGood plan job w.queue := by
  obtain ⟨r₁, w₁, hrescue, hcleanup⟩ := hrun.of_finally' fun _ _ _ => not_meets_work id
  obtain ⟨r₂, w₂, hattempt, hanswer⟩ := hrescue.of_rescue fun _ _ _ _ => not_meets_answer
  have hqueue : w'.queue = w₁.queue := by
    obtain ⟨r₃, w₃, hcancel, hsettle⟩ := executes_bind.mp hcleanup
    have hsame : w₃.queue = w₁.queue := worksAlone_aside hcancel rfl
    cases r₃ with
    | ok _ =>
      obtain ⟨-, rfl⟩ := executes_settleResult.mp hsettle
      exact hsame
    | error _ => rw [← hsettle.2, hsame]
  obtain ⟨_, w₃, hreserve, hattempt⟩ := hattempt.rest fun _ _ => not_meets_work id
  obtain ⟨_, w₄, hbeat, hattempt⟩ := hattempt.rest fun _ _ => not_meets_work id
  obtain ⟨_, w₅, hnote, hattempt⟩ := hattempt.rest fun _ _ => not_meets_note
  obtain ⟨-, rfl⟩ := executes_note.mp hnote
  obtain ⟨o, -, hreply, hw₃⟩ := worksAlone_queue hreserve
  obtain ⟨manifest, row, mid, hreserved⟩ := reserved_of_reserveCost (session_eq_ok hreply hw₃)
  obtain ⟨o', -, hreply', hw₄⟩ := worksAlone_queue hbeat
  obtain ⟨row', hreserved', hrunning⟩ := hreserved.heartbeat (session_eq_ok hreply' hw₄)
  rw [hqueue]
  rcases meets_bind.mp hattempt with ⟨handled, w₆, hhandled, hthen⟩ | ⟨outcome, w₆, -, hlater⟩
  · obtain ⟨o₁, -, hfails, hreply, hw₆⟩ := meets_call.mp hhandled
    change handled = o₁.handled at hreply
    rw [hreply] at hthen
    have hsame : w₆.queue = w₄.queue := by
      rw [← hw₆]
      rfl
    rw [← hsame] at hreserved'
    exact answered_iff hplan hfails hreserved' hrunning hthen hanswer
  · obtain ⟨_, w₇, -, hreport⟩ := hlater.rest fun _ _ => not_meets_work id
    exact absurd hreport (not_meets_work id)

/-- A manifest with one configuration of a live model, and without ProofAgent. -/
def sampleHandlerManifest : HandlerManifest where
  toExperimentManifest := sampleManifest (1 / 100) (1 / 50) cent_nonneg twoCents_pos
  datasetSeed := 7
  scenarioPack := "regression"
  runConfigurations := [
    { configurationId := "fake-b5", estimatedSessionCostEur := 1 / 100, cost_nonneg := cent_nonneg
      modelId := "live", contextCondition := "B5" }]
  proofagentSettings := none
  runConfigurations_eq := rfl
  proofagentSettings_eq := rfl

/-- A handler with a live model. -/
def sampleHandler : HandlerEnvironment where
  settings := ⟨false, false, some "key", edenEuBaseUrl, false⟩
  engine := sampleEnvironment .inMemory
  describe _ := .ok sampleHandlerManifest
  scenarios := Dict.empty.set "REG-001" ⟨"REG-001", "regression"⟩
  inject _ _ := ⟨sampleBank, "A-1", "digest"⟩
  artifactStore := .ok ()
  evaluateDeterministically _ _ _ _ := .null
  runtimeGovernance _ _ _ _ _ := .null
  proofagent _ _ _ _ _ _ _ := .ok .null
  storeReport _ _ := .ok none
  runDocument _ := .null
  artifact _ := none
  engine_inMemory := rfl

/-- The plan of the first job. -/
def samplePlan : JobPlan where
  manifest := sampleHandlerManifest
  configuration :=
    { configurationId := "fake-b5", estimatedSessionCostEur := 1 / 100, cost_nonneg := cent_nonneg
      modelId := "live", contextCondition := "B5" }
  scenario := ⟨"REG-001", "regression"⟩
  injection := ⟨sampleBank, "A-1", "digest"⟩
  model := .eden "live"

open DefaultExperimentJobHandler in
/-- The plan is prepared. -/
theorem prepare_sample {job : ExperimentJob} (hconfiguration : job.configurationId = "fake-b5")
    (hscenario : job.scenarioId = "REG-001") : prepare sampleHandler job = .ok samplePlan := by
  unfold prepare
  rw [hconfiguration, hscenario]
  rfl

/-- A timeout of the provider's SDK. -/
def sampleTimeout : PyError :=
  { typeName := "APITimeoutError", bases := ["APIConnectionError", "APIError"] }

/-- Draws of an investigation whose model call times out. -/
def timeoutDraws : EngineCall → EngineDraws
  | .recommend _ => { quietDraws with failure := .before (retyped sampleTimeout) }
  | _ => quietDraws

/-- A call that asks the model, as a test. -/
def asksModel : EngineCall → Bool
  | .recommend _ => true
  | _ => false

/-- A call of the handler, as a test. -/
def callsHandler : WorkerCall → Bool
  | .handler _ => true
  | _ => false

open DefaultExperimentJobHandler

/-- The investigation of the first job, when its model call times out. -/
def timedOut : Option ((Except PyError InvestigationRun × EngineWorld) × Bool) :=
  (investigation sampleHandler samplePlan).runWatched
    (engineSystem { sampleHandler.engine with modelId := samplePlan.actualModel }).toMachine
    (fun w o c => decide (InProcess w o c)) timeoutDraws asksModel { bank := sampleBank }

/-- What the handler makes of it. -/
def timedOutHandled (job : ExperimentJob) : Except PyError (Json × ℚ) :=
  match timedOut with
  | some ((run, w), _) => run >>= fun run => conclude sampleHandler job samplePlan run w
  | none => .error noResultFound

/-- It is a provider failure. -/
theorem providerFails_timedOut (job : ExperimentJob) :
    ProviderFails sampleHandler job samplePlan (timedOutHandled job) := by
  have hasked : timedOut.any (fun ended => ended.2) = true := by decide +kernel
  obtain ⟨⟨⟨run, w⟩, seen⟩, hrun, hseen⟩ := (Option.any_eq_true _ _).mp hasked
  refine ⟨⟨"live", rfl⟩, run, w, ?_, ?_⟩
  · refine (executes_of_runWatched (fun _ _ _ h => of_decide_eq_true h) ?_ hrun).2 hseen
    intro w call hcall
    cases call with
    | recommend => exact ⟨_, .inl rfl, sampleTimeout, by decide, rfl⟩
    | _ => cases hcall
  · rw [timedOutHandled, hrun]

/-- Draws of an attempt whose model call times out. -/
def timedOutDraws : WorkerCall → WorkerDraws
  | .handler job => { sampleDraws 1 (1 / 100) with handled := timedOutHandled job }
  | _ => sampleDraws 1 (1 / 100)

/-- The attempt of a job in which its model call times out, on a queue that does not fail. -/
def timedOutAttempt (claim : String × ExperimentJob)
    (w : WorkerWorld (postgresExperimentQueue sampleStdlib)) :
    Option ((Except PyError Unit × WorkerWorld (postgresExperimentQueue sampleStdlib)) × Bool) :=
  (ExperimentWorker.process 1 claim.1 claim.2).runWatched
    (workerSystem (postgresExperimentQueue sampleStdlib)).toMachine
    (fun _ o c => o.draws.outage.isNone && match c with
      | .queue (.fail _ _ _) => false
      | _ => true)
    timedOutDraws callsHandler w

/-- The first claim of the small experiment. -/
def firstClaim : List (Move WorkerOp WorkerDraws) :=
  [.start (.schedule (sampleManifest (1 / 100) (1 / 50) cent_nonneg twoCents_pos) ["REG-001"])] ++
  sampleMoves 0 1 0 0 ++ [.start (.runOnce "worker-1")] ++ sampleMoves 1 1 1 (1 / 100)

/-- An attempt whose model call times out leaves a succeeded job, although attempts remain. -/
theorem exists_timedOutAttempt :
    ∃ (p : WorkerPool (postgresExperimentQueue sampleStdlib)) (claim : String × ExperimentJob)
      (r : Except PyError Unit) (w' : WorkerWorld (postgresExperimentQueue sampleStdlib)),
      (workerSystem (postgresExperimentQueue sampleStdlib)).Reaches (Outcomes AnyOutcome)
        (idleWorkers (postgresExperimentQueue sampleStdlib)) p ∧ claim ∈ p.world.issued ∧
      prepare sampleHandler claim.2 = .ok samplePlan ∧
      (ExperimentWorker.process 1 claim.1 claim.2).Meets
        (workerSystem (postgresExperimentQueue sampleStdlib)).toMachine Unhindered
        (MeetsProviderFailure sampleHandler samplePlan) p.world r w' ∧
      (w'.queue.jobs.get? claim.2.jobId).any (fun row => row.status = .succeeded) = true := by
  have hany (p : WorkerPool (postgresExperimentQueue sampleStdlib)) (m : Move WorkerOp WorkerDraws) :
      Outcomes AnyOutcome p m := by
    cases m with
    | start op => trivial
    | advance i o => exact fun _ _ => trivial
  obtain ⟨p, hreach, htest⟩ := System.exists_reaches
    (workerSystem (postgresExperimentQueue sampleStdlib)) (fun _ _ => true) (fun p m _ => hany p m)
    (idleWorkers (postgresExperimentQueue sampleStdlib)) firstClaim
    (fun p => p.world.issued.any fun claim =>
      decide (claim.2.configurationId = "fake-b5" ∧ claim.2.scenarioId = "REG-001") &&
        (timedOutAttempt claim p.world).any fun ended => ended.2 &&
          (ended.1.2.queue.jobs.get? claim.2.jobId).any fun row => row.status = .succeeded)
    (by decide +kernel)
  obtain ⟨claim, hclaim, htest⟩ := List.any_eq_true.mp htest
  obtain ⟨hjob, htest⟩ := Bool.and_eq_true_iff.mp htest
  obtain ⟨hconfiguration, hscenario⟩ := of_decide_eq_true hjob
  obtain ⟨⟨⟨r, w'⟩, seen⟩, hrun, htest⟩ := (Option.any_eq_true _ _).mp htest
  obtain ⟨hseen, hstatus⟩ := Bool.and_eq_true_iff.mp htest
  refine ⟨p, claim, r, w', hreach, hclaim, prepare_sample hconfiguration hscenario, ?_, hstatus⟩
  refine (executes_of_runWatched ?_ ?_ hrun).2 hseen
  · intro w o call hcheck
    obtain ⟨houtage, hnofail⟩ := Bool.and_eq_true_iff.mp hcheck
    have hnone : o.draws.outage = none := Option.isNone_iff_eq_none.mp houtage
    cases call with
    | queue c =>
      cases c with
      | fail => cases hnofail
      | _ => exact hnone
    | _ => exact hnone
  · intro w call hcall
    cases call with
    | handler job => exact providerFails_timedOut job
    | _ => cases hcall

/-- The attempt of a job that times out is answered as the condition says. -/
theorem retriedOrFailed_iff_endsForGood_timedOut :
    ∃ (w w' : WorkerWorld (postgresExperimentQueue sampleStdlib)) (job : ExperimentJob),
      (RetriedOrFailed job w'.queue ↔ EndsForGood samplePlan job w.queue) := by
  obtain ⟨p, claim, r, w', -, -, hplan, hrun, -⟩ := exists_timedOutAttempt
  exact ⟨p.world, w', claim.2, retriedOrFailed_iff_endsForGood sampleStdlib sampleHandler samplePlan 1
    claim.1 claim.2 hplan p.world w' r hrun⟩

/-- A job whose model call has timed out has succeeded, with a result, at its first attempt. -/
theorem timeout_recorded_as_success :
    ¬∀ (lib : Stdlib) (h : HandlerEnvironment) (plan : JobPlan) (task : ℕ)
      (p : WorkerPool (postgresExperimentQueue lib)),
      (workerSystem (postgresExperimentQueue lib)).Reaches (Outcomes AnyOutcome)
        (idleWorkers (postgresExperimentQueue lib)) p →
      ∀ workerId job, (workerId, job) ∈ p.world.issued → prepare h job = .ok plan → ∀ r w',
        (ExperimentWorker.process task workerId job).Meets
          (workerSystem (postgresExperimentQueue lib)).toMachine Unhindered (MeetsProviderFailure h plan)
          p.world r w' → RetriedOrFailed job w'.queue := by
  intro hclaimed
  obtain ⟨p, claim, r, w', hreach, hclaim, hplan, hrun, hstatus⟩ := exists_timedOutAttempt
  obtain ⟨⟨row, hrow, hretried⟩, -⟩ := hclaimed sampleStdlib sampleHandler samplePlan 1 p hreach claim.1 claim.2
    hclaim hplan r w' hrun
  rw [hrow] at hstatus
  have hsucceeded : row.status = .succeeded := by simpa using hstatus
  rw [hsucceeded] at hretried
  split at hretried <;> cases hretried

end Amlguard
