import Amlguard.Domain.Values
import Amlguard.Library.Dict
import Amlguard.Library.Transitions

/-!
# The progress of investigation jobs

`InvestigationJobStore` keeps the jobs of the user interface under their IDs, and beside them the job that
each run reports to. Jobs that have ended are pruned when there are many, and a deleted case takes its
jobs with it. Either removal takes the entry of the run along, whichever job it points to.

So the entries always point to jobs, but a job that still runs loses its entry exactly when an older job
of the same run is removed before it.
-/

namespace Amlguard

/-- The states of a step. -/
inductive ProgressStatus where
  | pending | active | completed | failed
  deriving DecidableEq, Repr

/-- A `ProgressStep`. -/
structure ProgressStep where
  key : String
  label : String
  status : ProgressStatus := .pending
  deriving DecidableEq

/-- The states of a job. -/
inductive InvestigationJobStatus where
  | running | completed | failed
  deriving DecidableEq, Repr

/-- An `InvestigationJob`. -/
structure InvestigationJob where
  jobId : UUID
  caseId : UUID
  runId : UUID
  actorId : String
  tenantId : String
  steps : List ProgressStep
  status : InvestigationJobStatus := .running
  error : Option String := none
  deriving DecidableEq

/-- `_STAGES`. -/
def progressStages : List (String × String) :=
  [("initialize", "Initializing investigation"),
    ("load_and_retrieve", "Loading evidence and applicable policy"),
    ("draft_recommendation", "Drafting the recommendation"),
    ("validate_controls", "Validating safeguards and citations"),
    ("collect_information", "Processing supplemental information"),
    ("human_review", "Preparing the human-review handoff")]

/-- The steps of a new job, of which the first is completed. -/
def initialSteps : List ProgressStep :=
  match progressStages.map fun stage => { key := stage.1, label := stage.2 : ProgressStep } with
  | first :: rest => { first with status := .completed } :: rest
  | [] => []

/-- The step after an event. -/
def ProgressStep.noted (step : ProgressStep) (event : String) : ProgressStep :=
  if event = "started" then { step with status := .active }
  else if event = "completed" ∨ event = "interrupted" then { step with status := .completed }
  else if event = "failed" then { step with status := .failed }
  else step

/-- The steps after an event of a stage: the first step of the stage has changed. -/
def noteEvent (stage event : String) : List ProgressStep → List ProgressStep
  | [] => []
  | step :: rest =>
    if step.key = stage then step.noted event :: rest else step :: noteEvent stage event rest

namespace InvestigationJob

/-- The job after an event of a stage. -/
def noted (job : InvestigationJob) (stage event : String) : InvestigationJob :=
  { job with steps := noteEvent stage event job.steps }

/-- The steps that are active come to an end. -/
def settled (job : InvestigationJob) (status : ProgressStatus) : List ProgressStep :=
  job.steps.map fun step => if step.status = .active then { step with status } else step

/-- The job has been completed. -/
def completed (job : InvestigationJob) : InvestigationJob :=
  { job with steps := job.settled .completed, status := .completed }

/-- The job has failed. -/
def failed (job : InvestigationJob) : InvestigationJob :=
  { job with
    steps := job.settled .failed, status := .failed
    error := some ("The investigation could not be completed. " ++
      "Check the case logs using its error ID.") }

end InvestigationJob

/-- An `InvestigationJobStore`: `_jobs` and `_jobs_by_run`. -/
structure InvestigationJobStore where
  jobs : Dict UUID InvestigationJob := .empty
  jobsByRun : Dict UUID UUID := .empty

namespace InvestigationJobStore

/-- `get`. -/
def get (s : InvestigationJobStore) (jobId : UUID) : Except PyError InvestigationJob :=
  orRaise (s.jobs.get? jobId) (.keyError ("unknown investigation job " ++ UUID.str jobId))

/-- A job with its entry is taken out: `_jobs.pop` and `_jobs_by_run.pop`. -/
def remove (s : InvestigationJobStore) (jobId : UUID) : InvestigationJobStore :=
  match s.jobs.get? jobId with
  | some job => { jobs := s.jobs.erase jobId, jobsByRun := s.jobsByRun.erase job.runId }
  | none => s

/-- The jobs that `_prune` takes out: the first hundred that have ended, of more than five hundred. -/
def prunable (s : InvestigationJobStore) : List UUID :=
  if s.jobs.entries.length ≤ 500 then []
  else ((s.jobs.entries.filter fun entry => entry.2.status ≠ .running).map (·.1)).take 100

/-- The jobs of a case. -/
def ofCase (s : InvestigationJobStore) (caseId : UUID) : List UUID :=
  (s.jobs.entries.filter fun entry => entry.2.caseId = caseId).map (·.1)

/-- A new job with its entry. -/
def withJob (s : InvestigationJobStore) (job : InvestigationJob) : InvestigationJobStore where
  jobs := s.jobs.set job.jobId job
  jobsByRun := s.jobsByRun.set job.runId job.jobId

/-- `create`, for a new job. -/
def create (s : InvestigationJobStore) (job : InvestigationJob) : InvestigationJobStore :=
  (s.withJob job).prunable.foldl remove (s.withJob job)

/-- `discard_case`. -/
def discardCase (s : InvestigationJobStore) (caseId : UUID) : InvestigationJobStore :=
  (s.ofCase caseId).foldl remove s

/-- `stage_hook`. -/
def stageHook (s : InvestigationJobStore) (runId : UUID) (stage event : String) :
    Except PyError InvestigationJobStore :=
  match s.jobsByRun.get? runId with
  | none => .ok s
  | some jobId => do
    let job ← orRaise (s.jobs.get? jobId) (.keyError (UUID.str jobId))
    pure { s with jobs := s.jobs.set jobId (job.noted stage event) }

/-- `complete`. -/
def complete (s : InvestigationJobStore) (jobId : UUID) : Except PyError InvestigationJobStore := do
  let job ← s.get jobId
  pure { s with jobs := s.jobs.set jobId job.completed }

/-- `fail`. -/
def fail (s : InvestigationJobStore) (jobId : UUID) : Except PyError InvestigationJobStore := do
  let job ← s.get jobId
  pure { s with jobs := s.jobs.set jobId job.failed }

end InvestigationJobStore

/-- What happens to the store. -/
inductive JobAction where
  | create (jobId caseId runId : UUID) (actorId tenantId : String)
  | stageHook (runId : UUID) (stage event : String)
  | complete (jobId : UUID)
  | fail (jobId : UUID)
  | discardCase (caseId : UUID)

/-- The job that `create` makes. -/
def newJob (jobId caseId runId : UUID) (actorId tenantId : String) : InvestigationJob :=
  { jobId, caseId, runId, actorId, tenantId, steps := initialSteps }

/-- One call. -/
def JobAction.apply (s : InvestigationJobStore) : JobAction → Except PyError InvestigationJobStore
  | .create jobId caseId runId actorId tenantId =>
    .ok (s.create (newJob jobId caseId runId actorId tenantId))
  | .stageHook runId stage event => s.stageHook runId stage event
  | .complete jobId => s.complete jobId
  | .fail jobId => s.fail jobId
  | .discardCase caseId => .ok (s.discardCase caseId)

/-- The store, and the jobs with their runs in the reverse order of their creation. -/
structure ProgressState where
  store : InvestigationJobStore := {}
  created : List (UUID × UUID) := []

/-- The job that was created last for a run. -/
def latestFor (created : List (UUID × UUID)) (runId : UUID) : Option UUID :=
  (created.find? fun entry => entry.2 = runId).map (·.1)

/-- The job that a call creates, with its run. -/
def JobAction.creates : JobAction → List (UUID × UUID)
  | .create jobId _ runId _ _ => [(jobId, runId)]
  | _ => []

/-- The IDs that are drawn for jobs are not in use. -/
def JobAction.Fresh (s : InvestigationJobStore) : JobAction → Prop
  | .create jobId _ _ _ _ => s.jobs.get? jobId = none
  | _ => True

/-- A call returns, or raises and changes nothing. -/
inductive JobStep : ProgressState → JobAction → ProgressState → Prop where
  | returned (s : ProgressState) (a : JobAction) (store : InvestigationJobStore)
      (hfresh : a.Fresh s.store) (h : a.apply s.store = .ok store) :
      JobStep s a { store, created := a.creates ++ s.created }
  | raised (s : ProgressState) (a : JobAction) (e : PyError) (h : a.apply s.store = .error e) :
      JobStep s a s

section Removal

namespace InvestigationJobStore

/-- The job takes its entry along. -/
def TakesRun (s : InvestigationJobStore) (ids : List UUID) (runId : UUID) : Prop :=
  ∃ id ∈ ids, ∃ job, s.jobs.get? id = some job ∧ job.runId = runId

theorem takesRun_cons {s : InvestigationJobStore} {id : UUID} {ids : List UUID} {runId : UUID} :
    s.TakesRun (id :: ids) runId ↔
      (∃ job, s.jobs.get? id = some job ∧ job.runId = runId) ∨ s.TakesRun ids runId := by
  simp [TakesRun]

/-- The jobs that are left after a removal. -/
theorem get?_jobs_removeAll (ids : List UUID) (s : InvestigationJobStore) (id : UUID) :
    (ids.foldl remove s).jobs.get? id = if id ∈ ids then none else s.jobs.get? id := by
  induction ids generalizing s with
  | nil => rfl
  | cons first rest ih =>
    rw [List.foldl_cons, ih]
    unfold remove
    cases hfirst : s.jobs.get? first with
    | none =>
      by_cases heq : id = first
      · simp [heq, hfirst]
      · simp [heq]
    | some job =>
      dsimp only
      rw [Dict.get?_erase]
      by_cases heq : id = first
      · simp [heq]
      · simp [heq, Ne.symm heq]

/-- The entries that are left after a removal. -/
theorem get?_jobsByRun_removeAll (ids : List UUID) (s : InvestigationJobStore) (runId id : UUID) :
    (ids.foldl remove s).jobsByRun.get? runId = some id ↔
      s.jobsByRun.get? runId = some id ∧ ¬s.TakesRun ids runId := by
  induction ids generalizing s with
  | nil => simp [TakesRun]
  | cons first rest ih =>
    rw [List.foldl_cons, ih, takesRun_cons]
    unfold remove
    cases hfirst : s.jobs.get? first with
    | none => simp
    | some job =>
      dsimp only
      rw [Dict.get?_erase]
      by_cases hrun : job.runId = runId
      · simp [hrun]
      · have hrest : ({ jobs := s.jobs.erase first, jobsByRun := s.jobsByRun.erase job.runId } :
            InvestigationJobStore).TakesRun rest runId ↔ s.TakesRun rest runId := by
          simp only [TakesRun, Dict.get?_erase]
          apply exists_congr
          intro other
          by_cases heq : first = other
          · subst heq
            simp [hfirst, hrun]
          · simp [heq]
        simp [hrun, hrest]

end InvestigationJobStore

end Removal

section Representation

/-- The job still runs and was created last for its run. -/
structure Current (s : ProgressState) (id : UUID) (job : InvestigationJob) : Prop where
  stored : s.store.jobs.get? id = some job
  running : job.status = .running
  latest : latestFor s.created job.runId = some id

/-- Every entry points to a job of its run. -/
def Pointing (s : InvestigationJobStore) : Prop :=
  ∀ runId id, s.jobsByRun.get? runId = some id →
    ∃ job, s.jobs.get? id = some job ∧ job.runId = runId

/-- Every entry points to a job of its run. A job that still runs and was created last for its run has
the entry, and its stage events are noted. -/
structure Represented (s : ProgressState) : Prop where
  points : Pointing s.store
  mapped : ∀ id job, Current s id job → s.store.jobsByRun.get? job.runId = some id
  noted : ∀ id job, Current s id job → ∀ stage event, ∃ store,
    s.store.stageHook job.runId stage event = .ok store ∧
      store.jobs.get? id = some (job.noted stage event)

/-- A job with the entry of its run has its stage events noted. -/
theorem Represented.of_mapped {s : ProgressState}
    (points : Pointing s.store)
    (mapped : ∀ id job, Current s id job → s.store.jobsByRun.get? job.runId = some id) :
    Represented s where
  points := points
  mapped := mapped
  noted id job hcurrent stage event := by
    refine ⟨{ s.store with jobs := s.store.jobs.set id (job.noted stage event) }, ?_,
      Dict.get?_set_self _ _ _⟩
    simp [InvestigationJobStore.stageHook, mapped id job hcurrent, hcurrent.stored, orRaise]

/-- The store before a call takes jobs out. -/
def JobAction.before (s : InvestigationJobStore) : JobAction → InvestigationJobStore
  | .create jobId caseId runId actorId tenantId => s.withJob (newJob jobId caseId runId actorId tenantId)
  | _ => s

/-- The jobs that a call takes out. -/
def JobAction.removals (s : InvestigationJobStore) : JobAction → List UUID
  | .create jobId caseId runId actorId tenantId =>
    (s.withJob (newJob jobId caseId runId actorId tenantId)).prunable
  | .discardCase caseId => s.ofCase caseId
  | _ => []

/-- No job that the call takes out is of the same run as a job that stays, still runs, and was created
last for its run. -/
def SparesCurrent (s : ProgressState) (a : JobAction) : Prop :=
  ∀ id job, Current { store := a.before s.store, created := a.creates ++ s.created } id job →
    id ∉ a.removals s.store → ¬(a.before s.store).TakesRun (a.removals s.store) job.runId

/-- The entry of a new job points to it. -/
theorem Pointing.withJob {s : InvestigationJobStore} (h : Pointing s) {job : InvestigationJob}
    (hfresh : s.jobs.get? job.jobId = none) : Pointing (s.withJob job) := by
  intro runId id hentry
  simp only [InvestigationJobStore.withJob, Dict.get?_set] at hentry ⊢
  by_cases hrun : job.runId = runId
  · rw [if_pos hrun] at hentry
    cases hentry
    exact ⟨job, if_pos rfl, hrun⟩
  · rw [if_neg hrun] at hentry
    obtain ⟨found, hfound, hsame⟩ := h runId id hentry
    have hne : job.jobId ≠ id := by
      intro heq
      rw [heq, hfound] at hfresh
      cases hfresh
    exact ⟨found, (if_neg hne).trans hfound, hsame⟩

/-- Jobs take their entries along. -/
theorem Pointing.removeAll {s : InvestigationJobStore} (h : Pointing s) (ids : List UUID) :
    Pointing (ids.foldl InvestigationJobStore.remove s) := by
  intro runId id hentry
  obtain ⟨hentry, hkept⟩ := (InvestigationJobStore.get?_jobsByRun_removeAll ..).mp hentry
  obtain ⟨job, hjob, hrun⟩ := h runId id hentry
  have hid : id ∉ ids := fun hid => hkept ⟨id, hid, job, hjob, hrun⟩
  refine ⟨job, ?_, hrun⟩
  rw [InvestigationJobStore.get?_jobs_removeAll, if_neg hid, hjob]

/-- The entry of a job points to it when the job changes. -/
theorem Pointing.replace {s : InvestigationJobStore} (h : Pointing s) {id : UUID}
    {job job' : InvestigationJob} (hjob : s.jobs.get? id = some job) (hrun : job'.runId = job.runId) :
    Pointing { s with jobs := s.jobs.set id job' } := by
  intro runId other hentry
  obtain ⟨found, hfound, hsame⟩ := h runId other hentry
  dsimp only
  rw [Dict.get?_set]
  by_cases heq : id = other
  · subst heq
    rw [hjob] at hfound
    cases hfound
    exact ⟨job', if_pos rfl, hrun.trans hsame⟩
  · exact ⟨found, (if_neg heq).trans hfound, hsame⟩

/-- A call is one of three: it changes a job that keeps its run and does not run again, it takes jobs out,
or it does nothing. -/
theorem JobAction.apply_cases {s store : InvestigationJobStore} {a : JobAction}
    (h : a.apply s = .ok store) :
    (a.creates = [] ∧ a.removals s = [] ∧ (store = s ∨ ∃ id job job', s.jobs.get? id = some job ∧
      job'.runId = job.runId ∧ (job'.status = .running → job.status = .running) ∧
        store = { s with jobs := s.jobs.set id job' })) ∨
      store = (a.removals s).foldl InvestigationJobStore.remove (a.before s) := by
  cases a with
  | create jobId caseId runId actorId tenantId =>
    cases h
    exact .inr rfl
  | discardCase caseId =>
    cases h
    exact .inr rfl
  | stageHook runId stage event =>
    refine .inl ⟨rfl, rfl, ?_⟩
    simp only [apply, InvestigationJobStore.stageHook] at h
    split at h
    · cases h
      exact .inl rfl
    · obtain ⟨job, hjob, hpure⟩ := bind_eq_ok.mp h
      cases hpure
      exact .inr ⟨_, job, job.noted stage event, orRaise_eq_ok.mp hjob, rfl, id, rfl⟩
  | complete jobId =>
    obtain ⟨job, hjob, hpure⟩ := bind_eq_ok.mp h
    cases hpure
    exact .inl ⟨rfl, rfl, .inr ⟨jobId, job, job.completed, orRaise_eq_ok.mp hjob, rfl,
      (fun hrunning => by cases hrunning), rfl⟩⟩
  | fail jobId =>
    obtain ⟨job, hjob, hpure⟩ := bind_eq_ok.mp h
    cases hpure
    exact .inl ⟨rfl, rfl, .inr ⟨jobId, job, job.failed, orRaise_eq_ok.mp hjob, rfl,
      (fun hrunning => by cases hrunning), rfl⟩⟩

/-- A new job has its entry before jobs are taken out. -/
theorem Pointing.before {s : InvestigationJobStore} (h : Pointing s) {a : JobAction}
    (hfresh : a.Fresh s) : Pointing (a.before s) := by
  cases a with
  | create jobId caseId runId actorId tenantId => exact h.withJob hfresh
  | stageHook runId stage event => exact h
  | complete jobId => exact h
  | fail jobId => exact h
  | discardCase caseId => exact h

/-- In every run from an empty store, every entry points to a job of its run. -/
theorem pointing_of_run {actions : List JobAction} {s : ProgressState}
    (hrun : Transitions.Run JobStep (fun _ _ => True) {} actions s) : Pointing s.store := by
  apply Transitions.Run.invariant (I := fun s : ProgressState => Pointing s.store) _ hrun
  · intro runId id hentry
    cases hentry
  · intro s a s' h _ hstep
    cases hstep with
    | raised e hraised => exact h
    | returned store hfresh hreturned =>
      obtain ⟨_, _, rfl | ⟨id, job, job', hjob, hsame, _, rfl⟩⟩ | rfl := a.apply_cases hreturned
      · exact h
      · exact h.replace hjob hsame
      · exact (h.before hfresh).removeAll _

/-- Before jobs are taken out, the store with a new job represents the jobs. -/
theorem Represented.before {s : ProgressState} (h : Represented s) {a : JobAction}
    (hfresh : a.Fresh s.store) :
    Represented { store := a.before s.store, created := a.creates ++ s.created } := by
  cases a with
  | create jobId caseId runId actorId tenantId =>
    apply Represented.of_mapped (h.points.before hfresh)
    intro id job hcurrent
    have hstored := hcurrent.stored
    have hlatest := hcurrent.latest
    simp only [JobAction.before, JobAction.creates, InvestigationJobStore.withJob, newJob,
      Dict.get?_set, latestFor, List.cons_append, List.nil_append,
      List.find?_cons] at hstored hlatest ⊢
    by_cases hrun : runId = job.runId
    · rw [if_pos hrun]
      simpa [hrun] using hlatest
    · rw [if_neg hrun]
      have hne : jobId ≠ id := by
        intro heq
        rw [if_pos heq] at hstored
        cases hstored
        exact hrun rfl
      rw [if_neg hne] at hstored
      exact h.mapped id job ⟨hstored, hcurrent.running, by simpa [hrun, latestFor] using hlatest⟩
  | stageHook runId stage event => exact h
  | complete jobId => exact h
  | fail jobId => exact h
  | discardCase caseId => exact h

/-- Taking jobs out leaves the jobs represented exactly when it takes no entry of a job that stays, still
runs, and was created last for its run. -/
theorem Represented.removeAll_iff {s : ProgressState} (h : Represented s) (ids : List UUID) :
    Represented { s with store := ids.foldl InvestigationJobStore.remove s.store } ↔
      ∀ id job, Current s id job → id ∉ ids → ¬s.store.TakesRun ids job.runId := by
  have hcurrent : ∀ id job,
      Current { s with store := ids.foldl InvestigationJobStore.remove s.store } id job ↔
        id ∉ ids ∧ Current s id job := by
    intro id job
    have hstored := InvestigationJobStore.get?_jobs_removeAll ids s.store id
    by_cases hid : id ∈ ids
    · rw [if_pos hid] at hstored
      simp only [hid, not_true, false_and, iff_false]
      intro hcurrent
      rw [hcurrent.stored] at hstored
      cases hstored
    · rw [if_neg hid] at hstored
      simp only [hid, not_false_iff, true_and]
      exact ⟨fun hcurrent => ⟨hstored.symm.trans hcurrent.stored, hcurrent.running, hcurrent.latest⟩,
        fun hcurrent => ⟨hstored.trans hcurrent.stored, hcurrent.running, hcurrent.latest⟩⟩
  constructor
  · intro hafter id job hbefore hid
    have hmapped := hafter.mapped id job ((hcurrent id job).mpr ⟨hid, hbefore⟩)
    exact ((InvestigationJobStore.get?_jobsByRun_removeAll ..).mp hmapped).2
  · intro hspared
    apply Represented.of_mapped (h.points.removeAll ids)
    intro id job hafter
    obtain ⟨hid, hbefore⟩ := (hcurrent id job).mp hafter
    exact (InvestigationJobStore.get?_jobsByRun_removeAll ..).mpr
      ⟨h.mapped id job hbefore, hspared id job hbefore hid⟩

/-- A job is replaced by one of the same run, which runs only if the job did. -/
theorem Represented.replace {s : ProgressState} (h : Represented s) {id : UUID}
    {job job' : InvestigationJob} (hjob : s.store.jobs.get? id = some job)
    (hrun : job'.runId = job.runId) (hstatus : job'.status = .running → job.status = .running) :
    Represented { s with store := { s.store with jobs := s.store.jobs.set id job' } } := by
  apply Represented.of_mapped (h.points.replace hjob hrun)
  intro other found hcurrent
  have hstored := hcurrent.stored
  dsimp only at hstored
  rw [Dict.get?_set] at hstored
  by_cases heq : id = other
  · subst heq
    rw [if_pos rfl] at hstored
    cases hstored
    have hmapped := h.mapped id job ⟨hjob, hstatus hcurrent.running, hrun ▸ hcurrent.latest⟩
    rw [hrun]
    exact hmapped
  · rw [if_neg heq] at hstored
    exact h.mapped other found ⟨hstored, hcurrent.running, hcurrent.latest⟩

/-- A call that takes nothing out spares all jobs. -/
theorem sparesCurrent_of_removals_nil {s : ProgressState} {a : JobAction} (h : a.removals s.store = []) :
    SparesCurrent s a := by
  intro id job hcurrent hid
  simp [h, InvestigationJobStore.TakesRun]

/-- `stage_hook`, `complete` and `fail` take nothing out. -/
theorem sparesCurrent_of_raised {s : ProgressState} {a : JobAction} {e : PyError}
    (h : a.apply s.store = .error e) : SparesCurrent s a := by
  cases a with
  | create jobId caseId runId actorId tenantId => cases h
  | discardCase caseId => cases h
  | stageHook runId stage event => exact sparesCurrent_of_removals_nil rfl
  | complete jobId => exact sparesCurrent_of_removals_nil rfl
  | fail jobId => exact sparesCurrent_of_removals_nil rfl

/-- Exactly the calls that spare the current jobs leave the jobs represented. -/
theorem Represented.step_iff {s s' : ProgressState} {a : JobAction} (h : Represented s)
    (hstep : JobStep s a s') : Represented s' ↔ SparesCurrent s a := by
  cases hstep with
  | raised e hraised => exact iff_of_true h (sparesCurrent_of_raised hraised)
  | returned store hfresh hreturned =>
    obtain ⟨hcreates, hnone, hsame⟩ | rfl := a.apply_cases hreturned
    · apply iff_of_true _ (sparesCurrent_of_removals_nil hnone)
      rw [hcreates, List.nil_append]
      obtain rfl | ⟨id, job, job', hjob, hrun, hstatus, rfl⟩ := hsame
      · exact h
      · exact h.replace hjob hrun hstatus
    · exact (h.before hfresh).removeAll_iff _

/-- Nothing is stored at the beginning. -/
theorem represented_empty : Represented {} := by
  apply Represented.of_mapped
  · intro runId id hentry
    cases hentry
  · intro id job hcurrent
    cases hcurrent.stored

/-- In every run from an empty store, the jobs are represented in all states exactly when no call takes out
a job of the same run as a job that stays, still runs, and was created last for its run. -/
theorem represented_throughout_iff {actions : List JobAction} {s : ProgressState} :
    (Transitions.Run JobStep (fun s _ => Represented s) {} actions s ∧ Represented s) ↔
      Transitions.Run JobStep SparesCurrent {} actions s :=
  Transitions.Run.throughout_iff (fun _ _ _ h hstep => h.step_iff hstep) represented_empty

end Representation

section Rerun

/-- Jobs have been created for the runs up to a number, and the first of them has failed. -/
structure Filled (n : ℕ) (s : ProgressState) : Prop where
  first : ∃ job rest, s.store.jobs.entries = (0, job) :: rest ∧ job.runId = 0 ∧ job.status = .failed
  length : s.store.jobs.entries.length = n + 1
  fresh : ∀ id, n < id → s.store.jobs.get? id = none

/-- There is a run that fills the store with up to five hundred jobs. -/
theorem exists_filled (n : ℕ) (hn : n ≤ 499) : ∃ actions s,
    Transitions.Run JobStep (fun _ _ => True) {} actions s ∧ Filled n s := by
  induction n with
  | zero =>
    refine ⟨[.create 0 0 0 "analyst" "tenant", .fail 0], _, .cons _ _ _ _ _ trivial (.returned _ _ _ rfl rfl)
      (.cons _ _ _ _ _ trivial (.returned _ _ _ trivial rfl) (.nil _)), ?_, rfl, ?_⟩
    · exact ⟨_, [], rfl, rfl, rfl⟩
    · intro id hid
      have hne : (0 : UUID) ≠ id := Nat.ne_of_lt hid
      exact (Dict.get?_set_ne _ hne _).trans (Dict.get?_set_ne _ hne _)
  | succ n ih =>
    obtain ⟨actions, s, hrun, hfilled⟩ := ih (by omega)
    have hfresh := hfilled.fresh (n + 1) (by omega)
    let job := newJob (n + 1) (n + 1) (n + 1) "analyst" "tenant"
    have hentries : (s.store.withJob job).jobs.entries = s.store.jobs.entries ++ [(n + 1, job)] :=
      s.store.jobs.entries_set_of_none hfresh job
    have hlength : (s.store.withJob job).jobs.entries.length = n + 1 + 1 := by
      rw [hentries, List.length_append, hfilled.length]
      rfl
    have hcreate : s.store.create job = s.store.withJob job := by
      rw [InvestigationJobStore.create, InvestigationJobStore.prunable, if_pos (by omega)]
      rfl
    refine ⟨_, ⟨s.store.create job, (n + 1, n + 1) :: s.created⟩, hrun.snoc trivial
      (.returned s (.create (n + 1) (n + 1) (n + 1) "analyst" "tenant") _ hfresh rfl), ?_, ?_, ?_⟩
    · obtain ⟨first, rest, hfirst, hrunId, hstatus⟩ := hfilled.first
      refine ⟨first, rest ++ [(n + 1, job)], ?_, hrunId, hstatus⟩
      dsimp only
      rw [hcreate, hentries, hfirst, List.cons_append]
    · dsimp only
      rw [hcreate, hlength]
    · intro id hid
      have hne : n + 1 ≠ id := by omega
      dsimp only
      rw [hcreate]
      exact (Dict.get?_set_ne _ hne _).trans (hfilled.fresh id (by omega))

/-- The five hundred and first job, for the run of the first one, which has failed, loses its entry as soon
as it is created. -/
theorem rerun_not_represented :
    ¬∀ (actions : List JobAction) (s : ProgressState),
      Transitions.Run JobStep (fun _ _ => True) {} actions s → Represented s := by
  intro h
  obtain ⟨actions, s, hrun, hfilled⟩ := exists_filled 499 le_rfl
  have hfresh := hfilled.fresh 500 (by omega)
  obtain ⟨job, rest, hfirst, hrunId, hstatus⟩ := hfilled.first
  let rerun := newJob 500 0 0 "analyst" "tenant"
  have hentries : (s.store.withJob rerun).jobs.entries = (0, job) :: (rest ++ [(500, rerun)]) :=
    (s.store.jobs.entries_set_of_none hfresh rerun).trans (by rw [hfirst]; rfl)
  have hlength : (s.store.withJob rerun).jobs.entries.length = 501 :=
    (congrArg List.length (s.store.jobs.entries_set_of_none hfresh rerun)).trans
      (by simp [hfilled.length])
  have hprunable : 0 ∈ (s.store.withJob rerun).prunable := by
    rw [InvestigationJobStore.prunable, if_neg (by omega), hentries]
    simp [hstatus]
  have hstays : 500 ∉ (s.store.withJob rerun).prunable := by
    rw [InvestigationJobStore.prunable, if_neg (by omega)]
    intro hmem
    obtain ⟨⟨id, found⟩, hfound, hid⟩ := List.mem_map.mp (List.mem_of_mem_take hmem)
    obtain ⟨hfound, hended⟩ := List.mem_filter.mp hfound
    have hget := ((s.store.withJob rerun).jobs.mem_entries_iff id found).mp hfound
    rw [show id = 500 from hid] at hget
    cases (Dict.get?_set_self _ _ _).symm.trans hget
    exact absurd rfl (of_decide_eq_true hended)
  have hafter := h _ _ (hrun.snoc trivial
    (.returned s (.create 500 0 0 "analyst" "tenant") _ hfresh rfl))
  have hstored : ((s.store.create rerun).jobs.get? 500) = some rerun := by
    rw [InvestigationJobStore.create, InvestigationJobStore.get?_jobs_removeAll, if_neg hstays]
    exact Dict.get?_set_self _ _ _
  have hmapped := hafter.mapped 500 rerun ⟨hstored, rfl, rfl⟩
  apply ((InvestigationJobStore.get?_jobsByRun_removeAll ..).mp hmapped).2
  refine ⟨0, hprunable, job, ?_, hrunId⟩
  apply ((s.store.withJob rerun).jobs.mem_entries_iff 0 job).mp
  rw [hentries]
  exact List.mem_cons_self

end Rerun

end Amlguard
