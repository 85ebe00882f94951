import Amlguard.Experiments.Scheduling

/-!
# Scheduling over a run of calls

Between two calls of `schedule` anything may happen to the queue. No other call adds a job,
removes one or changes what scheduling has decided of it, so the sessions that a call finds
are those of the earlier calls, and `scheduled_exactly_iff` applies the account of one call
to every call of a run.
-/

namespace Amlguard

namespace PostgresExperimentQueue

/-- Only `schedule` changes what the jobs are scheduled for. -/
theorem enlisted_effect {draws : Draws} {db db' : Database} {c : QueueCall}
    {r : Except PyError c.Reply} (heffect : Effect draws db c r db')
    (hc : ∀ manifest new, c ≠ .schedule manifest new) :
    db'.jobs.values.map ExperimentJobRecord.enlisted =
      db.jobs.values.map ExperimentJobRecord.enlisted := by
  cases heffect with
  | unchanged c r hnone => rfl
  | scheduled manifest scenarioIds n db' hknown hrows => exact (hc manifest scenarioIds rfl).elim
  | created manifest scenarioIds n ceiling db' hnew hgrid hpos hrows =>
    exact (hc manifest scenarioIds rfl).elim
  | leased workerId jobId row r hrow hclaimable hreply => exact Dict.map_values_set _ _ hrow rfl
  | beat jobId workerId row expires hrow howner => exact Dict.map_values_set _ _ hrow rfl
  | reserved job amount manifest row hmanifest hrow hnone hroom =>
    exact Dict.map_values_set _ _ hrow rfl
  | completed job result cost manifest row sessions hmanifest hrow hrunning hroom hsessions =>
    exact Dict.map_values_set _ _ hrow rfl
  | failed job error retryable manifest row notBefore hmanifest hrow hdelay =>
    exact Dict.map_values_set _ _ hrow rfl
  | flagged c r experimentId manifest flag status hcall hmanifest => rfl

/-- Inserted jobs leave the manifests as they are. -/
theorem manifests_of_inserts {manifest : ExperimentManifest} {db db' : Database}
    (hrows : Relation.ReflTransGen (Inserts manifest) db db') : db'.manifests = db.manifests := by
  induction hrows with
  | refl => rfl
  | tail _ hrow ih =>
    cases hrow
    exact ih

/-- A stored payload was there before, or the call has scheduled it. -/
theorem payload_effect {draws : Draws} {db db' : Database} {c : QueueCall}
    {r : Except PyError c.Reply} (heffect : Effect draws db c r db') {e : UUID}
    {m : ExperimentRecord} (hm : db'.manifests.get? e = some m) :
    (∃ m₀, db.manifests.get? e = some m₀ ∧ m.payload = m₀.payload) ∨
      ∃ manifest new, c = .schedule manifest new ∧ manifest.experimentId = e ∧
        m.payload = manifest.document := by
  have hset : ∀ {e₀ : UUID} {m₀ m' : ExperimentRecord}, db.manifests.get? e₀ = some m₀ →
      (db.manifests.set e₀ m').get? e = some m → m'.payload = m₀.payload →
        ∃ m₀, db.manifests.get? e = some m₀ ∧ m.payload = m₀.payload := by
    intro e₀ m₀ m' hm₀ hfound hpayload
    rw [Dict.get?_set] at hfound
    split at hfound
    · rename_i heq
      cases hfound
      exact ⟨m₀, heq ▸ hm₀, hpayload⟩
    · exact ⟨m, hfound, rfl⟩
  cases heffect with
  | unchanged c r hnone => exact .inl ⟨m, hm, rfl⟩
  | scheduled manifest scenarioIds n db' hknown hrows =>
    rw [manifests_of_inserts hrows] at hm
    exact .inl ⟨m, hm, rfl⟩
  | created manifest scenarioIds n ceiling db' hnew hgrid hpos hrows =>
    rw [manifests_of_inserts hrows] at hm
    change (db.manifests.set manifest.experimentId _).get? e = some m at hm
    rw [Dict.get?_set] at hm
    split at hm
    · rename_i heq
      cases hm
      exact .inr ⟨manifest, scenarioIds, rfl, heq, rfl⟩
    · exact .inl ⟨m, hm, rfl⟩
  | leased workerId jobId row r hrow hclaimable hreply => exact .inl ⟨m, hm, rfl⟩
  | beat jobId workerId row expires hrow howner => exact .inl ⟨m, hm, rfl⟩
  | reserved job amount manifest row hmanifest hrow hnone hroom =>
    exact .inl (hset hmanifest hm rfl)
  | completed job result cost manifest row sessions hmanifest hrow hrunning hroom hsessions =>
    exact .inl (hset hmanifest hm rfl)
  | failed job error retryable manifest row notBefore hmanifest hrow hdelay =>
    exact .inl (hset hmanifest hm rfl)
  | flagged c r experimentId manifest flag status hcall hmanifest =>
    exact .inl (hset hmanifest hm rfl)

end PostgresExperimentQueue

namespace InMemoryExperimentQueue

/-- What a visit keeps, wherever it visits a stored job, the loop of `claim` keeps. -/
theorem claimLoop_invariant {I : InMemoryQueue → Prop} {now : Datetime} {workerId : String}
    (hvisit : ∀ jobId job q, q.jobs.get? jobId = some job → I q →
      I (visit now workerId jobId job q).2)
    (entries : List (UUID × ExperimentJob)) {q : InMemoryQueue}
    (hnodup : (entries.map Prod.fst).Nodup)
    (hstored : ∀ entry ∈ entries, q.jobs.get? entry.1 = some entry.2) (h : I q) :
    I (claimLoop now workerId entries q).2 := by
  induction entries generalizing q with
  | nil => exact h
  | cons entry rest ih =>
    rw [List.map_cons, List.nodup_cons] at hnodup
    have hkept := hvisit entry.1 entry.2 q (hstored entry List.mem_cons_self) h
    -- a visit writes only the job that it visits
    have hlater : ∀ e ∈ rest,
        (visit now workerId entry.1 entry.2 q).2.jobs.get? e.1 = some e.2 := by
      intro e he
      have hne : entry.1 ≠ e.1 := fun heq => hnodup.1 (heq ▸ List.mem_map_of_mem he)
      have hold := hstored e (List.mem_cons_of_mem _ he)
      unfold visit
      split
      · exact hold
      · split
        · split
          · exact hold
          · exact (Dict.get?_set_ne _ hne _).trans hold
        · split
          · exact (Dict.get?_set_ne _ hne _).trans hold
          · exact hold
    unfold claimLoop
    split
    · rename_i r q' hq'
      rw [hq'] at hkept
      exact hkept
    · rename_i q' hq'
      rw [hq'] at hkept hlater
      exact ih hnodup.2 hlater hkept

/-- Only `schedule` changes what the jobs are scheduled for. -/
theorem enlisted_perform (lib : Stdlib) (draws : Draws) {c : QueueCall} (q : InMemoryQueue)
    (hc : ∀ manifest new, c ≠ .schedule manifest new) :
    (perform lib draws c q).2.jobs.values.map ExperimentJob.enlisted =
      q.jobs.values.map ExperimentJob.enlisted := by
  cases c with
  | schedule manifest new => exact (hc manifest new rfl).elim
  | claim workerId =>
    apply claimLoop_invariant
      (I := fun q' => q'.jobs.values.map ExperimentJob.enlisted =
        q.jobs.values.map ExperimentJob.enlisted) ?_ q.jobs.entries q.jobs.nodup
      (fun entry hentry => (q.jobs.mem_entries_iff entry.1 entry.2).mp hentry) rfl
    intro jobId job q' hjob hsame
    unfold visit
    split
    · exact hsame
    · split
      · split
        · exact hsame
        · refine Eq.trans ?_ hsame
          exact Dict.map_values_set _ _ hjob rfl
      · split
        · refine Eq.trans ?_ hsame
          exact Dict.map_values_set _ _ hjob rfl
        · exact hsame
  | heartbeat jobId workerId =>
    simp only [perform, heartbeat]
    split
    · rfl
    · rename_i job hjob
      split
      · rfl
      · split
        · rfl
        · exact Dict.map_values_set _ _ hjob rfl
  | reserveCost job amount =>
    simp only [perform, reserveCost]
    split
    · rfl
    · split
      · rfl
      · split <;> rfl
  | complete job result cost =>
    simp only [perform, complete]
    split
    · rfl
    · split
      · rfl
      · split
        · rfl
        · rename_i current hcurrent
          exact Dict.map_values_set _ _ hcurrent rfl
  | fail job error retryable =>
    simp only [perform, fail]
    split
    · rfl
    · rename_i current hcurrent
      split
      · rfl
      · exact Dict.map_values_set _ _ hcurrent rfl
  | stop experimentId => rfl
  | resume experimentId => rfl

end InMemoryExperimentQueue

/-- The calls schedule a manifest for some list of scenarios. -/
def Schedules (calls : List (Draws × QueueCall)) (manifest : ExperimentManifest)
    (new : List String) : Prop :=
  ∃ draws, (draws, .schedule manifest new) ∈ calls

/-- The scenarios that a list of calls schedules for an experiment. -/
def scheduledIds (e : UUID) (calls : List (Draws × QueueCall)) : List String :=
  calls.flatMap fun call =>
    match call.2 with
    | .schedule manifest new => if manifest.experimentId = e then new else []
    | _ => []

/-- A statement about every call of `schedule` in a run, with the calls that precede it. -/
def EachSchedule (P : List (Draws × QueueCall) → Draws → ExperimentManifest → List String → Prop) :
    List (Draws × QueueCall) → List (Draws × QueueCall) → Prop
  | _, [] => True
  | before, (draws, c) :: rest =>
    (∀ manifest new, c = .schedule manifest new → P before draws manifest new) ∧
      EachSchedule P (before ++ [(draws, c)]) rest

/-- The text is that of a session which the calls schedule. -/
def RunText (calls : List (Draws × QueueCall)) (text : String) : Prop :=
  ∃ manifest new session, Schedules calls manifest new ∧ IsSession manifest new session ∧
    text = sessionText manifest.experimentId session

/-- A run of calls from the empty queue: an experiment keeps its manifest, identifiers have 128
bits and are not drawn twice, and SHA-256 gives sixty-four digits and does not collide. -/
structure SchedulingRun (lib : Stdlib) (implementation : QueueImplementation)
    (calls : List (Draws × QueueCall)) : Prop where
  manifests : ∀ manifest new manifest' new', Schedules calls manifest new →
    Schedules calls manifest' new' → manifest.experimentId = manifest'.experimentId →
      manifest = manifest'
  identifiers : ∀ manifest new, Schedules calls manifest new → manifest.experimentId < 2 ^ 128
  digits : ∀ text, (lib.sha256 text).length = 64
  collisionFree : ∀ text text', RunText calls text → RunText calls text' →
    lib.sha256 text = lib.sha256 text' → text = text'
  fresh : EachSchedule (fun before draws _ _ => implementation.FreshJobs lib
    ((implementation.queue lib).after (implementation.queue lib).initial before) draws) [] calls

/-- A stored payload of the experiment is the manifest's document. -/
def QueueImplementation.SamePayload (lib : Stdlib) (manifest : ExperimentManifest) :
    (implementation : QueueImplementation) → (implementation.queue lib).State → Prop
  | .inMemory, _ => True
  | .postgres, db => ∀ existing,
      Dict.get? (Database.manifests db) manifest.experimentId = some existing →
        existing.payload = manifest.document

/-- The state records the schedules of a prefix of a run: each experiment has the sessions of
the scenarios scheduled for it, under their keys, and there are no other jobs. -/
structure Recorded (lib : Stdlib) (implementation : QueueImplementation)
    (calls before : List (Draws × QueueCall)) (s : (implementation.queue lib).State) : Prop where
  known : ∀ job ∈ implementation.jobList lib s, ∃ manifest new,
    Schedules calls manifest new ∧ manifest.experimentId = job.1
  stored : ∀ manifest new, Schedules calls manifest new →
    ((implementation.sessionsOf lib s manifest.experimentId).map (·.2)).Perm
      (manifestSessions manifest (scheduledIds manifest.experimentId before).dedup)
  keyed : ∀ manifest new, Schedules calls manifest new →
    Keyed lib manifest (implementation.sessionsOf lib s manifest.experimentId)
  payload : ∀ manifest new, Schedules calls manifest new →
    implementation.SamePayload lib manifest s

section Run

variable {lib : Stdlib} {implementation : QueueImplementation}
  {calls before rest : List (Draws × QueueCall)} {s : (implementation.queue lib).State}

/-- A call other than `schedule` adds no scenario. -/
theorem scheduledIds_append_of_ne {draws : Draws} {c : QueueCall}
    (hc : ∀ manifest new, c ≠ .schedule manifest new) (e : UUID) :
    scheduledIds e (before ++ [(draws, c)]) = scheduledIds e before := by
  unfold scheduledIds
  rw [List.flatMap_append]
  cases c with
  | schedule manifest new => exact (hc manifest new rfl).elim
  | _ => exact List.append_nil _

/-- A call of `schedule` adds its scenarios to those of its experiment. -/
theorem scheduledIds_append_schedule {draws : Draws} {manifest : ExperimentManifest}
    {new : List String} (e : UUID) :
    scheduledIds e (before ++ [(draws, .schedule manifest new)]) =
      scheduledIds e before ++ if manifest.experimentId = e then new else [] := by
  unfold scheduledIds
  rw [List.flatMap_append, List.flatMap_singleton]

/-- Before the first call there is nothing. -/
theorem Recorded.initial : Recorded lib implementation calls []
    (implementation.queue lib).initial := by
  have hnone : ∀ manifest : ExperimentManifest, manifestSessions manifest
      (scheduledIds manifest.experimentId []).dedup = [] := fun manifest => by
    simp [manifestSessions, scheduledIds]
  cases implementation with
  | inMemory =>
    refine ⟨fun job hjob => (by cases hjob), fun manifest new _ => ?_,
      fun manifest new _ entry hentry => (by cases hentry), fun _ _ _ => trivial⟩
    rw [hnone]
    exact .refl _
  | postgres =>
    refine ⟨fun job hjob => (by cases hjob), fun manifest new _ => ?_,
      fun manifest new _ entry hentry => (by cases hentry), fun _ _ _ _ hfound => (by cases hfound)⟩
    rw [hnone]
    exact .refl _

/-- A scenario that is scheduled for an experiment is scheduled with its manifest. -/
theorem exists_schedules_of_mem {calls' : List (Draws × QueueCall)} (hsub : calls' ⊆ calls)
    {e : UUID} {scenarioId : String} (h : scenarioId ∈ scheduledIds e calls') :
    ∃ manifest new, Schedules calls manifest new ∧ manifest.experimentId = e ∧
      scenarioId ∈ new := by
  obtain ⟨⟨draws, c⟩, hcall, hmem⟩ := List.mem_flatMap.mp h
  cases c with
  | schedule manifest new =>
    dsimp only at hmem
    split at hmem
    · rename_i he
      exact ⟨manifest, new, ⟨draws, hsub hcall⟩, he, hmem⟩
    · cases hmem
  | _ => cases hmem

/-- The sessions of the scenarios scheduled before and now are sessions of the run. -/
theorem SchedulingRun.runText (h : SchedulingRun lib implementation calls) (hsub : before ⊆ calls)
    {manifest : ExperimentManifest} {new : List String} (hnew : Schedules calls manifest new)
    {session : String × String × ℕ}
    (hsession : IsSession manifest (scheduledIds manifest.experimentId before ++ new) session) :
    RunText calls (sessionText manifest.experimentId session) := by
  obtain ⟨hconfiguration, hscenario, hrange⟩ := hsession
  rcases List.mem_append.mp hscenario with hold | hscenario
  · obtain ⟨manifest', new', hschedules, hid, hmem⟩ := exists_schedules_of_mem hsub hold
    obtain rfl := h.manifests manifest' new' manifest new hschedules hnew hid
    exact ⟨manifest', new', session, hschedules, ⟨hconfiguration, hmem, hrange⟩, rfl⟩
  · exact ⟨manifest, new, session, hnew, ⟨hconfiguration, hscenario, hrange⟩, rfl⟩

/-- What the schedules of a prefix have recorded is what the next one relies on. -/
theorem Recorded.exact (hs : Recorded lib implementation calls before s)
    (h : SchedulingRun lib implementation calls) (hsub : before ⊆ calls)
    {manifest : ExperimentManifest} {new : List String} (hnew : Schedules calls manifest new) :
    Exact lib implementation manifest (scheduledIds manifest.experimentId before) new s := by
  refine ⟨hs.stored manifest new hnew, hs.keyed manifest new hnew,
    fun job hjob hne session hsession heq => ?_, fun session session' hsession hsession' heq => ?_⟩
  · obtain ⟨manifest', new', hschedules, hid⟩ := hs.known job hjob
    have hentry : job.2 ∈ implementation.sessionsOf lib s manifest'.experimentId :=
      List.mem_map.mpr ⟨job, List.mem_filter.mpr ⟨hjob, decide_eq_true hid.symm⟩, rfl⟩
    have hstored := mem_manifestSessions.mp
      ((hs.stored manifest' new' hschedules).subset (List.mem_map_of_mem (f := (·.2)) hentry))
    have htext := h.runText hsub hschedules
      ⟨hstored.1, List.mem_append_left _ (List.mem_dedup.mp hstored.2.1), hstored.2.2⟩
    have htext' := h.runText hsub hnew
      ⟨hsession.1, List.mem_append_right _ hsession.2.1, hsession.2.2⟩
    rw [hs.keyed manifest' new' hschedules job.2 hentry] at heq
    have hsame := experimentId_of_sessionText (h.identifiers manifest' new' hschedules)
      (h.identifiers manifest new hnew) (h.collisionFree _ _ htext htext' heq)
    exact hne (hid.symm.trans hsame)
  · exact h.collisionFree _ _ (h.runText hsub hnew hsession) (h.runText hsub hnew hsession') heq

/-- A call other than `schedule` changes nothing of what is recorded. -/
theorem Recorded.other (hs : Recorded lib implementation calls before s) (draws : Draws)
    {c : QueueCall} (hc : ∀ manifest new, c ≠ .schedule manifest new) :
    Recorded lib implementation calls (before ++ [(draws, c)])
      ((implementation.queue lib).step draws c s).2 := by
  have hjobs : implementation.jobList lib ((implementation.queue lib).step draws c s).2 =
      implementation.jobList lib s := by
    cases implementation with
    | inMemory => exact InMemoryExperimentQueue.enlisted_perform lib draws s hc
    | postgres =>
      exact PostgresExperimentQueue.enlisted_effect (postgres_step_effect lib draws c s) hc
  have hsessions : ∀ e, implementation.sessionsOf lib
      ((implementation.queue lib).step draws c s).2 e = implementation.sessionsOf lib s e := by
    intro e
    rw [QueueImplementation.sessionsOf, hjobs]
    rfl
  refine ⟨fun job hjob => hs.known job (hjobs ▸ hjob), fun manifest new hnew => ?_,
    fun manifest new hnew => ?_, fun manifest new hnew => ?_⟩
  · rw [hsessions, scheduledIds_append_of_ne hc]
    exact hs.stored manifest new hnew
  · rw [hsessions]
    exact hs.keyed manifest new hnew
  · cases implementation with
    | inMemory => trivial
    | postgres =>
      intro existing hexisting
      rcases PostgresExperimentQueue.payload_effect (postgres_step_effect lib draws c s)
        hexisting with ⟨m₀, hm₀, heq⟩ | ⟨manifest', new', heq, -⟩
      · exact heq.trans (hs.payload manifest new hnew m₀ hm₀)
      · exact (hc manifest' new' heq).elim

/-- Entries of a schedule that are left after a selection hold the keys of their sessions. -/
theorem keyed_filter_shuffle (manifest : ExperimentManifest) (new : List String)
    (p : String × String × String × ℕ → Bool) :
    Keyed lib manifest ((lib.shuffle manifest.randomizationSeed
      (scheduleKeys lib manifest new)).filter p) := by
  intro entry hentry
  have hmem := (lib.shuffle_perm _ _).subset (List.mem_filter.mp hentry).1
  exact (mem_scheduleKeys.mp hmem).2

/-- Whatever becomes of a call of `schedule`, it only adds keyed jobs of its experiment. -/
theorem exists_added (hdigits : ∀ text, (lib.sha256 text).length = 64) {draws : Draws}
    (hfresh : implementation.FreshJobs lib s draws) (manifest : ExperimentManifest)
    (new : List String) :
    ∃ added, Keyed lib manifest added ∧
      implementation.jobList lib
          ((implementation.queue lib).step draws (.schedule manifest new) s).2 =
        implementation.jobList lib s ++ added.map fun key => (manifest.experimentId, key) := by
  cases implementation with
  | inMemory =>
    obtain ⟨n, q', hschedule, henlisted, -⟩ :=
      @InMemoryExperimentQueue.schedule_enlisted lib draws manifest new s hfresh
    have hstep : (inMemoryExperimentQueue lib).step draws (.schedule manifest new) s =
      (.ok n, q') := hschedule
    refine ⟨InMemoryExperimentQueue.newKeys lib manifest new s,
      keyed_filter_shuffle manifest new _, ?_⟩
    rw [show (QueueImplementation.inMemory.queue lib).step draws (.schedule manifest new) s =
      (.ok n, q') from hstep]
    exact henlisted
  | postgres =>
    have hunchanged : ∃ added, Keyed lib manifest added ∧
        QueueImplementation.postgres.jobList lib s =
          QueueImplementation.postgres.jobList lib s ++
            added.map fun key => (manifest.experimentId, key) :=
      ⟨[], fun _ h => (by cases h), (List.append_nil _).symm⟩
    cases houtage : draws.outage with
    | some e =>
      rw [show (QueueImplementation.postgres.queue lib).step draws (.schedule manifest new) s =
        (.error e, s) by simp only [QueueImplementation.queue, postgresExperimentQueue, houtage]]
      exact hunchanged
    | none =>
      rw [show (QueueImplementation.postgres.queue lib).step draws (.schedule manifest new) s =
        Database.session (PostgresExperimentQueue.schedule lib draws manifest new) s from
          PostgresExperimentQueue.step_schedule houtage]
      rcases PostgresExperimentQueue.session_cases
        (PostgresExperimentQueue.schedule lib draws manifest new) s with
          ⟨n, db', hblock, hsession⟩ | ⟨e, -, hsession⟩
      · obtain ⟨-, -, henlisted, -⟩ := PostgresExperimentQueue.schedule_enlisted hfresh.1 hfresh.2
          (fun text => by rw [hdigits]; omega) hblock
        rw [hsession]
        exact ⟨PostgresExperimentQueue.newKeys lib manifest new s,
          keyed_filter_shuffle manifest new _, henlisted⟩
      · rw [hsession]
        exact hunchanged

/-- A call of `schedule` that did what it is for is recorded. -/
theorem Recorded.schedule (hs : Recorded lib implementation calls before s)
    (h : SchedulingRun lib implementation calls) {draws : Draws}
    (hfresh : implementation.FreshJobs lib s draws) {manifest : ExperimentManifest}
    {new : List String} (hnew : Schedules calls manifest new)
    (hexactly : implementation.ScheduledExactly lib manifest
      (scheduledIds manifest.experimentId before) new draws s) :
    Recorded lib implementation calls (before ++ [(draws, .schedule manifest new)])
      ((implementation.queue lib).step draws (.schedule manifest new) s).2 := by
  obtain ⟨added, hadded, hjobs⟩ := exists_added h.digits hfresh manifest new
  have hother : ∀ e, manifest.experimentId ≠ e → implementation.sessionsOf lib
      ((implementation.queue lib).step draws (.schedule manifest new) s).2 e =
        implementation.sessionsOf lib s e := by
    intro e hne
    have hnone : (added.map fun key => (manifest.experimentId, key)).filter
        (fun job => decide (job.1 = e)) = [] := by
      apply List.filter_eq_nil_iff.mpr
      intro job hjob
      obtain ⟨key, -, rfl⟩ := List.mem_map.mp hjob
      simpa using hne
    rw [QueueImplementation.sessionsOf, hjobs, List.filter_append, hnone, List.append_nil]
    rfl
  refine ⟨fun job hjob => ?_, fun manifest' new' hnew' => ?_, fun manifest' new' hnew' => ?_,
    fun manifest' new' hnew' => ?_⟩
  · rw [hjobs] at hjob
    rcases List.mem_append.mp hjob with hold | hjob
    · exact hs.known job hold
    · obtain ⟨key, -, rfl⟩ := List.mem_map.mp hjob
      exact ⟨manifest, new, hnew, rfl⟩
  · rw [scheduledIds_append_schedule]
    by_cases hid : manifest.experimentId = manifest'.experimentId
    · obtain rfl := h.manifests manifest new manifest' new' hnew hnew' hid
      rw [if_pos rfl]
      exact perm_manifestSessions_iff.mpr hexactly.jobs
    · rw [if_neg hid, List.append_nil, hother _ hid]
      exact hs.stored manifest' new' hnew'
  · by_cases hid : manifest.experimentId = manifest'.experimentId
    · obtain rfl := h.manifests manifest new manifest' new' hnew hnew' hid
      rw [sessionsOf_append hjobs]
      intro entry hentry
      rcases List.mem_append.mp hentry with hold | hentry
      · exact hs.keyed manifest new hnew entry hold
      · exact hadded entry hentry
    · rw [hother _ hid]
      exact hs.keyed manifest' new' hnew'
  · cases implementation with
    | inMemory => trivial
    | postgres =>
      intro existing hexisting
      rcases PostgresExperimentQueue.payload_effect
        (postgres_step_effect lib draws (.schedule manifest new) s) hexisting with
          ⟨m₀, hm₀, heq⟩ | ⟨found, list, heq, hid, hpayload⟩
      · exact heq.trans (hs.payload manifest' new' hnew' m₀ hm₀)
      · cases heq
        rw [hpayload, h.manifests manifest new manifest' new' hnew hnew' hid]

/-- One call of `schedule` in a run does what it is for exactly when its sessions are
schedulable. -/
theorem Recorded.scheduledExactly_iff (hs : Recorded lib implementation calls before s)
    (h : SchedulingRun lib implementation calls) (hsub : before ⊆ calls) {draws : Draws}
    (hfresh : implementation.FreshJobs lib s draws) {manifest : ExperimentManifest}
    {new : List String} (hnew : Schedules calls manifest new) :
    implementation.ScheduledExactly lib manifest (scheduledIds manifest.experimentId before) new
        draws s ↔
      implementation.Schedulable lib manifest (scheduledIds manifest.experimentId before) new
        draws s := by
  have hexact := hs.exact h hsub hnew
  cases implementation with
  | inMemory => exact InMemoryExperimentQueue.scheduledExactly_iff hexact hfresh
  | postgres =>
    exact PostgresExperimentQueue.scheduledExactly_iff hexact hfresh
      (fun text => by rw [h.digits]; omega) (hs.payload manifest new hnew)

/-- From a recorded state on, every schedule does what it is for exactly when every schedule is
schedulable. -/
theorem Recorded.eachSchedule_iff (h : SchedulingRun lib implementation calls)
    (hcalls : calls = before ++ rest)
    (hs : Recorded lib implementation calls before
      ((implementation.queue lib).after (implementation.queue lib).initial before))
    (hfresh : EachSchedule (fun before draws _ _ => implementation.FreshJobs lib
      ((implementation.queue lib).after (implementation.queue lib).initial before) draws)
        before rest) :
    EachSchedule (fun before draws manifest new => implementation.ScheduledExactly lib manifest
        (scheduledIds manifest.experimentId before) new draws
          ((implementation.queue lib).after (implementation.queue lib).initial before))
        before rest ↔
      EachSchedule (fun before draws manifest new => implementation.Schedulable lib manifest
        (scheduledIds manifest.experimentId before) new draws
          ((implementation.queue lib).after (implementation.queue lib).initial before))
        before rest := by
  induction rest generalizing before with
  | nil => exact Iff.rfl
  | cons call rest ih =>
    obtain ⟨draws, c⟩ := call
    have hnext : calls = before ++ [(draws, c)] ++ rest := by
      rw [hcalls, List.append_assoc]
      rfl
    have hsub : before ⊆ calls := by
      rw [hcalls]
      exact List.subset_append_left _ _
    have hmem : (draws, c) ∈ calls := by
      rw [hcalls]
      exact List.mem_append_right _ List.mem_cons_self
    have hafter : (implementation.queue lib).after (implementation.queue lib).initial
        (before ++ [(draws, c)]) = ((implementation.queue lib).step draws c
          ((implementation.queue lib).after (implementation.queue lib).initial before)).2 :=
      ExperimentQueue.after_append _ _ before [(draws, c)]
    -- a call of `schedule` that goes wrong ends the induction on both sides
    by_cases hc : ∃ manifest new, c = .schedule manifest new
    · obtain ⟨manifest, new, rfl⟩ := hc
      have hnew : Schedules calls manifest new := ⟨draws, hmem⟩
      have hids := hfresh.1 manifest new rfl
      have hiff := hs.scheduledExactly_iff h hsub hids hnew
      have hrest := fun hexactly => ih hnext
        (hafter ▸ hs.schedule h hids hnew hexactly) hfresh.2
      constructor
      · intro hall
        have hexactly := hall.1 manifest new rfl
        refine ⟨fun manifest' new' heq => ?_, (hrest hexactly).mp hall.2⟩
        cases heq
        exact hiff.mp hexactly
      · intro hall
        have hexactly := hiff.mpr (hall.1 manifest new rfl)
        refine ⟨fun manifest' new' heq => ?_, (hrest hexactly).mpr hall.2⟩
        cases heq
        exact hexactly
    · have hne : ∀ manifest new, c ≠ .schedule manifest new :=
        fun manifest new heq => hc ⟨manifest, new, heq⟩
      have hrest := ih hnext (hafter ▸ hs.other draws hne) hfresh.2
      constructor
      · intro hall
        exact ⟨fun manifest new heq => (hne manifest new heq).elim, hrest.mp hall.2⟩
      · intro hall
        exact ⟨fun manifest new heq => (hne manifest new heq).elim, hrest.mpr hall.2⟩

end Run

/-- In a run from the empty queue every call of `schedule` does what it is for exactly when each
is schedulable. -/
theorem scheduled_exactly_iff (lib : Stdlib) (implementation : QueueImplementation)
    (calls : List (Draws × QueueCall)) (h : SchedulingRun lib implementation calls) :
    EachSchedule (fun before draws manifest new => implementation.ScheduledExactly lib manifest
        (scheduledIds manifest.experimentId before) new draws
          ((implementation.queue lib).after (implementation.queue lib).initial before))
        [] calls ↔
      EachSchedule (fun before draws manifest new => implementation.Schedulable lib manifest
        (scheduledIds manifest.experimentId before) new draws
          ((implementation.queue lib).after (implementation.queue lib).initial before))
        [] calls :=
  Recorded.eachSchedule_iff h rfl Recorded.initial h.fresh

/-- A small manifest under a ceiling of 0.05 EUR. -/
def smallManifest : ExperimentManifest :=
  sampleManifest (1 / 100) (1 / 20) cent_nonneg fiveCents_pos

/-- The small experiment has a session for each of two scenarios. -/
theorem isSession_small {scenarioIds : List String} (hsub : scenarioIds ⊆ ["REG-001", "REG-002"])
    {session : String × String × ℕ} (h : IsSession smallManifest scenarioIds session) :
    session = ("fake-b5", "REG-001", 1) ∨ session = ("fake-b5", "REG-002", 1) := by
  obtain ⟨configurationId, scenarioId, repetition⟩ := session
  obtain ⟨hconfiguration, hscenario, hone, hle⟩ := h
  obtain rfl : configurationId = "fake-b5" := List.mem_singleton.mp hconfiguration
  obtain rfl : repetition = 1 := le_antisymm hle hone
  have hlisted : scenarioId = "REG-001" ∨ scenarioId = "REG-002" := by simpa using hsub hscenario
  rcases hlisted with rfl | rfl
  · exact .inl rfl
  · exact .inr rfl

/-- The texts of its two sessions differ. -/
theorem spelledApart_small {scenarioIds : List String}
    (hsub : scenarioIds ⊆ ["REG-001", "REG-002"]) : SpelledApart smallManifest scenarioIds := by
  intro session session' h h' heq
  rcases isSession_small hsub h with rfl | rfl <;> rcases isSession_small hsub h' with rfl | rfl
  · rfl
  · exact absurd heq (by decide +kernel)
  · exact absurd heq (by decide +kernel)
  · rfl

/-- Runs that schedule the two scenarios of the small experiment with new identifiers. -/
theorem schedulingRun_small {implementation : QueueImplementation}
    {calls : List (Draws × QueueCall)}
    (hcalls : ∀ manifest new, Schedules calls manifest new →
      manifest = smallManifest ∧ new ⊆ ["REG-001", "REG-002"])
    (hfresh : EachSchedule (fun before draws _ _ => implementation.FreshJobs sampleStdlib
      ((implementation.queue sampleStdlib).after (implementation.queue sampleStdlib).initial before)
        draws) [] calls) : SchedulingRun sampleStdlib implementation calls := by
  constructor
  · intro manifest new manifest' new' h h' _
    rw [(hcalls manifest new h).1, (hcalls manifest' new' h').1]
  · intro manifest new h
    rw [(hcalls manifest new h).1]
    exact (by decide : 7 < 2 ^ 128)
  · intro text
    simp only [sampleStdlib]
    split <;> decide +kernel
  · rintro text text' ⟨manifest, new, session, h, hsession, rfl⟩
      ⟨manifest', new', session', h', hsession', rfl⟩
    obtain ⟨rfl, hsub⟩ := hcalls manifest new h
    obtain ⟨rfl, hsub'⟩ := hcalls manifest' new' h'
    rcases isSession_small hsub hsession with rfl | rfl <;>
      rcases isSession_small hsub' hsession' with rfl | rfl <;> decide +kernel
  · exact hfresh

/-- The scenario REG-001 is scheduled, and then REG-001 and REG-002. -/
def overlappingSchedules : List (Draws × QueueCall) :=
  [((sampleDraws 0 0).draws, .schedule smallManifest ["REG-001"]),
    ({ (sampleDraws 1 0).draws with fresh := fun i => (i + 100, 0) },
      .schedule smallManifest ["REG-001", "REG-002"])]

/-- Two overlapping schedules leave one job for each session on PostgreSQL. -/
theorem scheduled_exactly_overlapping :
    EachSchedule (fun before draws manifest new =>
      QueueImplementation.postgres.ScheduledExactly sampleStdlib manifest
        (scheduledIds manifest.experimentId before) new draws
          ((QueueImplementation.postgres.queue sampleStdlib).after
            (QueueImplementation.postgres.queue sampleStdlib).initial before))
      [] overlappingSchedules := by
  have hrun : SchedulingRun sampleStdlib .postgres overlappingSchedules := by
    apply schedulingRun_small
    · rintro manifest new ⟨draws, hmem⟩
      simp only [overlappingSchedules, List.mem_cons, Prod.mk.injEq, QueueCall.schedule.injEq,
        List.not_mem_nil, or_false] at hmem
      rcases hmem with ⟨-, rfl, rfl⟩ | ⟨-, rfl, rfl⟩ <;> exact ⟨rfl, by simp⟩
    · have hkeys : ∀ key ∈ Dict.keys (Database.jobs ((postgresExperimentQueue sampleStdlib).after
          (postgresExperimentQueue sampleStdlib).initial
            [((sampleDraws 0 0).draws, .schedule smallManifest ["REG-001"])])), key < 100 := by
        decide +kernel
      refine ⟨fun _ _ _ => ⟨fun i i' h => ?_, fun i => rfl⟩,
        fun _ _ _ => ⟨fun i i' h => ?_, fun i => ?_⟩, trivial⟩
      · simpa [sampleDraws] using h
      · simpa using h
      · apply (Dict.get?_eq_none_iff _ _).mpr
        exact fun hmem => absurd (hkeys _ hmem) (Nat.not_lt.mpr (Nat.le_add_left 100 i))
  have hfits : ∀ session, IsSession smallManifest ["REG-001", "REG-002"] session →
      session.1.length ≤ 80 ∧ session.2.1.length ≤ 80 ∧
        ∀ cost, estimatedJobCost smallManifest session.1 = .ok cost → Numeric.Fits 14 6 cost := by
    intro session hsession
    have hcost : estimatedJobCost smallManifest "fake-b5" = .ok (1 / 100) := by decide +kernel
    have hfits : Numeric.Fits 14 6 (1 / 100) := by decide +kernel
    rcases isSession_small (List.Subset.refl _) hsession with rfl | rfl
    · refine ⟨by decide, by decide, fun cost hc => ?_⟩
      rw [hcost] at hc
      cases hc
      exact hfits
    · refine ⟨by decide, by decide, fun cost hc => ?_⟩
      rw [hcost] at hc
      cases hc
      exact hfits
  apply (scheduled_exactly_iff sampleStdlib .postgres overlappingSchedules hrun).mpr
  refine ⟨fun manifest new heq => ?_, fun manifest new heq => ?_, trivial⟩
  · cases heq
    refine ⟨rfl, by decide +kernel, spelledApart_small (by decide), fun _ => by decide +kernel,
      fun session hsession => hfits session ?_⟩
    exact ⟨hsession.1, List.mem_cons.mpr (.inl (List.mem_singleton.mp
      (List.mem_filter.mp hsession.2.1).1)), hsession.2.2⟩
  · cases heq
    refine ⟨rfl, by decide +kernel, spelledApart_small (by decide), fun hnone => ?_,
      fun session hsession => hfits session ?_⟩
    · exact absurd hnone (by decide +kernel)
    · exact ⟨hsession.1, (List.mem_filter.mp hsession.2.1).1, hsession.2.2⟩

/-- The scenario REG-001 is listed twice. -/
def repeatedScenario : List (Draws × QueueCall) :=
  [((sampleDraws 0 0).draws, .schedule smallManifest ["REG-001", "REG-001"])]

/-- On either queue a repeated scenario breaks the schedule: two jobs get one key in memory, and
PostgreSQL refuses the call. -/
theorem repeated_scenario_not_exact :
    ¬∃ implementation : QueueImplementation, ∀ (lib : Stdlib) (calls : List (Draws × QueueCall)),
      SchedulingRun lib implementation calls →
      (∀ call ∈ calls, implementation.Connected call.1) →
        EachSchedule (fun before draws manifest new => implementation.ScheduledExactly lib manifest
          (scheduledIds manifest.experimentId before) new draws
            ((implementation.queue lib).after (implementation.queue lib).initial before))
          [] calls := by
  rintro ⟨implementation, h⟩
  have hrun : SchedulingRun sampleStdlib implementation repeatedScenario := by
    apply schedulingRun_small
    · rintro manifest new ⟨draws, hmem⟩
      simp only [repeatedScenario, List.mem_singleton, Prod.mk.injEq, QueueCall.schedule.injEq]
        at hmem
      obtain ⟨-, rfl, rfl⟩ := hmem
      exact ⟨rfl, by simp⟩
    · refine ⟨fun _ _ _ => ?_, trivial⟩
      cases implementation with
      | inMemory => exact ⟨fun i i' heq => (by simpa [sampleDraws] using heq), fun i => rfl⟩
      | postgres => exact ⟨fun i i' heq => (by simpa [sampleDraws] using heq), fun i => rfl⟩
  have hconnected : ∀ call ∈ repeatedScenario, implementation.Connected call.1 := by
    intro call hcall
    obtain rfl := List.mem_singleton.mp hcall
    cases implementation <;> trivial
  have hexactly := (h sampleStdlib repeatedScenario hrun hconnected).1 _ _ rfl
  cases implementation with
  | inMemory => exact absurd hexactly.keys (by decide +kernel)
  | postgres =>
    obtain ⟨n, hn⟩ := hexactly.succeeds
    have hnone : (raised ((postgresExperimentQueue sampleStdlib).step (sampleDraws 0 0).draws
        (.schedule smallManifest ["REG-001", "REG-001"])
          (postgresExperimentQueue sampleStdlib).initial).1).isNone = true :=
      congrArg (fun reply => (raised reply).isNone) hn
    exact absurd hnone (by decide +kernel)

end Amlguard
