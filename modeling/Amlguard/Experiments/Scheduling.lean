import Amlguard.Experiments.Pause
import Amlguard.Experiments.Sessions

/-!
# Scheduling

Both queues build the sessions of a call, shuffle them, read the stored keys once, and add a
job for every session whose key is not among them. What they read is not updated while they
add, so a scenario that is new and listed twice yields each of its sessions twice: in memory
as two jobs with one key, on PostgreSQL as a violation of the unique key that rolls the whole
call back.

Everything else is as intended: the order does not matter, sessions of earlier calls are
skipped, and the jobs that are already there stay as they are.
-/

namespace Amlguard

open Numeric

/-- The part of a job that scheduling decides: its experiment, key and session. -/
abbrev Enlisted := UUID × String × String × String × ℕ

/-- What scheduling has decided of a row. -/
def ExperimentJobRecord.enlisted (row : ExperimentJobRecord) : Enlisted :=
  (row.experimentId, row.sessionKey, row.configurationId, row.scenarioId, row.repetition)

/-- What scheduling has decided of a job. -/
def ExperimentJob.enlisted (job : ExperimentJob) : Enlisted :=
  (job.experimentId, job.sessionKey, job.configurationId, job.scenarioId, job.repetition)

namespace QueueImplementation

variable (lib : Stdlib)

/-- The jobs of a queue, as scheduling has decided them. -/
def jobList : (implementation : QueueImplementation) → (implementation.queue lib).State →
    List Enlisted
  | .inMemory, q => (Dict.values (InMemoryQueue.jobs q)).map ExperimentJob.enlisted
  | .postgres, db => (Dict.values (Database.jobs db)).map ExperimentJobRecord.enlisted

/-- The keys and sessions of the jobs of an experiment. -/
def sessionsOf (implementation : QueueImplementation) (s : (implementation.queue lib).State)
    (e : UUID) : List (String × String × String × ℕ) :=
  ((implementation.jobList lib s).filter fun job => decide (job.1 = e)).map (·.2)

/-- The jobs stored before are stored as they were. -/
def JobsKept : (implementation : QueueImplementation) → (implementation.queue lib).State →
    (implementation.queue lib).State → Prop
  | .inMemory, q, q' => ∀ j job, Dict.get? (InMemoryQueue.jobs q) j = some job →
      Dict.get? (InMemoryQueue.jobs q') j = some job
  | .postgres, db, db' => ∀ j row, Dict.get? (Database.jobs db) j = some row →
      Dict.get? (Database.jobs db') j = some row

/-- New jobs get IDs of their own. -/
def FreshJobs : (implementation : QueueImplementation) → (implementation.queue lib).State →
    Draws → Prop
  | .inMemory, q, draws => (∀ i i', (draws.fresh i).1 = (draws.fresh i').1 → i = i') ∧
      ∀ i, Dict.get? (InMemoryQueue.jobs q) (draws.fresh i).1 = none
  | .postgres, db, draws => (∀ i i', (draws.fresh i).1 = (draws.fresh i').1 → i = i') ∧
      ∀ i, Dict.get? (Database.jobs db) (draws.fresh i).1 = none

/-- A call of `schedule` does what it is for: it succeeds, afterwards the experiment has
exactly one job for each session of the scenarios scheduled before and now, all under
distinct keys, and the jobs that were there are unchanged. -/
structure ScheduledExactly (implementation : QueueImplementation) (manifest : ExperimentManifest)
    (old new : List String) (draws : Draws) (s : (implementation.queue lib).State) : Prop where
  succeeds : ∃ n, ((implementation.queue lib).step draws (.schedule manifest new) s).1 = .ok n
  jobs : ∀ session, ((implementation.sessionsOf lib
    ((implementation.queue lib).step draws (.schedule manifest new) s).2
      manifest.experimentId).map (·.2)).count session =
        if IsSession manifest (old ++ new) session then 1 else 0
  keys : ((implementation.sessionsOf lib
    ((implementation.queue lib).step draws (.schedule manifest new) s).2
      manifest.experimentId).map (·.1)).Nodup
  kept : implementation.JobsKept lib s
    ((implementation.queue lib).step draws (.schedule manifest new) s).2

/-- The manifest, if it is new, and the new sessions fit the columns of PostgreSQL. -/
def FitsColumns : (implementation : QueueImplementation) → ExperimentManifest → List String →
    List String → (implementation.queue lib).State → Prop
  | .inMemory, _, _, _, _ => True
  | .postgres, manifest, old, new, db =>
    (Dict.get? (Database.manifests db) manifest.experimentId = none →
      manifest.name.length ≤ 200 ∧ Fits 14 4 manifest.costCeilingEur) ∧
    ∀ session, IsSession manifest (new.filter (· ∉ old)) session →
      session.1.length ≤ 80 ∧ session.2.1.length ≤ 80 ∧
        ∀ cost, estimatedJobCost manifest session.1 = .ok cost → Fits 14 6 cost

/-- PostgreSQL can be reached. -/
def Connected : QueueImplementation → Draws → Prop
  | .inMemory, _ => True
  | .postgres, draws => draws.outage = none

/-- The store can be reached, no scenario that is new is listed twice, no two sessions are
spelled alike, and everything new fits its columns. -/
structure Schedulable (implementation : QueueImplementation) (manifest : ExperimentManifest)
    (old new : List String) (draws : Draws) (s : (implementation.queue lib).State) : Prop where
  connected : implementation.Connected draws
  distinct : (new.filter (· ∉ old)).Nodup
  spelled : SpelledApart manifest (old ++ new)
  fits : implementation.FitsColumns lib manifest old new s

end QueueImplementation

/-- The configurations of a schedule have a cost. -/
theorem estimatedJobCost_of_mem {manifest : ExperimentManifest} {configurationId : String}
    (h : configurationId ∈ manifest.configurations.map (·.configurationId)) :
    ∃ cost, estimatedJobCost manifest configurationId = .ok cost := by
  obtain ⟨configuration, hconfiguration, rfl⟩ := List.mem_map.mp h
  cases hfind : manifest.configurations.find? fun item =>
      item.configurationId == configuration.configurationId with
  | none =>
    have hnot := List.find?_eq_none.mp hfind configuration hconfiguration
    simp at hnot
  | some found => exact ⟨_, by rw [estimatedJobCost, hfind]; rfl⟩

/-- A scheduled key is the digest of its session. -/
theorem mem_scheduleKeys {lib : Stdlib} {manifest : ExperimentManifest} {scenarioIds : List String}
    {key : String × String × String × ℕ} :
    key ∈ scheduleKeys lib manifest scenarioIds ↔
      IsSession manifest scenarioIds key.2 ∧
        key.1 = lib.sha256 (sessionText manifest.experimentId key.2) := by
  rw [scheduleKeys_eq, List.mem_map]
  constructor
  · rintro ⟨session, hsession, rfl⟩
    exact ⟨mem_manifestSessions.mp hsession, rfl⟩
  · rintro ⟨hsession, hkey⟩
    exact ⟨key.2, mem_manifestSessions.mpr hsession, Prod.ext hkey.symm rfl⟩

/-- The IDs that are left are still fresh once one of them is taken. -/
theorem fresh_after {V : Type} {fresh : ℕ → UUID × Datetime} {i : ℕ} {jobs : Dict UUID V}
    (hinjective : ∀ i i', (fresh i).1 = (fresh i').1 → i = i')
    (hfresh : ∀ k, i ≤ k → jobs.get? (fresh k).1 = none) (job : V) :
    ∀ k, i + 1 ≤ k → (jobs.set (fresh i).1 job).get? (fresh k).1 = none := by
  intro k hk
  have hne : (fresh i).1 ≠ (fresh k).1 := by
    intro heq
    have := hinjective _ _ heq
    omega
  rw [Dict.get?_set_ne _ hne]
  exact hfresh k (by omega)

namespace PostgresExperimentQueue

/-- A text is stored exactly when it fits its column. -/
theorem varchar_eq_ok_iff {width : ℕ} {s t : String} :
    varchar width s = .ok t ↔ s.length ≤ width ∧ t = s := by
  constructor
  · exact fun h => ⟨length_le_of_varchar h, varchar_eq_ok h⟩
  · rintro ⟨h, rfl⟩
    exact if_pos h

/-- An amount is stored in a job exactly when it fits its column. -/
theorem jobAmount_eq_ok_iff {x y : ℚ} : jobAmount x = .ok y ↔ Fits 14 6 x ∧ y = roundTo 6 x := by
  constructor
  · exact fun h => ⟨fits_of_jobAmount h, jobAmount_eq_ok h⟩
  · rintro ⟨h, rfl⟩
    exact jobAmount_of_fits h

/-- The row of a session fits its columns. -/
def RowFits (manifest : ExperimentManifest) (session : String × String × ℕ) : Prop :=
  session.1.length ≤ 80 ∧ session.2.1.length ≤ 80 ∧
    ∃ cost, estimatedJobCost manifest session.1 = .ok cost ∧ Fits 14 6 cost

/-- A row is inserted exactly when it fits and its key is new. -/
theorem insertJob_eq_ok_iff {manifest : ExperimentManifest} {fresh : UUID × Datetime}
    {key : String × String × String × ℕ} {db db' : Database}
    (hfresh : db.jobs.get? fresh.1 = none) (hwidth : key.1.length ≤ 160) :
    insertJob manifest fresh key db = .ok db' ↔
      RowFits manifest key.2 ∧ (∀ row ∈ db.jobs.values, row.sessionKey ≠ key.1) ∧
        ∃ cost, db' = { db with jobs := db.jobs.set fresh.1 (newRow manifest fresh.2 key cost) } ∧
          (estimatedJobCost manifest key.2.1).map (roundTo 6) = .ok cost := by
  simp only [insertJob, bind_eq_ok, raiseIf_eq_ok, varchar_eq_ok_iff, jobAmount_eq_ok_iff]
  constructor
  · rintro ⟨estimated, hestimated, s, ⟨-, rfl⟩, c, ⟨hc, rfl⟩, sc, ⟨hsc, rfl⟩, cost, ⟨hfits, rfl⟩,
      -, -, -, hkey, h⟩
    cases h
    refine ⟨⟨hc, hsc, estimated, hestimated, hfits⟩, fun row hrow heq => hkey ⟨row, hrow, heq⟩,
      roundTo 6 estimated, rfl, ?_⟩
    rw [hestimated]
    rfl
  · rintro ⟨⟨hc, hsc, estimated, hestimated, hfits⟩, hkey, cost, rfl, hcost⟩
    rw [hestimated] at hcost
    cases hcost
    have hunused : ¬∃ row ∈ db.jobs.values, row.sessionKey = key.1 := by
      rintro ⟨row, hrow, heq⟩
      exact hkey row hrow heq
    exact ⟨estimated, hestimated, _, ⟨hwidth, rfl⟩, _, ⟨hc, rfl⟩, _, ⟨hsc, rfl⟩, _, ⟨hfits, rfl⟩, (),
      by simp [hfresh], (), hunused, rfl⟩

section Insert

variable {manifest : ExperimentManifest} {fresh : ℕ → UUID × Datetime}

/-- Inserted rows fit their columns and come after the stored ones, in their order. -/
theorem insertJobs_enlisted (keys : List (String × String × String × ℕ)) {i : ℕ} {db db' : Database}
    (hinjective : ∀ i i', (fresh i).1 = (fresh i').1 → i = i')
    (hfresh : ∀ k, i ≤ k → db.jobs.get? (fresh k).1 = none)
    (hwidth : ∀ key ∈ keys, key.1.length ≤ 160)
    (h : insertJobs manifest fresh i keys db = .ok db') :
    (∀ key ∈ keys, RowFits manifest key.2) ∧
      db'.jobs.values.map ExperimentJobRecord.enlisted =
        db.jobs.values.map ExperimentJobRecord.enlisted ++
          keys.map fun key => (manifest.experimentId, key) := by
  induction keys generalizing i db with
  | nil =>
    cases h
    exact ⟨fun key hkey => (by cases hkey), (List.append_nil _).symm⟩
  | cons key keys ih =>
    obtain ⟨mid, hmid, hrest⟩ := bind_eq_ok.mp h
    have hnone := hfresh i le_rfl
    obtain ⟨hfits, -, cost, rfl, -⟩ :=
      (insertJob_eq_ok_iff hnone (hwidth key List.mem_cons_self)).mp hmid
    obtain ⟨hall, henlisted⟩ := ih (fresh_after hinjective hfresh _)
      (fun k hk => hwidth k (List.mem_cons_of_mem _ hk)) hrest
    constructor
    · intro k hk
      rcases List.mem_cons.mp hk with rfl | hk
      · exact hfits
      · exact hall k hk
    · rw [henlisted, Dict.values_set_of_none _ hnone, List.map_append, List.append_assoc]
      rfl

/-- Rows that fit, with keys that are new and distinct, are inserted. -/
theorem exists_insertJobs (keys : List (String × String × String × ℕ)) {i : ℕ} {db : Database}
    (hinjective : ∀ i i', (fresh i).1 = (fresh i').1 → i = i')
    (hfresh : ∀ k, i ≤ k → db.jobs.get? (fresh k).1 = none)
    (hwidth : ∀ key ∈ keys, key.1.length ≤ 160) (hfits : ∀ key ∈ keys, RowFits manifest key.2)
    (hnodup : (keys.map (·.1)).Nodup)
    (hnew : ∀ key ∈ keys, ∀ row ∈ db.jobs.values, row.sessionKey ≠ key.1) :
    ∃ db', insertJobs manifest fresh i keys db = .ok db' := by
  induction keys generalizing i db with
  | nil => exact ⟨db, rfl⟩
  | cons key keys ih =>
    have hnone := hfresh i le_rfl
    have hkeyFits := hfits key List.mem_cons_self
    obtain ⟨hc, hsc, cost, hcost, hcostFits⟩ := hkeyFits
    have hmid : insertJob manifest (fresh i) key db = .ok { db with
        jobs := db.jobs.set (fresh i).1 (newRow manifest (fresh i).2 key (roundTo 6 cost)) } :=
      (insertJob_eq_ok_iff hnone (hwidth key List.mem_cons_self)).mpr
        ⟨⟨hc, hsc, cost, hcost, hcostFits⟩, hnew key List.mem_cons_self, roundTo 6 cost, rfl,
          by rw [hcost]; rfl⟩
    rw [List.map_cons, List.nodup_cons] at hnodup
    have hlater : ∀ k ∈ keys, ∀ row ∈ (db.jobs.set (fresh i).1
        (newRow manifest (fresh i).2 key (roundTo 6 cost))).values, row.sessionKey ≠ k.1 := by
      intro k hk row hrow
      rw [Dict.values_set_of_none _ hnone] at hrow
      rcases List.mem_append.mp hrow with hold | hadded
      · exact hnew k (List.mem_cons_of_mem _ hk) row hold
      · obtain rfl := List.mem_singleton.mp hadded
        intro heq
        apply hnodup.1
        rw [show key.1 = k.1 from heq]
        exact List.mem_map_of_mem hk
    obtain ⟨db', hrest⟩ := @ih (i + 1) { db with
        jobs := db.jobs.set (fresh i).1 (newRow manifest (fresh i).2 key (roundTo 6 cost)) }
      (fresh_after hinjective hfresh _) (fun k hk => hwidth k (List.mem_cons_of_mem _ hk))
      (fun k hk => hfits k (List.mem_cons_of_mem _ hk)) hnodup.2 hlater
    exact ⟨db', bind_eq_ok.mpr ⟨_, hmid, hrest⟩⟩

end Insert

/-- A new manifest fits its columns, and a stored one is the same. -/
def ManifestFits (manifest : ExperimentManifest) (db : Database) : Prop :=
  (db.manifests.get? manifest.experimentId = none →
    manifest.name.length ≤ 200 ∧ Fits 14 4 manifest.costCeilingEur) ∧
  ∀ existing, db.manifests.get? manifest.experimentId = some existing →
    existing.payload = manifest.document

/-- The manifest is inserted or found exactly when it fits; the jobs stay as they are. -/
theorem insertManifest_cases (manifest : ExperimentManifest) (db : Database) :
    (∃ db', insertManifest manifest db = .ok db' ∧ db'.jobs = db.jobs ∧
      ManifestFits manifest db) ∨
      ∃ e, insertManifest manifest db = .error e ∧ ¬ManifestFits manifest db := by
  unfold insertManifest
  cases hfound : db.manifests.get? manifest.experimentId with
  | none =>
    by_cases hname : manifest.name.length ≤ 200
    · by_cases hceiling : Fits 14 4 manifest.costCeilingEur
      · left
        refine ⟨_, bind_eq_ok.mpr ⟨_, varchar_eq_ok_iff.mpr ⟨hname, rfl⟩, bind_eq_ok.mpr
          ⟨_, manifestAmount_of_fits hceiling, rfl⟩⟩, rfl, fun _ => ⟨hname, hceiling⟩, ?_⟩
        intro existing hexisting
        rw [hfound] at hexisting
        cases hexisting
      · right
        refine ⟨dataError, ?_, fun h => hceiling (h.1 hfound).2⟩
        simp only [varchar, if_pos hname, manifestAmount, store, if_neg hceiling]
        rfl
    · right
      refine ⟨dataError, ?_, fun h => hname (h.1 hfound).1⟩
      simp only [varchar, if_neg hname]
      rfl
  | some existing =>
    by_cases hpayload : existing.payload = manifest.document
    · left
      refine ⟨db, bind_eq_ok.mpr ⟨(), raiseIf_eq_ok.mpr (not_not.mpr hpayload), rfl⟩, rfl,
        fun hnone => ?_, fun found h => ?_⟩
      · rw [hfound] at hnone
        cases hnone
      · rw [hfound] at h
        cases h
        exact hpayload
    · right
      refine ⟨.valueError "experiment ID already exists with a different manifest", ?_,
        fun h => hpayload (h.2 existing hfound)⟩
      simp only [raiseIf, if_pos hpayload]
      rfl

/-- The keys that a schedule reads are those of the experiment's jobs. -/
theorem existingKeys_eq (lib : Stdlib) (e : UUID) (db : Database) :
    existingKeys e db = (QueueImplementation.postgres.sessionsOf lib db e).map (·.1) := by
  simp only [existingKeys, QueueImplementation.sessionsOf, QueueImplementation.jobList,
    List.filter_map, List.map_map]
  rfl

section Schedule

variable {lib : Stdlib} {draws : Draws} {manifest : ExperimentManifest} {scenarioIds : List String}
  {db : Database}

/-- The entries of a call that it adds. -/
def newKeys (lib : Stdlib) (manifest : ExperimentManifest) (scenarioIds : List String)
    (db : Database) : List (String × String × String × ℕ) :=
  (lib.shuffle manifest.randomizationSeed (scheduleKeys lib manifest scenarioIds)).filter fun key =>
    key.1 ∉ existingKeys manifest.experimentId db

/-- A schedule that succeeds adds its new entries after the stored jobs. -/
theorem schedule_enlisted {db' : Database} {n : ℕ}
    (hinjective : ∀ i i', (draws.fresh i).1 = (draws.fresh i').1 → i = i')
    (hfresh : ∀ i, db.jobs.get? (draws.fresh i).1 = none)
    (hwidth : ∀ text, (lib.sha256 text).length ≤ 160)
    (h : schedule lib draws manifest scenarioIds db = .ok (n, db')) :
    ManifestFits manifest db ∧
      (∀ key ∈ newKeys lib manifest scenarioIds db, RowFits manifest key.2) ∧
      db'.jobs.values.map ExperimentJobRecord.enlisted =
        db.jobs.values.map ExperimentJobRecord.enlisted ++
          (newKeys lib manifest scenarioIds db).map (fun key => (manifest.experimentId, key)) ∧
      ∀ j row, db.jobs.get? j = some row → db'.jobs.get? j = some row := by
  simp only [schedule, bind_eq_ok] at h
  obtain ⟨mid, hmid, last, hlast, h⟩ := h
  cases h
  rcases insertManifest_cases manifest db with ⟨mid', hok, hjobs, hfits⟩ | ⟨e, herror, -⟩
  · obtain rfl : mid' = mid := Except.ok.inj (hok.symm.trans hmid)
    have hkeys : existingKeys manifest.experimentId mid' =
        existingKeys manifest.experimentId db := by
      rw [existingKeys, hjobs]
      rfl
    rw [hkeys] at hlast
    have hkeep := get?_of_inserts (insertJobs_inserts _ hlast)
    obtain ⟨hrows, henlisted⟩ := insertJobs_enlisted _ hinjective
      (fun k _ => by rw [hjobs]; exact hfresh k)
      (fun key hkey => by
        have hmem := (lib.shuffle_perm _ _).subset (List.mem_filter.mp hkey).1
        rw [(mem_scheduleKeys.mp hmem).2]
        exact hwidth _) hlast
    rw [hjobs] at henlisted hkeep
    exact ⟨hfits, hrows, henlisted, hkeep⟩
  · rw [herror] at hmid
    cases hmid

/-- A schedule succeeds when the manifest and the new entries fit and their keys are new. -/
theorem exists_schedule (hinjective : ∀ i i', (draws.fresh i).1 = (draws.fresh i').1 → i = i')
    (hfresh : ∀ i, db.jobs.get? (draws.fresh i).1 = none)
    (hwidth : ∀ text, (lib.sha256 text).length ≤ 160) (hmanifest : ManifestFits manifest db)
    (hfits : ∀ key ∈ newKeys lib manifest scenarioIds db, RowFits manifest key.2)
    (hnodup : ((newKeys lib manifest scenarioIds db).map (·.1)).Nodup)
    (hnew : ∀ key ∈ newKeys lib manifest scenarioIds db, ∀ row ∈ db.jobs.values,
      row.sessionKey ≠ key.1) :
    ∃ n db', schedule lib draws manifest scenarioIds db = .ok (n, db') := by
  rcases insertManifest_cases manifest db with ⟨mid, hok, hjobs, -⟩ | ⟨e, -, hnot⟩
  · have hkeys : existingKeys manifest.experimentId mid =
        existingKeys manifest.experimentId db := by
      rw [existingKeys, hjobs]
      rfl
    obtain ⟨db', hinsert⟩ := @exists_insertJobs manifest draws.fresh
      (newKeys lib manifest scenarioIds db) 0 mid hinjective
      (fun k _ => by rw [hjobs]; exact hfresh k)
      (fun key hkey => by
        have hmem := (lib.shuffle_perm _ _).subset (List.mem_filter.mp hkey).1
        rw [(mem_scheduleKeys.mp hmem).2]
        exact hwidth _) hfits hnodup (by rw [hjobs]; exact hnew)
    refine ⟨_, db', bind_eq_ok.mpr ⟨mid, hok, bind_eq_ok.mpr ⟨db', ?_, rfl⟩⟩⟩
    rw [hkeys]
    exact hinsert
  · exact (hnot hmanifest).elim

end Schedule

end PostgresExperimentQueue

/-- What is known of the jobs before a call of `schedule`: those of the experiment are the
sessions of its earlier scenarios under their keys, and no other job has a key of the call. -/
structure Exact (lib : Stdlib) (implementation : QueueImplementation)
    (manifest : ExperimentManifest) (old new : List String)
    (s : (implementation.queue lib).State) : Prop where
  stored : ((implementation.sessionsOf lib s manifest.experimentId).map (·.2)).Perm
    (manifestSessions manifest old.dedup)
  keyed : Keyed lib manifest (implementation.sessionsOf lib s manifest.experimentId)
  foreign : ∀ job ∈ implementation.jobList lib s, job.1 ≠ manifest.experimentId →
    ∀ session, IsSession manifest new session →
      job.2.1 ≠ lib.sha256 (sessionText manifest.experimentId session)
  digest : DigestApart lib manifest (old ++ new)

/-- The sessions of an experiment after jobs of it have been added. -/
theorem sessionsOf_append {lib : Stdlib} {implementation : QueueImplementation} {e : UUID}
    {s s' : (implementation.queue lib).State} {added : List (String × String × String × ℕ)}
    (h : implementation.jobList lib s' =
      implementation.jobList lib s ++ added.map fun key => (e, key)) :
    implementation.sessionsOf lib s' e = implementation.sessionsOf lib s e ++ added := by
  have hall : (added.map fun key => (e, key)).filter (fun job => decide (job.1 = e)) =
      added.map fun key => (e, key) := by
    apply List.filter_eq_self.mpr
    intro job hjob
    obtain ⟨key, -, rfl⟩ := List.mem_map.mp hjob
    exact decide_eq_true rfl
  rw [QueueImplementation.sessionsOf, h, List.filter_append, List.map_append, hall, List.map_map]
  exact congrArg _ (List.map_id' added)

namespace PostgresExperimentQueue

variable {lib : Stdlib} {draws : Draws} {manifest : ExperimentManifest} {old new : List String}
  {db : Database}

/-- A call without a lost connection is one transaction. -/
theorem step_schedule (houtage : draws.outage = none) :
    (postgresExperimentQueue lib).step draws (.schedule manifest new) db =
      Database.session (schedule lib draws manifest new) db := by
  simp only [postgresExperimentQueue, houtage]
  rfl

/-- A call that succeeds has reached the database. -/
theorem outage_of_step {c : QueueCall} {r : c.Reply}
    (h : ((postgresExperimentQueue lib).step draws c db).1 = .ok r) : draws.outage = none := by
  cases houtage : draws.outage with
  | none => rfl
  | some e =>
    simp only [postgresExperimentQueue, houtage] at h
    cases h

/-- A call of `schedule` on PostgreSQL does what it is for exactly when its sessions are
schedulable. -/
theorem scheduledExactly_iff (h : Exact lib .postgres manifest old new db)
    (hfresh : QueueImplementation.postgres.FreshJobs lib db draws)
    (hwidth : ∀ text, (lib.sha256 text).length ≤ 160)
    (hpayload : ∀ existing, db.manifests.get? manifest.experimentId = some existing →
      existing.payload = manifest.document) :
    QueueImplementation.postgres.ScheduledExactly lib manifest old new draws db ↔
      QueueImplementation.postgres.Schedulable lib manifest old new draws db := by
  have hexisting : ∀ session, IsSession manifest new session →
      (lib.sha256 (sessionText manifest.experimentId session) ∈
          existingKeys manifest.experimentId db ↔
        lib.sha256 (sessionText manifest.experimentId session) ∈
          (QueueImplementation.postgres.sessionsOf lib db manifest.experimentId).map (·.1)) :=
    fun session _ => by rw [existingKeys_eq lib]
  have hkeys := lib.shuffle_perm manifest.randomizationSeed (scheduleKeys lib manifest new)
  have hexact := exact_iff h.digest h.stored h.keyed hkeys hexisting
  -- the sessions of the added entries, once no two sessions are spelled alike
  have hadded : SpelledApart manifest (old ++ new) →
      ((newKeys lib manifest new db).map (·.2)).Perm
        (manifestSessions manifest (new.filter (· ∉ old))) :=
    fun hspelled => new_entries_perm h.digest hspelled h.stored h.keyed hkeys hexisting
  constructor
  · rintro ⟨⟨n, hn⟩, hjobs, hnodup, -⟩
    have houtage := outage_of_step hn
    rw [step_schedule houtage] at hn hjobs hnodup
    rcases session_cases (schedule lib draws manifest new) db with
      ⟨a, db', hblock, hsession⟩ | ⟨e, -, hsession⟩
    · rw [hsession] at hjobs hnodup
      obtain ⟨hmanifest, hrows, henlisted, -⟩ :=
        schedule_enlisted hfresh.1 hfresh.2 hwidth hblock
      have hsessions := @sessionsOf_append lib .postgres manifest.experimentId db db' _
        henlisted
      rw [show (Except.ok a, db').2 = db' from rfl, hsessions] at hjobs hnodup
      obtain ⟨hdistinct, hspelled⟩ := hexact.mp ⟨perm_manifestSessions_iff.mpr hjobs, hnodup⟩
      refine ⟨houtage, hdistinct, hspelled, hmanifest.1, fun session hsession => ?_⟩
      have hmem := (hadded hspelled).symm.subset (mem_manifestSessions.mpr hsession)
      obtain ⟨key, hkey, rfl⟩ := List.mem_map.mp hmem
      obtain ⟨hc, hsc, cost, hcost, hfits⟩ := hrows key hkey
      refine ⟨hc, hsc, fun cost' hcost' => ?_⟩
      rw [hcost] at hcost'
      cases hcost'
      exact hfits
    · rw [hsession] at hn
      cases hn
  · rintro ⟨houtage, hdistinct, hspelled, hmanifest, hfits⟩
    obtain ⟨hperm, hnodup⟩ := hexact.mpr ⟨hdistinct, hspelled⟩
    have hrows : ∀ key ∈ newKeys lib manifest new db, RowFits manifest key.2 := by
      intro key hkey
      have hsession := mem_manifestSessions.mp
        ((hadded hspelled).subset (List.mem_map_of_mem (f := (·.2)) hkey))
      obtain ⟨hc, hsc, hcost⟩ := hfits key.2 hsession
      obtain ⟨cost, hestimated⟩ := estimatedJobCost_of_mem hsession.1
      exact ⟨hc, hsc, cost, hestimated, hcost cost hestimated⟩
    have hapart := hnodup
    rw [List.map_append] at hapart
    have hnew : ∀ key ∈ newKeys lib manifest new db, ∀ row ∈ db.jobs.values,
        row.sessionKey ≠ key.1 := by
      intro key hkey row hrow heq
      have hmem := hkeys.subset (List.mem_filter.mp hkey).1
      obtain ⟨hsession, hdigest⟩ := mem_scheduleKeys.mp hmem
      have hjob : row.enlisted ∈ QueueImplementation.postgres.jobList lib db :=
        List.mem_map_of_mem hrow
      by_cases hexperiment : row.experimentId = manifest.experimentId
      · have hold : row.sessionKey ∈
            (QueueImplementation.postgres.sessionsOf lib db manifest.experimentId).map (·.1) :=
          List.mem_map.mpr ⟨row.enlisted.2, List.mem_map.mpr
            ⟨row.enlisted, List.mem_filter.mpr ⟨hjob, decide_eq_true hexperiment⟩, rfl⟩, rfl⟩
        rw [heq] at hold
        exact (List.nodup_append.mp hapart).2.2 _ hold _ (List.mem_map_of_mem (f := (·.1)) hkey) rfl
      · exact h.foreign _ hjob hexperiment key.2 hsession (heq.trans hdigest)
    obtain ⟨n, db', hblock⟩ := exists_schedule hfresh.1 hfresh.2 hwidth ⟨hmanifest, hpayload⟩ hrows
      (List.nodup_append.mp hapart).2.1 hnew
    obtain ⟨-, -, henlisted, hkept⟩ := schedule_enlisted hfresh.1 hfresh.2 hwidth hblock
    have hsessions := @sessionsOf_append lib .postgres manifest.experimentId db db' _
      henlisted
    have hstep : (postgresExperimentQueue lib).step draws (.schedule manifest new) db =
        (.ok n, db') := by
      rw [step_schedule houtage, Database.session, hblock]
    constructor
    · exact ⟨n, by rw [hstep]⟩
    · rw [hstep, hsessions]
      exact perm_manifestSessions_iff.mp hperm
    · rw [hstep, hsessions]
      exact hnodup
    · rw [hstep]
      exact hkept

end PostgresExperimentQueue

namespace InMemoryExperimentQueue

section Insert

variable {lib : Stdlib} {manifest : ExperimentManifest} {fresh : ℕ → UUID × Datetime}

/-- The job of a scheduled key. -/
theorem exists_newJob {scenarioIds : List String} {key : String × String × String × ℕ}
    (hkey : key ∈ scheduleKeys lib manifest scenarioIds) (id : UUID × Datetime) :
    ∃ job, newJob manifest id key = .ok job ∧ job.jobId = id.1 ∧
      job.enlisted = (manifest.experimentId, key) := by
  obtain ⟨hsession, -⟩ := mem_scheduleKeys.mp hkey
  obtain ⟨cost, hcost⟩ := estimatedJobCost_of_mem hsession.1
  have hchecked : 1 ≤ key.2.2.2 ∧ 0 ≤ cost := ⟨hsession.2.2.1, estimatedJobCost_nonneg hcost⟩
  refine ⟨_, bind_eq_ok.mpr ⟨cost, hcost, dif_pos hchecked⟩, rfl, rfl⟩

/-- The jobs of the unknown keys are added after the stored ones, in their order. -/
theorem addJobs_enlisted {existing scenarioIds : List String}
    (hinjective : ∀ i i', (fresh i).1 = (fresh i').1 → i = i')
    (keys : List (String × String × String × ℕ)) {i : ℕ} {q : InMemoryQueue}
    (hkeys : ∀ key ∈ keys, key ∈ scheduleKeys lib manifest scenarioIds)
    (hfresh : ∀ k, i ≤ k → q.jobs.get? (fresh k).1 = none) :
    ∃ jobs, addJobs manifest fresh existing i keys q = (.ok (), { q with jobs }) ∧
      jobs.values.map ExperimentJob.enlisted =
        q.jobs.values.map ExperimentJob.enlisted ++
          (keys.filter fun key => key.1 ∉ existing).map (fun key => (manifest.experimentId, key)) ∧
      ∀ j job, q.jobs.get? j = some job → jobs.get? j = some job := by
  induction keys generalizing i q with
  | nil => exact ⟨q.jobs, rfl, (List.append_nil _).symm, fun _ _ h => h⟩
  | cons key keys ih =>
    have hrest : ∀ k ∈ keys, k ∈ scheduleKeys lib manifest scenarioIds :=
      fun k hk => hkeys k (List.mem_cons_of_mem _ hk)
    by_cases hexisting : key.1 ∈ existing
    · obtain ⟨jobs, hadd, henlisted, hkept⟩ := ih hrest hfresh
      refine ⟨jobs, ?_, ?_, hkept⟩
      · rw [addJobs, if_pos hexisting]
        exact hadd
      · rw [List.filter_cons_of_neg (by simpa using hexisting)]
        exact henlisted
    · obtain ⟨job, hjob, hid, hjobEnlisted⟩ := exists_newJob (hkeys key List.mem_cons_self) (fresh i)
      have hnone := hfresh i le_rfl
      have hlater := fresh_after hinjective hfresh job
      rw [← hid] at hnone hlater
      obtain ⟨jobs, hadd, henlisted, hkept⟩ :=
        @ih (i + 1) { q with jobs := q.jobs.set job.jobId job } hrest hlater
      refine ⟨jobs, ?_, ?_, fun j stored hstored => hkept j stored ?_⟩
      · rw [addJobs, if_neg hexisting, hjob]
        exact hadd
      · rw [henlisted, Dict.values_set_of_none _ hnone, List.map_append, List.append_assoc,
          List.filter_cons_of_pos (by simpa using hexisting)]
        exact congrArg _ (congrArg (· :: _) hjobEnlisted)
      · refine (Dict.get?_set_ne _ (fun heq => ?_) _).trans hstored
        rw [heq, hstored] at hnone
        cases hnone

end Insert

section Schedule

variable {lib : Stdlib} {draws : Draws} {manifest : ExperimentManifest} {old new : List String}
  {q : InMemoryQueue}

/-- The keys that a schedule reads are those of all jobs. -/
def existingKeys (q : InMemoryQueue) : List String := q.jobs.values.map (·.sessionKey)

/-- The entries of a call that it adds. -/
def newKeys (lib : Stdlib) (manifest : ExperimentManifest) (scenarioIds : List String)
    (q : InMemoryQueue) : List (String × String × String × ℕ) :=
  (lib.shuffle manifest.randomizationSeed (scheduleKeys lib manifest scenarioIds)).filter fun key =>
    key.1 ∉ existingKeys q

/-- A schedule adds its new entries after the stored jobs. -/
theorem schedule_enlisted (hfresh : QueueImplementation.inMemory.FreshJobs lib q draws) :
    ∃ n q', schedule lib draws manifest new q = (.ok n, q') ∧
      q'.jobs.values.map ExperimentJob.enlisted =
        q.jobs.values.map ExperimentJob.enlisted ++
          (newKeys lib manifest new q).map (fun key => (manifest.experimentId, key)) ∧
      ∀ j job, q.jobs.get? j = some job → q'.jobs.get? j = some job := by
  set known := { q with manifests := q.manifests.set manifest.experimentId manifest } with hknown
  have hkeys : ∀ key ∈ lib.shuffle manifest.randomizationSeed (scheduleKeys lib manifest new),
      key ∈ scheduleKeys lib manifest new := fun key hkey => (lib.shuffle_perm _ _).subset hkey
  obtain ⟨jobs, hadd, henlisted, hkept⟩ := @addJobs_enlisted lib manifest draws.fresh
    (existingKeys q) new hfresh.1 _ 0 known hkeys fun k _ => hfresh.2 k
  refine ⟨(lib.shuffle manifest.randomizationSeed (scheduleKeys lib manifest new)).length,
    { known with jobs }, ?_, henlisted, hkept⟩
  simp only [schedule]
  rw [show q.jobs.values.map (·.sessionKey) = existingKeys q from rfl, ← hknown, hadd]

/-- A call of `schedule` in memory does what it is for exactly when its sessions are
schedulable. -/
theorem scheduledExactly_iff (h : Exact lib .inMemory manifest old new q)
    (hfresh : QueueImplementation.inMemory.FreshJobs lib q draws) :
    QueueImplementation.inMemory.ScheduledExactly lib manifest old new draws q ↔
      QueueImplementation.inMemory.Schedulable lib manifest old new draws q := by
  have hexisting : ∀ session, IsSession manifest new session →
      (lib.sha256 (sessionText manifest.experimentId session) ∈ existingKeys q ↔
        lib.sha256 (sessionText manifest.experimentId session) ∈
          (QueueImplementation.inMemory.sessionsOf lib q manifest.experimentId).map (·.1)) := by
    intro session hsession
    constructor
    · intro hmem
      obtain ⟨job, hjob, hkey⟩ := List.mem_map.mp hmem
      have hlisted : job.enlisted ∈ QueueImplementation.inMemory.jobList lib q :=
        List.mem_map_of_mem hjob
      -- a job of another experiment has none of the keys of the call
      have hexperiment : job.experimentId = manifest.experimentId := by
        by_contra hne
        exact h.foreign _ hlisted hne session hsession hkey
      exact List.mem_map.mpr ⟨job.enlisted.2, List.mem_map.mpr
        ⟨job.enlisted, List.mem_filter.mpr ⟨hlisted, decide_eq_true hexperiment⟩, rfl⟩, hkey⟩
    · intro hmem
      obtain ⟨entry, hentry, hkey⟩ := List.mem_map.mp hmem
      obtain ⟨listed, hlisted, rfl⟩ := List.mem_map.mp hentry
      obtain ⟨job, hjob, rfl⟩ := List.mem_map.mp (List.mem_filter.mp hlisted).1
      exact List.mem_map.mpr ⟨job, hjob, hkey⟩
  have hkeys := lib.shuffle_perm manifest.randomizationSeed (scheduleKeys lib manifest new)
  have hexact := exact_iff h.digest h.stored h.keyed hkeys hexisting
  obtain ⟨n, q', hschedule, henlisted, hkept⟩ := @schedule_enlisted lib draws manifest new q hfresh
  have hsessions := @sessionsOf_append lib .inMemory manifest.experimentId q q' _ henlisted
  have hstep : (inMemoryExperimentQueue lib).step draws (.schedule manifest new) q =
      (.ok n, q') := hschedule
  constructor
  · rintro ⟨-, hjobs, hnodup, -⟩
    rw [hstep, hsessions] at hjobs hnodup
    obtain ⟨hdistinct, hspelled⟩ := hexact.mp ⟨perm_manifestSessions_iff.mpr hjobs, hnodup⟩
    exact ⟨trivial, hdistinct, hspelled, trivial⟩
  · rintro ⟨-, hdistinct, hspelled, -⟩
    obtain ⟨hperm, hnodup⟩ := hexact.mpr ⟨hdistinct, hspelled⟩
    constructor
    · exact ⟨n, by rw [hstep]⟩
    · rw [hstep, hsessions]
      exact perm_manifestSessions_iff.mp hperm
    · rw [hstep, hsessions]
      exact hnodup
    · rw [hstep]
      exact hkept

end Schedule

end InMemoryExperimentQueue

end Amlguard
