import Amlguard.Experiments.Rows
import Amlguard.Experiments.Ceiling

/-!
# The cost ledger

The manifest keeps running totals of what its jobs keep row by row. Each call moves the same
amount in both places, so the totals agree as long as both places round it alike and as long
as a finished job is not booked, released or reopened again.

An amount that is stored alike in both tables, such as one of whole units of 0.0001 EUR, keeps them
together. Other amounts are rounded in the manifest and kept in the job, and the totals drift.
-/

namespace Amlguard

open Awaited Numeric PostgresExperimentQueue

/-- The part of a job's row in the reserved total of an experiment. -/
def reservedOf (e : UUID) (row : ExperimentJobRecord) : ℚ :=
  if row.experimentId = e then row.reservedCostEur else 0

/-- The part of a job's row in the spent total of an experiment. -/
def bookedOf (e : UUID) (row : ExperimentJobRecord) : ℚ :=
  if row.experimentId = e ∧ row.status = .succeeded then row.actualCostEur.getD 0 else 0

/-- The job should hold no reservation. -/
def Settled (status : JobStatus) : Prop :=
  status = .succeeded ∨ status = .failed ∨ status = .retryWait

instance (status : JobStatus) : Decidable (Settled status) :=
  inferInstanceAs (Decidable (_ ∨ _ ∨ _))

/-- The totals of every manifest are those of its jobs, and settled jobs reserve nothing. -/
structure Conserved (db : Database) : Prop where
  reserved : ∀ e m, db.manifests.get? e = some m →
    m.costReservedEur = db.jobs.sum fun _ row => reservedOf e row
  spent : ∀ e m, db.manifests.get? e = some m →
    m.costSpentEur = db.jobs.sum fun _ row => bookedOf e row
  settled : ∀ j row, db.jobs.get? j = some row → Settled row.status → row.reservedCostEur = 0

/-- The handler of a job returns a nonnegative cost. -/
def NonnegativeCost {Q : ExperimentQueue} (_ : WorkerWorld Q) (o : WorkerDraws) : WorkerCall → Prop
  | .handler _ => ∀ outcome ∈ o.handled.toOption, 0 ≤ outcome.2
  | _ => True

instance {Q : ExperimentQueue} (w : WorkerWorld Q) (o : WorkerDraws) :
    (c : WorkerCall) → Decidable (NonnegativeCost w o c)
  | .handler _ => inferInstanceAs (Decidable (∀ outcome ∈ o.handled.toOption, 0 ≤ outcome.2))
  | .queue _ | .recordCompleted _ _ _ | .recordFailed _ _ _ | .beat _ | .cancelHeartbeat _ =>
    isTrue trivial

/-- A succeeded job with a booked cost. -/
def Booked (row : ExperimentJobRecord) : Prop :=
  row.status = .succeeded ∧ row.actualCostEur.getD 0 ≠ 0

instance (row : ExperimentJobRecord) : Decidable (Booked row) := inferInstanceAs (Decidable (_ ∧ _))

/-- An accepted reservation or completion moves an amount that both tables round alike, a
reservation that is stored as more than zero does not reach a settled job, and no completion,
failure or owner's heartbeat reaches a job whose cost is booked. -/
def Accountable (db : Database) : QueueCall → Prop
  | .reserveCost job amount => ∀ manifest ∈ db.manifests.get? job.experimentId,
      ∀ row ∈ db.jobs.get? job.jobId, row.reservedCostEur = 0 → manifest.stopRequested = false →
        manifest.costSpentEur + manifest.costReservedEur + amount ≤ manifest.costCeilingEur →
          roundTo 4 amount = roundTo 6 amount ∧ (Settled row.status → roundTo 6 amount = 0)
  | .complete job _ cost => ∀ manifest ∈ db.manifests.get? job.experimentId,
      ∀ row ∈ db.jobs.get? job.jobId, manifest.stopRequested = false →
        manifest.costSpentEur + cost ≤ manifest.costCeilingEur →
          roundTo 4 cost = roundTo 6 cost ∧ ¬Booked row
  | .fail job _ _ => ∀ row ∈ db.jobs.get? job.jobId, ¬Booked row
  | .heartbeat jobId workerId => ∀ row ∈ db.jobs.get? jobId,
      row.leaseOwner = some workerId → ¬Booked row
  | _ => True

instance (db : Database) : (c : QueueCall) → Decidable (Accountable db c)
  | .reserveCost job amount => inferInstanceAs (Decidable
      (∀ manifest ∈ db.manifests.get? job.experimentId, ∀ row ∈ db.jobs.get? job.jobId,
        row.reservedCostEur = 0 → manifest.stopRequested = false →
          manifest.costSpentEur + manifest.costReservedEur + amount ≤ manifest.costCeilingEur →
            roundTo 4 amount = roundTo 6 amount ∧ (Settled row.status → roundTo 6 amount = 0)))
  | .complete job _ cost => inferInstanceAs (Decidable
      (∀ manifest ∈ db.manifests.get? job.experimentId, ∀ row ∈ db.jobs.get? job.jobId,
        manifest.stopRequested = false →
          manifest.costSpentEur + cost ≤ manifest.costCeilingEur →
            roundTo 4 cost = roundTo 6 cost ∧ ¬Booked row))
  | .fail job _ _ => inferInstanceAs (Decidable (∀ row ∈ db.jobs.get? job.jobId, ¬Booked row))
  | .heartbeat jobId workerId => inferInstanceAs (Decidable
      (∀ row ∈ db.jobs.get? jobId, row.leaseOwner = some workerId → ¬Booked row))
  | .schedule _ _ | .claim _ | .stop _ | .resume _ => isTrue trivial

/-- The ledger agrees and every reservation is a whole number of units of 0.0001 EUR. -/
structure LedgerDb (db : Database) : Prop extends Conserved db where
  rowGrid : ∀ j row, db.jobs.get? j = some row → OnGrid 4 row.reservedCostEur

namespace LedgerDb

variable {db : Database} {issued : List (String × ExperimentJob)}

/-- A call that rewrites one job and adjusts the manifests by the difference it makes keeps the
ledger. -/
theorem transfer (h : LedgerDb db) {j : UUID} {row row' : ExperimentJobRecord}
    {manifests : Dict UUID ExperimentRecord} {sessions : Dict String ExperimentSessionRecord}
    (hrow : db.jobs.get? j = some row)
    (hmanifests : ∀ e m', manifests.get? e = some m' → ∃ m, db.manifests.get? e = some m ∧
      m'.costReservedEur = m.costReservedEur - reservedOf e row + reservedOf e row' ∧
      m'.costSpentEur = m.costSpentEur - bookedOf e row + bookedOf e row')
    (hsettled : Settled row'.status → row'.reservedCostEur = 0)
    (hgrid : OnGrid 4 row'.reservedCostEur) :
    LedgerDb ⟨manifests, db.jobs.set j row', sessions⟩ := by
  refine ⟨⟨fun e m' hm' => ?_, fun e m' hm' => ?_, fun k found hfound hs => ?_⟩,
    fun k found hfound => ?_⟩
  · obtain ⟨m, hm, hreserved, -⟩ := hmanifests e m' hm'
    rw [hreserved, h.reserved e m hm]
    exact (by rw [Dict.sum_set, hrow]; rfl)
  · obtain ⟨m, hm, -, hspent⟩ := hmanifests e m' hm'
    rw [hspent, h.spent e m hm]
    exact (by rw [Dict.sum_set, hrow]; rfl)
  · change (db.jobs.set j row').get? k = some found at hfound
    rw [Dict.get?_set] at hfound
    split at hfound
    · cases hfound
      exact hsettled hs
    · exact h.settled k found hfound hs
  · change (db.jobs.set j row').get? k = some found at hfound
    rw [Dict.get?_set] at hfound
    split at hfound
    · cases hfound
      exact hgrid
    · exact h.rowGrid k found hfound

/-- Rewriting a job without touching what it adds to the totals keeps the ledger. -/
theorem setJob (h : LedgerDb db) {j : UUID} {row row' : ExperimentJobRecord}
    (hrow : db.jobs.get? j = some row) (hreserved : ∀ e, reservedOf e row' = reservedOf e row)
    (hbooked : ∀ e, bookedOf e row' = bookedOf e row)
    (hsettled : Settled row'.status → row'.reservedCostEur = 0)
    (hgrid : OnGrid 4 row'.reservedCostEur) :
    LedgerDb { db with jobs := db.jobs.set j row' } := by
  refine h.transfer hrow (fun e m hm => ⟨m, hm, ?_, ?_⟩) hsettled hgrid
  · rw [hreserved, sub_add_cancel]
  · rw [hbooked, sub_add_cancel]

/-- Moving an amount between a job and its manifest keeps the ledger. -/
theorem move (h : LedgerDb db) {j e : UUID} {row row' : ExperimentJobRecord}
    {m m' : ExperimentRecord} {sessions : Dict String ExperimentSessionRecord}
    (hrow : db.jobs.get? j = some row) (hm : db.manifests.get? e = some m)
    (hexp : row.experimentId = e) (hexp' : row'.experimentId = e)
    (hreserved : m'.costReservedEur = m.costReservedEur - row.reservedCostEur + row'.reservedCostEur)
    (hspent : m'.costSpentEur = m.costSpentEur - bookedOf e row + bookedOf e row')
    (hsettled : Settled row'.status → row'.reservedCostEur = 0)
    (hgrid : OnGrid 4 row'.reservedCostEur) :
    LedgerDb ⟨db.manifests.set e m', db.jobs.set j row', sessions⟩ := by
  refine h.transfer hrow (fun e' found hfound => ?_) hsettled hgrid
  rw [Dict.get?_set] at hfound
  split at hfound
  · rename_i heq
    subst heq
    cases hfound
    refine ⟨m, hm, ?_, hspent⟩
    rw [hreserved, reservedOf, reservedOf, if_pos hexp, if_pos hexp']
  · rename_i hne
    refine ⟨found, hfound, ?_, ?_⟩
    · rw [reservedOf, reservedOf, if_neg (by rwa [hexp]), if_neg (by rwa [hexp'])]
      ring
    · rw [bookedOf, bookedOf, if_neg (fun hc => hne (hexp ▸ hc.1)),
        if_neg (fun hc => hne (hexp' ▸ hc.1))]
      ring

/-- A new manifest has no jobs yet. -/
theorem create (h : LedgerDb db) (hconsistent : Consistent db issued) {e : UUID}
    {m : ExperimentRecord} (hnew : db.manifests.get? e = none) (hreserved : m.costReservedEur = 0)
    (hspent : m.costSpentEur = 0) :
    LedgerDb { db with manifests := db.manifests.set e m } := by
  have hother : ∀ entry ∈ db.jobs.entries, entry.2.experimentId ≠ e := by
    rintro ⟨j, row⟩ hmem rfl
    have hsome := hconsistent.manifestOf j row ((db.jobs.mem_entries_iff j row).mp hmem)
    rw [hnew] at hsome
    cases hsome
  have hzero : ∀ f : UUID → ExperimentJobRecord → ℚ,
      (∀ j row, row.experimentId ≠ e → f j row = 0) → db.jobs.sum f = 0 := by
    intro f hf
    refine List.sum_eq_zero fun x hx => ?_
    obtain ⟨entry, hentry, rfl⟩ := List.mem_map.mp hx
    exact hf entry.1 entry.2 (hother entry hentry)
  have hcases : ∀ e' found, (db.manifests.set e m).get? e' = some found →
      (e' = e ∧ found = m) ∨ db.manifests.get? e' = some found := by
    intro e' found hfound
    rw [Dict.get?_set] at hfound
    split at hfound
    · rename_i heq
      cases hfound
      exact .inl ⟨heq.symm, rfl⟩
    · exact .inr hfound
  refine ⟨⟨fun e' found hfound => ?_, fun e' found hfound => ?_, h.settled⟩, h.rowGrid⟩
  · rcases hcases e' found hfound with ⟨rfl, rfl⟩ | hold
    · rw [hreserved]
      exact (hzero _ fun j row hne => if_neg hne).symm
    · exact h.reserved e' found hold
  · rcases hcases e' found hfound with ⟨rfl, rfl⟩ | hold
    · rw [hspent]
      exact (hzero _ fun j row hne => if_neg fun hc => hne hc.1).symm
    · exact h.spent e' found hold

/-- New jobs add nothing to the totals. -/
theorem inserts {manifest : ExperimentManifest} {db' : Database} (h : LedgerDb db)
    (hrows : Relation.ReflTransGen (Inserts manifest) db db') : LedgerDb db' := by
  induction hrows with
  | refl => exact h
  | @tail mid last _ hrow ih =>
    cases hrow with
    | row jobId notBefore key cost hfresh hkey hwidth hcost hgrid =>
      have hsum : ∀ f : UUID → ExperimentJobRecord → ℚ,
          f jobId (newRow manifest notBefore key cost) = 0 →
            (mid.jobs.set jobId (newRow manifest notBefore key cost)).sum f = mid.jobs.sum f := by
        intro f hf
        rw [Dict.sum_set, hfresh, hf]
        simp
      refine ⟨⟨fun e m hm => ?_, fun e m hm => ?_, fun k found hfound hs => ?_⟩,
        fun k found hfound => ?_⟩
      · exact (ih.reserved e m hm).trans (hsum _ (ite_self 0)).symm
      · exact (ih.spent e m hm).trans (hsum _ (by simp [bookedOf, newRow])).symm
      · change (mid.jobs.set jobId _).get? k = some found at hfound
        rw [Dict.get?_set] at hfound
        split at hfound
        · cases hfound
          rfl
        · exact ih.settled k found hfound hs
      · change (mid.jobs.set jobId _).get? k = some found at hfound
        rw [Dict.get?_set] at hfound
        split at hfound
        · cases hfound
          exact onGrid_zero 4
        · exact ih.rowGrid k found hfound

/-- A change of a manifest's flag does not touch its totals. -/
theorem flag (h : LedgerDb db) {e : UUID} {m m' : ExperimentRecord}
    (hm : db.manifests.get? e = some m) (hreserved : m'.costReservedEur = m.costReservedEur)
    (hspent : m'.costSpentEur = m.costSpentEur) :
    LedgerDb { db with manifests := db.manifests.set e m' } := by
  have hcases : ∀ e' found, (db.manifests.set e m').get? e' = some found →
      ∃ old, db.manifests.get? e' = some old ∧ found.costReservedEur = old.costReservedEur ∧
        found.costSpentEur = old.costSpentEur := by
    intro e' found hfound
    rw [Dict.get?_set] at hfound
    split at hfound
    · rename_i heq
      cases hfound
      exact ⟨m, heq ▸ hm, hreserved, hspent⟩
    · exact ⟨found, hfound, rfl, rfl⟩
  refine ⟨⟨fun e' found hfound => ?_, fun e' found hfound => ?_, h.settled⟩, h.rowGrid⟩
  all_goals obtain ⟨old, hold, hr, hs⟩ := hcases e' found hfound
  · rw [hr]
    exact h.reserved e' old hold
  · rw [hs]
    exact h.spent e' old hold

end LedgerDb

/-- A job without a booked cost adds nothing to the spent total. -/
theorem bookedOf_of_not_booked {e : UUID} {row : ExperimentJobRecord} (h : ¬Booked row) :
    bookedOf e row = 0 := by
  unfold bookedOf
  split
  · rename_i hc
    exact not_not.mp fun hne => h ⟨hc.2, hne⟩
  · rfl

/-- A job that has not succeeded adds nothing to the spent total. -/
theorem bookedOf_of_ne {e : UUID} {row : ExperimentJobRecord} (h : row.status ≠ .succeeded) :
    bookedOf e row = 0 :=
  bookedOf_of_not_booked fun hb => h hb.1

/-- An accountable call of a worker keeps the ledger. -/
theorem LedgerDb.effect {db db' : Database} {draws : Draws} {c : QueueCall}
    {r : Except PyError c.Reply} {issued : List (String × ExperimentJob)} (h : LedgerDb db)
    (hconsistent : Consistent db issued) (hissued : IssuedCall issued c)
    (hcall : Accountable db c) (heffect : Effect draws db c r db') : LedgerDb db' := by
  have hcopy : ∀ {job row}, (∃ workerId, (workerId, job) ∈ issued) →
      db.jobs.get? job.jobId = some row → row.experimentId = job.experimentId := by
    rintro job row ⟨workerId, hclaim⟩ hrow
    obtain ⟨found, hfound, hcopy⟩ := hconsistent.copies _ hclaim
    rw [hrow] at hfound
    cases hfound
    exact hcopy.experimentId
  cases heffect with
  | unchanged c r _ => exact h
  | scheduled manifest scenarioIds n db' hknown hrows => exact h.inserts hrows
  | created manifest scenarioIds n ceiling db' hnew hgrid hpos hrows =>
    exact (h.create hconsistent hnew rfl rfl).inserts hrows
  | leased workerId jobId row r hrow hclaimable hreply =>
    have hne : row.status ≠ .succeeded := by
      intro hs
      rcases hclaimable.2.1 with ⟨h' | h', -⟩ | ⟨h' | h', -⟩ <;> rw [hs] at h' <;> cases h'
    refine h.setJob hrow (fun e => rfl) (fun e => ?_) ?_ (h.rowGrid jobId row hrow)
    · rw [bookedOf_of_ne hne, bookedOf_of_ne (by simp [leasedRow])]
    · rintro (hs | hs | hs) <;> cases hs
  | beat jobId workerId row expires hrow howner =>
    refine h.setJob hrow (fun e => rfl) (fun e => ?_) ?_ (h.rowGrid jobId row hrow)
    · rw [bookedOf_of_not_booked (hcall row hrow howner), bookedOf_of_ne (by simp)]
    · rintro (hs | hs | hs) <;> cases hs
  | reserved job amount manifest row hmanifest hrow hnone hroom hrunning =>
    obtain ⟨halike, hopen⟩ := hcall manifest hmanifest row hrow hnone hrunning hroom
    have htotal : roundTo 4 (manifest.costReservedEur + amount) =
        manifest.costReservedEur + roundTo 6 amount := by
      rw [roundTo_add (hconsistent.stored _ _ hmanifest).reserved
        (not_tie_of_roundTo_eq (by norm_num) halike), halike]
    have hexp := hcopy hissued.1 hrow
    refine h.move hrow hmanifest hexp hexp ?_ ?_ hopen ?_
    · rw [htotal, hnone, sub_zero]
    · change manifest.costSpentEur =
        manifest.costSpentEur - bookedOf job.experimentId row + bookedOf job.experimentId row
      rw [sub_add_cancel]
    · change OnGrid 4 (roundTo 6 amount)
      rw [← halike]
      exact onGrid_roundTo 4 amount
  | completed job result cost manifest row sessions hmanifest hrow hrunning hroom hsessions =>
    obtain ⟨halike, hunbooked⟩ := hcall manifest hmanifest row hrow hrunning hroom
    have hexp := hcopy hissued hrow
    have hstored := hconsistent.stored _ _ hmanifest
    refine h.move hrow hmanifest hexp hexp ?_ ?_ (fun _ => rfl) (onGrid_zero 4)
    · rw [roundTo_of_onGrid (hstored.reserved.sub (h.rowGrid _ _ hrow)), add_zero]
    · rw [roundTo_add hstored.spent (not_tie_of_roundTo_eq (by norm_num) halike), halike,
        bookedOf_of_not_booked hunbooked, sub_zero]
      simp [bookedOf, hexp]
  | failed job error retryable manifest row notBefore hmanifest hrow hdelay =>
    have hexp := hcopy hissued hrow
    have hne : failedStatus job retryable ≠ .succeeded := by
      unfold failedStatus
      split <;> simp
    have hstored := hconsistent.stored _ _ hmanifest
    refine h.move hrow hmanifest hexp hexp ?_ ?_ (fun _ => rfl) (onGrid_zero 4)
    · rw [roundTo_of_onGrid (hstored.reserved.sub (h.rowGrid _ _ hrow)), add_zero]
    · rw [bookedOf_of_not_booked (hcall row hrow), bookedOf_of_ne hne]
      ring
  | flagged c r experimentId manifest flag status hflag hmanifest =>
    exact h.flag hmanifest rfl rfl

/-- The outcomes of workers with nonnegative costs whose calls are all accountable, unless the
connection is lost. -/
def AccountableRuns {lib : Stdlib} (w : WorkerWorld (postgresExperimentQueue lib))
    (o : WorkerDraws) (c : WorkerCall) : Prop :=
  NonnegativeCost w o c ∧
    ∀ call ∈ w.queueCall c, o.draws.outage = none → Accountable w.queue call

instance {lib : Stdlib} (w : WorkerWorld (postgresExperimentQueue lib)) (o : WorkerDraws)
    (c : WorkerCall) : Decidable (AccountableRuns w o c) :=
  inferInstanceAs (Decidable (_ ∧
    ∀ call ∈ w.queueCall c, o.draws.outage = none → Accountable w.queue call))

/-- While every call is accountable, the ledger agrees in every reachable state. -/
theorem conserved_of_accountable (lib : Stdlib) (p : WorkerPool (postgresExperimentQueue lib))
    (hreach : (workerSystem (postgresExperimentQueue lib)).Reaches (Outcomes AccountableRuns)
      (idleWorkers (postgresExperimentQueue lib)) p) : Conserved p.world.queue := by
  have hledger : Consistent p.world.queue p.world.issued ∧ LedgerDb p.world.queue := by
    refine worker_invariant (I := fun db issued => Consistent db issued ∧ LedgerDb db) ?_
      (fun w w' hcall h => ?_) hreach
    · exact ⟨Consistent.initial, ⟨fun _ _ h => (by cases h), fun _ _ h => (by cases h),
        fun _ _ h => (by cases h)⟩, fun _ _ h => (by cases h)⟩
    · obtain ⟨o, c, call, hok, hcalled, hissued, hqueue, hclaims⟩ := hcall
      have heffect := postgres_step_effect lib o.draws call w.queue
      rw [hqueue, hclaims]
      refine ⟨h.1.effect hissued heffect, ?_⟩
      cases houtage : o.draws.outage with
      | none => exact h.2.effect h.1 hissued (hok.2 call hcalled houtage) heffect
      | some e =>
        rw [postgres_step_lost lib houtage]
        exact h.2
  exact hledger.2.toConserved

/-- The ledger agrees after a single completion. -/
theorem conserved_of_accountable_single :
    ∃ p, (workerSystem (postgresExperimentQueue sampleStdlib)).run
      (idleWorkers (postgresExperimentQueue sampleStdlib)) singleCompletion = some p ∧
        Conserved p.world.queue := by
  obtain ⟨p, hp⟩ := Option.isSome_iff_exists.mp (show ((workerSystem (postgresExperimentQueue
    sampleStdlib)).run (idleWorkers (postgresExperimentQueue sampleStdlib))
      singleCompletion).isSome = true by decide +kernel)
  exact ⟨p, hp, conserved_of_accountable sampleStdlib p
    (System.reaches_of_run singleCompletion hp (by decide +kernel))⟩

/-- After two workers complete one job, the manifest has spent more than its jobs cost. -/
theorem ledger_drift_by_double_completion :
    ¬∀ (lib : Stdlib) (p : WorkerPool (postgresExperimentQueue lib)),
      (workerSystem (postgresExperimentQueue lib)).Reaches (Outcomes NonnegativeCost)
        (idleWorkers (postgresExperimentQueue lib)) p → Conserved p.world.queue := by
  intro h
  have hrun : ((workerSystem (postgresExperimentQueue sampleStdlib)).run
      (idleWorkers (postgresExperimentQueue sampleStdlib)) doubleCompletion).map
        (fun p => ((Dict.get? (Database.manifests p.world.queue) 7).map (·.costSpentEur),
          (Database.jobs p.world.queue).sum fun _ row => bookedOf 7 row)) =
      some (some (1 / 50), 1 / 100) := by decide +kernel
  obtain ⟨p, hp, hvalues⟩ := Option.map_eq_some_iff.mp hrun
  rw [Prod.mk.injEq] at hvalues
  obtain ⟨m, hm, hspent⟩ := Option.map_eq_some_iff.mp hvalues.1
  have hconserved := h sampleStdlib p (System.reaches_of_run doubleCompletion hp (by decide +kernel))
  have htotal := hconserved.spent 7 m hm
  rw [hspent, hvalues.2] at htotal
  norm_num at htotal

end Amlguard
