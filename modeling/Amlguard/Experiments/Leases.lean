import Amlguard.Experiments.Rows
import Amlguard.Library.Conduct

/-!
# Leases

A round claims a job and holds its lease until it gives it back with a failure, or for good when it
completes the job. What it may call is known from the lease that it holds: `leaseDiagram` has an edge
for each call and its reply.

As long as no claim takes a lease over, tasks hold the leases of different jobs. Then no task loses its
lease to another one, and every lease that is held is its worker's in the database.
-/

namespace Amlguard

open Awaited PostgresExperimentQueue

/-- The lease that a task holds: none, that of a claim, or that of a claim whose attempt has failed. -/
inductive Lease where
  | free
  | held (claim : String × ExperimentJob)
  | failing (claim : String × ExperimentJob)

namespace Lease

/-- The claim whose lease is held. -/
def claim : Lease → Option (String × ExperimentJob)
  | .free => none
  | .held claim | .failing claim => some claim

/-- The lease after a claim. -/
def ofClaim (workerId : String) : Except PyError (Option ExperimentJob) → Lease
  | .ok (some job) => .held (workerId, job)
  | _ => .free

/-- The lease after a call of the attempt. -/
def after {α : Type} (claim : String × ExperimentJob) : Except PyError α → Lease
  | .ok _ => .held claim
  | .error _ => .failing claim

@[simp] theorem claim_after {α : Type} (claim : String × ExperimentJob) (r : Except PyError α) :
    (after claim r).claim = some claim := by
  cases r <;> rfl

/-- A lease is had for a job that the claim has handed out. -/
theorem mem_issuedBy {workerId : String} {r : Except PyError (Option ExperimentJob)}
    {claim : String × ExperimentJob} (h : (ofClaim workerId r).claim = some claim) :
    claim ∈ issuedBy (.claim workerId) r := by
  cases r with
  | error e => cases h
  | ok found =>
    cases found with
    | none => cases h
    | some job =>
      cases h
      exact List.mem_singleton_self _

/-- A claim that hands out nothing gives no lease. -/
theorem ofClaim_eq_free {workerId : String} {r : Except PyError (Option ExperimentJob)}
    (h : issuedBy (.claim workerId) r = []) : ofClaim workerId r = .free := by
  cases r with
  | error e => rfl
  | ok found =>
    cases found with
    | none => rfl
    | some job => cases h

/-- A claim is no failure. -/
theorem ofClaim_ne_failing (workerId : String) (r : Except PyError (Option ExperimentJob))
    (claim : String × ExperimentJob) : ofClaim workerId r ≠ .failing claim := by
  cases r with
  | error e => exact nofun
  | ok found => cases found <;> exact nofun

end Lease

/-- A job in the hands of a worker that holds its lease. -/
def InHand (status : JobStatus) : Prop :=
  status = .leased ∨ status = .running ∨ status = .succeeded

/-- Nothing has failed, every lease that is held is its worker's, and no two tasks hold the lease of
one job. -/
structure LeasesDb (φ : ℕ → Lease) (db : Database) : Prop where
  unfailed : ∀ j row, db.jobs.get? j = some row → row.status ≠ .failed ∧ row.status ≠ .cancelled
  held : ∀ i claim, (φ i).claim = some claim → ∃ row, db.jobs.get? claim.2.jobId = some row ∧
    row.leaseOwner = some claim.1 ∧ InHand row.status
  alone : ∀ i k claim other, (φ i).claim = some claim → (φ k).claim = some other →
    claim.2.jobId = other.2.jobId → i = k

namespace LeasesDb

variable {db : Database} {φ φ' : ℕ → Lease}

/-- Giving leases back keeps the others. -/
theorem release (h : LeasesDb φ db)
    (hclaim : ∀ i claim, (φ' i).claim = some claim → (φ i).claim = some claim) : LeasesDb φ' db :=
  ⟨h.unfailed, fun i claim hi => h.held i claim (hclaim i claim hi), fun i k claim other hi hk =>
    h.alone i k claim other (hclaim i claim hi) (hclaim k other hk)⟩

/-- Tasks may change what they are doing with their leases. -/
theorem update (h : LeasesDb φ db) {i : ℕ} {lease : Lease}
    (hclaim : ∀ claim, lease.claim = some claim → (φ i).claim = some claim) :
    LeasesDb (Function.update φ i lease) db := by
  apply h.release
  intro k claim hk
  by_cases hki : k = i
  · subst hki
    rw [Function.update_self] at hk
    exact hclaim claim hk
  · rwa [Function.update_of_ne hki] at hk

/-- A row that is written anew, and which holders of a lease have not lost. -/
theorem set (h : LeasesDb φ db) {j : UUID} {row' : ExperimentJobRecord}
    {manifests : Dict UUID ExperimentRecord} {sessions : Dict String ExperimentSessionRecord}
    (hstatus : row'.status ≠ .failed ∧ row'.status ≠ .cancelled)
    (hheld : ∀ i claim, (φ i).claim = some claim → claim.2.jobId = j →
      row'.leaseOwner = some claim.1 ∧ InHand row'.status) :
    LeasesDb φ ⟨manifests, db.jobs.set j row', sessions⟩ := by
  refine ⟨fun k found hfound => ?_, fun i claim hi => ?_, h.alone⟩
  · change (db.jobs.set j row').get? k = some found at hfound
    rw [Dict.get?_set] at hfound
    split at hfound
    · cases hfound
      exact hstatus
    · exact h.unfailed k found hfound
  · change ∃ row, (db.jobs.set j row').get? claim.2.jobId = some row ∧ _
    rw [Dict.get?_set]
    split
    · rename_i heq
      exact ⟨row', rfl, hheld i claim hi heq.symm⟩
    · exact h.held i claim hi

/-- A row that keeps its owner and does not go back. -/
theorem setJob (h : LeasesDb φ db) {j : UUID} {row row' : ExperimentJobRecord}
    {manifests : Dict UUID ExperimentRecord} {sessions : Dict String ExperimentSessionRecord}
    (hrow : db.jobs.get? j = some row) (howner : row'.leaseOwner = row.leaseOwner)
    (hstatus : row'.status = row.status ∨ row'.status = .running ∨ row'.status = .succeeded) :
    LeasesDb φ ⟨manifests, db.jobs.set j row', sessions⟩ := by
  apply h.set
  · rcases hstatus with hs | hs | hs <;> rw [hs]
    · exact h.unfailed j row hrow
    · exact ⟨by decide, by decide⟩
    · exact ⟨by decide, by decide⟩
  · rintro i claim hi rfl
    obtain ⟨found, hfound, hfoundOwner, hinHand⟩ := h.held i claim hi
    rw [hrow] at hfound
    cases hfound
    refine ⟨howner.trans hfoundOwner, ?_⟩
    rcases hstatus with hs | hs | hs
    · rwa [hs]
    · exact .inr (.inl hs)
    · exact .inr (.inr hs)

/-- Inserted rows keep the leases. -/
theorem inserts {manifest : ExperimentManifest} {db' : Database} (h : LeasesDb φ db)
    (hrows : Relation.ReflTransGen (Inserts manifest) db db') : LeasesDb φ db' := by
  induction hrows with
  | refl => exact h
  | tail _ hrow ih =>
    cases hrow with
    | row jobId notBefore key cost hfresh hkey hwidth hcost hgrid =>
      apply ih.set
      · simp [newRow]
      · rintro i claim hi rfl
        obtain ⟨found, hfound, -⟩ := ih.held i claim hi
        rw [hfound] at hfresh
        cases hfresh

/-- A call that is neither a failure nor a claim keeps the leases. -/
theorem effect (h : LeasesDb φ db) {draws : Draws} {db' : Database} {c : QueueCall}
    {r : Except PyError c.Reply} (hclaim : ∀ workerId, c ≠ .claim workerId)
    (hfail : ∀ job error retryable, c ≠ .fail job error retryable)
    (heffect : Effect draws db c r db') : LeasesDb φ db' := by
  cases heffect with
  | unchanged c r _ => exact h
  | scheduled manifest scenarioIds n db' hknown hrows => exact h.inserts hrows
  | created manifest scenarioIds n ceiling db' hnew hgrid hpos hrows =>
    have hcreated : LeasesDb φ { db with
        manifests := db.manifests.set manifest.experimentId (newManifest manifest ceiling) } :=
      ⟨h.unfailed, h.held, h.alone⟩
    exact hcreated.inserts hrows
  | leased workerId jobId row r hrow hclaimable hreply => exact (hclaim workerId rfl).elim
  | beat jobId workerId row expires hrow howner => exact h.setJob hrow rfl (.inr (.inl rfl))
  | reserved job amount manifest row hmanifest hrow hnone hroom =>
    exact h.setJob hrow rfl (.inl rfl)
  | completed job result cost manifest row sessions hmanifest hrow hrunning hroom hsessions =>
    exact h.setJob hrow rfl (.inr (.inr rfl))
  | failed job error retryable manifest row notBefore hmanifest hrow hdelay =>
    exact (hfail job error retryable rfl).elim
  | flagged c r experimentId manifest flag status hcall hmanifest =>
    exact ⟨h.unfailed, h.held, h.alone⟩

/-- A task that reports a failure for a retry gives its lease back. -/
theorem fail (h : LeasesDb φ db) {i : ℕ} {claim : String × ExperimentJob} {draws : Draws}
    {db' : Database} {error : Json} {r : Except PyError Unit} (hi : (φ i).claim = some claim)
    (hspare : claim.2.attemptCount < claim.2.maxAttempts)
    (heffect : Effect draws db (.fail claim.2 error true) r db') :
    LeasesDb (Function.update φ i .free) db' := by
  have hfreed : LeasesDb (Function.update φ i .free) db := h.update fun _ hnone => by cases hnone
  cases heffect with
  | unchanged => exact hfreed
  | failed _ _ _ manifest row notBefore hmanifest hrow hdelay =>
    apply hfreed.set
    · rw [failedStatus, if_pos ⟨rfl, hspare⟩]
      simp
    · intro k other hk hjob
      -- another task would hold the lease of the same job
      by_cases hki : k = i
      · subst hki
        rw [Function.update_self] at hk
        cases hk
      · rw [Function.update_of_ne hki] at hk
        exact (hki (h.alone k i other claim hk hi hjob)).elim
  | flagged _ _ _ _ _ _ hcall => rcases hcall with ⟨hcall, -⟩ | ⟨hcall, -⟩ <;> cases hcall

/-- A claim that takes no lease over gives its task the lease of the job. -/
theorem claim (h : LeasesDb φ db) {i : ℕ} {draws : Draws} {workerId : String} (hi : φ i = .free)
    (hlease : ∀ found ∈ candidate draws db,
      ¬(found.2.status = .leased ∨ found.2.status = .running)) :
    LeasesDb (Function.update φ i
        (.ofClaim workerId (PostgresExperimentQueue.claim draws workerId db).1))
      (PostgresExperimentQueue.claim draws workerId db).2 := by
  rcases claim_cases draws workerId db with ⟨hsame, hnone⟩ | ⟨j, row, hcandidate, hreply, hdb⟩
  · rw [hsame, Lease.ofClaim_eq_free hnone, ← hi, Function.update_eq_self]
    exact h
  · obtain ⟨hrow, hclaimable⟩ := candidate_spec hcandidate
    -- the job waits, so no task holds its lease
    have hunheld : ∀ k other, (φ k).claim = some other → other.2.jobId ≠ j := by
      rintro k other hk rfl
      obtain ⟨found, hfound, -, hinHand⟩ := h.held k other hk
      rw [hrow] at hfound
      cases hfound
      rcases hclaimable.2.1 with ⟨hs | hs, -⟩ | ⟨hs, -⟩
      · rw [hs] at hinHand
        rcases hinHand with hs' | hs' | hs' <;> cases hs'
      · rw [hs] at hinHand
        rcases hinHand with hs' | hs' | hs' <;> cases hs'
      · exact hlease (other.2.jobId, row) hcandidate hs
    have hset : LeasesDb φ { db with jobs := db.jobs.set j (leasedRow draws workerId row) } :=
      h.set (by simp [leasedRow]) fun k other hk hj => (hunheld k other hk hj).elim
    rw [hreply, hdb]
    cases hjob : jobOfRow j (leasedRow draws workerId row) with
    | error e => exact hset.update fun _ hnone => by cases hnone
    | ok job =>
      have hj : job.jobId = j := (copyOf_jobOfRow hjob).1
      change LeasesDb (Function.update φ i (.held (workerId, job))) _
      refine ⟨hset.unfailed, fun k other hk => ?_, fun k l other other' hk hl hsame => ?_⟩
      · by_cases hki : k = i
        · subst hki
          rw [Function.update_self] at hk
          cases hk
          rw [hj]
          exact ⟨leasedRow draws workerId row, Dict.get?_set_self _ _ _, rfl, .inl rfl⟩
        · rw [Function.update_of_ne hki] at hk
          exact hset.held k other hk
      · by_cases hki : k = i <;> by_cases hli : l = i
        · rw [hki, hli]
        · subst hki
          rw [Function.update_self] at hk
          rw [Function.update_of_ne hli] at hl
          cases hk
          exact (hunheld l other' hl (hsame.symm.trans hj)).elim
        · subst hli
          rw [Function.update_self] at hl
          rw [Function.update_of_ne hki] at hk
          cases hl
          exact (hunheld k other hk (hsame.trans hj)).elim
        · rw [Function.update_of_ne hki] at hk
          rw [Function.update_of_ne hli] at hl
          exact hset.alone k l other other' hk hl hsame

end LeasesDb

/-- The call returns. -/
def Returns {α : Type} (r : Except PyError α) : Prop := ∃ a, r = .ok a

/-- The call returns, or it raises what a retry may cure. -/
def Excused {α : Type} (r : Except PyError α) : Prop :=
  ∀ e, r = .error e → ExperimentWorker.retryable e = true

/-- A round claims a job, holds its lease in every call for it, and gives the lease back with a
failure that it reports for a retry. -/
def leaseDiagram : Diagram workerSignature Lease where
  onMark lease start lease' := lease = .held (start.workerId, start.job) ∧ lease' = lease
  onReply
    | lease, .queue (.claim workerId), r, lease' => lease = .free ∧ lease' = .ofClaim workerId r
    | lease, .queue (.reserveCost job amount), r, lease' => ∃ claim, lease = .held claim ∧
        job = claim.2 ∧ amount = claim.2.estimatedCostEur ∧ lease' = .after claim r
    | lease, .queue (.heartbeat jobId workerId), r, lease' => ∃ claim, lease = .held claim ∧
        jobId = claim.2.jobId ∧ workerId = claim.1 ∧ lease' = .after claim r
    | lease, .queue (.complete job _ _), r, lease' => ∃ claim, lease = .held claim ∧
        job = claim.2 ∧ lease' = .after claim r
    | lease, .queue (.fail job _ retryable), _, lease' => ∃ claim, lease = .failing claim ∧
        job = claim.2 ∧ retryable = true ∧ lease' = .free
    | lease, _, _, lease' => lease' = lease
  expected
    | .queue (.reserveCost _ _), r | .queue (.heartbeat _ _), r | .queue (.complete _ _ _), r => Excused r
    | .handler _, r | .recordCompleted _ _ _, r => Returns r
    | _, _ => True

/-- The chart of all operations on a queue. -/
def leaseChart : Chart workerSignature WorkerOp Lease where
  diagram _ _ := leaseDiagram
  initial := .free
  Ends _ _ _ := True
  Serves _ := True

section Rounds

variable {claim : String × ExperimentJob}

/-- A part of an attempt keeps the lease, or fails with what a retry may cure. -/
def Attempted {α : Type} (claim : String × ExperimentJob) : Except PyError α → Lease → Prop
  | .ok _, lease => lease = .held claim
  | .error e, lease => lease = .failing claim ∧ ExperimentWorker.retryable e = true

/-- An attempt goes on with the lease. -/
theorem attempted_bind {α β : Type} {p : Prog workerSignature α} {f : α → Prog workerSignature β}
    (hp : leaseDiagram.Follows p (Attempted claim) (.held claim))
    (hf : ∀ a, leaseDiagram.Follows (f a) (Attempted claim) (.held claim)) :
    leaseDiagram.Follows (p >>= f) (Attempted claim) (.held claim) := by
  rw [Diagram.follows_bind]
  apply hp.mono
  rintro r lease hlease
  cases r with
  | ok a =>
    rw [show lease = .held claim from hlease]
    exact hf a
  | error e => exact hlease

/-- A call of the queue keeps the lease, or fails with what a retry may cure. -/
theorem attempted_queue {c : QueueCall} (hexpected : ∀ r, leaseDiagram.expected (.queue c) r → Excused r)
    (hreply : ∀ r, leaseDiagram.onReply (.held claim) (.queue c) r (.after claim r)) :
    leaseDiagram.Follows (ExperimentWorker.queue c) (Attempted claim) (.held claim) := by
  apply (Diagram.follows_call _ _ _).mpr
  intro r hr
  refine ⟨.after claim r, hreply r, ?_⟩
  cases r with
  | ok a => rfl
  | error e => exact ⟨rfl, hexpected _ hr e rfl⟩

/-- A call outside of the queue that is expected to return. -/
theorem attempted_outside {c : WorkerCall} (hexpected : ∀ r, leaseDiagram.expected c r → Returns r)
    (hreply : ∀ r, leaseDiagram.onReply (.held claim) c r (.held claim)) :
    leaseDiagram.Follows (Prog.call c) (Attempted claim) (.held claim) := by
  apply (Diagram.follows_call _ _ _).mpr
  intro r hr
  obtain ⟨a, rfl⟩ := hexpected r hr
  exact ⟨.held claim, hreply _, rfl⟩

/-- The `try` block of `_process` holds the lease of its claim. -/
theorem attemptJob_follows (task : ℕ) (claim : String × ExperimentJob) :
    leaseDiagram.Follows (ExperimentWorker.attemptJob task claim.1 claim.2) (Attempted claim)
      (.held claim) := by
  unfold ExperimentWorker.attemptJob
  apply attempted_bind
  · exact attempted_queue (fun _ h => h) fun _ => ⟨claim, rfl, rfl, rfl, rfl⟩
  intro _
  apply attempted_bind
  · exact attempted_queue (fun _ h => h) fun _ => ⟨claim, rfl, rfl, rfl, rfl⟩
  intro _
  apply attempted_bind
  · exact (Diagram.follows_note _ _ _).mpr ⟨.held claim, ⟨rfl, rfl⟩, rfl⟩
  intro _
  apply attempted_bind
  · exact attempted_outside (fun _ h => h) fun _ => rfl
  intro outcome
  apply attempted_bind
  · exact attempted_queue (fun _ h => h) fun _ => ⟨claim, rfl, rfl, rfl⟩
  intro _
  exact attempted_outside (fun _ h => h) fun _ => rfl

/-- `_process` gives the lease back when it reports a failure. -/
theorem process_follows (task : ℕ) (claim : String × ExperimentJob) :
    leaseDiagram.Follows (ExperimentWorker.process task claim.1 claim.2) (fun _ _ => True)
      (.held claim) := by
  rw [ExperimentWorker.process, Diagram.follows_finally', Diagram.follows_rescue]
  have hcleanup : ∀ (r : Except PyError Unit) lease, leaseDiagram.Follows
      (Prog.call (S := workerSignature) (.cancelHeartbeat task))
        (Diagram.thenFollows leaseDiagram (fun _ => Prog.settleResult r) fun _ _ => True) lease := by
    intro r lease
    apply (Diagram.follows_call _ _ _).mpr
    intro reply _
    refine ⟨lease, rfl, ?_⟩
    cases reply with
    | ok _ => exact (Diagram.follows_settleResult _ _ _).mpr trivial
    | error e => trivial
  apply (attemptJob_follows task claim).mono
  intro r lease hlease
  cases r with
  | ok _ => exact hcleanup _ lease
  | error e =>
    obtain ⟨rfl, hretryable⟩ := hlease
    change leaseDiagram.Follows (ExperimentWorker.answer claim.2 e) _ _
    rw [ExperimentWorker.answer, Diagram.follows_bind]
    apply (Diagram.follows_call _ _ _).mpr
    intro reply _
    refine ⟨.free, ⟨claim, rfl, rfl, hretryable, rfl⟩, ?_⟩
    cases reply with
    | error e => exact hcleanup _ .free
    | ok _ =>
      apply (Diagram.follows_call _ _ _).mpr
      exact fun reply _ => ⟨.free, rfl, hcleanup _ .free⟩

/-- Every operation follows the diagram. -/
theorem leaseChart_covers {Q : ExperimentQueue} : leaseChart.Covers (workerSystem Q) := by
  intro i op _
  cases op with
  | runOnce workerId =>
    change leaseDiagram.Follows (ExperimentWorker.runOnce i workerId) (fun _ _ => True) .free
    rw [ExperimentWorker.runOnce, Diagram.follows_bind]
    apply (Diagram.follows_call _ _ _).mpr
    intro r _
    refine ⟨.ofClaim workerId r, ⟨rfl, rfl⟩, ?_⟩
    cases r with
    | error e => trivial
    | ok found =>
      cases found with
      | none => exact (Diagram.follows_pure _ _ _).mpr trivial
      | some job => exact process_follows i (workerId, job)
  | schedule manifest scenarioIds =>
    change leaseDiagram.Follows (ExperimentWorker.queue (.schedule manifest scenarioIds) >>= fun _ =>
      pure ()) (fun _ _ => True) .free
    rw [Diagram.follows_bind]
    apply (Diagram.follows_call _ _ _).mpr
    intro r _
    refine ⟨.free, rfl, ?_⟩
    cases r with
    | error e => trivial
    | ok _ => exact (Diagram.follows_pure _ _ _).mpr trivial
  | beat round => exact (Diagram.follows_call _ _ _).mpr fun _ _ => ⟨.free, rfl, trivial⟩
  | stop experimentId => exact (Diagram.follows_call _ _ _).mpr fun _ _ => ⟨.free, rfl, trivial⟩
  | resume experimentId => exact (Diagram.follows_call _ _ _).mpr fun _ _ => ⟨.free, rfl, trivial⟩

end Rounds

end Amlguard
