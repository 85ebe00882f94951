import Amlguard.Experiments.Pause

/-!
# Late calls of superseded claims

A worker whose lease expired may call in at any later time, after its job was leased to
another worker. `heartbeat` compares the caller with the lease owner and refuses it.
`complete` and `fail` do not: they write the row of the job for whoever calls, so a late
call is harmless only when another guard refuses it or when the row already holds exactly
what it would write.
-/

namespace Amlguard

open Awaited Numeric

/-- The call is made on behalf of the claim. -/
def OnBehalf (claim : String × ExperimentJob) : QueueCall → Prop
  | .heartbeat jobId workerId => jobId = claim.2.jobId ∧ workerId = claim.1
  | .complete job _ _ => job = claim.2
  | .fail job _ _ => job = claim.2
  | _ => False

namespace PostgresExperimentQueue

/-- The stop flag, the ceiling and the columns let a completion through. -/
def CompletionAccepted (manifest : ExperimentRecord) (row : ExperimentJobRecord) (cost : ℚ) : Prop :=
  manifest.stopRequested = false ∧ manifest.costSpentEur + cost ≤ manifest.costCeilingEur ∧
    Fits 14 4 (manifest.costReservedEur - row.reservedCostEur) ∧
    Fits 14 4 (manifest.costSpentEur + cost) ∧ Fits 14 6 cost

/-- The stored rows already say what a completion would write, and the cost rounds away. -/
def CompletionRepeats (db : Database) (job : ExperimentJob) (manifest : ExperimentRecord)
    (row : ExperimentJobRecord) (cost : ℚ) : Prop :=
  row.status = .succeeded ∧ row.actualCostEur = some (roundTo 6 cost) ∧ row.reservedCostEur = 0 ∧
    (db.sessions.get? job.sessionKey).isSome = true ∧
    roundTo 4 (manifest.costSpentEur + cost) = manifest.costSpentEur

/-- The stored row already says what a failure would write. -/
def FailureRepeats (job : ExperimentJob) (error : Json) (retryable : Bool)
    (row : ExperimentJobRecord) (notBefore : Datetime) : Prop :=
  row.reservedCostEur = 0 ∧ row.status = failedStatus job retryable ∧
    row.providerError = some error ∧ row.notBefore = notBefore ∧ row.leaseOwner = none ∧
    row.leaseExpiresAt = none

/-- A late call that another guard refuses, or that has nothing to change: every heartbeat; a
completion or failure that is refused, or that repeats what is stored. -/
def Harmless (draws : Draws) (db : Database) : QueueCall → Prop
  | .complete job _ cost => draws.outage.isSome = true ∨
      ∀ manifest ∈ db.manifests.get? job.experimentId, ∀ row ∈ db.jobs.get? job.jobId,
        CompletionAccepted manifest row cost → CompletionRepeats db job manifest row cost
  | .fail job error retryable => draws.outage.isSome = true ∨
      ∀ manifest ∈ db.manifests.get? job.experimentId, ∀ row ∈ db.jobs.get? job.jobId,
        ∀ notBefore, addSeconds draws.now (retryDelay job.attemptCount) = .ok notBefore →
          Fits 14 4 (manifest.costReservedEur - row.reservedCostEur) →
            FailureRepeats job error retryable row notBefore
  | _ => True

/-- The result of an issued job can be stored. -/
theorem insertSession_of_consistent {db : Database} {issued : List (String × ExperimentJob)}
    (h : Consistent db issued) {job : ExperimentJob} {row : ExperimentJobRecord}
    (hrow : db.jobs.get? job.jobId = some row) (hkey : row.sessionKey = job.sessionKey)
    (result : Json) :
    insertSession job result db = .ok (if (db.sessions.get? job.sessionKey).isSome = true then
      db.sessions else db.sessions.set job.sessionKey { jobId := job.jobId, result }) := by
  unfold insertSession
  split
  · rename_i session hsession
    rw [hsession]
    rfl
  · rename_i hsession
    have hwidth : varchar 160 job.sessionKey = .ok job.sessionKey := by
      rw [varchar, if_pos (hkey ▸ h.widthOf _ row hrow)]
    have hunique : ¬∃ session ∈ db.sessions.values, session.jobId = job.jobId := by
      rintro ⟨session, hmem, hid⟩
      obtain ⟨key, hget⟩ := Dict.exists_get?_of_mem_values db.sessions hmem
      obtain ⟨found, hfound, hfoundKey⟩ := h.sessionOf key session hget
      rw [hid, hrow] at hfound
      cases hfound
      rw [← hfoundKey, hkey, hsession] at hget
      cases hget
    rw [hwidth, raiseIf, if_neg hunique, hsession]
    rfl

/-- An accepted completion commits its writes. -/
theorem complete_of_accepted {db : Database} {issued : List (String × ExperimentJob)}
    (h : Consistent db issued) {job : ExperimentJob} {manifest : ExperimentRecord}
    {row : ExperimentJobRecord} (hmanifest : db.manifests.get? job.experimentId = some manifest)
    (hrow : db.jobs.get? job.jobId = some row) (hkey : row.sessionKey = job.sessionKey)
    (result : Json) {cost : ℚ} (haccepted : CompletionAccepted manifest row cost) :
    complete job result cost db = .ok ((),
      { manifests := db.manifests.set job.experimentId
          { manifest with
            costReservedEur := roundTo 4 (manifest.costReservedEur - row.reservedCostEur)
            costSpentEur := roundTo 4 (manifest.costSpentEur + cost) }
        jobs := db.jobs.set job.jobId
          { row with
            status := .succeeded, actualCostEur := some (roundTo 6 cost), reservedCostEur := 0 }
        sessions := if (db.sessions.get? job.sessionKey).isSome = true then db.sessions
          else db.sessions.set job.sessionKey { jobId := job.jobId, result } }) := by
  obtain ⟨hrunning, hroom, hreserved, hspent, hactual⟩ := haccepted
  simp only [complete, bind_eq_ok, orRaise_eq_ok, raiseIf_eq_ok]
  exact ⟨manifest, hmanifest, (), by rw [hrunning]; decide, row, hrow, (), not_lt.mpr hroom, _,
    manifestAmount_of_fits hreserved, _, manifestAmount_of_fits hspent, _,
    insertSession_of_consistent h hrow hkey result, _, jobAmount_of_fits hactual, rfl⟩

end PostgresExperimentQueue

namespace InMemoryExperimentQueue

/-- Dropping the reservation of a session does not change the reserved total of its experiment. -/
def ReleasesNothing (q : InMemoryQueue) (job : ExperimentJob) : Prop :=
  ∀ r ∈ q.reservations.get? job.sessionKey, r.1 = job.experimentId → r.2 = 0

/-- A late call that another guard refuses, or that has nothing to change. -/
def Harmless (draws : Draws) (q : InMemoryQueue) : QueueCall → Prop
  | .complete job _ cost => ∀ manifest ∈ q.manifests.get? job.experimentId,
      ∀ current ∈ q.jobs.get? job.jobId, spent q job.experimentId + cost ≤ manifest.costCeilingEur →
        current.status = .succeeded ∧ (q.results.get? job.sessionKey).isSome = true ∧ cost = 0 ∧
          ReleasesNothing q job
  | .fail job _ retryable => ∀ current ∈ q.jobs.get? job.jobId,
      ∀ notBefore, addSeconds draws.now (retryDelay current.attemptCount) = .ok notBefore →
        (current.status = failedStatus current retryable ∧ current.notBefore = notBefore ∧
          current.leaseOwner = none ∧ current.leaseExpiresAt = none) ∧ ReleasesNothing q job
  | _ => True

end InMemoryExperimentQueue

end Amlguard
