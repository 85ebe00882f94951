import Amlguard.Experiments.Worker
import Mathlib.Tactic.NormNum

/-!
# Workers only act on claims

Whatever the interleaving, a worker's call is made on behalf of a job that an earlier claim
handed to that worker, and the amount it reserves is the declared one. A move of a pool
therefore leaves the queue alone or makes one such call. Invariants of the queue are proved
for calls and carried to every reachable pool by `worker_invariant`.
-/

namespace Amlguard

open Awaited

/-- The call is made on behalf of an issued claim, with the amount that a worker reserves. -/
def IssuedCall (issued : List (String × ExperimentJob)) : QueueCall → Prop
  | .heartbeat jobId workerId => ∃ job, (workerId, job) ∈ issued ∧ job.jobId = jobId
  | .reserveCost job amount =>
    (∃ workerId, (workerId, job) ∈ issued) ∧ amount = job.estimatedCostEur
  | .complete job _ _ => ∃ workerId, (workerId, job) ∈ issued
  | .fail job _ _ => ∃ workerId, (workerId, job) ∈ issued
  | _ => True

/-- One call that an issued claim justifies, performed under an admitted outcome. -/
inductive CallStep (Q : ExperimentQueue) (ok : WorkerWorld Q → WorkerDraws → WorkerCall → Prop)
    (w w' : WorkerWorld Q) : Prop where
  | intro (o : WorkerDraws) (c : WorkerCall) (call : QueueCall) (hok : ok w o c)
      (hcall : w.queueCall c = some call) (hissued : IssuedCall w.issued call)
      (hqueue : w'.queue = (Q.step o.draws call w.queue).2)
      (hclaims : w'.issued = issuedBy call (Q.step o.draws call w.queue).1 ++ w.issued)

/-- Every outcome is admitted. -/
def AnyOutcome {Q : ExperimentQueue} (_ : WorkerWorld Q) (_ : WorkerDraws) (_ : WorkerCall) : Prop :=
  True

instance {Q : ExperimentQueue} (w : WorkerWorld Q) (o : WorkerDraws) (c : WorkerCall) :
    Decidable (AnyOutcome w o c) := isTrue trivial

section Worker

variable {Q : ExperimentQueue}

/-- Every background heartbeat renews an issued claim. -/
def HeartbeatsIssued (w : WorkerWorld Q) : Prop :=
  ∀ task beat, w.heartbeats.get? task = some beat → (beat.workerId, beat.job) ∈ w.issued

/-- The queue and the issued claims of two worlds agree. -/
def SameQueue (w w' : WorkerWorld Q) : Prop := w'.queue = w.queue ∧ w'.issued = w.issued

/-- Registering an issued heartbeat keeps every heartbeat issued. -/
theorem HeartbeatsIssued.setHeartbeat {w : WorkerWorld Q} (h : HeartbeatsIssued w) (task : ℕ)
    (beat : Heartbeat) (hbeat : (beat.workerId, beat.job) ∈ w.issued) :
    HeartbeatsIssued (w.setHeartbeat task beat) := by
  intro other found hfound
  rw [WorkerWorld.setHeartbeat, Dict.get?_set] at hfound
  split at hfound
  · cases hfound
    exact hbeat
  · exact h other found hfound

/-- A queue call keeps every heartbeat issued. -/
theorem HeartbeatsIssued.callQueue {w : WorkerWorld Q} (h : HeartbeatsIssued w) (draws : Draws)
    (c : QueueCall) : HeartbeatsIssued (w.callQueue draws c).2 := fun task beat hbeat =>
  List.mem_append_right _ (h task beat hbeat)

/-- A performed call is one call of the queue, or leaves the queue alone. -/
theorem perform_cases (w : WorkerWorld Q) (o : WorkerDraws) (c : WorkerCall) :
    (w.queueCall c = none ∧ SameQueue w (w.perform o c).2) ∨
      ∃ call, w.queueCall c = some call ∧
        (w.perform o c).2.queue = (Q.step o.draws call w.queue).2 ∧
        (w.perform o c).2.issued = issuedBy call (Q.step o.draws call w.queue).1 ++ w.issued := by
  cases c with
  | queue c => exact .inr ⟨c, rfl, rfl, rfl⟩
  | handler job => exact .inl ⟨rfl, rfl, rfl⟩
  | recordCompleted job result cost => exact .inl ⟨rfl, rfl, rfl⟩
  | recordFailed job errorType retryable => exact .inl ⟨rfl, rfl, rfl⟩
  | cancelHeartbeat task =>
    refine .inl ⟨rfl, ?_⟩
    simp only [WorkerWorld.perform, WorkerWorld.cancelHeartbeat]
    split <;> exact ⟨rfl, rfl⟩
  | beat task =>
    simp only [WorkerWorld.perform, WorkerWorld.beat, WorkerWorld.queueCall]
    split
    · rename_i workerId job hbeat
      refine .inr ⟨.heartbeat job.jobId workerId, rfl, ?_⟩
      split
      · rename_i reply w' hcall
        rw [← show (w.callQueue o.draws (.heartbeat job.jobId workerId)).2 = w' by rw [hcall]]
        exact ⟨rfl, rfl⟩
      · rename_i e w' hcall
        rw [← show (w.callQueue o.draws (.heartbeat job.jobId workerId)).2 = w' by rw [hcall]]
        exact ⟨rfl, rfl⟩
    · rename_i hbeat
      exact .inl ⟨rfl, rfl, rfl⟩

/-- Claims are only ever added. -/
theorem issued_subset_perform (w : WorkerWorld Q) (o : WorkerDraws) (c : WorkerCall) :
    w.issued ⊆ (w.perform o c).2.issued := by
  rcases perform_cases w o c with ⟨-, -, hissued⟩ | ⟨call, -, -, hissued⟩
  · rw [hissued]
    exact fun _ h => h
  · rw [hissued]
    exact fun _ h => List.mem_append_right _ h

/-- A performed call keeps every heartbeat issued. -/
theorem HeartbeatsIssued.perform {w : WorkerWorld Q} (h : HeartbeatsIssued w) (o : WorkerDraws)
    (c : WorkerCall) : HeartbeatsIssued (w.perform o c).2 := by
  cases c with
  | queue c => exact h.callQueue o.draws c
  | handler job => exact h
  | recordCompleted job result cost => exact h
  | recordFailed job errorType retryable => exact h
  | cancelHeartbeat task =>
    simp only [WorkerWorld.perform, WorkerWorld.cancelHeartbeat]
    split
    · rename_i workerId job hbeat
      exact h.setHeartbeat task ⟨workerId, job, .cancelled⟩ (h task ⟨workerId, job, .beating⟩ hbeat)
    · exact h
    · exact h
  | beat task =>
    simp only [WorkerWorld.perform, WorkerWorld.beat]
    split
    · rename_i workerId job hbeat
      have hcalled := h.callQueue o.draws (.heartbeat job.jobId workerId)
      split
      · rename_i reply w' hcall
        rwa [hcall] at hcalled
      · rename_i e w' hcall
        rw [hcall] at hcalled
        refine hcalled.setHeartbeat task ⟨workerId, job, .raised e⟩ ?_
        rw [← show (w.callQueue o.draws (.heartbeat job.jobId workerId)).2 = w' by rw [hcall]]
        exact List.mem_append_right _ (h task ⟨workerId, job, .beating⟩ hbeat)
    · exact h

/-- The rules of a worker's task: claims stay issued, and every call acts on one. -/
def issuedDiscipline (ok : WorkerWorld Q → WorkerDraws → WorkerCall → Prop) :
    Discipline workerSignature (WorkerWorld Q) WorkerDraws WorkerOp where
  inv := HeartbeatsIssued
  rely _ _ w w' := w.issued ⊆ w'.issued
  guar _ _ w w' := w.issued ⊆ w'.issued
  pre w c := ∀ q ∈ w.queueCall c, IssuedCall w.issued q
  ok _ _ := ok
  rely_refl _ _ _ := fun _ h => h
  rely_trans _ _ _ _ _ h h' := fun _ hx => h' (h hx)
  compatible _ _ _ _ _ _ _ _ _ h := h

variable {ok : WorkerWorld Q → WorkerDraws → WorkerCall → Prop}

/-- One awaited call of a worker that holds a claim. -/
theorem wp_issued_call {task : ℕ} {op : WorkerOp} {claim : String × ExperimentJob}
    {c : WorkerCall} {post : Except PyError c.Reply → WorkerWorld Q → WorkerWorld Q → Prop}
    {w₀ w : WorkerWorld Q} (hstep : w₀.issued ⊆ w.issued) (hinv : HeartbeatsIssued w)
    (hclaim : claim ∈ w.issued)
    (hpre : ∀ w₁ : WorkerWorld Q, HeartbeatsIssued w₁ → claim ∈ w₁.issued →
      ∀ q ∈ w₁.queueCall c, IssuedCall w₁.issued q)
    (hpost : ∀ r w₁ w₂, w₁.issued ⊆ w₂.issued → HeartbeatsIssued w₂ → claim ∈ w₂.issued →
      post r w₁ w₂) :
    (Prog.call (S := workerSignature) c).wp (workerSystem Q).toMachine
      ((issuedDiscipline ok).rules task op) post w₀ w := by
  refine ⟨⟨hstep, hinv⟩, fun w₁ hrely hinv₁ => ⟨hpre w₁ hinv₁ (hrely hclaim), fun o _ => ?_⟩⟩
  exact hpost _ _ _ (issued_subset_perform w₁ o c) (hinv₁.perform o c)
    (issued_subset_perform w₁ o c (hrely hclaim))

/-- A call that reaches no queue, or one that the claim justifies, may always be made. -/
theorem issued_queue {claim : String × ExperimentJob} {call : QueueCall}
    (h : ∀ issued, claim ∈ issued → IssuedCall issued call) (w : WorkerWorld Q)
    (_ : HeartbeatsIssued w) (hclaim : claim ∈ w.issued) :
    ∀ q ∈ w.queueCall (.queue call), IssuedCall w.issued q := by
  intro q hq
  cases hq
  exact h w.issued hclaim

/-- `_process` acts on the claim it was given. -/
theorem wp_process (task : ℕ) (op : WorkerOp) (workerId : String) (job : ExperimentJob)
    {w₀ w : WorkerWorld Q} (hstep : w₀.issued ⊆ w.issued) (hinv : HeartbeatsIssued w)
    (hclaim : (workerId, job) ∈ w.issued) :
    (ExperimentWorker.process task workerId job).wp (workerSystem Q).toMachine
      ((issuedDiscipline ok).rules task op) ((issuedDiscipline ok).ends task op) w₀ w := by
  have hnone : ∀ {c : WorkerCall}, (∀ w : WorkerWorld Q, w.queueCall c = none) →
      ∀ w₁ : WorkerWorld Q, HeartbeatsIssued w₁ → (workerId, job) ∈ w₁.issued →
        ∀ q ∈ w₁.queueCall c, IssuedCall w₁.issued q := by
    intro c hc w₁ _ _ q hq
    rw [hc w₁] at hq
    cases hq
  rw [ExperimentWorker.process, Prog.wp_finally', Prog.wp_rescue]
  set cleanup : Except PyError Unit → WorkerWorld Q → WorkerWorld Q → Prop := fun r =>
    (Prog.call (S := workerSignature) (.cancelHeartbeat task)).wp (workerSystem Q).toMachine
      ((issuedDiscipline ok).rules task op) (Prog.thenWp (workerSystem Q).toMachine
        ((issuedDiscipline ok).rules task op) (fun _ => Prog.settleResult r)
        ((issuedDiscipline ok).ends task op)) with hcleanupDef
  -- the cleanup and the answer to an exception, in the order in which they run
  have hcleanup : ∀ r w₁ w₂, w₁.issued ⊆ w₂.issued → HeartbeatsIssued w₂ →
      (workerId, job) ∈ w₂.issued → cleanup r w₁ w₂ := by
    intro r w₁ w₂ h hinv' hclaim'
    refine wp_issued_call h hinv' hclaim' (hnone fun _ => rfl) fun r' w₃ w₄ h' hinv'' _ => ?_
    cases r' <;> exact ⟨h', hinv''⟩
  have hhandled : ∀ r w₁ w₂, w₁.issued ⊆ w₂.issued → HeartbeatsIssued w₂ →
      (workerId, job) ∈ w₂.issued →
      Prog.rescueWp (workerSystem Q).toMachine ((issuedDiscipline ok).rules task op)
        (ExperimentWorker.answer job) cleanup r w₁ w₂ := by
    intro r w₁ w₂ h hinv' hclaim'
    cases r with
    | ok u => exact hcleanup _ w₁ w₂ h hinv' hclaim'
    | error e =>
      rw [Prog.rescueWp_error, ExperimentWorker.answer, Prog.wp_bind]
      refine wp_issued_call h hinv' hclaim' (issued_queue fun _ hmem => ⟨workerId, hmem⟩)
        fun r' w₃ w₄ h' hinv'' hclaim'' => ?_
      cases r' with
      | error e' => exact hcleanup _ w₃ w₄ h' hinv'' hclaim''
      | ok u =>
        exact wp_issued_call h' hinv'' hclaim'' (hnone fun _ => rfl)
          fun r'' w₅ w₆ h'' hinv₃ hclaim₃ => hcleanup _ w₅ w₆ h'' hinv₃ hclaim₃
  rw [ExperimentWorker.attemptJob, Prog.wp_bind]
  refine wp_issued_call hstep hinv hclaim
    (issued_queue fun _ hmem => ⟨⟨workerId, hmem⟩, rfl⟩) fun r w₁ w₂ h hinv₁ hclaim₁ => ?_
  cases r with
  | error e => exact hhandled (.error e) w₁ w₂ h hinv₁ hclaim₁
  | ok u =>
    rw [Prog.thenWp_ok, Prog.wp_bind]
    refine wp_issued_call h hinv₁ hclaim₁ (issued_queue fun _ hmem => ⟨job, hmem, rfl⟩)
      fun r w₃ w₄ h' hinv₂ hclaim₂ => ?_
    cases r with
    | error e => exact hhandled (.error e) w₃ w₄ h' hinv₂ hclaim₂
    | ok u =>
      rw [Prog.thenWp_ok, Prog.wp_bind, Prog.wp_note, Prog.thenWp_ok, Prog.wp_bind]
      have hstarted : HeartbeatsIssued (WorkerWorld.record ⟨task, workerId, job⟩ w₄) :=
        hinv₂.setHeartbeat task ⟨workerId, job, .beating⟩ hclaim₂
      refine wp_issued_call (w := WorkerWorld.record ⟨task, workerId, job⟩ w₄) h' hstarted
        hclaim₂ (hnone fun _ => rfl) fun r w₅ w₆ h'' hinv₃ hclaim₃ => ?_
      cases r with
      | error e => exact hhandled (.error e) w₅ w₆ h'' hinv₃ hclaim₃
      | ok outcome =>
        rw [Prog.thenWp_ok, Prog.wp_bind]
        refine wp_issued_call h'' hinv₃ hclaim₃ (issued_queue fun _ hmem => ⟨workerId, hmem⟩)
          fun r w₇ w₈ h₃ hinv₄ hclaim₄ => ?_
        cases r with
        | error e => exact hhandled (.error e) w₇ w₈ h₃ hinv₄ hclaim₄
        | ok u =>
          rw [Prog.thenWp_ok]
          exact wp_issued_call h₃ hinv₄ hclaim₄ (hnone fun _ => rfl)
            fun r w₉ w₁₀ h₄ hinv₅ hclaim₅ => hhandled _ w₉ w₁₀ h₄ hinv₅ hclaim₅

/-- A worker's round acts on the job that its claim returned. -/
theorem wp_runOnce (task : ℕ) (workerId : String) {w : WorkerWorld Q} (hinv : HeartbeatsIssued w) :
    (ExperimentWorker.runOnce task workerId).wp (workerSystem Q).toMachine
      ((issuedDiscipline ok).rules task (.runOnce workerId))
      ((issuedDiscipline ok).ends task (.runOnce workerId)) w w := by
  rw [ExperimentWorker.runOnce, Prog.wp_bind]
  refine ⟨⟨fun _ h => h, hinv⟩, fun w₁ hrely hinv₁ => ⟨?_, fun o _ => ?_⟩⟩
  · intro q hq
    cases hq
    trivial
  · have hstep := issued_subset_perform w₁ o (.queue (.claim workerId))
    have hinv₂ := hinv₁.perform o (.queue (.claim workerId))
    cases hreply : (w₁.perform o (.queue (.claim workerId))).1 with
    | error e =>
      rw [show (workerSystem Q).perform w₁ o (.queue (.claim workerId)) =
        (.error e, (w₁.perform o (.queue (.claim workerId))).2) from Prod.ext hreply rfl]
      exact ⟨hstep, hinv₂⟩
    | ok found =>
      rw [show (workerSystem Q).perform w₁ o (.queue (.claim workerId)) =
        (.ok found, (w₁.perform o (.queue (.claim workerId))).2) from Prod.ext hreply rfl]
      cases found with
      | none => exact ⟨hstep, hinv₂⟩
      | some job =>
        refine wp_process task _ workerId job hstep hinv₂ ?_
        change (workerId, job) ∈ issuedBy (.claim workerId) _ ++ w₁.issued
        rw [show (Q.step o.draws (.claim workerId) w₁.queue).1 = .ok (some job) from hreply]
        exact List.mem_append_left _ List.mem_cons_self

/-- A single call that every claim justifies is a safe operation. -/
theorem wp_single (task : ℕ) (op : WorkerOp) (c : WorkerCall)
    {post : Except PyError c.Reply → WorkerWorld Q → WorkerWorld Q → Prop} {w : WorkerWorld Q}
    (hinv : HeartbeatsIssued w)
    (hpre : ∀ w₁ : WorkerWorld Q, HeartbeatsIssued w₁ →
      ∀ q ∈ w₁.queueCall c, IssuedCall w₁.issued q)
    (hpost : ∀ r w₁ w₂, w₁.issued ⊆ w₂.issued → HeartbeatsIssued w₂ → post r w₁ w₂) :
    (Prog.call (S := workerSignature) c).wp (workerSystem Q).toMachine
      ((issuedDiscipline ok).rules task op) post w w := by
  refine ⟨⟨fun _ h => h, hinv⟩, fun w₁ _ hinv₁ => ⟨hpre w₁ hinv₁, fun o _ => ?_⟩⟩
  exact hpost _ _ _ (issued_subset_perform w₁ o c) (hinv₁.perform o c)

/-- Every operation on a queue acts on issued claims. -/
theorem workers_verified (allowed : WorkerPool Q → Move WorkerOp WorkerDraws → Prop) :
    (issuedDiscipline ok).Verified (workerSystem Q) allowed := by
  intro p op _ hinv
  have hends : ∀ (c : WorkerCall) (r : Except PyError c.Reply) (w₁ w₂ : WorkerWorld Q),
      w₁.issued ⊆ w₂.issued → HeartbeatsIssued w₂ →
        w₁.issued ⊆ w₂.issued ∧ HeartbeatsIssued w₂ := fun _ _ _ _ h h' => ⟨h, h'⟩
  cases op with
  | runOnce workerId => exact wp_runOnce p.tasks.length workerId hinv
  | beat round =>
    refine wp_single _ _ (.beat round) hinv (fun w₁ hinv₁ q hq => ?_) (hends _)
    simp only [WorkerWorld.queueCall] at hq
    split at hq
    · rename_i workerId job hbeat
      cases hq
      exact ⟨job, hinv₁ round ⟨workerId, job, .beating⟩ hbeat, rfl⟩
    · cases hq
  | schedule manifest scenarioIds =>
    change (ExperimentWorker.queue (.schedule manifest scenarioIds) >>= fun _ => pure ()).wp _ _ _ _ _
    rw [Prog.wp_bind]
    refine wp_single _ _ (.queue (.schedule manifest scenarioIds)) hinv
      (fun w₁ hinv₁ q hq => by cases hq; trivial) fun r w₁ w₂ h h' => ?_
    cases r <;> exact ⟨h, h'⟩
  | stop experimentId =>
    exact wp_single _ _ (.queue (.stop experimentId)) hinv
      (fun w₁ hinv₁ q hq => by cases hq; trivial) (hends _)
  | resume experimentId =>
    exact wp_single _ _ (.queue (.resume experimentId)) hinv
      (fun w₁ hinv₁ q hq => by cases hq; trivial) (hends _)

/-- Settling a worker's marks leaves its queue alone. -/
theorem sameQueue_settle (prog : Prog workerSignature Unit) (w : WorkerWorld Q) :
    SameQueue w ((workerSystem Q).rest prog w).2 := by
  unfold System.rest
  induction prog generalizing w with
  | done r => exact ⟨rfl, rfl⟩
  | mark m rest ih =>
    obtain ⟨hqueue, hissued⟩ := ih (WorkerWorld.record m w)
    exact ⟨hqueue, hissued⟩
  | await c k => exact ⟨rfl, rfl⟩

/-- What a move of a reachable pool does to the queue: nothing, or one call for an issued claim. -/
theorem worker_move_cases {p q : WorkerPool Q}
    (hreach : (workerSystem Q).Reaches (Outcomes ok) (idleWorkers Q) p)
    {m : Move WorkerOp WorkerDraws} (hmove : (workerSystem Q).move p m = some q) :
    (∃ op, m = .start op ∧ SameQueue p.world q.world) ∨
      ∃ i o c, m = .advance i o ∧ p.awaits i = some c ∧
        (p.world.queueCall c = none ∧ SameQueue p.world q.world ∨
          ∃ call, p.world.queueCall c = some call ∧ IssuedCall p.world.issued call ∧
            q.world.queue = (Q.step o.draws call p.world.queue).2 ∧
            q.world.issued =
              issuedBy call (Q.step o.draws call p.world.queue).1 ++ p.world.issued) := by
  have hassumes : Assumes (issuedDiscipline (Q := Q) ok).ok (Outcomes ok) :=
    assumes_outcomes (S := workerSignature) ok
  have hsafe := Discipline.safe (workers_verified (Outcomes ok)) hassumes
    (fun task beat hbeat => by cases hbeat) hreach
  cases m with
  | start op =>
    rw [System.move_start] at hmove
    cases hmove
    exact .inl ⟨op, rfl, sameQueue_settle _ p.world⟩
  | advance i o =>
    obtain ⟨op, c, k, htask, rfl⟩ := System.move_advance hmove
    obtain ⟨hqueue, hissued⟩ :=
      sameQueue_settle (k (p.world.perform o c).1) (p.world.perform o c).2
    refine .inr ⟨i, o, c, rfl, by simp [Pool.awaits, htask], ?_⟩
    rcases perform_cases p.world o c with ⟨hnone, hsame⟩ | ⟨call, hcall, hq, hi⟩
    · exact .inl ⟨hnone, hqueue.trans hsame.1, hissued.trans hsame.2⟩
    · exact .inr ⟨call, hcall, hsafe.pre htask call hcall, hqueue.trans hq, hissued.trans hi⟩

/-- A step of a reachable pool leaves the queue alone or makes one call for an issued claim. -/
theorem worker_step_cases {p q : WorkerPool Q}
    (hreach : (workerSystem Q).Reaches (Outcomes ok) (idleWorkers Q) p)
    (hstep : (workerSystem Q).Step (Outcomes ok) p q) :
    SameQueue p.world q.world ∨ CallStep Q ok p.world q.world := by
  obtain ⟨m, hallowed, hmove⟩ := hstep
  rcases worker_move_cases hreach hmove with ⟨op, -, hsame⟩ |
    ⟨i, o, c, rfl, hawaits, ⟨-, hsame⟩ | ⟨call, hcall, hissued, hqueue, hclaims⟩⟩
  · exact .inl hsame
  · exact .inl hsame
  · exact .inr (.intro o c call (hallowed c hawaits) hcall hissued hqueue hclaims)

/-- A property of the queue and its claims that every justified call keeps holds throughout. -/
theorem worker_invariant {I : Q.State → List (String × ExperimentJob) → Prop}
    (hinit : I Q.initial [])
    (hcall : ∀ w w' : WorkerWorld Q, CallStep Q ok w w' → I w.queue w.issued →
      I w'.queue w'.issued)
    {p : WorkerPool Q} (hreach : (workerSystem Q).Reaches (Outcomes ok) (idleWorkers Q) p) :
    I p.world.queue p.world.issued := by
  induction hreach with
  | refl => exact hinit
  | tail hreach hstep ih =>
    rcases worker_step_cases hreach hstep with ⟨hqueue, hissued⟩ | hcallstep
    · rw [hqueue, hissued]
      exact ih
    · exact hcall _ _ hcallstep ih

end Worker

/-! A small experiment on which the counterexamples below run: one configuration, two
scenarios, and the digests and the shuffle that the standard library computes for them. -/

/-- The standard library on the keys of the small experiment. -/
def sampleStdlib : Stdlib where
  sha256 raw :=
    if raw = "00000000-0000-0000-0000-000000000007:fake-b5:REG-001:1" then
      "82620bc27d97eee3288cfb3e65e19e29cdd45677e8c7e551a9aabd1d1461e98a"
    else "be98bc9e9012ce5f1ffe6b3a5e55fb45d79458c2abe3f7096f1d20f3b54a0234"
  shuffle _ keys := keys
  shuffle_perm _ _ := .refl _

/-- A cent is a cost. -/
theorem cent_nonneg : (0 : ℚ) ≤ 1 / 100 := by
  norm_num

/-- Two cents are a ceiling. -/
theorem twoCents_pos : (0 : ℚ) < 1 / 50 := by
  norm_num

/-- Five cents are a ceiling. -/
theorem fiveCents_pos : (0 : ℚ) < 1 / 20 := by
  norm_num

/-- A manifest with one configuration of the given cost under the given ceiling. -/
def sampleManifest (cost ceiling : ℚ) (hcost : 0 ≤ cost) (hceiling : 0 < ceiling) :
    ExperimentManifest where
  experimentId := 7
  name := "test"
  configurations := [⟨"fake-b5", cost, hcost⟩]
  repetitions := 1
  proofagent := none
  randomizationSeed := 7
  costCeilingEur := ceiling
  document := .object [("name", .string "test")]
  configurations_ne_nil := by simp
  configurations_are_unique := by simp
  repetitions_pos := le_rfl
  repetitions_le := by omega
  ceiling_pos := hceiling

/-- The draws of one call at a number of seconds: nothing is locked or lost, new rows are
numbered from one, and the handler reports the given cost. -/
def sampleDraws (seconds : ℕ) (cost : ℚ) : WorkerDraws where
  draws := { now := second * seconds, fresh := fun i => (i + 1, 0), locked := [], outage := none }
  handled := .ok (.object [("status", .string "ok")], cost)
  reported := .ok ()

/-- The first job of the small experiment, as its first claim hands it out. -/
def sampleJob (cost : ℚ) (hcost : 0 ≤ cost) : ExperimentJob where
  jobId := 1
  experimentId := 7
  sessionKey := "82620bc27d97eee3288cfb3e65e19e29cdd45677e8c7e551a9aabd1d1461e98a"
  configurationId := "fake-b5"
  scenarioId := "REG-001"
  repetition := 1
  status := .leased
  attemptCount := 1
  maxAttempts := 3
  leaseOwner := some "worker-1"
  leaseExpiresAt := some (second * 121)
  notBefore := 0
  estimatedCostEur := cost
  repetition_pos := le_rfl
  maxAttempts_pos := by omega
  cost_nonneg := hcost

/-- A number of moves of one task at the same second. -/
def sampleMoves (task count seconds : ℕ) (cost : ℚ) : List (Move WorkerOp WorkerDraws) :=
  List.replicate count (.advance task (sampleDraws seconds cost))

end Amlguard
