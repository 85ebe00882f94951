import Amlguard.Experiments.Forever
import Amlguard.Library.Execution

/-!
# What the worker's loop keeps to

A loop watches every task that it has made and that is not done, and it makes a task only while it watches
fewer than its concurrency. So the bound holds at every moment, with any number of loops, requests and
heartbeats in between, and a loop that returns from `asyncio.gather` leaves nothing behind. A task works on
the job of its claim and claims no other.
-/

namespace Amlguard

open Awaited

namespace Fleet

variable {Q : ExperimentQueue} {ok : WorkerWorld Q → WorkerDraws → WorkerCall → Prop} {f g : Fleet Q}

/-- The number of a task of a loop. -/
def ProcessOf (f : Fleet Q) (i n : ℕ) : Prop := ∃ t ∈ f.tasks[n]?, t.op.ofLoop i = true

/-- What the loops of a fleet keep: no loop watches more tasks than its concurrency, every task of a loop
that is not done is watched by it, and a loop that has returned watches only tasks that are done. -/
structure Watched (f : Fleet Q) : Prop where
  within (i : ℕ) (loop : RunForever) (hloop : f.loops[i]? = some loop) :
    loop.active.length ≤ loop.concurrency
  room (i : ℕ) (loop : RunForever) (hloop : f.loops[i]? = some loop) (hphase : loop.phase = .claiming) :
    loop.active.length < loop.concurrency
  watched (i n : ℕ) (htask : f.ProcessOf i n) :
    ∃ loop, f.loops[i]? = some loop ∧ (f.done n = false → n ∈ loop.active)
  drained (i : ℕ) (loop : RunForever) (hloop : f.loops[i]? = some loop)
    (hended : loop.phase = .ended (.ok ())) : ∀ n ∈ loop.active, f.done n = true

/-- An idle fleet has no loops. -/
theorem watched_idle : Watched (idle Q) := by
  constructor <;> simp [idle, ProcessOf]

/-- The entry of a number after something has been begun. -/
theorem getElem?_begin (f : Fleet Q) (op : FleetOp) (prog : ExperimentWorker.Work Unit)
    (w : WorkerWorld Q) (n : ℕ) :
    (f.begin op prog w).tasks[n]? =
      if n = f.tasks.length then some ⟨op, ((workerSystem Q).rest prog w).1⟩ else f.tasks[n]? := by
  simp only [begin, List.getElem?_append]
  grind

/-- Only what has been begun is done. -/
theorem lt_of_done (f : Fleet Q) {n : ℕ} (h : f.done n = true) : n < f.tasks.length := by
  by_contra hge
  simp [done, resultOf, List.getElem?_eq_none (by omega : f.tasks.length ≤ n)] at h

namespace Watched

/-- Loops that stay as they are go on watching while tasks get done and are added for them. -/
theorem ofTasks (h : Watched f) (hloops : g.loops = f.loops)
    (hdone : ∀ n, f.done n = true → g.done n = true)
    (hprocess : ∀ i n, g.ProcessOf i n → f.ProcessOf i n ∨
      ∃ loop, f.loops[i]? = some loop ∧ n ∈ loop.active) : Watched g := by
  have hundone {n : ℕ} (hn : g.done n = false) : f.done n = false := by
    by_contra hne
    simp [hdone n (by simpa using hne)] at hn
  constructor
  · rw [hloops]
    exact h.within
  · rw [hloops]
    exact h.room
  · intro i n hn
    rw [hloops]
    rcases hprocess i n hn with hold | hnew
    · obtain ⟨loop, hloop, hactive⟩ := h.watched i n hold
      exact ⟨loop, hloop, fun hn => hactive (hundone hn)⟩
    · obtain ⟨loop, hloop, hactive⟩ := hnew
      exact ⟨loop, hloop, fun _ => hactive⟩
  · rw [hloops]
    exact fun i loop hloop hended n hn => hdone n (h.drained i loop hloop hended n hn)

/-- A loop that moves on goes on watching what is not done. -/
theorem setLoop (h : Watched f) {i : ℕ} {loop : RunForever} (hloop : f.loops[i]? = some loop)
    (loop' : RunForever) (hwithin : loop'.active.length ≤ loop'.concurrency)
    (hroom : loop'.phase = .claiming → loop'.active.length < loop'.concurrency)
    (hwatched : ∀ n ∈ loop.active, f.done n = false → n ∈ loop'.active)
    (hdrained : loop'.phase = .ended (.ok ()) → ∀ n ∈ loop'.active, f.done n = true) :
    Watched (f.setLoop i loop') := by
  have hlt : i < f.loops.length := (List.getElem?_eq_some_iff.mp hloop).1
  have hcases {j : ℕ} {l : RunForever} (hl : (f.setLoop i loop').loops[j]? = some l) :
      (j = i ∧ l = loop') ∨ f.loops[j]? = some l := by
    by_cases hij : i = j
    · subst hij
      left
      simpa [Fleet.setLoop, hlt, eq_comm] using hl
    · right
      simpa [Fleet.setLoop, List.getElem?_set_ne hij] using hl
  constructor
  · intro j l hl
    rcases hcases hl with hnew | hold
    · rw [hnew.2]
      exact hwithin
    · exact h.within j l hold
  · intro j l hl hphase
    rcases hcases hl with hnew | hold
    · rw [hnew.2] at hphase ⊢
      exact hroom hphase
    · exact h.room j l hold hphase
  · intro j n hn
    obtain ⟨l, hl, hactive⟩ := h.watched j n hn
    by_cases hij : i = j
    · subst hij
      rw [hloop] at hl
      cases hl
      exact ⟨loop', by simp [Fleet.setLoop, hlt], fun hundone => hwatched n (hactive hundone) hundone⟩
    · exact ⟨l, by simpa [Fleet.setLoop, List.getElem?_set_ne hij] using hl, hactive⟩
  · intro j l hl hended
    rcases hcases hl with hnew | hold
    · rw [hnew.2] at hended ⊢
      exact hdrained hended
    · exact h.drained j l hold hended

/-- A task may begin whose loop watches it already, and so may anything that is no task of a loop. -/
theorem begin (h : Watched f) (op : FleetOp) (prog : ExperimentWorker.Work Unit) (w : WorkerWorld Q)
    (hop : ∀ i, op.ofLoop i = true →
      ∃ loop, f.loops[i]? = some loop ∧ f.tasks.length ∈ loop.active) :
    Watched (f.begin op prog w) := by
  apply h.ofTasks (g := f.begin op prog w) rfl
  · intro n hn
    have hne : n ≠ f.tasks.length := (f.lt_of_done hn).ne
    simpa [Fleet.done, Fleet.resultOf, f.getElem?_begin, hne] using hn
  · intro i n hn
    obtain ⟨t, ht, hprocess⟩ := hn
    rw [f.getElem?_begin] at ht
    split at ht
    · rename_i hlast
      cases ht
      exact .inr (hlast ▸ hop i hprocess)
    · exact .inl ⟨t, ht, hprocess⟩

/-- A task of the fleet goes on. -/
theorem advance (h : Watched f) {n : ℕ} {o : WorkerDraws} (hmove : f.move (.advance n o) = some g) :
    Watched g := by
  obtain ⟨op, c, k, htask, hg⟩ := move_advance hmove
  have hlt : n < f.tasks.length := (List.getElem?_eq_some_iff.mp htask).1
  apply h.ofTasks (g := g) (by rw [hg])
  · intro j hj
    have hne : n ≠ j := by
      intro heq
      subst heq
      simp [Fleet.done, Fleet.resultOf, htask, FleetTask.result] at hj
    simpa [hg, Fleet.done, Fleet.resultOf, List.getElem?_set_ne hne] using hj
  · intro i j hj
    obtain ⟨t, ht, hprocess⟩ := hj
    left
    rw [hg] at ht
    by_cases heq : n = j
    · subst heq
      rw [List.getElem?_set_self hlt] at ht
      cases ht
      exact ⟨_, htask, hprocess⟩
    · rw [List.getElem?_set_ne heq] at ht
      exact ⟨t, ht, hprocess⟩

/-- A claim that returns or raises leaves every loop watching its tasks. -/
theorem claimed (h : Watched f) {i : ℕ} {loop : RunForever} (hloop : f.loops[i]? = some loop)
    (hphase : loop.phase = .claiming) (r : Except PyError (Option ExperimentJob) × WorkerWorld Q) :
    Watched (f.claimed i loop r) := by
  have hroom := h.room i loop hloop hphase
  obtain ⟨r, w⟩ := r
  have hfruitless (prog : ExperimentWorker.Work Unit) :
      Watched (f.begin (.fruitless loop.workerId) prog w) := by
    apply h.begin
    intro j hop
    cases hop
  cases r with
  | error e =>
    apply (hfruitless (.done (.error e))).setLoop hloop { loop with phase := .ended (.error e) } hroom.le
    · intro hclaiming
      cases hclaiming
    · exact fun n hn _ => hn
    · intro hended
      cases hended
  | ok found =>
    cases found with
    | none =>
      apply (hfruitless (.done (.ok ()))).setLoop hloop { loop with phase := .waiting } hroom.le
      · intro hclaiming
        cases hclaiming
      · exact fun n hn _ => hn
      · intro hended
        cases hended
    | some job =>
      have hwatching : Watched (f.setLoop i (loop.watch f.tasks.length)) := by
        apply h.setLoop hloop (loop.watch f.tasks.length)
        · simp [RunForever.watch, RunForever.claimOrWait]
          omega
        · exact fun hclaiming => RunForever.room_claimOrWait _ hclaiming
        · intro n hn _
          simp [RunForever.watch, RunForever.claimOrWait, hn]
        · exact fun hended => absurd hended (RunForever.claimOrWait_ne_ended _ _)
      have hlt : i < f.loops.length := (List.getElem?_eq_some_iff.mp hloop).1
      apply hwatching.begin (.process i loop.workerId job)
      intro j hop
      obtain rfl : i = j := by simpa [FleetOp.ofLoop] using hop
      refine ⟨loop.watch f.tasks.length, by simp [Fleet.setLoop, hlt], ?_⟩
      simp [RunForever.watch, RunForever.claimOrWait, Fleet.setLoop]

/-- A turn of a loop drops only tasks that are done. -/
theorem turn (h : Watched f) {i : ℕ} {loop : RunForever} (hloop : f.loops[i]? = some loop)
    (killed : Bool) : Watched (f.setLoop i (loop.turn killed f.done)) := by
  have hwithin := h.within i loop hloop
  cases killed with
  | true =>
    have hphase : loop.active = [] ∨ (loop.turn true f.done).phase = .gathering := by
      cases hactive : loop.active <;> simp [RunForever.turn, hactive]
    apply h.setLoop hloop (loop.turn true f.done) hwithin
    · intro hclaiming
      simp only [RunForever.turn, if_true] at hclaiming
      split at hclaiming <;> cases hclaiming
    · exact fun n hn _ => hn
    · intro hended n hn
      rcases hphase with hnil | hgathering
      · exact absurd (show n ∈ loop.active from hn) (by simp [hnil])
      · rw [hgathering] at hended
        cases hended
  | false =>
    apply h.setLoop hloop (loop.turn false f.done)
    · exact (List.length_filter_le _ _).trans hwithin
    · exact fun hclaiming => RunForever.room_claimOrWait _ hclaiming
    · intro n hn hundone
      simp [RunForever.turn, RunForever.claimOrWait, hn, hundone]
    · exact fun hended => absurd hended (RunForever.claimOrWait_ne_ended _ _)

/-- A loop that returns from `asyncio.gather` watches only tasks that have returned. -/
theorem gathered (h : Watched f) {i : ℕ} {loop : RunForever} (hloop : f.loops[i]? = some loop)
    {failed : Option ℕ} {r : Except PyError Unit} (hr : f.gatherResult loop.active failed = some r) :
    Watched (f.setLoop i { loop with phase := .ended r }) := by
  apply h.setLoop hloop { loop with phase := .ended r } (h.within i loop hloop)
  · intro hclaiming
    cases hclaiming
  · exact fun n hn _ => hn
  · intro hended n hn
    cases hended
    cases failed with
    | some j =>
      simp only [gatherResult] at hr
      split at hr
      · split at hr <;> cases hr
      · cases hr
    | none =>
      simp only [gatherResult, Option.ite_none_right_eq_some, List.all_eq_true] at hr
      have hreturned := hr.1 n hn
      cases hresult : f.resultOf n with
      | none => simp [hresult] at hreturned
      | some result => simp [Fleet.done, hresult]

/-- A worker that starts its loop watches nothing yet. -/
theorem enter (h : Watched f) (workerId : String) (concurrency : ℕ) (killed : Bool) :
    Watched { f with
      loops := f.loops ++ [RunForever.turn ⟨workerId, concurrency, [], .waiting⟩ killed f.done] } := by
  have hnone : (RunForever.turn ⟨workerId, concurrency, [], .waiting⟩ killed f.done).active = [] := by
    cases killed <;> rfl
  have hcases {i : ℕ} {loop : RunForever} (hloop : (f.loops ++
      [RunForever.turn ⟨workerId, concurrency, [], .waiting⟩ killed f.done])[i]? = some loop) :
      f.loops[i]? = some loop ∨
        loop = RunForever.turn ⟨workerId, concurrency, [], .waiting⟩ killed f.done := by
    rw [List.getElem?_append] at hloop
    split at hloop
    · exact .inl hloop
    · exact .inr (List.mem_singleton.mp (List.mem_of_getElem? hloop))
  constructor
  · intro i loop hloop
    rcases hcases hloop with hold | rfl
    · exact h.within i loop hold
    · simp [hnone]
  · intro i loop hloop hphase
    rcases hcases hloop with hold | rfl
    · exact h.room i loop hold hphase
    · cases killed with
      | true => cases hphase
      | false => exact RunForever.room_claimOrWait _ hphase
  · intro i n hn
    obtain ⟨loop, hloop, hactive⟩ := h.watched i n hn
    have hlt : i < f.loops.length := (List.getElem?_eq_some_iff.mp hloop).1
    exact ⟨loop, by rw [List.getElem?_append_left hlt, hloop], hactive⟩
  · intro i loop hloop hended n hn
    rcases hcases hloop with hold | rfl
    · exact h.drained i loop hold hended n hn
    · simp [hnone] at hn

/-- Every move keeps the tasks watched. -/
theorem step {ok : WorkerWorld Q → WorkerDraws → WorkerCall → Prop} (h : Watched f) (hstep : Step ok f g) :
    Watched g := by
  obtain ⟨m, -, hmove⟩ := hstep
  cases m with
  | enter workerId concurrency killed =>
    cases hmove
    exact h.enter workerId concurrency killed
  | claim i o =>
    obtain ⟨loop, hloop, hmove⟩ := Option.bind_eq_some_iff.mp hmove
    split at hmove
    · cases hmove
      exact h.claimed hloop ‹_› _
    · cases hmove
  | wake i killed =>
    obtain ⟨loop, hloop, hmove⟩ := Option.bind_eq_some_iff.mp hmove
    split at hmove
    · cases hmove
      exact h.turn hloop killed
    · cases hmove
  | gathered i failed =>
    obtain ⟨loop, hloop, hmove⟩ := Option.bind_eq_some_iff.mp hmove
    split at hmove
    · obtain ⟨r, hr, rfl⟩ := Option.map_eq_some_iff.mp hmove
      exact h.gathered hloop hr
    · cases hmove
  | request op =>
    cases hmove
    apply h.begin
    intro i hop
    cases hop
  | advance n o => exact h.advance hmove

end Watched

/-- Every fleet that is reached watches its tasks. -/
theorem Reaches.watched (h : Reaches ok (idle Q) f) : Watched f := by
  induction h with
  | refl => exact watched_idle
  | tail hprior hstep ih => exact ih.step hstep

/-- What has been begun, in order. -/
def ops (f : Fleet Q) : List FleetOp := f.tasks.map (·.op)

/-- The claims that tasks were made for, in order. -/
def processed (f : Fleet Q) : List (String × ExperimentJob) := f.ops.filterMap FleetOp.job

/-- The claims that a loop has made tasks for, in order. -/
def jobsOf (f : Fleet Q) (i : ℕ) : List (String × ExperimentJob) :=
  (f.ops.filter (·.ofLoop i)).filterMap FleetOp.job

/-- The tasks of a loop that are not done. -/
def unfinished (f : Fleet Q) (i : ℕ) : List ℕ :=
  (List.range f.tasks.length).filter fun n => f.tasks[n]?.any (·.op.ofLoop i) && !f.done n

theorem ops_begin (f : Fleet Q) (op : FleetOp) (prog : ExperimentWorker.Work Unit) (w : WorkerWorld Q) :
    (f.begin op prog w).ops = f.ops ++ [op] := by
  simp [ops, begin]

theorem ops_advance {n : ℕ} {o : WorkerDraws} (h : f.move (.advance n o) = some g) : g.ops = f.ops := by
  obtain ⟨op, c, k, htask, rfl⟩ := move_advance h
  obtain ⟨hlt, hget⟩ := List.getElem?_eq_some_iff.mp htask
  apply List.ext_getElem?
  intro j
  by_cases hj : n = j
  · subst hj
    simp [ops, hlt, hget]
  · simp [ops, List.getElem?_set_ne hj]

/-- A task of a loop that is not done is among those that the loop watches. -/
theorem Watched.mem_active (h : Watched f) {i n : ℕ} {loop : RunForever}
    (hloop : f.loops[i]? = some loop) (hn : n ∈ f.unfinished i) :
    n ∈ loop.active ∧ f.done n = false := by
  simp only [unfinished, List.mem_filter, Bool.and_eq_true, Option.any_eq_true, Bool.not_eq_true'] at hn
  obtain ⟨-, ⟨t, ht, hop⟩, hundone⟩ := hn
  obtain ⟨loop', hloop', hactive⟩ := h.watched i n ⟨t, ht, hop⟩
  rw [hloop] at hloop'
  cases hloop'
  exact ⟨hactive hundone, hundone⟩

/-- A loop never has more tasks going than its concurrency. -/
theorem Watched.length_unfinished (h : Watched f) {i : ℕ} {loop : RunForever}
    (hloop : f.loops[i]? = some loop) : (f.unfinished i).length ≤ loop.concurrency := by
  have hnodup : (f.unfinished i).Nodup := List.nodup_range.filter _
  have hsubset : f.unfinished i ⊆ loop.active := fun n hn => (h.mem_active hloop hn).1
  exact (hnodup.subperm hsubset).length_le.trans (h.within i loop hloop)

/-- When a loop has returned, all its tasks are done. -/
theorem Watched.unfinished_eq_nil (h : Watched f) {i : ℕ} {loop : RunForever}
    (hloop : f.loops[i]? = some loop) (hended : loop.phase = .ended (.ok ())) : f.unfinished i = [] := by
  apply List.eq_nil_iff_forall_not_mem.mpr
  intro n hn
  obtain ⟨hactive, hundone⟩ := h.mem_active hloop hn
  simp [h.drained i loop hloop hended n hactive] at hundone

theorem jobsOf_begin (f : Fleet Q) {op : FleetOp} {i : ℕ} (hop : op.ofLoop i = false)
    (prog : ExperimentWorker.Work Unit) (w : WorkerWorld Q) :
    (f.begin op prog w).jobsOf i = f.jobsOf i := by
  simp [jobsOf, ops_begin, hop]

/-- What the claim of one loop leads to makes no task for another. -/
theorem jobsOf_claimed (f : Fleet Q) {i j : ℕ} (hij : j ≠ i) (loop : RunForever)
    (r : Except PyError (Option ExperimentJob) × WorkerWorld Q) :
    (f.claimed j loop r).jobsOf i = f.jobsOf i := by
  obtain ⟨r, w⟩ := r
  cases r with
  | error e => exact f.jobsOf_begin rfl (.done (.error e)) w
  | ok found =>
    cases found with
    | none => exact f.jobsOf_begin rfl (.done (.ok ())) w
    | some job => exact f.jobsOf_begin (by simpa [FleetOp.ofLoop] using hij) _ w

/-- A claim changes no loop but its own. -/
theorem loops_claimed (f : Fleet Q) {i j : ℕ} (hij : j ≠ i) (loop : RunForever)
    (r : Except PyError (Option ExperimentJob) × WorkerWorld Q) :
    (f.claimed j loop r).loops[i]? = f.loops[i]? := by
  obtain ⟨r, w⟩ := r
  cases r with
  | error e => exact List.getElem?_set_ne hij
  | ok found => cases found <;> exact List.getElem?_set_ne hij

/-- A loop that claims no more stays so, and no task is made for it. -/
theorem closing_step (hstep : Step ok f g) {i : ℕ} {loop : RunForever} (hloop : f.loops[i]? = some loop)
    (hclosing : loop.phase.Closing) :
    (∃ loop', g.loops[i]? = some loop' ∧ loop'.phase.Closing) ∧ g.jobsOf i = f.jobsOf i := by
  obtain ⟨m, -, hmove⟩ := hstep
  have hlt : i < f.loops.length := (List.getElem?_eq_some_iff.mp hloop).1
  have hother {j : ℕ} {l : RunForever} (hl : f.loops[j]? = some l) (hphase : ¬l.phase.Closing) : j ≠ i := by
    intro heq
    subst heq
    rw [hloop] at hl
    cases hl
    exact hphase hclosing
  cases m with
  | enter workerId concurrency killed =>
    cases hmove
    exact ⟨⟨loop, by simp [List.getElem?_append_left hlt, hloop], hclosing⟩, rfl⟩
  | claim j o =>
    obtain ⟨l, hl, hmove⟩ := Option.bind_eq_some_iff.mp hmove
    split at hmove
    · rename_i hphase
      cases hmove
      have hne : j ≠ i := hother hl (by simp [hphase, ForeverPhase.Closing])
      exact ⟨⟨loop, (f.loops_claimed hne l _).trans hloop, hclosing⟩, f.jobsOf_claimed hne l _⟩
    · cases hmove
  | wake j killed =>
    obtain ⟨l, hl, hmove⟩ := Option.bind_eq_some_iff.mp hmove
    split at hmove
    · rename_i hphase
      cases hmove
      have hne : j ≠ i := hother hl (by simp [hphase, ForeverPhase.Closing])
      exact ⟨⟨loop, (List.getElem?_set_ne hne).trans hloop, hclosing⟩, rfl⟩
    · cases hmove
  | gathered j failed =>
    obtain ⟨l, hl, hmove⟩ := Option.bind_eq_some_iff.mp hmove
    split at hmove
    · obtain ⟨r, hr, rfl⟩ := Option.map_eq_some_iff.mp hmove
      refine ⟨?_, rfl⟩
      by_cases hij : j = i
      · subst hij
        exact ⟨{ l with phase := .ended r }, by simp [setLoop, hlt], trivial⟩
      · exact ⟨loop, (List.getElem?_set_ne hij).trans hloop, hclosing⟩
    · cases hmove
  | request op =>
    cases hmove
    exact ⟨⟨loop, hloop, hclosing⟩, f.jobsOf_begin rfl _ _⟩
  | advance n o =>
    obtain ⟨op, c, k, htask, hg⟩ := move_advance hmove
    exact ⟨⟨loop, by simpa [hg] using hloop, hclosing⟩, by simp [jobsOf, ops_advance hmove]⟩

/-- From then on no task is made for a loop that claims no more. -/
theorem closing_reaches (hreach : Reaches ok f g) {i : ℕ} {loop : RunForever}
    (hloop : f.loops[i]? = some loop) (hclosing : loop.phase.Closing) :
    (∃ loop', g.loops[i]? = some loop' ∧ loop'.phase.Closing) ∧ g.jobsOf i = f.jobsOf i := by
  induction hreach with
  | refl => exact ⟨⟨loop, hloop, hclosing⟩, rfl⟩
  | tail hprior hstep ih =>
    obtain ⟨⟨loop', hloop', hclosing'⟩, hjobs⟩ := ih
    obtain ⟨hafter, hjobs'⟩ := closing_step hstep hloop' hclosing'
    exact ⟨hafter, hjobs'.trans hjobs⟩

/-! Which jobs are worked on. -/

/-- A call that hands out no job. -/
def NoClaim : WorkerCall → Prop
  | .queue (.claim _) => False
  | _ => True

/-- A program that claims nothing. -/
abbrev Claimless {α : Type} (prog : ExperimentWorker.Work α) : Prop := prog.Only NoClaim fun _ => True

theorem claimless_call {c : WorkerCall} (hc : NoClaim c) :
    Claimless (Prog.call (S := workerSignature) c) := (Prog.only_call (S := workerSignature) c).mpr hc

theorem claimless_queue {c : QueueCall} (hc : NoClaim (.queue c)) : Claimless (ExperimentWorker.queue c) :=
  claimless_call hc

/-- A task works on its job and claims no other. -/
theorem process_claimless (n : ℕ) (workerId : String) (job : ExperimentJob) :
    Claimless (ExperimentWorker.process n workerId job) := by
  apply Prog.Only.finally'
  · apply Prog.Only.rescue
    · apply Prog.Only.bind
      · exact claimless_queue trivial
      intro _
      apply Prog.Only.bind
      · exact claimless_queue trivial
      intro _
      apply Prog.Only.bind
      · exact (Prog.only_note (S := workerSignature) _).mpr trivial
      intro _
      apply Prog.Only.bind
      · exact claimless_call trivial
      intro outcome
      apply Prog.Only.bind
      · exact claimless_queue trivial
      · exact fun _ => claimless_call trivial
    · intro e
      apply Prog.Only.bind
      · exact claimless_queue trivial
      · exact fun _ => claimless_call trivial
  · exact claimless_call trivial

/-- Only a worker that runs once claims a job by itself. -/
theorem request_claimless (n : ℕ) {op : WorkerOp} (hop : ∀ workerId, op ≠ .runOnce workerId) :
    Claimless (op.program n) := by
  cases op with
  | runOnce workerId => exact absurd rfl (hop workerId)
  | beat round => exact claimless_call trivial
  | schedule manifest scenarioIds =>
    apply Prog.Only.bind
    · exact claimless_queue trivial
    · exact fun _ => Prog.only_pure ()
  | stop experimentId => exact claimless_queue trivial
  | resume experimentId => exact claimless_queue trivial

/-- A call that hands out no job records no claim. -/
theorem issued_perform (w : WorkerWorld Q) (o : WorkerDraws) {c : WorkerCall} (hc : NoClaim c) :
    (w.perform o c).2.issued = w.issued := by
  rcases perform_cases w o c with ⟨-, hsame⟩ | ⟨call, hcall, -, hissued⟩
  · exact hsame.2
  · rw [hissued]
    cases call with
    | claim workerId =>
      cases c with
      | queue c =>
        cases hcall
        exact hc.elim
      | beat task =>
        simp only [WorkerWorld.queueCall] at hcall
        split at hcall <;> cases hcall
      | handler job => cases hcall
      | recordCompleted job result cost => cases hcall
      | recordFailed job errorType retryable => cases hcall
      | cancelHeartbeat task => cases hcall
    | _ => rfl

/-- The jobs that are worked on are the claims that have been handed out, unless a worker runs once. -/
structure Accounted (f : Fleet Q) : Prop where
  claimless (t : FleetTask) (ht : t ∈ f.tasks) (hop : ∀ workerId, t.op ≠ .request (.runOnce workerId)) :
    Claimless t.prog
  issued (hops : ∀ workerId, .request (.runOnce workerId) ∉ f.ops) : f.world.issued = f.processed.reverse

namespace Accounted

/-- Something begins whose program claims nothing, and the claim that it is for has been recorded. -/
theorem begin (h : Accounted f) {op : FleetOp} {prog : ExperimentWorker.Work Unit} {w : WorkerWorld Q}
    (hprog : (∀ workerId, op ≠ .request (.runOnce workerId)) → Claimless prog)
    (hissued : w.issued = op.job.toList ++ f.world.issued) : Accounted (f.begin op prog w) := by
  constructor
  · intro t ht hop
    rcases List.mem_append.mp ht with hold | hnew
    · exact h.claimless t hold hop
    · obtain rfl := List.mem_singleton.mp hnew
      exact (hprog hop).settle _ w
  · intro hops
    rw [ops_begin] at hops
    have hbefore := h.issued fun workerId hmem => hops workerId (List.mem_append_left _ hmem)
    have hprocessed : (f.begin op prog w).processed = f.processed ++ op.job.toList := by
      simp only [processed, ops_begin, List.filterMap_append]
      cases hjob : op.job <;> simp [hjob]
    change ((workerSystem Q).rest prog w).2.issued = _
    rw [(sameQueue_settle prog w).2, hissued, hbefore, hprocessed]
    cases op.job <;> simp

/-- Where the loops stand does not matter. -/
theorem setLoop (h : Accounted f) (i : ℕ) (loop : RunForever) : Accounted (f.setLoop i loop) :=
  ⟨h.claimless, h.issued⟩

/-- A claim makes one task for the job that it hands out. -/
theorem claimed (h : Accounted f) (i : ℕ) (loop : RunForever) (draws : Draws) :
    Accounted (f.claimed i loop (f.world.callQueue draws (.claim loop.workerId))) := by
  have hissued : (f.world.callQueue draws (.claim loop.workerId)).2.issued =
      issuedBy (.claim loop.workerId) (f.world.callQueue draws (.claim loop.workerId)).1 ++
        f.world.issued := rfl
  revert hissued
  obtain ⟨r, w⟩ := f.world.callQueue draws (.claim loop.workerId)
  intro hissued
  cases r with
  | error e =>
    apply setLoop
    exact h.begin (fun _ => Prog.only_settleResult (S := workerSignature) (.error e)) hissued
  | ok found =>
    cases found with
    | none =>
      apply setLoop
      exact h.begin (fun _ => Prog.only_settleResult (S := workerSignature) (.ok ())) hissued
    | some job =>
      apply setLoop
      exact h.begin (fun _ => process_claimless _ loop.workerId job) hissued

/-- A task goes on with its job. -/
theorem advance (h : Accounted f) {n : ℕ} {o : WorkerDraws} (hmove : f.move (.advance n o) = some g) :
    Accounted g := by
  have hops := ops_advance hmove
  obtain ⟨op, c, k, htask, hg⟩ := move_advance hmove
  have hmem : (⟨op, .await c k⟩ : FleetTask) ∈ f.tasks := List.mem_of_getElem? htask
  constructor
  · intro t ht hop
    rw [hg] at ht
    rcases List.mem_or_eq_of_mem_set ht with hold | hnew
    · exact h.claimless t hold hop
    · subst hnew
      have hrest := (Prog.only_await c k).mp (h.claimless _ hmem hop)
      exact (hrest.2 _).settle _ _
  · intro hnone
    rw [hops] at hnone
    have hquiet := (Prog.only_await c k).mp (h.claimless _ hmem fun workerId heq =>
      hnone workerId (List.mem_map.mpr ⟨_, hmem, heq⟩))
    have hworld : g.world.issued = f.world.issued := by
      rw [hg]
      exact (sameQueue_settle _ _).2.trans (issued_perform f.world o hquiet.1)
    rw [hworld, h.issued hnone, processed, processed, hops]

/-- Every move keeps the account. -/
theorem step (h : Accounted f) (hstep : Step ok f g) : Accounted g := by
  obtain ⟨m, -, hmove⟩ := hstep
  cases m with
  | enter workerId concurrency killed =>
    cases hmove
    exact ⟨h.claimless, h.issued⟩
  | claim i o =>
    obtain ⟨loop, hloop, hmove⟩ := Option.bind_eq_some_iff.mp hmove
    split at hmove
    · cases hmove
      exact h.claimed i loop o.draws
    · cases hmove
  | wake i killed =>
    obtain ⟨loop, hloop, hmove⟩ := Option.bind_eq_some_iff.mp hmove
    split at hmove
    · cases hmove
      exact h.setLoop i _
    · cases hmove
  | gathered i failed =>
    obtain ⟨loop, hloop, hmove⟩ := Option.bind_eq_some_iff.mp hmove
    split at hmove
    · obtain ⟨r, hr, rfl⟩ := Option.map_eq_some_iff.mp hmove
      exact h.setLoop i _
    · cases hmove
  | request op =>
    cases hmove
    apply h.begin
    · intro hop
      exact request_claimless _ fun workerId heq => hop workerId (by rw [heq])
    · rfl
  | advance n o => exact h.advance hmove

end Accounted

/-- Every fleet that is reached accounts for its jobs. -/
theorem Reaches.accounted (h : Reaches ok (idle Q) f) : Accounted f := by
  induction h with
  | refl => exact ⟨fun t ht _ => (List.not_mem_nil ht).elim, fun _ => rfl⟩
  | tail hprior hstep ih => exact ih.step hstep

/-- What the loops of a fleet keep to. -/
structure Disciplined (f : Fleet Q) : Prop where
  bounded (i : ℕ) (loop : RunForever) (hloop : f.loops[i]? = some loop) :
    (f.unfinished i).length ≤ loop.concurrency
  drained (i : ℕ) (loop : RunForever) (hloop : f.loops[i]? = some loop)
    (hended : loop.phase = .ended (.ok ())) : f.unfinished i = []
  closed (i : ℕ) (loop : RunForever) (hloop : f.loops[i]? = some loop) (hclosing : loop.phase.Closing)
    (g : Fleet Q) (hreach : Reaches AnyOutcome f g) : g.jobsOf i = f.jobsOf i
  claimed (hops : ∀ workerId, .request (.runOnce workerId) ∉ f.ops) :
    f.world.issued = f.processed.reverse

end Fleet

/-- Any number of workers in `run_forever` on one queue: no loop has more tasks going than its
concurrency, one that returns has none left, one that has seen the kill switch makes no more, and every
job that a claim hands out is worked on by exactly one task. -/
theorem forever_disciplined {Q : ExperimentQueue} (f : Fleet Q)
    (hreach : Fleet.Reaches AnyOutcome (Fleet.idle Q) f) : f.Disciplined where
  bounded _ _ hloop := hreach.watched.length_unfinished hloop
  drained _ _ hloop hended := hreach.watched.unfinished_eq_nil hloop hended
  closed _ _ hloop hclosing _ hafter := (Fleet.closing_reaches hafter hloop hclosing).2
  claimed := hreach.accounted.issued

/-- The worker returns with no task left. -/
theorem forever_disciplined_drained :
    ∃ f, (Fleet.idle (postgresExperimentQueue sampleStdlib)).run drainedLoop = some f ∧
      f.loops.map (·.phase) = [.ended (.ok ())] ∧ f.Disciplined := by
  obtain ⟨f, hf⟩ := Option.isSome_iff_exists.mp (show ((Fleet.idle
    (postgresExperimentQueue sampleStdlib)).run drainedLoop).isSome = true by decide +kernel)
  have hphase : ((Fleet.idle (postgresExperimentQueue sampleStdlib)).run drainedLoop).map
      (fun f => f.loops.map (·.phase)) = some [.ended (.ok ())] := by decide +kernel
  rw [hf] at hphase
  exact ⟨f, hf, Option.some.inj hphase, forever_disciplined f (Fleet.reaches_of_run drainedLoop hf)⟩

end Amlguard
