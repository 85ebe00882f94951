import Amlguard.Investigations.Writes

/-!
# Engaged operations

The history tells which operations stand between their status check and the end of their run of
the graph, and which of them have read the thread. Whoever is engaged on the graph of a case is
on this list, so that a condition on the history excludes what its phase could do.
-/

namespace Amlguard

open Awaited

section Edges

variable {env : EngineEnvironment} {op : EngineOp} {m m' : Phase} {call : EngineCall}
  {r : Except PyError call.Reply} {task : ℕ} {n : EngineMark}

/-- A phase of a run is engaged. -/
theorem Phase.engaged_of_inRun {c : UUID} (h : m.inRun = some c) : m.engaged = some c := by
  cases m with
  | admitted | loaded => cases h
  | idle | read | deleting | resetting | entering | stage | loading | logged | saved | drafted | deciding
    | released | informed | collecting | reviewing | reviewed | edited | concluded | failing | failed
    | ran => exact h

/-- A phase that works at a stage is in a run of its case. -/
theorem Phase.Works.inRun {c : UUID} {s : Stage} {values : InvestigationState}
    (h : m.Works env c s values) : m.inRun = some c := by
  cases h <;> rfl

/-- A phase that reports at a stage is in a run of its case. -/
theorem Phase.Reports.inRun {c : UUID} {s : Stage} {values : InvestigationState}
    (h : m.Reports c s values) : m.inRun = some c := by
  cases h <;> rfl

/-- A phase that returns the state of a stage is in a run of its case. -/
theorem Phase.Yields.inRun {c : UUID} {s : Stage} {values : InvestigationState}
    (h : m.Yields c s values) : m.inRun = some c := by
  cases h <;> rfl

/-- Where a reply leads is in a run only when both phases are. -/
theorem inRun_landed {α : Type} {r : Except PyError α} {c : UUID}
    (hok : m.inRun = none ∨ m.inRun = some c) (herror : m'.inRun = none ∨ m'.inRun = some c) :
    (Phase.landed r m m').inRun = none ∨ (Phase.landed r m m').inRun = some c := by
  cases r with
  | ok a => exact hok
  | error e => exact herror

/-- A call takes an operation into no run. -/
theorem Edge.inRun (h : Edge env op m call r m') : m'.inRun = none ∨ m'.inRun = m.inRun := by
  cases h with
  | outside | created | located | asked | unknown | forgotten | revised | revoked | loadFails
    | loadStart | loadNothing | loadStage => exact .inl rfl
  | waits | works | reports | notifies | notified | looks | logs | saves | saveFails =>
    exact .inr rfl
  | deleted _ r =>
    cases r with
    | ok u => exact .inl rfl
    | error e => exact .inl rfl
  | entered => exact inRun_landed (.inr rfl) (.inl rfl)
  | runs | shows | decides | informs | collects | stores | edits =>
    exact inRun_landed (.inr rfl) (.inr rfl)
  | reportFails m c s values call e hm => exact .inr hm.inRun.symm
  | concludes m c values review r hm =>
    have hrun : m.inRun = some c := by
      rcases hm with rfl | ⟨rfl, -⟩ <;> rfl
    rw [hrun]
    exact inRun_landed (.inr rfl) (.inr rfl)
  | givesUp m c s values r hm =>
    rw [hm.inRun]
    exact inRun_landed (.inr rfl) (.inl rfl)
  | puts m c s values r hm =>
    rw [hm.inRun]
    apply inRun_landed _ (.inl rfl)
    cases route s values with
    | none => exact .inl rfl
    | some next => exact .inr rfl

/-- Where a reply leads is engaged on a case only when both phases are. -/
theorem engaged_landed {α : Type} {r : Except PyError α} {c : UUID}
    (hok : m.engaged = none ∨ m.engaged = some c) (herror : m'.engaged = none ∨ m'.engaged = some c) :
    (Phase.landed r m m').engaged = none ∨ (Phase.landed r m m').engaged = some c := by
  cases r with
  | ok a => exact hok
  | error e => exact herror

/-- A call engages an operation on no other case. -/
theorem Edge.engaged (h : Edge env op m call r m') : m'.engaged = none ∨ m'.engaged = m.engaged := by
  cases h with
  | outside | created | located | asked | unknown | forgotten | revised | revoked => exact .inl rfl
  | waits | works | reports | notifies | notified | looks | loadFails | loadStart | loadNothing
    | loadStage | logs | saves | saveFails => exact .inr rfl
  | deleted _ r =>
    cases r with
    | ok u => exact .inl rfl
    | error e => exact .inl rfl
  | entered => exact engaged_landed (.inr rfl) (.inl rfl)
  | runs | shows | decides | informs | collects | stores | edits =>
    exact engaged_landed (.inr rfl) (.inr rfl)
  | reportFails m c s values call e hm => exact .inr (Phase.engaged_of_inRun hm.inRun).symm
  | concludes m c values review r hm =>
    have hengaged : m.engaged = some c := by
      rcases hm with rfl | ⟨rfl, -⟩ <;> rfl
    rw [hengaged]
    exact engaged_landed (.inr rfl) (.inr rfl)
  | givesUp m c s values r hm =>
    rw [Phase.engaged_of_inRun hm.inRun]
    exact engaged_landed (.inr rfl) (.inl rfl)
  | puts m c s values r hm =>
    rw [Phase.engaged_of_inRun hm.inRun]
    apply engaged_landed _ (.inl rfl)
    cases route s values with
    | none => exact .inl rfl
    | some next => exact .inr rfl

/-- A mark engages an operation on another case only as it is admitted. -/
theorem MarkEdge.engaged (h : MarkEdge task op m n m') :
    m'.engaged = none ∨ m'.engaged = m.engaged ∨
      ∃ c, n = .admitted task c ∧ m'.engaged = some c := by
  cases h with
  | left | resets => exact .inl rfl
  | prepared | created | checked | again => exact .inr (.inr ⟨_, rfl, rfl⟩)
  | loaded c m hm =>
    rcases hm with rfl | hrun
    · exact .inl rfl
    · exact .inr (.inl (Phase.engaged_of_inRun hrun))
  | executed | drafted | decided | reviewed => exact .inr (.inl rfl)

/-- Only the task itself leaves. -/
theorem MarkEdge.left_task {j : ℕ} {c : UUID} (h : MarkEdge task op m (.left j c) m') : j = task := by
  cases h
  rfl

/-- Whoever is engaged after a mark is registered as admitted. -/
theorem MarkEdge.admitted {w : EngineWorld} {c : UUID} (h : MarkEdge task op m n m')
    (hc : m'.engaged = some c)
    (hm : m.engaged = some c → (task, c) ∈ w.store.history.admitted) :
    (task, c) ∈ (w.record n).store.history.admitted := by
  cases h with
  | left | resets => cases hc
  | prepared | created | checked | again =>
    cases hc
    exact List.mem_cons_self
  | loaded c' m hrun =>
    rcases hrun with rfl | hrun
    · cases hc
    · exact hm ((Phase.engaged_of_inRun hrun).symm.trans hc)
  | executed | drafted | decided | reviewed => exact hm hc

/-- Whoever is in a run after a mark is registered as running. -/
theorem MarkEdge.running {w : EngineWorld} {c : UUID} (h : MarkEdge task op m n m')
    (hc : m'.inRun = some c) (hm : m.inRun = some c → (task, c) ∈ w.store.history.running) :
    (task, c) ∈ (w.record n).store.history.running := by
  cases h with
  | left | resets | prepared | created | checked | again => cases hc
  | loaded c' m hrun =>
    rcases hrun with rfl | hrun
    · cases hc
    · cases hrun.symm.trans hc
      exact List.mem_cons_self
  | executed | drafted | decided | reviewed => exact hm hc

end Edges

/-- Whoever is engaged on the graph of a case is registered as admitted to it, and as running it
since the thread has been read. -/
structure Registered (φ : ℕ → Phase) (h : History) : Prop where
  admitted : ∀ i c, (φ i).engaged = some c → (i, c) ∈ h.admitted
  running : ∀ i c, (φ i).inRun = some c → (i, c) ∈ h.running

namespace Registered

variable {env : EngineEnvironment} {φ : ℕ → Phase} {op : EngineOp} {i : ℕ} {m : Phase}

/-- A call keeps the register. -/
theorem call {h : History} (hφ : Registered φ h) {call : EngineCall}
    {r : Except PyError call.Reply} (hedge : Edge env op (φ i) call r m) :
    Registered (Function.update φ i m) h := by
  constructor
  · intro j c hj
    by_cases hji : j = i
    · subst hji
      rw [Function.update_self] at hj
      rcases hedge.engaged with hnone | heq
      · rw [hnone] at hj
        cases hj
      · exact hφ.admitted j c (heq ▸ hj)
    · rw [Function.update_of_ne hji] at hj
      exact hφ.admitted j c hj
  · intro j c hj
    by_cases hji : j = i
    · subst hji
      rw [Function.update_self] at hj
      rcases hedge.inRun with hnone | heq
      · rw [hnone] at hj
        cases hj
      · exact hφ.running j c (heq ▸ hj)
    · rw [Function.update_of_ne hji] at hj
      exact hφ.running j c hj

/-- A mark removes no task from the register but the one that leaves. -/
theorem record_registered (n : EngineMark) {w : EngineWorld} {j : ℕ} {c : UUID}
    (hn : n ≠ .left j c) :
    ((j, c) ∈ w.store.history.admitted → (j, c) ∈ (w.record n).store.history.admitted) ∧
      ((j, c) ∈ w.store.history.running → (j, c) ∈ (w.record n).store.history.running) := by
  cases n with
  | executed | drafted | decided | reviewed | resetting => exact ⟨id, id⟩
  | admitted => exact ⟨List.mem_cons_of_mem _, id⟩
  | loaded => exact ⟨id, List.mem_cons_of_mem _⟩
  | left task c' =>
    have hne : (j, c) ≠ (task, c') := by
      rintro ⟨⟩
      exact hn rfl
    exact ⟨fun h => List.mem_filter.mpr ⟨h, decide_eq_true hne⟩,
      fun h => List.mem_filter.mpr ⟨h, decide_eq_true hne⟩⟩

/-- A mark keeps the register. -/
theorem mark {w : EngineWorld} (hφ : Registered φ w.store.history) {n : EngineMark}
    (hedge : MarkEdge i op (φ i) n m) :
    Registered (Function.update φ i m) (w.record n).store.history := by
  have hother : ∀ j, j ≠ i → ∀ c', n ≠ .left j c' := by
    rintro j hji c' rfl
    exact hji hedge.left_task
  constructor
  · intro j c hj
    by_cases hji : j = i
    · subst hji
      rw [Function.update_self] at hj
      exact hedge.admitted hj (hφ.admitted j c)
    · rw [Function.update_of_ne hji] at hj
      exact (record_registered n (hother j hji c)).1 (hφ.admitted j c hj)
  · intro j c hj
    by_cases hji : j = i
    · subst hji
      rw [Function.update_self] at hj
      exact hedge.running hj (hφ.running j c)
    · rw [Function.update_of_ne hji] at hj
      exact (record_registered n (hother j hji c)).2 (hφ.running j c hj)

/-- Enrolling an operation keeps the register. -/
theorem enroll {w : EngineWorld} (hφ : Registered φ w.store.history) (op : EngineOp) :
    Registered φ (op.enroll w).store.history := by
  cases op <;> exact ⟨hφ.admitted, hφ.running⟩

/-- Nothing has been started. -/
theorem idle (h : History) : Registered (fun _ => .idle false) h :=
  ⟨fun _ _ h => (by cases h), fun _ _ h => (by cases h)⟩

end Registered

end Amlguard
