import Amlguard.Investigations.Engagement

/-!
# One run of the graph for each case

Nothing but the stored status keeps two runs of one case apart: an operation reads it, and comes
to run the graph, or to delete the case, in later steps. When no second operation passes its
status check in the meantime, at most one run of a case is in flight, and a reset deletes a case
that nobody runs.
-/

namespace Amlguard

open Awaited

/-- Who stands between a passed status check and the end of a run or of a deletion. -/
def History.engaged (h : History) : List (ℕ × UUID) := h.admitted ++ h.resetting

/-- No two operations are engaged on one case. -/
def OneEngaged (h : History) : Prop :=
  ∀ a ∈ h.engaged, ∀ b ∈ h.engaged, a.2 = b.2 → a.1 = b.1

/-- At most one run of each case is in flight. -/
def OneRun (h : History) : Prop :=
  ∀ i j c, (i, c) ∈ h.running → (j, c) ∈ h.running → i = j

/-- The phases of a run that the history calls running. -/
def Phase.Runs (c : UUID) (m : Phase) : Prop := m.inRun = some c ∨ m = .ran c

/-- The history tells the truth about the runs. -/
structure RunInvariant (φ : ℕ → Phase) (w : EngineWorld) : Prop where
  filed : Filed w.store
  registered : Registered φ w.store.history
  admitted : ∀ i c, (i, c) ∈ w.store.history.running → (i, c) ∈ w.store.history.admitted
  runs : ∀ i c, (i, c) ∈ w.store.history.running → (φ i).Runs c
  deleting : ∀ i c, φ i = .deleting c → (i, c) ∈ w.store.history.resetting
  oneRun : OneRun w.store.history

/-- The invariant while one task acts: a thread that has been read is run by nobody else. -/
structure RunActing (i : ℕ) (φ : ℕ → Phase) (w : EngineWorld) : Prop extends
    RunInvariant φ w where
  alone : ∀ c next, φ i = .loaded c next → ∀ j, (j, c) ∈ w.store.history.running → j = i

section Steps

variable {env : EngineEnvironment} {w : EngineWorld} {op : EngineOp} {m m' : Phase}
  {call : EngineCall} {r : Except PyError call.Reply} {i : ℕ} {n : EngineMark} {c : UUID}
  {φ : ℕ → Phase}

/-- Where a reply leads is a run when both phases are. -/
theorem runs_landed {α : Type} {r : Except PyError α} (hok : m.Runs c) (herror : m'.Runs c) :
    (Phase.landed r m m').Runs c := by
  cases r with
  | ok a => exact hok
  | error e => exact herror

/-- After a checkpoint a run goes on or has written everything. -/
theorem runs_advance {next : Option Stage} {values : InvestigationState} :
    (Phase.advance c next values).Runs c := by
  cases next with
  | none => exact .inr rfl
  | some step => exact .inl rfl

/-- No run is outside the graph. -/
theorem Phase.Outside.not_runs {ran : Bool} (h : m.Outside ran) : ¬m.Runs c := by
  rintro (hrun | rfl)
  · cases h <;> cases hrun
  · cases h

/-- A call goes on with a run or ends it. -/
theorem Phase.Runs.edge (hm : m.Runs c) (hedge : Edge env op m call r m') : m'.Runs c := by
  cases hedge with
  | outside _ _ _ _ hout | created _ _ _ _ _ _ hout | located _ _ _ _ _ _ hout | asked _ _ _ _ hout
    | unknown _ _ _ _ hout | revised _ _ _ _ _ _ _ hout | revoked _ _ _ _ _ hout =>
    exact absurd hm hout.not_runs
  | deleted | forgotten | loadFails | loadStart | loadNothing | loadStage =>
    rcases hm with hrun | heq
    · cases hrun
    · cases heq
  | waits | works | reports | notifies | notified | looks => exact hm
  | logs | saves | saveFails =>
    rcases hm with hrun | heq
    · exact .inl hrun
    · cases heq
  | reportFails m k s values call e hreports =>
    rcases hm with hrun | rfl
    · exact .inl (hreports.inRun.symm.trans hrun)
    · cases hreports
  | entered =>
    rcases hm with hrun | heq
    · cases hrun
      exact runs_landed (.inl rfl) (.inr rfl)
    · cases heq
  | runs | shows | decides | informs | collects | stores | edits =>
    rcases hm with hrun | heq
    · cases hrun
      exact runs_landed (.inl rfl) (.inl rfl)
    · cases heq
  | concludes m k values review r hphase =>
    have hk : m.inRun = some k := by
      rcases hphase with rfl | ⟨rfl, -⟩ <;> rfl
    rcases hm with hrun | rfl
    · cases hk.symm.trans hrun
      exact runs_landed (.inl rfl) (.inl rfl)
    · cases hk
  | givesUp m k s values r hworks =>
    rcases hm with hrun | rfl
    · cases hworks.inRun.symm.trans hrun
      exact runs_landed (.inl rfl) (.inr rfl)
    · cases hworks
  | puts m k s values r hyields =>
    rcases hm with hrun | rfl
    · cases hyields.inRun.symm.trans hrun
      exact runs_landed runs_advance (.inr rfl)
    · cases hyields

/-- An operation that is about to delete a case has passed the check of a reset. -/
theorem Edge.deleting (hedge : Edge env op m call r m') (hm : m' = .deleting c) :
    m = .deleting c := by
  have hland {α : Type} {r : Except PyError α} {m₁ m₂ : Phase} (h : Phase.landed r m₁ m₂ = .deleting c) :
      m₁ = .deleting c ∨ m₂ = .deleting c := by
    cases r with
    | ok a => exact .inl h
    | error e => exact .inr h
  cases hedge with
  | waits | works | reports | notifies => exact hm
  | outside | created | located | asked | unknown | forgotten | revised | revoked | notified
    | reportFails | loadFails | loadStart | loadNothing | loadStage | logs | saves | saveFails
    | looks => cases hm
  | deleted =>
    rcases hland hm with h | h
    · cases h
    · exact h
  | entered | runs | shows | decides | informs | collects | stores | edits | concludes | givesUp =>
    rcases hland hm with h | h <;> cases h
  | puts m k s values =>
    rcases hland hm with h | h
    · cases hroute : route s values <;> rw [hroute] at h <;> cases h
    · cases h

/-- Only an operation that is about to delete a case deletes it. -/
theorem Edge.deletes (hedge : Edge env op m call r m') (hcall : call = .deleteCase c) :
    m = .deleting c := by
  cases hedge with
  | outside _ _ _ _ _ hq | waits _ _ _ _ hq | works _ _ _ _ _ _ _ hq | reports _ _ _ _ _ _ _ hq
    | reportFails _ _ _ _ _ _ _ hq =>
    subst hcall
    cases hq
  | deleted =>
    cases hcall
    rfl
  | created | located | asked | unknown | forgotten | revised | revoked | notified | notifies
    | loadFails | loadStart | loadNothing | loadStage | entered | runs | logs | shows | saves
    | saveFails | looks | decides | informs | collects | stores | edits | concludes | givesUp
    | puts => cases hcall

/-- Only an engaged operation has just read a thread. -/
theorem Edge.loaded {next : Phase} (hedge : Edge env op m call r m') (hm : m' = .loaded c next) :
    m.engaged = some c := by
  rw [hm] at hedge
  rcases hedge.engaged with hnone | heq
  · cases hnone
  · exact heq.symm

/-- Whoever is running before a mark runs on or leaves. -/
theorem Phase.Runs.mark (hm : m.Runs c) (hedge : MarkEdge i op m n m')
    (hleft : n ≠ .left i c) : m'.Runs c := by
  cases hedge with
  | executed => exact hm
  | prepared | created | checked | again | loaded | resets =>
    rcases hm with hrun | heq
    · cases hrun
    · cases heq
  | left m k ran hleaves =>
    have hk : k = c := by
      rcases hm with hrun | rfl
      · cases hleaves <;> cases hrun <;> rfl
      · cases hleaves
        rfl
    exact absurd (congrArg (EngineMark.left i) hk) hleft
  | drafted | decided | reviewed =>
    rcases hm with hrun | heq
    · exact .inl hrun
    · cases heq

/-- A mark is written by the task that it names. -/
theorem MarkEdge.names (hedge : MarkEdge i op m n m') {j : ℕ} {k : UUID}
    (hn : n = .loaded j k ∨ n = .resetting j k ∨ n = .left j k) : j = i := by
  rcases hn with rfl | rfl | rfl <;> cases hedge <;> rfl

/-- Who is running after a mark: who was, unless it has left, and who has read the thread. -/
theorem mem_running_record {j : ℕ} {k : UUID} (h : (j, k) ∈ (w.record n).store.history.running) :
    n = .loaded j k ∨ (j, k) ∈ w.store.history.running ∧ n ≠ .left j k := by
  cases n with
  | executed | admitted | resetting | drafted | decided | reviewed =>
    exact .inr ⟨h, fun heq => by cases heq⟩
  | loaded task c =>
    rcases List.mem_cons.mp h with heq | hold
    · cases heq
      exact .inl rfl
    · exact .inr ⟨hold, fun heq => by cases heq⟩
  | left task c =>
    obtain ⟨hold, hne⟩ := List.mem_filter.mp h
    refine .inr ⟨hold, ?_⟩
    rintro heq
    cases heq
    exact of_decide_eq_true hne rfl

/-- A reset that is registered stays so until it leaves. -/
theorem mem_resetting_record {j : ℕ} {k : UUID} (h : (j, k) ∈ w.store.history.resetting)
    (hn : n ≠ .left j k) : (j, k) ∈ (w.record n).store.history.resetting := by
  cases n with
  | executed | admitted | loaded | drafted | decided | reviewed => exact h
  | resetting => exact List.mem_cons_of_mem _ h
  | left task c =>
    have hne : (j, k) ≠ (task, c) := by
      rintro ⟨⟩
      exact hn rfl
    exact List.mem_filter.mpr ⟨h, decide_eq_true hne⟩

/-- A mark leads to a deletion only as a reset passes its check. -/
theorem MarkEdge.deleting (hedge : MarkEdge i op m n m') (hm : m' = .deleting c) :
    n = .resetting i c ∨ m = .deleting c ∧ ∃ execution, n = .executed execution := by
  cases hedge with
  | executed => exact .inr ⟨hm, _, rfl⟩
  | resets =>
    cases hm
    exact .inl rfl
  | loaded _ _ hrun =>
    subst hm
    rcases hrun with hran | hrun
    · cases hran
    · cases hrun
  | prepared | created | checked | again | left | drafted | decided | reviewed => cases hm

/-- No mark leads to a thread that has just been read. -/
theorem MarkEdge.into_loaded {next : Phase} (hedge : MarkEdge i op m n m')
    (hm : m' = .loaded c next) : m = .loaded c next ∧ ∃ execution, n = .executed execution := by
  cases hedge with
  | executed => exact ⟨hm, _, rfl⟩
  | loaded _ _ hrun =>
    subst hm
    rcases hrun with hran | hrun
    · cases hran
    · cases hrun
  | prepared | created | checked | again | resets | left | drafted | decided | reviewed => cases hm

/-- Whoever writes a mark keeps the truth about the runs. -/
theorem RunActing.mark (h : RunActing i φ w) (hedge : MarkEdge i op (φ i) n m) :
    RunActing i (Function.update φ i m) (w.record n) := by
  have hreg := h.registered.mark hedge
  have hloaded (j : ℕ) (k : UUID) (hn : n = .loaded j k) : j = i ∧ φ i = .loaded k m ∧ m.Runs k := by
    subst hn
    obtain rfl := hedge.names (.inl rfl)
    generalize φ j = m₀ at hedge
    cases hedge with
    | loaded _ _ hrun => exact ⟨rfl, rfl, hrun.symm⟩
  refine ⟨⟨h.filed.record n, hreg, fun j k hj => ?_, fun j k hj => ?_, fun j k hj => ?_,
    fun j j' k hj hj' => ?_⟩, fun k next hk j hj => ?_⟩
  · rcases mem_running_record hj with rfl | ⟨hold, hleft⟩
    · obtain ⟨rfl, hφ, -⟩ := hloaded j k rfl
      exact h.registered.admitted j k (by rw [hφ]; rfl)
    · exact (Registered.record_registered n hleft).1 (h.admitted j k hold)
  · by_cases hji : j = i
    · subst hji
      rw [Function.update_self]
      rcases mem_running_record hj with rfl | ⟨hold, hleft⟩
      · exact (hloaded j k rfl).2.2
      · exact (h.runs j k hold).mark hedge hleft
    · rw [Function.update_of_ne hji]
      rcases mem_running_record hj with rfl | ⟨hold, -⟩
      · exact absurd (hloaded j k rfl).1 hji
      · exact h.runs j k hold
  · by_cases hji : j = i
    · subst hji
      rw [Function.update_self] at hj
      rcases hedge.deleting hj with rfl | ⟨hold, execution, rfl⟩
      · exact List.mem_cons_self
      · exact h.deleting j k hold
    · rw [Function.update_of_ne hji] at hj
      exact mem_resetting_record (h.deleting j k hj)
        fun hn => hji (hedge.names (.inr (.inr hn)))
  · rcases mem_running_record hj with rfl | ⟨hold, -⟩
    · obtain ⟨rfl, hφ, -⟩ := hloaded j k rfl
      rcases mem_running_record hj' with heq | ⟨hold', -⟩
      · cases heq
        rfl
      · exact (h.alone k m hφ j' hold').symm
    · rcases mem_running_record hj' with rfl | ⟨hold', -⟩
      · obtain ⟨rfl, hφ, -⟩ := hloaded j' k rfl
        exact h.alone k m hφ j hold
      · exact h.oneRun j j' k hold hold'
  · rw [Function.update_self] at hk
    obtain ⟨hφ, execution, rfl⟩ := hedge.into_loaded hk
    exact h.alone k next hφ j hj

/-- A call keeps the truth about the runs, when nobody else runs the case of a thread it reads. -/
theorem RunInvariant.edge {w' : EngineWorld} (h : RunInvariant φ w)
    (halone : ∀ c next, m = .loaded c next → ∀ j, (j, c) ∈ w.store.history.running → j = i)
    (hedge : Edge env op (φ i) call r m)
    (hw : Writes env w.store call r w'.store) : RunActing i (Function.update φ i m) w' := by
  have hhistory := hw.history
  refine ⟨⟨h.filed.edge hedge hw, ?_, ?_, ?_, ?_, ?_⟩, ?_⟩
  · rw [hhistory]
    exact h.registered.call hedge
  · rw [hhistory]
    exact h.admitted
  · rw [hhistory]
    intro j k hj
    by_cases hji : j = i
    · subst hji
      rw [Function.update_self]
      exact (h.runs j k hj).edge hedge
    · rw [Function.update_of_ne hji]
      exact h.runs j k hj
  · rw [hhistory]
    intro j k hj
    by_cases hji : j = i
    · subst hji
      rw [Function.update_self] at hj
      exact h.deleting j k (hedge.deleting hj)
    · rw [Function.update_of_ne hji] at hj
      exact h.deleting j k hj
  · rw [hhistory]
    exact h.oneRun
  · rw [hhistory, Function.update_self]
    exact halone

end Steps

/-- Steps that are made while no two operations are engaged on one case keep the truth about the
runs. -/
theorem run_keeps (env : EngineEnvironment) :
    (engineChart env).Keeps (engineSystem env) (fun p _ => OneEngaged p.world.store.history)
      RunInvariant RunActing where
  serves _ _ _ := trivial
  start := by
    intro p op φ htraces _ h
    have hhistory : (op.enroll p.world).store.history.running = p.world.store.history.running ∧
        (op.enroll p.world).store.history.admitted = p.world.store.history.admitted ∧
          (op.enroll p.world).store.history.resetting = p.world.store.history.resetting := by
      cases op <;> exact ⟨rfl, rfl, rfl⟩
    obtain ⟨hrunning, hadmitted, hresetting⟩ := hhistory
    refine ⟨⟨h.filed.enroll op, h.registered.enroll op, ?_, ?_, ?_, ?_⟩, ?_⟩
    · change ∀ i c, (i, c) ∈ (op.enroll p.world).store.history.running → _ ∈
        (op.enroll p.world).store.history.admitted
      rw [hrunning, hadmitted]
      exact h.admitted
    · change ∀ i c, (i, c) ∈ (op.enroll p.world).store.history.running → _
      rw [hrunning]
      exact h.runs
    · change ∀ i c, φ i = .deleting c → (i, c) ∈ (op.enroll p.world).store.history.resetting
      rw [hresetting]
      exact h.deleting
    · change OneRun (op.enroll p.world).store.history
      unfold OneRun
      rw [hrunning]
      exact h.oneRun
    · intro c next hc
      rw [htraces.unstarted _ (Nat.le_refl _)] at hc
      cases hc
  expected := by
    intro p i o op c k φ _ _ _ h
    exact h.filed.expected c
  call := by
    intro p i o op call k φ m _ _ halone h hedge
    apply h.edge _ hedge (perform_writes env p.world o call)
    intro c next hm j hj
    have hi := h.registered.admitted i c (hedge.loaded hm)
    exact halone _ (List.mem_append_left _ (h.admitted j c hj)) _ (List.mem_append_left _ hi) rfl
  mark := by
    intro i op n φ m w _ h hedge
    exact h.mark hedge
  settled _ _ _ h := h.toRunInvariant

/-- A stored case disappears only by its deletion. -/
theorem Writes.eq_deleteCase {env : EngineEnvironment} {s s' : Store} {call : EngineCall}
    {r : Except PyError call.Reply} {c : UUID} {case : CaseData} (hw : Writes env s call r s')
    (hs : s.cases.get? c = some case) (hs' : s'.cases.get? c = none) : call = .deleteCase c := by
  have hset {k : UUID} {new : CaseData} (h : (s.cases.set k new).get? c = none) : False := by
    rw [Dict.get?_set] at h
    split at h
    · cases h
    · rw [hs] at h
      cases h
  cases hw with
  | unchanged | got | loaded | located | put | forgotten =>
    rw [hs] at hs'
    cases hs'
  | updated =>
    change s.cases.get? c = none at hs'
    rw [hs] at hs'
    cases hs'
  | created | recommended | reviewed | status => exact (hset hs').elim
  | deleted k =>
    change (s.cases.erase k).get? c = none at hs'
    rw [Dict.get?_erase] at hs'
    split at hs'
    · rename_i hk
      rw [hk]
    · rw [hs] at hs'
      cases hs'

/-- The history tells the truth about the runs in every run whose steps are made while no two operations are
engaged on one case. -/
theorem runInvariant_of_reaches (env : EngineEnvironment) (bank : SyntheticBank) {p : EnginePool}
    (hreach : (engineSystem env).Reaches (fun p _ => OneEngaged p.world.store.history)
      (idleEngine bank) p) :
    ∃ φ, (engineChart env).Traces p φ ∧ RunInvariant φ p.world := by
  have hidle : RunInvariant (fun _ => .idle false) (idleEngine bank).world :=
    ⟨filed_empty, Registered.idle _, fun _ _ h => (by cases h), fun _ _ h => (by cases h),
      fun _ _ h => (by cases h), fun _ _ _ h => (by cases h)⟩
  exact (run_keeps env).reaches (engineChart_covers env) (idleEngine_traces env bank) hidle hreach

/-- When no two operations are engaged on one case, at most one run of each case is in flight, and
a case is deleted only when none of it is. -/
theorem one_run_of_oneEngaged (env : EngineEnvironment) (bank : SyntheticBank) (p : EnginePool)
    (hreach : (engineSystem env).Reaches (fun p _ => OneEngaged p.world.store.history)
      (idleEngine bank) p) :
    OneRun p.world.store.history ∧
      ∀ q c case, (engineSystem env).Step (fun p _ => OneEngaged p.world.store.history) p q →
        p.world.store.cases.get? c = some case → q.world.store.cases.get? c = none →
          ∀ i, (i, c) ∉ p.world.store.history.running := by
  obtain ⟨φ, htraces, hinv⟩ := runInvariant_of_reaches env bank hreach
  refine ⟨hinv.oneRun, fun q c case hstep hcase hdeleted j hj => ?_⟩
  obtain ⟨move, halone, hmove⟩ := hstep
  cases move with
  | start op =>
    rw [System.move_start] at hmove
    cases hmove
    change ((engineSystem env).rest _ (op.enroll p.world)).2.store.cases.get? c = none at hdeleted
    rw [rest_cases, enroll_cases, hcase] at hdeleted
    cases hdeleted
  | advance i o =>
    obtain ⟨op, call, k, htask, rfl⟩ := System.move_advance hmove
    change ((engineSystem env).rest _ (p.world.perform env o call).2).2.store.cases.get? c = none
      at hdeleted
    rw [rest_cases] at hdeleted
    obtain rfl := (perform_writes env p.world o call).eq_deleteCase hcase hdeleted
    obtain ⟨m, hedge⟩ :=
      htraces.edge (r := (p.world.perform env o (.deleteCase c)).1) htask trivial
    have hφ := Edge.deletes hedge rfl
    have hi : i = j := by
      have hresetting := hinv.deleting i c hφ
      exact halone _ (List.mem_append_right _ hresetting) _
        (List.mem_append_left _ (hinv.admitted j c hj)) rfl
    subst hi
    rcases hinv.runs i c hj with hrun | hran
    · rw [hφ] at hrun
      cases hrun
    · rw [hφ] at hran
      cases hran

end Amlguard
