import Amlguard.Investigations.EvidenceScope

/-!
# Evidence only grows

When routine requests run one at a time, the evidence that a run carries in memory is that of the
thread it has loaded, so that every checkpoint of a graph execution extends the one before it.

A graph execution begins with the checkpoint of its input, which no stage has written and which holds
no evidence yet.
-/

namespace Amlguard

open Awaited

/-- The operation has come to its end. -/
def AtEnd (t : Task engineSignature EngineOp) : Prop := ∃ r, t.prog = .done r

instance (t : Task engineSignature EngineOp) : Decidable (AtEnd t) :=
  match h : t.prog with
  | .done r => isTrue ⟨r, h⟩
  | .mark _ _ => isFalse fun ⟨_, hr⟩ => by simp [h] at hr
  | .await _ _ => isFalse fun ⟨_, hr⟩ => by simp [h] at hr

/-- Routine requests are made one at a time: nothing moves while another task is under way. -/
def Consecutive (p : EnginePool) : Move EngineOp EngineDraws → Prop
  | .start op => op.Routine ∧ ∀ t ∈ p.tasks, AtEnd t
  | .advance i _ => ∀ j ∈ List.range p.tasks.length, j ≠ i → ∀ t ∈ p.tasks[j]?, AtEnd t

instance (p : EnginePool) : (m : Move EngineOp EngineDraws) → Decidable (Consecutive p m)
  | .start op => inferInstanceAs (Decidable (op.Routine ∧ ∀ t ∈ p.tasks, AtEnd t))
  | .advance i _ => inferInstanceAs (Decidable
      (∀ j ∈ List.range p.tasks.length, j ≠ i → ∀ t ∈ p.tasks[j]?, AtEnd t))

namespace Phase

/-- The evidence that a run of a case carries in memory. -/
def carries : Phase → Option (UUID × List EvidenceItem)
  | .loaded _ next => next.carries
  | .stage c _ _ values | .loading c values | .logged c values _ | .saved c values _ _
  | .drafted c values _ _ | .deciding c values _ | .released c values _ | .informed c values _
  | .collecting c values _ | .reviewing c values _ | .reviewed c values _ | .edited c values _
  | .concluded c values _ | .failing c _ values | .failed c _ values => some (c, values.evidence)
  | .idle _ | .read _ _ _ | .deleting _ | .resetting _ | .admitted _ _ | .entering _ _ | .ran _ => none

/-- A run that is about to retrieve its evidence has none. -/
def Unfilled : Phase → Prop
  | .loaded _ next => next.Unfilled
  | .entering _ values | .stage _ .loadAndRetrieve _ values | .loading _ values
  | .logged _ values _ => values.evidence = []
  | _ => True

end Phase

/-- What a run carries is the evidence of its thread. -/
def Phase.Held (s : Store) (m : Phase) : Prop :=
  m.Unfilled ∧ ∀ c evidence, m.carries = some (c, evidence) →
    ∃ checkpoint, s.threads.get? c = some checkpoint ∧ checkpoint.values.evidence = evidence

/-- A checkpoint from which evidence is yet to be retrieved is the input of its graph execution, and
an input holds no evidence. -/
structure Checkpoint.Entered (checkpoint : Checkpoint) : Prop where
  input : checkpoint.next = some .loadAndRetrieve → checkpoint.last = none
  empty : checkpoint.last = none → checkpoint.values.evidence = []

section Steps

variable {env : EngineEnvironment} {w : EngineWorld} {op : EngineOp} {m m' : Phase}
  {call : EngineCall} {r : Except PyError call.Reply} {s s' : Store} {c : UUID} {n : EngineMark}
  {task : ℕ}

/-- An operation outside the graph carries nothing. -/
theorem Phase.Outside.held {ran : Bool} (h : m.Outside ran) (s : Store) : m.Held s := by
  cases h <;> exact ⟨trivial, nofun⟩

/-- What is held is held in every store with the same threads. -/
theorem Phase.Held.of_threads (h : m.Held s) (heq : s'.threads = s.threads) : m.Held s' := by
  refine ⟨h.1, fun c evidence hcarries => ?_⟩
  rw [heq]
  exact h.2 c evidence hcarries

/-- Where a reply leads, what is held in both phases is. -/
theorem held_landed {α : Type} {r : Except PyError α} (hok : ∀ a, r = .ok a → m.Held s)
    (herror : m'.Held s) : (Phase.landed r m m').Held s := by
  cases r with
  | ok a => exact hok a rfl
  | error e => exact herror

/-- A call that writes a thread. -/
def EngineCall.WritesThread : EngineCall → Prop
  | .putCheckpoint _ _ | .updateState _ _ _ | .deleteThread _ => True
  | _ => False

/-- A call that writes no thread leaves all of them. -/
theorem Writes.threads_eq (hw : Writes env s call r s') (h : ¬call.WritesThread) :
    s'.threads = s.threads := by
  cases hw with
  | unchanged | got | loaded | located | created | deleted | recommended | reviewed | status => rfl
  | put | updated | forgotten => exact absurd trivial h

/-- A quiet call writes no thread. -/
theorem EngineCall.Quiet.not_writesThread (h : call.Quiet) : ¬call.WritesThread := by
  cases call <;> first | exact id | exact h.elim

/-- A report writes no thread. -/
theorem EngineCall.Reporting.not_writesThread (h : call.Reporting) : ¬call.WritesThread := by
  cases call <;> first | exact id | exact h.elim

/-- A checkpoint that has been put is stored. -/
theorem Writes.put_ok {checkpoint : Checkpoint} {u : Unit}
    (hw : Writes env s (.putCheckpoint c checkpoint) (.ok u) s') :
    s'.threads.get? c = some checkpoint := by
  cases hw with
  | unchanged _ _ haside => exact (haside u rfl).elim
  | put => exact Dict.get?_set_self _ _ _

/-- What a stage carries as it reports. -/
theorem Phase.Reports.carries {stage : Stage} {values : InvestigationState}
    (h : m.Reports c stage values) : m.carries = some (c, values.evidence) := by
  cases h <;> rfl

/-- What a stage carries as it works. -/
theorem Phase.Works.carries {stage : Stage} {values : InvestigationState}
    (h : m.Works env c stage values) : m.carries = some (c, values.evidence) := by
  cases h <;> rfl

/-- After a checkpoint has been put the run carries its evidence. -/
theorem held_advance {stage : Stage} {values : InvestigationState} {checkpoint : Checkpoint}
    (hsaved : s.threads.get? c = some checkpoint) (hvalues : checkpoint.values = values) :
    (Phase.advance c (route stage values) values).Held s := by
  cases hroute : route stage values with
  | none => exact ⟨trivial, nofun⟩
  | some next =>
    constructor
    · cases next with
      | loadAndRetrieve => exact absurd hroute (route_ne_loadAndRetrieve stage values)
      | draftRecommendation | validateControls | collectInformation | humanReview => trivial
    · rintro _ _ ⟨⟩
      exact ⟨checkpoint, hsaved, by rw [hvalues]⟩

/-- A call of a routine request leads to a phase that holds the evidence of its thread. -/
theorem Phase.Held.edge (h : m.Held s) (hop : op.Routine)
    (hthreads : ∀ c checkpoint, s.threads.get? c = some checkpoint → checkpoint.Entered)
    (hedge : Edge env op m call r m') (hw : Writes env s call r s') : m'.Held s' := by
  have hkeep (hcall : ¬call.WritesThread) : m.Held s' := h.of_threads (hw.threads_eq hcall)
  cases hedge with
  | outside | created | located | asked | unknown | forgotten | loadNothing => exact ⟨trivial, nofun⟩
  | revised _ _ _ _ _ _ _ _ hevent | revoked _ _ _ _ _ _ hevent =>
    subst hevent
    cases hop
  | waits _ call _ _ hq | works _ _ _ _ call _ _ hq => exact hkeep hq.not_writesThread
  | reports _ _ _ _ call _ _ hq => exact hkeep hq.not_writesThread
  | notified | notifies | loadFails | looks => exact hkeep id
  | deleted => exact held_landed (fun _ _ => ⟨trivial, nofun⟩) ⟨trivial, nofun⟩
  | reportFails m c stage values call e hm hq =>
    obtain ⟨-, hcarries⟩ := hkeep hq.not_writesThread
    rw [hm.carries] at hcarries
    exact ⟨trivial, hcarries⟩
  | loadStart c b saved => exact ⟨rfl, nofun⟩
  | loadStage c runId value values last stage =>
    have hsaved := hw.loadCheckpoint_ok
    have hentered := hthreads c _ hsaved
    constructor
    · cases stage with
      | loadAndRetrieve => exact hentered.empty (hentered.input rfl)
      | draftRecommendation | validateControls | collectInformation | humanReview => trivial
    · rintro _ _ ⟨⟩
      rw [hw.threads_eq id]
      exact ⟨_, hsaved, rfl⟩
  | entered c values =>
    apply held_landed
    · rintro u rfl
      refine ⟨h.1, ?_⟩
      rintro _ _ ⟨⟩
      exact ⟨_, hw.put_ok, rfl⟩
    · exact ⟨trivial, nofun⟩
  | runs | shows =>
    have h' := hkeep id
    exact held_landed (fun _ _ => ⟨h'.1, h'.2⟩) ⟨trivial, h'.2⟩
  | logs =>
    have h' := hkeep id
    exact ⟨h'.1, h'.2⟩
  | saves | saveFails => exact ⟨trivial, (hkeep id).2⟩
  | decides | informs | collects | stores | edits =>
    have h' := hkeep id
    exact held_landed (fun _ _ => ⟨trivial, h'.2⟩) ⟨trivial, h'.2⟩
  | concludes m c values review r hm =>
    have hcarries : m.carries = some (c, values.evidence) := by
      rcases hm with rfl | ⟨rfl, -⟩ <;> rfl
    obtain ⟨-, hheld⟩ := hkeep id
    rw [hcarries] at hheld
    exact held_landed (fun _ _ => ⟨trivial, hheld⟩) ⟨trivial, hheld⟩
  | givesUp m c stage values r hm =>
    obtain ⟨-, hheld⟩ := hkeep id
    rw [hm.carries] at hheld
    exact held_landed (fun _ _ => ⟨trivial, hheld⟩) ⟨trivial, nofun⟩
  | puts m c stage values r hm =>
    apply held_landed
    · rintro u rfl
      exact held_advance hw.put_ok rfl
    · exact ⟨trivial, nofun⟩

/-- A mark leads to a phase that holds the evidence of its thread. -/
theorem Phase.Held.mark (h : m.Held s) (hedge : MarkEdge task op m n m') : m'.Held s := by
  cases hedge with
  | executed => exact h
  | prepared | created | checked | again | resets | left => exact ⟨trivial, nofun⟩
  | loaded => exact ⟨h.1, h.2⟩
  | drafted | decided | reviewed => exact ⟨trivial, h.2⟩

/-- What a checkpoint that is put holds: an input without evidence, or what a stage has returned. -/
theorem Edge.put_cases {checkpoint : Checkpoint} {r : Except PyError Unit}
    (h : Edge env op m (.putCheckpoint c checkpoint) r m') :
    checkpoint.last = none ∧ m = .entering c checkpoint.values ∨
      ∃ stage, checkpoint = ⟨checkpoint.values, some stage, route stage checkpoint.values⟩ ∧
        m.Yields c stage checkpoint.values := by
  cases h with
  | outside _ _ _ _ _ hq | waits _ _ _ _ hq | works _ _ _ _ _ _ _ hq | reports _ _ _ _ _ _ _ hq
    | reportFails _ _ _ _ _ _ _ hq => cases hq
  | entered => exact .inl ⟨rfl, rfl⟩
  | puts m c stage values r hm => exact .inr ⟨stage, rfl, hm⟩

/-- What a stage returns extends the evidence that its run holds. -/
theorem Phase.Held.yields {stage : Stage} {values : InvestigationState} (h : m.Held s)
    (hm : m.Yields c stage values) {checkpoint : Checkpoint}
    (hsaved : s.threads.get? c = some checkpoint) :
    checkpoint.values.evidence <+: values.evidence := by
  have hheld {evidence : List EvidenceItem} (hcarries : m.carries = some (c, evidence)) :
      checkpoint.values.evidence = evidence := by
    obtain ⟨saved, hthread, heq⟩ := h.2 c evidence hcarries
    cases hsaved.symm.trans hthread
    exact heq
  cases hm with
  | loading =>
    have hempty : checkpoint.values.evidence = [] := (hheld rfl).trans h.1
    simp [hempty]
  | collecting =>
    rw [hheld rfl]
    exact List.prefix_append _ _
  | drafted | released | blocked | concluded | failed =>
    exact ⟨[], (List.append_nil _).trans (hheld rfl)⟩

/-- A checkpoint that is put is the input of a graph execution, or extends that of its thread. -/
theorem Phase.Held.put {checkpoint checkpoint' : Checkpoint} {r : Except PyError Unit}
    (h : m.Held s) (hedge : Edge env op m (.putCheckpoint c checkpoint') r m')
    (hsaved : s.threads.get? c = some checkpoint) :
    checkpoint'.last = none ∨ checkpoint.values.evidence <+: checkpoint'.values.evidence := by
  rcases hedge.put_cases with ⟨hlast, -⟩ | ⟨stage, -, hm⟩
  · exact .inl hlast
  · exact .inr (h.yields hm hsaved)

/-- A checkpoint that a routine request puts is entered rightly. -/
theorem Phase.Held.entered {checkpoint : Checkpoint} {r : Except PyError Unit} (h : m.Held s)
    (hedge : Edge env op m (.putCheckpoint c checkpoint) r m') : checkpoint.Entered := by
  rcases hedge.put_cases with ⟨hlast, rfl⟩ | ⟨stage, heq, -⟩
  · exact ⟨fun _ => hlast, fun _ => h.1⟩
  · rw [heq]
    exact ⟨fun hnext => absurd hnext (route_ne_loadAndRetrieve _ _), nofun⟩

end Steps

end Amlguard
