import Amlguard.Investigations.HardBlock
import Amlguard.Investigations.View

/-!
# Runs in custody of their case

When every run reads the thread of its case while no other run of the case is in flight, nobody
else writes the case, its thread or the evidence announced for it until the run has left. What is
then known of a case is a matter of the phase of the one run, or of the case at rest.

`custody_keeps` reduces an invariant about all cases and all interleavings to the steps of one
run. Security events, which write a case from outside the graph, are left out.
-/

namespace Amlguard

open Awaited

/-- An input with which a stage is run: that of a new run, or a value for a thread on which a stage
comes next. -/
def GraphInput.Runs (saved : Option Checkpoint) : GraphInput → Prop
  | .start _ => True
  | .resume _ => ∃ checkpoint ∈ saved, checkpoint.next.isSome = true

instance (saved : Option Checkpoint) (input : GraphInput) : Decidable (input.Runs saved) := by
  cases input <;> unfold GraphInput.Runs <;> infer_instance

/-- The thread of a case is read for a stage only while no run of the case is in flight. -/
def LoadsAlone (w : EngineWorld) : EngineCall → Prop
  | .loadCheckpoint c input =>
    input.Runs (w.store.threads.get? c) → ∀ pair ∈ w.store.history.running, pair.2 ≠ c
  | _ => True

instance (w : EngineWorld) (call : EngineCall) : Decidable (LoadsAlone w call) := by
  unfold LoadsAlone
  split <;> infer_instance

/-- The case that a phase names. -/
def Phase.names : Phase → Option UUID
  | .read _ case _ => some case.caseId
  | .deleting c | .resetting c | .ran c => some c
  | m => m.engaged

/-- The review that is about to be saved belongs to the case. -/
def Phase.Addressed : Phase → Prop
  | .loaded _ next => next.Addressed
  | .reviewing c _ review => review.caseId = c
  | _ => True

/-- Every case that a phase, a thread or an announcement names has been drawn; a case whose thread
is about to be deleted is gone. -/
structure Grounded (φ : ℕ → Phase) (w : EngineWorld) : Prop where
  phases : ∀ i c, (φ i).names = some c → c < w.store.nextUuid
  threads : ∀ c checkpoint, w.store.threads.get? c = some checkpoint → c < w.store.nextUuid
  announced : ∀ c, w.supplied c ≠ [] → c < w.store.nextUuid
  gone : ∀ i c, φ i = .resetting c → w.store.cases.get? c = none
  addressed : ∀ i, (φ i).Addressed

section Steps

variable {env : EngineEnvironment} {w : EngineWorld} {op : EngineOp} {m m' : Phase}
  {call : EngineCall} {r : Except PyError call.Reply} {i : ℕ} {n : EngineMark} {c : UUID}
  {φ : ℕ → Phase}

/-- An engaged phase names its case. -/
theorem Phase.names_of_engaged (h : m.engaged = some c) : m.names = some c := by
  cases m with
  | idle | read | deleting | resetting | ran => cases h
  | admitted | loaded | entering | stage | loading | logged | saved | drafted | deciding | released
    | informed | collecting | reviewing | reviewed | edited | concluded | failing | failed => exact h

/-- Where a reply leads names the case that both phases name. -/
theorem names_landed {α : Type} {r : Except PyError α} (hok : m.names = some c)
    (herror : m'.names = some c) : (Phase.landed r m m').names = some c := by
  cases r with
  | ok a => exact hok
  | error e => exact herror

/-- After a checkpoint a run still names its case. -/
theorem names_advance {next : Option Stage} {values : InvestigationState} :
    (Phase.advance c next values).names = some c := by
  cases next <;> rfl

/-- A call leads to a phase that names no other case, unless it has just been read. -/
theorem Edge.names_eq (h : Edge env op m call r m') :
    m'.names = none ∨ m'.names = m.names ∨ ∃ ran case created, m' = .read ran case created := by
  cases h with
  | outside | located | unknown | forgotten | revised | revoked => exact .inl rfl
  | created m ran _ _ _ case => exact .inr (.inr ⟨ran, case, true, rfl⟩)
  | asked m ran c case => exact .inr (.inr ⟨ran, case, false, rfl⟩)
  | waits | works | reports | notifies | notified | looks | loadFails | loadStart | loadNothing
    | loadStage | logs | saves | saveFails => exact .inr (.inl rfl)
  | deleted | entered | runs | shows | decides | informs | collects | stores | edits =>
    exact .inr (.inl (names_landed rfl rfl))
  | reportFails m c s values call e hm =>
    exact .inr (.inl (Phase.names_of_engaged (Phase.engaged_of_inRun hm.inRun)).symm)
  | concludes m c values review r hm =>
    have hnames : m.names = some c := by
      rcases hm with rfl | ⟨rfl, -⟩ <;> rfl
    rw [hnames]
    exact .inr (.inl (names_landed rfl rfl))
  | givesUp m c s values r hm =>
    rw [Phase.names_of_engaged (Phase.engaged_of_inRun hm.inRun)]
    exact .inr (.inl (names_landed rfl rfl))
  | puts m c s values r hm =>
    rw [Phase.names_of_engaged (Phase.engaged_of_inRun hm.inRun)]
    exact .inr (.inl (names_landed names_advance rfl))

/-- A mark of a routine request leads to a phase that names no other case. -/
theorem MarkEdge.names_eq (h : MarkEdge i op m n m') (hop : op.Routine) :
    m'.names = none ∨ m'.names = m.names := by
  cases h with
  | executed | created | checked | again | resets | drafted | decided | reviewed => exact .inr rfl
  | prepared case actorId contextCondition hprepared =>
    subst hprepared
    cases hop
  | loaded c m hm =>
    rcases hm with rfl | hrun
    · exact .inr rfl
    · exact .inr (Phase.names_of_engaged (Phase.engaged_of_inRun hrun))
  | left => exact .inl rfl

/-- Only the run of a case alters it, or a reset that has deleted it forgets its thread. -/
theorem Edge.alters (h : Edge env op m call r m') (hop : op.Routine) (haddressed : m.Addressed)
    (halters : call.Alters c) :
    call.FromRun ∧ m.inRun = some c ∨ m = .resetting c ∧ call = .deleteThread c := by
  cases h with
  | outside _ _ call _ _ hq | waits _ call _ _ hq | works _ _ _ _ call _ _ hq =>
    exact absurd halters hq.not_alters
  | reports _ _ _ _ call _ _ hq | reportFails _ _ _ _ call _ _ hq =>
    exact absurd halters hq.not_alters
  | created | located | asked | unknown | deleted | notified | notifies | loadFails | loadStart
    | loadNothing | loadStage | logs | shows | looks => cases halters
  | revised _ _ _ _ _ _ _ _ hevent | revoked _ _ _ _ _ _ hevent =>
    subst hevent
    cases hop
  | forgotten =>
    cases halters
    exact .inr ⟨rfl, rfl⟩
  | entered | runs | saves | saveFails | decides | collects | edits =>
    cases halters
    exact .inl ⟨trivial, rfl⟩
  | informs =>
    cases halters.2
    exact .inl ⟨trivial, rfl⟩
  | stores c' values review =>
    have heq : review.caseId = c' := haddressed
    cases heq.symm.trans halters
    exact .inl ⟨trivial, rfl⟩
  | concludes m c' values review r hm =>
    cases halters
    refine .inl ⟨trivial, ?_⟩
    rcases hm with rfl | ⟨rfl, -⟩ <;> rfl
  | givesUp m c' s values r hm =>
    cases halters
    exact .inl ⟨trivial, hm.inRun⟩
  | puts m c' s values r hm =>
    cases halters
    exact .inl ⟨trivial, hm.inRun⟩

/-- Where a reply leads is addressed when both phases are. -/
theorem addressed_landed {α : Type} {r : Except PyError α} (hok : m.Addressed)
    (herror : m'.Addressed) : (Phase.landed r m m').Addressed := by
  cases r with
  | ok a => exact hok
  | error e => exact herror

/-- No call leads to a review that is about to be saved. -/
theorem Edge.addressed (h : Edge env op m call r m') : m'.Addressed := by
  cases h with
  | outside | created | located | asked | unknown | forgotten | revised | revoked | notified
    | looks | loadFails | loadStart | loadNothing | loadStage | logs | saves | saveFails
    | reportFails => trivial
  | deleted | entered | runs | shows | decides | informs | collects | stores | edits | concludes
    | givesUp => exact addressed_landed trivial trivial
  | waits _ _ _ hm | works _ _ _ _ _ _ hm | reports _ _ _ _ _ _ hm | notifies _ _ _ _ _ _ _ _ hm =>
    cases hm <;> trivial
  | puts m c s values r hm =>
    refine addressed_landed ?_ trivial
    cases route s values <;> trivial

/-- A case is gone when a reset is about to forget its thread. -/
theorem Edge.resetting {s s' : Store} (h : Edge env op m call r m') (hw : Writes env s call r s')
    (hm : m' = .resetting c) : s'.cases.get? c = none := by
  have hland {α : Type} {r : Except PyError α} {m₁ m₂ : Phase}
      (h : Phase.landed r m₁ m₂ = .resetting c) : m₁ = .resetting c ∨ m₂ = .resetting c := by
    cases r with
    | ok a => exact .inl h
    | error e => exact .inr h
  cases h with
  | waits _ _ _ hwaits => subst hm; cases hwaits
  | works _ _ _ _ _ _ hworks => subst hm; cases hworks
  | reports _ _ _ _ _ _ hreports => subst hm; cases hreports
  | notifies _ _ _ _ _ _ _ _ hreports => subst hm; cases hreports
  | outside | created | located | asked | unknown | forgotten | revised | revoked | notified
    | reportFails | loadFails | loadStart | loadNothing | loadStage | logs | saves | saveFails
    | looks => cases hm
  | deleted c r =>
    cases r with
    | error e => cases hm
    | ok reply =>
      cases hm
      cases hw with
      | unchanged _ _ haside => exact (haside reply rfl).elim
      | deleted => exact Dict.get?_erase_self _ _
  | entered | runs | shows | decides | informs | collects | stores | edits | concludes | givesUp =>
    rcases hland hm with h | h <;> cases h
  | puts m c s values =>
    rcases hland hm with h | h
    · cases hroute : route s values <;> rw [hroute] at h <;> cases h
    · cases h

/-- A review that is about to be saved is addressed to the case of its stage. -/
theorem MarkEdge.addressed (h : MarkEdge i op m n m') (hm : m.Addressed) : m'.Addressed := by
  cases h with
  | executed => exact hm
  | prepared | created | checked | again | resets | left | drafted | decided => trivial
  | loaded => exact hm
  | reviewed c values request review version hstatus hv hr =>
    exact (HumanReview.rebind_eq_ok hr).1

/-- A mark leads to no deletion. -/
theorem MarkEdge.resetting (h : MarkEdge i op m n m') (hm : m' = .resetting c) : m = .resetting c := by
  cases h with
  | executed => exact hm
  | loaded _ _ hrun =>
    subst hm
    rcases hrun with hran | hrun
    · cases hran
    · cases hrun
  | prepared | created | checked | again | resets | left | drafted | decided | reviewed => cases hm

namespace Grounded

/-- What is drawn stays drawn along a call. -/
theorem edge (h : Grounded φ w) (hfiled : Filed w.store) (hop : op.Routine) {draws : EngineDraws}
    (hedge : Edge env op (φ i) call (w.perform env draws call).1 m) :
    Grounded (Function.update φ i m) (w.perform env draws call).2 := by
  have hw := perform_writes env w draws call
  have hdrawn {c : UUID} (hc : c < w.store.nextUuid) :
      c < (w.perform env draws call).2.store.nextUuid := Nat.lt_of_lt_of_le hc hw.nextUuid_le
  have hrun {c : UUID} (halters : call.Alters c) (hfrom : call.FromRun) : c < w.store.nextUuid := by
    rcases hedge.alters hop (h.addressed i) halters with ⟨-, hrun⟩ | ⟨-, rfl⟩
    · exact h.phases i c (Phase.names_of_engaged (Phase.engaged_of_inRun hrun))
    · exact hfrom.elim
  refine ⟨fun j c hj => ?_, fun c checkpoint hc => ?_, fun c hc => ?_, fun j c hj => ?_,
    fun j => ?_⟩
  · by_cases hji : j = i
    · subst hji
      rw [Function.update_self] at hj
      rcases hedge.names_eq with hnone | heq | ⟨ran, case, created, rfl⟩
      · rw [hnone] at hj
        cases hj
      · exact hdrawn (h.phases j c (heq ▸ hj))
      · cases hj
        obtain ⟨stored, hstored, -⟩ := Phase.fresh_edge hfiled hedge hw
        exact ((hfiled.edge hedge hw).keyed _ stored hstored).2
    · rw [Function.update_of_ne hji] at hj
      exact hdrawn (h.phases j c hj)
  · cases hw.threadChange hc with
    | kept _ _ _ hold => exact hdrawn (h.threads c checkpoint hold)
    | put => exact hdrawn (hrun rfl trivial)
    | updated =>
      rcases hedge.alters hop (h.addressed i) (rfl : EngineCall.Alters c (.updateState c _ _)) with
        ⟨hfrom, -⟩ | ⟨-, heq⟩
      · exact hfrom.elim
      · cases heq
  · rcases supplied_perform env w draws c call with
      ⟨actorId, payload, rfl, -⟩ | ⟨-, heq⟩
    · exact hdrawn (hrun ⟨rfl, rfl⟩ trivial)
    · rw [heq] at hc
      exact hdrawn (h.announced c hc)
  · have hkeep (hgone : w.store.cases.get? c = none) (hc : c < w.store.nextUuid) :
        (w.perform env draws call).2.store.cases.get? c = none := by
      cases hstored : (w.perform env draws call).2.store.cases.get? c with
      | none => rfl
      | some case =>
        cases hw.caseChange hstored with
        | kept _ _ _ hold | recommended _ _ _ hold | reviewed _ _ hold | status _ _ _ hold =>
          rw [hgone] at hold
          cases hold
        | created => exact absurd hc (Nat.lt_irrefl _)
    by_cases hji : j = i
    · subst hji
      rw [Function.update_self] at hj
      exact hedge.resetting hw hj
    · rw [Function.update_of_ne hji] at hj
      exact hkeep (h.gone j c hj) (h.phases j c (by rw [hj]; rfl))
  · by_cases hji : j = i
    · subst hji
      rw [Function.update_self]
      exact hedge.addressed
    · rw [Function.update_of_ne hji]
      exact h.addressed j

/-- What is drawn stays drawn along a mark. -/
theorem mark (h : Grounded φ w) (hop : op.Routine) (hedge : MarkEdge i op (φ i) n m) :
    Grounded (Function.update φ i m) (w.record n) := by
  have hsupplied (c : UUID) : (w.record n).supplied c = w.supplied c := by
    cases n <;> rfl
  refine ⟨fun j c hj => ?_, fun c checkpoint hc => ?_, fun c hc => ?_, fun j c hj => ?_,
    fun j => ?_⟩
  · rw [record_nextUuid]
    by_cases hji : j = i
    · subst hji
      rw [Function.update_self] at hj
      rcases hedge.names_eq hop with hnone | heq
      · rw [hnone] at hj
        cases hj
      · exact h.phases j c (heq ▸ hj)
    · rw [Function.update_of_ne hji] at hj
      exact h.phases j c hj
  · rw [record_threads] at hc
    rw [record_nextUuid]
    exact h.threads c checkpoint hc
  · rw [hsupplied] at hc
    rw [record_nextUuid]
    exact h.announced c hc
  · rw [record_cases]
    by_cases hji : j = i
    · subst hji
      rw [Function.update_self] at hj
      exact h.gone j c (hedge.resetting hj)
    · rw [Function.update_of_ne hji] at hj
      exact h.gone j c hj
  · by_cases hji : j = i
    · subst hji
      rw [Function.update_self]
      exact hedge.addressed (h.addressed j)
    · rw [Function.update_of_ne hji]
      exact h.addressed j

/-- A request draws nothing as it is enrolled. -/
theorem enroll (h : Grounded φ w) (op : EngineOp) : Grounded φ (op.enroll w) := by
  have hsupplied (c : UUID) : (op.enroll w).supplied c = w.supplied c := by
    cases op <;> rfl
  refine ⟨fun j c hj => ?_, fun c checkpoint hc => ?_, fun c hc => ?_, fun j c hj => ?_, h.addressed⟩
  · rw [enroll_nextUuid]
    exact h.phases j c hj
  · rw [enroll_threads] at hc
    rw [enroll_nextUuid]
    exact h.threads c checkpoint hc
  · rw [hsupplied] at hc
    rw [enroll_nextUuid]
    exact h.announced c hc
  · rw [enroll_cases]
    exact h.gone j c hj

/-- Nothing has been drawn on an idle engine. -/
theorem idle (bank : SyntheticBank) : Grounded (fun _ => .idle false) (idleEngine bank).world :=
  ⟨fun _ _ h => (by cases h), fun _ _ h => (by cases h), fun _ h => absurd rfl h,
    fun _ _ h => (by cases h), fun _ => trivial⟩

end Grounded

end Steps

/-- The stage on which a phase of a run works, and the state that the stage has been given. -/
def Phase.under : Phase → Option (Stage × InvestigationState)
  | .stage _ s _ values | .failing _ s values | .failed _ s values => some (s, values)
  | .loading _ values | .logged _ values _ => some (.loadAndRetrieve, values)
  | .saved _ values _ _ | .drafted _ values _ _ => some (.draftRecommendation, values)
  | .deciding _ values _ | .released _ values _ => some (.validateControls, values)
  | .informed _ values _ | .collecting _ values _ => some (.collectInformation, values)
  | .reviewing _ values _ | .reviewed _ values _ | .edited _ values _ | .concluded _ values _ =>
    some (.humanReview, values)
  | .idle _ | .read _ _ _ | .deleting _ | .resetting _ | .admitted _ _ | .loaded _ _
  | .entering _ _ | .ran _ => none

/-- The thread is still as the stage has been given it. -/
def Phase.OnThread (m : Phase) (saved : Option Checkpoint) : Prop :=
  ∀ s values, m.under = some (s, values) → ∃ last, saved = some ⟨values, last, some s⟩

section Threads

variable {env : EngineEnvironment} {op : EngineOp} {m m' : Phase} {call : EngineCall}
  {r : Except PyError call.Reply} {i : ℕ} {n : EngineMark} {c : UUID} {v v' : CaseView}

/-- The stage of a phase that works. -/
theorem Phase.Works.under {s : Stage} {values : InvestigationState} (h : m.Works env c s values) :
    m.under = some (s, values) := by
  cases h <;> rfl

/-- The stage of a phase that reports. -/
theorem Phase.Reports.under {s : Stage} {values : InvestigationState} (h : m.Reports c s values) :
    m.under = some (s, values) := by
  cases h <;> rfl

/-- Where a reply leads, both phases work on the same stage. -/
theorem under_landed {α : Type} {r : Except PyError α} {at' : Option (Stage × InvestigationState)}
    (hok : m.under = at') (herror : m'.under = at') : (Phase.landed r m m').under = at' := by
  cases r with
  | ok a => exact hok
  | error e => exact herror

/-- Nothing is required of the thread of a phase that works on no stage. -/
theorem onThread_of_none {saved : Option Checkpoint} (h : m.under = none) : m.OnThread saved := by
  intro s values hunder
  rw [h] at hunder
  cases hunder

/-- What is required of the thread is the same for phases of the same stage. -/
theorem Phase.OnThread.of_eq {saved : Option Checkpoint} (h : m.OnThread saved)
    (hunder : m'.under = m.under) : m'.OnThread saved := by
  intro s values h'
  exact h s values (hunder ▸ h')

/-- Only a checkpoint that is put changes the thread in a view. -/
theorem ViewStep.saved_eq (h : ViewStep env c v call r v')
    (hput : ∀ checkpoint, call ≠ .putCheckpoint c checkpoint) : v'.saved = v.saved := by
  cases h with
  | kept | recommended | reviewed | status | supplied => rfl
  | put checkpoint => exact absurd rfl (hput checkpoint)

/-- A call leads from one stage to the next by a checkpoint, or leaves the stage and its thread. -/
theorem Phase.OnThread.edge (h : m.OnThread v.saved) (hrun : m.inRun = some c)
    (hedge : Edge env op m call r m') (hview : ViewStep env c v call r v') :
    m'.OnThread v'.saved := by
  have hkeep (hput : ∀ checkpoint, call ≠ .putCheckpoint c checkpoint) (hunder : m'.under = m.under) :
      m'.OnThread v'.saved := by
    rw [hview.saved_eq hput]
    exact h.of_eq hunder
  cases hedge with
  | outside _ _ _ _ hout | created _ _ _ _ _ _ hout | located _ _ _ _ _ _ hout | asked _ _ _ _ hout
    | unknown _ _ _ _ hout | revised _ _ _ _ _ _ _ hout | revoked _ _ _ _ _ hout =>
    exact absurd (.inl hrun) hout.not_runs
  | deleted | forgotten | loadFails | loadStart | loadNothing | loadStage => cases hrun
  | waits _ call _ _ hq | works _ _ _ _ call _ _ hq =>
    apply hkeep _ rfl
    rintro checkpoint rfl
    exact hq
  | reports _ _ _ _ call _ _ hq =>
    apply hkeep _ rfl
    rintro checkpoint rfl
    exact hq
  | notified | notifies | looks | logs | saves | saveFails => exact hkeep (fun _ h => by cases h) rfl
  | reportFails _ _ _ _ call _ hm hq =>
    apply hkeep _ hm.under.symm
    rintro checkpoint rfl
    exact hq
  | entered k values r =>
    cases hrun
    cases r with
    | error e => exact onThread_of_none rfl
    | ok u =>
      rw [hview.put_ok]
      rintro _ _ ⟨⟩
      exact ⟨none, rfl⟩
  | runs | shows | decides | informs | collects | stores | edits =>
    exact hkeep (fun _ h => by cases h) (under_landed rfl rfl)
  | concludes m k values review r hm =>
    have hunder : m.under = some (.humanReview, values) := by
      rcases hm with rfl | ⟨rfl, -⟩ <;> rfl
    apply hkeep (fun _ h => by cases h)
    rw [hunder]
    exact under_landed rfl rfl
  | givesUp m k s values r hm =>
    cases r with
    | error e => exact onThread_of_none rfl
    | ok u => exact hkeep (fun _ h => by cases h) hm.under.symm
  | puts m k s values r hm =>
    cases hm.inRun.symm.trans hrun
    cases r with
    | error e => exact onThread_of_none rfl
    | ok u =>
      rw [hview.put_ok]
      change (Phase.advance _ (route s values) values).OnThread _
      cases route s values with
      | none => exact onThread_of_none rfl
      | some next =>
        rintro _ _ ⟨⟩
        exact ⟨some s, rfl⟩

/-- A mark of a run leaves its stage, or ends it. -/
theorem Phase.OnThread.mark (h : m.OnThread v.saved) (hrun : m.inRun = some c)
    (hedge : MarkEdge i op m n m') : m'.OnThread v.saved := by
  cases hedge with
  | executed => exact h
  | prepared | created | checked | again | loaded | resets => cases hrun
  | left => exact onThread_of_none rfl
  | drafted | decided | reviewed => exact h.of_eq rfl

end Threads

/-- Routine requests are made, and every call has an outcome that is admitted. -/
def RoutineMoves (ok : EngineWorld → EngineDraws → EngineCall → Prop) (p : EnginePool) :
    Move EngineOp EngineDraws → Prop
  | .start op => op.Routine
  | .advance i draws => ∀ call ∈ p.awaits i, ok p.world draws call

instance (ok : EngineWorld → EngineDraws → EngineCall → Prop) [∀ w o c, Decidable (ok w o c)]
    (p : EnginePool) : (move : Move EngineOp EngineDraws) → Decidable (RoutineMoves ok p move)
  | .start op => inferInstanceAs (Decidable op.Routine)
  | .advance i draws => inferInstanceAs (Decidable (∀ call ∈ p.awaits i, ok p.world draws call))

/-- The reply that a call gives where the case has this view, with an outcome that is admitted. -/
def Admitted (env : EngineEnvironment) (ok : EngineWorld → EngineDraws → EngineCall → Prop) (c : UUID)
    (v : CaseView) (call : EngineCall) (r : Except PyError call.Reply) : Prop :=
  ∃ w draws, w.view c = some v ∧ ok w draws call ∧ (w.perform env draws call).1 = r

section Admitted

variable {env : EngineEnvironment} {ok : EngineWorld → EngineDraws → EngineCall → Prop} {c : UUID}
  {v : CaseView}

/-- The status of a case that is seen is set, when the call is not made to fail. -/
theorem Admitted.setStatus_ok {status : CaseStatus} {r : Except PyError Unit}
    (h : Admitted env ok c v (.setStatus c status) r)
    (hquiet : ∀ w draws, ok w draws (.setStatus c status) → ¬draws.failure.Raises) : r = .ok () := by
  obtain ⟨w, draws, hview, hok, rfl⟩ := h
  rw [perform_of_not_raises (hquiet w draws hok)]
  exact setStatus_effect_ok status (view_eq_some hview).1 draws

/-- A checkpoint is put, when the call is not made to fail. -/
theorem Admitted.put_ok {checkpoint : Checkpoint} {r : Except PyError Unit}
    (h : Admitted env ok c v (.putCheckpoint c checkpoint) r)
    (hquiet : ∀ w draws, ok w draws (.putCheckpoint c checkpoint) → ¬draws.failure.Raises) :
    r = .ok () := by
  obtain ⟨w, draws, -, hok, rfl⟩ := h
  rw [perform_of_not_raises (hquiet w draws hok)]
  rfl

end Admitted

/-- An assertion about the view of a case in each phase of the one run that is in flight, and outside
every run, which the steps of that run keep. -/
structure CustodyRules (env : EngineEnvironment)
    (ok : EngineWorld → EngineDraws → EngineCall → Prop) (V : UUID → Phase → CaseView → Prop) :
    Prop where
  alone : ∀ w draws call, ok w draws call → LoadsAlone w call
  rest : ∀ c m v, m.inRun = none → (V c m v ↔ V c (.idle false) v)
  created : ∀ (s : Store) alert tenantId investigatorId,
    V s.nextUuid (.idle false) ⟨s.newCase env.backend alert tenantId investigatorId, none, []⟩
  entered : ∀ c b v r, Admitted env ok c v (.loadCheckpoint c (.start b)) r → b.caseId = c →
    V c (.idle false) v → V c (.entering c ((savedValues v.saved).started b)) v
  resumed : ∀ c v value r values last s, Admitted env ok c v (.loadCheckpoint c (.resume value)) r →
    v.saved = some ⟨values, last, some s⟩ → V c (.idle false) v →
      V c (.stage c s (some value) values) v
  edge : ∀ c op m call r m' v v', m.inRun = some c → m.OnThread v.saved → V c m v →
    Edge env op m call r m' → ViewStep env c v call r v' → Admitted env ok c v call r →
      (m' = m → call.Alters c) → V c m' v'
  mark : ∀ c i op m n m' v, m.inRun = some c → m.OnThread v.saved → V c m v →
    MarkEdge i op m n m' → V c m' v

/-- At most one run of each case is in flight, and what is known of the case is a matter of its
phase. -/
structure InCustody (V : UUID → Phase → CaseView → Prop) (φ : ℕ → Phase) (w : EngineWorld) : Prop where
  filed : Filed w.store
  registered : Registered φ w.store.history
  grounded : Grounded φ w
  sole : ∀ i j c, (φ i).inRun = some c → (φ j).inRun = some c → i = j
  held : ∀ i c v, (φ i).inRun = some c → w.view c = some v → (φ i).OnThread v.saved ∧ V c (φ i) v
  free : ∀ c v, (∀ i, (φ i).inRun ≠ some c) → w.view c = some v → V c (.idle false) v

/-- Custody while one task acts: a thread that has been read for a stage is run by nobody. -/
structure InCustodyActing (V : UUID → Phase → CaseView → Prop) (i : ℕ) (φ : ℕ → Phase)
    (w : EngineWorld) : Prop extends InCustody V φ w where
  loaded : ∀ c next, φ i = .loaded c next → next.inRun = some c → (∀ j, (φ j).inRun ≠ some c) ∧
    ∀ v, w.view c = some v → next.OnThread v.saved ∧ V c next v

section Custody

variable {env : EngineEnvironment} {ok : EngineWorld → EngineDraws → EngineCall → Prop}
  {V : UUID → Phase → CaseView → Prop} {w : EngineWorld} {op : EngineOp} {m m' : Phase}
  {call : EngineCall} {r : Except PyError call.Reply} {i : ℕ} {n : EngineMark} {c : UUID}
  {φ : ℕ → Phase} {draws : EngineDraws}

/-- A mark changes no view. -/
theorem view_record (n : EngineMark) (w : EngineWorld) (c : UUID) :
    (w.record n).view c = w.view c := by
  have hsupplied : (w.record n).supplied c = w.supplied c := by
    cases n <;> rfl
  unfold EngineWorld.view
  rw [record_cases, record_threads, hsupplied]

/-- Enrolling a request changes no view. -/
theorem view_enroll (op : EngineOp) (w : EngineWorld) (c : UUID) :
    (op.enroll w).view c = w.view c := by
  have hsupplied : (op.enroll w).supplied c = w.supplied c := by
    cases op <;> rfl
  unfold EngineWorld.view
  rw [enroll_cases, enroll_threads, hsupplied]

/-- A mark begins a run only where its thread has been read. -/
theorem MarkEdge.into_run (h : MarkEdge i op m n m') (hrun : m'.inRun = some c) :
    m.inRun = some c ∨ m = .loaded c m' := by
  cases h with
  | executed | drafted | decided | reviewed => exact .inl hrun
  | prepared | created | checked | again | resets | left => cases hrun
  | loaded k m hm =>
    rcases hm with rfl | hk
    · cases hrun
    · cases hk.symm.trans hrun
      exact .inr rfl

/-- A mark of a run goes on with it or ends it. -/
theorem MarkEdge.from_run (h : MarkEdge i op m n m') (hrun : m.inRun = some c) :
    m'.inRun = none ∨ m'.inRun = some c := by
  cases h with
  | executed | drafted | decided | reviewed => exact .inr hrun
  | prepared | created | checked | again | resets | loaded => cases hrun
  | left => exact .inl rfl

/-- A thread that has been read for a stage is that of the store. -/
theorem Edge.loaded_cases {s s' : Store} {next : Phase} (h : Edge env op m call r m')
    (hw : Writes env s call r s') (hm : m' = .loaded c next) (hrun : next.inRun = some c) :
    (∃ b, call = .loadCheckpoint c (.start b) ∧ b.caseId = c ∧
      next = .entering c ((savedValues (s.threads.get? c)).started b)) ∨
    ∃ value values last step, call = .loadCheckpoint c (.resume value) ∧
      s.threads.get? c = some ⟨values, last, some step⟩ ∧
        next = .stage c step (some value) values := by
  have hland {α : Type} {r : Except PyError α} {m₁ m₂ : Phase}
      (h : Phase.landed r m₁ m₂ = .loaded c next) : m₁ = .loaded c next ∨ m₂ = .loaded c next := by
    cases r with
    | ok a => exact .inl h
    | error e => exact .inr h
  cases h with
  | waits _ _ _ hwaits => subst hm; cases hwaits
  | works _ _ _ _ _ _ hworks => subst hm; cases hworks
  | reports _ _ _ _ _ _ hreports => subst hm; cases hreports
  | notifies _ _ _ _ _ _ _ _ hreports => subst hm; cases hreports
  | outside | created | located | asked | unknown | forgotten | revised | revoked | notified
    | reportFails | loadFails | logs | saves | saveFails | looks => cases hm
  | loadStart k b saved hop hb =>
    cases hm
    rw [hw.loadCheckpoint_ok]
    exact .inl ⟨b, rfl, hb, rfl⟩
  | loadNothing =>
    cases hm
    cases hrun
  | loadStage k runId value values last step =>
    cases hm
    exact .inr ⟨value, values, last, step, rfl, hw.loadCheckpoint_ok, rfl⟩
  | deleted | entered | runs | shows | decides | informs | collects | stores | edits | concludes
    | givesUp =>
    rcases hland hm with h | h <;> cases h
  | puts m k step values =>
    rcases hland hm with h | h
    · cases hroute : route step values <;> rw [hroute] at h <;> cases h
    · cases h

namespace InCustody

/-- A call alters no case but that of its run. -/
theorem not_alters (h : InCustody V φ w) (hop : op.Routine)
    (hedge : Edge env op (φ i) call (w.perform env draws call).1 m) {v' : CaseView}
    (hview : (w.perform env draws call).2.view c = some v') (hrun : (φ i).inRun ≠ some c) :
    ¬call.Alters c := by
  intro halters
  rcases hedge.alters hop (h.grounded.addressed i) halters with ⟨-, heq⟩ | ⟨hm, rfl⟩
  · exact hrun heq
  · have hgone := h.grounded.gone i c hm
    cases (perform_writes env w draws (.deleteThread c)).caseChange (view_eq_some hview).1 with
    | kept _ _ _ hold =>
      rw [hgone] at hold
      cases hold

/-- A case that is seen after a call was seen before it, or has been created. -/
theorem view_back (h : InCustody V φ w) (hop : op.Routine)
    (hedge : Edge env op (φ i) call (w.perform env draws call).1 m) {v' : CaseView}
    (hview : (w.perform env draws call).2.view c = some v') :
    (∃ v, w.view c = some v ∧ ViewStep env c v call (w.perform env draws call).1 v') ∨
      c = w.store.nextUuid ∧ ∃ alert tenantId investigatorId,
        v' = ⟨w.store.newCase env.backend alert tenantId investigatorId, none, []⟩ := by
  by_cases hdrawn : c < w.store.nextUuid
  · refine .inl (view_perform call (fun halters => ?_) hdrawn hview)
    by_cases hrun : (φ i).inRun = some c
    · rcases hedge.alters hop (h.grounded.addressed i) halters with ⟨hfrom, -⟩ | ⟨hm, -⟩
      · exact hfrom
      · rw [hm] at hrun
        cases hrun
    · exact absurd halters (h.not_alters hop hedge hview hrun)
  · right
    have hnew {stored : CaseData} (hstored : w.store.cases.get? c = some stored) : False :=
      hdrawn (h.filed.keyed c stored hstored).2
    obtain ⟨hcase', hsaved', hsupplied'⟩ := view_eq_some hview
    obtain ⟨case', saved', supplied'⟩ := v'
    have hw := perform_writes env w draws call
    cases hw.caseChange hcase' with
    | kept _ _ _ hold => exact (hnew hold).elim
    | recommended _ _ _ hold => exact (hnew hold).elim
    | reviewed _ _ hold => exact (hnew hold).elim
    | status _ _ _ hold => exact (hnew hold).elim
    | created alertId tenantId investigatorId alert =>
      have hthread : saved' = none := by
        rw [show saved' = _ from hsaved']
        cases hthread : (w.perform env draws (.createCase alertId tenantId
          investigatorId)).2.store.threads.get? w.store.nextUuid with
        | none => rfl
        | some checkpoint =>
          cases hw.threadChange hthread with
          | kept _ _ _ hold => exact absurd (h.grounded.threads _ _ hold) hdrawn
      have hannounced : supplied' = [] := by
        rw [show supplied' = _ from hsupplied']
        rcases supplied_perform env w draws w.store.nextUuid
          (.createCase alertId tenantId investigatorId) with ⟨_, _, hcall, -⟩ | ⟨-, heq⟩
        · cases hcall
        · rw [heq]
          by_contra hne
          exact hdrawn (h.grounded.announced _ hne)
      subst hthread hannounced
      exact ⟨rfl, alert, tenantId, investigatorId, rfl⟩

/-- What a call of the run of a case leads to, and what is then known of the case. -/
theorem run_edge (h : InCustody V φ w) (hrules : CustodyRules env ok V)
    (hok : ok w draws call) (hrun : (φ i).inRun = some c)
    (hedge : Edge env op (φ i) call (w.perform env draws call).1 m) {v v' : CaseView}
    (hview : w.view c = some v) (hstep : ViewStep env c v call (w.perform env draws call).1 v') :
    m.OnThread v'.saved ∧ V c m v' := by
  obtain ⟨honThread, hknown⟩ := h.held i c v hrun hview
  refine ⟨honThread.edge hrun hedge hstep, ?_⟩
  by_cases hmoves : m = φ i → call.Alters c
  · exact hrules.edge c op _ call _ m v v' hrun honThread hknown hedge hstep
      ⟨w, draws, hview, hok, rfl⟩ hmoves
  · obtain ⟨rfl, halters⟩ := Classical.not_imp.mp hmoves
    rw [hstep.eq_of_not_alters halters]
    exact hknown

/-- A call keeps the custody of every case. -/
theorem acts (h : InCustody V φ w) (hrules : CustodyRules env ok V) (hop : op.Routine)
    (hok : ok w draws call)
    (hedge : Edge env op (φ i) call (w.perform env draws call).1 m) :
    InCustodyActing V i (Function.update φ i m) (w.perform env draws call).2 := by
  have hw := perform_writes env w draws call
  have hrun {j : ℕ} {c : UUID} (hj : (Function.update φ i m j).inRun = some c) :
      (φ j).inRun = some c := by
    by_cases hji : j = i
    · subst hji
      rw [Function.update_self] at hj
      rcases hedge.inRun with hnone | heq
      · rw [hnone] at hj
        cases hj
      · rwa [heq] at hj
    · rwa [Function.update_of_ne hji] at hj
  have hold {j : ℕ} {c : UUID} (hnames : (φ j).names = some c) {v' : CaseView}
      (hview : (w.perform env draws call).2.view c = some v') :
      ∃ v, w.view c = some v ∧ ViewStep env c v call (w.perform env draws call).1 v' := by
    rcases h.view_back hop hedge hview with hback | ⟨rfl, -⟩
    · exact hback
    · exact absurd (h.grounded.phases j _ hnames) (Nat.lt_irrefl _)
  refine ⟨⟨h.filed.edge hedge hw, ?_, h.grounded.edge h.filed hop hedge, ?_, ?_, ?_⟩, ?_⟩
  · rw [hw.history]
    exact h.registered.call hedge
  · intro j k c hj hk
    exact h.sole j k c (hrun hj) (hrun hk)
  · intro j c v' hj hview
    have hj' := hrun hj
    obtain ⟨v, hv, hstep⟩ :=
      hold (Phase.names_of_engaged (Phase.engaged_of_inRun hj')) hview
    by_cases hji : j = i
    · subst hji
      rw [Function.update_self]
      exact h.run_edge hrules hok hj' hedge hv hstep
    · rw [Function.update_of_ne hji]
      have hi : (φ i).inRun ≠ some c := fun hi => hji (h.sole j i c hj' hi)
      rw [hstep.eq_of_not_alters (h.not_alters hop hedge hview hi)]
      exact h.held j c v hj' hv
  · intro c v' hfree hview
    rcases h.view_back hop hedge hview with ⟨v, hv, hstep⟩ | ⟨rfl, alert, tenantId, investigatorId, rfl⟩
    · by_cases hi : (φ i).inRun = some c
      · have hm : m.inRun = none := by
          have hne := hfree i
          rw [Function.update_self] at hne
          exact hedge.inRun.resolve_right fun heq => hne (heq.trans hi)
        exact (hrules.rest c m v' hm).mp (h.run_edge hrules hok hi hedge hv hstep).2
      · rw [hstep.eq_of_not_alters (h.not_alters hop hedge hview hi)]
        refine h.free c v (fun j => ?_) hv
        by_cases hji : j = i
        · exact hji ▸ hi
        · have hne := hfree j
          rwa [Function.update_of_ne hji] at hne
    · exact hrules.created w.store alert tenantId investigatorId
  · intro c next hm hnext
    rw [Function.update_self] at hm
    have hnames : (φ i).names = some c := Phase.names_of_engaged (hedge.loaded hm)
    have halone (input : GraphInput) (hcall : call = .loadCheckpoint c input)
        (hruns : input.Runs (w.store.threads.get? c)) (j : ℕ) : (φ j).inRun ≠ some c := by
      subst hcall
      intro hj
      exact hrules.alone w draws _ hok hruns (j, c) (h.registered.running j c hj) rfl
    have hfree {v' : CaseView} (hview : (w.perform env draws call).2.view c = some v')
        (hcall : ∃ input, call = .loadCheckpoint c input) (hnone : ∀ j, (φ j).inRun ≠ some c) :
        w.view c = some v' ∧ V c (.idle false) v' := by
      obtain ⟨v, hv, hstep⟩ := hold hnames hview
      obtain ⟨input, rfl⟩ := hcall
      rw [hstep.eq_of_not_alters id]
      exact ⟨hv, h.free c v hnone hv⟩
    have hupdate (hnone : ∀ j, (φ j).inRun ≠ some c) (j : ℕ) :
        (Function.update φ i m j).inRun ≠ some c := fun hj => hnone j (hrun hj)
    rcases hedge.loaded_cases hw hm hnext with
      ⟨b, rfl, hb, rfl⟩ | ⟨value, values, last, step, rfl, hsaved, rfl⟩
    · have hnone := halone _ rfl trivial
      refine ⟨hupdate hnone, fun v' hview => ?_⟩
      obtain ⟨hv, hknown⟩ := hfree hview ⟨_, rfl⟩ hnone
      rw [← (view_eq_some hv).2.1]
      exact ⟨onThread_of_none rfl,
        hrules.entered c b v' _ ⟨w, draws, hv, hok, rfl⟩ hb hknown⟩
    · have hnone := halone _ rfl ⟨_, hsaved, rfl⟩
      refine ⟨hupdate hnone, fun v' hview => ?_⟩
      obtain ⟨hv, hknown⟩ := hfree hview ⟨_, rfl⟩ hnone
      have hthread : v'.saved = some ⟨values, last, some step⟩ :=
        (view_eq_some hv).2.1.trans hsaved
      refine ⟨?_, hrules.resumed c v' value _ values last step ⟨w, draws, hv, hok, rfl⟩ hthread hknown⟩
      rintro _ _ ⟨⟩
      exact ⟨last, hthread⟩

end InCustody

/-- A mark keeps the custody of every case. -/
theorem InCustodyActing.mark (h : InCustodyActing V i φ w) (hrules : CustodyRules env ok V)
    (hop : op.Routine) (hedge : MarkEdge i op (φ i) n m) :
    InCustodyActing V i (Function.update φ i m) (w.record n) := by
  have hrun {j : ℕ} {c : UUID} (hj : (Function.update φ i m j).inRun = some c) :
      (φ j).inRun = some c ∨ j = i ∧ φ i = .loaded c m := by
    by_cases hji : j = i
    · subst hji
      rw [Function.update_self] at hj
      exact (hedge.into_run hj).imp_right fun hm => ⟨rfl, hm⟩
    · rw [Function.update_of_ne hji] at hj
      exact .inl hj
  have hnext {c : UUID} (hi : (Function.update φ i m i).inRun = some c) : m.inRun = some c := by
    rwa [Function.update_self] at hi
  refine ⟨⟨h.filed.record n, h.registered.mark hedge, h.grounded.mark hop hedge, ?_, ?_, ?_⟩, ?_⟩
  · intro j k c hj hk
    rcases hrun hj with hj' | ⟨rfl, hm⟩
    · rcases hrun hk with hk' | ⟨rfl, hm⟩
      · exact h.sole j k c hj' hk'
      · exact absurd hj' ((h.loaded c m hm (hnext hk)).1 j)
    · rcases hrun hk with hk' | ⟨rfl, -⟩
      · exact absurd hk' ((h.loaded c m hm (hnext hj)).1 k)
      · rfl
  · intro j c v hj hview
    rw [view_record] at hview
    rcases hrun hj with hj' | ⟨rfl, hm⟩
    · by_cases hji : j = i
      · subst hji
        obtain ⟨honThread, hknown⟩ := h.held j c v hj' hview
        rw [Function.update_self]
        exact ⟨honThread.mark hj' hedge, hrules.mark c j op _ n m v hj' honThread hknown hedge⟩
      · rw [Function.update_of_ne hji]
        exact h.held j c v hj' hview
    · have hloaded := (h.loaded c m hm (hnext hj)).2 v hview
      rwa [Function.update_self]
  · intro c v hfree hview
    rw [view_record] at hview
    by_cases hi : (φ i).inRun = some c
    · obtain ⟨honThread, hknown⟩ := h.held i c v hi hview
      have hm : m.inRun = none := by
        have hne := hfree i
        rw [Function.update_self] at hne
        exact (hedge.from_run hi).resolve_right hne
      exact (hrules.rest c m v hm).mp (hrules.mark c i op _ n m v hi honThread hknown hedge)
    · refine h.free c v (fun j => ?_) hview
      by_cases hji : j = i
      · exact hji ▸ hi
      · have hne := hfree j
        rwa [Function.update_of_ne hji] at hne
  · intro c next hm hrunning
    rw [Function.update_self] at hm
    obtain ⟨hφ, execution, rfl⟩ := hedge.into_loaded hm
    obtain ⟨hnone, hknown⟩ := h.loaded c next hφ hrunning
    refine ⟨fun j hj => ?_, hknown⟩
    rcases hrun hj with hj' | ⟨rfl, -⟩
    · exact hnone j hj'
    · have hmrun := hnext hj
      rw [hm] at hmrun
      cases hmrun

end Custody

/-- Routine requests keep the custody of every case. -/
theorem custody_keeps {env : EngineEnvironment} {ok : EngineWorld → EngineDraws → EngineCall → Prop}
    {V : UUID → Phase → CaseView → Prop} (hrules : CustodyRules env ok V) :
    (routineChart env).Keeps (engineSystem env) (RoutineMoves ok) (InCustody V)
      (InCustodyActing V) where
  serves _ _ h := h
  start := by
    intro p op φ htraces _ h
    refine ⟨⟨h.filed.enroll op, h.registered.enroll op, h.grounded.enroll op, h.sole, ?_, ?_⟩, ?_⟩
    · intro i c v hi hview
      rw [show ((engineSystem env).enroll p.tasks.length op p.world).view c = p.world.view c from
        view_enroll op p.world c] at hview
      exact h.held i c v hi hview
    · intro c v hfree hview
      rw [show ((engineSystem env).enroll p.tasks.length op p.world).view c = p.world.view c from
        view_enroll op p.world c] at hview
      exact h.free c v hfree hview
    · intro c next hm
      rw [htraces.unstarted _ (Nat.le_refl _)] at hm
      cases hm
  expected _ _ _ _ c _ _ _ _ _ h := h.filed.expected c
  call := by
    intro p i draws op call k φ m hφ htask hallowed h hedge
    exact h.acts hrules (hφ.follows i _ htask).1 (hallowed call (by simp [Pool.awaits, htask])) hedge
  mark := by
    intro i op n φ m w hop h hedge
    exact h.mark hrules hop hedge
  settled _ _ _ h := h.toInCustody

/-- On an idle engine every case is in custody. -/
theorem inCustody_idle {V : UUID → Phase → CaseView → Prop} (bank : SyntheticBank) :
    InCustody V (fun _ => .idle false) (idleEngine bank).world :=
  ⟨filed_empty, Registered.idle _, Grounded.idle bank, fun _ _ _ h => (by cases h),
    fun _ _ _ h => (by cases h), fun _ _ _ h => (by cases h)⟩

/-- What is known of the cases that routine requests reach. -/
theorem custody_reaches {env : EngineEnvironment}
    {ok : EngineWorld → EngineDraws → EngineCall → Prop} {V : UUID → Phase → CaseView → Prop}
    (hrules : CustodyRules env ok V) {bank : SyntheticBank} {p : EnginePool}
    (hreach : (engineSystem env).Reaches (RoutineMoves ok) (idleEngine bank) p) :
    ∃ φ, (routineChart env).Traces p φ ∧ InCustody V φ p.world :=
  (custody_keeps hrules).reaches (routineChart_covers env) (idleEngine_routine env bank)
    (inCustody_idle bank) hreach

end Amlguard
