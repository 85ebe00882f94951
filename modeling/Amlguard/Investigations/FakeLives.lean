import Amlguard.Investigations.FakePools
import Amlguard.Investigations.PolicyProvenance
import Amlguard.Library.Transitions

/-!
# The life of a case with the deterministic model

A case is started, and then information is supplied and reviews are made, one operation after
another, on an engine that has been used in any way before. When no call fails from outside, the case
waits for information exactly when the bank makes the model ask and nothing has been supplied, and
waits for human review otherwise, until a stage raises or a review completes the case.
-/

namespace Amlguard

open Awaited Prog Policy FakeStructuredLLM

/-- A program is executed on its own, no call fails from outside, and the model is deterministic. -/
abbrev WithFake {α : Type} (env : EngineEnvironment) (py : PyBuiltins) (p : Investigation α)
    (w : EngineWorld) (r : Except PyError α) (w' : EngineWorld) : Prop :=
  p.Executes (engineSystem env).toMachine
    (fun _ draws call => ¬draws.failure.Raises ∧ FakeAnswers py draws call) w r w'

/-- What a run has written last is what is stored, and every draft that is not among the earlier ones
has been validated, or is still to be. -/
structure Tracked (py : PyBuiltins) (bank : SyntheticBank) (earlier : List (UUID × ℕ)) (m : Wake)
    (w : EngineWorld) : Prop where
  passing : Passing py bank w
  status : ∀ c status, m.status = some (c, status) →
    ∀ case, w.store.cases.get? c = some case → case.status = status
  checkpoint : ∀ c checkpoint, m.checkpoint = some (c, checkpoint) →
    w.store.threads.get? c = some checkpoint
  drafted : ∀ c version, (c, version) ∈ w.store.history.drafted → (c, version) ∈ earlier ∨
    m.pending = some (c, version) ∨
      ∃ validation, (c, some version, validation) ∈ w.store.history.decided

section Tracking

variable {py : PyBuiltins} {bank : SyntheticBank} {env : EngineEnvironment}
  {earlier : List (UUID × ℕ)} {m m' : Wake} {w w' : EngineWorld} {draws : EngineDraws}
  {call : EngineCall} {α : Type}

/-- A call that is not tracked changes no status and no thread. -/
theorem Writes.of_untracked {s s' : Store} {r : Except PyError call.Reply}
    (hw : Writes env s call r s') (hcall : call.Untracked) :
    s'.threads = s.threads ∧ ∀ c case', s'.cases.get? c = some case' →
      ∃ case, s.cases.get? c = some case ∧ case'.status = case.status := by
  constructor
  · cases hw with
    | unchanged | got | loaded | located | deleted | recommended | reviewed => rfl
    | created | status | put | updated | forgotten => exact hcall.elim
  · intro c case' hcase'
    cases hw.caseChange hcase' with
    | kept _ _ _ hold => exact ⟨case', hold, rfl⟩
    | created | status => exact hcall.elim
    | recommended _ recommendation old hold => exact ⟨old, hold, rfl⟩
    | reviewed review old hold => exact ⟨old, hold, rfl⟩

/-- A case that is created has no thread yet. -/
theorem Writes.threads_of_createCase {s s' : Store} {alertId tenantId investigatorId : String}
    {r : Except PyError (CaseData × Bool)}
    (hw : Writes env s (.createCase alertId tenantId investigatorId) r s') : s'.threads = s.threads := by
  cases hw <;> rfl

namespace Tracked

/-- A call whose effects on statuses and threads are tracked. -/
theorem of_writes (h : Tracked py bank earlier m w) (hcall : MayWrite py bank call)
    (hpending : m'.pending = m.pending)
    (hstatus : ∀ c status, m'.status = some (c, status) → ∀ case,
      (w.perform env draws call).2.store.cases.get? c = some case → case.status = status)
    (hcheckpoint : ∀ c checkpoint, m'.checkpoint = some (c, checkpoint) →
      (w.perform env draws call).2.store.threads.get? c = some checkpoint) :
    Tracked py bank earlier m' (w.perform env draws call).2 := by
  refine ⟨h.passing.perform draws hcall, hstatus, hcheckpoint, ?_⟩
  rw [hpending, (perform_writes env w draws call).history]
  exact h.drafted

/-- What is tracked after a call that does not fail. -/
theorem perform (h : Tracked py bank earlier m w) (hquiet : ¬draws.failure.Raises)
    (hcall : MayWrite py bank call) :
    Tracked py bank earlier (m.after call (w.perform env draws call).1)
      (w.perform env draws call).2 := by
  have hw := perform_writes env w draws call
  by_cases huntracked : call.Untracked
  · obtain ⟨hthreads, hcases⟩ := hw.of_untracked huntracked
    rw [huntracked.after]
    apply h.of_writes hcall rfl
    · intro c status hstatus case hcase
      obtain ⟨old, hold, heq⟩ := hcases c case hcase
      rw [heq]
      exact h.status c status hstatus old hold
    · intro c checkpoint hcheckpoint
      rw [hthreads]
      exact h.checkpoint c checkpoint hcheckpoint
  have heffect : w.perform env draws call = w.effect env draws call := perform_of_not_raises hquiet
  cases call with
  | setStatus c status =>
    cases hstored : w.store.cases.get? c with
    | none =>
      have hsame : w.effect env draws (.setStatus c status) = (.error (env.backend.noCase c), w) := by
        simp [EngineWorld.effect, EngineWorld.onStore, Store.setStatus, Store.updateCase, hstored]
      rw [heffect, hsame]
      exact h
    | some stored =>
      have hset : w.effect env draws (.setStatus c status) = (.ok (), { w with
          store := { w.store with cases := w.store.cases.set c { stored with status } } }) := by
        simp [EngineWorld.effect, EngineWorld.onStore, Store.setStatus, Store.updateCase, hstored]
      apply h.of_writes hcall
      · rw [heffect, hset]
        rfl
      · rw [heffect, hset]
        rintro c' status' ⟨⟩ case hcase
        change (w.store.cases.set c { stored with status }).get? c = some case at hcase
        rw [Dict.get?_set_self] at hcase
        cases hcase
        rfl
      · rw [heffect, hset]
        exact h.checkpoint
  | putCheckpoint c checkpoint =>
    apply h.of_writes hcall
    · rw [heffect]
      rfl
    · rw [heffect]
      exact h.status
    · rw [heffect]
      rintro c' checkpoint' ⟨⟩
      exact Dict.get?_set_self _ _ _
  | createCase alertId tenantId investigatorId =>
    apply h.of_writes hcall
    · rfl
    · intro c status hstatus
      cases hstatus
    · intro c checkpoint hcheckpoint
      rw [hw.threads_of_createCase]
      exact h.checkpoint c checkpoint hcheckpoint
  | deleteThread c =>
    apply h.of_writes hcall
    · cases (w.perform env draws (.deleteThread c)).1 <;> rfl
    · rw [heffect]
      exact h.status
    · intro c' checkpoint hcheckpoint
      cases hcheckpoint
  | updateState => exact hcall.elim
  | getCase | deleteCase | getAlert | getCustomer | getKyc | getTransactions | saveRecommendation
    | saveReview | audit | trajectoryHook | stageHook | recommend | uuid4 | toolExecutions
    | loadCheckpoint | getState => exact absurd trivial huntracked

/-- What is tracked after a mark. -/
theorem record (h : Tracked py bank earlier m w) {n : EngineMark} (hn : m.Marks n m') :
    Tracked py bank earlier m' (w.record n) := by
  have hpassing := h.passing.record hn
  have hkept (hsame : m'.status = m.status ∧ m'.checkpoint = m.checkpoint)
      (hdrafted : ∀ c version, (c, version) ∈ (w.record n).store.history.drafted →
        (c, version) ∈ earlier ∨ m'.pending = some (c, version) ∨
          ∃ validation, (c, some version, validation) ∈ (w.record n).store.history.decided) :
      Tracked py bank earlier m' (w.record n) := by
    refine ⟨hpassing, ?_, ?_, hdrafted⟩
    · rw [hsame.1, record_cases]
      exact h.status
    · rw [hsame.2, record_threads]
      exact h.checkpoint
  cases n with
  | executed execution =>
    obtain ⟨-, rfl⟩ := hn
    exact hkept ⟨rfl, rfl⟩ h.drafted
  | drafted c version =>
    obtain ⟨hnone, rfl⟩ := hn
    apply hkept ⟨rfl, rfl⟩
    intro c' version' hmem
    rcases List.mem_cons.mp hmem with hnew | hold
    · cases hnew
      exact .inr (.inl rfl)
    · rcases h.drafted c' version' hold with hearlier | hpending | hdecided
      · exact .inl hearlier
      · rw [hnone] at hpending
        cases hpending
      · exact .inr (.inr hdecided)
  | decided c version validation =>
    obtain ⟨-, hdraft, rfl⟩ := hn
    apply hkept ⟨rfl, rfl⟩
    intro c' version' hmem
    rcases h.drafted c' version' hmem with hearlier | hpending | ⟨validation', hdecided⟩
    · exact .inl hearlier
    · obtain ⟨rfl, rfl⟩ := hdraft _ hpending
      exact .inr (.inr ⟨validation, List.mem_cons_self⟩)
    · exact .inr (.inr ⟨validation', List.mem_cons_of_mem _ hdecided⟩)
  | admitted | loaded | resetting | left | reviewed =>
    obtain rfl : m' = m := hn
    exact hkept ⟨rfl, rfl⟩ h.drafted

end Tracked

/-- A program that is executed on its own ends as its walk says, and what it has written is tracked. -/
theorem WithFake.walks {p : Investigation α} {r : Except PyError α} (h : WithFake env py p w r w')
    {post : Except PyError α → Wake → Prop} (hp : Walks py bank p post m)
    (htracked : Tracked py bank earlier m w) : ∃ m', post r m' ∧ Tracked py bank earlier m' w' := by
  apply Executes.follows (D := fakePath py bank) (I := Tracked py bank earlier) _ _ h hp htracked
  · rintro m w draws call ⟨hquiet, hfake⟩ htracked
    refine ⟨htracked.passing.answered hfake, ?_⟩
    rintro _ ⟨hcall, rfl⟩
    exact htracked.perform hquiet hcall
  · intro m n m' w htracked hn
    exact htracked.record hn

/-- No call fails from outside. -/
theorem WithFake.unperturbed {p : Investigation α} {r : Except PyError α}
    (h : WithFake env py p w r w') : Unperturbed env p w r w' :=
  h.mono fun _ _ _ hok => hok.1

end Tracking

/-- What a request on a case at rest leaves behind. -/
structure AtRest (py : PyBuiltins) (bank : SyntheticBank) (earlier : List (UUID × ℕ))
    (b : CaseBinding) (supplied reviewed : Prop) (w : EngineWorld) : Prop where
  stored : Stored b.caseId w
  tracked : ∃ m, Tracked py bank earlier m w ∧ m.Left py bank b supplied reviewed

section Requests

open LangGraphInvestigationEngine

variable {py : PyBuiltins} {bank : SyntheticBank} {env : EngineEnvironment}
  {earlier : List (UUID × ℕ)} {b : CaseBinding} {supplied reviewed : Prop} {m : Wake}
  {w w' : EngineWorld} {task : ℕ} {α : Type}

/-- `_to_run` reads the case and its thread. -/
theorem toRun_reads {c : UUID} {case : CaseData} {r : Except PyError InvestigationRun}
    (hcase : w.store.cases.get? c = some case) (hid : case.caseId = c)
    (h : Unperturbed env (toRun c) w r w') :
    r = .ok (runOf (env.backend.served case) (w.store.threads.get? c)) ∧ w = w' := by
  obtain ⟨_, _, hget, h⟩ := executes_bind.mp h
  obtain ⟨draws, heffect⟩ := unperturbed_invoke hget
  rw [effect_getCase hcase] at heffect
  cases heffect
  obtain ⟨_, _, hstate, h⟩ := executes_bind.mp h
  obtain ⟨draws, heffect⟩ := unperturbed_invoke hstate
  rw [served_caseId, hid] at heffect
  cases heffect
  exact executes_pure.mp h

/-- The span of an operation is executed as its body is. -/
theorem admittedTo_executes {ok : EngineWorld → EngineDraws → EngineCall → Prop} {c : UUID}
    {p : Investigation α} {r : Except PyError α}
    (h : (admittedTo task c p).Executes (engineSystem env).toMachine ok w r w') :
    ∃ w₁, p.Executes (engineSystem env).toMachine ok (w.record (.admitted task c)) r w₁ ∧
      w' = w₁.record (.left task c) := by
  obtain ⟨_, _, hjot, h⟩ := executes_bind.mp h
  obtain ⟨rfl, rfl⟩ := executes_note.mp hjot
  obtain ⟨r₁, w₁, hp, h⟩ := executes_finally'.mp h
  obtain ⟨_, _, hleft, h⟩ := executes_bind.mp h
  obtain ⟨rfl, rfl⟩ := executes_note.mp hleft
  obtain ⟨rfl, rfl⟩ := executes_settleResult.mp h
  exact ⟨w₁, hp, rfl⟩

/-- A mark of an operation leaves the case at rest. -/
theorem AtRest.record (h : AtRest py bank earlier b supplied reviewed w) {n : EngineMark}
    (hn : ∀ m : Wake, m.Marks n m) : AtRest py bank earlier b supplied reviewed (w.record n) := by
  obtain ⟨⟨case, hcase⟩, m, htracked, hleft⟩ := h
  refine ⟨⟨case, ?_⟩, m, htracked.record (hn m), hleft⟩
  rw [record_cases]
  exact hcase

/-- What a resumed run leaves behind. -/
theorem resume_atRest (supplied' reviewed' : Prop) {value : Resume} {r : Except PyError Unit}
    (h : AtRest py bank earlier b supplied reviewed w)
    (hnothing : ∀ checkpoint, w.store.threads.get? b.caseId = some checkpoint →
      checkpoint.next = none → supplied = supplied' ∧ (reviewed → reviewed'))
    (hsomething : ∀ checkpoint stage, w.store.threads.get? b.caseId = some checkpoint →
      checkpoint.next = some stage →
        suppliedAfter stage (some value) supplied = supplied' ∧ (Reviews (some value) → reviewed'))
    (hrun : WithFake env py (ainvoke env task b.caseId (.resume value)) w r w') :
    r = .ok () ∧ AtRest py bank earlier b supplied' reviewed' w' := by
  obtain ⟨hstored, m, htracked, hleft⟩ := h
  have hend := hleft
  obtain ⟨checkpoint, hcheckpoint, -, hbinding, hrests, hpending⟩ := hleft
  have hsaved := htracked.checkpoint _ _ hcheckpoint
  obtain ⟨hr, hstored'⟩ := unperturbed_resume hrun.unperturbed hstored htracked.passing.filed (by
    rintro ⟨checkpoint', hsaved', -, hnone⟩
    cases hsaved.symm.trans hsaved'
    cases hbinding.symm.trans hnone)
  refine ⟨hr, hstored', ?_⟩
  subst hr
  obtain ⟨_, _, hload, hrun⟩ := executes_bind.mp hrun
  obtain ⟨draws, heffect⟩ := unperturbed_invoke (WithFake.unperturbed hload)
  cases heffect
  obtain ⟨_, _, hjot, hrun⟩ := executes_bind.mp hrun
  obtain ⟨rfl, rfl⟩ := executes_note.mp hjot
  have htracked' : Tracked py bank earlier m (w.record (.loaded task b.caseId)) := htracked.record rfl
  obtain ⟨values, last, next⟩ := checkpoint
  rw [hsaved] at hrun
  cases next with
  | none =>
    obtain ⟨-, rfl⟩ := executes_pure.mp hrun
    obtain ⟨rfl, hreviewed⟩ := hnothing _ hsaved rfl
    exact ⟨m, htracked', hend.mono hreviewed⟩
  | some stage =>
    cases hrests with
    | failed hnext | completed hnext => cases hnext
    | waits stage' hnext hstage hfit =>
      cases hnext
      obtain ⟨rfl, hreviewed⟩ := hsomething _ stage hsaved rfl
      have hnone : m.pending = none := by
        apply hpending
        rcases hstage with rfl | rfl
        · rw [(hfit.asks rfl).1]
          decide
        · rw [(hfit.answers rfl).1]
          decide
      have hdrive : Walks py bank (drive env b.caseId recursionLimit stage (some value) values)
          (fun r m' => r = .ok () →
            m'.Left py bank b (suppliedAfter stage (some value) supplied) (Reviews (some value))) m :=
        drive_walks recursionLimit hfit (fun draft hdraft => absurd (hnone.symm.trans hdraft) nofun) nofun
      obtain ⟨m', hpost, htracked''⟩ := WithFake.walks hrun hdrive htracked'
      exact ⟨m', htracked'', (hpost rfl).mono hreviewed⟩

/-- Whether a case waits for what the model asks for. -/
def Awaits (asks : Prop) (status : CaseStatus) : Prop :=
  asks ∧ status = .waitingForInformation ∨ ¬asks ∧ status = .waitingForHumanReview

/-- A run has failed with a recorded error. -/
def InvestigationRun.Failed (run : InvestigationRun) : Prop := run.status = .failed ∧ run.errors ≠ []

/-- What is read of a case at rest. -/
theorem AtRest.read (h : AtRest py bank earlier b supplied reviewed w) :
    ∃ case checkpoint, w.store.cases.get? b.caseId = some case ∧ case.caseId = b.caseId ∧
      w.store.threads.get? b.caseId = some checkpoint ∧ case.status = checkpoint.values.status ∧
      checkpoint.Rests py bank b supplied reviewed ∧
      (case.status = .failed ∧ checkpoint.values.errors ≠ [] ∨ case.status = .completed ∧ reviewed ∨
        Awaits (bank.Asks py b.alertId b.customerId supplied) case.status) := by
  obtain ⟨⟨case, hcase⟩, m, htracked, checkpoint, hcheckpoint, hstatus, -, hrests, -⟩ := h
  have heq := htracked.status _ _ hstatus case hcase
  refine ⟨case, checkpoint, hcase, (htracked.passing.filed.keyed _ _ hcase).1,
    htracked.checkpoint _ _ hcheckpoint, heq, hrests, ?_⟩
  rw [heq]
  cases hrests with
  | failed hnext hfailed herrors => exact .inl ⟨hfailed, herrors⟩
  | completed hnext hcompleted hreviewed => exact .inr (.inl ⟨hcompleted, hreviewed⟩)
  | waits stage hnext hstage hfit =>
    rcases hstage with rfl | rfl
    · exact .inr (.inr (.inl ⟨(hfit.asks rfl).2, (hfit.asks rfl).1⟩))
    · exact .inr (.inr (.inr ⟨(hfit.answers rfl).2, (hfit.answers rfl).1⟩))

/-- A case at rest that waits for information goes on with `collect_information`. -/
theorem AtRest.next_of_waiting (h : AtRest py bank earlier b supplied reviewed w) {case : CaseData}
    (hcase : w.store.cases.get? b.caseId = some case) (hstatus : case.status = .waitingForInformation) :
    ∃ checkpoint, w.store.threads.get? b.caseId = some checkpoint ∧
      checkpoint.next = some .collectInformation := by
  obtain ⟨case', checkpoint, hcase', -, hsaved, heq, hrests, -⟩ := h.read
  cases hcase.symm.trans hcase'
  rw [hstatus] at heq
  refine ⟨checkpoint, hsaved, ?_⟩
  cases hrests with
  | failed hnext hfailed | completed hnext hfailed =>
    rw [hfailed] at heq
    cases heq
  | waits stage hnext hstage hfit =>
    rcases hstage with rfl | rfl
    · exact hnext
    · rw [(hfit.answers rfl).1] at heq
      cases heq

/-- The result of an operation that leaves a case at rest. -/
theorem AtRest.toRun (h : AtRest py bank earlier b supplied reviewed w)
    {r : Except PyError InvestigationRun}
    (hrun : WithFake env py (LangGraphInvestigationEngine.toRun b.caseId) w r w') :
    w = w' ∧ ∃ run, r = .ok run ∧ run.caseId = b.caseId ∧ (run.Failed ∨
      run.status = .completed ∧ reviewed ∨
        Awaits (bank.Asks py b.alertId b.customerId supplied) run.status) := by
  obtain ⟨case, checkpoint, hcase, hid, hsaved, -, -, hends⟩ := h.read
  obtain ⟨rfl, rfl⟩ := toRun_reads hcase hid hrun.unperturbed
  refine ⟨rfl, _, rfl, (served_caseId _ _).trans hid, ?_⟩
  rw [hsaved]
  change (env.backend.served case).status = .failed ∧ checkpoint.values.errors ≠ [] ∨
    (env.backend.served case).status = .completed ∧ reviewed ∨
      Awaits _ (env.backend.served case).status
  rw [served_status]
  exact hends

/-- A check either raises at once or passes. -/
theorem executes_raiseIf_bind {ok : EngineWorld → EngineDraws → EngineCall → Prop} {P : Prop}
    [Decidable P] {e : PyError} {f : Unit → Investigation α} {r : Except PyError α}
    (h : (computed (raiseIf P e) >>= f).Executes (engineSystem env).toMachine ok w r w') :
    P ∧ r = .error e ∧ w = w' ∨ ¬P ∧ (f ()).Executes (engineSystem env).toMachine ok w r w' := by
  obtain ⟨r₁, w₁, hcomputed, h⟩ := executes_bind.mp h
  obtain ⟨rfl, rfl⟩ := executes_settleResult.mp hcomputed
  by_cases hP : P
  · rw [raiseIf, if_pos hP] at h
    exact .inl ⟨hP, h⟩
  · rw [raiseIf, if_neg hP] at h
    exact .inr ⟨hP, h⟩

/-- A read case and what follows it. -/
theorem executes_getCase_bind {f : CaseData → Investigation α} {r : Except PyError α}
    {case : CaseData} {c : UUID} (hcase : w.store.cases.get? c = some case)
    (h : WithFake env py (invoke (.getCase c) >>= f) w r w') :
    WithFake env py (f (env.backend.served case)) w r w' := by
  obtain ⟨_, _, hget, h⟩ := executes_bind.mp h
  obtain ⟨draws, heffect⟩ := unperturbed_invoke (WithFake.unperturbed hget)
  rw [effect_getCase hcase] at heffect
  cases heffect
  exact h

/-- A submission to a case that does not wait for it changes nothing. -/
theorem supply_refused {submission : Submission} {r : Except PyError InvestigationRun}
    {case : CaseData} (hcase : w.store.cases.get? b.caseId = some case)
    (hstatus : case.status ≠ .waitingForInformation)
    (hrun : WithFake env py (supplyInformation env task b.caseId submission) w r w') :
    Refuses r ∧ w = w' := by
  rcases executes_raiseIf_bind (executes_getCase_bind hcase hrun) with ⟨-, rfl, rfl⟩ | ⟨hwaits, -⟩
  · exact ⟨⟨_, rfl⟩, rfl⟩
  · rw [served_status] at hwaits
    exact absurd hstatus hwaits

/-- A submission to a case that waits for it returns, and leaves the case at rest. -/
theorem supply_atRest {submission : Submission} {r : Except PyError InvestigationRun}
    {case : CaseData} (h : AtRest py bank earlier b supplied reviewed w)
    (hcase : w.store.cases.get? b.caseId = some case) (hstatus : case.status = .waitingForInformation)
    (hrun : WithFake env py (supplyInformation env task b.caseId submission) w r w') :
    AtRest py bank earlier b True False w' ∧ ∃ run, r = .ok run ∧ run.caseId = b.caseId ∧
      (run.Failed ∨ Awaits (bank.Asks py b.alertId b.customerId True) run.status) := by
  rcases executes_raiseIf_bind (executes_getCase_bind hcase hrun) with ⟨hne, -⟩ | ⟨-, hrun⟩
  · rw [served_status] at hne
    exact absurd hstatus hne
  have hid : case.caseId = b.caseId := by
    obtain ⟨case', _, hcase', hid, -⟩ := h.read
    cases hcase.symm.trans hcase'
    exact hid
  rw [served_caseId, hid] at hrun
  obtain ⟨_, w₁, hadmitted, hrun⟩ := executes_bind.mp hrun
  obtain ⟨w₂, hresume, rfl⟩ := admittedTo_executes hadmitted
  obtain ⟨checkpoint, hsaved, hnext⟩ := h.next_of_waiting hcase hstatus
  have hthread : (w.record (.admitted task b.caseId)).store.threads.get? b.caseId = some checkpoint := by
    rw [record_threads]
    exact hsaved
  have hrested : AtRest py bank earlier b supplied reviewed (w.record (.admitted task b.caseId)) :=
    h.record fun _ => rfl
  obtain ⟨rfl, hlater⟩ := resume_atRest True False hrested
    (fun checkpoint' hsaved' hnone => by
      cases hthread.symm.trans hsaved'
      rw [hnext] at hnone
      cases hnone)
    (fun checkpoint' stage hsaved' hstage => by
      cases hthread.symm.trans hsaved'
      rw [hnext] at hstage
      cases hstage
      exact ⟨rfl, nofun⟩) hresume
  have hleft : AtRest py bank earlier b True False (w₂.record (.left task b.caseId)) :=
    hlater.record fun _ => rfl
  obtain ⟨rfl, run, rfl, hrunId, hends⟩ := hleft.toRun hrun
  exact ⟨hleft, run, rfl, hrunId, hends.imp_right fun h => h.resolve_left fun h => h.2⟩

/-- A review leaves the case at rest. -/
theorem review_atRest {request : HumanReview} {r : Except PyError InvestigationRun}
    (h : AtRest py bank earlier b supplied reviewed w) (hrequest : request.caseId = b.caseId)
    (hrun : WithFake env py (review env task request) w r w') :
    AtRest py bank earlier b supplied True w' := by
  have hmono : AtRest py bank earlier b supplied True w := by
    obtain ⟨hstored, m, htracked, hleft⟩ := h
    exact ⟨hstored, m, htracked, hleft.mono fun _ => trivial⟩
  obtain ⟨case, checkpoint, hcase, hid, -⟩ := h.read
  rw [← hrequest] at hcase hid
  have hrun := executes_getCase_bind hcase hrun
  rcases executes_raiseIf_bind hrun with ⟨-, -, rfl⟩ | ⟨-, hrun⟩
  · exact hmono
  rcases executes_raiseIf_bind hrun with ⟨-, -, rfl⟩ | ⟨-, hrun⟩
  · exact hmono
  rw [served_caseId, hid, hrequest] at hrun
  obtain ⟨_, w₁, hadmitted, hrun⟩ := executes_bind.mp hrun
  obtain ⟨w₂, hresume, rfl⟩ := admittedTo_executes hadmitted
  have hrested : AtRest py bank earlier b supplied True (w.record (.admitted task b.caseId)) :=
    hmono.record fun _ => rfl
  obtain ⟨rfl, hlater⟩ := resume_atRest supplied True hrested
    (fun _ _ _ => ⟨rfl, fun _ => trivial⟩)
    (fun _ stage _ _ => ⟨by cases stage <;> rfl, fun _ => trivial⟩) hresume
  have hleft : AtRest py bank earlier b supplied True (w₂.record (.left task b.caseId)) :=
    hlater.record fun _ => rfl
  obtain ⟨rfl, -⟩ := hleft.toRun hrun
  exact hleft

/-- The tenant has no case for the alert. -/
def Unclaimed (alertId tenantId : String) (w : EngineWorld) : Prop :=
  ∀ case ∈ w.store.cases.values, ¬(case.alertId = alertId ∧ case.tenantId = tenantId)

instance (alertId tenantId : String) (w : EngineWorld) : Decidable (Unclaimed alertId tenantId w) :=
  inferInstanceAs (Decidable (∀ case ∈ w.store.cases.values, _))

/-- A case is created for an alert of the bank that the tenant has no case for. -/
theorem effect_createCase {alertId tenantId investigatorId : String} {alert : SyntheticAlert}
    (halert : w.bank.alerts.find? (fun alert => alert.alertId == alertId) = some alert)
    (hunclaimed : Unclaimed alertId tenantId w) (draws : EngineDraws) {case : CaseData}
    (hcase : case = w.store.newCase env.backend alert tenantId investigatorId) :
    w.effect env draws (.createCase alertId tenantId investigatorId) =
      (.ok (case, true), { w with store := w.store.insertCase case }) := by
  have hnone : (w.store.cases.values.find? fun case =>
      case.alertId == alertId && case.tenantId == tenantId) = none := by
    apply List.find?_eq_none.mpr
    intro case hcase
    simpa using hunclaimed case hcase
  have hresolved : w.store.resolveCase env w.bank alertId tenantId investigatorId = .ok (.inr alert) := by
    simp only [Store.resolveCase, Store.existingCase, hnone, halert]
    cases env.backend <;> rfl
  subst hcase
  simp only [EngineWorld.effect, EngineWorld.onStore, Store.createCase, hresolved]

/-- A run from a new input of a stored case returns. -/
theorem unperturbed_start {r : Except PyError Unit} (hw : Stored b.caseId w)
    (h : Unperturbed env (ainvoke env task b.caseId (.start b)) w r w') :
    r = .ok () ∧ Stored b.caseId w' := by
  obtain ⟨_, _, hload, h⟩ := executes_bind.mp h
  obtain ⟨draws, heffect⟩ := unperturbed_invoke hload
  cases heffect
  obtain ⟨_, _, hjot, h⟩ := executes_bind.mp h
  obtain ⟨rfl, rfl⟩ := executes_note.mp hjot
  obtain ⟨_, _, hput, h⟩ := executes_bind.mp h
  obtain ⟨draws, heffect⟩ := unperturbed_invoke hput
  cases heffect
  apply unperturbed_drive _ _ h hw
  · decide
  · rfl

/-- Nothing has been written yet, and all drafts are earlier ones. -/
theorem Passing.tracked (h : Passing py bank w) :
    Tracked py bank w.store.history.drafted {} w where
  passing := h
  status _ _ hstatus := by cases hstatus
  checkpoint _ _ hcheckpoint := by cases hcheckpoint
  drafted _ _ hdrafted := .inl hdrafted

/-- The start of a case that has not been created before returns, and leaves the case at rest. -/
theorem start_atRest {alertId actorId tenantId contextCondition : String} {alert : SyntheticAlert}
    {r : Except PyError InvestigationRun} (hpassing : Passing py bank w)
    (halert : bank.alerts.find? (fun alert => alert.alertId == alertId) = some alert)
    (hunclaimed : Unclaimed alertId tenantId w)
    (hrun : WithFake env py (start env task alertId actorId tenantId contextCondition) w r w') :
    ∃ b run, b.alertId = alertId ∧ b.customerId = alert.customerId ∧
      AtRest py bank w.store.history.drafted b False False w' ∧ r = .ok run ∧ run.caseId = b.caseId ∧
        (run.Failed ∨ Awaits (bank.Asks py b.alertId b.customerId False) run.status) := by
  obtain ⟨r₁, w₁, hcreate, hrun⟩ := executes_bind.mp hrun
  have hwalks : Walks py bank (invoke (.createCase alertId tenantId actorId))
      (fun _ m => m.pending = none) {} :=
    (Diagram.follows_call (D := fakePath py bank) _ _ _).mpr fun _ _ => ⟨_, ⟨trivial, rfl⟩, rfl⟩
  obtain ⟨m, hpending, htracked⟩ := WithFake.walks hcreate hwalks hpassing.tracked
  obtain ⟨draws, heffect⟩ := unperturbed_invoke (WithFake.unperturbed hcreate)
  rw [← hpassing.bank_eq] at halert
  generalize hcase : w.store.newCase env.backend alert tenantId actorId = case at *
  rw [effect_createCase halert hunclaimed draws hcase.symm] at heffect
  cases heffect
  change WithFake env py (runPrepared env task case actorId contextCondition) _ r w' at hrun
  obtain ⟨_, w₂, hadmitted, hrun⟩ := executes_bind.mp hrun
  obtain ⟨w₃, hinvoke, rfl⟩ := admittedTo_executes hadmitted
  let b : CaseBinding :=
    ⟨case.runId, case.caseId, case.alertId, case.customerId, actorId, contextCondition⟩
  have hstored : Stored b.caseId
      (EngineWorld.record (.admitted task case.caseId)
        { w with store := w.store.insertCase case }) :=
    ⟨case, Dict.get?_set_self _ _ _⟩
  obtain ⟨rfl, hstored'⟩ := unperturbed_start hstored (WithFake.unperturbed hinvoke)
  have hgraph : Walks py bank (ainvoke env task b.caseId (.start b)) (runLeft py bank (.start b)) m :=
    ainvoke_walks (fun b' hb' => by cases hb'; rfl) hpending
  obtain ⟨m', hleft, htracked'⟩ := WithFake.walks hinvoke hgraph (htracked.record rfl)
  have hrest : AtRest py bank w.store.history.drafted b False False
      (w₃.record (.left task case.caseId)) :=
    AtRest.record ⟨hstored', m', htracked', hleft rfl⟩ fun _ => rfl
  obtain ⟨rfl, run, rfl, hid, hends⟩ := hrest.toRun hrun
  refine ⟨b, run, ?_, ?_, hrest, rfl, hid, hends.imp_right fun h => h.resolve_left fun h => h.2⟩
  · change case.alertId = alertId
    rw [← hcase]
    have hfound : (alert.alertId == alertId) = true := by simpa using List.find?_some halert
    exact eq_of_beq hfound
  · change case.customerId = alert.customerId
    rw [← hcase]
    rfl

end Requests

/-- What is asked of a case that has been started. -/
inductive CaseRequest where
  | supply (task : ℕ) (submission : Submission)
  | review (task : ℕ) (request : HumanReview)

/-- The engine, and whether information has been supplied to the case. -/
structure CaseLife where
  world : EngineWorld
  informed : Bool

open LangGraphInvestigationEngine in
/-- A request on the case is executed on its own. Information has been supplied once a submission has
returned. -/
def LifeStep (env : EngineEnvironment) (py : PyBuiltins) (c : UUID) (life : CaseLife) :
    CaseRequest → CaseLife → Prop
  | .supply task submission, life' => ∃ r,
    WithFake env py (supplyInformation env task c submission) life.world r life'.world ∧
      life'.informed = (life.informed || r.isOk)
  | .review task request, life' => request.caseId = c ∧
    (∃ r, WithFake env py (review env task request) life.world r life'.world) ∧
      life'.informed = life.informed

/-- The case has failed, and the error of the stage that raised is recorded. -/
def CaseFailed (c : UUID) (w : EngineWorld) : Prop :=
  ∃ case checkpoint, w.store.cases.get? c = some case ∧ case.status = .failed ∧
    w.store.threads.get? c = some checkpoint ∧ checkpoint.values.errors ≠ []

open LangGraphInvestigationEngine in
/-- What is true of a case between two requests: every decision is ready, every draft that is not among
the earlier ones has been validated, the case waits for what the model asks for, and a submission to a
case that waits for it leaves only an unknown rule to ask again. A stage that has raised and a review
that has completed the case put an end to this. -/
structure CasePasses (env : EngineEnvironment) (py : PyBuiltins) (bank : SyntheticBank)
    (earlier : List (UUID × ℕ)) (alert : SyntheticAlert) (c : UUID) (life : CaseLife) : Prop where
  ready : ∀ c' version validation, (c', version, validation) ∈ life.world.store.history.decided →
    validation.decision = ⟨.ready, []⟩
  validated : ∀ draft ∈ life.world.store.history.drafted, draft ∈ earlier ∨ CaseFailed c life.world ∨
    ∃ validation, (draft.1, some draft.2, validation) ∈ life.world.store.history.decided
  waits : ∃ case, life.world.store.cases.get? c = some case ∧
    (CaseFailed c life.world ∨ case.status = .completed ∨
      Awaits (bank.Asks py alert.alertId alert.customerId (life.informed = true)) case.status)
  supplies : ∀ case, life.world.store.cases.get? c = some case →
    case.status = .waitingForInformation → ∀ task submission r w',
      WithFake env py (supplyInformation env task c submission) life.world r w' →
        ∃ run, r = .ok run ∧ (run.Failed ∨ Awaits (¬BuiltIn py alert.document) run.status)

section Life

variable {py : PyBuiltins} {bank : SyntheticBank} {env : EngineEnvironment}
  {earlier : List (UUID × ℕ)} {b : CaseBinding} {c : UUID} {alert : SyntheticAlert}
  {life life' : CaseLife}

/-- When information has been supplied, only an unknown rule makes the model ask. -/
theorem asks_supplied (halert : bank.alerts.find? (fun alert => alert.alertId == b.alertId) = some alert)
    {customerId : String} : bank.Asks py b.alertId customerId True ↔ ¬BuiltIn py alert.document := by
  simp [SyntheticBank.Asks, halert]

/-- A case at rest passes. -/
theorem AtRest.passes {reviewed : Prop} (halert : bank.alerts.find?
      (fun alert => alert.alertId == b.alertId) = some alert) (hid : alert.alertId = b.alertId)
    (hcustomer : b.customerId = alert.customerId)
    (h : AtRest py bank earlier b (life.informed = true) reviewed life.world) :
    CasePasses env py bank earlier alert b.caseId life := by
  obtain ⟨case, checkpoint, hcase, -, hsaved, hstatus, hrests, hends⟩ := h.read
  have hfailed (hf : case.status = .failed ∧ checkpoint.values.errors ≠ []) :
      CaseFailed b.caseId life.world := ⟨case, checkpoint, hcase, hf.1, hsaved, hf.2⟩
  rw [hcustomer, ← hid] at hends
  constructor
  · obtain ⟨-, m, htracked, -⟩ := h
    exact htracked.passing.decided
  · rintro ⟨c, version⟩ hdraft
    obtain ⟨-, m, htracked, checkpoint', hcheckpoint', -, -, hrests', hpending⟩ := h
    cases hsaved.symm.trans (htracked.checkpoint _ _ hcheckpoint')
    rcases htracked.drafted c version hdraft with hearlier | hdrafted | hdecided
    · exact .inl hearlier
    · refine .inr (.inl ?_)
      cases hrests' with
      | failed hnext hf herrors => exact hfailed ⟨hstatus.trans hf, herrors⟩
      | completed hnext hcompleted =>
        rw [hpending (by rw [hcompleted]; decide)] at hdrafted
        cases hdrafted
      | waits stage hnext hstage hfit =>
        rw [hpending (by
          rcases hstage with rfl | rfl
          · rw [(hfit.asks rfl).1]
            decide
          · rw [(hfit.answers rfl).1]
            decide)] at hdrafted
        cases hdrafted
    · exact .inr (.inr hdecided)
  · refine ⟨case, hcase, ?_⟩
    rcases hends with hf | ⟨hcompleted, -⟩ | hawaits
    · exact .inl (hfailed hf)
    · exact .inr (.inl hcompleted)
    · exact .inr (.inr hawaits)
  · intro case' hcase' hwaiting task submission r w' hrun
    obtain ⟨-, run, hr, -, hrun⟩ := supply_atRest h hcase' hwaiting hrun
    rw [asks_supplied halert] at hrun
    exact ⟨run, hr, hrun⟩

/-- A request leaves a case at rest. -/
theorem AtRest.step {request : CaseRequest}
    (h : AtRest py bank earlier b (life.informed = true) True life.world)
    (hstep : LifeStep env py b.caseId life request life') :
    AtRest py bank earlier b (life'.informed = true) True life'.world := by
  cases request with
  | supply task submission =>
    obtain ⟨r, hrun, hinformed⟩ := hstep
    obtain ⟨case, checkpoint, hcase, -⟩ := h.read
    by_cases hwaiting : case.status = .waitingForInformation
    · obtain ⟨⟨hstored, m, htracked, hleft⟩, run, rfl, -⟩ := supply_atRest h hcase hwaiting hrun
      have htrue : (life'.informed = true) = True := by simp [hinformed, Except.isOk, Except.toBool]
      rw [htrue]
      exact ⟨hstored, m, htracked, hleft.mono fun _ => trivial⟩
    · obtain ⟨⟨e, rfl⟩, hsame⟩ := supply_refused hcase hwaiting hrun
      rw [hinformed, ← hsame]
      simpa [Except.isOk, Except.toBool] using h
  | review task request =>
    obtain ⟨hrequest, ⟨r, hrun⟩, hinformed⟩ := hstep
    rw [hinformed]
    exact review_atRest h hrequest hrun

end Life

open LangGraphInvestigationEngine in
/-- On every bank and with whatever policies are selected, those of an index or others: in every engine that is reached with the
deterministic model and without a recorded security event, whatever fails, every decision is ready, and
a thread goes on with `collect_information` or with `human_review` as the model asks or not. A case that
is started there passes, and still does after any number of submissions and reviews. -/
theorem fake_passes_gate (env : EngineEnvironment) (py : PyBuiltins) (bank : SyntheticBank)
    (p : EnginePool) (hreach : (engineSystem env).Reaches (FakeMoves py) (idleEngine bank) p) :
    (∀ c version validation, (c, version, validation) ∈ p.world.store.history.decided →
      validation.decision = ⟨.ready, []⟩) ∧
    (∀ c checkpoint b, p.world.store.threads.get? c = some checkpoint →
      checkpoint.values.binding = some b →
        (checkpoint.next = some .collectInformation →
          bank.Asks py b.alertId b.customerId (Supplied checkpoint.values.evidence)) ∧
        (checkpoint.next = some .humanReview →
          ¬bank.Asks py b.alertId b.customerId (Supplied checkpoint.values.evidence))) ∧
    ∀ alertId alert actorId tenantId contextCondition task r w,
      bank.alerts.find? (fun alert => alert.alertId == alertId) = some alert →
        Unclaimed alertId tenantId p.world →
          WithFake env py (start env task alertId actorId tenantId contextCondition) p.world r w →
            ∃ run, r = .ok run ∧
              (run.Failed ∨ Awaits (bank.Asks py alertId alert.customerId False) run.status) ∧
              ∀ requests life, Transitions.Run (LifeStep env py run.caseId) (fun _ _ => True)
                ⟨w, false⟩ requests life →
                  CasePasses env py bank p.world.store.history.drafted alert run.caseId life := by
  have hpassing := fake_reaches env py bank hreach
  refine ⟨hpassing.decided, ?_, ?_⟩
  · intro c checkpoint b hsaved hbinding
    obtain ⟨-, hfits⟩ := hpassing.threads c checkpoint hsaved b hbinding
    constructor
    · intro hnext
      obtain ⟨supplied, hfit⟩ := hfits _ hnext
      unfold SyntheticBank.Asks
      rw [(hfit.gathered nofun).2]
      exact (hfit.asks rfl).2
    · intro hnext
      obtain ⟨supplied, hfit⟩ := hfits _ hnext
      unfold SyntheticBank.Asks
      rw [(hfit.gathered nofun).2]
      exact (hfit.answers rfl).2
  · intro alertId alert actorId tenantId contextCondition task r w halert hunclaimed hrun
    obtain ⟨b, run, rfl, hcustomer, hrest, rfl, hid, hends⟩ :=
      start_atRest hpassing halert hunclaimed hrun
    have hfound : (alert.alertId == b.alertId) = true := by simpa using List.find?_some halert
    rw [hcustomer] at hends
    refine ⟨run, rfl, hends, fun requests life hlife => ?_⟩
    rw [hid] at hlife ⊢
    have hlater : AtRest py bank p.world.store.history.drafted b (life.informed = true) True
        life.world := by
      apply Transitions.Run.invariant (I := fun life : CaseLife =>
        AtRest py bank p.world.store.history.drafted b (life.informed = true) True life.world) _ hlife
      · obtain ⟨hstored, m, htracked, hleft⟩ := hrest
        have hfalse : (false = true) = False := by simp
        change AtRest py bank _ b (false = true) True w
        rw [hfalse]
        exact ⟨hstored, m, htracked, hleft.mono fun _ => trivial⟩
      · exact fun life request life' h _ hstep => h.step hstep
    exact AtRest.passes halert (eq_of_beq hfound) hcustomer hlater

/-- A bank with an alert about a customer whose KYC status is missing. -/
def missingBank : SyntheticBank where
  alerts := [⟨"A-1", "C-1", mappedAlert⟩]
  customers := sampleBank.customers
  kycRecords := [⟨"K-1", "C-1", .object [("status", .string "missing")]⟩]
  transactions := []

/-- Draws of calls that do not fail, of the deterministic model that is given evidence. -/
def fakeDraws (evidence : List EvidenceItem) : EngineDraws where
  failure := .none
  answer :=
    match recommend sampleBuiltins ⟨evidence, [⟨"P-1", .null⟩], [], "B5", none⟩ with
    | .ok answer => answer
    | .error _ => sampleRecommendation .closeWithRationale
  uuid := 0

/-- No call fails from outside, and the model gives the answer of the deterministic one. -/
def fakeCheck (_ : EngineWorld) (draws : EngineDraws) : EngineCall → Bool
  | .recommend request => !decide draws.failure.Raises &&
    match recommend sampleBuiltins request with
    | .ok answer => answer = draws.answer
    | .error _ => false
  | _ => !decide draws.failure.Raises

theorem fakeCheck_spec (w : EngineWorld) (draws : EngineDraws) (call : EngineCall)
    (h : fakeCheck w draws call = true) :
    ¬draws.failure.Raises ∧ FakeAnswers sampleBuiltins draws call := by
  cases call with
  | recommend request =>
    obtain ⟨hquiet, hanswer⟩ := Bool.and_eq_true_iff.mp h
    refine ⟨by simpa using hquiet, ?_⟩
    rintro _ ⟨⟩
    cases hrecommend : recommend sampleBuiltins request with
    | ok answer =>
      simp only [hrecommend, decide_eq_true_eq] at hanswer
      rw [hanswer]
      exact .inr rfl
    | error e => simp [hrecommend] at hanswer
  | _ => exact ⟨by simpa [fakeCheck] using h, nofun⟩

/-- The items that the model reads for the alert of the bank. -/
def missingEvidence : List EvidenceItem :=
  [{ sampleItem "alert" [("rule_id", .string "RAPID_FUNDS_MOVEMENT")] with
      evidenceId := "ALERT-A-1", evidenceId_length := by decide },
    { sampleItem "kyc_profile" [("status", .string "missing")] with
      evidenceId := "KYC-K-1", evidenceId_length := by decide }]

/-- The items with what has been supplied. -/
def suppliedEvidence : List EvidenceItem :=
  missingEvidence ++
    [{ sampleItem "supplemental_information" [] with
        evidenceId := "INFO-00000000-0000-0000-0000-000000000000", evidenceId_length := by decide }]

/-- A submission about the source of the funds. -/
def fundsSubmission : Submission := ⟨"analyst", [("source_of_funds", .string "salary")], "S-1"⟩

/-- The request has returned a run of the first case with a status. -/
def endsIn (status : CaseStatus) : Except PyError InvestigationRun × EngineWorld → Bool
  | (.ok run, _) => run.caseId = 0 ∧ run.status = status
  | (.error _, _) => false

open LangGraphInvestigationEngine in
/-- On the sample index, with a missing KYC status and a built-in rule, the case waits for information, and
for human review once information has been supplied. -/
theorem fake_passes_gate_missing :
    ∃ w run w' run', WithFake corpusEnvironment sampleBuiltins
        (start corpusEnvironment 0 "A-1" "investigator" "tenant" "B5") (idleEngine missingBank).world
          (.ok run) w ∧
      run.status = .waitingForInformation ∧
      WithFake corpusEnvironment sampleBuiltins
        (supplyInformation corpusEnvironment 1 run.caseId fundsSubmission) w (.ok run') w' ∧
      run'.status = .waitingForHumanReview ∧
      ∀ life, LifeStep corpusEnvironment sampleBuiltins run.caseId ⟨w, false⟩ (.supply 1 fundsSubmission) life →
        CasePasses corpusEnvironment sampleBuiltins missingBank [] ⟨"A-1", "C-1", mappedAlert⟩ run.caseId
          life := by
  rw [← workedOut_eq]
  obtain ⟨r, w, hstart, htest⟩ := exists_executes (engineSystem workedOut).toMachine fakeCheck
    fakeCheck_spec (fakeDraws missingEvidence)
    (start workedOut 0 "A-1" "investigator" "tenant" "B5") (idleEngine missingBank).world
    (fun ended => endsIn .waitingForInformation ended &&
      ((supplyInformation workedOut 1 0 fundsSubmission).runChecked (engineSystem workedOut).toMachine
        fakeCheck (fakeDraws suppliedEvidence) ended.2).any (endsIn .waitingForHumanReview))
    (by decide +kernel)
  obtain ⟨hwaits, hanswers⟩ := Bool.and_eq_true_iff.mp htest
  obtain ⟨r', w', hsupply, hends⟩ := exists_executes (engineSystem workedOut).toMachine fakeCheck
    fakeCheck_spec (fakeDraws suppliedEvidence) _ w _ hanswers
  obtain ⟨run, rfl, -, hpasses⟩ := (fake_passes_gate workedOut sampleBuiltins missingBank _ .refl).2.2
    "A-1" _ "investigator" "tenant" "B5" 0 r w rfl (by decide) hstart
  match r', hsupply, hends with
  | .ok run', hsupply, hends =>
    obtain ⟨hid, hstatus⟩ := of_decide_eq_true hwaits
    have hsupplied : WithFake workedOut sampleBuiltins
        (supplyInformation workedOut 1 run.caseId fundsSubmission) w (.ok run') w' := by
      rw [hid]
      exact hsupply
    refine ⟨w, run, w', run', hstart, hstatus, hsupplied, (of_decide_eq_true hends).2, ?_⟩
    intro life hstep
    exact hpasses _ life (.cons _ _ _ _ [] trivial hstep (.nil _))

end Amlguard
