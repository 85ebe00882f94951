import Amlguard.Investigations.ExactVersion
import Amlguard.Investigations.OneRun

/-!
# Status checks

An operation engages on a case by its check, and every check but that of a review reads the stored status.
So nobody engages on a case that somebody else is engaged on while the status is `OPEN` or `RUNNING`. It
takes a window in which the status is neither: before the first status write of a run, in a redraft under
`REWORK_REQUIRED`, after the last status write, or before a reset has deleted the case. Or it takes a check
that does not read the status.
-/

namespace Amlguard

open Awaited

/-- The check of the operation reads the status: that of a review does not, and a prepared case is run
without a check. -/
def EngineOp.ReadsStatus : EngineOp → Prop
  | .runPrepared _ _ _ | .review _ => False
  | _ => True

instance : (op : EngineOp) → Decidable op.ReadsStatus
  | .runPrepared .. | .review _ => isFalse id
  | .start .. | .uiStart .. | .supplyInformation .. | .recordSecurityEvent .. | .reset .. | .get _ =>
    isTrue trivial

/-- The status says that the case is being investigated. -/
def Store.Investigated (s : Store) (c : UUID) : Prop :=
  ∃ case ∈ s.cases.get? c, case.status = .open ∨ case.status = .running

instance (s : Store) (c : UUID) : Decidable (s.Investigated c) :=
  inferInstanceAs (Decidable (∃ case ∈ s.cases.get? c, _))

/-- The check of a task reads the status. -/
def ReadsStatus (p : EnginePool) (i : ℕ) : Prop := ∃ op ∈ p.ops[i]?, op.ReadsStatus

instance (p : EnginePool) (i : ℕ) : Decidable (ReadsStatus p i) :=
  inferInstanceAs (Decidable (∃ op ∈ p.ops[i]?, _))

/-- Two operations are engaged on one case, if ever, only while its status says that it is being
investigated, and only after checks that read the status. -/
def Guarded (p : EnginePool) : Prop :=
  ∀ a ∈ p.world.store.history.engaged, ∀ b ∈ p.world.store.history.engaged, a.2 = b.2 → a.1 ≠ b.1 →
    p.world.store.Investigated a.2 ∧ ReadsStatus p a.1 ∧ ReadsStatus p b.1

instance (p : EnginePool) : Decidable (Guarded p) :=
  inferInstanceAs (Decidable (∀ a ∈ p.world.store.history.engaged, _))

/-- How an operation comes to be engaged on a case by a move: it does not read the status, or creates the
case, or has found a status at which the case is not being investigated. -/
def Joins (p q : EnginePool) (op : EngineOp) (c : UUID) : Prop :=
  ¬op.ReadsStatus ∨ p.world.store.nextUuid ≤ c ∧ c < q.world.store.nextUuid ∨
    ∃ case ∈ q.world.store.cases.get? c, case.status ≠ .open ∧ case.status ≠ .running

section Steps

variable {env : EngineEnvironment} {op : EngineOp} {m m' : Phase} {call : EngineCall}
  {r : Except PyError call.Reply} {i j : ℕ} {n : EngineMark} {c : UUID} {s s' : Store} {w : EngineWorld}

/-- A case that has been read under a status at which it is not being investigated, or created. -/
def Phase.Offers (m : Phase) (c : UUID) : Prop :=
  ∃ ran case created, m = .read ran case created ∧ case.caseId = c ∧
    (created = true ∨ case.status ≠ .open ∧ case.status ≠ .running)

/-- An operation is engaged on a case by a mark only if it was already, or does not read the status, or
has read it. -/
theorem MarkEdge.joins (hedge : MarkEdge i op m n m') (hn : n = .admitted j c ∨ n = .resetting j c) :
    j = i ∧ (m.engaged = some c ∨ ¬op.ReadsStatus ∨ m.Offers c) := by
  cases hedge with
  | executed | loaded | left | drafted | decided | reviewed => rcases hn with h | h <;> cases h
  | prepared case actorId contextCondition hop =>
    rcases hn with h | h <;> cases h
    subst hop
    exact ⟨rfl, .inr (.inl not_false)⟩
  | created ran case =>
    rcases hn with h | h <;> cases h
    exact ⟨rfl, .inr (.inr ⟨ran, case, true, rfl, rfl, .inl rfl⟩)⟩
  | checked ran case hop =>
    rcases hn with h | h <;> cases h
    refine ⟨rfl, .inr ?_⟩
    cases op with
    | review => exact .inl not_false
    | uiStart =>
      refine .inr ⟨ran, case, false, rfl, rfl, .inr ?_⟩
      rw [show case.status = .failed from hop]
      exact ⟨nofun, nofun⟩
    | supplyInformation =>
      refine .inr ⟨ran, case, false, rfl, rfl, .inr ?_⟩
      rw [hop.2]
      exact ⟨nofun, nofun⟩
    | start | runPrepared | recordSecurityEvent | reset | get => exact hop.elim
  | again =>
    rcases hn with h | h <;> cases h
    exact ⟨rfl, .inl rfl⟩
  | resets ran case actorId hop hstatus =>
    rcases hn with h | h <;> cases h
    exact ⟨rfl, .inr (.inr ⟨ran, case, false, rfl, rfl, .inr hstatus⟩)⟩

/-- Who is engaged after a mark: who was, and whom the mark engages. -/
theorem mem_engaged_record {a : ℕ × UUID} (h : a ∈ (w.record n).store.history.engaged) :
    a ∈ w.store.history.engaged ∨ n = .admitted a.1 a.2 ∨ n = .resetting a.1 a.2 := by
  rcases List.mem_append.mp h with hin | hin
  · cases n with
    | executed | loaded | resetting | drafted | decided | reviewed =>
      exact .inl (List.mem_append_left _ hin)
    | admitted task k =>
      rcases List.mem_cons.mp hin with rfl | hold
      · exact .inr (.inl rfl)
      · exact .inl (List.mem_append_left _ hold)
    | left task k => exact .inl (List.mem_append_left _ (List.mem_filter.mp hin).1)
  · cases n with
    | executed | admitted | loaded | drafted | decided | reviewed =>
      exact .inl (List.mem_append_right _ hin)
    | resetting task k =>
      rcases List.mem_cons.mp hin with rfl | hold
      · exact .inr (.inr rfl)
      · exact .inl (List.mem_append_right _ hold)
    | left task k => exact .inl (List.mem_append_right _ (List.mem_filter.mp hin).1)

/-- No mark leads to a case that has been read, except from there. -/
theorem MarkEdge.into_read (hedge : MarkEdge i op m n m') (h : m'.Offers c) : m.Offers c := by
  obtain ⟨ran, case, created, rfl, hrest⟩ := h
  generalize hm : Phase.read ran case created = m' at hedge
  cases hedge with
  | executed => exact ⟨ran, case, created, hm.symm, hrest⟩
  | loaded _ _ hrun =>
    subst hm
    rcases hrun with hran | hrun
    · cases hran
    · cases hrun
  | prepared | created | checked | again | resets | left | drafted | decided | reviewed => cases hm

/-- What a task has come to while it writes its marks: whoever is engaged was so before, or it is the task,
on a case on which it may be. -/
structure Joining (i : ℕ) (before : List (ℕ × UUID)) (May : UUID → Prop) (m : Phase) (w : EngineWorld) :
    Prop where
  joined : ∀ a ∈ w.store.history.engaged, a ∈ before ∨ a.1 = i ∧ May a.2
  engaged : ∀ c, m.engaged = some c → May c
  offers : ∀ c, m.Offers c → May c

/-- A mark engages a task only where it may be. -/
theorem Joining.mark {before : List (ℕ × UUID)} {May : UUID → Prop} (h : Joining i before May m w)
    (hop : ¬op.ReadsStatus → ∀ c, May c) (hedge : MarkEdge i op m n m') :
    Joining i before May m' (w.record n) := by
  have hjoins (k : UUID) (hk : m.engaged = some k ∨ ¬op.ReadsStatus ∨ m.Offers k) : May k := by
    rcases hk with hengaged | hreads | hoffers
    · exact h.engaged k hengaged
    · exact hop hreads k
    · exact h.offers k hoffers
  refine ⟨fun a ha => ?_, fun k hk => ?_, fun k hk => h.offers k (hedge.into_read hk)⟩
  · rcases mem_engaged_record ha with hold | hn
    · exact h.joined a hold
    · obtain ⟨hi, hmay⟩ := hedge.joins hn
      exact .inr ⟨hi, hjoins a.2 hmay⟩
  · rcases hedge.engaged with hnone | hsame | ⟨k', rfl, hadmitted⟩
    · rw [hnone] at hk
      cases hk
    · exact h.engaged k (hsame ▸ hk)
    · rw [hadmitted] at hk
      cases hk
      exact hjoins k (hedge.joins (.inl rfl)).2

/-- A case that an operation has come to read is stored as it has been read, or has just been created. -/
theorem Edge.offers (hedge : Edge env op m call r m') (hw : Writes env s call r s') (hs : Filed s)
    (h : m'.Offers c) :
    s.nextUuid ≤ c ∧ c < s'.nextUuid ∨
      ∃ case ∈ s'.cases.get? c, case.status ≠ .open ∧ case.status ≠ .running := by
  obtain ⟨ran, case, created, rfl, rfl, hstatus⟩ := h
  have hland {α : Type} {r : Except PyError α} {m₁ m₂ : Phase}
      (h : Phase.read ran case created = Phase.landed r m₁ m₂) :
      Phase.read ran case created = m₁ ∨ Phase.read ran case created = m₂ := by
    cases r with
    | ok a => exact .inl h
    | error e => exact .inr h
  generalize hm : Phase.read ran case created = m' at hedge
  cases hedge with
  | outside | located | unknown | forgotten | revised | revoked | notified | reportFails | loadFails
    | loadStart | loadNothing | loadStage | logs | saves | saveFails | looks => cases hm
  | created =>
    cases hm
    cases hw with
    | unchanged _ _ h => exact (h _ rfl).elim
    | created _ _ _ alert _ h =>
      obtain ⟨rfl, -⟩ := Prod.mk.inj (h _ rfl)
      exact .inl ⟨Nat.le_refl _, Nat.lt_add_of_pos_right Nat.two_pos⟩
  | asked _ _ k =>
    cases hm
    obtain ⟨stored, hstored, rfl⟩ := hw.getCase_ok
    rw [hw.eq_of_getCase]
    rw [served_caseId, (hs.keyed k stored hstored).1]
    rw [served_status] at hstatus
    exact .inr ⟨stored, hstored, hstatus.resolve_left Bool.false_ne_true⟩
  | deleted =>
    rcases hland hm with h | h <;> cases h
  | waits m call r hwaits =>
    subst hm
    cases hwaits
  | works m k stage values call r hworks =>
    subst hm
    cases hworks
  | reports m k stage values call reply hreports =>
    subst hm
    cases hreports
  | notifies m k stage values runId stage' event r hreports =>
    subst hm
    cases hreports
  | entered | runs | shows | decides | informs | collects | stores | edits | concludes | givesUp =>
    rcases hland hm with h | h <;> cases h
  | puts m k stage values =>
    rcases hland hm with h | h
    · cases hroute : route stage values <;> rw [hroute] at h <;> cases h
    · cases h

end Steps

/-- By a move one task may come to be engaged on cases that it joins; the others stay where they are. -/
theorem engaged_of_move (env : EngineEnvironment) {p q : EnginePool} {φ : ℕ → Phase}
    {move : Move EngineOp EngineDraws} (htraces : (engineChart env).Traces p φ)
    (hfiled : Filed p.world.store) (hregistered : Registered φ p.world.store.history)
    (hmove : (engineSystem env).move p move = some q) :
    ∃ i, ∃ op ∈ q.ops[i]?, ∀ a ∈ q.world.store.history.engaged,
      a ∈ p.world.store.history.engaged ∨ a.1 = i ∧ Joins p q op a.2 := by
  have hsplit {i : ℕ} {op : EngineOp} {m : Phase} {w : EngineWorld}
      (h : Joining i p.world.store.history.engaged
        (fun c => (i, c) ∈ p.world.store.history.engaged ∨ Joins p q op c) m w) :
      ∀ a ∈ w.store.history.engaged,
        a ∈ p.world.store.history.engaged ∨ a.1 = i ∧ Joins p q op a.2 := by
    intro a ha
    rcases h.joined a ha with hold | ⟨rfl, hold | hjoins⟩
    · exact .inl hold
    · exact .inl hold
    · exact .inr ⟨rfl, hjoins⟩
  cases move with
  | start op =>
    have hq := hmove
    rw [System.move_start] at hq
    have hfollows := engineChart_covers env p.tasks.length op trivial
    have hentry : Joining p.tasks.length p.world.store.history.engaged
        (fun c => (p.tasks.length, c) ∈ p.world.store.history.engaged ∨ Joins p q op c) (.idle false)
        (op.enroll p.world) := by
      refine ⟨fun a ha => .inl ?_, fun c hc => (by cases hc), ?_⟩
      · cases op <;> exact ha
      · rintro c ⟨ran, case, created, hm, -⟩
        cases hm
    obtain ⟨m, -, hrest⟩ := hfollows.rest (engineSystem env) hentry
      fun m n m' w h hedge => h.mark (fun hreads c => .inr (.inl hreads)) hedge
    cases hq
    exact ⟨p.tasks.length, op, by simp [Pool.ops], hsplit hrest⟩
  | advance i draws =>
    obtain ⟨op, call, k, htask, hq⟩ := System.move_advance hmove
    obtain ⟨m, hedge, hfollows⟩ :=
      htraces.next htask (hfiled.expected call : expectedReply call (p.world.perform env draws call).1)
    have hw := perform_writes env p.world draws call
    have hworld : q.world = ((engineSystem env).rest (k (p.world.perform env draws call).1)
        (p.world.perform env draws call).2).2 := congrArg Pool.world hq
    have hcases : q.world.store.cases = (p.world.perform env draws call).2.store.cases := by
      rw [hworld, rest_cases]
    have hdrawn : q.world.store.nextUuid = (p.world.perform env draws call).2.store.nextUuid := by
      rw [hworld, rest_nextUuid]
    have hcalled : Joining i p.world.store.history.engaged
        (fun c => (i, c) ∈ p.world.store.history.engaged ∨ Joins p q op c) m
        (p.world.perform env draws call).2 := by
      refine ⟨fun a ha => .inl ?_, fun c hc => .inl ?_, fun c hc => .inr (.inr ?_)⟩
      · unfold History.engaged at ha
        rwa [hw.history] at ha
      · rcases hedge.engaged with hnone | hsame
        · rw [hnone] at hc
          cases hc
        · exact List.mem_append_left _ (hregistered.admitted i c (hsame ▸ hc))
      · rw [hcases, hdrawn]
        exact hedge.offers hw hfiled hc
    obtain ⟨m', -, hrest⟩ := hfollows.rest (engineSystem env) hcalled
      fun m n m' w h hedge => h.mark (fun hreads c => .inr (.inl hreads)) hedge
    have hlt := (List.getElem?_eq_some_iff.mp htask).1
    refine ⟨i, op, ?_, ?_⟩
    · rw [hq]
      simp [Pool.ops, hlt]
    · rw [hworld]
      exact hsplit hrest

/-- A move draws UUIDs only. -/
theorem nextUuid_le_of_move {env : EngineEnvironment} {p q : EnginePool}
    {move : Move EngineOp EngineDraws} (hmove : (engineSystem env).move p move = some q) :
    p.world.store.nextUuid ≤ q.world.store.nextUuid := by
  cases move with
  | start op =>
    rw [System.move_start] at hmove
    cases hmove
    change _ ≤ ((engineSystem env).rest _ (op.enroll p.world)).2.store.nextUuid
    rw [rest_nextUuid, enroll_nextUuid]
  | advance i draws =>
    obtain ⟨op, call, k, htask, rfl⟩ := System.move_advance hmove
    change _ ≤ ((engineSystem env).rest _ (p.world.perform env draws call).2).2.store.nextUuid
    rw [rest_nextUuid]
    exact (perform_writes env p.world draws call).nextUuid_le

/-- A task whose check reads the status goes on as it was started. -/
theorem readsStatus_of_move {env : EngineEnvironment} {p q : EnginePool} {i : ℕ}
    {move : Move EngineOp EngineDraws} (hmove : (engineSystem env).move p move = some q)
    (hi : i < p.ops.length) (h : ReadsStatus q i) : ReadsStatus p i := by
  have hops : q.ops[i]? = p.ops[i]? := by
    rcases System.move_ops hmove with heq | ⟨op, -, heq⟩
    · rw [heq]
    · rw [heq, List.getElem?_append_left hi]
  unfold ReadsStatus at *
  rwa [hops] at h

/-- Whoever is engaged on a case, after a check that reads the status, is so on a case that has been
created. -/
def Drawn (p : EnginePool) : Prop :=
  ∀ a ∈ p.world.store.history.engaged, ReadsStatus p a.1 → a.2 < p.world.store.nextUuid

/-- Only tasks that have been started are engaged. -/
def Started (p : EnginePool) : Prop :=
  ∀ a ∈ p.world.store.history.engaged, a.1 < p.ops.length

section Moves

variable {env : EngineEnvironment} {p q : EnginePool} {i : ℕ} {op : EngineOp}

/-- Two operations that are engaged on one case after a move, one of which has joined it by the move, are
not guarded. -/
theorem not_guarded_of_joins {b : ℕ × UUID} (hop : op ∈ q.ops[i]?) {c : UUID} (hjoins : Joins p q op c)
    (hi : (i, c) ∈ q.world.store.history.engaged) (hb : b ∈ q.world.store.history.engaged)
    (hdrawn : ReadsStatus q b.1 → b.2 < p.world.store.nextUuid) (hcase : b.2 = c) (hne : b.1 ≠ i) :
    ¬Guarded q := by
  intro hguarded
  obtain ⟨⟨case, hstored, hstatus⟩, hreads, op', hop', hreads'⟩ := hguarded b hb (i, c) hi hcase hne
  have hsame : op' = op := Option.mem_unique hop' hop
  subst hsame
  rcases hjoins with hnot | ⟨hold, -⟩ | ⟨case', hstored', hopen, hrunning⟩
  · exact hnot hreads'
  · have hlt := hdrawn hreads
    rw [hcase] at hlt
    exact absurd hlt (Nat.not_lt.mpr hold)
  · rw [hcase] at hstored
    have hsame : case = case' := Option.mem_unique hstored hstored'
    subst hsame
    exact hstatus.elim hopen hrunning

end Moves

/-- In every run whose steps are guarded no two operations are engaged on one case. -/
theorem oneEngaged_of_guarded (env : EngineEnvironment) (bank : SyntheticBank) {p : EnginePool}
    (hreach : (engineSystem env).Reaches (fun p _ => Guarded p) (idleEngine bank) p) :
    (engineSystem env).Reaches (fun p _ => OneEngaged p.world.store.history) (idleEngine bank) p ∧
      (Guarded p → OneEngaged p.world.store.history) ∧ Drawn p ∧ Started p := by
  induction hreach with
  | refl =>
    exact ⟨.refl, fun _ a ha => (by cases ha), fun a ha => (by cases ha), fun a ha => (by cases ha)⟩
  | @tail p q _ hstep ih =>
    obtain ⟨hreach, hone, hdrawn, hstarted⟩ := ih
    obtain ⟨move, hguarded, hmove⟩ := hstep
    have hone := hone hguarded
    have hnext := hreach.tail ⟨move, hone, hmove⟩
    obtain ⟨φ, htraces, hinv⟩ := runInvariant_of_reaches env bank hreach
    obtain ⟨φ', -, hinv'⟩ := runInvariant_of_reaches env bank hnext
    obtain ⟨i, op, hop, hengaged⟩ :=
      engaged_of_move env htraces hinv.filed hinv.registered hmove
    have hdrawn' {b : ℕ × UUID} (hb : b ∈ p.world.store.history.engaged) (hreads : ReadsStatus q b.1) :
        b.2 < p.world.store.nextUuid :=
      hdrawn b hb (readsStatus_of_move hmove (hstarted b hb) hreads)
    refine ⟨hnext, fun hguarded' a ha b hb hcase => ?_, fun a ha hreads => ?_, fun a ha => ?_⟩
    · by_contra hne
      rcases hengaged a ha with hold | ⟨rfl, hjoins⟩
      · rcases hengaged b hb with hold' | ⟨rfl, hjoins⟩
        · exact hne (hone a hold b hold' hcase)
        · exact not_guarded_of_joins hop hjoins hb ha (hdrawn' hold) hcase hne hguarded'
      · rcases hengaged b hb with hold' | ⟨hi, -⟩
        · exact not_guarded_of_joins hop hjoins ha hb (hdrawn' hold') hcase.symm (Ne.symm hne) hguarded'
        · exact hne hi.symm
    · have hle := nextUuid_le_of_move hmove
      rcases hengaged a ha with hold | ⟨rfl, hjoins⟩
      · exact Nat.lt_of_lt_of_le (hdrawn' hold hreads) hle
      · obtain ⟨op', hop', hreads'⟩ := hreads
        have hsame : op' = op := Option.mem_unique hop' hop
        subst hsame
        rcases hjoins with hnot | ⟨-, hlt⟩ | ⟨case, hstored, -⟩
        · exact absurd hreads' hnot
        · exact hlt
        · exact (hinv'.filed.keyed _ case hstored).2
    · rcases hengaged a ha with hold | ⟨rfl, -⟩
      · rcases System.move_ops hmove with heq | ⟨op', -, heq⟩
        · exact heq ▸ hstarted a hold
        · rw [heq, List.length_append]
          exact Nat.lt_add_right _ (hstarted a hold)
      · exact (List.getElem?_eq_some_iff.mp hop).1

/-- When operations engage on a case that somebody is engaged on at most under a status that says so, and
after a check that reads it, at most one run of each case is in flight, and a case is deleted only when none
of it is. -/
theorem one_run_of_guarded (env : EngineEnvironment) (bank : SyntheticBank) (p : EnginePool)
    (hreach : (engineSystem env).Reaches (fun p _ => Guarded p) (idleEngine bank) p) :
    OneRun p.world.store.history ∧
      ∀ q c case, (engineSystem env).Step (fun p _ => Guarded p) p q →
        p.world.store.cases.get? c = some case → q.world.store.cases.get? c = none →
          ∀ i, (i, c) ∉ p.world.store.history.running := by
  obtain ⟨halone, hone, -, -⟩ := oneEngaged_of_guarded env bank hreach
  obtain ⟨hrun, hdeletes⟩ := one_run_of_oneEngaged env bank p halone
  refine ⟨hrun, fun q c case hstep hcase hdeleted => ?_⟩
  obtain ⟨move, hguarded, hmove⟩ := hstep
  exact hdeletes q c case ⟨move, hone hguarded, hmove⟩ hcase hdeleted

/-- A reset of the first case. -/
def sampleReset : EngineOp := .reset 0 "administrator"

/-- A reset that comes while the first run is in flight is refused, and one that comes after its end deletes
a case that nobody runs. -/
theorem one_run_of_guarded_reset :
    ∃ (p q : EnginePool) (case : CaseData), (engineSystem (sampleEnvironment .postgres)).Reaches
        (fun p _ => Guarded p) (idleEngine sampleBank) p ∧
      p.world.store.cases.get? 0 = some case ∧ q.world.store.cases.get? 0 = none ∧
        OneRun p.world.store.history ∧ ∀ i, (i, 0) ∉ p.world.store.history.running := by
  obtain ⟨p, hreach, htest⟩ := System.exists_reaches (engineSystem (sampleEnvironment .postgres))
    (fun p _ => decide (Guarded p)) (fun _ _ h => of_decide_eq_true h) (idleEngine sampleBank)
    (undisturbed 0 sampleStart 12 ++ undisturbed 1 sampleReset 1 ++
      List.replicate 22 (.advance 0 quietDraws) ++ undisturbed 2 sampleReset 2)
    (fun p => (p.world.store.cases.get? 0).isSome && decide (Guarded p) &&
      ((engineSystem (sampleEnvironment .postgres)).move p (.advance 2 quietDraws)).any fun q =>
        (q.world.store.cases.get? 0).isNone)
    (by decide +kernel)
  obtain ⟨hstored, hmoved⟩ := Bool.and_eq_true_iff.mp htest
  obtain ⟨hsome, hguarded⟩ := Bool.and_eq_true_iff.mp hstored
  obtain ⟨case, hcase⟩ := Option.isSome_iff_exists.mp hsome
  obtain ⟨q, hmove, hnone⟩ := (Option.any_eq_true _ _).mp hmoved
  have hdeleted := Option.isNone_iff_eq_none.mp hnone
  obtain ⟨hone, hdeletes⟩ := one_run_of_guarded _ _ p hreach
  exact ⟨p, q, case, hreach, hcase, hdeleted, hone,
    hdeletes q 0 case ⟨_, of_decide_eq_true hguarded, hmove⟩ hcase hdeleted⟩

/-- A rejection redrafts under the status `REWORK_REQUIRED`, at which a reset takes the case for
idle: it deletes the case while the run is in flight. -/
theorem reset_deletes_running_case :
    ¬∀ p, (engineSystem (sampleEnvironment .postgres)).Reaches Faultless (idleEngine sampleBank) p →
      OneRun p.world.store.history ∧
        ∀ q c case, (engineSystem (sampleEnvironment .postgres)).Step Faultless p q →
          p.world.store.cases.get? c = some case → q.world.store.cases.get? c = none →
            ∀ i, (i, c) ∉ p.world.store.history.running := by
  obtain ⟨p, hreach, htest⟩ := System.exists_reaches (engineSystem (sampleEnvironment .postgres))
    (fun p m => decide (Faultless p m)) (fun _ _ h => of_decide_eq_true h) (idleEngine sampleBank)
    (undisturbed 0 sampleStart 34 ++ undisturbed 1 (.review sampleRejection) 9 ++
      undisturbed 2 sampleReset 2)
    (fun p => (p.world.store.cases.get? 0).isSome &&
      decide ((1, 0) ∈ p.world.store.history.running) &&
      ((engineSystem (sampleEnvironment .postgres)).move p (.advance 2 quietDraws)).any fun q =>
        (q.world.store.cases.get? 0).isNone)
    (by decide +kernel)
  obtain ⟨hstored, hmoved⟩ := Bool.and_eq_true_iff.mp htest
  obtain ⟨hsome, hrunning⟩ := Bool.and_eq_true_iff.mp hstored
  obtain ⟨case, hcase⟩ := Option.isSome_iff_exists.mp hsome
  obtain ⟨q, hmove, hnone⟩ := (Option.any_eq_true _ _).mp hmoved
  intro hall
  exact (hall p hreach).2 q 0 case ⟨.advance 2 quietDraws, fun h => h, hmove⟩ hcase
    (Option.isNone_iff_eq_none.mp hnone) 1 (of_decide_eq_true hrunning)

end Amlguard
