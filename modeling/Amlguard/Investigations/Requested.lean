import Amlguard.Investigations.Engagement

/-!
# Stored reviews and their requests

Every review that is stored on a case comes from a request to review that case: `human_review` takes
the resumed payload over, puts the case and the version of the checkpoint in, and saves it. Whoever
has submitted the request is therefore the reviewer that the stored review names.

A stored case keeps its tenant and its investigator, and the ID of a deleted case is not given out
again. Both hold in every interleaving, whatever fails.
-/

namespace Amlguard

open Awaited

/-- The operation reviews no other case than that of its request. -/
def Phase.EngagedFor (op : EngineOp) (m : Phase) : Prop :=
  ∀ request, op = .review request → ∀ c, m.engaged = some c → c = request.caseId

/-- The review at hand comes from the request of the operation. -/
def Phase.CarriesFor (op : EngineOp) : Phase → Prop
  | .loaded _ next => next.CarriesFor op
  | .stage _ _ resume _ => ∀ request, resume = some (.review request) → op = .review request
  | .reviewing c _ review =>
    ∃ request version, op = .review request ∧ request.rebind c version = .ok review
  | _ => True

/-- What an operation holds in memory is on behalf of its request. -/
structure Phase.OnBehalf (op : EngineOp) (m : Phase) : Prop where
  engaged : m.EngagedFor op
  carries : m.CarriesFor op

section Edges

variable {env : EngineEnvironment} {op : EngineOp} {m m' : Phase} {call : EngineCall}
  {r : Except PyError call.Reply} {task : ℕ} {n : EngineMark}

/-- Where a reply leads carries the request when both phases do. -/
theorem carries_landed {α : Type} {r : Except PyError α} (hok : m.CarriesFor op)
    (herror : m'.CarriesFor op) : (Phase.landed r m m').CarriesFor op := by
  cases r with
  | ok a => exact hok
  | error e => exact herror

/-- The stage that follows a checkpoint has no review at hand. -/
theorem carries_advance {c : UUID} {next : Option Stage} {values : InvestigationState} :
    (Phase.advance c next values).CarriesFor op := by
  cases next with
  | none => trivial
  | some step => exact fun _ hresume => by cases hresume

/-- Only the request of an operation resumes its run with a review. -/
theorem carries_resumed {c : UUID} {step : Stage} {value : Resume} {values : InvestigationState}
    (hop : op.Resumes value) : (Phase.stage c step (some value) values).CarriesFor op := by
  intro request hresume
  cases hresume
  cases op with
  | review other =>
    cases hop
    rfl
  | supplyInformation => cases hop
  | start | uiStart | runPrepared | recordSecurityEvent | reset | get => exact hop.elim

/-- A call leaves the review at hand to the request of the operation. -/
theorem Phase.CarriesFor.edge (hm : m.CarriesFor op) (hedge : Edge env op m call r m') :
    m'.CarriesFor op := by
  cases hedge with
  | outside | created | located | asked | unknown | forgotten | revised | revoked | loadFails
    | loadNothing | loadStart | logs | saves | saveFails | reportFails => trivial
  | waits | works | reports | notifies | notified | looks => exact hm
  | deleted | givesUp | shows | decides | informs | collects | edits | concludes | runs | stores =>
    exact carries_landed trivial trivial
  | entered => exact carries_landed (fun _ hresume => by cases hresume) trivial
  | puts => exact carries_landed carries_advance trivial
  | loadStage c runId value values last step hop =>
    exact (carries_resumed hop : (Phase.stage c step (some value) values).CarriesFor op)

/-- A mark takes the review at hand from the request of the operation. -/
theorem Phase.CarriesFor.mark (hm : m.CarriesFor op) (hedge : MarkEdge task op m n m') :
    m'.CarriesFor op := by
  cases hedge with
  | prepared | created | checked | resets | left | drafted | decided => trivial
  | executed | again | loaded => exact hm
  | reviewed c values request review version hstatus hv hr =>
    exact ⟨request, version, hm request rfl, hr⟩

/-- A call engages an operation on no case but that of its request. -/
theorem Phase.EngagedFor.edge (hm : m.EngagedFor op) (hedge : Edge env op m call r m') :
    m'.EngagedFor op := by
  intro request hop c hc
  rcases hedge.engaged with hnone | hsame
  · rw [hnone] at hc
    cases hc
  · exact hm request hop c (hsame.symm.trans hc)

/-- An operation is admitted to the case of its request. -/
theorem Phase.EngagedFor.mark (hm : m.EngagedFor op) (hedge : MarkEdge task op m n m') :
    m'.EngagedFor op := by
  intro request hop c hc
  cases hedge with
  | prepared case actorId contextCondition hprepared =>
    rw [hprepared] at hop
    cases hop
  | created ran case hprepares =>
    rw [hop] at hprepares
    exact hprepares.elim
  | checked ran case hchecks =>
    rw [hop] at hchecks
    cases hc
    exact hchecks.1.symm
  | loaded k m hloaded =>
    rcases hloaded with rfl | hrun
    · cases hc
    · exact hm request hop c ((Phase.engaged_of_inRun hrun).symm.trans hc ▸ rfl)
  | resets | left => cases hc
  | executed | again | drafted | decided | reviewed => exact hm request hop c hc

theorem Phase.OnBehalf.edge (hm : m.OnBehalf op) (hedge : Edge env op m call r m') : m'.OnBehalf op :=
  ⟨hm.engaged.edge hedge, hm.carries.edge hedge⟩

theorem Phase.OnBehalf.mark (hm : m.OnBehalf op) (hedge : MarkEdge task op m n m') : m'.OnBehalf op :=
  ⟨hm.engaged.mark hedge, hm.carries.mark hedge⟩

/-- A review that is saved is the one that was requested, for the case of its request. -/
theorem Phase.OnBehalf.saveReview {review : HumanReview} {r : Except PyError Unit}
    (hm : m.OnBehalf op) (hedge : Edge env op m (.saveReview review) r m') :
    ∃ request version, op = .review request ∧ request.caseId = review.caseId ∧
      request.rebind review.caseId version = .ok review := by
  cases hedge with
  | outside _ _ _ _ _ hq | waits _ _ _ _ hq | works _ _ _ _ _ _ _ hq | reports _ _ _ _ _ _ _ hq
    | reportFails _ _ _ _ _ _ _ hq => exact hq.elim
  | stores c values =>
    obtain ⟨request, version, hop, hrebind⟩ := hm.carries
    obtain rfl := hm.engaged request hop c rfl
    have hcase := (HumanReview.rebind_eq_ok hrebind).1
    exact ⟨request, version, hop, hcase.symm, hcase ▸ hrebind⟩

end Edges

/-- The chart of the engine, in which every task acts on behalf of its request. -/
def behalfChart (env : EngineEnvironment) : Chart engineSignature EngineOp Phase :=
  (engineChart env).within Phase.OnBehalf

/-- Every operation acts on behalf of its request. -/
theorem behalfChart_covers (env : EngineEnvironment) :
    (behalfChart env).Covers (engineSystem env) := by
  apply (engineChart_covers env).within
  · exact fun op => ⟨fun _ _ _ hc => (by cases hc), trivial⟩
  · exact fun _ _ _ _ _ hm hedge => hm.mark hedge
  · exact fun _ _ _ _ _ _ hm hedge => hm.edge hedge

/-- The store stays filed. -/
theorem filed_keeps (env : EngineEnvironment) :
    (behalfChart env).Keeps (engineSystem env) (fun _ _ => True) (fun _ w => Filed w.store)
      fun _ _ w => Filed w.store where
  serves _ _ _ := trivial
  start _ op _ _ _ h := h.enroll op
  expected _ _ _ _ c _ _ _ _ _ h := h.expected c
  call p _ o _ c _ _ _ _ _ _ h hedge := h.edge hedge.2 (perform_writes env p.world o c)
  mark _ _ n _ _ _ _ h _ := h.record n
  settled _ _ _ h := h

/-- The review of a case was requested on the engine. -/
def RequestedOn (p : EnginePool) (c : UUID) (review : HumanReview) : Prop :=
  ∃ request version, .review request ∈ p.ops ∧ request.caseId = c ∧
    request.rebind c version = .ok review

/-- Every task acts on behalf of its request, and every stored review was requested. -/
structure Requested (env : EngineEnvironment) (p : EnginePool) : Prop where
  traces : ∃ φ, (behalfChart env).Traces p φ
  filed : Filed p.world.store
  stored : ∀ c case, p.world.store.cases.get? c = some case → ∀ review ∈ case.reviews,
    RequestedOn p c review

/-- A later store: UUIDs are only drawn, and a case that was known is the same as then, or gone. -/
structure Store.Owned (s s' : Store) : Prop where
  drawn : s.nextUuid ≤ s'.nextUuid
  owned : ∀ c case', s'.cases.get? c = some case' → c < s.nextUuid →
    ∃ case, s.cases.get? c = some case ∧ case'.tenantId = case.tenantId ∧
      case'.assignedInvestigatorId = case.assignedInvestigatorId

theorem Store.Owned.refl (s : Store) : s.Owned s :=
  ⟨Nat.le_refl _, fun _ case h _ => ⟨case, h, rfl, rfl⟩⟩

theorem Store.Owned.trans {s s' s'' : Store} (h : s.Owned s') (h' : s'.Owned s'') : s.Owned s'' := by
  refine ⟨Nat.le_trans h.drawn h'.drawn, fun c case'' hcase'' hc => ?_⟩
  obtain ⟨case', hcase', htenant', hinvestigator'⟩ :=
    h'.owned c case'' hcase'' (Nat.lt_of_lt_of_le hc h.drawn)
  obtain ⟨case, hcase, htenant, hinvestigator⟩ := h.owned c case' hcase' hc
  exact ⟨case, hcase, htenant'.trans htenant, hinvestigator'.trans hinvestigator⟩

/-- No call hands a case over, or gives an ID out again. -/
theorem Writes.owned {env : EngineEnvironment} {s s' : Store} {call : EngineCall}
    {r : Except PyError call.Reply} (hw : Writes env s call r s') : s.Owned s' := by
  refine ⟨hw.nextUuid_le, fun c case' hcase' hc => ?_⟩
  cases hw.caseChange hcase' with
  | kept _ _ _ hcase => exact ⟨case', hcase, rfl, rfl⟩
  | created => exact absurd hc (Nat.lt_irrefl _)
  | recommended _ _ case hcase | status _ _ case hcase | reviewed _ case hcase =>
    exact ⟨case, hcase, rfl, rfl⟩

section Moves

variable {env : EngineEnvironment} {p q : EnginePool} {m : Move EngineOp EngineDraws}

/-- A store with the same cases has the same owners. -/
theorem Store.Owned.of_cases {s s' : Store} (hcases : s'.cases = s.cases)
    (hdrawn : s'.nextUuid = s.nextUuid) : s.Owned s' := by
  refine ⟨Nat.le_of_eq hdrawn.symm, fun c case hcase _ => ⟨case, ?_, rfl, rfl⟩⟩
  rwa [← hcases]

/-- No move of the engine hands a case over, or gives an ID out again. -/
theorem owned_move (h : (engineSystem env).move p m = some q) :
    p.world.store.Owned q.world.store := by
  cases m with
  | start op =>
    rw [System.move_start] at h
    cases h
    exact .of_cases ((rest_cases env _ _).trans (enroll_cases op _))
      ((rest_nextUuid env _ _).trans (enroll_nextUuid op _))
  | advance i draws =>
    obtain ⟨op, c, k, htask, rfl⟩ := System.move_advance h
    exact (perform_writes env p.world draws c).owned.trans
      (.of_cases (rest_cases env _ _) (rest_nextUuid env _ _))

/-- A review that was requested stays so. -/
theorem RequestedOn.move (h : (engineSystem env).move p m = some q) {c : UUID}
    {review : HumanReview} (hrequested : RequestedOn p c review) : RequestedOn q c review := by
  obtain ⟨request, version, hmem, hrest⟩ := hrequested
  refine ⟨request, version, ?_, hrest⟩
  rcases System.move_ops h with hops | ⟨op, -, hops⟩
  · rwa [hops]
  · rw [hops]
    exact List.mem_append_left _ hmem

/-- Every move stores only reviews that were requested. -/
theorem Requested.move (hp : Requested env p) (h : (engineSystem env).move p m = some q) :
    Requested env q := by
  obtain ⟨φ, hφ⟩ := hp.traces
  obtain ⟨φ', hφ', hfiled⟩ := (filed_keeps env).step (behalfChart_covers env) hφ hp.filed
    ⟨m, trivial, h⟩
  refine ⟨⟨φ', hφ'⟩, hfiled, fun c case hcase review hmem => ?_⟩
  cases m with
  | start op =>
    rw [System.move_start] at h
    cases h
    rw [rest_cases] at hcase
    change (op.enroll p.world).store.cases.get? c = some case at hcase
    rw [enroll_cases] at hcase
    exact (hp.stored c case hcase review hmem).move (m := .start op) (System.move_start p op)
  | advance i draws =>
    have hmove := h
    obtain ⟨op, call, k, htask, rfl⟩ := System.move_advance h
    have hw := perform_writes env p.world draws call
    change ((engineSystem env).rest _ (p.world.perform env draws call).2).2.store.cases.get? c = some case
      at hcase
    rw [rest_cases] at hcase
    cases hw.caseChange hcase with
    | kept _ _ _ hold => exact (hp.stored c case hold review hmem).move hmove
    | created => cases hmem
    | recommended _ _ old hold | status _ _ old hold =>
      exact (hp.stored c old hold review hmem).move hmove
    | reviewed saved old hold =>
      rcases List.mem_append.mp hmem with hmem | hnew
      · exact (hp.stored _ old hold review hmem).move hmove
      · obtain rfl := List.mem_singleton.mp hnew
        have hexpected : expectedReply (.saveReview review)
            (p.world.perform env draws (.saveReview review)).1 := hp.filed.expected _
        obtain ⟨m, hbehalf, hedge⟩ := hφ.edge htask hexpected
        change Edge env op (φ i) (.saveReview review)
          (p.world.perform env draws (.saveReview review)).1 m at hedge
        obtain ⟨request, version, rfl, hrequest⟩ := hbehalf.saveReview hedge
        refine RequestedOn.move hmove ⟨request, version, ?_, hrequest⟩
        exact List.mem_map.mpr ⟨_, List.mem_of_getElem? htask, rfl⟩

/-- Nothing is requested of an idle engine. -/
theorem requested_idle (env : EngineEnvironment) (bank : SyntheticBank) :
    Requested env (idleEngine bank) :=
  ⟨⟨_, Chart.traces_fresh _ _⟩, filed_empty, fun _ _ h => by cases h⟩

end Moves

end Amlguard
