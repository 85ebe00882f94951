import Amlguard.Api.Routes

/-!
# Separation of duties

A review is stored for a request that was authorized on an earlier reading of the case. What was read
then still holds: a stored case keeps its tenant and its investigator, an assignment is never
overwritten, and the reviewer was assigned by a request that was itself authorized to claim the case.

The engine's part is `Requested`: a stored review is the submitted one but for its version.
-/

namespace Amlguard

open Awaited
open Transitions (Run)

/-- The actor has the roles and the tenant under which the directory lists its ID. -/
def Knows (directory : String → Finset String × String) (actor : Actor) : Prop :=
  (actor.roles, actor.tenantId) = directory actor.actorId

/-- The IDs of known actors tell them apart. -/
theorem Knows.eq {directory : String → Finset String × String} {actor other : Actor}
    (h : Knows directory actor) (hother : Knows directory other) (hid : actor.actorId = other.actorId) :
    actor = other := by
  have hsame : (actor.roles, actor.tenantId) = (other.roles, other.tenantId) := by
    rw [h, hother, hid]
  have hroles := congrArg Prod.fst hsame
  have htenant := congrArg Prod.snd hsame
  cases actor
  cases other
  simp_all

/-- Only known actors make requests. -/
def ApiMove.ByKnown (directory : String → Finset String × String) : ApiMove → Prop
  | .arrive actor _ => Knows directory actor
  | .step _ _ | .engine _ _ => True

namespace ApiWorld

/-- The actor has full access, or it is a reviewer of the case's tenant that did not open the case. -/
def MayClaim (a : ApiWorld) (actor : Actor) (c : UUID) : Prop :=
  fullAccessRole ∈ actor.roles ∨ "reviewer" ∈ actor.roles ∧
    ∀ case, a.store.cases.get? c = some case →
      actor.tenantId = case.tenantId ∧ actor.actorId ≠ case.assignedInvestigatorId

/-- The actor has full access, or it is a reviewer that has claimed the case. -/
def MayReview (log : List RouteEvent) (actor : Actor) (c : UUID) : Prop :=
  fullAccessRole ∈ actor.roles ∨ "reviewer" ∈ actor.roles ∧ .claimed actor c ∈ log

/-- A later world: stored cases keep their owners and their reviewers, and nothing is unsaid. -/
structure Kept (a b : ApiWorld) : Prop where
  owned : a.store.Owned b.store
  said : a.log <:+ b.log
  assigned : ∀ c reviewer, c < a.store.nextUuid → a.reviewers.get? c = some reviewer →
    ∀ case, b.store.cases.get? c = some case → b.reviewers.get? c = some reviewer

namespace Kept

variable {a b b' : ApiWorld}

/-- What is stored later under a known ID was stored before. -/
theorem stored (h : a.Kept b) {c : UUID} {case : CaseData} (hc : c < a.store.nextUuid)
    (hcase : b.store.cases.get? c = some case) : ∃ old, a.store.cases.get? c = some old :=
  (h.owned.owned c case hcase hc).imp fun _ hold => hold.1

theorem trans (h : a.Kept b) (h' : b.Kept b') : a.Kept b' := by
  refine ⟨h.owned.trans h'.owned, h.said.trans h'.said, fun c reviewer hc hreviewer case hcase => ?_⟩
  have hlater := Nat.lt_of_lt_of_le hc h.owned.drawn
  obtain ⟨mid, hmid⟩ := h'.stored hlater hcase
  exact h'.assigned c reviewer hlater (h.assigned c reviewer hc hreviewer mid hmid) case hcase

theorem mayClaim (h : a.Kept b) {actor : Actor} {c : UUID} (hc : c < a.store.nextUuid)
    (hmay : a.MayClaim actor c) : b.MayClaim actor c := by
  rcases hmay with hfull | ⟨hrole, hties⟩
  · exact .inl hfull
  · refine .inr ⟨hrole, fun case hcase => ?_⟩
    obtain ⟨old, hold, htenant, hinvestigator⟩ := h.owned.owned c case hcase hc
    rw [htenant, hinvestigator]
    exact hties old hold

end Kept

/-- A log that says more lets review no fewer. -/
theorem MayReview.later {log log' : List RouteEvent} {actor : Actor} {c : UUID}
    (h : MayReview log actor c) (hsaid : log <:+ log') : MayReview log' actor c :=
  h.imp id fun hmay => ⟨hmay.1, hsaid.subset hmay.2⟩

end ApiWorld

/-- What a request was authorized for on an earlier reading of its case still holds. -/
def RouteRequest.Sound (a : ApiWorld) (request : RouteRequest) : Prop :=
  match request.stage, request.route with
  | .authorized _, .claimReview c => c < a.store.nextUuid ∧ a.MayClaim request.actor c
  | .authorized _, .humanReview c _ => ApiWorld.MayReview a.log request.actor c
  | _, _ => True

/-- A request is not about to act on its case. -/
def RouteStage.Harmless : RouteStage → Prop
  | .authorized _ => False
  | _ => True

theorem RouteStage.Harmless.sound {stage : RouteStage} (h : stage.Harmless) (a : ApiWorld)
    (actor : Actor) (route : Route) : RouteRequest.Sound a ⟨actor, route, stage⟩ := by
  cases stage with
  | authorized case => exact h.elim
  | arrived | denied | claimed | serving | answered => trivial

theorem RouteRequest.Sound.kept {a b : ApiWorld} {request : RouteRequest} (h : request.Sound a)
    (hkept : a.Kept b) : request.Sound b := by
  obtain ⟨actor, route, stage⟩ := request
  cases stage with
  | arrived | denied | claimed | serving | answered => trivial
  | authorized case =>
    cases route with
    | start | uiStart | resume | reset => trivial
    | claimReview c => exact ⟨Nat.lt_of_lt_of_le h.1 hkept.owned.drawn, hkept.mayClaim h.1 h.2⟩
    | humanReview c body => exact ApiWorld.MayReview.later h hkept.said

/-- What a step of a request comes to. -/
inductive Advance (env : EngineEnvironment) (a : ApiWorld) (actor : Actor) (route : Route) :
    RouteStage → ApiWorld × RouteStage → Prop
  /-- It is about to be answered. -/
  | answers (stage : RouteStage) (b : ApiWorld) (stage' : RouteStage) (hpool : b.pool = a.pool)
      (hreviewers : b.reviewers = a.reviewers) (hlog : b.log = a.log) (hstage : stage'.Harmless) :
      Advance env a actor route stage (b, stage')
  /-- It is authorized on its case. -/
  | authorizes (stage : RouteStage) (c : UUID) (action : CaseAction) (case : CaseData)
      (htarget : route.target = some (c, action)) (hcase : a.store.cases.get? c = some case)
      (htied : fullAccessRole ∈ actor.roles ∨
        actor.tenantId = case.tenantId ∧ Tied actor case (a.reviewers.get? c) action) :
      Advance env a actor route stage (a, .authorized (env.backend.served case))
  /-- It starts an operation of the engine other than a review. -/
  | engages (stage : RouteStage) (op : EngineOp) (hop : ∀ review, op ≠ .review review) :
      Advance env a actor route stage (a.serve env op)
  /-- It assigns the reviewer. -/
  | assigns (case : CaseData) (c : UUID) (reviewers : Dict UUID String) (stage' : RouteStage)
      (hroute : route = .claimReview c) (hassign : a.assignReviewer env c actor.actorId = .ok reviewers)
      (hstage : stage'.Harmless) :
      Advance env a actor route (.authorized case)
        ({ a with reviewers, log := .claimed actor c :: a.log }, stage')
  /-- It submits a review. -/
  | submits (case : CaseData) (c : UUID) (body : HumanReviewRequest) (review : HumanReview)
      (hroute : route = .humanReview c body) (hcase : review.caseId = c)
      (hreviewer : review.reviewerId = actor.actorId) :
      Advance env a actor route (.authorized case)
        ({ a with log := .submitted actor review :: a.log }.serve env (.review review))

section Steps

variable {env : EngineEnvironment} {a b : ApiWorld} {actor : Actor} {route : Route}
  {stage stage' : RouteStage} {draws : RouteDraws}

/-- The order of the reviews ties nobody to a case. -/
theorem authorizeCase_served (backend : RepositoryBackend) (case : CaseData)
    (assignedReviewerId : Option String) (action : CaseAction) :
    authorizeCase actor (backend.served case) assignedReviewerId action =
      authorizeCase actor case assignedReviewerId action := by
  cases backend with
  | inMemory => rfl
  | postgres => rfl

/-- A reading of the case denies the actor or authorizes it on the case as it is stored. -/
theorem caseForAction_cases (env : EngineEnvironment) (a : ApiWorld) (actor : Actor) (caseId : UUID)
    (action : CaseAction) (failure : Failure) :
    (a.caseForAction env actor caseId action failure).Harmless ∨
      ∃ case, a.store.cases.get? caseId = some case ∧
        a.caseForAction env actor caseId action failure = .authorized (env.backend.served case) ∧
          authorizeCase actor case (a.reviewers.get? caseId) action = .ok () := by
  unfold ApiWorld.caseForAction
  cases failure with
  | before e | after e => exact .inl trivial
  | none =>
    cases hcase : a.store.cases.get? caseId with
    | none =>
      simp only [ApiWorld.getCase, hcase, orRaise, Option.map_none]
      exact .inl trivial
    | some case =>
      simp only [ApiWorld.getCase, hcase, orRaise, Option.map_some, pure, Except.pure, bind, Except.bind,
        authorizeCase_served]
      cases hauthorized : authorizeCase actor case (a.reviewers.get? caseId) action with
      | error e => exact .inl trivial
      | ok _ => exact .inr ⟨case, rfl, rfl, hauthorized⟩

/-- A route that acts on a case is authorized on its target. -/
theorem Advance.ofTarget {c : UUID} {action : CaseAction} (htarget : route.target = some (c, action)) :
    Advance env a actor route stage (a, a.caseForAction env actor c action draws.failure) := by
  rcases caseForAction_cases env a actor c action draws.failure with
    hstage | ⟨case, hcase, hstage, hauthorized⟩
  · exact .answers stage a _ rfl rfl rfl hstage
  · rw [hstage]
    exact .authorizes stage c action case htarget hcase (authorizeCase_eq_ok.mp hauthorized)

/-- An audit event changes neither the engine nor the reviewers. -/
theorem Advance.ofAudit (event : RouteAudit) (answer : RouteAnswer) :
    Advance env a actor route stage (a.audit event draws.failure answer) := by
  unfold ApiWorld.audit
  cases draws.failure with
  | none | before e | after e => exact .answers stage _ _ rfl rfl rfl trivial

/-- A claim assigns the reviewer, or it changes nothing. -/
theorem Advance.ofClaim {case : CaseData} {c : UUID} (hroute : route = .claimReview c) :
    Advance env a actor route (.authorized case) (a.claimReview env actor case c draws.failure) := by
  unfold ApiWorld.claimReview ApiWorld.assigned
  split
  · exact .answers _ _ _ rfl rfl rfl trivial
  · cases draws.failure with
    | before e => exact .answers _ _ _ rfl rfl rfl trivial
    | none | after e =>
      cases hassign : a.assignReviewer env c actor.actorId with
      | error e => exact .answers _ _ _ rfl rfl rfl trivial
      | ok reviewers => exact .assigns case c reviewers _ hroute hassign trivial

/-- A review is submitted under the ID of the actor, or it is refused. -/
theorem Advance.ofReview {case : CaseData} {c : UUID} {body : HumanReviewRequest}
    (hroute : route = .humanReview c body) :
    Advance env a actor route (.authorized case) (a.humanReview env actor c body draws) := by
  unfold ApiWorld.humanReview
  cases hreview : body.toReview c actor.actorId draws with
  | error e => exact .answers _ _ _ rfl rfl rfl trivial
  | ok review =>
    unfold HumanReviewRequest.toReview at hreview
    split at hreview
    · cases hreview
      exact .submits case c body _ hroute rfl rfl
    · cases hreview

/-- A step of a request comes to one of these. -/
theorem advance_cases {r : ApiWorld × RouteStage}
    (h : a.advance env actor route draws stage = some r) : Advance env a actor route stage r := by
  cases stage with
  | arrived =>
    cases route with
    | start alertId contextCondition idempotencyKey =>
      simp only [ApiWorld.advance] at h
      split at h
      · cases h
        exact .answers _ _ _ rfl rfl rfl trivial
      · cases h
        exact .engages _ _ fun review hop => by cases hop
    | uiStart =>
      cases h
      exact .engages _ _ fun review hop => by cases hop
    | claimReview | resume | humanReview | reset =>
      cases h
      exact .ofTarget rfl
  | denied c action =>
    cases h
    exact .ofAudit _ _
  | claimed c =>
    cases h
    exact .ofAudit _ _
  | authorized case =>
    cases route with
    | start | uiStart => cases h
    | claimReview c =>
      cases h
      exact .ofClaim rfl
    | humanReview c body =>
      cases h
      exact .ofReview rfl
    | resume | reset =>
      cases h
      exact .engages _ _ fun review hop => by cases hop
  | serving task =>
    simp only [ApiWorld.advance] at h
    split at h
    · cases h
      unfold ApiWorld.keep
      split
      · exact .answers _ _ _ rfl rfl rfl trivial
      · exact .answers _ _ _ rfl rfl rfl trivial
    · cases h
  | answered answer => cases h

end Steps

/-- A claim that was made: a known actor was authorized, and was assigned to the case. -/
structure Claimed (directory : String → Finset String × String) (a : ApiWorld) (actor : Actor)
    (c : UUID) : Prop where
  known : Knows directory actor
  drawn : c < a.store.nextUuid
  mayClaim : a.MayClaim actor c
  assigned : ∀ case, a.store.cases.get? c = some case → a.reviewers.get? c = some actor.actorId

/-- A claim stays as it was made. -/
theorem Claimed.kept {directory : String → Finset String × String} {a b : ApiWorld} {actor : Actor}
    {c : UUID} (h : Claimed directory a actor c) (hkept : a.Kept b) : Claimed directory b actor c where
  known := h.known
  drawn := Nat.lt_of_lt_of_le h.drawn hkept.owned.drawn
  mayClaim := hkept.mayClaim h.drawn h.mayClaim
  assigned case hcase := by
    obtain ⟨old, hold⟩ := hkept.stored h.drawn hcase
    exact hkept.assigned c _ h.drawn (h.assigned old hold) case hcase

/-- Every assignment was claimed, every review was submitted by an actor that might, and the engine
reviews nothing else. -/
structure Duties (directory : String → Finset String × String) (env : EngineEnvironment)
    (a : ApiWorld) : Prop where
  requested : Requested env a.pool
  claimed : ∀ actor c, .claimed actor c ∈ a.log → Claimed directory a actor c
  assigned : ∀ c reviewer, a.reviewers.get? c = some reviewer →
    ∃ actor, .claimed actor c ∈ a.log ∧ actor.actorId = reviewer
  submitted : ∀ later earlier actor review, a.log = later ++ .submitted actor review :: earlier →
    Knows directory actor ∧ review.reviewerId = actor.actorId ∧
      ApiWorld.MayReview earlier actor review.caseId
  reviews : ∀ review, .review review ∈ a.pool.ops → ∃ actor, .submitted actor review ∈ a.log

section Keeps

variable {directory : String → Finset String × String} {env : EngineEnvironment} {a b : ApiWorld}
  {actor : Actor} {route : Route} {stage stage' : RouteStage}

/-- A move of the engine, with the reviewers of the cases that are left, keeps the world. -/
theorem ApiWorld.Kept.of_move {m : Move EngineOp EngineDraws}
    (hmove : (engineSystem env).move a.pool m = some b.pool) (hsaid : a.log <:+ b.log)
    (hreviewers : ∀ c reviewer case, a.reviewers.get? c = some reviewer →
      b.store.cases.get? c = some case → b.reviewers.get? c = some reviewer) : a.Kept b :=
  ⟨owned_move hmove, hsaid, fun c reviewer _ hreviewer case hcase =>
    hreviewers c reviewer case hreviewer hcase⟩

/-- The same engine and the same reviewers are kept. -/
theorem ApiWorld.Kept.of_same (hpool : b.pool = a.pool) (hreviewers : b.reviewers = a.reviewers)
    (hlog : b.log = a.log) : a.Kept b := by
  refine ⟨?_, ?_, fun c reviewer _ hreviewer _ _ => ?_⟩
  · rw [ApiWorld.store, ApiWorld.store, hpool]
    exact .refl _
  · exact hlog ▸ List.suffix_refl _
  · rwa [hreviewers]

/-- An operation is started in the pool of the engine. -/
theorem serve_move (env : EngineEnvironment) (a : ApiWorld) (op : EngineOp) :
    (engineSystem env).move a.pool (.start op) = some (a.serve env op).1.pool := by
  simp only [ApiWorld.serve, System.move_start, Option.getD_some]

/-- Who assigns the reviewer overwrites no other. -/
theorem assignReviewer_eq_ok {c : UUID} {reviewerId : String} {reviewers : Dict UUID String}
    (h : a.assignReviewer env c reviewerId = .ok reviewers) :
    reviewers = a.reviewers.set c reviewerId ∧
      ∀ reviewer, a.reviewers.get? c = some reviewer → reviewer = reviewerId := by
  unfold ApiWorld.assignReviewer at h
  cases hcase : a.store.cases.get? c with
  | none => simp [hcase, orRaise, bind, Except.bind] at h
  | some case =>
    simp only [hcase, orRaise, raiseIf, pure, Except.pure, bind, Except.bind] at h
    split at h
    · cases h
    · rename_i hsame
      split at hsame
      · cases hsame
      · rename_i hother
        cases h
        refine ⟨rfl, fun reviewer hreviewer => ?_⟩
        by_contra hne
        exact hother ⟨reviewer, hreviewer, hne⟩

/-- An assignment keeps the world. -/
theorem ApiWorld.Kept.of_assign {c : UUID} {reviewers : Dict UUID String}
    (h : a.assignReviewer env c actor.actorId = .ok reviewers) :
    a.Kept { a with reviewers, log := .claimed actor c :: a.log } := by
  obtain ⟨rfl, hsame⟩ := assignReviewer_eq_ok h
  refine ⟨.refl _, List.suffix_cons _ _, fun c' reviewer _ hreviewer _ _ => ?_⟩
  simp only [Dict.get?_set]
  split
  · rename_i hc
    subst hc
    rw [hsame reviewer hreviewer]
  · exact hreviewer

/-- An event that is no review adds none to the log. -/
theorem submitted_of_cons {log later earlier : List RouteEvent} {c : UUID} {review : HumanReview}
    {other : Actor} (h : .claimed actor c :: log = later ++ .submitted other review :: earlier) :
    ∃ later', log = later' ++ .submitted other review :: earlier := by
  cases later with
  | nil => cases h
  | cons event later => exact ⟨later, (List.cons.inj h).2⟩

namespace Duties

/-- The duties depend on the engine, the reviewers and the log only. -/
theorem congr (h : Duties directory env a) (hpool : b.pool = a.pool)
    (hreviewers : b.reviewers = a.reviewers) (hlog : b.log = a.log) : Duties directory env b where
  requested := hpool ▸ h.requested
  claimed other c hclaimed :=
    (h.claimed other c (hlog ▸ hclaimed)).kept (.of_same hpool hreviewers hlog)
  assigned c reviewer hreviewer := by
    rw [hlog]
    exact h.assigned c reviewer (hreviewers ▸ hreviewer)
  submitted later earlier other review hsplit :=
    h.submitted later earlier other review (hlog ▸ hsplit)
  reviews review hreview := by
    rw [hlog]
    exact h.reviews review (hpool ▸ hreview)

/-- A move of the engine keeps the duties when a review that it starts was just submitted. -/
theorem move (h : Duties directory env a) (hkept : a.Kept b) {m : Move EngineOp EngineDraws}
    (hmove : (engineSystem env).move a.pool m = some b.pool) (hlog : b.log = a.log)
    (hassigned : ∀ c reviewer, b.reviewers.get? c = some reviewer → a.reviewers.get? c = some reviewer)
    (hstart : ∀ review, m ≠ .start (.review review)) : Duties directory env b where
  requested := h.requested.move hmove
  claimed other c hclaimed := (h.claimed other c (hlog ▸ hclaimed)).kept hkept
  assigned c reviewer hreviewer := by
    rw [hlog]
    exact h.assigned c reviewer (hassigned c reviewer hreviewer)
  submitted later earlier other review hsplit :=
    h.submitted later earlier other review (hlog ▸ hsplit)
  reviews review hreview := by
    rw [hlog]
    rcases System.move_ops hmove with hops | ⟨op, rfl, hops⟩
    · exact h.reviews review (hops ▸ hreview)
    · rw [hops] at hreview
      rcases List.mem_append.mp hreview with hold | hnew
      · exact h.reviews review hold
      · exact absurd (congrArg Move.start (List.mem_singleton.mp hnew).symm) (hstart review)

/-- An authorized claim keeps the duties. -/
theorem claim (h : Duties directory env a) (hknows : Knows directory actor) {c : UUID}
    (hmay : c < a.store.nextUuid ∧ a.MayClaim actor c) {reviewers : Dict UUID String}
    (hassign : a.assignReviewer env c actor.actorId = .ok reviewers) :
    Duties directory env { a with reviewers, log := .claimed actor c :: a.log } := by
  have hkept := ApiWorld.Kept.of_assign hassign
  obtain ⟨rfl, hsame⟩ := assignReviewer_eq_ok hassign
  refine ⟨h.requested, fun other c' hclaimed => ?_, fun c' reviewer hreviewer => ?_,
    fun later earlier other review hsplit => ?_, fun review hreview => ?_⟩
  · rcases List.mem_cons.mp hclaimed with hnew | hold
    · cases hnew
      exact ⟨hknows, hmay.1, hmay.2, fun case hcase => Dict.get?_set_self _ _ _⟩
    · exact (h.claimed other c' hold).kept hkept
  · simp only [Dict.get?_set] at hreviewer
    split at hreviewer
    · rename_i hc
      subst hc
      exact ⟨actor, List.mem_cons_self, Option.some.inj hreviewer⟩
    · obtain ⟨other, hclaimed, hid⟩ := h.assigned c' reviewer hreviewer
      exact ⟨other, List.mem_cons_of_mem _ hclaimed, hid⟩
  · obtain ⟨later', hlog⟩ := submitted_of_cons hsplit
    exact h.submitted later' earlier other review hlog
  · obtain ⟨other, hsubmitted⟩ := h.reviews review hreview
    exact ⟨other, List.mem_cons_of_mem _ hsubmitted⟩

/-- An authorized review keeps the duties when it is submitted under the ID of the actor. -/
theorem submit (h : Duties directory env a) (hknows : Knows directory actor) {review : HumanReview}
    (hreviewer : review.reviewerId = actor.actorId)
    (hmay : ApiWorld.MayReview a.log actor review.caseId) :
    Duties directory env
      ({ a with log := .submitted actor review :: a.log }.serve env (.review review)).1 := by
  have hmove :=
    serve_move env { a with log := .submitted actor review :: a.log } (.review review)
  have hkept : a.Kept ({ a with log := .submitted actor review :: a.log }.serve env (.review review)).1 :=
    .of_move hmove (List.suffix_cons _ _) fun c reviewer case hassigned _ => hassigned
  refine ⟨h.requested.move hmove, fun other c hclaimed => ?_, fun c reviewer hassigned => ?_,
    fun later earlier other review' hsplit => ?_, fun review' hreview => ?_⟩
  · rcases List.mem_cons.mp hclaimed with hnew | hold
    · cases hnew
    · exact (h.claimed other c hold).kept hkept
  · obtain ⟨other, hclaimed, hid⟩ := h.assigned c reviewer hassigned
    exact ⟨other, List.mem_cons_of_mem _ hclaimed, hid⟩
  · cases later with
    | nil =>
      cases hsplit
      exact ⟨hknows, hreviewer, hmay⟩
    | cons event later => exact h.submitted later earlier other review' (List.cons.inj hsplit).2
  · rcases System.move_ops hmove with hops | ⟨op, hop, hops⟩
    · obtain ⟨other, hsubmitted⟩ := h.reviews review' (hops ▸ hreview)
      exact ⟨other, List.mem_cons_of_mem _ hsubmitted⟩
    · cases hop
      rw [hops] at hreview
      rcases List.mem_append.mp hreview with hold | hnew
      · obtain ⟨other, hsubmitted⟩ := h.reviews review' hold
        exact ⟨other, List.mem_cons_of_mem _ hsubmitted⟩
      · cases List.mem_singleton.mp hnew
        exact ⟨actor, List.mem_cons_self⟩

/-- An authorization on the stored case is sound. -/
theorem authorize (h : Duties directory env a) (hknows : Knows directory actor) {c : UUID}
    {action : CaseAction} {case : CaseData} (htarget : route.target = some (c, action))
    (hcase : a.store.cases.get? c = some case)
    (htied : fullAccessRole ∈ actor.roles ∨
      actor.tenantId = case.tenantId ∧ Tied actor case (a.reviewers.get? c) action) (read : CaseData) :
    RouteRequest.Sound a ⟨actor, route, .authorized read⟩ := by
  cases route with
  | start | uiStart | resume | reset => trivial
  | claimReview c' =>
    cases htarget
    refine ⟨(h.requested.filed.keyed c case hcase).2, htied.imp id fun hties => ?_⟩
    refine ⟨hties.2.1, fun stored hstored => ?_⟩
    cases hcase.symm.trans hstored
    exact ⟨hties.1, hties.2.2⟩
  | humanReview c' body =>
    cases htarget
    refine htied.imp id fun hties => ⟨hties.2.1, ?_⟩
    obtain ⟨other, hclaimed, hid⟩ := h.assigned c actor.actorId hties.2.2.symm
    obtain rfl := (h.claimed other c hclaimed).known.eq hknows hid
    exact hclaimed

/-- A step of a sound request keeps the world and the duties, and leaves the request sound. -/
theorem advance (h : Duties directory env a) (hknows : Knows directory actor)
    (hsound : RouteRequest.Sound a ⟨actor, route, stage⟩)
    (hadvance : Advance env a actor route stage (b, stage')) :
    a.Kept b ∧ Duties directory env b ∧ RouteRequest.Sound b ⟨actor, route, stage'⟩ := by
  cases hadvance with
  | answers _ _ _ hpool hreviewers hlog hstage =>
    exact ⟨.of_same hpool hreviewers hlog, h.congr hpool hreviewers hlog, hstage.sound b actor route⟩
  | authorizes _ c action case htarget hcase htied =>
    exact ⟨.of_same rfl rfl rfl, h, h.authorize hknows htarget hcase htied _⟩
  | engages _ op hop =>
    have hmove := serve_move env a op
    have hkept : a.Kept (a.serve env op).1 :=
      .of_move hmove (List.suffix_refl _) fun _ _ _ hassigned _ => hassigned
    have hstart : ∀ review, (Move.start op : Move EngineOp EngineDraws) ≠ .start (.review review) := by
      intro review hsame
      cases hsame
      exact hop review rfl
    exact ⟨hkept, h.move hkept hmove rfl (fun _ _ hassigned => hassigned) hstart, trivial⟩
  | assigns case c reviewers _ hroute hassign hstage =>
    subst hroute
    exact ⟨.of_assign hassign, h.claim hknows hsound hassign, hstage.sound _ actor _⟩
  | submits case c body review hroute hcase hreviewer =>
    subst hroute hcase
    have hmove :=
      serve_move env { a with log := .submitted actor review :: a.log } (.review review)
    exact ⟨.of_move hmove (List.suffix_cons _ _) fun _ _ _ hassigned _ => hassigned,
      h.submit hknows hreviewer hsound, trivial⟩

/-- A task of the engine keeps the world and the duties. -/
theorem settle (h : Duties directory env a) {task : ℕ} {draws : EngineDraws} {pool : EnginePool}
    (hmove : (engineSystem env).move a.pool (.advance task draws) = some pool) :
    a.Kept (a.settle pool) ∧ Duties directory env (a.settle pool) := by
  have hkept : a.Kept (a.settle pool) := by
    refine .of_move hmove (List.suffix_refl _) fun c reviewer case hassigned hcase => ?_
    have hstored : pool.world.store.cases.get? c = some case := hcase
    simp [ApiWorld.settle, Dict.get?_filterMap, hassigned, hstored]
  have hstart : ∀ review, Move.advance task draws ≠ .start (EngineOp.review review) :=
    fun review hsame => by cases hsame
  refine ⟨hkept, h.move hkept hmove rfl (fun c reviewer hassigned => ?_) hstart⟩
  simp only [ApiWorld.settle, Dict.get?_filterMap, Option.bind_eq_some_iff] at hassigned
  obtain ⟨old, hold, hsame⟩ := hassigned
  split at hsame
  · cases hsame
    exact hold
  · cases hsame

end Duties

/-- The duties are kept, and every request is by a known actor and sound. -/
structure Separated (directory : String → Finset String × String) (env : EngineEnvironment)
    (a : ApiWorld) : Prop where
  duties : Duties directory env a
  sound : ∀ request ∈ a.requests, Knows directory request.actor ∧ request.Sound a

/-- Every move by known actors keeps the world and the separation of duties. -/
theorem Separated.move (h : Separated directory env a) {m : ApiMove} (hknown : m.ByKnown directory)
    (hmove : a.move env m = some b) : a.Kept b ∧ Separated directory env b := by
  cases m with
  | arrive actor route =>
    simp only [ApiWorld.move, Option.some.injEq] at hmove
    subst hmove
    refine ⟨.of_same rfl rfl rfl, h.duties.congr rfl rfl rfl, fun request hrequest => ?_⟩
    rcases List.mem_append.mp hrequest with hold | hnew
    · exact ⟨(h.sound request hold).1, (h.sound request hold).2.kept (.of_same rfl rfl rfl)⟩
    · obtain rfl := List.mem_singleton.mp hnew
      refine ⟨hknown, RouteStage.Harmless.sound ?_ _ _ _⟩
      split
      · trivial
      · trivial
  | step i draws =>
    obtain ⟨request, hrequest, hrest⟩ := Option.bind_eq_some_iff.mp hmove
    obtain ⟨⟨a', stage⟩, hadvance, hb⟩ := Option.bind_eq_some_iff.mp hrest
    cases hb
    have hthis := h.sound request (List.mem_of_getElem? hrequest)
    obtain ⟨hkept, hduties, hsound⟩ := h.duties.advance hthis.1 hthis.2 (advance_cases hadvance)
    have hb : a.Kept { a' with requests := a.requests.set i { request with stage } } :=
      ⟨hkept.owned, hkept.said, hkept.assigned⟩
    refine ⟨hb, hduties.congr rfl rfl rfl, fun other hother => ?_⟩
    rcases List.mem_or_eq_of_mem_set hother with hold | rfl
    · exact ⟨(h.sound other hold).1, (h.sound other hold).2.kept hb⟩
    · exact ⟨hthis.1, hsound.kept (.of_same rfl rfl rfl)⟩
  | engine task draws =>
    obtain ⟨pool, hpool, rfl⟩ := Option.map_eq_some_iff.mp hmove
    obtain ⟨hkept, hduties⟩ := h.duties.settle hpool
    exact ⟨hkept, hduties, fun request hrequest =>
      ⟨(h.sound request hrequest).1, (h.sound request hrequest).2.kept hkept⟩⟩

/-- No duty is at stake before the first request. -/
theorem separated_idle (bank : SyntheticBank) : Separated directory env (idleApi bank) where
  duties :=
    { requested := requested_idle env bank
      claimed := fun _ _ h => by cases h
      assigned := fun _ _ h => by cases h
      submitted := fun later _ _ _ h => by cases later <;> cases h
      reviews := fun _ h => by cases h }
  sound _ h := by cases h

end Keeps

/-- Requests by known actors take a world to another, in any order. -/
abbrev ApiRun (directory : String → Finset String × String) (env : EngineEnvironment) :
    ApiWorld → List ApiMove → ApiWorld → Prop :=
  Run (fun a m b => a.move env m = some b) fun _ m => m.ByKnown directory

section Runs

variable {directory : String → Finset String × String} {env : EngineEnvironment} {a b : ApiWorld}
  {moves : List ApiMove}

/-- A run by known actors keeps the world and the separation of duties. -/
theorem Separated.run (hrun : ApiRun directory env a moves b) (h : Separated directory env a) :
    a.Kept b ∧ Separated directory env b := by
  induction hrun with
  | nil a => exact ⟨.of_same rfl rfl rfl, h⟩
  | cons a a' b m rest hknown hmove hrest ih =>
    obtain ⟨hkept, hseparated⟩ := h.move hknown hmove
    obtain ⟨hlater, hend⟩ := ih hseparated
    exact ⟨hkept.trans hlater, hend⟩

/-- A stored review was submitted by an administrator, or by the assigned reviewer of the case. -/
theorem Duties.stored (h : Duties directory env a) {c : UUID} {case : CaseData}
    (hcase : a.store.cases.get? c = some case) {review : HumanReview} (hreview : review ∈ case.reviews) :
    ∃ actor request version later earlier, a.log = later ++ .submitted actor request :: earlier ∧
      request.caseId = c ∧ request.rebind c version = .ok review ∧ review.reviewerId = actor.actorId ∧
      Knows directory actor ∧ (fullAccessRole ∈ actor.roles ∨
        "reviewer" ∈ actor.roles ∧ actor.tenantId = case.tenantId ∧ .claimed actor c ∈ earlier ∧
          a.reviewers.get? c = some actor.actorId ∧ actor.actorId ≠ case.assignedInvestigatorId) := by
  obtain ⟨request, version, hop, rfl, hrebind⟩ := h.requested.stored c case hcase review hreview
  obtain ⟨actor, hsubmitted⟩ := h.reviews request hop
  obtain ⟨later, earlier, hlog⟩ := List.append_of_mem hsubmitted
  obtain ⟨hknows, hreviewer, hmay⟩ := h.submitted later earlier actor request hlog
  have hid : review.reviewerId = actor.actorId :=
    (HumanReview.rebind_eq_ok hrebind).2.2.2.2.1.trans hreviewer
  refine ⟨actor, request, version, later, earlier, hlog, rfl, hrebind, hid, hknows, ?_⟩
  rcases hmay with hfull | ⟨hrole, hclaim⟩
  · exact .inl hfull
  · have hmem : .claimed actor request.caseId ∈ a.log := by
      rw [hlog]
      exact List.mem_append_right _ (List.mem_cons_of_mem _ hclaim)
    have hclaimed := h.claimed actor request.caseId hmem
    refine hclaimed.mayClaim.imp id fun hties => ?_
    obtain ⟨htenant, hopened⟩ := hties.2 case hcase
    exact ⟨hrole, htenant, hclaim, hclaimed.assigned case hcase, hopened⟩

/-- A computed list of moves by known actors is a run. -/
theorem apiRun_of_run (hrun : a.run env moves = some b) (hknown : ∀ m ∈ moves, m.ByKnown directory) :
    ApiRun directory env a moves b := by
  induction moves generalizing a with
  | nil =>
    cases hrun
    exact .nil _
  | cons m rest ih =>
    obtain ⟨a', hmove, hrest⟩ := Option.bind_eq_some_iff.mp hrun
    exact .cons _ a' b m rest (hknown m List.mem_cons_self) hmove
      (ih hrest fun m' hm' => hknown m' (List.mem_cons_of_mem m hm'))

/-- When every actor ID has its roles and its tenant, then in every state that requests lead to, in
whatever order, a stored review was submitted by an administrator, or by a reviewer of the case's
tenant that was assigned by an earlier claim and did not open the case; and from there on the reviewer
of a case stays assigned while the case is stored. -/
theorem reviews_separated (directory : String → Finset String × String) (env : EngineEnvironment)
    (bank : SyntheticBank) (moves more : List ApiMove) (a b : ApiWorld)
    (hrun : ApiRun directory env (idleApi bank) moves a) (hmore : ApiRun directory env a more b) :
    (∀ c case, a.store.cases.get? c = some case → ∀ review ∈ case.reviews,
      ∃ actor request version later earlier, a.log = later ++ .submitted actor request :: earlier ∧
        request.caseId = c ∧ request.rebind c version = .ok review ∧
        review.reviewerId = actor.actorId ∧ Knows directory actor ∧
        (fullAccessRole ∈ actor.roles ∨
          "reviewer" ∈ actor.roles ∧ actor.tenantId = case.tenantId ∧ .claimed actor c ∈ earlier ∧
            a.reviewers.get? c = some actor.actorId ∧
              actor.actorId ≠ case.assignedInvestigatorId)) ∧
      ∀ c reviewer, a.reviewers.get? c = some reviewer →
        ∀ case, b.store.cases.get? c = some case → b.reviewers.get? c = some reviewer := by
  obtain ⟨-, hseparated⟩ := (separated_idle bank).run hrun
  obtain ⟨hkept, -⟩ := hseparated.run hmore
  constructor
  · intro c case hcase review hreview
    exact hseparated.duties.stored hcase hreview
  · intro c reviewer hreviewer case hcase
    obtain ⟨actor, hclaimed, -⟩ := hseparated.duties.assigned c reviewer hreviewer
    have hdrawn := (hseparated.duties.claimed actor c hclaimed).drawn
    exact hkept.assigned c reviewer hdrawn hreviewer case hcase

end Runs

/-- One reviewer and analysts, in one tenant. -/
def sampleDirectory (actorId : String) : Finset String × String :=
  (if actorId = "reviewer" then {"reviewer"} else {"analyst"}, "tenant")

/-- The actor of an ID. -/
def sampleActor (actorId : String) : Actor :=
  ⟨actorId, (sampleDirectory actorId).1, (sampleDirectory actorId).2⟩

/-- The body of the sample approval. -/
def sampleSubmission : HumanReviewRequest where
  recommendationVersion := sampleApproval.recommendationVersion
  action := sampleApproval.action
  rationale := sampleApproval.rationale
  editedRecommendation := sampleApproval.editedRecommendation
  version_pos := sampleApproval.version_pos
  rationale_length := sampleApproval.rationale_length

/-- An investigation is started, claimed and approved. -/
def sampleRequests : List ApiMove :=
  .arrive (sampleActor "investigator") (.start "A-1" "B5" "key") :: .step 0 ⟨.none, 0, 0⟩ ::
    List.replicate 34 (.engine 0 quietDraws) ++
    (.arrive (sampleActor "reviewer") (.claimReview 0) :: List.replicate 3 (.step 1 ⟨.none, 0, 0⟩)) ++
    (.arrive (sampleActor "reviewer") (.humanReview 0 sampleSubmission) ::
      List.replicate 2 (.step 2 ⟨.none, 0, 0⟩)) ++ List.replicate 10 (.engine 1 quietDraws)

/-- The review of the case was submitted by its reviewer. -/
theorem reviews_separated_approved :
    ∃ a, ApiRun sampleDirectory (sampleEnvironment .postgres) (idleApi sampleBank) sampleRequests a ∧
      ((a.store.cases.get? 0).any fun case => case.reviews = [sampleApproval]) = true ∧
        a.reviewers.get? 0 = some "reviewer" ∧
          ∀ c case, a.store.cases.get? c = some case → ∀ review ∈ case.reviews, ∃ actor request,
            .submitted actor request ∈ a.log ∧ review.reviewerId = actor.actorId := by
  have htest : ((idleApi sampleBank).run (sampleEnvironment .postgres) sampleRequests).any (fun a =>
      ((a.store.cases.get? 0).any fun case => case.reviews = [sampleApproval]) ∧
        a.reviewers.get? 0 = some "reviewer") = true := by
    decide +kernel
  have hknown : ∀ m ∈ sampleRequests, m.ByKnown sampleDirectory := by
    intro m hm
    simp only [sampleRequests, List.mem_append, List.mem_cons, List.mem_replicate, or_assoc] at hm
    rcases hm with rfl | rfl | ⟨-, rfl⟩ | rfl | ⟨-, rfl⟩ | rfl | ⟨-, rfl⟩ | ⟨-, rfl⟩
    all_goals trivial
  obtain ⟨a, hrun, htrue⟩ := (Option.any_eq_true _ _).mp htest
  obtain ⟨hstored, hassigned⟩ := of_decide_eq_true htrue
  have hapi := apiRun_of_run hrun hknown
  refine ⟨a, hapi, hstored, hassigned, fun c case hcase review hreview => ?_⟩
  obtain ⟨actor, request, version, later, earlier, hlog, -, -, hid, -⟩ :=
    (reviews_separated _ _ _ _ [] a a hapi (.nil a)).1 c case hcase review hreview
  exact ⟨actor, request, hlog ▸ by simp, hid⟩

end Amlguard
