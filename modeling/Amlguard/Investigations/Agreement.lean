import Amlguard.Investigations.CaseTables

/-!
# The repository in memory and the tables

PostgreSQL answers from tables, whose columns limit what they hold. Through the store whose cases the tables
hold they answer as the repository in memory does, exactly as long as every request is safe and fits. A review
that does not fit makes no difference where the repository in memory refuses it too.
-/

namespace Amlguard

open Components

namespace RepositoryRequest

/-- Being the same answer is an equivalence. -/
theorem sameReply_equivalence (q : RepositoryRequest) : Equivalence q.SameReply := by
  cases q with
  | listCases => exact ⟨.refl, .symm, .trans⟩
  | createCase _ _ _ => exact eq_equivalence
  | getCase _ => exact eq_equivalence
  | deleteCase _ => exact eq_equivalence
  | saveRecommendation _ _ => exact eq_equivalence
  | saveReview _ => exact eq_equivalence
  | assignReviewer _ _ => exact eq_equivalence
  | setStatus _ _ => exact eq_equivalence

variable {q : RepositoryRequest}

/-- The same answer is as much like that of the in-memory repository. -/
theorem alike_congr (a : Except PyError q.Reply) {b c : Except PyError q.Reply} (h : q.SameAnswer b c) :
    q.AlikeOnPostgres a b ↔ q.AlikeOnPostgres a c := by
  cases b with
  | error e =>
    cases c with
    | error e' =>
      change e = e' at h
      rw [h]
    | ok reply => exact h.elim
  | ok reply =>
    cases c with
    | error e => exact h.elim
    | ok reply' =>
      cases a with
      | error e => exact Iff.rfl
      | ok memory =>
        have hequivalence := q.sameReply_equivalence
        exact ⟨fun hreply => hequivalence.trans hreply h,
          fun hreply => hequivalence.trans hreply (hequivalence.symm h)⟩

/-- Two answers that are like one of the in-memory repository are the same, unless that is an exception. -/
theorem same_of_alike {reply : q.Reply} {b c : Except PyError q.Reply}
    (hb : q.AlikeOnPostgres (.ok reply) b) (hc : q.AlikeOnPostgres (.ok reply) c) : q.SameAnswer b c := by
  cases b with
  | error e => exact hb.elim
  | ok reply' =>
    cases c with
    | error e => exact hc.elim
    | ok reply'' =>
      have hequivalence := q.sameReply_equivalence
      exact hequivalence.trans (hequivalence.symm hb) hc

end RepositoryRequest

namespace CaseStore

/-- The in-memory repository refuses a review: it has no such case, or one with this version and action. -/
def Refuses (s : CaseStore) : RepositoryRequest → Prop
  | .saveReview review => ∀ case, s.store.cases.get? review.caseId = some case →
      ∃ stored ∈ case.reviews, RepositoryBackend.inMemory.duplicates stored review
  | .listCases | .createCase _ _ _ | .getCase _ | .deleteCase _ | .saveRecommendation _ _
  | .assignReviewer _ _ | .setStatus _ _ => False

variable {env : EngineEnvironment} {bank : SyntheticBank} {s s' : CaseStore}

/-- The same requests fit where the cases are the same. -/
theorem Twins.fits_iff (h : Twins bank s s') (q : DrawnRequest) :
    CaseTables.Fits bank s' q ↔ CaseTables.Fits bank s q := by
  obtain ⟨request, uuid, now⟩ := q
  cases request with
  | createCase alertId tenantId investigatorId =>
    unfold CaseTables.Fits
    dsimp only
    rw [h.pairCase, Option.map_eq_none_iff, h.cases, Dict.keys_map]
  | saveRecommendation c recommendation =>
    unfold CaseTables.Fits
    dsimp only
    rw [h.get?]
    simp only [Option.map_eq_some_iff, forall_exists_index, and_imp, forall_apply_eq_imp_iff₂]
    rfl
  | assignReviewer c reviewerId =>
    unfold CaseTables.Fits Dict.contains
    dsimp only
    rw [h.get?, h.reviewers, Option.isSome_map]
  | listCases => exact Iff.rfl
  | getCase c => exact Iff.rfl
  | deleteCase c => exact Iff.rfl
  | saveReview review => exact Iff.rfl
  | setStatus c status => exact Iff.rfl

/-- What the in-memory repository refuses is safe. -/
theorem Refuses.safe {q : RepositoryRequest} (h : s.Refuses q) : s.Safe q := by
  cases q with
  | saveReview review =>
    intro case hcase
    obtain ⟨stored, hstored, hsame⟩ := h case hcase
    exact .inl ⟨stored, hstored, hsame⟩
  | listCases => exact h.elim
  | createCase _ _ _ => exact h.elim
  | getCase _ => exact h.elim
  | deleteCase _ => exact h.elim
  | saveRecommendation _ _ => exact h.elim
  | assignReviewer _ _ => exact h.elim
  | setStatus _ _ => exact h.elim

/-- The in-memory repository accepts a review, or refuses it and stays as it is. -/
theorem saveReview_cases (review : HumanReview) :
    ((s.store.saveReview .inMemory review).1 = .ok () ∧ ¬s.Refuses (.saveReview review)) ∨
      ∃ e, s.store.saveReview .inMemory review = (.error e, s.store) ∧ s.Refuses (.saveReview review) := by
  have hfree : ¬s.store.reviewIdTaken .inMemory review := fun htaken => by cases htaken.1
  have hrefuses : s.Refuses (.saveReview review) ↔ ∀ case, s.store.cases.get? review.caseId = some case →
      ∃ stored ∈ case.reviews, RepositoryBackend.inMemory.duplicates stored review := Iff.rfl
  rw [hrefuses]
  unfold Store.saveReview Store.updateCase
  cases hcase : s.store.cases.get? review.caseId with
  | none => exact .inr ⟨_, rfl, fun _ hsome => by cases hsome⟩
  | some case =>
    simp only [Option.some.injEq, forall_eq']
    by_cases hsame : ∃ stored ∈ case.reviews, RepositoryBackend.inMemory.duplicates stored review
    · refine .inr ⟨RepositoryBackend.inMemory.duplicateReview, ?_, hsame⟩
      simp only [raiseIf, hfree, hsame, if_true, if_false, ok_bind, error_bind]
    · refine .inl ⟨?_, hsame⟩
      simp only [raiseIf, hfree, hsame, if_false, ok_bind]
      rfl

/-- A request that does not fit is a review that cannot be stored, or one that the in-memory repository
answers and that is safe. -/
theorem unfit_cases (env : EngineEnvironment) {q : DrawnRequest} (h : ¬CaseTables.Fits bank s q) :
    (∃ review, q.request = .saveReview review ∧ ¬review.Storable) ∨
      s.Safe q.request ∧ ¬s.Refuses q.request ∧
        ∃ reply, (s.answer (env.over .inMemory) bank q).1 = .ok reply := by
  obtain ⟨request, uuid, now⟩ := q
  cases request with
  | createCase alertId tenantId investigatorId =>
    unfold CaseTables.Fits at h
    dsimp only at h
    push Not at h
    obtain ⟨hsome, hnone, -⟩ := h
    obtain ⟨alert, halert⟩ := Option.isSome_iff_exists.mp hsome
    refine .inr ⟨?_, not_false, ?_⟩
    · intro case hcase
      rw [hnone] at hcase
      cases hcase
    · change ∃ reply, (s.createCase (env.over .inMemory) bank alertId tenantId investigatorId uuid).1 =
        .ok reply
      rw [createCase_inMemory, hnone, halert]
      exact ⟨_, rfl⟩
  | saveRecommendation c recommendation =>
    unfold CaseTables.Fits at h
    dsimp only at h
    push Not at h
    obtain ⟨case, hcase, -⟩ := h
    refine .inr ⟨trivial, not_false, ?_⟩
    change ∃ reply, (s.store.saveRecommendation .inMemory c recommendation).1 = .ok reply
    unfold Store.saveRecommendation Store.updateCase
    rw [hcase]
    exact ⟨_, rfl⟩
  | saveReview review => exact .inl ⟨review, rfl, h⟩
  | assignReviewer c reviewerId =>
    unfold CaseTables.Fits at h
    dsimp only at h
    push Not at h
    obtain ⟨hcontains, hnone, -⟩ := h
    obtain ⟨case, hcase⟩ := Option.isSome_iff_exists.mp hcontains
    refine .inr ⟨trivial, not_false, ?_⟩
    change ∃ reply, (s.assignReviewer (env.over .inMemory) c reviewerId).1 = .ok reply
    unfold assignReviewer
    rw [hcase, hnone]
    have hfree : ¬∃ assigned ∈ (none : Option String), assigned ≠ reviewerId := by simp
    dsimp only
    rw [if_neg hfree]
    exact ⟨_, rfl⟩
  | listCases => exact absurd trivial h
  | getCase c => exact absurd trivial h
  | deleteCase c => exact absurd trivial h
  | setStatus c status => exact absurd trivial h

/-- The repositories answer a request alike in this state of the in-memory one: it is safe, and it fits or is
refused by both. -/
def Agrees (bank : SyntheticBank) (s : CaseStore) (q : DrawnRequest) : Prop :=
  s.Safe q.request ∧ (CaseTables.Fits bank s q ∨ s.Refuses q.request)

variable {codec : PayloadCodec} {tables : BankTables} {t : CaseTables}

/-- A request that does not fit is answered alike exactly if the in-memory repository refuses it, and then
nothing changes. -/
theorem Twins.unfit (env : EngineEnvironment) (h : Twins bank s s') (hholds : CaseTables.Holds codec tables s' t)
    (hmirrors : Mirrors bank tables) {q : DrawnRequest} (hq : q.request.RoundTrips codec)
    (hunfit : ¬CaseTables.Fits bank s' q) :
    (q.request.AlikeOnPostgres (s.answer (env.over .inMemory) bank q).1 (t.answer codec tables q).1 ↔
        Agrees bank s q) ∧
      (Agrees bank s q →
        (s.answer (env.over .inMemory) bank q).2 = s ∧ (t.answer codec tables q).2 = t) := by
  have hmemory : ¬CaseTables.Fits bank s q := mt (h.fits_iff q).mpr hunfit
  have hagrees : Agrees bank s q ↔ s.Safe q.request ∧ s.Refuses q.request := by
    unfold Agrees
    rw [or_iff_right hmemory]
  rw [hagrees]
  cases unfit_cases env hmemory with
  | inl hreview =>
    obtain ⟨review, hrequest, hstorable⟩ := hreview
    obtain ⟨request, uuid, now⟩ := q
    cases hrequest
    have hanswer : t.answer codec tables ⟨.saveReview review, uuid, now⟩ = (.error dataError, t) := by
      change t.saveReview codec review = _
      unfold CaseTables.saveReview
      rw [HumanReview.columns_of_not_storable hstorable]
    have hstore : s.answer (env.over .inMemory) bank ⟨.saveReview review, uuid, now⟩ =
        s.fromStore (s.store.saveReview .inMemory review) := rfl
    rw [hanswer, hstore]
    unfold fromStore
    cases s.saveReview_cases review with
    | inl haccepts =>
      obtain ⟨hok, haccepted⟩ := haccepts
      rw [hok]
      exact ⟨iff_of_false not_false fun hrefused => haccepted hrefused.2,
        fun hrefused => absurd hrefused.2 haccepted⟩
    | inr hrefuses =>
      obtain ⟨e, herror, hrefused⟩ := hrefuses
      rw [herror]
      exact ⟨iff_of_true trivial ⟨hrefused.safe, hrefused⟩, fun _ => ⟨rfl, rfl⟩⟩
  | inr hanswered =>
    obtain ⟨hsafe, haccepted, reply, hreply⟩ := hanswered
    have htwin := (@Twins.matched env bank s s' h q).1.mpr hsafe
    rw [hreply] at htwin ⊢
    constructor
    · apply iff_of_false _ fun hrefused => haccepted hrefused.2
      intro halike
      have hsame := RepositoryRequest.same_of_alike htwin halike
      exact hunfit ((hholds.matches_request hmirrors q hq).1.mp hsame)
    · exact fun hrefused => absurd hrefused.2 haccepted

/-- The tables answer requests as the in-memory repository does, through the store whose cases they hold. -/
theorem tables_correspond_inMemory (env : EngineEnvironment) (codec : PayloadCodec)
    (hmirrors : Mirrors bank tables) :
    Corresponds (repository (env.over .inMemory) bank) (CaseTables.repository codec tables)
      (fun q => q.request.AlikeOnPostgres) (fun q => q.request.RoundTrips codec) (Agrees bank)
      (fun s t => ∃ s', Twins bank s s' ∧ CaseTables.Holds codec tables s' t) := by
  apply (repositories_correspond env bank _).comp (CaseTables.tables_correspond env codec hmirrors)
  · exact fun q a b c hsame => RepositoryRequest.alike_congr a hsame
  · intro s s' q htwins hfits
    exact and_iff_left (.inl ((htwins.fits_iff q).mp hfits))
  · intro s s' t q htwins hholds hq hunfit
    exact htwins.unfit env hholds hmirrors hq hunfit

end CaseStore

/-- Whatever is requested, of an empty in-memory repository and of empty tables that mirror its bank and with
recommendations that survive their payloads, PostgreSQL answers every request as the in-memory repository does
exactly if every request is safe where it is made and fits or is refused by both. Then the tables hold the
same cases. -/
theorem repositories_agree (env : EngineEnvironment) (codec : PayloadCodec) (bank : SyntheticBank)
    (tables : BankTables) (hmirrors : Mirrors bank tables) (requests : List DrawnRequest)
    (htrips : ∀ q ∈ requests, q.request.RoundTrips codec) :
    ((CaseStore.repository (env.over .inMemory) bank).AnswersAlike (CaseTables.repository codec tables)
        (fun q => q.request.AlikeOnPostgres) {} {} requests ↔
      (CaseStore.repository (env.over .inMemory) bank).Along (CaseStore.Agrees bank) {} requests) ∧
    ((CaseStore.repository (env.over .inMemory) bank).Along (CaseStore.Agrees bank) {} requests →
      ∃ s', CaseStore.Twins bank ((CaseStore.repository (env.over .inMemory) bank).after {} requests) s' ∧
        CaseTables.Holds codec tables s' ((CaseTables.repository codec tables).after {} requests)) := by
  have hcorrespond := CaseStore.tables_correspond_inMemory env codec hmirrors
  have hempty : ∃ s', CaseStore.Twins bank {} s' ∧ CaseTables.Holds codec tables s' {} :=
    ⟨{}, CaseStore.twins_empty bank, CaseTables.holds_empty codec tables⟩
  constructor
  · exact hcorrespond.answersAlike_iff hempty htrips
  · exact hcorrespond.related_after hempty htrips

section Reviewed

/-- A tenant ID that is too long for its column. -/
def longTenant : String := String.ofList (List.replicate 121 't')

/-- It has one character more than the column holds. -/
theorem longTenant_length : longTenant.length = 121 := by
  unfold longTenant
  rw [String.length_ofList]
  exact List.length_replicate

/-- The life of the sample case is the same in both repositories. -/
theorem reviewedRequests_agree :
    (CaseStore.repository ((sampleEnvironment .postgres).over .inMemory) sampleBank).Along
      (CaseStore.Agrees sampleBank) {} reviewedRequests := by
  have hreviewer : "reviewer".length ≤ 120 := by decide
  have happroval : sampleApproval.Storable := by decide
  have hcreated : CaseStore.Agrees sampleBank {} ⟨.createCase "A-1" "tenant" "investigator", 0, 0⟩ := by
    constructor
    · intro case hcase
      cases hcase
    · exact .inl fun _ _ => ⟨by decide, by decide, fun c hc => by cases hc⟩
  refine And.intro hcreated (And.intro ?_ (And.intro ?_ (And.intro ?_ (And.intro ?_ (And.intro ?_
    (And.intro ?_ (And.intro ?_ trivial)))))))
  · refine ⟨trivial, .inl fun case hcase => ?_⟩
    cases hcase
    decide
  · exact ⟨trivial, .inl trivial⟩
  · exact ⟨trivial, .inl fun _ _ => hreviewer⟩
  · refine ⟨fun case hcase => ?_, .inl happroval⟩
    cases hcase
    refine .inr ⟨fun stored hstored => ?_, fun other hother stored hstored => ?_⟩
    · cases hstored
    · cases List.mem_singleton.mp hother
      cases hstored
  · exact ⟨trivial, .inl trivial⟩
  · refine ⟨fun case hcase => ?_, .inl trivial⟩
    cases hcase
    exact List.pairwise_singleton _ _
  · refine ⟨fun case hcase => ?_, .inl trivial⟩
    cases List.mem_singleton.mp hcase
    exact List.pairwise_singleton _ _

/-- Both repositories answer alike while a case is created, drafted, claimed, reviewed and read. A case for a
tenant with a longer name than its column holds is created in memory only. -/
theorem repositories_agree_reviewed :
    (CaseStore.repository ((sampleEnvironment .postgres).over .inMemory) sampleBank).AnswersAlike
        (CaseTables.repository samplePayloadCodec sampleBankTables) (fun q => q.request.AlikeOnPostgres) {} {}
        reviewedRequests ∧
      ¬(CaseStore.repository ((sampleEnvironment .postgres).over .inMemory) sampleBank).AnswersAlike
        (CaseTables.repository samplePayloadCodec sampleBankTables) (fun q => q.request.AlikeOnPostgres) {} {}
        [⟨.createCase "A-1" longTenant "investigator", 0, 0⟩] := by
  have hagree := repositories_agree (sampleEnvironment .postgres) samplePayloadCodec sampleBank
    sampleBankTables mirrors_sampleBank
  constructor
  · exact (hagree reviewedRequests reviewedRequests_roundTrips).1.mpr reviewedRequests_agree
  · have htrips : ∀ q ∈ [DrawnRequest.mk (.createCase "A-1" longTenant "investigator") 0 0],
        q.request.RoundTrips samplePayloadCodec := by
      intro q hq
      rw [List.mem_singleton.mp hq]
      trivial
    rw [(hagree _ htrips).1]
    intro hcreated
    obtain ⟨-, hfits | hrefused⟩ := hcreated.1
    · have hlong := (hfits rfl rfl).1
      rw [longTenant_length] at hlong
      omega
    · exact hrefused

end Reviewed

end Amlguard
