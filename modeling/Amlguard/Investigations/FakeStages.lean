import Amlguard.Investigations.FakePath

/-!
# Stages with the deterministic model

Every stage that finds a fitting state returns one that fits the next stage. Every decision is ready,
and a run is left with a case that waits for information exactly when the bank and the supplied
information make the model ask for it, unless a stage has raised or a review has completed the case.
-/

namespace Amlguard

open Awaited Prog FakeStructuredLLM

/-- The item that is made of a record. -/
theorem evidenceFromModel_content {env : EngineEnvironment}
    {evidenceId evidenceType sourceRecordId customerId provenance : String} {c : UUID} {content : Json}
    {item : EvidenceItem}
    (h : evidenceFromModel env evidenceId evidenceType sourceRecordId c customerId content provenance =
      .ok item) :
    item.evidenceType = evidenceType ∧ item.content = content ∧ item.caseId = c ∧
      item.customerId = customerId := by
  unfold evidenceFromModel at h
  split at h
  · cases h
    exact ⟨rfl, rfl, rfl, rfl⟩
  · cases h

/-- An item of a type in the scope of a case. -/
structure EvidenceItem.Of (b : CaseBinding) (evidenceType : String) (item : EvidenceItem) : Prop where
  type : item.evidenceType = evidenceType
  inScope : item.caseId = b.caseId ∧ item.customerId = b.customerId

section Tools

variable {py : PyBuiltins} {bank : SyntheticBank} {env : EngineEnvironment} {auth : CaseBinding}
  {α : Type} {m : Wake}

/-- A value that is returned meets a condition, and nothing that is tracked has been written. -/
def Fetches (Q : α → Prop) (m : Wake) (r : Except PyError α) (m' : Wake) : Prop :=
  ∀ a, r = .ok a → Q a ∧ m' = m

theorem fetches_ok {Q : α → Prop} {a : α} (h : Q a) : Fetches Q m (.ok a) m := by
  rintro _ ⟨⟩
  exact ⟨h, rfl⟩

theorem fetches_error {Q : α → Prop} {e : PyError} {m' : Wake} : Fetches Q m (.error e) m' := nofun

/-- An authorization that returns has found the customer of the case. -/
theorem authorize_walks (customerId toolName : String) :
    Walks py bank (InvestigationTools.authorize auth customerId toolName)
      (Fetches (fun _ => customerId = auth.customerId) m) m := by
  unfold InvestigationTools.authorize
  split
  · rename_i heq
    exact walks_pure (fetches_ok heq)
  · apply walks_jot_bind m
    · exact ⟨⟨fun _ => rfl, fun h => by cases h⟩, rfl⟩
    apply walks_call_bind
    · trivial
    · intro _ _
      exact walks_computed fetches_error
    · exact fun e => fetches_error

/-- A tool returns what it has made and recorded. -/
theorem recorded_walks {r : Except PyError α} {toolName : String} (htool : toolName ∉ prohibitedTools)
    (arguments : Json) (items : α → List EvidenceItem) :
    Walks py bank
      (do
        let evidence ← computed r
        InvestigationTools.record auth toolName arguments (items evidence)
        pure evidence)
      (Fetches (fun a => r = .ok a) m) m := by
  apply walks_computed_bind
  · intro evidence hevidence
    have hrecord : (InvestigationTools.record auth toolName arguments (items evidence)).Only
        EngineCall.Untracked Unmarked := by
      apply Only.bind ((only_note (S := engineSignature) _).mpr _)
      · exact fun _ => (only_call (S := engineSignature) _).mpr trivial
      · exact ⟨fun h => (by cases h), fun _ => htool⟩
    apply walks_bind (walks_untracked hrecord)
    · rintro _ _ rfl
      exact walks_pure (fetches_ok hevidence)
    · exact fun e m _ => fetches_error
  · exact fun e _ => fetches_error

/-- `get_alert` returns the alert of the bank, of the customer of the case. -/
theorem getAlert_walks (alertId : String) :
    Walks py bank (InvestigationTools.getAlert env auth alertId)
      (Fetches (fun item => item.Of auth "alert" ∧ ∃ alert,
        bank.alerts.find? (fun alert => alert.alertId == alertId) = some alert ∧
          item.content = alert.document) m) m := by
  unfold InvestigationTools.getAlert
  apply walks_call_bind
  · trivial
  · intro alert halert
    apply walks_bind (authorize_walks alert.customerId "get_alert")
    · intro _ m' hauthorized
      obtain ⟨-, rfl⟩ := hauthorized () rfl
      apply (recorded_walks (by decide) _ (fun item => [item])).mono
      intro r m'' hmade item hr
      obtain ⟨hitem, rfl⟩ := hmade item hr
      obtain ⟨htype, hcontent, hscope⟩ := evidenceFromModel_content hitem
      exact ⟨⟨⟨htype, hscope⟩, alert, halert alert rfl, hcontent⟩, rfl⟩
    · exact fun e m _ => fetches_error
  · exact fun e => fetches_error

/-- A tool that reads a record of the customer of the case returns what it makes of it. -/
theorem customerTool_walks {customerId toolName : String} (htool : toolName ∉ prohibitedTools)
    {read : EngineCall} (hread : read.Untracked) (make : read.Reply → Except PyError α)
    (arguments : Json) (items : α → List EvidenceItem) :
    Walks py bank
      (do
        InvestigationTools.authorize auth customerId toolName
        let record ← invoke read
        let evidence ← computed (make record)
        InvestigationTools.record auth toolName arguments (items evidence)
        pure evidence)
      (Fetches (fun a => customerId = auth.customerId ∧
        ∃ record, Answered py bank read (.ok record) ∧ make record = .ok a) m) m := by
  apply walks_bind (authorize_walks customerId toolName)
  · intro _ m' hauthorized
    obtain ⟨hcustomer, rfl⟩ := hauthorized () rfl
    apply walks_call_bind hread
    · intro record hrecord
      apply (recorded_walks htool arguments items).mono
      intro r m'' hmade a hr
      obtain ⟨ha, rfl⟩ := hmade a hr
      exact ⟨⟨hcustomer, record, hrecord, ha⟩, rfl⟩
    · exact fun e => fetches_error
  · exact fun e m _ => fetches_error

/-- `get_customer_profile` returns a profile. -/
theorem getCustomerProfile_walks (customerId : String) :
    Walks py bank (InvestigationTools.getCustomerProfile env auth customerId)
      (Fetches (EvidenceItem.Of auth "customer_profile") m) m := by
  have hread : (EngineCall.getCustomer customerId).Untracked := trivial
  apply (customerTool_walks (by decide) hread _ _ (fun item => [item])).mono
  intro r m' hmade item hr
  obtain ⟨⟨rfl, record, -, hitem⟩, rfl⟩ := hmade item hr
  obtain ⟨htype, -, hscope⟩ := evidenceFromModel_content hitem
  exact ⟨⟨htype, hscope⟩, rfl⟩

/-- `get_kyc_profile` returns the KYC record of the bank. -/
theorem getKycProfile_walks (customerId : String) :
    Walks py bank (InvestigationTools.getKycProfile env auth customerId)
      (Fetches (fun item => item.Of auth "kyc_profile" ∧ ∃ kyc,
        bank.kycRecords.find? (fun kyc => kyc.customerId == customerId) = some kyc ∧
          item.content = kyc.document) m) m := by
  have hread : (EngineCall.getKyc customerId).Untracked := trivial
  apply (customerTool_walks (by decide) hread _ _ (fun item => [item])).mono
  intro r m' hmade item hr
  obtain ⟨⟨rfl, kyc, hkyc, hitem⟩, rfl⟩ := hmade item hr
  obtain ⟨htype, hcontent, hscope⟩ := evidenceFromModel_content hitem
  exact ⟨⟨⟨htype, hscope⟩, kyc, hkyc kyc rfl, hcontent⟩, rfl⟩

/-- `get_transactions` returns transactions. -/
theorem getTransactions_walks (customerId : String) :
    Walks py bank (InvestigationTools.getTransactions env auth customerId)
      (Fetches (fun items => ∀ item ∈ items, item.Of auth "transaction") m) m := by
  have hread : (EngineCall.getTransactions customerId).Untracked := trivial
  unfold InvestigationTools.getTransactions
  -- the limit is a numeral that unification would count down
  generalize InvestigationTools.transactionLimit = limit
  apply (customerTool_walks (by decide) hread _ _ (fun items => items)).mono
  intro r m' hmade items hr
  obtain ⟨⟨rfl, all, -, hitems⟩, rfl⟩ := hmade items hr
  refine ⟨fun item hitem => ?_, rfl⟩
  obtain ⟨record, -, hmake⟩ := exists_of_mem_mapM hitems hitem
  obtain ⟨htype, -, hscope⟩ := evidenceFromModel_content hmake
  exact ⟨htype, hscope⟩

end Tools

/-- Whether information has been supplied once a stage has run. -/
def suppliedAfter (stage : Stage) (resume : Option Resume) (supplied : Prop) : Prop :=
  match stage, resume with
  | .collectInformation, some (.information _) => True
  | _, _ => supplied

/-- The run is resumed with a review. -/
def Reviews (resume : Option Resume) : Prop := ∃ request, resume = some (.review request)

section Stages

variable {py : PyBuiltins} {bank : SyntheticBank} {env : EngineEnvironment} {b : CaseBinding}
  {supplied : Prop} {values : InvestigationState} {resume : Option Resume} {stage : Stage} {m : Wake}
  {α β : Type}

/-- A state that a stage returns: it fits the next stage, or a review has completed the case. -/
structure Onward (py : PyBuiltins) (bank : SyntheticBank) (b : CaseBinding) (supplied reviewed : Prop)
    (stage : Stage) (values : InvestigationState) (m : Wake) : Prop where
  binding : values.binding = some b
  status : stage ≠ .draftRecommendation → m.status = some (b.caseId, values.status)
  pending : ∀ draft, m.pending = some draft → stage = .draftRecommendation ∧
    values.recommendationVersion = some draft.2 ∧ b.caseId = draft.1
  ends : route stage values = none → values.status = .completed ∧ reviewed
  goes : ∀ next, route stage values = some next → Fit py bank b supplied next values

/-- A state that fits the next stage leads on. -/
theorem Onward.of_route {reviewed : Prop} {next : Stage} (hroute : route stage values = some next)
    (hfit : Fit py bank b supplied next values)
    (hstatus : stage ≠ .draftRecommendation → m.status = some (b.caseId, values.status))
    (hpending : ∀ draft, m.pending = some draft → stage = .draftRecommendation ∧
      values.recommendationVersion = some draft.2 ∧ b.caseId = draft.1) :
    Onward py bank b supplied reviewed stage values m := by
  refine ⟨hfit.binding, hstatus, hpending, ?_, ?_⟩
  · intro hend
    rw [hroute] at hend
    cases hend
  · intro next' hnext
    rw [hroute] at hnext
    cases hnext
    exact hfit

/-- How a stage ends: where the run was left before it, or with a state that leads on. -/
def stageGoes (py : PyBuiltins) (bank : SyntheticBank) (b : CaseBinding) (supplied : Prop)
    (stage : Stage) (resume : Option Resume) : Except PyError StageEnd → Wake → Prop
  | .ok .interrupted, m => resume = none ∧ m.Left py bank b supplied False
  | .ok (.updated values), m =>
    Onward py bank b (suppliedAfter stage resume supplied) (Reviews resume) stage values m
  | .error _, _ => True

/-- Part of a stage and what follows it. -/
theorem part_walks {p : Investigation α} {f : α → Investigation StageEnd} {Q : α → Prop}
    (hp : Walks py bank p (Fetches Q m) m)
    (hok : ∀ a, Q a → Walks py bank (f a) (stageGoes py bank b supplied stage resume) m) :
    Walks py bank (p >>= f) (stageGoes py bank b supplied stage resume) m := by
  apply walks_bind hp
  · intro a m' hreturns
    obtain ⟨ha, rfl⟩ := hreturns a rfl
    exact hok a ha
  · exact fun _ _ _ => trivial

/-- A call of a stage and what follows it. -/
theorem call_walks {call : EngineCall} {f : call.Reply → Investigation StageEnd}
    (hcall : MayWrite py bank call)
    (hok : ∀ a, Answered py bank call (.ok a) →
      Walks py bank (f a) (stageGoes py bank b supplied stage resume) (m.after call (.ok a))) :
    Walks py bank (invoke call >>= f) (stageGoes py bank b supplied stage resume) m :=
  walks_invoke_bind hcall hok fun _ => trivial

/-- A computed part of a stage and what follows it. -/
theorem computed_walks {r : Except PyError α} {f : α → Investigation StageEnd}
    (hok : ∀ a, r = .ok a → Walks py bank (f a) (stageGoes py bank b supplied stage resume) m) :
    Walks py bank (computed r >>= f) (stageGoes py bank b supplied stage resume) m :=
  walks_computed_bind hok fun _ _ => trivial

/-- The evidence that the first stage gathers. -/
theorem gathered_of_items {alert customer kyc : EvidenceItem} {transactions : List EvidenceItem}
    (halert : alert.Of b "alert" ∧ ∃ record,
      bank.alerts.find? (fun alert => alert.alertId == b.alertId) = some record ∧
        alert.content = record.document)
    (hcustomer : customer.Of b "customer_profile")
    (hkyc : kyc.Of b "kyc_profile" ∧ ∃ record,
      bank.kycRecords.find? (fun kyc => kyc.customerId == b.customerId) = some record ∧
        kyc.content = record.document)
    (htransactions : ∀ item ∈ transactions, item.Of b "transaction") :
    Gathered bank b ([alert, customer, kyc] ++ transactions) ∧
      (Supplied ([alert, customer, kyc] ++ transactions) ↔ False) := by
  obtain ⟨alertRecord, halertRecord, halertContent⟩ := halert.2
  obtain ⟨kycRecord, hkycRecord, hkycContent⟩ := hkyc.2
  refine ⟨⟨⟨alert, alertRecord, ?_, halertRecord, halertContent⟩, kyc, kycRecord, ?_, hkycRecord,
    hkycContent⟩, ?_⟩
  · simp [itemsOfType, halert.1.type]
  · simp [itemsOfType, halert.1.type, hcustomer.type, hkyc.1.type]
  · have hothers : ∀ item ∈ transactions, item.evidenceType ≠ "supplemental_information" := by
      intro item hitem
      simp [(htransactions item hitem).type]
    simpa [Supplied, itemsOfType, halert.1.type, hcustomer.type, hkyc.1.type] using hothers

/-- `load_and_retrieve` gathers the evidence. -/
theorem loadAndRetrieve_walks (hfit : Fit py bank b supplied .loadAndRetrieve values)
    (hpending : m.pending = none) :
    Walks py bank (loadAndRetrieve env b values)
      (stageGoes py bank b supplied .loadAndRetrieve resume) m := by
  unfold loadAndRetrieve
  apply call_walks
  · trivial
  intro _ _
  apply part_walks (getAlert_walks b.alertId)
  intro alert halert
  apply part_walks (getCustomerProfile_walks b.customerId)
  intro customer hcustomer
  apply part_walks (getKycProfile_walks b.customerId)
  intro kyc hkyc
  apply part_walks (getTransactions_walks b.customerId)
  intro transactions htransactions
  obtain ⟨hgathered, hsupplied⟩ := gathered_of_items halert hcustomer hkyc htransactions
  have hscope : ∀ item ∈ [alert, customer, kyc] ++ transactions,
      item.caseId = b.caseId ∧ item.customerId = b.customerId := by
    intro item hitem
    rcases List.mem_append.mp hitem with hitem | hitem
    · simp only [List.mem_cons, List.not_mem_nil, or_false] at hitem
      rcases hitem with rfl | rfl | rfl
      · exact halert.1.inScope
      · exact hcustomer.inScope
      · exact hkyc.1.inScope
    · exact (htransactions item hitem).inScope
  apply computed_walks
  intro selection _
  apply call_walks
  · trivial
  intro executions _
  apply call_walks
  · trivial
  intro _ _
  apply call_walks
  · trivial
  intro _ _
  apply walks_pure
  have hroute : route .loadAndRetrieve
      (values.withEvidence ([alert, customer, kyc] ++ transactions) selection) =
        some .draftRecommendation := by
    simp [route, InvestigationState.withEvidence]
  have hnever : suppliedAfter .loadAndRetrieve resume supplied ↔ False := iff_false_intro (hfit.fresh rfl)
  refine Onward.of_route hroute ?_ (fun _ => rfl) fun draft hdraft => ?_
  · exact ⟨hfit.binding, hfit.events, hscope, by simp, fun _ => ⟨hgathered, hsupplied.trans hnever.symm⟩,
      fun _ h => (by cases h), by simp, by simp, by simp⟩
  · cases hpending.symm.trans hdraft

/-- `draft` saves an answer of the model. -/
theorem draft_walks (hfit : Fit py bank b supplied .draftRecommendation values)
    (hpending : m.pending = none) :
    Walks py bank (draft env b values)
      (stageGoes py bank b supplied .draftRecommendation resume) m := by
  unfold draft
  apply call_walks
  · trivial
  intro recommendation hanswer
  apply call_walks
  · trivial
  intro version _
  apply walks_jot_bind { m with pending := some (b.caseId, version) }
  · exact ⟨hpending, rfl⟩
  apply call_walks
  · trivial
  intro _ _
  apply walks_pure
  have hroute : (route .draftRecommendation (values.withDraft recommendation version)) =
      some .validateControls := by
    simp [route, InvestigationState.withDraft, hfit.live rfl]
  have hanswer := hanswer recommendation rfl
  refine Onward.of_route hroute ?_ (fun hne => absurd rfl hne) ?_
  · exact ⟨hfit.binding, hfit.events, hfit.inScope, by simp, fun _ => hfit.gathered (by simp), by simp,
      fun _ => ⟨recommendation, rfl, recommend_cited hanswer, recommend_requests hanswer⟩, by simp,
      by simp⟩
  · rintro draft ⟨⟩
    exact ⟨rfl, rfl, rfl⟩

/-- A released recommendation waits for what it asks for. -/
theorem status_of_ready (recommendation : InvestigationRecommendation) {decision : ReleaseDecision}
    (h : decision = ⟨.ready, []⟩) :
    recommendation.recommendation = .requestMoreInformation ∧
        releasedStatus decision recommendation = .waitingForInformation ∨
      recommendation.recommendation ≠ .requestMoreInformation ∧
        releasedStatus decision recommendation = .waitingForHumanReview := by
  subst h
  by_cases hkind : recommendation.recommendation = .requestMoreInformation
  · exact .inl ⟨hkind, if_pos hkind⟩
  · exact .inr ⟨hkind, if_neg hkind⟩

/-- `validate` decides that the draft is ready. -/
theorem validate_walks (hfit : Fit py bank b supplied .validateControls values)
    (hpending : ∀ draft, m.pending = some draft →
      values.recommendationVersion = some draft.2 ∧ b.caseId = draft.1) :
    Walks py bank (validate b values)
      (stageGoes py bank b supplied .validateControls resume) m := by
  obtain ⟨recommendation, hrecommendation, hcited, hkind⟩ := hfit.drafted rfl
  obtain ⟨hgathered, hsupplied⟩ := hfit.gathered (by simp)
  have hasks : recommendation.recommendation = .requestMoreInformation ↔
      bank.Asks py b.alertId b.customerId supplied := by
    rw [hkind, hgathered.requests_iff]
    unfold SyntheticBank.Asks
    rw [hsupplied]
  unfold validate
  rw [hrecommendation]
  apply computed_walks
  rintro _ ⟨⟩
  apply call_walks
  · trivial
  rintro executions ⟨_, ⟨⟩, hclean⟩
  have hready := ready_of_cited hcited hfit.inScope (fun e he => (hclean e he).authorized) hfit.events
  dsimp only
  generalize hvalidation : validateControls b.caseId b.customerId recommendation values.evidence
    values.policies values.securityEvents executions = validation at hready ⊢
  have hstatus : validation.status = releasedStatus validation.decision recommendation := by
    rw [← hvalidation]
    rfl
  apply walks_jot_bind { m with pending := none }
  · exact ⟨hready.1, hpending, rfl⟩
  apply call_walks
  · trivial
  intro _ _
  rw [if_neg (by simp [hready.1])]
  apply call_walks
  · trivial
  intro _ _
  apply walks_pure
  rcases status_of_ready recommendation hready.1 with ⟨hrequest, hreleased⟩ |
    ⟨hrequest, hreleased⟩
  · rw [← hstatus] at hreleased
    have hroute : route .validateControls (values.withValidation validation) =
        some .collectInformation := by
      simp [route, InvestigationState.withValidation, hreleased]
    refine Onward.of_route hroute ?_ (fun _ => rfl) (fun _ hdraft => by cases hdraft)
    exact ⟨hfit.binding, hready.2, hfit.inScope, by simp, fun _ => hfit.gathered (by simp), by simp,
      by simp, fun _ => ⟨hreleased, hasks.mp hrequest⟩, by simp⟩
  · rw [← hstatus] at hreleased
    have hroute : route .validateControls (values.withValidation validation) = some .humanReview := by
      simp [route, InvestigationState.withValidation, hreleased]
    refine Onward.of_route hroute ?_ (fun _ => rfl) (fun _ hdraft => by cases hdraft)
    exact ⟨hfit.binding, hready.2, hfit.inScope, by simp, fun _ => hfit.gathered (by simp), by simp,
      by simp, by simp, fun _ => ⟨hreleased, fun h => hrequest (hasks.mpr h)⟩⟩

/-- The evidence with supplemental information is still gathered. -/
theorem Gathered.append {evidence : List EvidenceItem} (h : Gathered bank b evidence)
    {item : EvidenceItem} (htype : item.evidenceType = "supplemental_information") :
    Gathered bank b (evidence ++ [item]) ∧ Supplied (evidence ++ [item]) := by
  have hkeeps : ∀ evidenceType first, (itemsOfType evidence evidenceType).head? = some first →
      (itemsOfType (evidence ++ [item]) evidenceType).head? = some first := by
    intro evidenceType first hfirst
    rw [itemsOfType, List.filter_append, List.head?_append]
    exact Option.or_eq_some_iff.mpr (.inl hfirst)
  obtain ⟨first, record, hfirst, hrecord, hcontent⟩ := h.alert
  obtain ⟨first', record', hfirst', hrecord', hcontent'⟩ := h.kyc
  refine ⟨⟨⟨first, record, hkeeps _ _ hfirst, hrecord, hcontent⟩,
    ⟨first', record', hkeeps _ _ hfirst', hrecord', hcontent'⟩⟩, ?_⟩
  simp [Supplied, itemsOfType, htype]

/-- A submission adds supplemental information. -/
theorem supplied_walks {version : ℕ} {submission : Submission}
    (hfit : Fit py bank b supplied .collectInformation values) (hpending : m.pending = none) :
    Walks py bank (Amlguard.supplied env b values version submission)
      (stageGoes py bank b supplied .collectInformation (some (.information submission))) m := by
  unfold Amlguard.supplied
  apply computed_walks
  intro evidence hevidence
  obtain ⟨htype, -, hscope⟩ := evidenceFromModel_content hevidence
  obtain ⟨hgathered, hsupplied⟩ := (hfit.gathered (by simp)).1.append htype
  apply call_walks
  · trivial
  intro _ _
  apply call_walks
  · trivial
  intro _ _
  apply call_walks
  · trivial
  intro _ _
  apply computed_walks
  intro selection _
  apply call_walks
  · trivial
  intro _ _
  apply walks_pure
  have hroute : route .collectInformation (values.withEvidence (values.evidence ++ [evidence]) selection) =
      some .draftRecommendation := by
    simp [route, InvestigationState.withEvidence]
  have hscoped : ∀ item ∈ values.evidence ++ [evidence],
      item.caseId = b.caseId ∧ item.customerId = b.customerId := by
    intro item hitem
    rcases List.mem_append.mp hitem with hitem | hitem
    · exact hfit.inScope item hitem
    · obtain rfl := List.mem_singleton.mp hitem
      exact hscope
  refine Onward.of_route hroute ?_ (fun _ => rfl) fun draft hdraft => ?_
  · exact ⟨hfit.binding, hfit.events, hscoped, by simp,
      fun _ => ⟨hgathered, iff_of_true hsupplied trivial⟩, fun _ h => (by cases h), by simp, by simp, by simp⟩
  · cases hpending.symm.trans hdraft

/-- `collect_information` waits, or adds what is submitted. -/
theorem collectInformation_walks (hfit : Fit py bank b supplied .collectInformation values)
    (hpending : m.pending = none) (hleft : resume = none → m.Left py bank b supplied False) :
    Walks py bank (collectInformation env b values resume)
      (stageGoes py bank b supplied .collectInformation resume) m := by
  unfold collectInformation
  apply computed_walks
  intro _ _
  apply computed_walks
  intro version _
  match resume with
  | none => exact walks_pure ⟨rfl, hleft rfl⟩
  | some (.review _) => exact walks_computed trivial
  | some (.information submission) => exact supplied_walks hfit hpending

/-- The end of `human_review`: the case is completed, or drafted anew. -/
theorem outcome_walks {request review : HumanReview}
    (hfit : Fit py bank b supplied .humanReview values) (hpending : m.pending = none) :
    Walks py bank (do
      invoke (.setStatus b.caseId review.outcome)
      invoke (.trajectoryHook b.runId (.humanReview review))
      pure (.updated (values.withReview review)))
      (stageGoes py bank b supplied .humanReview (some (.review request))) m := by
  apply call_walks
  · trivial
  intro _ _
  apply call_walks
  · trivial
  intro _ _
  apply walks_pure
  have hnone : ∀ draft, m.pending = some draft → Stage.humanReview = .draftRecommendation ∧
      (values.withReview review).recommendationVersion = some draft.2 ∧ b.caseId = draft.1 := by
    intro draft hdraft
    exact absurd (hpending.symm.trans hdraft) nofun
  by_cases hrework : review.outcome = .reworkRequired
  · have hroute : route .humanReview (values.withReview review) = some .draftRecommendation :=
      if_pos hrework
    refine Onward.of_route hroute ?_ (fun _ => rfl) hnone
    refine ⟨hfit.binding, hfit.events, hfit.inScope, nofun, fun _ => hfit.gathered nofun, fun _ => ?_,
      nofun, nofun, nofun⟩
    change review.outcome ≠ .failed
    rw [hrework]
    decide
  · have hroute : route .humanReview (values.withReview review) = none := if_neg hrework
    refine ⟨hfit.binding, fun _ => rfl, hnone, fun _ => ⟨?_, request, rfl⟩, ?_⟩
    · change review.outcome = .completed
      unfold HumanReview.outcome at hrework ⊢
      split at hrework
      · exact absurd rfl hrework
      · rfl
      · rfl
    · intro next hnext
      rw [hroute] at hnext
      cases hnext

/-- `human_review` waits, or stores the review. -/
theorem humanReview_walks (hfit : Fit py bank b supplied .humanReview values)
    (hpending : m.pending = none) (hleft : resume = none → m.Left py bank b supplied False) :
    Walks py bank (humanReview b values resume)
      (stageGoes py bank b supplied .humanReview resume) m := by
  have hstatus : values.status ≠ .hardBlocked := by
    rw [(hfit.answers rfl).1]
    decide
  unfold humanReview
  rw [if_neg hstatus]
  apply computed_walks
  intro version _
  match resume with
  | none => exact walks_pure ⟨rfl, hleft rfl⟩
  | some (.information _) => exact walks_computed trivial
  | some (.review request) =>
    apply computed_walks
    intro review _
    unfold concluded
    apply walks_jot_bind m
    · rfl
    apply call_walks
    · trivial
    intro _ _
    cases review.editedRecommendation with
    | none => exact outcome_walks hfit hpending
    | some edited =>
      apply call_walks
      · trivial
      intro _ _
      exact outcome_walks hfit hpending

/-- The body of a stage. -/
theorem stageBody_walks (hfit : Fit py bank b supplied stage values)
    (hpending : ∀ draft, m.pending = some draft → stage = .validateControls ∧
      values.recommendationVersion = some draft.2 ∧ b.caseId = draft.1)
    (hleft : resume = none → stage.Interrupts → m.Left py bank b supplied False) :
    Walks py bank (stageBody env b values stage resume)
      (stageGoes py bank b supplied stage resume) m := by
  have hnone (hstage : stage ≠ .validateControls) : m.pending = none := by
    cases hdraft : m.pending with
    | none => rfl
    | some draft => exact absurd (hpending draft hdraft).1 hstage
  cases stage with
  | loadAndRetrieve => exact loadAndRetrieve_walks hfit (hnone nofun)
  | draftRecommendation => exact draft_walks hfit (hnone nofun)
  | validateControls => exact validate_walks hfit fun draft hdraft => (hpending draft hdraft).2
  | collectInformation =>
    exact collectInformation_walks hfit (hnone nofun) fun hresume => hleft hresume (.inl rfl)
  | humanReview => exact humanReview_walks hfit (hnone nofun) fun hresume => hleft hresume (.inr rfl)

/-- A state with the record of a failure. -/
structure Broken (b : CaseBinding) (values : InvestigationState) (m : Wake) : Prop where
  binding : values.binding = some b
  status : m.status = some (b.caseId, .failed) ∧ values.status = .failed
  errors : values.errors ≠ []

/-- How a guarded stage ends: as the stage does, or with the record of a failure. -/
def guardGoes (py : PyBuiltins) (bank : SyntheticBank) (b : CaseBinding) (supplied : Prop)
    (stage : Stage) (resume : Option Resume) : Except PyError StageEnd → Wake → Prop
  | .ok .interrupted, m => resume = none ∧ m.Left py bank b supplied False
  | .ok (.updated values), m =>
    Broken b values m ∨
      Onward py bank b (suppliedAfter stage resume supplied) (Reviews resume) stage values m
  | .error _, _ => True

/-- A failure is recorded. -/
theorem recordFailure_walks (e : PyError) (hbinding : values.binding = some b) :
    Walks py bank (recordFailure b values stage e) (guardGoes py bank b supplied stage resume) m := by
  unfold recordFailure
  apply walks_invoke_bind
  · trivial
  · intro errorId _
    apply walks_invoke_bind
    · trivial
    · intro _ _
      apply walks_suppress_bind ((only_call (S := engineSignature) _).mpr trivial)
      apply walks_suppress_bind ((only_call (S := engineSignature) _).mpr trivial)
      apply walks_pure
      refine .inl ⟨hbinding, ⟨rfl, rfl⟩, ?_⟩
      exact List.append_ne_nil_of_right_ne_nil _ (List.cons_ne_nil _ _)
    · exact fun e => trivial
  · exact fun e => trivial

/-- A notification is not tracked. -/
theorem notifyStage_untracked {event : String} :
    (notifyStage b stage event).Only EngineCall.Untracked Unmarked :=
  ((only_call (S := engineSignature) _).mpr trivial).suppress

/-- The guard records an exception, and hands every other end on. -/
theorem settleStage_walks (r : Except PyError StageEnd) (hbinding : values.binding = some b)
    (hr : stageGoes py bank b supplied stage resume r m) :
    Walks py bank (settleStage b values stage r) (guardGoes py bank b supplied stage resume) m := by
  cases r with
  | ok ended =>
    cases ended with
    | interrupted =>
      apply walks_bind (walks_untracked notifyStage_untracked)
      · rintro _ _ rfl
        exact walks_pure hr
      · exact fun _ _ _ => trivial
    | updated values' =>
      apply walks_bind (walks_untracked notifyStage_untracked)
      · rintro _ _ rfl
        exact walks_pure (.inr hr)
      · exact fun _ _ _ => trivial
  | error e =>
    exact walks_finally (recordFailure_walks e hbinding) notifyStage_untracked fun _ _ _ _ => trivial

/-- A guarded stage. -/
theorem guarded_walks (hfit : Fit py bank b supplied stage values)
    (hpending : ∀ draft, m.pending = some draft → stage = .validateControls ∧
      values.recommendationVersion = some draft.2 ∧ b.caseId = draft.1)
    (hleft : resume = none → stage.Interrupts → m.Left py bank b supplied False) :
    Walks py bank (guarded env values stage resume) (guardGoes py bank b supplied stage resume) m := by
  unfold guarded
  rw [hfit.binding]
  apply walks_computed_bind
  · rintro _ ⟨⟩
    apply walks_bind (walks_untracked notifyStage_untracked)
    · rintro _ _ rfl
      apply (Diagram.follows_bind (D := fakePath py bank) _ _ _ _).mpr
      apply (Diagram.follows_attempt (D := fakePath py bank) _ _ _).mpr
      apply (stageBody_walks hfit hpending hleft).mono
      intro r m' hr
      exact settleStage_walks r hfit.binding hr
    · exact fun _ _ _ => trivial
  · exact fun _ _ => trivial

/-- Only validation leads to a stage that waits. -/
theorem route_interrupts {next : Stage} (hroute : route stage values = some next)
    (hnext : next.Interrupts) : stage = .validateControls := by
  rcases hnext with rfl | rfl
  · cases stage with
    | validateControls => rfl
    | loadAndRetrieve | draftRecommendation | collectInformation | humanReview =>
      simp only [route] at hroute
      split at hroute <;> cases hroute
  · exact (route_eq_humanReview hroute).1

/-- Whatever a guarded stage returns fits the thread of the case. -/
theorem guardGoes.fits {reviewed : Prop} {m : Wake}
    (h : Broken b values m ∨ Onward py bank b supplied reviewed stage values m) :
    Checkpoint.Fits py bank b.caseId ⟨values, some stage, route stage values⟩ := by
  intro b' hb'
  rcases h with hbroken | honward
  · cases hbroken.binding.symm.trans hb'
    refine ⟨rfl, fun next hnext => ?_⟩
    change route stage values = some next at hnext
    rw [route_failed stage hbroken.status.2] at hnext
    cases hnext
  · cases honward.binding.symm.trans hb'
    exact ⟨rfl, fun next hnext => ⟨supplied, honward.goes next hnext⟩⟩

/-- A stage that leads nowhere without failure is not the draft. -/
theorem Onward.ne_draft {reviewed : Prop} (h : Onward py bank b supplied reviewed stage values m)
    (hroute : route stage values = none) : stage ≠ .draftRecommendation := by
  rintro rfl
  simp [route, (h.ends hroute).1] at hroute

/-- A state that leads nowhere leaves a case that has failed or is completed. -/
theorem left_of_end {reviewed : Prop} {last : Option Stage}
    (h : Broken b values m ∨ Onward py bank b supplied reviewed stage values m)
    (hroute : route stage values = none) :
    Wake.Left { m with checkpoint := some (b.caseId, ⟨values, last, none⟩) } py bank b supplied
      reviewed := by
  rcases h with hbroken | honward
  · refine ⟨_, rfl, ?_, hbroken.binding, .failed rfl hbroken.status.2 hbroken.errors, ?_⟩
    · exact hbroken.status.1.trans (by rw [hbroken.status.2])
    · exact fun hne => absurd hbroken.status.2 hne
  · obtain ⟨hcompleted, hreviewed⟩ := honward.ends hroute
    have hstage := honward.ne_draft hroute
    refine ⟨_, rfl, honward.status hstage, honward.binding, .completed rfl hcompleted hreviewed,
      fun _ => ?_⟩
    cases hdraft : m.pending with
    | none => rfl
    | some draft => exact absurd (honward.pending draft hdraft).1 hstage

/-- A state that leads to a stage that waits leaves the case waiting. -/
theorem left_of_wait {reviewed : Prop} {last : Option Stage} {next : Stage}
    (h : Onward py bank b supplied reviewed stage values m) (hroute : route stage values = some next)
    (hnext : next.Interrupts) :
    Wake.Left { m with checkpoint := some (b.caseId, ⟨values, last, some next⟩) } py bank b supplied
      False := by
  have hstage : stage ≠ .draftRecommendation := by
    rw [route_interrupts hroute hnext]
    decide
  refine ⟨_, rfl, h.status hstage, h.binding, .waits next rfl hnext (h.goes next hroute), fun _ => ?_⟩
  cases hdraft : m.pending with
  | none => rfl
  | some draft => exact absurd (h.pending draft hdraft).1 hstage

/-- Nothing is supplied to a stage that is not resumed. -/
theorem suppliedAfter_none : suppliedAfter stage none supplied = supplied := by
  cases stage <;> rfl

/-- A run of the graph ends with a failure, with a completed case, or with a stage that waits. -/
theorem drive_walks (fuel : ℕ) (hfit : Fit py bank b supplied stage values)
    (hpending : ∀ draft, m.pending = some draft → stage = .validateControls ∧
      values.recommendationVersion = some draft.2 ∧ b.caseId = draft.1)
    (hleft : resume = none → stage.Interrupts → m.Left py bank b supplied False) :
    Walks py bank (drive env b.caseId fuel stage resume values)
      (fun r m' => r = .ok () →
        m'.Left py bank b (suppliedAfter stage resume supplied) (Reviews resume)) m := by
  induction fuel generalizing stage resume values supplied m with
  | zero =>
    apply walks_computed
    intro hr
    cases hr
  | succ fuel ih =>
    unfold drive
    apply walks_bind (guarded_walks hfit hpending hleft)
    · intro ended m' hended
      cases ended with
      | interrupted =>
        obtain ⟨rfl, hrest⟩ := hended
        apply walks_pure
        intro _
        rw [suppliedAfter_none]
        exact hrest.mono False.elim
      | updated values' =>
        apply walks_invoke_bind
        · exact guardGoes.fits hended
        · intro _ _
          cases hroute : route stage values' with
          | none => exact walks_pure fun _ => left_of_end hended hroute
          | some next =>
            have honward := hended.resolve_left fun hbroken => by
              rw [route_failed stage hbroken.status.2] at hroute
              cases hroute
            apply (ih (honward.goes next hroute) _ _).mono
            · intro r m'' hrest hr
              have hrest := hrest hr
              rw [suppliedAfter_none] at hrest
              apply hrest.mono
              rintro ⟨_, hnone⟩
              cases hnone
            · intro draft hdraft
              obtain ⟨rfl, hversion, hcase⟩ := honward.pending draft hdraft
              simp only [route] at hroute
              split at hroute <;> cases hroute
              exact ⟨rfl, hversion, hcase⟩
            · exact fun _ hnext => left_of_wait honward hroute hnext
        · intro e hr
          cases hr
    · intro e _ _ hr
      cases hr

end Stages

end Amlguard
