import Amlguard.Investigations.Phases

/-!
# Conduct of the engine's operations

Every program of the engine is walked through once: the tools, the stages with their guard, the
runs of the graph and the operations all move along the edges between the phases.

What is proved about the engine later reads the phases as assertions and argues by cases on the
edges.
-/

namespace Amlguard

open Awaited Phase

/-- A mark that only logs a tool execution. -/
def Logs (n : EngineMark) : Prop := ∃ execution, n = .executed execution

/-- A program of quiet calls that logs executions. -/
abbrev QuietProgram {α : Type} (p : Investigation α) : Prop := p.Only EngineCall.Quiet Logs

/-- A call of a tool: it reads the bank, or writes an access to the audit log. -/
def EngineCall.Gathers : EngineCall → Prop
  | .getAlert _ | .getCustomer _ | .getKyc _ | .getTransactions _ => True
  | .audit eventType _ _ _ => eventType ≠ "case_information_supplied"
  | _ => False

/-- A program of calls of a tool that logs executions. -/
abbrev GatheringProgram {α : Type} (p : Investigation α) : Prop := p.Only EngineCall.Gathers Logs

section Gathering

variable {env : EngineEnvironment} {auth : CaseBinding} {α β : Type}

theorem gathering_bind {p : Investigation α} {f : α → Investigation β} (hp : GatheringProgram p)
    (hf : ∀ a, GatheringProgram (f a)) : GatheringProgram (p >>= f) := hp.bind hf

theorem gathering_computed (r : Except PyError α) : GatheringProgram (computed r) :=
  Prog.only_settleResult (S := engineSignature) r

theorem gathering_pure (a : α) : GatheringProgram (pure a) := Prog.only_pure (S := engineSignature) a

theorem gathering_invoke {c : EngineCall} (hc : c.Gathers) : GatheringProgram (invoke c) :=
  (Prog.only_call (S := engineSignature) c).mpr hc

/-- Only the announcement of supplied information is an audit to keep account of. -/
theorem quiet_audit {eventType : String} (h : eventType ≠ "case_information_supplied")
    (actorId : String) (c : UUID) (payload : AuditPayload) :
    (EngineCall.audit eventType actorId c payload).Quiet := h

theorem gathers_audit {eventType : String} (h : eventType ≠ "case_information_supplied")
    (actorId : String) (c : UUID) (payload : AuditPayload) :
    (EngineCall.audit eventType actorId c payload).Gathers := h

theorem reporting_audit {eventType : String} (h : eventType ≠ "case_information_supplied")
    (actorId : String) (c : UUID) (payload : AuditPayload) :
    (EngineCall.audit eventType actorId c payload).Reporting := h

theorem gathering_jot (execution : ToolExecution) : GatheringProgram (jot (.executed execution)) :=
  (Prog.only_note (S := engineSignature) _).mpr ⟨execution, rfl⟩

/-- An authorization makes only calls of a tool. -/
theorem authorize_gathers (customerId toolName : String) :
    GatheringProgram (InvestigationTools.authorize auth customerId toolName) := by
  unfold InvestigationTools.authorize
  split
  · exact gathering_pure ()
  · apply gathering_bind (gathering_jot _)
    intro _
    apply gathering_bind
    · exact gathering_invoke (gathers_audit (by decide) _ _ _)
    intro _
    exact gathering_computed _

/-- A recorded access makes only calls of a tool. -/
theorem record_gathers (toolName : String) (arguments : Json) (evidence : List EvidenceItem) :
    GatheringProgram (InvestigationTools.record auth toolName arguments evidence) := by
  apply gathering_bind (gathering_jot _)
  intro _
  exact gathering_invoke (gathers_audit (by decide) _ _ _)

/-- A result that is recorded and returned. -/
theorem recorded_gathers (r : Except PyError α) (toolName : String) (arguments : Json)
    (ids : α → List EvidenceItem) :
    GatheringProgram (do
      let evidence ← computed r
      InvestigationTools.record auth toolName arguments (ids evidence)
      pure evidence) := by
  apply gathering_bind (gathering_computed r)
  intro evidence
  apply gathering_bind (record_gathers toolName arguments (ids evidence))
  intro _
  exact gathering_pure evidence

/-- `get_alert` makes only calls of a tool. -/
theorem getAlert_gathers (alertId : String) :
    GatheringProgram (InvestigationTools.getAlert env auth alertId) := by
  unfold InvestigationTools.getAlert
  apply gathering_bind
  · exact gathering_invoke trivial
  intro alert
  apply gathering_bind (authorize_gathers _ _)
  intro _
  exact recorded_gathers _ _ _ (fun evidence => [evidence])

/-- `get_customer_profile` makes only calls of a tool. -/
theorem getCustomerProfile_gathers (customerId : String) :
    GatheringProgram (InvestigationTools.getCustomerProfile env auth customerId) := by
  unfold InvestigationTools.getCustomerProfile
  apply gathering_bind (authorize_gathers _ _)
  intro _
  apply gathering_bind
  · exact gathering_invoke trivial
  intro customer
  exact recorded_gathers _ _ _ (fun evidence => [evidence])

/-- `get_kyc_profile` makes only calls of a tool. -/
theorem getKycProfile_gathers (customerId : String) :
    GatheringProgram (InvestigationTools.getKycProfile env auth customerId) := by
  unfold InvestigationTools.getKycProfile
  apply gathering_bind (authorize_gathers _ _)
  intro _
  apply gathering_bind
  · exact gathering_invoke trivial
  intro kyc
  exact recorded_gathers _ _ _ (fun evidence => [evidence])

/-- `get_transactions` makes only calls of a tool. -/
theorem getTransactions_gathers (customerId : String) :
    GatheringProgram (InvestigationTools.getTransactions env auth customerId) := by
  unfold InvestigationTools.getTransactions
  apply gathering_bind (authorize_gathers _ _)
  intro _
  apply gathering_bind
  · exact gathering_invoke trivial
  intro all
  -- the limit is a numeral that unification would count down
  generalize InvestigationTools.transactionLimit = limit
  exact recorded_gathers _ _ _ (fun evidence => evidence)

/-- The calls of a tool are quiet. -/
theorem quiet_of_gathers {p : Investigation α} (h : GatheringProgram p) : QuietProgram p := by
  apply h.mono
  · intro call hgathers
    cases call with
    | getAlert | getCustomer | getKyc | getTransactions => trivial
    | audit => exact hgathers
    | _ => exact hgathers.elim
  · exact fun _ h => h

theorem quiet_bind {p : Investigation α} {f : α → Investigation β} (hp : QuietProgram p)
    (hf : ∀ a, QuietProgram (f a)) : QuietProgram (p >>= f) := hp.bind hf

theorem quiet_computed (r : Except PyError α) : QuietProgram (computed r) :=
  quiet_of_gathers (gathering_computed r)

theorem quiet_pure (a : α) : QuietProgram (pure a) := quiet_of_gathers (gathering_pure a)

theorem quiet_invoke {c : EngineCall} (hc : c.Quiet) : QuietProgram (invoke c) :=
  (Prog.only_call (S := engineSignature) c).mpr hc

end Gathering

section Follows

variable {env : EngineEnvironment} {task : ℕ} {op : EngineOp} {α β : Type}

/-- The program moves along the phases of its operation. -/
abbrev Moves (env : EngineEnvironment) (task : ℕ) (op : EngineOp) (p : Investigation α)
    (post : Except PyError α → Phase → Prop) (m : Phase) : Prop :=
  (conduct env task op).Follows p post m

/-- A sequence moves through both of its parts. -/
theorem moves_bind {p : Investigation α} {f : α → Investigation β}
    {mid : Except PyError α → Phase → Prop} {post : Except PyError β → Phase → Prop} {m : Phase}
    (hp : Moves env task op p mid m) (hok : ∀ a m, mid (.ok a) m → Moves env task op (f a) post m)
    (herror : ∀ e m, mid (.error e) m → post (.error e) m) : Moves env task op (p >>= f) post m := by
  apply (Diagram.follows_bind (D := conduct env task op) p f post m).mpr
  apply hp.mono
  intro r m hm
  cases r with
  | ok a => exact hok a m hm
  | error e => exact herror e m hm

/-- A mark moves along its edge. -/
theorem moves_jot {n : EngineMark} {post : Except PyError Unit → Phase → Prop} {m m' : Phase}
    (h : MarkEdge task op m n m') (hpost : post (.ok ()) m') : Moves env task op (jot n) post m :=
  (Diagram.follows_note (D := conduct env task op) n post m).mpr ⟨m', h, hpost⟩

/-- A computed result stays in its phase. -/
theorem moves_computed {r : Except PyError α} {post : Except PyError α → Phase → Prop} {m : Phase}
    (h : post r m) : Moves env task op (computed r) post m :=
  (Diagram.follows_settleResult (D := conduct env task op) r post m).mpr h

/-- A returned value stays in its phase. -/
theorem moves_pure {a : α} {post : Except PyError α → Phase → Prop} {m : Phase}
    (h : post (.ok a) m) : Moves env task op (pure a) post m :=
  (Diagram.follows_pure (D := conduct env task op) a post m).mpr h

/-- A computed value is handed on. -/
theorem moves_ok_bind {a : α} {f : α → Investigation β} {post : Except PyError β → Phase → Prop}
    {m : Phase} (h : Moves env task op (f a) post m) :
    Moves env task op (computed (.ok a) >>= f) post m :=
  (Diagram.follows_bind (D := conduct env task op) (computed (.ok a)) f post m).mpr
    (moves_computed h)

/-- A computed exception ends the sequence. -/
theorem moves_error_bind {e : PyError} {f : α → Investigation β}
    {post : Except PyError β → Phase → Prop} {m : Phase} (h : post (.error e) m) :
    Moves env task op (computed (.error e) >>= f) post m :=
  (Diagram.follows_bind (D := conduct env task op) (computed (.error e)) f post m).mpr
    (moves_computed h)

/-- A computed result and what follows it. -/
theorem moves_computed_bind {r : Except PyError α} {f : α → Investigation β}
    {post : Except PyError β → Phase → Prop} {m : Phase}
    (hok : ∀ a, r = .ok a → Moves env task op (f a) post m)
    (herror : ∀ e, r = .error e → post (.error e) m) :
    Moves env task op (computed r >>= f) post m := by
  cases r with
  | ok a => exact moves_ok_bind (hok a rfl)
  | error e => exact moves_error_bind (herror e rfl)

/-- A quiet program stays in a phase that every quiet call keeps. -/
theorem moves_quiet {p : Investigation α} (hp : QuietProgram p) {m : Phase}
    (hm : ∀ call r, call.Quiet → Edge env op m call r m) :
    Moves env task op p (fun _ m' => m' = m) m := by
  apply Diagram.follows_of_only (D := conduct env task op) (I := fun m' => m' = m) hp rfl
  · intro m' n hm' hn
    obtain ⟨execution, rfl⟩ := hn
    exact ⟨m', .executed m' execution, hm'⟩
  · intro m' call r hm' hq
    subst hm'
    exact ⟨m', hm call r hq, rfl⟩

/-- A call and what follows each of its replies. -/
theorem moves_invoke_bind {c : EngineCall} {f : c.Reply → Investigation β}
    {post : Except PyError β → Phase → Prop} {m : Phase}
    (h : ∀ r, expectedReply c r →
      ∃ m', Edge env op m c r m' ∧ Diagram.thenFollows (conduct env task op) f post r m') :
    Moves env task op (invoke c >>= f) post m :=
  (Diagram.follows_bind (D := conduct env task op) (invoke c) f post m).mpr
    ((Diagram.follows_call (D := conduct env task op) c _ m).mpr h)

/-- A mark and what follows it. -/
theorem moves_jot_bind {n : EngineMark} {f : Unit → Investigation β}
    {post : Except PyError β → Phase → Prop} {m m' : Phase} (h : MarkEdge task op m n m')
    (hf : Moves env task op (f ()) post m') : Moves env task op (jot n >>= f) post m :=
  (Diagram.follows_bind (D := conduct env task op) (jot n) f post m).mpr (moves_jot h hf)

/-- How the body of a stage ends: interrupted where it began, with a state that it may return,
or with an exception that the guard will record. -/
def stageEnds (env : EngineEnvironment) (c : UUID) (s : Stage) (values : InvestigationState) :
    Except PyError StageEnd → Phase → Prop
  | .ok .interrupted, m => m = .stage c s none values ∧ s ≠ .loadAndRetrieve
  | .ok (.updated values'), m => m.Yields c s values' ∧ BoundTo c values'
  | .error _, m => m.Works env c s values

/-- A quiet part of a stage. -/
theorem moves_quiet_bind {p : Investigation α} {f : α → Investigation StageEnd} {m : Phase}
    {c : UUID} {s : Stage} {values : InvestigationState}
    (hp : QuietProgram p) (hm : m.Works env c s values)
    (hok : ∀ a, Moves env task op (f a) (stageEnds env c s values) m) :
    Moves env task op (p >>= f) (stageEnds env c s values) m := by
  apply moves_bind (moves_quiet hp fun call r hq => .works m c s values call r hm hq)
  · intro a m' heq
    subst heq
    exact hok a
  · intro e m' heq
    subst heq
    exact hm

/-- A quiet call of a stage. -/
theorem moves_quiet_call {call : EngineCall} {f : call.Reply → Investigation StageEnd} {m : Phase}
    {c : UUID} {s : Stage} {values : InvestigationState} (hm : m.Works env c s values)
    (hq : call.Quiet) (hok : ∀ a, Moves env task op (f a) (stageEnds env c s values) m) :
    Moves env task op (invoke call >>= f) (stageEnds env c s values) m :=
  moves_quiet_bind (quiet_invoke hq) hm hok

/-- A reporting call of a stage that has set the status. -/
theorem moves_report_bind {call : EngineCall} {f : call.Reply → Investigation StageEnd} {m : Phase}
    {c : UUID} {s : Stage} {values : InvestigationState} (hm : m.Reports c s values)
    (hq : call.Reporting) (ht : m.Tells call)
    (hok : ∀ a, Moves env task op (f a) (stageEnds env c s values) m) :
    Moves env task op (invoke call >>= f) (stageEnds env c s values) m := by
  apply moves_invoke_bind
  intro r _
  cases r with
  | ok a => exact ⟨m, .reports m c s values call a hm hq ht, hok a⟩
  | error e => exact ⟨_, .reportFails m c s values call e hm hq ht, .failing c s values⟩

section Stages

variable {b : CaseBinding} {values : InvestigationState} {resume : Option Resume}

/-- The body of `load_and_retrieve`. -/
theorem loadAndRetrieve_moves (hvalues : values.binding = some b) (hb : BoundTo b.caseId values) :
    Moves env task op (loadAndRetrieve env b values)
      (stageEnds env b.caseId .loadAndRetrieve values)
      (.stage b.caseId .loadAndRetrieve resume values) := by
  have hwork : Works env (.loading b.caseId values) b.caseId .loadAndRetrieve values :=
    .loading b.caseId values
  unfold loadAndRetrieve
  apply moves_invoke_bind
  intro r _
  refine ⟨_, .runs b.caseId resume values r, ?_⟩
  cases r with
  | error e => exact .failing _ _ _
  | ok u =>
    apply moves_quiet_bind (quiet_of_gathers (getAlert_gathers _)) hwork
    intro alert
    apply moves_quiet_bind (quiet_of_gathers (getCustomerProfile_gathers _)) hwork
    intro customer
    apply moves_quiet_bind (quiet_of_gathers (getKycProfile_gathers _)) hwork
    intro kyc
    apply moves_quiet_bind (quiet_of_gathers (getTransactions_gathers _)) hwork
    intro transactions
    apply moves_quiet_bind (quiet_computed _) hwork
    intro selection
    apply moves_invoke_bind
    intro r hr
    obtain ⟨executions, rfl⟩ := hr
    refine ⟨_, .logs b.caseId values executions, ?_⟩
    apply moves_invoke_bind
    intro r _
    refine ⟨_, .shows b.caseId values b _ executions r hvalues, ?_⟩
    cases r with
    | error e => exact .failing _ _ _
    | ok u =>
      apply moves_quiet_call hwork
      · trivial
      intro _
      exact moves_pure ⟨.loading _ _ _ _, hb⟩

/-- The body of `draft`. -/
theorem draft_moves (hb : BoundTo b.caseId values) :
    Moves env task op (draft env b values) (stageEnds env b.caseId .draftRecommendation values)
      (.stage b.caseId .draftRecommendation resume values) := by
  unfold draft
  have hwork : Works env (.stage b.caseId .draftRecommendation resume values) b.caseId
      .draftRecommendation values := .stage _ _ _ _ trivial
  apply moves_quiet_call hwork
  · trivial
  intro recommendation
  apply moves_invoke_bind
  intro r _
  cases r with
  | error e => exact ⟨_, .saveFails _ _ _ _ e, .failing _ _ _⟩
  | ok version =>
    refine ⟨_, .saves _ _ _ _ version, ?_⟩
    apply moves_jot_bind (.drafted _ _ _ _)
    apply moves_quiet_call (.drafted _ _ _ _)
    · trivial
    intro _
    exact moves_pure ⟨.drafted _ _ _ _, hb⟩

/-- The body of `validate`. -/
theorem validate_moves (hvalues : values.binding = some b) (hb : BoundTo b.caseId values) :
    Moves env task op (validate b values) (stageEnds env b.caseId .validateControls values)
      (.stage b.caseId .validateControls resume values) := by
  unfold validate
  cases hrec : values.recommendation with
  | none => exact moves_error_bind (Works.stage b.caseId .validateControls resume values trivial)
  | some recommendation =>
    apply moves_ok_bind
    apply moves_invoke_bind
    intro r hr
    obtain ⟨executions, rfl⟩ := hr
    refine ⟨_, .looks b.caseId resume values executions, ?_⟩
    apply moves_jot_bind (.decided b.caseId resume values b recommendation executions hvalues hrec
      _ rfl)
    apply moves_invoke_bind
    intro r _
    refine ⟨_, .decides _ _ _ r, ?_⟩
    cases r with
    | error e => exact .failing _ _ _
    | ok u =>
      dsimp only [Diagram.thenFollows]
      split
      · apply moves_report_bind (.released _ _ _)
        · exact reporting_audit (by decide) _ _ _
        · trivial
        intro _
        apply moves_report_bind (.released _ _ _)
        · trivial
        · trivial
        intro _
        exact moves_pure ⟨.released _ _ _, hb⟩
      · apply moves_report_bind (.released _ _ _)
        · trivial
        · trivial
        intro _
        exact moves_pure ⟨.released _ _ _, hb⟩

/-- The part of `collect_information` that is resumed with a submission. -/
theorem supplied_moves {version : ℕ} {submission : Submission} (hvalues : values.binding = some b)
    (hversion : values.recommendationVersion = some version) (hb : BoundTo b.caseId values) :
    Moves env task op (supplied env b values version submission)
      (stageEnds env b.caseId .collectInformation values)
      (.stage b.caseId .collectInformation (some (.information submission)) values) := by
  unfold supplied
  cases hevidence : supplementalEvidence env b version submission with
  | error e =>
    exact moves_error_bind (.stage _ _ _ _ (.inr (.inr ⟨b, version, e, hvalues, hevidence⟩)))
  | ok evidence =>
    apply moves_ok_bind
    apply moves_invoke_bind
    intro r _
    refine ⟨_, .informs _ submission values b version evidence r hvalues hversion hevidence, ?_⟩
    cases r with
    | error e => exact .failing _ _ _
    | ok u =>
      apply moves_invoke_bind
      intro r _
      refine ⟨_, .collects _ _ _ r, ?_⟩
      cases r with
      | error e => exact .failing _ _ _
      | ok u =>
        apply moves_report_bind (.collecting _ _ _)
        · trivial
        · exact .inl ⟨_, rfl⟩
        intro _
        apply moves_computed_bind
        · intro selection _
          apply moves_report_bind (.collecting _ _ evidence)
          · trivial
          · exact .inr ⟨_, _, _, rfl⟩
          intro _
          exact moves_pure ⟨.collecting _ _ _ _, hb⟩
        · intro e hselection
          exact .collecting _ _ _ e hselection

/-- The body of `collect_information`. -/
theorem collectInformation_moves (hvalues : values.binding = some b)
    (hb : BoundTo b.caseId values) :
    Moves env task op (collectInformation env b values resume)
      (stageEnds env b.caseId .collectInformation values)
      (.stage b.caseId .collectInformation resume values) := by
  have hraise (h : values.recommendation = none ∨ values.recommendationVersion = none) :
      MayRaise env values .collectInformation resume := by
    cases resume with
    | none => trivial
    | some value =>
      cases value with
      | review request => trivial
      | information submission => exact h.imp_right .inl
  unfold collectInformation
  cases hrecommendation : values.recommendation with
  | none => exact moves_error_bind (.stage _ _ _ _ (hraise (.inl hrecommendation)))
  | some recommendation =>
    apply moves_ok_bind
    cases hversion : values.recommendationVersion with
    | none => exact moves_error_bind (.stage _ _ _ _ (hraise (.inr hversion)))
    | some version =>
      apply moves_ok_bind
      cases resume with
      | none => exact moves_pure ⟨rfl, by decide⟩
      | some value =>
        cases value with
        | review request => exact moves_computed (Works.stage b.caseId .collectInformation _ values trivial)
        | information submission => exact supplied_moves hvalues hversion hb

/-- The end of `human_review`, once the recommendation is the one to release. -/
theorem concluded_moves {review : HumanReview} {m : Phase} (hb : BoundTo b.caseId values)
    (hm : m = .edited b.caseId values review ∨
      m = .reviewed b.caseId values review ∧ review.editedRecommendation = none) :
    Moves env task op (do
      invoke (.setStatus b.caseId review.outcome)
      invoke (.trajectoryHook b.runId (.humanReview review))
      pure (.updated (values.withReview review)))
      (stageEnds env b.caseId .humanReview values) m := by
  apply moves_invoke_bind
  intro r _
  refine ⟨_, .concludes m _ _ _ r hm, ?_⟩
  cases r with
  | error e => exact .failing _ _ _
  | ok u =>
    apply moves_report_bind (.concluded _ _ _)
    · trivial
    · exact ⟨_, rfl⟩
    intro _
    exact moves_pure ⟨.concluded _ _ _, hb⟩

/-- The body of `human_review`. -/
theorem humanReview_moves (hb : BoundTo b.caseId values) :
    Moves env task op (humanReview b values resume) (stageEnds env b.caseId .humanReview values)
      (.stage b.caseId .humanReview resume values) := by
  have hwork : Works env (.stage b.caseId .humanReview resume values) b.caseId .humanReview values :=
    .stage _ _ _ _ (by cases resume <;> trivial)
  unfold humanReview
  split
  · rename_i hblocked
    exact moves_pure ⟨.blocked _ _ _ hblocked, hb⟩
  · rename_i hstatus
    cases hversion : values.recommendationVersion with
    | none => exact moves_error_bind hwork
    | some version =>
      apply moves_ok_bind
      cases resume with
      | none => exact moves_pure ⟨rfl, by decide⟩
      | some value =>
        cases value with
        | information submission => exact moves_computed hwork
        | review request =>
          dsimp only
          cases hreview : request.rebind b.caseId version with
          | error e => exact moves_error_bind hwork
          | ok review =>
            apply moves_ok_bind
            unfold concluded
            apply moves_jot_bind (.reviewed _ _ _ _ version hstatus hversion hreview)
            apply moves_invoke_bind
            intro r _
            refine ⟨_, .stores _ _ _ r, ?_⟩
            cases r with
            | error e => exact .failing _ _ _
            | ok u =>
              dsimp only [Diagram.thenFollows]
              split
              · rename_i edited hedited
                apply moves_invoke_bind
                intro r _
                refine ⟨_, .edits _ _ _ _ r hedited, ?_⟩
                cases r with
                | error e => exact .failing _ _ _
                | ok version => exact concluded_moves hb (.inl rfl)
              · rename_i hedited
                exact concluded_moves hb (.inr ⟨rfl, hedited⟩)

/-- The body of a stage. -/
theorem stageBody_moves (stage : Stage) (hvalues : values.binding = some b)
    (hb : BoundTo b.caseId values) :
    Moves env task op (stageBody env b values stage resume) (stageEnds env b.caseId stage values)
      (.stage b.caseId stage resume values) := by
  cases stage with
  | loadAndRetrieve => exact loadAndRetrieve_moves hvalues hb
  | draftRecommendation => exact draft_moves hb
  | validateControls => exact validate_moves hvalues hb
  | collectInformation => exact collectInformation_moves hvalues hb
  | humanReview => exact humanReview_moves hb

end Stages

/-- Phases in which a notification keeps an operation where it is. -/
inductive Notifies (env : EngineEnvironment) : Phase → Prop where
  | stage (c : UUID) (s : Stage) (resume : Option Resume) (values : InvestigationState) :
      Notifies env (.stage c s resume values)
  | works (m : Phase) (c : UUID) (s : Stage) (values : InvestigationState)
      (hm : m.Works env c s values) : Notifies env m
  | reports (m : Phase) (c : UUID) (s : Stage) (values : InvestigationState)
      (hm : m.Reports c s values) : Notifies env m
  | waits (m : Phase) (hm : m.Waits) : Notifies env m

/-- A stage returns its state from a phase that may be notified. -/
theorem Phase.Yields.notifies {m : Phase} {c : UUID} {s : Stage} {values : InvestigationState}
    (h : m.Yields c s values) : Notifies env m := by
  cases h with
  | loading => exact .works _ _ _ _ (.loading _ _)
  | drafted => exact .works _ _ _ _ (.drafted _ _ _ _)
  | released => exact .reports _ _ _ _ (.released _ _ _)
  | collecting => exact .reports _ _ _ _ (.collecting _ _ _)
  | blocked => exact .stage _ _ _ _
  | concluded => exact .reports _ _ _ _ (.concluded _ _ _)
  | failed => exact .waits _ (.failed _ _ _)

section Run

variable {b : CaseBinding} {c : UUID} {s : Stage} {resume : Option Resume}
  {values : InvestigationState}

/-- A suppressed quiet program in a phase that it keeps, and what follows it. -/
theorem moves_suppress_bind {p : Investigation Unit} (hp : QuietProgram p)
    {f : Unit → Investigation β} {m : Phase}
    (hm : ∀ call r, call.Quiet → Edge env op m call r m) {post : Except PyError β → Phase → Prop}
    (hf : Moves env task op (f ()) post m) : Moves env task op (Prog.suppress p >>= f) post m := by
  apply (Diagram.follows_bind (D := conduct env task op) (Prog.suppress p) f post m).mpr
  apply (Diagram.follows_suppress (D := conduct env task op) p _ m).mpr
  apply (moves_quiet hp hm).mono
  intro r m' heq
  subst heq
  exact hf

/-- A notification keeps its phase. -/
theorem moves_notify {m : Phase} (hm : Notifies env m) (stage : Stage) (event : String)
    {post : Except PyError Unit → Phase → Prop} (hpost : post (.ok ()) m) :
    Moves env task op (notifyStage b stage event) post m := by
  apply (Diagram.follows_suppress (D := conduct env task op) _ post m).mpr
  apply (Diagram.follows_call (D := conduct env task op) _ _ m).mpr
  intro r _
  refine ⟨m, ?_, hpost⟩
  cases hm with
  | stage c s resume values => exact .notified c s resume values _ _ _ r
  | works m c s values hm => exact .works m c s values (.stageHook _ _ _) r hm trivial
  | reports m c s values hm => exact .notifies m c s values _ _ _ r hm
  | waits m hm => exact .waits m (.stageHook _ _ _) r hm trivial

/-- What the guard leaves of a stage: interrupted where it began, with a state to write, or out
of the run. -/
def guardEnds (c : UUID) (s : Stage) (values : InvestigationState) :
    Except PyError StageEnd → Phase → Prop
  | .ok .interrupted, m => m = .stage c s none values ∧ s ≠ .loadAndRetrieve
  | .ok (.updated values'), m => m.Yields c s values' ∧ BoundTo c values'
  | .error _, m => m.Leaves c true

/-- `record_failure` sets the status or raises. -/
theorem recordFailure_moves (e : PyError) {m : Phase} (hm : m.Works env b.caseId s values)
    (hb : BoundTo b.caseId values) :
    Moves env task op (recordFailure b values s e)
      (fun r m' => Notifies env m' ∧ guardEnds b.caseId s values r m') m := by
  unfold recordFailure
  apply moves_invoke_bind
  intro r hr
  obtain ⟨errorId, rfl⟩ := hr
  refine ⟨m, .works m b.caseId s values _ _ hm trivial, ?_⟩
  apply moves_invoke_bind
  intro r _
  refine ⟨_, .givesUp m b.caseId s values r hm, ?_⟩
  cases r with
  | error e => exact ⟨.waits _ (.ran _), .ran _⟩
  | ok u =>
    have hquiet : ∀ call r, call.Quiet →
        Edge env op (.failed b.caseId s values) call r (.failed b.caseId s values) :=
      fun call r hq => .waits _ call r (.failed _ _ _) hq
    apply moves_suppress_bind (quiet_invoke (quiet_audit (by decide) _ _ _)) hquiet
    apply moves_suppress_bind (quiet_invoke (c := .trajectoryHook _ (.investigationFailed _)) trivial) hquiet
    exact moves_pure ⟨.waits _ (.failed _ _ _), .failed _ _ _ _, hb⟩

/-- The guard notifies how a stage has ended and records an exception. -/
theorem settleStage_moves (r : Except PyError StageEnd) {m : Phase}
    (hm : stageEnds env b.caseId s values r m) (hb : BoundTo b.caseId values) :
    Moves env task op (settleStage b values s r) (guardEnds b.caseId s values) m := by
  cases r with
  | ok ended =>
    cases ended with
    | interrupted =>
      obtain ⟨rfl, hs⟩ := hm
      apply (Diagram.follows_bind (D := conduct env task op) _ _ _ _).mpr
      exact moves_notify (.stage _ _ _ _) s _ (moves_pure ⟨rfl, hs⟩)
    | updated values' =>
      apply (Diagram.follows_bind (D := conduct env task op) _ _ _ _).mpr
      exact moves_notify hm.1.notifies s _ (moves_pure hm)
  | error e =>
    apply (Diagram.follows_finally' (D := conduct env task op) _ _ _ _).mpr
    apply (recordFailure_moves e hm hb).mono
    intro r m' h
    apply moves_notify h.1 s
    exact moves_computed h.2

/-- A guarded stage. -/
theorem guarded_moves (hb : BoundTo c values) :
    Moves env task op (guarded env values s resume) (guardEnds c s values)
      (.stage c s resume values) := by
  unfold guarded
  apply moves_computed_bind
  · intro b hbinding
    have hvalues : values.binding = some b := orRaise_eq_ok.mp hbinding
    obtain rfl := hb b hvalues
    apply (Diagram.follows_bind (D := conduct env task op) _ _ _ _).mpr
    apply moves_notify (.stage _ _ _ _) s
    apply (Diagram.follows_bind (D := conduct env task op) _ _ _ _).mpr
    apply (Diagram.follows_attempt (D := conduct env task op) _ _ _).mpr
    apply (stageBody_moves s hvalues hb).mono
    intro r m' h
    exact settleStage_moves r h hb
  · intro e hbinding
    have hvalues : values.binding = none := (orRaise_eq_error.mp hbinding).1
    exact .unbound _ _ _ _ hvalues

/-- The stages run until one interrupts, leads nowhere or raises. -/
theorem drive_moves (fuel : ℕ) (hfuel : fuel = 0 → resume = none ∧ s ≠ .loadAndRetrieve)
    (hb : BoundTo c values) :
    Moves env task op (drive env c fuel s resume values) (fun _ m => m.Leaves c true)
      (.stage c s resume values) := by
  induction fuel generalizing s resume values with
  | zero =>
    obtain ⟨rfl, hs⟩ := hfuel rfl
    exact moves_computed (.halted _ _ _ hs)
  | succ fuel ih =>
    unfold drive
    apply moves_bind (guarded_moves hb)
    · intro ended m hm
      cases ended with
      | interrupted =>
        obtain ⟨rfl, hs⟩ := hm
        exact moves_pure (.halted _ _ _ hs)
      | updated values' =>
        apply moves_invoke_bind
        intro r _
        refine ⟨_, .puts m c s values' r hm.1 hm.2, ?_⟩
        cases r with
        | error e => exact .ran _
        | ok u =>
          dsimp only [Diagram.thenFollows, landed]
          cases hroute : route s values' with
          | none => exact moves_pure (.ran _)
          | some next =>
            apply ih _ hm.2
            intro _
            exact ⟨rfl, fun hnext => route_ne_loadAndRetrieve s values' (hnext ▸ hroute)⟩
    · intro e m hm
      exact hm

/-- One invocation of the graph. -/
theorem ainvoke_moves {runId : UUID} {input : GraphInput}
    (hstart : ∀ b, input = .start b → op.Starts ∧ b.caseId = c ∧ b.runId = runId)
    (hresume : ∀ value, input = .resume value → op.Resumes value) :
    Moves env task op (ainvoke env task c input)
      (fun r m => ∃ ran, m.Leaves c ran ∧ (r = .ok () → ran = true)) (.admitted c runId) := by
  unfold ainvoke
  -- the limit is a numeral that unification would count down
  have hlimit : recursionLimit ≠ 0 := by decide
  generalize recursionLimit = limit at hlimit ⊢
  apply moves_invoke_bind
  intro r hr
  cases r with
  | error e => exact ⟨_, .loadFails c runId input e, false, .admitted _ _, nofun⟩
  | ok saved =>
    have hend {p : Investigation Unit} {m : Phase}
        (h : Moves env task op p (fun _ m => m.Leaves c true) m) :
        Moves env task op p (fun r m => ∃ ran, m.Leaves c ran ∧ (r = .ok () → ran = true)) m :=
      h.mono fun _ _ hm => ⟨true, hm, fun _ => rfl⟩
    cases input with
    | start b =>
      obtain ⟨hop, rfl, rfl⟩ := hstart b rfl
      refine ⟨_, .loadStart b.caseId b saved hop rfl, ?_⟩
      apply moves_jot_bind (.loaded _ _ (.inr rfl))
      have hbound : BoundTo b.caseId ((savedValues saved).started b) := by
        intro b' hb'
        cases hb'
        rfl
      apply hend
      apply moves_invoke_bind
      intro r _
      refine ⟨_, .entered _ _ r hbound, ?_⟩
      cases r with
      | error e => exact .ran _
      | ok u => exact drive_moves limit (absurd · hlimit) hbound
    | resume value =>
      have hop := hresume value rfl
      have hran : Moves env task op (jot (.loaded task c) >>= fun _ => pure ())
          (fun r m => ∃ ran, m.Leaves c ran ∧ (r = .ok () → ran = true)) (.loaded c (.ran c)) :=
        moves_jot_bind (.loaded _ _ (.inl rfl)) (hend (moves_pure (.ran _)))
      rcases saved with _ | ⟨values, last, _ | stage⟩
      · have hnone : ∀ checkpoint, (none : Option Checkpoint) = some checkpoint →
            checkpoint.next = none := fun _ h => by cases h
        exact ⟨_, .loadNothing c runId value none hop hnone, hran⟩
      · have hnone : ∀ checkpoint, some (Checkpoint.mk values last none) = some checkpoint →
            checkpoint.next = none := fun _ h => by cases h; rfl
        exact ⟨_, .loadNothing c runId value _ hop hnone, hran⟩
      · have hbound : BoundTo c values := hr ⟨values, last, some stage⟩ rfl
        refine ⟨_, .loadStage c runId value values last stage hop, ?_⟩
        apply moves_jot_bind (.loaded _ _ (.inr rfl))
        exact hend (drive_moves limit (absurd · hlimit) hbound)

end Run

section Operations

open LangGraphInvestigationEngine

variable {c : UUID}

/-- A quiet call outside the graph. -/
theorem moves_outside {call : EngineCall} {f : call.Reply → Investigation β}
    {post : Except PyError β → Phase → Prop} {m : Phase} {ran : Bool} (hm : m.Outside ran)
    (hq : call.Quiet) (hok : ∀ a, Moves env task op (f a) post (.idle ran))
    (herror : ∀ e, post (.error e) (.idle ran)) : Moves env task op (invoke call >>= f) post m := by
  apply moves_invoke_bind
  intro r _
  refine ⟨_, .outside m ran call r hm hq, ?_⟩
  cases r with
  | ok a => exact hok a
  | error e => exact herror e

/-- A case is read outside the graph. -/
theorem moves_getCase {f : CaseData → Investigation β} {post : Except PyError β → Phase → Prop}
    {m : Phase} {ran : Bool} (hm : m.Outside ran)
    (hok : ∀ case, case.caseId = c → Moves env task op (f case) post (.read ran case false))
    (herror : ∀ e, post (.error e) (.idle ran)) :
    Moves env task op (invoke (.getCase c) >>= f) post m := by
  apply moves_invoke_bind
  intro r hr
  cases r with
  | ok case => exact ⟨_, .asked m ran c case hm, hok case (hr case rfl)⟩
  | error e => exact ⟨_, .unknown m ran c e hm, herror e⟩

/-- `_to_run` after its `get_case`. -/
theorem assembleRun_moves {case : CaseData} {m : Phase} {ran : Bool} (hm : m.Outside ran) :
    Moves env task op (assembleRun case) (fun _ m => m = .idle ran) m := by
  apply moves_outside hm
  · trivial
  · intro saved
    exact moves_pure rfl
  · intro e
    rfl

/-- `_to_run` only reads. -/
theorem toRun_moves {m : Phase} {ran : Bool} (hm : m.Outside ran) :
    Moves env task op (toRun c) (fun _ m => m = .idle ran) m := by
  apply moves_getCase hm
  · intro case _
    exact assembleRun_moves (.read _ _ _)
  · intro e
    rfl

/-- An operation that is admitted to the graph of a case leaves it again. -/
theorem admittedTo_moves {p : Investigation α} {m : Phase} {runId : UUID}
    {Q : Except PyError α → Bool → Prop}
    (hedge : MarkEdge task op m (.admitted task c) (.admitted c runId))
    (hp : Moves env task op p (fun r m => ∃ ran, m.Leaves c ran ∧ Q r ran) (.admitted c runId)) :
    Moves env task op (admittedTo task c p) (fun r m => ∃ ran, m = .idle ran ∧ Q r ran) m := by
  apply moves_jot_bind hedge
  apply (Diagram.follows_finally' (D := conduct env task op) _ _ _ _).mpr
  apply hp.mono
  rintro r m' ⟨ran, hleaves, hQ⟩
  apply moves_jot (.left m' c ran hleaves)
  exact moves_computed ⟨ran, rfl, hQ⟩

/-- A request that is run for its effects. -/
theorem discard_moves {p : Investigation α} {m : Phase}
    (hp : Moves env task op p (fun r m => ∃ ran, m.Outside ran ∧
      ((∃ value, op.Resumes value) → ∀ a, r = .ok a → ran = true)) m) :
    Moves env task op (EngineOp.discard p) (programEnds op) m := by
  apply moves_bind hp
  · rintro a m ⟨ran, hm, hran⟩
    exact moves_pure ⟨ran, hm, fun hop _ => hran hop a rfl⟩
  · rintro e m ⟨ran, hm, -⟩
    exact ⟨ran, hm, fun _ h => by cases h⟩

/-- `run_prepared` once the case may be run. -/
theorem runPrepared_moves {case : CaseData} {actorId contextCondition : String} {m : Phase}
    (hedge : MarkEdge task op m (.admitted task case.caseId) (.admitted case.caseId case.runId))
    (hop : op.Starts) :
    Moves env task op (runPrepared env task case actorId contextCondition)
      (fun _ m => ∃ ran, m = .idle ran) m := by
  apply moves_bind (admittedTo_moves hedge (Q := fun _ _ => True) _)
  · rintro u m ⟨ran, rfl, -⟩
    exact (toRun_moves (.idle ran)).mono fun _ _ h => ⟨ran, h⟩
  · rintro e m ⟨ran, rfl, -⟩
    exact ⟨ran, rfl⟩
  · apply (ainvoke_moves _ _).mono
    · rintro r m ⟨ran, hleaves, -⟩
      exact ⟨ran, hleaves, trivial⟩
    · intro b hb
      cases hb
      exact ⟨hop, rfl, rfl⟩
    · intro value h
      cases h

/-- A case is resumed with a value and then read. -/
theorem resume_moves {case : CaseData} {value : Resume} (hchecks : op.Checks case)
    (hop : op.Resumes value) :
    Moves env task op
      (do
        admittedTo task case.caseId (ainvoke env task case.caseId (.resume value))
        toRun case.caseId)
      (fun r m => ∃ ran, m.Outside ran ∧
        ((∃ value, op.Resumes value) → ∀ a, r = .ok a → ran = true))
      (.read false case false) := by
  apply moves_bind (admittedTo_moves (.checked false case hchecks) (ainvoke_moves _ _))
  · rintro u m ⟨ran, rfl, hran⟩
    exact (toRun_moves (.idle ran)).mono fun _ _ h => ⟨ran, h ▸ .idle ran, fun _ _ _ => hran rfl⟩
  · rintro e m ⟨ran, rfl, -⟩
    exact ⟨ran, .idle ran, fun _ _ h => by cases h⟩
  · intro b h
    cases h
  · intro v h
    cases h
    exact hop

/-- A run that resumes nothing may end before or after it has begun. -/
theorem discard_moves_of_starts {p : Investigation α} {m : Phase} (hop : ∀ value, ¬op.Resumes value)
    (hp : Moves env task op p (fun _ m => ∃ ran, m.Outside ran) m) :
    Moves env task op (EngineOp.discard p) (programEnds op) m := by
  apply discard_moves
  apply hp.mono
  rintro r m ⟨ran, hm⟩
  exact ⟨ran, hm, fun ⟨value, h⟩ => absurd h (hop value)⟩

section Requests

variable {alertId actorId tenantId contextCondition eventType : String}

/-- A case is created or located. -/
theorem moves_createCase {f : CaseData × Bool → Investigation β}
    {post : Except PyError β → Phase → Prop}
    (hcreated : ∀ case, Moves env task op (f (case, true)) post (.read false case true))
    (hlocated : ∀ case, Moves env task op (f (case, false)) post (.idle false))
    (herror : ∀ e, post (.error e) (.idle false)) :
    Moves env task op (invoke (.createCase alertId tenantId actorId) >>= f) post (.idle false) := by
  apply moves_invoke_bind
  intro r _
  rcases r with e | ⟨case, created⟩
  · have hr : ∀ case, (.error e : Except PyError (CaseData × Bool)) ≠ .ok (case, true) :=
      fun _ h => by cases h
    exact ⟨_, .located _ false alertId tenantId actorId _ (.idle false) hr, herror e⟩
  · cases created with
    | true => exact ⟨_, .created _ false alertId tenantId actorId case (.idle false), hcreated case⟩
    | false =>
      have hr : ∀ other, (.ok (case, false) : Except PyError (CaseData × Bool)) ≠ .ok (other, true) :=
        fun _ h => by cases h
      exact ⟨_, .located _ false alertId tenantId actorId _ (.idle false) hr, hlocated case⟩

/-- `start`. -/
theorem start_moves (hop : op = .start alertId actorId tenantId contextCondition) :
    Moves env task op (start env task alertId actorId tenantId contextCondition)
      (fun _ m => ∃ ran, m.Outside ran) (.idle false) := by
  apply moves_createCase
  · intro case
    have hprepares : op.Prepares := hop ▸ trivial
    apply (runPrepared_moves (.created false case hprepares) (hop ▸ trivial)).mono
    rintro r m ⟨ran, rfl⟩
    exact ⟨ran, .idle ran⟩
  · intro case
    exact (toRun_moves (.idle false)).mono fun _ _ h => ⟨false, h ▸ .idle false⟩
  · intro e
    exact ⟨false, .idle false⟩

/-- `_run_ui_investigation`. -/
theorem runUiInvestigation_moves {case : CaseData} {m : Phase}
    (hedge : MarkEdge task op m (.admitted task case.caseId) (.admitted case.caseId case.runId))
    (hop : op.Starts) {post : Except PyError Unit → Phase → Prop}
    (hpost : ∀ ran, post (.ok ()) (.idle ran)) :
    Moves env task op (runUiInvestigation env task case actorId contextCondition) post m := by
  apply (Diagram.follows_suppress (D := conduct env task op) _ post m).mpr
  apply moves_bind (runPrepared_moves hedge hop)
  · rintro run m ⟨ran, rfl⟩
    exact moves_pure (hpost ran)
  · rintro e m ⟨ran, rfl⟩
    exact hpost ran

/-- A failed case is read and run again. -/
theorem again_moves {case : CaseData} (hop : op.Starts) :
    Moves env task op
      (do
        let _ ← assembleRun case
        runUiInvestigation env task case actorId contextCondition)
      (fun _ m => ∃ ran, m.Leaves case.caseId ran ∧ True)
      (.admitted case.caseId case.runId) := by
  have hread : QuietProgram (assembleRun case) := by
    apply quiet_bind
    · exact quiet_invoke (c := .getState case.caseId) trivial
    intro saved
    exact quiet_pure _
  apply moves_bind (moves_quiet hread fun call r hq => .waits _ call r (.admitted _ _) hq)
  · rintro run m rfl
    exact runUiInvestigation_moves (.again _ _) hop fun ran => ⟨ran, .idle _ ran, trivial⟩
  · rintro e m rfl
    exact ⟨false, .admitted _ _, trivial⟩

/-- `ui_start_investigation`. -/
theorem uiStart_moves (hop : op = .uiStart alertId actorId tenantId contextCondition) :
    Moves env task op (uiStart env task alertId actorId tenantId contextCondition)
      (fun _ m => ∃ ran, m.Outside ran) (.idle false) := by
  have hprepares : op.Prepares := hop ▸ trivial
  have hstarts : op.Starts := hop ▸ trivial
  apply moves_createCase
  · intro case
    exact runUiInvestigation_moves (.created false case hprepares) hstarts fun ran => ⟨ran, .idle ran⟩
  · intro located
    apply moves_getCase (.idle false)
    · intro case hcase
      split
      · rename_i hfailed
        have hchecks : op.Checks case := hop ▸ hfailed
        apply (admittedTo_moves (.checked false case hchecks) (again_moves hstarts)).mono
        rintro r m ⟨ran, rfl, -⟩
        exact ⟨ran, .idle ran⟩
      · apply moves_bind (assembleRun_moves (.read false case false))
        · rintro run m rfl
          exact moves_pure ⟨false, .idle false⟩
        · rintro e m rfl
          exact ⟨false, .idle false⟩
    · intro e
      exact ⟨false, .idle false⟩
  · intro e
    exact ⟨false, .idle false⟩

/-- `record_security_event`. -/
theorem recordSecurityEvent_moves {c : UUID} (hop : op = .recordSecurityEvent c eventType) :
    Moves env task op (recordSecurityEvent c eventType) (fun _ m => ∃ ran, m.Outside ran)
      (.idle false) := by
  subst hop
  apply moves_computed_bind
  · intro u _
    apply moves_getCase (.idle false)
    · intro case _
      apply moves_outside (.read false case false)
      · trivial
      · intro saved
        apply moves_invoke_bind
        intro r _
        refine ⟨_, .revised _ false c eventType _ _ r (.idle false) rfl, ?_⟩
        cases r with
        | error e => exact ⟨false, .idle false⟩
        | ok u =>
          apply moves_invoke_bind
          intro r _
          refine ⟨_, .revoked _ false c eventType r (.idle false) rfl, ?_⟩
          cases r with
          | error e => exact ⟨false, .idle false⟩
          | ok u =>
            apply moves_outside (.idle false)
            · exact quiet_audit (by decide) _ _ _
            · intro _
              apply moves_outside (.idle false)
              · trivial
              · intro _
                exact (toRun_moves (.idle false)).mono fun _ _ h => ⟨false, h ▸ .idle false⟩
              · intro e
                exact ⟨false, .idle false⟩
            · intro e
              exact ⟨false, .idle false⟩
      · intro e
        exact ⟨false, .idle false⟩
    · intro e
      exact ⟨false, .idle false⟩
  · intro e _
    exact ⟨false, .idle false⟩

/-- `reset`. -/
theorem reset_moves {c : UUID} (hop : op = .reset c actorId) :
    Moves env task op (reset task c actorId) (fun _ m => ∃ ran, m.Outside ran) (.idle false) := by
  subst hop
  apply moves_getCase (.idle false)
  · intro case hcase
    subst hcase
    apply moves_computed_bind
    · intro u hstatus
      have hidle := not_or.mp (raiseIf_eq_ok.mp hstatus)
      apply moves_jot_bind (.resets false case actorId rfl hidle)
      refine moves_bind (?_ : Moves env task _ _ (fun _ m => m = .idle false) _) ?_ ?_
      · apply (Diagram.follows_finally' (D := conduct env task _) _ _ _ _).mpr
        have hleaves {r : Except PyError Unit} {m : Phase} (h : m.Leaves case.caseId false) :
            Moves env task (.reset case.caseId actorId) (jot (.left task case.caseId))
              (Diagram.thenFollows (conduct env task (.reset case.caseId actorId))
                (fun _ => Prog.settleResult (S := engineSignature) r) fun _ m => m = .idle false) m :=
          moves_jot (.left m case.caseId false h) (moves_computed rfl)
        apply moves_invoke_bind
        intro r _
        refine ⟨_, .waits _ _ r (.deleting _) (quiet_audit (by decide) _ _ _), ?_⟩
        cases r with
        | error e => exact hleaves (.deleting _)
        | ok u =>
          apply moves_invoke_bind
          intro r _
          refine ⟨_, .deleted _ r, ?_⟩
          cases r with
          | error e => exact hleaves (.deleting _)
          | ok u =>
            apply (Diagram.follows_suppress (D := conduct env task _) _ _ _).mpr
            apply (Diagram.follows_call (D := conduct env task _) (.deleteThread _) _ _).mpr
            intro r _
            exact ⟨_, .forgotten _ r, hleaves (.idle _ false)⟩
      · rintro u m rfl
        exact moves_pure ⟨false, .idle false⟩
      · rintro e m rfl
        exact ⟨false, .idle false⟩
    · intro e _
      exact ⟨false, .read false case false⟩
  · intro e
    exact ⟨false, .idle false⟩

/-- `review`. -/
theorem review_moves {request : HumanReview} (hop : op = .review request) :
    Moves env task op (review env task request)
      (fun r m => ∃ ran, m.Outside ran ∧
        ((∃ value, op.Resumes value) → ∀ a, r = .ok a → ran = true)) (.idle false) := by
  subst hop
  apply moves_getCase (.idle false)
  · intro case hcase
    apply moves_computed_bind
    · intro u hblocked
      apply moves_computed_bind
      · intro u hversion
        have hchecks : (EngineOp.review request).Checks case :=
          ⟨hcase.symm, raiseIf_eq_ok.mp hblocked, not_not.mp (raiseIf_eq_ok.mp hversion)⟩
        exact resume_moves hchecks rfl
      · intro e _
        exact ⟨false, .read false case false, fun _ _ h => by cases h⟩
    · intro e _
      exact ⟨false, .read false case false, fun _ _ h => by cases h⟩
  · intro e
    exact ⟨false, .idle false, fun _ _ h => by cases h⟩

/-- `supply_information`. -/
theorem supplyInformation_moves {c : UUID} {submission : Submission}
    (hop : op = .supplyInformation c submission) :
    Moves env task op (supplyInformation env task c submission)
      (fun r m => ∃ ran, m.Outside ran ∧
        ((∃ value, op.Resumes value) → ∀ a, r = .ok a → ran = true)) (.idle false) := by
  subst hop
  apply moves_getCase (.idle false)
  · intro case hcase
    apply moves_computed_bind
    · intro u hwaits
      have hchecks : (EngineOp.supplyInformation c submission).Checks case :=
        ⟨hcase.symm, not_not.mp (raiseIf_eq_ok.mp hwaits)⟩
      obtain rfl := hcase
      exact resume_moves hchecks rfl
    · intro e _
      exact ⟨false, .read false case false, fun _ _ h => by cases h⟩
  · intro e
    exact ⟨false, .idle false, fun _ _ h => by cases h⟩

end Requests

/-- Every operation moves along the phases. -/
theorem program_follows (env : EngineEnvironment) (task : ℕ) (op : EngineOp) :
    Moves env task op (op.program env task) (programEnds op) (.idle false) := by
  cases op with
  | start alertId actorId tenantId contextCondition =>
    exact discard_moves_of_starts (fun _ h => h) (start_moves rfl)
  | uiStart alertId actorId tenantId contextCondition =>
    apply (uiStart_moves rfl).mono
    rintro r m ⟨ran, hm⟩
    exact ⟨ran, hm, fun ⟨_, h⟩ => h.elim⟩
  | runPrepared case actorId contextCondition =>
    refine discard_moves_of_starts (fun _ h => h) ?_
    apply (runPrepared_moves (.prepared case actorId contextCondition rfl) trivial).mono
    rintro r m ⟨ran, rfl⟩
    exact ⟨ran, .idle ran⟩
  | review request => exact discard_moves (review_moves rfl)
  | supplyInformation c submission => exact discard_moves (supplyInformation_moves rfl)
  | recordSecurityEvent c eventType =>
    exact discard_moves_of_starts (fun _ h => h) (recordSecurityEvent_moves rfl)
  | reset c actorId => exact discard_moves_of_starts (fun _ h => h) (reset_moves rfl)
  | get c =>
    exact discard_moves_of_starts (fun _ h => h)
      ((toRun_moves (.idle false)).mono fun _ _ h => ⟨false, h ▸ .idle false⟩)

/-- Every operation of the engine follows the chart. -/
theorem engineChart_covers (env : EngineEnvironment) : (engineChart env).Covers (engineSystem env) :=
  fun i op _ => program_follows env i op

/-- Every request follows the chart. -/
theorem requestChart_covers (env : EngineEnvironment) :
    (requestChart env).Covers (engineSystem env) :=
  fun i op _ => program_follows env i op

/-- Every routine request follows the chart. -/
theorem routineChart_covers (env : EngineEnvironment) :
    (routineChart env).Covers (engineSystem env) :=
  fun i op _ => program_follows env i op

/-- On an idle engine nothing has been started. -/
theorem idleEngine_traces (env : EngineEnvironment) (bank : SyntheticBank) :
    (engineChart env).Traces (idleEngine bank) fun _ => .idle false :=
  Chart.traces_fresh _ _

/-- On an idle engine no routine request has been made. -/
theorem idleEngine_routine (env : EngineEnvironment) (bank : SyntheticBank) :
    (routineChart env).Traces (idleEngine bank) fun _ => .idle false :=
  Chart.traces_fresh _ _

/-- On an idle engine nothing has been requested. -/
theorem idleEngine_requests (env : EngineEnvironment) (bank : SyntheticBank) :
    (requestChart env).Traces (idleEngine bank) fun _ => .idle false :=
  Chart.traces_fresh _ _

end Operations


end Follows

end Amlguard
