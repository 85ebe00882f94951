import Amlguard.Evaluation.Coverage

/-!
# The coverage summary and the number of sessions

The figures of a summary are all that is in it but names and titles. They are determined by the statuses
that are listed under each two IDs, so they are the same for every order of the sessions. The observations
of a control are its listings, and there are no more of them than sessions exactly when the listings
beyond the first of each session are made up for by sessions without a listing.
-/

namespace Amlguard

/-- What is reported about a control, but for its title. -/
def ControlCoverage.figures (control : ControlCoverage) : ControlCoverage := { control with title := "" }

/-- What is reported about a framework, but for names and titles. -/
def FrameworkCoverage.figures (framework : FrameworkCoverage) : FrameworkCoverage :=
  { framework with name := "", controls := framework.controls.map ControlCoverage.figures }

/-- The summary, but for names and titles. -/
def CoverageSummary.figures (summary : CoverageSummary) : CoverageSummary :=
  { summary with frameworks := summary.frameworks.map FrameworkCoverage.figures }

section Figures

variable {py : PyBuiltins} {rate : ℕ → ℕ → ℚ}

/-- Controls that are listed with the same statuses have the same figures. -/
theorem Tallied.figures {controls controls' : Dict String ControlAggregate}
    {listings listings' : List (String × String)} (h : Tallied controls listings)
    (h' : Tallied controls' listings') (hperm : listings.Perm listings') (controlId : String) :
    (controls.get? controlId).map (fun control => (controlCoverage rate control).figures) =
      (controls'.get? controlId).map fun control => (controlCoverage rate control).figures := by
  have hstatuses : (statusesOf listings controlId).Perm (statusesOf listings' controlId) :=
    (hperm.filter _).map _
  have hread : (controls.get? controlId).map (fun control => (control.id, control.statusCounts)) =
      (controls'.get? controlId).map fun control => (control.id, control.statusCounts) := by
    rw [h controlId, h' controlId, tally_perm hstatuses]
    simp only [← List.length_eq_zero_iff, hstatuses.length_eq]
  have hfigures := congrArg (Option.map fun pair : String × StatusCounts =>
    controlCoverage rate { id := pair.1, title := "", statusCounts := pair.2 }) hread
  rw [Option.map_map, Option.map_map] at hfigures
  exact hfigures

/-- The ID of a control is the one that it is kept under. -/
theorem Tallied.id {controls : Dict String ControlAggregate} {listings : List (String × String)}
    (h : Tallied controls listings) {controlId : String} {control : ControlAggregate}
    (hget : controls.get? controlId = some control) :
    control.id = controlId ∧ statusesOf listings controlId ≠ [] ∧
      control.statusCounts = tally (statusesOf listings controlId) := by
  have hread := h controlId
  rw [hget, Option.map_some] at hread
  by_cases hnil : statusesOf listings controlId = []
  · rw [if_pos hnil] at hread
    cases hread
  · rw [if_neg hnil] at hread
    obtain ⟨hid, hcounts⟩ := Prod.mk.inj (Option.some.inj hread)
    exact ⟨hid, hnil, hcounts⟩

/-- The figures of a framework are its ID and the ranking of the figures of its controls. -/
theorem figures_frameworkCoverage (framework : FrameworkAggregate) :
    (frameworkCoverage rate framework).figures =
      { id := framework.id
        name := ""
        controls := Ranking.sortedBy ControlCoverage.id
          (framework.controls.values.map fun control => (controlCoverage rate control).figures) } := by
  have hmap : (Ranking.sortedBy ControlCoverage.id
      (framework.controls.values.map (controlCoverage rate))).map ControlCoverage.figures =
        Ranking.sortedBy ControlCoverage.id
          ((framework.controls.values.map (controlCoverage rate)).map ControlCoverage.figures) :=
    Ranking.map_sortedBy fun _ => rfl
  rw [List.map_map] at hmap
  unfold frameworkCoverage FrameworkCoverage.figures
  dsimp only
  rw [hmap]
  rfl

/-- The figures of a framework's controls are ordered in one way only. -/
theorem figures_congr {framework framework' : FrameworkAggregate}
    {listings listings' : List (String × String)} (hid : framework.id = framework'.id)
    (h : Tallied framework.controls listings) (h' : Tallied framework'.controls listings')
    (hperm : listings.Perm listings') :
    (frameworkCoverage rate framework).figures = (frameworkCoverage rate framework').figures := by
  have hvalues : (framework.controls.values.map fun control => (controlCoverage rate control).figures).Perm
      (framework'.controls.values.map fun control => (controlCoverage rate control).figures) :=
    Dict.map_values_perm (h.figures h' hperm)
  have hkey : ∀ a ∈ framework.controls.values.map fun control => (controlCoverage rate control).figures,
      ∀ b ∈ framework.controls.values.map fun control => (controlCoverage rate control).figures,
        a.id = b.id → a = b :=
    Dict.eq_of_map_values fun _ _ hget => (h.id hget).1
  rw [figures_frameworkCoverage, figures_frameworkCoverage, hid, Ranking.sortedBy_congr hvalues hkey]

/-- The ID of a framework is the one that it is kept under. -/
theorem Aggregated.id {frameworks : Dict String FrameworkAggregate}
    {reports : List (String × List (String × String))} (h : Aggregated frameworks reports)
    {frameworkId : String} {framework : FrameworkAggregate}
    (hget : frameworks.get? frameworkId = some framework) :
    framework.id = frameworkId ∧ Tallied framework.controls (listingsOf reports frameworkId) := by
  have hread := h frameworkId
  rw [hget] at hread
  exact hread.2

/-- Frameworks that are reported with the same listings have the same figures. -/
theorem Aggregated.figures {frameworks frameworks' : Dict String FrameworkAggregate}
    {reports reports' : List (String × List (String × String))} (h : Aggregated frameworks reports)
    (h' : Aggregated frameworks' reports') (hperm : reports.Perm reports') (frameworkId : String) :
    (frameworks.get? frameworkId).map (fun framework => (frameworkCoverage rate framework).figures) =
      (frameworks'.get? frameworkId).map fun framework => (frameworkCoverage rate framework).figures := by
  have hlistings : (listingsOf reports frameworkId).Perm (listingsOf reports' frameworkId) :=
    (hperm.filter _).flatMap_right _
  have hmem : frameworkId ∈ reports.map Prod.fst ↔ frameworkId ∈ reports'.map Prod.fst :=
    (hperm.map _).mem_iff
  have hread := h frameworkId
  have hread' := h' frameworkId
  cases hget : frameworks.get? frameworkId with
  | none =>
    rw [hget] at hread
    cases hget' : frameworks'.get? frameworkId with
    | none => rfl
    | some framework' =>
      rw [hget'] at hread'
      exact absurd (hmem.mpr hread'.1) hread
  | some framework =>
    rw [hget] at hread
    cases hget' : frameworks'.get? frameworkId with
    | none =>
      rw [hget'] at hread'
      exact absurd (hmem.mp hread.1) hread'
    | some framework' =>
      rw [hget'] at hread'
      rw [Option.map_some, Option.map_some,
        figures_congr (hread.2.1.trans hread'.2.1.symm) hread.2.2 hread'.2.2 hlistings]

/-- The figures of the frameworks are ordered in one way only. -/
theorem figures_frameworks {frameworks frameworks' : Dict String FrameworkAggregate}
    {reports reports' : List (String × List (String × String))} (h : Aggregated frameworks reports)
    (h' : Aggregated frameworks' reports') (hperm : reports.Perm reports') :
    (Ranking.sortedBy FrameworkCoverage.id (frameworks.values.map (frameworkCoverage rate))).map
        FrameworkCoverage.figures =
      (Ranking.sortedBy FrameworkCoverage.id (frameworks'.values.map (frameworkCoverage rate))).map
        FrameworkCoverage.figures := by
  have hmap (frameworks : Dict String FrameworkAggregate) :
      (Ranking.sortedBy FrameworkCoverage.id (frameworks.values.map (frameworkCoverage rate))).map
        FrameworkCoverage.figures = Ranking.sortedBy FrameworkCoverage.id
          ((frameworks.values.map (frameworkCoverage rate)).map FrameworkCoverage.figures) :=
    Ranking.map_sortedBy fun _ => rfl
  simp only [List.map_map] at hmap
  have hkey : ∀ a ∈ frameworks.values.map fun framework => (frameworkCoverage rate framework).figures,
      ∀ b ∈ frameworks.values.map fun framework => (frameworkCoverage rate framework).figures,
        a.id = b.id → a = b :=
    Dict.eq_of_map_values fun _ _ hget => (h.id hget).1
  rw [hmap, hmap]
  exact Ranking.sortedBy_congr (Dict.map_values_perm (h.figures h' hperm)) hkey

end Figures

section Counts

variable {py : PyBuiltins} {rate : ℕ → ℕ → ℚ} {results : List (String × Json)} {summary : CoverageSummary}

/-- The summary is made of the aggregated frameworks. -/
structure Summarizes (py : PyBuiltins) (rate : ℕ → ℕ → ℚ) (results : List (String × Json))
    (summary : CoverageSummary) (frameworks : Dict String FrameworkAggregate) : Prop where
  aggregated : Aggregated frameworks ((complianceReports results).flatMap (reportsOf py))
  ranked : summary.frameworks =
    Ranking.sortedBy FrameworkCoverage.id (frameworks.values.map (frameworkCoverage rate))
  sessions : summary.sessionsTotal = results.length
  reported : summary.sessionsWithCompliance = (complianceReports results).length
  assessed : summary.controlObservationsAssessed =
    ((frameworks.values.flatMap fun framework => framework.controls.values).map
      ControlAggregate.assessed).sum
  observed : summary.controlObservationsTotal =
    ((frameworks.values.flatMap fun framework => framework.controls.values).map
      fun control => control.statusCounts.total).sum
  rate : summary.coverageRate =
    coverageRate rate summary.controlObservationsAssessed summary.controlObservationsTotal

/-- A summary that returns is made of the reports of the sessions. -/
theorem exists_summarizes (h : summarizeComplianceCoverage py rate results = .ok summary) :
    ∃ frameworks, Summarizes py rate results summary frameworks := by
  obtain ⟨frameworks, hframeworks, h⟩ := bind_eq_ok.mp h
  cases h
  have hreports := aggregated_empty.reports hframeworks
  rw [List.nil_append] at hreports
  exact ⟨frameworks, hreports, rfl, rfl, rfl, rfl, rfl, rfl⟩

/-- The reported controls are those that have been aggregated, in another order. -/
theorem Summarizes.controls {frameworks : Dict String FrameworkAggregate}
    (h : Summarizes py rate results summary frameworks) :
    (summary.frameworks.flatMap (·.controls)).Perm
      ((frameworks.values.flatMap fun framework => framework.controls.values).map
        (controlCoverage rate)) := by
  rw [h.ranked, List.map_flatMap]
  apply (Ranking.sortedBy_perm.flatMap_right _).trans
  rw [List.flatMap_map]
  exact List.Perm.flatMap_left _ fun framework _ => Ranking.sortedBy_perm

/-- The totals are the sums over the controls. -/
theorem Summarizes.totals {frameworks : Dict String FrameworkAggregate}
    (h : Summarizes py rate results summary frameworks) :
    summary.controlObservationsAssessed =
        ((summary.frameworks.flatMap (·.controls)).map (·.assessedSessions)).sum ∧
      summary.controlObservationsTotal =
        ((summary.frameworks.flatMap (·.controls)).map (·.observedSessions)).sum := by
  rw [h.assessed, h.observed, (h.controls.map _).sum_eq, (h.controls.map _).sum_eq, List.map_map,
    List.map_map]
  exact ⟨rfl, rfl⟩

/-- What is summed over the controls is the same for their figures. -/
theorem sum_figures (frameworks : List FrameworkCoverage) {figure : ControlCoverage → ℕ}
    (h : ∀ control, figure control.figures = figure control) :
    (((frameworks.map FrameworkCoverage.figures).flatMap (·.controls)).map figure).sum =
      ((frameworks.flatMap (·.controls)).map figure).sum := by
  rw [List.flatMap_map, List.map_flatMap, List.map_flatMap]
  simp [FrameworkCoverage.figures, Function.comp_def, h]

/-- The figures are the same for every order of the results. -/
theorem figures_perm {results' : List (String × Json)} (hperm : results'.Perm results)
    (h : summarizeComplianceCoverage py rate results = .ok summary) :
    ∃ summary', summarizeComplianceCoverage py rate results' = .ok summary' ∧
      summary'.figures = summary.figures := by
  have hreports : (complianceReports results').Perm (complianceReports results) := hperm.filterMap _
  have hread := exists_summary_iff.mp ⟨summary, h⟩
  obtain ⟨summary', h'⟩ := exists_summary_iff.mpr fun compliance hmem =>
    hread compliance (hreports.mem_iff.mp hmem)
  refine ⟨summary', h', ?_⟩
  obtain ⟨frameworks, hsummary⟩ := exists_summarizes h
  obtain ⟨frameworks', hsummary'⟩ := exists_summarizes h'
  have hframeworks : summary'.frameworks.map FrameworkCoverage.figures =
      summary.frameworks.map FrameworkCoverage.figures := by
    rw [hsummary.ranked, hsummary'.ranked]
    exact figures_frameworks hsummary'.aggregated hsummary.aggregated (hreports.flatMap_right _)
  have hassessed : summary'.controlObservationsAssessed = summary.controlObservationsAssessed := by
    rw [hsummary.totals.1, hsummary'.totals.1, ← sum_figures summary.frameworks fun _ => rfl,
      ← sum_figures summary'.frameworks fun _ => rfl, hframeworks]
  have hobserved : summary'.controlObservationsTotal = summary.controlObservationsTotal := by
    rw [hsummary.totals.2, hsummary'.totals.2, ← sum_figures summary.frameworks fun _ => rfl,
      ← sum_figures summary'.frameworks fun _ => rfl, hframeworks]
  unfold CoverageSummary.figures
  rw [hframeworks, hsummary.rate, hsummary'.rate, hassessed, hobserved, hsummary.sessions,
    hsummary'.sessions, hsummary.reported, hsummary'.reported, hperm.length_eq, hreports.length_eq]

/-- The statuses that the sessions have given a control. -/
def allStatuses (py : PyBuiltins) (results : List (String × Json)) (frameworkId controlId : String) :
    List String :=
  (complianceReports results).flatMap (statusesGiven py frameworkId controlId)

/-- The aggregation lists the statuses that the sessions have given. -/
theorem statusesOf_reports (frameworkId controlId : String) :
    statusesOf (listingsOf ((complianceReports results).flatMap (reportsOf py)) frameworkId) controlId =
      allStatuses py results frameworkId controlId := by
  have hlistings : listingsOf ((complianceReports results).flatMap (reportsOf py)) frameworkId =
      (complianceReports results).flatMap fun compliance =>
        listingsOf (reportsOf py compliance) frameworkId := by
    rw [listingsOf, List.filter_flatMap, List.flatMap_assoc]
    rfl
  rw [hlistings, statusesOf, List.filter_flatMap, List.map_flatMap]
  rfl

/-- The statuses that are given are those that are counted. -/
theorem allStatuses_mem {frameworkId controlId status : String}
    (h : status ∈ allStatuses py results frameworkId controlId) : status ∈ complianceStatuses := by
  obtain ⟨compliance, -, hgiven⟩ := List.mem_flatMap.mp h
  exact statusesGiven_mem hgiven

/-- A reported control has the counts of the statuses that it has been given. -/
theorem Summarizes.counted {frameworks : Dict String FrameworkAggregate}
    (h : Summarizes py rate results summary frameworks) {framework : FrameworkCoverage}
    (hframework : framework ∈ summary.frameworks) {control : ControlCoverage}
    (hcontrol : control ∈ framework.controls) :
    control.statusCounts = tally (allStatuses py results framework.id control.id) ∧
      ∃ title, control = controlCoverage rate
        { id := control.id, title, statusCounts := control.statusCounts } := by
  rw [h.ranked, Ranking.mem_sortedBy] at hframework
  obtain ⟨aggregate, haggregate, rfl⟩ := List.mem_map.mp hframework
  obtain ⟨frameworkId, hget⟩ := frameworks.exists_get?_of_mem_values haggregate
  obtain ⟨hid, htallied⟩ := h.aggregated.id hget
  subst hid
  rw [frameworkCoverage, Ranking.mem_sortedBy] at hcontrol
  obtain ⟨aggregated, haggregated, rfl⟩ := List.mem_map.mp hcontrol
  obtain ⟨controlId, hget'⟩ := aggregate.controls.exists_get?_of_mem_values haggregated
  obtain ⟨hid, -, hcounts⟩ := htallied.id hget'
  subst hid
  rw [statusesOf_reports] at hcounts
  exact ⟨hcounts, aggregated.title, rfl⟩

/-- A control that has been given a status is reported. -/
theorem Summarizes.listed {frameworks : Dict String FrameworkAggregate}
    (h : Summarizes py rate results summary frameworks) {frameworkId controlId : String}
    (hgiven : allStatuses py results frameworkId controlId ≠ []) :
    ∃ framework ∈ summary.frameworks, framework.id = frameworkId ∧
      ∃ control ∈ framework.controls, control.id = controlId := by
  rw [← statusesOf_reports] at hgiven
  have hread := h.aggregated frameworkId
  cases hget : frameworks.get? frameworkId with
  | none =>
    rw [hget] at hread
    rw [listingsOf_of_notMem hread] at hgiven
    exact absurd rfl hgiven
  | some aggregate =>
    rw [hget] at hread
    have hcontrol := hread.2.2 controlId
    rw [if_neg hgiven] at hcontrol
    obtain ⟨control, hget', hcontrol⟩ := Option.map_eq_some_iff.mp hcontrol
    refine ⟨frameworkCoverage rate aggregate, ?_, hread.2.1, controlCoverage rate control, ?_, ?_⟩
    · rw [h.ranked, Ranking.mem_sortedBy]
      exact List.mem_map_of_mem (frameworks.mem_values_of_get? hget)
    · rw [frameworkCoverage, Ranking.mem_sortedBy]
      exact List.mem_map_of_mem (aggregate.controls.mem_values_of_get? hget')
    · exact (Prod.mk.inj hcontrol).1

/-- As many observations of a control are reported as it has been given statuses. -/
theorem Summarizes.observed_eq {frameworks : Dict String FrameworkAggregate}
    (h : Summarizes py rate results summary frameworks) {framework : FrameworkCoverage}
    (hframework : framework ∈ summary.frameworks) {control : ControlCoverage}
    (hcontrol : control ∈ framework.controls) :
    control.observedSessions = (allStatuses py results framework.id control.id).length ∧
      control.assessedSessions ≤ control.observedSessions ∧
        control.aggregateStatus = worstStatus (allStatuses py results framework.id control.id) := by
  obtain ⟨hcounts, title, heq⟩ := h.counted hframework hcontrol
  have hstatuses : ∀ status ∈ allStatuses py results framework.id control.id,
      status ∈ complianceStatuses := fun _ hstatus => allStatuses_mem hstatus
  refine ⟨?_, ?_, ?_⟩
  · rw [← total_tally hstatuses, ← hcounts, heq]
    rfl
  · rw [heq]
    exact Nat.sub_le _ _
  · rw [← aggregateStatus_tally, ← hcounts, heq]
    rfl

/-- A control is not evaluated when no session gives it another status. -/
theorem worstStatus_eq_notEvaluated {given : List String}
    (h : ∀ status ∈ given, status ∈ complianceStatuses) :
    worstStatus given = "not_evaluated" ↔ ∀ status ∈ given, status = "not_evaluated" := by
  unfold worstStatus
  by_cases hattention : "attention" ∈ given
  · rw [if_pos hattention]
    exact ⟨fun hworst => absurd hworst (by decide), fun hall => hall _ hattention⟩
  by_cases hpartly : "partial" ∈ given
  · rw [if_neg hattention, if_pos hpartly]
    exact ⟨fun hworst => absurd hworst (by decide), fun hall => hall _ hpartly⟩
  by_cases hmet : "met" ∈ given
  · rw [if_neg hattention, if_neg hpartly, if_pos hmet]
    exact ⟨fun hworst => absurd hworst (by decide), fun hall => hall _ hmet⟩
  · rw [if_neg hattention, if_neg hpartly, if_neg hmet]
    refine ⟨fun _ status hstatus => ?_, fun _ => rfl⟩
    have hallowed := h status hstatus
    simp only [complianceStatuses, List.mem_cons, List.not_mem_nil, or_false] at hallowed
    rcases hallowed with rfl | rfl | rfl | rfl
    · exact absurd hstatus hmet
    · exact absurd hstatus hpartly
    · exact absurd hstatus hattention
    · rfl

/-- The listings and the sessions without one, counted in two ways. -/
theorem sum_length_add_countP {α β : Type} (listings : α → List β) (sessions : List α) :
    (sessions.flatMap listings).length + sessions.countP (fun session => (listings session).isEmpty) =
      (sessions.map fun session => (listings session).length - 1).sum + sessions.length := by
  induction sessions with
  | nil => rfl
  | cons session rest ih =>
    rw [List.flatMap_cons, List.length_append, List.map_cons, List.sum_cons, List.countP_cons,
      List.length_cons]
    cases hlistings : listings session with
    | nil =>
      rw [List.length_nil, List.isEmpty_nil, if_pos rfl]
      omega
    | cons listing others =>
      rw [List.length_cons, List.isEmpty_cons, if_neg Bool.false_ne_true]
      omega

end Counts

section Sessions

/-- What is asked of a summary that counts sessions. -/
structure CountsSessions (py : PyBuiltins) (rate : ℕ → ℕ → ℚ) (results : List (String × Json))
    (summary : CoverageSummary) : Prop where
  orderFree : ∀ results', results'.Perm results → ∃ summary',
    summarizeComplianceCoverage py rate results' = .ok summary' ∧ summary'.figures = summary.figures
  bounded : ∀ framework ∈ summary.frameworks, ∀ control ∈ framework.controls,
    control.assessedSessions ≤ control.observedSessions ∧
      control.observedSessions ≤ summary.sessionsWithCompliance ∧
        summary.sessionsWithCompliance ≤ summary.sessionsTotal
  totals : summary.controlObservationsAssessed =
      ((summary.frameworks.flatMap (·.controls)).map (·.assessedSessions)).sum ∧
    summary.controlObservationsTotal =
      ((summary.frameworks.flatMap (·.controls)).map (·.observedSessions)).sum
  aggregated : ∀ framework ∈ summary.frameworks, ∀ control ∈ framework.controls,
    (control.aggregateStatus = "not_evaluated" ↔
      ∀ status ∈ allStatuses py results framework.id control.id, status = "not_evaluated") ∧
    control.aggregateStatus = worstStatus (allStatuses py results framework.id control.id)

/-- For each control, the listings beyond the first of a session are made up for by sessions that do not
list it. -/
def RepeatsMadeUp (py : PyBuiltins) (results : List (String × Json)) : Prop :=
  ∀ frameworkId controlId,
    ((complianceReports results).map fun compliance =>
        (statusesGiven py frameworkId controlId compliance).length - 1).sum ≤
      (complianceReports results).countP fun compliance =>
        (statusesGiven py frameworkId controlId compliance).isEmpty

variable {py : PyBuiltins} {rate : ℕ → ℕ → ℚ} {results : List (String × Json)} {summary : CoverageSummary}

/-- The repetitions are made up for exactly when no control is given more statuses than there are
reports. -/
theorem repeatsMadeUp_iff : RepeatsMadeUp py results ↔ ∀ frameworkId controlId,
    (allStatuses py results frameworkId controlId).length ≤ (complianceReports results).length := by
  unfold RepeatsMadeUp allStatuses
  apply forall_congr'
  intro frameworkId
  apply forall_congr'
  intro controlId
  have hcount := sum_length_add_countP (statusesGiven py frameworkId controlId) (complianceReports results)
  omega

/-- The observations stay within the sessions exactly when the repetitions are made up for. -/
theorem Summarizes.bounded_iff {frameworks : Dict String FrameworkAggregate}
    (h : Summarizes py rate results summary frameworks) :
    (∀ framework ∈ summary.frameworks, ∀ control ∈ framework.controls,
      control.observedSessions ≤ summary.sessionsWithCompliance) ↔ RepeatsMadeUp py results := by
  rw [repeatsMadeUp_iff, h.reported]
  constructor
  · intro hbounded frameworkId controlId
    by_cases hgiven : allStatuses py results frameworkId controlId = []
    · rw [hgiven]
      exact Nat.zero_le _
    · obtain ⟨framework, hframework, rfl, control, hcontrol, rfl⟩ := h.listed hgiven
      rw [← (h.observed_eq hframework hcontrol).1]
      exact hbounded framework hframework control hcontrol
  · intro hbounded framework hframework control hcontrol
    rw [(h.observed_eq hframework hcontrol).1]
    exact hbounded _ _

/-- Results whose reports can be read have a summary. Its figures are the same for every order of the
results, its totals are the sums over the controls, and the status of a control is the worst that a
session has given it. It counts no more observations of a control than sessions exactly when listings that
are repeated in a session are made up for by sessions without a listing. -/
theorem countsSessions_iff (py : PyBuiltins) (rate : ℕ → ℕ → ℚ) (results : List (String × Json))
    (hread : ∀ compliance ∈ complianceReports results, Readable py compliance) :
    ∃ summary, summarizeComplianceCoverage py rate results = .ok summary ∧
      (CountsSessions py rate results summary ↔ RepeatsMadeUp py results) := by
  obtain ⟨summary, hsummary⟩ := exists_summary_iff.mpr hread
  obtain ⟨frameworks, h⟩ := exists_summarizes hsummary
  refine ⟨summary, hsummary, ?_⟩
  rw [← h.bounded_iff]
  constructor
  · intro hcounts framework hframework control hcontrol
    exact (hcounts.bounded framework hframework control hcontrol).2.1
  · intro hbounded
    have hreported : summary.sessionsWithCompliance ≤ summary.sessionsTotal := by
      rw [h.reported, h.sessions]
      exact List.length_filterMap_le _ _
    constructor
    · exact fun results' hperm => figures_perm hperm hsummary
    · intro framework hframework control hcontrol
      have hassessed := (h.observed_eq hframework hcontrol).2.1
      exact ⟨hassessed, hbounded framework hframework control hcontrol, hreported⟩
    · exact h.totals
    · intro framework hframework control hcontrol
      have hworst := (h.observed_eq hframework hcontrol).2.2
      refine ⟨?_, hworst⟩
      rw [hworst]
      exact worstStatus_eq_notEvaluated fun _ hstatus => allStatuses_mem hstatus

/-- A session with the given compliance report. -/
def sampleResult (compliance : JsonObject) : Json :=
  .object [("evaluations", .object [("proofagent", .object [("metadata",
    .object [("compliance", .object compliance)])])])]

/-- Two sessions, of which one lists the control. -/
theorem countsSessions_iff_two :
    ∃ summary, summarizeComplianceCoverage sampleBuiltins (fun _ _ => 1)
        [("session-1", sampleResult (samplePayload [("dpia", "met")])),
          ("session-2", sampleResult (samplePayload []))] = .ok summary ∧
      (CountsSessions sampleBuiltins (fun _ _ => 1)
          [("session-1", sampleResult (samplePayload [("dpia", "met")])),
            ("session-2", sampleResult (samplePayload []))] summary ↔
        RepeatsMadeUp sampleBuiltins
          [("session-1", sampleResult (samplePayload [("dpia", "met")])),
            ("session-2", sampleResult (samplePayload []))]) := by
  apply countsSessions_iff
  intro compliance hmem
  have hcases : compliance = samplePayload [("dpia", "met")] ∨ compliance = samplePayload [] := by
    simpa [complianceReports, compliancePayload, sampleResult, objectField, getField, Ordered.getEntry]
      using hmem
  rcases hcases with rfl | rfl
  · exact readable_of_wellFormed (wellFormed_samplePayload (by decide))
  · exact readable_of_wellFormed (wellFormed_samplePayload (by decide))

/-- One session that lists a control twice counts as two. -/
theorem session_counted_twice :
    ¬∀ (py : PyBuiltins) (rate : ℕ → ℕ → ℚ) (results : List (String × Json)),
      (∀ compliance ∈ complianceReports results, WellFormed py compliance) →
        ∃ summary, summarizeComplianceCoverage py rate results = .ok summary ∧
          CountsSessions py rate results summary := by
  intro h
  obtain ⟨summary, hsummary, hcounts⟩ := h sampleBuiltins (fun _ _ => 1)
    [("session-1", sampleResult (samplePayload [("dpia", "met"), ("dpia", "met")]))] (by
      intro compliance hmem
      obtain rfl : compliance = samplePayload [("dpia", "met"), ("dpia", "met")] := by
        simpa [complianceReports, compliancePayload, sampleResult, objectField, getField,
          Ordered.getEntry] using hmem
      exact wellFormed_samplePayload (by decide))
  obtain ⟨frameworks, hsummarizes⟩ := exists_summarizes hsummary
  have hmadeUp := hsummarizes.bounded_iff.mp fun framework hframework control hcontrol =>
    (hcounts.bounded framework hframework control hcontrol).2.1
  exact absurd (hmadeUp "gdpr" "dpia") (by decide +kernel)

end Sessions

end Amlguard
