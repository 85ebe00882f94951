import Amlguard.Evaluation.Capping
import Amlguard.Evaluation.ComplianceSummary

/-!
# What the coverage summary counts

What a session reports is a list of frameworks with the listings of their controls. The aggregation reads
under two IDs the counts of the statuses that are listed there, so the order of the sessions is of no
account, and the statuses of a control are those that some session has given it.

A listing is counted whenever it is met. A control that is listed twice in a report counts as two
sessions, and stays within their number only when other sessions do not list it at all.
-/

namespace Amlguard

section Reports

variable (py : PyBuiltins)

/-- What a control is listed with: the ID and the status, when both are usable. -/
def listingOf : Json → Option (String × String)
  | .object control =>
    let controlId := strip (py.textOr (getField control "id") "")
    let status := rawStatus py control
    if controlId = "" ∨ status ∉ complianceStatuses then none else some (controlId, status)
  | _ => none

/-- What a framework is reported with: the ID and the listings of its controls. -/
def frameworkReport : Json → Option (String × List (String × String))
  | .object framework =>
    let frameworkId := strip (py.textOr (getField framework "id") "")
    if frameworkId = "" then none
    else some (frameworkId, match controlEntries framework with
      | .ok controls => controls.filterMap (listingOf py)
      | .error _ => [])
  | _ => none

/-- What a session reports. -/
def reportsOf (compliance : JsonObject) : List (String × List (String × String)) :=
  match frameworkEntries compliance with
  | .ok entries => entries.filterMap (frameworkReport py)
  | .error _ => []

/-- The listings that are reported under the ID of a framework. -/
def listingsOf (reports : List (String × List (String × String))) (frameworkId : String) :
    List (String × String) :=
  (reports.filter fun report => report.1 = frameworkId).flatMap (·.2)

/-- The statuses that are listed under the ID of a control. -/
def statusesOf (listings : List (String × String)) (controlId : String) : List String :=
  (listings.filter fun listing => listing.1 = controlId).map (·.2)

/-- The statuses that a session gives a control, once for each listing. -/
def statusesGiven (frameworkId controlId : String) (compliance : JsonObject) : List String :=
  statusesOf (listingsOf (reportsOf py compliance) frameworkId) controlId

/-- The compliance reports of the results. -/
def complianceReports (results : List (String × Json)) : List JsonObject :=
  results.filterMap fun result => compliancePayload result.2

/-- A report in which each loop has something to go over, as it has in every well-formed one. -/
def Readable (compliance : JsonObject) : Prop :=
  ∃ entries, frameworkEntries compliance = .ok entries ∧ ∀ framework, .object framework ∈ entries →
    strip (py.textOr (getField framework "id") "") ≠ "" →
      ∃ controls, controlEntries framework = .ok controls

end Reports

section Statuses

/-- Each status is counted as often as it is given. -/
theorem tally_eq (statuses : List String) :
    tally statuses =
      { met := statuses.count "met"
        partials := statuses.count "partial"
        attention := statuses.count "attention"
        notEvaluated := statuses.count "not_evaluated" } := by
  induction statuses using List.reverseRecOn with
  | nil => rfl
  | append_singleton statuses status ih =>
    rw [tally, List.foldl_concat, ← tally, ih]
    unfold StatusCounts.count
    simp only [List.count_append, List.count_singleton, beq_iff_eq]
    split
    · simp [*]
    · split
      · simp [*]
      · split
        · simp [*]
        · split <;> simp [*]

/-- The order of the statuses is of no account. -/
theorem tally_perm {statuses statuses' : List String} (h : statuses.Perm statuses') :
    tally statuses = tally statuses' := by
  simp only [tally_eq, h.count_eq]

/-- The worst of the statuses that are given. -/
def worstStatus (given : List String) : String :=
  if "attention" ∈ given then "attention"
  else if "partial" ∈ given then "partial"
  else if "met" ∈ given then "met"
  else "not_evaluated"

/-- The reported status is the worst that is given. -/
theorem aggregateStatus_tally (statuses : List String) :
    aggregateStatus (tally statuses) = worstStatus statuses := by
  have hfilter : (["attention", "partial", "met", "not_evaluated"].filter fun status =>
      decide ((tally statuses).of status ≠ 0 ∧ status ≠ "not_evaluated")) =
        ["attention", "partial", "met"].filter fun status => status ∈ statuses := by
    simp [List.filter_cons, tally_eq, StatusCounts.of, List.count_eq_zero]
  unfold aggregateStatus worstStatus
  rw [hfilter]
  by_cases hattention : "attention" ∈ statuses <;> by_cases hpartly : "partial" ∈ statuses <;>
    by_cases hmet : "met" ∈ statuses <;> simp [hattention, hpartly, hmet]
  all_goals decide

end Statuses

section Aggregation

variable {py : PyBuiltins}

/-- The controls are those that are listed, with the counts of their statuses. -/
def Tallied (controls : Dict String ControlAggregate) (listings : List (String × String)) : Prop :=
  ∀ controlId, (controls.get? controlId).map (fun control => (control.id, control.statusCounts)) =
    if statusesOf listings controlId = [] then none
    else some (controlId, tally (statusesOf listings controlId))

/-- One control more is listed. -/
theorem Tallied.visit {controls : Dict String ControlAggregate} {listings : List (String × String)}
    (h : Tallied controls listings) (item : Json) :
    Tallied (visitControl py controls item) (listings ++ (listingOf py item).toList) := by
  cases item with
  | object control =>
    rw [visitControl, listingOf]
    dsimp only
    by_cases hskip : strip (py.textOr (getField control "id") "") = "" ∨
        rawStatus py control ∉ complianceStatuses
    · rw [if_pos hskip, if_pos hskip]
      simpa using h
    · rw [if_neg hskip, if_neg hskip]
      generalize strip (py.textOr (getField control "id") "") = id
      generalize rawStatus py control = status
      intro controlId
      have hbefore := h controlId
      rw [Dict.get?_set]
      by_cases hid : id = controlId
      · subst hid
        have hstatuses : statusesOf (listings ++ [(id, status)]) id =
            statusesOf listings id ++ [status] := by
          simp [statusesOf]
        rw [if_pos rfl, Option.toList_some, hstatuses, if_neg (by simp), tally, List.foldl_concat,
          ← tally]
        cases hget : controls.get? id with
        | none =>
          rw [hget] at hbefore
          by_cases hnil : statusesOf listings id = []
          · rw [hnil]
            rfl
          · rw [if_neg hnil] at hbefore
            cases hbefore
        | some aggregate =>
          rw [hget] at hbefore
          by_cases hnil : statusesOf listings id = []
          · rw [if_pos hnil] at hbefore
            cases hbefore
          · rw [if_neg hnil] at hbefore
            obtain ⟨hsame, hcounts⟩ := Prod.mk.inj (Option.some.inj hbefore)
            simp [hsame, hcounts]
      · have hstatuses : statusesOf (listings ++ [(id, status)]) controlId =
            statusesOf listings controlId := by
          simp [statusesOf, hid]
        rw [if_neg hid, Option.toList_some, hstatuses, hbefore]
  | _ => simpa [visitControl, listingOf] using h

/-- All the controls of a framework are listed. -/
theorem Tallied.visits {controls : Dict String ControlAggregate} {listings : List (String × String)}
    (h : Tallied controls listings) (items : List Json) :
    Tallied (items.foldl (visitControl py) controls) (listings ++ items.filterMap (listingOf py)) := by
  induction items generalizing controls listings with
  | nil => simpa using h
  | cons item rest ih =>
    have hfirst : Tallied (visitControl py controls item) (listings ++ (listingOf py item).toList) :=
      h.visit item
    have hrest := ih hfirst
    rw [List.foldl_cons, List.filterMap_cons]
    cases hlisting : listingOf py item with
    | none => simpa [hlisting] using hrest
    | some listing => simpa [hlisting] using hrest

/-- The status of a listing is one of those that are counted. -/
theorem listingOf_status {item : Json} {listing : String × String} (h : listingOf py item = some listing) :
    listing.2 ∈ complianceStatuses := by
  cases item with
  | object control =>
    rw [listingOf] at h
    split at h
    · cases h
    · rename_i hkept
      cases h
      exact not_not.mp (not_or.mp hkept).2
  | _ => cases h

/-- The statuses that a session gives are among those that are counted. -/
theorem statusesGiven_mem {frameworkId controlId status : String} {compliance : JsonObject}
    (h : status ∈ statusesGiven py frameworkId controlId compliance) : status ∈ complianceStatuses := by
  obtain ⟨listing, hlisting, rfl⟩ := List.mem_map.mp h
  obtain ⟨report, hreport, hlisting⟩ := List.mem_flatMap.mp (List.mem_of_mem_filter hlisting)
  replace hreport := List.mem_of_mem_filter hreport
  unfold reportsOf at hreport
  split at hreport
  · obtain ⟨item, -, hitem⟩ := List.mem_filterMap.mp hreport
    cases item with
    | object framework =>
      rw [frameworkReport] at hitem
      split at hitem
      · cases hitem
      · cases hitem
        dsimp only at hlisting
        split at hlisting
        · obtain ⟨control, -, hcontrol⟩ := List.mem_filterMap.mp hlisting
          exact listingOf_status hcontrol
        · cases hlisting
    | _ => cases hitem
  · cases hreport

/-- The frameworks are those that are reported, with their listings. -/
def Aggregated (frameworks : Dict String FrameworkAggregate)
    (reports : List (String × List (String × String))) : Prop :=
  ∀ frameworkId, match frameworks.get? frameworkId with
    | none => frameworkId ∉ reports.map Prod.fst
    | some framework => frameworkId ∈ reports.map Prod.fst ∧ framework.id = frameworkId ∧
        Tallied framework.controls (listingsOf reports frameworkId)

/-- Without reports there are no frameworks. -/
theorem aggregated_empty : Aggregated Dict.empty [] := fun _ => List.not_mem_nil

/-- No control is listed without listings. -/
theorem tallied_empty : Tallied Dict.empty [] := fun _ => rfl

/-- A framework that is not reported has no listings. -/
theorem listingsOf_of_notMem {reports : List (String × List (String × String))} {frameworkId : String}
    (h : frameworkId ∉ reports.map Prod.fst) : listingsOf reports frameworkId = [] := by
  have hnone : (reports.filter fun report => report.1 = frameworkId) = [] := by
    apply List.filter_eq_nil_iff.mpr
    intro report hreport
    rw [decide_eq_true_eq]
    rintro rfl
    exact h (List.mem_map_of_mem hreport)
  rw [listingsOf, hnone, List.flatMap_nil]

/-- One framework more is reported. -/
theorem Aggregated.visit {frameworks frameworks' : Dict String FrameworkAggregate}
    {reports : List (String × List (String × String))} (h : Aggregated frameworks reports) {item : Json}
    (hvisit : visitFramework py frameworks item = .ok frameworks') :
    Aggregated frameworks' (reports ++ (frameworkReport py item).toList) := by
  cases item with
  | object framework =>
    rw [visitFramework] at hvisit
    rw [frameworkReport]
    dsimp only at hvisit ⊢
    by_cases hblank : strip (py.textOr (getField framework "id") "") = ""
    · rw [if_pos hblank] at hvisit ⊢
      cases hvisit
      simpa using h
    · rw [if_neg hblank] at hvisit ⊢
      generalize strip (py.textOr (getField framework "id") "") = id at hvisit
      obtain ⟨controls, hcontrols, hvisit⟩ := bind_eq_ok.mp hvisit
      cases hvisit
      rw [hcontrols, Option.toList_some]
      dsimp only
      intro frameworkId
      have hbefore := h frameworkId
      rw [Dict.get?_set]
      by_cases hid : id = frameworkId
      · subst hid
        have hlistings : listingsOf (reports ++ [(id, controls.filterMap (listingOf py))]) id =
            listingsOf reports id ++ controls.filterMap (listingOf py) := by
          simp [listingsOf]
        rw [if_pos rfl, hlistings]
        dsimp only
        refine ⟨by simp, ?_⟩
        cases hget : frameworks.get? id with
        | none =>
          rw [hget] at hbefore
          rw [listingsOf_of_notMem hbefore]
          exact ⟨rfl, tallied_empty.visits controls⟩
        | some aggregate =>
          rw [hget] at hbefore
          exact ⟨hbefore.2.1, hbefore.2.2.visits controls⟩
      · have hlistings : listingsOf (reports ++ [(id, controls.filterMap (listingOf py))]) frameworkId =
            listingsOf reports frameworkId := by
          simp [listingsOf, hid]
        have hreported : frameworkId ∈ (reports ++ [(id, controls.filterMap (listingOf py))]).map Prod.fst ↔
            frameworkId ∈ reports.map Prod.fst := by
          simp [Ne.symm hid]
        rw [if_neg hid, hlistings, hreported]
        exact hbefore
  | _ =>
    cases hvisit
    simpa [frameworkReport] using h

/-- All the frameworks of a report are reported. -/
theorem Aggregated.visits {frameworks frameworks' : Dict String FrameworkAggregate}
    {reports : List (String × List (String × String))} (h : Aggregated frameworks reports)
    {items : List Json} (hvisits : items.foldlM (visitFramework py) frameworks = .ok frameworks') :
    Aggregated frameworks' (reports ++ items.filterMap (frameworkReport py)) := by
  induction items generalizing frameworks reports with
  | nil =>
    cases hvisits
    simpa using h
  | cons item rest ih =>
    rw [List.foldlM_cons] at hvisits
    obtain ⟨next, hvisit, hvisits⟩ := bind_eq_ok.mp hvisits
    have hrest := ih (h.visit hvisit) hvisits
    rw [List.filterMap_cons]
    cases hreport : frameworkReport py item with
    | none => simpa [hreport] using hrest
    | some report => simpa [hreport] using hrest

/-- The reports of all the sessions are aggregated. -/
theorem Aggregated.reports {frameworks frameworks' : Dict String FrameworkAggregate}
    {reports : List (String × List (String × String))} (h : Aggregated frameworks reports)
    {sessions : List JsonObject} (hvisits : sessions.foldlM (visitReport py) frameworks = .ok frameworks') :
    Aggregated frameworks' (reports ++ sessions.flatMap (reportsOf py)) := by
  induction sessions generalizing frameworks reports with
  | nil =>
    cases hvisits
    simpa using h
  | cons session rest ih =>
    rw [List.foldlM_cons] at hvisits
    obtain ⟨next, hvisit, hvisits⟩ := bind_eq_ok.mp hvisits
    obtain ⟨entries, hentries, hvisit⟩ := bind_eq_ok.mp hvisit
    have hsession : reportsOf py session = entries.filterMap (frameworkReport py) := by
      rw [reportsOf, hentries]
    have hrest := ih (h.visits hvisit) hvisits
    rwa [List.flatMap_cons, hsession, ← List.append_assoc]

end Aggregation

section Readable

variable {py : PyBuiltins} {rate : ℕ → ℕ → ℚ}

/-- A loop that fails on the items alone succeeds when it fails on none of them. -/
theorem exists_foldlM_iff {α σ : Type} {step : σ → α → Except PyError σ} {good : α → Prop}
    (hstep : ∀ state a, (∃ next, step state a = .ok next) ↔ good a) (items : List α) (state : σ) :
    (∃ final, items.foldlM step state = .ok final) ↔ ∀ a ∈ items, good a := by
  induction items generalizing state with
  | nil => simp [pure, Except.pure]
  | cons item rest ih =>
    rw [List.forall_mem_cons, ← hstep state item]
    constructor
    · intro h
      obtain ⟨final, h⟩ := h
      rw [List.foldlM_cons] at h
      obtain ⟨next, hnext, h⟩ := bind_eq_ok.mp h
      exact ⟨⟨next, hnext⟩, (ih next).mp ⟨final, h⟩⟩
    · intro h
      obtain ⟨⟨next, hnext⟩, hrest⟩ := h
      obtain ⟨final, hfinal⟩ := (ih next).mpr hrest
      exact ⟨final, by rw [List.foldlM_cons, hnext, ok_bind, hfinal]⟩

/-- A framework is read when the loop over its controls has something to go over. -/
theorem exists_visitFramework_iff (frameworks : Dict String FrameworkAggregate) (item : Json) :
    (∃ next, visitFramework py frameworks item = .ok next) ↔ ∀ framework, item = .object framework →
      strip (py.textOr (getField framework "id") "") ≠ "" →
        ∃ controls, controlEntries framework = .ok controls := by
  cases item with
  | object framework =>
    simp only [visitFramework, Json.object.injEq, forall_eq']
    by_cases hblank : strip (py.textOr (getField framework "id") "") = ""
    · simp [hblank]
    · rw [if_neg hblank]
      constructor
      · intro h _
        obtain ⟨next, h⟩ := h
        obtain ⟨controls, hcontrols, -⟩ := bind_eq_ok.mp h
        exact ⟨controls, hcontrols⟩
      · intro h
        obtain ⟨controls, hcontrols⟩ := h hblank
        rw [hcontrols]
        exact ⟨_, rfl⟩
  | _ => simp [visitFramework]

/-- A report is read when each of its loops has something to go over. -/
theorem exists_visitReport_iff (frameworks : Dict String FrameworkAggregate) (compliance : JsonObject) :
    (∃ next, visitReport py frameworks compliance = .ok next) ↔ Readable py compliance := by
  unfold Readable
  constructor
  · intro h
    obtain ⟨next, h⟩ := h
    obtain ⟨entries, hentries, h⟩ := bind_eq_ok.mp h
    have hread := (exists_foldlM_iff exists_visitFramework_iff entries frameworks).mp ⟨next, h⟩
    exact ⟨entries, hentries, fun framework hmem => hread _ hmem framework rfl⟩
  · intro h
    obtain ⟨entries, hentries, hread⟩ := h
    rw [visitReport, hentries, ok_bind]
    apply (exists_foldlM_iff exists_visitFramework_iff entries frameworks).mpr
    intro item hitem framework hobject
    subst hobject
    exact hread framework hitem

/-- The summary returns exactly when every report can be read. -/
theorem exists_summary_iff {results : List (String × Json)} :
    (∃ summary, summarizeComplianceCoverage py rate results = .ok summary) ↔
      ∀ compliance ∈ complianceReports results, Readable py compliance := by
  rw [← exists_foldlM_iff exists_visitReport_iff (complianceReports results) Dict.empty]
  constructor
  · intro h
    obtain ⟨summary, h⟩ := h
    obtain ⟨frameworks, hframeworks, -⟩ := bind_eq_ok.mp h
    exact ⟨frameworks, hframeworks⟩
  · intro h
    obtain ⟨frameworks, hframeworks⟩ := h
    rw [complianceReports] at hframeworks
    rw [summarizeComplianceCoverage, hframeworks]
    exact ⟨_, rfl⟩

/-- A well-formed report can be read. -/
theorem readable_of_wellFormed {compliance : JsonObject} (h : WellFormed py compliance) :
    Readable py compliance := by
  unfold Readable frameworkEntries
  cases hvalue : getField compliance "frameworks" with
  | none => exact ⟨[], rfl, fun framework hmem => absurd hmem List.not_mem_nil⟩
  | some value =>
    obtain ⟨frameworks, rfl, hframeworks⟩ := h value hvalue
    refine ⟨frameworks, rfl, fun framework hmem _ => ?_⟩
    obtain ⟨fields, hobject, hcontrols⟩ := hframeworks _ hmem
    cases hobject
    unfold controlEntries
    cases hvalue : getField framework "controls" with
    | none => exact ⟨[], rfl⟩
    | some value =>
      obtain ⟨controls, rfl, -⟩ := hcontrols value hvalue
      exact ⟨controls, rfl⟩

end Readable

end Amlguard
