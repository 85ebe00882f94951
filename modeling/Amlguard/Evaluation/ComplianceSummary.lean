import Amlguard.Evaluation.ComplianceValidation
import Amlguard.Library.Ranking
import Mathlib.Data.List.MinMax
import Mathlib.Data.String.Basic

/-!
# Compliance coverage of an experiment

`summarize_compliance_coverage` goes through the stored results and counts, for each control of each
framework, the statuses that it is listed with. A name and a title are those of the first listing; all the
rest is determined by the statuses that are listed under the two IDs, in whatever order.

What `round` makes of the ratio of two numbers is left open.
-/

namespace Amlguard

/-- `_STATUS_PRIORITY`. -/
def statusPriority (status : String) : ℕ :=
  if status = "attention" then 0
  else if status = "partial" then 1
  else if status = "met" then 2
  else 3

/-- `value`, when it is a dictionary. -/
def objectField (item : JsonObject) (key : String) : Option JsonObject :=
  match getField item key with
  | some (.object fields) => some fields
  | _ => none

/-- `_compliance_payload`. -/
def compliancePayload : Json → Option JsonObject
  | .object result => do
    let evaluations ← objectField result "evaluations"
    let proofagent ← objectField evaluations "proofagent"
    let metadata ← objectField proofagent "metadata"
    objectField metadata "compliance"
  | _ => none

/-- What is collected about a control. -/
structure ControlAggregate where
  id : String
  title : String
  statusCounts : StatusCounts := {}

/-- What is collected about a framework. -/
structure FrameworkAggregate where
  id : String
  name : String
  controls : Dict String ControlAggregate := Dict.empty

/-- What is reported about a control. -/
structure ControlCoverage where
  id : String
  title : String
  statusCounts : StatusCounts
  aggregateStatus : String
  assessedSessions : ℕ
  observedSessions : ℕ
  coverageRate : ℚ
  deriving DecidableEq

/-- What is reported about a framework. -/
structure FrameworkCoverage where
  id : String
  name : String
  controls : List ControlCoverage
  deriving DecidableEq

/-- The summary, without its fixed interpretation. -/
structure CoverageSummary where
  sessionsTotal : ℕ
  sessionsWithCompliance : ℕ
  controlObservationsAssessed : ℕ
  controlObservationsTotal : ℕ
  coverageRate : ℚ
  frameworks : List FrameworkCoverage
  deriving DecidableEq

/-- The number of controls that are counted with a status. -/
def StatusCounts.of (counts : StatusCounts) (status : String) : ℕ :=
  if status = "met" then counts.met
  else if status = "partial" then counts.partials
  else if status = "attention" then counts.attention
  else counts.notEvaluated

/-- The worst status that has been given, if there is one. -/
def aggregateStatus (counts : StatusCounts) : String :=
  ((["attention", "partial", "met", "not_evaluated"].filter fun status =>
    counts.of status ≠ 0 ∧ status ≠ "not_evaluated").argmin statusPriority).getD "not_evaluated"

section Summary

variable (py : PyBuiltins) (rate : ℕ → ℕ → ℚ)

/-- One entry of a framework's controls. -/
def visitControl (controls : Dict String ControlAggregate) : Json → Dict String ControlAggregate
  | .object control =>
    let controlId := strip (py.textOr (getField control "id") "")
    let status := rawStatus py control
    if controlId = "" ∨ status ∉ complianceStatuses then controls
    else
      let aggregate := (controls.get? controlId).getD
        { id := controlId, title := py.textOr (getField control "title") controlId }
      controls.set controlId { aggregate with statusCounts := aggregate.statusCounts.count status }
  | _ => controls

/-- The controls that the loop over a framework visits. -/
def controlEntries (framework : JsonObject) : Except PyError (List Json) :=
  match getField framework "controls" with
  | none => .ok []
  | some value => PyBuiltins.items value

/-- One entry of the frameworks of a report. -/
def visitFramework (frameworks : Dict String FrameworkAggregate) :
    Json → Except PyError (Dict String FrameworkAggregate)
  | .object framework =>
    let frameworkId := strip (py.textOr (getField framework "id") "")
    if frameworkId = "" then .ok frameworks
    else do
      let aggregate := (frameworks.get? frameworkId).getD
        { id := frameworkId, name := py.textOr (getField framework "name") frameworkId }
      let controls ← controlEntries framework
      pure (frameworks.set frameworkId
        { aggregate with controls := controls.foldl (visitControl py) aggregate.controls })
  | _ => .ok frameworks

/-- The report of one session. -/
def visitReport (frameworks : Dict String FrameworkAggregate) (compliance : JsonObject) :
    Except PyError (Dict String FrameworkAggregate) := do
  let entries ← frameworkEntries compliance
  entries.foldlM (visitFramework py) frameworks

/-- `round(assessed / observed, 4) if observed else 0.0`. -/
def coverageRate (assessed observed : ℕ) : ℚ := if observed = 0 then 0 else rate assessed observed

/-- The sessions that have assessed the control. -/
def ControlAggregate.assessed (control : ControlAggregate) : ℕ :=
  control.statusCounts.total - control.statusCounts.notEvaluated

/-- The report about a control. -/
def controlCoverage (control : ControlAggregate) : ControlCoverage where
  id := control.id
  title := control.title
  statusCounts := control.statusCounts
  aggregateStatus := aggregateStatus control.statusCounts
  assessedSessions := control.assessed
  observedSessions := control.statusCounts.total
  coverageRate := coverageRate rate control.assessed control.statusCounts.total

/-- The report about a framework. -/
def frameworkCoverage (framework : FrameworkAggregate) : FrameworkCoverage where
  id := framework.id
  name := framework.name
  controls := Ranking.sortedBy ControlCoverage.id (framework.controls.values.map (controlCoverage rate))

/-- `summarize_compliance_coverage`. -/
def summarizeComplianceCoverage (results : List (String × Json)) : Except PyError CoverageSummary := do
  let reports := results.filterMap fun result => compliancePayload result.2
  let frameworks ← reports.foldlM (visitReport py) Dict.empty
  let controls := frameworks.values.flatMap fun framework => framework.controls.values
  let assessed := (controls.map ControlAggregate.assessed).sum
  let observed := (controls.map fun control => control.statusCounts.total).sum
  pure
    { sessionsTotal := results.length
      sessionsWithCompliance := reports.length
      controlObservationsAssessed := assessed
      controlObservationsTotal := observed
      coverageRate := coverageRate rate assessed observed
      frameworks := Ranking.sortedBy FrameworkCoverage.id
        (frameworks.values.map (frameworkCoverage rate)) }

end Summary

end Amlguard
