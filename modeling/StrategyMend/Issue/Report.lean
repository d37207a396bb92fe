import StrategyMend.Issue.Basic

/-!
# Reports

A report is a list of issues seen through its counts: by severity, by category, and at or above a
severity.
-/

set_option autoImplicit false

namespace StrategyMend

/-- The issues of a source. -/
structure Report where
  issues : List Issue
  deriving DecidableEq

namespace Report

/-- The number of issues. -/
def total (report : Report) : Nat := report.issues.length

/-- The number of issues of a severity. -/
def countSeverity (report : Report) (severity : Severity) : Nat :=
  report.issues.countP fun issue => issue.severity == severity

/-- The number of issues of a category. -/
def countCategory (report : Report) (category : Category) : Nat :=
  report.issues.countP fun issue => issue.category.name == category.name

/-- The number of issues at or above a severity. -/
def blockingCount (report : Report) (least : Severity) : Nat :=
  report.issues.countP fun issue => decide (least ≤ issue.severity)

/-- The gravest severity in the report. -/
def maxSeverity? (report : Report) : Option Severity :=
  Severity.maximum? (report.issues.map Issue.severity)

/-- Whether there are no issues. -/
def isClean (report : Report) : Bool := report.total = 0

/-- The names of the categories that occur, each once. -/
def categoryNames (report : Report) : List String :=
  (report.issues.map fun issue => issue.category.name).eraseDups

/-- The report with its counts. -/
def toJson (report : Report) : Json :=
  .object
    [("total_issues", .nat report.total),
      ("by_severity", .object (Severity.all.map fun severity =>
        (severity.name, .nat (report.countSeverity severity)))),
      ("by_category", .object (report.categoryNames.map fun name =>
        (name, .nat (report.countCategory (.ofName name))))),
      ("issues", .list report.issues Issue.toJson)]

end Report

end StrategyMend
