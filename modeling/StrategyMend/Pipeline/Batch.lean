import StrategyMend.Pipeline.Result

/-!
# Batches

The report of a batch counts how many of its scripts passed each stage. Only scripts that parse are
counted as validated, only those with issues as repaired, and only those that were run as executed.
-/

set_option autoImplicit false

namespace StrategyMend.Pipeline

open Number

/-- How many scripts passed a stage, and how many did not. -/
structure StageCounts where
  passed : Nat
  failed : Nat
  deriving DecidableEq

namespace StageCounts

/-- Counts the scripts that passed and those that did not. -/
def tally (outcomes : List Bool) : StageCounts where
  passed := outcomes.countP fun ok => ok
  failed := outcomes.countP fun ok => !ok

/-- How many scripts came to the stage. -/
def attempted (counts : StageCounts) : Nat := counts.passed + counts.failed

/-- The share of scripts that passed; zero if none came to the stage. -/
def rate (counts : StageCounts) : Binary64 := .ratio counts.passed counts.attempted

/-- The counts in a report. -/
def toJson (counts : StageCounts) : Json :=
  .object
    [("passed", .nat counts.passed), ("failed", .nat counts.failed), ("rate", .real counts.rate)]

end StageCounts

/-- What the pipeline learned about some scripts. -/
structure BatchReport where
  results : List UnitResult

namespace BatchReport

/-- The number of scripts. -/
def total (report : BatchReport) : Nat := report.results.length

/-- Which scripts parse. -/
def parse (report : BatchReport) : StageCounts :=
  .tally (report.results.map UnitResult.syntaxValid)

/-- Which of the scripts that parse have no issues. -/
def validation (report : BatchReport) : StageCounts :=
  .tally ((report.results.filter UnitResult.syntaxValid).map fun result =>
    result.validation.isClean)

/-- Which of the scripts with issues have none left. -/
def fix (report : BatchReport) : StageCounts :=
  .tally ((report.results.filter fun result =>
    result.syntaxValid && !result.validation.isClean).map fun result =>
      decide (result.fixSummary.remainingIssues = 0))

/-- Which runs succeeded. -/
def execution (report : BatchReport) : StageCounts :=
  .tally ((report.results.filterMap UnitResult.execution).map ExecutionResult.success)

/-- Which scripts succeeded. -/
def overall (report : BatchReport) : StageCounts :=
  .tally (report.results.map UnitResult.success)

/-- Whether every script succeeded. -/
def allSucceeded (report : BatchReport) : Bool := report.overall.failed = 0

/-- The average time for a script in milliseconds. -/
def averageMs (report : BatchReport) : Binary64 :=
  .ratio ((report.results.map UnitResult.processingMicros).foldl (· + ·) 0) (1000 * report.total)

/-- The report with its counts. -/
def toJson (report : BatchReport) : Json :=
  .object
    [("total_units", .nat report.total),
      ("parse", report.parse.toJson),
      ("validation", report.validation.toJson),
      ("fix", report.fix.toJson),
      ("execution", report.execution.toJson),
      ("overall", report.overall.toJson),
      ("avg_processing_ms", .real report.averageMs),
      ("results", .list report.results UnitResult.toJson)]

end BatchReport

end StrategyMend.Pipeline
