import StrategyMend.Issue.Severity
import StrategyMend.Issue.Category
import StrategyMend.Json.Basic

/-!
# Issues

An issue is one defect found in a source, with the line on which it was found, counted from one.
-/

set_option autoImplicit false

namespace StrategyMend

/-- One defect found in a source. -/
structure Issue where
  severity : Severity
  category : Category
  /-- The line, counted from one. -/
  line : Nat
  message : String
  /-- The line's text without blank characters around it. -/
  snippet : Option String
  /-- What could be done about the defect. -/
  suggestion : Option String
  deriving DecidableEq

namespace Issue

/-- The number of the issue's line, counted from zero. -/
def lineIndex (issue : Issue) : Nat := issue.line - 1

/-- The largest line number in a report. -/
def maxLine : Nat := Nat.pow 2 32 - 1

/-- The issue in a report. -/
def toJson (issue : Issue) : Json :=
  .object
    [("severity", .string issue.severity.name),
      ("category", .string issue.category.name),
      ("line", .nat issue.line),
      ("message", .string issue.message),
      ("snippet", .optional issue.snippet .string),
      ("suggestion", .optional issue.suggestion .string)]

end Issue

/-- A severity in a report. -/
def Severity.ofJson? (json : Json) : Option Severity := json.asString?.bind Severity.ofName?

/-- A line number in a report. -/
def Issue.lineOfJson? (json : Json) : Option Nat := json.asNat?.filter fun line => line ≤ maxLine

/-- The issue that a report describes. -/
def Issue.ofJson? (json : Json) : Option Issue :=
  if json.isObject then do
    let severity ← json.required "severity" Severity.ofJson?
    let category ← json.required "category" Json.asString?
    let line ← json.required "line" lineOfJson?
    let message ← json.required "message" Json.asString?
    let snippet ← json.nullable "snippet" Json.asString?
    let suggestion ← json.nullable "suggestion" Json.asString?
    return ⟨severity, .ofName category, line, message, snippet, suggestion⟩
  else none

end StrategyMend
