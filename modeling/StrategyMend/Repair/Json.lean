import StrategyMend.Repair.Patch

/-!
# Fixes, failures and conflicts as JSON
-/

set_option autoImplicit false

namespace StrategyMend.Repair

/-- A kind of fix in a report. -/
def FixKind.ofJson? (json : Json) : Option FixKind := json.asString?.bind FixKind.ofName?

/-- A fix in a report. -/
def Fix.toJson (fix : Fix) : Json :=
  .object
    [("issue", fix.issue.toJson),
      ("fix_type", .string fix.kind.name),
      ("confidence", .real fix.confidence),
      ("original", .string fix.removed),
      ("replacement", .string fix.replacement),
      ("explanation", .string fix.explanation),
      ("applied", .bool fix.applied),
      ("line", .nat fix.line),
      ("end_line", .nat fix.endLine),
      ("generator", .string fix.generator)]

/-- The fix that a report describes. -/
def Fix.ofJson? (json : Json) : Option Fix :=
  if json.isObject then do
    let issue ← json.required "issue" Issue.ofJson?
    let kind ← json.required "fix_type" FixKind.ofJson?
    let confidence ← json.required "confidence" Json.asReal?
    let removed ← json.required "original" Json.asString?
    let replacement ← json.required "replacement" Json.asString?
    let explanation ← json.required "explanation" Json.asString?
    let applied ← json.required "applied" Json.asBool?
    let line ← json.required "line" Issue.lineOfJson?
    let endLine ← json.required "end_line" Issue.lineOfJson?
    let generator ← json.required "generator" Json.asString?
    return { issue, kind, confidence, removed, replacement, explanation, applied, line, endLine,
             generator }
  else none

/-- A failure in a report. -/
def Failure.toJson (failure : Failure) : Json :=
  .object
    [("issue", failure.issue.toJson),
      ("generator", .optional failure.generator .string),
      ("reason", .string failure.reason)]

/-- The name of a reason in reports. -/
def ConflictReason.name : ConflictReason → String
  | .overlap => "overlap"
  | .duplicateInsert => "duplicate-insert"
  | .outOfRange => "out-of-range"

/-- A conflict in a report. -/
def Conflict.toJson (conflict : Conflict) : Json :=
  .object
    [("reason", .string conflict.reason.name),
      ("skipped_line", .nat conflict.skippedLine),
      ("skipped_generator", .string conflict.skippedGenerator),
      ("skipped_confidence", .real conflict.skippedConfidence),
      ("kept_line", .optional conflict.keptLine .nat)]

end StrategyMend.Repair
