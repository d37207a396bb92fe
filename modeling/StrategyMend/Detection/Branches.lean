import StrategyMend.Detection.Registry
import StrategyMend.Source.Branch

/-!
# Detectors of misplaced branches

A branch without an opener, or with one in another method, is critical: the text may still parse, but
the branch no longer belongs to the conditional it was written for. A branch whose opener has another
indentation is misplaced too.
-/

set_option autoImplicit false

namespace StrategyMend.Detection

open Source Text

/-- A word between grave accents. -/
def quoted (text : String) : String := "\x60" ++ text ++ "\x60"

/-- The condition and what follows it on a line that begins with `elif` or `else if`. -/
def afterElseIf (line : String) : String :=
  let text := Chars.trimStart line.toList
  let rest :=
    match dropStart? "elif".toList text with
    | some rest => some rest
    | none =>
      (dropStart? "else".toList text).bind fun rest => dropStart? "if".toList (Chars.trimStart rest)
  String.ofList (rest.getD text)

/-- What could be done about a branch without its conditional. -/
def branchSuggestion (kind : BranchKind) (line : String) : String :=
  match kind with
  | .elseIf => "turn it into a standalone " ++ quoted ("if" ++ trimEnd (afterElseIf line))
  | .otherwise => "remove the " ++ quoted "else" ++ " or attach it to its conditional"

/-- The issue of a branch without its conditional. -/
def orphanIssue? (context : Context) (branch : Branch) : Option Issue :=
  let suggestion := branchSuggestion branch.kind (context.script.lines[branch.index]?.getD "")
  let keyword := quoted branch.kind.keyword
  match branch.found with
  | .orphaned =>
    some (issueAt context branch.index .critical .orphanedBranch
      (keyword ++ " has no matching opener within " ++ toString context.config.branchScanWindow ++
        " lines") suggestion)
  | .crossMethod opener boundary =>
    some (issueAt context branch.index .critical .methodBoundaryConfusion
      (keyword ++ " continues the conditional at line " ++ toString (opener + 1) ++
        " across the method boundary at line " ++ toString (boundary + 1)) suggestion)
  | _ => none

/-- The branches of a script. -/
def scriptBranches (context : Context) : List Branch :=
  branches context.script.lines context.config.branchScanWindow

/-- Finds branches without an opener, and branches that continue a conditional of another method. -/
def orphanedBranch : Detector where
  id := "orphaned-branch"
  mode := .text
  detect context := some ((scriptBranches context).filterMap (orphanIssue? context))

/-- The issue of a branch at another indentation than its opener. -/
def mismatchIssue? (context : Context) (branch : Branch) : Option Issue :=
  match branch.found with
  | .misaligned opener openerIndent =>
    let keyword := quoted branch.kind.keyword
    let width := indentWidth (context.script.lines[branch.index]?.getD "")
    some (issueAt context branch.index .high .indentationMismatch
      (keyword ++ " is indented " ++ toString width ++ " columns but its opener at line " ++
        toString (opener + 1) ++ " is at " ++ toString openerIndent)
      ("align " ++ keyword ++ " with line " ++ toString (opener + 1)))
  | _ => none

/-- Finds branches at another indentation than their openers. -/
def indentationMismatch : Detector where
  id := "indentation-mismatch"
  mode := .text
  detect context := some ((scriptBranches context).filterMap (mismatchIssue? context))

end StrategyMend.Detection
