import StrategyMend.Config.Basic
import StrategyMend.Repair.Generator
import StrategyMend.Source.Function
import StrategyMend.Text.Search

/-!
# Fixes of misplaced branches

A detached branch that works on orders or trades outside a notification method is commented out as a
whole, to be moved by hand. Any other detached `elif` becomes an `if`, and a detached `else` is
deleted if its body does nothing. A branch with a misplaced header gets the indentation of its opener.
-/

set_option autoImplicit false

namespace StrategyMend.Repair

open Source Text

/-- The lines from `first` to `last`, counted from zero. -/
def span (lines : List String) (first last : Nat) : List String :=
  (lines.drop first).take (last + 1 - first)

/-! ## Callbacks in the wrong method -/

/-- Fields that only a notification about an order or a trade has. -/
def callbackFields : List String :=
  ["order.status", "order.executed", "order.isbuy", "order.issell", "order.Completed",
    "order.Canceled", "order.Margin", "order.Rejected", "order.Submitted", "order.Accepted",
    "trade.pnl", "trade.pnlcomm", "trade.isclosed"]

/-- Whether a text mentions such a field. -/
def mentionsCallbackField (text : String) : Bool :=
  callbackFields.any fun field => occursIn field text

/-- What marks the header of a branch that is commented out. -/
def relocationMarker : String := "# [stratguard] belongs in notify_order: "

/-- A line with a mark between its indentation and the rest. -/
def commentOut (mark line : String) : String := indentation line ++ mark ++ trimStart line

/-- The lines of a block as comments. Blank lines stay as they are. -/
def commentOutBlock : List String → List String
  | [] => []
  | header :: body =>
    commentOut relocationMarker header ::
      body.map fun line => if isBlankLine line then line else commentOut "# " line

/-- Whether the line `index` belongs to a method that receives notifications. -/
def insideNotification (lines : List String) (index : Nat) : Bool :=
  match enclosingFunction? lines index with
  | some name => "notify_".toList.isPrefixOf name.toList
  | none => false

/-- Comments out a detached branch that belongs in a notification method. -/
def callbackRelocation (config : Config.Fixer) : Generator where
  id := "callback-relocation"
  canFix issue :=
    issue.category.isBranchDefect &&
      match issue.snippet with
      | some snippet => mentionsCallbackField snippet
      | none => false
  claims issue lines :=
    let index := issue.lineIndex
    issue.category.isBranchDefect && decide (index < lines.length) &&
      !insideNotification lines index &&
      (span lines index (blockEnd lines index)).any mentionsCallbackField
  generate issue lines :=
    let index := issue.lineIndex
    if index < lines.length then
      let last := blockEnd lines index
      let block := span lines index last
      .proposed <| (Fix.replace issue issue.line (last + 1) block (commentOutBlock block))
        |>.classified .semiAuto config.callbackRelocationConfidence config.autoFloor
        |>.explained
          "order/trade callback logic found outside notify_order; commented out for relocation"
    else .declined

/-! ## Detached branches -/

/-- The statements that do nothing. -/
def isIdle (statement : String) : Bool := statement = "pass" || statement = "..."

/-- Whether a statement of a body does nothing or begins with a string. -/
def isTrivialStatement (statement : String) : Bool :=
  isIdle statement || (statement.toList.head?.map isQuote).getD false

/-- Whether the `else` on the line `index`, whose block ends on the line `last`, does nothing. -/
def isTrivialElse (lines : List String) (index last : Nat) : Bool :=
  match lines[index]?.bind inlineBody with
  | some body => isIdle body && last = index
  | none =>
    (((markLines lines).drop (index + 1)).take (last - index)).all fun line =>
      !line.isStatement || isTrivialStatement (trim line.text)

/-- The header of an `elif` or `else if` as that of an `if`. -/
def elseIfAsIf? (header : String) : Option String :=
  let text := Chars.trimStart header.toList
  let rest :=
    match dropStart? "elif".toList text with
    | some rest => some rest
    | none =>
      (dropStart? "else".toList text).bind fun rest =>
        dropStart? "if".toList (Chars.trimStart rest)
  rest.map fun rest => indentation header ++ "if" ++ String.ofList rest

/-- The fix for a detached branch with the given header. -/
def orphanFix? (config : Config.Fixer) (issue : Issue) (lines : List String) (header : String) :
    Option Fix :=
  let index := issue.lineIndex
  match classify header with
  | none => none
  | some .elseIf =>
    (elseIfAsIf? header).map fun standalone =>
      (Fix.replace issue issue.line issue.line (span lines index index) [standalone])
        |>.classified .auto config.elifToIfConfidence config.autoFloor
        |>.explained "turn the detached else-if into a standalone if"
  | some .otherwise =>
    let last := blockEnd lines index
    if isTrivialElse lines index last then
      some <| (Fix.delete issue issue.line (last + 1) (span lines index last))
        |>.classified .auto config.deleteTrivialElseConfidence config.autoFloor
        |>.explained "delete the detached else; its body does nothing"
    else
      some <| (Fix.suggestion issue issue.line header)
        |>.classified .manualOnly config.nontrivialElseConfidence config.autoFloor
        |>.explained
          "the detached else has side effects; attach it to its conditional by hand"

/-- Turns a detached `elif` into an `if` and deletes a detached `else` that does nothing. -/
def orphanedBranch (config : Config.Fixer) : Generator :=
  .claimingAll "orphaned-branch" (fun issue => issue.category.isBranchDefect) fun issue lines =>
    .ofOption (lines[issue.lineIndex]?.bind (orphanFix? config issue lines))

/-! ## Misplaced headers -/

/-- The fix for a branch whose opener has another indentation. -/
def realignFix? (config : Config.Fixer) (window : Nat) (issue : Issue) (lines : List String) :
    Option Fix :=
  let index := issue.lineIndex
  match (matchAt lines window index).map Branch.found with
  | some (.misaligned opener _) => do
    let header ← lines[opener]?
    let line ← lines[index]?
    let realigned := indentation header ++ trimStart line
    return (Fix.replace issue issue.line issue.line (span lines index index) [realigned])
      |>.classified .semiAuto config.indentationRealignConfidence config.autoFloor
      |>.explained ("align the branch with its opener at line " ++ toString (opener + 1))
  | _ => none

/-- Gives a misplaced branch the indentation of its opener. -/
def indentationRealign (config : Config.Fixer) (validator : Config.Validator) : Generator :=
  .claimingAll "indentation-realign" (fun issue => issue.category == .indentationMismatch)
    fun issue lines => .ofOption (realignFix? config validator.branchScanWindow issue lines)

end StrategyMend.Repair
