import StrategyMend.Python.Tree

/-!
# Attributes of `self`

Three questions about the attribute `self.field` and the methods of the superclass: whether a piece of
source mentions the attribute at all, whether its statements assign it, and whether they call a given
method on `super()`. Assignments in nested functions and classes do not count, and neither does an
assignment to an element such as `self.field[0]`.
-/

set_option autoImplicit false

namespace StrategyMend.Python

/-! ## Mentions -/

mutual

/-- Whether `self.field` occurs in an expression. -/
def Expression.mentions (field : String) : Expression → Bool
  | .name _ _ => false
  | .attribute (.name object _) member _ => object == "self" && member == field
  | .attribute object _ _ => object.mentions field
  | .subscript parts => mentionedIn field parts
  | .call function arguments => function.mentions field || mentionedIn field arguments
  | .keyword _ value => value.mentions field
  | .string interpolated => mentionedIn field interpolated
  | .collection items => mentionedIn field items
  | .splat value => value.mentions field
  | .lambda parameters body => mentionedIn field parameters || body.mentions field
  | .binding target parts => target.mentions field || mentionedIn field parts
  | .alias value target => value.mentions field || target.mentions field
  | .capture _ => false
  | .operation operands => mentionedIn field operands

/-- Whether `self.field` occurs in one of the expressions. -/
def mentionedIn (field : String) : List Expression → Bool
  | [] => false
  | part :: rest => part.mentions field || mentionedIn field rest

end

/-- Whether `self.field` occurs in a target or its annotation. -/
def Assigned.mentions (field : String) (assigned : Assigned) : Bool :=
  assigned.target.mentions field || assigned.hint.any (Expression.mentions field)

mutual

/-- Whether `self.field` occurs in a statement. -/
def Statement.mentions (field : String) : Statement → Bool
  | .expression _ parts => mentionedIn field parts
  | .assignment _ targets value => targets.any (Assigned.mentions field) || mentionedIn field value
  | .simple _ parts => mentionedIn field parts
  | .imports _ _ _ => false
  | .declaration _ _ => false
  | .block _ _ head body => mentionedIn field head || mentionedInStatements field body
  | .function _ _ types parameters returns body =>
    mentionedIn field types || mentionedIn field parameters || mentionedIn field returns ||
      mentionedInStatements field body
  | .classDef _ _ types bases body =>
    mentionedIn field types || mentionedIn field bases || mentionedInStatements field body
  | .decorated _ decorators definition =>
    mentionedIn field decorators || definition.mentions field

/-- Whether `self.field` occurs in one of the statements. -/
def mentionedInStatements (field : String) : List Statement → Bool
  | [] => false
  | statement :: rest => statement.mentions field || mentionedInStatements field rest

end

/-! ## Assignments -/

mutual

/-- Whether a target is `self.field` or has it among its items. -/
def Expression.targets (field : String) : Expression → Bool
  | .attribute (.name object _) member _ => object == "self" && member == field
  | .collection items => targetedIn field items
  | .splat value => value.targets field
  | _ => false

/-- Whether one of the targets is `self.field` or has it among its items. -/
def targetedIn (field : String) : List Expression → Bool
  | [] => false
  | item :: rest => item.targets field || targetedIn field rest

end

mutual

/-- Whether a statement assigns `self.field`, nested definitions aside. -/
def Statement.assigns (field : String) : Statement → Bool
  | .assignment _ targets _ => targets.any fun assigned => assigned.target.targets field
  | .block _ _ _ body => assignedIn field body
  | .decorated _ _ definition => definition.assigns field
  | .function _ _ _ _ _ _ => false
  | .classDef _ _ _ _ _ => false
  | _ => false

/-- Whether one of the statements assigns `self.field`, nested definitions aside. -/
def assignedIn (field : String) : List Statement → Bool
  | [] => false
  | statement :: rest => statement.assigns field || assignedIn field rest

end

/-! ## Calls to the superclass -/

/-- Whether the function of a call is `super(…).method`. -/
def isSuperMethod (method : String) : Expression → Bool
  | .attribute (.call (.name function _) _) member _ => function == "super" && member == method
  | _ => false

mutual

/-- Whether an expression calls `super().method`. -/
def Expression.callsSuper (method : String) : Expression → Bool
  | .name _ _ => false
  | .attribute object _ _ => object.callsSuper method
  | .subscript parts => superCalledIn method parts
  | .call function arguments =>
    isSuperMethod method function || function.callsSuper method || superCalledIn method arguments
  | .keyword _ value => value.callsSuper method
  | .string interpolated => superCalledIn method interpolated
  | .collection items => superCalledIn method items
  | .splat value => value.callsSuper method
  | .lambda parameters body => superCalledIn method parameters || body.callsSuper method
  | .binding target parts => target.callsSuper method || superCalledIn method parts
  | .alias value target => value.callsSuper method || target.callsSuper method
  | .capture _ => false
  | .operation operands => superCalledIn method operands

/-- Whether one of the expressions calls `super().method`. -/
def superCalledIn (method : String) : List Expression → Bool
  | [] => false
  | part :: rest => part.callsSuper method || superCalledIn method rest

end

/-- Whether a target or its annotation calls `super().method`. -/
def Assigned.callsSuper (method : String) (assigned : Assigned) : Bool :=
  assigned.target.callsSuper method || assigned.hint.any (Expression.callsSuper method)

mutual

/-- Whether a statement calls `super().method`, nested definitions aside. -/
def Statement.callsSuper (method : String) : Statement → Bool
  | .expression _ parts => superCalledIn method parts
  | .assignment _ targets value =>
    targets.any (Assigned.callsSuper method) || superCalledIn method value
  | .simple _ parts => superCalledIn method parts
  | .block _ _ head body => superCalledIn method head || superCalledInStatements method body
  | .decorated _ decorators definition =>
    superCalledIn method decorators || definition.callsSuper method
  | _ => false

/-- Whether one of the statements calls `super().method`, nested definitions aside. -/
def superCalledInStatements (method : String) : List Statement → Bool
  | [] => false
  | statement :: rest => statement.callsSuper method || superCalledInStatements method rest

end

end StrategyMend.Python
