/-!
# Trees of Python sources

A source is a list of statements. Expressions, targets, parameters and comprehension clauses share
one type, `Expression`; statements are `Statement`. The trees keep what the analyses ask for: names
with their rows, attributes, calls, and every construct that binds names. Operators, literals and
brackets only keep the order of their operands. Rows are counted from zero.
-/

set_option autoImplicit false

namespace StrategyMend.Python

/-- An expression, a target, a parameter or a clause of a comprehension. -/
inductive Expression where
  /-- A name, read or bound. -/
  | name (text : String) (row : Nat)
  /-- `object.member`; `tail` is what the source has behind the last dot, blank ends aside. -/
  | attribute (object : Expression) (member tail : String)
  /-- `value[index, …]`, the value first. -/
  | subscript (parts : List Expression)
  /-- `function(arguments)`. -/
  | call (function : Expression) (arguments : List Expression)
  /-- The argument `label=value` of a call. -/
  | keyword (label : String) (value : Expression)
  /-- One string literal with the expressions interpolated into it. -/
  | string (interpolated : List Expression)
  /-- Items in round or square brackets, or separated by commas only. -/
  | collection (items : List Expression)
  /-- `*value` or `**value`. -/
  | splat (value : Expression)
  /-- An anonymous function. -/
  | lambda (parameters : List Expression) (body : Expression)
  /-- A target that is bound, with what else belongs to it: a parameter with its annotation and
  default, a clause `for target in …`, or `target := value`. -/
  | binding (target : Expression) (parts : List Expression)
  /-- `value as target`. -/
  | alias (value target : Expression)
  /-- A pattern of a `case`, by the names in it. -/
  | capture (names : List String)
  /-- Any other expression, by its operands. -/
  | operation (operands : List Expression)

/-- A target with its annotation. -/
structure Assigned where
  target : Expression
  hint : Option Expression

/-- What a statement with a block is, or a later clause of one, by its keyword. -/
inductive BlockKind where
  | ifStatement
  | whileStatement
  | forStatement
  | tryStatement
  | withStatement
  | matchStatement
  | elifClause
  | elseClause
  | exceptClause
  | finallyClause
  | caseClause
  deriving DecidableEq

/-- Whether the head is a condition that decides about the whole statement. -/
def BlockKind.isConditional (kind : BlockKind) : Bool :=
  kind = .ifStatement || kind = .whileStatement

/-- A statement. -/
inductive Statement where
  /-- Expressions that stand alone. -/
  | expression (row : Nat) (parts : List Expression)
  /-- Targets and the value they get, if any. -/
  | assignment (row : Nat) (targets : List Assigned) (value : List Expression)
  /-- Another statement on one line. -/
  | simple (row : Nat) (parts : List Expression)
  /-- An import by the names it binds; `wildcard` if it imports everything. -/
  | imports (row : Nat) (names : List String) (wildcard : Bool)
  /-- `global` or `nonlocal` names. -/
  | declaration (row : Nat) (names : List String)
  /-- A statement with a block; its later clauses follow the statements of the block. -/
  | block (row : Nat) (kind : BlockKind) (head : List Expression) (body : List Statement)
  | function (row : Nat) (name : String) (typeParameters parameters returns : List Expression)
      (body : List Statement)
  | classDef (row : Nat) (name : String) (typeParameters superclasses : List Expression)
      (body : List Statement)
  | decorated (row : Nat) (decorators : List Expression) (definition : Statement)

/-- The row on which a statement begins. -/
def Statement.row : Statement → Nat
  | .expression row _ => row
  | .assignment row _ _ => row
  | .simple row _ => row
  | .imports row _ _ => row
  | .declaration row _ => row
  | .block row _ _ _ => row
  | .function row _ _ _ _ _ => row
  | .classDef row _ _ _ _ => row
  | .decorated row _ _ => row

namespace Expression

/-- Whether a name, an attribute or a subscript. -/
def isPlace : Expression → Bool
  | .name _ _ => true
  | .attribute _ _ _ => true
  | .subscript _ => true
  | _ => false

mutual

/-- Whether an assignment may have the expression on its left. -/
def isTarget : Expression → Bool
  | .collection items => areTargets items
  | .splat value => value.isPlace
  | .name _ _ => true
  | .attribute _ _ _ => true
  | .subscript _ => true
  | _ => false

/-- Whether an assignment may have each of the expressions on its left. -/
def areTargets : List Expression → Bool
  | [] => true
  | item :: rest => item.isTarget && areTargets rest

end

/-- Several operands as one expression. -/
def ofOperands : List Expression → Expression
  | [one] => one
  | operands => .operation operands

/-- Several items separated by commas as one expression. -/
def ofItems : List Expression → Expression
  | [one] => one
  | items => .collection items

end Expression

end StrategyMend.Python
