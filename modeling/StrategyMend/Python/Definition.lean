import StrategyMend.Python.Tree

/-!
# Definitions in a source

The functions of a source in the order in which they begin, an outer one before those inside it, and
the plain facts about the statements of a body.
-/

set_option autoImplicit false

namespace StrategyMend.Python

/-- A function with its place and its body. -/
structure FunctionInfo where
  /-- The row on which the definition begins, decorators aside. -/
  row : Nat
  name : String
  body : List Statement

/-- Whether a statement is one string literal and nothing else. -/
def Statement.isDocstring : Statement → Bool
  | .expression _ [.string _] => true
  | _ => false

/-- The definition under the decorators of a statement, or the statement itself. -/
def Statement.undecorated : Statement → Statement
  | .decorated _ _ definition => definition
  | statement => statement

/-- The function that a statement defines. -/
def Statement.function? : Statement → Option FunctionInfo
  | .function row name _ _ _ body => some ⟨row, name, body⟩
  | _ => none

mutual

/-- The functions in a statement. -/
def Statement.functions : Statement → List FunctionInfo
  | .function row name _ _ _ body => ⟨row, name, body⟩ :: functionsIn body
  | .classDef _ _ _ _ body => functionsIn body
  | .block _ _ _ body => functionsIn body
  | .decorated _ _ definition => definition.functions
  | _ => []

/-- The functions in statements. -/
def functionsIn : List Statement → List FunctionInfo
  | [] => []
  | statement :: rest => statement.functions ++ functionsIn rest

end

end StrategyMend.Python
