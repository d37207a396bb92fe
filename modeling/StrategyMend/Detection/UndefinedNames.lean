import StrategyMend.Detection.Branches
import StrategyMend.Detection.KnownNames
import StrategyMend.Python.Scope

/-!
# The detector of undefined names

A name is reported where it is read if it resolves neither in its scope nor in the module, is not
always defined, is not allowed by the configuration, and does not begin with an underscore. A name
is reported once for each row. If the script imports a module whole, no name is reported.
-/

set_option autoImplicit false

namespace StrategyMend.Detection

open Python

/-- Whether a read counts as undefined. -/
def isUndefined (allowed : List String) (walk : Walk) (read : NameRead) : Bool :=
  !(read.name.toList.head? = some '_' || isAlwaysDefined read.name || allowed.contains read.name ||
    walk.resolves read.name read.scope)

/-- The first of the reads with each name and row. -/
def firstReads (seen : List (String × Nat)) : List NameRead → List NameRead
  | [] => []
  | read :: rest =>
    if seen.contains (read.name, read.row) then firstReads seen rest
    else read :: firstReads ((read.name, read.row) :: seen) rest

/-- The undefined reads of a module, each name once for each row. -/
def undefinedReads (allowed : List String) (walk : Walk) : List NameRead :=
  if walk.wildcard then [] else firstReads [] (walk.reads.filter (isUndefined allowed walk))

/-- The issue of an undefined name. -/
def undefinedIssue (context : Context) (read : NameRead) : Issue :=
  issueAt context read.row .medium .undefinedVariable
    (quoted read.name ++ " is not defined in this scope")
    ("define or import " ++ quoted read.name ++ " before it is used")

/-- Finds names that are read but not defined. -/
def variableReference : Detector where
  id := "variable-reference"
  mode := .tree
  detect context := some
    (match context.script.tree? with
    | some tree =>
      (undefinedReads context.config.allowedNames (walkModule tree.statements)).map
        (undefinedIssue context)
    | none => [])

end StrategyMend.Detection
