import StrategyMend.Text.Lines

/-!
# Paths

A path is kept as it was written. It stands for its components: repeated and final slashes do not
count, nor does a single dot, unless the path begins with it. Paths are ordered by their components,
so that a directory's files stand together.
-/

set_option autoImplicit false

namespace StrategyMend.Files

/-- A path as written. -/
abbrev Path := String

/-- One step of a path. -/
inductive Component where
  /-- The slash at the beginning. -/
  | root
  /-- A single dot at the beginning. -/
  | current
  /-- Two dots. -/
  | parent
  | name (text : String)
  deriving DecidableEq

namespace Component

/-- The kinds of components in their order. -/
def rank : Component → Nat
  | .root => 0
  | .current => 1
  | .parent => 2
  | .name _ => 3

/-- The order of components; names are ordered by their characters. -/
def lt : Component → Component → Bool
  | .name a, .name b => a < b
  | a, b => a.rank < b.rank

end Component

/-- The pieces between the slashes of a text. -/
def slashPieces : List Char → List (List Char)
  | [] => [[]]
  | '/' :: rest => [] :: slashPieces rest
  | c :: rest =>
    match slashPieces rest with
    | [] => [[c]]
    | first :: others => (c :: first) :: others

namespace Path

/-- The parts of a path between its slashes. -/
def segments (path : Path) : List String := (slashPieces path.toList).map String.ofList

/-- Whether a path begins at the root. -/
def isAbsolute (path : Path) : Bool := path.toList.head? = some '/'

/-- A part that is no step. -/
def isIdle (segment : String) : Bool := segment = "" || segment = "."

/-- A part as a component. -/
def step (segment : String) : Component := if segment = ".." then .parent else .name segment

/-- The components of a path. -/
def components (path : Path) : List Component :=
  match path.segments with
  | [] => []
  | first :: rest =>
    let steps := (rest.filter fun segment => !isIdle segment).map step
    if path.isAbsolute then .root :: steps
    else if first = "." then .current :: steps
    else if first = "" then steps
    else step first :: steps

/-- The order of lists of components. -/
def componentsLe : List Component → List Component → Bool
  | [], _ => true
  | _ :: _, [] => false
  | a :: as, b :: bs => a.lt b || (a = b && componentsLe as bs)

/-- The order of paths. -/
def le (a b : Path) : Bool := componentsLe a.components b.components

/-- Whether two paths have the same components. -/
def same (a b : Path) : Bool := a.components = b.components

/-- The path of an entry in a directory. -/
def child (directory : Path) (name : String) : Path :=
  if directory = "" || directory.toList.getLast? = some '/' then directory ++ name
  else directory ++ "/" ++ name

/-- The parts of a path in reverse, from the last that is a step or the first of all. -/
def dropIdle : List String → List String
  | [] => []
  | [first] => [first]
  | segment :: rest => if isIdle segment then dropIdle rest else segment :: rest

/-- The parts of a path in reverse as a path. -/
def ofReversed (reversed : List String) : Path :=
  if reversed = [""] then "/" else "/".intercalate reversed.reverse

/-- The directory and the name of what a path ends in; none if it does not end in a name. -/
def split? (path : Path) : Option (Path × String) :=
  match dropIdle path.segments.reverse with
  | [] => none
  | [only] => if isIdle only || only = ".." then none else some ("", only)
  | name :: rest => if name = ".." then none else some (ofReversed (dropIdle rest), name)

/-- The name that a path ends in. -/
def fileName? (path : Path) : Option String := path.split?.map Prod.snd

end Path

/-! ## Names of files -/

/-- What stands before and after the last dot. -/
def splitAtLastDot : List Char → Option (List Char × List Char)
  | [] => none
  | c :: rest =>
    match splitAtLastDot rest with
    | some (before, after) => some (c :: before, after)
    | none => if c = '.' then some ([], rest) else none

/-- A name's stem and its extension. A dot at the beginning makes no extension. -/
def stemAndExtension (name : String) : String × Option String :=
  match splitAtLastDot name.toList with
  | some (first :: before, after) =>
    (String.ofList (first :: before), some (String.ofList after))
  | _ => (name, none)

/-- The mark between the stem and the extension of a repaired script. -/
def fixedMark : String := ".fixed"

/-- The name of the repaired script. -/
def fixedName (name : String) : String :=
  match stemAndExtension name with
  | (stem, some extension) => stem ++ fixedMark ++ "." ++ extension
  | (stem, none) => stem ++ fixedMark

/-- The name of a script whose path has none. -/
def standardName : String := "source"

/-- The path of the repaired script, in the same directory. -/
def fixedPath (path : Path) : Path :=
  match path.split? with
  | some (directory, name) => directory.child (fixedName name)
  | none => path.child (fixedName standardName)

/-- Whether a directory's file is a script to be processed: it has the extension of one and is not
itself a repaired script. -/
def isCandidate (path : Path) : Bool :=
  match path.fileName?.map stemAndExtension with
  | some (stem, some extension) =>
    extension = "py" && !fixedMark.toList.isSuffixOf stem.toList
  | _ => false

end StrategyMend.Files
