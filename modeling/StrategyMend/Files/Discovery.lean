import StrategyMend.Error
import StrategyMend.Files.Ignore
import StrategyMend.Pipeline.Basic

/-!
# Finding and reading scripts

A path to a file stands for that file, whatever it is. A path to a directory stands for the scripts in
it and in the directories below. Left out are directories that never hold scripts of one's own, what
files of patterns leave out, and repaired scripts. A script that cannot be read stays in the batch
together with the reason.
-/

set_option autoImplicit false

namespace StrategyMend.Files

/-- Names of directories that never hold scripts of one's own. -/
def alwaysLeftOut : List String :=
  [".git", "__pycache__", ".pytest_cache", ".mypy_cache", ".tox", ".venv", "venv", "node_modules",
    "build", "dist", "target"]

/-- Whether an entry of a directory is left out. -/
def leavesOut (around : Surroundings) (name : String) (isDirectory : Bool) : Bool :=
  alwaysLeftOut.contains name || around.leavesOut name isDirectory

mutual

/-- The scripts in a directory with the given name and path, and in the directories below. -/
def scriptsBelow (outer : Surroundings) (name : String) (path : Path) : Node → List Path
  | .file _ => []
  | .directory entries =>
    scriptsAmong ((name, .ofDirectory (.directory entries)) :: outer) path entries

/-- The scripts among the entries of a directory. -/
def scriptsAmong (around : Surroundings) (path : Path) : List (String × Node) → List Path
  | [] => []
  | (name, node) :: rest =>
    let entry := path.child name
    let here :=
      match node with
      | .file _ => if isCandidate entry && !leavesOut around name false then [entry] else []
      | .directory inner =>
        if leavesOut around name true then [] else scriptsBelow around name entry (.directory inner)
    here ++ scriptsAmong around path rest

end

/-- The directories around the one that names lead to, innermost first. -/
def surroundingsOf (root : Node) : List String → Surroundings
  | [] => []
  | names@(_ :: _) =>
    (List.range names.length).reverse.filterMap fun depth =>
      (root.at? (names.take depth)).map fun directory =>
        (((names.take depth).getLast?).getD "", .ofDirectory directory)

/-- The scripts that a path stands for. -/
def scriptsAt (tree : Tree) (path : Path) : List Path :=
  match tree.directory? path with
  | some (names, entries) =>
    scriptsBelow (surroundingsOf tree.root names) (names.getLast?.getD "") path (.directory entries)
  | none => [path]

/-- Paths without one that is the same as its neighbour before it. -/
def dropRepeated : List Path → List Path
  | [] => []
  | [last] => [last]
  | first :: second :: rest =>
    if first.same second then dropRepeated (first :: rest) else first :: dropRepeated (second :: rest)

/-- The scripts that paths stand for, in order and each once. -/
def discover (tree : Tree) (paths : List Path) : List Path :=
  dropRepeated ((paths.flatMap (scriptsAt tree)).mergeSort Path.le)

/-- Reads a script. -/
def load (tree : Tree) (path : Path) : Pipeline.Input :=
  match tree.read path with
  | .ok text => .source path text
  | .error fault => .unreadable path (PipelineError.inputUnreadable path fault.message).message

/-- Writes the repaired script next to the script. -/
def writeFixed (tree : Tree) (source : Path) (text : String) : Except (Path × Fault) Tree :=
  (tree.write (fixedPath source) text).mapError (fixedPath source, ·)

end StrategyMend.Files
