import StrategyMend.Command.Run
import StrategyMend.Execution.Shell.Run

/-!
# The program

The names of the files around an invocation's paths are gathered into a tree, and after them the texts
of the scripts found there. The invocation is carried out on that tree. Then its files are written and
its output is printed.
-/

set_option autoImplicit false

namespace StrategyMend.Main

open Command Files Pipeline

/-! ## Gathering files -/

/-- Whether anything stands at a path. -/
def isThere (path : Path) : IO Bool := do
  try
    discard (IO.FS.realPath path)
    return true
  catch _ => return false

/-- The names in a directory, without those that are links; none if the path leads to no directory. -/
def namesIn? (path : Path) : IO (Option (List String)) := do
  try
    let directory ← IO.FS.realPath path
    let entries ← directory.readDir
    let names ← entries.toList.filterMapM fun entry => do
      try
        let target ← IO.FS.realPath entry.path
        if target = entry.path then return some entry.fileName else return none
      catch _ => return none
    return some names
  catch _ => return none

/-- What the file at a path holds. -/
def contentAt (path : Path) : IO Content := do
  try
    let bytes ← IO.FS.readBinFile path
    return ((String.fromUTF8? bytes).map Content.text).getD .binary
  catch _ => return .closed

/-- The names of the files that say what is left out. -/
def ruleNames : List String :=
  [DirectoryRules.ownName, DirectoryRules.generalName, DirectoryRules.repositoryName, "exclude"]

/-- The number of directories inside each other that are looked into. -/
def deepest : Nat := 1024

/-- The file or directory at a path, with at most `depth` directories inside each other. Of the files
only those that say what is left out are read. -/
def nodeAt? (name : String) : (depth : Nat) → Path → IO (Option Node)
  | 0, _ => return none
  | depth + 1, path => do
    match ← namesIn? path with
    | some names =>
      let entries ← names.filterMapM fun name => do
        return (← nodeAt? name depth (path.child name)).map (name, ·)
      return some (.directory entries)
    | none =>
      if !(← isThere path) then return none
      else if ruleNames.contains name then return some (.file (← contentAt path))
      else return some (.file .closed)

/-- The path of the names from the root. -/
def pathOf (names : List String) : Path := "/" ++ "/".intercalate names

/-- Enters what stands at a path under a directory, a file with what it holds. -/
def enterPlace (names : List String) (root : Node) (place : List String) : IO Node := do
  let path := pathOf (names ++ place)
  if (← namesIn? path).isSome then return Node.set .empty (names ++ place) root
  else if ← isThere path then return Node.set (.file (← contentAt path)) (names ++ place) root
  else return root

/-- Enters a directory with nothing but what says which of its entries are left out. -/
def enterRules (root : Node) (names : List String) : IO Node :=
  let places :=
    [[DirectoryRules.ownName], [DirectoryRules.generalName], [DirectoryRules.repositoryName],
      [DirectoryRules.repositoryMark], DirectoryRules.excludedNames]
  places.foldlM (enterPlace names) (Node.set .empty names root)

/-- Enters what the parts of a path lead to, with the directories on the way. The directories passed
so far are `reached`, in reverse. -/
def enterPath (root : Node) (reached : List String) : List String → IO Node
  | [] => do
    let names := reached.reverse
    match ← nodeAt? (names.getLast?.getD "") deepest (pathOf names) with
    | some node => return Node.set node names root
    | none => return root
  | segment :: rest => do
    let names := reached.reverse
    let around ←
      if (root.at? names).isSome then pure root
      else
        match ← namesIn? (pathOf names) with
        | some _ => enterRules root names
        | none =>
          if ← isThere (pathOf names) then pure (Node.set (.file .closed) names root)
          else pure root
    if Path.isIdle segment then enterPath around reached rest
    else if segment = ".." then enterPath around (reached.drop 1) rest
    else enterPath around (segment :: reached) rest

/-- Reads the file that a path leads to. -/
def fill (tree : Tree) (path : Path) : IO Tree := do
  match tree.resolve path with
  | .error _ => return tree
  | .ok names =>
    match tree.root.at? names with
    | some (.file _) =>
      return { tree with root := Node.set (.file (← contentAt path)) names tree.root }
    | _ => return tree

/-- The files around the paths of an invocation. -/
def gather (invocation : Invocation) : IO Tree := do
  let working := (Path.segments (← IO.currentDir).toString).filter fun name => name ≠ ""
  let report :=
    match invocation.action with
    | .pipeline options => options.report.toList
    | _ => []
  let configs := invocation.config.toList
  let empty : Tree := ⟨.empty, working⟩
  let around ← (List.range (working.length + 1)).foldlM
    (fun root depth => enterRules root (working.take depth)) empty.root
  let root ← (configs ++ report ++ invocation.paths).foldlM
    (fun root path => enterPath root (empty.start path) path.segments) around
  let tree := { empty with root }
  (configs ++ discover tree invocation.paths).foldlM fill tree

/-! ## Carrying out -/

/-- The result for an input, with the time that it took. -/
def timed (pipeline : Pipeline) (input : Input) : IO UnitResult := do
  let start ← IO.monoNanosNow
  let result ← IO.lazyPure fun _ => pipeline.processInput input
  let stop ← IO.monoNanosNow
  return { result with processingMicros := (stop - start) / 1000 }

/-- The report for the scripts of a job, with times. -/
def timedReport (job : Job) : IO BatchReport :=
  if job.usesPipeline then do
    let results ← job.inputs.mapM (timed (job.pipeline Execution.Shell.launch))
    return ⟨results⟩
  else return ⟨[]⟩

/-- Carries out an invocation on a tree. -/
def carryOut (tree : Tree) (invocation : Invocation) : IO Result := do
  match prepare tree invocation with
  | .error abort => return .ofAbort "" [] abort
  | .ok job => return job.result tree (← timedReport job)

/-! ## Printing -/

/-- How the program is used. -/
def usage : String :=
  "Validate and repair generated trading-strategy classes\n\n" ++
  "Usage: stratguard [--config FILE] [--log-filter FILTER] ACTION [OPTIONS] PATH...\n\n" ++
  "Actions:\n" ++
  "  validate  Report structural defects without changing anything\n" ++
  "              --json             Print reports as JSON\n" ++
  "  fix       Generate fixes and apply the safe ones\n" ++
  "              --threshold NUMBER Minimum confidence for a fix to be applied\n" ++
  "              --write            Write each repaired script next to its source\n" ++
  "  pipeline  Parse, validate, repair and optionally run every script\n" ++
  "              --threshold NUMBER Minimum confidence for a fix to be applied\n" ++
  "              --no-apply         Propose fixes without applying them\n" ++
  "              --execute          Run each script with the configured command\n" ++
  "              --recover          Repair scripts that do not parse by their lines\n" ++
  "              --parallel         Process scripts in parallel\n" ++
  "              --report FILE      Write the report as JSON\n" ++
  "              --write-fixed      Write each repaired script next to its source\n"

/-- Writes the files of a result and prints its output. -/
def publish (result : Result) : IO UInt32 := do
  for (path, text) in result.written do
    IO.FS.writeFile path text
  IO.print result.output
  if let some message := result.error then IO.eprintln ("error: " ++ message)
  return result.exitCode.toUInt32

end StrategyMend.Main

/-- Carries out what the arguments ask for. -/
def main (arguments : List String) : IO UInt32 := do
  match StrategyMend.Command.Invocation.ofArguments arguments with
  | .error .help =>
    IO.print StrategyMend.Main.usage
    return 0
  | .error .version =>
    IO.println StrategyMend.Command.versionLine
    return 0
  | .error .misuse =>
    IO.eprint StrategyMend.Main.usage
    return 2
  | .ok invocation =>
    StrategyMend.Main.publish
      (← StrategyMend.Main.carryOut (← StrategyMend.Main.gather invocation) invocation)
