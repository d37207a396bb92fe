import StrategyMend.Command.Invocation
import StrategyMend.Config.Toml
import StrategyMend.Execution.Process
import StrategyMend.Files.Discovery
import StrategyMend.Json.Writer
import StrategyMend.Pipeline.Listing

/-!
# Runs of the program

An invocation becomes a job: the configuration with the options applied, and the scripts as they were
read. What the program prints and writes, and its exit code, follow from the job and the results for
its scripts. The code is zero if every script succeeds, one if one fails, and two if the program cannot
go on.
-/

set_option autoImplicit false

namespace StrategyMend.Command

open Files Pipeline

/-- Something that stops the program. -/
structure Abort where
  message : String

namespace Abort

/-- The program stops while it does something. -/
def during (activity : String) (reason : String) : Abort := ⟨activity ++ ": " ++ reason⟩

/-- A file cannot be written. The reason stands in the message and again as its cause. -/
def unwritable (path : Path) (fault : Fault) : Abort :=
  during (PipelineError.outputUnwritable path fault.message).message fault.message

end Abort

/-! ## Jobs -/

/-- What is to be done, with everything read that it needs. -/
structure Job where
  config : Config
  inputs : List Input
  action : Action

/-- Reads the configuration that an invocation names. -/
def configOf (tree : Tree) (config : Option Path) : Except Abort Config :=
  match config with
  | none => .ok .standard
  | some path =>
    let loaded : Except ConfigError Config :=
      match tree.read path with
      | .error fault => .error (.unreadable path fault.message)
      | .ok text => Config.ofToml text
    loaded.mapError fun error => .during ("loading config " ++ path) error.message

/-- The pipeline's section with an action's options applied. -/
def applyOptions (action : Action) (section_ : Config.Pipeline) : Config.Pipeline :=
  match action with
  | .validate _ => section_
  | .fix threshold write =>
    { section_ with
      confidenceThreshold := threshold.getD section_.confidenceThreshold
      autoApply := true
      execute := false
      writeFixed := section_.writeFixed || write }
  | .pipeline options =>
    { section_ with
      confidenceThreshold := options.threshold.getD section_.confidenceThreshold
      autoApply := section_.autoApply && !options.noApply
      execute := section_.execute || options.execute
      recoverSyntaxErrors := section_.recoverSyntaxErrors || options.recover
      parallel := section_.parallel || options.parallel
      writeFixed := section_.writeFixed || options.writeFixed }

/-- The configuration with an action's options applied. Only options can make it invalid. -/
def effectiveConfig (action : Action) (config : Config) : Except Abort Config :=
  let applied := { config with pipeline := applyOptions action config.pipeline }
  match action with
  | .validate _ => .ok applied
  | _ => applied.checked.mapError fun error => .during "invalid option" error.message

/-- Reads everything that an invocation needs. -/
def prepare (tree : Tree) (invocation : Invocation) : Except Abort Job := do
  let config ← effectiveConfig invocation.action (← configOf tree invocation.config)
  let sources := discover tree invocation.paths
  if sources.isEmpty then .error ⟨"no Python sources found under the given paths"⟩
  else return ⟨config, sources.map (load tree), invocation.action⟩

namespace Job

/-- Whether the job's scripts may be run. -/
def runsScripts (job : Job) : Bool :=
  match job.action with
  | .pipeline _ => job.config.pipeline.execute
  | _ => false

/-- Whether the job's scripts go through the pipeline. -/
def usesPipeline (job : Job) : Bool :=
  match job.action with
  | .validate _ => false
  | _ => true

/-- The pipeline of a job. -/
def pipeline (launch : Execution.Launcher) (job : Job) : Pipeline :=
  { Pipeline.standard job.config with
    runner :=
      if job.runsScripts then some (Execution.processRunner launch job.config.runner) else none }

/-- The scripts of a job as only validated. -/
def checked (job : Job) : List Listing.Checked :=
  let pipeline := Pipeline.standard job.config
  job.inputs.map (Listing.Checked.ofInput pipeline.parse pipeline.validator)

end Job

/-! ## Results -/

/-- What a run leaves behind. -/
structure Result where
  exitCode : Nat
  output : String
  /-- Why the program stopped, if it did. -/
  error : Option String
  /-- The files written, in order. -/
  written : List (Path × String)

namespace Result

/-- The result of a run that stops. -/
def ofAbort (output : String) (written : List (Path × String)) (abort : Abort) : Result :=
  ⟨2, output, some abort.message, written⟩

/-- The result of a run that goes to its end. -/
def ofVerdict (succeeded : Bool) (output : String) (written : List (Path × String)) : Result :=
  ⟨if succeeded then 0 else 1, output, none, written⟩

end Result

/-- Writes files one after the other. The result is what was written, and what stopped the writing. -/
def writeAll (tree : Tree) : List (Path × String) → List (Path × String) × Option Abort
  | [] => ([], none)
  | (path, text) :: rest =>
    match tree.write path text with
    | .error fault => ([], some (.unwritable path fault))
    | .ok after =>
      let (written, stopped) := writeAll after rest
      ((path, text) :: written, stopped)

/-- The repaired scripts that are to be written. -/
def repairedFiles (config : Config) (report : BatchReport) : List (Path × String) :=
  if config.pipeline.writeFixed then
    report.results.filterMap fun result =>
      result.fixedText.map fun text => (fixedPath result.name, text)
  else []

/-- The result of reporting issues. -/
def validateResult (job : Job) (json : Bool) (checked : List Listing.Checked) : Result :=
  let output :=
    if json then (Json.list checked Listing.Checked.toJson).pretty ++ "\n"
    else Listing.ofChecked checked
  .ofVerdict (checked.all (Listing.Checked.passes job.config.pipeline.blockingSeverity)) output []

/-- The result of listing fixes. The listing is printed before files are written. -/
def fixResult (tree : Tree) (job : Job) (report : BatchReport) : Result :=
  let output := Listing.ofFixes report
  match writeAll tree (repairedFiles job.config report) with
  | (written, some abort) => .ofAbort output written abort
  | (written, none) => .ofVerdict report.allSucceeded output written

/-- The report of a batch as a file. -/
def reportFiles (options : PipelineOptions) (report : BatchReport) : List (Path × String) :=
  (options.report.map fun path => (path, report.toJson.pretty)).toList

/-- The result of the whole pipeline. Files are written before anything is printed. -/
def pipelineResult (tree : Tree) (job : Job) (options : PipelineOptions) (report : BatchReport) :
    Result :=
  let repaired := repairedFiles job.config report
  match writeAll tree repaired with
  | (written, some abort) => .ofAbort "" written abort
  | (written, none) =>
    match options.report with
    | none => .ofVerdict report.allSucceeded (Listing.ofBatch report) written
    | some path =>
      match writeAll tree (repaired ++ reportFiles options report) with
      | (_, some abort) =>
        .ofAbort "" written (.during ("writing report " ++ path) abort.message)
      | (all, none) => .ofVerdict report.allSucceeded (Listing.ofBatch report) all

/-- The result of a job, given the report for its scripts; only the report of issues does without
one. -/
def Job.result (tree : Tree) (job : Job) (report : BatchReport) : Result :=
  match job.action with
  | .validate json => validateResult job json job.checked
  | .fix _ _ => fixResult tree job report
  | .pipeline options => pipelineResult tree job options report

/-- The report for the scripts of a job. -/
def Job.report (launch : Execution.Launcher) (job : Job) : BatchReport :=
  if job.usesPipeline then (job.pipeline launch).processBatch job.inputs else ⟨[]⟩

end StrategyMend.Command
