import StrategyMend.Config.Basic
import StrategyMend.Execution.Outcome
import StrategyMend.Json.Reader
import StrategyMend.Text.Lines

/-!
# Runs in processes

A strategy is run by handing its code to an interpreter on the standard input. The interpreter reports
metrics as a JSON object on the last line of its output that is not blank. If it fails, the last line of
its error output that is not blank says why. Who starts the interpreter is left open: a launcher is any
function from a command and an input to what the process leaves behind.
-/

set_option autoImplicit false

namespace StrategyMend.Execution

open Text

/-- How a process ends. -/
inductive ExitStatus where
  | code (n : Nat)
  | signal (n : Nat)
  deriving DecidableEq

namespace ExitStatus

/-- The names of the signals that end a process. -/
def signalNames : List (Nat × String) :=
  [(1, "SIGHUP"), (2, "SIGINT"), (3, "SIGQUIT"), (4, "SIGILL"), (5, "SIGTRAP"), (6, "SIGABRT"),
    (7, "SIGBUS"), (8, "SIGFPE"), (9, "SIGKILL"), (10, "SIGUSR1"), (11, "SIGSEGV"),
    (12, "SIGUSR2"), (13, "SIGPIPE"), (14, "SIGALRM"), (15, "SIGTERM"), (16, "SIGSTKFLT"),
    (24, "SIGXCPU"), (25, "SIGXFSZ"), (26, "SIGVTALRM"), (27, "SIGPROF"), (29, "SIGIO"),
    (30, "SIGPWR"), (31, "SIGSYS")]

/-- The name of a signal. -/
def signalName? (n : Nat) : Option String :=
  (signalNames.find? fun entry => entry.1 = n).map Prod.snd

/-- Whether the process succeeded. -/
def isSuccess (status : ExitStatus) : Bool := status = .code 0

/-- The wording of a status. -/
def describe : ExitStatus → String
  | .code n => "exit status: " ++ toString n
  | .signal n =>
    "signal: " ++ toString n ++ ((signalName? n).map fun name => " (" ++ name ++ ")").getD ""

end ExitStatus

/-- What a process leaves behind. -/
structure Finished where
  status : ExitStatus
  output : String
  errors : String
  elapsedMs : Nat

/-- A way to start processes: from a program, its arguments and its input to what the process leaves
behind, or why it could not be started. -/
abbrev Launcher := (program : String) → (arguments : List String) → (input : String) →
  Except String Finished

/-- The last line that is not blank, without blank characters around it. -/
def lastLine? (text : String) : Option String :=
  ((splitLines text).map trim).reverse.find? fun line => line ≠ ""

/-- The metrics in an output; none are reported if its last line is not an object. -/
def metricsOf (output : String) : Json :=
  (((lastLine? output).bind Json.read?).filter Json.isObject).getD (.object [])

/-- Why a process failed. -/
def failureReason (finished : Finished) : String :=
  (lastLine? finished.errors).getD ("interpreter exited with " ++ finished.status.describe)

/-- The outcome of a process that ended by itself. -/
def Finished.outcome (finished : Finished) : Outcome :=
  if finished.status.isSuccess then .success (metricsOf finished.output)
  else .ofError (.exception (failureReason finished))

/-- The number of kibibytes in a mebibyte. -/
def kibibytes : Nat := 1024

/-- A command that starts a program under a limit of its memory, in mebibytes. -/
def limitedCommand (limitMb : Nat) (command : List String) : List String :=
  ["sh", "-c", "ulimit -v " ++ toString (limitMb * kibibytes) ++ " && exec \"$0\" \"$@\""] ++ command

/-- Runs code in a process. -/
def processRunner (launch : Launcher) (config : Config.Runner) : Runner := fun code =>
  let command :=
    match config.memoryLimitMb with
    | some limit => limitedCommand limit config.command
    | none => config.command
  match config.command, command with
  | [], _ => .ofError (.spawn "empty runner command")
  | _, [] => .ofError (.spawn "empty runner command")
  | _, program :: arguments =>
    match launch program arguments code with
    | .error reason => .ofError (.spawn (" ".intercalate config.command ++ ": " ++ reason))
    | .ok finished =>
      (Attempt.mk (.finished finished.outcome) finished.elapsedMs).guarded config.timeoutMs

end StrategyMend.Execution
