import StrategyMend.Error
import StrategyMend.Json.Basic

/-!
# Outcomes of runs

A run of a strategy ends in success, with metrics that the strategy reported, or in a failure of one of
three kinds. A runner is a function from the code to the outcome. A guarded runner also gives an
outcome where the code takes too long or breaks down the run itself.
-/

set_option autoImplicit false

namespace StrategyMend.Execution

/-- Why a run failed. -/
inductive FailureKind where
  | runtimeException
  | runtimeTimeout
  | spawnFailure
  deriving DecidableEq

namespace FailureKind

/-- The kinds of failures. -/
def all : List FailureKind := [.runtimeException, .runtimeTimeout, .spawnFailure]

/-- The name of a kind in reports. -/
def name : FailureKind → String
  | .runtimeException => "runtime-exception"
  | .runtimeTimeout => "runtime-timeout"
  | .spawnFailure => "spawn-failure"

/-- The kind with exactly this name. -/
def ofName? (text : String) : Option FailureKind := all.find? fun kind => kind.name == text

end FailureKind

/-- The kind of failure that an error leads to. -/
def failureKind : RunError → FailureKind
  | .timeout _ => .runtimeTimeout
  | .exception _ => .runtimeException
  | .spawn _ => .spawnFailure

/-- What comes of a run. -/
inductive Outcome where
  | success (metrics : Json)
  | failure (kind : FailureKind) (message : String)

/-- A way to run code. -/
abbrev Runner := String → Outcome

namespace Outcome

/-- The outcome of a run that ends in an error. -/
def ofError (error : RunError) : Outcome := .failure (failureKind error) error.message

/-- The outcome in a report. -/
def toJson : Outcome → Json
  | .success metrics => .object [("status", .string "success"), ("metrics", metrics)]
  | .failure kind message =>
    .object
      [("status", .string "failure"), ("kind", .string kind.name), ("message", .string message)]

end Outcome

/-! ## Guarded runs -/

/-- How a run without a guard ends. -/
inductive Ending where
  | finished (outcome : Outcome)
  /-- The run broke down, perhaps with a message. -/
  | brokeDown (message : Option String)

/-- A run without a guard: how it ends, and after how many milliseconds. -/
structure Attempt where
  ending : Ending
  elapsedMs : Nat

/-- The outcome of an attempt that may take so many milliseconds. -/
def Attempt.guarded (limitMs : Nat) (attempt : Attempt) : Outcome :=
  if limitMs ≤ attempt.elapsedMs then .ofError (.timeout limitMs)
  else
    match attempt.ending with
    | .finished outcome => outcome
    | .brokeDown message => .ofError (.exception (message.getD "runner panicked"))

end StrategyMend.Execution
