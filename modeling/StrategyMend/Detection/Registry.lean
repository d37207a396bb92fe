import StrategyMend.Config.Basic
import StrategyMend.Issue.Basic
import StrategyMend.Source.Script

/-!
# Detectors and their registry

A detector looks at one script and gives the issues it finds, or breaks down and gives none. Some
detectors look at the lines only; the others need the tree and do not run without one.

A registry holds detectors in the order in which they were registered, which is the order of their
issues. Detectors are switched off and on by their ids; that also holds for detectors that are
registered later.
-/

set_option autoImplicit false

namespace StrategyMend.Detection

open Source

/-- What a detector looks at. -/
inductive Mode where
  /-- The tree of a script that parses. -/
  | tree
  /-- The lines of any script. -/
  | text
  deriving DecidableEq

/-- A script together with what is looked for. -/
structure Context where
  script : Script
  config : Config.Validator

/-- A way to find issues in a script. -/
structure Detector where
  id : String
  mode : Mode
  /-- The issues found; none if the detector breaks down. -/
  detect : Context → Option (List Issue)

/-- Whether a detector can look at a script. -/
def Detector.appliesTo (detector : Detector) (context : Context) : Bool :=
  match detector.mode with
  | .tree => context.script.tree?.isSome
  | .text => true

/-- Detectors in the order of their registration, and the ids of those that are switched off. -/
structure Registry where
  detectors : List Detector
  disabled : List String

namespace Registry

/-- No detectors. -/
def empty : Registry := ⟨[], []⟩

/-- Adds a detector after all others. -/
def register (registry : Registry) (detector : Detector) : Registry :=
  { registry with detectors := registry.detectors ++ [detector] }

/-- Switches off the detectors with an id. -/
def disable (registry : Registry) (id : String) : Registry :=
  { registry with disabled := id :: registry.disabled }

/-- Switches on the detectors with an id. -/
def enable (registry : Registry) (id : String) : Registry :=
  { registry with disabled := registry.disabled.filter (· ≠ id) }

/-- Whether a detector is switched on. -/
def isEnabled (registry : Registry) (detector : Detector) : Bool :=
  !registry.disabled.contains detector.id

/-- The issues of the detectors that are switched on, apply to the script and satisfy `keep`. -/
def runFiltered (registry : Registry) (keep : Detector → Bool) (context : Context) : List Issue :=
  (registry.detectors.filter fun detector =>
    registry.isEnabled detector && keep detector && detector.appliesTo context).flatMap
      fun detector => (detector.detect context).getD []

/-- The issues of all detectors. -/
def runAll (registry : Registry) (context : Context) : List Issue :=
  registry.runFiltered (fun _ => true) context

/-- The issues of the detectors of one mode. -/
def runMode (registry : Registry) (mode : Mode) (context : Context) : List Issue :=
  registry.runFiltered (fun detector => detector.mode == mode) context

/-- The number of detectors. -/
def count (registry : Registry) : Nat := registry.detectors.length

/-- The number of detectors that are switched on. -/
def enabledCount (registry : Registry) : Nat := registry.detectors.countP registry.isEnabled

/-- The ids of the detectors. -/
def ids (registry : Registry) : List String := registry.detectors.map Detector.id

end Registry

/-- An issue on a row, counted from zero, with that row as its snippet. -/
def issueAt (context : Context) (row : Nat) (severity : Severity) (category : Category)
    (message suggestion : String) : Issue where
  severity := severity
  category := category
  line := row + 1
  message := message
  snippet := context.script.snippet? row
  suggestion := some suggestion

end StrategyMend.Detection
