/-!
# Severities

The severity of an issue, from low to critical. Severities are compared by their rank.
-/

set_option autoImplicit false

namespace StrategyMend

/-- How grave an issue is. -/
inductive Severity where
  | low
  | medium
  | high
  | critical
  deriving DecidableEq

namespace Severity

/-- The position in the order from low to critical. -/
def rank : Severity → Nat
  | .low => 0
  | .medium => 1
  | .high => 2
  | .critical => 3

instance : LE Severity := ⟨fun a b => a.rank ≤ b.rank⟩

instance (a b : Severity) : Decidable (a ≤ b) := inferInstanceAs (Decidable (a.rank ≤ b.rank))

/-- The severities, gravest first, as reports list them. -/
def all : List Severity := [.critical, .high, .medium, .low]

/-- The name of a severity in reports. -/
def name : Severity → String
  | .low => "LOW"
  | .medium => "MEDIUM"
  | .high => "HIGH"
  | .critical => "CRITICAL"

/-- The severity with exactly this name. -/
def ofName? (text : String) : Option Severity := all.find? fun severity => severity.name == text

/-- The severity with this name in any mixture of capital and small ASCII letters. -/
def parse? (text : String) : Option Severity :=
  ofName? (String.ofList (text.toList.map Char.toUpper))

/-- The graver of two severities. -/
def max (a b : Severity) : Severity := if a ≤ b then b else a

/-- The less grave of two severities. -/
def min (a b : Severity) : Severity := if a ≤ b then a else b

/-- The gravest of some severities. -/
def maximum? : List Severity → Option Severity
  | [] => none
  | first :: rest => some (rest.foldl max first)

/-- The least grave of some severities. -/
def minimum? : List Severity → Option Severity
  | [] => none
  | first :: rest => some (rest.foldl min first)

end Severity

end StrategyMend
