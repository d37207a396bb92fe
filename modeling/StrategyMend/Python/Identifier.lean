import StrategyMend.Text.Word

/-!
# Identifiers

An identifier begins with an underscore or a character of the Unicode property `XID_Start` and goes
on with characters of `XID_Continue`.
-/

set_option autoImplicit false

namespace StrategyMend.Python

open Text

/-- Characters outside the letters that may begin an identifier. -/
def otherStartRanges : List (Nat × Nat) := [(0x1885, 0x1886), (0x2118, 0x2118), (0x212E, 0x212E)]

/-- Characters outside letters, marks, digits and connectors that may continue an identifier. -/
def otherContinueRanges : List (Nat × Nat) :=
  [(0xB7, 0xB7), (0x387, 0x387), (0x1369, 0x1371), (0x19DA, 0x19DA), (0x2118, 0x2118),
    (0x212E, 0x212E)]

/-- Letters whose compatibility form is no identifier. -/
def excludedRanges : List (Nat × Nat) :=
  [(0x37A, 0x37A), (0x2E2F, 0x2E2F), (0xFC5E, 0xFC63), (0xFDFA, 0xFDFB), (0xFE70, 0xFE70),
    (0xFE72, 0xFE72), (0xFE74, 0xFE74), (0xFE76, 0xFE76), (0xFE78, 0xFE78), (0xFE7A, 0xFE7A),
    (0xFE7C, 0xFE7C), (0xFE7E, 0xFE7E)]

/-- Letters that may continue but not begin an identifier. -/
def continueOnlyRanges : List (Nat × Nat) := [(0xE33, 0xE33), (0xEB3, 0xEB3), (0xFF9E, 0xFF9F)]

/-- Whether an identifier may begin with the character. -/
def isIdentifierStart (c : Char) : Bool :=
  let code := c.toNat
  if code < 0x80 then c.isAlpha || c = '_'
  else
    (inRanges letterRanges code && !inRanges excludedRanges code &&
      !inRanges continueOnlyRanges code) || inRanges otherStartRanges code

/-- Whether an identifier may go on with the character. -/
def isIdentifierPart (c : Char) : Bool :=
  let code := c.toNat
  if code < 0x80 then isAsciiWord c
  else
    ((inRanges letterRanges code || inRanges markRanges code || inRanges digitRanges code ||
      inRanges connectorRanges code) && !inRanges excludedRanges code) ||
      inRanges otherContinueRanges code

end StrategyMend.Python
