/-!
# Blank characters and trimming

A character is blank when it has the Unicode property `White_Space`. Trimming drops blank characters
from one end or from both. Indentation is narrower: only spaces and tabs indent a line, see
`StrategyMend.Source.Indentation`.
-/

set_option autoImplicit false

namespace StrategyMend.Text

/-- The property `White_Space` of Unicode. -/
def isBlank (c : Char) : Bool :=
  let code := c.toNat
  (9 ≤ code && code ≤ 13) || code = 0x20 || code = 0x85 || code = 0xA0 || code = 0x1680 ||
    (0x2000 ≤ code && code ≤ 0x200A) || code = 0x2028 || code = 0x2029 || code = 0x202F ||
    code = 0x205F || code = 0x3000

/-- Drops the longest run of characters at the end that satisfy `p`. -/
def dropEndWhile (p : Char → Bool) (cs : List Char) : List Char :=
  (cs.reverse.dropWhile p).reverse

namespace Chars

/-- The characters from the first that is not blank. -/
def trimStart (cs : List Char) : List Char := cs.dropWhile isBlank

/-- The characters up to the last that is not blank. -/
def trimEnd (cs : List Char) : List Char := dropEndWhile isBlank cs

/-- The characters between the first and the last that are not blank. -/
def trim (cs : List Char) : List Char := trimEnd (trimStart cs)

end Chars

/-- The text without the blank characters at its start. -/
def trimStart (text : String) : String := String.ofList (Chars.trimStart text.toList)

/-- The text without the blank characters at its end. -/
def trimEnd (text : String) : String := String.ofList (Chars.trimEnd text.toList)

/-- The text without the blank characters at both ends. -/
def trim (text : String) : String := String.ofList (Chars.trim text.toList)

/-- A text of blank characters only. -/
def isBlankText (text : String) : Bool := text.toList.all isBlank

end StrategyMend.Text
