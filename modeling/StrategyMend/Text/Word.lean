import StrategyMend.Text.CharacterRanges

/-!
# Word characters

A word character is a letter, mark, decimal digit, connector or joiner, after the definition of a
word in the Unicode regular expression guidelines. A keyword stands at the start of a text only if
no word character follows it. Names are made of letters and numbers of any kind.
-/

set_option autoImplicit false

namespace StrategyMend.Text

/-- Letters, digits and the underscore of ASCII. -/
def isAsciiWord (c : Char) : Bool := c.isAlphanum || c = '_'

/-- Symbols that count as alphabetic: the circled, squared and negative Latin letters. -/
def circledLetterRanges : List (Nat × Nat) :=
  [(0x24B6, 0x24E9), (0x1F130, 0x1F149), (0x1F150, 0x1F169), (0x1F170, 0x1F189)]

/-- Whether a character can be part of a word. -/
def isWordChar (c : Char) : Bool :=
  let code := c.toNat
  if code < 0x80 then isAsciiWord c
  else
    inRanges letterRanges code || inRanges markRanges code || inRanges digitRanges code ||
      inRanges enclosingRanges code || inRanges connectorRanges code ||
      inRanges circledLetterRanges code || code = 0x200C || code = 0x200D

/-- Whether a character can be part of a name: it is alphabetic, a number, or the underscore. -/
def isNamePart (c : Char) : Bool :=
  let code := c.toNat
  if code < 0x80 then isAsciiWord c
  else
    inRanges letterRanges code || inRanges alphabeticMarkRanges code ||
      inRanges circledLetterRanges code || inRanges digitRanges code ||
      inRanges otherNumberRanges code

/-- Whether a word that ends right before `rest` ends there: no word character follows. -/
def endsWord : List Char → Bool
  | [] => true
  | c :: _ => !isWordChar c

/-- What follows the characters `start`, if the text begins with them. -/
def dropStart? : List Char → List Char → Option (List Char)
  | [], rest => some rest
  | _ :: _, [] => none
  | s :: start, c :: rest => if s = c then dropStart? start rest else none

/-- What follows the whole word `word` at the start of a text. -/
def dropWord? (word text : List Char) : Option (List Char) :=
  (dropStart? word text).filter endsWord

end StrategyMend.Text
