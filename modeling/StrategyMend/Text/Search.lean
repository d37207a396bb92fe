/-!
# Searching in texts
-/

set_option autoImplicit false

namespace StrategyMend.Text

/-- Whether the characters `needle` occur in a text without gaps. -/
def Chars.occursIn (needle : List Char) : List Char → Bool
  | [] => needle.isEmpty
  | c :: rest => needle.isPrefixOf (c :: rest) || occursIn needle rest

/-- Whether one text occurs in another. -/
def occursIn (needle text : String) : Bool := Chars.occursIn needle.toList text.toList

end StrategyMend.Text
