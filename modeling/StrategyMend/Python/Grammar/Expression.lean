import StrategyMend.Text.Blank
import StrategyMend.Python.Grammar.Reader

/-!
# The grammar of expressions

An expression is a chain of operands joined by operators. After `and`, `or`, `not`, `else` and the
like any operand may follow, even a `lambda` or a `not`; after arithmetic and comparison operators
only a primary one may. Precedence does not matter for the questions asked of a tree, so a chain is
kept flat.

Readers of nested expressions take the reader of a whole expression as an argument (`Nested`), and
`expression` closes the circle with a bound on the depth of nesting: the length of the text.
-/

set_option autoImplicit false

namespace StrategyMend.Python

open Reader

/-- What may follow an expression. -/
structure Follow where
  /-- What a line break after the expression means. -/
  place : Place
  /-- Whether `if` continues the expression to a conditional one. -/
  conditional : Bool := true
  /-- Whether `as` continues the expression. -/
  aliased : Bool := true

/-- An expression that only its surroundings end. -/
def Follow.plain (place : Place) : Follow := ⟨place, true, true⟩

/-- The reader of an expression, given what line breaks mean before it and after it. -/
abbrev Nested := Place → Follow → Reader Expression

/-- Arithmetic operators and comparisons that are marks. -/
def operatorMarks : List String :=
  ["+", "-", "*", "@", "/", "%", "//", "**", "|", "&", "^", "<<", ">>", "<", "<=", "==", "!=", ">=",
    ">", "<>"]

/-- Words that are values and never names. -/
def constantWords : List String := ["True", "False", "None"]

/-- Words that begin an operand of their own kind. -/
def operandWords : List String := ["not", "lambda"]

/-- Words that join or end operands. -/
def joiningWords : List String :=
  ["and", "or", "not", "in", "is", "if", "else", "as", "for", "from"]

/-! ## Strings -/

/-- What the reading of a string's content has found. -/
structure StringState where
  /-- Whether the present piece of content has a character. -/
  filled : Bool
  /-- The expressions interpolated so far, last first. -/
  interpolated : List Expression
  /-- Whether the string is closed. -/
  closed : Bool

/-- Whether a text begins with `count` hexadecimal digits. -/
def beginsWithHex (count : Nat) (text : List Char) : Bool :=
  let digits := text.take count
  digits.length = count &&
    digits.all fun c => c.isDigit || ('a' ≤ c && c ≤ 'f') || ('A' ≤ c && c ≤ 'F')

/-- The length of the escape after a backslash, and the line breaks in it; none if the backslash
stands for itself. -/
def escapeLength (text : List Char) : Option (Nat × Nat) :=
  match text with
  | '\n' :: _ => some (1, 1)
  | '\r' :: '\n' :: _ => some (2, 1)
  | 'N' :: '{' :: name =>
    let inside := name.takeWhile (· ≠ '}')
    if !inside.isEmpty && inside.length < name.length then
      some (inside.length + 3, inside.count '\n')
    else none
  | c :: rest =>
    if "\"'abfrntv\\".toList.contains c then some (1, 0)
    else if c = 'u' && beginsWithHex 4 rest then some (5, 0)
    else if c = 'U' && beginsWithHex 8 rest then some (9, 0)
    else if c = 'x' && beginsWithHex 2 rest then some (3, 0)
    else if c.isDigit then some (((c :: rest).take 3).takeWhile Char.isDigit |>.length, 0)
    else none
  | [] => none

/-- Passes a backslash in a raw string, with the quote or backslash and the line break after it. -/
def passRawEscape (quote : Char) (text : List Char) : Reader Unit :=
  match text with
  | c :: rest =>
    let count := if c = quote || c = '\\' then 1 else 0
    match if count = 1 then rest else text with
    | '\n' :: _ => advanceRows (count + 2) 1
    | '\r' :: '\n' :: _ => advanceRows (count + 3) 1
    | '\r' :: _ => advance (count + 2)
    | _ => advance (count + 1)
  | [] => advance 1

/-- Reads one piece of a string's content. A line break ends a string with single quotes, except at
the start of a piece. -/
def stringPiece (interpolation : Reader (List Expression)) (form : StringForm) (state : StringState) :
    Reader (Option StringState) := do
  if state.closed then pure none
  else
    match (← get).rest with
    | [] => failure
    | c :: rest =>
      if form.format && c = '{' then
        if rest.head? = some '{' then
          advance 2
          pure (some { state with filled := false })
        else
          advance 1
          let found ← interpolation
          pure (some { state with filled := false, interpolated := found.reverse ++ state.interpolated })
      else if form.format && c = '}' then
        if rest.head? = some '}' then
          advance 2
          pure (some { state with filled := false })
        else failure
      else if c = '\\' then
        if form.raw then
          passRawEscape form.quote rest
          pure (some state)
        else if form.bytes && (rest.head?.any fun d => d = 'N' || d = 'u' || d = 'U') then
          advanceRows 3 (if rest[1]? = some '\n' then 1 else 0)
          pure (some { state with filled := true })
        else
          match escapeLength rest with
          | some (length, rows) =>
            advanceRows (length + 1) rows
            pure (some { state with filled := false })
          | none =>
            advance 1
            pure (some { state with filled := false })
      else if c = form.quote then
        if form.triple then
          if rest.take 2 = [c, c] then
            advance 3
            pure (some { state with closed := true })
          else
            advance 1
            pure (some { state with filled := true })
        else
          advance 1
          pure (some { state with closed := true })
      else if c = '\n' then
        if state.filled && !form.triple then failure
        else
          advanceRows 1 1
          pure (some { state with filled := true })
      else if c = '\x00' then failure
      else
        advance 1
        pure (some { state with filled := true })

/-- Reads a string after its opening quote. -/
def stringBody (interpolation : Reader (List Expression)) (form : StringForm) : Reader Expression := do
  let state ← iterate (stringPiece interpolation form) ⟨false, [], false⟩
  pure (.string state.interpolated.reverse)

/-! ## Lists of expressions -/

/-- Reads the expressions after a first one, each after a comma, and whether a comma ends them. A
comma is the last one if no operand or one of the words `stops` follows it. -/
def moreExpressions (self : Nested) (follow : Follow) (stops : List String) (first : Expression) :
    Reader (List Expression × Bool) := do
  let (items, trailing) ← iterate (fun (items, trailing) => do
    if trailing then pure none
    else
      let ahead ← peek follow.place
      if !ahead.isMark "," then pure none
      else
        pass ahead
        let next ← peek follow.place
        if next.startsOperand && !(stops.any next.isWord) then
          let item ← self follow.place follow
          pure (some (item :: items, false))
        else pure (some (items, true))) ([first], false)
  pure (items.reverse, trailing)

/-- Reads expressions separated by commas, perhaps with a comma at the end. -/
def expressions (self : Nested) (place : Place) (follow : Follow) (stops : List String) :
    Reader (List Expression × Bool) := do
  let first ← self place follow
  moreExpressions self follow stops first

/-- Reads expressions separated by commas without a comma at the end. -/
def strictExpressions (self : Nested) (follow : Follow) : Reader (List Expression) := do
  let first ← self .inStatement follow
  let items ← iterate (fun items => do
    if ← tryMark follow.place "," then
      let item ← self .inStatement follow
      pure (some (item :: items))
    else pure none) [first]
  pure items.reverse

/-- Reads what follows `yield`. -/
def yieldTail (self : Nested) (place : Place) : Reader Expression := do
  let ahead ← peek place
  if ahead.isWord "from" then
    pass ahead
    let value ← self .inStatement (.plain place)
    pure (.operation [value])
  else if ahead.startsOperand then
    let (items, _) ← expressions self place (.plain place) []
    pure (.operation items)
  else pure (.operation [])

/-- Reads an interpolation of at most the given depth after its opening brace: expressions, `=`, a
conversion and a format in which further interpolations may stand. -/
def interpolation (self : Nested) : (depth : Nat) → Reader (List Expression)
  | 0 => failure
  | depth + 1 => do
    let ahead ← peek .inBrackets
    let value ←
      if ahead.isWord "yield" then do
        pass ahead
        yieldTail self .inBrackets
      else do
        let (items, _) ← expressions self .inBrackets (.plain .inBrackets) []
        pure (.ofItems items)
    if (← settle).head? = some '=' then advance 1
    match ← settle with
    | '!' :: c :: _ => if 'a' ≤ c && c ≤ 'z' then advance 2
    | _ => pure ()
    let found ←
      if (← settle).head? = some ':' then do
        advance 1
        iterate (fun found => do
          match (← get).rest with
          | '{' :: _ =>
            advance 1
            let inner ← interpolation self depth
            pure (some (found ++ inner))
          | '}' :: _ => pure none
          | '\n' :: _ =>
            advanceRows 1 1
            pure (some found)
          | _ :: _ =>
            advance 1
            pure (some found)
          | [] => failure) [value]
      else pure [value]
    match ← settle with
    | '}' :: _ =>
      advance 1
      pure found
    | _ => failure

/-- Reads a string literal after its opening quote. -/
def stringLiteral (self : Nested) (form : StringForm) : Reader Expression := do
  let cursor ← get
  stringBody (interpolation self (cursor.rest.length + 1)) form

/-! ## Comprehensions -/

/-- Reads the clauses of a comprehension; `primary` reads an operand of a target. -/
def comprehensionClauses (self : Nested) (primary : Place → Follow → Reader Expression) :
    Reader (List Expression) := do
  let clauses ← iterate (fun clauses => do
    let ahead ← peek .inBrackets
    if ahead.isWord "for" || ahead.isWord "async" then
      pass ahead
      if ahead.isWord "async" then expectWord .inStatement "for"
      let target ← primary .inStatement (.plain .inStatement)
      if !target.isTarget then failure
      let (targets, _) ← iterate (fun (targets, trailing) => do
        if trailing then pure none
        else
          let next ← peek .inStatement
          if next.isMark "," then
            pass next
            let next ← peek .inStatement
            if next.isWord "in" then pure (some (targets, true))
            else
              let target ← primary .inStatement (.plain .inStatement)
              if !target.isTarget then failure
              pure (some (targets ++ [target], false))
          else pure none) ([target], false)
      expectWord .inStatement "in"
      let (sources, _) ← expressions self .inStatement ⟨.inBrackets, false, true⟩ ["for", "if", "async"]
      pure (some (clauses ++ [.binding (.ofItems targets) sources]))
    else if ahead.isWord "if" && !clauses.isEmpty then
      pass ahead
      let condition ← self .inStatement ⟨.inBrackets, false, true⟩
      pure (some (clauses ++ [condition]))
    else pure none) []
  if clauses.isEmpty then failure else pure clauses

/-- Whether a comprehension begins with the lexeme. -/
def startsComprehension (ahead : Lookahead) : Bool := ahead.isWord "for" || ahead.isWord "async"

/-! ## Brackets -/

/-- Reads an element of a list, a set or a tuple: an expression, `*value` or a `yield`. -/
def element (self : Nested) : Reader Expression := do
  let ahead ← peek .inBrackets
  if ahead.isMark "*" then
    pass ahead
    let value ← self .inStatement (.plain .inBrackets)
    pure (.splat value)
  else if ahead.isWord "yield" then
    pass ahead
    yieldTail self .inBrackets
  else self .inBrackets (.plain .inBrackets)

/-- Reads items after those in `first` up to the closing bracket and passes it. Commas separate the
items, and one may stand after the last. -/
def itemsTo (closing : String) (item : Reader (List Expression)) (first : List Expression) :
    Reader (List Expression) := do
  let (items, _) ← iterate (fun (items, done) => do
    if done then pure none
    else
      let ahead ← peek .inBrackets
      if ahead.isMark closing then
        pass ahead
        pure (some (items, true))
      else if ahead.isMark "," then
        pass ahead
        let next ← peek .inBrackets
        if next.isMark closing then pure (some (items, false))
        else
          let found ← item
          pure (some (items ++ found, false))
      else failure) (first, false)
  pure items

/-- A reader of one item. -/
def single (item : Reader Expression) : Reader (List Expression) := do
  let found ← item
  pure [found]

/-- Reads the elements after those in `first` up to the closing bracket. -/
def elementsTo (self : Nested) (closing : String) (first : List Expression) :
    Reader (List Expression) :=
  itemsTo closing (single (element self)) first

/-- Reads what follows an opening round bracket: a tuple, an expression or a generator. -/
def roundBrackets (self : Nested) (primary : Place → Follow → Reader Expression) :
    Reader Expression := do
  let ahead ← peek .inBrackets
  if ahead.isMark ")" then
    pass ahead
    pure (.collection [])
  else
    let first ← element self
    let next ← peek .inBrackets
    if startsComprehension next then
      let clauses ← comprehensionClauses self primary
      expectMark .inBrackets ")"
      pure (.operation (first :: clauses))
    else if next.isMark ")" then
      match first with
      | .splat value =>
        if value.isPlace then
          pass next
          pure (.collection [first])
        else failure
      | _ =>
        pass next
        pure (.collection [first])
    else
      let items ← elementsTo self ")" [first]
      pure (.collection items)

/-- Reads what follows an opening square bracket: a list or a comprehension. -/
def squareBrackets (self : Nested) (primary : Place → Follow → Reader Expression) :
    Reader Expression := do
  let ahead ← peek .inBrackets
  if ahead.isMark "]" then
    pass ahead
    pure (.collection [])
  else
    let first ← element self
    let next ← peek .inBrackets
    if startsComprehension next then
      let clauses ← comprehensionClauses self primary
      expectMark .inBrackets "]"
      pure (.operation (first :: clauses))
    else
      let items ← elementsTo self "]" [first]
      pure (.collection items)

/-- Reads an entry of a dictionary that is not its first. -/
def entry (self : Nested) : Reader (List Expression) := do
  let ahead ← peek .inBrackets
  if ahead.isMark "**" then
    pass ahead
    let value ← self .inStatement (.plain .inBrackets)
    pure [.splat value]
  else
    let key ← self .inBrackets (.plain .inStatement)
    expectMark .inStatement ":"
    let value ← self .inStatement (.plain .inBrackets)
    pure [key, value]

/-- Reads the entries of a dictionary after those in `first`, up to the closing brace. -/
def entriesTo (self : Nested) (first : List Expression) : Reader (List Expression) :=
  itemsTo "\x7d" (entry self) first

/-- Reads what follows an opening brace: a dictionary, a set or a comprehension of either. -/
def curlyBrackets (self : Nested) (primary : Place → Follow → Reader Expression) :
    Reader Expression := do
  let ahead ← peek .inBrackets
  if ahead.isMark "\x7d" then
    pass ahead
    pure (.operation [])
  else if ahead.isMark "," then
    pass ahead
    expectMark .inBrackets "\x7d"
    pure (.operation [])
  else if ahead.isMark "**" then
    pass ahead
    let value ← self .inStatement (.plain .inBrackets)
    let entries ← entriesTo self [.splat value]
    pure (.operation entries)
  else
    let first ← element self
    let next ← peek .inBrackets
    if next.isMark ":" then
      pass next
      let value ← self .inStatement (.plain .inBrackets)
      let next ← peek .inBrackets
      if startsComprehension next then
        let clauses ← comprehensionClauses self primary
        expectMark .inBrackets "\x7d"
        pure (.operation (first :: value :: clauses))
      else
        let entries ← entriesTo self [first, value]
        pure (.operation entries)
    else if startsComprehension next then
      let clauses ← comprehensionClauses self primary
      expectMark .inBrackets "\x7d"
      pure (.operation (first :: clauses))
    else
      let items ← elementsTo self "\x7d" [first]
      pure (.operation items)

/-! ## Calls and subscripts -/

/-- Reads one argument of a call. -/
def argument (self : Nested) : Reader Expression := do
  let ahead ← peek .inBrackets
  if ahead.isMark "*" || ahead.isMark "**" then
    pass ahead
    let value ← self .inStatement (.plain .inBrackets)
    pure (.splat value)
  else
    match ahead.word? with
    | some label =>
      if constantWords.contains label || operandWords.contains label then
        self .inBrackets (.plain .inBrackets)
      else
        match peekAfter? ahead .inBrackets with
        | some next =>
          if next.isMark "=" then
            pass next
            let value ← self .inStatement (.plain .inBrackets)
            pure (.keyword label value)
          else self .inBrackets (.plain .inBrackets)
        | none => failure
    | none => self .inBrackets (.plain .inBrackets)

/-- Reads the arguments of a call or the bases of a class after the opening bracket. A call may have
a comprehension as its only argument. -/
def arguments (self : Nested) (primary : Place → Follow → Reader Expression) (generator : Bool) :
    Reader (List Expression) := do
  let ahead ← peek .inBrackets
  if ahead.isMark ")" then
    pass ahead
    pure []
  else if ahead.isMark "," then
    pass ahead
    expectMark .inBrackets ")"
    pure []
  else
    let first ← argument self
    let next ← peek .inBrackets
    if generator && startsComprehension next then
      let clauses ← comprehensionClauses self primary
      expectMark .inBrackets ")"
      pure (first :: clauses)
    else
      itemsTo ")" (single (argument self)) [first]

/-- Whether a part of a slice ends before the lexeme. -/
def endsSlicePart (ahead : Lookahead) : Bool :=
  ahead.isMark "," || ahead.isMark "]" || ahead.isMark ":"

/-- Reads an index or a slice, as the list of its parts. -/
def subscriptItem (self : Nested) : Reader (List Expression) := do
  let ahead ← peek .inBrackets
  let first ←
    if ahead.isMark ":" then pure []
    else do
      let value ← self .inBrackets (.plain .inBrackets)
      pure [value]
  let (parts, _) ← iterate (fun (parts, colons) => do
    if colons = 2 then pure none
    else if ← tryMark .inBrackets ":" then
      let next ← peek .inBrackets
      if endsSlicePart next then pure (some (parts, colons + 1))
      else
        let value ← self .inBrackets (.plain .inBrackets)
        pure (some (parts ++ [value], colons + 1))
    else pure none) (first, 0)
  pure parts

/-- Reads the indices of a subscript after the opening bracket. -/
def subscriptItems (self : Nested) : Reader (List Expression) := do
  let first ← subscriptItem self
  itemsTo "]" (subscriptItem self) first

/-! ## Operands -/

/-- Reads the strings that follow a string and are joined to it. -/
def moreStrings (self : Nested) (place : Place) (first : Expression) : Reader Expression := do
  let strings ← iterate (fun strings => do
    let ahead ← peek place
    match ahead.lexeme with
    | .stringStart form =>
      pass ahead
      let next ← stringLiteral self form
      pure (some (strings ++ [next]))
    | _ => pure none) [first]
  pure (.ofOperands strings)

/-- Reads the beginning of a primary operand: a name, a literal or a bracket. -/
def atom (self : Nested) (primary : Place → Follow → Reader Expression) (place : Place)
    (follow : Follow) : Reader Expression := do
  let ahead ← peek place
  match ahead.lexeme with
  | .number =>
    pass ahead
    pure (.operation [])
  | .stringStart form =>
    pass ahead
    let first ← stringLiteral self form
    moreStrings self follow.place first
  | .word text =>
    pass ahead
    pure (if constantWords.contains text then .operation [] else .name text ahead.row)
  | .mark "..." =>
    pass ahead
    pure (.operation [])
  | .mark "(" =>
    pass ahead
    roundBrackets self primary
  | .mark "[" =>
    pass ahead
    squareBrackets self primary
  | .mark "\x7b" =>
    pass ahead
    curlyBrackets self primary
  | _ => failure

/-- What stands behind the last dot of an attribute, blank ends aside, where the text `between` lies
between its dot and its member. A comment in that text may have dots, too. -/
def attributeTail (between : List Char) (member : String) : String :=
  String.ofList (Text.Chars.trim ((between.reverse.takeWhile (· ≠ '.')).reverse ++ member.toList))

/-- Reads the attributes, calls and subscripts that follow an operand. -/
def trailers (self : Nested) (primary : Place → Follow → Reader Expression) (follow : Follow)
    (start : Expression) : Reader Expression :=
  iterate (fun value => do
    let ahead ← peek follow.place
    if ahead.isMark "." then
      pass ahead
      let between ← gapText
      let (member, _) ← anyWord .inStatement
      pure (some (.attribute value member (attributeTail between member)))
    else if ahead.isMark "(" then
      pass ahead
      let items ← arguments self primary true
      pure (some (.call value items))
    else if ahead.isMark "[" then
      pass ahead
      let items ← subscriptItems self
      pure (some (.subscript (value :: items)))
    else pure none) start

/-- Whether an expression is a place, or calls of one. -/
def isCalledPlace : Expression → Bool
  | .call function _ => isCalledPlace function
  | .attribute _ _ _ => true
  | .subscript _ => true
  | .name _ _ => true
  | _ => false

/-- Reads a primary operand: signs and `await` before a name, a literal or a bracket with attributes,
calls and subscripts, or `*` before a place. The first argument bounds the nesting of `self`, through
which comprehensions read their targets. -/
def primaryOperand (self : Nested) : (depth : Nat) → Place → Follow → Reader Expression
  | 0, _, _ => failure
  | depth + 1, place, follow => do
    let (signed, place) ← iterate (fun (_, place) => do
      let ahead ← peek place
      if ahead.isMark "-" || ahead.isMark "+" || ahead.isMark "~" then
        pass ahead
        pure (some (true, Place.inStatement))
      else if ahead.isWord "await" then
        match peekAfter? ahead follow.place with
        | some next =>
          if next.startsOperand && !(joiningWords.any next.isWord) then
            pass ahead
            pure (some (true, Place.inStatement))
          else pure none
        | none => pure none
      else pure none) (false, place)
    let primary := primaryOperand self depth
    let ahead ← peek place
    let value ←
      if ahead.isMark "*" then do
        pass ahead
        let start ← atom self primary .inStatement follow
        let value ← trailers self primary follow start
        if isCalledPlace value then pure (.splat value) else failure
      else do
        let start ← atom self primary place follow
        trailers self primary follow start
    pure (if signed then .operation [value] else value)

/-- Reads a primary operand. -/
def primary (self : Nested) (place : Place) (follow : Follow) : Reader Expression := do
  let cursor ← get
  primaryOperand self (cursor.rest.length + 1) place follow

/-! ## Types and parameters -/

/-- Reads a type of at most the given depth: an expression, a name with types in square brackets, and
alternatives. After a colon a type may be constrained by another one if `constrained` says so. -/
def typeOfDepth (self : Nested) :
    (depth : Nat) → (constrained : Bool) → Place → Place → Reader Expression
  | 0, _, _, _ => failure
  | depth + 1, constrained, place, follow => do
    let ahead ← peek place
    let generic : Bool :=
      match ahead.word? with
      | some text =>
        !(constantWords.contains text || operandWords.contains text) &&
          (peekAfter? ahead follow).any fun next => next.isMark "["
      | none => false
    let first ←
      if generic then do
        let (text, row) ← anyWord place
        expectMark follow "["
        let first ← typeOfDepth self depth true .inBrackets .inBrackets
        let items ← itemsTo "]" (single (typeOfDepth self depth true .inBrackets .inBrackets)) [first]
        pure (.operation (.name text row :: items))
      else if ahead.isMark "**" then do
        pass ahead
        let (text, row) ← anyWord .inStatement
        pure (.splat (.name text row))
      else self place (.plain follow)
    let parts ← iterate (fun parts => do
      let ahead ← peek follow
      if ahead.isMark "|" || (constrained && ahead.isMark ":") then
        pass ahead
        let next ← typeOfDepth self depth constrained .inStatement follow
        pure (some (parts ++ [next]))
      else if ahead.isMark "." then
        pass ahead
        let (text, row) ← anyWord .inStatement
        pure (some (parts ++ [.name text row]))
      else pure none) [first]
    pure (.ofOperands parts)

/-- Reads a type. -/
def typeExpression (self : Nested) (constrained : Bool) (place follow : Place) :
    Reader Expression := do
  let cursor ← get
  typeOfDepth self (cursor.rest.length + 1) constrained place follow

/-- Reads the types in square brackets that parametrise a definition, after the opening bracket. -/
def typeParameters (self : Nested) : Reader (List Expression) := do
  let first ← typeExpression self true .inBrackets .inBrackets
  itemsTo "]" (single (typeExpression self true .inBrackets .inBrackets)) [first]

/-- Reads the annotation of a parameter, if it may have one and a colon comes next. -/
def parameterType (self : Nested) (typed : Bool) (place : Place) : Reader (List Expression) := do
  if typed then
    if ← tryMark place ":" then
      let hint ← typeExpression self true .inStatement place
      pure [hint]
    else pure []
  else pure []

/-- Reads the default of a parameter, if an equals sign comes next. -/
def parameterDefault (self : Nested) (place : Place) : Reader (List Expression) := do
  if ← tryMark place "=" then
    let value ← self .inStatement (.plain place)
    pure [value]
  else pure []

/-- Reads one parameter; a separator gives none. -/
def parameter (self : Nested) (typed : Bool) (closing : String) (place : Place) :
    Reader (List Expression) := do
  let ahead ← peek place
  match ahead.lexeme with
  | .word text =>
    pass ahead
    let hint ← parameterType self typed place
    let value ← parameterDefault self place
    pure [.binding (.name text ahead.row) (hint ++ value)]
  | .mark "/" =>
    pass ahead
    pure []
  | .mark "(" =>
    let target ← primary self place (.plain place)
    if target.isTarget then
      let value ← parameterDefault self place
      pure [.binding target value]
    else failure
  | .mark sign =>
    if sign == "*" || sign == "**" then
      pass ahead
      let next ← peek place
      if sign == "*" && (next.isMark "," || next.isMark closing) then pure []
      else
        let target ← primary self .inStatement (.plain place)
        if !target.isPlace then failure
        let hint ← parameterType self typed place
        pure [.binding (.splat target) hint]
    else failure
  | _ => failure

/-- Reads parameters up to the closing mark, which is not passed. -/
def parameterList (self : Nested) (typed : Bool) (closing : String) (place : Place) :
    Reader (List Expression) :=
  iterate (fun parameters => do
    let ahead ← peek place
    if ahead.isMark closing then pure none
    else
      let found ← parameter self typed closing place
      let next ← peek place
      if next.isMark "," then
        pass next
        pure (some (parameters ++ found))
      else if next.isMark closing then pure (some (parameters ++ found))
      else failure) []

/-! ## Chains of operands -/

/-- Reads what follows `lambda`. -/
def lambdaTail (self : Nested) (follow : Follow) : Reader Expression := do
  let parameters ← parameterList self false ":" .inStatement
  expectMark .inStatement ":"
  let body ← self .inStatement follow
  pure (.lambda parameters body)

/-- Reads an operand of any kind. -/
def operand (self : Nested) (place : Place) (follow : Follow) : Reader Expression := do
  let (negated, place) ← iterate (fun (_, place) => do
    let ahead ← peek place
    if ahead.isWord "not" then
      pass ahead
      pure (some (true, Place.inStatement))
    else pure none) (false, place)
  let ahead ← peek place
  let value ←
    if ahead.isWord "lambda" then do
      pass ahead
      lambdaTail self follow
    else
      match ahead.word? with
      | some text =>
        match peekAfter? ahead follow.place with
        | some next =>
          if next.isMark ":=" && !constantWords.contains text then do
            pass next
            let value ← self .inStatement follow
            pure (.binding (.name text ahead.row) [value])
          else primary self place follow
        | none => primary self place follow
      | none => primary self place follow
  pure (if negated then .operation [value] else value)

/-- Reads one operator with its operand, after the operands in `parts`. -/
def chainStep (self : Nested) (follow : Follow) (parts : List Expression) :
    Reader (Option (List Expression)) := do
  let ahead ← peek follow.place
  match ahead.lexeme with
  | .mark sign =>
    if operatorMarks.contains sign then
      pass ahead
      let next ← primary self .inStatement follow
      pure (some (parts ++ [next]))
    else pure none
  | .word "and" =>
    pass ahead
    let next ← operand self .inStatement follow
    pure (some (parts ++ [next]))
  | .word "or" =>
    pass ahead
    let next ← operand self .inStatement follow
    pure (some (parts ++ [next]))
  | .word "not" =>
    pass ahead
    expectWord .inStatement "in"
    let next ← primary self .inStatement follow
    pure (some (parts ++ [next]))
  | .word "in" =>
    pass ahead
    let next ← primary self .inStatement follow
    pure (some (parts ++ [next]))
  | .word "is" =>
    pass ahead
    let next ← peek .inStatement
    if next.isWord "not" then pass next
    let next ← primary self .inStatement follow
    pure (some (parts ++ [next]))
  | .word "if" =>
    if follow.conditional then
      pass ahead
      let condition ← self .inStatement (.plain .inStatement)
      expectWord .inStatement "else"
      let next ← operand self .inStatement follow
      pure (some (parts ++ [condition, next]))
    else pure none
  | .word "as" =>
    if follow.aliased then
      pass ahead
      let target ← self .inStatement ⟨follow.place, false, false⟩
      pure (some [.alias (.ofOperands parts) target])
    else pure none
  | _ => pure none

/-- Reads an expression of at most the given depth. -/
def expressionOfDepth : (depth : Nat) → Nested
  | 0 => fun _ _ => failure
  | depth + 1 => fun place follow => do
    let self := expressionOfDepth depth
    let first ← operand self place follow
    let parts ← iterate (chainStep self follow) [first]
    pure (.ofOperands parts)

/-- Reads an expression. -/
def expression : Nested := fun place follow => do
  let cursor ← get
  expressionOfDepth (cursor.rest.length + 1) place follow

end StrategyMend.Python
