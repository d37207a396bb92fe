import StrategyMend.Python.Grammar.Expression

/-!
# The grammar of statements

Blocks are opened by a line that is indented deeper than its header and closed by one that is
indented less than the block. A header that no deeper line follows has an empty block, and a deeper
line elsewhere is an ordinary statement.

A word is a keyword only where the grammar can use it. An `else` that continues no statement is
therefore a name, and `else:` with what follows reads as the annotation of that name.

Every reader of a statement gives a list, since one line may hold several statements.
-/

set_option autoImplicit false

namespace StrategyMend.Python

open Reader

/-- Marks that assign the value of an operation. -/
def augmentedMarks : List String :=
  ["+=", "-=", "*=", "/=", "@=", "//=", "%=", "**=", ">>=", "<<=", "&=", "^=", "|="]

/-- Whether a simple statement is complete before the lexeme. -/
def endsSimple (ahead : Lookahead) : Bool := ahead.isLineBreak || ahead.isMark ";"

/-- What may follow an expression at the end of a simple statement. -/
def lineFollow : Follow := .plain .statementEnd

/-! ## Simple statements -/

/-- What an assignment assigns: its targets, and its value once it has been read. -/
structure AssignmentState where
  targets : List Assigned
  value : Option (List Expression)

/-- Reads the expressions before an equals sign, a colon or the end, or a `yield`. -/
def sideItems (place : Place) : Reader (List Expression × Bool) := do
  let ahead ← peek place
  if ahead.isWord "yield" then
    pass ahead
    let value ← yieldTail expression .statementEnd
    pure ([value], false)
  else expressions expression place lineFollow []

/-- The expressions on one side of an assignment as one. -/
def sideExpression (items : List Expression) (trailing : Bool) : Expression :=
  if trailing then .collection items else .ofItems items

/-- Reads one side of an assignment: a target if an assignment mark follows it, else the value. -/
def assignmentSide (state : AssignmentState) : Reader (Option AssignmentState) := do
  if state.value.isSome then pure none
  else
    let (items, trailing) ← sideItems .inStatement
    let side := sideExpression items trailing
    let ahead ← peek .statementEnd
    if ahead.isMark "=" || augmentedMarks.any ahead.isMark then
      if !side.isTarget then failure
      pass ahead
      pure (some { state with targets := state.targets ++ [⟨side, none⟩] })
    else if ahead.isMark ":" then
      if !side.isTarget then failure
      pass ahead
      let hint ← typeExpression expression true .inStatement .statementEnd
      let targets := state.targets ++ [⟨side, some hint⟩]
      if ← tryMark .statementEnd "=" then pure (some { state with targets })
      else pure (some ⟨targets, some []⟩)
    else pure (some { state with value := some items })

/-- Reads an assignment or expressions that stand alone. -/
def expressionStatement (row : Nat) : Reader Statement := do
  let state ← iterate assignmentSide ⟨[], none⟩
  let value := state.value.getD []
  pure (if state.targets.isEmpty then .expression row value else .assignment row state.targets value)

/-- Fails unless a simple statement is complete here. -/
def complete (statement : Statement) : Reader Statement := do
  let ahead ← peek .statementEnd
  if endsSimple ahead then pure statement else failure

/-- Reads the expressions of a statement that needs none, after its keyword. -/
def optionalExpressions : Reader (List Expression) := do
  let ahead ← peek .statementEnd
  if endsSimple ahead then pure []
  else
    let (items, _) ← expressions expression .inStatement lineFollow []
    pure items

/-- Reads what follows `raise`. -/
def raiseTail : Reader (List Expression) := do
  let ahead ← peek .statementEnd
  let items ←
    if endsSimple ahead || ahead.isWord "from" then pure []
    else do
      let (items, _) ← expressions expression .inStatement lineFollow ["from"]
      pure items
  let ahead ← peek .statementEnd
  if ahead.isWord "from" then
    pass ahead
    let cause ← expression .inStatement lineFollow
    pure (items ++ [cause])
  else pure items

/-- Reads names separated by commas. -/
def nameList : Reader (List String) := do
  let (first, _) ← anyWord .inStatement
  iterate (fun names => do
    if ← tryMark .statementEnd "," then
      let (name, _) ← anyWord .inStatement
      pure (some (names ++ [name]))
    else pure none) [first]

/-- Reads names separated by dots. -/
def dottedName (place follow : Place) : Reader (List String) := do
  let (first, _) ← anyWord place
  iterate (fun names => do
    if ← tryMark follow "." then
      let (name, _) ← anyWord .inStatement
      pure (some (names ++ [name]))
    else pure none) [first]

/-- Reads an imported name and gives the name it binds; `binds` chooses from a dotted name. -/
def importedName (binds : List String → String) (place follow : Place) : Reader String := do
  let path ← dottedName place follow
  let ahead ← peek follow
  if ahead.isWord "as" then
    pass ahead
    let (name, _) ← anyWord .inStatement
    pure name
  else pure (binds path)

/-- Reads imported names separated by commas, perhaps with a comma at the end. -/
def importedNames (binds : List String → String) (place follow : Place) :
    Reader (List String) := do
  let first ← importedName binds place follow
  let (names, _) ← iterate (fun (names, trailing) => do
    if trailing then pure none
    else if ← tryMark follow "," then
      let next ← peek follow
      if next.word?.isSome then
        let name ← importedName binds follow follow
        pure (some (names ++ [name], false))
      else pure (some (names, true))
    else pure none) ([first], false)
  pure names

/-- Passes the dots of a relative import and says whether there are any. -/
def leadingDots : Reader Bool :=
  iterate (fun _ => do
    let ahead ← peek .inStatement
    if ahead.isMark "." || ahead.isMark "..." then
      pass ahead
      pure (some true)
    else pure none) false

/-- The name that `import` binds for a path: the package. -/
def packageOf (path : List String) : String := path.headD ""

/-- The name that `from … import` binds for a path: the last one. -/
def lastOf (path : List String) : String := path.getLastD ""

/-- Reads what follows `from`. -/
def fromImport (row : Nat) : Reader Statement := do
  let relative ← leadingDots
  let ahead ← peek .inStatement
  let future := !relative && ahead.isWord "__future__"
  if future then pass ahead
  else if !(relative && ahead.isWord "import") then
    let _ ← dottedName .inStatement .inStatement
    pure ()
  expectWord .inStatement "import"
  let ahead ← peek .inStatement
  if ahead.isMark "*" && !future then
    pass ahead
    pure (.imports row [] true)
  else if ahead.isMark "(" then
    pass ahead
    let names ← importedNames lastOf .inStatement .inBrackets
    expectMark .inBrackets ")"
    pure (.imports row names false)
  else
    let names ← importedNames lastOf .inStatement .statementEnd
    pure (.imports row names false)

/-- Reads a print statement after `print`. -/
def printTail (row : Nat) : Reader Statement := do
  let ahead ← peek .inStatement
  if ahead.isMark ">>" then
    pass ahead
    let stream ← expression .inStatement lineFollow
    let (items, _) ← moreExpressions expression lineFollow [] stream
    pure (.simple row items)
  else
    let (items, _) ← expressions expression .inStatement lineFollow []
    pure (.simple row items)

/-- Reads an exec statement after `exec`: a string or a name, perhaps with scopes after `in`. -/
def execTail (row : Nat) : Reader Statement := do
  let ahead ← peek .inStatement
  let code ←
    match ahead.lexeme with
    | .stringStart form => do
      pass ahead
      stringLiteral expression form
    | .word text => do
      if joiningWords.contains text then failure
      pass ahead
      pure (.name text ahead.row)
    | _ => failure
  let next ← peek .statementEnd
  if next.isWord "in" then
    pass next
    let scopes ← strictExpressions expression lineFollow
    pure (.simple row (code :: scopes))
  else pure (.simple row [code])

/-- Reads a type alias after `type`. -/
def typeAliasTail (row : Nat) : Reader Statement := do
  let name ← typeExpression expression true .statementEnd .statementEnd
  expectMark .statementEnd "="
  let value ← typeExpression expression true .inStatement .statementEnd
  pure (.simple row [name, value])

/-- Reads one simple statement. -/
def simpleStatement : Reader Statement := do
  let ahead ← peek .inBrackets
  let row := ahead.row
  match ahead.word? with
  | none => expressionStatement row
  | some word =>
    if ["pass", "break", "continue"].contains word then
      pass ahead
      pure (.simple row [])
    else if word == "return" then
      pass ahead
      let items ← optionalExpressions
      pure (.simple row items)
    else if word == "del" then
      pass ahead
      let (items, _) ← expressions expression .inStatement lineFollow []
      pure (.simple row items)
    else if word == "raise" then
      pass ahead
      let items ← raiseTail
      pure (.simple row items)
    else if word == "assert" then
      pass ahead
      let items ← strictExpressions expression lineFollow
      pure (.simple row items)
    else if word == "global" || word == "nonlocal" then
      pass ahead
      let names ← nameList
      pure (.declaration row names)
    else if word == "import" then
      pass ahead
      let names ← importedNames packageOf .inStatement .statementEnd
      pure (.imports row names false)
    else if word == "from" then
      pass ahead
      fromImport row
    else if word == "print" then
      let stream := (peekAfter? ahead .statementEnd).any fun next => next.isMark ">>"
      if stream then
        pass ahead
        printTail row
      else
        (do complete (← expressionStatement row)) <|> (do
          pass ahead
          printTail row)
    else if word == "exec" then
      (do
        pass ahead
        complete (← execTail row)) <|> expressionStatement row
    else if word == "type" then
      (do
        pass ahead
        complete (← typeAliasTail row)) <|> expressionStatement row
    else expressionStatement row

/-- Reads the simple statements of a line. -/
def simpleStatements : Reader (List Statement) := do
  let first ← simpleStatement
  let (statements, _) ← iterate (fun (statements, done) => do
    if done then pure none
    else
      let ahead ← peek .statementEnd
      if ahead.isLineBreak then pure (some (statements, true))
      else if ahead.isMark ";" then
        pass ahead
        let next ← peek .statementEnd
        if next.isLineBreak then pure (some (statements, true))
        else
          let statement ← simpleStatement
          pure (some (statements ++ [statement], false))
      else failure) ([first], false)
  pure statements

/-! ## Blocks -/

/-- The next lexeme where a statement may begin: none if the block ends before it. -/
def peekStatement : Reader (Option Lookahead) := do
  let cursor ← get
  let ahead ← peek .inBrackets
  match ahead.column? with
  | some column => pure (if column < cursor.indent then none else some ahead)
  | none => pure (some ahead)

/-- Opens a block at an indentation, reads its parts, and closes it. -/
def indented (column : Nat) (part : Lookahead → Reader (List Statement)) :
    Reader (List Statement) := do
  modify fun cursor => { cursor with blocks := column :: cursor.blocks }
  let statements ← iterate (fun statements => do
    match ← peekStatement with
    | some ahead =>
      let found ← part ahead
      pure (some (statements ++ found))
    | none => pure none) []
  modify fun cursor => { cursor with blocks := cursor.blocks.tail }
  pure statements

/-- Reads the body of a header after its colon: statements on the same line, a deeper block, or
nothing. -/
def suite (statement : Reader (List Statement)) : Reader (List Statement) := do
  let cursor ← get
  let ahead ← peek .inBrackets
  match ahead.column? with
  | none => simpleStatements
  | some column => if cursor.indent < column then indented column fun _ => statement else pure []

/-- Passes a colon and reads the body after it. -/
def colonSuite (statement : Reader (List Statement)) : Reader (List Statement) := do
  expectMark .inStatement ":"
  suite statement

/-- What may follow an expression in a header. -/
def headFollow : Follow := .plain .inStatement

/-- Reads a clause after its keyword: its head and its body. -/
def clause (row : Nat) (kind : BlockKind) (head : Reader (List Expression))
    (statement : Reader (List Statement)) : Reader Statement := do
  let head ← head
  let body ← colonSuite statement
  pure (.block row kind head body)

/-- Reads a clause without a head if its keyword comes next in the same block. -/
def optionalClause (kind : BlockKind) (keyword : String) (statement : Reader (List Statement)) :
    Reader (List Statement) := do
  match ← peekStatement with
  | some ahead =>
    if ahead.isWord keyword then
      pass ahead
      let found ← clause ahead.row kind (pure []) statement
      pure [found]
    else pure []
  | none => pure []

/-- Reads the `elif` clauses that follow. -/
def elifClauses (statement : Reader (List Statement)) : Reader (List Statement) :=
  iterate (fun clauses => do
    match ← peekStatement with
    | some ahead =>
      if ahead.isWord "elif" then
        pass ahead
        let found ←
          clause ahead.row .elifClause (single (expression .inStatement headFollow)) statement
        pure (some (clauses ++ [found]))
      else pure none
    | none => pure none) []

/-- Reads what follows `if`. -/
def ifTail (row : Nat) (statement : Reader (List Statement)) : Reader Statement := do
  let condition ← expression .inStatement headFollow
  let body ← colonSuite statement
  let elifs ← elifClauses statement
  let otherwise ← optionalClause .elseClause "else" statement
  pure (.block row .ifStatement [condition] (body ++ elifs ++ otherwise))

/-- Reads what follows `while`. -/
def whileTail (row : Nat) (statement : Reader (List Statement)) : Reader Statement := do
  let condition ← expression .inStatement headFollow
  let body ← colonSuite statement
  let otherwise ← optionalClause .elseClause "else" statement
  pure (.block row .whileStatement [condition] (body ++ otherwise))

/-- Reads the targets of a loop up to `in`, which is passed. -/
def loopTargets : Reader Expression := do
  let first ← primary expression .inStatement headFollow
  if !first.isTarget then failure
  let (targets, _) ← iterate (fun (targets, trailing) => do
    if trailing then pure none
    else if ← tryMark .inStatement "," then
      let next ← peek .inStatement
      if next.isWord "in" then pure (some (targets, true))
      else
        let target ← primary expression .inStatement headFollow
        if !target.isTarget then failure
        pure (some (targets ++ [target], false))
    else pure none) ([first], false)
  expectWord .inStatement "in"
  pure (.ofItems targets)

/-- Reads what follows `for`. -/
def forTail (row : Nat) (statement : Reader (List Statement)) : Reader Statement := do
  let target ← loopTargets
  let (sources, _) ← expressions expression .inStatement headFollow []
  let body ← colonSuite statement
  let otherwise ← optionalClause .elseClause "else" statement
  pure (.block row .forStatement [.binding target sources] (body ++ otherwise))

/-- Reads what follows `with`. -/
def withTail (row : Nat) (statement : Reader (List Statement)) : Reader Statement := do
  let (items, _) ← expressions expression .inStatement headFollow []
  let body ← colonSuite statement
  pure (.block row .withStatement items body)

/-- Reads the head of an `except` clause. -/
def exceptHead : Reader (List Expression) := do
  let ahead ← peek .inStatement
  if ahead.isMark ":" then pure []
  else
    let value ← expression .inStatement headFollow
    if ← tryMark .inStatement "," then
      let target ← expression .inStatement headFollow
      pure [.alias value target]
    else pure [value]

/-- Reads what follows `try`: the body, and at least an `except` clause or a `finally` clause. -/
def tryTail (row : Nat) (statement : Reader (List Statement)) : Reader Statement := do
  let body ← colonSuite statement
  let handlers ← iterate (fun handlers => do
    match ← peekStatement with
    | some ahead =>
      if ahead.isWord "except" then
        pass ahead
        if ahead.after.rest.head? = some '*' then
          advance 1
          let found ←
            clause ahead.row .exceptClause (single (expression .inStatement headFollow)) statement
          pure (some (handlers ++ [found]))
        else
          let found ← clause ahead.row .exceptClause exceptHead statement
          pure (some (handlers ++ [found]))
      else pure none
    | none => pure none) []
  let otherwise ← if handlers.isEmpty then pure [] else optionalClause .elseClause "else" statement
  let last ← optionalClause .finallyClause "finally" statement
  if handlers.isEmpty && last.isEmpty then failure
  pure (.block row .tryStatement [] (body ++ handlers ++ otherwise ++ last))

/-! ## Patterns -/

/-- The names in expressions, as far as names and operands go. -/
def namesIn (found : List Expression) : List String :=
  found.flatMap fun part =>
    match part with
    | .name text _ => [text]
    | _ => []

/-- Reads a pattern of at most the given depth and gives the names in it. -/
def patternOfDepth : (depth : Nat) → (place follow : Place) → Reader (List String)
  | 0, _, _ => failure
  | depth + 1, place, follow => do
    let inside (closing : String) (part : Reader (List String)) : Reader (List String) := do
      let (names, _, _) ← iterate (fun (names, first, done) => do
        if done then pure none
        else
          let ahead ← peek .inBrackets
          if ahead.isMark closing then
            pass ahead
            pure (some (names, false, true))
          else if first then
            let found ← part
            pure (some (names ++ found, false, false))
          else if ahead.isMark "," then
            pass ahead
            let next ← peek .inBrackets
            if next.isMark closing then pure (some (names, false, false))
            else
              let found ← part
              pure (some (names ++ found, false, false))
          else failure) (([] : List String), true, false)
      pure names
    let nested := patternOfDepth depth .inBrackets .inBrackets
    let splat : Reader (List String) := do
      let (name, _) ← anyWord .inStatement
      pure (if name == "_" then [] else [name])
    let simple (place : Place) : Reader (List String) := do
      let ahead ← peek place
      match ahead.lexeme with
      | .word text =>
        if constantWords.contains text || text == "_" then
          pass ahead
          pure []
        else
          let path ← dottedName place follow
          if ← tryMark follow "(" then
            let found ← inside ")" nested
            pure (path ++ found)
          else pure path
      | .stringStart form =>
        pass ahead
        let first ← stringLiteral expression form
        let text ← moreStrings expression follow first
        match text with
        | .string found => pure (namesIn found)
        | _ => pure []
      | .mark "*" =>
        pass ahead
        splat
      | .mark "**" =>
        pass ahead
        splat
      | .mark "[" =>
        pass ahead
        inside "]" nested
      | .mark "(" =>
        pass ahead
        inside ")" nested
      | .mark "\x7b" =>
        pass ahead
        inside "\x7d" (do
          let ahead ← peek .inBrackets
          if ahead.isMark "**" || ahead.isMark "*" then
            pass ahead
            splat
          else
            let key ← patternOfDepth depth .inBrackets .inStatement
            expectMark .inStatement ":"
            let value ← patternOfDepth depth .inStatement .inBrackets
            pure (key ++ value))
      | _ =>
        let _ ← tryMark place "-"
        let ahead ← peek place
        match ahead.lexeme with
        | .number =>
          pass ahead
          let sign ← peek follow
          if sign.isMark "+" || sign.isMark "-" then
            pass sign
            let imaginary ← peek .inStatement
            match imaginary.lexeme with
            | .number =>
              pass imaginary
              pure []
            | _ => failure
          else pure []
        | _ => failure
    let ahead ← peek place
    let keyword : Bool :=
      ahead.word?.isSome && (peekAfter? ahead follow).any fun next => next.isMark "="
    let first ←
      if keyword then do
        let (name, _) ← anyWord place
        expectMark follow "="
        let value ← simple .inStatement
        pure (name :: value)
      else simple place
    iterate (fun names => do
      let ahead ← peek follow
      if ahead.isMark "|" then
        pass ahead
        let found ← simple .inStatement
        pure (some (names ++ found))
      else if ahead.isWord "as" then
        pass ahead
        let (name, _) ← anyWord .inStatement
        pure (some (names ++ [name]))
      else pure none) first

/-- Reads a pattern and gives the names in it. -/
def pattern (place follow : Place) : Reader (List String) := do
  let cursor ← get
  patternOfDepth (cursor.rest.length + 1) place follow

/-- Reads what follows `case`: patterns, perhaps a guard, and a body. -/
def caseTail (row : Nat) (statement : Reader (List Statement)) : Reader Statement := do
  let first ← pattern .inStatement .inStatement
  let (names, _) ← iterate (fun (names, trailing) => do
    if trailing then pure none
    else if ← tryMark .inStatement "," then
      let next ← peek .inStatement
      if next.isMark ":" || next.isWord "if" then pure (some (names, true))
      else
        let found ← pattern .inStatement .inStatement
        pure (some (names ++ found, false))
    else pure none) (first, false)
  let ahead ← peek .inStatement
  let guard ←
    if ahead.isWord "if" then do
      pass ahead
      let condition ← expression .inStatement headFollow
      pure [condition]
    else pure []
  let body ← colonSuite statement
  pure (.block row .caseClause (.capture names :: guard) body)

/-- Reads what follows `match`: subjects and a block of cases. -/
def matchTail (row : Nat) (statement : Reader (List Statement)) : Reader Statement := do
  let (subjects, _) ← expressions expression .inStatement headFollow []
  expectMark .inStatement ":"
  let cursor ← get
  let ahead ← peek .inBrackets
  match ahead.column? with
  | none => failure
  | some column =>
    if cursor.indent < column then
      let cases ← indented column fun ahead => do
        if ahead.isWord "case" then
          pass ahead
          let found ← caseTail ahead.row statement
          pure [found]
        else failure
      pure (.block row .matchStatement subjects cases)
    else pure (.block row .matchStatement subjects [])

/-! ## Definitions -/

/-- Reads the type parameters of a definition, if there are any. -/
def optionalTypeParameters : Reader (List Expression) := do
  if ← tryMark .inStatement "[" then typeParameters expression else pure []

/-- Reads what follows `def`. -/
def functionTail (row : Nat) (statement : Reader (List Statement)) : Reader Statement := do
  let (name, _) ← anyWord .inStatement
  let types ← optionalTypeParameters
  expectMark .inStatement "("
  let parameters ← parameterList expression true ")" .inBrackets
  expectMark .inBrackets ")"
  let returns ←
    if ← tryMark .inStatement "->" then do
      let value ← typeExpression expression false .inStatement .inStatement
      pure [value]
    else pure []
  let body ← colonSuite statement
  pure (.function row name types parameters returns body)

/-- Reads what follows `class`. -/
def classTail (row : Nat) (statement : Reader (List Statement)) : Reader Statement := do
  let (name, _) ← anyWord .inStatement
  let types ← optionalTypeParameters
  let bases ←
    if ← tryMark .inStatement "(" then arguments expression (primary expression) false
    else pure []
  let body ← colonSuite statement
  pure (.classDef row name types bases body)

/-- Reads decorators and the definition they decorate. -/
def decoratedDefinition (row : Nat) (statement : Reader (List Statement)) : Reader Statement := do
  let decorators ← iterate (fun decorators => do
    let ahead ← peek .inStatement
    if ahead.isMark "@" then
      pass ahead
      let value ← expression .inStatement lineFollow
      let ended ← peek .statementEnd
      if ended.isLineBreak then pure (some (decorators ++ [value])) else failure
    else pure none) []
  let ahead ← peek .inStatement
  match ahead.word? with
  | some "class" =>
    pass ahead
    let definition ← classTail ahead.row statement
    pure (.decorated row decorators definition)
  | some "def" =>
    pass ahead
    let definition ← functionTail ahead.row statement
    pure (.decorated row decorators definition)
  | some "async" =>
    pass ahead
    expectWord .inStatement "def"
    let definition ← functionTail ahead.row statement
    pure (.decorated row decorators definition)
  | _ => failure

/-! ## Statements -/

/-- Reads what follows `async`, if a statement that may be asynchronous does. -/
def asyncTail (row : Nat) (statement : Reader (List Statement)) : Reader (Option Statement) := do
  let ahead ← peek .statementEnd
  match ahead.word? with
  | some "def" =>
    pass ahead
    let found ← functionTail row statement
    pure (some found)
  | some "for" =>
    pass ahead
    let found ← forTail row statement
    pure (some found)
  | some "with" =>
    pass ahead
    let found ← withTail row statement
    pure (some found)
  | _ => pure none

/-- The readers of statements with a block, by their keyword. -/
def compoundTail? (word : String) : Option (Nat → Reader (List Statement) → Reader Statement) :=
  if word == "if" then some ifTail
  else if word == "while" then some whileTail
  else if word == "for" then some forTail
  else if word == "try" then some tryTail
  else if word == "with" then some withTail
  else if word == "def" then some functionTail
  else if word == "class" then some classTail
  else none

/-- Reads the statements of a line, or a statement with a block. At most `depth` blocks are opened
inside one another. -/
def statementOfDepth : (depth : Nat) → Reader (List Statement)
  | 0 => failure
  | depth + 1 => do
    let inner := statementOfDepth depth
    let _ ← settle
    let cursor ← get
    let ahead ← peek .inBrackets
    if ahead.isMark "@" then single' (decoratedDefinition ahead.row inner)
    else
      match ahead.word? with
      | none => simpleStatements
      | some word =>
        match compoundTail? word with
        | some tail =>
          pass ahead
          single' (tail ahead.row inner)
        | none =>
          if word == "async" then
            pass ahead
            match ← asyncTail ahead.row inner with
            | some found => pure [found]
            | none =>
              set cursor
              simpleStatements
          else if word == "match" then
            (do
              pass ahead
              single' (matchTail ahead.row inner)) <|> simpleStatements
          else simpleStatements
where
  /-- A reader of one statement. -/
  single' (reader : Reader Statement) : Reader (List Statement) := do
    let found ← reader
    pure [found]

end StrategyMend.Python
