/-!
# Commands of the shell

A line of the shell is cut into tokens and read as a command. Words may be quoted; parameters and
variables are replaced when a command is run. Commands are joined in turn, by success, by failure or by a pipe,
and may be grouped, also as a shell of their own.
-/

set_option autoImplicit false

namespace StrategyMend.Execution.Shell

/-- A piece of a word. -/
inductive Part where
  | char (c : Char)
  /-- The number of the shell's process. -/
  | processId
  /-- The status of the last command. -/
  | lastStatus
  /-- The parameter with this number. -/
  | parameter (n : Nat)
  /-- All parameters but the first, each as a word. -/
  | allParameters
  /-- The value of a variable, cut into words where it stands alone and unquoted. -/
  | variable (name : String) (isQuoted : Bool)
  /-- The number of characters in the value of a variable. -/
  | lengthOf (name : String)
  deriving DecidableEq

/-- The character that a piece is. -/
def Part.char? : Part → Option Char
  | .char c => some c
  | _ => none

/-- A word before its parameters are replaced. -/
abbrev Word := List Part

/-- The streams that a command writes to. -/
inductive Stream where
  | output
  | errors
  deriving DecidableEq

/-- Where a stream goes, or where the input comes from. -/
inductive Redirect where
  /-- A stream goes where another one goes. -/
  | toStream (source target : Stream)
  /-- A stream goes nowhere. -/
  | discard (source : Stream)
  /-- There is no input. -/
  | noInput
  deriving DecidableEq

/-- A token of a line. -/
inductive Token where
  | word (parts : Word)
  | endOfCommand
  | andThen
  | orElse
  | pipe
  | openGroup
  | closeGroup
  /-- A redirection of the descriptor with this number; the next word says where to. -/
  | redirect (descriptor : Nat) (toDescriptor : Bool)
  deriving DecidableEq

/-- Why a line cannot be read. -/
inductive SyntaxFault where
  | unterminatedQuote
  | unexpectedEnd
  | unexpected (token : String)
  deriving DecidableEq

/-- The wording of a fault. -/
def SyntaxFault.message : SyntaxFault → String
  | .unterminatedQuote => "Syntax error: Unterminated quoted string"
  | .unexpectedEnd => "Syntax error: end of file unexpected"
  | .unexpected token => "Syntax error: \"" ++ token ++ "\" unexpected"

/-! ## Tokens -/

/-- How characters are read. -/
inductive Quoting where
  | plain
  | single
  | double
  | comment
  deriving DecidableEq

/-- A parameter right after a dollar sign. -/
def parameter? (c : Char) : Option Part :=
  if c = '$' then some .processId
  else if c = '?' then some .lastStatus
  else if c = '@' then some .allParameters
  else if c.isDigit then some (.parameter (c.toNat - '0'.toNat))
  else none

/-- Whether a character may stand in the name of a variable. -/
def isNameChar (c : Char) : Bool := c.isAlphanum || c = '_'

/-- Whether a text is the name of a variable. -/
def isName (text : List Char) : Bool :=
  !text.isEmpty && text.all isNameChar && (text.head?.map fun c => !c.isDigit).getD false

/-- A parameter or variable right after a dollar sign, with the number of its characters. -/
def reference? (isQuoted : Bool) (text : List Char) : Option (Part × Nat) :=
  match text with
  | [] => none
  | '\x7b' :: '#' :: rest =>
    let name := rest.takeWhile (· ≠ '\x7d')
    if isName name then some (.lengthOf (String.ofList name), name.length + 3) else none
  | '\x7b' :: rest =>
    let name := rest.takeWhile (· ≠ '\x7d')
    if isName name then some (.variable (String.ofList name) isQuoted, name.length + 2) else none
  | c :: _ =>
    match parameter? c with
    | some part => some (part, 1)
    | none =>
      let name := text.takeWhile isNameChar
      if isName name then some (.variable (String.ofList name) isQuoted, name.length) else none

/-- The word read so far as a token, if there is one. Its parts stand in reverse. -/
def flush : Option Word → List Token
  | some parts => [.word parts.reverse]
  | none => []

/-- The word read so far as the number of a descriptor, if it is one. -/
def descriptor? : Option Word → Option Nat
  | some [.char c] => if c.isDigit then some (c.toNat - '0'.toNat) else none
  | _ => none

/-- The tokens before and of a redirection whose standard descriptor is `standard`. -/
def redirection (word : Option Word) (standard : Nat) (toDescriptor : Bool) : List Token :=
  match descriptor? word with
  | some n => [.redirect n toDescriptor]
  | none => flush word ++ [.redirect standard toDescriptor]

/-- A word with one more part. -/
def extend (word : Option Word) (part : Part) : Option Word := some (part :: word.getD [])

/-- The tokens of a line, given the parts of the word read so far in reverse. -/
def tokensFrom (quoting : Quoting) (word : Option Word) (text : List Char) :
    Except SyntaxFault (List Token) :=
  match text with
  | [] =>
    match quoting with
    | .single | .double => .error .unterminatedQuote
    | _ => .ok (flush word)
  | c :: rest =>
    match quoting with
    | .comment =>
      if c = '\n' then (tokensFrom .plain none rest).map (.endOfCommand :: ·)
      else tokensFrom .comment none rest
    | .single =>
      if c = '\'' then tokensFrom .plain word rest
      else tokensFrom .single (extend word (.char c)) rest
    | .double =>
      if c = '"' then tokensFrom .plain word rest
      else
        match c, _ : rest with
        | '\\', d :: more =>
          if "\\\"$\x60".toList.contains d then
            tokensFrom .double (extend word (.char d)) more
          else if d = '\n' then tokensFrom .double word more
          else tokensFrom .double (extend (extend word (.char c)) (.char d)) more
        | '$', _ =>
          match reference? true rest with
          | some (part, count) => tokensFrom .double (extend word part) (rest.drop count)
          | none => tokensFrom .double (extend word (.char c)) rest
        | _, _ => tokensFrom .double (extend word (.char c)) rest
    | .plain =>
      match c, _ : rest with
      | '\'', _ => tokensFrom .single (some (word.getD [])) rest
      | '"', _ => tokensFrom .double (some (word.getD [])) rest
      | '\\', '\n' :: more => tokensFrom .plain word more
      | '\\', d :: more => tokensFrom .plain (extend word (.char d)) more
      | '$', _ =>
        match reference? false rest with
        | some (part, count) => tokensFrom .plain (extend word part) (rest.drop count)
        | none => tokensFrom .plain (extend word (.char c)) rest
      | '&', '&' :: more => (tokensFrom .plain none more).map (flush word ++ [.andThen] ++ ·)
      | '|', '|' :: more => (tokensFrom .plain none more).map (flush word ++ [.orElse] ++ ·)
      | '|', _ => (tokensFrom .plain none rest).map (flush word ++ [.pipe] ++ ·)
      | '>', '&' :: more => (tokensFrom .plain none more).map (redirection word 1 true ++ ·)
      | '>', '>' :: more => (tokensFrom .plain none more).map (redirection word 1 false ++ ·)
      | '>', _ => (tokensFrom .plain none rest).map (redirection word 1 false ++ ·)
      | '<', _ => (tokensFrom .plain none rest).map (redirection word 0 false ++ ·)
      | _, _ =>
        if c = ';' || c = '&' || c = '\n' then
          (tokensFrom .plain none rest).map (flush word ++ [.endOfCommand] ++ ·)
        else if c = '(' then (tokensFrom .plain none rest).map (flush word ++ [.openGroup] ++ ·)
        else if c = ')' then (tokensFrom .plain none rest).map (flush word ++ [.closeGroup] ++ ·)
        else if c = ' ' || c = '\t' then (tokensFrom .plain none rest).map (flush word ++ ·)
        else if c = '#' && word.isNone then tokensFrom .comment none rest
        else tokensFrom .plain (extend word (.char c)) rest
termination_by text.length
decreasing_by all_goals (simp_all; try omega)

/-! ## Commands -/

/-- A command. -/
inductive Command where
  | simple (words : List Word) (redirects : List Redirect)
  /-- A group of commands; its own shell if so marked. -/
  | group (ownShell : Bool) (body : Command) (redirects : List Redirect)
  | inTurn (first second : Command)
  | andThen (first second : Command)
  | orElse (first second : Command)
  | piped (first second : Command)
  | negated (body : Command)

/-- The text of a word without parameters and variables. -/
def literal? (word : Word) : Option String :=
  (word.mapM Part.char?).map String.ofList

/-- The variable that a word sets, and the word for its value. -/
def assignment? : Word → Option (String × Word) := fun word =>
  let name := (word.takeWhile (· ≠ .char '=')).mapM Part.char?
  match name, word.dropWhile (· ≠ .char '=') with
  | some name, _ :: value => if isName name then some (String.ofList name, value) else none
  | _, _ => none

/-- Whether a token is the word with this text. -/
def isWord (text : String) (token : Token) : Bool :=
  match token with
  | .word parts => literal? parts = some text
  | _ => false

/-- The stream with this descriptor. -/
def stream? : Nat → Option Stream
  | 1 => some .output
  | 2 => some .errors
  | _ => none

/-- The redirection of a descriptor to what a word names. Files are not kept, so that what is written
to one is lost and none can be read. -/
def redirectTo (descriptor : Nat) (toDescriptor : Bool) (target : Word) : Option Redirect :=
  match stream? descriptor with
  | none => some .noInput
  | some source =>
    if toDescriptor then
      if literal? target = some "1" then some (.toStream source .output)
      else if literal? target = some "2" then some (.toStream source .errors)
      else none
    else some (.discard source)

/-- The words and redirections at the start of some tokens, and the other tokens. -/
def simpleParts : List Token → Except SyntaxFault (List Word × List Redirect × List Token)
  | .word parts :: rest => do
    let (words, redirects, others) ← simpleParts rest
    return (parts :: words, redirects, others)
  | .redirect descriptor toDescriptor :: .word target :: rest => do
    let (words, redirects, others) ← simpleParts rest
    return (words, (redirectTo descriptor toDescriptor target).toList ++ redirects, others)
  | .redirect _ _ :: _ => .error .unexpectedEnd
  | others => .ok ([], [], others)

/-- The tokens without the ends of commands before them. -/
def dropEnds : List Token → List Token
  | .endOfCommand :: rest => dropEnds rest
  | others => others

/-- What closes a list of commands. -/
inductive Closing where
  | endOfText
  | closeGroup
  | closeBrace
  deriving DecidableEq

/-- The tokens after what closes a list, if they begin with it. -/
def Closing.after? (closing : Closing) (tokens : List Token) : Option (List Token) :=
  match closing, tokens with
  | .endOfText, [] => some []
  | .closeGroup, .closeGroup :: rest => some rest
  | .closeBrace, token :: rest => if isWord "\x7d" token then some rest else none
  | _, _ => none

/-- A command that does nothing. -/
def Command.idle : Command := .simple [[Part.char ':']] []

mutual

/-- Reads commands in turn up to what closes them. -/
def readList : (fuel : Nat) → Closing → List Token → Except SyntaxFault (Command × List Token)
  | 0, _, _ => .error .unexpectedEnd
  | fuel + 1, closing, tokens => do
    let tokens := dropEnds tokens
    match closing.after? tokens with
    | some rest => return (.idle, rest)
    | none =>
      let (first, rest) ← readLogical fuel none tokens
      match closing.after? rest with
      | some others => return (first, others)
      | none =>
        match rest with
        | .endOfCommand :: more =>
          match closing.after? (dropEnds more) with
          | some others => return (first, others)
          | none =>
            let (second, others) ← readList fuel closing more
            return (.inTurn first second, others)
        | .closeGroup :: _ => .error (.unexpected ")")
        | _ => .error .unexpectedEnd

/-- Reads pipelines joined by success or failure, from left to right; `before` is what has been read
with the way in which it is joined to the next. -/
def readLogical : (fuel : Nat) → (before : Option (Command × Bool)) → List Token →
    Except SyntaxFault (Command × List Token)
  | 0, _, _ => .error .unexpectedEnd
  | fuel + 1, before, tokens => do
    let (next, rest) ← readPipeline fuel tokens
    let joined :=
      match before with
      | none => next
      | some (first, true) => .andThen first next
      | some (first, false) => .orElse first next
    match rest with
    | .andThen :: more => readLogical fuel (some (joined, true)) more
    | .orElse :: more => readLogical fuel (some (joined, false)) more
    | _ => return (joined, rest)

/-- Reads commands joined by pipes. -/
def readPipeline : (fuel : Nat) → List Token → Except SyntaxFault (Command × List Token)
  | 0, _ => .error .unexpectedEnd
  | fuel + 1, tokens => do
    match tokens with
    | token :: rest =>
      if isWord "!" token then
        let (body, others) ← readPipeline fuel rest
        return (.negated body, others)
      else
        let (first, others) ← readCommand fuel tokens
        match others with
        | .pipe :: more => do
          let (second, final) ← readPipeline fuel more
          return (.piped first second, final)
        | _ => return (first, others)
    | [] => .error .unexpectedEnd

/-- Reads one command. -/
def readCommand : (fuel : Nat) → List Token → Except SyntaxFault (Command × List Token)
  | 0, _ => .error .unexpectedEnd
  | fuel + 1, tokens => do
    match tokens with
    | .openGroup :: rest =>
      let (body, others) ← readList fuel .closeGroup rest
      let (_, redirects, final) ← simpleParts others
      return (.group true body redirects, final)
    | .endOfCommand :: _ => .error (.unexpected ";")
    | .andThen :: _ => .error (.unexpected "&&")
    | .orElse :: _ => .error (.unexpected "||")
    | .pipe :: _ => .error (.unexpected "|")
    | .closeGroup :: _ => .error (.unexpected ")")
    | token :: rest =>
      if isWord "\x7b" token then
        let (body, others) ← readList fuel .closeBrace rest
        let (_, redirects, final) ← simpleParts others
        return (.group false body redirects, final)
      else
        let (words, redirects, others) ← simpleParts tokens
        return (.simple words redirects, others)
    | [] => .error .unexpectedEnd

end

/-- Reads the commands of a text. -/
def read (text : String) : Except SyntaxFault Command := do
  let tokens ← tokensFrom .plain none text.toList
  let (command, _) ← readList (8 * (tokens.length + 2)) .endOfText tokens
  return command

end StrategyMend.Execution.Shell
