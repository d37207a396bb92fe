import StrategyMend.Toml.Document
import StrategyMend.Toml.Scalar

/-!
# Option (TOML × List Char)

A document is a list of lines: empty lines, comments, headers of tables, and keys with values. The
result is the document as a JSON value.
-/

set_option autoImplicit false

namespace StrategyMend.Toml

/-- The number of levels that values may be nested, and of names in a dotted key. -/
def nestingLimit : Nat := 79

/-! ## Keys -/

/-- Characters of a key without quotes. -/
def isKeyChar (c : Char) : Bool := c.isAlphanum || c = '_' || c = '-'

/-- One name of a key. -/
def name? (text : List Char) : Option (String × List Char) :=
  match text with
  | '"' :: rest => (basicChars (rest.length + 1) rest).map fun (cs, after) => (String.ofList cs, after)
  | '\'' :: rest => (literalChars rest).map fun (cs, after) => (String.ofList cs, after)
  | _ =>
    let name := text.takeWhile isKeyChar
    if name.isEmpty then none else some (String.ofList name, text.drop name.length)

/-- A dotted key with the spaces around its names. -/
def key? : (fuel : Nat) → List Char → Option (Path × List Char)
  | 0, _ => none
  | fuel + 1, text => do
    let (name, rest) ← name? (skipSpaces text)
    match skipSpaces rest with
    | '.' :: more =>
      let (path, after) ← key? fuel more
      return (name :: path, after)
    | after => return ([name], after)

/-- A dotted key. -/
def path? (text : List Char) : Option (Path × List Char) := key? nestingLimit text

/-! ## Values -/

/-- What follows a comment sign up to the end of the line. -/
def skipComment (text : List Char) : List Char := text.dropWhile isPrintable

/-- The text from the next character that is no space, no line end and not in a comment. A comment
must be followed by a line end. -/
def skipLines : (fuel : Nat) → List Char → List Char
  | 0, text => text
  | fuel + 1, text =>
    match skipSpaces text with
    | '#' :: rest =>
      match newline? (skipComment rest) with
      | some more => skipLines fuel more
      | none => '#' :: rest
    | other =>
      match newline? other with
      | some more => skipLines fuel more
      | none => other

mutual

/-- A value; `depth` more levels may be opened. -/
def value? : (fuel depth : Nat) → List Char → Option (Json × List Char)
  | 0, _, _ => none
  | fuel + 1, depth, text =>
    match text with
    | '"' :: _ => (string? text).map fun (s, after) => (.string s, after)
    | '\'' :: _ => (string? text).map fun (s, after) => (.string s, after)
    | '[' :: rest =>
      match depth with
      | 0 => none
      | depth + 1 => (items? fuel depth rest).map fun (items, after) => (.array items, after)
    | '\x7b' :: rest =>
      match depth with
      | 0 => none
      | depth + 1 =>
        match skipSpaces rest with
        | '\x7d' :: after => some (.object [], after)
        | inside =>
          (pairs? fuel depth [] inside).map fun (entries, after) =>
            (.object (membersOf entries), after)
    | 't' :: 'r' :: 'u' :: 'e' :: after => some (.bool true, after)
    | 'f' :: 'a' :: 'l' :: 's' :: 'e' :: after => some (.bool false, after)
    | _ => numeric? text

/-- The items of an array up to its end. -/
def items? : (fuel depth : Nat) → List Char → Option (List Json × List Char)
  | 0, _, _ => none
  | fuel + 1, depth, text => do
    match skipLines text.length text with
    | ']' :: after => return ([], after)
    | inside =>
      let (item, rest) ← value? fuel depth inside
      match skipLines rest.length rest with
      | ',' :: more =>
        let (items, after) ← items? fuel depth more
        return (item :: items, after)
      | ']' :: after => return ([item], after)
      | _ => none

/-- The pairs of a table on one line up to its end, after those in `before`. -/
def pairs? : (fuel depth : Nat) → Entries → List Char → Option (Entries × List Char)
  | 0, _, _, _ => none
  | fuel + 1, depth, before, text => do
    let (path, rest) ← path? text
    let rest ← after? '=' rest
    let (value, rest) ← value? fuel depth (skipSpaces rest)
    let key ← path.getLast?
    let entries ← putDotted key (.value value) true path.dropLast before
    match skipSpaces rest with
    | ',' :: more => pairs? fuel depth entries more
    | '\x7d' :: after => return (entries, after)
    | _ => none

end

/-! ## Documents -/

/-- What follows the rest of a line, which may hold a comment. -/
def lineEnd? (text : List Char) : Option (List Char) :=
  let rest :=
    match skipSpaces text with
    | '#' :: comment => skipComment comment
    | other => other
  if rest.isEmpty then some [] else newline? rest

/-- A document as far as it has been read. -/
structure State where
  entries : Entries
  /-- The table that keys are put into. -/
  current : Path

/-- Reads a header, without its opening bracket. -/
def header? (state : State) (text : List Char) : Option (State × List Char) :=
  match text with
  | '[' :: rest => do
    let (path, rest) ← path? rest
    let rest ← after? ']' rest
    let rest ← after? ']' rest
    let entries ← openElement path state.entries
    return (⟨entries, path⟩, ← lineEnd? rest)
  | _ => do
    let (path, rest) ← path? text
    let rest ← after? ']' rest
    let entries ← openTable path state.entries
    return (⟨entries, path⟩, ← lineEnd? rest)

/-- Reads a key with its value. -/
def setting? (state : State) (text : List Char) : Option (State × List Char) := do
  let (path, rest) ← path? text
  let rest ← after? '=' rest
  let (value, rest) ← value? (2 * rest.length + 2) nestingLimit (skipSpaces rest)
  let key ← path.getLast?
  let entries ←
    changeTable (putDotted key (.value value) true path.dropLast) state.current state.entries
  return ({ state with entries }, ← lineEnd? rest)

/-- Reads the lines of a document. -/
def lines? : (fuel : Nat) → State → List Char → Option State
  | 0, _, _ => none
  | fuel + 1, state, text =>
    match skipSpaces text with
    | [] => some state
    | '[' :: rest => (header? state rest).bind fun (after, more) => lines? fuel after more
    | '#' :: rest => (lineEnd? ('#' :: rest)).bind (lines? fuel state)
    | other =>
      match newline? other with
      | some more => lines? fuel state more
      | none => (setting? state other).bind fun (after, more) => lines? fuel after more

/-- The text without the mark of the byte order at its start. -/
def dropMark : List Char → List Char
  | '\uFEFF' :: rest => rest
  | text => text

/-- The document that a text writes. -/
def read? (text : String) : Option Json :=
  let chars := dropMark text.toList
  (lines? (chars.length + 1) ⟨[], []⟩ chars).map fun state => .object (membersOf state.entries)

end StrategyMend.Toml
