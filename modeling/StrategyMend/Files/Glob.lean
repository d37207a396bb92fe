/-!
# Patterns for paths

A pattern is matched against all bytes of a path. A question mark stands for one byte other than a
slash, a star for any number of them, and two stars between slashes for any number of directories.
Square brackets list bytes, and braces list alternatives.
-/

set_option autoImplicit false

namespace StrategyMend.Files

/-- The slash between the parts of a path. -/
def slash : UInt8 := 47

/-- A part of a pattern. -/
inductive GlobToken where
  | byte (b : UInt8)
  /-- Any byte but a slash. -/
  | any
  /-- Any number of bytes but slashes. -/
  | star
  /-- Any directories at the beginning. -/
  | directoriesBefore
  /-- Any directories between two slashes. -/
  | directoriesBetween
  /-- Anything after a slash. -/
  | everythingBelow
  /-- One of some bytes, or any other one. -/
  | oneOf (negated : Bool) (ranges : List (UInt8 × UInt8))
  | alternatives (all : List (List GlobToken))

/-- A pattern for paths. -/
abbrev Glob := List GlobToken

/-! ## Matching -/

/-- Whether what follows some bytes without a slash satisfies `next`. -/
def afterName (next : List UInt8 → Bool) : List UInt8 → Bool
  | [] => next []
  | b :: rest => next (b :: rest) || (b ≠ slash && afterName next rest)

/-- Whether what follows some slash satisfies `next`. -/
def afterSlash (next : List UInt8 → Bool) : List UInt8 → Bool
  | [] => false
  | b :: rest => (b = slash && next rest) || afterSlash next rest

/-- Whether some end of the bytes satisfies `next`. -/
def afterAnything (next : List UInt8 → Bool) : List UInt8 → Bool
  | [] => next []
  | b :: rest => next (b :: rest) || afterAnything next rest

/-- Whether a byte lies in one of some ranges. -/
def inByteRanges (ranges : List (UInt8 × UInt8)) (b : UInt8) : Bool :=
  ranges.any fun (low, high) => low ≤ b && b ≤ high

mutual

/-- Whether a part of a pattern matches the beginning of some bytes so that the rest satisfies
`next`. -/
def GlobToken.matchThen (next : List UInt8 → Bool) : GlobToken → List UInt8 → Bool
  | .byte b, bytes =>
    match bytes with
    | c :: rest => b = c && next rest
    | [] => false
  | .any, bytes =>
    match bytes with
    | c :: rest => c ≠ slash && next rest
    | [] => false
  | .star, bytes => afterName next bytes
  | .directoriesBefore, bytes => next bytes || afterSlash next bytes
  | .directoriesBetween, bytes =>
    match bytes with
    | c :: rest => c = slash && (next rest || afterSlash next rest)
    | [] => false
  | .everythingBelow, bytes =>
    match bytes with
    | c :: rest => c = slash && afterAnything next rest
    | [] => false
  | .oneOf negated ranges, bytes =>
    match bytes with
    | c :: rest => inByteRanges ranges c ≠ negated && next rest
    | [] => false
  | .alternatives all, bytes => alternativesMatchThen next all bytes

/-- Whether a pattern matches the beginning of some bytes so that the rest satisfies `next`. -/
def globMatchThen (next : List UInt8 → Bool) : List GlobToken → List UInt8 → Bool
  | [], bytes => next bytes
  | token :: rest, bytes => token.matchThen (globMatchThen next rest) bytes

/-- Whether one of some patterns matches the beginning of some bytes so that the rest satisfies
`next`. -/
def alternativesMatchThen (next : List UInt8 → Bool) : List (List GlobToken) → List UInt8 → Bool
  | [], _ => false
  | glob :: rest, bytes => globMatchThen next glob bytes || alternativesMatchThen next rest bytes

end

/-- Whether a pattern matches a path. -/
def Glob.matches (glob : Glob) (path : String) : Bool :=
  match glob with
  | [.directoriesBefore] => true
  | _ => globMatchThen List.isEmpty glob path.toUTF8.toList

/-! ## Reading patterns -/

/-- The bytes of a character. -/
def bytesOf (c : Char) : List UInt8 := (String.ofList [c]).toUTF8.toList

/-- A range of characters as ranges of bytes. The ends of a range are taken byte by byte. -/
def byteRanges (low high : Char) : List (UInt8 × UInt8) :=
  let single (b : UInt8) : UInt8 × UInt8 := (b, b)
  if low = high then (bytesOf low).map single
  else
    match (bytesOf low).reverse, bytesOf high with
    | last :: before, first :: after =>
      before.reverse.map single ++ [(last, first)] ++ after.map single
    | _, _ => []

/-- The ranges of characters of a list in brackets up to its end, given those read so far in reverse.
`inRange` says whether a hyphen has just been read. -/
def bracketRanges : (first inRange : Bool) → List (Char × Char) → List Char →
    Option (List (Char × Char) × List Char)
  | _, _, _, [] => none
  | first, inRange, ranges, c :: rest =>
    if c = ']' && !first then
      some ((if inRange then ('-', '-') :: ranges else ranges).reverse, rest)
    else if c = '-' && !first && !inRange then bracketRanges false true ranges rest
    else if inRange then
      match ranges with
      | (low, _) :: others =>
        if low ≤ c then bracketRanges false false ((low, c) :: others) rest else none
      | [] => none
    else bracketRanges false false ((c, c) :: ranges) rest

/-- The token of a list in brackets, without its opening bracket. -/
def bracket? (text : List Char) : Option (GlobToken × List Char) :=
  let (negated, inside) :=
    match text with
    | '!' :: rest => (true, rest)
    | '^' :: rest => (true, rest)
    | _ => (false, text)
  (bracketRanges true false [] inside).map fun (ranges, after) =>
    (.oneOf negated (ranges.flatMap fun (low, high) => byteRanges low high), after)

/-- The patterns that are open while a text is read: the alternatives so far of every open brace, and
the tokens of the last alternative, all in reverse. -/
structure OpenGlob where
  tokens : List GlobToken
  /-- For every open brace, its finished alternatives and the tokens before it. -/
  outer : List (List (List GlobToken) × List GlobToken)

namespace OpenGlob

/-- Adds a token. -/
def push (open_ : OpenGlob) (token : GlobToken) : OpenGlob :=
  { open_ with tokens := token :: open_.tokens }

/-- Adds the two stars that a text continues with after `previous`, and gives what follows. -/
def pushDirectories (open_ : OpenGlob) (previous : Option Char) (rest : List Char) :
    OpenGlob × List Char :=
  let twoStars := (open_.push .star).push .star
  let inBraces := !open_.outer.isEmpty
  let next := rest.head?
  match open_.tokens with
  | [] =>
    match next with
    | none => (open_.push .directoriesBefore, rest)
    | some '/' => (open_.push .directoriesBefore, rest.drop 1)
    | some _ => (twoStars, rest)
  | last :: before =>
    if previous ≠ some '/' && !(inBraces && (previous = some ',' || previous = some '\x7b')) then
      (twoStars, rest)
    else
      let closes := next.isNone || (inBraces && (next = some ',' || next = some '\x7d'))
      if !closes && next ≠ some '/' then (twoStars, rest)
      else
        let token : GlobToken :=
          match last with
          | .directoriesBefore => .directoriesBefore
          | .everythingBelow => .everythingBelow
          | _ => if closes then .everythingBelow else .directoriesBetween
        ({ open_ with tokens := token :: before }, if closes then rest else rest.drop 1)

end OpenGlob

/-- Reads a pattern; `previous` is the character before the text. -/
def readGlob : (fuel : Nat) → (previous : Option Char) → OpenGlob → List Char → Option Glob
  | 0, _, _, _ => none
  | _, _, open_, [] => if open_.outer.isEmpty then some open_.tokens.reverse else none
  | fuel + 1, previous, open_, c :: rest =>
    if c = '?' then readGlob fuel (some c) (open_.push .any) rest
    else if c = '*' then
      match rest with
      | '*' :: more =>
        let (after, others) := open_.pushDirectories previous more
        let before := if others.length < more.length then some '/' else some '*'
        readGlob fuel before after others
      | _ => readGlob fuel (some c) (open_.push .star) rest
    else if c = '[' then
      match bracket? rest with
      | some (token, more) => readGlob fuel (some ']') (open_.push token) more
      | none => none
    else if c = '\x7b' then
      readGlob fuel (some c) ⟨[], ([], open_.tokens) :: open_.outer⟩ rest
    else if c = '\x7d' then
      match open_.outer with
      | [] => none
      | (finished, before) :: outer =>
        let all := (open_.tokens.reverse :: finished).reverse
        readGlob fuel (some c) ⟨.alternatives all :: before, outer⟩ rest
    else if c = ',' then
      match open_.outer with
      | [] => readGlob fuel (some c) ((bytesOf c).foldl (fun o b => o.push (.byte b)) open_) rest
      | (finished, before) :: outer =>
        readGlob fuel (some c) ⟨[], (open_.tokens.reverse :: finished, before) :: outer⟩ rest
    else if c = '\\' then
      match rest with
      | d :: more =>
        readGlob fuel (some d) ((bytesOf d).foldl (fun o b => o.push (.byte b)) open_) more
      | [] => none
    else readGlob fuel (some c) ((bytesOf c).foldl (fun o b => o.push (.byte b)) open_) rest

/-- The pattern that a text writes. -/
def Glob.read? (text : String) : Option Glob :=
  readGlob (text.length + 1) none ⟨[], []⟩ text.toList

end StrategyMend.Files
