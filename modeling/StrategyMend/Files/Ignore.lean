import StrategyMend.Files.Glob
import StrategyMend.Files.Tree
import StrategyMend.Text.Blank

/-!
# Ignored files

Files that list patterns say which entries of their directory, and of the directories below, are left
out. In one file the last pattern that matches decides; a pattern may also let an entry in. Of several
directories the innermost with an opinion decides, and among the kinds of files the first of: the
program's own file, the general one, and those of a repository, which count only inside of it.
-/

set_option autoImplicit false

namespace StrategyMend.Files

open Text

/-- A line of a file that lists patterns. -/
structure IgnoreRule where
  glob : Glob
  /-- Whether the entry is let in and not left out. -/
  letsIn : Bool
  onlyDirectories : Bool

namespace IgnoreRule

/-- The pattern of a line without its marks. It matches entries at any depth unless it says where. -/
def patternOf (anchored : Bool) (pattern : List Char) : List Char :=
  let startsDeep := "**/".toList.isPrefixOf pattern || pattern = "**".toList
  let placed :=
    if !anchored && !pattern.contains '/' && !startsDeep then '*' :: '*' :: '/' :: pattern
    else pattern
  if "/**".toList.isSuffixOf placed then placed ++ ['/', '*'] else placed

/-- A line without blank characters at its end; a blank after a final backslash belongs to it. -/
def withoutEnd (line : List Char) : List Char :=
  if "\\ ".toList.isSuffixOf line then line else Chars.trimEnd line

/-- The marks before a pattern: whether it lets in, whether it is anchored, and the rest. -/
def marks : List Char → Bool × Bool × List Char
  | '\\' :: '!' :: rest => (false, false, '!' :: rest)
  | '\\' :: '#' :: rest => (false, false, '#' :: rest)
  | '!' :: '/' :: rest => (true, true, rest)
  | '!' :: rest => (true, false, rest)
  | '/' :: rest => (false, true, rest)
  | rest => (false, false, rest)

/-- A pattern without the slash at its end, and whether it had one. A backslash before that slash goes
with it. -/
def withoutFinalSlash (pattern : List Char) : List Char × Bool :=
  match pattern.reverse with
  | '/' :: '\\' :: rest => (rest.reverse, true)
  | '/' :: rest => (rest.reverse, true)
  | _ => (pattern, false)

/-- The rule that a line writes, if it writes one. -/
def ofLine? (line : String) : Option IgnoreRule :=
  let text := withoutEnd line.toList
  if line.toList.head? = some '#' || text.isEmpty then none
  else
    let (letsIn, anchored, marked) := marks text
    let (pattern, onlyDirectories) := withoutFinalSlash marked
    (Glob.read? (String.ofList (patternOf anchored pattern))).map fun glob =>
      ⟨glob, letsIn, onlyDirectories⟩

/-- Whether the rule is about an entry with a path relative to the rule's directory. -/
def applies (rule : IgnoreRule) (path : String) (isDirectory : Bool) : Bool :=
  (isDirectory || !rule.onlyDirectories) && rule.glob.matches path

end IgnoreRule

/-- The rules of a file, in the order of its lines. -/
abbrev IgnoreRules := List IgnoreRule

namespace IgnoreRules

/-- The rules that a text writes. A mark of the byte order at its start does not count. -/
def ofText (text : String) : IgnoreRules :=
  let chars := text.toList.dropWhile fun c => c = '\uFEFF'
  (splitLines (String.ofList chars)).filterMap IgnoreRule.ofLine?

/-- Whether an entry is let in or left out, if the rules are about it. -/
def letsIn? (rules : IgnoreRules) (path : String) (isDirectory : Bool) : Option Bool :=
  (rules.reverse.find? fun rule => rule.applies path isDirectory).map IgnoreRule.letsIn

end IgnoreRules

/-- What a directory says about the entries below it. -/
structure DirectoryRules where
  /-- The rules of the program's own file. -/
  own : IgnoreRules
  general : IgnoreRules
  repository : IgnoreRules
  /-- The rules inside the repository's own directory. -/
  excluded : IgnoreRules
  /-- Whether the directory is the top of a repository. -/
  isRepository : Bool

namespace DirectoryRules

/-- The name of the program's own file of patterns. -/
def ownName : String := ".stratguardignore"

/-- The name of the general file of patterns. -/
def generalName : String := ".ignore"

/-- The name of a repository's files of patterns. -/
def repositoryName : String := ".gitignore"

/-- The entry that makes a directory the top of a repository. -/
def repositoryMark : String := ".git"

/-- Where a repository keeps the patterns that it does not share. -/
def excludedNames : List String := [repositoryMark, "info", "exclude"]

/-- The rules of the file that names lead to. -/
def rulesAt (directory : Node) (names : List String) : IgnoreRules :=
  match directory.at? names with
  | some (.file (.text text)) => .ofText text
  | _ => []

/-- The rules of a directory. -/
def ofDirectory (directory : Node) : DirectoryRules where
  own := rulesAt directory [ownName]
  general := rulesAt directory [generalName]
  repository := rulesAt directory [repositoryName]
  excluded := rulesAt directory excludedNames
  isRepository := (directory.child? repositoryMark).isSome

end DirectoryRules

/-- The directories around an entry, innermost first, each with its name in the next one. -/
abbrev Surroundings := List (String × DirectoryRules)

namespace Surroundings

/-- The first opinion of the directories on an entry; `path` is relative to the innermost one. -/
def opinion? (rules : DirectoryRules → IgnoreRules) (isDirectory : Bool) (path : String) :
    Surroundings → Option Bool
  | [] => none
  | (name, directory) :: outer =>
    match (rules directory).letsIn? path isDirectory with
    | some letsIn => some letsIn
    | none => opinion? rules isDirectory (name ++ "/" ++ path) outer

/-- The directories up to the top of the innermost repository. -/
def insideRepository : Surroundings → Surroundings
  | [] => []
  | (name, directory) :: outer =>
    if directory.isRepository then [(name, directory)]
    else (name, directory) :: insideRepository outer

/-- The directories of the innermost repository; none outside of one. -/
def repositoryPart (around : Surroundings) : Surroundings :=
  if around.any fun entry => entry.2.isRepository then insideRepository around else []

/-- Whether an entry of the innermost directory is left out. -/
def leavesOut (around : Surroundings) (name : String) (isDirectory : Bool) : Bool :=
  let inside := repositoryPart around
  let opinion :=
    (opinion? DirectoryRules.own isDirectory name around).or <|
      (opinion? DirectoryRules.general isDirectory name around).or <|
        (opinion? DirectoryRules.repository isDirectory name inside).or <|
          opinion? DirectoryRules.excluded isDirectory name inside
  opinion = some false

end Surroundings

end StrategyMend.Files
