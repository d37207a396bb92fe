import StrategyMend.Files.Path

/-!
# Trees of files

The files that the program works with form a tree. Paths are looked up in it from the root or from the
working directory. Every step of a path but the last must lead to a directory; a final slash is such a
step too.
-/

set_option autoImplicit false

namespace StrategyMend.Files

/-- What a file holds. -/
inductive Content where
  | text (text : String)
  /-- Bytes that are no text. -/
  | binary
  /-- Nothing that may be read. -/
  | closed
  deriving DecidableEq

/-- A file or a directory. -/
inductive Node where
  | file (content : Content)
  | directory (entries : List (String × Node))

/-- Why a file cannot be read or written. -/
inductive Fault where
  | notFound
  | notDirectory
  | isDirectory
  | notText
  | denied
  deriving DecidableEq

/-- The wording of a fault. -/
def Fault.message : Fault → String
  | .notFound => "No such file or directory (os error 2)"
  | .notDirectory => "Not a directory (os error 20)"
  | .isDirectory => "Is a directory (os error 21)"
  | .notText => "stream did not contain valid UTF-8"
  | .denied => "Permission denied (os error 13)"

namespace Node

/-- An empty directory. -/
def empty : Node := .directory []

/-- The entry of a directory. -/
def child? (node : Node) (name : String) : Option Node :=
  match node with
  | .directory entries => (entries.find? fun entry => entry.1 = name).map Prod.snd
  | .file _ => none

/-- Whether the node is a directory. -/
def isDirectory : Node → Bool
  | .directory _ => true
  | .file _ => false

/-- The node that names lead to. -/
def at? (node : Node) : List String → Option Node
  | [] => some node
  | name :: rest => (node.child? name).bind fun child => child.at? rest

/-- Entries with one of them set. -/
def setEntry (name : String) (node : Node) : List (String × Node) → List (String × Node)
  | [] => [(name, node)]
  | (other, old) :: rest =>
    if other = name then (name, node) :: rest else (other, old) :: setEntry name node rest

/-- Sets the node that names lead to, with the directories on the way. -/
def set (value : Node) : List String → Node → Node
  | [], _ => value
  | name :: rest, .directory entries =>
    let inner := ((entries.find? fun entry => entry.1 = name).map Prod.snd).getD empty
    .directory (setEntry name (set value rest inner) entries)
  | name :: rest, .file _ => .directory [(name, set value rest empty)]

end Node

/-- A tree of files and the directory in which relative paths begin, by its names from the root. -/
structure Tree where
  root : Node
  working : List String

namespace Tree

/-- The names from the root that the parts of a path lead to, from the names `reached` in reverse. -/
def follow (tree : Tree) : (reached : List String) → List String → Except Fault (List String)
  | reached, [] => .ok reached.reverse
  | reached, segment :: rest =>
    match tree.root.at? reached.reverse with
    | none => .error .notFound
    | some (.file _) => .error .notDirectory
    | some (.directory entries) =>
      if Path.isIdle segment then tree.follow reached rest
      else if segment = ".." then tree.follow (reached.drop 1) rest
      else if (entries.find? fun entry => entry.1 = segment).isSome then
        tree.follow (segment :: reached) rest
      else .error .notFound

/-- Where a path begins, as names in reverse. -/
def start (tree : Tree) (path : Path) : List String :=
  if path.isAbsolute then [] else tree.working.reverse

/-- The names from the root that a path leads to. -/
def resolve (tree : Tree) (path : Path) : Except Fault (List String) :=
  if path = "" then .error .notFound else tree.follow (tree.start path) path.segments

/-- The directory that a path leads to, with its names from the root. -/
def directory? (tree : Tree) (path : Path) : Option (List String × List (String × Node)) :=
  match tree.resolve path with
  | .error _ => none
  | .ok names =>
    match tree.root.at? names with
    | some (.directory entries) => some (names, entries)
    | _ => none

/-- The text of a file. -/
def read (tree : Tree) (path : Path) : Except Fault String := do
  let names ← tree.resolve path
  match tree.root.at? names with
  | none => .error .notFound
  | some (.directory _) => .error .isDirectory
  | some (.file .binary) => .error .notText
  | some (.file .closed) => .error .denied
  | some (.file (.text text)) => .ok text

/-- Writes a text to a file, which is made if its directory is there. -/
def write (tree : Tree) (path : Path) (text : String) : Except Fault Tree :=
  match path.segments.reverse with
  | [] => .error .notFound
  | last :: before =>
    if path = "" then .error .notFound
    else do
      let names ← tree.follow (tree.start path) before.reverse
      match tree.root.at? names with
      | none => .error .notFound
      | some (.file _) => .error .notDirectory
      | some (.directory entries) =>
        if Path.isIdle last || last = ".." then .error .isDirectory
        else if ((entries.find? fun entry => entry.1 = last).map fun entry =>
            entry.2.isDirectory).getD false then .error .isDirectory
        else .ok { tree with root := Node.set (.file (.text text)) (names ++ [last]) tree.root }

end Tree

end StrategyMend.Files
