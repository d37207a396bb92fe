import StrategyMend.Json.Basic

/-!
# TOML documents under construction

A document is a tree of tables. A table remembers how it came to be, since that decides what may still
be added to it: a table is opened by a header at most once, a table made by dotted keys is extended by
dotted keys only, and a value is never changed. Where a header passes through an array of tables, it
means the last of them.
-/

set_option autoImplicit false

namespace StrategyMend.Toml

/-- How a table came to be. -/
inductive Origin where
  /-- By a header of its own, or as the document. -/
  | header
  /-- By a header of a table inside it. -/
  | passed
  /-- By a dotted key. -/
  | dotted
  deriving DecidableEq

/-- Whether dotted keys may pass through a table. -/
def Origin.isImplicit : Origin → Bool
  | .header => false
  | _ => true

/-- What stands under a key. -/
inductive Item where
  | value (json : Json)
  | table (origin : Origin) (entries : List (String × Item))
  /-- An array of tables, each opened by a header. -/
  | tables (all : List (List (String × Item)))

/-- The entries of a table in the order of their keys' first use. -/
abbrev Entries := List (String × Item)

/-- A key's dotted path. -/
abbrev Path := List String

/-- Changes what stands under a key, or refuses to; `change` is given what stands there so far. -/
def changeKey (key : String) (change : Option Item → Option Item) : Entries → Option Entries
  | [] => (change none).map fun item => [(key, item)]
  | (name, item) :: rest =>
    if name = key then (change (some item)).map fun changed => (name, changed) :: rest
    else (changeKey key change rest).map ((name, item) :: ·)

/-- Changes the last of some tables. -/
def changeLast (change : Entries → Option Entries) : List Entries → Option (List Entries)
  | [] => none
  | [last] => (change last).map ([·])
  | first :: rest => (changeLast change rest).map (first :: ·)

/-- Puts an item under a new key. -/
def putNew (key : String) (item : Item) : Entries → Option Entries :=
  changeKey key fun
    | none => some item
    | some _ => none

/-- Puts an item under a dotted key. `open_` says whether the table at hand takes such a key's end. -/
def putDotted (key : String) (item : Item) : (open_ : Bool) → Path → Entries → Option Entries
  | open_, [], entries => if open_ then putNew key item entries else none
  | _, name :: path, entries =>
    changeKey name (fun
      | none => (putDotted key item true path []).map (.table .dotted)
      | some (.table origin inner) =>
        if origin.isImplicit then
          (putDotted key item (origin = .dotted) path inner).map (.table origin)
        else none
      | some (.tables all) => (changeLast (putDotted key item false path) all).map .tables
      | some (.value _) => none) entries

/-- Changes the table that an opened header names. -/
def changeTable (change : Entries → Option Entries) : Path → Entries → Option Entries
  | [], entries => change entries
  | name :: path, entries =>
    changeKey name (fun
      | some (.table origin inner) => (changeTable change path inner).map (.table origin)
      | some (.tables all) => (changeLast (changeTable change path) all).map .tables
      | _ => none) entries

/-- Opens a table by a header: changes what stands under the last name of a path, and makes the tables
on the way there. -/
def openWith (change : Option Item → Option Item) : Path → Entries → Option Entries
  | [], _ => none
  | [name], entries => changeKey name change entries
  | name :: path, entries =>
    changeKey name (fun
      | none => (openWith change path []).map (.table .passed)
      | some (.table origin inner) => (openWith change path inner).map (.table origin)
      | some (.tables all) => (changeLast (openWith change path) all).map .tables
      | some (.value _) => none) entries

/-- Opens the table with a path. -/
def openTable : Path → Entries → Option Entries :=
  openWith fun
    | none => some (.table .header [])
    | some (.table .passed inner) => some (.table .header inner)
    | _ => none

/-- Opens one more table of the array of tables with a path. -/
def openElement : Path → Entries → Option Entries :=
  openWith fun
    | none => some (.tables [[]])
    | some (.tables all) => some (.tables (all ++ [[]]))
    | _ => none

mutual

/-- What stands under a key as a JSON value. -/
def Item.toJson : Item → Json
  | .value json => json
  | .table _ entries => .object (membersOf entries)
  | .tables all => .array (objectsOf all)

/-- The entries of a table as the members of an object. -/
def membersOf : List (String × Item) → List (String × Json)
  | [] => []
  | (key, item) :: rest => (key, item.toJson) :: membersOf rest

/-- Tables as objects. -/
def objectsOf : List (List (String × Item)) → List Json
  | [] => []
  | entries :: rest => .object (membersOf entries) :: objectsOf rest

end

end StrategyMend.Toml
