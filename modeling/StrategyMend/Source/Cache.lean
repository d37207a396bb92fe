import StrategyMend.Error
import StrategyMend.Source.Script

/-!
# Remembered parses

Parsing the same text again need not be done: a cache keeps what texts were parsed to, under keys of the
texts. It holds a bounded number of entries and may lose any of them at any time. A parser that fails is
asked again the next time, for its failures are not kept. The name and the lines of a script never come
from the cache.
-/

set_option autoImplicit false

namespace StrategyMend.Source

variable {κ : Type}

/-! ## Caches -/

/-- What texts were parsed to, by the keys of the texts. -/
structure Cache (κ : Type) where
  /-- The number of entries that the cache holds at most. -/
  capacity : Nat
  entries : List (κ × Parsed)

namespace Cache

/-- A cache without entries. With capacity zero it never has any. -/
def ofCapacity (capacity : Nat) : Cache κ := ⟨capacity, []⟩

/-- What is kept under a key. -/
def find? [DecidableEq κ] (cache : Cache κ) (key : κ) : Option Parsed :=
  (cache.entries.find? fun entry => entry.1 = key).map Prod.snd

/-- Keeps an entry, at the cost of the oldest if the cache is full. -/
def insert [DecidableEq κ] (cache : Cache κ) (key : κ) (parsed : Parsed) : Cache κ :=
  { cache with
    entries :=
      ((key, parsed) :: cache.entries.filter fun entry => entry.1 ≠ key).take cache.capacity }

/-- Loses all entries but those with the given keys. -/
def retain (cache : Cache κ) (kept : κ → Bool) : Cache κ :=
  { cache with entries := cache.entries.filter fun entry => kept entry.1 }

end Cache

/-! ## Parsers that may fail -/

/-- Why a parser cannot work on a text. -/
inductive ParserFault where
  | grammar (language reason : String)
  | noTree
  deriving DecidableEq

/-- The error of a fault met while the script with the given name is parsed. -/
def ParserFault.error (name : String) : ParserFault → ParserError
  | .grammar language reason => .grammar language reason
  | .noTree => .noTree name

/-- A parser of texts with the keys by which its work is remembered. -/
structure Parser (κ : Type) where
  read : String → Except ParserFault Parsed
  key : String → κ

namespace Parser

/-- The parser of the language, which never fails, with the texts as keys. -/
def standard : Parser String where
  read text := .ok (Source.parse text)
  key := id

/-- Parses a text without a cache. -/
def parseFresh (parser : Parser κ) (name text : String) : Except ParserError Script :=
  match parser.read text with
  | .ok parsed => .ok ⟨name, text, parsed⟩
  | .error fault => .error (fault.error name)

variable [DecidableEq κ]

/-- Parses a text unless the cache knows it, and keeps what it was parsed to. -/
def parse (parser : Parser κ) (cache : Cache κ) (name text : String) :
    Except ParserError Script × Cache κ :=
  match cache.find? (parser.key text) with
  | some parsed => (.ok ⟨name, text, parsed⟩, cache)
  | none =>
    match parser.read text with
    | .ok parsed => (.ok ⟨name, text, parsed⟩, cache.insert (parser.key text) parsed)
    | .error fault => (.error (fault.error name), cache)

end Parser

/-! ## Histories -/

/-- What happens to a cache. -/
inductive CacheEvent (κ : Type) where
  /-- A text is parsed. -/
  | parse (name text : String)
  /-- All entries but those with the given keys are lost. -/
  | lose (kept : κ → Bool)

/-- What the parses in a history give, one after the other. -/
def Parser.history [DecidableEq κ] (parser : Parser κ) (cache : Cache κ) :
    List (CacheEvent κ) → List (Except ParserError Script)
  | [] => []
  | .parse name text :: rest =>
    let (result, after) := parser.parse cache name text
    result :: parser.history after rest
  | .lose kept :: rest => parser.history (cache.retain kept) rest

end StrategyMend.Source
