import StrategyMend.Source.Cache

/-!
# The cache does not show

A cache is faithful to some texts if whatever it keeps is what one of them was parsed to, under that
text's key. A parse of such a text keeps the cache faithful, and so does any loss of entries
(`CacheEvent.faithful`), so the cache is faithful to the texts of its history throughout
(`faithful_after`). Where no two texts share a key, a faithful cache can only give what a fresh parse
would (`Faithful.parse_eq`).

Together: the parses of a history give what they would give without a cache, and no failure is ever
kept (`history_eq_fresh`).
-/

set_option autoImplicit false

namespace StrategyMend.Source

variable {κ : Type}

/-! ## Histories -/

namespace CacheEvent

/-- The text that is parsed, if any is. -/
def text? : CacheEvent κ → Option String
  | .parse _ text => some text
  | .lose _ => none

/-- What a parse gives without a cache, if the event is one. -/
def fresh? (parser : Parser κ) : CacheEvent κ → Option (Except ParserError Script)
  | .parse name text => some (parser.parseFresh name text)
  | .lose _ => none

/-- What a parse gives with a cache, if the event is one. -/
def result? [DecidableEq κ] (parser : Parser κ) (cache : Cache κ) :
    CacheEvent κ → Option (Except ParserError Script)
  | .parse name text => some (parser.parse cache name text).1
  | .lose _ => none

/-- The cache after an event. -/
def after [DecidableEq κ] (parser : Parser κ) (cache : Cache κ) : CacheEvent κ → Cache κ
  | .parse name text => (parser.parse cache name text).2
  | .lose kept => cache.retain kept

end CacheEvent

/-- The texts that are parsed in a history. -/
def parsedTexts (events : List (CacheEvent κ)) : List String := events.filterMap CacheEvent.text?

theorem forall_mem_parsedTexts_cons {property : String → Prop} {event : CacheEvent κ}
    {rest : List (CacheEvent κ)} :
    (∀ text ∈ parsedTexts (event :: rest), property text) ↔
      (∀ text, event.text? = some text → property text) ∧
        ∀ text ∈ parsedTexts rest, property text := by
  cases event <;> simp [parsedTexts, CacheEvent.text?]

namespace Parser

/-- The cache after a history. -/
def cacheAfter [DecidableEq κ] (parser : Parser κ) (cache : Cache κ)
    (events : List (CacheEvent κ)) : Cache κ :=
  events.foldl (CacheEvent.after parser) cache

/-- No two of the texts share a key. -/
def KeysApart (parser : Parser κ) (texts : List String) : Prop :=
  ∀ first ∈ texts, ∀ second ∈ texts, parser.key first = parser.key second → first = second

end Parser

/-! ## Faithful caches -/

namespace Cache

/-- Whatever the cache keeps is what one of the texts was parsed to, under its key. -/
def Faithful (parser : Parser κ) (texts : List String) (cache : Cache κ) : Prop :=
  ∀ entry ∈ cache.entries, ∃ text ∈ texts, parser.key text = entry.1 ∧
    parser.read text = .ok entry.2

variable {parser : Parser κ} {texts : List String} {cache : Cache κ}

theorem faithful_ofCapacity (parser : Parser κ) (texts : List String) (capacity : Nat) :
    (Cache.ofCapacity capacity).Faithful parser texts := by
  intro entry member
  cases member

theorem Faithful.retain (faithful : cache.Faithful parser texts) (kept : κ → Bool) :
    (cache.retain kept).Faithful parser texts := fun entry member =>
  faithful entry (List.mem_filter.mp member).1

variable [DecidableEq κ]

theorem exists_mem_of_find? {key : κ} {parsed : Parsed} (found : cache.find? key = some parsed) :
    (key, parsed) ∈ cache.entries := by
  obtain ⟨⟨key', parsed'⟩, here, rfl⟩ := Option.map_eq_some_iff.mp found
  obtain rfl : key' = key := by simpa using List.find?_some here
  exact List.mem_of_find?_eq_some here

/-- An entry of a full cache is the new one or an old one. -/
theorem mem_insert {key : κ} {parsed : Parsed} {entry : κ × Parsed}
    (member : entry ∈ (cache.insert key parsed).entries) :
    entry = (key, parsed) ∨ entry ∈ cache.entries := by
  rcases List.mem_cons.mp (List.mem_of_mem_take member) with new | old
  · exact .inl new
  · exact .inr (List.mem_filter.mp old).1

theorem Faithful.insert (faithful : cache.Faithful parser texts) {text : String} {parsed : Parsed}
    (listed : text ∈ texts) (read : parser.read text = .ok parsed) :
    (cache.insert (parser.key text) parsed).Faithful parser texts := by
  intro entry member
  rcases mem_insert member with rfl | old
  · exact ⟨text, listed, rfl, read⟩
  · exact faithful entry old

/-- What a faithful cache keeps for a text is what that text is parsed to. -/
theorem Faithful.read_of_find? (faithful : cache.Faithful parser texts)
    (apart : parser.KeysApart texts) {text : String} (listed : text ∈ texts) {parsed : Parsed}
    (found : cache.find? (parser.key text) = some parsed) : parser.read text = .ok parsed := by
  obtain ⟨other, listed', same, read⟩ := faithful _ (exists_mem_of_find? found)
  rwa [apart other listed' text listed same] at read

/-- **A hit gives what a fresh parse gives.** -/
theorem Faithful.parse_eq (faithful : cache.Faithful parser texts) (apart : parser.KeysApart texts)
    (name : String) {text : String} (listed : text ∈ texts) :
    (parser.parse cache name text).1 = parser.parseFresh name text := by
  unfold Parser.parse Parser.parseFresh
  cases found : cache.find? (parser.key text) with
  | some parsed => rw [faithful.read_of_find? apart listed found]
  | none =>
    cases parser.read text with
    | ok parsed => rfl
    | error fault => rfl

end Cache

/-- With a faithful cache an event gives what it gives without one. -/
theorem CacheEvent.result?_eq_fresh? {parser : Parser κ} {texts : List String} {cache : Cache κ}
    [DecidableEq κ] (faithful : cache.Faithful parser texts) (apart : parser.KeysApart texts)
    (event : CacheEvent κ) (listed : ∀ text, event.text? = some text → text ∈ texts) :
    event.result? parser cache = event.fresh? parser := by
  cases event with
  | lose kept => rfl
  | parse name text => exact congrArg some (faithful.parse_eq apart name (listed text rfl))

/-- **A step keeps the cache faithful**, whether a text is parsed or entries are lost. -/
theorem CacheEvent.faithful {parser : Parser κ} {texts : List String} {cache : Cache κ}
    [DecidableEq κ] (faithful : cache.Faithful parser texts) (event : CacheEvent κ)
    (listed : ∀ text, event.text? = some text → text ∈ texts) :
    (event.after parser cache).Faithful parser texts := by
  cases event with
  | lose kept => exact faithful.retain kept
  | parse name text =>
    rw [CacheEvent.after, Parser.parse]
    cases cache.find? (parser.key text) with
    | some parsed => exact faithful
    | none =>
      cases read : parser.read text with
      | ok parsed => exact faithful.insert (listed text rfl) read
      | error fault => exact faithful

namespace Parser

variable [DecidableEq κ] {parser : Parser κ} {texts : List String} {cache : Cache κ}
  {events : List (CacheEvent κ)}

/-- The first event decides the first result and the cache from which the others go on. -/
theorem history_cons (parser : Parser κ) (cache : Cache κ) (event : CacheEvent κ)
    (rest : List (CacheEvent κ)) :
    parser.history cache (event :: rest) =
      (event.result? parser cache).toList ++ parser.history (event.after parser cache) rest := by
  cases event <;> rfl

/-- A whole history keeps the cache faithful. -/
theorem faithful_after (faithful : cache.Faithful parser texts)
    (listed : ∀ text ∈ parsedTexts events, text ∈ texts) :
    (parser.cacheAfter cache events).Faithful parser texts := by
  induction events generalizing cache with
  | nil => exact faithful
  | cons event rest ih =>
    obtain ⟨first, later⟩ := forall_mem_parsedTexts_cons.mp listed
    exact ih (event.faithful faithful first) later

/-- From a faithful cache, every parse of a history gives what a fresh one gives. -/
theorem history_of_faithful (faithful : cache.Faithful parser texts)
    (apart : parser.KeysApart texts) (listed : ∀ text ∈ parsedTexts events, text ∈ texts) :
    parser.history cache events = events.filterMap (CacheEvent.fresh? parser) := by
  induction events generalizing cache with
  | nil => rfl
  | cons event rest ih =>
    obtain ⟨first, later⟩ := forall_mem_parsedTexts_cons.mp listed
    rw [history_cons, event.result?_eq_fresh? faithful apart first,
      ih (event.faithful faithful first) later]
    cases event <;> rfl

/-- A text that cannot be parsed is not in a faithful cache. -/
theorem find?_of_fault (faithful : cache.Faithful parser texts) (apart : parser.KeysApart texts)
    {text : String} (listed : text ∈ texts) {fault : ParserFault}
    (fails : parser.read text = .error fault) : cache.find? (parser.key text) = none := by
  rw [Option.eq_none_iff_forall_ne_some]
  intro parsed found
  have read := faithful.read_of_find? apart listed found
  rw [fails] at read
  cases read

/-- **The cache does not show.** Whatever its capacity and whatever entries it loses, every parse gives
what it would give without a cache, as long as no two of the texts share a key; and at no time does
the cache keep anything for a text whose parse fails. -/
theorem history_eq_fresh (parser : Parser κ) (capacity : Nat) (events : List (CacheEvent κ))
    (apart : parser.KeysApart (parsedTexts events)) :
    parser.history (.ofCapacity capacity) events =
        events.filterMap (CacheEvent.fresh? parser) ∧
      ∀ past, past <+: events → ∀ text ∈ parsedTexts events, ∀ fault,
        parser.read text = .error fault →
          (parser.cacheAfter (.ofCapacity capacity) past).find? (parser.key text) = none := by
  have empty := Cache.faithful_ofCapacity parser (parsedTexts events) capacity
  refine ⟨history_of_faithful empty apart fun _ listed => listed, ?_⟩
  intro past before text listed fault fails
  have earlier : ∀ text ∈ parsedTexts past, text ∈ parsedTexts events := fun _ member =>
    (before.filterMap CacheEvent.text?).subset member
  exact find?_of_fault (faithful_after empty earlier) apart listed fails

/-- The parser of the language with the lengths of texts as their keys. -/
def lengthKeyed : Parser Nat where
  read := standard.read
  key := String.length

/-- A cache for one entry is asked for a text it has, for one it has lost its place to, and for one that
was lost. One of the texts does not parse. -/
theorem history_eq_fresh_lengthKeyed :
    let sound := "x = 1\n"
    let broken := "def f(:\n"
    let events : List (CacheEvent Nat) :=
      [.parse "a" sound, .parse "b" sound, .parse "c" broken, .parse "d" sound,
        .lose fun _ => false, .parse "e" sound]
    lengthKeyed.KeysApart (parsedTexts events) ∧
      lengthKeyed.history (.ofCapacity 1) events =
        [.ok (.ofText "a" sound), .ok (.ofText "b" sound), .ok (.ofText "c" broken),
          .ok (.ofText "d" sound), .ok (.ofText "e" sound)] := by
  intro sound broken events
  have texts : parsedTexts events = [sound, sound, broken, sound, sound] := rfl
  have apart : lengthKeyed.KeysApart (parsedTexts events) := by
    rw [texts, KeysApart]
    decide +kernel
  exact ⟨apart, (history_eq_fresh lengthKeyed 1 events apart).1⟩

end Parser

end StrategyMend.Source
