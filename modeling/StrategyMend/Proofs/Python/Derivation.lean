import StrategyMend.Proofs.Python.Operands
import StrategyMend.Proofs.Python.SimpleStatements

/-!
# How statements are put together

What the readers of statements accept, as a relation between cursors (`Derives`): a header with its
body, the later clauses behind it, the lines of a block. How a head is read is told by the tracks that
it is read along (`Cursor.Reaches`), so a statement about the lexemes of a head is one about a track.
Every reader of statements only gives what can be derived (`Reader.leads_statementOfDepth`), and so does
the reader of a source (`Module.derives_of_read`).

What holds of all sources can so be shown by induction on a derivation, with a case for each way to put
statements together and without the readers.
-/

set_option autoImplicit false

namespace StrategyMend.Python

/-- The keyword that a clause begins with. -/
def BlockKind.keyword : BlockKind → String
  | ifStatement => "if"
  | whileStatement => "while"
  | forStatement => "for"
  | tryStatement => "try"
  | withStatement => "with"
  | matchStatement => "match"
  | elifClause => "elif"
  | elseClause => "else"
  | exceptClause => "except"
  | finallyClause => "finally"
  | caseClause => "case"

/-! ## Headers -/

namespace Cursor

/-- Every track that leads through the first cursor, outside of brackets, leads to the other one, inside
of so many brackets. -/
def Reaches (start : Cursor) (depth : Nat) (cursor : Cursor) : Prop :=
  ∀ track : Track, track.ReadsStrings → track.On 0 start → track.On depth cursor

/-- What comes next is not indented less than the block around it. -/
def Inside (cursor : Cursor) : Prop :=
  ∀ column, cursor.lookahead.1.column? = some column → cursor.indent ≤ column

/-- What may be found where a statement may begin: the next lexeme, or nothing if the block ends. -/
structure Shows (cursor : Cursor) (found : Option Lookahead) : Prop where
  seen : ∀ ahead, found = some ahead → cursor.lookahead.1 = ahead ∧ cursor.Inside
  ended : found = none → ¬cursor.Inside

/-- What is seen there is also seen in brackets, where no line ends. -/
theorem Shows.peek? {cursor : Cursor} {ahead : Lookahead} (shows : cursor.Shows (some ahead)) :
    cursor.peek? .inBrackets = some ahead :=
  congrArg some (shows.seen ahead rfl).1

/-- The keywords that may stand behind `async`. -/
def asyncKeywords : List String := ["def", "for", "with"]

/-- The keyword of a header comes next, perhaps behind `async`. -/
inductive Announces (start : Cursor) (keyword : String) : Cursor → Prop where
  | alone (isWord : start.lookahead.1.isWord keyword = true) :
    Announces start keyword start.lookahead.1.after
  | async {place : Place} {ahead : Lookahead} (isWord : start.lookahead.1.isWord "async" = true)
    (outside : place ≠ .inBrackets) (seen : start.lookahead.1.after.peek? place = some ahead)
    (isKeyword : ahead.isWord keyword = true) (listed : keyword ∈ asyncKeywords) :
    Announces start keyword ahead.after

/-- The cursor is behind part of a head, inside of so many brackets. -/
def Within (start : Cursor) (keyword : String) (depth : Nat) (cursor : Cursor) : Prop :=
  ∃ begun, start.Announces keyword begun ∧ begun.Reaches depth cursor

/-- A header: behind a keyword and a head comes a colon, and then the second cursor. -/
inductive Heads (start : Cursor) (keyword : String) : Cursor → Prop where
  | intro {last : Cursor} {colon : Lookahead} (within : start.Within keyword 0 last)
    (seen : last.peek? .inStatement = some colon) (isColon : colon.isMark ":" = true) :
    Heads start keyword colon.after

variable {start cursor next : Cursor} {depth : Nat} {keyword : String}

theorem reaches_self (cursor : Cursor) : cursor.Reaches 0 cursor := fun _ _ here => here

theorem Announces.within (announces : start.Announces keyword cursor) :
    start.Within keyword 0 cursor :=
  ⟨cursor, announces, reaches_self cursor⟩

theorem Reaches.pass {place : Place} {ahead : Lookahead} {depth' : Nat}
    (reaches : start.Reaches depth cursor) (fits : place.Fits depth)
    (seen : cursor.peek? place = some ahead)
    (moves : ∀ colons, ahead.lexeme.Moves colons depth depth') : start.Reaches depth' ahead.after :=
  fun track reads here =>
    track.passes ⟨cursor, place, reaches track reads here, fits, seen⟩ (moves track.colons)

/-- A word in a head is passed. -/
theorem Within.pass_word {place : Place} {ahead : Lookahead} {word : String}
    (within : start.Within keyword depth cursor) (fits : place.Fits depth)
    (seen : cursor.peek? place = some ahead) (isWord : ahead.isWord word = true) :
    start.Within keyword depth ahead.after := by
  obtain ⟨begun, announces, reaches⟩ := within
  exact ⟨begun, announces, reaches.pass fits seen fun _ =>
    Lookahead.moves_word (Lookahead.lexeme_of_isWord isWord) depth⟩

/-- A word that is seen inside of a statement is not indented less than the block. -/
theorem inside_of_word {ahead : Lookahead} {word : String}
    (seen : cursor.peek? .inStatement = some ahead) (isWord : ahead.isWord word = true) :
    ahead = cursor.lookahead.1 ∧ cursor.Inside := by
  obtain ⟨rfl, level⟩ := columns_of_peek? seen
  refine ⟨rfl, fun column here => level column ?_⟩
  have word : cursor.lookahead.1.isBareString cursor.lookahead.2 = false := by
    simp only [Lookahead.isBareString, Lookahead.lexeme_of_isWord isWord]
  rw [word, if_neg Bool.false_ne_true]
  exact List.mem_of_getLast? here

/-- Statements have characters. -/
theorem present_of_simpleStatements {found : List Statement}
    (read : simpleStatements start.settled = some (found, next)) : start.lookahead.2 ≠ [] := by
  intro ended
  have ended' : start.settled.lookahead.2 = [] := by
    rw [Cursor.lookahead, settled, ended]
    rfl
  obtain ⟨⟨first, between⟩, here, -⟩ := Option.bind_eq_some_iff.mp read
  exact Reader.leads_simpleStatement_finish ended' _ first between rfl here

end Cursor

/-! ## Derivations -/

/-- The parts that a source is put together from. -/
inductive Part where
  /-- The statements of a line, or one with its blocks. -/
  | line
  /-- The lines of a block. -/
  | lines
  /-- The body behind the colon of a header. -/
  | suite
  /-- The later clauses behind a clause with the given row and kind. -/
  | clauses (row : Nat) (kind : BlockKind)

/-- Statements that are read from the first cursor up to the second one. -/
inductive Derives : Part → Cursor → List Statement → Cursor → Prop where
  | simple {start next : Cursor} {found : List Statement} (present : start.lookahead.2 ≠ [])
    (read : simpleStatements start.settled = some (found, next)) : Derives .line start found next
  | block {start behind between next : Cursor} {kind : BlockKind} {head : List Expression}
    {body later : List Statement} (first : kind.isLater = false)
    (heads : start.Heads kind.keyword behind) (suite : Derives .suite behind body between)
    (clauses : Derives (.clauses start.lookahead.1.row kind) between later next) :
    Derives .line start [.block start.lookahead.1.row kind head (body ++ later)] next
  | function {start behind next : Cursor} {name : String}
    {typeParameters parameters returns : List Expression} {body : List Statement}
    (heads : start.Heads "def" behind) (suite : Derives .suite behind body next) :
    Derives .line start
      [.function start.lookahead.1.row name typeParameters parameters returns body] next
  | classDef {start behind next : Cursor} {name : String}
    {typeParameters superclasses : List Expression} {body : List Statement}
    (heads : start.Heads "class" behind) (suite : Derives .suite behind body next) :
    Derives .line start
      [.classDef start.lookahead.1.row name typeParameters superclasses body] next
  | decorated {start between next : Cursor} {decorators : List Expression} {definition : Statement}
    (mark : start.lookahead.1.isMark "@" = true) (reaches : start.settled.Reaches 0 between)
    (broken : between.IsBroken) (inside : between.Inside)
    (line : Derives .line between [definition] next) :
    Derives .line start [.decorated start.lookahead.1.row decorators definition] next
  | none (start : Cursor) : Derives .lines start [] start
  | more {start between next : Cursor} {found others : List Statement}
    (lines : Derives .lines start found between) (inside : between.Inside)
    (line : Derives .line between others next) : Derives .lines start (found ++ others) next
  | beside {start next : Cursor} {found : List Statement}
    (unbroken : start.lookahead.1.column? = Option.none)
    (read : simpleStatements start = some (found, next)) : Derives .suite start found next
  | empty {start : Cursor} {column : Nat} (here : start.lookahead.1.column? = some column)
    (outside : column ≤ start.indent) : Derives .suite start [] start
  | deeper {start next : Cursor} {column : Nat} {found : List Statement}
    (here : start.lookahead.1.column? = some column) (deeper : start.indent < column)
    (lines : Derives .lines { start with blocks := column :: start.blocks } found next)
    (ended : ¬next.Inside) : Derives .suite start found { next with blocks := next.blocks.tail }
  | last (row : Nat) (kind : BlockKind) (start : Cursor) : Derives (.clauses row kind) start [] start
  | clause {row : Nat} {previous kind : BlockKind} {start behind between next : Cursor}
    {head : List Expression} {body others : List Statement} (later : kind.isLater = true)
    (inside : start.Inside) (isWord : start.lookahead.1.isWord kind.keyword = true)
    (heads : start.Heads kind.keyword behind) (suite : Derives .suite behind body between)
    (clauses : Derives (.clauses start.lookahead.1.row kind) between others next) :
    Derives (.clauses row previous) start
      (.block start.lookahead.1.row kind head body :: others) next

/-- The lines of a block are a first one and others, unless there are none. -/
theorem Derives.lines_cases {start next : Cursor} {found : List Statement}
    (derives : Derives .lines start found next) :
    (found = [] ∧ next = start) ∨ ∃ first others between, found = first ++ others ∧ start.Inside ∧
      Derives .line start first between ∧ Derives .lines between others next := by
  generalize lines : Part.lines = part at derives
  induction derives with
  | none start => exact .inl ⟨rfl, rfl⟩
  | @more start last next found line _ inside derives before _ =>
    rcases before rfl with ⟨rfl, rfl⟩ | ⟨first, others, between, rfl, first', head, rest⟩
    · exact .inr ⟨line, [], next, by simp, inside, derives, .none _⟩
    · exact .inr ⟨first, others ++ line, between, List.append_assoc _ _ _, first', head,
        rest.more inside derives⟩
  | _ => cases lines

/-- A block that is read up to its end has a first line. -/
theorem Derives.first_of_inside {start last : Cursor} {found : List Statement}
    (derives : Derives .lines start found last) (inside : start.Inside) (ended : ¬last.Inside) :
    ∃ first others between, found = first ++ others ∧ Derives .line start first between ∧
      Derives .lines between others last := by
  rcases derives.lines_cases with ⟨-, rfl⟩ | ⟨first, others, between, split, -, line, rest⟩
  · exact absurd inside ended
  · exact ⟨first, others, between, split, line, rest⟩

/-- Later clauses behind which others may come. -/
def Continues (row : Nat) (kind : BlockKind) (start : Cursor) (clauses : List Statement)
    (cursor : Cursor) : Prop :=
  ∃ row' kind', ∀ others next, Derives (.clauses row' kind') cursor others next →
    Derives (.clauses row kind) start (clauses ++ others) next

theorem continues_nil (row : Nat) (kind : BlockKind) (start : Cursor) :
    Continues row kind start [] start :=
  ⟨row, kind, fun _ _ derives => derives⟩

/-- One more clause. -/
theorem Continues.extend {row : Nat} {previous kind : BlockKind} {start cursor behind next : Cursor}
    {clauses body : List Statement} {head : List Expression}
    (continues : Continues row previous start clauses cursor) (later : kind.isLater = true)
    (inside : cursor.Inside) (isWord : cursor.lookahead.1.isWord kind.keyword = true)
    (heads : cursor.Heads kind.keyword behind) (suite : Derives .suite behind body next) :
    Continues row previous start
      (clauses ++ [.block cursor.lookahead.1.row kind head body]) next := by
  obtain ⟨row', kind', derives⟩ := continues
  refine ⟨cursor.lookahead.1.row, kind, fun others last rest => ?_⟩
  rw [List.append_assoc]
  exact derives _ _ (.clause later inside isWord heads suite rest)

theorem Continues.derives {row : Nat} {kind : BlockKind} {start next : Cursor}
    {clauses : List Statement} (continues : Continues row kind start clauses next) :
    Derives (.clauses row kind) start clauses next := by
  obtain ⟨row', kind', derives⟩ := continues
  simpa using derives [] next (.last row' kind' next)

namespace Track

open Reader

variable {track : Track} {depth : Nat}

/-! ## Heads -/

/-- A star is passed without a look at what comes behind it. -/
theorem leads_star : Leads (fun cursor => track.On depth cursor ∧ cursor.rest.head? = some '*')
    (advance 1) fun _ => track.On depth := by
  rintro cursor result next ⟨here, star⟩ read
  cases read
  exact track.stars here star

section Heads

variable (reads : track.ReadsStrings)
include reads

theorem keeps_headExpression : track.Keeps depth (expression .inStatement headFollow) :=
  keeps_expression reads Place.fits_inStatement

theorem keeps_headExpressions :
    track.Keeps depth (expressions expression .inStatement headFollow []) :=
  keeps_expressions (nests_expression reads) Place.fits_inStatement Place.fits_inStatement _

theorem keeps_loopTargets : track.Keeps depth loopTargets := by
  have target : track.Keeps depth (primary expression .inStatement headFollow) :=
    nests_primary (nests_expression reads) (strings_expression reads) _ _ _ Place.fits_inStatement
      Place.fits_inStatement
  refine target.bind fun _ => leads_unless ?_
  refine (keeps_iterate fun state => ?_).bind fun _ =>
    (keeps_expectWord Place.fits_inStatement _).bind fun _ => keeps_pure
  refine keeps_ite keeps_pure ((try_flat Place.fits_inStatement rfl).bind fun _ =>
    keeps_ite ?_ keeps_pure)
  refine keeps_peek Place.fits_inStatement fun _ _ => keeps_ite keeps_pure ?_
  exact target.bind fun _ => leads_unless keeps_pure

theorem keeps_exceptHead : track.Keeps depth exceptHead := by
  have value : track.Keeps depth (expression .inStatement headFollow) := keeps_headExpression reads
  refine keeps_peek Place.fits_inStatement fun _ _ => keeps_ite keeps_pure (value.bind fun _ => ?_)
  refine (try_flat Place.fits_inStatement rfl).bind fun _ => keeps_ite ?_ keeps_pure
  exact value.bind fun _ => keeps_pure

/-- The patterns of a case. -/
theorem keeps_patterns {state : List String} : track.Keeps depth (iterate
    (fun (names, trailing) => do
      if trailing then pure none
      else if ← tryMark .inStatement "," then
        let next ← peek .inStatement
        if next.isMark ":" || next.isWord "if" then pure (some (names, true))
        else
          let found ← pattern .inStatement .inStatement
          pure (some (names ++ found, false))
      else pure none) (state, false)) := by
  refine keeps_iterate fun state => keeps_ite keeps_pure
    ((try_flat Place.fits_inStatement rfl).bind fun _ => keeps_ite ?_ keeps_pure)
  refine keeps_peek Place.fits_inStatement fun _ _ => keeps_ite keeps_pure ?_
  exact (keeps_pattern reads Place.fits_inStatement Place.fits_inStatement).bind fun _ => keeps_pure

theorem keeps_optionalTypeParameters : track.Keeps depth optionalTypeParameters := by
  refine (leads_tryMark Place.fits_inStatement (.opening rfl depth)).bind fun found => ?_
  cases found with
  | true => exact closes_typeParameters (nests_expression reads)
  | false => exact keeps_pure

end Heads

end Track

namespace Reader

theorem stays_optionalTypeParameters {text : List Char} : Stays text optionalTypeParameters :=
  stays_of_keeps fun _ reads => Track.keeps_optionalTypeParameters reads

variable {α : Type} {start cursor : Cursor} {keyword : String} {depth depth' : Nat}

/-- What every track leads along leads to cursors that are reached. -/
theorem leads_reaches {reader : Reader α}
    (leads : ∀ track : Track, track.ReadsStrings →
      Leads (track.On depth) reader fun _ => track.On depth') :
    Leads (start.Reaches depth) reader fun _ => start.Reaches depth' :=
  fun cursor result next reaches read track reads here =>
    leads track reads cursor result next (reaches track reads here) read

/-- A reader that keeps to all tracks goes on in the head. -/
theorem leads_within {reader : Reader α}
    (leads : ∀ track : Track, track.ReadsStrings →
      Leads (track.On depth) reader fun _ => track.On depth') :
    Leads (start.Within keyword depth) reader fun _ => start.Within keyword depth' := by
  rintro cursor result next ⟨begun, announces, reaches⟩ read
  exact ⟨begun, announces, leads_reaches leads cursor result next reaches read⟩

/-- So does one that may pass a bracket. -/
theorem leads_tryBracket {sign : String} (opens : openingMarks.contains sign = true) :
    Leads (start.Within keyword depth) (tryMark .inStatement sign) fun found cursor =>
      if found then start.Within keyword (depth + 1) cursor else start.Within keyword depth cursor := by
  rintro cursor result next ⟨begun, announces, reaches⟩ read
  have along (track : Track) (reads : track.ReadsStrings) (here : track.On 0 begun) :=
    Track.leads_tryMark Place.fits_inStatement (.opening opens depth) cursor result next
      (reaches track reads here) read
  cases result with
  | true => exact ⟨begun, announces, along⟩
  | false => exact ⟨begun, announces, along⟩

/-- A star may follow the keyword. -/
theorem leads_star : Leads (fun cursor => start.Within keyword 0 cursor ∧
    cursor.rest.head? = some '*') (advance 1) fun _ => start.Within keyword 0 := by
  rintro cursor result next ⟨⟨begun, announces, reaches⟩, star⟩ read
  exact ⟨begun, announces, fun track reads here =>
    Track.leads_star cursor result next ⟨reaches track reads here, star⟩ read⟩

/-! ## Blocks -/

/-- At the beginning of a statement the next lexeme is seen, or none. -/
theorem leads_peekStatement_from {next : Option Lookahead → Reader α} {after : α → Cursor → Prop}
    (leads : ∀ found, cursor.Shows found → Leads (· = cursor) (next found) after) :
    Leads (· = cursor) (peekStatement >>= next) after := by
  have sees : Leads (· = cursor) peekStatement fun found cursor' =>
      cursor' = cursor ∧ cursor.Shows found := by
    refine leads_get_from (leads_peek_from fun ahead seen => ?_)
    obtain rfl : cursor.lookahead.1 = ahead := Option.some.inj seen
    split
    · rename_i column here
      refine leads_pure_from ?_
      split
      · rename_i outside
        exact ⟨rfl, nofun, fun _ inside => Nat.not_lt_of_le (inside column here) outside⟩
      · rename_i inside
        refine ⟨rfl, fun found same => ⟨Option.some.inj same, fun column' here' => ?_⟩, nofun⟩
        obtain rfl := Option.some.inj (here.symm.trans here')
        exact Nat.le_of_not_lt inside
    · rename_i none
      refine leads_pure_from ⟨rfl, fun found same => ⟨Option.some.inj same, ?_⟩, nofun⟩
      exact fun column here => nomatch none.symm.trans here
  refine sees.bind fun found => leads_from ?_
  rintro _ ⟨rfl, shows⟩
  exact leads found shows

/-- The parts of a block are its lines. -/
theorem leads_indented {part : Lookahead → Reader (List Statement)}
    (parts : ∀ cursor : Cursor, Leads (· = cursor) (part cursor.lookahead.1) (Derives .line cursor))
    (column : Nat) (start : Cursor) :
    Leads (· = start) (indented column part) fun found next => ∃ last : Cursor,
      Derives .lines { start with blocks := column :: start.blocks } found last ∧ ¬last.Inside ∧
        next = { last with blocks := last.blocks.tail } := by
  have opens : Leads (· = start)
      (modify fun cursor => { cursor with blocks := column :: cursor.blocks })
      fun _ cursor => cursor = { start with blocks := column :: start.blocks } := by
    rintro _ result after rfl read
    cases read
    rfl
  have lines := Derives .lines { start with blocks := column :: start.blocks }
  refine opens.bind fun _ => ((leads_iterate
    (Derives .lines { start with blocks := column :: start.blocks })
    (fun found last => Derives .lines { start with blocks := column :: start.blocks } found last ∧
      ¬last.Inside) fun statements => ?_).weaken ?_).bind
        fun statements => leads_from fun last derives => ?_
  · refine leads_from fun cursor derives => leads_peekStatement_from fun found shows => ?_
    split
    · rename_i ahead
      obtain ⟨rfl, inside⟩ := shows.seen _ rfl
      exact (parts cursor).bind fun found => leads_pure fun _ line => .more derives inside line
    · exact leads_pure_from ⟨derives, shows.ended rfl⟩
  · rintro _ rfl
    exact .none _
  · rintro _ result after rfl read
    cases read
    exact ⟨_, derives.1, derives.2, rfl⟩

section Blocks

variable {statement : Reader (List Statement)}
  (inner : ∀ cursor, Leads (· = cursor) statement (Derives .line cursor))
include inner

theorem leads_suite (start : Cursor) : Leads (· = start) (suite statement) (Derives .suite start) := by
  refine leads_get_from (leads_peek_from fun ahead seen => ?_)
  obtain rfl : start.lookahead.1 = ahead := Option.some.inj seen
  split
  · rename_i unbroken
    rintro _ found next rfl read
    exact .beside unbroken read
  · rename_i column here
    refine leads_ite (fun deeper => ?_) fun outside =>
      leads_pure_from (.empty here (Nat.le_of_not_lt outside))
    refine (leads_indented (fun cursor => inner cursor) column start).mono (fun _ same => same) ?_
    rintro found _ ⟨last, lines, ended, rfl⟩
    exact .deeper here deeper lines ended

omit inner in
/-- The colon behind a head. -/
theorem leads_colon : Leads (start.Within keyword 0) (expectMark .inStatement ":")
    fun _ => start.Heads keyword := by
  refine leads_from fun cursor within => leads_peek_from fun ahead seen =>
    leads_ite (fun colon => ?_) fun _ => leads_failure
  rintro _ result after rfl read
  cases read
  exact .intro within seen colon

/-- A header whose head has been read, and its body. -/
theorem leads_colonSuite : Leads (start.Within keyword 0) (colonSuite statement) fun body next =>
    ∃ behind, start.Heads keyword behind ∧ Derives .suite behind body next :=
  leads_colon.bind fun _ => leads_from fun behind heads =>
    (leads_suite inner behind).mono (fun _ same => same) fun _ _ suite => ⟨behind, heads, suite⟩

/-! ## Clauses -/

theorem leads_clause {kind : BlockKind} {head : Reader (List Expression)}
    (keeps : ∀ track : Track, track.ReadsStrings → track.Keeps 0 head) (row : Nat) :
    Leads (start.Within kind.keyword 0) (clause row kind head statement) fun found next =>
      ∃ head body behind, found = .block row kind head body ∧ start.Heads kind.keyword behind ∧
        Derives .suite behind body next :=
  (leads_within keeps).bind fun head => (leads_colonSuite inner).bind fun body =>
    leads_pure fun _ ⟨behind, heads, suite⟩ => ⟨head, body, behind, rfl, heads, suite⟩

/-- One more clause, where its keyword comes next. -/
theorem leads_extend {row : Nat} {previous kind : BlockKind} {clauses : List Statement}
    (later : kind.isLater = true) (continues : Continues row previous start clauses cursor)
    (inside : cursor.Inside) (isWord : cursor.lookahead.1.isWord kind.keyword = true)
    {head : Reader (List Expression)}
    (keeps : ∀ track : Track, track.ReadsStrings → track.Keeps 0 head) :
    Leads (cursor.Within kind.keyword 0) (clause cursor.lookahead.1.row kind head statement)
      fun found => Continues row previous start (clauses ++ [found]) :=
  (leads_clause inner keeps _).mono (fun _ within => within)
    fun _ _ ⟨_, _, _, same, heads, suite⟩ =>
      same ▸ continues.extend later inside isWord heads suite

theorem leads_optionalClause {kind : BlockKind} (later : kind.isLater = true) {row : Nat}
    {previous : BlockKind} {clauses : List Statement}
    (continues : Continues row previous start clauses cursor) :
    Leads (· = cursor) (optionalClause kind kind.keyword statement) fun found =>
      Continues row previous start (clauses ++ found) := by
  refine leads_peekStatement_from fun found shows => ?_
  have none : Leads (· = cursor) (pure []) fun found =>
      Continues row previous start (clauses ++ found) :=
    leads_pure_from (by rwa [List.append_nil])
  split
  · rename_i ahead
    obtain ⟨rfl, inside⟩ := shows.seen _ rfl
    refine leads_ite (fun isWord => leads_pass_from ?_) fun _ => none
    refine ((leads_extend inner later continues inside isWord fun _ _ => Track.keeps_pure).from
      (Cursor.Announces.alone isWord).within).bind fun _ => leads_pure fun _ continues => continues
  · exact none

theorem leads_elifClauses (start : Cursor) (row : Nat) (kind : BlockKind) :
    Leads (· = start) (elifClauses statement) fun clauses => Continues row kind start clauses := by
  refine (leads_iterate (Continues row kind start) (Continues row kind start) fun clauses => ?_).weaken
    ?_
  · refine leads_from fun cursor continues => leads_peekStatement_from fun found shows => ?_
    split
    · rename_i ahead
      obtain ⟨rfl, inside⟩ := shows.seen _ rfl
      refine leads_ite (fun isWord => leads_pass_from ?_) fun _ => leads_pure_from continues
      have later : BlockKind.elifClause.isLater = true := rfl
      refine ((leads_extend inner later continues inside isWord fun _ reads =>
        Track.keeps_single (Track.keeps_headExpression reads)).from
          (Cursor.Announces.alone isWord).within).bind fun _ => leads_pure fun _ continues => continues
    · exact leads_pure_from continues
  · rintro _ rfl
    exact continues_nil row kind _

/-! ## Statements with blocks -/

/-- The statement of a line has been read. -/
abbrev GivesDerived (start : Cursor) (keyword : String) (reader : Reader Statement) : Prop :=
  Leads (start.Within keyword 0) reader fun found next => Derives .line start [found] next

omit inner in
/-- A statement without later clauses. -/
theorem derives_body {kind : BlockKind} (first : kind.isLater = false) {behind next : Cursor}
    {head : List Expression} {body : List Statement} (heads : start.Heads kind.keyword behind)
    (suite : Derives .suite behind body next) :
    Derives .line start [.block start.lookahead.1.row kind head body] next := by
  have whole : Derives .line start [.block start.lookahead.1.row kind head (body ++ [])] next :=
    .block first heads suite (.last _ kind next)
  rwa [List.append_nil] at whole

theorem derives_ifTail (start : Cursor) :
    GivesDerived start "if" (ifTail start.lookahead.1.row statement) := by
  refine (leads_within fun _ reads => Track.keeps_headExpression reads).bind fun condition => ?_
  refine (leads_colonSuite inner).bind fun body => leads_from fun between ⟨behind, heads, suite⟩ => ?_
  refine (leads_elifClauses inner between start.lookahead.1.row .ifStatement).bind fun elifs =>
    leads_from fun cursor continues => ?_
  have later : BlockKind.elseClause.isLater = true := rfl
  refine (leads_optionalClause inner later continues).bind fun otherwise =>
    leads_pure fun next continues' => ?_
  have first : BlockKind.ifStatement.isLater = false := rfl
  rw [List.append_assoc]
  exact .block first heads suite continues'.derives

/-- A loop: its body and perhaps an `else`. -/
theorem derives_loop {kind : BlockKind} (first : kind.isLater = false) (start : Cursor)
    (head : List Expression) : GivesDerived start kind.keyword (do
      let body ← colonSuite statement
      let otherwise ← optionalClause .elseClause "else" statement
      pure (.block start.lookahead.1.row kind head (body ++ otherwise))) := by
  refine (leads_colonSuite inner).bind fun body => leads_from fun between ⟨behind, heads, suite⟩ => ?_
  have later : BlockKind.elseClause.isLater = true := rfl
  refine (leads_optionalClause inner later (continues_nil start.lookahead.1.row kind between)).bind
    fun otherwise => leads_pure fun next continues => ?_
  exact .block first heads suite continues.derives

theorem derives_whileTail (start : Cursor) :
    GivesDerived start "while" (whileTail start.lookahead.1.row statement) := by
  have first : BlockKind.whileStatement.isLater = false := rfl
  exact (leads_within fun _ reads => Track.keeps_headExpression reads).bind fun _ =>
    derives_loop inner first start _

theorem derives_forTail (start : Cursor) :
    GivesDerived start "for" (forTail start.lookahead.1.row statement) := by
  have first : BlockKind.forStatement.isLater = false := rfl
  refine (leads_within fun _ reads => Track.keeps_loopTargets reads).bind fun _ => ?_
  exact (leads_within fun _ reads => Track.keeps_headExpressions reads).bind fun _ =>
    derives_loop inner first start _

theorem derives_withTail (start : Cursor) :
    GivesDerived start "with" (withTail start.lookahead.1.row statement) := by
  have first : BlockKind.withStatement.isLater = false := rfl
  refine (leads_within fun _ reads => Track.keeps_headExpressions reads).bind fun _ => ?_
  exact (leads_colonSuite inner).bind fun _ =>
    leads_pure fun _ ⟨_, heads, suite⟩ => derives_body first heads suite

theorem derives_tryTail (start : Cursor) :
    GivesDerived start "try" (tryTail start.lookahead.1.row statement) := by
  refine (leads_colonSuite inner).bind fun body => leads_from fun between ⟨behind, heads, suite⟩ => ?_
  have handler : BlockKind.exceptClause.isLater = true := rfl
  let row := start.lookahead.1.row
  refine Leads.bind ((leads_iterate (Continues row .tryStatement between)
    (Continues row .tryStatement between) fun handlers => ?_).weaken ?_) fun handlers =>
      leads_from fun cursor continues => ?_
  · refine leads_from fun cursor continues => leads_peekStatement_from fun found shows => ?_
    split
    · rename_i ahead
      obtain ⟨rfl, inside⟩ := shows.seen _ rfl
      refine leads_ite (fun isWord => leads_pass_from ?_) fun _ => leads_pure_from continues
      have within : cursor.Within "except" 0 cursor.lookahead.1.after :=
        (Cursor.Announces.alone isWord).within
      refine leads_ite (fun star => ?_) fun _ => ?_
      · refine (leads_star.from ⟨within, star⟩).bind fun _ => ?_
        exact (leads_extend inner handler continues inside isWord fun _ reads =>
          Track.keeps_single (Track.keeps_headExpression reads)).bind fun _ =>
            leads_pure fun _ more => more
      · exact ((leads_extend inner handler continues inside isWord fun _ reads =>
          Track.keeps_exceptHead reads).from within).bind fun _ => leads_pure fun _ more => more
    · exact leads_pure_from continues
  · rintro _ rfl
    exact continues_nil _ _ _
  · extract_lets ending
    have first : BlockKind.tryStatement.isLater = false := rfl
    have otherwise : BlockKind.elseClause.isLater = true := rfl
    have finally' : BlockKind.finallyClause.isLater = true := rfl
    have ends (clauses : List Statement) : Leads
        (fun cursor => Continues row .tryStatement between (handlers ++ clauses) cursor)
        (ending clauses) fun found next => Derives .line start [found] next := by
      refine leads_from fun cursor continues => ?_
      refine (leads_optionalClause inner finally' continues).bind fun last => leads_unless ?_
      refine leads_pure fun next continues' => ?_
      rw [List.append_assoc, List.append_assoc, ← List.append_assoc handlers]
      exact .block first heads suite continues'.derives
    refine leads_ite (fun _ => ?_) fun _ => ?_
    · exact (leads_pure_from (by rwa [List.append_nil])).bind ends
    · exact (leads_optionalClause inner otherwise continues).bind ends

theorem derives_caseTail (start : Cursor) :
    GivesDerived start "case" (caseTail start.lookahead.1.row statement) := by
  have first : BlockKind.caseClause.isLater = false := rfl
  refine (leads_within fun _ reads => Track.keeps_pattern reads Place.fits_inStatement
    Place.fits_inStatement).bind fun _ => ?_
  refine (leads_within fun _ reads => Track.keeps_patterns reads).bind fun names =>
    leads_from fun cursor within => leads_peek_from fun ahead seen => ?_
  extract_lets body
  have bodies (guard : List Expression) : GivesDerived start "case" (body guard) :=
    (leads_colonSuite inner).bind fun _ =>
      leads_pure fun _ ⟨_, heads, suite⟩ => derives_body first heads suite
  have kept (guard : List Expression) : Leads (start.Within "case" 0) (pure guard)
      fun _ => start.Within "case" 0 := leads_pure fun _ within => within
  refine leads_ite (fun isWord => leads_pass_from ?_) fun _ => ((kept []).from within).bind bodies
  have guarded := within.pass_word Place.fits_inStatement seen isWord
  refine ((leads_within fun _ reads => Track.keeps_headExpression reads).from guarded).bind fun _ => ?_
  exact (kept _).bind bodies

theorem derives_matchTail (start : Cursor) :
    GivesDerived start "match" (matchTail start.lookahead.1.row statement) := by
  have first : BlockKind.matchStatement.isLater = false := rfl
  refine (leads_within fun _ reads => Track.keeps_headExpressions reads).bind fun _ => ?_
  refine leads_colon.bind fun _ => leads_from fun behind heads => leads_get_from
    (leads_peek_from fun ahead seen => ?_)
  obtain rfl : behind.lookahead.1 = ahead := Option.some.inj seen
  split
  · exact leads_failure
  · rename_i column here
    refine leads_ite (fun deeper => ?_) fun outside => leads_pure_from
      (derives_body first heads (.empty here (Nat.le_of_not_lt outside)))
    refine (leads_indented (fun cursor => ?_) column behind).bind fun cases =>
      leads_pure fun _ ⟨last, lines, ended, same⟩ =>
        same ▸ derives_body first heads (.deeper here deeper lines ended)
    refine leads_ite (fun isWord => leads_pass_from ?_) fun _ => leads_failure
    have within : cursor.Within "case" 0 cursor.lookahead.1.after :=
      (Cursor.Announces.alone isWord).within
    exact ((derives_caseTail inner cursor).from within).bind fun _ => leads_pure fun _ line => line

/-! ## Definitions -/

theorem derives_functionTail (start : Cursor) :
    GivesDerived start "def" (functionTail start.lookahead.1.row statement) := by
  refine (leads_within fun _ _ => Track.keeps_anyWord Place.fits_inStatement).bind fun name => ?_
  refine (leads_within fun _ reads => Track.keeps_optionalTypeParameters reads).bind fun types => ?_
  refine (leads_within fun _ _ => Track.leads_expectMark Place.fits_inStatement
    (.opening rfl 0)).bind fun _ => ?_
  refine (leads_within fun _ reads => Track.keeps_parameterList (Track.nests_expression reads)
    (Track.strings_expression reads) Place.fits_succ fun _ => .inl (Nat.succ_pos 0)).bind
      fun parameters => ?_
  refine (leads_within fun _ _ => Track.expect_closing Place.fits_succ rfl).bind fun _ => ?_
  refine (leads_within fun _ _ => Track.try_flat Place.fits_inStatement rfl).bind fun _ => ?_
  extract_lets body
  have bodies (returns : List Expression) : GivesDerived start "def" (body returns) :=
    (leads_colonSuite inner).bind fun _ => leads_pure fun _ ⟨_, heads, suite⟩ => .function heads suite
  have returned : Leads (start.Within "def" 0)
      (typeExpression expression false .inStatement .inStatement) fun _ => start.Within "def" 0 :=
    leads_within fun _ reads => Track.keeps_typeExpression (Track.nests_expression reads)
      Place.fits_inStatement Place.fits_inStatement fun constrained => nomatch constrained
  have kept (returns : List Expression) : Leads (start.Within "def" 0) (pure returns)
      fun _ => start.Within "def" 0 := leads_pure fun _ within => within
  refine leads_ite (fun _ => returned.bind fun _ => (kept _).bind bodies) fun _ =>
    (kept _).bind bodies

theorem derives_classTail (start : Cursor) :
    GivesDerived start "class" (classTail start.lookahead.1.row statement) := by
  refine (leads_within fun _ _ => Track.keeps_anyWord Place.fits_inStatement).bind fun name => ?_
  refine (leads_within fun _ reads => Track.keeps_optionalTypeParameters reads).bind fun types => ?_
  refine (leads_tryBracket rfl).bind fun bracket => ?_
  extract_lets body
  have bodies (bases : List Expression) : GivesDerived start "class" (body bases) :=
    (leads_colonSuite inner).bind fun _ => leads_pure fun _ ⟨_, heads, suite⟩ => .classDef heads suite
  cases bracket with
  | true =>
    refine Leads.bind (leads_within fun _ reads => ?_) bodies
    exact Track.closes_arguments (Track.nests_expression reads)
      (Track.nests_primary (Track.nests_expression reads) (Track.strings_expression reads)) _
  | false => exact (leads_within fun _ _ => Track.keeps_pure).bind bodies

theorem derives_decoratedDefinition (mark : start.lookahead.1.isMark "@" = true) :
    Leads (· = start.settled) (decoratedDefinition start.lookahead.1.row statement)
      fun found next => Derives .line start [found] next := by
  -- Every decorator ends its line, and there is at least one.
  refine Leads.bind ((leads_iterate
    (fun _ cursor => start.settled.Reaches 0 cursor ∧
      (cursor.IsBroken ∨ cursor.lookahead.1.isMark "@" = true))
    (fun _ cursor => start.settled.Reaches 0 cursor ∧ cursor.IsBroken) fun decorators => ?_).weaken ?_)
      fun decorators => leads_from fun between ⟨reaches, broken⟩ => ?_
  · refine leads_from fun cursor ⟨reaches, begun⟩ => leads_peek_from fun ahead seen => ?_
    obtain ⟨rfl, -⟩ := Cursor.columns_of_peek? seen
    refine leads_ite (fun sign => leads_pass_from ?_) fun other => leads_pure_from ?_
    · have passed : start.settled.Reaches 0 cursor.lookahead.1.after :=
        reaches.pass Place.fits_inStatement seen fun _ => Lookahead.moves_flat sign rfl 0
      have decorator : Leads (start.settled.Reaches 0) (expression .inStatement lineFollow)
          fun _ => start.settled.Reaches 0 :=
        leads_reaches fun _ reads => Track.keeps_expression reads Place.fits_statementEnd
      refine (decorator.from passed).bind fun _ => leads_from fun cursor' reaches' =>
        leads_peek_from fun ended seen' => leads_ite (fun lineBreak => leads_pure_from ?_)
          fun _ => leads_failure
      exact ⟨reaches', .inl (Cursor.isBroken_of_peek? seen' lineBreak)⟩
    · exact ⟨reaches, begun.resolve_right other⟩
  · rintro _ rfl
    refine ⟨Cursor.reaches_self _, .inr ?_⟩
    rw [Lookahead.isMark, (Cursor.lookahead_settled_same start).1]
    exact mark
  · have certain {keyword : String} {reader : Reader Statement} (inside : between.Inside)
        (gives : GivesDerived between keyword reader) :
        Leads (between.Within keyword 0)
          (reader >>= fun found => pure (.decorated start.lookahead.1.row decorators found))
            fun found next => Derives .line start [found] next :=
      gives.bind fun _ => leads_pure fun _ line => .decorated mark reaches broken inside line
    refine leads_peek_from fun ahead seen => ?_
    split
    · rename_i found
      have isWord := Lookahead.isWord_of_word? found
      obtain ⟨rfl, inside⟩ := Cursor.inside_of_word seen isWord
      exact leads_pass_from ((certain inside (derives_classTail inner between)).from
        (Cursor.Announces.alone isWord).within)
    · rename_i found
      have isWord := Lookahead.isWord_of_word? found
      obtain ⟨rfl, inside⟩ := Cursor.inside_of_word seen isWord
      exact leads_pass_from ((certain inside (derives_functionTail inner between)).from
        (Cursor.Announces.alone isWord).within)
    · rename_i found
      have isWord := Lookahead.isWord_of_word? found
      obtain ⟨rfl, inside⟩ := Cursor.inside_of_word seen isWord
      refine leads_pass_from (Leads.bind (leads_peek_from fun ahead seen' => ?_) fun _ =>
        certain inside (derives_functionTail inner between))
      refine leads_ite (fun isDef => ?_) fun _ => leads_failure
      rintro _ result after rfl read
      cases read
      have outside : Place.inStatement ≠ .inBrackets := by decide
      exact (Cursor.Announces.async isWord outside seen' isDef (.head _)).within
    · exact leads_failure

/-! ## Statements -/

theorem leads_asyncTail (start : Cursor) (isWord : start.lookahead.1.isWord "async" = true) :
    Leads (· = start.lookahead.1.after) (asyncTail start.lookahead.1.row statement) fun found next =>
      ∀ statement, found = some statement → Derives .line start [statement] next := by
  have certain {keyword : String} {reader : Reader Statement}
      (gives : GivesDerived start keyword reader) :
      Leads (start.Within keyword 0) (reader >>= fun found => pure (some found)) fun found next =>
        ∀ statement, found = some statement → Derives .line start [statement] next := by
    refine gives.bind fun found => leads_pure fun _ line statement same => ?_
    cases same
    exact line
  refine leads_peek_from fun ahead seen => ?_
  have outside : Place.statementEnd ≠ .inBrackets := by decide
  have within {keyword : String} (listed : keyword ∈ Cursor.asyncKeywords)
      (found : ahead.word? = some keyword) : start.Within keyword 0 ahead.after :=
    (Cursor.Announces.async isWord outside seen (Lookahead.isWord_of_word? found) listed).within
  split
  · rename_i found
    exact leads_pass_from ((certain (derives_functionTail inner start)).from (within (by decide) found))
  · rename_i found
    exact leads_pass_from ((certain (derives_forTail inner start)).from (within (by decide) found))
  · rename_i found
    exact leads_pass_from ((certain (derives_withTail inner start)).from (within (by decide) found))
  · exact leads_pure fun _ _ => nofun

theorem derives_compoundTail? {word : String}
    {tail : Nat → Reader (List Statement) → Reader Statement} (chosen : compoundTail? word = some tail)
    (start : Cursor) : GivesDerived start word (tail start.lookahead.1.row statement) := by
  unfold compoundTail? at chosen
  split at chosen
  · rename_i same
    cases chosen
    exact eq_of_beq same ▸ derives_ifTail inner start
  split at chosen
  · rename_i same
    cases chosen
    exact eq_of_beq same ▸ derives_whileTail inner start
  split at chosen
  · rename_i same
    cases chosen
    exact eq_of_beq same ▸ derives_forTail inner start
  split at chosen
  · rename_i same
    cases chosen
    exact eq_of_beq same ▸ derives_tryTail inner start
  split at chosen
  · rename_i same
    cases chosen
    exact eq_of_beq same ▸ derives_withTail inner start
  split at chosen
  · rename_i same
    cases chosen
    exact eq_of_beq same ▸ derives_functionTail inner start
  split at chosen
  · rename_i same
    cases chosen
    exact eq_of_beq same ▸ derives_classTail inner start
  · cases chosen

end Blocks

/-- **What the reader of statements gives can be derived.** By induction on the nesting. -/
theorem leads_statementOfDepth (depth : Nat) (start : Cursor) :
    Leads (· = start) (statementOfDepth depth) (Derives .line start) := by
  induction depth generalizing start with
  | zero => exact leads_failure
  | succ depth inner =>
    have settles : Leads (· = start) settle fun _ cursor => cursor = start.settled := by
      rintro _ shown after rfl read
      cases read
      rfl
    refine settles.bind fun _ => leads_get_from (leads_peek_from fun ahead seen => ?_)
    obtain rfl : start.settled.lookahead.1 = ahead := Option.some.inj seen
    -- Behind the gap the lexeme is the same, so the tails read on behind it.
    obtain ⟨lexeme, row, after⟩ := Cursor.lookahead_settled_same start
    have isWord {word : String} (found : start.settled.lookahead.1.word? = some word) :
        start.lookahead.1.isWord word = true := by
      rw [Lookahead.word?, lexeme] at found
      exact Lookahead.isWord_of_word? found
    have passed {word : String} (found : start.settled.lookahead.1.word? = some word) :
        start.Within word 0 start.settled.lookahead.1.after := by
      rw [after]
      exact (Cursor.Announces.alone (isWord found)).within
    have lines : Leads (· = start.settled) simpleStatements (Derives .line start) := by
      rintro _ found next rfl read
      exact .simple (Cursor.present_of_simpleStatements read) read
    rw [row]
    refine leads_ite (fun mark => ?_) fun _ => ?_
    · rw [Lookahead.isMark, lexeme] at mark
      exact (derives_decoratedDefinition inner mark).bind fun _ => leads_pure fun _ line => line
    split
    · exact lines
    rename_i word found
    split
    · rename_i tail chosen
      exact leads_pass_from (((derives_compoundTail? inner chosen start).from (passed found)).bind
        fun _ => leads_pure fun _ line => line)
    refine leads_ite (fun isAsync => leads_pass_from ?_) fun _ =>
      leads_ite (fun isMatch => .orElse ?_ lines) fun _ => lines
    · rw [after]
      refine (leads_asyncTail inner start (eq_of_beq isAsync ▸ isWord found)).bind fun result => ?_
      split
      · exact leads_pure fun _ line => line _ rfl
      · exact leads_set lines
    · exact leads_pass_from (((derives_matchTail inner start).from
        (eq_of_beq isMatch ▸ passed found)).bind fun _ => leads_pure fun _ line => line)

end Reader

/-! ## Tracks along derivations -/

namespace Cursor

variable {start cursor behind : Cursor} {keyword : String} {track : Track}

/-- Behind the gap a word that comes next is seen from outside of brackets. -/
theorem sees_of_isWord (here : track.On 0 start.settled)
    (isWord : start.lookahead.1.isWord keyword = true) :
    ∃ ahead, track.Sees 0 ahead ∧ ahead.lexeme = .word keyword ∧
      ahead.after = start.lookahead.1.after := by
  obtain ⟨lexeme, -, after⟩ := lookahead_settled_same start
  have word := Lookahead.lexeme_of_isWord isWord
  have present : start.lookahead.2 ≠ [] := by
    intro ended
    have finish : start.lookahead.1.lexeme = (Lexeme.read start.lookahead.2).1 := rfl
    rw [finish, ended] at word
    cases word
  refine ⟨start.settled.lookahead.1, ?_, lexeme.trans word, after⟩
  refine ⟨start.settled, .statementEnd, here, Place.fits_statementEnd, ?_⟩
  simp [peek?, lookahead_settled present]

theorem Announces.along (announces : start.Announces keyword cursor)
    (here : track.On 0 start.settled) : track.On 0 cursor := by
  cases announces with
  | alone isWord =>
    obtain ⟨ahead, seen, word, after⟩ := sees_of_isWord here isWord
    exact after ▸ track.passes seen (Lookahead.moves_word word 0)
  | @async place ahead isWord outside seen isKeyword =>
    obtain ⟨first, seen', word, after⟩ := sees_of_isWord here isWord
    have behind : track.On 0 start.lookahead.1.after :=
      after ▸ track.passes seen' (Lookahead.moves_word word 0)
    exact track.passes ⟨_, place, behind, fun inside => absurd inside outside, seen⟩
      (Lookahead.moves_word (Lookahead.lexeme_of_isWord isKeyword) 0)

/-- A header is read along a track from which colons may be passed. -/
theorem Heads.along (heads : start.Heads keyword behind) (reads : track.ReadsStrings)
    (colons : track.colons) (here : track.On 0 start.settled) : track.On 0 behind := by
  obtain ⟨⟨begun, announces, reaches⟩, seen, isColon⟩ := heads
  exact track.passes ⟨_, .inStatement, reaches track reads (announces.along here),
    Place.fits_inStatement, seen⟩ (Lookahead.moves_colon isColon (.inr colons))

/-- A header opens and closes no block. -/
theorem Heads.blocks_eq (heads : start.Heads keyword behind) : behind.blocks = start.blocks :=
  (heads.along Track.readsStrings_inBlocks trivial
    (⟨rfl, List.suffix_refl _⟩ : (Track.inBlocks start.blocks start.lookahead.2).On 0 start.settled)).1

/-- A header has characters. -/
theorem Heads.present (heads : start.Heads keyword behind) : start.lookahead.2 ≠ [] := by
  intro ended
  have none {word : String} : start.lookahead.1.isWord word = false := by
    have lexeme : start.lookahead.1.lexeme = (Lexeme.read start.lookahead.2).1 := rfl
    rw [Lookahead.isWord, lexeme, ended]
    rfl
  obtain ⟨⟨begun, announces, -⟩, -, -⟩ := heads
  cases announces with
  | alone isWord => exact Bool.false_ne_true (none.symm.trans isWord)
  | async isWord => exact Bool.false_ne_true (none.symm.trans isWord)

end Cursor

/-- The words that the header of a statement begins with. -/
def headKeywords : List String :=
  ["async", "def", "class", "if", "while", "for", "try", "with", "match", "elif", "else", "except",
    "finally", "case"]

theorem BlockKind.keyword_mem (kind : BlockKind) : kind.keyword ∈ headKeywords := by
  cases kind <;> decide

/-- A header begins with such a word. -/
theorem Cursor.Heads.exists_word {start behind : Cursor} {keyword : String}
    (heads : start.Heads keyword behind) (listed : keyword ∈ headKeywords) :
    ∃ word ∈ headKeywords, start.lookahead.1.lexeme = .word word := by
  obtain ⟨⟨begun, announces, -⟩, -, -⟩ := heads
  cases announces with
  | alone isWord => exact ⟨keyword, listed, Lookahead.lexeme_of_isWord isWord⟩
  | async isWord => exact ⟨"async", .head _, Lookahead.lexeme_of_isWord isWord⟩

/-- A line that begins otherwise, and with no decorator, has no blocks. -/
theorem Derives.simpleStatements_of_lexeme {start next : Cursor} {found : List Statement}
    (derives : Derives .line start found next)
    (unheaded : ∀ word ∈ headKeywords, start.lookahead.1.lexeme ≠ .word word)
    (undecorated : start.lookahead.1.lexeme ≠ .mark "@") :
    start.lookahead.2 ≠ [] ∧ simpleStatements start.settled = some (found, next) := by
  have other {keyword : String} {behind : Cursor} (listed : keyword ∈ headKeywords) :
      ¬start.Heads keyword behind := fun heads =>
    let ⟨word, member, lexeme⟩ := heads.exists_word listed
    unheaded word member lexeme
  cases derives with
  | simple present read => exact ⟨present, read⟩
  | block _ heads => exact absurd heads (other (BlockKind.keyword_mem _))
  | function heads => exact absurd heads (other (by decide))
  | classDef heads => exact absurd heads (other (by decide))
  | decorated mark => exact absurd (Lookahead.lexeme_of_isMark mark) undecorated

/-- Blocks that are opened are closed again. -/
theorem Derives.blocks_eq {part : Part} {start next : Cursor} {found : List Statement}
    (derives : Derives part start found next) : next.blocks = start.blocks := by
  have line {start next : Cursor} {found : List Statement}
      (read : simpleStatements start = some (found, next)) : next.blocks = start.blocks :=
    (@Track.leads_simpleStatements (.inBlocks start.blocks start.rest) 1 Track.readsStrings_inBlocks
      (.inr trivial) start found next ⟨⟨rfl, List.suffix_refl _⟩, .inl Nat.one_pos⟩ read).1.1
  induction derives with
  | simple _ read => exact (line read).trans rfl
  | block _ heads _ _ suite clauses => exact clauses.trans (suite.trans heads.blocks_eq)
  | function heads _ suite => exact suite.trans heads.blocks_eq
  | classDef heads _ suite => exact suite.trans heads.blocks_eq
  | @decorated start between next _ _ _ reaches _ _ _ definition =>
    exact definition.trans (reaches (.inBlocks start.blocks start.lookahead.2)
      Track.readsStrings_inBlocks ⟨rfl, List.suffix_refl _⟩).1
  | none => rfl
  | more _ _ _ lines line => exact line.trans lines
  | beside _ read => exact line read
  | empty => rfl
  | deeper _ _ _ _ lines =>
    dsimp only
    rw [lines]
    rfl
  | last => rfl
  | clause _ _ _ heads _ _ suite clauses => exact clauses.trans (suite.trans heads.blocks_eq)

/-! ## Sources -/

namespace Module

theorem derives_of_readFrom {fuel : Nat} {before statements : List Statement} {start cursor : Cursor}
    (derives : Derives .lines start before cursor) (top : cursor.blocks = [])
    (read : readFrom fuel before cursor = .ok statements) :
    ∃ next, Derives .lines start statements next := by
  induction fuel generalizing before cursor with
  | zero => cases read
  | succ fuel ih =>
    rw [readFrom] at read
    dsimp only at read
    split at read
    · cases read
      exact ⟨cursor, derives⟩
    · split at read
      · rename_i found next here
        have line := Reader.leads_statementOfDepth _ cursor cursor found next rfl here
        have inside : cursor.Inside := fun column _ => by simp [Cursor.indent, top]
        exact ih (derives.more inside line) (line.blocks_eq.trans top) read
      · cases read

/-- **A source is put together from lines.** -/
theorem derives_of_read {source : String} {module : Module} (read : Module.read source = .ok module) :
    ∃ next, Derives .lines ⟨source.toList, 0, []⟩ module.statements next :=
  derives_of_readFrom (.none _) rfl (readFrom_of_read read)

end Module

end StrategyMend.Python
