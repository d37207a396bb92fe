import StrategyMend.Proofs.Python.Reading

/-!
# Reading along a track

A track says at which cursors a reader may be, for each number of brackets that are open there, and is
closed under passing a lexeme (`Track`). If string literals lead along it as well
(`Track.ReadsStrings`), every expression that is read from one of its cursors ends at one with the same
number of open brackets (`Track.nests_expression`): a reader only looks at lexemes and passes them, and
it closes the brackets that it opened.

Outside of brackets a colon separates the parts of a statement, so a track may forbid to pass one there.
Then it must not come upon a `lambda` outside of brackets either.

The positions of a text are a track (`Track.along`).
-/

set_option autoImplicit false

namespace StrategyMend.Python

/-! ## Lexemes and brackets -/

/-- Marks that open a bracket. -/
def openingMarks : List String := ["(", "[", "\x7b"]

/-- Marks that close a bracket. -/
def closingMarks : List String := [")", "]", "\x7d"]

/-- Whether a mark is neither a bracket nor a colon. -/
def isFlatMark (sign : String) : Bool :=
  !(openingMarks.contains sign || closingMarks.contains sign || sign == ":")

/-- Passing the lexeme leads from one number of open brackets to another. Outside of brackets a colon is
passed only if `colons` holds. -/
inductive Lexeme.Moves (colons : Prop) : Lexeme → Nat → Nat → Prop where
  | word (text : String) (depth : Nat) : Moves colons (.word text) depth depth
  | number (depth : Nat) : Moves colons .number depth depth
  | flat {sign : String} (flat : isFlatMark sign = true) (depth : Nat) :
    Moves colons (.mark sign) depth depth
  | colon {depth : Nat} (allowed : 0 < depth ∨ colons) : Moves colons (.mark ":") depth depth
  | opening {sign : String} (opens : openingMarks.contains sign = true) (depth : Nat) :
    Moves colons (.mark sign) depth (depth + 1)
  | closing {sign : String} (closes : closingMarks.contains sign = true) (depth : Nat) :
    Moves colons (.mark sign) (depth + 1) depth

theorem Lexeme.Moves.mono {colons colons' : Prop} {lexeme : Lexeme} {depth depth' : Nat}
    (moves : lexeme.Moves colons depth depth') (weaker : colons → colons') :
    lexeme.Moves colons' depth depth' := by
  cases moves with
  | word text => exact .word text _
  | number => exact .number _
  | flat flat => exact .flat flat _
  | colon allowed => exact .colon (allowed.imp_right weaker)
  | opening opens => exact .opening opens _
  | closing closes => exact .closing closes _

namespace Lookahead

variable {ahead : Lookahead} {colons : Prop} {sign word : String}

theorem lexeme_of_isMark (mark : ahead.isMark sign = true) : ahead.lexeme = .mark sign := by
  unfold isMark at mark
  split at mark
  · rename_i found lexeme
    rw [lexeme, eq_of_beq mark]
  · cases mark

theorem lexeme_of_isWord (isWord : ahead.isWord word = true) : ahead.lexeme = .word word := by
  unfold Lookahead.isWord at isWord
  split at isWord
  · rename_i found lexeme
    rw [lexeme, eq_of_beq isWord]
  · cases isWord

theorem isWord_of_word? (found : ahead.word? = some word) : ahead.isWord word = true := by
  unfold word? at found
  split at found
  · rename_i lexeme
    rw [isWord, lexeme, Option.some.inj found]
    exact beq_self_eq_true word
  · cases found

theorem lexeme_of_word? (found : ahead.word? = some word) : ahead.lexeme = .word word := by
  unfold word? at found
  split at found
  · rename_i lexeme
    rw [lexeme, Option.some.inj found]
  · cases found

theorem moves_word (lexeme : ahead.lexeme = .word word) (depth : Nat) :
    ahead.lexeme.Moves colons depth depth :=
  lexeme ▸ .word word depth

theorem moves_flat (mark : ahead.isMark sign = true) (flat : isFlatMark sign = true) (depth : Nat) :
    ahead.lexeme.Moves colons depth depth :=
  lexeme_of_isMark mark ▸ .flat flat depth

/-- One of several marks. -/
theorem moves_flat_of_any {signs : List String} (listed : signs.any ahead.isMark = true)
    (flat : signs.all isFlatMark = true) (depth : Nat) : ahead.lexeme.Moves colons depth depth := by
  obtain ⟨sign, member, mark⟩ := List.any_eq_true.mp listed
  exact moves_flat mark (List.all_eq_true.mp flat sign member) depth

theorem moves_colon (mark : ahead.isMark ":" = true) {depth : Nat} (allowed : 0 < depth ∨ colons) :
    ahead.lexeme.Moves colons depth depth :=
  lexeme_of_isMark mark ▸ .colon allowed

theorem moves_opening (mark : ahead.isMark sign = true) (opens : openingMarks.contains sign = true)
    (depth : Nat) : ahead.lexeme.Moves colons depth (depth + 1) :=
  lexeme_of_isMark mark ▸ .opening opens depth

theorem moves_closing (mark : ahead.isMark sign = true) (closes : closingMarks.contains sign = true)
    (depth : Nat) : ahead.lexeme.Moves colons (depth + 1) depth :=
  lexeme_of_isMark mark ▸ .closing closes depth

end Lookahead

/-! ## Tracks -/

/-- A reader of nested expressions: of all, or of those of at most some depth. -/
inductive ReadsExpressions : Nested → Prop where
  | expression : ReadsExpressions expression
  | ofDepth (depth : Nat) : ReadsExpressions (expressionOfDepth depth)

/-- Line breaks may be passed over without regard to the indentation inside of brackets only. -/
def Place.Fits (place : Place) (depth : Nat) : Prop := place = .inBrackets → 0 < depth

theorem Place.fits_inStatement {depth : Nat} : Place.Fits .inStatement depth := nofun

theorem Place.fits_statementEnd {depth : Nat} : Place.Fits .statementEnd depth := nofun

theorem Place.fits_succ {depth : Nat} {place : Place} : place.Fits (depth + 1) :=
  fun _ => Nat.succ_pos depth

/-- A lexeme that is seen from a cursor of the track. -/
def SeenFrom (on : Nat → Cursor → Prop) (depth : Nat) (ahead : Lookahead) : Prop :=
  ∃ cursor place, on depth cursor ∧ Place.Fits place depth ∧ cursor.peek? place = some ahead

/-- Cursors that reading keeps to, by the number of open brackets. -/
structure Track where
  On : (depth : Nat) → Cursor → Prop
  /-- Colons may be passed outside of brackets. -/
  colons : Prop
  passes {depth depth' : Nat} {ahead : Lookahead} (seen : SeenFrom On depth ahead)
    (moves : ahead.lexeme.Moves colons depth depth') : On depth' ahead.after
  lambdas {depth : Nat} {ahead : Lookahead} (seen : SeenFrom On depth ahead)
    (lambda : ahead.isWord "lambda" = true) : 0 < depth ∨ colons
  /-- A star may be passed without looking at what comes behind it. -/
  stars {depth : Nat} {cursor : Cursor} (here : On depth cursor)
    (star : cursor.rest.head? = some '*') : On depth { cursor with rest := cursor.rest.drop 1 }

namespace Track

open Reader

variable {α β : Type} {track : Track} {depth depth' : Nat} {place : Place} {ahead : Lookahead}
  {sign : String}

/-- The lexeme is seen from a cursor of the track. -/
abbrev Sees (track : Track) (depth : Nat) (ahead : Lookahead) : Prop := SeenFrom track.On depth ahead

/-- The reader comes from a cursor of the track to one with the same number of open brackets. -/
abbrev Keeps (track : Track) (depth : Nat) (reader : Reader α) : Prop :=
  Leads (track.On depth) reader fun _ => track.On depth

/-- The reader closes one bracket. -/
abbrev Closes (track : Track) (depth : Nat) (reader : Reader α) : Prop :=
  Leads (track.On (depth + 1)) reader fun _ => track.On depth

/-- A reader of expressions keeps to the track, where the number of open brackets says what line breaks
mean. -/
def Nests (track : Track) (self : Nested) : Prop :=
  ∀ depth place (follow : Follow), place.Fits depth → follow.place.Fits depth →
    track.Keeps depth (self place follow)

/-- String literals keep to the track, if the expressions in them are read by `self`. -/
def Strings (track : Track) (self : Nested) : Prop :=
  ∀ depth ahead form, track.Sees depth ahead → ahead.lexeme = .stringStart form →
    Leads (· = ahead.after) (stringLiteral self form) fun _ => track.On depth

/-- The string literals of expressions keep to the track. -/
def ReadsStrings (track : Track) : Prop :=
  ∀ self, ReadsExpressions self → track.Nests self → track.Strings self

/-! ### Rules -/

theorem keeps_pure {result : α} : track.Keeps depth (pure result) := leads_pure fun _ here => here

theorem keeps_failure : track.Keeps depth (failure : Reader α) := leads_failure

theorem keeps_ite {condition : Prop} [Decidable condition] {first second : Reader α}
    (yes : track.Keeps depth first) (no : track.Keeps depth second) :
    track.Keeps depth (if condition then first else second) :=
  leads_ite (fun _ => yes) fun _ => no

theorem keeps_iterate {step : α → Reader (Option α)} {start : α}
    (keeps : ∀ state, track.Keeps depth (step state)) : track.Keeps depth (iterate step start) :=
  leads_iterate (fun _ => track.On depth) (fun _ => track.On depth) fun state =>
    (keeps state).mono (fun _ here => here) fun next _ here => by cases next <;> exact here

/-- What a reader is given to begin with does not matter to a track. -/
theorem leads_get {before : Cursor → Prop} {next : Cursor → Reader β} {after : β → Cursor → Prop}
    (leads : ∀ cursor, Leads before (next cursor) after) : Leads before (get >>= next) after :=
  fun cursor result last here read => leads cursor cursor result last here read

theorem leads_peek_seen (fits : place.Fits depth) {next : Lookahead → Reader β}
    {after : β → Cursor → Prop}
    (leads : ∀ ahead, track.Sees depth ahead → Leads (track.On depth) (next ahead) after) :
    Leads (track.On depth) (peek place >>= next) after := by
  refine leads_peek.bind fun ahead cursor result last here read => ?_
  exact leads ahead ⟨cursor, place, here.1, fits, here.2⟩ cursor result last here.1 read

theorem keeps_peek (fits : place.Fits depth) {next : Lookahead → Reader β}
    (keeps : ∀ ahead, track.Sees depth ahead → track.Keeps depth (next ahead)) :
    track.Keeps depth (peek place >>= next) :=
  leads_peek_seen fits keeps

/-- A lexeme that is seen is passed. -/
theorem leads_pass {before : Cursor → Prop} (seen : track.Sees depth ahead)
    (moves : ahead.lexeme.Moves track.colons depth depth') :
    Leads before (pass ahead) fun _ => track.On depth' := by
  intro cursor result last _ read
  cases read
  exact track.passes seen moves

theorem pass_word {word : String} (seen : track.Sees depth ahead)
    (lexeme : ahead.lexeme = .word word) : track.Keeps depth (pass ahead) :=
  leads_pass seen (Lookahead.moves_word lexeme depth)

theorem pass_isWord {word : String} (seen : track.Sees depth ahead)
    (isWord : ahead.isWord word = true) : track.Keeps depth (pass ahead) :=
  pass_word seen (Lookahead.lexeme_of_isWord isWord)

theorem pass_flat (seen : track.Sees depth ahead) (mark : ahead.isMark sign = true)
    (flat : isFlatMark sign = true) : track.Keeps depth (pass ahead) :=
  leads_pass seen (Lookahead.moves_flat mark flat depth)

theorem pass_flat_of_any {signs : List String} (seen : track.Sees depth ahead)
    (listed : signs.any ahead.isMark = true) (flat : signs.all isFlatMark = true) :
    track.Keeps depth (pass ahead) :=
  leads_pass seen (Lookahead.moves_flat_of_any listed flat depth)

theorem pass_colon (seen : track.Sees depth ahead) (mark : ahead.isMark ":" = true)
    (allowed : 0 < depth ∨ track.colons) : track.Keeps depth (pass ahead) :=
  leads_pass seen (Lookahead.moves_colon mark allowed)

theorem pass_opening (seen : track.Sees depth ahead) (mark : ahead.isMark sign = true)
    (opens : openingMarks.contains sign = true) :
    Leads (track.On depth) (pass ahead) fun _ => track.On (depth + 1) :=
  leads_pass seen (Lookahead.moves_opening mark opens depth)

theorem pass_closing (seen : track.Sees (depth + 1) ahead) (mark : ahead.isMark sign = true)
    (closes : closingMarks.contains sign = true) : track.Closes depth (pass ahead) :=
  leads_pass seen (Lookahead.moves_closing mark closes depth)

/-- A mark that must come next. -/
theorem leads_expectMark (fits : place.Fits depth)
    (moves : (Lexeme.mark sign).Moves track.colons depth depth') :
    Leads (track.On depth) (expectMark place sign) fun _ => track.On depth' :=
  leads_peek_seen fits fun _ seen => leads_ite
    (fun mark => leads_pass seen (Lookahead.lexeme_of_isMark mark ▸ moves)) fun _ => leads_failure

theorem expect_flat (fits : place.Fits depth) (flat : isFlatMark sign = true) :
    track.Keeps depth (expectMark place sign) :=
  leads_expectMark fits (.flat flat depth)

theorem expect_closing (fits : place.Fits (depth + 1)) (closes : closingMarks.contains sign = true) :
    track.Closes depth (expectMark place sign) :=
  leads_expectMark fits (.closing closes depth)

theorem keeps_expectWord (fits : place.Fits depth) (word : String) :
    track.Keeps depth (expectWord place word) :=
  keeps_peek fits fun _ seen => leads_ite (pass_isWord seen) fun _ => keeps_failure

/-- A mark that may come next. -/
theorem leads_tryMark (fits : place.Fits depth)
    (moves : (Lexeme.mark sign).Moves track.colons depth depth') :
    Leads (track.On depth) (tryMark place sign) fun found cursor =>
      if found then track.On depth' cursor else track.On depth cursor :=
  leads_peek_seen fits fun _ seen => leads_ite
    (fun mark => (leads_pass seen (Lookahead.lexeme_of_isMark mark ▸ moves)).bind fun _ =>
      leads_pure fun _ here => here) fun _ => leads_pure fun _ here => here

theorem keeps_tryMark (fits : place.Fits depth)
    (moves : (Lexeme.mark sign).Moves track.colons depth depth) :
    track.Keeps depth (tryMark place sign) :=
  (leads_tryMark fits moves).mono (fun _ here => here) fun found _ here => by
    cases found <;> exact here

theorem try_flat (fits : place.Fits depth) (flat : isFlatMark sign = true) :
    track.Keeps depth (tryMark place sign) :=
  keeps_tryMark fits (.flat flat depth)

theorem keeps_anyWord (fits : place.Fits depth) : track.Keeps depth (anyWord place) := by
  refine keeps_peek fits fun ahead seen => ?_
  split
  · rename_i word found
    exact (pass_word seen (Lookahead.lexeme_of_word? found)).bind fun _ => keeps_pure
  · exact keeps_failure

/-- A lexeme seen behind a word. -/
theorem Sees.peekAfter? {next : Lookahead} {word : String} (seen : track.Sees depth ahead)
    (lexeme : ahead.lexeme = .word word) (fits : place.Fits depth)
    (found : Reader.peekAfter? ahead place = some next) : track.Sees depth next :=
  ⟨ahead.after, place, track.passes seen (Lookahead.moves_word lexeme depth), fits, found⟩

theorem keeps_single {item : Reader Expression} (keeps : track.Keeps depth item) :
    track.Keeps depth (single item) :=
  keeps.bind fun _ => keeps_pure

/-- Items in brackets, with the bracket that closes them. -/
theorem closes_itemsTo {closing : String} (closes : closingMarks.contains closing = true)
    {item : Reader (List Expression)} (keeps : track.Keeps (depth + 1) item)
    (first : List Expression) : track.Closes depth (itemsTo closing item first) := by
  refine Leads.bind ((leads_iterate
    (fun state cursor => if state.2 then track.On depth cursor else track.On (depth + 1) cursor)
    (fun _ => track.On depth) fun state => ?_).weaken fun _ here => here) fun _ => keeps_pure
  obtain ⟨items, done⟩ := state
  cases done with
  | true => exact leads_pure fun _ here => here
  | false =>
    refine leads_peek_seen Place.fits_succ fun ahead seen => leads_ite (fun closing => ?_) fun _ =>
      leads_ite (fun comma => ?_) fun _ => leads_failure
    · exact (pass_closing seen closing closes).bind fun _ => leads_pure fun _ here => here
    · refine (pass_flat seen comma rfl).bind fun _ => leads_peek_seen Place.fits_succ fun _ _ =>
        leads_ite (fun _ => leads_pure fun _ here => here) fun _ => ?_
      exact keeps.bind fun _ => leads_pure fun _ here => here

section Expressions

variable {self : Nested} (inner : track.Nests self)
include inner

/-! ### Lists of expressions -/

theorem keeps_moreExpressions {follow : Follow} (fits : follow.place.Fits depth)
    (stops : List String) (first : Expression) :
    track.Keeps depth (moreExpressions self follow stops first) := by
  refine (keeps_iterate fun state => ?_).bind fun _ => keeps_pure
  refine keeps_ite keeps_pure (keeps_peek fits fun ahead seen => ?_)
  cases comma : ahead.isMark "," with
  | false => exact keeps_pure
  | true =>
    refine (pass_flat seen comma rfl).bind fun _ => keeps_peek fits fun _ _ => keeps_ite ?_ keeps_pure
    exact (inner _ _ _ fits fits).bind fun _ => keeps_pure

theorem keeps_expressions {follow : Follow} (fits : place.Fits depth)
    (fits' : follow.place.Fits depth) (stops : List String) :
    track.Keeps depth (expressions self place follow stops) :=
  (inner _ _ _ fits fits').bind fun first => keeps_moreExpressions inner fits' stops first

theorem keeps_strictExpressions {follow : Follow} (fits : follow.place.Fits depth) :
    track.Keeps depth (strictExpressions self follow) := by
  have item := inner depth .inStatement follow Place.fits_inStatement fits
  refine item.bind fun _ => (keeps_iterate fun _ => ?_).bind fun _ => keeps_pure
  refine (try_flat fits rfl).bind fun _ => keeps_ite ?_ keeps_pure
  exact item.bind fun _ => keeps_pure

theorem keeps_yieldTail (fits : place.Fits depth) : track.Keeps depth (yieldTail self place) := by
  refine keeps_peek fits fun _ seen => leads_ite (fun word => ?_) fun _ => keeps_ite ?_ keeps_pure
  · exact (pass_isWord seen word).bind fun _ =>
      (inner _ _ _ Place.fits_inStatement fits).bind fun _ => keeps_pure
  · exact (keeps_expressions inner fits fits _).bind fun _ => keeps_pure

/-! ### Brackets -/

/-- An expression between brackets. -/
theorem keeps_inside (follow : Follow) : track.Keeps (depth + 1) (self place follow) :=
  inner _ _ _ Place.fits_succ Place.fits_succ

theorem keeps_element : track.Keeps (depth + 1) (element self) := by
  refine keeps_peek Place.fits_succ fun _ seen => leads_ite (fun star => ?_) fun _ =>
    leads_ite (fun word => ?_) fun _ => keeps_inside inner _
  · exact (pass_flat seen star rfl).bind fun _ => (keeps_inside inner _).bind fun _ => keeps_pure
  · exact (pass_isWord seen word).bind fun _ => keeps_yieldTail inner Place.fits_succ

theorem closes_elementsTo {closing : String} (closes : closingMarks.contains closing = true)
    (first : List Expression) : track.Closes depth (elementsTo self closing first) :=
  closes_itemsTo closes (keeps_single (keeps_element inner)) first

theorem keeps_entry : track.Keeps (depth + 1) (entry self) := by
  refine keeps_peek Place.fits_succ fun _ seen => leads_ite (fun star => ?_) fun _ => ?_
  · exact (pass_flat seen star rfl).bind fun _ => (keeps_inside inner _).bind fun _ => keeps_pure
  · refine (keeps_inside inner _).bind fun _ => Leads.bind ?_ fun _ =>
      (keeps_inside inner _).bind fun _ => keeps_pure
    exact leads_expectMark Place.fits_succ (.colon (.inl (Nat.succ_pos _)))

theorem closes_entriesTo (first : List Expression) : track.Closes depth (entriesTo self first) :=
  closes_itemsTo rfl (keeps_entry inner) first

section Primary

variable {primary : Place → Follow → Reader Expression} (operand : track.Nests primary)
include operand

theorem keeps_comprehensionClauses : track.Keeps (depth + 1) (comprehensionClauses self primary) := by
  have target : track.Keeps (depth + 1) (primary .inStatement (.plain .inStatement)) :=
    operand _ _ _ Place.fits_succ Place.fits_succ
  refine (keeps_iterate fun clauses => ?_).bind fun _ => keeps_ite keeps_failure keeps_pure
  refine keeps_peek Place.fits_succ fun ahead seen => leads_ite (fun word => ?_) fun _ =>
    leads_ite (fun word => ?_) fun _ => keeps_pure
  · have passed : track.Keeps (depth + 1) (pass ahead) := by
      rcases Bool.or_eq_true_iff.mp word with word | word
      · exact pass_isWord seen word
      · exact pass_isWord seen word
    refine passed.bind fun _ => ?_
    extract_lets clause
    have keeps (result : Unit) : track.Keeps (depth + 1) (clause result) := by
      refine target.bind fun found => leads_unless ?_
      refine (keeps_iterate fun state => ?_).bind fun targets => ?_
      · refine keeps_ite keeps_pure (keeps_peek Place.fits_succ fun _ seen =>
          leads_ite (fun comma => ?_) fun _ => keeps_pure)
        refine (pass_flat seen comma rfl).bind fun _ => keeps_peek Place.fits_succ fun _ _ =>
          keeps_ite keeps_pure ?_
        exact target.bind fun _ => leads_unless keeps_pure
      · refine (keeps_expectWord Place.fits_succ _).bind fun _ => ?_
        exact (keeps_expressions inner Place.fits_succ Place.fits_succ _).bind fun _ => keeps_pure
    exact keeps_ite ((keeps_expectWord Place.fits_succ _).bind keeps) (keeps ())
  · refine (pass_isWord seen (Bool.and_eq_true_iff.mp word).1).bind fun _ => ?_
    exact (keeps_inside inner _).bind fun _ => keeps_pure

/-- A comprehension up to the bracket that closes it. -/
theorem closes_comprehension {closing : String} (closes : closingMarks.contains closing = true)
    (value : List Expression → α) :
    track.Closes depth (comprehensionClauses self primary >>= fun clauses =>
      expectMark .inBrackets closing >>= fun _ => pure (value clauses)) :=
  (keeps_comprehensionClauses inner operand).bind fun _ =>
    (expect_closing Place.fits_succ closes).bind fun _ => keeps_pure

theorem closes_roundBrackets : track.Closes depth (roundBrackets self primary) := by
  refine leads_peek_seen Place.fits_succ fun _ seen => leads_ite (fun closing => ?_) fun _ => ?_
  · exact (pass_closing seen closing rfl).bind fun _ => keeps_pure
  refine (keeps_element inner).bind fun first => leads_peek_seen Place.fits_succ fun _ seen => ?_
  refine leads_ite (fun _ => closes_comprehension inner operand rfl _) fun _ =>
    leads_ite (fun closing => ?_) fun _ => ?_
  · split
    · refine leads_ite (fun _ => ?_) fun _ => leads_failure
      exact (pass_closing seen closing rfl).bind fun _ => keeps_pure
    · exact (pass_closing seen closing rfl).bind fun _ => keeps_pure
  · exact (closes_elementsTo inner rfl _).bind fun _ => keeps_pure

theorem closes_squareBrackets : track.Closes depth (squareBrackets self primary) := by
  refine leads_peek_seen Place.fits_succ fun _ seen => leads_ite (fun closing => ?_) fun _ => ?_
  · exact (pass_closing seen closing rfl).bind fun _ => keeps_pure
  refine (keeps_element inner).bind fun first => leads_peek_seen Place.fits_succ fun _ _ => ?_
  refine leads_ite (fun _ => closes_comprehension inner operand rfl _) fun _ => ?_
  exact (closes_elementsTo inner rfl _).bind fun _ => keeps_pure

theorem closes_curlyBrackets : track.Closes depth (curlyBrackets self primary) := by
  refine leads_peek_seen Place.fits_succ fun _ seen => leads_ite (fun closing => ?_) fun _ =>
    leads_ite (fun comma => ?_) fun _ => leads_ite (fun star => ?_) fun _ => ?_
  · exact (pass_closing seen closing rfl).bind fun _ => keeps_pure
  · exact (pass_flat seen comma rfl).bind fun _ =>
      (expect_closing Place.fits_succ rfl).bind fun _ => keeps_pure
  · exact (pass_flat seen star rfl).bind fun _ => (keeps_inside inner _).bind fun _ =>
      (closes_entriesTo inner _).bind fun _ => keeps_pure
  · refine (keeps_element inner).bind fun first => leads_peek_seen Place.fits_succ fun _ seen =>
      leads_ite (fun colon => ?_) fun _ =>
        leads_ite (fun _ => closes_comprehension inner operand rfl _) fun _ => ?_
    · refine (pass_colon seen colon (.inl (Nat.succ_pos _))).bind fun _ =>
        (keeps_inside inner _).bind fun value => ?_
      refine leads_peek_seen Place.fits_succ fun _ _ =>
        leads_ite (fun _ => closes_comprehension inner operand rfl _) fun _ => ?_
      exact (closes_entriesTo inner _).bind fun _ => keeps_pure
    · exact (closes_elementsTo inner rfl _).bind fun _ => keeps_pure

/-! ### Calls and subscripts -/

omit operand in
theorem keeps_argument : track.Keeps (depth + 1) (argument self) := by
  refine keeps_peek Place.fits_succ fun ahead seen => leads_ite (fun star => ?_) fun _ => ?_
  · have listed : ["*", "**"].any ahead.isMark = true := by simpa using star
    exact (pass_flat_of_any seen listed rfl).bind fun _ => (keeps_inside inner _).bind fun _ =>
      keeps_pure
  · split
    · rename_i label word
      refine keeps_ite (keeps_inside inner _) ?_
      split
      · rename_i next found
        refine leads_ite (fun equals => ?_) fun _ => keeps_inside inner _
        have seen' := seen.peekAfter? (Lookahead.lexeme_of_word? word) Place.fits_succ found
        exact (pass_flat seen' equals rfl).bind fun _ => (keeps_inside inner _).bind fun _ =>
          keeps_pure
      · exact keeps_failure
    · exact keeps_inside inner _

theorem closes_arguments (generator : Bool) :
    track.Closes depth (arguments self primary generator) := by
  refine leads_peek_seen Place.fits_succ fun _ seen => leads_ite (fun closing => ?_) fun _ =>
    leads_ite (fun comma => ?_) fun _ => ?_
  · exact (pass_closing seen closing rfl).bind fun _ => keeps_pure
  · exact (pass_flat seen comma rfl).bind fun _ =>
      (expect_closing Place.fits_succ rfl).bind fun _ => keeps_pure
  · refine (keeps_argument inner).bind fun first => leads_peek_seen Place.fits_succ fun _ _ => ?_
    refine leads_ite (fun _ => closes_comprehension inner operand rfl _) fun _ => ?_
    exact closes_itemsTo rfl (keeps_single (keeps_argument inner)) _

omit operand in
theorem keeps_subscriptItem : track.Keeps (depth + 1) (subscriptItem self) := by
  refine keeps_peek Place.fits_succ fun _ _ => ?_
  extract_lets more
  have keeps (first : List Expression) : track.Keeps (depth + 1) (more first) := by
    refine (keeps_iterate fun state => ?_).bind fun _ => keeps_pure
    have colon : track.Keeps (depth + 1) (tryMark .inBrackets ":") :=
      keeps_tryMark Place.fits_succ (.colon (.inl (Nat.succ_pos _)))
    refine keeps_ite keeps_pure (colon.bind fun _ => keeps_ite ?_ keeps_pure)
    refine keeps_peek Place.fits_succ fun _ _ => keeps_ite keeps_pure ?_
    exact (keeps_inside inner _).bind fun _ => keeps_pure
  exact keeps_ite (keeps_pure.bind keeps) ((keeps_inside inner _).bind fun _ => keeps_pure.bind keeps)

omit operand in
theorem closes_subscriptItems : track.Closes depth (subscriptItems self) :=
  (keeps_subscriptItem inner).bind fun _ => closes_itemsTo rfl (keeps_subscriptItem inner) _

/-! ### Operands -/

section Strings

variable (strings : track.Strings self)
include strings

omit inner operand in
theorem keeps_literal {form : StringForm} (seen : track.Sees depth ahead)
    (opened : ahead.lexeme = .stringStart form) {next : Expression → Reader β}
    {after : β → Cursor → Prop} (leads : ∀ value, Leads (track.On depth) (next value) after) :
    Leads (track.On depth) (pass ahead >>= fun _ => stringLiteral self form >>= next) after := by
  refine leads_set ((strings depth ahead form seen opened).bind leads)

omit inner operand in
theorem keeps_moreStrings (fits : place.Fits depth) (first : Expression) :
    track.Keeps depth (moreStrings self place first) := by
  refine (keeps_iterate fun found => ?_).bind fun _ => keeps_pure
  refine keeps_peek fits fun ahead seen => ?_
  split
  · rename_i form opened
    exact keeps_literal strings seen opened fun _ => keeps_pure
  · exact keeps_pure

theorem keeps_atom {follow : Follow} (fits : place.Fits depth) (fits' : follow.place.Fits depth) :
    track.Keeps depth (atom self primary place follow) := by
  refine keeps_peek fits fun ahead seen => ?_
  split
  · rename_i number
    exact (leads_pass seen (number ▸ .number depth)).bind fun _ => keeps_pure
  · rename_i form opened
    exact keeps_literal strings seen opened fun _ => keeps_moreStrings strings fits' _
  · rename_i text word
    exact (pass_word seen word).bind fun _ => keeps_pure
  · rename_i mark
    exact (leads_pass seen (mark ▸ .flat rfl depth)).bind fun _ => keeps_pure
  · rename_i mark
    exact (leads_pass seen (mark ▸ .opening rfl depth)).bind fun _ =>
      closes_roundBrackets inner operand
  · rename_i mark
    exact (leads_pass seen (mark ▸ .opening rfl depth)).bind fun _ =>
      closes_squareBrackets inner operand
  · rename_i mark
    exact (leads_pass seen (mark ▸ .opening rfl depth)).bind fun _ =>
      closes_curlyBrackets inner operand
  · exact keeps_failure

omit strings in
theorem keeps_trailers {follow : Follow} (fits : follow.place.Fits depth) (start : Expression) :
    track.Keeps depth (trailers self primary follow start) := by
  refine keeps_iterate fun value => keeps_peek fits fun _ seen => leads_ite (fun dot => ?_) fun _ =>
    leads_ite (fun round => ?_) fun _ => leads_ite (fun square => ?_) fun _ => keeps_pure
  · exact (pass_flat seen dot rfl).bind fun _ => leads_gapText.bind fun _ =>
      (keeps_anyWord Place.fits_inStatement).bind fun _ => keeps_pure
  · exact (pass_opening seen round rfl).bind fun _ =>
      (closes_arguments inner operand _).bind fun _ => keeps_pure
  · exact (pass_opening seen square rfl).bind fun _ =>
      (closes_subscriptItems inner).bind fun _ => keeps_pure

end Strings

end Primary

section Strings

variable (strings : track.Strings self)
include strings

theorem nests_primaryOperand (bound : Nat) : track.Nests (primaryOperand self bound) := by
  induction bound with
  | zero => exact fun _ _ _ _ _ => keeps_failure
  | succ bound operand =>
    intro depth place follow fits fits'
    -- Behind a sign the operand stands inside the statement, wherever it began.
    refine Leads.bind ((leads_iterate
      (fun state cursor => state.2.Fits depth ∧ track.On depth cursor)
      (fun state cursor => state.2.Fits depth ∧ track.On depth cursor)
      fun state => leads_from fun cursor here => ?_).weaken fun _ here => ⟨fits, here⟩) fun state =>
        leads_from fun cursor here => ?_
    · have stop : Leads (track.On depth) (pure none)
          fun (next : Option (Bool × Place)) cursor =>
            next.elim (state.2.Fits depth ∧ track.On depth cursor) fun state' =>
              state'.2.Fits depth ∧ track.On depth cursor :=
        leads_pure fun _ there => ⟨here.1, there⟩
      have again : Leads (track.On depth) (pure (some (true, Place.inStatement)))
          fun (next : Option (Bool × Place)) cursor =>
            next.elim (state.2.Fits depth ∧ track.On depth cursor) fun state' =>
              state'.2.Fits depth ∧ track.On depth cursor :=
        leads_pure fun _ there => ⟨Place.fits_inStatement, there⟩
      refine (leads_peek_seen here.1 fun ahead seen => leads_ite (fun sign => ?_) fun _ =>
        leads_ite (fun await => ?_) fun _ => stop).from here.2
      · have listed : ["-", "+", "~"].any ahead.isMark = true := by
          simpa [Bool.or_assoc] using sign
        exact (pass_flat_of_any seen listed rfl).bind fun _ => again
      · split
        · exact leads_ite (fun _ => (pass_isWord seen await).bind fun _ => again) fun _ => stop
        · exact stop
    · refine (keeps_peek here.1 fun _ seen => leads_ite (fun star => ?_) fun _ => ?_).from here.2
      · refine (pass_flat seen star rfl).bind fun _ =>
          (keeps_atom inner operand strings Place.fits_inStatement fits').bind fun _ => ?_
        refine (keeps_trailers inner operand fits' _).bind fun _ => keeps_ite ?_ keeps_failure
        exact keeps_pure.bind fun _ => keeps_pure
      · exact (keeps_atom inner operand strings here.1 fits').bind fun _ =>
          (keeps_trailers inner operand fits' _).bind fun _ => keeps_pure

theorem nests_primary : track.Nests (primary self) :=
  fun _ _ _ fits fits' => leads_get fun _ => nests_primaryOperand inner strings _ _ _ _ fits fits'

/-! ### Types and parameters -/

omit strings in
theorem keeps_typeOfDepth {bound depth : Nat} {constrained : Bool} {place follow : Place}
    (fits : place.Fits depth) (fits' : follow.Fits depth)
    (allowed : constrained = true → 0 < depth ∨ track.colons) :
    track.Keeps depth (typeOfDepth self bound constrained place follow) := by
  induction bound generalizing depth constrained place follow with
  | zero => exact keeps_failure
  | succ bound ih =>
    refine keeps_peek fits fun ahead seen => ?_
    extract_lets generic more
    have keeps (first : Expression) : track.Keeps depth (more first) := by
      refine (keeps_iterate fun parts => ?_).bind fun _ => keeps_pure
      refine keeps_peek fits' fun ahead seen => leads_ite (fun next => ?_) fun _ =>
        leads_ite (fun dot => ?_) fun _ => keeps_pure
      · have passed : track.Keeps depth (pass ahead) := by
          rcases Bool.or_eq_true_iff.mp next with bar | colon
          · exact pass_flat seen bar rfl
          · obtain ⟨constrains, colon⟩ := Bool.and_eq_true_iff.mp colon
            exact pass_colon seen colon (allowed constrains)
        exact passed.bind fun _ => (ih Place.fits_inStatement fits' allowed).bind fun _ => keeps_pure
      · exact (pass_flat seen dot rfl).bind fun _ => (keeps_anyWord Place.fits_inStatement).bind
          fun _ => keeps_pure
    have item : track.Keeps (depth + 1) (typeOfDepth self bound true .inBrackets .inBrackets) :=
      ih Place.fits_succ Place.fits_succ fun _ => .inl (Nat.succ_pos _)
    refine keeps_ite ?_ (leads_ite (fun star => ?_) fun _ => (inner _ _ _ fits fits').bind keeps)
    · refine (keeps_anyWord fits).bind fun _ => Leads.bind
        (leads_expectMark fits' (.opening rfl depth)) fun _ => item.bind fun _ => ?_
      exact (closes_itemsTo rfl (keeps_single item) _).bind fun _ => keeps_pure.bind keeps
    · exact (pass_flat seen star rfl).bind fun _ => (keeps_anyWord Place.fits_inStatement).bind
        fun _ => keeps_pure.bind keeps

omit strings in
theorem keeps_typeExpression {constrained : Bool} {place follow : Place} (fits : place.Fits depth)
    (fits' : follow.Fits depth) (allowed : constrained = true → 0 < depth ∨ track.colons) :
    track.Keeps depth (typeExpression self constrained place follow) :=
  leads_get fun _ => keeps_typeOfDepth inner fits fits' allowed

omit strings in
theorem closes_typeParameters : track.Closes depth (typeParameters self) := by
  have item : track.Keeps (depth + 1) (typeExpression self true .inBrackets .inBrackets) :=
    keeps_typeExpression inner Place.fits_succ Place.fits_succ fun _ => .inl (Nat.succ_pos _)
  exact item.bind fun _ => closes_itemsTo rfl (keeps_single item) _

omit strings in
theorem keeps_parameterType {typed : Bool} (fits : place.Fits depth)
    (allowed : typed = true → 0 < depth ∨ track.colons) :
    track.Keeps depth (parameterType self typed place) := by
  refine leads_ite (fun types => ?_) fun _ => keeps_pure
  refine (keeps_tryMark fits (.colon (allowed types))).bind fun _ => keeps_ite ?_ keeps_pure
  exact (keeps_typeExpression inner Place.fits_inStatement fits fun _ => allowed types).bind
    fun _ => keeps_pure

omit strings in
theorem keeps_parameterDefault (fits : place.Fits depth) :
    track.Keeps depth (parameterDefault self place) :=
  (try_flat fits rfl).bind fun _ => keeps_ite
    ((inner _ _ _ Place.fits_inStatement fits).bind fun _ => keeps_pure) keeps_pure

theorem keeps_parameter {typed : Bool} {closing : String} (fits : place.Fits depth)
    (allowed : typed = true → 0 < depth ∨ track.colons) :
    track.Keeps depth (parameter self typed closing place) := by
  have target {place' : Place} (fits'' : place'.Fits depth) :
      track.Keeps depth (primary self place' (.plain place)) :=
    nests_primary inner strings _ _ _ fits'' fits
  refine keeps_peek fits fun ahead seen => ?_
  split
  · rename_i text word
    exact (pass_word seen word).bind fun _ => (keeps_parameterType inner fits allowed).bind fun _ =>
      (keeps_parameterDefault inner fits).bind fun _ => keeps_pure
  · rename_i slash
    exact (leads_pass seen (slash ▸ .flat rfl depth)).bind fun _ => keeps_pure
  · refine (target fits).bind fun _ => keeps_ite ?_ keeps_failure
    exact (keeps_parameterDefault inner fits).bind fun _ => keeps_pure
  · rename_i sign _ _ mark
    refine leads_ite (fun star => ?_) fun _ => keeps_failure
    have flat : isFlatMark sign = true := by
      rcases Bool.or_eq_true_iff.mp star with same | same
      · rw [eq_of_beq same]
        rfl
      · rw [eq_of_beq same]
        rfl
    refine (leads_pass seen (mark ▸ .flat flat depth)).bind fun _ => keeps_peek fits fun _ _ =>
      keeps_ite keeps_pure ?_
    refine (target Place.fits_inStatement).bind fun _ => leads_unless ?_
    exact (keeps_parameterType inner fits allowed).bind fun _ => keeps_pure
  · exact keeps_failure

theorem keeps_parameterList {typed : Bool} {closing : String} (fits : place.Fits depth)
    (allowed : typed = true → 0 < depth ∨ track.colons) :
    track.Keeps depth (parameterList self typed closing place) := by
  refine keeps_iterate fun parameters => keeps_peek fits fun _ _ => keeps_ite keeps_pure ?_
  refine (keeps_parameter inner strings fits allowed).bind fun _ => keeps_peek fits fun _ seen => ?_
  refine leads_ite (fun comma => ?_) fun _ => keeps_ite keeps_pure keeps_failure
  exact (pass_flat seen comma rfl).bind fun _ => keeps_pure

/-! ### Chains of operands -/

theorem keeps_lambdaTail {follow : Follow} (fits : follow.place.Fits depth)
    (allowed : 0 < depth ∨ track.colons) : track.Keeps depth (lambdaTail self follow) :=
  (keeps_parameterList inner strings Place.fits_inStatement fun _ => allowed).bind fun _ =>
    (leads_expectMark Place.fits_inStatement (.colon allowed)).bind fun _ =>
      (inner _ _ _ Place.fits_inStatement fits).bind fun _ => keeps_pure

theorem nests_operand : track.Nests (operand self) := by
  intro depth place follow fits fits'
  refine Leads.bind ((leads_iterate
    (fun state cursor => state.2.Fits depth ∧ track.On depth cursor)
    (fun state cursor => state.2.Fits depth ∧ track.On depth cursor)
    fun state => leads_from fun cursor here => ?_).weaken fun _ here => ⟨fits, here⟩) fun state =>
      leads_from fun cursor here => ?_
  · refine (leads_peek_seen here.1 fun ahead seen => leads_ite (fun negation => ?_) fun _ =>
      leads_pure fun _ there => ⟨here.1, there⟩).from here.2
    exact (pass_isWord seen negation).bind fun _ => leads_pure fun _ there =>
      ⟨Place.fits_inStatement, there⟩
  · have plain := nests_primary inner strings _ _ _ here.1 fits'
    refine (keeps_peek here.1 fun ahead seen => leads_ite (fun lambda => ?_) fun _ => ?_).from here.2
    · exact (pass_isWord seen lambda).bind fun _ =>
        (keeps_lambdaTail inner strings fits' (track.lambdas seen lambda)).bind fun _ => keeps_pure
    · split
      · rename_i text word
        split
        · rename_i next found
          refine leads_ite (fun walrus => ?_) fun _ => plain.bind fun _ => keeps_pure
          have seen' := seen.peekAfter? (Lookahead.lexeme_of_word? word) fits' found
          refine (pass_flat seen' (Bool.and_eq_true_iff.mp walrus).1 rfl).bind fun _ => ?_
          exact (inner _ _ _ Place.fits_inStatement fits').bind fun _ =>
            keeps_pure.bind fun _ => keeps_pure
        · exact plain.bind fun _ => keeps_pure
      · exact plain.bind fun _ => keeps_pure

theorem keeps_chainStep {follow : Follow} (fits : follow.place.Fits depth)
    (parts : List Expression) : track.Keeps depth (chainStep self follow parts) := by
  refine keeps_peek fits fun ahead seen => ?_
  have joined : track.Keeps depth (operand self .inStatement follow >>= fun next =>
      pure (some (parts ++ [next]))) :=
    (nests_operand inner strings _ _ _ Place.fits_inStatement fits).bind fun _ => keeps_pure
  have compared : track.Keeps depth (primary self .inStatement follow >>= fun next =>
      pure (some (parts ++ [next]))) :=
    (nests_primary inner strings _ _ _ Place.fits_inStatement fits).bind fun _ => keeps_pure
  split
  · rename_i sign mark
    refine leads_ite (fun listed => ?_) fun _ => keeps_pure
    have flat : isFlatMark sign = true :=
      List.all_eq_true.mp (by rfl : operatorMarks.all isFlatMark = true) sign
        (List.contains_iff_mem.mp listed)
    exact (leads_pass seen (mark ▸ .flat flat depth)).bind fun _ => compared
  · rename_i word
    exact (pass_word seen word).bind fun _ => joined
  · rename_i word
    exact (pass_word seen word).bind fun _ => joined
  · rename_i word
    exact (pass_word seen word).bind fun _ =>
      (keeps_expectWord Place.fits_inStatement _).bind fun _ => compared
  · rename_i word
    exact (pass_word seen word).bind fun _ => compared
  · rename_i word
    refine (pass_word seen word).bind fun _ => keeps_peek Place.fits_inStatement fun _ seen' => ?_
    exact leads_ite (fun negation => (pass_isWord seen' negation).bind fun _ => compared)
      fun _ => compared
  · rename_i word
    refine keeps_ite ?_ keeps_pure
    refine (pass_word seen word).bind fun _ =>
      (inner _ _ _ Place.fits_inStatement Place.fits_inStatement).bind fun _ => ?_
    exact (keeps_expectWord Place.fits_inStatement _).bind fun _ =>
      (nests_operand inner strings _ _ _ Place.fits_inStatement fits).bind fun _ => keeps_pure
  · rename_i word
    refine keeps_ite ?_ keeps_pure
    have target := inner depth .inStatement ⟨follow.place, false, false⟩ Place.fits_inStatement fits
    exact (pass_word seen word).bind fun _ => target.bind fun _ => keeps_pure
  · exact keeps_pure

end Strings

end Expressions

/-! ### Expressions -/

section Expressions

variable {track : Track} (reads : track.ReadsStrings)
include reads

/-- By induction on the nesting. -/
theorem nests_expressionOfDepth (bound : Nat) : track.Nests (expressionOfDepth bound) := by
  induction bound with
  | zero => exact fun _ _ _ _ _ => keeps_failure
  | succ bound inner =>
    intro depth place follow fits fits'
    have strings := reads _ (.ofDepth bound) inner
    exact (nests_operand inner strings _ _ _ fits fits').bind fun _ =>
      (keeps_iterate (keeps_chainStep inner strings fits')).bind fun _ => keeps_pure

/-- **An expression is read along a track.** -/
theorem nests_expression : track.Nests expression :=
  fun _ _ _ fits fits' => leads_get fun _ => nests_expressionOfDepth reads _ _ _ _ fits fits'

theorem nests_of_reads {self : Nested} (nested : ReadsExpressions self) : track.Nests self := by
  cases nested with
  | expression => exact nests_expression reads
  | ofDepth bound => exact nests_expressionOfDepth reads bound

theorem strings_of_reads {self : Nested} (nested : ReadsExpressions self) : track.Strings self :=
  reads self nested (nests_of_reads reads nested)

theorem strings_expression : track.Strings expression := strings_of_reads reads .expression

end Expressions

/-! ### The positions of a text -/

section Along

variable (text : List Char)

/-- The positions of a text. How many brackets are open there does not matter. -/
def along : Track where
  On := fun _ => Cursor.IsAt text
  colons := True
  passes := fun ⟨_, _, here, _, seen⟩ _ => (here.peek? seen).isAt
  lambdas := fun _ _ => .inr trivial
  stars := fun {_ cursor} here star => by
    obtain ⟨more, shown⟩ := List.head?_eq_some_iff.mp star
    have one : (cursor.rest.take 1).count '\n' = 0 := by simp [shown]
    exact here.trans (one ▸ leaves_drop 1 cursor.rest)

variable {text} {self : Nested} (inner : (along text).Nests self)
include inner

theorem stays_interpolation (bound : Nat) : Stays text (interpolation self bound) := by
  induction bound with
  | zero => exact stays_failure
  | succ bound ih =>
    refine stays_peek fun _ seen => ?_
    extract_lets closing rest
    have closes (found : List Expression) : Stays text (closing found) := by
      refine leads_settle.bind fun shown => ?_
      split
      · exact (leads_advance (by simp)).bind fun _ => stays_pure
      · exact leads_failure
    have stays (value : Expression) : Stays text (rest value) := by
      refine leads_settle.bind fun shown => ?_
      extract_lets format conversion
      have formats (result : Unit) : Stays text (format result) := by
        refine leads_settle.bind fun shown => leads_ite (fun colon => ?_) fun _ => ?_
        · refine (leads_advance_one (by decide) colon).bind fun _ => ?_
          refine (stays_iterate fun found => leads_rest fun cursor => ?_).bind closes
          split
          · rename_i shown
            rw [shown]
            exact (leads_advance (by simp)).bind fun _ => ih.bind fun _ => stays_pure
          · exact stays_before stays_pure
          · rename_i shown
            rw [shown]
            exact (leads_advanceRows rfl).bind fun _ => stays_pure
          · rename_i plain shown
            rw [shown]
            exact (leads_advance_one plain rfl).bind fun _ => stays_pure
          · exact leads_failure
        · exact stays_before (stays_pure.bind closes)
      have converts (result : Unit) : Stays text (conversion result) := by
        refine leads_settle.bind fun shown => ?_
        split
        · rename_i c _
          refine leads_ite (fun letter => ?_) fun _ => stays_before (formats ())
          have plain : c ≠ '\n' := by
            rintro rfl
            cases letter
          exact (leads_advance (by simp [plain.symm])).bind formats
        · exact stays_before (formats ())
      refine leads_ite (fun equals => ?_) fun _ => stays_before (converts ())
      exact (leads_advance_one (by decide) equals).bind converts
    have yielded : (along text).Keeps 1 (yieldTail self .inBrackets) :=
      keeps_yieldTail inner Place.fits_succ
    have items : (along text).Keeps 1 (expressions self .inBrackets (.plain .inBrackets) []) :=
      keeps_expressions inner Place.fits_succ Place.fits_succ _
    refine stays_ite ?_ ?_
    · exact (stays_pass seen).bind fun _ => Leads.bind yielded stays
    · exact Leads.bind items fun _ => stays_pure.bind stays

theorem stays_stringLiteral {form : StringForm} (quoted : form.quote ≠ '\n') :
    Stays text (stringLiteral self form) :=
  leads_rest fun _ => stays_before (stays_stringBody (stays_interpolation inner _) quoted)

omit inner in
theorem readsStrings_along : (along text).ReadsStrings := by
  intro self _ inner depth ahead form seen opened
  obtain ⟨cursor, place, here, -, seen⟩ := seen
  have inside := Cursor.IsAt.peek? here seen
  exact (stays_stringLiteral inner (inside.quoted form opened)).from inside.isAt

end Along

/-! ### Blocks -/

section Blocks

/-- The cursors in the same blocks at which an end of the text is left. -/
def inBlocks (blocks : List Nat) (text : List Char) : Track where
  On := fun _ cursor => cursor.blocks = blocks ∧ cursor.rest <:+ text
  colons := True
  passes := fun ⟨_, _, here, _, seen⟩ _ =>
    ⟨(Cursor.blocks_after_of_peek? seen).trans here.1, (Cursor.rest_after_of_peek? seen).trans here.2⟩
  lambdas := fun _ _ => .inr trivial
  stars := fun here _ => ⟨here.1, (List.drop_suffix _ _).trans here.2⟩

variable {blocks : List Nat} {text : List Char} {self : Nested}

/-- No block is opened or closed, and the text is not left. -/
abbrev StaysIn (blocks : List Nat) (text : List Char) {α : Type} (reader : Reader α) : Prop :=
  (inBlocks blocks text).Keeps 1 reader

theorem staysIn_advanceRows (count rows : Nat) : StaysIn blocks text (advanceRows count rows) := by
  intro cursor result next here read
  cases read
  exact ⟨here.1, (List.drop_suffix _ _).trans here.2⟩

theorem staysIn_advance (count : Nat) : StaysIn blocks text (advance count) := by
  intro cursor result next here read
  cases read
  exact ⟨here.1, (List.drop_suffix _ _).trans here.2⟩

theorem staysIn_settle : StaysIn blocks text settle := by
  intro cursor result next here read
  cases read
  exact ⟨here.1, cursor.lookahead_suffix.trans here.2⟩

/-- Characters are passed, and what they tell of the string is kept. -/
theorem staysIn_piece {α : Type} {passes : Reader Unit} (stays : StaysIn blocks text passes) (result : α) :
    StaysIn blocks text (passes >>= fun _ => pure result) :=
  stays.bind fun _ => keeps_pure

theorem staysIn_passRawEscape (quote : Char) (rest : List Char) :
    StaysIn blocks text (passRawEscape quote rest) := by
  unfold passRawEscape
  split
  · dsimp only
    split
    · exact staysIn_advanceRows _ _
    · exact staysIn_advanceRows _ _
    · exact staysIn_advance _
    · exact staysIn_advance _
  · exact staysIn_advance _

theorem staysIn_stringPiece {interpolation : Reader (List Expression)}
    (inner : StaysIn blocks text interpolation) (form : StringForm) (state : StringState) :
    StaysIn blocks text (stringPiece interpolation form state) := by
  refine keeps_ite keeps_pure (leads_get fun cursor => ?_)
  split
  · exact keeps_failure
  refine keeps_ite (keeps_ite ?_ ?_) (keeps_ite (keeps_ite ?_ keeps_failure) (keeps_ite
    (keeps_ite ?_ (keeps_ite ?_ ?_)) (keeps_ite (keeps_ite (keeps_ite ?_ ?_) ?_) (keeps_ite
      (keeps_ite keeps_failure ?_) (keeps_ite keeps_failure ?_)))))
  · exact staysIn_piece (staysIn_advance _) _
  · exact (staysIn_advance _).bind fun _ => inner.bind fun _ => keeps_pure
  · exact staysIn_piece (staysIn_advance _) _
  · exact staysIn_piece (staysIn_passRawEscape _ _) _
  · exact staysIn_piece (staysIn_advanceRows _ _) _
  · split
    · exact staysIn_piece (staysIn_advanceRows _ _) _
    · exact staysIn_piece (staysIn_advance _) _
  · exact staysIn_piece (staysIn_advance _) _
  · exact staysIn_piece (staysIn_advance _) _
  · exact staysIn_piece (staysIn_advance _) _
  · exact staysIn_piece (staysIn_advanceRows _ _) _
  · exact staysIn_piece (staysIn_advance _) _

/-- Behind a brace of the text. -/
def BehindBrace (blocks : List Nat) (text : List Char) (cursor : Cursor) : Prop :=
  cursor.blocks = blocks ∧ '}' :: cursor.rest <:+ text

/-- The expressions that a string interpolates end in a brace. -/
theorem leads_interpolation (inner : (inBlocks blocks text).Nests self) (bound : Nat) :
    Leads ((inBlocks blocks text).On 1) (interpolation self bound) fun _ =>
      BehindBrace blocks text := by
  induction bound with
  | zero => exact leads_failure
  | succ bound ih =>
    have nested : StaysIn blocks text (interpolation self bound) :=
      ih.mono (fun _ here => here) fun _ _ here => ⟨here.1, (List.suffix_cons _ _).trans here.2⟩
    refine leads_peek_seen Place.fits_succ fun ahead seen => ?_
    extract_lets closing rest
    have closes (found : List Expression) : Leads ((inBlocks blocks text).On 1) (closing found)
        fun _ => BehindBrace blocks text := by
      have settles : Leads ((inBlocks blocks text).On 1) settle fun shown cursor =>
          cursor.blocks = blocks ∧ cursor.rest <:+ text ∧ cursor.rest = shown := by
        intro cursor shown next here read
        cases read
        exact ⟨here.1, cursor.lookahead_suffix.trans here.2, rfl⟩
      refine settles.bind fun shown => ?_
      split
      · rintro cursor result next ⟨here, inside, shown⟩ read
        cases read
        refine ⟨here, ?_⟩
        simpa [shown] using inside
      · exact leads_failure
    have stays (value : Expression) : Leads ((inBlocks blocks text).On 1) (rest value)
        fun _ => BehindBrace blocks text := by
      refine staysIn_settle.bind fun shown => ?_
      extract_lets format conversion
      have formats (result : Unit) : Leads ((inBlocks blocks text).On 1) (format result)
          fun _ => BehindBrace blocks text := by
        refine staysIn_settle.bind fun shown => leads_ite (fun _ => ?_) fun _ => keeps_pure.bind closes
        refine (staysIn_advance _).bind fun _ => Leads.bind (keeps_iterate fun found =>
          leads_get fun cursor => ?_) closes
        split
        · exact (staysIn_advance _).bind fun _ => nested.bind fun _ => keeps_pure
        · exact keeps_pure
        · exact staysIn_piece (staysIn_advanceRows _ _) _
        · exact staysIn_piece (staysIn_advance _) _
        · exact keeps_failure
      have converts (result : Unit) : Leads ((inBlocks blocks text).On 1) (conversion result)
          fun _ => BehindBrace blocks text := by
        refine staysIn_settle.bind fun shown => ?_
        split
        · exact leads_ite (fun _ => (staysIn_advance _).bind formats) fun _ => formats ()
        · exact formats ()
      exact leads_ite (fun _ => (staysIn_advance _).bind converts) fun _ => converts ()
    refine leads_ite (fun word => ?_) fun _ => ?_
    · exact (pass_isWord seen word).bind fun _ => (keeps_yieldTail inner Place.fits_succ).bind stays
    · exact (keeps_expressions inner Place.fits_succ Place.fits_succ _).bind fun _ =>
        keeps_pure.bind stays

theorem staysIn_interpolation (inner : (inBlocks blocks text).Nests self) (bound : Nat) :
    StaysIn blocks text (interpolation self bound) :=
  (leads_interpolation inner bound).mono (fun _ here => here) fun _ _ here =>
    ⟨here.1, (List.suffix_cons _ _).trans here.2⟩

theorem staysIn_stringLiteral (inner : (inBlocks blocks text).Nests self) (form : StringForm) :
    StaysIn blocks text (stringLiteral self form) :=
  leads_get fun _ => (keeps_iterate (staysIn_stringPiece (staysIn_interpolation inner _) form)).bind
    fun _ => keeps_pure

theorem readsStrings_inBlocks : (inBlocks blocks text).ReadsStrings := by
  intro self _ inner depth ahead form seen _
  refine (staysIn_stringLiteral inner form).from ?_
  obtain ⟨cursor, place, here, -, seen⟩ := seen
  exact ⟨(Cursor.blocks_after_of_peek? seen).trans here.1,
    (Cursor.rest_after_of_peek? seen).trans here.2⟩

end Blocks

end Track

end StrategyMend.Python
