import StrategyMend.Proofs.Python.Clauses
import StrategyMend.Proofs.Python.Track

/-!
# Reading statements without a block

A statement without a block, and a pattern, is read along any track from which the colons of annotations
may be passed (`Track.leads_simpleStatement`, `Track.keeps_pattern`). The statement is told to have no
block and to begin on the row of the lexeme that it begins with (`Statement.IsLine`).
-/

set_option autoImplicit false

namespace StrategyMend.Python

/-! ## Statements without a block -/

mutual

/-- The statements without a block in a statement. Those in the definitions of functions and classes
count only if `nested` says so. -/
def Statement.simples (nested : Bool) : Statement → List Statement
  | .block _ _ _ body => simplesIn nested body
  | .function _ _ _ _ _ body => if nested then simplesIn nested body else []
  | .classDef _ _ _ _ body => if nested then simplesIn nested body else []
  | .decorated _ _ definition => definition.simples nested
  | statement => [statement]

/-- The statements without a block in statements. -/
def simplesIn (nested : Bool) : List Statement → List Statement
  | [] => []
  | statement :: rest => statement.simples nested ++ simplesIn nested rest

end

theorem simplesIn_eq_flatMap (nested : Bool) (statements : List Statement) :
    simplesIn nested statements = statements.flatMap (Statement.simples nested) := by
  induction statements with
  | nil => rfl
  | cons statement rest ih => rw [simplesIn, ih, List.flatMap_cons]

@[simp] theorem simplesIn_append (nested : Bool) (first second : List Statement) :
    simplesIn nested (first ++ second) = simplesIn nested first ++ simplesIn nested second := by
  simp only [simplesIn_eq_flatMap, List.flatMap_append]

/-- Whether the statement has no block. -/
def Statement.isSimple : Statement → Bool
  | .block _ _ _ _ => false
  | .function _ _ _ _ _ _ => false
  | .classDef _ _ _ _ _ => false
  | .decorated _ _ _ => false
  | _ => true

/-- The statement has no block and begins on the given row. -/
structure Statement.IsLine (row : Nat) (statement : Statement) : Prop where
  row_eq : statement.row = row
  isSimple : statement.isSimple = true

theorem Statement.simples_of_isSimple {statement : Statement} (simple : statement.isSimple = true)
    (nested : Bool) : statement.simples nested = [statement] := by
  cases statement <;> first | rfl | cases simple

theorem Statement.joints_of_isSimple {statement : Statement} (simple : statement.isSimple = true) :
    statement.joints = [] := by
  cases statement <;> first | rfl | cases simple

namespace Track

open Reader

variable {track : Track} {depth row : Nat}

/-- From a cursor of the track the reader comes to a cursor of the track and gives a statement without a
block, with the given row. -/
abbrev GivesLine (track : Track) (depth row : Nat) (reader : Reader Statement) : Prop :=
  Leads (track.On depth) reader fun statement cursor => statement.IsLine row ∧ track.On depth cursor

theorem givesLine_pure {statement : Statement} (line : statement.IsLine row) :
    track.GivesLine depth row (pure statement) :=
  leads_pure fun _ here => ⟨line, here⟩

/-- Nothing is passed to see that a statement is complete. -/
theorem GivesLine.complete {reader : Reader Statement} (gives : track.GivesLine depth row reader) :
    track.GivesLine depth row (reader >>= complete) :=
  gives.bind fun _ => leads_peek.bind fun _ =>
    leads_ite (fun _ => leads_pure fun _ given => given.1) fun _ => leads_failure

/-! ## Names -/

theorem keeps_nameList : track.Keeps depth nameList := by
  refine (keeps_anyWord Place.fits_inStatement).bind fun _ => keeps_iterate fun names => ?_
  refine (try_flat Place.fits_statementEnd rfl).bind fun _ => keeps_ite ?_ keeps_pure
  exact (keeps_anyWord Place.fits_inStatement).bind fun _ => keeps_pure

theorem keeps_dottedName {place follow : Place} (fits : place.Fits depth) (fits' : follow.Fits depth) :
    track.Keeps depth (dottedName place follow) := by
  refine (keeps_anyWord fits).bind fun _ => keeps_iterate fun names => ?_
  refine (try_flat fits' rfl).bind fun _ => keeps_ite ?_ keeps_pure
  exact (keeps_anyWord Place.fits_inStatement).bind fun _ => keeps_pure

theorem keeps_importedName (binds : List String → String) {place follow : Place}
    (fits : place.Fits depth) (fits' : follow.Fits depth) :
    track.Keeps depth (importedName binds place follow) := by
  refine (keeps_dottedName fits fits').bind fun _ => keeps_peek fits' fun _ seen =>
    leads_ite (fun word => ?_) fun _ => keeps_pure
  exact (pass_isWord seen word).bind fun _ => (keeps_anyWord Place.fits_inStatement).bind fun _ =>
    keeps_pure

theorem keeps_importedNames (binds : List String → String) {place follow : Place}
    (fits : place.Fits depth) (fits' : follow.Fits depth) :
    track.Keeps depth (importedNames binds place follow) := by
  refine (keeps_importedName _ fits fits').bind fun _ => (keeps_iterate fun state => ?_).bind fun _ =>
    keeps_pure
  refine keeps_ite keeps_pure ((try_flat fits' rfl).bind fun _ => keeps_ite ?_ keeps_pure)
  refine keeps_peek fits' fun _ _ => keeps_ite ?_ keeps_pure
  exact (keeps_importedName _ fits' fits').bind fun _ => keeps_pure

theorem keeps_leadingDots : track.Keeps depth leadingDots := by
  refine keeps_iterate fun relative => keeps_peek Place.fits_inStatement fun ahead seen =>
    leads_ite (fun dots => ?_) fun _ => keeps_pure
  have listed : [".", "..."].any ahead.isMark = true := by simpa using dots
  exact (pass_flat_of_any seen listed rfl).bind fun _ => keeps_pure

theorem givesLine_fromImport (row : Nat) : track.GivesLine depth row (fromImport row) := by
  refine keeps_leadingDots.bind fun relative =>
    leads_peek_seen Place.fits_inStatement fun ahead seen => ?_
  extract_lets future names
  have gives (result : Unit) : track.GivesLine depth row (names result) := by
    refine (keeps_expectWord Place.fits_inStatement _).bind fun _ =>
      leads_peek_seen Place.fits_inStatement fun ahead seen => ?_
    refine leads_ite (fun star => ?_) fun _ => leads_ite (fun round => ?_) fun _ => ?_
    · exact (pass_flat seen (Bool.and_eq_true_iff.mp star).1 rfl).bind fun _ =>
        givesLine_pure ⟨rfl, rfl⟩
    · refine (pass_opening seen round rfl).bind fun _ =>
        (keeps_importedNames _ Place.fits_succ Place.fits_succ).bind fun _ => ?_
      exact (expect_closing Place.fits_succ rfl).bind fun _ => givesLine_pure ⟨rfl, rfl⟩
    · exact (keeps_importedNames _ Place.fits_inStatement Place.fits_statementEnd).bind fun _ =>
        givesLine_pure ⟨rfl, rfl⟩
  refine leads_ite (fun word => ?_) fun _ => leads_ite (fun _ => ?_) fun _ => gives ()
  · exact (pass_isWord seen (Bool.and_eq_true_iff.mp word).2).bind gives
  · exact (keeps_dottedName Place.fits_inStatement Place.fits_inStatement).bind fun _ => gives ()

/-! ## Expressions and assignments -/

section Statements

variable (reads : track.ReadsStrings)
include reads

/-- An expression in a statement outside of brackets. -/
theorem keeps_expression {follow : Follow} (fits : follow.place.Fits depth) :
    track.Keeps depth (expression .inStatement follow) :=
  nests_expression reads _ _ _ Place.fits_inStatement fits

theorem keeps_sides (stops : List String) :
    track.Keeps depth (expressions expression .inStatement lineFollow stops) :=
  keeps_expressions (nests_expression reads) Place.fits_inStatement Place.fits_statementEnd stops

theorem keeps_sideItems : track.Keeps depth (sideItems .inStatement) := by
  refine keeps_peek Place.fits_inStatement fun _ seen => leads_ite (fun word => ?_) fun _ =>
    keeps_sides reads _
  exact (pass_isWord seen word).bind fun _ =>
    (keeps_yieldTail (nests_expression reads) Place.fits_statementEnd).bind fun _ => keeps_pure

theorem keeps_typed (allowed : 0 < depth ∨ track.colons) {place : Place} (fits : place.Fits depth) :
    track.Keeps depth (typeExpression expression true place .statementEnd) :=
  keeps_typeExpression (nests_expression reads) fits Place.fits_statementEnd fun _ => allowed

theorem keeps_assignmentSide (allowed : 0 < depth ∨ track.colons) (state : AssignmentState) :
    track.Keeps depth (assignmentSide state) := by
  refine keeps_ite keeps_pure ((keeps_sideItems reads).bind fun items => ?_)
  refine keeps_peek Place.fits_statementEnd fun ahead seen => leads_ite (fun equals => ?_) fun _ =>
    leads_ite (fun colon => ?_) fun _ => keeps_pure
  · have listed : ("=" :: augmentedMarks).any ahead.isMark = true := equals
    exact leads_unless ((pass_flat_of_any seen listed rfl).bind fun _ => keeps_pure)
  · refine leads_unless ((pass_colon seen colon allowed).bind fun _ => ?_)
    refine (keeps_typed reads allowed Place.fits_inStatement).bind fun _ => ?_
    exact (try_flat Place.fits_statementEnd rfl).bind fun _ => keeps_ite keeps_pure keeps_pure

theorem givesLine_expressionStatement (allowed : 0 < depth ∨ track.colons) (row : Nat) :
    track.GivesLine depth row (expressionStatement row) := by
  refine (keeps_iterate (keeps_assignmentSide reads allowed)).bind fun state => givesLine_pure ?_
  split
  · exact ⟨rfl, rfl⟩
  · exact ⟨rfl, rfl⟩

/-! ## Statements with a keyword -/

theorem keeps_optionalExpressions : track.Keeps depth optionalExpressions :=
  keeps_peek Place.fits_statementEnd fun _ _ => keeps_ite keeps_pure
    ((keeps_sides reads _).bind fun _ => keeps_pure)

theorem keeps_raiseTail : track.Keeps depth raiseTail := by
  refine keeps_peek Place.fits_statementEnd fun _ _ => ?_
  extract_lets cause
  have keeps (items : List Expression) : track.Keeps depth (cause items) := by
    refine keeps_peek Place.fits_statementEnd fun _ seen => leads_ite (fun word => ?_) fun _ =>
      keeps_pure
    exact (pass_isWord seen word).bind fun _ =>
      (keeps_expression reads Place.fits_statementEnd).bind fun _ => keeps_pure
  refine keeps_ite (keeps_pure.bind keeps) ?_
  exact (keeps_sides reads _).bind fun _ => keeps_pure.bind keeps

theorem givesLine_printTail (row : Nat) : track.GivesLine depth row (printTail row) := by
  refine leads_peek_seen Place.fits_inStatement fun _ seen => leads_ite (fun shift => ?_) fun _ => ?_
  · refine (pass_flat seen shift rfl).bind fun _ =>
      (keeps_expression reads Place.fits_statementEnd).bind fun _ => ?_
    exact (keeps_moreExpressions (nests_expression reads) Place.fits_statementEnd _ _).bind fun _ =>
      givesLine_pure ⟨rfl, rfl⟩
  · exact (keeps_sides reads _).bind fun _ => givesLine_pure ⟨rfl, rfl⟩

theorem givesLine_execTail (row : Nat) : track.GivesLine depth row (execTail row) := by
  refine leads_peek_seen Place.fits_inStatement fun ahead seen => ?_
  extract_lets scopes
  have gives (code : Expression) : track.GivesLine depth row (scopes code) := by
    refine leads_peek_seen Place.fits_statementEnd fun _ seen => leads_ite (fun word => ?_) fun _ =>
      givesLine_pure ⟨rfl, rfl⟩
    exact (pass_isWord seen word).bind fun _ =>
      (keeps_strictExpressions (nests_expression reads) Place.fits_statementEnd).bind fun _ =>
        givesLine_pure ⟨rfl, rfl⟩
  split
  · rename_i form opened
    exact keeps_literal (strings_expression reads) seen opened gives
  · rename_i text word
    refine leads_unless ?_
    exact (pass_word seen word).bind fun _ => keeps_pure.bind gives
  · exact keeps_failure.bind gives

theorem givesLine_typeAliasTail (allowed : 0 < depth ∨ track.colons) (row : Nat) :
    track.GivesLine depth row (typeAliasTail row) :=
  (keeps_typed reads allowed Place.fits_statementEnd).bind fun _ =>
    (expect_flat Place.fits_statementEnd rfl).bind fun _ =>
      (keeps_typed reads allowed Place.fits_inStatement).bind fun _ =>
        givesLine_pure ⟨rfl, rfl⟩

/-- **A statement without a block is read along a track.** Outside of brackets its first lexeme must
not stand behind a line break. -/
theorem leads_simpleStatement (allowed : 0 < depth ∨ track.colons) (row : Nat) :
    Leads (fun cursor => track.On depth cursor ∧
        (0 < depth ∨ cursor.lookahead.1.columns = []) ∧ cursor.lookahead.1.row = row)
      simpleStatement fun statement cursor => statement.IsLine row ∧ track.On depth cursor := by
  have line (row : Nat) {reader : Reader (List Expression)} (keeps : track.Keeps depth reader) :
      track.GivesLine depth row (reader >>= fun items => pure (.simple row items)) :=
    keeps.bind fun items => givesLine_pure ⟨rfl, rfl⟩
  refine leads_peek.bind fun ahead cursor statement next given read => ?_
  obtain ⟨⟨here, beside, rfl⟩, found⟩ := given
  obtain rfl : cursor.lookahead.1 = ahead := Option.some.inj found
  have seen : track.Sees depth cursor.lookahead.1 := by
    rcases beside with inside | close
    · exact ⟨cursor, .inBrackets, here, fun _ => inside, found⟩
    · refine ⟨cursor, .statementEnd, here, Place.fits_statementEnd, ?_⟩
      simp [Cursor.peek?, close]
  refine (?_ : track.GivesLine depth cursor.lookahead.1.row _) cursor statement next here read
  have expressions : track.GivesLine depth cursor.lookahead.1.row (expressionStatement _) :=
    givesLine_expressionStatement reads allowed _
  dsimp only
  split
  · exact expressions
  rename_i word found
  have passed := pass_word seen (Lookahead.lexeme_of_word? found)
  refine leads_ite (fun _ => ?_) fun _ => ?_
  · exact passed.bind fun _ => givesLine_pure ⟨rfl, rfl⟩
  refine leads_ite (fun _ => ?_) fun _ => ?_
  · exact passed.bind fun _ => line _ (keeps_optionalExpressions reads)
  refine leads_ite (fun _ => ?_) fun _ => ?_
  · exact passed.bind fun _ => (keeps_sides reads _).bind fun _ => givesLine_pure ⟨rfl, rfl⟩
  refine leads_ite (fun _ => ?_) fun _ => ?_
  · exact passed.bind fun _ => line _ (keeps_raiseTail reads)
  refine leads_ite (fun _ => ?_) fun _ => ?_
  · exact passed.bind fun _ => line _
      (keeps_strictExpressions (nests_expression reads) Place.fits_statementEnd)
  refine leads_ite (fun _ => ?_) fun _ => ?_
  · exact passed.bind fun _ => keeps_nameList.bind fun _ => givesLine_pure ⟨rfl, rfl⟩
  refine leads_ite (fun _ => ?_) fun _ => ?_
  · exact passed.bind fun _ =>
      (keeps_importedNames _ Place.fits_inStatement Place.fits_statementEnd).bind fun _ =>
        givesLine_pure ⟨rfl, rfl⟩
  refine leads_ite (fun _ => ?_) fun _ => ?_
  · exact passed.bind fun _ => givesLine_fromImport _
  refine leads_ite (fun _ => leads_ite (fun _ => ?_) fun _ => .orElse ?_ ?_) fun _ => ?_
  · exact passed.bind fun _ => givesLine_printTail reads _
  · exact expressions.complete
  · exact passed.bind fun _ => givesLine_printTail reads _
  refine leads_ite (fun _ => .orElse ?_ expressions) fun _ => ?_
  · exact passed.bind fun _ => (givesLine_execTail reads _).complete
  refine leads_ite (fun _ => .orElse ?_ expressions) fun _ => expressions
  exact passed.bind fun _ => (givesLine_typeAliasTail reads allowed _).complete

/-! ## Lines of statements -/

/-- The statements of a line are read along a track, up to a line break. -/
theorem leads_simpleStatements (allowed : 0 < depth ∨ track.colons) :
    Leads (fun cursor => track.On depth cursor ∧ (0 < depth ∨ cursor.lookahead.1.columns = []))
      simpleStatements fun found cursor => track.On depth cursor ∧ cursor.IsBroken ∧
        ∀ statement ∈ found, statement.isSimple = true := by
  have one : Leads
      (fun cursor => track.On depth cursor ∧ (0 < depth ∨ cursor.lookahead.1.columns = []))
      simpleStatement fun statement cursor => track.On depth cursor ∧ statement.isSimple = true := by
    intro cursor statement next ⟨here, beside⟩ read
    obtain ⟨line, there⟩ := leads_simpleStatement reads allowed _ cursor statement next
      ⟨here, beside, rfl⟩ read
    exact ⟨there, line.isSimple⟩
  refine one.bind fun first => ((leads_iterate
    (fun state cursor => track.On depth cursor ∧ (state.2 = true → cursor.IsBroken) ∧
      ∀ statement ∈ state.1, statement.isSimple = true)
    (fun state cursor => track.On depth cursor ∧ cursor.IsBroken ∧
      ∀ statement ∈ state.1, statement.isSimple = true) fun state => ?_).weaken ?_).bind
        fun state => leads_pure fun _ found => found
  · obtain ⟨statements, done⟩ := state
    refine leads_from fun cursor ⟨here, ended, simple⟩ => ?_
    refine leads_ite (fun finished => leads_pure_from ⟨here, ended finished, simple⟩) fun _ => ?_
    refine leads_peek_from fun ahead seen => leads_ite (fun lineBreak => leads_pure_from ?_) fun _ => ?_
    · exact ⟨here, fun _ => Cursor.isBroken_of_peek? seen lineBreak, simple⟩
    refine leads_ite (fun semicolon => leads_pass_from ?_) fun _ => leads_failure
    have passed : track.On depth ahead.after :=
      track.passes ⟨cursor, .statementEnd, here, Place.fits_statementEnd, seen⟩
        (Lookahead.moves_flat semicolon rfl depth)
    refine leads_peek_from fun next seen' => leads_ite (fun lineBreak => leads_pure_from ?_)
      fun unbroken => ?_
    · exact ⟨passed, fun _ => Cursor.isBroken_of_peek? seen' lineBreak, simple⟩
    have beside : ahead.after.lookahead.1.columns = [] := by
      by_contra broken
      refine unbroken ?_
      obtain rfl := Option.some.inj ((Cursor.peek?_statementEnd_of_isBroken broken).symm.trans seen')
      rfl
    refine (one.from ⟨passed, .inr beside⟩).bind fun statement => leads_pure ?_
    refine fun _ ⟨there, simple'⟩ => ⟨there, nofun, fun other listed => ?_⟩
    rcases List.mem_append.mp listed with before | last
    · exact simple other before
    · exact List.mem_singleton.mp last ▸ simple'
  · rintro cursor ⟨here, simple⟩
    exact ⟨here, nofun, fun other listed => List.mem_singleton.mp listed ▸ simple⟩

/-! ## Patterns -/

theorem keeps_patternOfDepth {bound depth : Nat} {place follow : Place} (fits : place.Fits depth)
    (fits' : follow.Fits depth) : track.Keeps depth (patternOfDepth bound place follow) := by
  induction bound generalizing depth place follow with
  | zero => exact keeps_failure
  | succ bound ih =>
    unfold patternOfDepth
    extract_lets inside nested splat simple more
    have names {closing : String} (closes : closingMarks.contains closing = true)
        {part : Reader (List String)} (keeps : track.Keeps (depth + 1) part) :
        track.Closes depth (inside closing part) := by
      refine Leads.bind ((leads_iterate
        (fun state cursor => if state.2.2 then track.On depth cursor else track.On (depth + 1) cursor)
        (fun _ => track.On depth) fun state => ?_).weaken fun _ here => here) fun _ => keeps_pure
      obtain ⟨found, first, done⟩ := state
      cases done with
      | true => exact leads_pure fun _ here => here
      | false =>
        refine leads_peek_seen Place.fits_succ fun _ seen => leads_ite (fun closing => ?_) fun _ =>
          leads_ite (fun _ => ?_) fun _ => leads_ite (fun comma => ?_) fun _ => leads_failure
        · exact (pass_closing seen closing closes).bind fun _ => leads_pure fun _ here => here
        · exact keeps.bind fun _ => leads_pure fun _ here => here
        · refine (pass_flat seen comma rfl).bind fun _ => leads_peek_seen Place.fits_succ fun _ _ =>
            leads_ite (fun _ => leads_pure fun _ here => here) fun _ => ?_
          exact keeps.bind fun _ => leads_pure fun _ here => here
    have inner {place follow : Place} :
        track.Keeps (depth + 1) (patternOfDepth bound place follow) :=
      ih Place.fits_succ Place.fits_succ
    have star (depth : Nat) : track.Keeps depth splat :=
      (keeps_anyWord Place.fits_inStatement).bind fun _ => keeps_pure
    have keeps {place : Place} (fits : place.Fits depth) : track.Keeps depth (simple place) := by
      refine keeps_peek fits fun ahead seen => ?_
      split
      · rename_i text word
        refine keeps_ite ((pass_word seen word).bind fun _ => keeps_pure) ?_
        refine (keeps_dottedName fits fits').bind fun _ =>
          (leads_tryMark fits' (.opening rfl depth)).bind fun found => ?_
        cases found with
        | true => exact (names rfl inner).bind fun _ => keeps_pure
        | false => exact keeps_pure
      · rename_i form opened
        refine keeps_literal (strings_expression reads) seen opened fun _ =>
          (keeps_moreStrings (strings_expression reads) fits' _).bind fun _ => ?_
        split
        · exact keeps_pure
        · exact keeps_pure
      · rename_i mark
        exact (leads_pass seen (mark ▸ .flat rfl depth)).bind fun _ => star depth
      · rename_i mark
        exact (leads_pass seen (mark ▸ .flat rfl depth)).bind fun _ => star depth
      · rename_i mark
        exact (leads_pass seen (mark ▸ .opening rfl depth)).bind fun _ => names rfl inner
      · rename_i mark
        exact (leads_pass seen (mark ▸ .opening rfl depth)).bind fun _ => names rfl inner
      · rename_i mark
        refine (leads_pass seen (mark ▸ .opening rfl depth)).bind fun _ => names rfl
          (keeps_peek Place.fits_succ fun ahead seen => leads_ite (fun stars => ?_) fun _ => ?_)
        · have listed : ["**", "*"].any ahead.isMark = true := by simpa using stars
          exact (pass_flat_of_any seen listed rfl).bind fun _ => star _
        · refine inner.bind fun _ => Leads.bind ?_ fun _ => inner.bind fun _ => keeps_pure
          exact leads_expectMark Place.fits_succ (.colon (.inl (Nat.succ_pos _)))
      · refine (try_flat fits rfl).bind fun _ => keeps_peek fits fun ahead seen => ?_
        split
        · rename_i number
          refine (leads_pass seen (number ▸ .number depth)).bind fun _ => keeps_peek fits'
            fun ahead seen => leads_ite (fun sign => ?_) fun _ => keeps_pure
          have listed : ["+", "-"].any ahead.isMark = true := by simpa using sign
          refine (pass_flat_of_any seen listed rfl).bind fun _ =>
            keeps_peek Place.fits_inStatement fun imaginary seen => ?_
          split
          · rename_i number
            exact (leads_pass seen (number ▸ .number depth)).bind fun _ => keeps_pure
          · exact keeps_failure
        · exact keeps_failure
    have goes (first : List String) : track.Keeps depth (more first) := by
      refine keeps_iterate fun _ => keeps_peek fits' fun _ seen => leads_ite (fun bar => ?_) fun _ =>
        leads_ite (fun word => ?_) fun _ => keeps_pure
      · exact (pass_flat seen bar rfl).bind fun _ => (keeps Place.fits_inStatement).bind fun _ =>
          keeps_pure
      · exact (pass_isWord seen word).bind fun _ => (keeps_anyWord Place.fits_inStatement).bind fun _ =>
          keeps_pure
    refine keeps_peek fits fun ahead seen => keeps_ite ?_ ((keeps fits).bind goes)
    exact (keeps_anyWord fits).bind fun _ => (expect_flat fits' rfl).bind fun _ =>
      (keeps Place.fits_inStatement).bind fun _ => keeps_pure.bind goes

theorem keeps_pattern {place follow : Place} (fits : place.Fits depth) (fits' : follow.Fits depth) :
    track.Keeps depth (pattern place follow) :=
  leads_get fun _ => keeps_patternOfDepth reads fits fits'

end Statements

end Track

/-! ## Along a text -/

namespace Reader

variable {text : List Char}

/-- What is kept to along all tracks stays in the text. -/
theorem stays_of_keeps {α : Type} {reader : Reader α}
    (keeps : ∀ track : Track, track.ReadsStrings → track.Keeps 1 reader) : Stays text reader :=
  keeps (.along text) Track.readsStrings_along

theorem stays_nameList : Stays text nameList := stays_of_keeps fun _ _ => Track.keeps_nameList

theorem stays_dottedName (place follow : Place) : Stays text (dottedName place follow) :=
  stays_of_keeps fun _ _ => Track.keeps_dottedName Place.fits_succ Place.fits_succ

theorem stays_importedNames (binds : List String → String) (place follow : Place) :
    Stays text (importedNames binds place follow) :=
  stays_of_keeps fun _ _ => Track.keeps_importedNames binds Place.fits_succ Place.fits_succ

theorem stays_leadingDots : Stays text leadingDots := stays_of_keeps fun _ _ => Track.keeps_leadingDots

theorem stays_pattern (place follow : Place) : Stays text (pattern place follow) :=
  stays_of_keeps fun _ reads => Track.keeps_pattern reads Place.fits_succ Place.fits_succ

end Reader

end StrategyMend.Python
