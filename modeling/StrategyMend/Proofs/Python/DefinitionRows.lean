import StrategyMend.Proofs.Python.StatementRows

/-!
# Rows of definitions

Every function and every class begins on a line of its own, and the definitions of a source follow one
another down its lines (`Module.placed_of_read`). A statement ends at a line break, so what is read
behind it stands further down, and a definition that is read inside another stands below its header. One
reader of statements after the other is shown to give statements whose definitions come down from the
line behind the cursor (`Laid`). The names that the statements read stand on lines of the source as well.

A reader of expressions never goes back to a row above. That need not be shown for one after the other:
a reader that stays in whatever text its cursor is part of can only go on (`Reader.row_le_of_stays`).
-/

set_option autoImplicit false

namespace StrategyMend.Python

variable {text : List Char} {low row : Nat} {cursor : Cursor}

/-! ## Rows of cursors -/

namespace Cursor

/-- The line behind that of the cursor is `low` or one further down. -/
def Nears (text : List Char) (low : Nat) (cursor : Cursor) : Prop :=
  cursor.IsAt text ∧ low ≤ cursor.row + 1

/-- What comes next stands on the line `low` or further down. -/
structure Awaits (text : List Char) (low : Nat) (cursor : Cursor) : Prop where
  nears : cursor.Nears text low
  le : cursor.lookahead.2 ≠ [] → low ≤ cursor.lookahead.1.row

theorem row_le_lookahead (cursor : Cursor) : cursor.row ≤ cursor.lookahead.1.row := by
  obtain ⟨skipped, -, row, -⟩ :=
    Gap.begins_scan false ⟨[], 0, false, false, cursor.row⟩ cursor.rest
  exact Nat.le.intro row.symm

/-- Behind a line break the text goes on further down. -/
theorem IsBroken.row_lt (broken : cursor.IsBroken) (present : cursor.lookahead.2 ≠ []) :
    cursor.row < cursor.lookahead.1.row := by
  obtain ⟨skipped, -, row, -, covers⟩ :=
    Gap.begins_scan false ⟨[], 0, false, false, cursor.row⟩ cursor.rest
  change cursor.lookahead.1.row = cursor.row + skipped.count '\n' at row
  cases covers with
  | finish _ ended => exact absurd ended present
  | broken above _ =>
    rw [row, List.count_append, List.count_cons_self]
    omega
  | unbroken _ _ quiet =>
    rcases quiet broken with columns | breaks
    · exact absurd rfl columns
    · cases breaks

theorem row_le_of_word {place : Place} {ahead : Lookahead} {word : String}
    (seen : cursor.peek? place = some ahead) (read : ahead.lexeme = .word word) :
    cursor.row ≤ ahead.row := by
  rcases peek?_cases seen with rfl | ⟨lineBreak, -, -⟩
  · exact row_le_lookahead cursor
  · rw [lineBreak] at read
    cases read

/-- Where the text has ended, nothing comes next. -/
theorem rest_ne_nil_of_peek? {ahead : Lookahead} (seen : cursor.peek? .inBrackets = some ahead)
    (more : ahead.lexeme ≠ .finish) : cursor.rest ≠ [] := by
  intro ended
  obtain rfl : cursor.lookahead.1 = ahead := Option.some.inj seen
  refine more ?_
  rw [Cursor.lookahead, ended]
  rfl

theorem Ended.awaits (ended : cursor.Ended text) : cursor.Awaits text (cursor.row + 1) :=
  ⟨⟨ended.isAt, Nat.le_refl _⟩, ended.broken.row_lt⟩

end Cursor

/-- What comes behind a word is on its line or further down. -/
theorem Lookahead.Shows.nears_of_word {ahead : Lookahead} (shows : ahead.Shows text) {word : String}
    (read : ahead.lexeme = .word word) : ahead.after.Nears text (ahead.row + 1) :=
  ⟨shows.isAt, (congrArg Nat.succ (shows.row_after word read)).ge⟩

namespace Reader

variable {α β : Type} {reader : Reader α} {after : β → Cursor → Prop}

/-- **A reader that stays in every text never goes back.** It cannot see the characters in front of its
cursor, so it cannot give them back. -/
theorem row_le_of_stays (stays : ∀ text, Stays text reader) {result : α} {next : Cursor}
    (read : reader cursor = some (result, next)) : cursor.row ≤ next.row := by
  -- Whatever character stands in front of the cursor: if the reader goes back, it gives it back.
  have front (c : Char) (plain : c ≠ '\n') :
      cursor.row ≤ next.row ∨ ∃ more, next.rest = more ++ c :: cursor.rest := by
    have here : cursor.IsAt (List.replicate cursor.row '\n' ++ [c] ++ cursor.rest) :=
      ⟨_, rfl, by simp [plain]⟩
    obtain ⟨past, same, rows⟩ := stays _ cursor result next here read
    rcases List.append_eq_append_iff.mp same with ⟨between, split, -⟩ | ⟨between, split, rest⟩
    · left
      rw [← rows, split]
      simp [List.count_append]
    · rcases List.eq_nil_or_concat between with rfl | ⟨more, d, rfl⟩
      · left
        rw [List.append_nil] at split
        rw [← rows, ← split]
        simp
      · right
        rw [List.concat_eq_append, ← List.append_assoc] at split
        obtain ⟨-, same⟩ := List.append_inj' split rfl
        cases same
        exact ⟨more, by rw [rest]; simp⟩
  rcases front 'x' (by decide) with le | ⟨more, rest⟩
  · exact le
  · rcases front 'y' (by decide) with le | ⟨more', rest'⟩
    · exact le
    · rw [rest] at rest'
      obtain ⟨-, same⟩ := List.append_inj' rest' rfl
      cases same

/-! ## Rules -/

section Rules

variable {next : α → Reader β}

theorem leads_by (stays : ∀ text, Stays text reader)
    (leads : ∀ result, Leads (Cursor.Nears text low) (next result) after) :
    Leads (Cursor.Nears text low) (reader >>= next) after := by
  refine Leads.bind (fun cursor result next here read => ?_) leads
  exact ⟨stays text cursor result next here.1 read,
    here.2.trans (Nat.succ_le_succ (row_le_of_stays stays read))⟩

/-- What a reader tells about its result holds of it wherever its cursor is in the text. -/
theorem leads_near {holds : List Char → α → Prop} (tells : ∀ text, Tells text reader (holds text)) :
    Leads (Cursor.Nears text low) reader fun result cursor =>
      holds text result ∧ cursor.Nears text low := by
  intro cursor result next here read
  obtain ⟨given, there⟩ := tells text cursor result next here.1 read
  exact ⟨given, there, here.2.trans
    (Nat.succ_le_succ (row_le_of_stays (fun text => (tells text).stays) read))⟩

theorem leads_on {holds : List Char → α → Prop} (tells : ∀ text, Tells text reader (holds text))
    (leads : ∀ result, holds text result → Leads (Cursor.Nears text low) (next result) after) :
    Leads (Cursor.Nears text low) (reader >>= next) after :=
  (leads_near tells).bind fun result cursor given last here =>
    leads result here.1 cursor given last here.2

/-- A lexeme is passed to a cursor that is not further up. -/
theorem nears_peek? (nears : cursor.Nears text low) {place : Place} {ahead : Lookahead}
    (seen : cursor.peek? place = some ahead) : ahead.after.Nears text low := by
  refine ⟨(nears.1.peek? seen).isAt, nears.2.trans (Nat.succ_le_succ ?_)⟩
  rcases Cursor.peek?_cases seen with rfl | ⟨-, same, -⟩
  · exact Cursor.row_le_lookahead cursor
  · rw [same]

theorem leads_peek_near {place : Place} {next : Lookahead → Reader β}
    (leads : ∀ ahead, ahead.Shows text → ahead.after.Nears text low →
      Leads (Cursor.Nears text low) (next ahead) after) :
    Leads (Cursor.Nears text low) (peek place >>= next) after := by
  refine leads_peek.bind fun ahead => leads_from fun cursor ⟨here, seen⟩ => ?_
  exact (leads ahead (here.1.peek?_shows seen) (nears_peek? here seen)).from here

theorem pass_near {ahead : Lookahead} {next : Unit → Reader β} {before : Cursor → Prop}
    (near : ahead.after.Nears text low) (leads : Leads (Cursor.Nears text low) (next ()) after) :
    Leads before (pass ahead >>= next) after :=
  leads_set (leads.from near)

end Rules

end Reader

/-! ## Statements further down -/

/-- The names and the definitions stand on lines of the text, each definition below those before. -/
structure Placed (text : List Char) (statements : List Statement) : Prop where
  names : NamesOnLines text statements
  sorted : (definitionRowsIn statements).Pairwise (· < ·)
  isRow : ∀ row ∈ definitionRowsIn statements, IsRow text row

/-- Statements that have been read up to the cursor. Their definitions come down from the line `low` to
that of the cursor. -/
structure Laid (text : List Char) (low : Nat) (statements : List Statement) (cursor : Cursor) : Prop
    extends Placed text statements where
  within : ∀ row ∈ definitionRowsIn statements, low ≤ row ∧ row ≤ cursor.row
  ended : cursor.Ended text
  le : low ≤ cursor.row + 1

section Laid

variable {first second body : List Statement} {next : Cursor}

/-- Statements without definitions. -/
theorem laid_plain (names : NamesOnLines text body) (empty : definitionRowsIn body = [])
    (ended : cursor.Ended text) (le : low ≤ cursor.row + 1) : Laid text low body cursor where
  names := names
  sorted := by
    rw [empty]
    exact .nil
  within := by
    rw [empty]
    nofun
  isRow := by
    rw [empty]
    nofun
  ended := ended
  le := le

theorem laid_nil (ended : cursor.Ended text) (le : low ≤ cursor.row + 1) :
    Laid text low [] cursor :=
  laid_plain namesOnLines_nil rfl ended le

/-- Statements behind others are further down. -/
theorem Laid.append (laid : Laid text low first cursor)
    (below : Laid text (cursor.row + 1) second next) : Laid text low (first ++ second) next where
  names := laid.names.append below.names
  sorted := by
    rw [definitionRowsIn_append]
    refine List.pairwise_append.mpr ⟨laid.sorted, below.sorted, fun row here row' there => ?_⟩
    exact Nat.lt_of_le_of_lt (laid.within row here).2 (below.within row' there).1
  within := by
    have down := below.le
    have le := laid.le
    intro row member
    rw [definitionRowsIn_append] at member
    rcases List.mem_append.mp member with here | there
    · have := laid.within row here
      omega
    · have := below.within row there
      omega
  isRow := by
    rw [definitionRowsIn_append]
    exact List.forall_mem_append.mpr ⟨laid.isRow, below.isRow⟩
  ended := below.ended
  le := by
    have down := below.le
    have le := laid.le
    omega

theorem Laid.mono (laid : Laid text low first cursor) {upper : Nat} (le : upper ≤ low) :
    Laid text upper first cursor :=
  { laid with
    within := fun row member => ⟨le.trans (laid.within row member).1, (laid.within row member).2⟩
    le := le.trans laid.le }

/-- A statement that only has the definitions of its body. -/
theorem Laid.statement (laid : Laid text low body cursor) {statement : Statement}
    (names : NamesOnLines text [statement]) (same : statement.definitionRows = definitionRowsIn body) :
    Laid text low [statement] cursor := by
  rw [← definitionRowsIn_singleton] at same
  exact ⟨⟨names, same ▸ laid.sorted, same ▸ laid.isRow⟩, same ▸ laid.within, laid.ended, laid.le⟩

/-- A definition above its body. -/
theorem Laid.definition (laid : Laid text (row + 1) body cursor) (isRow : IsRow text row)
    {statement : Statement} (names : NamesOnLines text [statement])
    (same : statement.definitionRows = row :: definitionRowsIn body) :
    Laid text row [statement] cursor := by
  have down := laid.le
  rw [← definitionRowsIn_singleton] at same
  refine ⟨⟨names, ?_, ?_⟩, ?_, laid.ended, by omega⟩
  · rw [same]
    exact List.pairwise_cons.mpr ⟨fun row' member => (laid.within row' member).1, laid.sorted⟩
  · rw [same]
    exact List.forall_mem_cons.mpr ⟨isRow, laid.isRow⟩
  · rw [same]
    refine List.forall_mem_cons.mpr ⟨by omega, fun row' member => ?_⟩
    have := laid.within row' member
    omega

end Laid

namespace Reader

theorem leads_laidStatements : Leads (Cursor.Nears text low) simpleStatements (Laid text low) := by
  refine (leads_near fun _ => tells_simpleStatement).bind fun first => ?_
  refine ((leads_iterate
    (fun state cursor => NamesOnLines text state.1 ∧ definitionRowsIn state.1 = [] ∧
      cursor.Nears text low ∧ (state.2 = true → cursor.IsBroken))
    (fun state => Laid text low state.1) fun state => ?_).weaken ?_).bind
      fun state => leads_pure fun _ laid => laid
  · obtain ⟨statements, done⟩ := state
    refine leads_from fun cursor ⟨names, empty, near, ended⟩ => ?_
    refine leads_ite (fun finished => leads_pure_from ?_) fun _ => ?_
    · exact laid_plain names empty ⟨near.1, ended finished⟩ near.2
    refine leads_peek_from fun ahead seen => leads_ite (fun lineBreak => leads_pure_from ?_) fun _ => ?_
    · exact ⟨names, empty, near, fun _ => Cursor.isBroken_of_peek? seen lineBreak⟩
    refine leads_ite (fun _ => leads_pass_from ?_) fun _ => leads_failure
    have near' := nears_peek? near seen
    refine leads_peek_from fun next seen' => leads_ite (fun lineBreak => leads_pure_from ?_) fun _ => ?_
    · exact ⟨names, empty, near', fun _ => Cursor.isBroken_of_peek? seen' lineBreak⟩
    refine ((leads_near fun _ => tells_simpleStatement).from near').bind fun statement => ?_
    refine leads_pure fun _ ⟨plain, near⟩ => ⟨names.append plain.names, ?_, near, nofun⟩
    rw [definitionRowsIn_append, empty, definitionRowsIn_singleton, plain.rows]
    rfl
  · rintro cursor ⟨plain, near⟩
    exact ⟨plain.names, (definitionRowsIn_singleton first).trans plain.rows, near, nofun⟩

/-! ## Blocks -/

theorem leads_laidBlock {part : Lookahead → Reader (List Statement)}
    (parts : ∀ ahead cursor, cursor.Ended text → cursor.peek? .inBrackets = some ahead →
      Leads (· = cursor) (part ahead) (Laid text (cursor.row + 1))) (column : Nat) :
    Leads (fun cursor => cursor.Ended text ∧ low ≤ cursor.row + 1) (indented column part)
      (Laid text low) := by
  have opens : Leads (fun cursor : Cursor => cursor.Ended text ∧ low ≤ cursor.row + 1)
      (modify fun cursor => { cursor with blocks := column :: cursor.blocks })
      fun _ cursor => cursor.Ended text ∧ low ≤ cursor.row + 1 := by
    intro cursor result after here read
    cases read
    exact ⟨⟨here.1.isAt, here.1.broken⟩, here.2⟩
  have closes (statements : List Statement) : Leads (Laid text low statements)
      (modify fun cursor => { cursor with blocks := cursor.blocks.tail })
      fun _ => Laid text low statements := by
    intro cursor result after laid read
    cases read
    exact { laid with within := laid.within, ended := ⟨laid.ended.isAt, laid.ended.broken⟩ }
  refine opens.bind fun _ => ((leads_iterate (Laid text low) (Laid text low)
    fun statements => ?_).weaken fun _ here => laid_nil here.1 here.2).bind
      fun statements => (closes statements).bind fun _ => leads_pure fun _ laid => laid
  refine leads_from fun cursor laid => leads_peekStatement_from fun found seen => ?_
  split
  · exact (parts _ cursor laid.ended seen.peek?).bind fun found =>
      leads_pure fun _ below => laid.append below
  · exact leads_pure_from laid

/-- Where the next lexeme has a column, a line break stands before it. -/
theorem ended_of_column? (here : cursor.IsAt text) {ahead : Lookahead} {column : Nat}
    (seen : cursor.peek? .inBrackets = some ahead) (deeper : ahead.column? = some column) :
    cursor.Ended text := by
  refine ⟨here, fun none => ?_⟩
  obtain rfl : cursor.lookahead.1 = ahead := Option.some.inj seen
  rw [Lookahead.column?, none] at deeper
  cases deeper

section Blocks

variable {statement : Reader (List Statement)}
  (inner : ∀ low, Leads (Cursor.Awaits text low) statement (Laid text low))
include inner

theorem leads_laidSuite : Leads (Cursor.Nears text low) (suite statement) (Laid text low) := by
  refine leads_from fun cursor near => leads_get_from (leads_peek_from fun ahead seen => ?_)
  split
  · exact leads_laidStatements.from near
  · rename_i column deeper
    have ended := ended_of_column? near.1 seen deeper
    refine leads_ite (fun _ => ?_) fun _ => leads_pure_from (laid_nil ended near.2)
    exact (leads_laidBlock (fun _ _ ended _ => (inner _).from ended.awaits) column).from ⟨ended, near.2⟩

theorem leads_laidColonSuite :
    Leads (Cursor.Nears text low) (colonSuite statement) (Laid text low) :=
  leads_by (fun _ => stays_expectMark _ _) fun _ => leads_laidSuite inner

/-! ## Clauses -/

/-- The statement is read up to its end, and the definitions in it come down from the line `low`. -/
abbrev GivesLaid (text : List Char) (low : Nat) (reader : Reader Statement) : Prop :=
  Leads (Cursor.Nears text low) reader fun found cursor => Laid text low [found] cursor

omit inner in
/-- A statement whose blocks have been read. -/
theorem leads_laidStatement {body : List Statement} {kind : BlockKind} {head : List Expression}
    (lie : AllOnLines text head) :
    Leads (Laid text low body) (pure (.block row kind head body))
      fun found cursor => Laid text low [found] cursor :=
  leads_pure fun _ laid => laid.statement (namesOnLines_block lie laid.names) rfl

theorem givesLaid_clause (row : Nat) (kind : BlockKind) {head : Reader (List Expression)}
    (tells : ∀ text, Tells text head (AllOnLines text)) :
    GivesLaid text low (clause row kind head statement) :=
  leads_on tells fun _ lie => (leads_laidColonSuite inner).bind fun _ => leads_laidStatement lie

omit inner in
/-- One more clause behind statements that have been read. -/
theorem GivesLaid.behind {before : List Statement} {reader : Reader Statement}
    (gives : GivesLaid text (cursor.row + 1) reader) (laid : Laid text low before cursor) :
    Leads (Cursor.Nears text (cursor.row + 1)) reader
      fun found => Laid text low (before ++ [found]) :=
  gives.mono (fun _ near => near) fun _ _ below => laid.append below

theorem leads_laidOptionalClause (kind : BlockKind) (keyword : String) (before : List Statement) :
    Leads (Laid text low before) (optionalClause kind keyword statement)
      fun found => Laid text low (before ++ found) := by
  refine leads_from fun cursor laid => leads_peekStatement_from fun found seen => ?_
  have none : Leads (· = cursor) (pure []) fun found => Laid text low (before ++ found) :=
    leads_pure_from (by rwa [List.append_nil])
  split
  · have near := nears_peek? laid.ended.awaits.nears seen.peek?
    refine leads_ite (fun _ => leads_pass_from (Leads.from ?_ near)) fun _ => none
    exact ((givesLaid_clause inner _ kind fun _ => tells_pure allOnLines_nil).behind laid).bind
      fun _ => leads_pure fun _ laid => laid
  · exact none

/-- Clauses that follow one another. -/
theorem leads_laidElifClauses (before : List Statement) :
    Leads (Laid text low before) (elifClauses statement)
      fun found => Laid text low (before ++ found) := by
  refine (leads_iterate (fun clauses => Laid text low (before ++ clauses))
    (fun clauses => Laid text low (before ++ clauses)) fun clauses => ?_).weaken
      fun _ laid => by rwa [List.append_nil]
  refine leads_from fun cursor laid => leads_peekStatement_from fun found seen => ?_
  split
  · have near := nears_peek? laid.ended.awaits.nears seen.peek?
    refine leads_ite (fun _ => leads_pass_from (Leads.from ?_ near)) fun _ => leads_pure_from laid
    refine ((givesLaid_clause inner _ _ fun _ => tells_single (tells_expression _ _)).behind
      laid).bind fun _ => leads_pure fun _ laid => ?_
    rwa [List.append_assoc] at laid
  · exact leads_pure_from laid

/-! ## Statements with blocks -/

theorem givesLaid_ifTail (row : Nat) : GivesLaid text low (ifTail row statement) := by
  refine leads_on (fun _ => tells_expression _ _) fun _ lies => ?_
  refine (leads_laidColonSuite inner).bind fun body => ?_
  refine (leads_laidElifClauses inner body).bind fun elifs => ?_
  refine (leads_laidOptionalClause inner _ _ (body ++ elifs)).bind fun otherwise => ?_
  exact leads_laidStatement (by simpa using lies)

theorem givesLaid_whileTail (row : Nat) : GivesLaid text low (whileTail row statement) := by
  refine leads_on (fun _ => tells_expression _ _) fun _ lies => ?_
  refine (leads_laidColonSuite inner).bind fun body => ?_
  refine (leads_laidOptionalClause inner _ _ body).bind fun otherwise => ?_
  exact leads_laidStatement (by simpa using lies)

omit inner in
theorem tells_loopTargets : Tells text loopTargets (·.OnLines text) := by
  refine (tells_primary tells_expression _ _).then fun first lies => leads_unless ?_
  refine (tells_iterate (fun state => AllOnLines text state.1) (by simpa using lies)
    fun state here => ?_).then fun _ here => (stays_expectWord _ _).bind fun _ =>
      tells_pure (by simpa using here)
  refine tells_ite tells_none ((stays_tryMark _ _).bind fun _ => tells_ite ?_ tells_none)
  refine tells_peek fun _ _ => tells_ite (tells_some here) ?_
  exact (tells_primary tells_expression _ _).then fun _ lies => leads_unless
    (tells_some (by simp [here, lies]))

theorem givesLaid_forTail (row : Nat) : GivesLaid text low (forTail row statement) := by
  refine leads_on (fun _ => tells_loopTargets) fun _ target => ?_
  refine leads_on (fun _ => tells_expressions tells_expression _ _ _) fun _ lie => ?_
  refine (leads_laidColonSuite inner).bind fun body => ?_
  refine (leads_laidOptionalClause inner _ _ body).bind fun otherwise => ?_
  exact leads_laidStatement (by simp [target, lie])

theorem givesLaid_withTail (row : Nat) : GivesLaid text low (withTail row statement) :=
  leads_on (fun _ => tells_expressions tells_expression _ _ _) fun _ lie =>
    (leads_laidColonSuite inner).bind fun _ => leads_laidStatement lie

omit inner in
theorem tells_exceptHead : Tells text exceptHead (AllOnLines text) := by
  refine tells_peek fun _ _ => tells_ite (tells_pure allOnLines_nil) ?_
  refine (tells_expression _ _).then fun _ value => ?_
  refine (stays_tryMark _ _).bind fun _ => tells_ite ?_ (tells_pure (by simpa using value))
  exact (tells_expression _ _).then fun _ target => tells_pure (by simp [value, target])

omit inner in
/-- A character is passed to a cursor on the same line. -/
theorem leads_advance_near {c : Char} (plain : c ≠ '\n') :
    Leads (fun cursor => cursor.Nears text low ∧ cursor.rest.head? = some c) (advance 1)
      fun _ => Cursor.Nears text low := by
  rintro cursor result next ⟨near, head⟩ read
  have there := leads_advance_one plain head cursor result next ⟨near.1, rfl⟩ read
  cases read
  exact ⟨there, near.2⟩

theorem givesLaid_tryTail (row : Nat) : GivesLaid text low (tryTail row statement) := by
  refine (leads_laidColonSuite inner).bind fun body => ?_
  refine ((leads_iterate (fun handlers => Laid text low (body ++ handlers))
    (fun handlers => Laid text low (body ++ handlers)) fun handlers => ?_).weaken
      fun _ laid => by rwa [List.append_nil]).bind fun handlers => ?_
  · refine leads_from fun cursor laid => leads_peekStatement_from fun found seen => ?_
    have extended (found : Statement) (next : Cursor)
        (laid : Laid text low (body ++ handlers ++ [found]) next) :
        Laid text low (body ++ (handlers ++ [found])) next := by
      rwa [List.append_assoc] at laid
    split
    · have near := nears_peek? laid.ended.awaits.nears seen.peek?
      refine leads_ite (fun _ => leads_pass_from ?_) fun _ => leads_pure_from laid
      refine leads_ite (fun star => ?_) fun _ => ?_
      · refine ((leads_advance_near (by decide)).from ⟨near, star⟩).bind fun _ => ?_
        exact ((givesLaid_clause inner _ _ fun _ => tells_single (tells_expression _ _)).behind
          laid).bind fun _ => leads_pure (extended _)
      · exact (((givesLaid_clause inner _ _ fun _ => tells_exceptHead).behind laid).from near).bind
          fun _ => leads_pure (extended _)
    · exact leads_pure_from laid
  · extract_lets ending
    have ends (otherwise : List Statement) :
        Leads (Laid text low (body ++ handlers ++ otherwise)) (ending otherwise)
          fun found cursor => Laid text low [found] cursor := by
      refine (leads_laidOptionalClause inner _ _ _).bind fun last => leads_unless ?_
      exact leads_laidStatement allOnLines_nil
    refine leads_ite (fun _ => ?_) fun _ => ?_
    · exact (ends []).weaken fun _ laid => by rwa [List.append_nil]
    · exact (leads_laidOptionalClause inner _ _ _).bind ends

theorem givesLaid_caseTail (row : Nat) : GivesLaid text low (caseTail row statement) := by
  refine leads_by (fun _ => stays_pattern _ _) fun first => ?_
  refine leads_by (fun _ => stays_iterate fun state => ?_) fun names => ?_
  · refine stays_ite stays_pure ((stays_tryMark _ _).bind fun _ => stays_ite ?_ stays_pure)
    refine stays_peek fun _ _ => stays_ite stays_pure ?_
    exact (stays_pattern _ _).bind fun _ => stays_pure
  · refine leads_peek_near fun _ _ near => ?_
    extract_lets body
    have bodies (guard : List Expression) (lie : AllOnLines text guard) :
        GivesLaid text low (body guard) :=
      (leads_laidColonSuite inner).bind fun _ => leads_laidStatement (by simpa using lie)
    refine leads_ite (fun _ => pass_near near ?_) fun _ => bodies [] allOnLines_nil
    exact leads_on (fun _ => tells_expression _ _) fun _ lies => bodies _ (by simpa using lies)

theorem givesLaid_matchTail (row : Nat) : GivesLaid text low (matchTail row statement) := by
  refine leads_on (fun _ => tells_expressions tells_expression _ _ _) fun subjects lie => ?_
  refine leads_by (fun _ => stays_expectMark _ _) fun _ => leads_from fun cursor near => ?_
  refine leads_get_from (leads_peek_from fun ahead seen => ?_)
  split
  · exact leads_failure
  · rename_i column deeper
    have ended := ended_of_column? near.1 seen deeper
    refine leads_ite (fun _ => ?_) fun _ =>
      (leads_laidStatement lie).from (laid_nil ended near.2)
    refine ((leads_laidBlock (fun ahead cursor ended seen => ?_) column).from ⟨ended, near.2⟩).bind
      fun cases => leads_laidStatement lie
    refine leads_ite (fun _ => leads_pass_from ?_) fun _ => leads_failure
    exact ((givesLaid_caseTail inner _).from (nears_peek? ended.awaits.nears seen)).bind fun _ =>
      leads_pure fun _ laid => laid

/-! ## Definitions -/

/-- A definition on a line of the text is read up to its end; what is in it stands further down. -/
abbrev GivesDefinition (text : List Char) (row : Nat) (reader : Reader Statement) : Prop :=
  Leads (Cursor.Nears text (row + 1)) reader fun found cursor => Laid text row [found] cursor

omit inner in
theorem GivesLaid.definition {reader : Reader Statement} (gives : GivesLaid text (row + 1) reader) :
    GivesDefinition text row reader :=
  gives.mono (fun _ near => near) fun _ _ laid => laid.mono (Nat.le_succ row)

theorem givesDefinition_functionTail (isRow : IsRow text row) :
    GivesDefinition text row (functionTail row statement) := by
  refine leads_by (fun _ => stays_anyWord _) fun name => ?_
  refine leads_by (fun _ => stays_optionalTypeParameters) fun types => ?_
  refine leads_by (fun _ => stays_expectMark _ _) fun _ => ?_
  refine leads_on (fun _ => tells_parameterList tells_expression _ _ _) fun parameters lie => ?_
  refine leads_by (fun _ => stays_expectMark _ _) fun _ => leads_by (fun _ => stays_tryMark _ _)
    fun arrow => ?_
  extract_lets body
  have bodies (returns : List Expression) (lie' : AllOnLines text returns) :
      GivesDefinition text row (body returns) :=
    (leads_laidColonSuite inner).bind fun _ => leads_pure fun _ laid =>
      laid.definition isRow (namesOnLines_function lie lie' laid.names) rfl
  refine leads_ite (fun _ => ?_) fun _ => bodies [] allOnLines_nil
  exact leads_on (fun _ => tells_typeExpression tells_expression _ _ _) fun _ lies =>
    bodies _ (by simpa using lies)

theorem givesDefinition_classTail (isRow : IsRow text row) :
    GivesDefinition text row (classTail row statement) := by
  refine leads_by (fun _ => stays_anyWord _) fun name => ?_
  refine leads_by (fun _ => stays_optionalTypeParameters) fun types => ?_
  refine leads_by (fun _ => stays_tryMark _ _) fun bracket => ?_
  extract_lets body
  have bodies (bases : List Expression) (lie : AllOnLines text bases) :
      GivesDefinition text row (body bases) :=
    (leads_laidColonSuite inner).bind fun _ => leads_pure fun _ laid =>
      laid.definition isRow (namesOnLines_classDef lie laid.names) rfl
  refine leads_ite (fun _ => ?_) fun _ => bodies [] allOnLines_nil
  exact leads_on (fun _ => tells_arguments tells_expression (tells_primary tells_expression) _) bodies

/-- Decorators may stand on the line of the definition, so the definition is only known to stand on the
line of the cursor or further down. -/
theorem givesLaid_decoratedDefinition (row : Nat) :
    Leads (Cursor.Nears text (low + 1)) (decoratedDefinition row statement)
      fun found cursor => Laid text low [found] cursor := by
  refine leads_on (fun text => tells_iterate (AllOnLines text) allOnLines_nil
    fun decorators here => ?_) fun decorators lie => ?_
  · refine tells_peek fun _ shows => tells_ite ?_ tells_none
    refine pass_shown shows ((tells_expression _ _).then fun _ lies => tells_peek fun _ _ => ?_)
    exact tells_ite (tells_some (by simp [here, lies])) tells_failure
  refine leads_from fun cursor near => leads_peek_from fun ahead seen => ?_
  have shows := near.1.peek?_shows seen
  have decorated {word : String} (found : ahead.word? = some word) {definition : Reader Statement}
      (gives : IsRow text ahead.row → GivesDefinition text ahead.row definition) :
      Leads (· = ahead.after) (definition >>= fun found => pure (.decorated row decorators found))
        fun found cursor => Laid text low [found] cursor := by
    have word := Lookahead.lexeme_of_word? found
    have down : low ≤ ahead.row :=
      (Nat.le_of_succ_le_succ near.2).trans (Cursor.row_le_of_word seen word)
    refine ((gives (shows.isRow _ word)).from (shows.nears_of_word word)).bind fun found =>
      leads_pure fun cursor laid => ?_
    exact (laid.mono down).statement (namesOnLines_decorated lie laid.names)
      (definitionRowsIn_singleton found).symm
  split
  · rename_i found
    exact leads_pass_from (decorated found (givesDefinition_classTail inner))
  · rename_i found
    exact leads_pass_from (decorated found (givesDefinition_functionTail inner))
  · rename_i found
    have asynchronous (isRow : IsRow text ahead.row) : GivesDefinition text ahead.row
        (expectWord .inStatement "def" >>= fun _ => functionTail ahead.row statement) :=
      leads_by (fun _ => stays_expectWord _ _) fun _ => givesDefinition_functionTail inner isRow
    exact leads_pass_from (by simpa only [bind_assoc] using decorated found asynchronous)
  · exact leads_failure

/-! ## Statements -/

theorem leads_laidAsyncTail (isRow : IsRow text row) :
    Leads (Cursor.Nears text (row + 1)) (asyncTail row statement) fun found cursor =>
      ∀ statement, found = some statement → Laid text row [statement] cursor := by
  have certain {reader : Reader Statement} (gives : GivesDefinition text row reader) :
      Leads (Cursor.Nears text (row + 1)) (reader >>= fun found => pure (some found))
        fun found cursor => ∀ statement, found = some statement → Laid text row [statement] cursor := by
    refine gives.bind fun found => leads_pure fun _ laid statement same => ?_
    cases same
    exact laid
  refine leads_peek_near fun _ _ near => ?_
  split
  · exact pass_near near (certain (givesDefinition_functionTail inner isRow))
  · exact pass_near near (certain (givesLaid_forTail inner row).definition)
  · exact pass_near near (certain (givesLaid_withTail inner row).definition)
  · exact leads_pure fun _ _ => nofun

theorem givesDefinition_compoundTail? {word : String}
    {tail : Nat → Reader (List Statement) → Reader Statement}
    (chosen : compoundTail? word = some tail) (isRow : IsRow text row) :
    GivesDefinition text row (tail row statement) := by
  unfold compoundTail? at chosen
  split at chosen
  · cases chosen
    exact (givesLaid_ifTail inner row).definition
  split at chosen
  · cases chosen
    exact (givesLaid_whileTail inner row).definition
  split at chosen
  · cases chosen
    exact (givesLaid_forTail inner row).definition
  split at chosen
  · cases chosen
    exact (givesLaid_tryTail inner row).definition
  split at chosen
  · cases chosen
    exact (givesLaid_withTail inner row).definition
  split at chosen
  · cases chosen
    exact givesDefinition_functionTail inner isRow
  split at chosen
  · cases chosen
    exact givesDefinition_classTail inner isRow
  · cases chosen

end Blocks

/-- By induction on the nesting: the definitions of a line or of a statement with a block. A block is
opened further down than its header, so the line `low` is not fixed in the induction. -/
theorem leads_laidStatementOfDepth (depth low : Nat) :
    Leads (Cursor.Awaits text low) (statementOfDepth depth) (Laid text low) := by
  induction depth generalizing low with
  | zero => exact leads_failure
  | succ depth inner =>
    have settles : Leads (Cursor.Awaits text low) settle fun _ cursor =>
        cursor.Nears text low ∧ (cursor.rest ≠ [] → low ≤ cursor.row) := by
      intro cursor shown after awaits read
      cases read
      exact ⟨⟨awaits.nears.1.settled.1, awaits.nears.2.trans
        (Nat.succ_le_succ (Cursor.row_le_lookahead cursor))⟩, awaits.le⟩
    refine settles.bind fun _ => leads_from fun cursor ⟨near, le⟩ => leads_get_from ?_
    refine leads_peek_from fun ahead seen => ?_
    have shows := near.1.peek?_shows seen
    have lines : Leads (· = cursor) simpleStatements (Laid text low) := leads_laidStatements.from near
    refine leads_ite (fun decorator => ?_) fun _ => ?_
    · have more : ahead.lexeme ≠ .finish := fun ended => by simp [Lookahead.isMark, ended] at decorator
      have near' : cursor.Nears text (low + 1) :=
        ⟨near.1, Nat.succ_le_succ (le (Cursor.rest_ne_nil_of_peek? seen more))⟩
      exact ((givesLaid_decoratedDefinition inner _).from near').bind fun _ =>
        leads_pure fun _ laid => laid
    split
    · exact lines
    rename_i word found
    have word := Lookahead.lexeme_of_word? found
    have near' := shows.nears_of_word word
    have more : ahead.lexeme ≠ .finish := by simp [word]
    have down : low ≤ ahead.row :=
      (le (Cursor.rest_ne_nil_of_peek? seen more)).trans (Cursor.row_le_of_word seen word)
    split
    · rename_i chosen
      exact leads_pass_from
        (((givesDefinition_compoundTail? inner chosen (shows.isRow _ word)).from near').bind fun _ =>
          leads_pure fun _ laid => laid.mono down)
    refine leads_ite (fun _ => leads_pass_from ?_) fun _ => leads_ite (fun _ => .orElse ?_ lines)
      fun _ => lines
    · refine ((leads_laidAsyncTail inner (shows.isRow _ word)).from near').bind fun found => ?_
      split
      · exact leads_pure fun _ laid => (laid _ rfl).mono down
      · exact leads_set lines
    · exact leads_pass_from (((givesLaid_matchTail inner _).definition.from near').bind fun _ =>
        leads_pure fun _ laid => laid.mono down)

end Reader

/-! ## Sources -/

namespace Module

theorem placed_of_readFrom {fuel : Nat} {before statements : List Statement}
    (placed : Placed text before) (awaits : cursor.Awaits text low)
    (behind : ∀ found next, Laid text low found next → Laid text 0 (before ++ found) next)
    (read : readFrom fuel before cursor = .ok statements) : Placed text statements := by
  induction fuel generalizing before cursor low with
  | zero => cases read
  | succ fuel ih =>
    rw [readFrom] at read
    dsimp only at read
    split at read
    · cases read
      exact placed
    · split at read
      · rename_i found next here
        have laid := behind found next
          (Reader.leads_laidStatementOfDepth _ low cursor found next awaits here)
        exact ih laid.toPlaced laid.ended.awaits (fun _ _ below => laid.append below) read
      · cases read

/-- **Every definition stands on a line of its own, below those before, and every name that is read on
a line of the source.** -/
theorem placed_of_read {source : String} {module : Module} (read : Module.read source = .ok module) :
    Placed source.toList module.statements := by
  have start : (⟨source.toList, 0, []⟩ : Cursor).Awaits source.toList 0 :=
    ⟨⟨leaves_self _, Nat.zero_le _⟩, fun _ => Nat.zero_le _⟩
  exact placed_of_readFrom ⟨namesOnLines_nil, .nil, nofun⟩ start (fun _ _ laid => laid)
    (readFrom_of_read read)

end Module

end StrategyMend.Python
