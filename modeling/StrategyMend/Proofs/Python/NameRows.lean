import StrategyMend.Proofs.Python.Beginnings
import StrategyMend.Proofs.Python.ScopeComposition
import StrategyMend.Proofs.Text.Cutting

/-!
# Rows of names

Every name that an expression reads stands on a line of the source. The word that becomes the name was
looked at with a text behind it, so the source has a line with its row (`Cursor.IsAt.peek?_shows`). The
readers of expressions only put together what others read: from a cursor of the text they tell an
expression with such names only (`Reader.Tells`). As for the positions, this goes by induction on the
nesting (`Reader.tells_expression`).
-/

set_option autoImplicit false

namespace StrategyMend.Python

open Text

variable {text rest : List Char} {row : Nat}

/-! ## Rows -/

/-- The text has a line with this number, counted from zero. -/
def IsRow (text : List Char) (row : Nat) : Prop := row < (lineChars text).length

/-- A text is its last line behind the lines above. -/
theorem exists_lastLine (before : List Char) :
    ∃ above left, before = above ++ left ∧ '\n' ∉ left ∧ (above = [] ∨ ∃ top, above = top ++ ['\n']) := by
  induction before with
  | nil => exact ⟨[], [], rfl, nofun, .inl rfl⟩
  | cons c before ih =>
    obtain ⟨above, left, rfl, free, top⟩ := ih
    rcases top with rfl | ⟨top, rfl⟩
    · by_cases newline : c = '\n'
      · exact ⟨[c], left, rfl, free, .inr ⟨[], by rw [newline]; rfl⟩⟩
      · exact ⟨[], c :: left, rfl, by simpa [eq_comm, free] using newline, .inl rfl⟩
    · exact ⟨c :: (top ++ ['\n']), left, rfl, free, .inr ⟨c :: top, rfl⟩⟩

/-- Where a text goes on, there is a line. -/
theorem isRow_of_leaves (leaves : Leaves row text rest) (present : rest ≠ []) : IsRow text row := by
  obtain ⟨past, rfl, rfl⟩ := leaves
  obtain ⟨above, left, rfl, free, top⟩ := exists_lastLine past
  have some : 0 < (lineChars (left ++ rest)).length := by
    obtain ⟨first, _, others, lines, -⟩ := exists_lineChars (show left ++ rest ≠ [] by simp [present])
    rw [lines]
    exact Nat.succ_pos _
  rw [List.count_append, List.count_eq_zero.mpr free, Nat.add_zero, IsRow]
  rcases top with rfl | ⟨top, rfl⟩
  · exact some
  · have below := drop_lineChars top (left ++ rest)
    rw [← below, List.length_drop] at some
    have same : top ++ ['\n'] ++ left ++ rest = top ++ '\n' :: (left ++ rest) := by simp
    have breaks : (top ++ ['\n']).count '\n' = top.count '\n' + 1 := by simp
    rw [same, breaks]
    omega

/-! ## Names on lines -/

/-- All names are read on lines of the text. -/
def Walk.OnLines (text : List Char) (walk : Walk) : Prop := ∀ read ∈ walk.reads, IsRow text read.row

theorem Walk.onLines_append {first second : Walk} :
    (first ++ second).OnLines text ↔ first.OnLines text ∧ second.OnLines text :=
  List.forall_mem_append

theorem Walk.onLines_renumber {walk : Walk} (f : ScopeId → ScopeId) :
    (walk.renumber f).OnLines text ↔ walk.OnLines text := by
  simp [Walk.OnLines, Walk.renumber]

/-- All names in the expression are read on lines of the text. -/
def Expression.OnLines (text : List Char) (expression : Expression) : Prop :=
  (expression.walk moduleScope).OnLines text

/-- So are those in all expressions. -/
def AllOnLines (text : List Char) (expressions : List Expression) : Prop :=
  ∀ expression ∈ expressions, expression.OnLines text

/-- In which scope the expression is evaluated does not matter. -/
theorem Expression.onLines_walk {expression : Expression} (scope : ScopeId) :
    (expression.walk scope).OnLines text ↔ expression.OnLines text := by
  rw [← Expression.walk_renumber moduleScope (fun _ => scope), Walk.onLines_renumber]
  rfl

theorem onLines_walkAll {expressions : List Expression} (scope : ScopeId) :
    (walkAll scope expressions).OnLines text ↔ AllOnLines text expressions := by
  induction expressions with
  | nil => exact iff_of_true nofun nofun
  | cons expression rest ih =>
    rw [walkAll, Walk.onLines_append, ih, Expression.onLines_walk]
    exact List.forall_mem_cons.symm

section AllOnLines

variable {expression : Expression} {first second : List Expression}

@[simp]
theorem allOnLines_nil : AllOnLines text [] := nofun

@[simp]
theorem allOnLines_cons :
    AllOnLines text (expression :: first) ↔ expression.OnLines text ∧ AllOnLines text first :=
  List.forall_mem_cons

@[simp]
theorem allOnLines_append :
    AllOnLines text (first ++ second) ↔ AllOnLines text first ∧ AllOnLines text second :=
  List.forall_mem_append

@[simp]
theorem allOnLines_reverse : AllOnLines text first.reverse ↔ AllOnLines text first := by
  simp [AllOnLines]

end AllOnLines

namespace Expression

variable {target value : Expression} {parts : List Expression}

@[simp]
theorem onLines_name {name : String} : (Expression.name name row).OnLines text ↔ IsRow text row := by
  simp [Expression.OnLines, Expression.walk, Walk.OnLines, Walk.read]

@[simp]
theorem onLines_attribute {member tail : String} :
    (Expression.attribute value member tail).OnLines text ↔ value.OnLines text :=
  Iff.rfl

@[simp]
theorem onLines_subscript : (Expression.subscript parts).OnLines text ↔ AllOnLines text parts :=
  onLines_walkAll moduleScope

@[simp]
theorem onLines_call :
    (Expression.call value parts).OnLines text ↔ value.OnLines text ∧ AllOnLines text parts := by
  rw [← onLines_walkAll moduleScope]
  exact Walk.onLines_append

@[simp]
theorem onLines_keyword {label : String} :
    (Expression.keyword label value).OnLines text ↔ value.OnLines text :=
  Iff.rfl

@[simp]
theorem onLines_string : (Expression.string parts).OnLines text ↔ AllOnLines text parts :=
  onLines_walkAll moduleScope

@[simp]
theorem onLines_collection : (Expression.collection parts).OnLines text ↔ AllOnLines text parts :=
  onLines_walkAll moduleScope

@[simp]
theorem onLines_splat : (Expression.splat value).OnLines text ↔ value.OnLines text := Iff.rfl

@[simp]
theorem onLines_lambda :
    (Expression.lambda parts value).OnLines text ↔ AllOnLines text parts ∧ value.OnLines text := by
  rw [← onLines_walkAll moduleScope]
  exact Walk.onLines_append

@[simp]
theorem onLines_binding :
    (Expression.binding target parts).OnLines text ↔ target.OnLines text ∧ AllOnLines text parts := by
  rw [← onLines_walkAll moduleScope]
  exact Walk.onLines_append

@[simp]
theorem onLines_alias :
    (Expression.alias value target).OnLines text ↔ value.OnLines text ∧ target.OnLines text :=
  Walk.onLines_append

@[simp]
theorem onLines_capture {names : List String} : (Expression.capture names).OnLines text := nofun

@[simp]
theorem onLines_operation : (Expression.operation parts).OnLines text ↔ AllOnLines text parts :=
  onLines_walkAll moduleScope

@[simp]
theorem onLines_ofOperands : (Expression.ofOperands parts).OnLines text ↔ AllOnLines text parts := by
  unfold ofOperands
  split <;> simp

@[simp]
theorem onLines_ofItems : (Expression.ofItems parts).OnLines text ↔ AllOnLines text parts := by
  unfold ofItems
  split <;> simp

end Expression

/-- A lexeme of the text; if it is a word, it stands on a line of the text, from which the text goes
on. -/
structure Lookahead.Shows (text : List Char) (ahead : Lookahead) : Prop extends
    Lookahead.IsIn text ahead where
  isRow : ∀ word, ahead.lexeme = .word word → IsRow text ahead.row
  row_after : ∀ word, ahead.lexeme = .word word → ahead.after.row = ahead.row

theorem Cursor.IsAt.peek?_shows {cursor : Cursor} (here : cursor.IsAt text) {place : Place}
    {ahead : Lookahead} (seen : cursor.peek? place = some ahead) : ahead.Shows text := by
  rcases peek?_cases seen with same | ⟨lineBreak, -, -⟩
  · refine ⟨here.peek? seen, fun word read => ?_, fun _ _ => by rw [same]; rfl⟩
    subst same
    refine isRow_of_leaves here.settled.1 fun ended => ?_
    have read : (Lexeme.read cursor.lookahead.2).1 = .word word := read
    rw [ended] at read
    cases read
  · refine ⟨here.peek? seen, fun word read => ?_, fun word read => ?_⟩
    · rw [lineBreak] at read
      cases read
    · rw [lineBreak] at read
      cases read

theorem Lookahead.Shows.peekAfter? {ahead next : Lookahead} (shows : ahead.Shows text) {place : Place}
    (found : Reader.peekAfter? ahead place = some next) : next.Shows text :=
  shows.isAt.peek?_shows found

namespace Reader

variable {α β : Type} {holds : α → Prop} {before : Cursor → Prop}

/-! ## Rules -/

/-- From a cursor of the text the reader comes to a cursor of the text and gives something that has the
property. -/
abbrev Tells (text : List Char) (reader : Reader α) (holds : α → Prop) : Prop :=
  Leads (Cursor.IsAt text) reader fun result cursor => holds result ∧ cursor.IsAt text

theorem tells_pure {result : α} (here : holds result) : Tells text (pure result) holds :=
  leads_pure fun _ at_ => ⟨here, at_⟩

theorem tells_failure : Tells text failure holds := leads_failure

/-- What the first reader gives has the property, and the second one goes on from a cursor of the
text. -/
theorem Tells.then {reader : Reader α} {next : α → Reader β} {after : β → Cursor → Prop}
    (first : Tells text reader holds)
    (second : ∀ result, holds result → Leads (Cursor.IsAt text) (next result) after) :
    Leads (Cursor.IsAt text) (reader >>= next) after :=
  Leads.bind first fun result cursor given last here =>
    second result here.1 cursor given last here.2

theorem tells_ite {condition : Prop} [Decidable condition] {first second : Reader α}
    (yes : Tells text first holds) (no : Tells text second holds) :
    Tells text (if condition then first else second) holds :=
  leads_ite (fun _ => yes) fun _ => no

/-- The steps keep a property of the state. -/
theorem tells_iterate {step : α → Reader (Option α)} {start : α} (holds : α → Prop)
    (begins : holds start)
    (keeps : ∀ state, holds state →
      Tells text (step state) fun next => ∀ state' ∈ next, holds state') :
    Tells text (iterate step start) holds := by
  refine (leads_iterate (fun state cursor => holds state ∧ cursor.IsAt text)
    (fun state cursor => holds state ∧ cursor.IsAt text) fun state => ?_).weaken
      fun _ here => ⟨begins, here⟩
  intro cursor next cursor' given read
  obtain ⟨kept, here⟩ := keeps state given.1 cursor next cursor' given.2 read
  cases next with
  | none => exact ⟨given.1, here⟩
  | some state' => exact ⟨kept state' rfl, here⟩

theorem tells_none : Tells text (pure none) fun next => ∀ state' ∈ next, holds state' :=
  tells_pure nofun

theorem tells_some {state : α} (here : holds state) :
    Tells text (pure (some state)) fun next => ∀ state' ∈ next, holds state' :=
  tells_pure fun _ same => Option.some.inj same ▸ here

/-- What is looked at from a cursor of the text is a lexeme of the text, on one of its lines. -/
theorem tells_peek {place : Place} {next : Lookahead → Reader β} {after : β → Cursor → Prop}
    (leads : ∀ ahead, ahead.Shows text → Leads (Cursor.IsAt text) (next ahead) after) :
    Leads (Cursor.IsAt text) (peek place >>= next) after := by
  refine leads_peek.bind fun ahead cursor result last here read => ?_
  exact leads ahead (here.1.peek?_shows here.2) cursor result last here.1 read

/-- A lexeme of the text is passed. -/
theorem pass_shown {ahead : Lookahead} {next : Unit → Reader β} {after : β → Cursor → Prop}
    (shows : ahead.Shows text) (leads : Leads (Cursor.IsAt text) (next ()) after) :
    Leads (Cursor.IsAt text) (pass ahead >>= next) after :=
  (stays_pass shows.toIsIn).bind fun _ => leads

theorem tells_anyWord (place : Place) :
    Tells text (anyWord place) fun found => IsRow text found.2 := by
  refine tells_peek fun ahead shows => ?_
  split
  · rename_i word found
    exact pass_shown shows (tells_pure (shows.isRow _ (Lookahead.lexeme_of_word? found)))
  · exact tells_failure

/-! ## Strings -/

/-- Where a reader comes to and what it gives can be told apart. -/
theorem Leads.and {reader : Reader α} {first second : α → Cursor → Prop}
    (leads : Leads before reader first) (leads' : Leads before reader second) :
    Leads before reader fun result cursor => first result cursor ∧ second result cursor :=
  fun cursor result next here read =>
    ⟨leads cursor result next here read, leads' cursor result next here read⟩

theorem leads_any {reader : Reader β} : Leads before reader fun _ _ => True :=
  fun _ _ _ _ _ => trivial

/-- What comes before a result does not matter to it. -/
theorem leads_then_pure {reader : Reader β} {result : α} (here : holds result) :
    Leads before (reader >>= fun _ => pure result) fun result _ => holds result :=
  leads_any.bind fun _ => leads_pure fun _ _ => here

theorem tells_stringPiece {interpolation : Reader (List Expression)}
    (inner : Tells text interpolation (AllOnLines text)) {form : StringForm}
    (quoted : form.quote ≠ '\n') (state : StringState)
    (here : AllOnLines text state.interpolated) :
    Tells text (stringPiece interpolation form state) fun next =>
      ∀ state' ∈ next, AllOnLines text state'.interpolated := by
  have inner' : Stays text interpolation := inner.mono (fun _ at_ => at_) fun _ _ given => given.2
  refine Leads.mono (Leads.and (stays_stringPiece inner' quoted state) ?_) (fun _ at_ => at_)
    fun _ _ given => And.symm given
  have same {state' : StringState} (same : state'.interpolated = state.interpolated) :
      ∀ next ∈ some state', AllOnLines text next.interpolated := by
    rintro _ ⟨⟩
    rwa [same]
  refine leads_ite (fun _ => leads_pure fun _ _ => nofun) fun _ => leads_rest fun cursor => ?_
  split
  · exact leads_failure
  rename_i c rest shown
  rw [shown]
  refine leads_ite (fun brace => ?_) fun _ => ?_
  · obtain rfl : c = '{' := by simpa using (Bool.and_eq_true_iff.mp brace).2
    refine leads_ite (fun doubled => leads_then_pure (same rfl)) fun _ => ?_
    refine (leads_advance_one (by decide) rfl).bind fun _ => inner.then fun found lies => ?_
    refine leads_pure fun _ _ => ?_
    rintro _ ⟨⟩
    simp [lies, here]
  refine leads_ite (fun _ => leads_ite (fun _ => leads_then_pure (same rfl)) fun _ => leads_failure)
    fun _ => ?_
  refine leads_ite (fun _ => ?_) fun _ => ?_
  · refine leads_ite (fun _ => leads_then_pure (same rfl)) fun _ => ?_
    refine leads_ite (fun _ => leads_then_pure (same rfl)) fun _ => ?_
    split
    · exact leads_then_pure (same rfl)
    · exact leads_then_pure (same rfl)
  refine leads_ite (fun _ => ?_) fun _ => ?_
  · refine leads_ite (fun _ => leads_ite (fun _ => ?_) fun _ => ?_) fun _ => ?_
    · exact leads_then_pure (same rfl)
    · exact leads_then_pure (same rfl)
    · exact leads_then_pure (same rfl)
  refine leads_ite (fun _ => leads_ite (fun _ => leads_failure) fun _ => ?_) fun _ => ?_
  · exact leads_then_pure (same rfl)
  · exact leads_ite (fun _ => leads_failure) fun _ => leads_then_pure (same rfl)

theorem Tells.stays {reader : Reader α} (tells : Tells text reader holds) : Stays text reader :=
  tells.mono (fun _ here => here) fun _ _ given => given.2

theorem tells_stringBody {interpolation : Reader (List Expression)}
    (inner : Tells text interpolation (AllOnLines text)) {form : StringForm}
    (quoted : form.quote ≠ '\n') : Tells text (stringBody interpolation form) (·.OnLines text) :=
  (tells_iterate (fun state => AllOnLines text state.interpolated) allOnLines_nil
    (tells_stringPiece inner quoted)).then fun _ lies => tells_pure (by simpa using lies)

theorem tells_single {item : Reader Expression} (tells : Tells text item (·.OnLines text)) :
    Tells text (single item) (AllOnLines text) :=
  tells.then fun _ lies => tells_pure (by simpa using lies)

theorem tells_itemsTo (closing : String) {item : Reader (List Expression)}
    (tells : Tells text item (AllOnLines text)) {first : List Expression}
    (begins : AllOnLines text first) : Tells text (itemsTo closing item first) (AllOnLines text) := by
  refine (tells_iterate (fun state => AllOnLines text state.1) begins fun state here => ?_).then
    fun _ lies => tells_pure lies
  refine tells_ite tells_none (tells_peek fun _ shows => tells_ite ?_ (tells_ite ?_ tells_failure))
  · exact pass_shown shows (tells_some here)
  · refine pass_shown shows (tells_peek fun _ _ => tells_ite (tells_some here) ?_)
    exact tells.then fun _ lies => tells_some (by simp [here, lies])

section Expressions

variable {self : Nested} (inner : ∀ place follow, Tells text (self place follow) (·.OnLines text))
include inner

/-! ## Lists of expressions -/

theorem tells_moreExpressions (follow : Follow) (stops : List String) {first : Expression}
    (begins : first.OnLines text) :
    Tells text (moreExpressions self follow stops first) fun found => AllOnLines text found.1 := by
  refine (tells_iterate (fun state => AllOnLines text state.1) (by simpa using begins)
    fun state here => ?_).then fun _ lies => tells_pure (by simpa using lies)
  refine tells_ite tells_none (tells_peek fun _ comma => tells_ite tells_none ?_)
  refine pass_shown comma (tells_peek fun _ _ => tells_ite ?_ (tells_some here))
  exact (inner _ _).then fun _ lies => tells_some (by simp [here, lies])

theorem tells_expressions (place : Place) (follow : Follow) (stops : List String) :
    Tells text (expressions self place follow stops) fun found => AllOnLines text found.1 :=
  (inner _ _).then fun _ lies => tells_moreExpressions inner follow stops lies

theorem tells_strictExpressions (follow : Follow) :
    Tells text (strictExpressions self follow) (AllOnLines text) := by
  refine (inner _ _).then fun _ lies => (tells_iterate (AllOnLines text) (by simpa using lies)
    fun items here => ?_).then fun _ lies => tells_pure (by simpa using lies)
  refine (stays_tryMark _ _).bind fun _ => tells_ite ?_ tells_none
  exact (inner _ _).then fun _ lies => tells_some (by simp [here, lies])

theorem tells_yieldTail (place : Place) : Tells text (yieldTail self place) (·.OnLines text) := by
  refine tells_peek fun _ shows => tells_ite ?_ (tells_ite ?_ (tells_pure (by simp)))
  · exact pass_shown shows ((inner _ _).then fun _ lies => tells_pure (by simpa using lies))
  · exact (tells_expressions inner _ _ _).then fun _ lies => tells_pure (by simpa using lies)

theorem tells_interpolation (depth : Nat) :
    Tells text (interpolation self depth) (AllOnLines text) := by
  induction depth with
  | zero => exact tells_failure
  | succ depth ih =>
    refine tells_peek fun _ shows => ?_
    extract_lets closing rest
    have closes (found : List Expression) (lies : AllOnLines text found) :
        Tells text (closing found) (AllOnLines text) := by
      refine leads_settle.bind fun shown => ?_
      split
      · exact (leads_advance (by simp)).bind fun _ => tells_pure lies
      · exact leads_failure
    have tells (value : Expression) (lies : value.OnLines text) :
        Tells text (rest value) (AllOnLines text) := by
      refine leads_settle.bind fun shown => ?_
      extract_lets format conversion
      have formats (result : Unit) : Tells text (format result) (AllOnLines text) := by
        refine leads_settle.bind fun shown => leads_ite (fun colon => ?_) fun _ => ?_
        · refine (leads_advance_one (by decide) colon).bind fun _ => ?_
          refine (tells_iterate (AllOnLines text) (by simpa using lies) fun found here =>
            leads_rest fun cursor => ?_).then closes
          split
          · rename_i shown
            rw [shown]
            exact (leads_advance (by simp)).bind fun _ => ih.then fun _ more =>
              tells_some (by simp [here, more])
          · exact tells_none.weaken fun _ before => before.1
          · rename_i shown
            rw [shown]
            exact (leads_advanceRows rfl).bind fun _ => tells_some here
          · rename_i plain shown
            rw [shown]
            exact (leads_advance_one plain rfl).bind fun _ => tells_some here
          · exact leads_failure
        · exact Leads.weaken (Tells.then (tells_pure (by simpa using lies)) closes)
            fun _ before => before.1
      have converts (result : Unit) : Tells text (conversion result) (AllOnLines text) := by
        refine leads_settle.bind fun shown => ?_
        split
        · rename_i c _
          refine leads_ite (fun letter => ?_) fun _ => (formats ()).weaken fun _ before => before.1
          have plain : c ≠ '\n' := by
            rintro rfl
            cases letter
          exact (leads_advance (by simp [plain.symm])).bind formats
        · exact (formats ()).weaken fun _ before => before.1
      refine leads_ite (fun equals => ?_) fun _ => (converts ()).weaken fun _ before => before.1
      exact (leads_advance_one (by decide) equals).bind converts
    refine tells_ite ?_ ?_
    · exact pass_shown shows ((tells_yieldTail inner _).then tells)
    · exact (tells_expressions inner _ _ _).then fun _ lies =>
        Tells.then (tells_pure (by simpa using lies)) tells

theorem tells_stringLiteral {form : StringForm} (quoted : form.quote ≠ '\n') :
    Tells text (stringLiteral self form) (·.OnLines text) :=
  leads_rest fun _ => (tells_stringBody (tells_interpolation inner _) quoted).weaken
    fun _ before => before.1

/-! ## Brackets -/

theorem tells_element : Tells text (element self) (·.OnLines text) := by
  refine tells_peek fun _ shows => tells_ite ?_ (tells_ite ?_ (inner _ _))
  · exact pass_shown shows ((inner _ _).then fun _ lies => tells_pure (by simpa using lies))
  · exact pass_shown shows (tells_yieldTail inner _)

theorem tells_elementsTo (closing : String) {first : List Expression}
    (begins : AllOnLines text first) :
    Tells text (elementsTo self closing first) (AllOnLines text) :=
  tells_itemsTo closing (tells_single (tells_element inner)) begins

theorem tells_entry : Tells text (entry self) (AllOnLines text) := by
  refine tells_peek fun _ shows => tells_ite ?_ ?_
  · exact pass_shown shows ((inner _ _).then fun _ lies => tells_pure (by simpa using lies))
  · exact (inner _ _).then fun _ key => (stays_expectMark _ _).bind fun _ =>
      (inner _ _).then fun _ value => tells_pure (by simp [key, value])

theorem tells_entriesTo {first : List Expression} (begins : AllOnLines text first) :
    Tells text (entriesTo self first) (AllOnLines text) :=
  tells_itemsTo _ (tells_entry inner) begins

section Primary

variable {primary : Place → Follow → Reader Expression}
  (operand : ∀ place follow, Tells text (primary place follow) (·.OnLines text))
include operand

theorem tells_comprehensionClauses :
    Tells text (comprehensionClauses self primary) (AllOnLines text) := by
  refine (tells_iterate (AllOnLines text) allOnLines_nil fun clauses here => ?_).then
    fun _ lies => tells_ite tells_failure (tells_pure lies)
  refine tells_peek fun _ shows => tells_ite ?_ (tells_ite ?_ tells_none)
  · refine pass_shown shows ?_
    extract_lets clause
    have tells (result : Unit) : Tells text (clause result) fun next =>
        ∀ state' ∈ next, AllOnLines text state' := by
      refine (operand _ _).then fun target lies => leads_unless ?_
      refine (tells_iterate (fun state => AllOnLines text state.1) (by simpa using lies)
        fun state here' => ?_).then fun targets lies => ?_
      · refine tells_ite tells_none (tells_peek fun _ comma => tells_ite ?_ tells_none)
        refine pass_shown comma (tells_peek fun _ _ => tells_ite (tells_some here') ?_)
        exact (operand _ _).then fun _ more => leads_unless (tells_some (by simp [here', more]))
      · refine (stays_expectWord _ _).bind fun _ => ?_
        exact (tells_expressions inner _ _ _).then fun _ sources =>
          tells_some (by simp [here, lies, sources])
    exact leads_ite (fun _ => (stays_expectWord _ _).bind tells) fun _ => tells ()
  · exact pass_shown shows ((inner _ _).then fun _ more => tells_some (by simp [here, more]))

/-- A comprehension up to the bracket that closes it. -/
theorem tells_comprehension (closing : String) {value : List Expression → α}
    (lies : ∀ clauses, AllOnLines text clauses → holds (value clauses)) :
    Tells text (comprehensionClauses self primary >>= fun clauses =>
      expectMark .inBrackets closing >>= fun _ => pure (value clauses)) holds :=
  (tells_comprehensionClauses inner operand).then fun _ clauses =>
    (stays_expectMark _ _).bind fun _ => tells_pure (lies _ clauses)

theorem tells_roundBrackets : Tells text (roundBrackets self primary) (·.OnLines text) := by
  refine tells_peek fun _ shows => tells_ite (pass_shown shows (tells_pure (by simp))) ?_
  refine (tells_element inner).then fun first here => tells_peek fun _ closing => ?_
  refine tells_ite ?_ (tells_ite ?_ ?_)
  · exact tells_comprehension inner operand _ fun _ lies => by simp [here, lies]
  · split
    · exact tells_ite (pass_shown closing (tells_pure (by simpa using here))) tells_failure
    · exact pass_shown closing (tells_pure (by simpa using here))
  · exact (tells_elementsTo inner _ (by simpa using here)).then fun _ lies =>
      tells_pure (by simpa using lies)

theorem tells_squareBrackets : Tells text (squareBrackets self primary) (·.OnLines text) := by
  refine tells_peek fun _ shows => tells_ite (pass_shown shows (tells_pure (by simp))) ?_
  refine (tells_element inner).then fun first here => tells_peek fun _ _ => tells_ite ?_ ?_
  · exact tells_comprehension inner operand _ fun _ lies => by simp [here, lies]
  · exact (tells_elementsTo inner _ (by simpa using here)).then fun _ lies =>
      tells_pure (by simpa using lies)

theorem tells_curlyBrackets : Tells text (curlyBrackets self primary) (·.OnLines text) := by
  refine tells_peek fun _ shows => tells_ite (pass_shown shows (tells_pure (by simp))) ?_
  refine tells_ite ?_ (tells_ite ?_ ?_)
  · exact pass_shown shows ((stays_expectMark _ _).bind fun _ => tells_pure (by simp))
  · exact pass_shown shows ((inner _ _).then fun _ value =>
      (tells_entriesTo inner (by simpa using value)).then fun _ lies => tells_pure (by simpa using lies))
  · refine (tells_element inner).then fun first here => tells_peek fun _ colon => tells_ite ?_ ?_
    · refine pass_shown colon ((inner _ _).then fun value here' => ?_)
      refine tells_peek fun _ _ => tells_ite ?_ ?_
      · exact tells_comprehension inner operand _ fun _ lies => by simp [here, here', lies]
      · exact (tells_entriesTo inner (by simp [here, here'])).then fun _ lies =>
          tells_pure (by simpa using lies)
    · refine tells_ite ?_ ?_
      · exact tells_comprehension inner operand _ fun _ lies => by simp [here, lies]
      · exact (tells_elementsTo inner _ (by simpa using here)).then fun _ lies =>
          tells_pure (by simpa using lies)

/-! ## Calls and subscripts -/

omit operand in
theorem tells_argument : Tells text (argument self) (·.OnLines text) := by
  refine tells_peek fun ahead shows => tells_ite ?_ ?_
  · exact pass_shown shows ((inner _ _).then fun _ lies => tells_pure (by simpa using lies))
  · split
    · refine tells_ite (inner _ _) ?_
      split
      · rename_i next found
        refine tells_ite ?_ (inner _ _)
        exact pass_shown (shows.peekAfter? found) ((inner _ _).then fun _ lies =>
          tells_pure (by simpa using lies))
      · exact tells_failure
    · exact inner _ _

theorem tells_arguments (generator : Bool) :
    Tells text (arguments self primary generator) (AllOnLines text) := by
  refine tells_peek fun _ shows => tells_ite (pass_shown shows (tells_pure allOnLines_nil)) ?_
  refine tells_ite ?_ ?_
  · exact pass_shown shows ((stays_expectMark _ _).bind fun _ => tells_pure allOnLines_nil)
  · refine (tells_argument inner).then fun first here => tells_peek fun _ _ => tells_ite ?_ ?_
    · exact tells_comprehension inner operand _ fun _ lies => by simp [here, lies]
    · exact tells_itemsTo _ (tells_single (tells_argument inner)) (by simpa using here)

omit operand in
theorem tells_subscriptItem : Tells text (subscriptItem self) (AllOnLines text) := by
  refine tells_peek fun _ shows => ?_
  extract_lets more
  have tells (first : List Expression) (here : AllOnLines text first) :
      Tells text (more first) (AllOnLines text) := by
    refine (tells_iterate (fun state => AllOnLines text state.1) here fun state here => ?_).then
      fun _ lies => tells_pure lies
    refine tells_ite tells_none ((stays_tryMark _ _).bind fun _ => tells_ite ?_ tells_none)
    refine tells_peek fun _ _ => tells_ite (tells_some here) ?_
    exact (inner _ _).then fun _ lies => tells_some (by simp [here, lies])
  refine tells_ite (Tells.then (tells_pure allOnLines_nil) tells) ?_
  exact (inner _ _).then fun _ lies => Tells.then (tells_pure (by simpa using lies)) tells

omit operand in
theorem tells_subscriptItems : Tells text (subscriptItems self) (AllOnLines text) :=
  (tells_subscriptItem inner).then fun _ here => tells_itemsTo _ (tells_subscriptItem inner) here

/-! ## Operands -/

omit operand in
theorem tells_moreStrings (place : Place) {first : Expression} (begins : first.OnLines text) :
    Tells text (moreStrings self place first) (·.OnLines text) := by
  refine (tells_iterate (AllOnLines text) (by simpa using begins) fun strings here => ?_).then
    fun _ lies => tells_pure (by simpa using lies)
  refine tells_peek fun ahead shows => ?_
  split
  · rename_i form opened
    exact pass_shown shows ((tells_stringLiteral inner (shows.quoted form opened)).then fun _ lies =>
      tells_some (by simp [here, lies]))
  · exact tells_none

theorem tells_atom (place : Place) (follow : Follow) :
    Tells text (atom self primary place follow) (·.OnLines text) := by
  refine tells_peek fun ahead shows => ?_
  split
  · exact pass_shown shows (tells_pure (by simp))
  · rename_i form opened
    exact pass_shown shows ((tells_stringLiteral inner (shows.quoted form opened)).then fun _ lies =>
      tells_moreStrings inner _ lies)
  · rename_i word read
    refine pass_shown shows (tells_pure ?_)
    split
    · simp
    · simpa using shows.isRow word read
  · exact pass_shown shows (tells_pure (by simp))
  · exact pass_shown shows (tells_roundBrackets inner operand)
  · exact pass_shown shows (tells_squareBrackets inner operand)
  · exact pass_shown shows (tells_curlyBrackets inner operand)
  · exact tells_failure

theorem tells_trailers (follow : Follow) {start : Expression} (begins : start.OnLines text) :
    Tells text (trailers self primary follow start) (·.OnLines text) := by
  refine tells_iterate (Expression.OnLines text) begins fun value here => tells_peek fun _ shows => ?_
  refine tells_ite ?_ (tells_ite ?_ (tells_ite ?_ tells_none))
  · exact pass_shown shows (leads_gapText.bind fun _ => (stays_anyWord _).bind fun _ =>
      tells_some (by simpa using here))
  · exact pass_shown shows ((tells_arguments inner operand _).then fun _ lies =>
      tells_some (by simp [here, lies]))
  · exact pass_shown shows ((tells_subscriptItems inner).then fun _ lies =>
      tells_some (by simp [here, lies]))

end Primary

theorem tells_primaryOperand (depth : Nat) (place : Place) (follow : Follow) :
    Tells text (primaryOperand self depth place follow) (·.OnLines text) := by
  induction depth generalizing place follow with
  | zero => exact tells_failure
  | succ depth operand =>
    refine (stays_iterate fun state => ?_).bind fun signs => ?_
    · refine stays_peek fun ahead seen => stays_ite ?_ (stays_ite ?_ stays_pure)
      · exact (stays_pass seen).bind fun _ => stays_pure
      · split
        · exact stays_ite ((stays_pass seen).bind fun _ => stays_pure) stays_pure
        · exact stays_pure
    · have signed (value : Expression) (lies : value.OnLines text) :
          (if signs.1 then Expression.operation [value] else value).OnLines text := by
        split
        · simpa using lies
        · exact lies
      refine tells_peek fun _ shows => tells_ite ?_ ?_
      · refine pass_shown shows ((tells_atom inner operand _ _).then fun _ here => ?_)
        refine (tells_trailers inner operand _ here).then fun _ lies => tells_ite ?_ tells_failure
        exact Tells.then (tells_pure (by simpa using lies)) fun _ lies => tells_pure (signed _ lies)
      · exact (tells_atom inner operand _ _).then fun _ here =>
          (tells_trailers inner operand _ here).then fun _ lies => tells_pure (signed _ lies)

theorem tells_primary (place : Place) (follow : Follow) :
    Tells text (primary self place follow) (·.OnLines text) :=
  leads_rest fun _ => (tells_primaryOperand inner _ _ _).weaken fun _ before => before.1

/-! ## Types and parameters -/

theorem tells_typeOfDepth (depth : Nat) (constrained : Bool) (place follow : Place) :
    Tells text (typeOfDepth self depth constrained place follow) (·.OnLines text) := by
  induction depth generalizing constrained place follow with
  | zero => exact tells_failure
  | succ depth ih =>
    refine tells_peek fun ahead shows => ?_
    extract_lets generic more
    have tells (first : Expression) (here : first.OnLines text) :
        Tells text (more first) (·.OnLines text) := by
      refine (tells_iterate (AllOnLines text) (by simpa using here) fun parts here => ?_).then
        fun _ lies => tells_pure (by simpa using lies)
      refine tells_peek fun _ shows => tells_ite ?_ (tells_ite ?_ tells_none)
      · exact pass_shown shows ((ih _ _ _).then fun _ lies => tells_some (by simp [here, lies]))
      · exact pass_shown shows ((tells_anyWord _).then fun _ isRow =>
          tells_some (by simp [here, isRow]))
    refine tells_ite ?_ (tells_ite ?_ ((inner _ _).then tells))
    · refine (tells_anyWord _).then fun _ isRow => (stays_expectMark _ _).bind fun _ => ?_
      refine (ih _ _ _).then fun _ here =>
        (tells_itemsTo _ (tells_single (ih _ _ _)) (by simpa using here)).then fun _ lies => ?_
      exact Tells.then (tells_pure (by simp [isRow, lies])) tells
    · exact pass_shown shows ((tells_anyWord _).then fun _ isRow =>
        Tells.then (tells_pure (by simpa using isRow)) tells)

theorem tells_typeExpression (constrained : Bool) (place follow : Place) :
    Tells text (typeExpression self constrained place follow) (·.OnLines text) :=
  leads_rest fun _ => (tells_typeOfDepth inner _ _ _ _).weaken fun _ before => before.1

theorem tells_parameterType (typed : Bool) (place : Place) :
    Tells text (parameterType self typed place) (AllOnLines text) := by
  refine tells_ite ((stays_tryMark _ _).bind fun _ => tells_ite ?_ (tells_pure allOnLines_nil))
    (tells_pure allOnLines_nil)
  exact (tells_typeExpression inner _ _ _).then fun _ lies => tells_pure (by simpa using lies)

theorem tells_parameterDefault (place : Place) :
    Tells text (parameterDefault self place) (AllOnLines text) :=
  (stays_tryMark _ _).bind fun _ => tells_ite
    ((inner _ _).then fun _ lies => tells_pure (by simpa using lies)) (tells_pure allOnLines_nil)

theorem tells_parameter (typed : Bool) (closing : String) (place : Place) :
    Tells text (parameter self typed closing place) (AllOnLines text) := by
  refine tells_peek fun ahead shows => ?_
  split
  · rename_i word read
    exact pass_shown shows ((tells_parameterType inner _ _).then fun _ hint =>
      (tells_parameterDefault inner _).then fun _ value =>
        tells_pure (by simp [shows.isRow word read, hint, value]))
  · exact pass_shown shows (tells_pure allOnLines_nil)
  · refine (tells_primary inner _ _).then fun _ target => tells_ite ?_ tells_failure
    exact (tells_parameterDefault inner _).then fun _ value => tells_pure (by simp [target, value])
  · refine tells_ite ?_ tells_failure
    refine pass_shown shows (tells_peek fun _ _ => tells_ite (tells_pure allOnLines_nil) ?_)
    refine (tells_primary inner _ _).then fun _ target => leads_unless ?_
    exact (tells_parameterType inner _ _).then fun _ hint => tells_pure (by simp [target, hint])
  · exact tells_failure

theorem tells_parameterList (typed : Bool) (closing : String) (place : Place) :
    Tells text (parameterList self typed closing place) (AllOnLines text) := by
  refine tells_iterate (AllOnLines text) allOnLines_nil fun parameters here => ?_
  refine tells_peek fun _ _ => tells_ite tells_none ?_
  refine (tells_parameter inner _ _ _).then fun found lies => tells_peek fun _ comma => ?_
  have more : AllOnLines text (parameters ++ found) := by simp [here, lies]
  exact tells_ite (pass_shown comma (tells_some more)) (tells_ite (tells_some more) tells_failure)

/-! ## Chains of operands -/

theorem tells_lambdaTail (follow : Follow) :
    Tells text (lambdaTail self follow) (·.OnLines text) :=
  (tells_parameterList inner _ _ _).then fun _ parameters => (stays_expectMark _ _).bind fun _ =>
    (inner _ _).then fun _ body => tells_pure (by simp [parameters, body])

theorem tells_operand (place : Place) (follow : Follow) :
    Tells text (operand self place follow) (·.OnLines text) := by
  refine (stays_iterate fun state => ?_).bind fun negations => ?_
  · refine stays_peek fun _ seen => stays_ite ?_ stays_pure
    exact (stays_pass seen).bind fun _ => stays_pure
  · have negated (value : Expression) (lies : value.OnLines text) :
        Tells text (pure (if negations.1 then Expression.operation [value] else value))
          (·.OnLines text) := by
      refine tells_pure ?_
      split
      · simpa using lies
      · exact lies
    have plain : Tells text (primary self negations.2 follow >>= fun value =>
        pure (if negations.1 then Expression.operation [value] else value)) (·.OnLines text) :=
      (tells_primary inner _ _).then negated
    refine tells_peek fun ahead shows => tells_ite ?_ ?_
    · exact pass_shown shows ((tells_lambdaTail inner _).then negated)
    · split
      · rename_i word named
        split
        · rename_i next found
          refine tells_ite ?_ plain
          refine pass_shown (shows.peekAfter? found) ((inner _ _).then fun _ lies => ?_)
          have isRow := shows.isRow _ (Lookahead.lexeme_of_word? named)
          exact Tells.then (tells_pure (by simp [isRow, lies])) negated
        · exact plain
      · exact plain

theorem tells_chainStep (follow : Follow) {parts : List Expression} (here : AllOnLines text parts) :
    Tells text (chainStep self follow parts) fun next =>
      ∀ parts' ∈ next, AllOnLines text parts' := by
  refine tells_peek fun ahead shows => ?_
  have joined : Tells text (operand self .inStatement follow >>= fun next =>
      pure (some (parts ++ [next]))) fun next => ∀ parts' ∈ next, AllOnLines text parts' :=
    (tells_operand inner _ _).then fun _ lies => tells_some (by simp [here, lies])
  have compared : Tells text (primary self .inStatement follow >>= fun next =>
      pure (some (parts ++ [next]))) fun next => ∀ parts' ∈ next, AllOnLines text parts' :=
    (tells_primary inner _ _).then fun _ lies => tells_some (by simp [here, lies])
  split
  · exact tells_ite (pass_shown shows compared) tells_none
  · exact pass_shown shows joined
  · exact pass_shown shows joined
  · exact pass_shown shows ((stays_expectWord _ _).bind fun _ => compared)
  · exact pass_shown shows compared
  · refine pass_shown shows (tells_peek fun _ negation => ?_)
    exact tells_ite (pass_shown negation compared) compared
  · refine tells_ite ?_ tells_none
    refine pass_shown shows ((inner _ _).then fun _ condition => ?_)
    exact (stays_expectWord _ _).bind fun _ => (tells_operand inner _ _).then fun _ lies =>
      tells_some (by simp [here, condition, lies])
  · refine tells_ite ?_ tells_none
    exact pass_shown shows ((inner _ _).then fun _ target => tells_some (by simp [here, target]))
  · exact tells_none

end Expressions

theorem tells_expressionOfDepth (depth : Nat) (place : Place) (follow : Follow) :
    Tells text (expressionOfDepth depth place follow) (·.OnLines text) := by
  induction depth generalizing place follow with
  | zero => exact tells_failure
  | succ depth inner =>
    refine (tells_operand inner _ _).then fun first here => ?_
    exact (tells_iterate (AllOnLines text) (by simpa using here) fun _ => tells_chainStep inner _).then
      fun _ lies => tells_pure (by simpa using lies)

/-- **The names in an expression stand on lines of the text.** -/
theorem tells_expression (place : Place) (follow : Follow) :
    Tells text (expression place follow) (·.OnLines text) :=
  leads_rest fun _ => (tells_expressionOfDepth _ _ _).weaken fun _ before => before.1

end Reader

end StrategyMend.Python
