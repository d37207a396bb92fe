import StrategyMend.Proofs.Python.BodyStart
import StrategyMend.Proofs.Python.Docstrings
import StrategyMend.Proofs.Python.FieldAssignment

/-!
# Fields that a body sets first

A line `self.order = None` at the top of a body, behind a docstring if there is one (`IsPreamble`),
becomes a statement of the function and sets the field there (`FunctionBegun.assignedIn_of_header`).
-/

set_option autoImplicit false

namespace StrategyMend.Python

open Reader

/-- What may stand in front of the first statement that is no docstring. -/
inductive IsPreamble (indent : List Char) : List Char → Prop where
  | none : IsPreamble indent []
  | docstring {quote : Char} {content trailing : List Char} (docstring : IsDocstring quote content)
    (free : '\n' ∉ trailing) (idle : isIdle trailing = true) :
    IsPreamble indent ([quote, quote, quote] ++ content ++ [quote, quote, quote] ++ trailing ++
      '\n' :: indent)

theorem assignedIn_append (field : String) (first second : List Statement) :
    assignedIn field (first ++ second) = (assignedIn field first || assignedIn field second) := by
  induction first with
  | nil => rfl
  | cons statement first ih => rw [List.cons_append, assignedIn, assignedIn, ih, Bool.or_assoc]

variable {start next last : Cursor} {found : List Statement} {indent preamble tail : List Char}

theorem assignedIn_of_mem {field : String} {statements : List Statement} {statement : Statement}
    (member : statement ∈ statements) (sets : statement.assigns field = true) :
    assignedIn field statements = true := by
  induction statements with
  | nil => cases member
  | cons first rest ih =>
    rw [assignedIn, Bool.or_eq_true]
    rcases List.mem_cons.mp member with rfl | later
    · exact .inl sets
    · exact .inr (ih later)

/-- What the first statement of a line has, one of them has. -/
theorem Reader.leads_first {cursor : Cursor} {property : Statement → Prop}
    (first : Leads (· = cursor) simpleStatement fun statement _ => property statement) :
    Leads (· = cursor) simpleStatements fun found _ => ∃ statement ∈ found, property statement := by
  refine first.bind fun statement => ((leads_iterate
    (fun state _ => ∃ statement ∈ state.1, property statement)
    (fun state _ => ∃ statement ∈ state.1, property statement) fun state => leads_from ?_).weaken
      fun _ holds => ⟨statement, List.mem_singleton_self statement, holds⟩).bind fun _ =>
        leads_pure fun _ found => found
  rintro cursor' ⟨kept, member, holds⟩
  refine leads_ite (fun _ => leads_pure_from ⟨kept, member, holds⟩) fun _ =>
    leads_peek_from fun ahead _ => leads_ite (fun _ => leads_pure_from ⟨kept, member, holds⟩) fun _ =>
      leads_ite (fun _ => leads_pass_from (leads_peek_from fun next _ => ?_)) fun _ => leads_failure
  refine leads_ite (fun _ => leads_pure_from ⟨kept, member, holds⟩) fun _ => ?_
  exact Leads.bind (fun _ _ _ _ _ => trivial) fun another => leads_pure fun _ (_ : True) =>
    ⟨kept, List.mem_append_left _ member, holds⟩

/-- A line that begins with the field and an equals sign sets it. -/
theorem Derives.assignedIn_of_field (derives : Derives .line start found next)
    (text : start.lookahead.2 = "self.order = ".toList ++ tail) : assignedIn "order" found = true := by
  have lexeme : start.lookahead.1.lexeme = .word "self" := by
    change (Lexeme.read start.lookahead.2).1 = .word "self"
    rw [text]
    rfl
  have unheaded : ∀ word ∈ headKeywords, start.lookahead.1.lexeme ≠ .word word := by
    rintro word listed same
    rw [lexeme] at same
    cases same
    exact absurd listed (by decide)
  obtain ⟨present, read⟩ := derives.simpleStatements_of_lexeme unheaded (by simp [lexeme])
  have text' : start.settled.lookahead.2 = "self.order = ".toList ++ tail := by
    rw [Cursor.lookahead_settled present, text]
  obtain ⟨statement, member, sets⟩ :=
    leads_first (leads_field_simpleStatement tail text') _ _ _ rfl read
  exact assignedIn_of_mem member sets

/-- A docstring that a line begins with is a statement, and the next line comes behind it. -/
theorem Derives.lookahead_of_docstring {quote c : Char} {content trailing shown : List Char}
    (derives : Derives .line start found next) (docstring : IsDocstring quote content)
    (free : '\n' ∉ trailing) (idle : isIdle trailing = true) (blank : ∀ c ∈ indent, c = ' ' ∨ c = '\t')
    (visible : isGapChar c = false ∧ c ≠ '\n') (code : c ≠ '#') (plain : c ≠ '\\')
    (text : start.lookahead.2 = [quote, quote, quote] ++ content ++ [quote, quote, quote] ++ trailing ++
      '\n' :: indent ++ c :: shown) :
    next.lookahead.2 = c :: shown ∧ next.lookahead.1.column? = some (marginColumn indent) ∧
      next.blocks = start.blocks := by
  have lexeme : Lexeme.read start.lookahead.2 = (.stringStart (tripleForm quote false false),
      content ++ quote :: quote :: quote :: (trailing ++ '\n' :: indent ++ c :: shown)) := by
    rw [text]
    have quotes := docstring.quotes
    simp only [Source.isQuote, Bool.or_eq_true, decide_eq_true_eq] at quotes
    rcases quotes with rfl | rfl
    · simp [Lexeme.read, stringStart?, isStringFlag, tripleForm]
    · simp [Lexeme.read, stringStart?, isStringFlag, tripleForm]
  have opened : start.lookahead.1.lexeme = .stringStart (tripleForm quote false false) :=
    congrArg Prod.fst lexeme
  obtain ⟨present, read⟩ := derives.simpleStatements_of_lexeme (by simp [opened]) (by simp [opened])
  let behind : Cursor := ⟨trailing ++ '\n' :: (indent ++ c :: shown),
    start.lookahead.1.row + content.count '\n', start.blocks⟩
  obtain ⟨lexeme', -, column⟩ := @Cursor.lookahead_idle c behind [trailing] indent shown
    (by simp [behind]) (by simp) (by simp [free, idle]) blank visible code plain
  have literal (self : Nested) : Leads (· = start.settled.lookahead.1.after)
      (stringLiteral self (tripleForm quote false false)) fun _ next => next = behind := by
    have inside : start.settled.lookahead.1.after =
        ⟨content ++ quote :: quote :: quote :: (trailing ++ '\n' :: (indent ++ c :: shown)),
          start.lookahead.1.row, start.blocks⟩ := by
      rw [start.lookahead_settled_same.2.2]
      change Cursor.mk (Lexeme.read start.lookahead.2).2 start.lookahead.1.row start.blocks = _
      rw [lexeme]
      simp
    rw [inside]
    exact leads_stringLiteral_of_isDocstring docstring self false false _ _
  have settled := start.lookahead_settled_same.1.trans opened
  obtain rfl := leads_simpleStatements_of_string settled literal (Cursor.isBroken_of_column? column)
    _ _ _ rfl read
  exact ⟨lexeme', column, rfl⟩

/-- A block that begins with the statement, perhaps behind a docstring, sets the field. -/
theorem assignedIn_of_preamble {body : List Statement} (begins : IsPreamble indent preamble)
    (lines : Derives .lines start body last) (inside : start.Inside) (ended : ¬last.Inside)
    (level : start.indent = marginColumn indent) (blank : ∀ c ∈ indent, c = ' ' ∨ c = '\t')
    (text : start.lookahead.2 = preamble ++ ("self.order = ".toList ++ tail)) :
    assignedIn "order" body = true := by
  obtain ⟨first, others, between, rfl, line, rest⟩ := lines.first_of_inside inside ended
  rw [assignedIn_append, Bool.or_eq_true]
  cases begins with
  | none => exact .inl (line.assignedIn_of_field text)
  | docstring docstring free idle =>
    obtain ⟨text', column, blocks⟩ := line.lookahead_of_docstring docstring free idle blank
      (by decide : isGapChar 's' = false ∧ 's' ≠ '\n') (by decide) (by decide)
      (text.trans (by simp; rfl))
    have inside' : between.Inside := by
      intro column' here
      obtain rfl := Option.some.inj (here.symm.trans column)
      rw [Cursor.indent, blocks]
      exact Nat.le_of_eq level
    obtain ⟨second, others, between, rfl, line, -⟩ := rest.first_of_inside inside' ended
    rw [assignedIn_append, Bool.or_eq_true]
    exact .inr (.inl (line.assignedIn_of_field text'))

/-- **A line that assigns the field at the top of the body sets it,** also behind a docstring. -/
theorem FunctionBegun.assignedIn_of_header {text above margin head shown : List Char}
    {idles : List (List Char)} {c : Char} {function : FunctionInfo}
    (header : HasHeader text above margin head idles indent c shown)
    (begun : FunctionBegun text function) (row : function.row = above.count '\n')
    (begins : IsPreamble indent preamble)
    (first : c :: shown = preamble ++ ("self.order = ".toList ++ tail)) :
    assignedIn "order" function.body = true := by
  obtain ⟨start, last, text', inside, level, lines, ended⟩ := begun.exists_lines header row
  exact assignedIn_of_preamble begins lines inside ended level header.indented (text'.trans first)

end StrategyMend.Python
