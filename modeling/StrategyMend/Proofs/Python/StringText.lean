import StrategyMend.Proofs.Python.StatementStarts
import StrategyMend.Proofs.Source.Literals

/-!
# Strings of program text

The lexer finds the end of a string by its quotes and backslashes alone; the grammar also reads
expressions, names of characters and other escapes in it. Where none of these ends the string for the
lexer (`HasPlainStrings`), both come to the same end: behind a string the lexer is in program text again,
and no line of program text begins in the string (`Reader.leads_stringLiteral_code`).
-/

set_option autoImplicit false

namespace StrategyMend.Source

open Python

/-! ## The inside of a string -/

/-- A character that neither ends a string with the quote nor begins an escape. -/
def IsInert (quote c : Char) : Prop := c ≠ quote ∧ c ≠ '\\'

namespace Reading

/-- In front of `rest` this is inside of a string that its quote ends, or three of them. Where later
characters decide about it, they keep it open. -/
inductive IsInString (quote : Char) (rest : List Char) : (triple : Bool) → Reading → Prop where
  | opened (single : ¬[quote, quote] <+: rest) : IsInString quote rest false (.opened quote)
  | quoted : IsInString quote rest false (.quoted quote)
  | quotedEscape (inert : ∀ c ∈ rest.head?, IsInert quote c) :
    IsInString quote rest false (.quotedEscape quote)
  | tripleQuoted : IsInString quote rest true (.tripleQuoted quote 0)
  | quotedOnce (stays : ¬[quote, quote] <+: rest) : IsInString quote rest true (.tripleQuoted quote 1)
  | quotedTwice (stays : ¬[quote] <+: rest) : IsInString quote rest true (.tripleQuoted quote 2)
  | tripleQuotedEscape (inert : ∀ c ∈ rest.head?, IsInert quote c) :
    IsInString quote rest true (.tripleQuotedEscape quote)

/-- Behind a plain character of a string. -/
def inside (quote : Char) (triple : Bool) : Reading :=
  if triple then .tripleQuoted quote 0 else .quoted quote

/-- Right behind a backslash of a string. -/
def escape (quote : Char) (triple : Bool) : Reading :=
  if triple then .tripleQuotedEscape quote else .quotedEscape quote

variable {quote c : Char} {rest : List Char} {triple : Bool} {reading : Reading} {lexer : Lexer}

theorem isInString_inside (quote : Char) (rest : List Char) (triple : Bool) :
    IsInString quote rest triple (inside quote triple) := by
  cases triple with
  | false => exact .quoted
  | true => exact .tripleQuoted

theorem isInString_escape (inert : ∀ c ∈ rest.head?, IsInert quote c) (triple : Bool) :
    IsInString quote rest triple (escape quote triple) := by
  cases triple with
  | false => exact .quotedEscape inert
  | true => exact .tripleQuotedEscape inert

theorem isCode_escape (quote : Char) (triple : Bool) : (escape quote triple).isCode = false := by
  cases triple <;> rfl

theorem IsInString.isCode (here : IsInString quote rest triple reading) : reading.isCode = false := by
  cases here <;> rfl

/-- A string that one quote ends is a literal. -/
theorem IsInString.isLiteral (here : IsInString quote rest false reading) :
    reading.isLiteral = true := by
  cases here <;> rfl

end Reading

namespace Lexer

variable {quote c : Char} {rest : List Char} {triple : Bool} {lexer : Lexer} {depth : Nat}

/-- Only program text has brackets that count. -/
theorem depth_pass (hidden : lexer.reading.isCode = false) (brackets : lexer.depth = depth) (c : Char) :
    (lexer.pass c).depth = depth := by
  unfold pass
  split
  · simp [nextLine, brackets]
  · simp [step, hidden, brackets]

/-- A plain character is passed, a line break in a string with triple quotes only. -/
theorem reading_pass_inert (here : lexer.reading.IsInString quote (c :: rest) triple)
    (inert : IsInert quote c) (visible : c = '\n' → triple = true) :
    (lexer.pass c).reading = .inside quote triple := by
  obtain ⟨reading, depth⟩ := lexer
  by_cases newline : c = '\n'
  · obtain rfl := visible newline
    subst newline
    cases here <;> rfl
  · rw [pass_of_ne_newline newline]
    cases here <;> simp [step, Reading.next, Reading.within, Reading.inside, inert.1, inert.2]

/-- A backslash begins an escape. -/
theorem reading_pass_backslash (here : lexer.reading.IsInString quote ('\\' :: rest) triple)
    (other : quote ≠ '\\') : (lexer.pass '\\').reading = .escape quote triple := by
  obtain ⟨reading, depth⟩ := lexer
  rw [pass_of_ne_newline (by decide)]
  cases here with
  | quotedEscape inert => exact absurd rfl (inert '\\' rfl).2
  | tripleQuotedEscape inert => exact absurd rfl (inert '\\' rfl).2
  | _ => simp [step, Reading.next, Reading.within, Reading.escape, other.symm]

/-- What is escaped is passed. -/
theorem reading_pass_escaped (here : lexer.reading = .escape quote triple) (c : Char)
    (visible : c = '\n' → triple = true) : (lexer.pass c).reading = .inside quote triple := by
  obtain ⟨reading, depth⟩ := lexer
  obtain rfl : reading = _ := here
  by_cases newline : c = '\n'
  · obtain rfl := visible newline
    subst newline
    rfl
  · rw [pass_of_ne_newline newline]
    cases triple <;> rfl

/-- The quote ends a string that one quote ends. -/
theorem isInCode_pass_quote (here : lexer.reading.IsInString quote (quote :: rest) false)
    (quotes : isQuote quote = true) (brackets : lexer.depth = depth) :
    (lexer.pass quote).IsInCode depth rest := by
  obtain ⟨reading, depth⟩ := lexer
  obtain rfl : depth = _ := brackets
  have plain := ne_backslash_of_isQuote quotes
  have newline : quote ≠ '\n' := ne_newline (by decide) quotes
  rw [pass_of_ne_newline newline]
  cases here with
  | opened single =>
    rw [step_opened_quote]
    refine ⟨rfl, .inr ⟨quote, rfl, fun next => single ?_⟩⟩
    obtain ⟨more, rfl⟩ := List.head?_eq_some_iff.mp next
    exact ⟨more, rfl⟩
  | quoted =>
    rw [step_quoted_quote plain]
    exact isInCode_code _ _
  | quotedEscape inert => exact absurd rfl (inert quote rfl).1

/-- So do three quotes end one that three quotes end. -/
theorem pass_quotes (here : lexer.reading.IsInString quote (quote :: quote :: quote :: rest) true)
    (quotes : isQuote quote = true) (brackets : lexer.depth = depth) :
    (lexer.pass quote).reading = .tripleQuoted quote 1 ∧
      ((lexer.pass quote).pass quote).reading = .tripleQuoted quote 2 ∧
        ((lexer.pass quote).pass quote).pass quote = ⟨.code, depth⟩ := by
  obtain ⟨reading, depth⟩ := lexer
  obtain rfl : depth = _ := brackets
  have plain := ne_backslash_of_isQuote quotes
  have newline : quote ≠ '\n' := ne_newline (by decide) quotes
  simp only [pass_of_ne_newline newline]
  cases here with
  | tripleQuoted => simp [step_tripleQuoted_quote plain]
  | quotedOnce stays => exact absurd ⟨quote :: rest, rfl⟩ stays
  | quotedTwice stays => exact absurd ⟨quote :: quote :: rest, rfl⟩ stays
  | tripleQuotedEscape inert => exact absurd rfl (inert quote rfl).1

/-- A quote without two more does not end it. -/
theorem reading_pass_quote (here : lexer.reading.IsInString quote (quote :: rest) true)
    (quotes : isQuote quote = true) (single : ¬[quote, quote] <+: rest) :
    (lexer.pass quote).reading.IsInString quote rest true := by
  obtain ⟨reading, depth⟩ := lexer
  have plain := ne_backslash_of_isQuote quotes
  have newline : quote ≠ '\n' := ne_newline (by decide) quotes
  rw [pass_of_ne_newline newline]
  cases here with
  | tripleQuoted =>
    rw [step_tripleQuoted_quote plain]
    exact .quotedOnce single
  | quotedOnce stays =>
    rw [step_tripleQuoted_quote plain]
    exact .quotedTwice fun begins => stays ((List.prefix_cons_inj quote).mpr begins)
  | quotedTwice stays => exact absurd ⟨rest, rfl⟩ stays
  | tripleQuotedEscape inert => exact absurd rfl (inert quote rfl).1

end Lexer

end StrategyMend.Source

namespace StrategyMend.Python

open Source

/-! ## Strings of a text -/

/-- Inside of a string of the text, in front of `rest`: it was opened in program text, and the lexer has
not come to its end. -/
inductive InsideString (text : List Char) (form : StringForm) (rest : List Char) : Prop where
  | intro {before opening inside : List Char} {depth : Nat}
    (here : IsCodeAt text before depth (opening ++ (inside ++ rest)))
    (opened : stringStart? (opening ++ (inside ++ rest)) = some (form, inside ++ rest))
    (covered : ∀ front, front <+: inside →
      (lexerBehind (before ++ opening ++ front)).reading.isCode = false)

/-- Characters in front of `rest` that do not end a string: plain ones, escapes, and single quotes among
strings with triple quotes. -/
inductive Runs (form : StringForm) (rest : List Char) : List Char → Prop where
  | nil : Runs form rest []
  | inert {c : Char} {run : List Char} (inert : IsInert form.quote c) (more : Runs form rest run) :
    Runs form rest (c :: run)
  | escape {c : Char} {run : List Char} (more : Runs form rest run) : Runs form rest ('\\' :: c :: run)
  | quote {run : List Char} (triple : form.triple = true)
    (single : ¬[form.quote, form.quote] <+: run ++ rest) (more : Runs form rest run) :
    Runs form rest (form.quote :: run)

/-- Behind `past` the text goes on with program text, and no line of it begins on the way from `passed`. -/
structure GoesOn (text passed : List Char) (depth : Nat) (past rest : List Char) : Prop where
  code : IsCodeAt text past depth rest
  le : passed.length ≤ past.length
  quiet : ∀ above margin c shown, StatementStart text above margin c shown →
    passed.length < above.length → ¬above.length ≤ past.length
  colons : HasNoColon text passed past

/-- The beginning of two texts lies in the first one, or it goes on in the second one. -/
theorem prefix_append_cases {front first second : List Char} (begins : front <+: first ++ second) :
    front <+: first ∨ ∃ more, front = first ++ more ∧ more <+: second := by
  obtain ⟨left, same⟩ := begins
  rcases List.append_eq_append_iff.mp same with ⟨more, rfl, -⟩ | ⟨more, rfl, rfl⟩
  · exact .inl ⟨more, rfl⟩
  · exact .inr ⟨more, rfl, left, rfl⟩

theorem prefix_concat_append_cases {front first second : List Char} {c : Char}
    (begins : front ++ [c] <+: first ++ second) :
    c ∈ first ∨ ∃ more, front = first ++ more ∧ more ++ [c] <+: second := by
  rcases prefix_append_cases begins with inside | ⟨more, split, behind⟩
  · exact .inl (inside.subset (by simp))
  rcases List.eq_nil_or_concat more with rfl | ⟨more, last, rfl⟩
  · rw [List.append_nil] at split
    exact .inl (by simp [← split])
  · rw [List.concat_eq_append, ← List.append_assoc] at split
    obtain ⟨rfl, last⟩ := List.append_inj' split rfl
    rw [List.concat_eq_append, ← (List.cons.inj last).1] at behind
    exact .inr ⟨more, rfl, behind⟩

/-- No line of program text begins where no line break stands in program text. -/
theorem quiet_of_covered {text passed part rest : List Char} (same : text = passed ++ part ++ rest)
    (covered : ∀ front, front ++ ['\n'] <+: part →
      (lexerBehind (passed ++ (front ++ ['\n']))).reading.isCode = false)
    (above margin : List Char) (c : Char) (shown : List Char)
    (begun : StatementStart text above margin c shown) (later : passed.length < above.length) :
    ¬above.length ≤ (passed ++ part).length := by
  intro upTo
  have begins := prefix_of_length_le begun.line.text_eq same upTo
  rcases prefix_append_cases begins with short | ⟨more, rfl, inside⟩
  · exact absurd short.length_le (by omega)
  rcases begun.line.ends with none | ⟨top, ends⟩
  · rw [none] at later
    cases later
  rcases List.eq_nil_or_concat more with rfl | ⟨front, last, rfl⟩
  · simp at later
  rw [List.concat_eq_append, ← List.append_assoc] at ends
  obtain rfl : last = '\n' := (List.cons.inj (List.append_inj' ends rfl).2).1
  rw [List.concat_eq_append] at inside begun
  have hidden := covered front inside
  rw [begun.line.lexer] at hidden
  cases hidden

/-- Strings mean the same to the grammar and to a reader by quotes and backslashes. -/
structure HasPlainStrings (text : List Char) : Prop where
  /-- No string that one quote ends is open where a line ends. -/
  closed : ∀ top, top ++ ['\n'] <+: text → (lexerBehind top).reading.isLiteral = false
  /-- No string stands between grave accents. -/
  graves : ∀ passed depth rest, ¬IsCodeAt text passed depth ('\x60' :: rest)
  /-- What the grammar reads as interpolated does not end the string. -/
  fields : ∀ form rest, InsideString text form ('{' :: rest) → form.format = true →
    ∀ self, ReadsExpressions self → ∀ bound row blocks found next field,
      interpolation self bound ⟨rest, row, blocks⟩ = some (found, next) →
        rest = field ++ next.rest → Runs form next.rest field
  /-- Nor does the name of a character. -/
  names : ∀ form name rest, InsideString text form ('\\' :: 'N' :: '{' :: (name ++ '}' :: rest)) →
    form.raw = false → '}' ∉ name → Runs form rest (name ++ ['}'])
  /-- In bytes, nor does what stands behind the beginning of such a name. -/
  bytes : ∀ form c d rest, InsideString text form ('\\' :: c :: d :: rest) → form.raw = false →
    form.bytes = true → c = 'N' ∨ c = 'u' ∨ c = 'U' → Runs form rest [d]

variable {text before opening inside rest : List Char} {form : StringForm} {depth : Nat} {c : Char}

/-- The lexer is in a string that was opened behind `before`, and behind `inside` of it. -/
structure StringAt (text : List Char) (form : StringForm) (depth : Nat)
    (before opening inside rest : List Char) : Prop where
  code : IsCodeAt text before depth (opening ++ (inside ++ rest))
  opened : stringStart? (opening ++ (inside ++ rest)) = some (form, inside ++ rest)
  brackets : (lexerBehind (before ++ opening ++ inside)).depth = depth
  reading : (lexerBehind (before ++ opening ++ inside)).reading.IsInString form.quote rest form.triple
  covered : ∀ front, front <+: inside →
    (lexerBehind (before ++ opening ++ front)).reading.isCode = false

theorem lexerBehind_concat (passed : List Char) (c : Char) :
    lexerBehind (passed ++ [c]) = (lexerBehind passed).pass c :=
  lexerBehind_append passed [c]

namespace StringAt

/-- The quote is one of two. -/
theorem quotes (plain : HasPlainStrings text)
    (here : StringAt text form depth before opening inside rest) : isQuote form.quote = true := by
  obtain ⟨flags, quotes, same, letters, shape⟩ := stringStart?_eq_some here.opened
  rcases shape with ⟨-, -, rfl⟩ | ⟨quotes, -, -⟩ | ⟨quotes, -, -⟩
  · have flat : ∀ c ∈ flags, isPlainChar c = true := fun c member =>
      isPlainChar_of_isInner (isInner_of_accepts (by decide) (letters c member))
    have brackets : (depth : Int) + openBrackets flags = depth := by
      rw [openBrackets_eq_zero fun c member => bracketStep_eq_zero (by decide) (letters c member),
        Int.add_zero]
    have code := here.code
    rw [same] at code
    exact absurd (code.append flat brackets) (plain.graves _ _ _)
  · exact quotes
  · exact quotes

theorem insideString (here : StringAt text form depth before opening inside rest) :
    InsideString text form rest :=
  .intro here.code here.opened here.covered

/-- A line ends in strings with triple quotes only. -/
theorem triple_of_newline (plain : HasPlainStrings text)
    (here : StringAt text form depth before opening inside ('\n' :: rest)) : form.triple = true := by
  by_contra single
  have reading := here.reading
  rw [Bool.not_eq_true] at single
  rw [single] at reading
  have closed := plain.closed (before ++ opening ++ inside) ⟨rest, by simp [here.code.text_eq]⟩
  rw [reading.isLiteral] at closed
  cases closed

/-- One more character. -/
theorem pass (here : StringAt text form depth before opening inside (c :: rest))
    (reading : ((lexerBehind (before ++ opening ++ inside)).pass c).reading.IsInString form.quote rest
      form.triple) :
    StringAt text form depth before opening (inside ++ [c]) rest where
  code := by simpa using here.code
  opened := by simpa using here.opened
  brackets := by
    rw [← List.append_assoc, lexerBehind_concat]
    exact Lexer.depth_pass here.reading.isCode here.brackets c
  reading := by
    rw [← List.append_assoc, lexerBehind_concat]
    exact reading
  covered := by
    intro front begins
    rcases List.prefix_concat_iff.mp begins with rfl | shorter
    · rw [← List.append_assoc, lexerBehind_concat]
      exact reading.isCode
    · exact here.covered front shorter

/-- A plain one. -/
theorem inert (plain : HasPlainStrings text)
    (here : StringAt text form depth before opening inside (c :: rest)) (inert : IsInert form.quote c) :
    StringAt text form depth before opening (inside ++ [c]) rest := by
  refine here.pass ?_
  rw [Lexer.reading_pass_inert here.reading inert fun newline => triple_of_newline plain (newline ▸ here)]
  exact Reading.isInString_inside _ _ _

/-- A backslash that stands for itself. -/
theorem backslash (plain : HasPlainStrings text)
    (here : StringAt text form depth before opening inside ('\\' :: rest))
    (inert : ∀ c ∈ rest.head?, IsInert form.quote c) :
    StringAt text form depth before opening (inside ++ ['\\']) rest := by
  refine here.pass ?_
  rw [Lexer.reading_pass_backslash here.reading (ne_backslash_of_isQuote (here.quotes plain))]
  exact Reading.isInString_escape inert _

/-- A quote that does not end the string. -/
theorem quote (plain : HasPlainStrings text) (triple : form.triple = true)
    (single : ¬[form.quote, form.quote] <+: rest)
    (here : StringAt text form depth before opening inside (form.quote :: rest)) :
    StringAt text form depth before opening (inside ++ [form.quote]) rest := by
  have reading := here.reading
  rw [triple] at reading
  refine here.pass ?_
  rw [triple]
  exact Lexer.reading_pass_quote reading (here.quotes plain) single

/-- An escape of one character. -/
theorem escape (plain : HasPlainStrings text)
    (here : StringAt text form depth before opening inside ('\\' :: c :: rest)) :
    StringAt text form depth before opening (inside ++ ['\\', c]) rest := by
  have two : before ++ opening ++ (inside ++ ['\\', c]) =
      before ++ opening ++ inside ++ ['\\'] ++ [c] := by simp
  have first : (lexerBehind (before ++ opening ++ inside ++ ['\\'])).reading =
      .escape form.quote form.triple := by
    rw [lexerBehind_concat]
    exact Lexer.reading_pass_backslash here.reading (ne_backslash_of_isQuote (here.quotes plain))
  have brackets : (lexerBehind (before ++ opening ++ inside ++ ['\\'])).depth = depth := by
    rw [lexerBehind_concat]
    exact Lexer.depth_pass here.reading.isCode here.brackets _
  have visible : c = '\n' → form.triple = true := by
    rintro rfl
    by_contra single
    rw [Bool.not_eq_true] at single
    have closed := plain.closed (before ++ opening ++ inside ++ ['\\'])
      ⟨rest, by simp [here.code.text_eq]⟩
    rw [first, single] at closed
    cases closed
  have second : (lexerBehind (before ++ opening ++ (inside ++ ['\\', c]))).reading =
      .inside form.quote form.triple := by
    rw [two, lexerBehind_concat]
    exact Lexer.reading_pass_escaped first c visible
  refine ⟨by simpa using here.code, by simpa using here.opened, ?_, ?_, fun front begins => ?_⟩
  · rw [two, lexerBehind_concat]
    exact Lexer.depth_pass (first ▸ Reading.isCode_escape _ _) brackets c
  · rw [second]
    exact Reading.isInString_inside _ _ _
  · rw [show inside ++ ['\\', c] = (inside ++ ['\\']) ++ [c] by simp] at begins
    rcases List.prefix_concat_iff.mp begins with rfl | shorter
    · rw [show (inside ++ ['\\']) ++ [c] = inside ++ ['\\', c] by simp, second]
      exact (Reading.isInString_inside form.quote [] form.triple).isCode
    rcases List.prefix_concat_iff.mp shorter with rfl | shorter
    · rw [← List.append_assoc, first]
      exact Reading.isCode_escape _ _
    · exact here.covered front shorter

/-- Characters that do not end the string. -/
theorem runs (plain : HasPlainStrings text) {run : List Char} (runs : Runs form rest run)
    (here : StringAt text form depth before opening inside (run ++ rest)) :
    StringAt text form depth before opening (inside ++ run) rest := by
  induction runs generalizing inside with
  | nil => simpa using here
  | inert inert _ ih => simpa using ih (here.inert plain inert)
  | escape _ ih => simpa using ih (here.escape plain)
  | quote triple single _ ih => simpa using ih (here.quote plain triple single)

/-! ### The end of a string -/

/-- A string opens with letters and quotes. -/
theorem not_mem_opening (here : StringAt text form depth before opening inside rest) {c : Char}
    (other : (isStringFlag c || isQuote c || c == '\x60') = false) : c ∉ opening := by
  simp only [Bool.or_eq_false_iff, beq_eq_false_iff_ne, ne_eq] at other
  obtain ⟨flags, quotes, same, letters, shape⟩ := stringStart?_eq_some here.opened
  obtain rfl := List.append_cancel_right (same.trans (List.append_assoc flags quotes _).symm)
  have quote (quotes : isQuote form.quote = true) : c ≠ form.quote := by
    rintro rfl
    rw [other.1.2] at quotes
    cases quotes
  intro member
  rcases List.mem_append.mp member with flag | member
  · rw [letters c flag] at other
    cases other.1.1
  · rcases shape with ⟨-, -, rfl⟩ | ⟨quotes, -, rfl⟩ | ⟨quotes, -, rfl, -⟩
    · exact other.2 (List.mem_singleton.mp member)
    · simp [quote quotes] at member
    · simp [quote quotes] at member

/-- Behind the quotes that close a string the text goes on. -/
theorem goesOn {closing : List Char} {last : Char}
    (here : StringAt text form depth before opening inside (closing ++ last :: rest))
    (quote : isQuote last = true)
    (covered : ∀ front, front <+: closing →
      (lexerBehind (before ++ opening ++ inside ++ front)).reading.isCode = false)
    (code : (lexerBehind (before ++ opening ++ inside ++ closing ++ [last])).IsInCode depth rest) :
    GoesOn text before depth (before ++ opening ++ inside ++ closing ++ [last]) rest := by
  have newline : last ≠ '\n' := ne_newline (by decide) quote
  have solid : Text.isBlank last = false := isBlank_of_isQuote quote
  have whole : before ++ opening ++ inside ++ closing ++ [last] =
      before ++ (opening ++ (inside ++ (closing ++ [last]))) := by simp
  have same : text = before ++ (opening ++ (inside ++ (closing ++ [last]))) ++ rest := by
    simp [here.code.text_eq]
  refine ⟨⟨by rw [whole, same], code, not_endsJoined_concat (.inl solid) (ne_backslash_of_isQuote quote)⟩,
    by simp, ?_, ?_⟩
  all_goals rw [whole]
  rotate_left
  · refine hasNoColon_append (same.trans (List.append_assoc _ _ _)) fun front begins => ?_
    rcases prefix_concat_append_cases begins with first | ⟨more, rfl, behind⟩
    · exact absurd first (here.not_mem_opening (by decide))
    rw [← List.append_assoc]
    rcases prefix_append_cases ((List.prefix_append more [':']).trans behind) with
      second | ⟨others, rfl, -⟩
    · exact here.covered more second
    rw [List.append_assoc] at behind
    rw [← List.append_assoc]
    rcases List.prefix_concat_iff.mp ((List.prefix_append_right_inj inside).mp behind) with same | third
    · obtain ⟨rfl, -⟩ := List.append_inj' same rfl
      exact covered others (List.prefix_refl _)
    · exact covered others ((List.prefix_append others [':']).trans third)
  refine quiet_of_covered same fun front begins => ?_
  rcases prefix_append_cases begins with first | ⟨more, split, begins⟩
  · have member : '\n' ∈ opening := first.subset (by simp)
    exact absurd member (here.not_mem_opening (by decide))
  rw [split, ← List.append_assoc]
  rcases prefix_append_cases begins with second | ⟨others, rfl, begins'⟩
  · exact here.covered more second
  rw [← List.append_assoc]
  rcases List.prefix_concat_iff.mp begins' with rfl | third
  · rw [← List.append_assoc, ← List.append_assoc] at split
    have ends := (List.append_inj' split rfl).2
    exact absurd (List.cons.inj ends).1.symm newline
  · exact covered others third

/-- One quote closes a string. -/
theorem close (plain : HasPlainStrings text) (single : form.triple = false)
    (here : StringAt text form depth before opening inside (form.quote :: rest)) :
    ∃ past, GoesOn text before depth past rest := by
  have reading := here.reading
  rw [single] at reading
  refine ⟨_, @goesOn _ _ _ _ _ _ _ [] _ here (here.quotes plain) (fun front begins => ?_) ?_⟩
  · rw [List.prefix_nil.mp begins, List.append_nil]
    exact reading.isCode
  · rw [List.append_nil, lexerBehind_concat]
    exact Lexer.isInCode_pass_quote reading (here.quotes plain) here.brackets

/-- Three quotes close a string. -/
theorem closeTriple (plain : HasPlainStrings text) (triple : form.triple = true)
    (here : StringAt text form depth before opening inside
      (form.quote :: form.quote :: form.quote :: rest)) :
    ∃ past, GoesOn text before depth past rest := by
  have reading := here.reading
  rw [triple] at reading
  obtain ⟨first, second, third⟩ := Lexer.pass_quotes reading (here.quotes plain) here.brackets
  refine ⟨_, @goesOn _ _ _ _ _ _ _ [form.quote, form.quote] _ here (here.quotes plain)
    (fun front begins => ?_) ?_⟩
  · have one : lexerBehind (before ++ opening ++ inside ++ [form.quote]) = _ := lexerBehind_concat _ _
    rw [show [form.quote, form.quote] = [form.quote] ++ [form.quote] from rfl] at begins
    rcases List.prefix_concat_iff.mp begins with rfl | begins
    · rw [← List.append_assoc, lexerBehind_concat, one, second]
      rfl
    rcases List.prefix_concat_iff.mp (show front <+: [] ++ [form.quote] from begins) with rfl | none
    · rw [List.nil_append, one, first]
      rfl
    · rw [List.prefix_nil.mp none, List.append_nil]
      exact reading.isCode
  · have two : before ++ opening ++ inside ++ [form.quote, form.quote] ++ [form.quote] =
        before ++ opening ++ inside ++ [form.quote] ++ [form.quote] ++ [form.quote] := by simp
    rw [two, lexerBehind_concat, lexerBehind_concat, lexerBehind_concat, third]
    exact Lexer.isInCode_code _ _

end StringAt

/-! ### The beginning of a string -/

/-- Behind the opening of a string the lexer is in it. -/
theorem IsCodeAt.stringAt {shown after : List Char} (plain : HasPlainStrings text)
    (here : IsCodeAt text before depth shown) (opened : stringStart? shown = some (form, after)) :
    ∃ opening, StringAt text form depth before opening [] after := by
  obtain ⟨flags, quotes, same, letters, shape⟩ := stringStart?_eq_some opened
  have flat : ∀ c ∈ flags, isPlainChar c = true := fun c member =>
    isPlainChar_of_isInner (isInner_of_accepts (by decide) (letters c member))
  have brackets : (depth : Int) + openBrackets flags = depth := by
    rw [openBrackets_eq_zero fun c member => bracketStep_eq_zero (by decide) (letters c member),
      Int.add_zero]
  have behind : IsCodeAt text (before ++ flags) depth (quotes ++ after) :=
    (same ▸ here).append flat brackets
  subst same
  rcases shape with ⟨-, -, rfl⟩ | ⟨quote, triple, rfl⟩ | ⟨quote, triple, rfl, single⟩
  · exact absurd behind (plain.graves _ _ _)
  · have newline : form.quote ≠ '\n' := ne_newline (by decide) quote
    have lexer : lexerBehind (before ++ (flags ++ [form.quote, form.quote, form.quote]) ++ []) =
        ⟨.tripleQuoted form.quote 0, depth⟩ := by
      rw [List.append_nil, ← List.append_assoc, lexerBehind_append, behind.code.readText_eq (by simp)]
      simp only [Lexer.readText, List.foldl_cons, List.foldl_nil, Lexer.pass_of_ne_newline newline,
        Lexer.step_code_quote quote, Lexer.step_opened_quote, Lexer.step_openedTwice_quote quote]
    refine ⟨flags ++ [form.quote, form.quote, form.quote], by simpa using here, by simpa using opened,
      by rw [lexer], ?_, fun front begins => ?_⟩
    · rw [lexer, triple]
      exact .tripleQuoted
    · rw [List.prefix_nil.mp begins, lexer]
      rfl
  · have newline : form.quote ≠ '\n' := ne_newline (by decide) quote
    have lexer : lexerBehind (before ++ (flags ++ [form.quote]) ++ []) =
        ⟨.opened form.quote, depth⟩ := by
      rw [List.append_nil, ← List.append_assoc, lexerBehind_concat, behind.code.pass_eq,
        Lexer.pass_of_ne_newline newline, Lexer.step_code_quote quote]
    refine ⟨flags ++ [form.quote], by simpa using here, by simpa using opened, by rw [lexer], ?_,
      fun front begins => ?_⟩
    · rw [lexer, triple]
      exact .opened single
    · rw [List.prefix_nil.mp begins, lexer]
      rfl

/-! ## Reading a string -/

theorem isInert_of_isQuote {quote c : Char} (quotes : isQuote quote = true)
    (other : isQuote c = false ∧ c ≠ '\\') : IsInert quote c := by
  refine ⟨?_, other.2⟩
  rintro rfl
  rw [quotes] at other
  cases other.1

theorem runs_of_inert {run : List Char} (inert : ∀ c ∈ run, IsInert form.quote c) :
    Runs form rest run := by
  induction run with
  | nil => exact .nil
  | cons c run ih =>
    exact .inert (inert c List.mem_cons_self) (ih fun d member => inert d (.tail _ member))

/-- A character that is accepted where no quote and no backslash is. -/
theorem isInert_of_accepts {accepts : Char → Bool} {quote c : Char} (quotes : isQuote quote = true)
    (refuses : (['"', '\'', '\\'].all fun d => !accepts d) = true) (accepted : accepts c = true) :
    IsInert quote c := by
  have other (d : Char) (listed : d ∈ ['"', '\'', '\\']) : c ≠ d := by
    rintro rfl
    have refused := List.all_eq_true.mp refuses c listed
    rw [accepted] at refused
    cases refused
  refine isInert_of_isQuote quotes ⟨?_, other _ (by simp)⟩
  simp [isQuote, other]

theorem inert_of_beginsWithHex {count : Nat} {quote : Char} (quotes : isQuote quote = true)
    {shown : List Char} (hex : beginsWithHex count shown = true) :
    ∀ c ∈ shown.take count, IsInert quote c := by
  intro c member
  have digit := List.all_eq_true.mp (Bool.and_eq_true_iff.mp hex).2 c member
  exact @isInert_of_accepts
    (fun c => c.isDigit || ('a' ≤ c && c ≤ 'f') || ('A' ≤ c && c ≤ 'F')) _ _ quotes (by decide) digit

/-- An escape is one character and perhaps others that are neither the quote nor backslashes, or it
names a character. -/
theorem escapeLength_cases {quote : Char} (quotes : isQuote quote = true) {shown : List Char}
    {length rows : Nat} (escape : escapeLength shown = some (length, rows)) :
    (∃ c run, shown.take length = c :: run ∧ ∀ d ∈ run, IsInert quote d) ∨
      ∃ name rest, shown = 'N' :: '{' :: (name ++ '}' :: rest) ∧ '}' ∉ name ∧
        length = name.length + 3 := by
  unfold escapeLength at escape
  split at escape
  · cases escape
    exact .inl ⟨'\n', [], rfl, by simp⟩
  · cases escape
    refine .inl ⟨'\r', ['\n'], rfl, fun d member => ?_⟩
    obtain rfl := List.mem_singleton.mp member
    exact isInert_of_isQuote quotes (by decide)
  · rename_i text
    obtain ⟨closed, same⟩ := Option.ite_none_right_eq_some.mp escape
    cases same
    refine .inr ?_
    have shorter : (text.takeWhile (· ≠ '}')).length < text.length := by
      simpa using (Bool.and_eq_true_iff.mp closed).2
    have parts : text.takeWhile (· ≠ '}') ++ text.dropWhile (· ≠ '}') = text :=
      List.takeWhile_append_dropWhile
    have brace := List.head?_dropWhile_not (· ≠ '}') text
    have free : '}' ∉ text.takeWhile (· ≠ '}') := fun member => by
      simpa using List.mem_takeWhile_imp member
    generalize text.takeWhile (· ≠ '}') = name at *
    cases rest : text.dropWhile (· ≠ '}') with
    | nil =>
      rw [rest, List.append_nil] at parts
      rw [parts] at shorter
      exact absurd shorter (Nat.lt_irrefl _)
    | cons c more =>
      rw [rest] at brace
      obtain rfl : c = '}' := by simpa using brace
      exact ⟨name, more, by rw [← parts, rest], free, rfl⟩
  · rename_i c rest plain _ _
    refine .inl ?_
    split at escape
    · cases escape
      exact ⟨c, [], rfl, by simp⟩
    split at escape
    · rename_i hex
      cases escape
      exact ⟨c, rest.take 4, rfl, inert_of_beginsWithHex quotes (Bool.and_eq_true_iff.mp hex).2⟩
    split at escape
    · rename_i hex
      cases escape
      exact ⟨c, rest.take 8, rfl, inert_of_beginsWithHex quotes (Bool.and_eq_true_iff.mp hex).2⟩
    split at escape
    · rename_i hex
      cases escape
      exact ⟨c, rest.take 2, rfl, inert_of_beginsWithHex quotes (Bool.and_eq_true_iff.mp hex).2⟩
    split at escape
    · rename_i digit
      cases escape
      have front := List.prefix_iff_eq_take.mp
        ((List.takeWhile_prefix Char.isDigit).trans (List.take_prefix 3 (c :: rest)))
      refine ⟨c, (rest.take 2).takeWhile Char.isDigit, ?_, fun d member => ?_⟩
      · rw [← front, List.take_succ_cons, List.takeWhile_cons_of_pos digit]
      · exact isInert_of_accepts quotes (by decide) (List.mem_takeWhile_imp member)
    · cases escape
  · cases escape

/-- What a backslash does not escape neither ends the string nor begins an escape. -/
theorem isInert_of_escapeLength {quote c : Char} (quotes : isQuote quote = true) {rest : List Char}
    (none : escapeLength (c :: rest) = none) : IsInert quote c := by
  refine isInert_of_isQuote quotes ⟨?_, ?_⟩
  · rw [← Bool.not_eq_true]
    intro quoted
    simp only [isQuote, Bool.or_eq_true, decide_eq_true_eq] at quoted
    rcases quoted with rfl | rfl
    · cases none
    · cases none
  · rintro rfl
    cases none

namespace Reader

variable {cursor : Cursor} {chars : List Char}

/-- The cursor is inside of the string. -/
def InString (text : List Char) (form : StringForm) (depth : Nat) (before opening : List Char)
    (cursor : Cursor) : Prop :=
  ∃ inside, StringAt text form depth before opening inside cursor.rest

/-- Characters that do not end the string are passed. -/
theorem leads_advanceRows_runs (plain : HasPlainStrings text)
    (here : InString text form depth before opening cursor) {count : Nat} (rows : Nat)
    (runs : Runs form (cursor.rest.drop count) (cursor.rest.take count)) :
    Leads (· = cursor) (advanceRows count rows) fun _ => InString text form depth before opening := by
  obtain ⟨inside, here⟩ := here
  rw [← List.take_append_drop count cursor.rest] at here
  have passed := here.runs plain runs
  rintro _ result next rfl read
  cases read
  exact ⟨_, passed⟩

theorem leads_advance_runs (plain : HasPlainStrings text)
    (here : InString text form depth before opening cursor) {count : Nat}
    (runs : Runs form (cursor.rest.drop count) (cursor.rest.take count)) :
    Leads (· = cursor) (advance count) fun _ => InString text form depth before opening :=
  leads_advanceRows_runs plain here 0 runs

/-- A backslash that protects nothing is passed. -/
theorem leads_advance_backslash (plain : HasPlainStrings text)
    (here : InString text form depth before opening cursor) (shown : cursor.rest = '\\' :: chars)
    (inert : ∀ c ∈ chars.head?, IsInert form.quote c) :
    Leads (· = cursor) (advance 1) fun _ => InString text form depth before opening := by
  rintro _ result next rfl read
  cases read
  obtain ⟨inside, here⟩ := here
  rw [shown] at here
  refine ⟨inside ++ ['\\'], ?_⟩
  simpa [shown] using here.backslash plain inert

/-- A backslash of a raw string is passed, with what it protects and a line break behind that. -/
theorem leads_passRawEscape_runs (plain : HasPlainStrings text)
    (here : InString text form depth before opening cursor) (quotes : isQuote form.quote = true)
    (shown : cursor.rest = '\\' :: chars) :
    Leads (· = cursor) (passRawEscape form.quote chars) fun _ =>
      InString text form depth before opening := by
  have newline : IsInert form.quote '\n' := isInert_of_isQuote quotes (by decide)
  have return_ : IsInert form.quote '\r' := isInert_of_isQuote quotes (by decide)
  unfold passRawEscape
  split
  · rename_i c rest
    by_cases delimiter : c = form.quote || c = '\\'
    · simp only [delimiter, if_true]
      split
      · exact leads_advanceRows_runs plain here 1 (by rw [shown]; exact .escape (.inert newline .nil))
      · exact leads_advanceRows_runs plain here 1
          (by rw [shown]; exact .escape (.inert return_ (.inert newline .nil)))
      · exact leads_advance_runs plain here (by rw [shown]; exact .escape (.inert return_ .nil))
      · exact leads_advance_runs plain here (by rw [shown]; exact .escape .nil)
    · have inert : IsInert form.quote c := by simpa [IsInert] using delimiter
      simp only [delimiter]
      split
      · rename_i same
        cases same
        exact leads_advanceRows_runs plain here 1 (by rw [shown]; exact .escape .nil)
      · rename_i same
        cases same
        exact leads_advanceRows_runs plain here 1
          (by rw [shown]; exact .escape (.inert newline .nil))
      · rename_i same
        cases same
        exact leads_advance_runs plain here (by rw [shown]; exact .escape .nil)
      · exact leads_advance_backslash plain here shown fun d head => by
          obtain rfl := Option.some.inj head
          exact inert
  · exact leads_advance_backslash plain here shown nofun

/-- An escape is passed. -/
theorem leads_advanceRows_escape (plain : HasPlainStrings text)
    (here : InString text form depth before opening cursor) (quotes : isQuote form.quote = true)
    (raw : form.raw = false) (shown : cursor.rest = '\\' :: chars) {length rows : Nat}
    (escape : escapeLength chars = some (length, rows)) :
    Leads (· = cursor) (advanceRows (length + 1) rows) fun _ =>
      InString text form depth before opening := by
  rcases escapeLength_cases quotes escape with ⟨c, run, taken, inert⟩ | ⟨name, rest, rfl, free, rfl⟩
  · refine leads_advanceRows_runs plain here rows ?_
    rw [shown, List.take_succ_cons, taken]
    exact .escape (runs_of_inert inert)
  · -- The name of a character is passed with its braces.
    obtain ⟨inside, here⟩ := here
    rw [shown] at here
    have spelled := plain.names form name rest here.insideString raw free
    have brace : IsInert form.quote '{' := isInert_of_isQuote quotes (by decide)
    have opened := (here.escape plain).inert plain brace
    rw [show name ++ '}' :: rest = (name ++ ['}']) ++ rest by simp] at opened
    have named := opened.runs plain spelled
    have left : cursor.rest.drop (name.length + 3 + 1) = rest := by simp [shown]
    rw [← left] at named
    rintro _ result next rfl read
    cases read
    exact ⟨_, named⟩

/-- What is interpolated is passed. -/
theorem leads_interpolation_field (plain : HasPlainStrings text) {self : Nested}
    (nested : ReadsExpressions self) (bound : Nat)
    (here : InString text form depth before opening cursor) (quotes : isQuote form.quote = true)
    (format : form.format = true) (shown : cursor.rest = '{' :: chars) :
    Leads (· = ⟨chars, cursor.row, cursor.blocks⟩) (interpolation self bound) fun _ =>
      InString text form depth before opening := by
  obtain ⟨inside, here⟩ := here
  rw [shown] at here
  have opened := here.inert plain (isInert_of_isQuote quotes (by decide))
  rintro _ found next rfl read
  have blocks : (Track.inBlocks cursor.blocks chars).On 1 ⟨chars, cursor.row, cursor.blocks⟩ :=
    ⟨rfl, List.suffix_refl _⟩
  have nests : (Track.inBlocks cursor.blocks chars).Nests self :=
    Track.nests_of_reads Track.readsStrings_inBlocks nested
  obtain ⟨-, front, same⟩ := Track.leads_interpolation nests bound _ found next blocks read
  have whole : chars = (front ++ ['}']) ++ next.rest := by simp [← same]
  have runs := plain.fields form chars here.insideString format self nested bound cursor.row
    cursor.blocks found next (front ++ ['}']) read whole
  rw [whole] at opened
  exact ⟨_, opened.runs plain runs⟩

/-- Where a string is being read: in it, or behind its end. -/
def ReadsOn (text : List Char) (form : StringForm) (depth : Nat) (before opening : List Char)
    (state : StringState) (cursor : Cursor) : Prop :=
  if state.closed then ∃ past, GoesOn text before depth past cursor.rest
  else InString text form depth before opening cursor

theorem ReadsOn.closed {state : StringState} {cursor : Cursor} (closed : state.closed = true)
    (reads : ReadsOn text form depth before opening state cursor) :
    ∃ past, GoesOn text before depth past cursor.rest := by
  rwa [ReadsOn, if_pos closed] at reads

/-- Where a string is being read behind a piece of it. Without another one, it has ended. -/
def ReadsPiece (text : List Char) (form : StringForm) (depth : Nat) (before opening : List Char)
    (next : Option StringState) (cursor : Cursor) : Prop :=
  next.elim (∃ past, GoesOn text before depth past cursor.rest) fun state =>
    ReadsOn text form depth before opening state cursor

variable {state : StringState}

/-- A piece that stays in the string leads on in it. -/
theorem leads_piece {α : Type} {front : Cursor → Prop} {passes : Reader α} {next : α → StringState}
    (opened : ∀ result, (next result).closed = false)
    (leads : Leads front passes fun _ => InString text form depth before opening) :
    Leads front (passes >>= fun result => pure (some (next result)))
      (ReadsPiece text form depth before opening) := by
  refine leads.bind fun result => leads_pure fun _ inside => ?_
  rwa [ReadsPiece, Option.elim_some, ReadsOn, opened, if_neg Bool.false_ne_true]

/-- In bytes, what stands behind the beginning of a name is passed with it. -/
theorem runs_of_bytes (plain : HasPlainStrings text)
    (here : InString text form depth before opening cursor) (raw : form.raw = false)
    (shown : cursor.rest = '\\' :: chars)
    (bytes : (form.bytes && chars.head?.any fun d => d = 'N' || d = 'u' || d = 'U') = true) :
    Runs form (cursor.rest.drop 3) (cursor.rest.take 3) := by
  obtain ⟨isBytes, named⟩ := Bool.and_eq_true_iff.mp bytes
  obtain ⟨c, head, letter⟩ := (Option.any_eq_true _ _).mp named
  obtain ⟨more, rfl⟩ := List.head?_eq_some_iff.mp head
  rw [shown]
  cases more with
  | nil => exact .escape .nil
  | cons d more =>
    obtain ⟨inside, here⟩ := here
    rw [shown] at here
    refine .escape ?_
    exact plain.bytes form c d more here.insideString raw isBytes (by simpa [or_assoc] using letter)

/-- A quote ends the string, or two more do; otherwise it is passed. -/
theorem leads_quotePiece (plain : HasPlainStrings text) (opened : state.closed = false)
    (here : InString text form depth before opening cursor) (shown : cursor.rest = form.quote :: chars) :
    Leads (· = cursor)
      (if form.triple = true then
        if chars.take 2 = [form.quote, form.quote] then do
          advance 3
          pure (some { state with closed := true })
        else do
          advance 1
          pure (some { state with filled := true })
      else do
        advance 1
        pure (some { state with closed := true }))
      (ReadsPiece text form depth before opening) := by
  have closes (count : Nat)
      (goesOn : ∃ past, GoesOn text before depth past ((form.quote :: chars).drop count)) :
      Leads (· = cursor) (advance count >>= fun _ => pure (some { state with closed := true }))
        (ReadsPiece text form depth before opening) := by
    rintro _ result next rfl read
    cases read
    rw [ReadsPiece, Option.elim_some, ReadsOn, if_pos rfl]
    simpa only [shown] using goesOn
  obtain ⟨inside, inString⟩ := here
  rw [shown] at inString
  refine leads_ite (fun triple => leads_ite (fun quoted => closes 3 ?_) fun more => ?_) fun single =>
    closes 1 (inString.close plain (by simpa using single))
  · obtain ⟨rest, rfl⟩ : [form.quote, form.quote] <+: chars := quoted ▸ List.take_prefix 2 chars
    exact inString.closeTriple plain triple
  · have single : ¬[form.quote, form.quote] <+: chars := fun begins =>
      more (List.prefix_iff_eq_take.mp begins).symm
    have runs : Runs form (cursor.rest.drop 1) (cursor.rest.take 1) := by
      rw [shown]
      exact .quote triple single .nil
    exact leads_piece (fun _ => opened)
      (leads_advance_runs plain ⟨inside, shown.symm ▸ inString⟩ runs)

/-- Each piece of a string leads on in it or behind its end. -/
theorem leads_stringPiece_text (plain : HasPlainStrings text) {self : Nested}
    (nested : ReadsExpressions self) (bound : Nat) (state : StringState) :
    Leads (ReadsOn text form depth before opening state)
      (stringPiece (interpolation self bound) form state)
      (ReadsPiece text form depth before opening) := by
  refine leads_from fun cursor here => leads_ite (fun closed => leads_pure_from (here.closed closed))
    fun opened => leads_get_from ?_
  rw [ReadsOn, if_neg opened] at here
  rw [Bool.not_eq_true] at opened
  have quotes : isQuote form.quote = true := here.elim fun _ here => here.quotes plain
  split
  · exact leads_failure
  rename_i c chars shown
  have run (count : Nat) (runs : Runs form ((c :: chars).drop count) ((c :: chars).take count)) :
      Leads (· = cursor) (advance count) fun _ => InString text form depth before opening :=
    leads_advance_runs plain here (by rwa [shown])
  have brace : IsInert form.quote '{' := isInert_of_isQuote quotes (by decide)
  have brace' : IsInert form.quote '}' := isInert_of_isQuote quotes (by decide)
  refine leads_ite (fun begins => ?_) fun _ => leads_ite (fun ends => ?_) fun _ =>
    leads_ite (fun backslash => ?_) fun visible => leads_ite (fun quote => ?_) fun other =>
      leads_ite (fun newline => ?_) fun _ => leads_ite (fun _ => leads_failure) fun _ => ?_
  · obtain ⟨format, rfl⟩ : form.format = true ∧ c = '{' := by simpa using begins
    refine leads_ite (fun doubled => ?_) fun _ => ?_
    · obtain ⟨more, rfl⟩ := List.head?_eq_some_iff.mp doubled
      exact leads_piece (fun _ => opened) (run 2 (.inert brace (.inert brace .nil)))
    · have opens : Leads (· = cursor) (advance 1) fun _ next =>
          next = ⟨chars, cursor.row, cursor.blocks⟩ := by
        rintro _ result next rfl read
        cases read
        simp [shown]
      exact opens.bind fun _ => leads_piece (fun _ => opened)
        (leads_interpolation_field plain nested bound here quotes format shown)
  · obtain ⟨format, rfl⟩ : form.format = true ∧ c = '}' := by simpa using ends
    refine leads_ite (fun doubled => ?_) fun _ => leads_failure
    obtain ⟨more, rfl⟩ := List.head?_eq_some_iff.mp doubled
    exact leads_piece (fun _ => opened) (run 2 (.inert brace' (.inert brace' .nil)))
  · subst backslash
    refine leads_ite (fun _ => ?_) fun cooked => leads_ite (fun bytes => ?_) fun _ => ?_
    · exact leads_piece (fun _ => opened) (leads_passRawEscape_runs plain here quotes shown)
    · exact leads_piece (fun _ => opened) (leads_advanceRows_runs plain here _
        (runs_of_bytes plain here (by simpa using cooked) shown bytes))
    · split
      · rename_i length rows escape
        exact leads_piece (fun _ => opened)
          (leads_advanceRows_escape plain here quotes (by simpa using cooked) shown escape)
      · rename_i none
        refine leads_piece (fun _ => opened) (leads_advance_backslash plain here shown fun d head => ?_)
        obtain ⟨more, rfl⟩ := List.head?_eq_some_iff.mp head
        exact isInert_of_escapeLength quotes none
  · subst quote
    exact leads_quotePiece plain opened here shown
  · subst newline
    refine leads_ite (fun _ => leads_failure) fun _ => ?_
    refine leads_piece (fun _ => opened) (leads_advanceRows_runs plain here 1 ?_)
    rw [shown]
    exact .inert ⟨other, visible⟩ .nil
  · exact leads_piece (fun _ => opened) (run 1 (.inert ⟨other, visible⟩ .nil))

/-- **Behind a string the lexer is in program text again.** -/
theorem leads_stringLiteral_code (plain : HasPlainStrings text) {self : Nested}
    (nested : ReadsExpressions self) {shown after : List Char}
    (code : IsCodeAt text before depth shown) (opened : stringStart? shown = some (form, after)) :
    Leads (fun cursor => cursor.rest = after) (stringLiteral self form) fun _ cursor =>
      ∃ past, GoesOn text before depth past cursor.rest := by
  obtain ⟨opening, inside⟩ := code.stringAt plain opened
  refine leads_from fun cursor here => leads_get_from (Leads.bind ((leads_iterate
    (ReadsOn text form depth before opening)
    (fun _ cursor => ∃ past, GoesOn text before depth past cursor.rest) fun state =>
      leads_stringPiece_text plain nested _ state).weaken ?_) fun _ => leads_pure fun _ goesOn => goesOn)
  rintro _ rfl
  exact ⟨[], here ▸ inside⟩

end Reader

end StrategyMend.Python
