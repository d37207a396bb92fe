import StrategyMend.Proofs.Source.Header
import StrategyMend.Proofs.Source.Lexer

/-!
# What stands inside of strings

A literal is a string that one quote opens and ends, be it on its line or, behind a backslash at the
end of the line, on a later one. `maskLiterals` writes an `x` for each character strictly inside of a
literal, except for the backslashes that continue it.

The scanner knows no string that goes on in the next line: there it starts in program text, while the
lexer is still in the literal. On the lines on which the two start alike, whatever stands in literals
does not matter; on the others, what does not matter is any character but brackets, quotes and `#`.
So the marks are those of the masked lines if no such character stands in a literal on a line on
which the scanner starts out of step (`statementStarts_maskLiterals`).

On a line that continues a literal, a bracket in it counts, and hides the lines below
(`bracketInContinuedLiteral_hidesLines`).
-/

set_option autoImplicit false

namespace StrategyMend.Source

open Text

/-! ## Literals -/

namespace Reading

/-- The quote that matters to what is read. -/
def quote? : Reading → Option Char
  | .code => none
  | .comment => none
  | .opened quote => some quote
  | .openedTwice quote => some quote
  | .quoted quote => some quote
  | .quotedEscape quote => some quote
  | .tripleQuoted quote _ => some quote
  | .tripleQuotedEscape quote => some quote

/-- What opened a string is a quote. -/
def IsSound (reading : Reading) : Prop := ∀ quote, reading.quote? = some quote → isQuote quote = true

/-- The inside of a literal, where a quote ends it. -/
def isOpenLiteral : Reading → Bool
  | .opened _ => true
  | .quoted _ => true
  | _ => false

/-- Right behind a backslash in a string. -/
def isEscape : Reading → Bool
  | .quotedEscape _ => true
  | .tripleQuotedEscape _ => true
  | _ => false

/-- Right behind a backslash in a literal. -/
def isLiteralEscape : Reading → Bool
  | .quotedEscape _ => true
  | _ => false

/-- The inside of a literal. -/
def isLiteral (reading : Reading) : Bool := reading.isOpenLiteral || reading.isLiteralEscape

/-- Whether a character in front of `rest` stays when literals are masked: it stands outside of them,
ends one, or is the backslash at the end of the line that continues one. -/
def keeps (reading : Reading) (c : Char) (rest : List Char) : Bool :=
  !reading.isLiteral || !(reading.next c).isLiteral ||
    ((reading.next c).isLiteralEscape && rest.isEmpty)

end Reading

/-- Whether each literal ends on its line. -/
def closesLiterals : Lexer → List String → Bool
  | _, [] => true
  | lexer, line :: rest =>
    !(lexer.read line.toList).reading.isLiteral && closesLiterals (lexer.afterLine line) rest

/-- The characters of a line with an `x` for each that stands inside of a literal. -/
def maskChars : Reading → List Char → List Char
  | _, [] => []
  | reading, c :: rest =>
    (if reading.keeps c rest then c else 'x') :: maskChars (reading.next c) rest

/-- The lines behind what the lexer has read, with an `x` for each character inside of a literal. -/
def maskLines : Lexer → List String → List String
  | _, [] => []
  | lexer, line :: rest =>
    String.ofList (maskChars lexer.reading line.toList) :: maskLines (lexer.afterLine line) rest

/-- The lines with an `x` for each character inside of a literal. -/
def maskLiterals (lines : List String) : List String := maskLines .start lines

/-- Whether each literal ends on its line or is continued by a backslash at the very end of it. -/
def endsLiterals : Lexer → List String → Bool
  | _, [] => true
  | lexer, line :: rest =>
    !(lexer.read line.toList).reading.isOpenLiteral && endsLiterals (lexer.afterLine line) rest

/-- Whether no bracket, quote or `#` stands inside of a literal on a line. -/
def hasPlainLiterals : Reading → List Char → Bool
  | _, [] => true
  | reading, c :: rest =>
    (!reading.isLiteral || !(reading.next c).isLiteral || isPlain c) &&
      hasPlainLiterals (reading.next c) rest

/-- Whether no bracket, quote or `#` stands inside of a literal on a line on which the scanner starts
other than the lexer. -/
def followsLiterals : Carry → Lexer → List String → Bool
  | _, _, [] => true
  | carry, lexer, line :: rest =>
    (carry.lexer.reading = lexer.reading || hasPlainLiterals lexer.reading line.toList) &&
      followsLiterals (carry.after line) (lexer.afterLine line) rest

/-! ## Quotes are quotes -/

namespace Reading

/-- A quote that matters next mattered before, or is the character that was read. -/
theorem quote?_next {reading : Reading} {c quote : Char}
    (found : (reading.next c).quote? = some quote) :
    reading.quote? = some quote ∨ (isQuote c = true ∧ quote = c) := by
  have begins (begun : (begun c).quote? = some quote) : isQuote c = true ∧ quote = c := by
    unfold Reading.begun at begun
    split at begun
    · cases begun
    · split at begun
      · next quotes => exact ⟨quotes, (Option.some.inj begun).symm⟩
      · cases begun
  have inside {other : Char} (within : (within other c).quote? = some quote) : other = quote := by
    unfold Reading.within at within
    split at within
    · exact Option.some.inj within
    · split at within
      · cases within
      · exact Option.some.inj within
  cases reading with
  | code => exact .inr (begins found)
  | comment => cases found
  | opened other => grind [Reading.next, quote?]
  | openedTwice other => grind [Reading.next, quote?]
  | quoted other => exact .inl (congrArg some (inside found))
  | quotedEscape other => exact .inl found
  | tripleQuoted other closing => grind [Reading.next, quote?]
  | tripleQuotedEscape other => exact .inl found

theorem IsSound.next {reading : Reading} (sound : reading.IsSound) (c : Char) :
    (reading.next c).IsSound := by
  intro quote found
  rcases quote?_next found with before | ⟨quotes, rfl⟩
  · exact sound quote before
  · exact quotes

theorem IsSound.nextLine {reading : Reading} (sound : reading.IsSound) :
    reading.nextLine.IsSound := by
  intro quote found
  cases reading <;> cases found <;> exact sound quote rfl

end Reading

namespace Lexer

/-- A lexer all of whose quotes are quotes. -/
def IsSound (lexer : Lexer) : Prop := lexer.reading.IsSound

theorem IsSound.step {lexer : Lexer} (sound : lexer.IsSound) (c : Char) :
    (lexer.step c).IsSound :=
  Reading.IsSound.next sound c

theorem IsSound.read {lexer : Lexer} (sound : lexer.IsSound) (cs : List Char) :
    (lexer.read cs).IsSound := by
  induction cs generalizing lexer with
  | nil => exact sound
  | cons c rest ih => exact ih (sound.step c)

theorem IsSound.afterLine {lexer : Lexer} (sound : lexer.IsSound) (line : String) :
    (lexer.afterLine line).IsSound :=
  Reading.IsSound.nextLine (sound.read line.toList)

end Lexer

/-! ## Characters that nothing depends on -/

namespace Reading

/-- What follows a character that nothing depends on. -/
def passed : Reading → Reading
  | .code => .code
  | .comment => .comment
  | .opened quote => .quoted quote
  | .openedTwice _ => .code
  | .quoted quote => .quoted quote
  | .quotedEscape quote => .quoted quote
  | .tripleQuoted quote _ => .tripleQuoted quote 0
  | .tripleQuotedEscape quote => .tripleQuoted quote 0

theorem isEscape_passed (reading : Reading) : reading.passed.isEscape = false := by
  cases reading <;> rfl

/-- A character that is no quote, bracket or `#` matters only as a backslash in a string. -/
theorem next_eq_passed {reading : Reading} (sound : reading.IsSound) {c : Char}
    (plain : isPlain c = true) (solid : c ≠ '\\' ∨ reading.mode = .code) :
    reading.next c = reading.passed := by
  simp only [isPlain, Bool.and_eq_true, decide_eq_true_eq, Bool.not_eq_true'] at plain
  have other : reading.quote? ≠ some c := by
    intro found
    rw [sound c found] at plain
    cases plain.1.2
  have begins : begun c = .code := by
    simp [begun, plain]
  cases reading with
  | code => exact begins
  | comment => rfl
  | openedTwice quote => grind [next, passed, quote?]
  | quotedEscape quote => rfl
  | tripleQuotedEscape quote => rfl
  | _ => grind [next, within, passed, quote?, mode]

/-- In a literal, only the quote that ends it and a backslash matter. -/
theorem next_eq_passed_of_isLiteral {reading : Reading} {c : Char}
    (stays : (reading.next c).isLiteral = true)
    (solid : (reading.isOpenLiteral = true ∧ c ≠ '\\') ∨ reading.isLiteralEscape = true) :
    reading.next c = reading.passed := by
  cases reading with
  | quotedEscape quote => rfl
  | opened quote => grind [next, within, passed, isLiteral, isOpenLiteral, isLiteralEscape]
  | quoted quote => grind [next, within, passed, isLiteral, isOpenLiteral, isLiteralEscape]
  | _ => grind [isOpenLiteral, isLiteralEscape]

/-- A backslash that does not end a literal is followed by a character of it. -/
theorem exists_next_backslash {reading : Reading} (opened : reading.isOpenLiteral = true)
    (stays : (reading.next '\\').isLiteral = true) :
    ∃ place, reading.next '\\' = .quotedEscape place := by
  cases reading with
  | opened quote => grind [next, within, isLiteral, isOpenLiteral, isLiteralEscape]
  | quoted quote => exact ⟨quote, rfl⟩
  | _ => cases opened

theorem isCode_of_isLiteral {reading : Reading} (literal : reading.isLiteral = true) :
    reading.isCode = false := by
  cases reading <;> first | rfl | cases literal

/-- A character stays outside of literals, at their ends, and as a backslash at the end of a line. -/
theorem keeps_iff {reading : Reading} {c : Char} {rest : List Char} :
    reading.keeps c rest = true ↔
      (reading.isLiteral = false ∨ (reading.next c).isLiteral = false) ∨
        ((reading.next c).isLiteralEscape = true ∧ rest = []) := by
  simp [keeps]

theorem isOpenLiteral_or (reading : Reading) (literal : reading.isLiteral = true) :
    reading.isOpenLiteral = true ∨ reading.isLiteralEscape = true := by
  simpa [isLiteral] using literal

end Reading

namespace Lexer

/-- A character that nothing depends on opens and closes no bracket. -/
theorem step_eq_passed {lexer : Lexer} {c : Char} (next : lexer.reading.next c = lexer.reading.passed)
    (still : lexer.reading.isCode = true → bracketStep c = 0) :
    lexer.step c = ⟨lexer.reading.passed, lexer.depth⟩ := by
  rw [step, next]
  split
  · next code => rw [still code, Int.add_zero]
  · rfl

theorem step_x {lexer : Lexer} (sound : lexer.IsSound) :
    lexer.step 'x' = ⟨lexer.reading.passed, lexer.depth⟩ :=
  step_eq_passed (Reading.next_eq_passed sound (by decide) (.inl (by decide))) fun _ => by decide

end Lexer

/-! ## Reading a masked line -/

/-- How the scanner reads a line, `lexer`, and the masked line, `masked`, where the literals of the
line are at `reading`. Right behind a backslash in a literal, only the former may be behind a
backslash. -/
inductive Shadow : Reading → Lexer → Lexer → Prop
  /-- Both read the same. In a literal neither is behind a backslash, and behind a backslash in a
  literal neither is in a string. -/
  | same {reading : Reading} {lexer : Lexer}
      (plain : reading.isOpenLiteral = true → lexer.reading.isEscape = false)
      (code : reading.isLiteralEscape = true → lexer.reading.mode = .code) :
      Shadow reading lexer lexer
  | quotedEscape (place quote : Char) (depth : Int) :
      Shadow (.quotedEscape place) ⟨.quotedEscape quote, depth⟩ ⟨.quoted quote, depth⟩
  | tripleQuotedEscape (place quote : Char) (depth : Int) :
      Shadow (.quotedEscape place) ⟨.tripleQuotedEscape quote, depth⟩ ⟨.tripleQuoted quote 0, depth⟩

namespace Shadow

variable {reading : Reading} {lexer masked : Lexer}

theorem result_eq (shadow : Shadow reading lexer masked) : masked.result = lexer.result := by
  cases shadow <;> rfl

theorem eq_of_not_isLiteralEscape (shadow : Shadow reading lexer masked)
    (plain : reading.isLiteralEscape = false) : lexer = masked := by
  cases shadow with
  | same => rfl
  | quotedEscape => cases plain
  | tripleQuotedEscape => cases plain

/-- Only a quote opens a literal. -/
theorem isQuote_of_opens {c : Char} (outside : reading.isLiteral = false)
    (opens : (reading.next c).isLiteral = true) : isQuote c = true := by
  cases reading <;> grind [Reading.next, Reading.begun, Reading.within, Reading.isLiteral,
    Reading.isOpenLiteral, Reading.isLiteralEscape]

/-- No quote leads behind a backslash. -/
theorem isEscape_next_of_isQuote {c : Char} (quotes : isQuote c = true) (reading : Reading) :
    (reading.next c).isEscape = false := by
  have solid := ne_backslash_of_isQuote quotes
  cases reading <;> grind [Reading.next, Reading.begun, Reading.within, Reading.isEscape]

theorem isLiteralEscape_next_of_isQuote {c : Char} (quotes : isQuote c = true) (reading : Reading) :
    (reading.next c).isLiteralEscape = false := by
  have plain := isEscape_next_of_isQuote quotes reading
  cases found : reading.next c with
  | quotedEscape quote =>
    rw [found] at plain
    cases plain
  | _ => rfl

/-- Behind a character that stays, both read the same. -/
theorem step_kept {c : Char} (shadow : Shadow reading lexer masked)
    (kept : reading.isLiteral = false ∨ (reading.next c).isLiteral = false) :
    Shadow (reading.next c) (lexer.step c) (masked.step c) := by
  have plain : reading.isLiteralEscape = false := by
    cases reading with
    | quotedEscape quote => rcases kept with kept | kept <;> cases kept
    | _ => rfl
  obtain rfl := shadow.eq_of_not_isLiteralEscape plain
  have quotes (opens : (reading.next c).isLiteral = true) : isQuote c = true :=
    isQuote_of_opens (kept.resolve_right (by simp [opens])) opens
  refine .same (fun opens => ?_) fun escape => ?_
  · exact isEscape_next_of_isQuote (quotes (by simp [Reading.isLiteral, opens])) lexer.reading
  · have other := isLiteralEscape_next_of_isQuote
      (quotes (by simp [Reading.isLiteral, escape])) reading
    rw [escape] at other
    cases other

/-- Behind a backslash in a literal, only the scanner of the line itself may be behind a
backslash. -/
theorem step_backslash (place : Char) (sound : lexer.IsSound)
    (plain : lexer.reading.isEscape = false) :
    Shadow (.quotedEscape place) (lexer.step '\\') (lexer.step 'x') := by
  have other {quote : Char} (found : lexer.reading.quote? = some quote) : '\\' ≠ quote :=
    (ne_backslash_of_isQuote (sound quote found)).symm
  have code (mode : lexer.reading.mode = .code) :
      Shadow (.quotedEscape place) (lexer.step '\\') (lexer.step 'x') := by
    have passes : lexer.step '\\' = ⟨lexer.reading.passed, lexer.depth⟩ :=
      Lexer.step_eq_passed (Reading.next_eq_passed sound (by decide) (.inr mode)) fun _ => by decide
    rw [passes, Lexer.step_x sound]
    refine .same (fun opened => by cases opened) fun _ => ?_
    cases found : lexer.reading <;> simp_all [Reading.mode, Reading.passed]
  obtain ⟨reading, depth⟩ := lexer
  rw [Lexer.step_x sound] at *
  cases reading with
  | code => exact code rfl
  | comment => exact code rfl
  | openedTwice quote => exact code rfl
  | quotedEscape quote => cases plain
  | tripleQuotedEscape quote => cases plain
  | opened quote =>
    rw [Lexer.step_opened_other (other rfl)]
    exact .quotedEscape place quote depth
  | quoted quote => exact .quotedEscape place quote depth
  | tripleQuoted quote closing => exact .tripleQuotedEscape place quote depth

/-- A character that nothing depends on keeps the two alike. -/
theorem same_passed (place : Reading) (lexer : Lexer) :
    Shadow place.passed ⟨lexer.reading.passed, lexer.depth⟩ ⟨lexer.reading.passed, lexer.depth⟩ := by
  refine .same (fun _ => lexer.reading.isEscape_passed) fun escape => ?_
  cases place <;> cases escape

/-- In a literal, a character that is masked may be any if the scanner is in the literal too. -/
theorem step_masked {c : Char} (shadow : Shadow reading lexer masked) (sound : lexer.IsSound)
    (inside : reading.isLiteral = true) (stays : (reading.next c).isLiteral = true)
    (known : lexer.reading = reading ∨ isPlain c = true) :
    Shadow (reading.next c) (lexer.step c) (masked.step 'x') := by
  cases shadow with
  | quotedEscape place quote depth =>
    have sound' : (Lexer.mk (.quoted quote) depth).IsSound := sound
    rw [Lexer.step_x sound']
    exact same_passed (.quotedEscape place) ⟨.quoted quote, depth⟩
  | tripleQuotedEscape place quote depth =>
    have sound' : (Lexer.mk (.tripleQuoted quote 0) depth).IsSound := sound
    rw [Lexer.step_x sound']
    exact same_passed (.quotedEscape place) ⟨.tripleQuoted quote 0, depth⟩
  | same plain code =>
    by_cases escape : reading.isOpenLiteral = true ∧ c = '\\'
    · obtain ⟨opened, rfl⟩ := escape
      obtain ⟨place, next⟩ := Reading.exists_next_backslash opened stays
      rw [next]
      exact step_backslash place sound (plain opened)
    · have solid : (reading.isOpenLiteral = true ∧ c ≠ '\\') ∨ reading.isLiteralEscape = true := by
        rcases reading.isOpenLiteral_or inside with opened | behind
        · exact .inl ⟨opened, fun same => escape ⟨opened, same⟩⟩
        · exact .inr behind
      have next := Reading.next_eq_passed_of_isLiteral stays solid
      have passes : lexer.step c = ⟨lexer.reading.passed, lexer.depth⟩ := by
        rcases known with within | ordinary
        · refine Lexer.step_eq_passed (within ▸ next) fun code => ?_
          rw [within, Reading.isCode_of_isLiteral inside] at code
          cases code
        · refine Lexer.step_eq_passed (Reading.next_eq_passed sound ordinary ?_) fun _ => ?_
          · exact solid.imp And.right code
          · simp only [isPlain, Bool.and_eq_true, decide_eq_true_eq] at ordinary
            exact ordinary.2
      rw [passes, Lexer.step_x sound, next]
      exact same_passed reading lexer

end Shadow

/-- **A masked line is read like the line itself,** by a scanner that is in step with the literals,
and by any scanner if no bracket, quote or `#` stands in the literals. -/
theorem result_read_maskChars {reading : Reading} {lexer masked : Lexer}
    (shadow : Shadow reading lexer masked) (sound : lexer.IsSound) (cs : List Char)
    (known : lexer.reading = reading ∨ hasPlainLiterals reading cs = true) :
    (masked.read (maskChars reading cs)).result = (lexer.read cs).result := by
  induction cs generalizing reading lexer masked with
  | nil => exact shadow.result_eq
  | cons c rest ih =>
    have known' : (lexer.step c).reading = reading.next c ∨
        hasPlainLiterals (reading.next c) rest = true := by
      refine known.imp (fun within => by rw [Lexer.step, within]) fun ordinary => ?_
      rw [hasPlainLiterals, Bool.and_eq_true] at ordinary
      exact ordinary.2
    rw [maskChars, Lexer.read_cons, Lexer.read_cons]
    by_cases kept : reading.keeps c rest = true
    · rw [if_pos kept]
      rcases Reading.keeps_iff.mp kept with outside | ⟨escape, rfl⟩
      · exact ih (shadow.step_kept outside) (sound.step c) known'
      · -- nothing is read behind the backslash, so both may be behind it
        have plain : reading.isLiteralEscape = false := by
          cases reading <;> first | rfl | cases escape
        rw [shadow.eq_of_not_isLiteralEscape plain]
        rfl
    · rw [if_neg kept]
      simp only [Reading.keeps_iff, not_or, Bool.not_eq_false] at kept
      obtain ⟨⟨inside, stays⟩, -⟩ := kept
      have ordinary : lexer.reading = reading ∨ isPlain c = true := by
        refine known.imp_right fun ordinary => ?_
        rw [hasPlainLiterals, inside, stays, Bool.and_eq_true] at ordinary
        exact ordinary.1
      exact ih (shadow.step_masked sound inside stays ordinary) (sound.step c) known'

/-! ## The two ends of a masked line -/

theorem isBlank_of_isQuote {c : Char} (quotes : isQuote c = true) : isBlank c = false := by
  simp only [isQuote, Bool.or_eq_true, decide_eq_true_eq] at quotes
  rcases quotes with rfl | rfl <;> decide

/-- Only its quote ends a literal. -/
theorem Reading.quote?_of_ends {reading : Reading} {c : Char} (inside : reading.isLiteral = true)
    (ends : (reading.next c).isLiteral = false) : reading.quote? = some c := by
  cases reading with
  | opened quote => grind [next, within, isLiteral, isOpenLiteral, isLiteralEscape, quote?]
  | quoted quote => grind [next, within, isLiteral, isOpenLiteral, isLiteralEscape, quote?]
  | quotedEscape quote => cases ends
  | _ => cases inside

section Ends

variable {lexer : Lexer}

/-- In a literal, a masked line has no blank characters. -/
theorem solid_of_isLiteral {reading : Reading} (sound : reading.IsSound)
    (inside : reading.isLiteral = true) (c : Char) (rest : List Char) :
    isBlank (if reading.keeps c rest then c else 'x') = false ∧
      (if reading.keeps c rest then c else 'x') ≠ '#' := by
  split
  · next kept =>
    rcases Reading.keeps_iff.mp kept with (outside | ends) | ⟨escape, -⟩
    · rw [inside] at outside
      cases outside
    · have quotes := sound c (Reading.quote?_of_ends inside ends)
      refine ⟨isBlank_of_isQuote quotes, ?_⟩
      rintro rfl
      cases quotes
    · cases next : reading.next c with
      | quotedEscape place =>
        obtain rfl := Reading.eq_backslash_of_next next
        decide
      | _ =>
        rw [next] at escape
        cases escape
  · decide

/-- A line and the masked line are the same from some character on that is not blank. -/
theorem exists_common_end (sound : lexer.IsSound) (cs : List Char)
    (ends : (lexer.read cs).reading.isOpenLiteral = false) :
    ∃ front front' back, cs = front ++ back ∧ maskChars lexer.reading cs = front' ++ back ∧
      ((front = [] ∧ front' = []) ∨ ∃ c rest, back = c :: rest ∧ isBlank c = false) := by
  induction cs generalizing lexer with
  | nil => exact ⟨[], [], [], rfl, rfl, .inl ⟨rfl, rfl⟩⟩
  | cons c rest ih =>
    obtain ⟨front, front', back, same, same', common⟩ := ih (sound.step c) ends
    have behind : maskChars (lexer.reading.next c) rest = front' ++ back := same'
    rw [maskChars, behind, same]
    rcases common with ⟨rfl, rfl⟩ | solid
    · by_cases kept : lexer.reading.keeps c (([] : List Char) ++ back) = true
      · exact ⟨[], [], c :: back, rfl, by rw [if_pos kept]; rfl, .inl ⟨rfl, rfl⟩⟩
      · rw [if_neg kept]
        simp only [Reading.keeps_iff, not_or, Bool.not_eq_false, List.nil_append] at kept
        obtain ⟨⟨-, stays⟩, notLast⟩ := kept
        -- the literal goes on behind the character, with one that stays and is not blank
        cases back with
        | nil =>
          rw [same] at ends
          rcases Reading.isOpenLiteral_or _ stays with opened | escape
          · exact absurd (opened.symm.trans ends) (by decide)
          · exact absurd ⟨escape, rfl⟩ notLast
        | cons next more =>
          rw [same, List.nil_append, maskChars] at behind
          have solid := (solid_of_isLiteral (sound.next c) stays next more).1
          rw [(List.cons.inj behind).1] at solid
          exact ⟨[c], ['x'], next :: more, rfl, rfl, .inr ⟨next, more, rfl, solid⟩⟩
    · exact ⟨c :: front, _ :: front', back, rfl, rfl, .inr solid⟩

/-- Masking keeps the last character that is not blank. -/
theorem getLast?_trimEnd_maskChars (sound : lexer.IsSound) {cs : List Char}
    (ends : (lexer.read cs).reading.isOpenLiteral = false) :
    (Chars.trimEnd (maskChars lexer.reading cs)).getLast? = (Chars.trimEnd cs).getLast? := by
  obtain ⟨front, front', back, same, same', common⟩ := exists_common_end sound cs ends
  rw [same', same]
  rcases common with ⟨rfl, rfl⟩ | ⟨c, rest, rfl, solid⟩
  · rfl
  · rw [getLast?_trimEnd_append solid, getLast?_trimEnd_append solid]

/-- On a line that begins outside of literals, masking keeps the first character that is not
blank. -/
theorem head?_trimStart_maskChars {reading : Reading} (outside : reading.isLiteral = false)
    (cs : List Char) :
    (Chars.trimStart (maskChars reading cs)).head? = (Chars.trimStart cs).head? := by
  induction cs generalizing reading with
  | nil => rfl
  | cons c rest ih =>
    have kept : reading.keeps c rest = true := Reading.keeps_iff.mpr (.inl (.inl outside))
    rw [maskChars, if_pos kept]
    cases blank : isBlank c with
    | false =>
      rw [Chars.trimStart, Chars.trimStart, List.dropWhile_cons_of_neg (by simp [blank]),
        List.dropWhile_cons_of_neg (by simp [blank])]
      rfl
    | true =>
      have outside' : (reading.next c).isLiteral = false := by
        by_contra opens
        have quotes := Shadow.isQuote_of_opens outside (by simpa using opens)
        rw [isBlank_of_isQuote quotes] at blank
        cases blank
      rw [Chars.trimStart, Chars.trimStart, List.dropWhile_cons_of_pos blank,
        List.dropWhile_cons_of_pos blank]
      exact ih outside'

/-- A line that begins inside of a literal without `#` is no comment. -/
theorem head?_trimStart_ne {reading : Reading} (sound : reading.IsSound)
    (inside : reading.isLiteral = true) {cs : List Char}
    (ordinary : hasPlainLiterals reading cs = true) :
    (Chars.trimStart cs).head? ≠ some '#' := by
  induction cs generalizing reading with
  | nil => simp [Chars.trimStart]
  | cons c rest ih =>
    rw [hasPlainLiterals, inside, Bool.and_eq_true] at ordinary
    obtain ⟨here, behind⟩ := ordinary
    have mark : c ≠ '#' := by
      rintro rfl
      cases stays : (reading.next '#').isLiteral with
      | false => exact absurd (sound '#' (Reading.quote?_of_ends inside stays)) (by decide)
      | true =>
        rw [stays] at here
        cases here
    cases blank : isBlank c with
    | false =>
      rw [Chars.trimStart, List.dropWhile_cons_of_neg (by simp [blank])]
      simpa using mark
    | true =>
      have stays : (reading.next c).isLiteral = true := by
        by_contra ends
        have quotes := sound c (Reading.quote?_of_ends inside (by simpa using ends))
        rw [isBlank_of_isQuote quotes] at blank
        cases blank
      rw [Chars.trimStart, List.dropWhile_cons_of_pos blank]
      exact ih (sound.next c) stays behind

/-- Masking keeps a comment a comment, and makes no line one. -/
theorem isComment_maskChars (sound : lexer.IsSound) {line : String}
    (known : lexer.reading.isLiteral = false ∨
      hasPlainLiterals lexer.reading line.toList = true) :
    isComment (String.ofList (maskChars lexer.reading line.toList)) = isComment line := by
  rw [isComment, isComment, String.toList_ofList]
  cases inside : lexer.reading.isLiteral with
  | false => rw [head?_trimStart_maskChars inside]
  | true =>
    have ordinary := known.resolve_left (by simp [inside])
    have original := head?_trimStart_ne sound inside ordinary
    have masked : (Chars.trimStart (maskChars lexer.reading line.toList)).head? ≠ some '#' := by
      cases text : line.toList with
      | nil => simp [maskChars, Chars.trimStart]
      | cons c rest =>
        obtain ⟨solid, mark⟩ := solid_of_isLiteral sound inside c rest
        rw [maskChars, Chars.trimStart, List.dropWhile_cons_of_neg (by simp [solid])]
        simpa using mark
    simp [original, masked]

/-- **Masking keeps the backslash at the end of a line.** -/
theorem endsInBackslash_maskChars (sound : lexer.IsSound) {line : String}
    (ends : (lexer.read line.toList).reading.isOpenLiteral = false)
    (known : lexer.reading.isLiteral = false ∨
      hasPlainLiterals lexer.reading line.toList = true) :
    Carry.endsInBackslash (String.ofList (maskChars lexer.reading line.toList)) =
      Carry.endsInBackslash line := by
  rw [Carry.endsInBackslash, Carry.endsInBackslash, isComment_maskChars sound known,
    String.toList_ofList, getLast?_trimEnd_maskChars sound ends]

end Ends

/-! ## Masked texts -/

namespace Carry

theorem isLiteral_lexer (carry : Carry) : carry.lexer.reading.isLiteral = false := by
  obtain ⟨depth, triple, continued⟩ := carry
  cases triple <;> rfl

theorem isEscape_lexer (carry : Carry) : carry.lexer.reading.isEscape = false := by
  obtain ⟨depth, triple, continued⟩ := carry
  cases triple <;> rfl

/-- What is open after a line is told by the lexer's result and the backslash at the end. -/
theorem after_congr {carry : Carry} {line line' : String}
    (result : (carry.lexer.read line.toList).result = (carry.lexer.read line'.toList).result)
    (ends : endsInBackslash line = endsInBackslash line') : carry.after line = carry.after line' := by
  have scanned (line : String) :
      scan carry.mode carry.depth line.toList = (carry.lexer.read line.toList).result :=
    scan_eq_read carry.mode carry.depth line.toList
  simp only [after, scanned, result, ends]

theorem isSound_lexer_after {carry : Carry} (sound : carry.lexer.IsSound) (line : String) :
    (carry.after line).lexer.IsSound := by
  have behind := sound.read line.toList
  rw [after_eq]
  generalize carry.lexer.read line.toList = lexer at behind
  obtain ⟨reading, depth⟩ := lexer
  intro quote found
  cases reading with
  | tripleQuoted other closing => exact behind quote found
  | tripleQuotedEscape other => exact behind quote found
  | _ => cases found

end Carry

theorem startsAfter_maskLines {carry : Carry} {lexer : Lexer} {lines : List String}
    (sound : carry.lexer.IsSound) (sound' : lexer.IsSound)
    (begins : lexer.reading.isLiteralEscape = false)
    (ends : endsLiterals lexer lines = true) (follows : followsLiterals carry lexer lines = true) :
    startsAfter carry (maskLines lexer lines) = startsAfter carry lines := by
  induction lines generalizing carry lexer with
  | nil => rfl
  | cons line rest ih =>
    simp only [endsLiterals, followsLiterals, Bool.and_eq_true, Bool.not_eq_true', Bool.or_eq_true,
      decide_eq_true_eq] at ends follows
    obtain ⟨ends, endsBehind⟩ := ends
    obtain ⟨known, followsBehind⟩ := follows
    have shadow : Shadow lexer.reading carry.lexer carry.lexer :=
      .same (fun _ => carry.isEscape_lexer) fun escape => absurd (escape.symm.trans begins) (by decide)
    have result := result_read_maskChars shadow sound line.toList known
    have outside := known.imp_left fun same => same ▸ carry.isLiteral_lexer
    have backslash := endsInBackslash_maskChars sound' ends outside
    have after : carry.after (String.ofList (maskChars lexer.reading line.toList)) =
        carry.after line :=
      Carry.after_congr (by rwa [String.toList_ofList]) backslash
    rw [maskLines, startsAfter, startsAfter, after]
    have atStart : (lexer.afterLine line).reading.isLiteralEscape = false := by
      rw [Lexer.afterLine, Lexer.nextLine]
      cases (lexer.read line.toList).reading <;> rfl
    rw [ih (Carry.isSound_lexer_after sound line) (sound'.afterLine line) atStart
      endsBehind followsBehind]

/-- **What stands inside of literals does not matter to the marks.** -/
theorem statementStarts_maskLiterals {lines : List String}
    (ends : endsLiterals .start lines = true)
    (follows : followsLiterals .closed .start lines = true) :
    statementStarts (maskLiterals lines) = statementStarts lines := by
  have sound : Lexer.start.IsSound := fun quote found => by cases found
  exact startsAfter_maskLines sound sound rfl ends follows

/-- A literal with a bracket, a quote and a hash that goes on in the next line. -/
def continuedLiteral : List String :=
  ["s = '(#\" \\' [ \\", "b \\t c'", "t = ['\x7d',", " 1]  # it's", "u = 2"]

theorem statementStarts_maskLiterals_continuedLiteral :
    endsLiterals .start continuedLiteral = true ∧
      followsLiterals .closed .start continuedLiteral = true ∧
      maskLiterals continuedLiteral =
        ["s = 'xxxxxxxxx\\", "xxxxxx'", "t = ['x',", " 1]  # it's", "u = 2"] ∧
      statementStarts (maskLiterals continuedLiteral) = statementStarts continuedLiteral ∧
      statementStarts continuedLiteral = [true, false, true, false, true] := by
  have ends : endsLiterals .start continuedLiteral = true := by decide +kernel
  have follows : followsLiterals .closed .start continuedLiteral = true := by decide +kernel
  exact ⟨ends, follows, by decide +kernel, statementStarts_maskLiterals ends follows,
    by decide +kernel⟩

/-- A literal with a bracket on the line that continues it. -/
def bracketInLiteral : List String :=
  ["s = 'a\\", "(b'", "if c:", "    d()", "else:", "    e()"]

/-- The bracket counts, and no statement may begin below it. -/
theorem bracketInContinuedLiteral_hidesLines :
    endsLiterals .start bracketInLiteral = true ∧
      maskLiterals bracketInLiteral =
        ["s = 'x\\", "xx'", "if c:", "    d()", "else:", "    e()"] ∧
      statementStarts bracketInLiteral = [true, false, false, false, false, false] ∧
      statementStarts (maskLiterals bracketInLiteral) = [true, false, true, true, true, true] := by
  decide +kernel

/-! ## Literals that end on their lines -/

theorem Lexer.reading_read_congr {first second : Lexer} (same : first.reading = second.reading)
    (cs : List Char) : (first.read cs).reading = (second.read cs).reading := by
  induction cs generalizing first second with
  | nil => exact same
  | cons c rest ih => exact ih (by rw [step, step, same])

/-- **Where no literal is continued, the scanner starts each line in step.** -/
theorem followsLiterals_of_closesLiterals {carry : Carry} {lexer : Lexer} {lines : List String}
    (same : carry.lexer.reading = lexer.reading) (closes : closesLiterals lexer lines = true) :
    followsLiterals carry lexer lines = true := by
  induction lines generalizing carry lexer with
  | nil => rfl
  | cons line rest ih =>
    rw [closesLiterals, Bool.and_eq_true, Bool.not_eq_true'] at closes
    have read := Lexer.reading_read_congr same line.toList
    have ended : ∀ quote, (carry.lexer.read line.toList).reading ≠ .quotedEscape quote := by
      intro quote escape
      rw [← read, escape] at closes
      cases closes.1
    have next : (carry.after line).lexer.reading = (lexer.afterLine line).reading := by
      rw [Carry.lexer_after ended, Lexer.afterLine, Lexer.afterLine, Lexer.nextLine,
        Lexer.nextLine, read]
    rw [followsLiterals, ih next closes.2, Bool.and_true, Bool.or_eq_true]
    exact .inl (decide_eq_true same)

end StrategyMend.Source
