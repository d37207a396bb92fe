import StrategyMend.Proofs.Python.Clauses
import StrategyMend.Proofs.Python.JointLines
import StrategyMend.Proofs.Source.Legible
import StrategyMend.Proofs.Source.Opener

/-!
# Attached branches

The grammar attaches an `elif` or `else` to the clause before it; the search for openers only looks at
lines. Where the text means the same to both (`IsLegible`), the header of the clause before is a statement
line that the branch may continue, and the lines between the two are deeper than the branch, as they stand
in the block between. So the search finds an opener for a branch (`hasOpener_of_attached`) if the tree has
it as a clause, at most as many lines as the window allows below a header that is not deeper than it
(`IsInReach`).

What is asked of the lines between the two is only what the grammar does not promise: it does not end a
header or the statements beside it with a line.
-/

set_option autoImplicit false

namespace StrategyMend.Source

open Python Text

/-- The kind of branch that a clause is. -/
def branchKind? : BlockKind → Option BranchKind
  | .elifClause => some .elseIf
  | .elseClause => some .otherwise
  | _ => none

/-- Whether the first character of a line that is not blank is a quote. -/
def beginsWithQuote (line : String) : Bool := (Chars.trimStart line.toList).head?.any isQuote

/-- The search gets from the line of a later clause to that of the header before. -/
structure IsInReach (window : Nat) (source : String) (joint : Joint) (header clause : MarkedLine) :
    Prop where
  here : (markLines (splitLines source))[joint.openerRow]? = some header
  /-- The header is not deeper. -/
  level : indentWidth header.text ≤ indentWidth clause.text
  /-- The words of the header stand on one line. -/
  async : beginsWithWord "async" (Chars.trimStart header.text.toList) = true →
    beginsWithWords "async" "for" (Chars.trimStart header.text.toList) = true
  /-- A line between the two is deeper than the clause, unless the grammar sees to that: it begins with
  no string, and the header ends above it, at the end of a line. -/
  between : ∀ index line, joint.openerRow < index → index < joint.row →
    (markLines (splitLines source))[index]? = some line → line.isStatement = true →
      indentWidth clause.text < indentWidth line.text ∨
        (beginsWithQuote line.text = false ∧ ClosesAbove source.toList joint.openerRow index)
  near : statementCount (markLines (splitLines source)) joint.openerRow joint.row ≤ window

/-- The search found an opener in the same function, perhaps at another indentation. -/
def BranchMatch.HasOpener (found : BranchMatch) : Prop :=
  ∃ opener, found = .aligned opener ∨ ∃ width, found = .misaligned opener width

/-- Every statement line that begins like a branch is that of a later clause, in reach of the header
before. -/
def Attached (window : Nat) (source : String) (module : Module) : Prop :=
  ∀ index line kind, (markLines (splitLines source))[index]? = some line → line.isStatement = true →
    classify line.text = some kind → ∃ joint ∈ module.joints, joint.row = index ∧
      branchKind? joint.kind = some kind ∧ ∃ header, IsInReach window source joint header line

/-! ## Openers -/

/-- A branch may continue the clause before it. -/
theorem accepts_of_follows {kind previous : BlockKind} {branch : BranchKind} {line : String}
    (isBranch : branchKind? kind = some branch) (follows : kind.follows previous = true)
    (word : beginsWithWord previous.keyword (Chars.trimStart line.toList) = true ∨
      previous.keyword ∈ Cursor.asyncKeywords ∧
        beginsWithWords "async" "for" (Chars.trimStart line.toList) = true) :
    branch.accepts line = true := by
  cases kind <;> cases isBranch <;> cases previous <;> cases follows
  all_goals rcases word with word | ⟨listed, words⟩
  all_goals
    first
    | exact accepts_of_conditional (by decide) word _
    | exact accepts_otherwise_of_word (by decide) word
    | exact accepts_otherwise_of_async_for words
    | exact absurd listed (by decide)

theorem exists_of_mem_between {marked : List MarkedLine} {line : MarkedLine} {first last : Nat}
    (member : line ∈ (marked.take last).drop (first + 1)) :
    ∃ index, first < index ∧ index < last ∧ marked[index]? = some line := by
  obtain ⟨place, found⟩ := List.mem_iff_getElem?.mp member
  rw [List.getElem?_drop, List.getElem?_take] at found
  split at found
  · exact ⟨first + 1 + place, by omega, by assumption, found⟩
  · cases found

theorem mem_between_of_getElem? {marked : List MarkedLine} {line : MarkedLine} {first last index : Nat}
    (after : first < index) (before : index < last) (found : marked[index]? = some line) :
    line ∈ (marked.take last).drop (first + 1) := by
  refine List.mem_iff_getElem?.mpr ⟨index - (first + 1), ?_⟩
  rw [List.getElem?_drop, List.getElem?_take_of_lt (by omega), ← found]
  congr 1
  omega

section Reach

variable {source : String} {window : Nat} {joint : Joint} {header clause : MarkedLine} {kind : BranchKind}
  {first last : TextLine}

/-- The keyword of a clause is a word. -/
theorem keyword_letters (kind : BlockKind) :
    kind.keyword.toList.all isWordChar = true ∧ kind.keyword.toList ≠ [] := by
  cases kind <;> decide

/-- The scanned line of the header is the one of the text. -/
theorem IsInReach.shows (reach : IsInReach window source joint header clause)
    (legible : IsLegible source.toList) (lines : JointLines source.toList joint first last) :
    first.Shows header := by
  have solid : isBlank first.first = false := by
    rcases lines.word with word | ⟨word, -⟩
    · exact TextLine.isBlank_of_beginsWithWord (keyword_letters _).1 (keyword_letters _).2 word
    · exact TextLine.isBlank_of_beginsWithWord (by decide) (by decide) word
  obtain ⟨marked, here, shows⟩ :=
    exists_marked_of_isIn legible.gaps legible.strings legible.comments lines.headerIn solid
  rw [lines.headerRow] at here
  obtain rfl : header = marked := Option.some.inj (reach.here.symm.trans here)
  exact shows

/-- The header is the nearest line above the clause that is not deeper. -/
theorem IsInReach.isNearest (reach : IsInReach window source joint header clause)
    (legible : IsLegible source.toList) (lines : JointLines source.toList joint first last)
    (shows : last.Shows clause) :
    IsNearest (markLines (splitLines source)) (indentWidth clause.text) joint.row joint.openerRow
      header := by
  have above : joint.openerRow < joint.row := by
    have rows := lines.headerIn.row_lt lines.clauseIn lines.above
    rwa [lines.headerRow, lines.clauseRow] at rows
  refine ⟨above, reach.here, (reach.shows legible lines).statement, reach.level,
    fun between listed begins => ?_⟩
  obtain ⟨index, after, before, found⟩ := exists_of_mem_between listed
  rcases reach.between index between after before found begins with deeper | ⟨plain, closes⟩
  · exact deeper
  · -- The text has the line, and the grammar puts it deeper than the clause.
    obtain ⟨line, lineIn, lineRow, lineShows⟩ := exists_textLine_of_isStatement legible.gaps
      legible.strings legible.comments found begins
    have earlier := lineIn.length_lt lines.clauseIn (by rw [lineRow, lines.clauseRow]; exact before)
    rw [shows.indentWidth_eq lines.clauseIn, lineShows.indentWidth_eq lineIn]
    refine lines.deeper line lineIn earlier ?_ (lineRow.symm ▸ closes)
    refine lineShows.isQuote_eq_false lineIn fun c head => ?_
    rwa [beginsWithQuote, head, Option.any_some] at plain

/-- The clause may continue the header. -/
theorem IsInReach.accepts (reach : IsInReach window source joint header clause)
    (legible : IsLegible source.toList) (lines : JointLines source.toList joint first last)
    (isBranch : branchKind? joint.kind = some kind)
    (follows : joint.kind.follows joint.openerKind = true) : kind.accepts header.text = true := by
  have shows := reach.shows legible lines
  refine accepts_of_follows isBranch follows ?_
  rcases lines.word with word | ⟨word, listed⟩
  · exact .inl (shows.beginsWithWord lines.headerIn (keyword_letters _).1 (keyword_letters _).2 word)
  · exact .inr ⟨listed, reach.async (shows.beginsWithWord lines.headerIn (by decide) (by decide) word)⟩

/-- **A later clause in reach has an opener:** the header before it. -/
theorem hasOpener_of_isInReach {module : Module} (read : Module.read source = .ok module)
    (legible : IsLegible source.toList) (member : joint ∈ module.joints)
    (here : (markLines (splitLines source))[joint.row]? = some clause)
    (statement : clause.isStatement = true) (isBranch : branchKind? joint.kind = some kind)
    (reach : IsInReach window source joint header clause) :
    (belonging kind (indentWidth clause.text) window (markLines (splitLines source))
      joint.row).HasOpener := by
  have attaches := Module.attaches_of_read legible.gaps legible.strings read member
  obtain ⟨first, last, lines⟩ := attaches.exists_jointLines legible.gaps legible.strings
  obtain ⟨last', isIn, row, shows⟩ :=
    exists_textLine_of_isStatement legible.gaps legible.strings legible.comments here statement
  obtain rfl : last' = last := isIn.eq_of_row_eq lines.clauseIn (row.trans lines.clauseRow.symm)
  have nearest := reach.isNearest legible lines shows
  have accepts := reach.accepts legible lines isBranch (Module.ordered_of_read read member)
  have found := (nearest?_eq_some_iff (Nat.le_of_lt (List.getElem?_eq_some_iff.mp here).1)).mpr nearest
  rw [belonging, found]
  dsimp only
  rw [if_neg (Nat.not_lt_of_le reach.near), if_pos accepts]
  split
  · exact ⟨joint.openerRow, .inl rfl⟩
  · exact ⟨joint.openerRow, .inr ⟨_, rfl⟩⟩

end Reach

/-- **Where every branch is attached, the search finds an opener for it.** -/
theorem hasOpener_of_attached {source : String} {module : Module} {window : Nat} {branch : Branch}
    (read : Module.read source = .ok module) (legible : IsLegible source.toList)
    (attached : Attached window source module) (member : branch ∈ branches (splitLines source) window) :
    branch.found.HasOpener := by
  obtain ⟨line, here, statement, classified, -, found⟩ :=
    exists_of_branchAt_eq (branchAt_of_mem_branches member)
  obtain ⟨joint, listed, row, isBranch, header, reach⟩ :=
    attached branch.index line branch.kind here statement classified
  rw [found, ← row]
  exact hasOpener_of_isInReach read legible listed (row ▸ here) statement isBranch reach

end StrategyMend.Source
