import StrategyMend.Proofs.Source.Header
import StrategyMend.Proofs.Source.Stray

/-!
# Laid-out programs

A program in blocks is laid out line by line: each statement on lines of one indentation, each body
deeper than its header. The search for openers, which only looks at lines, finds the structure again
(`branches_lines`): every `elif` and `else` is aligned with the header of the clause before it, unless
more lines of code lie between the two than the window allows.
-/

set_option autoImplicit false

namespace StrategyMend.Source

open Text

/-! ## Programs in blocks -/

/-- The keyword of a clause. -/
inductive Keyword where
  | if_
  | elif
  | else_
  | for_
  | while_
  | try_
  | except
  | finally_
  | def_
  | class_
  | with_
  | match_
  | case_
  deriving DecidableEq

namespace Keyword

/-- The keyword in a header. -/
def name : Keyword → String
  | if_ => "if"
  | elif => "elif"
  | else_ => "else"
  | for_ => "for"
  | while_ => "while"
  | try_ => "try"
  | except => "except"
  | finally_ => "finally"
  | def_ => "def"
  | class_ => "class"
  | with_ => "with"
  | match_ => "match"
  | case_ => "case"

/-- Whether nothing but the colon follows the keyword. -/
def standsAlone (keyword : Keyword) : Bool :=
  keyword = else_ || keyword = try_ || keyword = finally_

/-- Whether the word `async` may stand before the keyword. -/
def mayBeAsync (keyword : Keyword) : Bool := keyword = def_ || keyword = for_ || keyword = with_

/-- Whether a line is the header of a clause with the keyword. -/
def heads (keyword : Keyword) (line : String) : Bool :=
  let text := Chars.trimStart line.toList
  if keyword.standsAlone then (dropWordColon? keyword.name.toList text).isSome
  else
    beginsWithWord keyword.name text || (keyword.mayBeAsync && beginsWithWords "async" keyword.name text)

/-- Whether a statement may begin with the keyword. The cases of a `match` are the statements of its
body. -/
def opens (keyword : Keyword) : Bool :=
  !(keyword = elif || keyword = else_ || keyword = except || keyword = finally_)

/-- Whether a clause may come after the clause `previous` of a statement that begins with
`statement`. -/
def follows (keyword statement previous : Keyword) : Bool :=
  match keyword with
  | elif => previous = if_ || previous = elif
  | else_ => previous = if_ || previous = elif || previous = for_ || previous = while_ ||
      previous = except
  | except => previous = try_ || previous = except
  | finally_ => statement = try_ && (previous = try_ || previous = except || previous = else_)
  | _ => false

/-- The kind of branch that a clause is. -/
def branchKind? : Keyword → Option BranchKind
  | elif => some .elseIf
  | else_ => some .otherwise
  | _ => none

end Keyword

mutual

/-- Statements one below the other, and the lines between them. -/
inductive Block where
  | nil
  /-- A blank line or a comment. -/
  | filler (line : String) (rest : Block)
  /-- A statement on one line. -/
  | simple (line : String) (rest : Block)
  /-- A statement of clauses, by its first clause and the clauses after it. A body on the header's own
  line is no block of its own. -/
  | compound (keyword : Keyword) (header : String) (body : Block) (clauses : Clauses) (rest : Block)

/-- The clauses of a statement after the first. -/
inductive Clauses where
  | nil
  | cons (keyword : Keyword) (header : String) (body : Block) (more : Clauses)

end

mutual

/-- The lines of a block. -/
def Block.lines : Block → List String
  | .nil => []
  | .filler line rest => line :: rest.lines
  | .simple line rest => line :: rest.lines
  | .compound _ header body clauses rest => header :: body.lines ++ (clauses.lines ++ rest.lines)

/-- The lines of clauses. -/
def Clauses.lines : Clauses → List String
  | .nil => []
  | .cons _ header body more => header :: body.lines ++ more.lines

end

/-- Whether a line begins with the word of a branch. -/
def beginsLikeBranch (line : String) : Bool :=
  let text := Chars.trimStart line.toList
  beginsWithWord "elif" text || beginsWithWord "else" text

mutual

/-- The statements of the block stand at one width, their bodies are deeper, and they begin with their
keywords. -/
def Block.Fits (width : Nat) : Block → Prop
  | .nil => True
  | .filler line rest => isCode line = false ∧ rest.Fits width
  | .simple line rest =>
    isCode line = true ∧ indentWidth line = width ∧ beginsLikeBranch line = false ∧ rest.Fits width
  | .compound keyword header body clauses rest =>
    keyword.opens = true ∧ keyword.heads header = true ∧ indentWidth header = width ∧
      (∃ inner, width < inner ∧ body.Fits inner) ∧ clauses.Fits width keyword keyword ∧
        rest.Fits width

/-- The headers of the clauses stand at one width, in an order that the statement allows. -/
def Clauses.Fits (width : Nat) (statement previous : Keyword) : Clauses → Prop
  | .nil => True
  | .cons keyword header body more =>
    keyword.follows statement previous = true ∧ keyword.heads header = true ∧
      indentWidth header = width ∧ (∃ inner, width < inner ∧ body.Fits inner) ∧
        more.Fits width statement keyword

end

/-- A branch and the header of the clause before it, by their lines. -/
structure Attachment where
  index : Nat
  kind : BranchKind
  opener : Nat
  deriving DecidableEq

mutual

/-- The branches of a block whose first line is `start`. -/
def Block.attachments (start : Nat) : Block → List Attachment
  | .nil => []
  | .filler _ rest => rest.attachments (start + 1)
  | .simple _ rest => rest.attachments (start + 1)
  | .compound _ _ body clauses rest =>
    let behind := start + 1 + body.lines.length
    body.attachments (start + 1) ++
      (clauses.attachments start behind ++ rest.attachments (behind + clauses.lines.length))

/-- The branches of clauses whose first line is `start`, where the header before is on the line
`opener`. -/
def Clauses.attachments (opener start : Nat) : Clauses → List Attachment
  | .nil => []
  | .cons keyword _ body more =>
    (keyword.branchKind?.map fun kind => ⟨start, kind, opener⟩).toList ++
      (body.attachments (start + 1) ++ more.attachments start (start + 1 + body.lines.length))

end

/-- What is expected of the search at a branch: it ends at the header of the clause before, or without
a result if there are more lines of code from that header up to the branch than the window allows. -/
def Attachment.expected (lines : List String) (window : Nat) (attachment : Attachment) : Branch where
  index := attachment.index
  kind := attachment.kind
  found :=
    if ((lines.take attachment.index).drop attachment.opener).countP isCode ≤ window then
      .aligned attachment.opener
    else .orphaned

/-! ## Headers by their keywords -/

theorem classify_eq_none_of_beginsLikeBranch {line : String}
    (plain : beginsLikeBranch line = false) : classify line = none := by
  rw [beginsLikeBranch, Bool.or_eq_false_iff] at plain
  cases classified : classify line with
  | none => rfl
  | some kind =>
    cases kind with
    | elseIf =>
      rcases classify_eq_elseIf_iff.mp classified with word | words
      · rw [plain.1] at word
        cases word
      · obtain ⟨c, more, rest, text, blank, -⟩ := beginsWithWords_iff.mp words
        have word : beginsWithWord "else" (Chars.trimStart line.toList) = true :=
          beginsWithWord_iff.mpr ⟨c :: more, text, by simp [endsWord, isWordChar_of_isBlank blank]⟩
        rw [plain.2] at word
        cases word
    | otherwise =>
      obtain ⟨more, rest, text, colon⟩ := classify_eq_otherwise_iff.mp classified
      have ends : endsWord more = true := by
        cases more with
        | nil => rfl
        | cons c more =>
          cases blank : isBlank c with
          | true => simp [endsWord, isWordChar_of_isBlank blank]
          | false =>
            rw [Chars.trimStart, List.dropWhile_cons_of_neg (by simp [blank])] at colon
            rw [(List.cons.inj colon).1]
            rfl
      have word : beginsWithWord "else" (Chars.trimStart line.toList) = true :=
        beginsWithWord_iff.mpr ⟨more, text, ends⟩
      rw [plain.2] at word
      cases word

namespace Keyword

variable {keyword statement previous : Keyword} {line : String}

/-- The characters that a header begins with. -/
theorem exists_text_of_heads (header : keyword.heads line = true) :
    ∃ start rest, (start = keyword.name ∨ start = "async") ∧
      Chars.trimStart line.toList = start.toList ++ rest := by
  unfold heads at header
  dsimp only at header
  split at header
  · obtain ⟨more, -, text, -⟩ := dropWordColon?_isSome_iff.mp header
    exact ⟨_, more, .inl rfl, text⟩
  · rw [Bool.or_eq_true, Bool.and_eq_true, beginsWithWord_iff, beginsWithWords_iff] at header
    rcases header with ⟨rest, text, -⟩ | ⟨-, c, more, -, text, -⟩
    · exact ⟨_, rest, .inl rfl, text⟩
    · exact ⟨_, c :: more, .inr rfl, text⟩

theorem isCode_of_heads (header : keyword.heads line = true) : isCode line = true := by
  obtain ⟨start, rest, named, text⟩ := exists_text_of_heads header
  have first : ∃ c, start.toList.head? = some c ∧ c ≠ '#' := by
    rcases named with rfl | rfl
    · cases keyword <;> exact ⟨_, rfl, by decide⟩
    · exact ⟨_, rfl, by decide⟩
  obtain ⟨c, begins, solid⟩ := first
  refine isCode_of_head? ?_ solid
  rw [text, List.head?_append, begins]
  rfl

theorem classify_of_heads (header : keyword.heads line = true) :
    classify line = keyword.branchKind? := by
  have none_of (other : ∀ start, start = keyword.name ∨ start = "async" →
      start.toList.take 2 ≠ ['e', 'l'] ∧ 2 ≤ start.toList.length) : classify line = none := by
    obtain ⟨start, rest, named, text⟩ := exists_text_of_heads header
    cases classified : classify line with
    | none => rfl
    | some kind =>
      obtain ⟨tail, begins⟩ := exists_of_classify classified
      rw [text] at begins
      have letters := congrArg (List.take 2) begins
      rw [List.take_append_of_le_length (other start named).2] at letters
      exact absurd letters (other start named).1
  cases keyword with
  | elif =>
    refine classify_eq_elseIf_iff.mpr (.inl ?_)
    simpa [heads, standsAlone, mayBeAsync, name] using header
  | else_ =>
    refine classify_eq_otherwise_iff.mpr (dropWordColon?_isSome_iff.mp ?_)
    simpa [heads, standsAlone, name] using header
  | _ => exact none_of (by rintro start (rfl | rfl) <;> decide)

/-- Statements do not begin with branches. -/
theorem branchKind?_of_opens (opens : keyword.opens = true) : keyword.branchKind? = none := by
  cases keyword <;> first | rfl | cases opens

theorem heads_iff (headed : keyword.standsAlone = false) :
    keyword.heads line = true ↔
      beginsWithWord keyword.name (Chars.trimStart line.toList) = true ∨
        (keyword.mayBeAsync = true ∧
          beginsWithWords "async" keyword.name (Chars.trimStart line.toList) = true) := by
  simp [heads, headed]

theorem beginsWithWord_of_heads (header : keyword.heads line = true)
    (headed : keyword.standsAlone = false) (sync : keyword.mayBeAsync = false) :
    beginsWithWord keyword.name (Chars.trimStart line.toList) = true := by
  simpa [sync] using (heads_iff headed).mp header

/-- A clause may continue the clause before it. -/
theorem accepts_of_heads {kind : BranchKind} (branch : keyword.branchKind? = some kind)
    (order : keyword.follows statement previous = true) (header : previous.heads line = true) :
    kind.accepts line = true := by
  have openers : previous = if_ ∨ previous = elif ∨
      (kind = .otherwise ∧ (previous = for_ ∨ previous = while_ ∨ previous = except)) := by
    cases keyword <;>
      simp only [branchKind?, Option.some.injEq, reduceCtorEq, follows, Bool.or_eq_true,
        decide_eq_true_eq] at branch order
    · tauto
    · tauto
  rcases openers with rfl | rfl | ⟨rfl, rfl | rfl | rfl⟩
  · exact accepts_of_conditional (by decide) (beginsWithWord_of_heads header rfl rfl) kind
  · exact accepts_of_conditional (by decide) (beginsWithWord_of_heads header rfl rfl) kind
  · rcases (heads_iff rfl).mp header with sync | ⟨-, async⟩
    · exact accepts_otherwise_of_word (by decide) sync
    · exact accepts_otherwise_of_async_for async
  · exact accepts_otherwise_of_word (by decide) (beginsWithWord_of_heads header rfl rfl)
  · exact accepts_otherwise_of_word (by decide) (beginsWithWord_of_heads header rfl rfl)

end Keyword

/-! ## The search in a laid-out program -/

section Search

/-- Lines on each of which a statement may begin. -/
def allStarting (lines : List String) : List MarkedLine := lines.map fun line => ⟨line, true⟩

theorem countP_isStatement_allStarting (lines : List String) :
    (allStarting lines).countP MarkedLine.isStatement = lines.countP isCode :=
  List.countP_map

mutual

/-- Nothing in a block stands to the left of its statements. -/
theorem Block.Fits.le_indentWidth : {block : Block} → {width : Nat} → block.Fits width →
    ∀ line ∈ block.lines, isCode line = true → width ≤ indentWidth line
  | .nil, _, _, _, member, _ => by cases member
  | .filler first rest, width, ⟨plain, fits⟩, line, member, code => by
    rcases List.mem_cons.mp member with rfl | below
    · rw [plain] at code
      cases code
    · exact fits.le_indentWidth line below code
  | .simple first rest, width, ⟨_, level, _, fits⟩, line, member, code => by
    rcases List.mem_cons.mp member with rfl | below
    · exact Nat.le_of_eq level.symm
    · exact fits.le_indentWidth line below code
  | .compound keyword header body clauses rest, width,
      ⟨_, _, level, ⟨inner, deeper, bodyFits⟩, clausesFit, restFits⟩, line, member, code => by
    simp only [Block.lines, List.mem_append, List.mem_cons] at member
    rcases member with (rfl | inBody) | inClauses | inRest
    · exact Nat.le_of_eq level.symm
    · exact Nat.le_trans (Nat.le_of_lt deeper) (bodyFits.le_indentWidth line inBody code)
    · exact clausesFit.le_indentWidth line inClauses code
    · exact restFits.le_indentWidth line inRest code

theorem Clauses.Fits.le_indentWidth : {clauses : Clauses} → {width : Nat} →
    {statement previous : Keyword} → clauses.Fits width statement previous →
    ∀ line ∈ clauses.lines, isCode line = true → width ≤ indentWidth line
  | .nil, _, _, _, _, _, member, _ => by cases member
  | .cons keyword header body more, width, _, _,
      ⟨_, _, level, ⟨inner, deeper, bodyFits⟩, moreFits⟩, line, member, code => by
    simp only [Clauses.lines, List.mem_append, List.mem_cons] at member
    rcases member with (rfl | inBody) | inMore
    · exact Nat.le_of_eq level.symm
    · exact Nat.le_trans (Nat.le_of_lt deeper) (bodyFits.le_indentWidth line inBody code)
    · exact moreFits.le_indentWidth line inMore code

end

theorem branchesFrom_cons (window : Nat) (front : List String) (line : String)
    (rest : List String) :
    branchesFrom window (allStarting front) (allStarting (line :: rest)) =
      (branchAt (allStarting (front ++ [line])) window front.length).toList ++
        branchesFrom window (allStarting (front ++ [line])) (allStarting rest) := by
  simp [allStarting, branchesFrom]

theorem branchesFrom_allStarting_append (window : Nat) (front first second : List String) :
    branchesFrom window (allStarting front) (allStarting (first ++ second)) =
      branchesFrom window (allStarting front) (allStarting first) ++
        branchesFrom window (allStarting (front ++ first)) (allStarting second) := by
  rw [allStarting, allStarting, List.map_append, branchesFrom_append, allStarting, allStarting,
    List.map_append]
  rfl

/-- Nothing is found on a line that is no branch. -/
theorem branchAt_concat_of_plain (window : Nat) (front : List String) {line : String}
    (plain : isCode line = false ∨ classify line = none) :
    branchAt (allStarting (front ++ [line])) window front.length = none := by
  have here : (allStarting (front ++ [line]))[front.length]? = some ⟨line, true⟩ := by
    simp [allStarting]
  exact branchAt_eq_none here plain

/-- The header before is found on the line of a clause that continues it. -/
theorem branchAt_concat_of_clause {all front between rest : List String} {header line : String}
    {kind : BranchKind} (window : Nat) (code : isCode line = true)
    (classified : classify line = some kind) (headerCode : isCode header = true)
    (accepts : kind.accepts header = true) (level : indentWidth header = indentWidth line)
    (deeper : ∀ other ∈ between, isCode other = true → indentWidth line < indentWidth other)
    (within : (front ++ header :: between) ++ line :: rest <+: all) :
    branchAt (allStarting ((front ++ header :: between) ++ [line])) window
        (front ++ header :: between).length =
      some (Attachment.expected all window
        ⟨(front ++ header :: between).length, kind, front.length⟩) := by
  have order : front.length < (front ++ header :: between).length := by simp
  have headerHere : (allStarting ((front ++ header :: between) ++ [line]))[front.length]? =
      some ⟨header, true⟩ := by
    simp [allStarting]
  have lineHere : (allStarting ((front ++ header :: between) ++ [line]))[
      (front ++ header :: between).length]? = some ⟨line, true⟩ := by
    simp [allStarting]
  have inside : ((allStarting ((front ++ header :: between) ++ [line])).take
      (front ++ header :: between).length).drop (front.length + 1) = allStarting between := by
    rw [allStarting, ← List.map_take, List.take_left, ← List.map_drop, ← List.drop_drop,
      List.drop_left]
    rfl
  have continues : Continues kind ⟨header, true⟩ (allStarting between) ⟨line, true⟩ :=
    { branchStatement := code
      classified
      headerStatement := headerCode
      accepts
      level
      deeper := by
        intro other member isStatement
        obtain ⟨text, below, rfl⟩ := List.mem_map.mp member
        exact deeper text below isStatement }
  have passed : ((all.take (front ++ header :: between).length).drop front.length).countP isCode =
      between.countP isCode + 1 := by
    obtain ⟨behind, rfl⟩ := within
    rw [List.append_assoc, List.take_left, List.drop_left, List.countP_cons_of_pos headerCode]
  rw [Continues.branchAt_eq order headerHere lineHere (by rwa [inside]), inside,
    countP_isStatement_allStarting, Attachment.expected]
  simp only [passed, Nat.succ_le_iff]

mutual

/-- The search finds the branches of a block. -/
theorem Block.Fits.branchesFrom_lines {all : List String} (window : Nat) :
    {block : Block} → {width : Nat} → block.Fits width → (front : List String) →
    front ++ block.lines <+: all →
    branchesFrom window (allStarting front) (allStarting block.lines) =
      (block.attachments front.length).map (Attachment.expected all window)
  | .nil, _, _, _, _ => rfl
  | .filler line rest, width, ⟨plain, fits⟩, front, within => by
    have within' : (front ++ [line]) ++ rest.lines <+: all := by
      rwa [List.append_assoc, List.singleton_append]
    have below := fits.branchesFrom_lines window (front ++ [line]) within'
    rw [Block.lines, branchesFrom_cons, branchAt_concat_of_plain window front (.inl plain), below,
      List.length_append]
    rfl
  | .simple line rest, width, ⟨_, _, plain, fits⟩, front, within => by
    have within' : (front ++ [line]) ++ rest.lines <+: all := by
      rwa [List.append_assoc, List.singleton_append]
    have below := fits.branchesFrom_lines window (front ++ [line]) within'
    rw [Block.lines, branchesFrom_cons, branchAt_concat_of_plain window front
      (.inr (classify_eq_none_of_beginsLikeBranch plain)), below, List.length_append]
    rfl
  | .compound keyword header body clauses rest, width,
      ⟨opens, heads, level, ⟨inner, deeper, bodyFits⟩, clausesFit, restFits⟩, front, within => by
    rw [Block.lines] at within
    have plain : classify header = none := (Keyword.classify_of_heads heads).trans
      (Keyword.branchKind?_of_opens opens)
    have inBody := bodyFits.branchesFrom_lines window (front ++ [header])
      (List.IsPrefix.trans ⟨clauses.lines ++ rest.lines, by simp⟩ within)
    have inClauses := clausesFit.branchesFrom_lines window front header body.lines heads level
      (fun line member code => Nat.lt_of_lt_of_le deeper (bodyFits.le_indentWidth line member code))
      (List.IsPrefix.trans ⟨rest.lines, by simp⟩ within)
    have inRest := restFits.branchesFrom_lines window ((front ++ header :: body.lines) ++ clauses.lines)
      (by simpa using within)
    have bodyStart : (front ++ [header]).length = front.length + 1 := List.length_append
    have behind : (front ++ header :: body.lines).length = front.length + 1 + body.lines.length := by
      rw [List.length_append, List.length_cons]
      omega
    have restStart : ((front ++ header :: body.lines) ++ clauses.lines).length =
        front.length + 1 + body.lines.length + clauses.lines.length := by
      rw [List.length_append, behind]
    rw [Block.lines, List.cons_append, branchesFrom_cons,
      branchAt_concat_of_plain window front (.inr plain), branchesFrom_allStarting_append, inBody,
      branchesFrom_allStarting_append, List.append_assoc, List.singleton_append, inClauses, inRest,
      bodyStart, restStart, behind, Block.attachments, List.map_append, List.map_append]
    rfl

/-- The search finds the branches of the clauses behind a header. -/
theorem Clauses.Fits.branchesFrom_lines {all : List String} (window : Nat) :
    {clauses : Clauses} → {width : Nat} → {statement previous : Keyword} →
    clauses.Fits width statement previous → (front : List String) → (header : String) →
    (between : List String) → previous.heads header = true → indentWidth header = width →
    (∀ line ∈ between, isCode line = true → width < indentWidth line) →
    (front ++ header :: between) ++ clauses.lines <+: all →
    branchesFrom window (allStarting (front ++ header :: between)) (allStarting clauses.lines) =
      (clauses.attachments front.length (front ++ header :: between).length).map
        (Attachment.expected all window)
  | .nil, _, _, _, _, _, _, _, _, _, _, _ => rfl
  | .cons keyword line body more, width, statement, previous,
      ⟨order, lineHeads, lineLevel, ⟨inner, bodyDeeper, bodyFits⟩, moreFits⟩,
      front, header, between, heads, level, deeper, within => by
    rw [Clauses.lines] at within
    have inBody := bodyFits.branchesFrom_lines window ((front ++ header :: between) ++ [line])
      (List.IsPrefix.trans ⟨more.lines, by simp⟩ within)
    have inMore := moreFits.branchesFrom_lines window (front ++ header :: between) line body.lines
      lineHeads lineLevel
      (fun other member code =>
        Nat.lt_of_lt_of_le bodyDeeper (bodyFits.le_indentWidth other member code))
      (by simpa using within)
    have here : (branchAt (allStarting ((front ++ header :: between) ++ [line])) window
        (front ++ header :: between).length).toList =
        ((keyword.branchKind?.map fun kind =>
          Attachment.mk (front ++ header :: between).length kind front.length).toList).map
            (Attachment.expected all window) := by
      have classified := Keyword.classify_of_heads lineHeads
      cases branch : keyword.branchKind? with
      | none =>
        rw [branch] at classified
        rw [branchAt_concat_of_plain window _ (.inr classified)]
        rfl
      | some kind =>
        rw [branch] at classified
        rw [branchAt_concat_of_clause window (Keyword.isCode_of_heads lineHeads) classified
          (Keyword.isCode_of_heads heads) (Keyword.accepts_of_heads branch order heads)
          (level.trans lineLevel.symm) (fun other member code => lineLevel ▸ deeper other member code)
          within]
        rfl
    have bodyStart : ((front ++ header :: between) ++ [line]).length =
        (front ++ header :: between).length + 1 := List.length_append
    have moreStart : ((front ++ header :: between) ++ line :: body.lines).length =
        (front ++ header :: between).length + 1 + body.lines.length := by
      rw [List.length_append, List.length_cons]
      omega
    rw [Clauses.lines, List.cons_append, branchesFrom_cons, here, branchesFrom_allStarting_append,
      inBody, List.append_assoc _ [line], List.singleton_append, inMore, bodyStart, moreStart,
      Clauses.attachments, List.map_append, List.map_append]

end

end Search

/-- **The search recovers the block structure.** -/
theorem branches_lines {block : Block} {width : Nat} (fits : block.Fits width)
    (closed : ∀ line ∈ block.lines, Carry.closed.after line = .closed) (window : Nat) :
    branches block.lines window =
      (block.attachments 0).map (Attachment.expected block.lines window) := by
  rw [branches_eq_branchesFrom, markLines_of_closed closed]
  exact fits.branchesFrom_lines window [] List.prefix_rfl

/-- A conditional around a loop, each with an `else` of its own. -/
def nestedProgram : Block :=
  .compound .if_ "if a:"
    (.compound .for_ "    for b in c:" (.simple "        d()" .nil)
      (.cons .else_ "    else:" (.filler "        # none left" (.simple "\te()" .nil)) .nil) .nil)
    (.cons .elif "elif f: g()" .nil (.cons .else_ "else:" (.simple "  h()" .nil) .nil)) .nil

theorem branches_lines_nestedProgram :
    nestedProgram.Fits 0 ∧ (∀ line ∈ nestedProgram.lines, Carry.closed.after line = .closed) ∧
      branches nestedProgram.lines 4 =
        [⟨3, .otherwise, .aligned 1⟩, ⟨6, .elseIf, .orphaned⟩, ⟨7, .otherwise, .aligned 6⟩] := by
  have fits : nestedProgram.Fits 0 := by
    have ifHeader : Keyword.if_.heads "if a:" = true := by decide +kernel
    have forHeader : Keyword.for_.heads "    for b in c:" = true := by decide +kernel
    have innerElse : Keyword.else_.heads "    else:" = true := by decide +kernel
    have elifHeader : Keyword.elif.heads "elif f: g()" = true := by decide +kernel
    have outerElse : Keyword.else_.heads "else:" = true := by decide +kernel
    have bodies : (Block.simple "        d()" .nil).Fits 8 ∧
        (Block.filler "        # none left" (.simple "\te()" .nil)).Fits 8 ∧
          (Block.simple "  h()" .nil).Fits 2 := by
      simp only [Block.Fits]
      decide +kernel
    exact ⟨rfl, ifHeader, rfl,
      ⟨4, by decide, rfl, forHeader, rfl, ⟨8, by decide, bodies.1⟩,
        ⟨rfl, innerElse, rfl, ⟨8, by decide, bodies.2.1⟩, trivial⟩, trivial⟩,
      ⟨rfl, elifHeader, rfl, ⟨1, by decide, trivial⟩,
        rfl, outerElse, rfl, ⟨2, by decide, bodies.2.2⟩, trivial⟩, trivial⟩
  have closed : ∀ line ∈ nestedProgram.lines, Carry.closed.after line = .closed := by
    decide +kernel
  have attached : nestedProgram.attachments 0 =
      [⟨3, .otherwise, 1⟩, ⟨6, .elseIf, 0⟩, ⟨7, .otherwise, 6⟩] := by
    decide +kernel
  have distances : (nestedProgram.attachments 0).map (fun attachment =>
      ((nestedProgram.lines.take attachment.index).drop attachment.opener).countP isCode) =
        [2, 5, 1] := by
    decide +kernel
  refine ⟨fits, closed, ?_⟩
  rw [attached] at distances
  obtain ⟨first, more⟩ := List.cons.inj distances
  obtain ⟨second, more⟩ := List.cons.inj more
  obtain ⟨third, -⟩ := List.cons.inj more
  rw [branches_lines fits closed, attached]
  simp only [List.map_cons, List.map_nil, Attachment.expected, first, second, third]
  rfl

end StrategyMend.Source
