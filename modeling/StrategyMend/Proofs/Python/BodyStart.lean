import StrategyMend.Proofs.Python.LineStarts
import StrategyMend.Proofs.Python.PlainHeads

/-!
# Where a body starts

The body of a function with a plain head starts with the first line behind the colon that is not idle,
if that line is indented further than the header (`FunctionBegun.exists_lines`).
-/

set_option autoImplicit false

namespace StrategyMend.Python

/-- Lines with a line break behind each. -/
def idleText (lines : List (List Char)) : List Char := lines.flatMap fun line => line ++ ['\n']

/-- Behind `above` a header stands in the text: a margin, a head, a colon, idle lines, and the first
line of the body, which is indented further. -/
structure HasHeader (text above margin head : List Char) (idles : List (List Char))
    (indent : List Char) (c : Char) (shown : List Char) : Prop where
  text_eq : text = above ++ (margin ++ (head ++ ':' :: (idleText idles ++ (indent ++ c :: shown))))
  ends : EndsLine above
  whole : ∀ top, above = top ++ ['\n'] → IsWhole top
  blank : ∀ c ∈ margin, c = ' ' ∨ c = '\t'
  headed : IsPlainHead head
  nonempty : idles ≠ []
  idle : ∀ line ∈ idles, '\n' ∉ line ∧ isIdle line = true
  indented : ∀ c ∈ indent, c = ' ' ∨ c = '\t'
  deeper : marginColumn margin < marginColumn indent
  visible : isGapChar c = false ∧ c ≠ '\n'
  code : c ≠ '#'
  plain : c ≠ '\\'

section HasHeader

variable {text above margin head indent shown : List Char} {idles : List (List Char)} {c : Char}
  (header : HasHeader text above margin head idles indent c shown)
include header

/-- The header is a line of the text. -/
theorem HasHeader.exists_hasLine :
    ∃ d more, head ++ ':' :: (idleText idles ++ (indent ++ c :: shown)) = d :: more ∧
      HasLine text above margin d more := by
  cases heads : head with
  | nil =>
    refine ⟨':', _, rfl, ?_, header.ends, header.whole, header.blank, by decide, by decide, by decide⟩
    rw [header.text_eq, heads, List.nil_append]
  | cons d more =>
    have plain := header.headed.plain d (by simp [heads])
    have visible := header.headed.visible d (by simp [heads])
    have other : ∀ e ∈ ['#', '\\'], d ≠ e := by
      rintro e listed rfl
      rcases plain with plain | rfl
      · simp only [List.mem_cons, List.not_mem_nil, or_false] at listed
        rcases listed with rfl | rfl
        · cases plain
        · cases plain
      · exact visible.2 rfl
    refine ⟨d, _, rfl, ?_, header.ends, header.whole, header.blank, visible, other _ (by simp),
      other _ (by simp)⟩
    rw [header.text_eq, heads]
    rfl

/-- The first of the idle lines does not make the colon of the header another mark. -/
theorem HasHeader.head?_ne : (idleText idles ++ (indent ++ c :: shown)).head? ≠ some '=' := by
  obtain ⟨line, lines, same⟩ := List.exists_cons_of_ne_nil header.nonempty
  have idle := (header.idle line (by simp [same])).2
  rw [same, idleText, List.flatMap_cons]
  cases line with
  | nil => simp
  | cons d line =>
    rintro begins
    obtain rfl : d = '=' := by simpa using begins
    simp [isIdle, isSoft] at idle

/-- **The body starts with the first line behind the colon that is not idle,** since this line is
indented further than the header. -/
theorem FunctionBegun.exists_lines {function : FunctionInfo} (begun : FunctionBegun text function)
    (row : function.row = above.count '\n') :
    ∃ start last, start.lookahead.2 = c :: shown ∧ start.Inside ∧
      start.indent = marginColumn indent ∧ Derives .lines start function.body last ∧ ¬last.Inside := by
  cases begun with | @intro start behind next opens inside row_eq heads suite => ?_
  obtain ⟨d, more, same, line⟩ := header.exists_hasLine
  have rows : start.lookahead.1.row = above.count '\n' := row_eq.symm.trans row
  have text := opens.lookahead_of_hasLine line rows heads.present
  have rest := heads.rest_eq header.headed header.head?_ne (text.trans same.symm)
  have level : behind.indent ≤ marginColumn margin := by
    rw [Cursor.indent, heads.blocks_eq]
    exact opens.indent_le line rows inside heads.present
  obtain ⟨lexeme, -, column⟩ := Cursor.lookahead_idle rest header.nonempty header.idle header.indented
    header.visible header.code header.plain
  generalize function.body = body at suite
  cases suite with
  | beside unbroken => cases unbroken.symm.trans column
  | empty here outside =>
    obtain rfl := Option.some.inj (here.symm.trans column)
    have := header.deeper
    omega
  | @deeper _ last column' _ here deeper lines ended =>
    obtain rfl := Option.some.inj (here.symm.trans column)
    refine ⟨{ behind with blocks := marginColumn indent :: behind.blocks }, last, lexeme,
      fun column' there => ?_, rfl, lines, ended⟩
    obtain rfl := Option.some.inj (there.symm.trans column)
    exact Nat.le_refl _

end HasHeader

end StrategyMend.Python
