import Mathlib.Data.List.Basic
import StrategyMend.Repair.Patch

/-!
# Edits made one after the other and edits made at once

An edit changes the numbers of the lines behind it. So edits can be made one after the other with the
line numbers of the original lines only if each lies in front of those made before.

The lines after all edits are made at once (`simultaneous`) are described line by line over the original
numbering. Making one more edit, which lies in front of all others, gives the lines of all of them made
at once (`edit?_simultaneous`), and so does a run of such edits (`foldlM_edit?_simultaneous`). On the
way no edit falls outside of the lines it is made in: `Fix.edit?` fails then.
-/

set_option autoImplicit false

namespace StrategyMend.Repair

namespace Fix

/-! ## What an edit touches -/

/-- The lines after the edit; there are none if the edit reaches outside of the lines. -/
def edit? (fix : Fix) (lines : List String) : Option (List String) :=
  if fix.inRange lines.length then some (fix.edit lines) else none

/-- The fix puts new lines in front of the line with this number. -/
def insertsAt (fix : Fix) (number : Nat) : Bool := fix.editKind = .insert ∧ fix.line = number

/-- The fix removes or replaces the line with this number. -/
def covers (fix : Fix) (number : Nat) : Bool :=
  (fix.editKind = .delete ∨ fix.editKind = .replace) ∧ fix.line ≤ number ∧ number ≤ fix.endLine

/-- The number of the last line that the edit takes away, or of the last one in front of new lines. -/
def reach (fix : Fix) : Nat := if fix.isInsert then fix.line - 1 else fix.endLine

/-- Everything that `later` changes lies behind everything that `fix` changes. -/
def Before (fix later : Fix) : Prop :=
  fix.reach < later.line ∧ (fix.isInsert = true → later.isInsert = true → fix.line < later.line)

theorem isInsert_iff {fix : Fix} : fix.isInsert = true ↔ fix.editKind = .insert := by
  simp [isInsert]

theorem isInsert_eq_false_iff {fix : Fix} (changes : fix.editKind ≠ .noChange) :
    fix.isInsert = false ↔ fix.editKind = .delete ∨ fix.editKind = .replace := by
  cases kind : fix.editKind <;> simp_all [isInsert]

theorem isInsert_eq_decide (fix : Fix) : fix.isInsert = decide (fix.removed = "") := by
  unfold isInsert editKind
  by_cases none : fix.removed = ""
  · simp [none]
  · by_cases empty : fix.replacement = "" <;> by_cases same : fix.removed = fix.replacement <;>
      simp [none, empty, same]

theorem editKind_eq_delete_iff {fix : Fix} :
    fix.editKind = .delete ↔ fix.removed ≠ "" ∧ fix.replacement = "" := by
  unfold editKind
  by_cases none : fix.removed = ""
  · simp [none]
  · by_cases empty : fix.replacement = "" <;> by_cases same : fix.removed = fix.replacement <;>
      simp [none, empty, same]

theorem editKind_eq_noChange_iff {fix : Fix} :
    fix.editKind = .noChange ↔
      fix.removed ≠ "" ∧ fix.replacement ≠ "" ∧ fix.removed = fix.replacement := by
  unfold editKind
  by_cases none : fix.removed = ""
  · simp [none]
  · by_cases empty : fix.replacement = "" <;> by_cases same : fix.removed = fix.replacement <;>
      simp [none, empty, same]

/-- Lines that are only removed are replaced by none. -/
theorem replacementLines_of_delete {fix : Fix} (removes : fix.editKind = .delete) :
    fix.replacementLines = [] :=
  if_pos (editKind_eq_delete_iff.mp removes).2

/-- An edit cuts out the lines up to its reach and puts its own lines there. -/
theorem edit_eq {fix : Fix} (changes : fix.editKind ≠ .noChange) (lines : List String) :
    fix.edit lines =
      lines.take (fix.line - 1) ++ fix.replacementLines ++ lines.drop fix.reach := by
  cases kind : fix.editKind with
  | insert => simp [edit, reach, isInsert, kind]
  | delete => simp [edit, reach, isInsert, kind, replacementLines_of_delete kind]
  | replace => simp [edit, reach, isInsert, kind]
  | noChange => exact absurd kind changes

theorem line_pos_of_inRange {fix : Fix} {count : Nat} (inside : fix.inRange count = true) :
    1 ≤ fix.line := by
  unfold inRange at inside
  split at inside
  · simp only [Bool.and_eq_true, decide_eq_true_eq] at inside
    exact inside.1
  · simp only [Bool.and_eq_true, decide_eq_true_eq] at inside
    exact inside.1.1

theorem inRange_iff_reach {fix : Fix} {count : Nat} (positive : 1 ≤ fix.line) :
    fix.inRange count = true ↔
      fix.reach ≤ count ∧ (fix.isInsert = false → fix.line ≤ fix.endLine) := by
  cases kind : fix.isInsert with
  | true =>
    simp only [inRange, reach, kind, ↓reduceIte, Bool.and_eq_true, decide_eq_true_eq]
    constructor
    · rintro ⟨-, upTo⟩
      exact ⟨by omega, by simp⟩
    · rintro ⟨upTo, -⟩
      exact ⟨positive, by omega⟩
  | false =>
    simp only [inRange, reach, kind, Bool.false_eq_true, ↓reduceIte, Bool.and_eq_true,
      decide_eq_true_eq]
    constructor
    · rintro ⟨⟨-, ordered⟩, upTo⟩
      exact ⟨upTo, fun _ => ordered⟩
    · rintro ⟨upTo, ordered⟩
      exact ⟨⟨positive, ordered trivial⟩, upTo⟩

theorem line_le_reach {fix : Fix} {count : Nat} (inside : fix.inRange count = true) :
    fix.line ≤ fix.reach + 1 := by
  have ordered := ((inRange_iff_reach (line_pos_of_inRange inside)).mp inside).2
  cases kind : fix.isInsert with
  | true =>
    simp only [reach, kind, ↓reduceIte]
    omega
  | false =>
    have upTo := ordered kind
    simp only [reach, kind, Bool.false_eq_true, ↓reduceIte]
    omega

theorem Before.insertsAt_eq_false {fix later : Fix} (before : fix.Before later) {number : Nat}
    (upTo : number ≤ fix.reach) : later.insertsAt number = false := by
  have behind := before.1
  simp only [insertsAt, decide_eq_false_iff_not, not_and]
  omega

theorem Before.covers_eq_false {fix later : Fix} (before : fix.Before later) {number : Nat}
    (upTo : number ≤ fix.reach) : later.covers number = false := by
  have behind := before.1
  simp only [covers, decide_eq_false_iff_not, not_and]
  omega

end Fix

/-! ## Edits made at once -/

/-- The lines that the accepted fix with new lines for this place puts there. -/
def insertedAt (accepted : List Fix) (number : Nat) : List String :=
  match accepted.find? fun fix => fix.insertsAt number with
  | some fix => fix.replacementLines
  | none => []

/-- What becomes of the line with this number: the fix that removes or replaces it puts its own lines
at the first of its lines, and without such a fix the line stays. -/
def remainderAt (accepted : List Fix) (lines : List String) (number : Nat) : List String :=
  match accepted.find? fun fix => fix.covers number with
  | some fix =>
    if fix.editKind = .replace ∧ fix.line = number then fix.replacementLines else []
  | none => lines[number - 1]?.toList

/-- What stands for `count` lines from the number `start` on. -/
def between (accepted : List Fix) (lines : List String) (start count : Nat) : List String :=
  (List.range' start count).flatMap fun number =>
    insertedAt accepted number ++ remainderAt accepted lines number

/-- The lines after all accepted fixes are made at once. The number after that of the last line stands
for the end of the lines, where new lines may go too. -/
def simultaneous (accepted : List Fix) (lines : List String) : List String :=
  between accepted lines 1 (lines.length + 1)

section Between

variable {accepted : List Fix} {lines : List String} {fix : Fix} {number : Nat}

theorem insertedAt_of_forall (free : ∀ fix ∈ accepted, fix.insertsAt number = false) :
    insertedAt accepted number = [] := by
  have missing : accepted.find? (fun fix => fix.insertsAt number) = none := by
    simpa using free
  rw [insertedAt, missing]

theorem remainderAt_of_forall (free : ∀ fix ∈ accepted, fix.covers number = false) :
    remainderAt accepted lines number = lines[number - 1]?.toList := by
  have missing : accepted.find? (fun fix => fix.covers number) = none := by
    simpa using free
  rw [remainderAt, missing]

theorem insertedAt_concat_of_not (elsewhere : fix.insertsAt number = false) :
    insertedAt (accepted ++ [fix]) number = insertedAt accepted number := by
  simp [insertedAt, elsewhere]

theorem remainderAt_concat_of_not (elsewhere : fix.covers number = false) :
    remainderAt (accepted ++ [fix]) lines number = remainderAt accepted lines number := by
  simp [remainderAt, elsewhere]

theorem insertedAt_concat (here : fix.insertsAt number = true)
    (free : ∀ other ∈ accepted, other.insertsAt number = false) :
    insertedAt (accepted ++ [fix]) number = fix.replacementLines := by
  have missing : accepted.find? (fun fix => fix.insertsAt number) = none := by
    simpa using free
  simp [insertedAt, here, missing]

theorem remainderAt_concat (here : fix.covers number = true)
    (free : ∀ other ∈ accepted, other.covers number = false) :
    remainderAt (accepted ++ [fix]) lines number =
      if fix.line = number then fix.replacementLines else [] := by
  have missing : accepted.find? (fun fix => fix.covers number) = none := by
    simpa using free
  have kind : fix.editKind = .delete ∨ fix.editKind = .replace := by
    simp only [Fix.covers, decide_eq_true_eq] at here
    exact here.1
  rcases kind with removes | replaces
  · simp [remainderAt, here, missing, removes, Fix.replacementLines_of_delete removes]
  · simp [remainderAt, here, missing, replaces]

theorem between_add (start count more : Nat) :
    between accepted lines start (count + more) =
      between accepted lines start count ++ between accepted lines (start + count) more := by
  rw [between, ← List.range'_append_1, List.flatMap_append]
  rfl

theorem simultaneous_split (count : Nat) (upTo : count ≤ lines.length + 1) :
    simultaneous accepted lines =
      between accepted lines 1 count ++
        between accepted lines (count + 1) (lines.length + 1 - count) := by
  have total : lines.length + 1 = count + (lines.length + 1 - count) := by omega
  rw [simultaneous, Nat.add_comm count 1, ← between_add, ← total]

theorem between_succ (start count : Nat) :
    between accepted lines start (count + 1) =
      insertedAt accepted start ++ remainderAt accepted lines start ++
        between accepted lines (start + 1) count := by
  simp [between, List.range'_succ]

/-- Lines that no fix changes stay. -/
theorem between_one_of_forall (count : Nat)
    (free : ∀ number ≤ count, ∀ fix ∈ accepted,
      fix.insertsAt number = false ∧ fix.covers number = false) :
    between accepted lines 1 count = lines.take count := by
  induction count with
  | zero => simp [between]
  | succ count ih =>
    have last : between accepted lines (1 + count) 1 = lines[count]?.toList := by
      have here := free (1 + count) (by omega)
      simp [between, insertedAt_of_forall fun fix member => (here fix member).1,
        remainderAt_of_forall fun fix member => (here fix member).2]
    rw [between_add, last, ih fun number upTo => free number (by omega), List.take_add_one]

/-- A further fix changes nothing where it does not act. -/
theorem between_concat_of_not (start count : Nat)
    (elsewhere : ∀ number, start ≤ number → number < start + count →
      fix.insertsAt number = false ∧ fix.covers number = false) :
    between (accepted ++ [fix]) lines start count = between accepted lines start count := by
  refine List.flatMap_congr fun number member => ?_
  obtain ⟨atLeast, below⟩ := List.mem_range'_1.mp member
  obtain ⟨inserts, covers⟩ := elsewhere number atLeast below
  rw [insertedAt_concat_of_not inserts, remainderAt_concat_of_not covers]

end Between

/-! ## One more edit -/

section Step

variable {accepted : List Fix} {lines : List String} {fix : Fix}

/-- The lines up to the reach of a fix are not changed by those behind it. -/
theorem between_before (before : ∀ later ∈ accepted, fix.Before later) {count : Nat}
    (upTo : count ≤ fix.reach) : between accepted lines 1 count = lines.take count :=
  between_one_of_forall count fun _ small later member =>
    ⟨(before later member).insertsAt_eq_false (Nat.le_trans small upTo),
      (before later member).covers_eq_false (Nat.le_trans small upTo)⟩

/-- The lines in front of a fix stay. -/
theorem between_front (before : ∀ later ∈ accepted, fix.Before later)
    (upTo : fix.line ≤ fix.reach + 1) :
    between (accepted ++ [fix]) lines 1 (fix.line - 1) = lines.take (fix.line - 1) := by
  rw [between_concat_of_not, between_before before (by omega)]
  intro number _ below
  simp only [Fix.insertsAt, Fix.covers, decide_eq_false_iff_not, not_and]
  omega

/-- New lines go in front of what stands from their place on. -/
theorem between_insert (inserts : fix.isInsert = true)
    (before : ∀ later ∈ accepted, fix.Before later) (count : Nat) :
    between (accepted ++ [fix]) lines fix.line (count + 1) =
      fix.replacementLines ++ between accepted lines fix.line (count + 1) := by
  have kind : fix.editKind = .insert := Fix.isInsert_iff.mp inserts
  have covers : ∀ number, fix.covers number = false := by simp [Fix.covers, kind]
  have alone : ∀ later ∈ accepted, later.insertsAt fix.line = false := by
    intro later member
    have behind := (before later member).2 inserts
    simp only [Fix.insertsAt, decide_eq_false_iff_not, not_and]
    intro kind' same
    have := behind (Fix.isInsert_iff.mpr kind')
    omega
  have back : between (accepted ++ [fix]) lines (fix.line + 1) count =
      between accepted lines (fix.line + 1) count := by
    refine between_concat_of_not _ _ fun number start _ => ⟨?_, covers number⟩
    simp only [Fix.insertsAt, decide_eq_false_iff_not, not_and]
    omega
  rw [between_succ, between_succ, insertedAt_concat (by simp [Fix.insertsAt, kind]) alone,
    remainderAt_concat_of_not (covers _), insertedAt_of_forall alone, back]
  simp

/-- The lines of a fix with a span stand for the lines that it takes away. -/
theorem between_span (span : fix.editKind = .delete ∨ fix.editKind = .replace)
    (before : ∀ later ∈ accepted, fix.Before later) (ordered : fix.line ≤ fix.endLine) :
    between (accepted ++ [fix]) lines fix.line (fix.endLine + 1 - fix.line) =
      fix.replacementLines := by
  have reached : fix.reach = fix.endLine := by
    rcases span with kind | kind <;> simp [Fix.reach, Fix.isInsert, kind]
  have nowhere : ∀ number, fix.insertsAt number = false := by
    intro number
    rcases span with kind | kind <;> simp [Fix.insertsAt, kind]
  have made : ∀ number, fix.line ≤ number → number ≤ fix.endLine →
      insertedAt (accepted ++ [fix]) number ++ remainderAt (accepted ++ [fix]) lines number =
        if fix.line = number then fix.replacementLines else [] := by
    intro number start upTo
    have here : fix.covers number = true := by simp [Fix.covers, span, start, upTo]
    rw [insertedAt_concat_of_not (nowhere number),
      insertedAt_of_forall fun later member =>
        (before later member).insertsAt_eq_false (by omega),
      remainderAt_concat here fun later member =>
        (before later member).covers_eq_false (by omega), List.nil_append]
  have rest : between (accepted ++ [fix]) lines (fix.line + 1) (fix.endLine - fix.line) = [] := by
    refine List.flatMap_eq_nil_iff.mpr fun number member => ?_
    obtain ⟨start, below⟩ := List.mem_range'_1.mp member
    rw [made number (by omega) (by omega), if_neg (by omega)]
  have count : fix.endLine + 1 - fix.line = fix.endLine - fix.line + 1 := by omega
  rw [count, between_succ, made fix.line (Nat.le_refl _) ordered, if_pos rfl, rest,
    List.append_nil]

/-- From its line on, the lines of one more fix stand in front of what lies behind its reach. -/
theorem between_from_line (changes : fix.editKind ≠ .noChange)
    (inside : fix.inRange lines.length = true) (before : ∀ later ∈ accepted, fix.Before later) :
    between (accepted ++ [fix]) lines fix.line (lines.length + 1 - (fix.line - 1)) =
      fix.replacementLines ++
        between accepted lines (fix.reach + 1) (lines.length + 1 - fix.reach) := by
  have positive := Fix.line_pos_of_inRange inside
  obtain ⟨reached, ordered⟩ := (Fix.inRange_iff_reach positive).mp inside
  cases kind : fix.isInsert with
  | true =>
    have reach : fix.reach = fix.line - 1 := by simp [Fix.reach, kind]
    have count : lines.length + 1 - (fix.line - 1) = lines.length - (fix.line - 1) + 1 := by omega
    rw [reach, count, between_insert kind before, Nat.sub_add_cancel positive]
  | false =>
    have span := (Fix.isInsert_eq_false_iff changes).mp kind
    have reach : fix.reach = fix.endLine := by simp [Fix.reach, kind]
    have upTo := ordered kind
    have back : between (accepted ++ [fix]) lines (fix.endLine + 1)
          (lines.length + 1 - fix.endLine) =
        between accepted lines (fix.endLine + 1) (lines.length + 1 - fix.endLine) := by
      refine between_concat_of_not _ _ fun number start _ => ⟨?_, ?_⟩
      · rcases span with kind' | kind' <;> simp [Fix.insertsAt, kind']
      · simp only [Fix.covers, decide_eq_false_iff_not, not_and]
        omega
    have count : lines.length + 1 - (fix.line - 1) =
        (fix.endLine + 1 - fix.line) + (lines.length + 1 - fix.endLine) := by omega
    have next : fix.line + (fix.endLine + 1 - fix.line) = fix.endLine + 1 := by omega
    rw [count, between_add, between_span span before upTo, next, back, reach]

/-- **One more edit in front of all others** can be made in the lines they leave, and gives the
lines of all of them made at once. -/
theorem edit?_simultaneous (changes : fix.editKind ≠ .noChange)
    (inside : fix.inRange lines.length = true) (before : ∀ later ∈ accepted, fix.Before later) :
    fix.edit? (simultaneous accepted lines) = some (simultaneous (accepted ++ [fix]) lines) := by
  have positive := Fix.line_pos_of_inRange inside
  have upTo := Fix.line_le_reach inside
  obtain ⟨reached, ordered⟩ := (Fix.inRange_iff_reach positive).mp inside
  have old : simultaneous accepted lines =
      lines.take fix.reach ++
        between accepted lines (fix.reach + 1) (lines.length + 1 - fix.reach) := by
    rw [simultaneous_split fix.reach (by omega), between_before before (Nat.le_refl _)]
  have new : simultaneous (accepted ++ [fix]) lines =
      lines.take (fix.line - 1) ++ (fix.replacementLines ++
        between accepted lines (fix.reach + 1) (lines.length + 1 - fix.reach)) := by
    rw [simultaneous_split (fix.line - 1) (by omega), between_front before upTo,
      Nat.sub_add_cancel positive, between_from_line changes inside before]
  have taken : (lines.take fix.reach).length = fix.reach := by simp [reached]
  have fits : fix.inRange (simultaneous accepted lines).length = true := by
    rw [Fix.inRange_iff_reach positive, old, List.length_append, taken]
    exact ⟨by omega, ordered⟩
  rw [Fix.edit?, if_pos fits, Fix.edit_eq changes, new, old,
    List.take_append_of_le_length (by omega), List.take_take, Nat.min_eq_left (by omega),
    List.drop_append_of_le_length (by omega), List.drop_eq_nil_of_le (by omega),
    List.nil_append, List.append_assoc]

end Step

/-! ## Runs of edits -/

/-- **A run of edits from the last line to the first** never reaches outside of the lines and gives
the lines of all edits made at once. -/
theorem foldlM_edit?_simultaneous (lines : List String) (accepted rest : List Fix)
    (changes : ∀ fix ∈ rest, fix.editKind ≠ .noChange)
    (inside : ∀ fix ∈ rest, fix.inRange lines.length = true)
    (ordered : (accepted ++ rest).Pairwise fun later fix => fix.Before later) :
    rest.foldlM (fun patched fix => fix.edit? patched) (simultaneous accepted lines) =
      some (simultaneous (accepted ++ rest) lines) := by
  induction rest generalizing accepted with
  | nil => simp
  | cons fix rest ih =>
    have before : ∀ later ∈ accepted, fix.Before later := fun later member =>
      (List.pairwise_append.mp ordered).2.2 later member fix (by simp)
    rw [List.append_cons] at ordered ⊢
    rw [List.foldlM_cons, edit?_simultaneous (changes fix (by simp)) (inside fix (by simp)) before]
    exact ih (accepted ++ [fix]) (fun later member => changes later (List.mem_cons_of_mem _ member))
      (fun later member => inside later (List.mem_cons_of_mem _ member)) ordered

/-- Without fixes the lines stay. -/
theorem simultaneous_nil (lines : List String) : simultaneous [] lines = lines := by
  rw [simultaneous, between_one_of_forall _ (by simp), List.take_of_length_le (by omega)]

end StrategyMend.Repair
