import StrategyMend.Proofs.Python.Position

/-!
# Reading along a source

A reader leads from cursors with one property to results and cursors with another (`Reader.Leads`).
There is a rule for each way to build a reader: for the results and failures, for two readers in a row,
for the second try of a choice, and for the rounds of a loop. Where a reader depends on the cursor that
it starts from, the rules for one cursor apply (`Reader.leads_from`).

A reader stays in a text if it leads from its positions to its positions. Strings move the row by the
line breaks they hold (`Reader.stays_stringBody`), and everything else goes on behind a lexeme that was
looked at.
-/

set_option autoImplicit false

namespace StrategyMend.Python

namespace Reader

variable {α β : Type} {text chars : List Char} {before : Cursor → Prop}

/-! ## Rules -/

/-- From a cursor with the property `before` the reader gives something that has, with the cursor
behind it, the property `after`. -/
def Leads (before : Cursor → Prop) (reader : Reader α) (after : α → Cursor → Prop) : Prop :=
  ∀ cursor result next, before cursor → reader cursor = some (result, next) → after result next

theorem leads_pure {after : α → Cursor → Prop} {result : α}
    (holds : ∀ cursor, before cursor → after result cursor) : Leads before (pure result) after := by
  intro cursor given next here read
  cases read
  exact holds cursor here

theorem leads_failure {after : α → Cursor → Prop} : Leads before failure after := by
  intro cursor given next here read
  cases read

theorem Leads.bind {reader : Reader α} {next : α → Reader β} {middle : α → Cursor → Prop}
    {after : β → Cursor → Prop} (first : Leads before reader middle)
    (second : ∀ result, Leads (middle result) (next result) after) :
    Leads before (reader >>= next) after := by
  intro cursor result last here read
  obtain ⟨⟨between, cursor'⟩, there, rest⟩ := Option.bind_eq_some_iff.mp read
  exact second between cursor' result last (first cursor between cursor' here there) rest

theorem Leads.orElse {reader other : Reader α} {after : α → Cursor → Prop}
    (first : Leads before reader after) (second : Leads before other after) :
    Leads before (reader <|> other) after := by
  intro cursor result last here read
  change (reader cursor <|> other cursor) = some (result, last) at read
  cases there : reader cursor with
  | none =>
    rw [there] at read
    exact second cursor result last here read
  | some given =>
    rw [there] at read
    cases read
    exact first cursor result last here there

theorem leads_ite {condition : Prop} [Decidable condition] {first second : Reader α}
    {after : α → Cursor → Prop} (yes : condition → Leads before first after)
    (no : ¬condition → Leads before second after) :
    Leads before (if condition then first else second) after := by
  split
  · exact yes ‹_›
  · exact no ‹_›

theorem leads_unless {condition : Prop} [Decidable condition] {next : Unit → Reader α}
    {after : α → Cursor → Prop} (leads : Leads before (next ()) after) :
    Leads before (if condition then failure >>= next else next ()) after :=
  leads_ite (fun _ => leads_failure.bind fun _ => leads) fun _ => leads

theorem Leads.mono {reader : Reader α} {before' : Cursor → Prop} {after after' : α → Cursor → Prop}
    (leads : Leads before reader after) (weaker : ∀ cursor, before' cursor → before cursor)
    (stronger : ∀ result cursor, after result cursor → after' result cursor) :
    Leads before' reader after' :=
  fun cursor result next here read =>
    stronger result next (leads cursor result next (weaker cursor here) read)

theorem Leads.weaken {reader : Reader α} {before' : Cursor → Prop} {after : α → Cursor → Prop}
    (leads : Leads before reader after) (weaker : ∀ cursor, before' cursor → before cursor) :
    Leads before' reader after :=
  leads.mono weaker fun _ _ here => here

theorem peek_apply (place : Place) (cursor : Cursor) :
    peek place cursor = (cursor.peek? place).map fun ahead => (ahead, cursor) := by
  change StateT.run (peek place) cursor = _
  rw [peek, StateT.run_bind]
  cases seen : cursor.peek? place with
  | none =>
    simp only [StateT.run_get, pure_bind, seen, Option.map_none]
    rfl
  | some ahead => simp [seen]

/-- A lexeme is looked at and not passed. -/
theorem leads_peek {place : Place} :
    Leads before (peek place) fun ahead cursor =>
      before cursor ∧ cursor.peek? place = some ahead := by
  intro cursor ahead next here read
  rw [peek_apply] at read
  obtain ⟨found, seen, same⟩ := Option.map_eq_some_iff.mp read
  cases same
  exact ⟨here, seen⟩

/-- The text in front of the next lexeme is looked at and not passed. -/
theorem leads_gapText : Leads before gapText fun _ => before := by
  intro cursor text next here read
  cases read
  exact here

/-- Each step keeps the invariant, and the last one gives what holds in the end. -/
theorem leads_iterate {step : α → Reader (Option α)} (invariant after : α → Cursor → Prop)
    {start : α}
    (preserves : ∀ state, Leads (invariant state) (step state) fun next cursor =>
      next.elim (after state cursor) fun state' => invariant state' cursor) :
    Leads (invariant start) (iterate step start) after := by
  have run (fuel : Nat) (state : α) : Leads (invariant state) (iterateFor step fuel state) after := by
    induction fuel generalizing state with
    | zero => exact leads_failure
    | succ fuel ih =>
      refine (preserves state).bind fun next => ?_
      cases next with
      | none => exact leads_pure fun _ ended => ended
      | some state' => exact ih state'
  intro cursor result next here read
  exact run (cursor.rest.length + 2) start cursor result next here read

/-! ## Readers from one cursor -/

section From

variable {cursor : Cursor} {after : β → Cursor → Prop}

/-- It is enough to look at each cursor. -/
theorem leads_from {reader : Reader β}
    (leads : ∀ cursor, before cursor → Leads (· = cursor) reader after) :
    Leads before reader after :=
  fun cursor result next here read => leads cursor here cursor result next rfl read

theorem Leads.from {reader : Reader β} (leads : Leads before reader after)
    (here : before cursor) : Leads (· = cursor) reader after := by
  rintro _ result next rfl read
  exact leads _ result next here read

theorem leads_pure_from {result : β} (holds : after result cursor) :
    Leads (· = cursor) (pure result) after :=
  leads_pure fun _ same => same ▸ holds

theorem leads_peek_from {place : Place} {next : Lookahead → Reader β}
    (leads : ∀ ahead, cursor.peek? place = some ahead → Leads (· = cursor) (next ahead) after) :
    Leads (· = cursor) (peek place >>= next) after := by
  refine leads_peek.bind fun ahead => leads_from ?_
  rintro _ ⟨rfl, seen⟩
  exact leads ahead seen

theorem leads_get_from {next : Cursor → Reader β} (leads : Leads (· = cursor) (next cursor) after) :
    Leads (· = cursor) (get >>= next) after := by
  rintro _ result last rfl read
  exact leads _ result last rfl read

/-- Where the reader was does not matter if it is put elsewhere. -/
theorem leads_set {next : Unit → Reader β} (leads : Leads (· = cursor) (next ()) after) :
    Leads before (set cursor >>= next) after :=
  fun _ result last _ read => leads cursor result last rfl read

theorem leads_pass_from {ahead : Lookahead} {next : Unit → Reader β}
    (leads : Leads (· = ahead.after) (next ()) after) :
    Leads (· = cursor) (pass ahead >>= next) after :=
  leads_set leads

end From

/-! ## Readers that stay in the text -/

/-- From a cursor of the text the reader comes to a cursor of the text. -/
abbrev Stays (text : List Char) (reader : Reader α) : Prop :=
  Leads (Cursor.IsAt text) reader fun _ => Cursor.IsAt text

theorem stays_pure {result : α} : Stays text (pure result) := leads_pure fun _ here => here

theorem stays_failure : Stays text (failure : Reader α) := leads_failure

theorem stays_ite {condition : Prop} [Decidable condition] {first second : Reader α}
    (yes : Stays text first) (no : Stays text second) :
    Stays text (if condition then first else second) :=
  leads_ite (fun _ => yes) fun _ => no

theorem stays_iterate {step : α → Reader (Option α)} {start : α}
    (stays : ∀ state, Stays text (step state)) : Stays text (iterate step start) :=
  leads_iterate (fun _ => Cursor.IsAt text) (fun _ => Cursor.IsAt text) fun state =>
    (stays state).mono (fun _ here => here) fun next _ here => by cases next <;> exact here

/-- What is looked at from a cursor of the text is a lexeme of the text. -/
theorem leads_peek_at {place : Place} {next : Lookahead → Reader β} {after : β → Cursor → Prop}
    (leads : ∀ ahead, ahead.IsIn text → Leads (Cursor.IsAt text) (next ahead) after) :
    Leads (Cursor.IsAt text) (peek place >>= next) after := by
  refine leads_peek.bind fun ahead cursor result last here read => ?_
  exact leads ahead (here.1.peek? here.2) cursor result last here.1 read

theorem stays_peek {place : Place} {next : Lookahead → Reader β}
    (stays : ∀ ahead, ahead.IsIn text → Stays text (next ahead)) :
    Stays text (peek place >>= next) :=
  leads_peek_at stays

theorem stays_pass {ahead : Lookahead} (seen : ahead.IsIn text) : Stays text (pass ahead) := by
  intro cursor result last here read
  cases read
  exact seen.isAt

theorem stays_expectMark (place : Place) (sign : String) : Stays text (expectMark place sign) :=
  stays_peek fun _ seen => stays_ite (stays_pass seen) stays_failure

theorem stays_expectWord (place : Place) (word : String) : Stays text (expectWord place word) :=
  stays_peek fun _ seen => stays_ite (stays_pass seen) stays_failure

theorem stays_tryMark (place : Place) (sign : String) : Stays text (tryMark place sign) :=
  stays_peek fun _ seen => stays_ite ((stays_pass seen).bind fun _ => stays_pure) stays_pure

theorem stays_anyWord (place : Place) : Stays text (anyWord place) := by
  refine stays_peek fun ahead seen => ?_
  split
  · exact (stays_pass seen).bind fun _ => stays_pure
  · exact stays_failure

/-- A cursor of the text where the text goes on with `chars`. -/
def IsBefore (text chars : List Char) (cursor : Cursor) : Prop :=
  cursor.IsAt text ∧ cursor.rest = chars

/-- The gap before the next lexeme is passed. -/
theorem leads_settle : Leads (Cursor.IsAt text) settle (IsBefore text) := by
  intro cursor shown next here read
  cases read
  exact ⟨here.settled.1, rfl⟩

/-- What follows need not be known. -/
theorem stays_before {reader : Reader α} (stays : Stays text reader) :
    Leads (IsBefore text chars) reader fun _ => Cursor.IsAt text :=
  stays.mono (fun _ here => here.1) fun _ _ here => here

theorem leads_rest {next : Cursor → Reader β} {after : β → Cursor → Prop}
    (leads : ∀ cursor, Leads (IsBefore text cursor.rest) (next cursor) after) :
    Leads (Cursor.IsAt text) (get >>= next) after :=
  fun cursor result last here read => leads cursor cursor result last ⟨here, rfl⟩ read

theorem leads_advanceRows {count rows : Nat} (passes : (chars.take count).count '\n' = rows) :
    Leads (IsBefore text chars) (advanceRows count rows) fun _ => Cursor.IsAt text := by
  rintro cursor result next ⟨here, rfl⟩ read
  cases read
  exact here.trans (passes ▸ leaves_drop count cursor.rest)

theorem leads_advance {count : Nat} (free : '\n' ∉ chars.take count) :
    Leads (IsBefore text chars) (advance count) fun _ => Cursor.IsAt text :=
  leads_advanceRows (List.count_eq_zero.mpr free)

theorem leads_advance_one {c : Char} (plain : c ≠ '\n') (next : chars.head? = some c) :
    Leads (IsBefore text chars) (advance 1) fun _ => Cursor.IsAt text := by
  obtain ⟨more, rfl⟩ := List.head?_eq_some_iff.mp next
  exact leads_advance (by simpa using plain.symm)

/-! ## Strings -/

/-- The digits of an escape are no line breaks. -/
theorem count_take_of_beginsWithHex {count : Nat} {text : List Char}
    (hex : beginsWithHex count text = true) : (text.take count).count '\n' = 0 := by
  rw [List.count_eq_zero]
  intro member
  have digit := List.all_eq_true.mp (Bool.and_eq_true_iff.mp hex).2 '\n' member
  cases digit

/-- An escape is as many rows long as it is said to be. -/
theorem count_escapeLength {text : List Char} {length rows : Nat}
    (escape : escapeLength text = some (length, rows)) : (text.take length).count '\n' = rows := by
  unfold escapeLength at escape
  split at escape
  · cases escape
    rfl
  · cases escape
    rfl
  · rename_i name
    obtain ⟨closed, same⟩ := Option.ite_none_right_eq_some.mp escape
    cases same
    have shorter : (name.takeWhile (· ≠ '}')).length < name.length := by
      simpa using (Bool.and_eq_true_iff.mp closed).2
    have parts : name.takeWhile (· ≠ '}') ++ name.dropWhile (· ≠ '}') = name :=
      List.takeWhile_append_dropWhile
    have brace := List.head?_dropWhile_not (· ≠ '}') name
    generalize name.takeWhile (· ≠ '}') = inside at *
    cases rest : name.dropWhile (· ≠ '}') with
    | nil =>
      rw [rest, List.append_nil] at parts
      rw [parts] at shorter
      exact absurd shorter (Nat.lt_irrefl _)
    | cons c more =>
      rw [rest] at brace
      obtain rfl : c = '}' := by simpa using brace
      rw [← parts, rest]
      simp [List.take_append, List.take_of_length_le (Nat.le_succ inside.length)]
  · rename_i c rest plain _ _
    have digits (count : Nat) (hex : beginsWithHex count rest = true) :
        ((c :: rest).take (count + 1)).count '\n' = 0 := by
      rw [List.take_succ_cons, List.count_cons_of_ne plain, count_take_of_beginsWithHex hex]
    split at escape
    · cases escape
      exact List.count_cons_of_ne plain
    split at escape
    · rename_i hex
      cases escape
      exact digits 4 (Bool.and_eq_true_iff.mp hex).2
    split at escape
    · rename_i hex
      cases escape
      exact digits 8 (Bool.and_eq_true_iff.mp hex).2
    split at escape
    · rename_i hex
      cases escape
      exact digits 2 (Bool.and_eq_true_iff.mp hex).2
    split at escape
    · cases escape
      have front := List.prefix_iff_eq_take.mp
        (((List.takeWhile_prefix Char.isDigit).trans (List.take_prefix 3 (c :: rest))))
      rw [← front, List.count_eq_zero]
      exact fun member => by cases List.mem_takeWhile_imp member
    · cases escape
  · cases escape

/-- A backslash in a raw string is passed with what it protects. -/
theorem leads_passRawEscape {quote : Char} (quoted : quote ≠ '\n') (rest : List Char) :
    Leads (IsBefore text ('\\' :: rest)) (passRawEscape quote rest) fun _ => Cursor.IsAt text := by
  unfold passRawEscape
  split
  · rename_i c rest
    by_cases delimiter : c = quote || c = '\\'
    · have plain : c ≠ '\n' := by
        rintro rfl
        simp [quoted.symm] at delimiter
      simp only [delimiter, if_true]
      split
      · exact leads_advanceRows (by simp [plain])
      · exact leads_advanceRows (by simp [plain])
      · exact leads_advance (by simp [plain.symm])
      · exact leads_advance (by simp [plain.symm])
    · simp only [delimiter]
      split
      · rename_i same
        cases same
        exact leads_advanceRows rfl
      · rename_i same
        cases same
        exact leads_advanceRows rfl
      · rename_i same
        cases same
        exact leads_advance (by simp)
      · exact leads_advance (by simp)
  · exact leads_advance (by simp)

/-- One piece of a string is passed, with the line breaks in it. -/
theorem stays_stringPiece {interpolation : Reader (List Expression)}
    (inner : Stays text interpolation) {form : StringForm} (quoted : form.quote ≠ '\n')
    (state : StringState) : Stays text (stringPiece interpolation form state) := by
  refine leads_ite (fun _ => stays_pure) fun _ => leads_rest fun cursor => ?_
  split
  · exact leads_failure
  rename_i c rest shown
  rw [shown]
  have one (plain : c ≠ '\n') :
      Leads (IsBefore text (c :: rest)) (advance 1) fun _ => Cursor.IsAt text :=
    leads_advance_one plain rfl
  have two {d : Char} (plain : c ≠ '\n') (plain' : d ≠ '\n') (doubled : rest.head? = some d) :
      Leads (IsBefore text (c :: rest)) (advance 2) fun _ => Cursor.IsAt text := by
    obtain ⟨more, rfl⟩ := List.head?_eq_some_iff.mp doubled
    exact leads_advance (by simp [plain.symm, plain'.symm])
  refine leads_ite (fun brace => ?_) fun _ => ?_
  · obtain rfl : c = '{' := by simpa using (Bool.and_eq_true_iff.mp brace).2
    refine leads_ite (fun doubled => ?_) fun _ => ?_
    · exact (two (by decide) (by decide) doubled).bind fun _ => stays_pure
    · exact (one (by decide)).bind fun _ => inner.bind fun _ => stays_pure
  refine leads_ite (fun brace => ?_) fun _ => ?_
  · obtain rfl : c = '}' := by simpa using (Bool.and_eq_true_iff.mp brace).2
    refine leads_ite (fun doubled => ?_) fun _ => leads_failure
    exact (two (by decide) (by decide) doubled).bind fun _ => stays_pure
  refine leads_ite ?_ fun _ => ?_
  · rintro rfl
    refine leads_ite (fun _ => ?_) fun _ => leads_ite (fun escape => ?_) fun _ => ?_
    · exact (leads_passRawEscape quoted rest).bind fun _ => stays_pure
    · refine Leads.bind (leads_advanceRows ?_) fun _ => stays_pure
      obtain ⟨d, letter, listed⟩ := (Option.any_eq_true _ _).mp (Bool.and_eq_true_iff.mp escape).2
      obtain ⟨more, rfl⟩ := List.head?_eq_some_iff.mp letter
      have plain : d ≠ '\n' := by
        rintro rfl
        cases listed
      cases more with
      | nil => simp [plain]
      | cons e more => simp [plain, List.count_cons]
    · split
      · rename_i length rows escape
        refine Leads.bind (leads_advanceRows ?_) fun _ => stays_pure
        rw [List.take_succ_cons, List.count_cons_of_ne (by decide), count_escapeLength escape]
      · exact (one (by decide)).bind fun _ => stays_pure
  refine leads_ite ?_ fun _ => ?_
  · rintro rfl
    refine leads_ite (fun _ => leads_ite (fun tripled => ?_) fun _ => ?_) fun _ => ?_
    · refine Leads.bind (leads_advance ?_) fun _ => stays_pure
      simp [tripled, quoted.symm]
    · exact (one quoted).bind fun _ => stays_pure
    · exact (one quoted).bind fun _ => stays_pure
  refine leads_ite ?_ fun plain => ?_
  · rintro rfl
    refine leads_ite (fun _ => leads_failure) fun _ => ?_
    exact Leads.bind (leads_advanceRows rfl) fun _ => stays_pure
  · exact leads_ite (fun _ => leads_failure) fun _ => (one plain).bind fun _ => stays_pure

theorem stays_stringBody {interpolation : Reader (List Expression)}
    (inner : Stays text interpolation) {form : StringForm} (quoted : form.quote ≠ '\n') :
    Stays text (stringBody interpolation form) :=
  (stays_iterate (stays_stringPiece inner quoted)).bind fun _ => stays_pure

end Reader

end StrategyMend.Python
