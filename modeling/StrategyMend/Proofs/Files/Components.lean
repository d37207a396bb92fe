import Mathlib.Data.List.Infix
import StrategyMend.Files.Path

/-!
# Paths and their components

A path that ends in a name is made of the components of its directory and of that name; what follows
the name is idle. With another name in its place the path is that of the other entry of the same
directory (`exists_components_eq`). The path of an entry ends in the name of the entry
(`fileName?_child`).
-/

set_option autoImplicit false

namespace StrategyMend.Files

/-! ## Parts between slashes -/

theorem slashPieces_ne_nil (cs : List Char) : slashPieces cs ≠ [] := by
  fun_induction slashPieces cs <;> simp

theorem slashPieces_of_not_mem {cs : List Char} (free : '/' ∉ cs) : slashPieces cs = [cs] := by
  induction cs with
  | nil => rfl
  | cons c rest ih =>
    have other : c ≠ '/' := fun same => free (by simp [same])
    rw [slashPieces, ih fun member => free (List.mem_cons_of_mem c member)]
    exact other

theorem slash_not_mem_slashPieces (cs : List Char) : ∀ piece ∈ slashPieces cs, '/' ∉ piece := by
  fun_induction slashPieces cs with
  | case1 => simp
  | case2 rest ih => simpa using ih
  | case3 c rest other empty ih => simpa [eq_comm] using other
  | case4 c rest other first others cut ih =>
    rw [cut] at ih
    rintro piece (_ | ⟨_, member⟩)
    · rw [List.mem_cons, not_or]
      exact ⟨fun same => other same.symm, ih first List.mem_cons_self⟩
    · exact ih piece (List.mem_cons_of_mem first member)

theorem slashPieces_append_slash (front back : List Char) :
    slashPieces (front ++ '/' :: back) = slashPieces front ++ slashPieces back := by
  induction front with
  | nil => rfl
  | cons c front ih =>
    rw [List.cons_append]
    by_cases slash : c = '/'
    · rw [slash, slashPieces, slashPieces, ih]
      rfl
    · rw [slashPieces, slashPieces, ih]
      · cases cut : slashPieces front with
        | nil => exact absurd cut (slashPieces_ne_nil front)
        | cons first others => rfl
      · exact slash
      · exact slash

namespace Path

/-- A name that a component can have. -/
structure IsPlain (name : String) : Prop where
  free : '/' ∉ name.toList
  notIdle : isIdle name = false
  notParent : name ≠ ".."

theorem segments_ne_nil (path : Path) : path.segments ≠ [] := by
  rw [segments, Ne, List.map_eq_nil_iff]
  exact slashPieces_ne_nil _

theorem slash_not_mem_segments {path : Path} : ∀ segment ∈ path.segments, '/' ∉ segment.toList := by
  intro segment member
  obtain ⟨piece, cut, rfl⟩ := List.mem_map.mp member
  rw [String.toList_ofList]
  exact slash_not_mem_slashPieces _ piece cut

theorem segments_of_not_mem {path : Path} (free : '/' ∉ path.toList) : path.segments = [path] := by
  rw [segments, slashPieces_of_not_mem free, List.map_singleton, String.ofList_toList]

theorem segments_append_slash (front back : String) :
    segments (front ++ "/" ++ back) = segments front ++ segments back := by
  rw [segments, segments, segments, ← List.map_append, ← slashPieces_append_slash]
  simp

theorem exists_of_getLast?_slash {path : Path} (last : path.toList.getLast? = some '/') :
    ∃ front, path = front ++ "/" := by
  obtain ⟨front, split⟩ := List.getLast?_eq_some_iff.mp last
  exact ⟨String.ofList front, by rw [← String.toList_inj, split]; simp⟩

/-- The path of an entry ends in the entry's name. -/
theorem exists_segments_child (directory : Path) {name : String} (free : '/' ∉ name.toList) :
    ∃ front, (directory.child name).segments = front ++ [name] := by
  rw [child]
  split
  · next ends =>
    rcases Bool.or_eq_true_iff.mp ends with empty | slash
    · obtain rfl : directory = "" := by simpa using empty
      exact ⟨[], by rw [String.empty_append, segments_of_not_mem free]; rfl⟩
    · obtain ⟨front, rfl⟩ := exists_of_getLast?_slash (by simpa using slash)
      exact ⟨segments front, by rw [segments_append_slash, segments_of_not_mem free]⟩
  · exact ⟨segments directory, by rw [segments_append_slash, segments_of_not_mem free]⟩

theorem segments_intercalate {parts : List String} (any : parts ≠ [])
    (free : ∀ part ∈ parts, '/' ∉ part.toList) : segments ("/".intercalate parts) = parts := by
  induction parts with
  | nil => exact absurd rfl any
  | cons first rest ih =>
    have firstFree := free first (by simp)
    cases rest with
    | nil => simpa using segments_of_not_mem firstFree
    | cons next rest =>
      have cut := ih (by simp) fun part member => free part (List.mem_cons_of_mem first member)
      have joined : "/".intercalate (first :: next :: rest) =
          first ++ "/" ++ "/".intercalate (next :: rest) := by
        rw [← String.toList_inj]
        simp [String.toList_intercalate]
      rw [joined, segments_append_slash, segments_of_not_mem firstFree, cut]
      rfl

/-! ## Parts that are no steps -/

theorem exists_dropIdle (reversed : List String) :
    ∃ idle, (∀ part ∈ idle, isIdle part = true) ∧
      reversed.reverse = (dropIdle reversed).reverse ++ idle := by
  fun_induction dropIdle reversed with
  | case1 => exact ⟨[], by simp, rfl⟩
  | case2 first => exact ⟨[], by simp, rfl⟩
  | case3 segment rest more idle ih =>
    obtain ⟨others, allIdle, cut⟩ := ih
    refine ⟨others ++ [segment], ?_, by rw [List.reverse_cons, cut, List.append_assoc]⟩
    intro part member
    rcases List.mem_append.mp member with before | last
    · exact allIdle part before
    · rwa [List.mem_singleton.mp last]
  | case4 segment rest more busy => exact ⟨[], by simp, by rw [List.append_nil]⟩

theorem dropIdle_ne_nil {reversed : List String} (any : reversed ≠ []) :
    dropIdle reversed ≠ [] := by
  fun_induction dropIdle reversed with
  | case1 => exact any
  | case2 first => exact any
  | case3 segment rest more idle ih => exact ih fun none => more none
  | case4 segment rest more busy => exact List.cons_ne_nil segment rest

theorem isIdle_of_dropIdle {reversed rest : List String} {last next : String}
    (cut : dropIdle reversed = last :: next :: rest) : isIdle last = false := by
  fun_induction dropIdle reversed with
  | case1 => cases cut
  | case2 first => cases cut
  | case3 segment others more idle ih => exact ih cut
  | case4 segment others more busy =>
    cases cut
    simpa using busy

/-! ## Components -/

/-- What the first of several parts is as components. -/
def leading (first : String) : List Component :=
  if first = "" then [.root] else if first = "." then [.current] else [step first]

/-- What parts after the first are as components. -/
def following (parts : List String) : List Component :=
  (parts.filter fun part => !isIdle part).map step

theorem following_append (before after : List String) :
    following (before ++ after) = following before ++ following after := by
  simp [following]

theorem following_of_isIdle {parts : List String} (idle : ∀ part ∈ parts, isIdle part = true) :
    following parts = [] := by
  simpa [following] using idle

theorem step_of_isPlain {name : String} (plain : IsPlain name) : step name = .name name :=
  if_neg plain.notParent

theorem following_singleton {name : String} (plain : IsPlain name) :
    following [name] = [.name name] := by
  simp [following, plain.notIdle, step_of_isPlain plain]

theorem isAbsolute_iff_segments (path : Path) :
    path.isAbsolute = true ↔ ∃ next rest, path.segments = "" :: next :: rest := by
  rw [isAbsolute, segments, decide_eq_true_iff]
  match path.toList with
  | [] => simp [slashPieces]
  | c :: rest =>
    by_cases slash : c = '/'
    · subst slash
      obtain ⟨next, others, cut⟩ := List.exists_cons_of_ne_nil (slashPieces_ne_nil rest)
      simp [slashPieces, cut]
    · rw [slashPieces]
      · cases slashPieces rest <;> simp [slash, ← String.toList_inj]
      · exact slash

theorem components_of_segments {path : Path} {first : String} {rest : List String}
    (cut : path.segments = first :: rest) (more : rest ≠ []) :
    path.components = leading first ++ following rest := by
  have atRoot : path.isAbsolute = true ↔ first = "" := by
    obtain ⟨next, others, rfl⟩ := List.exists_cons_of_ne_nil more
    simp [isAbsolute_iff_segments, cut]
  rw [components, cut]
  by_cases empty : first = ""
  · simp [atRoot.mpr empty, leading, following, empty]
  · by_cases dot : first = "."
    · simp [atRoot, leading, following, dot]
    · simp [atRoot, leading, following, empty, dot]

theorem ne_of_isPlain {name : String} (plain : IsPlain name) : name ≠ "" ∧ name ≠ "." := by
  simpa [isIdle] using plain.notIdle

/-- A plain name before which nothing stands is the only component; idle parts do not count. -/
theorem components_of_name {path : Path} {name : String} {idle : List String}
    (cut : path.segments = name :: idle) (plain : IsPlain name)
    (allIdle : ∀ part ∈ idle, isIdle part = true) : path.components = [.name name] := by
  obtain ⟨busy, other⟩ := ne_of_isPlain plain
  cases idle with
  | nil =>
    have relative : ¬path.isAbsolute = true := by simp [isAbsolute_iff_segments, cut]
    simp [components, cut, relative, busy, other, step_of_isPlain plain]
  | cons next rest =>
    rw [components_of_segments cut (List.cons_ne_nil next rest), following_of_isIdle allIdle]
    simp [leading, busy, other, step_of_isPlain plain]

/-- A plain name after other parts is the last component; idle parts do not count. -/
theorem components_append_name {path : Path} {first name : String} {before idle : List String}
    (cut : path.segments = first :: (before ++ name :: idle)) (plain : IsPlain name)
    (allIdle : ∀ part ∈ idle, isIdle part = true) :
    path.components = leading first ++ following before ++ [.name name] := by
  rw [components_of_segments cut (by simp), ← List.singleton_append, following_append,
    following_append, following_singleton plain, following_of_isIdle allIdle, List.append_nil,
    List.append_assoc]

/-! ## Another name in the same directory -/

theorem segments_child_ofReversed {reversed : List String} {name : String} (any : reversed ≠ [])
    (free : ∀ part ∈ reversed, '/' ∉ part.toList)
    (busy : ∀ last next rest, reversed = last :: next :: rest → isIdle last = false)
    (nameFree : '/' ∉ name.toList) :
    ((ofReversed reversed).child name).segments = reversed.reverse ++ [name] := by
  have nameCut := segments_of_not_mem nameFree
  rw [ofReversed]
  split
  · next root =>
    have cut := segments_append_slash "" name
    rw [root, child, if_pos (by decide), ← String.empty_append (s := "/"), cut, nameCut]
    rfl
  · next below =>
    have cut := segments_intercalate (List.reverse_ne_nil_iff.mpr any)
      fun part member => free part (List.mem_reverse.mp member)
    rw [child, if_neg, segments_append_slash, cut, nameCut]
    rw [Bool.or_eq_true_iff, decide_eq_true_iff, decide_eq_true_iff, not_or]
    constructor
    · intro empty
      rw [empty] at cut
      exact below (by simpa [segments, slashPieces] using congrArg List.reverse cut.symm)
    · -- A slash at the end is one more part, which is idle.
      intro slash
      obtain ⟨front, split⟩ := exists_of_getLast?_slash slash
      rw [split, ← String.append_empty (s := front ++ "/"), segments_append_slash] at cut
      have ends : reversed = "" :: (segments front).reverse := by
        simpa [segments, slashPieces] using congrArg List.reverse cut.symm
      obtain ⟨next, rest, more⟩ :=
        List.exists_cons_of_ne_nil (List.reverse_ne_nil_iff.mpr (segments_ne_nil front))
      exact absurd (busy "" next rest (by rw [ends, more])) (by decide)

/-- The parts of a path that ends in a name: the name stands alone, or after the parts of its
directory, to which a name can be added. -/
theorem segments_of_split? {path directory : Path} {name : String}
    (cut : path.split? = some (directory, name)) :
    IsPlain name ∧ ∃ idle, (∀ part ∈ idle, isIdle part = true) ∧
      (path.segments = name :: idle ∧ directory = "" ∨
        ∃ first before passed, (∀ part ∈ passed, isIdle part = true) ∧
          path.segments = first :: (before ++ passed ++ name :: idle) ∧
          ∀ other, '/' ∉ other.toList →
            (directory.child other).segments = first :: (before ++ [other])) := by
  obtain ⟨idle, allIdle, parts⟩ := exists_dropIdle path.segments.reverse
  have busy := @isIdle_of_dropIdle path.segments.reverse
  rw [List.reverse_reverse] at parts
  have free : ∀ part ∈ dropIdle path.segments.reverse, '/' ∉ part.toList := by
    intro part member
    have inside : part ∈ path.segments := by
      rw [parts]
      exact List.mem_append_left idle (List.mem_reverse.mpr member)
    exact slash_not_mem_segments part inside
  rw [split?] at cut
  generalize dropIdle path.segments.reverse = reached at cut parts busy free
  match reached with
  | [] => cases cut
  | [only] =>
    dsimp only at cut
    split at cut
    · cases cut
    · next plain =>
      cases cut
      rw [Bool.or_eq_true_iff, decide_eq_true_iff, not_or, Bool.not_eq_true] at plain
      exact ⟨⟨free name List.mem_cons_self, plain.1, plain.2⟩, idle, allIdle, .inl ⟨parts, rfl⟩⟩
  | last :: next :: rest =>
    dsimp only at cut
    split at cut
    · cases cut
    · next notParent =>
      cases cut
      have plain : IsPlain name := ⟨free name List.mem_cons_self, busy rfl, notParent⟩
      obtain ⟨passed, allPassed, before⟩ := exists_dropIdle (next :: rest)
      have some := List.reverse_ne_nil_iff.mpr (dropIdle_ne_nil (List.cons_ne_nil next rest))
      obtain ⟨first, others, split⟩ := List.exists_cons_of_ne_nil some
      refine ⟨plain, idle, allIdle, .inr ⟨first, others, passed, allPassed, ?_, ?_⟩⟩
      · rw [parts, List.reverse_cons, before, split]
        simp
      · intro other otherFree
        rw [segments_child_ofReversed (dropIdle_ne_nil (List.cons_ne_nil next rest)) _
          (fun _ _ _ => isIdle_of_dropIdle) otherFree, split]
        · rfl
        · intro part member
          refine free part (List.mem_cons_of_mem _ (List.mem_reverse.mp ?_))
          rw [before]
          exact List.mem_append_left passed (List.mem_reverse.mpr member)

/-- The name that a path ends in is its last component, and with another name in its directory only
that component changes. -/
theorem exists_components_eq {path directory : Path} {name : String}
    (cut : path.split? = some (directory, name)) :
    ∃ front, path.components = front ++ [.name name] ∧
      ∀ other, IsPlain other → (directory.child other).components = front ++ [.name other] := by
  obtain ⟨plain, idle, allIdle, ⟨parts, rfl⟩ | ⟨first, before, passed, allPassed, parts, child⟩⟩ :=
    segments_of_split? cut
  · refine ⟨[], components_of_name parts plain allIdle, fun other otherPlain => ?_⟩
    have alone : child "" other = other := String.empty_append
    rw [alone]
    exact components_of_name (segments_of_not_mem otherPlain.free) otherPlain (by simp)
  · refine ⟨leading first ++ following before, ?_, fun other otherPlain => ?_⟩
    · rw [components_append_name parts plain allIdle, following_append,
        following_of_isIdle allPassed, List.append_nil]
    · exact components_append_name (child other otherPlain.free) otherPlain (by simp)

/-- A path whose last part is a plain name ends in that name. -/
theorem fileName?_of_segments {path : Path} {front : List String} {name : String}
    (parts : path.segments = front ++ [name]) (plain : IsPlain name) :
    path.fileName? = some name := by
  have reached : dropIdle path.segments.reverse = name :: front.reverse := by
    rw [parts, List.reverse_concat]
    cases front.reverse with
    | nil => rfl
    | cons next rest => simp [dropIdle, plain.notIdle]
  rw [fileName?, split?, reached]
  cases front.reverse with
  | nil => simp [plain.notIdle, plain.notParent]
  | cons next rest => simp [plain.notParent]

theorem fileName?_child (directory : Path) {name : String} (plain : IsPlain name) :
    (directory.child name).fileName? = some name := by
  obtain ⟨front, parts⟩ := exists_segments_child directory plain.free
  exact fileName?_of_segments parts plain

end Path

end StrategyMend.Files
