import StrategyMend.Proofs.Files.Components

/-!
# The paths of repaired scripts

A name is cut at its last dot, unless that stands at the beginning. The mark is put in front of the
dot, or at the end of a name without one, so the last dot of the new name is the same one, or that
of the mark. Hence names stay apart (`fixedName_injective`), and no marked name is that of a script
to be processed (`isCandidate_eq_false_of_fixedName`). A repaired script is in the directory of the
script, so paths stay apart as names do (`same_fixedPath`).
-/

set_option autoImplicit false

namespace StrategyMend.Files

/-! ## Marked names -/

theorem splitAtLastDot_eq_none_iff {cs : List Char} : splitAtLastDot cs = none ↔ '.' ∉ cs := by
  induction cs with
  | nil => simp [splitAtLastDot]
  | cons c rest ih =>
    rw [splitAtLastDot]
    cases cut : splitAtLastDot rest with
    | none => simp [ih.mp cut, eq_comm]
    | some parts => simp [not_not.mp (mt ih.mpr (by simp [cut]))]

theorem splitAtLastDot_append {before after : List Char} (last : '.' ∉ after) :
    splitAtLastDot (before ++ '.' :: after) = some (before, after) := by
  induction before with
  | nil => simp [splitAtLastDot, splitAtLastDot_eq_none_iff.mpr last]
  | cons c before ih => simp [splitAtLastDot, ih]

theorem eq_of_splitAtLastDot {cs before after : List Char}
    (cut : splitAtLastDot cs = some (before, after)) :
    cs = before ++ '.' :: after ∧ '.' ∉ after := by
  induction cs generalizing before with
  | nil => cases cut
  | cons c rest ih =>
    rw [splitAtLastDot] at cut
    cases inside : splitAtLastDot rest with
    | some parts =>
      rw [inside] at cut
      cases cut
      obtain ⟨whole, last⟩ := ih inside
      exact ⟨by rw [whole, List.cons_append], last⟩
    | none =>
      rw [inside] at cut
      dsimp only at cut
      split at cut
      · next dot =>
        cases cut
        exact ⟨by rw [dot, List.nil_append], splitAtLastDot_eq_none_iff.mp inside⟩
      · cases cut

theorem stemAndExtension_eq_some {name stem extension : String}
    (cut : stemAndExtension name = (stem, some extension)) :
    name = stem ++ "." ++ extension ∧ stem ≠ "" ∧ '.' ∉ extension.toList := by
  rw [stemAndExtension] at cut
  split at cut
  · next first before after dot =>
    cases cut
    obtain ⟨whole, last⟩ := eq_of_splitAtLastDot dot
    refine ⟨?_, ?_, by simpa using last⟩
    · rw [← String.toList_inj, whole]
      simp
    · simp [← String.toList_inj]
  · cases cut

theorem stemAndExtension_eq_none {name stem : String} (cut : stemAndExtension name = (stem, none)) :
    stem = name := by
  rw [stemAndExtension] at cut
  split at cut
  · cases cut
  · exact (Prod.mk.inj cut).1.symm

theorem stemAndExtension_append {stem extension : String} (any : stem ≠ "")
    (last : '.' ∉ extension.toList) :
    stemAndExtension (stem ++ "." ++ extension) = (stem, some extension) := by
  obtain ⟨first, rest, cut⟩ := List.exists_cons_of_ne_nil (mt String.toList_eq_nil_iff.mp any)
  have whole : (stem ++ "." ++ extension).toList = (first :: rest) ++ '.' :: extension.toList := by
    simp [cut]
  rw [stemAndExtension, whole, splitAtLastDot_append last]
  simp [← cut]

theorem stemAndExtension_mark {stem : String} (any : stem ≠ "") :
    stemAndExtension (stem ++ fixedMark) = (stem, some "fixed") := by
  have whole : stem ++ fixedMark = stem ++ "." ++ "fixed" := by
    rw [String.append_assoc]
    rfl
  rw [whole]
  exact stemAndExtension_append any (by decide)

/-- The mark belongs to the stem of a name with an extension. -/
theorem stemAndExtension_fixedName {name stem extension : String}
    (cut : stemAndExtension name = (stem, some extension)) :
    stemAndExtension (fixedName name) = (stem ++ fixedMark, some extension) := by
  obtain ⟨-, any, last⟩ := stemAndExtension_eq_some cut
  rw [fixedName, cut]
  exact stemAndExtension_append (by simp [any]) last

/-- The mark is the extension of a name that has none. -/
theorem stemAndExtension_fixedName_of_none {name stem : String} (any : name ≠ "")
    (cut : stemAndExtension name = (stem, none)) :
    stemAndExtension (fixedName name) = (name, some "fixed") := by
  obtain rfl := stemAndExtension_eq_none cut
  rw [fixedName, cut]
  exact stemAndExtension_mark any

/-- A name with an extension and one without never get the same marked name: the latter would end in
the mark, and so have an extension. -/
theorem fixedName_ne {name other stem stem' extension : String} (otherAny : other ≠ "")
    (cut : stemAndExtension name = (stem, some extension))
    (otherCut : stemAndExtension other = (stem', none)) : fixedName name ≠ fixedName other := by
  intro same
  have marked := stemAndExtension_fixedName cut
  rw [same, stemAndExtension_fixedName_of_none otherAny otherCut, Prod.mk.injEq] at marked
  rw [marked.1, stemAndExtension_mark (stemAndExtension_eq_some cut).2.1] at otherCut
  cases otherCut

/-- Different names have different marked names. -/
theorem fixedName_injective {name other : String} (any : name ≠ "") (otherAny : other ≠ "")
    (same : fixedName name = fixedName other) : name = other := by
  match cut : stemAndExtension name, otherCut : stemAndExtension other with
  | (stem, some extension), (stem', some extension') =>
    have marked := stemAndExtension_fixedName cut
    rw [same, stemAndExtension_fixedName otherCut, Prod.mk.injEq, Option.some.injEq] at marked
    have stems : stem' = stem := by simpa [String.ext_iff] using marked.1
    rw [(stemAndExtension_eq_some cut).1, (stemAndExtension_eq_some otherCut).1, stems, marked.2]
  | (stem, some extension), (stem', none) => exact absurd same (fixedName_ne otherAny cut otherCut)
  | (stem, none), (stem', some extension') =>
    exact absurd same.symm (fixedName_ne any otherCut cut)
  | (stem, none), (stem', none) =>
    have marked := stemAndExtension_fixedName_of_none any cut
    rw [same, stemAndExtension_fixedName_of_none otherAny otherCut] at marked
    exact (Prod.mk.inj marked).1.symm

/-- No marked name is that of a script to be processed: it ends in the mark, or its stem does. -/
theorem isCandidate_eq_false_of_fixedName {path : Path} {name : String} (any : name ≠ "")
    (ends : path.fileName? = some (fixedName name)) : isCandidate path = false := by
  rw [isCandidate, ends, Option.map_some]
  match cut : stemAndExtension name with
  | (stem, some extension) => simp [stemAndExtension_fixedName cut]
  | (stem, none) => simp [stemAndExtension_fixedName_of_none any cut]

/-- A marked name begins and ends with parts of the name, with the mark between them. -/
theorem exists_fixedName (name : String) :
    ∃ before after, name.toList = before ++ after ∧
      (fixedName name).toList = before ++ fixedMark.toList ++ after := by
  match cut : stemAndExtension name with
  | (stem, some extension) =>
    refine ⟨stem.toList, '.' :: extension.toList, ?_, ?_⟩
    · rw [(stemAndExtension_eq_some cut).1]
      simp
    · rw [fixedName, cut]
      simp
  | (stem, none) =>
    refine ⟨stem.toList, [], ?_, ?_⟩
    · rw [stemAndExtension_eq_none cut, List.append_nil]
    · rw [fixedName, cut]
      simp

theorem isPlain_fixedName {name : String} (free : '/' ∉ name.toList) :
    Path.IsPlain (fixedName name) := by
  obtain ⟨before, after, whole, marked⟩ := exists_fixedName name
  have longer : 6 ≤ (fixedName name).toList.length := by
    have mark : fixedMark.toList.length = 6 := by decide
    rw [marked, List.length_append, List.length_append]
    omega
  refine ⟨?_, ?_, ?_⟩
  · rw [whole, List.mem_append, not_or] at free
    rw [marked, List.mem_append, List.mem_append, not_or, not_or]
    exact ⟨⟨free.1, by decide⟩, free.2⟩
  · rw [Path.isIdle, Bool.or_eq_false_iff, decide_eq_false_iff_not, decide_eq_false_iff_not]
    constructor <;> intro same <;> simp [same] at longer
  · intro same
    simp [same] at longer

/-! ## Paths of repaired scripts -/

theorem fixedPath_eq_child {path directory : Path} {name : String}
    (cut : path.split? = some (directory, name)) :
    fixedPath path = directory.child (fixedName name) := by
  rw [fixedPath, cut]

theorem isPlain_of_fileName? {path : Path} {name : String} (ends : path.fileName? = some name) :
    Path.IsPlain name := by
  obtain ⟨_, cut, rfl⟩ := Option.map_eq_some_iff.mp ends
  exact (Path.segments_of_split? cut).1

theorem exists_segments_fixedPath {path : Path} {name : String}
    (ends : path.fileName? = some name) :
    ∃ before, (fixedPath path).segments = before ++ [fixedName name] := by
  have plain := isPlain_fixedName (isPlain_of_fileName? ends).free
  obtain ⟨⟨directory, _⟩, cut, rfl⟩ := Option.map_eq_some_iff.mp ends
  rw [fixedPath_eq_child cut]
  exact Path.exists_segments_child directory plain.free

theorem fileName?_fixedPath {path : Path} {name : String} (ends : path.fileName? = some name) :
    (fixedPath path).fileName? = some (fixedName name) := by
  obtain ⟨before, parts⟩ := exists_segments_fixedPath ends
  exact Path.fileName?_of_segments parts (isPlain_fixedName (isPlain_of_fileName? ends).free)

/-- The repaired script is in the directory of the script, under the marked name. -/
theorem exists_components_fixedPath {path : Path} {name : String}
    (ends : path.fileName? = some name) :
    ∃ front, path.components = front ++ [.name name] ∧
      (fixedPath path).components = front ++ [.name (fixedName name)] := by
  have plain := isPlain_fixedName (isPlain_of_fileName? ends).free
  obtain ⟨⟨directory, _⟩, cut, rfl⟩ := Option.map_eq_some_iff.mp ends
  obtain ⟨front, parts, other⟩ := Path.exists_components_eq cut
  rw [fixedPath_eq_child cut]
  exact ⟨front, parts, other _ plain⟩

/-- Repaired scripts have the same path exactly if the scripts have. -/
theorem same_fixedPath {path other : Path} {name otherName : String}
    (ends : path.fileName? = some name) (otherEnds : other.fileName? = some otherName) :
    (fixedPath path).same (fixedPath other) = path.same other := by
  obtain ⟨front, parts, marked⟩ := exists_components_fixedPath ends
  obtain ⟨otherFront, otherParts, otherMarked⟩ := exists_components_fixedPath otherEnds
  have any := (Path.ne_of_isPlain (isPlain_of_fileName? ends)).1
  have otherAny := (Path.ne_of_isPlain (isPlain_of_fileName? otherEnds)).1
  rw [Path.same, Path.same, decide_eq_decide, parts, marked, otherParts, otherMarked,
    List.append_singleton_inj, List.append_singleton_inj, Component.name.injEq,
    Component.name.injEq]
  exact and_congr_right fun _ => ⟨fixedName_injective any otherAny, congrArg fixedName⟩

end StrategyMend.Files
