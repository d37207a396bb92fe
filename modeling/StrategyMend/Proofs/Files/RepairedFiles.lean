import StrategyMend.Proofs.Files.Unseen

/-!
# Repaired scripts beside the scripts

No two scripts get the same place for what is repaired, and no search takes a repaired script for one
of the scripts (`repairedScripts_apart`). Both are needed when a batch is written: the first keeps one
script's result from standing in the place of another's, the second keeps results from being read as
scripts when the program runs again (`discover_writeFixed_run`).
-/

set_option autoImplicit false

namespace StrategyMend.Files

/-! ## Marked names are not looked for -/

/-- The name is that of a repaired script. -/
def IsMarked (name : String) : Prop := ∃ original, Path.IsPlain original ∧ name = fixedName original

theorem IsMarked.fixedMark_infix {name : String} (marked : IsMarked name) :
    fixedMark.toList <:+: name.toList := by
  obtain ⟨original, -, rfl⟩ := marked
  obtain ⟨before, after, -, whole⟩ := exists_fixedName original
  exact ⟨before, after, whole.symm⟩

theorem isUnseen_isMarked : IsUnseen IsMarked where
  notCandidate path name := by
    rintro ⟨original, plain, rfl⟩
    exact isCandidate_eq_false_of_fixedName (Path.ne_of_isPlain plain).1
      (Path.fileName?_child path (isPlain_fixedName plain.free))
  notRules name member marked := by
    have unmarked : ∀ name ∈ DirectoryRules.names, ¬fixedMark.toList <:+: name.toList := by decide
    exact unmarked name member marked.fixedMark_infix

/-! ## What writing changes -/

/-- A file is written in a directory of the tree, where no directory has its name. -/
theorem exists_of_write {tree after : Tree} {path : Path} {text last : String} {before : List String}
    (parts : path.segments = before ++ [last]) (written : tree.write path text = .ok after) :
    ∃ names inner, tree.root.at? names = some (.directory inner) ∧
      (∀ others, Node.child? (.directory inner) last ≠ some (.directory others)) ∧
      after = { tree with root := Node.set (.file (.text text)) (names ++ [last]) tree.root } := by
  rw [Tree.write, parts, List.reverse_concat] at written
  dsimp only at written
  split at written
  · cases written
  · cases led : tree.follow (tree.start path) before.reverse.reverse with
    | error fault =>
      rw [led] at written
      cases written
    | ok names =>
      rw [led] at written
      dsimp only [bind, Except.bind] at written
      split at written
      · cases written
      · cases written
      · next inner found =>
        split at written
        · cases written
        · split at written
          · cases written
          · next vacant =>
            cases written
            refine ⟨names, inner, found, fun others occupied => vacant ?_, rfl⟩
            obtain ⟨entry, present, directory⟩ := Option.map_eq_some_iff.mp occupied
            rw [present, Option.map_some, directory]
            rfl

/-- The tree that a repaired script was written to is the same up to files with marked names. -/
theorem alikeBut_of_writeFixed {tree after : Tree} {path : Path} {name text : String}
    (ends : path.fileName? = some name) (written : writeFixed tree path text = .ok after) :
    ∃ entries entries', tree.root = .directory entries ∧
      after = { tree with root := .directory entries' } ∧ AlikeBut IsMarked entries entries' := by
  have marked : IsMarked (fixedName name) := ⟨name, isPlain_of_fileName? ends, rfl⟩
  obtain ⟨before, parts⟩ := exists_segments_fixedPath ends
  have written : tree.write (fixedPath path) text = .ok after := by
    rw [writeFixed] at written
    cases result : tree.write (fixedPath path) text with
    | error fault =>
      rw [result] at written
      cases written
    | ok _ =>
      rw [result] at written
      cases written
      rfl
  obtain ⟨names, inner, found, vacant, rfl⟩ := exists_of_write parts written
  cases root : tree.root with
  | file content => exact absurd (root ▸ found) (Node.at?_file_ne content names inner)
  | directory entries =>
    rw [root] at found
    obtain ⟨entries', set, alike⟩ := AlikeBut.set_file found marked vacant
    exact ⟨entries, entries', rfl, by rw [set], alike⟩

theorem discover_writeFixed {tree after : Tree} {path : Path} {name text : String}
    (ends : path.fileName? = some name) (written : writeFixed tree path text = .ok after)
    (paths : List Path) : discover after paths = discover tree paths := by
  obtain ⟨entries, entries', root, rfl, alike⟩ := alikeBut_of_writeFixed ends written
  have same : discover ⟨.directory entries', tree.working⟩ paths =
      discover ⟨.directory entries, tree.working⟩ paths := alike.discover isUnseen_isMarked paths
  rwa [← root] at same

/-- However many repaired scripts are written, the scripts that are found stay the same. -/
theorem discover_writeFixed_run {tree after : Tree} {scripts : List (Path × String)}
    (named : ∀ script ∈ scripts, ∃ name, script.1.fileName? = some name)
    (written : scripts.foldlM (fun tree script => writeFixed tree script.1 script.2) tree = .ok after)
    (paths : List Path) : discover after paths = discover tree paths := by
  induction scripts generalizing tree with
  | nil =>
    cases written
    rfl
  | cons script rest ih =>
    obtain ⟨name, ends⟩ := named script List.mem_cons_self
    rw [List.foldlM_cons] at written
    cases first : writeFixed tree script.1 script.2 with
    | error fault =>
      rw [first] at written
      cases written
    | ok next =>
      rw [first] at written
      rw [ih (fun other member => named other (List.mem_cons_of_mem script member)) written,
        discover_writeFixed ends first paths]

/-- **Repaired scripts are apart and are not taken for scripts.** Whatever names two scripts have, the
repaired scripts have the same path only if the scripts have. The path of a repaired script is not that
of a script to be processed, and when it has been written, the scripts that are found anywhere are
those that were found before. -/
theorem repairedScripts_apart {path other : Path} {name otherName : String}
    (ends : path.fileName? = some name) (otherEnds : other.fileName? = some otherName) :
    ((fixedPath path).same (fixedPath other) = true ↔ path.same other = true) ∧
      isCandidate (fixedPath path) = false ∧
      ∀ (tree after : Tree) (text : String), writeFixed tree path text = .ok after →
        ∀ paths, discover after paths = discover tree paths := by
  refine ⟨by rw [same_fixedPath ends otherEnds], ?_, fun tree after text written => ?_⟩
  · exact isCandidate_eq_false_of_fixedName (Path.ne_of_isPlain (isPlain_of_fileName? ends)).1
      (fileName?_fixedPath ends)
  · exact discover_writeFixed ends written

/-- A directory with a script, with one that its patterns leave out, and with a file in the place of a
repaired script. -/
def sharedDirectory : Tree where
  root := .directory [("a", .directory [(".ignore", .file (.text "y.py\n")), ("s", .file (.text "1")),
    ("s.fixed", .file .binary), ("x.py", .file (.text "2")), ("y.py", .file (.text "3"))])]
  working := []

/-- The name of one script is that of the other when it is repaired, and a file of this name is there
already. -/
theorem repairedScripts_apart_sharedDirectory :
    Path.fileName? "a/s" = some "s" ∧ Path.fileName? "a//s.fixed" = some "s.fixed" ∧
      Path.same (fixedPath "a/s") (fixedPath "a//s.fixed") = false ∧
      isCandidate (fixedPath "a/s") = false ∧
      ∃ after, writeFixed sharedDirectory "a/s" "4" = .ok after ∧
        after.read "a/s.fixed" = .ok "4" ∧ discover after ["a"] = ["a/x.py"] := by
  have ends : Path.fileName? "a/s" = some "s" := by decide +kernel
  have otherEnds : Path.fileName? "a//s.fixed" = some "s.fixed" := by decide +kernel
  obtain ⟨apart, unseen, found⟩ := repairedScripts_apart ends otherEnds
  refine ⟨ends, otherEnds, ?_, unseen, _, rfl, by decide +kernel, ?_⟩
  · rw [Bool.eq_false_iff, Ne, apart]
    decide +kernel
  · have before : scriptsAt sharedDirectory "a" = ["a/x.py"] := by decide +kernel
    rw [found sharedDirectory _ "4" rfl, discover, List.flatMap_singleton, before,
      List.mergeSort_singleton, dropRepeated]

end StrategyMend.Files
