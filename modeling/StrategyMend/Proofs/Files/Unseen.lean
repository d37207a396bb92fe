import StrategyMend.Files.Discovery
import StrategyMend.Proofs.Files.RepairedPath

/-!
# Files that no search sees

The search for scripts goes by the names of files and by what the files of patterns hold. If two
trees differ only in files whose names are neither those of scripts nor of files of patterns
(`AlikeBut`), the same paths lead to directories in both, and the same scripts are found
(`AlikeBut.discover`).

Writing a repaired script changes one such file, which may also be new. So whatever was written, the
scripts that are found are those that were found before.
-/

set_option autoImplicit false

namespace StrategyMend.Files

/-- The entries of two directories are the same, up to files with hidden names: those may hold
something else, and one may stand at the end that was not there. -/
inductive AlikeBut (hidden : String → Prop) :
    List (String × Node) → List (String × Node) → Prop where
  | nil : AlikeBut hidden [] []
  | made {name : String} {content : Content} (unseen : hidden name) :
      AlikeBut hidden [] [(name, .file content)]
  | file {name : String} {content content' : Content} {rest rest' : List (String × Node)}
      (kept : content' = content ∨ hidden name) (others : AlikeBut hidden rest rest') :
      AlikeBut hidden ((name, .file content) :: rest) ((name, .file content') :: rest')
  | directory {name : String} {inner inner' rest rest' : List (String × Node)}
      (inside : AlikeBut hidden inner inner') (others : AlikeBut hidden rest rest') :
      AlikeBut hidden ((name, .directory inner) :: rest) ((name, .directory inner') :: rest')

/-- The entries with one name in two such directories. -/
inductive AlikeEntry (hidden : String → Prop) (name : String) : Option Node → Option Node → Prop where
  | absent : AlikeEntry hidden name none none
  | made {content : Content} (unseen : hidden name) :
      AlikeEntry hidden name none (some (.file content))
  | file {content content' : Content} (kept : content' = content ∨ hidden name) :
      AlikeEntry hidden name (some (.file content)) (some (.file content'))
  | directory {inner inner' : List (String × Node)} (inside : AlikeBut hidden inner inner') :
      AlikeEntry hidden name (some (.directory inner)) (some (.directory inner'))

namespace Node

theorem child?_cons_self (name : String) (node : Node) (rest : List (String × Node)) :
    child? (.directory ((name, node) :: rest)) name = some node := by
  simp [child?]

theorem child?_cons_of_ne {name other : String} (different : other ≠ name) (node : Node)
    (rest : List (String × Node)) :
    child? (.directory ((other, node) :: rest)) name = child? (.directory rest) name := by
  simp [child?, different]

theorem at?_file_ne (content : Content) (names : List String) (inner : List (String × Node)) :
    at? (.file content) names ≠ some (.directory inner) := by
  cases names <;> simp [at?, child?]

theorem at?_append (node : Node) (front back : List String) :
    node.at? (front ++ back) = (node.at? front).bind fun inner => inner.at? back := by
  induction front generalizing node with
  | nil => rfl
  | cons name front ih =>
    rw [List.cons_append, at?, at?, Option.bind_assoc]
    exact Option.bind_congr fun child _ => ih child

end Node

variable {hidden : String → Prop} {entries entries' : List (String × Node)}

namespace AlikeBut

theorem refl : ∀ entries : List (String × Node), AlikeBut hidden entries entries
  | [] => .nil
  | (_, .file _) :: rest => .file (.inl rfl) (refl rest)
  | (_, .directory inner) :: rest => .directory (refl inner) (refl rest)

/-! ## Setting an entry -/

theorem setEntry_file {name : String} {content : Content} (unseen : hidden name)
    (vacant : ∀ inner, Node.child? (.directory entries) name ≠ some (.directory inner)) :
    AlikeBut hidden entries (Node.setEntry name (.file content) entries) := by
  induction entries with
  | nil => exact .made unseen
  | cons entry rest ih =>
    obtain ⟨other, old⟩ := entry
    rw [Node.setEntry]
    split
    · next same =>
      subst same
      cases old with
      | file former => exact .file (.inr unseen) (refl rest)
      | directory inner => exact absurd (Node.child?_cons_self other _ rest) (vacant inner)
    · next different =>
      rw [Node.child?_cons_of_ne different] at vacant
      cases old with
      | file former => exact .file (.inl rfl) (ih vacant)
      | directory inner => exact .directory (refl inner) (ih vacant)

theorem setEntry_directory {name : String} {inner inner' : List (String × Node)}
    (found : Node.child? (.directory entries) name = some (.directory inner))
    (inside : AlikeBut hidden inner inner') :
    AlikeBut hidden entries (Node.setEntry name (.directory inner') entries) := by
  induction entries with
  | nil => cases found
  | cons entry rest ih =>
    obtain ⟨other, old⟩ := entry
    rw [Node.setEntry]
    split
    · next same =>
      subst same
      rw [Node.child?_cons_self] at found
      cases found
      exact .directory inside (refl rest)
    · next different =>
      rw [Node.child?_cons_of_ne different] at found
      cases old with
      | file former => exact .file (.inl rfl) (ih found)
      | directory others => exact .directory (refl others) (ih found)

/-- A file with a hidden name is written in a directory that names lead to, where no directory has
its name. -/
theorem set_file {names : List String} {last : String} {content : Content}
    {inner : List (String × Node)}
    (reached : Node.at? (.directory entries) names = some (.directory inner))
    (unseen : hidden last)
    (vacant : ∀ others, Node.child? (.directory inner) last ≠ some (.directory others)) :
    ∃ after, Node.set (.file content) (names ++ [last]) (.directory entries) = .directory after ∧
      AlikeBut hidden entries after := by
  induction names generalizing entries with
  | nil =>
    cases reached
    exact ⟨_, rfl, setEntry_file unseen vacant⟩
  | cons name rest ih =>
    obtain ⟨child, found, below⟩ := Option.bind_eq_some_iff.mp reached
    cases child with
    | file former => exact absurd below (Node.at?_file_ne former rest inner)
    | directory others =>
      obtain ⟨after, written, alike⟩ := ih below
      refine ⟨_, ?_, setEntry_directory found alike⟩
      rw [Node.child?] at found
      rw [List.cons_append, Node.set, found, Option.getD_some, written]

/-! ## Looking names up -/

theorem child? (alike : AlikeBut hidden entries entries') (name : String) :
    AlikeEntry hidden name (Node.child? (.directory entries) name)
      (Node.child? (.directory entries') name) := by
  induction alike with
  | nil => exact .absent
  | @made other content unseen =>
    by_cases same : other = name
    · subst same
      rw [Node.child?_cons_self]
      exact .made unseen
    · rw [Node.child?_cons_of_ne same]
      exact .absent
  | @file other content content' rest rest' kept others ih =>
    by_cases same : other = name
    · subst same
      rw [Node.child?_cons_self, Node.child?_cons_self]
      exact .file kept
    · rw [Node.child?_cons_of_ne same, Node.child?_cons_of_ne same]
      exact ih
  | @directory other inner inner' rest rest' inside others ih ihRest =>
    by_cases same : other = name
    · subst same
      rw [Node.child?_cons_self, Node.child?_cons_self]
      exact .directory inside
    · rw [Node.child?_cons_of_ne same, Node.child?_cons_of_ne same]
      exact ihRest

/-- Names lead to directories alike, or to no directory in both trees. -/
theorem at? (alike : AlikeBut hidden entries entries') (names : List String) :
    (∃ inner inner', Node.at? (.directory entries) names = some (.directory inner) ∧
        Node.at? (.directory entries') names = some (.directory inner') ∧
        AlikeBut hidden inner inner') ∨
      (∀ inner, Node.at? (.directory entries) names ≠ some (.directory inner)) ∧
        ∀ inner, Node.at? (.directory entries') names ≠ some (.directory inner) := by
  induction names generalizing entries entries' with
  | nil => exact .inl ⟨entries, entries', rfl, rfl, alike⟩
  | cons name rest ih =>
    have entry := alike.child? name
    rw [Node.at?, Node.at?]
    generalize Node.child? (.directory entries) name = found at entry ⊢
    generalize Node.child? (.directory entries') name = found' at entry ⊢
    cases entry with
    | absent => exact .inr ⟨by simp, by simp⟩
    | made unseen => exact .inr ⟨by simp, Node.at?_file_ne _ rest⟩
    | file kept => exact .inr ⟨Node.at?_file_ne _ rest, Node.at?_file_ne _ rest⟩
    | directory inside => exact ih inside

end AlikeBut

/-! ## What the search goes by -/

namespace DirectoryRules

/-- The names of the entries that say something about others. -/
def names : List String := [ownName, generalName, repositoryName] ++ excludedNames

end DirectoryRules

/-- Names that make no difference to the search for scripts. -/
structure IsUnseen (hidden : String → Prop) : Prop where
  notCandidate : ∀ (path : Path) (name : String), hidden name → isCandidate (path.child name) = false
  notRules : ∀ name ∈ DirectoryRules.names, ¬hidden name

namespace AlikeBut

theorem rulesAt (alike : AlikeBut hidden entries entries') {names : List String}
    (seen : ∀ name ∈ names, ¬hidden name) :
    DirectoryRules.rulesAt (.directory entries') names =
      DirectoryRules.rulesAt (.directory entries) names := by
  induction names generalizing entries entries' with
  | nil => rfl
  | cons name rest ih =>
    have entry := alike.child? name
    rw [DirectoryRules.rulesAt, DirectoryRules.rulesAt, Node.at?, Node.at?]
    generalize Node.child? (.directory entries) name = found at entry ⊢
    generalize Node.child? (.directory entries') name = found' at entry ⊢
    cases entry with
    | absent => rfl
    | made unseen => exact absurd unseen (seen name List.mem_cons_self)
    | file kept => rw [kept.resolve_right (seen name List.mem_cons_self)]
    | directory inside =>
      exact ih inside fun other member => seen other (List.mem_cons_of_mem name member)

theorem isSome_child? (alike : AlikeBut hidden entries entries') {name : String}
    (seen : ¬hidden name) :
    (Node.child? (.directory entries') name).isSome =
      (Node.child? (.directory entries) name).isSome := by
  have entry := alike.child? name
  generalize Node.child? (.directory entries) name = found at entry ⊢
  generalize Node.child? (.directory entries') name = found' at entry ⊢
  cases entry with
  | absent => rfl
  | made unseen => exact absurd unseen seen
  | file kept => rfl
  | directory inside => rfl

theorem ofDirectory (unseen : IsUnseen hidden) (alike : AlikeBut hidden entries entries') :
    DirectoryRules.ofDirectory (.directory entries') =
      DirectoryRules.ofDirectory (.directory entries) := by
  have seen (names : List String) (known : names ⊆ DirectoryRules.names) :
      ∀ name ∈ names, ¬hidden name := fun name member => unseen.notRules name (known member)
  rw [DirectoryRules.ofDirectory, DirectoryRules.ofDirectory,
    alike.rulesAt (seen [DirectoryRules.ownName] (by decide)),
    alike.rulesAt (seen [DirectoryRules.generalName] (by decide)),
    alike.rulesAt (seen [DirectoryRules.repositoryName] (by decide)),
    alike.rulesAt (seen DirectoryRules.excludedNames (by decide)),
    alike.isSome_child? (unseen.notRules DirectoryRules.repositoryMark (by decide))]

/-- The same scripts are found in directories alike. -/
theorem scriptsAmong (unseen : IsUnseen hidden) (alike : AlikeBut hidden entries entries')
    (around : Surroundings) (path : Path) :
    Files.scriptsAmong around path entries' = Files.scriptsAmong around path entries := by
  induction alike generalizing around path with
  | nil => rfl
  | made hides => simp [Files.scriptsAmong, unseen.notCandidate path _ hides]
  | file kept others ih => rw [Files.scriptsAmong, Files.scriptsAmong, ih]
  | directory inside others ih ihRest =>
    rw [Files.scriptsAmong, Files.scriptsAmong, ihRest, scriptsBelow, scriptsBelow,
      inside.ofDirectory unseen, ih]

end AlikeBut

/-! ## Following paths -/

theorem follow_cons {tree : Tree} {reached : List String} {inner : List (String × Node)}
    (found : tree.root.at? reached.reverse = some (.directory inner)) (segment : String)
    (rest : List String) :
    tree.follow reached (segment :: rest) =
      if Path.isIdle segment then tree.follow reached rest
      else if segment = ".." then tree.follow (reached.drop 1) rest
      else if (Node.child? (.directory inner) segment).isSome then
        tree.follow (segment :: reached) rest
      else .error .notFound := by
  rw [Tree.follow, found]
  simp only [Node.child?, Option.isSome_map]

/-- What parts of a path lead to is no directory. -/
def LeadsNowhere (root : Node) (result : Except Fault (List String)) : Prop :=
  ∀ names inner, result = .ok names → root.at? names ≠ some (.directory inner)

theorem leadsNowhere_follow {tree : Tree} {reached : List String}
    (nowhere : ∀ inner, tree.root.at? reached.reverse ≠ some (.directory inner))
    (segments : List String) : LeadsNowhere tree.root (tree.follow reached segments) := by
  intro names inner led
  cases segments with
  | nil =>
    cases led
    exact nowhere inner
  | cons segment rest =>
    rw [Tree.follow] at led
    split at led
    · cases led
    · cases led
    · next entries found => exact absurd found (nowhere entries)

theorem directory?_eq_none {tree : Tree} {path : Path} {result : Except Fault (List String)}
    (resolved : tree.resolve path = result) (nowhere : LeadsNowhere tree.root result) :
    tree.directory? path = none := by
  rw [Tree.directory?, resolved]
  cases result with
  | error fault => rfl
  | ok names =>
    dsimp only
    split
    · next inner found => exact absurd found (nowhere names inner rfl)
    · rfl

theorem directory?_eq_some {tree : Tree} {path : Path} {names : List String}
    {inner : List (String × Node)} (resolved : tree.resolve path = .ok names)
    (found : tree.root.at? names = some (.directory inner)) :
    tree.directory? path = some (names, inner) := by
  simp only [Tree.directory?, resolved, found]

/-- What parts of a path lead to in two trees: directories alike with the same names, or no directory
in both. -/
inductive LeadAlike (hidden : String → Prop) (root root' : Node) :
    Except Fault (List String) → Except Fault (List String) → Prop where
  | directory {names : List String} {inner inner' : List (String × Node)}
      (inside : AlikeBut hidden inner inner') (found : root.at? names = some (.directory inner))
      (found' : root'.at? names = some (.directory inner')) :
      LeadAlike hidden root root' (.ok names) (.ok names)
  | nowhere {result result' : Except Fault (List String)} (first : LeadsNowhere root result)
      (second : LeadsNowhere root' result') : LeadAlike hidden root root' result result'

namespace AlikeBut

variable {working : List String}

theorem follow (alike : AlikeBut hidden entries entries') (reached segments : List String) :
    LeadAlike hidden (.directory entries) (.directory entries')
      (Tree.follow ⟨.directory entries, working⟩ reached segments)
      (Tree.follow ⟨.directory entries', working⟩ reached segments) := by
  induction segments generalizing reached with
  | nil =>
    rcases alike.at? reached.reverse with ⟨inner, inner', found, found', inside⟩ | ⟨none, none'⟩
    · exact .directory inside found found'
    · exact .nowhere (leadsNowhere_follow none []) (leadsNowhere_follow none' [])
  | cons segment rest ih =>
    rcases alike.at? reached.reverse with ⟨inner, inner', found, found', inside⟩ | ⟨none, none'⟩
    · rw [follow_cons found, follow_cons found']
      by_cases idle : Path.isIdle segment = true
      · rw [if_pos idle, if_pos idle]
        exact ih reached
      · by_cases up : segment = ".."
        · rw [if_neg idle, if_neg idle, if_pos up, if_pos up]
          exact ih (reached.drop 1)
        · rw [if_neg idle, if_neg idle, if_neg up, if_neg up]
          have entry := inside.child? segment
          have below := Node.at?_append (.directory entries') reached.reverse [segment]
          rw [found', Option.bind_some, Node.at?, ← List.reverse_cons] at below
          generalize Node.child? (.directory inner) segment = child at entry ⊢
          generalize Node.child? (.directory inner') segment = child' at entry below ⊢
          cases entry with
          | absent => exact .nowhere nofun nofun
          | made unseen =>
            -- The new file is a step of the path in the second tree alone, but leads no further.
            refine .nowhere nofun (leadsNowhere_follow ?_ rest)
            rw [below]
            exact Node.at?_file_ne _ []
          | file kept => exact ih (segment :: reached)
          | directory deeper => exact ih (segment :: reached)
    · exact .nowhere (leadsNowhere_follow none _) (leadsNowhere_follow none' _)

theorem resolve (alike : AlikeBut hidden entries entries') (path : Path) :
    LeadAlike hidden (.directory entries) (.directory entries')
      (Tree.resolve ⟨.directory entries, working⟩ path)
      (Tree.resolve ⟨.directory entries', working⟩ path) := by
  rw [Tree.resolve, Tree.resolve]
  split
  · exact .nowhere nofun nofun
  · exact alike.follow _ _

/-! ## The search -/

theorem surroundingsOf (unseen : IsUnseen hidden) (alike : AlikeBut hidden entries entries')
    {names : List String} {inner : List (String × Node)}
    (found : Node.at? (.directory entries) names = some (.directory inner)) :
    Files.surroundingsOf (.directory entries') names =
      Files.surroundingsOf (.directory entries) names := by
  cases names with
  | nil => rfl
  | cons name rest =>
    rw [Files.surroundingsOf, Files.surroundingsOf]
    refine List.filterMap_congr fun depth _ => ?_
    rcases alike.at? ((name :: rest).take depth) with
      ⟨outer, outer', above, above', inside⟩ | ⟨nowhere, -⟩
    · rw [above, above', Option.map_some, Option.map_some, inside.ofDirectory unseen]
    · -- The way to a directory leads through directories.
      rw [← List.take_append_drop depth (name :: rest), Node.at?_append] at found
      obtain ⟨node, above, below⟩ := Option.bind_eq_some_iff.mp found
      cases node with
      | file content => exact absurd below (Node.at?_file_ne content _ inner)
      | directory outer => exact absurd above (nowhere outer)

theorem scriptsAt (unseen : IsUnseen hidden) (alike : AlikeBut hidden entries entries')
    (path : Path) :
    Files.scriptsAt ⟨.directory entries', working⟩ path =
      Files.scriptsAt ⟨.directory entries, working⟩ path := by
  have led : LeadAlike hidden (.directory entries) (.directory entries')
      (Tree.resolve ⟨.directory entries, working⟩ path)
      (Tree.resolve ⟨.directory entries', working⟩ path) := alike.resolve path
  generalize before : Tree.resolve ⟨.directory entries, working⟩ path = result at led
  generalize after : Tree.resolve ⟨.directory entries', working⟩ path = result' at led
  rw [Files.scriptsAt, Files.scriptsAt]
  cases led with
  | directory inside found found' =>
    rw [directory?_eq_some before found, directory?_eq_some after found']
    simp only [scriptsBelow, inside.ofDirectory unseen, inside.scriptsAmong unseen,
      alike.surroundingsOf unseen found]
  | nowhere none none' =>
    rw [directory?_eq_none before none, directory?_eq_none after none']

/-- The same scripts are found in trees that differ only in files that no search sees. -/
theorem discover (unseen : IsUnseen hidden) (alike : AlikeBut hidden entries entries')
    (paths : List Path) :
    Files.discover ⟨.directory entries', working⟩ paths =
      Files.discover ⟨.directory entries, working⟩ paths := by
  rw [Files.discover, Files.discover, funext (alike.scriptsAt unseen)]

end AlikeBut

end StrategyMend.Files
