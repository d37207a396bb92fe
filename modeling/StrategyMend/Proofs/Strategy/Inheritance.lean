import Mathlib.Data.List.Sort
import Mathlib.Order.Bounds.Basic
import StrategyMend.Strategy.Inheritance

/-!
# Strategies and inheritance

A name stands for a strategy if it is that of a configured base or of a class that has such a name
among its bases (`NamesStrategy`). The rounds over the classes find strategies in an order of their
own: a class whose base is found later waits for the next round. When they end, no class that is left
has a known name among its bases (`rounds_decides`), so the names known then are those that stand for
strategies (`mem_known_iff`), and the strategies are the classes with such a name among their bases,
in the order of the source (`strategies_eq_filter`).

Their numbers form the least set that contains each class with a root or the name of a member among
its bases (`strategyNumbers_isLeast`). This holds for classes in any order, with any names: of two
classes with one name, each is judged by its own bases, and a class with that name as a base is a
strategy if one of them is. A class that only inherits from itself is none.
-/

set_option autoImplicit false

namespace StrategyMend.Strategy.ClassIndex

/-! ## Names of strategies -/

/-- The names that stand for strategies. -/
inductive NamesStrategy (index : ClassIndex) : String → Prop where
  | root {name : String} (configured : name ∈ index.roots) : NamesStrategy index name
  | derived {info : ClassInfo} {base : String} (listed : info ∈ index.classes)
      (inherits : base ∈ info.bases) (strategy : NamesStrategy index base) :
      NamesStrategy index info.name

/-- The order of the classes does not matter to a name. -/
theorem NamesStrategy.of_subset {index other : ClassIndex} (roots : index.roots ⊆ other.roots)
    (classes : index.classes ⊆ other.classes) {name : String} (names : index.NamesStrategy name) :
    other.NamesStrategy name := by
  induction names with
  | root configured => exact .root (roots configured)
  | derived listed inherits _ ih => exact .derived (classes listed) inherits ih

theorem hasBaseIn_iff {names : List String} {info : ClassInfo} :
    hasBaseIn names info = true ↔ ∃ base ∈ info.bases, base ∈ names := by
  simp [hasBaseIn]

/-! ## One round -/

/-- A round finds or leaves each class. -/
theorem round_perm (names : List String) (entries : List (ClassInfo × Nat)) :
    ((round names entries).1 ++ (round names entries).2).Perm entries := by
  induction entries generalizing names with
  | nil => exact .nil
  | cons entry rest ih =>
    rw [round]
    split
    · exact (ih _).cons entry
    · exact List.perm_middle.trans ((ih _).cons entry)

/-- What a round finds from names of strategies on are strategies. -/
theorem round_sound {index : ClassIndex} {names : List String} {entries : List (ClassInfo × Nat)}
    (known : ∀ name ∈ names, index.NamesStrategy name)
    (listed : ∀ entry ∈ entries, entry.1 ∈ index.classes) :
    ∀ entry ∈ (round names entries).1, ∃ base ∈ entry.1.bases, index.NamesStrategy base := by
  induction entries generalizing names with
  | nil => simp [round]
  | cons entry rest ih =>
    have behind : ∀ other ∈ rest, other.1 ∈ index.classes := fun other member =>
      listed other (List.mem_cons_of_mem _ member)
    rw [round]
    split
    · rename_i has
      obtain ⟨base, inherits, member⟩ := hasBaseIn_iff.mp has
      have strategy : index.NamesStrategy entry.1.name :=
        .derived (listed entry List.mem_cons_self) inherits (known base member)
      intro other found
      rcases List.mem_cons.mp found with rfl | later
      · exact ⟨base, inherits, known base member⟩
      · exact ih (List.forall_mem_cons.mpr ⟨strategy, known⟩) behind other later
    · exact ih known behind

/-- A round that finds nothing has no class with a known name among its bases. -/
theorem hasBaseIn_eq_false_of_round {names : List String} {entries : List (ClassInfo × Nat)}
    (nothing : (round names entries).1 = []) :
    ∀ entry ∈ entries, hasBaseIn names entry.1 = false := by
  induction entries with
  | nil => simp
  | cons entry rest ih =>
    rw [round] at nothing
    split at nothing
    · cases nothing
    · rename_i has
      exact List.forall_mem_cons.mpr ⟨by simpa using has, ih nothing⟩

/-! ## All rounds -/

theorem rounds_of_nothing {names : List String} {entries : List (ClassInfo × Nat)}
    (nothing : (round names entries).1 = []) : rounds names entries = [] := by
  rw [rounds, if_pos nothing]

theorem rounds_of_more {names : List String} {entries : List (ClassInfo × Nat)}
    (more : (round names entries).1 ≠ []) :
    rounds names entries =
      (round names entries).1 ++
        rounds (known names (round names entries).1) (round names entries).2 := by
  rw [rounds, if_neg more]

theorem mem_known {names : List String} {found : List (ClassInfo × Nat)} {name : String} :
    name ∈ known names found ↔ (∃ entry ∈ found, entry.1.name = name) ∨ name ∈ names := by
  induction found generalizing names with
  | nil => simp [known]
  | cons entry rest ih =>
    rw [known, List.foldl_cons, ← known, ih, List.mem_cons, List.exists_mem_cons_iff]
    constructor
    · rintro (later | rfl | before)
      · exact .inl (.inr later)
      · exact .inl (.inl rfl)
      · exact .inr before
    · rintro ((rfl | later) | before)
      · exact .inr (.inl rfl)
      · exact .inl later
      · exact .inr (.inr before)

theorem known_append (names : List String) (found more : List (ClassInfo × Nat)) :
    known names (found ++ more) = known (known names found) more :=
  List.foldl_append

/-- The rounds find strategies. -/
theorem rounds_sound {index : ClassIndex} (names : List String) (entries : List (ClassInfo × Nat))
    (strategies : ∀ name ∈ names, index.NamesStrategy name)
    (listed : ∀ entry ∈ entries, entry.1 ∈ index.classes) :
    ∀ entry ∈ rounds names entries, ∃ base ∈ entry.1.bases, index.NamesStrategy base := by
  induction names, entries using rounds.induct with
  | case1 names entries found nothing => simp [rounds_of_nothing nothing]
  | case2 names entries found more ih =>
    have perm := round_perm names entries
    have sound := round_sound strategies listed
    have within : ∀ entry ∈ found ++ (round names entries).2, entry.1 ∈ index.classes :=
      fun entry member => listed entry (perm.mem_iff.mp member)
    rw [rounds_of_more more]
    refine List.forall_mem_append.mpr ⟨sound, ih ?_ ?_⟩
    · intro name member
      rcases mem_known.mp member with ⟨entry, now, rfl⟩ | before
      · obtain ⟨base, inherits, strategy⟩ := sound entry now
        exact .derived (within entry (List.mem_append_left _ now)) inherits strategy
      · exact strategies name before
    · exact fun entry member => within entry (List.mem_append_right _ member)

/-- When the rounds end, the classes that are left have no known name among their bases. -/
theorem rounds_decides (names : List String) (entries : List (ClassInfo × Nat)) :
    ∃ left, (rounds names entries ++ left).Perm entries ∧
      ∀ entry ∈ left, hasBaseIn (known names (rounds names entries)) entry.1 = false := by
  induction names, entries using rounds.induct with
  | case1 names entries found nothing =>
    refine ⟨entries, ?_, ?_⟩
    · rw [rounds_of_nothing nothing, List.nil_append]
    · rw [rounds_of_nothing nothing]
      exact hasBaseIn_eq_false_of_round nothing
  | case2 names entries found more ih =>
    obtain ⟨left, perm, undecided⟩ := ih
    refine ⟨left, ?_, ?_⟩
    · rw [rounds_of_more more, List.append_assoc]
      exact (perm.append_left _).trans (round_perm names entries)
    · rw [rounds_of_more more, known_append]
      exact undecided

/-! ## The strategies of an index -/

section Index

variable {index : ClassIndex}

/-- What the rounds find, and what they leave. -/
theorem exists_left (index : ClassIndex) :
    ∃ left, (index.found ++ left).Perm index.classes.zipIdx ∧
      ∀ entry ∈ left, hasBaseIn (known index.roots index.found) entry.1 = false :=
  rounds_decides index.roots index.classes.zipIdx

theorem found_sound :
    ∀ entry ∈ index.found, ∃ base ∈ entry.1.bases, index.NamesStrategy base :=
  rounds_sound index.roots index.classes.zipIdx (fun _ configured => .root configured)
    fun _ member => List.fst_mem_of_mem_zipIdx member

/-- The names that are known when the rounds end are those that stand for strategies. -/
theorem mem_known_iff {name : String} :
    name ∈ known index.roots index.found ↔ index.NamesStrategy name := by
  obtain ⟨left, perm, undecided⟩ := exists_left index
  constructor
  · intro member
    rcases mem_known.mp member with ⟨entry, found, rfl⟩ | configured
    · obtain ⟨base, inherits, strategy⟩ := found_sound entry found
      have listed := perm.mem_iff.mp (List.mem_append_left _ found)
      exact .derived (List.fst_mem_of_mem_zipIdx listed) inherits strategy
    · exact .root configured
  · intro strategy
    induction strategy with
    | root configured => exact mem_known.mpr (.inr configured)
    | @derived info base listed inherits _ ih =>
      obtain ⟨number, here⟩ := List.mem_iff_getElem?.mp listed
      have numbered : (info, number) ∈ index.classes.zipIdx :=
        List.mem_zipIdx_iff_getElem?.mpr here
      rcases List.mem_append.mp (perm.mem_iff.mpr numbered) with found | rest
      · exact mem_known.mpr (.inl ⟨_, found, rfl⟩)
      · have without := undecided _ rest
        rw [hasBaseIn_iff.mpr ⟨base, inherits, ih⟩] at without
        cases without

/-- Whether one of the bases of a class stands for a strategy. -/
def inherits (index : ClassIndex) (info : ClassInfo) : Bool :=
  hasBaseIn (known index.roots index.found) info

theorem inherits_iff {info : ClassInfo} :
    index.inherits info = true ↔ ∃ base ∈ info.bases, index.NamesStrategy base := by
  simp only [inherits, hasBaseIn_iff, mem_known_iff]

/-- The classes that inherit from a strategy with their numbers, in the order of the source. -/
def heirs (index : ClassIndex) : List (ClassInfo × Nat) :=
  index.classes.zipIdx.filter fun entry => index.inherits entry.1

/-- The rounds find the classes that inherit from a strategy, each once. -/
theorem found_perm : index.found.Perm index.heirs := by
  obtain ⟨left, perm, undecided⟩ := exists_left index
  have all : index.found.filter (fun entry => index.inherits entry.1) = index.found :=
    List.filter_eq_self.mpr fun entry found => inherits_iff.mpr (found_sound entry found)
  have none : left.filter (fun entry => index.inherits entry.1) = [] :=
    List.filter_eq_nil_iff.mpr fun entry rest => by simp [inherits, undecided entry rest]
  have kept := perm.filter fun entry => index.inherits entry.1
  rwa [List.filter_append, all, none, List.append_nil] at kept

/-! ## Their numbers -/

theorem heirs_map_snd_pairwise : (index.heirs.map Prod.snd).Pairwise (· < ·) := by
  have sublist : (index.heirs.map Prod.snd).Sublist (index.classes.zipIdx.map Prod.snd) :=
    List.filter_sublist.map Prod.snd
  rw [List.zipIdx_map_snd] at sublist
  exact List.Pairwise.sublist sublist List.pairwise_lt_range'

theorem insertNumber_eq (number : Nat) (numbers : List Nat) :
    insertNumber number numbers = numbers.orderedInsert (· ≤ ·) number := by
  induction numbers with
  | nil => rfl
  | cons first rest ih => rw [insertNumber, List.orderedInsert_cons, ih]

/-- Sorting what was found puts it in the order of the source. -/
theorem strategyNumbers_eq (index : ClassIndex) :
    index.strategyNumbers = index.heirs.map Prod.snd := by
  have sorts : index.strategyNumbers = (index.found.map Prod.snd).insertionSort (· ≤ ·) := by
    rw [strategyNumbers, funext fun number => funext (insertNumber_eq number)]
    rfl
  have same : index.strategyNumbers.Perm (index.heirs.map Prod.snd) := by
    rw [sorts]
    exact (List.perm_insertionSort _ _).trans (found_perm.map Prod.snd)
  refine same.eq_of_pairwise (fun _ _ _ _ => Nat.le_antisymm) ?_
    (heirs_map_snd_pairwise.imp Nat.le_of_lt)
  rw [sorts]
  exact List.pairwise_insertionSort _ _

theorem mem_strategyNumbers {number : Nat} :
    number ∈ index.strategyNumbers ↔
      ∃ info, index.classes[number]? = some info ∧
        ∃ base ∈ info.bases, index.NamesStrategy base := by
  simp [strategyNumbers_eq, heirs, List.mem_zipIdx_iff_getElem?, inherits_iff]

theorem getElem?_of_mem_heirs {entry : ClassInfo × Nat} (heir : entry ∈ index.heirs) :
    index.classes[entry.2]? = some entry.1 :=
  List.mem_zipIdx_iff_getElem?.mp (List.mem_filter.mp heir).1

/-- Looking the numbers up gives the classes that inherit from a strategy. -/
theorem strategies_eq_heirs (index : ClassIndex) :
    index.strategies = index.heirs.map Prod.fst := by
  calc index.strategies
      = index.heirs.filterMap fun entry => index.classes[entry.2]? := by
        rw [strategies, strategyNumbers_eq, List.filterMap_map]
        rfl
    _ = index.heirs.filterMap (some ∘ Prod.fst) :=
        List.filterMap_congr fun _ heir => getElem?_of_mem_heirs heir
    _ = index.heirs.map Prod.fst := by rw [List.filterMap_eq_map]

/-- There is a strategy for each number. -/
theorem strategies_map_some (index : ClassIndex) :
    index.strategies.map some = index.strategyNumbers.map (index.classes[·]?) := by
  rw [strategies_eq_heirs, strategyNumbers_eq, List.map_map, List.map_map]
  exact List.map_congr_left fun _ heir => (getElem?_of_mem_heirs heir).symm

/-- The strategies are the classes that inherit from one, in the order of the source. -/
theorem strategies_eq_filter (index : ClassIndex) :
    index.strategies = index.classes.filter index.inherits := by
  calc index.strategies
      = index.heirs.map Prod.fst := strategies_eq_heirs index
    _ = (index.classes.zipIdx.map Prod.fst).filter index.inherits := by
        rw [List.filter_map]
        rfl
    _ = index.classes.filter index.inherits := by rw [List.zipIdx_map_fst]

theorem mem_classes_of_mem_strategies {info : ClassInfo} (strategy : info ∈ index.strategies) :
    info ∈ index.classes := by
  rw [strategies_eq_filter] at strategy
  exact (List.mem_filter.mp strategy).1

/-! ## The least set -/

/-- A set of numbers of classes contains each class that has a root or the name of a member among its
bases. -/
def ClosedUnderInheritance (index : ClassIndex) (members : Set Nat) : Prop :=
  ∀ number info, index.classes[number]? = some info →
    (∃ base ∈ info.bases, base ∈ index.roots ∨
      ∃ other ∈ members, (index.classes[other]?).map ClassInfo.name = some base) →
    number ∈ members

theorem closedUnderInheritance_strategyNumbers (index : ClassIndex) :
    index.ClosedUnderInheritance {number | number ∈ index.strategyNumbers} := by
  rintro number info here ⟨base, inherits, configured | ⟨other, member, named⟩⟩
  · exact mem_strategyNumbers.mpr ⟨info, here, base, inherits, .root configured⟩
  · obtain ⟨parent, there, grandparent, above, strategy⟩ := mem_strategyNumbers.mp member
    rw [there] at named
    cases named
    exact mem_strategyNumbers.mpr
      ⟨info, here, parent.name, inherits, .derived (List.mem_of_getElem? there) above strategy⟩

/-- A name of a strategy is a root or the name of a member of a closed set. -/
theorem NamesStrategy.of_closed {members : Set Nat} (closed : index.ClosedUnderInheritance members)
    {name : String} (strategy : index.NamesStrategy name) :
    name ∈ index.roots ∨
      ∃ other ∈ members, (index.classes[other]?).map ClassInfo.name = some name := by
  induction strategy with
  | root configured => exact .inl configured
  | @derived info base listed inherits _ ih =>
    obtain ⟨number, here⟩ := List.mem_iff_getElem?.mp listed
    exact .inr ⟨number, closed number info here ⟨base, inherits, ih⟩, by rw [here]; rfl⟩

/-- Changing the order of the classes only changes the order of the strategies. -/
theorem strategies_perm {index other : ClassIndex} (roots : other.roots = index.roots)
    (reordered : other.classes.Perm index.classes) :
    other.strategies.Perm index.strategies := by
  have same : other.inherits = index.inherits := by
    funext info
    rw [Bool.eq_iff_iff, inherits_iff, inherits_iff]
    refine exists_congr fun base => and_congr_right fun _ => ⟨?_, ?_⟩
    · exact NamesStrategy.of_subset (roots ▸ List.Subset.refl _) reordered.subset
    · exact NamesStrategy.of_subset (roots ▸ List.Subset.refl _) reordered.symm.subset
  rw [strategies_eq_filter, strategies_eq_filter, same]
  exact reordered.filter _

/-- The numbers of the strategies increase and form the least set that contains each class with a
root or the name of a member among its bases; the strategies are the classes with these numbers. They
are the same classes in whatever order the classes are defined. -/
theorem strategyNumbers_isLeast (index : ClassIndex) :
    index.strategyNumbers.Pairwise (· < ·) ∧
      IsLeast {members | index.ClosedUnderInheritance members}
        {number | number ∈ index.strategyNumbers} ∧
      index.strategies.map some = index.strategyNumbers.map (index.classes[·]?) ∧
      ∀ classes : List ClassInfo, classes.Perm index.classes →
        ({ index with classes } : ClassIndex).strategies.Perm index.strategies := by
  refine ⟨?increasing, ⟨closedUnderInheritance_strategyNumbers index, ?least⟩,
    strategies_map_some index, fun _ reordered => strategies_perm rfl reordered⟩
  case increasing =>
    rw [strategyNumbers_eq]
    exact heirs_map_snd_pairwise
  case least =>
    intro members closed number strategy
    obtain ⟨info, here, base, inherits, named⟩ := mem_strategyNumbers.mp strategy
    exact closed number info here ⟨base, inherits, named.of_closed closed⟩

end Index

/-- A strategy in front of its base, a class that inherits from itself, and a class that shares its
name with a strategy. -/
def lateBase : ClassIndex where
  classes :=
    [⟨0, "Trend", ["Base"], []⟩, ⟨4, "Base", ["Strategy"], []⟩, ⟨8, "Loop", ["Loop"], []⟩,
      ⟨12, "Trend", [], []⟩, ⟨16, "Fast", ["Trend"], []⟩]
  roots := ["Strategy"]

theorem strategyNumbers_isLeast_lateBase :
    lateBase.strategyNumbers = [0, 1, 4] ∧
      lateBase.classes.reverse.Perm lateBase.classes ∧
      ({ lateBase with classes := lateBase.classes.reverse } : ClassIndex).strategies.Perm
        lateBase.strategies :=
  ⟨by decide +kernel, List.reverse_perm _,
    (strategyNumbers_isLeast lateBase).2.2.2 _ (List.reverse_perm _)⟩

end StrategyMend.Strategy.ClassIndex
