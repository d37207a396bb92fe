import StrategyMend.Python.Definition

/-!
# Strategy classes

The classes of a source and how they inherit from each other. A base counts by the last part of its
dotted name. A class is a strategy if one of its bases is a configured name or the name of a strategy
class, whatever other classes have that name. Rounds over the classes find the strategies.

The ancestors of a class are its bases, their bases, and so on, nearest first and each once. Here the
name of a base means the first class of the source with that name. A class with the name of the class
itself is no ancestor, and its bases are not followed.
-/

set_option autoImplicit false

namespace StrategyMend.Strategy

open Python

/-- A class of a source. -/
structure ClassInfo where
  /-- The row on which the definition begins, decorators aside. -/
  row : Nat
  name : String
  /-- The names of the bases. -/
  bases : List String
  /-- The functions defined directly in the body. -/
  methods : List FunctionInfo

namespace ClassInfo

/-- The line of the class, counted from one. -/
def line (info : ClassInfo) : Nat := info.row + 1

/-- The first method with the given name. -/
def ownMethod? (info : ClassInfo) (name : String) : Option FunctionInfo :=
  info.methods.find? fun method => method.name == name

end ClassInfo

/-- The name that an expression in the list of bases names: what is written behind its last dot. -/
def baseName? : Expression → Option String
  | .name text _ => some text
  | .attribute _ _ tail => some tail
  | _ => none

/-- The class that a statement defines. -/
def classOf? : Statement → Option ClassInfo
  | .classDef row name _ bases body =>
    some
      { row, name
        bases := bases.filterMap baseName?
        methods := body.filterMap fun statement => statement.undecorated.function? }
  | _ => none

mutual

/-- The classes below a statement, that is, not the one it defines itself. A decorated class is found
twice: once as the decorated statement and once as the definition under the decorators. -/
def classesBelow : Statement → List ClassInfo
  | .block _ _ _ body => classesIn body
  | .function _ _ _ _ _ body => classesIn body
  | .classDef _ _ _ _ body => classesIn body
  | .decorated _ _ definition => (classOf? definition).toList ++ classesBelow definition
  | _ => []

/-- The classes in statements. -/
def classesIn : List Statement → List ClassInfo
  | [] => []
  | statement :: rest =>
    (classOf? statement.undecorated).toList ++ classesBelow statement ++ classesIn rest

end

/-- The classes of a source, in the order in which they begin. -/
structure ClassIndex where
  classes : List ClassInfo
  /-- The names of the configured bases. -/
  roots : List String

namespace ClassIndex

/-- The classes of a list of statements. -/
def ofStatements (roots : List String) (statements : List Statement) : ClassIndex :=
  ⟨classesIn statements, roots⟩

/-- Whether a class has one of the names among its bases. -/
def hasBaseIn (names : List String) (info : ClassInfo) : Bool :=
  info.bases.any fun base => names.contains base

/-- One round over classes with their numbers: those that turn out to be strategies, and those that
are left. A class that is found counts as a base for the ones behind it at once. -/
def round (names : List String) :
    List (ClassInfo × Nat) → List (ClassInfo × Nat) × List (ClassInfo × Nat)
  | [] => ([], [])
  | entry :: rest =>
    if hasBaseIn names entry.1 then
      let (found, left) := round (entry.1.name :: names) rest
      (entry :: found, left)
    else
      let (found, left) := round names rest
      (found, entry :: left)

/-- A round finds or leaves each class. -/
theorem length_round (names : List String) (entries : List (ClassInfo × Nat)) :
    (round names entries).1.length + (round names entries).2.length = entries.length := by
  induction entries generalizing names with
  | nil => rfl
  | cons entry rest ih =>
    rw [round]
    split
    · have behind := ih (entry.1.name :: names)
      simp only [List.length_cons]
      omega
    · have behind := ih names
      simp only [List.length_cons]
      omega

/-- Names together with those of classes that were found. -/
def known (names : List String) (found : List (ClassInfo × Nat)) : List String :=
  found.foldl (fun names entry => entry.1.name :: names) names

/-- The strategies among classes with their numbers, in the order in which they are found. Rounds go
on over the classes that are left until one finds nothing. -/
def rounds (names : List String) (entries : List (ClassInfo × Nat)) : List (ClassInfo × Nat) :=
  let found := (round names entries).1
  if found = [] then [] else found ++ rounds (known names found) (round names entries).2
termination_by entries.length
decreasing_by
  rename_i more
  have total := length_round names entries
  have more : 0 < (round names entries).1.length := List.length_pos_iff.mpr more
  omega

/-- The strategy classes with their numbers, in the order in which they are found. -/
def found (index : ClassIndex) : List (ClassInfo × Nat) :=
  rounds index.roots index.classes.zipIdx

/-- Puts a number in front of the first one that is not smaller. -/
def insertNumber (number : Nat) : List Nat → List Nat
  | [] => [number]
  | first :: rest =>
    if number ≤ first then number :: first :: rest else first :: insertNumber number rest

/-- The numbers of the strategy classes, in increasing order. -/
def strategyNumbers (index : ClassIndex) : List Nat :=
  (index.found.map Prod.snd).foldr insertNumber []

/-- The strategy classes, in the order of the source. -/
def strategies (index : ClassIndex) : List ClassInfo :=
  index.strategyNumbers.filterMap (index.classes[·]?)

/-- The number of the first class with a name. -/
def first? (index : ClassIndex) (name : String) : Option (Fin index.classes.length) :=
  index.classes.findFinIdx? fun info => info.name == name

/-- How many bases the classes have that were not met yet. -/
def unmetBases (index : ClassIndex) (met : List (Fin index.classes.length)) : Nat :=
  ((List.finRange index.classes.length).flatMap fun number =>
    if number ∈ met then [] else (index.classes.get number).bases).length

/-- Lists put together are shorter by as much as one of them is if no other one is longer. -/
theorem length_flatMap_add_le {α β : Type} {items : List α} {smaller larger : α → List β} {item : α}
    {gap : Nat} (listed : item ∈ items) (le : ∀ other, (smaller other).length ≤ (larger other).length)
    (less : (smaller item).length + gap ≤ (larger item).length) :
    (items.flatMap smaller).length + gap ≤ (items.flatMap larger).length := by
  have rest (others : List α) : (others.flatMap smaller).length ≤ (others.flatMap larger).length := by
    induction others with
    | nil => exact Nat.le_refl 0
    | cons other others ih =>
      have here := le other
      simp only [List.flatMap_cons, List.length_append]
      omega
  induction items with
  | nil => cases listed
  | cons first others ih =>
    simp only [List.flatMap_cons, List.length_append]
    rcases List.mem_cons.mp listed with rfl | later
    · have behind := rest others
      omega
    · have here := le first
      have behind := ih later
      omega

/-- When a class is met, its bases are no longer those of a class that was not met. -/
theorem unmetBases_cons (index : ClassIndex) {met : List (Fin index.classes.length)}
    {number : Fin index.classes.length} (new : number ∉ met) :
    index.unmetBases (number :: met) + (index.classes.get number).bases.length
      ≤ index.unmetBases met := by
  refine length_flatMap_add_le (List.mem_finRange number) (fun other => ?_) (by simp [new])
  by_cases known : other ∈ met
  · simp [known]
  · by_cases same : other = number
    · simp [same]
    · simp [known, same]

/-- Works through a queue of names of bases for a class with the name `own`, where the classes with
the numbers `met` were met before. A class that is met for the first time is an ancestor, and its
bases join the queue. -/
def reach (index : ClassIndex) (own : String) (met : List (Fin index.classes.length)) :
    (queue : List String) → List ClassInfo
  | [] => []
  | base :: queue =>
    match index.first? base with
    | none => index.reach own met queue
    | some number =>
      if number ∈ met then index.reach own met queue
      else if (index.classes.get number).name = own then index.reach own (number :: met) queue
      else
        index.classes.get number ::
          index.reach own (number :: met) (queue ++ (index.classes.get number).bases)
termination_by queue => index.unmetBases met + queue.length
decreasing_by
  · exact Nat.lt_succ_self _
  · exact Nat.lt_succ_self _
  · have fewer := index.unmetBases_cons ‹number ∉ met›
    simp only [List.length_cons]
    omega
  · have fewer := index.unmetBases_cons ‹number ∉ met›
    simp only [List.length_cons, List.length_append]
    omega

/-- The ancestors of a class, nearest first. -/
def ancestors (index : ClassIndex) (info : ClassInfo) : List ClassInfo :=
  index.reach info.name [] info.bases

/-- The method of a class or of its nearest ancestor that has one. -/
def resolveMethod? (index : ClassIndex) (info : ClassInfo) (name : String) : Option FunctionInfo :=
  (info.ownMethod? name).or ((index.ancestors info).findSome? fun ancestor => ancestor.ownMethod? name)

end ClassIndex

end StrategyMend.Strategy
