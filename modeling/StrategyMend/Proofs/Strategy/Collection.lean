import Mathlib.Data.List.Nodup
import StrategyMend.Strategy.Inheritance
import StrategyMend.Proofs.Python.DefinitionRows

/-!
# Collected classes

The collection of classes meets a class under decorators twice, as the decorated statement and as the
definition under the decorators. All in all it has every class that the source defines once, and every
class that is a decorated statement once more (`classesIn_perm`).

A class is told by the row on which it begins, and so are its methods: in the classes that a source
defines no row comes twice (`nodup_rows_definedClasses`).
-/

set_option autoImplicit false

namespace StrategyMend.Strategy

open Python

/-! ## Classes in a source -/

/-- The class under the decorators of a statement. -/
def decoratedClass? : Statement → Option ClassInfo
  | .decorated _ _ definition => classOf? definition
  | _ => none

mutual

/-- The classes that a statement defines, itself or inside, each once. -/
def classesWithin : Statement → List ClassInfo
  | .block _ _ _ body => definedClasses body
  | .function _ _ _ _ _ body => definedClasses body
  | .classDef row name types bases body =>
    (classOf? (.classDef row name types bases body)).toList ++ definedClasses body
  | .decorated _ _ definition => classesWithin definition
  | _ => []

/-- The classes that statements define, each once. -/
def definedClasses : List Statement → List ClassInfo
  | [] => []
  | statement :: rest => classesWithin statement ++ definedClasses rest

end

mutual

/-- The decorated classes inside a statement. -/
def decoratedWithin : Statement → List ClassInfo
  | .block _ _ _ body => decoratedClasses body
  | .function _ _ _ _ _ body => decoratedClasses body
  | .classDef _ _ _ _ body => decoratedClasses body
  | .decorated _ _ definition => decoratedWithin definition
  | _ => []

/-- The decorated classes among statements and inside them. -/
def decoratedClasses : List Statement → List ClassInfo
  | [] => []
  | statement :: rest =>
    (decoratedClass? statement).toList ++ decoratedWithin statement ++ decoratedClasses rest

end

theorem classOf?_undecorated (statement : Statement) :
    (classOf? statement.undecorated).toList =
      (decoratedClass? statement).toList ++ (classOf? statement).toList := by
  cases statement with
  | decorated _ _ definition => exact (List.append_nil _).symm
  | _ => rfl

mutual

theorem classesBelow_perm : (statement : Statement) →
    ((classOf? statement).toList ++ classesBelow statement).Perm
      (classesWithin statement ++ decoratedWithin statement)
  | .block _ _ _ body => classesIn_perm body
  | .function _ _ _ _ _ body => classesIn_perm body
  | .classDef row name types bases body => by
    rw [classesWithin, List.append_assoc]
    exact (classesIn_perm body).append_left _
  | .decorated _ _ definition => classesBelow_perm definition
  | .expression _ _ => .nil
  | .assignment _ _ _ => .nil
  | .simple _ _ => .nil
  | .imports _ _ _ => .nil
  | .declaration _ _ => .nil

/-- **Each class is collected once, and each decorated class once more.** -/
theorem classesIn_perm : (statements : List Statement) →
    (classesIn statements).Perm (definedClasses statements ++ decoratedClasses statements)
  | [] => .nil
  | statement :: rest => by
    classical
    have here := classesBelow_perm statement
    have there := classesIn_perm rest
    rw [List.perm_iff_count] at here there ⊢
    intro info
    have here := here info
    have there := there info
    simp only [classesIn, definedClasses, decoratedClasses, classOf?_undecorated,
      List.count_append] at here there ⊢
    omega

end

theorem mem_classesWithin_of_classOf? {statement : Statement} {info : ClassInfo}
    (found : info ∈ (classOf? statement).toList) : info ∈ classesWithin statement := by
  cases statement with
  | classDef row name types bases body => exact List.mem_append_left _ found
  | _ => cases found

mutual

theorem decoratedWithin_subset : (statement : Statement) →
    decoratedWithin statement ⊆ classesWithin statement
  | .block _ _ _ body => decoratedClasses_subset body
  | .function _ _ _ _ _ body => decoratedClasses_subset body
  | .classDef _ _ _ _ body => fun _ member =>
    List.mem_append_right _ (decoratedClasses_subset body member)
  | .decorated _ _ definition => decoratedWithin_subset definition
  | .expression _ _ => nofun
  | .assignment _ _ _ => nofun
  | .simple _ _ => nofun
  | .imports _ _ _ => nofun
  | .declaration _ _ => nofun

theorem decoratedClasses_subset : (statements : List Statement) →
    decoratedClasses statements ⊆ definedClasses statements
  | [] => nofun
  | statement :: rest => by
    have inside := decoratedWithin_subset statement
    have behind := decoratedClasses_subset rest
    have itself : (decoratedClass? statement).toList ⊆ classesWithin statement := by
      cases statement with
      | decorated _ _ definition => exact fun _ => mem_classesWithin_of_classOf?
      | _ => exact nofun
    intro info member
    rw [decoratedClasses, List.mem_append, List.mem_append] at member
    rw [definedClasses, List.mem_append]
    rcases member with (here | below) | later
    · exact .inl (itself here)
    · exact .inl (inside below)
    · exact .inr (behind later)

end

/-! ## Rows of classes -/

/-- The rows on which a class and its methods begin. -/
def ClassInfo.rows (info : ClassInfo) : List Nat := info.row :: info.methods.map FunctionInfo.row

/-- The functions that are defined directly in a body. -/
def methodsIn (body : List Statement) : List FunctionInfo :=
  body.filterMap fun statement => statement.undecorated.function?

/-- How often a row is among those of functions and classes. -/
def rowCount (row : Nat) (functions : List FunctionInfo) (classes : List ClassInfo) : Nat :=
  (functions.map FunctionInfo.row ++ classes.flatMap ClassInfo.rows).count row

section Rows

variable {row : Nat}

theorem rowCount_append (functions others : List FunctionInfo) (classes more : List ClassInfo) :
    rowCount row (functions ++ others) (classes ++ more) =
      rowCount row functions classes + rowCount row others more := by
  simp only [rowCount, List.map_append, List.flatMap_append, List.count_append]
  omega

theorem rowCount_cons_function (function : FunctionInfo) (classes : List ClassInfo) :
    rowCount row [function] classes =
      (if function.row == row then 1 else 0) + rowCount row [] classes := by
  simp only [rowCount, List.map_cons, List.map_nil, List.cons_append, List.nil_append, List.count_cons]
  omega

theorem rowCount_cons_class (info : ClassInfo) (classes : List ClassInfo) :
    rowCount row [] (info :: classes) =
      (if info.row == row then 1 else 0) + rowCount row info.methods classes := by
  simp only [rowCount, ClassInfo.rows, List.map_nil, List.nil_append, List.flatMap_cons,
    List.cons_append, List.count_append, List.count_cons]
  omega

theorem rowCount_le (functions : List FunctionInfo) (classes : List ClassInfo) :
    rowCount row [] classes ≤ rowCount row functions classes := by
  simp only [rowCount, List.map_nil, List.nil_append, List.count_append]
  omega

theorem methodsIn_cons (statement : Statement) (rest : List Statement) :
    methodsIn (statement :: rest) = statement.undecorated.function?.toList ++ methodsIn rest := by
  rw [methodsIn, List.filterMap_cons]
  cases statement.undecorated.function? <;> rfl

mutual

/-- The rows of the classes in a statement are rows of definitions, and so is that of the function that
the statement defines. -/
theorem rowCount_classesWithin : (statement : Statement) →
    rowCount row statement.function?.toList (classesWithin statement) ≤
      statement.definitionRows.count row
  | .block _ _ _ body => (rowCount_le _ _).trans (rowCount_definedClasses body)
  | .function first name types parameters returns body => by
    have inside := (rowCount_le _ _).trans (rowCount_definedClasses body)
    show rowCount row [⟨first, name, body⟩] (definedClasses body) ≤
      (first :: definitionRowsIn body).count row
    rw [rowCount_cons_function, List.count_cons, Nat.add_comm]
    exact Nat.add_le_add_right inside _
  | .classDef first name types bases body => by
    have inside := rowCount_definedClasses body
    show rowCount row [] (⟨first, name, bases.filterMap baseName?, methodsIn body⟩ ::
      definedClasses body) ≤ (first :: definitionRowsIn body).count row
    rw [rowCount_cons_class, List.count_cons, Nat.add_comm]
    exact Nat.add_le_add_right inside _
  | .decorated _ _ definition => (rowCount_le _ _).trans (rowCount_classesWithin definition)
  | .expression _ _ => Nat.le_refl 0
  | .assignment _ _ _ => Nat.le_refl 0
  | .simple _ _ => Nat.le_refl 0
  | .imports _ _ _ => Nat.le_refl 0
  | .declaration _ _ => Nat.le_refl 0

/-- The same with the function under the decorators of the statement. -/
theorem rowCount_undecorated : (statement : Statement) →
    rowCount row statement.undecorated.function?.toList (classesWithin statement) ≤
      statement.definitionRows.count row
  | .decorated _ _ definition => rowCount_classesWithin definition
  | .block first kind head body => rowCount_classesWithin (.block first kind head body)
  | .function first name types parameters returns body =>
    rowCount_classesWithin (.function first name types parameters returns body)
  | .classDef first name types bases body =>
    rowCount_classesWithin (.classDef first name types bases body)
  | .expression _ _ => Nat.le_refl 0
  | .assignment _ _ _ => Nat.le_refl 0
  | .simple _ _ => Nat.le_refl 0
  | .imports _ _ _ => Nat.le_refl 0
  | .declaration _ _ => Nat.le_refl 0

theorem rowCount_definedClasses : (statements : List Statement) →
    rowCount row (methodsIn statements) (definedClasses statements) ≤
      (definitionRowsIn statements).count row
  | [] => Nat.le_refl 0
  | statement :: rest => by
    rw [methodsIn_cons, definedClasses, rowCount_append, definitionRowsIn, List.count_append]
    exact Nat.add_le_add (rowCount_undecorated statement) (rowCount_definedClasses rest)

end

theorem count_rows_le (statements : List Statement) :
    ((definedClasses statements).flatMap ClassInfo.rows).count row ≤
      (definitionRowsIn statements).count row :=
  (rowCount_le _ _).trans (rowCount_definedClasses statements)

end Rows

section Placed

variable {text : List Char} {statements : List Statement}

/-- **No row comes twice among those of the classes that a source defines and of their methods.** -/
theorem nodup_rows_definedClasses (placed : Placed text statements) :
    ((definedClasses statements).flatMap ClassInfo.rows).Nodup := by
  rw [List.nodup_iff_count_le_one]
  intro row
  have once := List.nodup_iff_count_le_one.mp (placed.sorted.imp Nat.ne_of_lt) row
  exact (count_rows_le statements).trans once

theorem isRow_of_mem_rows (placed : Placed text statements) {info : ClassInfo}
    (listed : info ∈ definedClasses statements) {row : Nat} (begins : row ∈ info.rows) :
    IsRow text row := by
  have present := List.mem_flatMap.mpr ⟨info, listed, begins⟩
  refine placed.isRow row (List.count_pos_iff.mp ?_)
  exact (List.count_pos_iff.mpr present).trans_le (count_rows_le statements)

end Placed

end StrategyMend.Strategy
