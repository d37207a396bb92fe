import StrategyMend.Detection.Validator
import StrategyMend.Proofs.Python.Enclosure

/-!
# Which names are reported as undefined

A name that is read is looked up for what owns it, by the definitions around it, and for the module.
Those for which neither binds it are reported, each once for each row, in the order of the first reads
(`scopes_follow_owners`).

The parameters of a function belong to the function, their default values included. So a default value
does not see the names of the class that the function is a method of, although that is where it is
evaluated: a read in it resolves exactly if the function or the module binds the name
(`resolves_default_iff`), and a method with an attribute of its class as a default value is reported
(`classAttributeAsDefault_reported`).
-/

set_option autoImplicit false

namespace StrategyMend.Detection

open Python Source

/-! ## The reported reads -/

/-- Whether a name is never reported. -/
def isExcused (allowed : List String) (name : String) : Bool :=
  name.toList.head? = some '_' || isAlwaysDefined name || allowed.contains name

/-- The name and the row of a read that does not resolve and is not excused. -/
def undefinedAt? (allowed : List String) (occurrences : List Occurrence) (occurrence : Occurrence) :
    Option (String × Nat) :=
  match occurrence.use with
  | .read name row =>
    if isExcused allowed name = true ∨ ResolvesFor occurrences name (owner occurrence.within) then none
    else some (name, row)
  | _ => none

theorem notMem_of_mem_firstReads {seen : List (String × Nat)} {reads : List NameRead} {read : NameRead}
    (member : read ∈ firstReads seen reads) : (read.name, read.row) ∉ seen := by
  induction reads generalizing seen with
  | nil => cases member
  | cons first rest ih =>
    rw [firstReads] at member
    split at member
    · exact ih member
    · rename_i new
      rcases List.mem_cons.mp member with rfl | later
      · simpa using new
      · exact fun before => ih later (List.mem_cons_of_mem _ before)

theorem firstReads_sublist (seen : List (String × Nat)) (reads : List NameRead) :
    (firstReads seen reads).Sublist reads := by
  induction reads generalizing seen with
  | nil => exact .slnil
  | cons first rest ih =>
    rw [firstReads]
    split
    · exact (ih _).cons first
    · exact (ih _).cons_cons first

/-- Each name comes once for each row. -/
theorem firstReads_pairwise (seen : List (String × Nat)) (reads : List NameRead) :
    (firstReads seen reads).Pairwise fun read later =>
      (read.name, read.row) ≠ (later.name, later.row) := by
  induction reads generalizing seen with
  | nil => exact .nil
  | cons first rest ih =>
    rw [firstReads]
    split
    · exact ih _
    · refine List.pairwise_cons.mpr ⟨fun later member same => ?_, ih _⟩
      exact notMem_of_mem_firstReads member (same ▸ List.mem_cons_self)

/-- What tells reads apart for a report. -/
def readKey (read : NameRead) : String × Nat := (read.name, read.row)

/-- The first reads are the reads without repetitions. -/
theorem map_readKey_firstReads (seen : List (String × Nat)) (reads : List NameRead) :
    (firstReads seen reads).map readKey =
      ((reads.map readKey).filter fun key => !seen.contains key).eraseDups := by
  induction reads generalizing seen with
  | nil => rfl
  | cons read rest ih =>
    rw [firstReads, List.map_cons]
    split
    · next old =>
      rw [ih, List.filter_cons_of_neg (by simpa [readKey] using old)]
    · next new =>
      rw [List.map_cons, ih, List.filter_cons_of_pos (by simpa [readKey] using new),
        List.eraseDups_cons, List.filter_filter]
      congr 3
      funext key
      rw [List.contains_cons, Bool.not_or]
      rfl

section Report

variable {context : Context} {tree : Module} {name source : String}

theorem parse_of_toOption (parsed : (Source.parse source).toOption = some tree) :
    Source.parse source = .ok tree := by
  cases read : Source.parse source with
  | error bad =>
    rw [read] at parsed
    cases parsed
  | ok found =>
    rw [read] at parsed
    cases parsed
    rfl

theorem tree?_of_parse (parsed : Source.parse source = .ok tree) :
    (Script.ofText name source).tree? = some tree := by
  rw [Script.tree?, Script.ofText, parsed]
  rfl

theorem isUndefined_scopeOf {occurrence : Occurrence} (allowed : List String) (name : String)
    (row : Nat) (member : occurrence ∈ occurrencesOf tree.statements) :
    isUndefined allowed (walkModule tree.statements)
        ⟨name, row, scopeOf tree.statements (owner occurrence.within)⟩ = true ↔
      ¬(isExcused allowed name = true ∨
        ResolvesFor (occurrencesOf tree.statements) name (owner occurrence.within)) := by
  rw [← resolves_scopeOf (owner_mem_scopeOwners member)]
  simp [isUndefined, isExcused]

/-- The undefined reads are the occurrences that do not resolve. -/
theorem map_readKey_undefined (allowed : List String) (tree : Module) :
    ((walkModule tree.statements).reads.filter
        (isUndefined allowed (walkModule tree.statements))).map readKey =
      (occurrencesOf tree.statements).filterMap
        (undefinedAt? allowed (occurrencesOf tree.statements)) := by
  rw [reads_walkModule, List.filter_filterMap, List.map_filterMap]
  refine List.filterMap_congr fun occurrence member => ?_
  obtain ⟨use, within⟩ := occurrence
  cases use with
  | read name row =>
    have undefined := isUndefined_scopeOf allowed name row member
    by_cases known : isExcused allowed name = true ∨
        ResolvesFor (occurrencesOf tree.statements) name (owner within)
    · have kept := mt undefined.mp (not_not_intro known)
      simp [Occurrence.read?, undefinedAt?, known, kept]
    · simp [Occurrence.read?, undefinedAt?, known, undefined.mpr known, readKey]
  | _ => rfl

theorem wildcard_eq_false
    (named : ∀ occurrence ∈ occurrencesOf tree.statements, occurrence.use ≠ .importAll) :
    (walkModule tree.statements).wildcard = false := by
  rw [(walkModule_eq_collect tree.statements).1, wildcard_collect, List.any_eq_false]
  simpa using named

/-- Each undefined name is reported once for each row. -/
theorem detect_variableReference (parsed : context.script.tree? = some tree)
    (named : ∀ occurrence ∈ occurrencesOf tree.statements, occurrence.use ≠ .importAll) :
    variableReference.detect context = some ((firstReads [] ((walkModule tree.statements).reads.filter
      (isUndefined context.config.allowedNames (walkModule tree.statements)))).map
        (undefinedIssue context)) := by
  simp only [variableReference, parsed, undefinedReads, wildcard_eq_false named]
  rfl

end Report

/-- **Names belong to the definitions around them, and those are reported that neither their owner nor
the module binds.** Different owners have different scopes. A name that is read is recorded in the scope
of its owner, the outermost function whose parameters or body enclose it, else the innermost class whose
body does, else the module. A scope binds the names that are bound by constructs of its owner, the
module's also those that are declared anywhere. Unless a module is imported whole, what is reported are
the reads that do not resolve and are not excused, one for each name and row, in their order. -/
theorem scopes_follow_owners (tree : Module) :
    let occurrences := occurrencesOf tree.statements
    let owners := scopeOwners tree.statements
    let scope := scopeOf tree.statements
    let walk := walkModule tree.statements
    (∀ first ∈ owners, ∀ second ∈ owners, scope first = scope second → first = second) ∧
      (∀ occurrence ∈ occurrences, owner occurrence.within ∈ owners) ∧
      walk.reads = occurrences.filterMap (Occurrence.read? scope) ∧
      (∀ read ∈ walk.reads, read.scope < 1 + opened tree.statements) ∧
      (∀ owned ∈ owners, ∀ name, walk.binds name (scope owned) = true ↔
        ∃ occurrence ∈ occurrences, occurrence.Binds name owned) ∧
      ∀ context : Context, context.script.tree? = some tree →
        (∀ occurrence ∈ occurrences, occurrence.use ≠ .importAll) →
          ∃ reported : List NameRead,
            variableReference.detect context = some (reported.map (undefinedIssue context)) ∧
              reported.Sublist walk.reads ∧
                reported.map readKey = (occurrences.filterMap
                  (undefinedAt? context.config.allowedNames occurrences)).eraseDups := by
  intro occurrences owners scope walk
  have reads : walk.reads = occurrences.filterMap (Occurrence.read? scope) :=
    reads_walkModule tree.statements
  refine ⟨fun first member second _ => (scopeOf_inj member).mp, fun _ => owner_mem_scopeOwners, reads,
    fun read member => ?valid, fun _ member _ => binds_scopeOf member,
    fun context parsed named => ⟨_, detect_variableReference parsed named, ?order, ?keys⟩⟩
  case valid =>
    rw [reads] at member
    obtain ⟨⟨use, within⟩, occurs, found⟩ := List.mem_filterMap.mp member
    cases use <;> cases found
    rw [(walkModule_eq_collect tree.statements).2]
    exact List.idxOf_lt_length_iff.mpr (owner_mem_scopeOwners occurs)
  case order => exact (firstReads_sublist _ _).trans List.filter_sublist
  case keys => rw [map_readKey_firstReads, map_readKey_undefined, List.filter_eq_self.mpr (by simp)]

/-- Classes and functions in each other, and a declaration. -/
def nestedDefinitions : String := "class S(Strategy):
    limit = 3
    class P:
        size = limit
    def next(self) -> limit:
        global x
        def inner(y):
            return x + y + limit
        x = z
"

/-- The class in the class does not see `limit`, nor do the functions; the inner function sees `x`, and
the return annotation `limit`. -/
theorem scopes_follow_owners_nestedDefinitions :
    ∃ tree, Source.parse nestedDefinitions = .ok tree ∧
      scopeOwners tree.statements =
        [.module, .definition [0], .definition [1, 0], .definition [2, 0]] ∧
      (∀ occurrence ∈ occurrencesOf tree.statements, occurrence.use ≠ .importAll) ∧
      (walkModule tree.statements).reads =
        (occurrencesOf tree.statements).filterMap (Occurrence.read? (scopeOf tree.statements)) ∧
      ∃ reported : List NameRead,
        variableReference.detect ⟨.ofText "s.py" nestedDefinitions, .standard⟩ =
            some (reported.map (undefinedIssue ⟨.ofText "s.py" nestedDefinitions, .standard⟩)) ∧
          reported.map readKey =
            [("Strategy", 0), ("limit", 3), ("limit", 7), ("z", 8)] := by
  have shown : (Source.parse nestedDefinitions).toOption.any (fun tree : Module => decide
      (scopeOwners tree.statements =
          [.module, .definition [0], .definition [1, 0], .definition [2, 0]] ∧
        (∀ occurrence ∈ occurrencesOf tree.statements, occurrence.use ≠ .importAll) ∧
        ((occurrencesOf tree.statements).filterMap
          (undefinedAt? Config.Validator.standard.allowedNames (occurrencesOf tree.statements))).eraseDups =
            [("Strategy", 0), ("limit", 3), ("limit", 7), ("z", 8)])) = true := by
    decide +kernel
  obtain ⟨tree, parsed, shown⟩ := (Option.any_eq_true _ _).mp shown
  obtain ⟨owners, named, keys⟩ := of_decide_eq_true shown
  have parsed : Source.parse nestedDefinitions = .ok tree := parse_of_toOption parsed
  obtain ⟨-, -, reads, -, -, reports⟩ := scopes_follow_owners tree
  obtain ⟨reported, detected, -, found⟩ :=
    reports ⟨.ofText "s.py" nestedDefinitions, .standard⟩ (tree?_of_parse parsed) named
  exact ⟨tree, parsed, owners, named, reads, reported, detected, found.trans keys⟩

/-! ## Default values -/

/-- A function that stands in the body of a class, which no function encloses. -/
def IsMethodOf (place : TreePath) (site : Site) : Prop :=
  ∃ outer, outer.any Enclosure.isFunction = false ∧ site.within = outer ++ [.classBody place]

/-- A name that is read in the annotation or the default value of a parameter. -/
def IsReadBeside (parameters : List Expression) (name : String) (row : Nat) : Prop :=
  ∃ target parts part, .binding target parts ∈ parameters ∧ part ∈ parts ∧
    .name name row ∈ part.subterms

section Defaults

variable {site : Site} {parameters : List Expression} {name : String} {row : Nat}

theorem mem_subtermsIn {parts : List Expression} {part subterm : Expression} (member : part ∈ parts)
    (inside : subterm ∈ part.subterms) : subterm ∈ subtermsIn parts := by
  induction parts with
  | nil => cases member
  | cons first rest ih =>
    rw [subtermsIn, List.mem_append]
    rcases List.mem_cons.mp member with rfl | later
    · exact .inl inside
    · exact .inr (ih later)

/-- What is read beside a parameter is a use of names in the parameters. -/
theorem IsReadBeside.mem_usesIn (read : IsReadBeside parameters name row) :
    .read name row ∈ usesIn parameters := by
  obtain ⟨target, parts, part, parameter, value, inside⟩ := read
  have within : .name name row ∈ (Expression.binding target parts).subterms := by
    rw [Expression.subterms]
    exact List.mem_cons_of_mem _ (List.mem_append_right _ (mem_subtermsIn value inside))
  exact List.mem_flatMap.mpr ⟨_, mem_subtermsIn parameter within, List.mem_singleton_self _⟩

theorem owner_of_isMethodOf {place : TreePath} (method : IsMethodOf place site) :
    owner (site.within ++ [.function site.place]) = .definition site.place := by
  obtain ⟨outer, outside, within⟩ := method
  refine owner_of_not_encloses ?_ (.function site.place)
  rw [within, List.any_append, outside]
  rfl

/-- An issue tells the name and the row of the read. -/
theorem undefinedIssue_congr {read other : NameRead} (context : Context)
    (same : readKey read = readKey other) :
    undefinedIssue context read = undefinedIssue context other := by
  obtain ⟨names, rows⟩ := Prod.mk.inj same
  rw [undefinedIssue, undefinedIssue, names, rows]

/-- An undefined read is reported, if only for an earlier one of the same name on its row. -/
theorem undefinedIssue_mem_detect {context : Context} {tree : Module} {read : NameRead}
    (parsed : context.script.tree? = some tree)
    (named : ∀ occurrence ∈ occurrencesOf tree.statements, occurrence.use ≠ .importAll)
    (member : read ∈ (walkModule tree.statements).reads)
    (undefined : isUndefined context.config.allowedNames (walkModule tree.statements) read = true) :
    undefinedIssue context read ∈ (variableReference.detect context).getD [] := by
  have listed : readKey read ∈ (firstReads [] ((walkModule tree.statements).reads.filter
      (isUndefined context.config.allowedNames (walkModule tree.statements)))).map readKey := by
    rw [map_readKey_firstReads, List.filter_eq_self.mpr (by simp), List.mem_eraseDups]
    exact List.mem_map_of_mem (List.mem_filter.mpr ⟨member, undefined⟩)
  obtain ⟨first, reported, same⟩ := List.mem_map.mp listed
  rw [detect_variableReference parsed named, Option.getD_some, ← undefinedIssue_congr context same]
  exact List.mem_map_of_mem reported

end Defaults

/-- **A default value of a method sees what the method sees, and nothing of its class.** A name that is
read in the default value of a parameter, or in its annotation, is recorded in the scope of the method.
So it resolves if and only if the method or the module binds it; then it is not reported, and otherwise
it is. -/
theorem resolves_default_iff {tree : Module} {site : Site} {place : TreePath}
    {line row : Nat} {label name : String} {typeParameters parameters returns : List Expression}
    {body : List Statement} (member : site ∈ sitesIn [] [] 0 tree.statements)
    (method : IsMethodOf place site)
    (definition : site.definition = .function line label typeParameters parameters returns body)
    (beside : IsReadBeside parameters name row) :
    let occurrences := occurrencesOf tree.statements
    let walk := walkModule tree.statements
    let read : NameRead := ⟨name, row, scopeOf tree.statements (.definition site.place)⟩
    read ∈ walk.reads ∧
      (walk.resolves name read.scope = true ↔ ∃ occurrence ∈ occurrences,
        occurrence.Binds name (.definition site.place) ∨ occurrence.Binds name .module) ∧
      ∀ context : Context, context.script.tree? = some tree →
        (∀ occurrence ∈ occurrences, occurrence.use ≠ .importAll) →
          isExcused context.config.allowedNames name = false →
            if walk.resolves name read.scope then
              read ∉ undefinedReads context.config.allowedNames walk
            else undefinedIssue context read ∈ (variableReference.detect context).getD [] := by
  intro occurrences walk read
  have occurs : ⟨.read name row, site.within ++ [.function site.place]⟩ ∈ occurrences := by
    refine occurrencesIn_subset [] [] 0 tree.statements member ?_
    rw [definition, Statement.occurrences]
    refine List.mem_cons_of_mem _ (List.mem_append_left _ ?_)
    exact List.mem_map_of_mem beside.mem_usesIn
  have belongs := owner_of_isMethodOf method
  have owned := owner_mem_scopeOwners occurs
  rw [belongs] at owned
  have recorded : read ∈ walk.reads := by
    refine reads_walkModule tree.statements ▸ List.mem_filterMap.mpr ⟨_, occurs, ?_⟩
    rw [Occurrence.read?, belongs]
  refine ⟨recorded, resolves_scopeOf owned, fun context parsed named reportable => ?_⟩
  have undefined : isUndefined context.config.allowedNames walk read =
      !walk.resolves name read.scope := by
    rw [isUndefined, Bool.not_or, ← isExcused, reportable, Bool.not_false, Bool.true_and]
  split
  case isTrue resolved =>
    rw [undefinedReads, wildcard_eq_false named]
    intro listed
    have kept := (List.mem_filter.mp ((firstReads_sublist _ _).subset listed)).2
    rw [undefined, resolved] at kept
    cases kept
  case isFalse unresolved =>
    refine undefinedIssue_mem_detect parsed named recorded ?_
    rw [undefined, eq_false_of_ne_true unresolved, Bool.not_false]

/-- Of `@hook def next(self, n: int = max(limit))`, in a class after `limit = 3`. -/
def decoratedHook : Statement :=
  .decorated 2 [.name "hook" 2] (.function 3 "next" [] [.binding (.name "self" 3) [],
    .binding (.name "n" 3) [.name "int" 3, .call (.name "max" 3) [.name "limit" 3]]] []
      [.simple 4 [.name "n" 4]])

/-- The module binds `limit` before the class, so the default value resolves. -/
theorem resolves_default_iff_decoratedHook :
    let tree : Module := ⟨[.assignment 0 [⟨.name "limit" 0, none⟩] [],
      .classDef 1 "S" [] [] [decoratedHook]]⟩
    let walk := walkModule tree.statements
    let read : NameRead := ⟨"limit", 3, scopeOf tree.statements (.definition [0, 1])⟩
    read ∈ walk.reads ∧ walk.resolves "limit" read.scope = true ∧
      read ∉ undefinedReads Config.Validator.standard.allowedNames walk := by
  intro tree walk read
  have beside : IsReadBeside [.binding (.name "self" 3) [], .binding (.name "n" 3) [.name "int" 3,
      .call (.name "max" 3) [.name "limit" 3]]] "limit" 3 :=
    ⟨.name "n" 3, _, .call (.name "max" 3) [.name "limit" 3], .tail _ (.head _), .tail _ (.head _),
      .tail _ (.tail _ (.head _))⟩
  have inside : ⟨[0, 1], [.classBody [1]], _⟩ ∈ sitesIn [] [] 0 tree.statements := .tail _ (.head _)
  obtain ⟨recorded, resolved, reports⟩ := resolves_default_iff inside ⟨[], rfl, rfl⟩ rfl beside
  have binds := resolved.mpr (by decide)
  refine ⟨recorded, binds, ?_⟩
  have unreported := reports ⟨⟨"s.py", "", .ok tree⟩, .standard⟩ rfl (by decide) (by decide)
  rwa [if_pos binds] at unreported

/-- A method with an attribute of its class as a default value. -/
def attributeDefault : String := "class S:
    limit = 3

    def next(self, n=limit):
        return n
"

/-- The class binds `limit`, and the default value is evaluated there. -/
theorem classAttributeAsDefault_reported :
    ((Script.ofText "s.py" attributeDefault).tree?.any fun tree : Module =>
      (walkModule tree.statements).binds "limit" (scopeOf tree.statements (.definition [0]))) = true ∧
      ((Validator.standard .standard).validate (.ofText "s.py" attributeDefault)).map
        (fun issue => (issue.category, issue.line, issue.message)) =
          [(.undefinedVariable, 4, quoted "limit" ++ " is not defined in this scope")] := by
  decide +kernel

end StrategyMend.Detection
