import StrategyMend.Detection.StrategyShape
import StrategyMend.Proofs.Strategy.Ancestors
import StrategyMend.Proofs.Strategy.Inheritance

/-!
# Calls of inherited initializers

Only one class at a time is judged by the detector of missing initial values: its initializer sets the
pending-order field, or it calls the one of the superclass and some ancestor's sets the field. When the
method is called, the call goes to the nearest ancestor with an initializer, which need not be the one
that sets the field, and may not go on.

If classes have at most one base and names of their own, the classes above a strategy are a line that
ends with a configured base (`ClassIndex.Lineage`), and they are its ancestors
(`Lineage.ancestors_eq`). All of them are strategies, so the detector judges the initializers on the
line as well. If it reports none, the calls go on along the line to one that sets the field
(`leadsToField_of_silent`).
-/

set_option autoImplicit false

namespace StrategyMend

open Python

/-! ## Lines of classes -/

namespace Strategy.ClassIndex

/-- The classes from the one with a name on upwards, each with the name of the next as its only base.
The last base is not the name of a class. -/
inductive Lineage (index : ClassIndex) : String → List ClassInfo → Prop where
  | root {name : String} (unlisted : index.first? name = none) : Lineage index name []
  | derived {name base : String} {number : Fin index.classes.length} {line : List ClassInfo}
      (first : index.first? name = some number) (bases : (index.classes.get number).bases = [base])
      (above : Lineage index base line) : Lineage index name (index.classes.get number :: line)

/-- The nearest ancestor of a class that has a method. -/
def nearestOwner? (index : ClassIndex) (info : ClassInfo) (method : String) : Option ClassInfo :=
  (index.ancestors info).find? fun ancestor => (ancestor.ownMethod? method).isSome

section Lines

variable {index : ClassIndex} {name : String} {line : List ClassInfo} {info : ClassInfo}

theorem Lineage.eq {other : List ClassInfo} (above : index.Lineage name line)
    (above' : index.Lineage name other) : line = other := by
  induction above generalizing other with
  | root unlisted =>
    cases above' with
    | root _ => rfl
    | derived first _ _ => rw [unlisted] at first; cases first
  | derived first bases _ ih =>
    cases above' with
    | root unlisted => rw [unlisted] at first; cases first
    | derived first' bases' above' =>
      obtain rfl := Option.some.inj (first.symm.trans first')
      obtain rfl := List.singleton_inj.mp (bases.symm.trans bases')
      rw [ih above']

/-- The line of a class on a line is the rest of it. -/
theorem Lineage.suffix (above : index.Lineage name line) (member : info ∈ line) :
    ∃ rest, rest <:+ line ∧ index.Lineage info.name rest := by
  induction above with
  | root _ => cases member
  | @derived name base number line first bases above ih =>
    rcases List.mem_cons.mp member with rfl | later
    · refine ⟨_, List.suffix_rfl, ?_⟩
      rw [(first?_eq_some_iff.mp first).1]
      exact .derived first bases above
    · obtain ⟨rest, suffix, lineage⟩ := ih later
      exact ⟨rest, suffix.trans (List.suffix_cons _ line), lineage⟩

/-- A line does not come back to the class below it. -/
theorem Lineage.name_ne {base : String} {number : Fin index.classes.length}
    (first : index.first? name = some number) (bases : (index.classes.get number).bases = [base])
    (above : index.Lineage base line) : ∀ member ∈ line, member.name ≠ name := by
  rintro member here rfl
  obtain ⟨rest, suffix, lineage⟩ := above.suffix here
  have same := lineage.eq (.derived first bases above)
  have shorter := suffix.length_le
  rw [same, List.length_cons] at shorter
  omega

/-- The search goes up a line that it has not met. -/
theorem Lineage.reach_eq (above : index.Lineage name line) {own : String}
    {met : List (Fin index.classes.length)} (other : ∀ member ∈ line, member.name ≠ own)
    (unmet : ∀ number ∈ met, ∀ member ∈ line, member.name ≠ (index.classes.get number).name) :
    index.reach own met [name] = line := by
  induction above generalizing met with
  | root unlisted => simp only [reach, unlisted]
  | @derived name base number line first bases above ih =>
    have new : number ∉ met := fun known => unmet number known _ List.mem_cons_self rfl
    have named := (first?_eq_some_iff.mp first).1
    have rest : index.reach own (number :: met) [base] = line := by
      refine ih (fun member here => other member (List.mem_cons_of_mem _ here)) ?_
      intro known before member here
      rcases List.mem_cons.mp before with rfl | before
      · rw [named]
        exact Lineage.name_ne first bases above member here
      · exact unmet known before member (List.mem_cons_of_mem _ here)
    rw [reach, first]
    simp only [new, other _ List.mem_cons_self, if_false, List.nil_append, bases, rest]

/-- The ancestors of the first class on a line are the ones behind it. -/
theorem Lineage.ancestors_eq {base : String} {number : Fin index.classes.length}
    (first : index.first? name = some number) (bases : (index.classes.get number).bases = [base])
    (above : index.Lineage base line) : index.ancestors (index.classes.get number) = line := by
  rw [ancestors, bases]
  refine above.reach_eq ?_ (List.forall_mem_nil _)
  rw [(first?_eq_some_iff.mp first).1]
  exact Lineage.name_ne first bases above

/-- Each class can be told by its name, inherits from at most one base and is not a configured base. -/
structure IsSingle (index : ClassIndex) : Prop where
  distinct : ∀ info ∈ index.classes, ∀ other ∈ index.classes, info.name = other.name → info = other
  unconfigured : ∀ info ∈ index.classes, info.name ∉ index.roots
  single : ∀ info ∈ index.classes, info.bases.length ≤ 1

theorem IsSingle.first?_eq_none (unique : index.IsSingle) (configured : name ∈ index.roots) :
    index.first? name = none := by
  refine List.findFinIdx?_eq_none_iff.mpr fun info listed => ?_
  have other : info.name ≠ name := fun same => unique.unconfigured info listed (same ▸ configured)
  simpa using other

theorem IsSingle.exists_first? (unique : index.IsSingle) (listed : info ∈ index.classes) :
    ∃ number, index.first? info.name = some number ∧ index.classes.get number = info := by
  cases first : index.first? info.name with
  | none =>
    have missing := List.findFinIdx?_eq_none_iff.mp first info listed
    simp at missing
  | some number =>
    exact ⟨number, rfl, unique.distinct _ (List.getElem_mem _) _ listed
      (first?_eq_some_iff.mp first).1⟩

/-- Above a name of a strategy there is a line of strategies. -/
theorem IsSingle.exists_lineage (unique : index.IsSingle) (strategy : index.NamesStrategy name) :
    ∃ line, index.Lineage name line ∧ ∀ member ∈ line, member ∈ index.strategies := by
  induction strategy with
  | root configured => exact ⟨[], .root (unique.first?_eq_none configured), nofun⟩
  | @derived info base listed inherits strategy ih =>
    obtain ⟨line, above, strategies⟩ := ih
    obtain ⟨number, first, rfl⟩ := unique.exists_first? listed
    have bases : (index.classes.get number).bases = [base] := by
      obtain ⟨only, same⟩ := List.length_eq_one_iff.mp
        (Nat.le_antisymm (unique.single _ listed) (List.length_pos_of_mem inherits))
      rw [same] at inherits
      rw [same, List.mem_singleton.mp inherits]
    refine ⟨_, .derived first bases above, List.forall_mem_cons.mpr ⟨?_, strategies⟩⟩
    rw [strategies_eq_filter]
    exact List.mem_filter.mpr ⟨listed, inherits_iff.mpr ⟨base, inherits, strategy⟩⟩

end Lines

end Strategy.ClassIndex

/-! ## Calls along a line -/

namespace Detection

open Source Strategy

/-- The initializer of a class sets the field, or it calls the one of the superclass and that of the
nearest ancestor with an initializer leads to one that sets the field. -/
inductive LeadsToField (config : Config.Validator) (index : ClassIndex) : ClassInfo → Prop where
  | assigns {info : ClassInfo} {method : FunctionInfo}
      (own : info.ownMethod? config.initializer = some method)
      (assigned : assignedIn config.pendingOrderField method.body = true) :
      LeadsToField config index info
  | calls {info nearest : ClassInfo} {method : FunctionInfo}
      (own : info.ownMethod? config.initializer = some method)
      (called : superCalledInStatements config.initializer method.body = true)
      (owner : index.nearestOwner? info config.initializer = some nearest)
      (leads : LeadsToField config index nearest) : LeadsToField config index info

section Silence

variable {context : Context} {index : ClassIndex} {info : ClassInfo} {method : FunctionInfo}

/-- What the detector accepts in a strategy class with an initializer of its own. -/
theorem accepts_of_silent (built : classIndex? context = some index)
    (silent : fieldInit.detect context = some []) (strategy : info ∈ index.strategies)
    (own : info.ownMethod? context.config.initializer = some method) :
    assignedIn context.config.pendingOrderField method.body = true ∨
      superCalledInStatements context.config.initializer method.body = true ∧
        ∃ ancestor ∈ index.ancestors info, setsField context.config ancestor = true := by
  simp only [fieldInit, strategyIssues, built, Option.some.injEq, List.flatMap_eq_nil_iff] at silent
  have quiet := silent info strategy
  rw [own] at quiet
  dsimp only at quiet
  split at quiet
  · exact .inl ‹_›
  · split at quiet
    · rename_i inherits
      rw [inheritsField, Bool.and_eq_true, List.any_eq_true] at inherits
      exact .inr inherits
    · cases quiet

/-- On a line of strategies about which nothing is reported, each initializer leads to one that sets
the field. -/
theorem leadsToField_of_lineage (built : classIndex? context = some index)
    (silent : fieldInit.detect context = some []) {name : String} {line : List ClassInfo}
    (lineage : index.Lineage name line) (strategies : ∀ member ∈ line, member ∈ index.strategies) :
    ∀ member ∈ line, (member.ownMethod? context.config.initializer).isSome = true →
      LeadsToField context.config index member := by
  induction lineage with
  | root _ => exact nofun
  | @derived name base number line first bases above ih =>
    obtain ⟨strategy, strategies⟩ := List.forall_mem_cons.mp strategies
    refine List.forall_mem_cons.mpr ⟨fun has => ?_, ih strategies⟩
    obtain ⟨method, own⟩ := Option.isSome_iff_exists.mp has
    rcases accepts_of_silent built silent strategy own with assigned | ⟨called, ancestor, member, sets⟩
    · exact .assigns own assigned
    · rw [ClassIndex.Lineage.ancestors_eq first bases above] at member
      let owns (info : ClassInfo) : Bool := (info.ownMethod? context.config.initializer).isSome
      have someOwner : owns ancestor = true := by
        obtain ⟨_, here, -⟩ := (Option.any_eq_true _ _).mp sets
        exact Option.isSome_iff_exists.mpr ⟨_, here⟩
      obtain ⟨nearest, found⟩ :=
        Option.isSome_iff_exists.mp (List.find?_isSome.mpr ⟨ancestor, member, someOwner⟩)
      have owned : owns nearest = true := List.find?_some found
      refine .calls own called ?_ (ih strategies nearest (List.mem_of_find?_eq_some found) owned)
      rw [ClassIndex.nearestOwner?, ClassIndex.Lineage.ancestors_eq first bases above]
      exact found

/-- **Where nothing is reported, initializers lead to one that sets the field.** This holds for each
strategy class that has one, if classes inherit from one class at a time and can be told by their
names. -/
theorem leadsToField_of_silent (built : classIndex? context = some index) (unique : index.IsSingle)
    (silent : fieldInit.detect context = some []) (strategy : info ∈ index.strategies)
    (own : info.ownMethod? context.config.initializer = some method) :
    LeadsToField context.config index info := by
  have listed := ClassIndex.mem_classes_of_mem_strategies strategy
  have heir : index.inherits info = true := by
    rw [ClassIndex.strategies_eq_filter] at strategy
    exact (List.mem_filter.mp strategy).2
  obtain ⟨base, inherits, named⟩ := ClassIndex.inherits_iff.mp heir
  obtain ⟨line, lineage, strategies⟩ := unique.exists_lineage (.derived listed inherits named)
  obtain ⟨number, first, rfl⟩ := unique.exists_first? listed
  cases lineage with
  | root unlisted =>
    rw [unlisted] at first
    cases first
  | derived first' bases above =>
    obtain rfl := Option.some.inj (first.symm.trans first')
    exact leadsToField_of_lineage built silent (.derived first bases above) strategies _
      List.mem_cons_self (Option.isSome_iff_exists.mpr ⟨method, own⟩)

end Silence

/-- A class that sets the field, one without an initializer, and one whose initializer calls that of the
superclass. -/
def calledInTurn : Script := .ofText "calls.py"
  "class Core(Strategy):
  def __init__(self): self.order = 0
class Plain(Core): pass
class Fast(Plain):
  def __init__(self): super().__init__()
"

theorem leadsToField_of_silent_calledInTurn :
    let context : Context := ⟨calledInTurn, .standard⟩
    ∃ index info, classIndex? context = some index ∧ index.IsSingle ∧
      fieldInit.detect context = some [] ∧ info ∈ index.strategies ∧ info.name = "Fast" ∧
        LeadsToField context.config index info := by
  intro context
  have facts : fieldInit.detect context = some [] ∧ (classIndex? context).any fun index =>
      index.classes.map ClassInfo.name == ["Core", "Plain", "Fast"] &&
        index.classes.all (fun info => !index.roots.contains info.name && info.bases.length ≤ 1) &&
          index.strategies.any fun info =>
            info.name == "Fast" && (info.ownMethod? context.config.initializer).isSome := by
    decide +kernel
  obtain ⟨silent, shown⟩ := facts
  obtain ⟨index, built, shown⟩ := (Option.any_eq_true _ _).mp shown
  obtain ⟨shown, last⟩ := Bool.and_eq_true_iff.mp shown
  obtain ⟨listed, bases⟩ := Bool.and_eq_true_iff.mp shown
  have unique : index.IsSingle := by
    refine ⟨fun info here other there => ?_, fun info here => ?_, fun info here => ?_⟩
    · exact List.inj_on_of_nodup_map (eq_of_beq listed ▸ by decide) here there
    · simpa using (Bool.and_eq_true_iff.mp (List.all_eq_true.mp bases info here)).1
    · simpa using (Bool.and_eq_true_iff.mp (List.all_eq_true.mp bases info here)).2
  obtain ⟨info, strategy, own⟩ := List.any_eq_true.mp last
  obtain ⟨named, own⟩ := Bool.and_eq_true_iff.mp own
  obtain ⟨method, own⟩ := Option.isSome_iff_exists.mp own
  exact ⟨index, info, built, unique, silent, strategy, eq_of_beq named,
    leadsToField_of_silent built unique silent strategy own⟩

end Detection

end StrategyMend
