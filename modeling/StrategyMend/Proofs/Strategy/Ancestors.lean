import Mathlib.Data.List.Induction
import Mathlib.Data.List.Lex
import Mathlib.Data.List.Nodup
import Mathlib.Data.Prod.Lex
import Mathlib.Order.Bounds.Basic
import StrategyMend.Strategy.Inheritance

/-!
# Ancestors, nearest first

A class leads to others along its bases. A path tells for each class on it which of the bases it
follows (`ClassIndex.follow?`); it never enters a class with the name of the class that it begins at.
A breadth-first traversal from left to right goes along all paths, the shorter ones first, and paths of
one length in the order of the bases where they part (`rank`).

The ancestors are the classes to which there is a path, in the order of their first paths
(`ancestors_breadthFirst`), so nearer classes come first. The search keeps a queue of bases with their
paths in that order (`Queued`). What is listed from a state of the search on settles every base that is
in the queue or joins it (`Listed`): its class was met before or is listed on an earlier path. So no
path comes before the one on which a class is listed.
-/

set_option autoImplicit false

namespace StrategyMend.Strategy.ClassIndex

/-! ## Paths -/

/-- The class that a base stands for, seen from a class with the name `own`: the first one with the
base's name, unless that is `own`. -/
def parent? (index : ClassIndex) (own base : String) : Option ClassInfo :=
  if base = own then none else index.classes.find? fun info => info.name == base

/-- The class that a path leads to. A path tells the places of the bases that it follows. -/
def follow? (index : ClassIndex) (own : String) (info : ClassInfo) : List Nat → Option ClassInfo
  | [] => some info
  | place :: path =>
    (info.bases[place]?.bind (index.parent? own)).bind fun parent => index.follow? own parent path

/-- A path from a class to one of its ancestors. -/
structure IsPath (index : ClassIndex) (start : ClassInfo) (path : List Nat) (ancestor : ClassInfo) :
    Prop where
  ne_nil : path ≠ []
  follow : index.follow? start.name start path = some ancestor

/-- The place of a path in a breadth-first traversal from left to right: by the length, then by the
places in order. -/
def rank (path : List Nat) : ℕ ×ₗ List ℕ := toLex (path.length, path)

/-- The path on which a breadth-first traversal from left to right first comes to an ancestor. -/
structure IsFirstPath (index : ClassIndex) (start : ClassInfo) (path : List Nat)
    (ancestor : ClassInfo) : Prop where
  isPath : index.IsPath start path ancestor
  le : ∀ other, index.IsPath start other ancestor → rank path ≤ rank other

/-- The least number of steps from a class to one of its ancestors. -/
def IsDistance (index : ClassIndex) (start ancestor : ClassInfo) (distance : Nat) : Prop :=
  IsLeast {length | ∃ path, index.IsPath start path ancestor ∧ path.length = length} distance

/-- A breadth-first traversal from left to right comes to one ancestor before the other. -/
def ComesBefore (index : ClassIndex) (start ancestor other : ClassInfo) : Prop :=
  ∃ path path', index.IsFirstPath start path ancestor ∧ index.IsFirstPath start path' other ∧
    rank path < rank path'

section Rank

variable {path other : List Nat}

theorem rank_lt_iff :
    rank path < rank other ↔
      path.length < other.length ∨ path.length = other.length ∧ path < other :=
  Prod.Lex.toLex_lt_toLex

theorem length_le_of_rank_le (le : rank path ≤ rank other) : path.length ≤ other.length := by
  rcases Prod.Lex.toLex_le_toLex.mp le with shorter | ⟨same, -⟩
  · exact Nat.le_of_lt shorter
  · exact Nat.le_of_eq same

/-- A path comes before those that go on from it. -/
theorem rank_lt_append (path : List Nat) (place : Nat) : rank path < rank (path ++ [place]) :=
  rank_lt_iff.mpr (.inl (by simp))

theorem rank_append_lt {place place' : Nat} (left : place < place') :
    rank (path ++ [place]) < rank (path ++ [place']) := by
  refine rank_lt_iff.mpr (.inr ⟨by simp, ?_⟩)
  induction path with
  | nil => exact List.cons_lt_cons_iff.mpr (.inl left)
  | cons first rest ih => exact List.cons_lt_cons_iff.mpr (.inr ⟨rfl, ih⟩)

/-- Paths that go on from others come in the order of these. -/
theorem rank_append_lt_append (before : rank path < rank other) (place place' : Nat) :
    rank (path ++ [place]) < rank (other ++ [place']) := by
  rcases rank_lt_iff.mp before with shorter | ⟨same, left⟩
  · exact rank_lt_iff.mpr (.inl (by simpa using shorter))
  · refine rank_lt_iff.mpr (.inr ⟨by simpa using same, ?_⟩)
    induction path generalizing other with
    | nil =>
      cases other with
      | nil => exact absurd left (List.lt_irrefl _)
      | cons _ _ => cases same
    | cons first rest ih =>
      cases other with
      | nil => cases same
      | cons first' rest' =>
        rcases List.cons_lt_cons_iff.mp left with less | ⟨rfl, less⟩
        · exact List.cons_lt_cons_iff.mpr (.inl less)
        · have same : rest.length = rest'.length := Nat.succ.inj same
          exact List.cons_lt_cons_iff.mpr
            (.inr ⟨rfl, ih (rank_lt_iff.mpr (.inr ⟨same, less⟩)) same less⟩)

theorem rank_append_le_append (before : rank path ≤ rank other) (place : Nat) :
    rank (path ++ [place]) ≤ rank (other ++ [place]) := by
  rcases before.lt_or_eq with less | same
  · exact (rank_append_lt_append less place place).le
  · have same : path = other := congrArg (fun place => (ofLex place).2) same
    rw [same]

end Rank

section Search

variable {index : ClassIndex} {start info ancestor : ClassInfo} {own base : String}
  {path : List Nat} {number : Fin index.classes.length}

theorem first?_eq_some_iff :
    index.first? base = some number ↔
      (index.classes.get number).name = base ∧
        ∀ earlier : Fin index.classes.length, earlier < number →
          (index.classes.get earlier).name ≠ base := by
  simp [first?, List.findFinIdx?_eq_some_iff]

theorem find?_of_first? (first : index.first? base = some number) :
    (index.classes.find? fun info => info.name == base) = some (index.classes.get number) := by
  obtain ⟨named, earlier⟩ := first?_eq_some_iff.mp first
  refine List.find?_eq_some_iff_getElem.mpr ⟨by simpa using named, number, number.isLt, rfl, ?_⟩
  intro before less
  simpa using earlier ⟨before, by omega⟩ less

/-- The parent that a base stands for is the first class with the base's name. -/
theorem parent?_eq_some_iff :
    index.parent? own base = some ancestor ↔
      base ≠ own ∧ ∃ number, index.first? base = some number ∧ index.classes.get number = ancestor := by
  unfold parent?
  by_cases same : base = own
  · simp [same]
  · cases first : index.first? base with
    | none =>
      have nothing : (index.classes.find? fun info => info.name == base) = none :=
        List.find?_eq_none.mpr (List.findFinIdx?_eq_none_iff.mp first)
      simp [same, nothing]
    | some number => simp [same, find?_of_first? first]

theorem follow?_append (place : Nat) :
    index.follow? own info (path ++ [place]) =
      (index.follow? own info path).bind fun last =>
        last.bases[place]?.bind (index.parent? own) := by
  induction path generalizing info with
  | nil =>
    rw [List.nil_append, follow?]
    cases info.bases[place]?.bind (index.parent? own) <;> simp [follow?]
  | cons first rest ih =>
    rw [List.cons_append, follow?, follow?]
    cases info.bases[first]?.bind (index.parent? own) with
    | none => rfl
    | some parent => exact ih

/-! ## Queues -/

/-- The bases of a class to which a path leads, each with its own path. -/
def branches (path : List Nat) (info : ClassInfo) : List (List Nat × String) :=
  info.bases.zipIdx.map fun entry => (path ++ [entry.2], entry.1)

theorem mem_branches {entry : List Nat × String} :
    entry ∈ branches path info ↔
      ∃ place, entry.1 = path ++ [place] ∧ info.bases[place]? = some entry.2 := by
  simp only [branches, List.mem_map, Prod.exists, List.mem_zipIdx_iff_getElem?]
  constructor
  · rintro ⟨base, place, here, rfl⟩
    exact ⟨place, rfl, here⟩
  · rintro ⟨place, same, here⟩
    exact ⟨entry.2, place, here, by rw [← same]⟩

theorem map_snd_branches (path : List Nat) (info : ClassInfo) :
    (branches path info).map Prod.snd = info.bases := by
  rw [branches, List.map_map]
  exact List.zipIdx_map_fst 0 info.bases

/-- The branches of a class come in the order of its bases. -/
theorem branches_pairwise (path : List Nat) (info : ClassInfo) :
    (branches path info).Pairwise fun entry later => rank entry.1 < rank later.1 := by
  have places : (info.bases.zipIdx.map Prod.snd).Pairwise (· < ·) := by
    rw [List.zipIdx_map_snd]
    exact List.pairwise_lt_range'
  exact List.pairwise_map.mpr ((List.pairwise_map.mp places).imp rank_append_lt)

/-- Bases with the paths to them, in the order of a traversal. The last paths go on from ones that
were taken from the queue before the first. -/
structure Queued (index : ClassIndex) (start : ClassInfo) (queue : List (List Nat × String)) :
    Prop where
  leads : ∀ entry ∈ queue, ∃ path info, index.follow? start.name start path = some info ∧
    entry ∈ branches path info
  sorted : queue.Pairwise fun entry later => rank entry.1 < rank later.1
  close : ∀ entry ∈ queue, ∀ later ∈ queue, ∀ place, rank later.1 < rank (entry.1 ++ [place])

theorem Queued.tail {entry : List Nat × String} {queue : List (List Nat × String)}
    (queued : index.Queued start (entry :: queue)) : index.Queued start queue where
  leads := fun other member => queued.leads other (List.mem_cons_of_mem _ member)
  sorted := queued.sorted.of_cons
  close := fun other member later member' =>
    queued.close other (List.mem_cons_of_mem _ member) later (List.mem_cons_of_mem _ member')

/-- When the path to a class is taken from the queue, its branches may join the queue. -/
theorem Queued.extend {queue : List (List Nat × String)}
    (queued : index.Queued start ((path, base) :: queue))
    (reached : index.follow? start.name start path = some info) :
    index.Queued start (queue ++ branches path info) where
  leads := by
    intro entry member
    rcases List.mem_append.mp member with waiting | joined
    · exact queued.leads entry (List.mem_cons_of_mem _ waiting)
    · exact ⟨path, info, reached, joined⟩
  sorted := by
    refine List.pairwise_append.mpr ⟨queued.sorted.of_cons, branches_pairwise path info, ?_⟩
    intro entry waiting later joined
    obtain ⟨place, same, -⟩ := mem_branches.mp joined
    rw [same]
    exact queued.close _ List.mem_cons_self entry (List.mem_cons_of_mem _ waiting) place
  close := by
    have front := (List.pairwise_cons.mp queued.sorted).1
    intro entry member later member' place
    rcases List.mem_append.mp member with waiting | joined
    · rcases List.mem_append.mp member' with waiting' | joined'
      · exact queued.tail.close entry waiting later waiting' place
      · obtain ⟨place', same, -⟩ := mem_branches.mp joined'
        rw [same]
        exact rank_append_lt_append (front entry waiting) place' place
    · obtain ⟨place', same, -⟩ := mem_branches.mp joined
      rw [same]
      rcases List.mem_append.mp member' with waiting' | joined'
      · exact (queued.close _ List.mem_cons_self later (List.mem_cons_of_mem _ waiting') place').trans
          (rank_lt_append _ place)
      · obtain ⟨place'', same', -⟩ := mem_branches.mp joined'
        rw [same']
        exact rank_append_lt_append (rank_lt_append path place') place'' place

theorem queued_branches (start : ClassInfo) : index.Queued start (branches [] start) where
  leads := fun _ member => ⟨[], start, rfl, member⟩
  sorted := branches_pairwise [] start
  close := by
    intro entry member later member' place
    obtain ⟨_, same, -⟩ := mem_branches.mp member
    obtain ⟨_, same', -⟩ := mem_branches.mp member'
    rw [same, same']
    exact rank_lt_iff.mpr (.inl (by simp))

/-! ## What the search lists -/

/-- The class that a base stands for was met before, or it is listed on a path that does not come
after the one to the base. -/
def Settles (index : ClassIndex) (own : String) (met : List (Fin index.classes.length))
    (listed : List (List Nat × Fin index.classes.length)) (entry : List Nat × String) : Prop :=
  entry.2 ≠ own → ∀ number, index.first? entry.2 = some number →
    number ∈ met ∨ ∃ path, (path, number) ∈ listed ∧ rank path ≤ rank entry.1

/-- What the search lists with the paths to it, from a queue and the classes met before on. -/
structure Listed (index : ClassIndex) (start : ClassInfo) (met : List (Fin index.classes.length))
    (queue : List (List Nat × String)) (listed : List (List Nat × Fin index.classes.length)) :
    Prop where
  isPath : ∀ entry ∈ listed, index.IsPath start entry.1 (index.classes.get entry.2)
  sorted : listed.Pairwise fun entry later => rank entry.1 < rank later.1
  behind : ∀ entry ∈ listed, ∃ waiting ∈ queue, rank waiting.1 ≤ rank entry.1
  settlesQueue : ∀ entry ∈ queue, index.Settles start.name met listed entry
  settlesBranches : ∀ entry ∈ listed, ∀ branch ∈ branches entry.1 (index.classes.get entry.2),
    index.Settles start.name met listed branch
  firsts : ∀ entry ∈ listed, index.first? (index.classes.get entry.2).name = some entry.2
  nodup : (listed.map Prod.snd).Nodup
  fresh : ∀ entry ∈ listed, entry.2 ∉ met

variable {met : List (Fin index.classes.length)} {queue : List (List Nat × String)}
  {listed : List (List Nat × Fin index.classes.length)}

theorem listed_nil : index.Listed start met [] [] where
  isPath := nofun
  sorted := .nil
  behind := nofun
  settlesQueue := nofun
  settlesBranches := nofun
  firsts := nofun
  nodup := .nil
  fresh := nofun

/-- A base that needs no listing is taken from the queue. -/
theorem Listed.skip (rest : index.Listed start met queue listed) {entry : List Nat × String}
    (settled : index.Settles start.name met listed entry) :
    index.Listed start met (entry :: queue) listed :=
  { rest with
    behind := fun found member =>
      let ⟨waiting, here, le⟩ := rest.behind found member
      ⟨waiting, List.mem_cons_of_mem _ here, le⟩
    settlesQueue := List.forall_mem_cons.mpr ⟨settled, rest.settlesQueue⟩ }

/-- That a class of the same name was met makes no difference. -/
theorem Listed.forget (rest : index.Listed start (number :: met) queue listed)
    (same : (index.classes.get number).name = start.name) : index.Listed start met queue listed := by
  have settles {entry : List Nat × String}
      (settled : index.Settles start.name (number :: met) listed entry) :
      index.Settles start.name met listed entry := by
    intro other found first
    rcases settled other found first with before | here
    · rcases List.mem_cons.mp before with rfl | before
      · exact absurd ((first?_eq_some_iff.mp first).1.symm.trans same) other
      · exact .inl before
    · exact .inr here
  exact
    { rest with
      settlesQueue := fun entry member => settles (rest.settlesQueue entry member)
      settlesBranches := fun entry member branch member' =>
        settles (rest.settlesBranches entry member branch member')
      fresh := fun entry member before => rest.fresh entry member (List.mem_cons_of_mem _ before) }

/-- A class that is met for the first time is listed, and its branches join the queue. -/
theorem Listed.visit (queued : index.Queued start ((path, base) :: queue))
    (isPath : index.IsPath start path (index.classes.get number))
    (first : index.first? base = some number) (new : number ∉ met)
    (rest : index.Listed start (number :: met) (queue ++ branches path (index.classes.get number))
      listed) :
    index.Listed start met ((path, base) :: queue) ((path, number) :: listed) := by
  have named := (first?_eq_some_iff.mp first).1
  have front := (List.pairwise_cons.mp queued.sorted).1
  have joined (branch) (member : branch ∈ branches path (index.classes.get number)) :
      rank path < rank branch.1 := by
    obtain ⟨place, same, -⟩ := mem_branches.mp member
    rw [same]
    exact rank_lt_append path place
  have after (entry) (member : entry ∈ listed) : rank path < rank entry.1 := by
    obtain ⟨waiting, here, le⟩ := rest.behind entry member
    rcases List.mem_append.mp here with old | young
    · exact (front waiting old).trans_le le
    · exact (joined waiting young).trans_le le
  -- Where the class counted as met, it now counts as listed on an earlier path.
  have settles {entry : List Nat × String} (later : rank path < rank entry.1)
      (settled : index.Settles start.name (number :: met) listed entry) :
      index.Settles start.name met ((path, number) :: listed) entry := by
    intro other found first'
    rcases settled other found first' with before | ⟨path', here, le⟩
    · rcases List.mem_cons.mp before with rfl | before
      · exact .inr ⟨path, List.mem_cons_self, later.le⟩
      · exact .inl before
    · exact .inr ⟨path', List.mem_cons_of_mem _ here, le⟩
  constructor
  case isPath => exact List.forall_mem_cons.mpr ⟨isPath, rest.isPath⟩
  case sorted => exact List.pairwise_cons.mpr ⟨after, rest.sorted⟩
  case behind =>
    refine List.forall_mem_cons.mpr ⟨⟨_, List.mem_cons_self, le_rfl⟩, fun entry member => ?_⟩
    exact ⟨_, List.mem_cons_self, (after entry member).le⟩
  case settlesQueue =>
    refine List.forall_mem_cons.mpr ⟨fun _ found first' => ?_, fun entry member => ?_⟩
    · obtain rfl : number = found := Option.some.inj (first.symm.trans first')
      exact .inr ⟨path, List.mem_cons_self, le_rfl⟩
    · exact settles (front entry member) (rest.settlesQueue entry (List.mem_append_left _ member))
  case settlesBranches =>
    refine List.forall_mem_cons.mpr ⟨fun branch member => ?_, fun entry member branch member' => ?_⟩
    · exact settles (joined branch member) (rest.settlesQueue branch (List.mem_append_right _ member))
    · obtain ⟨place, same, -⟩ := mem_branches.mp member'
      refine settles ?_ (rest.settlesBranches entry member branch member')
      rw [same]
      exact (after entry member).trans (rank_lt_append _ place)
  case firsts =>
    refine List.forall_mem_cons.mpr ⟨?_, rest.firsts⟩
    rw [named]
    exact first
  case nodup =>
    refine List.nodup_cons.mpr ⟨fun member => ?_, rest.nodup⟩
    obtain ⟨entry, here, rfl⟩ := List.mem_map.mp member
    exact rest.fresh entry here List.mem_cons_self
  case fresh =>
    refine List.forall_mem_cons.mpr ⟨new, fun entry member before => ?_⟩
    exact rest.fresh entry member (List.mem_cons_of_mem _ before)

/-- **The search lists classes with the paths to them, and settles what it takes from the queue.** -/
theorem exists_listed (met : List (Fin index.classes.length)) (queue : List (List Nat × String))
    (queued : index.Queued start queue) :
    ∃ listed, index.Listed start met queue listed ∧
      index.reach start.name met (queue.map Prod.snd) =
        listed.map fun entry => index.classes.get entry.2 := by
  generalize names : queue.map Prod.snd = waiting
  induction met, waiting using reach.induct index start.name generalizing queue with
  | case1 met =>
    obtain rfl := List.map_eq_nil_iff.mp names
    exact ⟨[], listed_nil, by rw [reach]; rfl⟩
  | case2 met base waiting nothing ih =>
    obtain ⟨⟨path, base⟩, queue, rfl, rfl, rfl⟩ := List.map_eq_cons_iff.mp names
    obtain ⟨listed, rest, same⟩ := ih queue queued.tail rfl
    refine ⟨listed, rest.skip fun _ found first => ?_, by rw [reach, nothing]; exact same⟩
    rw [nothing] at first
    cases first
  | case3 met base waiting number first known ih =>
    obtain ⟨⟨path, base⟩, queue, rfl, rfl, rfl⟩ := List.map_eq_cons_iff.mp names
    obtain ⟨listed, rest, same⟩ := ih queue queued.tail rfl
    refine ⟨listed, rest.skip fun _ found first' => ?_, ?_⟩
    · obtain rfl : number = found := Option.some.inj (first.symm.trans first')
      exact .inl known
    · rw [reach, first]
      simp only [known, if_true]
      exact same
  | case4 met base waiting number first new own ih =>
    obtain ⟨⟨path, base⟩, queue, rfl, rfl, rfl⟩ := List.map_eq_cons_iff.mp names
    obtain ⟨listed, rest, same⟩ := ih queue queued.tail rfl
    refine ⟨listed, (rest.forget own).skip fun other _ _ => ?_, ?_⟩
    · exact absurd ((first?_eq_some_iff.mp first).1.symm.trans own) other
    · rw [reach, first]
      simp only [new, own, if_true, if_false]
      exact same
  | case5 met base waiting number first new other ih =>
    obtain ⟨⟨path, base⟩, queue, rfl, rfl, rfl⟩ := List.map_eq_cons_iff.mp names
    have isPath : index.IsPath start path (index.classes.get number) := by
      obtain ⟨before, info, reached, member⟩ := queued.leads _ List.mem_cons_self
      obtain ⟨place, rfl, here⟩ := mem_branches.mp member
      refine ⟨by simp, ?_⟩
      rw [follow?_append, reached, Option.bind_some, here, Option.bind_some]
      refine parent?_eq_some_iff.mpr ⟨?_, number, first, rfl⟩
      exact fun own => other ((first?_eq_some_iff.mp first).1.trans own)
    obtain ⟨listed, rest, same⟩ := ih (queue ++ branches path (index.classes.get number))
      (queued.extend isPath.follow) (by rw [List.map_append, map_snd_branches])
    refine ⟨(path, number) :: listed, .visit queued isPath first new rest, ?_⟩
    rw [reach, first]
    simp only [new, other, if_false, List.map_cons]
    exact congrArg _ same

/-! ## The ancestors of a class -/

/-- No path to an ancestor comes before the one on which it is listed. -/
theorem Listed.exists_le (found : index.Listed start [] (branches [] start) listed)
    (isPath : index.IsPath start path ancestor) :
    ∃ entry ∈ listed, index.classes.get entry.2 = ancestor ∧ rank entry.1 ≤ rank path := by
  obtain ⟨nonempty, follow⟩ := isPath
  induction path using List.reverseRecOn generalizing ancestor with
  | nil => exact absurd rfl nonempty
  | append_singleton path place ih =>
    rw [follow?_append] at follow
    obtain ⟨last, before, follow⟩ := Option.bind_eq_some_iff.mp follow
    obtain ⟨base, here, stands⟩ := Option.bind_eq_some_iff.mp follow
    obtain ⟨other, number, first, rfl⟩ := parent?_eq_some_iff.mp stands
    by_cases empty : path = []
    · subst empty
      obtain rfl : start = last := Option.some.inj before
      have branch : ([] ++ [place], base) ∈ branches [] start :=
        mem_branches.mpr ⟨place, rfl, here⟩
      rcases found.settlesQueue _ branch other number first with met | ⟨path', member, le⟩
      · cases met
      · exact ⟨_, member, rfl, le⟩
    · obtain ⟨entry, member, rfl, le⟩ := ih empty before
      have branch : (entry.1 ++ [place], base) ∈ branches entry.1 (index.classes.get entry.2) :=
        mem_branches.mpr ⟨place, rfl, here⟩
      rcases found.settlesBranches entry member _ branch other number first with
        met | ⟨path', member', le'⟩
      · cases met
      · exact ⟨_, member', rfl, le'.trans (rank_append_le_append le place)⟩

/-- A class is listed on its first path. -/
theorem Listed.isFirstPath (found : index.Listed start [] (branches [] start) listed)
    {entry : List Nat × Fin index.classes.length} (member : entry ∈ listed) :
    index.IsFirstPath start entry.1 (index.classes.get entry.2) := by
  refine ⟨found.isPath entry member, fun other isPath => ?_⟩
  obtain ⟨entry', member', same, le⟩ := found.exists_le isPath
  have first := found.firsts entry' member'
  rw [same, found.firsts entry member] at first
  obtain rfl : entry = entry' :=
    List.inj_on_of_nodup_map found.nodup member member' (Option.some.inj first)
  exact le

theorem IsFirstPath.isDistance (first : index.IsFirstPath start path ancestor) :
    index.IsDistance start ancestor path.length := by
  refine ⟨⟨path, first.isPath, rfl⟩, ?_⟩
  rintro _ ⟨other, isPath, rfl⟩
  exact length_le_of_rank_le (first.le other isPath)

theorem IsFirstPath.comesBefore {path' : List Nat} {other : ClassInfo}
    (first : index.IsFirstPath start path ancestor) (first' : index.IsFirstPath start path' other)
    (before : rank path < rank path') : index.ComesBefore start ancestor other :=
  ⟨path, path', first, first', before⟩

/-- **The ancestors of a class are listed in breadth-first order.** The classes to which there is a path
along the bases are listed, one for each name. They come in the order of their first paths, and so the
distance never goes down. A method is the class's own, or else that of the first ancestor that has
one. -/
theorem ancestors_breadthFirst (index : ClassIndex) (start : ClassInfo) :
    ((index.ancestors start).map ClassInfo.name).Nodup ∧
      (∀ ancestor, ancestor ∈ index.ancestors start ↔ ∃ path, index.IsPath start path ancestor) ∧
      (index.ancestors start).Pairwise (index.ComesBefore start) ∧
      ((index.ancestors start).Pairwise fun nearer further => ∃ distance distance',
        index.IsDistance start nearer distance ∧ index.IsDistance start further distance' ∧
          distance ≤ distance') ∧
      ∀ name method, index.resolveMethod? start name = some method ↔
        start.ownMethod? name = some method ∨
          start.ownMethod? name = none ∧ ∃ nearer ancestor further,
            index.ancestors start = nearer ++ ancestor :: further ∧
              ancestor.ownMethod? name = some method ∧
                ∀ other ∈ nearer, other.ownMethod? name = none := by
  obtain ⟨listed, found, same⟩ := exists_listed [] (branches [] start) (queued_branches start)
  rw [map_snd_branches] at same
  change index.ancestors start = _ at same
  refine ⟨?once, fun ancestor => ⟨fun member => ?leads, fun ⟨path, isPath⟩ => ?listed⟩, ?order,
    ?distance, fun name method => ?method⟩
  case once =>
    rw [same, List.map_map]
    change (listed.map ((fun number => (index.classes.get number).name) ∘ Prod.snd)).Nodup
    rw [← List.map_map]
    refine found.nodup.map_on fun number member number' member' named => ?_
    obtain ⟨entry, here, rfl⟩ := List.mem_map.mp member
    obtain ⟨entry', here', rfl⟩ := List.mem_map.mp member'
    have first := found.firsts entry here
    rw [named, found.firsts entry' here'] at first
    exact (Option.some.inj first).symm
  case leads =>
    rw [same] at member
    obtain ⟨entry, here, rfl⟩ := List.mem_map.mp member
    exact ⟨entry.1, found.isPath entry here⟩
  case listed =>
    obtain ⟨entry, here, rfl, -⟩ := found.exists_le isPath
    rw [same]
    exact List.mem_map.mpr ⟨entry, here, rfl⟩
  case order =>
    rw [same]
    refine List.pairwise_map.mpr (found.sorted.imp_of_mem fun here there before => ?_)
    exact (found.isFirstPath here).comesBefore (found.isFirstPath there) before
  case distance =>
    rw [same]
    refine List.pairwise_map.mpr (found.sorted.imp_of_mem fun here there before => ?_)
    exact ⟨_, _, (found.isFirstPath here).isDistance, (found.isFirstPath there).isDistance,
      length_le_of_rank_le before.le⟩
  case method =>
    rw [resolveMethod?, Option.or_eq_some_iff, List.findSome?_eq_some_iff]

/-- A base that is nearer by another way, a repeated name and a way back. -/
example :
    let own : ClassInfo := ⟨0, "Fast", ["Trend", "Base"], []⟩
    let index : ClassIndex :=
      ⟨[own, ⟨2, "Base", ["Core"], []⟩, ⟨4, "Trend", ["Base", "Slow"], []⟩, ⟨6, "Slow", [], []⟩,
        ⟨8, "Core", ["Fast", "Trend"], []⟩, ⟨10, "Slow", ["Other"], []⟩], []⟩
    (index.ancestors own).map ClassInfo.line = [5, 3, 7, 9] := by
  decide +kernel

end Search

end StrategyMend.Strategy.ClassIndex
