import Mathlib.Data.List.Perm.Basic
import OxeeUI.Library.Utf16
import OxeeUI.Lineage.Cycles

/-!
# The resolved lineage of worktrees

Rows are told apart by their place, since one id may stand for worktrees of several hosts.
A row has the parent its lineage record names where one row alone fits the record.
-/

namespace OxeeUI.Lineage

open Library Relation

structure Worktree where
  id : Text
  instanceId : Option Text
  hostId : Option Text

structure WorktreeLineage where
  worktreeId : Text
  worktreeInstanceId : Text
  parentWorktreeId : Text
  parentWorktreeInstanceId : Text

structure WorktreeWithResolvedLineage (Row : Type*) where
  worktree : Row
  parentWorktreeId : Option Text
  childWorktreeIds : List Text
  lineage : Option WorktreeLineage

def sharesWorktreeLineageBoundary (child parent : Worktree) : Bool :=
  child.hostId == none || parent.hostId == none || child.hostId == parent.hostId

def sharesResolvedWorktreeLineageBoundary (child parent : Worktree) : Bool :=
  sharesWorktreeLineageBoundary child parent

def isValidResolvedWorktreeLineageEdge (child parent : Worktree) (lineage : WorktreeLineage) :
    Bool :=
  child.id != parent.id &&
    lineage.worktreeId == child.id &&
    lineage.parentWorktreeId == parent.id &&
    sharesResolvedWorktreeLineageBoundary child parent &&
    child.instanceId == some lineage.worktreeInstanceId &&
    parent.instanceId == some lineage.parentWorktreeInstanceId

def indicesById (allWorktrees : List Worktree) : JsMap Text (List ℕ) :=
  (allWorktrees.zipIdx.map fun row => (row.1.id, row.2)).foldl
    (fun indices entry => indices.push entry.1 entry.2) .empty

/-- The places of the rows that fit a child's record. -/
def parentIndices (allWorktrees : List Worktree) (child : Worktree) (lineage : WorktreeLineage) :
    List ℕ :=
  (((indicesById allWorktrees).get? lineage.parentWorktreeId).getD []).filter fun index =>
    allWorktrees[index]?.any fun parent => isValidResolvedWorktreeLineageEdge child parent lineage

/-- The record of a child and the place of its parent, where one place alone fits. -/
def resolveParent (allWorktrees : List Worktree) (lineageById : JsMap Text WorktreeLineage)
    (child : Worktree) : Option (WorktreeLineage × ℕ) := do
  let lineage ← lineageById.get? child.id
  match parentIndices allWorktrees child lineage with
  | [parentIndex] => some (lineage, parentIndex)
  | _ => none

structure ResolvedParents where
  validLineageByChildIndex : JsMap ℕ WorktreeLineage
  parentIndexByChildIndex : JsMap ℕ ℕ

def resolveChild (allWorktrees : List Worktree) (lineageById : JsMap Text WorktreeLineage)
    (found : ResolvedParents) (child : Worktree × ℕ) : ResolvedParents :=
  match resolveParent allWorktrees lineageById child.1 with
  | none => found
  | some (lineage, parentIndex) =>
    ⟨found.validLineageByChildIndex.set child.2 lineage,
      found.parentIndexByChildIndex.set child.2 parentIndex⟩

def resolveParents (allWorktrees : List Worktree) (lineageById : JsMap Text WorktreeLineage) :
    ResolvedParents :=
  allWorktrees.zipIdx.foldl (resolveChild allWorktrees lineageById) ⟨.empty, .empty⟩

def ResolvedParents.acyclic (found : ResolvedParents) : ResolvedParents :=
  let cyclic := getCyclicLineageChildKeys found.parentIndexByChildIndex
  ⟨cyclic.foldl (fun map index => map.delete index) found.validLineageByChildIndex,
    cyclic.foldl (fun map index => map.delete index) found.parentIndexByChildIndex⟩

def childIdsByParentIndex (allWorktrees : List Worktree) (parentIndexByChildIndex : JsMap ℕ ℕ) :
    JsMap ℕ (List Text) :=
  (parentIndexByChildIndex.entries.filterMap fun entry =>
      allWorktrees[entry.1]?.map fun child => (entry.2, child.id)).foldl
    (fun children entry => children.push entry.1 entry.2) .empty

def projectResolvedWorktreeLineage {Row : Type*} (base : Row → Worktree) (worktrees : List Row)
    (lineageById : JsMap Text WorktreeLineage) (knownPeers : List Worktree) :
    List (WorktreeWithResolvedLineage Row) :=
  let allWorktrees := worktrees.map base ++ knownPeers
  let found := (resolveParents allWorktrees lineageById).acyclic
  let children := childIdsByParentIndex allWorktrees found.parentIndexByChildIndex
  worktrees.zipIdx.map fun row =>
    let lineage := found.validLineageByChildIndex.get? row.2
    { worktree := row.1
      parentWorktreeId := lineage.map (·.parentWorktreeId)
      childWorktreeIds := (children.get? row.2).getD []
      lineage }

/-! ## Edges -/

variable {allWorktrees : List Worktree} {lineageById : JsMap Text WorktreeLineage}

/-- The row at one place fits the record of the row at another as its parent. -/
def ValidEdge (allWorktrees : List Worktree) (lineageById : JsMap Text WorktreeLineage)
    (childIndex parentIndex : ℕ) : Prop :=
  ∃ child parent lineage, allWorktrees[childIndex]? = some child ∧
    allWorktrees[parentIndex]? = some parent ∧ lineageById.get? child.id = some lineage ∧
    isValidResolvedWorktreeLineageEdge child parent lineage = true

def UniqueParent (allWorktrees : List Worktree) (lineageById : JsMap Text WorktreeLineage)
    (childIndex parentIndex : ℕ) : Prop :=
  ValidEdge allWorktrees lineageById childIndex parentIndex ∧
    ∀ other, ValidEdge allWorktrees lineageById childIndex other → other = parentIndex

/-- One row alone fits, and the child is on no cycle of such edges. -/
def ChosenParent (allWorktrees : List Worktree) (lineageById : JsMap Text WorktreeLineage)
    (childIndex parentIndex : ℕ) : Prop :=
  UniqueParent allWorktrees lineageById childIndex parentIndex ∧
    ¬TransGen (UniqueParent allWorktrees lineageById) childIndex childIndex

theorem mem_indicesById {id : Text} {index : ℕ} :
    index ∈ ((indicesById allWorktrees).get? id).getD [] ↔
      ∃ row, allWorktrees[index]? = some row ∧ row.id = id := by
  simp [indicesById, JsMap.getD_foldl_push, List.mem_zipIdx_iff_getElem?]

theorem indicesById_nodup (allWorktrees : List Worktree) (id : Text) :
    (((indicesById allWorktrees).get? id).getD []).Nodup := by
  have places : (allWorktrees.zipIdx.map Prod.snd).Nodup := by
    simpa [List.zipIdx_map_snd] using List.nodup_range'
  rw [indicesById, JsMap.getD_foldl_push, List.filter_map, List.map_map]
  exact places.sublist (List.filter_sublist.map Prod.snd)

theorem parent_id {child parent : Worktree} {lineage : WorktreeLineage}
    (valid : isValidResolvedWorktreeLineageEdge child parent lineage = true) :
    parent.id = lineage.parentWorktreeId := by
  simp only [isValidResolvedWorktreeLineageEdge, Bool.and_eq_true, beq_iff_eq] at valid
  exact valid.1.1.1.2.symm

theorem mem_parentIndices {child : Worktree} {lineage : WorktreeLineage} {index : ℕ} :
    index ∈ parentIndices allWorktrees child lineage ↔
      ∃ parent, allWorktrees[index]? = some parent ∧
        isValidResolvedWorktreeLineageEdge child parent lineage = true := by
  rw [parentIndices, List.mem_filter, mem_indicesById, Option.any_eq_true]
  constructor
  · rintro ⟨-, fits⟩
    exact fits
  · rintro ⟨parent, place, valid⟩
    exact ⟨⟨parent, place, parent_id valid⟩, parent, place, valid⟩

theorem eq_singleton_iff {Item : Type*} {items : List Item} (distinct : items.Nodup) {item : Item} :
    items = [item] ↔ item ∈ items ∧ ∀ other ∈ items, other = item := by
  constructor
  · rintro rfl
    simp
  · rintro ⟨member, only⟩
    refine List.perm_singleton.mp ((List.perm_ext_iff_of_nodup distinct (by simp)).mpr fun other => ?_)
    rw [List.mem_singleton]
    exact ⟨only other, fun same => same ▸ member⟩

/-- The parent resolved for a row is the one that alone fits. -/
theorem resolveParent_eq_some {childIndex parentIndex : ℕ} {child : Worktree}
    {lineage : WorktreeLineage} (place : allWorktrees[childIndex]? = some child) :
    resolveParent allWorktrees lineageById child = some (lineage, parentIndex) ↔
      lineageById.get? child.id = some lineage ∧
        UniqueParent allWorktrees lineageById childIndex parentIndex := by
  have edges (record : lineageById.get? child.id = some lineage) (index : ℕ) :
      index ∈ parentIndices allWorktrees child lineage ↔
        ValidEdge allWorktrees lineageById childIndex index := by
    rw [mem_parentIndices]
    constructor
    · rintro ⟨parent, isParent, valid⟩
      exact ⟨child, parent, lineage, place, isParent, record, valid⟩
    · rintro ⟨child', parent, lineage', place', isParent, record', valid⟩
      cases Option.some.inj (place.symm.trans place')
      cases Option.some.inj (record.symm.trans record')
      exact ⟨parent, isParent, valid⟩
  have distinct : (parentIndices allWorktrees child lineage).Nodup :=
    (indicesById_nodup allWorktrees _).filter _
  have alone (record : lineageById.get? child.id = some lineage) :
      parentIndices allWorktrees child lineage = [parentIndex] ↔
        UniqueParent allWorktrees lineageById childIndex parentIndex := by
    rw [eq_singleton_iff distinct, edges record]
    simp only [edges record, UniqueParent]
  unfold resolveParent
  cases record : lineageById.get? child.id with
  | none => simp
  | some lineage' =>
    constructor
    · intro resolved
      dsimp only [Option.bind_eq_bind, Option.bind_some] at resolved
      split at resolved
      · next single =>
        cases resolved
        exact ⟨rfl, (alone record).mp single⟩
      · cases resolved
    · rintro ⟨same, unique⟩
      cases same
      dsimp only [Option.bind_eq_bind, Option.bind_some]
      rw [(alone record).mpr unique]

/-! ## Parents -/

/-- The children with their records, and with the places of their parents. -/
def recordPairs (allWorktrees : List Worktree) (lineageById : JsMap Text WorktreeLineage) :
    List (ℕ × WorktreeLineage × ℕ) :=
  allWorktrees.zipIdx.filterMap fun child =>
    (resolveParent allWorktrees lineageById child.1).map fun resolved => (child.2, resolved)

theorem recordPairs_sorted (allWorktrees : List Worktree)
    (lineageById : JsMap Text WorktreeLineage) :
    (recordPairs allWorktrees lineageById).Pairwise fun first second => first.1 < second.1 := by
  have places : allWorktrees.zipIdx.Pairwise fun first second => first.2 < second.2 := by
    refine List.pairwise_map.mp (?_ : (allWorktrees.zipIdx.map Prod.snd).Pairwise (· < ·))
    rw [List.zipIdx_map_snd]
    exact List.pairwise_lt_range'
  refine places.filterMap _ fun first second less pair isPair other isOther => ?_
  obtain ⟨_, -, rfl⟩ := Option.map_eq_some_iff.mp isPair
  obtain ⟨_, -, rfl⟩ := Option.map_eq_some_iff.mp isOther
  exact less

theorem recordPairs_nodup {Item : Type*} (read : WorktreeLineage × ℕ → Item) :
    (((recordPairs allWorktrees lineageById).map fun pair => (pair.1, read pair.2)).map
      Prod.fst).Nodup := by
  rw [List.map_map]
  exact List.pairwise_map.mpr ((recordPairs_sorted allWorktrees lineageById).imp Nat.ne_of_lt)

theorem mem_recordPairs {childIndex parentIndex : ℕ} {lineage : WorktreeLineage} :
    (childIndex, lineage, parentIndex) ∈ recordPairs allWorktrees lineageById ↔
      ∃ child, allWorktrees[childIndex]? = some child ∧ lineageById.get? child.id = some lineage ∧
        UniqueParent allWorktrees lineageById childIndex parentIndex := by
  rw [recordPairs, List.mem_filterMap]
  constructor
  · rintro ⟨⟨child, index⟩, member, resolved⟩
    obtain ⟨_, found, same⟩ := Option.map_eq_some_iff.mp resolved
    cases same
    have place := List.mem_zipIdx_iff_getElem?.mp member
    exact ⟨child, place, (resolveParent_eq_some place).mp found⟩
  · rintro ⟨child, place, resolved⟩
    refine ⟨(child, childIndex), List.mem_zipIdx_iff_getElem?.mpr place, ?_⟩
    rw [(resolveParent_eq_some place).mpr resolved]
    rfl

theorem resolveParents_eq (allWorktrees : List Worktree)
    (lineageById : JsMap Text WorktreeLineage) :
    resolveParents allWorktrees lineageById =
      ⟨.ofPairs ((recordPairs allWorktrees lineageById).map fun pair => (pair.1, pair.2.1)),
        .ofPairs ((recordPairs allWorktrees lineageById).map fun pair => (pair.1, pair.2.2))⟩ := by
  unfold resolveParents recordPairs JsMap.ofPairs
  generalize allWorktrees.zipIdx = children
  generalize (JsMap.empty : JsMap ℕ WorktreeLineage) = lineages
  generalize (JsMap.empty : JsMap ℕ ℕ) = parents
  induction children generalizing lineages parents with
  | nil => rfl
  | cons child children ih =>
    rw [List.foldl_cons, List.filterMap_cons]
    unfold resolveChild
    cases resolveParent allWorktrees lineageById child.1 with
    | none => exact ih lineages parents
    | some resolved => exact ih _ _

theorem parent_resolveParents :
    Parent (resolveParents allWorktrees lineageById).parentIndexByChildIndex =
      UniqueParent allWorktrees lineageById := by
  funext childIndex parentIndex
  refine propext ?_
  rw [Parent, resolveParents_eq, JsMap.get?_eq_some_iff, JsMap.entries_ofPairs (recordPairs_nodup _),
    List.mem_map]
  constructor
  · rintro ⟨⟨index, lineage, parent⟩, member, same⟩
    cases same
    obtain ⟨-, -, -, unique⟩ := mem_recordPairs.mp member
    exact unique
  · intro unique
    obtain ⟨child, -, lineage, place, -, record, -⟩ := unique.1
    exact ⟨(childIndex, lineage, parentIndex), mem_recordPairs.mpr ⟨child, place, record, unique⟩, rfl⟩

theorem mem_cyclic {index : ℕ} :
    index ∈ getCyclicLineageChildKeys
        (resolveParents allWorktrees lineageById).parentIndexByChildIndex ↔
      TransGen (UniqueParent allWorktrees lineageById) index index := by
  rw [mem_getCyclicLineageChildKeys, parent_resolveParents]

theorem lineage_acyclic {childIndex : ℕ} {lineage : WorktreeLineage} :
    (resolveParents allWorktrees lineageById).acyclic.validLineageByChildIndex.get? childIndex =
        some lineage ↔
      ∃ child parentIndex, allWorktrees[childIndex]? = some child ∧
        lineageById.get? child.id = some lineage ∧
        ChosenParent allWorktrees lineageById childIndex parentIndex := by
  rw [ResolvedParents.acyclic]
  dsimp only
  rw [JsMap.get?_foldl_delete]
  constructor
  · intro found
    split at found
    · cases found
    · next acyclic =>
      rw [mem_cyclic] at acyclic
      rw [resolveParents_eq, JsMap.get?_eq_some_iff, JsMap.entries_ofPairs (recordPairs_nodup _),
        List.mem_map] at found
      obtain ⟨⟨index, record, parent⟩, member, same⟩ := found
      cases same
      obtain ⟨child, place, record, unique⟩ := mem_recordPairs.mp member
      exact ⟨child, parent, place, record, unique, acyclic⟩
  · rintro ⟨child, parentIndex, place, record, unique, acyclic⟩
    rw [if_neg (mem_cyclic.not.mpr acyclic), resolveParents_eq, JsMap.get?_eq_some_iff,
      JsMap.entries_ofPairs (recordPairs_nodup _), List.mem_map]
    exact ⟨(childIndex, lineage, parentIndex), mem_recordPairs.mpr ⟨child, place, record, unique⟩, rfl⟩

def childIndices (allWorktrees : List Worktree) (lineageById : JsMap Text WorktreeLineage)
    (parentIndex : ℕ) : List ℕ :=
  ((resolveParents allWorktrees lineageById).acyclic.parentIndexByChildIndex.entries.filter
    fun entry => entry.2 = parentIndex).map Prod.fst

theorem entries_acyclic :
    (resolveParents allWorktrees lineageById).acyclic.parentIndexByChildIndex.entries =
      ((recordPairs allWorktrees lineageById).map fun pair => (pair.1, pair.2.2)).filter
        fun entry => entry.1 ∉ getCyclicLineageChildKeys
          (resolveParents allWorktrees lineageById).parentIndexByChildIndex := by
  rw [ResolvedParents.acyclic]
  dsimp only
  rw [JsMap.entries_foldl_delete]
  congr 1
  rw [resolveParents_eq]
  exact JsMap.entries_ofPairs (recordPairs_nodup _)

theorem childIndices_sorted (parentIndex : ℕ) :
    (childIndices allWorktrees lineageById parentIndex).Pairwise (· < ·) := by
  rw [childIndices, entries_acyclic]
  refine List.pairwise_map.mpr (List.Pairwise.filter _ (List.Pairwise.filter _ ?_))
  exact List.pairwise_map.mpr (recordPairs_sorted allWorktrees lineageById)

theorem mem_childIndices {childIndex parentIndex : ℕ} :
    childIndex ∈ childIndices allWorktrees lineageById parentIndex ↔
      ChosenParent allWorktrees lineageById childIndex parentIndex := by
  have entry {childIndex parentIndex : ℕ} : (childIndex, parentIndex) ∈
      (resolveParents allWorktrees lineageById).acyclic.parentIndexByChildIndex.entries ↔
        ChosenParent allWorktrees lineageById childIndex parentIndex := by
    rw [entries_acyclic, List.mem_filter, decide_eq_true_iff, mem_cyclic, ChosenParent]
    refine and_congr_left fun _ => ?_
    rw [← parent_resolveParents, Parent, resolveParents_eq, JsMap.get?_eq_some_iff,
      JsMap.entries_ofPairs (recordPairs_nodup _)]
  rw [childIndices, List.mem_map]
  constructor
  · rintro ⟨⟨child, parent⟩, member, rfl⟩
    obtain ⟨stored, isParent⟩ := List.mem_filter.mp member
    have same : parent = parentIndex := of_decide_eq_true isParent
    subst same
    exact entry.mp stored
  · intro chosen
    exact ⟨(childIndex, parentIndex), List.mem_filter.mpr ⟨entry.mpr chosen, decide_eq_true rfl⟩, rfl⟩

theorem getD_childIdsByParentIndex (parentIndex : ℕ) :
    (((childIdsByParentIndex allWorktrees
        (resolveParents allWorktrees lineageById).acyclic.parentIndexByChildIndex).get?
          parentIndex).getD []).map some =
      (childIndices allWorktrees lineageById parentIndex).map fun child =>
        allWorktrees[child]?.map (·.id) := by
  have inside : ∀ entry ∈
      (resolveParents allWorktrees lineageById).acyclic.parentIndexByChildIndex.entries,
      (allWorktrees[entry.1]?).isSome := by
    intro entry member
    rw [entries_acyclic] at member
    obtain ⟨⟨index, lineage, parent⟩, stored, rfl⟩ := List.mem_map.mp (List.mem_of_mem_filter member)
    obtain ⟨child, place, -⟩ := mem_recordPairs.mp stored
    simp [place]
  rw [childIdsByParentIndex, JsMap.getD_foldl_push, childIndices]
  generalize (resolveParents allWorktrees lineageById).acyclic.parentIndexByChildIndex.entries =
    entries at inside
  induction entries with
  | nil => rfl
  | cons entry entries ih =>
    obtain ⟨present, later⟩ := List.forall_mem_cons.mp inside
    obtain ⟨child, place⟩ := Option.isSome_iff_exists.mp present
    have rest := ih later
    by_cases here : entry.2 = parentIndex
    · simpa [place, here] using rest
    · simpa [place, here] using rest

/-! ## The forest -/

theorem chosenParent_acyclic (index : ℕ) :
    ¬TransGen (ChosenParent allWorktrees lineageById) index index := by
  intro cycle
  obtain ⟨next, chosen, -⟩ := TransGen.head'_iff.mp cycle
  exact chosen.2 (TransGen.mono (fun _ _ step => step.1) _ _ cycle)

theorem chosenParent_lt (childIndex parentIndex : ℕ)
    (chosen : ChosenParent allWorktrees lineageById childIndex parentIndex) :
    parentIndex < allWorktrees.length := by
  obtain ⟨-, parent, -, -, place, -⟩ := chosen.1.1
  exact (List.getElem?_eq_some_iff.mp place).1

/-- What the row at one place of the result says of its parent and its children. -/
structure Resolved {Row : Type*} (allWorktrees : List Worktree)
    (lineageById : JsMap Text WorktreeLineage) (index : ℕ) (row : WorktreeWithResolvedLineage Row) :
    Prop where
  hasParent : row.parentWorktreeId.isSome ↔
    ∃ parentIndex, ChosenParent allWorktrees lineageById index parentIndex
  parent : ∀ parentIndex, ChosenParent allWorktrees lineageById index parentIndex →
    row.parentWorktreeId = allWorktrees[parentIndex]?.map (·.id)
  lineage : ∀ lineage, row.lineage = some lineage →
    row.parentWorktreeId = some lineage.parentWorktreeId ∧
      ∃ worktree, allWorktrees[index]? = some worktree ∧ lineageById.get? worktree.id = some lineage
  children : ∃ children : List ℕ, children.Pairwise (· < ·) ∧
    (∀ child, child ∈ children ↔ ChosenParent allWorktrees lineageById child index) ∧
    row.childWorktreeIds.map some = children.map fun child => allWorktrees[child]?.map (·.id)

theorem resolved_row {Row : Type*} (base : Row → Worktree) (worktrees : List Row)
    (lineageById : JsMap Text WorktreeLineage) (knownPeers : List Worktree) {index : ℕ}
    {row : WorktreeWithResolvedLineage Row}
    (place : (projectResolvedWorktreeLineage base worktrees lineageById knownPeers)[index]? =
      some row) : Resolved (worktrees.map base ++ knownPeers) lineageById index row := by
  obtain ⟨worktree, -, rfl⟩ : ∃ worktree, worktrees[index]? = some worktree ∧ _ = row := by
    simpa [projectResolvedWorktreeLineage] using place
  refine ⟨?_, ?_, ?_, childIndices _ lineageById index, childIndices_sorted index,
    fun _ => mem_childIndices, getD_childIdsByParentIndex index⟩
  · rw [Option.isSome_map, Option.isSome_iff_exists]
    constructor
    · rintro ⟨lineage, kept⟩
      obtain ⟨-, parentIndex, -, -, chosen⟩ := lineage_acyclic.mp kept
      exact ⟨parentIndex, chosen⟩
    · rintro ⟨parentIndex, chosen⟩
      obtain ⟨child, -, lineage, here, -, record, -⟩ := chosen.1.1
      exact ⟨lineage, lineage_acyclic.mpr ⟨child, parentIndex, here, record, chosen⟩⟩
  · intro parentIndex chosen
    obtain ⟨child, parent, lineage, here, isParent, record, valid⟩ := chosen.1.1
    have kept := lineage_acyclic.mpr ⟨child, parentIndex, here, record, chosen⟩
    simp [kept, isParent, parent_id valid]
  · intro lineage kept
    obtain ⟨child, -, here, record, -⟩ := lineage_acyclic.mp kept
    exact ⟨congrArg (Option.map (·.parentWorktreeId)) kept, child, here, record⟩

/-- The keys found on cycles are those that reach themselves.  In the result each row has the
parent that alone fits its record, off cycles, and the children that chose it, and following
parents from any row ends without repeating one. -/
theorem resolved_lineage_is_forest :
    (∀ (Key : Type*) [DecidableEq Key] (parentByChild : JsMap Key Key) (key : Key),
      key ∈ getCyclicLineageChildKeys parentByChild ↔ TransGen (Parent parentByChild) key key) ∧
    ∀ (Row : Type*) (base : Row → Worktree) (worktrees : List Row)
      (lineageById : JsMap Text WorktreeLineage) (knownPeers : List Worktree),
      let allWorktrees := worktrees.map base ++ knownPeers
      let result := projectResolvedWorktreeLineage base worktrees lineageById knownPeers
      result.map (·.worktree) = worktrees ∧
      (∀ index row, result[index]? = some row → Resolved allWorktrees lineageById index row) ∧
      ∀ first < allWorktrees.length, ∀ path : List ℕ,
        (first :: path).IsChain (ChosenParent allWorktrees lineageById) →
          (first :: path).Nodup ∧ (first :: path).length ≤ allWorktrees.length := by
  refine ⟨fun Key _ parentByChild key => mem_getCyclicLineageChildKeys parentByChild key, ?_⟩
  intro Row base worktrees lineageById knownPeers
  refine ⟨?_, ?_, ?_⟩
  · simp [projectResolvedWorktreeLineage, Function.comp_def, List.zipIdx_map_fst]
  · intro index row place
    exact resolved_row base worktrees lineageById knownPeers place
  · intro first inside path chain
    exact chain_length_le chosenParent_acyclic chosenParent_lt inside chain

end OxeeUI.Lineage
