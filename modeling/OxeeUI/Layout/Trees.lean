import OxeeUI.Layout.Model
import OxeeUI.Library.KeyedList

/-!
# Pane trees and group trees

A terminal tab divides its area between panes, a workspace between groups.  The two
trees are edited alike; each operation is stated by the leaves it leaves behind.
-/

namespace OxeeUI.Layout

open OxeeUI.Library SplitTree

variable {tree : SplitTree String SplitLabel}

/-! ## Panes -/

def layoutContainsLeafId (node : Option TerminalPaneLayoutNode) (leafId : String) : Bool :=
  match node with
  | none => false
  | some node => node.holds leafId

theorem layoutContainsLeafId_iff {node : Option TerminalPaneLayoutNode} {leafId : String} :
    layoutContainsLeafId node leafId = true ↔ leafId ∈ leavesOf node := by
  cases node with
  | none => simp [layoutContainsLeafId]
  | some node => exact holds_iff

def removeLayoutLeaf (node : Option TerminalPaneLayoutNode) (leafId : String) :
    Option TerminalPaneLayoutNode :=
  node.bind fun node => node.keep (· ≠ leafId)

theorem leavesOf_removeLayoutLeaf (node : Option TerminalPaneLayoutNode) (leafId : String) :
    leavesOf (removeLayoutLeaf node leafId) = (leavesOf node).filter (· ≠ leafId) := by
  cases node with
  | none => rfl
  | some node => exact leavesOf_keep _ node

inductive PaneSide where
  | left
  | right
  | top
  | bottom
deriving DecidableEq

/-- The split that holds an old pane and a new one, the new one first on the left and top. -/
def paneSplit (targetLeafId newLeafId : String) (side : PaneSide) (ratio : Option Rat) :
    TerminalPaneLayoutNode :=
  let label : SplitLabel := ⟨if side = .left ∨ side = .right then .vertical else .horizontal, ratio⟩
  if side = .left ∨ side = .top then .split label (.leaf newLeafId) (.leaf targetLeafId)
  else .split label (.leaf targetLeafId) (.leaf newLeafId)

def insertLeafBeside (node : TerminalPaneLayoutNode) (targetLeafId newLeafId : String)
    (side : PaneSide) (ratio : Option Rat) : TerminalPaneLayoutNode :=
  substitute targetLeafId (paneSplit targetLeafId newLeafId side ratio) node

theorem leaves_paneSplit (targetLeafId newLeafId : String) (side : PaneSide)
    (ratio : Option Rat) :
    (paneSplit targetLeafId newLeafId side ratio).leaves.Perm [newLeafId, targetLeafId] := by
  by_cases leads : side = .left ∨ side = .top
  · simp only [paneSplit, if_pos leads, leaves_split, leaves_leaf]
    exact List.Perm.refl _
  · simp only [paneSplit, if_neg leads, leaves_split, leaves_leaf]
    exact List.Perm.swap ..

theorem leaves_insertLeafBeside {node : TerminalPaneLayoutNode}
    {targetLeafId newLeafId : String} {side : PaneSide} {ratio : Option Rat}
    (distinct : node.leaves.Nodup) (member : targetLeafId ∈ node.leaves) :
    (insertLeafBeside node targetLeafId newLeafId side ratio).leaves.Perm
      (newLeafId :: node.leaves) := by
  unfold insertLeafBeside
  refine (leaves_substitute_perm distinct member).trans ?_
  refine ((leaves_paneSplit ..).append_right _).trans ?_
  exact (List.perm_cons_erase member).symm.cons newLeafId

/-- `samePanesIgnoringRatios`, and for groups `sameGroupsIgnoringRatios`. -/
def sameIgnoringRatios : (left right : SplitTree String SplitLabel) → Bool
  | .leaf left, .leaf right => left = right
  | .split left first second, .split right first' second' =>
    left.direction = right.direction && sameIgnoringRatios first first' &&
      sameIgnoringRatios second second'
  | _, _ => false

theorem leaves_eq_of_sameIgnoringRatios {left right : SplitTree String SplitLabel}
    (same : sameIgnoringRatios left right = true) : right.leaves = left.leaves := by
  induction left generalizing right with
  | leaf id =>
    cases right with
    | leaf other => simpa [sameIgnoringRatios, eq_comm] using same
    | split label first second => simp [sameIgnoringRatios] at same
  | split label first second firstIH secondIH =>
    cases right with
    | leaf other => simp [sameIgnoringRatios] at same
    | split label' first' second' =>
      simp only [sameIgnoringRatios, Bool.and_eq_true] at same
      rw [leaves_split, leaves_split, firstIH same.1.2, secondIH same.2]

def samePanesIgnoringRatios (left right : TerminalPaneLayoutNode) : Bool :=
  sameIgnoringRatios left right

def sameGroupsIgnoringRatios (left right : TabGroupLayoutNode) : Bool :=
  sameIgnoringRatios left right

def equalizeWeight (direction : SplitDirection) : TerminalPaneLayoutNode → Nat
  | .leaf _ => 1
  | .split label first second =>
    if label.direction = direction then
      equalizeWeight direction first + equalizeWeight direction second
    else 1

/-- `SPLIT_RATIO_TOLERANCE`: a ratio this close to an even split is saved as none. -/
def splitRatioTolerance : Rat := 5 / 1000

def savedRatio (ratio : Rat) : Option Rat :=
  if ratio - 1 / 2 > splitRatioTolerance ∨ 1 / 2 - ratio > splitRatioTolerance then some ratio
  else none

/-- `Math.round(ratio * 1000) / 1000`. -/
def roundedRatio (ratio : Rat) : Rat := ((ratio * 1000 + 1 / 2).floor : Rat) / 1000

/-- Same-axis panes get equal shares, so three side by side become thirds. -/
def equalizeLayout : TerminalPaneLayoutNode → TerminalPaneLayoutNode
  | .leaf id => .leaf id
  | .split label first second =>
    let weight := equalizeWeight label.direction first
    let ratio : Rat := (weight : Rat) /
      ((weight + equalizeWeight label.direction second : Nat) : Rat)
    .split ⟨label.direction, (savedRatio ratio).map roundedRatio⟩ (equalizeLayout first)
      (equalizeLayout second)

@[simp]
theorem leaves_equalizeLayout (node : TerminalPaneLayoutNode) :
    (equalizeLayout node).leaves = node.leaves := by
  induction node with
  | leaf id => rfl
  | split label first second firstIH secondIH => simp [equalizeLayout, firstIH, secondIH]

/-! ## Divider ratios -/

/-- A split by its direction and the first pane (or group) on each side. -/
structure SplitIdentity where
  direction : SplitDirection
  first : String
  second : String
deriving DecidableEq

structure SplitRatioIntent where
  path : String
  ratio : Rat
  split : Option SplitIdentity

def segmentsOf (path : String) : List (List Char) :=
  if path = "" then [] else splitOnChar '.' path.toList

/-- An older window's intent names no split; it is taken at its path. -/
def isSplitMeant (label : SplitLabel) (first second : SplitTree String SplitLabel)
    (meant : Option SplitIdentity) : Bool :=
  match meant with
  | none => true
  | some meant =>
    decide (meant = ⟨label.direction, first.leading, second.leading⟩)

/-- Change the ratio of the split at a path, when it is the one that was meant. -/
def withRatio (saved : Rat → Option Rat) (intent : SplitRatioIntent) :
    List (List Char) → SplitTree String SplitLabel → Option (SplitTree String SplitLabel)
  | _, .leaf _ => none
  | [], .split label first second =>
    if isSplitMeant label first second intent.split then
      some (.split ⟨label.direction, saved intent.ratio⟩ first second)
    else none
  | segment :: rest, .split label first second =>
    if segment = "first".toList then
      (withRatio saved intent rest first).map fun first => .split label first second
    else if segment = "second".toList then
      (withRatio saved intent rest second).map fun second => .split label first second
    else none

theorem leaves_withRatio {saved : Rat → Option Rat} {intent : SplitRatioIntent}
    {segments : List (List Char)} {next : SplitTree String SplitLabel}
    (changed : withRatio saved intent segments tree = some next) :
    next.leaves = tree.leaves := by
  induction tree generalizing segments next with
  | leaf id => cases segments <;> cases changed
  | split label first second firstIH secondIH =>
    cases segments with
    | nil =>
      simp only [withRatio, Option.ite_none_right_eq_some] at changed
      cases changed.2
      rfl
    | cons segment rest =>
      unfold withRatio at changed
      split at changed
      · obtain ⟨inner, found, rfl⟩ := Option.map_eq_some_iff.mp changed
        rw [leaves_split, leaves_split, firstIH found]
      · simp only [Option.ite_none_right_eq_some] at changed
        obtain ⟨inner, found, rfl⟩ := Option.map_eq_some_iff.mp changed.2
        rw [leaves_split, leaves_split, secondIH found]

/-- Apply the intents in order; every path must resolve to its intended split. -/
def withSplitRatios (saved : Rat → Option Rat) (root : SplitTree String SplitLabel)
    (ratios : List SplitRatioIntent) : Option (SplitTree String SplitLabel) :=
  ratios.foldlM (fun next intent => withRatio saved intent (segmentsOf intent.path) next) root

theorem leaves_withSplitRatios {saved : Rat → Option Rat} {ratios : List SplitRatioIntent}
    {next : SplitTree String SplitLabel} (changed : withSplitRatios saved tree ratios = some next) :
    next.leaves = tree.leaves := by
  induction ratios generalizing tree with
  | nil =>
    cases changed
    rfl
  | cons intent rest ih =>
    simp only [withSplitRatios, List.foldlM_cons, Option.bind_eq_bind,
      Option.bind_eq_some_iff] at changed
    obtain ⟨middle, first, later⟩ := changed
    exact (ih later).trans (leaves_withRatio first)

/-- Pane ratios are saved as the window saves them. -/
def withPaneSplitRatios (root : TerminalPaneLayoutNode) (ratios : List SplitRatioIntent) :
    Option TerminalPaneLayoutNode :=
  withSplitRatios savedRatio root ratios

def withGroupSplitRatios (root : TabGroupLayoutNode) (ratios : List SplitRatioIntent) :
    Option TabGroupLayoutNode :=
  withSplitRatios some root ratios

/-! ## Groups -/

inductive GroupSide where
  | left
  | right
  | up
  | down
deriving DecidableEq

/-- The direction of a split that puts something on a side. -/
def GroupSide.direction (side : GroupSide) : SplitDirection :=
  if side = .left ∨ side = .right then .horizontal else .vertical

def GroupSide.leads (side : GroupSide) : Bool := side = .left ∨ side = .up

/-- An even split of two areas, the added one on a side of the other. -/
def splitBeside (existing added : TabGroupLayoutNode) (side : GroupSide) : TabGroupLayoutNode :=
  if side.leads then .split ⟨side.direction, some (1 / 2)⟩ added existing
  else .split ⟨side.direction, some (1 / 2)⟩ existing added

/-- `buildSplitNode`, with the direction and the position its callers take from a side. -/
def buildSplitNode (existingGroupId newGroupId : String) (side : GroupSide) :
    TabGroupLayoutNode :=
  splitBeside (.leaf existingGroupId) (.leaf newGroupId) side

theorem leaves_splitBeside (existing added : TabGroupLayoutNode) (side : GroupSide) :
    (splitBeside existing added side).leaves.Perm (added.leaves ++ existing.leaves) := by
  unfold splitBeside
  split
  · exact List.Perm.refl _
  · exact List.perm_append_comm

def replaceLeaf (root : TabGroupLayoutNode) (targetGroupId : String)
    (replacement : TabGroupLayoutNode) : TabGroupLayoutNode :=
  substitute targetGroupId replacement root

theorem leaves_replaceLeaf_split {root : TabGroupLayoutNode} {beside added : String}
    {side : GroupSide} (distinct : root.leaves.Nodup) (member : beside ∈ root.leaves) :
    (replaceLeaf root beside (buildSplitNode beside added side)).leaves.Perm
      (added :: root.leaves) := by
  unfold replaceLeaf buildSplitNode
  refine (leaves_substitute_perm distinct member).trans ?_
  refine ((leaves_splitBeside ..).append_right _).trans ?_
  exact (List.perm_cons_erase member).symm.cons added

def removeGroupLayoutLeaf (root : TabGroupLayoutNode) (targetGroupId : String) :
    Option TabGroupLayoutNode :=
  root.removeLeaf targetGroupId

/-- Moves an existing group's leaf to a side of another group; the moved group keeps its id. -/
def moveGroupLeafBeside (root : TabGroupLayoutNode) (groupId besideGroupId : String)
    (side : GroupSide) : TabGroupLayoutNode :=
  let rest := (removeGroupLayoutLeaf root groupId).getD (.leaf besideGroupId)
  replaceLeaf rest besideGroupId (buildSplitNode besideGroupId groupId side)

theorem leaves_moveGroupLeafBeside {root : TabGroupLayoutNode} {groupId beside : String}
    {side : GroupSide} (distinct : root.leaves.Nodup) (moved : groupId ∈ root.leaves)
    (member : beside ∈ root.leaves) (different : groupId ≠ beside) :
    (moveGroupLeafBeside root groupId beside side).leaves.Perm root.leaves := by
  have leaves := leavesOf_removeLeaf groupId distinct
  have stays : beside ∈ root.leaves.filter (· ≠ groupId) :=
    List.mem_filter.mpr ⟨member, decide_eq_true different.symm⟩
  unfold moveGroupLeafBeside removeGroupLayoutLeaf
  cases rest : root.removeLeaf groupId with
  | none =>
    rw [rest, leavesOf_none] at leaves
    rw [← leaves] at stays
    cases stays
  | some rest' =>
    rw [rest, leavesOf_some] at leaves
    rw [Option.getD_some]
    refine (leaves_replaceLeaf_split (leaves ▸ distinct.filter _) (leaves ▸ stays)).trans ?_
    rw [leaves, filter_ne_eq_erase distinct]
    exact (List.perm_cons_erase moved).symm

/-- Put a leaf beside the smallest branch that holds two groups. -/
def besideBranch (leaf : TabGroupLayoutNode) (fromGroupId toGroupId : String)
    (side : GroupSide) (node : TabGroupLayoutNode) : Option TabGroupLayoutNode :=
  if !node.holds fromGroupId || !node.holds toGroupId then none
  else
    match node with
    | .leaf id => some (splitBeside (.leaf id) leaf side)
    | .split label first second =>
      match besideBranch leaf fromGroupId toGroupId side first with
      | some first => some (.split label first second)
      | none =>
        match besideBranch leaf fromGroupId toGroupId side second with
        | some second => some (.split label first second)
        | none => some (splitBeside (.split label first second) leaf side)

theorem leaves_besideBranch {leaf node next : TabGroupLayoutNode} {fromId toId : String}
    {side : GroupSide} (placed : besideBranch leaf fromId toId side node = some next) :
    next.leaves.Perm (leaf.leaves ++ node.leaves) := by
  induction node generalizing next with
  | leaf id =>
    simp only [besideBranch, Option.ite_none_left_eq_some] at placed
    cases placed.2
    exact leaves_splitBeside ..
  | split label first second firstIH secondIH =>
    simp only [besideBranch, Option.ite_none_left_eq_some] at placed
    have placed := placed.2
    cases inFirst : besideBranch leaf fromId toId side first with
    | some first' =>
      rw [inFirst] at placed
      cases placed
      have inner := (firstIH inFirst).append_right second.leaves
      simpa using inner
    | none =>
      rw [inFirst] at placed
      cases inSecond : besideBranch leaf fromId toId side second with
      | some second' =>
        rw [inSecond] at placed
        cases placed
        refine ((secondIH inSecond).append_left first.leaves).trans ?_
        rw [leaves_split, ← List.append_assoc, ← List.append_assoc]
        exact List.perm_append_comm.append_right _
      | none =>
        rw [inSecond] at placed
        cases placed
        exact leaves_splitBeside ..

/-- Beside the smallest branch containing both groups; none if no branch contains both. -/
def moveGroupLeafBesideBranch (root : TabGroupLayoutNode)
    (groupId fromGroupId toGroupId : String) (side : GroupSide) : Option TabGroupLayoutNode :=
  (removeGroupLayoutLeaf root groupId).bind
    (besideBranch (.leaf groupId) fromGroupId toGroupId side)

theorem leaves_moveGroupLeafBesideBranch {root next : TabGroupLayoutNode}
    {groupId fromId toId : String} {side : GroupSide} (distinct : root.leaves.Nodup)
    (fresh : groupId ∉ root.leaves)
    (placed : moveGroupLeafBesideBranch root groupId fromId toId side = some next) :
    next.leaves.Perm (groupId :: root.leaves) := by
  obtain ⟨rest, removed, beside⟩ := Option.bind_eq_some_iff.mp placed
  have leaves := leavesOf_removeLeaf groupId distinct
  rw [show root.removeLeaf groupId = some rest from removed, leavesOf_some,
    List.filter_eq_self.mpr] at leaves
  · simpa [leaves] using leaves_besideBranch beside
  · exact fun id member => decide_eq_true fun same => fresh (same ▸ member)

/-- `removeTabGroupLayoutLeaf` for every listed group that is gone. -/
def pruneDeadGroups (layout : Option TabGroupLayoutNode) (live : List String) :
    Option TabGroupLayoutNode :=
  (leavesOf layout).eraseDups.foldl
    (fun layout groupId =>
      if groupId ∈ live then layout else layout.bind fun node => node.keep (· ≠ groupId))
    layout

theorem leavesOf_pruneDeadGroups (layout : Option TabGroupLayoutNode) (live : List String) :
    leavesOf (pruneDeadGroups layout live) = (leavesOf layout).filter (· ∈ live) := by
  have fold : ∀ (ids : List String) (current : Option TabGroupLayoutNode),
      leavesOf (ids.foldl
        (fun layout groupId =>
          if groupId ∈ live then layout else layout.bind fun node => node.keep (· ≠ groupId))
        current) =
      (leavesOf current).filter fun id => id ∈ live ∨ id ∉ ids := by
    intro ids
    induction ids with
    | nil => simp
    | cons groupId rest ih =>
      intro current
      rw [List.foldl_cons, ih]
      split
      case isTrue alive =>
        refine List.filter_congr fun id member => ?_
        by_cases same : id = groupId <;> simp [same, alive]
      case isFalse dead =>
        rw [show leavesOf (current.bind fun node => node.keep (· ≠ groupId)) =
          (leavesOf current).filter (· ≠ groupId) from leavesOf_removeLayoutLeaf current groupId,
          List.filter_filter]
        refine List.filter_congr fun id member => ?_
        by_cases same : id = groupId <;> simp [same, dead]
  rw [pruneDeadGroups, fold]
  refine List.filter_congr fun id member => ?_
  simp [member]

end OxeeUI.Layout
