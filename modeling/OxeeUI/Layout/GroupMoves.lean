import OxeeUI.Layout.ContentCommands
import OxeeUI.Layout.GroupSteps

/-!
# Moving tabs between groups

A move empties its source or not, a split adds a group, and an open may begin with a
group that is empty until its tab is placed.
-/

namespace OxeeUI.Layout

open OxeeUI.Library SplitTree

variable {holes : List String} {workspace next : WorkspaceLayout}

/-! ## Within the groups -/

theorem insertTabAt_perm_self {order : List String} {tabId : String} {index : Int}
    (distinct : order.Nodup) (member : tabId ∈ order) :
    (insertTabAt order tabId index).Perm order := by
  refine (insertTabAt_perm order tabId index).trans ?_
  rw [filter_ne_eq_erase distinct]
  exact (List.perm_cons_erase member).symm

theorem GroupsHoldTabs.insertWithin (holds : GroupsHoldTabs holes workspace)
    {source : LayoutGroup} {tabId : String} {index : Int} (member : source ∈ workspace.groups)
    (lists : tabId ∈ source.tabOrder) :
    GroupsHoldTabs holes
      { workspace with
        groups := workspace.groups.map fun group =>
          if group.id = source.id then
            { group with tabOrder := insertTabAt source.tabOrder tabId index }
          else group } := by
  refine holds.reorder rfl rfl rfl ?_ ?_
  · intro group _
    by_cases same : group.id = source.id <;> simp [same]
  · intro group stored
    by_cases same : group.id = source.id
    · rw [if_pos same, holds.group_ext stored member same]
      exact insertTabAt_perm_self (holds.order_nodup member) lists
    · rw [if_neg same]

theorem GroupsHoldTabs.repin (holds : GroupsHoldTabs holes workspace) (tabs : List LayoutTab)
    (tabId : String) :
    GroupsHoldTabs holes
      { workspace with
        groups := workspace.groups.map fun group =>
          if tabId ∈ group.tabOrder then
            { group with tabOrder := partitionPinnedTabOrder group.tabOrder tabs tabId }
          else group } := by
  refine holds.reorder rfl rfl rfl ?_ ?_
  · intro group _
    by_cases lists : tabId ∈ group.tabOrder <;> simp [lists]
  · intro group member
    by_cases lists : tabId ∈ group.tabOrder
    · rw [if_pos lists]
      exact partitionPinnedTabOrder_perm (holds.order_nodup member) lists
    · rw [if_neg lists]

theorem GroupsHoldTabs.renamed (holds : GroupsHoldTabs holes workspace) {rename : String → String}
    (tabIds : next.tabIds = workspace.tabIds.map rename) (distinct : next.tabIds.Nodup)
    (groups : next.groups = workspace.groups.map fun group =>
      { group with tabOrder := group.tabOrder.map rename })
    (groupLayout : next.groupLayout = workspace.groupLayout) : GroupsHoldTabs holes next := by
  refine holds.withGroups groups groupLayout (fun _ _ => rfl) ?_ distinct ?_
  · intro group _ empty
    exact List.map_eq_nil_iff.mp empty
  · rw [tabIds, listedIn, List.flatMap_map]
    have listed := holds.listed.map rename
    rwa [List.map_flatMap] at listed

/-! ## From one group to another -/

/-- Closing the groups that list nothing keeps the others and their places in the tree. -/
theorem groupsHoldTabs_pruneGroups {groups : List LayoutGroup}
    {layout : Option TabGroupLayoutNode} (distinct : workspace.tabIds.Nodup)
    (listed : (listedIn groups).Perm workspace.tabIds)
    (tree : TreeHoldsGroups layout (groups.map LayoutGroup.id)) :
    GroupsHoldTabs holes
      { workspace with
        groups := (pruneGroups groups layout).1
        groupLayout := (pruneGroups groups layout).2 } where
  distinct := distinct
  listed := by
    have empties : ∀ group ∈ groups.filter fun group => !decide (group.tabOrder ≠ []),
        group.tabOrder = [] := by
      intro group member
      simpa using (List.mem_filter.mp member).2
    have all := (List.filter_append_perm (fun group : LayoutGroup => decide (group.tabOrder ≠ []))
      groups).flatMap_right LayoutGroup.tabOrder
    rw [List.flatMap_append, List.flatMap_eq_nil_iff.mpr empties, List.append_nil] at all
    exact all.trans listed
  filled := by
    intro group member empty
    exact absurd empty (of_decide_eq_true (List.mem_filter.mp member).2)
  tree := by
    have live : (groups.map LayoutGroup.id).filter
          (· ∈ (groups.filter (·.tabOrder ≠ [])).map LayoutGroup.id) =
        (groups.filter (·.tabOrder ≠ [])).map LayoutGroup.id := by
      rw [List.filter_map]
      refine congrArg (List.map LayoutGroup.id) (List.filter_congr fun group member => ?_)
      exact decide_eq_decide.mpr
        ((mem_keys_filter_iff tree.nodup member).trans decide_eq_true_iff)
    have pruned := tree.filter
      (· ∈ (groups.filter (·.tabOrder ≠ [])).map LayoutGroup.id) (leavesOf_pruneDeadGroups ..)
    rwa [live] at pruned

theorem map_movedGroup (holds : GroupsHoldTabs holes workspace) {args : HeadlessTabGroupMove}
    {source target : LayoutGroup} (stored : source ∈ workspace.groups)
    (lists : args.tabId ∈ source.tabOrder) (member : target ∈ workspace.groups)
    (named : target.id = args.targetGroupId) (apart : source.id ≠ args.targetGroupId) :
    workspace.groups.map (movedGroup args source) =
      (workspace.groups.map (·.without args.tabId)).map fun entry =>
        if entry.id = (target.without args.tabId).id then
          { target.without args.tabId with
            tabOrder := insertTabAt target.tabOrder args.tabId args.index }
        else entry := by
  rw [List.map_map]
  refine List.map_congr_left fun group inside => ?_
  show movedGroup args source group = if group.id = target.id then _ else _
  unfold movedGroup
  by_cases here : group.id = source.id
  · rw [if_pos here, if_neg (by rw [here, named]; exact apart)]
  · rw [if_neg here, named]
    by_cases there : group.id = args.targetGroupId
    · obtain rfl := holds.group_ext inside member (there.trans named.symm)
      rw [if_pos there, if_pos there]
      rfl
    · rw [if_neg there, if_neg there]
      refine (LayoutGroup.without_of_not_mem fun listed => here ?_).symm
      exact congrArg LayoutGroup.id (holds.group_of_tab inside stored listed lists)

theorem GroupsHoldTabs.moveBetween (holds : GroupsHoldTabs holes workspace) {tabId target : String}
    {index : Int} {moved : List LayoutGroup × Option TabGroupLayoutNode}
    (built : buildHeadlessTabGroupMove
      ⟨workspace.groups, workspace.groupLayout, tabId, target, index⟩ = some moved) :
    GroupsHoldTabs holes { workspace with groups := moved.1, groupLayout := moved.2 } := by
  unfold buildHeadlessTabGroupMove at built
  split at built
  case h_2 => cases built
  case h_1 source target' found named =>
    obtain ⟨apart, built⟩ := Option.ite_none_left_eq_some.mp built
    cases built
    have stored := List.mem_of_find?_eq_some found
    have lists : tabId ∈ source.tabOrder := by simpa using List.find?_some found
    have member := List.mem_of_find?_eq_some named
    have moved := map_movedGroup holds stored lists member
      (by simpa using List.find?_some named) apart
    refine groupsHoldTabs_pruneGroups holds.distinct ?_ ?_
    · rw [moved]
      have ids : ((workspace.groups.map (·.without tabId)).map LayoutGroup.id).Nodup := by
        rw [List.map_map]
        exact holds.groupIds_nodup
      have order : (insertTabAt target'.tabOrder tabId index).Perm
          ([tabId] ++ (target'.without tabId).tabOrder) := insertTabAt_perm ..
      refine (listedIn_replace ids (List.mem_map_of_mem member) order).trans ?_
      have listed : tabId ∈ listedIn workspace.groups :=
        List.mem_flatMap.mpr ⟨source, stored, lists⟩
      rw [listedIn_without, filter_ne_eq_erase holds.listed_nodup]
      exact (List.perm_cons_erase listed).symm.trans holds.listed
    · have ids : (workspace.groups.map (movedGroup
          ⟨workspace.groups, workspace.groupLayout, tabId, target, index⟩ source)).map
            LayoutGroup.id = workspace.groupIds := by
        rw [List.map_map]
        refine List.map_congr_left fun group _ => ?_
        rw [Function.comp_apply, movedGroup]
        split
        · rfl
        · split <;> rfl
      rw [ids]
      exact holds.tree

theorem some_getD_pruneGroups {groups : List LayoutGroup} {tree : TabGroupLayoutNode}
    {added : LayoutGroup} {other : TabGroupLayoutNode} (lists : added.tabOrder ≠ [])
    (member : added ∈ groups) (placed : added.id ∈ tree.leaves) :
    some ((pruneGroups groups (some tree)).2.getD other) = (pruneGroups groups (some tree)).2 := by
  cases pruned : (pruneGroups groups (some tree)).2 with
  | some node => rfl
  | none =>
    have leaves := leavesOf_pruneDeadGroups (some tree)
      ((groups.filter (·.tabOrder ≠ [])).map LayoutGroup.id)
    rw [show pruneDeadGroups _ _ = none from pruned] at leaves
    have stays : added.id ∈ tree.leaves.filter
        (· ∈ (groups.filter (·.tabOrder ≠ [])).map LayoutGroup.id) := by
      refine List.mem_filter.mpr ⟨placed, decide_eq_true ?_⟩
      exact List.mem_map_of_mem (List.mem_filter.mpr ⟨member, decide_eq_true lists⟩)
    rw [← leavesOf_some, ← leaves] at stays
    cases stays

theorem GroupsHoldTabs.divide (holds : GroupsHoldTabs holes workspace)
    {tabId beside newGroupId : String} {side : GroupSide}
    {divided : List LayoutGroup × TabGroupLayoutNode} (held : beside ∈ workspace.groupIds)
    (fresh : newGroupId ∉ workspace.groupIds)
    (built : buildHeadlessTabGroupSplit
      ⟨workspace.groups, workspace.groupLayout, tabId, beside, side, newGroupId⟩ = some divided) :
    GroupsHoldTabs holes
      { workspace with groups := divided.1, groupLayout := some divided.2 } := by
  unfold buildHeadlessTabGroupSplit at built
  split at built
  case h_1 => cases built
  case h_2 source found =>
    simp only [Option.ite_none_left_eq_some, Option.some.injEq] at built
    obtain ⟨_, rfl⟩ := built
    have stored := List.mem_of_find?_eq_some found
    have lists : tabId ∈ source.tabOrder := by simpa using List.find?_some found
    have left : (workspace.groups.map fun group =>
        if group.id = source.id then { group with tabOrder := (source.without tabId).tabOrder }
        else group) = workspace.groups.map (·.without tabId) := by
      refine List.map_congr_left fun group inside => ?_
      by_cases same : group.id = source.id
      · obtain rfl := holds.group_ext inside stored same
        rw [if_pos rfl]
        rfl
      · rw [if_neg same]
        refine (LayoutGroup.without_of_not_mem fun listed => same ?_).symm
        exact congrArg LayoutGroup.id (holds.group_of_tab inside stored listed lists)
    let added : LayoutGroup := ⟨newGroupId, [tabId]⟩
    let groups : List LayoutGroup := workspace.groups.map (·.without tabId) ++ [added]
    have ids : groups.map LayoutGroup.id = workspace.groupIds ++ [newGroupId] := by
      rw [List.map_append, List.map_map]
      rfl
    have tree : TreeHoldsGroups
        (some (replaceLeaf (workspace.groupLayout.getD (.leaf beside)) beside
          (buildSplitNode beside newGroupId side)))
        (workspace.groupIds ++ [newGroupId]) := by
      have root := holds.tree.getD_leaf held
      refine ⟨?_, holds.groupIds_nodup.append (List.nodup_singleton _) (by simpa using fresh)⟩
      refine (leaves_replaceLeaf_split (root.nodup_iff.mpr holds.groupIds_nodup)
        (root.mem_iff.mpr held)).trans ?_
      exact (root.cons newGroupId).trans (List.perm_append_singleton ..).symm
    have listed : (listedIn groups).Perm workspace.tabIds := by
      have member : tabId ∈ listedIn workspace.groups :=
        List.mem_flatMap.mpr ⟨source, stored, lists⟩
      rw [listedIn, List.flatMap_append]
      show (listedIn (workspace.groups.map (·.without tabId)) ++ [tabId]).Perm _
      rw [listedIn_without, filter_ne_eq_erase holds.listed_nodup]
      refine (List.perm_append_singleton ..).trans ?_
      exact (List.perm_cons_erase member).symm.trans holds.listed
    simp only [left]
    have member : added ∈ groups := List.mem_append_right _ (List.mem_singleton_self added)
    have placed : added.id ∈ (replaceLeaf (workspace.groupLayout.getD (.leaf beside)) beside
        (buildSplitNode beside newGroupId side)).leaves :=
      tree.1.mem_iff.mpr (List.mem_append_right _ (List.mem_singleton_self newGroupId))
    rw [some_getD_pruneGroups (List.cons_ne_nil tabId []) member placed]
    exact groupsHoldTabs_pruneGroups holds.distinct listed (ids ▸ tree)

theorem GroupsHoldTabs.moveBeside (holds : GroupsHoldTabs holes workspace)
    {groupId beside : String} {side : GroupSide} (moved : groupId ∈ workspace.groupIds)
    (held : beside ∈ workspace.groupIds) (different : groupId ≠ beside) :
    GroupsHoldTabs holes
      { workspace with
        groupLayout := some (moveGroupLeafBeside (workspace.groupLayout.getD (.leaf groupId))
          groupId beside side) } := by
  have root := holds.tree.getD_leaf moved
  refine holds.withLayout ?_
  refine (leaves_moveGroupLeafBeside (root.nodup_iff.mpr holds.groupIds_nodup)
    (root.mem_iff.mpr moved) (root.mem_iff.mpr held) different).trans root

/-! ## A group for the tab to come -/

theorem GroupsHoldTabs.besideNewGroup (holds : GroupsHoldTabs holes workspace)
    {groupId : String} {split : NewGroupSplit} (fresh : groupId ∉ workspace.groupIds)
    (created : besideNewGroup workspace groupId split = .ok next) :
    GroupsHoldTabs (groupId :: holes) next := by
  have withGroup : ∀ layout,
      TreeHoldsGroups layout (workspace.groupIds ++ [groupId]) →
      GroupsHoldTabs (groupId :: holes)
        { workspace with groups := workspace.groups ++ [⟨groupId, []⟩], groupLayout := layout } := by
    intro layout tree
    refine ⟨holds.distinct, ?_, ?_, ?_⟩
    · rw [List.flatMap_append, List.flatMap_singleton, List.append_nil]
      exact holds.listed
    · intro group member empty
      rcases List.mem_append.mp member with held | added
      · exact List.mem_cons_of_mem _ (holds.filled group held empty)
      · rw [List.mem_singleton.mp added]
        exact List.mem_cons_self
    · simpa [WorkspaceLayout.groupIds] using tree
  unfold Layout.besideNewGroup at created
  simp only at created
  split at created
  case isTrue beside =>
    split at created
    case h_1 => cases created
    case h_2 layout placed =>
      cases created
      refine withGroup _ ?_
      have held : split.besideGroupId ∈ workspace.groupIds := by
        have beside := List.all_eq_true.mp beside split.besideGroupId List.mem_cons_self
        simpa [WorkspaceLayout.groupIds] using beside
      have root := holds.tree.getD_leaf held
      have perm := leaves_moveGroupLeafBesideBranch (root.nodup_iff.mpr holds.groupIds_nodup)
        (mt root.mem_iff.mp fresh) placed
      refine ⟨?_, holds.groupIds_nodup.append (List.nodup_singleton _) (by simpa using fresh)⟩
      exact (perm.trans (root.cons groupId)).trans (List.perm_append_singleton ..).symm
  case isFalse =>
    split at created
    case isTrue => cases created
    case isFalse empty =>
      cases created
      refine withGroup _ ?_
      have none : workspace.groups = [] := not_not.mp empty
      have tree := holds.tree
      rw [WorkspaceLayout.groupIds, none] at tree ⊢
      rw [tree.none_of_nil]
      exact le_rfl

theorem GroupsHoldTabs.close {groupId : String}
    (holds : GroupsHoldTabs (groupId :: holes) workspace) {group : LayoutGroup}
    (member : group ∈ workspace.groups) (named : group.id = groupId)
    (filled : group.tabOrder ≠ []) : GroupsHoldTabs holes workspace where
  distinct := holds.distinct
  listed := holds.listed
  filled := by
    intro other stored empty
    refine (List.mem_cons.mp (holds.filled other stored empty)).resolve_left fun same => ?_
    exact filled (holds.group_ext stored member (same.trans named.symm) ▸ empty)
  tree := holds.tree

end OxeeUI.Layout
