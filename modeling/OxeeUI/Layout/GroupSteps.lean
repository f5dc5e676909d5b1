import OxeeUI.Layout.Rules

/-!
# What the group steps keep

Reordering, placing, removing and moving a tab, and dividing a group: each leaves every
tab listed once, no group empty, and a tree of exactly the groups.
-/

namespace OxeeUI.Layout

open OxeeUI.Library SplitTree

abbrev listedIn (groups : List LayoutGroup) : List String := groups.flatMap LayoutGroup.tabOrder

variable {holes : List String} {workspace next : WorkspaceLayout}

namespace GroupsHoldTabs

theorem congr (holds : GroupsHoldTabs holes workspace) (tabIds : next.tabIds = workspace.tabIds)
    (groups : next.groups = workspace.groups)
    (groupLayout : next.groupLayout = workspace.groupLayout) : GroupsHoldTabs holes next where
  distinct := tabIds ▸ holds.distinct
  listed := by
    rw [groups, tabIds]
    exact holds.listed
  filled := groups ▸ holds.filled
  tree := by
    unfold WorkspaceLayout.groupIds
    rw [groups, groupLayout]
    exact holds.tree

theorem withLayout (holds : GroupsHoldTabs holes workspace) {layout : TabGroupLayoutNode}
    (leaves : layout.leaves.Perm workspace.groupIds) :
    GroupsHoldTabs holes { workspace with groupLayout := some layout } where
  distinct := holds.distinct
  listed := holds.listed
  filled := holds.filled
  tree := ⟨leaves, holds.groupIds_nodup⟩

theorem withGroups (holds : GroupsHoldTabs holes workspace) {change : LayoutGroup → LayoutGroup}
    (groups : next.groups = workspace.groups.map change)
    (groupLayout : next.groupLayout = workspace.groupLayout)
    (ids : ∀ group ∈ workspace.groups, (change group).id = group.id)
    (filled : ∀ group ∈ workspace.groups, (change group).tabOrder = [] → group.tabOrder = [])
    (distinct : next.tabIds.Nodup)
    (listed : (listedIn (workspace.groups.map change)).Perm next.tabIds) :
    GroupsHoldTabs holes next where
  distinct := distinct
  listed := groups ▸ listed
  filled := by
    rw [groups]
    intro group member empty
    obtain ⟨origin, stored, rfl⟩ := List.mem_map.mp member
    rw [ids origin stored]
    exact holds.filled origin stored (filled origin stored empty)
  tree := by
    have sameIds : next.groupIds = workspace.groupIds := by
      unfold WorkspaceLayout.groupIds
      rw [groups, List.map_map]
      exact List.map_congr_left ids
    rw [sameIds, groupLayout]
    exact holds.tree

theorem reorder (holds : GroupsHoldTabs holes workspace) {change : LayoutGroup → LayoutGroup}
    (tabIds : next.tabIds = workspace.tabIds)
    (groups : next.groups = workspace.groups.map change)
    (groupLayout : next.groupLayout = workspace.groupLayout)
    (ids : ∀ group ∈ workspace.groups, (change group).id = group.id)
    (orders : ∀ group ∈ workspace.groups, (change group).tabOrder.Perm group.tabOrder) :
    GroupsHoldTabs holes next := by
  refine holds.withGroups groups groupLayout ids ?_ (tabIds ▸ holds.distinct) ?_
  · intro group member empty
    exact (empty ▸ orders group member).symm.eq_nil
  · rw [tabIds, listedIn, List.flatMap_map]
    exact (List.Perm.flatMap_left _ orders).trans holds.listed

end GroupsHoldTabs

/-! ## Placing -/

theorem listedIn_replace {groups : List LayoutGroup} {group : LayoutGroup}
    {order added : List String} (distinct : (groups.map LayoutGroup.id).Nodup)
    (member : group ∈ groups) (perm : order.Perm (added ++ group.tabOrder)) :
    (listedIn (groups.map fun entry =>
      if entry.id = group.id then { group with tabOrder := order } else entry)).Perm
      (added ++ listedIn groups) := by
  have perm' : ([] ++ LayoutGroup.tabOrder { group with tabOrder := order }).Perm
      (added ++ group.tabOrder) := perm
  exact flatMap_replace_perm LayoutGroup.tabOrder distinct member perm'

section Placing

variable {tab : LayoutTab} {group : LayoutGroup}

/-- One more tab, listed by one of the groups, or by the first group there is. -/
structure PlacedTab (tab : LayoutTab) (workspace next : WorkspaceLayout) : Prop where
  tabs : next.tabs = workspace.tabs ++ [tab]
  leaves : next.leaves = workspace.leaves
  groupLayout : next.groupLayout = workspace.groupLayout
  groups :
    (workspace.groups = [] ∧ ∃ id, next.groups = [⟨id, [tab.id]⟩]) ∨
    ∃ group ∈ workspace.groups, ∃ order,
      (group.tabOrder.Nodup → order.Perm (tab.id :: group.tabOrder.filter (· ≠ tab.id))) ∧
      next.groups = workspace.groups.map fun entry =>
        if entry.id = group.id then { group with tabOrder := order } else entry

variable {ownerIsMain : Bool} {key : String} {placement : TabPlacement}
variable {context : LayoutContext}

theorem mem_of_placementGroup {groups : List LayoutGroup}
    (found : placementGroup groups placement = some group) : group ∈ groups := by
  unfold placementGroup at found
  rcases Option.or_eq_some_iff.mp found with named | ⟨_, other⟩
  · exact List.mem_of_find?_eq_some named
  · rcases Option.or_eq_some_iff.mp other with anchored | ⟨_, first⟩
    · unfold anchorGroup at anchored
      split at anchored
      · cases anchored
      · split at anchored
        · cases anchored
        · exact List.mem_of_find?_eq_some anchored
    · exact List.mem_of_head? first

theorem placementGroup_eq_none_iff {groups : List LayoutGroup} :
    placementGroup groups placement = none ↔ groups = [] := by
  constructor
  · intro missing
    unfold placementGroup at missing
    rw [Option.or_eq_none_iff, Option.or_eq_none_iff] at missing
    exact List.head?_eq_none_iff.mp missing.2.2
  · rintro rfl
    unfold placementGroup anchorGroup
    cases placement.afterTabId with
    | none => rfl
    | some afterTabId => by_cases absent : afterTabId = "" <;> simp [absent]

theorem placedOrder_perm (distinct : group.tabOrder.Nodup) :
    (placedOrder workspace tab placement group).Perm
      (tab.id :: group.tabOrder.filter (· ≠ tab.id)) := by
  unfold placedOrder
  split
  · exact insertTabAt_perm ..
  · exact insertTabIdIntoOrder_perm distinct

theorem placedTab_placeNewTab :
    PlacedTab tab workspace
      (placeNewTab ownerIsMain workspace key tab placement context) := by
  unfold placeNewTab
  cases found : placementGroup workspace.groups placement with
  | none =>
    have groups := placementGroup_eq_none_iff.mp found
    have order : (placedOrder workspace tab placement
        ⟨firstGroupId ownerIsMain key placement context, []⟩) = [tab.id] :=
      List.perm_singleton.mp (placedOrder_perm List.nodup_nil)
    exact ⟨rfl, rfl, rfl, Or.inl ⟨groups, firstGroupId ownerIsMain key placement context,
      by simp [groups, order]⟩⟩
  | some group =>
    exact ⟨rfl, rfl, rfl, Or.inr ⟨group, mem_of_placementGroup found, _, placedOrder_perm, rfl⟩⟩

theorem placedTab_placeNewTab_sent {groupId : String} (groups : workspace.groups = []) :
    PlacedTab tab workspace
      (placeNewTab ownerIsMain { workspace with groups := [⟨groupId, []⟩] } key tab placement
        context) := by
  unfold placeNewTab
  cases found : placementGroup [⟨groupId, []⟩] placement with
  | none => cases placementGroup_eq_none_iff.mp found
  | some group =>
    obtain rfl := List.mem_singleton.mp (mem_of_placementGroup found)
    have order : placedOrder { workspace with groups := [⟨groupId, []⟩] } tab placement
        ⟨groupId, []⟩ = [tab.id] :=
      List.perm_singleton.mp (placedOrder_perm List.nodup_nil)
    exact ⟨rfl, rfl, rfl, Or.inl ⟨groups, groupId, by simp [order]⟩⟩

namespace PlacedTab

variable (placed : PlacedTab tab workspace next)
include placed

theorem tabIds : next.tabIds = workspace.tabIds ++ [tab.id] := by
  simp [WorkspaceLayout.tabIds, placed.tabs]

theorem paneIds : next.paneIds = workspace.paneIds ++ tab.leafIds := by
  simp [WorkspaceLayout.paneIds, placed.tabs]

theorem groupsHoldTabs (holds : GroupsHoldTabs holes workspace)
    (fresh : tab.id ∉ workspace.tabIds) : GroupsHoldTabs holes next := by
  have distinct : next.tabIds.Nodup := by
    rw [placed.tabIds]
    exact holds.distinct.append (List.nodup_singleton _) (by simpa using fresh)
  rcases placed.groups with ⟨none, id, first⟩ | ⟨group, member, order, perm, groups⟩
  · have tree := holds.tree
    have listed := holds.listed
    rw [WorkspaceLayout.groupIds, none] at tree
    rw [none] at listed
    exact {
      distinct := distinct
      listed := by
        rw [first, placed.tabIds]
        exact listed.append_right [tab.id]
      filled := by
        rw [first]
        rintro group member empty
        rw [List.mem_singleton.mp member] at empty
        cases empty
      tree := by
        rw [placed.groupLayout, WorkspaceLayout.groupIds, first, tree.none_of_nil]
        exact le_rfl }
  · have lists : tab.id ∉ group.tabOrder := fun inside =>
      fresh (holds.mem_tabIds_iff.mpr ⟨group, member, inside⟩)
    have others : group.tabOrder.filter (· ≠ tab.id) = group.tabOrder :=
      List.filter_eq_self.mpr fun id inside => decide_eq_true fun same => lists (same ▸ inside)
    have perm : order.Perm ([tab.id] ++ group.tabOrder) :=
      others ▸ perm (holds.order_nodup member)
    refine holds.withGroups groups placed.groupLayout ?_ ?_ distinct ?_
    · intro entry _
      by_cases same : entry.id = group.id <;> simp [same]
    · intro entry _ empty
      by_cases same : entry.id = group.id
      · rw [if_pos same] at empty
        rw [show order = [] from empty] at perm
        cases perm.nil_eq
      · rwa [if_neg same] at empty
    · rw [placed.tabIds]
      refine (listedIn_replace holds.groupIds_nodup member perm).trans ?_
      exact List.perm_append_comm.trans (holds.listed.append_right _)

end PlacedTab

end Placing

/-! ## Removing -/

def emptiedBy (tabId : String) (group : LayoutGroup) : Bool :=
  tabId ∈ group.tabOrder ∧ (group.without tabId).tabOrder = []

theorem LayoutGroup.without_of_not_mem {group : LayoutGroup} {tabId : String}
    (absent : tabId ∉ group.tabOrder) : group.without tabId = group := by
  have others : group.tabOrder.filter (· ≠ tabId) = group.tabOrder :=
    List.filter_eq_self.mpr fun id member => decide_eq_true fun same => absent (same ▸ member)
  unfold LayoutGroup.without
  rw [others]

theorem listedIn_without (groups : List LayoutGroup) (tabId : String) :
    listedIn (groups.map (·.without tabId)) = (listedIn groups).filter (· ≠ tabId) := by
  unfold listedIn
  rw [List.flatMap_map, List.filter_flatMap]
  rfl

theorem groups_withoutTabInGroups (tabId : String) (groups : List LayoutGroup)
    (layout : Option TabGroupLayoutNode) :
    (withoutTabInGroups tabId groups layout).1 =
      (groups.filter (!emptiedBy tabId ·)).map (·.without tabId) := by
  induction groups generalizing layout with
  | nil => rfl
  | cons group rest ih =>
    unfold withoutTabInGroups
    by_cases lists : tabId ∈ group.tabOrder
    · by_cases empties : (group.without tabId).tabOrder = []
      · rw [List.filter_cons_of_neg (by simp [emptiedBy, lists, empties])]
        simp only [if_pos lists, if_pos empties]
        exact ih _
      · rw [List.filter_cons_of_pos (by simp [emptiedBy, empties])]
        simp only [if_pos lists, if_neg empties, List.map_cons, ih]
    · rw [List.filter_cons_of_pos (by simp [emptiedBy, lists])]
      simp only [if_neg lists, List.map_cons, ih, LayoutGroup.without_of_not_mem lists]

theorem leavesOf_withoutTabInGroups {layout : Option TabGroupLayoutNode} {tabId : String}
    {groups : List LayoutGroup} (distinct : (leavesOf layout).Nodup) :
    leavesOf (withoutTabInGroups tabId groups layout).2 =
      (leavesOf layout).filter (· ∉ (groups.filter (emptiedBy tabId)).map LayoutGroup.id) := by
  induction groups generalizing layout with
  | nil => simp [withoutTabInGroups]
  | cons group rest ih =>
    unfold withoutTabInGroups
    by_cases lists : tabId ∈ group.tabOrder
    · by_cases empties : (group.without tabId).tabOrder = []
      · have removed : leavesOf (layout.bind (removeGroupLayoutLeaf · group.id)) =
            (leavesOf layout).filter (· ≠ group.id) := by
          cases layout with
          | none => rfl
          | some tree => exact leavesOf_removeLeaf group.id distinct
        simp only [if_pos lists, if_pos empties]
        rw [ih (removed ▸ distinct.filter _), removed, List.filter_filter,
          List.filter_cons_of_pos (by simp [emptiedBy, lists, empties])]
        refine List.filter_congr fun id _ => ?_
        by_cases same : id = group.id <;> simp [same]
      · rw [List.filter_cons_of_neg (by simp [emptiedBy, empties])]
        simp only [if_pos lists, if_neg empties]
        exact ih distinct
    · rw [List.filter_cons_of_neg (by simp [emptiedBy, lists])]
      simp only [if_neg lists]
      exact ih distinct

theorem tabIds_removeTabFromWorkspace (workspace : WorkspaceLayout) (tabId : String) :
    (removeTabFromWorkspace workspace tabId).tabIds =
      workspace.tabIds.filter (· ≠ tabId) := by
  unfold WorkspaceLayout.tabIds removeTabFromWorkspace
  rw [List.filter_map]
  rfl

theorem TreeHoldsGroups.filter {layout layout' : Option TabGroupLayoutNode} {ids : List String}
    (holds : TreeHoldsGroups layout ids) (test : String → Bool)
    (leaves : leavesOf layout' = (leavesOf layout).filter test) :
    TreeHoldsGroups layout' (ids.filter test) := by
  have distinct := holds.nodup.filter test
  cases layout with
  | none =>
    rw [leavesOf_eq_nil_iff.mp leaves]
    exact (List.length_filter_le ..).trans holds
  | some tree =>
    have perm := holds.1.filter test
    rw [← leavesOf_some, ← leaves] at perm
    cases layout' with
    | none =>
      rw [perm.symm.eq_nil]
      exact Nat.zero_le 1
    | some tree' => exact ⟨perm, distinct⟩

theorem GroupsHoldTabs.removeTab (holds : GroupsHoldTabs holes workspace) (tabId : String) :
    GroupsHoldTabs holes (removeTabFromWorkspace workspace tabId) where
  distinct := by
    rw [tabIds_removeTabFromWorkspace]
    exact holds.distinct.filter _
  listed := by
    have emptied : ∀ group ∈ workspace.groups.filter (emptiedBy tabId),
        (group.without tabId).tabOrder = [] := by
      intro group member
      have empties := (List.mem_filter.mp member).2
      simp only [emptiedBy, decide_eq_true_eq] at empties
      exact empties.2
    have all := (List.filter_append_perm (emptiedBy tabId) workspace.groups).map
      (·.without tabId) |>.flatMap_right LayoutGroup.tabOrder
    rw [List.map_append, List.flatMap_append, List.flatMap_map,
      List.flatMap_eq_nil_iff.mpr emptied, List.nil_append] at all
    rw [tabIds_removeTabFromWorkspace]
    show (listedIn (withoutTabInGroups tabId workspace.groups workspace.groupLayout).1).Perm _
    rw [groups_withoutTabInGroups]
    refine all.trans ?_
    show (listedIn (workspace.groups.map (·.without tabId))).Perm _
    rw [listedIn_without]
    exact holds.listed.filter _
  filled := by
    intro group member empty
    rw [show (removeTabFromWorkspace workspace tabId).groups = _ from
      groups_withoutTabInGroups tabId workspace.groups workspace.groupLayout] at member
    obtain ⟨origin, kept, rfl⟩ := List.mem_map.mp member
    obtain ⟨stored, stays⟩ := List.mem_filter.mp kept
    by_cases lists : tabId ∈ origin.tabOrder
    · simp [emptiedBy, lists, empty] at stays
    · rw [LayoutGroup.without_of_not_mem lists] at empty
      exact holds.filled origin stored empty
  tree := by
    have distinct : (leavesOf workspace.groupLayout).Nodup := by
      have tree := holds.tree
      cases layout : workspace.groupLayout with
      | none => exact List.nodup_nil
      | some root =>
        rw [layout] at tree
        exact tree.1.nodup_iff.mpr tree.2
    have ids : (removeTabFromWorkspace workspace tabId).groupIds =
        workspace.groupIds.filter
          (· ∉ (workspace.groups.filter (emptiedBy tabId)).map LayoutGroup.id) := by
      unfold WorkspaceLayout.groupIds
      rw [show (removeTabFromWorkspace workspace tabId).groups = _ from
        groups_withoutTabInGroups tabId workspace.groups workspace.groupLayout, List.map_map,
        List.filter_map]
      refine congrArg (List.map LayoutGroup.id) (List.filter_congr fun group member => ?_)
      have admitted : group.id ∈ (workspace.groups.filter (emptiedBy tabId)).map LayoutGroup.id ↔
          emptiedBy tabId group = true := mem_keys_filter_iff holds.groupIds_nodup member
      by_cases empties : emptiedBy tabId group = true
      · rw [Function.comp_apply, decide_eq_false (not_not.mpr (admitted.mpr empties)), empties]
        rfl
      · rw [Function.comp_apply, decide_eq_true (mt admitted.mp empties),
          Bool.eq_false_of_not_eq_true empties]
        rfl
    rw [ids]
    exact holds.tree.filter _ (leavesOf_withoutTabInGroups distinct)

end OxeeUI.Layout
