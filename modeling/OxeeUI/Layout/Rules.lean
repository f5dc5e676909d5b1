import OxeeUI.Layout.CommandSteps

/-!
# The structural rules

Groups list every tab once and hold something, the tree places exactly the groups, and
pane data belongs to panes.  A group can be named that may still be empty: the one an
open creates before it places its tab there.
-/

namespace OxeeUI.Layout

open OxeeUI.Library SplitTree

/-! ## The check -/

inductive WorkspaceLayoutRule where
  | groupEmpty
  | groupListsMissingTab
  | tabWithoutGroup
  | tabInTwoGroups
  | groupTreeMismatch
  | leafWithoutPane
  | leafSleepingAndResume
  | tabInTwoPlaces

structure WorkspaceLayoutViolation where
  rule : WorkspaceLayoutRule
  hostId : String
  worktreeId : Option String
  ids : List String
  detail : String

/-- The groups that list a tab, once for each time they do. -/
def groupsOfTab (workspace : WorkspaceLayout) (tabId : String) : List String :=
  workspace.groups.flatMap fun group =>
    (group.tabOrder.filter (· = tabId)).map fun _ => group.id

def tabKindText (tab : LayoutTab) : String :=
  match tab.contentKind with
  | none => "terminal"
  | some .editor => "editor"
  | some .diff => "diff"
  | some .conflictReview => "conflict-review"
  | some .checkDetails => "check-details"
  | some .agentSession => "agent-session"
  | some .browser => "browser"
  | some .simulator => "simulator"

/-- Whether the tree places the groups, by the check's own comparison. -/
def treeMatches (workspace : WorkspaceLayout) : Bool :=
  match workspace.groupLayout with
  | none => workspace.groupIds.length ≤ 1
  | some tree =>
    tree.leaves.length = workspace.groupIds.length ∧
      (tree.leaves ++ workspace.groupIds).eraseDups.length = workspace.groupIds.length

def checkWorkspace (model : WorkspaceLayoutModel) (workspace : WorkspaceLayout) :
    List WorkspaceLayoutViolation :=
  let breach := fun (rule : WorkspaceLayoutRule) (ids : List String) (detail : String) =>
    (⟨rule, model.hostId, some workspace.worktreeId, ids, detail⟩ : WorkspaceLayoutViolation)
  let groups := workspace.groups.flatMap fun group =>
    (if group.tabOrder = [] then
      [breach .groupEmpty [group.id] ("group " ++ group.id ++ " holds no tab")]
    else []) ++
    (group.tabOrder.filter (· ∉ workspace.tabIds)).map fun tabId =>
      breach .groupListsMissingTab [group.id, tabId] ("group " ++ group.id ++ " lists " ++ tabId)
  let tabs := workspace.tabs.flatMap fun tab =>
    let owners := groupsOfTab workspace tab.id
    if owners = [] then
      [breach .tabWithoutGroup [tab.id]
        ("tab " ++ tab.id ++ " (" ++ tabKindText tab ++ ") is in no group")]
    else if owners.length > 1 then
      [breach .tabInTwoGroups (tab.id :: owners)
        ("tab " ++ tab.id ++ " is listed " ++ toString owners.length ++ " times")]
    else []
  let treeIds := leavesOf workspace.groupLayout
  let tree :=
    if treeMatches workspace then []
    else
      [breach .groupTreeMismatch treeIds
        ("group tree [" ++ ", ".intercalate treeIds ++ "] but groups [" ++
          ", ".intercalate workspace.groupIds ++ "]")]
  let strays := workspace.leaves.keys.filter (· ∉ workspace.paneIds)
  let doubled := (workspace.leaves.entries.filter fun entry =>
    entry.2.sleeping.isSome ∧ entry.2.resume.isSome).map Prod.fst
  groups ++ tabs ++ tree ++
    (if strays = [] then []
    else [breach .leafWithoutPane strays "pane data for panes no tab holds"]) ++
    (if doubled = [] then []
    else
      [breach .leafSleepingAndResume doubled "panes with both a sleep and a resume record"])

/-- The workspaces that list a tab id, once for each tab. -/
def homesOfTab (model : WorkspaceLayoutModel) (tabId : String) : List String :=
  model.workspaces.entries.flatMap fun entry =>
    (entry.2.tabIds.filter (· = tabId)).map fun _ => entry.1

def checkTabIds (model : WorkspaceLayoutModel) : List WorkspaceLayoutViolation :=
  ((model.workspaces.values.flatMap WorkspaceLayout.tabIds).eraseDups).filterMap fun tabId =>
    let keys := homesOfTab model tabId
    if keys.length > 1 then
      some ⟨.tabInTwoPlaces, model.hostId, none, [tabId],
        "tab " ++ tabId ++ " listed " ++ toString keys.length ++ " times: " ++
          ", ".intercalate keys⟩
    else none

/-! ## The rules as invariants -/

/-- The tree's leaves are exactly the groups, or there is no tree to place at most one. -/
def TreeHoldsGroups (layout : Option TabGroupLayoutNode) (groupIds : List String) : Prop :=
  match layout with
  | none => groupIds.length ≤ 1
  | some tree => tree.leaves.Perm groupIds ∧ groupIds.Nodup

theorem TreeHoldsGroups.nodup {layout : Option TabGroupLayoutNode} {groupIds : List String}
    (holds : TreeHoldsGroups layout groupIds) : groupIds.Nodup := by
  cases layout with
  | some tree => exact holds.2
  | none =>
    match groupIds, holds with
    | [], _ => exact List.nodup_nil
    | [id], _ => exact List.nodup_singleton id

theorem TreeHoldsGroups.none_of_nil {layout : Option TabGroupLayoutNode}
    (holds : TreeHoldsGroups layout []) : layout = none := by
  cases layout with
  | none => rfl
  | some tree => exact absurd holds.1.eq_nil tree.leaves_ne_nil

theorem TreeHoldsGroups.getD_leaf {layout : Option TabGroupLayoutNode} {groupIds : List String}
    {id : String} (holds : TreeHoldsGroups layout groupIds) (member : id ∈ groupIds) :
    (layout.getD (.leaf id)).leaves.Perm groupIds := by
  cases layout with
  | some tree => exact holds.1
  | none =>
    match groupIds, holds, member with
    | [only], _, member =>
      rw [List.mem_singleton.mp member]
      exact List.Perm.refl _

/-- The groups list every tab once; all but the named one list some. -/
structure GroupsHoldTabs (holes : List String) (workspace : WorkspaceLayout) : Prop where
  distinct : workspace.tabIds.Nodup
  listed : (workspace.groups.flatMap LayoutGroup.tabOrder).Perm workspace.tabIds
  filled : ∀ group ∈ workspace.groups, group.tabOrder = [] → group.id ∈ holes
  tree : TreeHoldsGroups workspace.groupLayout workspace.groupIds

/-- Panes are distinct, pane data names one of them, and says one way to resume it. -/
structure PanesHoldLeaves (workspace : WorkspaceLayout) : Prop where
  distinct : workspace.paneIds.Nodup
  named : ∀ leafId ∈ workspace.leaves.keys, leafId ∈ workspace.paneIds
  exclusive : ∀ leafId leaf, workspace.leaf? leafId = some leaf →
    leaf.sleeping = none ∨ leaf.resume = none

/-- The rules of a partition, with a group in each workspace that may be empty. -/
structure StructuralRulesUpTo (holes : String → List String) (model : WorkspaceLayoutModel) :
    Prop where
  groups : ∀ key workspace, model.workspaces.get? key = some workspace →
    GroupsHoldTabs (holes key) workspace
  panes : ∀ key workspace, model.workspaces.get? key = some workspace → PanesHoldLeaves workspace
  tabIds : (model.workspaces.values.flatMap WorkspaceLayout.tabIds).Nodup
  leafIds : (model.workspaces.values.flatMap WorkspaceLayout.paneIds).Nodup

/-- Every workspace keeps the rules, and no tab or pane id is in two of them. -/
def StructuralRules (model : WorkspaceLayoutModel) : Prop :=
  StructuralRulesUpTo (fun _ => []) model

namespace GroupsHoldTabs

variable {holes : List String} {workspace : WorkspaceLayout}

theorem listed_nodup (holds : GroupsHoldTabs holes workspace) :
    (workspace.groups.flatMap LayoutGroup.tabOrder).Nodup :=
  holds.listed.nodup_iff.mpr holds.distinct

theorem order_nodup (holds : GroupsHoldTabs holes workspace) {group : LayoutGroup}
    (member : group ∈ workspace.groups) : group.tabOrder.Nodup :=
  (List.nodup_flatMap.mp holds.listed_nodup).1 group member

theorem groupIds_nodup (holds : GroupsHoldTabs holes workspace) : workspace.groupIds.Nodup :=
  holds.tree.nodup

theorem group_ext (holds : GroupsHoldTabs holes workspace) {first second : LayoutGroup}
    (member : first ∈ workspace.groups) (member' : second ∈ workspace.groups)
    (same : first.id = second.id) : first = second :=
  List.inj_on_of_nodup_map holds.groupIds_nodup member member' same

theorem mem_tabIds_iff (holds : GroupsHoldTabs holes workspace) {tabId : String} :
    tabId ∈ workspace.tabIds ↔ ∃ group ∈ workspace.groups, tabId ∈ group.tabOrder := by
  rw [← holds.listed.mem_iff, List.mem_flatMap]

theorem group_of_tab (holds : GroupsHoldTabs holes workspace) {first second : LayoutGroup}
    {tabId : String} (member : first ∈ workspace.groups) (member' : second ∈ workspace.groups)
    (lists : tabId ∈ first.tabOrder) (lists' : tabId ∈ second.tabOrder) : first = second := by
  by_contra different
  have apart := (List.nodup_flatMap.mp holds.listed_nodup).2
  have : Std.Symm (Function.onFun List.Disjoint LayoutGroup.tabOrder) :=
    ⟨fun _ _ apart _ first second => apart second first⟩
  exact apart.forall member member' different lists lists'

end GroupsHoldTabs

end OxeeUI.Layout
