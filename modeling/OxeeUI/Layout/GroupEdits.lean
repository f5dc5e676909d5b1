import Mathlib.Logic.Function.Basic
import OxeeUI.Layout.TabEdits

/-!
# What the group commands do

Tabs move between groups and groups are divided; panes and their terminals stay.  An
open that asks for a group of its own runs in the model that has it.
-/

namespace OxeeUI.Layout

open OxeeUI.Library SplitTree

variable {ownerIsMain : Bool} {model : WorkspaceLayoutModel} {key : String}
variable {workspace : WorkspaceLayout} {context : LayoutContext} {ids : NewIds}

/-! ## Groups -/

theorem of_sourceGroupOf {tabId : String} {source : LayoutGroup}
    (found : sourceGroupOf workspace tabId = some source) :
    source ∈ workspace.groups ∧ tabId ∈ source.tabOrder := by
  obtain ⟨tab, _, located⟩ := Option.bind_eq_some_iff.mp found
  exact ⟨List.mem_of_find?_eq_some located, by simpa using List.find?_some located⟩

theorem withMovedPin_edit {before : WorkspaceLayout} {command : MoveTab}
    (edit : CommandEdit ids [] before workspace) :
    CommandEdit ids [] before (withMovedPin workspace command) := by
  unfold withMovedPin
  cases command.isPinned with
  | none => exact edit
  | some isPinned =>
    refine edit.then_same ?_ ?_ rfl rfl rfl
    · unfold WorkspaceLayout.tabIds
      rw [List.map_map]
      refine List.map_congr_left fun tab _ => ?_
      rw [Function.comp_apply]
      split
      · exact LayoutTab.id_withFields ..
      · rfl
    · unfold WorkspaceLayout.paneIds
      rw [List.flatMap_map]
      refine congrArg List.flatten (List.map_congr_left fun tab _ => ?_)
      split
      · exact LayoutTab.leafIds_withFields ..
      · rfl

theorem ensures_moveTab {command : MoveTab} (found : workspaceOrEmpty model key = workspace) :
    Ensures (moveTab ownerIsMain model key workspace command) (Accounted .none model) := by
  unfold moveTab
  cases located : sourceGroupOf workspace command.tabId with
  | none => exact .refuse _
  | some source =>
    obtain ⟨member, lists⟩ := of_sourceGroupOf located
    cases workspace.groups.find? (·.id = command.toGroupId) with
    | none => exact .refuse _
    | some target =>
      simp only
      split
      · refine ensures_edit found (withMovedPin_edit (.of_groups rfl rfl ?_))
        exact fun holes groups _ => groups.insertWithin member lists
      · split
        · exact .refuse _
        · split
          case h_1 => exact .refuse _
          case h_2 moved built =>
            refine ensures_edit found (withMovedPin_edit (.of_groups rfl rfl ?_))
            exact fun holes groups _ => groups.moveBetween built

theorem ensures_splitGroup {command : SplitGroup}
    (found : workspaceOrEmpty model key = workspace) :
    Ensures (splitGroup model key workspace command context)
      (Accounted ⟨[], [], [context.mintId .group]⟩ model) := by
  unfold splitGroup
  cases located : sourceGroupOf workspace command.tabId with
  | none => exact .refuse _
  | some source =>
    obtain ⟨member, lists⟩ := of_sourceGroupOf located
    simp only
    split
    case isTrue => exact .refuse _
    case isFalse present =>
      have held : command.besideGroupId ∈ workspace.groupIds := by
        simpa [WorkspaceLayout.groupIds] using present
      split
      case isTrue sole =>
        refine ensures_edit found (.of_groups rfl rfl fun holes groups _ => ?_)
        exact groups.moveBeside (List.mem_map_of_mem member) held sole.2
      case isFalse =>
        split
        case h_1 => exact .refuse _
        case h_2 divided built =>
          refine ensures_edit found (.of_groups rfl rfl fun holes groups fresh => ?_)
          exact groups.divide held (fresh.groups _ (List.mem_singleton_self _)) built

theorem ensures_setGroupRatios {command : SetGroupRatios}
    (found : workspaceOrEmpty model key = workspace) :
    Ensures (setGroupRatios model key workspace command) (Accounted .none model) := by
  unfold setGroupRatios
  simp only
  split
  case h_1 => exact .refuse _
  case h_2 layout chosen =>
    refine ensures_edit found (.of_groups rfl rfl fun holes groups _ => groups.withLayout ?_)
    obtain ⟨current, shown, changed⟩ := Option.bind_eq_some_iff.mp chosen
    have leaves : layout.leaves = current.leaves := by
      split at changed
      · exact leaves_withSplitRatios changed
      · exact leaves_eq_of_sameIgnoringRatios (Option.filter_eq_some_iff.mp changed).2
    rw [leaves]
    have tree := groups.tree
    rcases Option.or_eq_some_iff.mp shown with stored | ⟨none, first⟩
    · rw [stored] at tree
      exact tree.1
    · obtain ⟨group, head, rfl⟩ := Option.map_eq_some_iff.mp first
      have member := List.mem_map_of_mem (f := LayoutGroup.id) (List.mem_of_head? head)
      have root := tree.getD_leaf member
      rwa [none] at root

/-! ## Browser records -/

theorem ensures_withRecord {browserTabId : String}
    {change : LayoutBrowserTab → Except LayoutRefusalCode LayoutBrowserTab}
    (found : workspaceOrEmpty model key = workspace) :
    Ensures (withRecord model key workspace browserTabId change) (Accounted .none model) := by
  unfold withRecord
  simp only
  split
  · exact .refuse _
  · split
    · exact .refuse _
    · exact ensures_edit found (.of_same rfl rfl rfl rfl rfl)

/-! ## A group for the open -/

theorem not_mem_of_holdsGroup {groupId : String} (absent : ¬holdsGroup model groupId = true) :
    groupId ∉ (workspaceOrEmpty model key).groupIds := by
  intro member
  cases found : model.workspaces.get? key with
  | none =>
    rw [workspaceOrEmpty_of_none found] at member
    cases member
  | some workspace =>
    rw [workspaceOrEmpty_of_some found] at member
    obtain ⟨group, stored, named⟩ := List.mem_map.mp member
    refine absent (List.any_eq_true.mpr ⟨workspace, JsMap.mem_values_iff.mpr ⟨key, found⟩, ?_⟩)
    exact List.any_eq_true.mpr ⟨group, stored, decide_eq_true named⟩

/-- The model has one more group, empty and in the tree; its tabs are the same. -/
structure GroupAdded (groupId : String) (model : WorkspaceLayoutModel) (key : String)
    (next : WorkspaceLayout) : Prop where
  tabs : next.tabs = (workspaceOrEmpty model key).tabs
  leaves : next.leaves = (workspaceOrEmpty model key).leaves
  groups : ∀ holes, GroupsHoldTabs holes (workspaceOrEmpty model key) →
    GroupsHoldTabs (groupId :: holes) next

theorem groupAdded_besideNewGroup {next : WorkspaceLayout} {groupId : String}
    {split : NewGroupSplit} (absent : ¬holdsGroup model groupId = true)
    (created : besideNewGroup (workspaceOrEmpty model key) groupId split = .ok next) :
    GroupAdded groupId model key next := by
  have groups : ∀ holes, GroupsHoldTabs holes (workspaceOrEmpty model key) →
      GroupsHoldTabs (groupId :: holes) next :=
    fun holes holds => holds.besideNewGroup (not_mem_of_holdsGroup absent) created
  unfold besideNewGroup at created
  simp only at created
  split at created
  · split at created
    · cases created
    · cases created
      exact ⟨rfl, rfl, groups⟩
  · split at created
    · cases created
    · cases created
      exact ⟨rfl, rfl, groups⟩

namespace GroupAdded

variable {groupId : String} {next : WorkspaceLayout} (added : GroupAdded groupId model key next)
include added

theorem tabIds (other : String) :
    (workspaceOrEmpty (withWorkspace model key next) other).tabIds =
      (workspaceOrEmpty model other).tabIds := by
  rw [workspaceOrEmpty_of_set rfl]
  by_cases same : other = key
  · rw [if_pos same, same]
    exact congrArg (List.map LayoutTab.id) added.tabs
  · rw [if_neg same]

theorem paneIds (other : String) :
    (workspaceOrEmpty (withWorkspace model key next) other).paneIds =
      (workspaceOrEmpty model other).paneIds := by
  rw [workspaceOrEmpty_of_set rfl]
  by_cases same : other = key
  · rw [if_pos same, same]
    exact congrArg (List.flatMap LayoutTab.leafIds) added.tabs
  · rw [if_neg same]

theorem rules {holes : String → List String} (rules : StructuralRulesUpTo holes model) :
    StructuralRulesUpTo (Function.update holes key (groupId :: holes key))
      (withWorkspace model key next) := by
  refine .of_workspaces ?_ ?_ ?_
  · intro other
    rw [workspaceOrEmpty_of_set rfl]
    by_cases same : other = key
    · subst same
      rw [if_pos rfl, Function.update_self]
      have own := rules.workspace other
      refine ⟨added.groups _ own.groups, own.panes.congr (.of_eq ?_) added.leaves⟩
      exact congrArg (List.flatMap LayoutTab.leafIds) added.tabs
    · rw [if_neg same, Function.update_of_ne same]
      exact rules.workspace other
  · intro first second id member member'
    rw [added.tabIds] at member member'
    exact rules.tab_home member member'
  · intro first second id member member'
    rw [added.paneIds] at member member'
    exact rules.pane_home member member'

theorem terminals : ModelTerminalEdit [] model (withWorkspace model key next) :=
  .of_set rfl (.of_panes (bindingAt_of_leaves added.leaves) fun _ _ _ member => by
    rwa [show next.paneIds = (workspaceOrEmpty model key).paneIds from
      congrArg (List.flatMap LayoutTab.leafIds) added.tabs])

theorem fresh {tabs leaves : List String}
    (fresh : NewIds.FreshInModel ⟨tabs, leaves, []⟩ model) :
    NewIds.FreshInModel ⟨tabs, leaves, []⟩ (withWorkspace model key next) := by
  intro other
  refine ⟨?_, ?_, by simp⟩
  · rw [added.tabIds]
    exact (fresh other).tabs
  · rw [added.paneIds]
    exact (fresh other).leaves

end GroupAdded

/-- What an open into a group of its own did: it ran in the model as it was, or in the one with
the group, and then it filled the group or changed nothing. -/
theorem of_openInNewGroup {command : NewGroupOpen} {openTab : WorkspaceLayoutModel → Applied}
    {result : LayoutApplied} (opened : openInNewGroup model key command openTab = .ok result) :
    openTab model = .ok result ∨
    ∃ groupId next, GroupAdded groupId model key next ∧
      ∃ inner, openTab (withWorkspace model key next) = .ok inner ∧
        ((result = inner ∧ ∃ group ∈ (workspaceOrEmpty inner.model key).groups,
            group.id = groupId ∧ group.tabOrder ≠ []) ∨
          (result.model = model ∧ result.effects.stopPtyIds = [])) := by
  unfold openInNewGroup at opened
  split at opened
  case h_1 => exact Or.inl opened
  case h_2 beside =>
    split at opened
    case isTrue => exact Or.inl opened
    case isFalse =>
      split at opened
      case h_1 => cases opened
      case h_2 groupId named =>
        simp only at opened
        split at opened
        case isTrue => exact Or.inl opened
        case isFalse =>
          split at opened
          case isTrue => cases opened
          case isFalse absent =>
            split at opened
            case h_1 => cases opened
            case h_2 next created =>
              split at opened
              case h_1 => cases opened
              case h_2 inner ran =>
                refine Or.inr ⟨groupId, next, groupAdded_besideNewGroup absent created, inner,
                  ran, ?_⟩
                split at opened
                case isTrue filled =>
                  cases opened
                  obtain ⟨group, member, lists⟩ := List.any_eq_true.mp filled
                  exact Or.inl ⟨rfl, group, member, of_decide_eq_true lists⟩
                case isFalse =>
                  cases opened
                  exact Or.inr ⟨rfl, rfl⟩

section NewGroup

variable {command : NewGroupOpen} {openTab : WorkspaceLayoutModel → Applied}

theorem keepsRules_openInNewGroup {tabs leaves : List String}
    (opens : ∀ next, Ensures (openTab next) fun result =>
      KeepsRules ⟨tabs, leaves, []⟩ next result.model) :
    Ensures (openInNewGroup model key command openTab) fun result =>
      KeepsRules ⟨tabs, leaves, []⟩ model result.model := by
  intro result opened
  rcases of_openInNewGroup opened with direct | ⟨groupId, next, added, inner, ran, outcome⟩
  · exact opens model result direct
  · rcases outcome with ⟨rfl, group, member, named, lists⟩ | ⟨same, _⟩
    · intro holes rules fresh
      have after := opens _ _ ran _ (added.rules rules) (added.fresh fresh)
      refine .of_workspaces ?_ (fun _ _ _ => after.tab_home) fun _ _ _ => after.pane_home
      intro other
      have own := after.workspace other
      by_cases same : other = key
      · subst same
        rw [Function.update_self] at own
        exact ⟨own.groups.close member named lists, own.panes⟩
      · rwa [Function.update_of_ne same] at own
    · exact same.symm ▸ .of_same rfl

theorem terminals_openInNewGroup
    (opens : ∀ next, Ensures (openTab next) fun result =>
      ModelTerminalEdit result.effects.stopPtyIds next result.model) :
    Ensures (openInNewGroup model key command openTab) fun result =>
      ModelTerminalEdit result.effects.stopPtyIds model result.model := by
  intro result opened
  rcases of_openInNewGroup opened with direct | ⟨groupId, next, added, inner, ran, outcome⟩
  · exact opens model result direct
  · rcases outcome with ⟨rfl, _⟩ | ⟨same, none⟩
    · exact added.terminals.trans (fun _ rules => ⟨_, added.rules rules⟩) (opens _ _ ran)
    · rw [none]
      exact .of_same (congrArg WorkspaceLayoutModel.workspaces same)

end NewGroup

end OxeeUI.Layout
