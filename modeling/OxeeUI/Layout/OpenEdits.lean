import OxeeUI.Layout.GroupEdits
import OxeeUI.Layout.PaneEdits

/-!
# What the opens do

A new tab joins a group, perhaps in place of a preview.  An id the sender chose is
either checked against the model or must be new.
-/

namespace OxeeUI.Layout

open OxeeUI.Library SplitTree

variable {ownerIsMain : Bool} {model : WorkspaceLayoutModel} {key : String}
variable {workspace target : WorkspaceLayout} {context : LayoutContext} {ids : NewIds}

/-! ## The workspace an open places its tab in -/

/-- The workspace itself, or, when it has no group, the workspace with the sender's. -/
def IsPlacementTarget (workspace target : WorkspaceLayout) : Prop :=
  target = workspace ∨ (workspace.groups = [] ∧
    ∃ groupId, target = { workspace with groups := [⟨groupId, []⟩] })

theorem isPlacementTarget_self (workspace : WorkspaceLayout) :
    IsPlacementTarget workspace workspace := Or.inl rfl

theorem isPlacementTarget_withSendersGroup (groupId : Option String) :
    IsPlacementTarget workspace (withSendersGroup workspace groupId) := by
  unfold withSendersGroup
  split
  · exact Or.inl rfl
  · split
    · exact Or.inl rfl
    · next none => exact Or.inr ⟨not_not.mp none, _, rfl⟩

namespace IsPlacementTarget

variable {tab : LayoutTab} {placement : TabPlacement}

theorem tabs (isTarget : IsPlacementTarget workspace target) : target.tabs = workspace.tabs := by
  rcases isTarget with rfl | ⟨_, groupId, rfl⟩ <;> rfl

theorem placedTab (isTarget : IsPlacementTarget workspace target) :
    PlacedTab tab workspace
      (placeNewTab ownerIsMain target key tab placement context) := by
  rcases isTarget with rfl | ⟨none, groupId, rfl⟩
  · exact placedTab_placeNewTab
  · exact placedTab_placeNewTab_sent none

end IsPlacementTarget

/-! ## Placing a content tab -/

theorem of_replacedPreview {tab : LayoutContentTab} {group : Option LayoutGroup}
    {preview : LayoutTab} (found : replacedPreview workspace tab group = some preview) :
    preview ∈ workspace.tabs ∧ preview.leafIds = [] := by
  unfold replacedPreview at found
  obtain ⟨_, found⟩ := Option.ite_none_right_eq_some.mp found
  refine ⟨List.mem_of_find?_eq_some found, ?_⟩
  cases preview with
  | content other => rfl
  | terminal other =>
    have admitted := List.find?_some found
    simp [LayoutTab.contentKind, canReplacePreviewContentType] at admitted

/-- Closing a tab without panes next to the placed one leaves every pane where it was. -/
theorem keepsTerminals_closePreview {tab : LayoutContentTab} {placed : WorkspaceLayout}
    {preview : LayoutTab} {command : CloseTabs} (isPlaced : PlacedTab (.content tab) workspace placed)
    (member : preview ∈ workspace.tabs) (panes : preview.leafIds = [])
    (named : command.tabIds = [preview.id]) :
    KeepsTerminals [] workspace (closeAll ownerIsMain command placed).workspace := by
  intro holes rules leafId pane ptyId proper bound
  have stays : leafId ∈ placed.paneIds := isPlaced.paneIds ▸ List.mem_append_left _ pane
  have same := bindingAt_of_leaves isPlaced.leaves leafId
  refine Or.inr ?_
  unfold closeAll closeNextTab
  rw [named, List.foldl_cons, List.foldl_nil]
  cases found : findTab placed preview.id with
  | none => exact ⟨stays, same.symm ▸ bound⟩
  | some closed =>
    simp only
    split
    · exact ⟨stays, same.symm ▸ bound⟩
    · split
      · exact ⟨stays, same.symm ▸ bound⟩
      · -- The tab found is the preview, or the new one when their ids are the same.
        have without : ∀ entry ∈ placed.tabs, entry.id = preview.id → entry.leafIds = [] := by
          intro entry inside sameId
          rw [isPlaced.tabs] at inside
          rcases List.mem_append.mp inside with held | new
          · rw [tab_ext rules.groups.distinct held member sameId]
            exact panes
          · rw [List.mem_singleton.mp new]
            rfl
        have located := mem_of_findTab found
        have sameId := id_of_findTab found
        have gone := without closed located sameId
        constructor
        · obtain ⟨entry, held, inside⟩ := List.mem_flatMap.mp stays
          refine mem_paneIds_of_mem (List.mem_filter.mpr ⟨held, ?_⟩) inside
          refine decide_eq_true fun here => ?_
          rw [without entry held (here.trans sameId)] at inside
          cases inside
        · have data : (closeTab ownerIsMain placed closed).leaf? leafId = _ :=
            leaf?_closeTab closed leafId
          rw [gone, if_neg (List.not_mem_nil)] at data
          rw [bindingAt_congr data, same]
          exact bound

theorem placedContent_edit {tab : LayoutContentTab} {placed : WorkspaceLayout}
    (isPlaced : PlacedTab (.content tab) workspace placed) :
    CommandEdit ⟨[tab.id], [], []⟩ [] workspace placed :=
  .of_placedTab isPlaced rfl rfl List.nodup_nil

theorem closePreview_edit {tab : LayoutContentTab} {placed : WorkspaceLayout}
    {preview : LayoutTab} {command : CloseTabs} (isPlaced : PlacedTab (.content tab) workspace placed)
    (member : preview ∈ workspace.tabs) (panes : preview.leafIds = [])
    (named : command.tabIds = [preview.id]) :
    CommandEdit ⟨[tab.id], [], []⟩ [] workspace (closeAll ownerIsMain command placed).workspace := by
  have placing := placedContent_edit isPlaced
  have closing : CommandEdit .none _ placed (closeAll ownerIsMain command placed).workspace :=
    accounts_closeAll command
  refine ⟨placing.layout.trans closing.layout, ?_, ?_, by simp⟩
  · exact placing.terminals.binds.trans closing.terminals.binds
  · exact keepsTerminals_closePreview isPlaced member panes named

theorem placeContentTab_edit {tab : LayoutContentTab} {placement : ContentPlacement}
    {tabId : String} (isTarget : IsPlacementTarget workspace target) (named : tab.id = tabId) :
    CommandEdit ⟨[tabId], [], []⟩ [] workspace
      (placeContentTab ownerIsMain target key tab placement context).1 := by
  subst named
  unfold placeContentTab
  simp only
  split
  case h_1 => exact placedContent_edit isTarget.placedTab
  case h_2 preview found =>
    obtain ⟨member, panes⟩ := of_replacedPreview found
    exact closePreview_edit isTarget.placedTab (isTarget.tabs ▸ member) panes rfl

/-! ## Checked ids -/

theorem not_mem_of_holdsTab {tabId : String} (absent : ¬holdsTab model tabId = true) (key : String) :
    tabId ∉ (workspaceOrEmpty model key).tabIds := by
  intro member
  cases found : model.workspaces.get? key with
  | none =>
    rw [workspaceOrEmpty_of_none found] at member
    cases member
  | some workspace =>
    rw [workspaceOrEmpty_of_some found] at member
    obtain ⟨tab, stored, named⟩ := List.mem_map.mp member
    refine absent (List.any_eq_true.mpr ⟨workspace, JsMap.mem_values_iff.mpr ⟨key, found⟩, ?_⟩)
    exact List.any_eq_true.mpr ⟨tab, stored, decide_eq_true named⟩

theorem Accounted.of_unused (tabId : String) {result : LayoutApplied}
    (accounted : Accounted ⟨[tabId], [], []⟩ model result)
    (unused : ids.FreshInModel model → ∀ key, tabId ∉ (workspaceOrEmpty model key).tabIds) :
    Accounted ids model result where
  layout := by
    intro holes rules fresh
    refine accounted.layout holes rules fun key => ⟨?_, by simp, by simp⟩
    exact fun id member => List.mem_singleton.mp member ▸ unused fresh key
  terminals := accounted.terminals

/-- The tab id an open gives: the sender's, else the minted one. -/
def openTabId (tabId : Option String) (context : LayoutContext) : String :=
  (tabId.filter (· ≠ "")).getD (context.mintId .tab)

/-- The id an open gives a tab, when it was minted and not checked. -/
def mintedTabIds (tabId : Option String) (context : LayoutContext) : List String :=
  if tabId.filter (· ≠ "") = none then [context.mintId .tab] else []

theorem unused_of_drawnTabOpen {tabId : Option String} {sameContent : LayoutTab → Bool}
    (none : drawnTabOpen model key tabId sameContent true = none)
    (fresh : NewIds.FreshInModel ⟨mintedTabIds tabId context, [], []⟩ model) (key : String) :
    openTabId tabId context ∉ (workspaceOrEmpty model key).tabIds := by
  unfold openTabId
  unfold drawnTabOpen at none
  cases sent : tabId.filter (· ≠ "") with
  | none =>
    refine (fresh key).tabs _ ?_
    rw [mintedTabIds, if_pos sent]
    exact List.mem_singleton_self _
  | some tabId =>
    simp only [sent] at none
    split at none
    · cases none
    · refine not_mem_of_holdsTab (fun held => ?_) key
      rw [Option.getD_some] at held
      simp [held] at none

theorem ensures_drawnTabOpen {tabId : Option String} {sameContent : LayoutTab → Bool}
    {refuseTaken : Bool} {outcome : Applied}
    (drawn : drawnTabOpen model key tabId sameContent refuseTaken = some outcome) :
    Ensures outcome (Accounted ids model) := by
  unfold drawnTabOpen at drawn
  split at drawn
  · cases drawn
  · split at drawn
    · cases drawn
      exact ensures_same rfl
    · obtain ⟨_, refused⟩ := Option.ite_none_right_eq_some.mp drawn
      cases refused
      exact .refuse _

/-- The tab-bar id of a browser's open. -/
def OpenBrowserTab.openedTabId (command : OpenBrowserTab) (context : LayoutContext) : String :=
  command.tabId.getD ((command.browserTabId.or command.pageId).getD (context.mintId .browserTab))

/-- A window's ids are checked; a host's must be new. -/
def OpenBrowserTab.newTabIds (command : OpenBrowserTab) (context : LayoutContext) : List String :=
  if command.browserTabId.any (· ≠ "") then [] else [command.openedTabId context]

/-- Owner builds check a sender's id; shipped ones do not. -/
def OpenAgentSessionTab.newTabIds (ownerIsMain : Bool) (command : OpenAgentSessionTab)
    (context : LayoutContext) : List String :=
  if ownerIsMain then mintedTabIds command.tabId context else [openTabId command.tabId context]

def OpenSimulatorTab.newTabIds (command : OpenSimulatorTab) : List String :=
  if command.tabId = "" then [command.tabId] else []

theorem ensures_takenBrowserTabIds {tabId browserTabId pageId : String} {outcome : Applied}
    (taken : takenBrowserTabIds model key tabId browserTabId pageId = some outcome) :
    Ensures outcome (Accounted ids model) := by
  unfold takenBrowserTabIds at taken
  simp only at taken
  split at taken
  · cases taken
    exact ensures_same rfl
  · split at taken
    · cases taken
      exact .refuse _
    · obtain ⟨_, refused⟩ := Option.ite_none_right_eq_some.mp taken
      cases refused
      exact .refuse _

theorem unused_of_takenBrowserTabIds {command : OpenBrowserTab} {browserTabId pageId : String}
    (untaken : (if command.browserTabId.any (· ≠ "") then
      takenBrowserTabIds model key (command.openedTabId context) browserTabId pageId
      else none) = none)
    (fresh : NewIds.FreshInModel ⟨command.newTabIds context, [], []⟩ model) (other : String) :
    command.openedTabId context ∉ (workspaceOrEmpty model other).tabIds := by
  unfold OpenBrowserTab.newTabIds at fresh
  by_cases named : command.browserTabId.any (· ≠ "") = true
  · rw [if_pos named] at untaken
    refine not_mem_of_holdsTab (fun held => ?_) other
    unfold takenBrowserTabIds at untaken
    simp only at untaken
    split at untaken
    · cases untaken
    · split at untaken
      · cases untaken
      · next free =>
        refine free ?_
        obtain ⟨workspace, stored, tab⟩ := List.any_eq_true.mp held
        obtain ⟨tab, inside, sameId⟩ := List.any_eq_true.mp tab
        refine List.any_eq_true.mpr ⟨workspace, stored, List.any_eq_true.mpr ⟨tab, inside, ?_⟩⟩
        simp [of_decide_eq_true sameId]
  · rw [if_neg named] at fresh
    exact (fresh other).tabs _ (List.mem_singleton_self _)

/-! ## Opening -/

theorem withOpened_edit {command : OpenEditorTab} {tabId : String} {before : WorkspaceLayout}
    (edit : CommandEdit ids [] before workspace) :
    CommandEdit ids [] before (withOpened ownerIsMain workspace command tabId) := by
  unfold withOpened withEditorView withEditorFile
  split <;> split <;> exact edit.then_same rfl rfl rfl rfl rfl

theorem ensures_openEditorTab {command : OpenEditorTab} :
    Ensures (openEditorTab ownerIsMain model key command context)
      (Accounted ⟨mintedTabIds command.tabId context, [], []⟩ model) := by
  unfold openEditorTab
  simp only
  split
  case h_1 => exact .refuse _
  case h_2 fileId opened =>
    split
    case h_1 => exact .refuse _
    case h_2 drawn found => exact ensures_edit rfl (withOpened_edit (.refl _ _))
    case h_3 none =>
      split
      case isTrue => exact .refuse _
      case isFalse =>
        split
        case h_1 existing found =>
          refine ensures_edit rfl (withOpened_edit ?_)
          split
          · have member := List.mem_of_find?_eq_some found
            exact .weaken (.of_replaceTab_same member (LayoutTab.id_withFields ..)
              (LayoutTab.leafIds_withFields ..))
          · exact .refl _ _
        case h_2 =>
          refine .applied (.of_unused (openTabId command.tabId context) ?_ ?_)
          · exact .of_edit rfl (withOpened_edit (placeContentTab_edit
              (isPlacementTarget_withSendersGroup _) rfl))
          · exact fun fresh key => unused_of_drawnTabOpen none fresh key

theorem withBrowserTabs_edit {before : WorkspaceLayout} {browserTabs : Option (List LayoutBrowserTab)}
    (edit : CommandEdit ids [] before workspace) :
    CommandEdit ids [] before { workspace with browserTabs := browserTabs } :=
  edit.then_same rfl rfl rfl rfl rfl

theorem ensures_openBrowserTab {command : OpenBrowserTab} :
    Ensures (openBrowserTab ownerIsMain model key command context)
      (Accounted ⟨command.newTabIds context, [], []⟩ model) := by
  unfold openBrowserTab
  simp only
  split
  case h_1 taken checked =>
    obtain ⟨_, checked⟩ := Option.ite_none_right_eq_some.mp checked
    exact ensures_takenBrowserTabIds checked
  case h_2 untaken =>
    refine .applied (.of_unused (command.openedTabId context) ?_ ?_)
    · exact .of_edit rfl (withBrowserTabs_edit (placeContentTab_edit (isPlacementTarget_self _) rfl))
    · exact fun fresh key => unused_of_takenBrowserTabIds untaken fresh key

theorem ensures_openAgentSessionTab {command : OpenAgentSessionTab} :
    Ensures (openAgentSessionTab ownerIsMain model key command context)
      (Accounted ⟨command.newTabIds ownerIsMain context, [], []⟩ model) := by
  unfold openAgentSessionTab
  split
  case isTrue => exact ensures_same rfl
  case isFalse =>
    split
    case h_1 drawn found => exact ensures_drawnTabOpen found
    case h_2 none =>
      refine .applied (.of_unused (openTabId command.tabId context) ?_ ?_)
      · exact .of_edit rfl (placeContentTab_edit (isPlacementTarget_withSendersGroup _) rfl)
      · intro fresh key
        unfold OpenAgentSessionTab.newTabIds at fresh
        cases ownerIsMain with
        | true => exact unused_of_drawnTabOpen none fresh key
        | false => exact (fresh key).tabs _ (List.mem_singleton_self _)

theorem ensures_openSimulatorTab {command : OpenSimulatorTab} :
    Ensures (openSimulatorTab ownerIsMain model key command context)
      (Accounted ⟨command.newTabIds, [], []⟩ model) := by
  unfold openSimulatorTab
  split
  case h_1 drawn found => exact ensures_drawnTabOpen found
  case h_2 none =>
    simp only
    split
    case isTrue => exact .refuse _
    case isFalse =>
      refine .applied (.of_unused command.tabId ?_ ?_)
      · exact .of_edit rfl (placeContentTab_edit (isPlacementTarget_withSendersGroup _) rfl)
      · intro fresh key
        unfold OpenSimulatorTab.newTabIds at fresh
        by_cases sent : command.tabId = ""
        · rw [if_pos sent] at fresh
          exact (fresh key).tabs _ (List.mem_singleton_self _)
        · have kept : (some command.tabId).filter (· ≠ "") = some command.tabId := by
            rw [Option.filter_some, if_pos (decide_eq_true sent)]
          have minted : mintedTabIds (some command.tabId) context = [] := by
            rw [mintedTabIds, kept, if_neg nofun]
          have named : openTabId (some command.tabId) context = command.tabId := by
            rw [openTabId, kept, Option.getD_some]
          rw [if_neg sent] at fresh
          rw [← named]
          exact unused_of_drawnTabOpen none (minted.symm ▸ fresh) key

end OxeeUI.Layout
