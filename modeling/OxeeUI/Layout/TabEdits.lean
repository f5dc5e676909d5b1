import OxeeUI.Layout.GroupMoves
import OxeeUI.Layout.ModelEdits
import OxeeUI.Library.Run

/-!
# What the tab commands do

Closing takes a tab with its panes and stops their terminals; the other commands change
what a tab says of itself.
-/

namespace OxeeUI.Layout

open OxeeUI.Library

variable {ownerIsMain : Bool} {model : WorkspaceLayoutModel} {key : String}
variable {workspace : WorkspaceLayout} {context : LayoutContext} {ids : NewIds}

/-! ## Finding -/

theorem mem_of_findTab {tabId : String} {tab : LayoutTab}
    (found : findTab workspace tabId = some tab) : tab ∈ workspace.tabs :=
  List.mem_of_find?_eq_some found

theorem id_of_findTab {tabId : String} {tab : LayoutTab}
    (found : findTab workspace tabId = some tab) : tab.id = tabId := by
  simpa using List.find?_some found

theorem mem_of_findTerminal {tabId : String} {tab : LayoutTerminalTab}
    (found : findTerminal workspace tabId = some tab) : .terminal tab ∈ workspace.tabs := by
  obtain ⟨entry, found, terminal⟩ := Option.bind_eq_some_iff.mp found
  cases entry with
  | content other => cases terminal
  | terminal other =>
    cases terminal
    exact mem_of_findTab found

/-! ## Closing -/

theorem leaf?_closeTab (tab : LayoutTab) (leafId : String) :
    (closeTab ownerIsMain workspace tab).leaf? leafId =
      if leafId ∈ tab.leafIds then none else workspace.leaf? leafId := by
  show (workspace.leaves.filter fun leafId _ => leafId ∉ tab.leafIds).get? leafId = _
  rw [JsMap.get?_filter]
  by_cases goes : leafId ∈ tab.leafIds
  · rw [if_pos goes]
    simp [goes]
  · rw [if_neg goes, decide_eq_true goes]
    show _ = workspace.leaves.get? leafId
    cases workspace.leaves.get? leafId <;> rfl

theorem panesGone_closeTab {tab : LayoutTab} (member : tab ∈ workspace.tabs) :
    PanesGone tab.leafIds workspace (closeTab ownerIsMain workspace tab) where
  leaves := leaf?_closeTab tab
  inside := by
    intro leafId pane
    obtain ⟨entry, kept, inside⟩ := List.mem_flatMap.mp pane
    exact mem_paneIds_of_mem (List.mem_of_mem_filter kept) inside
  panes := fun _ rules => paneIds_removeTab_perm rules.groups.distinct member

theorem mem_boundPtyIds {tab : LayoutTab} {ptyId : String} :
    ptyId ∈ boundPtyIds workspace tab ↔
      ∃ leafId ∈ tab.leafIds, (workspace.bindingAt leafId).ptyId = some ptyId := by
  unfold boundPtyIds WorkspaceLayout.bindingAt leafOrEmpty
  rw [List.mem_filterMap]
  refine exists_congr fun leafId => and_congr_right fun _ => ?_
  cases workspace.leaf? leafId with
  | none => exact ⟨nofun, nofun⟩
  | some leaf => rfl

theorem closeTab_edit {tab : LayoutTab} (member : tab ∈ workspace.tabs) :
    CommandEdit .none (boundPtyIds workspace tab) workspace (closeTab ownerIsMain workspace tab) where
  layout := by
    refine (panesGone_closeTab member).layout ?_ ?_
    · intro id inside
      obtain ⟨entry, kept, rfl⟩ := List.mem_map.mp inside
      exact List.mem_map_of_mem (List.mem_of_mem_filter kept)
    · exact fun holes groups => (groups.removeTab tab.id).congr rfl rfl rfl
  terminals := by
    refine (panesGone_closeTab member).terminals ?_ ?_
    · exact fun leafId goes ptyId _ bound => mem_boundPtyIds.mpr ⟨leafId, goes, bound⟩
    · exact fun ptyId stop => mem_boundPtyIds.mp stop

/-- What a batch closed so far accounts for what it stops. -/
def Closing.Accounts (workspace : WorkspaceLayout) (closing : Closing) : Prop :=
  CommandEdit .none closing.stopPtyIds workspace closing.workspace

theorem accounts_closeNextTab {command : CloseTabs} {closing : Closing} (tabId : String)
    (accounts : closing.Accounts workspace) :
    (closeNextTab ownerIsMain command closing tabId).Accounts workspace := by
  unfold closeNextTab
  cases found : findTab closing.workspace tabId with
  | none => exact accounts
  | some tab =>
    simp only
    split
    · exact accounts
    · split
      · exact accounts
      · exact CommandEdit.trans accounts (closeTab_edit (mem_of_findTab found))

theorem accounts_closeAll (command : CloseTabs) :
    (closeAll ownerIsMain command workspace).Accounts workspace := by
  have initially : (⟨workspace, [], [], [], []⟩ : Closing).Accounts workspace := .refl .none workspace
  exact foldl_preserves initially
    (fun _ tabId accounts => accounts_closeNextTab tabId accounts) command.tabIds

theorem ensures_closeTabs {command : CloseTabs} (found : workspaceOrEmpty model key = workspace) :
    Ensures (closeTabs ownerIsMain model key workspace command context)
      (Accounted .none model) := by
  unfold closeTabs
  have edit : (closeAll ownerIsMain command workspace).Accounts workspace :=
    accounts_closeAll command
  refine ensures_edit found ?_
  cases command.recordClose with
  | none => exact edit
  | some reason =>
    simp only
    split
    · exact edit
    · exact CommandEdit.then_same edit rfl rfl rfl rfl rfl

/-! ## Titles and properties -/

theorem withFields_edit {tabId : String} {tab : LayoutTab} {fields : LayoutTabFields}
    (found : findTab workspace tabId = some tab) (sameId : fields.id = tab.id) :
    CommandEdit .none [] workspace (replaceTab workspace (tab.withFields fields)) :=
  .of_replaceTab_same (mem_of_findTab found) (by simpa using sameId) (by simp)

theorem ensures_renameTab {tabId : String} {title : TabTitle}
    (found : workspaceOrEmpty model key = workspace) :
    Ensures (renameTab model key workspace tabId title) (Accounted .none model) := by
  unfold renameTab
  cases located : findTab workspace tabId with
  | none => exact .refuse _
  | some tab =>
    cases title with
    | aiVault title => exact ensures_edit found (withFields_edit located rfl)
    | custom title expected =>
      simp only
      split
      · exact .refuse _
      · exact ensures_edit found (withFields_edit located rfl)
    | generated title replaceExisting =>
      simp only
      split
      · exact .refuse _
      · exact ensures_edit found (withFields_edit located rfl)

theorem id_withTabProps (command : SetTabProps) (tab : LayoutTab) :
    (withTabProps command tab).id = tab.id := by
  cases tab with
  | content tab => rfl
  | terminal tab =>
    unfold withTabProps
    simp only [LayoutTab.withFields]
    split <;> rfl

theorem leafIds_withTabProps (command : SetTabProps) (tab : LayoutTab) :
    (withTabProps command tab).leafIds = tab.leafIds := by
  cases tab with
  | content tab => rfl
  | terminal tab =>
    unfold withTabProps
    simp only [LayoutTab.withFields]
    split <;> rfl

theorem ensures_setTabProps {command : SetTabProps}
    (found : workspaceOrEmpty model key = workspace) :
    Ensures (setTabProps model key workspace command) (Accounted .none model) := by
  unfold setTabProps
  cases located : findTab workspace command.tabId with
  | none => exact .refuse _
  | some tab =>
    have edit : CommandEdit .none [] workspace
        (replaceTab workspace (withTabProps command tab)) :=
      .of_replaceTab_same (mem_of_findTab located) (id_withTabProps command tab)
        (leafIds_withTabProps command tab)
    simp only
    split
    · exact .refuse _
    · split
      · exact ensures_edit found edit
      · refine ensures_edit found (edit.trans (CommandEdit.of_groups rfl rfl ?_))
        exact fun holes groups _ => groups.repin _ _

theorem ensures_setChatPane {command : SetChatPane}
    (found : workspaceOrEmpty model key = workspace) :
    Ensures (setChatPane model key workspace command) (Accounted .none model) := by
  unfold setChatPane
  cases located : findTerminal workspace command.tabId with
  | none => exact .refuse _
  | some tab =>
    simp only
    split
    · exact .refuse _
    · exact ensures_edit found (.of_replaceTab_same (mem_of_findTerminal located) rfl rfl)

theorem ensures_promotePreviewTab {tabId : String}
    (found : workspaceOrEmpty model key = workspace) :
    Ensures (promotePreviewTab model key workspace tabId) (Accounted .none model) := by
  unfold promotePreviewTab
  cases located : findTab workspace tabId with
  | none => exact .refuse _
  | some tab => exact ensures_edit found (withFields_edit located rfl)

end OxeeUI.Layout
