import OxeeUI.Layout.PaneEdits

/-!
# Panes that leave their tab

A closed or exited pane goes with its data, and its tab when it was the last.  A pane
that moves to a tab of its own keeps its data.
-/

namespace OxeeUI.Layout

open OxeeUI.Library SplitTree

variable {ownerIsMain : Bool} {model : WorkspaceLayoutModel} {key : String}
variable {workspace after : WorkspaceLayout} {context : LayoutContext}

/-! ## Retiring -/

def retiredPane (workspace : WorkspaceLayout) (tab : LayoutTerminalTab) (leafId : String) :
    WorkspaceLayout :=
  let next :=
    match removeLayoutLeaf tab.panes.root leafId with
    | none => removeTabFromWorkspace workspace tab.id
    | some root =>
      replaceTab workspace
        (.terminal { tab with panes := ⟨some root, chatWithout tab.panes.chatLeafId leafId⟩ })
  { next with leaves := next.leaves.delete leafId }

theorem leaf?_retiredPane (tab : LayoutTerminalTab) (leafId other : String) :
    (retiredPane workspace tab leafId).leaf? other =
      if other ∈ [leafId] then none else workspace.leaf? other := by
  have kept : ∀ next : WorkspaceLayout, next.leaves = workspace.leaves →
      ({ next with leaves := next.leaves.delete leafId } : WorkspaceLayout).leaf? other =
        if other ∈ [leafId] then none else workspace.leaf? other := by
    intro next leaves
    show (next.leaves.delete leafId).get? other = _
    rw [leaves, JsMap.get?_delete]
    exact if_congr List.mem_singleton.symm rfl rfl
  unfold retiredPane
  cases removeLayoutLeaf tab.panes.root leafId with
  | none => exact kept _ rfl
  | some root => exact kept _ rfl

section Retire

variable {tab : LayoutTerminalTab} {leafId : String}
variable (member : .terminal tab ∈ workspace.tabs) (held : leafId ∈ leafIdsOf tab)
include member held

theorem panesGone_retiredPane : PanesGone [leafId] workspace (retiredPane workspace tab leafId) where
  leaves := leaf?_retiredPane tab leafId
  inside := by
    intro other pane
    unfold retiredPane at pane
    cases rest : removeLayoutLeaf tab.panes.root leafId with
    | none =>
      rw [rest] at pane
      obtain ⟨entry, kept, inside⟩ := List.mem_flatMap.mp pane
      exact mem_paneIds_of_mem (List.mem_of_mem_filter kept) inside
    | some root =>
      rw [rest] at pane
      refine (mem_paneIds_replaceTab pane).elim (fun own => mem_paneIds_of_mem member ?_) id
      have stays : other ∈ leavesOf (some root) := own
      rw [← rest, leavesOf_removeLayoutLeaf] at stays
      exact List.mem_of_mem_filter stays
  panes := by
    intro holes rules
    have distinct : (leafIdsOf tab).Nodup := rules.panes.leafIds_nodup member
    have others : (leafIdsOf tab).filter (· ≠ leafId) = (leafIdsOf tab).erase leafId :=
      filter_ne_eq_erase distinct
    have leaves := leavesOf_removeLayoutLeaf tab.panes.root leafId
    unfold retiredPane
    cases rest : removeLayoutLeaf tab.panes.root leafId with
    | none =>
      -- The tab held no other pane.
      rw [rest] at leaves
      have only : leafIdsOf tab = [leafId] := by
        have perm := List.perm_cons_erase held
        rw [← others, show (leafIdsOf tab).filter (· ≠ leafId) = [] from leaves.symm] at perm
        exact List.perm_singleton.mp perm
      have removed := paneIds_removeTab_perm rules.groups.distinct member
      rwa [show (LayoutTab.terminal tab).leafIds = [leafId] from only] at removed
    | some root =>
      rw [rest] at leaves
      let left : LayoutTerminalTab :=
        { tab with panes := ⟨some root, chatWithout tab.panes.chatLeafId leafId⟩ }
      have own : ([leafId] ++ (LayoutTab.terminal left).leafIds).Perm
          ([] ++ (LayoutTab.terminal tab).leafIds) := by
        show (leafId :: root.leaves).Perm (leafIdsOf tab)
        rw [show root.leaves = (leafIdsOf tab).filter (· ≠ leafId) from leaves, others]
        exact (List.perm_cons_erase held).symm
      have sameId : (LayoutTab.terminal left).id = (LayoutTab.terminal tab).id := rfl
      exact paneIds_replaceTab_perm rules.groups.distinct member sameId own

theorem retiredPane_layout : LayoutEdit .none workspace (retiredPane workspace tab leafId) := by
  refine (panesGone_retiredPane member held).layout ?_ ?_
  · intro id inside
    unfold retiredPane at inside
    cases rest : removeLayoutLeaf tab.panes.root leafId with
    | none =>
      rw [rest] at inside
      have removed : id ∈ (removeTabFromWorkspace workspace tab.id).tabIds := inside
      rw [tabIds_removeTabFromWorkspace] at removed
      exact List.mem_of_mem_filter removed
    | some root =>
      rw [rest] at inside
      exact (tabIds_replaceTab workspace _) ▸ inside
  · intro holes groups
    unfold retiredPane
    cases removeLayoutLeaf tab.panes.root leafId with
    | none => exact (groups.removeTab tab.id).congr rfl rfl rfl
    | some root => exact groups.congr (tabIds_replaceTab ..) rfl rfl

theorem retiredPane_edit :
    CommandEdit .none (((leafOrEmpty workspace leafId).ptyId.filter (· ≠ "")).toList) workspace
      (retiredPane workspace tab leafId) where
  layout := retiredPane_layout member held
  terminals := by
    refine (panesGone_retiredPane member held).terminals ?_ ?_
    · intro other goes ptyId proper bound
      rw [List.mem_singleton.mp goes] at bound
      rw [show (leafOrEmpty workspace leafId).ptyId = some ptyId from bound, Option.filter_some,
        if_pos (decide_eq_true proper)]
      exact List.mem_singleton_self ptyId
    · intro ptyId stop
      refine ⟨leafId, List.mem_singleton_self leafId, ?_⟩
      exact (Option.filter_eq_some_iff.mp (Option.mem_toList.mp stop)).1

end Retire

theorem ensures_closePane {command : ClosePane} (found : workspaceOrEmpty model key = workspace) :
    Ensures (closePane model key workspace command) (Accounted .none model) := by
  unfold closePane
  cases located : findTerminal workspace command.tabId with
  | none => exact ensures_same rfl
  | some tab =>
    simp only
    split
    case isTrue => exact ensures_same rfl
    case isFalse present =>
      have held : command.leafId ∈ leafIdsOf tab :=
        layoutContainsLeafId_iff.mp (by simpa using present)
      split
      · exact .refuse _
      · exact ensures_edit found (retiredPane_edit (mem_of_findTerminal located) held)

/-! ## A tab of its own -/

/-- The pane leaves its tab for a new one; its data stays under its id. -/
theorem movedPane_edit {tab source moved : LayoutTerminalTab} {leafId : String}
    (placed : PlacedTab (.terminal moved) (replaceTab workspace (.terminal source)) after)
    (member : .terminal tab ∈ workspace.tabs) (held : leafId ∈ leafIdsOf tab)
    (sameId : source.id = tab.id) (left : leafIdsOf source = (leafIdsOf tab).filter (· ≠ leafId))
    (panes : leafIdsOf moved = [leafId]) :
    CommandEdit ⟨[moved.id], [], []⟩ [] workspace after := by
  have paneIds : after.paneIds =
      (replaceTab workspace (.terminal source)).paneIds ++ [leafId] := by
    rw [placed.paneIds]
    exact congrArg _ panes
  have tabIds : after.tabIds = workspace.tabIds ++ [moved.id] := by
    rw [placed.tabIds, tabIds_replaceTab]
    rfl
  have named : (LayoutTab.terminal source).id = (LayoutTab.terminal tab).id := sameId
  have perm : ∀ holes, WorkspaceRules holes workspace → after.paneIds.Perm workspace.paneIds := by
    intro holes rules
    have distinct : (leafIdsOf tab).Nodup := rules.panes.leafIds_nodup member
    have own : ([leafId] ++ (LayoutTab.terminal source).leafIds).Perm
        ([] ++ (LayoutTab.terminal tab).leafIds) := by
      show (leafId :: leafIdsOf source).Perm (leafIdsOf tab)
      rw [left, filter_ne_eq_erase distinct]
      exact (List.perm_cons_erase held).symm
    rw [paneIds]
    exact List.perm_append_comm.trans
      (paneIds_replaceTab_perm rules.groups.distinct member named own)
  refine ⟨⟨?_, ?_, ?_⟩, .of_panes (bindingAt_of_leaves placed.leaves) ?_⟩
  · intro holes rules fresh
    refine ⟨placed.groupsHoldTabs (rules.groups.congr (tabIds_replaceTab ..) rfl rfl) ?_,
      rules.panes.congr (perm holes rules) placed.leaves⟩
    rw [tabIds_replaceTab]
    exact fresh.tabs _ (List.mem_singleton_self _)
  · intro id inside
    rw [tabIds, List.mem_append] at inside
    exact inside.symm
  · intro id inside
    rw [paneIds, List.mem_append] at inside
    refine Or.inr (inside.elim (fun kept => ?_) fun moves => ?_)
    · rcases mem_paneIds_replaceTab kept with own | other
      · have own : id ∈ leafIdsOf source := own
        exact mem_paneIds_of_mem member (List.mem_of_mem_filter (left ▸ own))
      · exact other
    · exact List.mem_singleton.mp moves ▸ mem_paneIds_of_mem member held
  · exact fun holes rules leafId pane => (perm holes rules).mem_iff.mpr pane

theorem bindDetachedLeaf_layout {leafId : String} (member : leafId ∈ workspace.paneIds)
    (detach : Option WindowPaneDetach) :
    LayoutEdit .none workspace (bindDetachedLeaf workspace leafId detach) := by
  unfold bindDetachedLeaf
  split
  · exact .refl ..
  · simp only
    split
    · exact .refl ..
    · split
      · exact .of_setLeaf member fun _ rules => rules.panes.exclusive_leafOrEmpty leafId
      · exact .of_setLeaf member fun _ rules => rules.panes.exclusive_leafOrEmpty leafId

theorem tabs_bindDetachedLeaf (leafId : String) (detach : Option WindowPaneDetach) :
    (bindDetachedLeaf workspace leafId detach).tabs = workspace.tabs := by
  unfold bindDetachedLeaf
  split
  · rfl
  · simp only
    split
    · rfl
    · split <;> rfl

def MovePaneToNewTab.newTabId (command : MovePaneToNewTab) (context : LayoutContext) : String :=
  (command.windowDetach.bind WindowPaneDetach.tabId).getD (context.mintId .tab)

def LayoutTerminalTab.withoutPane (tab : LayoutTerminalTab) (leafId : String) :
    LayoutTerminalTab :=
  { tab with
    panes := ⟨removeLayoutLeaf tab.panes.root leafId, chatWithout tab.panes.chatLeafId leafId⟩ }

theorem leafIdsOf_withoutPane (tab : LayoutTerminalTab) (leafId : String) :
    leafIdsOf (tab.withoutPane leafId) = (leafIdsOf tab).filter (· ≠ leafId) :=
  leavesOf_removeLayoutLeaf ..

theorem ensures_movePaneToNewTab {command : MovePaneToNewTab}
    (found : workspaceOrEmpty model key = workspace) :
    Ensures (movePaneToNewTab ownerIsMain model key workspace command context) fun result =>
      KeepsRules ⟨[command.newTabId context], [], []⟩ model result.model ∧
      (command.windowDetach = none →
        Accounted ⟨[command.newTabId context], [], []⟩ model result) := by
  unfold movePaneToNewTab
  cases located : paneTab workspace command.tabId with
  | none => exact .refuse _
  | some pane =>
    obtain ⟨tab, root⟩ := pane
    obtain ⟨member, stored⟩ := of_paneTab located
    simp only
    split
    case isTrue => exact .refuse _
    case isFalse present =>
      split
      case isTrue => exact .refuse _
      case isFalse =>
        have held : command.leafId ∈ leafIdsOf tab := by
          rw [show leafIdsOf tab = root.leaves from leafIds_of_root stored]
          simpa [holds_iff] using present
        have edit : ∀ (moved : LayoutTerminalTab) {placed : WorkspaceLayout},
            PlacedTab (.terminal moved)
              (replaceTab (bindDetachedLeaf workspace command.leafId command.windowDetach)
                (.terminal (tab.withoutPane command.leafId))) placed →
            leafIdsOf moved = [command.leafId] → moved.id = command.newTabId context →
            CommandEdit ⟨[command.newTabId context], [], []⟩ []
              (bindDetachedLeaf workspace command.leafId command.windowDetach) placed := by
          intro moved placed isPlaced panes named
          have tabs : (bindDetachedLeaf workspace command.leafId command.windowDetach).tabs =
              workspace.tabs := tabs_bindDetachedLeaf ..
          rw [← named]
          exact movedPane_edit isPlaced (tabs.symm ▸ member) held rfl (leafIdsOf_withoutPane ..)
            panes
        subst found
        have pane := mem_paneIds_of_mem member held
        let moved := movedPaneTab (bindDetachedLeaf (workspaceOrEmpty model key) command.leafId
          command.windowDetach) tab (command.newTabId context) command.leafId
          command.windowDetach context
        refine .applied ⟨.of_set rfl ?_, fun attached => .of_edit rfl ?_⟩
        · exact (bindDetachedLeaf_layout pane command.windowDetach).then
            (edit moved placedTab_placeNewTab rfl rfl).layout
        · have same : bindDetachedLeaf (workspaceOrEmpty model key) command.leafId
              command.windowDetach = workspaceOrEmpty model key := by
            rw [attached]
            rfl
          exact Eq.subst (motive := fun before => CommandEdit _ _ before _) same
            (edit moved placedTab_placeNewTab rfl rfl)

end OxeeUI.Layout
