import OxeeUI.Layout.TabEdits

/-!
# What the pane commands do

Panes split, move and close; their data follows their ids.  A closed or restarted pane's
terminal stops, every other terminal stays with its pane.
-/

namespace OxeeUI.Layout

open OxeeUI.Library SplitTree

variable {ownerIsMain : Bool} {model : WorkspaceLayoutModel} {key : String}
variable {workspace : WorkspaceLayout} {context : LayoutContext} {ids : NewIds}

/-! ## Finding -/

theorem of_paneTab {tabId : String} {tab : LayoutTerminalTab} {root : TerminalPaneLayoutNode}
    (found : paneTab workspace tabId = some (tab, root)) :
    .terminal tab ∈ workspace.tabs ∧ tab.panes.root = some root := by
  obtain ⟨entry, located, shown⟩ := Option.bind_eq_some_iff.mp found
  obtain ⟨held, stored, same⟩ := Option.map_eq_some_iff.mp shown
  cases same
  exact ⟨mem_of_findTerminal located, stored⟩

theorem leafIds_of_root {tab : LayoutTerminalTab} {root : TerminalPaneLayoutNode}
    (stored : tab.panes.root = some root) : (LayoutTab.terminal tab).leafIds = root.leaves := by
  show leavesOf tab.panes.root = _
  rw [stored]
  rfl

theorem mem_paneIds_of_holds {tabId leafId : String} {tab : LayoutTerminalTab}
    {root : TerminalPaneLayoutNode} (found : paneTab workspace tabId = some (tab, root))
    (holds : root.holds leafId = true) : leafId ∈ workspace.paneIds := by
  obtain ⟨member, stored⟩ := of_paneTab found
  exact mem_paneIds_of_mem member (leafIds_of_root stored ▸ holds_iff.mp holds)

theorem of_locatePane {paneKey leafId : String} {tab : LayoutTerminalTab}
    (found : locatePane workspace paneKey = some (tab, leafId)) :
    .terminal tab ∈ workspace.tabs ∧ leafId ∈ leafIdsOf tab := by
  obtain ⟨entry, member, located⟩ := List.exists_of_findSome?_eq_some found
  cases entry with
  | content other => cases located
  | terminal other =>
    simp only [locatePaneInTab] at located
    split at located
    · cases located
    · next inside =>
      simp only [Option.ite_none_left_eq_some, Option.some.injEq, Prod.mk.injEq] at located
      obtain ⟨_, rfl, rfl⟩ := located
      exact ⟨member, List.mem_of_find?_eq_some inside⟩

theorem mem_paneIds_of_locatePane {paneKey leafId : String} {tab : LayoutTerminalTab}
    (found : locatePane workspace paneKey = some (tab, leafId)) : leafId ∈ workspace.paneIds :=
  mem_paneIds_of_mem (of_locatePane found).1 (of_locatePane found).2

theorem mem_paneIds_of_workspacePanes {pane : String × String}
    (member : pane ∈ workspacePanes workspace) : pane.2 ∈ workspace.paneIds := by
  obtain ⟨tab, stored, inside⟩ := List.mem_flatMap.mp member
  obtain ⟨leafId, held, rfl⟩ := List.mem_map.mp inside
  exact mem_paneIds_of_mem stored held

/-! ## Trees of panes -/

theorem withRoot_edit {tab : LayoutTerminalTab} {root next : TerminalPaneLayoutNode}
    (member : .terminal tab ∈ workspace.tabs) (stored : tab.panes.root = some root)
    (leaves : next.leaves = root.leaves) :
    CommandEdit .none [] workspace (replaceTab workspace (tab.withRoot next)) :=
  .of_replaceTab_same member rfl (leaves.trans (leafIds_of_root stored).symm)

theorem mem_leaves_insertLeafBeside {node : TerminalPaneLayoutNode}
    {targetLeafId newLeafId leafId : String} {side : PaneSide} {ratio : Option Rat}
    (member : leafId ∈ (insertLeafBeside node targetLeafId newLeafId side ratio).leaves) :
    leafId = newLeafId ∨ leafId ∈ node.leaves := by
  unfold insertLeafBeside at member
  rw [leaves_substitute] at member
  obtain ⟨origin, stored, inside⟩ := List.mem_flatMap.mp member
  by_cases split : origin = targetLeafId
  · rw [if_pos split, (leaves_paneSplit ..).mem_iff] at inside
    rcases List.mem_cons.mp inside with new | old
    · exact Or.inl new
    · rw [List.mem_singleton.mp old, ← split]
      exact Or.inr stored
  · rw [if_neg split] at inside
    rw [List.mem_singleton.mp inside]
    exact Or.inr stored

theorem ensures_splitPane {command : SplitPane}
    (found : workspaceOrEmpty model key = workspace) :
    Ensures (splitPane model key workspace command context)
      (Accounted ⟨[], [command.newLeafId.getD context.mintLeafId], []⟩ model) := by
  unfold splitPane
  cases located : paneTab workspace command.tabId with
  | none => exact .refuse _
  | some pane =>
    obtain ⟨tab, root⟩ := pane
    obtain ⟨member, stored⟩ := of_paneTab located
    simp only
    split
    case isTrue => exact .refuse _
    case isFalse present =>
      have held : command.leafId ∈ root.leaves := by simpa [holds_iff] using present
      refine ensures_edit found (.of_replaceTab member rfl (List.nodup_singleton _) ?_ ?_)
      · intro distinct
        rw [leafIds_of_root stored] at distinct ⊢
        exact leaves_insertLeafBeside distinct held
      · intro leafId inside
        rw [leafIds_of_root stored]
        exact (mem_leaves_insertLeafBeside inside).imp_left List.mem_singleton.mpr

theorem ensures_movePane {command : MovePane} (found : workspaceOrEmpty model key = workspace) :
    Ensures (movePane model key workspace command) (Accounted .none model) := by
  unfold movePane
  split
  case isTrue => exact .refuse _
  case isFalse different =>
    cases located : paneTab workspace command.tabId with
    | none => exact .refuse _
    | some pane =>
      obtain ⟨tab, root⟩ := pane
      obtain ⟨member, stored⟩ := of_paneTab located
      simp only
      split
      case isTrue => exact .refuse _
      case isFalse present =>
        obtain ⟨moved, target⟩ : command.leafId ∈ root.leaves ∧
            command.targetLeafId ∈ root.leaves := by
          simpa [holds_iff] using present
        cases rest : removeLayoutLeaf (some root) command.leafId with
        | none => exact .refuse _
        | some without =>
          have leaves : without.leaves = root.leaves.filter (· ≠ command.leafId) := by
            have leaves := leavesOf_removeLayoutLeaf (some root) command.leafId
            rwa [rest] at leaves
          have stays : command.targetLeafId ∈ without.leaves := by
            rw [leaves]
            exact List.mem_filter.mpr ⟨target, decide_eq_true (Ne.symm different)⟩
          refine ensures_edit found (.of_replaceTab member rfl List.nodup_nil ?_ ?_)
          · intro distinct
            rw [leafIds_of_root stored] at distinct ⊢
            refine (leaves_insertLeafBeside (leaves ▸ distinct.filter _) stays).trans ?_
            rw [leaves, filter_ne_eq_erase distinct]
            exact (List.perm_cons_erase moved).symm
          · intro leafId inside
            rw [leafIds_of_root stored]
            rcases mem_leaves_insertLeafBeside inside with rfl | kept
            · exact Or.inr moved
            · exact Or.inr (List.mem_of_mem_filter (leaves ▸ kept))

theorem ensures_setPaneRatios {command : SetPaneRatios}
    (found : workspaceOrEmpty model key = workspace) :
    Ensures (setPaneRatios model key workspace command) (Accounted .none model) := by
  unfold setPaneRatios
  cases located : paneTab workspace command.tabId with
  | none => exact .refuse _
  | some pane =>
    obtain ⟨tab, root⟩ := pane
    obtain ⟨member, stored⟩ := of_paneTab located
    simp only
    split
    case h_1 => exact .refuse _
    case h_2 next chosen =>
      refine ensures_edit found (withRoot_edit member stored ?_)
      split at chosen
      · exact leaves_withSplitRatios chosen
      · have same := (Option.filter_eq_some_iff.mp chosen).2
        exact leaves_eq_of_sameIgnoringRatios same

theorem ensures_equalizePanes {tabId : String} (found : workspaceOrEmpty model key = workspace) :
    Ensures (equalizePanes model key workspace tabId) (Accounted .none model) := by
  unfold equalizePanes
  cases located : paneTab workspace tabId with
  | none => exact .refuse _
  | some pane =>
    obtain ⟨member, stored⟩ := of_paneTab located
    exact ensures_edit found (withRoot_edit member stored (leaves_equalizeLayout _))

/-! ## Pane data -/

theorem CommandEdit.of_setLeaf {leafId : String} {leaf : LayoutLeaf}
    (member : leafId ∈ workspace.paneIds)
    (exclusive : ∀ holes, WorkspaceRules holes workspace →
      leaf.sleeping = none ∨ leaf.resume = none)
    (binding : leaf.binding = workspace.bindingAt leafId) :
    CommandEdit .none [] workspace (setLeaf workspace leafId leaf) :=
  ⟨.of_setLeaf member exclusive, .of_setLeaf binding⟩

theorem ensures_updateLeaf {tabId leafId : String} {change : LayoutLeaf → LayoutLeaf}
    (found : workspaceOrEmpty model key = workspace)
    (records : ∀ leaf, (change leaf).sleeping = leaf.sleeping ∧ (change leaf).resume = leaf.resume)
    (binding : ∀ leaf, (change leaf).binding = leaf.binding) :
    Ensures (updateLeaf model key workspace tabId leafId change) (Accounted .none model) := by
  unfold updateLeaf
  cases located : paneTab workspace tabId with
  | none => exact .refuse _
  | some pane =>
    obtain ⟨tab, root⟩ := pane
    simp only
    split
    case isTrue => exact .refuse _
    case isFalse present =>
      have held := mem_paneIds_of_holds located (by simpa using present)
      refine ensures_edit found (.of_setLeaf held ?_ (binding _))
      intro holes rules
      rw [(records _).1, (records _).2]
      exact rules.panes.exclusive_leafOrEmpty leafId

theorem ensures_renamePane {command : RenamePane}
    (found : workspaceOrEmpty model key = workspace) :
    Ensures (renamePane model key workspace command) (Accounted .none model) :=
  ensures_updateLeaf found (fun _ => ⟨rfl, rfl⟩) fun _ => rfl

theorem ensures_setPaneGrid {command : SetPaneGrid}
    (found : workspaceOrEmpty model key = workspace) :
    Ensures (setPaneGrid model key workspace command) (Accounted .none model) := by
  unfold setPaneGrid
  split
  · exact ensures_same rfl
  · exact ensures_updateLeaf found (fun _ => ⟨rfl, rfl⟩) fun _ => rfl

theorem unbind_layout {leafId : String} (member : leafId ∈ workspace.paneIds) :
    LayoutEdit .none workspace
      (setLeaf workspace leafId (leafOrEmpty workspace leafId).unbound) :=
  .of_setLeaf member fun _ rules => rules.panes.exclusive_leafOrEmpty leafId

theorem ensures_releasePaneTerminal {command : ReleasePaneTerminal}
    (found : workspaceOrEmpty model key = workspace) :
    Ensures (releasePaneTerminal model key workspace command) fun result =>
      KeepsRules .none model result.model ∧ ModelBindsNothingNew model result.model := by
  unfold releasePaneTerminal
  cases located : paneTab workspace command.tabId with
  | none => exact .refuse _
  | some pane =>
    obtain ⟨tab, root⟩ := pane
    simp only
    split
    case isTrue => exact .refuse _
    case isFalse present =>
      have held := mem_paneIds_of_holds located (by simpa using present)
      split
      · exact .applied ⟨.of_same rfl, .of_same rfl⟩
      · subst found
        exact .applied ⟨.of_set rfl (unbind_layout held), .of_set rfl (.of_unbind rfl)⟩

/-! ## Processes -/

theorem ensures_restartPane {paneKey : String} (found : workspaceOrEmpty model key = workspace) :
    Ensures (restartPane model key workspace paneKey) (Accounted .none model) := by
  unfold restartPane
  cases located : locatePane workspace paneKey with
  | none => exact .refuse _
  | some pane =>
    obtain ⟨tab, leafId⟩ := pane
    refine ensures_edit found ⟨unbind_layout (mem_paneIds_of_locatePane located), ?_⟩
    exact .of_unbind rfl

theorem ensures_startPane {paneKey : String} (found : workspaceOrEmpty model key = workspace) :
    Ensures (startPane model key workspace paneKey context) (Accounted .none model) := by
  unfold startPane
  cases located : locatePane workspace paneKey with
  | none => exact .refuse _
  | some pane =>
    obtain ⟨tab, leafId⟩ := pane
    simp only
    split
    · exact ensures_restartPane found
    · split
      · exact ensures_same rfl
      · exact ensures_same rfl

/-- Pane data was rewritten; the tabs are the same. -/
structure Recorded (workspace current : WorkspaceLayout) : Prop where
  edit : CommandEdit .none [] workspace current
  tabs : current.tabs = workspace.tabs

theorem recorded_foldl {write : WorkspaceLayout → String × String → WorkspaceLayout}
    {panes : List (String × String)}
    (inside : ∀ pane ∈ panes, pane ∈ workspacePanes workspace)
    (written : ∀ (current : WorkspaceLayout) (pane : String × String),
      write current pane = current ∨ ∃ leaf : LayoutLeaf,
        write current pane = setLeaf current pane.2 leaf ∧
        (leaf.sleeping = none ∨ leaf.resume = none) ∧
        leaf.binding = current.bindingAt pane.2) :
    Recorded workspace (panes.foldl write workspace) := by
  have initially : Recorded workspace workspace := ⟨.refl _ _, rfl⟩
  refine foldl_preserves_of_mem initially ?_
  intro current pane member recorded
  rcases written current pane with same | ⟨leaf, wrote, exclusive, binding⟩
  · rw [same]
    exact recorded
  · rw [wrote]
    have paneIds : current.paneIds = workspace.paneIds :=
      congrArg (List.flatMap LayoutTab.leafIds) recorded.tabs
    have held := mem_paneIds_of_workspacePanes (inside pane member)
    exact ⟨recorded.edit.trans (.of_setLeaf (paneIds ▸ held) (fun _ _ => exclusive) binding),
      recorded.tabs⟩

theorem exclusive_withRecord (leaf : LayoutLeaf) (record : Json) :
    (leaf.withRecord record).sleeping = none ∨ (leaf.withRecord record).resume = none := by
  unfold LayoutLeaf.withRecord
  simp only
  split
  · exact Or.inr rfl
  · exact Or.inl rfl

theorem binding_withRecord (leaf : LayoutLeaf) (record : Json) :
    (leaf.withRecord record).binding = leaf.binding := by
  unfold LayoutLeaf.withRecord
  simp only
  split <;> rfl

theorem ensures_sleep {command : Sleep} (found : workspaceOrEmpty model key = workspace) :
    Ensures (sleep model key workspace command) fun result =>
      KeepsRules .none model result.model ∧ ModelBindsNothingNew model result.model := by
  unfold sleep
  have recorded : Recorded workspace
      (((workspacePanes workspace).filter fun pane => command.paneKeys.all (pane.1 ∈ ·)).foldl
        (recordSleep command.records) workspace) := by
    refine recorded_foldl (fun _ member => List.mem_of_mem_filter member) ?_
    intro current pane
    unfold recordSleep
    split
    · exact Or.inl rfl
    · exact Or.inr ⟨_, rfl, exclusive_withRecord .., binding_withRecord ..⟩
  subst found
  exact .applied ⟨.of_set rfl recorded.edit.layout, .of_set rfl recorded.edit.terminals.binds⟩

theorem ensures_wake {command : Wake} (found : workspaceOrEmpty model key = workspace) :
    Ensures (wake model key workspace command) (Accounted .none model) := by
  unfold wake
  simp only
  split
  · exact ensures_same rfl
  · refine ensures_edit found (recorded_foldl (fun _ member => List.mem_of_mem_filter member) ?_).edit
    exact fun current pane => Or.inr ⟨_, rfl, Or.inl rfl, rfl⟩

end OxeeUI.Layout
