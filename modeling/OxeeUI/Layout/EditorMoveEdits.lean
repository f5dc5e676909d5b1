import OxeeUI.Layout.OpenEdits
import OxeeUI.Layout.EditorMoves

/-!
# What moving and renaming editor files does

Moved tabs leave one workspace and land in another, renamed ones take new ids where they
are.  No id comes to be held twice, and no pane moves.
-/

namespace OxeeUI.Layout

open OxeeUI.Library SplitTree

variable {ownerIsMain : Bool} {model : WorkspaceLayoutModel} {key : String}
variable {source workspace target current : WorkspaceLayout} {context : LayoutContext}

/-! ## Leaving -/

/-- Some tabs left the workspace, with their places in the groups. -/
structure TabsLeft (removed : List String) (source current : WorkspaceLayout) : Prop where
  tabs : current.tabs = source.tabs.filter fun tab => tab.id ∉ removed
  leaves : current.leaves = source.leaves
  groups : ∀ holes, GroupsHoldTabs holes source → GroupsHoldTabs holes current

theorem tabsLeft_nil (source : WorkspaceLayout) : TabsLeft [] source source :=
  ⟨by simp, rfl, fun _ groups => groups⟩

theorem TabsLeft.withoutTab {removed : List String} (left : TabsLeft removed source current)
    (tabId : String) : TabsLeft (removed ++ [tabId]) source (withoutTab current tabId) where
  tabs := by
    show current.tabs.filter (fun tab => tab.id ≠ tabId) = _
    rw [left.tabs, List.filter_filter]
    refine List.filter_congr fun tab _ => ?_
    by_cases same : tab.id = tabId <;> simp [same]
  leaves := left.leaves
  groups := fun holes groups => ((left.groups holes groups).removeTab tabId).congr rfl rfl rfl

theorem tabsLeft_foldl (folds : List LayoutContentTab) :
    TabsLeft (folds.map fun tab => tab.id) source
      (folds.foldl (fun source tab => withoutTab source tab.id) source) := by
  have fold : ∀ {removed current}, TabsLeft removed source current →
      TabsLeft (removed ++ folds.map fun tab => tab.id) source
        (folds.foldl (fun source tab => withoutTab source tab.id) current) := by
    induction folds with
    | nil =>
      intro removed current left
      simpa using left
    | cons tab rest ih =>
      intro removed current left
      rw [List.map_cons, List.append_cons]
      exact ih (left.withoutTab tab.id)
  exact fold (tabsLeft_nil source)

/-- Tabs without panes that leave take no pane with them. -/
theorem TabsLeft.edit {removed : List String} (left : TabsLeft removed source current)
    (contents : ∀ id ∈ removed, ∃ tab ∈ source.tabs, tab.id = id ∧ tab.leafIds = []) :
    CommandEdit .none [] source current := by
  have inside : ∀ leafId ∈ current.paneIds, leafId ∈ source.paneIds := by
    intro leafId member
    obtain ⟨tab, kept, held⟩ := List.mem_flatMap.mp member
    exact mem_paneIds_of_mem (List.mem_of_mem_filter (left.tabs ▸ kept)) held
  have paneIds : ∀ holes, WorkspaceRules holes source → current.paneIds = source.paneIds := by
    intro holes rules
    have rest : ∀ tabs : List LayoutTab, (∀ tab ∈ tabs, tab ∈ source.tabs) →
        (tabs.filter fun tab => tab.id ∉ removed).flatMap LayoutTab.leafIds =
          tabs.flatMap LayoutTab.leafIds := by
      intro tabs stored
      induction tabs with
      | nil => rfl
      | cons tab rest ih =>
        have later := ih fun other member => stored other (List.mem_cons_of_mem _ member)
        by_cases goes : tab.id ∈ removed
        · obtain ⟨content, member, sameId, none⟩ := contents tab.id goes
          have same := tab_ext rules.groups.distinct member (stored tab List.mem_cons_self) sameId
          rw [List.filter_cons_of_neg (by simpa using goes), List.flatMap_cons, ← same, none,
            List.nil_append, later]
        · rw [List.filter_cons_of_pos (by simpa using goes), List.flatMap_cons,
            List.flatMap_cons, later]
    unfold WorkspaceLayout.paneIds
    rw [left.tabs]
    exact rest source.tabs fun _ member => member
  refine ⟨⟨?_, ?_, ?_⟩, .of_panes (bindingAt_of_leaves left.leaves) ?_⟩
  · exact fun holes rules _ => ⟨left.groups holes rules.groups,
      rules.panes.congr (.of_eq (paneIds holes rules)) left.leaves⟩
  · intro id member
    obtain ⟨tab, kept, rfl⟩ := List.mem_map.mp member
    exact Or.inr (List.mem_map_of_mem (List.mem_of_mem_filter (left.tabs ▸ kept)))
  · exact fun leafId member => Or.inr (inside leafId member)
  · exact fun holes rules leafId member => (paneIds holes rules).symm ▸ member

/-! ## Landing -/

theorem CommandEdit.land {tabIds : List String} {tab : LayoutContentTab} {tabId : String}
    {before middle after : WorkspaceLayout}
    (early : CommandEdit ⟨tabIds, [], []⟩ [] before middle)
    (placed : PlacedTab (.content tab) middle after) (named : tab.id = tabId)
    (apart : tabId ∉ tabIds) : CommandEdit ⟨tabIds ++ [tabId], [], []⟩ [] before after where
  layout := by
    subst named
    have late := (placedContent_edit placed).layout
    refine ⟨fun holes rules fresh => ?_, fun id member => ?_, fun id member => ?_⟩
    · refine late.rules holes (early.layout.rules holes rules ⟨?_, by simp, by simp⟩)
        ⟨fun id new held => ?_, by simp, by simp⟩
      · exact fun id new => fresh.tabs id (List.mem_append_left _ new)
      · rw [List.mem_singleton.mp new] at held
        rcases early.layout.tabIds _ held with other | old
        · exact apart other
        · exact fresh.tabs _ (List.mem_append_right _ (List.mem_singleton_self _)) old
    · rcases late.tabIds id member with new | held
      · exact Or.inl (List.mem_append_right _ new)
      · exact (early.layout.tabIds id held).imp_left (List.mem_append_left _)
    · exact (late.paneIds id member).elim Or.inl (early.layout.paneIds id)
  terminals := by
    refine early.terminals.then_panes (bindingAt_of_leaves placed.leaves) ?_
    exact fun leafId member => placed.paneIds ▸ List.mem_append_left _ member

/-- Where the moves so far brought the two workspaces. -/
structure Landed (removed placed : List String) (source target : WorkspaceLayout)
    (workspaces : WorkspaceLayout × WorkspaceLayout) : Prop where
  left : TabsLeft removed source workspaces.1
  edit : CommandEdit ⟨placed, [], []⟩ [] target workspaces.2

theorem withEditorView_edit {ids : NewIds} {before : WorkspaceLayout} {tabId : String}
    {view : Option JsValue} (edit : CommandEdit ids [] before workspace) :
    CommandEdit ids [] before (withEditorView workspace tabId view) := by
  unfold withEditorView
  split
  · exact edit
  · exact edit.then_same rfl rfl rfl rfl rfl

theorem landed_landTab {toKey groupId : String} {removed placed : List String}
    {workspaces : WorkspaceLayout × WorkspaceLayout} {target' : WorkspaceLayout} {move : Move}
    (left : TabsLeft removed source workspaces.1)
    (edit : CommandEdit ⟨placed, [], []⟩ [] target target')
    (isTarget : IsPlacementTarget target' workspaces.2) (apart : move.newTabId ∉ placed) :
    Landed (removed ++ [move.tab.id]) (placed ++ [move.newTabId]) source target
      (landTab ownerIsMain toKey groupId context workspaces move) where
  left := left.withoutTab move.tab.id
  edit := withEditorView_edit (edit.land isTarget.placedTab rfl apart)

theorem landed_foldl {toKey groupId : String} {moves : List Move}
    {removed placed : List String} {workspaces : WorkspaceLayout × WorkspaceLayout}
    (landed : Landed removed placed source target workspaces)
    (distinct : (placed ++ moves.map fun move => move.newTabId).Nodup) :
    Landed (removed ++ moves.map fun move => move.tab.id)
      (placed ++ moves.map fun move => move.newTabId) source target
      (moves.foldl (landTab ownerIsMain toKey groupId context) workspaces) := by
  induction moves generalizing removed placed workspaces with
  | nil => simpa using landed
  | cons move rest ih =>
    rw [List.map_cons, List.append_cons] at distinct
    have apart : move.newTabId ∉ placed := fun inside =>
      (List.nodup_append.mp (List.nodup_append.mp distinct).1).2.2 _ inside _
        (List.mem_singleton_self _) rfl
    rw [List.map_cons, List.map_cons, List.append_cons removed, List.append_cons placed,
      List.foldl_cons]
    exact ih (landed_landTab landed.left landed.edit (isPlacementTarget_self _) apart) distinct

/-! ## Planning -/

/-- A tab without panes of the source, whose new id nothing else holds. -/
structure PlannedMove (model : WorkspaceLayoutModel) (fromKey : String) (source : WorkspaceLayout)
    (move : Move) : Prop where
  stored : .content move.tab ∈ source.tabs
  unused : heldElsewhere model fromKey (.content move.tab) move.newTabId = false

structure Planned (model : WorkspaceLayoutModel) (fromKey : String) (source : WorkspaceLayout)
    (named : List TabMove) (moving : Moving) : Prop where
  moves : ∀ move ∈ moving.moves, PlannedMove model fromKey source move
  order : (moving.moves.map fun move => move.newTabId).Sublist (named.map TabMove.newTabId)
  folds : ∀ tab ∈ moving.folds, .content tab ∈ source.tabs

theorem planned_planMove {fromKey : String} {named : List TabMove} {moving next : Moving}
    {move : TabMove} (planned : Planned model fromKey source named moving)
    (ran : planMove ownerIsMain model fromKey source moving move = .ok next) :
    Planned model fromKey source (named ++ [move]) next ∧
      (moving.shown = .empty → next.moves ≠ []) ∧ (moving.moves ≠ [] → next.moves ≠ []) := by
  have longer : (moving.moves.map fun move => move.newTabId).Sublist
      ((named ++ [move]).map TabMove.newTabId) := by
    rw [List.map_append]
    exact planned.order.trans (List.sublist_append_left ..)
  unfold planMove at ran
  split at ran
  case h_1 => cases ran
  case h_2 => cases ran
  case h_3 tab found =>
    have stored := mem_of_findTab found
    split at ran
    case isTrue => cases ran
    case isFalse =>
      split at ran
      case h_1 kept shown =>
        cases ran
        refine ⟨⟨planned.moves, longer, ?_⟩, fun none => ?_, id⟩
        · intro folded member
          rcases List.mem_append.mp member with earlier | last
          · exact planned.folds folded earlier
          · exact List.mem_singleton.mp last ▸ stored
        · rw [none] at shown
          cases shown
      case h_2 =>
        split at ran
        case isTrue => cases ran
        case isFalse unused =>
          cases ran
          refine ⟨⟨?_, ?_, planned.folds⟩, fun _ => by simp, fun _ => by simp⟩
          · intro planned' member
            rcases List.mem_append.mp member with earlier | last
            · exact planned.moves planned' earlier
            · rw [List.mem_singleton.mp last]
              exact ⟨stored, Bool.eq_false_of_not_eq_true unused⟩
          · rw [List.map_append, List.map_append]
            exact planned.order.append (.refl _)

theorem planned_foldlM {fromKey : String} {tabs named : List TabMove} {moving next : Moving}
    (planned : Planned model fromKey source named moving)
    (ran : tabs.foldlM (planMove ownerIsMain model fromKey source) moving = .ok next) :
    Planned model fromKey source (named ++ tabs) next ∧
      (moving.moves ≠ [] → next.moves ≠ []) ∧
      (tabs ≠ [] → moving.shown = .empty → next.moves ≠ []) := by
  induction tabs generalizing named moving with
  | nil =>
    cases ran
    rw [List.append_nil]
    exact ⟨planned, id, fun none => absurd rfl none⟩
  | cons move rest ih =>
    rw [List.foldlM_cons] at ran
    cases first : planMove ownerIsMain model fromKey source moving move with
    | error code =>
      rw [first] at ran
      cases ran
    | ok middle =>
      rw [first] at ran
      obtain ⟨step, begins, keeps⟩ := planned_planMove planned first
      obtain ⟨rest', later, _⟩ := ih step ran
      rw [List.append_cons]
      exact ⟨rest', fun some => later (keeps some), fun _ empty => later (begins empty)⟩

/-! ## Moving -/

theorem isPlacementTarget_landingGroup {groupId : String} {target' : WorkspaceLayout}
    (landing : landingGroup target groupId = .ok target') :
    IsPlacementTarget target target' ∧
      (target' = target ∨ shownFiles ownerIsMain target groupId = .empty) := by
  unfold landingGroup at landing
  split at landing
  case isTrue =>
    cases landing
    exact ⟨Or.inl rfl, Or.inl rfl⟩
  case isFalse =>
    split at landing
    case isTrue => cases landing
    case isFalse none =>
      cases landing
      have none : target.groups = [] := not_not.mp none
      refine ⟨Or.inr ⟨none, groupId, rfl⟩, Or.inr ?_⟩
      unfold shownFiles
      rw [none]
      split <;> rfl

theorem landed_moves {toKey groupId : String} {moves : List Move} {removed : List String}
    {folded target' : WorkspaceLayout} (left : TabsLeft removed source folded)
    (isTarget : IsPlacementTarget target target') (some : target' = target ∨ moves ≠ [])
    (distinct : (moves.map fun move => move.newTabId).Nodup) :
    Landed (removed ++ moves.map fun move => move.tab.id) (moves.map fun move => move.newTabId)
      source target (moves.foldl (landTab ownerIsMain toKey groupId context) (folded, target')) := by
  cases moves with
  | nil =>
    obtain rfl := some.resolve_right (fun absent => absent rfl)
    have stays : Landed removed [] source target' (folded, target') := ⟨left, .refl _ _⟩
    simpa using stays
  | cons move rest =>
    have first : Landed (removed ++ [move.tab.id]) [move.newTabId] source target
        (landTab ownerIsMain toKey groupId context (folded, target') move) :=
      landed_landTab left (.refl ⟨[], [], []⟩ target) isTarget (by simp)
    rw [List.map_cons, List.append_cons]
    exact landed_foldl first distinct

variable (ownerIsMain) in
theorem moveEditorFile_edit {ids ids' : NewIds} {workspaces : WorkspaceLayout × WorkspaceLayout}
    (file : Option LayoutEditorFile) (left : CommandEdit ids [] source workspaces.1)
    (landed : CommandEdit ids' [] target workspaces.2) :
    CommandEdit ids [] source (moveEditorFile ownerIsMain workspaces file).1 ∧
      CommandEdit ids' [] target (moveEditorFile ownerIsMain workspaces file).2 := by
  unfold moveEditorFile
  cases file with
  | none => exact ⟨left, landed⟩
  | some file => exact ⟨left.then_same rfl rfl rfl rfl rfl, landed.then_same rfl rfl rfl rfl rfl⟩

theorem tabs_moveEditorFile (workspaces : WorkspaceLayout × WorkspaceLayout)
    (file : Option LayoutEditorFile) :
    (moveEditorFile ownerIsMain workspaces file).1.tabs = workspaces.1.tabs := by
  cases file <;> rfl

theorem of_isInvalidMove {fromKey : String} {command : MoveTabToWorkspace}
    (valid : ¬isInvalidMove fromKey command = true) :
    fromKey ≠ command.toWorkspace ∧ command.tabs ≠ [] ∧
      (command.tabs.map TabMove.newTabId).Nodup := by
  unfold isInvalidMove at valid
  rw [decide_eq_true_iff, not_or, not_or, not_or, not_not, not_not] at valid
  exact ⟨valid.1, valid.2.1, valid.2.2.2⟩

/-- The id of a planned move is nobody's once the tabs that leave have left. -/
theorem PlannedMove.fresh {fromKey : String} {move : Move} {removed : List String}
    (planned : PlannedMove model fromKey source move)
    (stored : model.workspaces.get? fromKey = some source) (goes : move.tab.id ∈ removed)
    {next : WorkspaceLayout}
    (tabs : next.tabs = source.tabs.filter fun tab => tab.id ∉ removed) (other : String) :
    move.newTabId ∉ (workspaceOrEmpty (withWorkspace model fromKey next) other).tabIds := by
  have only : ∀ key workspace, model.workspaces.get? key = some workspace →
      ∀ tab ∈ workspace.tabs, tab.id = move.newTabId →
        key = fromKey ∧ tab = .content move.tab := by
    intro key workspace found tab member sameId
    by_contra different
    have held : heldElsewhere model fromKey (.content move.tab) move.newTabId = true := by
      refine List.any_eq_true.mpr ⟨(key, workspace), JsMap.get?_eq_some_iff.mp found, ?_⟩
      exact List.any_eq_true.mpr ⟨tab, member, decide_eq_true ⟨sameId, different⟩⟩
    rw [planned.unused] at held
    cases held
  intro inside
  rw [workspaceOrEmpty_of_set rfl] at inside
  by_cases here : other = fromKey
  · rw [if_pos here] at inside
    obtain ⟨tab, member, sameId⟩ := List.mem_map.mp inside
    rw [tabs] at member
    obtain ⟨member, stays⟩ := List.mem_filter.mp member
    obtain ⟨_, rfl⟩ := only fromKey source stored tab member sameId
    exact of_decide_eq_true stays goes
  · rw [if_neg here] at inside
    cases found : model.workspaces.get? other with
    | none =>
      rw [workspaceOrEmpty_of_none found] at inside
      cases inside
    | some workspace =>
      rw [workspaceOrEmpty_of_some found] at inside
      obtain ⟨tab, member, sameId⟩ := List.mem_map.mp inside
      exact here (only other workspace found tab member sameId).1

theorem ensures_moveTabToWorkspace {fromKey : String} {command : MoveTabToWorkspace}
    (stored : model.workspaces.get? fromKey = some source) :
    Ensures (moveTabToWorkspace ownerIsMain model fromKey source command context)
      (Accounted .none model) := by
  unfold moveTabToWorkspace
  split
  case isTrue => exact .refuse _
  case isFalse valid =>
    obtain ⟨apart, some, distinct⟩ := of_isInvalidMove valid
    simp only
    split
    case h_1 => exact .refuse _
    case h_2 planned ran =>
      split
      case h_1 => exact .refuse _
      case h_2 target' landing =>
        have start : Planned model fromKey source []
            ⟨shownFiles ownerIsMain (workspaceOrEmpty model command.toWorkspace) command.groupId,
              [], [], command.groupId⟩ :=
          ⟨by simp, .refl _, by simp⟩
        obtain ⟨plan, _, begins⟩ := planned_foldlM start ran
        obtain ⟨isTarget, same⟩ := isPlacementTarget_landingGroup landing
        let folded := planned.folds.foldl (fun source tab => withoutTab source tab.id) source
        have left : TabsLeft (planned.folds.map fun tab => tab.id) source folded :=
          tabsLeft_foldl planned.folds
        let pair := planned.moves.foldl
          (landTab ownerIsMain command.toWorkspace command.groupId context) (folded, target')
        have landed : Landed ((planned.folds.map fun tab => tab.id) ++
            planned.moves.map fun move => move.tab.id) (planned.moves.map fun move => move.newTabId)
            source (workspaceOrEmpty model command.toWorkspace) pair :=
          landed_moves left isTarget (same.imp_right (begins some)) (distinct.sublist plan.order)
        have contents : CommandEdit .none [] source pair.1 := by
          refine landed.left.edit fun id member => ?_
          rcases List.mem_append.mp member with folds | moves
          · obtain ⟨tab, folds', rfl⟩ := List.mem_map.mp folds
            exact ⟨_, plan.folds tab folds', rfl, rfl⟩
          · obtain ⟨move, moves', rfl⟩ := List.mem_map.mp moves
            exact ⟨_, (plan.moves move moves').stored, rfl, rfl⟩
        obtain ⟨removes, lands⟩ := moveEditorFile_edit ownerIsMain command.file contents
          landed.edit
        rw [← workspaceOrEmpty_of_some stored] at removes
        refine .applied (.of_two rfl rfl apart removes lands fun other => ?_)
        refine ⟨fun id member => ?_, by simp, by simp⟩
        obtain ⟨move, moves, rfl⟩ := List.mem_map.mp member
        have goes : move.tab.id ∈ planned.moves.map fun move => move.tab.id :=
          List.mem_map.mpr ⟨move, moves, rfl⟩
        have tabs : (moveEditorFile ownerIsMain pair command.file).1.tabs = _ :=
          (tabs_moveEditorFile ..).trans landed.left.tabs
        exact (plan.moves move moves).fresh stored (List.mem_append_right _ goes) tabs other

/-! ## Renaming -/

variable {ids : JsMap String String} {renames : List EditorFileRename}

/-- Whether the renames give a tab's id another. -/
def isRetitled (ids : JsMap String String) (tab : LayoutTab) : Bool :=
  isEditorKind tab ∧ renamedId ids tab.id ≠ tab.id

theorem renamedTabIds_get? (workspace : WorkspaceLayout) (ids : JsMap String String)
    (tabId : String) :
    (renamedTabIds workspace ids).get? tabId =
      if tabId ∈ (workspace.tabs.filter (isRetitled ids)).map LayoutTab.id
      then some (renamedId ids tabId) else none := by
  have written := JsMap.get?_ofPairs_map
    ((workspace.tabs.filter (isRetitled ids)).map LayoutTab.id) (renamedId ids) tabId
  rw [List.map_map] at written
  exact written

theorem of_renamedTabIds_has {tabId : String}
    (touched : (renamedTabIds workspace ids).has tabId = true) :
    tabId ∈ workspace.tabIds ∧ renamedId ids tabId ≠ tabId ∧
      renamedId (renamedTabIds workspace ids) tabId = renamedId ids tabId := by
  have written := renamedTabIds_get? workspace ids tabId
  have inside : tabId ∈ (workspace.tabs.filter (isRetitled ids)).map LayoutTab.id := by
    by_contra absent
    rw [if_neg absent] at written
    rw [JsMap.has, written] at touched
    cases touched
  rw [if_pos inside] at written
  obtain ⟨tab, kept, rfl⟩ := List.mem_map.mp inside
  obtain ⟨member, changes⟩ := List.mem_filter.mp kept
  refine ⟨List.mem_map_of_mem member, (of_decide_eq_true changes).2, ?_⟩
  rw [renamedId, written, Option.getD_some]

theorem renamedId_of_not_has {tabIds : JsMap String String} {tabId : String}
    (untouched : ¬tabIds.has tabId = true) : renamedId tabIds tabId = tabId := by
  unfold renamedId
  rw [JsMap.has, Option.not_isSome_iff_eq_none] at untouched
  rw [untouched, Option.getD_none]

theorem mem_values_of_has {tabIds : JsMap String String} {tabId : String}
    (touched : tabIds.has tabId = true) : renamedId tabIds tabId ∈ tabIds.values := by
  rw [JsMap.has, Option.isSome_iff_exists] at touched
  obtain ⟨value, found⟩ := touched
  rw [renamedId, found, Option.getD_some]
  exact JsMap.mem_values_iff.mpr ⟨tabId, found⟩

theorem tabIds_renamedWorkspace (distinct : workspace.tabIds.Nodup) :
    (renamedWorkspace workspace renames ids (renamedTabIds workspace ids)).tabIds =
      workspace.tabIds.map (renamedId (renamedTabIds workspace ids)) := by
  show (workspace.tabs.map _).map LayoutTab.id = (workspace.tabs.map LayoutTab.id).map _
  rw [List.map_map, List.map_map]
  refine List.map_congr_left fun tab member => ?_
  show (renamedTab ids (renamedTabIds workspace ids) tab).id = _
  unfold renamedTab
  split
  case isTrue => exact LayoutTab.id_withFields ..
  case isFalse same =>
    refine (renamedId_of_not_has fun touched => same ?_).symm
    have inside : tab.id ∈ (workspace.tabs.filter (isRetitled ids)).map LayoutTab.id := by
      by_contra absent
      rw [JsMap.has, renamedTabIds_get?, if_neg absent] at touched
      cases touched
    obtain ⟨other, kept, sameId⟩ := List.mem_map.mp inside
    obtain ⟨stored, changes⟩ := List.mem_filter.mp kept
    obtain rfl := tab_ext distinct stored member sameId
    exact ⟨(of_decide_eq_true changes).1, Or.inr touched⟩

theorem paneIds_renamedWorkspace (tabIds : JsMap String String) :
    (renamedWorkspace workspace renames ids tabIds).paneIds = workspace.paneIds := by
  show (workspace.tabs.map _).flatMap LayoutTab.leafIds = workspace.tabs.flatMap _
  rw [List.flatMap_map]
  refine congrArg List.flatten (List.map_congr_left fun tab _ => ?_)
  unfold renamedTab
  split
  · exact LayoutTab.leafIds_withFields ..
  · rfl

theorem groups_renamedWorkspace (tabIds : JsMap String String) :
    (renamedWorkspace workspace renames ids tabIds).groups = workspace.groups.map fun group =>
      { group with tabOrder := group.tabOrder.map (renamedId tabIds) } := by
  refine List.map_congr_left fun group _ => ?_
  split
  case isTrue => rfl
  case isFalse untouched =>
    have same : group.tabOrder.map (renamedId tabIds) = group.tabOrder := by
      conv_rhs => rw [← List.map_id group.tabOrder]
      refine List.map_congr_left fun tabId member => renamedId_of_not_has fun touched => ?_
      exact untouched (List.any_eq_true.mpr ⟨tabId, member, touched⟩)
    rw [same]

/-- What a checked rename promises: new ids differ, and no other tab of the model has one. -/
structure RenameChecked (model : WorkspaceLayoutModel) (workspace : WorkspaceLayout)
    (ids : JsMap String String) : Prop where
  values : ids.values.Nodup
  untaken : ∀ key, ∀ tabId ∈ (workspaceOrEmpty model key).tabIds,
    tabId ∈ (renamedTabIds workspace ids).values → (renamedTabIds workspace ids).has tabId = true

theorem renamed_of_touched {tabId : String}
    (touched : (renamedTabIds workspace ids).has tabId = true) :
    ids.get? tabId = some (renamedId (renamedTabIds workspace ids) tabId) := by
  obtain ⟨-, changes, same⟩ := of_renamedTabIds_has touched
  rw [same]
  unfold renamedId at changes ⊢
  cases found : ids.get? tabId with
  | none =>
    rw [found] at changes
    exact absurd rfl changes
  | some value => rfl

namespace RenameChecked

variable (checked : RenameChecked model workspace ids)
include checked

theorem renamed_inj (found : workspaceOrEmpty model key = workspace) {first second : String}
    (member : first ∈ workspace.tabIds) (member' : second ∈ workspace.tabIds)
    (same : renamedId (renamedTabIds workspace ids) first =
      renamedId (renamedTabIds workspace ids) second) : first = second := by
  have apart : ∀ {tabId other}, other ∈ workspace.tabIds →
      (renamedTabIds workspace ids).has tabId = true →
      ¬(renamedTabIds workspace ids).has other = true →
      renamedId (renamedTabIds workspace ids) tabId ≠
        renamedId (renamedTabIds workspace ids) other := by
    intro tabId other stored touched untouched same
    rw [renamedId_of_not_has untouched] at same
    exact untouched (checked.untaken key other (found ▸ stored) (same ▸ mem_values_of_has touched))
  by_cases touched : (renamedTabIds workspace ids).has first = true <;>
    by_cases touched' : (renamedTabIds workspace ids).has second = true
  · exact JsMap.get?_inj checked.values (renamed_of_touched touched)
      (same ▸ renamed_of_touched touched')
  · exact absurd same (apart member' touched touched')
  · exact absurd same.symm (apart member touched' touched)
  · rwa [renamedId_of_not_has touched, renamedId_of_not_has touched'] at same

theorem renamed_new {tabId other : String}
    (changes : renamedId (renamedTabIds workspace ids) tabId ∉ workspace.tabIds) :
    tabId ∈ workspace.tabIds →
      renamedId (renamedTabIds workspace ids) tabId ∉ (workspaceOrEmpty model other).tabIds := by
  intro stored held
  by_cases touched : (renamedTabIds workspace ids).has tabId = true
  · have inside := checked.untaken other _ held (mem_values_of_has touched)
    exact changes (of_renamedTabIds_has inside).1
  · rw [renamedId_of_not_has touched] at changes
    exact changes stored

theorem edit (found : workspaceOrEmpty model key = workspace) :
    LayoutEdit ⟨(renamedWorkspace workspace renames ids (renamedTabIds workspace ids)).tabIds.filter
        fun id => id ∉ workspace.tabIds, [], []⟩ workspace
      (renamedWorkspace workspace renames ids (renamedTabIds workspace ids)) where
  rules := by
    intro holes rules fresh
    have tabIds : (renamedWorkspace workspace renames ids (renamedTabIds workspace ids)).tabIds =
        _ := tabIds_renamedWorkspace rules.groups.distinct
    refine ⟨rules.groups.renamed tabIds ?_ (groups_renamedWorkspace _) rfl, ?_⟩
    · rw [tabIds]
      exact rules.groups.distinct.map_on fun first member second member' same =>
        checked.renamed_inj found member member' same
    · exact rules.panes.congr (.of_eq (paneIds_renamedWorkspace _)) rfl
  tabIds := by
    intro id member
    by_cases held : id ∈ workspace.tabIds
    · exact Or.inr held
    · exact Or.inl (List.mem_filter.mpr ⟨member, by simpa using held⟩)
  paneIds := fun id member => Or.inr ((paneIds_renamedWorkspace _) ▸ member)

theorem keepsRules (found : workspaceOrEmpty model key = workspace) :
    KeepsRules .none model (withWorkspace model key
      (renamedWorkspace workspace renames ids (renamedTabIds workspace ids))) := by
  intro holes rules fresh
  subst found
  refine KeepsRules.of_set rfl (checked.edit rfl) holes rules fun other => ?_
  refine ⟨fun id new held => ?_, by simp, by simp⟩
  obtain ⟨member, unheld⟩ := List.mem_filter.mp new
  rw [tabIds_renamedWorkspace (rules.workspace key).groups.distinct] at member
  obtain ⟨tabId, stored, rfl⟩ := List.mem_map.mp member
  exact checked.renamed_new (of_decide_eq_true unheld) stored held

end RenameChecked

/-- What a rename applies to one workspace keeps the rules, and no pane moves. -/
structure Renamed (before after : WorkspaceLayoutModel) : Prop where
  rules : KeepsRules .none before after
  panes : PanesStay before after

theorem Renamed.trans {before middle after : WorkspaceLayoutModel}
    (first : Renamed before middle) (second : Renamed middle after) : Renamed before after :=
  ⟨first.rules.trans second.rules, first.panes.trans second.panes⟩

theorem renamed_of_renameInWorkspace {result : WorkspaceLayoutModel × JsMap String String}
    (applied : renameInWorkspace model key renames = .ok result) : Renamed model result.1 := by
  unfold renameInWorkspace at applied
  cases found : model.workspaces.get? key with
  | none =>
    rw [found] at applied
    cases applied
  | some workspace =>
    rw [found] at applied
    simp only at applied
    split at applied
    case isTrue => cases applied
    case isFalse valid =>
      split at applied
      case isTrue => cases applied
      case isFalse untaken =>
        obtain rfl := Except.ok.inj applied
        have here := workspaceOrEmpty_of_some found
        have checked : RenameChecked model workspace (renamedIds renames) := by
          refine ⟨nodup_of_length_eraseDups ?_, fun other tabId member new => ?_⟩
          · by_contra repeats
            refine valid (decide_eq_true (Or.inr (Or.inl ?_)))
            rwa [JsMap.values, List.length_map] at repeats
          · by_contra untouched
            refine untaken ?_
            cases stored : model.workspaces.get? other with
            | none =>
              rw [workspaceOrEmpty_of_none stored] at member
              cases member
            | some entry =>
              rw [workspaceOrEmpty_of_some stored] at member
              obtain ⟨tab, held, rfl⟩ := List.mem_map.mp member
              refine List.any_eq_true.mpr ⟨entry, JsMap.mem_values_iff.mpr ⟨_, stored⟩, ?_⟩
              refine List.any_eq_true.mpr ⟨tab, held, decide_eq_true ⟨new, ?_⟩⟩
              simpa using untouched
        refine ⟨checked.keepsRules here, .of_set rfl ?_ fun leafId member => ?_⟩
        · rw [here]
          rfl
        · rw [here] at member
          exact (paneIds_renamedWorkspace _).symm ▸ member

theorem renamed_of_renamePart {state next : WorkspaceLayoutModel × JsMap String String}
    {part : String × List EditorFileRename} (applied : renamePart state part = .ok next) :
    Renamed state.1 next.1 := by
  unfold renamePart at applied
  cases step : renameInWorkspace state.1 part.1 part.2 with
  | error code =>
    rw [step] at applied
    cases applied
  | ok result =>
    rw [step] at applied
    have renamed := renamed_of_renameInWorkspace step
    obtain rfl := Except.ok.inj applied
    exact renamed

theorem renamed_of_renameParts {parts : List (String × List EditorFileRename)}
    {state next : WorkspaceLayoutModel × JsMap String String}
    (applied : parts.foldlM renamePart state = .ok next) : Renamed state.1 next.1 := by
  induction parts generalizing state with
  | nil =>
    obtain rfl := Except.ok.inj applied
    exact ⟨.of_same rfl, .refl _⟩
  | cons part rest ih =>
    rw [List.foldlM_cons] at applied
    cases step : renamePart state part with
    | error code =>
      rw [step] at applied
      cases applied
    | ok middle =>
      rw [step] at applied
      exact (renamed_of_renamePart step).trans (ih applied)

theorem ensures_renameEditorFiles (command : RenameEditorFiles) :
    Ensures (renameEditorFiles model key command) (Accounted .none model) := by
  unfold renameEditorFiles
  simp only
  split
  case isTrue => exact .refuse _
  case isFalse =>
    split
    case h_1 code _ => exact .refuse code
    case h_2 next renamed applied =>
      have followed := renamed_of_renameParts applied
      exact .applied ⟨followed.rules, followed.panes.terminals⟩

end OxeeUI.Layout
