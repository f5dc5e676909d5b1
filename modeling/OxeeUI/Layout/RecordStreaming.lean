import OxeeUI.Layout.RecordKinds

/-!
# A reader of the record stream holds the host's layout

Layouts that are written alike split into records that are written alike; records of one
layout join into a layout written like it; so what a reader makes of a diff is written
like the layout the host published.
-/

namespace OxeeUI.Layout

open OxeeUI.Library JsValue

namespace PublishedWorkspaceLayout

/-- `stableJson(layout)` -/
def stable (layout : PublishedWorkspaceLayout) : JsValue := stableJson layout.toJson

def panes (layout : PublishedWorkspaceLayout) : List PublishedPane :=
  layout.tabs.flatMap PublishedTab.panes

def DistinctLeaves (layout : PublishedWorkspaceLayout) : Prop :=
  (layout.panes.map (·.leafId)).Nodup

end PublishedWorkspaceLayout

/-! ## Splitting layouts that are written alike -/

theorem forall₂_of_map_eq {Left Right Written : Type} {left : List Left} {right : List Right}
    {writeLeft : Left → Written} {writeRight : Right → Written}
    (same : left.map writeLeft = right.map writeRight) :
    List.Forall₂ (fun left right => writeLeft left = writeRight right) left right := by
  rw [← List.forall₂_eq_eq_eq, List.forall₂_map_left_iff, List.forall₂_map_right_iff] at same
  exact same

theorem map_eq_of_forall₂ {Left Right Written : Type} {left : List Left} {right : List Right}
    {writeLeft : Left → Written} {writeRight : Right → Written}
    (same : List.Forall₂ (fun left right => writeLeft left = writeRight right) left right) :
    left.map writeLeft = right.map writeRight := by
  induction same with
  | nil => rfl
  | cons first _ ih => rw [List.map_cons, List.map_cons, first, ih]

theorem PublishedPane.treePane_alike {left right : PublishedPane}
    (same : stableJson left.toJson = stableJson right.toJson) :
    stableJson left.treePane.toJson = stableJson right.treePane.toJson := by
  have alike := PublishedPane.stable_iff.mp same
  exact PublishedTreePane.stable_iff.mpr ⟨alike.1, alike.2.2.2.2.2.2⟩

theorem undefined_iff_of_stable {left right : JsValue}
    (same : stableJson left = stableJson right) : left = .undefined ↔ right = .undefined := by
  rw [← stableJson_eq_undefined_iff, same, stableJson_eq_undefined_iff]

theorem PublishedPane.binding?_alike {left right : PublishedPane}
    (same : stableJson left.toJson = stableJson right.toJson) :
    Option.Rel (fun left right => bindingKind.json left = bindingKind.json right)
      left.binding? right.binding? := by
  obtain ⟨leafId, ptyId, generation, status, reason, outcome, _⟩ :=
    PublishedPane.stable_iff.mp same
  unfold PublishedPane.binding?
  simp only [ne_eq, undefined_iff_of_stable ptyId, undefined_iff_of_stable generation,
    undefined_iff_of_stable status, undefined_iff_of_stable reason,
    undefined_iff_of_stable outcome]
  split
  · exact .some (PublishedPaneBinding.stable_iff.mpr
      ⟨leafId, ptyId, generation, status, reason, outcome⟩)
  · exact .none

theorem filterMap_alike {Item Record Written : Type} {left right : List Item}
    {Alike : Item → Item → Prop} {write : Record → Written} {pick : Item → Option Record}
    (same : List.Forall₂ Alike left right)
    (picks : ∀ left right, Alike left right →
      Option.Rel (fun left right => write left = write right) (pick left) (pick right)) :
    (left.filterMap pick).map write = (right.filterMap pick).map write := by
  induction same with
  | nil => rfl
  | cons first _ ih =>
    rw [List.filterMap_cons, List.filterMap_cons]
    have picked := picks _ _ first
    revert picked
    cases pick _ <;> cases pick _ <;> intro picked <;> cases picked
    · exact ih
    case some related =>
      rw [List.map_cons, List.map_cons, related, ih]

theorem PublishedTab.row_alike {left right : PublishedTab}
    (same : stableJson left.toJson = stableJson right.toJson) :
    tabKind.json left.row = tabKind.json right.row := by
  obtain ⟨id, terminal, fields⟩ := PublishedTab.stable_iff.mp same
  refine PublishedTabRow.stable_iff.mpr ⟨id, ?_, fields⟩
  unfold PublishedTab.row
  dsimp only
  revert terminal
  cases left.terminal <;> cases right.terminal <;> intro terminal <;> cases terminal
  · exact .none
  case some related => exact .some (PublishedTerminal.stable_iff.mp related).2.2.2

theorem PublishedTab.paneTree?_alike {left right : PublishedTab}
    (same : stableJson left.toJson = stableJson right.toJson) :
    Option.Rel (fun left right => paneTreeKind.json left = paneTreeKind.json right)
      left.paneTree? right.paneTree? := by
  obtain ⟨id, terminal, fields⟩ := PublishedTab.stable_iff.mp same
  unfold PublishedTab.paneTree?
  revert terminal
  cases left.terminal <;> cases right.terminal <;> intro terminal <;> cases terminal
  · exact .none
  case some related =>
    obtain ⟨root, chatLeafId, panes, _⟩ := PublishedTerminal.stable_iff.mp related
    refine .some (PublishedPaneTree.stable_iff.mpr ⟨id, root, chatLeafId, ?_⟩)
    have alike := forall₂_of_map_eq panes
    rw [List.map_map, List.map_map]
    exact map_eq_of_forall₂ (alike.imp fun _ _ pane => PublishedPane.treePane_alike pane)

theorem PublishedTab.panes_alike {left right : PublishedTab}
    (same : stableJson left.toJson = stableJson right.toJson) :
    List.Forall₂ (fun left right => stableJson left.toJson = stableJson right.toJson)
      left.panes right.panes := by
  obtain ⟨_, terminal, _⟩ := PublishedTab.stable_iff.mp same
  unfold PublishedTab.panes
  revert terminal
  cases left.terminal <;> cases right.terminal <;> intro terminal <;> cases terminal
  · exact .nil
  case some related => exact forall₂_of_map_eq (PublishedTerminal.stable_iff.mp related).2.2.1

theorem bindings_alike {left right : List PublishedTab}
    (same : List.Forall₂ (fun left right => stableJson left.toJson = stableJson right.toJson)
      left right) :
    (left.flatMap fun tab => tab.panes.filterMap PublishedPane.binding?).map bindingKind.json =
      (right.flatMap fun tab => tab.panes.filterMap PublishedPane.binding?).map
        bindingKind.json := by
  induction same with
  | nil => rfl
  | cons first _ ih =>
    rw [List.flatMap_cons, List.flatMap_cons, List.map_append, List.map_append, ih]
    rw [filterMap_alike (PublishedTab.panes_alike first) fun _ _ pane =>
      PublishedPane.binding?_alike pane]

structure RecordsAlike (left right : PublishedLayoutRecords) : Prop where
  workspace : left.workspace.stable = right.workspace.stable
  tabs : left.tabs.map tabKind.json = right.tabs.map tabKind.json
  paneTrees : left.paneTrees.map paneTreeKind.json = right.paneTrees.map paneTreeKind.json
  bindings : left.bindings.map bindingKind.json = right.bindings.map bindingKind.json
  editorFiles : left.editorFiles.map editorFileKind.json = right.editorFiles.map editorFileKind.json
  browserTabs : left.browserTabs.map browserTabKind.json = right.browserTabs.map browserTabKind.json

theorem splitPublishedLayout_alike {left right : PublishedWorkspaceLayout}
    (same : left.stable = right.stable) :
    RecordsAlike (splitPublishedLayout left) (splitPublishedLayout right) := by
  obtain ⟨tabs, editorFiles, browserTabs, workspace⟩ := PublishedWorkspaceLayout.stable_iff.mp same
  have alike := forall₂_of_map_eq tabs
  refine ⟨workspace, ?_, ?_, ?_, editorFiles, browserTabs⟩
  · unfold splitPublishedLayout
    rw [List.map_map, List.map_map]
    exact map_eq_of_forall₂ (alike.imp fun _ _ tab => PublishedTab.row_alike tab)
  · exact filterMap_alike alike fun _ _ tab => PublishedTab.paneTree?_alike tab
  · exact bindings_alike alike

/-! ## Joining -/

/-- Two maps whose records are written alike, key by key. -/
def MapsAlike {Record : Type} (kind : RecordKind Record) (left right : JsMap String Record) : Prop :=
  ∀ key, (left.get? key).map kind.json = (right.get? key).map kind.json

theorem MapsAlike.rel {Record : Type} {kind : RecordKind Record} {left right : JsMap String Record}
    (alike : MapsAlike kind left right) (key : String) :
    Option.Rel (fun left right => kind.json left = kind.json right) (left.get? key)
      (right.get? key) := by
  have same := alike key
  cases here : left.get? key <;> cases there : right.get? key <;> simp_all

section Maps

variable {trees otherTrees : JsMap String PublishedPaneTree}
variable {bindings otherBindings : JsMap String PublishedPaneBinding}

theorem joinPane_alike (bindingsAlike : MapsAlike bindingKind bindings otherBindings)
    {left right : PublishedTreePane} (same : stableJson left.toJson = stableJson right.toJson) :
    stableJson (joinPane bindings left).toJson =
      stableJson (joinPane otherBindings right).toJson := by
  obtain ⟨leafId, fields⟩ := PublishedTreePane.stable_iff.mp same
  have bound := bindingsAlike.rel left.leafId
  unfold joinPane
  rw [← leafId]
  revert bound
  cases bindings.get? left.leafId <;> cases otherBindings.get? left.leafId <;> intro bound <;>
    cases bound
  · exact PublishedPane.stable_iff.mpr ⟨rfl, rfl, rfl, rfl, rfl, rfl, fields⟩
  case some related =>
    obtain ⟨_, ptyId, generation, status, reason, outcome⟩ :=
      PublishedPaneBinding.stable_iff.mp related
    exact PublishedPane.stable_iff.mpr
      ⟨rfl, ptyId, generation, status, reason, outcome, fields⟩

theorem joinTab_alike (treesAlike : MapsAlike paneTreeKind trees otherTrees)
    (bindingsAlike : MapsAlike bindingKind bindings otherBindings) {left right : PublishedTabRow}
    (same : tabKind.json left = tabKind.json right) {joined : PublishedTab}
    (join : joinTab otherTrees otherBindings right = .ok joined) :
    ∃ tab, joinTab trees bindings left = .ok tab ∧
      stableJson tab.toJson = stableJson joined.toJson := by
  obtain ⟨id, terminal, fields⟩ := PublishedTabRow.stable_iff.mp same
  unfold joinTab at join ⊢
  cases leftTerminal : left.terminal with
  | none =>
    rw [leftTerminal] at terminal
    cases rightTerminal : right.terminal with
    | some _ =>
      rw [rightTerminal] at terminal
      cases terminal
    | none =>
      rw [rightTerminal] at join
      cases join
      exact ⟨_, rfl, PublishedTab.stable_iff.mpr ⟨id, .none, fields⟩⟩
  | some creation =>
    rw [leftTerminal] at terminal
    cases rightTerminal : right.terminal with
    | none =>
      rw [rightTerminal] at terminal
      cases terminal
    | some otherCreation =>
      rw [rightTerminal] at terminal join
      cases terminal
      case some sameCreation =>
      cases there : otherTrees.get? right.id with
      | none =>
        rw [there] at join
        cases join
      | some otherTree =>
        rw [there] at join
        cases join
        have tree := treesAlike left.id
        rw [id, there, Option.map_some] at tree
        obtain ⟨own, here, related⟩ := Option.map_eq_some_iff.mp tree
        obtain ⟨_, root, chatLeafId, panes⟩ := PublishedPaneTree.stable_iff.mp related
        rw [id, here]
        refine ⟨_, rfl, PublishedTab.stable_iff.mpr ⟨rfl, .some ?_, fields⟩⟩
        refine PublishedTerminal.stable_iff.mpr ⟨root, chatLeafId, ?_, sameCreation⟩
        rw [List.map_map, List.map_map]
        exact map_eq_of_forall₂ ((forall₂_of_map_eq panes).imp fun _ _ pane =>
          joinPane_alike bindingsAlike pane)

theorem mapM_joinTab_alike (treesAlike : MapsAlike paneTreeKind trees otherTrees)
    (bindingsAlike : MapsAlike bindingKind bindings otherBindings)
    {left right : List PublishedTabRow} (same : left.map tabKind.json = right.map tabKind.json)
    {joined : List PublishedTab} (join : right.mapM (joinTab otherTrees otherBindings) = .ok joined) :
    ∃ tabs, left.mapM (joinTab trees bindings) = .ok tabs ∧
      tabs.map (fun tab => stableJson tab.toJson) =
        joined.map fun tab => stableJson tab.toJson := by
  have alike := forall₂_of_map_eq same
  induction alike generalizing joined with
  | nil =>
    cases join
    exact ⟨[], rfl, rfl⟩
  | cons first rest ih =>
    rw [List.mapM_cons] at join
    rename_i row otherRow rows otherRows
    cases here : joinTab otherTrees otherBindings otherRow with
    | error message =>
      rw [here] at join
      cases join
    | ok joinedTab =>
      cases later : otherRows.mapM (joinTab otherTrees otherBindings) with
      | error message =>
        rw [here, later] at join
        cases join
      | ok joinedTabs =>
        rw [here, later] at join
        cases join
        obtain ⟨tab, joinsTab, sameTab⟩ := joinTab_alike treesAlike bindingsAlike first here
        obtain ⟨tabs, joinsTabs, sameTabs⟩ := ih (map_eq_of_forall₂ rest) later
        refine ⟨tab :: tabs, ?_, by rw [List.map_cons, List.map_cons, sameTab, sameTabs]⟩
        rw [List.mapM_cons, joinsTab, joinsTabs]
        rfl

end Maps

/-- Records that a reader may hold for a layout: alike where their order counts, and alike
key by key where it does not. -/
structure RecordsFollow (reader host : PublishedLayoutRecords) : Prop where
  workspace : reader.workspace.stable = host.workspace.stable
  tabs : reader.tabs.map tabKind.json = host.tabs.map tabKind.json
  trees : paneTreeKind.Consistent reader.paneTrees ∧
    paneTreeKind.view reader.paneTrees = paneTreeKind.view host.paneTrees
  bindings : bindingKind.Consistent reader.bindings ∧
    bindingKind.view reader.bindings = bindingKind.view host.bindings
  editorFiles : reader.editorFiles.map editorFileKind.json =
    host.editorFiles.map editorFileKind.json
  browserTabs : reader.browserTabs.map browserTabKind.json =
    host.browserTabs.map browserTabKind.json

theorem mapsAlike_of_views {Record : Type} {kind : RecordKind Record} {left right : List Record}
    (leftConsistent : kind.Consistent left) (rightConsistent : kind.Consistent right)
    (same : kind.view left = kind.view right) :
    MapsAlike kind (recordMap kind left) (recordMap kind right) := by
  intro key
  rw [recordMap_view leftConsistent, recordMap_view rightConsistent, same]

theorem joinPublishedLayout_follows {reader host : PublishedLayoutRecords}
    (follow : RecordsFollow reader host) (hostTrees : paneTreeKind.Consistent host.paneTrees)
    (hostBindings : bindingKind.Consistent host.bindings) {layout : PublishedWorkspaceLayout}
    (join : joinPublishedLayout host = .ok layout) :
    ∃ next, joinPublishedLayout reader = .ok next ∧ next.stable = layout.stable := by
  unfold joinPublishedLayout at join ⊢
  cases joins : host.tabs.mapM (joinTab (recordMap paneTreeKind host.paneTrees)
      (recordMap bindingKind host.bindings)) with
  | error message =>
    rw [joins] at join
    cases join
  | ok joined =>
    rw [joins] at join
    cases join
    obtain ⟨tabs, joinsTabs, sameTabs⟩ := mapM_joinTab_alike
      (mapsAlike_of_views follow.trees.1 hostTrees follow.trees.2)
      (mapsAlike_of_views follow.bindings.1 hostBindings follow.bindings.2) follow.tabs joins
    refine ⟨⟨tabs, reader.editorFiles, reader.browserTabs, reader.workspace⟩, ?_, ?_⟩
    · rw [joinsTabs]
      rfl
    · exact PublishedWorkspaceLayout.stable_iff.mpr
        ⟨sameTabs, follow.editorFiles, follow.browserTabs, follow.workspace⟩

/-! ## A layout is joined from its own records -/

theorem mem_bindings_iff {layout : PublishedWorkspaceLayout} {binding : PublishedPaneBinding} :
    binding ∈ (splitPublishedLayout layout).bindings ↔
      ∃ pane ∈ layout.panes, pane.binding? = some binding := by
  unfold splitPublishedLayout PublishedWorkspaceLayout.panes
  simp only [List.mem_flatMap, List.mem_filterMap]
  constructor
  · rintro ⟨tab, member, pane, shown, bound⟩
    exact ⟨pane, ⟨tab, member, shown⟩, bound⟩
  · rintro ⟨pane, ⟨tab, member, shown⟩, bound⟩
    exact ⟨tab, member, pane, shown, bound⟩

theorem PublishedPane.binding?_leafId {pane : PublishedPane} {binding : PublishedPaneBinding}
    (bound : pane.binding? = some binding) : binding.leafId = pane.leafId := by
  unfold PublishedPane.binding? at bound
  split at bound
  · cases bound
    rfl
  · cases bound

theorem bindings_get?_of_unbound {layout : PublishedWorkspaceLayout}
    (distinct : layout.DistinctLeaves) {pane : PublishedPane} (member : pane ∈ layout.panes)
    (unbound : pane.binding? = none) :
    (recordMap bindingKind (splitPublishedLayout layout).bindings).get? pane.leafId = none := by
  cases found : (recordMap bindingKind (splitPublishedLayout layout).bindings).get?
      pane.leafId with
  | none => rfl
  | some binding =>
    obtain ⟨held, named⟩ := recordMap_get?_mem found
    obtain ⟨other, present, bound⟩ := mem_bindings_iff.mp held
    have sameLeaf : other.leafId = pane.leafId :=
      (PublishedPane.binding?_leafId bound).symm.trans named
    have same := List.inj_on_of_nodup_map distinct present member sameLeaf
    rw [same, unbound] at bound
    cases bound

theorem joinPane_treePane {layout : PublishedWorkspaceLayout} (distinct : layout.DistinctLeaves)
    (consistent : bindingKind.Consistent (splitPublishedLayout layout).bindings)
    {pane : PublishedPane} (member : pane ∈ layout.panes) {shown : PublishedTreePane}
    (same : stableJson shown.toJson = stableJson pane.treePane.toJson) :
    stableJson (joinPane (recordMap bindingKind (splitPublishedLayout layout).bindings)
      shown).toJson = stableJson pane.toJson := by
  obtain ⟨leafId, fields⟩ := PublishedTreePane.stable_iff.mp same
  have named : shown.leafId = pane.leafId := leafId
  unfold joinPane
  rw [named]
  cases bound : pane.binding? with
  | none =>
    rw [bindings_get?_of_unbound distinct member bound]
    unfold PublishedPane.binding? at bound
    split at bound
    · cases bound
    case isFalse absent =>
      simp only [not_or, ne_eq, not_not] at absent
      obtain ⟨ptyId, generation, status, reason, outcome⟩ := absent
      exact PublishedPane.stable_iff.mpr ⟨rfl, by rw [ptyId], by rw [generation],
        by rw [status], by rw [reason], by rw [outcome], fields⟩
  | some binding =>
    have held : binding ∈ (splitPublishedLayout layout).bindings :=
      mem_bindings_iff.mpr ⟨pane, member, bound⟩
    have seen := recordMap_view consistent (bindingKind.keyOf binding)
    rw [view_of_mem consistent held] at seen
    have key : bindingKind.keyOf binding = pane.leafId := PublishedPane.binding?_leafId bound
    rw [key] at seen
    obtain ⟨found, here, alike⟩ := Option.map_eq_some_iff.mp seen
    rw [here]
    obtain ⟨_, ptyId, generation, status, reason, outcome⟩ :=
      PublishedPaneBinding.stable_iff.mp alike
    unfold PublishedPane.binding? at bound
    split at bound
    · cases bound
      exact PublishedPane.stable_iff.mpr
        ⟨rfl, ptyId, generation, status, reason, outcome, fields⟩
    · cases bound

theorem map_joinPane_treePanes {layout : PublishedWorkspaceLayout}
    (distinct : layout.DistinctLeaves)
    (consistent : bindingKind.Consistent (splitPublishedLayout layout).bindings)
    {panes : List PublishedPane} {shown : List PublishedTreePane}
    (within : ∀ pane ∈ panes, pane ∈ layout.panes)
    (same : shown.map (fun pane => stableJson pane.toJson) =
      (panes.map PublishedPane.treePane).map fun pane => stableJson pane.toJson) :
    (shown.map (joinPane (recordMap bindingKind (splitPublishedLayout layout).bindings))).map
        (fun pane => stableJson pane.toJson) =
      panes.map fun pane => stableJson pane.toJson := by
  induction panes generalizing shown with
  | nil =>
    rw [List.map_nil, List.map_nil, List.map_eq_nil_iff] at same
    rw [same]
    rfl
  | cons pane rest ih =>
    cases shown with
    | nil => cases same
    | cons first later =>
      rw [List.map_cons, List.map_cons, List.map_cons, List.cons.injEq] at same
      rw [List.map_cons, List.map_cons, List.map_cons,
        joinPane_treePane distinct consistent (within pane List.mem_cons_self) same.1,
        ih (fun other member => within other (List.mem_cons_of_mem _ member)) same.2]

theorem joinTab_row {layout : PublishedWorkspaceLayout} (distinct : layout.DistinctLeaves)
    (trees : paneTreeKind.Consistent (splitPublishedLayout layout).paneTrees)
    (bindings : bindingKind.Consistent (splitPublishedLayout layout).bindings)
    {tab : PublishedTab} (member : tab ∈ layout.tabs) :
    ∃ joined, joinTab (recordMap paneTreeKind (splitPublishedLayout layout).paneTrees)
        (recordMap bindingKind (splitPublishedLayout layout).bindings) tab.row = .ok joined ∧
      stableJson joined.toJson = stableJson tab.toJson := by
  unfold joinTab
  cases terminal : tab.terminal with
  | none =>
    have row : tab.row.terminal = none := by simp [PublishedTab.row, terminal]
    rw [row]
    refine ⟨_, rfl, PublishedTab.stable_iff.mpr ⟨rfl, ?_, rfl⟩⟩
    rw [terminal]
    exact .none
  | some shown =>
    have row : tab.row.terminal = some shown.creation := by simp [PublishedTab.row, terminal]
    have own : tab.paneTree? = some ⟨tab.id, shown.root, shown.chatLeafId,
        shown.panes.map PublishedPane.treePane⟩ := by
      simp [PublishedTab.paneTree?, terminal]
    have held := List.mem_filterMap.mpr ⟨tab, member, own⟩
    have seen := recordMap_view trees tab.id
    have view := view_of_mem trees held
    rw [show paneTreeKind.keyOf _ = tab.id from rfl] at view
    rw [view] at seen
    obtain ⟨tree, found, alike⟩ := Option.map_eq_some_iff.mp seen
    obtain ⟨_, root, chatLeafId, panes⟩ := PublishedPaneTree.stable_iff.mp alike
    have here : (recordMap paneTreeKind (splitPublishedLayout layout).paneTrees).get?
        tab.row.id = some tree := found
    rw [row, here]
    refine ⟨_, rfl, PublishedTab.stable_iff.mpr ⟨rfl, ?_, rfl⟩⟩
    rw [terminal]
    refine .some (PublishedTerminal.stable_iff.mpr ⟨root, chatLeafId, ?_, rfl⟩)
    refine map_joinPane_treePanes distinct bindings (fun pane present => ?_) panes
    refine List.mem_flatMap.mpr ⟨tab, member, ?_⟩
    simpa [PublishedTab.panes, terminal] using present

theorem joinPublishedLayout_split {layout : PublishedWorkspaceLayout}
    (distinct : layout.DistinctLeaves)
    (trees : paneTreeKind.Consistent (splitPublishedLayout layout).paneTrees)
    (bindings : bindingKind.Consistent (splitPublishedLayout layout).bindings) :
    ∃ joined, joinPublishedLayout (splitPublishedLayout layout) = .ok joined ∧
      joined.stable = layout.stable := by
  have walk : ∀ tabs : List PublishedTab, (∀ tab ∈ tabs, tab ∈ layout.tabs) →
      ∃ joined, (tabs.map PublishedTab.row).mapM
          (joinTab (recordMap paneTreeKind (splitPublishedLayout layout).paneTrees)
            (recordMap bindingKind (splitPublishedLayout layout).bindings)) = .ok joined ∧
        joined.map (fun tab => stableJson tab.toJson) =
          tabs.map fun tab => stableJson tab.toJson := by
    intro tabs within
    induction tabs with
    | nil => exact ⟨[], rfl, rfl⟩
    | cons tab rest ih =>
      obtain ⟨joinedTab, here, sameTab⟩ :=
        joinTab_row distinct trees bindings (within tab List.mem_cons_self)
      obtain ⟨joinedRest, later, sameRest⟩ :=
        ih fun other member => within other (List.mem_cons_of_mem _ member)
      refine ⟨joinedTab :: joinedRest, ?_, by rw [List.map_cons, List.map_cons, sameTab, sameRest]⟩
      rw [List.map_cons, List.mapM_cons, here, later]
      rfl
  obtain ⟨tabs, joins, same⟩ := walk layout.tabs fun _ member => member
  refine ⟨⟨tabs, layout.editorFiles, layout.browserTabs, layout.workspace⟩, ?_, ?_⟩
  · unfold joinPublishedLayout
    rw [show (splitPublishedLayout layout).tabs = layout.tabs.map PublishedTab.row from rfl, joins]
    rfl
  · exact PublishedWorkspaceLayout.stable_iff.mpr ⟨same, rfl, rfl, rfl⟩

/-! ## One change -/

/-- What the index of a layout shows, kind by kind. -/
structure LayoutIndexOf (layout : PublishedWorkspaceLayout) (index : IndexedLayoutRecords) :
    Prop where
  workspaceJson : index.workspaceJson = layout.workspace.stable
  workspace : index.workspace = layout.workspace
  tabs : IndexOf tabKind (splitPublishedLayout layout).tabs index.tabs
  paneTrees : IndexOf paneTreeKind (splitPublishedLayout layout).paneTrees index.paneTrees
  bindings : IndexOf bindingKind (splitPublishedLayout layout).bindings index.bindings
  editorFiles : IndexOf editorFileKind layout.editorFiles index.editorFiles
  browserTabs : IndexOf browserTabKind layout.browserTabs index.browserTabs

theorem indexPublishedLayout_spec {layout : PublishedWorkspaceLayout}
    {index : IndexedLayoutRecords} (indexed : indexPublishedLayout layout = some index) :
    LayoutIndexOf layout index := by
  unfold indexPublishedLayout at indexed
  simp only [Option.bind_eq_bind, Option.bind_eq_some_iff, Option.pure_def,
    Option.some.injEq] at indexed
  obtain ⟨tabs, hasTabs, trees, hasTrees, bindings, hasBindings, files, hasFiles, browserTabs,
    hasBrowserTabs, rfl⟩ := indexed
  exact ⟨rfl, rfl, indexKind_spec hasTabs, indexKind_spec hasTrees, indexKind_spec hasBindings,
    indexKind_spec hasFiles, indexKind_spec hasBrowserTabs⟩

section Change

variable {reader before after : PublishedWorkspaceLayout}
variable {beforeIndex afterIndex : IndexedLayoutRecords}

/-- Applied to records that follow the old layout, the diff gives records that follow the
new one, and they join. -/
theorem applyRecords_diff (sameBefore : reader.stable = before.stable)
    (shows : LayoutIndexOf before beforeIndex) (showsAfter : LayoutIndexOf after afterIndex)
    (distinct : after.DistinctLeaves) :
    ∃ next, applyRecords (splitPublishedLayout reader) (diffRecords beforeIndex afterIndex) =
        .ok next ∧ next.stable = after.stable := by
  have alike := splitPublishedLayout_alike sameBefore
  obtain ⟨tabs, appliesTabs, sameTabs⟩ := applyKind_ordered shows.tabs showsAfter.tabs alike.tabs
  obtain ⟨trees, appliesTrees, treesConsistent, sameTrees⟩ := applyKind_unordered shows.paneTrees
    showsAfter.paneTrees (Consistent.of_map_json shows.paneTrees.consistent alike.paneTrees)
    (view_of_map_json alike.paneTrees)
  obtain ⟨bindings, appliesBindings, bindingsConsistent, sameBindings⟩ :=
    applyKind_unordered shows.bindings showsAfter.bindings
      (Consistent.of_map_json shows.bindings.consistent alike.bindings)
      (view_of_map_json alike.bindings)
  obtain ⟨files, appliesFiles, sameFiles⟩ :=
    applyKind_ordered shows.editorFiles showsAfter.editorFiles alike.editorFiles
  obtain ⟨browserTabs, appliesBrowserTabs, sameBrowserTabs⟩ :=
    applyKind_ordered shows.browserTabs showsAfter.browserTabs alike.browserTabs
  have workspace : ((diffRecords beforeIndex afterIndex).workspace.getD
      (splitPublishedLayout reader).workspace).stable = after.workspace.stable := by
    unfold diffRecords
    dsimp only
    rw [shows.workspaceJson, showsAfter.workspaceJson]
    by_cases changed : before.workspace.stable = after.workspace.stable
    · simpa [changed] using alike.workspace.trans changed
    · simp [changed, showsAfter.workspace]
  obtain ⟨joined, joins, sameJoined⟩ := joinPublishedLayout_split distinct
    showsAfter.paneTrees.consistent showsAfter.bindings.consistent
  have follow : RecordsFollow
      ⟨(diffRecords beforeIndex afterIndex).workspace.getD
        (splitPublishedLayout reader).workspace, tabs, trees, bindings, files, browserTabs⟩
      (splitPublishedLayout after) :=
    ⟨workspace, sameTabs, ⟨treesConsistent, sameTrees⟩, ⟨bindingsConsistent, sameBindings⟩,
      sameFiles, sameBrowserTabs⟩
  obtain ⟨next, joinsNext, sameNext⟩ := joinPublishedLayout_follows follow
    showsAfter.paneTrees.consistent showsAfter.bindings.consistent joins
  refine ⟨next, ?_, sameNext.trans sameJoined⟩
  unfold applyRecords
  simp only [diffRecords] at joinsNext ⊢
  rw [appliesTabs, appliesTrees, appliesBindings, appliesFiles, appliesBrowserTabs]
  exact joinsNext

theorem stable_of_empty_diff (shows : LayoutIndexOf before beforeIndex)
    (showsAfter : LayoutIndexOf after afterIndex) (beforeDistinct : before.DistinctLeaves)
    (afterDistinct : after.DistinctLeaves)
    (empty : (diffRecords beforeIndex afterIndex).isEmpty = true) :
    before.stable = after.stable := by
  obtain ⟨next, applies, same⟩ := applyRecords_diff rfl shows showsAfter afterDistinct
  obtain ⟨joined, joins, sameJoined⟩ := joinPublishedLayout_split beforeDistinct
    shows.paneTrees.consistent shows.bindings.consistent
  have unchanged : applyRecords (splitPublishedLayout before)
      (diffRecords beforeIndex afterIndex) = joinPublishedLayout (splitPublishedLayout before) := by
    generalize diffRecords beforeIndex afterIndex = changes at empty
    obtain ⟨workspace, tabs, trees, bindings, files, browserTabs⟩ := changes
    simp only [WorkspaceLayoutRecordChanges.isEmpty, Bool.and_eq_true,
      Option.isNone_iff_eq_none] at empty
    obtain ⟨⟨⟨⟨⟨rfl, rfl⟩, rfl⟩, rfl⟩, rfl⟩, rfl⟩ := empty
    rfl
  rw [unchanged, joins] at applies
  cases applies
  exact sameJoined.symm.trans same

end Change

/-- A reader that holds the old layout, or one written like it, holds the new one after
the change, and without a change the two layouts are written alike. -/
theorem diffPublishedLayouts_applies (key : String) {reader before after : PublishedWorkspaceLayout}
    (sameBefore : reader.stable = before.stable) (beforeDistinct : before.DistinctLeaves)
    (afterDistinct : after.DistinctLeaves) :
    (diffPublishedLayouts key (indexPublishedLayout before) (indexPublishedLayout after) after =
        none → before.stable = after.stable) ∧
    ∀ change, diffPublishedLayouts key (indexPublishedLayout before) (indexPublishedLayout after)
        after = some change →
      ∃ next, applyWorkspaceLayoutRecordChange (some reader) change = .ok (some next) ∧
        next.stable = after.stable := by
  cases indexed : indexPublishedLayout before with
  | none =>
    refine ⟨(fun unchanged => nomatch unchanged), fun change sent => ?_⟩
    cases sent
    exact ⟨after, rfl, rfl⟩
  | some beforeIndex =>
    cases indexedAfter : indexPublishedLayout after with
    | none =>
      refine ⟨(fun unchanged => nomatch unchanged), fun change sent => ?_⟩
      cases sent
      exact ⟨after, rfl, rfl⟩
    | some afterIndex =>
      have shows := indexPublishedLayout_spec indexed
      have showsAfter := indexPublishedLayout_spec indexedAfter
      unfold diffPublishedLayouts
      dsimp only
      split
      case isTrue empty =>
        refine ⟨fun _ => ?_, fun change sent => by cases sent⟩
        exact stable_of_empty_diff shows showsAfter beforeDistinct afterDistinct empty
      case isFalse =>
        refine ⟨(fun unchanged => nomatch unchanged), fun change sent => ?_⟩
        cases sent
        obtain ⟨next, applies, same⟩ :=
          applyRecords_diff sameBefore shows showsAfter afterDistinct
        exact ⟨next, by simp [applyWorkspaceLayoutRecordChange, applies, Except.map], same⟩

/-! ## A whole stream -/

/-- What the stream sends when a workspace's layout becomes another, appears or goes. -/
def emittedChange (key : String) (previous current : Option PublishedWorkspaceLayout) :
    Option WorkspaceLayoutRecordChange :=
  match previous, current with
  | none, none => none
  | some _, none => some (.removed key)
  | none, some current => some (.layout key current)
  | some previous, some current =>
    diffPublishedLayouts key (indexPublishedLayout previous) (indexPublishedLayout current) current

def readChange (reader : Option PublishedWorkspaceLayout)
    (change : Option WorkspaceLayoutRecordChange) :
    Except String (Option PublishedWorkspaceLayout) :=
  match change with
  | none => .ok reader
  | some change => applyWorkspaceLayoutRecordChange reader change

/-- What a reader holds after every change the host emitted, in order. -/
def followStream (key : String) :
    Option PublishedWorkspaceLayout → Option PublishedWorkspaceLayout →
      List (Option PublishedWorkspaceLayout) → Except String (Option PublishedWorkspaceLayout)
  | _, reader, [] => .ok reader
  | host, reader, next :: rest => do
    let reader ← readChange reader (emittedChange key host next)
    followStream key next reader rest

/-- The reader's layout is written like the host's. -/
def Holds (reader host : Option PublishedWorkspaceLayout) : Prop :=
  Option.Rel (fun reader host => reader.stable = host.stable) reader host

def ShownDistinct (host : Option PublishedWorkspaceLayout) : Prop :=
  ∀ layout, host = some layout → layout.DistinctLeaves

theorem readChange_holds (key : String) {reader host next : Option PublishedWorkspaceLayout}
    (holds : Holds reader host) (hostDistinct : ShownDistinct host)
    (nextDistinct : ShownDistinct next) :
    ∃ after, readChange reader (emittedChange key host next) = .ok after ∧ Holds after next := by
  cases host with
  | none =>
    cases holds
    cases next with
    | none => exact ⟨none, rfl, .none⟩
    | some layout => exact ⟨some layout, rfl, .some rfl⟩
  | some previous =>
    cases next with
    | none => exact ⟨none, rfl, .none⟩
    | some current =>
      cases holds with
      | some same =>
        have applies := diffPublishedLayouts_applies key same (hostDistinct _ rfl)
          (nextDistinct _ rfl)
        unfold emittedChange readChange
        dsimp only
        cases sent : diffPublishedLayouts key (indexPublishedLayout previous)
            (indexPublishedLayout current) current with
        | none => exact ⟨_, rfl, .some (same.trans (applies.1 sent))⟩
        | some change =>
          obtain ⟨after, applied, sameAfter⟩ := applies.2 change sent
          exact ⟨some after, applied, .some sameAfter⟩

theorem followStream_holds (key : String) (layouts : List (Option PublishedWorkspaceLayout))
    (distinct : ∀ layout ∈ layouts, ShownDistinct layout)
    {reader host : Option PublishedWorkspaceLayout} (holds : Holds reader host)
    (hostDistinct : ShownDistinct host) :
    ∃ after, followStream key host reader layouts = .ok after ∧
      Holds after (layouts.getLastD host) := by
  induction layouts generalizing reader host with
  | nil => exact ⟨reader, rfl, holds⟩
  | cons next rest ih =>
    have nextDistinct := distinct next List.mem_cons_self
    obtain ⟨middle, reads, holdsMiddle⟩ := readChange_holds key holds hostDistinct nextDistinct
    obtain ⟨after, follows, holdsAfter⟩ :=
      ih (fun layout member => distinct layout (List.mem_cons_of_mem _ member)) holdsMiddle
        nextDistinct
    refine ⟨after, ?_, by rwa [List.getLastD_cons]⟩
    unfold followStream
    rw [reads]
    exact follows

/-- One terminal tab with one pane, bound to a terminal or not. -/
def onePaneLayout (ptyId : JsValue) : PublishedWorkspaceLayout where
  tabs := [⟨"tab", some ⟨.object [("type", .string "leaf"), ("leafId", .string "leaf")], .undefined,
    [⟨"leaf", ptyId, .undefined, .undefined, .undefined, .undefined, .empty⟩], .empty⟩, .empty⟩]
  editorFiles := []
  browserTabs := []
  workspace := .empty

end OxeeUI.Layout
