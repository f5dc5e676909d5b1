import OxeeUI.Layout.PaneCommands
import OxeeUI.Layout.Rules

/-!
# What the pane steps keep

A pane is added, its data is written, or it goes with its data: the panes stay distinct,
and no data outlives its pane.
-/

namespace OxeeUI.Layout

open OxeeUI.Library SplitTree

variable {workspace next : WorkspaceLayout}

/-! ## Pane data -/

def WorkspaceLayout.bindingAt (workspace : WorkspaceLayout) (leafId : String) : Binding :=
  (leafOrEmpty workspace leafId).binding

theorem bindingAt_congr {leafId : String} (same : next.leaf? leafId = workspace.leaf? leafId) :
    next.bindingAt leafId = workspace.bindingAt leafId := by
  unfold WorkspaceLayout.bindingAt leafOrEmpty
  rw [same]

theorem bindingAt_of_none {leafId : String} (none : workspace.leaf? leafId = none) :
    workspace.bindingAt leafId = ⟨.none, .none⟩ := by
  unfold WorkspaceLayout.bindingAt leafOrEmpty
  rw [none]
  rfl

theorem leaf?_setLeaf (workspace : WorkspaceLayout) (leafId other : String) (leaf : LayoutLeaf) :
    (setLeaf workspace leafId leaf).leaf? other =
      if other = leafId then (if leaf = .empty then none else some leaf)
      else workspace.leaf? other := by
  unfold setLeaf WorkspaceLayout.leaf?
  by_cases empty : leaf = .empty
  · simp only [if_pos empty, JsMap.get?_delete]
  · simp only [if_neg empty, JsMap.get?_set]

@[simp]
theorem leafOrEmpty_setLeaf (workspace : WorkspaceLayout) (leafId other : String)
    (leaf : LayoutLeaf) :
    leafOrEmpty (setLeaf workspace leafId leaf) other =
      if other = leafId then leaf else leafOrEmpty workspace other := by
  unfold leafOrEmpty
  rw [leaf?_setLeaf]
  by_cases same : other = leafId
  · rw [if_pos same, if_pos same]
    by_cases empty : leaf = .empty <;> simp [empty]
  · rw [if_neg same, if_neg same]

theorem bindingAt_setLeaf (workspace : WorkspaceLayout) (leafId other : String)
    (leaf : LayoutLeaf) :
    (setLeaf workspace leafId leaf).bindingAt other =
      if other = leafId then leaf.binding else workspace.bindingAt other := by
  unfold WorkspaceLayout.bindingAt
  rw [leafOrEmpty_setLeaf]
  split <;> rfl

/-! ## The panes of the tabs -/

@[simp]
theorem tabIds_replaceTab (workspace : WorkspaceLayout) (tab : LayoutTab) :
    (replaceTab workspace tab).tabIds = workspace.tabIds := by
  unfold WorkspaceLayout.tabIds replaceTab
  rw [List.map_map]
  refine List.map_congr_left fun entry _ => ?_
  by_cases same : entry.id = tab.id <;> simp [same]

theorem mem_paneIds_replaceTab {tab : LayoutTab} {leafId : String}
    (member : leafId ∈ (replaceTab workspace tab).paneIds) :
    leafId ∈ tab.leafIds ∨ leafId ∈ workspace.paneIds := by
  obtain ⟨entry, stored, inside⟩ := List.mem_flatMap.mp member
  obtain ⟨origin, kept, rfl⟩ := List.mem_map.mp stored
  by_cases same : origin.id = tab.id
  · rw [if_pos same] at inside
    exact Or.inl inside
  · rw [if_neg same] at inside
    exact Or.inr (List.mem_flatMap.mpr ⟨origin, kept, inside⟩)

theorem paneIds_replaceTab_perm {tab replacement : LayoutTab} {added dropped : List String}
    (distinct : workspace.tabIds.Nodup) (member : tab ∈ workspace.tabs)
    (sameId : replacement.id = tab.id)
    (perm : (dropped ++ replacement.leafIds).Perm (added ++ tab.leafIds)) :
    (dropped ++ (replaceTab workspace replacement).paneIds).Perm (added ++ workspace.paneIds) := by
  unfold WorkspaceLayout.paneIds replaceTab
  rw [sameId]
  exact flatMap_replace_perm LayoutTab.leafIds distinct member perm

theorem mem_paneIds_of_mem {tab : LayoutTab} {leafId : String} (member : tab ∈ workspace.tabs)
    (inside : leafId ∈ tab.leafIds) : leafId ∈ workspace.paneIds :=
  List.mem_flatMap.mpr ⟨tab, member, inside⟩

theorem PanesHoldLeaves.leafIds_nodup (holds : PanesHoldLeaves workspace) {tab : LayoutTab}
    (member : tab ∈ workspace.tabs) : tab.leafIds.Nodup :=
  (List.nodup_flatMap.mp holds.distinct).1 tab member

theorem tab_ext (distinct : workspace.tabIds.Nodup) {first second : LayoutTab}
    (member : first ∈ workspace.tabs) (member' : second ∈ workspace.tabs)
    (same : first.id = second.id) : first = second :=
  List.inj_on_of_nodup_map distinct member member' same

theorem paneIds_removeTab_perm {tab : LayoutTab} (distinct : workspace.tabIds.Nodup)
    (member : tab ∈ workspace.tabs) :
    (tab.leafIds ++ (removeTabFromWorkspace workspace tab.id).paneIds).Perm workspace.paneIds :=
  flatMap_remove_perm LayoutTab.leafIds distinct member

/-! ## Rules -/

namespace PanesHoldLeaves

theorem congr (holds : PanesHoldLeaves workspace) (paneIds : next.paneIds.Perm workspace.paneIds)
    (leaves : next.leaves = workspace.leaves) : PanesHoldLeaves next where
  distinct := paneIds.nodup_iff.mpr holds.distinct
  named := by
    rw [leaves]
    exact fun leafId member => paneIds.mem_iff.mpr (holds.named leafId member)
  exclusive := by
    unfold WorkspaceLayout.leaf?
    rw [leaves]
    exact holds.exclusive

theorem added (holds : PanesHoldLeaves workspace) {leafIds : List String}
    (paneIds : next.paneIds.Perm (leafIds ++ workspace.paneIds))
    (leaves : next.leaves = workspace.leaves) (distinct : leafIds.Nodup)
    (fresh : ∀ leafId ∈ leafIds, leafId ∉ workspace.paneIds) : PanesHoldLeaves next where
  distinct := by
    refine paneIds.nodup_iff.mpr (distinct.append holds.distinct ?_)
    exact fun leafId member inside => fresh leafId member inside
  named := by
    rw [leaves]
    intro leafId member
    exact paneIds.mem_iff.mpr (List.mem_append_right _ (holds.named leafId member))
  exclusive := by
    unfold WorkspaceLayout.leaf?
    rw [leaves]
    exact holds.exclusive

theorem dropped (holds : PanesHoldLeaves workspace) {gone : List String}
    (paneIds : (gone ++ next.paneIds).Perm workspace.paneIds)
    (leaves : ∀ leafId, next.leaf? leafId =
      if leafId ∈ gone then none else workspace.leaf? leafId) : PanesHoldLeaves next where
  distinct := (List.nodup_append.mp (paneIds.nodup_iff.mpr holds.distinct)).2.1
  named := by
    intro leafId member
    obtain ⟨leaf, found⟩ := JsMap.exists_get?_of_mem_keys member
    rw [show next.leaves.get? leafId = _ from leaves leafId, Option.ite_none_left_eq_some] at found
    have pane := holds.named leafId (JsMap.mem_keys_of_get? found.2)
    exact (List.mem_append.mp (paneIds.mem_iff.mpr pane)).resolve_left found.1
  exclusive := by
    intro leafId leaf found
    rw [leaves, Option.ite_none_left_eq_some] at found
    exact holds.exclusive leafId leaf found.2

theorem setLeaf (holds : PanesHoldLeaves workspace) {leafId : String} {leaf : LayoutLeaf}
    (member : leafId ∈ workspace.paneIds)
    (exclusive : leaf.sleeping = none ∨ leaf.resume = none) :
    PanesHoldLeaves (Layout.setLeaf workspace leafId leaf) where
  distinct := holds.distinct
  named := by
    intro other inside
    obtain ⟨stored, found⟩ := JsMap.exists_get?_of_mem_keys inside
    rw [show (Layout.setLeaf workspace leafId leaf).leaves.get? other = _ from
      leaf?_setLeaf workspace leafId other leaf] at found
    by_cases same : other = leafId
    · exact same ▸ member
    · rw [if_neg same] at found
      exact holds.named other (JsMap.mem_keys_of_get? found)
  exclusive := by
    intro other stored found
    rw [leaf?_setLeaf] at found
    by_cases same : other = leafId
    · rw [if_pos same, Option.ite_none_left_eq_some] at found
      cases found.2
      exact exclusive
    · rw [if_neg same] at found
      exact holds.exclusive other stored found

theorem exclusive_leafOrEmpty (holds : PanesHoldLeaves workspace) (leafId : String) :
    (leafOrEmpty workspace leafId).sleeping = none ∨
      (leafOrEmpty workspace leafId).resume = none := by
  unfold leafOrEmpty
  cases found : workspace.leaf? leafId with
  | none => exact Or.inl rfl
  | some leaf => exact holds.exclusive leafId leaf found

end PanesHoldLeaves

end OxeeUI.Layout
