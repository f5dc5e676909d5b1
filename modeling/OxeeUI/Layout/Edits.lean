import OxeeUI.Layout.GroupSteps
import OxeeUI.Layout.PaneSteps

/-!
# What one command does to one workspace

An edit keeps the rules when the ids it gives are new, takes tabs and panes from nowhere
else, and accounts for every terminal: still shown by its pane, or stopped.
-/

namespace OxeeUI.Layout

open OxeeUI.Library

structure WorkspaceRules (holes : List String) (workspace : WorkspaceLayout) : Prop where
  groups : GroupsHoldTabs holes workspace
  panes : PanesHoldLeaves workspace

theorem workspaceRules_empty (holes : List String) (worktreeId : String) :
    WorkspaceRules holes (.empty worktreeId) where
  groups := ⟨List.nodup_nil, List.Perm.refl _, by simp [WorkspaceLayout.empty], Nat.zero_le 1⟩
  panes := ⟨List.nodup_nil, by simp [WorkspaceLayout.empty], by
    intro leafId leaf found
    cases found⟩

structure NewIds where
  tabs : List String
  leaves : List String
  groups : List String

def NewIds.none : NewIds := ⟨[], [], []⟩

structure NewIds.FreshIn (ids : NewIds) (workspace : WorkspaceLayout) : Prop where
  tabs : ∀ id ∈ ids.tabs, id ∉ workspace.tabIds
  leaves : ∀ id ∈ ids.leaves, id ∉ workspace.paneIds
  groups : ∀ id ∈ ids.groups, id ∉ workspace.groupIds

theorem NewIds.freshIn_none (workspace : WorkspaceLayout) : NewIds.none.FreshIn workspace :=
  ⟨by simp [none], by simp [none], by simp [none]⟩

variable {ids : NewIds} {stops : List String} {before middle after : WorkspaceLayout}

/-! ## The rules -/

structure LayoutEdit (ids : NewIds) (before after : WorkspaceLayout) : Prop where
  rules : ∀ holes, WorkspaceRules holes before → ids.FreshIn before → WorkspaceRules holes after
  tabIds : ∀ id ∈ after.tabIds, id ∈ ids.tabs ∨ id ∈ before.tabIds
  paneIds : ∀ id ∈ after.paneIds, id ∈ ids.leaves ∨ id ∈ before.paneIds

namespace LayoutEdit

theorem refl (ids : NewIds) (workspace : WorkspaceLayout) : LayoutEdit ids workspace workspace :=
  ⟨fun _ rules _ => rules, fun _ => Or.inr, fun _ => Or.inr⟩

theorem trans (first : LayoutEdit ids before middle) (second : LayoutEdit .none middle after) :
    LayoutEdit ids before after where
  rules := fun holes rules fresh =>
    second.rules holes (first.rules holes rules fresh) (NewIds.freshIn_none _)
  tabIds := fun id member =>
    (second.tabIds id member).elim (fun absurd => by cases absurd) (first.tabIds id)
  paneIds := fun id member =>
    (second.paneIds id member).elim (fun absurd => by cases absurd) (first.paneIds id)

end LayoutEdit

/-! ## The terminals -/

/-- Whatever a pane is bound to, it was bound to before. -/
def BindsNothingNew (before after : WorkspaceLayout) : Prop :=
  ∀ leafId ptyId, (after.bindingAt leafId).ptyId = some ptyId →
    before.bindingAt leafId = after.bindingAt leafId

/-- Every terminal stays with its pane or is stopped. -/
def KeepsTerminals (stops : List String) (before after : WorkspaceLayout) : Prop :=
  ∀ holes, WorkspaceRules holes before → ∀ leafId ∈ before.paneIds, ∀ ptyId, ptyId ≠ "" →
    (before.bindingAt leafId).ptyId = some ptyId →
    ptyId ∈ stops ∨ (leafId ∈ after.paneIds ∧ (after.bindingAt leafId).ptyId = some ptyId)

/-- Terminals stay or stop, and what is stopped was taken off a pane. -/
structure TerminalEdit (stops : List String) (before after : WorkspaceLayout) : Prop where
  binds : BindsNothingNew before after
  kept : KeepsTerminals stops before after
  stopped : ∀ ptyId ∈ stops, ∃ leafId,
    (before.bindingAt leafId).ptyId = some ptyId ∧ (after.bindingAt leafId).ptyId = none

theorem BindsNothingNew.refl (workspace : WorkspaceLayout) : BindsNothingNew workspace workspace :=
  fun _ _ _ => rfl

theorem BindsNothingNew.trans (first : BindsNothingNew before middle)
    (second : BindsNothingNew middle after) : BindsNothingNew before after := by
  intro leafId ptyId bound
  have later := second leafId ptyId bound
  exact (first leafId ptyId (later ▸ bound)).trans later

theorem bindsNothingNew_of_leaves
    (leaves : ∀ leafId, after.bindingAt leafId = before.bindingAt leafId ∨
      (after.bindingAt leafId).ptyId = none) : BindsNothingNew before after := by
  intro leafId ptyId bound
  rcases leaves leafId with same | unbound
  · exact same.symm
  · rw [unbound] at bound
    cases bound

theorem bindingAt_of_leaves (leaves : after.leaves = before.leaves) (leafId : String) :
    after.bindingAt leafId = before.bindingAt leafId :=
  bindingAt_congr (congrArg (·.get? leafId) leaves)

namespace TerminalEdit

theorem refl (workspace : WorkspaceLayout) : TerminalEdit [] workspace workspace where
  binds := .refl workspace
  kept := fun _ _ _ member _ _ bound => Or.inr ⟨member, bound⟩
  stopped := by simp

theorem trans {first second : List String} (early : TerminalEdit first before middle)
    (rules : ∀ holes, WorkspaceRules holes before → WorkspaceRules holes middle)
    (late : TerminalEdit second middle after) : TerminalEdit (first ++ second) before after where
  binds := early.binds.trans late.binds
  kept := by
    intro holes holds leafId member ptyId proper bound
    rcases early.kept holes holds leafId member ptyId proper bound with stop | ⟨member', bound'⟩
    · exact Or.inl (List.mem_append_left _ stop)
    · refine (late.kept holes (rules holes holds) leafId member' ptyId proper bound').imp_left ?_
      exact List.mem_append_right _
  stopped := by
    intro ptyId stop
    rcases List.mem_append.mp stop with stop | stop
    · obtain ⟨leafId, bound, unbound⟩ := early.stopped ptyId stop
      refine ⟨leafId, bound, ?_⟩
      -- What the first edit took off the pane, the second does not bind to it again.
      cases later : (after.bindingAt leafId).ptyId with
      | none => rfl
      | some other =>
        rw [late.binds leafId other later, later] at unbound
        cases unbound
    · obtain ⟨leafId, bound, unbound⟩ := late.stopped ptyId stop
      exact ⟨leafId, (early.binds leafId ptyId bound) ▸ bound, unbound⟩

theorem then_panes (early : TerminalEdit stops before middle)
    (leaves : ∀ leafId, after.bindingAt leafId = middle.bindingAt leafId)
    (panes : ∀ leafId ∈ middle.paneIds, leafId ∈ after.paneIds) :
    TerminalEdit stops before after where
  binds := early.binds.trans (bindsNothingNew_of_leaves fun leafId => Or.inl (leaves leafId))
  kept := by
    intro holes rules leafId member ptyId proper bound
    refine (early.kept holes rules leafId member ptyId proper bound).imp_right ?_
    exact fun stays => ⟨panes leafId stays.1, (leaves leafId).symm ▸ stays.2⟩
  stopped := by
    intro ptyId stop
    obtain ⟨leafId, bound, unbound⟩ := early.stopped ptyId stop
    exact ⟨leafId, bound, (leaves leafId).symm ▸ unbound⟩

theorem of_panes (leaves : ∀ leafId, after.bindingAt leafId = before.bindingAt leafId)
    (panes : ∀ holes, WorkspaceRules holes before → ∀ leafId ∈ before.paneIds,
      leafId ∈ after.paneIds) : TerminalEdit [] before after where
  binds := bindsNothingNew_of_leaves fun leafId => Or.inl (leaves leafId)
  kept := fun holes rules leafId member ptyId _ bound =>
    Or.inr ⟨panes holes rules leafId member, (leaves leafId).symm ▸ bound⟩
  stopped := by simp

end TerminalEdit

theorem LayoutEdit.then {tabs leaves : List String} (first : LayoutEdit .none before middle)
    (second : LayoutEdit ⟨tabs, leaves, []⟩ middle after) :
    LayoutEdit ⟨tabs, leaves, []⟩ before after where
  rules := by
    intro holes rules fresh
    refine second.rules holes (first.rules holes rules (NewIds.freshIn_none _)) ⟨?_, ?_, by simp⟩
    · exact fun id new held => fresh.tabs id new ((first.tabIds id held).resolve_left (by simp [NewIds.none]))
    · exact fun id new held =>
        fresh.leaves id new ((first.paneIds id held).resolve_left (by simp [NewIds.none]))
  tabIds := fun id member => (second.tabIds id member).imp_right fun held =>
    (first.tabIds id held).resolve_left (by simp [NewIds.none])
  paneIds := fun id member => (second.paneIds id member).imp_right fun held =>
    (first.paneIds id held).resolve_left (by simp [NewIds.none])

theorem LayoutEdit.weaken (edit : LayoutEdit .none before after) : LayoutEdit ids before after :=
  (refl ids before).trans edit

/-! ## Both -/

/-- An edit that keeps the rules and accounts for the terminals. -/
structure CommandEdit (ids : NewIds) (stops : List String) (before after : WorkspaceLayout) :
    Prop where
  layout : LayoutEdit ids before after
  terminals : TerminalEdit stops before after

namespace CommandEdit

theorem refl (ids : NewIds) (workspace : WorkspaceLayout) : CommandEdit ids [] workspace workspace :=
  ⟨.refl ids workspace, .refl workspace⟩

theorem then_same (early : CommandEdit ids stops before middle)
    (tabIds : after.tabIds = middle.tabIds) (paneIds : after.paneIds = middle.paneIds)
    (groups : after.groups = middle.groups) (groupLayout : after.groupLayout = middle.groupLayout)
    (leaves : after.leaves = middle.leaves) : CommandEdit ids stops before after := by
  have layout : LayoutEdit .none middle after := by
    refine ⟨?_, fun id member => Or.inr (tabIds ▸ member), fun id member => Or.inr (paneIds ▸ member)⟩
    exact fun holes rules _ =>
      ⟨rules.groups.congr tabIds groups groupLayout, rules.panes.congr (.of_eq paneIds) leaves⟩
  refine ⟨early.layout.trans layout, early.terminals.then_panes (bindingAt_of_leaves leaves) ?_⟩
  exact fun leafId member => paneIds ▸ member

theorem of_same (tabIds : after.tabIds = before.tabIds) (paneIds : after.paneIds = before.paneIds)
    (groups : after.groups = before.groups) (groupLayout : after.groupLayout = before.groupLayout)
    (leaves : after.leaves = before.leaves) : CommandEdit ids [] before after :=
  (refl ids before).then_same tabIds paneIds groups groupLayout leaves

theorem of_groups (tabs : after.tabs = before.tabs) (leaves : after.leaves = before.leaves)
    (groups : ∀ holes, GroupsHoldTabs holes before → ids.FreshIn before →
      GroupsHoldTabs holes after) : CommandEdit ids [] before after := by
  have tabIds : after.tabIds = before.tabIds := congrArg (List.map LayoutTab.id) tabs
  have paneIds : after.paneIds = before.paneIds := congrArg (List.flatMap LayoutTab.leafIds) tabs
  refine ⟨⟨?_, ?_, ?_⟩, .of_panes (bindingAt_of_leaves leaves) ?_⟩
  · exact fun holes rules fresh =>
      ⟨groups holes rules.groups fresh, rules.panes.congr (.of_eq paneIds) leaves⟩
  · exact fun id member => Or.inr (tabIds ▸ member)
  · exact fun id member => Or.inr (paneIds ▸ member)
  · exact fun _ _ leafId member => paneIds ▸ member

theorem of_replaceTab {tab replacement : LayoutTab} (member : tab ∈ before.tabs)
    (sameId : replacement.id = tab.id) (distinct : ids.leaves.Nodup)
    (panes : tab.leafIds.Nodup → replacement.leafIds.Perm (ids.leaves ++ tab.leafIds))
    (inside : ∀ leafId ∈ replacement.leafIds, leafId ∈ ids.leaves ∨ leafId ∈ tab.leafIds) :
    CommandEdit ids [] before (replaceTab before replacement) := by
  have perm : ∀ holes, WorkspaceRules holes before →
      (replaceTab before replacement).paneIds.Perm (ids.leaves ++ before.paneIds) := by
    intro holes rules
    have own : ([] ++ replacement.leafIds).Perm (ids.leaves ++ tab.leafIds) :=
      panes (rules.panes.leafIds_nodup member)
    exact paneIds_replaceTab_perm rules.groups.distinct member sameId own
  refine ⟨⟨?_, ?_, ?_⟩, .of_panes (bindingAt_of_leaves rfl) ?_⟩
  · intro holes rules fresh
    refine ⟨rules.groups.congr (tabIds_replaceTab ..) rfl rfl, ?_⟩
    exact rules.panes.added (perm holes rules) rfl distinct fresh.leaves
  · exact fun id member => Or.inr ((tabIds_replaceTab before replacement) ▸ member)
  · intro leafId pane
    rcases mem_paneIds_replaceTab pane with own | other
    · exact (inside leafId own).imp_right (mem_paneIds_of_mem member)
    · exact Or.inr other
  · intro holes rules leafId pane
    exact (perm holes rules).mem_iff.mpr (List.mem_append_right _ pane)

theorem of_replaceTab_same {tab replacement : LayoutTab} (member : tab ∈ before.tabs)
    (sameId : replacement.id = tab.id) (panes : replacement.leafIds = tab.leafIds) :
    CommandEdit .none [] before (replaceTab before replacement) := by
  refine of_replaceTab member sameId List.nodup_nil ?_ ?_
  · exact fun _ => .of_eq panes
  · exact fun leafId inside => Or.inr (panes ▸ inside)

theorem of_placedTab {tab : LayoutTab} (placed : PlacedTab tab before after)
    (named : ids.tabs = [tab.id]) (panes : ids.leaves = tab.leafIds)
    (distinct : tab.leafIds.Nodup) : CommandEdit ids [] before after := by
  have paneIds : after.paneIds = before.paneIds ++ tab.leafIds := placed.paneIds
  refine ⟨⟨?_, ?_, ?_⟩, .of_panes (bindingAt_of_leaves placed.leaves) ?_⟩
  · intro holes rules fresh
    refine ⟨placed.groupsHoldTabs rules.groups (fresh.tabs _ (by simp [named])), ?_⟩
    refine rules.panes.added ?_ placed.leaves distinct (panes ▸ fresh.leaves)
    exact paneIds ▸ List.perm_append_comm
  · intro id member
    rw [placed.tabIds, List.mem_append] at member
    rwa [named, or_comm]
  · intro id member
    rw [paneIds, List.mem_append] at member
    rwa [panes, or_comm]
  · exact fun _ _ leafId member => paneIds ▸ List.mem_append_left _ member

end CommandEdit

theorem CommandEdit.trans {first second : List String} (early : CommandEdit .none first before middle)
    (late : CommandEdit .none second middle after) :
    CommandEdit .none (first ++ second) before after where
  layout := early.layout.trans late.layout
  terminals := early.terminals.trans
    (fun holes rules => early.layout.rules holes rules (NewIds.freshIn_none _)) late.terminals

theorem CommandEdit.weaken (edit : CommandEdit .none stops before after) :
    CommandEdit ids stops before after :=
  ⟨edit.layout.weaken, edit.terminals⟩

/-! ## Data of one pane -/

theorem LayoutEdit.of_setLeaf {leafId : String} {leaf : LayoutLeaf}
    (member : leafId ∈ before.paneIds)
    (exclusive : ∀ holes, WorkspaceRules holes before →
      leaf.sleeping = none ∨ leaf.resume = none) :
    LayoutEdit .none before (setLeaf before leafId leaf) where
  rules := fun holes rules _ =>
    ⟨rules.groups.congr rfl rfl rfl, rules.panes.setLeaf member (exclusive holes rules)⟩
  tabIds := fun _ => Or.inr
  paneIds := fun _ => Or.inr

theorem TerminalEdit.of_setLeaf {leafId : String} {leaf : LayoutLeaf}
    (binding : leaf.binding = before.bindingAt leafId) :
    TerminalEdit [] before (setLeaf before leafId leaf) := by
  refine .of_panes (fun other => ?_) fun _ _ _ member => member
  rw [bindingAt_setLeaf]
  by_cases same : other = leafId
  · rw [if_pos same, same, binding]
  · rw [if_neg same]

theorem BindsNothingNew.of_unbind {leafId : String} {leaf : LayoutLeaf}
    (unbound : leaf.ptyId = none) : BindsNothingNew before (setLeaf before leafId leaf) := by
  refine bindsNothingNew_of_leaves fun other => ?_
  rw [bindingAt_setLeaf]
  by_cases same : other = leafId
  · rw [if_pos same]
    exact Or.inr unbound
  · rw [if_neg same]
    exact Or.inl rfl

theorem TerminalEdit.of_unbind {leafId : String} {leaf : LayoutLeaf}
    (unbound : leaf.ptyId = none) :
    TerminalEdit (((before.bindingAt leafId).ptyId.filter (· ≠ "")).toList) before
      (setLeaf before leafId leaf) where
  binds := .of_unbind unbound
  kept := by
    intro holes rules other member ptyId proper bound
    by_cases same : other = leafId
    · refine Or.inl ?_
      rw [← same, bound, Option.filter_some, if_pos (decide_eq_true proper)]
      exact List.mem_singleton_self ptyId
    · refine Or.inr ⟨member, ?_⟩
      rw [bindingAt_setLeaf, if_neg same]
      exact bound
  stopped := by
    intro ptyId stop
    refine ⟨leafId, ?_, ?_⟩
    · exact (Option.filter_eq_some_iff.mp (Option.mem_toList.mp stop)).1
    · rw [bindingAt_setLeaf, if_pos rfl]
      exact unbound

/-! ## Panes that go -/

structure PanesGone (gone : List String) (before after : WorkspaceLayout) : Prop where
  leaves : ∀ leafId, after.leaf? leafId = if leafId ∈ gone then none else before.leaf? leafId
  inside : ∀ leafId ∈ after.paneIds, leafId ∈ before.paneIds
  panes : ∀ holes, WorkspaceRules holes before → (gone ++ after.paneIds).Perm before.paneIds

namespace PanesGone

variable {gone : List String} (panesGone : PanesGone gone before after)
include panesGone

theorem bindingAt (leafId : String) :
    after.bindingAt leafId = if leafId ∈ gone then ⟨none, none⟩ else before.bindingAt leafId := by
  have stored := panesGone.leaves leafId
  by_cases member : leafId ∈ gone
  · rw [if_pos member] at stored ⊢
    exact bindingAt_of_none stored
  · rw [if_neg member] at stored ⊢
    exact bindingAt_congr stored

theorem binds : BindsNothingNew before after := by
  refine bindsNothingNew_of_leaves fun leafId => ?_
  rw [panesGone.bindingAt]
  by_cases member : leafId ∈ gone <;> simp [member]

theorem terminals
    (covers : ∀ leafId ∈ gone, ∀ ptyId, ptyId ≠ "" →
      (before.bindingAt leafId).ptyId = some ptyId → ptyId ∈ stops)
    (taken : ∀ ptyId ∈ stops, ∃ leafId ∈ gone, (before.bindingAt leafId).ptyId = some ptyId) :
    TerminalEdit stops before after where
  binds := panesGone.binds
  kept := by
    intro holes rules leafId member ptyId proper bound
    by_cases goes : leafId ∈ gone
    · exact Or.inl (covers leafId goes ptyId proper bound)
    · have stays := (panesGone.panes holes rules).mem_iff.mpr member
      refine Or.inr ⟨(List.mem_append.mp stays).resolve_left goes, ?_⟩
      rw [panesGone.bindingAt, if_neg goes]
      exact bound
  stopped := by
    intro ptyId stop
    obtain ⟨leafId, goes, bound⟩ := taken ptyId stop
    refine ⟨leafId, bound, ?_⟩
    rw [panesGone.bindingAt, if_pos goes]

theorem layout (tabIds : ∀ id ∈ after.tabIds, id ∈ before.tabIds)
    (groups : ∀ holes, GroupsHoldTabs holes before → GroupsHoldTabs holes after) :
    LayoutEdit .none before after where
  rules := fun holes rules _ =>
    ⟨groups holes rules.groups, rules.panes.dropped (panesGone.panes holes rules) panesGone.leaves⟩
  tabIds := fun id member => Or.inr (tabIds id member)
  paneIds := fun id member => Or.inr (panesGone.inside id member)

end PanesGone

end OxeeUI.Layout
