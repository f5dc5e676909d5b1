import OxeeUI.Layout.Commands
import OxeeUI.Layout.OpenEdits

/-!
# What creating terminals' tabs does

A created tab brings one pane, bound only when it adopts a live terminal.  A workspace's
default tabs are created one after the other.
-/

namespace OxeeUI.Layout

open OxeeUI.Library SplitTree

variable {ambient : Ambient} {ownerIsMain : Bool} {model : WorkspaceLayoutModel} {key : String}
variable {workspace : WorkspaceLayout} {context : LayoutContext} {ids : NewIds}

/-! ## Adoption -/

theorem mem_paneIds_of_heldPane {adoption : LiveTerminalAdoption} {tab : LayoutTerminalTab}
    {leafId : String} (found : heldPaneOfTerminal workspace adoption = some (tab, leafId)) :
    leafId ∈ workspace.paneIds := by
  unfold heldPaneOfTerminal at found
  split at found
  · next held bound =>
    cases found
    obtain ⟨entry, member, located⟩ := List.exists_of_findSome?_eq_some bound
    cases entry with
    | content other => cases located
    | terminal other =>
      simp only [heldPaneInTab] at located
      split at located
      · cases located
      · next inside =>
        simp only [Option.ite_none_left_eq_some, Option.some.injEq, Prod.mk.injEq] at located
        obtain ⟨_, rfl, rfl⟩ := located
        exact mem_paneIds_of_mem member (List.mem_of_find?_eq_some inside)
  · obtain ⟨recorded, _⟩ := Option.filter_eq_some_iff.mp found
    obtain ⟨paneKey, _, located⟩ := Option.bind_eq_some_iff.mp recorded
    exact mem_paneIds_of_locatePane located

theorem ptyId_of_heldPane {adoption : LiveTerminalAdoption} {tab : LayoutTerminalTab}
    {leafId : String} (found : heldPaneOfTerminal workspace adoption = some (tab, leafId)) :
    (workspace.bindingAt leafId).ptyId = some adoption.ptyId ∨
      ∀ ptyId, (workspace.bindingAt leafId).ptyId = some ptyId → ptyId = "" := by
  unfold heldPaneOfTerminal at found
  split at found
  · next held bound =>
    cases found
    obtain ⟨entry, member, located⟩ := List.exists_of_findSome?_eq_some bound
    cases entry with
    | content other => cases located
    | terminal other =>
      simp only [heldPaneInTab] at located
      split at located
      · cases located
      · next inside =>
        simp only [Option.ite_none_left_eq_some, Option.some.injEq, Prod.mk.injEq] at located
        obtain ⟨_, rfl, rfl⟩ := located
        have bound := List.find?_some inside
        exact Or.inl (of_decide_eq_true bound)
  · refine Or.inr fun ptyId bound => ?_
    obtain ⟨_, unbound⟩ := Option.filter_eq_some_iff.mp found
    rw [show (leafOrEmpty workspace leafId).ptyId = some ptyId from bound] at unbound
    simpa using unbound

theorem adoptedLeaf_ne_empty (leaf : LayoutLeaf) (adoption : LiveTerminalAdoption) :
    adoptedLeaf leaf adoption ≠ .empty := fun same => by
  have bound : some adoption.ptyId = none := congrArg LayoutLeaf.ptyId same
  cases bound

theorem keepsTerminals_adopt {adoption : LiveTerminalAdoption} {tab : LayoutTerminalTab}
    {leafId : String} (found : heldPaneOfTerminal workspace adoption = some (tab, leafId)) :
    KeepsTerminals [] workspace
      (setLeaf workspace leafId (adoptedLeaf (leafOrEmpty workspace leafId) adoption)) := by
  intro holes rules other member ptyId proper bound
  refine Or.inr ⟨member, ?_⟩
  rw [bindingAt_setLeaf]
  by_cases same : other = leafId
  · rw [if_pos same]
    rw [same] at bound
    rcases ptyId_of_heldPane found with held | unbound
    · exact held.symm.trans bound
    · exact absurd (unbound ptyId bound) proper
  · rw [if_neg same]
    exact bound

variable (ids) in
theorem ensures_appliedHeldAdoption {adoption : LiveTerminalAdoption} {outcome : Applied}
    (held : appliedHeldAdoption model key adoption = some outcome) :
    Ensures outcome fun result => KeepsRules ids model result.model ∧
      ModelKeepsTerminals [] model result.model ∧ result.effects.stopPtyIds = [] := by
  unfold appliedHeldAdoption at held
  split at held
  case h_1 => cases held
  case h_2 workspace stored =>
    split at held
    case h_1 => cases held
    case h_2 tab leafId found =>
      obtain rfl := workspaceOrEmpty_of_some stored
      simp only at held
      split at held
      · cases held
        exact .applied ⟨.of_same rfl, .of_same rfl, rfl⟩
      · cases held
        refine .applied ⟨.of_set rfl (.weaken ?_), .of_set rfl (keepsTerminals_adopt found), rfl⟩
        exact .of_setLeaf (mem_paneIds_of_heldPane found)
          fun _ rules => rules.panes.exclusive_leafOrEmpty leafId

/-! ## Creating -/

def CreateTerminalTab.newTabId (command : CreateTerminalTab) (context : LayoutContext) : String :=
  command.tabId.getD (context.mintId .tab)

def CreateTerminalTab.newLeafId (command : CreateTerminalTab) (context : LayoutContext) : String :=
  command.leafId.getD context.mintLeafId

def CreateTerminalTab.newIds (command : CreateTerminalTab) (context : LayoutContext) : NewIds :=
  ⟨[command.newTabId context], [command.newLeafId context], []⟩

theorem createTerminalTab_plain {command : CreateTerminalTab} {result : LayoutApplied}
    (initial : command.initial = none) (adopt : command.adopt = none)
    (created : createTerminalTab ownerIsMain model key command context = .ok result) :
    ∃ next tab, result.model = withWorkspace model key next ∧
      PlacedTab (.terminal tab) (workspaceOrEmpty model key) next ∧
      tab.id = command.newTabId context ∧ leafIdsOf tab = [command.newLeafId context] := by
  unfold createTerminalTab at created
  rw [initial, adopt] at created
  cases created
  exact ⟨_, _, rfl, placedTab_placeNewTab, rfl, rfl⟩

section Created

variable {tab : LayoutTerminalTab} {placed : WorkspaceLayout} {tabId leafId : String}
variable (isPlaced : PlacedTab (.terminal tab) workspace placed)
include isPlaced

theorem createdTab_edit (named : tab.id = tabId) (panes : leafIdsOf tab = [leafId]) :
    CommandEdit ⟨[tabId], [leafId], []⟩ [] workspace placed := by
  refine .of_placedTab isPlaced (congrArg (fun id => [id]) named.symm) panes.symm ?_
  show (leafIdsOf tab).Nodup
  rw [panes]
  exact List.nodup_singleton leafId

/-- The pane of a created tab, bound to the terminal it adopts. -/
def withAdopted (placed : WorkspaceLayout) (leafId : String) (adoption : LiveTerminalAdoption) :
    WorkspaceLayout :=
  { placed with leaves := placed.leaves.set leafId (adoptedLeaf .empty adoption) }

omit isPlaced in
theorem withAdopted_eq (adoption : LiveTerminalAdoption) :
    withAdopted placed leafId adoption = setLeaf placed leafId (adoptedLeaf .empty adoption) := by
  unfold withAdopted setLeaf
  simp only [if_neg (adoptedLeaf_ne_empty .empty adoption)]

theorem adoptedTab_layout {adoption : LiveTerminalAdoption} (named : tab.id = tabId)
    (panes : leafIdsOf tab = [leafId]) :
    LayoutEdit ⟨[tabId], [leafId], []⟩ workspace (withAdopted placed leafId adoption) := by
  rw [withAdopted_eq]
  refine (createdTab_edit isPlaced named panes).layout.trans (.of_setLeaf ?_ fun _ _ => Or.inl rfl)
  rw [isPlaced.paneIds]
  refine List.mem_append_right _ ?_
  show leafId ∈ leafIdsOf tab
  rw [panes]
  exact List.mem_singleton_self leafId

theorem keepsTerminals_adoptedTab {adoption : LiveTerminalAdoption}
    (fresh : leafId ∉ workspace.paneIds) :
    KeepsTerminals [] workspace (withAdopted placed leafId adoption) := by
  intro holes rules other member ptyId proper bound
  have different : other ≠ leafId := fun same => fresh (same ▸ member)
  rw [withAdopted_eq]
  refine Or.inr ⟨isPlaced.paneIds ▸ List.mem_append_left _ member, ?_⟩
  rw [bindingAt_setLeaf, if_neg different, bindingAt_of_leaves isPlaced.leaves]
  exact bound

end Created

theorem ensures_createTerminalTab {command : CreateTerminalTab} :
    Ensures (createTerminalTab ownerIsMain model key command context) fun result =>
      KeepsRules (command.newIds context) model result.model ∧
      result.effects.stopPtyIds = [] ∧
      (command.adopt = none → Accounted (command.newIds context) model result) ∧
      (command.newLeafId context ∉ (workspaceOrEmpty model key).paneIds →
        ModelKeepsTerminals [] model result.model) := by
  unfold createTerminalTab
  split
  case isTrue => exact .applied ⟨.of_same rfl, rfl, fun _ => .of_same rfl rfl, fun _ => .of_same rfl⟩
  case isFalse =>
    split
    case h_1 outcome held =>
      obtain ⟨adoption, adopts, applied⟩ := Option.bind_eq_some_iff.mp held
      intro result done
      have kept := ensures_appliedHeldAdoption (command.newIds context) applied result done
      refine ⟨kept.1, kept.2.2, fun none => ?_, fun _ => kept.2.1⟩
      rw [adopts] at none
      cases none
    case h_2 =>
      simp only
      split
      case h_1 adoption adopts =>
        refine .applied ⟨.of_set rfl ?_, rfl, fun none => ?_, fun fresh => .of_set rfl ?_⟩
        · exact adoptedTab_layout placedTab_placeNewTab rfl rfl
        · cases adopts.symm.trans none
        · exact keepsTerminals_adoptedTab placedTab_placeNewTab fresh
      case h_2 none =>
        intro result done
        have accounted : Accounted
            ⟨[command.newTabId context], [command.newLeafId context], []⟩ model result := by
          refine ensures_edit rfl (?_ : CommandEdit _ [] _ _) result done
          exact createdTab_edit placedTab_placeNewTab rfl rfl
        have stops : result.effects.stopPtyIds = [] := by
          cases done
          rfl
        have kept := accounted.terminals.kept
        rw [stops] at kept
        exact ⟨accounted.layout, stops, fun _ => accounted, fun _ => kept⟩

/-! ## Default tabs -/

structure DefaultIdsDistinct (templates : List DefaultTerminalTab) : Prop where
  tabs : (templates.map DefaultTerminalTab.tabId).Nodup
  leaves : (templates.map DefaultTerminalTab.leafId).Nodup

def defaultIds (templates : List DefaultTerminalTab) : NewIds :=
  ⟨templates.map DefaultTerminalTab.tabId, templates.map DefaultTerminalTab.leafId, []⟩

theorem DefaultIdsDistinct.of_cons {template : DefaultTerminalTab}
    {rest : List DefaultTerminalTab} (distinct : DefaultIdsDistinct (template :: rest)) :
    DefaultIdsDistinct rest :=
  ⟨(List.nodup_cons.mp distinct.tabs).2, (List.nodup_cons.mp distinct.leaves).2⟩

/-- One default tab: a tab is placed, and the ids to come are still new. -/
theorem createDefaultTab_step {template : DefaultTerminalTab} {tabs created : DefaultTabs}
    (ran : createDefaultTab ambient key context tabs template = .ok created) :
    KeepsRules ⟨[template.tabId], [template.leafId], []⟩ tabs.model created.model ∧
    PanesStay tabs.model created.model ∧
    ∀ rest, (defaultIds (template :: rest)).FreshInModel tabs.model →
      DefaultIdsDistinct (template :: rest) → (defaultIds rest).FreshInModel created.model := by
  unfold createDefaultTab at ran
  cases made : createTerminalTab ambient.ownerIsMain tabs.model key template.create context with
  | error code =>
    rw [made] at ran
    cases ran
  | ok result =>
    rw [made] at ran
    cases ran
    obtain ⟨next, tab, written, placed, named, panes⟩ := createTerminalTab_plain rfl rfl made
    have edit : CommandEdit ⟨[template.tabId], [template.leafId], []⟩ []
        (workspaceOrEmpty tabs.model key) next := createdTab_edit placed named panes
    have set := congrArg WorkspaceLayoutModel.workspaces written
    refine ⟨.of_set set edit.layout, .of_set set placed.leaves ?_, ?_⟩
    · exact fun leafId member => placed.paneIds ▸ List.mem_append_left _ member
    · intro rest fresh distinct other
      have tabIds := (List.nodup_cons.mp distinct.tabs).1
      have leaves := (List.nodup_cons.mp distinct.leaves).1
      rw [workspaceOrEmpty_of_set set]
      by_cases same : other = key
      · rw [if_pos same]
        refine ⟨fun id new held => ?_, fun id new held => ?_, by simp [defaultIds]⟩
        · rcases edit.layout.tabIds id held with made | old
          · exact tabIds (List.mem_singleton.mp made ▸ new)
          · exact (fresh key).tabs id (List.mem_cons_of_mem _ new) old
        · rcases edit.layout.paneIds id held with made | old
          · exact leaves (List.mem_singleton.mp made ▸ new)
          · exact (fresh key).leaves id (List.mem_cons_of_mem _ new) old
      · rw [if_neg same]
        refine ⟨fun id new => ?_, fun id new => ?_, by simp [defaultIds]⟩
        · exact (fresh other).tabs id (List.mem_cons_of_mem _ new)
        · exact (fresh other).leaves id (List.mem_cons_of_mem _ new)

theorem createDefaultTabs_run {templates : List DefaultTerminalTab} {tabs created : DefaultTabs}
    (ran : templates.foldlM (createDefaultTab ambient key context) tabs = .ok created) :
    PanesStay tabs.model created.model ∧
    (DefaultIdsDistinct templates → KeepsRules (defaultIds templates) tabs.model created.model) := by
  induction templates generalizing tabs with
  | nil =>
    cases ran
    exact ⟨.refl _, fun _ => .of_same rfl⟩
  | cons template rest ih =>
    rw [List.foldlM_cons] at ran
    cases first : createDefaultTab ambient key context tabs template with
    | error code =>
      rw [first] at ran
      cases ran
    | ok middle =>
      rw [first] at ran
      obtain ⟨keeps, stay, fresh'⟩ := createDefaultTab_step first
      obtain ⟨later, keeps'⟩ := ih ran
      refine ⟨stay.trans later, fun distinct holes rules fresh => ?_⟩
      refine keeps' distinct.of_cons holes (keeps holes rules fun key => ?_)
        (fresh' rest fresh distinct)
      refine ⟨fun id new => ?_, fun id new => ?_, by simp⟩
      · exact (fresh key).tabs id (List.mem_singleton.mp new ▸ List.mem_cons_self)
      · exact (fresh key).leaves id (List.mem_singleton.mp new ▸ List.mem_cons_self)

theorem workspaces_setDefaultTabsApplied {result : LayoutApplied}
    (marked : setDefaultTabsApplied model key = .ok result) :
    result.model.workspaces = model.workspaces ∧ result.effects = {} := by
  unfold setDefaultTabsApplied at marked
  simp only at marked
  split at marked
  · cases marked
    exact ⟨rfl, rfl⟩
  · cases marked
    exact ⟨rfl, rfl⟩

theorem ensures_setDefaultTabsApplied :
    Ensures (setDefaultTabsApplied model key) (Accounted ids model) := by
  intro result marked
  obtain ⟨same, none⟩ := workspaces_setDefaultTabsApplied marked
  exact .of_same same (congrArg LayoutEffects.stopPtyIds none)

theorem ensures_applyDefaultTabs {templates : List DefaultTerminalTab} :
    Ensures (applyDefaultTabs ambient model key templates context) fun result =>
      (DefaultIdsDistinct templates → KeepsRules (defaultIds templates) model result.model) ∧
      ModelTerminalEdit result.effects.stopPtyIds model result.model := by
  unfold applyDefaultTabs
  split
  case isTrue => exact .applied ⟨fun _ => .of_same rfl, .of_same rfl⟩
  case isFalse =>
    split
    case h_1 => exact .refuse _
    case h_2 tabs ran =>
      split
      case h_1 => exact .refuse _
      case h_2 marked done =>
        obtain ⟨stay, keeps⟩ := createDefaultTabs_run ran
        have same := (workspaces_setDefaultTabsApplied done).1
        refine .applied ⟨fun distinct holes rules fresh => ?_, ?_⟩
        · exact (keeps distinct holes rules fresh).congr same
        · have marking : PanesStay tabs.model marked.model := by
            refine ⟨fun key leafId => ?_, fun key leafId member => ?_⟩
            · unfold WorkspaceLayoutModel.bindingAt
              rw [workspaceOrEmpty_congr same]
            · rwa [workspaceOrEmpty_congr same]
          exact (stay.trans marking).terminals

end OxeeUI.Layout
