import OxeeUI.Layout.CreateEdits
import OxeeUI.Layout.EditorMoveEdits
import OxeeUI.Layout.PaneDepartures

/-!
# What every command does

Whatever a command is, what it applies keeps the rules while the ids it gives are new,
binds no pane to a terminal it did not show, and stops just the terminals it takes off
their panes.
-/

namespace OxeeUI.Layout

open OxeeUI.Library SplitTree

variable {ambient : Ambient} {model : WorkspaceLayoutModel} {key : String}
variable {workspace : WorkspaceLayout} {context : LayoutContext} {command : LayoutCommand}
variable {post : LayoutApplied → Prop}

namespace LayoutCommand

/-- The ids a command gives that the code does not check to be unused. -/
def newIds (ownerIsMain : Bool) (context : LayoutContext) : LayoutCommand → NewIds
  | .createTerminalTab command => command.newIds context
  | .splitPane command => ⟨[], [command.newLeafId.getD context.mintLeafId], []⟩
  | .splitGroup _ => ⟨[], [], [context.mintId .group]⟩
  | .movePaneToNewTab command => ⟨[command.newTabId context], [], []⟩
  | .openEditorTab command => ⟨mintedTabIds command.tabId context, [], []⟩
  | .openSimulatorTab command => ⟨command.newTabIds, [], []⟩
  | .openBrowserTab command => ⟨command.newTabIds context, [], []⟩
  | .openAgentSessionTab command => ⟨command.newTabIds ownerIsMain context, [], []⟩
  | .applyDefaultTabs templates => defaultIds templates
  | _ => .none

/-- The default tabs of one command name each id once. -/
def NamesIdsOnce : LayoutCommand → Prop
  | .applyDefaultTabs templates => DefaultIdsDistinct templates
  | _ => True

structure FreshIn (command : LayoutCommand) (ownerIsMain : Bool) (context : LayoutContext)
    (model : WorkspaceLayoutModel) : Prop where
  unused : (command.newIds ownerIsMain context).FreshInModel model
  once : command.NamesIdsOnce

/-- The commands that need no workspace to be there. -/
def needsNoWorkspace : LayoutCommand → Bool
  | .createTerminalTab _ | .openEditorTab _ | .openSimulatorTab _ | .openBrowserTab _
  | .openAgentSessionTab _ | .setDefaultTabsApplied | .applyDefaultTabs _ => true
  | _ => false

end LayoutCommand

/-! ## Commands on a workspace -/

theorem ensures_applyToMissing {ids : NewIds} :
    Ensures (applyToMissing model command) (Accounted ids model) := by
  cases command with
  | closeTabs command => exact ensures_same rfl
  | closePane command => exact ensures_same rfl
  | _ => exact .refuse _

theorem ensures_applyCommand (plain : command.needsNoWorkspace = false)
    (missing : Ensures (applyToMissing model command) post)
    (stored : ∀ workspace, model.workspaces.get? key = some workspace →
      Ensures (applyToWorkspace ambient model key workspace command context) post) :
    Ensures (applyCommand ambient model key command context) post := by
  have unfolded : applyCommand ambient model key command context =
      (model.workspaces.get? key).elim (applyToMissing model command) fun workspace =>
        applyToWorkspace ambient model key workspace command context := by
    cases command <;> first
      | (unfold applyCommand
         cases model.workspaces.get? key <;> rfl)
      | cases plain
  rw [unfolded]
  cases found : model.workspaces.get? key with
  | none => exact missing
  | some workspace => exact stored workspace found

/-! ## What a command does to the terminals -/

namespace LayoutCommand

/-- The command shows no terminal in a pane that did not show it. -/
def bindsNothing : LayoutCommand → Bool
  | .createTerminalTab command => command.adopt.isNone
  | .movePaneToNewTab command => command.windowDetach.isNone
  | _ => true

/-- The command takes terminals off their panes only to stop them. -/
def accountsForTerminals : LayoutCommand → Bool
  | .releasePaneTerminal _ | .sleep _ => false
  | .movePaneToNewTab command => command.windowDetach.isNone
  | _ => true

end LayoutCommand

/-- Every terminal stays with its pane or is stopped, and what is stopped leaves its pane. -/
structure AccountsFor (model : WorkspaceLayoutModel) (result : LayoutApplied) : Prop where
  kept : ModelKeepsTerminals result.effects.stopPtyIds model result.model
  stopped : ∀ ptyId ∈ result.effects.stopPtyIds, ∃ key leafId,
    (model.bindingAt key leafId).ptyId = some ptyId ∧
      (result.model.bindingAt key leafId).ptyId = none
  rebound : ∀ ptyId ∈ result.effects.stopPtyIds, ∀ key leafId,
    (result.model.bindingAt key leafId).ptyId = some ptyId →
      (model.bindingAt key leafId).ptyId = some ptyId

structure CommandEffects (ids : NewIds) (command : LayoutCommand) (model : WorkspaceLayoutModel)
    (result : LayoutApplied) : Prop where
  rules : command.NamesIdsOnce → KeepsRules ids model result.model
  binds : command.bindsNothing = true → ModelBindsNothingNew model result.model
  terminals : command.accountsForTerminals = true → ids.FreshInModel model →
    AccountsFor model result

section Effects

variable {ids : NewIds} {outcome : Applied}

theorem AccountsFor.of_edit {result : LayoutApplied}
    (edit : ModelTerminalEdit result.effects.stopPtyIds model result.model) :
    AccountsFor model result := by
  refine ⟨edit.kept, edit.stopped, ?_⟩
  intro ptyId _ key leafId bound
  have same := edit.binds key leafId ptyId bound
  exact (congrArg Binding.ptyId same).trans bound

theorem AccountsFor.of_none {result : LayoutApplied} (none : result.effects.stopPtyIds = [])
    (kept : ModelKeepsTerminals [] model result.model) : AccountsFor model result := by
  refine ⟨none ▸ kept, ?_, ?_⟩
  · rw [none]
    simp
  · rw [none]
    simp

theorem Accounted.effects {result : LayoutApplied} (accounted : Accounted ids model result) :
    CommandEffects ids command model result where
  rules := fun _ => accounted.layout
  binds := fun _ => accounted.terminals.binds
  terminals := fun _ _ => .of_edit accounted.terminals

theorem effects_of_released {result : LayoutApplied}
    (released : KeepsRules ids model result.model ∧ ModelBindsNothingNew model result.model)
    (loses : command.accountsForTerminals = false) : CommandEffects ids command model result where
  rules := fun _ => released.1
  binds := fun _ => released.2
  terminals := by
    intro accounts
    rw [loses] at accounts
    cases accounts

end Effects

theorem effects_applyToWorkspace (stored : model.workspaces.get? key = some workspace) :
    Ensures (applyToWorkspace ambient model key workspace command context)
      (CommandEffects (command.newIds ambient.ownerIsMain context) command model) := by
  have found := workspaceOrEmpty_of_some stored
  cases command with
  | splitPane command => exact (ensures_splitPane found).mono fun _ => Accounted.effects
  | closePane command => exact (ensures_closePane found).mono fun _ => Accounted.effects
  | closeTabs command => exact (ensures_closeTabs found).mono fun _ => Accounted.effects
  | moveTab command => exact (ensures_moveTab found).mono fun _ => Accounted.effects
  | splitGroup command => exact (ensures_splitGroup found).mono fun _ => Accounted.effects
  | setGroupRatios command => exact (ensures_setGroupRatios found).mono fun _ => Accounted.effects
  | setPaneRatios command => exact (ensures_setPaneRatios found).mono fun _ => Accounted.effects
  | movePane command => exact (ensures_movePane found).mono fun _ => Accounted.effects
  | equalizePanes tabId => exact (ensures_equalizePanes found).mono fun _ => Accounted.effects
  | movePaneToNewTab command =>
    refine (ensures_movePaneToNewTab found).mono fun result moved => ?_
    refine ⟨fun _ => moved.1, fun attached => ?_, fun attached _ => ?_⟩
    · exact (moved.2 (Option.isNone_iff_eq_none.mp attached)).terminals.binds
    · exact .of_edit (moved.2 (Option.isNone_iff_eq_none.mp attached)).terminals
  | renameTab tabId title => exact (ensures_renameTab found).mono fun _ => Accounted.effects
  | renamePane command => exact (ensures_renamePane found).mono fun _ => Accounted.effects
  | setPaneGrid command => exact (ensures_setPaneGrid found).mono fun _ => Accounted.effects
  | releasePaneTerminal command =>
    exact (ensures_releasePaneTerminal found).mono fun _ released =>
      effects_of_released released rfl
  | setTabProps command => exact (ensures_setTabProps found).mono fun _ => Accounted.effects
  | setChatPane command => exact (ensures_setChatPane found).mono fun _ => Accounted.effects
  | promotePreviewTab tabId => exact (ensures_promotePreviewTab found).mono fun _ => Accounted.effects
  | moveTabToWorkspace command =>
    exact (ensures_moveTabToWorkspace stored).mono fun _ => Accounted.effects
  | renameEditorFiles command =>
    exact (ensures_renameEditorFiles command).mono fun _ => Accounted.effects
  | openBrowserPage command =>
    unfold applyToWorkspace openBrowserPage withPageIds
    exact (ensures_withRecord found).mono fun _ => Accounted.effects
  | closeBrowserPage command =>
    unfold applyToWorkspace closeBrowserPage withPageIds
    exact (ensures_withRecord found).mono fun _ => Accounted.effects
  | replaceBrowserPage command =>
    unfold applyToWorkspace replaceBrowserPage withPageIds
    exact (ensures_withRecord found).mono fun _ => Accounted.effects
  | setBrowserTabProfile command =>
    unfold applyToWorkspace setBrowserTabProfile
    exact (ensures_withRecord found).mono fun _ => Accounted.effects
  | startPane paneKey => exact (ensures_startPane found).mono fun _ => Accounted.effects
  | restartPane paneKey => exact (ensures_restartPane found).mono fun _ => Accounted.effects
  | sleep command =>
    exact (ensures_sleep found).mono fun _ released => effects_of_released released rfl
  | wake command => exact (ensures_wake found).mono fun _ => Accounted.effects
  | _ => exact .refuse _

/-! ## Commands that create the workspace -/

section Creating

variable {opening : NewGroupOpen} {openTab : WorkspaceLayoutModel → Applied}

theorem kept_openInNewGroup {leafIds : List String}
    (opens : ∀ next, Ensures (openTab next) fun result =>
      result.effects.stopPtyIds = [] ∧
        (NewIds.FreshInModel ⟨[], leafIds, []⟩ next → ModelKeepsTerminals [] next result.model)) :
    Ensures (openInNewGroup model key opening openTab) fun result =>
      result.effects.stopPtyIds = [] ∧
        (NewIds.FreshInModel ⟨[], leafIds, []⟩ model →
          ModelKeepsTerminals [] model result.model) := by
  intro result opened
  rcases of_openInNewGroup opened with direct | ⟨groupId, next, added, inner, ran, outcome⟩
  · exact opens model result direct
  · rcases outcome with ⟨rfl, _⟩ | ⟨same, none⟩
    · obtain ⟨none, kept⟩ := opens _ _ ran
      refine ⟨none, fun fresh => ?_⟩
      exact added.terminals.kept.trans (fun _ rules => ⟨_, added.rules rules⟩)
        (kept (added.fresh fresh))
    · exact ⟨none, fun _ => .of_same (congrArg WorkspaceLayoutModel.workspaces same)⟩

theorem effects_openInNewGroup {tabs : List String}
    (opens : ∀ next, Ensures (openTab next) (Accounted ⟨tabs, [], []⟩ next)) :
    Ensures (openInNewGroup model key opening openTab)
      (CommandEffects ⟨tabs, [], []⟩ command model) := by
  intro result opened
  have rules := keepsRules_openInNewGroup
    (fun next => (opens next).mono fun _ accounted => accounted.layout) result opened
  have terminals := terminals_openInNewGroup
    (fun next => (opens next).mono fun _ accounted => accounted.terminals) result opened
  exact ⟨fun _ => rules, fun _ => terminals.binds, fun _ _ => .of_edit terminals⟩

theorem effects_createTerminalTab {creation : CreateTerminalTab} :
    Ensures (applyCommand ambient model key (.createTerminalTab creation) context)
      (CommandEffects (creation.newIds context) (.createTerminalTab creation) model) := by
  intro result opened
  have rules := keepsRules_openInNewGroup
    (fun next => ensures_createTerminalTab.mono fun _ made => made.1) result opened
  have kept : result.effects.stopPtyIds = [] ∧
      (NewIds.FreshInModel ⟨[], [creation.newLeafId context], []⟩ model →
        ModelKeepsTerminals [] model result.model) :=
    kept_openInNewGroup (fun next => ensures_createTerminalTab.mono fun result made =>
      ⟨made.2.1, fun fresh => made.2.2.2 ((fresh key).leaves _ (List.mem_singleton_self _))⟩)
      result opened
  refine ⟨fun _ => rules, fun plain => ?_, fun _ fresh => .of_none kept.1 (kept.2 ?_)⟩
  · have adopts : creation.adopt = none := Option.isNone_iff_eq_none.mp plain
    have terminals := terminals_openInNewGroup
      (fun next => ensures_createTerminalTab.mono fun _ made => (made.2.2.1 adopts).terminals)
      result opened
    exact terminals.binds
  · intro other
    exact ⟨by simp, (fresh other).leaves, by simp⟩

end Creating

theorem effects_applyCommand :
    Ensures (applyCommand ambient model key command context)
      (CommandEffects (command.newIds ambient.ownerIsMain context) command model) := by
  have plain (other : command.needsNoWorkspace = false) :
      Ensures (applyCommand ambient model key command context)
        (CommandEffects (command.newIds ambient.ownerIsMain context) command model) :=
    ensures_applyCommand other (ensures_applyToMissing.mono fun _ => Accounted.effects)
      fun workspace => effects_applyToWorkspace
  cases command with
  | createTerminalTab creation => exact effects_createTerminalTab
  | openEditorTab opening => exact effects_openInNewGroup fun next => ensures_openEditorTab
  | openSimulatorTab opening => exact effects_openInNewGroup fun next => ensures_openSimulatorTab
  | openBrowserTab opening => exact effects_openInNewGroup fun next => ensures_openBrowserTab
  | openAgentSessionTab opening =>
    exact effects_openInNewGroup fun next => ensures_openAgentSessionTab
  | setDefaultTabsApplied =>
    exact ensures_setDefaultTabsApplied.mono fun _ => Accounted.effects
  | applyDefaultTabs templates =>
    refine ensures_applyDefaultTabs.mono fun result made => ?_
    exact ⟨made.1, fun _ => made.2.binds, fun _ _ => .of_edit made.2⟩
  | _ => exact plain rfl

/-! ## Applied commands -/

/-- What a command applied is what it did, with the records of the commit. -/
theorem effects_applyLayoutCommand :
    Ensures (applyLayoutCommand ambient model key command context)
      (CommandEffects (command.newIds ambient.ownerIsMain context) command model) := by
  intro result applied
  unfold applyLayoutCommand at applied
  cases done : applyCommand ambient model key command context with
  | error code =>
    rw [done] at applied
    cases applied
  | ok inner =>
    rw [done] at applied
    cases applied
    have effects := effects_applyCommand inner done
    have same := workspaces_committed ambient model inner.model context
    refine ⟨fun once holes rules fresh => ?_, fun plain other => ?_, fun accounts fresh => ?_⟩
    · exact (effects.rules once holes rules fresh).congr same
    · rw [workspaceOrEmpty_congr same]
      exact effects.binds plain other
    · have terminals := effects.terminals accounts fresh
      have bindings : ∀ other leafId, (committed ambient model inner.model context).bindingAt
          other leafId = inner.model.bindingAt other leafId := by
        intro other leafId
        unfold WorkspaceLayoutModel.bindingAt
        rw [workspaceOrEmpty_congr same]
      refine ⟨?_, ?_, ?_⟩
      · intro holes rules other leafId member ptyId proper bound
        dsimp only
        rw [workspaceOrEmpty_congr same, bindings]
        exact terminals.kept holes rules other leafId member ptyId proper bound
      · intro ptyId stop
        obtain ⟨other, leafId, bound, unbound⟩ := terminals.stopped ptyId stop
        exact ⟨other, leafId, bound, (congrArg Binding.ptyId (bindings other leafId)).trans unbound⟩
      · intro ptyId stop other leafId bound
        apply terminals.rebound ptyId stop other leafId
        rwa [← bindings]

/-! ## Terminals that stop -/

namespace WorkspaceLayoutModel

def Shows (model : WorkspaceLayoutModel) (ptyId : String) : Prop :=
  ∃ key, ∃ leafId ∈ (workspaceOrEmpty model key).paneIds,
    (model.bindingAt key leafId).ptyId = some ptyId

def BindsOnce (model : WorkspaceLayoutModel) : Prop :=
  ∀ key leafId key' leafId' ptyId, (model.bindingAt key leafId).ptyId = some ptyId →
    (model.bindingAt key' leafId').ptyId = some ptyId → key = key' ∧ leafId = leafId'

end WorkspaceLayoutModel

theorem mem_paneIds_of_bound {holes : String → List String}
    (rules : StructuralRulesUpTo holes model) {leafId ptyId : String}
    (bound : (model.bindingAt key leafId).ptyId = some ptyId) :
    leafId ∈ (workspaceOrEmpty model key).paneIds := by
  apply (rules.workspace key).panes.named
  by_contra absent
  have none := JsMap.get?_eq_none_iff.mpr absent
  unfold WorkspaceLayoutModel.bindingAt at bound
  rw [bindingAt_of_none none] at bound
  cases bound

/-- A command that accounts for terminals stops just those it leaves without a pane. -/
theorem stops_applyLayoutCommand {holes : String → List String} {result : LayoutApplied}
    (rules : StructuralRulesUpTo holes model) (once : model.BindsOnce)
    (fresh : command.FreshIn ambient.ownerIsMain context model)
    (accounts : command.accountsForTerminals = true)
    (applied : applyLayoutCommand ambient model key command context = .ok result)
    {ptyId : String} (proper : ptyId ≠ "") :
    ptyId ∈ result.effects.stopPtyIds ↔ model.Shows ptyId ∧ ¬result.model.Shows ptyId := by
  have effects := (effects_applyLayoutCommand result applied).terminals accounts fresh.unused
  constructor
  · intro stop
    obtain ⟨home, leafId, bound, unbound⟩ := effects.stopped ptyId stop
    refine ⟨⟨home, leafId, mem_paneIds_of_bound rules bound, bound⟩, ?_⟩
    rintro ⟨other, leafId', _, shown⟩
    obtain ⟨rfl, rfl⟩ := once home leafId other leafId' ptyId bound
      (effects.rebound ptyId stop other leafId' shown)
    rw [unbound] at shown
    cases shown
  · rintro ⟨⟨home, leafId, member, bound⟩, gone⟩
    refine (effects.kept holes rules home leafId member ptyId proper bound).resolve_right ?_
    rintro ⟨stays, still⟩
    exact gone ⟨home, leafId, stays, still⟩

/-! ## Two terminals side by side -/

def twoTerminalsTab : LayoutTerminalTab where
  id := "tab"
  entityId := "tab"
  createdAt := 0
  customTitle := none
  generatedTitle := none
  aiVaultTitle := .undefined
  quickCommandLabel := none
  color := none
  isPinned := none
  viewMode := none
  isPreview := none
  agentSessionAgent := none
  terminal := ⟨none, none, none, none, none⟩
  panes := ⟨some (.split ⟨.vertical, none⟩ (.leaf "a") (.leaf "b")), none⟩

def twoTerminalsWorkspace : WorkspaceLayout :=
  { WorkspaceLayout.empty "w" with
    tabs := [.terminal twoTerminalsTab]
    groups := [⟨"g", ["tab"]⟩]
    groupLayout := some (.leaf "g")
    leaves := (JsMap.empty.set "a" { LayoutLeaf.empty with ptyId := some "pty-a" }).set "b"
      { LayoutLeaf.empty with ptyId := some "pty-b" } }

def twoTerminalsModel : WorkspaceLayoutModel where
  hostId := "local"
  workspaces := JsMap.empty.set "w" twoTerminalsWorkspace
  records := ⟨none, none, none⟩
  legacy := ⟨.empty, none⟩

theorem twoTerminals_stored {home : String} {found : WorkspaceLayout}
    (stored : twoTerminalsModel.workspaces.get? home = some found) :
    home = "w" ∧ found = twoTerminalsWorkspace := by
  have entry := JsMap.get?_eq_some_iff.mp stored
  have one : twoTerminalsModel.workspaces.entries = [("w", twoTerminalsWorkspace)] := rfl
  rw [one, List.mem_singleton] at entry
  exact Prod.mk.inj entry

theorem twoTerminals_leaf {leafId : String} {leaf : LayoutLeaf}
    (held : twoTerminalsWorkspace.leaf? leafId = some leaf) :
    leaf = { LayoutLeaf.empty with ptyId := some ("pty-" ++ leafId) } := by
  have entry : (leafId, leaf) ∈ [("a", { LayoutLeaf.empty with ptyId := some "pty-a" }),
      ("b", { LayoutLeaf.empty with ptyId := some "pty-b" })] := JsMap.get?_eq_some_iff.mp held
  rcases List.mem_pair.mp entry with same | same <;> cases same <;> rfl

theorem twoTerminals_rules : StructuralRules twoTerminalsModel where
  groups := by
    intro home found stored
    obtain ⟨rfl, rfl⟩ := twoTerminals_stored stored
    exact ⟨by decide, List.Perm.refl _, by decide, List.Perm.refl _, by decide⟩
  panes := by
    intro home found stored
    obtain ⟨rfl, rfl⟩ := twoTerminals_stored stored
    refine ⟨by decide, by decide, ?_⟩
    intro leafId leaf held
    rw [twoTerminals_leaf held]
    exact .inl rfl
  tabIds := by decide
  leafIds := by decide

theorem twoTerminals_bound {home leafId ptyId : String}
    (bound : (twoTerminalsModel.bindingAt home leafId).ptyId = some ptyId) :
    home = "w" ∧ ptyId = "pty-" ++ leafId := by
  unfold WorkspaceLayoutModel.bindingAt workspaceOrEmpty at bound
  cases stored : twoTerminalsModel.workspaces.get? home with
  | none =>
    rw [stored] at bound
    cases bound
  | some found =>
    obtain ⟨rfl, rfl⟩ := twoTerminals_stored stored
    rw [stored] at bound
    refine ⟨rfl, ?_⟩
    unfold WorkspaceLayout.bindingAt leafOrEmpty at bound
    cases held : twoTerminalsWorkspace.leaf? leafId with
    | none =>
      simp only [Option.getD_some, held] at bound
      cases bound
    | some leaf =>
      simp only [Option.getD_some, held, twoTerminals_leaf held] at bound
      exact (Option.some.inj bound).symm

theorem twoTerminals_bindsOnce : twoTerminalsModel.BindsOnce := by
  intro home leafId home' leafId' ptyId bound bound'
  obtain ⟨rfl, rfl⟩ := twoTerminals_bound bound
  obtain ⟨rfl, same⟩ := twoTerminals_bound bound'
  exact ⟨rfl, String.append_right_inj _ |>.mp same⟩

/-- Closing one pane of two stops the terminal it showed. -/
theorem closed_pane_stops_its_terminal : ∃ result,
    applyLayoutCommand quietAmbient twoTerminalsModel "w" (.closePane ⟨"tab", "b", false⟩)
      quietContext = .ok result ∧ result.effects.stopPtyIds = ["pty-b"] ∧
    ("pty-b" ∈ result.effects.stopPtyIds ↔
      twoTerminalsModel.Shows "pty-b" ∧ ¬result.model.Shows "pty-b") := by
  have ran : ∃ result, applyLayoutCommand quietAmbient twoTerminalsModel "w"
      (.closePane ⟨"tab", "b", false⟩) quietContext = .ok result ∧
        result.effects.stopPtyIds = ["pty-b"] := ⟨_, rfl, rfl⟩
  obtain ⟨result, ran, stopped⟩ := ran
  refine ⟨result, ran, stopped, ?_⟩
  apply stops_applyLayoutCommand twoTerminals_rules twoTerminals_bindsOnce _ rfl ran (by decide)
  exact ⟨NewIds.freshInModel_none _, trivial⟩

end OxeeUI.Layout
