import OxeeUI.Layout.TransitionRules

/-!
# Runs of the layout

A model that keeps the rules passes the check, and every run of commands and transitions
keeps them.
-/

namespace OxeeUI.Layout

open OxeeUI.Library SplitTree

variable {ambient : Ambient} {model start finish : WorkspaceLayoutModel}
variable {workspace : WorkspaceLayout}

/-! ## What the check reads -/

theorem eraseDups_of_nodup {ids : List String} (distinct : ids.Nodup) : ids.eraseDups = ids := by
  induction ids with
  | nil => rfl
  | cons id ids ih =>
    obtain ⟨new, later⟩ := List.nodup_cons.mp distinct
    have others : ids.filter (fun other => !other == id) = ids := by
      apply List.filter_eq_self.mpr
      intro other member
      simpa using fun same : other = id => new (same ▸ member)
    rw [List.eraseDups_cons, others, ih later]

theorem treeMatches_of_holds
    (holds : TreeHoldsGroups workspace.groupLayout workspace.groupIds) :
    treeMatches workspace = true := by
  unfold treeMatches
  cases isTree : workspace.groupLayout with
  | none =>
    rw [isTree] at holds
    exact decide_eq_true holds
  | some tree =>
    rw [isTree] at holds
    obtain ⟨perm, distinct⟩ := holds
    have nothing : workspace.groupIds.removeAll tree.leaves = [] := by
      apply List.filter_eq_nil_iff.mpr
      intro id member
      simpa using perm.mem_iff.mpr member
    have union : (tree.leaves ++ workspace.groupIds).eraseDups = tree.leaves := by
      rw [List.eraseDups_append, nothing, eraseDups_of_nodup (perm.nodup_iff.mpr distinct)]
      exact List.append_nil _
    apply decide_eq_true
    rw [union]
    exact ⟨perm.length_eq, perm.length_eq⟩

theorem length_groupsOfTab (tabId : String) :
    (groupsOfTab workspace tabId).length =
      (workspace.groups.flatMap LayoutGroup.tabOrder).count tabId := by
  unfold groupsOfTab
  induction workspace.groups with
  | nil => rfl
  | cons group groups ih =>
    rw [List.flatMap_cons, List.flatMap_cons, List.length_append, List.count_append, ih,
      List.length_map, ← List.countP_eq_length_filter]
    rfl

theorem checkWorkspace_of_rules (rules : WorkspaceRules [] workspace) :
    checkWorkspace model workspace = [] := by
  obtain ⟨groups, panes⟩ := rules
  unfold checkWorkspace
  simp only [List.append_eq_nil_iff, List.flatMap_eq_nil_iff, List.map_eq_nil_iff]
  refine ⟨⟨⟨⟨?_, ?_⟩, ?_⟩, ?_⟩, ?_⟩
  · intro group member
    refine ⟨if_neg fun empty => ?_, ?_⟩
    · cases groups.filled group member empty
    · apply List.filter_eq_nil_iff.mpr
      intro tabId listed
      simpa using groups.mem_tabIds_iff.mpr ⟨group, member, listed⟩
  · intro tab member
    have once : (groupsOfTab workspace tab.id).length = 1 := by
      rw [length_groupsOfTab, groups.listed.count_eq]
      exact List.count_eq_one_of_mem groups.distinct (List.mem_map_of_mem member)
    have some : groupsOfTab workspace tab.id ≠ [] := by
      intro none
      rw [none] at once
      cases once
    rw [if_neg some, if_neg (by omega)]
  · exact if_pos (treeMatches_of_holds groups.tree)
  · apply if_pos
    apply List.filter_eq_nil_iff.mpr
    intro leafId member
    simpa using panes.named leafId member
  · apply if_pos
    apply List.filter_eq_nil_iff.mpr
    intro entry member
    have stored : workspace.leaf? entry.1 = some entry.2 := JsMap.get?_eq_some_iff.mpr member
    rcases panes.exclusive entry.1 entry.2 stored with none | none <;> simp [none]

theorem length_homesOfTab (tabId : String) :
    (homesOfTab model tabId).length =
      (model.workspaces.values.flatMap WorkspaceLayout.tabIds).count tabId := by
  unfold homesOfTab JsMap.values
  induction model.workspaces.entries with
  | nil => rfl
  | cons entry entries ih =>
    rw [List.map_cons, List.flatMap_cons, List.flatMap_cons, List.length_append,
      List.count_append, ih, List.length_map, ← List.countP_eq_length_filter]
    rfl

/-- The check finds nothing in a model that keeps the rules. -/
structure PassesCheck (model : WorkspaceLayoutModel) : Prop where
  workspaces : ∀ workspace ∈ model.workspaces.values, checkWorkspace model workspace = []
  tabIds : checkTabIds model = []

theorem StructuralRules.passesCheck (rules : StructuralRules model) : PassesCheck model where
  workspaces := by
    intro workspace member
    obtain ⟨key, stored⟩ := JsMap.mem_values_iff.mp member
    exact checkWorkspace_of_rules ⟨rules.groups key workspace stored, rules.panes key workspace stored⟩
  tabIds := by
    apply List.filterMap_eq_nil_iff.mpr
    intro tabId _
    have most := List.nodup_iff_count_le_one.mp rules.tabIds tabId
    rw [← length_homesOfTab] at most
    exact if_neg (Nat.not_lt.mpr most)

/-! ## Runs -/

/-- What reaches the layout: a client's command, or what the runtime did. -/
inductive LayoutInput where
  | command (key : String) (command : LayoutCommand) (context : LayoutContext)
  | transition (happened : LayoutTransition)

namespace LayoutInput

variable (ambient) in
def applyTo (model : WorkspaceLayoutModel) : LayoutInput → Applied
  | .command key issued context => applyLayoutCommand ambient model key issued context
  | .transition happened => applyLayoutTransition ambient model happened

/-- The ids a command supplies or mints are not used in the model. -/
def FreshIn (ownerIsMain : Bool) (model : WorkspaceLayoutModel) : LayoutInput → Prop
  | .command _ issued context => issued.FreshIn ownerIsMain context model
  | .transition _ => True

/-- The input shows no terminal again: a command adopts none and takes none from a window, and
a start of a relay id that repeats names its incarnation, or the pane kept none. -/
def NamesTerminals (model : WorkspaceLayoutModel) : LayoutInput → Prop
  | .command _ issued _ => issued.bindsNothing = true
  | .transition (.processStarted key paneKey ptyId incarnationId) =>
    isRepeatingRelayPtyId ptyId = true → incarnationId = none → ∀ tab leafId,
      locatePane (workspaceOrEmpty model key) paneKey = some (tab, leafId) →
        (model.bindingAt key leafId).incarnationId = none
  | .transition _ => True

end LayoutInput

def settled (model : WorkspaceLayoutModel) : Applied → WorkspaceLayoutModel
  | .ok result => result.model
  | .error _ => model

variable (ambient) in
def LayoutStep (before : WorkspaceLayoutModel) (input : LayoutInput)
    (after : WorkspaceLayoutModel) : Prop :=
  input.FreshIn ambient.ownerIsMain before ∧ after = settled before (input.applyTo ambient before)

theorem of_applyLayoutTransition {transition : LayoutTransition} {result : LayoutApplied}
    (applied : applyLayoutTransition ambient model transition = .ok result) :
    ∃ inner, applyTransition ambient model transition = .ok inner ∧
      result.model.workspaces = inner.model.workspaces := by
  have mapped : ∀ outcome : Applied,
      (outcome.map fun result =>
        { result with model := updateLegacyPersistence ambient model result.model }) = .ok result →
      ∃ inner, outcome = .ok inner ∧ result.model.workspaces = inner.model.workspaces := by
    intro outcome ran
    cases outcome with
    | error code => cases ran
    | ok inner =>
      cases ran
      exact ⟨inner, rfl, rfl⟩
  cases transition with
  | processExited surface exit => exact ⟨result, applied, rfl⟩
  | _ => exact mapped _ applied

/-- The transition binds its terminal as `NamesTerminals` asks. -/
theorem applyTransition_keeps {transition : LayoutTransition} {inner : LayoutApplied}
    (rules : StructuralRules model) (ran : applyTransition ambient model transition = .ok inner) :
    StructuralRules inner.model ∧
      (LayoutInput.NamesTerminals model (.transition transition) → model.ShowsOnce →
        inner.model.ShowsOnce) := by
  cases transition with
  | processStarted key paneKey ptyId incarnationId =>
    obtain ⟨kept, tab, leafId, located, starts⟩ := processStarted_rules rules ran
    refine ⟨kept, fun named once => once.of_starts rules starts ?_⟩
    intro repeats unnamed
    unfold LayoutInput.NamesTerminals at named
    exact named repeats unnamed tab leafId located
  | processExited surface exit =>
    obtain ⟨kept, binds⟩ := applyProcessExit_rules rules ran
    exact ⟨kept, fun _ once => once.of_binds binds⟩
  | sshLeaseTerminated ptyIds =>
    obtain ⟨kept, binds⟩ := sshLeaseTerminated_rules rules ran
    exact ⟨kept, fun _ once => once.of_binds binds⟩
  | ownerRemoved keys =>
    cases ran
    obtain ⟨kept, binds⟩ := removeWorkspaces_rules rules keys
    exact ⟨kept, fun _ once => once.of_binds binds⟩
  | identityRenamed source destination =>
    unfold applyTransition at ran
    cases renamed : renameWorkspace model source destination with
    | none =>
      simp only [renamed] at ran
      cases ran
    | some after =>
      simp only [renamed] at ran
      cases ran
      rcases of_renameWorkspace renamed with same | takes
      · rw [same]
        exact ⟨rules, fun _ once => once⟩
      · exact ⟨takes.rules rules, fun _ once => once.of_takesName takes⟩

theorem transition_keeps {transition : LayoutTransition} {result : LayoutApplied}
    (rules : StructuralRules model)
    (applied : applyLayoutTransition ambient model transition = .ok result) :
    StructuralRules result.model ∧
      (LayoutInput.NamesTerminals model (.transition transition) → model.ShowsOnce →
        result.model.ShowsOnce) := by
  obtain ⟨inner, ran, same⟩ := of_applyLayoutTransition applied
  obtain ⟨kept, shows⟩ := applyTransition_keeps rules ran
  exact ⟨kept.congr same, fun named once => (shows named once).of_binds (.of_same same)⟩

theorem LayoutStep.keeps {before after : WorkspaceLayoutModel} {input : LayoutInput}
    (step : LayoutStep ambient before input after) (rules : StructuralRules before) :
    StructuralRules after ∧ (input.NamesTerminals before → before.ShowsOnce → after.ShowsOnce) := by
  obtain ⟨fresh, rfl⟩ := step
  cases applied : input.applyTo ambient before with
  | error code => exact ⟨rules, fun _ once => once⟩
  | ok result =>
    cases input with
    | command key issued context =>
      have effects := effects_applyLayoutCommand result applied
      refine ⟨effects.rules fresh.once _ rules fresh.unused, fun named once => ?_⟩
      exact once.of_binds (effects.binds named)
    | transition transition => exact transition_keeps rules applied

/-- Commands that give new ids only and transitions, in any order and however many, keep the
rules that the check reads. -/
theorem rules_of_run {inputs : List LayoutInput} (rules : StructuralRules start)
    (run : Run (LayoutStep ambient) start inputs finish) :
    StructuralRules finish ∧ PassesCheck finish := by
  have kept : StructuralRules finish := run.preserves
    (fun _ _ _ rules step => (step.keeps rules).1) rules
  exact ⟨kept, kept.passesCheck⟩

/-- A pane is closed, its neighbour restarts, and the workspace goes. -/
def closingInputs : List LayoutInput :=
  [.command "w" (.closePane ⟨"tab", "b", false⟩) quietContext,
    .transition (.processStarted "w" "tab:a" "pty-c" none),
    .transition (.ownerRemoved ["w"])]

theorem rules_of_closing : ∃ finish,
    Run (LayoutStep quietAmbient) twoTerminalsModel closingInputs finish ∧
      StructuralRules finish ∧ PassesCheck finish := by
  have run : ∃ finish, Run (LayoutStep quietAmbient) twoTerminalsModel closingInputs finish := by
    refine ⟨_, .cons ⟨⟨NewIds.freshInModel_none _, trivial⟩, rfl⟩ (.cons ⟨trivial, rfl⟩
      (.cons ⟨trivial, rfl⟩ (.nil _)))⟩
  obtain ⟨finish, run⟩ := run
  exact ⟨finish, run, rules_of_run twoTerminals_rules run⟩

theorem WorkspaceLayoutModel.BindsOnce.showsOnce (once : model.BindsOnce) : model.ShowsOnce := by
  intro key leafId key' leafId' same
  obtain ⟨ptyId, bound, bound'⟩ := ptyId_eq_of_isSameTerminal same
  exact once key leafId key' leafId' ptyId bound bound'

end OxeeUI.Layout
