import OxeeUI.Layout.AppliedCommands

/-!
# What transitions do, and runs of both

The runtime's transitions keep the rules without a condition.  Commands and transitions in
any order keep them, and no terminal comes to show in two panes.
-/

namespace OxeeUI.Layout

open OxeeUI.Library SplitTree

variable {ambient : Ambient} {model before after : WorkspaceLayoutModel} {key : String}
variable {workspace : WorkspaceLayout} {result : LayoutApplied}

/-! ## Transitions by what they change -/

theorem StructuralRules.of_parts (rules : StructuralRules before)
    (workspaces : ∀ key, WorkspaceRules [] (workspaceOrEmpty after key))
    (tabIds : ∀ key, (workspaceOrEmpty after key).tabIds ⊆ (workspaceOrEmpty before key).tabIds)
    (paneIds : ∀ key, (workspaceOrEmpty after key).paneIds ⊆ (workspaceOrEmpty before key).paneIds) :
    StructuralRules after := by
  refine .of_workspaces workspaces ?_ ?_
  · intro first second id member member'
    exact rules.tab_home (tabIds first member) (tabIds second member')
  · intro first second id member member'
    exact rules.pane_home (paneIds first member) (paneIds second member')

section Leases

variable {ptyIds : List String}

structure Unleased (workspace current : WorkspaceLayout) : Prop where
  rules : ∀ holes, WorkspaceRules holes workspace → WorkspaceRules holes current
  tabs : current.tabs = workspace.tabs
  binds : BindsNothingNew workspace current

theorem unleased_unleaseWorkspace (holds : PanesHoldLeaves workspace) :
    Unleased workspace (unleaseWorkspace ptyIds workspace) := by
  have initially : Unleased workspace workspace := ⟨fun _ rules => rules, rfl, .refl workspace⟩
  refine foldl_preserves_of_mem initially ?_
  intro current entry member unleased
  dsimp only
  split
  · have stored : workspace.leaf? entry.1 = some entry.2 := JsMap.get?_eq_some_iff.mpr member
    have pane := holds.named entry.1 (JsMap.mem_keys_of_get? stored)
    have paneIds : current.paneIds = workspace.paneIds :=
      congrArg (List.flatMap LayoutTab.leafIds) unleased.tabs
    have exclusive := holds.exclusive entry.1 entry.2 stored
    refine ⟨fun holes rules => ?_, unleased.tabs, unleased.binds.trans (.of_unbind rfl)⟩
    have own := unleased.rules holes rules
    exact ⟨own.groups.congr rfl rfl rfl, own.panes.setLeaf (paneIds ▸ pane) exclusive⟩
  · exact unleased

theorem workspaceOrEmpty_sshLeaseTerminated (ptyIds : List String) (key : String) :
    workspaceOrEmpty { model with
      workspaces := model.workspaces.mapValues fun _ workspace =>
        unleaseWorkspace ptyIds workspace } key =
      unleaseWorkspace ptyIds (workspaceOrEmpty model key) := by
  unfold workspaceOrEmpty
  rw [JsMap.get?_mapValues]
  cases model.workspaces.get? key with
  | none => rfl
  | some workspace => rfl

theorem sshLeaseTerminated_rules (rules : StructuralRules model)
    (applied : sshLeaseTerminated model ptyIds = .ok result) :
    StructuralRules result.model ∧ ModelBindsNothingNew model result.model := by
  cases applied
  have unleased := fun other =>
    @unleased_unleaseWorkspace _ ptyIds (rules.workspace other).panes
  refine ⟨rules.of_parts ?_ ?_ ?_, ?_⟩
  · intro other
    rw [workspaceOrEmpty_sshLeaseTerminated]
    exact (unleased other).rules [] (rules.workspace other)
  · intro other
    rw [workspaceOrEmpty_sshLeaseTerminated]
    have same : _ = (workspaceOrEmpty model other).tabIds :=
      congrArg (List.map LayoutTab.id) (unleased other).tabs
    exact fun id member => same ▸ member
  · intro other
    rw [workspaceOrEmpty_sshLeaseTerminated]
    have same : _ = (workspaceOrEmpty model other).paneIds :=
      congrArg (List.flatMap LayoutTab.leafIds) (unleased other).tabs
    exact fun id member => same ▸ member
  · intro other
    rw [workspaceOrEmpty_sshLeaseTerminated]
    exact (unleased other).binds

end Leases

section Owners

theorem workspaceOrEmpty_removeWorkspaces (keys : List String) (key : String) :
    workspaceOrEmpty (removeWorkspaces model keys) key =
      if key ∈ keys then .empty key else workspaceOrEmpty model key := by
  unfold workspaceOrEmpty removeWorkspaces
  dsimp only
  rw [JsMap.get?_filter]
  by_cases removed : key ∈ keys
  · cases model.workspaces.get? key <;> simp [removed, Option.filter]
  · cases model.workspaces.get? key <;> simp [removed, Option.filter]

theorem removeWorkspaces_rules (rules : StructuralRules model) (keys : List String) :
    StructuralRules (removeWorkspaces model keys) ∧
      ModelBindsNothingNew model (removeWorkspaces model keys) := by
  refine ⟨rules.of_parts ?_ ?_ ?_, ?_⟩
  · intro other
    rw [workspaceOrEmpty_removeWorkspaces]
    split
    · exact workspaceRules_empty [] other
    · exact rules.workspace other
  · intro other
    rw [workspaceOrEmpty_removeWorkspaces]
    split
    · exact List.nil_subset _
    · exact List.Subset.refl _
  · intro other
    rw [workspaceOrEmpty_removeWorkspaces]
    split
    · exact List.nil_subset _
    · exact List.Subset.refl _
  · intro other
    rw [workspaceOrEmpty_removeWorkspaces]
    split
    · exact bindsNothingNew_of_leaves fun leafId => Or.inr rfl
    · exact .refl _

end Owners

section Rename

variable {source destination : String}

/-- A workspace takes another name, and no other one changes. -/
structure TakesName (source destination : String) (before after : WorkspaceLayoutModel) : Prop where
  moved : ∃ worktreeId, workspaceOrEmpty after destination =
    { workspaceOrEmpty before source with worktreeId }
  gone : workspaceOrEmpty after source = .empty source
  others : ∀ key, key ≠ source → key ≠ destination →
    workspaceOrEmpty after key = workspaceOrEmpty before key
  apart : source ≠ destination

theorem of_renameWorkspace (renamed : renameWorkspace model source destination = some after) :
    after = model ∨ TakesName source destination model after := by
  unfold renameWorkspace at renamed
  cases found : model.workspaces.get? source with
  | none =>
    rw [found] at renamed
    cases renamed
    exact Or.inl rfl
  | some workspace =>
    rw [found] at renamed
    dsimp only at renamed
    by_cases same : source = destination
    · rw [if_pos same] at renamed
      cases renamed
      exact Or.inl rfl
    · rw [if_neg same] at renamed
      split at renamed
      · cases renamed
      · cases renamed
        have stored := workspaceOrEmpty_of_some found
        refine Or.inr ⟨?_, ?_, ?_, same⟩
        · rw [stored]
          refine ⟨if workspace.worktreeId = source then destination else workspace.worktreeId, ?_⟩
          unfold workspaceOrEmpty
          simp [Ne.symm same]
        · unfold workspaceOrEmpty
          rw [JsMap.get?_delete, if_pos rfl, Option.getD_none]
        · intro key notSource notDestination
          unfold workspaceOrEmpty
          simp [notSource, notDestination]

def formerName (source destination key : String) : String :=
  if key = destination then source else key

theorem formerName_injective {first second : String} (notSource : first ≠ source)
    (notSource' : second ≠ source)
    (same : formerName source destination first = formerName source destination second) :
    first = second := by
  unfold formerName at same
  split at same <;> split at same
  · exact ‹first = destination›.trans ‹second = destination›.symm
  · exact absurd same.symm notSource'
  · exact absurd same notSource
  · exact same

namespace TakesName

variable (takes : TakesName source destination before after)
include takes

theorem former (key : String) : workspaceOrEmpty after key = .empty key ∨
    key ≠ source ∧ ∃ worktreeId, workspaceOrEmpty after key =
      { workspaceOrEmpty before (formerName source destination key) with worktreeId } := by
  unfold formerName
  by_cases here : key = source
  · rw [here]
    exact Or.inl takes.gone
  · refine Or.inr ⟨here, ?_⟩
    by_cases there : key = destination
    · rw [if_pos there, there]
      exact takes.moved
    · rw [if_neg there]
      exact ⟨_, takes.others key here there⟩

theorem home {names : WorkspaceLayout → List String}
    (reads : ∀ workspace worktreeId, names { workspace with worktreeId } = names workspace)
    (empty : ∀ key, names (.empty key) = [])
    (distinct : ∀ first second id, id ∈ names (workspaceOrEmpty before first) →
      id ∈ names (workspaceOrEmpty before second) → first = second)
    (first second id : String) (member : id ∈ names (workspaceOrEmpty after first))
    (member' : id ∈ names (workspaceOrEmpty after second)) : first = second := by
  rcases takes.former first with none | ⟨notSource, worktreeId, held⟩
  · rw [none, empty] at member
    cases member
  rcases takes.former second with none | ⟨notSource', worktreeId', held'⟩
  · rw [none, empty] at member'
    cases member'
  rw [held, reads] at member
  rw [held', reads] at member'
  exact formerName_injective notSource notSource' (distinct _ _ id member member')

theorem rules (rules : StructuralRules before) : StructuralRules after := by
  refine .of_workspaces ?_ ?_ ?_
  · intro key
    rcases takes.former key with none | ⟨_, worktreeId, held⟩
    · rw [none]
      exact workspaceRules_empty [] key
    · rw [held]
      have own := rules.workspace (formerName source destination key)
      exact ⟨own.groups.congr rfl rfl rfl, own.panes.congr (.refl _) rfl⟩
  · exact takes.home (fun _ _ => rfl) (fun _ => rfl) fun _ _ _ => rules.tab_home
  · exact takes.home (fun _ _ => rfl) (fun _ => rfl) fun _ _ _ => rules.pane_home

end TakesName

end Rename

section Processes

variable {paneKey ptyId : String} {incarnationId : Option String}

def startedBinding (workspace : WorkspaceLayout) (leafId ptyId : String)
    (incarnationId : Option String) : Binding :=
  ⟨some ptyId, incarnationId.or (leafOrEmpty workspace leafId).incarnationId⟩

/-- One pane is bound, to a terminal no other pane shows as the start names it. -/
structure Starts (ptyId : String) (incarnationId : Option String) (key leafId : String)
    (before after : WorkspaceLayoutModel) : Prop where
  pane : leafId ∈ (workspaceOrEmpty before key).paneIds
  unshown : boundElsewhere before leafId ⟨some ptyId, incarnationId⟩ = false
  bound : after.bindingAt key leafId =
    startedBinding (workspaceOrEmpty before key) leafId ptyId incarnationId
  others : ∀ other otherLeaf, ¬(other = key ∧ otherLeaf = leafId) →
    after.bindingAt other otherLeaf = before.bindingAt other otherLeaf

theorem processStarted_rules (rules : StructuralRules model)
    (applied : processStarted model key paneKey ptyId incarnationId = .ok result) :
    StructuralRules result.model ∧ ∃ tab leafId,
      locatePane (workspaceOrEmpty model key) paneKey = some (tab, leafId) ∧
      Starts ptyId incarnationId key leafId model result.model := by
  unfold processStarted at applied
  cases stored : model.workspaces.get? key with
  | none =>
    rw [stored] at applied
    cases applied
  | some workspace =>
    have found := workspaceOrEmpty_of_some stored
    rw [stored] at applied
    cases located : locatePane workspace paneKey with
    | none =>
      simp only [located] at applied
      cases applied
    | some pane =>
      obtain ⟨tab, leafId⟩ := pane
      simp only [located] at applied
      split at applied
      · cases applied
      · next unshown =>
        cases applied
        have held := mem_paneIds_of_locatePane located
        have edit : KeepsRules .none model (withWorkspace model key (setLeaf workspace leafId
            { leafOrEmpty workspace leafId with
              ptyId := some ptyId
              incarnationId := incarnationId.or
                (leafOrEmpty workspace leafId).incarnationId })) := by
          apply KeepsRules.of_set rfl
          rw [found]
          exact .of_setLeaf held fun _ own => own.panes.exclusive_leafOrEmpty leafId
        refine ⟨edit _ rules (NewIds.freshInModel_none model), tab, leafId, ?_, ?_⟩
        · rw [found]
          exact located
        · refine ⟨found ▸ held, Bool.eq_false_iff.mpr unshown, ?_, ?_⟩
          · unfold WorkspaceLayoutModel.bindingAt
            rw [workspaceOrEmpty_of_set rfl, if_pos rfl, bindingAt_setLeaf, if_pos rfl, found]
            rfl
          · intro other otherLeaf elsewhere
            unfold WorkspaceLayoutModel.bindingAt
            rw [workspaceOrEmpty_of_set rfl]
            by_cases here : other = key
            · rw [if_pos here, bindingAt_setLeaf, if_neg fun same => elsewhere ⟨here, same⟩,
                here, found]
            · rw [if_neg here]

theorem of_locateExitedSurface {surface : ExitedSurface} {location : TerminalTabLocation}
    (located : locateExitedSurface model surface = .found location) :
    model.workspaces.get? location.workspaceKey = some location.workspace ∧
      .terminal location.tab ∈ location.workspace.tabs ∧
      surface.leafId ∈ leafIdsOf location.tab := by
  unfold locateExitedSurface at located
  cases found : findTerminalTab model surface.terminalTabId with
  | none =>
    rw [found] at located
    cases located
  | some place =>
    simp only [found] at located
    split at located
    · cases located
    · next holds =>
      split at located
      · cases located
      · split at located
        · cases located
        · cases located
          obtain ⟨entry, member, within⟩ := List.exists_of_findSome?_eq_some found
          obtain ⟨tab, tabMember, terminal⟩ := List.exists_of_findSome?_eq_some within
          cases tab with
          | content tab => cases terminal
          | terminal tab =>
            simp only [LayoutTab.terminal?, Option.bind_some, Option.ite_none_right_eq_some,
              Option.some.injEq] at terminal
            obtain ⟨_, rfl⟩ := terminal
            refine ⟨JsMap.get?_eq_some_iff.mpr member, tabMember, ?_⟩
            have inside : layoutContainsLeafId tab.panes.root surface.leafId = true := by
              simpa using holds
            exact layoutContainsLeafId_iff.mp inside

theorem applyProcessExit_rules {surface : ExitedSurface} {facts : ProcessExitFacts}
    (rules : StructuralRules model)
    (applied : applyProcessExit ambient model surface facts = .ok result) :
    StructuralRules result.model ∧ ModelBindsNothingNew model result.model := by
  unfold applyProcessExit at applied
  cases located : locateExitedSurface model surface with
  | replaced =>
    rw [located] at applied
    cases applied
    exact ⟨rules, .of_same rfl⟩
  | gone =>
    simp only [located] at applied
    split at applied <;> cases applied
    · exact ⟨rules, .of_same rfl⟩
    · exact ⟨rules.congr rfl, .of_same rfl⟩
  | found location =>
    obtain ⟨stored, member, held⟩ := of_locateExitedSurface located
    have found := workspaceOrEmpty_of_some stored
    have pane := mem_paneIds_of_mem member held
    have fresh := NewIds.freshInModel_none model
    simp only [located] at applied
    split at applied <;> cases applied
    · exact ⟨rules, .of_same rfl⟩
    · refine ⟨(?_ : KeepsRules .none model _) _ rules fresh, .of_set rfl ?_⟩
      · apply KeepsRules.of_set rfl
        rw [found]
        exact unbind_layout pane
      · rw [found]
        exact .of_unbind rfl
    · refine ⟨(?_ : KeepsRules .none model _) _ rules fresh, .of_set rfl ?_⟩
      · apply KeepsRules.of_set rfl
        rw [found]
        exact retiredPane_layout member held
      · rw [found]
        exact (panesGone_retiredPane member held).binds

end Processes

/-! ## One terminal in two panes -/

def WorkspaceLayoutModel.ShowsOnce (model : WorkspaceLayoutModel) : Prop :=
  ∀ key leafId key' leafId', isSameTerminal (model.bindingAt key leafId)
    (model.bindingAt key' leafId') = true → key = key' ∧ leafId = leafId'

namespace WorkspaceLayoutModel.ShowsOnce

theorem of_moved {home : String → String} (once : before.ShowsOnce)
    (moved : ∀ key leafId ptyId, (after.bindingAt key leafId).ptyId = some ptyId →
      before.bindingAt (home key) leafId = after.bindingAt key leafId)
    (apart : ∀ key leafId key' leafId' ptyId, (after.bindingAt key leafId).ptyId = some ptyId →
      (after.bindingAt key' leafId').ptyId = some ptyId → home key = home key' → key = key') :
    after.ShowsOnce := by
  intro key leafId key' leafId' same
  obtain ⟨ptyId, bound, bound'⟩ := ptyId_eq_of_isSameTerminal same
  rw [← moved key leafId ptyId bound, ← moved key' leafId' ptyId bound'] at same
  obtain ⟨homes, leaves⟩ := once _ _ _ _ same
  exact ⟨apart key leafId key' leafId' ptyId bound bound' homes, leaves⟩

theorem of_binds (once : before.ShowsOnce)
    (binds : ModelBindsNothingNew before after) : after.ShowsOnce :=
  @of_moved before after id once binds fun _ _ _ _ _ _ _ same => same

theorem of_takesName {source destination : String} (once : before.ShowsOnce)
    (takes : TakesName source destination before after) : after.ShowsOnce := by
  have held : ∀ key leafId ptyId, (after.bindingAt key leafId).ptyId = some ptyId →
      key ≠ source ∧ before.bindingAt (formerName source destination key) leafId =
        after.bindingAt key leafId := by
    intro key leafId ptyId bound
    unfold WorkspaceLayoutModel.bindingAt at bound ⊢
    rcases takes.former key with none | ⟨notSource, worktreeId, was⟩
    · rw [none] at bound
      cases bound
    · refine ⟨notSource, ?_⟩
      rw [was]
      rfl
  refine once.of_moved (fun key leafId ptyId bound => (held key leafId ptyId bound).2) ?_
  intro key leafId key' leafId' ptyId bound bound' same
  exact formerName_injective (held key leafId ptyId bound).1 (held key' leafId' ptyId bound').1 same

/-- A start shows its terminal once more only where the pane kept an old incarnation, the
start names none, and the relay gives the id again. -/
theorem of_starts {ptyId leafId : String} {incarnationId : Option String}
    (once : before.ShowsOnce) (rules : StructuralRules before)
    (starts : Starts ptyId incarnationId key leafId before after)
    (named : isRepeatingRelayPtyId ptyId = true → incarnationId = none →
      (before.bindingAt key leafId).incarnationId = none) : after.ShowsOnce := by
  have unshown : ∀ other otherLeaf, ¬(other = key ∧ otherLeaf = leafId) →
      isSameTerminal (before.bindingAt other otherLeaf) (after.bindingAt key leafId) = false := by
    intro other otherLeaf elsewhere
    by_contra shows
    rw [Bool.not_eq_false] at shows
    obtain ⟨shown, bound, bound'⟩ := ptyId_eq_of_isSameTerminal shows
    rw [starts.bound] at bound' shows
    obtain rfl : ptyId = shown := Option.some.inj bound'
    have pane := mem_paneIds_of_bound rules bound
    have differ : otherLeaf ≠ leafId := by
      rintro rfl
      exact elsewhere ⟨rules.pane_home pane starts.pane, rfl⟩
    -- The start compared the terminal as it was named, without the pane's old incarnation.
    have compared : isSameTerminal (before.bindingAt other otherLeaf) ⟨some ptyId, incarnationId⟩ =
        true := by
      cases isNamed : incarnationId with
      | some incarnation =>
        rw [isNamed] at shows
        exact shows
      | none =>
        rw [isNamed] at shows
        by_cases repeats : isRepeatingRelayPtyId ptyId = true
        · have fresh : (leafOrEmpty (workspaceOrEmpty before key) leafId).incarnationId = none :=
            named repeats isNamed
          unfold startedBinding at shows
          rwa [fresh] at shows
        · unfold isSameTerminal
          rw [bound]
          simp [repeats]
    have stored : ∃ leaf, (workspaceOrEmpty before other).leaf? otherLeaf = some leaf := by
      cases isLeaf : (workspaceOrEmpty before other).leaf? otherLeaf with
      | some leaf => exact ⟨leaf, rfl⟩
      | none =>
        unfold WorkspaceLayoutModel.bindingAt at bound
        rw [bindingAt_of_none isLeaf] at bound
        cases bound
    obtain ⟨leaf, isLeaf⟩ := stored
    cases found : before.workspaces.get? other with
    | none =>
      rw [workspaceOrEmpty_of_none found] at isLeaf
      cases isLeaf
    | some workspace =>
      have place := workspaceOrEmpty_of_some found
      rw [place] at isLeaf
      have shownThere : before.bindingAt other otherLeaf = leaf.binding := by
        unfold WorkspaceLayoutModel.bindingAt WorkspaceLayout.bindingAt leafOrEmpty
        rw [place, isLeaf]
        rfl
      have guarded := starts.unshown
      unfold boundElsewhere at guarded
      rw [List.any_eq_false] at guarded
      apply guarded workspace (JsMap.mem_values_iff.mpr ⟨other, found⟩)
      refine List.any_eq_true.mpr ⟨(otherLeaf, leaf), JsMap.get?_eq_some_iff.mp isLeaf, ?_⟩
      rw [← shownThere]
      exact decide_eq_true ⟨differ, compared⟩
  intro first firstLeaf second secondLeaf same
  by_cases here : first = key ∧ firstLeaf = leafId
  · by_cases there : second = key ∧ secondLeaf = leafId
    · exact ⟨here.1.trans there.1.symm, here.2.trans there.2.symm⟩
    · rw [here.1, here.2, starts.others second secondLeaf there, isSameTerminal_comm,
        unshown second secondLeaf there] at same
      cases same
  · by_cases there : second = key ∧ secondLeaf = leafId
    · rw [there.1, there.2, starts.others first firstLeaf here,
        unshown first firstLeaf here] at same
      cases same
    · rw [starts.others first firstLeaf here, starts.others second secondLeaf there] at same
      exact once _ _ _ _ same

end WorkspaceLayoutModel.ShowsOnce

end OxeeUI.Layout
