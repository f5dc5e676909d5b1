import OxeeUI.Layout.Edits

/-!
# What one command does to the model

Workspaces are read by their keys, a missing one as an empty one.  An edit of one of them
is an edit of the model, as no id is in two workspaces.
-/

namespace OxeeUI.Layout

open OxeeUI.Library

variable {holes : String → List String} {model before middle after : WorkspaceLayoutModel}
variable {ids : NewIds} {stops : List String} {key : String} {next : WorkspaceLayout}

/-! ## Workspaces by their keys -/

theorem workspaceOrEmpty_of_some {workspace : WorkspaceLayout}
    (found : model.workspaces.get? key = some workspace) :
    workspaceOrEmpty model key = workspace := by
  rw [workspaceOrEmpty, found, Option.getD_some]

theorem workspaceOrEmpty_of_none (missing : model.workspaces.get? key = none) :
    workspaceOrEmpty model key = .empty key := by
  rw [workspaceOrEmpty, missing, Option.getD_none]

theorem workspaceOrEmpty_congr (same : after.workspaces = before.workspaces) (key : String) :
    workspaceOrEmpty after key = workspaceOrEmpty before key := by
  unfold workspaceOrEmpty
  rw [same]

theorem workspaceOrEmpty_of_set (written : after.workspaces = before.workspaces.set key next)
    (other : String) :
    workspaceOrEmpty after other = if other = key then next else workspaceOrEmpty before other := by
  unfold workspaceOrEmpty
  rw [written, JsMap.get?_set]
  by_cases same : other = key <;> simp [same]

namespace StructuralRulesUpTo

theorem workspace (rules : StructuralRulesUpTo holes model) (key : String) :
    WorkspaceRules (holes key) (workspaceOrEmpty model key) := by
  cases found : model.workspaces.get? key with
  | none => exact workspaceOrEmpty_of_none found ▸ workspaceRules_empty ..
  | some workspace =>
    rw [workspaceOrEmpty_of_some found]
    exact ⟨rules.groups key workspace found, rules.panes key workspace found⟩

theorem home {names : WorkspaceLayout → List String} {first second id : String}
    (distinct : (model.workspaces.values.flatMap names).Nodup)
    (empty : ∀ key, names (.empty key) = [])
    (member : id ∈ names (workspaceOrEmpty model first))
    (member' : id ∈ names (workspaceOrEmpty model second)) : first = second := by
  by_contra different
  cases found : model.workspaces.get? first with
  | none =>
    rw [workspaceOrEmpty_of_none found, empty] at member
    cases member
  | some workspace =>
    cases found' : model.workspaces.get? second with
    | none =>
      rw [workspaceOrEmpty_of_none found', empty] at member'
      cases member'
    | some workspace' =>
      rw [workspaceOrEmpty_of_some found] at member
      rw [workspaceOrEmpty_of_some found'] at member'
      exact (JsMap.nodup_flatMap_values_iff.mp distinct).2 _ _ _ _ different found found'
        member member'

theorem tab_home (rules : StructuralRulesUpTo holes model) {first second id : String}
    (member : id ∈ (workspaceOrEmpty model first).tabIds)
    (member' : id ∈ (workspaceOrEmpty model second).tabIds) : first = second :=
  home rules.tabIds (fun _ => rfl) member member'

theorem pane_home (rules : StructuralRulesUpTo holes model) {first second id : String}
    (member : id ∈ (workspaceOrEmpty model first).paneIds)
    (member' : id ∈ (workspaceOrEmpty model second).paneIds) : first = second :=
  home rules.leafIds (fun _ => rfl) member member'

theorem of_workspaces
    (workspaces : ∀ key, WorkspaceRules (holes key) (workspaceOrEmpty model key))
    (tab_home : ∀ first second id, id ∈ (workspaceOrEmpty model first).tabIds →
      id ∈ (workspaceOrEmpty model second).tabIds → first = second)
    (pane_home : ∀ first second id, id ∈ (workspaceOrEmpty model first).paneIds →
      id ∈ (workspaceOrEmpty model second).paneIds → first = second) :
    StructuralRulesUpTo holes model where
  groups := fun key workspace found =>
    workspaceOrEmpty_of_some found ▸ (workspaces key).groups
  panes := fun key workspace found => workspaceOrEmpty_of_some found ▸ (workspaces key).panes
  tabIds := by
    refine JsMap.nodup_flatMap_values_iff.mpr ⟨?_, ?_⟩
    · intro key workspace found
      exact workspaceOrEmpty_of_some found ▸ (workspaces key).groups.distinct
    · intro key other workspace workspace' different found found' id member member'
      rw [← workspaceOrEmpty_of_some found] at member
      rw [← workspaceOrEmpty_of_some found'] at member'
      exact different (tab_home key other id member member')
  leafIds := by
    refine JsMap.nodup_flatMap_values_iff.mpr ⟨?_, ?_⟩
    · intro key workspace found
      exact workspaceOrEmpty_of_some found ▸ (workspaces key).panes.distinct
    · intro key other workspace workspace' different found found' id member member'
      rw [← workspaceOrEmpty_of_some found] at member
      rw [← workspaceOrEmpty_of_some found'] at member'
      exact different (pane_home key other id member member')

theorem congr (rules : StructuralRulesUpTo holes before)
    (same : after.workspaces = before.workspaces) : StructuralRulesUpTo holes after where
  groups := by
    rw [same]
    exact rules.groups
  panes := by
    rw [same]
    exact rules.panes
  tabIds := by
    rw [same]
    exact rules.tabIds
  leafIds := by
    rw [same]
    exact rules.leafIds

end StructuralRulesUpTo

/-! ## The rules -/

def NewIds.FreshInModel (ids : NewIds) (model : WorkspaceLayoutModel) : Prop :=
  ∀ key, ids.FreshIn (workspaceOrEmpty model key)

def KeepsRules (ids : NewIds) (before after : WorkspaceLayoutModel) : Prop :=
  ∀ holes, StructuralRulesUpTo holes before → ids.FreshInModel before →
    StructuralRulesUpTo holes after

theorem NewIds.freshInModel_none (model : WorkspaceLayoutModel) : NewIds.none.FreshInModel model :=
  fun _ => NewIds.freshIn_none _

theorem KeepsRules.of_same (same : after.workspaces = before.workspaces) :
    KeepsRules ids before after :=
  fun _ rules _ => rules.congr same

theorem KeepsRules.trans (first : KeepsRules .none before middle)
    (second : KeepsRules .none middle after) : KeepsRules .none before after :=
  fun holes rules fresh =>
    second holes (first holes rules fresh) (NewIds.freshInModel_none middle)

theorem home_of_set {names : WorkspaceLayout → List String} {added : List String}
    (written : after.workspaces = before.workspaces.set key next)
    (own : ∀ id ∈ names next, id ∈ added ∨ id ∈ names (workspaceOrEmpty before key))
    (unused : ∀ id ∈ added, ∀ other, id ∉ names (workspaceOrEmpty before other))
    (home : ∀ first second id, id ∈ names (workspaceOrEmpty before first) →
      id ∈ names (workspaceOrEmpty before second) → first = second)
    (first second id : String) (member : id ∈ names (workspaceOrEmpty after first))
    (member' : id ∈ names (workspaceOrEmpty after second)) : first = second := by
  rw [workspaceOrEmpty_of_set written] at member member'
  by_cases here : first = key <;> by_cases there : second = key
  · rw [here, there]
  · rw [if_pos here] at member
    rw [if_neg there] at member'
    rcases own id member with new | held
    · exact absurd member' (unused id new second)
    · exact here.trans (home key second id held member')
  · rw [if_neg here] at member
    rw [if_pos there] at member'
    rcases own id member' with new | held
    · exact absurd member (unused id new first)
    · exact (home first key id member held).trans there.symm
  · rw [if_neg here] at member
    rw [if_neg there] at member'
    exact home first second id member member'

theorem KeepsRules.of_set (written : after.workspaces = before.workspaces.set key next)
    (edit : LayoutEdit ids (workspaceOrEmpty before key) next) :
    KeepsRules ids before after := by
  intro holes rules fresh
  refine .of_workspaces ?_ ?_ ?_
  · intro other
    rw [workspaceOrEmpty_of_set written]
    by_cases same : other = key
    · rw [if_pos same, same]
      exact edit.rules (holes key) (rules.workspace key) (fresh key)
    · rw [if_neg same]
      exact rules.workspace other
  · exact home_of_set written edit.tabIds (fun _ new other => (fresh other).tabs _ new)
      fun _ _ _ => rules.tab_home
  · exact home_of_set written edit.paneIds (fun _ new other => (fresh other).leaves _ new)
      fun _ _ _ => rules.pane_home

/-! ## The terminals -/

/-- The terminal a pane of a workspace is bound to. -/
def WorkspaceLayoutModel.bindingAt (model : WorkspaceLayoutModel) (key leafId : String) :
    Binding :=
  (workspaceOrEmpty model key).bindingAt leafId

def ModelBindsNothingNew (before after : WorkspaceLayoutModel) : Prop :=
  ∀ key, BindsNothingNew (workspaceOrEmpty before key) (workspaceOrEmpty after key)

/-- Every terminal of the model stays with its pane or is stopped. -/
def ModelKeepsTerminals (stops : List String) (before after : WorkspaceLayoutModel) : Prop :=
  ∀ holes, StructuralRulesUpTo holes before →
    ∀ key, ∀ leafId ∈ (workspaceOrEmpty before key).paneIds, ∀ ptyId, ptyId ≠ "" →
      (before.bindingAt key leafId).ptyId = some ptyId →
      ptyId ∈ stops ∨ (leafId ∈ (workspaceOrEmpty after key).paneIds ∧
        (after.bindingAt key leafId).ptyId = some ptyId)

structure ModelTerminalEdit (stops : List String) (before after : WorkspaceLayoutModel) :
    Prop where
  binds : ModelBindsNothingNew before after
  kept : ModelKeepsTerminals stops before after
  stopped : ∀ ptyId ∈ stops, ∃ key leafId,
    (before.bindingAt key leafId).ptyId = some ptyId ∧ (after.bindingAt key leafId).ptyId = none

theorem ModelBindsNothingNew.of_same (same : after.workspaces = before.workspaces) :
    ModelBindsNothingNew before after :=
  fun key => workspaceOrEmpty_congr same key ▸ .refl _

theorem ModelBindsNothingNew.trans (first : ModelBindsNothingNew before middle)
    (second : ModelBindsNothingNew middle after) : ModelBindsNothingNew before after :=
  fun key => (first key).trans (second key)

theorem ModelBindsNothingNew.of_set
    (written : after.workspaces = before.workspaces.set key next)
    (binds : BindsNothingNew (workspaceOrEmpty before key) next) :
    ModelBindsNothingNew before after := by
  intro other
  rw [workspaceOrEmpty_of_set written]
  by_cases same : other = key
  · rw [if_pos same, same]
    exact binds
  · rw [if_neg same]
    exact .refl _

theorem ModelKeepsTerminals.of_same (same : after.workspaces = before.workspaces) :
    ModelKeepsTerminals [] before after := by
  intro holes rules key leafId member ptyId proper bound
  unfold WorkspaceLayoutModel.bindingAt
  rw [workspaceOrEmpty_congr same]
  exact Or.inr ⟨member, bound⟩

theorem ModelKeepsTerminals.of_set
    (written : after.workspaces = before.workspaces.set key next)
    (kept : KeepsTerminals stops (workspaceOrEmpty before key) next) :
    ModelKeepsTerminals stops before after := by
  intro holes rules other leafId member ptyId proper bound
  unfold WorkspaceLayoutModel.bindingAt at bound ⊢
  rw [workspaceOrEmpty_of_set written]
  by_cases same : other = key
  · subst same
    rw [if_pos rfl]
    exact kept (holes other) (rules.workspace other) leafId member ptyId proper bound
  · rw [if_neg same]
    exact Or.inr ⟨member, bound⟩

theorem ModelKeepsTerminals.trans (first : ModelKeepsTerminals [] before middle)
    (rules : ∀ holes, StructuralRulesUpTo holes before → ∃ holes', StructuralRulesUpTo holes' middle)
    (second : ModelKeepsTerminals stops middle after) : ModelKeepsTerminals stops before after := by
  intro holes holds key leafId member ptyId proper bound
  obtain ⟨holes', holds'⟩ := rules holes holds
  obtain ⟨member', bound'⟩ := (first holes holds key leafId member ptyId proper
    bound).resolve_left (by simp)
  exact second holes' holds' key leafId member' ptyId proper bound'

namespace ModelTerminalEdit

theorem of_same (same : after.workspaces = before.workspaces) :
    ModelTerminalEdit [] before after where
  binds := .of_same same
  kept := .of_same same
  stopped := by simp

theorem of_set (written : after.workspaces = before.workspaces.set key next)
    (edit : TerminalEdit stops (workspaceOrEmpty before key) next) :
    ModelTerminalEdit stops before after where
  binds := .of_set written edit.binds
  kept := .of_set written edit.kept
  stopped := by
    intro ptyId stop
    obtain ⟨leafId, bound, unbound⟩ := edit.stopped ptyId stop
    refine ⟨key, leafId, bound, ?_⟩
    unfold WorkspaceLayoutModel.bindingAt
    rw [workspaceOrEmpty_of_set written, if_pos rfl]
    exact unbound

theorem trans (first : ModelTerminalEdit [] before middle)
    (rules : ∀ holes, StructuralRulesUpTo holes before → ∃ holes', StructuralRulesUpTo holes' middle)
    (second : ModelTerminalEdit stops middle after) : ModelTerminalEdit stops before after where
  binds := first.binds.trans second.binds
  kept := first.kept.trans rules second.kept
  stopped := by
    intro ptyId stop
    obtain ⟨key, leafId, bound, unbound⟩ := second.stopped ptyId stop
    have same := first.binds key leafId ptyId bound
    exact ⟨key, leafId, (congrArg Binding.ptyId same).trans bound, unbound⟩

end ModelTerminalEdit

/-- Every pane stays where it is, bound as it was. -/
structure PanesStay (before after : WorkspaceLayoutModel) : Prop where
  bindings : ∀ key leafId, after.bindingAt key leafId = before.bindingAt key leafId
  panes : ∀ key, ∀ leafId ∈ (workspaceOrEmpty before key).paneIds,
    leafId ∈ (workspaceOrEmpty after key).paneIds

theorem PanesStay.refl (model : WorkspaceLayoutModel) : PanesStay model model :=
  ⟨fun _ _ => rfl, fun _ _ member => member⟩

theorem PanesStay.trans (first : PanesStay before middle) (second : PanesStay middle after) :
    PanesStay before after where
  bindings := fun key leafId => (second.bindings key leafId).trans (first.bindings key leafId)
  panes := fun key leafId member => second.panes key leafId (first.panes key leafId member)

theorem PanesStay.of_set (written : after.workspaces = before.workspaces.set key next)
    (leaves : next.leaves = (workspaceOrEmpty before key).leaves)
    (panes : ∀ leafId ∈ (workspaceOrEmpty before key).paneIds, leafId ∈ next.paneIds) :
    PanesStay before after where
  bindings := by
    intro other leafId
    unfold WorkspaceLayoutModel.bindingAt
    rw [workspaceOrEmpty_of_set written]
    by_cases same : other = key
    · rw [if_pos same, same]
      exact bindingAt_of_leaves leaves leafId
    · rw [if_neg same]
  panes := by
    intro other leafId member
    rw [workspaceOrEmpty_of_set written]
    by_cases same : other = key
    · rw [if_pos same]
      exact panes leafId (same ▸ member)
    · rwa [if_neg same]

theorem PanesStay.terminals (stay : PanesStay before after) : ModelTerminalEdit [] before after where
  binds := fun key => bindsNothingNew_of_leaves fun leafId => Or.inl (stay.bindings key leafId)
  kept := fun _ _ key leafId member _ _ bound =>
    Or.inr ⟨stay.panes key leafId member, (stay.bindings key leafId).symm ▸ bound⟩
  stopped := by simp

/-! ## The outcome of a command -/

def Ensures (outcome : Applied) (post : LayoutApplied → Prop) : Prop :=
  ∀ result, outcome = .ok result → post result

variable {post post' : LayoutApplied → Prop} {outcome : Applied}

theorem Ensures.refuse (code : LayoutRefusalCode) : Ensures (refuse code) post := by
  intro result applied
  cases applied

theorem Ensures.applied {result : LayoutCommandResult} {effects : LayoutEffects}
    {outcomes : List (String × Option PaneOutcome)}
    (holds : post ⟨model, result, effects, outcomes⟩) :
    Ensures (applied model result effects outcomes) post := by
  intro result applied
  cases applied
  exact holds

theorem Ensures.mono (ensures : Ensures outcome post) (weaken : ∀ result, post result → post' result) :
    Ensures outcome post' :=
  fun result applied => weaken result (ensures result applied)

/-- A command that keeps the rules and accounts for the terminals. -/
structure Accounted (ids : NewIds) (model : WorkspaceLayoutModel) (result : LayoutApplied) :
    Prop where
  layout : KeepsRules ids model result.model
  terminals : ModelTerminalEdit result.effects.stopPtyIds model result.model

theorem Accounted.of_same {result : LayoutApplied}
    (same : result.model.workspaces = model.workspaces)
    (none : result.effects.stopPtyIds = []) : Accounted ids model result :=
  ⟨.of_same same, none ▸ .of_same same⟩

theorem Accounted.of_edit {result : LayoutApplied}
    (written : result.model.workspaces = model.workspaces.set key next)
    (edit : CommandEdit ids result.effects.stopPtyIds (workspaceOrEmpty model key) next) :
    Accounted ids model result :=
  ⟨.of_set written edit.layout, .of_set written edit.terminals⟩

theorem Accounted.of_two {result : LayoutApplied} {first second : WorkspaceLayout}
    {fromKey toKey : String} {tabIds : List String}
    (written : result.model.workspaces =
      (withWorkspace (withWorkspace model fromKey first) toKey second).workspaces)
    (none : result.effects.stopPtyIds = []) (apart : fromKey ≠ toKey)
    (leaves : CommandEdit .none [] (workspaceOrEmpty model fromKey) first)
    (lands : CommandEdit ⟨tabIds, [], []⟩ [] (workspaceOrEmpty model toKey) second)
    (fresh : NewIds.FreshInModel ⟨tabIds, [], []⟩ (withWorkspace model fromKey first)) :
    Accounted ids model result := by
  have untouched : workspaceOrEmpty (withWorkspace model fromKey first) toKey =
      workspaceOrEmpty model toKey := by
    rw [workspaceOrEmpty_of_set rfl, if_neg (Ne.symm apart)]
  rw [← untouched] at lands
  have early : KeepsRules .none model (withWorkspace model fromKey first) :=
    .of_set rfl leaves.layout
  have late : KeepsRules ⟨tabIds, [], []⟩ (withWorkspace model fromKey first) result.model :=
    .of_set written lands.layout
  have keeps : ∀ holes, StructuralRulesUpTo holes model →
      StructuralRulesUpTo holes (withWorkspace model fromKey first) :=
    fun holes rules => early holes rules (NewIds.freshInModel_none model)
  refine ⟨fun holes rules _ => late holes (keeps holes rules) fresh, ?_⟩
  rw [none]
  exact ModelTerminalEdit.trans (.of_set rfl leaves.terminals)
    (fun holes rules => ⟨holes, keeps holes rules⟩) (.of_set written lands.terminals)

theorem ensures_same {result : LayoutCommandResult} {effects : LayoutEffects}
    {outcomes : List (String × Option PaneOutcome)} (none : effects.stopPtyIds = []) :
    Ensures (applied model result effects outcomes) (Accounted ids model) :=
  .applied (.of_same rfl none)

theorem ensures_edit {result : LayoutCommandResult} {effects : LayoutEffects}
    {outcomes : List (String × Option PaneOutcome)} {workspace : WorkspaceLayout}
    (found : workspaceOrEmpty model key = workspace)
    (edit : CommandEdit ids effects.stopPtyIds workspace next) :
    Ensures (applied (withWorkspace model key next) result effects outcomes)
      (Accounted ids model) :=
  .applied (.of_edit rfl (found ▸ edit))

end OxeeUI.Layout
