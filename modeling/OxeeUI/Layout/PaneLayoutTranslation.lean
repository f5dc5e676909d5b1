import OxeeUI.Layout.Commands
import OxeeUI.Layout.SplitRatios
import OxeeUI.Layout.TabEdits
import OxeeUI.Layout.TabOrderMoves

/-!
# Pane trees sent by older desktops

An older desktop sends its whole pane tree.  The tree is translated to at most one move and the
ratios against the tab's own tree, or refused; titles and the chat pane go through either way.
-/

namespace OxeeUI.Layout

open OxeeUI.Library SplitTree

structure SentPaneLayout where
  root : Option TerminalPaneLayoutNode
  chatLeafId : Option (Option String)
  titlesByLeafId : Option (JsMap String String)

structure PaneLayoutTranslation where
  /-- In apply order; the runtime applies them as one change. -/
  commands : List LayoutCommand
  structureRefused : Bool

structure PaneMove where
  leafId : String
  targetLeafId : String
  side : PaneSide

/-- The two moves that a split of two leaves may come from. -/
def pairMoves (label : SplitLabel) : (first second : TerminalPaneLayoutNode) → List PaneMove
  | .leaf first, .leaf second =>
    let vertical := label.direction = .vertical
    [⟨first, second, if vertical then .left else .top⟩,
      ⟨second, first, if vertical then .right else .bottom⟩]
  | _, _ => []

/-- The stack hands out the second child before the first. -/
def candidateMoves : TerminalPaneLayoutNode → List PaneMove
  | .leaf _ => []
  | .split label first second =>
    pairMoves label first second ++ candidateMoves second ++ candidateMoves first

/-- `insertLeafBeside(removeLayoutLeaf(...)!, ...)`. -/
def movedRoot (current : TerminalPaneLayoutNode) (move : PaneMove) :
    Option TerminalPaneLayoutNode :=
  (removeLayoutLeaf (some current) move.leafId).map fun without =>
    insertLeafBeside without move.targetLeafId move.leafId move.side none

/-- One move ignoring ratios, among panes that are the same and distinct. -/
def findSinglePaneMove (current sent : TerminalPaneLayoutNode) : Option PaneMove :=
  if sortedIds current.leaves ≠ sortedIds sent.leaves ∨
      sent.leaves.eraseDups.length ≠ sent.leaves.length then none
  else
    (candidateMoves sent).find? fun move =>
      (movedRoot current move).any (samePanesIgnoringRatios · sent)

def sameRatios : (left right : TerminalPaneLayoutNode) → Bool
  | .split left first second, .split right first' second' =>
    left.ratio = right.ratio && sameRatios first first' && sameRatios second second'
  | _, _ => true

/-- The ratios the sent tree has, when the tree reached so far has others. -/
def ratioCommands (tabId : String) (reached sent : TerminalPaneLayoutNode) :
    List LayoutCommand :=
  if !sameRatios reached sent then [.setPaneRatios ⟨tabId, some sent, none⟩] else []

/-- Title maps replace rather than merge; omitted entries clear their titles. -/
def titleCommands (workspace : WorkspaceLayout) (tab : LayoutTerminalTab) (sent : SentPaneLayout) :
    List LayoutCommand :=
  match sent.titlesByLeafId with
  | none => []
  | some titles =>
    (leafIdsOf tab).filterMap fun leafId =>
      let title := titles.get? leafId
      if title ≠ (leafOrEmpty workspace leafId).title then
        some (.renamePane ⟨tab.id, leafId, title⟩)
      else none

/-- Absent leaves the chat pane alone; null clears it. -/
def chatCommands (tab : LayoutTerminalTab) (sent : SentPaneLayout) : List LayoutCommand :=
  match sent.chatLeafId with
  | none => []
  | some chatLeafId =>
    if chatLeafId ≠ tab.panes.chatLeafId ∧ chatLeafId.all (· ∈ leafIdsOf tab) then
      [.setChatPane ⟨tab.id, chatLeafId⟩]
    else []

def translateUpdatePaneLayout (workspace : WorkspaceLayout) (tab : LayoutTerminalTab)
    (sent : SentPaneLayout) : PaneLayoutTranslation :=
  let commands := titleCommands workspace tab sent ++ chatCommands tab sent
  match sent.root, tab.panes.root with
  | some root, some current =>
    if samePanesIgnoringRatios current root then
      ⟨commands ++ ratioCommands tab.id current root, false⟩
    else
      match findSinglePaneMove current root with
      | none => ⟨commands, true⟩
      | some move =>
        let moved := (movedRoot current move).getD current
        ⟨commands ++ [.movePane ⟨tab.id, move.leafId, move.targetLeafId, move.side⟩] ++
          ratioCommands tab.id moved root, false⟩
  | _, _ => ⟨commands, false⟩

/-! ## Trees -/

theorem eq_of_sameRatios {left right : TerminalPaneLayoutNode}
    (panes : samePanesIgnoringRatios left right = true) (ratios : sameRatios left right = true) :
    left = right := by
  unfold samePanesIgnoringRatios at panes
  induction left generalizing right with
  | leaf id =>
    cases right with
    | split => simp [sameIgnoringRatios] at panes
    | leaf other => simpa [sameIgnoringRatios] using panes
  | split label first second firstIH secondIH =>
    cases right with
    | leaf => simp [sameIgnoringRatios] at panes
    | split label' first' second' =>
      simp only [sameIgnoringRatios, sameRatios, Bool.and_eq_true, decide_eq_true_eq]
        at panes ratios
      obtain ⟨⟨direction, firstPanes⟩, secondPanes⟩ := panes
      obtain ⟨⟨ratio, firstRatios⟩, secondRatios⟩ := ratios
      rw [firstIH firstPanes firstRatios, secondIH secondPanes secondRatios]
      congr 1
      cases label
      cases label'
      simp_all

theorem mem_pairMoves {label : SplitLabel} {first second : TerminalPaneLayoutNode}
    {move : PaneMove} (member : move ∈ pairMoves label first second) :
    ∃ one other, first = .leaf one ∧ second = .leaf other ∧
      ((move.leafId = one ∧ move.targetLeafId = other) ∨
        (move.leafId = other ∧ move.targetLeafId = one)) := by
  cases first with
  | split => simp [pairMoves] at member
  | leaf one =>
    cases second with
    | split => simp [pairMoves] at member
    | leaf other =>
      refine ⟨one, other, rfl, rfl, ?_⟩
      simp only [pairMoves, List.mem_cons, List.not_mem_nil, or_false] at member
      rcases member with rfl | rfl
      · exact .inl ⟨rfl, rfl⟩
      · exact .inr ⟨rfl, rfl⟩

theorem of_mem_candidateMoves {tree : TerminalPaneLayoutNode} {move : PaneMove}
    (distinct : tree.leaves.Nodup) (member : move ∈ candidateMoves tree) :
    move.leafId ∈ tree.leaves ∧ move.targetLeafId ∈ tree.leaves ∧
      move.leafId ≠ move.targetLeafId := by
  induction tree with
  | leaf id => simp [candidateMoves] at member
  | split label first second firstIH secondIH =>
    rw [leaves_split] at distinct ⊢
    rw [candidateMoves, List.mem_append, List.mem_append] at member
    rcases member with (here | below) | below
    · obtain ⟨one, other, rfl, rfl, names⟩ := mem_pairMoves here
      have different : one ≠ other := by simpa using distinct
      rcases names with ⟨leaf, target⟩ | ⟨leaf, target⟩
      · simpa [leaf, target] using different
      · simpa [leaf, target] using different.symm
    · obtain ⟨leaf, target, different⟩ := secondIH distinct.of_append_right below
      exact ⟨List.mem_append_right _ leaf, List.mem_append_right _ target, different⟩
    · obtain ⟨leaf, target, different⟩ := firstIH distinct.of_append_left below
      exact ⟨List.mem_append_left _ leaf, List.mem_append_left _ target, different⟩

theorem mem_pairMoves_of_paneSplit {label : SplitLabel} {first second : TerminalPaneLayoutNode}
    {move : PaneMove}
    (same : sameIgnoringRatios (paneSplit move.targetLeafId move.leafId move.side none)
      (.split label first second) = true) :
    move ∈ pairMoves label first second := by
  obtain ⟨leafId, targetLeafId, side⟩ := move
  have leaf {id : String} {node : TerminalPaneLayoutNode}
      (same : sameIgnoringRatios (.leaf id) node = true) : node = .leaf id := by
    cases node with
    | leaf other => simpa [sameIgnoringRatios, eq_comm] using same
    | split => simp [sameIgnoringRatios] at same
  cases side <;>
    · simp only [paneSplit, reduceCtorEq, or_self, or_true, true_or, if_true, if_false,
        sameIgnoringRatios, Bool.and_eq_true, decide_eq_true_eq] at same
      rw [leaf same.1.2, leaf same.2]
      simp [pairMoves, ← same.1.1]

theorem sameIgnoringRatios_paneSplit_leaf (targetLeafId leafId other : String) (side : PaneSide) :
    sameIgnoringRatios (paneSplit targetLeafId leafId side none) (.leaf other) = false := by
  cases side <;> rfl

theorem mem_candidateMoves_insertLeafBeside {without sent : TerminalPaneLayoutNode}
    {move : PaneMove} (member : move.targetLeafId ∈ without.leaves)
    (same : samePanesIgnoringRatios
      (insertLeafBeside without move.targetLeafId move.leafId move.side none) sent = true) :
    move ∈ candidateMoves sent := by
  unfold samePanesIgnoringRatios insertLeafBeside at same
  induction without generalizing sent with
  | leaf id =>
    obtain rfl : move.targetLeafId = id := by simpa using member
    rw [substitute, if_pos rfl] at same
    cases sent with
    | leaf other =>
      rw [sameIgnoringRatios_paneSplit_leaf] at same
      cases same
    | split label first second =>
      rw [candidateMoves, List.mem_append, List.mem_append]
      exact .inl (.inl (mem_pairMoves_of_paneSplit same))
  | split label first second firstIH secondIH =>
    rw [substitute] at same
    cases sent with
    | leaf other => simp [sameIgnoringRatios] at same
    | split label' first' second' =>
      simp only [sameIgnoringRatios, Bool.and_eq_true] at same
      rw [candidateMoves, List.mem_append, List.mem_append]
      rcases List.mem_append.mp member with left | right
      · exact .inr (firstIH left same.1.2)
      · exact .inl (.inr (secondIH right same.2))

/-! ## Applying the commands -/

section Applying

variable (ambient : Ambient) (key tabId : String) (context : LayoutContext)

/-- Commands in order; the first refusal refuses them all. -/
def applyLayoutCommands (model : WorkspaceLayoutModel) (commands : List LayoutCommand) :
    Except LayoutRefusalCode WorkspaceLayoutModel :=
  commands.foldlM
    (fun model command =>
      (applyLayoutCommand ambient model key command context).map LayoutApplied.model) model

/-- The terminal's tab shows a tree of panes. -/
structure ShowsPanes (root : TerminalPaneLayoutNode) (model : WorkspaceLayoutModel)
    (workspace : WorkspaceLayout) (tab : LayoutTerminalTab) : Prop where
  stored : model.workspaces.get? key = some workspace
  found : findTerminal workspace tabId = some tab
  panes : tab.panes.root = some root

def Shows (root : TerminalPaneLayoutNode) (model : WorkspaceLayoutModel) : Prop :=
  ∃ workspace tab, ShowsPanes key tabId root model workspace tab

variable {ambient key tabId context} {root next : TerminalPaneLayoutNode}
  {model : WorkspaceLayoutModel} {workspace : WorkspaceLayout} {tab : LayoutTerminalTab}

theorem findTerminal_replaceTab {other : LayoutTerminalTab}
    (found : findTerminal workspace tabId = some tab) (same : other.id = tabId) :
    findTerminal (replaceTab workspace (.terminal other)) tabId = some other := by
  obtain ⟨entry, located, _⟩ := Option.bind_eq_some_iff.mp found
  have ids : (fun entry : LayoutTab => decide (entry.id = tabId)) ∘
      (fun entry => if entry.id = (LayoutTab.terminal other).id then .terminal other else entry) =
      fun entry : LayoutTab => decide (entry.id = tabId) := by
    funext entry
    by_cases replaced : entry.id = other.id
    · simp [replaced]
    · simp [replaced]
  have replaced : findTab (replaceTab workspace (.terminal other)) tabId =
      some (.terminal other) := by
    unfold findTab replaceTab
    rw [List.find?_map, ids]
    change ((findTab workspace tabId).map _) = _
    rw [located, Option.map_some, id_of_findTab located, LayoutTab.id_terminal, if_pos same.symm]
  rw [findTerminal, replaced]
  rfl

theorem id_of_findTerminal (found : findTerminal workspace tabId = some tab) : tab.id = tabId := by
  obtain ⟨entry, located, terminal⟩ := Option.bind_eq_some_iff.mp found
  cases entry with
  | content other => cases terminal
  | terminal other =>
    cases terminal
    exact id_of_findTab located

theorem shows_withWorkspace {result : LayoutCommandResult}
    (found : findTerminal workspace tabId = some tab) (panes : tab.panes.root = some root) :
    ∃ after, applied (withWorkspace model key workspace) result = .ok after ∧
      Shows key tabId root after.model :=
  ⟨_, rfl, workspace, tab, JsMap.get?_set_self _ _ _, found, panes⟩

theorem ShowsPanes.updateTab {other : LayoutTerminalTab}
    (shows : ShowsPanes key tabId root model workspace tab) (same : other.id = tabId)
    (panes : other.panes.root = some next) :
    ∃ after, updateTab model key workspace (.terminal other) = .ok after ∧
      Shows key tabId next after.model :=
  shows_withWorkspace (findTerminal_replaceTab shows.found same) panes

theorem ShowsPanes.paneTab (shows : ShowsPanes key tabId root model workspace tab) :
    paneTab workspace tabId = some (tab, root) := by
  simp [OxeeUI.Layout.paneTab, shows.found, shows.panes]

theorem applyLayoutCommand_shows {command : LayoutCommand}
    (run : ∃ after, applyCommand ambient model key command context = .ok after ∧
      Shows key tabId next after.model) :
    ∃ after, applyLayoutCommand ambient model key command context = .ok after ∧
      Shows key tabId next after.model := by
  obtain ⟨after, ran, workspace, tab, stored, found, panes⟩ := run
  refine ⟨_, by rw [applyLayoutCommand, ran]; rfl, workspace, tab, ?_, found, panes⟩
  rw [workspaces_committed]
  exact stored

theorem renamePane_shows {leafId : String} (title : Option String)
    (shows : Shows key tabId root model) (member : leafId ∈ root.leaves) :
    ∃ after, applyLayoutCommand ambient model key (.renamePane ⟨tabId, leafId, title⟩) context =
      .ok after ∧ Shows key tabId root after.model := by
  obtain ⟨workspace, tab, shown⟩ := shows
  have ran : applyCommand ambient model key (.renamePane ⟨tabId, leafId, title⟩) context =
      renamePane model key workspace ⟨tabId, leafId, title⟩ := by
    simp only [applyCommand, shown.stored, applyToWorkspace]
  apply applyLayoutCommand_shows
  rw [ran]
  simp only [renamePane, updateLeaf, shown.paneTab, holds_iff.mpr member, Bool.not_true,
    Bool.false_eq_true, if_false]
  exact shows_withWorkspace shown.found shown.panes

theorem setChatPane_shows {leafId : Option String} (shows : Shows key tabId root model)
    (member : leafId.all (· ∈ root.leaves) = true) :
    ∃ after, applyLayoutCommand ambient model key (.setChatPane ⟨tabId, leafId⟩) context =
      .ok after ∧ Shows key tabId root after.model := by
  obtain ⟨workspace, tab, shown⟩ := shows
  have ran : applyCommand ambient model key (.setChatPane ⟨tabId, leafId⟩) context =
      setChatPane model key workspace ⟨tabId, leafId⟩ := by
    simp only [applyCommand, shown.stored, applyToWorkspace]
  have allowed : (leafId.any fun leafId => !layoutContainsLeafId tab.panes.root leafId) =
      false := by
    cases leafId with
    | none => rfl
    | some leafId =>
      have held : leafId ∈ root.leaves := by simpa using member
      simp [shown.panes, layoutContainsLeafId, holds_iff.mpr held]
  apply applyLayoutCommand_shows
  rw [ran]
  simp only [setChatPane, shown.found, allowed, Bool.false_eq_true, if_false]
  have named : tab.id = tabId := id_of_findTerminal shown.found
  exact shown.updateTab named shown.panes

theorem movePane_shows {move : PaneMove} (shows : Shows key tabId root model)
    (leaf : move.leafId ∈ root.leaves) (target : move.targetLeafId ∈ root.leaves)
    (different : move.leafId ≠ move.targetLeafId) (moved : movedRoot root move = some next) :
    ∃ after, applyLayoutCommand ambient model key
        (.movePane ⟨tabId, move.leafId, move.targetLeafId, move.side⟩) context = .ok after ∧
      Shows key tabId next after.model := by
  obtain ⟨workspace, tab, shown⟩ := shows
  have ran : applyCommand ambient model key
        (.movePane ⟨tabId, move.leafId, move.targetLeafId, move.side⟩) context =
      movePane model key workspace ⟨tabId, move.leafId, move.targetLeafId, move.side⟩ := by
    simp only [applyCommand, shown.stored, applyToWorkspace]
  obtain ⟨without, removed, rfl⟩ := Option.map_eq_some_iff.mp moved
  apply applyLayoutCommand_shows
  rw [ran]
  simp only [movePane, if_neg different, shown.paneTab, holds_iff.mpr leaf, holds_iff.mpr target,
    Bool.not_true, Bool.false_eq_true, or_self, if_false, removed]
  have named : tab.id = tabId := id_of_findTerminal shown.found
  exact shown.updateTab named rfl

theorem Shows.unique (first : Shows key tabId root model) (second : Shows key tabId next model) :
    root = next := by
  obtain ⟨workspace, tab, shown⟩ := first
  obtain ⟨other, otherTab, otherShown⟩ := second
  obtain rfl := Option.some.inj (shown.stored.symm.trans otherShown.stored)
  obtain rfl := Option.some.inj (shown.found.symm.trans otherShown.found)
  exact Option.some.inj (shown.panes.symm.trans otherShown.panes)

theorem of_movePane {move : PaneMove} {after : LayoutApplied} (shows : Shows key tabId root model)
    (ran : applyLayoutCommand ambient model key
      (.movePane ⟨tabId, move.leafId, move.targetLeafId, move.side⟩) context = .ok after) :
    move.leafId ∈ root.leaves ∧ move.targetLeafId ∈ root.leaves ∧
      move.leafId ≠ move.targetLeafId := by
  obtain ⟨workspace, tab, shown⟩ := shows
  have command : applyCommand ambient model key
        (.movePane ⟨tabId, move.leafId, move.targetLeafId, move.side⟩) context =
      movePane model key workspace ⟨tabId, move.leafId, move.targetLeafId, move.side⟩ := by
    simp only [applyCommand, shown.stored, applyToWorkspace]
  rw [applyLayoutCommand, command] at ran
  simp only [movePane, shown.paneTab] at ran
  split at ran
  · cases ran
  · next different =>
    split at ran
    · cases ran
    · next held =>
      rw [not_or, Bool.not_eq_true', Bool.not_eq_true', Bool.not_eq_false, Bool.not_eq_false] at held
      exact ⟨holds_iff.mp held.1, holds_iff.mp held.2, different⟩

theorem setPaneRatios_shows (shows : Shows key tabId root model)
    (same : samePanesIgnoringRatios root next = true) :
    ∃ after, applyLayoutCommand ambient model key (.setPaneRatios ⟨tabId, some next, none⟩)
        context = .ok after ∧ Shows key tabId next after.model := by
  obtain ⟨workspace, tab, shown⟩ := shows
  have ran : applyCommand ambient model key (.setPaneRatios ⟨tabId, some next, none⟩) context =
      setPaneRatios model key workspace ⟨tabId, some next, none⟩ := by
    simp only [applyCommand, shown.stored, applyToWorkspace]
  apply applyLayoutCommand_shows
  rw [ran]
  simp only [setPaneRatios, shown.paneTab, Option.filter, same, if_true]
  have named : tab.id = tabId := id_of_findTerminal shown.found
  exact shown.updateTab named rfl

/-- The commands succeed and take one tree of panes to another. -/
def Takes (ambient : Ambient) (key tabId : String) (context : LayoutContext)
    (commands : List LayoutCommand) (root next : TerminalPaneLayoutNode) : Prop :=
  ∀ model, Shows key tabId root model →
    ∃ after, applyLayoutCommands ambient key context model commands = .ok after ∧
      Shows key tabId next after

theorem Takes.nil (root : TerminalPaneLayoutNode) : Takes ambient key tabId context [] root root :=
  fun model shows => ⟨model, rfl, shows⟩

theorem Takes.cons {command : LayoutCommand} {commands : List LayoutCommand}
    {middle : TerminalPaneLayoutNode}
    (first : ∀ model, Shows key tabId root model →
      ∃ after, applyLayoutCommand ambient model key command context = .ok after ∧
        Shows key tabId middle after.model)
    (rest : Takes ambient key tabId context commands middle next) :
    Takes ambient key tabId context (command :: commands) root next := by
  intro model shows
  obtain ⟨between, ran, shows⟩ := first model shows
  obtain ⟨after, ran_rest, shows⟩ := rest between.model shows
  refine ⟨after, ?_, shows⟩
  rw [applyLayoutCommands, List.foldlM_cons, ran]
  exact ran_rest

theorem Takes.append {first second : List LayoutCommand} {middle : TerminalPaneLayoutNode}
    (early : Takes ambient key tabId context first root middle)
    (late : Takes ambient key tabId context second middle next) :
    Takes ambient key tabId context (first ++ second) root next := by
  intro model shows
  obtain ⟨between, ran, shows⟩ := early model shows
  obtain ⟨after, ran_late, shows⟩ := late between shows
  refine ⟨after, ?_, shows⟩
  rw [applyLayoutCommands, List.foldlM_append]
  rw [applyLayoutCommands] at ran
  rw [ran]
  exact ran_late

theorem Takes.all {commands : List LayoutCommand}
    (each : ∀ command ∈ commands, ∀ model, Shows key tabId root model →
      ∃ after, applyLayoutCommand ambient model key command context = .ok after ∧
        Shows key tabId root after.model) :
    Takes ambient key tabId context commands root root := by
  induction commands with
  | nil => exact .nil root
  | cons command commands ih =>
    rw [List.forall_mem_cons] at each
    exact .cons each.1 (ih each.2)

end Applying

/-! ## The translation -/

section Translation

variable {ambient : Ambient} {key : String} {context : LayoutContext} {workspace : WorkspaceLayout}
  {tab : LayoutTerminalTab} {sent : SentPaneLayout} {current root : TerminalPaneLayoutNode}

theorem titleCommands_take (panes : tab.panes.root = some current) :
    Takes ambient key tab.id context (titleCommands workspace tab sent) current current := by
  apply Takes.all
  intro command member model shows
  unfold titleCommands at member
  split at member
  · cases member
  · obtain ⟨leafId, listed, made⟩ := List.mem_filterMap.mp member
    dsimp only at made
    split at made
    · cases made
      refine renamePane_shows _ shows ?_
      rwa [leafIdsOf, panes] at listed
    · cases made

theorem chatCommands_take (panes : tab.panes.root = some current) :
    Takes ambient key tab.id context (chatCommands tab sent) current current := by
  apply Takes.all
  intro command member model shows
  unfold chatCommands at member
  split at member
  · cases member
  · split at member
    · next changed =>
      obtain rfl := List.mem_singleton.mp member
      refine setChatPane_shows shows ?_
      have listed := changed.2
      rwa [leafIdsOf, panes] at listed
    · cases member

theorem ratioCommands_take {tabId : String} (same : samePanesIgnoringRatios current root = true) :
    Takes ambient key tabId context (ratioCommands tabId current root) current root := by
  unfold ratioCommands
  by_cases ratios : sameRatios current root = true
  · rw [ratios, eq_of_sameRatios same ratios]
    exact .nil root
  · rw [Bool.eq_false_of_not_eq_true ratios]
    exact .cons (fun model shows => setPaneRatios_shows shows same) (.nil root)

theorem of_findSinglePaneMove {move : PaneMove}
    (found : findSinglePaneMove current root = some move) :
    (move.leafId ∈ current.leaves ∧ move.targetLeafId ∈ current.leaves ∧
      move.leafId ≠ move.targetLeafId) ∧
    ∃ moved, movedRoot current move = some moved ∧ samePanesIgnoringRatios moved root = true := by
  unfold findSinglePaneMove at found
  rw [Option.ite_none_left_eq_some, not_or, not_ne_iff, not_ne_iff] at found
  obtain ⟨⟨sorted, sized⟩, found⟩ := found
  have perm : current.leaves.Perm root.leaves := sortedIds_eq_iff.mp sorted
  have candidate := of_mem_candidateMoves (nodup_of_length_eraseDups sized)
    (List.mem_of_find?_eq_some found)
  have reached := List.find?_some found
  obtain ⟨moved, ran, same⟩ := (Option.any_eq_true _ _).mp reached
  refine ⟨⟨perm.symm.subset candidate.1, perm.symm.subset candidate.2.1, candidate.2.2⟩, ?_⟩
  exact ⟨moved, ran, same⟩

theorem findSinglePaneMove_isSome {move : PaneMove} {moved : TerminalPaneLayoutNode}
    (distinct : current.leaves.Nodup) (leaf : move.leafId ∈ current.leaves)
    (target : move.targetLeafId ∈ current.leaves) (different : move.leafId ≠ move.targetLeafId)
    (ran : movedRoot current move = some moved)
    (same : samePanesIgnoringRatios moved root = true) :
    (findSinglePaneMove current root).isSome := by
  obtain ⟨without, removed, rfl⟩ := Option.map_eq_some_iff.mp ran
  have others : without.leaves = current.leaves.filter (· ≠ move.leafId) := by
    have kept := leavesOf_removeLayoutLeaf (some current) move.leafId
    rwa [removed] at kept
  have stays : move.targetLeafId ∈ without.leaves := by
    rw [others]
    simpa using ⟨target, different.symm⟩
  have perm : root.leaves.Perm current.leaves := by
    rw [leaves_eq_of_sameIgnoringRatios same]
    refine (leaves_insertLeafBeside ?_ stays).trans ?_
    · rw [others]
      exact distinct.filter _
    · rw [others, filter_ne_eq_erase distinct]
      exact (List.perm_cons_erase leaf).symm
  have sentDistinct : root.leaves.Nodup := perm.nodup_iff.mpr distinct
  have guard : ¬(sortedIds current.leaves ≠ sortedIds root.leaves ∨
      root.leaves.eraseDups.length ≠ root.leaves.length) := by
    rw [not_or, not_ne_iff, not_ne_iff]
    exact ⟨sortedIds_eq_iff.mpr perm.symm, (dedupeTabOrder_perm sentDistinct).length_eq⟩
  rw [findSinglePaneMove, if_neg guard, List.find?_isSome]
  refine ⟨move, mem_candidateMoves_insertLeafBeside stays same, ?_⟩
  rw [ran, Option.any_some]
  exact same

theorem translateUpdatePaneLayout_takes (panes : tab.panes.root = some current)
    (sentRoot : sent.root = some root)
    (accepted : (translateUpdatePaneLayout workspace tab sent).structureRefused = false) :
    Takes ambient key tab.id context (translateUpdatePaneLayout workspace tab sent).commands
      current root := by
  have metadata : Takes ambient key tab.id context
      (titleCommands workspace tab sent ++ chatCommands tab sent) current current :=
    (titleCommands_take panes).append (chatCommands_take panes)
  simp only [translateUpdatePaneLayout, sentRoot, panes] at accepted ⊢
  split
  · next same => exact metadata.append (ratioCommands_take same)
  · next differs =>
    rw [if_neg differs] at accepted
    split at accepted
    · cases accepted
    · next move found =>
      obtain ⟨⟨leaf, target, different⟩, moved, ran, same⟩ := of_findSinglePaneMove found
      simp only [ran, Option.getD_some]
      refine (metadata.append ?_).append (ratioCommands_take same)
      exact .cons (fun model shows => movePane_shows shows leaf target different ran) (.nil moved)

theorem translateUpdatePaneLayout_accepts {model : WorkspaceLayoutModel} (move : PaneMove)
    {result : LayoutApplied} {moved : TerminalPaneLayoutNode}
    (shows : Shows key tab.id current model) (panes : tab.panes.root = some current)
    (distinct : current.leaves.Nodup) (sentRoot : sent.root = some root)
    (ran : applyLayoutCommand ambient model key
      (.movePane ⟨tab.id, move.leafId, move.targetLeafId, move.side⟩) context = .ok result)
    (reached : Shows key tab.id moved result.model)
    (same : samePanesIgnoringRatios moved root = true) :
    (translateUpdatePaneLayout workspace tab sent).structureRefused = false := by
  obtain ⟨leaf, target, different⟩ := of_movePane shows ran
  have removed : (movedRoot current move).isSome := by
    rw [movedRoot, Option.isSome_map, Option.isSome_iff_ne_none, ne_eq, ← leavesOf_eq_nil_iff,
      leavesOf_removeLayoutLeaf, List.filter_eq_nil_iff]
    intro none_left
    exact none_left move.targetLeafId target (by simpa using different.symm)
  obtain ⟨next, moves⟩ := Option.isSome_iff_exists.mp removed
  have again : ∃ after, applyLayoutCommand ambient model key
      (.movePane ⟨tab.id, move.leafId, move.targetLeafId, move.side⟩) context = .ok after ∧
      Shows key tab.id next after.model := movePane_shows shows leaf target different moves
  obtain ⟨after, again, shown⟩ := again
  obtain rfl := Except.ok.inj (ran.symm.trans again)
  obtain rfl := reached.unique shown
  obtain ⟨chosen, found⟩ := Option.isSome_iff_exists.mp
    (findSinglePaneMove_isSome distinct leaf target different moves same)
  simp only [translateUpdatePaneLayout, sentRoot, panes, found]
  split <;> rfl

/-- What is not refused reaches the sent tree, and no single move is refused. -/
theorem translateUpdatePaneLayout_sound_complete (ambient : Ambient) (key : String)
    (context : LayoutContext) (model : WorkspaceLayoutModel) (workspace : WorkspaceLayout)
    (tab : LayoutTerminalTab) (sent : SentPaneLayout) (current root : TerminalPaneLayoutNode)
    (stored : model.workspaces.get? key = some workspace)
    (found : findTerminal workspace tab.id = some tab) (panes : tab.panes.root = some current)
    (distinct : current.leaves.Nodup) (sentRoot : sent.root = some root) :
    ((translateUpdatePaneLayout workspace tab sent).structureRefused = false →
      ∃ after, applyLayoutCommands ambient key context model
          (translateUpdatePaneLayout workspace tab sent).commands = .ok after ∧
        Shows key tab.id root after) ∧
    (samePanesIgnoringRatios current root = true ∨
      (∃ leafId targetLeafId side result moved,
        applyLayoutCommand ambient model key (.movePane ⟨tab.id, leafId, targetLeafId, side⟩)
          context = .ok result ∧
        Shows key tab.id moved result.model ∧ samePanesIgnoringRatios moved root = true) →
      (translateUpdatePaneLayout workspace tab sent).structureRefused = false) := by
  have shows : Shows key tab.id current model := ⟨workspace, tab, stored, found, panes⟩
  refine ⟨fun accepted => translateUpdatePaneLayout_takes panes sentRoot accepted model shows, ?_⟩
  rintro (same | ⟨leafId, targetLeafId, side, result, moved, ran, reached, same⟩)
  · simp only [translateUpdatePaneLayout, sentRoot, panes, same, if_true]
  · exact translateUpdatePaneLayout_accepts ⟨leafId, targetLeafId, side⟩ shows panes distinct
      sentRoot ran reached same

end Translation

/-! ## Three panes side by side -/

def threePanesTab : LayoutTerminalTab where
  id := "tab"
  entityId := "tab"
  createdAt := 0
  customTitle := none
  generatedTitle := none
  aiVaultTitle := .undefined
  quickCommandLabel := none
  color := none
  isPinned := none
  viewMode := none
  isPreview := none
  agentSessionAgent := none
  terminal := ⟨none, none, none, none, none⟩
  panes :=
    ⟨some (.split ⟨.vertical, none⟩ (.leaf "a")
      (.split ⟨.vertical, none⟩ (.leaf "b") (.leaf "c"))), none⟩

def threePanesWorkspace : WorkspaceLayout :=
  { WorkspaceLayout.empty "w" with
    tabs := [.terminal threePanesTab]
    groups := [⟨"g", ["tab"]⟩]
    groupLayout := some (.leaf "g") }

def threePanesModel : WorkspaceLayoutModel where
  hostId := "local"
  workspaces := JsMap.empty.set "w" threePanesWorkspace
  records := ⟨none, none, none⟩
  legacy := ⟨.empty, none⟩

/-- The last pane dragged to the left of the first, with the divider it then has. -/
def draggedPanes : TerminalPaneLayoutNode :=
  .split ⟨.vertical, some (6 / 10)⟩
    (.split ⟨.vertical, some (4 / 10)⟩ (.leaf "c") (.leaf "a")) (.leaf "b")

theorem dragged_pane_is_translated :
    ∃ after,
      applyLayoutCommands quietAmbient "w" quietContext threePanesModel
        (translateUpdatePaneLayout threePanesWorkspace threePanesTab
          ⟨some draggedPanes, none, none⟩).commands = .ok after ∧
      Shows "w" "tab" draggedPanes after := by
  have translated := translateUpdatePaneLayout_sound_complete quietAmbient "w" quietContext
    threePanesModel threePanesWorkspace threePanesTab ⟨some draggedPanes, none, none⟩
    (.split ⟨.vertical, none⟩ (.leaf "a") (.split ⟨.vertical, none⟩ (.leaf "b") (.leaf "c")))
    draggedPanes rfl rfl rfl (by decide) rfl
  apply translated.1
  apply translated.2
  refine .inr ⟨"c", "a", .left, _, _, rfl, ⟨_, _, ⟨rfl, rfl, rfl⟩⟩, ?_⟩
  decide

end OxeeUI.Layout
