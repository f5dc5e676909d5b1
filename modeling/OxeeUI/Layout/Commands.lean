import OxeeUI.Layout.EditorMoves

/-!
# What every commit records

Older builds read which workspaces own terminal rows, and defer to a layout whose
revision of a repository has risen.  Owner builds record the panes an edit dropped.
-/

namespace OxeeUI.Layout

open OxeeUI.Library

variable (ambient : Ambient)

/-! ## Older builds -/

/-- The repository's part of a worktree id, up to `::`. -/
def repoIdChars : List Char → List Char
  | ':' :: ':' :: _ => []
  | [] => []
  | character :: rest => character :: repoIdChars rest

def getRepoIdFromWorktreeId (worktreeId : String) : String :=
  String.ofList (repoIdChars worktreeId.toList)

def paneKeys (workspace : WorkspaceLayout) : List String :=
  workspace.tabs.flatMap fun tab => tab.leafIds.map (paneKeyOf tab.entityId)

/-- What the workspaces that changed say of their panes. -/
structure PaneChanges where
  terminalRowOwners : JsMap String Unit
  left : JsMap String String
  arrived : JsMap String String
  departed : List String

def notePanes (panes : JsMap String String) (workspace : WorkspaceLayout) : JsMap String String :=
  (paneKeys workspace).foldl (fun panes paneKey => panes.set paneKey workspace.worktreeId) panes

def noteWorkspace (before after : WorkspaceLayoutModel) (changes : PaneChanges) (key : String) :
    PaneChanges :=
  match before.workspaces.get? key, after.workspaces.get? key with
  | none, none => changes
  | some old, none =>
    { changes with
      terminalRowOwners := changes.terminalRowOwners.delete key
      departed := changes.departed ++ paneKeys old }
  | old, some next =>
    if old.any fun old => ambient.sameWorkspace old next then changes
    else
      { terminalRowOwners :=
          if next.tabs.any (·.terminal?.isSome) then changes.terminalRowOwners.set key ()
          else changes.terminalRowOwners
        left := (old.map (notePanes changes.left)).getD changes.left
        arrived := notePanes changes.arrived next
        departed := changes.departed }

/-- The worktrees some pane arrived in or left, and those a pane was retired from. -/
def changedWorktrees (changes : PaneChanges) (retiredWorktreeIds : List String) : List String :=
  let arrivals := changes.arrived.entries.filter fun pane =>
    !changes.left.has pane.1 ∧ pane.1 ∉ changes.departed
  let departures := changes.left.entries.filter fun pane => !changes.arrived.has pane.1
  retiredWorktreeIds ++ arrivals.map Prod.snd ++ departures.map Prod.snd

/-- Retain row ownership after the last terminal closes, and bump each changed repository once. -/
def updateLegacyPersistence (before after : WorkspaceLayoutModel)
    (retiredWorktreeIds : List String := []) : WorkspaceLayoutModel :=
  let keys := (before.workspaces.keys ++ after.workspaces.keys).eraseDups
  let changes := keys.foldl (noteWorkspace ambient before after)
    ⟨after.legacy.terminalRowOwners, .empty, .empty, []⟩
  let repoIds := ((changedWorktrees changes retiredWorktreeIds).map
    getRepoIdFromWorktreeId).eraseDups
  let revisions :=
    if repoIds = [] then after.legacy.topologyRevisionByRepoId
    else
      some (repoIds.foldl
        (fun revisions repoId => revisions.set repoId ((revisions.get? repoId).getD 0 + 1))
        (after.legacy.topologyRevisionByRepoId.getD .empty))
  { after with legacy := ⟨changes.terminalRowOwners, revisions⟩ }

@[simp]
theorem workspaces_updateLegacyPersistence (before after : WorkspaceLayoutModel)
    (retired : List String) :
    (updateLegacyPersistence ambient before after retired).workspaces = after.workspaces := rfl

/-! ## Dropped panes -/

/-- A pane the commit removed whose terminal no pane holds any more. -/
structure DroppedLeaf where
  hostId : String
  worktreeId : String
  tabId : String
  leafId : String
  ptyId : String
  /-- Absent for a pane bound before incarnations were recorded. -/
  incarnationId : Option String

/-- The panes of a workspace that are bound, with their terminals. -/
def boundLeaves (hostId : String) (workspace : WorkspaceLayout) : List DroppedLeaf :=
  workspace.tabs.flatMap fun tab => tab.leafIds.filterMap fun leafId =>
    let leaf := leafOrEmpty workspace leafId
    (leaf.ptyId.filter (· ≠ "")).map fun ptyId =>
      ⟨hostId, workspace.worktreeId, tab.entityId, leafId, ptyId,
        leaf.incarnationId.filter (· ≠ "")⟩

def terminalKey (ptyId : String) (incarnationId : Option String) : String × String :=
  (ptyId, incarnationId.getD "")

/-- Panes bound before whose leaf is gone after, and whose terminal no pane holds. -/
def droppedLeavesOf (before after : WorkspaceLayoutModel) : List DroppedLeaf :=
  let held := after.workspaces.values.flatMap fun workspace =>
    (boundLeaves after.hostId workspace).map fun leaf => terminalKey leaf.ptyId leaf.incarnationId
  before.workspaces.entries.flatMap fun entry =>
    if (after.workspaces.get? entry.1).any fun next => ambient.sameWorkspace next entry.2 then []
    else
      (boundLeaves before.hostId entry.2).filter fun leaf =>
        ((after.workspaces.get? entry.1).bind (·.leaf? leaf.leafId)).isNone ∧
          terminalKey leaf.ptyId leaf.incarnationId ∉ held

/-- `CLOSED_TERMINAL_TAB_TOMBSTONE_TTL_MS`. -/
def closedTerminalPaneTtl : Int := 30 * 24 * 60 * 60 * 1000

/-- `MAX_CLOSED_TERMINAL_TAB_TOMBSTONES`. -/
def maxClosedTerminalPanes : Nat := 500

/-- Drop what is too old, and the oldest beyond the cap. -/
def pruneClosedTerminalPanes (closed : JsMap String ClosedTerminalPane) (now : Int) :
    JsMap String ClosedTerminalPane :=
  let live := closed.entries.filter fun entry => now - entry.2.closedAt ≤ closedTerminalPaneTtl
  .ofPairs ((live.mergeSort fun first second =>
    second.2.closedAt ≤ first.2.closedAt).take maxClosedTerminalPanes)

/-- What a live edit does with the panes it dropped: records each terminal's pane for its exit. -/
def onDroppedLeaves (model : WorkspaceLayoutModel) (dropped : List DroppedLeaf) (now : Int) :
    WorkspaceLayoutModel :=
  let stored := model.records.closedTerminalPanesByPaneKey.getD .empty
  -- A retry of the same drop records it once: keyed by terminal, not pane.
  let recorded := stored.values.map fun pane => (pane.ptyId, pane.incarnationId)
  let closed := dropped.filterMap fun leaf =>
    leaf.incarnationId.bind fun incarnationId =>
      if (leaf.ptyId, incarnationId) ∈ recorded then none
      else
        some (paneKeyOf leaf.tabId leaf.leafId,
          (⟨leaf.ptyId, incarnationId, leaf.worktreeId, now⟩ : ClosedTerminalPane))
  if closed = [] then model
  else
    let written := closed.foldl (fun panes entry => panes.set entry.1 entry.2) stored
    { model with
      records :=
        { model.records with
          closedTerminalPanesByPaneKey := some (pruneClosedTerminalPanes written now) } }

/-- Runs the dropped-leaf step on a live edit; window-owned builds have none. -/
def runDroppedLeafStep (before after : WorkspaceLayoutModel) (now : Int) : WorkspaceLayoutModel :=
  if !ambient.ownerIsMain then after
  else onDroppedLeaves after (droppedLeavesOf ambient before after) now

@[simp]
theorem workspaces_runDroppedLeafStep (before after : WorkspaceLayoutModel) (now : Int) :
    (runDroppedLeafStep ambient before after now).workspaces = after.workspaces := by
  unfold runDroppedLeafStep onDroppedLeaves
  split
  · rfl
  · simp only
    split <;> rfl

end OxeeUI.Layout

/-!
## Applying commands and transitions

Commands come from clients, transitions from the runtime: what processes, hosts and
owners did.  Both take the model to the next one, or refuse and leave it as it is.
-/

namespace OxeeUI.Layout

open OxeeUI.Library SplitTree

variable (ambient : Ambient)

/-! ## Commands -/

/-- A record, not a layout: a workspace with no tabs yet is marked, not created. -/
def setDefaultTabsApplied (model : WorkspaceLayoutModel) (workspace : String) : Applied :=
  let marks := model.records.defaultTabsAppliedByWorkspace.getD .empty
  if marks.has workspace then applied model
  else
    applied { model with
      records :=
        { model.records with defaultTabsAppliedByWorkspace := some (marks.set workspace ()) } }

def DefaultTerminalTab.create (template : DefaultTerminalTab) : CreateTerminalTab where
  tabId := some template.tabId
  leafId := some template.leafId
  groupId := none
  afterTabId := none
  index := none
  title := template.title.filter (· ≠ "")
  color := template.color.filter (· ≠ "")
  viewMode := none
  createdAt := none
  quickCommandLabel := none
  creation := template.creation
  initial := none
  adopt := none
  split := none

/-- What the default tabs created so far add up to. -/
structure DefaultTabs where
  model : WorkspaceLayoutModel
  createdTabs : List CreatedTab
  startPaneKeys : List String

def createDefaultTab (key : String) (context : LayoutContext) (tabs : DefaultTabs)
    (template : DefaultTerminalTab) : Except LayoutRefusalCode DefaultTabs :=
  (createTerminalTab ambient.ownerIsMain tabs.model key template.create context).map
    fun created =>
      { model := created.model
        createdTabs := tabs.createdTabs ++
          [⟨template.tabId, template.leafId, paneKeyOf template.tabId template.leafId⟩]
        startPaneKeys := tabs.startPaneKeys ++ created.effects.startPaneKeys }

def applyDefaultTabs (model : WorkspaceLayoutModel) (key : String)
    (templates : List DefaultTerminalTab) (context : LayoutContext) : Applied :=
  if (model.records.defaultTabsAppliedByWorkspace.getD .empty).has key then
    applied model { createdTabs := some [] }
  else
    match templates.foldlM (createDefaultTab ambient key context) ⟨model, [], []⟩ with
    | .error code => refuse code
    | .ok tabs =>
      match setDefaultTabsApplied tabs.model key with
      | .error code => refuse code
      | .ok marked =>
        applied marked.model { createdTabs := some tabs.createdTabs }
          { startPaneKeys := tabs.startPaneKeys }

def applyToWorkspace (model : WorkspaceLayoutModel) (key : String) (workspace : WorkspaceLayout)
    (command : LayoutCommand) (context : LayoutContext) : Applied :=
  match command with
  | .splitPane command => splitPane model key workspace command context
  | .closePane command => closePane model key workspace command
  | .closeTabs command => closeTabs ambient.ownerIsMain model key workspace command context
  | .moveTab command => moveTab ambient.ownerIsMain model key workspace command
  | .splitGroup command => splitGroup model key workspace command context
  | .setGroupRatios command => setGroupRatios model key workspace command
  | .setPaneRatios command => setPaneRatios model key workspace command
  | .movePane command => movePane model key workspace command
  | .equalizePanes tabId => equalizePanes model key workspace tabId
  | .movePaneToNewTab command =>
    movePaneToNewTab ambient.ownerIsMain model key workspace command context
  | .renameTab tabId title => renameTab model key workspace tabId title
  | .renamePane command => renamePane model key workspace command
  | .setPaneGrid command => setPaneGrid model key workspace command
  | .releasePaneTerminal command => releasePaneTerminal model key workspace command
  | .setTabProps command => setTabProps model key workspace command
  | .setChatPane command => setChatPane model key workspace command
  | .promotePreviewTab tabId => promotePreviewTab model key workspace tabId
  | .moveTabToWorkspace command =>
    moveTabToWorkspace ambient.ownerIsMain model key workspace command context
  | .renameEditorFiles command => renameEditorFiles model key command
  | .openBrowserPage command => openBrowserPage model key workspace command
  | .closeBrowserPage command => closeBrowserPage model key workspace command
  | .replaceBrowserPage command => replaceBrowserPage model key workspace command
  | .setBrowserTabProfile command => setBrowserTabProfile model key workspace command
  | .startPane paneKey => startPane model key workspace paneKey context
  | .restartPane paneKey => restartPane model key workspace paneKey
  | .sleep command => sleep model key workspace command
  | .wake command => wake model key workspace command
  | _ => refuse .workspaceNotFound

/-- A command on a workspace there is nothing of: closing what is gone is not an error. -/
def applyToMissing (model : WorkspaceLayoutModel) (command : LayoutCommand) : Applied :=
  match command with
  | .closeTabs command =>
    applied model
      { alreadyClosed := some true, closed := some command.tabIds, refused := some [] }
  | .closePane _ => applied model { alreadyClosed := some true }
  | _ => refuse .workspaceNotFound

def applyCommand (model : WorkspaceLayoutModel) (key : String) (command : LayoutCommand)
    (context : LayoutContext) : Applied :=
  match command with
  | .setDefaultTabsApplied => setDefaultTabsApplied model key
  | .applyDefaultTabs tabs => applyDefaultTabs ambient model key tabs context
  -- The five commands that create a missing workspace.
  | .createTerminalTab command =>
    openInNewGroup model key ⟨command.tabId, command.groupId, command.split⟩ fun next =>
      createTerminalTab ambient.ownerIsMain next key command context
  | .openEditorTab command =>
    openInNewGroup model key ⟨command.tabId, command.groupId, command.split⟩ fun next =>
      openEditorTab ambient.ownerIsMain next key command context
  | .openSimulatorTab command =>
    openInNewGroup model key ⟨some command.tabId, command.groupId, command.split⟩ fun next =>
      openSimulatorTab ambient.ownerIsMain next key command context
  | .openBrowserTab command =>
    openInNewGroup model key ⟨command.tabId, command.groupId, command.split⟩ fun next =>
      openBrowserTab ambient.ownerIsMain next key command context
  | .openAgentSessionTab command =>
    openInNewGroup model key ⟨command.tabId, command.groupId, command.split⟩ fun next =>
      openAgentSessionTab ambient.ownerIsMain next key command context
  | command =>
    match model.workspaces.get? key with
    | none => applyToMissing model command
    | some workspace => applyToWorkspace ambient model key workspace command context

/-- The model after a commit, with what older builds read and the panes it dropped. -/
def committed (before after : WorkspaceLayoutModel) (context : LayoutContext) :
    WorkspaceLayoutModel :=
  let next := updateLegacyPersistence ambient before after
  if context.droppedLeafReason then runDroppedLeafStep ambient before next context.now else next

def applyLayoutCommand (model : WorkspaceLayoutModel) (key : String) (command : LayoutCommand)
    (context : LayoutContext) : Applied :=
  (applyCommand ambient model key command context).map fun result =>
    { result with model := committed ambient model result.model context }

@[simp]
theorem workspaces_committed (before after : WorkspaceLayoutModel) (context : LayoutContext) :
    (committed ambient before after context).workspaces = after.workspaces := by
  unfold committed
  simp only
  split <;> simp

/-! ## Transitions -/

structure ProcessExitFacts where
  exitCode : Int
  /-- The process ran on this machine, not over SSH or on a runtime server. -/
  isLocal : Bool
  spawnedFresh : Bool
  /-- Another pane of the tab already had a terminal when this pane connected. -/
  tabHadPaneAtConnect : Bool
  restored : Bool
  inputWritten : Bool
  outputReceived : Bool
  /-- Attach found no process: never proof that it exited, whatever the code. -/
  attachAbsent : Bool

inductive ExitVerdict where
  | retire
  | keep
  | unbind
deriving DecidableEq

/-- `isProvenProcessExit`. -/
def isProvenProcessExit (exitCode : Int) : Bool := exitCode ≥ 0

def exitVerdict (facts : ProcessExitFacts) (paneCount : Nat) : ExitVerdict :=
  if facts.attachAbsent ∨ !isProvenProcessExit facts.exitCode then .unbind
  else if facts.isLocal ∧ facts.exitCode ≠ 0 then .keep
  else if facts.inputWritten then .retire
  -- Before input, keep a sole newborn or a silent unrestored split into a live tab.
  else if paneCount ≤ 1 then if facts.spawnedFresh then .keep else .retire
  else if facts.tabHadPaneAtConnect ∧ !facts.restored ∧ !facts.outputReceived then .keep
  else .retire

inductive LayoutTransition where
  | processStarted (workspace paneKey ptyId : String) (incarnationId : Option String)
  | processExited (surface : ExitedSurface) (exit : ProcessExitFacts)
  | sshLeaseTerminated (ptyIds : List String)
  | ownerRemoved (workspaces : List String)
  | identityRenamed (source destination : String)

def boundElsewhere (model : WorkspaceLayoutModel) (leafId : String) (binding : Binding) : Bool :=
  model.workspaces.values.any fun workspace => workspace.leaves.entries.any fun entry =>
    entry.1 ≠ leafId ∧ isSameTerminal entry.2.binding binding

/-- Binds the started terminal to the pane that was starting. -/
def processStarted (model : WorkspaceLayoutModel) (key paneKey ptyId : String)
    (incarnationId : Option String) : Applied :=
  match model.workspaces.get? key with
  | none => refuse .paneNotFound
  | some workspace =>
    match locatePane workspace paneKey with
    | none => refuse .paneNotFound
    | some (_, leafId) =>
      if boundElsewhere model leafId ⟨some ptyId, incarnationId⟩ then refuse .paneAlreadyBound
      else
        let stored := leafOrEmpty workspace leafId
        let leaf : LayoutLeaf :=
          { stored with
            ptyId := some ptyId
            incarnationId := incarnationId.or stored.incarnationId }
        applied (withWorkspace model key (setLeaf workspace leafId leaf))

/-- Take the pty id off the panes of a workspace whose lease ended. -/
def unleaseWorkspace (ptyIds : List String) (workspace : WorkspaceLayout) : WorkspaceLayout :=
  workspace.leaves.entries.foldl
    (fun updated entry =>
      if entry.2.ptyId.any (· ∈ ptyIds) then
        setLeaf updated entry.1 { entry.2 with ptyId := none }
      else updated) workspace

/-- Loss of an SSH lease unbinds its panes; it is not evidence the remote process exited. -/
def sshLeaseTerminated (model : WorkspaceLayoutModel) (ptyIds : List String) : Applied :=
  applied { model with
    workspaces := model.workspaces.mapValues fun _ workspace => unleaseWorkspace ptyIds workspace }

def removeWorkspaces (model : WorkspaceLayoutModel) (keys : List String) : WorkspaceLayoutModel :=
  { model with
    workspaces := model.workspaces.filter fun key _ => key ∉ keys
    records :=
      { model.records with
        defaultTabsAppliedByWorkspace :=
          model.records.defaultTabsAppliedByWorkspace.map fun marks =>
            marks.filter fun key _ => key ∉ keys
        clientHostedBrowserPagesByWorkspace :=
          model.records.clientHostedBrowserPagesByWorkspace.map fun pages =>
            pages.filter fun key _ => key ∉ keys } }

/-- Give a key another name; an entry that is there under that name is overwritten. -/
def rekey {Value : Type} (source destination : String) (record : JsMap String Value) :
    JsMap String Value :=
  .ofPairs (record.entries.map fun entry =>
    (if entry.1 = source then destination else entry.1, entry.2))

/-- Refuse an occupied destination rather than merging layouts. -/
def renameWorkspace (model : WorkspaceLayoutModel) (source destination : String) :
    Option WorkspaceLayoutModel :=
  match model.workspaces.get? source with
  | none => some model
  | some workspace =>
    if source = destination then some model
    else if model.workspaces.has destination then none
    else
      let worktreeId :=
        if workspace.worktreeId = source then destination else workspace.worktreeId
      some { model with
        workspaces := (model.workspaces.set destination
          { workspace with worktreeId := worktreeId }).delete source
        records :=
          { model.records with
            defaultTabsAppliedByWorkspace :=
              model.records.defaultTabsAppliedByWorkspace.map (rekey source destination)
            clientHostedBrowserPagesByWorkspace :=
              model.records.clientHostedBrowserPagesByWorkspace.map (rekey source destination) }
        legacy :=
          { model.legacy with
            terminalRowOwners := rekey source destination model.legacy.terminalRowOwners } }

/-- Retire proven exits unless the failure must remain visible; unproven ones only unbind. -/
def applyProcessExit (model : WorkspaceLayoutModel) (surface : ExitedSurface)
    (facts : ProcessExitFacts) : Applied :=
  match locateExitedSurface model surface with
  | .replaced => applied model
  | .gone =>
    -- A proven exit advances the revision even when its pane was already gone.
    if exitVerdict facts 1 = .unbind then applied model
    else applied (updateLegacyPersistence ambient model model [surface.worktreeId])
  | .found location =>
    let leafId := surface.leafId
    match exitVerdict facts (leafIdsOf location.tab).length with
    | .keep => applied model {} {} [(leafId, some .exited)]
    | .unbind =>
      let leaf := (leafOrEmpty location.workspace leafId).unbound
      let next := withWorkspace model location.workspaceKey
        (setLeaf location.workspace leafId leaf)
      applied (updateLegacyPersistence ambient model next) {} {} [(leafId, none)]
    | .retire =>
      let retired := retireTerminalPane model location.workspaceKey location.workspace
        location.tab leafId
      applied (updateLegacyPersistence ambient model retired [surface.worktreeId]) {} {}
        [(leafId, none)]

def applyTransition (model : WorkspaceLayoutModel) (transition : LayoutTransition) : Applied :=
  match transition with
  | .processStarted key paneKey ptyId incarnationId =>
    processStarted model key paneKey ptyId incarnationId
  | .processExited surface exit => applyProcessExit ambient model surface exit
  | .sshLeaseTerminated ptyIds => sshLeaseTerminated model ptyIds
  | .ownerRemoved workspaces => applied (removeWorkspaces model workspaces)
  | .identityRenamed source destination =>
    match renameWorkspace model source destination with
    | none => refuse .workspaceExists
    | some renamed => applied renamed

def applyLayoutTransition (model : WorkspaceLayoutModel) (transition : LayoutTransition) :
    Applied :=
  match transition with
  | .processExited surface exit => applyProcessExit ambient model surface exit
  | transition =>
    (applyTransition ambient model transition).map fun result =>
      { result with model := updateLegacyPersistence ambient model result.model }

/-! ## A quiet surrounding -/

/-- Equal workspaces are taken for the same object. -/
def quietAmbient : Ambient where
  ownerIsMain := false
  sameWorkspace left right := decide (left = right)
  same_eq same := of_decide_eq_true same

def quietContext : LayoutContext where
  mintId _ := "minted"
  mintLeafId := "leaf"
  now := 0
  isStarting _ := false
  droppedLeafReason := false
  isBindingLive _ _ := true
  retiresBinding _ _ := false

end OxeeUI.Layout
