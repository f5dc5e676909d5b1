import OxeeUI.Layout.TabCommands

/-!
# Commands on panes and their terminals

Pane ids and the data keyed by them survive moves.  Starts and stops of terminals are
returned as effects, apart from the bindings and the sleeping records.
-/

namespace OxeeUI.Layout

open OxeeUI.Library SplitTree

/-- A terminal's tab that has panes, and their tree. -/
def paneTab (workspace : WorkspaceLayout) (tabId : String) :
    Option (LayoutTerminalTab × TerminalPaneLayoutNode) :=
  (findTerminal workspace tabId).bind fun tab => tab.panes.root.map fun root => (tab, root)

def LayoutTerminalTab.withRoot (tab : LayoutTerminalTab) (root : TerminalPaneLayoutNode) :
    LayoutTab :=
  .terminal { tab with panes := { tab.panes with root := some root } }

variable (ownerIsMain : Bool) (model : WorkspaceLayoutModel) (key : String)
variable (workspace : WorkspaceLayout)

def splitPane (command : SplitPane) (context : LayoutContext) : Applied :=
  match paneTab workspace command.tabId with
  | none => refuse .tabNotFound
  | some (tab, root) =>
    if !root.holds command.leafId then refuse .paneNotFound
    else
      let leafId := command.newLeafId.getD context.mintLeafId
      let side : PaneSide := if command.direction = .vertical then .right else .bottom
      let next := insertLeafBeside root command.leafId leafId side command.ratio
      let paneKey := paneKeyOf tab.entityId leafId
      applied (withWorkspace model key (replaceTab workspace (tab.withRoot next)))
        { leafId := some leafId, paneKey := some paneKey } { startPaneKeys := [paneKey] }

/-- Closing a pane that is already gone succeeds; the last pane closes its tab. -/
def closePane (command : ClosePane) : Applied :=
  match findTerminal workspace command.tabId with
  | none => applied model { alreadyClosed := some true }
  | some tab =>
    if !layoutContainsLeafId tab.panes.root command.leafId then
      applied model { alreadyClosed := some true }
    else if command.userPaneClose ∧ tab.panes.root.any (·.isLeafOf command.leafId) then
      refuse .lastPane
    else
      let ptyId := (leafOrEmpty workspace command.leafId).ptyId
      let retired := retireTerminalPane model key workspace tab command.leafId
      let tabClosed := !((workspaceOrEmpty retired key).tabs.any fun entry => entry.id = tab.id)
      applied retired { tabClosed := some tabClosed }
        { stopPtyIds := (ptyId.filter (· ≠ "")).toList }

def movePane (command : MovePane) : Applied :=
  if command.leafId = command.targetLeafId then refuse .samePane
  else
    match paneTab workspace command.tabId with
    | none => refuse .tabNotFound
    | some (tab, root) =>
      if !root.holds command.leafId ∨ !root.holds command.targetLeafId then
        refuse .paneNotFound
      else
        match removeLayoutLeaf (some root) command.leafId with
        | none => refuse .paneNotFound
        | some without =>
          updateTab model key workspace
            (tab.withRoot (insertLeafBeside without command.targetLeafId command.leafId
              command.side none))

/-- Accept divider ratios only when the tree and panes still match. -/
def setPaneRatios (command : SetPaneRatios) : Applied :=
  match paneTab workspace command.tabId with
  | none => refuse .tabNotFound
  | some (tab, root) =>
    let next :=
      match command.ratios with
      | some ratios => withPaneSplitRatios root ratios
      | none => command.root.filter (samePanesIgnoringRatios root)
    match next with
    | none => refuse .paneStructureChanged
    | some next => updateTab model key workspace (tab.withRoot next)

def equalizePanes (tabId : String) : Applied :=
  match paneTab workspace tabId with
  | none => refuse .tabNotFound
  | some (tab, root) => updateTab model key workspace (tab.withRoot (equalizeLayout root))

def updateLeaf (tabId leafId : String) (change : LayoutLeaf → LayoutLeaf) : Applied :=
  match paneTab workspace tabId with
  | none => refuse .tabNotFound
  | some (_, root) =>
    if !root.holds leafId then refuse .paneNotFound
    else
      applied (withWorkspace model key
        (setLeaf workspace leafId (change (leafOrEmpty workspace leafId))))

def renamePane (command : RenamePane) : Applied :=
  updateLeaf model key workspace command.tabId command.leafId
    fun leaf => { leaf with title := command.title }

def setPaneGrid (command : SetPaneGrid) : Applied :=
  if (paneTab workspace command.tabId).any fun pane =>
      pane.2.holds command.leafId ∧
        (leafOrEmpty workspace command.leafId).lastGrid = some command.grid then
    applied model
  else
    updateLeaf model key workspace command.tabId command.leafId
      fun leaf => { leaf with lastGrid := some command.grid }

def LayoutLeaf.unbound (leaf : LayoutLeaf) : LayoutLeaf :=
  { leaf with ptyId := none, incarnationId := none }

def releasePaneTerminal (command : ReleasePaneTerminal) : Applied :=
  match paneTab workspace command.tabId with
  | none => refuse .paneNotFound
  | some (_, root) =>
    if !root.holds command.leafId then refuse .paneNotFound
    else
      let leaf := leafOrEmpty workspace command.leafId
      if leaf.ptyId ≠ some command.ptyId then applied model
      else applied (withWorkspace model key (setLeaf workspace command.leafId leaf.unbound))

/-- The window's terminal outranks a stale binding; a stale copy's incarnation is dropped. -/
def bindDetachedLeaf (leafId : String) (detach : Option WindowPaneDetach) : WorkspaceLayout :=
  match (detach.bind WindowPaneDetach.ptyId).filter (· ≠ "") with
  | none => workspace
  | some ptyId =>
    let leaf := leafOrEmpty workspace leafId
    if leaf.ptyId = some ptyId then workspace
    else if leaf.ptyId.all (· = "") then
      setLeaf workspace leafId { leaf with ptyId := some ptyId }
    else setLeaf workspace leafId { leaf with ptyId := some ptyId, incarnationId := none }

def movedPaneTab (bound : WorkspaceLayout) (tab : LayoutTerminalTab) (id leafId : String)
    (detach : Option WindowPaneDetach) (context : LayoutContext) : LayoutTerminalTab :=
  let isChat := tab.panes.chatLeafId = some leafId
  -- An unbound pane's shell starts in the new tab, so it starts in the pane's folder.
  let detachedCwd :=
    if (leafOrEmpty bound leafId).ptyId.all (· = "") then
      (detach.bind WindowPaneDetach.startupCwd).filter (· ≠ "")
    else none
  { id := id
    entityId := id
    createdAt := context.now
    customTitle := none
    generatedTitle := none
    aiVaultTitle := .undefined
    quickCommandLabel := none
    color := none
    isPinned := none
    viewMode := if isChat then some .chat else none
    isPreview := none
    agentSessionAgent := none
    terminal :=
      { defaultTitle := some ("Terminal " ++ toString (getNextTerminalOrdinal bound))
        shellOverride := tab.terminal.shellOverride.filter (· ≠ "")
        forceHostRuntime := none
        startupCwd := (detachedCwd.or tab.terminal.startupCwd).filter (· ≠ "")
        launchAgent := none }
    panes := ⟨some (.leaf leafId), if isChat then some leafId else none⟩ }

/-- Only the tree moves; the pane's data and scrollback are keyed by its id. -/
def movePaneToNewTab (command : MovePaneToNewTab) (context : LayoutContext) : Applied :=
  match paneTab workspace command.tabId with
  | none => refuse .tabNotFound
  | some (tab, root) =>
    if !root.holds command.leafId then refuse .paneNotFound
    else if command.windowDetach.isNone ∧ root.leaves.length < 2 then refuse .lastPane
    else
      let leafId := command.leafId
      let bound := bindDetachedLeaf workspace leafId command.windowDetach
      let id := (command.windowDetach.bind WindowPaneDetach.tabId).getD (context.mintId .tab)
      let moved := movedPaneTab bound tab id leafId command.windowDetach context
      let source : LayoutTerminalTab :=
        { tab with
          panes := ⟨removeLayoutLeaf tab.panes.root leafId,
            chatWithout tab.panes.chatLeafId leafId⟩ }
      let sourceGroup := bound.groups.find? (tab.id ∈ ·.tabOrder)
      let placed := placeNewTab ownerIsMain (replaceTab bound (.terminal source)) key
        (.terminal moved)
        ⟨command.groupId.or (sourceGroup.map LayoutGroup.id),
          if command.index.isNone then some tab.id else none, command.index⟩ context
      applied (withWorkspace model key placed)
        { tabId := some id
          ptyId := command.windowDetach.map fun _ => (leafOrEmpty placed leafId).ptyId }

/-! ## Processes -/

/-- The panes of the workspace, each with its key. -/
def workspacePanes : List (String × String) :=
  workspace.tabs.flatMap fun tab =>
    tab.leafIds.map fun leafId => (paneKeyOf tab.entityId leafId, leafId)

/-- Stops then starts in place: the pane keeps its id, its binding is cleared. -/
def restartPane (paneKey : String) : Applied :=
  match locatePane workspace paneKey with
  | none => refuse .paneNotFound
  | some (_, leafId) =>
    let leaf := leafOrEmpty workspace leafId
    applied (withWorkspace model key (setLeaf workspace leafId leaf.unbound)) {}
      { stopPtyIds := (leaf.ptyId.filter (· ≠ "")).toList, startPaneKeys := [paneKey] }
      [(leafId, none)]

/-- Start or restore idempotently; only `restartPane` replaces a live terminal. -/
def startPane (paneKey : String) (context : LayoutContext) : Applied :=
  match locatePane workspace paneKey with
  | none => refuse .paneNotFound
  | some (_, leafId) =>
    let ptyId := (leafOrEmpty workspace leafId).ptyId.filter (· ≠ "")
    if ptyId.any (context.retiresBinding paneKey) then
      restartPane model key workspace paneKey
    else if ptyId.any (context.isBindingLive paneKey) ∨ context.isStarting leafId then
      applied model
    else applied model {} { startPaneKeys := [paneKey] } [(leafId, none)]

/-- `isPaneSleepRecord`: what is no sleep is the resume record of a running agent. -/
def isPaneSleepRecord (record : LayoutSleepingRecord) : Bool :=
  record.member "origin" = .undefined ∨ record.member "origin" = .string "worktree-sleep"

/-- The pane with a record of how its agent resumes, in place of what it held. -/
def LayoutLeaf.withRecord (leaf : LayoutLeaf) (record : Json) : LayoutLeaf :=
  let stored := ((record.withoutMember "paneKey").withoutMember "tabId").withoutMember "worktreeId"
  if isPaneSleepRecord stored then { leaf with sleeping := some stored, resume := none }
  else { leaf with sleeping := none, resume := some stored }

def recordSleep (records : List Json) (workspace : WorkspaceLayout) (pane : String × String) :
    WorkspaceLayout :=
  match records.find? fun record => record.member "paneKey" = .string pane.1 with
  | none => workspace
  | some record =>
    setLeaf workspace pane.2 ((leafOrEmpty workspace pane.2).withRecord record)

/-- Stops the terminals (unless `recordOnly`) and records how to resume each agent. -/
def sleep (command : Sleep) : Applied :=
  let targets := (workspacePanes workspace).filter fun pane =>
    command.paneKeys.all (pane.1 ∈ ·)
  let stopPtyIds :=
    if command.recordOnly then []
    else targets.filterMap fun pane => (leafOrEmpty workspace pane.2).ptyId
  applied
    (withWorkspace model key (targets.foldl (recordSleep command.records) workspace))
    { slept := some (targets.map Prod.fst) } { stopPtyIds := stopPtyIds }

/-- The pane without a record of how its agent resumes. -/
def LayoutLeaf.awake (leaf : LayoutLeaf) : LayoutLeaf :=
  { leaf with sleeping := none, resume := none }

/-- A `recordOnly` wake drops either record; a start wakes only slept panes. -/
def wakes (command : Wake) (pane : String × String) : Bool :=
  let leaf := leafOrEmpty workspace pane.2
  command.paneKeys.all (pane.1 ∈ ·) ∧
    (leaf.sleeping.isSome ∨ (command.recordOnly = true ∧ leaf.resume.isSome))

/-- Start slept panes unless `recordOnly`; the records stay so that a start can be retried. -/
def wake (command : Wake) : Applied :=
  let woken := (workspacePanes workspace).filter (wakes workspace command)
  let paneKeys := woken.map Prod.fst
  if !command.recordOnly then
    applied model { woken := some paneKeys } { startPaneKeys := paneKeys }
  else
    applied
      (withWorkspace model key (woken.foldl
        (fun workspace pane =>
          setLeaf workspace pane.2 (leafOrEmpty workspace pane.2).awake) workspace))
      { woken := some paneKeys }

end OxeeUI.Layout
