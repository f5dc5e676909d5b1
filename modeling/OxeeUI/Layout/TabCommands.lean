import OxeeUI.Layout.CommandSteps
import OxeeUI.Layout.EditorFiles

/-!
# Commands on tabs

Creating a terminal's tab, closing tabs with their pane data and content records, and the
commands that change what a tab shows of itself.
-/

namespace OxeeUI.Layout

open OxeeUI.Library SplitTree

/-! ## The next terminal's number -/

/-- The number in a default title, `/^Terminal (\d+)$/`. -/
def terminalOrdinal (title : String) : Option Nat :=
  match afterStart? "Terminal ".toList title.toList with
  | none => none
  | some digits =>
    if digits ≠ [] ∧ digits.all Char.isDigit then
      some (digits.foldl (fun number digit => number * 10 + (digit.toNat - '0'.toNat)) 0)
    else none

def getNextTerminalOrdinal (workspace : WorkspaceLayout) : Nat :=
  let usedOrdinals := workspace.tabs.filterMap fun tab =>
    tab.terminal?.bind fun terminal => terminal.terminal.defaultTitle.bind terminalOrdinal
  -- One of the first `length + 1` numbers is free.
  ((List.range' 1 (usedOrdinals.length + 1)).find? (· ∉ usedOrdinals)).getD 1

/-- The creation of a new terminal's tab; what the sender chose wins. -/
def newTerminalCreation (workspace : WorkspaceLayout) (creation : LayoutTerminalCreation) :
    LayoutTerminalCreation :=
  { creation with
    defaultTitle := creation.defaultTitle.or
      (some ("Terminal " ++ toString (getNextTerminalOrdinal workspace))) }

/-! ## First surfaces and adoption -/

/-- Require no tabs of any kind; on relaunch, a saved empty terminal row means closed. -/
def admitsInitialSurface (model : WorkspaceLayoutModel) (workspaceKey : String)
    (reason : InitialSurfaceReason) : Bool :=
  (workspaceOrEmpty model workspaceKey).tabs = [] ∧
    (reason = .activation ∨ !model.legacy.terminalRowOwners.has workspaceKey)

/-- The pane of a tab that is bound to a terminal. -/
def heldPaneInTab (workspace : WorkspaceLayout) (ptyId : String) (tab : LayoutTab) :
    Option (LayoutTerminalTab × String) :=
  match tab with
  | .content _ => none
  | .terminal tab =>
    match (leafIdsOf tab).find? fun leafId =>
        (leafOrEmpty workspace leafId).ptyId = some ptyId with
    | none => none
    | some leafId => if leafId = "" then none else some (tab, leafId)

/-- The pane bound to a live terminal, or the unbound one the host recorded for it. -/
def heldPaneOfTerminal (workspace : WorkspaceLayout) (adoption : LiveTerminalAdoption) :
    Option (LayoutTerminalTab × String) :=
  match workspace.tabs.findSome? (heldPaneInTab workspace adoption.ptyId) with
  | some held => some held
  | none =>
    let recorded := (adoption.recordedPaneKey.filter (· ≠ "")).bind (locatePane workspace)
    -- A recorded pane bound since to another terminal shows that one, not this.
    recorded.filter fun pane => (leafOrEmpty workspace pane.2).ptyId.all (· = "")

/-- The pane bound to the adopted terminal, over what it held. -/
def adoptedLeaf (leaf : LayoutLeaf) (adoption : LiveTerminalAdoption) : LayoutLeaf :=
  { leaf with
    ptyId := some adoption.ptyId
    incarnationId := (adoption.incarnationId.filter (· ≠ "")).or leaf.incarnationId }

/-- The pane main already holds for the terminal, bound to it; none when main holds none. -/
def appliedHeldAdoption (model : WorkspaceLayoutModel) (key : String)
    (adoption : LiveTerminalAdoption) : Option Applied :=
  match model.workspaces.get? key with
  | none => none
  | some workspace =>
    match heldPaneOfTerminal workspace adoption with
    | none => none
    | some (tab, leafId) =>
      let held : LayoutCommandResult :=
        { tabId := some tab.id, leafId := some leafId,
          paneKey := some (paneKeyOf tab.entityId leafId) }
      let leaf := leafOrEmpty workspace leafId
      if leaf.ptyId = some adoption.ptyId then some (applied model held)
      else
        some (applied
          (withWorkspace model key (setLeaf workspace leafId (adoptedLeaf leaf adoption))) held)

/-! ## Creating -/

variable (ownerIsMain : Bool)

def createTerminalTab (model : WorkspaceLayoutModel) (key : String)
    (command : CreateTerminalTab) (context : LayoutContext) : Applied :=
  if command.initial.any fun reason => !admitsInitialSurface model key reason then applied model
  else
    match command.adopt.bind (appliedHeldAdoption model key) with
    | some held => held
    | none =>
      let workspace := workspaceOrEmpty model key
      let id := command.tabId.getD (context.mintId .tab)
      let leafId := command.leafId.getD context.mintLeafId
      let tab : LayoutTerminalTab :=
        { id := id
          entityId := id
          createdAt := command.createdAt.getD context.now
          customTitle := command.title
          generatedTitle := none
          aiVaultTitle := .undefined
          quickCommandLabel := (command.quickCommandLabel.filter (· ≠ "")).map some
          color := command.color
          isPinned := none
          viewMode := command.viewMode
          isPreview := none
          agentSessionAgent := none
          terminal := newTerminalCreation workspace command.creation
          panes := ⟨some (.leaf leafId), none⟩ }
      let placed := placeNewTab ownerIsMain workspace key (.terminal tab)
        ⟨command.groupId, command.afterTabId, command.index⟩ context
      let paneKey := paneKeyOf id leafId
      let result : LayoutCommandResult :=
        { tabId := some id, leafId := some leafId, paneKey := some paneKey }
      match command.adopt with
      | some adoption =>
        -- Its terminal already runs: the pane binds to it and nothing starts.
        let leaves := placed.leaves.set leafId (adoptedLeaf .empty adoption)
        applied (withWorkspace model key { placed with leaves := leaves }) result
      | none =>
        applied (withWorkspace model key placed) result { startPaneKeys := [paneKey] }

/-! ## Closing -/

/-- The file records left when an editor's tab closed. -/
def editorFilesAfterClose (workspace next : WorkspaceLayout) (tab : LayoutTab) :
    Option (List LayoutEditorFile) :=
  if tab.contentKind = some .editor ∧ tab.entityId ∉ next.tabs.map LayoutTab.entityId then
    next.editorFiles.map fun files => files.filter fun file =>
      if ownerIsMain then
        keptAfterEditorClose ownerIsMain workspace.editors (next.tabs.map LayoutTab.entityId)
          tab.entityId file
      else !editorTabShowsFile ownerIsMain tab.entityId file next.worktreeId
  else next.editorFiles

def browserTabsAfterClose (next : WorkspaceLayout) (tab : LayoutTab) :
    Option (List LayoutBrowserTab) :=
  if tab.contentKind = some .browser then
    next.browserTabs.map fun tabs => tabs.filter fun entry => entry.id ≠ tab.entityId
  else next.browserTabs

/-- Removes a tab and its content record; a terminal tab's pane data goes with it. -/
def closeTab (workspace : WorkspaceLayout) (tab : LayoutTab) : WorkspaceLayout :=
  let next := removeTabFromWorkspace workspace tab.id
  { next with
    leaves := next.leaves.filter fun leafId _ => leafId ∉ tab.leafIds
    editorFiles := editorFilesAfterClose ownerIsMain workspace next tab
    editorViews := next.editorViews.delete tab.id
    browserTabs := browserTabsAfterClose next tab }

structure Closing where
  workspace : WorkspaceLayout
  closed : List String
  recorded : List String
  refused : List RefusedClose
  stopPtyIds : List String

def closeNextTab (command : CloseTabs) (closing : Closing) (tabId : String) : Closing :=
  match findTab closing.workspace tabId with
  | none =>
    { closing with
      closed := closing.closed ++ [tabId]
      recorded := closing.recorded ++ [tabId] }
  | some tab =>
    if !command.force ∧ command.refusePinned ∧ tab.fields.isPinned = some true then
      { closing with refused := closing.refused ++ [⟨tabId, .tabPinned⟩] }
    else if !command.force ∧ tabId ∈ command.dirtyTabIds then
      { closing with refused := closing.refused ++ [⟨tabId, .editorTabHasUnsavedDraft⟩] }
    else
      { workspace := closeTab ownerIsMain closing.workspace tab
        closed := closing.closed ++ [tabId]
        recorded := closing.recorded ++ (tab.terminal?.map (·.entityId)).toList
        refused := closing.refused
        stopPtyIds := closing.stopPtyIds ++ boundPtyIds closing.workspace tab }

/-- A batch of closes; a tab that is already gone counts as closed. -/
def closeAll (command : CloseTabs) (workspace : WorkspaceLayout) : Closing :=
  command.tabIds.foldl (closeNextTab ownerIsMain command) ⟨workspace, [], [], [], []⟩

def recordClosedTerminalTabs (workspace : WorkspaceLayout) (tabIds : List String)
    (record : LayoutClosedTab) : WorkspaceLayout :=
  { workspace with
    closedTerminalTabs :=
      tabIds.foldl (fun closed tabId => closed.set tabId record) workspace.closedTerminalTabs }

def CloseReason.text : CloseReason → String
  | .user => "user"
  | .cleanup => "cleanup"

def closeTabs (model : WorkspaceLayoutModel) (key : String) (workspace : WorkspaceLayout)
    (command : CloseTabs) (context : LayoutContext) : Applied :=
  let closing := closeAll ownerIsMain command workspace
  let next :=
    match command.recordClose with
    | none => closing.workspace
    | some reason =>
      if closing.recorded = [] then closing.workspace
      else
        recordClosedTerminalTabs closing.workspace closing.recorded
          ⟨context.now, some reason.text⟩
  applied (withWorkspace model key next)
    { closed := some closing.closed, refused := some closing.refused }
    { stopPtyIds := closing.stopPtyIds }

/-! ## Titles and properties -/

/-- Whether the tab is still the agent session a rename was meant for. -/
def isExpectedTab (hostId : String) (tab : LayoutTab) (expected : ExpectedTitle) : Bool :=
  tab.contentKind = some .agentSession ∧ tab.entityId = expected.entityId ∧
    hostId = expected.executionHostId ∧ tab.fields.customTitle = some expected.customTitle

def renameTab (model : WorkspaceLayoutModel) (key : String) (workspace : WorkspaceLayout)
    (tabId : String) (title : TabTitle) : Applied :=
  match findTab workspace tabId with
  | none => refuse .tabNotFound
  | some tab =>
    match title with
    | .aiVault title =>
      updateTab model key workspace (tab.withFields { tab.fields with aiVaultTitle := title })
    | .custom title expected =>
      if expected.any fun expected => !isExpectedTab model.hostId tab expected then
        refuse .tabNotFound
      else
        updateTab model key workspace (tab.withFields { tab.fields with customTitle := title })
    | .generated title replaceExisting =>
      -- An agent's later prompt does not rename the tab.
      let titled := tab.fields.generatedTitle.join.any fun title =>
        trimWhiteSpace title.toList ≠ []
      if titled ∧ !replaceExisting then refuse .generatedTitleKept
      else
        updateTab model key workspace
          (tab.withFields { tab.fields with generatedTitle := some title })

def withTabProps (command : SetTabProps) (tab : LayoutTab) : LayoutTab :=
  let changed := tab.withFields
    { tab.fields with
      color := command.color.getD tab.fields.color
      isPinned := command.isPinned.or tab.fields.isPinned
      viewMode := command.viewMode.or tab.fields.viewMode }
  match changed with
  | .content tab => .content tab
  | .terminal tab =>
    if command.clearLaunchAgent then
      .terminal { tab with terminal := { tab.terminal with launchAgent := none } }
    else .terminal tab

def setTabProps (model : WorkspaceLayoutModel) (key : String) (workspace : WorkspaceLayout)
    (command : SetTabProps) : Applied :=
  match findTab workspace command.tabId with
  | none => refuse .tabNotFound
  | some tab =>
    if command.clearLaunchAgent ∧ tab.contentKind.isSome then refuse .invalidParams
    else
      let updated := replaceTab workspace (withTabProps command tab)
      let repinned :=
        command.isPinned.any fun isPinned =>
          isPinned ≠ decide (tab.fields.isPinned = some true)
      if !repinned then applied (withWorkspace model key updated)
      else
        -- Pinning moves the tab to the edge of the pinned run, as the tab bar does.
        applied (withWorkspace model key
          { updated with
            groups := updated.groups.map fun group =>
              if tab.id ∈ group.tabOrder then
                { group with
                  tabOrder := partitionPinnedTabOrder group.tabOrder updated.tabs tab.id }
              else group })

def setChatPane (model : WorkspaceLayoutModel) (key : String) (workspace : WorkspaceLayout)
    (command : SetChatPane) : Applied :=
  match findTerminal workspace command.tabId with
  | none => refuse .tabNotFound
  | some tab =>
    if command.leafId.any fun leafId => !layoutContainsLeafId tab.panes.root leafId then
      refuse .paneNotFound
    else
      updateTab model key workspace
        (.terminal { tab with panes := ⟨tab.panes.root, command.leafId⟩ })

def promoted (tab : LayoutTab) : LayoutTab :=
  tab.withFields { tab.fields with isPreview := none }

def promotePreviewTab (model : WorkspaceLayoutModel) (key : String)
    (workspace : WorkspaceLayout) (tabId : String) : Applied :=
  match findTab workspace tabId with
  | none => refuse .tabNotFound
  | some tab => updateTab model key workspace (promoted tab)

/-! ## Content tabs -/

structure ContentPlacement extends TabPlacement where
  dirtyTabIds : List String

def replacedPreview (workspace : WorkspaceLayout) (tab : LayoutContentTab)
    (group : Option LayoutGroup) : Option LayoutTab :=
  if tab.isPreview = some true then
    workspace.tabs.find? fun entry =>
      entry.fields.isPreview = some true ∧ (group.any fun group => entry.id ∈ group.tabOrder) ∧
        canReplacePreviewContentType tab.kind entry.contentKind
  else none

/-- Place the new tab before closing its compatible preview so the group survives. -/
def placeContentTab (workspace : WorkspaceLayout) (key : String) (tab : LayoutContentTab)
    (placement : ContentPlacement) (context : LayoutContext) :
    WorkspaceLayout × List RefusedClose :=
  -- A host's open names no group; a window's names one from main's own frame.
  let group := (workspace.groups.find? fun entry => placement.groupId = some entry.id).or
    workspace.groups.head?
  let placed := placeNewTab ownerIsMain workspace key (.content tab)
    ⟨(group.map LayoutGroup.id).or placement.groupId, placement.afterTabId, placement.index⟩
    context
  match replacedPreview workspace tab group with
  | none => (placed, [])
  | some preview =>
    let closing := closeAll ownerIsMain
      ⟨[preview.id], false, false, placement.dirtyTabIds, none⟩ placed
    (closing.workspace, closing.refused)

end OxeeUI.Layout
