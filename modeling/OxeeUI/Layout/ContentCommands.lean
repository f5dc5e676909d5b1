import OxeeUI.Layout.PaneCommands

/-!
# Commands on groups and on content tabs

Moving tabs between groups, splitting a group with its first tab, and opening editors,
browsers, chats and simulators, each into a group its sender named or beside one.
-/

namespace OxeeUI.Layout

open OxeeUI.Library SplitTree

variable (ownerIsMain : Bool) (model : WorkspaceLayoutModel) (key : String)

/-! ## Groups -/

def sourceGroupOf (workspace : WorkspaceLayout) (tabId : String) : Option LayoutGroup :=
  (findTab workspace tabId).bind fun _ => workspace.groups.find? (tabId ∈ ·.tabOrder)

/-- `EDITOR_KINDS`. -/
def isEditorKind (tab : LayoutTab) : Bool :=
  tab.contentKind.any isReplaceablePreviewContentType

/-- A layout-owner group shows only one tab per file and kind. -/
def groupShowsTabFile (workspace : WorkspaceLayout) (groupId : String) (tab : LayoutTab) : Bool :=
  ownerIsMain ∧ isEditorKind tab ∧
    (workspace.groups.find? (·.id = groupId)).any fun group =>
      group.tabOrder.any fun id =>
        id ≠ tab.id ∧ (findTab workspace id).any fun other =>
          other.contentKind = tab.contentKind ∧ other.entityId = tab.entityId

/-- The anchor's slot when it is in the target group (without the moved tab), else `index`. -/
def anchoredMoveIndex (targetOrder : List String) (command : MoveTab) : Int :=
  match command.afterTabId with
  | some none => 0
  | none => command.index
  | some (some afterTabId) =>
    match targetOrder.idxOf? afterTabId with
    | none => command.index
    | some position => position + 1

/-- Apply the moved pin at the requested slot without re-sorting pinned tabs. -/
def withMovedPin (workspace : WorkspaceLayout) (command : MoveTab) : WorkspaceLayout :=
  match command.isPinned with
  | none => workspace
  | some isPinned =>
    { workspace with
      tabs := workspace.tabs.map fun tab =>
        if tab.id = command.tabId then
          tab.withFields { tab.fields with isPinned := some isPinned }
        else tab }

def moveTab (workspace : WorkspaceLayout) (command : MoveTab) : Applied :=
  match sourceGroupOf workspace command.tabId with
  | none => refuse .tabNotFound
  | some source =>
    match workspace.groups.find? (·.id = command.toGroupId) with
    | none => refuse .groupNotFound
    | some target =>
      let index := anchoredMoveIndex (target.tabOrder.filter (· ≠ command.tabId)) command
      if source.id = command.toGroupId then
        let tabOrder := insertTabAt source.tabOrder command.tabId index
        let groups := workspace.groups.map fun group =>
          if group.id = source.id then { group with tabOrder := tabOrder } else group
        applied (withWorkspace model key (withMovedPin { workspace with groups := groups } command))
      else if (findTab workspace command.tabId).any
          (groupShowsTabFile ownerIsMain workspace command.toGroupId) then
        refuse .tabExists
      else
        match buildHeadlessTabGroupMove
          ⟨workspace.groups, workspace.groupLayout, command.tabId, command.toGroupId, index⟩
        with
        | none => refuse .invalidParams
        | some moved =>
          applied (withWorkspace model key
            (withMovedPin { workspace with groups := moved.1, groupLayout := moved.2 } command))

def splitGroup (workspace : WorkspaceLayout) (command : SplitGroup) (context : LayoutContext) :
    Applied :=
  match sourceGroupOf workspace command.tabId with
  | none => refuse .tabNotFound
  | some source =>
    if !workspace.groups.any (·.id = command.besideGroupId) then refuse .groupNotFound
    else if source.tabOrder.length = 1 ∧ source.id ≠ command.besideGroupId then
      -- Moving a group's sole tab beside another group preserves the source group id.
      let groupLayout := moveGroupLeafBeside (workspace.groupLayout.getD (.leaf source.id))
        source.id command.besideGroupId command.direction
      applied (withWorkspace model key { workspace with groupLayout := some groupLayout })
        { groupId := some source.id }
    else
      let newGroupId := context.mintId .group
      match buildHeadlessTabGroupSplit ⟨workspace.groups, workspace.groupLayout,
        command.tabId, command.besideGroupId, command.direction, newGroupId⟩ with
      | none => refuse .invalidParams
      | some divided =>
        applied (withWorkspace model key
          { workspace with groups := divided.1, groupLayout := some divided.2 })
          { groupId := some newGroupId }

def setGroupRatios (workspace : WorkspaceLayout) (command : SetGroupRatios) : Applied :=
  let current := workspace.groupLayout.or
    (workspace.groups.head?.map fun first => .leaf first.id)
  let groupLayout := current.bind fun current =>
    match command.ratios with
    | some ratios => withGroupSplitRatios current ratios
    | none => command.groupLayout.filter (sameGroupsIgnoringRatios current)
  match groupLayout with
  | none => refuse .groupSetChanged
  | some groupLayout =>
    applied (withWorkspace model key { workspace with groupLayout := some groupLayout })

/-- What `openInNewGroup` reads of an open. -/
structure NewGroupOpen where
  tabId : Option String
  groupId : Option String
  split : Option NewGroupSplit

def holdsTab (tabId : String) : Bool :=
  model.workspaces.values.any fun workspace => workspace.tabs.any (·.id = tabId)

def holdsGroup (groupId : String) : Bool :=
  model.workspaces.values.any fun workspace => workspace.groups.any (·.id = groupId)

/-- The workspace with an empty group beside the split's target; none to refuse. -/
def besideNewGroup (workspace : WorkspaceLayout) (groupId : String) (split : NewGroupSplit) :
    Except LayoutRefusalCode WorkspaceLayout :=
  let lastGroupId := split.besideLastGroupId.getD split.besideGroupId
  let besideHeld := [split.besideGroupId, lastGroupId].all fun id =>
    workspace.groups.any (·.id = id)
  let groups := workspace.groups ++ [⟨groupId, []⟩]
  if besideHeld then
    match moveGroupLeafBesideBranch (workspace.groupLayout.getD (.leaf split.besideGroupId))
      groupId split.besideGroupId lastGroupId split.direction with
    | none => .error .invalidParams
    | some groupLayout =>
      .ok { workspace with groups := groups, groupLayout := some groupLayout }
  -- A missing split target is valid only when the window split off main's emptied root.
  else if workspace.groups ≠ [] then .error .groupNotFound
  else .ok { workspace with groups := groups }

/-- Open into the named group, or create it beside the split target atomically. -/
def openInNewGroup (command : NewGroupOpen) (openTab : WorkspaceLayoutModel → Applied) :
    Applied :=
  match command.split with
  | none => openTab model
  | some beside =>
    -- Let the open handle repeated or occupied tab ids.
    if command.tabId.any fun tabId => tabId ≠ "" ∧ holdsTab model tabId then openTab model
    else
      match command.groupId.filter (· ≠ "") with
      | none => refuse .invalidParams
      | some groupId =>
        let workspace := workspaceOrEmpty model key
        -- A group main still holds may be absent from the window's view.
        if workspace.groups.any (·.id = groupId) then openTab model
        else if holdsGroup model groupId then refuse .groupExists
        else
          match besideNewGroup workspace groupId beside with
          | .error code => refuse code
          | .ok withGroup =>
            match openTab (withWorkspace model key withGroup) with
            | .error code => refuse code
            | .ok opened =>
              let filled := (workspaceOrEmpty opened.model key).groups.any fun group =>
                group.id = groupId ∧ group.tabOrder ≠ []
              -- An open that places no tab must not leave an empty group.
              if filled then .ok opened else applied model opened.result

/-! ## Opening content tabs -/

def contentTab (id entityId : String) (kind : ContentKind) (createdAt : Int) :
    LayoutContentTab where
  id := id
  entityId := entityId
  createdAt := createdAt
  customTitle := none
  generatedTitle := none
  aiVaultTitle := .undefined
  quickCommandLabel := none
  color := none
  isPinned := none
  viewMode := none
  isPreview := none
  agentSessionAgent := none
  kind := kind

/-- Resent drawn opens are idempotent; `refuseTaken` rejects ids held by another tab. -/
def drawnTabOpen (tabId : Option String) (sameContent : LayoutTab → Bool)
    (refuseTaken : Bool) : Option Applied :=
  match tabId.filter (· ≠ "") with
  | none => none
  | some tabId =>
    match (findTab (workspaceOrEmpty model key) tabId).filter sameContent with
    | some drawn => some (applied model { tabId := some drawn.id })
    | none => if refuseTaken ∧ holdsTab model tabId then some (refuse .tabExists) else none

/-- A workspace with no group takes the sender's, as the window keeps its emptied root group. -/
def withSendersGroup (workspace : WorkspaceLayout) (groupId : Option String) : WorkspaceLayout :=
  match groupId.filter (· ≠ "") with
  | none => workspace
  | some groupId =>
    if workspace.groups ≠ [] then workspace
    else { workspace with groups := [⟨groupId, []⟩] }

/-- Whether the open names a group that its workspace, which has some, does not hold. -/
def namesMissingGroup (workspace : WorkspaceLayout) (groupId : Option String) : Bool :=
  groupId.any fun groupId =>
    groupId ≠ "" ∧ workspace.groups ≠ [] ∧ !workspace.groups.any (·.id = groupId)

def withEditorFile (workspace : WorkspaceLayout) (file : Option LayoutEditorFile) :
    WorkspaceLayout :=
  match file with
  | none => workspace
  | some file =>
    let files := (workspace.editorFiles.getD []).filter fun entry =>
      !sameEditorFile ownerIsMain entry file
    { workspace with editorFiles := some (files ++ [file]) }

def withEditorView (workspace : WorkspaceLayout) (tabId : String) (view : Option JsValue) :
    WorkspaceLayout :=
  match view with
  | none => workspace
  | some view => { workspace with editorViews := workspace.editorViews.set tabId view }

def withOpened (workspace : WorkspaceLayout) (command : OpenEditorTab) (tabId : String) :
    WorkspaceLayout :=
  withEditorView (withEditorFile ownerIsMain workspace command.file) tabId command.view

/-- The id of the opened file: the sender's, else the one its record has or would have. -/
def openedFileId (workspace : WorkspaceLayout) (command : OpenEditorTab) : Option String :=
  (command.fileId.or (command.file.map (editorOpenFileId ownerIsMain workspace.editors
    ((workspace.tabs.filter fun tab => tab.contentKind = some .editor).map
      LayoutTab.entityId)))).filter (· ≠ "")

def openEditorTab (command : OpenEditorTab) (context : LayoutContext) : Applied :=
  let workspace := workspaceOrEmpty model key
  match openedFileId ownerIsMain workspace command with
  | none => refuse .invalidParams
  | some fileId =>
    let sameFile := fun tab : LayoutTab =>
      decide (tab.entityId = fileId ∧ tab.contentKind = some command.contentType)
    match drawnTabOpen model key command.tabId sameFile true with
    | some (.error code) => refuse code
    | some (.ok drawn) =>
      -- The same tab sent again: an open that rewrote its record or view updates both.
      applied (withWorkspace model key
        (withOpened ownerIsMain workspace command (command.tabId.getD ""))) drawn.result
    | none =>
      if namesMissingGroup workspace command.groupId then refuse .groupNotFound
      else
        let target := withSendersGroup workspace command.groupId
        let group := (target.groups.find? fun entry => command.groupId = some entry.id).or
          target.groups.head?
        match workspace.tabs.find? fun tab =>
            sameFile tab ∧ (group.any fun group => tab.id ∈ group.tabOrder) with
        | some existing =>
          let pinned :=
            if existing.fields.isPreview = some true ∧ !command.preview then
              replaceTab workspace (promoted existing)
            else workspace
          applied (withWorkspace model key
            (withOpened ownerIsMain pinned command existing.id))
            { tabId := some existing.id }
        | none =>
          let tab : LayoutContentTab :=
            { contentTab ((command.tabId.filter (· ≠ "")).getD (context.mintId .tab)) fileId
                command.contentType (command.createdAt.getD context.now) with
              isPreview := if command.preview then some true else none }
          let placed := placeContentTab ownerIsMain target key tab
            ⟨⟨command.groupId, none, command.index⟩, command.dirtyTabIds⟩ context
          applied (withWorkspace model key (withOpened ownerIsMain placed.1 command tab.id))
            { tabId := some tab.id, refused := some placed.2 }

def holdsBrowserPage (pageId : String) : Bool :=
  model.workspaces.values.any fun workspace =>
    (workspace.browserTabs.getD []).any fun entry => entry.pageIds.any (pageId ∈ ·)

/-- Resent drawn opens are idempotent; ids held by another tab or page are refused. -/
def takenBrowserTabIds (tabId browserTabId pageId : String) : Option Applied :=
  let own := workspaceOrEmpty model key
  let record := (own.browserTabs.getD []).find? (·.id = browserTabId)
  if (record.any fun record => record.pageIds.any (pageId ∈ ·)) ∧
      own.tabs.any (fun tab => tab.id = tabId ∧ tab.entityId = browserTabId) then
    some (applied model { tabId := some tabId, pageId := some pageId })
  else if model.workspaces.values.any fun workspace => workspace.tabs.any fun tab =>
      [tab.id, tab.entityId].any fun id => id = tabId ∨ id = browserTabId then
    some (refuse .tabExists)
  else if holdsBrowserPage model pageId then some (refuse .pageExists)
  else none

def openBrowserTab (command : OpenBrowserTab) (context : LayoutContext) : Applied :=
  -- A host's tab is named by its page; a window names its tab-bar entry and record itself.
  let browserTabId := (command.browserTabId.or command.pageId).getD (context.mintId .browserTab)
  let tabId := command.tabId.getD browserTabId
  let pageId := command.pageId.getD (context.mintId .browserPage)
  -- Only a window's open names its record; a host's is checked against its saved pages first.
  let taken :=
    if command.browserTabId.any (· ≠ "") then
      takenBrowserTabIds model key tabId browserTabId pageId
    else none
  match taken with
  | some taken => taken
  | none =>
    let tab := contentTab tabId browserTabId .browser (command.createdAt.getD context.now)
    let next := (placeContentTab ownerIsMain (workspaceOrEmpty model key) key tab
      ⟨⟨command.groupId, command.afterTabId, command.index⟩, []⟩ context).1
    let browserTab : LayoutBrowserTab :=
      { id := browserTabId
        label := none
        sessionProfileId := some command.profileId
        sessionPartition := (command.sessionPartition.filter (· ≠ "")).map some
        pageIds := some [pageId]
        createdAt := command.browserCreatedAt.getD tab.createdAt }
    applied (withWorkspace model key
      { next with browserTabs := some (next.browserTabs.getD [] ++ [browserTab]) })
      { tabId := some tab.id, pageId := some pageId }

def openAgentSessionTab (command : OpenAgentSessionTab) (context : LayoutContext) : Applied :=
  if command.initial.any fun reason => !admitsInitialSurface model key reason then applied model
  else
    -- Shipped builds still save a chat tab whose id another tab holds.
    match drawnTabOpen model key command.tabId
      (fun tab => tab.contentKind = some .agentSession ∧ tab.entityId = command.sessionId)
      ownerIsMain with
    | some drawn => drawn
    | none =>
      let tab : LayoutContentTab :=
        { contentTab ((command.tabId.filter (· ≠ "")).getD (context.mintId .tab))
            command.sessionId .agentSession (command.createdAt.getD context.now) with
          agentSessionAgent := some command.agent }
      let target := withSendersGroup (workspaceOrEmpty model key) command.groupId
      applied (withWorkspace model key (placeContentTab ownerIsMain target key tab
        ⟨⟨command.groupId, command.afterTabId, command.index⟩, []⟩ context).1)
        { tabId := some tab.id }

def openSimulatorTab (command : OpenSimulatorTab) (context : LayoutContext) : Applied :=
  -- Only a layout-owner window sends this command, so a taken id is always refused.
  match drawnTabOpen model key (some command.tabId)
    (fun tab => tab.contentKind = some .simulator) true with
  | some drawn => drawn
  | none =>
    let workspace := workspaceOrEmpty model key
    if namesMissingGroup workspace command.groupId then refuse .groupNotFound
    else
      let tab := contentTab command.tabId command.tabId .simulator
        (command.createdAt.getD context.now)
      let target := withSendersGroup workspace command.groupId
      applied (withWorkspace model key (placeContentTab ownerIsMain target key tab
        ⟨⟨command.groupId, command.afterTabId, command.index⟩, []⟩ context).1)
        { tabId := some tab.id }

/-! ## Browser records -/

/-- Change one browser record; a refused change leaves the model as it is. -/
def withRecord (workspace : WorkspaceLayout) (browserTabId : String)
    (change : LayoutBrowserTab → Except LayoutRefusalCode LayoutBrowserTab) : Applied :=
  let records := workspace.browserTabs.getD []
  match records.find? (·.id = browserTabId) with
  | none => refuse .tabNotFound
  | some record =>
    match change record with
    | .error code => refuse code
    | .ok next =>
      applied (withWorkspace model key
        { workspace with
          browserTabs := some (modifyAt LayoutBrowserTab.id (fun _ => next) browserTabId records) })
        { tabId := some browserTabId }

def withPageIds (workspace : WorkspaceLayout) (browserTabId : String)
    (change : List String → Except LayoutRefusalCode (List String)) : Applied :=
  withRecord model key workspace browserTabId fun record =>
    (change (record.pageIds.getD [])).map fun pageIds => { record with pageIds := some pageIds }

/-- Repeated page opens are idempotent; refuse pages held by another tab. -/
def openBrowserPage (workspace : WorkspaceLayout) (command : BrowserPage) : Applied :=
  withPageIds model key workspace command.browserTabId fun pageIds =>
    if command.pageId ∈ pageIds then .ok pageIds
    else if holdsBrowserPage model command.pageId then .error .pageExists
    else .ok (pageIds ++ [command.pageId])

def closeBrowserPage (workspace : WorkspaceLayout) (command : BrowserPage) : Applied :=
  withPageIds model key workspace command.browserTabId fun pageIds =>
    .ok (pageIds.filter (· ≠ command.pageId))

def replaceBrowserPage (workspace : WorkspaceLayout) (command : ReplaceBrowserPage) : Applied :=
  withPageIds model key workspace command.browserTabId fun pageIds =>
    if command.newPageId ∈ pageIds then .ok pageIds
    else if holdsBrowserPage model command.newPageId then .error .pageExists
    else if command.pageId ∈ pageIds then
      .ok (pageIds.map fun id => if id = command.pageId then command.newPageId else id)
    else .ok (pageIds ++ [command.newPageId])

def setBrowserTabProfile (workspace : WorkspaceLayout) (command : SetBrowserTabProfile) :
    Applied :=
  withRecord model key workspace command.browserTabId fun record =>
    .ok { record with
      sessionProfileId := some command.profileId
      sessionPartition := some command.sessionPartition }

end OxeeUI.Layout
