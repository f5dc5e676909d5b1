import OxeeUI.Layout.CommandTypes

/-!
# Ids derived from names

Missing and repeated ids are derived from stable seeds, so that reloading never
remounts what did not change.
-/

namespace OxeeUI.Layout

open OxeeUI.Library

/-- One lane of FNV-1a over the code units of a name, in 32 bits. -/
def nameLane (name : List Nat) (start : Nat) : Nat :=
  name.foldl (fun hash unit => (hash ^^^ unit) * 0x01000193 % 2 ^ 32) start

/-- Four lanes with different offsets: 128 stable bits, not a secret. -/
def nameBits (name : List Nat) : List Nat :=
  [nameLane name (0x811c9dc5 ^^^ 0), nameLane name (0x01000193 ^^^ 1),
    nameLane name (0x9e3779b9 ^^^ 2), nameLane name (0x85ebca6b ^^^ 3)]

/-- A UUID (version 5 layout) that depends only on the name. -/
def nameBasedUuid (name : String) : String :=
  let bits := nameBits (charCodes name.toList)
  let hex := bits.flatMap (hexPadded 8)
  let variant := Nat.digitChar ((bits.getD 2 0 / 16 ^ 7 % 4) ||| 8)
  let part := fun (start length : Nat) => (hex.drop start).take length
  String.ofList (part 0 8 ++ '-' :: part 8 4 ++ '-' :: '5' :: part 13 3 ++ '-' ::
    variant :: part 17 3 ++ '-' :: part 20 12)

def rootGroupSeed (workspaceKey : String) : String := "group:" ++ workspaceKey

/-- Matches the loader's root group id when a window creates the group. -/
def workspaceRootGroupId (workspaceKey : String) : String :=
  nameBasedUuid (rootGroupSeed workspaceKey)

end OxeeUI.Layout

/-!
## The steps commands are made of

Finding tabs and panes, replacing and placing a tab, writing and dropping the data of a
pane, and closing a tab with the group that listed nothing else.
-/

namespace OxeeUI.Layout

open OxeeUI.Library SplitTree

def refuse (code : LayoutRefusalCode) : Applied := .error code

def applied (model : WorkspaceLayoutModel) (result : LayoutCommandResult := {})
    (effects : LayoutEffects := {}) (outcomes : List (String × Option PaneOutcome) := []) :
    Applied :=
  .ok ⟨model, result, effects, outcomes⟩

/-! ## Workspaces and tabs -/

/-- Create a missing workspace entry using its worktree id. -/
def workspaceOrEmpty (model : WorkspaceLayoutModel) (key : String) : WorkspaceLayout :=
  (model.workspaces.get? key).getD (.empty key)

def withWorkspace (model : WorkspaceLayoutModel) (workspaceKey : String)
    (workspace : WorkspaceLayout) : WorkspaceLayoutModel :=
  { model with workspaces := model.workspaces.set workspaceKey workspace }

def findTab (workspace : WorkspaceLayout) (tabId : String) : Option LayoutTab :=
  workspace.tabs.find? fun tab => tab.id = tabId

def findTerminal (workspace : WorkspaceLayout) (tabId : String) : Option LayoutTerminalTab :=
  (findTab workspace tabId).bind LayoutTab.terminal?

def replaceTab (workspace : WorkspaceLayout) (tab : LayoutTab) : WorkspaceLayout :=
  { workspace with
    tabs := workspace.tabs.map fun entry => if entry.id = tab.id then tab else entry }

def updateTab (model : WorkspaceLayoutModel) (key : String) (workspace : WorkspaceLayout)
    (tab : LayoutTab) (result : LayoutCommandResult := {}) : Applied :=
  applied (withWorkspace model key (replaceTab workspace tab)) result

/-! ## Panes -/

def boundPtyIds (workspace : WorkspaceLayout) (tab : LayoutTab) : List String :=
  tab.leafIds.filterMap fun leafId => (workspace.leaf? leafId).bind LayoutLeaf.ptyId

/-- The data of a pane, `{}` when there is none. -/
def leafOrEmpty (workspace : WorkspaceLayout) (leafId : String) : LayoutLeaf :=
  (workspace.leaf? leafId).getD .empty

def setLeaf (workspace : WorkspaceLayout) (leafId : String) (leaf : LayoutLeaf) :
    WorkspaceLayout :=
  { workspace with
    leaves :=
      if leaf = .empty then workspace.leaves.delete leafId
      else workspace.leaves.set leafId leaf }

def locatePaneInTab (paneKey : String) (tab : LayoutTab) :
    Option (LayoutTerminalTab × String) :=
  match tab with
  | .content _ => none
  | .terminal tab =>
    match (leafIdsOf tab).find? fun leafId => paneKeyOf tab.entityId leafId = paneKey with
    | none => none
    | some leafId => if leafId = "" then none else some (tab, leafId)

def locatePane (workspace : WorkspaceLayout) (paneKey : String) :
    Option (LayoutTerminalTab × String) :=
  workspace.tabs.findSome? (locatePaneInTab paneKey)

/-! ## Placing a tab -/

/-- Owner builds reuse the sender's empty group or the loader's root id. -/
def firstGroupId (ownerIsMain : Bool) (key : String) (placement : TabPlacement)
    (context : LayoutContext) : String :=
  if ownerIsMain then placement.groupId.getD (workspaceRootGroupId key)
  else context.mintId .group

def anchorGroup (groups : List LayoutGroup) (placement : TabPlacement) : Option LayoutGroup :=
  match placement.afterTabId with
  | none => none
  | some afterTabId => if afterTabId = "" then none else groups.find? (afterTabId ∈ ·.tabOrder)

/-- The named group, the anchor's group, or the first one. -/
def placementGroup (groups : List LayoutGroup) (placement : TabPlacement) : Option LayoutGroup :=
  (groups.find? fun group => placement.groupId = some group.id).or
    ((anchorGroup groups placement).or groups.head?)

def placedOrder (workspace : WorkspaceLayout) (tab : LayoutTab) (placement : TabPlacement)
    (group : LayoutGroup) : List String :=
  match placement.index with
  | some index => insertTabAt group.tabOrder tab.id index
  | none =>
    let anchor :=
      if anchorGroup workspace.groups placement = some group then placement.afterTabId else none
    insertTabIdIntoOrder group.tabOrder (workspace.tabs ++ [tab]) tab.id
      (tab.fields.isPinned = some true) anchor

/-- Place in a named group, the anchor's or the first one, created when there is none. -/
def placeNewTab (ownerIsMain : Bool) (workspace : WorkspaceLayout) (key : String)
    (tab : LayoutTab) (placement : TabPlacement) (context : LayoutContext) : WorkspaceLayout :=
  match placementGroup workspace.groups placement with
  | none =>
    let created : LayoutGroup := ⟨firstGroupId ownerIsMain key placement context, []⟩
    { workspace with
      tabs := workspace.tabs ++ [tab]
      groups := workspace.groups ++
        [{ created with tabOrder := placedOrder workspace tab placement created }] }
  | some group =>
    let placed := { group with tabOrder := placedOrder workspace tab placement group }
    { workspace with
      tabs := workspace.tabs ++ [tab]
      groups := workspace.groups.map fun entry => if entry.id = placed.id then placed else entry }

/-! ## Removing -/

/-- The groups without a tab, and the tree without those that listed nothing else. -/
def withoutTabInGroups (tabId : String) :
    List LayoutGroup → Option TabGroupLayoutNode → List LayoutGroup × Option TabGroupLayoutNode
  | [], layout => ([], layout)
  | group :: rest, layout =>
    if tabId ∈ group.tabOrder then
      let kept := group.without tabId
      if kept.tabOrder = [] then
        withoutTabInGroups tabId rest (layout.bind (removeGroupLayoutLeaf · group.id))
      else
        let others := withoutTabInGroups tabId rest layout
        (kept :: others.1, others.2)
    else
      let others := withoutTabInGroups tabId rest layout
      (group :: others.1, others.2)

/-- Close emptied groups, including the last, to match persisted layout. -/
def removeTabFromWorkspace (workspace : WorkspaceLayout) (tabId : String) : WorkspaceLayout :=
  let pruned := withoutTabInGroups tabId workspace.groups workspace.groupLayout
  { workspace with
    tabs := workspace.tabs.filter fun tab => tab.id ≠ tabId
    groups := pruned.1
    groupLayout := pruned.2 }

/-- The chat pane, unless it is the one that goes. -/
def chatWithout (chatLeafId : Option String) (leafId : String) : Option String :=
  if chatLeafId = some leafId then none else chatLeafId

/-- Removes one pane and its data; a tab left without panes closes. -/
def retireTerminalPane (model : WorkspaceLayoutModel) (workspaceKey : String)
    (workspace : WorkspaceLayout) (tab : LayoutTerminalTab) (leafId : String) :
    WorkspaceLayoutModel :=
  let nextWorkspace :=
    match removeLayoutLeaf tab.panes.root leafId with
    | none => removeTabFromWorkspace workspace tab.id
    | some root =>
      replaceTab workspace
        (.terminal { tab with panes := ⟨some root, chatWithout tab.panes.chatLeafId leafId⟩ })
  withWorkspace model workspaceKey
    { nextWorkspace with leaves := nextWorkspace.leaves.delete leafId }

structure ExitedSurface where
  worktreeId : String
  terminalTabId : String
  leafId : String
  ptyId : String
  incarnationId : Option String

structure TerminalTabLocation where
  workspaceKey : String
  workspace : WorkspaceLayout
  tab : LayoutTerminalTab

/-- The first terminal's tab that has a terminal id, workspace by workspace. -/
def findTerminalTab (model : WorkspaceLayoutModel) (terminalTabId : String) :
    Option TerminalTabLocation :=
  model.workspaces.entries.findSome? fun entry =>
    entry.2.tabs.findSome? fun tab =>
      tab.terminal?.bind fun terminal =>
        if terminal.entityId = terminalTabId then some ⟨entry.1, entry.2, terminal⟩ else none

inductive SurfaceLocation where
  | gone
  | replaced
  | found (location : TerminalTabLocation)

/-- `left && right && left !== right`, on ids that may be absent or empty. -/
def differs (left right : Option String) : Bool :=
  match left, right with
  | some left, some right => left ≠ "" ∧ right ≠ "" ∧ left ≠ right
  | _, _ => false

/-- Gone means removed, replaced means a different terminal or incarnation now owns it. -/
def locateExitedSurface (model : WorkspaceLayoutModel) (surface : ExitedSurface) :
    SurfaceLocation :=
  match findTerminalTab model surface.terminalTabId with
  | none => .gone
  | some location =>
    if !layoutContainsLeafId location.tab.panes.root surface.leafId then .gone
    else
      let leaf := leafOrEmpty location.workspace surface.leafId
      if differs leaf.incarnationId surface.incarnationId then .replaced
      else if leaf.ptyId.any fun ptyId => ptyId ≠ "" ∧ ptyId ≠ surface.ptyId then .replaced
      else .found location

end OxeeUI.Layout
