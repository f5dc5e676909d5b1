import OxeeUI.Layout.ContentCommands

/-!
# Moving and renaming editor files

Editor tabs move to the workspace that owns their file, or take new ids when their file
moves on disk.  Each command is applied whole or refused.
-/

namespace OxeeUI.Layout

open OxeeUI.Library

variable (ownerIsMain : Bool) (model : WorkspaceLayoutModel)

/-! ## Between workspaces -/

/-- The shown files of the target group, by kind and entity; later tabs win. -/
def shownFiles (workspace : WorkspaceLayout) (groupId : String) :
    JsMap (ContentKind × String) String :=
  if !ownerIsMain then .empty
  else
    let order := ((workspace.groups.find? (·.id = groupId)).map LayoutGroup.tabOrder).getD []
    order.foldl
      (fun shown id =>
        match findTab workspace id with
        | some (.content tab) =>
          if isReplaceablePreviewContentType tab.kind then shown.set (tab.kind, tab.entityId) tab.id
          else shown
        | _ => shown) .empty

/-- A tab that moves, and the tabs that fold into one the target shows already. -/
structure Move extends TabMove where
  tab : LayoutContentTab

structure Moving where
  shown : JsMap (ContentKind × String) String
  moves : List Move
  folds : List LayoutContentTab
  /-- Where the last tab named lands: under its new id, or as the tab it folded into. -/
  landed : String

/-- Whether a tab other than the moved one has its new id. -/
def heldElsewhere (fromKey : String) (tab : LayoutTab) (newTabId : String) : Bool :=
  model.workspaces.entries.any fun entry => entry.2.tabs.any fun other =>
    other.id = newTabId ∧ ¬(entry.1 = fromKey ∧ other = tab)

def planMove (fromKey : String) (source : WorkspaceLayout) (moving : Moving) (move : TabMove) :
    Except LayoutRefusalCode Moving :=
  match findTab source move.tabId with
  | none => .error .tabNotFound
  | some (.terminal _) => .error .invalidParams
  | some (.content tab) =>
    if !isReplaceablePreviewContentType tab.kind then .error .invalidParams
    else
      match moving.shown.get? (tab.kind, move.newEntityId) with
      | some kept => .ok { moving with folds := moving.folds ++ [tab], landed := kept }
      | none =>
        if heldElsewhere model fromKey (.content tab) move.newTabId then .error .tabExists
        else
          .ok { moving with
            shown :=
              if ownerIsMain then moving.shown.set (tab.kind, move.newEntityId) move.newTabId
              else moving.shown
            moves := moving.moves ++ [{ move with tab := tab }]
            landed := move.newTabId }

def withoutTab (workspace : WorkspaceLayout) (tabId : String) : WorkspaceLayout :=
  let removed := removeTabFromWorkspace workspace tabId
  { removed with editorViews := removed.editorViews.delete tabId }

/-- Put a moved tab at the end of the target group, under its new ids. -/
def landTab (toKey groupId : String) (context : LayoutContext)
    (workspaces : WorkspaceLayout × WorkspaceLayout) (move : Move) :
    WorkspaceLayout × WorkspaceLayout :=
  let view := move.view.or (workspaces.1.editorViews.get? move.tab.id)
  let source := withoutTab workspaces.1 move.tab.id
  let target := workspaces.2
  let last := ((target.groups.find? (·.id = groupId)).map (·.tabOrder.length)).getD 0
  let moved : LayoutContentTab :=
    { move.tab with id := move.newTabId, entityId := move.newEntityId }
  let placed := placeNewTab ownerIsMain target toKey (.content moved)
    ⟨some groupId, none, some (last : Int)⟩ context
  (source, withEditorView placed move.newTabId view)

/-- The moved edit-mode file's record leaves the source for the target. -/
def moveEditorFile (workspaces : WorkspaceLayout × WorkspaceLayout)
    (file : Option LayoutEditorFile) : WorkspaceLayout × WorkspaceLayout :=
  match file with
  | none => workspaces
  | some file =>
    let others := fun files : List LayoutEditorFile =>
      files.filter fun entry => !sameEditorFile ownerIsMain entry file
    ({ workspaces.1 with editorFiles := workspaces.1.editorFiles.map others },
      { workspaces.2 with
        editorFiles := some (others (workspaces.2.editorFiles.getD []) ++ [file]) })

/-- A workspace with no group takes the window's; one with groups must hold the named one. -/
def landingGroup (target : WorkspaceLayout) (groupId : String) :
    Except LayoutRefusalCode WorkspaceLayout :=
  if target.groups.any (·.id = groupId) then .ok target
  else if target.groups ≠ [] then .error .groupNotFound
  else .ok { target with groups := [⟨groupId, []⟩] }

/-- Whether the ids of a move's tabs repeat, or the move goes nowhere. -/
def isInvalidMove (fromKey : String) (command : MoveTabToWorkspace) : Bool :=
  fromKey = command.toWorkspace ∨ command.tabs = [] ∨
    ¬(command.tabs.map TabMove.tabId).Nodup ∨ ¬(command.tabs.map TabMove.newTabId).Nodup

def moveTabToWorkspace (fromKey : String) (source : WorkspaceLayout)
    (command : MoveTabToWorkspace) (context : LayoutContext) : Applied :=
  let toKey := command.toWorkspace
  if isInvalidMove fromKey command then refuse .invalidParams
  else
    let target := workspaceOrEmpty model toKey
    let start : Moving :=
      ⟨shownFiles ownerIsMain target command.groupId, [], [], command.groupId⟩
    match command.tabs.foldlM (planMove ownerIsMain model fromKey source) start with
    | .error code => refuse code
    | .ok planned =>
      match landingGroup target command.groupId with
      | .error code => refuse code
      | .ok target =>
        let folded := planned.folds.foldl (fun source tab => withoutTab source tab.id) source
        let landed := planned.moves.foldl
          (landTab ownerIsMain toKey command.groupId context) (folded, target)
        let moved := moveEditorFile ownerIsMain landed command.file
        applied (withWorkspace (withWorkspace model fromKey moved.1) toKey moved.2)
          { tabId := some planned.landed, groupId := some command.groupId }

/-! ## On disk -/

/-- `new Map(renames.map((rename) => [rename.fileId, rename.newFileId]))`. -/
def renamedIds (renames : List EditorFileRename) : JsMap String String :=
  .ofPairs (renames.map fun rename => (rename.fileId, rename.newFileId))

/-- `ids.get(id) ?? id`. -/
def renamedId (ids : JsMap String String) (id : String) : String := (ids.get? id).getD id

/-- Old tab-bar id → new, for the editor tabs whose id the renames change. -/
def renamedTabIds (workspace : WorkspaceLayout) (ids : JsMap String String) :
    JsMap String String :=
  .ofPairs ((workspace.tabs.filter fun tab =>
      isEditorKind tab ∧ renamedId ids tab.id ≠ tab.id).map fun tab => (tab.id, renamedId ids tab.id))

/-- An editor tab under the ids its file's rename gives it. -/
def renamedTab (ids tabIds : JsMap String String) (tab : LayoutTab) : LayoutTab :=
  if isEditorKind tab ∧ (ids.has tab.entityId ∨ tabIds.has tab.id) then
    tab.withFields
      { tab.fields with
        id := renamedId tabIds tab.id
        entityId := renamedId ids tab.entityId }
  else tab

/-- Each view follows its tab; a renamed tab's view follows its file to the new path. -/
def renamedViews (renames : List EditorFileRename) (tabIds : JsMap String String)
    (tabs : List LayoutTab) (views : JsMap String JsValue) : JsMap String JsValue :=
  let moved : JsMap String JsValue := .ofPairs (renames.filterMap fun rename =>
    rename.view.map fun view => (rename.newFileId, view))
  .ofPairs (views.entries.map fun entry =>
    let id := renamedId tabIds entry.1
    let entityId := ((tabById tabs id).map LayoutTab.entityId).getD ""
    (id, (moved.get? entityId).getD entry.2))

/-- Each renamed file's record in its old record's place; a new one only for a shown file. -/
def renamedEditorFiles (files : Option (List LayoutEditorFile)) (renames : List EditorFileRename)
    (heldEntityIds : List String) : Option (List LayoutEditorFile) :=
  let moves := renames.filterMap fun rename =>
    rename.record.map fun record => (record.1, record.2, rename.newFileId)
  if moves = [] then files
  else
    let byOldPath : JsMap String LayoutEditorFile :=
      .ofPairs (moves.map fun move => (move.1, move.2.1))
    let kept := (files.getD []).map fun file => (byOldPath.get? file.filePath).getD file
    -- A record main never got is the window's now too, when main shows the file.
    let missing := moves.filter fun move =>
      move.2.2 ∈ heldEntityIds ∧ !(files.getD []).any (·.filePath = move.1)
    if files = none ∧ missing = [] then none else some (kept ++ missing.map (·.2.1))

/-- Whether the renames repeat an id, or land on a shown file that none of them moves. -/
def isInvalidRename (workspace : WorkspaceLayout) (renames : List EditorFileRename)
    (ids : JsMap String String) : Bool :=
  ids.size ≠ renames.length ∨ ids.values.eraseDups.length ≠ ids.size ∨
    workspace.tabs.any fun tab =>
      isEditorKind tab ∧ tab.entityId ∈ ids.values ∧ !ids.has tab.entityId

def renamedWorkspace (workspace : WorkspaceLayout) (renames : List EditorFileRename)
    (ids tabIds : JsMap String String) : WorkspaceLayout :=
  let tabs := workspace.tabs.map (renamedTab ids tabIds)
  { workspace with
    tabs := tabs
    groups := workspace.groups.map fun group =>
      if group.tabOrder.any tabIds.has then
        { group with tabOrder := group.tabOrder.map (renamedId tabIds) }
      else group
    editorViews := renamedViews renames tabIds tabs workspace.editorViews
    editorFiles := renamedEditorFiles workspace.editorFiles renames (tabs.map LayoutTab.entityId) }

/-- Rekey every affected tab; reject conflicting destinations. -/
def renameInWorkspace (workspaceKey : String) (renames : List EditorFileRename) :
    Except LayoutRefusalCode (WorkspaceLayoutModel × JsMap String String) :=
  match model.workspaces.get? workspaceKey with
  | none => .error .workspaceNotFound
  | some workspace =>
    let ids := renamedIds renames
    if isInvalidRename workspace renames ids then .error .invalidParams
    else
      let tabIds := renamedTabIds workspace ids
      let taken := model.workspaces.values.any fun entry => entry.tabs.any fun tab =>
        tab.id ∈ tabIds.values ∧ !tabIds.has tab.id
      if taken then .error .tabExists
      else
        .ok (withWorkspace model workspaceKey (renamedWorkspace workspace renames ids tabIds),
          tabIds)

/-- One workspace's part of a disk move. -/
def renamePart (state : WorkspaceLayoutModel × JsMap String String)
    (part : String × List EditorFileRename) :
    Except LayoutRefusalCode (WorkspaceLayoutModel × JsMap String String) :=
  (renameInWorkspace state.1 part.1 part.2).map fun step =>
    (step.1, step.2.entries.foldl (fun renamed entry => renamed.set entry.1 entry.2) state.2)

def renameEditorFiles (key : String) (command : RenameEditorFiles) : Applied :=
  let parts := (key, command.renames) :: command.alsoIn
  if ¬(parts.map Prod.fst).Nodup then refuse .invalidParams
  else
    match parts.foldlM renamePart (model, .empty) with
    | .error code => refuse code
    | .ok (next, renamed) => applied next { renamedTabIds := some renamed.entries }

end OxeeUI.Layout
