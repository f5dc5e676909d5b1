import OxeeUI.Library.UriText
import OxeeUI.Layout.Model

/-!
# Ids of editor files

A file is named by its path, or by its path and the runtime that owns it.
-/

namespace OxeeUI.Layout

open OxeeUI.Library

/-- The owner's part of an id: `runtimeEnvironmentId?.trim() || 'local'`. -/
def runtimeKey (runtimeEnvironmentId : Option String) : List Char :=
  match runtimeEnvironmentId with
  | none => "local".toList
  | some environment =>
    if trimWhiteSpace environment.toList = [] then "local".toList
    else trimWhiteSpace environment.toList

def ownedEditorFileId (filePath worktreeId : String) (runtimeEnvironmentId : Option String) :
    String :=
  String.ofList ("editor:".toList ++ encodeUriComponent worktreeId.toList ++ ':' ::
    encodeUriComponent (runtimeKey runtimeEnvironmentId) ++ ':' ::
      encodeUriComponent filePath.toList)

theorem ownedEditorFileId_inj {first second worktreeId : String}
    {firstRuntime secondRuntime : Option String}
    (same : ownedEditorFileId first worktreeId firstRuntime =
      ownedEditorFileId second worktreeId secondRuntime) :
    first = second ∧ runtimeKey firstRuntime = runtimeKey secondRuntime := by
  have characters : encodeUriComponent (runtimeKey firstRuntime) ++ ':' ::
        encodeUriComponent first.toList =
      encodeUriComponent (runtimeKey secondRuntime) ++ ':' ::
        encodeUriComponent second.toList := by
    have whole := String.ofList_inj.mp same
    simp only [List.append_assoc, List.cons_append, List.append_cancel_left_eq] at whole
    exact (List.cons.inj whole).2
  generalize runtimeKey firstRuntime = firstKey at characters ⊢
  generalize runtimeKey secondRuntime = secondKey at characters ⊢
  have parts := congrArg (splitOnChar ':') characters
  rw [splitOnChar_append_cons (colon_not_mem_encodeUriComponent _),
    splitOnChar_append_cons (colon_not_mem_encodeUriComponent _), List.cons.injEq] at parts
  have runtime := encodeUriComponent_injective parts.1
  subst runtime
  have paths := (List.cons.inj (List.append_cancel_left characters)).2
  exact ⟨String.toList_inj.mp (encodeUriComponent_injective paths), rfl⟩

/-- The key of a file within its workspace; the owner counts where main owns the layout. -/
def editorFileKey (ownerIsMain : Bool) (filePath : String)
    (runtimeEnvironmentId : Option String) : String :=
  if ownerIsMain then ownedEditorFileId filePath "" runtimeEnvironmentId else filePath

theorem editorFileKey_inj {ownerIsMain : Bool} {first second : String}
    {firstRuntime secondRuntime : Option String}
    (same : editorFileKey ownerIsMain first firstRuntime =
      editorFileKey ownerIsMain second secondRuntime) :
    first = second ∧
      (ownerIsMain = true → runtimeKey firstRuntime = runtimeKey secondRuntime) := by
  cases ownerIsMain with
  | false => exact ⟨same, by simp⟩
  | true =>
    have parts := ownedEditorFileId_inj same
    exact ⟨parts.1, fun _ => parts.2⟩

end OxeeUI.Layout

/-!
## Editor tabs and their files

Tabs name a file by its path, or by its owned id where main owns the layout.
-/

namespace OxeeUI.Layout

namespace LayoutEditorFile

/-- `ownedEditorFileId(file.filePath, worktreeId, file.runtimeEnvironmentId)`. -/
def ownedId (file : LayoutEditorFile) (worktreeId : String) : String :=
  ownedEditorFileId file.filePath worktreeId file.runtimeEnvironmentId.join

/-- `editorFileKey(file)`. -/
def key (ownerIsMain : Bool) (file : LayoutEditorFile) : String :=
  editorFileKey ownerIsMain file.filePath file.runtimeEnvironmentId.join

end LayoutEditorFile

variable (ownerIsMain : Bool)

def editorTabShowsFile (entityId : String) (file : LayoutEditorFile) (worktreeId : String) :
    Bool :=
  entityId = file.filePath ∨ (ownerIsMain = true ∧ entityId = file.ownedId worktreeId)

def sameEditorFile (first second : LayoutEditorFile) : Bool :=
  first.key ownerIsMain = second.key ownerIsMain

structure EditorWorkspace where
  worktreeId : String
  entityIds : List String
  editorFiles : List LayoutEditorFile

def WorkspaceLayout.editors (workspace : WorkspaceLayout) : EditorWorkspace where
  worktreeId := workspace.worktreeId
  entityIds := workspace.tabs.map LayoutTab.entityId
  editorFiles := workspace.editorFiles.getD []

/-- Among several matching records, skip those an owned-id tab already claims. -/
def editorTabFiles (workspace : EditorWorkspace) (entityId : String) : List LayoutEditorFile :=
  let shown := workspace.editorFiles.filter fun file =>
    editorTabShowsFile ownerIsMain entityId file workspace.worktreeId
  if shown.length < 2 then shown
  else
    let unclaimed := shown.filter fun file =>
      file.ownedId workspace.worktreeId ∉ workspace.entityIds
    if unclaimed = [] then shown else unclaimed

def editorTabFile (workspace : EditorWorkspace) (entityId : String) : Option LayoutEditorFile :=
  if ownerIsMain then (editorTabFiles ownerIsMain workspace entityId).head?
  else
    workspace.editorFiles.find? fun file =>
      editorTabShowsFile ownerIsMain entityId file workspace.worktreeId

/-- Whether a record stays once a file's last tab closed: not that tab's, or another's too. -/
def keptAfterEditorClose (before : EditorWorkspace) (after : List String) (entityId : String)
    (file : LayoutEditorFile) : Bool :=
  file ∉ editorTabFiles ownerIsMain before entityId ∨
    file ∈ after.flatMap (editorTabFiles ownerIsMain before)

/-- Reuse a displayed file id, otherwise use the owned id. -/
def editorOpenFileId (workspace : EditorWorkspace) (editorEntityIds : List String)
    (file : LayoutEditorFile) : String :=
  (editorEntityIds.find? fun entityId =>
      (editorTabFile ownerIsMain workspace entityId).any (sameEditorFile ownerIsMain · file)).getD
    (file.ownedId workspace.worktreeId)

end OxeeUI.Layout
