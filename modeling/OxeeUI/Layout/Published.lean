import OxeeUI.Layout.EditorFiles

/-!
# The published layout of a workspace

What a host sends a reader.  The members the record code names are fields; every other
member, a newer host's included, travels as the rest of its object.
-/

namespace OxeeUI.Layout

open OxeeUI.Library JsValue

/-- What is left of an object when some of its members are taken out. -/
structure Rest (named : List String) where
  members : Json
  absent : ∀ key ∈ named, members.member key = .undefined

namespace Rest

variable {named : List String}

def empty : Rest named := ⟨[], fun _ _ => rfl⟩

def stable (rest : Rest named) : JsValue := stableJson (.object rest.members)

end Rest

/-- The members of a pane that its binding record carries, and its key. -/
abbrev paneMembers : List String :=
  ["leafId", "ptyId", "ptyGeneration", "status", "statusReason", "resumeOutcome"]

structure PublishedPane where
  leafId : String
  /-- Absent while unbound. -/
  ptyId : JsValue
  ptyGeneration : JsValue
  status : JsValue
  statusReason : JsValue
  resumeOutcome : JsValue
  fields : Rest paneMembers

structure PublishedTerminal where
  root : JsValue
  chatLeafId : JsValue
  /-- In tree order. -/
  panes : List PublishedPane
  creation : Rest ["root", "panes", "chatLeafId"]

structure PublishedTab where
  id : String
  terminal : Option PublishedTerminal
  fields : Rest ["id", "terminal"]

structure PublishedEditorFile where
  filePath : String
  runtimeEnvironmentId : JsValue
  fields : Rest ["filePath", "runtimeEnvironmentId"]

structure PublishedBrowserTab where
  id : String
  fields : Rest ["id"]

structure PublishedWorkspaceLayout where
  tabs : List PublishedTab
  editorFiles : List PublishedEditorFile
  browserTabs : List PublishedBrowserTab
  workspace : Rest ["tabs", "editorFiles", "browserTabs"]

/-- Tab row excluding pane tree and bindings; retains terminal creation fields. -/
structure PublishedTabRow where
  id : String
  terminal : Option (Rest ["root", "panes", "chatLeafId"])
  fields : Rest ["id", "terminal"]

structure PublishedTreePane where
  leafId : String
  fields : Rest paneMembers

structure PublishedPaneTree where
  tabId : String
  root : JsValue
  chatLeafId : JsValue
  panes : List PublishedTreePane

/-- Kept apart from the tree, so that terminal starts and respawns do not rewrite it. -/
structure PublishedPaneBinding where
  leafId : String
  ptyId : JsValue
  ptyGeneration : JsValue
  status : JsValue
  statusReason : JsValue
  resumeOutcome : JsValue

/-! ## The objects they are written as -/

def PublishedPane.toJson (pane : PublishedPane) : JsValue :=
  .object <| ("leafId", .string pane.leafId) :: ("ptyId", pane.ptyId) ::
    ("ptyGeneration", pane.ptyGeneration) :: ("status", pane.status) ::
    ("statusReason", pane.statusReason) :: ("resumeOutcome", pane.resumeOutcome) ::
    pane.fields.members

def PublishedTerminal.toJson (terminal : PublishedTerminal) : JsValue :=
  .object <| ("root", terminal.root) :: ("chatLeafId", terminal.chatLeafId) ::
    ("panes", .array (terminal.panes.map PublishedPane.toJson)) :: terminal.creation.members

def PublishedTab.toJson (tab : PublishedTab) : JsValue :=
  .object <| ("id", .string tab.id) ::
    ("terminal", (tab.terminal.map PublishedTerminal.toJson).getD .undefined) ::
    tab.fields.members

def PublishedEditorFile.toJson (file : PublishedEditorFile) : JsValue :=
  .object <| ("filePath", .string file.filePath) ::
    ("runtimeEnvironmentId", file.runtimeEnvironmentId) :: file.fields.members

def PublishedBrowserTab.toJson (tab : PublishedBrowserTab) : JsValue :=
  .object <| ("id", .string tab.id) :: tab.fields.members

def PublishedWorkspaceLayout.toJson (layout : PublishedWorkspaceLayout) : JsValue :=
  .object <| ("tabs", .array (layout.tabs.map PublishedTab.toJson)) ::
    ("editorFiles", .array (layout.editorFiles.map PublishedEditorFile.toJson)) ::
    ("browserTabs", .array (layout.browserTabs.map PublishedBrowserTab.toJson)) ::
    layout.workspace.members

def PublishedTabRow.toJson (row : PublishedTabRow) : JsValue :=
  .object <| ("id", .string row.id) ::
    ("terminal", (row.terminal.map fun creation => .object creation.members).getD .undefined) ::
    row.fields.members

def PublishedTreePane.toJson (pane : PublishedTreePane) : JsValue :=
  .object <| ("leafId", .string pane.leafId) :: pane.fields.members

def PublishedPaneTree.toJson (tree : PublishedPaneTree) : JsValue :=
  .object [("tabId", .string tree.tabId), ("root", tree.root), ("chatLeafId", tree.chatLeafId),
    ("panes", .array (tree.panes.map PublishedTreePane.toJson))]

def PublishedPaneBinding.toJson (binding : PublishedPaneBinding) : JsValue :=
  .object [("leafId", .string binding.leafId), ("ptyId", binding.ptyId),
    ("ptyGeneration", binding.ptyGeneration), ("status", binding.status),
    ("statusReason", binding.statusReason), ("resumeOutcome", binding.resumeOutcome)]

/-! ## When they are written alike -/

theorem stableJson_cons_iff {key : String} {left right : JsValue} {leftRest rightRest : Json}
    (leftAbsent : leftRest.member key = .undefined)
    (rightAbsent : rightRest.member key = .undefined) :
    stableJson (.object ((key, left) :: leftRest)) =
        stableJson (.object ((key, right) :: rightRest)) ↔
      stableJson left = stableJson right ∧
        stableJson (.object leftRest) = stableJson (.object rightRest) := by
  rw [stableJson_object_iff, stableJson_object_iff]
  simp only [Json.member_cons]
  constructor
  · intro all
    refine ⟨by simpa using all key, fun other => ?_⟩
    by_cases same : other = key
    · rw [same, leftAbsent, rightAbsent]
    · simpa [same] using all other
  · rintro ⟨here, rest⟩ other
    by_cases same : other = key
    · simpa [same] using here
    · simpa [same] using rest other

@[simp]
theorem stableJson_string_iff {left right : String} :
    stableJson (.string left) = stableJson (.string right) ↔ left = right := by
  simp [stableJson]

theorem stableJson_objects_iff {Left Right : Type} {left : List Left} {right : List Right}
    {toLeft : Left → JsValue} {toRight : Right → JsValue}
    (leftObjects : ∀ item, toLeft item ≠ .undefined)
    (rightObjects : ∀ item, toRight item ≠ .undefined) :
    stableJson (.array (left.map toLeft)) = stableJson (.array (right.map toRight)) ↔
      left.map (fun item => stableJson (toLeft item)) =
        right.map fun item => stableJson (toRight item) := by
  rw [stableJson_array_iff]
  · simp [Function.comp_def]
  · intro value member
    obtain ⟨item, _, rfl⟩ := List.mem_map.mp member
    exact leftObjects item
  · intro value member
    obtain ⟨item, _, rfl⟩ := List.mem_map.mp member
    exact rightObjects item

section Alike

theorem PublishedPane.stable_iff {left right : PublishedPane} :
    stableJson left.toJson = stableJson right.toJson ↔
      left.leafId = right.leafId ∧ stableJson left.ptyId = stableJson right.ptyId ∧
      stableJson left.ptyGeneration = stableJson right.ptyGeneration ∧
      stableJson left.status = stableJson right.status ∧
      stableJson left.statusReason = stableJson right.statusReason ∧
      stableJson left.resumeOutcome = stableJson right.resumeOutcome ∧
      left.fields.stable = right.fields.stable := by
  have leftAbsent := left.fields.absent
  have rightAbsent := right.fields.absent
  unfold toJson
  rw [stableJson_cons_iff, stableJson_cons_iff, stableJson_cons_iff, stableJson_cons_iff,
    stableJson_cons_iff, stableJson_cons_iff, stableJson_string_iff]
  · rfl
  all_goals simp [Json.member_cons, leftAbsent, rightAbsent]

theorem PublishedTreePane.stable_iff {left right : PublishedTreePane} :
    stableJson left.toJson = stableJson right.toJson ↔
      left.leafId = right.leafId ∧ left.fields.stable = right.fields.stable := by
  have leftAbsent := left.fields.absent
  have rightAbsent := right.fields.absent
  unfold toJson
  rw [stableJson_cons_iff, stableJson_string_iff]
  · rfl
  all_goals simp [leftAbsent, rightAbsent]

theorem PublishedTerminal.stable_iff {left right : PublishedTerminal} :
    stableJson left.toJson = stableJson right.toJson ↔
      stableJson left.root = stableJson right.root ∧
      stableJson left.chatLeafId = stableJson right.chatLeafId ∧
      left.panes.map (fun pane => stableJson pane.toJson) =
        right.panes.map (fun pane => stableJson pane.toJson) ∧
      left.creation.stable = right.creation.stable := by
  have leftAbsent := left.creation.absent
  have rightAbsent := right.creation.absent
  unfold toJson
  rw [stableJson_cons_iff, stableJson_cons_iff, stableJson_cons_iff, stableJson_objects_iff]
  · rfl
  all_goals simp [Json.member_cons, leftAbsent, rightAbsent, PublishedPane.toJson]

theorem PublishedPaneTree.stable_iff {left right : PublishedPaneTree} :
    stableJson left.toJson = stableJson right.toJson ↔
      left.tabId = right.tabId ∧ stableJson left.root = stableJson right.root ∧
      stableJson left.chatLeafId = stableJson right.chatLeafId ∧
      left.panes.map (fun pane => stableJson pane.toJson) =
        right.panes.map fun pane => stableJson pane.toJson := by
  unfold toJson
  rw [stableJson_cons_iff, stableJson_cons_iff, stableJson_cons_iff, stableJson_cons_iff,
    stableJson_objects_iff, stableJson_string_iff]
  · simp
  all_goals simp [Json.member_cons, PublishedTreePane.toJson]

theorem PublishedPaneBinding.stable_iff {left right : PublishedPaneBinding} :
    stableJson left.toJson = stableJson right.toJson ↔
      left.leafId = right.leafId ∧ stableJson left.ptyId = stableJson right.ptyId ∧
      stableJson left.ptyGeneration = stableJson right.ptyGeneration ∧
      stableJson left.status = stableJson right.status ∧
      stableJson left.statusReason = stableJson right.statusReason ∧
      stableJson left.resumeOutcome = stableJson right.resumeOutcome := by
  unfold toJson
  rw [stableJson_cons_iff, stableJson_cons_iff, stableJson_cons_iff, stableJson_cons_iff,
    stableJson_cons_iff, stableJson_cons_iff, stableJson_string_iff]
  · simp
  all_goals simp [Json.member_cons]

theorem stableJson_optional_iff {Left Right : Type} {left : Option Left} {right : Option Right}
    {toLeft : Left → JsValue} {toRight : Right → JsValue}
    (leftObjects : ∀ item, toLeft item ≠ .undefined)
    (rightObjects : ∀ item, toRight item ≠ .undefined) :
    stableJson ((left.map toLeft).getD .undefined) =
        stableJson ((right.map toRight).getD .undefined) ↔
      Option.Rel (fun left right => stableJson (toLeft left) = stableJson (toRight right))
        left right := by
  cases left with
  | none =>
    cases right with
    | none => exact ⟨fun _ => .none, fun _ => rfl⟩
    | some right =>
      refine ⟨fun same => ?_, fun same => by cases same⟩
      exact absurd (stableJson_eq_undefined_iff.mp same.symm) (rightObjects right)
  | some left =>
    cases right with
    | none =>
      refine ⟨fun same => ?_, fun same => by cases same⟩
      exact absurd (stableJson_eq_undefined_iff.mp same) (leftObjects left)
    | some right => exact ⟨fun same => .some same, fun same => by cases same; assumption⟩

theorem PublishedTab.stable_iff {left right : PublishedTab} :
    stableJson left.toJson = stableJson right.toJson ↔
      left.id = right.id ∧
      Option.Rel (fun left right => stableJson left.toJson = stableJson right.toJson)
        left.terminal right.terminal ∧
      left.fields.stable = right.fields.stable := by
  have leftAbsent := left.fields.absent
  have rightAbsent := right.fields.absent
  unfold toJson
  rw [stableJson_cons_iff, stableJson_cons_iff, stableJson_optional_iff, stableJson_string_iff]
  · rfl
  all_goals simp [Json.member_cons, leftAbsent, rightAbsent, PublishedTerminal.toJson]

theorem PublishedTabRow.stable_iff {left right : PublishedTabRow} :
    stableJson left.toJson = stableJson right.toJson ↔
      left.id = right.id ∧
      Option.Rel (fun left right => left.stable = right.stable) left.terminal right.terminal ∧
      left.fields.stable = right.fields.stable := by
  have leftAbsent := left.fields.absent
  have rightAbsent := right.fields.absent
  unfold toJson
  rw [stableJson_cons_iff, stableJson_cons_iff, stableJson_optional_iff, stableJson_string_iff]
  · rfl
  all_goals simp [Json.member_cons, leftAbsent, rightAbsent]

theorem PublishedEditorFile.stable_iff {left right : PublishedEditorFile} :
    stableJson left.toJson = stableJson right.toJson ↔
      left.filePath = right.filePath ∧
      stableJson left.runtimeEnvironmentId = stableJson right.runtimeEnvironmentId ∧
      left.fields.stable = right.fields.stable := by
  have leftAbsent := left.fields.absent
  have rightAbsent := right.fields.absent
  unfold toJson
  rw [stableJson_cons_iff, stableJson_cons_iff, stableJson_string_iff]
  · rfl
  all_goals simp [Json.member_cons, leftAbsent, rightAbsent]

theorem PublishedBrowserTab.stable_iff {left right : PublishedBrowserTab} :
    stableJson left.toJson = stableJson right.toJson ↔
      left.id = right.id ∧ left.fields.stable = right.fields.stable := by
  have leftAbsent := left.fields.absent
  have rightAbsent := right.fields.absent
  unfold toJson
  rw [stableJson_cons_iff, stableJson_string_iff]
  · rfl
  all_goals simp [leftAbsent, rightAbsent]

theorem PublishedWorkspaceLayout.stable_iff {left right : PublishedWorkspaceLayout} :
    stableJson left.toJson = stableJson right.toJson ↔
      left.tabs.map (fun tab => stableJson tab.toJson) =
        right.tabs.map (fun tab => stableJson tab.toJson) ∧
      left.editorFiles.map (fun file => stableJson file.toJson) =
        right.editorFiles.map (fun file => stableJson file.toJson) ∧
      left.browserTabs.map (fun tab => stableJson tab.toJson) =
        right.browserTabs.map (fun tab => stableJson tab.toJson) ∧
      left.workspace.stable = right.workspace.stable := by
  have leftAbsent := left.workspace.absent
  have rightAbsent := right.workspace.absent
  unfold toJson
  rw [stableJson_cons_iff, stableJson_cons_iff, stableJson_cons_iff, stableJson_objects_iff,
    stableJson_objects_iff, stableJson_objects_iff]
  · rfl
  all_goals simp [Json.member_cons, leftAbsent, rightAbsent, PublishedTab.toJson,
    PublishedEditorFile.toJson, PublishedBrowserTab.toJson]

end Alike

end OxeeUI.Layout
