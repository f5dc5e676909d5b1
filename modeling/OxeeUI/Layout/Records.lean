import OxeeUI.Layout.Published

/-!
# Published layouts as keyed records

A layout is split into records of five kinds.  What changed between two layouts is sent
by record, and applied to the records a reader holds.
-/

namespace OxeeUI.Layout

open OxeeUI.Library JsValue

/-! ## Split and join -/

structure PublishedLayoutRecords where
  workspace : Rest ["tabs", "editorFiles", "browserTabs"]
  tabs : List PublishedTabRow
  paneTrees : List PublishedPaneTree
  bindings : List PublishedPaneBinding
  editorFiles : List PublishedEditorFile
  browserTabs : List PublishedBrowserTab

def PublishedTab.row (tab : PublishedTab) : PublishedTabRow where
  id := tab.id
  terminal := tab.terminal.map (·.creation)
  fields := tab.fields

def PublishedPane.treePane (pane : PublishedPane) : PublishedTreePane where
  leafId := pane.leafId
  fields := pane.fields

/-- The binding record of a pane; none while every member of it is absent. -/
def PublishedPane.binding? (pane : PublishedPane) : Option PublishedPaneBinding :=
  if pane.ptyId ≠ .undefined ∨ pane.ptyGeneration ≠ .undefined ∨ pane.status ≠ .undefined ∨
      pane.statusReason ≠ .undefined ∨ pane.resumeOutcome ≠ .undefined then
    some ⟨pane.leafId, pane.ptyId, pane.ptyGeneration, pane.status, pane.statusReason,
      pane.resumeOutcome⟩
  else none

def PublishedTab.panes (tab : PublishedTab) : List PublishedPane :=
  (tab.terminal.map (·.panes)).getD []

def PublishedTab.paneTree? (tab : PublishedTab) : Option PublishedPaneTree :=
  tab.terminal.map fun terminal =>
    ⟨tab.id, terminal.root, terminal.chatLeafId, terminal.panes.map PublishedPane.treePane⟩

def splitPublishedLayout (layout : PublishedWorkspaceLayout) : PublishedLayoutRecords where
  workspace := layout.workspace
  tabs := layout.tabs.map PublishedTab.row
  paneTrees := layout.tabs.filterMap PublishedTab.paneTree?
  bindings := layout.tabs.flatMap fun tab => tab.panes.filterMap PublishedPane.binding?
  editorFiles := layout.editorFiles
  browserTabs := layout.browserTabs

def joinPane (bindings : JsMap String PublishedPaneBinding) (pane : PublishedTreePane) :
    PublishedPane :=
  match bindings.get? pane.leafId with
  | none => ⟨pane.leafId, .undefined, .undefined, .undefined, .undefined, .undefined, pane.fields⟩
  | some bound =>
    ⟨pane.leafId, bound.ptyId, bound.ptyGeneration, bound.status, bound.statusReason,
      bound.resumeOutcome, pane.fields⟩

def joinTab (trees : JsMap String PublishedPaneTree)
    (bindings : JsMap String PublishedPaneBinding) (row : PublishedTabRow) :
    Except String PublishedTab :=
  match row.terminal with
  | none => .ok ⟨row.id, none, row.fields⟩
  | some creation =>
    match trees.get? row.id with
    | none => .error ("layout records: terminal tab " ++ row.id ++ " has no pane tree")
    | some tree =>
      .ok ⟨row.id, some ⟨tree.root, tree.chatLeafId, tree.panes.map (joinPane bindings),
        creation⟩, row.fields⟩

/-! ## Kinds of records -/

/-- How the records of a kind are named, and written for comparison: the text decides
the name. -/
structure RecordKind (Record : Type) where
  keyOf : Record → String
  json : Record → JsValue
  keyInJson : ∀ left right, json left = json right → keyOf left = keyOf right

theorem string?_of_stableJson {left right : JsValue} (same : stableJson left = stableJson right) :
    left.string? = right.string? := by
  cases left <;> cases right <;> simp_all [stableJson, string?]

/-- `RECORD_KEYS.tabs` -/
def tabKind : RecordKind PublishedTabRow where
  keyOf := (·.id)
  json row := stableJson row.toJson
  keyInJson _ _ same := (PublishedTabRow.stable_iff.mp same).1

/-- `RECORD_KEYS.paneTrees` -/
def paneTreeKind : RecordKind PublishedPaneTree where
  keyOf := (·.tabId)
  json tree := stableJson tree.toJson
  keyInJson _ _ same := (PublishedPaneTree.stable_iff.mp same).1

/-- `RECORD_KEYS.bindings` -/
def bindingKind : RecordKind PublishedPaneBinding where
  keyOf := (·.leafId)
  json binding := stableJson binding.toJson
  keyInJson _ _ same := (PublishedPaneBinding.stable_iff.mp same).1

/-- `RECORD_KEYS.editorFiles`: path and owner, whatever the reader's build. -/
def editorFileKind : RecordKind PublishedEditorFile where
  keyOf file := ownedEditorFileId file.filePath "" file.runtimeEnvironmentId.string?
  json file := stableJson file.toJson
  keyInJson _ _ same := by
    have alike := PublishedEditorFile.stable_iff.mp same
    rw [alike.1, string?_of_stableJson alike.2.1]

/-- `RECORD_KEYS.browserTabs` -/
def browserTabKind : RecordKind PublishedBrowserTab where
  keyOf := (·.id)
  json tab := stableJson tab.toJson
  keyInJson _ _ same := (PublishedBrowserTab.stable_iff.mp same).1

structure IndexedKind (Record : Type) where
  order : List String
  byKey : JsMap String (Record × JsValue)

/-- `set` adds or replaces by key; `order` is every key in order, sent when it changed. -/
structure LayoutRecordChanges (Record : Type) where
  set : List Record
  removed : List String
  order : Option (List String)

section Kind

variable {Record : Type} (kind : RecordKind Record)

def indexRecord (index : IndexedKind Record) (record : Record) : Option (IndexedKind Record) :=
  let key := kind.keyOf record
  let json := kind.json record
  -- A tab in multiple groups can repeat an identical row; conflicting records share no key.
  if (index.byKey.get? key).any (·.2 ≠ json) then none
  else some ⟨index.order ++ [key], index.byKey.set key (record, json)⟩

def indexKind (records : List Record) : Option (IndexedKind Record) :=
  records.foldlM (indexRecord kind) ⟨[], .empty⟩

def changedOrder (before after : IndexedKind Record) (ordered : Bool) : Option (List String) :=
  if ordered ∧ before.order ≠ after.order then some after.order else none

def diffKind (before after : IndexedKind Record) (ordered : Bool) :
    Option (LayoutRecordChanges Record) :=
  let set := (after.byKey.entries.filter fun entry =>
    (before.byKey.get? entry.1).map (·.2) ≠ some entry.2.2).map (·.2.1)
  let removed := before.byKey.keys.filter fun key => !after.byKey.has key
  let order := changedOrder before after ordered
  if set.isEmpty ∧ removed.isEmpty ∧ order.isNone then none else some ⟨set, removed, order⟩

/-- `new Map(records.map((record) => [keyOf(record), record]))` -/
def recordMap (records : List Record) : JsMap String Record :=
  records.foldl (fun byKey record => byKey.set (kind.keyOf record) record) .empty

/-- The records a reader holds, with the changes written over them. -/
def changedRecordMap (records : List Record) (changes : LayoutRecordChanges Record) :
    JsMap String Record :=
  changes.set.foldl (fun byKey record => byKey.set (kind.keyOf record) record)
    (changes.removed.foldl JsMap.delete (recordMap kind records))

def applyKind (records : List Record) (changes : Option (LayoutRecordChanges Record))
    (ordered : Bool) : Except String (List Record) :=
  match changes with
  | none => .ok records
  | some changes =>
    let byKey := changedRecordMap kind records changes
    if ordered then
      let order := changes.order.getD (records.map kind.keyOf)
      if byKey.keys.any (· ∉ order) then
        .error "layout records: a record is missing from its order"
      else
        order.mapM fun key =>
          match byKey.get? key with
          | none => .error ("layout records: order names a missing record " ++ key)
          | some record => .ok record
    else .ok byKey.values

end Kind

/-- Throws when a terminal tab's row has no pane tree: the records are not one layout. -/
def joinPublishedLayout (records : PublishedLayoutRecords) :
    Except String PublishedWorkspaceLayout := do
  let tabs ← records.tabs.mapM
    (joinTab (recordMap paneTreeKind records.paneTrees) (recordMap bindingKind records.bindings))
  return ⟨tabs, records.editorFiles, records.browserTabs, records.workspace⟩

/-! ## Whole layouts -/

structure IndexedLayoutRecords where
  workspaceJson : JsValue
  workspace : Rest ["tabs", "editorFiles", "browserTabs"]
  tabs : IndexedKind PublishedTabRow
  paneTrees : IndexedKind PublishedPaneTree
  bindings : IndexedKind PublishedPaneBinding
  editorFiles : IndexedKind PublishedEditorFile
  browserTabs : IndexedKind PublishedBrowserTab

/-- None when two different records share a key: that layout only goes whole. -/
def indexPublishedLayout (layout : PublishedWorkspaceLayout) : Option IndexedLayoutRecords := do
  let records := splitPublishedLayout layout
  let tabs ← indexKind tabKind records.tabs
  let paneTrees ← indexKind paneTreeKind records.paneTrees
  let bindings ← indexKind bindingKind records.bindings
  let editorFiles ← indexKind editorFileKind records.editorFiles
  let browserTabs ← indexKind browserTabKind records.browserTabs
  return ⟨records.workspace.stable, records.workspace, tabs, paneTrees, bindings, editorFiles,
    browserTabs⟩

structure WorkspaceLayoutRecordChanges where
  workspace : Option (Rest ["tabs", "editorFiles", "browserTabs"])
  tabs : Option (LayoutRecordChanges PublishedTabRow)
  paneTrees : Option (LayoutRecordChanges PublishedPaneTree)
  bindings : Option (LayoutRecordChanges PublishedPaneBinding)
  editorFiles : Option (LayoutRecordChanges PublishedEditorFile)
  browserTabs : Option (LayoutRecordChanges PublishedBrowserTab)

def WorkspaceLayoutRecordChanges.isEmpty (changes : WorkspaceLayoutRecordChanges) : Bool :=
  changes.workspace.isNone && changes.tabs.isNone && changes.paneTrees.isNone &&
    changes.bindings.isNone && changes.editorFiles.isNone && changes.browserTabs.isNone

inductive WorkspaceLayoutRecordChange where
  | removed (key : String)
  /-- A workspace new to the stream, or one whose records repeat a key, goes whole. -/
  | layout (key : String) (layout : PublishedWorkspaceLayout)
  | records (key : String) (changes : WorkspaceLayoutRecordChanges)

/-- The changes of every kind. Tabs place trees and bindings; only other kinds publish order. -/
def diffRecords (before after : IndexedLayoutRecords) : WorkspaceLayoutRecordChanges where
  workspace := if before.workspaceJson ≠ after.workspaceJson then some after.workspace else none
  tabs := diffKind before.tabs after.tabs true
  paneTrees := diffKind before.paneTrees after.paneTrees false
  bindings := diffKind before.bindings after.bindings false
  editorFiles := diffKind before.editorFiles after.editorFiles true
  browserTabs := diffKind before.browserTabs after.browserTabs true

def diffPublishedLayouts (key : String) (before after : Option IndexedLayoutRecords)
    (layout : PublishedWorkspaceLayout) : Option WorkspaceLayoutRecordChange :=
  match before, after with
  | some before, some after =>
    let changes := diffRecords before after
    if changes.isEmpty then none else some (.records key changes)
  | _, _ => some (.layout key layout)

def applyRecords (records : PublishedLayoutRecords) (changes : WorkspaceLayoutRecordChanges) :
    Except String PublishedWorkspaceLayout := do
  let tabs ← applyKind tabKind records.tabs changes.tabs true
  let paneTrees ← applyKind paneTreeKind records.paneTrees changes.paneTrees false
  let bindings ← applyKind bindingKind records.bindings changes.bindings false
  let editorFiles ← applyKind editorFileKind records.editorFiles changes.editorFiles true
  let browserTabs ← applyKind browserTabKind records.browserTabs changes.browserTabs true
  joinPublishedLayout ⟨changes.workspace.getD records.workspace, tabs, paneTrees, bindings,
    editorFiles, browserTabs⟩

/-- Apply to the reader's last layout, or remove it. -/
def applyWorkspaceLayoutRecordChange (before : Option PublishedWorkspaceLayout)
    (change : WorkspaceLayoutRecordChange) : Except String (Option PublishedWorkspaceLayout) :=
  match change with
  | .removed _ => .ok none
  | .layout _ layout => .ok (some layout)
  | .records key changes =>
    match before with
    | none => .error ("layout records: a change for unknown workspace " ++ key)
    | some before => (applyRecords (splitPublishedLayout before) changes).map some

end OxeeUI.Layout
