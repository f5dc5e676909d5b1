import OxeeUI.Layout.Commands
import OxeeUI.Layout.EditorMoveEdits

/-!
# Records of renamed files

A rename rewrites a record in its place and adds one where the shown file had none.  The tabs
are checked against the destinations, the records are not: this module says when they stay
apart.
-/

namespace OxeeUI.Layout

open OxeeUI.Library SplitTree

variable {ownerIsMain : Bool} {model : WorkspaceLayoutModel} {key : String}
variable {workspace before after : WorkspaceLayout} {renames : List EditorFileRename}

def WorkspaceLayout.files (workspace : WorkspaceLayout) : List LayoutEditorFile :=
  workspace.editorFiles.getD []

/-- Pairwise distinct `editorFileKey`s. -/
def DistinctFiles (ownerIsMain : Bool) (workspace : WorkspaceLayout) : Prop :=
  (workspace.files.map (LayoutEditorFile.key ownerIsMain)).Nodup

instance : Decidable (DistinctFiles ownerIsMain workspace) :=
  inferInstanceAs (Decidable (List.Nodup _))

/-- A rename's old file: a record at its old path, of the owner that its file id names. -/
def isOldFile (ownerIsMain : Bool) (worktreeId : String) (rename : EditorFileRename)
    (file : LayoutEditorFile) : Bool :=
  rename.record.any (fun record => record.1 = file.filePath) &&
    (!ownerIsMain || editorTabShowsFile ownerIsMain rename.fileId file worktreeId)

/-- No record is merged or lost, and tabs of different files still show different ones. -/
structure FilesKept (ownerIsMain : Bool) (renames : List EditorFileRename)
    (before after : WorkspaceLayout) : Prop where
  distinct : DistinctFiles ownerIsMain after
  kept : ∀ (index : Nat) file, before.files[index]? = some file →
    (∀ rename ∈ renames, isOldFile ownerIsMain before.worktreeId rename file = false) →
      after.files[index]? = some file
  apart : ∀ (first second : Nat) entityId other,
    (before.tabs.map LayoutTab.entityId)[first]? = some entityId →
    (before.tabs.map LayoutTab.entityId)[second]? = some other → entityId ≠ other →
      (after.tabs.map LayoutTab.entityId)[first]? ≠ (after.tabs.map LayoutTab.entityId)[second]?

/-! ## The records that renames write -/

/-- The record for a path, the last rename's that starts from it. -/
def recordFrom (renames : List EditorFileRename) (path : String) : Option LayoutEditorFile :=
  (JsMap.ofPairs (renames.filterMap EditorFileRename.record)).get? path

/-- A renamed file that an editor tab shows, or whose new id another tab has. -/
def isShown (workspace : WorkspaceLayout) (rename : EditorFileRename) : Bool :=
  workspace.tabs.any fun tab =>
    if isEditorKind tab then tab.entityId = rename.fileId else tab.entityId = rename.newFileId

/-- The records of shown files that have none at their old path. -/
def addedRecords (workspace : WorkspaceLayout) (renames : List EditorFileRename) :
    List LayoutEditorFile :=
  renames.filterMap fun rename =>
    (rename.record.filter fun record =>
      isShown workspace rename && !workspace.files.any (·.filePath = record.1)).map Prod.snd

/-- What the renames write, in place of a record or beside them all. -/
def writtenRecords (workspace : WorkspaceLayout) (renames : List EditorFileRename) :
    List LayoutEditorFile :=
  workspace.files.filterMap (fun file => recordFrom renames file.filePath) ++
    addedRecords workspace renames

def stayingRecords (workspace : WorkspaceLayout) (renames : List EditorFileRename) :
    List LayoutEditorFile :=
  workspace.files.filter fun file => (recordFrom renames file.filePath).isNone

/-- Every destination is vacant, and every overwritten record is the renamed file's own. -/
structure DestinationsVacant (ownerIsMain : Bool) (renames : List EditorFileRename)
    (workspace : WorkspaceLayout) : Prop where
  apart : ((writtenRecords workspace renames).map (LayoutEditorFile.key ownerIsMain)).Nodup
  vacant : ∀ written ∈ writtenRecords workspace renames,
    ∀ staying ∈ stayingRecords workspace renames,
      written.key ownerIsMain ≠ staying.key ownerIsMain
  own : ∀ file ∈ workspace.files, ∀ written, recordFrom renames file.filePath = some written →
    written = file ∨
      ∃ rename ∈ renames, isOldFile ownerIsMain workspace.worktreeId rename file = true
  kinds : ∀ rename ∈ renames, rename.fileId ≠ rename.newFileId →
    ∀ tab ∈ workspace.tabs, isEditorKind tab = true → tab.entityId = rename.fileId →
      ∀ other ∈ workspace.tabs, isEditorKind other = false → other.entityId ≠ rename.newFileId

def renamesIn (key : String) (command : RenameEditorFiles) (other : String) :
    List EditorFileRename :=
  (((key, command.renames) :: command.alsoIn).lookup other).getD []

/-! ## Entities -/

section Entities

/-- A valid rename's ids: each old id once, each new id once, no shown file in the way. -/
structure RenamesValid (workspace : WorkspaceLayout) (renames : List EditorFileRename) : Prop where
  sources : (renames.map EditorFileRename.fileId).Nodup
  targets : (renamedIds renames).values.Nodup
  free : ∀ tab ∈ workspace.tabs, isEditorKind tab = true →
    tab.entityId ∈ (renamedIds renames).values → (renamedIds renames).has tab.entityId = true

theorem renamesValid_of_accepted
    (accepted : ¬isInvalidRename workspace renames (renamedIds renames) = true) :
    RenamesValid workspace renames := by
  simp only [isInvalidRename, decide_eq_true_eq, not_or, not_ne_iff] at accepted
  obtain ⟨sized, distinct, free⟩ := accepted
  refine ⟨?_, ?_, ?_⟩
  · have written : renames.map EditorFileRename.fileId =
        (renames.map fun rename => (rename.fileId, rename.newFileId)).map Prod.fst := by
      rw [List.map_map]
      rfl
    have within : (renamedIds renames).keys ⊆ renames.map EditorFileRename.fileId := by
      intro id member
      rw [written]
      exact JsMap.mem_keys_ofPairs.mp member
    have length : (renames.map EditorFileRename.fileId).length ≤ (renamedIds renames).keys.length := by
      rw [List.length_map, JsMap.keys, List.length_map]
      exact sized.ge
    have perm := ((renamedIds renames).keys_nodup.subperm within).perm_of_length_le length
    exact perm.nodup_iff.mp (renamedIds renames).keys_nodup
  · apply nodup_of_length_eraseDups
    rw [distinct, JsMap.values, List.length_map]
    rfl
  · intro tab member editor taken
    by_contra unmoved
    refine free (List.any_eq_true.mpr ⟨tab, member, decide_eq_true ⟨editor, taken, ?_⟩⟩)
    simpa using unmoved

theorem get?_renamedIds (valid : RenamesValid workspace renames) {fileId newFileId : String} :
    (renamedIds renames).get? fileId = some newFileId ↔
      ∃ rename ∈ renames, rename.fileId = fileId ∧ rename.newFileId = newFileId := by
  have sources : ((renames.map fun rename => (rename.fileId, rename.newFileId)).map
      Prod.fst).Nodup := by
    rw [List.map_map]
    exact valid.sources
  have pairs : (renamedIds renames).get? fileId = some newFileId ↔
      (fileId, newFileId) ∈ renames.map fun rename => (rename.fileId, rename.newFileId) := by
    rw [renamedIds, JsMap.get?_ofPairs sources]
    exact ⟨JsMap.mem_of_lookup, JsMap.lookup_of_mem sources⟩
  rw [pairs, List.mem_map]
  simp only [Prod.mk.injEq]

def renamedEntity (ids : JsMap String String) (tab : LayoutTab) : String :=
  if isEditorKind tab then renamedId ids tab.entityId else tab.entityId

theorem entityId_renamedTab (ids tabIds : JsMap String String) (tab : LayoutTab) :
    (renamedTab ids tabIds tab).entityId = renamedEntity ids tab := by
  unfold renamedTab renamedEntity
  by_cases editor : isEditorKind tab = true
  · rw [if_pos editor]
    split
    · cases tab <;> rfl
    · next untouched =>
      have unmoved : ¬ids.has tab.entityId = true := fun moved => untouched ⟨editor, .inl moved⟩
      exact (renamedId_of_not_has unmoved).symm
  · rw [if_neg editor, if_neg fun touched => editor touched.1]

theorem renamedId_of_get? {ids : JsMap String String} {id other : String}
    (found : ids.get? id = some other) : renamedId ids id = other := by
  rw [renamedId, found, Option.getD_some]

theorem renamedEntity_eq_iff (valid : RenamesValid workspace renames) {rename : EditorFileRename}
    (listed : rename ∈ renames) {tab : LayoutTab} (member : tab ∈ workspace.tabs) :
    renamedEntity (renamedIds renames) tab = rename.newFileId ↔
      (if isEditorKind tab then tab.entityId = rename.fileId
        else tab.entityId = rename.newFileId) := by
  have moved : (renamedIds renames).get? rename.fileId = some rename.newFileId :=
    (get?_renamedIds valid).mpr ⟨rename, listed, rfl, rfl⟩
  unfold renamedEntity
  split
  · next editor =>
    constructor
    · intro same
      have target : rename.newFileId ∈ (renamedIds renames).values :=
        JsMap.mem_values_iff.mpr ⟨_, moved⟩
      cases found : (renamedIds renames).get? tab.entityId with
      | some other =>
        rw [renamedId_of_get? found] at same
        exact JsMap.get?_inj valid.targets (same ▸ found) moved
      | none =>
        rw [renamedId, found, Option.getD_none] at same
        have has := valid.free tab member editor (same ▸ target)
        rw [JsMap.has, found] at has
        cases has
    · intro same
      rw [same]
      exact renamedId_of_get? moved
  · exact Iff.rfl

theorem entityIds_renamedWorkspace (ids tabIds : JsMap String String) :
    (renamedWorkspace workspace renames ids tabIds).tabs.map LayoutTab.entityId =
      workspace.tabs.map (renamedEntity ids) := by
  show (workspace.tabs.map (renamedTab ids tabIds)).map LayoutTab.entityId = _
  rw [List.map_map]
  exact List.map_congr_left fun tab _ => entityId_renamedTab ids tabIds tab

theorem renamedId_apart (valid : RenamesValid workspace renames) {first second : LayoutTab}
    (member : first ∈ workspace.tabs) (member' : second ∈ workspace.tabs)
    (editor : isEditorKind first = true) (editor' : isEditorKind second = true)
    (same : renamedId (renamedIds renames) first.entityId =
      renamedId (renamedIds renames) second.entityId) : first.entityId = second.entityId := by
  cases found : (renamedIds renames).get? first.entityId with
  | some other =>
    obtain ⟨rename, listed, source, target⟩ := (get?_renamedIds valid).mp found
    rw [renamedId_of_get? found, ← target] at same
    have shown : renamedEntity (renamedIds renames) second = rename.newFileId := by
      rw [renamedEntity, if_pos editor']
      exact same.symm
    have iff := (renamedEntity_eq_iff valid listed member').mp shown
    rw [if_pos editor'] at iff
    rw [iff, source]
  | none =>
    cases found' : (renamedIds renames).get? second.entityId with
    | some other =>
      obtain ⟨rename, listed, source, target⟩ := (get?_renamedIds valid).mp found'
      rw [renamedId_of_get? found', ← target] at same
      have shown : renamedEntity (renamedIds renames) first = rename.newFileId := by
        rw [renamedEntity, if_pos editor]
        exact same
      have iff := (renamedEntity_eq_iff valid listed member).mp shown
      rw [if_pos editor] at iff
      rw [iff, source]
    | none =>
      rw [renamedId, renamedId, found, found'] at same
      exact same

theorem renamedId_ne_of_kinds (valid : RenamesValid workspace renames)
    (kinds : ∀ rename ∈ renames, rename.fileId ≠ rename.newFileId →
      ∀ tab ∈ workspace.tabs, isEditorKind tab = true → tab.entityId = rename.fileId →
        ∀ other ∈ workspace.tabs, isEditorKind other = false →
          other.entityId ≠ rename.newFileId)
    {tab other : LayoutTab} (member : tab ∈ workspace.tabs) (member' : other ∈ workspace.tabs)
    (editor : isEditorKind tab = true) (content : isEditorKind other = false)
    (different : tab.entityId ≠ other.entityId) :
    renamedId (renamedIds renames) tab.entityId ≠ other.entityId := by
  intro same
  cases found : (renamedIds renames).get? tab.entityId with
  | none =>
    rw [renamedId, found] at same
    exact different same
  | some target =>
    obtain ⟨rename, listed, source, newId⟩ := (get?_renamedIds valid).mp found
    rw [renamedId_of_get? found] at same
    refine kinds rename listed ?_ tab member editor source.symm other member' content
      (same.symm.trans newId.symm)
    rw [source, newId, same]
    exact different

/-- Tabs come to show one file only where a renamed one takes another kind's id. -/
theorem entities_apart_iff (valid : RenamesValid workspace renames) :
    (∀ (first second : Nat) entityId other,
      (workspace.tabs.map LayoutTab.entityId)[first]? = some entityId →
      (workspace.tabs.map LayoutTab.entityId)[second]? = some other → entityId ≠ other →
        (workspace.tabs.map (renamedEntity (renamedIds renames)))[first]? ≠
          (workspace.tabs.map (renamedEntity (renamedIds renames)))[second]?) ↔
    ∀ rename ∈ renames, rename.fileId ≠ rename.newFileId →
      ∀ tab ∈ workspace.tabs, isEditorKind tab = true → tab.entityId = rename.fileId →
        ∀ other ∈ workspace.tabs, isEditorKind other = false →
          other.entityId ≠ rename.newFileId := by
  constructor
  · intro apart rename listed moves tab member editor source other member' content target
    obtain ⟨first, inside, rfl⟩ := List.mem_iff_getElem.mp member
    obtain ⟨second, inside', rfl⟩ := List.mem_iff_getElem.mp member'
    refine apart first second rename.fileId rename.newFileId ?_ ?_ moves ?_
    · simp [inside, source]
    · simp [inside', target]
    · have renamed : renamedEntity (renamedIds renames) workspace.tabs[first] =
          rename.newFileId := by
        rw [renamedEntity_eq_iff valid listed member, if_pos editor]
        exact source
      have stays : renamedEntity (renamedIds renames) workspace.tabs[second] =
          rename.newFileId := by
        rw [renamedEntity, content]
        exact target
      simp [inside, inside', renamed, stays]
  · intro kinds first second entityId other firstAt secondAt different same
    rw [List.getElem?_map, Option.map_eq_some_iff] at firstAt secondAt
    obtain ⟨tab, tabAt, rfl⟩ := firstAt
    obtain ⟨next, nextAt, rfl⟩ := secondAt
    have member := List.mem_of_getElem? tabAt
    have member' := List.mem_of_getElem? nextAt
    rw [List.getElem?_map, List.getElem?_map, tabAt, nextAt, Option.map_some, Option.map_some,
      Option.some.injEq] at same
    cases editor : isEditorKind tab with
    | true =>
      rw [renamedEntity, if_pos editor] at same
      cases editor' : isEditorKind next with
      | true =>
        rw [renamedEntity, if_pos editor'] at same
        exact different (renamedId_apart valid member member' editor editor' same)
      | false =>
        rw [renamedEntity, editor'] at same
        exact renamedId_ne_of_kinds valid kinds member member' editor editor' different same
    | false =>
      rw [renamedEntity, editor] at same
      cases editor' : isEditorKind next with
      | true =>
        rw [renamedEntity, if_pos editor'] at same
        exact renamedId_ne_of_kinds valid kinds member' member editor' editor different.symm
          same.symm
      | false =>
        rw [renamedEntity, editor'] at same
        exact different same

end Entities

/-! ## Records -/

section Records

/-- A record under the renames: the last one from its path, or itself. -/
def carried (renames : List EditorFileRename) (file : LayoutEditorFile) : LayoutEditorFile :=
  (recordFrom renames file.filePath).getD file

/-- The renames that carry a record, as the source flattens them. -/
def recordMoves (renames : List EditorFileRename) : List (String × LayoutEditorFile × String) :=
  renames.filterMap fun rename =>
    rename.record.map fun record => (record.1, record.2, rename.newFileId)

theorem recordFrom_eq_moves (path : String) :
    (JsMap.ofPairs ((recordMoves renames).map fun move => (move.1, move.2.1))).get? path =
      recordFrom renames path := by
  have pairs : (recordMoves renames).map (fun move => (move.1, move.2.1)) =
      renames.filterMap EditorFileRename.record := by
    rw [recordMoves, List.map_filterMap]
    refine List.filterMap_congr fun rename _ => ?_
    cases rename.record <;> rfl
  rw [pairs, recordFrom]

theorem addedRecords_eq_moves (valid : RenamesValid workspace renames) :
    ((recordMoves renames).filter fun move =>
      move.2.2 ∈ workspace.tabs.map (renamedEntity (renamedIds renames)) ∧
        !workspace.files.any (·.filePath = move.1)).map (·.2.1) =
      addedRecords workspace renames := by
  have shown (rename : EditorFileRename) (listed : rename ∈ renames) :
      (rename.newFileId ∈ workspace.tabs.map (renamedEntity (renamedIds renames))) ↔
        isShown workspace rename = true := by
    rw [List.mem_map, isShown, List.any_eq_true]
    refine exists_congr fun tab => and_congr_right fun member => ?_
    rw [renamedEntity_eq_iff valid listed member]
    split <;> simp
  rw [recordMoves, List.filter_filterMap, List.map_filterMap, addedRecords]
  refine List.filterMap_congr fun rename listed => ?_
  cases rename.record with
  | none => rfl
  | some record =>
    simp only [Option.map_some, Option.filter_some, shown rename listed, Bool.decide_and,
      Bool.decide_eq_true]
    split <;> rfl

theorem files_renamedWorkspace (valid : RenamesValid workspace renames)
    (tabIds : JsMap String String) :
    (renamedWorkspace workspace renames (renamedIds renames) tabIds).files =
      workspace.files.map (carried renames) ++ addedRecords workspace renames := by
  have added := addedRecords_eq_moves valid
  have kept : workspace.files.map (fun file =>
      ((JsMap.ofPairs ((recordMoves renames).map fun move => (move.1, move.2.1))).get?
        file.filePath).getD file) = workspace.files.map (carried renames) :=
    List.map_congr_left fun file _ => by rw [recordFrom_eq_moves, carried]
  show (renamedEditorFiles workspace.editorFiles renames
    ((workspace.tabs.map (renamedTab (renamedIds renames) tabIds)).map
      LayoutTab.entityId)).getD [] = _
  have entities : (workspace.tabs.map (renamedTab (renamedIds renames) tabIds)).map
      LayoutTab.entityId = workspace.tabs.map (renamedEntity (renamedIds renames)) :=
    @entityIds_renamedWorkspace workspace renames (renamedIds renames) tabIds
  rw [entities, renamedEditorFiles]
  change (if recordMoves renames = [] then _ else _ : Option (List LayoutEditorFile)).getD [] = _
  by_cases plain : recordMoves renames = []
  · rw [plain] at kept added
    rw [if_pos plain, ← kept, ← added]
    simp [WorkspaceLayout.files, JsMap.ofPairs]
  · rw [if_neg plain]
    dsimp only
    split
    · next nothing =>
      have unfiled : workspace.files = [] := by rw [WorkspaceLayout.files, nothing.1]; rfl
      have unadded : addedRecords workspace renames = [] := by
        rw [← added]
        exact List.map_eq_nil_iff.mpr nothing.2
      rw [unfiled, unadded]
      rfl
    · rw [Option.getD_some, ← kept, ← added]
      rfl

theorem map_carried_perm {Name : Type} (name : LayoutEditorFile → Name)
    (files : List LayoutEditorFile) :
    ((files.map (carried renames)).map name).Perm
      ((files.filterMap fun file => recordFrom renames file.filePath).map name ++
        (files.filter fun file => (recordFrom renames file.filePath).isNone).map name) := by
  induction files with
  | nil => exact .nil
  | cons file files ih =>
    cases written : recordFrom renames file.filePath with
    | none =>
      have stays : carried renames file = file := by rw [carried, written, Option.getD_none]
      simp only [List.map_cons, List.filterMap_cons, List.filter_cons, written,
        Option.isNone_none, if_true, stays]
      exact (ih.cons _).trans List.perm_middle.symm
    | some moved =>
      have moves : carried renames file = moved := by rw [carried, written, Option.getD_some]
      simp only [List.map_cons, List.filterMap_cons, List.filter_cons, written,
        Option.isNone_some, Bool.false_eq_true, if_false, moves]
      exact ih.cons _

/-- The records stay apart exactly when what is written is apart from itself and what stays. -/
theorem distinctFiles_renamed_iff (valid : RenamesValid workspace renames)
    (distinct : DistinctFiles ownerIsMain workspace) (tabIds : JsMap String String) :
    DistinctFiles ownerIsMain
        (renamedWorkspace workspace renames (renamedIds renames) tabIds) ↔
      ((writtenRecords workspace renames).map (LayoutEditorFile.key ownerIsMain)).Nodup ∧
        ∀ written ∈ writtenRecords workspace renames,
          ∀ staying ∈ stayingRecords workspace renames,
            written.key ownerIsMain ≠ staying.key ownerIsMain := by
  have perm : ((renamedWorkspace workspace renames (renamedIds renames) tabIds).files.map
        (LayoutEditorFile.key ownerIsMain)).Perm
      ((writtenRecords workspace renames).map (LayoutEditorFile.key ownerIsMain) ++
        (stayingRecords workspace renames).map (LayoutEditorFile.key ownerIsMain)) := by
    rw [files_renamedWorkspace valid, List.map_append, writtenRecords, List.map_append,
      List.append_assoc]
    refine ((map_carried_perm _ _).append_right _).trans ?_
    rw [List.append_assoc]
    exact List.perm_append_comm.append_left _
  have stays : ((stayingRecords workspace renames).map
      (LayoutEditorFile.key ownerIsMain)).Nodup :=
    distinct.sublist (List.filter_sublist.map _)
  rw [DistinctFiles, perm.nodup_iff, List.nodup_append]
  constructor
  · rintro ⟨written, _, vacant⟩
    refine ⟨written, fun file member staying member' => ?_⟩
    exact vacant _ (List.mem_map_of_mem member) _ (List.mem_map_of_mem member')
  · rintro ⟨written, vacant⟩
    refine ⟨written, stays, ?_⟩
    intro first member second member'
    obtain ⟨file, listed, rfl⟩ := List.mem_map.mp member
    obtain ⟨staying, stayed, rfl⟩ := List.mem_map.mp member'
    exact vacant file listed staying stayed

/-- Records that no rename means are left alone exactly when those overwritten are meant. -/
theorem kept_renamed_iff (valid : RenamesValid workspace renames)
    (tabIds : JsMap String String) :
    (∀ (index : Nat) file, workspace.files[index]? = some file →
      (∀ rename ∈ renames, isOldFile ownerIsMain workspace.worktreeId rename file = false) →
        (renamedWorkspace workspace renames (renamedIds renames) tabIds).files[index]? =
          some file) ↔
    ∀ file ∈ workspace.files, ∀ written, recordFrom renames file.filePath = some written →
      written = file ∨
        ∃ rename ∈ renames, isOldFile ownerIsMain workspace.worktreeId rename file = true := by
  have at_index {index : Nat} {file : LayoutEditorFile}
      (stored : workspace.files[index]? = some file) :
      (renamedWorkspace workspace renames (renamedIds renames) tabIds).files[index]? =
        some (carried renames file) := by
    obtain ⟨inside, _⟩ := List.getElem?_eq_some_iff.mp stored
    rw [files_renamedWorkspace valid, List.getElem?_append_left (by simpa using inside),
      List.getElem?_map, stored, Option.map_some]
  constructor
  · intro kept file member written moved
    by_cases meant : ∃ rename ∈ renames,
        isOldFile ownerIsMain workspace.worktreeId rename file = true
    · exact .inr meant
    · left
      obtain ⟨index, stored⟩ := List.mem_iff_getElem?.mp member
      have unmeant : ∀ rename ∈ renames,
          isOldFile ownerIsMain workspace.worktreeId rename file = false := by
        intro rename listed
        exact Bool.eq_false_of_not_eq_true fun holds => meant ⟨rename, listed, holds⟩
      have same := kept index file stored unmeant
      rw [at_index stored, carried, moved, Option.getD_some] at same
      exact Option.some.inj same
  · intro own index file stored unmeant
    rw [at_index stored, carried]
    cases moved : recordFrom renames file.filePath with
    | none => rfl
    | some written =>
      rcases own file (List.mem_of_getElem? stored) written moved with
        same | ⟨rename, listed, meant⟩
      · rw [same, Option.getD_some]
      · rw [unmeant rename listed] at meant
        cases meant

theorem filesKept_renamed_iff (valid : RenamesValid workspace renames)
    (distinct : DistinctFiles ownerIsMain workspace) (tabIds : JsMap String String) :
    FilesKept ownerIsMain renames workspace
        (renamedWorkspace workspace renames (renamedIds renames) tabIds) ↔
      DestinationsVacant ownerIsMain renames workspace := by
  constructor
  · rintro ⟨apart, kept, entities⟩
    obtain ⟨written, vacant⟩ := (distinctFiles_renamed_iff valid distinct tabIds).mp apart
    refine ⟨written, vacant, (kept_renamed_iff valid tabIds).mp kept, ?_⟩
    rw [entityIds_renamedWorkspace] at entities
    exact (entities_apart_iff valid).mp entities
  · rintro ⟨written, vacant, own, kinds⟩
    refine ⟨(distinctFiles_renamed_iff valid distinct tabIds).mpr ⟨written, vacant⟩,
      (kept_renamed_iff valid tabIds).mpr own, ?_⟩
    rw [entityIds_renamedWorkspace]
    exact (entities_apart_iff valid).mpr kinds

end Records

/-! ## The parts of a command -/

section Parts

/-- A part's workspace as it was, valid for its renames, and as they leave it. -/
structure PartRenamed (before after : WorkspaceLayoutModel) (key : String)
    (renames : List EditorFileRename) (workspace : WorkspaceLayout) : Prop where
  stored : before.workspaces.get? key = some workspace
  valid : RenamesValid workspace renames
  renamed : after.workspaces.get? key = some (renamedWorkspace workspace renames
    (renamedIds renames) (renamedTabIds workspace (renamedIds renames)))

theorem of_renamePart {state next : WorkspaceLayoutModel × JsMap String String}
    {part : String × List EditorFileRename} (applied : renamePart state part = .ok next) :
    (∃ workspace, PartRenamed state.1 next.1 part.1 part.2 workspace) ∧
      ∀ other, other ≠ part.1 →
        next.1.workspaces.get? other = state.1.workspaces.get? other := by
  unfold renamePart renameInWorkspace at applied
  cases stored : state.1.workspaces.get? part.1 with
  | none =>
    rw [stored] at applied
    cases applied
  | some workspace =>
    rw [stored] at applied
    dsimp only at applied
    split at applied
    · cases applied
    · next valid =>
      split at applied
      · cases applied
      · obtain rfl := Except.ok.inj applied
        refine ⟨⟨workspace, stored, renamesValid_of_accepted valid, ?_⟩, ?_⟩
        · exact JsMap.get?_set_self ..
        · intro other different
          exact JsMap.get?_set_of_ne _ _ different

/-- Each part is applied to its workspace as the command found it. -/
theorem of_renameParts {parts : List (String × List EditorFileRename)} :
    ∀ {state next : WorkspaceLayoutModel × JsMap String String}, (parts.map Prod.fst).Nodup →
      parts.foldlM renamePart state = .ok next →
      (∀ part ∈ parts, ∃ workspace, PartRenamed state.1 next.1 part.1 part.2 workspace) ∧
        ∀ other, other ∉ parts.map Prod.fst →
          next.1.workspaces.get? other = state.1.workspaces.get? other := by
  induction parts with
  | nil =>
    intro state next _ applied
    obtain rfl := Except.ok.inj applied
    exact ⟨by simp, fun _ _ => rfl⟩
  | cons part rest ih =>
    intro state next distinct applied
    rw [List.map_cons, List.nodup_cons] at distinct
    rw [List.foldlM_cons] at applied
    cases step : renamePart state part with
    | error code =>
      rw [step] at applied
      cases applied
    | ok middle =>
      rw [step] at applied
      obtain ⟨⟨workspace, stored, valid, renamed⟩, elsewhere⟩ := of_renamePart step
      obtain ⟨later, untouched⟩ := ih distinct.2 applied
      refine ⟨?_, ?_⟩
      · intro other member
        rcases List.mem_cons.mp member with rfl | member
        · refine ⟨workspace, stored, valid, ?_⟩
          rw [untouched _ distinct.1]
          exact renamed
        · obtain ⟨found, stored, valid, renamed⟩ := later other member
          refine ⟨found, ?_, valid, renamed⟩
          rw [← elsewhere other.1 fun same =>
            distinct.1 (same ▸ List.mem_map_of_mem member)]
          exact stored
      · intro other absent
        rw [List.map_cons, List.mem_cons, not_or] at absent
        rw [untouched other absent.2, elsewhere other absent.1]

theorem of_renameEditorFiles {ambient : Ambient} {context : LayoutContext}
    {command : RenameEditorFiles} {result : LayoutApplied}
    (accepted : applyLayoutCommand ambient model key (.renameEditorFiles command) context =
      .ok result) :
    ∃ next : WorkspaceLayoutModel × JsMap String String,
      (((key, command.renames) :: command.alsoIn).map Prod.fst).Nodup ∧
      ((key, command.renames) :: command.alsoIn).foldlM renamePart (model, .empty) = .ok next ∧
      result.model.workspaces = next.1.workspaces := by
  unfold applyLayoutCommand at accepted
  cases ran : applyCommand ambient model key (.renameEditorFiles command) context with
  | error code =>
    rw [ran] at accepted
    cases accepted
  | ok applied =>
    rw [ran] at accepted
    obtain rfl := Except.ok.inj accepted
    simp only [applyCommand] at ran
    split at ran
    · cases ran
    · simp only [applyToWorkspace, renameEditorFiles] at ran
      split at ran
      · cases ran
      · next distinct =>
        split at ran
        · cases ran
        · next next renamed folded =>
          obtain rfl := Except.ok.inj ran
          exact ⟨_, not_not.mp distinct, folded, workspaces_committed ..⟩

end Parts

/-! ## Accepted renames -/

section Accepted

theorem filesKept_refl (distinct : DistinctFiles ownerIsMain workspace) :
    FilesKept ownerIsMain [] workspace workspace where
  distinct := distinct
  kept := fun _ _ stored _ => stored
  apart := by
    intro first second entityId other firstAt secondAt different same
    rw [firstAt, secondAt] at same
    exact different (Option.some.inj same)

theorem destinationsVacant_nil : DestinationsVacant ownerIsMain [] workspace where
  apart := by simp [writtenRecords, addedRecords, recordFrom, JsMap.ofPairs]
  vacant := by simp [writtenRecords, addedRecords, recordFrom, JsMap.ofPairs]
  own := by simp [recordFrom, JsMap.ofPairs]
  kinds := by simp

/-- An accepted rename keeps every file exactly when its destinations are vacant. -/
theorem renameEditorFiles_keeps_files_iff (ambient : Ambient) (model : WorkspaceLayoutModel)
    (key : String) (command : RenameEditorFiles) (context : LayoutContext)
    (result : LayoutApplied)
    (distinct : ∀ other workspace, model.workspaces.get? other = some workspace →
      DistinctFiles ambient.ownerIsMain workspace)
    (accepted : applyLayoutCommand ambient model key (.renameEditorFiles command) context =
      .ok result) :
    (∀ other before after, model.workspaces.get? other = some before →
      result.model.workspaces.get? other = some after →
        FilesKept ambient.ownerIsMain (renamesIn key command other) before after) ↔
    ∀ other before, model.workspaces.get? other = some before →
      DestinationsVacant ambient.ownerIsMain (renamesIn key command other) before := by
  obtain ⟨next, parts, folded, workspaces⟩ := of_renameEditorFiles accepted
  obtain ⟨renamed, untouched⟩ := of_renameParts parts folded
  rw [workspaces]
  -- a workspace is a part's, renamed as it was, or none's and left alone
  have each (other : String) (before : WorkspaceLayout)
      (stored : model.workspaces.get? other = some before) :
      ∃ after, next.1.workspaces.get? other = some after ∧
        (FilesKept ambient.ownerIsMain (renamesIn key command other) before after ↔
          DestinationsVacant ambient.ownerIsMain (renamesIn key command other) before) := by
    cases listed : ((key, command.renames) :: command.alsoIn).lookup other with
    | none =>
      rw [renamesIn, listed, Option.getD_none]
      refine ⟨before, ?_, iff_of_true (filesKept_refl (distinct other before stored))
        destinationsVacant_nil⟩
      rw [untouched other (JsMap.lookup_eq_none_iff_not_mem.mp listed)]
      exact stored
    | some renames =>
      rw [renamesIn, listed, Option.getD_some]
      obtain ⟨workspace, found, valid, moved⟩ := renamed (other, renames)
        (JsMap.mem_of_lookup listed)
      obtain rfl := Option.some.inj (stored.symm.trans found)
      exact ⟨_, moved, filesKept_renamed_iff valid (distinct other before stored) _⟩
  constructor
  · intro kept other before stored
    obtain ⟨after, reached, same⟩ := each other before stored
    exact same.mp (kept other before after stored reached)
  · intro vacant other before after stored reached
    obtain ⟨same_after, reached', same⟩ := each other before stored
    obtain rfl := Option.some.inj (reached.symm.trans reached')
    exact same.mpr (vacant other before stored)

/-! ## A destination that no tab shows -/

def sourceTab : LayoutTab :=
  .content
    { id := "tab"
      entityId := "/repo/a.ts"
      createdAt := 0
      customTitle := none
      generatedTitle := none
      aiVaultTitle := .undefined
      quickCommandLabel := none
      color := none
      isPinned := none
      viewMode := none
      isPreview := none
      agentSessionAgent := none
      kind := .editor }

def sourceFile (filePath : String) : LayoutEditorFile := ⟨filePath, none, none, []⟩

/-- One shown file, beside records of others that no tab shows. -/
def openFilesModel (unshown : List String) : WorkspaceLayoutModel where
  hostId := "local"
  workspaces := JsMap.empty.set "w"
    { WorkspaceLayout.empty "w" with
      tabs := [sourceTab]
      groups := [⟨"g", ["tab"]⟩]
      groupLayout := some (.leaf "g")
      editorFiles := some (sourceFile "/repo/a.ts" :: unshown.map sourceFile) }
  records := ⟨none, none, none⟩
  legacy := ⟨.empty, none⟩

def sourceRename (path : String) : RenameEditorFiles :=
  ⟨[⟨"/repo/a.ts", path, some ("/repo/a.ts", sourceFile path), none⟩], []⟩

theorem workspaces_openFilesModel {unshown : List String} {other : String}
    (stored : (openFilesModel unshown).workspaces.get? other = some workspace) :
    workspace.files = sourceFile "/repo/a.ts" :: unshown.map sourceFile ∧
      workspace.tabs = [sourceTab] ∧ other = "w" := by
  rw [openFilesModel, JsMap.get?_set] at stored
  split at stored
  · next same =>
    obtain rfl := Option.some.inj stored
    exact ⟨rfl, rfl, same⟩
  · cases stored

/-- The shown file takes the path of a record beside it, and the two merge. -/
theorem rename_onto_unshown_record_merges :
    (∀ other workspace, (openFilesModel ["/repo/c.ts"]).workspaces.get? other = some workspace →
      DistinctFiles quietAmbient.ownerIsMain workspace) ∧
    ∃ result after,
      applyLayoutCommand quietAmbient (openFilesModel ["/repo/c.ts"]) "w"
        (.renameEditorFiles (sourceRename "/repo/c.ts")) quietContext = .ok result ∧
      result.model.workspaces.get? "w" = some after ∧
      ¬DistinctFiles quietAmbient.ownerIsMain after := by
  refine ⟨?_, _, _, rfl, rfl, by decide⟩
  intro other workspace stored
  rw [DistinctFiles, (workspaces_openFilesModel stored).1]
  decide

theorem rename_beside_unshown_record_keeps :
    ∃ result,
      applyLayoutCommand quietAmbient (openFilesModel ["/repo/c.ts"]) "w"
        (.renameEditorFiles (sourceRename "/repo/b.ts")) quietContext = .ok result ∧
      ∀ other before after,
        (openFilesModel ["/repo/c.ts"]).workspaces.get? other = some before →
        result.model.workspaces.get? other = some after →
          FilesKept quietAmbient.ownerIsMain
            (renamesIn "w" (sourceRename "/repo/b.ts") other) before after := by
  refine ⟨_, rfl, ?_⟩
  apply (renameEditorFiles_keeps_files_iff quietAmbient (openFilesModel ["/repo/c.ts"]) "w"
    (sourceRename "/repo/b.ts") quietContext _ ?_ rfl).mpr
  · intro other before stored
    obtain ⟨files, tabs, rfl⟩ := workspaces_openFilesModel stored
    refine ⟨?_, ?_, ?_, ?_⟩
    · rw [writtenRecords, addedRecords, files]
      unfold isShown
      rw [tabs]
      decide
    · rw [writtenRecords, stayingRecords, addedRecords, files]
      unfold isShown
      rw [tabs]
      decide
    · rw [files]
      have unmoved : recordFrom (renamesIn "w" (sourceRename "/repo/b.ts") "w") "/repo/c.ts" =
          none := by decide
      intro file member written moved
      rcases List.mem_cons.mp member with rfl | later
      · exact .inr ⟨_, List.mem_singleton_self _, by simp [isOldFile, sourceFile, quietAmbient]⟩
      · obtain rfl := List.mem_singleton.mp later
        rw [sourceFile, unmoved] at moved
        cases moved
    · rw [tabs]
      intro rename _ _ tab _ _ _ other member content
      rw [List.mem_singleton.mp member] at content
      cases content
  · intro other workspace stored
    rw [DistinctFiles, (workspaces_openFilesModel stored).1]
    decide

end Accepted

end OxeeUI.Layout
