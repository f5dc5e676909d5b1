import OxeeUI.Layout.RecordPatchFrame

/-!
# Patching whole sessions

The per-list facts, lifted over the workspaces of a field and the fields of a session.
-/

namespace OxeeUI.Layout

open OxeeUI.Library JsValue

/-! ## Lists of a workspace -/

@[simp]
theorem recordList_array_map (records : List Json) :
    recordList (.array (records.map .object)) = records := by
  unfold recordList items
  dsimp only
  induction records with
  | nil => rfl
  | cons record rest ih => rw [List.map_cons, List.filterMap_cons, ih]

@[simp] theorem recordList_undefined : recordList .undefined = [] := rfl

theorem IsRecordList.distinctRecords {idOf : Json → JsValue} {value : JsValue}
    (list : IsRecordList idOf value) : DistinctRecords idOf (recordList value) := by
  rcases list with rfl | ⟨records, rfl, distinct, strings⟩
  · exact ⟨List.nodup_nil, by simp⟩
  · rw [recordList_array_map]
    exact ⟨distinct, strings⟩

theorem IsRecordList.eq_array {idOf : Json → JsValue} {value : JsValue}
    (list : IsRecordList idOf value) (present : value ≠ .undefined) :
    value = .array ((recordList value).map .object) := by
  rcases list with rfl | ⟨records, rfl, _⟩
  · exact absurd rfl present
  · rw [recordList_array_map]

/-- Every list of a map is one of the field's kind. -/
def RecordLists (idOf : Json → JsValue) (lists : Json) : Prop :=
  ∀ key, IsRecordList idOf (lists.member key)

theorem HoldsRecordLists.asJson {idOf : Json → JsValue} {value : JsValue}
    (holds : HoldsRecordLists idOf value) : RecordLists idOf value.asJson := by
  rcases holds with rfl | ⟨lists, rfl, each⟩
  · exact fun key => Or.inl rfl
  · exact each

section Maps

variable {idOf : Json → JsValue} {stored before after : Json}

theorem recordList_patchedList (key : String) :
    recordList (patchedList idOf stored before after key) =
      patchList idOf (recordList (stored.member key)) (recordList (before.member key))
        (recordList (after.member key)) := by
  unfold patchedList
  dsimp only
  split
  case isTrue empty => rw [recordList_undefined, empty.1]
  case isFalse => rw [recordList_array_map]

theorem recordList_patchLists (key : String) :
    recordList ((patchLists idOf stored before after).member key) =
      if key ∈ changedKeys before after then
        patchList idOf (recordList (stored.member key)) (recordList (before.member key))
          (recordList (after.member key))
      else recordList (stored.member key) := by
  unfold patchLists
  rw [member_writeMembers]
  split
  · exact recordList_patchedList key
  · rfl

theorem patchLists_recordLists (keeps : KeepsId idOf) (storedLists : RecordLists idOf stored)
    (beforeLists : RecordLists idOf before) (afterLists : RecordLists idOf after) :
    RecordLists idOf (patchLists idOf stored before after) := by
  intro key
  unfold patchLists
  rw [member_writeMembers]
  split
  case isFalse => exact storedLists key
  case isTrue =>
    have records := patchList_distinctRecords keeps (storedLists key).distinctRecords
      (beforeLists key).distinctRecords (afterLists key).distinctRecords
    unfold patchedList
    dsimp only
    split
    · exact Or.inl rfl
    · exact Or.inr ⟨_, rfl, records.distinct, records.strings⟩

/-- The command leaves the record with an id alone: neither version has one, or both
have the same. -/
def LeavesRecord (idOf : Json → JsValue) (before after : List Json) (id : JsValue) : Prop :=
  (recordAt idOf before id = none ∧ recordAt idOf after id = none) ∨
    ∃ old next, recordAt idOf before id = some old ∧ recordAt idOf after id = some next ∧
      sameJson (.object old) (.object next) = true

theorem LeavesRecord.sameJson {before after : List Json} {id : JsValue}
    (leaves : LeavesRecord idOf before after id) :
    JsValue.sameJson (recordValue (recordAt idOf before id))
      (recordValue (recordAt idOf after id)) = true := by
  rcases leaves with ⟨early, late⟩ | ⟨old, next, early, late, same⟩
  · rw [early, late]
    rfl
  · rw [early, late]
    exact same

theorem count_patchLists (keeps : KeepsId idOf) (storedLists : RecordLists idOf stored)
    (beforeLists : RecordLists idOf before) (afterLists : RecordLists idOf after) {key : String}
    {record : Json} (member : record ∈ recordList (stored.member key))
    (leaves : LeavesRecord idOf (recordList (before.member key)) (recordList (after.member key))
      (idOf record)) :
    (recordList ((patchLists idOf stored before after).member key)).count record = 1 := by
  rw [recordList_patchLists]
  split
  · exact patchList_count keeps (storedLists key).distinctRecords (beforeLists key).distinctRecords
      (afterLists key).distinctRecords member leaves.sameJson
  · exact List.count_eq_one_of_mem (storedLists key).distinctRecords.distinct.of_map member

theorem patchLists_origin (keeps : KeepsId idOf) (storedLists : RecordLists idOf stored)
    (beforeLists : RecordLists idOf before) (afterLists : RecordLists idOf after) {key : String}
    {record : Json}
    (member : record ∈ recordList ((patchLists idOf stored before after).member key)) :
    idOf record ∈ (recordList (stored.member key)).map idOf ∨
      idOf record ∈ (recordList (after.member key)).map idOf := by
  rw [recordList_patchLists] at member
  split at member
  · exact patchList_origin keeps (storedLists key).distinctRecords
      (beforeLists key).distinctRecords (afterLists key).distinctRecords member
  · exact Or.inl (List.mem_map_of_mem member)

theorem sameJson_records {left right : List Json}
    (agree : List.Forall₂ (fun left right => sameJson (.object left) (.object right) = true)
      left right) :
    sameJson (.array (left.map .object)) (.array (right.map .object)) = true := by
  rw [sameJson_array_iff, List.forall₂_map_left_iff, List.forall₂_map_right_iff]
  exact agree

theorem patchLists_self (keeps : KeepsId idOf) (beforeLists : RecordLists idOf before)
    (afterLists : RecordLists idOf after)
    (noNewEmpty : ∀ key, before.member key = .undefined → after.member key ≠ .array []) :
    sameJson (.object (patchLists idOf before before after)) (.object after) = true := by
  rw [sameJson_object_iff]
  intro key
  unfold patchLists
  rw [member_writeMembers]
  split
  case isFalse unchanged =>
    exact Bool.eq_true_of_not_eq_false fun differ => unchanged (mem_changedKeys.mpr differ)
  case isTrue =>
    have agree := patchList_self keeps (beforeLists key).distinctRecords
      (afterLists key).distinctRecords
    unfold patchedList
    dsimp only
    split
    case isTrue empty =>
      rw [empty.1, List.forall₂_nil_left_iff] at agree
      rw [sameJson_undefined_left]
      by_contra present
      rcases empty.2 with absent | absent
      · exact present absent
      · refine noNewEmpty key absent ?_
        rw [(afterLists key).eq_array present, agree, List.map_nil]
    case isFalse kept =>
      by_cases present : after.member key = .undefined
      · -- nothing is left of a list the command removed
        rw [present, recordList_undefined, List.forall₂_nil_right_iff] at agree
        exact absurd ⟨by rw [present]; exact agree, Or.inl present⟩ kept
      · rw [(afterLists key).eq_array present]
        rw [recordList_array_map]
        exact sameJson_records agree

end Maps

/-! ## Sessions -/

namespace StoredSession

variable {ownerIsMain : Bool} (stored before after : StoredSession ownerIsMain)

theorem recordLists (session : StoredSession ownerIsMain) {field : String}
    {idOf : Json → JsValue} (listed : listFieldId ownerIsMain field = some idOf) :
    RecordLists idOf (session.fields.member field).asJson :=
  (session.lists field idOf listed).asJson

theorem member_patchRecords (stored before after : Json) (field : String) :
    (patchRecords ownerIsMain stored before after).member field =
      if field ∈ changedKeys before after then
        patchedField ownerIsMain stored before after field
      else stored.member field := by
  unfold patchRecords
  split
  case isTrue none => rw [none, if_neg (List.not_mem_nil)]
  case isFalse => exact member_writeMembers _ _ _ _

/-- The session with the command's edits written onto it. -/
def patch : StoredSession ownerIsMain where
  fields := patchRecords ownerIsMain stored.fields before.fields after.fields
  lists := by
    intro field idOf listed
    rw [member_patchRecords]
    split
    case isFalse => exact stored.lists field idOf listed
    case isTrue =>
      unfold patchedField
      split
      · exact Or.inl rfl
      · rw [listed]
        exact Or.inr ⟨_, rfl, patchLists_recordLists (listFieldId_keepsId listed)
          (stored.recordLists listed) (before.recordLists listed) (after.recordLists listed)⟩

/-- The command removed a field, and with it all its lists. -/
def DropsField (field : String) : Prop :=
  before.fields.member field ≠ .undefined ∧ after.fields.member field = .undefined

variable {stored before after}

theorem records_patch {field : String} {idOf : Json → JsValue}
    (listed : listFieldId ownerIsMain field = some idOf)
    (kept : ¬ before.DropsField after field) (key : String) :
    (stored.patch before after).records field key = stored.records field key ∧
        sameJson (before.fields.member field) (after.fields.member field) = true ∨
      (stored.patch before after).records field key =
        recordList ((patchLists idOf (stored.fields.member field).asJson
          (before.fields.member field).asJson (after.fields.member field).asJson).member key) := by
  unfold records patch
  dsimp only
  rw [member_patchRecords]
  split
  case isFalse unchanged =>
    exact Or.inl ⟨rfl, Bool.eq_true_of_not_eq_false fun differ =>
      unchanged (mem_changedKeys.mpr differ)⟩
  case isTrue changed =>
    unfold patchedField
    split
    case isTrue absent =>
      -- a field absent before and after has not changed
      rw [mem_changedKeys, absent] at changed
      have gone : before.fields.member field = .undefined := by
        by_contra present
        exact kept ⟨present, absent⟩
      rw [gone] at changed
      cases changed
    case isFalse =>
      rw [listed]
      exact Or.inr rfl

/-- A session that holds tab groups and nothing else. -/
def ofTabGroups (groups : Json) (lists : RecordLists (fun record => record.member "id") groups) :
    StoredSession false where
  fields := [("tabGroups", .object groups)]
  lists := by
    intro field idOf listed
    rw [Json.member_cons]
    split
    case isTrue here =>
      subst here
      cases listed
      exact Or.inr ⟨groups, rfl, lists⟩
    case isFalse => exact Or.inl rfl

/-- One workspace's only group. -/
def groupList (id : String) : JsValue := .array [.object [("id", .string id)]]

theorem recordLists_cons_groupList {groups : Json} (key id : String)
    (lists : RecordLists (fun record => record.member "id") groups) :
    RecordLists (fun record => record.member "id") ((key, groupList id) :: groups) := by
  intro asked
  rw [Json.member_cons]
  split
  · exact Or.inr ⟨[[("id", .string id)]], rfl, List.nodup_singleton _, by simp [Json.member_cons]⟩
  · exact lists asked

theorem recordLists_nil (idOf : Json → JsValue) : RecordLists idOf [] := fun _ => Or.inl rfl

/-- A stored session with a group of a workspace that the loader did not read. -/
def storedWithUnseenGroup : StoredSession false :=
  ofTabGroups _ (recordLists_cons_groupList "seen" "group"
    (recordLists_cons_groupList "unseen" "other" (recordLists_nil _)))

def seenGroupOnly : StoredSession false :=
  ofTabGroups _ (recordLists_cons_groupList "seen" "group" (recordLists_nil _))

/-- The session after a command that removed the last group it saw. -/
def withoutGroups : StoredSession false := ⟨[], fun _ _ _ => Or.inl rfl⟩

end StoredSession

end OxeeUI.Layout
