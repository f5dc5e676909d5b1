import OxeeUI.Layout.EditorFiles
import OxeeUI.Library.KeyedList

/-!
# Patching a stored session with a command's edits

The session saved before a command and after it are compared field by field, map key
by map key and record by record; what differs is written onto the stored session, so
that what the loader merely normalized stays as it is on disk.
-/

namespace OxeeUI.Layout

open OxeeUI.Library JsValue

/-- An open file is named by its path, or by its key where main owns the layout. -/
def openFileId (ownerIsMain : Bool) (record : Json) : JsValue :=
  match record.member "filePath" with
  | .string filePath =>
    .string (editorFileKey ownerIsMain filePath (record.member "runtimeEnvironmentId").string?)
  | filePath => filePath

/-- `LIST_FIELDS`: how the records of a field that holds lists of records are named. -/
def listFieldId (ownerIsMain : Bool) (field : String) : Option (Json → JsValue) :=
  if field = "tabsByWorktree" ∨ field = "unifiedTabs" ∨ field = "tabGroups" ∨
      field = "browserTabsByWorktree" then
    some fun record => record.member "id"
  else if field = "openFilesByWorktree" then some (openFileId ownerIsMain)
  else none

/-- `MAP_RECORD_DEPTH`: session maps are patched down to their records' fields. -/
def mapRecordDepth : Nat := 2

def changedKeys (before after : Json) : List String :=
  (before.memberKeys ++ after.memberKeys).eraseDups.filter fun key =>
    !sameJson (before.member key) (after.member key)

/-- Write a value for each of some keys; `undefined` deletes the key. -/
def writeMembers (value : String → JsValue) (keys : List String) (base : Json) : Json :=
  keys.foldl
    (fun patched key =>
      if value key = .undefined then patched.withoutMember key
      else patched.withMember key (value key)) base

def patchValue : Nat → JsValue → JsValue → JsValue → JsValue
  | 0, _, _, after => after
  | depth + 1, stored, before, after =>
    match before, after with
    | .object before, .object after =>
      -- A record the stored partition lacks is written whole; a missing map by its keys.
      if !stored.isRecord ∧ depth + 1 ≠ mapRecordDepth then .object after
      else
        .object <| writeMembers
          (fun key =>
            if Json.member after key = .undefined then .undefined
            else patchValue depth (stored.asJson.member key) (Json.member before key)
              (Json.member after key))
          (changedKeys before after) stored.asJson
    | _, _ => after

/-- A record, or `undefined` when there is none. -/
def recordValue (record : Option Json) : JsValue :=
  match record with
  | some record => .object record
  | none => .undefined

/-- Whether two versions of a record differ in their position only. -/
def renumbers (old next : Json) : Bool :=
  sameJson (.object (old.withMember "sortOrder" (.number 0)))
    (.object (next.withMember "sortOrder" (.number 0)))

/-- `asList`: the records of a list. -/
def recordList (value : JsValue) : List Json :=
  value.items.filterMap fun
    | .object record => some record
    | _ => none

section Lists

variable (idOf : Json → JsValue)

/-- Behind the nearest record that precedes it, else first or last. -/
def insertionIndex (result after : List Json) (position : Nat) : Nat :=
  match (after.take position).reverse.findSome? fun preceding =>
      result.findIdx? fun record => idOf record = idOf preceding with
  | some index => index + 1
  | none => if position = 0 then 0 else result.length

/-- One id's change, written onto the result so far. -/
def patchRecord (before after : List Json) (renumberedOnly : Bool) (result : List Json)
    (id : JsValue) : List Json :=
  let old := recordAt idOf before id
  let next := recordAt idOf after id
  if sameJson (recordValue old) (recordValue next) then result
  else
    match recordAt idOf result id, next with
    | some _, none => removeAt idOf id result
    | none, none => result
    | some _, some next =>
      modifyAt idOf
        (fun record => (patchValue 1 (.object record) (recordValue old) (.object next)).asJson)
        id result
    | none, some next =>
      -- Do not materialize load-supplied siblings that the command merely renumbered.
      if renumberedOnly ∧ old.any (renumbers · next) then result
      else
        result.insertIdx
          (insertionIndex idOf result after (after.findIdx fun record => idOf record = id)) next

def keptIds (list other : List Json) : List JsValue :=
  (list.map idOf).filter (· ∈ other.map idOf)

def patchList (stored before after : List Json) : List Json :=
  -- Unchanged relative order means renumbering only closed a removed record's gap.
  let renumberedOnly := sameJson (.array (keptIds idOf before after))
    (.array (keptIds idOf after before))
  let ids := (before.map idOf ++ after.map idOf).eraseDups
  let result := ids.foldl (patchRecord idOf before after renumberedOnly) stored
  if sameJson (.array (before.map idOf)) (.array (after.map idOf)) then result
  else
    -- The command reordered its own records: they take `after`'s order in the slots they hold.
    fillSlots (fun record => idOf record ∈ after.map idOf) result
      (after.filterMap fun record => recordAt idOf result (idOf record))

/-- What a workspace's list becomes; `undefined` deletes it. -/
def patchedList (stored before after : Json) (key : String) : JsValue :=
  let list := patchList idOf (recordList (stored.member key)) (recordList (before.member key))
    (recordList (after.member key))
  if list = [] ∧ (after.member key = .undefined ∨ stored.member key = .undefined) then .undefined
  else .array (list.map .object)

def patchLists (stored before after : Json) : Json :=
  writeMembers (patchedList idOf stored before after) (changedKeys before after) stored

end Lists

/-- What a field of the session becomes; `undefined` deletes it. -/
def patchedField (ownerIsMain : Bool) (stored before after : Json) (field : String) : JsValue :=
  -- The command dropped the field: stored records the load never read go with it.
  if after.member field = .undefined then .undefined
  else
    match listFieldId ownerIsMain field with
    | some idOf =>
      .object (patchLists idOf (stored.member field).asJson (before.member field).asJson
        (after.member field).asJson)
    | none =>
      patchValue mapRecordDepth (stored.member field) (before.member field)
        (after.member field)

/-- `patchRecords(stored, before, after)`. -/
def patchRecords (ownerIsMain : Bool) (stored before after : Json) : Json :=
  if changedKeys before after = [] then stored
  else
    writeMembers (patchedField ownerIsMain stored before after) (changedKeys before after) stored

/-! ## Sessions -/

/-- A workspace's list: absent, or records with an id each, none of them twice. -/
def IsRecordList (idOf : Json → JsValue) (value : JsValue) : Prop :=
  value = .undefined ∨ ∃ records : List Json, value = .array (records.map .object) ∧
    (records.map idOf).Nodup ∧ ∀ record ∈ records, ∃ id, idOf record = .string id

def HoldsRecordLists (idOf : Json → JsValue) (value : JsValue) : Prop :=
  value = .undefined ∨ ∃ lists : Json, value = .object lists ∧
    ∀ key, IsRecordList idOf (lists.member key)

/-- A session document: every per-workspace list holds records with distinct ids. -/
structure StoredSession (ownerIsMain : Bool) where
  fields : Json
  lists : ∀ field idOf, listFieldId ownerIsMain field = some idOf →
    HoldsRecordLists idOf (fields.member field)

namespace StoredSession

variable {ownerIsMain : Bool}

def records (session : StoredSession ownerIsMain) (field key : String) : List Json :=
  recordList ((session.fields.member field).asJson.member key)

end StoredSession

end OxeeUI.Layout
