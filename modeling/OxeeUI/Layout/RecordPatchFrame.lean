import OxeeUI.Layout.RecordPatch

/-!
# A patch writes what the command changed and nothing else

Each id of a list is patched by itself, so that what a patched list holds can be said
id by id; the order of the list only permutes it.
-/

namespace OxeeUI.Layout

open OxeeUI.Library JsValue

/-! ## Keys and values -/

theorem mem_changedKeys {before after : Json} {key : String} :
    key ∈ changedKeys before after ↔
      sameJson (before.member key) (after.member key) = false := by
  unfold changedKeys
  rw [List.mem_filter, List.mem_eraseDups, List.mem_append, Bool.not_eq_true',
    and_iff_right_iff_imp]
  intro differ
  by_contra absent
  rw [not_or] at absent
  rw [Json.member_of_not_mem_keys absent.1, Json.member_of_not_mem_keys absent.2,
    sameJson_refl] at differ
  cases differ

theorem member_writeMembers (value : String → JsValue) (keys : List String) (base : Json)
    (key : String) :
    (writeMembers value keys base).member key =
      if key ∈ keys then value key else base.member key := by
  unfold writeMembers
  induction keys generalizing base with
  | nil => simp
  | cons first rest ih =>
    rw [List.foldl_cons, ih]
    by_cases later : key ∈ rest
    · simp [later]
    · by_cases same : key = first
      · subst same
        by_cases absent : value key = .undefined
        · simp [later, absent, Json.member_withoutMember]
        · simp [later, absent, Json.member_withMember]
      · by_cases absent : value first = .undefined
        · simp [later, same, absent, Json.member_withoutMember]
        · simp [later, same, absent, Json.member_withMember]

theorem patchValue_self (depth : Nat) (before after : JsValue) :
    sameJson (patchValue depth before before after) after = true := by
  induction depth generalizing before after with
  | zero => exact sameJson_refl after
  | succ depth ih =>
    unfold patchValue
    split
    case h_2 => exact sameJson_refl after
    case h_1 before after =>
      rw [if_neg (by simp [isRecord]), sameJson_object_iff]
      intro key
      rw [member_writeMembers]
      by_cases changed : key ∈ changedKeys before after
      · rw [if_pos changed]
        by_cases absent : Json.member after key = .undefined
        · rw [if_pos absent, absent]
          exact sameJson_refl _
        · rw [if_neg absent]
          exact ih _ _
      · rw [if_neg changed]
        exact Bool.eq_true_of_not_eq_false fun differ => changed (mem_changedKeys.mpr differ)

theorem member_patchValue_one (record : Json) (old : Option Json) (next : Json) (key : String) :
    (patchValue 1 (.object record) (recordValue old) (.object next)).asJson.member key =
        next.member key ∨
      (patchValue 1 (.object record) (recordValue old) (.object next)).asJson.member key =
          record.member key ∧
        ∃ before, old = some before ∧
          sameJson (before.member key) (next.member key) = true := by
  cases old with
  | none => exact Or.inl rfl
  | some before =>
    simp only [patchValue, recordValue, isRecord, Bool.not_true, Bool.false_eq_true, false_and,
      if_false, asJson, member_writeMembers]
    by_cases changed : key ∈ changedKeys before next
    · rw [if_pos changed]
      by_cases absent : next.member key = .undefined
      · rw [if_pos absent]
        exact Or.inl absent.symm
      · rw [if_neg absent]
        exact Or.inl rfl
    · rw [if_neg changed]
      exact Or.inr ⟨rfl, before, rfl, by simpa [mem_changedKeys] using changed⟩

/-! ## Ids survive a patch -/

/-- Patching a record between two versions with its own id keeps the id. -/
def KeepsId (idOf : Json → JsValue) : Prop :=
  ∀ (record : Json) (old : Option Json) (next : Json) (id : String),
    idOf record = .string id → (∀ before, old = some before → idOf before = .string id) →
    idOf next = .string id →
    idOf (patchValue 1 (.object record) (recordValue old) (.object next)).asJson = .string id

theorem keepsId_member (key : String) : KeepsId fun record => record.member key := by
  intro record old next id recordId oldId nextId
  rcases member_patchValue_one record old next key with same | ⟨same, _⟩
  · exact same.trans nextId
  · exact same.trans recordId

theorem openFileId_string {ownerIsMain : Bool} {record : Json} {id : String}
    (named : openFileId ownerIsMain record = .string id) :
    ∃ filePath, record.member "filePath" = .string filePath ∧
      id = editorFileKey ownerIsMain filePath
        (record.member "runtimeEnvironmentId").string? := by
  unfold openFileId at named
  cases path : record.member "filePath" with
  | string filePath =>
    rw [path] at named
    exact ⟨filePath, rfl, (JsValue.string.inj named).symm⟩
  | _ =>
    rw [path] at named
    cases named

theorem keepsId_openFileId (ownerIsMain : Bool) : KeepsId (openFileId ownerIsMain) := by
  intro record old next id recordId oldId nextId
  obtain ⟨path, recordPath, recordKey⟩ := openFileId_string recordId
  obtain ⟨nextPath, nextPathMember, nextKey⟩ := openFileId_string nextId
  have parts := editorFileKey_inj (recordKey.symm.trans nextKey)
  rw [← parts.1] at nextPathMember nextKey
  have patchedPath :
      (patchValue 1 (.object record) (recordValue old) (.object next)).asJson.member
        "filePath" = .string path := by
    rcases member_patchValue_one record old next "filePath" with same | ⟨same, _⟩
    · rw [same, nextPathMember]
    · rw [same, recordPath]
  have patchedRuntime :
      editorFileKey ownerIsMain path
        ((patchValue 1 (.object record) (recordValue old) (.object next)).asJson.member
          "runtimeEnvironmentId").string? = id := by
    rcases member_patchValue_one record old next "runtimeEnvironmentId" with same | ⟨same, _⟩
    · rw [same, nextKey]
    · rw [same, recordKey]
  unfold openFileId
  rw [patchedPath]
  exact congrArg JsValue.string patchedRuntime

theorem listFieldId_keepsId {ownerIsMain : Bool} {field : String} {idOf : Json → JsValue}
    (listed : listFieldId ownerIsMain field = some idOf) : KeepsId idOf := by
  unfold listFieldId at listed
  split at listed
  · cases listed
    exact keepsId_member "id"
  · split at listed
    · cases listed
      exact keepsId_openFileId ownerIsMain
    · cases listed

/-! ## One list, id by id -/

section Lists

variable (idOf : Json → JsValue)

def patchedRecord (before after : List Json) (renumberedOnly : Bool) (id : JsValue)
    (held : Option Json) : Option Json :=
  let old := recordAt idOf before id
  let next := recordAt idOf after id
  if sameJson (recordValue old) (recordValue next) then held
  else
    match held, next with
    | _, none => none
    | some record, some next =>
      some (patchValue 1 (.object record) (recordValue old) (.object next)).asJson
    | none, some next =>
      if renumberedOnly ∧ old.any (renumbers · next) then none else some next

variable {idOf}
variable {result stored : List Json} (before after : List Json) (renumberedOnly : Bool)

variable (idOf result) in
theorem insertionIndex_le (position : Nat) :
    insertionIndex idOf result after position ≤ result.length := by
  unfold insertionIndex
  split
  case h_1 index found =>
    obtain ⟨preceding, _, here⟩ := List.exists_of_findSome?_eq_some found
    exact (List.findIdx?_eq_some_iff_findIdx_eq.mp here).1
  case h_2 =>
    split
    · exact Nat.zero_le _
    · exact Nat.le_refl _

/-- One id's change keeps the ids distinct and touches no other id. -/
theorem patchRecord_spec (keeps : KeepsId idOf) (distinct : (result.map idOf).Nodup)
    (id : String) :
    ((patchRecord idOf before after renumberedOnly result (.string id)).map idOf).Nodup ∧
      ∀ other, recordAt idOf
          (patchRecord idOf before after renumberedOnly result (.string id)) other =
        if other = .string id then
          patchedRecord idOf before after renumberedOnly (.string id)
            (recordAt idOf result (.string id))
        else recordAt idOf result other := by
  unfold patchRecord patchedRecord
  dsimp only
  split
  case isTrue =>
    refine ⟨distinct, fun other => ?_⟩
    by_cases same : other = .string id
    · rw [if_pos same, same]
    · rw [if_neg same]
  case isFalse =>
    cases held : recordAt idOf result (.string id) with
    | none =>
      cases later : recordAt idOf after (.string id) with
      | none =>
        refine ⟨distinct, fun other => ?_⟩
        by_cases same : other = .string id
        · rw [if_pos same, same, held]
        · rw [if_neg same]
      | some next =>
        have own := key_of_recordAt later
        have fresh : idOf next ∉ result.map idOf := by
          rw [own]
          exact recordAt_eq_none_iff.mp held
        dsimp only
        split
        case isTrue =>
          refine ⟨distinct, fun other => ?_⟩
          by_cases same : other = .string id
          · rw [if_pos same, same, held]
          · rw [if_neg same]
        case isFalse =>
          have bound := insertionIndex_le idOf result after
            (after.findIdx fun record => idOf record = .string id)
          refine ⟨nodup_insertIdx bound distinct fresh, fun other => ?_⟩
          rw [recordAt_insertIdx bound distinct fresh, own]
    | some record =>
      cases later : recordAt idOf after (.string id) with
      | none =>
        refine ⟨nodup_removeAt distinct, fun other => ?_⟩
        rw [recordAt_removeAt distinct]
      | some next =>
        have keepsHere : ∀ record ∈ result, idOf record = .string id →
            idOf (patchValue 1 (.object record) (recordValue (recordAt idOf before
              (.string id))) (.object next)).asJson = .string id := by
          intro record _ own
          exact keeps record _ next id own (fun old found => key_of_recordAt found)
            (key_of_recordAt later)
        dsimp only
        refine ⟨?_, fun other => ?_⟩
        · rw [map_key_modifyAt keepsHere]
          exact distinct
        · rw [recordAt_modifyAt keepsHere, held]
          rfl

theorem foldl_patchRecord_spec (keeps : KeepsId idOf) (ids : List JsValue) (once : ids.Nodup)
    (strings : ∀ id ∈ ids, ∃ text, id = .string text) (distinct : (stored.map idOf).Nodup) :
    ((ids.foldl (patchRecord idOf before after renumberedOnly) stored).map idOf).Nodup ∧
      ∀ other, recordAt idOf
          (ids.foldl (patchRecord idOf before after renumberedOnly) stored) other =
        if other ∈ ids then
          patchedRecord idOf before after renumberedOnly other (recordAt idOf stored other)
        else recordAt idOf stored other := by
  induction ids generalizing stored with
  | nil => exact ⟨distinct, fun other => by simp⟩
  | cons id rest ih =>
    rw [List.nodup_cons] at once
    obtain ⟨text, rfl⟩ := strings id List.mem_cons_self
    have step := patchRecord_spec before after renumberedOnly keeps distinct text
    rw [List.foldl_cons]
    have run := ih once.2 (fun id member => strings id (List.mem_cons_of_mem _ member)) step.1
    refine ⟨run.1, fun other => ?_⟩
    rw [run.2 other]
    by_cases later : other ∈ rest
    · have apart : other ≠ .string text := by
        rintro rfl
        exact once.1 later
      rw [if_pos later, if_pos (List.mem_cons_of_mem _ later), step.2, if_neg apart]
    · rw [if_neg later, step.2]
      by_cases same : other = .string text
      · rw [if_pos same, if_pos (by simp [same]), same]
      · rw [if_neg same, if_neg (by simp [same, later])]

structure DistinctRecords (idOf : Json → JsValue) (records : List Json) : Prop where
  distinct : (records.map idOf).Nodup
  strings : ∀ record ∈ records, ∃ id, idOf record = .string id

/-- What one list's patch decides before it looks at the records. -/
def renumberedOnlyBetween (idOf : Json → JsValue) (before after : List Json) : Bool :=
  sameJson (.array (keptIds idOf before after)) (.array (keptIds idOf after before))

/-- The list after every id is patched, in the order of the stored one. -/
def patchedIds (idOf : Json → JsValue) (stored before after : List Json) : List Json :=
  (before.map idOf ++ after.map idOf).eraseDups.foldl
    (patchRecord idOf before after (renumberedOnlyBetween idOf before after)) stored

variable {before after}

theorem patchedIds_spec (keeps : KeepsId idOf) (storedRecords : DistinctRecords idOf stored)
    (beforeRecords : DistinctRecords idOf before) (afterRecords : DistinctRecords idOf after) :
    ((patchedIds idOf stored before after).map idOf).Nodup ∧
      ∀ id, recordAt idOf (patchedIds idOf stored before after) id =
        patchedRecord idOf before after (renumberedOnlyBetween idOf before after) id
          (recordAt idOf stored id) := by
  have run := foldl_patchRecord_spec before after (renumberedOnlyBetween idOf before after) keeps
    (before.map idOf ++ after.map idOf).eraseDups (nodup_eraseDups _)
    (by
      intro id member
      rcases List.mem_append.mp (List.mem_eraseDups.mp member) with early | late
      · obtain ⟨record, present, rfl⟩ := List.mem_map.mp early
        exact beforeRecords.strings record present
      · obtain ⟨record, present, rfl⟩ := List.mem_map.mp late
        exact afterRecords.strings record present)
    storedRecords.distinct
  refine ⟨run.1, fun id => ?_⟩
  unfold patchedIds
  rw [run.2 id]
  split
  · rfl
  case isFalse absent =>
    -- an id the command never held is left as it is stored
    rw [List.mem_eraseDups, List.mem_append, not_or] at absent
    unfold patchedRecord
    rw [recordAt_eq_none_iff.mpr absent.1, recordAt_eq_none_iff.mpr absent.2]
    rfl

theorem mem_queue_iff (distinct : (result.map idOf).Nodup) {record : Json} :
    record ∈ after.filterMap (fun record => recordAt idOf result (idOf record)) ↔
      record ∈ result ∧ idOf record ∈ after.map idOf := by
  rw [List.mem_filterMap]
  constructor
  · rintro ⟨named, member, found⟩
    have spec := (recordAt_eq_some_iff distinct).mp found
    exact ⟨spec.1, spec.2 ▸ List.mem_map_of_mem member⟩
  · rintro ⟨member, named⟩
    obtain ⟨other, present, same⟩ := List.mem_map.mp named
    exact ⟨other, present, by rw [same]; exact recordAt_of_mem distinct member⟩

theorem queue_perm (distinct : (result.map idOf).Nodup)
    (afterRecords : DistinctRecords idOf after) :
    (after.filterMap fun record => recordAt idOf result (idOf record)).Perm
      (result.filter fun record => idOf record ∈ after.map idOf) := by
  have keyed : after.filterMap (fun record => recordAt idOf result (idOf record)) =
      (after.map idOf).filterMap (recordAt idOf result) := by
    rw [List.filterMap_map]
    rfl
  refine (List.perm_ext_iff_of_nodup ?_ (distinct.of_map.filter _)).mpr fun record => ?_
  · rw [keyed]
    refine afterRecords.distinct.filterMap fun first second record here there => ?_
    rw [← key_of_recordAt here, ← key_of_recordAt there]
  · rw [mem_queue_iff distinct, List.mem_filter, decide_eq_true_eq]

theorem patchList_perm (distinct : ((patchedIds idOf stored before after).map idOf).Nodup)
    (afterRecords : DistinctRecords idOf after) :
    (patchList idOf stored before after).Perm (patchedIds idOf stored before after) := by
  have unfolded : patchList idOf stored before after =
      if sameJson (.array (before.map idOf)) (.array (after.map idOf)) then
        patchedIds idOf stored before after
      else
        fillSlots (fun record => idOf record ∈ after.map idOf)
          (patchedIds idOf stored before after)
          (after.filterMap fun record =>
            recordAt idOf (patchedIds idOf stored before after) (idOf record)) := rfl
  rw [unfolded]
  split
  · exact List.Perm.refl _
  · exact fillSlots_perm_self (queue_perm distinct afterRecords)

theorem patchList_spec (keeps : KeepsId idOf) (storedRecords : DistinctRecords idOf stored)
    (beforeRecords : DistinctRecords idOf before) (afterRecords : DistinctRecords idOf after) :
    ((patchList idOf stored before after).map idOf).Nodup ∧
      ∀ id, recordAt idOf (patchList idOf stored before after) id =
        patchedRecord idOf before after (renumberedOnlyBetween idOf before after) id
          (recordAt idOf stored id) := by
  have ids := patchedIds_spec keeps storedRecords beforeRecords afterRecords
  have perm := patchList_perm ids.1 afterRecords
  refine ⟨((perm.map idOf).nodup_iff).mpr ids.1, fun id => ?_⟩
  rw [recordAt_perm perm (((perm.map idOf).nodup_iff).mpr ids.1), ids.2]

theorem patchedRecord_origin {id : JsValue} {held : Option Json} {record : Json}
    (patched : patchedRecord idOf before after renumberedOnly id held = some record) :
    held.isSome ∨ (recordAt idOf after id).isSome := by
  unfold patchedRecord at patched
  dsimp only at patched
  split at patched
  · rw [patched]
    exact Or.inl rfl
  · cases held with
    | some _ => exact Or.inl rfl
    | none =>
      cases later : recordAt idOf after id with
      | none => simp [later] at patched
      | some _ => exact Or.inr rfl

theorem patchList_distinctRecords (keeps : KeepsId idOf)
    (storedRecords : DistinctRecords idOf stored) (beforeRecords : DistinctRecords idOf before)
    (afterRecords : DistinctRecords idOf after) :
    DistinctRecords idOf (patchList idOf stored before after) where
  distinct := (patchList_spec keeps storedRecords beforeRecords afterRecords).1
  strings := by
    intro record member
    have spec := patchList_spec keeps storedRecords beforeRecords afterRecords
    have found := recordAt_of_mem spec.1 member
    rw [spec.2] at found
    rcases patchedRecord_origin _ found with kept | added
    · obtain ⟨other, present, same⟩ := List.mem_map.mp (recordAt_isSome_iff.mp kept)
      rw [← same]
      exact storedRecords.strings other present
    · obtain ⟨other, present, same⟩ := List.mem_map.mp (recordAt_isSome_iff.mp added)
      rw [← same]
      exact afterRecords.strings other present

theorem patchList_count (keeps : KeepsId idOf) (storedRecords : DistinctRecords idOf stored)
    (beforeRecords : DistinctRecords idOf before) (afterRecords : DistinctRecords idOf after)
    {record : Json} (member : record ∈ stored)
    (unchanged : sameJson (recordValue (recordAt idOf before (idOf record)))
      (recordValue (recordAt idOf after (idOf record))) = true) :
    (patchList idOf stored before after).count record = 1 := by
  have spec := patchList_spec keeps storedRecords beforeRecords afterRecords
  have found : recordAt idOf (patchList idOf stored before after) (idOf record) = some record := by
    rw [spec.2, recordAt_of_mem storedRecords.distinct member]
    unfold patchedRecord
    rw [if_pos unchanged]
  exact List.count_eq_one_of_mem spec.1.of_map (mem_of_recordAt found)

theorem patchList_origin (keeps : KeepsId idOf) (storedRecords : DistinctRecords idOf stored)
    (beforeRecords : DistinctRecords idOf before) (afterRecords : DistinctRecords idOf after)
    {record : Json} (member : record ∈ patchList idOf stored before after) :
    idOf record ∈ stored.map idOf ∨ idOf record ∈ after.map idOf := by
  have spec := patchList_spec keeps storedRecords beforeRecords afterRecords
  have found := recordAt_of_mem spec.1 member
  rw [spec.2] at found
  rcases patchedRecord_origin _ found with kept | added
  · exact Or.inl (recordAt_isSome_iff.mp kept)
  · exact Or.inr (recordAt_isSome_iff.mp added)

/-! ## A list patched from what the command started from -/

theorem patchedRecord_self (id : JsValue) :
    sameJson
      (recordValue (patchedRecord idOf before after renumberedOnly id (recordAt idOf before id)))
      (recordValue (recordAt idOf after id)) = true := by
  unfold patchedRecord
  dsimp only
  split
  case isTrue same => exact same
  case isFalse =>
    cases held : recordAt idOf before id with
    | none =>
      cases later : recordAt idOf after id with
      | none => exact sameJson_refl _
      | some next => simp
    | some record =>
      cases later : recordAt idOf after id with
      | none => exact sameJson_refl _
      | some next =>
        have patched := patchValue_self 1 (.object record) (.object next)
        have isObject : patchValue 1 (.object record) (.object record) (.object next) =
            .object (patchValue 1 (.object record) (.object record) (.object next)).asJson := by
          simp [patchValue, isRecord, asJson]
        rw [isObject] at patched
        exact patched

theorem map_key_foldl_patchRecord (ids : List JsValue)
    (sameIds : ∀ id ∈ ids, id ∈ after.map idOf ∧ id ∈ result.map idOf)
    (keeps : KeepsId idOf) (strings : ∀ id ∈ ids, ∃ text, id = .string text) :
    (ids.foldl (patchRecord idOf before after renumberedOnly) result).map idOf =
      result.map idOf := by
  induction ids generalizing result with
  | nil => rfl
  | cons id rest ih =>
    have here := sameIds id List.mem_cons_self
    obtain ⟨text, rfl⟩ := strings id List.mem_cons_self
    obtain ⟨next, later⟩ := Option.isSome_iff_exists.mp (recordAt_isSome_iff.mpr here.1)
    obtain ⟨record, held⟩ := Option.isSome_iff_exists.mp (recordAt_isSome_iff.mpr here.2)
    have step : (patchRecord idOf before after renumberedOnly result (.string text)).map idOf =
        result.map idOf := by
      unfold patchRecord
      rw [later, held]
      dsimp only
      split
      · rfl
      · refine map_key_modifyAt fun record _ own => ?_
        exact keeps record _ next text own (fun old found => key_of_recordAt found)
          (key_of_recordAt later)
    rw [List.foldl_cons, ih ?_ fun id member => strings id (List.mem_cons_of_mem _ member)]
    · exact step
    · intro id member
      rw [step]
      exact sameIds id (List.mem_cons_of_mem _ member)

theorem sameJson_strings {left right : List JsValue}
    (strings : ∀ id ∈ left, ∃ text, id = .string text)
    (same : sameJson (.array left) (.array right) = true) : left = right := by
  rw [sameJson_array_iff] at same
  induction same with
  | nil => rfl
  | cons first rest ih =>
    obtain ⟨text, rfl⟩ := strings _ List.mem_cons_self
    rw [sameJson_plain (by simp) (by simp) first,
      ih fun id member => strings id (List.mem_cons_of_mem _ member)]

def AgreeById (idOf : Json → JsValue) (left right : List Json) : Prop :=
  ∀ id, sameJson (recordValue (recordAt idOf left id)) (recordValue (recordAt idOf right id)) =
    true

namespace AgreeById

variable {left right : List Json}

theorem records (agree : AgreeById idOf left right) {id : JsValue} {first second : Json}
    (here : recordAt idOf left id = some first) (there : recordAt idOf right id = some second) :
    sameJson (.object first) (.object second) = true := by
  have same := agree id
  rwa [here, there] at same

theorem symm (agree : AgreeById idOf left right) : AgreeById idOf right left :=
  fun id => sameJson_symm (agree id)

theorem exists_right (agree : AgreeById idOf left right) (distinct : (left.map idOf).Nodup)
    {record : Json} (member : record ∈ left) :
    ∃ other, recordAt idOf right (idOf record) = some other := by
  have same := agree (idOf record)
  rw [recordAt_of_mem distinct member] at same
  cases there : recordAt idOf right (idOf record) with
  | none =>
    rw [there] at same
    cases same
  | some other => exact ⟨other, rfl⟩

theorem queue (agree : AgreeById idOf left right) (distinct : (right.map idOf).Nodup)
    (records : List Json) (within : ∀ record ∈ records, record ∈ right) :
    List.Forall₂ (fun left right => sameJson (.object left) (.object right) = true)
      (records.filterMap fun record => recordAt idOf left (idOf record)) records := by
  induction records with
  | nil => exact .nil
  | cons record rest ih =>
    have member := within record List.mem_cons_self
    obtain ⟨held, found⟩ := agree.symm.exists_right distinct member
    rw [List.filterMap_cons, found]
    exact .cons (agree.records found (recordAt_of_mem distinct member))
      (ih fun other present => within other (List.mem_cons_of_mem _ present))

end AgreeById

theorem patchedIds_agree (keeps : KeepsId idOf) (beforeRecords : DistinctRecords idOf before)
    (afterRecords : DistinctRecords idOf after) :
    AgreeById idOf (patchedIds idOf before before after) after := by
  intro id
  rw [(patchedIds_spec keeps beforeRecords beforeRecords afterRecords).2]
  exact patchedRecord_self _ id

theorem map_key_patchedIds (keeps : KeepsId idOf) (beforeRecords : DistinctRecords idOf before)
    (sameIds : before.map idOf = after.map idOf) :
    (patchedIds idOf before before after).map idOf = after.map idOf := by
  have within : ∀ id ∈ (before.map idOf ++ after.map idOf).eraseDups, id ∈ before.map idOf := by
    intro id member
    rwa [List.mem_eraseDups, ← sameIds, List.mem_append, or_self] at member
  rw [← sameIds]
  refine map_key_foldl_patchRecord _ _ (fun id member => ?_) keeps fun id member => ?_
  · exact ⟨sameIds ▸ within id member, within id member⟩
  · obtain ⟨record, present, rfl⟩ := List.mem_map.mp (within id member)
    exact beforeRecords.strings record present

/-- Patched from where the command started, a list is the command's own. -/
theorem patchList_self (keeps : KeepsId idOf) (beforeRecords : DistinctRecords idOf before)
    (afterRecords : DistinctRecords idOf after) :
    List.Forall₂ (fun left right => sameJson (.object left) (.object right) = true)
      (patchList idOf before before after) after := by
  have ids := patchedIds_spec keeps beforeRecords beforeRecords afterRecords
  have agree := patchedIds_agree keeps beforeRecords afterRecords
  have unfolded : patchList idOf before before after =
      if sameJson (.array (before.map idOf)) (.array (after.map idOf)) then
        patchedIds idOf before before after
      else
        fillSlots (fun record => idOf record ∈ after.map idOf)
          (patchedIds idOf before before after)
          (after.filterMap fun record =>
            recordAt idOf (patchedIds idOf before before after) (idOf record)) := rfl
  rw [unfolded]
  split
  case isTrue sameOrder =>
    have sameIds : before.map idOf = after.map idOf := by
      refine sameJson_strings (fun id member => ?_) sameOrder
      obtain ⟨record, present, rfl⟩ := List.mem_map.mp member
      exact beforeRecords.strings record present
    exact forall₂_of_recordAt (map_key_patchedIds keeps beforeRecords sameIds) ids.1
      fun id first second here there => agree.records here there
  case isFalse =>
    have placed : ∀ record ∈ patchedIds idOf before before after,
        decide (idOf record ∈ after.map idOf) = true := by
      intro record member
      obtain ⟨other, found⟩ := agree.exists_right ids.1 member
      rw [decide_eq_true_eq, ← recordAt_isSome_iff, found]
      rfl
    have perm := queue_perm ids.1 afterRecords
    rw [List.filter_eq_self.mpr placed] at perm
    rw [fillSlots_of_all_marked placed perm.length_eq]
    exact agree.queue afterRecords.distinct after fun _ member => member

end Lists

end OxeeUI.Layout
