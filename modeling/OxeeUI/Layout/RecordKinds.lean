import OxeeUI.Layout.Records
import OxeeUI.Library.KeyedList

/-!
# Diff and apply of one kind of records

A list of records is seen key by key.  The index keeps that view, the diff says where two
views differ, and applying it turns one view into the other.
-/

namespace OxeeUI.Layout

open OxeeUI.Library JsValue

variable {Record : Type} (kind : RecordKind Record)

/-- What is written for the first record with a key. -/
def RecordKind.view (records : List Record) (key : String) : Option JsValue :=
  (recordAt kind.keyOf records key).map kind.json

def RecordKind.Consistent (records : List Record) : Prop :=
  ∀ left ∈ records, ∀ right ∈ records, kind.keyOf left = kind.keyOf right →
    kind.json left = kind.json right

variable {kind}
variable {records before after : List Record}

theorem view_of_mem (consistent : kind.Consistent records) {record : Record}
    (member : record ∈ records) :
    kind.view records (kind.keyOf record) = some (kind.json record) := by
  unfold RecordKind.view
  have present : (recordAt kind.keyOf records (kind.keyOf record)).isSome :=
    recordAt_isSome_iff.mpr (List.mem_map_of_mem member)
  obtain ⟨first, found⟩ := Option.isSome_iff_exists.mp present
  rw [found, Option.map_some, consistent first (mem_of_recordAt found) record member
    (key_of_recordAt found)]

theorem view_eq_none_iff {key : String} :
    kind.view records key = none ↔ key ∉ records.map kind.keyOf := by
  unfold RecordKind.view
  rw [Option.map_eq_none_iff, recordAt_eq_none_iff]

theorem map_json_eq (consistent : kind.Consistent records) :
    records.map (fun record => some (kind.json record)) =
      (records.map kind.keyOf).map (kind.view records) := by
  rw [List.map_map]
  exact List.map_congr_left fun record member => (view_of_mem consistent member).symm

theorem map_json_eq_of_views (beforeConsistent : kind.Consistent before)
    (afterConsistent : kind.Consistent after)
    (sameOrder : before.map kind.keyOf = after.map kind.keyOf)
    (sameView : kind.view before = kind.view after) :
    before.map kind.json = after.map kind.json := by
  have same : before.map (fun record => some (kind.json record)) =
      after.map fun record => some (kind.json record) := by
    rw [map_json_eq beforeConsistent, map_json_eq afterConsistent, sameOrder, sameView]
  have composed : ∀ records : List Record,
      records.map (fun record => some (kind.json record)) = (records.map kind.json).map some := by
    intro records
    rw [List.map_map]
    rfl
  rw [composed, composed] at same
  exact List.map_injective_iff.mpr (Option.some_injective _) same

theorem keys_of_map_json (same : before.map kind.json = after.map kind.json) :
    before.map kind.keyOf = after.map kind.keyOf := by
  induction before generalizing after with
  | nil =>
    rw [List.map_nil, eq_comm, List.map_eq_nil_iff] at same
    rw [same]
  | cons first rest ih =>
    cases after with
    | nil => cases same
    | cons other later =>
      rw [List.map_cons, List.map_cons, List.cons.injEq] at same
      rw [List.map_cons, List.map_cons, kind.keyInJson _ _ same.1, ih same.2]

theorem view_of_map_json (same : before.map kind.json = after.map kind.json) :
    kind.view before = kind.view after := by
  funext key
  unfold RecordKind.view
  induction before generalizing after with
  | nil =>
    rw [List.map_nil, eq_comm, List.map_eq_nil_iff] at same
    rw [same]
  | cons first rest ih =>
    cases after with
    | nil => cases same
    | cons other later =>
      rw [List.map_cons, List.map_cons, List.cons.injEq] at same
      rw [recordAt_cons, recordAt_cons, kind.keyInJson _ _ same.1]
      split
      · rw [Option.map_some, Option.map_some, same.1]
      · exact ih same.2

theorem Consistent.of_map_json (consistent : kind.Consistent after)
    (same : before.map kind.json = after.map kind.json) : kind.Consistent before := by
  have origin : ∀ record ∈ before, ∃ other ∈ after,
      kind.keyOf other = kind.keyOf record ∧ kind.json other = kind.json record := by
    intro record member
    have written : kind.json record ∈ after.map kind.json := same ▸ List.mem_map_of_mem member
    obtain ⟨other, present, alike⟩ := List.mem_map.mp written
    exact ⟨other, present, kind.keyInJson _ _ alike, alike⟩
  intro left leftMember right rightMember sameKey
  obtain ⟨leftOther, leftPresent, leftKey, leftJson⟩ := origin left leftMember
  obtain ⟨rightOther, rightPresent, rightKey, rightJson⟩ := origin right rightMember
  rw [← leftJson, ← rightJson]
  exact consistent _ leftPresent _ rightPresent (by rw [leftKey, rightKey, sameKey])

/-! ## The map of the records -/

theorem foldl_set_mem {start : JsMap String Record} (written : List Record) {key : String}
    {record : Record}
    (found : (written.foldl (fun byKey record => byKey.set (kind.keyOf record) record)
      start).get? key = some record) :
    (record ∈ written ∧ kind.keyOf record = key) ∨
      (start.get? key = some record ∧ key ∉ written.map kind.keyOf) := by
  induction written generalizing start with
  | nil => exact Or.inr ⟨found, by simp⟩
  | cons first rest ih =>
    rcases ih found with ⟨member, same⟩ | ⟨earlier, absent⟩
    · exact Or.inl ⟨List.mem_cons_of_mem _ member, same⟩
    · rw [JsMap.get?_set] at earlier
      split at earlier
      case isTrue here =>
        cases earlier
        exact Or.inl ⟨List.mem_cons_self, here.symm⟩
      case isFalse apart => exact Or.inr ⟨earlier, by simp [apart, absent]⟩

theorem foldl_set_isSome (written : List Record) (start : JsMap String Record) (key : String) :
    ((written.foldl (fun byKey record => byKey.set (kind.keyOf record) record)
      start).get? key).isSome ↔ key ∈ written.map kind.keyOf ∨ (start.get? key).isSome := by
  induction written generalizing start with
  | nil => simp
  | cons first rest ih =>
    rw [List.foldl_cons, ih, JsMap.get?_set, List.map_cons, List.mem_cons]
    by_cases here : key = kind.keyOf first
    · simp [here]
    · simp [here]

theorem recordMap_view (consistent : kind.Consistent records) (key : String) :
    ((recordMap kind records).get? key).map kind.json = kind.view records key := by
  cases found : (recordMap kind records).get? key with
  | none =>
    rw [Option.map_none, eq_comm, view_eq_none_iff]
    intro member
    have present := (foldl_set_isSome records .empty key).mpr (Or.inl member)
    unfold recordMap at found
    rw [found] at present
    cases present
  | some record =>
    rcases foldl_set_mem records found with ⟨member, rfl⟩ | ⟨earlier, _⟩
    · rw [Option.map_some, view_of_mem consistent member]
    · cases earlier

theorem recordMap_get?_mem {key : String} {record : Record}
    (found : (recordMap kind records).get? key = some record) :
    record ∈ records ∧ kind.keyOf record = key := by
  rcases foldl_set_mem records found with here | ⟨earlier, _⟩
  · exact here
  · cases earlier

/-! ## The index -/

/-- An index shows the keys of its records in order, and their view. -/
structure IndexOf (kind : RecordKind Record) (records : List Record)
    (index : IndexedKind Record) : Prop where
  order : index.order = records.map kind.keyOf
  view : ∀ key, (index.byKey.get? key).map (·.2) = kind.view records key
  entries : ∀ key record json, index.byKey.get? key = some (record, json) →
    record ∈ records ∧ kind.keyOf record = key ∧ kind.json record = json
  consistent : kind.Consistent records

theorem view_append_singleton {record : Record}
    (consistent : kind.Consistent (records ++ [record])) (key : String) :
    kind.view (records ++ [record]) key =
      if key = kind.keyOf record then some (kind.json record) else kind.view records key := by
  split
  case isTrue here =>
    rw [here]
    exact view_of_mem consistent (by simp)
  case isFalse apart =>
    unfold RecordKind.view recordAt
    rw [List.find?_append]
    have last : [record].find? (fun record => kind.keyOf record = key) = none := by
      simp [Ne.symm apart]
    rw [last, Option.or_none]

theorem IndexOf.indexRecord {index next : IndexedKind Record} {record : Record}
    (shows : IndexOf kind records index) (step : indexRecord kind index record = some next) :
    IndexOf kind (records ++ [record]) next := by
  unfold Layout.indexRecord at step
  dsimp only at step
  split at step
  · cases step
  case isFalse compatible =>
    cases step
    -- a record already indexed under the key is written like the new one
    have alike : ∀ other ∈ records, kind.keyOf other = kind.keyOf record →
        kind.json other = kind.json record := by
      intro other member sameKey
      have seen := view_of_mem shows.consistent member
      rw [sameKey, ← shows.view] at seen
      obtain ⟨entry, found, same⟩ := Option.map_eq_some_iff.mp seen
      rw [found] at compatible
      simp only [Option.any_some, decide_eq_true_eq, ne_eq, not_not] at compatible
      rw [← same, compatible]
    have consistent : kind.Consistent (records ++ [record]) := by
      intro left leftMember right rightMember sameKey
      rcases List.mem_append.mp leftMember with leftOld | leftNew
      · rcases List.mem_append.mp rightMember with rightOld | rightNew
        · exact shows.consistent left leftOld right rightOld sameKey
        · rw [List.mem_singleton.mp rightNew] at sameKey ⊢
          exact alike left leftOld sameKey
      · rw [List.mem_singleton.mp leftNew] at sameKey ⊢
        rcases List.mem_append.mp rightMember with rightOld | rightNew
        · exact (alike right rightOld sameKey.symm).symm
        · rw [List.mem_singleton.mp rightNew]
    refine ⟨?_, ?_, ?_, consistent⟩
    · simp [shows.order]
    · intro key
      rw [view_append_singleton consistent, JsMap.get?_set]
      split
      · rfl
      · exact shows.view key
    · intro key stored json found
      rw [JsMap.get?_set] at found
      split at found
      case isTrue here =>
        cases found
        exact ⟨by simp, here.symm, rfl⟩
      case isFalse =>
        have earlier := shows.entries key stored json found
        exact ⟨List.mem_append_left _ earlier.1, earlier.2⟩

theorem indexKind_spec {index : IndexedKind Record} (indexed : indexKind kind records = some index) :
    IndexOf kind records index := by
  have each : ∀ (rest seen : List Record) (start : IndexedKind Record),
      IndexOf kind seen start → rest.foldlM (Layout.indexRecord kind) start = some index →
        IndexOf kind (seen ++ rest) index := by
    intro rest
    induction rest with
    | nil =>
      intro seen start shows run
      cases run
      simpa using shows
    | cons record rest ih =>
      intro seen start shows run
      rw [List.foldlM_cons] at run
      obtain ⟨next, step, later⟩ := Option.bind_eq_some_iff.mp run
      have whole := ih _ next (shows.indexRecord step) later
      rwa [List.append_assoc] at whole
  have initially : IndexOf kind [] ⟨[], .empty⟩ :=
    ⟨rfl, fun _ => rfl, by simp, fun _ member => by cases member⟩
  simpa using each records [] _ initially indexed

/-! ## Applying a diff -/

theorem foldl_delete_get? (removed : List String) (start : JsMap String Record) (key : String) :
    (removed.foldl JsMap.delete start).get? key =
      if key ∈ removed then none else start.get? key := by
  induction removed generalizing start with
  | nil => simp
  | cons first rest ih =>
    rw [List.foldl_cons, ih, JsMap.get?_delete]
    by_cases later : key ∈ rest
    · simp [later]
    · by_cases here : key = first <;> simp [later, here]

section Apply

variable {beforeIndex afterIndex : IndexedKind Record}
variable {changes : LayoutRecordChanges Record} {ordered : Bool}

theorem diffKind_some (differs : diffKind beforeIndex afterIndex ordered = some changes) :
    changes.set = (afterIndex.byKey.entries.filter fun entry =>
        (beforeIndex.byKey.get? entry.1).map (·.2) ≠ some entry.2.2).map (·.2.1) ∧
      changes.removed = beforeIndex.byKey.keys.filter (fun key => !afterIndex.byKey.has key) ∧
      changes.order = changedOrder beforeIndex afterIndex ordered := by
  unfold diffKind at differs
  dsimp only at differs
  split at differs
  · cases differs
  · cases differs
    exact ⟨rfl, rfl, rfl⟩

theorem mem_set_iff (shows : IndexOf kind before beforeIndex)
    (showsAfter : IndexOf kind after afterIndex)
    (differs : diffKind beforeIndex afterIndex ordered = some changes) {record : Record} :
    record ∈ changes.set ↔
      afterIndex.byKey.get? (kind.keyOf record) = some (record, kind.json record) ∧
        kind.view before (kind.keyOf record) ≠ some (kind.json record) := by
  rw [(diffKind_some differs).1, List.mem_map]
  constructor
  · rintro ⟨⟨key, stored, json⟩, member, rfl⟩
    obtain ⟨entry, new⟩ := List.mem_filter.mp member
    have found := JsMap.get?_eq_some_iff.mpr entry
    obtain ⟨_, sameKey, sameJson⟩ := showsAfter.entries _ _ _ found
    rw [decide_eq_true_eq, shows.view] at new
    rw [sameKey, sameJson]
    exact ⟨found, new⟩
  · rintro ⟨found, new⟩
    refine ⟨(kind.keyOf record, record, kind.json record), List.mem_filter.mpr ⟨?_, ?_⟩, rfl⟩
    · exact JsMap.get?_eq_some_iff.mp found
    · rw [decide_eq_true_eq, shows.view]
      exact new

theorem mem_removed_iff (shows : IndexOf kind before beforeIndex)
    (showsAfter : IndexOf kind after afterIndex)
    (differs : diffKind beforeIndex afterIndex ordered = some changes) {key : String} :
    key ∈ changes.removed ↔ kind.view before key ≠ none ∧ kind.view after key = none := by
  rw [(diffKind_some differs).2.1, List.mem_filter, ← JsMap.has_iff_mem_keys,
    ← shows.view, ← showsAfter.view, Bool.not_eq_true']
  unfold JsMap.has
  cases beforeIndex.byKey.get? key <;> cases afterIndex.byKey.get? key <;> simp

/-- Over records with the view the host had, the changes give the view it has. -/
theorem changedRecordMap_view (shows : IndexOf kind before beforeIndex)
    (showsAfter : IndexOf kind after afterIndex)
    (differs : diffKind beforeIndex afterIndex ordered = some changes)
    (consistent : kind.Consistent records) (sameView : kind.view records = kind.view before)
    (key : String) :
    ((changedRecordMap kind records changes).get? key).map kind.json = kind.view after key := by
  have start : ((changes.removed.foldl JsMap.delete (recordMap kind records)).get? key).map
      kind.json = if key ∈ changes.removed then none else kind.view before key := by
    rw [foldl_delete_get?]
    split
    · rfl
    · rw [recordMap_view consistent, sameView]
  by_cases sent : key ∈ changes.set.map kind.keyOf
  · -- the record sent for the key is the one indexed
    have present := (foldl_set_isSome changes.set
      (changes.removed.foldl JsMap.delete (recordMap kind records)) key).mpr (Or.inl sent)
    obtain ⟨record, found⟩ := Option.isSome_iff_exists.mp present
    have result : (changedRecordMap kind records changes).get? key = some record := found
    rcases foldl_set_mem changes.set found with ⟨member, rfl⟩ | ⟨_, unsent⟩
    · have indexed := ((mem_set_iff shows showsAfter differs).mp member).1
      rw [result, ← showsAfter.view, indexed]
      rfl
    · exact absurd sent unsent
  · have kept : (changedRecordMap kind records changes).get? key =
        (changes.removed.foldl JsMap.delete (recordMap kind records)).get? key := by
      cases found : (changedRecordMap kind records changes).get? key with
      | none =>
        cases earlier : (changes.removed.foldl JsMap.delete (recordMap kind records)).get? key with
        | none => rfl
        | some record =>
          have present : ((changedRecordMap kind records changes).get? key).isSome :=
            (foldl_set_isSome changes.set _ key).mpr (Or.inr (by rw [earlier]; rfl))
          rw [found] at present
          cases present
      | some record =>
        rcases foldl_set_mem changes.set found with ⟨member, same⟩ | ⟨earlier, _⟩
        · exact absurd (List.mem_map.mpr ⟨record, member, same⟩) sent
        · exact earlier.symm
    rw [kept, start]
    split
    case isTrue removed => exact ((mem_removed_iff shows showsAfter differs).mp removed).2.symm
    case isFalse unremoved =>
      rw [mem_removed_iff shows showsAfter differs, not_and] at unremoved
      cases seen : kind.view after key with
      | none =>
        by_contra present
        exact unremoved present seen
      | some json =>
        by_contra new
        rw [← showsAfter.view] at seen
        obtain ⟨⟨record, written⟩, found, same⟩ := Option.map_eq_some_iff.mp seen
        obtain ⟨_, rfl, rfl⟩ := showsAfter.entries _ _ _ found
        subst same
        exact sent (List.mem_map.mpr ⟨record,
          (mem_set_iff shows showsAfter differs).mpr ⟨found, new⟩, rfl⟩)

theorem changedRecordMap_key {key : String} {record : Record}
    (found : (changedRecordMap kind records changes).get? key = some record) :
    kind.keyOf record = key := by
  rcases foldl_set_mem changes.set found with ⟨_, same⟩ | ⟨earlier, _⟩
  · exact same
  · rw [foldl_delete_get?] at earlier
    split at earlier
    · cases earlier
    · exact (recordMap_get?_mem earlier).2

theorem views_of_diffKind_none (shows : IndexOf kind before beforeIndex)
    (showsAfter : IndexOf kind after afterIndex)
    (same : diffKind beforeIndex afterIndex ordered = none) :
    kind.view before = kind.view after ∧
      (ordered = true → before.map kind.keyOf = after.map kind.keyOf) := by
  unfold diffKind at same
  dsimp only at same
  split at same
  case isFalse => cases same
  case isTrue empty =>
    simp only [List.isEmpty_iff, List.map_eq_nil_iff, Option.isNone_iff_eq_none] at empty
    obtain ⟨unset, unremoved, unordered⟩ := empty
    constructor
    · funext key
      cases seen : kind.view after key with
      | none =>
        by_contra present
        rw [← showsAfter.view, Option.map_eq_none_iff] at seen
        have held : key ∈ beforeIndex.byKey.keys := by
          rw [← JsMap.has_iff_mem_keys]
          rw [← shows.view] at present
          unfold JsMap.has
          cases found : beforeIndex.byKey.get? key with
          | none => simp [found] at present
          | some _ => rfl
        have gone := List.filter_eq_nil_iff.mp unremoved key held
        unfold JsMap.has at gone
        simp [seen] at gone
      | some json =>
        rw [← showsAfter.view] at seen
        obtain ⟨⟨record, written⟩, found, rfl⟩ := Option.map_eq_some_iff.mp seen
        have unchanged := List.filter_eq_nil_iff.mp unset _ (JsMap.get?_eq_some_iff.mp found)
        rw [decide_eq_true_eq, not_not, shows.view] at unchanged
        exact unchanged
    · intro isOrdered
      rw [← shows.order, ← showsAfter.order]
      by_contra moved
      simp [changedOrder, isOrdered, moved] at unordered

theorem mapM_reads {read : String → Except String Record}
    (reads : ∀ record ∈ after, ∃ stored,
      kind.json stored = kind.json record ∧ read (kind.keyOf record) = .ok stored) :
    ∃ result, (after.map kind.keyOf).mapM read = .ok result ∧
      result.map kind.json = after.map kind.json := by
  induction after with
  | nil => exact ⟨[], rfl, rfl⟩
  | cons record rest ih =>
    obtain ⟨stored, same, here⟩ := reads record List.mem_cons_self
    obtain ⟨result, later, alike⟩ :=
      ih fun other member => reads other (List.mem_cons_of_mem _ member)
    refine ⟨stored :: result, ?_, by simp [same, alike]⟩
    rw [List.map_cons, List.mapM_cons, here, later]
    rfl

/-- Ordered records follow the host: a reader whose records are written like the host's
old ones ends with records written like its new ones. -/
theorem applyKind_ordered (shows : IndexOf kind before beforeIndex)
    (showsAfter : IndexOf kind after afterIndex)
    (sameJson : records.map kind.json = before.map kind.json) :
    ∃ result, applyKind kind records (diffKind beforeIndex afterIndex true) true = .ok result ∧
      result.map kind.json = after.map kind.json := by
  have sameView := view_of_map_json sameJson
  have sameKeys := keys_of_map_json sameJson
  have consistent := Consistent.of_map_json shows.consistent sameJson
  cases differs : diffKind beforeIndex afterIndex true with
  | none =>
    obtain ⟨views, keys⟩ := views_of_diffKind_none shows showsAfter differs
    refine ⟨records, rfl, ?_⟩
    rw [sameJson]
    exact map_json_eq_of_views shows.consistent showsAfter.consistent (keys rfl) views
  | some changes =>
    have order : changes.order.getD (records.map kind.keyOf) = after.map kind.keyOf := by
      rw [(diffKind_some differs).2.2, sameKeys, ← shows.order, ← showsAfter.order]
      unfold changedOrder
      by_cases moved : beforeIndex.order = afterIndex.order <;> simp [moved]
    have view := changedRecordMap_view shows showsAfter differs consistent sameView
    have placed : (changedRecordMap kind records changes).keys.any
        (fun key => decide (key ∉ after.map kind.keyOf)) = false := by
      rw [List.any_eq_false]
      intro key member
      obtain ⟨record, found⟩ := JsMap.exists_get?_of_mem_keys member
      have seen := view key
      rw [found] at seen
      simp only [decide_eq_true_eq, not_not]
      by_contra absent
      rw [view_eq_none_iff.mpr absent] at seen
      cases seen
    have found : ∀ record ∈ after, ∃ stored,
        (changedRecordMap kind records changes).get? (kind.keyOf record) = some stored ∧
          kind.json stored = kind.json record := by
      intro record member
      have seen := view (kind.keyOf record)
      rw [view_of_mem showsAfter.consistent member] at seen
      exact Option.map_eq_some_iff.mp seen
    unfold applyKind
    dsimp only
    rw [if_pos rfl, order, placed]
    refine mapM_reads ?_
    intro record member
    obtain ⟨stored, here, same⟩ := found record member
    refine ⟨stored, same, ?_⟩
    rw [here]

/-- Records without an order follow the host key by key. -/
theorem applyKind_unordered (shows : IndexOf kind before beforeIndex)
    (showsAfter : IndexOf kind after afterIndex) (consistent : kind.Consistent records)
    (sameView : kind.view records = kind.view before) :
    ∃ result, applyKind kind records (diffKind beforeIndex afterIndex false) false = .ok result ∧
      kind.Consistent result ∧ kind.view result = kind.view after := by
  cases differs : diffKind beforeIndex afterIndex false with
  | none =>
    refine ⟨records, rfl, consistent, ?_⟩
    rw [sameView]
    exact (views_of_diffKind_none shows showsAfter differs).1
  | some changes =>
    have view := changedRecordMap_view shows showsAfter differs consistent sameView
    have keyed : ∀ record ∈ (changedRecordMap kind records changes).values,
        (changedRecordMap kind records changes).get? (kind.keyOf record) = some record := by
      intro record member
      obtain ⟨key, found⟩ := JsMap.mem_values_iff.mp member
      rw [changedRecordMap_key found]
      exact found
    have resultConsistent : kind.Consistent (changedRecordMap kind records changes).values := by
      intro left leftMember right rightMember sameKey
      have leftFound := keyed left leftMember
      rw [sameKey, keyed right rightMember] at leftFound
      cases leftFound
      rfl
    refine ⟨_, rfl, resultConsistent, ?_⟩
    funext key
    rw [← view key]
    cases found : (changedRecordMap kind records changes).get? key with
    | none =>
      rw [Option.map_none, view_eq_none_iff, List.mem_map]
      rintro ⟨record, member, rfl⟩
      rw [keyed record member] at found
      cases found
    | some record =>
      have member : record ∈ (changedRecordMap kind records changes).values :=
        JsMap.mem_values_iff.mpr ⟨key, found⟩
      rw [← changedRecordMap_key found, view_of_mem resultConsistent member]
      rfl

end Apply

end OxeeUI.Layout
