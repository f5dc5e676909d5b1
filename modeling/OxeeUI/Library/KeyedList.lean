import Mathlib.Data.List.Perm.Subperm
import Mathlib.Data.List.Nodup
import Mathlib.Data.List.Forall2

/-!
# Lists of records addressed by a key

A record is found, changed, removed and inserted by its key, and some of the records
of a list can be put in another order without moving the others.
-/

namespace OxeeUI.Library

universe u v

variable {Record : Type u} {Key : Type v} [DecidableEq Key]
variable (keyOf : Record → Key)

def recordAt (records : List Record) (key : Key) : Option Record :=
  records.find? fun record => keyOf record = key

def modifyAt (change : Record → Record) (key : Key) : List Record → List Record
  | [] => []
  | record :: rest =>
    if keyOf record = key then change record :: rest
    else record :: modifyAt change key rest

def removeAt (key : Key) (records : List Record) : List Record :=
  records.eraseP fun record => keyOf record = key

section Lookup

variable {keyOf}
variable {records other : List Record} {key : Key} {record : Record}

@[simp] theorem recordAt_nil : recordAt keyOf [] key = none := rfl

theorem recordAt_cons (first : Record) (rest : List Record) :
    recordAt keyOf (first :: rest) key =
      if keyOf first = key then some first else recordAt keyOf rest key := by
  unfold recordAt
  rw [List.find?_cons]
  by_cases same : keyOf first = key <;> simp [same]

theorem mem_of_recordAt (found : recordAt keyOf records key = some record) : record ∈ records :=
  List.mem_of_find?_eq_some found

theorem key_of_recordAt (found : recordAt keyOf records key = some record) :
    keyOf record = key := by
  simpa using List.find?_some found

theorem recordAt_eq_none_iff :
    recordAt keyOf records key = none ↔ key ∉ records.map keyOf := by
  unfold recordAt
  simp [List.find?_eq_none]

theorem recordAt_isSome_iff :
    (recordAt keyOf records key).isSome ↔ key ∈ records.map keyOf := by
  rw [Option.isSome_iff_ne_none, ne_eq, recordAt_eq_none_iff, not_not]

theorem recordAt_of_mem (distinct : (records.map keyOf).Nodup) (member : record ∈ records) :
    recordAt keyOf records (keyOf record) = some record := by
  induction records with
  | nil => cases member
  | cons first rest ih =>
    rw [List.map_cons, List.nodup_cons] at distinct
    rw [recordAt_cons]
    rcases List.mem_cons.mp member with rfl | later
    · rw [if_pos rfl]
    · rw [if_neg]
      · exact ih distinct.2 later
      · intro same
        exact distinct.1 (same ▸ List.mem_map_of_mem later)

theorem recordAt_eq_some_iff (distinct : (records.map keyOf).Nodup) :
    recordAt keyOf records key = some record ↔ record ∈ records ∧ keyOf record = key := by
  constructor
  · exact fun found => ⟨mem_of_recordAt found, key_of_recordAt found⟩
  · rintro ⟨member, rfl⟩
    exact recordAt_of_mem distinct member

theorem recordAt_perm (perm : records.Perm other) (distinct : (records.map keyOf).Nodup) :
    recordAt keyOf records key = recordAt keyOf other key := by
  have distinct' : (other.map keyOf).Nodup := ((perm.map keyOf).nodup_iff).mp distinct
  ext found
  rw [recordAt_eq_some_iff distinct, recordAt_eq_some_iff distinct', perm.mem_iff]

theorem forall₂_of_recordAt {Related : Record → Record → Prop}
    (sameKeys : records.map keyOf = other.map keyOf) (distinct : (records.map keyOf).Nodup)
    (related : ∀ key first second, recordAt keyOf records key = some first →
      recordAt keyOf other key = some second → Related first second) :
    List.Forall₂ Related records other := by
  rw [List.forall₂_iff_get]
  have lengths : records.length = other.length := by
    simpa using congrArg List.length sameKeys
  refine ⟨lengths, fun index bound bound' => ?_⟩
  have key : keyOf (records.get ⟨index, bound⟩) = keyOf (other.get ⟨index, bound'⟩) := by
    have same := congrArg (fun keys => keys[index]?) sameKeys
    simpa [bound, bound'] using same
  refine related _ _ _ (recordAt_of_mem distinct (List.get_mem ..)) ?_
  rw [key]
  exact recordAt_of_mem (sameKeys ▸ distinct) (List.get_mem ..)

end Lookup

section Changes

variable {keyOf}
variable {records : List Record} {key other : Key}

theorem map_key_modifyAt {change : Record → Record}
    (keeps : ∀ record ∈ records, keyOf record = key → keyOf (change record) = key) :
    (modifyAt keyOf change key records).map keyOf = records.map keyOf := by
  induction records with
  | nil => rfl
  | cons first rest ih =>
    unfold modifyAt
    split
    case isTrue same =>
      rw [List.map_cons, List.map_cons, keeps first List.mem_cons_self same, same]
    case isFalse =>
      rw [List.map_cons, List.map_cons,
        ih fun record member => keeps record (List.mem_cons_of_mem _ member)]

theorem recordAt_modifyAt {change : Record → Record}
    (keeps : ∀ record ∈ records, keyOf record = key → keyOf (change record) = key) :
    recordAt keyOf (modifyAt keyOf change key records) other =
      if other = key then (recordAt keyOf records key).map change
      else recordAt keyOf records other := by
  induction records with
  | nil => simp [modifyAt]
  | cons first rest ih =>
    have later := ih fun record member => keeps record (List.mem_cons_of_mem _ member)
    unfold modifyAt
    split
    case isTrue same =>
      rw [recordAt_cons, recordAt_cons, recordAt_cons, keeps first List.mem_cons_self same,
        if_pos same, same]
      by_cases asked : other = key
      · simp [asked]
      · simp [asked, Ne.symm asked]
    case isFalse apart =>
      rw [recordAt_cons, recordAt_cons, recordAt_cons, if_neg apart, later]
      by_cases asked : other = key
      · subst asked
        rw [if_pos rfl, if_pos rfl, if_neg apart]
      · rw [if_neg asked, if_neg asked]

theorem recordAt_removeAt (distinct : (records.map keyOf).Nodup) :
    recordAt keyOf (removeAt keyOf key records) other =
      if other = key then none else recordAt keyOf records other := by
  induction records with
  | nil => simp [removeAt]
  | cons first rest ih =>
    rw [List.map_cons, List.nodup_cons] at distinct
    have later := ih distinct.2
    unfold removeAt at later ⊢
    rw [List.eraseP_cons]
    by_cases same : keyOf first = key
    · simp only [same, decide_true, cond_true, recordAt_cons]
      by_cases asked : other = key
      · subst asked
        rw [if_pos rfl, recordAt_eq_none_iff, ← same]
        exact distinct.1
      · rw [if_neg asked, if_neg (Ne.symm asked)]
    · simp only [same, decide_false, cond_false, recordAt_cons, later]
      by_cases asked : other = key
      · subst asked
        simp [same]
      · simp [asked]

theorem nodup_removeAt (distinct : (records.map keyOf).Nodup) :
    ((removeAt keyOf key records).map keyOf).Nodup :=
  distinct.sublist (List.eraseP_sublist.map keyOf)

theorem recordAt_insertIdx {record : Record} {index : Nat} (bound : index ≤ records.length)
    (distinct : (records.map keyOf).Nodup) (fresh : keyOf record ∉ records.map keyOf) :
    recordAt keyOf (records.insertIdx index record) other =
      if other = keyOf record then some record else recordAt keyOf records other := by
  have perm := List.perm_insertIdx record records bound
  have distinct' : ((record :: records).map keyOf).Nodup := List.nodup_cons.mpr ⟨fresh, distinct⟩
  rw [recordAt_perm perm (((perm.map keyOf).nodup_iff).mpr distinct'), recordAt_cons]
  by_cases same : other = keyOf record
  · rw [if_pos same, if_pos same.symm]
  · rw [if_neg same, if_neg (Ne.symm same)]

omit [DecidableEq Key] in
theorem nodup_insertIdx {record : Record} {index : Nat} (bound : index ≤ records.length)
    (distinct : (records.map keyOf).Nodup) (fresh : keyOf record ∉ records.map keyOf) :
    ((records.insertIdx index record).map keyOf).Nodup := by
  have perm := List.perm_insertIdx record records bound
  exact ((perm.map keyOf).nodup_iff).mpr (List.nodup_cons.mpr ⟨fresh, distinct⟩)

end Changes

theorem nodup_eraseDups (keys : List Key) : keys.eraseDups.Nodup := by
  generalize size : keys.length = bound
  induction bound using Nat.strongRecOn generalizing keys with
  | ind bound ih =>
    cases keys with
    | nil => simp
    | cons first rest =>
      rw [List.eraseDups_cons, List.nodup_cons]
      constructor
      · simp [List.mem_eraseDups]
      · refine ih _ ?_ _ rfl
        rw [← size, List.length_cons]
        exact Nat.lt_succ_of_le (List.length_filter_le _ _)

theorem nodup_of_length_eraseDups {keys : List Key}
    (same : keys.eraseDups.length = keys.length) : keys.Nodup := by
  have inside : keys.eraseDups ⊆ keys := fun key member => List.mem_eraseDups.mp member
  have perm := ((nodup_eraseDups keys).subperm inside).perm_of_length_le (Nat.le_of_eq same.symm)
  exact perm.nodup (nodup_eraseDups keys)

/-! ## What the records name together -/

section Names

variable {Name : Type*} {keyOf}
variable {records : List Record} {record replacement : Record} {added dropped : List Name}

theorem flatMap_replace_perm (names : Record → List Name)
    (distinct : (records.map keyOf).Nodup) (member : record ∈ records)
    (perm : (dropped ++ names replacement).Perm (added ++ names record)) :
    (dropped ++ (records.map fun entry =>
      if keyOf entry = keyOf record then replacement else entry).flatMap names).Perm
      (added ++ records.flatMap names) := by
  induction records with
  | nil => cases member
  | cons first rest ih =>
    rw [List.map_cons, List.nodup_cons] at distinct
    simp only [List.map_cons, List.flatMap_cons]
    rcases List.mem_cons.mp member with rfl | later
    · have unchanged : (rest.map fun entry =>
          if keyOf entry = keyOf record then replacement else entry) = rest := by
        conv_rhs => rw [← List.map_id rest]
        refine List.map_congr_left fun entry inside => if_neg fun same => ?_
        exact distinct.1 (same ▸ List.mem_map_of_mem inside)
      rw [if_pos rfl, unchanged, ← List.append_assoc, ← List.append_assoc]
      exact perm.append_right _
    · have different : keyOf first ≠ keyOf record := fun same =>
        distinct.1 (same ▸ List.mem_map_of_mem later)
      rw [if_neg different]
      refine (List.perm_append_comm_assoc ..).trans ?_
      refine ((ih distinct.2 later).append_left _).trans ?_
      exact List.perm_append_comm_assoc ..

theorem flatMap_remove_perm (names : Record → List Name)
    (distinct : (records.map keyOf).Nodup) (member : record ∈ records) :
    (names record ++
      (records.filter fun entry => keyOf entry ≠ keyOf record).flatMap names).Perm
      (records.flatMap names) := by
  induction records with
  | nil => cases member
  | cons first rest ih =>
    rw [List.map_cons, List.nodup_cons] at distinct
    rcases List.mem_cons.mp member with rfl | later
    · have others : (rest.filter fun entry => keyOf entry ≠ keyOf record) = rest :=
        List.filter_eq_self.mpr fun entry inside => decide_eq_true fun same =>
          distinct.1 (same ▸ List.mem_map_of_mem inside)
      rw [List.filter_cons_of_neg (by simp), others, List.flatMap_cons]
    · have different : keyOf first ≠ keyOf record := fun same =>
        distinct.1 (same ▸ List.mem_map_of_mem later)
      rw [List.filter_cons_of_pos (by simpa using different), List.flatMap_cons, List.flatMap_cons]
      refine (List.perm_append_comm_assoc ..).trans ?_
      exact (ih distinct.2 later).append_left (names first)

omit [DecidableEq Key] in
theorem mem_keys_filter_iff {test : Record → Bool} (distinct : (records.map keyOf).Nodup)
    (member : record ∈ records) :
    keyOf record ∈ (records.filter test).map keyOf ↔ test record = true := by
  constructor
  · intro inside
    obtain ⟨other, admitted, same⟩ := List.mem_map.mp inside
    obtain ⟨stored, passes⟩ := List.mem_filter.mp admitted
    rwa [← List.inj_on_of_nodup_map distinct stored member same]
  · exact fun passes => List.mem_map_of_mem (List.mem_filter.mpr ⟨member, passes⟩)

end Names

/-! ## Another order for some of the records -/

/-- The marked records are replaced, slot by slot, by the queued ones. -/
def fillSlots (marked : Record → Bool) : List Record → List Record → List Record
  | [], _ => []
  | record :: rest, queue =>
    if marked record then
      match queue with
      | [] => record :: fillSlots marked rest []
      | next :: later => next :: fillSlots marked rest later
    else record :: fillSlots marked rest queue

theorem fillSlots_perm {marked : Record → Bool} {records queue : List Record}
    (enough : queue.length = (records.filter marked).length) :
    (fillSlots marked records queue).Perm (queue ++ records.filter fun record => !marked record) := by
  induction records generalizing queue with
  | nil =>
    have empty : queue = [] := by simpa using enough
    simp [fillSlots, empty]
  | cons record rest ih =>
    unfold fillSlots
    by_cases mark : marked record = true
    · rw [if_pos mark]
      rw [List.filter_cons_of_pos mark, List.length_cons] at enough
      cases queue with
      | nil => simp at enough
      | cons next later =>
        rw [List.filter_cons_of_neg (by simp [mark]), List.cons_append]
        exact (ih (by simpa using enough)).cons next
    · rw [List.filter_cons_of_neg mark] at enough
      rw [if_neg mark, List.filter_cons_of_pos (by simpa using mark)]
      exact ((ih enough).cons record).trans List.perm_middle.symm

theorem fillSlots_perm_self {marked : Record → Bool} {records queue : List Record}
    (same : queue.Perm (records.filter marked)) :
    (fillSlots marked records queue).Perm records :=
  (fillSlots_perm same.length_eq).trans
    ((same.append_right _).trans (List.filter_append_perm marked records))

theorem fillSlots_of_all_marked {marked : Record → Bool} {records queue : List Record}
    (all : ∀ record ∈ records, marked record = true) (enough : queue.length = records.length) :
    fillSlots marked records queue = queue := by
  induction records generalizing queue with
  | nil =>
    have empty : queue = [] := by simpa using enough
    simp [fillSlots, empty]
  | cons record rest ih =>
    cases queue with
    | nil => simp at enough
    | cons next later =>
      rw [fillSlots, if_pos (all record List.mem_cons_self)]
      rw [ih (fun other member => all other (List.mem_cons_of_mem _ member))
        (by simpa using enough)]

end OxeeUI.Library
