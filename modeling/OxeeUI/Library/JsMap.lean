import Mathlib.Data.List.Nodup
import Mathlib.Data.List.Pairwise
import Mathlib.Data.List.Perm.Basic

/-!
# Insertion-ordered maps

The maps of the modelled language: every key occurs once, writing an existing
key keeps its place, and a new key goes to the end.  The distinctness of the
keys travels with the entries, so no client re-proves it.
-/

namespace OxeeUI.Library

universe u v w

/-- A finite map that remembers the order in which its keys were first written. -/
structure JsMap (Key : Type u) (Value : Type v) where
  entries : List (Key × Value)
  nodup : (entries.map Prod.fst).Nodup

namespace JsMap

variable {Key : Type u} {Value : Type v} {Result : Type w}

@[ext]
theorem ext {first second : JsMap Key Value}
    (same : first.entries = second.entries) : first = second := by
  cases first
  cases second
  cases same
  rfl

def empty : JsMap Key Value := ⟨[], List.nodup_nil⟩

instance : Inhabited (JsMap Key Value) := ⟨empty⟩

instance [DecidableEq Key] [DecidableEq Value] : DecidableEq (JsMap Key Value) :=
  fun first second =>
    decidable_of_iff (first.entries = second.entries)
      ⟨JsMap.ext, fun same => same ▸ rfl⟩

def keys (map : JsMap Key Value) : List Key := map.entries.map Prod.fst

def values (map : JsMap Key Value) : List Value := map.entries.map Prod.snd

def size (map : JsMap Key Value) : Nat := map.entries.length

@[simp] theorem entries_empty : (empty : JsMap Key Value).entries = [] := rfl
@[simp] theorem keys_empty : (empty : JsMap Key Value).keys = [] := rfl
@[simp] theorem values_empty : (empty : JsMap Key Value).values = [] := rfl

theorem keys_nodup (map : JsMap Key Value) : map.keys.Nodup := map.nodup

section Lookup

variable [DecidableEq Key]

def get? (map : JsMap Key Value) (key : Key) : Option Value :=
  map.entries.lookup key

def has (map : JsMap Key Value) (key : Key) : Bool := (map.get? key).isSome

@[simp] theorem get?_empty (key : Key) : (empty : JsMap Key Value).get? key = none := rfl

theorem lookup_eq_none_iff_not_mem {entries : List (Key × Value)} {key : Key} :
    entries.lookup key = none ↔ key ∉ entries.map Prod.fst := by
  induction entries with
  | nil => simp
  | cons entry rest ih =>
    rcases entry with ⟨other, value⟩
    by_cases equal : key = other
    · subst equal
      simp
    · have checked : (key == other) = false := by simpa using equal
      simp [List.lookup_cons, checked, ih, equal]

theorem mem_of_lookup {entries : List (Key × Value)} {key : Key} {value : Value}
    (found : entries.lookup key = some value) : (key, value) ∈ entries := by
  induction entries with
  | nil => simp at found
  | cons entry rest ih =>
    rcases entry with ⟨other, stored⟩
    by_cases equal : key = other
    · subst equal
      have same : stored = value := by simpa using found
      simp [same]
    · have checked : (key == other) = false := by simpa using equal
      rw [List.lookup_cons, checked] at found
      exact List.mem_cons_of_mem _ (ih found)

theorem lookup_of_mem {entries : List (Key × Value)} {key : Key} {value : Value}
    (distinct : (entries.map Prod.fst).Nodup) (stored : (key, value) ∈ entries) :
    entries.lookup key = some value := by
  induction entries with
  | nil => simp at stored
  | cons entry rest ih =>
    rcases entry with ⟨other, previous⟩
    rw [List.map_cons, List.nodup_cons] at distinct
    rcases List.mem_cons.mp stored with same | later
    · cases same
      simp
    · have different : key ≠ other := by
        rintro rfl
        exact distinct.1 (List.mem_map.mpr ⟨(key, value), later, rfl⟩)
      have checked : (key == other) = false := by simpa using different
      rw [List.lookup_cons, checked]
      exact ih distinct.2 later

theorem get?_eq_some_iff {map : JsMap Key Value} {key : Key} {value : Value} :
    map.get? key = some value ↔ (key, value) ∈ map.entries :=
  ⟨mem_of_lookup, lookup_of_mem map.nodup⟩

theorem get?_eq_none_iff {map : JsMap Key Value} {key : Key} :
    map.get? key = none ↔ key ∉ map.keys :=
  lookup_eq_none_iff_not_mem

theorem has_iff_mem_keys {map : JsMap Key Value} {key : Key} :
    map.has key = true ↔ key ∈ map.keys := by
  rw [has, Option.isSome_iff_ne_none, ne_eq, get?_eq_none_iff, not_not]

theorem mem_keys_of_get? {map : JsMap Key Value} {key : Key} {value : Value}
    (found : map.get? key = some value) : key ∈ map.keys :=
  List.mem_map_of_mem (get?_eq_some_iff.mp found)

theorem exists_get?_of_mem_keys {map : JsMap Key Value} {key : Key}
    (present : key ∈ map.keys) : ∃ value, map.get? key = some value := by
  cases found : map.get? key with
  | none => exact absurd present (get?_eq_none_iff.mp found)
  | some value => exact ⟨value, rfl⟩

theorem mem_values_iff {map : JsMap Key Value} {value : Value} :
    value ∈ map.values ↔ ∃ key, map.get? key = some value := by
  simp [values, get?_eq_some_iff]

theorem get?_inj {map : JsMap Key Value} (distinct : map.values.Nodup) {first second : Key}
    {value : Value} (found : map.get? first = some value) (found' : map.get? second = some value) :
    first = second := by
  rw [get?_eq_some_iff] at found found'
  exact congrArg Prod.fst (List.inj_on_of_nodup_map distinct found found' rfl)

end Lookup

section Write

variable [DecidableEq Key]

/-- Replace the value in place, or append a new entry. -/
def setEntries (key : Key) (value : Value) : List (Key × Value) → List (Key × Value)
  | [] => [(key, value)]
  | (other, previous) :: rest =>
    if other = key then (key, value) :: rest
    else (other, previous) :: setEntries key value rest

theorem keys_setEntries (key : Key) (value : Value) (entries : List (Key × Value)) :
    (setEntries key value entries).map Prod.fst =
      if key ∈ entries.map Prod.fst then entries.map Prod.fst
      else entries.map Prod.fst ++ [key] := by
  induction entries with
  | nil => simp [setEntries]
  | cons entry rest ih =>
    rcases entry with ⟨other, previous⟩
    by_cases equal : other = key
    · simp [setEntries, equal]
    · have different : key ≠ other := fun same => equal same.symm
      by_cases present : key ∈ rest.map Prod.fst
      · rw [if_pos present] at ih
        simp only [setEntries, if_neg equal, List.map_cons, ih]
        rw [if_pos (List.mem_cons_of_mem _ present)]
      · rw [if_neg present] at ih
        simp only [setEntries, if_neg equal, List.map_cons, ih]
        rw [if_neg (by simpa [different] using present)]
        rfl

theorem lookup_setEntries (key other : Key) (value : Value)
    (entries : List (Key × Value)) :
    (setEntries key value entries).lookup other =
      if other = key then some value else entries.lookup other := by
  induction entries with
  | nil =>
    by_cases equal : other = key
    · simp [setEntries, equal]
    · have checked : (other == key) = false := by simpa using equal
      simp [setEntries, List.lookup_cons, checked, equal]
  | cons entry rest ih =>
    rcases entry with ⟨head, previous⟩
    by_cases here : head = key
    · subst here
      by_cases equal : other = head
      · simp [setEntries, equal]
      · have checked : (other == head) = false := by simpa using equal
        simp [setEntries, List.lookup_cons, checked, equal]
    · by_cases equal : other = head
      · have different : other ≠ key := by
          rintro rfl
          exact here equal.symm
        simp [setEntries, here, equal]
      · have checked : (other == head) = false := by simpa using equal
        simp [setEntries, here, List.lookup_cons, checked, ih]

/-- `map.set(key, value)`. -/
def set (map : JsMap Key Value) (key : Key) (value : Value) : JsMap Key Value where
  entries := setEntries key value map.entries
  nodup := by
    rw [keys_setEntries]
    split
    case isTrue => exact map.nodup
    case isFalse absent =>
      exact List.Nodup.append map.nodup (List.nodup_singleton key)
        (by simpa using absent)

@[simp]
theorem get?_set (map : JsMap Key Value) (key other : Key) (value : Value) :
    (map.set key value).get? other =
      if other = key then some value else map.get? other :=
  lookup_setEntries key other value map.entries

theorem get?_set_self (map : JsMap Key Value) (key : Key) (value : Value) :
    (map.set key value).get? key = some value := by
  simp

theorem get?_set_of_ne (map : JsMap Key Value) {key other : Key} (value : Value)
    (different : other ≠ key) : (map.set key value).get? other = map.get? other := by
  simp [different]

theorem keys_set (map : JsMap Key Value) (key : Key) (value : Value) :
    (map.set key value).keys =
      if key ∈ map.keys then map.keys else map.keys ++ [key] :=
  keys_setEntries key value map.entries

theorem values_set (map : JsMap Key Value) (key : Key) (value : Value) :
    (map.get? key = none ∧ (map.set key value).values = map.values ++ [value]) ∨
      ∃ front old back, map.get? key = some old ∧ map.values = front ++ old :: back ∧
        (map.set key value).values = front ++ value :: back := by
  have entries : ∀ entries : List (Key × Value),
      (entries.lookup key = none ∧
          (setEntries key value entries).map Prod.snd = entries.map Prod.snd ++ [value]) ∨
        ∃ front old back, entries.lookup key = some old ∧
          entries.map Prod.snd = front ++ old :: back ∧
          (setEntries key value entries).map Prod.snd = front ++ value :: back := by
    intro entries
    induction entries with
    | nil => exact Or.inl ⟨rfl, rfl⟩
    | cons entry rest ih =>
      rcases entry with ⟨other, previous⟩
      by_cases here : other = key
      · subst here
        exact Or.inr ⟨[], previous, rest.map Prod.snd, by simp, rfl, by simp [setEntries]⟩
      · have checked : (key == other) = false :=
          beq_eq_false_iff_ne.mpr fun same => here same.symm
        rcases ih with ⟨absent, appended⟩ | ⟨front, old, back, found, before, after⟩
        · exact Or.inl ⟨by simp [List.lookup_cons, checked, absent],
            by simp [setEntries, here, appended]⟩
        · exact Or.inr ⟨previous :: front, old, back, by simp [List.lookup_cons, checked, found],
            by simp [before], by simp [setEntries, here, after]⟩
  exact entries map.entries

theorem entries_set_of_not_mem {map : JsMap Key Value} {key : Key} (absent : key ∉ map.keys)
    (value : Value) : (map.set key value).entries = map.entries ++ [(key, value)] := by
  have entries : ∀ entries : List (Key × Value), key ∉ entries.map Prod.fst →
      setEntries key value entries = entries ++ [(key, value)] := by
    intro entries
    induction entries with
    | nil => simp [setEntries]
    | cons entry rest ih =>
      intro missing
      obtain ⟨different, later⟩ := not_or.mp (mt List.mem_cons.mpr missing)
      simp [setEntries, Ne.symm different, ih later]
  exact entries map.entries absent

theorem mem_keys_set {map : JsMap Key Value} {key other : Key} {value : Value} :
    other ∈ (map.set key value).keys ↔ other = key ∨ other ∈ map.keys := by
  rw [keys_set]
  split
  case isTrue present =>
    constructor
    · exact Or.inr
    · rintro (rfl | member)
      · exact present
      · exact member
  case isFalse absent =>
    simp [or_comm]

/-- `map.delete(key)`. -/
def delete (map : JsMap Key Value) (key : Key) : JsMap Key Value where
  entries := map.entries.filter fun entry => entry.1 ≠ key
  nodup := map.nodup.sublist (List.filter_sublist.map Prod.fst)

@[simp]
theorem get?_delete (map : JsMap Key Value) (key other : Key) :
    (map.delete key).get? other = if other = key then none else map.get? other := by
  by_cases equal : other = key
  · rw [if_pos equal, get?_eq_none_iff]
    simp [keys, delete, equal]
  · rw [if_neg equal]
    cases found : map.get? other with
    | none =>
      rw [get?_eq_none_iff] at found ⊢
      intro member
      rcases List.mem_map.mp member with ⟨entry, stored, rfl⟩
      exact found (List.mem_map_of_mem (List.mem_of_mem_filter stored))
    | some value =>
      rw [get?_eq_some_iff] at found ⊢
      exact List.mem_filter.mpr ⟨found, by simpa using equal⟩

def filter (test : Key → Value → Bool) (map : JsMap Key Value) : JsMap Key Value where
  entries := map.entries.filter fun entry => test entry.1 entry.2
  nodup := map.nodup.sublist (List.filter_sublist.map Prod.fst)

theorem get?_filter (test : Key → Value → Bool) (map : JsMap Key Value) (key : Key) :
    (map.filter test).get? key = (map.get? key).filter (test key) := by
  cases found : map.get? key with
  | none =>
    rw [get?_eq_none_iff] at found
    simp only [Option.filter_none, get?_eq_none_iff]
    intro member
    rcases List.mem_map.mp member with ⟨entry, stored, rfl⟩
    exact found (List.mem_map_of_mem (List.mem_of_mem_filter stored))
  | some value =>
    rw [get?_eq_some_iff] at found
    by_cases admitted : test key value = true
    · rw [Option.filter_some, if_pos admitted, get?_eq_some_iff]
      exact List.mem_filter.mpr ⟨found, admitted⟩
    · rw [Option.filter_some, if_neg admitted, get?_eq_none_iff]
      intro member
      rcases List.mem_map.mp member with ⟨entry, stored, same⟩
      have origin := List.mem_filter.mp stored
      have identified : entry = (key, value) := by
        have first := lookup_of_mem map.nodup found
        have second : map.entries.lookup entry.1 = some entry.2 :=
          lookup_of_mem map.nodup origin.1
        rw [same] at second
        rw [first] at second
        exact Prod.ext same (Option.some.inj second).symm
      exact admitted (by simpa [identified] using origin.2)

end Write

section Names

variable {Name : Type*} {names : Value → List Name}

theorem nodup_flatMap_values_iff [DecidableEq Key] {map : JsMap Key Value} :
    (map.values.flatMap names).Nodup ↔
      (∀ key value, map.get? key = some value → (names value).Nodup) ∧
      ∀ key other value value', key ≠ other → map.get? key = some value →
        map.get? other = some value' → (names value).Disjoint (names value') := by
  rw [values, List.flatMap_map, List.nodup_flatMap]
  constructor
  · rintro ⟨within, between⟩
    have : Std.Symm
        (Function.onFun List.Disjoint fun entry : Key × Value => names entry.2) :=
      ⟨fun _ _ apart _ first second => apart second first⟩
    refine ⟨fun key value found => within _ (get?_eq_some_iff.mp found), ?_⟩
    intro key other value value' different found found'
    exact between.forall (get?_eq_some_iff.mp found) (get?_eq_some_iff.mp found')
      fun same => different (congrArg Prod.fst same)
  · rintro ⟨within, between⟩
    refine ⟨fun entry member => within _ _ (get?_eq_some_iff.mpr member), ?_⟩
    have entries : map.entries.Nodup := map.nodup.of_map Prod.fst
    refine entries.pairwise_of_forall_ne fun entry member entry' member' different => ?_
    refine between _ _ _ _ (fun sameKey => different ?_) (get?_eq_some_iff.mpr member)
      (get?_eq_some_iff.mpr member')
    have found := get?_eq_some_iff.mpr member
    have found' : map.get? entry.1 = some entry'.2 := by
      rw [sameKey]
      exact get?_eq_some_iff.mpr member'
    exact Prod.ext sameKey (Option.some.inj (found.symm.trans found'))

end Names

/-- Apply a function to every value, keeping the keys and their order. -/
def mapValues (change : Key → Value → Result) (map : JsMap Key Value) :
    JsMap Key Result where
  entries := map.entries.map fun entry => (entry.1, change entry.1 entry.2)
  nodup := by simpa [List.map_map, Function.comp_def] using map.nodup

@[simp]
theorem keys_mapValues (change : Key → Value → Result) (map : JsMap Key Value) :
    (map.mapValues change).keys = map.keys := by
  simp [keys, mapValues, Function.comp_def]

theorem get?_mapValues [DecidableEq Key] (change : Key → Value → Result)
    (map : JsMap Key Value) (key : Key) :
    (map.mapValues change).get? key = (map.get? key).map (change key) := by
  cases found : map.get? key with
  | none =>
    rw [get?_eq_none_iff] at found
    simpa [get?_eq_none_iff] using found
  | some value =>
    rw [get?_eq_some_iff] at found
    rw [Option.map_some, get?_eq_some_iff]
    exact List.mem_map.mpr ⟨(key, value), found, rfl⟩

section OfPairs

variable [DecidableEq Key]

/-- Build a map by writing the pairs from left to right. -/
def ofPairs (pairs : List (Key × Value)) : JsMap Key Value :=
  pairs.foldl (fun map pair => map.set pair.1 pair.2) empty

theorem mem_keys_ofPairs {pairs : List (Key × Value)} {key : Key} :
    key ∈ (ofPairs pairs).keys ↔ key ∈ pairs.map Prod.fst := by
  have fold : ∀ map : JsMap Key Value,
      key ∈ (pairs.foldl (fun map pair => map.set pair.1 pair.2) map).keys ↔
        key ∈ map.keys ∨ key ∈ pairs.map Prod.fst := by
    induction pairs with
    | nil => simp
    | cons pair rest ih =>
      intro map
      rw [List.foldl_cons, ih, mem_keys_set, List.map_cons, List.mem_cons, or_comm (a := key = _),
        or_assoc]
  rw [ofPairs, fold]
  simp

theorem get?_ofPairs_map (keys : List Key) (value : Key → Value) (key : Key) :
    (ofPairs (keys.map fun key => (key, value key))).get? key =
      if key ∈ keys then some (value key) else none := by
  have fold : ∀ map : JsMap Key Value,
      ((keys.map fun key => (key, value key)).foldl (fun map pair => map.set pair.1 pair.2)
        map).get? key = if key ∈ keys then some (value key) else map.get? key := by
    induction keys with
    | nil => simp
    | cons first rest ih =>
      intro map
      rw [List.map_cons, List.foldl_cons, ih, get?_set]
      by_cases later : key ∈ rest
      · rw [if_pos later, if_pos (List.mem_cons_of_mem _ later)]
      · by_cases here : key = first
        · subst here
          simp [later]
        · rw [if_neg later, if_neg here, if_neg (by simp [later, here])]
  rw [ofPairs, fold, get?_empty]

theorem foldl_at {State Seen : Type*} {step : State → Key × Value → State} {seen : State → Seen}
    {write : Value → Seen → Seen} {key : Key}
    (own : ∀ state value, seen (step state (key, value)) = write value (seen state))
    (others : ∀ state entry, entry.1 ≠ key → seen (step state entry) = seen state)
    {pairs : List (Key × Value)} (distinct : (pairs.map Prod.fst).Nodup) (state : State) :
    seen (pairs.foldl step state) =
      (pairs.lookup key).elim (seen state) fun value => write value (seen state) := by
  have absent : ∀ (pairs : List (Key × Value)) (state : State), key ∉ pairs.map Prod.fst →
      seen (pairs.foldl step state) = seen state := by
    intro pairs
    induction pairs with
    | nil => exact fun _ _ => rfl
    | cons pair rest ih =>
      intro state missing
      obtain ⟨different, later⟩ := not_or.mp (mt List.mem_cons.mpr missing)
      rw [List.foldl_cons, ih _ later, others state pair (Ne.symm different)]
  induction pairs generalizing state with
  | nil => rfl
  | cons pair rest ih =>
    obtain ⟨other, value⟩ := pair
    rw [List.map_cons, List.nodup_cons] at distinct
    rw [List.foldl_cons, List.lookup_cons]
    by_cases here : key = other
    · subst here
      rw [absent rest _ distinct.1, own, beq_self_eq_true]
      rfl
    · rw [ih distinct.2, others state (other, value) (Ne.symm here), beq_eq_false_iff_ne.mpr here]

theorem foldl_entries_at {State Seen : Type*} {step : State → Key × Value → State}
    {seen : State → Seen} {write : Value → Seen → Seen} {key : Key}
    (own : ∀ state value, seen (step state (key, value)) = write value (seen state))
    (others : ∀ state entry, entry.1 ≠ key → seen (step state entry) = seen state)
    (map : JsMap Key Value) (state : State) :
    seen (map.entries.foldl step state) =
      (map.get? key).elim (seen state) fun value => write value (seen state) :=
  foldl_at own others map.nodup state

theorem get?_foldl_set {pairs : List (Key × Value)} (distinct : (pairs.map Prod.fst).Nodup)
    (map : JsMap Key Value) (key : Key) :
    (pairs.foldl (fun map pair => map.set pair.1 pair.2) map).get? key =
      (pairs.lookup key).or (map.get? key) := by
  have seen := @foldl_at _ _ _ _ _ (fun map pair => map.set pair.1 pair.2) (fun map => map.get? key)
    (fun value _ => some value) key (fun map value => get?_set_self map key value)
    (fun map entry other => get?_set_of_ne map entry.2 (Ne.symm other)) pairs distinct map
  rw [seen]
  cases pairs.lookup key <;> rfl

theorem get?_foldl_entries (written map : JsMap Key Value) (key : Key) :
    (written.entries.foldl (fun map pair => map.set pair.1 pair.2) map).get? key =
      (written.get? key).or (map.get? key) :=
  get?_foldl_set written.nodup map key

theorem get?_foldl_delete (keys : List Key) (map : JsMap Key Value) (key : Key) :
    (keys.foldl (fun map key => map.delete key) map).get? key =
      if key ∈ keys then none else map.get? key := by
  induction keys generalizing map with
  | nil => simp
  | cons first rest ih =>
    rw [List.foldl_cons, ih, get?_delete]
    by_cases later : key ∈ rest
    · simp [later]
    · by_cases here : key = first
      · simp [here]
      · simp [later, here]

theorem get?_ofPairs {pairs : List (Key × Value)} (distinct : (pairs.map Prod.fst).Nodup)
    (key : Key) : (ofPairs pairs).get? key = pairs.lookup key := by
  rw [ofPairs, get?_foldl_set distinct, get?_empty, Option.or_none]

theorem entries_ofPairs {pairs : List (Key × Value)} (distinct : (pairs.map Prod.fst).Nodup) :
    (ofPairs pairs).entries = pairs := by
  have fold : ∀ map : JsMap Key Value, (∀ key ∈ pairs.map Prod.fst, key ∉ map.keys) →
      (pairs.foldl (fun map pair => map.set pair.1 pair.2) map).entries = map.entries ++ pairs := by
    induction pairs with
    | nil => simp
    | cons pair rest ih =>
      intro map fresh
      rw [List.map_cons, List.nodup_cons] at distinct
      obtain ⟨absent, later⟩ := List.forall_mem_cons.mp fresh
      have written : ∀ key ∈ rest.map Prod.fst, key ∉ (map.set pair.1 pair.2).keys := by
        intro key member known
        rcases mem_keys_set.mp known with rfl | earlier
        · exact distinct.1 member
        · exact later key member earlier
      rw [List.foldl_cons, ih distinct.2 _ written, entries_set_of_not_mem absent]
      simp
  simpa [ofPairs] using fold empty (by simp)

theorem entries_foldl_delete (keys : List Key) (map : JsMap Key Value) :
    (keys.foldl (fun map key => map.delete key) map).entries =
      map.entries.filter fun entry => entry.1 ∉ keys := by
  induction keys generalizing map with
  | nil => simp
  | cons first rest ih =>
    rw [List.foldl_cons, ih, delete, List.filter_filter]
    refine List.filter_congr fun entry _ => ?_
    simp [Bool.and_comm]

def push {Item : Type v} (map : JsMap Key (List Item)) (key : Key) (item : Item) :
    JsMap Key (List Item) :=
  map.set key ((map.get? key).getD [] ++ [item])

theorem getD_foldl_push {Item : Type v} (added : List (Key × Item)) (map : JsMap Key (List Item))
    (key : Key) :
    ((added.foldl (fun map entry => map.push entry.1 entry.2) map).get? key).getD [] =
      (map.get? key).getD [] ++ (added.filter fun entry => entry.1 = key).map Prod.snd := by
  induction added generalizing map with
  | nil => simp
  | cons entry rest ih =>
    rw [List.foldl_cons, ih, push, get?_set]
    by_cases here : entry.1 = key
    · simp [here]
    · simp [here, Ne.symm here]

end OfPairs

end JsMap

end OxeeUI.Library
