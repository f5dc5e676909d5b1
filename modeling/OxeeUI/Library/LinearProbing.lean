import Mathlib.Data.Finset.Card
import Mathlib.Data.Finset.Range
import Mathlib.Data.List.Range
import Mathlib.Data.Nat.Find
import Mathlib.Logic.Function.Basic
import Mathlib.Tactic.Cases

/-!
# Open addressing with linear probing

A table of slots.  A key is looked for from the slot its hash names, one slot
after the other and around the end, up to the key itself or to a vacant slot;
it is stored in the vacant slot the search ends at.  As long as every stored
key can be reached from its hash without crossing a vacant slot, a search finds
exactly the stored keys, and moving every entry into a larger table keeps them
all.
-/

namespace OxeeUI.Library

universe u v

/-- Slots, of which those below the capacity are used. -/
structure ProbeTable (Key : Type u) (Value : Type v) where
  capacity : ℕ
  slots : ℕ → Option (Key × Value)

namespace ProbeTable

variable {Key : Type u} {Value : Type v}

def vacant (capacity : ℕ) : ProbeTable Key Value := ⟨capacity, fun _ => none⟩

def write (table : ProbeTable Key Value) (slot : ℕ) (entry : Key × Value) :
    ProbeTable Key Value :=
  { table with slots := Function.update table.slots slot (some entry) }

@[simp] theorem capacity_write (table : ProbeTable Key Value) (slot : ℕ) (entry : Key × Value) :
    (table.write slot entry).capacity = table.capacity := rfl

theorem slots_write (table : ProbeTable Key Value) (slot other : ℕ) (entry : Key × Value) :
    (table.write slot entry).slots other =
      if other = slot then some entry else table.slots other := by
  by_cases same : other = slot
  · simp [write, same]
  · simp [write, same]

inductive Probe (Value : Type v)
  | found (value : Value)
  | vacant (slot : ℕ)
  | exhausted

section Search

variable [DecidableEq Key]

def probeFrom (table : ProbeTable Key Value) (key : Key) : ℕ → ℕ → Probe Value
  | 0, _ => .exhausted
  | fuel + 1, slot =>
    match table.slots slot with
    | none => .vacant slot
    | some entry =>
      if entry.1 = key then .found entry.2
      else table.probeFrom key fuel ((slot + 1) % table.capacity)

/-- The first vacant slot among a bounded number of slots. -/
def vacantFrom (table : ProbeTable Key Value) : ℕ → ℕ → Option ℕ
  | 0, _ => none
  | fuel + 1, slot =>
    match table.slots slot with
    | none => some slot
    | some _ => table.vacantFrom fuel ((slot + 1) % table.capacity)

variable (hash : Key → ℕ)

/-- Search the whole table, from the slot of the key's hash on. -/
def probe (table : ProbeTable Key Value) (key : Key) : Probe Value :=
  table.probeFrom key table.capacity (hash key % table.capacity)

/-- Store an entry in the first vacant slot from its hash on. -/
def reinsert (table : ProbeTable Key Value) (entry : Key × Value) : ProbeTable Key Value :=
  match table.vacantFrom table.capacity (hash entry.1 % table.capacity) with
  | some slot => table.write slot entry
  | none => table

/-- Move the entry of a slot, if there is one, into another table. -/
def moveSlot (table grown : ProbeTable Key Value) (slot : ℕ) : ProbeTable Key Value :=
  match table.slots slot with
  | none => grown
  | some entry => grown.reinsert hash entry

/-- Every entry, in slot order, in a table of another capacity. -/
def rehash (table : ProbeTable Key Value) (capacity : ℕ) : ProbeTable Key Value :=
  (List.range table.capacity).foldl (table.moveSlot hash) (vacant capacity)

end Search

def Stored (table : ProbeTable Key Value) (key : Key) (value : Value) : Prop :=
  ∃ slot < table.capacity, table.slots slot = some (key, value)

def occupied (table : ProbeTable Key Value) : Finset ℕ :=
  (Finset.range table.capacity).filter fun slot => (table.slots slot).isSome

theorem exists_vacant {table : ProbeTable Key Value} (room : table.occupied.card < table.capacity) :
    ∃ slot < table.capacity, table.slots slot = none := by
  by_contra full
  have all : table.occupied = Finset.range table.capacity := by
    refine Finset.filter_true_of_mem fun slot member => ?_
    cases held : table.slots slot with
    | none => exact absurd ⟨slot, Finset.mem_range.mp member, held⟩ full
    | some entry => rfl
  rw [all, Finset.card_range] at room
  exact lt_irrefl _ room

theorem card_occupied_write {table : ProbeTable Key Value} {slot : ℕ}
    (inside : slot < table.capacity) (free : table.slots slot = none) (entry : Key × Value) :
    (table.write slot entry).occupied.card = table.occupied.card + 1 := by
  have fresh : slot ∉ table.occupied := by
    simp [occupied, free]
  have added : (table.write slot entry).occupied = insert slot table.occupied := by
    ext other
    simp only [occupied, Finset.mem_filter, Finset.mem_range, capacity_write, slots_write,
      Finset.mem_insert]
    by_cases same : other = slot
    · subst same
      simp [inside]
    · simp [same]
  rw [added, Finset.card_insert_of_notMem fresh]

section Order

variable (hash : Key → ℕ)

/-- A slot is reached by a key when the slots before it, from the hash on, are occupied. -/
def Reaches (table : ProbeTable Key Value) (key : Key) (slot : ℕ) : Prop :=
  ∃ steps < table.capacity, slot = (hash key + steps) % table.capacity ∧
    ∀ earlier < steps, (table.slots ((hash key + earlier) % table.capacity)).isSome

/-- Every stored key is reached from its hash, and stored once. -/
structure WellProbed (table : ProbeTable Key Value) : Prop where
  reaches : ∀ slot < table.capacity, ∀ entry, table.slots slot = some entry →
    table.Reaches hash entry.1 slot
  once : ∀ first < table.capacity, ∀ second < table.capacity, ∀ entry other,
    table.slots first = some entry → table.slots second = some other → entry.1 = other.1 →
    first = second

variable {hash} {table : ProbeTable Key Value} {key : Key} {value : Value}

theorem vacant_wellProbed (capacity : ℕ) :
    (vacant capacity : ProbeTable Key Value).WellProbed hash where
  reaches := by
    intro slot _ entry held
    cases held
  once := by
    intro first _ second _ entry other held
    cases held

theorem Reaches.write {slot : ℕ} (reached : table.Reaches hash key slot) (other : ℕ)
    (entry : Key × Value) : (table.write other entry).Reaches hash key slot := by
  obtain ⟨steps, bounded, place, crossed⟩ := reached
  refine ⟨steps, bounded, place, fun earlier before => ?_⟩
  rw [slots_write, capacity_write]
  split
  · rfl
  · exact crossed earlier before

theorem next_slot (start steps capacity : ℕ) :
    ((start + steps) % capacity + 1) % capacity = (start + (steps + 1)) % capacity := by
  rw [Nat.mod_add_mod, Nat.add_assoc]

theorem slots_eq_of_stored (sound : table.WellProbed hash) {slot : ℕ}
    (stored : table.Stored key value) (inside : slot < table.capacity) {entry : Key × Value}
    (held : table.slots slot = some entry) (same : entry.1 = key) : entry.2 = value := by
  obtain ⟨place, bound, kept⟩ := stored
  have here := sound.once slot inside place bound entry (key, value) held kept same
  rw [here, kept] at held
  rw [← Option.some.inj held]

section Finds

variable [DecidableEq Key]

theorem probe_of_stored (sound : table.WellProbed hash) (stored : table.Stored key value) :
    table.probe hash key = .found value := by
  obtain ⟨slot, inside, held⟩ := stored
  obtain ⟨steps, bounded, place, crossed⟩ := sound.reaches slot inside (key, value) held
  have walk : ∀ left walked, walked + left = steps → ∀ fuel, left < fuel →
      table.probeFrom key fuel ((hash key + walked) % table.capacity) = .found value := by
    intro left
    induction left with
    | zero =>
      intro walked total fuel enough
      obtain ⟨rest, rfl⟩ := Nat.exists_eq_add_of_lt enough
      rw [Nat.add_zero] at total
      rw [total, ← place]
      simp [probeFrom, held]
    | succ left ih =>
      intro walked total fuel enough
      obtain ⟨rest, rfl⟩ := Nat.exists_eq_add_of_lt enough
      obtain ⟨entry, passed⟩ := Option.isSome_iff_exists.mp (crossed walked (by omega))
      rw [show left + 1 + rest + 1 = (left + 1 + rest) + 1 from rfl, probeFrom, passed]
      by_cases here : entry.1 = key
      · have below : (hash key + walked) % table.capacity < table.capacity :=
          Nat.mod_lt _ (by omega)
        have same := slots_eq_of_stored sound ⟨slot, inside, held⟩ below passed here
        simp [here, same]
      · simp only [here, if_false]
        rw [next_slot]
        exact ih (walked + 1) (by omega) _ (by omega)
  have reached := walk steps 0 (Nat.zero_add _) table.capacity bounded
  rwa [Nat.add_zero] at reached

theorem probeFrom_of_absent (positive : 0 < table.capacity)
    (absent : ∀ value, ¬ table.Stored key value) (fuel slot : ℕ)
    (inside : slot < table.capacity) :
    table.probeFrom key fuel slot =
      (table.vacantFrom fuel slot).elim .exhausted .vacant := by
  induction fuel generalizing slot with
  | zero => rfl
  | succ fuel ih =>
    cases held : table.slots slot with
    | none => simp [probeFrom, vacantFrom, held]
    | some entry =>
      have different : entry.1 ≠ key := by
        intro same
        exact absent entry.2 ⟨slot, inside, by rw [held, ← same]⟩
      simp only [probeFrom, vacantFrom, held, different, if_false]
      exact ih _ (Nat.mod_lt _ positive)

end Finds

/-- The search for a vacant slot succeeds where there is one, and crosses occupied slots only. -/
theorem vacantFrom_of_room (hash : Key → ℕ)
    (room : ∃ slot < table.capacity, table.slots slot = none) (key : Key) :
    ∃ slot < table.capacity,
      table.vacantFrom table.capacity (hash key % table.capacity) = some slot ∧
      table.slots slot = none ∧ table.Reaches hash key slot := by
  have onPath : ∃ steps, steps < table.capacity ∧
      table.slots ((hash key + steps) % table.capacity) = none := by
    obtain ⟨slot, inside, free⟩ := room
    have start : hash key % table.capacity < table.capacity := Nat.mod_lt _ (by omega)
    by_cases after : hash key % table.capacity ≤ slot
    · refine ⟨slot - hash key % table.capacity, by omega, ?_⟩
      rw [← Nat.mod_add_mod, Nat.add_sub_cancel' after, Nat.mod_eq_of_lt inside, free]
    · refine ⟨slot + table.capacity - hash key % table.capacity, by omega, ?_⟩
      rw [← Nat.mod_add_mod, Nat.add_sub_cancel' (by omega), Nat.add_mod_right,
        Nat.mod_eq_of_lt inside, free]
  classical
  have least := Nat.find_spec onPath
  have before : ∀ earlier < Nat.find onPath,
      (table.slots ((hash key + earlier) % table.capacity)).isSome := by
    intro earlier smaller
    cases held : table.slots ((hash key + earlier) % table.capacity) with
    | none => exact absurd ⟨lt_trans smaller least.1, held⟩ (Nat.find_min onPath smaller)
    | some entry => rfl
  generalize Nat.find onPath = steps at least before
  obtain ⟨bounded, free⟩ := least
  have walk : ∀ left walked, walked + left = steps → ∀ fuel, left < fuel →
      table.vacantFrom fuel ((hash key + walked) % table.capacity) =
        some ((hash key + steps) % table.capacity) := by
    intro left
    induction left with
    | zero =>
      intro walked total fuel enough
      obtain ⟨rest, rfl⟩ := Nat.exists_eq_add_of_lt enough
      rw [Nat.add_zero] at total
      rw [total]
      simp [vacantFrom, free]
    | succ left ih =>
      intro walked total fuel enough
      obtain ⟨rest, rfl⟩ := Nat.exists_eq_add_of_lt enough
      obtain ⟨entry, passed⟩ := Option.isSome_iff_exists.mp (before walked (by omega))
      rw [show left + 1 + rest + 1 = (left + 1 + rest) + 1 from rfl, vacantFrom, passed]
      dsimp only
      rw [next_slot]
      exact ih (walked + 1) (by omega) _ (by omega)
  have reached := walk steps 0 (Nat.zero_add _) table.capacity bounded
  rw [Nat.add_zero] at reached
  exact ⟨_, Nat.mod_lt _ (by omega), reached, free, steps, bounded, rfl, before⟩

/-- Storing a new key where a search for it ends keeps the table sound. -/
theorem WellProbed.write (sound : table.WellProbed hash) (absent : ∀ value, ¬ table.Stored key value)
    {slot : ℕ} (reached : table.Reaches hash key slot) :
    (table.write slot (key, value)).WellProbed hash where
  reaches := by
    intro other inside entry held
    rw [slots_write] at held
    split at held
    case isTrue same =>
      cases held
      rw [same]
      exact reached.write slot _
    case isFalse => exact (sound.reaches other inside entry held).write slot _
  once := by
    intro first firstInside second secondInside entry other held held' same
    rw [slots_write] at held held'
    split at held
    case isTrue here =>
      split at held'
      case isTrue there => rw [here, there]
      case isFalse =>
        cases held
        refine absurd ⟨second, secondInside, ?_⟩ (absent other.2)
        rw [held', show key = other.1 from same]
    case isFalse =>
      split at held'
      case isTrue =>
        cases held'
        refine absurd ⟨first, firstInside, ?_⟩ (absent entry.2)
        rw [held, ← show entry.1 = key from same]
      case isFalse =>
        exact sound.once first firstInside second secondInside entry other held held' same

theorem stored_write {slot : ℕ} (inside : slot < table.capacity) (free : table.slots slot = none)
    (entry : Key × Value) :
    (table.write slot entry).Stored key value ↔ table.Stored key value ∨ entry = (key, value) := by
  constructor
  · rintro ⟨place, bound, held⟩
    rw [slots_write] at held
    split at held
    · exact .inr (Option.some.inj held)
    · exact .inl ⟨place, bound, held⟩
  · rintro (⟨place, bound, held⟩ | rfl)
    · refine ⟨place, bound, ?_⟩
      rw [slots_write, if_neg, held]
      rintro rfl
      rw [free] at held
      cases held
    · exact ⟨slot, inside, by rw [slots_write, if_pos rfl]⟩

theorem reinsert_spec (sound : table.WellProbed hash)
    (room : table.occupied.card < table.capacity) {entry : Key × Value}
    (absent : ∀ value, ¬ table.Stored entry.1 value) :
    (table.reinsert hash entry).capacity = table.capacity ∧
      (table.reinsert hash entry).WellProbed hash ∧
      (table.reinsert hash entry).occupied.card = table.occupied.card + 1 ∧
      ∀ key value, (table.reinsert hash entry).Stored key value ↔
        table.Stored key value ∨ entry = (key, value) := by
  obtain ⟨slot, inside, search, free, reached⟩ :=
    vacantFrom_of_room hash (exists_vacant room) entry.1
  unfold reinsert
  rw [search]
  exact ⟨rfl, sound.write absent reached, card_occupied_write inside free entry,
    fun key value => stored_write inside free entry⟩

/-- What has been moved once a number of slots has been visited. -/
structure Moved (hash : Key → ℕ) (table grown : ProbeTable Key Value) (capacity visited : ℕ) :
    Prop where
  capacity : grown.capacity = capacity
  sound : grown.WellProbed hash
  card : grown.occupied.card = (table.occupied.filter (· < visited)).card
  stored : ∀ key value, grown.Stored key value ↔
    ∃ slot < visited, table.slots slot = some (key, value)

theorem Moved.step {grown : ProbeTable Key Value} {capacity visited : ℕ}
    (sound : table.WellProbed hash) (room : table.occupied.card < capacity)
    (inside : visited < table.capacity) (moved : Moved hash table grown capacity visited) :
    Moved hash table (table.moveSlot hash grown visited) capacity (visited + 1) := by
  unfold moveSlot
  cases held : table.slots visited with
  | none =>
    have unchanged : table.occupied.filter (· < visited + 1) =
        table.occupied.filter (· < visited) := by
      ext slot
      simp only [Finset.mem_filter, occupied, Finset.mem_range]
      constructor
      · rintro ⟨⟨bound, kept⟩, before⟩
        refine ⟨⟨bound, kept⟩, lt_of_le_of_ne (Nat.lt_succ_iff.mp before) ?_⟩
        rintro rfl
        rw [held] at kept
        cases kept
      · rintro ⟨kept, before⟩
        exact ⟨kept, Nat.lt_succ_of_lt before⟩
    refine ⟨moved.capacity, moved.sound, by rw [unchanged, moved.card], fun key value => ?_⟩
    rw [moved.stored]
    constructor
    · rintro ⟨slot, before, kept⟩
      exact ⟨slot, Nat.lt_succ_of_lt before, kept⟩
    · rintro ⟨slot, before, kept⟩
      refine ⟨slot, lt_of_le_of_ne (Nat.lt_succ_iff.mp before) ?_, kept⟩
      rintro rfl
      rw [held] at kept
      cases kept
  | some entry =>
    have member : visited ∈ table.occupied := by
      simp [occupied, inside, held]
    have added : table.occupied.filter (· < visited + 1) =
        insert visited (table.occupied.filter (· < visited)) := by
      ext slot
      simp only [Finset.mem_filter, Finset.mem_insert]
      constructor
      · rintro ⟨kept, before⟩
        rcases Nat.lt_succ_iff_lt_or_eq.mp before with earlier | here
        · exact .inr ⟨kept, earlier⟩
        · exact .inl here
      · rintro (rfl | ⟨kept, before⟩)
        · exact ⟨member, Nat.lt_succ_self _⟩
        · exact ⟨kept, Nat.lt_succ_of_lt before⟩
    have grows : (table.occupied.filter (· < visited)).card + 1 =
        (table.occupied.filter (· < visited + 1)).card := by
      rw [added, Finset.card_insert_of_notMem (by simp)]
    have spare : grown.occupied.card < grown.capacity := by
      have within := Finset.card_filter_le table.occupied (· < visited + 1)
      rw [moved.capacity, moved.card]
      omega
    have absent : ∀ value, ¬ grown.Stored entry.1 value := by
      intro value kept
      obtain ⟨slot, before, same⟩ := (moved.stored entry.1 value).mp kept
      have here := sound.once slot (before.trans inside) visited inside (entry.1, value) entry
        same held rfl
      omega
    obtain ⟨capacityKept, soundAfter, cardAfter, storedAfter⟩ :=
      reinsert_spec moved.sound spare absent
    refine ⟨capacityKept.trans moved.capacity, soundAfter, ?_, fun key value => ?_⟩
    · rw [cardAfter, moved.card, grows]
    · rw [storedAfter, moved.stored]
      constructor
      · rintro (⟨slot, before, kept⟩ | rfl)
        · exact ⟨slot, Nat.lt_succ_of_lt before, kept⟩
        · exact ⟨visited, Nat.lt_succ_self _, held⟩
      · rintro ⟨slot, before, kept⟩
        rcases Nat.lt_succ_iff_lt_or_eq.mp before with earlier | rfl
        · exact .inl ⟨slot, earlier, kept⟩
        · rw [held] at kept
          exact .inr (Option.some.inj kept)

theorem rehash_spec (sound : table.WellProbed hash) {capacity : ℕ}
    (room : table.occupied.card < capacity) :
    (table.rehash hash capacity).capacity = capacity ∧
      (table.rehash hash capacity).WellProbed hash ∧
      (table.rehash hash capacity).occupied.card = table.occupied.card ∧
      ∀ key value, (table.rehash hash capacity).Stored key value ↔ table.Stored key value := by
  have moved : ∀ visited ≤ table.capacity, Moved hash table
      ((List.range visited).foldl (table.moveSlot hash) (vacant capacity)) capacity visited := by
    intro visited
    induction visited with
    | zero =>
      intro _
      refine ⟨rfl, vacant_wellProbed capacity, ?_, fun key value => ?_⟩
      · simp [occupied, vacant]
      · simp [Stored, vacant]
    | succ visited ih =>
      intro bound
      rw [List.range_succ, List.foldl_append]
      exact (ih (by omega)).step sound room bound
  have finished := moved table.capacity (le_refl _)
  refine ⟨finished.capacity, finished.sound, ?_, finished.stored⟩
  rw [rehash, finished.card]
  congr 1
  refine Finset.filter_true_of_mem fun slot member => ?_
  exact Finset.mem_range.mp (Finset.mem_filter.mp member).1

end Order

end ProbeTable

end OxeeUI.Library
