import OxeeUI.Library.JsMap
import Mathlib.Algebra.BigOperators.Group.Finset.Basic
import Mathlib.Algebra.Order.BigOperators.Group.List
import Mathlib.Tactic.Abel

/-!
# Totals over a map

A quantity read off each value of a map, summed over the map.  A write changes
the sum by what the key weighs after less what it weighed before, and a
deletion takes away what the key weighed.
-/

namespace OxeeUI.Library.JsMap

universe u v w

variable {Key : Type u} {Value : Type v} {Amount : Type w} [DecidableEq Key]

section Group

variable [AddCommGroup Amount] (weight : Value → Amount)

/-- What a key weighs: nothing where it is absent. -/
def weightAt (map : JsMap Key Value) (key : Key) : Amount :=
  ((map.get? key).map weight).getD 0

def total (map : JsMap Key Value) : Amount := (map.values.map weight).sum

variable {weight}

theorem weightAt_of_get? {map : JsMap Key Value} {key : Key} {value : Value}
    (found : map.get? key = some value) : map.weightAt weight key = weight value := by
  simp [weightAt, found]

theorem weightAt_of_absent {map : JsMap Key Value} {key : Key} (absent : map.get? key = none) :
    map.weightAt weight key = 0 := by
  simp [weightAt, absent]

theorem weightAt_set (map : JsMap Key Value) (key other : Key) (value : Value) :
    (map.set key value).weightAt weight other =
      if other = key then weight value else map.weightAt weight other := by
  by_cases same : other = key
  · simp [weightAt, same]
  · simp [weightAt, same]

theorem weightAt_delete (map : JsMap Key Value) (key other : Key) :
    (map.delete key).weightAt weight other =
      if other = key then 0 else map.weightAt weight other := by
  by_cases same : other = key
  · simp [weightAt, same]
  · simp [weightAt, same]

omit [DecidableEq Key] in
@[simp]
theorem total_empty : (empty : JsMap Key Value).total weight = 0 := by
  simp [total]

theorem sum_setEntries (key : Key) (value : Value) (entries : List (Key × Value)) :
    ((setEntries key value entries).map fun entry => weight entry.2).sum =
      (entries.map fun entry => weight entry.2).sum -
        ((entries.lookup key).map weight).getD 0 + weight value := by
  induction entries with
  | nil => simp [setEntries]
  | cons entry rest ih =>
    rcases entry with ⟨other, previous⟩
    by_cases here : other = key
    · subst here
      simp only [setEntries, if_pos, List.map_cons, List.sum_cons, List.lookup_cons_self,
        Option.map_some, Option.getD_some]
      abel
    · have passed : (key == other) = false := beq_eq_false_iff_ne.mpr (Ne.symm here)
      simp only [setEntries, if_neg here, List.map_cons, List.sum_cons, ih,
        List.lookup_cons, passed]
      abel

theorem total_set (map : JsMap Key Value) (key : Key) (value : Value) :
    (map.set key value).total weight =
      map.total weight - map.weightAt weight key + weight value := by
  simp only [total, values, List.map_map]
  exact sum_setEntries key value map.entries

theorem sum_filter_ne {entries : List (Key × Value)}
    (distinct : (entries.map Prod.fst).Nodup) (key : Key) :
    ((entries.filter fun entry => entry.1 ≠ key).map fun entry => weight entry.2).sum =
      (entries.map fun entry => weight entry.2).sum -
        ((entries.lookup key).map weight).getD 0 := by
  induction entries with
  | nil => simp
  | cons entry rest ih =>
    rcases entry with ⟨other, value⟩
    rw [List.map_cons, List.nodup_cons] at distinct
    have shorter := ih distinct.2
    by_cases here : other = key
    · subst here
      rw [lookup_eq_none_iff_not_mem.mpr distinct.1] at shorter
      simpa using shorter
    · have passed : (key == other) = false := beq_eq_false_iff_ne.mpr (Ne.symm here)
      simp only [List.filter_cons, decide_eq_true_eq, ne_eq, here, not_false_eq_true, if_true,
        List.map_cons, List.sum_cons, List.lookup_cons, passed]
      rw [show (rest.filter fun entry => decide (¬entry.1 = key)) =
        rest.filter fun entry => entry.1 ≠ key from rfl, shorter]
      abel

theorem total_delete (map : JsMap Key Value) (key : Key) :
    (map.delete key).total weight = map.total weight - map.weightAt weight key := by
  simp only [total, values, List.map_map]
  exact sum_filter_ne map.nodup key

theorem total_eq_zero {map : JsMap Key Value} (empty : ∀ key, map.weightAt weight key = 0) :
    map.total weight = 0 := by
  refine List.sum_eq_zero fun amount member => ?_
  rcases List.mem_map.mp member with ⟨value, stored, rfl⟩
  obtain ⟨key, found⟩ := mem_values_iff.mp stored
  have weighed : map.weightAt weight key = weight value := weightAt_of_get? found
  exact weighed.symm.trans (empty key)

theorem total_eq_sum_keys (map : JsMap Key Value) :
    map.total weight = ∑ key ∈ map.keys.toFinset, map.weightAt weight key := by
  rw [List.sum_toFinset _ map.keys_nodup, total, values, keys, List.map_map, List.map_map]
  refine congrArg List.sum (List.map_congr_left fun entry member => ?_)
  exact (weightAt_of_get? (get?_eq_some_iff.mpr member)).symm

theorem total_congr {first second : JsMap Key Value}
    (same : ∀ key, first.weightAt weight key = second.weightAt weight key) :
    first.total weight = second.total weight := by
  have widened : ∀ map : JsMap Key Value, map.keys.toFinset ⊆
      first.keys.toFinset ∪ second.keys.toFinset →
      map.total weight = ∑ key ∈ first.keys.toFinset ∪ second.keys.toFinset,
        map.weightAt weight key := by
    intro map within
    rw [total_eq_sum_keys]
    refine Finset.sum_subset within fun key _ absent => ?_
    exact weightAt_of_absent (get?_eq_none_iff.mpr (by simpa using absent))
  rw [widened first Finset.subset_union_left, widened second Finset.subset_union_right]
  exact Finset.sum_congr rfl fun key _ => same key

end Group

theorem total_nonneg [AddCommGroup Amount] [PartialOrder Amount] [IsOrderedAddMonoid Amount]
    {weight : Value → Amount} {map : JsMap Key Value}
    (nonneg : ∀ key value, map.get? key = some value → 0 ≤ weight value) :
    0 ≤ map.total weight := by
  refine List.sum_nonneg fun amount member => ?_
  rcases List.mem_map.mp member with ⟨value, stored, rfl⟩
  obtain ⟨key, found⟩ := mem_values_iff.mp stored
  exact nonneg key value found

end OxeeUI.Library.JsMap
