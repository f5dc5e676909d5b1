import Mathlib.Data.List.Perm.Basic
import Mathlib.Data.List.Perm.Subperm
import Mathlib.Data.List.Nodup
import Mathlib.Data.List.Flatten

/-!
# Items put in numbered places

Items read back place by place are the items again, and of more names than are
taken one is free.
-/

namespace OxeeUI.Library

universe u

variable {Item : Type u}

/-- The items of one place, in the order they were put there. -/
def bucket (entries : List (ℕ × Item)) (key : ℕ) : List Item :=
  (entries.filter fun entry => entry.1 = key).map Prod.snd

theorem bucket_append (front back : List (ℕ × Item)) (key : ℕ) :
    bucket (front ++ back) key = bucket front key ++ bucket back key := by
  unfold bucket
  rw [List.filter_append, List.map_append]

theorem perm_flatMap_bucket {entries : List (ℕ × Item)} {bound : ℕ}
    (within : ∀ entry ∈ entries, entry.1 < bound) :
    ((List.range bound).flatMap (bucket entries)).Perm (entries.map Prod.snd) := by
  induction bound generalizing entries with
  | zero =>
    cases entries with
    | nil => exact List.Perm.refl _
    | cons entry entries => exact absurd (within entry List.mem_cons_self) (Nat.not_lt_zero _)
  | succ bound ih =>
    have others : ∀ entry ∈ entries.filter fun entry => entry.1 ≠ bound, entry.1 < bound := by
      intro entry member
      obtain ⟨inside, different⟩ := List.mem_filter.mp member
      exact Nat.lt_of_le_of_ne (Nat.le_of_lt_succ (within entry inside)) (by simpa using different)
    have same : (List.range bound).flatMap (bucket entries) =
        (List.range bound).flatMap (bucket (entries.filter fun entry => entry.1 ≠ bound)) := by
      refine List.flatMap_congr fun key member => ?_
      unfold bucket
      rw [List.filter_filter]
      refine congrArg _ (List.filter_congr fun entry _ => ?_)
      have small := List.mem_range.mp member
      by_cases here : entry.1 = key
      · have notLast : entry.1 ≠ bound := by omega
        simp [here, here ▸ notLast]
      · simp [here]
    rw [List.range_succ, List.flatMap_append, List.flatMap_singleton, same]
    refine ((ih others).append_right _).trans ?_
    unfold bucket
    rw [← List.map_append]
    refine List.Perm.map _ (List.perm_append_comm.trans ?_)
    have split := List.filter_append_perm (fun entry : ℕ × Item => decide (entry.1 = bound)) entries
    have negated : (entries.filter fun entry => entry.1 ≠ bound) =
        entries.filter fun entry => !decide (entry.1 = bound) :=
      List.filter_congr fun entry _ => by simp
    rw [negated]
    exact split

theorem exists_free_name {Name : Type u} [DecidableEq Name] {name : ℕ → Name}
    (injective : ∀ first second, name first = name second → first = second) (taken : List Name)
    (start : ℕ) :
    ∃ candidate ∈ (List.range (taken.length + 1)).map (start + ·), name candidate ∉ taken := by
  by_contra none
  have all : ∀ candidate ∈ (List.range (taken.length + 1)).map (start + ·),
      name candidate ∈ taken := by
    intro candidate member
    by_contra free
    exact none ⟨candidate, member, free⟩
  have distinct : (((List.range (taken.length + 1)).map (start + ·)).map name).Nodup := by
    rw [List.map_map]
    refine List.Nodup.map (fun first second same => ?_) List.nodup_range
    exact Nat.add_left_cancel (injective _ _ same)
  have covered : (((List.range (taken.length + 1)).map (start + ·)).map name).Subperm taken :=
    List.subperm_of_subset distinct fun id member => by
      obtain ⟨candidate, inside, rfl⟩ := List.mem_map.mp member
      exact all candidate inside
  have count := covered.length_le
  rw [List.length_map, List.length_map, List.length_range] at count
  exact absurd count (Nat.not_succ_le_self _)

end OxeeUI.Library
