import Mathlib.Data.List.Sublists
import Mathlib.Order.Bounds.Defs

/-!
# Longest common subsequences

The length of a longest common subsequence by its recursion on two lists.
-/

namespace OxeeUI.Library

variable {Item : Type*}

theorem tail_sublist {first second : Item} {left right : List Item}
    (sublist : (first :: left).Sublist (second :: right)) : left.Sublist right := by
  cases sublist with
  | cons _ later => exact (List.sublist_cons_self first left).trans later
  | cons_cons _ later => exact later

theorem sublist_of_ne {first second : Item} {left right : List Item} (different : first ≠ second)
    (sublist : (first :: left).Sublist (second :: right)) : (first :: left).Sublist right := by
  cases sublist with
  | cons _ later => exact later
  | cons_cons _ later => exact absurd rfl different

section Length

variable [DecidableEq Item]

def lcsLength : List Item → List Item → ℕ
  | [], _ => 0
  | _ :: _, [] => 0
  | first :: left, second :: right =>
    if first = second then lcsLength left right + 1
    else max (lcsLength left (second :: right)) (lcsLength (first :: left) right)
termination_by left right => left.length + right.length

@[simp] theorem lcsLength_nil_left (right : List Item) : lcsLength [] right = 0 := by
  rw [lcsLength]

@[simp] theorem lcsLength_nil_right (left : List Item) : lcsLength left [] = 0 := by
  cases left with
  | nil => rw [lcsLength]
  | cons first left => rw [lcsLength]

theorem lcsLength_cons (first second : Item) (left right : List Item) :
    lcsLength (first :: left) (second :: right) =
      if first = second then lcsLength left right + 1
      else max (lcsLength left (second :: right)) (lcsLength (first :: left) right) := by
  rw [lcsLength]

theorem length_le_lcsLength {common left right : List Item} (inLeft : common.Sublist left)
    (inRight : common.Sublist right) : common.length ≤ lcsLength left right := by
  induction left, right using lcsLength.induct generalizing common with
  | case1 right =>
    rw [List.sublist_nil.mp inLeft]
    exact Nat.zero_le _
  | case2 first left =>
    rw [List.sublist_nil.mp inRight]
    exact Nat.zero_le _
  | case3 left second right ih =>
    rw [lcsLength_cons, if_pos rfl]
    cases common with
    | nil => exact Nat.zero_le _
    | cons item rest =>
      exact Nat.succ_le_succ (ih (tail_sublist inLeft) (tail_sublist inRight))
  | case4 first left second right different skipLeft skipRight =>
    rw [lcsLength_cons, if_neg different]
    cases common with
    | nil => exact Nat.zero_le _
    | cons item rest =>
      by_cases here : item = first
      · have other : item ≠ second := fun same => different (here.symm.trans same)
        exact (skipRight inLeft (sublist_of_ne other inRight)).trans (le_max_right _ _)
      · exact (skipLeft (sublist_of_ne here inLeft) inRight).trans (le_max_left _ _)

theorem exists_lcsLength (left right : List Item) :
    ∃ common : List Item, common.Sublist left ∧ common.Sublist right ∧
      common.length = lcsLength left right := by
  induction left, right using lcsLength.induct with
  | case1 right => exact ⟨[], List.Sublist.slnil, List.nil_sublist _, by simp⟩
  | case2 first left => exact ⟨[], List.nil_sublist _, List.Sublist.slnil, by simp⟩
  | case3 left second right ih =>
    obtain ⟨common, inLeft, inRight, length⟩ := ih
    refine ⟨second :: common, inLeft.cons_cons second, inRight.cons_cons second, ?_⟩
    rw [lcsLength_cons, if_pos rfl, List.length_cons, length]
  | case4 first left second right different skipLeft skipRight =>
    rw [lcsLength_cons, if_neg different]
    rcases le_total (lcsLength left (second :: right)) (lcsLength (first :: left) right) with
      less | less
    · obtain ⟨common, inLeft, inRight, length⟩ := skipRight
      exact ⟨common, inLeft, inRight.cons second, length.trans (max_eq_right less).symm⟩
    · obtain ⟨common, inLeft, inRight, length⟩ := skipLeft
      exact ⟨common, inLeft.cons first, inRight, length.trans (max_eq_left less).symm⟩

theorem lcsLength_isGreatest (left right : List Item) :
    IsGreatest {length | ∃ common : List Item, common.Sublist left ∧ common.Sublist right ∧
      common.length = length} (lcsLength left right) := by
  refine ⟨exists_lcsLength left right, ?_⟩
  rintro length ⟨common, inLeft, inRight, rfl⟩
  exact length_le_lcsLength inLeft inRight

end Length

end OxeeUI.Library
