import Mathlib.Data.List.Basic
import Mathlib.Data.List.Infix
import Mathlib.Tactic.TypeStar

/-!
# The first occurrence of a word

Where a word occurs first in a text, and what a start of the text or more of it tells of
that place.
-/

namespace OxeeUI.Library

variable {Letter : Type*} [DecidableEq Letter] {word text front back : List Letter} {i : ℕ}

def firstOccurrence (word text : List Letter) : Option ℕ :=
  text.tails.findIdx? fun rest => word.isPrefixOf rest

omit [DecidableEq Letter] in
theorem occurs_length (nonempty : word ≠ []) (here : word <+: text.drop i) :
    i + word.length ≤ text.length := by
  have bound := here.length_le
  have positive := List.length_pos_iff.mpr nonempty
  rw [List.length_drop] at bound
  omega

theorem firstOccurrence_eq_some_iff (nonempty : word ≠ []) :
    firstOccurrence word text = some i ↔
      word <+: text.drop i ∧ ∀ j < i, ¬word <+: text.drop j := by
  rw [firstOccurrence, List.findIdx?_eq_some_iff_getElem]
  simp only [List.length_tails, List.getElem_tails, List.isPrefixOf_iff_prefix]
  constructor
  · rintro ⟨-, here, before⟩
    exact ⟨here, before⟩
  · rintro ⟨here, before⟩
    have bound := occurs_length nonempty here
    exact ⟨by omega, here, before⟩

theorem firstOccurrence_eq_none_iff (nonempty : word ≠ []) :
    firstOccurrence word text = none ↔ ∀ i, ¬word <+: text.drop i := by
  constructor
  · intro none i here
    rw [firstOccurrence, List.findIdx?_eq_none_iff] at none
    have bound := occurs_length nonempty here
    have member : text.drop i ∈ text.tails := (List.mem_tails _ _).mpr (List.drop_suffix i text)
    have absent := none _ member
    rw [List.isPrefixOf_iff_prefix.mpr here] at absent
    cases absent
  · intro absent
    rw [Option.eq_none_iff_forall_ne_some]
    intro i found
    exact absent i ((firstOccurrence_eq_some_iff nonempty).mp found).1

omit [DecidableEq Letter] in
theorem occurs_take_iff (nonempty : word ≠ []) {count : ℕ} :
    word <+: (text.take count).drop i ↔ word <+: text.drop i ∧ i + word.length ≤ count := by
  have positive := List.length_pos_iff.mpr nonempty
  rw [List.drop_take, List.prefix_take_iff]
  refine and_congr_right fun _ => ?_
  omega

omit [DecidableEq Letter] in
theorem occurs_append (here : word <+: front.drop i) : word <+: (front ++ back).drop i := by
  rw [List.drop_append]
  exact here.trans (List.prefix_append _ _)

omit [DecidableEq Letter] in
theorem occurs_of_append (nonempty : word ≠ []) (here : word <+: (front ++ back).drop i)
    (bound : i + word.length ≤ front.length) : word <+: front.drop i := by
  have taken := (occurs_take_iff nonempty).mpr ⟨here, bound⟩
  rwa [List.take_left] at taken

theorem firstOccurrence_append (nonempty : word ≠ []) (found : firstOccurrence word front = some i) :
    firstOccurrence word (front ++ back) = some i := by
  obtain ⟨here, before⟩ := (firstOccurrence_eq_some_iff nonempty).mp found
  refine (firstOccurrence_eq_some_iff nonempty).mpr ⟨occurs_append here, fun j earlier there => ?_⟩
  have bound := occurs_length nonempty here
  exact before j earlier (occurs_of_append nonempty there (by omega))

theorem firstOccurrence_behind {first other : Letter} (apart : other ≠ first) (rest : List Letter)
    (count : ℕ) :
    firstOccurrence (first :: rest) (List.replicate count other ++ (first :: rest ++ back)) =
      some count := by
  refine (firstOccurrence_eq_some_iff (List.cons_ne_nil _ _)).mpr ⟨?_, fun j earlier there => ?_⟩
  · rw [List.drop_left' (List.length_replicate)]
    exact List.prefix_append _ _
  · rw [List.drop_append_of_le_length (by rw [List.length_replicate]; omega), List.drop_replicate]
      at there
    obtain ⟨more, isMore⟩ : ∃ more, count - j = more + 1 := ⟨count - j - 1, by omega⟩
    rw [isMore, List.replicate_succ, List.cons_append, List.cons_prefix_cons] at there
    exact apart there.1.symm

end OxeeUI.Library
