import Mathlib.Data.List.Induction
import Mathlib.Data.List.Pairwise
import Mathlib.Order.Lattice

/-!
# Longest chains

A table holds for every item the length of the longest chain that starts there, filled from
the last item to the first.  Walking the table forward picks a longest chain.
-/

namespace OxeeUI.Library

variable {Item : Type*} (rank : Item → Nat)

/-- One more than the longest later chain of higher rank, and one when there is none. -/
def chainLength (item : Item) (later : List (Item × Nat)) : Nat :=
  later.foldl (fun best entry =>
    if rank item < rank entry.1 then max best (1 + entry.2) else best) 1

def chainLengths : List Item → List (Item × Nat)
  | [] => []
  | item :: rest => (item, chainLength rank item (chainLengths rest)) :: chainLengths rest

/-- The greatest length of the table, none for the empty one. -/
def longestLength (table : List (Item × Nat)) : Nat :=
  table.foldl (fun longest entry => max longest entry.2) 0

/-- Pick the first item above the previous pick from which the remaining length is reached. -/
def pickChain (previous : Int) (remaining : Nat) : List (Item × Nat) → List Item
  | [] => []
  | (item, length) :: rest =>
    if previous < rank item ∧ length = remaining then
      item :: pickChain (rank item) (remaining - 1) rest
    else pickChain previous remaining rest

def longestChain (items : List Item) : List Item :=
  pickChain rank (-1) (longestLength (chainLengths rank items)) (chainLengths rank items)

variable {rank}

/-! ## The table -/

variable (rank) in
theorem chainLength_spec (item : Item) (later : List (Item × Nat)) :
    (1 ≤ chainLength rank item later ∧
      ∀ entry ∈ later, rank item < rank entry.1 → 1 + entry.2 ≤ chainLength rank item later) ∧
    (chainLength rank item later = 1 ∨
      ∃ entry ∈ later, rank item < rank entry.1 ∧ chainLength rank item later = 1 + entry.2) := by
  induction later using List.reverseRecOn with
  | nil => simp [chainLength]
  | append_singleton later entry ih =>
    obtain ⟨⟨positive, bound⟩, attained⟩ := ih
    have extended : chainLength rank item (later ++ [entry]) =
        if rank item < rank entry.1 then max (chainLength rank item later) (1 + entry.2)
        else chainLength rank item later := by
      simp [chainLength, List.foldl_append]
    rw [extended]
    split
    · next above =>
      refine ⟨⟨by omega, ?_⟩, ?_⟩
      · intro other member higher
        rcases List.mem_append.mp member with earlier | last
        · have := bound other earlier higher
          omega
        · rw [List.mem_singleton.mp last]
          omega
      · rcases le_total (chainLength rank item later) (1 + entry.2) with less | more
        · exact .inr ⟨entry, by simp, above, max_eq_right less⟩
        · rw [max_eq_left more]
          refine attained.imp_right ?_
          rintro ⟨other, member, facts⟩
          exact ⟨other, List.mem_append_left _ member, facts⟩
    · next level =>
      refine ⟨⟨positive, ?_⟩, ?_⟩
      · intro other member higher
        rcases List.mem_append.mp member with earlier | last
        · exact bound other earlier higher
        · rw [List.mem_singleton.mp last] at higher
          exact absurd higher level
      · refine attained.imp_right ?_
        rintro ⟨other, member, facts⟩
        exact ⟨other, List.mem_append_left _ member, facts⟩

theorem map_fst_chainLengths (items : List Item) :
    (chainLengths rank items).map Prod.fst = items := by
  induction items with
  | nil => rfl
  | cons item rest ih => simp [chainLengths, ih]

theorem length_le_chainLengths {chain items : List Item} (sub : chain.Sublist items) :
    chain.Pairwise (rank · < rank ·) → ∀ first rest, chain = first :: rest →
      ∃ entry ∈ chainLengths rank items, entry.1 = first ∧ chain.length ≤ entry.2 := by
  induction sub with
  | slnil =>
    intro _ first rest nonempty
    cases nonempty
  | cons item _ ih =>
    intro increasing first rest nonempty
    obtain ⟨entry, member, facts⟩ := ih increasing first rest nonempty
    exact ⟨entry, List.mem_cons_of_mem _ member, facts⟩
  | @cons_cons later items item _ ih =>
    intro increasing first rest nonempty
    obtain ⟨above, tail⟩ := List.pairwise_cons.mp increasing
    obtain ⟨rfl, rfl⟩ := List.cons.inj nonempty
    refine ⟨_, List.mem_cons_self, rfl, ?_⟩
    have bound := (chainLength_spec rank item (chainLengths rank items)).1
    cases later with
    | nil => exact bound.1
    | cons next later =>
      obtain ⟨entry, member, rfl, length⟩ := ih tail next later rfl
      have best := bound.2 entry member (above entry.1 List.mem_cons_self)
      rw [List.length_cons]
      omega

theorem longestLength_spec (table : List (Item × Nat)) :
    (∀ entry ∈ table, entry.2 ≤ longestLength table) ∧
      (longestLength table = 0 ∨ ∃ entry ∈ table, entry.2 = longestLength table) := by
  induction table using List.reverseRecOn with
  | nil => simp [longestLength]
  | append_singleton table entry ih =>
    have extended : longestLength (table ++ [entry]) = max (longestLength table) entry.2 := by
      simp [longestLength, List.foldl_append]
    rw [extended]
    refine ⟨?_, ?_⟩
    · intro other member
      rcases List.mem_append.mp member with earlier | last
      · exact (ih.1 other earlier).trans (le_max_left ..)
      · rw [List.mem_singleton.mp last]
        exact le_max_right ..
    · rcases le_total (longestLength table) entry.2 with less | more
      · exact .inr ⟨entry, by simp, (max_eq_right less).symm⟩
      · rw [max_eq_left more]
        refine ih.2.imp_right ?_
        rintro ⟨other, member, longest⟩
        exact ⟨other, List.mem_append_left _ member, longest⟩

/-! ## The walk -/

variable (rank) in
theorem pickChain_sublist (table : List (Item × Nat)) :
    ∀ (previous : Int) (remaining : Nat),
      (pickChain rank previous remaining table).Sublist (table.map Prod.fst) := by
  induction table with
  | nil => intro _ _; exact .slnil
  | cons entry rest ih =>
    intro previous remaining
    rw [pickChain, List.map_cons]
    split
    · exact (ih _ _).cons_cons _
    · exact (ih _ _).cons _

theorem pickChain_increasing (table : List (Item × Nat)) :
    ∀ (previous : Int) (remaining : Nat),
      (pickChain rank previous remaining table).Pairwise (rank · < rank ·) ∧
        ∀ item ∈ pickChain rank previous remaining table, previous < rank item := by
  induction table with
  | nil => intro _ _; simp [pickChain]
  | cons entry rest ih =>
    intro previous remaining
    rw [pickChain]
    split
    · next picked =>
      obtain ⟨increasing, above⟩ := ih (rank entry.1) (remaining - 1)
      refine ⟨List.pairwise_cons.mpr ⟨?_, increasing⟩, ?_⟩
      · intro item member
        exact_mod_cast above item member
      · intro item member
        rcases List.mem_cons.mp member with rfl | later
        · exact picked.1
        · exact picked.1.trans (above item later)
    · exact ih previous remaining

theorem length_pickChain (items : List Item) :
    ∀ (previous : Int) (remaining : Nat),
      (remaining = 0 ∨ ∃ entry ∈ chainLengths rank items,
        previous < rank entry.1 ∧ entry.2 = remaining) →
      (pickChain rank previous remaining (chainLengths rank items)).length = remaining := by
  induction items with
  | nil =>
    intro previous remaining reached
    rcases reached with rfl | ⟨entry, member, _⟩
    · rfl
    · cases member
  | cons item rest ih =>
    intro previous remaining reached
    obtain ⟨⟨positive, _⟩, attained⟩ :=
      chainLength_spec rank item (chainLengths rank rest)
    rw [chainLengths, pickChain]
    split
    · next picked =>
      rw [List.length_cons, ih]
      · omega
      · rcases attained with single | ⟨entry, member, above, length⟩
        · exact .inl (by omega)
        · exact .inr ⟨entry, member, by exact_mod_cast above, by omega⟩
    · next passed =>
      apply ih
      refine reached.imp_right ?_
      rintro ⟨entry, member, above, length⟩
      rcases List.mem_cons.mp member with rfl | later
      · exact absurd ⟨above, length⟩ passed
      · exact ⟨entry, later, above, length⟩

/-! ## The chain found -/

variable (rank) in
theorem longestChain_sublist (items : List Item) : (longestChain rank items).Sublist items := by
  have sub := pickChain_sublist rank (chainLengths rank items) (-1)
    (longestLength (chainLengths rank items))
  rwa [map_fst_chainLengths] at sub

variable (rank) in
theorem longestChain_increasing (items : List Item) :
    (longestChain rank items).Pairwise (rank · < rank ·) :=
  (pickChain_increasing _ _ _).1

theorem length_le_longestChain {chain items : List Item} (sub : chain.Sublist items)
    (increasing : chain.Pairwise (rank · < rank ·)) :
    chain.length ≤ (longestChain rank items).length := by
  obtain ⟨bound, attained⟩ := longestLength_spec (chainLengths rank items)
  have length : (longestChain rank items).length = longestLength (chainLengths rank items) := by
    apply length_pickChain
    refine attained.imp_right ?_
    rintro ⟨entry, member, longest⟩
    exact ⟨entry, member, by omega, longest⟩
  rw [length]
  cases chain with
  | nil => exact Nat.zero_le _
  | cons first rest =>
    obtain ⟨entry, member, _, reached⟩ := length_le_chainLengths sub increasing first rest rfl
    exact reached.trans (bound entry member)

end OxeeUI.Library
