import Mathlib.Data.Nat.Basic
import Mathlib.Tactic.TypeStar

/-!
# Placing pieces from left to right

Pieces are placed one after another without overlap.  Taking the first place for each
leaves the most room: whatever is placed otherwise ends no earlier.
-/

namespace OxeeUI.Library

/-- The first number of a kind, or that there is none. -/
def IsFirst (holds : ℕ → Prop) : Option ℕ → Prop
  | none => ∀ number, ¬holds number
  | some first => holds first ∧ ∀ number, holds number → first ≤ number

theorem IsFirst.congr {holds others : ℕ → Prop} {first : Option ℕ} (isFirst : IsFirst holds first)
    (same : ∀ number, holds number ↔ others number) : IsFirst others first := by
  cases first with
  | none => exact fun number other => isFirst number ((same number).mpr other)
  | some first =>
    exact ⟨(same first).mp isFirst.1, fun number other => isFirst.2 number ((same number).mpr other)⟩

theorem IsFirst.isSome_iff {holds : ℕ → Prop} {first : Option ℕ} (isFirst : IsFirst holds first) :
    first.isSome ↔ ∃ number, holds number := by
  cases first with
  | none =>
    refine ⟨fun present => (Bool.false_ne_true present).elim, ?_⟩
    rintro ⟨number, other⟩
    exact absurd other (isFirst number)
  | some first => exact ⟨fun _ => ⟨first, isFirst.1⟩, fun _ => rfl⟩

theorem isFirst_find? (start count : ℕ) (test : ℕ → Bool) :
    IsFirst (fun number => start ≤ number ∧ number < start + count ∧ test number = true)
      ((List.range' start count).find? test) := by
  cases found : (List.range' start count).find? test with
  | none =>
    rintro number ⟨least, most, passes⟩
    have fails := List.find?_range'_eq_none.mp found number least most
    rw [passes] at fails
    cases fails
  | some first =>
    obtain ⟨passes, member, earlier⟩ := List.find?_range'_eq_some.mp found
    obtain ⟨least, most⟩ := List.mem_range'_1.mp member
    refine ⟨⟨least, most, passes⟩, fun number other => ?_⟩
    by_contra before
    have fails := earlier number other.1 (Nat.lt_of_not_le before)
    rw [other.2.2] at fails
    cases fails

section Placed

variable {Piece : Type*} (occurs : Piece → ℕ → Prop) (size : Piece → ℕ)

/-- Pieces placed one after another, from a start on, and where the last of them stops. -/
inductive Placed : List Piece → ℕ → ℕ → Prop where
  | nil (start : ℕ) : Placed [] start start
  | cons (piece : Piece) (pieces : List Piece) (start position stop : ℕ) (least : start ≤ position)
      (here : occurs piece position) (later : Placed pieces (position + size piece) stop) :
      Placed (piece :: pieces) start stop

/-- The pieces one after the other, each where the search finds it. -/
def placeEach (search : Piece → ℕ → Option ℕ) : List Piece → ℕ → Option ℕ
  | [], start => some start
  | piece :: pieces, start =>
    (search piece start).bind fun found => placeEach search pieces (found + size piece)

variable {occurs size}

/-- With the first place for each, pieces can be placed when they can be placed at all from
there or further on, and they stop no later. -/
theorem placeEach_spec {search : Piece → ℕ → Option ℕ} {pieces : List Piece}
    (first : ∀ piece ∈ pieces, ∀ start,
      IsFirst (fun position => start ≤ position ∧ occurs piece position) (search piece start))
    (start : ℕ) :
    (∀ stop, placeEach size search pieces start = some stop → Placed occurs size pieces start stop) ∧
      ∀ start' stop', start ≤ start' → Placed occurs size pieces start' stop' →
        ∃ stop ≤ stop', placeEach size search pieces start = some stop := by
  induction pieces generalizing start with
  | nil =>
    constructor
    · rintro stop ⟨⟩
      exact .nil start
    · rintro start' stop' least ⟨⟩
      exact ⟨start, least, rfl⟩
  | cons piece pieces ih =>
    obtain ⟨here, later⟩ := List.forall_mem_cons.mp first
    have isFirst := here start
    constructor
    · intro stop placed
      obtain ⟨found, isFound, rest⟩ := Option.bind_eq_some_iff.mp placed
      rw [isFound] at isFirst
      exact .cons piece pieces start found stop isFirst.1.1 isFirst.1.2
        ((ih later _).1 stop rest)
    · intro start' stop' least placed
      cases placed with
      | cons _ _ _ position _ least' occurs' rest =>
        have holds : start ≤ position ∧ occurs piece position :=
          ⟨Nat.le_trans least least', occurs'⟩
        cases found : search piece start with
        | none =>
          rw [found] at isFirst
          exact absurd holds (isFirst position)
        | some found' =>
          rw [found] at isFirst
          obtain ⟨stop, most, isStop⟩ := (ih later (found' + size piece)).2 _ stop'
            (Nat.add_le_add_right (isFirst.2 position holds) _) rest
          refine ⟨stop, most, ?_⟩
          rw [placeEach, found]
          exact isStop

end Placed

end OxeeUI.Library
