import Mathlib.Data.List.Basic
import Mathlib.Tactic.TypeStar

/-!
# One edit

Lists that differ by one letter at most, and what their first letters tell of it.
-/

namespace OxeeUI.Library

variable {Letter : Type*} {a b : List Letter} {c d : Letter}

/-- The second list is the first after at most one insertion, deletion or substitution. -/
inductive AtMostOneEdit : List Letter → List Letter → Prop where
  | same (a : List Letter) : AtMostOneEdit a a
  | insertion (front back : List Letter) (letter : Letter) :
      AtMostOneEdit (front ++ back) (front ++ letter :: back)
  | deletion (front back : List Letter) (letter : Letter) :
      AtMostOneEdit (front ++ letter :: back) (front ++ back)
  | substitution (front back : List Letter) (old new : Letter) :
      AtMostOneEdit (front ++ old :: back) (front ++ new :: back)

namespace AtMostOneEdit

theorem symm (edit : AtMostOneEdit a b) : AtMostOneEdit b a := by
  cases edit with
  | same => exact .same _
  | insertion front back letter => exact .deletion front back letter
  | deletion front back letter => exact .insertion front back letter
  | substitution front back old new => exact .substitution front back new old

theorem comm : AtMostOneEdit a b ↔ AtMostOneEdit b a := ⟨symm, symm⟩

theorem length_le (edit : AtMostOneEdit a b) :
    a.length ≤ b.length + 1 ∧ b.length ≤ a.length + 1 := by
  cases edit <;> simp <;> omega

theorem cons (c : Letter) (edit : AtMostOneEdit a b) : AtMostOneEdit (c :: a) (c :: b) := by
  cases edit with
  | same => exact .same _
  | insertion front back letter => exact .insertion (c :: front) back letter
  | deletion front back letter => exact .deletion (c :: front) back letter
  | substitution front back old new => exact .substitution (c :: front) back old new

theorem insertion_cases {front back : List Letter} {letter : Letter} (before : front ++ back = c :: a) :
    front ++ letter :: back = letter :: c :: a ∨
      ∃ front', a = front' ++ back ∧ front ++ letter :: back = c :: (front' ++ letter :: back) := by
  cases front with
  | nil =>
    refine .inl ?_
    rw [List.nil_append, ← before]
    rfl
  | cons first front =>
    obtain ⟨rfl, rfl⟩ := List.cons.inj before
    exact .inr ⟨front, rfl, rfl⟩

theorem cons_iff : AtMostOneEdit (c :: a) (c :: b) ↔ AtMostOneEdit a b := by
  refine ⟨fun edit => ?_, cons c⟩
  generalize isBefore : c :: a = before at edit
  generalize isAfter : c :: b = after at edit
  cases edit with
  | same =>
    obtain ⟨-, rfl⟩ := List.cons.inj (isBefore.trans isAfter.symm)
    exact .same a
  | insertion front back letter =>
    rcases @insertion_cases _ a c front back letter isBefore.symm with atFront | ⟨more, rfl, behind⟩
    · obtain ⟨rfl, rfl⟩ := List.cons.inj (isAfter.trans atFront)
      exact .insertion [] a c
    · obtain ⟨-, rfl⟩ := List.cons.inj (isAfter.trans behind)
      exact .insertion more back letter
  | deletion front back letter =>
    rcases @insertion_cases _ b c front back letter isAfter.symm with atFront | ⟨more, rfl, behind⟩
    · obtain ⟨rfl, rfl⟩ := List.cons.inj (isBefore.trans atFront)
      exact .deletion [] b c
    · obtain ⟨-, rfl⟩ := List.cons.inj (isBefore.trans behind)
      exact .deletion more back letter
  | substitution front back old new =>
    cases front with
    | nil =>
      obtain ⟨-, rfl⟩ := List.cons.inj isBefore
      obtain ⟨-, rfl⟩ := List.cons.inj isAfter
      exact .same _
    | cons first front =>
      obtain ⟨-, rfl⟩ := List.cons.inj isBefore
      obtain ⟨-, rfl⟩ := List.cons.inj isAfter
      exact .substitution front back old new

theorem substituted_iff (apart : c ≠ d) (length : a.length = b.length) :
    AtMostOneEdit (c :: a) (d :: b) ↔ a = b := by
  refine ⟨fun edit => ?_, ?_⟩
  · generalize isBefore : c :: a = before at edit
    generalize isAfter : d :: b = after at edit
    cases edit with
    | same => exact absurd (List.cons.inj (isBefore.trans isAfter.symm)).1 apart
    | insertion front back letter =>
      have before := congrArg List.length isBefore
      have after := congrArg List.length isAfter
      simp only [List.length_cons, List.length_append] at before after
      omega
    | deletion front back letter =>
      have before := congrArg List.length isBefore
      have after := congrArg List.length isAfter
      simp only [List.length_cons, List.length_append] at before after
      omega
    | substitution front back old new =>
      cases front with
      | nil =>
        obtain ⟨-, rfl⟩ := List.cons.inj isBefore
        exact (List.cons.inj isAfter).2.symm
      | cons first front =>
        have left := (List.cons.inj isBefore).1
        have right := (List.cons.inj isAfter).1
        exact absurd (left.trans right.symm) apart
  · rintro rfl
    exact .substitution [] a c d

theorem inserted_iff (apart : c ≠ d) (length : b.length = a.length + 1) :
    AtMostOneEdit (c :: a) (d :: b) ↔ c :: a = b := by
  refine ⟨fun edit => ?_, ?_⟩
  · generalize isBefore : c :: a = before at edit
    generalize isAfter : d :: b = after at edit
    cases edit with
    | same => exact absurd (List.cons.inj (isBefore.trans isAfter.symm)).1 apart
    | insertion front back letter =>
      rcases @insertion_cases _ a c front back letter isBefore.symm with atFront | ⟨more, rfl, behind⟩
      · exact isBefore.symm.trans (List.cons.inj (isAfter.trans atFront)).2.symm
      · exact absurd (List.cons.inj (isAfter.trans behind)).1.symm apart
    | deletion front back letter =>
      have before := congrArg List.length isBefore
      have after := congrArg List.length isAfter
      simp only [List.length_cons, List.length_append] at before after
      omega
    | substitution front back old new =>
      have before := congrArg List.length isBefore
      have after := congrArg List.length isAfter
      simp only [List.length_cons, List.length_append] at before after
      omega
  · rintro rfl
    exact .insertion [] (c :: a) d

end AtMostOneEdit

end OxeeUI.Library
