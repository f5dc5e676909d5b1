import OxeeUI.Library.OneEdit
import OxeeUI.Library.Utf16

/-!
# Typos in the palette

One pass over two words, with a pointer into each, tells whether one edit makes one of
the other.
-/

namespace OxeeUI.Palette

open OxeeUI.Library

/-- The loop over what is left of both words behind the pointers, and the count after it. -/
def editLoop (sameLength : Bool) : Text → Text → ℕ → Bool
  | shortUnit :: shorter, longUnit :: longer, edits =>
    if shortUnit = longUnit then editLoop sameLength shorter longer edits
    else if 1 < edits + 1 then false
    else editLoop sameLength (if sameLength then shorter else shortUnit :: shorter) longer (edits + 1)
  | shorter, longer, edits => edits + longer.length + shorter.length ≤ 1

def isWithinOnePaletteEdit (a b : Text) : Bool :=
  if a.length > b.length + 1 ∨ b.length > a.length + 1 then false
  else if a = b then true
  else
    let shorter := if a.length ≤ b.length then a else b
    let longer := if a.length ≤ b.length then b else a
    editLoop (shorter.length == longer.length) shorter longer 0

variable {sameLength : Bool} {shorter longer a b : Text}

theorem editLoop_one (length : shorter.length = longer.length) :
    editLoop sameLength shorter longer 1 = true ↔ shorter = longer := by
  induction shorter generalizing longer with
  | nil =>
    rw [List.eq_nil_of_length_eq_zero length.symm]
    simp [editLoop]
  | cons shortUnit shorter ih =>
    cases longer with
    | nil => cases length
    | cons longUnit longer =>
      rw [editLoop]
      by_cases same : shortUnit = longUnit
      · rw [if_pos same, ih (Nat.succ.inj length), same, List.cons.injEq]
        simp
      · rw [if_neg same, List.cons.injEq]
        simp [same]

theorem editLoop_same (length : shorter.length = longer.length) :
    editLoop true shorter longer 0 = true ↔ AtMostOneEdit shorter longer := by
  induction shorter generalizing longer with
  | nil =>
    rw [List.eq_nil_of_length_eq_zero length.symm]
    simp [editLoop, AtMostOneEdit.same]
  | cons shortUnit shorter ih =>
    cases longer with
    | nil => cases length
    | cons longUnit longer =>
      have rest := Nat.succ.inj length
      rw [editLoop]
      by_cases same : shortUnit = longUnit
      · rw [if_pos same, ih rest, same, AtMostOneEdit.cons_iff]
      · rw [if_neg same, if_neg (by decide), if_pos rfl, editLoop_one rest,
          AtMostOneEdit.substituted_iff same rest]

theorem editLoop_longer (length : longer.length = shorter.length + 1) :
    editLoop false shorter longer 0 = true ↔ AtMostOneEdit shorter longer := by
  induction shorter generalizing longer with
  | nil =>
    obtain ⟨unit, rfl⟩ := List.length_eq_one_iff.mp length
    have inserted : AtMostOneEdit [] [unit] := .insertion [] [] unit
    simp [editLoop, inserted]
  | cons shortUnit shorter ih =>
    cases longer with
    | nil => cases length
    | cons longUnit longer =>
      have rest := Nat.succ.inj length
      rw [editLoop]
      by_cases same : shortUnit = longUnit
      · rw [if_pos same, ih rest, same, AtMostOneEdit.cons_iff]
      · rw [if_neg same, if_neg (by decide), if_neg Bool.false_ne_true,
          AtMostOneEdit.inserted_iff same rest]
        exact editLoop_one rest.symm

/-- The single pass decides whether the words are at most one edit apart, either way round. -/
theorem isWithinOnePaletteEdit_iff (a b : Text) :
    (isWithinOnePaletteEdit a b = true ↔ AtMostOneEdit a b) ∧
      isWithinOnePaletteEdit a b = isWithinOnePaletteEdit b a := by
  have decides : ∀ a b : Text, isWithinOnePaletteEdit a b = true ↔ AtMostOneEdit a b := by
    intro a b
    unfold isWithinOnePaletteEdit
    split
    · next far =>
      refine ⟨(fun impossible => nomatch impossible), fun edit => ?_⟩
      obtain ⟨left, right⟩ := edit.length_le
      omega
    · next near =>
      obtain ⟨left, right⟩ := not_or.mp near
      split
      · next same =>
        rw [same]
        exact ⟨fun _ => .same b, fun _ => rfl⟩
      · by_cases ordered : a.length ≤ b.length
        · simp only [if_pos ordered]
          by_cases length : a.length = b.length
          · rw [beq_iff_eq.mpr length]
            exact editLoop_same length
          · rw [beq_eq_false_iff_ne.mpr length]
            exact editLoop_longer (by omega)
        · simp only [if_neg ordered]
          have apart : b.length ≠ a.length := by omega
          rw [beq_eq_false_iff_ne.mpr apart, AtMostOneEdit.comm]
          exact editLoop_longer (by omega)
  refine ⟨decides a b, Bool.eq_iff_iff.mpr ?_⟩
  rw [decides a b, decides b a, AtMostOneEdit.comm]

end OxeeUI.Palette
