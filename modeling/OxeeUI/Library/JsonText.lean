import OxeeUI.Library.Utf16
import Mathlib.Data.List.Basic

/-!
# Written JSON

How `JSON.stringify` writes strings and non-negative integers.
-/

namespace OxeeUI.Library

def decimalText (number : ℕ) : Text :=
  (Nat.toDigits 10 number).map fun digit => UInt16.ofNat digit.toNat

theorem unit_injective_of_isDigit {first second : Char} (isFirst : first.isDigit)
    (isSecond : second.isDigit)
    (same : UInt16.ofNat first.toNat = UInt16.ofNat second.toNat) : first = second := by
  have small : ∀ digit : Char, digit.isDigit → digit.toNat < 65536 := by
    intro digit isDigit
    simp only [Char.isDigit, Bool.and_eq_true, decide_eq_true_eq, UInt32.le_iff_toNat_le] at isDigit
    have upper : digit.toNat ≤ 57 := isDigit.2
    omega
  have numbers := congrArg UInt16.toNat same
  rw [UInt16.toNat_ofNat_of_lt' (small first isFirst),
    UInt16.toNat_ofNat_of_lt' (small second isSecond)] at numbers
  exact Char.toNat_inj.mp numbers

theorem map_unit_injective {first second : List Char} (isFirst : ∀ digit ∈ first, digit.isDigit)
    (isSecond : ∀ digit ∈ second, digit.isDigit)
    (same : (first.map fun digit => UInt16.ofNat digit.toNat) =
      second.map fun digit => UInt16.ofNat digit.toNat) : first = second := by
  induction first generalizing second with
  | nil =>
    cases second with
    | nil => rfl
    | cons digit second => cases same
  | cons digit first ih =>
    cases second with
    | nil => cases same
    | cons other second =>
      rw [List.map_cons, List.map_cons, List.cons.injEq] at same
      have head := unit_injective_of_isDigit (isFirst digit List.mem_cons_self)
        (isSecond other List.mem_cons_self) same.1
      have tail := ih (fun digit member => isFirst digit (List.mem_cons_of_mem _ member))
        (fun digit member => isSecond digit (List.mem_cons_of_mem _ member)) same.2
      rw [head, tail]

theorem decimalText_injective {first second : ℕ} (same : decimalText first = decimalText second) :
    first = second := by
  have isDigit : ∀ number, ∀ digit ∈ Nat.toDigits 10 number, digit.isDigit := fun _ _ member =>
    Nat.isDigit_of_mem_toDigits (by decide) (by decide) member
  have digits := map_unit_injective (isDigit first) (isDigit second) same
  have numbers := congrArg (Nat.ofDigitChars 10 · 0) digits
  simpa only [Nat.ofDigitChars_toDigits (by decide : 1 < 10) (le_refl 10)] using numbers

/-- `\uXXXX` -/
def escapedUnit (unit : UInt16) : Text :=
  unitsOf "\\u" ++ (hexPadded 4 unit.toNat).map fun digit => UInt16.ofNat digit.toNat

/-- A code unit outside a surrogate pair, inside quotes. -/
def quotedUnit (unit : UInt16) : Text :=
  if unit = 0x22 then unitsOf "\\\""
  else if unit = 0x5C then unitsOf "\\\\"
  else if unit = 8 then unitsOf "\\b"
  else if unit = 9 then unitsOf "\\t"
  else if unit = 10 then unitsOf "\\n"
  else if unit = 12 then unitsOf "\\f"
  else if unit = 13 then unitsOf "\\r"
  else if unit < 0x20 || isHighSurrogate unit || isLowSurrogate unit then escapedUnit unit
  else [unit]

def quotedUnits : Text → Text
  | [] => []
  | [unit] => quotedUnit unit
  | first :: second :: rest =>
    if isHighSurrogate first && isLowSurrogate second then first :: second :: quotedUnits rest
    else quotedUnit first ++ quotedUnits (second :: rest)

def quotedText (text : Text) : Text := unitsOf "\"" ++ quotedUnits text ++ unitsOf "\""

end OxeeUI.Library

/-!
## Numbers read from text

`Number(text)`, as far as it is a safe integer that is not negative: white space
is trimmed, the empty text is zero, and decimal literals are rounded to doubles.
-/

namespace OxeeUI.Library

/-- `Number.MAX_SAFE_INTEGER + 1` -/
def safeIntegerBound : ℕ := 2 ^ 53

section Definitions

def isDecimalUnit (unit : UInt16) : Bool := 48 ≤ unit.toNat && unit.toNat ≤ 57

def decimalValue (digits : Text) : ℕ :=
  digits.foldl (fun value unit => 10 * value + (unit.toNat - 48)) 0

/-- The value of a digit of any radix up to sixteen. -/
def digitValue? (radix : ℕ) (unit : UInt16) : Option ℕ :=
  let code := unit.toNat
  let value :=
    if 48 ≤ code ∧ code ≤ 57 then code - 48
    else if 65 ≤ code ∧ code ≤ 70 then code - 55
    else if 97 ≤ code ∧ code ≤ 102 then code - 87
    else radix
  if value < radix then some value else none

def radixValue? (radix : ℕ) (digits : Text) : Option ℕ :=
  if digits = [] then none
  else digits.foldlM (fun value unit => (digitValue? radix unit).map (radix * value + ·)) 0

/-- Whether the double nearest to a fraction is this integer: it is within half the gap to
the next double, where a tie goes to the even one. -/
def roundsTo (numerator denominator integer : ℕ) : Bool :=
  if integer = 0 then numerator * 2 ^ 1075 ≤ denominator
  else
    let exponent := Nat.log2 integer
    -- From `2 ^ 52` on an odd integer loses its ties.
    let strict := exponent = 52 ∧ integer % 2 = 1
    if integer * denominator ≤ numerator then
      let gap := (numerator - integer * denominator) * 2 ^ 53
      if strict then gap < denominator * 2 ^ exponent else gap ≤ denominator * 2 ^ exponent
    else
      let gap := (integer * denominator - numerator) *
        2 ^ (if integer = 2 ^ exponent then 54 else 53)
      if strict then gap < denominator * 2 ^ exponent else gap ≤ denominator * 2 ^ exponent

/-- The safe integer that a fraction is rounded to. -/
def roundedSafe? (numerator denominator : ℕ) : Option ℕ :=
  let floor := numerator / denominator
  if roundsTo numerator denominator floor && floor < safeIntegerBound then some floor
  else if roundsTo numerator denominator (floor + 1) && floor + 1 < safeIntegerBound then
    some (floor + 1)
  else none

/-- The digits of an exponent part, and whether it is negative; nothing for no part. -/
def exponent? : Text → Option (Bool × ℕ)
  | [] => some (false, 0)
  | letter :: rest =>
    if letter = 101 ∨ letter = 69 then
      let negative := rest.head? == some 45
      let digits := if rest.head? == some 45 || rest.head? == some 43 then rest.tail else rest
      if digits = [] ∨ ¬digits.all isDecimalUnit then none
      else some (negative, decimalValue digits)
    else none

/-- A decimal literal without its sign, as a fraction. -/
def decimalFraction? (text : Text) : Option (ℕ × ℕ) :=
  let whole := text.takeWhile isDecimalUnit
  let rest := text.dropWhile isDecimalUnit
  let afterPoint := if rest.head? == some 46 then rest.tail else []
  let part := afterPoint.takeWhile isDecimalUnit
  let behind := if rest.head? == some 46 then afterPoint.dropWhile isDecimalUnit else rest
  if whole ++ part = [] then none
  else
    (exponent? behind).map fun exponent =>
      if exponent.1 then (decimalValue (whole ++ part), 10 ^ (part.length + exponent.2))
      else (decimalValue (whole ++ part) * 10 ^ exponent.2, 10 ^ part.length)

def isTrimmedUnit (unit : UInt16) : Bool := isWhiteSpace (Char.ofNat unit.toNat)

def trimText (text : Text) : Text :=
  (((text.dropWhile isTrimmedUnit).reverse).dropWhile isTrimmedUnit).reverse

/-- The radix that `0x`, `0o` or `0b` in front of a literal asks for. -/
def literalRadix (letter : UInt16) : ℕ :=
  if letter = 120 ∨ letter = 88 then 16
  else if letter = 111 ∨ letter = 79 then 8
  else if letter = 98 ∨ letter = 66 then 2
  else 10

/-- `Number(text)`, where that is a safe integer that is not negative. -/
def safeNumber? (text : Text) : Option ℕ :=
  match trimText text with
  | [] => some 0
  | first :: rest =>
    let radix := if first = 48 then (rest.head?.map literalRadix).getD 10 else 10
    if radix ≠ 10 then (radixValue? radix rest.tail).filter (· < safeIntegerBound)
    else if first = 45 then
      -- Only a negative fraction that is rounded to zero is not below zero.
      (decimalFraction? rest).bind fun fraction =>
        (roundedSafe? fraction.1 fraction.2).filter (· = 0)
    else
      (decimalFraction? (if first = 43 then rest else first :: rest)).bind fun fraction =>
        roundedSafe? fraction.1 fraction.2

end Definitions

section Decimal

theorem mem_decimalText {number : ℕ} {unit : UInt16} (member : unit ∈ decimalText number) :
    48 ≤ unit.toNat ∧ unit.toNat ≤ 57 := by
  obtain ⟨digit, inside, rfl⟩ := List.mem_map.mp member
  have isDigit := Nat.isDigit_of_mem_toDigits (by decide) (by decide) inside
  simp only [Char.isDigit, Bool.and_eq_true, decide_eq_true_eq, UInt32.le_iff_toNat_le] at isDigit
  have lower : 48 ≤ digit.toNat := isDigit.1
  have upper : digit.toNat ≤ 57 := isDigit.2
  have unit : (UInt16.ofNat digit.toNat).toNat = digit.toNat := by
    apply UInt16.toNat_ofNat_of_lt'
    change _ < 65536
    omega
  rw [unit]
  exact ⟨lower, upper⟩

theorem decimalText_ne_nil (number : ℕ) : decimalText number ≠ [] := by
  intro none
  have digits : Nat.toDigits 10 number = [] := List.map_eq_nil_iff.mp none
  have length : 0 < (Nat.toDigits 10 number).length := Nat.length_toDigits_pos
  rw [digits] at length
  exact Nat.lt_irrefl 0 length

theorem decimalValue_decimalText (number : ℕ) : decimalValue (decimalText number) = number := by
  have digits := @Nat.ofDigitChars_toDigits 10 number (by decide) (Nat.le_refl 10)
  rw [Nat.ofDigitChars_eq_foldl] at digits
  refine Eq.trans ?_ digits
  unfold decimalValue decimalText
  rw [List.foldl_map]
  apply List.foldl_ext
  intro value digit member
  have isDigit : digit.isDigit := Nat.isDigit_of_mem_toDigits (by decide) (by decide) member
  simp only [Char.isDigit, Bool.and_eq_true, decide_eq_true_eq, UInt32.le_iff_toNat_le] at isDigit
  have upper : digit.toNat ≤ 57 := isDigit.2
  have unit : (UInt16.ofNat digit.toNat).toNat = digit.toNat := by
    apply UInt16.toNat_ofNat_of_lt'
    change _ < 65536
    omega
  rw [unit]
  rfl

theorem roundedSafe?_integer {number : ℕ} (safe : number < safeIntegerBound) :
    roundedSafe? number 1 = some number := by
  have exactly : roundsTo number 1 number = true := by
    unfold roundsTo
    by_cases zero : number = 0
    · rw [if_pos zero, zero, Nat.zero_mul]
      exact decide_eq_true (Nat.zero_le 1)
    · have positive : 0 < 1 * 2 ^ Nat.log2 number := by
        rw [Nat.one_mul]
        exact Nat.two_pow_pos _
      rw [if_neg zero, Nat.mul_one]
      dsimp only
      rw [if_pos (Nat.le_refl number), Nat.sub_self, Nat.zero_mul]
      split
      · exact decide_eq_true positive
      · exact decide_eq_true (Nat.zero_le _)
  unfold roundedSafe?
  dsimp only
  rw [Nat.div_one, exactly, decide_eq_true safe]
  rfl

theorem takeWhile_all {digits : Text} (all : ∀ unit ∈ digits, isDecimalUnit unit = true) :
    digits.takeWhile isDecimalUnit = digits ∧ digits.dropWhile isDecimalUnit = [] := by
  induction digits with
  | nil => exact ⟨rfl, rfl⟩
  | cons unit digits ih =>
    obtain ⟨taken, dropped⟩ := ih fun other member => all other (List.mem_cons_of_mem _ member)
    rw [List.takeWhile_cons_of_pos (all unit List.mem_cons_self),
      List.dropWhile_cons_of_pos (all unit List.mem_cons_self), taken]
    exact ⟨rfl, dropped⟩

theorem trimText_of_digits {digits : Text}
    (all : ∀ unit ∈ digits, 48 ≤ unit.toNat ∧ unit.toNat ≤ 57) : trimText digits = digits := by
  have keeps : ∀ text : Text, (∀ unit ∈ text, 48 ≤ unit.toNat ∧ unit.toNat ≤ 57) →
      text.dropWhile isTrimmedUnit = text := by
    intro text digits
    cases text with
    | nil => rfl
    | cons unit text =>
      have bounds := digits unit List.mem_cons_self
      have codes : ∀ code < 58, 48 ≤ code → isWhiteSpace (Char.ofNat code) = false := by
        decide
      have plain : isTrimmedUnit unit = false :=
        codes unit.toNat (Nat.lt_succ_of_le bounds.2) bounds.1
      rw [List.dropWhile_cons, plain]
      rfl
  unfold trimText
  rw [keeps digits all, keeps digits.reverse fun unit member => all unit (List.mem_reverse.mp member),
    List.reverse_reverse]

theorem literalRadix_of_digit {unit : UInt16} (digit : unit.toNat ≤ 57) : literalRadix unit = 10 := by
  have noLetter : ∀ letter : UInt16, 57 < letter.toNat → unit ≠ letter := by
    rintro letter large rfl
    exact absurd digit (Nat.not_le.mpr large)
  unfold literalRadix
  rw [if_neg (not_or.mpr ⟨noLetter _ (by decide), noLetter _ (by decide)⟩),
    if_neg (not_or.mpr ⟨noLetter _ (by decide), noLetter _ (by decide)⟩),
    if_neg (not_or.mpr ⟨noLetter _ (by decide), noLetter _ (by decide)⟩)]

/-- The decimal digits of a safe integer are read as it. -/
theorem safeNumber?_decimalText {number : ℕ} (safe : number < safeIntegerBound) :
    safeNumber? (decimalText number) = some number := by
  have digits := fun unit (member : unit ∈ decimalText number) => mem_decimalText member
  have trimmed := trimText_of_digits digits
  have decimal : ∀ unit ∈ decimalText number, isDecimalUnit unit = true := by
    intro unit member
    unfold isDecimalUnit
    rw [Bool.and_eq_true, decide_eq_true_eq, decide_eq_true_eq]
    exact digits unit member
  have fraction : decimalFraction? (decimalText number) = some (number, 1) := by
    obtain ⟨taken, dropped⟩ := takeWhile_all decimal
    unfold decimalFraction?
    dsimp only
    rw [taken, dropped]
    have noPoint : ((none : Option UInt16) == some 46) = false := rfl
    have value := decimalValue_decimalText number
    simp only [List.head?_nil, noPoint, Bool.false_eq_true, if_false, List.takeWhile_nil,
      List.append_nil, decimalText_ne_nil number, exponent?, Option.map_some, value, Nat.pow_zero,
      Nat.mul_one, List.length_nil]
  unfold safeNumber?
  rw [trimmed]
  obtain ⟨first, rest, shape⟩ := List.exists_cons_of_ne_nil (decimalText_ne_nil number)
  have firstDigit := digits first (shape ▸ List.mem_cons_self)
  have notMinus : first ≠ 45 := by
    rintro rfl
    exact absurd firstDigit.1 (by decide)
  have notPlus : first ≠ 43 := by
    rintro rfl
    exact absurd firstDigit.1 (by decide)
  have ten : (if first = 48 then (rest.head?.map literalRadix).getD 10 else 10) = 10 := by
    split
    · cases rest with
      | nil => rfl
      | cons second more =>
        have bounds := digits second (shape ▸ List.mem_cons_of_mem _ List.mem_cons_self)
        exact literalRadix_of_digit bounds.2
    · rfl
  rw [shape] at fraction ⊢
  dsimp only
  rw [ten, if_neg (not_not_intro rfl), if_neg notMinus, if_neg notPlus, fraction]
  exact roundedSafe?_integer safe

end Decimal

end OxeeUI.Library
