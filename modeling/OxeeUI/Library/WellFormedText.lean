import OxeeUI.Library.Utf16

/-!
# Texts and their characters

A text with every lone surrogate replaced is a list of characters.  Where a text
has none, its characters give it back, and their UTF-8 lengths add up.
-/

namespace OxeeUI.Library

/-- `U+FFFD`, for a lone surrogate. -/
def replacementCharacter : Char := Char.ofNat 0xFFFD

def isSurrogate (unit : UInt16) : Bool := isHighSurrogate unit || isLowSurrogate unit

def unitCharacter (unit : UInt16) : Char :=
  if isSurrogate unit then replacementCharacter else Char.ofNat unit.toNat

def pairCharacter (high low : UInt16) : Char :=
  Char.ofNat (0x10000 + (high.toNat - 0xD800) * 0x400 + (low.toNat - 0xDC00))

/-- The characters of a text, each lone surrogate replaced. -/
def characters : Text → List Char
  | [] => []
  | [unit] => [unitCharacter unit]
  | first :: second :: rest =>
    if isHighSurrogate first && isLowSurrogate second then
      pairCharacter first second :: characters rest
    else unitCharacter first :: characters (second :: rest)

def hasLoneSurrogate : Text → Bool
  | [] => false
  | [unit] => isSurrogate unit
  | first :: second :: rest =>
    if isHighSurrogate first && isLowSurrogate second then hasLoneSurrogate rest
    else isSurrogate first || hasLoneSurrogate (second :: rest)

def textOf (chars : List Char) : Text := (charCodes chars).map UInt16.ofNat

def textBytes (text : Text) : ℕ := utf8Length (characters text)

section Characters

theorem isHighSurrogate_iff {unit : UInt16} :
    isHighSurrogate unit = true ↔ 0xD800 ≤ unit.toNat ∧ unit.toNat ≤ 0xDBFF := by
  unfold isHighSurrogate
  rw [Bool.and_eq_true, decide_eq_true_eq, decide_eq_true_eq, UInt16.le_iff_toNat_le,
    UInt16.le_iff_toNat_le]
  rfl

theorem isLowSurrogate_iff {unit : UInt16} :
    isLowSurrogate unit = true ↔ 0xDC00 ≤ unit.toNat ∧ unit.toNat ≤ 0xDFFF := by
  unfold isLowSurrogate
  rw [Bool.and_eq_true, decide_eq_true_eq, decide_eq_true_eq, UInt16.le_iff_toNat_le,
    UInt16.le_iff_toNat_le]
  rfl

theorem isSurrogate_iff {unit : UInt16} :
    isSurrogate unit = true ↔ 0xD800 ≤ unit.toNat ∧ unit.toNat ≤ 0xDFFF := by
  unfold isSurrogate
  rw [Bool.or_eq_true, isHighSurrogate_iff, isLowSurrogate_iff]
  omega

theorem toNat_ofNat_of_scalar {code : ℕ} (scalar : code < 0xD800 ∨ 0xDFFF < code ∧ code < 0x110000) :
    (Char.ofNat code).toNat = code := by
  have valid : code.isValidChar := by
    rcases scalar with low | ⟨high, bound⟩
    · exact Or.inl low
    · exact Or.inr ⟨high, bound⟩
  unfold Char.ofNat
  rw [dif_pos valid]
  rfl

theorem toNat_unitCharacter {unit : UInt16} (whole : isSurrogate unit = false) :
    (unitCharacter unit).toNat = unit.toNat := by
  unfold unitCharacter
  rw [if_neg (Bool.eq_false_iff.mp whole)]
  apply toNat_ofNat_of_scalar
  have notSurrogate := (not_congr isSurrogate_iff).mp (Bool.eq_false_iff.mp whole)
  have bound := unit.toNat_lt
  omega

theorem toNat_pairCharacter {high low : UInt16} (isHigh : isHighSurrogate high = true)
    (isLow : isLowSurrogate low = true) :
    (pairCharacter high low).toNat =
      0x10000 + (high.toNat - 0xD800) * 0x400 + (low.toNat - 0xDC00) := by
  have highs := isHighSurrogate_iff.mp isHigh
  have lows := isLowSurrogate_iff.mp isLow
  unfold pairCharacter
  apply toNat_ofNat_of_scalar
  omega

theorem textOf_cons (char : Char) (chars : List Char) :
    textOf (char :: chars) = (utf16Units char).map UInt16.ofNat ++ textOf chars := by
  unfold textOf charCodes
  rw [List.flatMap_cons, List.map_append]

theorem textOf_append (front back : List Char) :
    textOf (front ++ back) = textOf front ++ textOf back := by
  unfold textOf charCodes
  rw [List.flatMap_append, List.map_append]

theorem textOf_unitCharacter {unit : UInt16} (whole : isSurrogate unit = false) (chars : List Char) :
    textOf (unitCharacter unit :: chars) = unit :: textOf chars := by
  have code := toNat_unitCharacter whole
  have units : utf16Units (unitCharacter unit) = [unit.toNat] := by
    unfold utf16Units
    dsimp only
    rw [code, if_pos unit.toNat_lt]
  rw [textOf_cons, units, List.map_singleton, UInt16.ofNat_toNat]
  rfl

theorem textOf_pairCharacter {high low : UInt16} (isHigh : isHighSurrogate high = true)
    (isLow : isLowSurrogate low = true) (chars : List Char) :
    textOf (pairCharacter high low :: chars) = high :: low :: textOf chars := by
  have code := toNat_pairCharacter isHigh isLow
  have highs := isHighSurrogate_iff.mp isHigh
  have lows := isLowSurrogate_iff.mp isLow
  have units : utf16Units (pairCharacter high low) = [high.toNat, low.toNat] := by
    unfold utf16Units
    dsimp only
    have upper : 0xD800 + (0x10000 + (high.toNat - 0xD800) * 0x400 + (low.toNat - 0xDC00) -
        0x10000) / 0x400 = high.toNat := by
      omega
    have lower : 0xDC00 + (0x10000 + (high.toNat - 0xD800) * 0x400 + (low.toNat - 0xDC00) -
        0x10000) % 0x400 = low.toNat := by
      omega
    rw [code, if_neg (by omega), upper, lower]
  rw [textOf_cons, units, List.map_cons, List.map_singleton, UInt16.ofNat_toNat, UInt16.ofNat_toNat]
  rfl

theorem textOf_characters {text : Text} (whole : hasLoneSurrogate text = false) :
    textOf (characters text) = text := by
  fun_induction characters text with
  | case1 => rfl
  | case2 unit => exact textOf_unitCharacter whole []
  | case3 first second rest pair ih =>
    rw [hasLoneSurrogate, if_pos pair] at whole
    rw [Bool.and_eq_true] at pair
    rw [textOf_pairCharacter pair.1 pair.2, ih whole]
  | case4 first second rest single ih =>
    rw [hasLoneSurrogate, if_neg single, Bool.or_eq_false_iff] at whole
    rw [textOf_unitCharacter whole.1, ih whole.2]

theorem characters_cons_of_scalar {unit : UInt16} (whole : isSurrogate unit = false) (text : Text) :
    characters (unit :: text) = unitCharacter unit :: characters text ∧
      hasLoneSurrogate (unit :: text) = hasLoneSurrogate text := by
  have notHigh : isHighSurrogate unit = false := (Bool.or_eq_false_iff.mp whole).1
  cases text with
  | nil => exact ⟨rfl, whole⟩
  | cons second rest =>
    have single : ¬(isHighSurrogate unit && isLowSurrogate second) = true := by
      rw [notHigh]
      exact Bool.false_ne_true
    rw [characters, if_neg single, hasLoneSurrogate, if_neg single, whole]
    exact ⟨rfl, rfl⟩

theorem characters_textOf_cons (char : Char) (chars : List Char) :
    characters (textOf (char :: chars)) = char :: characters (textOf chars) ∧
      hasLoneSurrogate (textOf (char :: chars)) = hasLoneSurrogate (textOf chars) := by
  have valid := char.valid
  have ofNat : Char.ofNat char.toNat = char := Char.ofNat_toNat char
  rw [textOf_cons]
  unfold utf16Units
  dsimp only
  by_cases single : char.toNat < 0x10000
  · have unitIs : (UInt16.ofNat char.toNat).toNat = char.toNat := UInt16.toNat_ofNat_of_lt' single
    have whole : isSurrogate (UInt16.ofNat char.toNat) = false := by
      apply Bool.eq_false_iff.mpr
      rw [Ne, isSurrogate_iff, unitIs]
      rcases valid with low | ⟨high, _⟩
      · intro within
        exact absurd low (Nat.not_lt.mpr within.1)
      · intro within
        exact absurd high (Nat.not_lt.mpr within.2)
    have unit : unitCharacter (UInt16.ofNat char.toNat) = char := by
      unfold unitCharacter
      rw [if_neg (Bool.eq_false_iff.mp whole), unitIs, ofNat]
    obtain ⟨first, second⟩ := characters_cons_of_scalar whole (textOf chars)
    rw [if_pos single]
    rw [unit] at first
    exact ⟨first, second⟩
  · have bound : char.toNat < 0x110000 := by
      rcases valid with low | ⟨_, bound⟩
      · exact Nat.lt_trans low (by decide)
      · exact bound
    have highIs : (UInt16.ofNat (0xD800 + (char.toNat - 0x10000) / 0x400)).toNat =
        0xD800 + (char.toNat - 0x10000) / 0x400 := UInt16.toNat_ofNat_of_lt' (by
      change _ < 65536
      omega)
    have lowIs : (UInt16.ofNat (0xDC00 + (char.toNat - 0x10000) % 0x400)).toNat =
        0xDC00 + (char.toNat - 0x10000) % 0x400 := UInt16.toNat_ofNat_of_lt' (by
      change _ < 65536
      omega)
    have pair : (isHighSurrogate (UInt16.ofNat (0xD800 + (char.toNat - 0x10000) / 0x400)) &&
        isLowSurrogate (UInt16.ofNat (0xDC00 + (char.toNat - 0x10000) % 0x400))) = true := by
      rw [Bool.and_eq_true, isHighSurrogate_iff, isLowSurrogate_iff, highIs, lowIs]
      omega
    have character : pairCharacter (UInt16.ofNat (0xD800 + (char.toNat - 0x10000) / 0x400))
        (UInt16.ofNat (0xDC00 + (char.toNat - 0x10000) % 0x400)) = char := by
      unfold pairCharacter
      rw [highIs, lowIs]
      refine Eq.trans (congrArg Char.ofNat ?_) ofNat
      omega
    rw [if_neg single, List.map_cons, List.map_singleton, List.cons_append, List.cons_append,
      List.nil_append, characters, if_pos pair, hasLoneSurrogate, if_pos pair, character]
    exact ⟨rfl, rfl⟩

theorem characters_append {front : Text} (whole : hasLoneSurrogate front = false) (back : Text) :
    characters (front ++ back) = characters front ++ characters back := by
  fun_induction characters front with
  | case1 => rfl
  | case2 unit => exact (characters_cons_of_scalar whole back).1
  | case3 first second rest pair ih =>
    rw [hasLoneSurrogate, if_pos pair] at whole
    rw [List.cons_append, List.cons_append, characters, if_pos pair, ih whole, List.cons_append]
  | case4 first second rest single ih =>
    rw [hasLoneSurrogate, if_neg single, Bool.or_eq_false_iff] at whole
    have later := ih whole.2
    rw [List.cons_append] at later
    rw [List.cons_append, List.cons_append, characters, if_neg single, later, List.cons_append]

theorem characters_flatten {texts : List Text}
    (whole : ∀ text ∈ texts, hasLoneSurrogate text = false) :
    characters texts.flatten = texts.flatMap characters := by
  induction texts with
  | nil => rfl
  | cons text texts ih =>
    rw [List.flatten_cons, List.flatMap_cons, characters_append (whole text List.mem_cons_self),
      ih fun other member => whole other (List.mem_cons_of_mem _ member)]

theorem characters_textOf (chars : List Char) :
    characters (textOf chars) = chars ∧ hasLoneSurrogate (textOf chars) = false := by
  induction chars with
  | nil => exact ⟨rfl, rfl⟩
  | cons char chars ih =>
    obtain ⟨first, second⟩ := characters_textOf_cons char chars
    exact ⟨first.trans (congrArg _ ih.1), second.trans ih.2⟩

end Characters

section Bytes

theorem utf8Length_nil : utf8Length [] = 0 := rfl

theorem utf8Length_cons (char : Char) (chars : List Char) :
    utf8Length (char :: chars) = char.utf8Size + utf8Length chars := by
  unfold utf8Length
  rw [List.map_cons, List.sum_cons]

theorem utf8Length_append (front back : List Char) :
    utf8Length (front ++ back) = utf8Length front + utf8Length back := by
  unfold utf8Length
  rw [List.map_append, List.sum_append]

theorem utf8Size_surrogate {unit : UInt16} (surrogate : isSurrogate unit = true) :
    (unitCharacter unit).utf8Size = 3 := by
  unfold unitCharacter
  rw [if_pos surrogate]
  decide

/-- Joining may only make surrogates into a pair, which is no longer than they were. -/
theorem textBytes_append_le (front back : Text) :
    textBytes (front ++ back) ≤ textBytes front + textBytes back := by
  unfold textBytes
  fun_induction characters front with
  | case1 => exact Nat.le_of_eq (Nat.zero_add _).symm
  | case2 unit =>
    cases back with
    | nil => exact Nat.le_refl _
    | cons second rest =>
      rw [List.singleton_append, utf8Length_cons, utf8Length_nil, Nat.add_zero]
      by_cases pair : (isHighSurrogate unit && isLowSurrogate second) = true
      · rw [characters, if_pos pair]
        rw [Bool.and_eq_true] at pair
        have first : isSurrogate unit = true := by
          unfold isSurrogate
          rw [pair.1, Bool.true_or]
        have four : (pairCharacter unit second).utf8Size ≤ 4 := Char.utf8Size_le_four _
        have secondSurrogate : isSurrogate second = true := by
          unfold isSurrogate
          rw [pair.2, Bool.or_true]
        have notHigh : isHighSurrogate second = false := by
          apply Bool.eq_false_iff.mpr
          rw [Ne, isHighSurrogate_iff]
          have low := isLowSurrogate_iff.mp pair.2
          omega
        have tail : characters (second :: rest) = unitCharacter second :: characters rest := by
          cases rest with
          | nil => rfl
          | cons third more =>
            rw [characters, if_neg]
            rw [notHigh]
            exact Bool.false_ne_true
        rw [tail, utf8Length_cons, utf8Length_cons, utf8Size_surrogate first,
          utf8Size_surrogate secondSurrogate]
        omega
      · rw [characters, if_neg pair, utf8Length_cons]
  | case3 first second rest pair ih =>
    rw [List.cons_append, List.cons_append, characters, if_pos pair, utf8Length_cons,
      utf8Length_cons]
    omega
  | case4 first second rest single ih =>
    rw [List.cons_append, List.cons_append, characters, if_neg single, utf8Length_cons,
      utf8Length_cons]
    rw [List.cons_append] at ih
    omega

theorem sum_textBytes (texts : List Text) :
    (texts.map textBytes).sum = utf8Length (texts.flatMap characters) := by
  induction texts with
  | nil => rfl
  | cons text texts ih =>
    rw [List.map_cons, List.sum_cons, List.flatMap_cons, utf8Length_append, ih]
    rfl

theorem textBytes_textOf (chars : List Char) : textBytes (textOf chars) = utf8Length chars := by
  unfold textBytes
  rw [(characters_textOf chars).1]

theorem utf8Length_takeUtf8_le (budget : ℕ) (chars : List Char) :
    utf8Length (takeUtf8 budget chars) ≤ budget := by
  induction chars generalizing budget with
  | nil => exact Nat.zero_le _
  | cons char chars ih =>
    rw [takeUtf8]
    split
    · next fits =>
      have rest := ih (budget - char.utf8Size)
      rw [utf8Length_cons]
      omega
    · exact Nat.zero_le _

theorem takeUtf8_append_of_fits {front : List Char} {budget : ℕ} (fits : utf8Length front ≤ budget)
    (back : List Char) :
    takeUtf8 budget (front ++ back) = front ++ takeUtf8 (budget - utf8Length front) back := by
  induction front generalizing budget with
  | nil => rw [utf8Length_nil, Nat.sub_zero, List.nil_append, List.nil_append]
  | cons char front ih =>
    rw [utf8Length_cons] at fits ⊢
    have within : char.utf8Size ≤ budget := Nat.le_trans (Nat.le_add_right _ _) fits
    rw [List.cons_append, takeUtf8, if_pos within, ih (by omega), Nat.sub_sub, List.cons_append]

theorem takeUtf8_append_of_cut {front : List Char} {budget : ℕ}
    (cut : utf8Length (takeUtf8 budget front) < utf8Length front) (back : List Char) :
    takeUtf8 budget (front ++ back) = takeUtf8 budget front := by
  induction front generalizing budget with
  | nil => exact absurd cut (Nat.lt_irrefl _)
  | cons char front ih =>
    rw [List.cons_append, takeUtf8, takeUtf8]
    split
    · next fits =>
      rw [takeUtf8, if_pos fits, utf8Length_cons, utf8Length_cons] at cut
      rw [ih (by omega)]
    · rfl

end Bytes

section Seams

/-- No pair of surrogates is cut between two texts. -/
def Seam (front back : Text) : Prop :=
  ∀ high ∈ front.getLast?, ∀ low ∈ back.head?, ¬(isHighSurrogate high && isLowSurrogate low) = true

theorem Seam.nil_left (back : Text) : Seam [] back := fun _ member => nomatch member

theorem Seam.nil_right (front : Text) : Seam front [] := fun _ _ _ member => nomatch member

theorem Seam.tail {unit : UInt16} {front back : Text} (seam : Seam (unit :: front) back) :
    Seam front back := by
  cases front with
  | nil => exact .nil_left back
  | cons next front =>
    intro high isLast
    apply seam high
    rwa [List.getLast?_cons_cons]

theorem characters_append_seam {front back : Text} (seam : Seam front back) :
    characters (front ++ back) = characters front ++ characters back := by
  fun_induction characters front with
  | case1 => rfl
  | case2 unit =>
    cases back with
    | nil => rfl
    | cons second rest =>
      rw [List.singleton_append, characters, if_neg (seam unit rfl second rfl)]
      rfl
  | case3 first second rest pair ih =>
    rw [List.cons_append, List.cons_append, characters, if_pos pair, ih seam.tail.tail,
      List.cons_append]
  | case4 first second rest single ih =>
    have later := ih seam.tail
    rw [List.cons_append] at later
    rw [List.cons_append, List.cons_append, characters, if_neg single, later, List.cons_append]

theorem textBytes_append_seam {front back : Text} (seam : Seam front back) :
    textBytes (front ++ back) = textBytes front + textBytes back := by
  unfold textBytes
  rw [characters_append_seam seam, utf8Length_append]

theorem textBytes_pos {text : Text} (nonempty : text ≠ []) : 0 < textBytes text := by
  have some : characters text ≠ [] := by
    fun_cases characters text with
    | case1 => exact absurd rfl nonempty
    | case2 => exact List.cons_ne_nil _ _
    | case3 => exact List.cons_ne_nil _ _
    | case4 => exact List.cons_ne_nil _ _
  obtain ⟨char, chars, isChars⟩ := List.exists_cons_of_ne_nil some
  rw [textBytes, isChars, utf8Length_cons]
  exact Nat.add_pos_left (Char.utf8Size_pos char) _

end Seams

end OxeeUI.Library
