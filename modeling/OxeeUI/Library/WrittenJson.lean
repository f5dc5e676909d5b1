import OxeeUI.Library.JsonText
import OxeeUI.Library.WellFormedText
import Mathlib.Algebra.BigOperators.Group.List.Basic
import Mathlib.Algebra.Order.Ring.Rat

/-!
# Written JSON values

The text `JSON.stringify` gives a value and the UTF-8 bytes it takes.  The bytes of
an array or an object are those of its parts and the punctuation between them.
-/

namespace OxeeUI.Library

/-- A finite number and the text it is written as. -/
structure WrittenNumber where
  value : ℚ
  text : Text
  ascii : ∀ unit ∈ text, unit.toNat < 128

inductive WrittenJson where
  | null
  | boolean (value : Bool)
  | number (value : WrittenNumber)
  | string (value : Text)
  | array (items : List WrittenJson)
  /-- The members that have a value, in order. -/
  | object (members : List (Text × WrittenJson))

namespace WrittenJson

mutual

/-- `JSON.stringify(value)` -/
def text : WrittenJson → Text
  | .null => unitsOf "null"
  | .boolean true => unitsOf "true"
  | .boolean false => unitsOf "false"
  | .number value => value.text
  | .string value => quotedText value
  | .array [] => unitsOf "[]"
  | .array (item :: items) => unitsOf "[" ++ item.text ++ itemsText items ++ unitsOf "]"
  | .object [] => unitsOf "\x7b\x7d"
  | .object ((key, value) :: members) =>
    unitsOf "\x7b" ++ (quotedText key ++ unitsOf ":" ++ value.text) ++ membersText members ++
      unitsOf "\x7d"

def itemsText : List WrittenJson → Text
  | [] => []
  | item :: items => unitsOf "," ++ item.text ++ itemsText items

def membersText : List (Text × WrittenJson) → Text
  | [] => []
  | (key, value) :: members =>
    unitsOf "," ++ (quotedText key ++ unitsOf ":" ++ value.text) ++ membersText members

end

/-- `Buffer.byteLength(JSON.stringify(value), 'utf8')` -/
def bytes (value : WrittenJson) : ℕ := textBytes value.text

/-- The bytes of a member: its key, the colon and its value. -/
def memberBytes (member : Text × WrittenJson) : ℕ :=
  textBytes (quotedText member.1) + 1 + member.2.bytes

/-- The bytes of parts in brackets, with commas between them. -/
def bracketBytes (sizes : List ℕ) : ℕ := 2 + (sizes.sum + (sizes.length - 1))

end WrittenJson

section Whole

theorem hasLoneSurrogate_append {front : Text} (whole : hasLoneSurrogate front = false)
    (back : Text) : hasLoneSurrogate (front ++ back) = hasLoneSurrogate back := by
  fun_induction characters front with
  | case1 => rfl
  | case2 unit => exact (characters_cons_of_scalar whole back).2
  | case3 first second rest pair ih =>
    rw [hasLoneSurrogate, if_pos pair] at whole
    rw [List.cons_append, List.cons_append, hasLoneSurrogate, if_pos pair, ih whole]
  | case4 first second rest single ih =>
    rw [hasLoneSurrogate, if_neg single, Bool.or_eq_false_iff] at whole
    have later := ih whole.2
    rw [List.cons_append] at later
    rw [List.cons_append, List.cons_append, hasLoneSurrogate, if_neg single, whole.1, later,
      Bool.false_or]

theorem whole_append {front back : Text} (frontWhole : hasLoneSurrogate front = false)
    (backWhole : hasLoneSurrogate back = false) : hasLoneSurrogate (front ++ back) = false :=
  (hasLoneSurrogate_append frontWhole back).trans backWhole

theorem textBytes_append {front : Text} (whole : hasLoneSurrogate front = false) (back : Text) :
    textBytes (front ++ back) = textBytes front + textBytes back := by
  unfold textBytes
  rw [characters_append whole, utf8Length_append]

theorem ascii_unit {unit : UInt16} (ascii : unit.toNat < 128) :
    isSurrogate unit = false ∧ (unitCharacter unit).utf8Size = 1 := by
  have whole : isSurrogate unit = false := by
    apply Bool.eq_false_iff.mpr
    rw [Ne, isSurrogate_iff]
    omega
  refine ⟨whole, ?_⟩
  have code := toNat_unitCharacter whole
  rw [Char.utf8Size_eq_one_iff]
  have small : (unitCharacter unit).toNat ≤ 127 := by omega
  exact small

theorem ascii_text {text : Text} (ascii : ∀ unit ∈ text, unit.toNat < 128) :
    hasLoneSurrogate text = false ∧ textBytes text = text.length := by
  induction text with
  | nil => exact ⟨rfl, rfl⟩
  | cons unit text ih =>
    obtain ⟨whole, length⟩ := ih fun other member => ascii other (List.mem_cons_of_mem _ member)
    obtain ⟨scalar, one⟩ := ascii_unit (ascii unit List.mem_cons_self)
    obtain ⟨chars, lone⟩ := characters_cons_of_scalar scalar text
    refine ⟨lone.trans whole, ?_⟩
    unfold textBytes at length ⊢
    rw [chars, utf8Length_cons, one, length, List.length_cons, Nat.add_comm]

end Whole

section Quoted

theorem hexPadded_ascii (width value : ℕ) :
    ∀ digit ∈ hexPadded width value, digit.toNat < 128 := by
  induction width generalizing value with
  | zero =>
    intro digit member
    cases member
  | succ width ih =>
    intro digit member
    rw [hexPadded, List.mem_append, List.mem_singleton] at member
    rcases member with earlier | rfl
    · exact ih (value / 16) digit earlier
    · have small : value % 16 < 16 := Nat.mod_lt value (by decide)
      have digits : ∀ nibble < 16, (Nat.digitChar nibble).toNat < 128 := by decide
      exact digits _ small

theorem escapedUnit_ascii (unit : UInt16) : ∀ written ∈ escapedUnit unit, written.toNat < 128 := by
  intro written member
  unfold escapedUnit at member
  rw [List.mem_append] at member
  rcases member with mark | digit
  · have marks : ∀ unit ∈ unitsOf "\\u", unit.toNat < 128 := forall_mem_of_all (by decide)
    exact marks written mark
  · obtain ⟨char, isDigit, rfl⟩ := List.mem_map.mp digit
    have small := hexPadded_ascii 4 unit.toNat char isDigit
    rw [UInt16.toNat_ofNat_of_lt' (Nat.lt_trans small (by decide))]
    exact small

theorem quotedUnit_whole (unit : UInt16) : hasLoneSurrogate (quotedUnit unit) = false := by
  by_cases surrogate : isSurrogate unit = true
  · have escaped : quotedUnit unit = escapedUnit unit := by
      have bounds := isSurrogate_iff.mp surrogate
      have apart : ∀ other : UInt16, other.toNat < 0xD800 → unit ≠ other := by
        rintro other small rfl
        omega
      unfold quotedUnit
      rw [if_neg (apart _ (by decide)), if_neg (apart _ (by decide)), if_neg (apart _ (by decide)),
        if_neg (apart _ (by decide)), if_neg (apart _ (by decide)), if_neg (apart _ (by decide)),
        if_neg (apart _ (by decide)), if_pos]
      unfold isSurrogate at surrogate
      rw [Bool.or_assoc, surrogate, Bool.or_true]
    rw [escaped]
    exact (ascii_text (escapedUnit_ascii unit)).1
  · unfold quotedUnit
    repeat' split
    all_goals first
      | exact (ascii_text (escapedUnit_ascii unit)).1
      | exact Bool.eq_false_iff.mpr surrogate
      | decide

theorem quotedUnits_whole (text : Text) : hasLoneSurrogate (quotedUnits text) = false := by
  fun_induction quotedUnits text with
  | case1 => rfl
  | case2 unit => exact quotedUnit_whole unit
  | case3 first second rest pair ih => rw [hasLoneSurrogate, if_pos pair, ih]
  | case4 first second rest single ih => exact whole_append (quotedUnit_whole first) ih

theorem quotedText_whole (text : Text) : hasLoneSurrogate (quotedText text) = false := by
  unfold quotedText
  have mark : hasLoneSurrogate (unitsOf "\"") = false := by decide
  exact whole_append (whole_append mark (quotedUnits_whole text)) mark

def isPlainUnit (unit : UInt16) : Bool :=
  0x20 ≤ unit.toNat && unit.toNat < 0x7F && unit ≠ 0x22 && unit ≠ 0x5C

theorem quotedUnit_of_plain {unit : UInt16} (plain : isPlainUnit unit = true) :
    quotedUnit unit = [unit] ∧ isSurrogate unit = false := by
  unfold isPlainUnit at plain
  simp only [Bool.and_eq_true, decide_eq_true_eq] at plain
  obtain ⟨⟨⟨low, high⟩, notQuote⟩, notSlash⟩ := plain
  have apart : ∀ other : UInt16, other.toNat < 0x20 → unit ≠ other := by
    rintro other small rfl
    omega
  have whole : isSurrogate unit = false := (ascii_unit (by omega)).1
  have notControl : ¬unit < 0x20 := by
    rw [UInt16.lt_iff_toNat_lt]
    exact Nat.not_lt.mpr low
  refine ⟨?_, whole⟩
  unfold quotedUnit
  rw [if_neg notQuote, if_neg notSlash, if_neg (apart _ (by decide)),
    if_neg (apart _ (by decide)), if_neg (apart _ (by decide)), if_neg (apart _ (by decide)),
    if_neg (apart _ (by decide)), if_neg]
  unfold isSurrogate at whole
  rw [Bool.or_assoc, whole, Bool.or_false, decide_eq_true_eq]
  exact notControl

theorem quotedUnits_plain {text : Text} (plain : ∀ unit ∈ text, isPlainUnit unit = true) :
    quotedUnits text = text := by
  fun_induction quotedUnits text with
  | case1 => rfl
  | case2 unit => exact (quotedUnit_of_plain (plain unit List.mem_cons_self)).1
  | case3 first second rest pair ih =>
    rw [ih fun unit member => plain unit (List.mem_cons_of_mem _ (List.mem_cons_of_mem _ member))]
  | case4 first second rest single ih =>
    rw [(quotedUnit_of_plain (plain first List.mem_cons_self)).1,
      ih fun unit member => plain unit (List.mem_cons_of_mem _ member), List.singleton_append]

theorem quotedUnits_append_plain (front : Text) {back : Text}
    (plain : ∀ unit ∈ back, isPlainUnit unit = true) :
    quotedUnits (front ++ back) = quotedUnits front ++ back := by
  have written := quotedUnits_plain plain
  fun_induction quotedUnits front with
  | case1 => exact written
  | case2 unit =>
    cases back with
    | nil => exact (List.append_nil _).symm
    | cons next back =>
      have notLow : isLowSurrogate next = false :=
        (Bool.or_eq_false_iff.mp (quotedUnit_of_plain (plain next List.mem_cons_self)).2).2
      rw [List.singleton_append, quotedUnits, if_neg, written]
      rw [notLow, Bool.and_false]
      exact Bool.false_ne_true
  | case3 first second rest pair ih =>
    rw [List.cons_append, List.cons_append, quotedUnits, if_pos pair, ih]
    rfl
  | case4 first second rest single ih =>
    rw [List.cons_append] at ih
    rw [List.cons_append, List.cons_append, quotedUnits, if_neg single, ih, List.append_assoc]

theorem textBytes_quotedText (text : Text) :
    textBytes (quotedText text) = textBytes (quotedUnits text) + 2 := by
  have mark : hasLoneSurrogate (unitsOf "\"") = false := by decide
  have one : textBytes (unitsOf "\"") = 1 := by decide
  unfold quotedText
  rw [List.append_assoc, textBytes_append mark, textBytes_append (quotedUnits_whole text), one]
  omega

theorem textBytes_quotedText_append (front : Text) {back : Text}
    (plain : ∀ unit ∈ back, isPlainUnit unit = true) :
    textBytes (quotedText (front ++ back)) = textBytes (quotedText front) + back.length := by
  have ascii : ∀ unit ∈ back, unit.toNat < 128 := by
    intro unit member
    have bounds := plain unit member
    unfold isPlainUnit at bounds
    simp only [Bool.and_eq_true, decide_eq_true_eq] at bounds
    omega
  rw [textBytes_quotedText, textBytes_quotedText, quotedUnits_append_plain front plain,
    textBytes_append (quotedUnits_whole front), (ascii_text ascii).2]
  omega

end Quoted

namespace WrittenJson

section Bytes

theorem boolean_text_whole (value : Bool) : hasLoneSurrogate (boolean value).text = false := by
  cases value <;> decide

mutual

theorem text_whole : ∀ value : WrittenJson, hasLoneSurrogate value.text = false
  | .null => by decide
  | .boolean value => boolean_text_whole value
  | .number value => (ascii_text value.ascii).1
  | .string value => quotedText_whole value
  | .array [] => by decide
  | .array (item :: items) => by
    rw [text]
    apply whole_append _ (by decide)
    exact whole_append (whole_append (by decide) (text_whole item)) (itemsText_whole items)
  | .object [] => by decide
  | .object ((key, value) :: members) => by
    rw [text]
    apply whole_append _ (by decide)
    apply whole_append _ (membersText_whole members)
    apply whole_append (by decide)
    exact whole_append (whole_append (quotedText_whole key) (by decide)) (text_whole value)

theorem itemsText_whole : ∀ items : List WrittenJson, hasLoneSurrogate (itemsText items) = false
  | [] => rfl
  | item :: items => by
    rw [itemsText]
    exact whole_append (whole_append (by decide) (text_whole item)) (itemsText_whole items)

theorem membersText_whole :
    ∀ members : List (Text × WrittenJson), hasLoneSurrogate (membersText members) = false
  | [] => rfl
  | (key, value) :: members => by
    rw [membersText]
    apply whole_append _ (membersText_whole members)
    apply whole_append (by decide)
    exact whole_append (whole_append (quotedText_whole key) (by decide)) (text_whole value)

end

theorem textBytes_member (member : Text × WrittenJson) :
    textBytes (quotedText member.1 ++ unitsOf ":" ++ member.2.text) = memberBytes member := by
  have colon : hasLoneSurrogate (unitsOf ":") = false := by decide
  have one : textBytes (unitsOf ":") = 1 := by decide
  rw [textBytes_append (whole_append (quotedText_whole member.1) colon),
    textBytes_append (quotedText_whole member.1), one]
  rfl

theorem textBytes_itemsText (items : List WrittenJson) :
    textBytes (itemsText items) = (items.map bytes).sum + items.length := by
  induction items with
  | nil => rfl
  | cons item items ih =>
    have comma : hasLoneSurrogate (unitsOf ",") = false := by decide
    have one : textBytes (unitsOf ",") = 1 := by decide
    rw [itemsText, textBytes_append (whole_append comma (text_whole item)),
      textBytes_append comma, one, ih, List.map_cons, List.sum_cons, List.length_cons]
    unfold bytes
    omega

theorem textBytes_membersText (members : List (Text × WrittenJson)) :
    textBytes (membersText members) = (members.map memberBytes).sum + members.length := by
  induction members with
  | nil => rfl
  | cons member members ih =>
    have comma : hasLoneSurrogate (unitsOf ",") = false := by decide
    have one : textBytes (unitsOf ",") = 1 := by decide
    have whole : hasLoneSurrogate (quotedText member.1 ++ unitsOf ":" ++ member.2.text) = false :=
      whole_append (whole_append (quotedText_whole member.1) (by decide)) (text_whole member.2)
    rw [membersText, textBytes_append (whole_append comma whole), textBytes_append comma, one,
      textBytes_member, ih, List.map_cons, List.sum_cons, List.length_cons]
    omega

@[simp]
theorem bytes_number (value : WrittenNumber) : (number value).bytes = value.text.length :=
  (ascii_text value.ascii).2

@[simp]
theorem bytes_string (value : Text) : (string value).bytes = textBytes (quotedText value) := rfl

theorem bytes_array (items : List WrittenJson) :
    (array items).bytes = bracketBytes (items.map bytes) := by
  cases items with
  | nil => decide
  | cons item items =>
    have opening : hasLoneSurrogate (unitsOf "[") = false := by decide
    have whole : hasLoneSurrogate (unitsOf "[" ++ item.text) = false :=
      whole_append opening (text_whole item)
    have first : textBytes (unitsOf "[") = 1 := by decide
    have last : textBytes (unitsOf "]") = 1 := by decide
    unfold bytes bracketBytes
    rw [text, textBytes_append (whole_append whole (itemsText_whole items)),
      textBytes_append whole, textBytes_append opening, textBytes_itemsText, first, last,
      List.map_cons, List.sum_cons, List.length_cons, List.length_map]
    unfold bytes
    omega

theorem bytes_object (members : List (Text × WrittenJson)) :
    (object members).bytes = bracketBytes (members.map memberBytes) := by
  cases members with
  | nil => decide
  | cons member members =>
    have opening : hasLoneSurrogate (unitsOf "\x7b") = false := by decide
    have memberWhole :
        hasLoneSurrogate (quotedText member.1 ++ unitsOf ":" ++ member.2.text) = false :=
      whole_append (whole_append (quotedText_whole member.1) (by decide)) (text_whole member.2)
    have whole := whole_append opening memberWhole
    have first : textBytes (unitsOf "\x7b") = 1 := by decide
    have last : textBytes (unitsOf "\x7d") = 1 := by decide
    unfold bytes bracketBytes
    rw [text, textBytes_append (whole_append whole (membersText_whole members)),
      textBytes_append whole, textBytes_append opening, textBytes_member, textBytes_membersText,
      first, last, List.map_cons, List.sum_cons, List.length_cons, List.length_map]
    omega

end Bytes

section Numbers

theorem decimalText_ascii (number : ℕ) : ∀ unit ∈ decimalText number, isPlainUnit unit = true := by
  intro unit member
  obtain ⟨digit, isDigit, rfl⟩ := List.mem_map.mp member
  have decimal := Nat.isDigit_of_mem_toDigits (by decide) (by decide) isDigit
  rw [Char.isDigit_iff_toNat] at decimal
  obtain ⟨low, high⟩ := decimal
  have value : (UInt16.ofNat digit.toNat).toNat = digit.toNat :=
    UInt16.toNat_ofNat_of_lt' (Nat.lt_of_le_of_lt high (by decide))
  have apart : ∀ other : UInt16, other.toNat < 48 ∨ 57 < other.toNat →
      UInt16.ofNat digit.toNat ≠ other := by
    rintro other outside rfl
    rw [value] at outside
    have lower : 48 ≤ digit.toNat := low
    have upper : digit.toNat ≤ 57 := high
    omega
  unfold isPlainUnit
  simp only [Bool.and_eq_true, decide_eq_true_eq, value]
  have lower : 48 ≤ digit.toNat := low
  have upper : digit.toNat ≤ 57 := high
  exact ⟨⟨⟨by omega, by omega⟩, apart _ (by decide)⟩, apart _ (by decide)⟩

theorem plain_lt {unit : UInt16} (plain : isPlainUnit unit = true) : unit.toNat < 128 := by
  unfold isPlainUnit at plain
  simp only [Bool.and_eq_true, decide_eq_true_eq] at plain
  omega

def natural (number : ℕ) : WrittenJson :=
  .number ⟨number, decimalText number,
    fun unit member => plain_lt (decimalText_ascii number unit member)⟩

@[simp]
theorem bytes_natural (number : ℕ) : (natural number).bytes = (decimalText number).length :=
  bytes_number _

theorem length_decimalText_mono {small large : ℕ} (smaller : small ≤ large) :
    (decimalText small).length ≤ (decimalText large).length := by
  unfold decimalText
  rw [List.length_map, List.length_map]
  apply (Nat.length_toDigits_le_iff (by decide) Nat.length_toDigits_pos).mpr
  apply Nat.lt_of_le_of_lt smaller
  exact (Nat.length_toDigits_le_iff (by decide) Nat.length_toDigits_pos).mp (Nat.le_refl _)

end Numbers

end WrittenJson

end OxeeUI.Library
