import OxeeUI.Journal.ItemKeyText

/-!
# Digests of components

A digest is short, well-formed and of the digest form, so it is its own digest and
a component that keeps its value can be told from it.
-/

namespace OxeeUI.Journal.KeyText

open OxeeUI.Library

section Whole

theorem hasLoneSurrogate_append {front : Text} (whole : hasLoneSurrogate front = false)
    (back : Text) : hasLoneSurrogate (front ++ back) = hasLoneSurrogate back := by
  fun_induction hasLoneSurrogate front with
  | case1 => rfl
  | case2 unit => exact (characters_cons_of_scalar whole back).2
  | case3 first second rest pair ih =>
    rw [List.cons_append, List.cons_append, hasLoneSurrogate, if_pos pair, ih whole]
  | case4 first second rest single ih =>
    rw [Bool.or_eq_false_iff] at whole
    have later := ih whole.2
    rw [List.cons_append] at later
    rw [List.cons_append, List.cons_append, hasLoneSurrogate, if_neg single, whole.1, later]
    rfl

theorem hasLoneSurrogate_cons {unit : UInt16} (whole : isSurrogate unit = false) (text : Text) :
    hasLoneSurrogate (unit :: text) = hasLoneSurrogate text :=
  (characters_cons_of_scalar whole text).2

theorem whole_of_units {text : Text} (units : ∀ unit ∈ text, isSurrogate unit = false) :
    hasLoneSurrogate text = false := by
  induction text with
  | nil => rfl
  | cons unit text ih =>
    rw [hasLoneSurrogate_cons (units unit List.mem_cons_self)]
    exact ih fun other member => units other (List.mem_cons_of_mem _ member)

theorem whole_cons_head (unit : UInt16) (text : Text) (whole : hasLoneSurrogate text = false) :
    hasLoneSurrogate ((if isSurrogate unit then replacementUnit else unit) :: text) = false := by
  split
  · exact (hasLoneSurrogate_cons (by decide) text).trans whole
  · next single => exact (hasLoneSurrogate_cons (Bool.eq_false_iff.mpr single) text).trans whole

theorem wellFormedBoundedHead_facts (value : Text) (maxUnits : ℕ) :
    (wellFormedBoundedHead value maxUnits).length ≤ maxUnits ∧
      hasLoneSurrogate (wellFormedBoundedHead value maxUnits) = false := by
  fun_induction wellFormedBoundedHead value maxUnits with
  | case1 => exact ⟨Nat.zero_le _, rfl⟩
  | case2 => exact ⟨Nat.le_refl _, rfl⟩
  | case3 maxUnits unit positive surrogate => exact ⟨Nat.pos_of_ne_zero positive, rfl⟩
  | case4 maxUnits unit positive single =>
    exact ⟨Nat.pos_of_ne_zero positive, Bool.eq_false_iff.mpr single⟩
  | case5 first second rest pair => exact ⟨Nat.zero_le _, rfl⟩
  | case6 first second rest pair maxUnits ih =>
    refine ⟨Nat.succ_le_succ (Nat.succ_le_succ ih.1), ?_⟩
    rw [hasLoneSurrogate, if_pos pair]
    exact ih.2
  | case7 first second rest maxUnits single ih =>
    exact ⟨Nat.succ_le_succ ih.1, whole_cons_head _ _ ih.2⟩

end Whole

section Parts

theorem decimalText_length {number : ℕ} (bound : number < 2 ^ 53) :
    (decimalText number).length ≤ 16 := by
  unfold decimalText
  rw [List.length_map]
  apply (Nat.length_toDigits_le_iff (by decide) (by decide)).mpr
  exact Nat.lt_trans bound (by decide)

theorem toDigits_head {number : ℕ} (positive : 0 < number) :
    ∃ digit rest, Nat.toDigits 10 number = digit :: rest ∧ digit.toNat ≠ 48 := by
  induction number using Nat.strongRecOn with
  | ind number ih =>
    by_cases small : number < 10
    · refine ⟨number.digitChar, [], Nat.toDigits_of_lt_base small, ?_⟩
      have digits : ∀ digit < 10, 0 < digit → digit.digitChar.toNat ≠ 48 := by
        decide
      exact digits number small positive
    · obtain ⟨digit, rest, shape, notZero⟩ := ih (number / 10) (by omega) (by omega)
      refine ⟨digit, rest ++ [(number % 10).digitChar], ?_, notZero⟩
      rw [Nat.toDigits_of_base_le (by decide) (Nat.not_lt.mp small), shape]
      rfl

theorem decimalText_head {number : ℕ} (positive : 0 < number) :
    (decimalText number).head?.any (· ≠ 48) = true := by
  obtain ⟨digit, rest, shape, notZero⟩ := toDigits_head positive
  have member : UInt16.ofNat digit.toNat ∈ decimalText number := by
    unfold decimalText
    rw [shape]
    exact List.mem_cons_self
  have isDigit : digit.isDigit := by
    refine @Nat.isDigit_of_mem_toDigits 10 number digit (by decide) (by decide) ?_
    rw [shape]
    exact List.mem_cons_self
  simp only [Char.isDigit, Bool.and_eq_true, decide_eq_true_eq, UInt32.le_iff_toNat_le] at isDigit
  have upper : digit.toNat ≤ 57 := isDigit.2
  have unit : (UInt16.ofNat digit.toNat).toNat = digit.toNat := by
    apply UInt16.toNat_ofNat_of_lt'
    change _ < 65536
    omega
  have different : UInt16.ofNat digit.toNat ≠ 48 := by
    intro same
    apply notZero
    rw [← unit, same]
    rfl
  unfold decimalText
  rw [shape, List.map_cons, List.head?_cons, Option.any_some]
  exact decide_eq_true different

theorem decimalText_isDecimal {number : ℕ} {unit : UInt16} (member : unit ∈ decimalText number) :
    isDecimalUnit unit = true := by
  obtain ⟨lower, upper⟩ := mem_decimalText member
  unfold isDecimalUnit
  rw [Bool.and_eq_true, decide_eq_true_eq, decide_eq_true_eq]
  exact ⟨lower, upper⟩

theorem hexPadded_length (width value : ℕ) : (hexPadded width value).length = width := by
  induction width generalizing value with
  | zero => rfl
  | succ width ih =>
    rw [hexPadded, List.length_append, ih]
    rfl

theorem mem_hexPadded {width value : ℕ} {digit : Char} (member : digit ∈ hexPadded width value) :
    ∃ value < 16, digit = Nat.digitChar value := by
  induction width generalizing value with
  | zero => cases member
  | succ width ih =>
    rw [hexPadded, List.mem_append, List.mem_singleton] at member
    rcases member with earlier | last
    · exact ih earlier
    · exact ⟨value % 16, Nat.mod_lt _ (by decide), last⟩

theorem hashText_length (hash : ℕ) : (hashText hash).length = 8 := by
  unfold hashText
  rw [List.length_map, hexPadded_length]

theorem hashText_isHex {hash : ℕ} {unit : UInt16} (member : unit ∈ hashText hash) :
    isHexUnit unit = true := by
  obtain ⟨digit, inside, rfl⟩ := List.mem_map.mp member
  obtain ⟨value, small, rfl⟩ := mem_hexPadded inside
  have digits : ∀ value < 16, isHexUnit (UInt16.ofNat (Nat.digitChar value).toNat) = true := by
    decide
  exact digits value small

theorem not_surrogate_of_lt {unit : UInt16} (small : unit.toNat < 128) : isSurrogate unit = false := by
  apply Bool.eq_false_iff.mpr
  rw [Ne, isSurrogate_iff]
  omega

theorem isHexUnit_small {unit : UInt16} (hex : isHexUnit unit = true) : unit.toNat < 128 := by
  unfold isHexUnit isDecimalUnit at hex
  rw [Bool.or_eq_true, Bool.and_eq_true, Bool.and_eq_true] at hex
  simp only [decide_eq_true_eq] at hex
  omega

def digestTail (value : Text) : Text :=
  oversizedMarker ++ (decimalText value.length ++ tilde ::
    (hashText (fnv1a32 value 0x811c9dc5) ++ hashText (fnv1a32 value 0x01000193)))

theorem boundedComponent_eq (value : Text) :
    boundedComponent value = wellFormedBoundedHead value 40 ++ digestTail value := by
  unfold boundedComponent digestTail
  simp only [List.append_assoc, List.cons_append, List.nil_append]

theorem digestTail_small {value : Text} {unit : UInt16} (member : unit ∈ digestTail value) :
    unit.toNat < 128 := by
  have marker : ∀ unit ∈ oversizedMarker, unit.toNat < 128 :=
    forall_mem_of_all (by decide)
  unfold digestTail at member
  simp only [List.mem_append, List.mem_cons] at member
  rcases member with inMarker | inDigits | rfl | inFirst | inSecond
  · exact marker unit inMarker
  · exact Nat.lt_of_le_of_lt (mem_decimalText inDigits).2 (by decide)
  · decide
  · exact isHexUnit_small (hashText_isHex inFirst)
  · exact isHexUnit_small (hashText_isHex inSecond)

theorem digestTail_length {value : Text} (short : value.length < 2 ^ 53) :
    (digestTail value).length ≤ 49 := by
  have digits := decimalText_length short
  have marker : oversizedMarker.length = 16 := by
    decide
  unfold digestTail
  simp only [List.length_append, List.length_cons, marker, hashText_length]
  omega

theorem takeWhile_digits (digits : Text) (rest : Text)
    (all : ∀ unit ∈ digits, isDecimalUnit unit = true) :
    (digits ++ tilde :: rest).takeWhile isDecimalUnit = digits := by
  induction digits with
  | nil => rfl
  | cons unit digits ih =>
    rw [List.cons_append, List.takeWhile_cons_of_pos (all unit List.mem_cons_self),
      ih fun other member => all other (List.mem_cons_of_mem _ member)]

theorem isBoundedComponentTail_digestTail {value : Text} (nonempty : 0 < value.length) :
    isBoundedComponentTail (digestTail value) = true := by
  have marker : oversizedMarker.isPrefixOf (digestTail value) = true := by
    rw [List.isPrefixOf_iff_prefix]
    exact List.prefix_append _ _
  have rest : (digestTail value).drop oversizedMarker.length = decimalText value.length ++ tilde ::
      (hashText (fnv1a32 value 0x811c9dc5) ++ hashText (fnv1a32 value 0x01000193)) := by
    exact List.drop_left
  have hashes : (decimalText value.length ++ tilde :: (hashText (fnv1a32 value 0x811c9dc5) ++
        hashText (fnv1a32 value 0x01000193))).drop ((decimalText value.length).length + 1) =
      hashText (fnv1a32 value 0x811c9dc5) ++ hashText (fnv1a32 value 0x01000193) := by
    rw [List.append_cons]
    apply List.drop_left'
    rw [List.length_append]
    rfl
  have separator : (decimalText value.length ++ tilde :: (hashText (fnv1a32 value 0x811c9dc5) ++
      hashText (fnv1a32 value 0x01000193)))[(decimalText value.length).length]? = some tilde := by
    rw [List.getElem?_append_right (Nat.le_refl _), Nat.sub_self]
    rfl
  unfold isBoundedComponentTail
  dsimp only
  rw [marker, rest, takeWhile_digits _ _ fun unit member => decimalText_isDecimal member, hashes,
    separator, decimalText_head nonempty, List.length_append, hashText_length, hashText_length]
  have allHex : (hashText (fnv1a32 value 0x811c9dc5) ++ hashText (fnv1a32 value 0x01000193)).all
      isHexUnit = true := by
    rw [List.all_eq_true]
    intro unit member
    rcases List.mem_append.mp member with inFirst | inSecond
    · exact hashText_isHex inFirst
    · exact hashText_isHex inSecond
  rw [allHex]
  decide

end Parts

section Bounds

variable {value : Text}

def IsVerbatim (value : Text) : Prop :=
  value.length ≤ maxJournalKeyComponentChars ∧ hasLoneSurrogate value = false

instance (value : Text) : Decidable (IsVerbatim value) :=
  inferInstanceAs (Decidable (_ ∧ _))

theorem bound_of_verbatim (verbatim : IsVerbatim value) : boundJournalKeyComponent value = value :=
  if_pos verbatim

theorem bound_of_not_verbatim (other : ¬IsVerbatim value) :
    boundJournalKeyComponent value = boundedComponent value := if_neg other

theorem boundedComponent_verbatim (short : value.length < 2 ^ 53) :
    IsVerbatim (boundedComponent value) := by
  obtain ⟨length, whole⟩ := wellFormedBoundedHead_facts value 40
  have tail := digestTail_length short
  rw [boundedComponent_eq]
  refine ⟨?_, ?_⟩
  · unfold maxJournalKeyComponentChars
    rw [List.length_append]
    omega
  · rw [hasLoneSurrogate_append whole]
    exact whole_of_units fun unit member => not_surrogate_of_lt (digestTail_small member)

theorem bound_verbatim (short : value.length < 2 ^ 53) :
    IsVerbatim (boundJournalKeyComponent value) := by
  by_cases verbatim : IsVerbatim value
  · rw [bound_of_verbatim verbatim]
    exact verbatim
  · rw [bound_of_not_verbatim verbatim]
    exact boundedComponent_verbatim short

theorem bound_idempotent (short : value.length < 2 ^ 53) :
    boundJournalKeyComponent (boundJournalKeyComponent value) = boundJournalKeyComponent value :=
  bound_of_verbatim (bound_verbatim short)

theorem boundedComponent_isRepresentation (other : ¬IsVerbatim value) :
    isBoundedComponentRepresentation (boundedComponent value) = true := by
  have nonempty : 0 < value.length := by
    apply List.length_pos_iff.mpr
    rintro rfl
    exact other ⟨Nat.zero_le _, rfl⟩
  obtain ⟨length, _⟩ := wellFormedBoundedHead_facts value 40
  unfold isBoundedComponentRepresentation
  rw [List.any_eq_true, boundedComponent_eq]
  refine ⟨(wellFormedBoundedHead value 40).length, List.mem_range.mpr (Nat.lt_succ_of_le length), ?_⟩
  rw [Bool.and_eq_true, List.drop_left, decide_eq_true_eq, List.length_append]
  exact ⟨Nat.le_add_right _ _, isBoundedComponentTail_digestTail nonempty⟩

theorem bound_eq_of_not_representation
    (plain : isBoundedComponentRepresentation (boundJournalKeyComponent value) = false) :
    boundJournalKeyComponent value = value := by
  by_cases verbatim : IsVerbatim value
  · exact bound_of_verbatim verbatim
  · rw [bound_of_not_verbatim verbatim, boundedComponent_isRepresentation verbatim] at plain
    cases plain

theorem verbatim_of_bound_eq (short : value.length < 2 ^ 53)
    (same : boundJournalKeyComponent value = value) : IsVerbatim value := by
  have verbatim := bound_verbatim short
  rw [same] at verbatim
  exact verbatim

end Bounds

end OxeeUI.Journal.KeyText
