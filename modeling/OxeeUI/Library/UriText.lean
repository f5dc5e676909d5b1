import OxeeUI.Library.WellFormedText

/-!
# URI components are recovered from their encoding

The percent escapes of a component decode to its UTF-8 bytes, so no two components
share an encoding, and an encoding holds no character that separates components.
-/

namespace OxeeUI.Library

theorem percentDecode_cons_of_ne {character : Char} (plain : character ≠ '%')
    (rest : List Char) :
    percentDecode (character :: rest) =
      (percentDecode rest).map ((String.utf8EncodeChar character).map UInt8.toNat ++ ·) := by
  rw [percentDecode.eq_def]
  split
  · contradiction
  · simp_all
  case h_3 other tail notEscape same =>
    cases same
    rw [if_neg plain]

theorem hexDigit?_toUpper_digitChar : ∀ digit < 16,
    hexDigit? (Nat.digitChar digit).toUpper = some digit := by
  decide

theorem percentDecode_percentByte (byte : UInt8) (rest : List Char) :
    percentDecode (percentByte byte ++ rest) = (percentDecode rest).map (byte.toNat :: ·) := by
  have bound : byte.toNat < 256 := byte.toNat_lt
  have digits : percentByte byte ++ rest =
      '%' :: (Nat.digitChar (byte.toNat / 16 % 16)).toUpper ::
        (Nat.digitChar (byte.toNat % 16)).toUpper :: rest := by
    simp [percentByte, hexPadded]
  rw [digits, percentDecode, hexDigit?_toUpper_digitChar _ (Nat.mod_lt _ (by decide)),
    hexDigit?_toUpper_digitChar _ (Nat.mod_lt _ (by decide))]
  have value : 16 * (byte.toNat / 16 % 16) + byte.toNat % 16 = byte.toNat := by omega
  simp only [Option.bind_eq_bind, Option.bind_some, value, Option.pure_def]
  cases percentDecode rest <;> rfl

theorem percentDecode_percentBytes (bytes : List UInt8) (rest : List Char) :
    percentDecode (bytes.flatMap percentByte ++ rest) =
      (percentDecode rest).map (bytes.map UInt8.toNat ++ ·) := by
  induction bytes with
  | nil => simp
  | cons byte bytes ih =>
    rw [List.flatMap_cons, List.append_assoc, percentDecode_percentByte, ih]
    cases percentDecode rest <;> rfl

theorem isUriUnreserved_ne_percent {character : Char} (plain : isUriUnreserved character = true) :
    character ≠ '%' := by
  rintro rfl
  revert plain
  decide

theorem percentDecode_encodeUriComponent (characters : List Char) :
    percentDecode (encodeUriComponent characters) =
      some ((characters.flatMap String.utf8EncodeChar).map UInt8.toNat) := by
  induction characters with
  | nil => rfl
  | cons character rest ih =>
    have unfolded : encodeUriComponent (character :: rest) =
        (if isUriUnreserved character then [character]
          else (String.utf8EncodeChar character).flatMap percentByte) ++
        encodeUriComponent rest := rfl
    rw [unfolded, List.flatMap_cons, List.map_append]
    split
    case isTrue plain =>
      rw [List.singleton_append,
        percentDecode_cons_of_ne (isUriUnreserved_ne_percent plain), ih]
      rfl
    case isFalse =>
      rw [percentDecode_percentBytes, ih]
      rfl

theorem utf8Encode_injective {first second : List Char}
    (same : first.flatMap String.utf8EncodeChar = second.flatMap String.utf8EncodeChar) :
    first = second := by
  have encoded : first.utf8Encode = second.utf8Encode := by
    unfold List.utf8Encode
    rw [same]
  have decoded := congrArg ByteArray.utf8Decode? encoded
  rw [List.utf8Decode?_utf8Encode, List.utf8Decode?_utf8Encode] at decoded
  simpa using decoded

theorem encodeUriComponent_injective : Function.Injective encodeUriComponent := by
  intro first second same
  have bytes := congrArg percentDecode same
  rw [percentDecode_encodeUriComponent, percentDecode_encodeUriComponent,
    Option.some.injEq] at bytes
  exact utf8Encode_injective (List.map_injective_iff.mpr (fun _ _ => UInt8.toNat_inj.mp) bytes)

theorem isUriUnreserved_ne_colon {character : Char} (plain : isUriUnreserved character = true) :
    character ≠ ':' := by
  rintro rfl
  revert plain
  decide

theorem digitChar_toUpper_ne_colon : ∀ digit < 16, (Nat.digitChar digit).toUpper ≠ ':' := by
  decide

theorem colon_not_mem_encodeUriComponent (characters : List Char) :
    ':' ∉ encodeUriComponent characters := by
  unfold encodeUriComponent
  rw [List.mem_flatMap]
  rintro ⟨character, _, member⟩
  split at member
  case isTrue plain =>
    exact isUriUnreserved_ne_colon plain (List.mem_singleton.mp member).symm
  case isFalse =>
    obtain ⟨byte, _, digit⟩ := List.mem_flatMap.mp member
    simp only [percentByte, hexPadded, List.nil_append, List.map_append, List.map_cons,
      List.map_nil, List.mem_cons, List.mem_append, List.not_mem_nil, or_false] at digit
    rcases digit with percent | high | low
    · exact absurd percent (by decide)
    · exact digitChar_toUpper_ne_colon _ (Nat.mod_lt _ (by decide)) high.symm
    · exact digitChar_toUpper_ne_colon _ (Nat.mod_lt _ (by decide)) low.symm

end OxeeUI.Library

/-!
## URI components of any text

Percent escapes over code units.  Encoding fails on a lone surrogate; decoding
copies what is not escaped and wants whole UTF-8 sequences of escapes.
-/

namespace OxeeUI.Library

def percentSign : UInt16 := 37
def colon : UInt16 := 58

section Definitions

def utf8Octets (code : ℕ) : List ℕ :=
  if code < 0x80 then [code]
  else if code < 0x800 then [0xC0 + code / 64, 0x80 + code % 64]
  else if code < 0x10000 then [0xE0 + code / 4096, 0x80 + code / 64 % 64, 0x80 + code % 64]
  else
    [0xF0 + code / 262144, 0x80 + code / 4096 % 64, 0x80 + code / 64 % 64, 0x80 + code % 64]

def hexUnit (digit : ℕ) : UInt16 := UInt16.ofNat (if digit < 10 then 48 + digit else 55 + digit)

def percentUnits (octet : ℕ) : Text := [percentSign, hexUnit (octet / 16), hexUnit (octet % 16)]

def encodedCharacter (char : Char) : Text :=
  if isUriUnreserved char then textOf [char]
  else (utf8Octets char.toNat).flatMap percentUnits

def encodedCharacters (chars : List Char) : Text := chars.flatMap encodedCharacter

/-- `encodeURIComponent(text)`; `none` where it throws. -/
def encodeURIComponent (text : Text) : Option Text :=
  if hasLoneSurrogate text then none else some (encodedCharacters (characters text))

def hexValue? (unit : UInt16) : Option ℕ :=
  let code := unit.toNat
  if 48 ≤ code ∧ code ≤ 57 then some (code - 48)
  else if 65 ≤ code ∧ code ≤ 70 then some (code - 55)
  else if 97 ≤ code ∧ code ≤ 102 then some (code - 87)
  else none

/-- A unit that stands for itself, or an escaped byte. -/
inductive UriToken where
  | unit (unit : UInt16)
  | octet (octet : ℕ)

/-- `none` for a `%` without two digits behind it. -/
def uriTokens : Text → Option (List UriToken)
  | [] => some []
  | unit :: rest =>
    if unit = percentSign then
      match rest with
      | high :: low :: rest => do
        let first ← hexValue? high
        let second ← hexValue? low
        let tokens ← uriTokens rest
        return .octet (16 * first + second) :: tokens
      | _ => none
    else (uriTokens rest).map (.unit unit :: ·)

structure PendingSequence where
  missing : ℕ
  code : ℕ
  least : ℕ

/-- Decoding from where a sequence may have begun; overlong forms, surrogates and cut
sequences fail. -/
def tokensText : List UriToken → Option PendingSequence → Option Text
  | [], none => some []
  | [], some _ => none
  | .unit unit :: rest, none => (tokensText rest none).map (unit :: ·)
  | .unit _ :: _, some _ => none
  | .octet octet :: rest, none =>
    if octet < 0x80 then (tokensText rest none).map (UInt16.ofNat octet :: ·)
    else if 0xC0 ≤ octet ∧ octet < 0xE0 then tokensText rest (some ⟨0, octet - 0xC0, 0x80⟩)
    else if 0xE0 ≤ octet ∧ octet < 0xF0 then tokensText rest (some ⟨1, octet - 0xE0, 0x800⟩)
    else if 0xF0 ≤ octet ∧ octet < 0xF8 then tokensText rest (some ⟨2, octet - 0xF0, 0x10000⟩)
    else none
  | .octet octet :: rest, some ⟨missing, code, least⟩ =>
    match continuation? octet with
    | none => none
    | some low =>
      match missing with
      | missing + 1 => tokensText rest (some ⟨missing, 64 * code + low, least⟩)
      | 0 =>
        match codePoint? least (64 * code + low) with
        | none => none
        | some char => (tokensText rest none).map (textOf [char] ++ ·)

/-- `decodeURIComponent(text)`; `none` where it throws. -/
def decodeURIComponent (text : Text) : Option Text :=
  (uriTokens text).bind fun tokens => tokensText tokens none

/-- `text.split(delimiter)` for a delimiter of one unit. -/
def splitOnUnit (delimiter : UInt16) : Text → List Text
  | [] => [[]]
  | unit :: rest =>
    if unit = delimiter then [] :: splitOnUnit delimiter rest
    else
      match splitOnUnit delimiter rest with
      | [] => [[unit]]
      | part :: parts => (unit :: part) :: parts

/-- `parts.join(delimiter)` -/
def joinUnit (delimiter : UInt16) (parts : List Text) : Text := List.intercalate [delimiter] parts

end Definitions

section Octets

theorem continuation?_of_payload {low : ℕ} (payload : low < 64) :
    continuation? (0x80 + low) = some low := by
  unfold continuation?
  rw [if_pos (by omega), Nat.add_sub_cancel_left]

theorem codePoint?_of_char {char : Char} {least : ℕ} (bound : least ≤ char.toNat) :
    codePoint? least char.toNat = some char := by
  have valid : char.toNat < 0xD800 ∨ 0xDFFF < char.toNat ∧ char.toNat < 0x110000 := char.valid
  unfold codePoint?
  rw [if_pos (by omega), Char.ofNat_toNat]

/-- The escaped bytes of a character decode to it. -/
theorem tokensText_octets (char : Char) (rest : List UriToken) :
    tokensText ((utf8Octets char.toNat).map UriToken.octet ++ rest) none =
      (tokensText rest none).map (textOf [char] ++ ·) := by
  have valid : char.toNat < 0xD800 ∨ 0xDFFF < char.toNat ∧ char.toNat < 0x110000 := char.valid
  unfold utf8Octets
  by_cases one : char.toNat < 0x80
  · have text : textOf [char] = [UInt16.ofNat char.toNat] := by
      unfold textOf charCodes utf16Units
      dsimp only
      rw [List.flatMap_singleton, if_pos (by omega)]
      rfl
    rw [if_pos one, text]
    simp only [List.map_cons, List.map_nil, List.cons_append, List.nil_append, tokensText, one,
      if_true]
  · by_cases two : char.toNat < 0x800
    · rw [if_neg one, if_pos two]
      have code : 64 * (0xC0 + char.toNat / 64 - 0xC0) + char.toNat % 64 = char.toNat := by
        omega
      simp only [List.map_cons, List.map_nil, List.cons_append, List.nil_append, tokensText,
        continuation?_of_payload (Nat.mod_lt char.toNat (by decide : 0 < 64)), code,
        codePoint?_of_char (Nat.not_lt.mp one)]
      rw [if_neg (by omega), if_pos (by omega)]
    · by_cases three : char.toNat < 0x10000
      · rw [if_neg one, if_neg two, if_pos three]
        have code : 64 * (64 * (0xE0 + char.toNat / 4096 - 0xE0) + char.toNat / 64 % 64) +
            char.toNat % 64 = char.toNat := by
          omega
        simp only [List.map_cons, List.map_nil, List.cons_append, List.nil_append, tokensText,
          continuation?_of_payload (Nat.mod_lt _ (by decide : 0 < 64)), code,
          codePoint?_of_char (Nat.not_lt.mp two)]
        rw [if_neg (by omega), if_neg (by omega), if_pos (by omega)]
      · rw [if_neg one, if_neg two, if_neg three]
        have code : 64 * (64 * (64 * (0xF0 + char.toNat / 262144 - 0xF0) +
            char.toNat / 4096 % 64) + char.toNat / 64 % 64) + char.toNat % 64 = char.toNat := by
          omega
        simp only [List.map_cons, List.map_nil, List.cons_append, List.nil_append, tokensText,
          continuation?_of_payload (Nat.mod_lt _ (by decide : 0 < 64)), code,
          codePoint?_of_char (Nat.not_lt.mp three)]
        rw [if_neg (by omega), if_neg (by omega), if_neg (by omega), if_pos (by omega)]

theorem utf8Octets_bound (char : Char) : ∀ octet ∈ utf8Octets char.toNat, octet < 0xF5 := by
  have valid : char.toNat < 0xD800 ∨ 0xDFFF < char.toNat ∧ char.toNat < 0x110000 := char.valid
  unfold utf8Octets
  intro octet member
  split at member
  · rw [List.mem_singleton.mp member]
    omega
  · split at member
    · simp only [List.mem_cons, List.not_mem_nil, or_false] at member
      omega
    · split at member
      · simp only [List.mem_cons, List.not_mem_nil, or_false] at member
        omega
      · simp only [List.mem_cons, List.not_mem_nil, or_false] at member
        omega

end Octets

section Escapes

theorem hexUnit_facts : ∀ digit < 16,
    hexValue? (hexUnit digit) = some digit ∧ hexUnit digit ≠ colon := by
  decide

theorem uriTokens_percentUnits {octet : ℕ} (small : octet < 256) (rest : Text) :
    uriTokens (percentUnits octet ++ rest) = (uriTokens rest).map (.octet octet :: ·) := by
  have high := (hexUnit_facts (octet / 16) (by omega)).1
  have low := (hexUnit_facts (octet % 16) (by omega)).1
  have shape : percentUnits octet ++ rest =
      percentSign :: hexUnit (octet / 16) :: hexUnit (octet % 16) :: rest := rfl
  rw [shape, uriTokens, if_pos rfl, high, low]
  have value : 16 * (octet / 16) + octet % 16 = octet := by omega
  simp only [Option.bind_eq_bind, Option.bind_some, Option.pure_def, value]
  cases uriTokens rest <;> rfl

theorem uriTokens_percentOctets {octets : List ℕ} (small : ∀ octet ∈ octets, octet < 256)
    (rest : Text) :
    uriTokens (octets.flatMap percentUnits ++ rest) =
      (uriTokens rest).map (octets.map UriToken.octet ++ ·) := by
  induction octets with
  | nil =>
    rw [List.flatMap_nil, List.nil_append, List.map_nil]
    cases uriTokens rest <;> rfl
  | cons octet octets ih =>
    rw [List.flatMap_cons, List.append_assoc,
      uriTokens_percentUnits (small octet List.mem_cons_self),
      ih fun other member => small other (List.mem_cons_of_mem _ member), Option.map_map]
    rfl

theorem isUriUnreserved_facts {char : Char} (plain : isUriUnreserved char = true) :
    char.toNat < 128 ∧ char.toNat ≠ 37 ∧ char.toNat ≠ 58 := by
  unfold isUriUnreserved at plain
  rw [Bool.or_eq_true] at plain
  rcases plain with letter | mark
  · have cases : char.isAlphanum = true → (48 ≤ char.toNat ∧ char.toNat ≤ 57) ∨
        (65 ≤ char.toNat ∧ char.toNat ≤ 90) ∨ (97 ≤ char.toNat ∧ char.toNat ≤ 122) := by
      intro isAlphanum
      delta Char.isAlphanum Char.isAlpha Char.isUpper Char.isLower Char.isDigit at isAlphanum
      simp only [Bool.or_eq_true, Bool.and_eq_true, decide_eq_true_eq, UInt32.le_iff_toNat_le] at isAlphanum
      have upper : char.val.toNat = char.toNat := rfl
      simp only [upper] at isAlphanum
      rcases isAlphanum with (⟨low, high⟩ | ⟨low, high⟩) | ⟨low, high⟩
      · exact Or.inr (Or.inl ⟨low, high⟩)
      · exact Or.inr (Or.inr ⟨low, high⟩)
      · exact Or.inl ⟨low, high⟩
    have bounds := cases letter
    omega
  · have marks : ∀ other ∈ "-_.!~*'()".toList,
        other.toNat < 128 ∧ other.toNat ≠ 37 ∧ other.toNat ≠ 58 :=
      forall_mem_of_all (by decide)
    exact marks char (List.contains_iff_mem.mp mark)

theorem textOf_ascii {char : Char} (ascii : char.toNat < 128) :
    textOf [char] = [UInt16.ofNat char.toNat] ∧
      (UInt16.ofNat char.toNat).toNat = char.toNat := by
  refine ⟨?_, UInt16.toNat_ofNat_of_lt' ?_⟩
  · unfold textOf charCodes utf16Units
    dsimp only
    rw [List.flatMap_singleton, if_pos (by omega)]
    rfl
  · change _ < 65536
    omega

/-- An encoded character is read as its own token or as the bytes it has. -/
theorem tokens_encodedCharacter (char : Char) (rest : Text) :
    ∃ tokens, uriTokens (encodedCharacter char ++ rest) = (uriTokens rest).map (tokens ++ ·) ∧
      (∀ more, tokensText (tokens ++ more) none =
        (tokensText more none).map (textOf [char] ++ ·)) ∧
      (∀ octet, .octet octet ∈ tokens → octet < 0xF5) := by
  unfold encodedCharacter
  by_cases plain : isUriUnreserved char = true
  · obtain ⟨ascii, notPercent, _⟩ := isUriUnreserved_facts plain
    obtain ⟨text, unit⟩ := textOf_ascii ascii
    have different : UInt16.ofNat char.toNat ≠ percentSign := by
      intro same
      apply notPercent
      rw [← unit, same]
      rfl
    rw [if_pos plain, text]
    refine ⟨[.unit (UInt16.ofNat char.toNat)], ?_, fun more => ?_, fun octet member => ?_⟩
    · rw [List.singleton_append, uriTokens.eq_def]
      dsimp only
      rw [if_neg different]
      rfl
    · rw [List.singleton_append, tokensText]
      rfl
    · cases List.mem_singleton.mp member
  · rw [if_neg plain]
    have bound := utf8Octets_bound char
    refine ⟨(utf8Octets char.toNat).map UriToken.octet, ?_, tokensText_octets char,
      fun octet member => ?_⟩
    · exact uriTokens_percentOctets (fun octet member => Nat.lt_trans (bound octet member) (by decide))
        rest
    · obtain ⟨other, inside, same⟩ := List.mem_map.mp member
      cases same
      exact bound octet inside

theorem tokens_encodedCharacters (chars : List Char) :
    ∃ tokens, uriTokens (encodedCharacters chars) = some tokens ∧
      tokensText tokens none = some (textOf chars) ∧
      (∀ octet, .octet octet ∈ tokens → octet < 0xF5) := by
  induction chars with
  | nil => exact ⟨[], rfl, rfl, fun _ member => (List.not_mem_nil member).elim⟩
  | cons char chars ih =>
    obtain ⟨later, found, decoded, bound⟩ := ih
    obtain ⟨tokens, read, decodes, bounds⟩ :=
      tokens_encodedCharacter char (encodedCharacters chars)
    refine ⟨tokens ++ later, ?_, ?_, fun octet member => ?_⟩
    · have shape : encodedCharacters (char :: chars) =
          encodedCharacter char ++ encodedCharacters chars := rfl
      rw [shape, read, found]
      rfl
    · have joined := textOf_append [char] chars
      rw [List.singleton_append] at joined
      rw [decodes, decoded, joined]
      rfl
    · rcases List.mem_append.mp member with first | rest
      · exact bounds octet first
      · exact bound octet rest

theorem decodeURIComponent_encoded (chars : List Char) :
    decodeURIComponent (encodedCharacters chars) = some (textOf chars) := by
  obtain ⟨tokens, found, decoded, _⟩ := tokens_encodedCharacters chars
  unfold decodeURIComponent
  rw [found]
  exact decoded

theorem encodeURIComponent_of_whole {text : Text} (whole : hasLoneSurrogate text = false) :
    encodeURIComponent text = some (encodedCharacters (characters text)) := by
  unfold encodeURIComponent
  rw [whole]
  rfl

theorem decode_encode {text : Text} (whole : hasLoneSurrogate text = false) :
    decodeURIComponent (encodedCharacters (characters text)) = some text := by
  rw [decodeURIComponent_encoded, textOf_characters whole]

theorem encoded_ne_tagged (chars : List Char) (rest : Text) :
    encodedCharacters chars ≠ percentUnits 0xFF ++ rest := by
  intro same
  obtain ⟨tokens, found, _, bound⟩ := tokens_encodedCharacters chars
  rw [same, uriTokens_percentUnits (by decide)] at found
  obtain ⟨later, _, rfl⟩ := Option.map_eq_some_iff.mp found
  exact absurd (bound 0xFF List.mem_cons_self) (by decide)

theorem colon_not_mem_percentUnits {octet : ℕ} (small : octet < 256) : colon ∉ percentUnits octet := by
  intro member
  simp only [percentUnits, List.mem_cons, List.not_mem_nil, or_false] at member
  rcases member with percent | high | low
  · exact absurd percent (by decide)
  · exact (hexUnit_facts (octet / 16) (by omega)).2 high.symm
  · exact (hexUnit_facts (octet % 16) (by omega)).2 low.symm

theorem colon_not_mem_encoded (chars : List Char) : colon ∉ encodedCharacters chars := by
  intro member
  obtain ⟨char, _, inside⟩ := List.mem_flatMap.mp member
  unfold encodedCharacter at inside
  split at inside
  · next plain =>
    obtain ⟨ascii, _, notColon⟩ := isUriUnreserved_facts plain
    obtain ⟨text, unit⟩ := textOf_ascii ascii
    rw [text] at inside
    apply notColon
    rw [← unit, ← List.mem_singleton.mp inside]
    rfl
  · obtain ⟨octet, bound, digit⟩ := List.mem_flatMap.mp inside
    have small := utf8Octets_bound char octet bound
    exact colon_not_mem_percentUnits (Nat.lt_trans small (by decide)) digit

end Escapes

section Splitting

variable {delimiter : UInt16}

theorem splitOnUnit_of_absent {part : Text} (absent : delimiter ∉ part) :
    splitOnUnit delimiter part = [part] := by
  induction part with
  | nil => rfl
  | cons unit part ih =>
    rw [List.mem_cons, not_or] at absent
    rw [splitOnUnit, if_neg (Ne.symm absent.1), ih absent.2]

theorem splitOnUnit_append_cons {part : Text} (absent : delimiter ∉ part) (rest : Text) :
    splitOnUnit delimiter (part ++ delimiter :: rest) = part :: splitOnUnit delimiter rest := by
  induction part with
  | nil => rw [List.nil_append, splitOnUnit, if_pos rfl]
  | cons unit part ih =>
    rw [List.mem_cons, not_or] at absent
    rw [List.cons_append, splitOnUnit, if_neg (Ne.symm absent.1), ih absent.2]

theorem splitOnUnit_joinUnit {parts : List Text} (nonempty : parts ≠ [])
    (absent : ∀ part ∈ parts, delimiter ∉ part) :
    splitOnUnit delimiter (joinUnit delimiter parts) = parts := by
  induction parts with
  | nil => exact absurd rfl nonempty
  | cons part parts ih =>
    have first := absent part List.mem_cons_self
    cases parts with
    | nil =>
      have shape : joinUnit delimiter [part] = part := List.append_nil part
      rw [shape]
      exact splitOnUnit_of_absent first
    | cons second parts =>
      have shape : joinUnit delimiter (part :: second :: parts) =
          part ++ delimiter :: joinUnit delimiter (second :: parts) := by
        unfold joinUnit
        rw [List.intercalate_cons_cons, List.append_assoc]
        rfl
      rw [shape, splitOnUnit_append_cons first, ih (List.cons_ne_nil _ _)
        fun other member => absent other (List.mem_cons_of_mem _ member)]

end Splitting

end OxeeUI.Library
