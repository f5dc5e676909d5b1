import OxeeUI.Csv.BytePages
import OxeeUI.Csv.ParseRecords

/-!
# The rows of pages

A file's bytes and its text are joined from the same records, so the text of a page has
the rows of the page's group, and the pages together have the rows of the file.
-/

namespace OxeeUI.Csv

open OxeeUI.Library OxeeUI.Library.Delimited

/-! ## Encodings -/

def decodeUtf8 (bytes : List UInt8) : Option (List Char) :=
  bytes.toByteArray.utf8Decode?.map Array.toList

theorem decodeUtf8_eq_some {bytes : List UInt8} {characters : List Char} :
    decodeUtf8 bytes = some characters ↔ bytes = characters.flatMap String.utf8EncodeChar := by
  constructor
  · intro decoded
    obtain ⟨decoded', isDecoded, rfl⟩ := Option.map_eq_some_iff.mp decoded
    have present : bytes.toByteArray.utf8Decode?.isSome := by rw [isDecoded]; rfl
    have encoded := ByteArray.utf8Encode_get_utf8Decode? (h := present)
    simp only [isDecoded, Option.get_some] at encoded
    exact (List.toByteArray_inj.mp encoded).symm
  · rintro rfl
    have decoded : characters.utf8Encode.utf8Decode? = some characters.toArray :=
      List.utf8Decode?_utf8Encode
    exact congrArg (Option.map Array.toList) decoded

def unitsOfChar (character : Char) : Text := (utf16Units character).map UInt16.ofNat

def textOf (characters : List Char) : Text := characters.flatMap unitsOfChar

theorem encodes_utf8 : Encodes Char.toNat UInt8.toNat String.utf8EncodeChar := by
  have small (code : ℕ) (less : code < 256) : (UInt8.ofNat code).toNat = code :=
    UInt8.toNat_ofNat_of_lt' less
  constructor
  · intro letter narrow
    refine ⟨UInt8.ofNat letter.toNat, ?_, small _ (by omega)⟩
    rw [String.utf8EncodeChar]
    exact if_pos (Nat.le_of_lt_succ narrow)
  · intro letter wide
    have beyond : ¬letter.val.toNat ≤ 0x7f := Nat.not_le.mpr wide
    rw [String.utf8EncodeChar, if_neg beyond]
    split
    · refine ⟨List.cons_ne_nil _ _, ?_⟩
      simp
      omega
    · split
      · refine ⟨List.cons_ne_nil _ _, ?_⟩
        simp
        omega
      · refine ⟨List.cons_ne_nil _ _, ?_⟩
        simp
        omega

theorem encodes_utf16 : Encodes Char.toNat UInt16.toNat unitsOfChar := by
  have small (code : ℕ) (less : code < 65536) : (UInt16.ofNat code).toNat = code :=
    UInt16.toNat_ofNat_of_lt' less
  constructor
  · intro letter narrow
    refine ⟨UInt16.ofNat letter.toNat, ?_, small _ (by omega)⟩
    rw [unitsOfChar, utf16Units, if_pos (by omega)]
    rfl
  · intro letter wide
    have valid : letter.toNat < 0x110000 := by
      rcases letter.valid with low | ⟨-, high⟩
      · exact Nat.lt_trans low (by decide)
      · exact high
    rw [unitsOfChar, utf16Units]
    by_cases less : letter.toNat < 0x10000
    · rw [if_pos less]
      refine ⟨List.cons_ne_nil _ _, ?_⟩
      simpa [Nat.mod_eq_of_lt less] using wide
    · rw [if_neg less]
      refine ⟨List.cons_ne_nil _ _, ?_⟩
      simp
      omega

theorem encoded_head {first second : Char} {back rest : List UInt8}
    (same : String.utf8EncodeChar first ++ back = String.utf8EncodeChar second ++ rest) :
    first = second := by
  have read (character : Char) (more : List UInt8) :
      (String.utf8EncodeChar character ++ more).toByteArray.utf8DecodeChar? 0 = some character := by
    rw [List.toByteArray_append, ← List.utf8Encode_singleton]
    exact List.utf8DecodeChar?_utf8Encode_singleton_append
  have decoded := congrArg (fun bytes : List UInt8 => bytes.toByteArray.utf8DecodeChar? 0) same
  rw [read, read] at decoded
  exact Option.some.inj decoded

/-! ## Groups -/

def byteOrderChar : Char := Char.ofNat 0xFEFF

def byteRecord : Record Char → Record UInt8 := Record.encoded String.utf8EncodeChar

variable {delimiter : UInt8} {index : CsvIndex}

theorem groups_of_run (ascii : delimiter.toNat < 128) (base : ℕ) (text : List Char)
    (runs : { CsvScan.initial with rowStart := base }.run delimiter base
      (text.flatMap String.utf8EncodeChar) = .ok index) :
    ∃ groups : List (List (Record Char)), joined groups.flatten = text ∧
      Splits Char.toNat delimiter.toNat groups.flatten ∧ (∀ group ∈ groups, group ≠ []) ∧
      index = ⟨pagesOf (textSize byteRecord) 0 base 0 groups, groups.flatten.length,
        largest (rowWidth delimiter byteRecord) groups.flatten⟩ := by
  obtain ⟨records, splits, rfl⟩ := @exists_splits Char Char.toNat delimiter.toNat text
  rw [← joined_encoded] at runs
  have splits' : Splits UInt8.toNat delimiter.toNat (records.map byteRecord) :=
    splits.encoded encodes_utf8 ascii
  have begun : Paged (textSize byteRecord) (rowWidth delimiter byteRecord) base [] []
      { CsvScan.initial with rowStart := base } :=
    ⟨rfl, rfl, rfl, rfl, rfl, fun _ none => absurd none List.not_mem_nil⟩
  obtain ⟨groups, flat, nonempty, isIndex⟩ := run_paged splits' begun rfl rfl runs
  rw [List.flatten_nil, List.append_nil, List.nil_append] at flat isIndex
  subst flat
  exact ⟨groups, rfl, splits, nonempty, isIndex⟩

/-- The start of a file is its byte order mark or nothing, and its records are grouped in pages. -/
theorem file_groups {bytes : List UInt8} {characters : List Char} (ascii : delimiter.toNat < 128)
    (decoded : decodeUtf8 bytes = some characters) (indexed : indexBytes delimiter bytes = .ok index) :
    ∃ (start : List Char) (groups : List (List (Record Char))),
      characters = start ++ joined groups.flatten ∧
      (start = [byteOrderChar] ∨ start = [] ∧ (joined groups.flatten).head? ≠ some byteOrderChar) ∧
      Splits Char.toNat delimiter.toNat groups.flatten ∧ (∀ group ∈ groups, group ≠ []) ∧
      index = ⟨pagesOf (textSize byteRecord) 0 (start.flatMap String.utf8EncodeChar).length 0 groups,
        groups.flatten.length, largest (rowWidth delimiter byteRecord) groups.flatten⟩ := by
  rw [decodeUtf8_eq_some] at decoded
  have markBytes : String.utf8EncodeChar byteOrderChar = [239, 187, 191] := by decide
  rw [indexBytes] at indexed
  by_cases marked : bytes.take 3 = [239, 187, 191]
  · rw [if_pos marked] at indexed
    have split : bytes = String.utf8EncodeChar byteOrderChar ++ bytes.drop 3 := by
      rw [markBytes, ← marked, List.take_append_drop]
    cases characters with
    | nil =>
      rw [decoded] at marked
      cases marked
    | cons first characters =>
      have isMark : first = byteOrderChar := by
        rw [decoded, List.flatMap_cons] at split
        exact encoded_head split
      subst isMark
      have rest : bytes.drop 3 = characters.flatMap String.utf8EncodeChar := by
        rw [decoded, List.flatMap_cons, markBytes]
        rfl
      rw [rest] at indexed
      obtain ⟨groups, rfl, splits, nonempty, isIndex⟩ := groups_of_run ascii 3 characters indexed
      refine ⟨[byteOrderChar], groups, rfl, .inl rfl, splits, nonempty, ?_⟩
      rw [isIndex, List.flatMap_singleton, markBytes]
      rfl
  · rw [if_neg marked] at indexed
    have runs : { CsvScan.initial with rowStart := 0 }.run delimiter 0
        (characters.flatMap String.utf8EncodeChar) = .ok index := decoded ▸ indexed
    obtain ⟨groups, isText, splits, nonempty, isIndex⟩ := groups_of_run ascii 0 characters runs
    refine ⟨[], groups, isText.symm, .inr ⟨rfl, fun isMark => marked ?_⟩, splits, nonempty, isIndex⟩
    rw [isText] at isMark
    cases characters with
    | nil => cases isMark
    | cons first characters =>
      cases isMark
      rw [decoded, List.flatMap_cons, markBytes]
      rfl

/-! ## Texts -/

def textRecord : Record Char → Record UInt16 := Record.encoded unitsOfChar

def textRow (delimiter : UInt8) (record : Record Char) : List Text :=
  CsvParser.rowOf delimiter.toUInt16 (textRecord record)

theorem textOf_append (front back : List Char) : textOf (front ++ back) = textOf front ++ textOf back :=
  List.flatMap_append

theorem length_textRow (ascii : delimiter.toNat < 128) {record : Record Char}
    (scanned : (scan Char.toNat delimiter.toNat .start record.content).isSome) :
    (textRow delimiter record).length = rowWidth delimiter byteRecord record := by
  have same : delimiter.toUInt16.toNat = delimiter.toNat := UInt8.toNat_toUInt16 delimiter
  have units := Record.row_encoded encodes_utf16 ascii scanned
  have bytes := Record.row_encoded encodes_utf8 ascii scanned
  rw [rowWidth, byteRecord, bytes, textRow, CsvParser.rowOf, textRecord, same, units,
    List.length_map, List.length_map]

theorem parse_records (ascii : delimiter.toNat < 128) {start : List Char} {bom : Bool}
    {records : List (Record Char)} (splits : Splits Char.toNat delimiter.toNat records)
    (begun : contentStart (textOf (start ++ joined records)) (.unlimited bom true) =
      (textOf start).length) :
    ∃ parsed, parseCsv (textOf (start ++ joined records)) delimiter.toUInt16 (.unlimited bom true) =
        .ok parsed ∧ parsed.rows = records.map (textRow delimiter) := by
  have same : delimiter.toUInt16.toNat = delimiter.toNat := UInt8.toNat_toUInt16 delimiter
  have splits' : SplitsText delimiter.toUInt16 (records.map textRecord) :=
    Splits.encoded encodes_utf16 (same ▸ ascii) (same ▸ splits)
  have isText : textOf (start ++ joined records) = textOf start ++ joined (records.map textRecord) := by
    rw [textOf_append, textRecord, joined_encoded]
    rfl
  obtain ⟨parsed, isParsed, adds⟩ := parseCsv_joined splits' isText begun
  refine ⟨parsed, isParsed, ?_⟩
  rw [adds.rows, if_pos rfl, List.map_map]
  rfl

/-- What a text begins with, and whether its byte order mark is left out. -/
inductive Opens : List Char → Bool → List Char → Prop where
  | marked (text : List Char) : Opens [byteOrderChar] true text
  | unmarked (text : List Char) (other : text.head? ≠ some byteOrderChar) : Opens [] true text
  | later (text : List Char) : Opens [] false text

theorem Opens.shorter {start text shorter : List Char} {bom : Bool} (opens : Opens start bom text)
    (starts : shorter <+: text) : Opens start bom shorter := by
  cases opens with
  | marked => exact .marked _
  | later => exact .later _
  | unmarked _ other =>
    refine .unmarked _ fun isMark => other ?_
    obtain ⟨rest, rfl⟩ := starts
    rw [List.head?_append, isMark]
    rfl

theorem head_unitsOfChar {character : Char} {rest : Text}
    (head : (unitsOfChar character ++ rest).head? = some byteOrderMark) :
    character = byteOrderChar := by
  rw [unitsOfChar, utf16Units] at head
  by_cases less : character.toNat < 0x10000
  · rw [if_pos less] at head
    have code := congrArg UInt16.toNat (Option.some.inj head)
    rw [UInt16.toNat_ofNat_of_lt' less] at code
    exact Char.toNat_inj.mp code
  · rw [if_neg less] at head
    have code := congrArg UInt16.toNat (Option.some.inj head)
    have valid : character.toNat < 0x110000 := by
      rcases character.valid with low | ⟨-, high⟩
      · exact Nat.lt_trans low (by decide)
      · exact high
    rw [UInt16.toNat_ofNat_of_lt' (show _ < 65536 by omega)] at code
    change 0xD800 + (character.toNat - 0x10000) / 0x400 = 0xFEFF at code
    omega

theorem contentStart_opens {start text : List Char} {bom : Bool} (opens : Opens start bom text) :
    contentStart (textOf (start ++ text)) (.unlimited bom true) = (textOf start).length := by
  cases opens with
  | marked => rfl
  | later => rfl
  | unmarked _ other =>
    have apart : ((textOf text).head? == some byteOrderMark) = false := by
      refine beq_eq_false_iff_ne.mpr fun head => ?_
      cases text with
      | nil => cases head
      | cons character text => exact other (congrArg some (head_unitsOfChar head))
    rw [List.nil_append, contentStart, apart, Bool.and_false]
    rfl

end OxeeUI.Csv
