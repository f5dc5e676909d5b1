import Mathlib.Algebra.GroupWithZero.Nat
import Mathlib.Data.Char
import Mathlib.Data.List.Basic

/-!
# UTF-16 lengths and URI components

The modelled language measures strings in UTF-16 code units and escapes URI
components as UTF-8.  Strings here hold whole characters, so a lone surrogate
cannot occur in one.
-/

namespace OxeeUI.Library

theorem forall_mem_of_all {Item : Type*} {test : Item → Prop} [DecidablePred test]
    {items : List Item} (all : (items.all fun item => decide (test item)) = true) :
    ∀ item ∈ items, test item := fun item member =>
  of_decide_eq_true (List.all_eq_true.mp all item member)

def utf16Units (character : Char) : List Nat :=
  let code := character.toNat
  if code < 0x10000 then [code]
  else [0xD800 + (code - 0x10000) / 0x400, 0xDC00 + (code - 0x10000) % 0x400]

/-- `string.length`. -/
def utf16Length (characters : List Char) : Nat :=
  (characters.map fun character => (utf16Units character).length).sum

/-- `value.charCodeAt(0), value.charCodeAt(1), …` -/
def charCodes (characters : List Char) : List Nat :=
  characters.flatMap utf16Units

/-- The longest prefix of whole characters within a number of UTF-16 code units. -/
def takeUtf16 : Nat → List Char → List Char
  | _, [] => []
  | budget, character :: rest =>
    let width := (utf16Units character).length
    if width ≤ budget then character :: takeUtf16 (budget - width) rest else []

/-- The longest prefix of whole characters within a number of UTF-8 bytes. -/
def takeUtf8 : Nat → List Char → List Char
  | _, [] => []
  | budget, character :: rest =>
    if character.utf8Size ≤ budget then
      character :: takeUtf8 (budget - character.utf8Size) rest
    else []

def utf8Length (characters : List Char) : Nat :=
  (characters.map Char.utf8Size).sum

/-- The lower-case hexadecimal digits of a value below `16 ^ width`, with its
leading zeros. -/
def hexPadded : Nat → Nat → List Char
  | 0, _ => []
  | width + 1, value => hexPadded width (value / 16) ++ [Nat.digitChar (value % 16)]

/-- The characters `encodeURIComponent` leaves as they are. -/
def isUriUnreserved (character : Char) : Bool :=
  character.isAlphanum || "-_.!~*'()".toList.contains character

/-- `%XX`, with upper-case digits. -/
def percentByte (byte : UInt8) : List Char :=
  '%' :: (hexPadded 2 byte.toNat).map Char.toUpper

/-- `encodeURIComponent(value)`. -/
def encodeUriComponent (characters : List Char) : List Char :=
  characters.flatMap fun character =>
    if isUriUnreserved character then [character]
    else (String.utf8EncodeChar character).flatMap percentByte

def hexDigit? (character : Char) : Option Nat :=
  if character.isDigit then some (character.toNat - '0'.toNat)
  else if 'a' ≤ character ∧ character ≤ 'f' then some (character.toNat - 'a'.toNat + 10)
  else if 'A' ≤ character ∧ character ≤ 'F' then some (character.toNat - 'A'.toNat + 10)
  else none

/-- Undo the percent escapes; `none` for a `%` without two digits behind it. -/
def percentDecode : List Char → Option (List Nat)
  | [] => some []
  | '%' :: high :: low :: rest => do
    let first ← hexDigit? high
    let second ← hexDigit? low
    let bytes ← percentDecode rest
    return (16 * first + second) :: bytes
  | character :: rest =>
    if character = '%' then none
    else (percentDecode rest).map ((String.utf8EncodeChar character).map UInt8.toNat ++ ·)

def continuation? (byte : Nat) : Option Nat :=
  if 0x80 ≤ byte ∧ byte < 0xC0 then some (byte - 0x80) else none

/-- A code point that is no surrogate, is in range, and needs its whole encoding. -/
def codePoint? (least code : Nat) : Option Char :=
  if least ≤ code ∧ (code < 0xD800 ∨ 0xDFFF < code) ∧ code < 0x110000 then
    some (Char.ofNat code)
  else none

/-- Strict UTF-8 decoding: overlong forms, surrogates and cut sequences fail. -/
def utf8Decode : List Nat → Option (List Char)
  | [] => some []
  | first :: rest =>
    if first < 0x80 then
      (utf8Decode rest).map (Char.ofNat first :: ·)
    else
      match rest with
      | [] => none
      | second :: afterSecond =>
        if 0xC0 ≤ first ∧ first < 0xE0 then do
          let low ← continuation? second
          let character ← codePoint? 0x80 (64 * (first - 0xC0) + low)
          let characters ← utf8Decode afterSecond
          return character :: characters
        else
          match afterSecond with
          | [] => none
          | third :: afterThird =>
            if 0xE0 ≤ first ∧ first < 0xF0 then do
              let middle ← continuation? second
              let low ← continuation? third
              let character ←
                codePoint? 0x800 (4096 * (first - 0xE0) + 64 * middle + low)
              let characters ← utf8Decode afterThird
              return character :: characters
            else
              match afterThird with
              | [] => none
              | fourth :: afterFourth =>
                if 0xF0 ≤ first ∧ first < 0xF8 then do
                  let high ← continuation? second
                  let middle ← continuation? third
                  let low ← continuation? fourth
                  let character ← codePoint? 0x10000
                    (262144 * (first - 0xF0) + 4096 * high + 64 * middle + low)
                  let characters ← utf8Decode afterFourth
                  return character :: characters
                else none

/-- `decodeURIComponent(value)`; `none` where it throws. -/
def decodeUriComponent (characters : List Char) : Option (List Char) :=
  (percentDecode characters).bind utf8Decode

/-- `value.split(delimiter)` for a delimiter of one character. -/
def splitOnChar (delimiter : Char) : List Char → List (List Char)
  | [] => [[]]
  | character :: rest =>
    if character = delimiter then [] :: splitOnChar delimiter rest
    else
      match splitOnChar delimiter rest with
      | [] => [[character]]
      | part :: parts => (character :: part) :: parts

theorem splitOnChar_append_cons {delimiter : Char} {part : List Char}
    (absent : delimiter ∉ part) (rest : List Char) :
    splitOnChar delimiter (part ++ delimiter :: rest) = part :: splitOnChar delimiter rest := by
  induction part with
  | nil => simp [splitOnChar]
  | cons character part ih =>
    have different : character ≠ delimiter := by
      rintro rfl
      exact absent List.mem_cons_self
    have later : delimiter ∉ part := fun member => absent (List.mem_cons_of_mem _ member)
    simp [splitOnChar, different, ih later]

theorem splitOnChar_of_absent {delimiter : Char} {part : List Char} (absent : delimiter ∉ part) :
    splitOnChar delimiter part = [part] := by
  induction part with
  | nil => rfl
  | cons character part ih =>
    rw [List.mem_cons, not_or] at absent
    simp [splitOnChar, Ne.symm absent.1, ih absent.2]

theorem splitOnChar_ne_nil (delimiter : Char) (characters : List Char) :
    splitOnChar delimiter characters ≠ [] := by
  cases characters with
  | nil => simp [splitOnChar]
  | cons character rest =>
    rw [splitOnChar]
    split
    · simp
    · split <;> simp

theorem splitOnChar_append (delimiter : Char) (front back : List Char) :
    splitOnChar delimiter (front ++ delimiter :: back) =
      splitOnChar delimiter front ++ splitOnChar delimiter back := by
  induction front with
  | nil => simp [splitOnChar]
  | cons character front ih =>
    by_cases same : character = delimiter
    · simp [splitOnChar, same, ih]
    · simp only [List.cons_append, splitOnChar, if_neg same, ih]
      cases split_eq : splitOnChar delimiter front with
      | nil => exact absurd split_eq (splitOnChar_ne_nil _ _)
      | cons part parts => rfl

/-- White space and line ends, as `trim` knows them. -/
def isWhiteSpace (character : Char) : Bool :=
  [0x09, 0x0A, 0x0B, 0x0C, 0x0D, 0x20, 0xA0, 0x1680, 0x2028, 0x2029, 0x202F, 0x205F, 0x3000,
    0xFEFF].contains character.toNat ||
    (0x2000 ≤ character.toNat && character.toNat ≤ 0x200A)

/-- `value.trim()`. -/
def trimWhiteSpace (characters : List Char) : List Char :=
  (((characters.dropWhile isWhiteSpace).reverse).dropWhile isWhiteSpace).reverse

/-- `value.startsWith(prefix)`, with what follows the start. -/
def afterStart? : List Char → List Char → Option (List Char)
  | [], rest => some rest
  | _ :: _, [] => none
  | expected :: more, character :: rest =>
    if expected = character then afterStart? more rest else none

end OxeeUI.Library

/-!
## Strings as code units

Strings of the modelled language with every code unit they may hold, lone
surrogates among them.
-/

namespace OxeeUI.Library

abbrev Text := List UInt16

def unitsOf (string : String) : Text := (charCodes string.toList).map UInt16.ofNat

def isHighSurrogate (unit : UInt16) : Bool := 0xD800 ≤ unit && unit ≤ 0xDBFF

def isLowSurrogate (unit : UInt16) : Bool := 0xDC00 ≤ unit && unit ≤ 0xDFFF

def lineFeed : UInt16 := 10
def carriageReturn : UInt16 := 13

/-- `text.split(/\r?\n/)`. -/
def splitLines : Text → List Text
  | [] => [[]]
  | [unit] => if unit = lineFeed then [[], []] else [[unit]]
  | first :: second :: rest =>
    if first = carriageReturn ∧ second = lineFeed then [] :: splitLines rest
    else if first = lineFeed then [] :: splitLines (second :: rest)
    else
      match splitLines (second :: rest) with
      | [] => [[first]]
      | line :: lines => (first :: line) :: lines

end OxeeUI.Library
