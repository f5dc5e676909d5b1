import OxeeUI.Csv.ParseRecords
import Mathlib.Data.List.Forall2

/-!
# Writing a record of delimited values

A field keeps the token it was read from where that still stands for its value, and is
quoted where it must be.  A record that is written reads back as its values.
-/

namespace OxeeUI.Csv

open OxeeUI.Library OxeeUI.Library.Delimited

/-- `/["\r\n]/` -/
def isSpecial (ch : UInt16) : Bool := ch == quote || ch == carriageReturn || ch == lineFeed

/-- `value.replaceAll('"', '""')` -/
def doubleQuotes (value : Text) : Text :=
  value.flatMap fun ch => if ch = quote then [quote, quote] else [ch]

def serializeCsvCell (value : Text) (delimiter : UInt16) (quoted : Bool) : Text :=
  if quoted || value.any isSpecial || value.contains delimiter ||
      value.head? == some byteOrderMark then
    quote :: (doubleQuotes value ++ [quote])
  else value

/-- `token.startsWith('"')` -/
def startsQuoted (token : Text) : Bool := token.head? == some quote

/-- `/^(?:[^"]|"")*"$/`, behind the opening quote. -/
def closesAtEnd : Text → Bool
  | [] => false
  | [ch] => ch == quote
  | ch :: next :: rest =>
    if ch = quote then next == quote && closesAtEnd rest else closesAtEnd (next :: rest)

/-- Whether a token may be written again as it stands. -/
def isValidToken (token : Text) : Bool :=
  if startsQuoted token then closesAtEnd token.tail else !token.any isSpecial

/-- A field alone in its record is quoted where it is empty or holds a usual delimiter. -/
def quotesSingleField (values : List Text) (value : Text) : Bool :=
  values.length == 1 && (value.isEmpty || value.any fun ch => ch == 44 || ch == 59 || ch == 9)

def serializeField (delimiter : UInt16) (single : Bool) (value : Text)
    (original token : Option Text) : Text :=
  if some value == original && token.any isValidToken && !(single && !token.any startsQuoted) then
    token.getD []
  else serializeCsvCell value delimiter (token.any startsQuoted || single)

def serializeCsvRecord (values : List Text) (delimiter : UInt16)
    (originalValues originalTokens : List Text) : Text :=
  List.intercalate [delimiter] (values.mapIdx fun index value =>
    serializeField delimiter (quotesSingleField values value) value originalValues[index]?
      originalTokens[index]?)

/-! ## One field -/

/-- The mode and the value behind a text that ends no field. -/
def readField (delimiter : UInt16) : Mode → Text → Text → Option (Mode × Text)
  | mode, held, [] => some (mode, held)
  | mode, held, ch :: rest =>
    match mark delimiter.toNat mode ch.toNat with
    | (.keep, next) => readField delimiter next (held ++ [ch]) rest
    | (.skip, next) => readField delimiter next held rest
    | _ => none

section Fields

variable {delimiter : UInt16} {mode last : Mode} {held value token : Text}

/-- What stands behind a field is read on from where the field ends. -/
theorem readField_append (read : readField delimiter mode held token = some (last, value))
    (more : Text) :
    fieldsOf delimiter mode held (token ++ more) = fieldsOf delimiter last value more ∧
      scanText delimiter mode (token ++ more) = scanText delimiter last more ∧
      readField delimiter mode held (token ++ more) = readField delimiter last value more := by
  induction token generalizing mode held with
  | nil =>
    cases read
    exact ⟨rfl, rfl, rfl⟩
  | cons ch token ih =>
    cases marked : mark delimiter.toNat mode ch.toNat with
    | mk does next =>
      simp only [readField, marked] at read
      cases does with
      | keep | skip => simpa only [fields, scan, readField, List.cons_append, marked] using ih read
      | field | record => cases read

theorem mark_field {code : ℕ} {next : Mode} (marked : mark delimiter.toNat mode code = (.field, next)) :
    next = .start := by
  unfold mark at marked
  split_ifs at marked <;> cases marked
  rfl

/-- The tokens of a record, with its values, are read one by one. -/
theorem readField_tokens {content written : Text}
    (reads : readField delimiter .start [] written = some (mode, held))
    (scanned : scanText delimiter mode content = some last) :
    List.Forall₂ (fun token value => ∃ mode, readField delimiter .start [] token = some (mode, value))
      (tokensOf delimiter mode written content) (fieldsOf delimiter mode held content) := by
  induction content generalizing mode held written with
  | nil => exact .cons ⟨mode, reads⟩ .nil
  | cons ch content ih =>
    have longer := (readField_append reads [ch]).2.2
    cases marked : mark delimiter.toNat mode ch.toNat with
    | mk does next =>
      simp only [scan, marked] at scanned
      simp only [readField, marked] at longer
      cases does with
      | keep | skip =>
        simp only [tokens, fields, marked]
        exact ih longer scanned
      | field =>
        obtain rfl := mark_field marked
        simp only [tokens, fields, marked]
        exact .cons ⟨mode, reads⟩ (ih rfl scanned)
      | record => cases scanned

end Fields

/-! ## What is written reads back -/

/-- A text that is one field, of a value. -/
def Spells (delimiter : UInt16) (token value : Text) : Prop :=
  ∃ mode, mode ≠ .quoted ∧ readField delimiter .start [] token = some (mode, value)

/-- The delimiter of a text is not one of the other marks. -/
structure Delimits (delimiter : UInt16) : Prop where
  apart : isSpecial delimiter = false
  unmarked : delimiter ≠ byteOrderMark

section Writing

variable {delimiter : UInt16} {mode last : Mode} {held value token : Text}

theorem isSpecial_eq_false {ch : UInt16} (plain : isSpecial ch = false) :
    ch ≠ quote ∧ ¬(ch = carriageReturn ∨ ch = lineFeed) := by
  simpa [isSpecial, or_assoc, not_or, and_assoc] using plain

theorem readField_plain (unquoted : mode ≠ .quoted) (plain : value.any isSpecial = false)
    (whole : value.contains delimiter = false) :
    ∃ next, next ≠ .quoted ∧ readField delimiter mode held value = some (next, held ++ value) := by
  induction value generalizing mode held with
  | nil => exact ⟨mode, unquoted, by rw [List.append_nil]; rfl⟩
  | cons ch value ih =>
    simp only [List.any_cons, Bool.or_eq_false_iff] at plain
    simp only [List.contains_cons, Bool.or_eq_false_iff, beq_eq_false_iff_ne] at whole
    obtain ⟨noQuote, noBreak⟩ := isSpecial_eq_false plain.1
    have marked := CsvParser.mark_other unquoted (Ne.symm whole.1) (fun same => absurd same noQuote)
      noBreak
    obtain ⟨next, stays, read⟩ := @ih .bare (held ++ [ch]) (by decide) plain.2 whole.2
    refine ⟨next, stays, ?_⟩
    simpa [readField, marked] using read

theorem readField_quoted :
    readField delimiter .quoted held (doubleQuotes value ++ [quote]) =
      some (.closing, held ++ value) := by
  induction value generalizing held with
  | nil => simp [doubleQuotes, readField, CsvParser.mark_quote]
  | cons ch value ih =>
    have onward := @ih (held ++ [ch])
    rw [List.append_assoc, List.singleton_append] at onward
    by_cases isQuote : ch = quote
    · subst isQuote
      have closed : mark delimiter.toNat .closing quote.toNat = (.keep, .quoted) := rfl
      simp only [doubleQuotes, List.flatMap_cons, if_pos, List.cons_append, List.nil_append,
        readField, CsvParser.mark_quote, closed]
      exact onward
    · simp only [doubleQuotes, List.flatMap_cons, if_neg isQuote, List.cons_append, List.nil_append,
        readField, CsvParser.mark_quoted isQuote]
      exact onward

theorem spells_serializeCsvCell (quoted : Bool) :
    Spells delimiter (serializeCsvCell value delimiter quoted) value := by
  unfold serializeCsvCell
  split
  · refine ⟨.closing, by decide, ?_⟩
    simpa [readField, CsvParser.mark_opening] using @readField_quoted delimiter [] value
  · next bare =>
    simp only [Bool.or_eq_true, not_or, Bool.not_eq_true] at bare
    exact @readField_plain delimiter .start [] value (by decide) bare.1.1.2 bare.1.2

/-- A quoted token that ends with its closing quote is closed. -/
theorem closes_of_closesAtEnd (closes : closesAtEnd token = true)
    (read : readField delimiter .quoted held token = some (mode, value)) : mode = .closing := by
  induction token using closesAtEnd.induct generalizing held with
  | case1 => cases closes
  | case2 ch =>
    have isQuote : ch = quote := by simpa [closesAtEnd] using closes
    simp only [readField, CsvParser.mark_quote isQuote] at read
    cases read
    rfl
  | case3 next rest ih =>
    simp only [closesAtEnd, if_pos, Bool.and_eq_true, beq_iff_eq] at closes
    obtain ⟨rfl, closes⟩ := closes
    have closed : mark delimiter.toNat .closing quote.toNat = (.keep, .quoted) := rfl
    simp only [readField, CsvParser.mark_quote, closed] at read
    exact ih closes read
  | case4 ch next rest other ih =>
    rw [closesAtEnd, if_neg other] at closes
    rw [readField, CsvParser.mark_quoted other] at read
    exact ih closes read

theorem unquoted_of_plain (unquoted : mode ≠ .quoted) (plain : token.any isSpecial = false)
    (read : readField delimiter mode held token = some (last, value)) : last ≠ .quoted := by
  induction token generalizing mode held with
  | nil =>
    cases read
    exact unquoted
  | cons ch token ih =>
    simp only [List.any_cons, Bool.or_eq_false_iff] at plain
    have noQuote : ch.toNat ≠ 34 := fun same =>
      (isSpecial_eq_false plain.1).1 (UInt16.toNat_inj.mp same)
    have stays : (mark delimiter.toNat mode ch.toNat).2 ≠ .quoted := by
      unfold mark
      split_ifs <;> simp_all
    simp only [readField] at read
    split at read
    · next next marked => exact ih (by simpa [marked] using stays) plain.2 read
    · next next marked => exact ih (by simpa [marked] using stays) plain.2 read
    · cases read

/-- A token that may stand still spells the value it was read for. -/
theorem spells_validToken (valid : isValidToken token = true)
    (read : readField delimiter .start [] token = some (mode, value)) :
    Spells delimiter token value := by
  refine ⟨mode, ?_, read⟩
  unfold isValidToken at valid
  split at valid
  · next starts =>
    cases token with
    | nil => cases starts
    | cons ch rest =>
      have isQuote : ch = quote := by simpa [startsQuoted] using starts
      simp only [readField, CsvParser.mark_opening isQuote] at read
      rw [closes_of_closesAtEnd valid read]
      decide
  · exact unquoted_of_plain (by decide) (by simpa using valid) read

theorem spells_serializeField {single : Bool} {original token : Option Text}
    (reads : ∀ written ∈ token, ∀ before ∈ original,
      ∃ mode, readField delimiter .start [] written = some (mode, before)) :
    Spells delimiter (serializeField delimiter single value original token) value := by
  unfold serializeField
  split
  · next kept =>
    simp only [Bool.and_eq_true, beq_iff_eq] at kept
    obtain ⟨⟨rfl, valid⟩, -⟩ := kept
    cases token with
    | none => cases valid
    | some token =>
      obtain ⟨mode, read⟩ := reads token rfl value rfl
      exact spells_validToken valid read
  · exact spells_serializeCsvCell _

theorem fields_intercalate (delimits : Delimits delimiter) {tokens values : List Text}
    (spells : List.Forall₂ (Spells delimiter) tokens values) (nonempty : values ≠ []) :
    fieldsOf delimiter .start [] (List.intercalate [delimiter] tokens) = values ∧
      ∃ mode, mode ≠ .quoted ∧
        scanText delimiter .start (List.intercalate [delimiter] tokens) = some mode := by
  induction spells with
  | nil => exact absurd rfl nonempty
  | @cons token value tokens values first rest ih =>
    obtain ⟨mode, unquoted, read⟩ := first
    cases rest with
    | nil =>
      obtain ⟨isFields, scanned, -⟩ := readField_append read []
      rw [List.append_nil] at isFields scanned
      rw [List.intercalate_singleton, isFields, scanned]
      exact ⟨rfl, mode, unquoted, rfl⟩
    | @cons second _ tokens values spelled rest =>
      obtain ⟨isFields, last, stays, scanned⟩ := ih (List.cons_ne_nil _ _)
      have marked : mark delimiter.toNat mode delimiter.toNat = (.field, .start) :=
        CsvParser.mark_delimiter unquoted rfl fun same =>
          absurd same (isSpecial_eq_false delimits.apart).1
      obtain ⟨isField, onward, -⟩ := readField_append read
        (delimiter :: List.intercalate [delimiter] (second :: tokens))
      rw [List.intercalate_cons_cons, List.append_assoc, List.singleton_append, isField, onward]
      simp only [fields, scan, marked]
      exact ⟨congrArg (value :: ·) isFields, last, stays, scanned⟩

/-- What a record is written as, for values of which some were read from tokens. -/
structure Writes (delimiter : UInt16) (values : List Text) (content : Text) : Prop where
  row : fieldsOf delimiter .start [] content = values
  scanned : ∃ mode, mode ≠ .quoted ∧ scanText delimiter .start content = some mode
  nonempty : content ≠ []

theorem writes_serializeCsvRecord (delimits : Delimits delimiter) {values originals tokens : List Text}
    (nonempty : values ≠ []) (reads : ∀ (index : ℕ) written before, tokens[index]? = some written →
      originals[index]? = some before →
        ∃ mode, readField delimiter .start [] written = some (mode, before)) :
    Writes delimiter values (serializeCsvRecord values delimiter originals tokens) := by
  have spells : List.Forall₂ (Spells delimiter) (values.mapIdx fun index value =>
      serializeField delimiter (quotesSingleField values value) value originals[index]?
        tokens[index]?) values := by
    refine List.forall₂_iff_get.mpr ⟨List.length_mapIdx, fun index inside _ => ?_⟩
    simp only [List.get_eq_getElem, List.getElem_mapIdx]
    exact spells_serializeField fun written isWritten before isBefore =>
      reads index written before isWritten isBefore
  obtain ⟨row, scanned⟩ := fields_intercalate delimits spells nonempty
  refine ⟨row, scanned, fun empty => ?_⟩
  unfold serializeCsvRecord at empty
  rw [empty] at row
  -- An empty record would be one empty field, which is quoted.
  obtain rfl : [[]] = values := row
  simp only [List.mapIdx_cons, List.mapIdx_nil, List.intercalate_singleton] at empty
  unfold serializeField at empty
  split at empty
  · next kept =>
    cases isToken : tokens[0]? with
    | none => simp [isToken] at kept
    | some token =>
      have starts : startsQuoted token = true := by
        simp only [isToken, Bool.and_eq_true] at kept
        simpa [quotesSingleField] using kept.2
      rw [isToken, Option.getD_some] at empty
      rw [empty] at starts
      cases starts
  · simp [serializeCsvCell, quotesSingleField] at empty

/-- A record that is written does not begin with a byte order mark, where no token did. -/
theorem head_serializeCsvRecord (delimits : Delimits delimiter) {values originals tokens : List Text}
    (plain : ∀ written ∈ tokens[0]?, written.head? ≠ some byteOrderMark) :
    (serializeCsvRecord values delimiter originals tokens).head? ≠ some byteOrderMark := by
  have field : ∀ single value, (serializeField delimiter single value originals[0]?
      tokens[0]?).head? ≠ some byteOrderMark := by
    intro single value
    unfold serializeField
    split
    · cases isToken : tokens[0]? with
      | none => simp
      | some token => exact plain token isToken
    · unfold serializeCsvCell
      split
      · simp [quote, byteOrderMark]
      · next bare => simpa using fun same => bare (by simp [same])
  unfold serializeCsvRecord
  cases values with
  | nil => simp [List.intercalate_nil]
  | cons value values =>
    have first := field (quotesSingleField (value :: values) value) value
    rw [List.mapIdx_cons]
    generalize serializeField delimiter _ value originals[0]? tokens[0]? = written at first
    cases rest : List.mapIdx _ values with
    | nil => simpa [List.intercalate_singleton] using first
    | cons second others =>
      rw [List.intercalate_cons_cons, List.append_assoc]
      cases written with
      | nil => simpa using delimits.unmarked
      | cons ch written => simpa using first

end Writing

end OxeeUI.Csv
