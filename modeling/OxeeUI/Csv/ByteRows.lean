import OxeeUI.Csv.Parse

/-!
# Rows from bytes

The bytes of a record move the index through the modes of its fields, and its row is
emitted at its line ending, behind a carriage return only with the next byte or the end.
-/

namespace OxeeUI.Csv.CsvScan

open OxeeUI.Library.Delimited

variable {delimiter byte : UInt8} {mode next : Mode} {scan after : CsvScan} {position columns : ℕ}
  {fieldEmpty hasContent : Bool}

def inMode (scan : CsvScan) (mode : Mode) (columns : ℕ) (fieldEmpty hasContent : Bool) : CsvScan :=
  { scan with
    columns := columns
    fieldEmpty := fieldEmpty
    hasContent := hasContent
    inQuotes := mode = .quoted || mode = .closing
    pendingQuote := mode = .closing
    pendingCR := false }

structure Flags (mode : Mode) (fieldEmpty hasContent : Bool) : Prop where
  start : mode = .start → fieldEmpty = true
  bare : mode = .bare → fieldEmpty = false
  content : mode ≠ .start → hasContent = true

theorem Flags.behind {mode : Mode} {fieldEmpty : Bool} (start : mode = .start → fieldEmpty = true)
    (bare : mode = .bare → fieldEmpty = false) : Flags mode fieldEmpty true :=
  ⟨start, bare, fun _ => rfl⟩

def fieldsBegun : Mark → ℕ
  | .field => 1
  | _ => 0

theorem byte_eq_iff (byte : UInt8) {other : UInt8} : byte = other ↔ byte.toNat = other.toNat :=
  UInt8.toNat_inj.symm

/-- A byte outside of quotes that is no opening quote. -/
def readBare (delimiter : UInt8) (scan : CsvScan) (byte : UInt8) (at' : ℕ) : Except String CsvScan :=
  if byte = delimiter then
    if csvMaxColumns < scan.columns + 1 then .error tooManyColumns
    else .ok { scan with columns := scan.columns + 1, fieldEmpty := true, hasContent := true }
  else if byte = 13 then .ok { scan with pendingCR := true }
  else if byte = 10 then scan.emitRow (at' + 1) at'
  else .ok { scan with fieldEmpty := false, hasContent := true }

theorem read_start :
    (scan.inMode .start columns true hasContent).read delimiter byte position =
      if byte = 34 then .ok (scan.inMode .quoted columns true true)
      else (scan.inMode .start columns true hasContent).readBare delimiter byte position := by
  simp [read, readBare, inMode]

theorem read_bare :
    (scan.inMode .bare columns false hasContent).read delimiter byte position =
      (scan.inMode .start columns false hasContent).readBare delimiter byte position := by
  simp [read, readBare, inMode]

theorem read_quoted :
    (scan.inMode .quoted columns fieldEmpty hasContent).read delimiter byte position =
      .ok (if byte = 34 then scan.inMode .closing columns fieldEmpty hasContent
        else scan.inMode .quoted columns false hasContent) := by
  by_cases quote : byte = 34 <;> simp [read, inMode, quote]

theorem read_closing :
    (scan.inMode .closing columns fieldEmpty hasContent).read delimiter byte position =
      if byte = 34 then .ok (scan.inMode .quoted columns false hasContent)
      else (scan.inMode .start columns fieldEmpty hasContent).readBare delimiter byte position := by
  by_cases quote : byte = 34 <;> simp [read, readBare, inMode, quote]

/-- Outside of quotes a byte delimits, ends the record, or belongs to a bare field. -/
theorem readBare_spec {does : Mark} (unquoted : mode ≠ .quoted)
    (other : byte = 34 → mode = .bare) (marked : mark delimiter.toNat mode byte.toNat = (does, next))
    (noRecord : does ≠ .record)
    (read : (scan.inMode .start columns fieldEmpty hasContent).readBare delimiter byte position =
      .ok after) :
    ∃ empty, after = scan.inMode next (columns + fieldsBegun does) empty true ∧
      Flags next empty true := by
  have plain : ¬(byte.toNat = 34 ∧ mode = .start) ∧ ¬(byte.toNat = 34 ∧ mode = .closing) := by
    constructor
    · rintro ⟨quote, rfl⟩
      exact absurd (other ((byte_eq_iff byte).mpr quote)) (by decide)
    · rintro ⟨quote, rfl⟩
      exact absurd (other ((byte_eq_iff byte).mpr quote)) (by decide)
  rw [mark, if_neg unquoted, if_neg plain.1, if_neg plain.2] at marked
  unfold readBare at read
  by_cases delimits : byte = delimiter
  · rw [if_pos (congrArg UInt8.toNat delimits)] at marked
    cases marked
    rw [if_pos delimits] at read
    split at read
    · cases read
    · cases read
      exact ⟨true, rfl, .behind (fun _ => rfl) (absurd · (by decide))⟩
  · rw [if_neg (mt (byte_eq_iff byte).mpr delimits)] at marked
    rw [if_neg delimits] at read
    split at marked
    · cases marked
      exact absurd rfl noRecord
    · next breaks =>
      cases marked
      obtain ⟨notReturn, notFeed⟩ := not_or.mp breaks
      rw [if_neg fun same => notReturn (congrArg UInt8.toNat same),
        if_neg fun same => notFeed (congrArg UInt8.toNat same)] at read
      cases read
      exact ⟨false, rfl, .behind (absurd · (by decide)) fun _ => rfl⟩

theorem read_spec {does : Mark} (flags : Flags mode fieldEmpty hasContent)
    (marked : mark delimiter.toNat mode byte.toNat = (does, next)) (noRecord : does ≠ .record)
    (read : (scan.inMode mode columns fieldEmpty hasContent).read delimiter byte position = .ok after) :
    ∃ empty, after = scan.inMode next (columns + fieldsBegun does) empty true ∧
      Flags next empty true := by
  obtain ⟨start, bare, content⟩ := flags
  cases mode with
  | start =>
    cases start rfl
    rw [read_start] at read
    by_cases quote : byte = 34
    · rw [if_pos quote] at read
      cases read
      rw [quote] at marked
      cases marked
      exact ⟨true, rfl, .behind (absurd · (by decide)) (absurd · (by decide))⟩
    · rw [if_neg quote] at read
      exact readBare_spec (by decide) (fun same => absurd same quote) marked noRecord read
  | bare =>
    cases bare rfl
    rw [read_bare] at read
    exact readBare_spec (by decide) (fun _ => rfl) marked noRecord read
  | quoted =>
    cases content (by decide)
    rw [read_quoted] at read
    by_cases quote : byte = 34
    · rw [if_pos quote] at read
      cases read
      rw [quote] at marked
      cases marked
      exact ⟨fieldEmpty, rfl, .behind (absurd · (by decide)) (absurd · (by decide))⟩
    · rw [if_neg quote] at read
      cases read
      have notQuote : ¬byte.toNat = 34 := fun same => quote (UInt8.toNat_inj.mp same)
      rw [mark, if_pos rfl, if_neg notQuote] at marked
      cases marked
      exact ⟨false, rfl, .behind (absurd · (by decide)) (absurd · (by decide))⟩
  | closing =>
    cases content (by decide)
    rw [read_closing] at read
    by_cases quote : byte = 34
    · rw [if_pos quote] at read
      cases read
      rw [quote] at marked
      cases marked
      exact ⟨false, rfl, .behind (absurd · (by decide)) (absurd · (by decide))⟩
    · rw [if_neg quote] at read
      exact readBare_spec (by decide) (fun same => absurd same quote) marked noRecord read

/-! ## Records -/

def run (delimiter : UInt8) (scan : CsvScan) (position : ℕ) (bytes : List UInt8) :
    Except String CsvIndex :=
  (scan.consumeFrom delimiter position bytes).bind fun last => last.finish (position + bytes.length)

theorem run_cons {bytes : List UInt8} {index : CsvIndex}
    (runs : scan.run delimiter position (byte :: bytes) = .ok index) :
    ∃ after, scan.consume delimiter byte position = .ok after ∧
      after.run delimiter (position + 1) bytes = .ok index := by
  obtain ⟨last, consumed, finished⟩ := bind_ok runs
  rw [consumeFrom] at consumed
  obtain ⟨after, first, rest⟩ := bind_ok consumed
  refine ⟨after, first, ?_⟩
  rw [run, rest, Nat.add_right_comm, Nat.add_assoc]
  exact finished

theorem consume_spec (settled : scan.pendingCR = false)
    (consumed : scan.consume delimiter byte position = .ok after) :
    scan.read delimiter byte position = .ok after := by
  rw [consume, settled, if_neg Bool.false_ne_true, checked] at consumed
  by_cases far : csvRecordBytes < position + (if (byte == 13 || byte == 10) &&
      (!scan.inQuotes || scan.pendingQuote) then 0 else 1) - scan.rowStart
  · rw [if_pos far] at consumed
    cases consumed
  · rw [if_neg far] at consumed
    split at consumed
    · cases consumed
    · exact consumed

def fieldsFrom (delimiter : UInt8) : Mode → List UInt8 → ℕ
  | _, [] => 0
  | mode, byte :: bytes =>
    let marked := mark delimiter.toNat mode byte.toNat
    fieldsBegun marked.1 + fieldsFrom delimiter marked.2 bytes

theorem length_fields {content : List UInt8} (held : List UInt8)
    (scanned : Library.Delimited.scan UInt8.toNat delimiter.toNat mode content = some next) :
    (fields UInt8.toNat delimiter.toNat mode held content).length =
      fieldsFrom delimiter mode content + 1 := by
  induction content generalizing mode held with
  | nil => rfl
  | cons byte content ih =>
    rw [fields, fieldsFrom]
    rw [Library.Delimited.scan] at scanned
    cases marked : mark delimiter.toNat mode byte.toNat with
    | mk does later =>
      rw [marked] at scanned
      cases does with
      | record => cases scanned
      | keep | skip =>
        rw [ih _ scanned]
        simp [fieldsBegun]
      | field =>
        rw [List.length_cons, ih _ scanned]
        simp [fieldsBegun, Nat.add_comm]

/-- The content of a record moves the index through the modes of its fields. -/
theorem content_run {content rest : List UInt8} {index : CsvIndex}
    (flags : Flags mode fieldEmpty hasContent)
    (scanned : Library.Delimited.scan UInt8.toNat delimiter.toNat mode content = some next)
    (runs : (scan.inMode mode columns fieldEmpty hasContent).run delimiter position
      (content ++ rest) = .ok index) :
    ∃ empty some, (content ≠ [] ∨ hasContent = true → some = true) ∧ Flags next empty some ∧
      (scan.inMode next (columns + fieldsFrom delimiter mode content) empty some).run delimiter
        (position + content.length) rest = .ok index := by
  induction content generalizing mode columns fieldEmpty hasContent position with
  | nil =>
    cases scanned
    exact ⟨fieldEmpty, hasContent, Or.rec (absurd rfl) id, flags, runs⟩
  | cons byte content ih =>
    obtain ⟨after, consumed, later⟩ := run_cons runs
    rw [Library.Delimited.scan] at scanned
    cases marked : mark delimiter.toNat mode byte.toNat with
    | mk does middle =>
      have noRecord : does ≠ .record := by
        rintro rfl
        rw [marked] at scanned
        cases scanned
      have scanned' : Library.Delimited.scan UInt8.toNat delimiter.toNat middle content = some next := by
        rw [marked] at scanned
        cases does with
        | record => exact absurd rfl noRecord
        | keep | skip | field => exact scanned
      obtain ⟨empty, rfl, flags'⟩ := read_spec flags marked noRecord (consume_spec rfl consumed)
      obtain ⟨empty', some, kept, flags'', runs'⟩ := ih flags' scanned' later
      refine ⟨empty', some, fun _ => kept (.inr rfl), flags'', ?_⟩
      rw [fieldsFrom, marked, ← Nat.add_assoc, List.length_cons, Nat.add_comm content.length,
        ← Nat.add_assoc]
      exact runs'

def flagged (fieldEmpty hasContent inQuotes pendingQuote pendingCR : Bool) (scan : CsvScan) :
    CsvScan :=
  { scan with
    fieldEmpty := fieldEmpty, hasContent := hasContent, inQuotes := inQuotes
    pendingQuote := pendingQuote, pendingCR := pendingCR }

def fresh (scan : CsvScan) : CsvScan := scan.inMode .start 1 true false

def emit (scan : CsvScan) (columns stop contentEnd : ℕ) : Except String CsvScan :=
  ({ scan with columns := columns }.emitRow stop contentEnd).map fresh

section Flagged

variable {inQuotes pendingQuote pendingCR : Bool} {stop contentEnd : ℕ}

theorem checkpoint_flagged :
    (scan.flagged fieldEmpty hasContent inQuotes pendingQuote pendingCR).checkpoint stop =
      (scan.checkpoint stop).map (flagged fieldEmpty hasContent inQuotes pendingQuote pendingCR) := by
  simp only [checkpoint, apply_ite (Except.map _)]
  rfl

theorem countRow_flagged :
    (scan.flagged fieldEmpty hasContent inQuotes pendingQuote pendingCR).countRow stop =
      (scan.countRow stop).map (flagged fieldEmpty hasContent inQuotes pendingQuote pendingCR) := by
  simp only [countRow, apply_ite (Except.map _)]
  refine ite_congr rfl (fun _ => ?_) fun _ => rfl
  rw [show (scan.flagged fieldEmpty hasContent inQuotes pendingQuote pendingCR).rowStart =
    scan.rowStart from rfl, checkpoint_flagged]
  cases scan.checkpoint scan.rowStart <;> rfl

theorem fillPage_flagged :
    (scan.flagged fieldEmpty hasContent inQuotes pendingQuote pendingCR).fillPage stop =
      (scan.fillPage stop).map (flagged fieldEmpty hasContent inQuotes pendingQuote pendingCR) := by
  simp only [fillPage, apply_ite (Except.map _), checkpoint_flagged]
  rfl

theorem emitRow_flagged :
    ({ scan with columns := columns }.flagged fieldEmpty hasContent inQuotes pendingQuote
        pendingCR).emitRow stop contentEnd =
      (scan.emit columns stop contentEnd).map
        (flagged true false inQuotes pendingQuote pendingCR) := by
  simp only [emit, emitRow, apply_ite (Except.map _)]
  refine ite_congr rfl (fun _ => rfl) fun _ => ?_
  rw [countRow_flagged]
  cases { scan with columns := columns }.countRow stop with
  | error error => rfl
  | ok counted =>
    change (((counted.flagged _ _ _ _ _).fillPage stop).map _) = _
    rw [fillPage_flagged]
    cases isFilled : counted.fillPage stop with
    | error error => simp [Except.map, Except.bind, isFilled]
    | ok filled =>
      simp [Except.map, Except.bind, isFilled]
      rfl

end Flagged

theorem emit_fresh {stop contentEnd : ℕ} (emitted : scan.emit columns stop contentEnd = .ok after) :
    after.fresh = after := by
  unfold emit at emitted
  cases row : { scan with columns := columns }.emitRow stop contentEnd with
  | error error =>
    rw [row] at emitted
    cases emitted
  | ok settled =>
    rw [row] at emitted
    cases emitted
    rfl

theorem finish_fresh (fresh : scan.fresh = scan) :
    scan.finish position = (scan.checkpoint position).map fun last =>
      ⟨last.pages, last.rowCount, last.columnCount⟩ := by
  rw [← fresh]
  rfl

theorem finish_flagged {inQuotes pendingQuote pendingCR : Bool} {index : CsvIndex}
    (begun : pendingCR = true ∨ hasContent = true)
    (finished : ({ scan with columns := columns }.flagged fieldEmpty hasContent inQuotes pendingQuote
      pendingCR).finish position = .ok index) :
    ∃ emitted, scan.emit columns position (position - if pendingCR then 1 else 0) = .ok emitted ∧
      emitted.finish position = .ok index := by
  obtain ⟨state, isState⟩ : ∃ state, state = { scan with columns := columns }.flagged fieldEmpty
    hasContent inQuotes pendingQuote pendingCR := ⟨_, rfl⟩
  have asked : (state.pendingCR || state.hasContent || decide (1 < state.columns)) = true := by
    rw [isState]
    rcases begun with rfl | rfl
    · rfl
    · exact Bool.or_eq_true_iff.mpr (.inl (Bool.or_true _))
  have pending : state.pendingCR = pendingCR := by rw [isState]; rfl
  rw [← isState, finish, if_pos asked, pending, isState, emitRow_flagged] at finished
  cases emitted : scan.emit columns position (position - if pendingCR then 1 else 0) with
  | error error =>
    rw [emitted] at finished
    cases finished
  | ok settled =>
    rw [emitted] at finished
    change ((settled.flagged _ _ _ _ _).checkpoint position).map _ = _ at finished
    rw [checkpoint_flagged] at finished
    refine ⟨settled, rfl, ?_⟩
    rw [finish_fresh (emit_fresh emitted), ← finished]
    cases settled.checkpoint position <;> rfl

theorem read_ending (flags : Flags mode fieldEmpty hasContent)
    (record : (mark delimiter.toNat mode byte.toNat).1 = .record) :
    (scan.inMode mode columns fieldEmpty hasContent).read delimiter byte position =
      if byte = 13 then
        .ok ({ scan with columns := columns }.flagged fieldEmpty hasContent false false true)
      else ({ scan with columns := columns }.flagged fieldEmpty hasContent false false false).emitRow
        (position + 1) position := by
  obtain ⟨breaks, unquoted⟩ := mark_record record
  have notDelimiter : byte ≠ delimiter := fun same =>
    mark_record_delimiter record (congrArg UInt8.toNat same)
  have notQuote : byte ≠ 34 := by
    rintro rfl
    rcases breaks with same | same <;> cases same
  have feed (notReturn : byte ≠ 13) : byte = 10 :=
    UInt8.toNat_inj.mp (breaks.resolve_left fun same => notReturn (UInt8.toNat_inj.mp same))
  have bare : (scan.inMode .start columns fieldEmpty hasContent).readBare delimiter byte position =
      if byte = 13 then
        .ok ({ scan with columns := columns }.flagged fieldEmpty hasContent false false true)
      else ({ scan with columns := columns }.flagged fieldEmpty hasContent false false false).emitRow
        (position + 1) position := by
    rw [readBare, if_neg notDelimiter]
    refine ite_congr rfl (fun _ => rfl) fun notReturn => ?_
    rw [if_pos (feed notReturn)]
    rfl
  cases mode with
  | start =>
    cases flags.start rfl
    rw [read_start, if_neg notQuote, bare]
  | bare =>
    cases flags.bare rfl
    rw [read_bare, bare]
  | quoted => exact absurd rfl unquoted
  | closing => rw [read_closing, if_neg notQuote, bare]

theorem consume_pending :
    ({ scan with columns := columns }.flagged fieldEmpty hasContent false false true).consume
        delimiter byte position =
      (scan.emit columns (if byte = 10 then position + 1 else position) (position - 1)).bind
        fun emitted => if byte = 10 then .ok emitted else emitted.consume delimiter byte position := by
  have row : ({ scan with columns := columns }.flagged fieldEmpty hasContent false false
      false).emitRow (if byte = 10 then position + 1 else position) (position - 1) =
        (scan.emit columns (if byte = 10 then position + 1 else position) (position - 1)).map
          (flagged true false false false false) := emitRow_flagged
  rw [consume]
  refine (if_pos rfl).trans ?_
  change (emitRow ({ scan with columns := columns }.flagged fieldEmpty hasContent false false false)
    _ _).bind _ = _
  rw [row]
  cases emitted : scan.emit columns (if byte = 10 then position + 1 else position) (position - 1) with
  | error error => rfl
  | ok settled =>
    have fresh := emit_fresh emitted
    rw [← fresh]
    refine ite_congr rfl (fun _ => rfl) fun _ => ?_
    rw [consume, if_neg (show ¬settled.fresh.pendingCR = true from Bool.false_ne_true)]
    rfl

theorem return_run {rest following : List UInt8} {index : CsvIndex}
    (behind : (∃ feed, rest = [feed] ∧ feed.toNat = 10) ∨
      rest = [] ∧ ∀ next ∈ following.head?, next.toNat ≠ 10)
    (runs : ({ scan with columns := columns }.flagged fieldEmpty hasContent false false true).run
      delimiter (position + 1) (rest ++ following) = .ok index) :
    ∃ emitted, scan.emit columns (position + 1 + rest.length) position = .ok emitted ∧
      emitted.run delimiter (position + 1 + rest.length) following = .ok index := by
  rcases behind with ⟨feed, rfl, isFeed⟩ | ⟨rfl, other⟩
  · obtain ⟨after, consumed, later⟩ := run_cons runs
    have same : feed = 10 := UInt8.toNat_inj.mp isFeed
    rw [consume_pending, if_pos same, Nat.add_sub_cancel] at consumed
    obtain ⟨emitted, isEmitted, unchanged⟩ := bind_ok consumed
    rw [if_pos same] at unchanged
    cases unchanged
    exact ⟨after, isEmitted, later⟩
  · cases following with
    | nil =>
      obtain ⟨emitted, isEmitted, finished⟩ := finish_flagged (.inl rfl) runs
      rw [if_pos rfl, List.append_nil, List.length_nil, Nat.add_zero, Nat.add_sub_cancel] at isEmitted
      exact ⟨emitted, isEmitted, finished⟩
    | cons byte following =>
      obtain ⟨after, consumed, later⟩ := run_cons runs
      have apart : byte ≠ 10 := fun same => other byte rfl (congrArg UInt8.toNat same)
      rw [consume_pending, if_neg apart, Nat.add_sub_cancel] at consumed
      obtain ⟨emitted, isEmitted, rest⟩ := bind_ok consumed
      rw [if_neg apart] at rest
      refine ⟨emitted, isEmitted, ?_⟩
      have measured : position + 1 + (byte :: following).length =
          position + 1 + 1 + following.length := by
        rw [List.length_cons]
        omega
      rw [List.length_nil, Nat.add_zero, run, consumeFrom, rest, measured]
      exact later

/-- The row of a record is emitted, and the index goes on with what follows. -/
theorem record_run {content ending following : List UInt8} {index : CsvIndex}
    (scanned : Library.Delimited.scan UInt8.toNat delimiter.toNat .start content = some mode)
    (ends : Ends UInt8.toNat delimiter.toNat mode ending following)
    (runs : scan.fresh.run delimiter position (content ++ (ending ++ following)) = .ok index) :
    ∃ emitted, scan.emit (fieldsFrom delimiter .start content + 1)
        (position + content.length + ending.length) (position + content.length) = .ok emitted ∧
      emitted.run delimiter (position + content.length + ending.length) following = .ok index := by
  have begun : Flags .start true false :=
    ⟨fun _ => rfl, fun isBare => absurd isBare (by decide), fun other => absurd rfl other⟩
  obtain ⟨empty, filled, -, flags, runs'⟩ := content_run begun scanned runs
  rw [Nat.add_comm 1] at runs'
  obtain ⟨first, rest, rfl, record, behind⟩ := ends
  obtain ⟨after, consumed, later⟩ := run_cons runs'
  have reading := consume_spec rfl consumed
  rw [read_ending flags record] at reading
  have code : first = 13 ↔ first.toNat = 13 := byte_eq_iff first
  rw [List.length_cons, Nat.add_comm rest.length, ← Nat.add_assoc]
  by_cases return' : first = 13
  · rw [if_pos return'] at reading
    cases reading
    rw [if_pos (code.mp return')] at behind
    exact return_run behind later
  · rw [if_neg return', emitRow_flagged] at reading
    rw [if_neg (mt code.mpr return')] at behind
    subst behind
    cases emitted : scan.emit (fieldsFrom delimiter .start content + 1)
        (position + content.length + 1) (position + content.length) with
    | error error =>
      rw [emitted] at reading
      cases reading
    | ok settled =>
      rw [emitted] at reading
      cases reading
      exact ⟨settled, rfl, emit_fresh emitted ▸ later⟩

theorem last_run {content : List UInt8} {index : CsvIndex} (nonempty : content ≠ [])
    (scanned : Library.Delimited.scan UInt8.toNat delimiter.toNat .start content = some mode)
    (runs : scan.fresh.run delimiter position content = .ok index) :
    ∃ emitted, scan.emit (fieldsFrom delimiter .start content + 1) (position + content.length)
        (position + content.length) = .ok emitted ∧
      emitted.run delimiter (position + content.length) [] = .ok index := by
  have begun : Flags .start true false :=
    ⟨fun _ => rfl, fun isBare => absurd isBare (by decide), fun other => absurd rfl other⟩
  obtain ⟨empty, filled, content', -, runs'⟩ :=
    content_run begun scanned ((List.append_nil content).symm ▸ runs)
  rw [Nat.add_comm 1] at runs'
  obtain ⟨emitted, isEmitted, finished⟩ := finish_flagged (.inr (content' (.inl nonempty))) runs'
  exact ⟨emitted, isEmitted, finished⟩

end OxeeUI.Csv.CsvScan
