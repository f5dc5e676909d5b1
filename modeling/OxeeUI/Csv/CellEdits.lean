import OxeeUI.Csv.Serialization
import OxeeUI.Library.JsMap
import OxeeUI.Library.WellFormedText
import Mathlib.Algebra.Ring.Int.Defs
import Mathlib.Data.List.Sort

/-!
# Editing cells of a delimited text

The records whose cells changed are written again within the text.  What is written reads
back as the rows with the cells changed, and all else as before.
-/

namespace OxeeUI.Csv

open OxeeUI.Library OxeeUI.Library.Delimited

structure CsvTextDocument where
  source : Text
  delimiter : UInt16
  rows : List (List Text)
  columnCount : ℕ
  byteLength : ℕ
  cellCount : ℕ
  starts : List ℕ
  contentEnds : List ℕ

def documentLimits : CsvParseLimits :=
  ⟨some (1024 * 1024 + 1), some csvMaxColumns, some csvRecordBytes, true, true⟩

def parseCsvTextDocument (source : Text) (delimiter : UInt16) : Except String CsvTextDocument :=
  (parseCsv source delimiter documentLimits).map fun parsed =>
    { source, delimiter
      rows := parsed.rows
      columnCount := parsed.maxColumns
      byteLength := textBytes source
      cellCount := (parsed.rows.map List.length).sum
      starts := parsed.onRecord.map fun span => span.1
      contentEnds := parsed.onRecord.map fun span => span.2.1 }

/-- `document.source.slice(document.starts[row], document.contentEnds[row])` -/
def CsvTextDocument.content (document : CsvTextDocument) (row : ℕ) : Text :=
  slice document.source (document.starts.getD row 0) (document.contentEnds.getD row 0)

def csvRecordTokens (document : CsvTextDocument) (row : ℕ) : Except String (List Text) :=
  let source := document.content row
  (parseCsv source document.delimiter (.unlimited false true)).map fun parsed =>
    parsed.onField.map fun span => slice source span.1 span.2

/-- A place is a whole number; any other is refused as one below zero is. -/
structure CsvCellEdit where
  row : ℤ
  column : ℤ
  value : Text

def selectionGone : String := "The selected CSV row or column no longer exists."
def tableEditsTooLarge : String :=
  "Table edits must stay below 1 MiB. Use Source for larger changes."

def csvPagedPreviewBytes : ℕ := 1024 * 1024

/-- A row grows up to the column that is set. -/
def setCell (row : List Text) (column : ℕ) (value : Text) : List Text :=
  (row ++ List.replicate (column + 1 - row.length) []).set column value

/-- The rows that are changed, with one more edit. -/
def noteEdit (document : CsvTextDocument) (changed : JsMap ℕ (List Text)) (edit : CsvCellEdit) :
    Except String (JsMap ℕ (List Text)) :=
  if edit.row < 0 ∨ document.rows.length ≤ edit.row ∨ edit.column < 0 ∨
      document.columnCount ≤ edit.column then .error selectionGone
  else
    let row := (changed.get? edit.row.toNat).getD (document.rows.getD edit.row.toNat [])
    .ok (changed.set edit.row.toNat (setCell row edit.column.toNat edit.value))

/-- The rows that come to differ, in order. -/
def changedRows (document : CsvTextDocument) (changed : JsMap ℕ (List Text)) :
    List (ℕ × List Text) :=
  (changed.entries.filter fun entry => entry.2 != document.rows.getD entry.1 []).insertionSort
    fun first second => first.1 ≤ second.1

structure CellWriting where
  cells : ℤ
  bytes : ℤ
  previousEnd : ℕ
  parts : List Text

def writeRow (document : CsvTextDocument) (preservePendingDraft : Bool) (writing : CellWriting)
    (entry : ℕ × List Text) : Except String CellWriting :=
  (csvRecordTokens document entry.1).bind fun tokens =>
    let original := document.rows.getD entry.1 []
    let record := serializeCsvRecord entry.2 document.delimiter original tokens
    let cells := writing.cells + (entry.2.length - original.length)
    let bytes := writing.bytes + textBytes record
    if !preservePendingDraft && decide (1024 * 1024 + 1 < cells) then .error tooManyCells
    else if !preservePendingDraft && decide (csvRecordBytes < textBytes record) then
      .error recordTooLarge
    else if !preservePendingDraft && decide (csvPagedPreviewBytes ≤ bytes) then
      .error tableEditsTooLarge
    else
      .ok { cells, bytes
            previousEnd := document.contentEnds.getD entry.1 0
            parts := writing.parts ++ [slice document.source writing.previousEnd
              (document.starts.getD entry.1 0), record] }

def editCsvTextCells (document : CsvTextDocument) (edits : List CsvCellEdit)
    (preservePendingDraft : Bool) : Except String Text :=
  (edits.foldlM (noteEdit document) .empty).bind fun changed =>
    let entries := changedRows document changed
    let kept : ℤ := document.byteLength - (entries.map fun entry =>
      (textBytes (document.content entry.1) : ℤ)).sum
    (entries.foldlM (writeRow document preservePendingDraft) ⟨document.cellCount, kept, 0, []⟩).map
      fun writing =>
        if writing.parts = [] then document.source
        else (writing.parts ++ [document.source.drop writing.previousEnd]).flatten

/-! ## Parsing within limits -/

namespace CsvParser

variable {source : Text} {delimiter : UInt16} {limits : CsvParseLimits} {parser after : CsvParser}
  {i j : ℕ}

/-- The limits that only drop the refusals. -/
def unlimit (limits : CsvParseLimits) : CsvParseLimits :=
  .unlimited limits.stripBom limits.retainRows

theorem pushField_unlimit {stop : ℕ} (pushed : pushField source limits parser stop = .ok after) :
    pushField source (unlimit limits) parser stop = .ok after := by
  unfold pushField at pushed ⊢
  split at pushed
  · cases pushed
  · exact pushed

theorem pushRow_unlimit {stop next : ℕ} (pushed : pushRow source limits parser stop next = .ok after) :
    pushRow source (unlimit limits) parser stop next = .ok after := by
  unfold pushRow at pushed ⊢
  split at pushed
  · cases pushed
  · obtain ⟨field, isField, rfl⟩ := map_ok pushed
    rw [pushField_unlimit isField]
    rfl

theorem step_unlimit {ch : UInt16} (stepped : step source delimiter limits parser i ch = .ok (after, j)) :
    step source delimiter (unlimit limits) parser i ch = .ok (after, j) := by
  rw [show step source delimiter (unlimit limits) parser i ch = _ from step_unlimited parser i ch]
  unfold step at stepped
  split at stepped
  · cases stepped
  · split at stepped
    · next inQuotes => rwa [if_pos inQuotes]
    · next outside =>
      rw [if_neg outside]
      split at stepped
      · next opens => rwa [if_pos opens]
      · next bare =>
        rw [if_neg bare]
        split at stepped
        · next delimits =>
          obtain ⟨pushed, isPushed, same⟩ := map_ok stepped
          rw [if_pos delimits, show pushField source (.unlimited _ _) parser i = .ok pushed from
            pushField_unlimit isPushed, ← same]
          rfl
        · next plain =>
          rw [if_neg plain]
          split at stepped
          · next breaks =>
            obtain ⟨pushed, isPushed, same⟩ := map_ok stepped
            rw [if_pos breaks]
            dsimp only
            rw [show pushRow source (.unlimited _ _) parser i _ = .ok pushed from
              pushRow_unlimit isPushed, ← same]
            rfl
          · next content => rwa [if_neg content]

theorem loop_unlimit (rounds : ℕ) (looped : loop source delimiter limits rounds parser i = .ok after) :
    loop source delimiter (unlimit limits) rounds parser i = .ok after := by
  induction rounds generalizing parser i with
  | zero => exact looped
  | succ rounds ih =>
    unfold loop at looped ⊢
    cases isCh : source[i]? with
    | none => rwa [isCh] at looped
    | some ch =>
      simp only [isCh] at looped ⊢
      cases stepped : step source delimiter limits parser i ch with
      | error error => simp [stepped] at looped
      | ok next =>
        obtain ⟨next, j⟩ := next
        simp only [stepped] at looped
        simpa only [step_unlimit stepped] using ih looped

/-- What is parsed within limits is parsed without them. -/
theorem parseCsv_unlimit (parsed : parseCsv source delimiter limits = .ok after) :
    parseCsv source delimiter (unlimit limits) = .ok after := by
  unfold parseCsv at parsed ⊢
  obtain ⟨last, looped, finished⟩ := bind_ok parsed
  rw [show contentStart source (unlimit limits) = contentStart source limits from rfl,
    loop_unlimit _ looped]
  unfold finish at finished
  change finish source (unlimit limits) last = .ok after
  unfold finish
  split at finished
  · next some => rw [if_pos some, pushRow_unlimit finished]
  · next none => rwa [if_neg none]

end CsvParser

/-! ## The records of a document -/

section Records

open CsvParser

variable {delimiter : UInt16} {records : List (Record UInt16)} {record : Record UInt16}

theorem getElem?_spansFrom (i index : ℕ) :
    (spansFrom i records)[index]? = records[index]?.map fun record =>
      let start := i + (joined (records.take index)).length
      (start, start + record.content.length, start + record.text.length) := by
  induction records generalizing i index with
  | nil => simp [spansFrom]
  | cons first records ih =>
    cases index with
    | zero => simp [spansFrom, joined]
    | succ index =>
      rw [spansFrom, List.getElem?_cons_succ, ih, List.getElem?_cons_succ, List.take_succ_cons]
      simp only [joined, List.flatMap_cons, List.length_append, Nat.add_assoc]

theorem head_tokens {mode : Mode} {written content first : Text}
    (isFirst : (tokensOf delimiter mode written content)[0]? = some first) :
    first <+: written ++ content := by
  induction content generalizing mode written with
  | nil =>
    cases isFirst
    simp
  | cons ch content ih =>
    simp only [tokens] at isFirst
    split at isFirst
    · cases isFirst
      exact List.prefix_append _ _
    · cases isFirst
      exact List.prefix_append _ _
    · simpa using ih isFirst

/-- The tokens of a record are parsed again from its content, but for an empty one. -/
theorem csvRecordTokens_spec {document : CsvTextDocument} {row : ℕ} {mode : Mode}
    (content : document.content row = record.content)
    (scanned : scanText document.delimiter .start record.content = some mode) :
    ∃ tokens, csvRecordTokens document row = .ok tokens ∧
      (∀ (index : ℕ) written before, tokens[index]? = some written →
        (rowOf document.delimiter record)[index]? = some before →
          ∃ mode, readField document.delimiter .start [] written = some (mode, before)) ∧
      ∀ written ∈ tokens[0]?, written <+: record.content := by
  unfold csvRecordTokens
  rw [content]
  by_cases empty : record.content = []
  · rw [empty]
    exact ⟨[], rfl, by simp, by simp⟩
  · have splits : SplitsText document.delimiter [⟨record.content, []⟩] :=
      .last record.content empty mode scanned
    have whole : record.content = [] ++ joined [⟨record.content, []⟩] := by
      simp [joined, Record.text]
    obtain ⟨parsed, isParsed, adds⟩ :=
      @parseCsv_joined record.content [] document.delimiter false true _ splits whole rfl
    obtain ⟨spans, isSpans, written⟩ := adds.onField
    have tokens : parsed.onField.map (fun span => slice record.content span.1 span.2) =
        recordTokens document.delimiter record := by
      rw [isSpans]
      simpa [recordTokens, initial] using written
    refine ⟨recordTokens document.delimiter record, ?_, ?_, fun written => head_tokens⟩
    · dsimp only
      rw [isParsed]
      exact congrArg Except.ok tokens
    · intro index written before isWritten isBefore
      have read := List.forall₂_iff_get.mp
        (@readField_tokens document.delimiter .start mode [] record.content [] rfl scanned)
      obtain ⟨inside, rfl⟩ := List.getElem?_eq_some_iff.mp isWritten
      obtain ⟨inside', rfl⟩ := List.getElem?_eq_some_iff.mp isBefore
      exact read.2 index inside inside'

/-- A record's content is replaced by another. -/
def withContent (records : List (Record UInt16)) (index : ℕ) (content : Text) :
    List (Record UInt16) :=
  records.modify index fun record => ⟨content, record.ending⟩

theorem mark_break_of {mode : Mode} (unquoted : mode ≠ .quoted) {ch : UInt16}
    (breaks : ch.toNat = 13 ∨ ch.toNat = 10) (apart : ch.toNat ≠ delimiter.toNat) :
    (mark delimiter.toNat mode ch.toNat).1 = .record := by
  have noQuote : ch.toNat ≠ 34 := by omega
  simp [mark, unquoted, apart, breaks, noQuote]

/-- With another content, the records begin as before or as the content does. -/
theorem head_withContent {plain : UInt16 → Prop} (texts : ∀ record ∈ records, record.text ≠ [])
    {content : Text} (nonempty : content ≠ []) {index : ℕ}
    (begins : index = 0 → ∀ next ∈ content.head?, plain next)
    (before : ∀ next ∈ (joined records).head?, plain next) :
    ∀ next ∈ (joined (withContent records index content)).head?, plain next := by
  cases records with
  | nil => simp [withContent, joined]
  | cons first records =>
    cases index with
    | zero =>
      cases content with
      | nil => exact absurd rfl nonempty
      | cons ch content => simpa [withContent, joined, Record.text] using begins rfl
    | succ index =>
      have some := texts first List.mem_cons_self
      simp only [withContent, List.modify_succ_cons, joined, List.flatMap_cons] at before ⊢
      cases isText : first.text with
      | nil => exact absurd isText some
      | cons ch text => simpa [isText] using before

/-- Records are read as they are with another content that is read back. -/
theorem splits_withContent (delimits : Delimits delimiter) (splits : SplitsText delimiter records)
    {values : List Text} {content : Text} (writes : Writes delimiter values content) (index : ℕ) :
    SplitsText delimiter (withContent records index content) := by
  obtain ⟨mode', unquoted, scanned'⟩ := writes.scanned
  have plain : ∀ next ∈ content.head?, next.toNat ≠ 10 := by
    intro next isNext feed
    cases isContent : content with
    | nil => exact writes.nonempty isContent
    | cons ch content =>
      subst isContent
      obtain rfl : ch = next := by simpa using isNext
      have apart : ch.toNat ≠ delimiter.toNat := by
        intro same
        rw [← UInt16.toNat_inj.mp same] at delimits
        exact (isSpecial_eq_false delimits.apart).2 (.inr (UInt16.toNat_inj.mp feed))
      have marked := @mark_break_of delimiter .start (by decide) ch (.inr feed) apart
      cases isMarked : mark delimiter.toNat .start ch.toNat with
      | mk does next =>
        rw [isMarked] at marked
        obtain rfl : does = .record := marked
        simp [scan, isMarked] at scanned'
  induction splits generalizing index with
  | none =>
    rw [withContent, List.modify_nil]
    exact .none
  | last before nonempty mode scanned =>
    cases index with
    | zero => exact .last content writes.nonempty mode' scanned'
    | succ index =>
      rw [withContent, List.modify_succ_cons, List.modify_nil]
      exact .last before nonempty mode scanned
  | cons before ending records mode scanned ends splits ih =>
    obtain ⟨first, rest, rfl, record, behind⟩ := ends
    cases index with
    | zero =>
      refine .cons content _ records mode' scanned' ⟨first, rest, rfl, ?_, behind⟩ splits
      exact mark_break_of unquoted (mark_record record).1 (mark_record_delimiter record)
    | succ index =>
      refine .cons before _ _ mode scanned ⟨first, rest, rfl, record, ?_⟩ (ih index)
      split at behind
      · next return' =>
        rw [if_pos return']
        rcases behind with feed | ⟨rfl, other⟩
        · exact .inl feed
        · exact .inr ⟨rfl, head_withContent splits.text_ne_nil writes.nonempty (fun _ => plain) other⟩
      · next other => rwa [if_neg other]

/-- The records that a document's source is joined from, behind its byte order mark. -/
structure Holds (document : CsvTextDocument) (mark : Text) (records : List (Record UInt16)) : Prop where
  source : document.source = mark ++ joined records
  splits : SplitsText document.delimiter records
  rows : document.rows = records.map (rowOf document.delimiter)
  starts : document.starts = (spansFrom mark.length records).map fun span => span.1
  contentEnds : document.contentEnds = (spansFrom mark.length records).map fun span => span.2.1
  begins : contentStart document.source (.unlimited true true) = mark.length

theorem holds_parseCsvTextDocument {source : Text} {document : CsvTextDocument}
    (parsed : parseCsvTextDocument source delimiter = .ok document) :
    document.source = source ∧ document.delimiter = delimiter ∧
      ∃ mark records, Holds document mark records := by
  obtain ⟨read, isRead, rfl⟩ := map_ok parsed
  have start : contentStart source (.unlimited true true) ≤ source.length := by
    unfold contentStart
    split
    · cases source with
      | nil => simp_all
      | cons ch source => exact Nat.succ_le_succ (Nat.zero_le _)
    · exact Nat.zero_le _
  obtain ⟨records, splits, isJoined⟩ := @exists_splits _ UInt16.toNat delimiter.toNat
    (source.drop (contentStart source (.unlimited true true)))
  have whole : source = source.take (contentStart source (.unlimited true true)) ++ joined records := by
    rw [isJoined, List.take_append_drop]
  have begins : contentStart source (.unlimited true true) =
      (source.take (contentStart source (.unlimited true true))).length := by
    rw [List.length_take, Nat.min_eq_left start]
  obtain ⟨read', isRead', adds⟩ :=
    @parseCsv_joined source _ delimiter true true records splits whole begins
  obtain rfl : read = read' := Except.ok.inj ((parseCsv_unlimit isRead).symm.trans isRead')
  refine ⟨rfl, rfl, _, records, whole, splits, ?_, ?_, ?_, begins⟩
  · simpa [initial] using adds.rows
  · simp [adds.onRecord, initial]
  · simp [adds.onRecord, initial]

theorem Holds.at {document : CsvTextDocument} {mark : Text} (holds : Holds document mark records)
    {index : ℕ} (found : records[index]? = some record) :
    document.starts.getD index 0 = mark.length + (joined (records.take index)).length ∧
      document.contentEnds.getD index 0 =
        mark.length + (joined (records.take index)).length + record.content.length ∧
      document.source.drop (mark.length + (joined (records.take index)).length) =
        record.content ++ (record.ending ++ joined (records.drop (index + 1))) ∧
      document.content index = record.content := by
  obtain ⟨inside, isRecord⟩ := List.getElem?_eq_some_iff.mp found
  have start : document.starts.getD index 0 = mark.length + (joined (records.take index)).length := by
    rw [holds.starts, List.getD_eq_getElem?_getD, List.getElem?_map, getElem?_spansFrom, found]
    rfl
  have stop : document.contentEnds.getD index 0 =
      mark.length + (joined (records.take index)).length + record.content.length := by
    rw [holds.contentEnds, List.getD_eq_getElem?_getD, List.getElem?_map, getElem?_spansFrom, found]
    rfl
  have rest : document.source.drop (mark.length + (joined (records.take index)).length) =
      record.content ++ (record.ending ++ joined (records.drop (index + 1))) := by
    have split : records = records.take index ++ record :: records.drop (index + 1) := by
      rw [← isRecord, ← List.drop_eq_getElem_cons inside, List.take_append_drop]
    have parts : joined records = joined (records.take index) ++
        (record.content ++ (record.ending ++ joined (records.drop (index + 1)))) := by
      conv_lhs => rw [split]
      simp [joined, Record.text]
    rw [holds.source, parts, ← List.append_assoc, ← List.length_append, List.drop_left]
  refine ⟨start, stop, rest, ?_⟩
  rw [CsvTextDocument.content, start, stop, slice, rest, Nat.add_sub_cancel_left, List.take_left]

/-- The text with the rows written so far. -/
structure Rewritten (document : CsvTextDocument) (mark : Text) (records : List (Record UInt16))
    (bound : ℕ) (writing : CellWriting) (edited : List (Record UInt16)) : Prop where
  splits : SplitsText document.delimiter edited
  ahead : edited.drop bound = records.drop bound
  previous : writing.previousEnd ≤ mark.length + (joined (records.take bound)).length
  text : writing.parts.flatten ++ document.source.drop writing.previousEnd = mark ++ joined edited
  unwritten : writing.parts = [] → writing.previousEnd = 0
  begins : mark = [] → ∀ next ∈ (joined edited).head?, next ≠ byteOrderMark

theorem Rewritten.writeRow {document : CsvTextDocument} {mark : Text} {bound index : ℕ}
    {writing next : CellWriting} {edited : List (Record UInt16)} {preserve : Bool} {values : List Text}
    (delimits : Delimits document.delimiter) (holds : Holds document mark records)
    (rewritten : Rewritten document mark records bound writing edited) (later : bound ≤ index)
    (found : records[index]? = some record) (nonempty : values ≠ [])
    (wrote : writeRow document preserve writing (index, values) = .ok next) :
    ∃ content, Rewritten document mark records (index + 1) next (withContent edited index content) ∧
      (withContent edited index content).map (rowOf document.delimiter) =
        (edited.map (rowOf document.delimiter)).set index values := by
  obtain ⟨start, stop, rest, content⟩ := holds.at found
  obtain ⟨mode, scanned⟩ := Option.isSome_iff_exists.mp
    (holds.splits.scanned record (List.mem_of_getElem? found))
  obtain ⟨tokens, isTokens, reads, heads⟩ := csvRecordTokens_spec content scanned
  have row : document.rows.getD index [] = rowOf document.delimiter record := by
    rw [holds.rows, List.getD_eq_getElem?_getD, List.getElem?_map, found]
    rfl
  have writes := writes_serializeCsvRecord delimits nonempty reads
  have kept : edited[index]? = some record := by
    have same := congrArg (fun list => list[index - bound]?) rewritten.ahead
    simpa only [List.getElem?_drop, Nat.add_sub_cancel' later, found] using same
  have plain : mark = [] → index = 0 → ∀ next ∈ (serializeCsvRecord values document.delimiter
      (rowOf document.delimiter record) tokens).head?, next ≠ byteOrderMark := by
    rintro unmarked rfl ch isCh rfl
    refine head_serializeCsvRecord delimits (fun written isWritten isMark => ?_) isCh
    obtain ⟨more, isContent⟩ := heads written isWritten
    cases edited with
    | nil => cases kept
    | cons first edited =>
      obtain rfl : first = record := Option.some.inj kept
      have begins := rewritten.begins unmarked
      cases written with
      | nil => cases isMark
      | cons ch written =>
        simp only [joined, List.flatMap_cons, Record.text, ← isContent, List.cons_append] at begins
        exact begins ch rfl (Option.some.inj isMark)
  unfold Csv.writeRow at wrote
  rw [isTokens] at wrote
  simp only [Except.bind, row] at wrote
  split at wrote
  · cases wrote
  split at wrote
  · cases wrote
  split at wrote
  · cases wrote
  cases wrote
  generalize serializeCsvRecord values document.delimiter _ tokens = written at writes plain
  obtain ⟨front, old, back, rfl, rfl, after⟩ := List.exists_of_modify
    (fun record : Record UInt16 => ⟨written, record.ending⟩) (List.getElem?_eq_some_iff.mp kept).1
  obtain rfl : old = record := by simpa using kept
  have behind : back = records.drop (front.length + 1) := by
    have same := congrArg (List.drop (front.length + 1 - bound)) rewritten.ahead
    simp only [List.drop_drop, Nat.add_sub_cancel' (Nat.le_succ_of_le later)] at same
    simpa [List.drop_append, List.drop_eq_nil_of_le] using same
  refine ⟨written,
    ⟨splits_withContent delimits rewritten.splits writes _, ?_, ?_, ?_, ?_, ?_⟩, ?_⟩
  · rw [withContent, after]
    simpa [List.drop_append, List.drop_eq_nil_of_le] using behind
  · dsimp only
    rw [stop, List.take_add_one, found]
    simp [joined, Record.text]
    omega
  · dsimp only
    have reached : writing.previousEnd ≤ mark.length + (joined (records.take front.length)).length := by
      refine Nat.le_trans rewritten.previous (Nat.add_le_add_left ?_ _)
      rw [← List.take_append_drop bound (records.take front.length), List.take_take, Nat.min_eq_left later,
        joined_append, List.length_append]
      exact Nat.le_add_right _ _
    have pending : document.source.drop writing.previousEnd =
        slice document.source writing.previousEnd
          (mark.length + (joined (records.take front.length)).length) ++
        (old.content ++ (old.ending ++ joined back)) := by
      rw [slice, behind, ← rest]
      conv_lhs => rw [← List.take_append_drop
        (mark.length + (joined (records.take front.length)).length - writing.previousEnd)
        (document.source.drop writing.previousEnd)]
      rw [List.drop_drop, Nat.add_sub_cancel' reached]
    have before : writing.parts.flatten ++ slice document.source writing.previousEnd
        (mark.length + (joined (records.take front.length)).length) = mark ++ joined front := by
      have text := rewritten.text
      rw [pending, joined_append, ← List.append_assoc, ← List.append_assoc mark] at text
      refine List.append_cancel_right (text.trans (congrArg (mark ++ joined front ++ ·) ?_))
      simp [joined, Record.text]
    rw [start, stop, ← List.drop_drop, rest, List.drop_left, ← behind, withContent, after]
    simp only [List.flatten_append, List.flatten_cons, List.flatten_nil, List.append_nil,
      ← List.append_assoc, before]
    simp [joined, Record.text]
  · exact fun none => absurd none (List.append_ne_nil_of_right_ne_nil _ (List.cons_ne_nil _ _))
  · intro unmarked
    exact head_withContent rewritten.splits.text_ne_nil writes.nonempty (plain unmarked)
      (rewritten.begins unmarked)
  · have row : rowOf document.delimiter ⟨written, old.ending⟩ = values := writes.row
    rw [withContent, after]
    simp [row]

theorem Rewritten.run {document : CsvTextDocument} {mark : Text} {bound : ℕ}
    {writing last : CellWriting} {edited : List (Record UInt16)} {preserve : Bool}
    (delimits : Delimits document.delimiter) (holds : Holds document mark records)
    (rewritten : Rewritten document mark records bound writing edited)
    {entries : List (ℕ × List Text)} (sorted : entries.Pairwise fun first second => first.1 < second.1)
    (within : ∀ entry ∈ entries, bound ≤ entry.1 ∧ entry.1 < records.length ∧ entry.2 ≠ [])
    (ran : entries.foldlM (Csv.writeRow document preserve) writing = .ok last) :
    ∃ bound edited', Rewritten document mark records bound last edited' ∧
      edited'.map (rowOf document.delimiter) =
        entries.foldl (fun rows entry => rows.set entry.1 entry.2)
          (edited.map (rowOf document.delimiter)) ∧
      edited'.map Record.ending = edited.map Record.ending ∧
      ∀ index, (∀ entry ∈ entries, entry.1 ≠ index) → edited'[index]? = edited[index]? := by
  induction entries generalizing bound writing edited with
  | nil =>
    cases ran
    exact ⟨bound, edited, rewritten, rfl, rfl, fun _ _ => rfl⟩
  | cons entry entries ih =>
    rw [List.foldlM_cons] at ran
    obtain ⟨next, wrote, ran⟩ := bind_ok ran
    rw [List.pairwise_cons] at sorted
    obtain ⟨later, inside, nonempty⟩ := within entry List.mem_cons_self
    obtain ⟨content, rewritten', rows⟩ := rewritten.writeRow delimits holds later
      (List.getElem?_eq_getElem inside) nonempty wrote
    obtain ⟨bound', last, finished, same, endings, others⟩ := ih rewritten' sorted.2
      (fun other member =>
        ⟨sorted.1 other member, (within other (List.mem_cons_of_mem _ member)).2⟩) ran
    refine ⟨bound', last, finished, same.trans (by rw [rows]; rfl), endings.trans ?_, ?_⟩
    · apply List.ext_getElem?
      intro index
      by_cases here : entry.1 = index <;> cases isRecord : edited[index]? <;>
        simp [withContent, here, isRecord]
    · intro index untouched
      rw [others index fun other member => untouched other (List.mem_cons_of_mem _ member)]
      simp [withContent, untouched entry List.mem_cons_self]

end Records

/-! ## The edits -/

/-- A cell of the rows is set. -/
def editRow (rows : List (List Text)) (edit : CsvCellEdit) : List (List Text) :=
  rows.modify edit.row.toNat fun row => setCell row edit.column.toNat edit.value

theorem setCell_ne_nil (row : List Text) (column : ℕ) (value : Text) :
    setCell row column value ≠ [] := by
  apply List.ne_nil_of_length_pos
  rw [setCell, List.length_set, List.length_append, List.length_replicate]
  omega

/-- The rows that are changed, in front of the document's. -/
structure Noted (document : CsvTextDocument) (changed : JsMap ℕ (List Text))
    (rows : List (List Text)) : Prop where
  shows : ∀ index : ℕ, rows[index]? =
    document.rows[index]?.map fun row => (changed.get? index).getD row
  within : ∀ index row, changed.get? index = some row → index < document.rows.length ∧ row ≠ []

theorem Noted.run {document : CsvTextDocument} {changed last : JsMap ℕ (List Text)}
    {rows : List (List Text)} {edits : List CsvCellEdit} (noted : Noted document changed rows)
    (ran : edits.foldlM (noteEdit document) changed = .ok last) :
    Noted document last (edits.foldl editRow rows) := by
  induction edits generalizing changed rows with
  | nil =>
    cases ran
    exact noted
  | cons edit edits ih =>
    rw [List.foldlM_cons] at ran
    obtain ⟨next, stepped, ran⟩ := bind_ok ran
    unfold noteEdit at stepped
    split at stepped
    · cases stepped
    · next accepted =>
      cases stepped
      obtain ⟨place, room, -⟩ := not_or.mp accepted |>.imp_right not_or.mp
      have inside : edit.row.toNat < document.rows.length := by omega
      refine ih ⟨fun index => ?_, fun index row => ?_⟩ ran
      · rw [editRow, List.getElem?_modify, noted.shows, JsMap.get?_set]
        by_cases here : edit.row.toNat = index
        · subst here
          simp [List.getElem?_eq_getElem inside]
        · simp [here, Ne.symm here]
      · rw [JsMap.get?_set]
        split
        · next here =>
          rintro ⟨⟩
          exact ⟨here ▸ inside, setCell_ne_nil _ _ _⟩
        · exact noted.within index row

theorem changedRows_spec {document : CsvTextDocument} {changed : JsMap ℕ (List Text)}
    {rows : List (List Text)} (noted : Noted document changed rows) :
    (changedRows document changed).Pairwise (fun first second => first.1 < second.1) ∧
      (∀ entry ∈ changedRows document changed,
        entry.1 < document.rows.length ∧ entry.2 ≠ [] ∧ rows[entry.1]? ≠ document.rows[entry.1]?) ∧
      (changedRows document changed).foldl (fun rows entry => rows.set entry.1 entry.2)
        document.rows = rows := by
  have perm := List.perm_insertionSort (fun first second : ℕ × List Text => first.1 ≤ second.1)
    (changed.entries.filter fun entry => entry.2 != document.rows.getD entry.1 [])
  have distinct : ((changedRows document changed).map Prod.fst).Nodup :=
    (perm.map Prod.fst).nodup_iff.mpr
      ((List.filter_sublist.map Prod.fst).nodup changed.nodup)
  have listed : ∀ index row, (index, row) ∈ changedRows document changed ↔
      changed.get? index = some row ∧ row ≠ document.rows.getD index [] := by
    intro index row
    rw [changedRows, perm.mem_iff, List.mem_filter, JsMap.get?_eq_some_iff, bne_iff_ne]
  refine ⟨?_, ?_, ?_⟩
  · have total : Std.Total fun first second : ℕ × List Text => first.1 ≤ second.1 :=
      ⟨fun first second => Nat.le_total first.1 second.1⟩
    have trans : IsTrans (ℕ × List Text) fun first second => first.1 ≤ second.1 :=
      ⟨fun _ _ _ => Nat.le_trans⟩
    have sorted := List.pairwise_insertionSort
      (fun first second : ℕ × List Text => first.1 ≤ second.1)
      (changed.entries.filter fun entry => entry.2 != document.rows.getD entry.1 [])
    exact (sorted.and (List.pairwise_map.mp distinct)).imp fun both =>
      Nat.lt_of_le_of_ne both.1 both.2
  · intro entry member
    obtain ⟨isChanged, differs⟩ := (listed entry.1 entry.2).mp member
    obtain ⟨inside, nonempty⟩ := noted.within _ _ isChanged
    refine ⟨inside, nonempty, ?_⟩
    rw [noted.shows, isChanged, List.getElem?_eq_getElem inside]
    simpa [inside] using differs
  · refine List.ext_getElem? fun index => ?_
    have written := @JsMap.foldl_entries_at _ _ _ _ _ (fun rows entry => rows.set entry.1 entry.2)
      (fun rows : List (List Text) => rows[index]?) (fun row before => before.map fun _ => row) index
      (fun rows row => by by_cases here : index < rows.length <;> simp [here])
      (fun rows entry other => by simp [other]) ⟨changedRows document changed, distinct⟩ document.rows
    rw [noted.shows index]
    refine written.trans ?_
    cases isChanged : JsMap.get? ⟨changedRows document changed, distinct⟩ index with
    | some row =>
      rw [((listed index row).mp (JsMap.get?_eq_some_iff.mp isChanged)).1]
      rfl
    | none =>
      cases stands : changed.get? index with
      | none => simp
      | some row =>
        have same : row = document.rows.getD index [] := by
          by_contra different
          have found : JsMap.get? ⟨changedRows document changed, distinct⟩ index = some row :=
            JsMap.get?_eq_some_iff.mpr ((listed index row).mpr ⟨stands, different⟩)
          rw [isChanged] at found
          cases found
        have inside := (noted.within index row stands).1
        simp [same, inside]

/-- A text whose cells were edited is joined from records as the source is. -/
theorem edited_records {source text : Text} {delimiter : UInt16} {document : CsvTextDocument}
    {edits : List CsvCellEdit} {preservePendingDraft : Bool} (delimits : Delimits delimiter)
    (parsed : parseCsvTextDocument source delimiter = .ok document)
    (edited : editCsvTextCells document edits preservePendingDraft = .ok text) :
    ∃ mark before after, SplitsText delimiter before ∧ source = mark ++ joined before ∧
      SplitsText delimiter after ∧ text = mark ++ joined after ∧
      contentStart text (.unlimited true true) = mark.length ∧
      after.map (CsvParser.rowOf delimiter) = edits.foldl editRow document.rows ∧
      after.map Record.ending = before.map Record.ending ∧
      ∀ index : ℕ, (edits.foldl editRow document.rows)[index]? = document.rows[index]? →
        after[index]? = before[index]? := by
  obtain ⟨rfl, rfl, mark, records, holds⟩ := holds_parseCsvTextDocument parsed
  obtain ⟨changed, noted, edited⟩ := bind_ok edited
  obtain ⟨writing, ran, isText⟩ := map_ok edited
  have notes : Noted document changed (edits.foldl editRow document.rows) :=
    Noted.run ⟨fun index => by simp, by simp⟩ noted
  obtain ⟨sorted, within, rows⟩ := changedRows_spec notes
  have unmarked : mark = [] → ∀ next ∈ (joined records).head?, next ≠ byteOrderMark := by
    rintro rfl next isNext rfl
    have begins := holds.begins
    simp [holds.source, contentStart, CsvParseLimits.unlimited, Option.mem_def.mp isNext] at begins
  have started : ∀ cells bytes, Rewritten document mark records 0 ⟨cells, bytes, 0, []⟩ records :=
    fun _ _ =>
      ⟨holds.splits, rfl, Nat.zero_le _, by simpa using holds.source, fun _ => rfl, unmarked⟩
  obtain ⟨_, edited', rewritten, same, endings, others⟩ := (started _ _).run delimits holds sorted
    (fun entry member => by
      obtain ⟨inside, nonempty, -⟩ := within entry member
      exact ⟨Nat.zero_le _, by simpa [holds.rows] using inside, nonempty⟩) ran
  have whole : text = mark ++ joined edited' := by
    rw [← rewritten.text, ← isText]
    split
    · next none => simp [none, rewritten.unwritten none]
    · simp
  refine ⟨mark, records, edited', holds.splits, holds.source, rewritten.splits, whole, ?_, ?_,
    endings, ?_⟩
  · have begun := holds.begins
    cases mark with
    | nil =>
      have plain : (joined edited').head? ≠ some byteOrderMark := fun isMark =>
        rewritten.begins rfl _ isMark rfl
      rw [whole, List.nil_append]
      simp [contentStart, CsvParseLimits.unlimited, plain]
    | cons ch mark =>
      rw [← begun, whole, holds.source]
      rfl
  · rw [same, ← holds.rows, rows]
  · intro index unchanged
    refine others index fun entry member here => ?_
    exact (within entry member).2.2 (here ▸ unchanged)

section Results

variable {source text : Text} {delimiter : UInt16} {document : CsvTextDocument}
variable {edits : List CsvCellEdit} {preservePendingDraft : Bool}

/-- Where a document's cells are edited, what is written reads back as its rows with these cells
set, whatever the cells hold and however the records were written. -/
theorem editCsvTextCells_rereads (delimits : Delimits delimiter)
    (parsed : parseCsvTextDocument source delimiter = .ok document)
    (edited : editCsvTextCells document edits preservePendingDraft = .ok text) :
    ∃ after, parseCsv text delimiter (.unlimited true true) = .ok after ∧
      after.rows = edits.foldl editRow document.rows := by
  obtain ⟨mark, _, after, -, -, splits, whole, begins, rows, -⟩ :=
    edited_records delimits parsed edited
  obtain ⟨reread, isReread, adds⟩ := parseCsv_joined splits whole begins
  refine ⟨reread, isReread, ?_⟩
  rw [← rows]
  simpa [CsvParser.initial] using adds.rows

/-- Two records behind a byte order mark. -/
def markedText : Text := [byteOrderMark, 97, 44, 98, 13, 10, 99]

def markedEdits : List CsvCellEdit := [⟨0, 1, [44, 34]⟩, ⟨1, 1, [100]⟩]

theorem editCsvTextCells_rereads_marked : ∃ document text after,
    parseCsvTextDocument markedText 44 = .ok document ∧
    editCsvTextCells document markedEdits false = .ok text ∧
    text = [byteOrderMark, 97, 44, 34, 44, 34, 34, 34, 13, 10, 99, 44, 100] ∧
    parseCsv text 44 (.unlimited true true) = .ok after ∧
    after.rows = [[[97], [44, 34]], [[99], [100]]] := by
  obtain ⟨document, parsed⟩ : ∃ document, parseCsvTextDocument markedText 44 = .ok document :=
    ⟨_, rfl⟩
  have edited : editCsvTextCells document markedEdits false =
      .ok [byteOrderMark, 97, 44, 34, 44, 34, 34, 34, 13, 10, 99, 44, 100] := by
    cases parsed
    rfl
  obtain ⟨after, isAfter, rows⟩ := editCsvTextCells_rereads ⟨rfl, by decide⟩ parsed edited
  refine ⟨document, _, after, parsed, edited, rfl, isAfter, rows.trans ?_⟩
  cases parsed
  rfl

end Results

end OxeeUI.Csv
