import OxeeUI.Library.Utf16
import OxeeUI.Library.DelimitedText

/-!
# Parsing delimited values

The loop over the code units of a source, with the positions where the current piece,
field and record began.  The callbacks are the lists of what they are called with.
-/

namespace OxeeUI.Csv

open OxeeUI.Library

theorem bind_ok {Value Result : Type} {first : Except String Value}
    {rest : Value → Except String Result} {result : Result} (ok : first.bind rest = .ok result) :
    ∃ value, first = .ok value ∧ rest value = .ok result := by
  cases first with
  | error error => cases ok
  | ok value => exact ⟨value, rfl, ok⟩

theorem map_ok {Value Result : Type} {first : Except String Value} {change : Value → Result}
    {result : Result} (ok : first.map change = .ok result) :
    ∃ value, first = .ok value ∧ change value = result := by
  cases first with
  | error error => cases ok
  | ok value => exact ⟨value, rfl, Except.ok.inj ok⟩

def quote : UInt16 := 34
def byteOrderMark : UInt16 := 0xFEFF

/-- `source.slice(start, stop)` -/
def slice (source : Text) (start stop : ℕ) : Text := (source.drop start).take (stop - start)

structure CsvParseLimits where
  maxCells : Option ℕ
  maxColumns : Option ℕ
  maxRecordLength : Option ℕ
  stripBom : Bool
  retainRows : Bool

def CsvParseLimits.unlimited (stripBom retainRows : Bool) : CsvParseLimits :=
  ⟨none, none, none, stripBom, retainRows⟩

def reaches (limit : Option ℕ) (count : ℕ) : Bool :=
  match limit with
  | some most => most ≤ count
  | none => false

def exceeds (limit : Option ℕ) (count : ℕ) : Bool :=
  match limit with
  | some most => most < count
  | none => false

/-- The variables of the loop, and what `onField` and `onRecord` were called with. -/
structure CsvParser where
  rows : List (List Text)
  row : List Text
  start : ℕ
  recordStart : ℕ
  fieldStart : ℕ
  parts : List Text
  fieldLength : ℕ
  inQuotes : Bool
  hasContent : Bool
  maxColumns : ℕ
  cells : ℕ
  onField : List (ℕ × ℕ)
  onRecord : List (ℕ × ℕ × ℕ)

def tooManyCells : String := "CSV contains too many cells to preview safely."
def recordTooLarge : String := "CSV record is too large to preview safely."

namespace CsvParser

def initial (start : ℕ) : CsvParser :=
  ⟨[], [], start, start, start, [], 0, false, false, 0, 0, [], []⟩

def appendSpan (source : Text) (parser : CsvParser) (stop : ℕ) : CsvParser :=
  if parser.start < stop then
    { parser with
      parts := parser.parts ++ [slice source parser.start stop]
      fieldLength := parser.fieldLength + (stop - parser.start) }
  else parser

def pushField (source : Text) (limits : CsvParseLimits) (parser : CsvParser) (stop : ℕ) :
    Except String CsvParser :=
  if reaches limits.maxColumns parser.row.length || exceeds limits.maxCells (parser.cells + 1) then
    .error tooManyCells
  else
    let value := if parser.parts ≠ [] then (parser.appendSpan source stop).parts.flatten
      else slice source parser.start stop
    .ok { parser with
      cells := parser.cells + 1
      row := parser.row ++ [value]
      onField := parser.onField ++ [(parser.fieldStart, stop)]
      parts := []
      fieldLength := 0
      start := stop + 1
      fieldStart := stop + 1 }

def pushRow (source : Text) (limits : CsvParseLimits) (parser : CsvParser) (stop next : ℕ) :
    Except String CsvParser :=
  if exceeds limits.maxRecordLength (stop - parser.recordStart) then .error recordTooLarge
  else
    (parser.pushField source limits stop).map fun pushed =>
      { pushed with
        maxColumns := max pushed.maxColumns pushed.row.length
        rows := if limits.retainRows then pushed.rows ++ [pushed.row] else pushed.rows
        onRecord := pushed.onRecord ++ [(pushed.recordStart, stop, next)]
        row := []
        hasContent := false
        start := next
        recordStart := next
        fieldStart := next }

/-- The body of the loop at position `i`, and how far `i` goes on. -/
def step (source : Text) (delimiter : UInt16) (limits : CsvParseLimits) (parser : CsvParser)
    (i : ℕ) (ch : UInt16) : Except String (CsvParser × ℕ) :=
  if reaches limits.maxRecordLength (i - parser.recordStart) &&
      (parser.inQuotes || (ch != carriageReturn && ch != lineFeed)) then
    .error recordTooLarge
  else if parser.inQuotes then
    if ch = quote then
      let spanned := parser.appendSpan source i
      if source[i + 1]? = some quote then
        .ok ({ spanned with
          parts := spanned.parts ++ [[quote]]
          fieldLength := spanned.fieldLength + 1
          start := i + 2 }, i + 2)
      else .ok ({ spanned with inQuotes := false, start := i + 1 }, i + 1)
    else .ok (parser, i + 1)
  else if ch = quote ∧ parser.fieldLength + i - parser.start = 0 then
    .ok ({ parser with inQuotes := true, hasContent := true, start := i + 1 }, i + 1)
  else if ch = delimiter then
    (parser.pushField source limits i).map fun pushed => ({ pushed with hasContent := true }, i + 1)
  else if ch = carriageReturn ∨ ch = lineFeed then
    let last := if ch = carriageReturn ∧ source[i + 1]? = some lineFeed then i + 1 else i
    (parser.pushRow source limits i (last + 1)).map fun pushed => (pushed, last + 1)
  else .ok ({ parser with hasContent := true }, i + 1)

def loop (source : Text) (delimiter : UInt16) (limits : CsvParseLimits) :
    ℕ → CsvParser → ℕ → Except String CsvParser
  | 0, parser, _ => .ok parser
  | rounds + 1, parser, i =>
    match source[i]? with
    | none => .ok parser
    | some ch =>
      match step source delimiter limits parser i ch with
      | .error error => .error error
      | .ok (next, i) => loop source delimiter limits rounds next i

def finish (source : Text) (limits : CsvParseLimits) (parser : CsvParser) :
    Except String CsvParser :=
  if parser.hasContent || parser.row.length != 0 then
    parser.pushRow source limits source.length source.length
  else .ok parser

end CsvParser

def contentStart (source : Text) (limits : CsvParseLimits) : ℕ :=
  if limits.stripBom && source.head? == some byteOrderMark then 1 else 0

/-- `parseCsv(source, delimiter, limits)`; the rows and the largest width are among what the
loop leaves. -/
def parseCsv (source : Text) (delimiter : UInt16) (limits : CsvParseLimits) :
    Except String CsvParser :=
  ((CsvParser.loop source delimiter limits source.length
      (.initial (contentStart source limits)) (contentStart source limits))).bind
    (CsvParser.finish source limits)

end OxeeUI.Csv

/-!
## The byte index of delimited values

Bytes are consumed one at a time, whatever chunks they come in; rows are gathered into
pages of bounded size.  The first three bytes wait until a byte order mark is ruled out.
-/

namespace OxeeUI.Csv

def csvRecordBytes : ℕ := 1024 * 1024
def csvMaxColumns : ℕ := 4096
def pageRows : ℕ := 256
def pageBytes : ℕ := 64 * 1024
def csvPageCells : ℕ := 16 * 1024
def maxPages : ℕ := 100000

structure CsvPageRange where
  start : ℕ
  stop : ℕ
  firstRow : ℕ
  rowCount : ℕ
deriving DecidableEq

structure CsvIndex where
  pages : List CsvPageRange
  rowCount : ℕ
  columnCount : ℕ
deriving DecidableEq

/-- What `consume` reads and writes. -/
structure CsvScan where
  rowStart : ℕ
  pageStart : ℕ
  pageFirstRow : ℕ
  pageCells : ℕ
  rowCount : ℕ
  columns : ℕ
  columnCount : ℕ
  fieldEmpty : Bool
  hasContent : Bool
  inQuotes : Bool
  pendingQuote : Bool
  pendingCR : Bool
  pages : List CsvPageRange

structure CsvByteIndex where
  position : ℕ
  prefixBytes : List UInt8
  scan : CsvScan

def recordExceedsLimit : String := "CSV record exceeds the 1 MB preview limit."
def tooManyPages : String := "CSV has too many pages to preview safely."
def tooManyColumns : String := "CSV exceeds the 4,096 column preview limit."
def binaryData : String := "This file contains binary data."

namespace CsvScan

def initial : CsvScan := ⟨0, 0, 0, 0, 0, 1, 0, true, false, false, false, false, []⟩

def checkpoint (scan : CsvScan) (stop : ℕ) : Except String CsvScan :=
  if scan.rowCount = scan.pageFirstRow then .ok scan
  else if maxPages ≤ scan.pages.length then .error tooManyPages
  else
    .ok { scan with
      pages := scan.pages ++
        [⟨scan.pageStart, stop, scan.pageFirstRow, scan.rowCount - scan.pageFirstRow⟩]
      pageStart := stop
      pageFirstRow := scan.rowCount
      pageCells := 0 }

/-- The row is counted, on a page of its own where it does not fit on the current one. -/
def countRow (scan : CsvScan) (stop : ℕ) : Except String CsvScan :=
  if pageBytes < stop - scan.pageStart || csvPageCells < scan.pageCells + scan.columns then
    (scan.checkpoint scan.rowStart).map fun scan =>
      { scan with
        rowCount := scan.rowCount + 1
        columnCount := max scan.columnCount scan.columns
        pageCells := scan.pageCells + scan.columns }
  else
    .ok { scan with
      rowCount := scan.rowCount + 1
      columnCount := max scan.columnCount scan.columns
      pageCells := scan.pageCells + scan.columns }

/-- The page ends behind the row where it is full. -/
def fillPage (scan : CsvScan) (stop : ℕ) : Except String CsvScan :=
  if pageRows ≤ scan.rowCount - scan.pageFirstRow || pageBytes ≤ stop - scan.pageStart ||
      csvPageCells ≤ scan.pageCells then
    scan.checkpoint stop
  else .ok scan

def emitRow (scan : CsvScan) (stop contentEnd : ℕ) : Except String CsvScan :=
  if csvRecordBytes < contentEnd - scan.rowStart then .error recordExceedsLimit
  else
    ((scan.countRow stop).bind fun counted => counted.fillPage stop).map fun filled =>
      { filled with rowStart := stop, columns := 1, fieldEmpty := true, hasContent := false }

/-- `consume`, from where a pending carriage return was settled and the limits were checked. -/
def read (delimiter : UInt8) (scan : CsvScan) (byte : UInt8) (at' : ℕ) : Except String CsvScan :=
  if scan.inQuotes && scan.pendingQuote && byte == 34 then
    .ok { scan with pendingQuote := false, fieldEmpty := false }
  else
    let scan := if scan.inQuotes && scan.pendingQuote then
      { scan with pendingQuote := false, inQuotes := false } else scan
    if scan.inQuotes then
      if byte = 34 then .ok { scan with pendingQuote := true }
      else .ok { scan with fieldEmpty := false }
    else if byte = 34 ∧ scan.fieldEmpty then .ok { scan with inQuotes := true, hasContent := true }
    else if byte = delimiter then
      if csvMaxColumns < scan.columns + 1 then .error tooManyColumns
      else .ok { scan with columns := scan.columns + 1, fieldEmpty := true, hasContent := true }
    else if byte = 13 then .ok { scan with pendingCR := true }
    else if byte = 10 then scan.emitRow (at' + 1) at'
    else .ok { scan with fieldEmpty := false, hasContent := true }

def checked (delimiter : UInt8) (scan : CsvScan) (byte : UInt8) (at' : ℕ) : Except String CsvScan :=
  let endsRecord := (byte == 13 || byte == 10) && (!scan.inQuotes || scan.pendingQuote)
  if csvRecordBytes < at' + (if endsRecord then 0 else 1) - scan.rowStart then
    .error recordExceedsLimit
  else if byte = 0 then .error binaryData
  else scan.read delimiter byte at'

def consume (delimiter : UInt8) (scan : CsvScan) (byte : UInt8) (at' : ℕ) : Except String CsvScan :=
  if scan.pendingCR then
    (emitRow { scan with pendingCR := false } (if byte = 10 then at' + 1 else at') (at' - 1)).bind
      fun emitted => if byte = 10 then .ok emitted else emitted.checked delimiter byte at'
  else scan.checked delimiter byte at'

/-- Bytes consumed one after the other, the first of them at a position. -/
def consumeFrom (delimiter : UInt8) : CsvScan → ℕ → List UInt8 → Except String CsvScan
  | scan, _, [] => .ok scan
  | scan, at', byte :: bytes =>
    (scan.consume delimiter byte at').bind fun scan => consumeFrom delimiter scan (at' + 1) bytes

def consumePrefix (delimiter : UInt8) (scan : CsvScan) (prefixBytes : List UInt8) :
    Except String CsvScan :=
  if prefixBytes = [239, 187, 191] then .ok { scan with rowStart := 3 }
  else consumeFrom delimiter scan 0 prefixBytes

/-- `finish`, from where the first bytes were consumed. -/
def finish (scan : CsvScan) (position : ℕ) : Except String CsvIndex :=
  ((if scan.pendingCR || scan.hasContent || 1 < scan.columns then
      scan.emitRow position (position - if scan.pendingCR then 1 else 0)
    else .ok scan).bind fun scan => scan.checkpoint position).map fun scan =>
      ⟨scan.pages, scan.rowCount, scan.columnCount⟩

end CsvScan

namespace CsvByteIndex

def initial : CsvByteIndex := ⟨0, [], .initial⟩

def feedByte (delimiter : UInt8) (index : CsvByteIndex) (byte : UInt8) : Except String CsvByteIndex :=
  let at' := index.position
  if at' < 3 then
    let prefixBytes := index.prefixBytes ++ [byte]
    if at' = 2 then
      (index.scan.consumePrefix delimiter prefixBytes).map fun scan => ⟨at' + 1, [], scan⟩
    else .ok ⟨at' + 1, prefixBytes, index.scan⟩
  else (index.scan.consume delimiter byte at').map fun scan => ⟨at' + 1, index.prefixBytes, scan⟩

def feed (delimiter : UInt8) (index : CsvByteIndex) (bytes : List UInt8) :
    Except String CsvByteIndex :=
  bytes.foldlM (feedByte delimiter) index

def finish (delimiter : UInt8) (index : CsvByteIndex) : Except String CsvIndex :=
  (if index.position < 3 then index.scan.consumePrefix delimiter index.prefixBytes
    else .ok index.scan).bind fun scan => scan.finish index.position

end CsvByteIndex

def indexChunks (delimiter : UInt8) (chunks : List (List UInt8)) : Except String CsvIndex :=
  (chunks.foldlM (CsvByteIndex.feed delimiter) .initial).bind (CsvByteIndex.finish delimiter)

/-- The binary search, in as many rounds as may be left. -/
def searchPages (pages : List CsvPageRange) (row : ℕ) : ℕ → ℕ → ℕ → ℕ
  | 0, low, _ => low
  | rounds + 1, low, high =>
    if low < high then
      let mid := (low + high + 1) / 2
      if (pages[mid]?.map (·.firstRow)).getD 0 ≤ row then searchPages pages row rounds mid high
      else searchPages pages row rounds low (mid - 1)
    else low

def csvPageForRow (pages : List CsvPageRange) (row : ℕ) : ℕ :=
  searchPages pages row pages.length 0 (pages.length - 1)

end OxeeUI.Csv
