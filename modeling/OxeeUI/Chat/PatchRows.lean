import OxeeUI.Chat.UnifiedPatch
import Mathlib.Data.List.Forall2

/-!
# Printed patches

The edits of files as a unified diff prints them, and the rows and sections that
reading it back is to give.
-/

namespace OxeeUI.Chat

open Library

section Edits

structure PatchLine where
  text : Text
  noFeed : lineFeed ∉ text
  noReturn : text.getLast? ≠ some carriageReturn

inductive PatchMark where
  | context
  | removed
  | added
  deriving DecidableEq

structure PatchRow where
  mark : PatchMark
  line : PatchLine

/-- A hunk; `heading` is what stands behind its ranges, and line numbers are safe integers. -/
structure PatchHunk where
  oldStart : ℕ
  newStart : ℕ
  rows : List PatchRow
  heading : PatchLine
  nonempty : rows ≠ []
  safe : oldStart + rows.length < safeIntegerBound ∧ newStart + rows.length < safeIntegerBound

/-- Whether a file is there on both sides, or only on one. -/
inductive PatchChange where
  | edited
  | added
  | deleted
  deriving DecidableEq

/-- A path has no tab and does not end in white space. -/
structure PatchPath where
  text : Text
  noFeed : lineFeed ∉ text
  noTab : tab ∉ text
  noSpace : ∀ unit, text.getLast? = some unit → isTrimmedUnit unit = false

structure PatchFile where
  path : PatchPath
  change : PatchChange
  hasGitHeader : Bool
  hunks : List PatchHunk
  nonempty : hunks ≠ []

end Edits

section Print

def PatchMark.unit : PatchMark → UInt16
  | context => 32
  | removed => 45
  | added => 43

def PatchRow.text (row : PatchRow) : Text := row.mark.unit :: row.line.text

def PatchRow.isOld (row : PatchRow) : Bool := row.mark ≠ .added
def PatchRow.isNew (row : PatchRow) : Bool := row.mark ≠ .removed

def rangeText (start count : ℕ) : Text :=
  decimalText start ++ if count = 1 then [] else unitsOf "," ++ decimalText count

def PatchHunk.header (hunk : PatchHunk) : Text :=
  hunkMark ++ (unitsOf " -" ++ (rangeText hunk.oldStart (hunk.rows.countP PatchRow.isOld) ++
    (unitsOf " +" ++ (rangeText hunk.newStart (hunk.rows.countP PatchRow.isNew) ++
      (unitsOf " @@" ++ hunk.heading.text)))))

def PatchHunk.printed (hunk : PatchHunk) : List Text := hunk.header :: hunk.rows.map PatchRow.text

def absentPath : Text := unitsOf "/dev/null"

def PatchFile.oldHeader (file : PatchFile) : Text :=
  oldHeaderMark ++ if file.change = .added then absentPath else oldPathMark ++ file.path.text

def PatchFile.newHeader (file : PatchFile) : Text :=
  newHeaderMark ++ if file.change = .deleted then absentPath else newPathMark ++ file.path.text

def PatchFile.gitHeader (file : PatchFile) : Text :=
  gitDiffHeader ++ (oldPathMark ++ (file.path.text ++ (unitsOf " b/" ++ file.path.text)))

def hunkRows (hunks : List PatchHunk) : List Text := hunks.flatMap PatchHunk.printed

def PatchFile.printed (file : PatchFile) : List Text :=
  (if file.hasGitHeader then [file.gitHeader] else []) ++
    file.oldHeader :: file.newHeader :: hunkRows file.hunks

def printedRows (files : List PatchFile) : List Text := files.flatMap PatchFile.printed

def printPatch (files : List PatchFile) : Text := (printedRows files).flatMap (· ++ [lineFeed])

end Print

section Expected

/-- The rows from where the numbers of both sides stand. -/
def numberedRows : ℕ → ℕ → List PatchRow → List NativeChatEditLine
  | _, _, [] => []
  | oldNo, newNo, row :: rest =>
    match row.mark with
    | .context =>
      .contextLine row.line.text oldNo newNo :: numberedRows (oldNo + 1) (newNo + 1) rest
    | .removed => .removal row.line.text oldNo :: numberedRows (oldNo + 1) newNo rest
    | .added => .addition row.line.text newNo :: numberedRows oldNo (newNo + 1) rest

def PatchHunk.lines (hunk : PatchHunk) : List NativeChatEditLine :=
  numberedRows hunk.oldStart hunk.newStart hunk.rows

/-- The rows of the hunks, with a gap between two of them. -/
def PatchFile.lines (file : PatchFile) : List NativeChatEditLine :=
  List.intercalate [.gapLine] (file.hunks.map PatchHunk.lines)

def PatchChange.kind : PatchChange → NativeChatEditChangeKind
  | edited => .edited
  | added => .added
  | deleted => .deleted

/-- A section names the file and has exactly its rows. -/
structure Reads (parsed : UnifiedPatchSection) (file : PatchFile) : Prop where
  path : parsed.path = some file.path.text
  oldPath : parsed.oldPath = none
  changeKind : parsed.changeKind = file.change.kind
  lines : editLinesFromUnifiedPatch parsed.body false = some ⟨file.lines, true, false⟩

def ParsesBack (files : List PatchFile) : Prop :=
  List.Forall₂ Reads (unifiedPatchSections (printPatch files)).sections files ∧
    (unifiedPatchSections (printPatch files)).truncated = false

/-- A removed line that begins with `-- ` and an added one that begins with `++ `. -/
def looksLikeHeaders (first second : PatchRow) : Bool :=
  (first.mark = .removed && startsWith (unitsOf "-- ") first.line.text) &&
    (second.mark = .added && startsWith (unitsOf "++ ") second.line.text)

/-- The last two rows print as a pair of file headers. -/
def endsLikeHeaders : List PatchRow → Bool
  | first :: second :: rest =>
    if rest = [] then looksLikeHeaders first second else endsLikeHeaders (second :: rest)
  | _ => false

def Unambiguous (files : List PatchFile) : Prop :=
  ∀ file ∈ files, ∀ hunk ∈ file.hunks.dropLast, endsLikeHeaders hunk.rows = false

end Expected

end OxeeUI.Chat

/-!
## Printed rows are read back

The text of rows splits into them again, and the rows of the hunks of a file give
its lines with their numbers.
-/

namespace OxeeUI.Chat

open Library

section Split

structure IsRow (row : Text) : Prop where
  noFeed : lineFeed ∉ row
  noReturn : row.getLast? ≠ some carriageReturn

theorem splitLines_append {row : Text} (isRow : IsRow row) (rest : Text) :
    splitLines (row ++ lineFeed :: rest) = row :: splitLines rest := by
  obtain ⟨noFeed, noReturn⟩ := isRow
  induction row with
  | nil =>
    cases rest with
    | nil => rfl
    | cons unit rest =>
      have notReturn : ¬(lineFeed = carriageReturn ∧ unit = lineFeed) := by
        rintro ⟨same, _⟩
        exact absurd same (by decide)
      rw [List.nil_append, splitLines, if_neg notReturn, if_pos rfl]
  | cons unit row ih =>
    rw [List.mem_cons, not_or] at noFeed
    have later : splitLines (row ++ lineFeed :: rest) = row :: splitLines rest := by
      apply ih noFeed.2
      intro last
      apply noReturn
      cases row with
      | nil => cases last
      | cons second row => exact last
    cases row with
    | nil =>
      have notReturn : ¬(unit = carriageReturn ∧ lineFeed = lineFeed) := by
        rintro ⟨rfl, _⟩
        exact noReturn rfl
      rw [List.nil_append] at later
      rw [List.singleton_append, splitLines, if_neg notReturn, if_neg (Ne.symm noFeed.1), later]
    | cons second row =>
      have notFeed : ¬(unit = carriageReturn ∧ second = lineFeed) := by
        rintro ⟨_, rfl⟩
        exact noFeed.2 List.mem_cons_self
      rw [List.cons_append] at later
      rw [List.cons_append, List.cons_append, splitLines, if_neg notFeed,
        if_neg (Ne.symm noFeed.1), later]

theorem splitLines_row {row : Text} (isRow : IsRow row) : splitLines row = [row] := by
  obtain ⟨noFeed, noReturn⟩ := isRow
  induction row with
  | nil => rfl
  | cons unit row ih =>
    rw [List.mem_cons, not_or] at noFeed
    cases row with
    | nil => rw [splitLines, if_neg (Ne.symm noFeed.1)]
    | cons second row =>
      have later := ih noFeed.2 (fun last => noReturn last)
      have notFeed : ¬(unit = carriageReturn ∧ second = lineFeed) := by
        rintro ⟨_, rfl⟩
        exact noFeed.2 List.mem_cons_self
      rw [splitLines, if_neg notFeed, if_neg (Ne.symm noFeed.1), later]

theorem splitLines_printed {rows : List Text} (isRow : ∀ row ∈ rows, IsRow row) :
    splitLines (rows.flatMap (· ++ [lineFeed])) = rows ++ [[]] := by
  induction rows with
  | nil => rfl
  | cons row rows ih =>
    rw [List.flatMap_cons, List.append_assoc, List.singleton_append,
      splitLines_append (isRow row List.mem_cons_self),
      ih fun other member => isRow other (List.mem_cons_of_mem _ member)]
    rfl

theorem joinRows_singleton (row : Text) : joinRows [row] = row := List.append_nil row

theorem joinRows_cons_cons (row second : Text) (rows : List Text) :
    joinRows (row :: second :: rows) = row ++ lineFeed :: joinRows (second :: rows) := by
  unfold joinRows
  rw [List.intercalate_cons_cons, List.append_assoc]
  rfl

theorem splitLines_joinRows {rows : List Text} (nonempty : rows ≠ [])
    (isRow : ∀ row ∈ rows, IsRow row) : splitLines (joinRows rows) = rows := by
  induction rows with
  | nil => exact absurd rfl nonempty
  | cons row rows ih =>
    have first := isRow row List.mem_cons_self
    cases rows with
    | nil =>
      rw [joinRows_singleton]
      exact splitLines_row first
    | cons second rows =>
      rw [joinRows_cons_cons, splitLines_append first, ih (List.cons_ne_nil _ _)
        fun other member => isRow other (List.mem_cons_of_mem _ member)]

theorem joinRows_append_feed {rows : List Text} (nonempty : rows ≠ []) :
    joinRows rows ++ [lineFeed] = rows.flatMap (· ++ [lineFeed]) := by
  induction rows with
  | nil => exact absurd rfl nonempty
  | cons row rows ih =>
    cases rows with
    | nil =>
      rw [joinRows_singleton]
      exact (List.append_nil _).symm
    | cons second rows =>
      rw [List.flatMap_cons, ← ih (List.cons_ne_nil _ _), joinRows_cons_cons, List.append_assoc,
        List.append_assoc]
      rfl

theorem getLast?_joinRows {rows : List Text} (nonempty : rows ≠ [])
    (isRow : ∀ row ∈ rows, IsRow row ∧ row ≠ []) :
    (joinRows rows).getLast? ≠ some lineFeed ∧ joinRows rows ≠ [] := by
  induction rows with
  | nil => exact absurd rfl nonempty
  | cons row rows ih =>
    obtain ⟨first, something⟩ := isRow row List.mem_cons_self
    cases rows with
    | nil =>
      rw [joinRows_singleton]
      exact ⟨fun last => first.noFeed (List.mem_of_getLast? last), something⟩
    | cons second rows =>
      obtain ⟨last, rest⟩ := ih (List.cons_ne_nil _ _)
        fun other member => isRow other (List.mem_cons_of_mem _ member)
      rw [joinRows_cons_cons, List.append_cons, List.getLast?_append_of_ne_nil _ rest]
      refine ⟨last, fun none => rest (List.append_eq_nil_iff.mp none).2⟩

theorem splitEditContent_printed {rows : List Text} (isRow : ∀ row ∈ rows, IsRow row)
    (short : (rows.flatMap (· ++ [lineFeed])).length ≤ maxEditChars) :
    splitEditContent (rows.flatMap (· ++ [lineFeed])) = ⟨rows, false⟩ := by
  cases rows with
  | nil => rfl
  | cons row rows =>
    have split := splitLines_printed isRow
    have last : ((row :: rows).flatMap (· ++ [lineFeed])).getLast? = some lineFeed := by
      rw [← joinRows_append_feed (List.cons_ne_nil row rows)]
      exact List.getLast?_concat
    have nonempty : ¬((row :: rows).flatMap (· ++ [lineFeed])).length = 0 := by
      rw [← joinRows_append_feed (List.cons_ne_nil row rows), List.length_append]
      exact Nat.succ_ne_zero _
    unfold splitEditContent
    rw [if_neg nonempty]
    dsimp only
    rw [decide_eq_false (Nat.not_lt.mpr short), if_neg Bool.false_ne_true, last, if_pos rfl, split,
      List.dropLast_concat]

theorem splitEditContent_joinRows {rows : List Text} (nonempty : rows ≠ [])
    (isRow : ∀ row ∈ rows, IsRow row ∧ row ≠ []) (short : (joinRows rows).length ≤ maxEditChars) :
    splitEditContent (joinRows rows) = ⟨rows, false⟩ := by
  obtain ⟨last, something⟩ := getLast?_joinRows nonempty isRow
  have split := splitLines_joinRows nonempty fun row member => (isRow row member).1
  unfold splitEditContent
  rw [if_neg (fun none => something (List.length_eq_zero_iff.mp none))]
  dsimp only
  rw [decide_eq_false (Nat.not_lt.mpr short), if_neg Bool.false_ne_true, if_neg last, split]

end Split

section Ranges

theorem afterText?_append (start rest : Text) : afterText? start (start ++ rest) = some rest := by
  have starts : startsWith start (start ++ rest) = true :=
    List.isPrefixOf_iff_prefix.mpr (List.prefix_append start rest)
  unfold afterText?
  rw [starts, if_pos rfl, List.drop_left]

/-- What follows a number does not go on with a digit. -/
def StopsDigits (rest : Text) : Prop := ∀ unit, rest.head? = some unit → isDecimalUnit unit = false

theorem takeWhile_digits_append {digits rest : Text}
    (all : ∀ unit ∈ digits, isDecimalUnit unit = true) (stops : StopsDigits rest) :
    (digits ++ rest).takeWhile isDecimalUnit = digits ∧
      (digits ++ rest).dropWhile isDecimalUnit = rest := by
  induction digits with
  | nil =>
    cases rest with
    | nil => exact ⟨rfl, rfl⟩
    | cons unit rest =>
      have stop : ¬isDecimalUnit unit = true := Bool.eq_false_iff.mp (stops unit rfl)
      rw [List.nil_append, List.takeWhile_cons_of_neg stop, List.dropWhile_cons_of_neg stop]
      exact ⟨rfl, rfl⟩
  | cons unit digits ih =>
    obtain ⟨taken, dropped⟩ := ih fun other member => all other (List.mem_cons_of_mem _ member)
    have digit := all unit List.mem_cons_self
    rw [List.cons_append, List.takeWhile_cons_of_pos digit, List.dropWhile_cons_of_pos digit, taken]
    exact ⟨rfl, dropped⟩

theorem leadingNumber?_decimalText (number : ℕ) {rest : Text} (stops : StopsDigits rest) :
    leadingNumber? (decimalText number ++ rest) = some (number, rest) := by
  have all : ∀ unit ∈ decimalText number, isDecimalUnit unit = true := by
    intro unit member
    obtain ⟨lower, upper⟩ := mem_decimalText member
    unfold isDecimalUnit
    rw [Bool.and_eq_true, decide_eq_true_eq, decide_eq_true_eq]
    exact ⟨lower, upper⟩
  obtain ⟨taken, dropped⟩ := takeWhile_digits_append all stops
  unfold leadingNumber?
  dsimp only
  rw [taken, dropped, if_neg (decimalText_ne_nil number), decimalValue_decimalText]

theorem rangeText_read (start count : ℕ) (rest : Text) : ∃ behind,
    leadingNumber? (rangeText start count ++ 32 :: rest) = some (start, behind) ∧
      afterCount behind = 32 :: rest := by
  have space : StopsDigits (32 :: rest) := by
    intro unit head
    cases head
    decide
  unfold rangeText
  by_cases one : count = 1
  · rw [if_pos one, List.append_nil]
    exact ⟨_, leadingNumber?_decimalText start space, rfl⟩
  · rw [if_neg one, List.append_assoc]
    refine ⟨_, leadingNumber?_decimalText start ?_, ?_⟩
    · intro unit head
      cases head
      decide
    · have counted := leadingNumber?_decimalText count space
      unfold afterCount
      rw [List.append_assoc, afterText?_append]
      dsimp only
      rw [counted]

theorem hunkRanges?_header (hunk : PatchHunk) :
    hunkRanges? hunk.header = some (hunk.oldStart, hunk.newStart) := by
  obtain ⟨behindOld, readOld, countedOld⟩ := rangeText_read hunk.oldStart
    (hunk.rows.countP PatchRow.isOld) (43 :: (rangeText hunk.newStart
      (hunk.rows.countP PatchRow.isNew) ++ (unitsOf " @@" ++ hunk.heading.text)))
  obtain ⟨behindNew, readNew, countedNew⟩ := rangeText_read hunk.newStart
    (hunk.rows.countP PatchRow.isNew) (64 :: 64 :: hunk.heading.text)
  have dropped : ∀ rest : Text, (unitsOf " -" ++ rest).dropWhile (· = 64) = unitsOf " -" ++ rest :=
    fun _ => rfl
  have new : afterText? (unitsOf " +") (32 :: 43 :: (rangeText hunk.newStart
      (hunk.rows.countP PatchRow.isNew) ++ (unitsOf " @@" ++ hunk.heading.text))) =
      some (rangeText hunk.newStart (hunk.rows.countP PatchRow.isNew) ++
        (unitsOf " @@" ++ hunk.heading.text)) := afterText?_append (unitsOf " +") _
  have closing : afterText? (unitsOf " @@") (32 :: 64 :: 64 :: hunk.heading.text) =
      some hunk.heading.text := afterText?_append (unitsOf " @@") _
  have plus : ∀ rest : Text, unitsOf " +" ++ rest = 32 :: 43 :: rest := fun _ => rfl
  have marks : ∀ rest : Text, unitsOf " @@" ++ rest = 32 :: 64 :: 64 :: rest := fun _ => rfl
  rw [marks] at readOld countedOld new
  unfold hunkRanges? PatchHunk.header
  rw [afterText?_append]
  simp only [Option.bind_eq_bind, Option.bind_some, dropped, afterText?_append, plus, marks, readOld,
    countedOld, new, readNew, countedNew, closing]
  rfl

end Ranges

section Visit

theorem isFileSectionStart_of_mark {unit : UInt16} (mark : unit ∈ ([32, 43, 45, 64] : List UInt16))
    (text : Text) : isFileSectionStart (unit :: text) = false := by
  simp only [List.mem_cons, List.not_mem_nil, or_false] at mark
  rcases mark with rfl | rfl | rfl | rfl <;> rfl

theorem mark_mem (mark : PatchMark) : mark.unit ∈ ([32, 43, 45, 64] : List UInt16) := by
  cases mark with
  | context => decide
  | removed => decide
  | added => decide

theorem row_not_hunk (row : PatchRow) : startsWith hunkMark row.text = false := by
  obtain ⟨mark, line⟩ := row
  cases mark with
  | context => rfl
  | removed => rfl
  | added => rfl

theorem row_not_escape (row : PatchRow) : row.text.head? ≠ some 92 := by
  intro same
  have marks : ∀ unit ∈ ([32, 43, 45, 64] : List UInt16), unit ≠ 92 :=
    forall_mem_of_all (by decide)
  exact marks row.mark.unit (mark_mem row.mark) (Option.some.inj same)

theorem visitRows_row {visit : PatchVisit} (inHunk : visit.inHunk = true) (row : PatchRow)
    (rest : List Text) :
    visitRows (row.text :: rest) false visit = visitRows rest false (visit.row row.text) := by
  have notSection : isFileSectionStart row.text = false :=
    isFileSectionStart_of_mark (mark_mem row.mark) row.line.text
  rw [visitRows, row_not_hunk, if_neg Bool.false_ne_true, if_neg (row_not_escape row), inHunk,
    notSection]
  rfl

/-- Where the visit stands within a hunk with ranges. -/
structure Numbered (visit : PatchVisit) (oldNo newNo : ℕ) : Prop where
  old : visit.oldNo = some oldNo
  new : visit.newNo = some newNo
  sawHunk : visit.sawHunk = true
  ranged : visit.ranged = true
  inHunk : visit.inHunk = true

theorem Numbered.row {visit : PatchVisit} {oldNo newNo : ℕ} (numbered : Numbered visit oldNo newNo)
    (row : PatchRow) (rows : List PatchRow) : ∃ stepOld stepNew line,
      Numbered (visit.row row.text) stepOld stepNew ∧
        (visit.row row.text).lines = visit.lines ++ [line] ∧
        (visit.row row.text).lastWasGap = false ∧
        numberedRows oldNo newNo (row :: rows) = line :: numberedRows stepOld stepNew rows := by
  obtain ⟨lines, lastWasGap, old, new, sawHunk, ranged, inHunk⟩ := visit
  obtain ⟨rfl, rfl, rfl, rfl, rfl⟩ := numbered
  obtain ⟨mark, line⟩ := row
  cases mark with
  | context => exact ⟨oldNo + 1, newNo + 1, _, ⟨rfl, rfl, rfl, rfl, rfl⟩, rfl, rfl, rfl⟩
  | removed => exact ⟨oldNo + 1, newNo, _, ⟨rfl, rfl, rfl, rfl, rfl⟩, rfl, rfl, rfl⟩
  | added => exact ⟨oldNo, newNo + 1, _, ⟨rfl, rfl, rfl, rfl, rfl⟩, rfl, rfl, rfl⟩

theorem visitRows_rows {visit : PatchVisit} {oldNo newNo : ℕ} (numbered : Numbered visit oldNo newNo)
    (rows : List PatchRow) (rest : List Text) : ∃ after lastOld lastNew,
      visitRows (rows.map PatchRow.text ++ rest) false visit = visitRows rest false after ∧
        Numbered after lastOld lastNew ∧
        after.lines = visit.lines ++ numberedRows oldNo newNo rows ∧
        (rows ≠ [] ∨ visit.lastWasGap = false → after.lastWasGap = false) := by
  induction rows generalizing visit oldNo newNo with
  | nil =>
    refine ⟨visit, oldNo, newNo, rfl, numbered, (List.append_nil _).symm, fun reason => ?_⟩
    rcases reason with none | noGap
    · exact absurd rfl none
    · exact noGap
  | cons row rows ih =>
    obtain ⟨stepOld, stepNew, line, stepped, lines, noGap, shape⟩ := numbered.row row rows
    obtain ⟨after, lastOld, lastNew, visited, numberedAfter, linesAfter, noGapAfter⟩ := ih stepped
    refine ⟨after, lastOld, lastNew, ?_, numberedAfter, ?_, fun _ => noGapAfter (Or.inr noGap)⟩
    · rw [List.map_cons, List.cons_append, visitRows_row numbered.inHunk]
      exact visited
    · rw [linesAfter, lines, shape, List.append_assoc]
      rfl

/-- Where the visit stands between hunks, all of them with ranges. -/
structure Between (visit : PatchVisit) : Prop where
  ranged : visit.ranged = true
  noGap : visit.lastWasGap = false

theorem numberedRows_ne_nil {oldNo newNo : ℕ} {rows : List PatchRow} (nonempty : rows ≠ []) :
    numberedRows oldNo newNo rows ≠ [] := by
  obtain ⟨⟨mark, line⟩, rest, rfl⟩ := List.exists_cons_of_ne_nil nonempty
  cases mark with
  | context => exact List.cons_ne_nil _ _
  | removed => exact List.cons_ne_nil _ _
  | added => exact List.cons_ne_nil _ _

/-- A hunk gives its lines, behind a gap where there are lines already. -/
theorem visitRows_hunk {visit : PatchVisit} (between : Between visit) (hunk : PatchHunk)
    (rest : List Text) : ∃ after,
      visitRows (hunk.printed ++ rest) false visit = visitRows rest false after ∧
        Between after ∧ after.sawHunk = true ∧
        after.lines = (if visit.lines = [] then [] else visit.lines ++ [.gapLine]) ++ hunk.lines := by
  have isHunk : startsWith hunkMark hunk.header = true :=
    List.isPrefixOf_iff_prefix.mpr (List.prefix_append _ _)
  have opened : Numbered (visit.openHunk hunk.header) hunk.oldStart hunk.newStart := by
    have ranges := hunkRanges?_header hunk
    refine ⟨?_, ?_, rfl, between.ranged, rfl⟩
    · exact congrArg (Option.map Prod.fst) ranges
    · exact congrArg (Option.map Prod.snd) ranges
  have lines : (visit.openHunk hunk.header).lines =
      if visit.lines = [] then [] else visit.lines ++ [.gapLine] := by
    unfold PatchVisit.openHunk
    dsimp only
    rw [between.noGap]
    by_cases none : visit.lines = []
    · rw [none]
      rfl
    · have some : 0 < visit.lines.length := List.length_pos_iff.mpr none
      rw [if_neg none, decide_eq_true some]
      rfl
  obtain ⟨after, _, _, visited, numbered, linesAfter, noGap⟩ :=
    visitRows_rows opened hunk.rows rest
  refine ⟨after, ?_, ⟨numbered.ranged, noGap (Or.inl hunk.nonempty)⟩, numbered.sawHunk, ?_⟩
  · unfold PatchHunk.printed
    rw [List.cons_append, visitRows, isHunk, if_pos rfl]
    exact visited
  · rw [linesAfter, lines]
    rfl

theorem visitRows_more {visit : PatchVisit} (between : Between visit) (some : visit.lines ≠ [])
    (sawHunk : visit.sawHunk = true) (hunks : List PatchHunk) : ∃ after,
      visitRows (hunkRows hunks) false visit = after ∧ Between after ∧ after.sawHunk = true ∧
        after.lines = visit.lines ++ hunks.flatMap fun hunk => .gapLine :: hunk.lines := by
  induction hunks generalizing visit with
  | nil => exact ⟨visit, rfl, between, sawHunk, (List.append_nil _).symm⟩
  | cons hunk hunks ih =>
    obtain ⟨middle, visited, betweenMiddle, sawMiddle, lines⟩ :=
      visitRows_hunk between hunk (hunkRows hunks)
    rw [if_neg some] at lines
    have someMiddle : middle.lines ≠ [] := by
      rw [lines]
      exact fun none => some (List.append_eq_nil_iff.mp (List.append_eq_nil_iff.mp none).1).1
    obtain ⟨after, rest, betweenAfter, sawAfter, linesAfter⟩ :=
      ih betweenMiddle someMiddle sawMiddle
    refine ⟨after, visited.trans rest, betweenAfter, sawAfter, ?_⟩
    rw [linesAfter, lines, List.flatMap_cons, List.append_assoc, List.append_assoc]
    rfl

theorem intercalate_gap (hunk : PatchHunk) (hunks : List PatchHunk) :
    List.intercalate [NativeChatEditLine.gapLine] ((hunk :: hunks).map PatchHunk.lines) =
      hunk.lines ++ hunks.flatMap fun hunk => .gapLine :: hunk.lines := by
  induction hunks generalizing hunk with
  | nil => rfl
  | cons second hunks ih =>
    have later := ih second
    rw [List.map_cons] at later
    rw [List.map_cons, List.map_cons, List.intercalate_cons_cons, later, List.flatMap_cons,
      List.append_assoc]
    rfl

theorem visitRows_file (file : PatchFile) : ∃ after,
    visitRows (hunkRows file.hunks) false ⟨[], false, none, none, false, true, false⟩ = after ∧
      after.ranged = true ∧ after.sawHunk = true ∧ after.lines = file.lines ∧ after.lines ≠ [] := by
  obtain ⟨hunk, hunks, shape⟩ := List.exists_cons_of_ne_nil file.nonempty
  have begins : Between ⟨[], false, none, none, false, true, false⟩ := ⟨rfl, rfl⟩
  obtain ⟨first, visited, between, sawHunk, lines⟩ := visitRows_hunk begins hunk (hunkRows hunks)
  have linesFirst : first.lines = hunk.lines := lines
  have some : first.lines ≠ [] := by
    rw [linesFirst]
    exact numberedRows_ne_nil hunk.nonempty
  obtain ⟨after, rest, betweenAfter, sawAfter, linesAfter⟩ := visitRows_more between some sawHunk hunks
  refine ⟨after, ?_, betweenAfter.ranged, sawAfter, ?_, ?_⟩
  · rw [shape]
    exact visited.trans rest
  · unfold PatchFile.lines
    rw [shape, intercalate_gap, linesAfter, linesFirst]
  · rw [linesAfter]
    exact fun none => some (List.append_eq_nil_iff.mp none).1

theorem isRow_cons {unit : UInt16} {row : Text} (noFeed : unit ≠ lineFeed)
    (noReturn : unit ≠ carriageReturn) (isRow : IsRow row) : IsRow (unit :: row) where
  noFeed := by
    rw [List.mem_cons, not_or]
    exact ⟨Ne.symm noFeed, isRow.noFeed⟩
  noReturn := by
    cases row with
    | nil => exact fun same => noReturn (Option.some.inj same)
    | cons second row => exact isRow.noReturn

theorem isRow_append {front row : Text}
    (plain : ∀ unit ∈ front, unit ≠ lineFeed ∧ unit ≠ carriageReturn) (isRow : IsRow row) :
    IsRow (front ++ row) := by
  induction front with
  | nil => exact isRow
  | cons unit front ih =>
    obtain ⟨noFeed, noReturn⟩ := plain unit List.mem_cons_self
    exact isRow_cons noFeed noReturn (ih fun other member => plain other (List.mem_cons_of_mem _ member))

theorem isRow_mark {mark row : Text}
    (plain : (mark.all fun unit => decide (unit ≠ lineFeed ∧ unit ≠ carriageReturn)) = true)
    (isRow : IsRow row) : IsRow (mark ++ row) :=
  isRow_append (forall_mem_of_all plain) isRow

theorem plain_decimalText (number : ℕ) :
    ∀ unit ∈ decimalText number, unit ≠ lineFeed ∧ unit ≠ carriageReturn := by
  intro unit member
  have bounds := mem_decimalText member
  refine ⟨?_, ?_⟩
  · rintro rfl
    exact absurd bounds.1 (by decide)
  · rintro rfl
    exact absurd bounds.1 (by decide)

theorem plain_rangeText (start count : ℕ) :
    ∀ unit ∈ rangeText start count, unit ≠ lineFeed ∧ unit ≠ carriageReturn := by
  intro unit member
  unfold rangeText at member
  rcases List.mem_append.mp member with first | second
  · exact plain_decimalText start unit first
  · split at second
    · cases second
    · rcases List.mem_append.mp second with comma | counted
      · have plain : ∀ unit ∈ unitsOf ",", unit ≠ lineFeed ∧ unit ≠ carriageReturn :=
          forall_mem_of_all (by decide)
        exact plain unit comma
      · exact plain_decimalText count unit counted

theorem PatchLine.isRow (line : PatchLine) : IsRow line.text := ⟨line.noFeed, line.noReturn⟩

theorem isRow_hunkRows {hunks : List PatchHunk} {row : Text} (member : row ∈ hunkRows hunks) :
    IsRow row ∧ row ≠ [] := by
  obtain ⟨hunk, _, inside⟩ := List.mem_flatMap.mp member
  rcases List.mem_cons.mp inside with rfl | inside
  · refine ⟨?_, List.append_ne_nil_of_left_ne_nil (by decide) _⟩
    unfold PatchHunk.header
    refine isRow_mark (by decide) (isRow_mark (by decide) (isRow_append (plain_rangeText _ _) ?_))
    refine isRow_mark (by decide) (isRow_append (plain_rangeText _ _) (isRow_mark (by decide) ?_))
    exact hunk.heading.isRow
  · obtain ⟨printed, _, rfl⟩ := List.mem_map.mp inside
    refine ⟨?_, List.cons_ne_nil _ _⟩
    have marks : ∀ unit ∈ ([32, 43, 45, 64] : List UInt16),
        unit ≠ lineFeed ∧ unit ≠ carriageReturn :=
      forall_mem_of_all (by decide)
    obtain ⟨noFeed, noReturn⟩ := marks printed.mark.unit (mark_mem printed.mark)
    exact isRow_cons noFeed noReturn printed.line.isRow

theorem hunkRows_ne_nil {hunks : List PatchHunk} (nonempty : hunks ≠ []) : hunkRows hunks ≠ [] := by
  obtain ⟨hunk, rest, rfl⟩ := List.exists_cons_of_ne_nil nonempty
  exact List.cons_ne_nil _ _

theorem editLines_file (file : PatchFile)
    (short : (joinRows (hunkRows file.hunks)).length ≤ maxEditChars) :
    editLinesFromUnifiedPatch (joinRows (hunkRows file.hunks)) false =
      some ⟨file.lines, true, false⟩ := by
  have split := splitEditContent_joinRows (hunkRows_ne_nil file.nonempty)
    (fun row member => isRow_hunkRows member) short
  obtain ⟨after, visited, ranged, sawHunk, lines, some⟩ := visitRows_file file
  unfold editLinesFromUnifiedPatch
  rw [split]
  dsimp only
  rw [visited, if_pos ⟨sawHunk, List.length_pos_iff.mpr some⟩, lines, ranged]

end Visit

end OxeeUI.Chat
