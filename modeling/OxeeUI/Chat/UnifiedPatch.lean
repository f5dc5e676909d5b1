import OxeeUI.Chat.EditDiff
import OxeeUI.Library.JsonText

/-!
# Unified patches

A patch is split into one section for each file, and the body of a section is read
as numbered rows.  Both readers keep track of whether they are within a hunk.
-/

namespace OxeeUI.Chat

open Library

section Lines

def startsWith (start text : Text) : Bool := start.isPrefixOf text

def afterText? (start text : Text) : Option Text :=
  if startsWith start text then some (text.drop start.length) else none

/-- `FILE_SECTION_START` -/
def fileSectionStarts : List Text :=
  ["diff ", "index ", "old mode ", "new mode ", "new file mode ", "deleted file mode ",
    "similarity index ", "dissimilarity index ", "rename ", "copy ", "Binary files "].map unitsOf

def isFileSectionStart (line : Text) : Bool := fileSectionStarts.any (startsWith · line)

def hunkMark : Text := unitsOf "@@"
def oldHeaderMark : Text := unitsOf "--- "
def newHeaderMark : Text := unitsOf "+++ "

/-- Adjacent `--- ` and `+++ ` lines; the list is the rows from an index on. -/
def isFileHeaderPair (rows : List Text) : Bool :=
  startsWith oldHeaderMark (rows.head?.getD []) && startsWith newHeaderMark (rows[1]?.getD [])

def leadingNumber? (text : Text) : Option (ℕ × Text) :=
  let digits := text.takeWhile isDecimalUnit
  if digits = [] then none else some (decimalValue digits, text.dropWhile isDecimalUnit)

/-- `(?:,(\d+))?` -/
def afterCount (text : Text) : Text :=
  match afterText? (unitsOf ",") text with
  | none => text
  | some rest =>
    match leadingNumber? rest with
    | none => text
    | some counted => counted.2

/-- `HUNK_RANGES`: the first line of the hunk on either side. -/
def hunkRanges? (raw : Text) : Option (ℕ × ℕ) := do
  let rest ← afterText? hunkMark raw
  let old ← afterText? (unitsOf " -") (rest.dropWhile (· = 64))
  let first ← leadingNumber? old
  let new ← afterText? (unitsOf " +") (afterCount first.2)
  let second ← leadingNumber? new
  let _ ← afterText? (unitsOf " @@") (afterCount second.2)
  return (first.1, second.1)

end Lines

section Visit

structure UnifiedPatchLines where
  lines : List NativeChatEditLine
  lineNumbersKnown : Bool
  truncated : Bool

/-- The variables of the loop; `rowCount` is the number of lines. -/
structure PatchVisit where
  lines : List NativeChatEditLine
  lastWasGap : Bool
  oldNo : Option ℕ
  newNo : Option ℕ
  sawHunk : Bool
  ranged : Bool
  inHunk : Bool

namespace PatchVisit

def openHunk (visit : PatchVisit) (raw : Text) : PatchVisit :=
  let ranges := hunkRanges? raw
  let gap := decide (0 < visit.lines.length) && !visit.lastWasGap
  { visit with
    oldNo := ranges.map Prod.fst
    newNo := ranges.map Prod.snd
    lines := if gap then visit.lines ++ [.gapLine] else visit.lines
    lastWasGap := gap || visit.lastWasGap
    sawHunk := true
    inHunk := true }

def row (visit : PatchVisit) (raw : Text) : PatchVisit :=
  let counted :=
    { visit with
      ranged := visit.ranged && (visit.oldNo.isSome || visit.newNo.isSome)
      lastWasGap := false }
  if raw.head? = some 43 then
    { counted with
      lines := visit.lines ++ [⟨.add, raw.tail, none, visit.newNo⟩]
      newNo := visit.newNo.map (· + 1) }
  else if raw.head? = some 45 then
    { counted with
      lines := visit.lines ++ [⟨.del, raw.tail, visit.oldNo, none⟩]
      oldNo := visit.oldNo.map (· + 1) }
  else
    { counted with
      lines := visit.lines ++
        [⟨.context, if raw.head? = some 32 then raw.tail else raw, visit.oldNo, visit.newNo⟩]
      oldNo := visit.oldNo.map (· + 1)
      newNo := visit.newNo.map (· + 1) }

end PatchVisit

/-- The loop over the rows; `skip` is the extra step behind a pair of file headers. -/
def visitRows : List Text → Bool → PatchVisit → PatchVisit
  | [], _, visit => visit
  | _ :: rest, true, visit => visitRows rest false visit
  | raw :: rest, false, visit =>
    if startsWith hunkMark raw then visitRows rest false (visit.openHunk raw)
    else if raw.head? = some 92 then visitRows rest false visit
    else if !visit.inHunk && isFileHeaderPair (raw :: rest) then visitRows rest true visit
    else if isFileSectionStart raw then visitRows rest false { visit with inHunk := false }
    else if !visit.inHunk then visitRows rest false visit
    else visitRows rest false (visit.row raw)

def editLinesFromUnifiedPatch (text : Text) (implicitFirstHunk : Bool) :
    Option UnifiedPatchLines :=
  let source := splitEditContent text
  let visit := visitRows source.lines false
    ⟨[], false, none, none, implicitFirstHunk, true, implicitFirstHunk⟩
  if visit.sawHunk ∧ 0 < visit.lines.length then
    some ⟨visit.lines, visit.ranged, source.truncated⟩
  else none

end Visit

section Sections

inductive NativeChatEditChangeKind where
  | added
  | deleted
  | edited
  | renamed
  deriving DecidableEq

structure UnifiedPatchSection where
  path : Option Text
  oldPath : Option Text
  changeKind : NativeChatEditChangeKind
  body : Text

structure UnifiedPatchSections where
  sections : List UnifiedPatchSection
  truncated : Bool

structure PatchSection where
  rows : List Text
  oldPath : Option Text
  newPath : Option Text
  named : Bool
  hasHeaderPair : Bool
  fromGitHeader : Bool

def PatchSection.empty : PatchSection := ⟨[], none, none, false, false, false⟩

def gitDiffHeader : Text := unitsOf "diff --git "

/-- `value.replace(/^[ab]\//, '')`, for the sides given. -/
def withoutSide (sides : List Text) (value : Text) : Text :=
  match sides.find? (startsWith · value) with
  | some side => value.drop side.length
  | none => value

def oldPathMark : Text := unitsOf "a/"
def newPathMark : Text := unitsOf "b/"

def tab : UInt16 := 9

def sourceHeaderPath (line : Text) : Option Text :=
  let value := Library.trimText ((line.drop 4).takeWhile (· ≠ tab))
  if value = [] ∨ value = unitsOf "/dev/null" then none
  else some (withoutSide [oldPathMark, newPathMark] value)

/-- `text.lastIndexOf(part)` -/
def lastIndexOf? (part text : Text) : Option ℕ :=
  (List.range (text.length + 1)).reverse.find? fun index => startsWith part (text.drop index)

def gitHeaderPaths (line : Text) : Option Text × Option Text :=
  let rest := line.drop gitDiffHeader.length
  match lastIndexOf? (unitsOf " b/") rest with
  | none => (none, none)
  | some split =>
    (some (withoutSide [oldPathMark] (rest.take split)),
      some (withoutSide [newPathMark] (rest.drop (split + 1))))

/-- The sections that were left, and the one that rows go to. -/
structure SectionScan where
  closed : List PatchSection
  current : Option PatchSection
  inHunk : Bool

namespace SectionScan

def all (scan : SectionScan) : List PatchSection := scan.closed ++ scan.current.toList

def openWith (scan : SectionScan) (section' : PatchSection) : SectionScan :=
  ⟨scan.all, some section', false⟩

def gitHeader (scan : SectionScan) (raw : Text) : SectionScan :=
  let paths := gitHeaderPaths raw
  scan.openWith
    { PatchSection.empty with
      oldPath := paths.1, newPath := paths.2, named := true, fromGitHeader := true }

/-- A pair names the section that is open, unless a pair has named it. -/
def headerPair (scan : SectionScan) (old new : Text) : SectionScan :=
  let named (section' : PatchSection) : PatchSection :=
    { section' with
      oldPath := sourceHeaderPath old
      newPath := sourceHeaderPath new
      named := true
      hasHeaderPair := true }
  match scan.current with
  | none => scan.openWith (named .empty)
  | some current =>
    if current.hasHeaderPair then scan.openWith (named .empty)
    else ⟨scan.closed, some (named current), false⟩

def push (scan : SectionScan) (raw : Text) : SectionScan :=
  let current := scan.current.getD .empty
  { scan with
    current := some { current with rows := current.rows ++ [raw] }
    inHunk :=
      if startsWith hunkMark raw then true
      else if isFileSectionStart raw then false
      else scan.inHunk }

end SectionScan

/-- The loop over the rows; `skip` is the extra step behind a pair of file headers. -/
def scanSections : List Text → Bool → SectionScan → SectionScan
  | [], _, scan => scan
  | _ :: rest, true, scan => scanSections rest false scan
  | raw :: rest, false, scan =>
    if startsWith gitDiffHeader raw then scanSections rest false (scan.gitHeader raw)
    else if isFileHeaderPair (raw :: rest) &&
        (!scan.inHunk || startsWith hunkMark (rest[1]?.getD [])) then
      scanSections rest true (scan.headerPair raw (rest.head?.getD []))
    else scanSections rest false (scan.push raw)

def sectionChangeKind (section' : PatchSection) : NativeChatEditChangeKind :=
  if !section'.named then .edited
  else if section'.newPath = none then .deleted
  else if section'.oldPath = none then .added
  else if section'.oldPath = section'.newPath then .edited
  else if section'.fromGitHeader then .renamed
  else .edited

/-- `rows.join('\n')` -/
def joinRows (rows : List Text) : Text := List.intercalate [lineFeed] rows

def finishSection (section' : PatchSection) : UnifiedPatchSection :=
  { path := section'.newPath <|> section'.oldPath
    oldPath := if sectionChangeKind section' = .renamed then section'.oldPath else none
    changeKind := sectionChangeKind section'
    body := joinRows section'.rows }

def unifiedPatchSections (text : Text) : UnifiedPatchSections :=
  let source := splitEditContent text
  ⟨(scanSections source.lines false ⟨[], none, false⟩).all.map finishSection, source.truncated⟩

end Sections

end OxeeUI.Chat
