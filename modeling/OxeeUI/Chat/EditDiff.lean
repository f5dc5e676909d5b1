import OxeeUI.Library.Utf16

/-!
# The rows of an edit

A row has a number on each side that it is on.
-/

namespace OxeeUI.Chat

open Library

inductive NativeChatEditLineKind
  | context
  | add
  | del
  | gap
  deriving DecidableEq

structure NativeChatEditLine where
  kind : NativeChatEditLineKind
  text : Text
  oldLineNumber : Option ℕ
  newLineNumber : Option ℕ

def maxEditChars : ℕ := 96000

/-- The line table is quadratic; above this a linear diff is used. -/
def maxEditDiffCells : ℕ := 200000

/-- The rows of a source string, and whether it was clipped before splitting. -/
structure EditContentLines where
  lines : List Text
  truncated : Bool

def splitEditContent (content : Text) : EditContentLines :=
  if content.length = 0 then ⟨[], false⟩
  else
    let truncated := decide (maxEditChars < content.length)
    let body := if truncated then content.take maxEditChars else content
    let lines := splitLines body
    -- The clipped body counts: a partial line after clipping is real.
    ⟨if body.getLast? = some lineFeed then lines.dropLast else lines, truncated⟩

namespace NativeChatEditLine

def contextLine (text : Text) (oldNo newNo : ℕ) : NativeChatEditLine :=
  ⟨.context, text, some oldNo, some newNo⟩

def removal (text : Text) (oldNo : ℕ) : NativeChatEditLine := ⟨.del, text, some oldNo, none⟩

def addition (text : Text) (newNo : ℕ) : NativeChatEditLine := ⟨.add, text, none, some newNo⟩

def gapLine : NativeChatEditLine := ⟨.gap, [], none, none⟩

end NativeChatEditLine

/-- Append a gap when rows already exist and the last is not one. -/
def pushEditGap (lines : List NativeChatEditLine) : List NativeChatEditLine :=
  match lines.getLast? with
  | none => lines
  | some last => if last.kind = .gap then lines else lines ++ [.gapLine]

end OxeeUI.Chat

/-!
## The diff of two contents

A walk along the table of longest common subsequences, or common lines at both
ends where the table would be too large.
-/

namespace OxeeUI.Chat

open Library NativeChatEditLine

section Table

variable (original modified : List Text)

/-- The table is flat: this is the width of a row. -/
def tableWidth : ℕ := modified.length + 1

def cellAt (dp : Array ℕ) (i j : ℕ) : ℕ := dp.getD (i * tableWidth modified + j) 0

def lcsCell (dp : Array ℕ) (i j : ℕ) : ℕ :=
  if original[i]? = modified[j]? then cellAt modified dp (i + 1) (j + 1) + 1
  else max (cellAt modified dp (i + 1) j) (cellAt modified dp i (j + 1))

def fillRow (i : ℕ) : ℕ → Array ℕ → Array ℕ
  | 0, dp => dp
  | j + 1, dp =>
    fillRow i j (dp.setIfInBounds (i * tableWidth modified + j) (lcsCell original modified dp i j))

def fillTable : ℕ → Array ℕ → Array ℕ
  | 0, dp => dp
  | i + 1, dp => fillTable i (fillRow original modified i modified.length dp)

def lcsTable : Array ℕ :=
  fillTable original modified original.length
    (Array.replicate ((original.length + 1) * tableWidth modified) 0)

end Table

section Rows

variable (original modified : List Text)

/-- The lines of the old side in a range, as removed. -/
def removals (start count : ℕ) : List NativeChatEditLine :=
  (List.range' start count).map fun i => removal (original.getD i []) (i + 1)

def additions (start count : ℕ) : List NativeChatEditLine :=
  (List.range' start count).map fun i => addition (modified.getD i []) (i + 1)

def lcsWalk (dp : Array ℕ) (oldIndex newIndex : ℕ) : List NativeChatEditLine :=
  if oldIndex < original.length ∧ newIndex < modified.length then
    if original[oldIndex]? = modified[newIndex]? then
      contextLine (original.getD oldIndex []) (oldIndex + 1) (newIndex + 1) ::
        lcsWalk dp (oldIndex + 1) (newIndex + 1)
    else if cellAt modified dp oldIndex (newIndex + 1) ≤ cellAt modified dp (oldIndex + 1) newIndex then
      removal (original.getD oldIndex []) (oldIndex + 1) :: lcsWalk dp (oldIndex + 1) newIndex
    else
      addition (modified.getD newIndex []) (newIndex + 1) :: lcsWalk dp oldIndex (newIndex + 1)
  else
    removals original oldIndex (original.length - oldIndex) ++
      additions modified newIndex (modified.length - newIndex)
termination_by (original.length - oldIndex) + (modified.length - newIndex)

def lcsLines : List NativeChatEditLine :=
  lcsWalk original modified (lcsTable original modified) 0 0

def commonPrefix (prefixed : ℕ) : ℕ :=
  if prefixed < original.length ∧ prefixed < modified.length ∧
      original[prefixed]? = modified[prefixed]? then
    commonPrefix (prefixed + 1)
  else prefixed
termination_by original.length - prefixed

/-- How far the contents agree from the end, up to the common prefix. -/
def commonSuffix (prefixed suffixed : ℕ) : ℕ :=
  if suffixed + prefixed < original.length ∧ suffixed + prefixed < modified.length ∧
      original[original.length - suffixed - 1]? = modified[modified.length - suffixed - 1]? then
    commonSuffix prefixed (suffixed + 1)
  else suffixed
termination_by original.length - suffixed

def prefixSuffixLines : List NativeChatEditLine :=
  let prefixed := commonPrefix original modified 0
  let suffixed := commonSuffix original modified prefixed 0
  ((List.range' 0 prefixed).map fun i => contextLine (original.getD i []) (i + 1) (i + 1)) ++
    removals original prefixed (original.length - suffixed - prefixed) ++
    additions modified prefixed (modified.length - suffixed - prefixed) ++
    ((List.range' (original.length - suffixed) suffixed).map fun i =>
      contextLine (original.getD i []) (i + 1)
        (modified.length - suffixed + (i - (original.length - suffixed)) + 1))

end Rows

/-- The rows of an edit, and whether a content was clipped. -/
def editLinesFromContents (originalContent modifiedContent : Text) :
    List NativeChatEditLine × Bool :=
  let original := splitEditContent originalContent
  let modified := splitEditContent modifiedContent
  (if original.lines.length * modified.lines.length ≤ maxEditDiffCells then
      lcsLines original.lines modified.lines
    else prefixSuffixLines original.lines modified.lines,
    original.truncated || modified.truncated)

end OxeeUI.Chat
