import OxeeUI.Library.WellFormedText
import Mathlib.Algebra.Order.Field.Rat

/-!
# The pausable NDJSON framer

Chunks of text are cut into lines, and each line is parsed and handed over.  A consumer
may pause: then the complete records behind are queued, the unterminated suffix is
kept apart from them, and both are taken up again by a later `feed` or `resume`.
-/

namespace OxeeUI.Wire

open OxeeUI.Library

def ndjsonMaxLineBytes : ℕ := 16 * 1024 * 1024
def rejectedLinePrefixMaxBytes : ℕ := 64 * 1024
def pausedCompleteRecordQueueMaxBytes : ℕ := 64 * 1024 * 1024

/-- The binary search for the longest start that fits, in as many rounds as may be left. -/
def boundedPrefixEnd (value : Text) (maxBytes : ℕ) : ℕ → ℕ → ℕ → ℕ
  | 0, low, _ => low
  | rounds + 1, low, high =>
    if low < high then
      let midpoint := (low + high + 1) / 2
      if textBytes (value.take midpoint) ≤ maxBytes then
        boundedPrefixEnd value maxBytes rounds midpoint high
      else boundedPrefixEnd value maxBytes rounds low (midpoint - 1)
    else low

def boundedUtf8Prefix (value : Text) (maxBytes : ℕ) : Text :=
  if textBytes value ≤ maxBytes then value
  else
    let high := min value.length maxBytes
    value.take (boundedPrefixEnd value maxBytes high 0 high)

/-- A limit in bytes; none is an infinite one (or none at all, `NaN`). -/
abbrev ByteLimit := Option ℚ

def ByteLimit.exceededBy (limit : ByteLimit) (bytes : ℕ) : Bool :=
  match limit with
  | some most => most < bytes
  | none => false

inductive NdjsonRejectedRecord (Failure : Type*) where
  | lineTooLong (maxLineBytes : ByteLimit) (observedBytes : ℕ) (linePrefix : Text)
      (droppedCompleteRecords : Bool)
  | invalidJson (line : Text) (error : Failure)
deriving DecidableEq

inductive NdjsonOutput (Value Failure : Type*) where
  | record (value : Value) (line : Text)
  | rejected (record : NdjsonRejectedRecord Failure)
deriving DecidableEq

/-- The limit given (16 MiB where none was), and `JSON.parse`. -/
structure NdjsonOptions (Value Failure : Type*) where
  lineLimit : ByteLimit
  parse : Text → Except Failure Value

namespace NdjsonOptions

variable {Value Failure : Type*} (options : NdjsonOptions Value Failure)

def maxLineBytes : ByteLimit := options.lineLimit.map (max 1)

def maxPendingInputBytes : ByteLimit :=
  options.maxLineBytes.map fun most => max rejectedLinePrefixMaxBytes (most * 2)

def maxQueuedCompleteInputBytes : ByteLimit :=
  options.maxPendingInputBytes.map fun most => max most pausedCompleteRecordQueueMaxBytes

end NdjsonOptions

/-- The framer between calls, with what it called so far and what `shouldPause` returns. -/
structure NdjsonFramer (Value Failure : Type*) where
  lineSegments : List Text
  lineBytes : ℕ
  prefixSegments : List Text
  prefixBytes : ℕ
  discardingOversizedLine : Bool
  discardingPausedSuffix : Bool
  pendingInput : Option Text
  pausedCompleteInput : List Text
  pausedCompleteInputBytes : ℕ
  pausedCompleteInputOverflowed : Bool
  pausing : Bool
  output : List (NdjsonOutput Value Failure)

/-- `/^\s*$/.test(line)` -/
def isBlankLine (line : Text) : Bool := line.all fun unit => isWhiteSpace (unitCharacter unit)

def NdjsonOutput.isRecord {Value Failure : Type*} : NdjsonOutput Value Failure → Bool
  | .record .. => true
  | .rejected _ => false

namespace NdjsonFramer

variable {Value Failure : Type*}

def recordCount (output : List (NdjsonOutput Value Failure)) : ℕ :=
  output.countP NdjsonOutput.isRecord

def initial : NdjsonFramer Value Failure :=
  ⟨[], 0, [], 0, false, false, none, [], 0, false, false, []⟩

def clearLine (framer : NdjsonFramer Value Failure) : NdjsonFramer Value Failure :=
  { framer with lineSegments := [], lineBytes := 0, prefixSegments := [], prefixBytes := 0 }

def rememberPrefix (framer : NdjsonFramer Value Failure) (segment : Text) (segmentBytes : ℕ) :
    NdjsonFramer Value Failure :=
  let remainingBytes := rejectedLinePrefixMaxBytes - framer.prefixBytes
  if remainingBytes = 0 ∨ segment = [] then framer
  else
    let start := if segmentBytes ≤ remainingBytes then segment
      else boundedUtf8Prefix segment remainingBytes
    { framer with
      prefixSegments := framer.prefixSegments ++ [start]
      prefixBytes := framer.prefixBytes + if start = segment then segmentBytes else textBytes start }

def reject (framer : NdjsonFramer Value Failure) (record : NdjsonRejectedRecord Failure) :
    NdjsonFramer Value Failure :=
  { framer with output := framer.output ++ [.rejected record] }

/-- `onRecord(parsed, line)`; the consumer decides then whether it pauses, by how many
records it was handed. -/
def accept (pauses : ℕ → Bool) (framer : NdjsonFramer Value Failure) (value : Value)
    (line : Text) : NdjsonFramer Value Failure :=
  let output := framer.output ++ [.record value line]
  { framer with output := output, pausing := pauses (recordCount output) }

def queuePausedCompleteInput (options : NdjsonOptions Value Failure)
    (framer : NdjsonFramer Value Failure) (complete : Text) : NdjsonFramer Value Failure :=
  if complete = [] ∨ framer.pausedCompleteInputOverflowed then framer
  else
    let queuedBytes := framer.pausedCompleteInputBytes + textBytes complete
    if options.maxQueuedCompleteInputBytes.exceededBy queuedBytes then
      reject { framer with pausedCompleteInputOverflowed := true }
        (.lineTooLong options.maxQueuedCompleteInputBytes queuedBytes
          (boundedUtf8Prefix complete rejectedLinePrefixMaxBytes) true)
    else
      { framer with
        pausedCompleteInput := framer.pausedCompleteInput ++ [complete]
        pausedCompleteInputBytes := queuedBytes }

def retainPendingSuffix (options : NdjsonOptions Value Failure)
    (framer : NdjsonFramer Value Failure) (suffix : Text) : NdjsonFramer Value Failure :=
  if suffix = [] then { framer with pendingInput := none }
  else
    let suffixBytes := textBytes suffix
    if options.maxPendingInputBytes.exceededBy suffixBytes then
      reject { framer with pendingInput := none, discardingPausedSuffix := true }
        (.lineTooLong options.maxPendingInputBytes suffixBytes
          (boundedUtf8Prefix suffix rejectedLinePrefixMaxBytes) false)
    else { framer with pendingInput := some suffix }

/-- The lines of the input, each with its line feed, and what follows the last of them. -/
def retainPausedInput (options : NdjsonOptions Value Failure)
    (framer : NdjsonFramer Value Failure) (input : Text) : NdjsonFramer Value Failure :=
  let lines := input.splitOn lineFeed
  let complete := lines.dropLast.flatMap (· ++ [lineFeed])
  retainPendingSuffix options (queuePausedCompleteInput options framer complete)
    (lines.getLastD [])

/-- `Buffer.byteLength(segment, 'utf8')`, measured where a limit needs it. -/
def segmentBytes (options : NdjsonOptions Value Failure) (segment : Text) : ℕ :=
  if options.maxLineBytes = none then 0 else textBytes segment

/-- A line that grew too long is rejected at once. -/
def rejectLine (options : NdjsonOptions Value Failure) (framer : NdjsonFramer Value Failure)
    (segment : Text) (terminated : Bool) : NdjsonFramer Value Failure :=
  let remembered := framer.rememberPrefix segment (segmentBytes options segment)
  reject { remembered.clearLine with discardingOversizedLine := !terminated }
    (.lineTooLong options.maxLineBytes (framer.lineBytes + segmentBytes options segment)
      remembered.prefixSegments.flatten false)

/-- The framer after a segment that a line feed ends, and whether the loop then asks
whether to pause. -/
def endLine (options : NdjsonOptions Value Failure)
    (pauses : ℕ → Bool) (framer : NdjsonFramer Value Failure)
    (segment : Text) : NdjsonFramer Value Failure × Bool :=
  if framer.discardingOversizedLine then
    (clearLine { framer with discardingOversizedLine := false }, true)
  else if options.maxLineBytes.exceededBy (framer.lineBytes + segmentBytes options segment) then
    (rejectLine options framer segment true, true)
  else
    let line := framer.lineSegments.flatten ++ segment
    if isBlankLine line then (framer.clearLine, true)
    else
      match options.parse line with
      | .error error => (framer.clearLine.reject (.invalidJson line error), false)
      | .ok value => (framer.clearLine.accept pauses value line, true)

/-- The framer after the last segment of its input. -/
def endInput (options : NdjsonOptions Value Failure) (framer : NdjsonFramer Value Failure)
    (segment : Text) : NdjsonFramer Value Failure :=
  if segment = [] ∨ framer.discardingOversizedLine then framer
  else if options.maxLineBytes.exceededBy (framer.lineBytes + segmentBytes options segment) then
    rejectLine options framer segment false
  else
    let remembered := if options.maxLineBytes = none then framer
      else framer.rememberPrefix segment (segmentBytes options segment)
    { remembered with
      lineSegments := framer.lineSegments ++ [segment]
      lineBytes := framer.lineBytes + segmentBytes options segment }

/-- The loop over the segments of the input between its line feeds; the rest of the input is
what they are when joined. -/
def processSegments (options : NdjsonOptions Value Failure)
    (pauses : ℕ → Bool) :
    NdjsonFramer Value Failure → List Text → NdjsonFramer Value Failure
  | framer, [] => framer
  | framer, [segment] => framer.endInput options segment
  | framer, segment :: next :: segments =>
    let ended := framer.endLine options pauses segment
    let rest := [lineFeed].intercalate (next :: segments)
    if ended.2 ∧ ended.1.pausing ∧ rest ≠ [] then ended.1.retainPausedInput options rest
    else processSegments options pauses ended.1 (next :: segments)

def process (options : NdjsonOptions Value Failure)
    (pauses : ℕ → Bool) (framer : NdjsonFramer Value Failure)
    (input : Text) : NdjsonFramer Value Failure :=
  processSegments options pauses framer (input.splitOn lineFeed)

/-- The queue is taken out of the framer and processed. -/
def drainQueue (options : NdjsonOptions Value Failure)
    (pauses : ℕ → Bool) (framer : NdjsonFramer Value Failure) :
    NdjsonFramer Value Failure :=
  process options pauses
    { framer with pausedCompleteInput := [], pausedCompleteInputBytes := 0 }
    framer.pausedCompleteInput.flatten

/-- `feed`, from where the dropped tail of a paused suffix was finished. -/
def feedOn (options : NdjsonOptions Value Failure)
    (pauses : ℕ → Bool) (framer : NdjsonFramer Value Failure)
    (endedPausedSuffix : Bool) (chunk : Text) : NdjsonFramer Value Failure :=
  if chunk = [] then framer
  else
    match framer.pendingInput with
    | some pending => framer.retainPausedInput options (pending ++ chunk)
    | none =>
      if (0 < framer.pausedCompleteInputBytes ∨ endedPausedSuffix) ∧ framer.pausing then
        framer.retainPausedInput options chunk
      else framer.process options pauses chunk

def feed (options : NdjsonOptions Value Failure)
    (pauses : ℕ → Bool) (framer : NdjsonFramer Value Failure)
    (chunk : Text) : NdjsonFramer Value Failure :=
  let drained := if 0 < framer.pausedCompleteInputBytes ∧ !framer.pausing then
    framer.drainQueue options pauses else framer
  if drained.discardingPausedSuffix then
    match chunk.splitOn lineFeed with
    | _ :: segment :: segments =>
      feedOn options pauses { drained with discardingPausedSuffix := false } true
        ([lineFeed].intercalate (segment :: segments))
    | _ => drained
  else feedOn options pauses drained false chunk

def resume (options : NdjsonOptions Value Failure)
    (pauses : ℕ → Bool) (framer : NdjsonFramer Value Failure) :
    NdjsonFramer Value Failure :=
  if framer.pausing ∨ (framer.pendingInput = none ∧ framer.pausedCompleteInputBytes = 0) then framer
  else
    let taken := { framer with pendingInput := none }
    let drained := if 0 < framer.pausedCompleteInput.length then taken.drainQueue options pauses
      else taken
    match framer.pendingInput with
    | none => drained
    | some input =>
      if drained.pausing then
        -- Keep the suffix behind records newly queued by a consumer that pauses again.
        retainPendingSuffix options { drained with pendingInput := none }
          (drained.pendingInput.getD [] ++ input)
      else drained.process options pauses input

def takeTail (framer : NdjsonFramer Value Failure) : Text × NdjsonFramer Value Failure :=
  (if framer.discardingOversizedLine || framer.discardingPausedSuffix then []
    else framer.lineSegments.flatten ++ framer.pendingInput.getD [],
    { framer.clearLine with pendingInput := none })

/-- A call, or a change of what `shouldPause` returns between calls. -/
inductive Input where
  | feed (chunk : Text)
  | resume
  | pause (pausing : Bool)

def step (options : NdjsonOptions Value Failure)
    (pauses : ℕ → Bool) (framer : NdjsonFramer Value Failure) :
    Input → NdjsonFramer Value Failure
  | .feed chunk => framer.feed options pauses chunk
  | .resume => framer.resume options pauses
  | .pause pausing => { framer with pausing := pausing }

def run (options : NdjsonOptions Value Failure)
    (pauses : ℕ → Bool) (inputs : List Input) :
    NdjsonFramer Value Failure :=
  inputs.foldl (step options pauses) initial

end NdjsonFramer

/-- `encodeNdjson(msg, maxLineBytes)`, with the bytes of the line where it is too long. -/
def encodeNdjson {Value : Type*} (stringify : Value → Text) (limit : ByteLimit) (value : Value) :
    Except ℕ Text :=
  let line := stringify value
  if limit.exceededBy (textBytes line) then .error (textBytes line) else .ok (line ++ [lineFeed])

end OxeeUI.Wire
