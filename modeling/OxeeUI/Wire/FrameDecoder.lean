import Mathlib.Algebra.Order.Field.Rat
import Mathlib.Data.Rat.Floor
import Mathlib.Tactic.Linarith
import Mathlib.Tactic.Push

/-!
# The relay frame decoder

Chunks of bytes are fed to one decoder, which hands out the frames in them a turn at
a time.  A turn ends when its budget of frames, bytes or time is spent, and the rest
waits for a scheduled continuation, with reads paused until then.
-/

namespace OxeeUI.Wire

abbrev Bytes := List UInt8

/-! ## Frames -/

def headerLength : ℕ := 13
def maxMessageSize : ℕ := 16 * 1024 * 1024
def frameDecoderMaxRetainedBytes : ℕ := maxMessageSize + headerLength + 1024 * 1024

structure DecodedFrame where
  type : UInt8
  id : UInt32
  ack : UInt32
  payload : Bytes
deriving DecidableEq

/-- `writeUInt32BE(value)` -/
def uint32Bytes (value : ℕ) : Bytes :=
  [UInt8.ofNat (value / 2 ^ 24), UInt8.ofNat (value / 2 ^ 16), UInt8.ofNat (value / 2 ^ 8),
    UInt8.ofNat value]

/-- `buffer.readUInt32BE(offset)` -/
def readUInt32 (buffer : Bytes) (offset : ℕ) : ℕ :=
  ((buffer.drop offset).take 4).foldl (fun value byte => value * 256 + byte.toNat) 0

def encodeFrame (frame : DecodedFrame) : Bytes :=
  frame.type :: (uint32Bytes frame.id.toNat ++ uint32Bytes frame.ack.toNat ++
    uint32Bytes frame.payload.length ++ frame.payload)

/-! ## The buffer -/

/-- The chunks from the head on.  The count of bytes is a number of its own, which
discarding lowers by what it is asked for. -/
structure RelayFrameBuffer where
  chunks : List Bytes
  bytes : ℚ

namespace RelayFrameBuffer

def empty : RelayFrameBuffer := ⟨[], 0⟩

def append (buffer : RelayFrameBuffer) (chunk : Bytes) : RelayFrameBuffer :=
  ⟨buffer.chunks ++ [chunk], buffer.bytes + chunk.length⟩

def copyParts : ℕ → List Bytes → Bytes
  | _, [] => []
  | count, part :: parts => part.take count ++ copyParts (count - part.length) parts

/-- The first chunk, where it is long enough, or a copy of the first bytes. -/
def peek (buffer : RelayFrameBuffer) (count : ℕ) : Bytes :=
  match buffer.chunks with
  | [] => []
  | first :: rest => if count ≤ first.length then first else copyParts count (first :: rest)

/-- The first bytes of some parts, and the parts without them. -/
def takeParts : ℕ → List Bytes → Bytes × List Bytes
  | _, [] => ([], [])
  | count, part :: parts =>
    if count = 0 then ([], part :: parts)
    else if part.length ≤ count then
      let later := takeParts (count - part.length) parts
      (part ++ later.1, later.2)
    else (part.take count, part.drop count :: parts)

/-- A chunk that holds them all is cut without a copy, to the same bytes. -/
def take (buffer : RelayFrameBuffer) (count : ℕ) : Bytes × RelayFrameBuffer :=
  let taken := takeParts count buffer.chunks
  (taken.1, ⟨taken.2, buffer.bytes - count⟩)

/-- `part.subarray(remaining)` drops the whole part of what remains. -/
def discardParts (remaining : ℚ) : List Bytes → List Bytes
  | [] => []
  | part :: parts =>
    if remaining ≤ 0 then part :: parts
    else if part.length ≤ remaining then discardParts (remaining - part.length) parts
    else part.drop ⌊remaining⌋₊ :: parts

def discard (buffer : RelayFrameBuffer) (count : ℚ) : RelayFrameBuffer :=
  ⟨discardParts count buffer.chunks, buffer.bytes - count⟩

end RelayFrameBuffer

/-! ## The decoder -/

/-- `positiveLimit(value, fallback)`; a value that is not finite is none. -/
def positiveLimit (value : Option ℚ) (fallback : ℚ) : ℚ :=
  match value with
  | some limit => if 0 < limit then limit else fallback
  | none => fallback

structure FrameDecoderOptions where
  maxFramesPerTurn : Option ℚ
  maxBytesPerTurn : Option ℚ
  maxTurnMs : Option ℚ

def FrameDecoderOptions.framesPerTurn (options : FrameDecoderOptions) : ℚ :=
  positiveLimit options.maxFramesPerTurn 64

def FrameDecoderOptions.bytesPerTurn (options : FrameDecoderOptions) : ℚ :=
  positiveLimit options.maxBytesPerTurn (maxMessageSize + headerLength)

def FrameDecoderOptions.turnMs (options : FrameDecoderOptions) : ℚ :=
  positiveLimit options.maxTurnMs 4

inductive DecoderEvent where
  | frame (frame : DecodedFrame)
  /-- `Frame payload too large: <length> bytes — discarded` -/
  | payloadTooLarge (length : ℕ)
  /-- `Frame decoder retained-input limit exceeded` -/
  | retainedTooMuch
  | pause
  | resume

/-- The decoder between calls, with the calls it made and how often it read the clock. -/
structure FrameDecoder where
  buffer : RelayFrameBuffer
  oversizedPayloadBytesRemaining : ℚ
  continuationScheduled : Bool
  paused : Bool
  readings : ℕ
  events : List DecoderEvent

namespace FrameDecoder

def initial : FrameDecoder := ⟨.empty, 0, false, false, 0, []⟩

def publish (decoder : FrameDecoder) (event : DecoderEvent) : FrameDecoder :=
  { decoder with events := decoder.events ++ [event] }

def acquirePause (decoder : FrameDecoder) : FrameDecoder :=
  if decoder.paused then decoder else { decoder.publish .pause with paused := true }

def releasePause (decoder : FrameDecoder) : FrameDecoder :=
  if decoder.paused then { decoder.publish .resume with paused := false } else decoder

def reset (decoder : FrameDecoder) : FrameDecoder :=
  releasePause
    { decoder with
      continuationScheduled := false
      buffer := .empty
      oversizedPayloadBytesRemaining := 0 }

/-- `header.readUInt32BE(9)` of the header at the head. -/
def headedLength (buffer : RelayFrameBuffer) : ℕ := readUInt32 (buffer.peek headerLength) 9

def hasRunnableWork (decoder : FrameDecoder) : Bool :=
  if 0 < decoder.oversizedPayloadBytesRemaining then 0 < decoder.buffer.bytes
  else if decoder.buffer.bytes < headerLength then false
  else
    let length := headedLength decoder.buffer
    maxMessageSize < length || headerLength + (length : ℚ) ≤ decoder.buffer.bytes

def scheduleContinuation (decoder : FrameDecoder) : FrameDecoder :=
  if decoder.continuationScheduled then decoder
  else acquirePause { decoder with continuationScheduled := true }

/-- How much of an oversized payload is discarded, with some bytes of the turn spent. -/
def discardedPayload (options : FrameDecoderOptions) (decoder : FrameDecoder) (bytes : ℚ) : ℚ :=
  if decoder.oversizedPayloadBytesRemaining = 0 ∨ decoder.buffer.bytes = 0 then 0
  else
    min (min decoder.oversizedPayloadBytesRemaining decoder.buffer.bytes)
      (max 1 (options.bytesPerTurn - bytes))

/-- A turn: the decoder, the frames and bytes spent, and whether the loop goes on. -/
structure Turn where
  decoder : FrameDecoder
  frames : ℕ
  bytes : ℚ
  running : Bool

def Turn.stop (turn : Turn) : Turn := { turn with running := false }

/-- The frame at the head, taken out of the buffer and handed over. -/
def takeFrame (decoder : FrameDecoder) (totalLength : ℕ) : FrameDecoder :=
  let framed := decoder.buffer.take totalLength
  publish { decoder with buffer := framed.2 }
    (.frame
      ⟨framed.1.headD 0, UInt32.ofNat (readUInt32 framed.1 1), UInt32.ofNat (readUInt32 framed.1 5),
        framed.1.drop headerLength⟩)

/-- The loop's body after its budget was checked. -/
def Turn.decode (options : FrameDecoderOptions) (turn : Turn) : Turn :=
  let decoder := turn.decoder
  let discarded := discardedPayload options decoder turn.bytes
  if 0 < discarded then
    { turn with
      decoder :=
        { decoder with
          buffer := decoder.buffer.discard discarded
          oversizedPayloadBytesRemaining := decoder.oversizedPayloadBytesRemaining - discarded }
      bytes := turn.bytes + discarded }
  else if decoder.buffer.bytes < headerLength then turn.stop
  else
    let length := headedLength decoder.buffer
    if maxMessageSize < length then
      { turn with
        decoder :=
          publish
            { decoder with
              buffer := decoder.buffer.discard headerLength
              oversizedPayloadBytesRemaining := length }
            (.payloadTooLarge length)
        bytes := turn.bytes + headerLength }
    else
      let totalLength := headerLength + length
      if decoder.buffer.bytes < totalLength then turn.stop
      else if 0 < turn.frames ∧ options.bytesPerTurn < turn.bytes + totalLength then turn.stop
      else
        { turn with
          decoder := takeFrame decoder totalLength
          frames := turn.frames + 1
          bytes := turn.bytes + totalLength }

/-- The loop's body; the clock is read where a frame was handed over in this turn. -/
def Turn.step (options : FrameDecoderOptions) (now : ℕ → ℚ) (startedAt : ℚ) (turn : Turn) : Turn :=
  if options.framesPerTurn ≤ turn.frames ∨ options.bytesPerTurn ≤ turn.bytes then turn.stop
  else if 0 < turn.frames then
    let read := { turn with
      decoder := { turn.decoder with readings := turn.decoder.readings + 1 } }
    if options.turnMs ≤ now turn.decoder.readings - startedAt then read.stop else read.decode options
  else turn.decode options

def Turn.run (options : FrameDecoderOptions) (now : ℕ → ℚ) (startedAt : ℚ) : ℕ → Turn → Turn
  | 0, turn => turn
  | rounds + 1, turn =>
    if turn.running then Turn.run options now startedAt rounds (turn.step options now startedAt)
    else turn

/-- No two rounds in a row leave the chunks as they are, so these are enough rounds. -/
def turnRounds (decoder : FrameDecoder) : ℕ := 2 * decoder.buffer.chunks.flatten.length + 2

def drainTurn (options : FrameDecoderOptions) (now : ℕ → ℚ) (decoder : FrameDecoder) : FrameDecoder :=
  let started := { decoder with readings := decoder.readings + 1 }
  let turn := Turn.run options now (now decoder.readings) (turnRounds decoder) ⟨started, 0, 0, true⟩
  if turn.decoder.hasRunnableWork then turn.decoder.scheduleContinuation
  else turn.decoder.releasePause

def feed (options : FrameDecoderOptions) (now : ℕ → ℚ) (decoder : FrameDecoder) (chunk : Bytes) :
    FrameDecoder :=
  if (frameDecoderMaxRetainedBytes : ℚ) < decoder.buffer.bytes + chunk.length then
    decoder.reset.publish .retainedTooMuch
  else
    let fed := if chunk = [] then decoder
      else { decoder with buffer := decoder.buffer.append chunk }
    if fed.continuationScheduled then fed else drainTurn options now fed

/-- A scheduled callback; one whose continuation was cancelled does nothing. -/
def runContinuation (options : FrameDecoderOptions) (now : ℕ → ℚ) (decoder : FrameDecoder) :
    FrameDecoder :=
  if decoder.continuationScheduled then
    drainTurn options now { decoder with continuationScheduled := false }
  else decoder

inductive DecoderInput where
  | feed (chunk : Bytes)
  | continuation

def step (options : FrameDecoderOptions) (now : ℕ → ℚ) (decoder : FrameDecoder) :
    DecoderInput → FrameDecoder
  | .feed chunk => decoder.feed options now chunk
  | .continuation => decoder.runContinuation options now

def run (options : FrameDecoderOptions) (now : ℕ → ℚ) (inputs : List DecoderInput) : FrameDecoder :=
  inputs.foldl (step options now) initial

end FrameDecoder

end OxeeUI.Wire

/-!
## The bytes of a stream of frames

The buffer is read as its chunks joined, and a frame at the head of them is read back
as it was encoded.
-/

namespace OxeeUI.Wire

namespace RelayFrameBuffer

theorem copyParts_eq (count : ℕ) (parts : List Bytes) :
    copyParts count parts = parts.flatten.take count := by
  induction parts generalizing count with
  | nil => simp [copyParts]
  | cons part parts ih => rw [copyParts, ih, List.flatten_cons, List.take_append]

theorem takeParts_eq (count : ℕ) (parts : List Bytes) :
    (takeParts count parts).1 = parts.flatten.take count ∧
      (takeParts count parts).2.flatten = parts.flatten.drop count := by
  induction parts generalizing count with
  | nil => simp [takeParts]
  | cons part parts ih =>
    unfold takeParts
    split
    · next none => simp [none]
    · split
      · next whole =>
        obtain ⟨taken, left⟩ := ih (count - part.length)
        dsimp only
        rw [taken, left, List.flatten_cons, List.take_append, List.drop_append,
          List.take_of_length_le whole, List.drop_eq_nil_of_le whole, List.nil_append]
        exact ⟨rfl, rfl⟩
      · next cut =>
        have short : count - part.length = 0 := by omega
        rw [List.flatten_cons, List.flatten_cons, List.take_append, List.drop_append, short,
          List.take_zero, List.append_nil, List.drop_zero]
        exact ⟨rfl, rfl⟩

theorem discardParts_natCast (count : ℕ) (parts : List Bytes) :
    (discardParts count parts).flatten = parts.flatten.drop count := by
  induction parts generalizing count with
  | nil => simp [discardParts]
  | cons part parts ih =>
    unfold discardParts
    split
    · next none =>
      have zero : count = 0 := by
        have bound : (count : ℚ) ≤ ((0 : ℕ) : ℚ) := by simpa using none
        exact Nat.le_zero.mp (Nat.cast_le.mp bound)
      rw [zero, List.drop_zero]
    · split
      · next whole =>
        have within : part.length ≤ count := Nat.cast_le.mp whole
        have less : (count : ℚ) - part.length = ((count - part.length : ℕ) : ℚ) := by
          rw [Nat.cast_sub within]
        rw [less, ih, List.flatten_cons, List.drop_append, List.drop_eq_nil_of_le within,
          List.nil_append]
      · next cut =>
        have within : count - part.length = 0 := by
          have short : ¬part.length ≤ count := fun bound => cut (Nat.cast_le.mpr bound)
          omega
        rw [Nat.floor_natCast, List.flatten_cons, List.flatten_cons, List.drop_append, within,
          List.drop_zero]

end RelayFrameBuffer

/-! ## Numbers -/

theorem toNat_ofNat_byte (value : ℕ) : (UInt8.ofNat value).toNat = value % 256 := by
  simp

theorem readUInt32_written {front back : Bytes} {value : ℕ} (small : value < 2 ^ 32) :
    readUInt32 (front ++ (uint32Bytes value ++ back)) front.length = value := by
  unfold readUInt32 uint32Bytes
  rw [List.drop_left]
  simp only [List.cons_append, List.nil_append, List.take_succ_cons, List.take_zero, List.foldl_cons,
    List.foldl_nil, toNat_ofNat_byte]
  omega

theorem readUInt32_append {buffer more : Bytes} {offset : ℕ} (within : offset + 4 ≤ buffer.length) :
    readUInt32 (buffer ++ more) offset = readUInt32 buffer offset := by
  unfold readUInt32
  rw [List.drop_append_of_le_length (by omega), List.take_append_of_le_length]
  rw [List.length_drop]
  omega

theorem encodeFrame_header (frame : DecodedFrame) (back : Bytes)
    (length : frame.payload.length < 2 ^ 32) :
    readUInt32 (encodeFrame frame ++ back) 1 = frame.id.toNat ∧
      readUInt32 (encodeFrame frame ++ back) 5 = frame.ack.toNat ∧
      readUInt32 (encodeFrame frame ++ back) 9 = frame.payload.length := by
  have shape : encodeFrame frame ++ back = [frame.type] ++ (uint32Bytes frame.id.toNat ++
      (uint32Bytes frame.ack.toNat ++ (uint32Bytes frame.payload.length ++
        (frame.payload ++ back)))) := by
    simp [encodeFrame]
  rw [shape]
  refine ⟨readUInt32_written frame.id.toNat_lt, ?_, ?_⟩
  · have read := @readUInt32_written ([frame.type] ++ uint32Bytes frame.id.toNat)
      (uint32Bytes frame.payload.length ++ (frame.payload ++ back)) frame.ack.toNat
      frame.ack.toNat_lt
    rw [List.append_assoc] at read
    exact read
  · have read := @readUInt32_written ([frame.type] ++ (uint32Bytes frame.id.toNat ++
      uint32Bytes frame.ack.toNat)) (frame.payload ++ back) frame.payload.length length
    rw [List.append_assoc, List.append_assoc] at read
    exact read

theorem encodeFrame_length (frame : DecodedFrame) :
    (encodeFrame frame).length = headerLength + frame.payload.length := by
  simp [encodeFrame, uint32Bytes, headerLength]
  omega

theorem encodeFrame_drop (frame : DecodedFrame) :
    (encodeFrame frame).drop headerLength = frame.payload := rfl

end OxeeUI.Wire
