import OxeeUI.Library.JsMap
import OxeeUI.Library.WellFormedText

/-!
# The delta coalescer

Streamed deltas are gathered into one text for each key, within byte limits, and
are flushed as whole texts by a shared timer or by a barrier.
-/

namespace OxeeUI.Wire

open OxeeUI.Library

/-- `AGENT_SESSION_STREAMED_TEXT_TRUNCATION_MARKER`, all of it ASCII. -/
def truncationMarker : List Char := "\n[Orca: streamed output truncated]".toList

structure DeltaCoalescerConfig where
  maxRetainedBytes : ℕ
  maxTotalRetainedBytes : ℕ
  maxStreams : ℕ

/-- `appended` and `settled` are kept for proofs: every delta since the stream was made,
and its text when it was last emitted, skipped or marked as flushed. -/
structure DeltaStream where
  chunks : List Text
  retainedBytes : ℕ
  textLength : ℕ
  observedBytes : ℕ
  truncated : Bool
  dirty : Bool
  appended : List Text
  settled : Text
deriving DecidableEq

def DeltaStream.empty : DeltaStream := ⟨[], 0, 0, 0, false, false, [], []⟩

/-- `stream.chunks.join('')` -/
def DeltaStream.text (stream : DeltaStream) : Text := stream.chunks.flatten

structure AgentSessionDeltaSnapshot where
  text : Text
  observedBytes : ℕ
  truncated : Bool

def DeltaStream.snapshot (stream : DeltaStream) : AgentSessionDeltaSnapshot :=
  ⟨stream.text, stream.observedBytes, stream.truncated⟩

/-- How the sink answers during one step; `emit` is `false` where it refuses. -/
structure DeltaSink where
  shouldEmit : Text → ℕ → Bool
  emit : Text → AgentSessionDeltaSnapshot → Bool

/-- `evictable` is a set in insertion order, `timer` says whether a flush is scheduled, and
`emitted` lists what the sink was given. -/
structure DeltaCoalescer where
  streams : JsMap Text DeltaStream
  totalRetainedBytes : ℤ
  timer : Bool
  evictable : List Text
  emitted : List (Text × AgentSessionDeltaSnapshot)

structure BoundedChunks where
  chunks : List Text
  retainedBytes : ℕ
  truncated : Bool

/-- The characters that a buffer of a size holds when chunks are written one after another.
Only whole characters are written, and a chunk that is cut is the last one. -/
def writeStreamPrefix (size : ℕ) (delta : Text) : List Text → List Char → List Char
  | [], written => written ++ takeUtf8 (size - utf8Length written) (characters delta)
  | chunk :: chunks, written =>
    if utf8Length written = size then written
    else
      let more := takeUtf8 (size - utf8Length written) (characters chunk)
      if utf8Length more < textBytes chunk then written ++ more
      else writeStreamPrefix size delta chunks (written ++ more)

def truncateStreamPrefix (current : List Text) (delta : Text) (maxBytes : ℕ) : BoundedChunks :=
  let headBytes := maxBytes - truncationMarker.length
  let written := writeStreamPrefix headBytes delta current []
  let visibleMarker := truncationMarker.take
    (min truncationMarker.length (maxBytes - utf8Length written))
  let text := textOf (written ++ visibleMarker)
  { chunks := if text = [] then [] else [text]
    retainedBytes := textBytes text
    truncated := true }

def appendWithinUtf8ByteLimit (current : List Text) (currentBytes : ℕ) (delta : Text)
    (deltaBytes maxBytes : ℕ) : BoundedChunks :=
  if deltaBytes ≤ maxBytes - currentBytes then
    { chunks := if delta = [] then current else current ++ [delta]
      retainedBytes := currentBytes + deltaBytes
      truncated := false }
  else truncateStreamPrefix current delta maxBytes

namespace DeltaCoalescer

def initial : DeltaCoalescer := ⟨JsMap.empty, 0, false, [], []⟩

/-- Nothing of the stream's text is left to emit. -/
def settle (state : DeltaCoalescer) (key : Text) (stream : DeltaStream) : DeltaCoalescer :=
  { state with
    streams := state.streams.set key { stream with dirty := false, settled := stream.text } }

/-- `flushKey`, with what it returns. -/
def flushKey (sink : DeltaSink) (state : DeltaCoalescer) (key : Text) : DeltaCoalescer × Bool :=
  match state.streams.get? key with
  | none => (state, true)
  | some stream =>
    if stream.dirty = false then (state, true)
    else if sink.shouldEmit key stream.textLength = false then (state.settle key stream, true)
    else
      let given := { state with emitted := state.emitted ++ [(key, stream.snapshot)] }
      if sink.emit key stream.snapshot = false then (given, false)
      else (given.settle key stream, true)

def scheduleFlush (state : DeltaCoalescer) : DeltaCoalescer := { state with timer := true }

/-- The loop of `flushAll`: every key is flushed, whatever the others return. -/
def flushKeys (sink : DeltaSink) : List Text → DeltaCoalescer → DeltaCoalescer × Bool
  | [], state => (state, true)
  | key :: keys, state =>
    let flushed := flushKey sink state key
    let others := flushKeys sink keys flushed.1
    (others.1, flushed.2 && others.2)

def flushAll (sink : DeltaSink) (state : DeltaCoalescer) : DeltaCoalescer × Bool :=
  let flushed := flushKeys sink state.streams.keys { state with timer := false }
  (if flushed.2 then flushed.1 else flushed.1.scheduleFlush, flushed.2)

/-- `streams.delete(key)`, with the bytes it gives back. -/
def drop (state : DeltaCoalescer) (key : Text) : DeltaCoalescer :=
  match state.streams.get? key with
  | none => state
  | some stream =>
    { state with
      streams := state.streams.delete key
      totalRetainedBytes := state.totalRetainedBytes - stream.retainedBytes }

/-- The loop that makes room for a new key; the list is what it still finds in `evictable`. -/
def makeRoom (config : DeltaCoalescerConfig) (isProtected : Text → Bool) (sink : DeltaSink)
    (state : DeltaCoalescer) : List Text → DeltaCoalescer × Bool
  | [] => ({ state with evictable := [] }, true)
  | oldest :: others =>
    let found := { state with evictable := oldest :: others }
    if (oldest :: others).length < max 1 config.maxStreams then (found, true)
    -- The empty key is falsy.
    else if oldest = [] then (found, true)
    else if isProtected oldest then makeRoom config isProtected sink state others
    else
      let flushed := flushKey sink found oldest
      if flushed.2 then ({ flushed.1.drop oldest with evictable := others }, true)
      else (flushed.1, false)

/-- What `append` does once it has its stream. -/
def appendTo (config : DeltaCoalescerConfig) (state : DeltaCoalescer) (key : Text)
    (stream : DeltaStream) (delta : Text) : DeltaCoalescer :=
  let deltaBytes := textBytes delta
  let observed :=
    { stream with
      observedBytes := stream.observedBytes + deltaBytes
      appended := stream.appended ++ [delta] }
  if stream.truncated then
    scheduleFlush { state with streams := state.streams.set key observed }
  else
    let availableTotal := (config.maxTotalRetainedBytes - state.totalRetainedBytes).toNat
    let streamLimit := min config.maxRetainedBytes (stream.retainedBytes + availableTotal)
    let next := appendWithinUtf8ByteLimit stream.chunks stream.retainedBytes delta deltaBytes
      streamLimit
    scheduleFlush
      { state with
        totalRetainedBytes := state.totalRetainedBytes + (next.retainedBytes - stream.retainedBytes)
        streams := state.streams.set key
          { observed with
            textLength :=
              if next.truncated then (next.chunks.head?.map List.length).getD 0
              else stream.textLength + delta.length
            chunks := next.chunks
            retainedBytes := next.retainedBytes
            truncated := next.truncated
            dirty := true } }

/-- `append`, with what it returns. -/
def append (config : DeltaCoalescerConfig) (isProtected : Text → Bool) (sink : DeltaSink)
    (state : DeltaCoalescer) (key delta : Text) : DeltaCoalescer × Bool :=
  match state.streams.get? key with
  | some stream =>
    let listed :=
      if isProtected key then { state with evictable := state.evictable.erase key } else state
    (appendTo config listed key stream delta, true)
  | none =>
    if isProtected key then (appendTo config state key DeltaStream.empty delta, true)
    else
      let room := makeRoom config isProtected sink state state.evictable
      if room.2 then
        (appendTo config
          { room.1 with evictable :=
              if key ∈ room.1.evictable then room.1.evictable else room.1.evictable ++ [key] }
          key DeltaStream.empty delta, true)
      else (room.1, false)

def forget (state : DeltaCoalescer) (key : Text) : DeltaCoalescer :=
  if state.streams.has key then
    { state.drop key with evictable := state.evictable.erase key }
  else state

def markFlushed (state : DeltaCoalescer) (key : Text) : DeltaCoalescer :=
  match state.streams.get? key with
  | none => state
  | some stream => state.settle key stream

def dispose (state : DeltaCoalescer) : DeltaCoalescer :=
  { state with streams := JsMap.empty, totalRetainedBytes := 0, timer := false, evictable := [] }

inductive DeltaInput where
  | append (key delta : Text) (isProtected : Text → Bool) (sink : DeltaSink)
  | flush (key : Text) (sink : DeltaSink)
  | flushAll (sink : DeltaSink)
  | timerFired (sink : DeltaSink)
  | forget (key : Text)
  | markFlushed (key : Text)
  | dispose

def step (config : DeltaCoalescerConfig) (state : DeltaCoalescer) : DeltaInput → DeltaCoalescer
  | .append key delta isProtected sink => (append config isProtected sink state key delta).1
  | .flush key sink => (flushKey sink state key).1
  | .flushAll sink => (flushAll sink state).1
  | .timerFired sink =>
    if state.timer then (flushAll sink { state with timer := false }).1 else state
  | .forget key => state.forget key
  | .markFlushed key => state.markFlushed key
  | .dispose => state.dispose

def run (config : DeltaCoalescerConfig) (inputs : List DeltaInput) : DeltaCoalescer :=
  inputs.foldl (step config) initial

end DeltaCoalescer

end OxeeUI.Wire
