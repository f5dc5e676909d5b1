import OxeeUI.Wire.FrameDecoder
import Mathlib.Tactic.Ring

/-!
# A turn over the stream

What is buffered and what is still to come are the rest of a payload to skip and the
frames not handled yet.  Each round of a turn stops or shortens what is buffered.
-/

namespace OxeeUI.Wire

namespace RelayFrameBuffer

theorem peek_read (buffer : RelayFrameBuffer)
    (headed : headerLength ≤ buffer.chunks.flatten.length) :
    readUInt32 (buffer.peek headerLength) 9 = readUInt32 buffer.chunks.flatten 9 := by
  obtain ⟨chunks, bytes⟩ := buffer
  cases chunks with
  | nil => rfl
  | cons first others =>
    simp only [peek]
    split
    · next within =>
      rw [List.flatten_cons]
      exact (readUInt32_append within).symm
    · rw [copyParts_eq]
      have joined : (first :: others).flatten.take headerLength ++
          (first :: others).flatten.drop headerLength = (first :: others).flatten :=
        List.take_append_drop _ _
      conv_rhs => rw [← joined]
      apply (readUInt32_append _).symm
      rw [List.length_take, Nat.min_eq_left headed]
      exact Nat.le_refl _

end RelayFrameBuffer

/-! ## What a stream comes to -/

def frameOutcome (frame : DecodedFrame) : DecoderEvent :=
  if maxMessageSize < frame.payload.length then .payloadTooLarge frame.payload.length
  else .frame frame

def DecoderEvent.isRead : DecoderEvent → Bool
  | .pause | .resume => true
  | _ => false

namespace FrameDecoder

def pending (decoder : FrameDecoder) : Bytes := decoder.buffer.chunks.flatten

def outcomes (decoder : FrameDecoder) : List DecoderEvent :=
  decoder.events.filter fun event => !event.isRead

def reads (decoder : FrameDecoder) : List DecoderEvent :=
  decoder.events.filter fun event => event.isRead

/-- The decoder stands in the stream of the frames, with some bytes to come. -/
structure Follows (frames : List DecodedFrame) (future : Bytes) (decoder : FrameDecoder) :
    Prop where
  counted : decoder.buffer.bytes = decoder.pending.length
  stands : ∃ handled rest skip, frames = handled ++ rest ∧
    decoder.oversizedPayloadBytesRemaining = (skip : Bytes).length ∧
    decoder.outcomes = handled.map frameOutcome ∧
    decoder.pending ++ future = skip ++ rest.flatMap encodeFrame

/-- Nothing is called for reads, and nothing is buffered on top. -/
structure Keeps (before after : FrameDecoder) : Prop where
  reads : after.reads = before.reads
  paused : after.paused = before.paused
  scheduled : after.continuationScheduled = before.continuationScheduled
  shorter : after.pending.length ≤ before.pending.length

variable {frames : List DecodedFrame} {future : Bytes} {decoder other : FrameDecoder}

theorem Keeps.refl (decoder : FrameDecoder) : Keeps decoder decoder := ⟨rfl, rfl, rfl, Nat.le_refl _⟩

theorem Keeps.trans {middle : FrameDecoder} (early : Keeps decoder middle)
    (late : Keeps middle other) : Keeps decoder other :=
  ⟨late.reads.trans early.reads, late.paused.trans early.paused,
    late.scheduled.trans early.scheduled, Nat.le_trans late.shorter early.shorter⟩

theorem Follows.congr (follows : Follows frames future decoder) (buffer : other.buffer = decoder.buffer)
    (remaining : other.oversizedPayloadBytesRemaining = decoder.oversizedPayloadBytesRemaining)
    (outcomes : other.outcomes = decoder.outcomes) : Follows frames future other := by
  have pending : other.pending = decoder.pending := congrArg (·.chunks.flatten) buffer
  obtain ⟨handled, rest, skip, split, left, called, bytes⟩ := follows.stands
  refine ⟨?_, handled, rest, skip, split, ?_, ?_, ?_⟩
  · simpa only [buffer, pending] using follows.counted
  · simpa only [remaining] using left
  · simpa only [outcomes] using called
  · simpa only [pending] using bytes

@[simp] theorem outcomes_publish (decoder : FrameDecoder) (event : DecoderEvent) :
    (decoder.publish event).outcomes = decoder.outcomes ++ if event.isRead then [] else [event] := by
  simp only [publish, outcomes, List.filter_append, List.filter_cons, List.filter_nil]
  cases event.isRead <;> rfl

@[simp] theorem reads_publish (decoder : FrameDecoder) (event : DecoderEvent) :
    (decoder.publish event).reads = decoder.reads ++ if event.isRead then [event] else [] := by
  simp only [publish, reads, List.filter_append, List.filter_cons, List.filter_nil]

/-! ## The frame at the head -/

theorem headedLength_eq (counted : decoder.buffer.bytes = decoder.pending.length)
    (headed : ¬decoder.buffer.bytes < headerLength) {frame : DecodedFrame} {back : Bytes}
    (length : frame.payload.length < 2 ^ 32)
    (bytes : decoder.pending ++ future = encodeFrame frame ++ back) :
    headedLength decoder.buffer = frame.payload.length := by
  have within : headerLength ≤ decoder.pending.length := by
    rw [counted] at headed
    exact Nat.cast_le.mp (not_lt.mp headed)
  have read := @readUInt32_append decoder.pending future 9 within
  rw [bytes, (encodeFrame_header frame back length).2.2] at read
  exact (RelayFrameBuffer.peek_read decoder.buffer within).trans read.symm

/-- A frame that is buffered whole is handed over as it was encoded. -/
theorem takeFrame_spec {frame : DecodedFrame} {back : Bytes}
    (length : frame.payload.length < 2 ^ 32)
    (bytes : decoder.pending ++ future = encodeFrame frame ++ back)
    (whole : headerLength + frame.payload.length ≤ decoder.pending.length) :
    let taken := takeFrame decoder (headerLength + frame.payload.length)
    taken.outcomes = decoder.outcomes ++ [.frame frame] ∧ taken.reads = decoder.reads ∧
      taken.pending ++ future = back ∧
      taken.pending = decoder.pending.drop (headerLength + frame.payload.length) := by
  obtain ⟨first, later⟩ := RelayFrameBuffer.takeParts_eq (headerLength + frame.payload.length)
    decoder.buffer.chunks
  rw [← encodeFrame_length] at first later whole ⊢
  have framed : decoder.buffer.chunks.flatten.take (encodeFrame frame).length = encodeFrame frame := by
    have cut := congrArg (List.take (encodeFrame frame).length) bytes
    rwa [List.take_append_of_le_length whole, List.take_left] at cut
  have behind : decoder.buffer.chunks.flatten.drop (encodeFrame frame).length ++ future = back := by
    have cut := congrArg (List.drop (encodeFrame frame).length) bytes
    rwa [List.drop_append_of_le_length whole, List.drop_left] at cut
  obtain ⟨id, ack, -⟩ := encodeFrame_header frame [] length
  rw [List.append_nil] at id ack
  have decoded : (⟨(encodeFrame frame).headD 0, UInt32.ofNat (readUInt32 (encodeFrame frame) 1),
      UInt32.ofNat (readUInt32 (encodeFrame frame) 5), (encodeFrame frame).drop headerLength⟩ :
      DecodedFrame) = frame := by
    rw [id, ack, UInt32.ofNat_toNat, UInt32.ofNat_toNat, encodeFrame_drop]
    rfl
  have published : takeFrame decoder (encodeFrame frame).length =
      publish { decoder with buffer := (decoder.buffer.take (encodeFrame frame).length).2 }
        (.frame frame) := by
    simp only [takeFrame, RelayFrameBuffer.take, first, framed, decoded]
  dsimp only
  rw [published]
  refine ⟨outcomes_publish _ _, (reads_publish _ _).trans (List.append_nil _), ?_, later⟩
  exact (congrArg (· ++ future) later).trans behind

/-- Buffered bytes with no work to run are less than the next frame. -/
theorem rest_of_idle (lengths : ∀ frame ∈ frames, frame.payload.length < 2 ^ 32)
    (follows : Follows frames [] decoder) (idle : decoder.hasRunnableWork = false) :
    decoder.outcomes = frames.map frameOutcome := by
  obtain ⟨handled, rest, skip, split, left, called, bytes⟩ := follows.stands
  rw [List.append_nil] at bytes
  have counted := follows.counted
  unfold hasRunnableWork at idle
  rw [left, counted] at idle
  cases skip with
  | cons byte skip =>
    have positive : (0 : ℚ) < ((byte :: skip).length : ℕ) := Nat.cast_pos.mpr (Nat.succ_pos _)
    have held : (0 : ℚ) < (decoder.pending.length : ℕ) := by
      rw [bytes]
      exact Nat.cast_pos.mpr (Nat.succ_pos _)
    rw [if_pos positive, decide_eq_false_iff_not] at idle
    exact absurd held idle
  | nil =>
    rw [List.length_nil, Nat.cast_zero, if_neg (lt_irrefl _)] at idle
    rw [List.nil_append] at bytes
    cases rest with
    | nil => rw [called, split, List.append_nil]
    | cons frame rest =>
      have length := lengths frame (split ▸ List.mem_append_right _ List.mem_cons_self)
      rw [List.flatMap_cons] at bytes
      have whole : headerLength + frame.payload.length ≤ decoder.pending.length := by
        rw [bytes, List.length_append, encodeFrame_length]
        exact Nat.le_add_right _ _
      have headed : ¬(decoder.pending.length : ℚ) < headerLength := by
        rw [not_lt]
        exact Nat.cast_le.mpr (Nat.le_trans (Nat.le_add_right _ _) whole)
      rw [if_neg headed, headedLength_eq counted (counted ▸ headed) length
        (by rw [List.append_nil]; exact bytes), Bool.or_eq_false_iff,
        decide_eq_false_iff_not, decide_eq_false_iff_not] at idle
      exact absurd (by exact_mod_cast whole) idle.2

/-! ## A round -/

/-- Where the rest of the turn's bytes cuts a payload to skip, it is a whole number. -/
def Turn.CutsWhole (options : FrameDecoderOptions) (turn : Turn) : Prop :=
  1 < options.bytesPerTurn - turn.bytes →
    options.bytesPerTurn - turn.bytes < turn.decoder.oversizedPayloadBytesRemaining →
      options.bytesPerTurn - turn.bytes < turn.decoder.buffer.bytes →
        (options.bytesPerTurn - turn.bytes).den = 1

instance (options : FrameDecoderOptions) (turn : Turn) : Decidable (turn.CutsWhole options) :=
  inferInstanceAs (Decidable (_ → _ → _ → _))

theorem exists_natCast {left : ℚ} (positive : 1 < left) (whole : left.den = 1) :
    ∃ count : ℕ, 0 < count ∧ left = count := by
  have integral : (left.num : ℚ) = left := Rat.den_eq_one_iff left |>.mp whole
  have above : (1 : ℤ) < left.num := by
    rw [← integral] at positive
    exact_mod_cast positive
  obtain ⟨count, isCount⟩ := Int.eq_ofNat_of_zero_le (le_of_lt (lt_trans Int.one_pos above))
  refine ⟨count, by omega, ?_⟩
  rw [← integral, isCount]
  rfl

/-- A whole number of bytes is discarded: some, unless there is nothing to discard. -/
theorem discardedPayload_whole {options : FrameDecoderOptions} {turn : Turn} {skip held : ℕ}
    (remaining : turn.decoder.oversizedPayloadBytesRemaining = skip)
    (counted : turn.decoder.buffer.bytes = held) (whole : turn.CutsWhole options) :
    (discardedPayload options turn.decoder turn.bytes = 0 ∧ (skip = 0 ∨ held = 0)) ∨
      ∃ count : ℕ, 0 < count ∧ count ≤ skip ∧ count ≤ held ∧
        discardedPayload options turn.decoder turn.bytes = count := by
  unfold Turn.CutsWhole at whole
  unfold discardedPayload
  rw [remaining, counted] at whole ⊢
  generalize options.bytesPerTurn - turn.bytes = left at whole ⊢
  by_cases nothing : (skip : ℚ) = 0 ∨ (held : ℚ) = 0
  · rw [if_pos nothing]
    exact .inl ⟨rfl, nothing.imp Nat.cast_eq_zero.mp Nat.cast_eq_zero.mp⟩
  rw [if_neg nothing]
  have some : 0 < skip ∧ 0 < held := by
    rw [not_or, Nat.cast_eq_zero, Nat.cast_eq_zero] at nothing
    omega
  refine .inr ?_
  rw [← Nat.cast_min]
  rcases le_or_gt left 1 with small | large
  · refine ⟨1, Nat.one_pos, some.1, some.2, ?_⟩
    rw [max_eq_left small, min_eq_right (by exact_mod_cast Nat.le_min.mpr some), Nat.cast_one]
  · rw [max_eq_right (le_of_lt large)]
    rcases le_or_gt (((min skip held : ℕ)) : ℚ) left with fits | cut
    · rw [min_eq_left fits]
      exact ⟨min skip held, Nat.lt_min.mpr some, Nat.min_le_left _ _, Nat.min_le_right _ _, rfl⟩
    · have cuts : left < skip ∧ left < held := by
        rw [Nat.cast_min] at cut
        exact lt_min_iff.mp cut
      obtain ⟨count, positive, isCount⟩ := exists_natCast large (whole large cuts.1 cuts.2)
      rw [isCount] at cuts cut ⊢
      refine ⟨count, positive, ?_, ?_, min_eq_right (le_of_lt cut)⟩
      · exact_mod_cast le_of_lt cuts.1
      · exact_mod_cast le_of_lt cuts.2

/-- A round that goes on: it stays in the stream, with fewer bytes buffered. -/
structure Turn.Advances (frames : List DecodedFrame) (future : Bytes) (turn next : Turn) : Prop where
  follows : Follows frames future next.decoder
  keeps : Keeps turn.decoder next.decoder
  shorter : next.decoder.pending.length < turn.decoder.pending.length
  spent : ∃ spent : ℕ, next.bytes = spent

/-- A round that stops with nothing handed over leaves no work to run. -/
structure Turn.Rests (turn next : Turn) : Prop where
  stops : next = turn.stop
  idle : turn.frames = 0 → turn.decoder.hasRunnableWork = false

variable {options : FrameDecoderOptions} {turn : Turn}

theorem pending_discard (decoder : FrameDecoder) (count : ℕ) :
    (decoder.buffer.discard (count : ℚ)).chunks.flatten = decoder.pending.drop count :=
  RelayFrameBuffer.discardParts_natCast count decoder.buffer.chunks

theorem idle_of_unheaded {skip held : ℕ} (remaining : decoder.oversizedPayloadBytesRemaining = skip)
    (counted : decoder.buffer.bytes = held) (nothing : skip = 0 ∨ held = 0)
    (short : decoder.buffer.bytes < headerLength) : decoder.hasRunnableWork = false := by
  unfold hasRunnableWork
  rw [if_pos short, remaining, counted]
  rcases nothing with rfl | rfl
  · rw [Nat.cast_zero, if_neg (lt_irrefl _)]
  · split <;> rfl

theorem skip_advances {spent count skip : ℕ} {handled rest : List DecodedFrame} {payload : Bytes}
    (counted : turn.decoder.buffer.bytes = turn.decoder.pending.length)
    (length : payload.length = skip)
    (remaining : turn.decoder.oversizedPayloadBytesRemaining = skip)
    (split : frames = handled ++ rest) (called : turn.decoder.outcomes = handled.map frameOutcome)
    (bytes : turn.decoder.pending ++ future = payload ++ rest.flatMap encodeFrame)
    (isSpent : turn.bytes = spent) (positive : 0 < count) (within : count ≤ skip)
    (held : count ≤ turn.decoder.pending.length) :
    Turn.Advances frames future turn
      { turn with
        decoder :=
          { turn.decoder with
            buffer := turn.decoder.buffer.discard count
            oversizedPayloadBytesRemaining := turn.decoder.oversizedPayloadBytesRemaining - count }
        bytes := turn.bytes + count } := by
  have cut := pending_discard turn.decoder count
  have less : (turn.decoder.buffer.discard count).chunks.flatten.length =
      turn.decoder.pending.length - count := by
    rw [cut, List.length_drop]
  have shorter : (turn.decoder.buffer.discard count).chunks.flatten.length <
      turn.decoder.pending.length := less ▸ by omega
  refine ⟨⟨?_, handled, rest, payload.drop count, split, ?_, called, ?_⟩,
    ⟨rfl, rfl, rfl, le_of_lt shorter⟩, shorter, spent + count, ?_⟩
  · apply Eq.trans (congrArg (· - (count : ℚ)) counted)
    rw [← Nat.cast_sub held, ← less]
    rfl
  · rw [List.length_drop, length, Nat.cast_sub within]
    exact congrArg (· - (count : ℚ)) remaining
  · have dropped := congrArg (List.drop count) bytes
    rw [List.drop_append_of_le_length held, List.drop_append_of_le_length (length ▸ within)]
      at dropped
    exact (congrArg (· ++ future) cut).trans dropped
  · rw [isSpent, Nat.cast_add]

theorem header_advances {spent : ℕ} {handled rest : List DecodedFrame} {frame : DecodedFrame}
    (counted : turn.decoder.buffer.bytes = turn.decoder.pending.length)
    (split : frames = (handled ++ [frame]) ++ rest)
    (called : turn.decoder.outcomes = handled.map frameOutcome)
    (bytes : turn.decoder.pending ++ future = encodeFrame frame ++ rest.flatMap encodeFrame)
    (isSpent : turn.bytes = spent) (held : headerLength ≤ turn.decoder.pending.length)
    (large : maxMessageSize < frame.payload.length) :
    Turn.Advances frames future turn
      { turn with
        decoder :=
          publish
            { turn.decoder with
              buffer := turn.decoder.buffer.discard headerLength
              oversizedPayloadBytesRemaining := frame.payload.length }
            (.payloadTooLarge frame.payload.length)
        bytes := turn.bytes + headerLength } := by
  have cut := pending_discard turn.decoder headerLength
  have less : (turn.decoder.buffer.discard headerLength).chunks.flatten.length =
      turn.decoder.pending.length - headerLength := by
    rw [cut, List.length_drop]
  have positive : 0 < headerLength := by decide
  have shorter : (turn.decoder.buffer.discard headerLength).chunks.flatten.length <
      turn.decoder.pending.length := less ▸ by omega
  refine ⟨⟨?_, handled ++ [frame], rest, frame.payload, split, rfl, ?_, ?_⟩,
    ⟨(reads_publish _ _).trans (List.append_nil _), rfl, rfl, le_of_lt shorter⟩, shorter,
    spent + headerLength, ?_⟩
  · apply Eq.trans (congrArg (· - (headerLength : ℚ)) counted)
    rw [← Nat.cast_sub held, ← less]
    rfl
  · have isOutcome : frameOutcome frame = .payloadTooLarge frame.payload.length := if_pos large
    rw [List.map_append, ← called, List.map_singleton, isOutcome]
    exact outcomes_publish _ _
  · have dropped := congrArg (List.drop headerLength) bytes
    rw [List.drop_append_of_le_length held, List.drop_append_of_le_length, encodeFrame_drop]
      at dropped
    · exact (congrArg (· ++ future) cut).trans dropped
    · rw [encodeFrame_length]
      exact Nat.le_add_right _ _
  · rw [isSpent, Nat.cast_add]

theorem frame_advances {spent : ℕ} {handled rest : List DecodedFrame} {frame : DecodedFrame}
    (counted : turn.decoder.buffer.bytes = turn.decoder.pending.length)
    (remaining : turn.decoder.oversizedPayloadBytesRemaining = 0)
    (split : frames = (handled ++ [frame]) ++ rest)
    (called : turn.decoder.outcomes = handled.map frameOutcome)
    (bytes : turn.decoder.pending ++ future = encodeFrame frame ++ rest.flatMap encodeFrame)
    (isSpent : turn.bytes = spent) (length : frame.payload.length < 2 ^ 32)
    (held : headerLength + frame.payload.length ≤ turn.decoder.pending.length)
    (small : ¬maxMessageSize < frame.payload.length) :
    Turn.Advances frames future turn
      { turn with
        decoder := takeFrame turn.decoder (headerLength + frame.payload.length)
        frames := turn.frames + 1
        bytes := turn.bytes + (headerLength + frame.payload.length : ℕ) } := by
  obtain ⟨handed, quiet, behind, cut⟩ := takeFrame_spec length bytes held
  have less : (takeFrame turn.decoder (headerLength + frame.payload.length)).pending.length =
      turn.decoder.pending.length - (headerLength + frame.payload.length) := by
    rw [cut, List.length_drop]
  have positive : 0 < headerLength := by decide
  have shorter : (takeFrame turn.decoder (headerLength + frame.payload.length)).pending.length <
      turn.decoder.pending.length := less ▸ by omega
  refine ⟨⟨?_, handled ++ [frame], rest, [], split, remaining, ?_, behind⟩,
    ⟨quiet, rfl, rfl, le_of_lt shorter⟩, shorter, spent + (headerLength + frame.payload.length), ?_⟩
  · apply Eq.trans (congrArg (· - ((headerLength + frame.payload.length : ℕ) : ℚ)) counted)
    rw [← Nat.cast_sub held, ← less]
  · have isOutcome : frameOutcome frame = .frame frame := if_neg small
    rw [List.map_append, ← called, List.map_singleton, isOutcome]
    exact handed
  · rw [isSpent, Nat.cast_add _ (headerLength + frame.payload.length)]

/-- The loop's body stops for want of a frame or of budget, or advances in the stream. -/
theorem Turn.decode_cases (lengths : ∀ frame ∈ frames, frame.payload.length < 2 ^ 32)
    (follows : Follows frames future turn.decoder) {spent : ℕ} (isSpent : turn.bytes = spent)
    (whole : turn.CutsWhole options) :
    turn.Rests (turn.decode options) ∨ turn.Advances frames future (turn.decode options) := by
  obtain ⟨handled, rest, skip, split, left, called, bytes⟩ := follows.stands
  have counted := follows.counted
  unfold Turn.decode
  dsimp only
  rcases discardedPayload_whole left counted whole with ⟨none, nothing⟩ | discards
  case inr =>
    obtain ⟨count, positive, within, held, isCount⟩ := discards
    rw [isCount, if_pos (Nat.cast_pos.mpr positive)]
    exact .inr (skip_advances counted rfl left split called bytes isSpent positive within held)
  rw [none, if_neg (lt_irrefl _)]
  split
  · next short => exact .inl ⟨rfl, fun _ => idle_of_unheaded left counted nothing short⟩
  · next headed =>
    have held : headerLength ≤ turn.decoder.pending.length := by
      rw [counted] at headed
      exact Nat.cast_le.mp (not_lt.mp headed)
    have noSkip : skip = [] := by
      apply List.eq_nil_of_length_eq_zero
      apply nothing.resolve_right
      have positive : 0 < headerLength := by decide
      omega
    subst noSkip
    rw [List.nil_append] at bytes
    cases rest with
    | nil =>
      have none := (List.append_eq_nil_iff.mp bytes).1
      rw [none] at held
      exact absurd held (by decide)
    | cons frame rest =>
      have length := lengths frame (split ▸ List.mem_append_right _ List.mem_cons_self)
      rw [List.flatMap_cons] at bytes
      have isLength := headedLength_eq counted headed length bytes
      have split' : frames = (handled ++ [frame]) ++ rest := by
        rw [split, List.append_assoc, List.singleton_append]
      rw [isLength]
      split
      · next large =>
        exact .inr (header_advances counted split' called bytes isSpent held large)
      · next small =>
        split
        · next unfilled =>
          refine .inl ⟨rfl, fun _ => ?_⟩
          rw [hasRunnableWork, left, List.length_nil, Nat.cast_zero, if_neg (lt_irrefl _),
            if_neg headed, isLength]
          apply Bool.or_eq_false_iff.mpr ⟨decide_eq_false small, decide_eq_false ?_⟩
          rw [not_le, ← Nat.cast_add]
          exact unfilled
        · next filled =>
          split
          · next beyond => exact .inl ⟨rfl, fun first => absurd beyond.1 (by omega)⟩
          · rw [counted, not_lt] at filled
            exact .inr (frame_advances counted left split' called bytes isSpent length
              (Nat.cast_le.mp filled) small)

end FrameDecoder

end OxeeUI.Wire
