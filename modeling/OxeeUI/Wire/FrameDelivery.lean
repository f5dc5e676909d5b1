import OxeeUI.Wire.FrameTurns

/-!
# What a decoder delivers

Over a run of chunks and continuations the decoder hands over the frames of the
stream in order, with reads paused while a continuation is scheduled.
-/

namespace OxeeUI.Wire

namespace FrameDecoder

variable {options : FrameDecoderOptions} {now : ℕ → ℚ} {frames : List DecodedFrame}
  {fed future : Bytes} {decoder : FrameDecoder} {turn : Turn}

/-! ## A turn -/

/-- Whether the budget check lets the loop's body go on. -/
def Turn.withinBudget (options : FrameDecoderOptions) (now : ℕ → ℚ) (startedAt : ℚ) (turn : Turn) :
    Bool :=
  !(options.framesPerTurn ≤ turn.frames || options.bytesPerTurn ≤ turn.bytes ||
    (0 < turn.frames && options.turnMs ≤ now turn.decoder.readings - startedAt))

/-- The turns at which the loop's body decodes. -/
def Turn.decoded (options : FrameDecoderOptions) (now : ℕ → ℚ) (startedAt : ℚ) :
    ℕ → Turn → List Turn
  | 0, _ => []
  | rounds + 1, turn =>
    if turn.running then
      (if turn.withinBudget options now startedAt then [turn] else []) ++
        Turn.decoded options now startedAt rounds (turn.step options now startedAt)
    else []

theorem positiveLimit_pos (value : Option ℚ) {fallback : ℚ} (positive : 0 < fallback) :
    0 < positiveLimit value fallback := by
  unfold positiveLimit
  split
  · split
    · assumption
    · exact positive
  · exact positive

theorem framesPerTurn_pos (options : FrameDecoderOptions) : 0 < options.framesPerTurn :=
  positiveLimit_pos _ (by norm_num)

theorem bytesPerTurn_pos (options : FrameDecoderOptions) : 0 < options.bytesPerTurn :=
  positiveLimit_pos _ (by norm_num [maxMessageSize, headerLength])

/-- A round that ends the turn; before anything was spent it leaves no work to run. -/
structure Turn.Ends (frames : List DecodedFrame) (future : Bytes) (turn next : Turn) : Prop where
  follows : Follows frames future next.decoder
  keeps : Keeps turn.decoder next.decoder
  stopped : next.running = false
  idle : turn.frames = 0 → turn.bytes = 0 → next.decoder.hasRunnableWork = false

theorem Turn.step_cases (lengths : ∀ frame ∈ frames, frame.payload.length < 2 ^ 32) (startedAt : ℚ)
    (follows : Follows frames future turn.decoder) {spent : ℕ} (isSpent : turn.bytes = spent)
    (whole : turn.withinBudget options now startedAt → turn.CutsWhole options) :
    turn.Ends frames future (turn.step options now startedAt) ∨
      turn.Advances frames future (turn.step options now startedAt) := by
  have ends_or_advances : ∀ read : Turn, read.decoder.buffer = turn.decoder.buffer →
      read.decoder.oversizedPayloadBytesRemaining = turn.decoder.oversizedPayloadBytesRemaining →
      read.decoder.outcomes = turn.decoder.outcomes → read.bytes = turn.bytes →
      Keeps turn.decoder read.decoder → (turn.frames = 0 → read.frames = 0) →
      turn.CutsWhole options →
      turn.Ends frames future (read.decode options) ∨
        turn.Advances frames future (read.decode options) := by
    intro read buffer remaining called bytes keeps fresh cuts
    have cuts' : read.CutsWhole options := by
      unfold Turn.CutsWhole at cuts ⊢
      rwa [buffer, remaining, bytes]
    have follows' := follows.congr buffer remaining called
    rcases Turn.decode_cases lengths follows' (bytes.trans isSpent) cuts' with rests | advances
    · refine .inl ⟨?_, ?_, ?_, ?_⟩
      · rw [rests.stops]
        exact follows'
      · rw [rests.stops]
        exact keeps
      · rw [rests.stops]
        rfl
      · intro none _
        rw [rests.stops]
        exact rests.idle (fresh none)
    · refine .inr ⟨advances.follows, keeps.trans advances.keeps, ?_, advances.spent⟩
      exact Nat.lt_of_lt_of_le advances.shorter keeps.shorter
  unfold Turn.step
  split
  · next beyond =>
    refine .inl ⟨follows, .refl _, rfl, fun none unspent => ?_⟩
    rw [none, unspent, Nat.cast_zero] at beyond
    rcases beyond with frames | bytes
    · exact absurd (framesPerTurn_pos options) (not_lt.mpr frames)
    · exact absurd (bytesPerTurn_pos options) (not_lt.mpr bytes)
  · next under =>
    rw [not_or] at under
    split
    · next some =>
      dsimp only
      split
      · exact .inl ⟨follows.congr rfl rfl rfl, ⟨rfl, rfl, rfl, Nat.le_refl _⟩, rfl,
          fun none => absurd none (Nat.ne_of_gt some)⟩
      · next early =>
        refine ends_or_advances _ rfl rfl rfl rfl ⟨rfl, rfl, rfl, Nat.le_refl _⟩ id (whole ?_)
        simp [Turn.withinBudget, under.1, under.2, early]
    · next none =>
      refine ends_or_advances turn rfl rfl rfl rfl (.refl _) id (whole ?_)
      simp [Turn.withinBudget, under.1, under.2, none]

theorem Turn.run_stopped {startedAt : ℚ} (rounds : ℕ) (stopped : turn.running = false) :
    Turn.run options now startedAt rounds turn = turn := by
  cases rounds with
  | zero => rfl
  | succ rounds => rw [Turn.run, if_neg (by rw [stopped]; exact Bool.false_ne_true)]

theorem Turn.run_follows (lengths : ∀ frame ∈ frames, frame.payload.length < 2 ^ 32)
    (startedAt : ℚ) (rounds : ℕ) (follows : Follows frames future turn.decoder)
    (spent : ∃ spent : ℕ, turn.bytes = spent)
    (whole : ∀ round ∈ Turn.decoded options now startedAt rounds turn, round.CutsWhole options) :
    Follows frames future (Turn.run options now startedAt rounds turn).decoder ∧
      Keeps turn.decoder (Turn.run options now startedAt rounds turn).decoder := by
  induction rounds generalizing turn with
  | zero => exact ⟨follows, .refl _⟩
  | succ rounds ih =>
    unfold Turn.run
    split
    · next running =>
      obtain ⟨spent, isSpent⟩ := spent
      rw [Turn.decoded, if_pos running, List.forall_mem_append] at whole
      rcases Turn.step_cases lengths startedAt follows isSpent
        (fun within => whole.1 turn (by rw [if_pos within]; exact List.mem_singleton_self _))
        with ends | advances
      · rw [Turn.run_stopped rounds ends.stopped]
        exact ⟨ends.follows, ends.keeps⟩
      · obtain ⟨follows', keeps⟩ := ih advances.follows advances.spent whole.2
        exact ⟨follows', advances.keeps.trans keeps⟩
    · exact ⟨follows, .refl _⟩

theorem Turn.run_progress (lengths : ∀ frame ∈ frames, frame.payload.length < 2 ^ 32)
    {startedAt : ℚ} (rounds : ℕ) (follows : Follows frames future decoder)
    (whole : ∀ round ∈ Turn.decoded options now startedAt (rounds + 1) ⟨decoder, 0, 0, true⟩,
      round.CutsWhole options) :
    let last := Turn.run options now startedAt (rounds + 1) ⟨decoder, 0, 0, true⟩
    last.decoder.hasRunnableWork = true → last.decoder.pending.length < decoder.pending.length := by
  dsimp only
  rw [Turn.run, if_pos rfl]
  rw [Turn.decoded, if_pos rfl, List.forall_mem_append] at whole
  intro runnable
  have unspent : (⟨decoder, 0, 0, true⟩ : Turn).bytes = (0 : ℕ) := Nat.cast_zero.symm
  rcases Turn.step_cases lengths startedAt follows unspent
    (fun within => whole.1 _ (by rw [if_pos within]; exact List.mem_singleton_self _))
    with ends | advances
  · rw [Turn.run_stopped rounds ends.stopped, ends.idle rfl rfl] at runnable
    exact absurd runnable Bool.false_ne_true
  · have keeps := (Turn.run_follows lengths startedAt rounds advances.follows advances.spent
      whole.2).2
    exact Nat.lt_of_le_of_lt keeps.shorter advances.shorter

/-! ## Reads -/

/-- The first calls of pause and resume, by turns. -/
def readsOf (count : ℕ) : List DecoderEvent :=
  (List.range count).map fun index => if index % 2 = 0 then .pause else .resume

/-- Pause and resume were called by turns, and reads are paused after a pause. -/
def Alternates (decoder : FrameDecoder) : Prop :=
  ∃ count, decoder.reads = readsOf count ∧ decoder.paused = decide (count % 2 = 1)

theorem readsOf_succ (count : ℕ) :
    readsOf (count + 1) = readsOf count ++ [if count % 2 = 0 then .pause else .resume] := by
  simp [readsOf, List.range_succ]

theorem acquirePause_alternates (alternates : Alternates decoder) :
    Alternates decoder.acquirePause ∧ decoder.acquirePause.paused = true := by
  unfold acquirePause
  split
  · next paused => exact ⟨alternates, paused⟩
  · next unpaused =>
    obtain ⟨count, called, isPaused⟩ := alternates
    have even : count % 2 = 0 := by
      rw [isPaused, decide_eq_true_iff] at unpaused
      omega
    refine ⟨⟨count + 1, ?_, ?_⟩, rfl⟩
    · rw [readsOf_succ, if_pos even, ← called]
      exact reads_publish _ _
    · exact (decide_eq_true (by omega)).symm

theorem releasePause_alternates (alternates : Alternates decoder) :
    Alternates decoder.releasePause ∧ decoder.releasePause.paused = false := by
  unfold releasePause
  split
  · next paused =>
    obtain ⟨count, called, isPaused⟩ := alternates
    have odd : count % 2 = 1 := by
      rw [paused] at isPaused
      exact of_decide_eq_true isPaused.symm
    refine ⟨⟨count + 1, ?_, ?_⟩, rfl⟩
    · rw [readsOf_succ, if_neg (by omega), ← called]
      exact reads_publish _ _
    · exact (decide_eq_false (by omega)).symm
  · next unpaused => exact ⟨alternates, Bool.eq_false_iff.mpr unpaused⟩

/-! ## Calls -/

/-- The decoder between two calls, with some bytes fed. -/
structure Sound (frames : List DecodedFrame) (fed future : Bytes) (decoder : FrameDecoder) :
    Prop where
  follows : Follows frames future decoder
  within : decoder.pending.length ≤ fed.length
  idle : decoder.continuationScheduled = false → decoder.hasRunnableWork = false
  busy : decoder.continuationScheduled = true → 0 < decoder.pending.length
  paused : decoder.paused = decoder.continuationScheduled
  alternates : Alternates decoder

theorem pending_pos (counted : decoder.buffer.bytes = decoder.pending.length)
    (runnable : decoder.hasRunnableWork = true) : 0 < decoder.pending.length := by
  by_contra empty
  have none : decoder.buffer.bytes = 0 := by
    rw [counted, Nat.le_zero.mp (not_lt.mp empty), Nat.cast_zero]
  have short : decoder.buffer.bytes < headerLength := by
    rw [none]
    exact Nat.cast_pos.mpr (by decide)
  unfold hasRunnableWork at runnable
  rw [if_pos short, none] at runnable
  revert runnable
  split <;> simp

/-- The turns of a drain at which the loop's body decodes. -/
def drainedTurns (options : FrameDecoderOptions) (now : ℕ → ℚ) (decoder : FrameDecoder) :
    List Turn :=
  Turn.decoded options now (now decoder.readings) (turnRounds decoder)
    ⟨{ decoder with readings := decoder.readings + 1 }, 0, 0, true⟩

theorem Follows.schedule (follows : Follows frames future decoder) :
    Follows frames future decoder.scheduleContinuation := by
  unfold scheduleContinuation acquirePause
  split
  · exact follows
  · split
    · exact follows.congr rfl rfl rfl
    · exact follows.congr rfl rfl ((outcomes_publish _ _).trans (List.append_nil _))

theorem Follows.release (follows : Follows frames future decoder) :
    Follows frames future decoder.releasePause := by
  unfold releasePause
  split
  · exact follows.congr rfl rfl ((outcomes_publish _ _).trans (List.append_nil _))
  · exact follows

theorem buffer_scheduleContinuation (decoder : FrameDecoder) :
    decoder.scheduleContinuation.buffer = decoder.buffer := by
  unfold scheduleContinuation acquirePause
  repeat' split
  all_goals rfl

/-- A drain leaves the decoder in the stream, and a continuation it schedules has less to do. -/
theorem drainTurn_sound (lengths : ∀ frame ∈ frames, frame.payload.length < 2 ^ 32)
    (follows : Follows frames future decoder) (within : decoder.pending.length ≤ fed.length)
    (unscheduled : decoder.continuationScheduled = false) (alternates : Alternates decoder)
    (whole : ∀ turn ∈ drainedTurns options now decoder, turn.CutsWhole options) :
    Sound frames fed future (drainTurn options now decoder) ∧
      ((drainTurn options now decoder).continuationScheduled = true →
        (drainTurn options now decoder).pending.length < decoder.pending.length) := by
  have started : Follows frames future { decoder with readings := decoder.readings + 1 } :=
    follows.congr rfl rfl rfl
  have unspent : ∃ spent : ℕ,
      (⟨{ decoder with readings := decoder.readings + 1 }, 0, 0, true⟩ : Turn).bytes = spent :=
    ⟨0, Nat.cast_zero.symm⟩
  obtain ⟨follows', keeps⟩ := Turn.run_follows lengths (now decoder.readings) (turnRounds decoder)
    started unspent whole
  have progress := Turn.run_progress lengths (2 * decoder.buffer.chunks.flatten.length + 1) started
    whole
  unfold drainTurn
  dsimp only at progress ⊢
  unfold turnRounds at follows' keeps ⊢
  revert follows' keeps progress
  generalize (Turn.run options now (now decoder.readings)
    (2 * decoder.buffer.chunks.flatten.length + 2)
    ⟨{ decoder with readings := decoder.readings + 1 }, 0, 0, true⟩).decoder = last
  intro follows' keeps progress
  have alternates' : Alternates last := by
    obtain ⟨count, called, isPaused⟩ := alternates
    exact ⟨count, keeps.reads.trans called, keeps.paused.trans isPaused⟩
  have shorter : last.pending.length ≤ fed.length := Nat.le_trans keeps.shorter within
  have unscheduled' : last.continuationScheduled = false := keeps.scheduled.trans unscheduled
  split
  · next runnable =>
    have buffer := buffer_scheduleContinuation last
    have pending : last.scheduleContinuation.pending = last.pending :=
      congrArg (·.chunks.flatten) buffer
    have scheduled : last.scheduleContinuation =
        acquirePause { last with continuationScheduled := true } := by
      rw [scheduleContinuation, if_neg (by rw [unscheduled']; exact Bool.false_ne_true)]
    have alternates'' : Alternates { last with continuationScheduled := true } := alternates'
    obtain ⟨byTurns, isPaused⟩ := acquirePause_alternates alternates''
    have isScheduled : last.scheduleContinuation.continuationScheduled = true := by
      rw [scheduled, acquirePause]
      split <;> rfl
    refine ⟨⟨follows'.schedule, pending ▸ shorter, ?_, ?_, ?_, scheduled ▸ byTurns⟩, ?_⟩
    · rw [isScheduled]
      exact fun impossible => absurd impossible.symm Bool.false_ne_true
    · rw [pending]
      exact fun _ => pending_pos follows'.counted runnable
    · rw [isScheduled, scheduled, isPaused]
    · rw [pending]
      exact fun _ => progress runnable
  · next idle =>
    obtain ⟨byTurns, unpaused⟩ := releasePause_alternates alternates'
    have same : last.releasePause.buffer = last.buffer ∧
        last.releasePause.oversizedPayloadBytesRemaining = last.oversizedPayloadBytesRemaining ∧
        last.releasePause.continuationScheduled = last.continuationScheduled := by
      unfold releasePause
      split <;> exact ⟨rfl, rfl, rfl⟩
    have pending : last.releasePause.pending = last.pending := congrArg (·.chunks.flatten) same.1
    refine ⟨⟨follows'.release, pending ▸ shorter, ?_, ?_, ?_, byTurns⟩, ?_⟩
    · intro _
      rw [hasRunnableWork, same.1, same.2.1]
      exact Bool.eq_false_iff.mpr idle
    · rw [same.2.2, unscheduled']
      exact fun impossible => absurd impossible Bool.false_ne_true
    · rw [unpaused, same.2.2, unscheduled']
    · rw [same.2.2, unscheduled']
      exact fun impossible => absurd impossible Bool.false_ne_true

/-! ## Runs -/

def DecoderInput.bytes : DecoderInput → Bytes
  | .feed chunk => chunk
  | .continuation => []

def fedBytes (inputs : List DecoderInput) : Bytes := inputs.flatMap DecoderInput.bytes

/-- The turns of a call at which the loop's body decodes. -/
def stepTurns (options : FrameDecoderOptions) (now : ℕ → ℚ) (decoder : FrameDecoder) :
    DecoderInput → List Turn
  | .feed chunk =>
    if (frameDecoderMaxRetainedBytes : ℚ) < decoder.buffer.bytes + chunk.length then []
    else
      let fed := if chunk = [] then decoder
        else { decoder with buffer := decoder.buffer.append chunk }
      if fed.continuationScheduled then [] else drainedTurns options now fed
  | .continuation =>
    if decoder.continuationScheduled then
      drainedTurns options now { decoder with continuationScheduled := false }
    else []

def turnsFrom (options : FrameDecoderOptions) (now : ℕ → ℚ) :
    FrameDecoder → List DecoderInput → List Turn
  | _, [] => []
  | decoder, input :: inputs =>
    stepTurns options now decoder input ++
      turnsFrom options now (step options now decoder input) inputs

/-- No call retains more than the decoder's limit. -/
def WithinRetention (options : FrameDecoderOptions) (now : ℕ → ℚ) :
    FrameDecoder → List DecoderInput → Prop
  | _, [] => True
  | decoder, input :: inputs =>
    decoder.buffer.bytes + input.bytes.length ≤ frameDecoderMaxRetainedBytes ∧
      WithinRetention options now (step options now decoder input) inputs

theorem initial_sound (frames : List DecodedFrame) :
    Sound frames [] (frames.flatMap encodeFrame) initial where
  follows := ⟨Nat.cast_zero.symm, [], frames, [], rfl, Nat.cast_zero.symm, rfl, rfl⟩
  within := Nat.le_refl _
  idle _ := by decide
  busy := by decide
  paused := rfl
  alternates := ⟨0, rfl, rfl⟩

theorem Sound.append {chunk : Bytes} (sound : Sound frames fed (chunk ++ future) decoder) :
    let buffered := if chunk = [] then decoder
      else { decoder with buffer := decoder.buffer.append chunk }
    Follows frames future buffered ∧ buffered.pending = decoder.pending ++ chunk ∧
      buffered.continuationScheduled = decoder.continuationScheduled ∧
      buffered.paused = decoder.paused ∧ buffered.reads = decoder.reads := by
  dsimp only
  split
  · next nothing =>
    subst nothing
    exact ⟨sound.follows, (List.append_nil _).symm, rfl, rfl, rfl⟩
  · have joined : (decoder.buffer.append chunk).chunks.flatten = decoder.pending ++ chunk := by
      simp [RelayFrameBuffer.append, pending]
    obtain ⟨handled, rest, skip, split, left, called, bytes⟩ := sound.follows.stands
    refine ⟨⟨?_, handled, rest, skip, split, left, called, ?_⟩, joined, rfl, rfl, rfl⟩
    · apply Eq.trans (congrArg (· + (chunk.length : ℚ)) sound.follows.counted)
      rw [← Nat.cast_add, ← List.length_append]
      exact congrArg (fun bytes : Bytes => (bytes.length : ℚ)) joined.symm
    · rw [← bytes, ← List.append_assoc]
      exact congrArg (· ++ future) joined

theorem step_sound (lengths : ∀ frame ∈ frames, frame.payload.length < 2 ^ 32)
    {input : DecoderInput} (sound : Sound frames fed (input.bytes ++ future) decoder)
    (retained : decoder.buffer.bytes + input.bytes.length ≤ frameDecoderMaxRetainedBytes)
    (whole : ∀ turn ∈ stepTurns options now decoder input, turn.CutsWhole options) :
    Sound frames (fed ++ input.bytes) future (step options now decoder input) := by
  cases input with
  | continuation =>
    rw [DecoderInput.bytes, List.append_nil]
    change Sound frames fed future (decoder.runContinuation options now)
    unfold runContinuation
    split
    · next scheduled =>
      rw [stepTurns, if_pos scheduled] at whole
      have follows : Follows frames future { decoder with continuationScheduled := false } :=
        sound.follows.congr rfl rfl rfl
      have alternates : Alternates { decoder with continuationScheduled := false } :=
        sound.alternates
      exact (drainTurn_sound lengths follows sound.within rfl alternates whole).1
    · exact sound
  | feed chunk =>
    have coming : Sound frames fed (chunk ++ future) decoder := sound
    obtain ⟨follows, pending, scheduled, paused, reads⟩ := coming.append
    rw [DecoderInput.bytes] at retained ⊢
    change Sound frames (fed ++ chunk) future (decoder.feed options now chunk)
    rw [feed, if_neg (not_lt.mpr retained)]
    rw [stepTurns, if_neg (not_lt.mpr retained)] at whole
    revert follows pending scheduled paused reads whole
    dsimp only
    generalize (if chunk = [] then decoder
      else { decoder with buffer := decoder.buffer.append chunk }) = buffered
    intro whole follows pending scheduled paused reads
    have within : buffered.pending.length ≤ (fed ++ chunk).length := by
      rw [pending, List.length_append, List.length_append]
      exact Nat.add_le_add_right sound.within _
    have alternates : Alternates buffered := by
      obtain ⟨count, called, isPaused⟩ := sound.alternates
      exact ⟨count, reads.trans called, paused.trans isPaused⟩
    split
    · next waiting =>
      refine ⟨follows, within, ?_, ?_, ?_, alternates⟩
      · rw [waiting]
        exact fun impossible => absurd impossible.symm Bool.false_ne_true
      · rw [pending, List.length_append]
        exact fun _ => Nat.add_pos_left (sound.busy (scheduled ▸ waiting)) _
      · rw [paused, scheduled, sound.paused]
    · next ready =>
      rw [if_neg ready] at whole
      exact (drainTurn_sound lengths follows within (Bool.eq_false_iff.mpr ready) alternates
        whole).1

theorem run_sound (lengths : ∀ frame ∈ frames, frame.payload.length < 2 ^ 32)
    (inputs : List DecoderInput) (sound : Sound frames fed (fedBytes inputs ++ future) decoder)
    (retained : WithinRetention options now decoder inputs)
    (whole : ∀ turn ∈ turnsFrom options now decoder inputs, turn.CutsWhole options) :
    Sound frames (fed ++ fedBytes inputs) future (inputs.foldl (step options now) decoder) := by
  induction inputs generalizing decoder fed with
  | nil => simpa [fedBytes] using sound
  | cons input inputs ih =>
    rw [fedBytes, List.flatMap_cons, List.append_assoc] at sound
    rw [turnsFrom, List.forall_mem_append] at whole
    have next := ih (step_sound lengths sound retained.1 whole.1) retained.2 whole.2
    rw [List.append_assoc] at next
    exact next

theorem WithinRetention.append {early late : List DecoderInput}
    (retained : WithinRetention options now decoder (early ++ late)) :
    WithinRetention options now decoder early ∧
      WithinRetention options now (early.foldl (step options now) decoder) late := by
  induction early generalizing decoder with
  | nil => exact ⟨trivial, retained⟩
  | cons input early ih =>
    obtain ⟨first, second⟩ := ih retained.2
    exact ⟨⟨retained.1, first⟩, second⟩

theorem turnsFrom_append (early late : List DecoderInput) :
    turnsFrom options now decoder (early ++ late) = turnsFrom options now decoder early ++
      turnsFrom options now (early.foldl (step options now) decoder) late := by
  induction early generalizing decoder with
  | nil => rfl
  | cons input early ih => rw [List.cons_append, turnsFrom, ih, turnsFrom, List.append_assoc]; rfl

/-- Each continuation that schedules another has shortened what is buffered. -/
theorem continuations_shorten (lengths : ∀ frame ∈ frames, frame.payload.length < 2 ^ 32)
    (idle : ℕ) (sound : Sound frames fed future decoder)
    (whole : ∀ turn ∈ turnsFrom options now decoder (List.replicate idle .continuation),
      turn.CutsWhole options) :
    let last := (List.replicate idle .continuation).foldl (step options now) decoder
    last.continuationScheduled = true → last.pending.length + idle ≤ decoder.pending.length := by
  induction idle generalizing decoder with
  | zero => exact fun _ => Nat.le_refl _
  | succ idle ih =>
    rw [List.replicate_succ] at whole ⊢
    rw [turnsFrom, List.forall_mem_append] at whole
    have unscheduled_stays : ∀ (idle : ℕ) (decoder : FrameDecoder),
        decoder.continuationScheduled = false →
        (List.replicate idle .continuation).foldl (step options now) decoder = decoder := by
      intro idle decoder unscheduled
      induction idle with
      | zero => rfl
      | succ idle same =>
        rw [List.replicate_succ, List.foldl_cons, step, runContinuation, unscheduled]
        exact same
    by_cases scheduled : decoder.continuationScheduled = true
    · have stepped : step options now decoder .continuation =
          drainTurn options now { decoder with continuationScheduled := false } := by
        rw [step, runContinuation, if_pos scheduled]
      have first := whole.1
      rw [stepTurns, if_pos scheduled] at first
      have follows : Follows frames future { decoder with continuationScheduled := false } :=
        sound.follows.congr rfl rfl rfl
      have alternates : Alternates { decoder with continuationScheduled := false } :=
        sound.alternates
      obtain ⟨sound', shorter⟩ := drainTurn_sound lengths follows sound.within rfl alternates first
      rw [← stepped] at sound' shorter
      intro last again
      by_cases later : (step options now decoder .continuation).continuationScheduled = true
      · have bound := ih sound' whole.2 again
        have less := shorter later
        have goal : last.pending.length + (idle + 1) ≤ decoder.pending.length := by
          have same : ({ decoder with continuationScheduled := false } : FrameDecoder).pending =
            decoder.pending := rfl
          rw [same] at less
          exact Nat.le_trans (Nat.succ_le_succ bound) less
        exact goal
      · have same := unscheduled_stays idle _ (Bool.eq_false_iff.mpr later)
        exact absurd again (by
          rw [show last = step options now decoder .continuation from same]
          exact later)
    · have unscheduled := Bool.eq_false_iff.mpr scheduled
      have same := unscheduled_stays (idle + 1) decoder unscheduled
      intro last again
      exact absurd again (by rw [show last = decoder from same]; exact scheduled)

/-! ## What is delivered -/

def DecoderEvent.frame? : DecoderEvent → Option DecodedFrame
  | .frame frame => some frame
  | _ => none

def delivered (decoder : FrameDecoder) : List DecodedFrame :=
  decoder.events.filterMap DecoderEvent.frame?

def deliverable (frames : List DecodedFrame) : List DecodedFrame :=
  frames.filter fun frame => decide (frame.payload.length ≤ maxMessageSize)

theorem delivered_outcomes (decoder : FrameDecoder) :
    decoder.delivered = decoder.outcomes.filterMap DecoderEvent.frame? := by
  unfold delivered outcomes
  induction decoder.events with
  | nil => rfl
  | cons event events ih =>
    cases event with
    | frame frame => exact congrArg (frame :: ·) ih
    | payloadTooLarge | retainedTooMuch | pause | resume => exact ih

theorem deliverable_eq (frames : List DecodedFrame) :
    (frames.map frameOutcome).filterMap DecoderEvent.frame? = deliverable frames := by
  induction frames with
  | nil => rfl
  | cons frame frames ih =>
    rw [List.map_cons, deliverable, List.filter_cons, frameOutcome]
    by_cases large : maxMessageSize < frame.payload.length
    · rw [if_pos large, if_neg (by simpa using large)]
      exact ih
    · rw [if_neg large, if_pos (by simpa using large)]
      exact congrArg (frame :: ·) ih

/-- A stream of frames, fed in any chunks and continued at any time, is handed over in order:
the frames that are not too large, and one error for each that is. -/
theorem stream_delivered (options : FrameDecoderOptions) (now : ℕ → ℚ) (frames : List DecodedFrame)
    (inputs : List DecoderInput)
    (lengths : ∀ frame ∈ frames, frame.payload.length < 2 ^ 32)
    (cut : fedBytes inputs <+: frames.flatMap encodeFrame)
    (retained : WithinRetention options now initial inputs)
    (whole : ∀ turn ∈ turnsFrom options now initial inputs, turn.CutsWhole options) :
    let decoder := run options now inputs
    decoder.delivered <+: deliverable frames ∧
      decoder.outcomes <+: frames.map frameOutcome ∧
      decoder.paused = decoder.continuationScheduled ∧
      decoder.Alternates ∧
      (∀ earlier idle, inputs = earlier ++ List.replicate idle .continuation →
        (fedBytes earlier).length ≤ idle → decoder.continuationScheduled = false) ∧
      (fedBytes inputs = frames.flatMap encodeFrame → decoder.continuationScheduled = false →
        decoder.delivered = deliverable frames ∧ decoder.outcomes = frames.map frameOutcome) := by
  obtain ⟨future, joined⟩ := cut
  have start := initial_sound frames
  rw [← joined] at start
  have sound := run_sound lengths inputs start retained whole
  rw [List.nil_append] at sound
  have inOrder : (run options now inputs).outcomes <+: frames.map frameOutcome := by
    obtain ⟨handled, rest, skip, split, left, called, bytes⟩ := sound.follows.stands
    refine ⟨rest.map frameOutcome, ?_⟩
    rw [split, List.map_append]
    exact congrArg (· ++ rest.map frameOutcome) called
  refine ⟨?_, inOrder, sound.paused, sound.alternates, ?_, ?_⟩
  · rw [delivered_outcomes, ← deliverable_eq]
    exact inOrder.filterMap _
  · rintro earlier idle rfl long
    have fed : fedBytes (earlier ++ List.replicate idle .continuation) = fedBytes earlier := by
      simp [fedBytes, DecoderInput.bytes]
    rw [fed] at start
    rw [turnsFrom_append, List.forall_mem_append] at whole
    have before := run_sound lengths earlier start retained.append.1 whole.1
    rw [run, List.foldl_append]
    by_contra scheduled
    have scheduled' := Bool.not_eq_false _ ▸ scheduled
    have bound := continuations_shorten lengths idle before whole.2 scheduled'
    have within := before.within
    rw [List.foldl_append] at sound
    have busy := sound.busy scheduled'
    rw [List.nil_append] at within
    omega
  · intro all idle
    have none : future = [] := by
      rw [all] at joined
      exact List.append_right_eq_self.mp joined
    subst none
    have called := rest_of_idle lengths sound.follows (sound.idle idle)
    refine ⟨?_, called⟩
    rw [delivered_outcomes, ← deliverable_eq]
    exact congrArg (List.filterMap DecoderEvent.frame?) called

/-- Two frames handed over in two turns. -/
theorem stream_delivered_two_turns :
    (run ⟨some 1, none, none⟩ (fun _ => 0)
      [.feed (encodeFrame ⟨1, 7, 0, [5]⟩ ++ [2, 0]), .feed ((encodeFrame ⟨2, 8, 0, []⟩).drop 2),
        .continuation]).delivered = deliverable [⟨1, 7, 0, [5]⟩, ⟨2, 8, 0, []⟩] := by
  have decoded := stream_delivered ⟨some 1, none, none⟩ (fun _ => 0)
    [⟨1, 7, 0, [5]⟩, ⟨2, 8, 0, []⟩]
    [.feed (encodeFrame ⟨1, 7, 0, [5]⟩ ++ [2, 0]), .feed ((encodeFrame ⟨2, 8, 0, []⟩).drop 2),
      .continuation]
    (by decide) (by decide) ⟨by decide +kernel, by decide +kernel, by decide +kernel, trivial⟩
    (by decide +kernel)
  exact (decoded.2.2.2.2.2 (by decide) (by decide +kernel)).1

/-! ## A budget that is no whole number -/

/-- A byte budget that ends in the middle of the last byte of a payload to skip. -/
def halfByteBudget : FrameDecoderOptions := ⟨none, some (33554459 / 2), none⟩

theorem halfByteBudget_bytes : halfByteBudget.bytesPerTurn = 33554459 / 2 := by
  norm_num [halfByteBudget, FrameDecoderOptions.bytesPerTurn, positiveLimit]

theorem halfByteBudget_frames : halfByteBudget.framesPerTurn = 64 := rfl

section HalfByte

variable {zeros : Bytes} (length : zeros.length = 16777217)

include length

theorem chunk_length : ((encodeFrame ⟨0, 0, 0, zeros⟩).length : ℚ) = 16777230 := by
  rw [encodeFrame_length, length]
  norm_num [headerLength]

theorem oversized_retained : initial.buffer.bytes + (encodeFrame ⟨0, 0, 0, zeros⟩).length ≤
    frameDecoderMaxRetainedBytes := by
  have limit : frameDecoderMaxRetainedBytes = 17825805 := by decide
  have none : initial.buffer.bytes = 0 := rfl
  simp only [limit, none, chunk_length length, Nat.cast_ofNat]
  norm_num

theorem header_round (events : List DecoderEvent) :
    Turn.step halfByteBudget (fun _ => 0) 0
      ⟨⟨⟨[encodeFrame ⟨0, 0, 0, zeros⟩], 16777230⟩, 0, false, false, 1, events⟩, 0, 0, true⟩ =
    ⟨⟨⟨[zeros], 16777217⟩, 16777217, false, false, 1, events ++ [.payloadTooLarge 16777217]⟩,
      0, 13, true⟩ := by
  have held := chunk_length length
  have headed : headedLength ⟨[encodeFrame ⟨0, 0, 0, zeros⟩], 16777230⟩ = 16777217 := by
    have counted : (⟨[encodeFrame ⟨0, 0, 0, zeros⟩], 16777230⟩ : RelayFrameBuffer).bytes =
        (pending ⟨⟨[encodeFrame ⟨0, 0, 0, zeros⟩], 16777230⟩, 0, false, false, 1, events⟩).length := by
      rw [← held]
      simp [pending]
    have small : (⟨0, 0, 0, zeros⟩ : DecodedFrame).payload.length < 2 ^ 32 := by
      rw [length]
      norm_num
    have bytes : pending ⟨⟨[encodeFrame ⟨0, 0, 0, zeros⟩], 16777230⟩, 0, false, false, 1, events⟩ ++ [] =
        encodeFrame ⟨0, 0, 0, zeros⟩ ++ [] := by
      simp [pending]
    have read := headedLength_eq counted (by norm_num [headerLength]) small bytes
    exact read.trans length
  have cut : RelayFrameBuffer.discardParts (headerLength : ℚ) [encodeFrame ⟨0, 0, 0, zeros⟩] =
      [zeros] := by
    rw [RelayFrameBuffer.discardParts, if_neg (by norm_num [headerLength]), held,
      if_neg (by norm_num [headerLength]), Nat.floor_natCast, encodeFrame_drop]
  simp only [Turn.step, Turn.decode, discardedPayload, headed, RelayFrameBuffer.discard, cut,
    halfByteBudget_bytes, halfByteBudget_frames, publish]
  norm_num [headerLength, maxMessageSize]

theorem skip_round (events : List DecoderEvent) :
    Turn.step halfByteBudget (fun _ => 0) 0
      ⟨⟨⟨[zeros], 16777217⟩, 16777217, false, false, 1, events⟩, 0, 13, true⟩ =
    ⟨⟨⟨[zeros.drop 16777216], 1 / 2⟩, 1 / 2, false, false, 1, events⟩, 0, 33554459 / 2, true⟩ := by
  have whole : (zeros.length : ℚ) = 16777217 := by
    rw [length]
    norm_num
  have floor : ⌊(33554433 / 2 : ℚ)⌋₊ = 16777216 := by
    rw [Nat.floor_eq_iff (by norm_num)]
    norm_num
  have cut : RelayFrameBuffer.discardParts (33554433 / 2) [zeros] = [zeros.drop 16777216] := by
    rw [RelayFrameBuffer.discardParts, if_neg (by norm_num), whole, if_neg (by norm_num), floor]
  have discarded : min (min (16777217 : ℚ) 16777217) (max 1 (33554459 / 2 - 13)) = 33554433 / 2 := by
    norm_num
  simp only [Turn.step, Turn.decode, discardedPayload, RelayFrameBuffer.discard,
    halfByteBudget_bytes, halfByteBudget_frames]
  norm_num [discarded, cut]

theorem feed_oversized :
    feed halfByteBudget (fun _ => 0) initial (encodeFrame ⟨0, 0, 0, zeros⟩) =
      ⟨⟨[zeros.drop 16777216], 1 / 2⟩, 1 / 2, true, true, 1,
        [.payloadTooLarge 16777217, .pause]⟩ := by
  have held := chunk_length length
  have filled : initial.buffer.append (encodeFrame ⟨0, 0, 0, zeros⟩) =
      ⟨[encodeFrame ⟨0, 0, 0, zeros⟩], 16777230⟩ := by
    rw [RelayFrameBuffer.append, held]
    simp [initial, RelayFrameBuffer.empty]
  obtain ⟨rounds, enough⟩ : ∃ rounds, turnRounds ⟨⟨[encodeFrame ⟨0, 0, 0, zeros⟩], 16777230⟩, 0,
      false, false, 0, []⟩ = rounds + 3 := by
    have joined : [encodeFrame ⟨0, 0, 0, zeros⟩].flatten.length = headerLength + zeros.length := by
      rw [List.flatten_singleton, encodeFrame_length]
    have positive : 0 < headerLength := by decide
    refine ⟨2 * (headerLength + zeros.length) - 1, ?_⟩
    rw [turnRounds, joined]
    omega
  have turned : Turn.run halfByteBudget (fun _ => 0) 0 (rounds + 3)
      ⟨⟨⟨[encodeFrame ⟨0, 0, 0, zeros⟩], 16777230⟩, 0, false, false, 1, []⟩, 0, 0, true⟩ =
      ⟨⟨⟨[zeros.drop 16777216], 1 / 2⟩, 1 / 2, false, false, 1, [.payloadTooLarge 16777217]⟩, 0,
        33554459 / 2, false⟩ := by
    rw [Turn.run, if_pos rfl, header_round length, Turn.run, if_pos rfl, List.nil_append,
      skip_round length, Turn.run, if_pos rfl, Turn.step, halfByteBudget_bytes,
      if_pos (.inr (le_refl _))]
    exact Turn.run_stopped rounds rfl
  have fed : feed halfByteBudget (fun _ => 0) initial (encodeFrame ⟨0, 0, 0, zeros⟩) =
      drainTurn halfByteBudget (fun _ => 0) ⟨⟨[encodeFrame ⟨0, 0, 0, zeros⟩], 16777230⟩, 0, false,
        false, 0, []⟩ := by
    simp only [feed, if_neg (not_lt.mpr (oversized_retained length)), filled]
    rfl
  rw [fed, drainTurn, enough]
  dsimp only
  rw [turned]
  have runnable : hasRunnableWork ⟨⟨[zeros.drop 16777216], 1 / 2⟩, 1 / 2, false, false, 1,
      [.payloadTooLarge 16777217]⟩ = true := by
    norm_num [hasRunnableWork]
  rw [if_pos runnable]
  rfl

end HalfByte

/-- The frame behind an oversized one is misread where half a byte of that was discarded. -/
theorem stream_misread :
    ¬∀ (options : FrameDecoderOptions) (now : ℕ → ℚ) (frames : List DecodedFrame)
        (inputs : List DecoderInput),
      (∀ frame ∈ frames, frame.payload.length < 2 ^ 32) →
      fedBytes inputs = frames.flatMap encodeFrame →
      WithinRetention options now initial inputs →
      (run options now inputs).continuationScheduled = false →
      (run options now inputs).delivered = deliverable frames := by
  intro claimed
  obtain ⟨zeros, isZeros⟩ : ∃ zeros : Bytes, zeros = List.replicate 16777217 0 := ⟨_, rfl⟩
  have length : zeros.length = 16777217 := by rw [isZeros, List.length_replicate]
  have last : zeros.drop 16777216 = [0] := by
    rw [isZeros, List.drop_replicate]
    norm_num
  have fed := feed_oversized length
  rw [last] at fed
  have decoded := claimed halfByteBudget (fun _ => 0) [⟨0, 0, 0, zeros⟩, ⟨1, 7, 0, []⟩]
    [.feed (encodeFrame ⟨0, 0, 0, zeros⟩), .continuation, .feed (encodeFrame ⟨1, 7, 0, []⟩)]
  have ran : run halfByteBudget (fun _ => 0)
      [.feed (encodeFrame ⟨0, 0, 0, zeros⟩), .continuation, .feed (encodeFrame ⟨1, 7, 0, []⟩)] =
    [.continuation, .feed (encodeFrame ⟨1, 7, 0, []⟩)].foldl (step halfByteBudget fun _ => 0)
      ⟨⟨[[0]], 1 / 2⟩, 1 / 2, true, true, 1, [.payloadTooLarge 16777217, .pause]⟩ := by
    rw [← fed]
    rfl
  have retained : WithinRetention halfByteBudget (fun _ => 0) initial
      [.feed (encodeFrame ⟨0, 0, 0, zeros⟩), .continuation, .feed (encodeFrame ⟨1, 7, 0, []⟩)] := by
    refine ⟨oversized_retained length, ?_⟩
    rw [show step halfByteBudget (fun _ => 0) initial (.feed (encodeFrame ⟨0, 0, 0, zeros⟩)) = _
      from fed]
    exact ⟨by decide +kernel, by decide +kernel, trivial⟩
  rw [ran] at decoded
  have lengths : ∀ frame ∈ ([⟨0, 0, 0, zeros⟩, ⟨1, 7, 0, []⟩] : List DecodedFrame),
      frame.payload.length < 2 ^ 32 := by
    simp [length]
  have delivered := decoded lengths (by simp [fedBytes, DecoderInput.bytes]) retained
    (by decide +kernel)
  have misread : ([.continuation, .feed (encodeFrame ⟨1, 7, 0, []⟩)].foldl
      (step halfByteBudget fun _ => 0)
      ⟨⟨[[0]], 1 / 2⟩, 1 / 2, true, true, 1, [.payloadTooLarge 16777217, .pause]⟩).delivered =
      [⟨0, 16777216, 117440512, []⟩] := by
    decide +kernel
  have right : deliverable [⟨0, 0, 0, zeros⟩, ⟨1, 7, 0, []⟩] = [⟨1, 7, 0, []⟩] := by
    rw [deliverable, List.filter_cons_of_neg (by rw [length]; decide)]
    rfl
  rw [misread, right] at delivered
  exact absurd delivered (by decide)

end FrameDecoder

end OxeeUI.Wire
