import OxeeUI.Wire.NdjsonRuns

/-!
# Nothing is lost, repeated or reordered

In every run of calls what was handed over is the start of what the whole text at once is
read to, and after a last `resume` it is all of it, where no drain by `feed` forgets the
suffix.
-/

namespace OxeeUI.Wire.NdjsonFramer

open OxeeUI.Library

variable {Value Failure : Type*} {options : NdjsonOptions Value Failure} {pauses : ℕ → Bool}
  {framer : NdjsonFramer Value Failure} {inputs : List Input} {fed text : Text}

def Input.chunk : Input → Text
  | .feed chunk => chunk
  | .resume | .pause _ => []

def fedText (inputs : List Input) : Text := inputs.flatMap Input.chunk

def CutsWhole : Text → List Input → Prop
  | _, [] => True
  | fed, input :: inputs => Seam fed input.chunk ∧ CutsWhole (fed ++ input.chunk) inputs

/-- The framer before, between and after the calls. -/
def states (options : NdjsonOptions Value Failure) (pauses : ℕ → Bool)
    (framer : NdjsonFramer Value Failure) : List Input → List (NdjsonFramer Value Failure)
  | [] => [framer]
  | input :: inputs => framer :: states options pauses (step options pauses framer input) inputs

/-- No `feed` drains a queue within which the consumer pauses while a suffix is kept. -/
def KeepsSuffixes (options : NdjsonOptions Value Failure) (pauses : ℕ → Bool)
    (framer : NdjsonFramer Value Failure) : List Input → Prop
  | [] => True
  | input :: inputs => KeepsSuffix options pauses framer input ∧
      KeepsSuffixes options pauses (step options pauses framer input) inputs

def readSoFar (framer : NdjsonFramer Value Failure) : List (NdjsonReading Value Failure) :=
  framer.output.map NdjsonOutput.reading

instance : Decidable (WithinLimits framer) := inferInstanceAs (Decidable (_ ∧ _))

/-- The framer that was fed the whole text at once and never paused. -/
def fedAtOnce (options : NdjsonOptions Value Failure) (text : Text) : NdjsonFramer Value Failure :=
  feed options (fun _ => false) initial text

/-- The last `resume`, with the consumer no longer pausing. -/
def lastResume (options : NdjsonOptions Value Failure) (framer : NdjsonFramer Value Failure) :
    NdjsonFramer Value Failure :=
  resume options (fun _ => false) { framer with pausing := false }

/-! ## Runs -/

theorem CutsWhole.seam (whole : CutsWhole fed inputs) : Seam fed (fedText inputs) := by
  induction inputs generalizing fed with
  | nil => exact .nil_right fed
  | cons input inputs ih =>
    obtain ⟨first, later⟩ := whole
    have shape : fedText (input :: inputs) = input.chunk ++ fedText inputs := List.flatMap_cons
    rw [shape]
    cases isChunk : input.chunk with
    | nil =>
      rw [isChunk, List.append_nil] at later
      exact ih later
    | cons unit chunk =>
      rw [isChunk] at first
      intro high isLast low isFirst
      exact first high isLast low isFirst

theorem Stands.reads_start (stands : Stands options fed framer) {rest : Text}
    (seam : Seam fed rest) : framer.readSoFar <+: options.readings (fed ++ rest) := by
  obtain ⟨-, consumed, reads, isFed, fresh⟩ := stands
  have early : options.readings consumed <+: options.readings fed := by
    rw [isFed]
    apply NdjsonOptions.readings_append
    by_cases nothing : waiting framer = []
    · rw [nothing]
      exact .nil_right consumed
    · exact seam_of_line (fresh nothing) _
  rw [readSoFar, reads.output]
  exact early.trans (NdjsonOptions.readings_append seam)

theorem states_head (framer : NdjsonFramer Value Failure) (inputs : List Input) :
    framer ∈ states options pauses framer inputs := by
  cases inputs with
  | nil => exact List.mem_singleton_self framer
  | cons input inputs => exact List.mem_cons_self

theorem step_stands (stands : Stands options fed framer) (before : WithinLimits framer)
    {input : Input} (seam : Seam fed input.chunk) (keeps : KeepsSuffix options pauses framer input)
    (limits : WithinLimits (step options pauses framer input)) :
    Stands options (fed ++ input.chunk) (step options pauses framer input) := by
  cases input with
  | feed chunk => exact feed_stands stands before seam keeps limits
  | resume =>
    rw [Input.chunk, List.append_nil]
    exact resume_stands stands before limits
  | pause pausing =>
    rw [Input.chunk, List.append_nil]
    obtain ⟨queued, consumed, reads, isFed, fresh⟩ := stands
    exact ⟨⟨queued.parts, queued.counted, queued.suffix⟩, consumed, reads.congr rfl rfl rfl rfl,
      isFed, fresh⟩

theorem states_stand (stands : Stands options fed framer) (whole : CutsWhole fed inputs)
    (keeps : KeepsSuffixes options pauses framer inputs)
    (limits : ∀ state ∈ states options pauses framer inputs, WithinLimits state) :
    (∀ state ∈ states options pauses framer inputs,
        state.readSoFar <+: options.readings (fed ++ fedText inputs)) ∧
      Stands options (fed ++ fedText inputs) (inputs.foldl (step options pauses) framer) ∧
      WithinLimits (inputs.foldl (step options pauses) framer) := by
  induction inputs generalizing fed framer with
  | nil =>
    refine ⟨?_, ?_, limits framer (List.mem_singleton_self framer)⟩
    · intro state member
      rw [List.mem_singleton.mp member]
      exact stands.reads_start whole.seam
    · rw [fedText, List.flatMap_nil, List.append_nil]
      exact stands
  | cons input inputs ih =>
    obtain ⟨before, later⟩ := List.forall_mem_cons.mp limits
    have stands' := step_stands stands before whole.1 keeps.1 (later _ (states_head _ inputs))
    obtain ⟨read, last, within⟩ := ih stands' whole.2 keeps.2 later
    have shape : fed ++ fedText (input :: inputs) = (fed ++ input.chunk) ++ fedText inputs := by
      rw [List.append_assoc]
      rfl
    refine ⟨List.forall_mem_cons.mpr ⟨stands.reads_start whole.seam, ?_⟩, ?_, within⟩
    · rw [shape]
      exact read
    · rw [shape]
      exact last

theorem fedAtOnce_reads (text : Text) :
    Reads options text (fedAtOnce options text) ∧ (fedAtOnce options text).pendingInput = none ∧
      (fedAtOnce options text).discardingPausedSuffix = false := by
  have unfolded : fedAtOnce options text = if text = [] then (initial : NdjsonFramer Value Failure)
      else process options (fun _ => false) initial text := rfl
  rw [unfolded]
  split
  · next nothing =>
    rw [nothing]
    exact ⟨initial_reads, rfl, rfl⟩
  · have ready : (initial : NdjsonFramer Value Failure).pausing = false := rfl
    have begun : Reads options [] (initial : NdjsonFramer Value Failure) := initial_reads
    obtain ⟨reads, keeps⟩ := process_ready ready begun (Seam.nil_left text)
    exact ⟨reads, keeps.pending, keeps.discarding⟩

theorem takeTail_eq {other : NdjsonFramer Value Failure} (reads : Reads options text framer)
    (reads' : Reads options text other) (none : framer.pendingInput = Option.none)
    (none' : other.pendingInput = Option.none)
    (discarding : framer.discardingPausedSuffix = other.discardingPausedSuffix) :
    framer.takeTail.1 = other.takeTail.1 := by
  unfold takeTail
  rw [reads.discarding, reads'.discarding, none, none', discarding]
  cases long : options.isTooLong (tailOf text) with
  | true => rfl
  | false => rw [reads.segments long, reads'.segments long]

theorem lastResume_reads (stands : Stands options fed framer) (within : WithinLimits framer) :
    Reads options fed (lastResume options framer) ∧
      (lastResume options framer).pendingInput = none ∧
      (lastResume options framer).discardingPausedSuffix = false := by
  obtain ⟨queued, consumed, reads, isFed, fresh⟩ := stands
  have ready : Stands options fed { framer with pausing := false } :=
    ⟨⟨queued.parts, queued.counted, queued.suffix⟩, consumed, reads.congr rfl rfl rfl rfl, isFed,
      fresh⟩
  obtain ⟨all, noSuffix, -, discarding⟩ := resume_ready ready rfl
  exact ⟨all, noSuffix, discarding.trans within.2⟩

/-! ## Values -/

theorem encoded_lines {stringify : Value → Text} {values : List Value} {lines : List Text}
    (fit : values.mapM (encodeNdjson stringify options.maxLineBytes) = .ok lines) :
    lines.flatten = written (values.map stringify) ∧
      ∀ value ∈ values, options.isTooLong (stringify value) = false := by
  induction values generalizing lines with
  | nil =>
    cases fit
    exact ⟨rfl, fun _ member => nomatch member⟩
  | cons value values ih =>
    rw [List.mapM_cons, encodeNdjson] at fit
    cases long : options.maxLineBytes.exceededBy (textBytes (stringify value)) with
    | true =>
      rw [long] at fit
      cases fit
    | false =>
      rw [long] at fit
      cases rest : values.mapM (encodeNdjson stringify options.maxLineBytes) with
      | error bytes =>
        rw [rest] at fit
        cases fit
      | ok more =>
        rw [rest] at fit
        cases fit
        obtain ⟨isWritten, short⟩ := ih rest
        refine ⟨?_, List.forall_mem_cons.mpr ⟨long, short⟩⟩
        rw [List.flatten_cons, isWritten]
        rfl

theorem readings_encoded {stringify : Value → Text} {values : List Value} {lines : List Text}
    (parses : ∀ value ∈ values, options.parse (stringify value) = .ok value)
    (single : ∀ value ∈ values, lineFeed ∉ stringify value)
    (visible : ∀ value ∈ values, isBlankLine (stringify value) = false)
    (fit : values.mapM (encodeNdjson stringify options.maxLineBytes) = .ok lines) :
    options.readings lines.flatten =
      values.map fun value => .record value (stringify value) := by
  obtain ⟨joined, short⟩ := encoded_lines fit
  have plain : ∀ line ∈ values.map stringify, lineFeed ∉ line := by
    simpa only [List.forall_mem_map] using single
  obtain ⟨isLines, isTail⟩ := linesOf_written plain (List.not_mem_nil (a := lineFeed))
  rw [List.append_nil] at isLines isTail
  have read : ∀ value ∈ values, options.readLine (stringify value) =
      [.record value (stringify value)] := by
    intro value member
    rw [NdjsonOptions.readLine, short value member, visible value member, parses value member]
    rfl
  rw [joined, NdjsonOptions.readings, isLines, isTail, NdjsonOptions.readTail_nil, List.append_nil,
    List.flatMap_map, List.flatMap_congr read]
  exact List.flatMap_pure_eq_map _ values

/-- Where no drain of the queue by `feed` forgets a suffix, the pausable framer reads what the
one that never pauses reads. -/
theorem run_delivered (inputs : List Input) (whole : CutsWhole [] inputs)
    (within : ∀ state ∈ states options pauses initial inputs, WithinLimits state)
    (keeps : KeepsSuffixes options pauses initial inputs) :
    (∀ state ∈ states options pauses initial inputs,
        state.readSoFar <+: (fedAtOnce options (fedText inputs)).readSoFar) ∧
      (lastResume options (run options pauses inputs)).readSoFar =
        (fedAtOnce options (fedText inputs)).readSoFar ∧
      (lastResume options (run options pauses inputs)).takeTail.1 =
        (fedAtOnce options (fedText inputs)).takeTail.1 ∧
      ∀ (stringify : Value → Text) (values : List Value) (lines : List Text),
        (∀ value ∈ values, options.parse (stringify value) = .ok value ∧
          lineFeed ∉ stringify value ∧ isBlankLine (stringify value) = false) →
        values.mapM (encodeNdjson stringify options.maxLineBytes) = .ok lines →
        fedText inputs = lines.flatten →
        (lastResume options (run options pauses inputs)).readSoFar =
          values.map fun value => .record value (stringify value) := by
  obtain ⟨read, stands, limits⟩ := states_stand initial_stands whole keeps within
  obtain ⟨all, noSuffix, discarding⟩ := lastResume_reads stands limits
  rw [List.nil_append] at read all
  obtain ⟨atOnce, noSuffix', discarding'⟩ := @fedAtOnce_reads _ _ options (fedText inputs)
  have same : (fedAtOnce options (fedText inputs)).readSoFar = options.readings (fedText inputs) :=
    atOnce.output
  have final : (lastResume options (run options pauses inputs)).readSoFar =
      options.readings (fedText inputs) := all.output
  refine ⟨?_, final.trans same.symm, takeTail_eq all atOnce noSuffix noSuffix' ?_, ?_⟩
  · rw [same]
    exact read
  · exact discarding.trans discarding'.symm
  · intro stringify values lines written fit isText
    rw [final, isText]
    exact readings_encoded (fun value member => (written value member).1)
      (fun value member => (written value member).2.1)
      (fun value member => (written value member).2.2) fit

def plainLines : NdjsonOptions Text Unit := ⟨some ndjsonMaxLineBytes, .ok⟩

/-- A suffix of one chunk is kept through a pause and ended by the next. -/
theorem run_delivered_paused :
    (lastResume plainLines (run plainLines (· == 1)
      [.feed (unitsOf "1\n2\n3"), .pause false, .feed (unitsOf "\n")])).readSoFar =
        [.record (unitsOf "1") (unitsOf "1"), .record (unitsOf "2") (unitsOf "2"),
          .record (unitsOf "3") (unitsOf "3")] := by
  have whole : CutsWhole []
      [.feed (unitsOf "1\n2\n3"), .pause false, .feed (unitsOf "\n")] := by
    refine ⟨.nil_left _, .nil_right _, ?_, trivial⟩
    intro high isLast low isFirst
    cases isLast
    cases isFirst
    decide
  have within : ∀ state ∈ states plainLines (· == 1) initial
      [.feed (unitsOf "1\n2\n3"), .pause false, .feed (unitsOf "\n")], WithinLimits state := by
    exact forall_mem_of_all (by decide +kernel)
  have keeps : KeepsSuffixes plainLines (· == 1) initial
      [.feed (unitsOf "1\n2\n3"), .pause false, .feed (unitsOf "\n")] :=
    ⟨fun _ _ => by decide +kernel, trivial, fun _ _ => by decide +kernel, trivial⟩
  have delivered := (run_delivered _ whole within keeps).2.2.2 id
    [unitsOf "1", unitsOf "2", unitsOf "3"]
    [unitsOf "1\n", unitsOf "2\n", unitsOf "3\n"]
  exact delivered (forall_mem_of_all (by decide +kernel)) (by decide +kernel) (by decide +kernel)

/-- A consumer that pauses at the first record and again within the queue loses the suffix. -/
theorem suffix_forgotten :
    ¬∀ (options : NdjsonOptions Text Unit) (pauses : ℕ → Bool) (inputs : List Input),
      CutsWhole [] inputs → (∀ state ∈ states options pauses initial inputs, WithinLimits state) →
      (lastResume options (run options pauses inputs)).readSoFar =
        (fedAtOnce options (fedText inputs)).readSoFar := by
  intro claimed
  have whole : CutsWhole []
      [.feed (unitsOf "1\n2\n3\n4"), .pause false, .feed (unitsOf "5\n")] := by
    refine ⟨.nil_left _, .nil_right _, ?_, trivial⟩
    intro high isLast low isFirst
    cases isLast
    cases isFirst
    decide
  have within : ∀ state ∈ states plainLines (fun count => count == 1 || count == 2) initial
      [.feed (unitsOf "1\n2\n3\n4"), .pause false, .feed (unitsOf "5\n")],
      WithinLimits state :=
    forall_mem_of_all (by decide +kernel)
  have equal := claimed plainLines _ _ whole within
  exact absurd equal (by decide +kernel)

end OxeeUI.Wire.NdjsonFramer
