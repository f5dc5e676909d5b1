import OxeeUI.Wire.NdjsonFramer

/-!
# The lines of an NDJSON stream

What the framer hands over is read off the text it took in: its lines, and the line
that has not ended.  Processing a text either takes it in whole or stops behind one of
its lines.
-/

namespace OxeeUI.Wire

open OxeeUI.Library

section Lines

def written (lines : List Text) : Text := lines.flatMap (· ++ [lineFeed])

def linesOf (text : Text) : List Text := (text.splitOn lineFeed).dropLast

def tailOf (text : Text) : Text := (text.splitOn lineFeed).getLastD []

theorem written_append (early late : List Text) :
    written (early ++ late) = written early ++ written late := List.flatMap_append

theorem splitOn_written {lines : List Text} {last : Text}
    (plain : ∀ line ∈ lines, lineFeed ∉ line) (open' : lineFeed ∉ last) :
    (written lines ++ last).splitOn lineFeed = lines ++ [last] := by
  induction lines with
  | nil => exact List.splitOn_eq_singleton open'
  | cons line lines ih =>
    have shape : written (line :: lines) ++ last = line ++ lineFeed :: (written lines ++ last) := by
      simp [written]
    rw [shape, List.splitOn_append_cons_self_of_not_mem (plain line List.mem_cons_self),
      ih fun other member => plain other (List.mem_cons_of_mem _ member)]
    rfl

theorem exists_written (text : Text) :
    ∃ lines last, text = written lines ++ last ∧ (∀ line ∈ lines, lineFeed ∉ line) ∧
      lineFeed ∉ last := by
  induction text with
  | nil => exact ⟨[], [], rfl, (fun _ member => nomatch member), List.not_mem_nil⟩
  | cons unit text ih =>
    obtain ⟨lines, last, rfl, plain, open'⟩ := ih
    by_cases feed : unit = lineFeed
    · refine ⟨[] :: lines, last, by rw [feed]; rfl, ?_, open'⟩
      exact List.forall_mem_cons.mpr ⟨List.not_mem_nil, plain⟩
    · have other : ∀ {line : Text}, lineFeed ∉ line → lineFeed ∉ unit :: line :=
        fun none member => (List.mem_cons.mp member).elim (fun same => feed same.symm) none
      cases lines with
      | nil => exact ⟨[], unit :: last, rfl, plain, other open'⟩
      | cons line lines =>
        obtain ⟨first, more⟩ := List.forall_mem_cons.mp plain
        exact ⟨(unit :: line) :: lines, last, rfl,
          List.forall_mem_cons.mpr ⟨other first, more⟩, open'⟩

theorem linesOf_written {lines : List Text} {last : Text}
    (plain : ∀ line ∈ lines, lineFeed ∉ line) (open' : lineFeed ∉ last) :
    linesOf (written lines ++ last) = lines ∧ tailOf (written lines ++ last) = last := by
  unfold linesOf tailOf
  rw [splitOn_written plain open']
  exact ⟨List.dropLast_concat, by simp⟩

theorem written_linesOf (text : Text) : written (linesOf text) ++ tailOf text = text ∧
    (∀ line ∈ linesOf text, lineFeed ∉ line) ∧ lineFeed ∉ tailOf text := by
  obtain ⟨lines, last, rfl, plain, open'⟩ := exists_written text
  obtain ⟨isLines, isLast⟩ := linesOf_written plain open'
  rw [isLines, isLast]
  exact ⟨rfl, plain, open'⟩

theorem linesOf_append_open (text : Text) {segment : Text} (plain : lineFeed ∉ segment) :
    linesOf (text ++ segment) = linesOf text ∧ tailOf (text ++ segment) = tailOf text ++ segment := by
  obtain ⟨joined, lines, open'⟩ := written_linesOf text
  have shape : text ++ segment = written (linesOf text) ++ (tailOf text ++ segment) := by
    rw [← List.append_assoc, joined]
  rw [shape]
  apply linesOf_written lines
  rw [List.mem_append, not_or]
  exact ⟨open', plain⟩

theorem linesOf_append_line (text : Text) {segment : Text} (plain : lineFeed ∉ segment) :
    linesOf (text ++ (segment ++ [lineFeed])) = linesOf text ++ [tailOf text ++ segment] ∧
      tailOf (text ++ (segment ++ [lineFeed])) = [] := by
  obtain ⟨joined, lines, open'⟩ := written_linesOf text
  have shape : text ++ (segment ++ [lineFeed]) =
      written (linesOf text ++ [tailOf text ++ segment]) ++ [] := by
    rw [written_append, List.append_nil]
    conv_lhs => rw [← joined]
    simp [written]
  rw [shape]
  apply linesOf_written _ List.not_mem_nil
  intro line member
  rcases List.mem_append.mp member with earlier | last
  · exact lines line earlier
  · rw [List.mem_singleton.mp last, List.mem_append, not_or]
    exact ⟨open', plain⟩

theorem tailOf_of_ended {text : Text} (ended : text.getLast? = some lineFeed) : tailOf text = [] := by
  obtain ⟨joined, lines, open'⟩ := written_linesOf text
  rw [← joined, List.getLast?_append] at ended
  cases last : (tailOf text).getLast? with
  | none => exact List.getLast?_eq_none_iff.mp last
  | some unit =>
    rw [last] at ended
    have same : unit = lineFeed := Option.some.inj ended
    exact absurd (same ▸ List.mem_of_getLast? last) open'

theorem seam_tailOf {text back : Text} (seam : Seam text back) : Seam (tailOf text) back := by
  obtain ⟨joined, -, -⟩ := written_linesOf text
  intro high isLast
  apply seam high
  rw [← joined, List.getLast?_append]
  rw [Option.mem_def] at isLast ⊢
  rw [isLast]
  rfl

end Lines

/-! ## What is read -/

/-- What is handed over, but for the sizes and the start of a line that is too long. -/
inductive NdjsonReading (Value Failure : Type*) where
  | record (value : Value) (line : Text)
  | lineTooLong
  | invalidJson (line : Text) (error : Failure)
deriving DecidableEq

variable {Value Failure : Type*}

def NdjsonOutput.reading : NdjsonOutput Value Failure → NdjsonReading Value Failure
  | .record value line => .record value line
  | .rejected (.lineTooLong ..) => .lineTooLong
  | .rejected (.invalidJson line error) => .invalidJson line error

namespace NdjsonOptions

variable (options : NdjsonOptions Value Failure)

def isTooLong (line : Text) : Bool := options.maxLineBytes.exceededBy (textBytes line)

def readLine (line : Text) : List (NdjsonReading Value Failure) :=
  if options.isTooLong line then [.lineTooLong]
  else if isBlankLine line then []
  else
    match options.parse line with
    | .error error => [.invalidJson line error]
    | .ok value => [.record value line]

/-- An unfinished line is rejected as soon as it is too long. -/
def readTail (tail : Text) : List (NdjsonReading Value Failure) :=
  if options.isTooLong tail then [.lineTooLong] else []

def readings (text : Text) : List (NdjsonReading Value Failure) :=
  (linesOf text).flatMap options.readLine ++ options.readTail (tailOf text)

variable {options}

theorem exceededBy_mono {limit : ByteLimit} {small large : ℕ} (bound : small ≤ large)
    (exceeded : limit.exceededBy small = true) : limit.exceededBy large = true := by
  cases limit with
  | none => exact exceeded
  | some most =>
    simp only [ByteLimit.exceededBy, decide_eq_true_eq] at exceeded ⊢
    exact lt_of_lt_of_le exceeded (Nat.cast_le.mpr bound)

theorem isTooLong_nil : options.isTooLong [] = false := by
  unfold isTooLong maxLineBytes
  cases options.lineLimit with
  | none => rfl
  | some most =>
    apply decide_eq_false
    rw [not_lt]
    exact le_trans zero_le_one (le_max_left 1 most)

theorem readTail_nil : options.readTail [] = [] := by
  rw [readTail, isTooLong_nil]
  rfl

theorem isTooLong_append {front back : Text} (seam : Seam front back)
    (long : options.isTooLong front = true) : options.isTooLong (front ++ back) = true := by
  apply exceededBy_mono _ long
  rw [textBytes_append_seam seam]
  exact Nat.le_add_right _ _

/-- What a text is read to stays the start of what is read when more follows. -/
theorem readings_append {front back : Text} (seam : Seam front back) :
    options.readings front <+: options.readings (front ++ back) := by
  obtain ⟨lines, last, rfl, plain, open'⟩ := exists_written back
  have tailSeam : ∀ segment rest : Text, written lines ++ last = segment ++ rest →
      Seam (tailOf front) segment := by
    intro segment rest split high isLast low isFirst
    apply seam_tailOf seam high isLast low
    rw [Option.mem_def] at isFirst
    rw [split, List.head?_append, isFirst]
    rfl
  cases lines with
  | nil =>
    obtain ⟨sameLines, longer⟩ := linesOf_append_open front open'
    have shape : written [] ++ last = last := rfl
    rw [shape, readings, readings, sameLines, longer]
    apply (List.prefix_append_right_inj _).mpr
    unfold readTail
    by_cases long : options.isTooLong (tailOf front) = true
    · have longer' := isTooLong_append (tailSeam last [] (by simp [shape])) long
      simp only [if_pos long, if_pos longer', List.prefix_rfl]
    · rw [if_neg long]
      exact List.nil_prefix
  | cons line lines =>
    obtain ⟨first, more⟩ := List.forall_mem_cons.mp plain
    obtain ⟨isLines, isTail⟩ := linesOf_append_line front first
    have shape : front ++ (written (line :: lines) ++ last) =
        written (linesOf front ++ [tailOf front ++ line] ++ lines) ++ last := by
      obtain ⟨joined, -, -⟩ := written_linesOf front
      conv_lhs => rw [← joined]
      simp [written]
    have lineSeam := tailSeam line (lineFeed :: (written lines ++ last)) (by simp [written])
    have plainLines : ∀ other ∈ linesOf front ++ [tailOf front ++ line] ++ lines,
        lineFeed ∉ other := by
      rw [← isLines]
      intro other member
      rcases List.mem_append.mp member with early | late
      · exact (written_linesOf _).2.1 other early
      · exact more other late
    rw [shape, readings, readings, (linesOf_written plainLines open').1, List.flatMap_append,
      List.flatMap_append, List.flatMap_singleton, List.append_assoc, List.append_assoc]
    apply (List.prefix_append_right_inj _).mpr
    unfold readTail
    by_cases long : options.isTooLong (tailOf front) = true
    · rw [if_pos long, readLine, if_pos (isTooLong_append lineSeam long)]
      exact List.prefix_append _ _
    · rw [if_neg long]
      exact List.nil_prefix

end NdjsonOptions


/-! ## What the framer has taken in -/

namespace NdjsonFramer

variable {options : NdjsonOptions Value Failure} {pauses : ℕ → Bool}
  {framer other : NdjsonFramer Value Failure} {consumed segment : Text}

/-- The framer called for the text it took in, and holds its unfinished line. -/
structure Reads (options : NdjsonOptions Value Failure) (consumed : Text)
    (framer : NdjsonFramer Value Failure) : Prop where
  output : framer.output.map NdjsonOutput.reading = options.readings consumed
  discarding : framer.discardingOversizedLine = options.isTooLong (tailOf consumed)
  segments : options.isTooLong (tailOf consumed) = false →
    framer.lineSegments.flatten = tailOf consumed
  counted : options.isTooLong (tailOf consumed) = false →
    framer.lineBytes = segmentBytes options (tailOf consumed)

structure Keeps (before after : NdjsonFramer Value Failure) : Prop where
  pending : after.pendingInput = before.pendingInput
  queue : after.pausedCompleteInput = before.pausedCompleteInput
  queued : after.pausedCompleteInputBytes = before.pausedCompleteInputBytes
  overflowed : after.pausedCompleteInputOverflowed = before.pausedCompleteInputOverflowed
  discarding : after.discardingPausedSuffix = before.discardingPausedSuffix

theorem Keeps.refl (framer : NdjsonFramer Value Failure) : Keeps framer framer :=
  ⟨rfl, rfl, rfl, rfl, rfl⟩

theorem Keeps.trans {middle : NdjsonFramer Value Failure} (early : Keeps framer middle)
    (late : Keeps middle other) : Keeps framer other :=
  ⟨late.pending.trans early.pending, late.queue.trans early.queue, late.queued.trans early.queued,
    late.overflowed.trans early.overflowed, late.discarding.trans early.discarding⟩

theorem Reads.congr (reads : Reads options consumed framer) (output : other.output = framer.output)
    (discarding : other.discardingOversizedLine = framer.discardingOversizedLine)
    (segments : other.lineSegments = framer.lineSegments)
    (counted : other.lineBytes = framer.lineBytes) : Reads options consumed other :=
  ⟨output ▸ reads.output, discarding ▸ reads.discarding, fun short => segments ▸ reads.segments short,
    fun short => counted ▸ reads.counted short⟩

theorem initial_reads : Reads options [] (initial : NdjsonFramer Value Failure) := by
  have short : options.isTooLong (tailOf []) = false := NdjsonOptions.isTooLong_nil
  refine ⟨?_, short.symm, fun _ => rfl, fun _ => ?_⟩
  · exact NdjsonOptions.readTail_nil.symm
  · change 0 = segmentBytes options []
    unfold segmentBytes
    split <;> rfl

theorem rememberPrefix_eq (framer : NdjsonFramer Value Failure) (segment : Text) (bytes : ℕ) :
    ∃ segments count, framer.rememberPrefix segment bytes =
      { framer with prefixSegments := segments, prefixBytes := count } := by
  unfold rememberPrefix
  dsimp only
  split
  · exact ⟨framer.prefixSegments, framer.prefixBytes, rfl⟩
  · exact ⟨_, _, rfl⟩

theorem Reads.measured (reads : Reads options consumed framer)
    (short : options.isTooLong (tailOf consumed) = false) (seam : Seam (tailOf consumed) segment) :
    options.maxLineBytes.exceededBy (framer.lineBytes + segmentBytes options segment) =
      options.isTooLong (tailOf consumed ++ segment) := by
  rw [reads.counted short, NdjsonOptions.isTooLong, textBytes_append_seam seam]
  unfold segmentBytes
  cases limit : options.maxLineBytes with
  | none => rfl
  | some most => rw [if_neg (Option.some_ne_none most), if_neg (Option.some_ne_none most)]

theorem rejectLine_keeps (terminated : Bool) :
    Keeps framer (rejectLine options framer segment terminated) ∧
      (rejectLine options framer segment terminated).pausing = framer.pausing ∧
      (rejectLine options framer segment terminated).output.map NdjsonOutput.reading =
        framer.output.map NdjsonOutput.reading ++ [.lineTooLong] ∧
      (rejectLine options framer segment terminated).lineSegments = [] ∧
      (rejectLine options framer segment terminated).lineBytes = 0 ∧
      (rejectLine options framer segment terminated).discardingOversizedLine = !terminated := by
  obtain ⟨segments, count, remembered⟩ :=
    rememberPrefix_eq framer segment (segmentBytes options segment)
  unfold rejectLine
  dsimp only
  rw [remembered]
  exact ⟨⟨rfl, rfl, rfl, rfl, rfl⟩, rfl, List.map_append, rfl, rfl, rfl⟩

theorem segmentBytes_nil : segmentBytes options [] = 0 := by
  unfold segmentBytes
  split <;> rfl

def yieldsRecord (options : NdjsonOptions Value Failure) (line : Text) : Bool :=
  !options.isTooLong line && !isBlankLine line && (options.parse line).isOk

theorem recordCount_append (early late : List (NdjsonOutput Value Failure)) :
    recordCount (early ++ late) = recordCount early + recordCount late := List.countP_append

theorem recordCount_reading (output : List (NdjsonOutput Value Failure)) :
    recordCount output = (output.map NdjsonOutput.reading).countP
      fun | .record .. => true | _ => false := by
  induction output with
  | nil => rfl
  | cons first output ih =>
    rw [recordCount, List.countP_cons, List.map_cons, List.countP_cons]
    rw [recordCount] at ih
    rw [ih]
    cases first with
    | record value line => rfl
    | rejected record => cases record <;> rfl

/-- A line with its line feed is read, and nothing else changes but the pause a record causes. -/
theorem Reads.endLine (reads : Reads options consumed framer) (plain : lineFeed ∉ segment)
    (seam : Seam (tailOf consumed) segment) :
    let ended := (endLine options pauses framer segment).1
    Reads options (consumed ++ (segment ++ [lineFeed])) ended ∧ Keeps framer ended ∧
      ended.pausing = (if yieldsRecord options (tailOf consumed ++ segment) then
        pauses (recordCount framer.output + 1) else framer.pausing) ∧
      recordCount ended.output = recordCount framer.output +
        (if yieldsRecord options (tailOf consumed ++ segment) then 1 else 0) := by
  obtain ⟨isLines, isTail⟩ := linesOf_append_line consumed plain
  have short : options.isTooLong (tailOf (consumed ++ (segment ++ [lineFeed]))) = false := by
    rw [isTail]
    exact NdjsonOptions.isTooLong_nil
  have read : options.readings (consumed ++ (segment ++ [lineFeed])) =
      (linesOf consumed).flatMap options.readLine ++
        options.readLine (tailOf consumed ++ segment) := by
    rw [NdjsonOptions.readings, isLines, isTail, NdjsonOptions.readTail_nil, List.flatMap_append,
      List.flatMap_singleton, List.append_nil]
  have cleared : ∀ {ended : NdjsonFramer Value Failure},
      ended.output.map NdjsonOutput.reading = options.readings (consumed ++ (segment ++ [lineFeed])) →
      ended.discardingOversizedLine = false → ended.lineSegments = [] → ended.lineBytes = 0 →
      Reads options (consumed ++ (segment ++ [lineFeed])) ended := by
    intro ended output discarding segments counted
    refine ⟨output, discarding.trans short.symm, fun _ => ?_, fun _ => ?_⟩
    · rw [segments, isTail]
      rfl
    · rw [counted, isTail, segmentBytes_nil]
  have output := reads.output
  rw [NdjsonOptions.readings, NdjsonOptions.readTail] at output
  dsimp only
  unfold NdjsonFramer.endLine
  by_cases long : options.isTooLong (tailOf consumed) = true
  · -- The line was rejected already, and its end is skipped.
    have longer := NdjsonOptions.isTooLong_append seam long
    have silent : yieldsRecord options (tailOf consumed ++ segment) = false := by
      rw [yieldsRecord, longer]
      rfl
    rw [if_pos (reads.discarding.trans long), silent]
    refine ⟨cleared ?_ rfl rfl rfl, ⟨rfl, rfl, rfl, rfl, rfl⟩, rfl, rfl⟩
    rw [read, NdjsonOptions.readLine, if_pos longer]
    rw [if_pos long] at output
    exact output
  · have notLong := Bool.eq_false_iff.mpr long
    rw [if_neg long, List.append_nil] at output
    rw [if_neg (by rw [reads.discarding]; exact long), reads.measured notLong seam]
    by_cases longer : options.isTooLong (tailOf consumed ++ segment) = true
    · obtain ⟨keeps, pausing, called, segments, counted, discarding⟩ :=
        @rejectLine_keeps _ _ options framer segment true
      have silent : yieldsRecord options (tailOf consumed ++ segment) = false := by
        rw [yieldsRecord, longer]
        rfl
      rw [if_pos longer, silent]
      refine ⟨cleared ?_ discarding segments counted, keeps, pausing, ?_⟩
      · rw [read, NdjsonOptions.readLine, if_pos longer, called, output]
      · rw [recordCount_reading, recordCount_reading, called, List.countP_append]
        rfl
    · rw [if_neg longer, reads.segments notLong]
      have longer' := Bool.eq_false_iff.mpr longer
      dsimp only
      by_cases blank : isBlankLine (tailOf consumed ++ segment) = true
      · have silent : yieldsRecord options (tailOf consumed ++ segment) = false := by
          rw [yieldsRecord, blank, Bool.not_true, Bool.and_false]
          rfl
        rw [if_pos blank, silent]
        refine ⟨cleared ?_ (reads.discarding.trans notLong) rfl rfl, ⟨rfl, rfl, rfl, rfl, rfl⟩, rfl,
          rfl⟩
        rw [read, NdjsonOptions.readLine, if_neg longer, if_pos blank, List.append_nil]
        exact output
      · rw [if_neg blank]
        have blank' := Bool.eq_false_iff.mpr blank
        cases parsed : options.parse (tailOf consumed ++ segment) with
        | error error =>
          have silent : yieldsRecord options (tailOf consumed ++ segment) = false := by
            rw [yieldsRecord, parsed, longer', blank']
            rfl
          rw [silent]
          refine ⟨cleared ?_ (reads.discarding.trans notLong) rfl rfl,
            ⟨rfl, rfl, rfl, rfl, rfl⟩, rfl, ?_⟩
          · rw [read, NdjsonOptions.readLine, if_neg longer, if_neg blank, parsed, ← output]
            exact List.map_append
          · exact recordCount_append _ _
        | ok value =>
          have yields : yieldsRecord options (tailOf consumed ++ segment) = true := by
            rw [yieldsRecord, parsed, longer', blank']
            rfl
          rw [yields]
          have counted : recordCount (framer.output ++
              [.record value (tailOf consumed ++ segment)]) = recordCount framer.output + 1 :=
            recordCount_append _ _
          refine ⟨cleared ?_ (reads.discarding.trans notLong) rfl rfl,
            ⟨rfl, rfl, rfl, rfl, rfl⟩, congrArg pauses counted, counted⟩
          rw [read, NdjsonOptions.readLine, if_neg longer, if_neg blank, parsed, ← output]
          exact List.map_append

/-- The last piece of an input extends the unfinished line. -/
theorem Reads.endInput (reads : Reads options consumed framer) (plain : lineFeed ∉ segment)
    (seam : Seam (tailOf consumed) segment) :
    Reads options (consumed ++ segment) (endInput options framer segment) ∧
      Keeps framer (endInput options framer segment) := by
  obtain ⟨isLines, isTail⟩ := linesOf_append_open consumed plain
  have output := reads.output
  rw [NdjsonOptions.readings, NdjsonOptions.readTail] at output
  unfold NdjsonFramer.endInput
  by_cases nothing : segment = []
  · subst nothing
    rw [if_pos (.inl rfl), List.append_nil]
    exact ⟨reads, .refl _⟩
  by_cases long : options.isTooLong (tailOf consumed) = true
  · have longer := NdjsonOptions.isTooLong_append seam long
    rw [if_pos (.inr (reads.discarding.trans long))]
    refine ⟨⟨?_, ?_, ?_, ?_⟩, .refl _⟩
    · rw [if_pos long] at output
      rw [NdjsonOptions.readings, isLines, isTail, NdjsonOptions.readTail, if_pos longer]
      exact output
    · rw [isTail, longer, reads.discarding, long]
    · rw [isTail, longer]
      exact fun impossible => absurd impossible.symm Bool.false_ne_true
    · rw [isTail, longer]
      exact fun impossible => absurd impossible.symm Bool.false_ne_true
  · have notLong := Bool.eq_false_iff.mpr long
    rw [if_neg long, List.append_nil] at output
    rw [if_neg (not_or.mpr ⟨nothing, by rw [reads.discarding]; exact long⟩),
      reads.measured notLong seam]
    by_cases longer : options.isTooLong (tailOf consumed ++ segment) = true
    · obtain ⟨keeps, -, called, segments, counted, discarding⟩ :=
        @rejectLine_keeps _ _ options framer segment false
      rw [if_pos longer]
      refine ⟨⟨?_, ?_, ?_, ?_⟩, keeps⟩
      · rw [called, output, NdjsonOptions.readings, isLines, isTail, NdjsonOptions.readTail,
          if_pos longer]
      · rw [isTail, longer, discarding]
        rfl
      · rw [isTail, longer]
        exact fun impossible => absurd impossible.symm Bool.false_ne_true
      · rw [isTail, longer]
        exact fun impossible => absurd impossible.symm Bool.false_ne_true
    · rw [if_neg longer]
      obtain ⟨segments, count, remembered⟩ : ∃ segments count,
          (if options.maxLineBytes = none then framer
            else framer.rememberPrefix segment (segmentBytes options segment)) =
          { framer with prefixSegments := segments, prefixBytes := count } := by
        split
        · exact ⟨framer.prefixSegments, framer.prefixBytes, rfl⟩
        · exact rememberPrefix_eq framer segment _
      dsimp only
      rw [remembered]
      refine ⟨⟨?_, ?_, fun _ => ?_, fun _ => ?_⟩, ⟨rfl, rfl, rfl, rfl, rfl⟩⟩
      · rw [NdjsonOptions.readings, isLines, isTail, NdjsonOptions.readTail, if_neg longer,
          List.append_nil]
        exact output
      · rw [isTail, Bool.eq_false_iff.mpr longer]
        exact reads.discarding.trans notLong
      · rw [isTail, ← reads.segments notLong]
        simp
      · rw [isTail]
        refine Eq.trans (congrArg (· + segmentBytes options segment) (reads.counted notLong)) ?_
        unfold segmentBytes
        split
        · rfl
        · exact (textBytes_append_seam seam).symm

end NdjsonFramer

end OxeeUI.Wire
