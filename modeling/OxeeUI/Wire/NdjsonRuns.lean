import OxeeUI.Wire.NdjsonLines

/-!
# Pausing and resuming

Between calls the text fed is what was taken in, then the queue of complete records,
then the pending suffix.  Every call keeps this, except that a drain of the queue by
`feed` forgets the suffix where the consumer pauses again within the queue.
-/

namespace OxeeUI.Wire.NdjsonFramer

open OxeeUI.Library

variable {Value Failure : Type*} {options : NdjsonOptions Value Failure} {pauses : ℕ → Bool}
  {framer result : NdjsonFramer Value Failure} {consumed input fed chunk : Text}

/-! ## Processing -/

/-- An input is taken in whole, or retained behind one of its lines. -/
inductive Processed (options : NdjsonOptions Value Failure) (consumed : Text)
    (framer : NdjsonFramer Value Failure) (input : Text) (result : NdjsonFramer Value Failure) :
    Prop where
  | whole (reads : Reads options (consumed ++ input) result) (keeps : Keeps framer result)
  | paused (early late : Text) (ended : NdjsonFramer Value Failure) (split : input = early ++ late)
      (rest : late ≠ []) (line : tailOf (consumed ++ early) = [])
      (reads : Reads options (consumed ++ early) ended) (keeps : Keeps framer ended)
      (pausing : ended.pausing = true) (retained : result = ended.retainPausedInput options late)

theorem seam_of_ended {front back : Text} (ended : front.getLast? = some lineFeed) :
    Seam front back := by
  intro high isLast low _
  rw [ended] at isLast
  have same : lineFeed = high := Option.some.inj isLast
  rw [← same]
  exact Bool.false_ne_true

theorem getLast?_line (text segment : Text) :
    (text ++ (segment ++ [lineFeed])).getLast? = some lineFeed := by
  simp

theorem seam_front {front back more : Text} (seam : Seam front (back ++ more)) : Seam front back := by
  intro high isLast low isFirst
  apply seam high isLast low
  rw [Option.mem_def] at isFirst ⊢
  rw [List.head?_append, isFirst]
  rfl

theorem processSegments_spec {segments : List Text} (nonempty : segments ≠ [])
    (plain : ∀ segment ∈ segments, lineFeed ∉ segment) (reads : Reads options consumed framer)
    (seam : Seam consumed ([lineFeed].intercalate segments)) :
    Processed options consumed framer ([lineFeed].intercalate segments)
      (processSegments options pauses framer segments) := by
  induction segments generalizing framer consumed with
  | nil => exact absurd rfl nonempty
  | cons segment more ih =>
    obtain ⟨first, later⟩ := List.forall_mem_cons.mp plain
    cases more with
    | nil =>
      rw [List.intercalate_singleton] at seam ⊢
      obtain ⟨reads', keeps⟩ := reads.endInput first (seam_tailOf seam)
      exact .whole reads' keeps
    | cons next segments =>
      have shape : [lineFeed].intercalate (segment :: next :: segments) =
          (segment ++ [lineFeed]) ++ [lineFeed].intercalate (next :: segments) := by
        rw [List.intercalate_cons_cons, List.append_assoc]
      rw [shape] at seam ⊢
      obtain ⟨reads', keeps, -, -⟩ := @Reads.endLine _ _ options pauses framer consumed segment
        reads first (seam_tailOf (seam_front (seam_front seam)))
      unfold processSegments
      dsimp only
      split
      · next stops =>
        refine .paused (segment ++ [lineFeed]) _ _ rfl stops.2.2 ?_ reads' keeps stops.2.1 rfl
        exact (linesOf_append_line consumed first).2
      · have processed := ih (List.cons_ne_nil _ _) later reads'
          (seam_of_ended (getLast?_line consumed segment))
        cases processed with
        | whole readsAll keepsAll =>
          rw [List.append_assoc] at readsAll
          exact .whole readsAll (keeps.trans keepsAll)
        | paused early late ended split rest line readsEarly keepsEarly pausing retained =>
          rw [List.append_assoc] at line readsEarly
          refine .paused ((segment ++ [lineFeed]) ++ early) late ended ?_ rest line readsEarly
            (keeps.trans keepsEarly) pausing retained
          rw [split]
          simp only [List.append_assoc]

theorem plain_splitOn (input : Text) : ∀ segment ∈ input.splitOn lineFeed, lineFeed ∉ segment := by
  obtain ⟨lines, last, rfl, plain, open'⟩ := exists_written input
  rw [splitOn_written plain open']
  intro segment member
  rcases List.mem_append.mp member with line | isLast
  · exact plain segment line
  · exact List.mem_singleton.mp isLast ▸ open'

theorem process_spec (reads : Reads options consumed framer) (seam : Seam consumed input) :
    Processed options consumed framer input (process options pauses framer input) := by
  have joined : [lineFeed].intercalate (input.splitOn lineFeed) = input :=
    List.intercalate_splitOn lineFeed
  have processed := @processSegments_spec _ _ options pauses framer consumed
    (input.splitOn lineFeed) (List.splitOn_ne_nil _ _) (plain_splitOn input) reads
    (by rw [joined]; exact seam)
  rwa [joined] at processed

/-- Whether a record of the lines makes the consumer pause with lines left behind it. -/
def pausesWithin (options : NdjsonOptions Value Failure) (pauses : ℕ → Bool) :
    ℕ → List Text → Bool
  | _, [] => false
  | _, [_] => false
  | count, line :: next :: lines =>
    if yieldsRecord options line then
      pauses (count + 1) || pausesWithin options pauses (count + 1) (next :: lines)
    else pausesWithin options pauses count (next :: lines)

/-- Lines within which the consumer does not pause are taken in whole. -/
theorem processSegments_unpaused {lines : List Text} (plain : ∀ line ∈ lines, lineFeed ∉ line)
    (reads : Reads options consumed framer) (fresh : tailOf consumed = [])
    (ready : framer.pausing = false)
    (through : pausesWithin options pauses (recordCount framer.output) lines = false) :
    Reads options (consumed ++ written lines)
        (processSegments options pauses framer (lines ++ [[]])) ∧
      Keeps framer (processSegments options pauses framer (lines ++ [[]])) := by
  induction lines generalizing framer consumed with
  | nil =>
    have shape : consumed ++ written [] = consumed := List.append_nil _
    rw [shape]
    exact ⟨reads, .refl _⟩
  | cons line lines ih =>
    obtain ⟨first, later⟩ := List.forall_mem_cons.mp plain
    obtain ⟨reads', keeps, pausing, count⟩ := @Reads.endLine _ _ options pauses framer consumed
      line reads first (fresh ▸ Seam.nil_left line)
    have fresh' := (linesOf_append_line consumed first).2
    rw [fresh, List.nil_append] at pausing count
    have shape : consumed ++ written (line :: lines) =
        (consumed ++ (line ++ [lineFeed])) ++ written lines := by
      simp [written]
    rw [shape]
    cases lines with
    | nil =>
      have stays : processSegments options pauses framer ([line] ++ [[]]) =
          (endLine options pauses framer line).1 := by
        change (if _ then _ else _) = _
        rw [if_neg]
        · rfl
        · exact fun stops => stops.2.2 rfl
      rw [stays]
      refine ⟨?_, keeps⟩
      have same : (consumed ++ (line ++ [lineFeed])) ++ written [] =
        consumed ++ (line ++ [lineFeed]) := List.append_nil _
      rw [same]
      exact reads'
    | cons next lines =>
      rw [pausesWithin] at through
      have ready' : (endLine options pauses framer line).1.pausing = false := by
        rw [pausing]
        split
        · next yields =>
          rw [if_pos yields, Bool.or_eq_false_iff] at through
          exact through.1
        · exact ready
      have through' : pausesWithin options pauses
          (recordCount (endLine options pauses framer line).1.output) (next :: lines) = false := by
        rw [count]
        split
        · next yields =>
          rw [if_pos yields, Bool.or_eq_false_iff] at through
          exact through.2
        · next silent =>
          rw [if_neg silent] at through
          exact through
      obtain ⟨readsAll, keepsAll⟩ := ih later reads' fresh' ready' through'
      have goes : processSegments options pauses framer (line :: next :: lines ++ [[]]) =
          processSegments options pauses (endLine options pauses framer line).1
            (next :: lines ++ [[]]) := by
        change (if _ then _ else _) = _
        rw [if_neg]
        · rfl
        · intro stops
          rw [ready'] at stops
          exact Bool.false_ne_true stops.2.1
      rw [goes]
      exact ⟨readsAll, keeps.trans keepsAll⟩

/-! ## The mark of an overflow

Once the queue overflowed the mark stays, so a call that ends without it never set it.
-/

theorem retainPendingSuffix_overflowed (framer : NdjsonFramer Value Failure) (suffix : Text) :
    (framer.retainPendingSuffix options suffix).pausedCompleteInputOverflowed =
      framer.pausedCompleteInputOverflowed := by
  unfold retainPendingSuffix
  dsimp only
  split
  · rfl
  · split <;> rfl

theorem queuePausedCompleteInput_overflowed {complete : Text}
    (overflowed : framer.pausedCompleteInputOverflowed = true) :
    framer.queuePausedCompleteInput options complete = framer := by
  rw [queuePausedCompleteInput, if_pos (.inr overflowed)]

theorem retain_overflowed
    (within : (framer.retainPausedInput options input).pausedCompleteInputOverflowed = false) :
    framer.pausedCompleteInputOverflowed = false := by
  rw [retainPausedInput, retainPendingSuffix_overflowed] at within
  cases overflowed : framer.pausedCompleteInputOverflowed with
  | false => rfl
  | true =>
    rw [queuePausedCompleteInput_overflowed overflowed, overflowed] at within
    exact within

theorem endLine_overflowed (framer : NdjsonFramer Value Failure) (segment : Text) :
    (endLine options pauses framer segment).1.pausedCompleteInputOverflowed =
      framer.pausedCompleteInputOverflowed := by
  unfold endLine
  split
  · rfl
  · split
    · exact (rejectLine_keeps true).1.overflowed
    · dsimp only
      split
      · rfl
      · split <;> rfl

theorem endInput_overflowed (framer : NdjsonFramer Value Failure) (segment : Text) :
    (endInput options framer segment).pausedCompleteInputOverflowed =
      framer.pausedCompleteInputOverflowed := by
  unfold endInput
  split
  · rfl
  · split
    · exact (rejectLine_keeps false).1.overflowed
    · dsimp only
      split
      · rfl
      · obtain ⟨segments, count, remembered⟩ :=
          rememberPrefix_eq framer segment (segmentBytes options segment)
        rw [remembered]

theorem processSegments_overflowed {segments : List Text}
    (within : (processSegments options pauses framer segments).pausedCompleteInputOverflowed =
      false) : framer.pausedCompleteInputOverflowed = false := by
  fun_induction processSegments options pauses framer segments with
  | case1 => exact within
  | case2 framer segment => exact (endInput_overflowed framer segment).symm.trans within
  | case3 framer segment next segments ended rest stops =>
    exact (endLine_overflowed framer segment).symm.trans (retain_overflowed within)
  | case4 framer segment next segments ended rest goes ih =>
    exact (endLine_overflowed framer segment).symm.trans (ih within)

/-! ## What is retained -/

/-- The queue holds records with their line feeds, and the suffix holds none. -/
structure Queued (framer : NdjsonFramer Value Failure) : Prop where
  parts : ∀ part ∈ framer.pausedCompleteInput, part.getLast? = some lineFeed
  counted : framer.pausedCompleteInputBytes = (framer.pausedCompleteInput.map textBytes).sum
  suffix : ∀ suffix, framer.pendingInput = some suffix → suffix ≠ [] ∧ lineFeed ∉ suffix

def waiting (framer : NdjsonFramer Value Failure) : Text :=
  framer.pausedCompleteInput.flatten ++ framer.pendingInput.getD []

def WithinLimits (framer : NdjsonFramer Value Failure) : Prop :=
  framer.pausedCompleteInputOverflowed = false ∧ framer.discardingPausedSuffix = false

theorem Queued.bytes_eq_zero_iff (queued : Queued framer) :
    framer.pausedCompleteInputBytes = 0 ↔ framer.pausedCompleteInput = [] := by
  rw [queued.counted]
  constructor
  · intro none
    cases parts : framer.pausedCompleteInput with
    | nil => rfl
    | cons part parts' =>
      rw [parts, List.map_cons, List.sum_cons] at none
      have ended := queued.parts part (parts ▸ List.mem_cons_self)
      have nonempty : part ≠ [] := fun nothing => by
        rw [nothing] at ended
        cases ended
      have positive := textBytes_pos nonempty
      omega
  · intro none
    rw [none]
    rfl

theorem written_ended {lines : List Text} (nonempty : lines ≠ []) :
    (written lines).getLast? = some lineFeed := by
  rcases List.eq_nil_or_concat lines with rfl | ⟨early, last, rfl⟩
  · exact absurd rfl nonempty
  · rw [List.concat_eq_append, written_append, List.getLast?_append]
    simp [written]

structure Rests (before after : NdjsonFramer Value Failure) : Prop where
  output : after.output = before.output
  discarding : after.discardingOversizedLine = before.discardingOversizedLine
  segments : after.lineSegments = before.lineSegments
  counted : after.lineBytes = before.lineBytes
  pausing : after.pausing = before.pausing

theorem Reads.rests (reads : Reads options consumed framer) (rests : Rests framer result) :
    Reads options consumed result :=
  reads.congr rests.output rests.discarding rests.segments rests.counted

theorem queue_spec (queued : Queued framer) {lines : List Text}
    (limits : (framer.queuePausedCompleteInput options (written lines)).pausedCompleteInputOverflowed
      = false) :
    let next := framer.queuePausedCompleteInput options (written lines)
    Queued next ∧ framer.pausedCompleteInputOverflowed = false ∧ Rests framer next ∧
      next.pausedCompleteInput.flatten = framer.pausedCompleteInput.flatten ++ written lines ∧
      next.pendingInput = framer.pendingInput ∧
      next.discardingPausedSuffix = framer.discardingPausedSuffix := by
  unfold queuePausedCompleteInput at limits ⊢
  dsimp only at limits ⊢
  split at limits
  · next stays =>
    have nothing : written lines = [] := by
      apply stays.resolve_right
      rw [limits]
      exact Bool.false_ne_true
    rw [if_pos stays, nothing, List.append_nil]
    exact ⟨queued, limits, ⟨rfl, rfl, rfl, rfl, rfl⟩, rfl, rfl, rfl⟩
  · next stays =>
    split at limits
    · cases limits
    · next fits =>
      have nonempty : lines ≠ [] := by
        rintro rfl
        exact stays (.inl rfl)
      rw [if_neg stays, if_neg fits]
      refine ⟨⟨?_, ?_, queued.suffix⟩, limits, ⟨rfl, rfl, rfl, rfl, rfl⟩, ?_, rfl, rfl⟩
      · intro part member
        rcases List.mem_append.mp member with earlier | last
        · exact queued.parts part earlier
        · rw [List.mem_singleton.mp last]
          exact written_ended nonempty
      · rw [queued.counted]
        simp
      · simp

theorem suffix_spec (queued : Queued framer) {suffix : Text} (plain : lineFeed ∉ suffix)
    (limits : (framer.retainPendingSuffix options suffix).discardingPausedSuffix = false) :
    let next := framer.retainPendingSuffix options suffix
    Queued next ∧ framer.discardingPausedSuffix = false ∧ Rests framer next ∧
      next.pausedCompleteInput = framer.pausedCompleteInput ∧
      next.pausedCompleteInputOverflowed = framer.pausedCompleteInputOverflowed ∧
      next.pendingInput.getD [] = suffix ∧ (next.pendingInput = none ↔ suffix = []) := by
  unfold retainPendingSuffix at limits ⊢
  dsimp only at limits ⊢
  split at limits
  · next nothing =>
    rw [if_pos nothing, nothing]
    exact ⟨⟨queued.parts, queued.counted, fun _ impossible => nomatch impossible⟩, limits,
      ⟨rfl, rfl, rfl, rfl, rfl⟩, rfl, rfl, rfl, ⟨fun _ => rfl, fun _ => rfl⟩⟩
  · next some =>
    split at limits
    · cases limits
    · next fits =>
      rw [if_neg some, if_neg fits]
      refine ⟨⟨queued.parts, queued.counted, ?_⟩, limits, ⟨rfl, rfl, rfl, rfl, rfl⟩, rfl, rfl,
        rfl, ⟨(fun impossible => nomatch impossible), fun none => absurd none some⟩⟩
      intro other isOther
      rw [← Option.some.inj isOther]
      exact ⟨some, plain⟩

theorem retain_spec (queued : Queued framer)
    (limits : WithinLimits (framer.retainPausedInput options input)) :
    let retained := framer.retainPausedInput options input
    Queued retained ∧ framer.WithinLimits ∧ Rests framer retained ∧
      retained.pausedCompleteInput.flatten =
        framer.pausedCompleteInput.flatten ++ written (linesOf input) ∧
      retained.pendingInput.getD [] = tailOf input ∧
      (retained.pendingInput = none ↔ tailOf input = []) := by
  obtain ⟨-, -, plain⟩ := written_linesOf input
  have unfolded : framer.retainPausedInput options input = retainPendingSuffix options
      (framer.queuePausedCompleteInput options (written (linesOf input))) (tailOf input) := rfl
  dsimp only
  rw [unfolded] at limits ⊢
  obtain ⟨overflowed, discarding⟩ := limits
  rw [retainPendingSuffix_overflowed] at overflowed
  obtain ⟨queued', overflow, rests, queue, -, same⟩ := queue_spec queued overflowed
  obtain ⟨queued'', discards, rests', parts, -, isSuffix, noSuffix⟩ :=
    suffix_spec queued' plain discarding
  refine ⟨queued'', ⟨overflow, same ▸ discards⟩, ?_, parts ▸ queue, isSuffix, noSuffix⟩
  exact ⟨rests'.output.trans rests.output, rests'.discarding.trans rests.discarding,
    rests'.segments.trans rests.segments, rests'.counted.trans rests.counted,
    rests'.pausing.trans rests.pausing⟩

theorem retain_ended (ended : tailOf input = []) :
    (framer.retainPausedInput options input).pendingInput = none ∧
      (framer.retainPausedInput options input).discardingPausedSuffix =
        framer.discardingPausedSuffix := by
  have unfolded : framer.retainPausedInput options input = retainPendingSuffix options
      (framer.queuePausedCompleteInput options (written (linesOf input))) (tailOf input) := rfl
  rw [unfolded, ended, retainPendingSuffix, if_pos rfl]
  refine ⟨rfl, ?_⟩
  unfold queuePausedCompleteInput
  dsimp only
  split
  · rfl
  · split <;> rfl

/-! ## Calls -/

/-- The text fed is what was taken in and what waits; what waits begins at a line. -/
structure Stands (options : NdjsonOptions Value Failure) (fed : Text)
    (framer : NdjsonFramer Value Failure) : Prop where
  queued : Queued framer
  stands : ∃ consumed, Reads options consumed framer ∧ fed = consumed ++ waiting framer ∧
    (waiting framer ≠ [] → tailOf consumed = [])

theorem initial_stands : Stands options [] (initial : NdjsonFramer Value Failure) :=
  ⟨⟨fun _ member => (nomatch member), rfl, fun _ impossible => (nomatch impossible)⟩,
    [], initial_reads, rfl, fun _ => rfl⟩

theorem retain_stands (queued : Queued framer) (reads : Reads options consumed framer)
    (fresh : tailOf consumed = [])
    (limits : WithinLimits
      (framer.retainPausedInput options (framer.pendingInput.getD [] ++ chunk))) :
    Stands options (consumed ++ (waiting framer ++ chunk))
      (framer.retainPausedInput options (framer.pendingInput.getD [] ++ chunk)) := by
  obtain ⟨queued', -, rests, queue, suffix, -⟩ := retain_spec queued limits
  refine ⟨queued', consumed, reads.rests rests, ?_, fun _ => fresh⟩
  have joined := (written_linesOf (framer.pendingInput.getD [] ++ chunk)).1
  rw [waiting, waiting, queue, suffix, List.append_assoc, List.append_assoc, joined]

/-- Processing with nothing waiting leaves what it does not take in waiting. -/
theorem process_stands (nothing : framer.pausedCompleteInput = [])
    (noSuffix : framer.pendingInput = none) (queued : Queued framer)
    (reads : Reads options consumed framer) (seam : Seam consumed input)
    (limits : WithinLimits (process options pauses framer input)) :
    Stands options (consumed ++ input) (process options pauses framer input) ∧
      ((process options pauses framer input).pausedCompleteInput ≠ [] →
        (process options pauses framer input).pausing = true) := by
  have kept : ∀ {ended : NdjsonFramer Value Failure}, Keeps framer ended → Queued ended := by
    intro ended keeps
    refine ⟨?_, ?_, ?_⟩
    · rw [keeps.queue]
      exact queued.parts
    · rw [keeps.queue, keeps.queued]
      exact queued.counted
    · rw [keeps.pending]
      exact queued.suffix
  have processed := @process_spec _ _ options pauses framer consumed input reads seam
  cases processed with
  | whole reads' keeps =>
    have none : waiting (process options pauses framer input) = [] := by
      rw [waiting, keeps.queue, keeps.pending, nothing, noSuffix]
      rfl
    refine ⟨⟨kept keeps, _, reads', ?_, fun some => absurd none some⟩, fun some => ?_⟩
    · rw [none, List.append_nil]
    · exact absurd (keeps.queue.trans nothing) some
  | paused early late ended split rest line readsEarly keeps pausing retained =>
    rw [retained] at limits ⊢
    have noPending : ended.pendingInput.getD [] ++ late = late := by
      rw [keeps.pending, noSuffix]
      rfl
    have none : waiting ended = [] := by
      rw [waiting, keeps.queue, keeps.pending, nothing, noSuffix]
      rfl
    have stands := @retain_stands _ _ options ended (consumed ++ early) late (kept keeps)
      readsEarly line (by rw [noPending]; exact limits)
    rw [noPending, none, List.nil_append, List.append_assoc, ← split] at stands
    exact ⟨stands, fun _ => (retain_spec (kept keeps) limits).2.2.1.pausing.trans pausing⟩

theorem Queued.flatten_ended (queued : Queued framer)
    (nonempty : framer.pausedCompleteInput ≠ []) :
    framer.pausedCompleteInput.flatten.getLast? = some lineFeed := by
  rcases List.eq_nil_or_concat framer.pausedCompleteInput with none | ⟨early, last, isQueue⟩
  · exact absurd none nonempty
  · rw [List.concat_eq_append] at isQueue
    have ended := queued.parts last (isQueue ▸ List.mem_append_right _ (List.mem_singleton_self _))
    rw [isQueue, List.flatten_append, List.flatten_singleton, List.getLast?_append, ended]
    rfl

theorem process_ended (ended : input.getLast? = some lineFeed)
    (reads : Reads options consumed framer) (seam : Seam consumed input) :
    (framer.pendingInput = none → (process options pauses framer input).pendingInput = none) ∧
      (process options pauses framer input).discardingPausedSuffix =
        framer.discardingPausedSuffix := by
  have processed := @process_spec _ _ options pauses framer consumed input reads seam
  cases processed with
  | whole reads' keeps => exact ⟨fun none => keeps.pending.trans none, keeps.discarding⟩
  | paused early late other split rest line readsEarly keeps pausing retained =>
    have lateEnded : late.getLast? = some lineFeed := by
      rw [split, List.getLast?_append] at ended
      cases last : late.getLast? with
      | none => exact absurd (List.getLast?_eq_none_iff.mp last) rest
      | some unit =>
        rw [last] at ended
        exact ended
    obtain ⟨noSuffix, discarding⟩ := @retain_ended _ _ options other late
      (tailOf_of_ended lateEnded)
    rw [retained]
    exact ⟨fun _ => noSuffix, discarding.trans keeps.discarding⟩

def taken (framer : NdjsonFramer Value Failure) : NdjsonFramer Value Failure :=
  { framer with pausedCompleteInput := [], pausedCompleteInputBytes := 0 }

theorem drainQueue_eq (framer : NdjsonFramer Value Failure) :
    drainQueue options pauses framer =
      process options pauses framer.taken framer.pausedCompleteInput.flatten := rfl

theorem Queued.taken (queued : Queued framer) : Queued framer.taken :=
  ⟨fun _ member => (nomatch member), rfl, queued.suffix⟩

theorem Stands.fresh (stands : Stands options fed framer)
    (nonempty : framer.pausedCompleteInput ≠ []) :
    ∃ consumed, Reads options consumed framer.taken ∧ fed = consumed ++ waiting framer ∧
      tailOf consumed = [] ∧ Seam consumed framer.pausedCompleteInput.flatten := by
  obtain ⟨consumed, reads, isFed, fresh⟩ := stands.stands
  have ended := stands.queued.flatten_ended nonempty
  have atLine : tailOf consumed = [] := by
    apply fresh
    intro none
    rw [(List.append_eq_nil_iff.mp none).1] at ended
    cases ended
  refine ⟨consumed, reads.congr rfl rfl rfl rfl, isFed, atLine, ?_⟩
  obtain ⟨joined, -, -⟩ := written_linesOf consumed
  rw [atLine, List.append_nil] at joined
  by_cases none : linesOf consumed = []
  · rw [← joined, none]
    exact .nil_left _
  · exact seam_of_ended (joined ▸ written_ended none)

theorem drain_stands (stands : Stands options fed framer)
    (nonempty : framer.pausedCompleteInput ≠ []) (noSuffix : framer.pendingInput = none)
    (limits : WithinLimits (drainQueue options pauses framer)) :
    Stands options fed (drainQueue options pauses framer) ∧
      ((drainQueue options pauses framer).pausedCompleteInput ≠ [] →
        (drainQueue options pauses framer).pausing = true) := by
  obtain ⟨consumed, reads, isFed, -, seam⟩ := stands.fresh nonempty
  rw [drainQueue_eq] at limits ⊢
  have all : fed = consumed ++ framer.pausedCompleteInput.flatten := by
    rw [isFed, waiting, noSuffix]
    exact congrArg (consumed ++ ·) (List.append_nil _)
  rw [all]
  exact process_stands rfl noSuffix stands.queued.taken reads seam limits

/-- A drain within which the consumer does not pause keeps the suffix. -/
theorem drain_unpaused (stands : Stands options fed framer)
    (nonempty : framer.pausedCompleteInput ≠ []) (ready : framer.pausing = false)
    (through : pausesWithin options pauses (recordCount framer.output)
      (linesOf framer.pausedCompleteInput.flatten) = false) :
    Stands options fed (drainQueue options pauses framer) ∧
      (drainQueue options pauses framer).pausedCompleteInput = [] ∧
      Keeps framer.taken (drainQueue options pauses framer) := by
  obtain ⟨consumed, reads, isFed, atLine, -⟩ := stands.fresh nonempty
  obtain ⟨joined, plain, -⟩ := written_linesOf framer.pausedCompleteInput.flatten
  have ended := tailOf_of_ended (stands.queued.flatten_ended nonempty)
  rw [ended, List.append_nil] at joined
  have pieces : framer.pausedCompleteInput.flatten.splitOn lineFeed =
      linesOf framer.pausedCompleteInput.flatten ++ [[]] := by
    have split := splitOn_written plain (List.not_mem_nil (a := lineFeed))
    rw [joined, List.append_nil] at split
    exact split
  obtain ⟨reads', keeps⟩ := @processSegments_unpaused _ _ options pauses framer.taken consumed _
    plain reads atLine ready through
  rw [joined] at reads'
  rw [drainQueue_eq, process, pieces]
  refine ⟨⟨⟨?_, ?_, ?_⟩, _, reads', ?_, fun _ => ?_⟩, keeps.queue, keeps⟩
  · rw [keeps.queue]
    exact fun _ member => (nomatch member)
  · rw [keeps.queue, keeps.queued]
    rfl
  · rw [keeps.pending]
    exact stands.queued.suffix
  · rw [isFed, waiting, waiting, keeps.queue, keeps.pending, List.append_assoc]
    rfl
  · exact tailOf_of_ended (by
      rw [List.getLast?_append, stands.queued.flatten_ended nonempty]
      rfl)

/-- `feed` does not drain the queue within which the consumer pauses while a suffix is kept. -/
def KeepsSuffix (options : NdjsonOptions Value Failure) (pauses : ℕ → Bool)
    (framer : NdjsonFramer Value Failure) : Input → Prop
  | .feed _ => framer.pausing = false → framer.pendingInput ≠ none →
      pausesWithin options pauses (recordCount framer.output)
        (linesOf framer.pausedCompleteInput.flatten) = false
  | _ => True

/-- What `feed` goes on with after it drained the queue, where it does. -/
theorem feedOn_stands (stands : Stands options fed framer) (seam : Seam fed chunk)
    (pausing : framer.pausedCompleteInput ≠ [] → framer.pausing = true)
    (limits : WithinLimits (feedOn options pauses framer false chunk)) :
    Stands options (fed ++ chunk) (feedOn options pauses framer false chunk) := by
  obtain ⟨queued, consumed, reads, isFed, fresh⟩ := stands
  unfold feedOn at limits ⊢
  split at limits
  · next nothing =>
    rw [if_pos nothing, nothing, List.append_nil]
    exact ⟨queued, consumed, reads, isFed, fresh⟩
  · next some =>
    rw [if_neg some, isFed, List.append_assoc]
    split at limits
    · next pending isPending =>
      have waits : waiting framer ≠ [] := by
        rw [waiting, isPending]
        exact fun none => (queued.suffix pending isPending).1 (List.append_eq_nil_iff.mp none).2
      have stands' := @retain_stands _ _ options framer consumed chunk queued reads (fresh waits)
      rw [isPending] at stands'
      exact stands' limits
    · next noSuffix =>
      have empty : framer.pendingInput.getD [] ++ chunk = chunk := by
        rw [noSuffix]
        rfl
      split at limits
      · next waits =>
        have nonempty : framer.pausedCompleteInput ≠ [] := by
          have positive := waits.1.resolve_right Bool.false_ne_true
          exact fun none => Nat.lt_irrefl 0 ((queued.bytes_eq_zero_iff.mpr none) ▸ positive)
        rw [if_pos waits]
        have isFresh : tailOf consumed = [] := by
          apply fresh
          intro none
          have ended := queued.flatten_ended nonempty
          rw [(List.append_eq_nil_iff.mp none).1] at ended
          cases ended
        have stands' := @retain_stands _ _ options framer consumed chunk queued reads isFresh
        rw [empty] at stands'
        exact stands' limits
      · next goes =>
        have none : framer.pausedCompleteInput = [] := by
          by_contra nonempty
          apply goes
          refine ⟨.inl (Nat.pos_of_ne_zero fun zero => nonempty ?_), pausing nonempty⟩
          exact queued.bytes_eq_zero_iff.mp zero
        have nothing : waiting framer = [] := by
          rw [waiting, none, noSuffix]
          rfl
        rw [if_neg goes, nothing, List.nil_append]
        rw [isFed, nothing, List.append_nil] at seam
        exact (process_stands none noSuffix queued reads seam limits).1

theorem feedOn_overflowed
    (within : (feedOn options pauses framer false chunk).pausedCompleteInputOverflowed = false) :
    framer.pausedCompleteInputOverflowed = false := by
  unfold feedOn at within
  split at within
  · exact within
  · split at within
    · exact retain_overflowed within
    · split at within
      · exact retain_overflowed within
      · exact processSegments_overflowed within

theorem feed_stands (stands : Stands options fed framer) (before : WithinLimits framer)
    (seam : Seam fed chunk) (keepsSuffix : KeepsSuffix options pauses framer (.feed chunk))
    (limits : WithinLimits (feed options pauses framer chunk)) :
    Stands options (fed ++ chunk) (feed options pauses framer chunk) := by
  unfold feed at limits ⊢
  dsimp only at limits ⊢
  by_cases drains : 0 < framer.pausedCompleteInputBytes ∧ (!framer.pausing) = true
  · have ready : framer.pausing = false := by simpa using drains.2
    have nonempty : framer.pausedCompleteInput ≠ [] := fun none =>
      Nat.lt_irrefl 0 ((stands.queued.bytes_eq_zero_iff.mpr none) ▸ drains.1)
    rw [if_pos drains] at limits ⊢
    have discarding : (drainQueue options pauses framer).discardingPausedSuffix = false := by
      obtain ⟨consumed, reads, -, -, drainSeam⟩ := stands.fresh nonempty
      rw [drainQueue_eq, (process_ended (stands.queued.flatten_ended nonempty) reads drainSeam).2]
      exact before.2
    rw [if_neg (by rw [discarding]; exact Bool.false_ne_true)] at limits ⊢
    have drained : WithinLimits (drainQueue options pauses framer) :=
      ⟨feedOn_overflowed limits.1, discarding⟩
    by_cases suffix : framer.pendingInput = none
    · obtain ⟨stands', pausing⟩ := drain_stands stands nonempty suffix drained
      exact feedOn_stands stands' seam pausing limits
    · obtain ⟨stands', none, -⟩ := drain_unpaused stands nonempty ready
        (keepsSuffix ready suffix)
      exact feedOn_stands stands' seam (fun some => absurd none some) limits
  · rw [if_neg drains] at limits ⊢
    rw [if_neg (by rw [before.2]; exact Bool.false_ne_true)] at limits ⊢
    refine feedOn_stands stands seam (fun nonempty => ?_) limits
    by_contra unpaused
    refine drains ⟨Nat.pos_of_ne_zero fun zero => nonempty ?_, ?_⟩
    · exact stands.queued.bytes_eq_zero_iff.mp zero
    · rw [Bool.eq_false_iff.mpr unpaused]
      rfl

theorem Stands.apart (stands : Stands options fed framer)
    (waits : framer.pendingInput = some input) :
    ∃ before, Stands options before { framer with pendingInput := none } ∧
      fed = before ++ input ∧ tailOf before = [] := by
  obtain ⟨queued, consumed, reads, isFed, fresh⟩ := stands
  have nonempty : waiting framer ≠ [] := by
    rw [waiting, waits]
    exact fun none => (queued.suffix input waits).1 (List.append_eq_nil_iff.mp none).2
  have shape : waiting ({ framer with pendingInput := none } : NdjsonFramer Value Failure) =
      framer.pausedCompleteInput.flatten := List.append_nil _
  refine ⟨consumed ++ framer.pausedCompleteInput.flatten, ⟨?_, consumed, ?_, ?_, ?_⟩, ?_, ?_⟩
  · exact ⟨queued.parts, queued.counted, fun _ impossible => nomatch impossible⟩
  · exact reads.congr rfl rfl rfl rfl
  · rw [shape]
  · exact fun _ => fresh nonempty
  · rw [isFed, waiting, waits, List.append_assoc]
    rfl
  · by_cases queue : framer.pausedCompleteInput = []
    · rw [queue, List.flatten_nil, List.append_nil]
      exact fresh nonempty
    · apply tailOf_of_ended
      rw [List.getLast?_append, queued.flatten_ended queue]
      rfl

theorem seam_of_line {front : Text} (line : tailOf front = []) (back : Text) : Seam front back := by
  obtain ⟨joined, -, -⟩ := written_linesOf front
  rw [line, List.append_nil] at joined
  by_cases none : linesOf front = []
  · rw [← joined, none]
    exact .nil_left _
  · exact seam_of_ended (joined ▸ written_ended none)

theorem processSegments_ready {segments : List Text} (ready : framer.pausing = false) :
    (processSegments options (fun _ => false) framer segments).pausing = false := by
  have endLine_ready : ∀ (framer : NdjsonFramer Value Failure) (segment : Text),
      framer.pausing = false →
        (endLine options (fun _ => false) framer segment).1.pausing = false := by
    intro framer segment ready
    unfold endLine
    split
    · exact ready
    · split
      · exact (rejectLine_keeps true).2.1.trans ready
      · dsimp only
        split
        · exact ready
        · split
          · exact ready
          · rfl
  fun_induction processSegments options (fun _ => false) framer segments with
  | case1 => exact ready
  | case2 framer segment =>
    unfold NdjsonFramer.endInput
    split
    · exact ready
    · split
      · exact (rejectLine_keeps false).2.1.trans ready
      · dsimp only
        split
        · exact ready
        · obtain ⟨segments, count, remembered⟩ :=
            rememberPrefix_eq framer segment (segmentBytes options segment)
          rw [remembered]
          exact ready
  | case3 framer segment next segments ended rest stops =>
    rw [endLine_ready framer segment ready] at stops
    exact absurd stops.2.1 Bool.false_ne_true
  | case4 framer segment next segments ended rest goes ih => exact ih (endLine_ready _ _ ready)

theorem retainPausedInput_pausing (framer : NdjsonFramer Value Failure) (input : Text) :
    (framer.retainPausedInput options input).pausing = framer.pausing := by
  unfold retainPausedInput retainPendingSuffix queuePausedCompleteInput
  dsimp only
  split <;> split <;> first | rfl | (split <;> first | rfl | (split <;> rfl))

theorem process_ready (ready : framer.pausing = false)
    (reads : Reads options consumed framer) (seam : Seam consumed input) :
    Reads options (consumed ++ input) (process options (fun _ => false) framer input) ∧
      Keeps framer (process options (fun _ => false) framer input) := by
  have processed := @process_spec _ _ options (fun _ => false) framer consumed input reads seam
  cases processed with
  | whole reads' keeps => exact ⟨reads', keeps⟩
  | paused early late ended split rest line readsEarly keeps pausing retained =>
    have stays := @processSegments_ready _ _ options framer (input.splitOn lineFeed) ready
    change (process options (fun _ => false) framer input).pausing = false at stays
    rw [retained, retainPausedInput_pausing, pausing] at stays
    cases stays

theorem drained_stands (stands : Stands options fed framer) (noSuffix : framer.pendingInput = none)
    (before : framer.discardingPausedSuffix = false)
    (limits : (if 0 < framer.pausedCompleteInput.length then framer.drainQueue options pauses
      else framer).pausedCompleteInputOverflowed = false) :
    let drained := if 0 < framer.pausedCompleteInput.length then
      framer.drainQueue options pauses else framer
    Stands options fed drained ∧ (drained.pausing = false → drained.pausedCompleteInput = []) ∧
      drained.pendingInput = none ∧ drained.discardingPausedSuffix = false := by
  dsimp only
  split at limits
  · next queue =>
    rw [if_pos queue]
    have nonempty := List.length_pos_iff.mp queue
    obtain ⟨consumed, reads, -, -, seam⟩ := stands.fresh nonempty
    obtain ⟨none, discarding⟩ := @process_ended _ _ options pauses framer.taken consumed _
      (stands.queued.flatten_ended nonempty) reads seam
    have discards := discarding.trans before
    obtain ⟨stands', pausing⟩ := @drain_stands _ _ options pauses framer fed stands nonempty noSuffix
      ⟨limits, discards⟩
    refine ⟨stands', fun unpaused => ?_, none noSuffix, discards⟩
    by_contra left
    rw [pausing left] at unpaused
    cases unpaused
  · next none =>
    rw [if_neg none]
    exact ⟨stands, fun _ => List.eq_nil_of_length_eq_zero (Nat.eq_zero_of_not_pos none), noSuffix,
      before⟩

theorem retainPendingSuffix_stands (stands : Stands options fed framer) (line : tailOf fed = [])
    (noSuffix : framer.pendingInput = none) (plain : lineFeed ∉ input)
    (limits : WithinLimits (framer.retainPendingSuffix options input)) :
    Stands options (fed ++ input) (framer.retainPendingSuffix options input) := by
  obtain ⟨queued, consumed, reads, isFed, fresh⟩ := stands
  obtain ⟨queued', -, rests, queue, -, suffix, -⟩ := suffix_spec queued plain limits.2
  refine ⟨queued', consumed, reads.rests rests, ?_, fun _ => ?_⟩
  · rw [isFed, waiting, waiting, queue, suffix, noSuffix, List.append_assoc]
    simp
  · by_cases nothing : waiting framer = []
    · rw [isFed, nothing, List.append_nil] at line
      exact line
    · exact fresh nothing

theorem resume_stands (stands : Stands options fed framer) (before : WithinLimits framer)
    (limits : WithinLimits (resume options pauses framer)) :
    Stands options fed (resume options pauses framer) := by
  unfold resume at limits ⊢
  split at limits
  · next stays =>
    rw [if_pos stays]
    exact stands
  · next goes =>
    obtain ⟨ready, some⟩ := not_or.mp goes
    rw [if_neg goes]
    cases isInput : framer.pendingInput with
    | none =>
      have nonempty : framer.pausedCompleteInput ≠ [] := fun none =>
        some ⟨isInput, stands.queued.bytes_eq_zero_iff.mpr none⟩
      have same : ({ framer with pendingInput := none } : NdjsonFramer Value Failure) = framer := by
        rw [← isInput]
      simp only [isInput, same, if_pos (List.length_pos_iff.mpr nonempty)] at limits ⊢
      exact (drain_stands stands nonempty isInput limits).1
    | some input =>
      obtain ⟨fed', stands', rfl, line⟩ := stands.apart isInput
      have plain := (stands.queued.suffix input isInput).2
      simp only [isInput] at limits ⊢
      have drains := @drained_stands _ _ options pauses
        { framer with pendingInput := none } fed' stands' rfl before.2
      dsimp only at drains
      generalize (if 0 < framer.pausedCompleteInput.length then
        drainQueue options pauses { framer with pendingInput := none }
        else { framer with pendingInput := none }) = after at limits drains ⊢
      have overflowed : after.pausedCompleteInputOverflowed = false := by
        split at limits
        · have within := limits.1
          rw [retainPendingSuffix_overflowed] at within
          exact within
        · exact processSegments_overflowed limits.1
      obtain ⟨drained, empties, noSuffix, -⟩ := drains overflowed
      have same : ({ after with pendingInput := none } : NdjsonFramer Value Failure) = after := by
        rw [← noSuffix]
      split at limits
      · next paused =>
        rw [if_pos paused]
        rw [noSuffix] at limits ⊢
        rw [same] at limits ⊢
        exact retainPendingSuffix_stands drained line noSuffix plain limits
      · next unpaused =>
        rw [if_neg unpaused]
        have none := empties (Bool.eq_false_iff.mpr unpaused)
        have nothing : waiting after = [] := by
          rw [waiting, none, noSuffix]
          rfl
        obtain ⟨queued, consumed, reads, isFed, -⟩ := drained
        rw [nothing, List.append_nil] at isFed
        rw [isFed] at line ⊢
        exact (process_stands none noSuffix queued reads (seam_of_line line input) limits).1

theorem waiting_eq_nil (none : framer.pausedCompleteInput = [])
    (noSuffix : framer.pendingInput = Option.none) : waiting framer = [] := by
  rw [waiting, none, noSuffix]
  rfl

/-- A consumer that no longer pauses has read all that was fed when `resume` returns. -/
theorem resume_ready (stands : Stands options fed framer) (ready : framer.pausing = false) :
    let result := resume options (fun _ => false) framer
    Reads options fed result ∧ result.pendingInput = none ∧ result.pausedCompleteInput = [] ∧
      result.discardingPausedSuffix = framer.discardingPausedSuffix := by
  have ⟨queued, consumed, reads, isFed, fresh⟩ := stands
  dsimp only
  unfold resume
  split
  · next stays =>
    obtain ⟨noSuffix, empty⟩ := stays.resolve_left (by rw [ready]; exact Bool.false_ne_true)
    have none := queued.bytes_eq_zero_iff.mp empty
    rw [waiting_eq_nil none noSuffix, List.append_nil] at isFed
    exact ⟨isFed ▸ reads, noSuffix, none, rfl⟩
  · next goes =>
    have drains : let drained := if 0 < framer.pausedCompleteInput.length then
          drainQueue options (fun _ => false) { framer with pendingInput := none }
          else { framer with pendingInput := none }
        Reads options (consumed ++ framer.pausedCompleteInput.flatten) drained ∧
          drained.pausing = false ∧ drained.pendingInput = none ∧ drained.pausedCompleteInput = [] ∧
          drained.discardingPausedSuffix = framer.discardingPausedSuffix := by
      dsimp only
      split
      · next some =>
        have nonempty := List.length_pos_iff.mp some
        have line : tailOf consumed = [] := by
          apply fresh
          intro none
          have ended := queued.flatten_ended nonempty
          rw [(List.append_eq_nil_iff.mp none).1] at ended
          cases ended
        have ready' :
            ({ framer with pendingInput := none } : NdjsonFramer Value Failure).taken.pausing =
              false := ready
        have reads' : Reads options consumed
            ({ framer with pendingInput := none } : NdjsonFramer Value Failure).taken :=
          reads.congr rfl rfl rfl rfl
        obtain ⟨all, keeps⟩ := process_ready ready' reads'
          (seam_of_line line framer.pausedCompleteInput.flatten)
        exact ⟨all, processSegments_ready ready, keeps.pending, keeps.queue, keeps.discarding⟩
      · next empty =>
        have none : framer.pausedCompleteInput = [] :=
          List.eq_nil_of_length_eq_zero (Nat.eq_zero_of_not_pos empty)
        refine ⟨?_, ready, rfl, none, rfl⟩
        rw [none, List.flatten_nil, List.append_nil]
        exact reads.congr rfl rfl rfl rfl
    dsimp only at drains ⊢
    generalize (if 0 < framer.pausedCompleteInput.length then
      drainQueue options (fun _ => false) { framer with pendingInput := none }
      else { framer with pendingInput := none }) = after at drains ⊢
    obtain ⟨all, unpaused, noSuffix, none, discarding⟩ := drains
    cases isInput : framer.pendingInput with
    | none =>
      have shape : fed = consumed ++ framer.pausedCompleteInput.flatten := by
        rw [isFed, waiting, isInput]
        exact congrArg (consumed ++ ·) (List.append_nil _)
      exact ⟨shape ▸ all, noSuffix, none, discarding⟩
    | some input =>
      have shape : fed = (consumed ++ framer.pausedCompleteInput.flatten) ++ input := by
        rw [isFed, waiting, isInput, List.append_assoc]
        rfl
      obtain ⟨before, -, isBefore, line⟩ := stands.apart isInput
      have same : consumed ++ framer.pausedCompleteInput.flatten = before :=
        List.append_cancel_right (shape.symm.trans isBefore)
      rw [same] at all
      obtain ⟨read, keeps⟩ := process_ready unpaused all (seam_of_line line input)
      dsimp only
      rw [if_neg (by rw [unpaused]; exact Bool.false_ne_true), isBefore]
      exact ⟨read, keeps.pending.trans noSuffix, keeps.queue.trans none,
        keeps.discarding.trans discarding⟩

end OxeeUI.Wire.NdjsonFramer
