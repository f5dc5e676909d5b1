import OxeeUI.Wire.StreamedText
import OxeeUI.Library.KeyedTotals
import Mathlib.Algebra.Order.Group.Int

/-!
# Runs of the delta coalescer

The byte counters agree with the streams over every run, and a flush is scheduled
while some text is left to emit.
-/

namespace OxeeUI.Wire.DeltaCoalescer

open OxeeUI.Library

variable {config : DeltaCoalescerConfig} {state before after : DeltaCoalescer}

section Accounts

def retained (stream : DeltaStream) : ℤ := stream.retainedBytes

structure Accounted (config : DeltaCoalescerConfig) (state : DeltaCoalescer) : Prop where
  total : state.totalRetainedBytes = state.streams.total retained
  budget : state.totalRetainedBytes ≤ config.maxTotalRetainedBytes
  streams : ∀ key stream, state.streams.get? key = some stream → SoundStream config stream

/-- A flush is scheduled while some stream is dirty. -/
def Timed (state : DeltaCoalescer) : Prop :=
  ∀ key stream, state.streams.get? key = some stream → stream.dirty = true → state.timer = true

/-- Streams are flushed or dropped, and none is made or changes its text. -/
def Keeps (before after : DeltaCoalescer) : Prop :=
  ∀ key new, after.streams.get? key = some new → ∃ old, before.streams.get? key = some old ∧
    new.text = old.text ∧ new.truncated = old.truncated ∧ (new.dirty = true → old.dirty = true)

theorem Keeps.of_streams (same : after.streams = before.streams) : Keeps before after := by
  intro key new found
  rw [same] at found
  exact ⟨new, found, rfl, rfl, id⟩

theorem Keeps.trans {middle : DeltaCoalescer} (first : Keeps before middle)
    (second : Keeps middle after) : Keeps before after := by
  intro key new found
  obtain ⟨between, foundBetween, text, truncated, dirty⟩ := second key new found
  obtain ⟨old, foundOld, textOld, truncatedOld, dirtyOld⟩ := first key between foundBetween
  exact ⟨old, foundOld, text.trans textOld, truncated.trans truncatedOld, dirtyOld ∘ dirty⟩

theorem Keeps.absent (keeps : Keeps before after) {key : Text}
    (absent : before.streams.get? key = none) : after.streams.get? key = none := by
  cases found : after.streams.get? key with
  | none => rfl
  | some new =>
    obtain ⟨old, foundOld, _⟩ := keeps key new found
    rw [absent] at foundOld
    cases foundOld

theorem Keeps.timed (keeps : Keeps before after) (timer : after.timer = before.timer)
    (timed : Timed before) : Timed after := by
  intro key new found dirty
  obtain ⟨old, foundOld, _, _, wasDirty⟩ := keeps key new found
  rw [timer]
  exact timed key old foundOld (wasDirty dirty)

theorem keeps_settle {key : Text} {stream : DeltaStream}
    (found : state.streams.get? key = some stream) : Keeps state (state.settle key stream) := by
  intro other new foundNew
  dsimp only [settle] at foundNew
  rw [JsMap.get?_set] at foundNew
  split at foundNew
  · next same =>
    cases foundNew
    subst same
    exact ⟨stream, found, rfl, rfl, fun dirty => (Bool.false_ne_true dirty).elim⟩
  · exact ⟨new, foundNew, rfl, rfl, id⟩

theorem total_set_of_found {key : Text} {old new : DeltaStream} {streams : JsMap Text DeltaStream}
    (found : streams.get? key = some old) :
    (streams.set key new).total retained =
      streams.total retained - old.retainedBytes + new.retainedBytes := by
  rw [JsMap.total_set, JsMap.weightAt_of_get? found]
  rfl

theorem Accounted.settle (accounted : Accounted config state) {key : Text} {stream : DeltaStream}
    (found : state.streams.get? key = some stream) : Accounted config (state.settle key stream) where
  total := by
    have same : (state.settle key stream).streams.total retained = state.streams.total retained := by
      dsimp only [DeltaCoalescer.settle]
      rw [total_set_of_found found]
      exact Int.sub_add_cancel _ _
    rw [same]
    exact accounted.total
  budget := accounted.budget
  streams other new foundNew := by
    dsimp only [DeltaCoalescer.settle] at foundNew
    rw [JsMap.get?_set] at foundNew
    split at foundNew
    · cases foundNew
      exact (accounted.streams key stream found).settled
    · exact accounted.streams other new foundNew

theorem drop_cases (state : DeltaCoalescer) (key : Text) :
    (state.streams.get? key = none ∧ state.drop key = state) ∨
      ∃ stream, state.streams.get? key = some stream ∧ state.drop key = { state with
        streams := state.streams.delete key
        totalRetainedBytes := state.totalRetainedBytes - stream.retainedBytes } := by
  unfold drop
  split
  · next absent => exact Or.inl ⟨absent, rfl⟩
  · next stream found => exact Or.inr ⟨stream, found, rfl⟩

theorem keeps_drop (state : DeltaCoalescer) (key : Text) :
    Keeps state (state.drop key) ∧ (state.drop key).timer = state.timer := by
  rcases drop_cases state key with ⟨_, same⟩ | ⟨stream, _, same⟩
  · rw [same]
    exact ⟨Keeps.of_streams rfl, rfl⟩
  · rw [same]
    refine ⟨fun other new found => ?_, rfl⟩
    dsimp only at found
    rw [JsMap.get?_delete] at found
    split at found
    · cases found
    · exact ⟨new, found, rfl, rfl, id⟩

theorem Accounted.drop (accounted : Accounted config state) (key : Text) :
    Accounted config (state.drop key) := by
  rcases drop_cases state key with ⟨_, same⟩ | ⟨stream, found, same⟩
  · rw [same]
    exact accounted
  · rw [same]
    have total := accounted.total
    have budget := accounted.budget
    refine ⟨?_, ?_, fun other new foundNew => ?_⟩
    · dsimp only
      rw [JsMap.total_delete, JsMap.weightAt_of_get? found, total]
      rfl
    · dsimp only
      omega
    · dsimp only at foundNew
      rw [JsMap.get?_delete] at foundNew
      split at foundNew
      · cases foundNew
      · exact accounted.streams other new foundNew

end Accounts

section Flushing

theorem flushKey_cases (sink : DeltaSink) (state : DeltaCoalescer) (key : Text) :
    ∃ emitted given, given = { state with emitted := emitted } ∧
      ((flushKey sink state key = (given, true) ∧
          ∀ stream, state.streams.get? key = some stream → stream.dirty = false) ∨
        (∃ stream, state.streams.get? key = some stream ∧
          flushKey sink state key = (given.settle key stream, true)) ∨
        flushKey sink state key = (given, false)) := by
  unfold flushKey
  cases found : state.streams.get? key with
  | none =>
    refine ⟨state.emitted, state, rfl, Or.inl ⟨rfl, fun stream absent => ?_⟩⟩
    cases absent
  | some stream =>
    dsimp only
    by_cases clean : stream.dirty = false
    · rw [if_pos clean]
      refine ⟨state.emitted, state, rfl, Or.inl ⟨rfl, fun other same => ?_⟩⟩
      cases same
      exact clean
    · rw [if_neg clean]
      by_cases skipped : sink.shouldEmit key stream.textLength = false
      · rw [if_pos skipped]
        exact ⟨state.emitted, state, rfl, Or.inr (Or.inl ⟨stream, rfl, rfl⟩)⟩
      · rw [if_neg skipped]
        refine ⟨state.emitted ++ [(key, stream.snapshot)], _, rfl, ?_⟩
        by_cases refused : sink.emit key stream.snapshot = false
        · rw [if_pos refused]
          exact Or.inr (Or.inr rfl)
        · rw [if_neg refused]
          exact Or.inr (Or.inl ⟨stream, rfl, rfl⟩)

structure Flushes (config : DeltaCoalescerConfig) (before after : DeltaCoalescer) : Prop where
  accounted : Accounted config after
  keeps : Keeps before after
  timer : after.timer = before.timer

theorem Flushes.refl (accounted : Accounted config state) : Flushes config state state :=
  ⟨accounted, Keeps.of_streams rfl, rfl⟩

theorem Flushes.trans {middle : DeltaCoalescer} (first : Flushes config before middle)
    (second : Flushes config middle after) : Flushes config before after :=
  ⟨second.accounted, first.keeps.trans second.keeps, second.timer.trans first.timer⟩

theorem Accounted.congr (accounted : Accounted config before) (streams : after.streams = before.streams)
    (total : after.totalRetainedBytes = before.totalRetainedBytes) : Accounted config after := by
  refine ⟨?_, ?_, ?_⟩
  · rw [total, streams]
    exact accounted.total
  · rw [total]
    exact accounted.budget
  · rw [streams]
    exact accounted.streams

theorem Accounted.flushKey (accounted : Accounted config state) (sink : DeltaSink) (key : Text) :
    Flushes config state (flushKey sink state key).1 ∧
      ((flushKey sink state key).2 = true → ∀ stream,
        (DeltaCoalescer.flushKey sink state key).1.streams.get? key = some stream →
          stream.dirty = false) := by
  obtain ⟨emitted, given, given_eq, clean | settled | refused⟩ := flushKey_cases sink state key
  · have same : given.streams = state.streams := by rw [given_eq]
    rw [clean.1]
    refine ⟨⟨accounted.congr same (by rw [given_eq]), Keeps.of_streams same, by rw [given_eq]⟩,
      fun _ => ?_⟩
    dsimp only
    rw [same]
    exact clean.2
  · obtain ⟨stream, found, shape⟩ := settled
    have same : given.streams = state.streams := by rw [given_eq]
    have foundGiven : given.streams.get? key = some stream := same ▸ found
    have givenAccounted : Accounted config given := accounted.congr same (by rw [given_eq])
    rw [shape]
    refine ⟨⟨givenAccounted.settle foundGiven,
      (Keeps.of_streams same).trans (keeps_settle foundGiven), ?_⟩, fun _ new foundNew => ?_⟩
    · dsimp only [DeltaCoalescer.settle]
      rw [given_eq]
    · dsimp only [DeltaCoalescer.settle] at foundNew
      rw [JsMap.get?_set_self] at foundNew
      cases foundNew
      rfl
  · have same : given.streams = state.streams := by rw [given_eq]
    rw [refused]
    refine ⟨⟨accounted.congr same (by rw [given_eq]), Keeps.of_streams same, by rw [given_eq]⟩, ?_⟩
    intro emitted
    cases emitted

theorem Accounted.flushKeys (accounted : Accounted config state) (sink : DeltaSink)
    (keys : List Text) :
    Flushes config state (flushKeys sink keys state).1 ∧
      ((flushKeys sink keys state).2 = true → ∀ key ∈ keys, ∀ stream,
        (DeltaCoalescer.flushKeys sink keys state).1.streams.get? key = some stream →
          stream.dirty = false) := by
  induction keys generalizing state with
  | nil => exact ⟨Flushes.refl accounted, fun _ _ member => (List.not_mem_nil member).elim⟩
  | cons key keys ih =>
    obtain ⟨first, cleanFirst⟩ := accounted.flushKey sink key
    obtain ⟨rest, cleanRest⟩ := ih first.accounted
    refine ⟨first.trans rest, fun emitted other member stream found => ?_⟩
    obtain ⟨emittedFirst, emittedRest⟩ := Bool.and_eq_true_iff.mp emitted
    rcases List.mem_cons.mp member with rfl | member
    · obtain ⟨old, foundOld, _, _, dirty⟩ := rest.keeps other stream found
      have wasClean := cleanFirst emittedFirst old foundOld
      apply Bool.eq_false_iff.mpr
      intro isDirty
      rw [dirty isDirty] at wasClean
      cases wasClean
    · exact cleanRest emittedRest other member stream found

theorem Accounted.flushAll (accounted : Accounted config state) (sink : DeltaSink) :
    Accounted config (flushAll sink state).1 ∧ Keeps state (flushAll sink state).1 ∧
      Timed (flushAll sink state).1 := by
  have untimed : Accounted config { state with timer := false } := accounted.congr rfl rfl
  obtain ⟨flushes, clean⟩ := untimed.flushKeys sink state.streams.keys
  have keeps : Keeps state
      (DeltaCoalescer.flushKeys sink state.streams.keys { state with timer := false }).1 :=
    flushes.keeps
  unfold DeltaCoalescer.flushAll
  dsimp only
  split
  · next emitted =>
    refine ⟨flushes.accounted, keeps, fun key stream found dirty => ?_⟩
    obtain ⟨old, foundOld, _⟩ := keeps key stream found
    rw [clean emitted key (JsMap.mem_keys_of_get? foundOld) stream found] at dirty
    cases dirty
  · exact ⟨flushes.accounted.congr rfl rfl, keeps.trans (Keeps.of_streams rfl), fun _ _ _ _ => rfl⟩

theorem Accounted.makeRoom (accounted : Accounted config state) (isProtected : Text → Bool)
    (sink : DeltaSink) (evictable : List Text) :
    Flushes config state (makeRoom config isProtected sink state evictable).1 := by
  have listed : ∀ keys, Flushes config state { state with evictable := keys } := fun keys =>
    ⟨accounted.congr rfl rfl, Keeps.of_streams rfl, rfl⟩
  induction evictable with
  | nil => exact listed []
  | cons oldest others ih =>
    unfold DeltaCoalescer.makeRoom
    dsimp only
    split
    · exact listed _
    · split
      · exact listed _
      · split
        · exact ih
        · have flushed := ((listed (oldest :: others)).accounted.flushKey sink oldest).1
          split
          · obtain ⟨keeps, timer⟩ := keeps_drop (DeltaCoalescer.flushKey sink { state with
              evictable := oldest :: others } oldest).1 oldest
            refine ((listed (oldest :: others)).trans flushed).trans ⟨?_, ?_, timer⟩
            · exact (flushed.accounted.drop oldest).congr rfl rfl
            · exact keeps.trans (Keeps.of_streams rfl)
          · exact (listed (oldest :: others)).trans flushed

end Flushing

section Appending

/-- The limit of a stream: its own, or what the other streams leave. -/
def streamLimit (config : DeltaCoalescerConfig) (state : DeltaCoalescer) (stream : DeltaStream) : ℕ :=
  min config.maxRetainedBytes
    (stream.retainedBytes + (config.maxTotalRetainedBytes - state.totalRetainedBytes).toNat)

structure Appended (config : DeltaCoalescerConfig) (before : DeltaCoalescer) (old : DeltaStream)
    (delta : Text) (new : DeltaStream) : Prop where
  appended : new.appended = old.appended ++ [delta]
  ended : old.truncated = true → new.truncated = true ∧ new.text = old.text
  joined : old.truncated = false →
    old.retainedBytes + textBytes delta ≤ streamLimit config before old →
      new.truncated = false ∧ new.text = old.text ++ delta
  cut : old.truncated = false →
    streamLimit config before old < old.retainedBytes + textBytes delta →
      new.truncated = true ∧
        new.text = truncatedText (streamLimit config before old) (old.appended ++ [delta])

/-- The stream that the key of an append has before it: its own, or an empty one. -/
def Starts (state : DeltaCoalescer) (key : Text) (stream : DeltaStream) : Prop :=
  state.streams.get? key = some stream ∨
    state.streams.get? key = none ∧ stream = DeltaStream.empty

theorem Accounted.weight (accounted : Accounted config state) {key : Text} {stream : DeltaStream}
    (starts : Starts state key stream) :
    SoundStream config stream ∧ state.streams.weightAt retained key = stream.retainedBytes := by
  rcases starts with found | ⟨absent, rfl⟩
  · exact ⟨accounted.streams key stream found, JsMap.weightAt_of_get? found⟩
  · exact ⟨SoundStream.empty config, JsMap.weightAt_of_absent absent⟩

theorem Accounted.retained_le (accounted : Accounted config state) {key : Text} {stream : DeltaStream}
    (starts : Starts state key stream) : (stream.retainedBytes : ℤ) ≤ state.totalRetainedBytes := by
  have weight := (accounted.weight starts).2
  have others : (state.streams.delete key).total retained = _ := JsMap.total_delete state.streams key
  have nonneg : 0 ≤ (state.streams.delete key).total retained :=
    JsMap.total_nonneg fun _ other _ => Int.natCast_nonneg other.retainedBytes
  rw [accounted.total, ← weight]
  omega

theorem Accounted.streamLimit (accounted : Accounted config state) {key : Text} {stream : DeltaStream}
    (starts : Starts state key stream) :
    stream.retainedBytes ≤ streamLimit config state stream ∧
      streamLimit config state stream ≤ config.maxRetainedBytes ∧
      streamLimit config state stream ≤ config.maxTotalRetainedBytes ∧
      state.totalRetainedBytes - stream.retainedBytes + streamLimit config state stream ≤
        config.maxTotalRetainedBytes := by
  have sound := (accounted.weight starts).1
  have part := accounted.retained_le starts
  have budget := accounted.budget
  have bounded := sound.bounded
  unfold DeltaCoalescer.streamLimit
  omega

theorem Accounted.appendTo (accounted : Accounted config state) {key : Text} {stream : DeltaStream}
    (starts : Starts state key stream) (delta : Text) :
    Accounted config (appendTo config state key stream delta) ∧
      ∃ new, (appendTo config state key stream delta).streams = state.streams.set key new ∧
        Appended config state stream delta new := by
  obtain ⟨sound, weight⟩ := accounted.weight starts
  obtain ⟨enough, withinStream, withinTotal, withinBudget⟩ := accounted.streamLimit starts
  have stored : ∀ {new : DeltaStream}, SoundStream config new → ∀ other found,
      (state.streams.set key new).get? other = some found → SoundStream config found := by
    intro new soundNew other found stored
    rw [JsMap.get?_set] at stored
    split at stored
    · cases stored
      exact soundNew
    · exact accounted.streams other found stored
  unfold DeltaCoalescer.appendTo
  dsimp only
  by_cases isCut : stream.truncated = true
  · rw [if_pos isCut]
    refine ⟨⟨?_, accounted.budget, stored (sound.observe isCut delta _)⟩, _, rfl, rfl,
      fun _ => ⟨isCut, rfl⟩, fun whole => ?_, fun whole => ?_⟩
    · dsimp only [scheduleFlush]
      rw [JsMap.total_set, weight, accounted.total]
      exact (Int.sub_add_cancel _ _).symm
    · rw [isCut] at whole
      cases whole
    · rw [isCut] at whole
      cases whole
  · have whole := Bool.eq_false_iff.mpr isCut
    obtain ⟨next, next_eq, soundNext, small, joined, cut⟩ :=
      sound.extend whole delta withinStream withinTotal enough
    unfold DeltaCoalescer.streamLimit at next_eq
    rw [if_neg isCut, next_eq]
    refine ⟨⟨?_, ?_, stored soundNext⟩, extended stream delta next, rfl, rfl,
      fun isCut => ?_, fun _ => joined, fun _ => cut⟩
    · dsimp only [scheduleFlush]
      rw [JsMap.total_set, weight, accounted.total]
      change _ + (next.retainedBytes - stream.retainedBytes : ℤ) =
        _ - (stream.retainedBytes : ℤ) + next.retainedBytes
      omega
    · dsimp only [scheduleFlush]
      omega
    · rw [whole] at isCut
      cases isCut

theorem appendTo_timer (config : DeltaCoalescerConfig) (state : DeltaCoalescer) (key : Text)
    (stream : DeltaStream) (delta : Text) : (appendTo config state key stream delta).timer = true := by
  unfold appendTo
  dsimp only
  split
  · rfl
  · rfl

/-- A refused append flushes; another one appends to a stream, after flushes. -/
theorem Accounted.append (accounted : Accounted config state) (isProtected : Text → Bool)
    (sink : DeltaSink) (key delta : Text) :
    (Flushes config state (DeltaCoalescer.append config isProtected sink state key delta).1 ∧
        (DeltaCoalescer.append config isProtected sink state key delta).2 = false) ∨
      ∃ ready stream, Flushes config state ready ∧ Starts ready key stream ∧
        (∀ old, state.streams.get? key = some old → stream = old ∧
          ready.totalRetainedBytes = state.totalRetainedBytes) ∧
        (DeltaCoalescer.append config isProtected sink state key delta).1 =
          DeltaCoalescer.appendTo config ready key stream delta := by
  unfold DeltaCoalescer.append
  cases found : state.streams.get? key with
  | some stream =>
    dsimp only
    split
    · exact Or.inr ⟨{ state with evictable := state.evictable.erase key }, stream,
        ⟨accounted.congr rfl rfl, Keeps.of_streams rfl, rfl⟩, Or.inl found, fun old same => ⟨Option.some.inj same, rfl⟩, rfl⟩
    · exact Or.inr ⟨state, stream, Flushes.refl accounted, Or.inl found,
        fun old same => ⟨Option.some.inj same, rfl⟩, rfl⟩
  | none =>
    dsimp only
    split
    · refine Or.inr ⟨state, DeltaStream.empty, Flushes.refl accounted, Or.inr ⟨found, rfl⟩, ?_, rfl⟩
      intro old isThere
      cases isThere
    · have room := accounted.makeRoom isProtected sink state.evictable
      split
      · obtain ⟨listed, listed_eq⟩ : ∃ listed : List Text, listed =
            if key ∈ (DeltaCoalescer.makeRoom config isProtected sink state state.evictable).1.evictable
            then (DeltaCoalescer.makeRoom config isProtected sink state state.evictable).1.evictable
            else (DeltaCoalescer.makeRoom config isProtected sink state state.evictable).1.evictable ++
              [key] := ⟨_, rfl⟩
        rw [← listed_eq]
        refine Or.inr ⟨{ (DeltaCoalescer.makeRoom config isProtected sink state state.evictable).1 with
          evictable := listed }, DeltaStream.empty, ?_, Or.inr ⟨room.keeps.absent found, rfl⟩, ?_, rfl⟩
        · exact room.trans ⟨room.accounted.congr rfl rfl, Keeps.of_streams rfl, rfl⟩
        · intro old isThere
          cases isThere
      · next refused => exact Or.inl ⟨room, rfl⟩

end Appending

section Steps

structure Sound (config : DeltaCoalescerConfig) (state : DeltaCoalescer) : Prop where
  accounted : Accounted config state
  timed : Timed state

theorem Flushes.sound (flushes : Flushes config before after) (timed : Timed before) :
    Sound config after := ⟨flushes.accounted, flushes.keeps.timed flushes.timer timed⟩

theorem Sound.append (sound : Sound config state) (isProtected : Text → Bool) (sink : DeltaSink)
    (key delta : Text) : Sound config (append config isProtected sink state key delta).1 := by
  rcases sound.accounted.append isProtected sink key delta with ⟨refused, _⟩ |
    ⟨ready, stream, flushes, starts, _, shape⟩
  · exact refused.sound sound.timed
  · rw [shape]
    refine ⟨(flushes.accounted.appendTo starts delta).1, fun _ _ _ _ => ?_⟩
    exact appendTo_timer config ready key stream delta

theorem Sound.drop (sound : Sound config state) (key : Text) : Sound config (state.drop key) := by
  obtain ⟨keeps, timer⟩ := keeps_drop state key
  exact ⟨sound.accounted.drop key, keeps.timed timer sound.timed⟩

theorem keeps_forget (state : DeltaCoalescer) (key : Text) : Keeps state (state.forget key) := by
  unfold forget
  split
  · exact (keeps_drop state key).1.trans (Keeps.of_streams rfl)
  · exact Keeps.of_streams rfl

theorem Sound.forget (sound : Sound config state) (key : Text) : Sound config (state.forget key) := by
  have dropped := sound.drop key
  unfold DeltaCoalescer.forget
  split
  · exact ⟨dropped.accounted.congr rfl rfl, dropped.timed⟩
  · exact sound

theorem Accounted.markFlushed (accounted : Accounted config state) (key : Text) :
    Flushes config state (state.markFlushed key) := by
  unfold DeltaCoalescer.markFlushed
  split
  · exact Flushes.refl accounted
  · next stream found => exact ⟨accounted.settle found, keeps_settle found, rfl⟩

theorem Sound.dispose (state : DeltaCoalescer) : Sound config state.dispose where
  accounted := by
    refine ⟨JsMap.total_empty.symm, Int.natCast_nonneg _, fun key stream found => ?_⟩
    cases found
  timed key stream found := by
    cases found

theorem Sound.step (sound : Sound config state) (input : DeltaInput) :
    Sound config (step config state input) := by
  cases input with
  | append key delta isProtected sink => exact sound.append isProtected sink key delta
  | flush key sink => exact (sound.accounted.flushKey sink key).1.sound sound.timed
  | flushAll sink =>
    obtain ⟨accounted, _, timed⟩ := sound.accounted.flushAll sink
    exact ⟨accounted, timed⟩
  | timerFired sink =>
    have shape : DeltaCoalescer.step config state (.timerFired sink) =
      if state.timer then (flushAll sink { state with timer := false }).1 else state := rfl
    rw [shape]
    split
    · have untimed : Accounted config { state with timer := false } :=
        sound.accounted.congr rfl rfl
      obtain ⟨accounted, _, timed⟩ := untimed.flushAll sink
      exact ⟨accounted, timed⟩
    · exact sound
  | forget key => exact sound.forget key
  | markFlushed key => exact (sound.accounted.markFlushed key).sound sound.timed
  | dispose => exact Sound.dispose state

theorem Sound.initial (config : DeltaCoalescerConfig) : Sound config DeltaCoalescer.initial :=
  Sound.dispose DeltaCoalescer.initial

theorem Sound.run (config : DeltaCoalescerConfig) (inputs : List DeltaInput) :
    Sound config (run config inputs) := by
  have all : ∀ state, Sound config state → Sound config (inputs.foldl (DeltaCoalescer.step config) state) := by
    induction inputs with
    | nil => exact fun _ sound => sound
    | cons input inputs ih =>
      intro state sound
      exact ih _ (sound.step input)
  exact all _ (Sound.initial config)

/-- A text that was cut stays as it is while its stream lives. -/
theorem Sound.ended (sound : Sound config state) (input : DeltaInput) {key : Text}
    {old new : DeltaStream} (found : state.streams.get? key = some old)
    (foundNew : (DeltaCoalescer.step config state input).streams.get? key = some new)
    (isCut : old.truncated = true) : new.truncated = true ∧ new.text = old.text := by
  have kept : ∀ {after : DeltaCoalescer}, Keeps state after → after.streams.get? key = some new →
      new.truncated = true ∧ new.text = old.text := by
    intro after keeps foundAfter
    obtain ⟨other, foundOther, text, truncated, _⟩ := keeps key new foundAfter
    rw [found] at foundOther
    cases foundOther
    exact ⟨truncated.trans isCut, text⟩
  cases input with
  | append changed delta isProtected sink =>
    rcases sound.accounted.append isProtected sink changed delta with ⟨refused, _⟩ |
      ⟨ready, stream, flushes, starts, same, shape⟩
    · exact kept refused.keeps foundNew
    · obtain ⟨_, stored, streams, appended⟩ := flushes.accounted.appendTo starts delta
      have foundStored : (appendTo config ready changed stream delta).streams.get? key = some new := by
        rw [← shape]
        exact foundNew
      rw [streams, JsMap.get?_set] at foundStored
      split at foundStored
      · next isKey =>
        cases foundStored
        subst isKey
        exact (same old found).1 ▸ appended.ended ((same old found).1 ▸ isCut)
      · exact kept flushes.keeps foundStored
  | flush changed sink => exact kept (sound.accounted.flushKey sink changed).1.keeps foundNew
  | flushAll sink => exact kept (sound.accounted.flushAll sink).2.1 foundNew
  | timerFired sink =>
    have shape : DeltaCoalescer.step config state (.timerFired sink) =
      if state.timer then (flushAll sink { state with timer := false }).1 else state := rfl
    rw [shape] at foundNew
    split at foundNew
    · have untimed : Accounted config { state with timer := false } :=
        sound.accounted.congr rfl rfl
      have keeps : Keeps state (flushAll sink { state with timer := false }).1 :=
        (untimed.flushAll sink).2.1
      exact kept keeps foundNew
    · exact kept (Keeps.of_streams rfl) foundNew
  | forget changed => exact kept (keeps_forget state changed) foundNew
  | markFlushed changed => exact kept (sound.accounted.markFlushed changed).keeps foundNew
  | dispose => cases foundNew

end Steps

end OxeeUI.Wire.DeltaCoalescer

/-!
## Deltas are kept within the bounds

Over every run each stream holds its deltas, or their beginning up to the limit that
the first one to overflow met, and whatever was not flushed yet is going to be.
-/

namespace OxeeUI.Wire.DeltaCoalescer

open OxeeUI.Library

variable {config : DeltaCoalescerConfig} {state : DeltaCoalescer}

theorem sum_textBytes_le {streams : List DeltaStream}
    (sound : ∀ stream ∈ streams, SoundStream config stream) :
    ((streams.map fun stream => textBytes stream.text).sum : ℤ) ≤ (streams.map retained).sum := by
  induction streams with
  | nil => exact Int.le_refl 0
  | cons stream streams ih =>
    have first := (sound stream List.mem_cons_self).bytes
    have rest := ih fun other member => sound other (List.mem_cons_of_mem _ member)
    rw [List.map_cons, List.map_cons, List.sum_cons, List.sum_cons, Nat.cast_add]
    exact Int.add_le_add (Int.ofNat_le.mpr first) rest

theorem Accounted.texts_le (accounted : Accounted config state) :
    (state.streams.values.map fun stream => textBytes stream.text).sum ≤
      config.maxTotalRetainedBytes := by
  have each : ∀ stream ∈ state.streams.values, SoundStream config stream := by
    intro stream member
    obtain ⟨key, found⟩ := JsMap.mem_values_iff.mp member
    exact accounted.streams key stream found
  have below := sum_textBytes_le each
  have total := accounted.total
  have budget := accounted.budget
  unfold JsMap.total at total
  omega

theorem Sound.extends (sound : Sound config state) (isProtected : Text → Bool) (sink : DeltaSink)
    (key delta : Text) (accepted : (DeltaCoalescer.append config isProtected sink state key delta).2 = true) :
    ∃ ready old new, Keeps state ready ∧ Starts ready key old ∧
      (∀ stream, state.streams.get? key = some stream → old = stream ∧
        ready.totalRetainedBytes = state.totalRetainedBytes) ∧
      (DeltaCoalescer.append config isProtected sink state key delta).1.streams.get? key =
        some new ∧
      Appended config ready old delta new := by
  rcases sound.accounted.append isProtected sink key delta with ⟨_, refused⟩ |
    ⟨ready, stream, flushes, starts, same, shape⟩
  · rw [refused] at accepted
    cases accepted
  · obtain ⟨_, new, streams, appended⟩ := flushes.accounted.appendTo starts delta
    refine ⟨ready, stream, new, flushes.keeps, starts, same, ?_, appended⟩
    rw [shape, streams]
    exact JsMap.get?_set_self _ _ _

theorem whole_deltas {deltas kept : List Text} (isPrefix : kept <+: deltas)
    (whole : ∀ delta ∈ deltas, hasLoneSurrogate delta = false) :
    (kept.map textBytes).sum = textBytes kept.flatten ∧
      kept.flatMap characters = characters kept.flatten := by
  have joined := characters_flatten fun delta member => whole delta (isPrefix.subset member)
  refine ⟨?_, joined.symm⟩
  rw [sum_textBytes, ← joined]
  rfl

/-- The two surrogates of one character, in two deltas, with room for that character. -/
def splitPair : List DeltaInput :=
  let sink : DeltaSink := ⟨fun _ _ => true, fun _ _ => true⟩
  [.append [107] [0xD83D] (fun _ => false) sink, .append [107] [0xDE00] (fun _ => false) sink]

def skippedText : List DeltaInput :=
  let sink : DeltaSink := ⟨fun _ _ => false, fun _ _ => true⟩
  [.append [107] [97] (fun _ => false) sink, .flush [107] sink]

def DeltaInput.marks : DeltaInput → Bool
  | .markFlushed _ => true
  | _ => false

end OxeeUI.Wire.DeltaCoalescer
