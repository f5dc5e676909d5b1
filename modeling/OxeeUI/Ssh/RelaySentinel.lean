import OxeeUI.Library.FirstOccurrence

/-!
# Waiting for the sentinel of the relay

Standard output is buffered until the ready sentinel is found in it, or until it is longer
than the cap; what is behind the sentinel waits for the first subscriber.
-/

namespace OxeeUI.Ssh

open OxeeUI.Library

abbrev Bytes := List UInt8

def maxRelayStartupBufferBytes : ℕ := 64 * 1024

/-- The UTF-8 bytes of `RELAY_SENTINEL`. -/
def relaySentinel : Bytes :=
  "ORCA-RELAY v0.1.0 READY\n".toList.map fun character => UInt8.ofNat character.toNat

inductive StartupOutcome where
  | resolved
  | rejected
deriving DecidableEq

/-- The variables of the promise; `received` is what the first subscriber was called with. -/
structure RelayStartup where
  sentinelReceived : Bool
  outcome : Option StartupOutcome
  bufferedStdout : Bytes
  pendingAfterSentinel : Option Bytes
  dataCallbacks : ℕ
  received : List Bytes

/-- A data event of standard output, or a subscription to the transport. -/
inductive StartupEvent where
  | data (data : Bytes)
  | onData

def StartupEvent.stdout : StartupEvent → Bytes
  | .data bytes => bytes
  | .onData => []

def stdoutOf (events : List StartupEvent) : Bytes := events.flatMap StartupEvent.stdout

namespace RelayStartup

def initial : RelayStartup := ⟨false, none, [], none, 0, []⟩

/-- A promise keeps the outcome it was settled with. -/
def settle (startup : RelayStartup) (outcome : StartupOutcome) : RelayStartup :=
  { startup with outcome := some (startup.outcome.getD outcome) }

/-- `failStartupOutputCap`, before the sentinel. -/
def failStartupOutputCap (startup : RelayStartup) : RelayStartup := startup.settle .rejected

def deliver (startup : RelayStartup) (data : Bytes) : RelayStartup :=
  if startup.dataCallbacks = 0 then
    { startup with
      pendingAfterSentinel := some (startup.pendingAfterSentinel.elim data (· ++ data)) }
  else { startup with received := startup.received ++ [data] }

def search (startup : RelayStartup) (data : Bytes) : RelayStartup :=
  let buffered := startup.bufferedStdout.length
  let searchableDataLength := maxRelayStartupBufferBytes + relaySentinel.length - buffered
  let startupStdout := startup.bufferedStdout ++ data.take searchableDataLength
  match firstOccurrence relaySentinel startupStdout with
  | some sentinelIdx =>
    if maxRelayStartupBufferBytes < sentinelIdx then startup.failStartupOutputCap
    else
      let afterSentinel := data.drop (sentinelIdx + relaySentinel.length - buffered)
      settle { startup with
        sentinelReceived := true
        bufferedStdout := []
        pendingAfterSentinel := if 0 < afterSentinel.length then some afterSentinel
          else startup.pendingAfterSentinel } .resolved
  | none =>
    if maxRelayStartupBufferBytes < buffered + data.length then startup.failStartupOutputCap
    else { startup with bufferedStdout := startupStdout }

/-- `onData` of the transport the promise was resolved with. -/
def subscribe (startup : RelayStartup) : RelayStartup :=
  if startup.outcome = some .resolved then
    { startup with
      dataCallbacks := startup.dataCallbacks + 1
      pendingAfterSentinel := none
      received := if startup.dataCallbacks = 0 then
        startup.received ++ startup.pendingAfterSentinel.toList else startup.received }
  else startup

def step (startup : RelayStartup) : StartupEvent → RelayStartup
  | .data data => if startup.sentinelReceived then startup.deliver data else startup.search data
  | .onData => startup.subscribe

def run (events : List StartupEvent) : RelayStartup := events.foldl step initial

end RelayStartup

/-! ## What the stream decides -/

/-- The outcome that a stream has where no event cuts its sentinel. -/
def startupOutcome (stream : Bytes) : Option StartupOutcome :=
  match firstOccurrence relaySentinel stream with
  | some offset => if offset ≤ maxRelayStartupBufferBytes then some .resolved else some .rejected
  | none => if maxRelayStartupBufferBytes < stream.length then some .rejected else none

/-- A data event ends behind the cap and within the sentinel. -/
def CutsSentinel (events : List StartupEvent) : Prop :=
  ∃ offset ≤ maxRelayStartupBufferBytes,
    firstOccurrence relaySentinel (stdoutOf events) = some offset ∧
      ∃ early, early <+: events ∧ maxRelayStartupBufferBytes < (stdoutOf early).length ∧
        (stdoutOf early).length < offset + relaySentinel.length

namespace RelayStartup

variable {events : List StartupEvent} {startup : RelayStartup} {data : Bytes}

theorem relaySentinel_ne_nil : relaySentinel ≠ [] := by decide

theorem stdoutOf_append (early late : List StartupEvent) :
    stdoutOf (early ++ late) = stdoutOf early ++ stdoutOf late := List.flatMap_append

theorem stdoutOf_length_le {early : List StartupEvent} (start : early <+: events) :
    (stdoutOf early).length ≤ (stdoutOf events).length := by
  obtain ⟨late, rfl⟩ := start
  simp [stdoutOf_append]

/-- Nothing was found yet, and all of the output is buffered. -/
structure Waiting (events : List StartupEvent) (startup : RelayStartup) : Prop where
  searching : startup.sentinelReceived = false
  outcome : startup.outcome = none
  buffered : startup.bufferedStdout = stdoutOf events
  capped : (stdoutOf events).length ≤ maxRelayStartupBufferBytes
  absent : firstOccurrence relaySentinel (stdoutOf events) = none
  pending : startup.pendingAfterSentinel = none
  subscribed : startup.dataCallbacks = 0
  received : startup.received = []

/-- The sentinel was found, and what is behind it was received or is pending. -/
structure Resolved (events : List StartupEvent) (startup : RelayStartup) (offset : ℕ) : Prop where
  found : startup.sentinelReceived = true
  outcome : startup.outcome = some .resolved
  first : firstOccurrence relaySentinel (stdoutOf events) = some offset
  capped : offset ≤ maxRelayStartupBufferBytes
  uncut : ∀ early, early <+: events → maxRelayStartupBufferBytes < (stdoutOf early).length →
    offset + relaySentinel.length ≤ (stdoutOf early).length
  behind : startup.received.flatten ++ startup.pendingAfterSentinel.getD [] =
    (stdoutOf events).drop (offset + relaySentinel.length)
  unsubscribed : startup.dataCallbacks = 0 → startup.received = []
  subscribed : 0 < startup.dataCallbacks → startup.pendingAfterSentinel = none

/-- A data event ended behind the cap with no sentinel up to there. -/
structure Rejected (events : List StartupEvent) (startup : RelayStartup) : Prop where
  outcome : startup.outcome = some .rejected
  capped : ∃ early, early <+: events ∧ maxRelayStartupBufferBytes < (stdoutOf early).length ∧
    ∀ offset ≤ maxRelayStartupBufferBytes, ¬relaySentinel <+: (stdoutOf early).drop offset

inductive Stands (events : List StartupEvent) (startup : RelayStartup) : Prop where
  | waiting (waiting : Waiting events startup)
  | resolved (offset : ℕ) (resolved : Resolved events startup offset)
  | rejected (rejected : Rejected events startup)

theorem initial_stands : Stands [] initial :=
  .waiting ⟨rfl, rfl, rfl, Nat.zero_le _, by decide, rfl, rfl, rfl⟩

theorem prefix_concat {early : List StartupEvent} {event : StartupEvent}
    (start : early <+: events ++ [event]) : early <+: events ∨ early = events ++ [event] := by
  rcases List.prefix_concat_iff.mp start with whole | shorter
  · exact .inr whole
  · exact .inl shorter

theorem stdoutOf_onData : stdoutOf (events ++ [.onData]) = stdoutOf events := by
  simp [stdoutOf, StartupEvent.stdout]

theorem stdoutOf_data : stdoutOf (events ++ [.data data]) = stdoutOf events ++ data := by
  simp [stdoutOf, StartupEvent.stdout]

theorem Rejected.step (rejected : Rejected events startup) (event : StartupEvent) :
    Rejected (events ++ [event]) (startup.step event) := by
  obtain ⟨outcome, early, start, longer, absent⟩ := rejected
  refine ⟨?_, early, start.trans (List.prefix_append _ _), longer, absent⟩
  cases event with
  | onData =>
    rw [RelayStartup.step, subscribe, if_neg (by rw [outcome]; decide)]
    exact outcome
  | data data =>
    rw [RelayStartup.step]
    split
    · rw [deliver]
      split <;> exact outcome
    · rw [search]
      dsimp only
      split
      · split
        · simp [failStartupOutputCap, settle, outcome]
        · simp [settle, outcome]
      · split
        · simp [failStartupOutputCap, settle, outcome]
        · exact outcome

theorem Resolved.step {offset : ℕ} (resolved : Resolved events startup offset) (event : StartupEvent) :
    Resolved (events ++ [event]) (startup.step event) offset := by
  obtain ⟨found, outcome, first, capped, uncut, behind, unsubscribed, subscribed⟩ := resolved
  have bound := occurs_length relaySentinel_ne_nil
    ((firstOccurrence_eq_some_iff relaySentinel_ne_nil).mp first).1
  have uncut' : ∀ early, early <+: events ++ [event] →
      maxRelayStartupBufferBytes < (stdoutOf early).length →
      offset + relaySentinel.length ≤ (stdoutOf early).length := by
    intro early start longer
    rcases prefix_concat start with shorter | rfl
    · exact uncut early shorter longer
    · exact bound.trans (stdoutOf_length_le (List.prefix_append _ _))
  cases event with
  | onData =>
    rw [RelayStartup.step, subscribe, if_pos outcome]
    refine ⟨found, outcome, ?_, capped, uncut', ?_, fun none => absurd none (Nat.succ_ne_zero _),
      fun _ => rfl⟩
    · rw [stdoutOf_onData]
      exact first
    · rw [stdoutOf_onData, ← behind]
      dsimp only
      split
      · next none =>
        rw [unsubscribed none]
        cases startup.pendingAfterSentinel <;> simp
      · next some =>
        rw [subscribed (Nat.pos_of_ne_zero some)]
  | data data =>
    have later : (stdoutOf events ++ data).drop (offset + relaySentinel.length) =
        (stdoutOf events).drop (offset + relaySentinel.length) ++ data :=
      List.drop_append_of_le_length bound
    have first' : firstOccurrence relaySentinel (stdoutOf events ++ data) = some offset :=
      firstOccurrence_append relaySentinel_ne_nil first
    rw [RelayStartup.step, if_pos found, deliver]
    split
    · next none =>
      refine ⟨found, outcome, ?_, capped, uncut', ?_, unsubscribed, fun some => ?_⟩
      · rw [stdoutOf_data]
        exact first'
      · rw [stdoutOf_data, later, ← behind]
        cases startup.pendingAfterSentinel <;> simp
      · exact absurd none (Nat.ne_of_gt some)
    · next some =>
      refine ⟨found, outcome, ?_, capped, uncut', ?_, fun none => absurd none some, subscribed⟩
      · rw [stdoutOf_data]
        exact first'
      · rw [stdoutOf_data, later, ← behind, subscribed (Nat.pos_of_ne_zero some)]
        simp

theorem Waiting.short (waiting : Waiting events startup) {early : List StartupEvent}
    (start : early <+: events) : (stdoutOf early).length ≤ maxRelayStartupBufferBytes :=
  (stdoutOf_length_le start).trans waiting.capped

theorem Waiting.searched (waiting : Waiting events startup) (data : Bytes) :
    startup.bufferedStdout ++ data.take
        (maxRelayStartupBufferBytes + relaySentinel.length - startup.bufferedStdout.length) =
      (stdoutOf events ++ data).take (maxRelayStartupBufferBytes + relaySentinel.length) := by
  have capped := waiting.capped
  have whole : (stdoutOf events).take (maxRelayStartupBufferBytes + relaySentinel.length) =
      stdoutOf events := List.take_of_length_le (by omega)
  rw [waiting.buffered, List.take_append, whole]

theorem Waiting.finds (waiting : Waiting events startup) {offset : ℕ}
    (found : firstOccurrence relaySentinel ((stdoutOf events ++ data).take
      (maxRelayStartupBufferBytes + relaySentinel.length)) = some offset) :
    Resolved (events ++ [.data data]) (startup.search data) offset := by
  obtain ⟨here, before⟩ := (firstOccurrence_eq_some_iff relaySentinel_ne_nil).mp found
  obtain ⟨here', capped⟩ := (occurs_take_iff relaySentinel_ne_nil).mp here
  have inside := occurs_length relaySentinel_ne_nil here'
  have first : firstOccurrence relaySentinel (stdoutOf events ++ data) = some offset := by
    refine (firstOccurrence_eq_some_iff relaySentinel_ne_nil).mpr
      ⟨here', fun j earlier there => before j earlier ?_⟩
    exact (occurs_take_iff relaySentinel_ne_nil).mpr ⟨there, by omega⟩
  have beyond : (stdoutOf events).length < offset + relaySentinel.length := by
    by_contra within
    have there := occurs_of_append relaySentinel_ne_nil here' (Nat.le_of_not_lt within)
    exact (firstOccurrence_eq_none_iff relaySentinel_ne_nil).mp waiting.absent offset there
  have behind : (stdoutOf events ++ data).drop (offset + relaySentinel.length) =
      data.drop (offset + relaySentinel.length - startup.bufferedStdout.length) := by
    rw [waiting.buffered, List.drop_append, List.drop_eq_nil_of_le (le_of_lt beyond),
      List.nil_append]
  rw [search]
  dsimp only
  rw [waiting.searched data, found]
  dsimp only
  rw [if_neg (by omega), settle]
  refine ⟨rfl, ?_, ?_, by omega, ?_, ?_, fun _ => waiting.received, ?_⟩
  · simp [waiting.outcome]
  · rw [stdoutOf_data]
    exact first
  · intro early start longer
    rcases prefix_concat start with shorter | rfl
    · exact absurd longer (Nat.not_lt.mpr (waiting.short shorter))
    · rw [stdoutOf_data]
      exact inside
  · rw [stdoutOf_data, behind]
    dsimp only
    rw [waiting.received, waiting.pending, List.flatten_nil, List.nil_append]
    split
    · rfl
    · next nothing =>
      rw [List.eq_nil_of_length_eq_zero (Nat.eq_zero_of_not_pos nothing)]
      rfl
  · intro some
    exact absurd waiting.subscribed (Nat.ne_of_gt some)

theorem Waiting.misses (waiting : Waiting events startup)
    (missed : firstOccurrence relaySentinel ((stdoutOf events ++ data).take
      (maxRelayStartupBufferBytes + relaySentinel.length)) = none) :
    Stands (events ++ [.data data]) (startup.search data) := by
  have absent := (firstOccurrence_eq_none_iff relaySentinel_ne_nil).mp missed
  rw [search]
  dsimp only
  rw [waiting.searched data, missed]
  dsimp only
  rw [waiting.buffered, ← List.length_append]
  split
  · next longer =>
    refine .rejected ⟨?_, events ++ [.data data], List.prefix_rfl, ?_, ?_⟩
    · simp [failStartupOutputCap, settle, waiting.outcome]
    · rw [stdoutOf_data]
      exact longer
    · intro offset capped there
      rw [stdoutOf_data] at there
      exact absent offset ((occurs_take_iff relaySentinel_ne_nil).mpr ⟨there, by omega⟩)
  · next shorter =>
    have whole : (stdoutOf events ++ data).take
        (maxRelayStartupBufferBytes + relaySentinel.length) = stdoutOf events ++ data :=
      List.take_of_length_le (by omega)
    refine .waiting ⟨waiting.searching, waiting.outcome, ?_, ?_, ?_, waiting.pending,
      waiting.subscribed, waiting.received⟩
    · rw [stdoutOf_data]
      exact whole
    · rw [stdoutOf_data]
      exact Nat.le_of_not_lt shorter
    · rw [stdoutOf_data, ← whole]
      exact missed

theorem step_stands (stands : Stands events startup) (event : StartupEvent) :
    Stands (events ++ [event]) (startup.step event) := by
  cases stands with
  | resolved offset resolved => exact .resolved offset (resolved.step event)
  | rejected rejected => exact .rejected (rejected.step event)
  | waiting waiting =>
    cases event with
    | onData =>
      rw [step, subscribe, if_neg (by rw [waiting.outcome]; decide)]
      have same := @stdoutOf_onData events
      exact .waiting ⟨waiting.searching, waiting.outcome, waiting.buffered.trans same.symm,
        same.symm ▸ waiting.capped, same.symm ▸ waiting.absent, waiting.pending,
        waiting.subscribed, waiting.received⟩
    | data data =>
      have searching : ¬startup.sentinelReceived = true := by
        rw [waiting.searching]
        exact Bool.false_ne_true
      rw [step, if_neg searching]
      cases found : firstOccurrence relaySentinel ((stdoutOf events ++ data).take
          (maxRelayStartupBufferBytes + relaySentinel.length)) with
      | none => exact waiting.misses found
      | some offset => exact .resolved offset (waiting.finds found)

theorem run_stands (events : List StartupEvent) : Stands events (run events) := by
  induction events using List.reverseRecOn with
  | nil => exact initial_stands
  | append_singleton events event ih =>
    have shape : run (events ++ [event]) = (run events).step event :=
      List.foldl_concat _ _ _ _
    rw [shape]
    exact step_stands ih event

theorem startupOutcome_eq_resolved_iff (stream : Bytes) :
    startupOutcome stream = some .resolved ↔
      ∃ offset ≤ maxRelayStartupBufferBytes, firstOccurrence relaySentinel stream = some offset := by
  unfold startupOutcome
  cases found : firstOccurrence relaySentinel stream with
  | none =>
    dsimp only
    split <;> simp
  | some offset =>
    dsimp only
    split
    · next capped => exact ⟨fun _ => ⟨offset, capped, rfl⟩, fun _ => rfl⟩
    · next behind =>
      refine ⟨fun impossible => absurd impossible (by decide), ?_⟩
      rintro ⟨other, capped, same⟩
      exact absurd (Option.some.inj same ▸ capped) behind

/-- The outcome is the stream's unless an event cut its sentinel; then it is a rejection. -/
theorem outcome_eq (events : List StartupEvent) :
    (¬CutsSentinel events ∧ (run events).outcome = startupOutcome (stdoutOf events)) ∨
      (CutsSentinel events ∧ (run events).outcome = some .rejected ∧
        startupOutcome (stdoutOf events) = some .resolved) := by
  cases run_stands events with
  | waiting waiting =>
    refine .inl ⟨?_, ?_⟩
    · rintro ⟨offset, -, found, -⟩
      rw [waiting.absent] at found
      cases found
    · rw [waiting.outcome, startupOutcome, waiting.absent]
      exact (if_neg (Nat.not_lt.mpr waiting.capped)).symm
  | resolved offset resolved =>
    refine .inl ⟨?_, ?_⟩
    · rintro ⟨other, -, found, early, start, longer, cut⟩
      rw [resolved.first] at found
      cases found
      exact absurd (resolved.uncut early start longer) (Nat.not_le.mpr cut)
    · rw [resolved.outcome]
      exact ((startupOutcome_eq_resolved_iff _).mpr ⟨offset, resolved.capped, resolved.first⟩).symm
  | rejected rejected =>
    obtain ⟨outcome, early, start, longer, absent⟩ := rejected
    have length := stdoutOf_length_le start
    obtain ⟨late, rfl⟩ := start
    cases found : firstOccurrence relaySentinel (stdoutOf (early ++ late)) with
    | none =>
      refine .inl ⟨?_, ?_⟩
      · rintro ⟨offset, -, other, -⟩
        rw [found] at other
        cases other
      · rw [outcome, startupOutcome, found]
        exact (if_pos (by omega)).symm
    | some offset =>
      by_cases capped : offset ≤ maxRelayStartupBufferBytes
      · have here := ((firstOccurrence_eq_some_iff relaySentinel_ne_nil).mp found).1
        have cut : (stdoutOf early).length < offset + relaySentinel.length := by
          by_contra within
          rw [stdoutOf_append] at here
          exact absent offset capped
            (occurs_of_append relaySentinel_ne_nil here (Nat.le_of_not_lt within))
        refine .inr ⟨⟨offset, capped, found, early, List.prefix_append _ _, longer, cut⟩, outcome,
          (startupOutcome_eq_resolved_iff _).mpr ⟨offset, capped, found⟩⟩
      · refine .inl ⟨?_, ?_⟩
        · rintro ⟨other, capped', same, -⟩
          rw [found] at same
          cases same
          exact capped capped'
        · rw [outcome, startupOutcome, found]
          exact (if_neg capped).symm

theorem outcome_whole (stream : Bytes) :
    (run [.data stream]).outcome = startupOutcome stream := by
  have whole : stdoutOf [.data stream] = stream := List.append_nil stream
  rcases outcome_eq [.data stream] with ⟨-, same⟩ | ⟨⟨offset, -, found, early, start, longer, cut⟩, -⟩
  · rw [same, whole]
  · rw [whole] at found
    have inside := occurs_length relaySentinel_ne_nil
      ((firstOccurrence_eq_some_iff relaySentinel_ne_nil).mp found).1
    rcases List.prefix_cons_iff.mp start with rfl | ⟨rest, rfl, more⟩
    · exact absurd longer (Nat.not_lt_zero _)
    · rw [List.prefix_nil.mp more, whole] at cut
      exact absurd inside (Nat.not_le.mpr cut)

/-- The start-up resolves as the stream says, as it does in a single event, exactly where no data
event ends behind the cap and within the sentinel, and the first subscriber then receives what is
behind the sentinel. -/
theorem startup_settles (events : List StartupEvent) :
    ((((run events).outcome = some .resolved ↔ ∃ offset ≤ maxRelayStartupBufferBytes,
          firstOccurrence relaySentinel (stdoutOf events) = some offset) ∧
        (run events).outcome = (run [.data (stdoutOf events)]).outcome) ↔ ¬CutsSentinel events) ∧
      ((run events).outcome = some .resolved →
        ∃ offset ≤ maxRelayStartupBufferBytes,
          firstOccurrence relaySentinel (stdoutOf events) = some offset ∧
          ((run events).received.flatten ++ (run events).pendingAfterSentinel.getD [] =
            (stdoutOf events).drop (offset + relaySentinel.length)) ∧
          (0 < (run events).dataCallbacks → (run events).received.flatten =
            (stdoutOf events).drop (offset + relaySentinel.length))) := by
  rw [← startupOutcome_eq_resolved_iff, outcome_whole]
  refine ⟨?_, fun settled => ?_⟩
  · rcases outcome_eq events with ⟨uncut, same⟩ | ⟨cut, rejected, resolved⟩
    · rw [same]
      exact ⟨fun _ => uncut, fun _ => ⟨Iff.rfl, rfl⟩⟩
    · refine ⟨fun both => ?_, fun uncut => absurd cut uncut⟩
      rw [rejected, resolved] at both
      exact absurd both.2 (by decide)
  · cases run_stands events with
    | waiting waiting =>
      rw [waiting.outcome] at settled
      cases settled
    | rejected rejected =>
      rw [rejected.outcome] at settled
      cases settled
    | resolved offset resolved =>
      refine ⟨offset, resolved.capped, resolved.first, resolved.behind, fun some => ?_⟩
      have behind := resolved.behind
      rw [resolved.subscribed some, Option.getD_none, List.append_nil] at behind
      exact behind

/-- A sentinel at the cap is not found where an event ends within it. -/
theorem sentinel_cut :
    ¬∀ events : List StartupEvent, (run events).outcome = some .resolved ↔
      ∃ offset ≤ maxRelayStartupBufferBytes,
        firstOccurrence relaySentinel (stdoutOf events) = some offset := by
  intro claimed
  obtain ⟨noise, isNoise⟩ : ∃ noise : Bytes, noise = List.replicate maxRelayStartupBufferBytes 97 :=
    ⟨_, rfl⟩
  have length : noise.length = maxRelayStartupBufferBytes := by
    rw [isNoise, List.length_replicate]
  have split : relaySentinel = 79 :: relaySentinel.tail := by decide
  have stream : stdoutOf [.data noise, .data (relaySentinel.take 5), .data (relaySentinel.drop 5)] =
      noise ++ (relaySentinel ++ []) := by
    simp [stdoutOf, StartupEvent.stdout]
  have found : firstOccurrence relaySentinel (noise ++ (relaySentinel ++ [])) =
      some maxRelayStartupBufferBytes := by
    rw [split, isNoise]
    exact firstOccurrence_behind (by decide) _ _
  have resolved := (claimed [.data noise, .data (relaySentinel.take 5),
    .data (relaySentinel.drop 5)]).mpr ⟨_, le_refl _, stream ▸ found⟩
  have cut : CutsSentinel [.data noise, .data (relaySentinel.take 5), .data (relaySentinel.drop 5)] := by
    refine ⟨_, le_refl _, stream ▸ found, [.data noise, .data (relaySentinel.take 5)], ?_, ?_, ?_⟩
    · exact ⟨[.data (relaySentinel.drop 5)], rfl⟩
    · have output : stdoutOf [.data noise, .data (relaySentinel.take 5)] =
          noise ++ relaySentinel.take 5 := by
        simp [stdoutOf, StartupEvent.stdout]
      have five : (relaySentinel.take 5).length = 5 := by decide
      rw [output, List.length_append, length, five]
      omega
    · have output : stdoutOf [.data noise, .data (relaySentinel.take 5)] =
          noise ++ relaySentinel.take 5 := by
        simp [stdoutOf, StartupEvent.stdout]
      have five : (relaySentinel.take 5).length = 5 := by decide
      have all : relaySentinel.length = 24 := by decide
      rw [output, List.length_append, length, five, all]
      omega
  rcases outcome_eq [.data noise, .data (relaySentinel.take 5), .data (relaySentinel.drop 5)] with
    ⟨uncut, -⟩ | ⟨-, rejected, -⟩
  · exact uncut cut
  · rw [rejected] at resolved
    exact absurd resolved (by decide)

end RelayStartup

end OxeeUI.Ssh
