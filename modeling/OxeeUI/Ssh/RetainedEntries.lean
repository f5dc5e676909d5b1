import OxeeUI.Ssh.TransportWriter
import Mathlib.Algebra.BigOperators.Group.Finset.Basic
import Mathlib.Data.List.Range

/-!
# The entries a writer retains

What holds of the writer alone, whatever its stack: each lane was written up to
some entry and waits from there on, what is in flight is what was written and is
not settled, each settled entry was reported once and truthfully, and the
counters are the totals of what is not settled.
-/

namespace OxeeUI.Ssh

namespace TransportWriter

variable (writer : TransportWriter)

/-- The entry was passed to `transport.write`. -/
def Written (entry : ℕ) : Prop := ∃ write < writer.started, (writer.writes write).entry = entry

def Waiting (entry : ℕ) : Prop := ∃ lane, entry ∈ writer.scheduler.waiting lane

/-- The entries passed to `transport.write`, in that order. -/
def written : List ℕ := (List.range writer.started).map fun write => (writer.writes write).entry

def inLane (lane : MultiplexerWriterLane) (members : List ℕ) : List ℕ :=
  members.filter fun entry => (writer.entries entry).lane = lane

def writtenIn (lane : MultiplexerWriterLane) : List ℕ := writer.inLane lane writer.written

def admittedIn (lane : MultiplexerWriterLane) : List ℕ :=
  writer.inLane lane (List.range writer.admitted)

/-- The total of a weight over the entries that are not settled. -/
def unsettledTotal (weight : WriterEntry → ℤ) : ℤ :=
  ∑ entry ∈ Finset.range writer.admitted,
    if (writer.entries entry).settled then 0 else weight (writer.entries entry)

/-- A refusal is of what was not written; anything else is of what was. -/
def Truthful (entry : ℕ) : MultiplexerWriteSettlement → Prop
  | .accepted => writer.Written entry
  | .refused _ _ => ¬ writer.Written entry
  | .unverifiable _ _ => writer.Written entry

end TransportWriter

def ordinaryBytesOf (entry : WriterEntry) : ℤ :=
  if entry.lane = .ordinary then (entry.bytes : ℤ) else 0

def ordinaryFramesOf (entry : WriterEntry) : ℤ := if entry.lane = .ordinary then 1 else 0

def controlBytesOf (entry : WriterEntry) : ℤ :=
  if entry.lane = .ordinary then 0 else (entry.bytes : ℤ)

def controlFramesOf (entry : WriterEntry) : ℤ := if entry.lane = .ordinary then 0 else 1

/-- The counters are the totals of the entries that are not settled. -/
structure Counted (writer : TransportWriter) : Prop where
  ordinaryBytes : writer.ordinaryBytes = writer.unsettledTotal ordinaryBytesOf
  ordinaryFrames : writer.ordinaryFrames = writer.unsettledTotal ordinaryFramesOf
  controlBytes : writer.controlBytes = writer.unsettledTotal controlBytesOf
  controlFrames : writer.controlFrames = writer.unsettledTotal controlFramesOf

/-- What an entry has been told: nothing before it is settled, and one truth after. -/
def Reported (writer : TransportWriter) (entry : ℕ) : Prop :=
  if (writer.entries entry).settled then
    ∃ result, (writer.entries entry).reports = [result] ∧ writer.Truthful entry result
  else (writer.entries entry).reports = []

structure Kept (writer : TransportWriter) : Prop where
  /-- Until the queues are cleared for good, what is not written waits. -/
  lanes : (∀ lane, writer.writtenIn lane ++ writer.scheduler.waiting lane =
      writer.admittedIn lane) ∨
    (writer.closed = true ∧ ∀ lane, writer.scheduler.waiting lane = [])
  prefixes : ∀ lane, writer.writtenIn lane <+: writer.admittedIn lane
  writes : ∀ write < writer.started, (writer.writes write).entry < writer.admitted
  waiting : ∀ entry, writer.Waiting entry → (writer.entries entry).settled = false
  inFlight : ∀ entry, entry ∈ writer.inFlight ↔
    entry < writer.admitted ∧ (writer.entries entry).settled = false ∧ writer.Written entry
  settleOnDrain : ∀ entry ∈ writer.settleOnDrain, writer.Written entry
  reported : ∀ entry < writer.admitted, Reported writer entry
  outstanding : ∀ entry < writer.admitted, (writer.entries entry).lane = .liveness →
    (writer.entries entry).settled = false → writer.livenessOutstanding = true
  liveness : ∀ first < writer.admitted, ∀ second < writer.admitted,
    (writer.entries first).lane = .liveness → (writer.entries first).settled = false →
    (writer.entries second).lane = .liveness → (writer.entries second).settled = false →
    first = second
  counted : Counted writer

section Members

@[simp] theorem mem_addMember {members : List ℕ} {member other : ℕ} :
    other ∈ addMember members member ↔ other ∈ members ∨ other = member := by
  unfold addMember
  split
  case isTrue present =>
    constructor
    · exact .inl
    · rintro (before | rfl)
      · exact before
      · exact present
  case isFalse => simp

@[simp] theorem mem_deleteMember {members : List ℕ} {member other : ℕ} :
    other ∈ deleteMember members member ↔ other ∈ members ∧ other ≠ member := by
  simp [deleteMember]

end Members

section Lanes

variable {writer : TransportWriter} {entry : ℕ} {lane : MultiplexerWriterLane}

theorem mem_written : entry ∈ writer.written ↔ writer.Written entry := by
  simp [TransportWriter.written, TransportWriter.Written]

theorem mem_writtenIn : entry ∈ writer.writtenIn lane ↔
    writer.Written entry ∧ (writer.entries entry).lane = lane := by
  simp [TransportWriter.writtenIn, TransportWriter.inLane, mem_written]

theorem mem_admittedIn : entry ∈ writer.admittedIn lane ↔
    entry < writer.admitted ∧ (writer.entries entry).lane = lane := by
  simp [TransportWriter.admittedIn, TransportWriter.inLane]

theorem admittedIn_nodup (writer : TransportWriter) (lane : MultiplexerWriterLane) :
    (writer.admittedIn lane).Nodup :=
  List.nodup_range.filter _

theorem written_or_waiting
    (lanes : ∀ lane, writer.writtenIn lane ++ writer.scheduler.waiting lane =
      writer.admittedIn lane) (admitted : entry < writer.admitted) :
    writer.Written entry ∨ writer.Waiting entry := by
  have member : entry ∈ writer.admittedIn (writer.entries entry).lane :=
    mem_admittedIn.mpr ⟨admitted, rfl⟩
  rw [← lanes, List.mem_append] at member
  rcases member with written | waits
  · exact .inl (mem_writtenIn.mp written).1
  · exact .inr ⟨_, waits⟩

theorem of_waiting
    (lanes : ∀ lane, writer.writtenIn lane ++ writer.scheduler.waiting lane =
      writer.admittedIn lane) (waits : entry ∈ writer.scheduler.waiting lane) :
    entry < writer.admitted ∧ (writer.entries entry).lane = lane ∧ ¬ writer.Written entry := by
  have member : entry ∈ writer.admittedIn lane := by
    rw [← lanes]
    exact List.mem_append_right _ waits
  obtain ⟨admitted, placed⟩ := mem_admittedIn.mp member
  refine ⟨admitted, placed, fun written => ?_⟩
  have distinct := admittedIn_nodup writer lane
  rw [← lanes] at distinct
  exact (List.disjoint_of_nodup_append distinct) (mem_writtenIn.mpr ⟨written, placed⟩) waits

namespace Kept

theorem lanes_of_waiting (kept : Kept writer) (waits : entry ∈ writer.scheduler.waiting lane) :
    ∀ lane, writer.writtenIn lane ++ writer.scheduler.waiting lane = writer.admittedIn lane := by
  rcases kept.lanes with equal | ⟨_, empty⟩
  · exact equal
  · rw [empty] at waits
    cases waits

theorem lanes_of_open (kept : Kept writer) (isOpen : writer.closed = false) :
    ∀ lane, writer.writtenIn lane ++ writer.scheduler.waiting lane = writer.admittedIn lane := by
  rcases kept.lanes with equal | ⟨closed, _⟩
  · exact equal
  · rw [isOpen] at closed
    cases closed

theorem write_unique (kept : Kept writer) {first second : ℕ} (early : first < writer.started)
    (late : second < writer.started)
    (same : (writer.writes first).entry = (writer.writes second).entry) : first = second := by
  have distinct : writer.written.Nodup := by
    rw [List.nodup_iff_count_le_one]
    intro entry
    have inLane : writer.written.count entry =
        (writer.writtenIn (writer.entries entry).lane).count entry := by
      unfold TransportWriter.writtenIn TransportWriter.inLane
      rw [List.count_filter (by simp)]
    rw [inLane]
    exact List.nodup_iff_count_le_one.mp
      ((admittedIn_nodup writer _).sublist (kept.prefixes _).sublist) entry
  exact List.inj_on_of_nodup_map distinct (List.mem_range.mpr early) (List.mem_range.mpr late) same

end Kept

end Lanes

section Steps

/-- What a change of flags, of the locals of writes, or of what waits for a drain leaves alone. -/
structure SameEntries (before after : TransportWriter) : Prop where
  entries : after.entries = before.entries
  admitted : after.admitted = before.admitted
  writes : ∀ write, (after.writes write).entry = (before.writes write).entry
  started : after.started = before.started
  waiting : ∀ lane, after.scheduler.waiting lane = before.scheduler.waiting lane
  inFlight : after.inFlight = before.inFlight
  settleOnDrain : ∀ entry ∈ after.settleOnDrain,
    entry ∈ before.settleOnDrain ∨ before.Written entry
  ordinaryBytes : after.ordinaryBytes = before.ordinaryBytes
  ordinaryFrames : after.ordinaryFrames = before.ordinaryFrames
  controlBytes : after.controlBytes = before.controlBytes
  controlFrames : after.controlFrames = before.controlFrames
  livenessOutstanding : after.livenessOutstanding = before.livenessOutstanding
  closed : before.closed = true → after.closed = true

namespace SameEntries

variable {before after : TransportWriter}

theorem refl (writer : TransportWriter) : SameEntries writer writer :=
  ⟨rfl, rfl, fun _ => rfl, rfl, fun _ => rfl, rfl, fun _ => .inl, rfl, rfl, rfl, rfl, rfl, id⟩

theorem written_iff (same : SameEntries before after) (entry : ℕ) :
    after.Written entry ↔ before.Written entry := by
  unfold TransportWriter.Written
  rw [same.started]
  simp only [same.writes]

theorem writtenIn (same : SameEntries before after) (lane : MultiplexerWriterLane) :
    after.writtenIn lane = before.writtenIn lane := by
  unfold TransportWriter.writtenIn TransportWriter.inLane TransportWriter.written
  rw [same.started, same.entries]
  simp only [same.writes]

theorem admittedIn (same : SameEntries before after) (lane : MultiplexerWriterLane) :
    after.admittedIn lane = before.admittedIn lane := by
  unfold TransportWriter.admittedIn TransportWriter.inLane
  rw [same.entries, same.admitted]

theorem unsettledTotal (same : SameEntries before after) (weight : WriterEntry → ℤ) :
    after.unsettledTotal weight = before.unsettledTotal weight := by
  unfold TransportWriter.unsettledTotal
  rw [same.entries, same.admitted]

theorem truthful (same : SameEntries before after) {entry : ℕ}
    {result : MultiplexerWriteSettlement} (truthful : before.Truthful entry result) :
    after.Truthful entry result := by
  cases result with
  | accepted => exact (same.written_iff entry).mpr truthful
  | refused reason error => exact fun written => truthful ((same.written_iff entry).mp written)
  | unverifiable reason error => exact (same.written_iff entry).mpr truthful

end SameEntries

theorem Reported.mono {before after : TransportWriter} {entry : ℕ}
    (reported : Reported before entry) (same : after.entries entry = before.entries entry)
    (truthful : (before.entries entry).settled = true → ∀ result,
      before.Truthful entry result → after.Truthful entry result) : Reported after entry := by
  unfold Reported at reported ⊢
  rw [same]
  by_cases settled : (before.entries entry).settled = true
  · rw [if_pos settled] at reported ⊢
    obtain ⟨result, reports, truth⟩ := reported
    exact ⟨result, reports, truthful settled result truth⟩
  · rw [if_neg settled] at reported ⊢
    exact reported

theorem Kept.congr {before after : TransportWriter} (kept : Kept before)
    (same : SameEntries before after) : Kept after where
  lanes := by
    rcases kept.lanes with equal | ⟨closed, empty⟩
    · refine .inl fun lane => ?_
      rw [same.writtenIn, same.admittedIn, same.waiting]
      exact equal lane
    · exact .inr ⟨same.closed closed, fun lane => (same.waiting lane).trans (empty lane)⟩
  prefixes := by
    intro lane
    rw [same.writtenIn, same.admittedIn]
    exact kept.prefixes lane
  writes := by
    intro write early
    rw [same.writes, same.admitted]
    rw [same.started] at early
    exact kept.writes write early
  waiting := by
    rintro entry ⟨lane, waits⟩
    rw [same.entries]
    rw [same.waiting] at waits
    exact kept.waiting entry ⟨lane, waits⟩
  inFlight := by
    intro entry
    rw [same.inFlight, same.admitted, same.entries, same.written_iff]
    exact kept.inFlight entry
  settleOnDrain := by
    intro entry member
    rw [same.written_iff]
    rcases same.settleOnDrain entry member with before | written
    · exact kept.settleOnDrain entry before
    · exact written
  reported := by
    intro entry admitted
    rw [same.admitted] at admitted
    exact (kept.reported entry admitted).mono (congrFun same.entries entry)
      fun _ _ truthful => same.truthful truthful
  outstanding := by
    rw [same.admitted, same.entries, same.livenessOutstanding]
    exact kept.outstanding
  liveness := by
    rw [same.admitted, same.entries]
    exact kept.liveness
  counted := by
    obtain ⟨ordinaryBytes, ordinaryFrames, controlBytes, controlFrames⟩ := kept.counted
    constructor
    · rw [same.ordinaryBytes, same.unsettledTotal, ordinaryBytes]
    · rw [same.ordinaryFrames, same.unsettledTotal, ordinaryFrames]
    · rw [same.controlBytes, same.unsettledTotal, controlBytes]
    · rw [same.controlFrames, same.unsettledTotal, controlFrames]

theorem kept_start (transport : MultiplexerTransport) :
    Kept (TransportWriter.start transport) where
  lanes := .inl fun _ => rfl
  prefixes := fun _ => List.prefix_rfl
  writes := by simp [TransportWriter.start]
  waiting := by
    rintro entry ⟨lane, waits⟩
    cases waits
  inFlight := by simp [TransportWriter.start]
  settleOnDrain := by simp [TransportWriter.start]
  reported := by simp [TransportWriter.start]
  outstanding := by simp [TransportWriter.start]
  liveness := by simp [TransportWriter.start]
  counted := ⟨rfl, rfl, rfl, rfl⟩

variable {writer : TransportWriter}

/-! ## Admitting an entry -/

section Admit

variable {bytes : ℕ} {lane : MultiplexerWriterLane}

theorem entries_retain (writer : TransportWriter) (bytes : ℕ) (lane : MultiplexerWriterLane)
    {entry : ℕ} (old : entry < writer.admitted) :
    (writer.retain bytes lane).entries entry = writer.entries entry :=
  Function.update_of_ne (Nat.ne_of_lt old) _ _

theorem entries_retain_new (writer : TransportWriter) (bytes : ℕ) (lane : MultiplexerWriterLane) :
    (writer.retain bytes lane).entries writer.admitted = ⟨bytes, lane, false, []⟩ :=
  Function.update_self _ _ _

theorem unsettledTotal_retain (writer : TransportWriter) (bytes : ℕ)
    (lane : MultiplexerWriterLane) (weight : WriterEntry → ℤ) :
    (writer.retain bytes lane).unsettledTotal weight =
      writer.unsettledTotal weight + weight ⟨bytes, lane, false, []⟩ := by
  unfold TransportWriter.unsettledTotal
  have count : (writer.retain bytes lane).admitted = writer.admitted + 1 := rfl
  rw [count, Finset.sum_range_succ, entries_retain_new]
  congr 1
  refine Finset.sum_congr rfl fun entry member => ?_
  rw [entries_retain writer bytes lane (Finset.mem_range.mp member)]

theorem admittedIn_retain (writer : TransportWriter) (bytes : ℕ)
    (lane other : MultiplexerWriterLane) :
    (writer.retain bytes lane).admittedIn other =
      writer.admittedIn other ++ if other = lane then [writer.admitted] else [] := by
  unfold TransportWriter.admittedIn TransportWriter.inLane
  have count : (writer.retain bytes lane).admitted = writer.admitted + 1 := rfl
  rw [count, List.range_succ, List.filter_append]
  congr 1
  · refine List.filter_congr fun entry member => ?_
    rw [entries_retain writer bytes lane (List.mem_range.mp member)]
  · rw [List.filter_singleton, entries_retain_new]
    by_cases same : other = lane
    · simp [same]
    · simp [same, Ne.symm same]

theorem Kept.admit (kept : Kept writer) (bytes : ℕ) (isOpen : writer.closed = false)
    (allowed : lane = .liveness → writer.livenessOutstanding = false) :
    Kept { writer.retain bytes lane with
      scheduler := writer.scheduler.enqueue writer.admitted lane } := by
  have equal := kept.lanes_of_open isOpen
  have writtenIn : ∀ other, (writer.retain bytes lane).writtenIn other = writer.writtenIn other := by
    intro other
    unfold TransportWriter.writtenIn TransportWriter.inLane
    refine List.filter_congr fun entry member => ?_
    obtain ⟨write, early, rfl⟩ := mem_written.mp member
    exact congrArg (fun held : WriterEntry => decide (held.lane = other))
      (entries_retain writer bytes lane (kept.writes write early))
  have fresh : ¬ writer.Written writer.admitted := by
    rintro ⟨write, early, same⟩
    have old := kept.writes write early
    omega
  have known : ∀ entry < (writer.retain bytes lane).admitted,
      entry < writer.admitted ∨ entry = writer.admitted := by
    intro entry admitted
    have count : (writer.retain bytes lane).admitted = writer.admitted + 1 := rfl
    omega
  constructor
  case lanes =>
    refine .inl fun other => ?_
    rw [WriterLaneScheduler.waiting_enqueue, ← List.append_assoc]
    refine Eq.trans ?_ (admittedIn_retain writer bytes lane other).symm
    congr 1
    exact (congrArg (· ++ _) (writtenIn other)).trans (equal other)
  case prefixes =>
    intro other
    have whole : (writer.retain bytes lane).writtenIn other <+:
        (writer.retain bytes lane).admittedIn other := by
      rw [writtenIn, admittedIn_retain]
      exact (kept.prefixes other).trans (List.prefix_append _ _)
    exact whole
  case writes =>
    intro write early
    exact Nat.lt_succ_of_lt (kept.writes write early)
  case waiting =>
    rintro entry ⟨other, waits⟩
    rw [WriterLaneScheduler.waiting_enqueue, List.mem_append] at waits
    rcases waits with before | new
    · have old := (of_waiting equal before).1
      refine (congrArg WriterEntry.settled (entries_retain writer bytes lane old)).trans ?_
      exact kept.waiting entry ⟨other, before⟩
    · split at new
      · rw [List.mem_singleton.mp new]
        exact congrArg WriterEntry.settled (entries_retain_new writer bytes lane)
      · cases new
  case inFlight =>
    intro entry
    refine (kept.inFlight entry).trans ?_
    constructor
    · rintro ⟨old, unsettled, written⟩
      refine ⟨Nat.lt_succ_of_lt old, ?_, written⟩
      exact (congrArg WriterEntry.settled (entries_retain writer bytes lane old)).trans unsettled
    · rintro ⟨_, unsettled, written⟩
      obtain ⟨write, early, rfl⟩ := written
      have old := kept.writes write early
      refine ⟨old, ?_, write, early, rfl⟩
      exact (congrArg WriterEntry.settled (entries_retain writer bytes lane old)).symm.trans
        unsettled
  case settleOnDrain => exact kept.settleOnDrain
  case reported =>
    intro entry admitted
    rcases known entry admitted with old | rfl
    · exact (kept.reported entry old).mono (entries_retain writer bytes lane old)
        fun _ _ truthful => truthful
    · unfold Reported
      dsimp only
      rw [entries_retain_new]
      rfl
  case outstanding =>
    intro entry admitted placed unsettled
    dsimp only at admitted placed unsettled ⊢
    unfold TransportWriter.retain
    dsimp only
    rcases known entry admitted with old | rfl
    · rw [entries_retain writer bytes lane old] at placed unsettled
      rw [kept.outstanding entry old placed unsettled, Bool.true_or]
    · rw [entries_retain_new] at placed
      dsimp only at placed
      rw [decide_eq_true placed, Bool.or_true]
  case liveness =>
    intro first one second two placed unsettled placed' unsettled'
    dsimp only at one two placed unsettled placed' unsettled'
    have clash : ∀ entry, entry < writer.admitted →
        ((writer.retain bytes lane).entries entry).lane = .liveness →
        ((writer.retain bytes lane).entries entry).settled = false → lane ≠ .liveness := by
      intro entry old placed unsettled same
      rw [entries_retain writer bytes lane old] at placed unsettled
      have outstanding := kept.outstanding entry old placed unsettled
      rw [allowed same] at outstanding
      cases outstanding
    rcases known first one with old | rfl
    · rcases known second two with old' | rfl
      · rw [entries_retain writer bytes lane old] at placed unsettled
        rw [entries_retain writer bytes lane old'] at placed' unsettled'
        exact kept.liveness first old second old' placed unsettled placed' unsettled'
      · rw [entries_retain_new] at placed'
        exact absurd placed' (clash first old placed unsettled)
    · rcases known second two with old' | rfl
      · rw [entries_retain_new] at placed
        exact absurd placed (clash second old' placed' unsettled')
      · rfl
  case counted =>
    obtain ⟨ordinaryBytes, ordinaryFrames, controlBytes, controlFrames⟩ := kept.counted
    constructor
    · refine Eq.trans ?_ (unsettledTotal_retain writer bytes lane ordinaryBytesOf).symm
      rw [← ordinaryBytes]
      rfl
    · refine Eq.trans ?_ (unsettledTotal_retain writer bytes lane ordinaryFramesOf).symm
      rw [← ordinaryFrames]
      rfl
    · refine Eq.trans ?_ (unsettledTotal_retain writer bytes lane controlBytesOf).symm
      rw [← controlBytes]
      rfl
    · refine Eq.trans ?_ (unsettledTotal_retain writer bytes lane controlFramesOf).symm
      rw [← controlFrames]
      rfl

end Admit

/-! ## Writing an entry -/

section Write

variable {entry : ℕ} {lane : MultiplexerWriterLane}

theorem writes_startWrite (writer : TransportWriter) (entry : ℕ) {write : ℕ}
    (early : write < writer.started) :
    (writer.startWrite entry).1.writes write = writer.writes write :=
  Function.update_of_ne (Nat.ne_of_lt early) _ _

theorem writes_startWrite_new (writer : TransportWriter) (entry : ℕ) :
    (writer.startWrite entry).1.writes writer.started = ⟨entry, none, false⟩ :=
  Function.update_self _ _ _

theorem written_startWrite (writer : TransportWriter) (entry : ℕ) :
    (writer.startWrite entry).1.written = writer.written ++ [entry] := by
  have count : (writer.startWrite entry).1.started = writer.started + 1 := rfl
  unfold TransportWriter.written
  rw [count, List.range_succ, List.map_append]
  congr 1
  · refine List.map_congr_left fun write member => ?_
    rw [writes_startWrite writer entry (List.mem_range.mp member)]
  · rw [List.map_singleton, writes_startWrite_new]

theorem written_startWrite_iff (writer : TransportWriter) (entry other : ℕ) :
    (writer.startWrite entry).1.Written other ↔ writer.Written other ∨ other = entry := by
  rw [← mem_written, written_startWrite, List.mem_append, List.mem_singleton, mem_written]

theorem writtenIn_startWrite (placed : (writer.entries entry).lane = lane)
    (other : MultiplexerWriterLane) :
    (writer.startWrite entry).1.writtenIn other =
      writer.writtenIn other ++ if other = lane then [entry] else [] := by
  have same : (writer.startWrite entry).1.inLane other = writer.inLane other := rfl
  unfold TransportWriter.writtenIn
  rw [same, written_startWrite]
  unfold TransportWriter.inLane
  rw [List.filter_append, List.filter_singleton, placed]
  congr 1
  by_cases here : other = lane
  · simp [here]
  · simp [here, Ne.symm here]

/-- The first entry of a lane is taken and written. -/
theorem Kept.startWrite (kept : Kept writer) (isOpen : writer.closed = false)
    {after : WriterLaneScheduler ℕ}
    (first : writer.scheduler.waiting lane = entry :: after.waiting lane)
    (others : ∀ other, other ≠ lane → after.waiting other = writer.scheduler.waiting other) :
    Kept (TransportWriter.startWrite { writer with scheduler := after } entry).1 := by
  have equal := kept.lanes_of_open isOpen
  have waits : entry ∈ writer.scheduler.waiting lane := by
    rw [first]
    exact List.mem_cons_self
  obtain ⟨admitted, placed, unwritten⟩ := of_waiting equal waits
  have unsettled := kept.waiting entry ⟨lane, waits⟩
  have lanes : ∀ other, (writer.startWrite entry).1.writtenIn other ++ after.waiting other =
      writer.admittedIn other := by
    intro other
    rw [writtenIn_startWrite placed, ← equal other]
    split
    case isTrue same => rw [same, first, List.append_assoc, List.singleton_append]
    case isFalse different => rw [List.append_nil, others other different]
  constructor
  case lanes => exact .inl lanes
  case prefixes =>
    intro other
    have whole : (writer.startWrite entry).1.writtenIn other <+: writer.admittedIn other := by
      rw [← lanes other]
      exact List.prefix_append _ _
    exact whole
  case writes =>
    intro write early
    rcases Nat.lt_succ_iff_lt_or_eq.mp early with old | rfl
    · exact (congrArg (fun held : TransportWrite => held.entry < writer.admitted)
        (writes_startWrite writer entry old)).mpr (kept.writes write old)
    · exact (congrArg (fun held : TransportWrite => held.entry < writer.admitted)
        (writes_startWrite_new writer entry)).mpr admitted
  case waiting =>
    rintro other ⟨lane', waits'⟩
    refine kept.waiting other ⟨lane', ?_⟩
    by_cases here : lane' = lane
    · subst here
      rw [first]
      exact List.mem_cons_of_mem _ waits'
    · rw [← others lane' here]
      exact waits'
  case inFlight =>
    intro other
    refine mem_addMember.trans ?_
    rw [kept.inFlight other]
    have grown := written_startWrite_iff writer entry other
    constructor
    · rintro (⟨old, held, written⟩ | rfl)
      · exact ⟨old, held, grown.mpr (.inl written)⟩
      · exact ⟨admitted, unsettled, grown.mpr (.inr rfl)⟩
    · rintro ⟨old, held, written⟩
      rcases grown.mp written with before | here
      · exact .inl ⟨old, held, before⟩
      · exact .inr here
  case settleOnDrain =>
    intro other member
    exact (written_startWrite_iff writer entry other).mpr (.inl (kept.settleOnDrain other member))
  case reported =>
    intro other old
    have grown := written_startWrite_iff writer entry other
    refine (kept.reported other old).mono rfl fun settled result truthful => ?_
    have different : other ≠ entry := by
      rintro rfl
      rw [unsettled] at settled
      cases settled
    cases result with
    | accepted => exact grown.mpr (.inl truthful)
    | refused reason error =>
      intro written
      rcases grown.mp written with early | here
      · exact truthful early
      · exact different here
    | unverifiable reason error => exact grown.mpr (.inl truthful)
  case outstanding => exact kept.outstanding
  case liveness => exact kept.liveness
  case counted =>
    obtain ⟨ordinaryBytes, ordinaryFrames, controlBytes, controlFrames⟩ := kept.counted
    exact ⟨ordinaryBytes, ordinaryFrames, controlBytes, controlFrames⟩

end Write

/-! ## Settling an entry -/

section Release

variable {entry : ℕ} {result : MultiplexerWriteSettlement}

/-- A result that a transport or the writer itself gives. -/
def MultiplexerWriteSettlement.Plain : MultiplexerWriteSettlement → Prop
  | .unverifiable _ _ => False
  | _ => True

/-- The writer after an entry was settled and reported. -/
def TransportWriter.settle (writer : TransportWriter) (entry : ℕ)
    (result : MultiplexerWriteSettlement) : TransportWriter :=
  { writer.forget entry with
    entries := Function.update writer.entries entry
      { writer.entries entry with settled := true, reports := [writer.verdict entry result] } }

theorem release_settled (settled : (writer.entries entry).settled = true)
    (result : MultiplexerWriteSettlement) : writer.release entry result = (writer, []) :=
  if_pos settled

theorem release_unsettled (kept : Kept writer) (admitted : entry < writer.admitted)
    (unsettled : (writer.entries entry).settled = false) (result : MultiplexerWriteSettlement) :
    writer.release entry result = (writer.settle entry result,
      [.outside (.settled entry (writer.verdict entry result))]) := by
  have silent := kept.reported entry admitted
  rw [Reported, if_neg (by simp [unsettled])] at silent
  unfold TransportWriter.release TransportWriter.onSettled
  rw [if_neg (by simp [unsettled]), if_pos]
  · unfold TransportWriter.settle TransportWriter.forget
    dsimp only
    rw [Function.update_self, Function.update_idem]
  · unfold TransportWriter.forget
    dsimp only
    rw [Function.update_self]
    exact silent

theorem entries_settle_of_ne {other : ℕ} (different : other ≠ entry)
    (result : MultiplexerWriteSettlement) :
    (writer.settle entry result).entries other = writer.entries other :=
  Function.update_of_ne different _ _

theorem entries_settle (writer : TransportWriter) (entry : ℕ)
    (result : MultiplexerWriteSettlement) :
    (writer.settle entry result).entries entry =
      { writer.entries entry with
        settled := true, reports := [writer.verdict entry result] } :=
  Function.update_self _ _ _

theorem lane_settle (other : ℕ) :
    ((writer.settle entry result).entries other).lane = (writer.entries other).lane := by
  by_cases here : other = entry
  · rw [here, entries_settle]
  · rw [entries_settle_of_ne here]

theorem unsettledTotal_settle (admitted : entry < writer.admitted)
    (unsettled : (writer.entries entry).settled = false) (result : MultiplexerWriteSettlement)
    (weight : WriterEntry → ℤ) :
    (writer.settle entry result).unsettledTotal weight =
      writer.unsettledTotal weight - weight (writer.entries entry) := by
  have member : entry ∈ Finset.range writer.admitted := Finset.mem_range.mpr admitted
  have count : (writer.settle entry result).admitted = writer.admitted := rfl
  unfold TransportWriter.unsettledTotal
  rw [count, ← Finset.add_sum_erase _ _ member, ← Finset.add_sum_erase _ _ member, entries_settle,
    if_pos rfl, if_neg (by simp [unsettled]), Int.zero_add, Int.add_comm, Int.add_sub_cancel]
  refine Finset.sum_congr rfl fun other inside => ?_
  rw [entries_settle_of_ne (Finset.ne_of_mem_erase inside)]

theorem truthful_verdict (kept : Kept writer) (admitted : entry < writer.admitted)
    (unsettled : (writer.entries entry).settled = false) (plain : result.Plain)
    (accepted : result = .accepted → writer.Written entry) :
    writer.Truthful entry (writer.verdict entry result) := by
  cases result with
  | accepted => exact accepted rfl
  | refused reason error =>
    unfold TransportWriter.verdict
    dsimp only
    split
    case isTrue member => exact ((kept.inFlight entry).mp member).2.2
    case isFalse absent =>
      intro written
      exact absent ((kept.inFlight entry).mpr ⟨admitted, unsettled, written⟩)
  | unverifiable reason error => cases plain

theorem Kept.settle (kept : Kept writer) (admitted : entry < writer.admitted)
    (unsettled : (writer.entries entry).settled = false) (plain : result.Plain)
    (accepted : result = .accepted → writer.Written entry)
    (idle : ¬ writer.Waiting entry) : Kept (writer.settle entry result) := by
  have lanes : ∀ members other, (writer.settle entry result).inLane other members =
      writer.inLane other members := by
    intro members other
    unfold TransportWriter.inLane
    refine List.filter_congr fun held _ => ?_
    rw [lane_settle]
  have kind : ∀ other, ((writer.settle entry result).entries other).settled = false →
      other ≠ entry ∧ (writer.entries other).settled = false := by
    intro other held
    by_cases here : other = entry
    · rw [here, entries_settle] at held
      cases held
    · rw [entries_settle_of_ne here] at held
      exact ⟨here, held⟩
  have writtenIn : ∀ other, (writer.settle entry result).writtenIn other =
      writer.writtenIn other := fun other => lanes writer.written other
  have admittedIn : ∀ other, (writer.settle entry result).admittedIn other =
      writer.admittedIn other := fun other => lanes (List.range writer.admitted) other
  constructor
  case lanes =>
    rcases kept.lanes with equal | closed
    · refine .inl fun other => ?_
      rw [writtenIn, admittedIn]
      exact equal other
    · exact .inr closed
  case prefixes =>
    intro other
    rw [writtenIn, admittedIn]
    exact kept.prefixes other
  case writes => exact kept.writes
  case waiting =>
    intro other waits
    have different : other ≠ entry := by
      rintro rfl
      exact idle waits
    rw [entries_settle_of_ne different]
    exact kept.waiting other waits
  case inFlight =>
    intro other
    refine mem_deleteMember.trans ?_
    rw [kept.inFlight other]
    constructor
    · rintro ⟨⟨old, held, written⟩, different⟩
      refine ⟨old, ?_, written⟩
      rw [entries_settle_of_ne different]
      exact held
    · rintro ⟨old, held, written⟩
      exact ⟨⟨old, (kind other held).2, written⟩, (kind other held).1⟩
  case settleOnDrain =>
    intro other member
    exact kept.settleOnDrain other (mem_deleteMember.mp member).1
  case reported =>
    intro other old
    by_cases here : other = entry
    · subst here
      rw [Reported, entries_settle, if_pos rfl]
      exact ⟨_, rfl, truthful_verdict kept admitted unsettled plain accepted⟩
    · exact (kept.reported other old).mono (entries_settle_of_ne here result)
        fun _ _ truthful => truthful
  case outstanding =>
    intro other old placed held
    rw [lane_settle] at placed
    obtain ⟨different, held⟩ := kind other held
    have outstanding := kept.outstanding other old placed held
    have elsewhere : (writer.entries entry).lane ≠ .liveness := fun same =>
      different (kept.liveness other old entry admitted placed held same unsettled)
    unfold TransportWriter.settle TransportWriter.forget
    dsimp only
    rw [outstanding, decide_eq_false elsewhere]
    rfl
  case liveness =>
    intro first one second two placed held placed' held'
    rw [lane_settle] at placed placed'
    exact kept.liveness first one second two placed (kind first held).2 placed' (kind second held').2
  case counted =>
    obtain ⟨ordinaryBytes, ordinaryFrames, controlBytes, controlFrames⟩ := kept.counted
    constructor
    · rw [unsettledTotal_settle admitted unsettled, ← ordinaryBytes]
      rfl
    · rw [unsettledTotal_settle admitted unsettled, ← ordinaryFrames]
      rfl
    · rw [unsettledTotal_settle admitted unsettled, ← controlBytes]
      rfl
    · rw [unsettledTotal_settle admitted unsettled, ← controlFrames]
      rfl

end Release

theorem Kept.clear (kept : Kept writer) (closed : writer.closed = true) (listening : Bool) :
    Kept { writer with
      removeDrainListener := listening, scheduler := writer.scheduler.clear.2 } where
  lanes := .inr ⟨closed, fun _ => rfl⟩
  prefixes := kept.prefixes
  writes := kept.writes
  waiting := by
    rintro entry ⟨lane, waits⟩
    cases waits
  inFlight := kept.inFlight
  settleOnDrain := kept.settleOnDrain
  reported := kept.reported
  outstanding := kept.outstanding
  liveness := kept.liveness
  counted :=
    ⟨kept.counted.ordinaryBytes, kept.counted.ordinaryFrames, kept.counted.controlBytes,
      kept.counted.controlFrames⟩

end Steps

end OxeeUI.Ssh
