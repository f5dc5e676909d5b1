import OxeeUI.Relay.SeatMirror

/-!
# Every run of cells and director

The index agrees with the maps in every run, and the maps with the logs in every run in which
hosts have keys of their own.
-/

namespace OxeeUI.Relay

open OxeeUI.Library ShadowSeatDirectory

/-! ## The index -/

namespace ShadowSeatDirectory.Indexed

variable {directory : ShadowSeatDirectory} (indexed : directory.Indexed)
include indexed

theorem answered (cellId : String) (response : SeatFeedResponse) (now polledAt : Int) (seq : Nat) :
    (directory.updateCursor cellId (ShadowSeatDirectory.answered response now polledAt seq)).Indexed := by
  refine (keepsTables_updateCursor indexed cellId ?_).indexed
  exact fun _ => rfl

theorem gap (cellId : String) :
    ((directory.updateCursor cellId resync).fail cellId "cursor_gap").Indexed := by
  have seats : ∀ cursor : CellCursor, (resync cursor).seats = cursor.seats := fun _ => rfl
  have resynced := keepsTables_updateCursor indexed cellId seats
  exact (forgets_fail resynced.indexed cellId "cursor_gap").indexed

theorem applyDelta (cellId : String) {cursor : CellCursor}
    (listed : directory.cells.has cellId = true) (response : SeatFeedResponse)
    (now polledAt : Int) : (directory.applyDelta cellId cursor response now polledAt).Indexed := by
  unfold ShadowSeatDirectory.applyDelta
  simp only
  by_cases known : cursor.incarnation = some response.incarnation
  · rw [if_pos known]
    obtain ⟨table, retables, -⟩ := applyChanges_spec indexed listed cursor.incarnation now
      (response.changes.getD []) (cursor.seq.getD 0)
    split
    · exact retables.indexed.gap cellId
    · split
      · exact retables.indexed.gap cellId
      · exact retables.indexed.answered cellId response now polledAt _
  · rw [if_neg known]
    exact indexed.gap cellId

theorem apply (cellId : String) (response : SeatFeedResponse) (now polledAt : Int) :
    (directory.apply cellId response now polledAt).Indexed := by
  unfold ShadowSeatDirectory.apply
  split
  case h_1 => exact indexed
  case h_2 cursor found =>
    have listed : directory.cells.has cellId = true := by
      rw [JsMap.has, found]
      rfl
    split
    case isTrue => exact (forgets_fail indexed cellId _).indexed
    case isFalse =>
      split
      case h_1 full _ =>
        have replaced := retables_replaceSeats indexed listed full now response.incarnation
        have remembered := retables_rememberLeavers replaced.indexed cellId response.incarnation
          (response.recentlyLeft.getD [])
        exact remembered.indexed.answered cellId response now polledAt response.seq
      case h_2 => exact indexed.applyDelta cellId listed response now polledAt

end ShadowSeatDirectory.Indexed

theorem indexed_new : ShadowSeatDirectory.new.Indexed where
  same := fun _ _ => rfl
  bound := by
    intro cellId key object found
    cases found
  distinct := by
    intro cellId key cellId' key' object found
    cases found

namespace SeatFeedNetwork

variable {network : SeatFeedNetwork} {capacity : Nat}

theorem indexed_step (indexed : network.directory.Indexed) (event : SeatFeedEvent) :
    (network.step capacity event).directory.Indexed := by
  cases event with
  | restart cellId incarnation =>
    simp only [step, restart]
    split <;> exact indexed
  | append cellId change =>
    simp only [step, append]
    split <;> exact indexed
  | setCells cellIds required => exact (forgets_setCells indexed cellIds required).indexed
  | poll cellId => exact indexed
  | answer poll now reports =>
    simp only [step, answer]
    split
    · exact indexed
    · split <;> exact indexed
  | deliver reply cellId now polledAt =>
    simp only [step, deliver]
    split
    · exact indexed
    · exact (forgets_fail indexed cellId _).indexed
    · exact indexed.apply cellId _ now polledAt
  | markNoFeed cellId now runtimeIncarnation =>
    exact (forgets_markNoFeed indexed cellId now runtimeIncarnation).indexed
  | fail cellId reason => exact (forgets_fail indexed cellId reason).indexed

theorem indexed_after (capacity : Nat) (events : List SeatFeedEvent) :
    (after capacity events).directory.Indexed := by
  have run : ∀ (network : SeatFeedNetwork), network.directory.Indexed →
      (events.foldl (step capacity) network).directory.Indexed := by
    induction events with
    | nil => exact fun _ indexed => indexed
    | cons event rest ih => exact fun network indexed => ih _ (indexed_step indexed event)
  exact run new indexed_new

/-! ## The mirror -/

/-- What every event keeps while hosts have keys of their own. -/
structure Mirrored (network : SeatFeedNetwork) : Prop where
  indexed : network.directory.Indexed
  exact : ∀ cellId, Exact (network.processes cellId) network.directory cellId
  distinct : ∀ cellId, ((network.processes cellId).map CellProcess.incarnation).Nodup
  keyed : ∀ cellId, ∀ process ∈ network.processes cellId, process.Keyed
  replies : ∀ reply ∈ network.replies, ∃ response, reply = some response ∧
    ∃ process ∈ network.processes response.cellId,
      process.incarnation = response.incarnation ∧ ReplySound process response

/-- Processes only log more, and more of them start. -/
def Grows (before later : List CellProcess) : Prop :=
  ∀ process ∈ before, ∃ next ∈ later, Continues process next

theorem exact_of_grows {before later : List CellProcess} (grows : Grows before later)
    {directory : ShadowSeatDirectory} {cellId : String} (exact_ : Exact before directory cellId) :
    Exact later directory cellId := by
  rcases exact_ with forgotten | ⟨process, member, seq, position, within, mirrors⟩
  · exact Or.inl forgotten
  · obtain ⟨next, member', continues⟩ := grows process member
    refine Or.inr ⟨next, member', seq, ?_, within.trans continues.appended.length_le, ?_⟩
    · rw [continues.incarnation]
      exact position
    · rw [continues.tableAt within]
      exact mirrors

theorem processes_set (network : SeatFeedNetwork) (cellId other : String)
    (processes : List CellProcess) :
    ({ network with cells := network.cells.set cellId processes } : SeatFeedNetwork).processes
      other = if other = cellId then processes else network.processes other := by
  rw [SeatFeedNetwork.processes]
  simp only
  rw [JsMap.get?_set]
  split <;> rfl

theorem Mirrored.grow (mirrored : Mirrored network) {cellId : String}
    {processes : List CellProcess} (grows : Grows (network.processes cellId) processes)
    (distinct : (processes.map CellProcess.incarnation).Nodup)
    (keyed : ∀ process ∈ processes, process.Keyed) :
    Mirrored { network with cells := network.cells.set cellId processes } where
  indexed := mirrored.indexed
  exact := by
    intro other
    rw [processes_set]
    split
    case isTrue same =>
      subst same
      exact exact_of_grows grows (mirrored.exact other)
    case isFalse => exact mirrored.exact other
  distinct := by
    intro other
    rw [processes_set]
    split
    case isTrue => exact distinct
    case isFalse => exact mirrored.distinct other
  keyed := by
    intro other
    rw [processes_set]
    split
    case isTrue => exact keyed
    case isFalse => exact mirrored.keyed other
  replies := by
    intro reply member
    obtain ⟨response, rfl, process, held, same, sound⟩ := mirrored.replies reply member
    refine ⟨response, rfl, ?_⟩
    rw [processes_set]
    split
    case isTrue here =>
      obtain ⟨next, member', continues⟩ := grows process (here ▸ held)
      exact ⟨next, member', continues.incarnation.trans same, sound.continues continues⟩
    case isFalse => exact ⟨process, held, same, sound⟩

theorem Mirrored.restart (mirrored : Mirrored network) (cellId incarnation : String) :
    Mirrored (network.restart cellId incarnation) := by
  unfold SeatFeedNetwork.restart
  simp only
  split
  case isTrue => exact mirrored
  case isFalse fresh =>
    refine mirrored.grow (fun process member => ⟨process, List.mem_append_left _ member, rfl,
      List.prefix_rfl⟩) ?_ ?_
    · rw [List.map_append, List.map_singleton]
      refine List.nodup_append.mpr ⟨mirrored.distinct cellId, List.nodup_singleton _, ?_⟩
      rintro first member second last rfl
      rw [List.mem_singleton.mp last] at member
      exact fresh member
    · intro process member
      rcases List.mem_append.mp member with old | new
      · exact mirrored.keyed cellId process old
      · obtain rfl := List.mem_singleton.mp new
        intro change member
        cases member

theorem Mirrored.append (mirrored : Mirrored network) (cellId : String) {change : CellSeatChange}
    (valid : change.host ∈ KeyedHosts) : Mirrored (network.append cellId change) := by
  unfold SeatFeedNetwork.append
  split
  case h_1 => exact mirrored
  case h_2 process last =>
    have split : network.processes cellId = (network.processes cellId).dropLast ++ [process] :=
      (List.dropLast_append_getLast? process last).symm
    have distinct := mirrored.distinct cellId
    have keyed := mirrored.keyed cellId
    refine mirrored.grow ?_ ?_ ?_
    · intro old member
      rw [split] at member
      rcases List.mem_append.mp member with earlier | here
      · exact ⟨old, List.mem_append_left _ earlier, rfl, List.prefix_rfl⟩
      · obtain rfl := List.mem_singleton.mp here
        exact ⟨_, List.mem_append_right _ (List.mem_singleton.mpr rfl), rfl,
          List.prefix_append _ _⟩
    · rw [split, List.map_append, List.map_singleton] at distinct
      rw [List.map_append, List.map_singleton]
      exact distinct
    · intro next member
      rcases List.mem_append.mp member with earlier | here
      · exact keyed next (split ▸ List.mem_append_left _ earlier)
      · obtain rfl := List.mem_singleton.mp here
        intro logged member'
        rcases List.mem_append.mp member' with old | new
        · exact keyed process (split ▸ List.mem_append_right _ (List.mem_singleton.mpr rfl)) logged
            old
        · exact List.mem_singleton.mp new ▸ valid

theorem Mirrored.forgets (mirrored : Mirrored network) {directory : ShadowSeatDirectory}
    (forgets : Forgets network.directory directory) :
    Mirrored { network with directory := directory } :=
  ⟨forgets.indexed, fun cellId => (mirrored.exact cellId).forgets forgets, mirrored.distinct,
    mirrored.keyed, mirrored.replies⟩

theorem Mirrored.answer (mirrored : Mirrored network) (poll : Nat) (now : Int)
    (reports : SeatFeedResponse) : Mirrored (network.answer capacity poll now reports) := by
  unfold SeatFeedNetwork.answer
  split
  case h_1 => exact mirrored
  case h_2 poll _ =>
    split
    case h_1 => exact mirrored
    case h_2 process last =>
      refine ⟨mirrored.indexed, mirrored.exact, mirrored.distinct, mirrored.keyed, ?_⟩
      intro reply member
      rcases List.mem_append.mp member with old | new
      · exact mirrored.replies reply old
      · obtain rfl := List.mem_singleton.mp new
        obtain ⟨response, page, cell, same, sound⟩ := (process.records capacity).read reports
          poll.cellId now (cursorFor process.incarnation poll.since)
        have member : process ∈ network.processes response.cellId := by
          rw [cell]
          exact List.mem_of_getLast? last
        exact ⟨response, page, process, member, same.symm, sound⟩

theorem Mirrored.deliver (mirrored : Mirrored network) (reply : Nat) (cellId : String)
    (now polledAt : Int) : Mirrored (network.deliver reply cellId now polledAt) := by
  unfold SeatFeedNetwork.deliver
  split
  case h_1 => exact mirrored
  case h_2 => exact mirrored.forgets (forgets_fail mirrored.indexed cellId _)
  case h_3 response found =>
    obtain ⟨response', same, sound⟩ := mirrored.replies _ (List.mem_of_getElem? found)
    obtain rfl := Option.some.inj same
    have answered := apply_spec mirrored.indexed (mirrored.exact cellId) (mirrored.distinct cellId)
      (mirrored.keyed cellId) (fun addressed => addressed ▸ sound) now polledAt
    refine ⟨answered.indexed, fun other => ?_, mirrored.distinct, mirrored.keyed, mirrored.replies⟩
    by_cases here : other = cellId
    · exact here ▸ answered.exact
    · exact (mirrored.exact other).of_same (answered.elsewhere.positions other here)
        (answered.elsewhere.tables other here)

/-- The host of an `append` has a key of its own. -/
def KeyedEvent : SeatFeedEvent → Prop
  | .append _ change => change.host ∈ KeyedHosts
  | _ => True

theorem Mirrored.step (mirrored : Mirrored network) {event : SeatFeedEvent}
    (keyed : KeyedEvent event) : Mirrored (network.step capacity event) := by
  cases event with
  | restart cellId incarnation => exact mirrored.restart cellId incarnation
  | append cellId change => exact mirrored.append cellId keyed
  | setCells cellIds required =>
    exact mirrored.forgets (forgets_setCells mirrored.indexed cellIds required)
  | poll cellId =>
    exact ⟨mirrored.indexed, mirrored.exact, mirrored.distinct, mirrored.keyed, mirrored.replies⟩
  | answer poll now reports => exact mirrored.answer poll now reports
  | deliver reply cellId now polledAt => exact mirrored.deliver reply cellId now polledAt
  | markNoFeed cellId now runtimeIncarnation =>
    exact mirrored.forgets (forgets_markNoFeed mirrored.indexed cellId now runtimeIncarnation)
  | fail cellId reason => exact mirrored.forgets (forgets_fail mirrored.indexed cellId reason)

theorem mirrored_new : Mirrored new where
  indexed := indexed_new
  exact := fun _ => Or.inl (Or.inl rfl)
  distinct := fun _ => List.nodup_nil
  keyed := by
    intro cellId process member
    cases member
  replies := by
    intro reply member
    cases member

theorem mirrored_after (capacity : Nat) {events : List SeatFeedEvent}
    (keyed : ∀ event ∈ events, KeyedEvent event) : Mirrored (after capacity events) :=
  foldl_preserves_of_mem mirrored_new
    (fun _ event member mirrored => mirrored.step (keyed event member))

theorem positionOf_of_since {directory : ShadowSeatDirectory} {cellId incarnation : String}
    {seq : Nat} (since : directory.since cellId = some (incarnation, seq)) :
    directory.positionOf cellId = some (some incarnation, some seq) := by
  unfold ShadowSeatDirectory.since at since
  rw [positionOf]
  cases found : directory.cells.get? cellId with
  | none =>
    rw [found] at since
    cases since
  | some cursor =>
    rw [found] at since
    obtain ⟨held, same, since⟩ := Option.bind_eq_some_iff.mp since
    obtain rfl := Option.some.inj same
    obtain ⟨known, incarnation', since⟩ := Option.bind_eq_some_iff.mp since
    obtain ⟨number, seq', since⟩ := Option.bind_eq_some_iff.mp since
    obtain ⟨rfl, rfl⟩ := Prod.mk.inj (Option.some.inj since)
    rw [Option.map_some, incarnation', seq']

/-- After every run, the index by host and the maps by cell hold the same seat objects; and where
hosts have keys of their own, a cell whose cursor continues from a number has exactly the seats
the log of that process held after as many changes. -/
theorem directory_mirrors_logs (capacity : Nat) (events : List SeatFeedEvent) :
    let network := after capacity events
    (∀ cellId key,
      network.directory.indexedObject key cellId = network.directory.objectAt cellId key) ∧
    ((∀ event ∈ events, KeyedEvent event) → ∀ cellId incarnation seq,
      network.directory.since cellId = some (incarnation, seq) →
        ∃ process ∈ network.processes cellId, process.incarnation = incarnation ∧
          seq ≤ process.appended.length ∧
          (∀ host ∈ KeyedHosts,
            (network.directory.seatAt cellId (keyOf host)).map ShadowSeat.view =
              ((process.logAt capacity seq).seats.get? host).map CellSeat.view) ∧
          (∀ host, (process.logAt capacity seq).seats.has host = true → host ∈ KeyedHosts) ∧
          ∀ key, (network.directory.seatAt cellId key).isSome = true →
            ∃ host ∈ KeyedHosts, keyOf host = key) := by
  intro network
  refine ⟨(indexed_after capacity events).same, fun keyed cellId incarnation seq since => ?_⟩
  have mirrored := mirrored_after capacity keyed
  have position := positionOf_of_since since
  rcases mirrored.exact cellId with forgotten | ⟨process, member, last, held, within, mirrors⟩
  · rw [Forgotten, position] at forgotten
    rcases forgotten with none | none <;> cases none
  rw [position] at held
  obtain ⟨incarnation', number⟩ := Prod.mk.inj (Option.some.inj held)
  obtain rfl := Option.some.inj incarnation'
  obtain rfl := Option.some.inj number
  have table := process.table_logAt capacity seq
  refine ⟨process, member, rfl, within, fun host valid => ?_, fun host has => ?_, fun key held => ?_⟩
  · have same := mirrors.same host valid
    rw [← table] at same
    exact same
  · refine mirrors.within host ?_
    obtain ⟨seat, found⟩ := Option.isSome_iff_exists.mp has
    rw [← table, CellSeatLog.table, found]
    exact Option.some_ne_none _
  · refine mirrors.known key ?_
    obtain ⟨seat, found⟩ := Option.isSome_iff_exists.mp held
    rw [tableOf, found]
    exact Option.some_ne_none _

def bareReports : SeatFeedResponse where
  cellId := ""
  incarnation := ""
  seq := 0
  draining := none
  counts := ⟨none, none, none, none, none⟩
  intake := none
  flagsApplied := none
  admitModeEffective := none
  admitModeRaw := none
  changes := none
  full := none
  recentlyLeft := none

def joinOf (userId relayHostId : String) (epoch : Int) : CellSeatChange where
  kind := .join
  userId := userId
  relayHostId := relayHostId
  epoch := epoch
  generation := 1
  state := none
  closeCode := none
  reservedBy := none
  time := 0

theorem directory_mirrors_logs_of_join :
    let events : List SeatFeedEvent :=
      [.setCells ["cell"] ["cell"], .restart "cell" "first", .append "cell" (joinOf "user" "host" 1),
        .poll "cell", .answer 0 0 bareReports, .deliver 0 "cell" 0 0]
    let network := after 4 events
    network.directory.since "cell" = some ("first", 1) ∧
      ∃ process ∈ network.processes "cell", process.incarnation = "first" ∧
        1 ≤ process.appended.length := by
  intro events network
  have since : network.directory.since "cell" = some ("first", 1) := by decide +kernel
  have keyed : ∀ event ∈ events, KeyedEvent event := by
    simp [events, KeyedEvent, KeyedHosts, CellSeatChange.host, joinOf]
  obtain ⟨process, member, same, within, -⟩ :=
    (directory_mirrors_logs 4 events).2 keyed "cell" "first" 1 since
  exact ⟨since, process, member, same, within⟩

/-- Two hosts whose ids hold the separator share a key, and one's seat is taken for the other's. -/
theorem separator_confuses_hosts :
    let network := after 4
      [.setCells ["cell"] ["cell"], .restart "cell" "first",
        .append "cell" (joinOf "user" "a\x00b" 1), .append "cell" (joinOf "user\x00a" "b" 2),
        .poll "cell", .answer 0 0 bareReports, .deliver 0 "cell" 0 0]
    network.directory.since "cell" = some ("first", 2) ∧
      ∀ process ∈ network.processes "cell",
        ((process.logAt 4 2).seats.get? ("user", "a\x00b")).map CellSeat.view ≠
          (network.directory.seatAt "cell" (keyOf ("user", "a\x00b"))).map ShadowSeat.view := by
  decide +kernel

end SeatFeedNetwork

end OxeeUI.Relay
