import Mathlib.Data.List.Induction
import Mathlib.Data.Set.Function
import OxeeUI.Library.Handles
import OxeeUI.Relay.SeatFeedNetwork

/-!
# Seats as a table

Both the log of a cell and the map of a director hold a table of seats, under keys of their own,
and a change does the same to both.
-/

namespace OxeeUI.Relay

open OxeeUI.Library

structure SeatView where
  epoch : Int
  generation : Int
  state : String
  joinedAt : Int
deriving DecidableEq

def CellSeat.view (seat : CellSeat) : SeatView :=
  ⟨seat.epoch, seat.generation, seat.state.text, seat.joinedAt⟩

def ShadowSeat.view (seat : ShadowSeat) : SeatView :=
  ⟨seat.epoch, seat.generation, seat.state, seat.joinedAt⟩

abbrev SeatTable (Key : Type*) := Key → Option SeatView

/-- What a change makes of its host's seat. -/
def changeSeat (change : SeatFeedChange) (held : Option SeatView) : Option SeatView :=
  if change.kind = "reserve" then held
  else if held.any fun seat => change.generation < seat.generation then held
  else if change.kind = "join" then
    some ⟨change.epoch, change.generation, change.state.getD "active", change.time⟩
  else if change.kind = "leave" then none
  else if change.kind = "drain-only" ∨ change.kind = "active" then
    held.map fun seat => { seat with state := change.kind }
  else held

namespace SeatTable

variable {Key Key' : Type*} [DecidableEq Key] [DecidableEq Key']

def apply (table : SeatTable Key) (key : Key) (change : SeatFeedChange) : SeatTable Key :=
  Function.update table key (changeSeat change (table key))

/-- The second table holds what the first one holds, under the image of its key. -/
structure Mirrors (valid : Set Key) (rename : Key → Key') (table : SeatTable Key)
    (image : SeatTable Key') : Prop where
  same : ∀ key ∈ valid, image (rename key) = table key
  known : ∀ key', image key' ≠ none → ∃ key ∈ valid, rename key = key'
  within : ∀ key, table key ≠ none → key ∈ valid

theorem Mirrors.apply {valid : Set Key} {rename : Key → Key'} {table : SeatTable Key}
    {image : SeatTable Key'} (mirrors : Mirrors valid rename table image)
    (apart : Set.InjOn rename valid) {key : Key} (member : key ∈ valid)
    (change : SeatFeedChange) :
    Mirrors valid rename (table.apply key change) (image.apply (rename key) change) := by
  unfold SeatTable.apply
  refine ⟨fun other valid' => ?_, fun key' held => ?_, fun other held => ?_⟩
  · rw [Function.update_apply, Function.update_apply, mirrors.same key member]
    by_cases same : other = key
    · rw [if_pos (congrArg rename same), if_pos same]
    · rw [if_neg (fun image => same (apart valid' member image)), if_neg same]
      exact mirrors.same other valid'
  · rw [Function.update_apply] at held
    split at held
    case isTrue same => exact ⟨key, member, same.symm⟩
    case isFalse => exact mirrors.known key' held
  · rw [Function.update_apply] at held
    split at held
    case isTrue same => exact same ▸ member
    case isFalse => exact mirrors.within other held

end SeatTable

/-! ## The table of a log -/

def CellSeatChange.host (change : CellSeatChange) : String × String :=
  (change.userId, change.relayHostId)

/-- A change as the feed tells it, whatever its number. -/
def CellSeatChange.toFeed (change : CellSeatChange) (seq : Nat) : SeatFeedChange :=
  NumberedSeatChange.toFeed { change with seq := seq }

def CellSeatLog.table (log : CellSeatLog) : SeatTable (String × String) :=
  fun host => (log.seats.get? host).map CellSeat.view

/-- One change of the cell, applied to a table by host. -/
def SeatTable.applyCellChange (table : SeatTable (String × String)) (change : CellSeatChange) :
    SeatTable (String × String) :=
  table.apply change.host (change.toFeed 0)

theorem CellSeatLog.table_set {log after : CellSeatLog} {key : String × String} {seat : CellSeat}
    (seats : after.seats = log.seats.set key seat) :
    after.table = Function.update log.table key (some seat.view) := by
  funext host
  rw [CellSeatLog.table, seats, JsMap.get?_set, Function.update_apply]
  split <;> rfl

theorem CellSeatLog.table_delete {log after : CellSeatLog} {key : String × String}
    (seats : after.seats = log.seats.delete key) :
    after.table = Function.update log.table key none := by
  funext host
  rw [CellSeatLog.table, seats, JsMap.get?_delete, Function.update_apply]
  split <;> rfl

theorem changeSeat_of_late {change : SeatFeedChange} {held : Option SeatView}
    (late : (held.any fun seat => change.generation < seat.generation) = true) :
    changeSeat change held = held := by
  simp only [changeSeat, late, if_true, ite_self]

theorem CellSeatLog.table_applyToSeats (log : CellSeatLog) (change : CellSeatChange) :
    (log.applyToSeats change).table = log.table.applyCellChange change := by
  have kept : ∀ seat, seat = log.table change.host →
      log.table = Function.update log.table change.host seat := by
    rintro seat rfl
    rw [Function.update_eq_self]
  have late : ((log.table change.host).any fun seat => change.generation < seat.generation) =
      (log.seats.get? change.host).any fun seat => change.generation < seat.generation := by
    rw [CellSeatLog.table, Option.any_map]
    rfl
  unfold SeatTable.applyCellChange SeatTable.apply CellSeatLog.applyToSeats
  split
  case isTrue reserve =>
    refine kept _ ?_
    simp [changeSeat, CellSeatChange.toFeed, NumberedSeatChange.toFeed, reserve,
      CellSeatChangeKind.text]
  case isFalse notReserve =>
    simp only
    rw [show (change.userId, change.relayHostId) = change.host from rfl]
    split
    case isTrue outdated => exact kept _ (changeSeat_of_late (late.trans outdated))
    case isFalse current =>
      rw [← late] at current
      have view : log.table change.host = (log.seats.get? change.host).map CellSeat.view := rfl
      have feed : changeSeat (change.toFeed 0) (log.table change.host) =
          if change.kind = .join then
            some ⟨change.epoch, change.generation,
              (change.state.map CellSeatState.text).getD "active", change.time⟩
          else if change.kind = .leave then none
          else (log.table change.host).map fun seat => { seat with state := change.kind.text } := by
        unfold changeSeat CellSeatChange.toFeed NumberedSeatChange.toFeed
        simp only
        rw [if_neg current]
        cases kind : change.kind <;> simp_all [CellSeatChangeKind.text]
      rw [feed]
      cases kind : change.kind with
      | reserve => exact absurd kind notReserve
      | join =>
        rw [CellSeatLog.table_set rfl, if_pos rfl, CellSeat.view]
        cases change.state <;> rfl
      | leave =>
        cases held : log.seats.get? change.host with
        | none => exact kept _ (by rw [view, held]; rfl)
        | some seat => exact CellSeatLog.table_delete rfl
      | active =>
        cases held : log.seats.get? change.host with
        | none => exact kept _ (by rw [view, held]; rfl)
        | some seat =>
          rw [CellSeatLog.table_set rfl, view, held]
          rfl
      | drainOnly =>
        cases held : log.seats.get? change.host with
        | none => exact kept _ (by rw [view, held]; rfl)
        | some seat =>
          rw [CellSeatLog.table_set rfl, view, held]
          rfl

/-! ## Pages -/

theorem CellSeatLog.append_table (log : CellSeatLog) (change : CellSeatChange) :
    (log.append change).table = log.table.applyCellChange change :=
  CellSeatLog.table_applyToSeats _ change

theorem CellSeatLog.applyToSeats_frame (log : CellSeatLog) (change : CellSeatChange) :
    (log.applyToSeats change).capacity = log.capacity ∧
      (log.applyToSeats change).ring = log.ring ∧
      (log.applyToSeats change).headSeq = log.headSeq := by
  unfold CellSeatLog.applyToSeats
  split
  · exact ⟨rfl, rfl, rfl⟩
  simp only
  split
  · exact ⟨rfl, rfl, rfl⟩
  split <;> exact ⟨rfl, rfl, rfl⟩

def CellSeatLog.HostsAgree (log : CellSeatLog) : Prop :=
  ∀ host seat, log.seats.get? host = some seat → (seat.userId, seat.relayHostId) = host

theorem CellSeatLog.HostsAgree.of_set {log after : CellSeatLog} (agree : log.HostsAgree)
    {key : String × String} {seat : CellSeat} (seats : after.seats = log.seats.set key seat)
    (own : (seat.userId, seat.relayHostId) = key) : after.HostsAgree := by
  intro host held found
  rw [seats, JsMap.get?_set] at found
  split at found
  case isTrue same =>
    obtain rfl := Option.some.inj found
    exact own.trans same.symm
  case isFalse => exact agree host held found

theorem CellSeatLog.HostsAgree.of_delete {log after : CellSeatLog} (agree : log.HostsAgree)
    {key : String × String} (seats : after.seats = log.seats.delete key) : after.HostsAgree := by
  intro host held found
  rw [seats, JsMap.get?_delete] at found
  split at found
  · cases found
  · exact agree host held found

theorem CellSeatLog.HostsAgree.append {log : CellSeatLog} (agree : log.HostsAgree)
    (change : CellSeatChange) : (log.append change).HostsAgree := by
  have seats : ∀ (log : CellSeatLog), log.HostsAgree → (log.applyToSeats change).HostsAgree := by
    intro log agree
    unfold CellSeatLog.applyToSeats
    split
    · exact agree
    simp only
    split
    · exact agree
    split
    case h_1 => exact agree.of_set rfl rfl
    case h_2 => exact agree.of_delete rfl
    case h_3 held =>
      have own := agree _ _ held
      exact agree.of_set rfl own
    case h_4 held =>
      have own := agree _ _ held
      exact agree.of_set rfl own
    case h_5 => exact agree
  exact seats _ agree

theorem mod_ne_mod {first second capacity : Nat} (before : first < second)
    (near : second < first + capacity) : first % capacity ≠ second % capacity := by
  intro same
  have multiple := Nat.sub_mod_eq_zero_of_mod_eq same.symm
  rw [Nat.mod_eq_of_lt (by omega)] at multiple
  omega

/-- The ring holds the newest changes at their places, and the log counts them all. -/
structure CellSeatLog.Records (log : CellSeatLog) (appended : List CellSeatChange) : Prop where
  head : log.headSeq = appended.length
  size : log.ring.length = log.capacity
  ring : ∀ place change, appended[place]? = some change → log.headSeq < place + 1 + log.capacity →
    log.changeAt (place + 1) = some { change with seq := place + 1 }
  table : log.table = stateAt SeatTable.applyCellChange (fun _ => none) appended appended.length
  hosts : log.HostsAgree

theorem CellSeatLog.records_new (capacity : Nat) : (CellSeatLog.new capacity).Records [] where
  head := rfl
  size := List.length_replicate
  ring := by simp
  table := rfl
  hosts := by
    intro host seat found
    cases found

theorem CellSeatLog.Records.append {log : CellSeatLog} {appended : List CellSeatChange}
    (records : log.Records appended) (change : CellSeatChange) :
    (log.append change).Records (appended ++ [change]) := by
  obtain ⟨capacity, ring, head⟩ := CellSeatLog.applyToSeats_frame
    { log with
      headSeq := log.headSeq + 1
      ring := log.ring.set ((log.headSeq + 1) % log.capacity)
        (some { change with seq := log.headSeq + 1 }) } change
  have number : (log.append change).headSeq = log.headSeq + 1 := head
  have same : (log.append change).capacity = log.capacity := capacity
  refine ⟨?_, ?_, ?_, ?_, records.hosts.append change⟩
  · rw [number, records.head, List.length_append, List.length_singleton]
  · have length : (log.append change).ring.length = log.ring.length := by
      rw [show (log.append change).ring = _ from ring, List.length_set]
    rw [length, same, records.size]
  · intro place stored found within
    rw [number, same] at within
    rw [CellSeatLog.changeAt, same, show (log.append change).ring = _ from ring]
    simp only
    rcases getElem?_append_singleton_eq_some.mp found with old | ⟨rfl, rfl⟩
    · have bound := (List.getElem?_eq_some_iff.mp old).1
      rw [← records.head] at bound
      have apart : (log.headSeq + 1) % log.capacity ≠ (place + 1) % log.capacity :=
        (mod_ne_mod (by omega) (by omega)).symm
      rw [List.getElem?_set_ne apart]
      exact records.ring place stored old (by omega)
    · rw [records.head] at within ⊢
      have room : (appended.length + 1) % log.capacity < log.ring.length := by
        rw [records.size]
        exact Nat.mod_lt _ (by omega)
      rw [List.getElem?_set_self room]
      rfl
  · rw [CellSeatLog.append_table, records.table, List.length_append, List.length_singleton,
      stateAt_succ _ _ (List.getElem?_concat_length : _ = some change), stateAt_append _ _ (Nat.le_refl _)]

theorem CellProcess.records (capacity : Nat) (process : CellProcess) :
    (process.log capacity).Records process.appended := by
  have fold : ∀ appended : List CellSeatChange,
      (appended.foldl CellSeatLog.append (.new capacity)).Records appended := by
    intro appended
    induction appended using List.reverseRecOn with
    | nil => exact CellSeatLog.records_new capacity
    | append_singleton earlier change ih =>
      rw [List.foldl_append]
      exact ih.append change
  exact fold process.appended

/-- The table of seats a process held after the first of its changes. -/
def CellProcess.tableAt (process : CellProcess) (seq : Nat) : SeatTable (String × String) :=
  stateAt SeatTable.applyCellChange (fun _ => none) process.appended seq

theorem CellProcess.table_logAt (capacity : Nat) (process : CellProcess) (seq : Nat) :
    (process.logAt capacity seq).table = process.tableAt seq :=
  stateAt_view CellSeatLog.append _ CellSeatLog.table SeatTable.applyCellChange
    CellSeatLog.append_table process.appended seq

/-- What a reply of a process says is true of its log. -/
inductive ReplySound (process : CellProcess) (response : SeatFeedResponse) : Prop
  | full (seats : List CellSeat) (full : response.full = some (seats.map CellSeat.toFeed))
      (within : response.seq ≤ process.appended.length)
      (distinct : (seats.map fun seat => (seat.userId, seat.relayHostId)).Nodup)
      (table : ∀ host view, process.tableAt response.seq host = some view ↔
        ∃ seat ∈ seats, (seat.userId, seat.relayHostId) = host ∧ seat.view = view)
  | changes (full : response.full = none) (changes : List (Nat × CellSeatChange))
      (numbered : Numbered process.appended changes)
      (listed : response.changes.getD [] = changes.map fun entry => entry.2.toFeed entry.1)

theorem mapM_id_map_some {Element : Type*} (elements : List Element) :
    (elements.map some).mapM id = some elements := by
  induction elements with
  | nil => rfl
  | cons first rest ih =>
    rw [List.map_cons, List.mapM_cons, ih]
    rfl

theorem CellSeatLog.Records.snapshot {process : CellProcess} {log : CellSeatLog}
    (records : log.Records process.appended) (reports : SeatFeedResponse) (cellId : String)
    (now : Int) : ∃ response,
      reports.withPage cellId process.incarnation (log.snapshot now) = some response ∧
        response.cellId = cellId ∧ response.incarnation = process.incarnation ∧
          ReplySound process response := by
  refine ⟨_, rfl, rfl, rfl, .full log.seats.values rfl (Nat.le_of_eq records.head) ?_ ?_⟩
  · have keys : log.seats.values.map (fun seat => (seat.userId, seat.relayHostId)) =
        log.seats.keys := by
      rw [JsMap.values, JsMap.keys, List.map_map]
      refine List.map_congr_left fun entry member => ?_
      exact records.hosts entry.1 entry.2 (JsMap.get?_eq_some_iff.mpr member)
    rw [keys]
    exact log.seats.keys_nodup
  · intro host view
    show process.tableAt log.headSeq host = some view ↔ _
    rw [CellProcess.tableAt, records.head, ← records.table, CellSeatLog.table, Option.map_eq_some_iff]
    constructor
    · rintro ⟨seat, found, same⟩
      exact ⟨seat, JsMap.mem_values_iff.mpr ⟨host, found⟩, records.hosts host seat found, same⟩
    · rintro ⟨seat, member, rfl, same⟩
      obtain ⟨host, found⟩ := JsMap.mem_values_iff.mp member
      have own := records.hosts host seat found
      exact ⟨seat, own ▸ found, same⟩

/-- Every page a log gives out is one the schema takes, and true of the log. -/
theorem CellSeatLog.Records.read {process : CellProcess} {log : CellSeatLog}
    (records : log.Records process.appended) (reports : SeatFeedResponse) (cellId : String)
    (now : Int) (sinceSeq : Option Nat) : ∃ response,
      reports.withPage cellId process.incarnation (log.read now sinceSeq) = some response ∧
        response.cellId = cellId ∧ response.incarnation = process.incarnation ∧
          ReplySound process response := by
  unfold CellSeatLog.read
  simp only
  cases sinceSeq with
  | none => exact records.snapshot reports cellId now
  | some since =>
    simp only
    split
    case isTrue => exact records.snapshot reports cellId now
    case isFalse reached =>
      rw [not_or, Nat.not_lt, Nat.not_lt] at reached
      obtain ⟨behind, inRing⟩ := reached
      generalize last : min log.headSeq (since + cellSeatFeedPageMax) = lastSeq
      have upTo : lastSeq ≤ log.headSeq := last ▸ Nat.min_le_left ..
      let numbers := List.range' (since + 1) (lastSeq - since)
      have each : ∀ number ∈ numbers, ∃ change : CellSeatChange,
          (∃ place, number = place + 1 ∧ process.appended[place]? = some change) ∧
            log.changeAt number = some { change with seq := number } := by
        intro number member
        obtain ⟨above, below⟩ := List.mem_range'_1.mp member
        obtain ⟨place, rfl⟩ : ∃ place, number = place + 1 := ⟨number - 1, by omega⟩
        have bound : place < process.appended.length := by
          rw [← records.head]
          omega
        have found := List.getElem?_eq_getElem bound
        exact ⟨_, ⟨place, rfl, found⟩, records.ring place _ found (by omega)⟩
      choose! change stored found using each
      have pages : numbers.map log.changeAt = (numbers.map fun number =>
          ({ change number with seq := number } : NumberedSeatChange)).map some := by
        rw [List.map_map]
        exact List.map_congr_left fun number member => found number member
      rw [SeatFeedResponse.withPage, pages, mapM_id_map_some, Option.map_some]
      refine ⟨_, rfl, rfl, rfl, .changes rfl (numbers.map fun number => (number, change number))
        ?_ ?_⟩
      · intro entry member
        obtain ⟨number, listed, rfl⟩ := List.mem_map.mp member
        exact stored number listed
      · rw [Option.getD_some, List.map_map, List.map_map]
        rfl

structure Continues (earlier later : CellProcess) : Prop where
  incarnation : later.incarnation = earlier.incarnation
  appended : earlier.appended <+: later.appended

theorem Continues.tableAt {earlier later : CellProcess} (continues : Continues earlier later)
    {seq : Nat} (within : seq ≤ earlier.appended.length) :
    later.tableAt seq = earlier.tableAt seq := by
  obtain ⟨more, same⟩ := continues.appended
  rw [CellProcess.tableAt, ← same, stateAt_append _ _ within]
  rfl

theorem ReplySound.continues {earlier later : CellProcess} {response : SeatFeedResponse}
    (sound : ReplySound earlier response) (continues : Continues earlier later) :
    ReplySound later response := by
  cases sound with
  | full seats full within distinct table =>
    refine .full seats full (within.trans continues.appended.length_le) distinct ?_
    rw [continues.tableAt within]
    exact table
  | changes full changes numbered listed =>
    obtain ⟨more, same⟩ := continues.appended
    exact .changes full changes (same ▸ numbered.append more) listed

end OxeeUI.Relay
