import OxeeUI.Relay.SeatReplies

/-!
# The director mirrors the logs

Whatever polls and replies do, a cell whose cursor continues from a number of a process has the
seats that process held after as many changes.
-/

namespace OxeeUI.Relay

open OxeeUI.Library

/-! ## Host keys -/

/-- Hosts whose keys tell them apart: a cell takes no relay host id with the separator. -/
def KeyedHosts : Set (String × String) := {host | '\x00' ∉ host.2.toList}

def keyOf (host : String × String) : String := hostKey host.1 host.2

theorem append_cons_inj {Element : Type*} {separator : Element}
    {left left' right right' : List Element} (absent : separator ∉ right)
    (absent' : separator ∉ right') (same : left ++ separator :: right = left' ++ separator :: right') :
    left = left' ∧ right = right' := by
  rcases List.append_eq_append_iff.mp same with ⟨between, rfl, rest⟩ | ⟨between, rfl, rest⟩
  · cases between with
    | nil => exact ⟨(List.append_nil _).symm, (List.cons.inj rest).2⟩
    | cons first between =>
      exact absurd ((List.cons.inj rest).2 ▸ by simp) absent
  · cases between with
    | nil => exact ⟨List.append_nil _, ((List.cons.inj rest).2).symm⟩
    | cons first between =>
      exact absurd ((List.cons.inj rest).2 ▸ by simp) absent'

theorem keyOf_injOn : Set.InjOn keyOf KeyedHosts := by
  rintro ⟨user, host⟩ valid ⟨user', host'⟩ valid' same
  have text := congrArg String.toList same
  have separator : ("\x00" : String).toList = ['\x00'] := by decide
  simp only [keyOf, hostKey, String.toList_append, separator, List.append_assoc,
    List.singleton_append] at text
  obtain ⟨sameUser, sameHost⟩ := append_cons_inj valid valid' text
  exact Prod.ext (String.toList_inj.mp sameUser) (String.toList_inj.mp sameHost)

/-- All hosts of a process have keys of their own. -/
def CellProcess.Keyed (process : CellProcess) : Prop :=
  ∀ change ∈ process.appended, change.host ∈ KeyedHosts

def SeatTable.Within {Key : Type*} (valid : Set Key) (table : SeatTable Key) : Prop :=
  ∀ key, table key ≠ none → key ∈ valid

theorem CellProcess.Keyed.tableAt {process : CellProcess} (keyed : process.Keyed) (seq : Nat) :
    SeatTable.Within KeyedHosts (process.tableAt seq) := by
  unfold CellProcess.tableAt
  refine stateAt_preserves _ _ (fun _ held => absurd rfl held) ?_ seq
  intro table change member within host held
  rw [SeatTable.applyCellChange, SeatTable.apply, Function.update_apply] at held
  split at held
  case isTrue same => exact same ▸ keyed change member
  case isFalse => exact within host held

/-! ## One reply -/

namespace ShadowSeatDirectory

variable {directory next : ShadowSeatDirectory} {cellId : String}

/-- The cell's cursor continues from nothing, or from a number of a process whose seats then are
the cell's. -/
def Exact (processes : List CellProcess) (directory : ShadowSeatDirectory) (cellId : String) :
    Prop :=
  Forgotten directory cellId ∨
    ∃ process ∈ processes, ∃ seq,
      directory.positionOf cellId = some (some process.incarnation, some seq) ∧
        seq ≤ process.appended.length ∧
          SeatTable.Mirrors KeyedHosts keyOf (process.tableAt seq) (directory.tableOf cellId)

theorem Exact.of_same {processes : List CellProcess} (exact_ : Exact processes directory cellId)
    (position : next.positionOf cellId = directory.positionOf cellId)
    (table : next.tableOf cellId = directory.tableOf cellId) : Exact processes next cellId := by
  rw [Exact, Forgotten, position, table]
  exact exact_

theorem Exact.forgets {processes : List CellProcess} (exact_ : Exact processes directory cellId)
    (forgets : Forgets directory next) : Exact processes next cellId := by
  rcases forgets.cells cellId with forgotten | ⟨position, table⟩
  · exact Or.inl forgotten
  · exact exact_.of_same position table

/-- A snapshot that is true of a process mirrors it. -/
theorem mirrors_snapshot {process : CellProcess} (keyed : process.Keyed) {seats : List CellSeat}
    {seq : Nat} (distinct : (seats.map fun seat => (seat.userId, seat.relayHostId)).Nodup)
    (table : ∀ host view, process.tableAt seq host = some view ↔
      ∃ seat ∈ seats, (seat.userId, seat.relayHostId) = host ∧ seat.view = view)
    (incarnation : String) (now : Int) :
    SeatTable.Mirrors KeyedHosts keyOf (process.tableAt seq) fun key =>
      ((snapshotSeats cellId incarnation now (seats.map CellSeat.toFeed)).get? key).map
        ShadowSeat.view := by
  have valid : ∀ seat ∈ seats, (seat.userId, seat.relayHostId) ∈ KeyedHosts := by
    intro seat member
    refine keyed.tableAt seq _ ?_
    rw [(table _ seat.view).mpr ⟨seat, member, rfl, rfl⟩]
    exact Option.some_ne_none _
  let pairs := (seats.map CellSeat.toFeed).map fun seat =>
    (hostKey seat.userId seat.relayHostId, snapshotSeat cellId incarnation now seat)
  have keys : pairs.map Prod.fst =
      (seats.map fun seat => (seat.userId, seat.relayHostId)).map keyOf := by
    simp only [pairs, List.map_map]
    rfl
  have apart : (pairs.map Prod.fst).Nodup := by
    rw [keys]
    refine (List.nodup_map_iff_inj_on distinct).mpr fun host member host' member' same => ?_
    obtain ⟨seat, stored, rfl⟩ := List.mem_map.mp member
    obtain ⟨seat', stored', rfl⟩ := List.mem_map.mp member'
    exact keyOf_injOn (valid seat stored) (valid seat' stored') same
  have found : ∀ key view, ((snapshotSeats cellId incarnation now
      (seats.map CellSeat.toFeed)).get? key).map ShadowSeat.view = some view ↔
        ∃ seat ∈ seats, keyOf (seat.userId, seat.relayHostId) = key ∧ seat.view = view := by
    intro key view
    rw [snapshotSeats, JsMap.get?_ofPairs apart, Option.map_eq_some_iff]
    constructor
    · rintro ⟨held, stored, rfl⟩
      obtain ⟨feed, listed, same⟩ := List.mem_map.mp (JsMap.mem_of_lookup stored)
      obtain ⟨seat, member, rfl⟩ := List.mem_map.mp listed
      obtain ⟨rfl, rfl⟩ := Prod.mk.inj same
      exact ⟨seat, member, rfl, rfl⟩
    · rintro ⟨seat, member, rfl, rfl⟩
      refine ⟨snapshotSeat cellId incarnation now seat.toFeed, JsMap.lookup_of_mem apart ?_, rfl⟩
      exact List.mem_map.mpr ⟨seat.toFeed, List.mem_map_of_mem member, rfl⟩
  refine ⟨fun host member => ?_, fun key held => ?_, keyed.tableAt seq⟩
  · refine Option.ext fun view => ?_
    rw [found, table]
    constructor
    · rintro ⟨seat, stored, same, viewed⟩
      exact ⟨seat, stored, keyOf_injOn (valid seat stored) member same, viewed⟩
    · rintro ⟨seat, stored, rfl, viewed⟩
      exact ⟨seat, stored, rfl, viewed⟩
  · obtain ⟨view, held⟩ := Option.ne_none_iff_exists'.mp held
    obtain ⟨seat, stored, same, -⟩ := (found key view).mp held
    exact ⟨_, valid seat stored, same⟩

theorem positionOf_answered (response : SeatFeedResponse) (now polledAt : Int) (seq : Nat)
    (listed : directory.cells.has cellId = true) :
    (directory.updateCursor cellId (answered response now polledAt seq)).positionOf cellId =
      some (some response.incarnation, some seq) := by
  obtain ⟨cursor, found⟩ := Option.isSome_iff_exists.mp listed
  rw [positionOf_updateCursor, if_pos rfl, found]
  rfl

/-- What a reply does to the other cells: nothing. -/
structure Elsewhere (cellId : String) (directory next : ShadowSeatDirectory) : Prop where
  positions : ∀ other, other ≠ cellId → next.positionOf other = directory.positionOf other
  tables : ∀ other, other ≠ cellId → next.tableOf other = directory.tableOf other

theorem Retables.elsewhere {table : SeatTable String}
    (retables : Retables cellId table directory next) : Elsewhere cellId directory next :=
  ⟨fun other _ => congrFun retables.positions other, retables.others⟩

theorem Elsewhere.trans {middle : ShadowSeatDirectory} (early : Elsewhere cellId directory middle)
    (late : Elsewhere cellId middle next) : Elsewhere cellId directory next where
  positions := fun other different =>
    (late.positions other different).trans (early.positions other different)
  tables := fun other different =>
    (late.tables other different).trans (early.tables other different)

theorem elsewhere_updateCursor (indexed : directory.Indexed) {change : CellCursor → CellCursor}
    (seats : ∀ cursor, (change cursor).seats = cursor.seats) :
    Elsewhere cellId directory (directory.updateCursor cellId change) where
  positions := fun other different => by
    rw [positionOf_updateCursor, if_neg different]
  tables := fun other _ => congrFun (keepsTables_updateCursor indexed cellId seats).tables other

structure Answered (processes : List CellProcess) (cellId : String)
    (directory next : ShadowSeatDirectory) : Prop where
  indexed : next.Indexed
  exact : Exact processes next cellId
  elsewhere : Elsewhere cellId directory next

theorem answered_of_retables {processes : List CellProcess} {process : CellProcess}
    (member : process ∈ processes) {table : SeatTable String}
    (retables : Retables cellId table directory next) (listed : directory.cells.has cellId = true)
    {response : SeatFeedResponse} (same : process.incarnation = response.incarnation)
    (now polledAt : Int) {seq : Nat} (within : seq ≤ process.appended.length)
    (mirrors : SeatTable.Mirrors KeyedHosts keyOf (process.tableAt seq) table) :
    Answered processes cellId directory
      (next.updateCursor cellId (answered response now polledAt seq)) := by
  have seats : ∀ cursor, (answered response now polledAt seq cursor).seats = cursor.seats :=
    fun _ => rfl
  have kept := keepsTables_updateCursor retables.indexed cellId seats
  refine ⟨kept.indexed, Or.inr ⟨process, member, seq, ?_, within, ?_⟩,
    retables.elsewhere.trans (elsewhere_updateCursor retables.indexed seats)⟩
  · rw [positionOf_answered _ _ _ _ ((retables.has cellId).trans listed), same]
  · rw [kept.tables, retables.own]
    exact mirrors

theorem answered_of_gap {processes : List CellProcess} {table : SeatTable String}
    (retables : Retables cellId table directory next) :
    Answered processes cellId directory
      ((next.updateCursor cellId resync).fail cellId "cursor_gap") := by
  have seats : ∀ cursor : CellCursor, (resync cursor).seats = cursor.seats := fun _ => rfl
  have kept := keepsTables_updateCursor retables.indexed cellId seats
  have failed := forgets_fail kept.indexed cellId "cursor_gap"
  have forgotten : Forgotten (next.updateCursor cellId resync) cellId := by
    rw [Forgotten, positionOf_updateCursor, if_pos rfl]
    cases next.cells.get? cellId with
    | none => exact Or.inl rfl
    | some cursor => exact Or.inr rfl
  have start : Exact processes (next.updateCursor cellId resync) cellId := Or.inl forgotten
  exact ⟨failed.indexed, start.forgets failed,
    (retables.elsewhere.trans (elsewhere_updateCursor retables.indexed seats)).trans
      (elsewhere_updateCursor kept.indexed fun _ => rfl)⟩

theorem follow_mirrors {process : CellProcess} (keyed : process.Keyed)
    {changes : List (Nat × CellSeatChange)} (numbered : Numbered process.appended changes)
    {seq last : Nat} (within : seq ≤ process.appended.length) {table later : SeatTable String}
    (mirrors : SeatTable.Mirrors KeyedHosts keyOf (process.tableAt seq) table)
    (followed : follow applyFeedChange ((changes.map fun entry => entry.2.toFeed entry.1).map
      fun change => (change.seq, change)) seq table = some (last, later)) :
    last ≤ process.appended.length ∧
      SeatTable.Mirrors KeyedHosts keyOf (process.tableAt last) later := by
  let applyHost : SeatTable String → CellSeatChange → SeatTable String := fun table change =>
    table.apply (keyOf change.host) (change.toFeed 0)
  have same : ∀ (changes : List (Nat × CellSeatChange)) (seq : Nat) (table : SeatTable String),
      follow applyFeedChange ((changes.map fun entry => entry.2.toFeed entry.1).map
        fun change => (change.seq, change)) seq table = follow applyHost changes seq table := by
    intro changes
    induction changes with
    | nil => exact fun _ _ => rfl
    | cons entry rest ih =>
      intro seq table
      rw [List.map_cons, List.map_cons, follow, follow]
      simp only [ih]
      rfl
  rw [same] at followed
  refine follow_exact SeatTable.applyCellChange (fun _ => none)
    (fun image state => SeatTable.Mirrors KeyedHosts keyOf state image) ?_ numbered within mirrors
      followed
  intro image state change member related
  exact related.apply keyOf_injOn (keyed change member) (change.toFeed 0)

theorem applyDelta_spec {processes : List CellProcess} (indexed : directory.Indexed)
    (exact_ : Exact processes directory cellId) {cursor : CellCursor}
    (found : directory.cells.get? cellId = some cursor) {process : CellProcess}
    (member : process ∈ processes) (keyed : process.Keyed) {response : SeatFeedResponse}
    (only : ∀ other ∈ processes, other.incarnation = response.incarnation → other = process)
    (same : process.incarnation = response.incarnation) {changes : List (Nat × CellSeatChange)}
    (numbered : Numbered process.appended changes)
    (listed : response.changes.getD [] = changes.map fun entry => entry.2.toFeed entry.1)
    (now polledAt : Int) :
    Answered processes cellId directory
      (directory.applyDelta cellId cursor response now polledAt) := by
  have has : directory.cells.has cellId = true := by
    rw [JsMap.has, found]
    rfl
  have position : directory.positionOf cellId = some (cursor.incarnation, cursor.seq) := by
    rw [positionOf, found, Option.map_some]
  unfold applyDelta
  simp only
  by_cases known : cursor.incarnation = some response.incarnation
  · rw [if_pos known]
    obtain ⟨table, retables, followed⟩ := applyChanges_spec indexed has cursor.incarnation now
      (response.changes.getD []) (cursor.seq.getD 0)
    rcases exact_ with forgotten | ⟨holder, holds, seq, held, within, mirrors⟩
    · rw [Forgotten, position, known] at forgotten
      rcases forgotten with none | none <;> cases none
    rw [position, known] at held
    obtain ⟨incarnation, number⟩ := Prod.mk.inj (Option.some.inj held)
    obtain rfl := only holder holds (Option.some.inj incarnation).symm
    rw [number, Option.getD_some] at followed retables ⊢
    split
    case h_1 => exact answered_of_gap retables
    case h_2 last ended =>
      have followed := followed last ended
      rw [listed] at followed
      obtain ⟨within', mirrors'⟩ := follow_mirrors keyed numbered within mirrors followed
      split
      · exact answered_of_gap retables
      · exact answered_of_retables member retables has same now polledAt within' mirrors'
  · rw [if_neg known]
    exact answered_of_gap (indexed.retables_same ⟨rfl, rfl, rfl⟩ cellId)

/-- A reply that is true of a process of its cell leaves the cell exact. -/
theorem apply_spec {processes : List CellProcess} (indexed : directory.Indexed)
    (exact_ : Exact processes directory cellId)
    (distinct : (processes.map CellProcess.incarnation).Nodup)
    (keyed : ∀ process ∈ processes, process.Keyed) {response : SeatFeedResponse}
    (sound : response.cellId = cellId → ∃ process ∈ processes,
      process.incarnation = response.incarnation ∧ ReplySound process response)
    (now polledAt : Int) :
    Answered processes cellId directory (directory.apply cellId response now polledAt) := by
  unfold apply
  split
  case h_1 => exact ⟨indexed, exact_, ⟨fun _ _ => rfl, fun _ _ => rfl⟩⟩
  case h_2 cursor found =>
    have has : directory.cells.has cellId = true := by
      rw [JsMap.has, found]
      rfl
    split
    case isTrue =>
      have failed := forgets_fail indexed cellId "cell_id_mismatch"
      exact ⟨failed.indexed, exact_.forgets failed,
        elsewhere_updateCursor indexed fun _ => rfl⟩
    case isFalse addressed =>
      obtain ⟨process, member, same, sound⟩ := sound (not_not.mp addressed)
      cases sound with
      | full seats full within distinct table =>
        rw [full]
        have replaced := retables_replaceSeats indexed has (seats.map CellSeat.toFeed) now
          response.incarnation
        have remembered := retables_rememberLeavers replaced.indexed cellId response.incarnation
          (response.recentlyLeft.getD [])
        rw [replaced.own] at remembered
        exact answered_of_retables member (replaced.trans remembered) has same now polledAt within
          (mirrors_snapshot (keyed process member) distinct table response.incarnation now)
      | changes full changes numbered listed =>
        rw [full]
        refine applyDelta_spec indexed exact_ found member (keyed process member) ?_ same numbered
          listed now polledAt
        intro other member' same'
        exact List.inj_on_of_nodup_map distinct member' member (same'.trans same.symm)

end ShadowSeatDirectory

end OxeeUI.Relay
