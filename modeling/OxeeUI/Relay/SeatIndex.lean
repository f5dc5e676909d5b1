import OxeeUI.Library.Run
import OxeeUI.Relay.SeatTable

/-!
# The index of the seat directory

A seat object is held under one host of one cell, in the cell's map and in the host's.  Each
operation on the directory keeps it so, and changes the table of one cell.
-/

namespace OxeeUI.Relay.ShadowSeatDirectory

open OxeeUI.Library

variable {directory next middle : ShadowSeatDirectory} {cellId key : String}

structure Indexed (directory : ShadowSeatDirectory) : Prop where
  same : ∀ cellId key, directory.indexedObject key cellId = directory.objectAt cellId key
  bound : ∀ cellId key object, directory.objectAt cellId key = some object →
    object < directory.objects.length
  distinct : ∀ cellId key cellId' key' object, directory.objectAt cellId key = some object →
    directory.objectAt cellId' key' = some object → cellId = cellId' ∧ key = key'

def tableOf (directory : ShadowSeatDirectory) (cellId : String) : SeatTable String :=
  fun key => (directory.seatAt cellId key).map ShadowSeat.view

/-- What a cell's cursor continues from. -/
def positionOf (directory : ShadowSeatDirectory) (cellId : String) :
    Option (Option String × Option Nat) :=
  (directory.cells.get? cellId).map fun cursor => (cursor.incarnation, cursor.seq)

/-- The table of one cell becomes another; nothing else of seats and cursors changes. -/
structure Retables (cellId : String) (table : SeatTable String)
    (directory next : ShadowSeatDirectory) : Prop where
  indexed : next.Indexed
  positions : next.positionOf = directory.positionOf
  own : next.tableOf cellId = table
  others : ∀ other, other ≠ cellId → next.tableOf other = directory.tableOf other

theorem Retables.trans {table later : SeatTable String}
    (early : Retables cellId table directory middle) (late : Retables cellId later middle next) :
    Retables cellId later directory next where
  indexed := late.indexed
  positions := late.positions.trans early.positions
  own := late.own
  others := fun other different =>
    (late.others other different).trans (early.others other different)

theorem has_eq_isSome_positionOf (directory : ShadowSeatDirectory) (cellId : String) :
    directory.cells.has cellId = (directory.positionOf cellId).isSome := by
  rw [positionOf, Option.isSome_map]
  rfl

theorem Retables.has {table : SeatTable String} (retables : Retables cellId table directory next)
    (other : String) : next.cells.has other = directory.cells.has other := by
  rw [has_eq_isSome_positionOf, has_eq_isSome_positionOf, retables.positions]

/-! ## Operations that touch no seat -/

structure SameSeats (directory next : ShadowSeatDirectory) : Prop where
  cells : next.cells = directory.cells
  hosts : next.hosts = directory.hosts
  objects : next.objects = directory.objects

theorem Indexed.retables_same (indexed : directory.Indexed) (same : SameSeats directory next)
    (cellId : String) : Retables cellId (directory.tableOf cellId) directory next := by
  have object : next.objectAt = directory.objectAt := by
    funext cellId key
    rw [objectAt, objectAt, same.cells]
  have table : next.tableOf = directory.tableOf := by
    funext cellId key
    rw [tableOf, tableOf, seatAt, seatAt, object, same.objects]
  refine ⟨⟨?_, ?_, ?_⟩, ?_, congrFun table cellId, fun other _ => congrFun table other⟩
  · intro cellId key
    rw [object, ← indexed.same, indexedObject, indexedObject, same.hosts]
  · rw [object, same.objects]
    exact indexed.bound
  · rw [object]
    exact indexed.distinct
  · funext cellId
    rw [positionOf, positionOf, same.cells]

theorem sameSeats_rememberLeft (directory : ShadowSeatDirectory) (key : String)
    (entry : RecentlyLeftSeat) : SameSeats directory (directory.rememberLeft key entry) :=
  ⟨rfl, rfl, rfl⟩

theorem sameSeats_rememberBooking (directory : ShadowSeatDirectory) (key cellId : String)
    (epoch time : Int) : SameSeats directory (directory.rememberBooking key cellId epoch time) := by
  unfold rememberBooking
  simp only
  split
  · exact ⟨rfl, rfl, rfl⟩
  split
  · split <;> exact ⟨rfl, rfl, rfl⟩
  · exact ⟨rfl, rfl, rfl⟩

theorem sameSeats_reportBookedJoin (directory : ShadowSeatDirectory) (cellId : String)
    (change : SeatFeedChange) : SameSeats directory (directory.reportBookedJoin cellId change) := by
  unfold reportBookedJoin
  split <;> exact ⟨rfl, rfl, rfl⟩

/-! ## Operations on seats -/

theorem get?_updateCursor (directory : ShadowSeatDirectory) (cellId other : String)
    (change : CellCursor → CellCursor) :
    (directory.updateCursor cellId change).cells.get? other =
      if other = cellId then (directory.cells.get? cellId).map change
      else directory.cells.get? other := by
  unfold updateCursor
  split
  case h_1 absent =>
    split
    case isTrue same => rw [same, absent, Option.map_none]
    case isFalse => rfl
  case h_2 cursor found => rw [JsMap.get?_set, found, Option.map_some]

theorem updateCursor_frame (directory : ShadowSeatDirectory) (cellId : String)
    (change : CellCursor → CellCursor) :
    (directory.updateCursor cellId change).hosts = directory.hosts ∧
      (directory.updateCursor cellId change).objects = directory.objects := by
  unfold updateCursor
  split <;> exact ⟨rfl, rfl⟩

theorem indexedObject_unindex (directory : ShadowSeatDirectory) (key cellId other otherId : String) :
    (directory.unindex key cellId).indexedObject other otherId =
      if other = key ∧ otherId = cellId then none else directory.indexedObject other otherId := by
  unfold unindex
  split
  case h_1 absent =>
    split
    case isTrue same => rw [indexedObject, same.1, absent, Option.bind_none]
    case isFalse => rfl
  case h_2 seats found =>
    have own : ∀ otherId, directory.indexedObject key otherId = seats.get? otherId := by
      intro otherId
      rw [indexedObject, found, Option.bind_some]
    simp only
    split
    case isTrue empty =>
      rw [indexedObject]
      simp only
      rw [JsMap.get?_delete]
      by_cases same : other = key
      · subst same
        have gone : ∀ otherId, (seats.delete cellId).get? otherId = none := by
          intro otherId
          rw [JsMap.get?_eq_none_iff, JsMap.keys, List.length_eq_zero_iff.mp empty]
          simp
        have left := gone otherId
        rw [JsMap.get?_delete] at left
        rw [if_pos rfl, Option.bind_none, own]
        simp only [true_and]
        split at left
        case isTrue here => rw [if_pos here]
        case isFalse there => rw [if_neg there, left]
      · rw [if_neg same, if_neg (fun both => same both.1)]
        rfl
    case isFalse =>
      rw [indexedObject]
      simp only
      rw [JsMap.get?_set]
      by_cases same : other = key
      · subst same
        rw [if_pos rfl, Option.bind_some, JsMap.get?_delete, own]
        simp only [true_and]
      · rw [if_neg same, if_neg (fun both => same both.1)]
        rfl

theorem unindex_frame (directory : ShadowSeatDirectory) (key cellId : String) :
    (directory.unindex key cellId).cells = directory.cells ∧
      (directory.unindex key cellId).objects = directory.objects := by
  unfold unindex
  split
  · exact ⟨rfl, rfl⟩
  · simp only
    split <;> exact ⟨rfl, rfl⟩

theorem objectAt_of_cells (same : next.cells = directory.cells) :
    next.objectAt = directory.objectAt := by
  funext cellId key
  rw [objectAt, objectAt, same]

theorem objectAt_updateCursor (directory : ShadowSeatDirectory) (cellId other key : String)
    (change : CellCursor → CellCursor) :
    (directory.updateCursor cellId change).objectAt other key =
      if other = cellId then
        (directory.cells.get? cellId).bind fun cursor => (change cursor).seats.get? key
      else directory.objectAt other key := by
  rw [objectAt, get?_updateCursor]
  split
  case isTrue => rw [Option.bind_map]; rfl
  case isFalse => rfl

theorem positionOf_updateCursor (directory : ShadowSeatDirectory) (cellId other : String)
    (change : CellCursor → CellCursor) :
    (directory.updateCursor cellId change).positionOf other =
      if other = cellId then (directory.cells.get? cellId).map fun cursor =>
        ((change cursor).incarnation, (change cursor).seq)
      else directory.positionOf other := by
  rw [positionOf, get?_updateCursor]
  split
  case isTrue => rw [Option.map_map]; rfl
  case isFalse => rfl

theorem objectAt_unseat (directory : ShadowSeatDirectory) (cellId key other otherKey : String) :
    (directory.unseat cellId key).objectAt other otherKey =
      if other = cellId ∧ otherKey = key then none else directory.objectAt other otherKey := by
  rw [unseat, objectAt_of_cells (unindex_frame ..).1, objectAt_updateCursor]
  by_cases same : other = cellId
  · subst same
    simp only [if_true, true_and, JsMap.get?_delete]
    split
    case isTrue => rw [Option.bind_fun_none]
    case isFalse => rfl
  · rw [if_neg same, if_neg (fun both => same both.1)]

theorem retables_unseat (indexed : directory.Indexed) (cellId key : String) :
    Retables cellId (Function.update (directory.tableOf cellId) key none) directory
      (directory.unseat cellId key) := by
  have object := objectAt_unseat directory cellId key
  have objects : (directory.unseat cellId key).objects = directory.objects :=
    (unindex_frame ..).2.trans (updateCursor_frame ..).2
  have table : ∀ other otherKey, (directory.unseat cellId key).tableOf other otherKey =
      if other = cellId ∧ otherKey = key then none else directory.tableOf other otherKey := by
    intro other otherKey
    rw [tableOf, seatAt, object, objects]
    split <;> rfl
  refine ⟨⟨?_, ?_, ?_⟩, ?_, ?_, ?_⟩
  · intro other otherKey
    have index : (directory.unseat cellId key).indexedObject otherKey other =
        if otherKey = key ∧ other = cellId then none else
          directory.indexedObject otherKey other := by
      rw [unseat, indexedObject_unindex, indexedObject, (updateCursor_frame ..).1]
      rfl
    rw [index, object, indexed.same]
    simp only [and_comm]
  · intro other otherKey held found
    rw [object] at found
    rw [objects]
    split at found
    · cases found
    · exact indexed.bound other otherKey held found
  · intro first firstKey second secondKey held found found'
    rw [object] at found found'
    split at found
    · cases found
    split at found'
    · cases found'
    exact indexed.distinct first firstKey second secondKey held found found'
  · funext other
    rw [unseat, positionOf, (unindex_frame ..).1, ← positionOf, positionOf_updateCursor]
    split
    case isTrue same => rw [same]; rfl
    case isFalse => rfl
  · funext otherKey
    rw [table, Function.update_apply]
    simp only [true_and]
  · intro other different
    funext otherKey
    rw [table, if_neg (fun both => different both.1)]

/-! ## New seats -/

section Seat

variable (listed : directory.cells.has cellId = true) (key : String) (held : ShadowSeat)
include listed

theorem objectAt_seat (other otherKey : String) :
    (directory.seat cellId key held).objectAt other otherKey =
      if other = cellId ∧ otherKey = key then some directory.objects.length
      else directory.objectAt other otherKey := by
  obtain ⟨cursor, found⟩ := Option.isSome_iff_exists.mp listed
  have created : (directory.seat cellId key held).objectAt other otherKey =
      (({ directory with objects := directory.objects ++ [held] } :
        ShadowSeatDirectory).updateCursor cellId fun cursor =>
          { cursor with seats := cursor.seats.set key directory.objects.length }).objectAt other
            otherKey := rfl
  rw [created, objectAt_updateCursor]
  simp only [found, Option.bind_some, JsMap.get?_set]
  by_cases same : other = cellId
  · subst same
    rw [if_pos rfl]
    simp only [true_and]
    split
    case isTrue => rfl
    case isFalse => rw [objectAt, found, Option.bind_some]
  · rw [if_neg same, if_neg (fun both => same both.1)]
    rfl

omit listed in
theorem indexedObject_seat (other otherId : String) :
    (directory.seat cellId key held).indexedObject other otherId =
      if other = key ∧ otherId = cellId then some directory.objects.length
      else directory.indexedObject other otherId := by
  have hosts : (({ directory with objects := directory.objects ++ [held] } :
      ShadowSeatDirectory).updateCursor cellId fun cursor =>
        { cursor with seats := cursor.seats.set key directory.objects.length }).hosts =
          directory.hosts := (updateCursor_frame ..).1
  rw [indexedObject, seat]
  simp only
  rw [hosts, JsMap.get?_set]
  by_cases same : other = key
  · subst same
    rw [if_pos rfl, Option.bind_some, JsMap.get?_set]
    simp only [true_and]
    split
    case isTrue => rfl
    case isFalse =>
      rw [indexedObject]
      cases directory.hosts.get? other with
      | none => rfl
      | some seats => rfl
  · rw [if_neg same, if_neg (fun both => same both.1)]
    rfl

omit listed in
theorem objects_seat :
    (directory.seat cellId key held).objects = directory.objects ++ [held] :=
  (updateCursor_frame ..).2

theorem retables_seat (indexed : directory.Indexed) :
    Retables cellId (Function.update (directory.tableOf cellId) key (some held.view)) directory
      (directory.seat cellId key held) := by
  have object := objectAt_seat listed key held
  have objects : (directory.seat cellId key held).objects = directory.objects ++ [held] :=
    objects_seat key held
  have table : ∀ other otherKey, (directory.seat cellId key held).tableOf other otherKey =
      if other = cellId ∧ otherKey = key then some held.view
      else directory.tableOf other otherKey := by
    intro other otherKey
    rw [tableOf, seatAt, object, objects]
    split
    case isTrue =>
      rw [Option.bind_some, List.getElem?_concat_length]
      rfl
    case isFalse =>
      rw [tableOf, seatAt]
      cases found : directory.objectAt other otherKey with
      | none => rfl
      | some old =>
        rw [Option.bind_some, Option.bind_some,
          List.getElem?_append_left (indexed.bound other otherKey old found)]
  refine ⟨⟨?_, ?_, ?_⟩, ?_, ?_, ?_⟩
  · intro other otherKey
    rw [indexedObject_seat, object, indexed.same]
    simp only [and_comm]
  · intro other otherKey old found
    rw [object] at found
    rw [objects, List.length_append, List.length_singleton]
    split at found
    case isTrue =>
      obtain rfl := Option.some.inj found
      exact Nat.lt_succ_self _
    case isFalse => exact Nat.lt_succ_of_lt (indexed.bound other otherKey old found)
  · intro first firstKey second secondKey old found found'
    rw [object] at found found'
    split at found <;> split at found'
    case isTrue.isTrue here here' => exact ⟨here.1.trans here'.1.symm, here.2.trans here'.2.symm⟩
    case isTrue.isFalse =>
      obtain rfl := Option.some.inj found
      exact absurd (indexed.bound _ _ _ found') (Nat.lt_irrefl _)
    case isFalse.isTrue =>
      obtain rfl := Option.some.inj found'
      exact absurd (indexed.bound _ _ _ found) (Nat.lt_irrefl _)
    case isFalse.isFalse => exact indexed.distinct first firstKey second secondKey old found found'
  · funext other
    have cells : (directory.seat cellId key held).positionOf other =
        (({ directory with objects := directory.objects ++ [held] } :
          ShadowSeatDirectory).updateCursor cellId fun cursor =>
            { cursor with seats := cursor.seats.set key directory.objects.length }).positionOf
              other := rfl
    rw [cells, positionOf_updateCursor]
    split
    case isTrue same => rw [same]; rfl
    case isFalse => rfl
  · funext otherKey
    rw [table, Function.update_apply]
    simp only [true_and]
  · intro other different
    funext otherKey
    rw [table, if_neg (fun both => different both.1)]

end Seat

/-- The fields of a seat object show in the one map that holds it. -/
theorem retables_updateObject (indexed : directory.Indexed) {object : Nat}
    (found : directory.objectAt cellId key = some object) (change : ShadowSeat → ShadowSeat)
    {viewed : SeatView → SeatView}
    (views : ∀ seat, (change seat).view = viewed seat.view) :
    Retables cellId (Function.update (directory.tableOf cellId) key
      ((directory.tableOf cellId key).map viewed)) directory
        (directory.updateObject object change) := by
  have table : ∀ other otherKey, (directory.updateObject object change).tableOf other otherKey =
      if other = cellId ∧ otherKey = key then (directory.tableOf cellId key).map viewed
      else directory.tableOf other otherKey := by
    intro other otherKey
    have unfolded : (directory.updateObject object change).tableOf other otherKey =
        ((directory.objectAt other otherKey).bind fun held =>
          (directory.objects.modify object change)[held]?).map ShadowSeat.view := rfl
    rw [unfolded]
    split
    case isTrue same =>
      obtain ⟨rfl, rfl⟩ := same
      rw [tableOf, seatAt, found, Option.bind_some, Option.bind_some, List.getElem?_modify]
      cases directory.objects[object]? with
      | none => rfl
      | some seat => simp [views]
    case isFalse different =>
      rw [tableOf, seatAt]
      cases held : directory.objectAt other otherKey with
      | none => rfl
      | some old =>
        have apart : object ≠ old := by
          rintro rfl
          exact different (indexed.distinct other otherKey cellId key object held found)
        rw [Option.bind_some, Option.bind_some, List.getElem?_modify]
        cases directory.objects[old]? with
        | none => rfl
        | some seat => simp [apart]
  refine ⟨⟨indexed.same, ?_, indexed.distinct⟩, rfl, ?_, ?_⟩
  · intro other otherKey held found'
    show held < (directory.objects.modify object change).length
    rw [List.length_modify]
    exact indexed.bound other otherKey held found'
  · funext otherKey
    rw [table, Function.update_apply]
    simp only [true_and]
  · intro other different
    funext otherKey
    rw [table, if_neg (fun both => different both.1)]

/-! ## Changes -/

theorem retables_applyChange (indexed : directory.Indexed)
    (listed : directory.cells.has cellId = true) (incarnation : Option String) (now : Int)
    (change : SeatFeedChange) :
    Retables cellId
      ((directory.tableOf cellId).apply (hostKey change.userId change.relayHostId) change) directory
        (applyChange cellId incarnation now directory change) := by
  generalize key : hostKey change.userId change.relayHostId = hostKey'
  have view : directory.tableOf cellId hostKey' =
      (directory.seatAt cellId hostKey').map ShadowSeat.view := rfl
  have unchanged : changeSeat change (directory.tableOf cellId hostKey') =
      directory.tableOf cellId hostKey' → (directory.tableOf cellId).apply hostKey' change =
        directory.tableOf cellId := by
    intro same
    rw [SeatTable.apply, same, Function.update_eq_self]
  have late : ((directory.tableOf cellId hostKey').any fun seat =>
      change.generation < seat.generation) = (directory.seatAt cellId hostKey').any fun seat =>
        change.generation < seat.generation := by
    rw [view, Option.any_map]
    rfl
  unfold applyChange
  simp only [key]
  split
  case isTrue reserve =>
    rw [unchanged (if_pos reserve)]
    exact indexed.retables_same (sameSeats_rememberBooking ..) cellId
  case isFalse notReserve =>
    split
    case isTrue outdated =>
      rw [unchanged (changeSeat_of_late (late.trans outdated))]
      exact indexed.retables_same ⟨rfl, rfl, rfl⟩ cellId
    case isFalse current =>
      rw [← late] at current
      have changed : changeSeat change (directory.tableOf cellId hostKey') =
          if change.kind = "join" then
            some ⟨change.epoch, change.generation, change.state.getD "active", change.time⟩
          else if change.kind = "leave" then none
          else if change.kind = "drain-only" ∨ change.kind = "active" then
            (directory.tableOf cellId hostKey').map fun seat => { seat with state := change.kind }
          else directory.tableOf cellId hostKey' := by
        rw [changeSeat, if_neg notReserve, if_neg current]
      rw [SeatTable.apply, changed]
      split
      case isTrue =>
        have seated := retables_seat listed hostKey'
          { cellId := cellId
            epoch := change.epoch
            generation := change.generation
            state := change.state.getD "active"
            joinedAt := change.time
            observedAt := now
            incarnation := incarnation } indexed
        have reported := seated.indexed.retables_same
          (sameSeats_reportBookedJoin _ cellId change) cellId
        rw [seated.own] at reported
        exact seated.trans reported
      case isFalse =>
        split
        case isTrue =>
          cases held : directory.seatAt cellId hostKey' with
          | none =>
            have absent : none = directory.tableOf cellId hostKey' := by rw [view, held]; rfl
            rw [absent, Function.update_eq_self]
            exact indexed.retables_same ⟨rfl, rfl, rfl⟩ cellId
          | some seat =>
            have unseated := retables_unseat indexed cellId hostKey'
            have remembered := unseated.indexed.retables_same (sameSeats_rememberLeft _ hostKey'
              { cellId := cellId
                epoch := change.epoch
                generation := change.generation
                incarnation := incarnation
                closeCode := change.closeCode
                resync := false
                time := change.time }) cellId
            rw [unseated.own] at remembered
            exact unseated.trans remembered
        case isFalse =>
          split
          case isTrue =>
            split
            case h_1 absent =>
              have none : directory.tableOf cellId hostKey' = none := by
                rw [view, seatAt, absent]
                rfl
              rw [none, Option.map_none, ← none, Function.update_eq_self]
              exact indexed.retables_same ⟨rfl, rfl, rfl⟩ cellId
            case h_2 object found =>
              exact retables_updateObject indexed found _ fun seat => rfl
          case isFalse =>
            rw [Function.update_eq_self]
            exact indexed.retables_same ⟨rfl, rfl, rfl⟩ cellId

end OxeeUI.Relay.ShadowSeatDirectory
