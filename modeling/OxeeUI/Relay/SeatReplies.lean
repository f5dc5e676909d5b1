import OxeeUI.Relay.SeatIndex

/-!
# Replies on the seat directory

A delta is followed change by change, and a snapshot replaces the table of its cell.
-/

namespace OxeeUI.Relay.ShadowSeatDirectory

open OxeeUI.Library

variable {directory next : ShadowSeatDirectory} {cellId : String}

/-! ## Deltas -/

def applyFeedChange (table : SeatTable String) (change : SeatFeedChange) : SeatTable String :=
  table.apply (hostKey change.userId change.relayHostId) change

theorem applyChanges_spec (indexed : directory.Indexed)
    (listed : directory.cells.has cellId = true) (incarnation : Option String) (now : Int)
    (changes : List SeatFeedChange) (seq : Nat) :
    ∃ table, Retables cellId table directory
        (applyChanges cellId incarnation now changes seq directory).1 ∧
      ∀ last, (applyChanges cellId incarnation now changes seq directory).2 = some last →
        follow applyFeedChange (changes.map fun change => (change.seq, change)) seq
          (directory.tableOf cellId) = some (last, table) := by
  induction changes generalizing seq directory with
  | nil =>
    refine ⟨_, indexed.retables_same ⟨rfl, rfl, rfl⟩ cellId, fun last ended => ?_⟩
    obtain rfl := Option.some.inj ended
    rfl
  | cons change rest ih =>
    unfold applyChanges
    rw [List.map_cons, follow]
    split
    case isTrue => exact ih indexed listed seq
    case isFalse =>
      split
      case isTrue gap =>
        refine ⟨_, indexed.retables_same ⟨rfl, rfl, rfl⟩ cellId, fun last ended => ?_⟩
        cases ended
      case isFalse =>
        have applied := retables_applyChange indexed listed incarnation now change
        have stays := (applied.has cellId).trans listed
        obtain ⟨table, retables, followed⟩ := ih applied.indexed stays change.seq
        refine ⟨table, applied.trans retables, fun last ended => ?_⟩
        rw [← followed last ended, applied.own]
        rfl

/-! ## Snapshots -/

theorem retables_resyncSeat (indexed : directory.Indexed) (cellId : String) (now : Int)
    (entry : String × ShadowSeat) :
    Retables cellId (Function.update (directory.tableOf cellId) entry.1 none) directory
      (directory.resyncSeat cellId now entry) := by
  have unseated := retables_unseat indexed cellId entry.1
  have remembered := unseated.indexed.retables_same (sameSeats_rememberLeft _ entry.1
    { cellId := cellId
      epoch := entry.2.epoch
      generation := entry.2.generation
      incarnation := entry.2.incarnation
      closeCode := none
      resync := true
      time := now }) cellId
  rw [unseated.own] at remembered
  exact unseated.trans remembered

theorem retables_resyncSeats (indexed : directory.Indexed) (cellId : String) (now : Int)
    (gone : List (String × ShadowSeat)) :
    Retables cellId
      (fun key => if key ∈ gone.map Prod.fst then none else directory.tableOf cellId key) directory
        (gone.foldl (fun directory entry => directory.resyncSeat cellId now entry) directory) := by
  induction gone generalizing directory with
  | nil => simpa using indexed.retables_same ⟨rfl, rfl, rfl⟩ cellId
  | cons entry rest ih =>
    have first := retables_resyncSeat indexed cellId now entry
    have later := first.trans (ih first.indexed)
    rw [first.own] at later
    have same : (fun key => if key ∈ (entry :: rest).map Prod.fst then none
          else directory.tableOf cellId key) =
        fun key => if key ∈ rest.map Prod.fst then none
          else Function.update (directory.tableOf cellId) entry.1 none key := by
      funext key
      simp only [List.map_cons, List.mem_cons, Function.update_apply]
      by_cases member : key ∈ rest.map Prod.fst
      · rw [if_pos member, if_pos (Or.inr member)]
      · by_cases here : key = entry.1
        · rw [if_pos (Or.inl here), if_neg member, if_pos here]
        · rw [if_neg (not_or.mpr ⟨here, member⟩), if_neg member, if_neg here]
    rw [same]
    exact later

theorem retables_seats (indexed : directory.Indexed) (listed : directory.cells.has cellId = true)
    {entries : List (String × ShadowSeat)} (distinct : (entries.map Prod.fst).Nodup) :
    Retables cellId
      (fun key => ((entries.lookup key).map ShadowSeat.view).or (directory.tableOf cellId key))
        directory (entries.foldl (fun directory entry => directory.seat cellId entry.1 entry.2)
          directory) := by
  induction entries generalizing directory with
  | nil => simpa using indexed.retables_same ⟨rfl, rfl, rfl⟩ cellId
  | cons entry rest ih =>
    rw [List.map_cons, List.nodup_cons] at distinct
    have first := retables_seat listed entry.1 entry.2 indexed
    have later := first.trans (ih first.indexed ((first.has cellId).trans listed) distinct.2)
    rw [first.own] at later
    have same : (fun key => (((entry :: rest).lookup key).map ShadowSeat.view).or
          (directory.tableOf cellId key)) =
        fun key => ((rest.lookup key).map ShadowSeat.view).or
          (Function.update (directory.tableOf cellId) entry.1 (some entry.2.view) key) := by
      funext key
      rw [List.lookup_cons, Function.update_apply]
      by_cases here : key = entry.1
      · subst here
        rw [JsMap.lookup_eq_none_iff_not_mem.mpr distinct.1]
        simp
      · rw [beq_eq_false_iff_ne.mpr here, if_neg here]
    rw [same]
    exact later

theorem mem_seatsOnCell {key : String} {seat : ShadowSeat} :
    (key, seat) ∈ directory.seatsOnCell cellId ↔ directory.seatAt cellId key = some seat := by
  rw [seatsOnCell, seatAt, objectAt]
  cases directory.cells.get? cellId with
  | none => simp
  | some cursor =>
    rw [Option.bind_some, List.mem_filterMap]
    constructor
    · rintro ⟨entry, stored, found⟩
      obtain ⟨held, object, same⟩ := Option.map_eq_some_iff.mp found
      obtain ⟨rfl, rfl⟩ := Prod.mk.inj same
      rw [JsMap.get?_eq_some_iff.mpr stored, Option.bind_some, object]
    · intro found
      obtain ⟨object, stored, held⟩ := Option.bind_eq_some_iff.mp found
      exact ⟨(key, object), JsMap.get?_eq_some_iff.mp stored, by rw [held]; rfl⟩

def snapshotSeats (cellId incarnation : String) (now : Int) (full : List SeatFeedSeat) :
    JsMap String ShadowSeat :=
  JsMap.ofPairs (full.map fun seat =>
    (hostKey seat.userId seat.relayHostId, snapshotSeat cellId incarnation now seat))

theorem retables_replaceSeats (indexed : directory.Indexed)
    (listed : directory.cells.has cellId = true) (full : List SeatFeedSeat) (now : Int)
    (incarnation : String) :
    Retables cellId
      (fun key => ((snapshotSeats cellId incarnation now full).get? key).map ShadowSeat.view)
        directory (directory.replaceSeats cellId full now incarnation) := by
  let seats := snapshotSeats cellId incarnation now full
  let gone := (directory.seatsOnCell cellId).filter fun entry => ¬seats.has entry.1
  have left := retables_resyncSeats indexed cellId now gone
  have seated := retables_seats left.indexed ((left.has cellId).trans listed) seats.keys_nodup
  rw [left.own] at seated
  have same : (fun key => (seats.get? key).map ShadowSeat.view) = fun key =>
      ((seats.entries.lookup key).map ShadowSeat.view).or
        (if key ∈ gone.map Prod.fst then none else directory.tableOf cellId key) := by
    funext key
    show _ = ((seats.get? key).map ShadowSeat.view).or _
    cases found : seats.get? key with
    | some seat => rfl
    | none =>
      -- A seat the snapshot does not list is gone.
      rw [Option.map_none, Option.none_or]
      split
      · rfl
      case isFalse stays =>
        cases held : directory.seatAt cellId key with
        | none => rw [tableOf, held, Option.map_none]
        | some seat =>
          refine absurd (List.mem_map.mpr ⟨(key, seat), ?_, rfl⟩) stays
          refine List.mem_filter.mpr ⟨mem_seatsOnCell.mpr held, ?_⟩
          simp [JsMap.has, found]
  rw [show (fun key => ((snapshotSeats cellId incarnation now full).get? key).map
    ShadowSeat.view) = _ from same]
  exact left.trans seated

theorem retables_rememberLeavers (indexed : directory.Indexed) (cellId incarnation : String)
    (recentlyLeft : List SeatFeedLeaver) :
    Retables cellId (directory.tableOf cellId) directory
      (directory.rememberLeavers cellId incarnation recentlyLeft) := by
  have same : SameSeats directory (directory.rememberLeavers cellId incarnation recentlyLeft) := by
    unfold rememberLeavers
    induction recentlyLeft generalizing directory with
    | nil => exact ⟨rfl, rfl, rfl⟩
    | cons left rest ih =>
      rw [List.foldl_cons]
      simp only
      split
      · exact ih indexed
      · have remembered := sameSeats_rememberLeft directory
          (hostKey left.userId left.relayHostId)
          { cellId := cellId
            epoch := left.epoch
            generation := 0
            incarnation := some incarnation
            closeCode := left.closeCode
            resync := false
            time := left.time }
        have later := ih (indexed.retables_same remembered cellId).indexed
        exact ⟨later.cells.trans remembered.cells, later.hosts.trans remembered.hosts,
          later.objects.trans remembered.objects⟩
  exact indexed.retables_same same cellId

/-! ## Cursors and cells -/

structure KeepsTables (directory next : ShadowSeatDirectory) : Prop where
  indexed : next.Indexed
  tables : next.tableOf = directory.tableOf

theorem keepsTables_updateCursor (indexed : directory.Indexed) (cellId : String)
    {change : CellCursor → CellCursor} (seats : ∀ cursor, (change cursor).seats = cursor.seats) :
    KeepsTables directory (directory.updateCursor cellId change) := by
  obtain ⟨hosts, objects⟩ := updateCursor_frame directory cellId change
  have object : (directory.updateCursor cellId change).objectAt = directory.objectAt := by
    funext other key
    rw [objectAt_updateCursor]
    simp only [seats]
    split
    case isTrue same => rw [objectAt, same]
    case isFalse => rfl
  refine ⟨⟨?_, ?_, ?_⟩, ?_⟩
  · intro other key
    rw [object, ← indexed.same, indexedObject, hosts]
    rfl
  · rw [object, objects]
    exact indexed.bound
  · rw [object]
    exact indexed.distinct
  · funext other key
    rw [tableOf, tableOf, seatAt, seatAt, object, objects]

theorem objectAt_of_unlisted (unlisted : directory.cells.get? cellId = none) (key : String) :
    directory.objectAt cellId key = none := by
  rw [objectAt, unlisted, Option.bind_none]

theorem foldl_unindex (directory : ShadowSeatDirectory) (cellId : String) (keys : List String) :
    let left := keys.foldl (fun directory key => directory.unindex key cellId) directory
    left.cells = directory.cells ∧ left.objects = directory.objects ∧
      ∀ key otherId, left.indexedObject key otherId =
        if otherId = cellId ∧ key ∈ keys then none else directory.indexedObject key otherId := by
  induction keys generalizing directory with
  | nil => simp
  | cons first rest ih =>
    obtain ⟨cells, objects⟩ := unindex_frame directory first cellId
    obtain ⟨cells', objects', index⟩ := ih (directory.unindex first cellId)
    refine ⟨cells'.trans cells, objects'.trans objects, fun key otherId => ?_⟩
    rw [List.foldl_cons, index, indexedObject_unindex]
    by_cases same : otherId = cellId
    · by_cases here : key = first
      · simp [same, here]
      · simp [same, here]
    · simp [same]

def Forgotten (directory : ShadowSeatDirectory) (cellId : String) : Prop :=
  directory.positionOf cellId = none ∨ directory.positionOf cellId = some (none, none)

/-- Each cell keeps its cursor and its seats, or its cursor continues from nothing. -/
structure Forgets (directory next : ShadowSeatDirectory) : Prop where
  indexed : next.Indexed
  cells : ∀ cellId, Forgotten next cellId ∨
    (next.positionOf cellId = directory.positionOf cellId ∧
      next.tableOf cellId = directory.tableOf cellId)

theorem Forgets.refl (indexed : directory.Indexed) : Forgets directory directory :=
  ⟨indexed, fun _ => Or.inr ⟨rfl, rfl⟩⟩

theorem Forgets.trans {middle : ShadowSeatDirectory} (early : Forgets directory middle)
    (late : Forgets middle next) : Forgets directory next where
  indexed := late.indexed
  cells := by
    intro cellId
    rcases late.cells cellId with forgotten | ⟨position, table⟩
    · exact Or.inl forgotten
    rcases early.cells cellId with forgotten | ⟨position', table'⟩
    · rw [Forgotten, ← position] at forgotten
      exact Or.inl forgotten
    · exact Or.inr ⟨position.trans position', table.trans table'⟩

theorem forgets_foldl {Input : Type*} {step : ShadowSeatDirectory → Input → ShadowSeatDirectory}
    (forgets : ∀ directory input, directory.Indexed → Forgets directory (step directory input))
    (indexed : directory.Indexed) (inputs : List Input) :
    Forgets directory (inputs.foldl step directory) := by
  induction inputs generalizing directory with
  | nil => exact .refl indexed
  | cons input rest ih =>
    have first := forgets directory input indexed
    exact first.trans (ih first.indexed)

theorem forgets_dropCell (indexed : directory.Indexed) (cellId : String) :
    Forgets directory (directory.dropCell cellId) := by
  unfold dropCell
  split
  case h_1 => exact .refl indexed
  case h_2 cursor found =>
    obtain ⟨cells, objects, index⟩ := foldl_unindex directory cellId cursor.seats.keys
    generalize cursor.seats.keys.foldl (fun directory key => directory.unindex key cellId)
      directory = unindexed at cells objects index
    have object : ∀ other key,
        ({ unindexed with cells := unindexed.cells.delete cellId } :
          ShadowSeatDirectory).objectAt other key =
            if other = cellId then none else directory.objectAt other key := by
      intro other key
      rw [objectAt]
      simp only
      rw [JsMap.get?_delete, cells]
      split <;> rfl
    have position : ∀ other, ({ unindexed with cells := unindexed.cells.delete cellId } :
        ShadowSeatDirectory).positionOf other =
          if other = cellId then none else directory.positionOf other := by
      intro other
      rw [positionOf]
      simp only
      rw [JsMap.get?_delete, cells]
      split <;> rfl
    refine ⟨⟨?_, ?_, ?_⟩, fun other => ?_⟩
    · intro other key
      rw [object]
      show unindexed.indexedObject key other = _
      rw [index, indexed.same]
      by_cases same : other = cellId
      · subst same
        simp only [true_and, if_true]
        split
        · rfl
        case isFalse unheld =>
          rw [objectAt, found, Option.bind_some]
          exact JsMap.get?_eq_none_iff.mpr unheld
      · rw [if_neg (fun both => same both.1), if_neg same]
    · intro other key held found'
      rw [object] at found'
      split at found'
      · cases found'
      · show held < unindexed.objects.length
        rw [objects]
        exact indexed.bound other key held found'
    · intro first firstKey second secondKey held found' found''
      rw [object] at found' found''
      split at found'
      · cases found'
      split at found''
      · cases found''
      exact indexed.distinct first firstKey second secondKey held found' found''
    · by_cases same : other = cellId
      · exact Or.inl (Or.inl (by rw [position, if_pos same]))
      · refine Or.inr ⟨by rw [position, if_neg same], ?_⟩
        funext key
        rw [tableOf, tableOf, seatAt, seatAt, object, if_neg same]
        simp only
        rw [objects]

theorem forgets_addCell (indexed : directory.Indexed) (cellId : String) :
    Forgets directory (directory.addCell cellId) := by
  unfold addCell
  split
  case isTrue => exact .refl indexed
  case isFalse unlisted =>
    have absent : directory.cells.get? cellId = none := by
      simpa [JsMap.has] using unlisted
    have object : ({ directory with cells := directory.cells.set cellId .pending } :
        ShadowSeatDirectory).objectAt = directory.objectAt := by
      funext other key
      rw [objectAt]
      simp only
      rw [JsMap.get?_set]
      split
      case isTrue same =>
        rw [same, objectAt_of_unlisted absent]
        rfl
      case isFalse => rfl
    refine ⟨⟨?_, ?_, ?_⟩, fun other => ?_⟩
    · intro other key
      rw [object]
      exact indexed.same other key
    · rw [object]
      exact indexed.bound
    · rw [object]
      exact indexed.distinct
    · by_cases same : other = cellId
      · refine Or.inl (Or.inr ?_)
        rw [same, positionOf]
        simp only
        rw [JsMap.get?_set_self]
        rfl
      · refine Or.inr ⟨?_, ?_⟩
        · rw [positionOf, positionOf]
          simp only
          rw [JsMap.get?_set_of_ne _ _ same]
        · funext key
          rw [tableOf, tableOf, seatAt, seatAt, object]

theorem forgets_setCells (indexed : directory.Indexed) (cellIds required : List String) :
    Forgets directory (directory.setCells cellIds required) := by
  have listed : Forgets directory { directory with required := required.filter (· ∈ cellIds) } :=
    ⟨⟨indexed.same, indexed.bound, indexed.distinct⟩, fun _ => Or.inr ⟨rfl, rfl⟩⟩
  have dropped := forgets_foldl (fun _ cellId indexed => forgets_dropCell indexed cellId)
    listed.indexed
      (({ directory with required := required.filter (· ∈ cellIds) } :
        ShadowSeatDirectory).cells.keys.filter (· ∉ cellIds))
  have added := forgets_foldl (fun _ cellId indexed => forgets_addCell indexed cellId)
    dropped.indexed cellIds
  exact listed.trans (dropped.trans added)

theorem forgets_updateCursor (indexed : directory.Indexed) (cellId : String)
    {change : CellCursor → CellCursor} (seats : ∀ cursor, (change cursor).seats = cursor.seats)
    (position : (∀ cursor, (change cursor).incarnation = none ∧ (change cursor).seq = none) ∨
      ∀ cursor, (change cursor).incarnation = cursor.incarnation ∧
        (change cursor).seq = cursor.seq) :
    Forgets directory (directory.updateCursor cellId change) := by
  obtain ⟨indexed', tables⟩ := keepsTables_updateCursor indexed cellId seats
  refine ⟨indexed', fun other => ?_⟩
  have at_ := positionOf_updateCursor directory cellId other change
  by_cases same : other = cellId
  · subst same
    rw [if_pos rfl] at at_
    rcases position with none | kept
    · refine Or.inl ?_
      rw [Forgotten, at_]
      cases directory.cells.get? other with
      | none => exact Or.inl rfl
      | some cursor =>
        rw [Option.map_some, (none cursor).1, (none cursor).2]
        exact Or.inr rfl
    · refine Or.inr ⟨?_, congrFun tables other⟩
      rw [at_, positionOf]
      simp only [kept]
  · rw [if_neg same] at at_
    exact Or.inr ⟨at_, congrFun tables other⟩

theorem forgets_fail (indexed : directory.Indexed) (cellId reason : String) :
    Forgets directory (directory.fail cellId reason) :=
  forgets_updateCursor indexed cellId (fun _ => rfl) (Or.inr fun _ => ⟨rfl, rfl⟩)

theorem forgets_markNoFeed (indexed : directory.Indexed) (cellId : String) (now : Int)
    (runtimeIncarnation : Option String) :
    Forgets directory (directory.markNoFeed cellId now runtimeIncarnation) := by
  refine forgets_updateCursor indexed cellId (fun cursor => ?_) (Or.inl fun cursor => ?_)
  · simp only
    split <;> rfl
  · simp only
    split <;> exact ⟨rfl, rfl⟩

end OxeeUI.Relay.ShadowSeatDirectory
