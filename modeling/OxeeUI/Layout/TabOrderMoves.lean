import OxeeUI.Layout.TabOrder
import Mathlib.Data.List.InsertIdx
import Mathlib.Data.List.Sort

/-!
# Reordering one strip by moves

A window sends a reordered strip as moves of single tabs, each replayed by removing the tab and
inserting it again.  The settled prefix of the strip never changes while the moves go on.
-/

namespace OxeeUI.Layout

open OxeeUI.Library SplitTree

structure TabOrderMove where
  tabId : String
  index : Nat

/-- `[...ids].sort()`.  Any total order of the ids sorts equal members to equal lists. -/
def sortedIds (ids : List String) : List String := ids.mergeSort fun id other => id ≤ other

/-- `held.size === from.length`, and the held ids sort to the target's. -/
def holdsSameTabs (order target : List String) : Bool :=
  order.eraseDups.length = order.length ∧ sortedIds order.eraseDups = sortedIds target

/-- The first target slot whose tab, left out, makes both orders equal. -/
def singleTabMove (order target : List String) : Option TabOrderMove :=
  (target.zipIdx.find? fun slot =>
    order.filter (· ≠ slot.1) = target.filter (· ≠ slot.1)).map fun slot => ⟨slot.1, slot.2⟩

/-- One move for each slot that does not hold its tab yet, edited on the current order. -/
def misplacedTabMoves (index : Nat) (current : List String) : List String → List TabOrderMove
  | [] => []
  | tabId :: rest =>
    if current[index]? = some tabId then misplacedTabMoves (index + 1) current rest
    else
      ⟨tabId, index⟩ ::
        misplacedTabMoves (index + 1) ((current.erase tabId).insertIdx index tabId) rest

def tabOrderMoves (order target : List String) : List TabOrderMove :=
  if !holdsSameTabs order target then []
  else if order = target then []
  else
    match singleTabMove order target with
    | some move => [move]
    | none => misplacedTabMoves 0 order target

/-- A reader removes each move's tab and inserts it at the move's index. -/
def replayMoves (order : List String) (moves : List TabOrderMove) : List String :=
  moves.foldl (fun current move => insertTabAt current move.tabId move.index) order

/-! ## The guard -/

theorem sortedIds_eq_iff {ids others : List String} :
    sortedIds ids = sortedIds others ↔ ids.Perm others := by
  constructor
  · intro same
    have sorted : (sortedIds ids).Perm others := same ▸ List.mergeSort_perm others _
    exact (List.mergeSort_perm ids _).symm.trans sorted
  · intro perm
    have sorted (ids : List String) : (sortedIds ids).Pairwise (· ≤ ·) := by
      have pairs := @List.pairwise_mergeSort _ (fun id other : String => decide (id ≤ other))
        (fun id middle other => by simpa using le_trans)
        (fun id other => by simpa using le_total id other) ids
      exact pairs.imp of_decide_eq_true
    apply List.Perm.eq_of_pairwise (fun _ _ _ _ below above => le_antisymm below above)
      (sorted ids) (sorted others)
    exact ((List.mergeSort_perm ids _).trans perm).trans (List.mergeSort_perm others _).symm

theorem holdsSameTabs_iff {order target : List String} :
    holdsSameTabs order target = true ↔ order.Nodup ∧ order.Perm target := by
  unfold holdsSameTabs
  rw [decide_eq_true_eq, sortedIds_eq_iff]
  constructor
  · rintro ⟨sized, perm⟩
    have distinct : order.Nodup := nodup_of_length_eraseDups sized
    exact ⟨distinct, (dedupeTabOrder_perm distinct).symm.trans perm⟩
  · rintro ⟨distinct, perm⟩
    have deduped : order.eraseDups.Perm order := dedupeTabOrder_perm distinct
    exact ⟨deduped.length_eq, deduped.trans perm⟩

/-! ## The single move -/

theorem insertTabAt_index {target : List String} (distinct : target.Nodup) {index : Nat}
    (inside : index < target.length) :
    insertTabAt target target[index] index = target := by
  have others : target.filter (· ≠ target[index]) = target.eraseIdx index := by
    rw [filter_ne_eq_erase distinct, List.Nodup.erase_getElem distinct]
  have length : (target.eraseIdx index).length = target.length - 1 :=
    List.length_eraseIdx_of_lt inside
  have clamped : clampIndex index (target.eraseIdx index).length = index := by
    unfold clampIndex
    omega
  unfold insertTabAt
  rw [others]
  simp only [clamped]
  exact List.insertIdx_eraseIdx_getElem inside

theorem singleTabMove_replays {order target : List String} {move : TabOrderMove}
    (distinct : target.Nodup) (found : singleTabMove order target = some move) :
    insertTabAt order move.tabId move.index = target := by
  obtain ⟨⟨tabId, index⟩, first, rfl⟩ := Option.map_eq_some_iff.mp found
  have others := List.find?_some first
  have slot := List.mem_zipIdx_iff_getElem?.mp (List.mem_of_find?_eq_some first)
  obtain ⟨inside, at_slot⟩ := List.getElem?_eq_some_iff.mp slot
  dsimp only at inside at_slot others ⊢
  subst at_slot
  have same : insertTabAt order target[index] index = insertTabAt target target[index] index := by
    unfold insertTabAt
    rw [of_decide_eq_true others]
  exact same.trans (insertTabAt_index distinct inside)

theorem insertTabAt_others (order : List String) (tabId : String) (index : Int) :
    (insertTabAt order tabId index).filter (· ≠ tabId) = order.filter (· ≠ tabId) := by
  refine (filter_insertIdx (by simp) _ _).trans ?_
  simp only [List.filter_filter, Bool.and_self]

theorem singleTabMove_isSome (order : List String) (tabId : String) (index : Int) :
    (singleTabMove order (insertTabAt order tabId index)).isSome := by
  have inserted : tabId ∈ insertTabAt order tabId index :=
    (insertTabAt_perm order tabId index).symm.subset List.mem_cons_self
  obtain ⟨slot, inside, at_slot⟩ := List.mem_iff_getElem.mp inserted
  rw [singleTabMove, Option.isSome_map, List.find?_isSome]
  refine ⟨(tabId, slot), ?_, ?_⟩
  · rw [List.mem_zipIdx_iff_getElem?, List.getElem?_eq_getElem inside, at_slot]
  · simpa using (insertTabAt_others order tabId index).symm

theorem insertTabAt_perm_of_mem {order : List String} {tabId : String}
    (distinct : order.Nodup) (member : tabId ∈ order) (index : Int) :
    (insertTabAt order tabId index).Perm order := by
  refine (insertTabAt_perm order tabId index).trans ?_
  rw [filter_ne_eq_erase distinct]
  exact (List.perm_cons_erase member).symm

/-! ## Moves slot by slot -/

theorem insertTabAt_settled {settled unsettled : List String} {tabId : String}
    (distinct : (settled ++ unsettled).Nodup) (waiting : tabId ∈ unsettled) :
    insertTabAt (settled ++ unsettled) tabId settled.length =
      settled ++ tabId :: unsettled.erase tabId := by
  have fresh : tabId ∉ settled := fun member =>
    List.disjoint_of_nodup_append distinct member waiting
  have others : (settled ++ unsettled).filter (· ≠ tabId) = settled ++ unsettled.erase tabId := by
    rw [filter_ne_eq_erase distinct, List.erase_append_right unsettled fresh]
  have clamped : clampIndex settled.length (settled ++ unsettled.erase tabId).length =
      settled.length := by
    unfold clampIndex
    rw [List.length_append]
    omega
  unfold insertTabAt
  rw [others]
  simp only [clamped]
  exact insertIdx_length_append ..

theorem splice_settled {settled unsettled : List String} {tabId : String}
    (distinct : (settled ++ unsettled).Nodup) (waiting : tabId ∈ unsettled) :
    ((settled ++ unsettled).erase tabId).insertIdx settled.length tabId =
      settled ++ tabId :: unsettled.erase tabId := by
  have fresh : tabId ∉ settled := fun member =>
    List.disjoint_of_nodup_append distinct member waiting
  rw [List.erase_append_right unsettled fresh]
  exact insertIdx_length_append ..

/-- The settled slots hold the target's prefix, and the others its remaining tabs in any order. -/
theorem misplacedTabMoves_replays {rest : List String} :
    ∀ {settled unsettled : List String}, unsettled.Perm rest → (settled ++ unsettled).Nodup →
      replayMoves (settled ++ unsettled)
        (misplacedTabMoves settled.length (settled ++ unsettled) rest) = settled ++ rest := by
  induction rest with
  | nil =>
    intro settled unsettled perm _
    rw [perm.eq_nil]
    rfl
  | cons tabId rest ih =>
    intro settled unsettled perm distinct
    have waiting : tabId ∈ unsettled := perm.symm.subset List.mem_cons_self
    have slot : settled.length + 1 = (settled ++ [tabId]).length := by simp
    rw [misplacedTabMoves]
    split
    · next placed =>
      rw [List.getElem?_append_right le_rfl, Nat.sub_self] at placed
      cases unsettled with
      | nil => cases placed
      | cons first others =>
        obtain rfl : first = tabId := by simpa using placed
        rw [slot, List.append_cons, List.append_cons settled first rest]
        refine ih (List.perm_cons first |>.mp perm) ?_
        rwa [← List.append_cons]
    · have others : (unsettled.erase tabId).Perm rest := by
        simpa using perm.erase tabId
      have settles := insertTabAt_settled distinct waiting
      have reordered : (settled ++ tabId :: unsettled.erase tabId).Perm
          (settled ++ unsettled) :=
        (List.perm_cons_erase waiting).symm.append_left settled
      rw [splice_settled distinct waiting, replayMoves, List.foldl_cons, settles, slot,
        List.append_cons settled tabId rest]
      have distinct' := reordered.nodup_iff.mpr distinct
      rw [List.append_cons] at distinct' ⊢
      exact ih others distinct'

/-! ## The moves -/

theorem tabOrderMoves_of_held {order target : List String} (distinct : order.Nodup)
    (perm : order.Perm target) :
    tabOrderMoves order target =
      if order = target then []
      else
        match singleTabMove order target with
        | some move => [move]
        | none => misplacedTabMoves 0 order target := by
  rw [tabOrderMoves, holdsSameTabs_iff.mpr ⟨distinct, perm⟩]
  rfl

theorem replayMoves_tabOrderMoves {order target : List String} (distinct : order.Nodup)
    (perm : order.Perm target) : replayMoves order (tabOrderMoves order target) = target := by
  rw [tabOrderMoves_of_held distinct perm]
  split
  · next same => exact same
  · split
    · next found => exact singleTabMove_replays (perm.nodup_iff.mp distinct) found
    · have replayed : replayMoves ([] ++ order) (misplacedTabMoves 0 ([] ++ order) target) =
          [] ++ target := misplacedTabMoves_replays perm distinct
      exact replayed

theorem tabOrderMoves_relocated {order : List String} {tabId : String} {index : Int}
    (distinct : order.Nodup) (member : tabId ∈ order)
    (moved : insertTabAt order tabId index ≠ order) :
    ∃ move, tabOrderMoves order (insertTabAt order tabId index) = [move] := by
  have perm := (insertTabAt_perm_of_mem distinct member index).symm
  obtain ⟨move, found⟩ := Option.isSome_iff_exists.mp (singleTabMove_isSome order tabId index)
  refine ⟨move, ?_⟩
  rw [tabOrderMoves_of_held distinct perm, if_neg moved.symm, found]

theorem tabOrderMoves_refused {order target : List String}
    (refused : ¬(order.Nodup ∧ order.Perm target)) : tabOrderMoves order target = [] := by
  have unheld : holdsSameTabs order target = false := by
    rw [← Bool.not_eq_true, holdsSameTabs_iff]
    exact refused
  rw [tabOrderMoves, unheld]
  rfl

/-- The moves of an order replay to the target; a relocated tab is one move. -/
theorem tabOrderMoves_reach_target (order target : List String) :
    (order.Nodup → order.Perm target → replayMoves order (tabOrderMoves order target) = target) ∧
      (order.Nodup → target ≠ order →
        (∃ tabId ∈ order, ∃ index, target = insertTabAt order tabId index) →
          ∃ move, tabOrderMoves order target = [move]) ∧
      (¬(order.Nodup ∧ order.Perm target) → tabOrderMoves order target = []) := by
  refine ⟨replayMoves_tabOrderMoves, ?_, tabOrderMoves_refused⟩
  rintro distinct moved ⟨tabId, member, index, rfl⟩
  exact tabOrderMoves_relocated distinct member moved

theorem reordered_strips_reach_target :
    replayMoves ["a", "b", "c"] (tabOrderMoves ["a", "b", "c"] ["c", "b", "a"]) = ["c", "b", "a"] ∧
      (∃ move, tabOrderMoves ["a", "b", "c", "d"] ["b", "c", "a", "d"] = [move]) ∧
      tabOrderMoves ["a", "b"] ["b", "c"] = [] :=
  ⟨(tabOrderMoves_reach_target _ _).1 (by decide) (by decide),
    (tabOrderMoves_reach_target _ _).2.1 (by decide) (by decide)
      ⟨"a", by decide, 2, by decide⟩,
    (tabOrderMoves_reach_target _ _).2.2 (by decide)⟩

end OxeeUI.Layout
