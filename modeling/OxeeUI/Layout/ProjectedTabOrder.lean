import OxeeUI.Layout.TabOrder
import OxeeUI.Library.LongestChain
import Mathlib.Data.List.Sort

/-!
# Reordering the drawn tabs

A window asks for an order of the tabs it draws.  The tabs it omits keep their places, the
longest chain of tabs already in that order stays, and only the others move.
-/

namespace OxeeUI.Layout

open OxeeUI.Library SplitTree

/-- `requestedOrder.filter((id) => currentIds.has(id))`. -/
def requestedIn (order requestedOrder : List String) : List String :=
  requestedOrder.filter (· ∈ order)

/-- `positions.get(id)`; a repeated id has its last index. -/
def positionOf (requested : List String) (id : String) : Option Nat :=
  requested.zipIdx.reverse.lookup id

def visibleTabs (order requested : List String) : List String :=
  order.filter fun id => (positionOf requested id).isSome

/-- The visible tabs that may stay, with their requested positions. -/
def anchorCandidates (order requested : List String) (movingTabId : String) :
    List (String × Nat) :=
  (visibleTabs order requested).filterMap fun id =>
    if id = movingTabId then none else (positionOf requested id).map (id, ·)

def reorderAnchors (order requested : List String) (movingTabId : String) : List String :=
  (longestChain Prod.snd (anchorCandidates order requested movingTabId)).map Prod.fst

/-- `result.splice(...)`, where a missing successor's index -1 counts from the end. -/
def insertBefore (result : List String) (id : String) : Option String → List String
  | none => result.insertIdx result.length id
  | some successor =>
    match result.idxOf? successor with
    | some index => result.insertIdx index id
    | none => result.insertIdx (result.length - 1) id

/-- The last requested tab goes first; every tab knows the one that follows it. -/
def placeRequested (anchors : List String) (requested : List String) (kept : List String) :
    List String × Option String :=
  requested.foldr (fun id placed =>
    (if id ∈ anchors then placed.1 else insertBefore placed.1 id placed.2, some id)) (kept, none)

def reorderProjectedTabOrder (order requestedOrder : List String) (movingTabId : String) :
    List String :=
  let requested := requestedIn order requestedOrder
  if (visibleTabs order requested).zipIdx.all fun slot => requested[slot.2]? = some slot.1 then
    order
  else
    let anchors := reorderAnchors order requested movingTabId
    let kept := order.filter fun id => (positionOf requested id).isNone || id ∈ anchors
    (placeRequested anchors requested kept).1

/-! ## Positions -/

theorem positionOf_eq_some_iff {requested : List String} (distinct : requested.Nodup)
    {id : String} {index : Nat} :
    positionOf requested id = some index ↔ requested[index]? = some id := by
  have pairs : ((requested.zipIdx.reverse).map Prod.fst).Nodup := by
    rw [List.map_reverse, List.nodup_reverse]
    simpa using distinct
  unfold positionOf
  rw [← List.mem_zipIdx_iff_getElem? (x := (id, index)), ← List.mem_reverse]
  exact ⟨JsMap.mem_of_lookup, JsMap.lookup_of_mem pairs⟩

theorem positionOf_isSome_iff {requested : List String} {id : String} :
    (positionOf requested id).isSome ↔ id ∈ requested := by
  unfold positionOf
  rw [Option.isSome_iff_ne_none, ne_eq, JsMap.lookup_eq_none_iff_not_mem, not_not,
    List.map_reverse, List.mem_reverse]
  simp

def placeOf (requested : List String) (id : String) : Nat := (positionOf requested id).getD 0

theorem pairwise_placeOf {requested : List String} (distinct : requested.Nodup) :
    requested.Pairwise (placeOf requested · < placeOf requested ·) := by
  have place (index : Nat) (inside : index < requested.length) :
      placeOf requested requested[index] = index := by
    rw [placeOf, (positionOf_eq_some_iff distinct).mpr (List.getElem?_eq_getElem inside)]
    rfl
  rw [List.pairwise_iff_getElem]
  intro index other inside otherInside before
  rwa [place, place]

theorem filter_mem_of_sublist {ids sub : List String} (distinct : ids.Nodup)
    (sublist : sub.Sublist ids) : ids.filter (· ∈ sub) = sub := by
  induction sublist with
  | slnil => rfl
  | @cons sub ids id sublist ih =>
    obtain ⟨fresh, distinct⟩ := List.nodup_cons.mp distinct
    have outside : id ∉ sub := fun member => fresh (sublist.subset member)
    rw [List.filter_cons_of_neg (by simpa using outside), ih distinct]
  | @cons_cons sub ids id sublist ih =>
    obtain ⟨fresh, distinct⟩ := List.nodup_cons.mp distinct
    rw [List.filter_cons_of_pos (by simp), ← ih distinct]
    congr 1
    refine List.filter_congr fun other member => ?_
    have different : other ≠ id := fun same => fresh (same ▸ member)
    simp [different, member]

theorem sublist_of_pairwise_placeOf {requested ids : List String} (distinct : requested.Nodup)
    (within : ids ⊆ requested)
    (increasing : ids.Pairwise (placeOf requested · < placeOf requested ·)) :
    ids.Sublist requested := by
  have idsDistinct : ids.Nodup :=
    increasing.imp fun less same => absurd (same ▸ less) (lt_irrefl _)
  have perm : (requested.filter (· ∈ ids)).Perm ids := by
    rw [List.perm_ext_iff_of_nodup (distinct.filter _) idsDistinct]
    intro id
    rw [List.mem_filter, decide_eq_true_eq]
    exact ⟨And.right, fun member => ⟨within member, member⟩⟩
  have same : requested.filter (· ∈ ids) = ids :=
    perm.eq_of_pairwise (fun _ _ _ _ below above => absurd below (lt_asymm above))
      ((pairwise_placeOf distinct).sublist List.filter_sublist) increasing
  rw [← same]
  exact List.filter_sublist

/-! ## Anchors -/

section Anchors

variable {order requested : List String} {movingTabId : String}

theorem mem_visibleTabs_iff {id : String} :
    id ∈ visibleTabs order requested ↔ id ∈ order ∧ id ∈ requested := by
  rw [visibleTabs, List.mem_filter, positionOf_isSome_iff]

theorem anchorCandidates_eq_map :
    anchorCandidates order requested movingTabId =
      ((visibleTabs order requested).filter (· ≠ movingTabId)).map
        fun id => (id, placeOf requested id) := by
  have general (ids : List String) (placed : ∀ id ∈ ids, id ∈ requested) :
      ids.filterMap (fun id =>
        if id = movingTabId then none else (positionOf requested id).map (id, ·)) =
      (ids.filter (· ≠ movingTabId)).map fun id => (id, placeOf requested id) := by
    induction ids with
    | nil => rfl
    | cons id rest ih =>
      have later := ih fun other member => placed other (List.mem_cons_of_mem _ member)
      obtain ⟨index, at_index⟩ := Option.isSome_iff_exists.mp
        (positionOf_isSome_iff.mpr (placed id List.mem_cons_self))
      by_cases moving : id = movingTabId
      · rw [List.filterMap_cons_none (by simp [moving]), later,
          List.filter_cons_of_neg (by simp [moving])]
      · rw [List.filterMap_cons_some (b := (id, index)) (by simp [moving, at_index]), later,
          List.filter_cons_of_pos (by simpa using moving), List.map_cons]
        simp [placeOf, at_index]
  exact general _ fun id member => (mem_visibleTabs_iff.mp member).2

theorem reorderAnchors_sublist_visible :
    (reorderAnchors order requested movingTabId).Sublist
      ((visibleTabs order requested).filter (· ≠ movingTabId)) := by
  have sub := (longestChain_sublist Prod.snd
    (anchorCandidates order requested movingTabId)).map Prod.fst
  have candidates : (anchorCandidates order requested movingTabId).map Prod.fst =
      (visibleTabs order requested).filter (· ≠ movingTabId) := by
    rw [anchorCandidates_eq_map, List.map_map]
    exact List.map_id' _
  rwa [candidates] at sub

theorem reorderAnchors_sublist_requested (distinct : requested.Nodup) :
    (reorderAnchors order requested movingTabId).Sublist requested := by
  have candidates := longestChain_sublist Prod.snd
    (anchorCandidates order requested movingTabId)
  have increasing := longestChain_increasing Prod.snd
    (anchorCandidates order requested movingTabId)
  apply sublist_of_pairwise_placeOf distinct
  · intro id member
    have visible := reorderAnchors_sublist_visible.subset member
    exact (mem_visibleTabs_iff.mp (List.mem_of_mem_filter visible)).2
  · rw [reorderAnchors, List.pairwise_map]
    refine increasing.imp_of_mem fun {first second} firstMember secondMember less => ?_
    have place (candidate : String × Nat)
        (member : candidate ∈ anchorCandidates order requested movingTabId) :
        placeOf requested candidate.1 = candidate.2 := by
      rw [anchorCandidates_eq_map] at member
      obtain ⟨id, _, rfl⟩ := List.mem_map.mp member
      rfl
    rwa [place _ (candidates.subset firstMember), place _ (candidates.subset secondMember)]

theorem length_le_reorderAnchors (distinct : requested.Nodup) {others : List String}
    (visible : others.Sublist ((visibleTabs order requested).filter (· ≠ movingTabId)))
    (inOrder : others.Sublist requested) :
    others.length ≤ (reorderAnchors order requested movingTabId).length := by
  have sub : (others.map fun id => (id, placeOf requested id)).Sublist
      (anchorCandidates order requested movingTabId) := by
    rw [anchorCandidates_eq_map]
    exact visible.map _
  have increasing : (others.map fun id => (id, placeOf requested id)).Pairwise
      (Prod.snd · < Prod.snd ·) := by
    rw [List.pairwise_map]
    exact (pairwise_placeOf distinct).sublist inOrder
  simpa [reorderAnchors] using length_le_longestChain sub increasing

end Anchors

/-! ## Placing the others -/

section Placing

variable {order requested anchors kept : List String}

/-- What holds once a suffix of the request is placed. -/
structure Placed (requested anchors kept waiting placed : List String) (result : List String) :
    Prop where
  visible : result.filter (· ∈ requested) = waiting.filter (· ∈ anchors) ++ placed
  fixed : result.filter (fun id => id ∉ requested ∨ id ∈ anchors) = kept

theorem insertBefore_none (result : List String) (id : String) :
    insertBefore result id none = result ++ [id] :=
  List.insertIdx_length_self

theorem insertBefore_some {result : List String} {successor : String}
    (present : successor ∈ result) (id : String) :
    ∃ front back, result = front ++ successor :: back ∧
      insertBefore result id (some successor) = front ++ id :: successor :: back := by
  obtain ⟨front, back, rfl, first⟩ := List.eq_append_cons_of_mem present
  refine ⟨front, back, rfl, ?_⟩
  have index : (front ++ successor :: back).idxOf? successor = some front.length := by
    rw [List.idxOf?, List.findIdx?_eq_some_iff_getElem]
    refine ⟨by simp, by simp, ?_⟩
    intro earlier before
    rw [List.getElem_append_left before]
    intro same
    exact first (eq_of_beq same ▸ List.getElem_mem before)
  rw [insertBefore, index]
  exact insertIdx_length_append ..

/-- One more requested tab is placed in front of those placed already. -/
theorem Placed.step {waiting placed result : List String} {id : String}
    (distinct : requested.Nodup) (parts : requested = waiting ++ id :: placed)
    (before : Placed requested anchors kept (waiting ++ [id]) placed result) :
    Placed requested anchors kept waiting (id :: placed)
      (if id ∈ anchors then result else insertBefore result id placed.head?) := by
  have member : id ∈ requested := by simp [parts]
  obtain ⟨visible, fixed⟩ := before
  split
  · next anchor =>
    refine ⟨?_, fixed⟩
    simpa [List.filter_append, anchor] using visible
  · next moves =>
    rw [List.filter_append, List.filter_cons_of_neg (by simpa using moves), List.filter_nil,
      List.append_nil] at visible
    cases placed with
    | nil =>
      rw [List.head?_nil, insertBefore_none]
      refine ⟨?_, ?_⟩
      · simpa [List.filter_append, member] using visible
      · simpa [List.filter_append, member, moves] using fixed
    | cons successor placed =>
      have present : successor ∈ result := by
        have listed : successor ∈ result.filter (· ∈ requested) := by simp [visible]
        exact List.mem_of_mem_filter listed
      have requestedSuccessor : successor ∈ requested := by simp [parts]
      obtain ⟨front, back, rfl, inserted⟩ := insertBefore_some present id
      rw [List.head?_cons, inserted]
      -- the successor occurs once in the request, so it cuts both orders at one place
      have cut : waiting.filter (· ∈ anchors) = front.filter (· ∈ requested) ∧
          placed = back.filter (· ∈ requested) := by
        rw [parts] at distinct
        have once : successor ∉ waiting ∧ successor ∉ placed := by
          rw [List.append_cons] at distinct
          have tail := List.nodup_cons.mp distinct.of_append_right
          refine ⟨fun early => ?_, tail.1⟩
          exact List.disjoint_of_nodup_append distinct (List.mem_append_left _ early)
            List.mem_cons_self
        have aligned : waiting.filter (· ∈ anchors) ++ successor :: placed =
            front.filter (· ∈ requested) ++ successor :: back.filter (· ∈ requested) := by
          rw [← visible]
          simp [List.filter_append, requestedSuccessor]
        obtain ⟨left, _, right⟩ := (List.append_cons_inj_of_notMem
          (fun inside => once.1 (List.mem_of_mem_filter inside)) once.2).mp aligned
        exact ⟨left, right⟩
      refine ⟨?_, ?_⟩
      · rw [cut.1, cut.2]
        simp [List.filter_append, member, requestedSuccessor]
      · simpa [List.filter_append, List.filter_cons, member, moves] using fixed

theorem placeRequested_placed (distinct : requested.Nodup)
    (start : Placed requested anchors kept requested [] kept) (placed : List String) :
    ∀ waiting, requested = waiting ++ placed →
      Placed requested anchors kept waiting placed (placeRequested anchors placed kept).1 ∧
        (placeRequested anchors placed kept).2 = placed.head? := by
  induction placed with
  | nil =>
    intro waiting parts
    rw [List.append_nil] at parts
    subst parts
    exact ⟨start, rfl⟩
  | cons id placed ih =>
    intro waiting parts
    obtain ⟨before, successor⟩ := ih (waiting ++ [id]) (by simpa using parts)
    refine ⟨?_, rfl⟩
    have after := before.step distinct parts
    rw [← successor] at after
    exact after

end Placing

/-! ## The reordered tabs -/

section Reordered

variable {order requestedOrder : List String}

theorem mem_requestedIn_iff {id : String} :
    id ∈ requestedIn order requestedOrder ↔ id ∈ requestedOrder ∧ id ∈ order := by
  simp [requestedIn]

theorem nodup_requestedIn (requestedDistinct : requestedOrder.Nodup) :
    (requestedIn order requestedOrder).Nodup :=
  requestedDistinct.filter _

theorem visibleTabs_perm (distinct : order.Nodup) (requestedDistinct : requestedOrder.Nodup) :
    (visibleTabs order (requestedIn order requestedOrder)).Perm
      (requestedIn order requestedOrder) := by
  have visibleNodup : (visibleTabs order (requestedIn order requestedOrder)).Nodup :=
    distinct.filter _
  rw [List.perm_ext_iff_of_nodup visibleNodup (nodup_requestedIn requestedDistinct)]
  intro id
  rw [mem_visibleTabs_iff]
  exact ⟨And.right, fun member => ⟨(mem_requestedIn_iff.mp member).2, member⟩⟩

theorem visibleTabs_eq_filter (requested : List String) :
    visibleTabs order requested = order.filter (· ∈ requested) := by
  unfold visibleTabs
  refine List.filter_congr fun id _ => ?_
  rw [Bool.eq_iff_iff, positionOf_isSome_iff, decide_eq_true_eq]

theorem visibleTabs_eq_of_unchanged (distinct : order.Nodup)
    (requestedDistinct : requestedOrder.Nodup)
    (unchanged : (visibleTabs order (requestedIn order requestedOrder)).zipIdx.all
      fun slot => (requestedIn order requestedOrder)[slot.2]? = some slot.1) :
    visibleTabs order (requestedIn order requestedOrder) = requestedIn order requestedOrder := by
  have length := (visibleTabs_perm distinct requestedDistinct).length_eq
  apply List.ext_getElem length
  intro index inside insideRequested
  have slot := List.all_eq_true.mp unchanged
    ((visibleTabs order (requestedIn order requestedOrder))[index], index)
    (List.mem_zipIdx_iff_getElem?.mpr (List.getElem?_eq_getElem inside))
  have same := of_decide_eq_true slot
  rw [List.getElem?_eq_getElem insideRequested] at same
  exact (Option.some.inj same).symm

/-- The placed tabs: the request in its order, and what stays where it was. -/
structure Reordered (order requested anchors result : List String) : Prop where
  visible : result.filter (· ∈ requested) = requested
  fixed : result.filter (fun id => id ∉ requested ∨ id ∈ anchors) =
    order.filter fun id => id ∉ requested ∨ id ∈ anchors

theorem reorderProjectedTabOrder_reordered (distinct : order.Nodup)
    (requestedDistinct : requestedOrder.Nodup) (movingTabId : String) :
    Reordered order (requestedIn order requestedOrder)
      (reorderAnchors order (requestedIn order requestedOrder) movingTabId)
      (reorderProjectedTabOrder order requestedOrder movingTabId) := by
  set requested := requestedIn order requestedOrder with requested_eq
  set anchors := reorderAnchors order requested movingTabId with anchors_eq
  have requestedNodup : requested.Nodup := nodup_requestedIn requestedDistinct
  rw [reorderProjectedTabOrder, ← requested_eq]
  dsimp only
  split
  · next unchanged =>
    have visible := visibleTabs_eq_of_unchanged distinct requestedDistinct unchanged
    rw [← requested_eq, visibleTabs_eq_filter] at visible
    exact ⟨visible, rfl⟩
  · rw [← anchors_eq]
    set kept := order.filter fun id => (positionOf requested id).isNone || id ∈ anchors
      with kept_eq
    have kept_eq' : kept = order.filter fun id => id ∉ requested ∨ id ∈ anchors := by
      refine List.filter_congr fun id _ => ?_
      rw [Bool.eq_iff_iff, Bool.or_eq_true, Option.isNone_iff_eq_none,
        ← Option.not_isSome_iff_eq_none, positionOf_isSome_iff]
      simp
    have inOrder : anchors.Sublist order :=
      (reorderAnchors_sublist_visible.trans List.filter_sublist).trans List.filter_sublist
    have inRequested : anchors.Sublist requested :=
      reorderAnchors_sublist_requested requestedNodup
    have start : Placed requested anchors kept requested [] kept := by
      refine ⟨?_, ?_⟩
      · rw [List.append_nil, filter_mem_of_sublist requestedNodup inRequested, kept_eq',
          List.filter_filter]
        refine Eq.trans (List.filter_congr fun id _ => ?_) (filter_mem_of_sublist distinct inOrder)
        have listed : id ∈ anchors → id ∈ requested := fun member => inRequested.subset member
        by_cases anchor : id ∈ anchors
        · simp [anchor, listed anchor]
        · by_cases asked : id ∈ requested <;> simp [anchor, asked]
      · rw [kept_eq', List.filter_filter]
        simp
    obtain ⟨⟨visible, fixed⟩, _⟩ :=
      placeRequested_placed requestedNodup start requested [] rfl
    exact ⟨by simpa using visible, fixed.trans kept_eq'⟩

theorem Reordered.hidden {requested anchors result : List String}
    (reordered : Reordered order requested anchors result) :
    result.filter (· ∉ requested) = order.filter (· ∉ requested) := by
  have narrowed (ids : List String) : ids.filter (· ∉ requested) =
      (ids.filter fun id => id ∉ requested ∨ id ∈ anchors).filter (· ∉ requested) := by
    rw [List.filter_filter]
    refine List.filter_congr fun id _ => ?_
    by_cases asked : id ∈ requested <;> simp [asked]
  rw [narrowed result, reordered.fixed, ← narrowed order]

theorem Reordered.perm {anchors result : List String} (distinct : order.Nodup)
    (requestedDistinct : requestedOrder.Nodup)
    (reordered : Reordered order (requestedIn order requestedOrder) anchors result) :
    result.Perm order := by
  have parts (ids : List String) : (ids.filter (· ∈ requestedIn order requestedOrder) ++
      ids.filter (· ∉ requestedIn order requestedOrder)).Perm ids := by
    simpa using List.filter_append_perm (· ∈ requestedIn order requestedOrder) ids
  refine (parts result).symm.trans (List.Perm.trans ?_ (parts order))
  rw [reordered.visible, reordered.hidden]
  refine List.Perm.append_right _ ?_
  rw [← visibleTabs_eq_filter]
  exact (visibleTabs_perm distinct requestedDistinct).symm

/-- The visible tabs that a reorder may leave in place. -/
def stayCandidates (order requestedOrder : List String) (movingTabId : String) : List String :=
  order.filter fun id => id ∈ requestedOrder ∧ id ≠ movingTabId

theorem stayCandidates_eq (order requestedOrder : List String) (movingTabId : String) :
    stayCandidates order requestedOrder movingTabId =
      (visibleTabs order (requestedIn order requestedOrder)).filter (· ≠ movingTabId) := by
  rw [visibleTabs_eq_filter, List.filter_filter, stayCandidates]
  refine List.filter_congr fun id member => ?_
  rw [Bool.eq_iff_iff, Bool.and_eq_true, decide_eq_true_eq, decide_eq_true_eq, decide_eq_true_eq,
    mem_requestedIn_iff]
  exact ⟨fun holds => ⟨holds.2, holds.1, member⟩, fun holds => ⟨holds.2.1, holds.1⟩⟩

theorem length_le_reorderAnchors_of_stay {movingTabId : String} {target stay : List String}
    (distinct : order.Nodup) (requestedDistinct : requestedOrder.Nodup)
    (inOrder : target.filter (· ∈ requestedOrder) = requestedIn order requestedOrder)
    (stayDistinct : stay.Nodup) (within : stay ⊆ stayCandidates order requestedOrder movingTabId)
    (stays : target.filter (· ∈ stay) = order.filter (· ∈ stay)) :
    stay.length ≤
      (reorderAnchors order (requestedIn order requestedOrder) movingTabId).length := by
  have asked (id : String) (member : id ∈ stay) : id ∈ requestedOrder ∧ id ≠ movingTabId :=
    of_decide_eq_true (List.mem_filter.mp (within member)).2
  have perm : (order.filter (· ∈ stay)).Perm stay := by
    rw [List.perm_ext_iff_of_nodup (distinct.filter _) stayDistinct]
    intro id
    rw [List.mem_filter, decide_eq_true_eq]
    exact ⟨And.right, fun member => ⟨List.mem_of_mem_filter (within member), member⟩⟩
  rw [← perm.length_eq]
  apply length_le_reorderAnchors (nodup_requestedIn requestedDistinct)
  · rw [← stayCandidates_eq, stayCandidates]
    refine List.monotone_filter_right order fun id member => ?_
    exact decide_eq_true (asked id (of_decide_eq_true member))
  · rw [← stays]
    have narrowed : target.filter (· ∈ stay) =
        (target.filter (· ∈ requestedOrder)).filter (· ∈ stay) := by
      rw [List.filter_filter]
      refine List.filter_congr fun id _ => ?_
      by_cases member : id ∈ stay
      · simp [member, (asked id member).1]
      · simp [member]
    rw [narrowed, inOrder]
    exact List.filter_sublist

/-- A reorder keeps the omitted tabs and a longest chain of the drawn ones where they were. -/
theorem reorderProjectedTabOrder_moves_fewest (order requestedOrder : List String)
    (movingTabId : String) (distinct : order.Nodup) (requestedDistinct : requestedOrder.Nodup) :
    (reorderProjectedTabOrder order requestedOrder movingTabId).Perm order ∧
      (reorderProjectedTabOrder order requestedOrder movingTabId).filter (· ∈ requestedOrder) =
        requestedIn order requestedOrder ∧
      (reorderProjectedTabOrder order requestedOrder movingTabId).filter (· ∉ requestedOrder) =
        order.filter (· ∉ requestedOrder) ∧
      ∃ anchors,
        anchors = reorderAnchors order (requestedIn order requestedOrder) movingTabId ∧
        (reorderProjectedTabOrder order requestedOrder movingTabId).filter
          (fun id => id ∉ requestedOrder ∨ id ∈ anchors) =
            order.filter (fun id => id ∉ requestedOrder ∨ id ∈ anchors) ∧
        anchors.Sublist (stayCandidates order requestedOrder movingTabId) ∧
        anchors.Sublist requestedOrder ∧
        (∀ others : List String,
          others.Sublist (stayCandidates order requestedOrder movingTabId) →
          others.Sublist requestedOrder → others.length ≤ anchors.length) ∧
        ∀ target stay : List String,
          target.filter (· ∈ requestedOrder) = requestedIn order requestedOrder → stay.Nodup →
          stay ⊆ stayCandidates order requestedOrder movingTabId →
          target.filter (· ∈ stay) = order.filter (· ∈ stay) → stay.length ≤ anchors.length := by
  have reordered := reorderProjectedTabOrder_reordered distinct requestedDistinct movingTabId
  have perm := reordered.perm distinct requestedDistinct
  set result := reorderProjectedTabOrder order requestedOrder movingTabId
  have asked (ids : List String) (within : ids ⊆ order) (anchors : List String) :
      ids.filter (fun id => id ∉ requestedOrder ∨ id ∈ anchors) =
        ids.filter (fun id => id ∉ requestedIn order requestedOrder ∨ id ∈ anchors) ∧
      ids.filter (· ∈ requestedOrder) = ids.filter (· ∈ requestedIn order requestedOrder) ∧
      ids.filter (· ∉ requestedOrder) = ids.filter (· ∉ requestedIn order requestedOrder) := by
    have same (id : String) (member : id ∈ ids) :
        (id ∈ requestedOrder) = (id ∈ requestedIn order requestedOrder) := by
      rw [mem_requestedIn_iff, eq_iff_iff]
      exact ⟨fun listed => ⟨listed, within member⟩, And.left⟩
    refine ⟨?_, ?_, ?_⟩ <;>
      exact List.filter_congr fun id member => by simp only [same id member]
  refine ⟨perm, ?_, ?_, _, rfl, ?_, ?_, ?_, ?_, ?_⟩
  · rw [(asked result perm.subset []).2.1]
    exact reordered.visible
  · rw [(asked result perm.subset []).2.2, (asked order (List.Subset.refl _) []).2.2]
    exact reordered.hidden
  · rw [(asked result perm.subset _).1, (asked order (List.Subset.refl _) _).1]
    exact reordered.fixed
  · rw [stayCandidates_eq]
    exact reorderAnchors_sublist_visible
  · exact (reorderAnchors_sublist_requested (nodup_requestedIn requestedDistinct)).trans
      List.filter_sublist
  · intro others sub inOrder
    have among (id : String) (member : id ∈ others) : id ∈ order :=
      List.mem_of_mem_filter (sub.subset member)
    rw [stayCandidates_eq] at sub
    refine length_le_reorderAnchors (nodup_requestedIn requestedDistinct) sub ?_
    have kept : others.filter (· ∈ order) = others :=
      List.filter_eq_self.mpr fun id member => decide_eq_true (among id member)
    rw [← kept]
    exact inOrder.filter _
  · intro target stay inOrder stayDistinct within stays
    exact length_le_reorderAnchors_of_stay distinct requestedDistinct inOrder stayDistinct within
      stays

theorem dragged_tab_moves_alone :
    reorderProjectedTabOrder ["a", "x", "b", "c", "d"] ["d", "a", "b", "c"] "d" =
        ["d", "a", "x", "b", "c"] ∧
      (reorderProjectedTabOrder ["a", "x", "b", "c", "d"] ["d", "a", "b", "c"] "d").Perm
        ["a", "x", "b", "c", "d"] :=
  ⟨by decide, (reorderProjectedTabOrder_moves_fewest ["a", "x", "b", "c", "d"]
    ["d", "a", "b", "c"] "d" (by decide) (by decide)).1⟩

end Reordered

end OxeeUI.Layout
