import OxeeUI.Journal.QueuedMessageMove
import Mathlib.Data.List.Sort
import Mathlib.Data.List.Perm.Lattice
import Mathlib.Data.List.Perm.Subperm

/-!
# Undoing a move

After a move the cards are listed again by position.  Putting the moved card
back before the card that used to follow it gives every card its old position.
-/

namespace OxeeUI.Journal

open OxeeUI.Library

section AfterMoves

theorem moveCard_messageId (moves : List JournalQueueCardMove) (card : QueuedMessageRow) :
    (moveCard moves card).messageId = card.messageId := by
  unfold moveCard
  split
  · rfl
  · rfl

theorem moveCard_isUnsettled (moves : List JournalQueueCardMove) (card : QueuedMessageRow) :
    isUnsettledQueuedMessage (moveCard moves card) = isUnsettledQueuedMessage card := by
  unfold moveCard
  split
  · rfl
  · rfl

theorem messageIds_applyMoves (moves : List JournalQueueCardMove) (cards : List QueuedMessageRow) :
    messageIds (applyMoves moves cards) = messageIds cards := by
  unfold messageIds applyMoves
  rw [List.map_map]
  exact List.map_congr_left fun card _ => moveCard_messageId moves card

theorem filter_applyMoves (moves : List JournalQueueCardMove) (cards : List QueuedMessageRow)
    (keep : Bool → Bool) :
    (applyMoves moves cards).filter (fun card => keep (isUnsettledQueuedMessage card)) =
      applyMoves moves (cards.filter fun card => keep (isUnsettledQueuedMessage card)) := by
  unfold applyMoves
  rw [List.filter_map]
  congr 1
  exact List.filter_congr fun card _ => congrArg keep (moveCard_isUnsettled moves card)

end AfterMoves

section Applied

variable {cards order : List QueuedMessageRow} {input : QueuedMessageMoveInput}

theorem unsettled_perm_settled (cards : List QueuedMessageRow) :
    (cards.filter isUnsettledQueuedMessage ++
      cards.filter fun card => !isUnsettledQueuedMessage card).Perm cards :=
  List.filter_append_perm isUnsettledQueuedMessage cards

namespace Planned

theorem length (planned : Planned cards input order) :
    order.length = (cards.filter isUnsettledQueuedMessage).length :=
  planned.perm.length_eq

theorem distinct (planned : Planned cards input order) (distinct : (messageIds cards).Nodup) :
    (messageIds order).Nodup :=
  (planned.perm.map _).nodup_iff.mpr (unsettled_distinct distinct)

theorem settled (planned : Planned cards input order) (distinct : (messageIds cards).Nodup) :
    (applyMoves (queuedMessageMovePlan cards input).1 cards).filter
        (fun card => !isUnsettledQueuedMessage card) =
      cards.filter fun card => !isUnsettledQueuedMessage card := by
  rw [filter_applyMoves _ _ not, planned.moves]
  unfold applyMoves
  refine (List.map_congr_left fun card member => ?_).trans (List.map_id _)
  apply moveCard_of_not_mem
  intro inside
  obtain ⟨inCards, isSettled⟩ := List.mem_filter.mp member
  obtain ⟨other, inOrder, same⟩ := List.mem_map.mp inside
  obtain ⟨otherInCards, unsettled⟩ := List.mem_filter.mp (planned.perm.mem_iff.mp inOrder)
  have equal := messageId_injOn distinct otherInCards inCards same
  subst equal
  rw [unsettled] at isSettled
  cases isSettled

theorem unsettled (planned : Planned cards input order) (distinct : (messageIds cards).Nodup) :
    ((applyMoves (queuedMessageMovePlan cards input).1 cards).filter
      isUnsettledQueuedMessage).Perm (reslot order (cards.filter isUnsettledQueuedMessage)) := by
  have filtered := filter_applyMoves (queuedMessageMovePlan cards input).1 cards id
  simp only [id] at filtered
  rw [filtered, planned.moves, ← map_moveCard planned.length (planned.distinct distinct)]
  exact (planned.perm.map _).symm

end Planned

end Applied

section Listed

variable {cards : List QueuedMessageRow}

theorem position_order_total (first second : QueuedMessageRow) :
    first.position ≤ second.position ∨ second.position ≤ first.position :=
  le_total first.position second.position

def listByPosition (cards : List QueuedMessageRow) : List QueuedMessageRow :=
  cards.insertionSort fun first second => first.position ≤ second.position

theorem listByPosition_perm (cards : List QueuedMessageRow) : (listByPosition cards).Perm cards :=
  List.perm_insertionSort _ cards

theorem listByPosition_sorted (distinct : (cards.map QueuedMessageRow.position).Nodup) :
    (listByPosition cards).Pairwise fun first second => first.position < second.position := by
  have weak : (listByPosition cards).Pairwise fun first second => first.position ≤ second.position :=
    haveI : Std.Total fun first second : QueuedMessageRow => first.position ≤ second.position :=
      ⟨position_order_total⟩
    haveI : IsTrans QueuedMessageRow fun first second => first.position ≤ second.position :=
      ⟨fun _ _ _ => le_trans⟩
    List.pairwise_insertionSort _ cards
  have apart : (listByPosition cards).Pairwise fun first second =>
      first.position ≠ second.position :=
    List.pairwise_map.mp (((listByPosition_perm cards).map _).nodup_iff.mpr distinct)
  exact (weak.and apart).imp fun order => lt_of_le_of_ne order.1 order.2

theorem eq_of_perm_of_sorted {first second : List QueuedMessageRow} (perm : first.Perm second)
    (firstSorted : first.Pairwise fun one other => one.position < other.position)
    (secondSorted : second.Pairwise fun one other => one.position < other.position) :
    first = second := by
  refine perm.eq_of_pairwise (fun one other _ _ before after => ?_) firstSorted secondSorted
  exact absurd (before.trans after) (lt_irrefl _)

theorem sorted_of_positions {first second : List QueuedMessageRow}
    (same : first.map QueuedMessageRow.position = second.map QueuedMessageRow.position)
    (sorted : second.Pairwise fun one other => one.position < other.position) :
    first.Pairwise fun one other => one.position < other.position := by
  have positions : (second.map QueuedMessageRow.position).Pairwise (· < ·) :=
    List.pairwise_map.mpr sorted
  exact List.pairwise_map.mp (same ▸ positions)

end Listed

section After

variable (list : QueuedMessageList) (input : QueuedMessageMoveInput)

/-- The cards after a plan, in the order they had before. -/
def movedCards : List QueuedMessageRow :=
  applyMoves (queuedMessageMovePlan list.cards input).1 list.cards

theorem movedCards_positions : ((movedCards list input).map QueuedMessageRow.position).Perm
    (list.cards.map QueuedMessageRow.position) := by
  obtain ⟨order, planned⟩ := exists_planned list.distinct input
  have unsettled := (planned.unsettled list.distinct).map QueuedMessageRow.position
  rw [(reslot_spec planned.length).1] at unsettled
  have after := (unsettled_perm_settled (movedCards list input)).map QueuedMessageRow.position
  have before := (unsettled_perm_settled list.cards).map QueuedMessageRow.position
  rw [List.map_append] at after before
  unfold movedCards at after
  rw [planned.settled list.distinct] at after
  exact after.symm.trans ((unsettled.append_right _).trans before)

def movedList : QueuedMessageList where
  cards := listByPosition (movedCards list input)
  sorted := by
    apply listByPosition_sorted
    refine (movedCards_positions list input).nodup_iff.mpr ?_
    exact List.pairwise_map.mpr (list.sorted.imp fun before => ne_of_lt before)
  distinct := by
    refine ((listByPosition_perm _).map _).nodup_iff.mpr ?_
    have same := messageIds_applyMoves (queuedMessageMovePlan list.cards input).1 list.cards
    unfold messageIds at same
    unfold movedCards
    rw [same]
    exact list.distinct

theorem movedList_perm : (movedList list input).cards.Perm (movedCards list input) :=
  listByPosition_perm _

theorem movedList_unsettled {order : List QueuedMessageRow}
    (planned : Planned list.cards input order) :
    (movedList list input).cards.filter isUnsettledQueuedMessage =
      reslot order (list.cards.filter isUnsettledQueuedMessage) := by
  have perm := ((movedList_perm list input).filter isUnsettledQueuedMessage).trans
    (planned.unsettled list.distinct)
  apply eq_of_perm_of_sorted perm
  · exact (movedList list input).sorted.filter _
  · exact sorted_of_positions (reslot_spec planned.length).1 (list.sorted.filter _)

end After

section Undo

variable {cards order : List QueuedMessageRow}

/-- Where the old successor stands among the rest. -/
theorem index_undoAnchor {rest : List QueuedMessageRow} {front back : List String}
    (named : messageIds rest = front ++ back) (distinct : (messageIds rest).Nodup) :
    (AgentSessionQueuedMessageMoveAnchor.before back.head?).index? rest = some front.length := by
  cases back with
  | nil =>
    have length := congrArg List.length named
    rw [List.append_nil] at length
    unfold messageIds at length
    rw [List.length_map] at length
    exact congrArg some length
  | cons first back =>
    have member : first ∈ messageIds rest := by
      rw [named]
      simp
    obtain ⟨index, found⟩ := findIdx_of_mem member
    obtain ⟨before, card, after, rfl, cardNamed, length⟩ := findIdx_split found
    refine found.trans (congrArg some ?_)
    have split : messageIds before ++ first :: messageIds after = front ++ first :: back := by
      rw [← named]
      unfold messageIds
      rw [List.map_append, List.map_cons, cardNamed]
    rw [named] at distinct
    rw [← split] at distinct
    have absent : first ∉ messageIds after := by
      have tail := (List.nodup_append.mp distinct).2.1
      exact (List.nodup_cons.mp tail).1
    have absentBefore : first ∉ messageIds before :=
      fun inside => (List.nodup_append.mp distinct).2.2 _ inside _ List.mem_cons_self rfl
    have same := (List.append_cons_inj_of_notMem absentBefore absent).mp split
    rw [← length, ← same.1]
    unfold messageIds
    rw [List.length_map]

theorem messageIds_insertIdx {rest : List QueuedMessageRow} {front back : List String}
    (named : messageIds rest = front ++ back) (moving : QueuedMessageRow) :
    messageIds (rest.insertIdx front.length moving) = front ++ moving.messageId :: back := by
  induction front generalizing rest with
  | nil => exact congrArg (moving.messageId :: ·) named
  | cons first front ih =>
    cases rest with
    | nil => cases named
    | cons card rest =>
      unfold messageIds at named
      rw [List.map_cons, List.cons_append, List.cons.injEq] at named
      have tail := @ih rest named.2
      rw [List.length_cons, List.insertIdx_succ_cons]
      exact congrArg₂ List.cons named.1 tail

theorem reslot_congr {first second : List QueuedMessageRow}
    (same : first.map QueuedMessageRow.position = second.map QueuedMessageRow.position) :
    reslot order first = reslot order second := by
  induction order generalizing first second with
  | nil => rfl
  | cons card order ih =>
    cases first with
    | nil =>
      cases second with
      | nil => rfl
      | cons slot second => cases same
    | cons slot first =>
      cases second with
      | nil => cases same
      | cons other second =>
        rw [List.map_cons, List.map_cons, List.cons.injEq] at same
        unfold reslot
        rw [List.zipWith_cons_cons, List.zipWith_cons_cons, same.1]
        exact congrArg _ (ih same.2)

theorem mem_reslot {slots : List QueuedMessageRow} {card : QueuedMessageRow}
    (member : card ∈ reslot order slots) :
    ∃ old ∈ order, ∃ position, card = { old with position := position } := by
  unfold reslot at member
  obtain ⟨index, inside, here⟩ := List.mem_iff_getElem.mp member
  rw [List.getElem_zipWith] at here
  exact ⟨_, List.getElem_mem _, _, here.symm⟩

theorem reslot_of_messageIds {slots : List QueuedMessageRow}
    (named : messageIds order = messageIds slots)
    (same : ∀ card ∈ order, ∀ slot ∈ slots, card.messageId = slot.messageId →
      { card with position := slot.position } = slot) : reslot order slots = slots := by
  apply reslot_of_same
  induction order generalizing slots with
  | nil =>
    cases slots with
    | nil => exact List.Forall₂.nil
    | cons slot slots => cases named
  | cons card order ih =>
    cases slots with
    | nil => cases named
    | cons slot slots =>
      unfold messageIds at named
      rw [List.map_cons, List.map_cons, List.cons.injEq] at named
      refine List.Forall₂.cons (same card List.mem_cons_self slot List.mem_cons_self named.1) ?_
      exact ih named.2 fun other inOrder place inSlots =>
        same other (List.mem_cons_of_mem _ inOrder) place (List.mem_cons_of_mem _ inSlots)

theorem queuedMessageMovePlan_gone {input : QueuedMessageMoveInput}
    (absent : input.messageId ∉ messageIds (cards.filter isUnsettledQueuedMessage)) :
    queuedMessageMovePlan cards input = ([], .gone) := by
  have none : (cards.filter isUnsettledQueuedMessage).find?
      (fun card => card.messageId = input.messageId) = none := by
    apply List.find?_eq_none.mpr
    intro card member same
    rw [decide_eq_true_eq] at same
    exact absent (same ▸ List.mem_map_of_mem member)
  unfold queuedMessageMovePlan
  dsimp only
  rw [none]

theorem applyMoves_nil (cards : List QueuedMessageRow) : applyMoves [] cards = cards :=
  (List.map_congr_left fun _ _ => rfl).trans (List.map_id _)

theorem exists_find_of_mem {messageId : String} (member : messageId ∈ messageIds cards) :
    ∃ card, cards.find? (fun card => card.messageId = messageId) = some card := by
  obtain ⟨card, inside, named⟩ := List.mem_map.mp member
  rw [← Option.isSome_iff_exists, List.find?_isSome]
  exact ⟨card, inside, by simpa using named⟩

theorem filter_ne_of_not_mem {ids : List String} {messageId : String} (absent : messageId ∉ ids) :
    ids.filter (· ≠ messageId) = ids := by
  apply List.filter_eq_self.mpr
  intro other member
  rw [decide_eq_true_eq]
  exact fun same => absent (same ▸ member)

/-- Some second move gives every card its old position. -/
theorem exists_undo (list : QueuedMessageList) (input : QueuedMessageMoveInput) :
    ∃ back, (applyMoves (queuedMessageMovePlan (movedList list input).cards back).1
      (movedList list input).cards).Perm list.cards := by
  obtain ⟨order, planned⟩ := exists_planned list.distinct input
  have unsettledAfter := movedList_unsettled list input planned
  have idsAfter := (reslot_spec planned.length).2
  have idsPerm : (messageIds order).Perm
      (messageIds (list.cards.filter isUnsettledQueuedMessage)) := planned.perm.map _
  by_cases present : input.messageId ∈ messageIds (list.cards.filter isUnsettledQueuedMessage)
  · obtain ⟨front, back, split⟩ := List.append_of_mem present
    have slotsDistinct := unsettled_distinct list.distinct
    rw [split] at slotsDistinct
    have absentFront : input.messageId ∉ front :=
      fun inside => (List.nodup_append.mp slotsDistinct).2.2 _ inside _ List.mem_cons_self rfl
    have absentBack : input.messageId ∉ back :=
      (List.nodup_cons.mp (List.nodup_append.mp slotsDistinct).2.1).1
    have distinctAfter := unsettled_distinct (movedList list input).distinct
    have namedAfter : messageIds ((movedList list input).cards.filter isUnsettledQueuedMessage) =
        messageIds order := by
      rw [unsettledAfter]
      exact idsAfter
    -- the moved card as it is listed now
    have isThere : input.messageId ∈
        messageIds ((movedList list input).cards.filter isUnsettledQueuedMessage) := by
      rw [namedAfter]
      exact idsPerm.mem_iff.mpr present
    obtain ⟨moving, found⟩ := exists_find_of_mem isThere
    have member := List.mem_of_find?_eq_some found
    have named : moving.messageId = input.messageId := by
      have holds := List.find?_some found
      simpa using holds
    have rest : messageIds (((movedList list input).cards.filter isUnsettledQueuedMessage).filter
        (· ≠ moving)) = front ++ back := by
      rw [messageIds_filter_ne distinctAfter member, named, namedAfter, planned.others, split,
        List.filter_append, List.filter_cons_of_neg (by simp)]
      rw [filter_ne_of_not_mem absentFront, filter_ne_of_not_mem absentBack]
    have other : (AgentSessionQueuedMessageMoveAnchor.before back.head?).messageId? ≠
        some moving.messageId := by
      rw [named]
      intro same
      exact absentBack (List.mem_of_mem_head? same)
    have place := index_undoAnchor rest (by
      rw [messageIds_filter_ne distinctAfter member]
      exact distinctAfter.filter _)
    have undone := @planned_insertIdx (movedList list input).cards
      ⟨input.messageId, .before back.head?⟩ (movedList list input).distinct moving found other
      front.length place
    refine ⟨⟨input.messageId, .before back.head?⟩, ?_⟩
    have unsettled := undone.unsettled (movedList list input).distinct
    have settled := undone.settled (movedList list input).distinct
    -- each card back in its old slot
    have restored : reslot ((((movedList list input).cards.filter isUnsettledQueuedMessage).filter
        (· ≠ moving)).insertIdx front.length moving)
        ((movedList list input).cards.filter isUnsettledQueuedMessage) =
          list.cards.filter isUnsettledQueuedMessage := by
      have positions : ((movedList list input).cards.filter isUnsettledQueuedMessage).map
          QueuedMessageRow.position =
            (list.cards.filter isUnsettledQueuedMessage).map QueuedMessageRow.position := by
        rw [unsettledAfter]
        exact (reslot_spec planned.length).1
      rw [reslot_congr positions]
      apply reslot_of_messageIds
      · rw [messageIds_insertIdx rest, split, named]
      · intro card inside slot inSlots same
        have inAfter := undone.perm.mem_iff.mp inside
        rw [unsettledAfter] at inAfter
        obtain ⟨old, inOrder, position, rfl⟩ := mem_reslot inAfter
        have equal := messageId_injOn (unsettled_distinct list.distinct)
          (planned.perm.mem_iff.mp inOrder) inSlots same
        rw [equal]
    rw [restored] at unsettled
    have settledAfter : ((movedList list input).cards.filter
        fun card => !isUnsettledQueuedMessage card).Perm
          (list.cards.filter fun card => !isUnsettledQueuedMessage card) := by
      have listed := (movedList_perm list input).filter fun card => !isUnsettledQueuedMessage card
      unfold movedCards at listed
      rw [planned.settled list.distinct] at listed
      exact listed
    rw [← settled] at settledAfter
    exact (unsettled_perm_settled _).symm.trans
      ((unsettled.append settledAfter).trans (unsettled_perm_settled list.cards))
  · refine ⟨input, ?_⟩
    have still : movedCards list input = list.cards := by
      unfold movedCards
      rw [queuedMessageMovePlan_gone present, applyMoves_nil]
    have absent : input.messageId ∉
        messageIds ((movedList list input).cards.filter isUnsettledQueuedMessage) := by
      rw [unsettledAfter]
      unfold messageIds
      rw [idsAfter]
      exact fun inside => present (idsPerm.mem_iff.mp inside)
    rw [queuedMessageMovePlan_gone absent, applyMoves_nil, ← still]
    exact movedList_perm list input

end Undo

section Rows

variable {env : JournalEnvironment}

end Rows

section Permutes

def unsettledIds (cards : List QueuedMessageRow) : List String :=
  messageIds (cards.filter isUnsettledQueuedMessage)

theorem eq_of_messageIds {first second : List QueuedMessageRow}
    (named : messageIds first = messageIds second)
    (same : ∀ one ∈ first, ∀ other ∈ second, one.messageId = other.messageId → one = other) :
    first = second := by
  induction first generalizing second with
  | nil =>
    cases second with
    | nil => rfl
    | cons other second => cases named
  | cons one first ih =>
    cases second with
    | nil => cases named
    | cons other second =>
      unfold messageIds at named
      rw [List.map_cons, List.map_cons, List.cons.injEq] at named
      have head := same one List.mem_cons_self other List.mem_cons_self named.1
      have tail := ih named.2 fun one inFirst other inSecond =>
        same one (List.mem_cons_of_mem _ inFirst) other (List.mem_cons_of_mem _ inSecond)
      rw [head, tail]

theorem positions_eq_iff (list : QueuedMessageList) {slots order : List QueuedMessageRow}
    (within : slots.Sublist list.cards) (perm : order.Perm slots) :
    order.map QueuedMessageRow.position = slots.map QueuedMessageRow.position ↔
      messageIds order = messageIds slots := by
  have sorted := list.sorted.sublist within
  constructor
  · intro same
    rw [eq_of_perm_of_sorted perm (sorted_of_positions same sorted) sorted]
  · intro same
    have equal := eq_of_messageIds same fun one inOrder other inSlots =>
      messageId_injOn list.distinct (within.subset (perm.mem_iff.mp inOrder))
        (within.subset inSlots)
    rw [equal]

/-- A move of a queued message permutes the positions of the unsettled cards,
puts the card where its anchor says, and can be undone. -/
theorem queuedMessageMovePlan_permutes (list : QueuedMessageList) (input : QueuedMessageMoveInput) :
    let plan := queuedMessageMovePlan list.cards input
    let after := applyMoves plan.1 list.cards
    (after.filter (fun card => !isUnsettledQueuedMessage card) =
        list.cards.filter fun card => !isUnsettledQueuedMessage card) ∧
      ((after.filter isUnsettledQueuedMessage).map QueuedMessageRow.position).Perm
        ((list.cards.filter isUnsettledQueuedMessage).map QueuedMessageRow.position) ∧
      ∃ listed : QueuedMessageList, listed.cards.Perm after ∧
        (plan.2 ≠ .gone → plan.2 ≠ .stale →
          Reinserted input.anchor input.messageId (unsettledIds list.cards)
            (unsettledIds listed.cards)) ∧
        (plan.2 = .moved ↔ unsettledIds listed.cards ≠ unsettledIds list.cards) ∧
        ∃ back, (applyMoves (queuedMessageMovePlan listed.cards back).1 listed.cards).Perm
          list.cards := by
  intro plan after
  obtain ⟨order, planned⟩ := exists_planned list.distinct input
  have spec := reslot_spec planned.length
  have namedAfter : unsettledIds (movedList list input).cards = messageIds order := by
    unfold unsettledIds
    rw [movedList_unsettled list input planned]
    exact spec.2
  refine ⟨planned.settled list.distinct, ?_, movedList list input, movedList_perm list input,
    ?_, ?_, exists_undo list input⟩
  · have unsettled := (planned.unsettled list.distinct).map QueuedMessageRow.position
    rw [spec.1] at unsettled
    exact unsettled
  · intro present known
    rw [namedAfter]
    exact planned.reinserted present known
  · rw [planned.moved, planned.moves, Ne, queuedMessageMoves_eq_nil_iff planned.length, namedAfter,
      positions_eq_iff list List.filter_sublist planned.perm]
    rfl

end Permutes

end OxeeUI.Journal
