import OxeeUI.Journal.QueueFold
import Mathlib.Data.List.Perm.Basic
import Mathlib.Data.List.Sort

/-!
# Moving a queued message

A move permutes the positions of the unsettled cards: the moving card is taken
out and put in next to its anchor, and the cards take the old positions slot by
slot.
-/

namespace OxeeUI.Journal

open OxeeUI.Library

def isUnsettledQueuedMessage (card : QueuedMessageRow) : Bool :=
  card.state = .waiting || card.state = .returned

/-- A neighbor by its id; `before none` is the end. -/
inductive AgentSessionQueuedMessageMoveAnchor where
  | before (messageId : Option String)
  | after (messageId : String)

structure QueuedMessageMoveInput where
  messageId : String
  anchor : AgentSessionQueuedMessageMoveAnchor

inductive QueuedMessageMoveStatus where
  | moved
  | unchanged
  | gone
  | stale

/-- A `moved` change of a card. -/
structure JournalQueueCardMove where
  messageId : String
  position : Int

namespace AgentSessionQueuedMessageMoveAnchor

def messageId? : AgentSessionQueuedMessageMoveAnchor → Option String
  | .before messageId => messageId
  | .after messageId => some messageId

def index? (anchor : AgentSessionQueuedMessageMoveAnchor) (rest : List QueuedMessageRow) :
    Option Nat :=
  match anchor with
  | .before none => some rest.length
  | .before (some messageId) => rest.findIdx? fun card => card.messageId = messageId
  | .after messageId => (rest.findIdx? fun card => card.messageId = messageId).map (· + 1)

end AgentSessionQueuedMessageMoveAnchor

/-- The cards that get another position, and which. -/
def queuedMessageMoves (slots order : List QueuedMessageRow) : List JournalQueueCardMove :=
  (order.zip slots).filterMap fun (card, slot) =>
    if slot.position = card.position then none else some ⟨card.messageId, slot.position⟩

def queuedMessageMovePlan (cards : List QueuedMessageRow) (input : QueuedMessageMoveInput) :
    List JournalQueueCardMove × QueuedMessageMoveStatus :=
  let unsettled := cards.filter isUnsettledQueuedMessage
  match unsettled.find? fun card => card.messageId = input.messageId with
  | none => ([], .gone)
  | some moving =>
    if input.anchor.messageId? = some moving.messageId then ([], .unchanged)
    else
      let rest := unsettled.filter (· ≠ moving)
      match input.anchor.index? rest with
      | none => ([], .stale)
      | some index =>
        let changes := queuedMessageMoves unsettled (rest.insertIdx index moving)
        (changes, if changes = [] then .unchanged else .moved)

def moveCard (moves : List JournalQueueCardMove) (card : QueuedMessageRow) : QueuedMessageRow :=
  match moves.find? fun move => move.messageId = card.messageId with
  | none => card
  | some move => { card with position := move.position }

def applyMoves (moves : List JournalQueueCardMove) (cards : List QueuedMessageRow) :
    List QueuedMessageRow := cards.map (moveCard moves)

/-- The cards of a queue as they are listed: by position, each message once. -/
structure QueuedMessageList where
  cards : List QueuedMessageRow
  sorted : cards.Pairwise fun first second => first.position < second.position
  distinct : (cards.map QueuedMessageRow.messageId).Nodup

section Slots

variable {slots order cards : List QueuedMessageRow}

def reslot (order slots : List QueuedMessageRow) : List QueuedMessageRow :=
  List.zipWith (fun card slot => { card with position := slot.position }) order slots

theorem moveCard_cons_of_ne {move : JournalQueueCardMove} {moves : List JournalQueueCardMove}
    {card : QueuedMessageRow} (different : move.messageId ≠ card.messageId) :
    moveCard (move :: moves) card = moveCard moves card := by
  unfold moveCard
  rw [List.find?_cons_of_neg (by simpa using different)]

theorem messageId_mem_of_move {move : JournalQueueCardMove}
    (member : move ∈ queuedMessageMoves slots order) :
    move.messageId ∈ order.map QueuedMessageRow.messageId := by
  obtain ⟨⟨card, slot⟩, inZip, made⟩ := List.mem_filterMap.mp member
  dsimp only at made
  split at made
  · cases made
  · cases made
    exact List.mem_map_of_mem (List.of_mem_zip inZip).1

theorem moveCard_of_not_mem {card : QueuedMessageRow}
    (absent : card.messageId ∉ order.map QueuedMessageRow.messageId) :
    moveCard (queuedMessageMoves slots order) card = card := by
  unfold moveCard
  have none : (queuedMessageMoves slots order).find? (fun move => move.messageId = card.messageId) =
      none := by
    rw [List.find?_eq_none]
    intro move member same
    rw [decide_eq_true_eq] at same
    exact absent (same ▸ messageId_mem_of_move member)
  rw [none]

/-- Slot by slot, the cards of the order take the positions of the slots. -/
theorem map_moveCard (length : order.length = slots.length)
    (distinct : (order.map QueuedMessageRow.messageId).Nodup) :
    order.map (moveCard (queuedMessageMoves slots order)) = reslot order slots := by
  induction order generalizing slots with
  | nil => rfl
  | cons card order ih =>
    cases slots with
    | nil => cases length
    | cons slot slots =>
      rw [List.map_cons, List.nodup_cons] at distinct
      have tail := ih (Nat.succ.inj length) distinct.2
      have step : queuedMessageMoves (slot :: slots) (card :: order) =
          (if slot.position = card.position then []
            else [⟨card.messageId, slot.position⟩]) ++ queuedMessageMoves slots order := by
        unfold queuedMessageMoves
        by_cases same : slot.position = card.position
        · simp [same]
        · simp [same]
      rw [step, List.map_cons]
      have head : ∀ moves : List JournalQueueCardMove,
          (∀ other, moveCard moves other = moveCard (queuedMessageMoves slots order) other) →
          moveCard moves card = card := fun moves same =>
        (same card).trans (moveCard_of_not_mem distinct.1)
      by_cases same : slot.position = card.position
      · rw [if_pos same, List.nil_append, tail, head _ fun _ => rfl]
        unfold reslot
        rw [List.zipWith_cons_cons, same]
      · rw [if_neg same, List.singleton_append]
        have others : order.map (moveCard (⟨card.messageId, slot.position⟩ ::
            queuedMessageMoves slots order)) = reslot order slots := by
          rw [← tail]
          refine List.map_congr_left fun other member => moveCard_cons_of_ne fun equal => ?_
          exact distinct.1 (List.mem_map.mpr ⟨other, member, equal.symm⟩)
        rw [others]
        unfold reslot
        rw [List.zipWith_cons_cons]
        congr 1
        unfold moveCard
        rw [List.find?_cons_of_pos (by simp)]

theorem reslot_spec (length : order.length = slots.length) :
    (reslot order slots).map QueuedMessageRow.position = slots.map QueuedMessageRow.position ∧
      (reslot order slots).map QueuedMessageRow.messageId =
        order.map QueuedMessageRow.messageId := by
  induction order generalizing slots with
  | nil =>
    cases slots with
    | nil => exact ⟨rfl, rfl⟩
    | cons slot slots => cases length
  | cons card order ih =>
    cases slots with
    | nil => cases length
    | cons slot slots =>
      obtain ⟨positions, messageIds⟩ := ih (Nat.succ.inj length)
      exact ⟨congrArg (slot.position :: ·) positions, congrArg (card.messageId :: ·) messageIds⟩

theorem reslot_of_same (same : List.Forall₂ (fun (card slot : QueuedMessageRow) =>
    { card with position := slot.position } = slot) order slots) : reslot order slots = slots := by
  induction same with
  | nil => rfl
  | cons first rest ih => exact congrArg₂ List.cons first ih

theorem queuedMessageMoves_eq_nil_iff (length : order.length = slots.length) :
    queuedMessageMoves slots order = [] ↔
      order.map QueuedMessageRow.position = slots.map QueuedMessageRow.position := by
  induction order generalizing slots with
  | nil =>
    cases slots with
    | nil => exact ⟨fun _ => rfl, fun _ => rfl⟩
    | cons slot slots => cases length
  | cons card order ih =>
    cases slots with
    | nil => cases length
    | cons slot slots =>
      have tail := @ih slots (Nat.succ.inj length)
      unfold queuedMessageMoves at tail ⊢
      rw [List.zip_cons_cons, List.map_cons, List.map_cons, List.cons.injEq, ← tail]
      by_cases same : slot.position = card.position
      · simp [same]
      · have other : ¬ card.position = slot.position := fun equal => same equal.symm
        simp [same, other]

end Slots

section Plan

/-- A list without an item, and with it at some index. -/
def Reinserted (anchor : AgentSessionQueuedMessageMoveAnchor) (moving : String)
    (old new : List String) : Prop :=
  let rest := old.filter (· ≠ moving)
  match anchor with
  | .before none => new = rest ++ [moving]
  | .before (some messageId) =>
    if messageId = moving then new = old
    else ∃ front back, rest = front ++ messageId :: back ∧ new = front ++ moving :: messageId :: back
  | .after messageId =>
    if messageId = moving then new = old
    else ∃ front back, rest = front ++ messageId :: back ∧ new = front ++ messageId :: moving :: back

variable {cards : List QueuedMessageRow} {input : QueuedMessageMoveInput}

def messageIds (cards : List QueuedMessageRow) : List String :=
  cards.map QueuedMessageRow.messageId

theorem messageId_injOn (distinct : (messageIds cards).Nodup) {first second : QueuedMessageRow}
    (inFirst : first ∈ cards) (inSecond : second ∈ cards)
    (same : first.messageId = second.messageId) : first = second :=
  List.inj_on_of_nodup_map distinct inFirst inSecond same

theorem messageIds_filter_ne (distinct : (messageIds cards).Nodup) {moving : QueuedMessageRow}
    (member : moving ∈ cards) :
    messageIds (cards.filter (· ≠ moving)) = (messageIds cards).filter (· ≠ moving.messageId) := by
  unfold messageIds
  rw [List.filter_map]
  congr 1
  refine List.filter_congr fun card inside => ?_
  rw [Function.comp_apply, decide_eq_decide]
  refine not_congr ⟨fun same => same ▸ rfl, fun same => ?_⟩
  exact messageId_injOn distinct inside member same

theorem perm_cons_filter_ne (distinct : cards.Nodup) {moving : QueuedMessageRow}
    (member : moving ∈ cards) : (moving :: cards.filter (· ≠ moving)).Perm cards := by
  have erased : cards.erase moving = cards.filter (· ≠ moving) := by
    rw [distinct.erase_eq_filter]
    refine List.filter_congr fun card _ => ?_
    rw [Bool.eq_iff_iff, bne_iff_ne, decide_eq_true_eq]
  rw [← erased]
  exact (List.perm_cons_erase member).symm

theorem insertIdx_append (front back : List QueuedMessageRow) (moving : QueuedMessageRow) :
    (front ++ back).insertIdx front.length moving = front ++ moving :: back := by
  induction front with
  | nil => rfl
  | cons first front ih => exact congrArg (first :: ·) ih

theorem findIdx_split {rest : List QueuedMessageRow} {messageId : String} {index : ℕ}
    (found : rest.findIdx? (fun card => card.messageId = messageId) = some index) :
    ∃ front card back, rest = front ++ card :: back ∧ card.messageId = messageId ∧
      front.length = index := by
  obtain ⟨inside, here, _⟩ := List.findIdx?_eq_some_iff_getElem.mp found
  refine ⟨rest.take index, rest[index], rest.drop (index + 1), ?_, by simpa using here, ?_⟩
  · rw [← List.drop_eq_getElem_cons inside, List.take_append_drop]
  · rw [List.length_take]
    omega

theorem findIdx_of_mem {rest : List QueuedMessageRow} {messageId : String}
    (member : messageId ∈ messageIds rest) :
    ∃ index, rest.findIdx? (fun card => card.messageId = messageId) = some index := by
  obtain ⟨card, inside, named⟩ := List.mem_map.mp member
  rw [← Option.isSome_iff_exists, List.findIdx?_isSome, List.any_eq_true]
  exact ⟨card, inside, by simpa using named⟩

/-- Where the anchor says, the moving card is next to it. -/
theorem reinserted_insertIdx (distinct : (messageIds cards).Nodup) {moving : QueuedMessageRow}
    (member : moving ∈ cards) {anchor : AgentSessionQueuedMessageMoveAnchor}
    (other : anchor.messageId? ≠ some moving.messageId) {index : ℕ}
    (found : anchor.index? (cards.filter (· ≠ moving)) = some index) :
    index ≤ (cards.filter (· ≠ moving)).length ∧
      Reinserted anchor moving.messageId (messageIds cards)
        (messageIds ((cards.filter (· ≠ moving)).insertIdx index moving)) := by
  have rest := messageIds_filter_ne distinct member
  unfold Reinserted
  dsimp only
  rw [← rest]
  generalize cards.filter (· ≠ moving) = others at found
  cases anchor with
  | before messageId =>
    cases messageId with
    | none =>
      cases found
      refine ⟨le_refl _, ?_⟩
      have placed := insertIdx_append others [] moving
      rw [List.append_nil] at placed
      rw [placed]
      unfold messageIds
      rw [List.map_append, List.map_singleton]
    | some messageId =>
      have different : messageId ≠ moving.messageId := fun same => other (congrArg some same)
      obtain ⟨front, card, back, rfl, named, length⟩ := findIdx_split found
      subst length
      refine ⟨by simp, ?_⟩
      dsimp only
      rw [if_neg different, insertIdx_append]
      exact ⟨messageIds front, messageIds back, by simp [messageIds, named],
        by simp [messageIds, named]⟩
  | after messageId =>
    have different : messageId ≠ moving.messageId := fun same => other (congrArg some same)
    obtain ⟨place, placed, rfl⟩ := Option.map_eq_some_iff.mp found
    obtain ⟨front, card, back, rfl, named, length⟩ := findIdx_split placed
    subst length
    refine ⟨by simp, ?_⟩
    dsimp only
    have shape : front ++ card :: back = (front ++ [card]) ++ back := by simp
    have length : front.length + 1 = (front ++ [card]).length := by simp
    rw [if_neg different, shape, length, insertIdx_append]
    exact ⟨messageIds front, messageIds back, by simp [messageIds, named],
      by simp [messageIds, named]⟩

/-- What a plan amounts to: an order of the unsettled cards, and the moves that make it. -/
structure Planned (cards : List QueuedMessageRow) (input : QueuedMessageMoveInput)
    (order : List QueuedMessageRow) : Prop where
  perm : order.Perm (cards.filter isUnsettledQueuedMessage)
  others : (messageIds order).filter (· ≠ input.messageId) =
    (messageIds (cards.filter isUnsettledQueuedMessage)).filter (· ≠ input.messageId)
  moves : (queuedMessageMovePlan cards input).1 =
    queuedMessageMoves (cards.filter isUnsettledQueuedMessage) order
  moved : (queuedMessageMovePlan cards input).2 = .moved ↔ (queuedMessageMovePlan cards input).1 ≠ []
  reinserted : (queuedMessageMovePlan cards input).2 ≠ .gone →
    (queuedMessageMovePlan cards input).2 ≠ .stale →
    Reinserted input.anchor input.messageId
      (messageIds (cards.filter isUnsettledQueuedMessage)) (messageIds order)

theorem queuedMessageMoves_self (slots : List QueuedMessageRow) : queuedMessageMoves slots slots = [] :=
  (queuedMessageMoves_eq_nil_iff rfl).mpr rfl

theorem reinserted_self {anchor : AgentSessionQueuedMessageMoveAnchor} {messageId : String}
    (same : anchor.messageId? = some messageId) (ids : List String) :
    Reinserted anchor messageId ids ids := by
  unfold Reinserted
  cases anchor with
  | before anchored =>
    cases same
    simp
  | after anchored =>
    cases same
    simp

theorem unsettled_distinct (distinct : (messageIds cards).Nodup) :
    (messageIds (cards.filter isUnsettledQueuedMessage)).Nodup :=
  distinct.sublist (List.filter_sublist.map _)

theorem filter_insertIdx {rest : List QueuedMessageRow} {moving : QueuedMessageRow} {index : ℕ}
    (bound : index ≤ rest.length) (absent : moving ∉ rest) :
    (rest.insertIdx index moving).filter (· ≠ moving) = rest := by
  have split := insertIdx_append (rest.take index) (rest.drop index) moving
  rw [List.take_append_drop, List.length_take_of_le bound] at split
  rw [split, List.filter_append, List.filter_cons_of_neg (by simp), ← List.filter_append,
    List.take_append_drop, List.filter_eq_self]
  intro card member
  rw [decide_eq_true_eq]
  exact fun same => absent (same ▸ member)

theorem planned_still {status : QueuedMessageMoveStatus}
    (answer : queuedMessageMovePlan cards input = ([], status)) (notMoved : status ≠ .moved)
    (self : status ≠ .gone → status ≠ .stale → input.anchor.messageId? = some input.messageId) :
    Planned cards input (cards.filter isUnsettledQueuedMessage) where
  perm := List.Perm.refl _
  others := rfl
  moves := by rw [answer, queuedMessageMoves_self]
  moved := by
    rw [answer]
    exact ⟨fun moved => absurd moved notMoved, fun none => absurd rfl none⟩
  reinserted := by
    rw [answer]
    exact fun present known => reinserted_self (self present known) _

theorem planned_insertIdx (distinct : (messageIds cards).Nodup) {moving : QueuedMessageRow}
    (found : (cards.filter isUnsettledQueuedMessage).find?
      (fun card => card.messageId = input.messageId) = some moving)
    (other : input.anchor.messageId? ≠ some moving.messageId) {index : ℕ}
    (place : input.anchor.index?
      ((cards.filter isUnsettledQueuedMessage).filter (· ≠ moving)) = some index) :
    Planned cards input
      (((cards.filter isUnsettledQueuedMessage).filter (· ≠ moving)).insertIdx index moving) := by
  have unsettledDistinct := unsettled_distinct distinct
  have planned : queuedMessageMovePlan cards input =
      (queuedMessageMoves (cards.filter isUnsettledQueuedMessage)
        (((cards.filter isUnsettledQueuedMessage).filter (· ≠ moving)).insertIdx index moving),
        if queuedMessageMoves (cards.filter isUnsettledQueuedMessage)
          (((cards.filter isUnsettledQueuedMessage).filter (· ≠ moving)).insertIdx index moving) = []
        then .unchanged else .moved) := by
    unfold queuedMessageMovePlan
    dsimp only
    rw [found]
    dsimp only
    rw [if_neg other, place]
  have member := List.mem_of_find?_eq_some found
  have named : moving.messageId = input.messageId := by
    have holds := List.find?_some found
    simpa using holds
  obtain ⟨bound, reinserted⟩ := reinserted_insertIdx unsettledDistinct member other place
  have perm := (List.perm_insertIdx moving _ bound).trans
    (perm_cons_filter_ne (unsettledDistinct.of_map _) member)
  refine ⟨perm, ?_, ?_, ?_, ?_⟩
  · have kept := messageIds_filter_ne ((perm.map _).nodup_iff.mpr unsettledDistinct)
      (perm.mem_iff.mpr member)
    rw [← named, ← kept, ← messageIds_filter_ne unsettledDistinct member,
      filter_insertIdx bound (by simp)]
  · rw [planned]
  · rw [planned]
    dsimp only
    split
    · simp_all
    · simp_all
  · rw [← named]
    exact fun _ _ => reinserted

theorem exists_planned (distinct : (messageIds cards).Nodup) (input : QueuedMessageMoveInput) :
    ∃ order, Planned cards input order := by
  cases found : (cards.filter isUnsettledQueuedMessage).find?
      fun card => card.messageId = input.messageId with
  | none =>
    have answer : queuedMessageMovePlan cards input = ([], .gone) := by
      unfold queuedMessageMovePlan
      dsimp only
      rw [found]
    exact ⟨_, planned_still answer (by simp) fun present => absurd rfl present⟩
  | some moving =>
    have named : moving.messageId = input.messageId := by
      have holds := List.find?_some found
      simpa using holds
    by_cases self : input.anchor.messageId? = some moving.messageId
    · have answer : queuedMessageMovePlan cards input = ([], .unchanged) := by
        unfold queuedMessageMovePlan
        dsimp only
        rw [found]
        dsimp only
        rw [if_pos self]
      exact ⟨_, planned_still answer (by simp) fun _ _ => named ▸ self⟩
    · cases place : input.anchor.index?
          ((cards.filter isUnsettledQueuedMessage).filter (· ≠ moving)) with
      | none =>
        have answer : queuedMessageMovePlan cards input = ([], .stale) := by
          unfold queuedMessageMovePlan
          dsimp only
          rw [found]
          dsimp only
          rw [if_neg self, place]
        exact ⟨_, planned_still answer (by simp) fun _ known => absurd rfl known⟩
      | some index => exact ⟨_, planned_insertIdx distinct found self place⟩

end Plan

end OxeeUI.Journal
