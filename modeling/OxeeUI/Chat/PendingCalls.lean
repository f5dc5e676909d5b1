import OxeeUI.Chat.ToolPairs
import OxeeUI.Library.Chains
import Mathlib.Data.List.Perm.Subperm

/-!
# Pending calls as a queue

The linked calls and their index represent the list of the calls that wait,
oldest first.  Adding appends to it, and taking removes the first call a result
may answer.
-/

namespace OxeeUI.Chat

open OxeeUI.Library

namespace PendingToolCalls

variable {pending before after : PendingToolCalls} {call other : ℕ} {live : List ℕ}

section Writes

theorem bind_write {Field : Type} (field : PendingCall → Option Field)
    {change : PendingCall → PendingCall} (keeps : ∀ call, field (change call) = field call) :
    (pending.write call change).calls[other]?.bind field = pending.calls[other]?.bind field := by
  unfold write
  rw [List.getElem?_modify]
  cases pending.calls[other]? with
  | none => rfl
  | some found =>
    by_cases same : call = other
    · simp [same, keeps]
    · simp [same]

theorem bind_write_of_ne {Field : Type} (field : PendingCall → Option Field)
    {change : PendingCall → PendingCall} (different : other ≠ call) :
    (pending.write call change).calls[other]?.bind field = pending.calls[other]?.bind field := by
  unfold write
  rw [List.getElem?_modify]
  cases pending.calls[other]? with
  | none => rfl
  | some found => simp [different.symm]

theorem bind_write_self {Field : Type} (field : PendingCall → Option Field)
    {change : PendingCall → PendingCall} {value : Option Field}
    (written : ∀ call, field (change call) = value) (inside : call < pending.calls.length) :
    (pending.write call change).calls[call]?.bind field = value := by
  unfold write
  rw [List.getElem?_modify, List.getElem?_eq_getElem inside]
  simp [written]

@[simp] theorem length_write (change : PendingCall → PendingCall) :
    (pending.write call change).calls.length = pending.calls.length := by
  unfold write
  simp

structure SameLinks (before after : PendingToolCalls) : Prop where
  length : after.calls.length = before.calls.length
  first : after.first = before.first
  last : after.last = before.last
  next : after.nextOf = before.nextOf
  previous : after.previousOf = before.previousOf
  callId : after.callIdOf = before.callIdOf
  slot : after.slotOf = before.slotOf

theorem SameLinks.refl (pending : PendingToolCalls) : SameLinks pending pending :=
  ⟨rfl, rfl, rfl, rfl, rfl, rfl, rfl⟩

theorem SameLinks.trans {first second third : PendingToolCalls} (one : SameLinks first second)
    (two : SameLinks second third) : SameLinks first third where
  length := two.length.trans one.length
  first := two.first.trans one.first
  last := two.last.trans one.last
  next := two.next.trans one.next
  previous := two.previous.trans one.previous
  callId := two.callId.trans one.callId
  slot := two.slot.trans one.slot

theorem slotOf_eq_bind (pending : PendingToolCalls) (call : ℕ) :
    pending.slotOf call = pending.calls[call]?.bind fun call => some call.slot := by
  unfold slotOf
  cases pending.calls[call]? with
  | none => rfl
  | some found => rfl

theorem slotOf_write {change : PendingCall → PendingCall}
    (keeps : ∀ call, (change call).slot = call.slot) :
    (pending.write call change).slotOf = pending.slotOf := by
  funext other
  rw [slotOf_eq_bind, slotOf_eq_bind]
  exact bind_write (fun call => some call.slot) fun call => congrArg some (keeps call)

theorem sameLinks_writeNextWithId (pending : PendingToolCalls) (call : ℕ) (next : Option ℕ) :
    SameLinks pending (pending.write call fun last => { last with nextWithId := next }) where
  length := length_write _
  first := rfl
  last := rfl
  next := funext fun _ => bind_write PendingCall.next fun _ => rfl
  previous := funext fun _ => bind_write PendingCall.previous fun _ => rfl
  callId := funext fun _ => bind_write PendingCall.callId fun _ => rfl
  slot := slotOf_write fun _ => rfl

theorem setNext_frame (pending : PendingToolCalls) (call : ℕ) (next : Option ℕ) :
    (pending.setNext call next).calls.length = pending.calls.length ∧
      (pending.setNext call next).callIdOf = pending.callIdOf ∧
      (pending.setNext call next).slotOf = pending.slotOf ∧
      (pending.setNext call next).previousOf = pending.previousOf ∧
      (pending.setNext call next).nextWithIdOf = pending.nextWithIdOf :=
  ⟨length_write _, funext fun _ => bind_write PendingCall.callId fun _ => rfl,
    slotOf_write fun _ => rfl, funext fun _ => bind_write PendingCall.previous fun _ => rfl,
    funext fun _ => bind_write PendingCall.nextWithId fun _ => rfl⟩

theorem setNext_nextOf (inside : call < pending.calls.length) (next : Option ℕ) (other : ℕ) :
    (pending.setNext call next).nextOf other = if other = call then next else pending.nextOf other := by
  by_cases same : other = call
  · subst same
    rw [if_pos rfl]
    exact bind_write_self PendingCall.next (fun _ => rfl) inside
  · rw [if_neg same]
    exact bind_write_of_ne PendingCall.next same

theorem setPrevious_frame (pending : PendingToolCalls) (call : ℕ) (previous : Option ℕ) :
    (pending.setPrevious call previous).calls.length = pending.calls.length ∧
      (pending.setPrevious call previous).callIdOf = pending.callIdOf ∧
      (pending.setPrevious call previous).slotOf = pending.slotOf ∧
      (pending.setPrevious call previous).nextOf = pending.nextOf ∧
      (pending.setPrevious call previous).nextWithIdOf = pending.nextWithIdOf :=
  ⟨length_write _, funext fun _ => bind_write PendingCall.callId fun _ => rfl,
    slotOf_write fun _ => rfl, funext fun _ => bind_write PendingCall.next fun _ => rfl,
    funext fun _ => bind_write PendingCall.nextWithId fun _ => rfl⟩

theorem setPrevious_previousOf (inside : call < pending.calls.length) (previous : Option ℕ)
    (other : ℕ) :
    (pending.setPrevious call previous).previousOf other =
      if other = call then previous else pending.previousOf other := by
  by_cases same : other = call
  · subst same
    rw [if_pos rfl]
    exact bind_write_self PendingCall.previous (fun _ => rfl) inside
  · rw [if_neg same]
    exact bind_write_of_ne PendingCall.previous same

end Writes

section Index

def withId (pending : PendingToolCalls) (live : List ℕ) (callId : Text) : List ℕ :=
  live.filter fun call => pending.callIdOf call = some callId

def endsOf (calls : List ℕ) : Option CallIdQueue :=
  calls.head?.bind fun first => calls.getLast?.map fun last => ⟨first, last⟩

/-- The index of a list of calls: the ends of the calls of each id, and their chain. -/
structure Indexed (pending : PendingToolCalls) (byId : JsMap Text CallIdQueue) (live : List ℕ) :
    Prop where
  ends : ∀ callId, byId.get? callId = endsOf (pending.withId live callId)
  chained : ∀ callId, Chained pending.nextWithIdOf (pending.withId live callId)

theorem withId_append (pending : PendingToolCalls) (front back : List ℕ) (callId : Text) :
    pending.withId (front ++ back) callId =
      pending.withId front callId ++ pending.withId back callId :=
  List.filter_append ..

theorem withId_singleton_self {callId : Text} (named : pending.callIdOf call = some callId) :
    pending.withId [call] callId = [call] :=
  List.filter_cons_of_pos (decide_eq_true named)

theorem withId_singleton_other {callId : Text} (named : pending.callIdOf call ≠ some callId) :
    pending.withId [call] callId = [] :=
  List.filter_cons_of_neg (by simpa using named)

theorem withId_congr (same : after.callIdOf = before.callIdOf) (live : List ℕ) (callId : Text) :
    after.withId live callId = before.withId live callId := by
  unfold withId
  rw [same]

theorem indexed_empty (pending : PendingToolCalls) : Indexed pending JsMap.empty [] :=
  ⟨fun _ => rfl, fun _ => trivial⟩

theorem endsOf_append_singleton (calls : List ℕ) (call : ℕ) :
    endsOf (calls ++ [call]) =
      some ⟨((endsOf calls).map CallIdQueue.first).getD call, call⟩ := by
  cases calls with
  | nil => rfl
  | cons first rest =>
    obtain ⟨last, isLast⟩ := Option.isSome_iff_exists.mp
      (List.getLast?_isSome.mpr (List.cons_ne_nil first rest))
    unfold endsOf
    rw [List.getLast?_append, isLast]
    rfl

theorem endsOf_eq_none {calls : List ℕ} (none : endsOf calls = none) : calls = [] := by
  cases calls with
  | nil => rfl
  | cons first rest =>
    obtain ⟨last, isLast⟩ := Option.isSome_iff_exists.mp
      (List.getLast?_isSome.mpr (List.cons_ne_nil first rest))
    unfold endsOf at none
    rw [isLast] at none
    cases none

theorem endsOf_eq_some {calls : List ℕ} {queue : CallIdQueue} (some : endsOf calls = some queue) :
    calls.head? = .some queue.first ∧ calls.getLast? = .some queue.last := by
  unfold endsOf at some
  obtain ⟨first, isFirst, rest⟩ := Option.bind_eq_some_iff.mp some
  obtain ⟨last, isLast, rfl⟩ := Option.map_eq_some_iff.mp rest
  exact ⟨isFirst, isLast⟩

theorem indexCall_spec {byId : JsMap Text CallIdQueue} (indexed : Indexed pending byId live)
    (distinct : live.Nodup) (within : ∀ other ∈ live, other < pending.calls.length)
    (fresh : call ∉ live) (unlinked : pending.nextWithIdOf call = none) :
    Indexed (pending.indexCall call byId).1 (pending.indexCall call byId).2 (live ++ [call]) ∧
      SameLinks pending (pending.indexCall call byId).1 ∧
      (pending.indexCall call byId).1.byId = pending.byId ∧
      ∀ other, other ∉ live →
        (pending.indexCall call byId).1.nextWithIdOf other = pending.nextWithIdOf other := by
  cases named : pending.callIdOf call with
  | none =>
    have unchanged : pending.indexCall call byId = (pending, byId) := by
      unfold indexCall
      rw [named]
    rw [unchanged]
    have same : ∀ callId, pending.withId (live ++ [call]) callId = pending.withId live callId := by
      intro callId
      rw [withId_append, withId_singleton_other (by simp [named]), List.append_nil]
    refine ⟨⟨fun callId => ?_, fun callId => ?_⟩, SameLinks.refl _, rfl, fun _ _ => rfl⟩
    · rw [same]
      exact indexed.ends callId
    · rw [same]
      exact indexed.chained callId
  | some callId =>
    have others : ∀ otherId, otherId ≠ callId →
        pending.withId (live ++ [call]) otherId = pending.withId live otherId := by
      intro otherId different
      have unnamed : pending.callIdOf call ≠ some otherId := by
        rw [named]
        exact fun same => different (Option.some.inj same).symm
      rw [withId_append, withId_singleton_other unnamed, List.append_nil]
    have own : pending.withId (live ++ [call]) callId = pending.withId live callId ++ [call] := by
      rw [withId_append, withId_singleton_self named]
    cases found : byId.get? callId with
    | none =>
      have made : pending.indexCall call byId =
          (pending, byId.set callId (CallIdQueue.mk call call)) := by
        unfold indexCall
        rw [named]
        dsimp only
        rw [found]
      rw [made]
      have empty := endsOf_eq_none ((indexed.ends callId).symm.trans found)
      rw [empty] at own
      refine ⟨⟨fun otherId => ?_, fun otherId => ?_⟩, SameLinks.refl _, rfl, fun _ _ => rfl⟩
      · by_cases same : otherId = callId
        · subst same
          rw [JsMap.get?_set_self, own]
          rfl
        · rw [JsMap.get?_set_of_ne _ _ same, others otherId same]
          exact indexed.ends otherId
      · by_cases same : otherId = callId
        · subst same
          rw [own]
          exact ⟨unlinked, trivial⟩
        · rw [others otherId same]
          exact indexed.chained otherId
    | some queue =>
      have made : pending.indexCall call byId =
          (pending.write queue.last fun last => { last with nextWithId := some call },
            byId.set callId { queue with last := call }) := by
        unfold indexCall
        rw [named]
        dsimp only
        rw [found]
      rw [made]
      obtain ⟨isFirst, isLast⟩ := endsOf_eq_some ((indexed.ends callId).symm.trans found)
      have lastInside := List.mem_of_getLast? isLast
      have lastLive := List.mem_of_mem_filter lastInside
      have links := sameLinks_writeNextWithId pending queue.last (some call)
      have elsewhere : ∀ other, other ≠ queue.last →
          (pending.write queue.last fun last =>
            { last with nextWithId := some call }).nextWithIdOf other =
              pending.nextWithIdOf other :=
        fun other different => bind_write_of_ne PendingCall.nextWithId different
      refine ⟨⟨fun otherId => ?_, fun otherId => ?_⟩, links, rfl, fun other absent => ?_⟩
      · dsimp only
        rw [withId_congr links.callId]
        by_cases same : otherId = callId
        · subst same
          rw [JsMap.get?_set_self, own, endsOf_append_singleton, ← indexed.ends, found,
            Option.map_some, Option.getD_some]
        · rw [JsMap.get?_set_of_ne _ _ same, others otherId same]
          exact indexed.ends otherId
      · dsimp only
        rw [withId_congr links.callId]
        by_cases same : otherId = callId
        · subst same
          rw [own]
          refine (indexed.chained otherId).snoc ?_ (fun last last' => ?_) (fun other _ notLast => ?_)
            (distinct.filter _)
          · rw [elsewhere call fun same => fresh (same ▸ lastLive)]
            exact unlinked
          · rw [isLast] at last'
            cases last'
            exact bind_write_self PendingCall.nextWithId (fun _ => rfl) (within _ lastLive)
          · exact elsewhere other fun same => notLast (same ▸ isLast)
        · rw [others otherId same]
          refine (indexed.chained otherId).congr fun other member => elsewhere other ?_
          rintro rfl
          have first := of_decide_eq_true (List.mem_filter.mp member).2
          have second := of_decide_eq_true (List.mem_filter.mp lastInside).2
          rw [first] at second
          exact same (Option.some.inj second)
      · exact elsewhere other fun same => absent (same ▸ lastLive)

theorem indexFrom_spec {steps : ℕ} {rest : List ℕ} {byId : JsMap Text CallIdQueue}
    (enough : rest.length ≤ steps) (indexed : Indexed pending byId live)
    (distinct : (live ++ rest).Nodup)
    (within : ∀ other ∈ live ++ rest, other < pending.calls.length)
    (chained : Chained pending.nextOf rest)
    (unlinked : ∀ other ∈ rest, pending.nextWithIdOf other = none) :
    Indexed (pending.indexFrom steps rest.head? byId).1 (pending.indexFrom steps rest.head? byId).2
        (live ++ rest) ∧
      SameLinks pending (pending.indexFrom steps rest.head? byId).1 := by
  induction rest generalizing live pending byId steps with
  | nil =>
    have unchanged : pending.indexFrom steps none byId = (pending, byId) := by
      unfold indexFrom
      rfl
    rw [List.append_nil]
    exact unchanged ▸ ⟨indexed, SameLinks.refl _⟩
  | cons call rest ih =>
    cases steps with
    | zero => cases enough
    | succ steps =>
      have fresh : call ∉ live := fun inside =>
        (List.nodup_append.mp distinct).2.2 call inside call List.mem_cons_self rfl
      obtain ⟨indexedOne, links, _, elsewhere⟩ := indexCall_spec indexed
        (List.nodup_append.mp distinct).1
        (fun other member => within other (List.mem_append_left _ member)) fresh
        (unlinked call List.mem_cons_self)
      have restDistinct := (List.nodup_append.mp distinct).2.1
      rw [List.nodup_cons] at restDistinct
      rw [List.append_cons] at distinct within ⊢
      have nextIs : (pending.indexCall call byId).1.nextOf call = rest.head? := by
        rw [links.next]
        exact chained.1
      have looped := ih (Nat.le_of_succ_le_succ enough) indexedOne distinct
        (fun other member => links.length.symm ▸ within other member)
        (links.next.symm ▸ chained.2) (fun other member => by
          rw [elsewhere other fun inside => ?_]
          · exact unlinked other (List.mem_cons_of_mem _ member)
          · exact (List.nodup_append.mp distinct).2.2 other
              (List.mem_append_left _ inside) other member rfl)
      rw [← nextIs] at looped
      exact ⟨looped.1, links.trans looped.2⟩

end Index

section Queue

structure Linked (pending : PendingToolCalls) (live : List ℕ) : Prop where
  within : ∀ call ∈ live, call < pending.calls.length
  distinct : live.Nodup
  first : pending.first = live.head?
  last : pending.last = live.getLast?
  next : Chained pending.nextOf live
  previous : Chained pending.previousOf live.reverse

/-- The calls that wait, and the index of them when there is one. -/
structure Holds (pending : PendingToolCalls) (live : List ℕ) : Prop where
  linked : Linked pending live
  unindexed : pending.byId = none → ∀ call ∈ live, pending.nextWithIdOf call = none
  indexed : ∀ byId, pending.byId = some byId → Indexed pending byId live

theorem Linked.of_sameLinks (linked : Linked before live) (links : SameLinks before after) :
    Linked after live where
  within call member := links.length.symm ▸ linked.within call member
  distinct := linked.distinct
  first := links.first.trans linked.first
  last := links.last.trans linked.last
  next := links.next.symm ▸ linked.next
  previous := links.previous.symm ▸ linked.previous

theorem holds_initial : Holds initial [] where
  linked := ⟨fun _ member => (List.not_mem_nil member).elim, List.nodup_nil, rfl, rfl, trivial,
    trivial⟩
  unindexed _ _ member := (List.not_mem_nil member).elim
  indexed byId same := by cases same

/-- What a result may answer: unnamed results anything, named results their call. -/
def answers (pending : PendingToolCalls) (callId : Option Text) (call : ℕ) : Bool :=
  callId.isNone || pending.callIdOf call = callId

theorem withIndex_spec (holds : Holds pending live) :
    Indexed pending.withIndex.1 pending.withIndex.2 live ∧
      SameLinks pending pending.withIndex.1 ∧
      pending.withIndex.1.byId = some pending.withIndex.2 := by
  cases stored : pending.byId with
  | some byId =>
    have same : pending.withIndex = (pending, byId) := by
      unfold withIndex
      rw [stored]
    rw [same]
    exact ⟨holds.indexed byId stored, SameLinks.refl _, stored⟩
  | none =>
    have enough : live.length ≤ pending.calls.length := by
      have covered : live.Subperm (List.range pending.calls.length) :=
        List.subperm_of_subset holds.linked.distinct fun call member =>
          List.mem_range.mpr (holds.linked.within call member)
      simpa using covered.length_le
    have built := indexFrom_spec enough (indexed_empty pending) holds.linked.distinct
      holds.linked.within holds.linked.next (holds.unindexed stored)
    rw [← holds.linked.first] at built
    unfold withIndex
    rw [stored]
    exact ⟨⟨built.1.ends, built.1.chained⟩, ⟨built.2.length, built.2.first, built.2.last,
      built.2.next, built.2.previous, built.2.callId, built.2.slot⟩, rfl⟩

theorem Indexed.of_sameLinks {byId : JsMap Text CallIdQueue} (indexed : Indexed before byId live)
    (callId : after.callIdOf = before.callIdOf) (next : after.nextWithIdOf = before.nextWithIdOf) :
    Indexed after byId live where
  ends id := (withId_congr callId live id).symm ▸ indexed.ends id
  chained id := by
    rw [withId_congr callId, next]
    exact indexed.chained id

theorem find?_answers_unnamed (pending : PendingToolCalls) (live : List ℕ) :
    live.find? (pending.answers none) = live.head? := by
  cases live with
  | nil => rfl
  | cons call live => rfl

theorem find?_answers_named (pending : PendingToolCalls) (live : List ℕ) (callId : Text) :
    live.find? (pending.answers (some callId)) = (pending.withId live callId).head? := by
  unfold withId
  rw [List.head?_filter]
  rfl

/-- The call found is the first that the result may answer. -/
theorem find_spec (holds : Holds pending live) (callId : Option Text) :
    Holds (pending.find callId).1 live ∧ SameLinks pending (pending.find callId).1 ∧
      (pending.find callId).2 = live.find? (pending.answers callId) := by
  cases callId with
  | none =>
    have found : pending.find none = (pending, pending.first) := by
      unfold find
      cases pending.first with
      | none => rfl
      | some first => rfl
    rw [found, find?_answers_unnamed]
    exact ⟨holds, SameLinks.refl _, holds.linked.first⟩
  | some callId =>
    rw [find?_answers_named]
    cases firstIs : pending.first with
    | none =>
      have found : pending.find (some callId) = (pending, none) := by
        unfold find
        rw [firstIs]
      have empty : live = [] := by
        have head := holds.linked.first.symm.trans firstIs
        exact List.head?_eq_none_iff.mp head
      rw [found, empty]
      exact ⟨empty ▸ holds, SameLinks.refl _, rfl⟩
    | some first =>
      by_cases named : pending.callIdOf first = some callId
      · have found : pending.find (some callId) = (pending, some first) := by
          unfold find
          rw [firstIs]
          dsimp only
          rw [if_pos named]
        have head := holds.linked.first.symm.trans firstIs
        obtain ⟨rest, rfl⟩ := List.head?_eq_some_iff.mp head
        rw [found]
        refine ⟨holds, SameLinks.refl _, ?_⟩
        have split : pending.withId (first :: rest) callId = first :: pending.withId rest callId :=
          (withId_append pending [first] rest callId).trans
            (congrArg (· ++ _) (withId_singleton_self named))
        rw [split]
        rfl
      · obtain ⟨indexed, links, stored⟩ := withIndex_spec holds
        have found : pending.find (some callId) = (pending.withIndex.1,
            (pending.withIndex.2.get? callId).map CallIdQueue.first) := by
          unfold find
          rw [firstIs]
          dsimp only
          rw [if_neg named]
        rw [found]
        refine ⟨⟨holds.linked.of_sameLinks links, ?_, ?_⟩, links, ?_⟩
        · intro none
          rw [stored] at none
          cases none
        · intro byId same
          rw [stored] at same
          cases same
          exact indexed
        · dsimp only
          rw [indexed.ends callId, withId_congr links.callId]
          generalize pending.withId live callId = calls
          cases calls with
          | nil => rfl
          | cons call calls =>
            obtain ⟨last, isLast⟩ := Option.isSome_iff_exists.mp
              (List.getLast?_isSome.mpr (List.cons_ne_nil call calls))
            unfold endsOf
            rw [isLast]
            rfl

end Queue

section Add

theorem bind_push {Field : Type} (field : PendingCall → Option Field) (calls : List PendingCall)
    (made : PendingCall) (other : ℕ) :
    (calls ++ [made])[other]?.bind field =
      if other = calls.length then field made else calls[other]?.bind field := by
  by_cases same : other = calls.length
  · subst same
    rw [if_pos rfl, List.getElem?_concat_length]
    rfl
  · rw [if_neg same]
    rcases Nat.lt_or_gt_of_ne same with earlier | later
    · rw [List.getElem?_append_left earlier]
    · rw [List.getElem?_eq_none (by simp; omega), List.getElem?_eq_none (by omega)]

variable {slot : ℕ} {callId : Option Text}

theorem link_cases (pending : PendingToolCalls) (slot : ℕ) (callId : Option Text) :
    (pending.last = none ∧ pending.link slot callId =
        { pending.make slot callId with
          first := some pending.calls.length, last := some pending.calls.length }) ∨
      ∃ last, pending.last = some last ∧ pending.link slot callId =
        { (pending.make slot callId).setNext last (some pending.calls.length) with
          last := some pending.calls.length } := by
  unfold link
  cases lastIs : pending.last with
  | none => exact Or.inl ⟨rfl, rfl⟩
  | some last => exact Or.inr ⟨last, rfl, rfl⟩

theorem link_frame (pending : PendingToolCalls) (slot : ℕ) (callId : Option Text) :
    (pending.link slot callId).calls.length = pending.calls.length + 1 ∧
      (pending.link slot callId).byId = pending.byId ∧
      (pending.link slot callId).callIdOf = (pending.make slot callId).callIdOf ∧
      (pending.link slot callId).slotOf = (pending.make slot callId).slotOf ∧
      (pending.link slot callId).previousOf = (pending.make slot callId).previousOf ∧
      (pending.link slot callId).nextWithIdOf = (pending.make slot callId).nextWithIdOf := by
  have length : (pending.make slot callId).calls.length = pending.calls.length + 1 := by
    unfold make
    simp
  rcases link_cases pending slot callId with ⟨_, shape⟩ | ⟨last, _, shape⟩
  · rw [shape]
    exact ⟨length, rfl, rfl, rfl, rfl, rfl⟩
  · rw [shape]
    obtain ⟨sameLength, callIds, slots, previous, nextWithIds⟩ :=
      setNext_frame (pending.make slot callId) last (some pending.calls.length)
    exact ⟨sameLength.trans length, rfl, callIds, slots, previous, nextWithIds⟩

theorem link_nextOf {last : ℕ} (lastIs : pending.last = some last)
    (inside : last < pending.calls.length) (slot : ℕ) (callId : Option Text) (other : ℕ) :
    (pending.link slot callId).nextOf other =
      if other = last then some pending.calls.length
      else (pending.make slot callId).nextOf other := by
  rcases link_cases pending slot callId with ⟨none, _⟩ | ⟨found, foundIs, shape⟩
  · rw [lastIs] at none
    cases none
  · rw [lastIs] at foundIs
    cases foundIs
    rw [shape]
    refine setNext_nextOf ?_ (some pending.calls.length) other
    unfold make
    rw [List.length_append]
    exact Nat.lt_add_right 1 inside

theorem linked_link (linked : Linked pending live) (slot : ℕ) (callId : Option Text) :
    Linked (pending.link slot callId) (live ++ [pending.calls.length]) := by
  obtain ⟨length, _, _, _, previous, _⟩ := link_frame pending slot callId
  have fresh : pending.calls.length ∉ live := fun member => lt_irrefl _ (linked.within _ member)
  have made := bind_push PendingCall.next pending.calls
    (PendingCall.mk slot callId pending.last none none)
  constructor
  · intro call member
    rw [length]
    rcases List.mem_append.mp member with old | new
    · exact Nat.lt_succ_of_lt (linked.within call old)
    · rw [List.mem_singleton.mp new]
      exact Nat.lt_succ_self _
  · exact List.nodup_append.mpr ⟨linked.distinct, List.nodup_singleton _, fun call member other new =>
      fun same => fresh (by rw [← List.mem_singleton.mp new, ← same]; exact member)⟩
  · rcases link_cases pending slot callId with ⟨lastIs, shape⟩ | ⟨last, lastIs, shape⟩
    · have empty := List.getLast?_eq_none_iff.mp (linked.last.symm.trans lastIs)
      rw [shape, empty]
      rfl
    · rw [shape]
      refine linked.first.trans ?_
      cases live with
      | nil =>
        have missing := linked.last.symm.trans lastIs
        cases missing
      | cons first rest => rfl
  · rw [List.getLast?_append]
    rcases link_cases pending slot callId with ⟨_, shape⟩ | ⟨_, _, shape⟩
    · rw [shape]
      rfl
    · rw [shape]
      rfl
  · cases lastIs : pending.last with
    | none =>
      have empty := List.getLast?_eq_none_iff.mp (linked.last.symm.trans lastIs)
      rcases link_cases pending slot callId with ⟨_, shape⟩ | ⟨last, foundIs, _⟩
      · rw [empty, shape]
        exact ⟨(made pending.calls.length).trans (if_pos rfl), trivial⟩
      · rw [lastIs] at foundIs
        cases foundIs
    | some last =>
      have isLast := linked.last.symm.trans lastIs
      have inside := linked.within last (List.mem_of_getLast? isLast)
      have nextOf := link_nextOf lastIs inside slot callId
      refine linked.next.snoc ?_ (fun other found => ?_) (fun other member notLast => ?_)
        linked.distinct
      · rw [nextOf, if_neg (ne_of_gt inside)]
        exact (made pending.calls.length).trans (if_pos rfl)
      · rw [isLast] at found
        cases found
        rw [nextOf, if_pos rfl]
      · have notSame : other ≠ last := fun same => notLast (same ▸ isLast)
        have old : other ≠ pending.calls.length := fun same => fresh (same ▸ member)
        rw [nextOf, if_neg notSame]
        exact (made other).trans (if_neg old)
  · have madePrevious := bind_push PendingCall.previous pending.calls
      (PendingCall.mk slot callId pending.last none none)
    rw [List.reverse_append, previous]
    refine ⟨?_, linked.previous.congr fun other member => ?_⟩
    · refine (madePrevious pending.calls.length).trans ((if_pos rfl).trans ?_)
      exact linked.last.trans List.head?_reverse.symm
    · have old : other ≠ pending.calls.length := by
        rintro rfl
        exact fresh (List.mem_reverse.mp member)
      exact (madePrevious other).trans (if_neg old)

theorem add_spec (holds : Holds pending live) (slot : ℕ) (callId : Option Text) :
    Holds (pending.add slot callId) (live ++ [pending.calls.length]) ∧
      (∀ other ∈ live, (pending.add slot callId).callIdOf other = pending.callIdOf other ∧
        (pending.add slot callId).slotOf other = pending.slotOf other) ∧
      (pending.add slot callId).callIdOf pending.calls.length = callId ∧
      (pending.add slot callId).slotOf pending.calls.length = some slot := by
  obtain ⟨length, byId, callIdsAre, slotsAre, _, nextWithIdsAre⟩ := link_frame pending slot callId
  have callIds : ∀ other, (pending.link slot callId).callIdOf other =
      if other = pending.calls.length then callId else pending.callIdOf other := by
    intro other
    rw [callIdsAre]
    exact bind_push PendingCall.callId _ _ other
  have slots : ∀ other, (pending.link slot callId).slotOf other =
      if other = pending.calls.length then some slot else pending.slotOf other := by
    intro other
    rw [slotsAre, slotOf_eq_bind, slotOf_eq_bind]
    exact bind_push (fun call => some call.slot) _ _ other
  have nextWithIds : ∀ other, (pending.link slot callId).nextWithIdOf other =
      if other = pending.calls.length then none else pending.nextWithIdOf other := by
    intro other
    rw [nextWithIdsAre]
    exact bind_push PendingCall.nextWithId _ _ other
  have linked := linked_link holds.linked slot callId
  have old : ∀ other ∈ live, other ≠ pending.calls.length := fun other member =>
    ne_of_lt (holds.linked.within other member)
  have fresh : pending.calls.length ∉ live := fun member => old _ member rfl
  have facts : (∀ other ∈ live,
      (pending.link slot callId).callIdOf other = pending.callIdOf other ∧
        (pending.link slot callId).slotOf other = pending.slotOf other) ∧
      (pending.link slot callId).callIdOf pending.calls.length = callId ∧
      (pending.link slot callId).slotOf pending.calls.length = some slot := by
    refine ⟨fun other member => ⟨?_, ?_⟩, ?_, ?_⟩
    · rw [callIds, if_neg (old other member)]
    · rw [slots, if_neg (old other member)]
    · rw [callIds, if_pos rfl]
    · rw [slots, if_pos rfl]
  have tail : (pending.link slot callId).nextWithIdOf pending.calls.length = none := by
    rw [nextWithIds, if_pos rfl]
  cases stored : pending.byId with
  | none =>
    have added : pending.add slot callId = pending.link slot callId := by
      unfold add
      dsimp only
      rw [byId, stored]
    rw [added]
    refine ⟨⟨linked, fun _ call member => ?_, fun found same => ?_⟩, facts⟩
    · rcases List.mem_append.mp member with inside | new
      · rw [nextWithIds, if_neg (old call inside)]
        exact holds.unindexed stored call inside
      · rw [List.mem_singleton.mp new]
        exact tail
    · rw [byId, stored] at same
      cases same
  | some index =>
    have sameIds : ∀ id, (pending.link slot callId).withId live id = pending.withId live id := by
      intro id
      refine List.filter_congr fun call member => ?_
      rw [callIds, if_neg (old call member)]
    have indexed : Indexed (pending.link slot callId) index live := by
      refine ⟨fun id => ?_, fun id => ?_⟩
      · rw [sameIds]
        exact (holds.indexed index stored).ends id
      · rw [sameIds]
        refine ((holds.indexed index stored).chained id).congr fun call member => ?_
        rw [nextWithIds, if_neg (old call (List.mem_of_mem_filter member))]
    obtain ⟨indexedCall, links, _, _⟩ := indexCall_spec indexed holds.linked.distinct
      (fun call member => length ▸ Nat.lt_succ_of_lt (holds.linked.within call member)) fresh tail
    have added : pending.add slot callId =
        { ((pending.link slot callId).indexCall pending.calls.length index).1 with
          byId := some ((pending.link slot callId).indexCall pending.calls.length index).2 } := by
      unfold add
      dsimp only
      rw [byId, stored]
    have addedLinks : SameLinks (pending.link slot callId) (pending.add slot callId) := by
      rw [added]
      exact ⟨links.length, links.first, links.last, links.next, links.previous, links.callId,
        links.slot⟩
    rw [addedLinks.callId, addedLinks.slot]
    refine ⟨⟨linked.of_sameLinks addedLinks, fun none => ?_, fun found same => ?_⟩, facts⟩
    · rw [added] at none
      cases none
    · rw [added] at same ⊢
      cases same
      exact ⟨indexedCall.ends, indexedCall.chained⟩

end Add

section Take

variable {front back : List ℕ}

/-- Two states whose calls have the same ids, slots and id chains. -/
structure SameCalls (before after : PendingToolCalls) : Prop where
  length : after.calls.length = before.calls.length
  callId : after.callIdOf = before.callIdOf
  slot : after.slotOf = before.slotOf
  nextWithId : after.nextWithIdOf = before.nextWithIdOf
  byId : after.byId = before.byId

theorem cutForward_spec (pending : PendingToolCalls) (call : ℕ) :
    SameCalls pending (pending.cutForward call) ∧
      (pending.cutForward call).previousOf = pending.previousOf ∧
      (pending.cutForward call).last = pending.last := by
  unfold cutForward
  cases pending.previousOf call with
  | none => exact ⟨⟨rfl, rfl, rfl, rfl, rfl⟩, rfl, rfl⟩
  | some previous =>
    obtain ⟨length, callIds, slots, previousIs, nextWithIds⟩ :=
      setNext_frame pending previous (pending.nextOf call)
    exact ⟨⟨length, callIds, slots, nextWithIds, rfl⟩, previousIs, rfl⟩

theorem cutBackward_spec (pending : PendingToolCalls) (call : ℕ) :
    SameCalls pending (pending.cutBackward call) ∧
      (pending.cutBackward call).nextOf = pending.nextOf ∧
      (pending.cutBackward call).first = pending.first := by
  unfold cutBackward
  cases pending.nextOf call with
  | none => exact ⟨⟨rfl, rfl, rfl, rfl, rfl⟩, rfl, rfl⟩
  | some next =>
    obtain ⟨length, callIds, slots, nextIs, nextWithIds⟩ :=
      setPrevious_frame pending next (pending.previousOf call)
    exact ⟨⟨length, callIds, slots, nextWithIds, rfl⟩, nextIs, rfl⟩

theorem SameCalls.trans {first second third : PendingToolCalls} (one : SameCalls first second)
    (two : SameCalls second third) : SameCalls first third :=
  ⟨two.length.trans one.length, two.callId.trans one.callId, two.slot.trans one.slot,
    two.nextWithId.trans one.nextWithId, two.byId.trans one.byId⟩

theorem cutForward_linked (linked : Linked pending (front ++ call :: back)) :
    Chained (pending.cutForward call).nextOf (front ++ back) ∧
      (pending.cutForward call).first = (front ++ back).head? ∧
      (pending.cutForward call).nextOf call = pending.nextOf call := by
  have nextIs := linked.next.next_eq
  have previousIs : pending.previousOf call = front.getLast? := by
    have backward := linked.previous
    rw [List.reverse_append, List.reverse_cons, List.append_assoc, List.singleton_append] at backward
    exact backward.next_eq.trans List.head?_reverse
  unfold cutForward
  cases lastIs : front.getLast? with
  | none =>
    have empty := List.getLast?_eq_none_iff.mp lastIs
    subst empty
    rw [previousIs]
    exact ⟨linked.next.2, nextIs, rfl⟩
  | some last =>
    have inFront := List.mem_of_getLast? lastIs
    have inside := linked.within last (List.mem_append_left _ inFront)
    have written := setNext_nextOf inside (pending.nextOf call)
    have notCall : call ≠ last := by
      rintro rfl
      exact (List.nodup_append.mp linked.distinct).2.2 _ inFront _ List.mem_cons_self rfl
    rw [previousIs, lastIs]
    refine ⟨linked.next.remove linked.distinct (fun other found => ?_) (fun other _ notLast => ?_),
      ?_, ?_⟩
    · rw [lastIs] at found
      cases found
      rw [written, if_pos rfl, nextIs]
    · refine (written other).trans (if_neg ?_)
      rintro rfl
      exact notLast lastIs
    · refine linked.first.trans ?_
      cases front with
      | nil => cases lastIs
      | cons first front => rfl
    · rw [written, if_neg notCall]

theorem cutBackward_linked (within : ∀ other ∈ front ++ call :: back, other < pending.calls.length)
    (distinct : (front ++ call :: back).Nodup)
    (lastIs : pending.last = (front ++ call :: back).getLast?)
    (nextIs : pending.nextOf call = back.head?)
    (backward : Chained pending.previousOf (front ++ call :: back).reverse) :
    Chained (pending.cutBackward call).previousOf (front ++ back).reverse ∧
      (pending.cutBackward call).last = (front ++ back).getLast? := by
  rw [List.reverse_append, List.reverse_cons, List.append_assoc, List.singleton_append] at backward
  have previousIs : pending.previousOf call = front.getLast? :=
    backward.next_eq.trans List.head?_reverse
  unfold cutBackward
  cases back with
  | nil =>
    rw [nextIs, List.append_nil]
    exact ⟨backward.2, previousIs⟩
  | cons next back =>
    have inside := within next (by simp)
    have written := setPrevious_previousOf inside (pending.previousOf call)
    rw [nextIs, List.reverse_append]
    have reversed : (List.reverse (next :: back) ++ call :: front.reverse).Nodup := by
      have all := List.nodup_reverse.mpr distinct
      rwa [List.reverse_append, List.reverse_cons, List.append_assoc, List.singleton_append] at all
    refine ⟨backward.remove reversed (fun other found => ?_) (fun other _ notFirst => ?_), ?_⟩
    · rw [List.getLast?_reverse] at found
      cases found
      refine (written next).trans ((if_pos rfl).trans ?_)
      exact previousIs.trans List.head?_reverse.symm
    · refine (written other).trans (if_neg ?_)
      rintro rfl
      exact notFirst List.getLast?_reverse
    · refine lastIs.trans ?_
      rw [List.getLast?_append, List.getLast?_append, List.getLast?_cons_cons]

theorem unlink_spec (linked : Linked pending (front ++ call :: back)) :
    Linked (pending.unlink call) (front ++ back) ∧ SameCalls pending (pending.unlink call) := by
  obtain ⟨sameForward, previousOf, lastIs⟩ := cutForward_spec pending call
  obtain ⟨forward, firstIs, nextIs⟩ := cutForward_linked linked
  obtain ⟨sameBackward, nextOf, firstSame⟩ := cutBackward_spec (pending.cutForward call) call
  obtain ⟨backward, lastAfter⟩ := cutBackward_linked
    (fun other member => sameForward.length.symm ▸ linked.within other member) linked.distinct
    (lastIs.trans linked.last) (nextIs.trans linked.next.next_eq) (previousOf.symm ▸ linked.previous)
  have same := sameForward.trans sameBackward
  have within : (front ++ back).Sublist (front ++ call :: back) :=
    (List.sublist_cons_self call back).append_left front
  exact ⟨⟨fun other member => same.length.symm ▸ linked.within other (within.subset member),
    linked.distinct.sublist within, firstSame.trans firstIs, lastAfter, nextOf.symm ▸ forward,
    backward⟩, same⟩

theorem withId_cut_other {callId : Text} (named : pending.callIdOf call ≠ some callId) :
    pending.withId (front ++ call :: back) callId = pending.withId (front ++ back) callId := by
  rw [List.append_cons, withId_append, withId_append, withId_singleton_other named, List.append_nil,
    ← withId_append]

theorem withId_cut_self {callId : Text} (named : pending.callIdOf call = some callId)
    (first : pending.withId front callId = []) :
    pending.withId (front ++ call :: back) callId =
      call :: pending.withId (front ++ back) callId := by
  rw [List.append_cons, withId_append, withId_append, withId_singleton_self named, first,
    withId_append, first]
  rfl

theorem popId_spec {byId : JsMap Text CallIdQueue} (stored : pending.byId = some byId)
    (indexed : Indexed pending byId (front ++ call :: back))
    (first : ∀ callId, pending.callIdOf call = some callId → pending.withId front callId = []) :
    ∃ popped, pending.popId call = { pending with byId := some popped } ∧
      Indexed pending popped (front ++ back) := by
  cases named : pending.callIdOf call with
  | none =>
    have other : ∀ callId, pending.callIdOf call ≠ some callId := by simp [named]
    have unchanged : pending.popId call = pending := by
      unfold popId
      rw [named]
      cases pending.byId with
      | none => rfl
      | some found => rfl
    rw [unchanged]
    refine ⟨byId, by rw [← stored], ⟨fun callId => ?_, fun callId => ?_⟩⟩
    · rw [indexed.ends, withId_cut_other (other callId)]
    · rw [← withId_cut_other (other callId)]
      exact indexed.chained callId
  | some callId =>
    have others : ∀ otherId, otherId ≠ callId → pending.callIdOf call ≠ some otherId := by
      intro otherId different
      rw [named]
      exact fun same => different (Option.some.inj same).symm
    have own : pending.withId (front ++ call :: back) callId =
        call :: pending.withId (front ++ back) callId := withId_cut_self named (first callId named)
    have ends := indexed.ends callId
    have chained := indexed.chained callId
    rw [own] at ends chained
    cases rest : pending.withId (front ++ back) callId with
    | nil =>
      rw [rest] at ends chained
      have popped : pending.popId call = { pending with byId := some (byId.delete callId) } := by
        unfold popId
        rw [stored, named]
        dsimp only
        rw [ends, chained.1]
        rfl
      refine ⟨byId.delete callId, popped, ⟨fun otherId => ?_, fun otherId => ?_⟩⟩
      · rw [JsMap.get?_delete]
        by_cases same : otherId = callId
        · subst same
          rw [if_pos rfl, rest]
          rfl
        · rw [if_neg same, indexed.ends, withId_cut_other (others otherId same)]
      · by_cases same : otherId = callId
        · subst same
          rw [rest]
          trivial
        · rw [← withId_cut_other (others otherId same)]
          exact indexed.chained otherId
    | cons next rest' =>
      rw [rest] at ends chained
      obtain ⟨last, isLast⟩ := Option.isSome_iff_exists.mp
        (List.getLast?_isSome.mpr (List.cons_ne_nil next rest'))
      have queue : byId.get? callId = some ⟨call, last⟩ := by
        rw [ends]
        unfold endsOf
        rw [List.getLast?_cons_cons, isLast]
        rfl
      have popped : pending.popId call =
          { pending with byId := some (byId.set callId (CallIdQueue.mk next last)) } := by
        unfold popId
        rw [stored, named]
        dsimp only
        rw [queue, chained.1]
        rfl
      refine ⟨byId.set callId (CallIdQueue.mk next last), popped,
        ⟨fun otherId => ?_, fun otherId => ?_⟩⟩
      · by_cases same : otherId = callId
        · subst same
          rw [JsMap.get?_set_self, rest]
          unfold endsOf
          rw [isLast]
          rfl
        · rw [JsMap.get?_set_of_ne _ _ same, indexed.ends,
            withId_cut_other (others otherId same)]
      · by_cases same : otherId = callId
        · subst same
          rw [rest]
          exact chained.2
        · rw [← withId_cut_other (others otherId same)]
          exact indexed.chained otherId

theorem withId_front_of_first {callId : Option Text}
    (first : ∀ other ∈ front, pending.answers callId other = false) {named : Text}
    (isNamed : pending.callIdOf call = some named) (answered : pending.answers callId call = true) :
    pending.withId front named = [] := by
  apply List.filter_eq_nil_iff.mpr
  intro other member same
  have unanswered := first other member
  unfold answers at unanswered answered
  cases callId with
  | none => cases unanswered
  | some callId =>
    simp_all

theorem holds_reset (holds : Holds pending live) :
    Holds { pending with byId := if pending.first.isNone then none else pending.byId } live := by
  refine ⟨⟨holds.linked.within, holds.linked.distinct, holds.linked.first, holds.linked.last,
    holds.linked.next, holds.linked.previous⟩, fun none call member => ?_, fun byId same => ?_⟩
  · cases firstIs : pending.first with
    | none =>
      have empty := List.head?_eq_none_iff.mp (holds.linked.first.symm.trans firstIs)
      subst empty
      cases member
    | some first =>
      rw [firstIs] at none
      exact holds.unindexed none call member
  · cases firstIs : pending.first with
    | none =>
      rw [firstIs] at same
      cases same
    | some first =>
      rw [firstIs] at same
      have indexed := holds.indexed byId same
      exact ⟨indexed.ends, indexed.chained⟩

/-- A call unlinked and popped is gone from the index, too. -/
theorem holds_popped (holds : Holds pending (front ++ call :: back))
    (first : ∀ callId, pending.callIdOf call = some callId → pending.withId front callId = []) :
    Holds ((pending.unlink call).popId call) (front ++ back) ∧
      ((pending.unlink call).popId call).callIdOf = pending.callIdOf ∧
      ((pending.unlink call).popId call).slotOf = pending.slotOf := by
  obtain ⟨linked, same⟩ := unlink_spec holds.linked
  cases stored : pending.byId with
  | none =>
    have unchanged : (pending.unlink call).popId call = pending.unlink call := by
      unfold popId
      rw [same.byId, stored]
    rw [unchanged]
    refine ⟨⟨linked, fun _ other member => ?_, fun byId found => ?_⟩, same.callId, same.slot⟩
    · rw [same.nextWithId]
      refine holds.unindexed stored other ?_
      exact ((List.sublist_cons_self call back).append_left front).subset member
    · rw [same.byId, stored] at found
      cases found
  | some byId =>
    have indexed := (holds.indexed byId stored).of_sameLinks same.callId same.nextWithId
    obtain ⟨popped, shape, poppedIndexed⟩ := popId_spec (same.byId.trans stored) indexed
      fun callId named => by
        rw [withId_congr same.callId]
        rw [same.callId] at named
        exact first callId named
    rw [shape]
    refine ⟨⟨⟨linked.within, linked.distinct, linked.first, linked.last, linked.next,
      linked.previous⟩, fun none => ?_, fun found equal => ?_⟩, same.callId, same.slot⟩
    · cases none
    · cases equal
      exact ⟨poppedIndexed.ends, poppedIndexed.chained⟩

/-- Taking cuts out the first call the result may answer. -/
theorem take_spec (holds : Holds pending live) (callId : Option Text) :
    Holds (pending.take callId).1 (live.eraseP (pending.answers callId)) ∧
      (pending.take callId).1.callIdOf = pending.callIdOf ∧
      (pending.take callId).1.slotOf = pending.slotOf ∧
      (pending.take callId).2 = (live.find? (pending.answers callId)).bind pending.slotOf := by
  obtain ⟨holdsFound, links, foundIs⟩ := find_spec holds callId
  cases found : live.find? (pending.answers callId) with
  | none =>
    have kept : live.eraseP (pending.answers callId) = live :=
      List.eraseP_of_forall_not (fun call member => List.find?_eq_none.mp found call member)
    have taken : pending.take callId = ((pending.find callId).1, none) := by
      have pair : pending.find callId = ((pending.find callId).1, none) :=
        Prod.ext rfl (foundIs.trans found)
      unfold take
      rw [pair]
    rw [kept, taken]
    exact ⟨holdsFound, links.callId, links.slot, rfl⟩
  | some call =>
    obtain ⟨answered, front, back, rfl, first⟩ := List.find?_eq_some_iff_append.mp found
    have notAnswered : ∀ other ∈ front, pending.answers callId other = false := fun other member =>
      by simpa using first other member
    have erased : (front ++ call :: back).eraseP (pending.answers callId) = front ++ back := by
      rw [List.eraseP_append_right _ (by simpa using notAnswered), List.eraseP_cons_of_pos answered]
    have pair : pending.find callId = ((pending.find callId).1, some call) :=
      Prod.ext rfl (foundIs.trans found)
    obtain ⟨popped, callIds, slots⟩ := holds_popped holdsFound fun named isNamed => by
      rw [withId_congr links.callId]
      rw [links.callId] at isNamed
      exact withId_front_of_first notAnswered isNamed answered
    have taken : pending.take callId =
        ({ ((pending.find callId).1.unlink call).popId call with
            byId := if (((pending.find callId).1.unlink call).popId call).first.isNone then none
              else (((pending.find callId).1.unlink call).popId call).byId },
          (pending.find callId).1.slotOf call) := by
      unfold take
      rw [pair]
    rw [erased, taken]
    refine ⟨holds_reset popped, callIds.trans links.callId, slots.trans links.slot, ?_⟩
    rw [links.slot]
    rfl

end Take

section Refinement

/-- The calls that wait, by slot and id, oldest first. -/
abbrev CallQueue := List (ℕ × Option Text)

def mayAnswer (callId : Option Text) (waiting : ℕ × Option Text) : Bool :=
  callId.isNone || waiting.2 = callId

def Represents (pending : PendingToolCalls) (queue : CallQueue) : Prop :=
  ∃ live, Holds pending live ∧
    live.map (fun call => (pending.slotOf call, pending.callIdOf call)) =
      queue.map fun waiting => (some waiting.1, waiting.2)

theorem represents_initial : Represents initial [] := ⟨[], holds_initial, rfl⟩

theorem Represents.isEmpty {queue : CallQueue} (represents : Represents pending queue) :
    pending.isEmpty = queue.isEmpty := by
  obtain ⟨live, holds, same⟩ := represents
  unfold PendingToolCalls.isEmpty
  rw [holds.linked.first]
  cases live with
  | nil =>
    cases queue with
    | nil => rfl
    | cons waiting queue => cases same
  | cons call live =>
    cases queue with
    | nil => cases same
    | cons waiting queue => rfl

theorem Represents.add {queue : CallQueue} (represents : Represents pending queue) (slot : ℕ)
    (callId : Option Text) : Represents (pending.add slot callId) (queue ++ [(slot, callId)]) := by
  obtain ⟨live, holds, same⟩ := represents
  obtain ⟨added, old, newId, newSlot⟩ := add_spec holds slot callId
  refine ⟨live ++ [pending.calls.length], added, ?_⟩
  rw [List.map_append, List.map_append, List.map_singleton, List.map_singleton, newId, newSlot, ← same]
  congr 1
  exact List.map_congr_left fun call member => by rw [(old call member).1, (old call member).2]

theorem find?_waiting {queue : CallQueue} {callId : Option Text}
    (same : live.map (fun call => (pending.slotOf call, pending.callIdOf call)) =
      queue.map fun waiting => (some waiting.1, waiting.2)) :
    (live.find? (pending.answers callId)).bind pending.slotOf =
        (queue.find? (mayAnswer callId)).map Prod.fst ∧
      (live.eraseP (pending.answers callId)).map
          (fun call => (pending.slotOf call, pending.callIdOf call)) =
        (queue.eraseP (mayAnswer callId)).map fun waiting => (some waiting.1, waiting.2) := by
  induction live generalizing queue with
  | nil =>
    cases queue with
    | nil => exact ⟨rfl, rfl⟩
    | cons waiting queue => cases same
  | cons call live ih =>
    cases queue with
    | nil => cases same
    | cons waiting queue =>
      rw [List.map_cons, List.map_cons, List.cons.injEq, Prod.mk.injEq] at same
      obtain ⟨⟨slot, named⟩, rest⟩ := same
      have agree : pending.answers callId call = mayAnswer callId waiting := by
        unfold answers mayAnswer
        rw [named]
      cases answered : mayAnswer callId waiting with
      | true =>
        rw [List.find?_cons_of_pos (agree.trans answered), List.find?_cons_of_pos answered,
          List.eraseP_cons_of_pos (agree.trans answered), List.eraseP_cons_of_pos answered]
        exact ⟨slot, rest⟩
      | false =>
        have unanswered := agree.trans answered
        rw [List.find?_cons_of_neg (by simp [unanswered]), List.find?_cons_of_neg (by simp [answered]),
          List.eraseP_cons_of_neg (by simp [unanswered]), List.eraseP_cons_of_neg (by simp [answered])]
        refine ⟨(ih rest).1, ?_⟩
        rw [List.map_cons, List.map_cons, (ih rest).2, slot, named]

theorem Represents.take {queue : CallQueue} (represents : Represents pending queue)
    (callId : Option Text) :
    Represents (pending.take callId).1 (queue.eraseP (mayAnswer callId)) ∧
      (pending.take callId).2 = (queue.find? (mayAnswer callId)).map Prod.fst := by
  obtain ⟨live, holds, same⟩ := represents
  obtain ⟨taken, callIds, slots, slotIs⟩ := take_spec holds callId
  obtain ⟨found, erased⟩ := @find?_waiting _ _ _ callId same
  refine ⟨⟨_, taken, ?_⟩, slotIs.trans found⟩
  rw [callIds, slots]
  exact erased

end Refinement

end PendingToolCalls

end OxeeUI.Chat
