import Mathlib.Algebra.Order.BigOperators.Group.List
import Mathlib.Data.Int.Order.Basic
import OxeeUI.Library.Handles
import OxeeUI.Library.Run
import OxeeUI.Relay.SpliceForwarder

/-!
# What a splice forwards and what it holds

In each direction the frames received are those sent and, while the splice is open, those queued.
The shared budget is the sum of what the open splices queue.
-/

namespace OxeeUI.Relay

open OxeeUI.Library AdmissionBudgets

def Direction.frameTotal (direction : Direction) : Nat :=
  (direction.queue.map fun queued => frameBytes queued.frame.data).sum

structure DirectionSound (closed : Bool) (direction : Direction) : Prop where
  sized : ∀ queued ∈ direction.queue, queued.bytes = frameBytes queued.frame.data
  bytes : direction.queuedBytes = direction.frameTotal
  hard : direction.queuedBytes ≤ spliceHardQueuedBytes
  sent : direction.sent <+: direction.received
  rest : closed = false →
    direction.received = direction.sent ++ direction.queue.map QueuedFrame.frame
  emptied : closed = true → direction.queue = []

/-- A direction has one timer while its queue holds frames, and else none. -/
def Timed (splice : Splice) (side : Side) : Prop :=
  splice.timers.countP (·.side = side) = if (splice.direction side).queue = [] then 0 else 1

def Splice.heldBytes (splice : Splice) : Int :=
  (splice.direction .client).queuedBytes + (splice.direction .host).queuedBytes

/-- What holds of a splice whose budget also holds the bytes of others. -/
structure Forwards (others : Int) (held : BudgetedSplice) : Prop where
  directions : ∀ side, DirectionSound held.splice.closed (held.splice.direction side)
  closes : held.splice.onCloseRuns = if held.splice.closed then 1 else 0
  budget : held.budget.queued = others + held.splice.heldBytes
  capped : held.budget.queued ≤ maxProcessQueuedBytes
  others : 0 ≤ others

variable {others : Int} {held : BudgetedSplice} {side other : Side}

theorem DirectionSound.nonneg {closed : Bool} {direction : Direction}
    (sound : DirectionSound closed direction) : 0 ≤ direction.queuedBytes := by
  rw [sound.bytes]
  exact Int.natCast_nonneg _

theorem Direction.frameTotal_cons {queued : QueuedFrame} {rest : List QueuedFrame}
    {direction : Direction} (queue : direction.queue = queued :: rest) :
    direction.frameTotal = frameBytes queued.frame.data +
      (rest.map fun queued => frameBytes queued.frame.data).sum := by
  rw [Direction.frameTotal, queue, List.map_cons, List.sum_cons]

/-! ## Directions change one at a time -/

namespace BudgetedSplice

theorem direction_updateDirection (held : BudgetedSplice) (side other : Side)
    (direction : Direction) : (held.updateDirection side direction).splice.direction other =
      if other = side then direction else held.splice.direction other :=
  Function.update_apply held.splice.direction side direction other

theorem heldBytes_updateDirection (held : BudgetedSplice) (side : Side) (direction : Direction) :
    (held.updateDirection side direction).splice.heldBytes =
      held.splice.heldBytes + (direction.queuedBytes -
        (held.splice.direction side).queuedBytes) := by
  rw [Splice.heldBytes, Splice.heldBytes, direction_updateDirection, direction_updateDirection]
  cases side with
  | client =>
    rw [if_pos rfl, if_neg (by decide)]
    omega
  | host =>
    rw [if_neg (by decide), if_pos rfl]
    omega

end BudgetedSplice

theorem Forwards.update (forwards : Forwards others held) (side : Side) {direction : Direction}
    {budget : ProcessQueuedByteBudget} (sound : DirectionSound held.splice.closed direction)
    (queued : budget.queued = held.budget.queued + (direction.queuedBytes -
      (held.splice.direction side).queuedBytes))
    (capped : budget.queued ≤ maxProcessQueuedBytes) :
    Forwards others (({ held with budget := budget } : BudgetedSplice).updateDirection side
      direction) where
  directions := by
    intro other
    rw [BudgetedSplice.direction_updateDirection]
    split
    case isTrue => exact sound
    case isFalse => exact forwards.directions other
  closes := forwards.closes
  budget := by
    rw [BudgetedSplice.heldBytes_updateDirection, ← Int.add_assoc]
    show budget.queued = _
    rw [queued, forwards.budget]
  capped := capped
  others := forwards.others

theorem Forwards.updateSame (forwards : Forwards others held) (side : Side) {direction : Direction}
    (sound : DirectionSound held.splice.closed direction)
    (same : direction.queuedBytes = (held.splice.direction side).queuedBytes) :
    Forwards others (held.updateDirection side direction) :=
  forwards.update side sound (by rw [same]; omega) forwards.capped

theorem Forwards.queued_release (forwards : Forwards others held) (side : Side) {bytes : Int}
    (within : bytes ≤ (held.splice.direction side).queuedBytes) :
    (held.budget.release bytes).queued = held.budget.queued - bytes := by
  have client := (forwards.directions .client).nonneg
  have host := (forwards.directions .host).nonneg
  have budget := forwards.budget
  have others := forwards.others
  rw [Splice.heldBytes] at budget
  have enough : bytes ≤ held.budget.queued := by
    cases side <;> omega
  exact max_eq_right (by omega)

/-! ## Closing -/

theorem close_of_closed (closed : held.splice.closed = true) (info : SpliceCloseInfo) :
    held.close info = held := if_pos closed

def Direction.emptied (direction : Direction) : Direction :=
  { direction with queuedBytes := 0, queue := [], paused := false }

theorem direction_close (isOpen : held.splice.closed = false) (info : SpliceCloseInfo)
    (side : Side) :
    (held.close info).splice.direction side = (held.splice.direction side).emptied := by
  cases side <;> simp [BudgetedSplice.close, BudgetedSplice.cleanup,
    BudgetedSplice.updateDirection, Direction.emptied, isOpen]

theorem budget_close (isOpen : held.splice.closed = false) (info : SpliceCloseInfo) :
    (held.close info).budget =
      (held.budget.release (held.splice.direction .client).queuedBytes).release
        (held.splice.direction .host).queuedBytes := by
  simp [BudgetedSplice.close, BudgetedSplice.cleanup, BudgetedSplice.updateDirection, isOpen]

/-- A splice that is closed has no timers, and its queues are empty. -/
structure Ended (splice : Splice) : Prop where
  closed : splice.closed = true
  timers : splice.timers = []

theorem ended_close (isOpen : held.splice.closed = false) (info : SpliceCloseInfo) :
    Ended (held.close info).splice := by
  constructor <;> simp [BudgetedSplice.close, BudgetedSplice.cleanup,
    BudgetedSplice.updateDirection, isOpen]

theorem onCloseRuns_close (isOpen : held.splice.closed = false) (info : SpliceCloseInfo) :
    (held.close info).splice.onCloseRuns = held.splice.onCloseRuns + 1 := by
  simp [BudgetedSplice.close, BudgetedSplice.cleanup, BudgetedSplice.updateDirection, isOpen]

theorem DirectionSound.cleaned {closed : Bool} {direction : Direction}
    (sound : DirectionSound closed direction) : DirectionSound true direction.emptied where
  sized := by simp [Direction.emptied]
  bytes := rfl
  hard := by
    show (0 : Int) ≤ spliceHardQueuedBytes
    decide
  sent := sound.sent
  rest := by simp
  emptied := fun _ => rfl

theorem forwards_close (forwards : Forwards others held) (isOpen : held.splice.closed = false)
    (info : SpliceCloseInfo) : Forwards others (held.close info) := by
  have ended := (ended_close isOpen info).closed
  have client := (forwards.directions .client).nonneg
  have host := (forwards.directions .host).nonneg
  have budget := forwards.budget
  have sum : (held.close info).budget.queued = others := by
    rw [budget_close isOpen, ProcessQueuedByteBudget.release,
      forwards.queued_release .client (Int.le_refl _)]
    rw [Splice.heldBytes] at budget
    have positive := forwards.others
    show max 0 _ = _
    rw [max_eq_right] <;> omega
  refine ⟨?_, ?_, ?_, ?_, forwards.others⟩
  · intro side
    rw [ended, direction_close isOpen]
    exact (forwards.directions side).cleaned
  · rw [ended, onCloseRuns_close isOpen, forwards.closes, isOpen]
    rfl
  · rw [sum, Splice.heldBytes, direction_close isOpen, direction_close isOpen]
    exact (Int.add_zero others).symm
  · rw [sum]
    have capped := forwards.capped
    rw [Splice.heldBytes] at budget
    omega

theorem Forwards.timed_of_ended (forwards : Forwards others held) (ended : Ended held.splice)
    (side : Side) : Timed held.splice side := by
  rw [Timed, ended.timers, (forwards.directions side).emptied ended.closed]
  rfl

/-! ## Flushes -/

theorem forwards_sendQueued (forwards : Forwards others held) (isOpen : held.splice.closed = false)
    {frame : QueuedFrame} {rest : List QueuedFrame}
    (queue : (held.splice.direction side).queue = frame :: rest) :
    Forwards others (held.sendQueued side frame rest) := by
  have sound := forwards.directions side
  have total := sound.bytes
  rw [Direction.frameTotal_cons queue] at total
  have size := sound.sized frame (queue ▸ List.mem_cons_self)
  have within : (frame.bytes : Int) ≤ (held.splice.direction side).queuedBytes := by
    omega
  have released := forwards.queued_release side within
  refine forwards.update side ?_ ?_ ?_
  · refine ⟨?_, ?_, ?_, ?_, ?_, ?_⟩
    · exact fun queued member => sound.sized queued (queue ▸ List.mem_cons_of_mem _ member)
    · show _ - _ = ((rest.map fun queued => frameBytes queued.frame.data).sum : Int)
      omega
    · have hard := sound.hard
      show _ - _ ≤ _
      omega
    · show _ ++ _ <+: _
      rw [sound.rest isOpen, queue]
      simp
    · intro _
      show _ = (_ ++ _) ++ rest.map QueuedFrame.frame
      rw [sound.rest isOpen, queue]
      simp
    · intro closed
      rw [isOpen] at closed
      cases closed
  · rw [released]
    show _ = _ + (_ - _ - _)
    omega
  · rw [released]
    have capped := forwards.capped
    omega

structure Drains (side : Side) (held next : BudgetedSplice) : Prop where
  closed : next.splice.closed = held.splice.closed
  timers : next.splice.timers = held.splice.timers
  directions : ∀ other, other ≠ side →
    next.splice.direction other = held.splice.direction other

theorem Drains.trans {middle next : BudgetedSplice} (early : Drains side held middle)
    (late : Drains side middle next) : Drains side held next where
  closed := late.closed.trans early.closed
  timers := late.timers.trans early.timers
  directions := fun other different =>
    (late.directions other different).trans (early.directions other different)

theorem drains_updateDirection (budget : ProcessQueuedByteBudget) (direction : Direction) :
    Drains side held (({ held with budget := budget } : BudgetedSplice).updateDirection side
      direction) where
  closed := rfl
  timers := rfl
  directions := fun other different => by
    rw [BudgetedSplice.direction_updateDirection, if_neg different]

theorem drain_spec {bufferedAmount : Nat → Int} {queue : List QueuedFrame} {reading : Nat}
    (forwards : Forwards others held) (isOpen : held.splice.closed = false)
    (queued : (held.splice.direction side).queue = queue) :
    Forwards others (held.drain side bufferedAmount queue reading) ∧
      Drains side held (held.drain side bufferedAmount queue reading) := by
  induction queue generalizing held reading with
  | nil => exact ⟨forwards, rfl, rfl, fun _ _ => rfl⟩
  | cons frame rest ih =>
    unfold BudgetedSplice.drain
    split
    case isFalse => exact ⟨forwards, rfl, rfl, fun _ _ => rfl⟩
    case isTrue =>
      have one := forwards_sendQueued forwards isOpen queued
      have drains : Drains side held (held.sendQueued side frame rest) :=
        drains_updateDirection _ _
      have left : ((held.sendQueued side frame rest).splice.direction side).queue = rest := by
        unfold BudgetedSplice.sendQueued
        rw [BudgetedSplice.direction_updateDirection, if_pos rfl]
      obtain ⟨forwards', drains'⟩ := ih one isOpen left
      exact ⟨forwards', drains.trans drains'⟩

structure Keeps (others : Int) (held : BudgetedSplice) : Prop where
  forwards : Forwards others held
  timed : ∀ side, Timed held.splice side

theorem keeps_close (forwards : Forwards others held) (isOpen : held.splice.closed = false)
    (info : SpliceCloseInfo) : Keeps others (held.close info) := by
  have closed := forwards_close forwards isOpen info
  exact ⟨closed, closed.timed_of_ended (ended_close isOpen info)⟩

/-- The two timers of a splice while one of them is being looked at. -/
structure Untimed (side : Side) (splice : Splice) : Prop where
  none : splice.timers.countP (·.side = side) = 0
  others : ∀ other, other ≠ side → Timed splice other

theorem settle_spec {now : Int} (forwards : Forwards others held)
    (isOpen : held.splice.closed = false) (untimed : Untimed side held.splice) :
    Keeps others (held.settle side now) := by
  unfold BudgetedSplice.settle
  simp only
  split
  case isTrue empty =>
    have sound := forwards.directions side
    refine ⟨forwards.updateSame side ⟨sound.sized, sound.bytes, sound.hard, sound.sent, sound.rest,
      sound.emptied⟩ rfl, fun other => ?_⟩
    by_cases same : other = side
    · subst same
      rw [Timed, BudgetedSplice.direction_updateDirection, if_pos rfl]
      rw [if_pos empty]
      exact untimed.none
    · rw [Timed, BudgetedSplice.direction_updateDirection, if_neg same]
      exact untimed.others other same
  case isFalse waits =>
    split
    case isTrue => exact keeps_close forwards isOpen _
    case isFalse =>
      refine ⟨⟨forwards.directions, forwards.closes, forwards.budget, forwards.capped,
        forwards.others⟩, fun other => ?_⟩
      show (held.splice.timers ++ [_]).countP _ = if (held.splice.direction other).queue = [] then _ else _
      rw [countP_append_singleton]
      by_cases same : other = side
      · subst same
        rw [untimed.none, if_neg waits]
        simp
      · rw [untimed.others other same]
        simp [Ne.symm same]

theorem flush_spec {targetOpen sourceOpen : Bool} {bufferedAmount : Nat → Int} {now : Int}
    (forwards : Forwards others held) (isOpen : held.splice.closed = false)
    (untimed : Untimed side held.splice) :
    Keeps others (held.flush side targetOpen sourceOpen bufferedAmount now) := by
  unfold BudgetedSplice.flush
  rw [if_neg (by simp [isOpen])]
  split
  case isTrue => exact keeps_close forwards isOpen _
  case isFalse =>
    obtain ⟨forwards', drains⟩ := drain_spec forwards isOpen rfl
    refine settle_spec forwards' (drains.closed.trans isOpen) ⟨?_, fun other different => ?_⟩
    · rw [drains.timers]
      exact untimed.none
    · rw [Timed, drains.timers, drains.directions other different]
      exact untimed.others other different

/-! ## Messages and timers -/

theorem DirectionSound.of_prefix {direction : Direction} (sound : DirectionSound true direction)
    (frame : Frame) :
    DirectionSound true { direction with received := direction.received ++ [frame] } where
  sized := sound.sized
  bytes := sound.bytes
  hard := sound.hard
  sent := sound.sent.trans (List.prefix_append _ _)
  rest := by simp
  emptied := sound.emptied

theorem keeps_receive (keeps : Keeps others held) (closed : held.splice.closed = true)
    (side : Side) (frame : Frame) : Keeps others (held.receive side frame) := by
  have sound := keeps.forwards.directions side
  rw [closed] at sound
  refine ⟨keeps.forwards.updateSame side ?_ rfl, fun other => ?_⟩
  · rw [closed]
    exact sound.of_prefix frame
  · have timed := keeps.timed other
    rw [Timed] at timed ⊢
    unfold BudgetedSplice.receive
    rw [BudgetedSplice.direction_updateDirection]
    split
    case isTrue same =>
      subst same
      exact timed
    case isFalse => exact timed

theorem forwards_sendNow (forwards : Forwards others held) (isOpen : held.splice.closed = false)
    (empty : (held.splice.direction side).queue = []) (frame : Frame) :
    Forwards others (held.sendNow side frame) := by
  have sound := forwards.directions side
  have all := sound.rest isOpen
  rw [empty, List.map_nil, List.append_nil] at all
  refine forwards.updateSame side ⟨sound.sized, sound.bytes, sound.hard, ?_, ?_, sound.emptied⟩ rfl
  · show _ ++ _ <+: _ ++ _
    rw [all]
  · intro _
    show _ ++ _ = (_ ++ _) ++ List.map _ _
    rw [all, empty, List.map_nil, List.append_nil]

theorem reserve_eq_some {bytes : Nat} {budget : ProcessQueuedByteBudget}
    (reserved : held.reserve side bytes = some budget) :
    (held.splice.direction side).queuedBytes + bytes ≤ spliceHardQueuedBytes ∧
      budget.queued = held.budget.queued + bytes ∧ budget.queued ≤ maxProcessQueuedBytes := by
  unfold BudgetedSplice.reserve ProcessQueuedByteBudget.reserve at reserved
  split at reserved
  · cases reserved
  split at reserved
  · cases reserved
  case isFalse.isFalse fits within =>
    obtain rfl := Option.some.inj reserved
    exact ⟨Int.not_lt.mp fits, rfl, Int.not_lt.mp within⟩

theorem forwards_enqueue (forwards : Forwards others held) (isOpen : held.splice.closed = false)
    {frame : Frame} {budget : ProcessQueuedByteBudget}
    (reserved : held.reserve side (frameBytes frame.data) = some budget) (now : Int) :
    Forwards others (held.enqueue side ⟨frame, frameBytes frame.data⟩ now budget) := by
  obtain ⟨fits, queued, within⟩ := reserve_eq_some reserved
  have sound := forwards.directions side
  refine forwards.update side ⟨?_, ?_, fits, ?_, ?_, ?_⟩ ?_ within
  · intro queued member
    rcases List.mem_append.mp member with old | new
    · exact sound.sized queued old
    · obtain rfl := List.mem_singleton.mp new
      rfl
  · show _ + _ = (((List.map _ (_ ++ _)).sum : Nat) : Int)
    rw [sound.bytes, List.map_append, List.map_singleton, List.sum_append, List.sum_singleton]
    rfl
  · exact sound.sent.trans (List.prefix_append _ _)
  · intro _
    show _ ++ _ = _ ++ List.map _ (_ ++ _)
    rw [sound.rest isOpen, List.map_append, List.append_assoc]
    rfl
  · intro closed
    rw [isOpen] at closed
    cases closed
  · rw [queued]
    show _ = _ + (_ + (frameBytes frame.data : Int) - _)
    omega

theorem Keeps.forwarded (keeps : Keeps others held) (bytes : Nat) :
    Keeps others (held.forwarded bytes) :=
  ⟨⟨keeps.forwards.directions, keeps.forwards.closes, keeps.forwards.budget,
    keeps.forwards.capped, keeps.forwards.others⟩, keeps.timed⟩

theorem direction_enqueue (frame : QueuedFrame) (now : Int) (budget : ProcessQueuedByteBudget) :
    ((held.enqueue side frame now budget).splice.direction side).queue =
      (held.splice.direction side).queue ++ [frame] := by
  unfold BudgetedSplice.enqueue
  rw [BudgetedSplice.direction_updateDirection, if_pos rfl]

theorem onMessage_spec (keeps : Keeps others held) (frame : Frame) (readings : SocketReadings) :
    Keeps others (held.onMessage side frame readings) := by
  obtain ⟨forwards, timed⟩ := keeps
  unfold BudgetedSplice.onMessage
  split
  case isTrue closed => exact keeps_receive ⟨forwards, timed⟩ closed side frame
  case isFalse isOpen =>
    rw [Bool.not_eq_true] at isOpen
    simp only
    split
    case isTrue direct =>
      refine Keeps.forwarded ⟨forwards_sendNow forwards isOpen direct.1 frame, fun other => ?_⟩ _
      have before := timed other
      rw [Timed] at before ⊢
      unfold BudgetedSplice.sendNow
      rw [BudgetedSplice.direction_updateDirection]
      split
      case isTrue same =>
        subst same
        exact before
      case isFalse => exact before
    case isFalse =>
      split
      case h_1 =>
        exact keeps_receive (keeps_close forwards isOpen _) (ended_close isOpen _).closed side frame
      case h_2 budget reserved =>
        have queued := forwards_enqueue forwards isOpen reserved (readings.now 0)
        have drains : Drains side held (held.enqueue side ⟨frame, frameBytes frame.data⟩
            (readings.now 0) budget) := drains_updateDirection _ _
        have elsewhere : ∀ other, other ≠ side → Timed (held.enqueue side
            ⟨frame, frameBytes frame.data⟩ (readings.now 0) budget).splice other := by
          intro other different
          rw [Timed, drains.timers, drains.directions other different]
          exact timed other
        have before := timed side
        rw [Timed, ← drains.timers] at before
        split
        case isTrue first =>
          -- The queue was empty, so no timer looks at it.
          have empty : (held.splice.direction side).queue = [] := by
            rw [BudgetedSplice.forwarded] at first
            simp only [direction_enqueue, List.length_append, List.length_singleton] at first
            exact List.length_eq_zero_iff.mp (by omega)
          rw [if_pos empty] at before
          exact flush_spec ⟨queued.directions, queued.closes, queued.budget, queued.capped,
            queued.others⟩ isOpen ⟨before, elsewhere⟩
        case isFalse more =>
          have waits : (held.splice.direction side).queue ≠ [] := by
            intro empty
            rw [BudgetedSplice.forwarded] at more
            simp only [direction_enqueue, empty] at more
            exact more rfl
          rw [if_neg waits] at before
          refine Keeps.forwarded ⟨queued, fun other => ?_⟩ _
          by_cases same : other = side
          · subst same
            rw [Timed, before, direction_enqueue, if_neg (by simp)]
          · exact elsewhere other same

theorem countP_erase_of_mem {timers : List SpliceTimer} {timer : SpliceTimer}
    (member : timer ∈ timers) (side : Side) :
    (timers.erase timer).countP (fun timer => timer.side = side) +
      (if timer.side = side then 1 else 0) = timers.countP fun timer => timer.side = side := by
  rw [(List.perm_cons_erase member).countP_eq, List.countP_cons]
  simp

theorem onTimer_spec (keeps : Keeps others held) (id : Nat) (readings : SocketReadings) :
    Keeps others (held.onTimer id readings) := by
  obtain ⟨forwards, timed⟩ := keeps
  unfold BudgetedSplice.onTimer
  split
  case h_1 => exact ⟨forwards, timed⟩
  case h_2 timer found =>
    have member := List.mem_of_find?_eq_some found
    have isOpen : held.splice.closed = false := by
      by_contra closed
      rw [Bool.not_eq_false] at closed
      have empty := (forwards.directions timer.side).emptied closed
      have none := timed timer.side
      rw [Timed, if_pos empty, List.countP_eq_zero] at none
      exact none timer member (decide_eq_true rfl)
    refine flush_spec ⟨forwards.directions, forwards.closes, forwards.budget,
      forwards.capped, forwards.others⟩ isOpen ⟨?_, fun other different => ?_⟩
    · have counted := countP_erase_of_mem member timer.side
      have before := timed timer.side
      rw [if_pos rfl] at counted
      rw [Timed] at before
      have most : held.splice.timers.countP (fun other => other.side = timer.side) ≤ 1 := by
        rw [before]
        split <;> decide
      show (held.splice.timers.erase timer).countP _ = 0
      omega
    · have counted := countP_erase_of_mem member other
      rw [if_neg (Ne.symm different), Nat.add_zero] at counted
      show (held.splice.timers.erase timer).countP _ = _
      rw [counted]
      exact timed other

theorem handle_spec (keeps : Keeps others held) (event : SpliceEvent) :
    Keeps others (held.handle event) := by
  have closes : ∀ info, Keeps others (held.close info) := by
    intro info
    cases closed : held.splice.closed with
    | true => exact (close_of_closed closed info).symm ▸ keeps
    | false => exact keeps_close keeps.forwards closed info
  cases event with
  | message side frame readings => exact onMessage_spec keeps frame readings
  | timer id readings => exact onTimer_spec keeps id readings
  | closed side => exact closes _
  | failed side message => exact closes _
  | close code reason => exact closes _

/-! ## Every run -/

/-- The bytes of the frames queued in the open splices. -/
def SpliceForwarder.queuedInOpen (forwarder : SpliceForwarder) : Nat :=
  ((forwarder.splices.filter (!·.closed)).map fun splice =>
    (splice.direction .client).frameTotal + (splice.direction .host).frameTotal).sum

structure SpliceSound (splice : Splice) : Prop where
  directions : ∀ side, DirectionSound splice.closed (splice.direction side)
  closes : splice.onCloseRuns = if splice.closed then 1 else 0
  timed : ∀ side, Timed splice side

theorem SpliceSound.nonneg {splice : Splice} (sound : SpliceSound splice) :
    0 ≤ splice.heldBytes :=
  Int.add_nonneg (sound.directions .client).nonneg (sound.directions .host).nonneg

structure ForwarderSound (forwarder : SpliceForwarder) : Prop where
  splices : ∀ splice ∈ forwarder.splices, SpliceSound splice
  budget : forwarder.budget.queued = (forwarder.splices.map Splice.heldBytes).sum
  capped : forwarder.budget.queued ≤ maxProcessQueuedBytes

theorem spliceSound_wired : SpliceSound .wired where
  directions := by
    intro side
    refine ⟨?_, rfl, ?_, List.prefix_rfl, fun _ => rfl, fun _ => rfl⟩
    · intro queued member
      cases member
    · show (0 : Int) ≤ spliceHardQueuedBytes
      decide
  closes := rfl
  timed := fun _ => rfl

theorem ForwarderSound.splice {forwarder : SpliceForwarder} (sound : ForwarderSound forwarder)
    {handle : Nat} {splice : Splice} (found : forwarder.splices[handle]? = some splice)
    (event : SpliceEvent) : ForwarderSound (forwarder.step (.splice handle event)) := by
  have total : forwarder.budget.queued =
      (forwarder.budget.queued - splice.heldBytes) + splice.heldBytes := by omega
  have held := sound.splices splice (List.mem_of_getElem? found)
  have others : 0 ≤ forwarder.budget.queued - splice.heldBytes := by
    have rest := sum_map_set_add found Splice.heldBytes .wired
    have nonneg : 0 ≤ ((forwarder.splices.set handle .wired).map Splice.heldBytes).sum := by
      refine List.sum_nonneg fun bytes member => ?_
      obtain ⟨kept, stored, rfl⟩ := List.mem_map.mp member
      rcases List.mem_or_eq_of_mem_set stored with old | rfl
      · exact (sound.splices kept old).nonneg
      · exact spliceSound_wired.nonneg
    rw [sound.budget]
    rw [show Splice.wired.heldBytes = 0 from rfl] at rest
    omega
  have keeps : Keeps (forwarder.budget.queued - splice.heldBytes)
      ⟨forwarder.budget, splice⟩ :=
    ⟨⟨held.directions, held.closes, total, sound.capped, others⟩, held.timed⟩
  obtain ⟨forwards, timed⟩ := handle_spec keeps event
  simp only [SpliceForwarder.step, found]
  refine ⟨fun kept member => ?_, ?_, forwards.capped⟩
  · rcases List.mem_or_eq_of_mem_set member with old | rfl
    · exact sound.splices kept old
    · exact ⟨forwards.directions, forwards.closes, timed⟩
  · have changed := sum_map_set_add found Splice.heldBytes
      ((BudgetedSplice.mk forwarder.budget splice).handle event).splice
    rw [← sound.budget] at changed
    show _ = ((forwarder.splices.set handle _).map Splice.heldBytes).sum
    rw [forwards.budget]
    omega

theorem ForwarderSound.step {forwarder : SpliceForwarder} (sound : ForwarderSound forwarder)
    (event : ForwarderEvent) : ForwarderSound (forwarder.step event) := by
  cases event with
  | wire =>
    refine ⟨fun splice member => ?_, ?_, sound.capped⟩
    · rcases List.mem_append.mp member with old | new
      · exact sound.splices splice old
      · obtain rfl := List.mem_singleton.mp new
        exact spliceSound_wired
    · show forwarder.budget.queued = ((forwarder.splices ++ [Splice.wired]).map _).sum
      rw [List.map_append, List.map_singleton, List.sum_append, List.sum_singleton, sound.budget]
      exact (Int.add_zero _).symm
  | splice handle event =>
    cases found : forwarder.splices[handle]? with
    | none => simpa only [SpliceForwarder.step, found] using sound
    | some splice => exact sound.splice found event

theorem forwarderSound_after (events : List ForwarderEvent) :
    ForwarderSound (.after events) := by
  refine foldl_preserves ⟨?_, rfl, ?_⟩ (fun _ event sound => sound.step event) events
  · intro splice member
    cases member
  · show (0 : Int) ≤ maxProcessQueuedBytes
    decide

theorem ForwarderSound.current {forwarder : SpliceForwarder} (sound : ForwarderSound forwarder) :
    forwarder.budget.current = forwarder.queuedInOpen := by
  obtain ⟨budget, splices⟩ := forwarder
  rw [ProcessQueuedByteBudget.current, sound.budget]
  have each := sound.splices
  clear sound
  unfold SpliceForwarder.queuedInOpen
  simp only at each ⊢
  induction splices with
  | nil => rfl
  | cons splice rest ih =>
    have held := each splice List.mem_cons_self
    have later := ih fun splice member => each splice (List.mem_cons_of_mem _ member)
    rw [List.map_cons, List.sum_cons, later, Splice.heldBytes,
      (held.directions .client).bytes, (held.directions .host).bytes]
    cases closed : splice.closed with
    | true =>
      rw [Direction.frameTotal, Direction.frameTotal,
        (held.directions .client).emptied closed, (held.directions .host).emptied closed]
      simp [closed]
    | false => simp [closed]

end OxeeUI.Relay
