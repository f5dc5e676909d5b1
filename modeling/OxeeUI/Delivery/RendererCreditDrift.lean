import OxeeUI.Delivery.RendererDebts

/-!
# Renderer credit does not drift

The exit of a PTY sends what is pending and then releases the whole debt, so it
settles the PTY while the window is live.  Over a whole run the accounts stay
between zero and what was sent, the stored sum is the sum of the debts, and no
clamp changes a value.  Once every PTY is acknowledged, written off or exited
since its last send, nothing gates a terminal.
-/

namespace OxeeUI.Delivery

open OxeeUI.Library RendererPtyDeliveryAccounting

variable {session : PtyIpcSession} {id : PtyId}

section Exit

variable {moment : Moment} {payload : PtyExitPayload} {stops : List IntentionalPtyStop}
  {faults : SendFaults}

/-- What the preparation of an exit comes to while the window is live. -/
structure ExitPrepared (session : PtyIpcSession) (id : PtyId) (prepared : PtyIpcSession) :
    Prop where
  sound : CreditExact prepared
  window : prepared.mainWindow = session.mainWindow
  exiting : prepared.rendererExitingPtyIds = session.rendererExitingPtyIds.insert id
  others : ∀ other, other ≠ id →
    getRendererInFlightCharsForPty prepared other = getRendererInFlightCharsForPty session other

theorem preparePtyExitForRenderer_spec (sound : CreditExact session)
    (live : session.mainWindow.isLive = true) (idle : id ∉ session.rendererExitingPtyIds) :
    ∃ prepared, preparePtyExitForRenderer unclamped moment session id faults = some prepared ∧
      ExitPrepared session id prepared := by
  unfold preparePtyExitForRenderer
  rw [if_pos live, if_neg idle]
  have marked : CreditExact { session with
      rendererExitingPtyIds := session.rendererExitingPtyIds.insert id
      pendingData := session.pendingData.delete id } := sound.of_eq rfl rfl
  cases session.pendingData.get? id with
  | none => exact ⟨_, rfl, marked, rfl, rfl, fun _ _ => rfl⟩
  | some remaining =>
    have frame := sendPtyDataToRenderer_frame unclamped moment
      { session with
        rendererExitingPtyIds := session.rendererExitingPtyIds.insert id
        pendingData := session.pendingData.delete id }
      id (remainingPayload id remaining) faults
    refine ⟨_, rfl, sendPtyDataToRenderer_exact marked, frame.2, frame.1, ?_⟩
    intro other different
    exact sendPtyDataToRenderer_inFlight marked (.inl different)

theorem preparePtyExitForRenderer_clamp (sound : CreditExact session) :
    preparePtyExitForRenderer clampToZero moment session id faults =
      preparePtyExitForRenderer unclamped moment session id faults := by
  unfold preparePtyExitForRenderer
  have marked : CreditExact { session with
      rendererExitingPtyIds := session.rendererExitingPtyIds.insert id
      pendingData := session.pendingData.delete id } := sound.of_eq rfl rfl
  simp only [sendPtyDataToRenderer_clamp marked]

theorem finalizePtyExitForRenderer_exact (sound : CreditExact session) (payload : PtyExitPayload)
    (stops : List IntentionalPtyStop) (throws : Bool) :
    CreditExact (finalizePtyExitForRenderer unclamped session payload stops throws) := by
  unfold finalizePtyExitForRenderer
  split
  · constructor
    case bounds =>
      intro other accounting found
      rw [JsMap.get?_delete] at found
      split at found
      · cases found
      · exact sound.bounds other accounting found
    case total =>
      rw [JsMap.total_delete, ← sound.total]
      rfl
  · exact sound

theorem finalizePtyExitForRenderer_clamp (sound : CreditExact session) (throws : Bool) :
    finalizePtyExitForRenderer clampToZero session payload stops throws =
      finalizePtyExitForRenderer unclamped session payload stops throws := by
  have idle := (finalizePtyExitForRenderer_exact sound payload stops throws).clamp_total
  unfold finalizePtyExitForRenderer at idle ⊢
  split
  case isTrue live =>
    rw [if_pos live] at idle
    simp only [unclamped] at idle ⊢
    rw [idle]
  case isFalse => rfl

theorem finalizePtyExitForRenderer_releases (live : session.mainWindow.isLive = true)
    (payload : PtyExitPayload) (stops : List IntentionalPtyStop) (throws : Bool)
    (other : PtyId) :
    getRendererInFlightCharsForPty
        (finalizePtyExitForRenderer unclamped session payload stops throws) other =
      if other = payload.id then 0 else getRendererInFlightCharsForPty session other := by
  unfold finalizePtyExitForRenderer
  rw [if_pos live]
  exact JsMap.weightAt_delete _ _ _

/-- What an exit comes to when its PTY is not exiting already. -/
structure ExitSound (session : PtyIpcSession) (payload : PtyExitPayload)
    (after : PtyIpcSession) : Prop where
  sound : CreditExact after
  eased : Eases session after
  settled : session.mainWindow.isLive = true → getRendererInFlightCharsForPty after payload.id = 0
  exiting : after.rendererExitingPtyIds = []

theorem sendPtyExitToRenderer_sound (sound : CreditExact session)
    (idle : session.rendererExitingPtyIds = []) :
    ExitSound session payload
      (sendPtyExitToRenderer unclamped moment session payload stops faults) := by
  unfold sendPtyExitToRenderer
  cases live : session.mainWindow.isLive with
  | false =>
    have unprepared : preparePtyExitForRenderer unclamped moment session payload.id faults =
        some session := by simp [preparePtyExitForRenderer, live]
    have unfinished : finalizePtyExitForRenderer unclamped session payload stops faults.exit =
        session := by simp [finalizePtyExitForRenderer, live]
    rw [unprepared]
    simp only [unfinished, Bool.false_eq_true, if_false]
    refine ⟨sound, .refl session, ?_, idle⟩
    intro alive
    rw [live] at alive
    cases alive
  | true =>
    have absent : payload.id ∉ session.rendererExitingPtyIds := by
      rw [idle]
      exact List.not_mem_nil
    obtain ⟨prepared, found, spec⟩ := @preparePtyExitForRenderer_spec session payload.id moment
      faults sound live absent
    have alive : prepared.mainWindow.isLive = true := by rw [spec.window, live]
    have released := finalizePtyExitForRenderer_releases alive payload stops faults.exit
    rw [found]
    simp only [if_true]
    refine ⟨(finalizePtyExitForRenderer_exact spec.sound payload stops faults.exit).of_eq rfl rfl, ?_, ?_, ?_⟩
    · intro other
      refine (released other).trans_le ?_
      split
      · exact sound.inFlight_nonneg other
      case isFalse different => exact (spec.others other different).le
    · intro _
      exact (released payload.id).trans (if_pos rfl)
    · have claimed : (finalizePtyExitForRenderer unclamped prepared payload stops
          faults.exit).rendererExitingPtyIds = prepared.rendererExitingPtyIds := by
        unfold finalizePtyExitForRenderer
        rw [if_pos alive]
      rw [claimed, spec.exiting, idle]
      simp

theorem sendPtyExitToRenderer_clamp (sound : CreditExact session)
    (idle : session.rendererExitingPtyIds = []) :
    sendPtyExitToRenderer clampToZero moment session payload stops faults =
      sendPtyExitToRenderer unclamped moment session payload stops faults := by
  unfold sendPtyExitToRenderer
  rw [preparePtyExitForRenderer_clamp sound]
  cases live : session.mainWindow.isLive with
  | false =>
    have unprepared : preparePtyExitForRenderer unclamped moment session payload.id faults =
        some session := by simp [preparePtyExitForRenderer, live]
    rw [unprepared]
    simp only [finalizePtyExitForRenderer_clamp sound]
  | true =>
    have absent : payload.id ∉ session.rendererExitingPtyIds := by
      rw [idle]
      exact List.not_mem_nil
    obtain ⟨prepared, found, spec⟩ := @preparePtyExitForRenderer_spec session payload.id moment
      faults sound live absent
    rw [found]
    simp only [finalizePtyExitForRenderer_clamp spec.sound]

end Exit

/-- Whether an event raises the debt of a PTY: only a send that leaves does. -/
def DeliveryEvent.Charges (event : DeliveryEvent) (id : PtyId) : Prop :=
  match event with
  | .send _ other _ faults => other = id ∧ faults.data = false
  | _ => False

/-- Whether an event settles a PTY: a full acknowledgement, an entry of a write-off, an exit under
a live window, or a wholesale clear. -/
def DeliveryEvent.Settles (event : DeliveryEvent) (session : PtyIpcSession) (id : PtyId) : Prop :=
  match event with
  | .ack _ other processedChars =>
    other = id ∧ ∀ accounting,
      session.rendererDeliveryAccountingByPty.get? id = some accounting →
        accounting.sentChars ≤ processedChars
  | .writeOff moment report =>
    id ∈ (writeOffLostRendererDelivery clampToZero moment session report).1.map (·.id)
  | .exit _ payload _ _ => payload.id = id ∧ session.mainWindow.isLive = true
  | .clearWithoutWindow => session.mainWindow.isLive = false
  | .lifecycleReset => True
  | .send .. | .pend .. | .loseWindow => False

structure DeliverySound (session : PtyIpcSession) : Prop where
  credit : CreditExact session
  exiting : session.rendererExitingPtyIds = []

theorem createPtyIpcSession_sound (mainWindow : RendererWindow) :
    DeliverySound (createPtyIpcSession mainWindow) :=
  ⟨.empty _ rfl rfl, rfl⟩

theorem deliver_clamp (held : DeliverySound session) (event : DeliveryEvent) :
    deliver clampToZero session event = deliver unclamped session event := by
  cases event with
  | send moment id payload faults =>
    simp only [deliver, sendPtyDataToRenderer_clamp held.credit]
  | ack moment id processedChars =>
    simp only [deliver, applyCumulativeAck_clamp held.credit]
  | writeOff moment report =>
    simp only [deliver, writeOffLostRendererDelivery_clamp held.credit]
  | pend id pending => rfl
  | exit moment payload stops faults =>
    exact sendPtyExitToRenderer_clamp held.credit held.exiting
  | loseWindow => rfl
  | clearWithoutWindow => rfl
  | lifecycleReset => rfl

theorem clearDeliveryWithoutWindow_sound (held : DeliverySound session) :
    DeliverySound (clearDeliveryWithoutWindow session) ∧
      Eases session (clearDeliveryWithoutWindow session) := by
  unfold clearDeliveryWithoutWindow
  split
  · exact ⟨held, .refl session⟩
  · exact ⟨⟨.empty _ rfl rfl, held.exiting⟩, .of_cleared held.credit rfl⟩

/-- The step lemma: every event keeps the sum exact, and none but a send that leaves raises a
debt. -/
theorem deliver_sound (held : DeliverySound session) (event : DeliveryEvent) :
    DeliverySound (deliver unclamped session event) ∧
      ∀ id, ¬ event.Charges id →
        getRendererInFlightCharsForPty (deliver unclamped session event) id ≤
          getRendererInFlightCharsForPty session id := by
  cases event with
  | send moment target payload faults =>
    have frame := sendPtyDataToRenderer_frame unclamped moment session target payload faults
    refine ⟨⟨sendPtyDataToRenderer_exact held.credit, frame.1.trans held.exiting⟩, ?_⟩
    intro id uncharged
    refine (sendPtyDataToRenderer_inFlight held.credit ?_).le
    by_cases here : id = target
    · refine .inr (Bool.not_eq_false _ ▸ fun left => uncharged ⟨here.symm, left⟩)
    · exact .inl here
  | ack moment target processedChars =>
    have eased := applyCumulativeAck_eases held.credit target moment.now processedChars
    refine ⟨⟨applyCumulativeAck_exact held.credit _ _ _, ?_⟩, fun id _ => eased id⟩
    exact (applyCumulativeAck_frame _ _ _ _ _).trans held.exiting
  | writeOff moment report =>
    have loop := writeOffLostRendererDelivery_sound held.credit moment report
    exact ⟨⟨loop.sound, loop.exiting.trans held.exiting⟩, fun id _ => loop.eased id⟩
  | pend target pending =>
    exact ⟨⟨held.credit.of_eq rfl rfl, held.exiting⟩, fun _ _ => le_refl _⟩
  | exit moment payload stops faults =>
    have left := @sendPtyExitToRenderer_sound session moment payload stops faults held.credit
      held.exiting
    exact ⟨⟨left.sound, left.exiting⟩, fun id _ => left.eased id⟩
  | loseWindow => exact ⟨⟨held.credit.of_eq rfl rfl, held.exiting⟩, fun _ _ => le_refl _⟩
  | clearWithoutWindow =>
    have cleared := clearDeliveryWithoutWindow_sound held
    exact ⟨cleared.1, fun id _ => cleared.2 id⟩
  | lifecycleReset =>
    have eased : Eases session (resetRendererDeliveryAccountingForLifecycleReset session) :=
      .of_cleared held.credit rfl
    exact ⟨⟨.empty _ rfl rfl, held.exiting⟩, fun id _ => eased id⟩

theorem deliver_settles (held : DeliverySound session) {event : DeliveryEvent}
    (settles : event.Settles session id) :
    getRendererInFlightCharsForPty (deliver unclamped session event) id = 0 := by
  cases event with
  | send moment target payload faults => exact settles.elim
  | ack moment target processedChars =>
    obtain ⟨rfl, full⟩ := settles
    exact applyCumulativeAck_settles full
  | writeOff moment report =>
    have loop := writeOffLostRendererDelivery_sound held.credit moment report
    simp only [DeliveryEvent.Settles, writeOffLostRendererDelivery_clamp held.credit] at settles
    obtain ⟨entry, member, rfl⟩ := List.mem_map.mp settles
    exact loop.settled entry member
  | pend target pending => exact settles.elim
  | exit moment payload stops faults =>
    obtain ⟨rfl, live⟩ := settles
    exact (sendPtyExitToRenderer_sound held.credit held.exiting).settled live
  | loseWindow => exact settles.elim
  | clearWithoutWindow =>
    have lost : session.mainWindow.isLive = false := settles
    simp only [deliver, clearDeliveryWithoutWindow, lost, Bool.false_eq_true, if_false]
    rfl
  | lifecycleReset => rfl

section Runs

variable {mainWindow : RendererWindow} {events : List DeliveryEvent}

theorem runDelivery_append (mainWindow : RendererWindow) (events : List DeliveryEvent)
    (event : DeliveryEvent) :
    runDelivery mainWindow (events ++ [event]) =
      deliver clampToZero (runDelivery mainWindow events) event := by
  rw [runDelivery, List.foldl_append]
  rfl

theorem runDelivery_sound (mainWindow : RendererWindow) (events : List DeliveryEvent) :
    DeliverySound (runDelivery mainWindow events) := by
  refine @foldl_preserves _ _ (deliver clampToZero) DeliverySound _
    (createPtyIpcSession_sound mainWindow) ?_ events
  intro session event held
  rw [deliver_clamp held]
  exact (deliver_sound held event).1

/-- A PTY is settled in a run when nothing raised its debt since it was last settled, or ever. -/
inductive Settled (mainWindow : RendererWindow) (id : PtyId) : List DeliveryEvent → Prop
  | unsent : Settled mainWindow id []
  | settles {events : List DeliveryEvent} {event : DeliveryEvent} :
      event.Settles (runDelivery mainWindow events) id → Settled mainWindow id (events ++ [event])
  | quiet {events : List DeliveryEvent} {event : DeliveryEvent} :
      Settled mainWindow id events → ¬ event.Charges id → Settled mainWindow id (events ++ [event])

theorem Settled.no_debt (settled : Settled mainWindow id events) :
    getRendererInFlightCharsForPty (runDelivery mainWindow events) id = 0 := by
  induction settled with
  | unsent => rfl
  | @settles events event settles =>
    have held := runDelivery_sound mainWindow events
    rw [runDelivery_append, deliver_clamp held]
    exact deliver_settles held settles
  | @quiet events event _ uncharged ih =>
    have held := runDelivery_sound mainWindow events
    have step := deliver_sound held event
    rw [runDelivery_append, deliver_clamp held]
    exact le_antisymm ((step.2 id uncharged).trans_eq ih) (step.1.credit.inFlight_nonneg id)

theorem canSend_of_no_debt (total : session.rendererInFlightTotalChars = 0)
    (settled : getRendererInFlightCharsForPty session id = 0) (interactive : Bool) :
    canSendPtyDataToRenderer session id interactive = true := by
  unfold canSendPtyDataToRenderer
  rw [settled, total]
  cases interactive with
  | false => decide +kernel
  | true => decide +kernel

/-- The credit of two sessions is the same: the sum, and what each account has sent and
acknowledged. -/
structure SameCredit (before after : PtyIpcSession) : Prop where
  total : after.rendererInFlightTotalChars = before.rendererInFlightTotalChars
  accounts : ∀ id,
    (after.rendererDeliveryAccountingByPty.get? id).map
        (fun accounting => (accounting.sentChars, accounting.ackedChars)) =
      (before.rendererDeliveryAccountingByPty.get? id).map
        (fun accounting => (accounting.sentChars, accounting.ackedChars))

theorem sendPtyDataToRenderer_throws (sound : CreditExact session) {moment : Moment}
    {payload : PtyDataPayload} {faults : SendFaults} (thrown : faults.data = true) :
    SameCredit session (sendPtyDataToRenderer clampToZero moment session id payload faults).2 := by
  rw [sendPtyDataToRenderer_clamp sound]
  rcases sendPtyDataToRenderer_cases unclamped moment session id payload faults with
    ⟨_, same⟩ | ⟨_, same⟩ | ⟨left, _⟩
  · rw [same]
    exact ⟨rfl, fun _ => rfl⟩
  · rw [same]
    refine ⟨rollBack_total sound id _ _ _, fun other => ?_⟩
    rw [rollBack_get? sound, Option.map_map]
    congr 1
    funext accounting
    by_cases here : other = id
    · simp [here]
    · simp [here]
  · rw [left] at thrown
    cases thrown

end Runs

section Instances

def quietMoment : Moment := ⟨0, fun _ => none⟩

def noFaults : SendFaults := ⟨false, false, false⟩

def transformedOutput (id : PtyId) (rawLength : ℤ) : PtyDataPayload :=
  { id, data := [], seq := none, rawLength := some rawLength, transformed := true,
    background := false, droppedOutput := false, gapEscapeState := none }

/-- A shell that is acknowledged past what it was sent. -/
def acknowledgedRun : List DeliveryEvent :=
  [.send quietMoment "shell" (transformedOutput "shell" 5) noFaults,
    .ack quietMoment "shell" 9]

theorem acknowledgedRun_settled (id : PtyId) : Settled .live id acknowledgedRun := by
  by_cases here : id = "shell"
  · subst here
    refine @Settled.settles .live "shell"
      [.send quietMoment "shell" (transformedOutput "shell" 5) noFaults]
      (.ack quietMoment "shell" 9) ⟨rfl, fun accounting found => ?_⟩
    have stored : accounting = ⟨5, 0, 0, none⟩ := (Option.some.inj found).symm
    rw [stored]
    decide +kernel
  · have quiet : Settled .live id
        ([] ++ [.send quietMoment "shell" (transformedOutput "shell" 5) noFaults]) :=
      .quiet .unsent fun charged => here charged.1.symm
    exact @Settled.quiet .live id _ (.ack quietMoment "shell" 9) quiet fun charged => charged

/-- A shell that is sent output, loses its window and exits. -/
def exitWithoutWindowRun : List DeliveryEvent :=
  [.send quietMoment "shell" (transformedOutput "shell" 614400) noFaults, .loseWindow,
    .exit quietMoment ⟨"shell", 0, none⟩ [] noFaults]

/-- A shell that is sent output, and then more by a send that throws a moment later. -/
def throwingRun : List DeliveryEvent :=
  [.send quietMoment "shell" (transformedOutput "shell" 5) noFaults,
    .send ⟨1, fun _ => none⟩ "shell" (transformedOutput "shell" 7) ⟨true, false, false⟩]

end Instances

end OxeeUI.Delivery
