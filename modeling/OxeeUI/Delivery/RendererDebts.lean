import OxeeUI.Delivery.RendererCreditLaws

/-!
# Debts of the renderer credit

Which operations raise a debt, and which settle one.  None but a send that
leaves raises a debt, and only that of its PTY; an acknowledgement of everything
sent settles one, and so does each entry of a write-off, whose loop is a
sequence of acknowledgements.
-/

namespace OxeeUI.Delivery

open OxeeUI.Library RendererPtyDeliveryAccounting

variable {session : PtyIpcSession} {id : PtyId}

def Eases (session after : PtyIpcSession) : Prop :=
  ∀ id, getRendererInFlightCharsForPty after id ≤ getRendererInFlightCharsForPty session id

namespace Eases

theorem refl (session : PtyIpcSession) : Eases session session := fun _ => le_refl _

theorem trans {first second third : PtyIpcSession} (early : Eases first second)
    (late : Eases second third) : Eases first third :=
  fun id => (late id).trans (early id)

theorem of_accounts {after : PtyIpcSession}
    (same : after.rendererDeliveryAccountingByPty = session.rendererDeliveryAccountingByPty) :
    Eases session after := by
  intro id
  rw [getRendererInFlightCharsForPty, getRendererInFlightCharsForPty, same]

theorem of_cleared {after : PtyIpcSession} (sound : CreditExact session)
    (cleared : after.rendererDeliveryAccountingByPty = .empty) : Eases session after := by
  intro id
  refine le_trans (le_of_eq ?_) (sound.inFlight_nonneg id)
  rw [getRendererInFlightCharsForPty, cleared]
  rfl

theorem settled {after : PtyIpcSession} (eased : Eases session after) (sound : CreditExact after)
    (settled : getRendererInFlightCharsForPty session id = 0) :
    getRendererInFlightCharsForPty after id = 0 :=
  le_antisymm ((eased id).trans_eq settled) (sound.inFlight_nonneg id)

end Eases

section Send

variable {moment : Moment} {payload : PtyDataPayload} {faults : SendFaults}

theorem chargePtyDelivery_other {other : PtyId} (different : other ≠ id) (charCount : ℚ)
    (now : ℤ) :
    getRendererInFlightCharsForPty (chargePtyDelivery session id charCount now) other =
      getRendererInFlightCharsForPty session other := by
  simp only [getRendererInFlightCharsForPty, chargePtyDelivery]
  rw [JsMap.weightAt_set, if_neg different]

theorem rollBack_inFlight (sound : CreditExact session) (charCount : ℚ) (now : ℤ)
    (other : PtyId) :
    getRendererInFlightCharsForPty (rollBackPtyDelivery unclamped
      (chargePtyDelivery session id charCount now) id charCount
      (session.rendererDeliveryAccountingByPty.has id)) other =
      getRendererInFlightCharsForPty session other := by
  simp only [getRendererInFlightCharsForPty, JsMap.weightAt, rollBack_get? sound, Option.map_map]
  congr 2
  funext accounting
  by_cases here : other = id
  · simp [here, inFlightChars]
  · simp [here]

theorem sendPtyDataToRenderer_inFlight (sound : CreditExact session) {other : PtyId}
    (uncharged : other ≠ id ∨ faults.data = true) :
    getRendererInFlightCharsForPty
        (sendPtyDataToRenderer unclamped moment session id payload faults).2 other =
      getRendererInFlightCharsForPty session other := by
  rcases sendPtyDataToRenderer_cases unclamped moment session id payload faults with
    ⟨_, same⟩ | ⟨_, same⟩ | ⟨left, after, same, accounts, _⟩
  · rw [same]
  · rw [same]
    exact rollBack_inFlight sound _ _ other
  · rcases uncharged with different | thrown
    · rw [same, getRendererInFlightCharsForPty, accounts]
      exact chargePtyDelivery_other different _ _
    · rw [left] at thrown
      cases thrown

theorem rollBackPtyDelivery_frame (clamp : ℚ → ℚ) (session : PtyIpcSession) (id : PtyId)
    (charCount : ℚ) (had : Bool) :
    (rollBackPtyDelivery clamp session id charCount had).rendererExitingPtyIds =
        session.rendererExitingPtyIds ∧
      (rollBackPtyDelivery clamp session id charCount had).mainWindow = session.mainWindow := by
  unfold rollBackPtyDelivery
  cases session.rendererDeliveryAccountingByPty.get? id with
  | none => exact ⟨rfl, rfl⟩
  | some current => exact ⟨rfl, rfl⟩

theorem sendPtyDataToRenderer_frame (clamp : ℚ → ℚ) (moment : Moment) (session : PtyIpcSession)
    (id : PtyId) (payload : PtyDataPayload) (faults : SendFaults) :
    (sendPtyDataToRenderer clamp moment session id payload faults).2.rendererExitingPtyIds =
        session.rendererExitingPtyIds ∧
      (sendPtyDataToRenderer clamp moment session id payload faults).2.mainWindow =
        session.mainWindow := by
  rcases sendPtyDataToRenderer_cases clamp moment session id payload faults with
    ⟨_, same⟩ | ⟨_, same⟩ | ⟨_, after, same, _, _, frame⟩
  · rw [same]
    exact ⟨rfl, rfl⟩
  · rw [same]
    exact rollBackPtyDelivery_frame clamp _ id _ _
  · rw [same]
    exact frame

end Send

section Acknowledge

theorem applyCumulativeAck_eases (sound : CreditExact session) (id : PtyId) (now : ℤ)
    (processedChars : ℚ) :
    Eases session (applyCumulativeAck unclamped now session id processedChars).2 := by
  intro other
  unfold applyCumulativeAck
  cases existing : session.rendererDeliveryAccountingByPty.get? id with
  | none => exact le_refl _
  | some accounting =>
    simp only [getRendererInFlightCharsForPty]
    rw [JsMap.weightAt_set]
    split
    case isTrue here =>
      rw [here, JsMap.weightAt_of_get? existing]
      refine sub_le_sub_left ?_ _
      exact le_min (sound.bounds id accounting existing).2 (le_max_left _ _)
    case isFalse => exact le_refl _

theorem applyCumulativeAck_settles {now : ℤ} {processedChars : ℚ}
    (full : ∀ accounting, session.rendererDeliveryAccountingByPty.get? id = some accounting →
      accounting.sentChars ≤ processedChars) :
    getRendererInFlightCharsForPty
      (applyCumulativeAck unclamped now session id processedChars).2 id = 0 := by
  unfold applyCumulativeAck
  cases existing : session.rendererDeliveryAccountingByPty.get? id with
  | none => exact JsMap.weightAt_of_absent existing
  | some accounting =>
    simp only [getRendererInFlightCharsForPty]
    rw [JsMap.weightAt_set, if_pos rfl, inFlightChars]
    have reached : accounting.sentChars ≤ max accounting.ackedChars processedChars :=
      (full accounting existing).trans (le_max_right _ _)
    rw [min_eq_left reached, sub_self]

theorem applyCumulativeAck_frame (clamp : ℚ → ℚ) (now : ℤ) (session : PtyIpcSession)
    (id : PtyId) (processedChars : ℚ) :
    (applyCumulativeAck clamp now session id processedChars).2.rendererExitingPtyIds =
        session.rendererExitingPtyIds := by
  unfold applyCumulativeAck
  cases session.rendererDeliveryAccountingByPty.get? id with
  | none => rfl
  | some accounting => rfl

end Acknowledge

section WriteOff

variable {moment : Moment} {report : PtyRendererDeliveryStateReport}
  {progress : List PtyDeliveryWriteOff × PtyIpcSession}

/-- What the loop of a write-off keeps: an exact sum, lower debts, and none left at an entry. -/
structure WriteOffSound (session : PtyIpcSession)
    (progress : List PtyDeliveryWriteOff × PtyIpcSession) : Prop where
  sound : CreditExact progress.2
  eased : Eases session progress.2
  settled : ∀ entry ∈ progress.1, getRendererInFlightCharsForPty progress.2 entry.id = 0
  exiting : progress.2.rendererExitingPtyIds = session.rendererExitingPtyIds

/-- What a round of the loop comes to: nothing, or an acknowledgement of everything sent. -/
theorem writeOffPtyDelivery_cases (clamp : ℚ → ℚ) (moment : Moment)
    (report : PtyRendererDeliveryStateReport)
    (progress : List PtyDeliveryWriteOff × PtyIpcSession) (id : PtyId) :
    writeOffPtyDelivery clamp moment report progress id = progress ∨
    ∃ accounting, progress.2.rendererDeliveryAccountingByPty.get? id = some accounting ∧
      (∀ entry ∈ (writeOffPtyDelivery clamp moment report progress id).1,
        entry ∈ progress.1 ∨ entry.id = id) ∧
      (writeOffPtyDelivery clamp moment report progress id).2.rendererDeliveryAccountingByPty =
        (applyCumulativeAck clamp moment.now progress.2 id
          accounting.sentChars).2.rendererDeliveryAccountingByPty ∧
      (writeOffPtyDelivery clamp moment report progress id).2.rendererInFlightTotalChars =
        (applyCumulativeAck clamp moment.now progress.2 id
          accounting.sentChars).2.rendererInFlightTotalChars ∧
      (writeOffPtyDelivery clamp moment report progress id).2.rendererExitingPtyIds =
        progress.2.rendererExitingPtyIds := by
  unfold writeOffPtyDelivery
  cases existing : progress.2.rendererDeliveryAccountingByPty.get? id with
  | none => exact .inl rfl
  | some accounting =>
    have frame := applyCumulativeAck_frame clamp moment.now progress.2 id accounting.sentChars
    cases kept : keepsDebt report id accounting with
    | true => exact .inl (by simp [kept])
    | false =>
      refine .inr ⟨accounting, rfl, ?_⟩
      simp only [kept, Bool.false_eq_true, if_false]
      split
      · exact ⟨fun entry member => .inl member, rfl, rfl, frame⟩
      · refine ⟨?_, ?_⟩
        · intro entry member
          rcases List.mem_append.mp member with old | new
          · exact .inl old
          · exact .inr (by simp [List.mem_singleton.mp new])
        · split
          · exact ⟨rfl, rfl, frame⟩
          · exact ⟨rfl, rfl, frame⟩

theorem writeOffPtyDelivery_sound (held : WriteOffSound session progress) (id : PtyId) :
    WriteOffSound session (writeOffPtyDelivery unclamped moment report progress id) := by
  rcases writeOffPtyDelivery_cases unclamped moment report progress id with
    same | ⟨accounting, existing, entries, accounts, sum, exiting⟩
  · rw [same]
    exact held
  · have acknowledged := applyCumulativeAck_exact held.sound id moment.now accounting.sentChars
    have sound : CreditExact (writeOffPtyDelivery unclamped moment report progress id).2 :=
      acknowledged.of_eq accounts sum
    have round : Eases progress.2 (writeOffPtyDelivery unclamped moment report progress id).2 :=
      (applyCumulativeAck_eases held.sound id moment.now accounting.sentChars).trans
        (Eases.of_accounts accounts)
    refine ⟨sound, held.eased.trans round, fun entry member => ?_, exiting.trans held.exiting⟩
    rcases entries entry member with old | here
    · exact round.settled sound (held.settled entry old)
    · rw [here, getRendererInFlightCharsForPty, accounts]
      refine applyCumulativeAck_settles fun other found => ?_
      rw [existing] at found
      cases found
      exact le_refl _

theorem writeOffLostRendererDelivery_sound (sound : CreditExact session) (moment : Moment)
    (report : PtyRendererDeliveryStateReport) :
    WriteOffSound session (writeOffLostRendererDelivery unclamped moment session report) := by
  refine @foldl_preserves _ _ (writeOffPtyDelivery unclamped moment report)
    (WriteOffSound session) ([], session) ?_ ?_ _
  · refine ⟨sound, .refl session, ?_, rfl⟩
    intro entry member
    cases member
  · exact fun progress id held => writeOffPtyDelivery_sound held id

theorem writeOffPtyDelivery_clamp (sound : CreditExact progress.2) (id : PtyId) :
    writeOffPtyDelivery clampToZero moment report progress id =
      writeOffPtyDelivery unclamped moment report progress id := by
  unfold writeOffPtyDelivery
  simp only [applyCumulativeAck_clamp sound]

theorem writeOffLostRendererDelivery_clamp (sound : CreditExact session) (moment : Moment)
    (report : PtyRendererDeliveryStateReport) :
    writeOffLostRendererDelivery clampToZero moment session report =
      writeOffLostRendererDelivery unclamped moment session report := by
  unfold writeOffLostRendererDelivery
  have fold : ∀ (ids : List PtyId) (progress : List PtyDeliveryWriteOff × PtyIpcSession),
      WriteOffSound session progress →
      ids.foldl (writeOffPtyDelivery clampToZero moment report) progress =
        ids.foldl (writeOffPtyDelivery unclamped moment report) progress := by
    intro ids
    induction ids with
    | nil => exact fun _ _ => rfl
    | cons id rest ih =>
      intro progress held
      rw [List.foldl_cons, List.foldl_cons, writeOffPtyDelivery_clamp held.sound]
      exact ih _ (writeOffPtyDelivery_sound held id)
  refine fold _ _ ⟨sound, .refl session, ?_, rfl⟩
  intro entry member
  cases member

end WriteOff

end OxeeUI.Delivery
