import OxeeUI.Delivery.RendererCredit
import OxeeUI.Library.Run
import Mathlib.Algebra.Order.Field.Rat
import Mathlib.Tactic.Linarith
import Mathlib.Tactic.Ring

/-!
# The sum of the debts

Every operation keeps the accounts between zero and what was sent and keeps the
stored sum equal to the sum of the debts.  A sum of debts is never negative, so
no clamp of the source ever changes a value: each operation is the same
operation without its clamps.
-/

namespace OxeeUI.Delivery

open OxeeUI.Library RendererPtyDeliveryAccounting

/-- No account is overdrawn, and the stored sum is the sum of the debts. -/
structure CreditExact (session : PtyIpcSession) : Prop where
  bounds : ∀ id accounting, session.rendererDeliveryAccountingByPty.get? id = some accounting →
    0 ≤ accounting.ackedChars ∧ accounting.ackedChars ≤ accounting.sentChars
  total : session.rendererInFlightTotalChars =
    session.rendererDeliveryAccountingByPty.total inFlightChars

variable {session : PtyIpcSession} {id : PtyId}

namespace CreditExact

theorem of_eq {other : PtyIpcSession} (sound : CreditExact session)
    (accounts : other.rendererDeliveryAccountingByPty = session.rendererDeliveryAccountingByPty)
    (sum : other.rendererInFlightTotalChars = session.rendererInFlightTotalChars) :
    CreditExact other where
  bounds := by
    rw [accounts]
    exact sound.bounds
  total := by
    rw [accounts, sum]
    exact sound.total

theorem total_nonneg (sound : CreditExact session) : 0 ≤ session.rendererInFlightTotalChars := by
  rw [sound.total]
  refine JsMap.total_nonneg fun key accounting found => ?_
  exact sub_nonneg.mpr (sound.bounds key accounting found).2

theorem inFlight_nonneg (sound : CreditExact session) (id : PtyId) :
    0 ≤ getRendererInFlightCharsForPty session id := by
  unfold getRendererInFlightCharsForPty
  cases found : session.rendererDeliveryAccountingByPty.get? id with
  | none => rw [JsMap.weightAt_of_absent found]
  | some accounting =>
    rw [JsMap.weightAt_of_get? found]
    exact sub_nonneg.mpr (sound.bounds id accounting found).2

theorem clamp_total (sound : CreditExact session) :
    clampToZero session.rendererInFlightTotalChars = session.rendererInFlightTotalChars :=
  max_eq_right sound.total_nonneg

theorem empty (session : PtyIpcSession)
    (accounts : session.rendererDeliveryAccountingByPty = .empty)
    (sum : session.rendererInFlightTotalChars = 0) : CreditExact session where
  bounds := by
    intro id accounting found
    rw [accounts] at found
    cases found
  total := by rw [accounts, sum, JsMap.total_empty]

end CreditExact

section Charge

variable {charCount : ℚ} {now : ℤ}

theorem chargedAccounting_inFlight (existing : Option RendererPtyDeliveryAccounting)
    (charCount : ℚ) (now : ℤ) :
    (chargedAccounting existing charCount now).inFlightChars =
      (existing.map inFlightChars).getD 0 + charCount := by
  cases existing with
  | none => simp [chargedAccounting, inFlightChars]
  | some accounting =>
    simp only [chargedAccounting, inFlightChars, Option.map_some, Option.getD_some]
    ring

theorem chargePtyDelivery_exact (sound : CreditExact session) (nonneg : 0 ≤ charCount) :
    CreditExact (chargePtyDelivery session id charCount now) where
  bounds := by
    intro other accounting found
    simp only [chargePtyDelivery, JsMap.get?_set] at found
    split at found
    · cases existing : session.rendererDeliveryAccountingByPty.get? id with
      | none =>
        rw [existing] at found
        cases found
        exact ⟨le_refl 0, nonneg⟩
      | some before =>
        rw [existing] at found
        cases found
        have held := sound.bounds id before existing
        exact ⟨held.1, by simp only [chargedAccounting]; linarith [held.2]⟩
    · exact sound.bounds other accounting found
  total := by
    simp only [chargePtyDelivery]
    rw [JsMap.total_set, chargedAccounting_inFlight, sound.total, JsMap.weightAt]
    ring

theorem rolledBack_charged (accounting : RendererPtyDeliveryAccounting)
    (held : accounting.ackedChars ≤ accounting.sentChars) (charCount : ℚ) (now : ℤ) :
    rolledBackAccounting unclamped (chargedAccounting (some accounting) charCount now) charCount =
      { accounting with lastSendAtMs := now } := by
  have cancelled : accounting.sentChars + charCount - charCount = accounting.sentChars :=
    add_sub_cancel_right _ _
  simp [rolledBackAccounting, chargedAccounting, unclamped, cancelled, held]

theorem rolledBack_opened (charCount : ℚ) (now : ℤ) :
    rolledBackAccounting unclamped (chargedAccounting none charCount now) charCount =
      ⟨0, 0, now, none⟩ := by
  simp [rolledBackAccounting, chargedAccounting, unclamped]

theorem rolledBack_clamp (existing : Option RendererPtyDeliveryAccounting)
    (held : ∀ accounting, existing = some accounting → 0 ≤ accounting.sentChars)
    (charCount : ℚ) (now : ℤ) :
    rolledBackAccounting clampToZero (chargedAccounting existing charCount now) charCount =
      rolledBackAccounting unclamped (chargedAccounting existing charCount now) charCount := by
  have idle : clampToZero ((chargedAccounting existing charCount now).sentChars - charCount) =
      (chargedAccounting existing charCount now).sentChars - charCount := by
    refine max_eq_right ?_
    cases existing with
    | none => simp [chargedAccounting]
    | some accounting => simpa [chargedAccounting] using held accounting rfl
  simp only [rolledBackAccounting, idle, unclamped]

theorem sentChars_nonneg (sound : CreditExact session) {accounting : RendererPtyDeliveryAccounting}
    (found : session.rendererDeliveryAccountingByPty.get? id = some accounting) :
    0 ≤ accounting.sentChars :=
  (sound.bounds id accounting found).1.trans (sound.bounds id accounting found).2

theorem rollBack_total (sound : CreditExact session) (id : PtyId) (charCount : ℚ) (now : ℤ) (had : Bool) :
    (rollBackPtyDelivery unclamped (chargePtyDelivery session id charCount now) id charCount
      had).rendererInFlightTotalChars = session.rendererInFlightTotalChars := by
  simp only [rollBackPtyDelivery, chargePtyDelivery, JsMap.get?_set, if_true, unclamped]
  cases existing : session.rendererDeliveryAccountingByPty.get? id with
  | none =>
    rw [rolledBack_opened, chargedAccounting_inFlight]
    simp [inFlightChars]
  | some accounting =>
    rw [rolledBack_charged accounting (sound.bounds id accounting existing).2,
      chargedAccounting_inFlight]
    simp only [inFlightChars, Option.map_some, Option.getD_some]
    ring

theorem rollBack_get? (sound : CreditExact session) (charCount : ℚ) (now : ℤ) (other : PtyId) :
    (rollBackPtyDelivery unclamped (chargePtyDelivery session id charCount now) id charCount
      (session.rendererDeliveryAccountingByPty.has id)).rendererDeliveryAccountingByPty.get?
        other =
      (session.rendererDeliveryAccountingByPty.get? other).map fun accounting =>
        if other = id then { accounting with lastSendAtMs := now } else accounting := by
  simp only [rollBackPtyDelivery, chargePtyDelivery, JsMap.get?_set, if_true, JsMap.has]
  obtain ⟨account, existing⟩ : ∃ account,
    session.rendererDeliveryAccountingByPty.get? id = account := ⟨_, rfl⟩
  cases account with
  | none =>
    simp only [existing, rolledBack_opened]
    by_cases here : other = id
    · subst here
      simp [existing]
    · simp [here]
  | some accounting =>
    simp only [existing, rolledBack_charged accounting (sound.bounds id accounting existing).2]
    by_cases here : other = id
    · subst here
      simp [existing]
    · simp [here]

theorem rollBack_exact (sound : CreditExact session) (charCount : ℚ) (now : ℤ) :
    CreditExact (rollBackPtyDelivery unclamped (chargePtyDelivery session id charCount now) id
      charCount (session.rendererDeliveryAccountingByPty.has id)) where
  bounds := by
    intro other accounting found
    rw [rollBack_get? sound] at found
    obtain ⟨before, existing, rfl⟩ := Option.map_eq_some_iff.mp found
    have held := sound.bounds other before existing
    split
    · exact held
    · exact held
  total := by
    rw [rollBack_total sound id, sound.total]
    refine JsMap.total_congr fun other => ?_
    simp only [JsMap.weightAt, rollBack_get? sound, Option.map_map]
    congr 2
    funext accounting
    by_cases here : other = id
    · simp [here, inFlightChars]
    · simp [here]

theorem rollBack_clamp (sound : CreditExact session) (charCount : ℚ) (now : ℤ) (had : Bool) :
    rollBackPtyDelivery clampToZero (chargePtyDelivery session id charCount now) id charCount had =
      rollBackPtyDelivery unclamped (chargePtyDelivery session id charCount now) id charCount
        had := by
  have account := rolledBack_clamp (session.rendererDeliveryAccountingByPty.get? id)
    (fun _ found => sentChars_nonneg sound found) charCount now
  have sum := rollBack_total sound id charCount now had
  simp only [rollBackPtyDelivery, chargePtyDelivery, JsMap.get?_set, if_true] at sum ⊢
  rw [account]
  have idle : ∀ value, unclamped value = session.rendererInFlightTotalChars →
      clampToZero value = unclamped value := by
    intro value same
    rw [same, show value = session.rendererInFlightTotalChars from same, sound.clamp_total]
  rw [idle _ sum]

end Charge

section Send

variable {moment : Moment} {payload : PtyDataPayload} {faults : SendFaults}

theorem healAfterSend_accounts (session : PtyIpcSession) (id : PtyId) (markerSeq : Option ℤ)
    (markerThrows : Bool) :
    (healAfterSend session id markerSeq markerThrows).rendererDeliveryAccountingByPty =
        session.rendererDeliveryAccountingByPty ∧
      (healAfterSend session id markerSeq markerThrows).rendererInFlightTotalChars =
        session.rendererInFlightTotalChars ∧
      (healAfterSend session id markerSeq markerThrows).rendererExitingPtyIds =
        session.rendererExitingPtyIds ∧
      (healAfterSend session id markerSeq markerThrows).mainWindow = session.mainWindow := by
  unfold healAfterSend sendModelRestoreNeededMarker
  by_cases awaited : id ∈ session.rendererDeliveryRestoreNeededPtys
  · cases leaves : session.mainWindow.isLive && !markerThrows with
    | true => simp [awaited]
    | false => simp [awaited]
  · simp [awaited]

theorem charCount_nonneg (payload : PtyDataPayload) :
    (0 : ℚ) ≤ (getPtyPayloadCharCount payload : ℚ) :=
  Int.cast_nonneg (le_max_left 0 _)

theorem sendPtyDataToRenderer_cases (clamp : ℚ → ℚ) (moment : Moment) (session : PtyIpcSession)
    (id : PtyId) (payload : PtyDataPayload) (faults : SendFaults) :
    (session.mainWindow = .missing ∧
      sendPtyDataToRenderer clamp moment session id payload faults = (false, session)) ∨
    (faults.data = true ∧
      sendPtyDataToRenderer clamp moment session id payload faults =
        (false, rollBackPtyDelivery clamp
          (chargePtyDelivery session id (getPtyPayloadCharCount payload) moment.now) id
          (getPtyPayloadCharCount payload)
          (session.rendererDeliveryAccountingByPty.has id))) ∨
    (faults.data = false ∧ ∃ after,
      sendPtyDataToRenderer clamp moment session id payload faults = (true, after) ∧
      after.rendererDeliveryAccountingByPty = (chargePtyDelivery session id
        (getPtyPayloadCharCount payload) moment.now).rendererDeliveryAccountingByPty ∧
      after.rendererInFlightTotalChars = (chargePtyDelivery session id
        (getPtyPayloadCharCount payload) moment.now).rendererInFlightTotalChars ∧
      after.rendererExitingPtyIds = session.rendererExitingPtyIds ∧
      after.mainWindow = session.mainWindow) := by
  unfold sendPtyDataToRenderer
  by_cases missing : session.mainWindow = .missing
  · exact .inl ⟨missing, by simp [missing]⟩
  · cases thrown : faults.data with
    | true => exact .inr (.inl ⟨rfl, by simp [missing]⟩)
    | false =>
      have kept := healAfterSend_accounts
        { chargePtyDelivery session id (getPtyPayloadCharCount payload) moment.now with
          sent := session.sent ++ [.data payload] } id (moment.getPtyOutputSequence id)
        faults.marker
      exact .inr (.inr ⟨rfl, _, by simp [missing]; rfl, kept⟩)

theorem sendPtyDataToRenderer_exact (sound : CreditExact session) :
    CreditExact (sendPtyDataToRenderer unclamped moment session id payload faults).2 := by
  rcases sendPtyDataToRenderer_cases unclamped moment session id payload faults with
    ⟨_, same⟩ | ⟨_, same⟩ | ⟨_, after, same, accounts, sum, _⟩
  · rw [same]
    exact sound
  · rw [same]
    exact rollBack_exact sound _ _
  · rw [same]
    exact (chargePtyDelivery_exact sound (charCount_nonneg payload)).of_eq accounts sum

theorem sendPtyDataToRenderer_clamp (sound : CreditExact session) :
    sendPtyDataToRenderer clampToZero moment session id payload faults =
      sendPtyDataToRenderer unclamped moment session id payload faults := by
  unfold sendPtyDataToRenderer
  simp only [rollBack_clamp sound]

end Send

section Acknowledge

theorem applyCumulativeAck_exact (sound : CreditExact session) (id : PtyId) (now : ℤ)
    (processedChars : ℚ) :
    CreditExact (applyCumulativeAck unclamped now session id processedChars).2 := by
  unfold applyCumulativeAck
  cases existing : session.rendererDeliveryAccountingByPty.get? id with
  | none => exact sound
  | some accounting =>
    have held := sound.bounds id accounting existing
    constructor
    case bounds =>
      intro other after found
      simp only [JsMap.get?_set] at found
      split at found
      · cases found
        refine ⟨le_min (held.1.trans held.2) (held.1.trans (le_max_left _ _)), ?_⟩
        exact min_le_left _ _
      · exact sound.bounds other after found
    case total =>
      simp only [unclamped]
      rw [JsMap.total_set, JsMap.weightAt_of_get? existing, sound.total]
      simp only [inFlightChars]
      ring

theorem applyCumulativeAck_clamp (sound : CreditExact session) (id : PtyId) (now : ℤ)
    (processedChars : ℚ) :
    applyCumulativeAck clampToZero now session id processedChars =
      applyCumulativeAck unclamped now session id processedChars := by
  have idle := (applyCumulativeAck_exact sound id now processedChars).clamp_total
  unfold applyCumulativeAck at idle ⊢
  cases existing : session.rendererDeliveryAccountingByPty.get? id with
  | none => rfl
  | some accounting =>
    simp only [existing, unclamped] at idle ⊢
    rw [idle]

end Acknowledge

end OxeeUI.Delivery
