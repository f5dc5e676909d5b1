import OxeeUI.Journal.QueueSteps

/-!
# Requeueing only what was proven undelivered

A card spent on an attempt waits again in two ways: a dispatch row refuses that very
attempt with a proof that nothing reached the agent, or a queue row states the card
anew.
-/

namespace OxeeUI.Journal

open OxeeUI.Library

variable (env : JournalEnvironment)

/-- A dispatch row for the attempt a card is spent on, which leaves that attempt refused
with proof that it was never delivered. -/
def DisprovesDelivery (state : JournalReducerState) (row : JournalRow) (messageId : String) :
    Prop :=
  ∃ content card submission,
    row.content = .dispatch content ∧
    state.queue.cards.get? messageId = some card ∧
    card.consumedAs = some content.clientMessageId ∧
    (applyJournalRow env state row).submissions.get? content.clientMessageId =
      some submission ∧
    submission.dispatchState = .rejected ∧
    queuedHandOffOutcome submission = .waiting

def RestatesCard (row : JournalRow) (messageId : String) : Prop :=
  ∃ change, row.content = .queue messageId (.queued change)

def SettlesOrReports (row : JournalRow) : Prop :=
  match row.content with
  | .dispatch _ | .item _ | .lifecycleBatch _ _ | .tombstone _ => True
  | .epoch _ | .submission _ | .queue _ _ => False

theorem rejectedCardTransition_waiting {card settled : QueuedMessageRow}
    {rejected : AgentJournalSubmission} {reported : Bool}
    (moved : rejectedCardTransition card rejected reported = some settled)
    (waits : settled.state = .waiting) : queuedHandOffOutcome rejected = .waiting := by
  unfold rejectedCardTransition at moved
  split at moved
  case h_1 proven => exact proven
  case h_2 => cases moved
  case h_3 => split at moved <;> cases moved <;> cases waits

section OneRow

variable {state : JournalReducerState}

theorem applyJournalTombstoneRow_queue (row : JournalRowBase)
    (content : JournalTombstoneContent) :
    (applyJournalTombstoneRow env state row content).queue = state.queue := by
  unfold applyJournalTombstoneRow
  split
  · rfl
  · dsimp only
    split <;> simp

theorem applyJournalItemRow_queue (row : JournalRowBase) (savedAt : Int)
    (content : JournalItemContent) :
    (applyJournalItemRow env state row savedAt content).queue = state.queue := by
  unfold applyJournalItemRow
  split <;> simp

theorem applyJournalRow_cards_of_report (linked : JournalLinked state) (base : JournalRowBase)
    {content : JournalRowContent}
    (reports : (∃ item, content = .item item) ∨
      ∃ settlementId mutations, content = .lifecycleBatch settlementId mutations) :
    CardsWithdrawn state (applyJournalRow env state ⟨base, content⟩) := by
  have noted := linked.noteJournalActivity base
  rcases reports with ⟨item, rfl⟩ | ⟨settlementId, mutations, rfl⟩
  · have facts := noted.of_echoAccepts
      (applyJournalItemRow_echoAccepts env _ base base.ts item)
      (applyJournalItemRow_queue env base base.ts item)
    intro messageId
    have withdrawn := spendReportedCommandCards_withdrawn facts messageId
    rw [applyJournalItemRow_queue] at withdrawn
    exact withdrawn
  · have facts := noted.of_echoAccepts
      (applyJournalLifecycleBatch_echoAccepts env _ base base.ts settlementId mutations)
      (applyJournalLifecycleBatch_queue ..)
    intro messageId
    have withdrawn := spendReportedCommandCards_withdrawn facts messageId
    rw [applyJournalLifecycleBatch_queue] at withdrawn
    exact withdrawn

theorem applyJournalRow_queue_of_settled (linked : JournalLinked state) (base : JournalRowBase)
    {content : JournalDispatchContent}
    (settled : ∀ submission,
      state.submissions.get? content.clientMessageId = some submission →
        journalDispatchRowApplies submission = false) :
    (applyJournalRow env state ⟨base, .dispatch content⟩).queue = state.queue := by
  have noted := linked.noteJournalActivity base
  have ignored : applyJournalDispatchRow env (noteJournalActivity state base) base content =
      noteJournalActivity state base := applyJournalDispatchRow_of_settled env base settled
  show (settleDispatchedCard (applyJournalDispatchRow env (noteJournalActivity state base) base
    content) content.clientMessageId).queue = state.queue
  rw [ignored, settleDispatchedCard_of_settled noted settled]
  rfl

/-- What a dispatch row does to the cards: nothing, or it settles the one card spent on
the attempt it refuses. -/
theorem applyJournalRow_cards_of_dispatch (linked : JournalLinked state)
    (base : JournalRowBase) (content : JournalDispatchContent) (messageId : String) :
    (applyJournalRow env state ⟨base, .dispatch content⟩).queue.cards.get? messageId =
        state.queue.cards.get? messageId ∨
      ∃ card settled submission reported,
        state.queue.cards.get? messageId = some card ∧
        card.state = .dispatched ∧
        card.consumedAs = some content.clientMessageId ∧
        (applyJournalRow env state ⟨base, .dispatch content⟩).submissions.get?
          content.clientMessageId = some submission ∧
        submission.dispatchState = .rejected ∧
        rejectedCardTransition card submission reported = some settled ∧
        (applyJournalRow env state ⟨base, .dispatch content⟩).queue.cards.get? messageId =
          some settled := by
  by_cases settled : ∀ submission,
      state.submissions.get? content.clientMessageId = some submission →
        journalDispatchRowApplies submission = false
  · exact Or.inl (by rw [applyJournalRow_queue_of_settled env linked base settled])
  · simp only [not_forall, Bool.not_eq_false] at settled
    obtain ⟨submission, found, applies⟩ := settled
    have present : (noteJournalActivity state base).submissions.get? content.clientMessageId =
        some submission := found
    have written := applyJournalDispatchRow_of_applies env base present applies
    have unfolded : applyJournalRow env state ⟨base, .dispatch content⟩ =
        settleDispatchedCard
          (applyJournalDispatchRow env (noteJournalActivity state base) base content)
          content.clientMessageId := rfl
    rw [unfolded]
    generalize applyJournalDispatchRow env (noteJournalActivity state base) base content =
      facts at written
    have stored : facts.submissions.get? content.clientMessageId =
        some (dispatchedSubmission env submission base content) := by
      rw [written.1, JsMap.get?_set_self]
    have named : submission.clientMessageId = content.clientMessageId :=
      linked.submissionKeys _ _ found
    rcases settleDispatchedCard_cases stored with
      ⟨same, _⟩ | ⟨card, moved, handedOff, rejected, transition, same⟩ | ⟨card, _, _, _, same⟩
    · exact Or.inl (by rw [same, written.2, (noteJournalActivity_frame state base).2.2.2.2.2])
    · rcases cardHandedOffAs_eq_some handedOff with ⟨sentFrom, sent, spendable, spent, consumed⟩
      rw [written.2, (noteJournalActivity_frame state base).2.2.2.2.2] at spendable
      have sameName := (rejectedCardTransition_not_dispatched transition).1.trans
        (linked.cardKeys _ _ spendable)
      rw [same]
      by_cases here : messageId = sentFrom
      · subst here
        refine Or.inr ⟨card, moved, _, _, spendable, spent, ?_, stored, rejected, transition, ?_⟩
        · simpa [named] using consumed
        · simp [sameName]
      · refine Or.inl ?_
        rw [setCard_cards, sameName, JsMap.get?_set_of_ne _ _ here, written.2,
          (noteJournalActivity_frame state base).2.2.2.2.2]
    · exact Or.inl (by
        rw [same, (foldQueuedHandOffInDoubt_frame _ _ _).2.2, written.2,
          (noteJournalActivity_frame state base).2.2.2.2.2])

/-- Through a settling or reporting row, a card that did not wait waits only on proof. -/
theorem waits_again_of_settlesOrReports (linked : JournalLinked state) {row : JournalRow}
    (kind : SettlesOrReports row) {messageId : String} {card after : QueuedMessageRow}
    (stored : state.queue.cards.get? messageId = some card) (busy : card.state ≠ .waiting)
    (result : (applyJournalRow env state row).queue.cards.get? messageId = some after)
    (waits : after.state = .waiting) : DisprovesDelivery env state row messageId := by
  rcases row with ⟨base, content⟩
  have unchanged (same : (applyJournalRow env state ⟨base, content⟩).queue.cards.get? messageId =
      state.queue.cards.get? messageId) : DisprovesDelivery env state ⟨base, content⟩ messageId := by
    rw [same, stored] at result
    cases result
    exact absurd waits busy
  cases content with
  | epoch _ => exact kind.elim
  | submission _ => exact kind.elim
  | queue _ _ => exact kind.elim
  | tombstone content =>
    refine unchanged ?_
    show (applyJournalTombstoneRow env (noteJournalActivity state base) base
      content).queue.cards.get? messageId = _
    rw [applyJournalTombstoneRow_queue env, (noteJournalActivity_frame state base).2.2.2.2.2]
  | item item =>
    rcases applyJournalRow_cards_of_report env linked base (Or.inl ⟨item, rfl⟩) messageId with
      same | ⟨before, old, returned, changed⟩
    · exact unchanged same
    · rw [changed] at result
      cases result
      cases waits
  | lifecycleBatch settlementId mutations =>
    rcases applyJournalRow_cards_of_report env linked base
        (Or.inr ⟨settlementId, mutations, rfl⟩) messageId with
      same | ⟨before, old, returned, changed⟩
    · exact unchanged same
    · rw [changed] at result
      cases result
      cases waits
  | dispatch content =>
    rcases applyJournalRow_cards_of_dispatch env linked base content messageId with
      same | ⟨before, settled, submission, reported, old, spent, consumed, found, rejected,
        transition, changed⟩
    · exact unchanged same
    · rw [changed] at result
      cases result
      exact ⟨content, before, submission, rfl, old, consumed, found, rejected,
        rejectedCardTransition_waiting transition waits⟩

/-- A queue row states one card anew, or edits it without unspending it. -/
theorem applyQueueRow_waiting (linked : JournalLinked state) {named messageId : String}
    {change : JournalQueueChange} {card after : QueuedMessageRow}
    (stored : state.queue.cards.get? messageId = some card) (busy : card.state ≠ .waiting)
    (result : (applyQueueRow env state named change).queue.cards.get? messageId = some after)
    (waits : after.state = .waiting) :
    named = messageId ∧ ∃ queued, change = .queued queued := by
  have unchanged (same : (applyQueueRow env state named change).queue.cards.get? messageId =
      state.queue.cards.get? messageId) : False := by
    rw [same, stored] at result
    cases result
    exact busy waits
  cases present : state.queue.cards.get? named with
  | none =>
    cases change with
    | queued queued =>
      by_cases different : messageId = named
      · exact ⟨different.symm, queued, rfl⟩
      · refine (unchanged ?_).elim
        have spec := (queuedCardFromChange_spec env state named queued).1
        simp only [applyQueueRow, applyQueuedChange]
        split <;> simp [spec, different]
    | _ => exact (unchanged (by simp [applyQueueRow, present])).elim
  | some before =>
    have sameName := linked.cardKeys _ _ present
    have edited (changed : QueuedMessageRow) (keeps : changed.messageId = before.messageId)
        (unwaiting : before.state ≠ .waiting → changed.state ≠ .waiting)
        (same : applyQueueRow env state named change = setCard state changed) : False := by
      by_cases here : messageId = named
      · subst here
        rw [same, setCard_cards, keeps, sameName, JsMap.get?_set_self,
          Option.some.injEq] at result
        rw [stored, Option.some.injEq] at present
        subst present
        exact unwaiting busy (result ▸ waits)
      · refine unchanged ?_
        rw [same, setCard_cards, keeps, sameName, JsMap.get?_set_of_ne _ _ here]
    cases change with
    | queued queued =>
      by_cases different : messageId = named
      · exact ⟨different.symm, queued, rfl⟩
      · refine (unchanged ?_).elim
        have spec := (queuedCardFromChange_spec env state named queued).1
        simp only [applyQueueRow, applyQueuedChange]
        split <;> simp [spec, different]
    | edited body =>
      exact (edited
        { before with
          body := body
          fingerprint := env.agentSessionSendBodyFingerprint state.sessionId (.message body) }
        rfl id (by simp only [applyQueueRow, present])).elim
    | moved position =>
      exact (edited { before with position := position } rfl id
        (by simp only [applyQueueRow, present])).elim
    | held holdReason =>
      by_cases waiting : before.state = .waiting
      · exact (edited { before with holdReason := some holdReason } rfl id
          (by simp [applyQueueRow, present, waiting])).elim
      · exact (unchanged (by simp [applyQueueRow, present, waiting])).elim
    | withdrawn =>
      exact (edited { before with state := .withdrawn, holdReason := none } rfl
        (by simp) (by simp only [applyQueueRow, present])).elim

theorem spendCardOnSubmission_waiting {content : JournalSubmissionContent} {messageId : String}
    {card after : QueuedMessageRow}
    (stored : state.queue.cards.get? messageId = some card) (busy : card.state ≠ .waiting)
    (result : (spendCardOnSubmission state content).queue.cards.get? messageId = some after) :
    after.state ≠ .waiting := by
  unfold spendCardOnSubmission at result
  split at result
  · rw [stored] at result
    cases result
    exact busy
  · rw [setCard_cards, JsMap.get?_set] at result
    split at result
    · cases result
      simp
    · rw [stored] at result
      cases result
      exact busy

/-- One row moves a busy card to waiting on proof, or by stating it anew. -/
theorem waits_again (linked : JournalLinked state) {row : JournalRow} {messageId : String}
    {card after : QueuedMessageRow}
    (stored : state.queue.cards.get? messageId = some card) (busy : card.state ≠ .waiting)
    (result : (applyJournalRow env state row).queue.cards.get? messageId = some after)
    (waits : after.state = .waiting) :
    DisprovesDelivery env state row messageId ∨ RestatesCard row messageId := by
  by_cases kind : SettlesOrReports row
  · exact Or.inl (waits_again_of_settlesOrReports env linked kind stored busy result waits)
  · rcases row with ⟨base, content⟩
    cases content with
    | dispatch _ => exact (kind trivial).elim
    | item _ => exact (kind trivial).elim
    | lifecycleBatch _ _ => exact (kind trivial).elim
    | tombstone _ => exact (kind trivial).elim
    | epoch content =>
      have same : (applyJournalRow env state ⟨base, .epoch content⟩).queue = state.queue := rfl
      rw [same, stored] at result
      cases result
      exact absurd waits busy
    | submission content =>
      have kept : (applyJournalSubmission env (noteJournalActivity state base) base
          content).queue = state.queue := by
        simp [applyJournalSubmission]
      have storedFacts : (applyJournalSubmission env (noteJournalActivity state base) base
          content).queue.cards.get? messageId = some card := by
        rw [kept, stored]
      exact absurd waits (spendCardOnSubmission_waiting storedFacts busy result)
    | queue named change =>
      have noted : JournalLinked (noteJournalRow state base) :=
        linked.of_echoAccepts (.of_eq rfl) rfl
      rcases applyQueueRow_waiting env noted stored busy result waits with ⟨rfl, queued, rfl⟩
      exact Or.inr ⟨queued, rfl⟩

end OneRow

/-! ## Runs -/

/-- A card whose hand-off settled in doubt: spent on an attempt whose display was
normalized. -/
def SettledInDoubt (state : JournalReducerState) (messageId : String) : Prop :=
  ∃ card attempt, state.queue.cards.get? messageId = some card ∧ card.state = .dispatched ∧
    card.consumedAs = some attempt ∧ attempt ∈ state.normalizedHandOffs

theorem card_stays {state : JournalReducerState} (linked : JournalLinked state)
    {messageId : String} {card : QueuedMessageRow}
    (stored : state.queue.cards.get? messageId = some card) {row : JournalRow}
    (kind : SettlesOrReports row) :
    ∃ after, (applyJournalRow env state row).queue.cards.get? messageId = some after := by
  rcases row with ⟨base, content⟩
  cases content with
  | epoch _ => exact kind.elim
  | submission _ => exact kind.elim
  | queue _ _ => exact kind.elim
  | tombstone content =>
    refine ⟨card, ?_⟩
    show (applyJournalTombstoneRow env (noteJournalActivity state base) base
      content).queue.cards.get? messageId = _
    rw [applyJournalTombstoneRow_queue env]
    exact stored
  | item item =>
    rcases applyJournalRow_cards_of_report env linked base (Or.inl ⟨item, rfl⟩)
        messageId with same | ⟨before, _, _, changed⟩
    · exact ⟨card, same.trans stored⟩
    · exact ⟨_, changed⟩
  | lifecycleBatch settlementId mutations =>
    rcases applyJournalRow_cards_of_report env linked base
        (Or.inr ⟨settlementId, mutations, rfl⟩) messageId with
      same | ⟨before, _, _, changed⟩
    · exact ⟨card, same.trans stored⟩
    · exact ⟨_, changed⟩
  | dispatch content =>
    rcases applyJournalRow_cards_of_dispatch env linked base content messageId with
      same | ⟨_, _, _, _, _, _, _, _, _, _, changed⟩
    · exact ⟨card, same.trans stored⟩
    · exact ⟨_, changed⟩

theorem waits_after_run {state : JournalReducerState} (linked : JournalLinked state)
    {messageId : String} {card after : QueuedMessageRow}
    (stored : state.queue.cards.get? messageId = some card) (busy : card.state ≠ .waiting)
    (rows : List JournalRow) (kinds : ∀ row ∈ rows, SettlesOrReports row)
    (result : (rows.foldl (applyJournalRow env) state).queue.cards.get? messageId = some after)
    (waits : after.state = .waiting) :
    ∃ early row late, rows = early ++ row :: late ∧
      DisprovesDelivery env (early.foldl (applyJournalRow env) state) row messageId := by
  induction rows generalizing state card with
  | nil =>
    rw [List.foldl_nil, stored] at result
    cases result
    exact absurd waits busy
  | cons row rest ih =>
    have kind := kinds row List.mem_cons_self
    obtain ⟨middle, present⟩ := card_stays env linked stored kind
    by_cases waiting : middle.state = .waiting
    · exact ⟨[], row, rest, rfl,
        waits_again_of_settlesOrReports env linked kind stored busy present waiting⟩
    · rcases ih (linked.applyJournalRow env row) present waiting
          (fun later member => kinds later (List.mem_cons_of_mem _ member)) result with
        ⟨early, proof, late, split, disproves⟩
      exact ⟨row :: early, proof, late, by rw [split, List.cons_append], disproves⟩

theorem card_kept_by_other_dispatch {state : JournalReducerState} (linked : JournalLinked state)
    (base : JournalRowBase) (content : JournalDispatchContent) (messageId : String)
    (other : ∀ card, state.queue.cards.get? messageId = some card →
      card.consumedAs ≠ some content.clientMessageId) :
    (applyJournalRow env state ⟨base, .dispatch content⟩).queue.cards.get? messageId =
      state.queue.cards.get? messageId := by
  rcases applyJournalRow_cards_of_dispatch env linked base content messageId with
    same | ⟨card, _, _, _, stored, _, consumed, _, _, _, _⟩
  · exact same
  · exact absurd consumed (other card stored)

/-- A queued message is handed out again only on proof, or on being stated anew; late
and foreign answers leave the cards alone; and a hand-off in doubt waits again only
when a later row disproves that very delivery. -/
theorem queued_message_requeued_only_on_proof (sessionId epoch : String)
    (rows : List JournalRow) (messageId : String) :
    (∀ row card after,
      (replayJournal env sessionId epoch rows).queue.cards.get? messageId = some card →
      card.state = .dispatched →
      (replayJournal env sessionId epoch (rows ++ [row])).queue.cards.get? messageId =
        some after →
      after.state = .waiting →
      DisprovesDelivery env (replayJournal env sessionId epoch rows) row messageId ∨
        RestatesCard row messageId) ∧
    (∀ base content,
      ((∀ card, (replayJournal env sessionId epoch rows).queue.cards.get? messageId = some card →
          card.consumedAs ≠ some content.clientMessageId) →
        (replayJournal env sessionId epoch
            (rows ++ [⟨base, .dispatch content⟩])).queue.cards.get? messageId =
          (replayJournal env sessionId epoch rows).queue.cards.get? messageId) ∧
      ((∀ submission,
          (replayJournal env sessionId epoch rows).submissions.get? content.clientMessageId =
            some submission → journalDispatchRowApplies submission = false) →
        (replayJournal env sessionId epoch (rows ++ [⟨base, .dispatch content⟩])).queue =
          (replayJournal env sessionId epoch rows).queue)) ∧
    (∀ later after,
      SettledInDoubt (replayJournal env sessionId epoch rows) messageId →
      (∀ row ∈ later, SettlesOrReports row) →
      (replayJournal env sessionId epoch (rows ++ later)).queue.cards.get? messageId =
        some after →
      after.state = .waiting →
      ∃ early row late, later = early ++ row :: late ∧
        DisprovesDelivery env (replayJournal env sessionId epoch (rows ++ early)) row
          messageId) := by
  have linked := JournalLinked.replayJournal env sessionId epoch rows
  refine ⟨?_, ?_, ?_⟩
  · intro row card after stored spent result waits
    rw [replayJournal_snoc] at result
    exact waits_again env linked stored (by simp [spent]) result waits
  · intro base content
    rw [replayJournal_snoc]
    exact ⟨card_kept_by_other_dispatch env linked base content messageId,
      applyJournalRow_queue_of_settled env linked base⟩
  · rintro later after ⟨card, attempt, stored, spent, _, _⟩ kinds result waits
    rw [replayJournal_append] at result
    rcases waits_after_run env linked stored (by simp [spent]) later kinds result waits with
      ⟨early, row, late, split, disproves⟩
    exact ⟨early, row, late, split, by rw [replayJournal_append]; exact disproves⟩

/-- A message handed off, and refused without a word on whether it was delivered. -/
def doubtfulHandOff : List JournalRow :=
  [plainRow 1 (plainQueued "card" none),
   plainRow 2 (plainSubmission "send" (some "card")),
   plainRow 3 (plainDispatch "send" .rejected none (some dispatchRejectedNotDelivered)
     .undefined)]

/-- The later answer: the message was cancelled, and never reached the agent. -/
def lateProof : JournalRow :=
  plainRow 4 (plainDispatch "send" .rejected none none
    (.object [("kind", .string "cancelled"), ("neverReachedAgent", .boolean true)]))

/-- A dispatch row can make a card wait again after its hand-off settled in doubt. -/
theorem doubtful_card_waits_after_proof :
    SettledInDoubt (replayJournal plainEnvironment "session" "epoch" doubtfulHandOff) "card" ∧
      SettlesOrReports lateProof ∧
      ∃ after,
        (replayJournal plainEnvironment "session" "epoch"
          (doubtfulHandOff ++ [lateProof])).queue.cards.get? "card" = some after ∧
        after.state = .waiting := by
  have spent :
      ((replayJournal plainEnvironment "session" "epoch" doubtfulHandOff).queue.cards.get?
        "card").map (fun card => (card.state, card.consumedAs)) =
          some (.dispatched, some "send") := by
    decide +kernel
  have waits :
      ((replayJournal plainEnvironment "session" "epoch"
        (doubtfulHandOff ++ [lateProof])).queue.cards.get? "card").map (·.state) =
          some .waiting := by
    decide +kernel
  have normalized : "send" ∈
      (replayJournal plainEnvironment "session" "epoch" doubtfulHandOff).normalizedHandOffs := by
    decide +kernel
  obtain ⟨card, stored, facts⟩ := Option.map_eq_some_iff.mp spent
  obtain ⟨after, result, waiting⟩ := Option.map_eq_some_iff.mp waits
  exact ⟨⟨card, "send", stored, congrArg Prod.fst facts, congrArg Prod.snd facts, normalized⟩,
    trivial, after, result, waiting⟩

end OxeeUI.Journal
