import OxeeUI.Journal.HandOffs

/-!
# What a row does to the cards

The queue fold of each row kind is described once; the hand-off invariant and the
requeue rules follow from the descriptions.
-/

namespace OxeeUI.Journal

open OxeeUI.Library

variable (env : JournalEnvironment) {state : JournalReducerState}

@[simp]
theorem setCard_cards (state : JournalReducerState) (card : QueuedMessageRow) :
    (setCard state card).queue.cards = state.queue.cards.set card.messageId card := rfl

/-! ## Reported command cards -/

/-- A card keeps what it is, or a returned card is withdrawn. -/
def CardsWithdrawn (first second : JournalReducerState) : Prop :=
  ∀ messageId,
    second.queue.cards.get? messageId = first.queue.cards.get? messageId ∨
      ∃ card, first.queue.cards.get? messageId = some card ∧ card.state = .returned ∧
        second.queue.cards.get? messageId = some { card with state := .withdrawn }

theorem foldl_spendReportedCommandCard (cards : List QueuedMessageRow)
    (start : JournalReducerState) (messageId : String) :
    (cards.foldl spendReportedCommandCard start).queue.cards.get? messageId =
        start.queue.cards.get? messageId ∨
      ∃ card ∈ cards, card.messageId = messageId ∧ card.state = .returned ∧
        (cards.foldl spendReportedCommandCard start).queue.cards.get? messageId =
          some { card with state := .withdrawn } := by
  induction cards generalizing start with
  | nil => exact Or.inl rfl
  | cons card rest ih =>
    rw [List.foldl_cons]
    rcases ih (spendReportedCommandCard start card) with same | ⟨later, member, found⟩
    · rw [same]
      unfold spendReportedCommandCard
      split
      case isFalse => exact Or.inl rfl
      case isTrue reported =>
        by_cases here : messageId = card.messageId
        · subst here
          simp only [Bool.and_eq_true, decide_eq_true_eq] at reported
          exact Or.inr ⟨card, List.mem_cons_self, rfl, reported.1.1, by simp⟩
        · exact Or.inl (by simp [here])
    · exact Or.inr ⟨later, List.mem_cons_of_mem _ member, found⟩

theorem spendReportedCommandCards_withdrawn (linked : JournalLinked state) :
    CardsWithdrawn state (spendReportedCommandCards state) := by
  intro messageId
  rcases foldl_spendReportedCommandCard state.queue.cards.values state messageId with
    same | ⟨card, member, named, returned, withdrawn⟩
  · exact Or.inl same
  · rcases JsMap.mem_values_iff.mp member with ⟨key, stored⟩
    have sameKey : key = messageId := (linked.cardKeys _ _ stored).symm.trans named
    exact Or.inr ⟨card, sameKey ▸ stored, returned, withdrawn⟩

theorem CardsWithdrawn.linked {next : JournalReducerState} (linked : JournalLinked state)
    (withdrawn : CardsWithdrawn state next)
    (sameSubmissions : next.submissions = state.submissions) : JournalLinked next := by
  refine linked.step ?_ ?_
  · intro clientMessageId submission found
    rw [sameSubmissions] at found
    exact ⟨linked.submissionKeys _ _ found, fun _ => Or.inl found⟩
  · intro messageId card stored
    rcases withdrawn messageId with same | ⟨before, old, returned, changed⟩
    · rw [same] at stored
      exact ⟨linked.cardKeys _ _ stored, fun spent => Or.inl ⟨card, stored, spent, rfl⟩⟩
    · rw [changed] at stored
      have named := linked.cardKeys _ _ old
      cases stored
      refine ⟨named, fun spent => ?_⟩
      cases spent

/-! ## Settled hand-offs -/

theorem settleHandOffInDoubt_of_not_rejected {clientMessageId : String}
    {submission : AgentJournalSubmission}
    (found : state.submissions.get? clientMessageId = some submission)
    (settled : submission.dispatchState = .rejected →
      queuedHandOffOutcome submission ≠ .inDoubt) :
    settleHandOffInDoubt state clientMessageId = state := by
  unfold settleHandOffInDoubt
  rw [found]
  dsimp only
  rw [if_neg fun doubt => settled doubt.1 doubt.2]

theorem settleHandOffInDoubt_of_absent {clientMessageId : String}
    (absent : state.submissions.get? clientMessageId = none) :
    settleHandOffInDoubt state clientMessageId = state := by
  unfold settleHandOffInDoubt
  rw [absent]

theorem handOffInDoubt_unlinked (submission : AgentJournalSubmission)
    (rejected : (handOffInDoubt submission).dispatchState = .rejected) :
    (handOffInDoubt submission).queuedMessageId = none := by
  unfold handOffInDoubt at rejected ⊢
  split at rejected
  case isTrue withdrawn => rw [if_pos withdrawn]
  case isFalse => cases rejected

@[simp]
theorem handOffInDoubt_clientMessageId (submission : AgentJournalSubmission) :
    (handOffInDoubt submission).clientMessageId = submission.clientMessageId := by
  unfold handOffInDoubt
  split <;> rfl

theorem settleHandOffInDoubt_submissions (state : JournalReducerState)
    (clientMessageId : String) :
    (settleHandOffInDoubt state clientMessageId).submissions = state.submissions ∨
      ∃ submission, state.submissions.get? clientMessageId = some submission ∧
        submission.dispatchState = .rejected ∧ queuedHandOffOutcome submission = .inDoubt ∧
        (settleHandOffInDoubt state clientMessageId).submissions =
          state.submissions.set clientMessageId (handOffInDoubt submission) := by
  cases found : state.submissions.get? clientMessageId with
  | none =>
    rw [settleHandOffInDoubt_of_absent found]
    exact Or.inl rfl
  | some submission =>
    by_cases doubt : submission.dispatchState = .rejected ∧
        queuedHandOffOutcome submission = .inDoubt
    · refine Or.inr ⟨submission, rfl, doubt.1, doubt.2, ?_⟩
      simp only [settleHandOffInDoubt, found]
      rw [if_pos doubt]
      unfold foldQueuedHandOffInDoubt
      dsimp only
      split <;> simp
    · rw [settleHandOffInDoubt_of_not_rejected found fun rejected same =>
        doubt ⟨rejected, same⟩]
      exact Or.inl rfl

/-! ## Dispatch rows -/

theorem settleDispatchedCard_of_settled (linked : JournalLinked state) {clientMessageId : String}
    (settled : ∀ submission, state.submissions.get? clientMessageId = some submission →
      journalDispatchRowApplies submission = false) :
    settleDispatchedCard state clientMessageId = state := by
  unfold settleDispatchedCard
  cases found : state.submissions.get? clientMessageId with
  | none => rfl
  | some submission =>
    dsimp only
    have ended := settled submission found
    cases rejected : submission.dispatchState with
    | rejected => rw [linked.cardHandedOffAs_rejected found rejected]
    | accepted =>
      cases cardHandedOffAs state submission with
      | none => rfl
      | some card =>
        dsimp only
        rw [settledHandOff, if_neg (by simp [rejected])]
        exact settleHandOffInDoubt_of_not_rejected found (by simp [rejected])
    | pending => simp [journalDispatchRowApplies, rejected] at ended
    | unknown => simp [journalDispatchRowApplies, rejected] at ended

theorem rejectedCardTransition_not_dispatched {card settled : QueuedMessageRow}
    {rejected : AgentJournalSubmission} {reported : Bool}
    (moved : rejectedCardTransition card rejected reported = some settled) :
    settled.messageId = card.messageId ∧ settled.state ≠ .dispatched ∧
      queuedHandOffOutcome rejected ≠ .inDoubt := by
  unfold rejectedCardTransition at moved
  split at moved
  case h_1 waiting =>
    cases moved
    exact ⟨rfl, by simp, by simp [waiting]⟩
  case h_2 => cases moved
  case h_3 returned =>
    split at moved <;> cases moved <;> exact ⟨rfl, by simp, by simp [returned]⟩

theorem rejectedCardTransition_eq_none {card : QueuedMessageRow}
    {rejected : AgentJournalSubmission} {reported : Bool}
    (unmoved : rejectedCardTransition card rejected reported = none) :
    queuedHandOffOutcome rejected = .inDoubt := by
  unfold rejectedCardTransition at unmoved
  split at unmoved
  case h_1 => cases unmoved
  case h_2 doubt => exact doubt
  case h_3 => split at unmoved <;> cases unmoved

@[simp]
theorem dispatchedSubmission_ids (submission : AgentJournalSubmission) (row : JournalRowBase)
    (content : JournalDispatchContent) :
    (dispatchedSubmission env submission row content).clientMessageId =
        submission.clientMessageId ∧
      (dispatchedSubmission env submission row content).queuedMessageId =
        submission.queuedMessageId ∧
      (dispatchedSubmission env submission row content).dispatchState = content.state :=
  ⟨rfl, rfl, rfl⟩

theorem applyJournalDispatchRow_of_settled (row : JournalRowBase)
    {content : JournalDispatchContent}
    (settled : ∀ submission, state.submissions.get? content.clientMessageId = some submission →
      journalDispatchRowApplies submission = false) :
    applyJournalDispatchRow env state row content = state := by
  unfold applyJournalDispatchRow
  cases found : state.submissions.get? content.clientMessageId with
  | none => rfl
  | some submission => simp [settled submission found]

theorem applyJournalDispatchRow_of_applies (row : JournalRowBase)
    {content : JournalDispatchContent} {submission : AgentJournalSubmission}
    (found : state.submissions.get? content.clientMessageId = some submission)
    (applies : journalDispatchRowApplies submission = true) :
    (applyJournalDispatchRow env state row content).submissions =
        state.submissions.set content.clientMessageId
          (dispatchedSubmission env submission row content) ∧
      (applyJournalDispatchRow env state row content).queue = state.queue := by
  unfold applyJournalDispatchRow
  rw [found]
  simp [applies]

theorem settleHandOffInDoubt_of_doubt {clientMessageId : String}
    {submission : AgentJournalSubmission}
    (found : state.submissions.get? clientMessageId = some submission)
    (rejected : submission.dispatchState = .rejected)
    (doubt : queuedHandOffOutcome submission = .inDoubt) :
    settleHandOffInDoubt state clientMessageId =
      foldQueuedHandOffInDoubt state clientMessageId submission := by
  unfold settleHandOffInDoubt
  rw [found]
  exact if_pos ⟨rejected, doubt⟩

@[simp]
theorem foldQueuedHandOffInDoubt_submissions (state : JournalReducerState)
    (clientMessageId : String) (submission : AgentJournalSubmission) :
    (foldQueuedHandOffInDoubt state clientMessageId submission).submissions =
      state.submissions.set clientMessageId (handOffInDoubt submission) := by
  unfold foldQueuedHandOffInDoubt
  dsimp only
  split <;> simp

/-- Everything a dispatch row can do to the card its submission was handed off from. -/
theorem settleDispatchedCard_cases {clientMessageId : String}
    {submission : AgentJournalSubmission}
    (found : state.submissions.get? clientMessageId = some submission) :
    (settleDispatchedCard state clientMessageId = state ∧
        (submission.dispatchState = .rejected → cardHandedOffAs state submission = none)) ∨
      (∃ card settled, cardHandedOffAs state submission = some card ∧
        submission.dispatchState = .rejected ∧
        rejectedCardTransition card submission
          (commandTurnReported state submission.clientMessageId) = some settled ∧
        settleDispatchedCard state clientMessageId = setCard state settled) ∨
      ∃ card, cardHandedOffAs state submission = some card ∧
        submission.dispatchState = .rejected ∧
        queuedHandOffOutcome submission = .inDoubt ∧
        settleDispatchedCard state clientMessageId =
          foldQueuedHandOffInDoubt state clientMessageId submission := by
  unfold settleDispatchedCard
  rw [found]
  dsimp only
  cases handedOff : cardHandedOffAs state submission with
  | none => exact Or.inl ⟨rfl, fun _ => rfl⟩
  | some card =>
    dsimp only
    by_cases rejected : submission.dispatchState = .rejected
    · cases moved : settledHandOff state card submission with
      | some settled =>
        rw [settledHandOff, if_pos rejected] at moved
        refine Or.inr (Or.inl ⟨card, settled, rfl, rejected, moved, ?_⟩)
        have stored : (setCard state settled).submissions.get? clientMessageId =
            some submission := found
        exact settleHandOffInDoubt_of_not_rejected stored
          fun _ => (rejectedCardTransition_not_dispatched moved).2.2
      | none =>
        rw [settledHandOff, if_pos rejected] at moved
        have doubt := rejectedCardTransition_eq_none moved
        exact Or.inr (Or.inr ⟨card, rfl, rejected, doubt,
          settleHandOffInDoubt_of_doubt found rejected doubt⟩)
    · refine Or.inl ⟨?_, fun same => absurd same rejected⟩
      rw [settledHandOff, if_neg rejected]
      exact settleHandOffInDoubt_of_not_rejected found fun same => absurd same rejected

@[simp]
theorem applyJournalLifecycleMutation_queue (row : JournalRowBase) (savedAt : Int)
    (state : JournalReducerState) (indexed : JournalLifecycleMutation × Nat) :
    (applyJournalLifecycleMutation env row savedAt state indexed).queue = state.queue := by
  rcases indexed with ⟨⟨content, producer, turnScope, observedAt⟩ | ⟨itemId, revision⟩, index⟩
  · unfold applyJournalLifecycleMutation
    dsimp only
    split <;> simp
  · simp [applyJournalLifecycleMutation]

theorem applyJournalLifecycleBatch_queue (state : JournalReducerState) (row : JournalRowBase)
    (savedAt : Int) (settlementId : String) (mutations : List JournalLifecycleMutation) :
    (applyJournalLifecycleBatch env state row savedAt settlementId mutations).queue =
      state.queue := by
  unfold applyJournalLifecycleBatch
  split
  · rfl
  · have folded := foldl_frame JournalReducerState.queue
      (applyJournalLifecycleMutation_queue env row savedAt) state mutations.zipIdx
    simpa only using folded

/-! ## Queue rows -/

/-- A card a queue row states: its name, and when it stays spent on an attempt. -/
theorem queuedCardFromChange_spec (state : JournalReducerState) (messageId : String)
    (change : JournalQueuedChange) :
    (queuedCardFromChange env state messageId change).messageId = messageId ∧
      ((queuedCardFromChange env state messageId change).state = .dispatched →
        ∃ attempt,
          (queuedCardFromChange env state messageId change).consumedAs = some attempt ∧
          ∀ submission, state.submissions.get? attempt = some submission →
            submission.dispatchState = .rejected →
            queuedHandOffOutcome submission = .inDoubt) := by
  unfold queuedCardFromChange
  dsimp only
  cases named : nonempty? change.attempt with
  | none =>
    simp only [Option.bind_none]
    cases change.returned with
    | none => exact ⟨rfl, fun spent => by cases spent⟩
    | some returned => exact ⟨rfl, fun spent => by cases spent⟩
  | some attempt =>
    simp only [Option.bind_some]
    cases found : state.submissions.get? attempt with
    | none =>
      cases change.returned with
      | none =>
        exact ⟨rfl, fun _ => ⟨attempt, rfl, fun submission present => by
          rw [found] at present
          cases present⟩⟩
      | some returned => exact ⟨rfl, fun spent => by cases spent⟩
    | some submission =>
      dsimp only
      by_cases rejected : submission.dispatchState = .rejected
      · rw [settledHandOff, if_pos rejected]
        cases moved : rejectedCardTransition _ submission
            (commandTurnReported state submission.clientMessageId) with
        | none =>
          refine ⟨rfl, fun _ => ⟨attempt, rfl, fun other present _ => ?_⟩⟩
          rw [found] at present
          cases present
          exact rejectedCardTransition_eq_none moved
        | some settled =>
          have apart := rejectedCardTransition_not_dispatched moved
          exact ⟨apart.1, fun spent => absurd spent apart.2.1⟩
      · rw [settledHandOff, if_neg rejected]
        refine ⟨rfl, fun _ => ⟨attempt, rfl, fun other present same => ?_⟩⟩
        rw [found] at present
        cases present
        exact absurd same rejected

theorem applyQueueRow_of_edit (state : JournalReducerState) (messageId : String)
    {change : JournalQueueChange} (edits : ∀ queued, change ≠ .queued queued) :
    itemStore (applyQueueRow env state messageId change) = itemStore state ∧
      (applyQueueRow env state messageId change).submissions = state.submissions ∧
      (applyQueueRow env state messageId change).aliases = state.aliases := by
  unfold applyQueueRow
  split
  · exact absurd rfl (edits _)
  · exact ⟨rfl, rfl, rfl⟩
  · exact ⟨rfl, rfl, rfl⟩
  · exact ⟨rfl, rfl, rfl⟩
  · split <;> exact ⟨rfl, rfl, rfl⟩
  · exact ⟨rfl, rfl, rfl⟩

theorem nonempty?_eq_some {value : Option String} {text : String}
    (found : nonempty? value = some text) : value = some text :=
  (Option.filter_eq_some_iff.mp found).1

theorem queuedCardFromChange_consumedAs {messageId attempt : String}
    {change : JournalQueuedChange}
    (consumed : (queuedCardFromChange env state messageId change).consumedAs = some attempt) :
    change.attempt = some attempt := by
  unfold queuedCardFromChange at consumed
  dsimp only at consumed
  split at consumed
  case h_1 submission found =>
    unfold settledHandOff at consumed
    split at consumed
    · unfold rejectedCardTransition at consumed
      split at consumed
      · cases consumed
      · exact nonempty?_eq_some consumed
      · split at consumed <;> exact nonempty?_eq_some consumed
    · exact nonempty?_eq_some consumed
  case h_2 =>
    split at consumed
    · exact nonempty?_eq_some consumed
    · split at consumed
      · exact nonempty?_eq_some consumed
      · cases consumed

theorem settleHandOffInDoubt_refused {clientMessageId : String}
    {submission : AgentJournalSubmission}
    (found : (settleHandOffInDoubt state clientMessageId).submissions.get? clientMessageId =
      some submission)
    (rejected : submission.dispatchState = .rejected) :
    submission.queuedMessageId = none ∨
      (state.submissions.get? clientMessageId = some submission ∧
        queuedHandOffOutcome submission ≠ .inDoubt) := by
  cases stored : state.submissions.get? clientMessageId with
  | none =>
    rw [settleHandOffInDoubt_of_absent stored, stored] at found
    cases found
  | some before =>
    by_cases doubt : before.dispatchState = .rejected ∧ queuedHandOffOutcome before = .inDoubt
    · rw [settleHandOffInDoubt_of_doubt stored doubt.1 doubt.2] at found
      simp only [foldQueuedHandOffInDoubt_submissions, JsMap.get?_set_self,
        Option.some.injEq] at found
      subst found
      exact Or.inl (handOffInDoubt_unlinked before rejected)
    · rw [settleHandOffInDoubt_of_not_rejected stored fun refused same =>
        doubt ⟨refused, same⟩, stored] at found
      cases found
      exact Or.inr ⟨rfl, fun same => doubt ⟨rejected, same⟩⟩

namespace JournalLinked

theorem setCard (linked : JournalLinked state) (card : QueuedMessageRow)
    (spentBefore : card.state = .dispatched →
      (∃ before, state.queue.cards.get? card.messageId = some before ∧
        before.state = .dispatched ∧ before.consumedAs = card.consumedAs) ∨
      ∀ clientMessageId submission, card.consumedAs = some clientMessageId →
        state.submissions.get? clientMessageId = some submission →
        submission.dispatchState = .rejected →
        submission.queuedMessageId ≠ some card.messageId) :
    JournalLinked (setCard state card) := by
  refine linked.step ?_ ?_
  · intro clientMessageId submission found
    exact ⟨linked.submissionKeys _ _ found, fun _ => Or.inl found⟩
  · intro messageId stored present
    rw [setCard_cards, JsMap.get?_set] at present
    split at present
    case isTrue here =>
      subst here
      cases present
      exact ⟨rfl, spentBefore⟩
    case isFalse =>
      exact ⟨linked.cardKeys _ _ present, fun spent => Or.inl ⟨stored, present, spent, rfl⟩⟩

theorem applyQueuedChange (linked : JournalLinked state) (messageId : String)
    (change : JournalQueuedChange) :
    JournalLinked (applyQueuedChange env state messageId change) := by
  have spec := queuedCardFromChange_spec env state messageId change
  unfold Journal.applyQueuedChange
  generalize queuedCardFromChange env state messageId change = card at spec
  dsimp only
  cases consumed : card.consumedAs with
  | none =>
    refine linked.setCard card fun spent => ?_
    rcases spec.2 spent with ⟨attempt, named, _⟩
    rw [consumed] at named
    cases named
  | some attempt =>
    -- The stored card may be spent on a refused attempt until that attempt is settled.
    refine linked.step ?_ ?_
    · intro other submission found
      by_cases here : other = attempt
      · subst here
        refine ⟨?_, fun rejected => ?_⟩
        · rcases settleHandOffInDoubt_submissions (Journal.setCard state card)
            other with same | ⟨before, stored, _, _, changed⟩
          · rw [same] at found
            exact linked.submissionKeys _ _ found
          · rw [changed, JsMap.get?_set_self, Option.some.injEq] at found
            rw [← found, handOffInDoubt_clientMessageId]
            exact linked.submissionKeys _ _ stored
        · rcases settleHandOffInDoubt_refused found rejected with unnamed | ⟨old, _⟩
          · exact Or.inr fun _ _ named => by
              rw [unnamed] at named
              cases named
          · exact Or.inl old
      · have old : state.submissions.get? other = some submission := by
          rcases settleHandOffInDoubt_submissions (Journal.setCard state card)
            attempt with same | ⟨before, _, _, _, changed⟩
          · rw [same] at found
            exact found
          · rw [changed, JsMap.get?_set_of_ne _ _ here] at found
            exact found
        exact ⟨linked.submissionKeys _ _ old, fun _ => Or.inl old⟩
    · intro other stored present
      rw [(settleHandOffInDoubt_frame _ attempt).2.2, setCard_cards, JsMap.get?_set] at present
      split at present
      case isTrue here =>
        cases present
        refine ⟨here.symm, fun spent => Or.inr ?_⟩
        intro clientMessageId submission named found rejected
        rw [consumed, Option.some.injEq] at named
        subst named
        rcases spec.2 spent with ⟨same, consumedSame, doubtful⟩
        rw [consumed, Option.some.injEq] at consumedSame
        subst consumedSame
        rcases settleHandOffInDoubt_refused found rejected with unnamed | ⟨old, certain⟩
        · simp [unnamed]
        · exact absurd (doubtful _ old rejected) certain
      case isFalse =>
        exact ⟨linked.cardKeys _ _ present, fun spent => Or.inl ⟨stored, present, spent, rfl⟩⟩

theorem applyQueueRow (linked : JournalLinked state) (messageId : String)
    (change : JournalQueueChange) :
    JournalLinked (applyQueueRow env state messageId change) := by
  cases stored : state.queue.cards.get? messageId with
  | none =>
    cases change with
    | queued change => exact linked.applyQueuedChange env messageId change
    | _ => simpa [Journal.applyQueueRow, stored] using linked
  | some card =>
    have named := linked.cardKeys _ _ stored
    have unspent (changed : QueuedMessageRow) (sameName : changed.messageId = card.messageId)
        (sameState : changed.state = .dispatched →
          card.state = .dispatched ∧ card.consumedAs = changed.consumedAs) :
        JournalLinked (Journal.setCard state changed) :=
      linked.setCard changed fun spent =>
        Or.inl ⟨card, by rw [sameName, named, stored], sameState spent⟩
    cases change with
    | queued change => exact linked.applyQueuedChange env messageId change
    | edited body =>
      simp only [Journal.applyQueueRow, stored]
      exact unspent _ rfl fun spent => ⟨spent, rfl⟩
    | moved position =>
      simp only [Journal.applyQueueRow, stored]
      exact unspent _ rfl fun spent => ⟨spent, rfl⟩
    | held holdReason =>
      simp only [Journal.applyQueueRow, stored]
      split
      · exact unspent _ rfl fun spent => ⟨spent, rfl⟩
      · exact linked
    | withdrawn =>
      simp only [Journal.applyQueueRow, stored]
      exact unspent _ rfl fun spent => by cases spent

theorem applyJournalSubmission (linked : JournalLinked state) (row : JournalRowBase)
    (content : JournalSubmissionContent) :
    JournalLinked (spendCardOnSubmission (applyJournalSubmission env state row content)
      content) := by
  have pending : JournalLinked (Journal.applyJournalSubmission env state row content) := by
    refine linked.step ?_ ?_
    · intro clientMessageId submission found
      simp only [Journal.applyJournalSubmission, upsertJournalItem_frame,
        JsMap.get?_set] at found
      split at found
      case isTrue here =>
        cases found
        refine ⟨here.symm, fun rejected => ?_⟩
        cases rejected
      case isFalse => exact ⟨linked.submissionKeys _ _ found, fun _ => Or.inl found⟩
    · intro messageId card stored
      simp only [Journal.applyJournalSubmission, upsertJournalItem_frame] at stored
      exact ⟨linked.cardKeys _ _ stored, fun spent => Or.inl ⟨card, stored, spent, rfl⟩⟩
  unfold spendCardOnSubmission
  split
  · exact pending
  case h_2 card stored =>
    refine pending.setCard _ fun _ => Or.inr ?_
    intro clientMessageId submission named found rejected
    cases named
    simp only [Journal.applyJournalSubmission, upsertJournalItem_frame, JsMap.get?_set_self,
      Option.some.injEq] at found
    subst found
    cases rejected

theorem applyJournalDispatchRow (linked : JournalLinked state) (row : JournalRowBase)
    (content : JournalDispatchContent) :
    JournalLinked (settleDispatchedCard (applyJournalDispatchRow env state row content)
      content.clientMessageId) := by
  by_cases settled : ∀ submission,
      state.submissions.get? content.clientMessageId = some submission →
        journalDispatchRowApplies submission = false
  · rw [applyJournalDispatchRow_of_settled env row settled,
      settleDispatchedCard_of_settled linked settled]
    exact linked
  · simp only [not_forall, Bool.not_eq_false] at settled
    obtain ⟨submission, found, applies⟩ := settled
    have written := applyJournalDispatchRow_of_applies env row found applies
    generalize Journal.applyJournalDispatchRow env state row content = facts at written
    have stored : facts.submissions.get? content.clientMessageId =
        some (dispatchedSubmission env submission row content) := by
      rw [written.1, JsMap.get?_set_self]
    have named := linked.submissionKeys _ _ found
    have others (other : String) (different : other ≠ content.clientMessageId) :
        facts.submissions.get? other = state.submissions.get? other := by
      rw [written.1, JsMap.get?_set_of_ne _ _ different]
    rcases settleDispatchedCard_cases stored with
      ⟨same, unlinked⟩ | ⟨card, moved, handedOff, rejected, transition, same⟩ |
        ⟨card, handedOff, rejected, doubt, same⟩
    · rw [same]
      refine linked.step ?_ ?_
      · intro other after present
        by_cases here : other = content.clientMessageId
        · subst here
          rw [stored] at present
          cases present
          refine ⟨named, fun rejected => Or.inr ?_⟩
          intro messageId card sent spendable spent consumed
          have none := unlinked rejected
          unfold cardHandedOffAs at none
          rw [sent, Option.bind_some, spendable] at none
          simp [spent, consumed, named] at none
        · rw [others _ here] at present
          exact ⟨linked.submissionKeys _ _ present, fun _ => Or.inl present⟩
      · intro messageId card present
        rw [written.2] at present
        exact ⟨linked.cardKeys _ _ present,
          fun spent => Or.inl ⟨card, present, spent, rfl⟩⟩
    · rw [same]
      have apart := rejectedCardTransition_not_dispatched transition
      rcases cardHandedOffAs_eq_some handedOff with ⟨messageId, sent, spendable, _, _⟩
      rw [written.2] at spendable
      have sameName := apart.1.trans (linked.cardKeys _ _ spendable)
      refine linked.step ?_ ?_
      · intro other after present
        by_cases here : other = content.clientMessageId
        · subst here
          rw [setCard_frame .. |>.2.2.1, stored] at present
          cases present
          refine ⟨named, fun _ => Or.inr ?_⟩
          intro messageId' card' sent' present' spent
          rw [sent] at sent'
          cases sent'
          rw [setCard_cards, sameName, JsMap.get?_set_self, Option.some.injEq] at present'
          subst present'
          exact absurd spent apart.2.1
        · rw [setCard_frame .. |>.2.2.1, others _ here] at present
          exact ⟨linked.submissionKeys _ _ present, fun _ => Or.inl present⟩
      · intro other card' present
        rw [setCard_cards, sameName, JsMap.get?_set] at present
        split at present
        case isTrue here =>
          cases present
          exact ⟨sameName.trans here.symm, fun spent => absurd spent apart.2.1⟩
        case isFalse =>
          rw [written.2] at present
          exact ⟨linked.cardKeys _ _ present,
            fun spent => Or.inl ⟨card', present, spent, rfl⟩⟩
    · rw [same]
      refine linked.step ?_ ?_
      · intro other after present
        rw [foldQueuedHandOffInDoubt_submissions, JsMap.get?_set] at present
        split at present
        case isTrue here =>
          subst here
          cases present
          refine ⟨by simpa using named, fun rejected => Or.inr ?_⟩
          intro messageId card sent
          rw [handOffInDoubt_unlinked _ rejected] at sent
          cases sent
        case isFalse here =>
          rw [others _ here] at present
          exact ⟨linked.submissionKeys _ _ present, fun _ => Or.inl present⟩
      · intro messageId card' present
        rw [(foldQueuedHandOffInDoubt_frame _ _ _).2.2, written.2] at present
        exact ⟨linked.cardKeys _ _ present,
          fun spent => Or.inl ⟨card', present, spent, rfl⟩⟩

theorem applyJournalTombstoneRow (linked : JournalLinked state) (row : JournalRowBase)
    (content : JournalTombstoneContent) :
    JournalLinked (applyJournalTombstoneRow env state row content) := by
  refine linked.step ?_ ?_
  · intro clientMessageId submission found
    have old : state.submissions.get? clientMessageId = some submission := by
      unfold Journal.applyJournalTombstoneRow at found
      split at found
      · exact found
      · dsimp only at found
        split at found
        · unfold retireRewoundJournalSubmission at found
          split at found
          · simp only [removeJournalItem_frame, JsMap.get?_delete] at found
            split at found
            · cases found
            · exact found
          · simpa using found
        · simpa using found
    exact ⟨linked.submissionKeys _ _ old, fun _ => Or.inl old⟩
  · intro messageId card stored
    have old : state.queue.cards.get? messageId = some card := by
      unfold Journal.applyJournalTombstoneRow at stored
      split at stored
      · exact stored
      · dsimp only at stored
        split at stored <;> simpa using stored
    exact ⟨linked.cardKeys _ _ old, fun spent => Or.inl ⟨card, old, spent, rfl⟩⟩

theorem spendReportedCommandCards (linked : JournalLinked state) :
    JournalLinked (spendReportedCommandCards state) :=
  (spendReportedCommandCards_withdrawn linked).linked linked (by simp)

theorem noteJournalActivity (linked : JournalLinked state) (row : JournalRowBase) :
    JournalLinked (noteJournalActivity state row) :=
  linked.of_echoAccepts (.of_eq rfl) rfl

theorem applyJournalRow (linked : JournalLinked state) (row : JournalRow) :
    JournalLinked (applyJournalRow env state row) := by
  have noted := linked.noteJournalActivity row.base
  rcases row with ⟨base, content⟩
  cases content with
  | epoch content => exact linked.of_echoAccepts (.of_eq rfl) rfl
  | item content =>
    refine (noted.of_echoAccepts
      (applyJournalItemRow_echoAccepts env _ base base.ts content) ?_).spendReportedCommandCards
    unfold applyJournalItemRow
    split <;> simp
  | tombstone content => exact noted.applyJournalTombstoneRow env base content
  | submission content => exact noted.applyJournalSubmission env base content
  | dispatch content => exact noted.applyJournalDispatchRow env base content
  | lifecycleBatch settlementId mutations =>
    exact (noted.of_echoAccepts
      (applyJournalLifecycleBatch_echoAccepts env _ base base.ts settlementId mutations)
      (applyJournalLifecycleBatch_queue ..)).spendReportedCommandCards
  | queue messageId change =>
    exact (linked.of_echoAccepts (.of_eq rfl) rfl : JournalLinked
      (noteJournalRow state base)).applyQueueRow env messageId change

theorem replayJournal (sessionId epoch : String) (rows : List JournalRow) :
    JournalLinked (replayJournal env sessionId epoch rows) :=
  foldl_preserves (initial sessionId epoch) (fun _ row linked => linked.applyJournalRow env row)
    rows

end JournalLinked

end OxeeUI.Journal
