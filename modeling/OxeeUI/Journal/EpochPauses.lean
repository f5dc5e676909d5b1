import OxeeUI.Journal.EpochMarks

/-!
# Pauses across an epoch

A replacement restates the pauses in force and the cards they hold.  What held a card holds it in
the new epoch, and what was lifted stays lifted; only a carried submission spends its card again.
-/

namespace OxeeUI.Journal

open OxeeUI.Library

/-- `derivePauses(cards)`: the pauses of a state over the cards it lists. -/
def derivePauses (state : JournalReducerState) (cards : List QueuedMessageRow)
    (reopenFloor : Option AgentJournalCursor) : List DerivedQueuePause :=
  deriveQueuePauses
    ⟨state.epoch, state.queuePauseMarks, state.latestAcceptedTurnSequence, cards, reopenFloor⟩

/-- The replacement as its callers ask for it: queue and pauses restated from the old state. -/
def EpochReplacement.restating (input : EpochReplacement) (cards : List QueuedMessageRow)
    (reopenFloor : Option AgentJournalCursor) : EpochReplacement :=
  { input with
    queue := retainedQueueFacts cards input.previous.submissions
    queuePause := journalQueuePauseRestatement input.previous.queuePauseMarks
      input.previous.latestAcceptedTurnSequence (derivePauses input.previous cards reopenFloor) }

/-- The message is accepted, handed to no one, and named by the submission that carries it. -/
def CarriesMessage (state : JournalReducerState) (messageId : String) : Prop :=
  ∃ submission ∈ state.submissions.values,
    isQueuedAgentJournalSubmission submission ∧ submission.queuedMessageId = some messageId

instance (state : JournalReducerState) (messageId : String) :
    Decidable (CarriesMessage state messageId) :=
  inferInstanceAs (Decidable (∃ submission ∈ state.submissions.values,
    isQueuedAgentJournalSubmission submission ∧ submission.queuedMessageId = some messageId))

/-- No cursor of the old epochs names the minted one. -/
structure FreshEpoch (epoch : String) (cards : List QueuedMessageRow)
    (reopenFloor : Option AgentJournalCursor) : Prop where
  queuedAt : ∀ card ∈ cards, ∀ cursor, card.queuedAt = some cursor → cursor.epoch ≠ epoch
  floor : ∀ floor, reopenFloor = some floor → floor.epoch ≠ epoch

/-! ## Which pauses are derived -/

namespace QueuePauseInput

variable {input : QueuePauseInput} {pause : DerivedQueuePause}

/-- The reopen pause, when a waiting card is older than it. -/
def reopened (input : QueuePauseInput) : Option DerivedQueuePause :=
  input.reopenPause.filter fun reopened =>
    input.waiting.any fun card => card.holdReason.isNone && queuedBefore reopened card

theorem mem_deriveQueuePauses :
    pause ∈ deriveQueuePauses input ↔
      input.stopPause = some pause ∨ input.clearPause = some pause ∨
        input.reopened = some pause := by
  unfold deriveQueuePauses reopened
  simp only [List.mem_append, Option.mem_toList, or_assoc]

theorem stopPause_reason (found : input.stopPause = some pause) : pause.reason = .stopped := by
  rcases Option.map_eq_some_iff.mp found with ⟨stop, -, rfl⟩
  rfl

def clearedIds (input : QueuePauseInput) (cleared : JournalQueueClear) : List String :=
  (input.waiting.map (·.messageId)).filter fun messageId =>
    messageId ≠ "" ∧ messageId ∈ cleared.messageIds

theorem mem_clearedIds {cleared : JournalQueueClear} {messageId : String} :
    messageId ∈ input.clearedIds cleared ↔
      (∃ card ∈ input.cards, card.state = .waiting ∧ card.messageId = messageId) ∧
        messageId ≠ "" ∧ messageId ∈ cleared.messageIds := by
  simp only [clearedIds, waiting, List.mem_filter, List.mem_map, decide_eq_true_eq, and_assoc]

/-- The pause a clear makes while it is not lifted and names a waiting message. -/
def pauseOfClear (input : QueuePauseInput) (cleared : JournalQueueClear) :
    Option DerivedQueuePause :=
  if !cleared.lifted && input.liftedSequence < cleared.sequence then
    if (input.clearedIds cleared).isEmpty then none
    else some ⟨.cleared, some ⟨input.epoch, cleared.sequence⟩, some (input.clearedIds cleared)⟩
  else none

theorem clearPause_eq_some :
    input.clearPause = some pause ↔
      ∃ cleared, input.marks.cleared = some cleared ∧ cleared.lifted = false ∧
        input.liftedSequence < cleared.sequence ∧ input.clearedIds cleared ≠ [] ∧
        pause = ⟨.cleared, some ⟨input.epoch, cleared.sequence⟩,
          some (input.clearedIds cleared)⟩ := by
  have unfolded : input.clearPause = input.marks.cleared.bind input.pauseOfClear := by
    unfold clearPause
    cases input.marks.cleared with
    | none => rfl
    | some cleared => rfl
  rw [unfolded, Option.bind_eq_some_iff]
  refine exists_congr fun cleared => and_congr_right fun _ => ?_
  unfold pauseOfClear
  constructor
  · intro found
    split at found
    case isFalse => cases found
    case isTrue held =>
      simp only [Bool.and_eq_true, Bool.not_eq_true', decide_eq_true_eq] at held
      split at found
      case isTrue => cases found
      case isFalse kept =>
        cases found
        exact ⟨held.1, held.2, fun empty => kept (List.isEmpty_iff.mpr empty), rfl⟩
  · rintro ⟨lifted, later, kept, rfl⟩
    rw [if_pos (by simp [lifted, later]), if_neg (by simpa using kept)]

theorem clearPause_reason (found : input.clearPause = some pause) : pause.reason = .cleared := by
  obtain ⟨cleared, -, -, -, -, rfl⟩ := clearPause_eq_some.mp found
  rfl

def reopenSequence (input : QueuePauseInput) : Nat :=
  max input.marks.reopenedSequence <| match input.reopenFloor with
    | none => 0
    | some floor => if floor.epoch = input.epoch then floor.sequence else 0

theorem reopenPause_eq_some :
    input.reopenPause = some pause ↔
      input.liftedSequence < input.reopenSequence ∧
        pause = ⟨.restarted, some ⟨input.epoch, input.reopenSequence⟩, none⟩ := by
  have unfolded : input.reopenPause =
      if input.reopenSequence = 0 then none
      else if input.reopenSequence ≤ input.liftedSequence then none
      else some ⟨.restarted, some ⟨input.epoch, input.reopenSequence⟩, none⟩ := rfl
  rw [unfolded]
  constructor
  · intro found
    split at found
    · cases found
    · split at found
      · cases found
      · next later =>
        cases found
        exact ⟨Nat.lt_of_not_le later, rfl⟩
  · rintro ⟨later, rfl⟩
    rw [if_neg (Nat.ne_of_gt (Nat.zero_lt_of_lt later)), if_neg (Nat.not_le_of_lt later)]

theorem reopenPause_reason (found : input.reopenPause = some pause) :
    pause.reason = .restarted := by
  rw [(reopenPause_eq_some.mp found).2]

theorem reopened_eq_some (found : input.reopened = some pause) :
    input.reopenPause = some pause ∧ ∃ card ∈ input.waiting,
      card.holdReason = none ∧ queuedBefore pause card := by
  rcases Option.filter_eq_some_iff.mp found with ⟨pending, older⟩
  rcases List.any_eq_true.mp older with ⟨card, waiting, holds⟩
  rw [Bool.and_eq_true, Option.isNone_iff_eq_none] at holds
  exact ⟨pending, card, waiting, holds⟩

theorem mem_of_reason (member : pause ∈ deriveQueuePauses input) :
    (pause.reason = .stopped → input.stopPause = some pause) ∧
      (pause.reason = .cleared → input.clearPause = some pause) ∧
      (pause.reason = .restarted → input.reopened = some pause) := by
  rcases mem_deriveQueuePauses.mp member with stop | clear | reopen
  · have reason := stopPause_reason stop
    rw [reason]
    exact ⟨fun _ => stop, nofun, nofun⟩
  · have reason := clearPause_reason clear
    rw [reason]
    exact ⟨nofun, fun _ => clear, nofun⟩
  · have reason := reopenPause_reason (reopened_eq_some reopen).1
    rw [reason]
    exact ⟨nofun, nofun, fun _ => reopen⟩

theorem find?_cleared :
    ((deriveQueuePauses input).find? fun pause => pause.reason = .cleared) = input.clearPause := by
  cases found : (deriveQueuePauses input).find? fun pause => pause.reason = .cleared with
  | none =>
    cases clear : input.clearPause with
    | none => rfl
    | some pause =>
      have member : pause ∈ deriveQueuePauses input :=
        mem_deriveQueuePauses.mpr (Or.inr (Or.inl clear))
      have absent := List.find?_eq_none.mp found pause member
      exact absurd (decide_eq_true (clearPause_reason clear)) absent
  | some pause =>
    have reason := List.find?_some found
    have member := List.mem_of_find?_eq_some found
    exact ((mem_of_reason member).2.1 (of_decide_eq_true reason)).symm

end QueuePauseInput

/-! ## Which cards are held -/

theorem queuePauseHolding_isSome {pauses : List DerivedQueuePause} {card : QueuedMessageRow} :
    (queuePauseHolding pauses card).isSome ↔
      card.state = .waiting ∧ card.holdReason = none ∧
        ∃ pause ∈ pauses, queuedBefore pause card := by
  unfold queuePauseHolding
  split
  case isTrue free =>
    refine ⟨nofun, ?_⟩
    rintro ⟨waiting, unheld, -⟩
    rcases free with apart | apart
    · exact absurd waiting apart
    · exact absurd unheld apart
  case isFalse kept =>
    rw [not_or, not_not, not_not] at kept
    rw [List.find?_isSome]
    exact ⟨fun held => ⟨kept.1, kept.2, held⟩, fun held => held.2.2⟩

theorem queuedBefore_congr {pause : DerivedQueuePause} {first second : QueuedMessageRow}
    (sameId : first.messageId = second.messageId) (sameQueued : first.queuedAt = second.queuedAt) :
    queuedBefore pause first = queuedBefore pause second := by
  unfold queuedBefore
  rw [sameId, sameQueued]

theorem queuedBefore_of_apart {pause : DerivedQueuePause} {card : QueuedMessageRow}
    {since : AgentJournalCursor} (reason : pause.reason ≠ .cleared)
    (boundary : pause.since = some since)
    (apart : ∀ cursor, card.queuedAt = some cursor → cursor.epoch ≠ since.epoch) :
    queuedBefore pause card := by
  unfold queuedBefore
  rw [if_neg reason, boundary]
  cases queued : card.queuedAt with
  | none => rfl
  | some cursor =>
    dsimp only
    rw [decide_eq_true (apart cursor queued), Bool.true_or]

/-! ## Derived again -/

/-- What the caller restates of the pauses it derived. -/
def QueuePauseInput.restatement (before : QueuePauseInput) : JournalQueuePauseRestatement :=
  journalQueuePauseRestatement before.marks before.latestAcceptedTurnSequence
    (deriveQueuePauses before)

/-- The pauses of a new epoch: its marks restate the old ones, no turn is accepted yet, and the
boundary of the handle belongs to another epoch. -/
structure RestatedInput (before after : QueuePauseInput) : Prop where
  marks : RestatedMarks before.restatement after.marks
  accepted : after.latestAcceptedTurnSequence = 0
  floor : after.reopenSequence = after.marks.reopenedSequence

namespace RestatedInput

open QueuePauseInput

variable {before after : QueuePauseInput}

theorem liftedSequence (restated : RestatedInput before after) :
    after.liftedSequence = after.marks.resumedSequence := by
  unfold QueuePauseInput.liftedSequence
  rw [restated.accepted]
  exact Nat.max_eq_right (Nat.zero_le _)

theorem restatement_reopened :
    before.restatement.reopened = before.reopened.isSome := by
  cases reopened : before.reopened with
  | none =>
    refine List.any_eq_false.mpr fun pause member restarted => ?_
    have found := (mem_of_reason member).2.2 (of_decide_eq_true restarted)
    rw [reopened] at found
    cases found
  | some pause =>
    refine List.any_eq_true.mpr ⟨pause, mem_deriveQueuePauses.mpr (Or.inr (Or.inr reopened)), ?_⟩
    exact decide_eq_true (reopenPause_reason (reopened_eq_some reopened).1)

theorem restatement_cleared :
    before.restatement.cleared = before.marks.cleared.map fun cleared =>
      { operationId := cleared.operationId
        messageIds := (before.clearPause.bind (·.messageIds)).getD []
        lifted := cleared.lifted || cleared.sequence ≤ before.liftedSequence } := by
  unfold QueuePauseInput.restatement journalQueuePauseRestatement
  dsimp only
  rw [find?_cleared]
  rfl

theorem stopPause_of_none (restated : RestatedInput before after)
    (lifted : before.stopPause = none) : after.stopPause = none := by
  have gone : before.restatement.liveStop = none := by
    show Option.map Prod.snd _ = none
    rw [Option.map_eq_none_iff.mp lifted]
    rfl
  have absent := Option.map_eq_none_iff.mp (restated.marks.stop.trans gone)
  unfold stopPause JournalQueuePauseMarks.journalUserStopInForce
  rw [absent, ite_self]
  rfl

theorem stopPause_of_some (restated : RestatedInput before after) {pause : DerivedQueuePause}
    (held : before.stopPause = some pause) :
    ∃ sequence, after.stopPause = some ⟨.stopped, some ⟨after.epoch, sequence⟩, none⟩ := by
  rcases Option.map_eq_some_iff.mp held with ⟨stop, inForce, -⟩
  have live : before.restatement.liveStop = some stop.2 := by
    show Option.map Prod.snd _ = some stop.2
    rw [inForce]
    rfl
  have personal : stop.2.member "reason" = .string "user-stop" := by
    unfold JournalQueuePauseMarks.journalUserStopInForce at inForce
    split at inForce
    case isFalse => cases inForce
    case isTrue holds =>
      unfold JournalQueuePauseMarks.journalQueueStopHolds at holds
      rw [inForce] at holds
      simp only [Option.any_some, Bool.and_eq_true, decide_eq_true_eq] at holds
      exact holds.1
  rcases Option.map_eq_some_iff.mp (restated.marks.stop.trans live) with
    ⟨⟨sequence, event⟩, stored, same⟩
  have later := restated.marks.stopped _ stored
  have lifted := restated.liftedSequence
  unfold QueuePauseInput.liftedSequence at lifted
  refine ⟨sequence, ?_⟩
  unfold stopPause JournalQueuePauseMarks.journalUserStopInForce
    JournalQueuePauseMarks.journalQueueStopHolds
  rw [stored]
  dsimp only at same later
  rw [Option.any_some, same, personal, lifted, decide_eq_true rfl, decide_eq_true later]
  rfl

theorem reopenPause_of_none (restated : RestatedInput before after)
    (lifted : before.reopened = none) : after.reopenPause = none := by
  have reopened := restated.marks.reopened
  rw [restatement_reopened, lifted, if_neg (by simp)] at reopened
  cases found : after.reopenPause with
  | none => rfl
  | some pause =>
    have later := (reopenPause_eq_some.mp found).1
    rw [restated.floor, reopened] at later
    cases later

theorem reopenPause_of_some (restated : RestatedInput before after) {pause : DerivedQueuePause}
    (held : before.reopened = some pause) :
    ∃ sequence, after.reopenPause = some ⟨.restarted, some ⟨after.epoch, sequence⟩, none⟩ := by
  have reopened := restated.marks.reopened
  rw [restatement_reopened, held, Option.isSome_some, if_pos rfl] at reopened
  refine ⟨_, reopenPause_eq_some.mpr ⟨?_, rfl⟩⟩
  rw [restated.floor, restated.liftedSequence]
  exact reopened

theorem cleared_of_stored (restated : RestatedInput before after) {cleared : JournalQueueClear}
    (stored : after.marks.cleared = some cleared) :
    cleared.messageIds = (before.clearPause.bind (·.messageIds)).getD [] := by
  have same := restated.marks.clear
  rw [restatement_cleared, stored] at same
  rcases Option.map_eq_some_iff.mp same.symm with ⟨original, -, stated⟩
  exact (congrArg QueueClearRestatement.messageIds stated).symm

theorem clearPause_of_none (restated : RestatedInput before after)
    (lifted : before.clearPause = none) : after.clearPause = none := by
  cases found : after.clearPause with
  | none => rfl
  | some pause =>
    obtain ⟨cleared, stored, -, -, kept, -⟩ := clearPause_eq_some.mp found
    have named := restated.cleared_of_stored stored
    rw [lifted] at named
    obtain ⟨messageId, member⟩ := List.exists_mem_of_ne_nil _ kept
    have listed := (mem_clearedIds.mp member).2.2
    rw [named] at listed
    cases listed

theorem clearPause_of_some (restated : RestatedInput before after) {pause : DerivedQueuePause}
    (held : before.clearPause = some pause) {card : QueuedMessageRow}
    (older : queuedBefore pause card) (listed : card ∈ after.cards)
    (waiting : card.state = .waiting) :
    ∃ pause, after.clearPause = some pause ∧ queuedBefore pause card := by
  have clear := restated.marks.clear
  rw [restatement_cleared, held] at clear
  obtain ⟨original, marked, unlifted, later, -, rfl⟩ := clearPause_eq_some.mp held
  rw [marked] at clear
  rcases Option.map_eq_some_iff.mp clear with ⟨cleared, stored, same⟩
  have names : cleared.messageIds = before.clearedIds original :=
    congrArg QueueClearRestatement.messageIds same
  have lifted : cleared.lifted = false := by
    refine (congrArg QueueClearRestatement.lifted same).trans ?_
    dsimp only
    rw [unlifted, decide_eq_false (Nat.not_le_of_lt later), Bool.or_self]
  have member : card.messageId ∈ before.clearedIds original := of_decide_eq_true older
  have kept : card.messageId ∈ after.clearedIds cleared := by
    refine mem_clearedIds.mpr ⟨⟨card, listed, waiting, rfl⟩, (mem_clearedIds.mp member).2.1, ?_⟩
    rw [names]
    exact member
  refine ⟨_, clearPause_eq_some.mpr ⟨cleared, stored, lifted, ?_, List.ne_nil_of_mem kept, rfl⟩,
    decide_eq_true kept⟩
  rw [restated.liftedSequence]
  exact restated.marks.cleared _ stored

/-- A reason that held nothing back before holds nothing back after. -/
theorem reason_absent (restated : RestatedInput before after) {reason : QueuePauseReason}
    (absent : ∀ pause ∈ deriveQueuePauses before, pause.reason ≠ reason) :
    ∀ pause ∈ deriveQueuePauses after, pause.reason ≠ reason := by
  intro pause member same
  have found := mem_of_reason member
  cases reason with
  | stopped =>
    have stop := found.1 same
    cases held : before.stopPause with
    | none =>
      rw [restated.stopPause_of_none held] at stop
      cases stop
    | some old =>
      exact absent old (mem_deriveQueuePauses.mpr (Or.inl held)) (stopPause_reason held)
  | cleared =>
    have clear := found.2.1 same
    cases held : before.clearPause with
    | none =>
      rw [restated.clearPause_of_none held] at clear
      cases clear
    | some old =>
      exact absent old (mem_deriveQueuePauses.mpr (Or.inr (Or.inl held)))
        (clearPause_reason held)
  | restarted =>
    have reopen := found.2.2 same
    cases held : before.reopened with
    | none =>
      have pending := (reopened_eq_some reopen).1
      rw [restated.reopenPause_of_none held] at pending
      cases pending
    | some old =>
      exact absent old (mem_deriveQueuePauses.mpr (Or.inr (Or.inr held)))
        (reopenPause_reason (reopened_eq_some held).1)

theorem holds_again (restated : RestatedInput before after) {pause : DerivedQueuePause}
    (member : pause ∈ deriveQueuePauses before) {card : QueuedMessageRow}
    (older : queuedBefore pause card) (listed : card ∈ after.cards)
    (waiting : card.state = .waiting) (unheld : card.holdReason = none)
    (fresh : ∀ cursor, card.queuedAt = some cursor → cursor.epoch ≠ after.epoch) :
    ∃ pause ∈ deriveQueuePauses after, queuedBefore pause card := by
  rcases mem_deriveQueuePauses.mp member with stop | clear | reopen
  · obtain ⟨sequence, stop⟩ := restated.stopPause_of_some stop
    exact ⟨_, mem_deriveQueuePauses.mpr (Or.inl stop), queuedBefore_of_apart nofun rfl fresh⟩
  · obtain ⟨again, clear, holds⟩ := restated.clearPause_of_some clear older listed waiting
    exact ⟨again, mem_deriveQueuePauses.mpr (Or.inr (Or.inl clear)), holds⟩
  · obtain ⟨sequence, reopen⟩ := restated.reopenPause_of_some reopen
    have holds : queuedBefore ⟨.restarted, some ⟨after.epoch, sequence⟩, none⟩ card :=
      queuedBefore_of_apart nofun rfl fresh
    refine ⟨_, mem_deriveQueuePauses.mpr (Or.inr (Or.inr ?_)), holds⟩
    refine Option.filter_eq_some_iff.mpr ⟨reopen, List.any_eq_true.mpr ⟨card, ?_, ?_⟩⟩
    · exact List.mem_filter.mpr ⟨listed, decide_eq_true waiting⟩
    · rw [unheld, holds]
      rfl

theorem restatement_readable (readable : before.marks.Readable) :
    before.restatement.Readable where
  stop event live := by
    rcases Option.map_eq_some_iff.mp live with ⟨stop, inForce, rfl⟩
    unfold JournalQueuePauseMarks.journalUserStopInForce at inForce
    split at inForce
    · exact readable.stop stop inForce
    · cases inForce
  clear cleared stated := by
    rw [restatement_cleared] at stated
    rcases Option.map_eq_some_iff.mp stated with ⟨original, marked, rfl⟩
    refine ⟨readable.clear original marked, fun messageId member => ?_⟩
    cases held : before.clearPause with
    | none =>
      rw [held] at member
      cases member
    | some pause =>
      obtain ⟨other, -, -, -, -, rfl⟩ := clearPause_eq_some.mp held
      rw [held] at member
      exact (mem_clearedIds.mp member).2.1

end RestatedInput

/-! ## The replacement -/

theorem JournalLinked.map_messageId {state : JournalReducerState} (linked : JournalLinked state) :
    state.queue.cards.values.map (·.messageId) = state.queue.cards.keys := by
  unfold JsMap.values JsMap.keys
  rw [List.map_map]
  refine List.map_congr_left fun entry member => ?_
  exact linked.cardKeys _ _ (JsMap.get?_eq_some_iff.mpr member)

section Replacement

variable {env : JournalEnvironment} {input : EpochReplacement} {cards : List QueuedMessageRow}
  {reopenFloor : Option AgentJournalCursor} {draft : EpochDraft}

/-- The stages of a replacement that is not refused. -/
theorem replaceJournalEpoch_stages (replaced : replaceJournalEpoch env input = .ok draft) :
    ∃ withItems carried,
      input.items.foldlM (input.pushItem env) (EpochReplacement.push env
        ⟨createJournalReducerState input.sessionId input.epoch, []⟩
        (input.epochRow (createJournalReducerState input.sessionId input.epoch))) = .ok withItems ∧
      input.carriedSubmissions.foldlM (input.pushSubmission env)
        (input.queue.foldl (input.pushCard env) withItems) = .ok carried ∧
      draft = input.marks.foldl (input.pushMark env) carried := by
  unfold replaceJournalEpoch at replaced
  dsimp only at replaced
  cases items : input.items.foldlM (input.pushItem env) (EpochReplacement.push env
      ⟨createJournalReducerState input.sessionId input.epoch, []⟩
      (input.epochRow (createJournalReducerState input.sessionId input.epoch))) with
  | error failure =>
    rw [items] at replaced
    cases replaced
  | ok withItems =>
    rw [items] at replaced
    cases submissions : input.carriedSubmissions.foldlM (input.pushSubmission env)
        (input.queue.foldl (input.pushCard env) withItems) with
    | error failure =>
      replace replaced : ((input.carriedSubmissions.foldlM (input.pushSubmission env)
        (input.queue.foldl (input.pushCard env) withItems)).bind _ :
          Except String EpochDraft) = .ok draft := replaced
      rw [submissions] at replaced
      cases replaced
    | ok carried =>
      replace replaced : ((input.carriedSubmissions.foldlM (input.pushSubmission env)
        (input.queue.foldl (input.pushCard env) withItems)).bind _ :
          Except String EpochDraft) = .ok draft := replaced
      rw [submissions] at replaced
      cases replaced
      exact ⟨withItems, carried, rfl, submissions, rfl⟩

theorem foldlM_pushItem_opening {withItems : EpochDraft}
    (pushed : input.items.foldlM (input.pushItem env) (EpochReplacement.push env
        ⟨createJournalReducerState input.sessionId input.epoch, []⟩
        (input.epochRow (createJournalReducerState input.sessionId input.epoch))) =
      .ok withItems) :
    EpochOpening input.epoch withItems.state ∧ JournalLinked withItems.state := by
  refine @foldlM_preserves_of_mem _ _ _ _
    (fun draft => EpochOpening input.epoch draft.state ∧ JournalLinked draft.state)
    _ _ ?_ _ ?_ pushed
  · rw [EpochReplacement.push_state]
    exact ⟨⟨rfl, rfl, rfl⟩, (JournalLinked.initial _ _).applyJournalRow env _⟩
  · intro draft next item _ opening stepped
    unfold EpochReplacement.pushItem at stepped
    split at stepped
    · cases stepped
    · cases stepped
      rw [EpochReplacement.push_state]
      exact ⟨opening.1.applyJournalRow_item env _ _, opening.2.applyJournalRow env _⟩

theorem foldl_pushCard_linked {withItems : EpochDraft} (linked : JournalLinked withItems.state) :
    JournalLinked (input.queue.foldl (input.pushCard env) withItems).state := by
  refine @foldl_preserves EpochDraft _ _ (fun draft => JournalLinked draft.state) _ linked ?_ _
  intro draft card kept
  unfold EpochReplacement.pushCard
  split
  · exact kept
  · rw [EpochReplacement.push_state]
    exact kept.applyJournalRow env _

/-- The cards a replacement must keep: waiting, without a hold of their own, and named by no
carried submission. -/
def KeptWaiting (previous : JournalReducerState) (cards : List QueuedMessageRow)
    (card : QueuedMessageRow) : Prop :=
  card ∈ cards ∧ card.state = .waiting ∧ card.holdReason = none ∧
    ¬ CarriesMessage previous card.messageId

theorem restating_carrying (distinct : (cards.map (·.messageId)).Nodup)
    {withItems carried : EpochDraft}
    (opening : EpochOpening input.epoch withItems.state) (linked : JournalLinked withItems.state)
    (pushed : (input.restating cards reopenFloor).carriedSubmissions.foldlM
      ((input.restating cards reopenFloor).pushSubmission env)
      ((input.restating cards reopenFloor).queue.foldl
        ((input.restating cards reopenFloor).pushCard env) withItems) = .ok carried) :
    EpochReplacement.Carrying input.epoch (KeptWaiting input.previous cards) carried.state := by
  have kept : ((cards.filter (isRetained input.previous.submissions)).map
      (·.messageId)).Nodup := distinct.sublist (List.filter_sublist.map _)
  have facts := (input.restating cards reopenFloor).foldl_pushCard_facts env
    (cards.filter (isRetained input.previous.submissions)) opening.submissions
  refine @foldlM_preserves_of_mem _ _ _ _
    (fun draft => EpochReplacement.Carrying input.epoch (KeptWaiting input.previous cards)
      draft.state) _ _ ⟨?_, foldl_pushCard_linked linked, ?_⟩ _ ?_ pushed
  · exact facts.1.trans opening.facts
  · rintro card ⟨member, waiting, unheld, -⟩
    refine (input.restating cards reopenFloor).foldl_pushCard_stores env kept opening.submissions
      (Or.inr ⟨List.mem_filter.mpr ⟨member, ?_⟩, waiting, unheld⟩)
    unfold isRetained
    rw [waiting]
  · intro draft next submission member carrying stepped
    have carries := (input.restating cards reopenFloor).mem_carriedSubmissions member
    refine (input.restating cards reopenFloor).pushSubmission_carrying env ?_ carrying stepped
    rintro card ⟨-, -, -, uncarried⟩ named
    exact uncarried ⟨submission, carries.1, carries.2, named⟩

/-- What a replacement publishes: the pauses derived from it restate the old ones, and the cards
to keep are stored. -/
theorem restating_published (readable : input.previous.queuePauseMarks.Readable)
    (distinct : (cards.map (·.messageId)).Nodup) (fresh : FreshEpoch input.epoch cards reopenFloor)
    (replaced : replaceJournalEpoch env (input.restating cards reopenFloor) = .ok draft)
    (newCards : List QueuedMessageRow) :
    draft.state.epoch = input.epoch ∧
      (∀ card, KeptWaiting input.previous cards card → StoresRestated draft.state card) ∧
      RestatedInput
        ⟨input.previous.epoch, input.previous.queuePauseMarks,
          input.previous.latestAcceptedTurnSequence, cards, reopenFloor⟩
        ⟨draft.state.epoch, draft.state.queuePauseMarks, draft.state.latestAcceptedTurnSequence,
          newCards, reopenFloor⟩ := by
  obtain ⟨withItems, carried, items, submissions, rfl⟩ := replaceJournalEpoch_stages replaced
  obtain ⟨opening, linked⟩ := foldlM_pushItem_opening items
  have carrying := restating_carrying distinct opening linked submissions
  have epoch : carried.state.epoch = input.epoch := congrArg PauseFacts.epoch carrying.facts
  have start : MarksOnly carried.state carried.state createJournalQueuePauseMarks :=
    ⟨rfl, rfl, rfl, congrArg PauseFacts.marks carrying.facts⟩
  let before : QueuePauseInput :=
    ⟨input.previous.epoch, input.previous.queuePauseMarks,
      input.previous.latestAcceptedTurnSequence, cards, reopenFloor⟩
  have restatable : before.restatement.Readable := RestatedInput.restatement_readable readable
  obtain ⟨marks, restated, only⟩ :=
    (input.restating cards reopenFloor).foldl_pushMark_restated env restatable start
  refine ⟨only.epoch.trans epoch, fun card kept => ?_, ?_, ?_, ?_⟩
  · obtain ⟨stored, found, same⟩ := carrying.cards card kept
    refine ⟨stored, ?_, same⟩
    rw [only.queue]
    exact found
  · rw [only.marks]
    exact restated
  · exact only.accepted.trans
      (congrArg PauseFacts.latestAcceptedTurnSequence carrying.facts)
  · unfold QueuePauseInput.reopenSequence
    dsimp only
    rw [only.epoch.trans epoch]
    cases floored : reopenFloor with
    | none => exact Nat.max_eq_left (Nat.zero_le _)
    | some floor =>
      dsimp only
      rw [if_neg (fresh.floor floor floored)]
      exact Nat.max_eq_left (Nat.zero_le _)

end Replacement

/-- Replacing the epoch neither releases a held card, unless a carried submission names it, nor
resurrects a pause that was lifted. -/
theorem replaceJournalEpoch_keeps_pauses (env : JournalEnvironment) (sessionId epoch : String)
    (rows : List JournalRow) (input : EpochReplacement) (cards newCards : List QueuedMessageRow)
    (reopenFloor : Option AgentJournalCursor) (draft : EpochDraft)
    (replayed : input.previous = replayJournal env sessionId epoch rows)
    (listed : cards.Perm input.previous.queue.cards.values)
    (fresh : FreshEpoch input.epoch cards reopenFloor)
    (replaced : replaceJournalEpoch env (input.restating cards reopenFloor) = .ok draft)
    (newListed : newCards.Perm draft.state.queue.cards.values) :
    (∀ card ∈ cards,
      (queuePauseHolding (derivePauses input.previous cards reopenFloor) card).isSome →
      ¬ CarriesMessage input.previous card.messageId →
      ∃ restated ∈ newCards, restated.messageId = card.messageId ∧ restated.state = .waiting ∧
        (queuePauseHolding (derivePauses draft.state newCards reopenFloor) restated).isSome) ∧
    ∀ reason,
      (∀ pause ∈ derivePauses input.previous cards reopenFloor, pause.reason ≠ reason) →
      ∀ pause ∈ derivePauses draft.state newCards reopenFloor, pause.reason ≠ reason := by
  have linked : JournalLinked input.previous := by
    rw [replayed]
    exact JournalLinked.replayJournal env sessionId epoch rows
  have readable : input.previous.queuePauseMarks.Readable := by
    rw [replayed]
    exact replayJournal_readable env sessionId epoch rows
  have distinct : (cards.map (·.messageId)).Nodup := by
    rw [(listed.map (·.messageId)).nodup_iff, linked.map_messageId]
    exact input.previous.queue.cards.keys_nodup
  obtain ⟨sameEpoch, stored, restated⟩ :=
    restating_published readable distinct fresh replaced newCards
  refine ⟨fun card member held uncarried => ?_, fun reason absent => ?_⟩
  · obtain ⟨waiting, unheld, pause, derived, older⟩ := queuePauseHolding_isSome.mp held
    obtain ⟨again, found, same⟩ := stored card ⟨member, waiting, unheld, uncarried⟩
    have present : again ∈ newCards :=
      newListed.mem_iff.mpr (JsMap.mem_values_iff.mpr ⟨_, found⟩)
    refine ⟨again, present, same.messageId, same.waiting, queuePauseHolding_isSome.mpr
      ⟨same.waiting, same.unheld, restated.holds_again derived ?_ present same.waiting same.unheld
        ?_⟩⟩
    · rw [queuedBefore_congr same.messageId same.queuedAt]
      exact older
    · intro cursor queued
      rw [same.queuedAt] at queued
      rw [sameEpoch]
      exact fresh.queuedAt card member cursor queued
  · exact restated.reason_absent absent

/-! ## A stopped queue -/

/-- A person's Stop, after the given rows. -/
def stoppedRows (contents : List JournalRowContent) : List JournalRow :=
  let stop : JournalRowContent := .tombstone (EpochReplacement.stopEventContent
    (.object [("reason", .string "user-stop"), ("at", .number 7)]))
  (contents ++ [stop]).zipIdx.map fun indexed => plainRow (indexed.2 + 1) indexed.1

def stoppedJournal (contents : List JournalRowContent) : JournalReducerState :=
  replayJournal plainEnvironment "session" "old" (stoppedRows contents)

def plainReplacement (previous : JournalReducerState) : EpochReplacement where
  sessionId := "session"
  providerHandle := .null
  reason := .handleForked
  fence := 1
  items := []
  previous := previous
  queuePause := ⟨false, none, false, none⟩
  queue := []
  now := fun sequence => sequence
  epoch := "new"

/-- A message the queue accepted and has not handed over. -/
def plainCarried (clientMessageId : String) (queuedMessageId : Option String) :
    JournalRowContent :=
  .submission ⟨clientMessageId, "fingerprint of session", plainMessage, true, queuedMessageId,
    none, .undefined, .undefined⟩

theorem exists_draft {env : JournalEnvironment} {input : EpochReplacement}
    (accepted : (replaceJournalEpoch env input).toOption.isSome) :
    ∃ draft, replaceJournalEpoch env input = .ok draft := by
  cases replaced : replaceJournalEpoch env input with
  | error failure =>
    rw [replaced] at accepted
    cases accepted
  | ok draft => exact ⟨draft, rfl⟩

theorem plain_freshEpoch {cards : List QueuedMessageRow}
    (unqueued : ∀ card ∈ cards, card.queuedAt = none) : FreshEpoch "new" cards none where
  queuedAt card member cursor queued := by
    rw [unqueued card member] at queued
    cases queued
  floor := nofun

/-- A queue with a carried message, and a card its Stop holds. -/
def heldJournal : JournalReducerState :=
  stoppedJournal [plainQueued "sent" none, plainCarried "send" (some "sent"),
    plainQueued "card" none]

theorem heldJournal_keeps_pauses :
    ∃ draft, replaceJournalEpoch plainEnvironment
        ((plainReplacement heldJournal).restating heldJournal.queue.cards.values none) =
          .ok draft ∧
      (∃ restated ∈ draft.state.queue.cards.values, restated.messageId = "card" ∧
        (queuePauseHolding (derivePauses draft.state draft.state.queue.cards.values none)
          restated).isSome) ∧
      ∀ pause ∈ derivePauses draft.state draft.state.queue.cards.values none,
        pause.reason ≠ .cleared := by
  obtain ⟨draft, replaced⟩ : ∃ draft, replaceJournalEpoch plainEnvironment
      ((plainReplacement heldJournal).restating heldJournal.queue.cards.values none) =
        .ok draft := exists_draft (by decide +kernel)
  have kept := replaceJournalEpoch_keeps_pauses plainEnvironment "session" "old"
    (stoppedRows [plainQueued "sent" none, plainCarried "send" (some "sent"),
      plainQueued "card" none]) (plainReplacement heldJournal) _ _ none draft rfl (List.Perm.refl _)
    (plain_freshEpoch (by decide +kernel)) replaced (List.Perm.refl _)
  have held : ∃ card ∈ heldJournal.queue.cards.values, card.messageId = "card" ∧
      (queuePauseHolding (derivePauses heldJournal heldJournal.queue.cards.values none)
        card).isSome ∧ ¬ CarriesMessage heldJournal card.messageId := by decide +kernel
  obtain ⟨card, member, named, holds, uncarried⟩ := held
  obtain ⟨restated, present, same, -, again⟩ := kept.1 card member holds uncarried
  exact ⟨draft, replaced, ⟨restated, present, same.trans named, again⟩,
    kept.2 .cleared (by decide +kernel)⟩

/-- A card queued again under the message its unsent submission names. -/
def requeuedJournal : JournalReducerState :=
  stoppedJournal [plainQueued "card" none, plainCarried "send" (some "card"),
    plainQueued "card" none]

/-- The carried submission spends the card a Stop held. -/
theorem carried_submission_spends_held_card :
    ¬ ∀ (env : JournalEnvironment) (sessionId epoch : String) (rows : List JournalRow)
      (input : EpochReplacement) (cards newCards : List QueuedMessageRow)
      (reopenFloor : Option AgentJournalCursor) (draft : EpochDraft),
      input.previous = replayJournal env sessionId epoch rows →
      cards.Perm input.previous.queue.cards.values →
      FreshEpoch input.epoch cards reopenFloor →
      replaceJournalEpoch env (input.restating cards reopenFloor) = .ok draft →
      newCards.Perm draft.state.queue.cards.values →
      ∀ card ∈ cards,
        (queuePauseHolding (derivePauses input.previous cards reopenFloor) card).isSome →
        ∃ restated ∈ newCards, restated.messageId = card.messageId ∧
          restated.state = .waiting ∧
          (queuePauseHolding (derivePauses draft.state newCards reopenFloor) restated).isSome := by
  intro kept
  obtain ⟨draft, replaced⟩ : ∃ draft, replaceJournalEpoch plainEnvironment
      ((plainReplacement requeuedJournal).restating requeuedJournal.queue.cards.values none) =
        .ok draft := exists_draft (by decide +kernel)
  have spent : ((replaceJournalEpoch plainEnvironment
      ((plainReplacement requeuedJournal).restating requeuedJournal.queue.cards.values
        none)).toOption.all fun draft =>
      draft.state.queue.cards.values.all fun card => card.state ≠ .waiting) := by decide +kernel
  have held : ∃ card ∈ requeuedJournal.queue.cards.values,
      (queuePauseHolding (derivePauses requeuedJournal requeuedJournal.queue.cards.values none)
        card).isSome := by decide +kernel
  obtain ⟨card, member, holds⟩ := held
  obtain ⟨restated, present, -, waiting, -⟩ := kept plainEnvironment "session" "old"
    (stoppedRows [plainQueued "card" none, plainCarried "send" (some "card"),
      plainQueued "card" none]) (plainReplacement requeuedJournal) _ _ none draft rfl
    (List.Perm.refl _) (plain_freshEpoch (by decide +kernel)) replaced (List.Perm.refl _) card
    member holds
  rw [replaced] at spent
  have moved := List.all_eq_true.mp spent restated present
  exact of_decide_eq_true moved waiting

end OxeeUI.Journal
