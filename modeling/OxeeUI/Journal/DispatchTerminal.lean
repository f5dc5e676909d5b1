import OxeeUI.Journal.EchoAliases

/-!
# Settled dispatches

An accepted submission stays as it was accepted until a rewind retires it.  A refused
one stays refused, and no provider item is stored under its key, unless a queue row
states its card anew while its delivery is in doubt.
-/

namespace OxeeUI.Journal

open OxeeUI.Library

variable (env : JournalEnvironment)

/-- A queue row states a card anew as handed off in a dispatch already refused, whose
delivery is then displayed as doubtful again. -/
def ReopensRefusal (state : JournalReducerState) (row : JournalRow) : Prop :=
  ∃ messageId change clientMessageId submission,
    row.content = .queue messageId (.queued change) ∧
    change.attempt = some clientMessageId ∧
    state.submissions.get? clientMessageId = some submission ∧
    submission.dispatchState = .rejected ∧
    queuedHandOffOutcome submission = .inDoubt ∧
    (dispatchWasWithdrawn submission && submission.answeredInNoTurn) = false

/-- No row of the run opens a refused dispatch again. -/
def KeepsRefusals (sessionId epoch : String) (rows : List JournalRow) : Prop :=
  ∀ early row late, rows = early ++ row :: late →
    ¬ ReopensRefusal (replayJournal env sessionId epoch early) row

theorem KeepsRefusals.of_append {env : JournalEnvironment} {sessionId epoch : String}
    {rows later : List JournalRow} (keeps : KeepsRefusals env sessionId epoch (rows ++ later)) :
    KeepsRefusals env sessionId epoch rows := by
  intro early row late split
  exact keeps early row (late ++ later) (by rw [split]; simp)

/-- Refused or gone, and not addressed by any provider item. -/
structure StaysRefused (state : JournalReducerState) (clientMessageId : String) : Prop where
  refused : ∀ submission, state.submissions.get? clientMessageId = some submission →
    submission.dispatchState = .rejected
  unaddressed : ∀ itemId,
    state.aliases.get? itemId ≠ some (agentJournalSubmissionKey clientMessageId)

def AcceptedAs (state : JournalReducerState) (clientMessageId : String)
    (providerItemId : Option String) (resolvedAt : Option Int) : Prop :=
  ∃ submission, state.submissions.get? clientMessageId = some submission ∧
    submission.dispatchState = .accepted ∧ submission.providerItemId = providerItemId ∧
    submission.resolvedAt = resolvedAt

section Rows

variable {env}
variable {state : JournalReducerState} {row : JournalRow} {clientMessageId : String}

theorem AcceptedAs.step {next : JournalReducerState} {providerItemId : Option String}
    {resolvedAt : Option Int} (accepted : AcceptedAs state clientMessageId providerItemId resolvedAt)
    (step : SubmissionStep env state next row clientMessageId)
    (unsubmitted : row.submittedId? ≠ some clientMessageId) :
    RetiresSubmission env row clientMessageId ∨
      AcceptedAs next clientMessageId providerItemId resolvedAt := by
  obtain ⟨submission, found, isAccepted, facts⟩ := accepted
  rcases step with
    same | ⟨content, opened, kind, named, _, _⟩ | ⟨before, _, old, _, applies, _⟩ |
      ⟨_, before, _, _, _, old, _, applies, _⟩ | ⟨_, _, before, _, _, old, rejected, _⟩ |
      ⟨retires, _⟩
  · exact Or.inr ⟨submission, by rw [same]; exact found, isAccepted, facts⟩
  · exact absurd (by simp [JournalRow.submittedId?, kind, named]) unsubmitted
  · rw [found] at old
    cases old
    simp [journalDispatchRowApplies, isAccepted] at applies
  · rw [found] at old
    cases old
    simp [journalDispatchRowApplies, isAccepted] at applies
  · rw [found] at old
    cases old
    rw [isAccepted] at rejected
    cases rejected
  · exact Or.inl retires

theorem SubmissionStep.stays_rejected {next : JournalReducerState}
    (step : SubmissionStep env state next row clientMessageId)
    (refused : ∀ submission, state.submissions.get? clientMessageId = some submission →
      submission.dispatchState = .rejected)
    (unsubmitted : row.submittedId? ≠ some clientMessageId)
    (kept : ¬ ReopensRefusal state row) :
    ∀ submission, next.submissions.get? clientMessageId = some submission →
      submission.dispatchState = .rejected := by
  intro submission found
  rcases step with
    same | ⟨content, opened, kind, named, _, _⟩ | ⟨before, _, old, _, applies, _⟩ |
      ⟨_, before, _, _, _, old, _, applies, _⟩ |
      ⟨messageId, change, before, kind, named, old, rejected, inDoubt, stored⟩ | ⟨_, absent⟩
  · exact refused submission (same ▸ found)
  · exact absurd (by simp [JournalRow.submittedId?, kind, named]) unsubmitted
  · simp [journalDispatchRowApplies, refused before old] at applies
  · simp [journalDispatchRowApplies, refused before old] at applies
  · rw [stored] at found
    cases found
    -- only a withdrawn hand-off stays refused when its doubt is folded
    cases withdrawn : dispatchWasWithdrawn before && before.answeredInNoTurn with
    | true => simpa [handOffInDoubt, withdrawn] using rejected
    | false =>
      exact absurd ⟨messageId, change, clientMessageId, before, kind, named, old, rejected,
        inDoubt, withdrawn⟩ kept
  · rw [absent] at found
    cases found

end Rows

/-! ## Refused submissions stay unaddressed -/

/-- A claim adds an alias only to a stored submission that was not refused. -/
theorem claimJournalItem_aliases {state : JournalReducerState} (row : JournalRowBase)
    (content : JournalItemContent) {itemId target : String}
    (aliased : (claimJournalItem env state row content).1.aliases.get? itemId = some target) :
    state.aliases.get? itemId = some target ∨
      ∃ clientMessageId submission,
        state.submissions.get? clientMessageId = some submission ∧
        submission.dispatchState ≠ .rejected ∧
        target = agentJournalSubmissionKey submission.clientMessageId := by
  have sameAliases : (declareItemEcho state content.itemId content.echoOf).aliases =
      state.aliases := by simp
  have sameSubmissions : (declareItemEcho state content.itemId content.echoOf).submissions =
      state.submissions := by simp
  unfold claimJournalItem at aliased
  generalize declareItemEcho state content.itemId content.echoOf = start
    at aliased sameAliases sameSubmissions
  rw [← sameAliases, ← sameSubmissions]
  have resolvedAliases : (resolveJournalItemId env start content.itemId
      content.body).1.aliases.get? itemId = some target := by
    dsimp only at aliased
    split at aliased
    · exact aliased
    · simpa using aliased
  unfold resolveJournalItemId at resolvedAliases
  split at resolvedAliases
  · exact Or.inl resolvedAliases
  · split at resolvedAliases
    case h_1 => exact Or.inl resolvedAliases
    case h_2 claimed claim =>
      obtain ⟨_, _, clientMessageId, submission, found, unrefused, same⟩ :=
        journalEchoClaimant_spec env claim
      simp only [JsMap.get?_set] at resolvedAliases
      split at resolvedAliases
      · cases resolvedAliases
        exact Or.inr ⟨clientMessageId, submission, found, unrefused, same⟩
      · exact Or.inl resolvedAliases

namespace StaysRefused

variable {clientMessageIds : List String} {state next : JournalReducerState}
variable {clientMessageId : String}

theorem of_echoAccepts (refused : StaysRefused state clientMessageId)
    (accepts : EchoAccepts state next) (sameAliases : next.aliases = state.aliases) :
    StaysRefused next clientMessageId where
  refused := by
    intro submission found
    rcases accepts clientMessageId with same | ⟨before, _, old, _, applies, _, _⟩
    · exact refused.refused _ (same ▸ found)
    · simp [journalDispatchRowApplies, refused.refused before old] at applies
  unaddressed := by
    rw [sameAliases]
    exact refused.unaddressed

theorem claimJournalItem (refused : StaysRefused state clientMessageId)
    (settled : AliasesSettled clientMessageIds state) (member : clientMessageId ∈ clientMessageIds)
    (distinct : KeysDistinct clientMessageIds) (row : JournalRowBase)
    (content : JournalItemContent) :
    StaysRefused (claimJournalItem env state row content).1 clientMessageId where
  refused := by
    have accepts := claimJournalItem_echoAccepts env state row content
    intro submission found
    rcases accepts clientMessageId with same | ⟨before, _, old, _, applies, _, _⟩
    · exact refused.refused _ (same ▸ found)
    · simp [journalDispatchRowApplies, refused.refused before old] at applies
  unaddressed := by
    intro itemId aliased
    rcases claimJournalItem_aliases env row content aliased with
      old | ⟨claimant, submission, found, unrefused, same⟩
    · exact refused.unaddressed itemId old
    · rw [settled.linked.submissionKeys _ _ found] at same
      have sameId := distinct clientMessageId member claimant (settled.submitted _ _ found) same
      subst sameId
      exact unrefused (refused.refused _ found)

theorem applyJournalItemRow (refused : StaysRefused state clientMessageId)
    (settled : AliasesSettled clientMessageIds state) (member : clientMessageId ∈ clientMessageIds)
    (distinct : KeysDistinct clientMessageIds) (row : JournalRowBase) (savedAt : Int)
    (content : JournalItemContent) :
    StaysRefused (applyJournalItemRow env state row savedAt content) clientMessageId := by
  unfold Journal.applyJournalItemRow
  split
  · exact refused
  · exact (refused.claimJournalItem env settled member distinct row content).of_echoAccepts
      (.of_eq (by simp)) (by simp)

theorem applyJournalLifecycleMutation (refused : StaysRefused state clientMessageId)
    (settled : AliasesSettled clientMessageIds state) (member : clientMessageId ∈ clientMessageIds)
    (distinct : KeysDistinct clientMessageIds) (row : JournalRowBase) (savedAt : Int)
    (indexed : JournalLifecycleMutation × Nat) :
    StaysRefused (applyJournalLifecycleMutation env row savedAt state indexed)
      clientMessageId := by
  rcases indexed with ⟨⟨content, producer, turnScope, observedAt⟩ | ⟨itemId, revision⟩, index⟩
  · unfold Journal.applyJournalLifecycleMutation
    dsimp only
    split
    · exact refused
    · exact (refused.claimJournalItem env settled member distinct row content).of_echoAccepts
        (.of_eq (by simp)) (by simp)
  · exact refused.of_echoAccepts (.of_eq (by simp [Journal.applyJournalLifecycleMutation]))
      (by simp [Journal.applyJournalLifecycleMutation])

theorem applyJournalLifecycleBatch (refused : StaysRefused state clientMessageId)
    (settled : AliasesSettled clientMessageIds state) (member : clientMessageId ∈ clientMessageIds)
    (distinct : KeysDistinct clientMessageIds) (row : JournalRowBase) (savedAt : Int)
    (settlementId : String) (mutations : List JournalLifecycleMutation) :
    StaysRefused (applyJournalLifecycleBatch env state row savedAt settlementId mutations)
      clientMessageId := by
  unfold Journal.applyJournalLifecycleBatch
  split
  · exact refused
  · have folded : AliasesSettled clientMessageIds
          (mutations.zipIdx.foldl (Journal.applyJournalLifecycleMutation env row savedAt) state) ∧
        StaysRefused
          (mutations.zipIdx.foldl (Journal.applyJournalLifecycleMutation env row savedAt) state)
          clientMessageId := by
      have step : ∀ state (indexed : JournalLifecycleMutation × Nat),
          AliasesSettled clientMessageIds state ∧ StaysRefused state clientMessageId →
          AliasesSettled clientMessageIds
              (Journal.applyJournalLifecycleMutation env row savedAt state indexed) ∧
            StaysRefused (Journal.applyJournalLifecycleMutation env row savedAt state indexed)
              clientMessageId := by
        intro state indexed kept
        exact ⟨kept.1.applyJournalLifecycleMutation env distinct row savedAt indexed,
          kept.2.applyJournalLifecycleMutation env kept.1 member distinct row savedAt indexed⟩
      exact foldl_preserves ⟨settled, refused⟩ step _
    generalize mutations.zipIdx.foldl (Journal.applyJournalLifecycleMutation env row savedAt)
      state = finished at folded
    exact folded.2.of_echoAccepts (.of_eq rfl) rfl

/-- One row that does not state its card anew leaves a refused submission refused and
unaddressed. -/
theorem applyJournalRow (refused : StaysRefused state clientMessageId)
    (settled : AliasesSettled clientMessageIds state) (member : clientMessageId ∈ clientMessageIds)
    (distinct : KeysDistinct clientMessageIds) (row : JournalRow)
    (unsubmitted : row.submittedId? ≠ some clientMessageId)
    (kept : ¬ ReopensRefusal state row) :
    StaysRefused (applyJournalRow env state row) clientMessageId := by
  have steps := applyJournalRow_submissions env settled.linked row clientMessageId
  have rejected := steps.stays_rejected refused.refused unsubmitted kept
  rcases row with ⟨base, content⟩
  have noted : StaysRefused (noteJournalActivity state base) clientMessageId :=
    refused.of_echoAccepts (.of_eq rfl) rfl
  have notedSettled : AliasesSettled clientMessageIds (noteJournalActivity state base) :=
    settled.of_echoAccepts (.of_eq rfl) rfl rfl
  refine ⟨rejected, ?_⟩
  intro itemId aliased
  cases content with
  | epoch content => exact refused.unaddressed itemId aliased
  | item content =>
    have written := noted.applyJournalItemRow env notedSettled member distinct base base.ts content
    exact written.unaddressed itemId
      (by rw [← (spendReportedCommandCards_frame _).2.2]; exact aliased)
  | lifecycleBatch settlementId mutations =>
    have written := noted.applyJournalLifecycleBatch env notedSettled member distinct base
      base.ts settlementId mutations
    exact written.unaddressed itemId
      (by rw [← (spendReportedCommandCards_frame _).2.2]; exact aliased)
  | tombstone content =>
    exact refused.unaddressed itemId (applyJournalTombstoneRow_aliases env base content aliased)
  | submission content =>
    exact refused.unaddressed itemId (by rwa [applyJournalRow_submission_aliases] at aliased)
  | dispatch content =>
    rcases applyJournalRow_dispatch_aliases env base content aliased with
      old | ⟨submission, same, stored, accepted, before, found⟩
    · exact refused.unaddressed itemId old
    · have sameId := distinct clientMessageId member _ (settled.submitted _ _ found) same
      subst sameId
      rw [rejected _ stored] at accepted
      cases accepted
  | queue messageId change =>
    exact refused.unaddressed itemId
      (by rwa [applyJournalRow_queue_aliases env base messageId change] at aliased)

end StaysRefused

/-! ## Along a journal -/

section Journals

variable {env}
variable {sessionId epoch : String} {rows later : List JournalRow}

theorem submittedId_unrepeated {early late : List JournalRow} {row : JournalRow}
    (once : (submittedIds (early ++ row :: late)).Nodup) {clientMessageId : String}
    (member : clientMessageId ∈ submittedIds early) : row.submittedId? ≠ some clientMessageId := by
  intro again
  unfold submittedIds at once member
  rw [List.filterMap_append, List.nodup_append] at once
  exact once.2.2 clientMessageId member clientMessageId
    (List.mem_filterMap.mpr ⟨row, List.mem_cons_self, again⟩) rfl

theorem submittedIds_append : submittedIds (rows ++ later) =
    submittedIds rows ++ submittedIds later :=
  List.filterMap_append

theorem AcceptedAs.replayJournal {clientMessageId : String} {providerItemId : Option String}
    {resolvedAt : Option Int} (once : (submittedIds (rows ++ later)).Nodup)
    (member : clientMessageId ∈ submittedIds rows)
    (accepted : AcceptedAs (replayJournal env sessionId epoch rows) clientMessageId
      providerItemId resolvedAt) :
    (∃ row ∈ later, RetiresSubmission env row clientMessageId) ∨
      AcceptedAs (replayJournal env sessionId epoch (rows ++ later)) clientMessageId
        providerItemId resolvedAt := by
  induction later using List.reverseRecOn with
  | nil => exact Or.inr (by simpa using accepted)
  | append_singleton later row ih =>
    rw [← List.append_assoc] at once ⊢
    have earlier : (submittedIds (rows ++ later)).Nodup := by
      rw [submittedIds_append] at once
      exact (List.nodup_append.mp once).1
    rcases ih earlier with ⟨retiring, memberLater, retires⟩ | still
    · exact Or.inl ⟨retiring, List.mem_append_left _ memberLater, retires⟩
    · rw [replayJournal_snoc]
      have linked := JournalLinked.replayJournal env sessionId epoch (rows ++ later)
      have unsubmitted := submittedId_unrepeated once
        (by rw [submittedIds_append]; exact List.mem_append_left _ member)
      rcases still.step (applyJournalRow_submissions env linked row clientMessageId)
        unsubmitted with retires | kept
      · exact Or.inl ⟨row, by simp, retires⟩
      · exact Or.inr kept

theorem StaysRefused.replayJournal {clientMessageId : String}
    (once : (submittedIds (rows ++ later)).Nodup)
    (distinct : KeysDistinct (submittedIds (rows ++ later)))
    (keeps : KeepsRefusals env sessionId epoch (rows ++ later))
    (member : clientMessageId ∈ submittedIds rows)
    (refused : StaysRefused (replayJournal env sessionId epoch rows) clientMessageId) :
    StaysRefused (replayJournal env sessionId epoch (rows ++ later)) clientMessageId := by
  induction later using List.reverseRecOn with
  | nil => simpa using refused
  | append_singleton later row ih =>
    rw [← List.append_assoc] at once distinct keeps ⊢
    have unsubmitted := submittedId_unrepeated once
      (by rw [submittedIds_append]; exact List.mem_append_left _ member)
    have kept : ¬ ReopensRefusal (Journal.replayJournal env sessionId epoch (rows ++ later))
        row := keeps (rows ++ later) row [] rfl
    rw [submittedIds_append] at once distinct
    have earlier := (List.nodup_append.mp once).1
    have still := ih earlier distinct.of_append keeps.of_append
    rw [replayJournal_snoc]
    refine still.applyJournalRow env (replayJournal_aliasesSettled env sessionId epoch _ earlier
      distinct.of_append) ?_ distinct.of_append row unsubmitted kept
    rw [submittedIds_append]
    exact List.mem_append_left _ member

end Journals

/-- A message handed off without a card, and refused with its delivery in doubt. -/
def refusedHandOff : List JournalRow :=
  [plainRow 1 (plainSubmission "send" (some "card")),
   plainRow 2 (plainDispatch "send" .rejected none (some dispatchRejectedNotDelivered)
     .undefined)]

/-- The card is stated anew as handed off, and a late answer accepts the dispatch. -/
def reopenedHandOff : List JournalRow :=
  [plainRow 3 (plainQueued "card" (some "send")),
   plainRow 4 (plainDispatch "send" .accepted (some "reply") none .undefined)]

theorem KeepsRefusals.of_no_queue_row {env : JournalEnvironment} {sessionId epoch : String}
    {rows : List JournalRow}
    (none : ∀ row ∈ rows, ∀ messageId change, row.content ≠ .queue messageId change) :
    KeepsRefusals env sessionId epoch rows := by
  rintro early row late split ⟨messageId, change, _, _, kind, _⟩
  refine none row ?_ messageId _ kind
  rw [split]
  exact List.mem_append_right _ List.mem_cons_self

end OxeeUI.Journal
