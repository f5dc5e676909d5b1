import Mathlib.Data.List.Induction
import OxeeUI.Journal.SubmissionSteps

/-!
# Aliases of provider items

A provider's echo of a submission is stored under the submission's own key.  Along a
journal that submits every client message id once, an alias leads to an accepted
submission, or to one a rewind retired.
-/

namespace OxeeUI.Journal

open OxeeUI.Library

variable (env : JournalEnvironment)

/-! ## Echo claims -/

theorem mem_insertBySubmittedAt {submission candidate : AgentJournalSubmission}
    {sorted : List AgentJournalSubmission}
    (member : candidate ∈ insertBySubmittedAt submission sorted) :
    candidate = submission ∨ candidate ∈ sorted := by
  induction sorted with
  | nil => simpa [insertBySubmittedAt] using member
  | cons first rest ih =>
    unfold insertBySubmittedAt at member
    split at member
    · simpa using member
    · rcases List.mem_cons.mp member with rfl | later
      · exact Or.inr List.mem_cons_self
      · rcases ih later with same | old
        · exact Or.inl same
        · exact Or.inr (List.mem_cons_of_mem _ old)

theorem mem_sortBySubmittedAt {candidate : AgentJournalSubmission}
    {submissions : List AgentJournalSubmission}
    (member : candidate ∈ sortBySubmittedAt submissions) : candidate ∈ submissions := by
  have each : ∀ (rest sorted : List AgentJournalSubmission),
      candidate ∈ rest.foldl (fun sorted submission => insertBySubmittedAt submission sorted)
        sorted → candidate ∈ sorted ∨ candidate ∈ rest := by
    intro rest
    induction rest with
    | nil => exact fun sorted member => Or.inl member
    | cons first rest ih =>
      intro sorted member
      rcases ih _ member with inserted | later
      · rcases mem_insertBySubmittedAt inserted with rfl | old
        · exact Or.inr List.mem_cons_self
        · exact Or.inl old
      · exact Or.inr (List.mem_cons_of_mem _ later)
  rcases each submissions [] member with absent | present
  · cases absent
  · exact present

theorem journalEchoClaimant_spec {state : JournalReducerState} {itemId claimed : String}
    {body : AgentJournalItemBody} (found : journalEchoClaimant env state itemId body = some claimed) :
    state.itemEchoes.has itemId = false ∧ isProviderUserMessageEcho env itemId body = true ∧
      ∃ clientMessageId submission,
        state.submissions.get? clientMessageId = some submission ∧
        submission.dispatchState ≠ .rejected ∧
        claimed = agentJournalSubmissionKey submission.clientMessageId := by
  unfold journalEchoClaimant at found
  split at found
  case isTrue => cases found
  case isFalse eligible =>
    simp only [Bool.or_eq_true, Bool.not_eq_true', not_or, Bool.not_eq_true,
      Bool.not_eq_false] at eligible
    obtain ⟨submission, first, rfl⟩ := Option.map_eq_some_iff.mp found
    have stored := mem_sortBySubmittedAt (List.mem_of_find?_eq_some first)
    rcases JsMap.mem_values_iff.mp stored with ⟨clientMessageId, present⟩
    have claims := List.find?_some first
    simp only [mayClaimEcho, Bool.and_eq_true, decide_eq_true_eq] at claims
    exact ⟨eligible.1, eligible.2, clientMessageId, submission, present,
      by simpa using claims.1.1.1.2, rfl⟩

theorem isProviderUserMessageEcho_ne_key {itemId : String} {body : AgentJournalItemBody}
    (echo : isProviderUserMessageEcho env itemId body = true) (clientMessageId : String) :
    itemId ≠ agentJournalSubmissionKey clientMessageId := by
  rintro rfl
  unfold isProviderUserMessageEcho at echo
  rw [Bool.and_eq_true] at echo
  cases parsed : parseAgentJournalItemKey env.ordinalOf
      (agentJournalSubmissionKey clientMessageId) with
  | none => simp [parsed] at echo
  | some identity =>
    have own := parse_agentJournalSubmissionKey_isOrca parsed
    simp [parsed, own] at echo

theorem acceptSubmissionFromProviderItem_accepts {state : JournalReducerState}
    {providerItemId target clientMessageId : String} {submission : AgentJournalSubmission}
    (row : JournalRowBase) (apart : providerItemId ≠ target)
    (addressed : submissionForItem state target = some (clientMessageId, submission))
    (unrefused : submission.dispatchState ≠ .rejected)
    (found : state.submissions.get? clientMessageId = some submission) :
    ∃ after,
      (acceptSubmissionFromProviderItem state providerItemId target row).submissions.get?
        clientMessageId = some after ∧ after.dispatchState = .accepted := by
  unfold acceptSubmissionFromProviderItem
  rw [if_neg apart, addressed]
  dsimp only
  by_cases applies : journalDispatchRowApplies submission = true
  · rw [if_pos applies]
    exact ⟨_, JsMap.get?_set_self .., rfl⟩
  · rw [if_neg applies]
    refine ⟨submission, found, ?_⟩
    simpa [journalDispatchRowApplies, unrefused] using applies

/-- Client message ids whose submissions cannot be confused with each other. -/
def KeysDistinct (clientMessageIds : List String) : Prop :=
  ∀ first ∈ clientMessageIds, ∀ second ∈ clientMessageIds,
    agentJournalSubmissionKey first = agentJournalSubmissionKey second → first = second

/-- Aliases lead to submissions that were submitted, and to none that still waits for an
answer or was refused. -/
structure AliasesSettled (clientMessageIds : List String) (state : JournalReducerState) : Prop where
  linked : JournalLinked state
  submitted : ∀ clientMessageId submission,
    state.submissions.get? clientMessageId = some submission → clientMessageId ∈ clientMessageIds
  targets : ∀ itemId target, state.aliases.get? itemId = some target →
    ∃ clientMessageId ∈ clientMessageIds, target = agentJournalSubmissionKey clientMessageId
  accepted : ∀ itemId clientMessageId submission,
    state.aliases.get? itemId = some (agentJournalSubmissionKey clientMessageId) →
      state.submissions.get? clientMessageId = some submission →
      submission.dispatchState = .accepted

namespace AliasesSettled

variable {clientMessageIds : List String} {state next : JournalReducerState}

theorem initial (sessionId epoch : String) :
    AliasesSettled [] (createJournalReducerState sessionId epoch) where
  linked := .initial sessionId epoch
  submitted := by
    intro clientMessageId submission found
    simp [createJournalReducerState] at found
  targets := by
    intro itemId target found
    simp [createJournalReducerState] at found
  accepted := by
    intro itemId clientMessageId submission found
    simp [createJournalReducerState] at found

theorem of_echoAccepts (settled : AliasesSettled clientMessageIds state)
    (accepts : EchoAccepts state next) (sameAliases : next.aliases = state.aliases)
    (sameQueue : next.queue = state.queue) : AliasesSettled clientMessageIds next where
  linked := settled.linked.of_echoAccepts accepts sameQueue
  submitted := by
    intro clientMessageId submission found
    rcases accepts clientMessageId with same | ⟨before, _, old, _⟩
    · exact settled.submitted _ _ (same ▸ found)
    · exact settled.submitted _ _ old
  targets := by
    rw [sameAliases]
    exact settled.targets
  accepted := by
    intro itemId clientMessageId submission aliased found
    rw [sameAliases] at aliased
    rcases accepts clientMessageId with same | ⟨before, after, _, stored, _, accepted, _⟩
    · exact settled.accepted _ _ _ aliased (same ▸ found)
    · rw [stored] at found
      cases found
      exact accepted

theorem submissionForItem_eq (settled : AliasesSettled clientMessageIds state)
    (distinct : KeysDistinct clientMessageIds) {clientMessageId : String}
    {submission : AgentJournalSubmission}
    (found : state.submissions.get? clientMessageId = some submission) :
    submissionForItem state (agentJournalSubmissionKey submission.clientMessageId) =
      some (clientMessageId, submission) := by
  cases first : submissionForItem state
      (agentJournalSubmissionKey submission.clientMessageId) with
  | none =>
    have absent := List.find?_eq_none.mp first (clientMessageId, submission)
      (JsMap.get?_eq_some_iff.mp found)
    simp at absent
  | some entry =>
    rcases entry with ⟨key, other⟩
    have spec := submissionForItem_mem first
    have sameKey := spec.2
    rw [settled.linked.submissionKeys _ _ spec.1,
      settled.linked.submissionKeys _ _ found] at sameKey
    have same := distinct key (settled.submitted _ _ spec.1) clientMessageId
      (settled.submitted _ _ found) sameKey
    subst same
    rw [found] at spec
    cases spec.1
    rfl

theorem claimJournalItem (settled : AliasesSettled clientMessageIds state)
    (distinct : KeysDistinct clientMessageIds) (row : JournalRowBase)
    (content : JournalItemContent) :
    AliasesSettled clientMessageIds (claimJournalItem env state row content).1 := by
  have declared : AliasesSettled clientMessageIds
      (declareItemEcho state content.itemId content.echoOf) :=
    settled.of_echoAccepts (.of_eq (by simp)) (by simp) (by simp)
  unfold Journal.claimJournalItem
  generalize declareItemEcho state content.itemId content.echoOf = start at declared
  dsimp only
  cases aliased : nonempty? (start.aliases.get? content.itemId) with
  | some target =>
    have resolved : resolveJournalItemId env start content.itemId content.body =
        (start, target) := by
      simp [resolveJournalItemId, aliased]
    rw [resolved]
    dsimp only
    split
    · exact declared
    · exact declared.of_echoAccepts
        (acceptSubmissionFromProviderItem_echoAccepts start _ _ row) (by simp) (by simp)
  | none =>
    cases claim : journalEchoClaimant env start content.itemId content.body with
    | none =>
      have resolved : resolveJournalItemId env start content.itemId content.body =
          (start, content.itemId) := by
        simp [resolveJournalItemId, aliased, claim]
      rw [resolved]
      dsimp only
      split
      · exact declared
      · exact declared.of_echoAccepts
          (acceptSubmissionFromProviderItem_echoAccepts start _ _ row) (by simp) (by simp)
    | some claimed =>
      have resolved : resolveJournalItemId env start content.itemId content.body =
          ({ start with aliases := start.aliases.set content.itemId claimed }, claimed) := by
        simp [resolveJournalItemId, aliased, claim]
      rw [resolved]
      obtain ⟨undeclared, echo, clientMessageId, submission, found, open', rfl⟩ :=
        journalEchoClaimant_spec env claim
      have named := declared.linked.submissionKeys _ _ found
      dsimp only
      rw [undeclared, if_neg Bool.false_ne_true]
      have apart := isProviderUserMessageEcho_ne_key env echo submission.clientMessageId
      have same := declared.submissionForItem_eq distinct found
      generalize keyed : agentJournalSubmissionKey submission.clientMessageId = target
        at apart same ⊢
      -- the state between the alias and the acceptance
      generalize claiming : { start with
        aliases := start.aliases.set content.itemId target } = middle
      have parts : middle.submissions = start.submissions ∧ middle.queue = start.queue ∧
          middle.aliases = start.aliases.set content.itemId target := by
        subst claiming
        exact ⟨rfl, rfl, rfl⟩
      have addressed : submissionForItem middle target =
          some (clientMessageId, submission) := by
        unfold submissionForItem at same ⊢
        rw [parts.1]
        exact same
      have accepts : EchoAccepts start
          (acceptSubmissionFromProviderItem middle content.itemId target row) :=
        (EchoAccepts.of_eq parts.1).trans
          (acceptSubmissionFromProviderItem_echoAccepts middle _ _ row)
      have frame := acceptSubmissionFromProviderItem_frame middle content.itemId target row
      have ends := acceptSubmissionFromProviderItem_accepts row apart addressed open'
        (by rw [parts.1]; exact found)
      rw [parts.2.1, parts.2.2] at frame
      generalize acceptSubmissionFromProviderItem middle content.itemId target row = result
        at accepts frame ends
      have submitted : ∀ other stored,
          result.submissions.get? other = some stored → other ∈ clientMessageIds := by
        intro other stored present
        rcases accepts other with old | ⟨before, _, old, _⟩
        · exact declared.submitted _ _ (old ▸ present)
        · exact declared.submitted _ _ old
      refine ⟨declared.linked.of_echoAccepts accepts frame.2.2, submitted, ?_, ?_⟩
      · intro itemId other aliasedTo
        rw [frame.2.1, JsMap.get?_set] at aliasedTo
        split at aliasedTo
        · cases aliasedTo
          exact ⟨clientMessageId, declared.submitted _ _ found, by rw [← keyed, named]⟩
        · exact declared.targets _ _ aliasedTo
      · intro itemId other stored aliasedTo present
        rw [frame.2.1, JsMap.get?_set] at aliasedTo
        split at aliasedTo
        · rw [Option.some.injEq, ← keyed, named] at aliasedTo
          have sameId := distinct _ (declared.submitted _ _ found) _
            (submitted _ _ present) aliasedTo
          subst sameId
          rcases ends with ⟨after, storedAfter, accepted⟩
          rw [storedAfter] at present
          cases present
          exact accepted
        · rcases accepts other with old | ⟨before, after, old, storedAfter, _, accepted, _⟩
          · exact declared.accepted _ _ _ aliasedTo (old ▸ present)
          · rw [storedAfter] at present
            cases present
            exact accepted

end AliasesSettled

/-! ## Aliases along a run -/

def JournalRow.submittedId? (row : JournalRow) : Option String :=
  match row.content with
  | .submission content => some content.clientMessageId
  | _ => none

/-- The client message ids a journal submits, in order. -/
def submittedIds (rows : List JournalRow) : List String :=
  rows.filterMap JournalRow.submittedId?

@[simp]
theorem settleDispatchedCard_aliases (state : JournalReducerState) (clientMessageId : String) :
    (settleDispatchedCard state clientMessageId).aliases = state.aliases := by
  unfold settleDispatchedCard
  split
  · rfl
  · split
    · rfl
    · dsimp only
      split <;> simp

/-- A dispatch row adds an alias only to the submission it accepts. -/
theorem applyJournalRow_dispatch_aliases {state : JournalReducerState} (base : JournalRowBase)
    (content : JournalDispatchContent) {itemId target : String}
    (aliased : (applyJournalRow env state ⟨base, .dispatch content⟩).aliases.get? itemId =
      some target) :
    state.aliases.get? itemId = some target ∨
      ∃ submission, target = agentJournalSubmissionKey content.clientMessageId ∧
        (applyJournalRow env state ⟨base, .dispatch content⟩).submissions.get?
          content.clientMessageId = some submission ∧
        submission.dispatchState = .accepted ∧
        ∃ before, state.submissions.get? content.clientMessageId = some before := by
  have unfolded : applyJournalRow env state ⟨base, .dispatch content⟩ =
      settleDispatchedCard
        (applyJournalDispatchRow env (noteJournalActivity state base) base content)
        content.clientMessageId := rfl
  rw [unfolded] at aliased ⊢
  rw [settleDispatchedCard_aliases] at aliased
  cases found : (noteJournalActivity state base).submissions.get? content.clientMessageId with
  | none =>
    simp only [applyJournalDispatchRow, found] at aliased
    exact Or.inl aliased
  | some submission =>
    by_cases applies : journalDispatchRowApplies submission = true
    · have written := applyJournalDispatchRow_of_applies env base found applies
      simp only [applyJournalDispatchRow, found, applies, if_true] at aliased
      unfold settleDispatchedMessage at aliased
      cases settles : content.state with
      | pending => exact Or.inl (by simpa [settles] using aliased)
      | rejected => exact Or.inl (by simpa [settles] using aliased)
      | unknown => exact Or.inl (by simpa [settles] using aliased)
      | accepted =>
        have stored : (applyJournalDispatchRow env (noteJournalActivity state base) base
            content).submissions.get? content.clientMessageId =
            some (dispatchedSubmission env submission base content) := by
          rw [written.1, JsMap.get?_set_self]
        have accepted : (dispatchedSubmission env submission base content).dispatchState =
            .accepted := settles
        have unmoved : settleDispatchedCard
            (applyJournalDispatchRow env (noteJournalActivity state base) base content)
            content.clientMessageId =
            applyJournalDispatchRow env (noteJournalActivity state base) base content := by
          rcases settleDispatchedCard_cases stored with
            ⟨same, _⟩ | ⟨_, _, _, rejected, _⟩ | ⟨_, _, rejected, _⟩
          · exact same
          · rw [accepted] at rejected
            cases rejected
          · rw [accepted] at rejected
            cases rejected
        simp only [settles] at aliased
        split at aliased
        · exact Or.inl aliased
        · simp only [JsMap.get?_set] at aliased
          split at aliased
          · cases aliased
            refine Or.inr ⟨_, rfl, ?_, accepted, submission, found⟩
            rw [unmoved, stored]
          · exact Or.inl aliased
    · simp only [applyJournalDispatchRow, found, applies] at aliased
      exact Or.inl aliased

theorem applyJournalTombstoneRow_aliases {state : JournalReducerState} (base : JournalRowBase)
    (content : JournalTombstoneContent) {itemId target : String}
    (aliased : (applyJournalRow env state ⟨base, .tombstone content⟩).aliases.get? itemId =
      some target) : state.aliases.get? itemId = some target := by
  have unfolded : applyJournalRow env state ⟨base, .tombstone content⟩ =
      applyJournalTombstoneRow env (noteJournalActivity state base) base content := rfl
  rw [unfolded] at aliased
  unfold applyJournalTombstoneRow at aliased
  split at aliased
  · exact aliased
  · dsimp only at aliased
    split at aliased
    · unfold retireRewoundJournalSubmission at aliased
      split at aliased
      · simp only [JsMap.get?_filter, removeJournalItem_frame] at aliased
        exact (Option.filter_eq_some_iff.mp aliased).1
      · simpa using aliased
    · simpa using aliased

theorem applyJournalRow_queue_aliases {state : JournalReducerState} (base : JournalRowBase)
    (messageId : String) (change : JournalQueueChange) :
    (applyJournalRow env state ⟨base, .queue messageId change⟩).aliases = state.aliases := by
  have unfolded : applyJournalRow env state ⟨base, .queue messageId change⟩ =
      applyQueueRow env (noteJournalRow state base) messageId change := rfl
  rw [unfolded]
  cases change with
  | queued queued =>
    simp only [applyQueueRow, applyQueuedChange]
    split <;> simp [noteJournalRow]
  | _ =>
    rw [(applyQueueRow_of_edit env (noteJournalRow state base) messageId (by simp)).2.2]
    rfl

theorem applyJournalRow_submission_aliases {state : JournalReducerState} (base : JournalRowBase)
    (content : JournalSubmissionContent) :
    (applyJournalRow env state ⟨base, .submission content⟩).aliases = state.aliases := by
  show (spendCardOnSubmission (applyJournalSubmission env (noteJournalActivity state base)
    base content) content).aliases = _
  rw [(spendCardOnSubmission_frame _ content).2.2]
  simp [applyJournalSubmission]

namespace AliasesSettled

variable {clientMessageIds : List String} {state next : JournalReducerState}

theorem of_cardsWithdrawn (settled : AliasesSettled clientMessageIds state)
    (linked : JournalLinked (spendReportedCommandCards state)) :
    AliasesSettled clientMessageIds (spendReportedCommandCards state) where
  linked := linked
  submitted := by
    rw [(spendReportedCommandCards_frame state).2.1]
    exact settled.submitted
  targets := by
    rw [(spendReportedCommandCards_frame state).2.2]
    exact settled.targets
  accepted := by
    rw [(spendReportedCommandCards_frame state).2.1, (spendReportedCommandCards_frame state).2.2]
    exact settled.accepted

/-- A step of the submissions whose new aliases lead to accepted ones. -/
theorem of_steps (settled : AliasesSettled clientMessageIds state) {row : JournalRow}
    (steps : ∀ clientMessageId, SubmissionStep env state next row clientMessageId)
    (linked : JournalLinked next)
    (aliases : ∀ itemId target, next.aliases.get? itemId = some target →
      state.aliases.get? itemId = some target ∨
        ∃ clientMessageId ∈ clientMessageIds, ∃ submission,
          target = agentJournalSubmissionKey clientMessageId ∧
          next.submissions.get? clientMessageId = some submission ∧
          submission.dispatchState = .accepted)
    (distinct : KeysDistinct (clientMessageIds ++ row.submittedId?.toList))
    (fresh : ∀ clientMessageId, row.submittedId? = some clientMessageId →
      clientMessageId ∉ clientMessageIds) :
    AliasesSettled (clientMessageIds ++ row.submittedId?.toList) next := by
  have submitted : ∀ clientMessageId submission,
      next.submissions.get? clientMessageId = some submission →
        clientMessageId ∈ clientMessageIds ++ row.submittedId?.toList := by
    intro clientMessageId submission found
    rcases steps clientMessageId with
      same | ⟨content, opened, kind, named, _, _⟩ | ⟨before, _, old, _⟩ |
        ⟨_, before, _, _, _, old, _⟩ | ⟨_, _, before, _, _, old, _⟩ | ⟨_, absent⟩
    · exact List.mem_append_left _ (settled.submitted _ _ (same ▸ found))
    · refine List.mem_append_right _ ?_
      simp [JournalRow.submittedId?, kind, named]
    · exact List.mem_append_left _ (settled.submitted _ _ old)
    · exact List.mem_append_left _ (settled.submitted _ _ old)
    · exact List.mem_append_left _ (settled.submitted _ _ old)
    · rw [absent] at found
      cases found
  refine ⟨linked, submitted, ?_, ?_⟩
  · intro itemId target aliased
    rcases aliases itemId target aliased with old | ⟨clientMessageId, member, _, same, _, _⟩
    · rcases settled.targets _ _ old with ⟨clientMessageId, member, same⟩
      exact ⟨clientMessageId, List.mem_append_left _ member, same⟩
    · exact ⟨clientMessageId, List.mem_append_left _ member, same⟩
  · intro itemId clientMessageId submission aliased found
    rcases aliases _ _ aliased with old | ⟨accepted, member, after, same, stored, ends⟩
    · have settledBefore := settled.accepted itemId clientMessageId
      rcases steps clientMessageId with
        same | ⟨content, opened, kind, named, stored, _⟩ | ⟨before, after, _, stored, _, ends⟩ |
          ⟨_, before, after, _, _, present, _, applies, _⟩ |
          ⟨_, _, before, _, _, present, rejected, _, _⟩ | ⟨_, absent⟩
      · exact settledBefore _ old (same ▸ found)
      · -- the id a row submits is new, so no alias leads to it
        have own : row.submittedId? = some clientMessageId := by
          simp [JournalRow.submittedId?, kind, named]
        rcases settled.targets _ _ old with ⟨earlier, member, sameKey⟩
        have sameId := distinct clientMessageId
          (List.mem_append_right _ (by simp [own])) earlier
          (List.mem_append_left _ member) sameKey
        subst sameId
        exact absurd member (fresh _ own)
      · rw [stored] at found
        cases found
        exact ends
      · have accepted := settledBefore _ old present
        simp [journalDispatchRowApplies, accepted] at applies
      · have accepted := settledBefore _ old present
        rw [accepted] at rejected
        cases rejected
      · rw [absent] at found
        cases found
    · have sameId := distinct clientMessageId (submitted _ _ found) accepted
        (List.mem_append_left _ member) same
      subst sameId
      rw [stored] at found
      cases found
      exact ends

theorem applyJournalItemRow (settled : AliasesSettled clientMessageIds state)
    (distinct : KeysDistinct clientMessageIds) (row : JournalRowBase) (savedAt : Int)
    (content : JournalItemContent) :
    AliasesSettled clientMessageIds (applyJournalItemRow env state row savedAt content) := by
  unfold Journal.applyJournalItemRow
  split
  · exact settled
  · exact (settled.claimJournalItem env distinct row content).of_echoAccepts
      (.of_eq (by simp)) (by simp) (by simp)

theorem applyJournalLifecycleMutation (settled : AliasesSettled clientMessageIds state)
    (distinct : KeysDistinct clientMessageIds) (row : JournalRowBase) (savedAt : Int)
    (indexed : JournalLifecycleMutation × Nat) :
    AliasesSettled clientMessageIds
      (applyJournalLifecycleMutation env row savedAt state indexed) := by
  rcases indexed with ⟨⟨content, producer, turnScope, observedAt⟩ | ⟨itemId, revision⟩, index⟩
  · unfold Journal.applyJournalLifecycleMutation
    dsimp only
    split
    · exact settled
    · exact (settled.claimJournalItem env distinct row content).of_echoAccepts
        (.of_eq (by simp)) (by simp) (by simp)
  · exact settled.of_echoAccepts (.of_eq (by simp [Journal.applyJournalLifecycleMutation]))
      (by simp [Journal.applyJournalLifecycleMutation])
      (by simp [Journal.applyJournalLifecycleMutation])

theorem applyJournalLifecycleBatch (settled : AliasesSettled clientMessageIds state)
    (distinct : KeysDistinct clientMessageIds) (row : JournalRowBase) (savedAt : Int)
    (settlementId : String) (mutations : List JournalLifecycleMutation) :
    AliasesSettled clientMessageIds
      (applyJournalLifecycleBatch env state row savedAt settlementId mutations) := by
  unfold Journal.applyJournalLifecycleBatch
  split
  · exact settled
  · have folded : AliasesSettled clientMessageIds
        (mutations.zipIdx.foldl (Journal.applyJournalLifecycleMutation env row savedAt) state) :=
      foldl_preserves settled
        (fun _ indexed kept => kept.applyJournalLifecycleMutation env distinct row savedAt indexed)
        _
    generalize mutations.zipIdx.foldl (Journal.applyJournalLifecycleMutation env row savedAt)
      state = finished at folded
    exact folded.of_echoAccepts (.of_eq rfl) rfl rfl

/-- One row keeps the aliases settled, when what it submits is new and not confusable. -/
theorem applyJournalRow (settled : AliasesSettled clientMessageIds state) (row : JournalRow)
    (distinct : KeysDistinct (clientMessageIds ++ row.submittedId?.toList))
    (fresh : ∀ clientMessageId, row.submittedId? = some clientMessageId →
      clientMessageId ∉ clientMessageIds) :
    AliasesSettled (clientMessageIds ++ row.submittedId?.toList)
      (applyJournalRow env state row) := by
  have steps := applyJournalRow_submissions env settled.linked row
  have linked := settled.linked.applyJournalRow env row
  rcases row with ⟨base, content⟩
  have noted : AliasesSettled clientMessageIds (noteJournalActivity state base) :=
    settled.of_echoAccepts (.of_eq rfl) rfl rfl
  cases content with
  | epoch content => exact settled.of_steps env steps linked (fun _ _ old => Or.inl old) distinct fresh
  | item content =>
    simp only [JournalRow.submittedId?, Option.toList_none, List.append_nil] at distinct ⊢
    exact (noted.applyJournalItemRow env distinct base base.ts content).of_cardsWithdrawn linked
  | lifecycleBatch settlementId mutations =>
    simp only [JournalRow.submittedId?, Option.toList_none, List.append_nil] at distinct ⊢
    exact (noted.applyJournalLifecycleBatch env distinct base base.ts settlementId
      mutations).of_cardsWithdrawn linked
  | tombstone content =>
    refine settled.of_steps env steps linked (fun itemId target aliased => Or.inl ?_)
      distinct fresh
    exact applyJournalTombstoneRow_aliases env base content aliased
  | submission content =>
    refine settled.of_steps env steps linked (fun itemId target aliased => Or.inl ?_)
      distinct fresh
    rwa [applyJournalRow_submission_aliases] at aliased
  | dispatch content =>
    refine settled.of_steps env steps linked (fun itemId target aliased => ?_) distinct fresh
    rcases applyJournalRow_dispatch_aliases env base content aliased with
      old | ⟨submission, same, stored, accepted, before, found⟩
    · exact Or.inl old
    · exact Or.inr ⟨content.clientMessageId, settled.submitted _ _ found, submission, same,
        stored, accepted⟩
  | queue messageId change =>
    refine settled.of_steps env steps linked (fun itemId target aliased => Or.inl ?_)
      distinct fresh
    rwa [applyJournalRow_queue_aliases env base messageId change] at aliased

end AliasesSettled

/-! ## Whole journals -/

theorem submittedIds_snoc (rows : List JournalRow) (row : JournalRow) :
    submittedIds (rows ++ [row]) = submittedIds rows ++ row.submittedId?.toList := by
  unfold submittedIds
  rw [List.filterMap_append]
  cases found : row.submittedId? <;> simp [found]

theorem KeysDistinct.of_append {early late : List String}
    (distinct : KeysDistinct (early ++ late)) : KeysDistinct early :=
  fun first firstMember second secondMember =>
    distinct first (List.mem_append_left _ firstMember) second
      (List.mem_append_left _ secondMember)

theorem replayJournal_aliasesSettled (sessionId epoch : String) (rows : List JournalRow)
    (once : (submittedIds rows).Nodup) (distinct : KeysDistinct (submittedIds rows)) :
    AliasesSettled (submittedIds rows) (replayJournal env sessionId epoch rows) := by
  induction rows using List.reverseRecOn with
  | nil => exact .initial sessionId epoch
  | append_singleton rows row ih =>
    rw [submittedIds_snoc] at once distinct ⊢
    rw [replayJournal_snoc]
    rcases List.nodup_append.mp once with ⟨earlier, _, apart⟩
    refine (ih earlier distinct.of_append).applyJournalRow env row distinct ?_
    intro clientMessageId submitted member
    exact apart clientMessageId member clientMessageId (by simp [submitted]) rfl

end OxeeUI.Journal
