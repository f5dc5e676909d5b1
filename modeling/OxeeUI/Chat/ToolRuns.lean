import OxeeUI.Chat.ToolPairing
import OxeeUI.Chat.ToolFold

/-!
# Tool runs

What a fold should yield: every message opens a run of its own or joins the run
of the assistant before it.  The results of a run that no call answers leave it
without changing any pair.
-/

namespace OxeeUI.Chat

open OxeeUI.Library

universe u

variable {Body : Type u}

section Runs

/-- The blocks of one run, under the message that opens it.  A marked run was
folded before and is kept as it is. -/
structure ToolRun (Body : Type u) where
  id : Text
  marked : Bool
  blocks : List (NativeChatBlock Body)

/-- The blocks that join the run that is open, and the runs that messages open. -/
def gatherRuns (toLowerCase : Text → Text) (isOpen : Bool) :
    List (NativeChatMessage Body) → List (NativeChatBlock Body) × List (ToolRun Body)
  | [] => ([], [])
  | message :: rest =>
    if message.unpairedToolResults then
      let later := gatherRuns toLowerCase false rest
      ([], ⟨message.id, true, message.blocks⟩ :: later.2)
    else if isOpen && isHarnessSidecarToolMessage toLowerCase message then
      let later := gatherRuns toLowerCase true rest
      (message.blocks.filter NativeChatBlock.isToolResult ++ later.1,
        ⟨message.id, false, message.blocks.filter fun block => !block.isToolResult⟩ :: later.2)
    else if isOpen && isToolOnlyMessage message then
      let later := gatherRuns toLowerCase true rest
      (message.blocks ++ later.1, later.2)
    else if message.role = .assistant then
      let later := gatherRuns toLowerCase true rest
      ([], ⟨message.id, false, message.blocks ++ later.1⟩ :: later.2)
    else
      let later := gatherRuns toLowerCase (isOpen && !endsToolRun toLowerCase message) rest
      (later.1, ⟨message.id, false, message.blocks⟩ :: later.2)

def toolRuns (toLowerCase : Text → Text) (messages : List (NativeChatMessage Body)) :
    List (ToolRun Body) := (gatherRuns toLowerCase false messages).2

def unansweredResults (blocks : List (NativeChatBlock Body)) :
    List (NativeChatToolResultBlock Body) :=
  (plainPairs blocks).filterMap fun pair => if pair.call.isNone then pair.result else none

/-- The blocks a fold drops: the unnamed results that no call of their run answers. -/
def ToolRun.dropped (run : ToolRun Body) : List (NativeChatBlock Body) :=
  if run.marked then []
  else ((unansweredResults run.blocks).filter fun result => result.callId.isNone).map .toolResult

end Runs

section Flags

def pick (keep : Bool → Bool) : List (NativeChatBlock Body) → List Bool → List (NativeChatBlock Body)
  | block :: blocks, flag :: flags =>
    if keep flag then block :: pick keep blocks flags else pick keep blocks flags
  | _, _ => []

theorem length_aloneFlags (pairs : List (NativeChatToolPair Body))
    (blocks : List (NativeChatBlock Body)) : (aloneFlags pairs blocks).length = blocks.length := by
  induction blocks generalizing pairs with
  | nil => rfl
  | cons block blocks ih => exact congrArg Nat.succ (ih _)

theorem contains_flaggedFrom (index offset : ℕ) (flags : List Bool) :
    (flaggedFrom index flags).contains (index + offset) = flags.getD offset false := by
  rw [Bool.eq_iff_iff, List.contains_iff_mem]
  induction flags generalizing index offset with
  | nil => simp [flaggedFrom]
  | cons flag flags ih =>
    have above : ∀ (index : ℕ) (flags : List Bool), ∀ found ∈ flaggedFrom index flags,
        index ≤ found := by
      intro index flags
      induction flags generalizing index with
      | nil => exact fun found member => by cases member
      | cons flag flags ih =>
        intro found member
        rcases List.mem_append.mp member with here | later
        · cases flag with
          | true => exact le_of_eq (List.mem_singleton.mp here).symm
          | false => cases here
        · exact Nat.le_of_succ_le (ih (index + 1) found later)
    unfold flaggedFrom
    rw [List.mem_append]
    cases offset with
    | zero =>
      have notLater : index + 0 ∉ flaggedFrom (index + 1) flags := fun member =>
        absurd (above _ _ _ member) (by omega)
      cases flag with
      | true => simp
      | false => simpa using notLater
    | succ offset =>
      have shift : index + (offset + 1) = index + 1 + offset := by omega
      have notHere : index + (offset + 1) ∉ (if flag then [index] else [] : List ℕ) := by
        cases flag with
        | true => simp
        | false => simp
      rw [shift] at notHere ⊢
      rw [List.getD_cons_succ, ← ih (index + 1) offset]
      exact ⟨fun either => either.resolve_left notHere, Or.inr⟩

theorem filterByIndex_eq_pick {test : ℕ → Bool} {keep : Bool → Bool} {flags : List Bool}
    {blocks : List (NativeChatBlock Body)} (enough : blocks.length ≤ flags.length)
    (same : ∀ index, test index = keep (flags.getD index false)) :
    filterByIndex test blocks = pick keep blocks flags := by
  have shifted : ∀ (index : ℕ) (blocks : List (NativeChatBlock Body)) (flags : List Bool),
      blocks.length ≤ flags.length →
      (∀ offset, test (index + offset) = keep (flags.getD offset false)) →
      ((blocks.zipIdx index).filter fun entry => test entry.2).map Prod.fst =
        pick keep blocks flags := by
    intro index blocks
    induction blocks generalizing index with
    | nil => exact fun _ _ _ => rfl
    | cons block blocks ih =>
      intro flags enough same
      cases flags with
      | nil => cases enough
      | cons flag flags =>
        have rest := ih (index + 1) flags (Nat.le_of_succ_le_succ enough) fun offset => by
          have shift : index + 1 + offset = index + (offset + 1) := by omega
          rw [shift]
          exact same (offset + 1)
        have here : test index = keep flag := same 0
        rw [List.zipIdx_cons, List.filter_cons, pick]
        dsimp only
        rw [here]
        split
        · rw [List.map_cons, rest]
        · exact rest
  exact shifted 0 blocks flags enough fun offset => by rw [Nat.zero_add]; exact same offset

theorem perm_pick (blocks : List (NativeChatBlock Body)) {flags : List Bool}
    (enough : blocks.length ≤ flags.length) :
    blocks.Perm (pick not blocks flags ++ pick id blocks flags) := by
  induction blocks generalizing flags with
  | nil => exact List.Perm.refl _
  | cons block blocks ih =>
    cases flags with
    | nil => cases enough
    | cons flag flags =>
      have rest := ih (Nat.le_of_succ_le_succ enough)
      cases flag with
      | true => exact (rest.cons block).trans List.perm_middle.symm
      | false => exact rest.cons block

theorem pick_append (keep : Bool → Bool) (front back : List (NativeChatBlock Body))
    {flags : List Bool} (enough : front.length ≤ flags.length) :
    pick keep (front ++ back) flags =
      pick keep front flags ++ pick keep back (flags.drop front.length) := by
  induction front generalizing flags with
  | nil =>
    cases back with
    | nil => rfl
    | cons block back => rfl
  | cons block front ih =>
    cases flags with
    | nil => cases enough
    | cons flag flags =>
      have rest := ih (Nat.le_of_succ_le_succ enough)
      rw [List.cons_append, pick, pick, List.length_cons, List.drop_succ_cons, rest]
      split
      · rfl
      · rfl

end Flags

section Unanswered

def hasCall (pair : NativeChatToolPair Body) : Bool := pair.call.isSome

/-- The first call that waits for a result answered. -/
def answerIn (result : NativeChatToolResultBlock Body) (pairs : List (NativeChatToolPair Body)) :
    List (NativeChatToolPair Body) :=
  (pairs.findIdx? (answerable result)).elim pairs fun slot => pairs.modify slot (answerPair result)

theorem answerIn_cons (result : NativeChatToolResultBlock Body) (pair : NativeChatToolPair Body)
    (pairs : List (NativeChatToolPair Body)) :
    answerIn result (pair :: pairs) =
      if answerable result pair then answerPair result pair :: pairs
      else pair :: answerIn result pairs := by
  unfold answerIn
  rw [List.findIdx?_cons]
  by_cases here : answerable result pair = true
  · rw [if_pos here, if_pos here]
    rfl
  · rw [if_neg here, if_neg here]
    cases pairs.findIdx? (answerable result) with
    | none => rfl
    | some slot => rfl

theorem plainStep_result (pairs : List (NativeChatToolPair Body))
    (result : NativeChatToolResultBlock Body) :
    plainStep pairs (.toolResult result) =
      if standsAlone pairs (.toolResult result) then pairs ++ [⟨none, some result⟩]
      else answerIn result pairs := by
  rw [standsAlone_result]
  unfold plainStep answerIn
  dsimp only
  cases pairs.findIdx? (answerable result) with
  | none => rfl
  | some slot => rfl

theorem call_of_answerable {result : NativeChatToolResultBlock Body}
    {pair : NativeChatToolPair Body} (answers : answerable result pair = true) :
    pair.call.isSome = true := by
  cases callIs : pair.call with
  | none =>
    unfold answerable at answers
    rw [callIs] at answers
    cases answers
  | some call => rfl

theorem filter_answerIn (result : NativeChatToolResultBlock Body)
    (pairs : List (NativeChatToolPair Body)) :
    (answerIn result pairs).filter hasCall = answerIn result (pairs.filter hasCall) := by
  induction pairs with
  | nil => rfl
  | cons pair pairs ih =>
    rw [answerIn_cons]
    by_cases here : answerable result pair = true
    · have called : hasCall pair = true := call_of_answerable here
      have calledAfter : hasCall (answerPair result pair) = true := called
      rw [if_pos here, List.filter_cons_of_pos called, List.filter_cons_of_pos calledAfter,
        answerIn_cons, if_pos here]
    · rw [if_neg here]
      by_cases called : hasCall pair = true
      · rw [List.filter_cons_of_pos called, List.filter_cons_of_pos called, answerIn_cons,
          if_neg here, ih]
      · rw [List.filter_cons_of_neg called, List.filter_cons_of_neg called, ih]

def loneResult? (pair : NativeChatToolPair Body) : Option (NativeChatToolResultBlock Body) :=
  if pair.call.isNone then pair.result else none

theorem filterMap_answerIn (result : NativeChatToolResultBlock Body)
    (pairs : List (NativeChatToolPair Body)) :
    (answerIn result pairs).filterMap loneResult? = pairs.filterMap loneResult? := by
  induction pairs with
  | nil => rfl
  | cons pair pairs ih =>
    rw [answerIn_cons]
    by_cases here : answerable result pair = true
    · have called := call_of_answerable here
      have notNone : pair.call.isNone = false := by
        rw [Option.isNone_eq_false_iff]
        exact called
      have lone : loneResult? pair = none := if_neg (by simp [notNone])
      have loneAfter : loneResult? (answerPair result pair) = none := if_neg (by
        unfold answerPair
        simp [notNone])
      rw [if_pos here, List.filterMap_cons_none lone, List.filterMap_cons_none loneAfter]
    · rw [if_neg here, List.filterMap_cons, List.filterMap_cons, ih]

theorem any_answerable_filter (result : NativeChatToolResultBlock Body)
    (pairs : List (NativeChatToolPair Body)) :
    (pairs.filter hasCall).any (answerable result) = pairs.any (answerable result) := by
  rw [Bool.eq_iff_iff, List.any_eq_true, List.any_eq_true]
  constructor
  · rintro ⟨pair, member, answers⟩
    exact ⟨pair, List.mem_of_mem_filter member, answers⟩
  · rintro ⟨pair, member, answers⟩
    exact ⟨pair, List.mem_filter.mpr ⟨member, call_of_answerable answers⟩, answers⟩

theorem filterMap_loneResult (blocks : List (NativeChatBlock Body))
    (pairs : List (NativeChatToolPair Body)) :
    ((blocks.foldl plainStep pairs).filterMap loneResult?).map NativeChatBlock.toolResult =
      (pairs.filterMap loneResult?).map NativeChatBlock.toolResult ++
        pick id blocks (aloneFlags pairs blocks) := by
  induction blocks generalizing pairs with
  | nil => exact (List.append_nil _).symm
  | cons block blocks ih =>
    rw [List.foldl_cons, ih, aloneFlags, pick]
    cases block with
    | toolResult result =>
      rw [plainStep_result]
      by_cases alone : standsAlone pairs (.toolResult result) = true
      · rw [if_pos alone, alone, List.filterMap_append, List.map_append, List.append_assoc]
        rfl
      · rw [Bool.not_eq_true] at alone
        rw [alone, if_neg (by simp), filterMap_answerIn]
        rfl
    | toolCall call =>
      have called : (pairs ++ [(⟨some call, none⟩ : NativeChatToolPair Body)]).filterMap
          loneResult? = pairs.filterMap loneResult? := by
        rw [List.filterMap_append]
        exact List.append_nil _
      exact congrArg (·.map NativeChatBlock.toolResult ++ _) called
    | text block => rfl
    | imageRef body => rfl
    | subagentGroup body => rfl
    | subagent body => rfl
    | backgroundTask body => rfl

/-- Without the flagged results the pairs that have a call are the same. -/
theorem plainPairs_pick (blocks : List (NativeChatBlock Body))
    (pairs : List (NativeChatToolPair Body)) :
    (pick not blocks (aloneFlags pairs blocks)).foldl plainStep (pairs.filter hasCall) =
      (blocks.foldl plainStep pairs).filter hasCall := by
  induction blocks generalizing pairs with
  | nil => rfl
  | cons block blocks ih =>
    rw [List.foldl_cons, aloneFlags, pick, ← ih]
    cases block with
    | toolResult result =>
      rw [plainStep_result]
      by_cases alone : standsAlone pairs (.toolResult result) = true
      · rw [if_pos alone, alone, List.filter_append]
        congr 1
        exact (List.append_nil _).symm
      · have kept : standsAlone (pairs.filter hasCall) (.toolResult result) =
            standsAlone pairs (.toolResult result) :=
          congrArg not (any_answerable_filter result pairs)
        rw [Bool.not_eq_true] at alone
        rw [alone, Bool.not_false, if_neg Bool.false_ne_true, if_pos rfl, List.foldl_cons,
          plainStep_result, kept, alone, if_neg Bool.false_ne_true, filter_answerIn]
    | toolCall call =>
      have called : (pairs ++ [(⟨some call, none⟩ : NativeChatToolPair Body)]).filter hasCall =
          pairs.filter hasCall ++ [⟨some call, none⟩] := by
        rw [List.filter_append]
        rfl
      exact congrArg (fun start => List.foldl plainStep start _) called.symm
    | text block => rfl
    | imageRef body => rfl
    | subagentGroup body => rfl
    | subagent body => rfl
    | backgroundTask body => rfl

end Unanswered

end OxeeUI.Chat
