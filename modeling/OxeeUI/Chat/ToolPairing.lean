import OxeeUI.Chat.PendingCalls

/-!
# The plain rule of tool pairing

A result answers the oldest unanswered call it may answer, and stands alone when
there is none.  The linked pairing follows this rule, cut at its limit.
-/

namespace OxeeUI.Chat

open OxeeUI.Library PendingToolCalls

universe u

variable {Body : Type u}

section Rule

/-- A call without a result that the result may answer. -/
def answerable (result : NativeChatToolResultBlock Body) (pair : NativeChatToolPair Body) : Bool :=
  pair.call.any fun call =>
    pair.result.isNone && (result.callId.isNone || call.callId = result.callId)

def answerPair (result : NativeChatToolResultBlock Body) (pair : NativeChatToolPair Body) :
    NativeChatToolPair Body := { pair with result := some result }

def plainStep (pairs : List (NativeChatToolPair Body)) :
    NativeChatBlock Body → List (NativeChatToolPair Body)
  | .toolCall call => pairs ++ [⟨some call, none⟩]
  | .toolResult result =>
    match pairs.findIdx? (answerable result) with
    | some slot => pairs.modify slot (answerPair result)
    | none => pairs ++ [⟨none, some result⟩]
  | _ => pairs

/-- The pairs of a list of blocks, by the plain rule. -/
def plainPairs (blocks : List (NativeChatBlock Body)) : List (NativeChatToolPair Body) :=
  blocks.foldl plainStep []

/-- A result that no call of the pairs so far waits for. -/
def standsAlone (pairs : List (NativeChatToolPair Body)) : NativeChatBlock Body → Bool
  | .toolResult result => !pairs.any (answerable result)
  | _ => false

def aloneFlags (pairs : List (NativeChatToolPair Body)) : List (NativeChatBlock Body) → List Bool
  | [] => []
  | block :: rest => standsAlone pairs block :: aloneFlags (plainStep pairs block) rest

end Rule

section Waiting

def waitingCalls (slot : ℕ) : List (NativeChatToolPair Body) → CallQueue
  | [] => []
  | pair :: rest =>
    ((pair.call.filter fun _ => pair.result.isNone).map fun call => (slot, call.callId)).toList ++
      waitingCalls (slot + 1) rest

theorem waitingCalls_append (slot : ℕ) (front back : List (NativeChatToolPair Body)) :
    waitingCalls slot (front ++ back) =
      waitingCalls slot front ++ waitingCalls (slot + front.length) back := by
  induction front generalizing slot with
  | nil => rfl
  | cons pair front ih =>
    have shift : slot + 1 + front.length = slot + (pair :: front).length := by
      rw [List.length_cons]
      omega
    rw [List.cons_append, waitingCalls, waitingCalls, ih, List.append_assoc, shift]

theorem find?_waitingCalls_head (slot : ℕ) (result : NativeChatToolResultBlock Body)
    (pair : NativeChatToolPair Body) :
    (∃ callId, mayAnswer result.callId (slot, callId) = true ∧ answerable result pair = true ∧
        waitingCalls slot [pair] = [(slot, callId)] ∧
        waitingCalls slot [answerPair result pair] = []) ∨
      (answerable result pair = false ∧
        ∀ waiting ∈ waitingCalls slot [pair], mayAnswer result.callId waiting = false) := by
  obtain ⟨call, answer⟩ := pair
  cases call with
  | none => exact Or.inr ⟨rfl, fun waiting member => by cases member⟩
  | some call =>
    cases answer with
    | some answer => exact Or.inr ⟨by simp [answerable], fun waiting member => by cases member⟩
    | none =>
      have agree : answerable result ⟨some call, none⟩ =
          mayAnswer result.callId (slot, call.callId) := rfl
      cases may : mayAnswer result.callId (slot, call.callId) with
      | true => exact Or.inl ⟨call.callId, may, agree.trans may, rfl, rfl⟩
      | false =>
        refine Or.inr ⟨agree.trans may, fun waiting member => ?_⟩
        rw [List.mem_singleton.mp member]
        exact may

/-- The queue of the calls that wait is searched and cut in step with the pairs. -/
theorem waitingCalls_answer (slot : ℕ) (result : NativeChatToolResultBlock Body)
    (pairs : List (NativeChatToolPair Body)) :
    ((waitingCalls slot pairs).find? (mayAnswer result.callId)).map Prod.fst =
        (pairs.findIdx? (answerable result)).map (slot + ·) ∧
      (waitingCalls slot pairs).eraseP (mayAnswer result.callId) =
        waitingCalls slot ((pairs.findIdx? (answerable result)).elim pairs
          fun index => pairs.modify index (answerPair result)) := by
  induction pairs generalizing slot with
  | nil => exact ⟨rfl, rfl⟩
  | cons pair pairs ih =>
    have split : waitingCalls slot (pair :: pairs) =
        waitingCalls slot [pair] ++ waitingCalls (slot + 1) pairs :=
      waitingCalls_append slot [pair] pairs
    rw [List.findIdx?_cons, split]
    rcases find?_waitingCalls_head slot result pair with
      ⟨callId, may, answers, waits, settled⟩ | ⟨answers, others⟩
    · have after : waitingCalls slot (answerPair result pair :: pairs) =
          waitingCalls slot [answerPair result pair] ++ waitingCalls (slot + 1) pairs :=
        waitingCalls_append slot [answerPair result pair] pairs
      rw [waits, answers, if_pos rfl, List.singleton_append, List.find?_cons_of_pos may,
        List.eraseP_cons_of_pos may]
      refine ⟨rfl, ?_⟩
      rw [Option.elim_some, List.modify_zero_cons, after, settled]
      rfl
    · obtain ⟨found, erased⟩ := ih (slot + 1)
      have missed : (waitingCalls slot [pair]).find? (mayAnswer result.callId) = none :=
        List.find?_eq_none.mpr fun waiting member => by simp [others waiting member]
      rw [answers, if_neg (by simp), List.find?_append, missed, Option.none_or, found,
        List.eraseP_append_right _ (fun waiting member => by simp [others waiting member]), erased]
      cases pairs.findIdx? (answerable result) with
      | none => exact ⟨rfl, (waitingCalls_append slot [pair] pairs).symm⟩
      | some index =>
        refine ⟨?_, ?_⟩
        · rw [Option.map_some, Option.map_some, Option.map_some]
          congr 1
          omega
        · rw [Option.elim_some, Option.map_some, Option.elim_some, List.modify_succ_cons]
          exact (waitingCalls_append slot [pair] _).symm

end Waiting

section Cut

def cut (limit : Option ℕ) (pairs : List (NativeChatToolPair Body)) :
    List (NativeChatToolPair Body) := limit.elim pairs fun limit => pairs.take limit

variable {limit : Option ℕ} {pairs : List (NativeChatToolPair Body)}

theorem cut_append (limit : Option ℕ) (pairs : List (NativeChatToolPair Body))
    (pair : NativeChatToolPair Body) :
    cut limit (pairs ++ [pair]) =
      if withinLimit limit (cut limit pairs).length then cut limit pairs ++ [pair]
      else cut limit pairs := by
  cases limit with
  | none => rfl
  | some limit =>
    change (pairs ++ [pair]).take limit =
      if decide ((pairs.take limit).length < limit) then pairs.take limit ++ [pair]
      else pairs.take limit
    rw [List.length_take]
    by_cases room : pairs.length < limit
    · have within : min limit pairs.length < limit := by omega
      rw [if_pos (decide_eq_true within), List.take_of_length_le (by simp; omega),
        List.take_of_length_le (by omega)]
    · have full : ¬ min limit pairs.length < limit := by omega
      rw [if_neg (by simpa using full), List.take_append_of_le_length (by omega)]

/-- A slot found among the pairs within the limit, or only beyond it. -/
theorem findIdx?_cut (limit : Option ℕ) (test : NativeChatToolPair Body → Bool)
    (pairs : List (NativeChatToolPair Body)) (change : NativeChatToolPair Body →
      NativeChatToolPair Body) :
    (∃ slot, (cut limit pairs).findIdx? test = some slot ∧ pairs.findIdx? test = some slot ∧
        cut limit (pairs.modify slot change) = (cut limit pairs).modify slot change) ∨
      ((cut limit pairs).findIdx? test = none ∧
        ∀ slot, pairs.findIdx? test = some slot →
          withinLimit limit (cut limit pairs).length = false ∧
            cut limit (pairs.modify slot change) = cut limit pairs) := by
  cases limit with
  | none =>
    cases found : pairs.findIdx? test with
    | none => exact Or.inr ⟨found, fun slot other => by cases other⟩
    | some slot => exact Or.inl ⟨slot, found, rfl, rfl⟩
  | some limit =>
    change (∃ slot, (pairs.take limit).findIdx? test = some slot ∧ _ ∧
      (pairs.modify slot change).take limit = (pairs.take limit).modify slot change) ∨
        ((pairs.take limit).findIdx? test = none ∧ ∀ slot, _ →
          decide ((pairs.take limit).length < limit) = false ∧
            (pairs.modify slot change).take limit = pairs.take limit)
    induction limit generalizing pairs with
    | zero => exact Or.inr ⟨rfl, fun slot _ => ⟨by simp, rfl⟩⟩
    | succ limit ih =>
      cases pairs with
      | nil => exact Or.inr ⟨rfl, fun slot other => by cases other⟩
      | cons pair pairs =>
        rw [List.take_succ_cons, List.findIdx?_cons, List.findIdx?_cons]
        by_cases here : test pair = true
        · rw [if_pos here, if_pos here]
          exact Or.inl ⟨0, rfl, rfl, rfl⟩
        · rw [if_neg here, if_neg here]
          rcases ih pairs with ⟨slot, inCut, inAll, same⟩ | ⟨inCut, beyond⟩
          · refine Or.inl ⟨slot + 1, by rw [inCut]; rfl, by rw [inAll]; rfl, ?_⟩
            rw [List.modify_succ_cons, List.take_succ_cons, same, List.modify_succ_cons]
          · refine Or.inr ⟨by rw [inCut]; rfl, fun slot found => ?_⟩
            obtain ⟨index, inAll, rfl⟩ := Option.map_eq_some_iff.mp found
            obtain ⟨full, same⟩ := beyond index inAll
            refine ⟨by simpa using full, ?_⟩
            rw [List.modify_succ_cons, List.take_succ_cons, same]

end Cut

section Scan

/-- The linked scan follows the plain rule up to the limit. -/
structure Scans (limit : Option ℕ) (scan : PairingScan Body)
    (plain : List (NativeChatToolPair Body)) : Prop where
  pairs : scan.pairs = cut limit plain
  pending : Represents scan.pending (waitingCalls 0 scan.pairs)

variable {limit : Option ℕ} {scan : PairingScan Body} {plain : List (NativeChatToolPair Body)}

theorem standsAlone_result (result : NativeChatToolResultBlock Body)
    (pairs : List (NativeChatToolPair Body)) :
    standsAlone pairs (.toolResult result) = !(pairs.findIdx? (answerable result)).isSome :=
  congrArg not List.findIdx?_isSome.symm

/-- One block by the linked scan and by the plain rule. -/
theorem Scans.step (scans : Scans limit scan plain) (index : ℕ) (block : NativeChatBlock Body) :
    Scans limit (scan.step limit index block) (plainStep plain block) ∧
      (scan.step limit index block).unpaired =
        scan.unpaired ++ if standsAlone scan.pairs block then [index] else [] := by
  cases block with
  | toolCall call =>
    unfold PairingScan.step plainStep standsAlone
    dsimp only
    by_cases within : withinLimit limit scan.pairs.length
    · have appended := cut_append limit plain ⟨some call, none⟩
      rw [← scans.pairs, if_pos within] at appended
      rw [if_pos within]
      refine ⟨⟨appended.symm, ?_⟩, (List.append_nil _).symm⟩
      have added := scans.pending.add scan.pairs.length call.callId
      dsimp only
      rw [waitingCalls_append, Nat.zero_add]
      exact added
    · have appended := cut_append limit plain ⟨some call, none⟩
      rw [← scans.pairs, if_neg within] at appended
      rw [if_neg within]
      exact ⟨⟨appended.symm, scans.pending⟩, (List.append_nil _).symm⟩
  | toolResult result =>
    obtain ⟨taken, slotIs⟩ := scans.pending.take result.callId
    obtain ⟨found, erased⟩ := waitingCalls_answer 0 result scan.pairs
    rw [found] at slotIs
    rw [erased] at taken
    rw [standsAlone_result]
    unfold PairingScan.step plainStep
    dsimp only
    have pair : scan.pending.take result.callId = ((scan.pending.take result.callId).1,
        (scan.pairs.findIdx? (answerable result)).map (0 + ·)) := Prod.ext rfl slotIs
    rw [pair]
    rcases findIdx?_cut limit (answerable result) plain (answerPair result) with
      ⟨slot, inCut, inAll, same⟩ | ⟨inCut, beyond⟩
    · rw [← scans.pairs] at inCut same
      rw [inCut] at taken ⊢
      rw [inAll]
      dsimp only [Option.map_some]
      rw [Nat.zero_add]
      exact ⟨⟨same.symm, taken⟩, (List.append_nil _).symm⟩
    · rw [← scans.pairs] at inCut beyond
      rw [inCut] at taken ⊢
      dsimp only [Option.map_none]
      refine ⟨⟨?_, ?_⟩, rfl⟩
      · dsimp only
        cases inAll : plain.findIdx? (answerable result) with
        | none =>
          dsimp only
          rw [cut_append, ← scans.pairs]
        | some slot =>
          obtain ⟨full, same⟩ := beyond slot inAll
          dsimp only
          rw [full, same]
          rfl
      · dsimp only
        by_cases within : withinLimit limit scan.pairs.length
        · rw [if_pos within, waitingCalls_append]
          have none : waitingCalls (0 + scan.pairs.length) [(⟨none, some result⟩ :
              NativeChatToolPair Body)] = [] := rfl
          rw [none, List.append_nil]
          exact taken
        · rw [if_neg within]
          exact taken
  | text block => exact ⟨scans, (List.append_nil _).symm⟩
  | imageRef body => exact ⟨scans, (List.append_nil _).symm⟩
  | subagentGroup body => exact ⟨scans, (List.append_nil _).symm⟩
  | subagent body => exact ⟨scans, (List.append_nil _).symm⟩
  | backgroundTask body => exact ⟨scans, (List.append_nil _).symm⟩

theorem Scans.idle (scans : Scans limit scan plain)
    (full : withinLimit limit scan.pairs.length = false) (empty : scan.pending.isEmpty = true)
    (block : NativeChatBlock Body) : Scans limit scan (plainStep plain block) := by
  refine ⟨?_, scans.pending⟩
  have stepped := (scans.step 0 block).1.pairs
  rw [← stepped]
  have noneWaits : waitingCalls 0 scan.pairs = [] := by
    rw [scans.pending.isEmpty] at empty
    exact List.isEmpty_iff.mp empty
  cases block with
  | toolCall call =>
    unfold PairingScan.step
    dsimp only
    rw [if_neg (by simp [full])]
  | toolResult result =>
    obtain ⟨_, slotIs⟩ := scans.pending.take result.callId
    rw [noneWaits] at slotIs
    unfold PairingScan.step
    have pair : scan.pending.take result.callId =
        ((scan.pending.take result.callId).1, none) := Prod.ext rfl slotIs
    dsimp only
    rw [pair]
    dsimp only
    rw [if_neg (by simp [full])]
  | text block => rfl
  | imageRef body => rfl
  | subagentGroup body => rfl
  | subagent body => rfl
  | backgroundTask body => rfl

theorem Scans.idleRun (scans : Scans limit scan plain)
    (full : withinLimit limit scan.pairs.length = false) (empty : scan.pending.isEmpty = true)
    (blocks : List (NativeChatBlock Body)) : Scans limit scan (blocks.foldl plainStep plain) := by
  induction blocks generalizing plain with
  | nil => exact scans
  | cons block blocks ih => exact ih (scans.idle full empty block)

theorem Scans.run (scans : Scans limit scan plain) (index : ℕ)
    (blocks : List (NativeChatBlock Body)) :
    Scans limit (pairToolBlocksFrom limit scan index blocks) (blocks.foldl plainStep plain) := by
  induction blocks generalizing scan plain index with
  | nil => exact scans
  | cons block blocks ih =>
    unfold pairToolBlocksFrom
    by_cases idle : (!withinLimit limit scan.pairs.length && scan.pending.isEmpty) = true
    · rw [if_pos idle]
      rw [Bool.and_eq_true, Bool.not_eq_true'] at idle
      exact scans.idleRun idle.1 idle.2 (block :: blocks)
    · rw [if_neg idle]
      exact ih (scans.step index block).1 (index + 1)

theorem scans_initial (limit : Option ℕ) : Scans limit (PairingScan.initial : PairingScan Body) [] := by
  refine ⟨?_, represents_initial⟩
  cases limit with
  | none => rfl
  | some limit => exact List.take_nil.symm

theorem pairToolBlocks_eq_cut (blocks : List (NativeChatBlock Body)) (limit : Option ℕ) :
    pairToolBlocks blocks limit = cut limit (plainPairs blocks) :=
  ((scans_initial limit).run 0 blocks).pairs

/-- The indices from one on of the flags that are set. -/
def flaggedFrom (index : ℕ) : List Bool → List ℕ
  | [] => []
  | flag :: rest => (if flag then [index] else []) ++ flaggedFrom (index + 1) rest

theorem Scans.unpaired (scans : Scans none scan plain) (index : ℕ)
    (blocks : List (NativeChatBlock Body)) :
    (pairToolBlocksFrom none scan index blocks).unpaired =
      scan.unpaired ++ flaggedFrom index (aloneFlags plain blocks) := by
  induction blocks generalizing scan plain index with
  | nil => exact (List.append_nil _).symm
  | cons block blocks ih =>
    have running : ¬ (!withinLimit none scan.pairs.length && scan.pending.isEmpty) = true := by
      unfold withinLimit
      simp
    obtain ⟨stepped, unpaired⟩ := scans.step index block
    have pairs : scan.pairs = plain := scans.pairs
    rw [pairToolBlocksFrom, if_neg running, ih stepped, unpaired, pairs, List.append_assoc]
    rfl

theorem unpairedToolResultIndices_eq (blocks : List (NativeChatBlock Body)) :
    unpairedToolResultIndices blocks = flaggedFrom 0 (aloneFlags [] blocks) :=
  (scans_initial none).unpaired 0 blocks

end Scan

end OxeeUI.Chat
