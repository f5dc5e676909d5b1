import OxeeUI.Chat.ToolRuns

/-!
# Rows of a fold

The rows before projection are the runs, and the contributions recorded for a
row are its blocks, source by source.
-/

namespace OxeeUI.Chat

open OxeeUI.Library

universe u v

variable {Body : Type u} {toLowerCase : Text → Text}

section Steps

/-- Tool messages join an assistant row that is not marked. -/
def AssistantOpen (state : ToolFoldState Body) : Prop :=
  ∀ index, state.mutableAssistantIndex = some index →
    ∃ assistant, state.output[index]? = some assistant ∧ assistant.role = .assistant ∧
      assistant.unpairedToolResults = false

inductive FoldStep (toLowerCase : Text → Text) (state : ToolFoldState Body)
    (message : NativeChatMessage Body) : ToolFoldState Body → Prop
  | marked (isMarked : message.unpairedToolResults = true) :
      FoldStep toLowerCase state message (state.push message none)
  | sidecar (index : ℕ) (assistant : NativeChatMessage Body)
      (unmarked : message.unpairedToolResults = false)
      (target : state.mutableAssistantIndex = some index)
      (found : state.output[index]? = some assistant)
      (isSidecar : isHarnessSidecarToolMessage toLowerCase message = true) :
      FoldStep toLowerCase state message
        ((state.join index assistant message (message.blocks.filter NativeChatBlock.isToolResult)
            (some state.output.length)).push
          { message with blocks := message.blocks.filter fun block => !block.isToolResult }
          (some index))
  | toolOnly (index : ℕ) (assistant : NativeChatMessage Body)
      (unmarked : message.unpairedToolResults = false)
      (target : state.mutableAssistantIndex = some index)
      (found : state.output[index]? = some assistant)
      (noSidecar : isHarnessSidecarToolMessage toLowerCase message = false)
      (isToolOnly : isToolOnlyMessage message = true) :
      FoldStep toLowerCase state message (state.join index assistant message message.blocks none)
  | opened (unmarked : message.unpairedToolResults = false)
      (apart : state.mutableAssistantIndex.isSome = true →
        isHarnessSidecarToolMessage toLowerCase message = false ∧ isToolOnlyMessage message = false) :
      FoldStep toLowerCase state message (state.open' toLowerCase message)

theorem foldStep {state : ToolFoldState Body} (ready : AssistantOpen state)
    (message : NativeChatMessage Body) :
    FoldStep toLowerCase state message (state.foldMessage toLowerCase message) := by
  unfold ToolFoldState.foldMessage
  by_cases marked : message.unpairedToolResults = true
  · rw [if_pos marked]
    exact FoldStep.marked marked
  · rw [if_neg marked]
    rw [Bool.not_eq_true] at marked
    cases target : state.mutableAssistantIndex with
    | none =>
      have closed : state.assistant? = none := by
        unfold ToolFoldState.assistant?
        rw [target]
        rfl
      rw [closed]
      dsimp only
      rw [if_neg (by simp)]
      exact FoldStep.opened marked fun isOpen => by simp [target] at isOpen
    | some index =>
      obtain ⟨assistant, found, role, _⟩ := ready index target
      have isOpen : state.assistant? = some (index, assistant) := by
        unfold ToolFoldState.assistant?
        rw [target, Option.bind_some, found, Option.filter_some, if_pos (decide_eq_true role)]
        rfl
      have joinTarget : (state.join index assistant message
          (message.blocks.filter NativeChatBlock.isToolResult)
          (some state.output.length)).mutableAssistantIndex = some index := target
      rw [isOpen]
      dsimp only
      by_cases sidecar : isHarnessSidecarToolMessage toLowerCase message = true
      · rw [if_pos sidecar, joinTarget]
        exact FoldStep.sidecar index assistant marked target found sidecar
      · rw [if_neg sidecar]
        rw [Bool.not_eq_true] at sidecar
        by_cases toolOnly : isToolOnlyMessage message = true
        · rw [if_pos toolOnly]
          exact FoldStep.toolOnly index assistant marked target found sidecar toolOnly
        · rw [if_neg toolOnly]
          rw [Bool.not_eq_true] at toolOnly
          exact FoldStep.opened marked fun _ => ⟨sidecar, toolOnly⟩

end Steps

section Joins

variable {state : ToolFoldState Body} {index : ℕ} {assistant message : NativeChatMessage Body}

def grown (assistant message : NativeChatMessage Body) (blocks : List (NativeChatBlock Body)) :
    NativeChatMessage Body :=
  recordFoldedPosition { assistant with blocks := assistant.blocks ++ blocks } message

theorem grown_spec (assistant message : NativeChatMessage Body)
    (blocks : List (NativeChatBlock Body)) :
    (grown assistant message blocks).id = assistant.id ∧
      (grown assistant message blocks).role = assistant.role ∧
      (grown assistant message blocks).unpairedToolResults = assistant.unpairedToolResults ∧
      (grown assistant message blocks).blocks = assistant.blocks ++ blocks := by
  unfold grown recordFoldedPosition
  cases message.journalPosition with
  | none => exact ⟨rfl, rfl, rfl, rfl⟩
  | some position => exact ⟨rfl, rfl, rfl, rfl⟩

theorem lt_of_getElem?_eq_some {Item : Type u} {items : List Item} {index : ℕ} {item : Item}
    (found : items[index]? = some item) : index < items.length :=
  (List.getElem?_eq_some_iff.mp found).1

theorem assistantOpen_join (ready : AssistantOpen state)
    (target : state.mutableAssistantIndex = some index)
    (found : state.output[index]? = some assistant) (blocks : List (NativeChatBlock Body))
    (sourceRow : Option ℕ) :
    AssistantOpen (state.join index assistant message blocks sourceRow) := by
  intro other isOther
  have same : other = index := Option.some.inj (isOther.symm.trans target)
  subst same
  obtain ⟨_, foundAgain, role, unmarked⟩ := ready other target
  rw [found] at foundAgain
  cases foundAgain
  obtain ⟨_, sameRole, sameMark, _⟩ := grown_spec assistant message blocks
  refine ⟨grown assistant message blocks, ?_, sameRole.trans role, sameMark.trans unmarked⟩
  exact List.getElem?_set_self (lt_of_getElem?_eq_some found)

theorem assistantOpen_push (ready : AssistantOpen state) (message : NativeChatMessage Body) :
    AssistantOpen (state.push message state.mutableAssistantIndex) ∧
      AssistantOpen (state.push message none) ∧
      (message.role = .assistant → message.unpairedToolResults = false →
        AssistantOpen (state.push message (some state.output.length))) := by
  refine ⟨fun index target => ?_, fun index target => (by cases target), fun role unmarked => ?_⟩
  · obtain ⟨assistant, found, facts⟩ := ready index target
    refine ⟨assistant, ?_, facts⟩
    exact (List.getElem?_append_left (lt_of_getElem?_eq_some found)).trans found
  · intro index target
    cases target
    exact ⟨message, List.getElem?_concat_length, role, unmarked⟩

theorem assistantOpen_step (ready : AssistantOpen state) {after : ToolFoldState Body}
    (step : FoldStep toLowerCase state message after) : AssistantOpen after := by
  cases step with
  | marked isMarked => exact (assistantOpen_push ready message).2.1
  | sidecar index assistant unmarked target found isSidecar =>
    have joined : AssistantOpen (state.join index assistant message
        (message.blocks.filter NativeChatBlock.isToolResult) (some state.output.length)) :=
      assistantOpen_join ready target found _ _
    have pushed := (assistantOpen_push joined { message with
      blocks := message.blocks.filter fun block => !block.isToolResult }).1
    have sameTarget : (state.join index assistant message
        (message.blocks.filter NativeChatBlock.isToolResult)
        (some state.output.length)).mutableAssistantIndex = some index := target
    rw [sameTarget] at pushed
    exact pushed
  | toolOnly index assistant unmarked target found noSidecar isToolOnly =>
    exact assistantOpen_join ready target found message.blocks none
  | opened unmarked apart =>
    obtain ⟨kept, closed, own⟩ := assistantOpen_push ready message
    unfold ToolFoldState.open'
    by_cases role : message.role = .assistant
    · rw [if_pos role]
      exact own role unmarked
    · rw [if_neg role]
      split
      · exact closed
      · exact kept

end Joins

section Refinement

variable {state : ToolFoldState Body}

def rowRun (message : NativeChatMessage Body) : ToolRun Body :=
  ⟨message.id, message.unpairedToolResults, message.blocks⟩

def ToolRun.extend (joined : List (NativeChatBlock Body)) (run : ToolRun Body) : ToolRun Body :=
  { run with blocks := run.blocks ++ joined }

/-- The runs of rows, with blocks that joined the one that is open. -/
def extendOpen (isOpen : Option ℕ) (joined : List (NativeChatBlock Body))
    (runs : List (ToolRun Body)) : List (ToolRun Body) :=
  isOpen.elim runs fun index => runs.modify index (ToolRun.extend joined)

theorem extend_nil (run : ToolRun Body) : run.extend [] = run := by
  unfold ToolRun.extend
  rw [List.append_nil]

theorem extendOpen_nil (isOpen : Option ℕ) (runs : List (ToolRun Body)) :
    extendOpen isOpen [] runs = runs := by
  cases isOpen with
  | none => rfl
  | some index =>
    have same : (ToolRun.extend [] : ToolRun Body → ToolRun Body) = id := funext extend_nil
    unfold extendOpen
    rw [Option.elim_some, same, List.modify_id]

theorem extend_extend (first second : List (NativeChatBlock Body)) (run : ToolRun Body) :
    (run.extend first).extend second = run.extend (first ++ second) := by
  unfold ToolRun.extend
  rw [List.append_assoc]

theorem gatherRuns_closed (messages : List (NativeChatMessage Body)) :
    (gatherRuns toLowerCase false messages).1 = [] := by
  induction messages with
  | nil => rfl
  | cons message messages ih =>
    unfold gatherRuns
    rw [Bool.false_and, Bool.false_and, Bool.false_and, if_neg Bool.false_ne_true,
      if_neg Bool.false_ne_true]
    split
    · rfl
    · split
      · rfl
      · exact ih

theorem extendOpen_extendOpen (isOpen : Option ℕ) (first second : List (NativeChatBlock Body))
    (runs : List (ToolRun Body)) :
    extendOpen isOpen second (extendOpen isOpen first runs) =
      extendOpen isOpen (first ++ second) runs := by
  cases isOpen with
  | none => rfl
  | some index =>
    have same : ToolRun.extend second ∘ ToolRun.extend first =
        ToolRun.extend (first ++ second) :=
      funext fun run => extend_extend first second run
    unfold extendOpen
    rw [Option.elim_some, Option.elim_some, Option.elim_some, List.modify_modify_eq, same]

theorem modify_append_of_lt {Item : Type u} (change : Item → Item) {items : List Item} {index : ℕ}
    (within : index < items.length) (later : List Item) :
    (items ++ later).modify index change = items.modify index change ++ later := by
  induction items generalizing index with
  | nil => cases within
  | cons item items ih =>
    cases index with
    | zero => rfl
    | succ index => exact congrArg (item :: ·) (ih (Nat.lt_of_succ_lt_succ within))

theorem set_eq_modify {Item : Type u} {Result : Type v} (read : Item → Result) (change : Result → Result)
    {items : List Item} {index : ℕ} {old new : Item} (found : items[index]? = some old)
    (changed : read new = change (read old)) :
    (items.set index new).map read = (items.map read).modify index change := by
  induction items generalizing index with
  | nil => cases found
  | cons item items ih =>
    cases index with
    | zero =>
      cases found
      exact congrArg (· :: items.map read) changed
    | succ index => exact congrArg (read item :: ·) (ih found)

theorem extendOpen_append {isOpen : Option ℕ} {runs : List (ToolRun Body)}
    (within : ∀ index, isOpen = some index → index < runs.length)
    (joined : List (NativeChatBlock Body)) (later : List (ToolRun Body)) :
    extendOpen isOpen joined (runs ++ later) = extendOpen isOpen joined runs ++ later := by
  cases isOpen with
  | none => rfl
  | some index =>
    unfold extendOpen
    rw [Option.elim_some, Option.elim_some, modify_append_of_lt _ (within index rfl)]

theorem rowRuns_join {index : ℕ} {assistant : NativeChatMessage Body}
    (found : state.output[index]? = some assistant) (message : NativeChatMessage Body)
    (blocks : List (NativeChatBlock Body)) (sourceRow : Option ℕ) :
    (state.join index assistant message blocks sourceRow).output.map rowRun =
      extendOpen (some index) blocks (state.output.map rowRun) := by
  apply set_eq_modify rowRun (ToolRun.extend blocks) found
  obtain ⟨sameId, _, sameMark, more⟩ := grown_spec assistant message blocks
  exact (ToolRun.mk.injEq ..).mpr ⟨sameId, sameMark, more⟩

theorem rowRuns_push (message : NativeChatMessage Body) (isOpen : Option ℕ) :
    (state.push message isOpen).output.map rowRun = state.output.map rowRun ++ [rowRun message] :=
  List.map_append

theorem extendOpen_last (runs : List (ToolRun Body)) (run : ToolRun Body)
    (joined : List (NativeChatBlock Body)) :
    extendOpen (some runs.length) joined (runs ++ [run]) =
      runs ++ [⟨run.id, run.marked, run.blocks ++ joined⟩] := by
  unfold extendOpen
  rw [Option.elim_some]
  induction runs with
  | nil => rfl
  | cons first runs ih => exact congrArg (first :: ·) ih

theorem open_within (ready : AssistantOpen state) (index : ℕ)
    (target : state.mutableAssistantIndex = some index) :
    index < (state.output.map rowRun).length := by
  obtain ⟨assistant, found, _⟩ := ready index target
  rw [List.length_map]
  exact lt_of_getElem?_eq_some found

/-- The rows of a fold are the runs of its messages. -/
theorem rowRuns_fold (ready : AssistantOpen state) (messages : List (NativeChatMessage Body)) :
    (messages.foldl (ToolFoldState.foldMessage toLowerCase) state).output.map rowRun =
      extendOpen state.mutableAssistantIndex
          (gatherRuns toLowerCase state.mutableAssistantIndex.isSome messages).1
          (state.output.map rowRun) ++
        (gatherRuns toLowerCase state.mutableAssistantIndex.isSome messages).2 := by
  induction messages generalizing state with
  | nil =>
    unfold gatherRuns
    rw [extendOpen_nil, List.append_nil]
    rfl
  | cons message messages ih =>
    have step : FoldStep toLowerCase state message (state.foldMessage toLowerCase message) :=
      foldStep ready message
    have rest := ih (assistantOpen_step ready step)
    rw [List.foldl_cons, rest]
    clear rest ih
    generalize state.foldMessage toLowerCase message = after at step
    cases step with
    | marked isMarked =>
      have own : rowRun message = ⟨message.id, true, message.blocks⟩ := by
        unfold rowRun
        rw [isMarked]
      rw [gatherRuns, if_pos isMarked, rowRuns_push, own]
      dsimp only
      rw [extendOpen_nil]
      exact List.append_assoc ..
    | sidecar index assistant unmarked target found isSidecar =>
      have own : rowRun { message with
          blocks := message.blocks.filter fun block => !block.isToolResult } =
            ⟨message.id, false, message.blocks.filter fun block => !block.isToolResult⟩ := by
        unfold rowRun
        rw [unmarked]
      have within : ∀ other, some index = some other → other < (extendOpen (some index)
          (message.blocks.filter NativeChatBlock.isToolResult)
          (state.output.map rowRun)).length := by
        rintro other ⟨⟩
        unfold extendOpen
        rw [Option.elim_some, List.length_modify]
        exact open_within ready index target
      rw [target, gatherRuns, if_neg (by simp [unmarked]), Option.isSome_some, Bool.true_and,
        if_pos isSidecar, rowRuns_push, rowRuns_join found, own]
      dsimp only
      rw [← extendOpen_extendOpen]
      refine (congrArg (· ++ _) (extendOpen_append within _ _)).trans ?_
      exact List.append_assoc ..
    | toolOnly index assistant unmarked target found noSidecar isToolOnly =>
      have after : (state.join index assistant message message.blocks none).mutableAssistantIndex =
          some index := target
      rw [after, target, gatherRuns, if_neg (by simp [unmarked]), Option.isSome_some,
        Bool.true_and, if_neg (by simp [noSidecar]), Bool.true_and, if_pos isToolOnly,
        rowRuns_join found]
      dsimp only
      rw [← extendOpen_extendOpen]
    | opened unmarked apart =>
      have own : rowRun message = ⟨message.id, false, message.blocks⟩ := by
        unfold rowRun
        rw [unmarked]
      have noSidecar : ¬ (state.mutableAssistantIndex.isSome &&
          isHarnessSidecarToolMessage toLowerCase message) = true := by
        intro both
        rw [Bool.and_eq_true] at both
        rw [(apart both.1).1] at both
        exact Bool.false_ne_true both.2
      have notToolOnly : ¬ (state.mutableAssistantIndex.isSome && isToolOnlyMessage message) =
          true := by
        intro both
        rw [Bool.and_eq_true] at both
        rw [(apart both.1).2] at both
        exact Bool.false_ne_true both.2
      rw [gatherRuns, if_neg (by simp [unmarked]), if_neg noSidecar, if_neg notToolOnly]
      unfold ToolFoldState.open'
      rw [rowRuns_push, own]
      by_cases role : message.role = .assistant
      · rw [if_pos role, if_pos role, extendOpen_nil]
        dsimp only [ToolFoldState.push]
        have last := extendOpen_last (state.output.map rowRun) ⟨message.id, false, message.blocks⟩
          (gatherRuns toLowerCase true messages).1
        rw [List.length_map] at last
        rw [Option.isSome_some, last]
        exact List.append_assoc ..
      · rw [if_neg role, if_neg role]
        by_cases ends : endsToolRun toLowerCase message = true
        · rw [if_pos ends]
          dsimp only [ToolFoldState.push]
          rw [ends, Bool.not_true, Bool.and_false, Option.isSome_none, gatherRuns_closed,
            extendOpen_nil, extendOpen_nil]
          exact List.append_assoc ..
        · rw [if_neg ends]
          rw [Bool.not_eq_true] at ends
          dsimp only [ToolFoldState.push]
          rw [ends, Bool.not_false, Bool.and_true, extendOpen_append (open_within ready)]
          exact List.append_assoc ..

theorem assistantOpen_initial : AssistantOpen (ToolFoldState.initial : ToolFoldState Body) :=
  fun _ target => by cases target

theorem rowRuns_eq_toolRuns (messages : List (NativeChatMessage Body)) :
    (messages.foldl (ToolFoldState.foldMessage toLowerCase) ToolFoldState.initial).output.map rowRun =
      toolRuns toLowerCase messages :=
  rowRuns_fold assistantOpen_initial messages

theorem gatherRuns_blocks (isOpen : Bool) (messages : List (NativeChatMessage Body)) :
    ((gatherRuns toLowerCase isOpen messages).1 ++
      (gatherRuns toLowerCase isOpen messages).2.flatMap ToolRun.blocks).Perm
        (messages.flatMap NativeChatMessage.blocks) := by
  induction messages generalizing isOpen with
  | nil => exact List.Perm.refl _
  | cons message messages ih =>
    have closed := ih false
    rw [gatherRuns_closed, List.nil_append] at closed
    unfold gatherRuns
    rw [List.flatMap_cons]
    split
    · exact closed.append_left _
    · split
      · have split := (List.filter_append_perm NativeChatBlock.isToolResult message.blocks).append
          (ih true)
        refine List.Perm.trans ?_ split
        dsimp only
        rw [List.flatMap_cons, List.append_assoc, List.append_assoc]
        apply List.Perm.append_left
        rw [← List.append_assoc, ← List.append_assoc]
        exact List.Perm.append_right _ List.perm_append_comm
      · split
        · dsimp only
          rw [List.append_assoc]
          exact (ih true).append_left _
        · split
          · dsimp only
            rw [List.nil_append, List.flatMap_cons, List.append_assoc]
            exact (ih true).append_left _
          · dsimp only
            rw [List.flatMap_cons]
            refine List.Perm.trans ?_ ((ih (isOpen && !endsToolRun toLowerCase message)).append_left _)
            rw [← List.append_assoc, ← List.append_assoc]
            exact List.Perm.append_right _ List.perm_append_comm

theorem toolRuns_blocks (messages : List (NativeChatMessage Body)) :
    ((toolRuns toLowerCase messages).flatMap ToolRun.blocks).Perm
      (messages.flatMap NativeChatMessage.blocks) := by
  have blocks := @gatherRuns_blocks Body toLowerCase false messages
  rw [gatherRuns_closed, List.nil_append] at blocks
  exact blocks

end Refinement

section Sources

/-- Contributions that start where those before them end. -/
def Consecutive (start : ℕ) : List (ToolContribution Body) → Prop
  | [] => True
  | contribution :: rest =>
    contribution.start = start ∧ Consecutive (start + contribution.blocks.length) rest

/-- The contributions to a row: its own message first, then the ones that joined. -/
structure RowParts (index : ℕ) (row : NativeChatMessage Body)
    (parts : List (ToolContribution Body)) : Prop where
  blocks : parts.flatMap ToolContribution.blocks = row.blocks
  starts : Consecutive 0 parts
  own : ∃ own, parts.head? = some own ∧ own.source.id = row.id ∧ own.sourceRow = some index ∧
    own.insertAt = index + 1

/-- The source of a part that joined is gone, or is a row that no results are left in. -/
structure JoinedPart (output : List (NativeChatMessage Body)) (part : ToolContribution Body) :
    Prop where
  insertAt : part.insertAt ≤ output.length
  source : (part.sourceRow = none ∧ ∀ row ∈ output, row.id ≠ part.source.id) ∨
    ∃ index row, part.sourceRow = some index ∧ output[index]? = some row ∧
      row.id = part.source.id ∧ row.role ≠ .assistant ∧
      row.blocks.any NativeChatBlock.isToolResult = false

def joinedParts (state : ToolFoldState Body) (index : ℕ) : List (ToolContribution Body) :=
  ((state.sources.get? index).getD []).tail

/-- What a fold records of the sources of its rows. -/
structure Sourced (seen : List Text) (state : ToolFoldState Body) : Prop where
  distinct : (state.output.map NativeChatMessage.id).Nodup
  known : ∀ row ∈ state.output, row.id ∈ seen
  beyond : ∀ index, state.output.length ≤ index → state.sources.get? index = none
  parts : ∀ index row, state.output[index]? = some row →
    RowParts index row (contributorsOf state.sources index row)
  joined : ∀ index, ∀ part ∈ joinedParts state index,
    JoinedPart state.output part ∧ part.source.id ∈ seen
  joinedDistinct : ∀ index, ((joinedParts state index).map fun part => part.source.id).Nodup
  joinedApart : ∀ index other, index ≠ other → ∀ part ∈ joinedParts state index,
    ∀ otherPart ∈ joinedParts state other, part.source.id ≠ otherPart.source.id

variable {state : ToolFoldState Body} {seen : List Text}

theorem sourced_initial : Sourced [] (ToolFoldState.initial : ToolFoldState Body) where
  distinct := List.nodup_nil
  known _ member := (List.not_mem_nil member).elim
  beyond _ _ := rfl
  parts _ _ found := by cases found
  joined _ _ member := (List.not_mem_nil member).elim
  joinedDistinct _ := List.nodup_nil
  joinedApart _ _ _ _ member := (List.not_mem_nil member).elim

theorem rowParts_default (index : ℕ) (row : NativeChatMessage Body) :
    RowParts index row [⟨row, row.blocks, 0, index + 1, some index⟩] where
  blocks := List.append_nil _
  starts := ⟨rfl, trivial⟩
  own := ⟨_, rfl, rfl, rfl, rfl⟩

theorem JoinedPart.push {output : List (NativeChatMessage Body)} {part : ToolContribution Body}
    (joined : JoinedPart output part) {message : NativeChatMessage Body}
    (fresh : message.id ≠ part.source.id) : JoinedPart (output ++ [message]) part where
  insertAt := by
    rw [List.length_append]
    exact Nat.le_add_right_of_le joined.insertAt
  source := by
    rcases joined.source with ⟨gone, absent⟩ | ⟨index, row, here, found, rest⟩
    · refine Or.inl ⟨gone, fun row member => ?_⟩
      rcases List.mem_append.mp member with old | new
      · exact absent row old
      · rw [List.mem_singleton.mp new]
        exact fresh
    · refine Or.inr ⟨index, row, here, ?_, rest⟩
      exact (List.getElem?_append_left (lt_of_getElem?_eq_some found)).trans found

theorem Sourced.push (sourced : Sourced seen state) {message : NativeChatMessage Body}
    (fresh : message.id ∉ seen) (isOpen : Option ℕ) :
    Sourced (message.id :: seen) (state.push message isOpen) where
  distinct := by
    unfold ToolFoldState.push
    rw [List.map_append]
    refine List.nodup_append.mpr ⟨sourced.distinct, List.nodup_singleton _, ?_⟩
    intro id inside other new same
    obtain ⟨row, member, rfl⟩ := List.mem_map.mp inside
    rw [List.map_singleton, List.mem_singleton] at new
    exact fresh (new ▸ same ▸ sourced.known row member)
  known row member := by
    rcases List.mem_append.mp member with old | new
    · exact List.mem_cons_of_mem _ (sourced.known row old)
    · rw [List.mem_singleton.mp new]
      exact List.mem_cons_self
  beyond index beyond := by
    refine sourced.beyond index (Nat.le_trans ?_ beyond)
    unfold ToolFoldState.push
    rw [List.length_append]
    exact Nat.le_add_right _ _
  parts index row found := by
    rcases Nat.lt_trichotomy index state.output.length with earlier | here | later
    · have old : state.output[index]? = some row :=
        (List.getElem?_append_left earlier).symm.trans found
      exact sourced.parts index row old
    · subst here
      have new : row = message := by
        have last := List.getElem?_concat_length.symm.trans found
        exact (Option.some.inj last).symm
      have own : contributorsOf state.sources state.output.length row =
          [⟨row, row.blocks, 0, state.output.length + 1, some state.output.length⟩] := by
        unfold contributorsOf
        rw [sourced.beyond _ (le_refl _)]
        rfl
      have parts := rowParts_default state.output.length row
      rw [← own] at parts
      exact parts
    · have none : (state.output ++ [message])[index]? = none := by
        apply List.getElem?_eq_none
        rw [List.length_append]
        exact later
      have absurd := none.symm.trans found
      cases absurd
  joined index part member := by
    obtain ⟨joined, isSeen⟩ := sourced.joined index part member
    refine ⟨joined.push ?_, List.mem_cons_of_mem _ isSeen⟩
    rintro same
    exact fresh (same ▸ isSeen)
  joinedDistinct := sourced.joinedDistinct
  joinedApart := sourced.joinedApart

theorem joinedParts_eq_tail (state : ToolFoldState Body) (index : ℕ)
    (row : NativeChatMessage Body) :
    joinedParts state index = (contributorsOf state.sources index row).tail := by
  unfold joinedParts contributorsOf
  cases state.sources.get? index with
  | none => rfl
  | some contributors => rfl

theorem consecutive_append {start : ℕ} {front back : List (ToolContribution Body)}
    (first : Consecutive start front)
    (second : Consecutive (start + (front.flatMap ToolContribution.blocks).length) back) :
    Consecutive start (front ++ back) := by
  induction front generalizing start with
  | nil => exact second
  | cons contribution front ih =>
    refine ⟨first.1, ih first.2 ?_⟩
    rw [List.flatMap_cons, List.length_append, ← Nat.add_assoc] at second
    exact second

section Join

variable {index : ℕ} {assistant message : NativeChatMessage Body}
  {blocks : List (NativeChatBlock Body)} {insertAt : ℕ} {sourceRow : Option ℕ}

/-- Blocks of a message at the end of a row, on record. -/
def joinAt (state : ToolFoldState Body) (index : ℕ) (assistant message : NativeChatMessage Body)
    (blocks : List (NativeChatBlock Body)) (insertAt : ℕ) (sourceRow : Option ℕ) :
    ToolFoldState Body :=
  { state with
    sources := state.sources.append index assistant message blocks insertAt sourceRow
    output := state.output.set index (grown assistant message blocks) }

def newPart (assistant message : NativeChatMessage Body) (blocks : List (NativeChatBlock Body))
    (insertAt : ℕ) (sourceRow : Option ℕ) : ToolContribution Body :=
  ⟨message, blocks, assistant.blocks.length, insertAt, sourceRow⟩

theorem contributorsOf_joinAt (state : ToolFoldState Body) (other : ℕ)
    (row : NativeChatMessage Body) :
    contributorsOf (joinAt state index assistant message blocks insertAt sourceRow).sources other row =
      if other = index then
        contributorsOf state.sources index assistant ++
          [newPart assistant message blocks insertAt sourceRow]
      else contributorsOf state.sources other row := by
  unfold joinAt FoldedToolResultSources.append
  by_cases same : other = index
  · subst same
    rw [if_pos rfl, contributorsOf, JsMap.get?_set_self]
    rfl
  · rw [if_neg same, contributorsOf, JsMap.get?_set_of_ne _ _ same]
    rfl

theorem joinedParts_joinAt (sourced : Sourced seen state)
    (found : state.output[index]? = some assistant) (other : ℕ) :
    joinedParts (joinAt state index assistant message blocks insertAt sourceRow) other =
      if other = index then
        joinedParts state index ++ [newPart assistant message blocks insertAt sourceRow]
      else joinedParts state other := by
  rw [joinedParts_eq_tail _ other assistant, contributorsOf_joinAt]
  by_cases same : other = index
  · rw [if_pos same, if_pos same, joinedParts_eq_tail state index assistant]
    obtain ⟨own, head, _⟩ := (sourced.parts index assistant found).own
    obtain ⟨rest, parts⟩ := List.head?_eq_some_iff.mp head
    rw [parts]
    rfl
  · rw [if_neg same, if_neg same, joinedParts_eq_tail state other assistant]

theorem JoinedPart.set {output : List (NativeChatMessage Body)} {part : ToolContribution Body}
    (joined : JoinedPart output part) (found : output[index]? = some assistant)
    (role : assistant.role = .assistant) :
    JoinedPart (output.set index (grown assistant message blocks)) part where
  insertAt := by
    rw [List.length_set]
    exact joined.insertAt
  source := by
    rcases joined.source with ⟨gone, absent⟩ | ⟨other, row, here, otherFound, named, notAssistant, bare⟩
    · refine Or.inl ⟨gone, fun row member => ?_⟩
      rcases List.mem_or_eq_of_mem_set member with old | new
      · exact absent row old
      · rw [new, (grown_spec assistant message blocks).1]
        exact absent assistant (List.mem_of_getElem? found)
    · refine Or.inr ⟨other, row, here, ?_, named, notAssistant, bare⟩
      have different : index ≠ other := by
        rintro rfl
        rw [found] at otherFound
        cases otherFound
        exact notAssistant role
      rw [List.getElem?_set_ne different]
      exact otherFound

/-- Blocks that join an assistant row, from a source that joined none before. -/
theorem Sourced.join (sourced : Sourced seen state)
    (found : state.output[index]? = some assistant) (role : assistant.role = .assistant)
    (isSeen : message.id ∈ seen)
    (new : JoinedPart state.output (newPart assistant message blocks insertAt sourceRow))
    (fresh : ∀ other, ∀ part ∈ joinedParts state other, part.source.id ≠ message.id) :
    Sourced seen (joinAt state index assistant message blocks insertAt sourceRow) := by
  have within := lt_of_getElem?_eq_some found
  have sameIds : (joinAt state index assistant message blocks insertAt sourceRow).output.map
      NativeChatMessage.id = state.output.map NativeChatMessage.id := by
    refine (set_eq_modify NativeChatMessage.id id found ?_).trans (List.modify_id _ _)
    exact (grown_spec assistant message blocks).1
  have partsAfter : ∀ other,
      joinedParts (joinAt state index assistant message blocks insertAt sourceRow) other =
        if other = index then
          joinedParts state index ++ [newPart assistant message blocks insertAt sourceRow]
        else joinedParts state other := joinedParts_joinAt sourced found
  refine ⟨?_, ?_, ?_, ?_, ?_, ?_, ?_⟩
  · rw [sameIds]
    exact sourced.distinct
  · intro row member
    rcases List.mem_or_eq_of_mem_set member with old | new
    · exact sourced.known row old
    · rw [new, (grown_spec assistant message blocks).1]
      exact sourced.known assistant (List.mem_of_getElem? found)
  · intro other beyond
    unfold joinAt at beyond ⊢
    rw [List.length_set] at beyond
    have different : other ≠ index := by omega
    exact (JsMap.get?_set_of_ne _ _ different).trans (sourced.beyond other beyond)
  · intro other row otherFound
    rw [contributorsOf_joinAt]
    by_cases same : other = index
    · subst same
      have isGrown : row = grown assistant message blocks := by
        have here : (joinAt state other assistant message blocks insertAt sourceRow).output[other]? =
            some (grown assistant message blocks) := List.getElem?_set_self within
        rw [here] at otherFound
        exact (Option.some.inj otherFound).symm
      subst isGrown
      obtain ⟨sameId, _, _, more⟩ := grown_spec assistant message blocks
      have parts := sourced.parts other assistant found
      rw [if_pos rfl]
      refine ⟨?_, ?_, ?_⟩
      · rw [List.flatMap_append, parts.blocks, more]
        exact congrArg (assistant.blocks ++ ·) (List.append_nil _)
      · apply consecutive_append parts.starts
        rw [parts.blocks, Nat.zero_add]
        exact ⟨rfl, trivial⟩
      · obtain ⟨own, head, named, rest⟩ := parts.own
        refine ⟨own, ?_, named.trans sameId.symm, rest⟩
        rw [List.head?_append, head]
        rfl
    · rw [if_neg same]
      apply sourced.parts other row
      have kept : (joinAt state index assistant message blocks insertAt sourceRow).output[other]? =
          state.output[other]? := List.getElem?_set_ne fun equal => same equal.symm
      exact kept.symm.trans otherFound
  · intro other part member
    rw [partsAfter] at member
    have old : ∀ other, part ∈ joinedParts state other → JoinedPart (joinAt state index assistant
        message blocks insertAt sourceRow).output part ∧ part.source.id ∈ seen := by
      intro other inside
      obtain ⟨joined, isSeen⟩ := sourced.joined other part inside
      exact ⟨joined.set found role, isSeen⟩
    split at member
    · rcases List.mem_append.mp member with inside | isNew
      · exact old index inside
      · rw [List.mem_singleton.mp isNew]
        exact ⟨new.set found role, isSeen⟩
    · exact old other member
  · intro other
    rw [partsAfter]
    split
    · rw [List.map_append]
      refine List.nodup_append.mpr ⟨sourced.joinedDistinct index, List.nodup_singleton _, ?_⟩
      intro id inside otherId isNew same
      obtain ⟨part, member, rfl⟩ := List.mem_map.mp inside
      rw [List.map_singleton, List.mem_singleton] at isNew
      exact fresh index part member (same.trans isNew)
    · exact sourced.joinedDistinct other
  · intro first second different part member otherPart otherMember
    rw [partsAfter] at member otherMember
    split at member
    · next isFirst =>
      rw [if_neg (by omega)] at otherMember
      rcases List.mem_append.mp member with inside | isNew
      · exact sourced.joinedApart index second (by omega) part inside otherPart otherMember
      · rw [List.mem_singleton.mp isNew]
        exact (fresh second otherPart otherMember).symm
    · next notFirst =>
      split at otherMember
      · rcases List.mem_append.mp otherMember with inside | isNew
        · exact sourced.joinedApart first index notFirst part member otherPart inside
        · rw [List.mem_singleton.mp isNew]
          exact fresh first part member
      · exact sourced.joinedApart first second different part member otherPart otherMember

end Join

theorem Sourced.fresh (sourced : Sourced seen state) {id : Text} (fresh : id ∉ seen) (index : ℕ) :
    ∀ part ∈ joinedParts state index, part.source.id ≠ id := by
  rintro part member rfl
  exact fresh (sourced.joined index part member).2

theorem Sourced.mono (sourced : Sourced seen state) {more : List Text} (within : seen ⊆ more) :
    Sourced more state where
  distinct := sourced.distinct
  known row member := within (sourced.known row member)
  beyond := sourced.beyond
  parts := sourced.parts
  joined index part member :=
    ⟨(sourced.joined index part member).1, within (sourced.joined index part member).2⟩
  joinedDistinct := sourced.joinedDistinct
  joinedApart := sourced.joinedApart

theorem sidecar_role {message : NativeChatMessage Body}
    (isSidecar : isHarnessSidecarToolMessage toLowerCase message = true) : message.role = .user := by
  unfold isHarnessSidecarToolMessage at isSidecar
  split at isSidecar
  · cases isSidecar
  · next rest =>
    simp only [ne_eq, Bool.or_eq_true, decide_eq_true_eq, not_or, not_not] at rest
    exact rest.1.1

theorem sourced_step (sourced : Sourced seen state) (ready : AssistantOpen state)
    {message : NativeChatMessage Body} (fresh : message.id ∉ seen) {after : ToolFoldState Body}
    (step : FoldStep toLowerCase state message after) : Sourced (message.id :: seen) after := by
  cases step with
  | marked isMarked => exact sourced.push fresh none
  | opened unmarked apart => exact sourced.push fresh _
  | toolOnly index assistant unmarked target found noSidecar isToolOnly =>
    obtain ⟨_, foundAgain, role, _⟩ := ready index target
    rw [found] at foundAgain
    cases foundAgain
    refine (sourced.mono (List.subset_cons_self message.id seen)).join found role
      List.mem_cons_self ⟨le_refl _, Or.inl ⟨rfl, fun row member same => ?_⟩⟩
      fun other => sourced.fresh fresh other
    exact fresh (same ▸ sourced.known row member)
  | sidecar index assistant unmarked target found isSidecar =>
    obtain ⟨_, foundAgain, role, _⟩ := ready index target
    rw [found] at foundAgain
    cases foundAgain
    have within := lt_of_getElem?_eq_some found
    -- the row is pushed first: the two writes touch different rows
    generalize restIs : { message with
      blocks := message.blocks.filter fun block => !block.isToolResult } = rest
    have restId : rest.id = message.id := by rw [← restIs]
    have pushed := @Sourced.push _ _ _ sourced rest (restId ▸ fresh) (some index)
    have swapped : (state.join index assistant message
        (message.blocks.filter NativeChatBlock.isToolResult) (some state.output.length)).push rest
          (some index) =
        joinAt (state.push rest (some index)) index assistant message
          (message.blocks.filter NativeChatBlock.isToolResult) state.output.length
          (some state.output.length) := by
      unfold joinAt ToolFoldState.push ToolFoldState.join
      rw [List.set_append_left _ _ within]
      rfl
    rw [swapped, ← restId]
    have foundAfter : (state.push rest (some index)).output[index]? = some assistant :=
      (List.getElem?_append_left within).trans found
    refine pushed.join foundAfter role (restId ▸ List.mem_cons_self) ⟨?_, Or.inr ⟨_, rest, rfl,
      List.getElem?_concat_length, restId, ?_, ?_⟩⟩ fun other => sourced.fresh fresh other
    · unfold ToolFoldState.push
      rw [List.length_append]
      exact Nat.le_add_right _ _
    · rw [← restIs, sidecar_role isSidecar]
      exact fun same => by cases same
    · rw [← restIs, List.any_eq_false]
      intro block member
      have kept := (List.mem_filter.mp member).2
      simpa using kept

theorem sourced_fold (sourced : Sourced seen state) (ready : AssistantOpen state)
    {messages : List (NativeChatMessage Body)}
    (distinct : (messages.map NativeChatMessage.id).Nodup)
    (fresh : ∀ message ∈ messages, message.id ∉ seen) :
    Sourced ((messages.map NativeChatMessage.id).reverse ++ seen)
      (messages.foldl (ToolFoldState.foldMessage toLowerCase) state) := by
  induction messages generalizing state seen with
  | nil => exact sourced
  | cons message messages ih =>
    rw [List.map_cons, List.nodup_cons] at distinct
    have step : FoldStep toLowerCase state message (state.foldMessage toLowerCase message) :=
      foldStep ready message
    have rest := ih (sourced_step sourced ready (fresh message List.mem_cons_self) step)
      (assistantOpen_step ready step) distinct.2 fun other member => by
        rw [List.mem_cons, not_or]
        refine ⟨fun same => distinct.1 ?_, fresh other (List.mem_cons_of_mem _ member)⟩
        exact same ▸ List.mem_map_of_mem member
    rw [List.map_cons, List.reverse_cons, List.append_assoc]
    exact rest

end Sources

end OxeeUI.Chat
