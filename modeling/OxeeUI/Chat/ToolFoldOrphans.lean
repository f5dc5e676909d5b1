import OxeeUI.Chat.ToolFoldRows
import OxeeUI.Library.Buckets

/-!
# Orphan rows

The named results that leave a row get rows of their own, whose ids are fresh
unless their source is drawn no more.
-/

namespace OxeeUI.Chat

open OxeeUI.Library

universe u

variable {Body : Type u}

section Row

def keptBlocks (row : NativeChatMessage Body) : List (NativeChatBlock Body) :=
  if row.unpairedToolResults then row.blocks
  else pick not row.blocks (aloneFlags [] row.blocks)

def leavingBlocks (row : NativeChatMessage Body) : List (NativeChatBlock Body) :=
  if row.unpairedToolResults then [] else pick id row.blocks (aloneFlags [] row.blocks)

def isNamedResult : NativeChatBlock Body → Bool
  | .toolResult result => result.callId.isSome
  | _ => false

theorem flags_of_no_results {blocks : List (NativeChatBlock Body)}
    (none : blocks.any NativeChatBlock.isToolResult = false)
    (pairs : List (NativeChatToolPair Body)) (index : ℕ) :
    flaggedFrom index (aloneFlags pairs blocks) = [] := by
  induction blocks generalizing pairs index with
  | nil => rfl
  | cons block blocks ih =>
    rw [List.any_cons, Bool.or_eq_false_iff] at none
    have notAlone : standsAlone pairs block = false := by
      cases block with
      | toolResult result => cases none.1
      | _ => rfl
    rw [aloneFlags, notAlone, flaggedFrom, ih none.2]
    rfl

theorem rowUnpaired_of_unmarked {row : NativeChatMessage Body}
    (unmarked : row.unpairedToolResults = false) :
    rowUnpaired row = flaggedFrom 0 (aloneFlags [] row.blocks) := by
  unfold rowUnpaired
  rw [unmarked, Bool.false_or]
  by_cases results : row.blocks.any NativeChatBlock.isToolResult = true
  · rw [results, if_neg (by simp)]
    exact unpairedToolResultIndices_eq row.blocks
  · rw [Bool.not_eq_true] at results
    rw [results, Bool.not_false, if_pos rfl]
    exact (flags_of_no_results results [] 0).symm

theorem rowUnpaired_of_marked {row : NativeChatMessage Body}
    (marked : row.unpairedToolResults = true) : rowUnpaired row = [] := by
  unfold rowUnpaired
  rw [marked]
  rfl

theorem results_of_rowUnpaired {row : NativeChatMessage Body} (some : rowUnpaired row ≠ []) :
    row.blocks.any NativeChatBlock.isToolResult = true := by
  by_contra none
  rw [Bool.not_eq_true] at none
  apply some
  unfold rowUnpaired
  rw [none, Bool.not_false, Bool.or_true]
  rfl

theorem pick_of_no_flags (keep : Bool → Bool) {blocks : List (NativeChatBlock Body)}
    {flags : List Bool} {index : ℕ} (enough : blocks.length ≤ flags.length)
    (none : flaggedFrom index flags = []) :
    pick keep blocks flags = if keep false then blocks else [] := by
  induction blocks generalizing flags index with
  | nil =>
    have empty : pick keep ([] : List (NativeChatBlock Body)) flags = [] := by
      unfold pick
      rfl
    rw [empty]
    split
    · rfl
    · rfl
  | cons block blocks ih =>
    cases flags with
    | nil => cases enough
    | cons flag flags =>
      rw [flaggedFrom, List.append_eq_nil_iff] at none
      have unflagged : flag = false := by
        cases flag with
        | false => rfl
        | true => exact absurd none.1 (by simp)
      subst unflagged
      rw [pick, ih (Nat.le_of_succ_le_succ enough) none.2]
      split
      · rfl
      · rfl

/-- A retained row holds what stays of it, and is left out when nothing does. -/
theorem retainedRow_spec (row : NativeChatMessage Body) :
    (rowUnpaired row = [] ∧ retainedRow row = some row ∧ keptBlocks row = row.blocks) ∨
      (keptBlocks row = [] ∧ retainedRow row = none) ∨
      retainedRow row = some { row with blocks := keptBlocks row } := by
  by_cases marked : row.unpairedToolResults = true
  · refine Or.inl ⟨rowUnpaired_of_marked marked, ?_, ?_⟩
    · unfold retainedRow
      dsimp only
      rw [rowUnpaired_of_marked marked, if_pos rfl]
    · unfold keptBlocks
      rw [if_pos marked]
  · rw [Bool.not_eq_true] at marked
    have unpaired := rowUnpaired_of_unmarked marked
    have enough : row.blocks.length ≤ (aloneFlags [] row.blocks).length :=
      le_of_eq (length_aloneFlags [] row.blocks).symm
    have kept : keptBlocks row = pick not row.blocks (aloneFlags [] row.blocks) := by
      unfold keptBlocks
      rw [if_neg (by simp [marked])]
    by_cases none : rowUnpaired row = []
    · refine Or.inl ⟨none, ?_, ?_⟩
      · unfold retainedRow
        dsimp only
        rw [if_pos none]
      · rw [kept, pick_of_no_flags not enough (unpaired.symm.trans none)]
        rfl
    · have filtered : filterByIndex (fun index => !(rowUnpaired row).contains index) row.blocks =
          keptBlocks row := by
        rw [kept]
        refine filterByIndex_eq_pick enough fun index => ?_
        rw [unpaired]
        have flag := contains_flaggedFrom 0 index (aloneFlags [] row.blocks)
        rw [Nat.zero_add] at flag
        rw [flag]
      unfold retainedRow
      dsimp only
      rw [if_neg none, filtered]
      by_cases empty : keptBlocks row = []
      · rw [if_pos empty]
        exact Or.inr (Or.inl ⟨empty, rfl⟩)
      · rw [if_neg empty]
        exact Or.inr (Or.inr rfl)

theorem retainedRow_blocks (row : NativeChatMessage Body) :
    (retainedRow row).toList.flatMap NativeChatMessage.blocks = keptBlocks row := by
  rcases retainedRow_spec row with ⟨_, retained, kept⟩ | ⟨kept, retained⟩ | retained
  · rw [retained, kept]
    exact List.append_nil _
  · rw [retained, kept]
    rfl
  · rw [retained]
    exact List.append_nil _

theorem retainedRow_id {row retained : NativeChatMessage Body}
    (isRetained : retainedRow row = some retained) : retained.id = row.id := by
  rcases retainedRow_spec row with ⟨_, same, _⟩ | ⟨_, same⟩ | same
  · rw [same] at isRetained
    cases isRetained
    rfl
  · rw [same] at isRetained
    cases isRetained
  · rw [same] at isRetained
    cases isRetained
    rfl

/-- The orphans of the parts of a row are the named blocks that leave it. -/
theorem orphanBlocks_parts {row : NativeChatMessage Body}
    (unmarked : row.unpairedToolResults = false) {index : ℕ}
    {parts : List (ToolContribution Body)} (made : RowParts index row parts) :
    parts.flatMap (orphanBlocks (rowUnpaired row)) = (leavingBlocks row).filter isNamedResult := by
  have leaving : leavingBlocks row = pick id row.blocks (aloneFlags [] row.blocks) := by
    unfold leavingBlocks
    rw [if_neg (by simp [unmarked])]
  rw [leaving, rowUnpaired_of_unmarked unmarked, ← made.blocks]
  generalize flagsAre : aloneFlags [] (parts.flatMap ToolContribution.blocks) = flags
  have enough : (parts.flatMap ToolContribution.blocks).length ≤ flags.length := by
    rw [← flagsAre, length_aloneFlags]
  have split : ∀ (parts : List (ToolContribution Body)) (start : ℕ), Consecutive start parts →
      start + (parts.flatMap ToolContribution.blocks).length ≤ flags.length →
      parts.flatMap (orphanBlocks (flaggedFrom 0 flags)) =
        (pick id (parts.flatMap ToolContribution.blocks) (flags.drop start)).filter isNamedResult := by
    intro parts
    induction parts with
    | nil =>
      intro start _ _
      cases flags.drop start with
      | nil => rfl
      | cons flag rest => rfl
    | cons part parts ih =>
      intro start starts room
      rw [List.flatMap_cons, List.length_append] at room
      have own : filterByIndex
          (fun offset => (flaggedFrom 0 flags).contains (part.start + offset)) part.blocks =
            pick id part.blocks (flags.drop start) := by
        refine filterByIndex_eq_pick (by rw [List.length_drop]; omega) fun offset => ?_
        have flag := contains_flaggedFrom 0 (start + offset) flags
        rw [Nat.zero_add] at flag
        rw [starts.1, flag, List.getD_eq_getElem?_getD, List.getD_eq_getElem?_getD,
          List.getElem?_drop]
        rfl
      have rest := ih (start + part.blocks.length) starts.2 (by omega)
      rw [List.flatMap_cons, List.flatMap_cons,
        pick_append id part.blocks _ (by rw [List.length_drop]; omega), List.filter_append, rest,
        List.drop_drop]
      refine congrArg (· ++ _) ?_
      unfold orphanBlocks
      rw [own]
      refine List.filter_congr fun block _ => ?_
      cases block with
      | toolResult result => rfl
      | _ => rfl
  have all := split parts 0 made.starts (by rw [Nat.zero_add]; exact enough)
  rwa [List.drop_zero] at all

end Row

section Scan

/-- A contribution to a row, and the unpaired results of that row. -/
structure OrphanJob (Body : Type u) where
  unpaired : List ℕ
  part : ToolContribution Body

def OrphanJob.blocks (job : OrphanJob Body) : List (NativeChatBlock Body) :=
  orphanBlocks job.unpaired job.part

def OrphanJob.draws (retained : List (Option (NativeChatMessage Body))) (job : OrphanJob Body) :
    Bool := job.part.sourceRow.any fun row => (retained[row]?.join).isSome

def OrphanJob.run (retained : List (Option (NativeChatMessage Body))) (scan : OrphanScan Body)
    (job : OrphanJob Body) : OrphanScan Body := scan.contribute retained job.unpaired job.part

theorem generatedRowId_injective {sourceId : Text} (first second : ℕ)
    (same : generatedRowId sourceId first = generatedRowId sourceId second) : first = second := by
  unfold generatedRowId at same
  have inner := List.append_cancel_right same
  exact decimalText_injective (List.append_cancel_left inner)

theorem freeOccurrence_free (allocated : List Text) (sourceId : Text) (occurrence : ℕ) :
    generatedRowId sourceId (freeOccurrence allocated sourceId occurrence) ∉ allocated := by
  obtain ⟨candidate, member, free⟩ := exists_free_name
    (@generatedRowId_injective sourceId) allocated occurrence
  have isFree : (!allocated.contains (generatedRowId sourceId candidate)) = true := by
    rw [Bool.not_eq_true', List.contains_eq_mem, decide_eq_false_iff_not]
    exact free
  unfold freeOccurrence
  cases found : ((List.range (allocated.length + 1)).map (occurrence + ·)).find? fun candidate =>
      !allocated.contains (generatedRowId sourceId candidate) with
  | none =>
    have missed := List.find?_eq_none.mp found candidate member
    exact absurd isFree missed
  | some first =>
    have holds := List.find?_some found
    rw [Bool.not_eq_true', List.contains_eq_mem, decide_eq_false_iff_not] at holds
    exact holds

/-- What the jobs done so far made: orphan rows by the place they go to. -/
structure Scanned (retained : List (Option (NativeChatMessage Body))) (sourceIds : List Text)
    (past : List (OrphanJob Body)) (scan : OrphanScan Body)
    (made : List (ℕ × NativeChatMessage Body)) : Prop where
  orphans : ∀ key, (scan.orphans.get? key).getD [] = bucket made key
  sources : ∀ id ∈ sourceIds, id ∈ scan.allocatedIds
  allocated : ∀ entry ∈ made, entry.2.id ∈ scan.allocatedIds
  blocks : made.flatMap (fun entry => entry.2.blocks) = past.flatMap OrphanJob.blocks
  insertAt : ∀ entry ∈ made, ∃ job ∈ past, entry.1 = job.part.insertAt
  distinct : (made.map fun entry => entry.2.id).Nodup
  names : ∀ entry ∈ made, entry.2.id ∉ sourceIds ∨
    ∃ job ∈ past, entry.2.id = job.part.source.id ∧ job.draws retained = false

variable {retained : List (Option (NativeChatMessage Body))} {sourceIds : List Text}
  {past : List (OrphanJob Body)} {scan : OrphanScan Body}
  {made : List (ℕ × NativeChatMessage Body)}

theorem Scanned.place (scanned : Scanned retained sourceIds past scan made) (job : OrphanJob Body)
    (orphan : NativeChatMessage Body) (blocks : orphan.blocks = job.blocks)
    (occurrences : JsMap Text ℕ)
    (fresh : ∀ entry ∈ made, entry.2.id ≠ orphan.id)
    (named : orphan.id ∉ sourceIds ∨
      orphan.id = job.part.source.id ∧ job.draws retained = false) :
    Scanned retained sourceIds (past ++ [job])
      ⟨scan.allocatedIds ++ [orphan.id], occurrences, scan.place job.part.insertAt orphan⟩
      (made ++ [(job.part.insertAt, orphan)]) where
  orphans key := by
    dsimp only [OrphanScan.place]
    rw [bucket_append]
    by_cases same : key = job.part.insertAt
    · subst same
      rw [JsMap.get?_set_self, Option.getD_some, scanned.orphans]
      simp [bucket]
    · rw [JsMap.get?_set_of_ne _ _ same, scanned.orphans]
      have other : ¬ job.part.insertAt = key := fun equal => same equal.symm
      simp [bucket, other]
  sources id member := List.mem_append_left _ (scanned.sources id member)
  allocated entry member := by
    rcases List.mem_append.mp member with old | new
    · exact List.mem_append_left _ (scanned.allocated entry old)
    · rw [List.mem_singleton.mp new]
      exact List.mem_append_right _ List.mem_cons_self
  blocks := by
    rw [List.flatMap_append, List.flatMap_append, scanned.blocks, List.flatMap_singleton,
      List.flatMap_singleton, blocks]
  insertAt entry member := by
    rcases List.mem_append.mp member with old | new
    · obtain ⟨earlier, inside, same⟩ := scanned.insertAt entry old
      exact ⟨earlier, List.mem_append_left _ inside, same⟩
    · rw [List.mem_singleton.mp new]
      exact ⟨job, List.mem_append_right _ List.mem_cons_self, rfl⟩
  distinct := by
    rw [List.map_append]
    refine List.nodup_append.mpr ⟨scanned.distinct, List.nodup_singleton _, ?_⟩
    intro id inside other new same
    obtain ⟨entry, member, rfl⟩ := List.mem_map.mp inside
    rw [List.map_singleton, List.mem_singleton] at new
    exact fresh entry member (same.trans new)
  names entry member := by
    rcases List.mem_append.mp member with old | new
    · rcases scanned.names entry old with foreign | ⟨earlier, inside, facts⟩
      · exact Or.inl foreign
      · exact Or.inr ⟨earlier, List.mem_append_left _ inside, facts⟩
    · rw [List.mem_singleton.mp new]
      rcases named with foreign | facts
      · exact Or.inl foreign
      · exact Or.inr ⟨job, List.mem_append_right _ List.mem_cons_self, facts⟩

theorem Scanned.skip (scanned : Scanned retained sourceIds past scan made) {job : OrphanJob Body}
    (none : job.blocks = []) : Scanned retained sourceIds (past ++ [job]) scan made where
  orphans := scanned.orphans
  sources := scanned.sources
  allocated := scanned.allocated
  blocks := by
    rw [List.flatMap_append, List.flatMap_singleton, none, List.append_nil]
    exact scanned.blocks
  insertAt entry member := by
    obtain ⟨earlier, inside, same⟩ := scanned.insertAt entry member
    exact ⟨earlier, List.mem_append_left _ inside, same⟩
  distinct := scanned.distinct
  names entry member := by
    rcases scanned.names entry member with foreign | ⟨earlier, inside, facts⟩
    · exact Or.inl foreign
    · exact Or.inr ⟨earlier, List.mem_append_left _ inside, facts⟩

theorem Scanned.step (scanned : Scanned retained sourceIds past scan made) {job : OrphanJob Body}
    (isSource : job.part.source.id ∈ sourceIds)
    (apart : ∀ earlier ∈ past, earlier.part.source.id ≠ job.part.source.id) :
    ∃ after, Scanned retained sourceIds (past ++ [job]) (job.run retained scan) after := by
  unfold OrphanJob.run OrphanScan.contribute
  dsimp only
  by_cases none : orphanBlocks job.unpaired job.part = []
  · rw [if_pos none]
    exact ⟨made, scanned.skip none⟩
  · rw [if_neg none]
    unfold OrphanScan.rowId
    by_cases draws : job.draws retained = true
    · have drawn : (job.part.sourceRow.any fun row => (retained[row]?.join).isSome) = true := draws
      rw [if_pos drawn]
      dsimp only
      have free := freeOccurrence_free scan.allocatedIds job.part.source.id
        ((scan.occurrences.get? job.part.source.id).getD 0)
      generalize generatedRowId job.part.source.id (freeOccurrence scan.allocatedIds
        job.part.source.id ((scan.occurrences.get? job.part.source.id).getD 0)) = id at free
      refine ⟨_, scanned.place job (orphanRow job.part.source id job.blocks) rfl _
        (fun entry member same => ?_) (Or.inl fun inside => free (scanned.sources _ inside))⟩
      have isAllocated := scanned.allocated entry member
      rw [same] at isAllocated
      exact free isAllocated
    · have notDrawn : ¬ (job.part.sourceRow.any fun row => (retained[row]?.join).isSome) = true :=
        draws
      rw [if_neg notDrawn]
      dsimp only
      rw [Bool.not_eq_true] at draws
      refine ⟨_, scanned.place job (orphanRow job.part.source job.part.source.id job.blocks) rfl _
        (fun entry member same => ?_) (Or.inr ⟨rfl, draws⟩)⟩
      rcases scanned.names entry member with foreign | ⟨earlier, inside, named, _⟩
      · exact foreign (same ▸ isSource)
      · exact apart earlier inside (named.symm.trans same)

theorem scanned_initial (retained : List (Option (NativeChatMessage Body))) (sourceIds : List Text) :
    Scanned retained sourceIds [] ⟨sourceIds, JsMap.empty, JsMap.empty⟩ [] where
  orphans _ := rfl
  sources _ member := member
  allocated _ member := (List.not_mem_nil member).elim
  blocks := rfl
  insertAt _ member := (List.not_mem_nil member).elim
  distinct := List.nodup_nil
  names _ member := (List.not_mem_nil member).elim

theorem Scanned.run (scanned : Scanned retained sourceIds past scan made)
    {jobs : List (OrphanJob Body)} (isSource : ∀ job ∈ jobs, job.part.source.id ∈ sourceIds)
    (apart : (past ++ jobs).Pairwise fun first second =>
      first.part.source.id ≠ second.part.source.id) :
    ∃ after, Scanned retained sourceIds (past ++ jobs) (jobs.foldl (OrphanJob.run retained) scan)
      after := by
  induction jobs generalizing past scan made with
  | nil =>
    rw [List.append_nil]
    exact ⟨made, scanned⟩
  | cons job jobs ih =>
    obtain ⟨after, stepped⟩ := scanned.step (isSource job List.mem_cons_self) fun earlier inside =>
      (List.pairwise_append.mp apart).2.2 earlier inside job List.mem_cons_self
    rw [List.append_cons] at apart ⊢
    exact ih stepped (fun other member => isSource other (List.mem_cons_of_mem _ member)) apart

end Scan

end OxeeUI.Chat
