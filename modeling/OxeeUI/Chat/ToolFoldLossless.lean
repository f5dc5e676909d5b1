import OxeeUI.Chat.ToolFoldOrphans

/-!
# Folding loses nothing

The blocks of a folded list are those of the input, but for the unnamed results
that no call of their run answers.
-/

namespace OxeeUI.Chat

open OxeeUI.Library

universe u

variable {Body : Type u} {toLowerCase : Text → Text}

section Jobs

variable {state : ToolFoldState Body} {seen : List Text}

def rowJobs (sources : FoldedToolResultSources Body) (entry : NativeChatMessage Body × ℕ) :
    List (OrphanJob Body) :=
  (contributorsOf sources entry.2 entry.1).map fun part => ⟨rowUnpaired entry.1, part⟩

def orphanJobs (state : ToolFoldState Body) : List (OrphanJob Body) :=
  (state.output.zipIdx.filter fun entry => !(rowUnpaired entry.1).isEmpty).flatMap
    (rowJobs state.sources)

theorem scanOrphans_eq_run (state : ToolFoldState Body)
    (sourceMessages : List (NativeChatMessage Body)) :
    scanOrphans state.sources sourceMessages state.output =
      (orphanJobs state).foldl (OrphanJob.run (state.output.map retainedRow))
        ⟨sourceMessages.map NativeChatMessage.id, JsMap.empty, JsMap.empty⟩ := by
  unfold scanOrphans orphanJobs
  rw [List.foldl_flatMap]
  congr 1
  funext scan entry
  unfold rowJobs
  rw [List.foldl_map]
  rfl

theorem mem_jobRows {entry : NativeChatMessage Body × ℕ}
    (member : entry ∈ state.output.zipIdx.filter fun entry => !(rowUnpaired entry.1).isEmpty) :
    state.output[entry.2]? = some entry.1 ∧ rowUnpaired entry.1 ≠ [] := by
  obtain ⟨inside, unpaired⟩ := List.mem_filter.mp member
  refine ⟨List.mem_zipIdx_iff_getElem?.mp inside, fun none => ?_⟩
  rw [none] at unpaired
  cases unpaired

theorem Sourced.parts_cases (sourced : Sourced seen state) {index : ℕ} {row : NativeChatMessage Body}
    (found : state.output[index]? = some row) :
    ∃ own, contributorsOf state.sources index row = own :: joinedParts state index ∧
      own.source.id = row.id ∧ own.sourceRow = some index ∧ own.insertAt = index + 1 := by
  obtain ⟨own, head, facts⟩ := (sourced.parts index row found).own
  obtain ⟨rest, parts⟩ := List.head?_eq_some_iff.mp head
  refine ⟨own, ?_, facts⟩
  rw [joinedParts_eq_tail state index row, parts]
  rfl

theorem Sourced.joined_ne_row (sourced : Sourced seen state) {index other : ℕ}
    {part : ToolContribution Body} (member : part ∈ joinedParts state index)
    {row : NativeChatMessage Body} (found : state.output[other]? = some row)
    (results : row.blocks.any NativeChatBlock.isToolResult = true) :
    part.source.id ≠ row.id := by
  intro same
  rcases (sourced.joined index part member).1.source with
    ⟨_, absent⟩ | ⟨place, bare, _, bareFound, named, _, noResults⟩
  · exact absent row (List.mem_of_getElem? found) same.symm
  · have equal : bare = row :=
      List.inj_on_of_nodup_map sourced.distinct (List.mem_of_getElem? bareFound)
        (List.mem_of_getElem? found) (named.trans same)
    rw [equal, results] at noResults
    cases noResults

theorem getElem?_inj_of_ids (sourced : Sourced seen state) {first second : ℕ}
    {row other : NativeChatMessage Body} (found : state.output[first]? = some row)
    (otherFound : state.output[second]? = some other) (same : row.id = other.id) :
    first = second := by
  have firstId : (state.output.map NativeChatMessage.id)[first]? = some row.id := by
    rw [List.getElem?_map, found]
    rfl
  have secondId : (state.output.map NativeChatMessage.id)[second]? = some row.id := by
    rw [List.getElem?_map, otherFound, same]
    rfl
  have within : first < (state.output.map NativeChatMessage.id).length :=
    (List.getElem?_eq_some_iff.mp firstId).1
  exact (List.getElem?_inj within sourced.distinct).mp (firstId.trans secondId.symm)

theorem jobs_apart (sourced : Sourced seen state) :
    (orphanJobs state).Pairwise fun first second =>
      first.part.source.id ≠ second.part.source.id := by
  refine List.pairwise_flatMap.mpr ⟨fun entry member => ?_, ?_⟩
  · obtain ⟨found, unpaired⟩ := mem_jobRows member
    have results := results_of_rowUnpaired unpaired
    obtain ⟨own, parts, named, _⟩ := sourced.parts_cases found
    refine List.pairwise_map.mpr ?_
    rw [parts]
    refine List.pairwise_cons.mpr ⟨fun part joined same => ?_, ?_⟩
    · exact sourced.joined_ne_row joined found results (same.symm.trans named)
    · exact List.pairwise_map.mp (sourced.joinedDistinct entry.2)
  · have indices : (state.output.zipIdx.map Prod.snd).Nodup := by
      rw [List.zipIdx_map_snd]
      exact List.nodup_range'
    have apart := (List.pairwise_map.mp indices).filter
      fun entry : NativeChatMessage Body × ℕ => !(rowUnpaired entry.1).isEmpty
    refine apart.imp_of_mem fun {first second} firstMember secondMember different => ?_
    obtain ⟨firstFound, firstUnpaired⟩ := mem_jobRows firstMember
    obtain ⟨secondFound, secondUnpaired⟩ := mem_jobRows secondMember
    have firstResults := results_of_rowUnpaired firstUnpaired
    have secondResults := results_of_rowUnpaired secondUnpaired
    obtain ⟨firstOwn, firstParts, firstNamed, _⟩ := sourced.parts_cases firstFound
    obtain ⟨secondOwn, secondParts, secondNamed, _⟩ := sourced.parts_cases secondFound
    intro job inFirst other inSecond
    obtain ⟨part, partMember, rfl⟩ := List.mem_map.mp inFirst
    obtain ⟨otherPart, otherMember, rfl⟩ := List.mem_map.mp inSecond
    rw [firstParts] at partMember
    rw [secondParts] at otherMember
    rcases List.mem_cons.mp partMember with rfl | joined
    · rcases List.mem_cons.mp otherMember with rfl | otherJoined
      · intro same
        exact different (getElem?_inj_of_ids sourced firstFound secondFound
          (firstNamed.symm.trans (same.trans secondNamed)))
      · intro same
        exact sourced.joined_ne_row otherJoined firstFound firstResults (same.symm.trans firstNamed)
    · rcases List.mem_cons.mp otherMember with rfl | otherJoined
      · intro same
        exact sourced.joined_ne_row joined secondFound secondResults (same.trans secondNamed)
      · exact sourced.joinedApart _ _ different part joined otherPart otherJoined

/-- Every job's source is a message, its place is within the rows, and it is drawn no
more only when no row has its id. -/
theorem job_spec (sourced : Sourced seen state) {job : OrphanJob Body}
    (member : job ∈ orphanJobs state) :
    job.part.source.id ∈ seen ∧ job.part.insertAt ≤ state.output.length ∧
      (job.draws (state.output.map retainedRow) = false →
        ∀ row ∈ (state.output.map retainedRow).filterMap id, row.id ≠ job.part.source.id) := by
  obtain ⟨entry, inRows, inJobs⟩ := List.mem_flatMap.mp member
  obtain ⟨part, inParts, rfl⟩ := List.mem_map.mp inJobs
  obtain ⟨found, _⟩ := mem_jobRows inRows
  obtain ⟨own, parts, named, sourceRow, insertAt⟩ := sourced.parts_cases found
  -- a retained row of that id is the source row itself
  have kept : ∀ (index : ℕ) (source : NativeChatMessage Body),
      part.sourceRow = some index → state.output[index]? = some source →
      source.id = part.source.id →
      (⟨rowUnpaired entry.1, part⟩ : OrphanJob Body).draws (state.output.map retainedRow) = false →
      ∀ row ∈ (state.output.map retainedRow).filterMap id, row.id ≠ part.source.id := by
    intro index source isRow sourceFound sourceNamed notDrawn row isKept same
    obtain ⟨retained, inRetained, isSome⟩ := List.mem_filterMap.mp isKept
    obtain ⟨original, inOutput, rfl⟩ := List.mem_map.mp inRetained
    have isRetained : retainedRow original = some row := isSome
    have originalNamed := retainedRow_id isRetained
    have equal : original = source :=
      List.inj_on_of_nodup_map sourced.distinct inOutput (List.mem_of_getElem? sourceFound)
        (originalNamed.symm.trans (same.trans sourceNamed.symm))
    subst equal
    unfold OrphanJob.draws at notDrawn
    rw [isRow, Option.any_some, List.getElem?_map, sourceFound, Option.map_some, isRetained] at notDrawn
    cases notDrawn
  rw [parts] at inParts
  rcases List.mem_cons.mp inParts with rfl | joined
  · refine ⟨?_, ?_, kept entry.2 entry.1 sourceRow found named.symm⟩
    · rw [named]
      exact sourced.known entry.1 (List.mem_of_getElem? found)
    · rw [insertAt]
      exact lt_of_getElem?_eq_some found
  · obtain ⟨joinedPart, isSeen⟩ := sourced.joined entry.2 part joined
    refine ⟨isSeen, joinedPart.insertAt, ?_⟩
    rcases joinedPart.source with ⟨_, absent⟩ | ⟨index, row, isRow, rowFound, rowNamed, _⟩
    · intro _ row isKept
      obtain ⟨retained, inRetained, isSome⟩ := List.mem_filterMap.mp isKept
      obtain ⟨original, inOutput, rfl⟩ := List.mem_map.mp inRetained
      rw [retainedRow_id isSome]
      exact absent original inOutput
    · exact kept index row isRow rowFound rowNamed

theorem leavingBlocks_of_none {row : NativeChatMessage Body} (none : rowUnpaired row = []) :
    leavingBlocks row = [] := by
  unfold leavingBlocks
  by_cases marked : row.unpairedToolResults = true
  · rw [if_pos marked]
  · rw [if_neg marked]
    rw [Bool.not_eq_true] at marked
    rw [rowUnpaired_of_unmarked marked] at none
    rw [pick_of_no_flags id (le_of_eq (length_aloneFlags [] row.blocks).symm) none]
    rfl

theorem rowJobs_blocks (sourced : Sourced seen state) {entry : NativeChatMessage Body × ℕ}
    (found : state.output[entry.2]? = some entry.1) (unpaired : rowUnpaired entry.1 ≠ []) :
    (rowJobs state.sources entry).flatMap OrphanJob.blocks =
      (leavingBlocks entry.1).filter isNamedResult := by
  have unmarked : entry.1.unpairedToolResults = false := by
    by_contra marked
    rw [Bool.not_eq_false] at marked
    exact unpaired (rowUnpaired_of_marked marked)
  rw [← orphanBlocks_parts unmarked (sourced.parts entry.2 entry.1 found)]
  unfold rowJobs
  exact List.flatMap_map ..

theorem jobs_blocks (sourced : Sourced seen state) :
    (orphanJobs state).flatMap OrphanJob.blocks =
      state.output.flatMap fun row => (leavingBlocks row).filter isNamedResult := by
  have each : ∀ entries : List (NativeChatMessage Body × ℕ),
      (∀ entry ∈ entries, state.output[entry.2]? = some entry.1) →
      ((entries.filter fun entry => !(rowUnpaired entry.1).isEmpty).flatMap
          (rowJobs state.sources)).flatMap OrphanJob.blocks =
        (entries.map Prod.fst).flatMap fun row => (leavingBlocks row).filter isNamedResult := by
    intro entries
    induction entries with
    | nil => exact fun _ => rfl
    | cons entry entries ih =>
      intro found
      have rest := ih fun other member => found other (List.mem_cons_of_mem _ member)
      rw [List.map_cons, List.flatMap_cons]
      by_cases none : rowUnpaired entry.1 = []
      · rw [List.filter_cons_of_neg (by simp [none]), rest, leavingBlocks_of_none none]
        rfl
      · rw [List.filter_cons_of_pos (by simpa using none), List.flatMap_cons,
          List.flatMap_append, rest,
          rowJobs_blocks sourced (found entry List.mem_cons_self) none]
  have all := each state.output.zipIdx fun entry member => List.mem_zipIdx_iff_getElem?.mp member
  rw [List.zipIdx_map_fst] at all
  exact all

end Jobs

section Projection

variable {state : ToolFoldState Body} {seen : List Text}

theorem flatMap_retained (retained : List (Option (NativeChatMessage Body))) :
    (List.range (retained.length + 1)).flatMap (fun index => (retained[index]?.join).toList) =
      retained.filterMap id := by
  induction retained with
  | nil => rfl
  | cons row retained ih =>
    rw [List.length_cons, List.range_succ_eq_map, List.flatMap_cons, List.flatMap_map]
    have rest : (List.range (retained.length + 1)).flatMap
        (fun index => ((row :: retained)[index.succ]?.join).toList) = retained.filterMap id := ih
    rw [rest]
    cases row with
    | none => rfl
    | some row => rfl

theorem keptRows_ids (rows : List (NativeChatMessage Body)) :
    (((rows.map retainedRow).filterMap id).map NativeChatMessage.id).Sublist
      (rows.map NativeChatMessage.id) := by
  induction rows with
  | nil => exact List.Sublist.refl _
  | cons row rows ih =>
    rw [List.map_cons, List.filterMap_cons]
    cases retained : retainedRow row with
    | none => exact ih.cons _
    | some kept =>
      rw [id, List.map_cons, retainedRow_id retained]
      exact ih.cons_cons _

theorem keptRows_of_none {rows : List (NativeChatMessage Body)}
    (none : ∀ row ∈ rows, rowUnpaired row = []) : (rows.map retainedRow).filterMap id = rows := by
  induction rows with
  | nil => rfl
  | cons row rows ih =>
    have same : retainedRow row = some row := by
      unfold retainedRow
      dsimp only
      rw [if_pos (none row List.mem_cons_self)]
    have rest := ih fun other member => none other (List.mem_cons_of_mem _ member)
    rw [List.map_cons, same]
    exact congrArg (row :: ·) rest

theorem keptRows_blocks (rows : List (NativeChatMessage Body)) :
    ((rows.map retainedRow).filterMap id).flatMap NativeChatMessage.blocks =
      rows.flatMap keptBlocks := by
  induction rows with
  | nil => rfl
  | cons row rows ih =>
    rw [List.map_cons, List.flatMap_cons, ← ih, ← retainedRow_blocks]
    cases retainedRow row with
    | none => rfl
    | some kept => exact congrArg (· ++ _) (List.append_nil kept.blocks).symm

/-- The projected rows: the retained ones, and the orphans that the jobs made. -/
theorem project_perm (sourced : Sourced seen state)
    {sourceMessages : List (NativeChatMessage Body)}
    (sources : ∀ id ∈ seen, id ∈ sourceMessages.map NativeChatMessage.id) :
    ∃ made : List (ℕ × NativeChatMessage Body),
      (project state.sources sourceMessages state.output).Perm
        (made.map Prod.snd ++ (state.output.map retainedRow).filterMap id) ∧
      made.flatMap (fun entry => entry.2.blocks) =
        state.output.flatMap (fun row => (leavingBlocks row).filter isNamedResult) ∧
      ((made.map fun entry => entry.2.id) ++
        ((state.output.map retainedRow).filterMap id).map NativeChatMessage.id).Nodup := by
  obtain ⟨made, scanned⟩ := (scanned_initial (state.output.map retainedRow)
    (sourceMessages.map NativeChatMessage.id)).run
    (fun job member => sources _ (job_spec sourced member).1) (jobs_apart sourced)
  rw [List.nil_append, ← scanOrphans_eq_run] at scanned
  refine ⟨made, ?_, scanned.blocks.trans (jobs_blocks sourced), ?_⟩
  · have within : ∀ entry ∈ made, entry.1 < (state.output.map retainedRow).length + 1 := by
      intro entry member
      obtain ⟨job, inJobs, same⟩ := scanned.insertAt entry member
      rw [same, List.length_map]
      exact Nat.lt_succ_of_le (job_spec sourced inJobs).2.1
    unfold project
    by_cases none : (state.output.all fun message => (rowUnpaired message).isEmpty) = true
    · rw [if_pos none]
      have unpaired : ∀ row ∈ state.output, rowUnpaired row = [] := fun row member =>
        List.isEmpty_iff.mp (List.all_eq_true.mp none row member)
      have noJobs : orphanJobs state = [] := by
        unfold orphanJobs
        have noRows : state.output.zipIdx.filter (fun entry => !(rowUnpaired entry.1).isEmpty) =
            [] := by
          apply List.filter_eq_nil_iff.mpr
          intro entry member
          rw [unpaired entry.1 (List.mem_of_getElem? (List.mem_zipIdx_iff_getElem?.mp member))]
          exact Bool.false_ne_true
        rw [noRows]
        rfl
      have noneMade : made = [] := by
        apply List.eq_nil_iff_forall_not_mem.mpr
        intro entry member
        obtain ⟨job, inJobs, _⟩ := scanned.insertAt entry member
        rw [noJobs] at inJobs
        cases inJobs
      rw [noneMade, keptRows_of_none unpaired]
      exact List.Perm.refl _
    · rw [if_neg none]
      dsimp only
      refine (List.flatMap_append_perm _ _ _).symm.trans ?_
      rw [flatMap_retained]
      refine List.Perm.append_right _ ?_
      have same : (fun key => ((scanOrphans state.sources sourceMessages
          state.output).orphans.get? key).getD []) = bucket made := funext scanned.orphans
      rw [same]
      exact perm_flatMap_bucket within
  · refine List.nodup_append.mpr ⟨scanned.distinct, ?_, ?_⟩
    · exact sourced.distinct.sublist (keptRows_ids state.output)
    · intro id inMade other inKept same
      obtain ⟨entry, member, rfl⟩ := List.mem_map.mp inMade
      obtain ⟨row, isKept, rfl⟩ := List.mem_map.mp inKept
      rcases scanned.names entry member with foreign | ⟨job, inJobs, named, notDrawn⟩
      · obtain ⟨retained, inRetained, isSome⟩ := List.mem_filterMap.mp isKept
        obtain ⟨original, inOutput, rfl⟩ := List.mem_map.mp inRetained
        apply foreign
        rw [same, retainedRow_id isSome]
        exact sources _ (sourced.known original inOutput)
      · exact (job_spec sourced inJobs).2.2 notDrawn row isKept (same.symm.trans named)

end Projection

section Lossless

theorem leavingBlocks_unnamed (row : NativeChatMessage Body) :
    (leavingBlocks row).filter (fun block => !isNamedResult block) = (rowRun row).dropped := by
  unfold leavingBlocks ToolRun.dropped
  by_cases marked : row.unpairedToolResults = true
  · rw [if_pos marked]
    have runMarked : (rowRun row).marked = true := marked
    rw [if_pos runMarked]
    rfl
  · rw [if_neg marked]
    have runMarked : ¬ (rowRun row).marked = true := marked
    rw [if_neg runMarked]
    have lone := filterMap_loneResult row.blocks []
    rw [List.filterMap_nil, List.map_nil, List.nil_append] at lone
    rw [← lone, List.filter_map]
    congr 1
    refine List.filter_congr fun result _ => ?_
    exact Option.not_isSome result.callId

theorem row_blocks_perm (row : NativeChatMessage Body) :
    row.blocks.Perm (keptBlocks row ++ ((leavingBlocks row).filter isNamedResult ++
      (rowRun row).dropped)) := by
  rw [← leavingBlocks_unnamed]
  refine List.Perm.trans ?_ ((List.filter_append_perm isNamedResult _).symm.append_left _)
  unfold keptBlocks leavingBlocks
  by_cases marked : row.unpairedToolResults = true
  · rw [if_pos marked, if_pos marked, List.append_nil]
  · rw [if_neg marked, if_neg marked]
    exact perm_pick row.blocks (le_of_eq (length_aloneFlags [] row.blocks).symm)

/-- A list of messages in which no id occurs twice. -/
structure NativeChatMessageList (Body : Type u) where
  messages : List (NativeChatMessage Body)
  distinct : (messages.map NativeChatMessage.id).Nodup

theorem answered_kept {row : NativeChatMessage Body} {pair : NativeChatToolPair Body}
    (member : pair ∈ plainPairs row.blocks) (called : pair.call.isSome = true) :
    pair ∈ plainPairs (keptBlocks row) := by
  unfold keptBlocks
  by_cases marked : row.unpairedToolResults = true
  · rw [if_pos marked]
    exact member
  · rw [if_neg marked]
    have kept := plainPairs_pick row.blocks []
    rw [List.filter_nil] at kept
    unfold plainPairs
    rw [kept]
    exact List.mem_filter.mpr ⟨member, called⟩

theorem exists_kept_row {rows : List (NativeChatMessage Body)} {row : NativeChatMessage Body}
    (member : row ∈ rows) {pair : NativeChatToolPair Body}
    (inRow : pair ∈ plainPairs row.blocks) (called : pair.call.isSome = true) :
    ∃ kept ∈ (rows.map retainedRow).filterMap id, pair ∈ plainPairs kept.blocks := by
  have inKept := answered_kept inRow called
  rcases retainedRow_spec row with ⟨_, retained, _⟩ | ⟨empty, _⟩ | retained
  · exact ⟨row, List.mem_filterMap.mpr ⟨_, List.mem_map_of_mem member, retained⟩, inRow⟩
  · rw [empty] at inKept
    cases inKept
  · exact ⟨_, List.mem_filterMap.mpr ⟨_, List.mem_map_of_mem member, retained⟩, inKept⟩

/-- Pairing follows the plain rule up to its limit.  Folding keeps ids distinct,
keeps every block but the unnamed results that no call of an unmarked run answers,
and keeps every answered call with its result. -/
theorem toolBlocks_paired_and_folded (toLowerCase : Text → Text) :
    (∀ (blocks : List (NativeChatBlock Body)) (limit : Option ℕ),
      pairToolBlocks blocks limit = cut limit (plainPairs blocks)) ∧
      ∀ list : NativeChatMessageList Body,
        let runs := toolRuns toLowerCase list.messages
        let folded := foldToolMessages toLowerCase list.messages
        (folded.map NativeChatMessage.id).Nodup ∧
          (runs.flatMap ToolRun.blocks).Perm (list.messages.flatMap NativeChatMessage.blocks) ∧
          (list.messages.flatMap NativeChatMessage.blocks).Perm
            (folded.flatMap NativeChatMessage.blocks ++ runs.flatMap ToolRun.dropped) ∧
          ∀ run ∈ runs, ∀ pair ∈ plainPairs run.blocks,
            pair.call.isSome = true → ∀ result, pair.result = some result →
              ∃ message ∈ folded, pair ∈ plainPairs message.blocks := by
  refine ⟨pairToolBlocks_eq_cut, fun list => ?_⟩
  intro runs folded
  have rows : (list.messages.foldl (ToolFoldState.foldMessage toLowerCase)
      ToolFoldState.initial).output.map rowRun = runs := rowRuns_eq_toolRuns list.messages
  have blocks : (runs.flatMap ToolRun.blocks).Perm
      (list.messages.flatMap NativeChatMessage.blocks) := toolRuns_blocks list.messages
  have sourced : Sourced ((list.messages.map NativeChatMessage.id).reverse ++ [])
      (list.messages.foldl (ToolFoldState.foldMessage toLowerCase) ToolFoldState.initial) :=
    sourced_fold sourced_initial assistantOpen_initial list.distinct
      fun _ _ inside => (List.not_mem_nil inside).elim
  rw [List.append_nil] at sourced
  obtain ⟨made, perm, madeBlocks, distinct⟩ := @project_perm _ _ _ sourced list.messages
    fun id member => List.mem_reverse.mp member
  have foldedIs : folded = project
      (list.messages.foldl (ToolFoldState.foldMessage toLowerCase) ToolFoldState.initial).sources
      list.messages
      (list.messages.foldl (ToolFoldState.foldMessage toLowerCase) ToolFoldState.initial).output := rfl
  rw [← foldedIs] at perm
  generalize (list.messages.foldl (ToolFoldState.foldMessage toLowerCase)
    ToolFoldState.initial).output = output at rows perm madeBlocks distinct
  refine ⟨?_, blocks, ?_, ?_⟩
  · refine (perm.map NativeChatMessage.id).nodup_iff.mpr ?_
    rw [List.map_append, List.map_map]
    exact distinct
  · have foldedBlocks : (folded.flatMap NativeChatMessage.blocks).Perm
        (output.flatMap keptBlocks ++
          output.flatMap fun row => (leavingBlocks row).filter isNamedResult) := by
      refine (perm.flatMap_right NativeChatMessage.blocks).trans ?_
      rw [List.flatMap_append, List.flatMap_map, madeBlocks, keptRows_blocks]
      exact List.perm_append_comm
    have dropped : runs.flatMap ToolRun.dropped = output.flatMap fun row => (rowRun row).dropped := by
      rw [← rows]
      exact List.flatMap_map ..
    have own : runs.flatMap ToolRun.blocks = output.flatMap NativeChatMessage.blocks := by
      rw [← rows]
      exact List.flatMap_map ..
    rw [own] at blocks
    rw [dropped]
    refine blocks.symm.trans (List.Perm.trans ?_ (foldedBlocks.symm.append_right _))
    rw [List.append_assoc]
    refine (List.Perm.flatMap_left _ fun row _ => row_blocks_perm row).trans ?_
    refine (List.flatMap_append_perm _ _ _).symm.trans (List.Perm.append_left _ ?_)
    exact (List.flatMap_append_perm _ _ _).symm
  · intro run inRuns pair inPairs called result _
    rw [← rows] at inRuns
    obtain ⟨row, member, rfl⟩ := List.mem_map.mp inRuns
    obtain ⟨kept, isKept, inKept⟩ := exists_kept_row member inPairs called
    exact ⟨kept, perm.mem_iff.mpr (List.mem_append_right _ isKept), inKept⟩

def markedRow : NativeChatMessageList Unit :=
  ⟨[⟨unitsOf "a", .tool, [.toolResult ⟨none, ()⟩], none, none, true, ()⟩], List.nodup_singleton _⟩

/-- A row that was folded before keeps even its unnamed results. -/
theorem markedRow_keeps_unnamed :
    ¬ ∀ list : NativeChatMessageList Unit,
      (list.messages.flatMap NativeChatMessage.blocks).Perm
        ((foldToolMessages id list.messages).flatMap NativeChatMessage.blocks ++
          (toolRuns id list.messages).flatMap fun run =>
            ((unansweredResults run.blocks).filter fun result => result.callId.isNone).map
              .toolResult) := by
  intro lossless
  have lengths := (lossless markedRow).length_eq
  revert lengths
  decide

end Lossless

end OxeeUI.Chat
