import OxeeUI.Chat.PatchSections
import Mathlib.Data.List.Flatten

/-!
# Unified patches parse back

A printed patch is read as it was written exactly when no hunk in front of another
one of its file ends like a pair of file headers.
-/

namespace OxeeUI.Chat

open Library

section Reading

theorem isRow_printed {files : List PatchFile} {row : Text} (member : row ∈ printedRows files) :
    IsRow row := by
  obtain ⟨file, _, inside⟩ := List.mem_flatMap.mp member
  have isPath : IsRow file.path.text := by
    refine ⟨file.path.noFeed, fun last => ?_⟩
    have space := file.path.noSpace carriageReturn last
    revert space
    decide
  have absent : IsRow absentPath := ⟨by decide, by decide⟩
  unfold PatchFile.printed at inside
  rcases List.mem_append.mp inside with inGit | inFile
  · split at inGit
    · rw [List.mem_singleton.mp inGit]
      unfold PatchFile.gitHeader
      refine isRow_mark (by decide) (isRow_mark (by decide) ?_)
      have noFeed : lineFeed ∉ file.path.text ++ (unitsOf " b/" ++ file.path.text) := by
        intro feed
        rcases List.mem_append.mp feed with first | second
        · exact file.path.noFeed first
        · exact (isRow_mark (by decide) isPath).noFeed second
      refine ⟨noFeed, ?_⟩
      rw [List.getLast?_append_of_ne_nil _ (List.append_ne_nil_of_left_ne_nil (by decide) _)]
      exact (isRow_mark (by decide) isPath).noReturn
    · cases inGit
  · rcases List.mem_cons.mp inFile with rfl | inRest
    · unfold PatchFile.oldHeader
      refine isRow_mark (by decide) ?_
      split
      · exact absent
      · exact isRow_mark (by decide) isPath
    · rcases List.mem_cons.mp inRest with rfl | inHunks
      · unfold PatchFile.newHeader
        refine isRow_mark (by decide) ?_
        split
        · exact absent
        · exact isRow_mark (by decide) isPath
      · exact (isRow_hunkRows inHunks).1

theorem hunkRows_sublist {files : List PatchFile} {file : PatchFile} (member : file ∈ files) :
    (hunkRows file.hunks).Sublist (printedRows files) := by
  have inFile : (hunkRows file.hunks).Sublist file.printed := by
    unfold PatchFile.printed
    apply List.Sublist.trans _ (List.sublist_append_right _ _)
    exact ((List.sublist_cons_self _ _).trans (List.sublist_cons_self _ _))
  refine inFile.trans ?_
  unfold printedRows
  rw [List.flatMap_def]
  exact List.sublist_flatten_of_mem (List.mem_map_of_mem member)

theorem body_short {files : List PatchFile} (short : (printPatch files).length ≤ maxEditChars)
    {file : PatchFile} (member : file ∈ files) :
    (joinRows (hunkRows file.hunks)).length ≤ maxEditChars := by
  have printed := joinRows_append_feed (hunkRows_ne_nil file.nonempty)
  have within := ((hunkRows_sublist member).flatMap (· ++ [lineFeed])).length_le
  rw [← printed, List.length_append] at within
  exact Nat.le_trans (Nat.le_trans (Nat.le_add_right _ _) within) short

theorem reads_section {file : PatchFile}
    (short : (joinRows (hunkRows file.hunks)).length ≤ maxEditChars) :
    Reads (finishSection file.section') file := by
  have lines := editLines_file file short
  obtain ⟨path, change, hasGitHeader, hunks, nonempty⟩ := file
  cases change with
  | edited =>
    refine ⟨rfl, ?_, ?_, lines⟩
    · unfold finishSection sectionChangeKind PatchFile.section' PatchFile.opened
      simp
    · unfold finishSection sectionChangeKind PatchFile.section' PatchFile.opened
      simp [PatchChange.kind]
  | added => exact ⟨rfl, rfl, rfl, lines⟩
  | deleted => exact ⟨rfl, rfl, rfl, lines⟩

theorem splits_eq_zero (hunks : List PatchHunk) :
    splits hunks = 0 ↔ ∀ hunk ∈ hunks.dropLast, endsLikeHeaders hunk.rows = false := by
  induction hunks with
  | nil => exact ⟨fun _ _ member => (List.not_mem_nil member).elim, fun _ => rfl⟩
  | cons hunk hunks ih =>
    cases hunks with
    | nil => exact ⟨fun _ _ member => (List.not_mem_nil member).elim, fun _ => rfl⟩
    | cons second hunks =>
      have shape : (hunk :: second :: hunks).dropLast = hunk :: (second :: hunks).dropLast := rfl
      rw [splits, Nat.add_eq_zero_iff, ih, shape, List.forall_mem_cons]
      refine and_congr_left fun _ => ?_
      cases endsLikeHeaders hunk.rows with
      | true => exact ⟨fun zero => absurd zero (by decide), fun wrong => by cases wrong⟩
      | false => exact ⟨fun _ => rfl, fun _ => rfl⟩

theorem misreads_eq_zero (files : List PatchFile) : misreads files = 0 ↔ Unambiguous files := by
  unfold misreads Unambiguous
  rw [List.sum_eq_zero_iff_forall_eq_nat]
  constructor
  · intro none file member
    exact (splits_eq_zero file.hunks).mp (none _ (List.mem_map_of_mem member))
  · intro plain count member
    obtain ⟨file, inside, rfl⟩ := List.mem_map.mp member
    exact (splits_eq_zero file.hunks).mpr (plain file inside)

/-- A patch that is not clipped parses back if and only if it is unambiguous. -/
theorem parsesBack_iff (files : List PatchFile) (short : (printPatch files).length ≤ maxEditChars) :
    ParsesBack files ↔ Unambiguous files := by
  have source : splitEditContent (printPatch files) = ⟨printedRows files, false⟩ :=
    splitEditContent_printed (fun row member => isRow_printed member) short
  have begins : Ready ⟨[], none, false⟩ := by
    intro current isCurrent
    cases isCurrent
  obtain ⟨count, exactly⟩ := scanSections_files begins files
  have sections : unifiedPatchSections (printPatch files) =
      ⟨(scanSections (printedRows files) false ⟨[], none, false⟩).all.map finishSection, false⟩ := by
    unfold unifiedPatchSections
    rw [source]
  unfold ParsesBack
  rw [sections, ← misreads_eq_zero]
  constructor
  · rintro ⟨reads, _⟩
    have lengths := reads.length_eq
    rw [List.length_map, count] at lengths
    have nothing : (SectionScan.mk [] none false).all.length = 0 := rfl
    omega
  · intro unambiguous
    refine ⟨?_, rfl⟩
    rw [exactly unambiguous]
    have nothing : (SectionScan.mk [] none false).all = [] := rfl
    rw [nothing, List.nil_append, List.map_map, List.forall₂_map_left_iff, List.forall₂_same]
    exact fun file member => reads_section (body_short short member)

end Reading

section Inputs

def noHeading : PatchLine := ⟨[], by decide, by decide⟩

/-- A hunk that replaces the line `-- x` by `++ y`, without context. -/
def commentHunk : PatchHunk where
  oldStart := 1
  newStart := 1
  rows := [⟨.removed, ⟨unitsOf "-- x", by decide, by decide⟩⟩,
    ⟨.added, ⟨unitsOf "++ y", by decide, by decide⟩⟩]
  heading := noHeading
  nonempty := List.cons_ne_nil _ _
  safe := by decide

def addedHunk : PatchHunk where
  oldStart := 9
  newStart := 10
  rows := [⟨.added, ⟨unitsOf "z", by decide, by decide⟩⟩]
  heading := noHeading
  nonempty := List.cons_ne_nil _ _
  safe := by decide

def patchPath : PatchPath where
  text := unitsOf "f.sql"
  noFeed := by decide
  noTab := by decide
  noSpace unit last := by
    cases last
    decide

/-- The hunk ends like a pair of headers, in front of another hunk. -/
def misreadFile : PatchFile := ⟨patchPath, .edited, true, [commentHunk, addedHunk], List.cons_ne_nil _ _⟩

def plainFile : PatchFile := ⟨patchPath, .edited, true, [addedHunk, commentHunk], List.cons_ne_nil _ _⟩

theorem parsesBack_plainFile :
    ParsesBack [plainFile, plainFile] ↔ Unambiguous [plainFile, plainFile] :=
  parsesBack_iff [plainFile, plainFile] (by decide +kernel)

/-- The hunk is taken for the headers of another file. -/
theorem misreadFile_does_not_parse_back : ¬ ∀ files : List PatchFile, files ≠ [] →
    (printPatch files).length ≤ maxEditChars → ParsesBack files := by
  intro all
  have reads := (all [misreadFile] (List.cons_ne_nil _ _) (by decide +kernel)).1.length_eq
  revert reads
  decide +kernel

end Inputs

end OxeeUI.Chat
