import OxeeUI.Chat.PatchRows

/-!
# One section for each file

The scan opens one section for each printed file, and one more for each hunk that
ends like a pair of file headers in front of another hunk.
-/

namespace OxeeUI.Chat

open Library

section Rows

/-- What a scan leaves of a file: its sections so far, the last of them named by a pair. -/
structure SectionScanned (before : SectionScan) (opened : ℕ) (rows : List Text) (current : PatchSection)
    (after : SectionScan) : Prop where
  named : ∃ last, after.current = some last ∧ last.hasHeaderPair = true
  count : after.all.length = before.all.length + opened
  exactly : opened = 0 →
    after = ⟨before.closed, some { current with rows := current.rows ++ rows }, true⟩

theorem row_not_git (row : PatchRow) : startsWith gitDiffHeader row.text = false := by
  obtain ⟨mark, line⟩ := row
  cases mark with
  | context => rfl
  | removed => rfl
  | added => rfl

theorem startsWith_cons {unit : UInt16} (start text : Text) :
    startsWith (unit :: start) (unit :: text) = startsWith start text := by
  unfold startsWith
  rw [List.isPrefixOf_cons_cons, beq_self_eq_true, Bool.true_and]

theorem isFileHeaderPair_rows (first second : PatchRow) (rest : List Text) :
    isFileHeaderPair (first.text :: second.text :: rest) = looksLikeHeaders first second := by
  obtain ⟨firstMark, firstLine⟩ := first
  obtain ⟨secondMark, secondLine⟩ := second
  have old : startsWith oldHeaderMark (PatchRow.text ⟨firstMark, firstLine⟩) =
      (decide (firstMark = .removed) && startsWith (unitsOf "-- ") firstLine.text) := by
    cases firstMark with
    | context => rfl
    | removed => exact startsWith_cons (unitsOf "-- ") firstLine.text
    | added => rfl
  have new : startsWith newHeaderMark (PatchRow.text ⟨secondMark, secondLine⟩) =
      (decide (secondMark = .added) && startsWith (unitsOf "++ ") secondLine.text) := by
    cases secondMark with
    | context => rfl
    | removed => rfl
    | added => exact startsWith_cons (unitsOf "++ ") secondLine.text
  exact congrArg₂ (· && ·) old new

def nextRow (rest : List Text) : Text := rest.head?.getD []

theorem scanSections_push {scan : SectionScan} {current : PatchSection} {raw : Text}
    {rest : List Text} (isCurrent : scan.current = some current)
    (notGit : startsWith gitDiffHeader raw = false)
    (noPair : (isFileHeaderPair (raw :: rest) &&
      (!scan.inHunk || startsWith hunkMark (rest[1]?.getD []))) = false)
    (inHunk : scan.inHunk = true ∨ startsWith hunkMark raw = true)
    (notSection : isFileSectionStart raw = false) :
    scanSections (raw :: rest) false scan = scanSections rest false
      ⟨scan.closed, some { current with rows := current.rows ++ [raw] }, true⟩ := by
  have pushed : scan.push raw =
      ⟨scan.closed, some { current with rows := current.rows ++ [raw] }, true⟩ := by
    unfold SectionScan.push
    rw [isCurrent, notSection]
    dsimp only [Option.getD_some]
    rcases inHunk with already | now
    · rw [already]
      congr 1
      split
      · rfl
      · rfl
    · rw [now]
      rfl
  rw [scanSections, notGit, if_neg Bool.false_ne_true, noPair, if_neg Bool.false_ne_true, pushed]

theorem headerPair_opened {scan : SectionScan} {current : PatchSection}
    (isCurrent : scan.current = some current) (named : current.hasHeaderPair = true)
    (old new : Text) : ∃ opened, scan.headerPair old new = ⟨scan.all, some opened, false⟩ ∧
      opened.hasHeaderPair = true := by
  unfold SectionScan.headerPair
  rw [isCurrent]
  dsimp only
  rw [named, if_pos rfl]
  exact ⟨_, rfl, rfl⟩

theorem SectionScanned.row {scan : SectionScan} {current : PatchSection}
    (isCurrent : scan.current = some current) (named : current.hasHeaderPair = true) (raw : Text) :
    SectionScanned scan 0 [raw] current
      ⟨scan.closed, some { current with rows := current.rows ++ [raw] }, true⟩ where
  named := ⟨_, rfl, named⟩
  count := by
    unfold SectionScan.all
    rw [isCurrent, List.length_append, List.length_append]
    rfl
  exactly _ := rfl

theorem SectionScanned.append {before middle after : SectionScan} {opened more : ℕ}
    {rows moreRows : List Text} {current last : PatchSection}
    (first : SectionScanned before opened rows current middle) (isLast : middle.current = some last)
    (second : SectionScanned middle more moreRows last after) :
    SectionScanned before (opened + more) (rows ++ moreRows) current after where
  named := second.named
  count := by
    rw [second.count, first.count, Nat.add_assoc]
  exactly none := by
    obtain ⟨noOpened, noMore⟩ := Nat.add_eq_zero_iff.mp none
    have middleIs := first.exactly noOpened
    have afterIs := second.exactly noMore
    rw [middleIs] at isLast
    cases isLast
    rw [afterIs, middleIs]
    dsimp only
    rw [List.append_assoc]

/-- Whether the last rows are taken for the headers of another file. -/
def misread (rows : List PatchRow) (rest : List Text) : ℕ :=
  if endsLikeHeaders rows && startsWith hunkMark (nextRow rest) then 1 else 0

/-- The rows of a hunk go to the open section, unless the last two are taken for the headers
of another file. -/
theorem scanSections_rows {current : PatchSection} (named : current.hasHeaderPair = true)
    (closed : List PatchSection) (rows : List PatchRow) {rest : List Text}
    (noHeader : startsWith newHeaderMark (nextRow rest) = false) : ∃ after : SectionScan,
      scanSections (rows.map PatchRow.text ++ rest) false ⟨closed, some current, true⟩ =
        scanSections rest false after ∧
      SectionScanned ⟨closed, some current, true⟩ (misread rows rest) (rows.map PatchRow.text) current
        after := by
  induction rows generalizing current with
  | nil =>
    refine ⟨⟨closed, some current, true⟩, rfl, ⟨current, rfl, named⟩, rfl, fun _ => ?_⟩
    rw [List.map_nil, List.append_nil]
  | cons row rows ih =>
    have notGit := row_not_git row
    have notSection : isFileSectionStart row.text = false :=
      isFileSectionStart_of_mark (mark_mem row.mark) row.line.text
    -- The row goes to the section, and the others follow.
    have pushes : (isFileHeaderPair (row.text :: (rows.map PatchRow.text ++ rest)) &&
          (!true || startsWith hunkMark ((rows.map PatchRow.text ++ rest)[1]?.getD []))) = false →
        misread (row :: rows) rest = misread rows rest → ∃ after : SectionScan,
          scanSections ((row :: rows).map PatchRow.text ++ rest) false
            ⟨closed, some current, true⟩ = scanSections rest false after ∧
          SectionScanned ⟨closed, some current, true⟩ (misread (row :: rows) rest)
            ((row :: rows).map PatchRow.text) current after := by
      intro noPair same
      obtain ⟨after, scanned, facts⟩ :=
        @ih { current with rows := current.rows ++ [row.text] } named
      refine ⟨after, ?_, ?_⟩
      · rw [List.map_cons, List.cons_append, scanSections_push rfl notGit noPair (Or.inl rfl)
          notSection]
        exact scanned
      · rw [same, List.map_cons, ← Nat.zero_add (misread rows rest)]
        exact (SectionScanned.row rfl named row.text).append rfl facts
    cases rows with
    | nil =>
      apply pushes
      · have second : (row.text :: rest)[1]?.getD [] = nextRow rest := by
          cases rest with
          | nil => rfl
          | cons _ _ => rfl
        have noPair : isFileHeaderPair (row.text :: rest) = false := by
          unfold isFileHeaderPair
          rw [second, noHeader, Bool.and_false]
        rw [List.map_nil, List.nil_append, noPair, Bool.false_and]
      · rfl
    | cons second more =>
      have pair : isFileHeaderPair
          (row.text :: ((second :: more).map PatchRow.text ++ rest)) =
            looksLikeHeaders row second := isFileHeaderPair_rows row second _
      have third : ((second :: more).map PatchRow.text ++ rest)[1]?.getD [] =
          nextRow (more.map PatchRow.text ++ rest) := by
        unfold nextRow
        rw [List.head?_eq_getElem?]
        rfl
      rw [pair, third, Bool.not_true, Bool.false_or] at pushes
      cases more with
      | cons thirdRow more =>
        apply pushes
        · have notHunk := row_not_hunk thirdRow
          have next : nextRow ((thirdRow :: more).map PatchRow.text ++ rest) = thirdRow.text := rfl
          rw [next, notHunk, Bool.and_false]
        · rfl
      | nil =>
        have next : nextRow (([] : List PatchRow).map PatchRow.text ++ rest) = nextRow rest := rfl
        have opened : misread [row, second] rest =
            if looksLikeHeaders row second && startsWith hunkMark (nextRow rest) then 1 else 0 :=
          rfl
        rw [next] at pushes
        by_cases taken : (looksLikeHeaders row second && startsWith hunkMark (nextRow rest)) = true
        · obtain ⟨other, pairOpened, namedOther⟩ := @headerPair_opened
            ⟨closed, some current, true⟩ current rfl named row.text second.text
          refine ⟨⟨closed ++ [current], some other, false⟩, ?_, ⟨other, rfl, namedOther⟩, ?_, ?_⟩
          · have pairTaken : (isFileHeaderPair (row.text :: second.text :: rest) &&
                (!true || startsWith hunkMark ((second.text :: rest)[1]?.getD []))) = true := by
              have nextIs : (second.text :: rest)[1]?.getD [] = nextRow rest := third
              rw [isFileHeaderPair_rows, nextIs]
              exact taken
            have shape : ([row, second].map PatchRow.text ++ rest) =
                row.text :: second.text :: rest := rfl
            rw [shape, scanSections, notGit, if_neg Bool.false_ne_true, pairTaken, if_pos rfl,
              scanSections]
            exact congrArg (scanSections rest false) pairOpened
          · rw [opened, if_pos taken]
            unfold SectionScan.all
            simp
          · rw [opened, if_pos taken]
            exact fun zero => absurd zero (by decide)
        · apply pushes
          · exact Bool.eq_false_iff.mpr taken
          · rw [opened, if_neg taken]
            rfl

end Rows

section Hunks

/-- How many hunks are misread in front of another one. -/
def splits : List PatchHunk → ℕ
  | first :: second :: rest =>
    (if endsLikeHeaders first.rows then 1 else 0) + splits (second :: rest)
  | _ => 0

theorem hunk_not_header (hunk : PatchHunk) (rest : List Text) :
    startsWith newHeaderMark (nextRow (hunk.printed ++ rest)) = false ∧
      startsWith hunkMark (nextRow (hunk.printed ++ rest)) = true := by
  have next : nextRow (hunk.printed ++ rest) = hunk.header := rfl
  rw [next]
  exact ⟨rfl, List.isPrefixOf_iff_prefix.mpr (List.prefix_append _ _)⟩

theorem scanSections_hunkHeader {current : PatchSection} {scan : SectionScan}
    (isCurrent : scan.current = some current) (hunk : PatchHunk) (rest : List Text) :
    scanSections (hunk.header :: rest) false scan = scanSections rest false
      ⟨scan.closed, some { current with rows := current.rows ++ [hunk.header] }, true⟩ := by
  have isHunk : startsWith hunkMark hunk.header = true :=
    List.isPrefixOf_iff_prefix.mpr (List.prefix_append _ _)
  have noPair : isFileHeaderPair (hunk.header :: rest) = false := rfl
  have notSection : isFileSectionStart hunk.header = false :=
    @isFileSectionStart_of_mark 64 (by decide) _
  apply scanSections_push isCurrent rfl _ (Or.inr isHunk) notSection
  rw [noPair, Bool.false_and]

/-- The hunks of a file go to its section, and each one that is misread opens another. -/
theorem scanSections_hunks {scan : SectionScan} {current : PatchSection}
    (isCurrent : scan.current = some current) (named : current.hasHeaderPair = true)
    (hunks : List PatchHunk) (nonempty : hunks ≠ []) {rest : List Text}
    (noHeader : startsWith newHeaderMark (nextRow rest) = false)
    (noHunk : startsWith hunkMark (nextRow rest) = false) : ∃ after : SectionScan,
      scanSections (hunkRows hunks ++ rest) false scan = scanSections rest false after ∧
        SectionScanned scan (splits hunks) (hunkRows hunks) current after := by
  induction hunks generalizing scan current with
  | nil => exact absurd rfl nonempty
  | cons hunk hunks ih =>
    have noHeaderTail : startsWith newHeaderMark (nextRow (hunkRows hunks ++ rest)) = false := by
      cases hunks with
      | nil => exact noHeader
      | cons second hunks =>
        have tail : hunkRows (second :: hunks) ++ rest = second.printed ++ (hunkRows hunks ++ rest) :=
          List.append_assoc _ _ _
        rw [tail]
        exact (hunk_not_header second _).1
    have header := SectionScanned.row isCurrent named hunk.header
    obtain ⟨middle, scanned, inHunk⟩ := @scanSections_rows
      { current with rows := current.rows ++ [hunk.header] } named scan.closed hunk.rows _ noHeaderTail
    have shape : hunkRows (hunk :: hunks) ++ rest =
        hunk.header :: (hunk.rows.map PatchRow.text ++ (hunkRows hunks ++ rest)) := by
      unfold hunkRows
      rw [List.flatMap_cons, List.append_assoc]
      rfl
    have first := header.append rfl inHunk
    rw [shape, scanSections_hunkHeader isCurrent, scanned]
    cases hunks with
    | nil =>
      have none : misread hunk.rows (hunkRows [] ++ rest) = 0 := by
        have next : nextRow (hunkRows [] ++ rest) = nextRow rest := rfl
        unfold misread
        rw [next, noHunk, Bool.and_false]
        rfl
      rw [none] at first
      refine ⟨middle, rfl, ?_⟩
      have rows : hunkRows [hunk] = [hunk.header] ++ hunk.rows.map PatchRow.text :=
        List.append_nil _
      rw [rows]
      exact first
    | cons second hunks =>
      obtain ⟨last, isLast, namedLast⟩ := inHunk.named
      obtain ⟨after, rest', others⟩ := ih isLast namedLast (List.cons_ne_nil _ _)
      refine ⟨after, rest', ?_⟩
      have opened : misread hunk.rows (hunkRows (second :: hunks) ++ rest) =
          if endsLikeHeaders hunk.rows then 1 else 0 := by
        have tail : hunkRows (second :: hunks) ++ rest =
            second.printed ++ (hunkRows hunks ++ rest) := List.append_assoc _ _ _
        unfold misread
        rw [tail, (hunk_not_header second _).2, Bool.and_true]
      have rows : hunkRows (hunk :: second :: hunks) =
          [hunk.header] ++ hunk.rows.map PatchRow.text ++ hunkRows (second :: hunks) := rfl
      rw [opened, Nat.zero_add] at first
      rw [rows]
      exact first.append isLast others

end Hunks

section Files

variable {file : PatchFile}

/-- The open section of a file, named by its headers. -/
def PatchFile.opened (file : PatchFile) : PatchSection :=
  { rows := []
    oldPath := if file.change = .added then none else some file.path.text
    newPath := if file.change = .deleted then none else some file.path.text
    named := true
    hasHeaderPair := true
    fromGitHeader := file.hasGitHeader }

theorem takeWhile_no_tab {text : Text} (noTab : tab ∉ text) : text.takeWhile (· ≠ tab) = text := by
  induction text with
  | nil => rfl
  | cons unit text ih =>
    rw [List.mem_cons, not_or] at noTab
    rw [List.takeWhile_cons_of_pos (by simpa using Ne.symm noTab.1), ih noTab.2]

theorem trimText_eq {text : Text} (first : ∀ unit, text.head? = some unit → isTrimmedUnit unit = false)
    (last : ∀ unit, text.getLast? = some unit → isTrimmedUnit unit = false) :
    Library.trimText text = text := by
  have keeps : ∀ other : Text, (∀ unit, other.head? = some unit → isTrimmedUnit unit = false) →
      other.dropWhile isTrimmedUnit = other := by
    intro other head
    cases other with
    | nil => rfl
    | cons unit other => exact List.dropWhile_cons_of_neg (Bool.eq_false_iff.mp (head unit rfl))
  unfold Library.trimText
  rw [keeps text first, keeps text.reverse, List.reverse_reverse]
  intro unit head
  apply last unit
  rw [← List.head?_reverse]
  exact head

theorem sourceHeaderPath_side {mark side : Text} (path : PatchPath) (length : mark.length = 4)
    (isSide : side = oldPathMark ∨ side = newPathMark) :
    sourceHeaderPath (mark ++ (side ++ path.text)) = some path.text := by
  have noTab : tab ∉ side ++ path.text := by
    intro member
    rcases List.mem_append.mp member with inSide | inPath
    · rcases isSide with rfl | rfl
      · exact absurd inSide (by decide)
      · exact absurd inSide (by decide)
    · exact path.noTab inPath
  have trimmed : Library.trimText (side ++ path.text) = side ++ path.text := by
    apply trimText_eq
    · intro unit head
      rcases isSide with rfl | rfl
      · cases head
        decide
      · cases head
        decide
    · intro unit last
      cases isEmpty : path.text with
      | nil =>
        rw [isEmpty, List.append_nil] at last
        rcases isSide with rfl | rfl
        · cases last
          decide
        · cases last
          decide
      | cons second rest =>
        have some : path.text ≠ [] := by
          rw [isEmpty]
          exact List.cons_ne_nil _ _
        rw [List.getLast?_append_of_ne_nil _ some] at last
        exact path.noSpace unit last
  unfold sourceHeaderPath
  dsimp only
  rw [← length, List.drop_left, takeWhile_no_tab noTab, trimmed]
  rcases isSide with rfl | rfl
  · have present : ¬(oldPathMark ++ path.text = [] ∨
        oldPathMark ++ path.text = unitsOf "/dev/null") := by
      rintro (none | absent)
      · cases none
      · exact absurd (List.cons.inj absent).1 (by decide)
    rw [if_neg present]
    have side : ([oldPathMark, newPathMark].find? (startsWith · (oldPathMark ++ path.text))) =
        some oldPathMark := rfl
    unfold withoutSide
    rw [side]
    rfl
  · have present : ¬(newPathMark ++ path.text = [] ∨
        newPathMark ++ path.text = unitsOf "/dev/null") := by
      rintro (none | absent)
      · cases none
      · exact absurd (List.cons.inj absent).1 (by decide)
    rw [if_neg present]
    have side : ([oldPathMark, newPathMark].find? (startsWith · (newPathMark ++ path.text))) =
        some newPathMark := rfl
    unfold withoutSide
    rw [side]
    rfl

theorem sourceHeaderPath_headers (file : PatchFile) :
    sourceHeaderPath file.oldHeader = file.opened.oldPath ∧
      sourceHeaderPath file.newHeader = file.opened.newPath := by
  have noOld : sourceHeaderPath (oldHeaderMark ++ absentPath) = none := by
    decide +kernel
  have noNew : sourceHeaderPath (newHeaderMark ++ absentPath) = none := by
    decide +kernel
  unfold PatchFile.oldHeader PatchFile.newHeader PatchFile.opened
  refine ⟨?_, ?_⟩
  · split
    · exact noOld
    · exact sourceHeaderPath_side file.path rfl (Or.inl rfl)
  · split
    · exact noNew
    · exact sourceHeaderPath_side file.path rfl (Or.inr rfl)

def Ready (scan : SectionScan) : Prop :=
  ∀ current, scan.current = some current → current.hasHeaderPair = true

end Files

section Scan

theorem isFileHeaderPair_file (file : PatchFile) (rest : List Text) :
    isFileHeaderPair (file.oldHeader :: file.newHeader :: rest) = true := by
  have old : startsWith oldHeaderMark file.oldHeader = true :=
    List.isPrefixOf_iff_prefix.mpr (List.prefix_append _ _)
  have new : startsWith newHeaderMark file.newHeader = true :=
    List.isPrefixOf_iff_prefix.mpr (List.prefix_append _ _)
  exact congrArg₂ (· && ·) old new

theorem scanSections_headers {scan : SectionScan} (ready : Ready scan) (file : PatchFile)
    (rest : List Text) (hunks : startsWith hunkMark (nextRow rest) = true) :
    scanSections ((if file.hasGitHeader then [file.gitHeader] else []) ++
        file.oldHeader :: file.newHeader :: rest) false scan =
      scanSections rest false ⟨scan.all, some file.opened, false⟩ := by
  obtain ⟨old, new⟩ := sourceHeaderPath_headers file
  have third : (file.newHeader :: rest)[1]?.getD [] = nextRow rest := by
    unfold nextRow
    rw [List.head?_eq_getElem?]
    rfl
  have notGit : startsWith gitDiffHeader file.oldHeader = false := rfl
  -- The pair is taken, whatever was open.
  have pair : ∀ before : SectionScan,
      scanSections (file.oldHeader :: file.newHeader :: rest) false before =
        scanSections rest false (before.headerPair file.oldHeader file.newHeader) := by
    intro before
    rw [scanSections, notGit, if_neg Bool.false_ne_true, isFileHeaderPair_file, third, hunks,
      Bool.or_true, Bool.true_and, if_pos rfl, scanSections]
    rfl
  cases git : file.hasGitHeader with
  | true =>
    have isGit : startsWith gitDiffHeader file.gitHeader = true :=
      List.isPrefixOf_iff_prefix.mpr (List.prefix_append _ _)
    rw [if_pos rfl, List.singleton_append, scanSections, isGit, if_pos rfl, pair]
    unfold SectionScan.headerPair SectionScan.gitHeader SectionScan.openWith PatchFile.opened
    rw [old, new, git]
    rfl
  | false =>
    rw [if_neg Bool.false_ne_true, List.nil_append, pair]
    have opened : scan.headerPair file.oldHeader file.newHeader =
        ⟨scan.all, some file.opened, false⟩ := by
      unfold SectionScan.headerPair
      rw [old, new]
      cases isCurrent : scan.current with
      | none =>
        unfold SectionScan.openWith PatchFile.opened
        rw [git]
        rfl
      | some current =>
        dsimp only
        rw [ready current isCurrent, if_pos rfl]
        unfold SectionScan.openWith PatchFile.opened
        rw [git]
        rfl
    rw [opened]

def PatchFile.section' (file : PatchFile) : PatchSection :=
  { file.opened with rows := hunkRows file.hunks }

def misreads (files : List PatchFile) : ℕ := (files.map fun file => splits file.hunks).sum

theorem nextRow_printedRows (files : List PatchFile) :
    startsWith newHeaderMark (nextRow (printedRows files)) = false ∧
      startsWith hunkMark (nextRow (printedRows files)) = false := by
  cases files with
  | nil => exact ⟨rfl, rfl⟩
  | cons file files =>
    unfold printedRows PatchFile.printed
    rw [List.flatMap_cons]
    cases file.hasGitHeader with
    | true => exact ⟨rfl, rfl⟩
    | false => exact ⟨rfl, rfl⟩

theorem nextRow_hunkRows {hunks : List PatchHunk} (nonempty : hunks ≠ []) (rest : List Text) :
    startsWith hunkMark (nextRow (hunkRows hunks ++ rest)) = true := by
  obtain ⟨hunk, more, rfl⟩ := List.exists_cons_of_ne_nil nonempty
  have shape : hunkRows (hunk :: more) ++ rest = hunk.printed ++ (hunkRows more ++ rest) :=
    List.append_assoc _ _ _
  rw [shape]
  exact (hunk_not_header hunk _).2

/-- The scan of printed files: a section for each, and one for each misread hunk. -/
theorem scanSections_files {scan : SectionScan} (ready : Ready scan) (files : List PatchFile) :
    (scanSections (printedRows files) false scan).all.length =
        scan.all.length + files.length + misreads files ∧
      (misreads files = 0 → (scanSections (printedRows files) false scan).all =
        scan.all ++ files.map PatchFile.section') := by
  induction files generalizing scan with
  | nil => exact ⟨rfl, fun _ => (List.append_nil _).symm⟩
  | cons file files ih =>
    obtain ⟨noHeader, noHunk⟩ := nextRow_printedRows files
    obtain ⟨after, scanned, facts⟩ := @scanSections_hunks ⟨scan.all, some file.opened, false⟩
      file.opened rfl rfl file.hunks file.nonempty _ noHeader noHunk
    have shape : printedRows (file :: files) =
        (if file.hasGitHeader then [file.gitHeader] else []) ++
          file.oldHeader :: file.newHeader :: (hunkRows file.hunks ++ printedRows files) := by
      unfold printedRows PatchFile.printed
      rw [List.flatMap_cons, List.append_assoc]
      rfl
    have readyAfter : Ready after := by
      intro current isCurrent
      obtain ⟨last, isLast, named⟩ := facts.named
      rw [isLast] at isCurrent
      cases isCurrent
      exact named
    obtain ⟨count, exactly⟩ := ih readyAfter
    have one : (SectionScan.mk scan.all (some file.opened) false).all.length =
        scan.all.length + 1 := by
      unfold SectionScan.all
      rw [List.length_append]
      rfl
    have total : misreads (file :: files) = splits file.hunks + misreads files := by
      unfold misreads
      rw [List.map_cons, List.sum_cons]
    rw [shape, scanSections_headers ready file _ (nextRow_hunkRows file.nonempty _), scanned, total]
    refine ⟨?_, fun none => ?_⟩
    · rw [count, facts.count, one, List.length_cons]
      omega
    · obtain ⟨noSplits, noMisreads⟩ := Nat.add_eq_zero_iff.mp none
      rw [exactly noMisreads, facts.exactly noSplits]
      unfold SectionScan.all
      rw [List.map_cons]
      simp [PatchFile.section', PatchFile.opened]

end Scan

end OxeeUI.Chat
