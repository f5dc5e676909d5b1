import OxeeUI.Csv.ByteRows

/-!
# Pages of rows

The rows counted so far are the groups of the pages that ended and the rows of the page
under way.  The first page begins at the file's start, also with a byte order mark there.
-/

namespace OxeeUI.Csv

open OxeeUI.Library.Delimited

variable {Item : Type*} {size width : Item → ℕ} {base : ℕ} {groups : List (List Item)}
  {current : List Item} {item : Item} {scan after : CsvScan}

def extent (size : Item → ℕ) (items : List Item) : ℕ := (items.map size).sum

def largest (width : Item → ℕ) (items : List Item) : ℕ := (items.map width).foldl max 0

/-- The pages of groups of rows, the first of them begun at a start of its own. -/
def pagesOf (size : Item → ℕ) : ℕ → ℕ → ℕ → List (List Item) → List CsvPageRange
  | _, _, _, [] => []
  | start, position, firstRow, group :: groups =>
    let stop := position + extent size group
    ⟨start, stop, firstRow, group.length⟩ ::
      pagesOf size stop stop (firstRow + group.length) groups

theorem extent_append (front back : List Item) :
    extent size (front ++ back) = extent size front + extent size back := by
  simp [extent]

theorem largest_append (front : List Item) (item : Item) :
    largest width (front ++ [item]) = max (largest width front) (width item) := by
  simp [largest]

theorem pagesOf_append (start position firstRow : ℕ) (groups : List (List Item))
    (group : List Item) :
    pagesOf size start position firstRow (groups ++ [group]) =
      pagesOf size start position firstRow groups ++
        [⟨if groups = [] then start else position + extent size groups.flatten,
          position + extent size (groups.flatten ++ group), firstRow + groups.flatten.length,
          group.length⟩] := by
  induction groups generalizing start position firstRow with
  | nil => simp [pagesOf]
  | cons first groups ih =>
    rw [List.cons_append, pagesOf, pagesOf, ih]
    by_cases last : groups = []
    · simp [last, extent_append, Nat.add_assoc]
    · simp [last, extent_append, Nat.add_assoc]

/-- The rows counted, as groups of the pages that ended and the page under way. -/
structure Paged (size width : Item → ℕ) (base : ℕ) (groups : List (List Item)) (current : List Item)
    (scan : CsvScan) : Prop where
  pages : scan.pages = pagesOf size 0 base 0 groups
  pageStart : scan.pageStart = if groups = [] then 0 else base + extent size groups.flatten
  pageFirstRow : scan.pageFirstRow = groups.flatten.length
  rowCount : scan.rowCount = (groups.flatten ++ current).length
  columnCount : scan.columnCount = largest width (groups.flatten ++ current)
  nonempty : ∀ group ∈ groups, group ≠ []

theorem checkpoint_paged {stop : ℕ} (paged : Paged size width base groups current scan)
    (isStop : stop = base + extent size (groups.flatten ++ current))
    (ok : scan.checkpoint stop = .ok after) :
    ∃ groups', groups'.flatten = groups.flatten ++ current ∧
      Paged size width base groups' [] after ∧ after.rowStart = scan.rowStart ∧
      after.columns = scan.columns := by
  rw [CsvScan.checkpoint, paged.rowCount, paged.pageFirstRow, List.length_append] at ok
  cases current with
  | nil =>
    rw [if_pos (by simp)] at ok
    cases ok
    exact ⟨groups, (List.append_nil _).symm, paged, rfl, rfl⟩
  | cons first current =>
    rw [if_neg (by simp)] at ok
    split at ok
    · cases ok
    · cases ok
      have flat : (groups ++ [first :: current]).flatten = groups.flatten ++ first :: current := by
        simp
      refine ⟨groups ++ [first :: current], flat, ⟨?_, ?_, ?_, ?_, ?_, ?_⟩, rfl, rfl⟩
      · rw [pagesOf_append, ← paged.pages, ← paged.pageStart, ← isStop]
        simp
      · rw [if_neg (by simp), flat, ← isStop]
      · simp
      · simp
      · rw [flat, List.append_nil]
        exact paged.columnCount
      · intro group member
        rcases List.mem_append.mp member with earlier | last
        · exact paged.nonempty group earlier
        · rw [List.mem_singleton.mp last]
          exact List.cons_ne_nil _ _

theorem counted_paged (paged : Paged size width base groups current scan)
    (columns : scan.columns = width item) :
    Paged size width base groups (current ++ [item]) { scan with
      rowCount := scan.rowCount + 1
      columnCount := max scan.columnCount scan.columns
      pageCells := scan.pageCells + scan.columns } := by
  refine ⟨paged.pages, paged.pageStart, paged.pageFirstRow, ?_, ?_, paged.nonempty⟩
  · simp [paged.rowCount, Nat.add_assoc]
  · rw [← List.append_assoc, largest_append, ← paged.columnCount, columns]

theorem countRow_paged {stop : ℕ} (paged : Paged size width base groups current scan)
    (rowStart : scan.rowStart = base + extent size (groups.flatten ++ current))
    (columns : scan.columns = width item) (ok : scan.countRow stop = .ok after) :
    ∃ groups' current', groups'.flatten ++ current' = groups.flatten ++ current ++ [item] ∧
      Paged size width base groups' current' after ∧ after.rowStart = scan.rowStart := by
  unfold CsvScan.countRow at ok
  split at ok
  · cases ended : scan.checkpoint scan.rowStart with
    | error error =>
      rw [ended] at ok
      cases ok
    | ok settled =>
      rw [ended] at ok
      cases ok
      obtain ⟨groups', flat, paged', kept, columns'⟩ := checkpoint_paged paged rowStart ended
      exact ⟨groups', [item], by rw [flat], counted_paged paged' (columns'.trans columns), kept⟩
  · cases ok
    exact ⟨groups, current ++ [item], (List.append_assoc _ _ _).symm, counted_paged paged columns, rfl⟩

theorem fillPage_paged {stop : ℕ} (paged : Paged size width base groups current scan)
    (isStop : stop = base + extent size (groups.flatten ++ current))
    (ok : scan.fillPage stop = .ok after) :
    ∃ groups' current', groups'.flatten ++ current' = groups.flatten ++ current ∧
      Paged size width base groups' current' after := by
  unfold CsvScan.fillPage at ok
  split at ok
  · obtain ⟨groups', flat, paged', -⟩ := checkpoint_paged paged isStop ok
    exact ⟨groups', [], by rw [flat, List.append_nil], paged'⟩
  · cases ok
    exact ⟨groups, current, rfl, paged⟩

/-- A row is added to the page under way, which may end before it and behind it. -/
theorem emit_paged {stop contentEnd : ℕ} (paged : Paged size width base groups current scan)
    (rowStart : scan.rowStart = base + extent size (groups.flatten ++ current))
    (isStop : stop = scan.rowStart + size item)
    (ok : scan.emit (width item) stop contentEnd = .ok after) :
    ∃ groups' current', groups'.flatten ++ current' = groups.flatten ++ current ++ [item] ∧
      Paged size width base groups' current' after ∧ after.rowStart = stop := by
  have begun : Paged size width base groups current { scan with columns := width item } :=
    ⟨paged.pages, paged.pageStart, paged.pageFirstRow, paged.rowCount, paged.columnCount,
      paged.nonempty⟩
  rw [CsvScan.emit, CsvScan.emitRow] at ok
  split at ok
  · cases ok
  · cases isCounted : ({ scan with columns := width item } : CsvScan).countRow stop with
    | error error =>
      rw [isCounted] at ok
      cases ok
    | ok counted =>
      rw [isCounted] at ok
      obtain ⟨groups', current', flat, paged', -⟩ :=
        @countRow_paged _ _ _ _ _ _ item _ _ _ begun rowStart rfl isCounted
      have stop' : stop = base + extent size (groups'.flatten ++ current') := by
        rw [flat, extent_append, isStop, rowStart, Nat.add_assoc]
        simp [extent]
      cases isFilled : counted.fillPage stop with
      | error error =>
        change ((counted.fillPage stop).map _).map _ = _ at ok
        rw [isFilled] at ok
        cases ok
      | ok filled =>
        change ((counted.fillPage stop).map _).map _ = _ at ok
        rw [isFilled] at ok
        cases ok
        obtain ⟨groups'', current'', flat', paged''⟩ := fillPage_paged paged' stop' isFilled
        exact ⟨groups'', current'', flat'.trans flat, ⟨paged''.pages, paged''.pageStart,
          paged''.pageFirstRow, paged''.rowCount, paged''.columnCount, paged''.nonempty⟩, rfl⟩

/-! ## Whole files -/

variable {delimiter : UInt8} {record : Item → Record UInt8}

def textSize (record : Item → Record UInt8) (item : Item) : ℕ := (record item).text.length

def rowWidth (delimiter : UInt8) (record : Item → Record UInt8) (item : Item) : ℕ :=
  ((record item).row UInt8.toNat delimiter.toNat).length

theorem run_paged {items : List Item} {index : CsvIndex}
    (splits : Splits UInt8.toNat delimiter.toNat (items.map record))
    (paged : Paged (textSize record) (rowWidth delimiter record) base groups current scan)
    (rowStart : scan.rowStart = base + extent (textSize record) (groups.flatten ++ current))
    (fresh : scan.fresh = scan)
    (runs : scan.run delimiter scan.rowStart (joined (items.map record)) = .ok index) :
    ∃ groups', groups'.flatten = groups.flatten ++ current ++ items ∧
      (∀ group ∈ groups', group ≠ []) ∧
      index = ⟨pagesOf (textSize record) 0 base 0 groups',
        (groups.flatten ++ current ++ items).length,
        largest (rowWidth delimiter record) (groups.flatten ++ current ++ items)⟩ := by
  induction items generalizing scan groups current with
  | nil =>
    change scan.finish scan.rowStart = .ok index at runs
    rw [CsvScan.finish_fresh fresh] at runs
    cases ended : scan.checkpoint scan.rowStart with
    | error error =>
      rw [ended] at runs
      cases runs
    | ok last =>
      rw [ended] at runs
      cases runs
      obtain ⟨groups', flat, paged', -⟩ := checkpoint_paged paged rowStart ended
      refine ⟨groups', by rw [flat, List.append_nil], paged'.nonempty, ?_⟩
      dsimp only
      rw [paged'.pages, paged'.rowCount, paged'.columnCount, flat]
  | cons item items ih =>
    have next : ∀ emitted contentEnd, Splits UInt8.toNat delimiter.toNat (items.map record) →
        scan.emit (rowWidth delimiter record item) (scan.rowStart + textSize record item)
          contentEnd = .ok emitted →
        emitted.run delimiter (scan.rowStart + textSize record item) (joined (items.map record)) =
          .ok index →
        ∃ groups', groups'.flatten = groups.flatten ++ current ++ item :: items ∧
          (∀ group ∈ groups', group ≠ []) ∧
          index = ⟨pagesOf (textSize record) 0 base 0 groups',
            (groups.flatten ++ current ++ item :: items).length,
            largest (rowWidth delimiter record) (groups.flatten ++ current ++ item :: items)⟩ := by
      intro emitted contentEnd splits' isEmitted runs'
      obtain ⟨groups', current', flat, paged', start⟩ := emit_paged paged rowStart rfl isEmitted
      have start' : emitted.rowStart =
          base + extent (textSize record) (groups'.flatten ++ current') := by
        have single : extent (textSize record) [item] = textSize record item := by simp [extent]
        rw [start, rowStart, flat, extent_append _ [item], single, Nat.add_assoc]
      have all := ih splits' paged' start' (CsvScan.emit_fresh isEmitted) (start ▸ runs')
      rwa [flat, List.append_assoc _ [item], List.singleton_append] at all
    have begun : scan.fresh.run delimiter scan.rowStart
        (joined (record item :: items.map record)) = .ok index := by
      rw [fresh]
      exact runs
    rw [List.map_cons] at splits
    cases isRecord : record item with
    | mk content ending =>
      rw [isRecord] at splits begun
      have size : textSize record item = content.length + ending.length := by
        simp [textSize, isRecord, Record.text]
      have width {mode : Mode} (scanned : Library.Delimited.scan UInt8.toNat delimiter.toNat
          .start content = some mode) :
          rowWidth delimiter record item = CsvScan.fieldsFrom delimiter .start content + 1 := by
        rw [rowWidth, isRecord]
        exact CsvScan.length_fields [] scanned
      rw [size, ← Nat.add_assoc] at next
      generalize isRest : items.map record = rest at splits next begun
      cases splits with
      | last content nonempty mode scanned =>
        rw [width scanned] at next
        have runs' : scan.fresh.run delimiter scan.rowStart content = .ok index := by
          simpa [joined, Record.text] using begun
        obtain ⟨emitted, isEmitted, rest⟩ := CsvScan.last_run nonempty scanned runs'
        exact next emitted _ .none isEmitted rest
      | cons content ending rest mode scanned ends splits' =>
        rw [width scanned] at next
        have runs' : scan.fresh.run delimiter scan.rowStart (content ++ (ending ++ joined rest)) =
            .ok index := by
          simpa [joined, Record.text] using begun
        obtain ⟨emitted, isEmitted, rest⟩ := CsvScan.record_run scanned ends runs'
        exact next emitted _ splits' isEmitted rest

/-! ## Chunks -/

/-- The index of bytes, whatever chunks they come in. -/
def indexBytes (delimiter : UInt8) (bytes : List UInt8) : Except String CsvIndex :=
  if bytes.take 3 = [239, 187, 191] then
    { CsvScan.initial with rowStart := 3 }.run delimiter 3 (bytes.drop 3)
  else CsvScan.initial.run delimiter 0 bytes

theorem consumeFrom_append (front back : List UInt8) (position : ℕ) :
    scan.consumeFrom delimiter position (front ++ back) =
      (scan.consumeFrom delimiter position front).bind fun middle =>
        middle.consumeFrom delimiter (position + front.length) back := by
  induction front generalizing scan position with
  | nil => rfl
  | cons byte front ih =>
    rw [List.cons_append, CsvScan.consumeFrom, CsvScan.consumeFrom]
    cases scan.consume delimiter byte position with
    | error error => rfl
    | ok next =>
      have later := @ih next (position + 1)
      rw [Nat.add_right_comm, Nat.add_assoc] at later
      exact later

theorem feed_behind (bytes : List UInt8) {index : CsvByteIndex} (behind : 3 ≤ index.position) :
    index.feed delimiter bytes = (index.scan.consumeFrom delimiter index.position bytes).map
      fun last => ⟨index.position + bytes.length, index.prefixBytes, last⟩ := by
  induction bytes generalizing index with
  | nil => rfl
  | cons byte bytes ih =>
    rw [CsvByteIndex.feed, List.foldlM_cons, CsvByteIndex.feedByte, if_neg (Nat.not_lt.mpr behind),
      CsvScan.consumeFrom]
    cases index.scan.consume delimiter byte index.position with
    | error error => rfl
    | ok next =>
      refine (@ih ⟨index.position + 1, index.prefixBytes, next⟩
        (Nat.le_succ_of_le behind)).trans ?_
      rw [List.length_cons, Nat.add_comm bytes.length, ← Nat.add_assoc]
      rfl

theorem finish_behind {index : CsvByteIndex} (behind : 3 ≤ index.position) :
    index.finish delimiter = index.scan.finish index.position := by
  rw [CsvByteIndex.finish, if_neg (Nat.not_lt.mpr behind)]
  rfl

theorem feed_finish (bytes : List UInt8) :
    (CsvByteIndex.initial.feed delimiter bytes).bind (CsvByteIndex.finish delimiter) =
      indexBytes delimiter bytes := by
  have short (bytes : List UInt8) (few : bytes.length < 3)
      (fed : CsvByteIndex.initial.feed delimiter bytes = .ok ⟨bytes.length, bytes, .initial⟩) :
      (CsvByteIndex.initial.feed delimiter bytes).bind (CsvByteIndex.finish delimiter) =
        indexBytes delimiter bytes := by
    have noMark : bytes ≠ [239, 187, 191] := fun same => by simp [same] at few
    have noMark' : bytes.take 3 ≠ [239, 187, 191] := by rwa [List.take_of_length_le (Nat.le_of_lt few)]
    rw [fed, indexBytes, if_neg noMark', CsvScan.run, Nat.zero_add]
    change CsvByteIndex.finish delimiter ⟨bytes.length, bytes, .initial⟩ = _
    rw [CsvByteIndex.finish, if_pos few, CsvScan.consumePrefix, if_neg noMark]
  rcases bytes with _ | ⟨first, _ | ⟨second, _ | ⟨third, rest⟩⟩⟩
  · exact short [] (by decide) rfl
  · exact short [first] (by simp) rfl
  · exact short [first, second] (by simp) rfl
  · have begun : CsvByteIndex.initial.feed delimiter (first :: second :: third :: rest) =
        (CsvScan.initial.consumePrefix delimiter [first, second, third]).bind fun scan =>
          CsvByteIndex.feed delimiter ⟨3, [], scan⟩ rest := by
      change ((CsvScan.initial.consumePrefix delimiter [first, second, third]).map _).bind _ = _
      cases CsvScan.initial.consumePrefix delimiter [first, second, third] <;> rfl
    have rest' : ∀ scan : CsvScan, (CsvByteIndex.feed delimiter ⟨3, [], scan⟩ rest).bind
        (CsvByteIndex.finish delimiter) = scan.run delimiter 3 rest := by
      intro scan
      rw [feed_behind rest (le_refl 3), CsvScan.run]
      cases scan.consumeFrom delimiter 3 rest with
      | error error => rfl
      | ok last => exact finish_behind (Nat.le_add_right 3 _)
    rw [begun, CsvScan.consumePrefix, indexBytes]
    change _ = if [first, second, third] = [239, 187, 191] then _ else _
    split
    · exact rest' _
    · have cut : CsvScan.initial.run delimiter 0 (first :: second :: third :: rest) =
          (CsvScan.initial.consumeFrom delimiter 0 [first, second, third]).bind fun scan =>
            scan.run delimiter 3 rest := by
        have split := @consumeFrom_append .initial delimiter [first, second, third] rest 0
        rw [List.cons_append, List.cons_append, List.cons_append, List.nil_append] at split
        rw [CsvScan.run, split]
        cases CsvScan.initial.consumeFrom delimiter 0 [first, second, third] with
        | error error => rfl
        | ok middle =>
          have length : 0 + (first :: second :: third :: rest).length = 3 + rest.length := by
            simp
            omega
          rw [length]
          rfl
      rw [cut]
      cases CsvScan.initial.consumeFrom delimiter 0 [first, second, third] with
      | error error => rfl
      | ok middle => exact rest' middle

theorem indexChunks_eq (chunks : List (List UInt8)) :
    indexChunks delimiter chunks = indexBytes delimiter chunks.flatten := by
  have feeds : ∀ index : CsvByteIndex,
      chunks.foldlM (CsvByteIndex.feed delimiter) index = index.feed delimiter chunks.flatten := by
    induction chunks with
    | nil => exact fun _ => rfl
    | cons chunk chunks ih =>
      intro index
      rw [List.foldlM_cons, List.flatten_cons, CsvByteIndex.feed, CsvByteIndex.feed,
        List.foldlM_append]
      exact congrArg _ (funext ih)
  rw [indexChunks, feeds, feed_finish]

end OxeeUI.Csv
