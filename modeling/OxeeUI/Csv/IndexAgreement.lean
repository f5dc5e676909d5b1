import OxeeUI.Csv.PageRows

/-!
# The byte index agrees with the parser

The pages of an index tile its file, each is parsed into its own rows, and together they
are parsed into the rows of the file.
-/

namespace OxeeUI.Csv

open OxeeUI.Library OxeeUI.Library.Delimited

/-! ## Pages that follow each other -/

/-- Pages from a start and a first row on, up to the length and the rows of a file. -/
def Tiled (length rowCount : ℕ) : ℕ → ℕ → List CsvPageRange → Prop
  | start, firstRow, [] => start = length ∧ firstRow = rowCount
  | start, firstRow, page :: pages =>
    page.start = start ∧ start < page.stop ∧ page.firstRow = firstRow ∧ 0 < page.rowCount ∧
      Tiled length rowCount page.stop (firstRow + page.rowCount) pages

instance decidableTiled (length rowCount : ℕ) :
    ∀ (start firstRow : ℕ) (pages : List CsvPageRange),
      Decidable (Tiled length rowCount start firstRow pages)
  | _, _, [] => inferInstanceAs (Decidable (_ ∧ _))
  | _, firstRow, page :: pages =>
    have := decidableTiled length rowCount page.stop (firstRow + page.rowCount) pages
    inferInstanceAs (Decidable (_ ∧ _ ∧ _ ∧ _ ∧ _))

variable {length rowCount start firstRow row : ℕ} {pages : List CsvPageRange}

theorem Tiled.firstRow_le (tiled : Tiled length rowCount start firstRow pages) :
    ∀ page ∈ pages, firstRow ≤ page.firstRow := by
  induction pages generalizing start firstRow with
  | nil => exact fun _ none => absurd none List.not_mem_nil
  | cons first pages ih =>
    obtain ⟨-, -, isFirst, -, rest⟩ := tiled
    refine List.forall_mem_cons.mpr ⟨Nat.le_of_eq isFirst.symm, fun page member => ?_⟩
    exact Nat.le_trans (Nat.le_add_right _ _) (ih rest page member)

theorem Tiled.page_of_row (tiled : Tiled length rowCount start firstRow pages)
    (least : firstRow ≤ row) (less : row < rowCount) :
    ∃ (place : ℕ) (page : CsvPageRange), pages[place]? = some page ∧ page.firstRow ≤ row ∧
      row < page.firstRow + page.rowCount ∧
      ∀ (other : ℕ) (found : CsvPageRange), pages[other]? = some found → (found.firstRow ≤ row ↔ other ≤ place) := by
  induction pages generalizing start firstRow with
  | nil =>
    obtain ⟨-, rfl⟩ := tiled
    omega
  | cons first pages ih =>
    obtain ⟨-, -, isFirst, -, rest⟩ := tiled
    by_cases here : row < firstRow + first.rowCount
    · refine ⟨0, first, rfl, by omega, by omega, fun other found isFound => ?_⟩
      cases other with
      | zero =>
        cases isFound
        omega
      | succ other =>
        have behind := rest.firstRow_le found (List.mem_of_getElem? isFound)
        omega
    · obtain ⟨place, page, isPage, begun, within, others⟩ := ih rest (by omega)
      refine ⟨place + 1, page, isPage, begun, within, fun other found isFound => ?_⟩
      cases other with
      | zero =>
        cases isFound
        omega
      | succ other =>
        rw [others other found isFound]
        omega

theorem searchPages_eq {place : ℕ} (present : place < pages.length)
    (others : ∀ (other : ℕ) (found : CsvPageRange), pages[other]? = some found → (found.firstRow ≤ row ↔ other ≤ place))
    (rounds low high : ℕ) (above : low ≤ place) (below : place ≤ high) (inside : high < pages.length)
    (enough : high - low ≤ rounds) : searchPages pages row rounds low high = place := by
  induction rounds generalizing low high with
  | zero =>
    rw [searchPages]
    omega
  | succ rounds ih =>
    rw [searchPages]
    split
    · next apart =>
      have within : (low + high + 1) / 2 < pages.length := by omega
      have isFound := List.getElem?_eq_getElem within
      have compared := others _ _ isFound
      dsimp only
      rw [isFound, Option.map_some, Option.getD_some]
      split
      · next begun =>
        have reached := compared.mp begun
        exact ih _ _ reached below inside (by omega)
      · next notBegun =>
        have missed := mt compared.mpr notBegun
        exact ih _ _ above (by omega) (by omega) (by omega)
    · omega

theorem csvPageForRow_spec (tiled : Tiled length rowCount 0 0 pages) (less : row < rowCount) :
    ∃ page, pages[csvPageForRow pages row]? = some page ∧ page.firstRow ≤ row ∧
      row < page.firstRow + page.rowCount := by
  obtain ⟨place, page, isPage, begun, within, others⟩ := tiled.page_of_row (Nat.zero_le row) less
  have present := (List.getElem?_eq_some_iff.mp isPage).1
  have found : csvPageForRow pages row = place :=
    searchPages_eq present others pages.length 0 (pages.length - 1) (Nat.zero_le _) (by omega)
      (by omega) (by omega)
  rw [found]
  exact ⟨page, isPage, begun, within⟩

/-! ## Pages of groups -/

section Groups

variable {Item : Type*} {size : Item → ℕ} {groups : List (List Item)}

theorem extent_pos {items : List Item} (nonempty : items ≠ [])
    (positive : ∀ item ∈ items, 0 < size item) : 0 < extent size items := by
  cases items with
  | nil => exact absurd rfl nonempty
  | cons item items =>
    have first := positive item List.mem_cons_self
    rw [extent, List.map_cons, List.sum_cons]
    omega

theorem tiled_pagesOf (nonempty : ∀ group ∈ groups, group ≠ [])
    (positive : ∀ item ∈ groups.flatten, 0 < size item) {start position : ℕ} (firstRow : ℕ)
    (begun : start ≤ position) (nothing : groups = [] → start = position) :
    Tiled (position + extent size groups.flatten) (firstRow + groups.flatten.length) start firstRow
      (pagesOf size start position firstRow groups) := by
  induction groups generalizing start position firstRow with
  | nil => exact ⟨nothing rfl, rfl⟩
  | cons group groups ih =>
    obtain ⟨filled, later⟩ := List.forall_mem_cons.mp nonempty
    rw [List.flatten_cons] at positive ⊢
    have inside := extent_pos filled fun item member =>
      positive item (List.mem_append_left _ member)
    have rest := ih later (fun item member => positive item (List.mem_append_right _ member))
      (firstRow + group.length) (Nat.le_refl (position + extent size group)) fun _ => rfl
    rw [extent_append, List.length_append, ← Nat.add_assoc, ← Nat.add_assoc]
    exact ⟨rfl, by dsimp only; omega, rfl, List.length_pos_iff.mpr filled, rest⟩

end Groups

/-- What a page's bytes are decoded and parsed into; the mark at the file's start is left out. -/
def rowsOfPage (delimiter : UInt8) (bytes : List UInt8) (page : CsvPageRange) :
    Option (List (List Text)) :=
  (decodeUtf8 ((bytes.drop page.start).take (page.stop - page.start))).bind fun characters =>
    (parseCsv (textOf characters) delimiter.toUInt16
      (.unlimited (page.start = 0) true)).toOption.map (·.rows)

variable {delimiter : UInt8}

theorem rowsOfPage_eq (ascii : delimiter.toNat < 128) {front opening back : List Char}
    {group : List (Record Char)} {page : CsvPageRange}
    (splits : Splits Char.toNat delimiter.toNat group)
    (isStart : page.start = (front.flatMap String.utf8EncodeChar).length)
    (isStop : page.stop = page.start + ((opening ++ joined group).flatMap String.utf8EncodeChar).length)
    (opens : Opens opening (page.start = 0) (joined group)) :
    rowsOfPage delimiter ((front ++ (opening ++ joined group) ++ back).flatMap String.utf8EncodeChar)
      page = some (group.map (textRow delimiter)) := by
  have slice : ((((front ++ (opening ++ joined group) ++ back).flatMap
      String.utf8EncodeChar).drop page.start).take (page.stop - page.start)) =
        (opening ++ joined group).flatMap String.utf8EncodeChar := by
    rw [isStop, Nat.add_sub_cancel_left, isStart]
    generalize opening ++ joined group = middle
    rw [List.flatMap_append, List.flatMap_append, List.append_assoc, List.drop_left, List.take_left]
  obtain ⟨parsed, isParsed, rows⟩ := parse_records ascii splits (contentStart_opens opens)
  rw [rowsOfPage, slice, decodeUtf8_eq_some.mpr rfl, Option.bind_some, isParsed, ← rows]
  rfl

theorem text_pos {records : List (Record Char)}
    (splits : Splits Char.toNat delimiter.toNat records) :
    ∀ record ∈ records, 0 < textSize byteRecord record := by
  intro record member
  have filled := splits.text_ne_nil record member
  have grows : ∀ characters : List Char, characters ≠ [] →
      0 < (characters.flatMap String.utf8EncodeChar).length := by
    intro characters some
    cases characters with
    | nil => exact absurd rfl some
    | cons character characters =>
      have first := String.length_utf8EncodeChar character
      have positive := character.utf8Size_pos
      rw [List.flatMap_cons, List.length_append]
      omega
  have size : textSize byteRecord record = (record.text.flatMap String.utf8EncodeChar).length := by
    rw [textSize, byteRecord, Record.encoded, Record.text, Record.text, List.flatMap_append]
  rw [size]
  exact grows _ filled

theorem extent_joined (records : List (Record Char)) :
    ((joined records).flatMap String.utf8EncodeChar).length =
      extent (textSize byteRecord) records := by
  rw [← joined_encoded, extent, joined, List.length_flatMap, List.map_map]
  rfl

/-- The pages of groups are parsed into the rows of the groups. -/
theorem pages_rows (ascii : delimiter.toNat < 128) {groups : List (List (Record Char))}
    {front opening : List Char} {start position firstRow : ℕ}
    (splits : Splits Char.toNat delimiter.toNat groups.flatten)
    (nonempty : ∀ group ∈ groups, group ≠ [])
    (isStart : start = (front.flatMap String.utf8EncodeChar).length)
    (isPosition : position = ((front ++ opening).flatMap String.utf8EncodeChar).length)
    (opens : Opens opening (start = 0) (joined groups.flatten)) :
    List.Forall₂ (fun page rows => rowsOfPage delimiter
        ((front ++ opening ++ joined groups.flatten).flatMap String.utf8EncodeChar) page = some rows ∧
          rows.length = page.rowCount)
      (pagesOf (textSize byteRecord) start position firstRow groups)
      (groups.map (·.map (textRow delimiter))) := by
  induction groups generalizing front opening start position firstRow with
  | nil => exact .nil
  | cons group groups ih =>
    obtain ⟨filled, later⟩ := List.forall_mem_cons.mp nonempty
    rw [List.flatten_cons] at splits
    obtain ⟨first, rest⟩ := splits.of_append
    have whole : front ++ opening ++ joined (group :: groups).flatten =
        front ++ (opening ++ joined group) ++ joined groups.flatten := by
      rw [List.flatten_cons, joined_append]
      simp
    have positive := extent_pos filled (text_pos first)
    have isStop : position + extent (textSize byteRecord) group =
        ((front ++ (opening ++ joined group)).flatMap String.utf8EncodeChar).length := by
      rw [isPosition, ← extent_joined, ← List.length_append, ← List.flatMap_append, List.append_assoc]
    have openings : Opens opening (start = 0) (joined group) :=
      opens.shorter ⟨joined groups.flatten, (joined_append group groups.flatten).symm⟩
    rw [whole, pagesOf, List.map_cons]
    refine .cons ⟨rowsOfPage_eq ascii first isStart ?_ openings, List.length_map _⟩ ?_
    · dsimp only
      rw [isStop, List.flatMap_append, List.length_append, ← isStart]
    · have behind : position + extent (textSize byteRecord) group ≠ 0 := by omega
      have later' : Opens [] (decide (position + extent (textSize byteRecord) group = 0))
          (joined groups.flatten) := by
        rw [decide_eq_false behind]
        exact .later _
      have pages := @ih _ [] _ (position + extent (textSize byteRecord) group)
        (firstRow + group.length) rest later isStop ((List.append_nil _).symm ▸ isStop) later'
      rwa [List.append_nil] at pages

/-! ## The index of a file -/

/-- Of valid UTF-8 the index, when it finishes, does not depend on the chunks; its pages tile the
file unless that is a byte order mark alone; they are parsed into their own rows, and together
into the rows of the file; and the page found for a row holds it. -/
theorem indexChunks_agrees {delimiter : UInt8} (ascii : delimiter.toNat < 128)
    {chunks : List (List UInt8)} {characters : List Char} {index : CsvIndex}
    (decoded : decodeUtf8 chunks.flatten = some characters)
    (indexed : indexChunks delimiter chunks = .ok index) :
    (∀ others : List (List UInt8), others.flatten = chunks.flatten →
      indexChunks delimiter others = .ok index) ∧
    (chunks.flatten ≠ [239, 187, 191] →
      Tiled chunks.flatten.length index.rowCount 0 0 index.pages) ∧
    (∃ parsed, parseCsv (textOf characters) delimiter.toUInt16 (.unlimited true true) = .ok parsed ∧
      index.rowCount = parsed.rows.length ∧
      index.columnCount = (parsed.rows.map List.length).foldl max 0 ∧
      ∃ rowsOfPages, rowsOfPages.flatten = parsed.rows ∧
        List.Forall₂ (fun page rows => rowsOfPage delimiter chunks.flatten page = some rows ∧
          rows.length = page.rowCount) index.pages rowsOfPages) ∧
    ∀ row < index.rowCount, ∃ page, index.pages[csvPageForRow index.pages row]? = some page ∧
      page.firstRow ≤ row ∧ row < page.firstRow + page.rowCount := by
  have again := indexed
  rw [indexChunks_eq] at again
  obtain ⟨start, groups, isText, opening, splits, nonempty, isIndex⟩ :=
    file_groups ascii decoded again
  have isBytes := decodeUtf8_eq_some.mp decoded
  have opens : Opens start true (joined groups.flatten) := by
    rcases opening with rfl | ⟨rfl, other⟩
    · exact .marked _
    · exact .unmarked _ other
  have tiled (filled : groups = [] → start = []) :
      Tiled chunks.flatten.length index.rowCount 0 0 index.pages := by
    have all := tiled_pagesOf nonempty (text_pos splits) 0
      (Nat.zero_le (start.flatMap String.utf8EncodeChar).length) fun none => by rw [filled none]; rfl
    have length : chunks.flatten.length = (start.flatMap String.utf8EncodeChar).length +
        extent (textSize byteRecord) groups.flatten := by
      rw [isBytes, isText, List.flatMap_append, List.length_append, extent_joined]
    rw [length, isIndex]
    rwa [Nat.zero_add] at all
  refine ⟨?_, ?_, ?_, ?_⟩
  · intro others same
    rw [indexChunks_eq, same, again]
  · intro noMark
    refine tiled fun none => ?_
    rcases opening with rfl | ⟨rfl, -⟩
    · refine absurd ?_ noMark
      rw [isBytes, isText, none]
      decide
    · rfl
  · obtain ⟨parsed, isParsed, rows⟩ := parse_records ascii splits (contentStart_opens opens)
    refine ⟨parsed, isText ▸ isParsed, ?_, ?_, groups.map (·.map (textRow delimiter)), ?_, ?_⟩
    · rw [isIndex, rows, List.length_map]
    · have widths : groups.flatten.map (List.length ∘ textRow delimiter) =
          groups.flatten.map (rowWidth delimiter byteRecord) :=
        List.map_congr_left fun record member =>
          length_textRow ascii (splits.scanned record member)
      rw [isIndex, rows, List.map_map, widths]
      rfl
    · rw [rows, List.map_flatten]
    · have pages := @pages_rows delimiter ascii groups [] start 0 _ 0 splits nonempty rfl rfl opens
      rw [List.nil_append, ← isText, ← isBytes] at pages
      rw [isIndex]
      exact pages
  · intro row less
    have filled : groups ≠ [] := by
      rintro rfl
      rw [isIndex] at less
      exact absurd less (Nat.not_lt_zero _)
    exact csvPageForRow_spec (tiled fun none => absurd none filled) less

/-- A file of two rows in two chunks, of which the first ends within a line ending. -/
theorem indexChunks_agrees_rows : ∃ rows, rowsOfPage 44 [97, 44, 98, 13, 10, 99] ⟨0, 6, 0, 2⟩ = some rows ∧
    rows.length = 2 := by
  have agrees := @indexChunks_agrees 44 (by decide) [[97, 44, 98, 13], [10, 99]]
    ['a', ',', 'b', '\r', '\n', 'c'] ⟨[⟨0, 6, 0, 2⟩], 2, 2⟩
    (decodeUtf8_eq_some.mpr (by decide)) (by decide)
  obtain ⟨-, -, ⟨-, -, -, -, rowsOfPages, -, pages⟩, -⟩ := agrees
  cases pages with
  | cons page rest => exact ⟨_, page⟩

/-- A byte order mark alone has no page. -/
theorem indexChunks_mark : decodeUtf8 [239, 187, 191] = some [byteOrderChar] ∧
    indexChunks 44 [[239, 187, 191]] = .ok ⟨[], 0, 0⟩ ∧ ¬Tiled 3 0 0 0 [] :=
  ⟨decodeUtf8_eq_some.mpr (by decide), rfl, by decide⟩

end OxeeUI.Csv
