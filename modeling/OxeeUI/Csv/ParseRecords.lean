import OxeeUI.Csv.Parse

/-!
# What the parser reads

Without limits the loop reads the records that a source is joined from: their rows, their
spans and the spans of their fields.  With limits it reads the same or fails.
-/

namespace OxeeUI.Csv

open OxeeUI.Library OxeeUI.Library.Delimited

abbrev scanText (delimiter : UInt16) : Mode → Text → Option Mode :=
  scan UInt16.toNat delimiter.toNat

abbrev fieldsOf (delimiter : UInt16) : Mode → Text → Text → List Text :=
  fields UInt16.toNat delimiter.toNat

abbrev tokensOf (delimiter : UInt16) : Mode → Text → Text → List Text :=
  tokens UInt16.toNat delimiter.toNat

abbrev SplitsText (delimiter : UInt16) (records : List (Record UInt16)) : Prop :=
  Splits UInt16.toNat delimiter.toNat records

/-! ## Slices -/

section Slices

variable {source content rest : Text} {start i : ℕ}

theorem slice_self (source : Text) (start : ℕ) : slice source start start = [] := by
  rw [slice, Nat.sub_self, List.take_zero]

theorem slice_append (here : source.drop i = content ++ rest) (begun : start ≤ i) :
    slice source start (i + content.length) = slice source start i ++ content := by
  unfold slice
  have bridged : (source.drop start).drop (i - start) = content ++ rest := by
    rw [List.drop_drop, Nat.add_sub_cancel' begun, here]
  have longer : i + content.length - start = (i - start) + content.length := by omega
  rw [longer, List.take_add, bridged, List.take_left]

theorem slice_succ {ch : UInt16} (here : source.drop i = ch :: rest) (begun : start ≤ i) :
    slice source start (i + 1) = slice source start i ++ [ch] :=
  @slice_append source [ch] rest start i here begun

theorem getElem?_drop {next : ℕ} (here : source.drop i = content) : source[i + next]? = content[next]? := by
  rw [← here, List.getElem?_drop]

theorem length_slice (begun : start ≤ i) (within : i ≤ source.length) :
    (slice source start i).length = i - start := by
  rw [slice, List.length_take, List.length_drop]
  omega

end Slices

namespace CsvParser

variable {source : Text} {delimiter : UInt16} {limits : CsvParseLimits}
  {parser after : CsvParser} {i : ℕ} {mode : Mode} {held token : Text}

/-! ## The loop -/

/-- The loop comes to a later state, however many rounds are left. -/
def Comes (source : Text) (delimiter : UInt16) (limits : CsvParseLimits) (parser : CsvParser) (i : ℕ)
    (after : CsvParser) (j : ℕ) : Prop :=
  ∀ rounds, source.length ≤ i + rounds →
    ∃ left, source.length ≤ j + left ∧
      loop source delimiter limits rounds parser i = loop source delimiter limits left after j

theorem Comes.refl (parser : CsvParser) (i : ℕ) : Comes source delimiter limits parser i parser i :=
  fun rounds enough => ⟨rounds, enough, rfl⟩

theorem Comes.trans {middle : CsvParser} {j k : ℕ}
    (early : Comes source delimiter limits parser i middle j)
    (late : Comes source delimiter limits middle j after k) :
    Comes source delimiter limits parser i after k := by
  intro rounds enough
  obtain ⟨left, enough', same⟩ := early rounds enough
  obtain ⟨left', enough'', same'⟩ := late left enough'
  exact ⟨left', enough'', same.trans same'⟩

theorem Comes.step {ch : UInt16} {rest : Text} {j : ℕ} (here : source.drop i = ch :: rest)
    (stepped : step source delimiter limits parser i ch = .ok (after, j)) (later : i < j) :
    Comes source delimiter limits parser i after j := by
  intro rounds enough
  have read : source[i]? = some ch := @getElem?_drop source _ i 0 here
  have within : i < source.length := (List.getElem?_eq_some_iff.mp read).1
  cases rounds with
  | zero => omega
  | succ rounds =>
    refine ⟨rounds, by omega, ?_⟩
    rw [loop, read]
    simp only [stepped]

/-- Within a field: the value so far, and the token so far. -/
structure Within (source : Text) (parser : CsvParser) (i : ℕ) (mode : Mode) (held token : Text) :
    Prop where
  inside : i ≤ source.length
  begun : parser.start ≤ i
  value : parser.parts.flatten ++ slice source parser.start i = held
  measured : parser.fieldLength = parser.parts.flatten.length
  quoted : parser.inQuotes = true ↔ mode = .quoted
  empty : mode = .start → held = []
  filled : mode = .bare → held ≠ []
  fieldBegun : parser.fieldStart ≤ i
  written : slice source parser.fieldStart i = token
  content : mode ≠ .start → parser.hasContent = true

theorem Within.fresh (inside : i ≤ source.length) (parser : CsvParser) (parts : parser.parts = [])
    (fieldLength : parser.fieldLength = 0) (start : parser.start = i)
    (fieldStart : parser.fieldStart = i) (unquoted : parser.inQuotes = false) :
    Within source parser i .start [] [] := by
  refine ⟨inside, le_of_eq start, ?_, ?_, ?_, fun _ => rfl, (absurd · (by decide)),
    le_of_eq fieldStart, ?_, fun other => absurd rfl other⟩
  · rw [parts, start, slice_self]
    rfl
  · rw [parts, fieldLength]
    rfl
  · rw [unquoted]
    exact ⟨(absurd · (by decide)), (absurd · (by decide))⟩
  · rw [fieldStart, slice_self]

structure Adds (source : Text) (parser after : CsvParser) (row tokens : List Text) (some : Bool) :
    Prop where
  rows : after.rows = parser.rows
  row : after.row = parser.row ++ row
  recordStart : after.recordStart = parser.recordStart
  onRecord : after.onRecord = parser.onRecord
  maxColumns : after.maxColumns = parser.maxColumns
  hasContent : after.hasContent = (parser.hasContent || some)
  onField : ∃ spans, after.onField = parser.onField ++ spans ∧
    spans.map (fun span => slice source span.1 span.2) = tokens

theorem Adds.refl (parser : CsvParser) : Adds source parser parser [] [] false :=
  ⟨rfl, (List.append_nil _).symm, rfl, rfl, rfl, (Bool.or_false _).symm, [], (List.append_nil _).symm,
    rfl⟩

theorem Adds.trans {middle : CsvParser} {row row' tokens tokens' : List Text} {some some' : Bool}
    (early : Adds source parser middle row tokens some)
    (late : Adds source middle after row' tokens' some') :
    Adds source parser after (row ++ row') (tokens ++ tokens') (some || some') := by
  obtain ⟨spans, isSpans, written⟩ := early.onField
  obtain ⟨spans', isSpans', written'⟩ := late.onField
  refine ⟨late.rows.trans early.rows, ?_, late.recordStart.trans early.recordStart,
    late.onRecord.trans early.onRecord, late.maxColumns.trans early.maxColumns, ?_,
    spans ++ spans', ?_, ?_⟩
  · rw [late.row, early.row, List.append_assoc]
  · rw [late.hasContent, early.hasContent, Bool.or_assoc]
  · rw [isSpans', isSpans, List.append_assoc]
  · rw [List.map_append, written, written']

theorem inside_succ {ch : UInt16} {rest : Text} (here : source.drop i = ch :: rest) :
    i + 1 ≤ source.length := by
  have read : source[i]? = some ch := @getElem?_drop source _ i 0 here
  exact (List.getElem?_eq_some_iff.mp read).1

theorem Within.keep {ch : UInt16} {rest : Text} (within : Within source parser i mode held token)
    (here : source.drop i = ch :: rest) {next : Mode}
    (quoted : mode = .quoted ↔ next = .quoted) (begun : next ≠ .start) :
    Within source { parser with hasContent := true } (i + 1) next (held ++ [ch]) (token ++ [ch]) := by
  refine ⟨inside_succ here, Nat.le_succ_of_le within.begun, ?_, within.measured,
    within.quoted.trans quoted, fun isStart => absurd isStart begun, fun _ => ?_,
    Nat.le_succ_of_le within.fieldBegun, ?_, fun _ => rfl⟩
  · rw [slice_succ here within.begun, ← List.append_assoc, within.value]
  · exact fun none => nomatch (List.append_eq_nil_iff.mp none).2
  · rw [slice_succ here within.fieldBegun, within.written]

theorem measured_zero (within : Within source parser i mode held token) :
    parser.fieldLength + i - parser.start = 0 ↔ held = [] := by
  have length := length_slice within.begun within.inside
  rw [← within.value, List.append_eq_nil_iff, ← List.length_eq_zero_iff, ← List.length_eq_zero_iff,
    length, within.measured]
  have begun := within.begun
  omega

theorem Within.skip {rest : Text} {ch : UInt16} (within : Within source parser i mode held token)
    (here : source.drop i = ch :: rest) {parts : List Text} {fieldLength : ℕ} {inQuotes : Bool}
    {held' : Text} (value : parts.flatten = held') (measured : fieldLength = parts.flatten.length) {next : Mode}
    (quoted : inQuotes = true ↔ next = .quoted) (other : next ≠ .start ∧ next ≠ .bare) :
    Within source { parser with
        parts := parts, fieldLength := fieldLength, inQuotes := inQuotes, hasContent := true,
        start := i + 1 } (i + 1) next held' (token ++ [ch]) := by
  refine ⟨inside_succ here, le_refl _, ?_, measured, quoted, fun isStart => absurd isStart other.1,
    fun isBare => absurd isBare other.2, Nat.le_succ_of_le within.fieldBegun, ?_, fun _ => rfl⟩
  · rw [slice_self, List.append_nil, value]
  · rw [slice_succ here within.fieldBegun, within.written]

theorem appendSpan_spec (within : Within source parser i mode held token) :
    ∃ parts, parser.appendSpan source i =
        { parser with parts := parts, fieldLength := parts.flatten.length } ∧
      parts.flatten = held := by
  have begun := within.begun
  have length := length_slice within.begun within.inside
  unfold appendSpan
  split
  · refine ⟨parser.parts ++ [slice source parser.start i], ?_, ?_⟩
    · have measured : parser.fieldLength + (i - parser.start) =
          (parser.parts ++ [slice source parser.start i]).flatten.length := by
        rw [within.measured, ← length]
        simp
      rw [measured]
    · rw [← within.value]
      simp
  · next stays =>
    have same : parser.start = i := by omega
    refine ⟨parser.parts, ?_, ?_⟩
    · rw [← within.measured]
    · rw [← within.value, same, slice_self, List.append_nil]

theorem pushField_spec {bom retain : Bool} (within : Within source parser i mode held token) :
    parser.pushField source (.unlimited bom retain) i = .ok { parser with
      cells := parser.cells + 1
      row := parser.row ++ [held]
      onField := parser.onField ++ [(parser.fieldStart, i)]
      parts := []
      fieldLength := 0
      start := i + 1
      fieldStart := i + 1 } := by
  have value : (if parser.parts ≠ [] then (parser.appendSpan source i).parts.flatten
      else slice source parser.start i) = held := by
    split
    · obtain ⟨parts, isSpanned, isHeld⟩ := appendSpan_spec within
      rw [isSpanned]
      exact isHeld
    · next none =>
      rw [not_not] at none
      rw [← within.value, none]
      rfl
  simp only [pushField, CsvParseLimits.unlimited, reaches, exceeds, Bool.or_self, Bool.false_eq_true,
    if_false, value]

/-- A state of a record, with what was added since. -/
structure Read (source : Text) (delimiter : UInt16) (limits : CsvParseLimits) (parser : CsvParser)
    (i : ℕ) (mode : Mode) (held token content : Text) (after : CsvParser) (next : Mode) : Prop where
  comes : Comes source delimiter limits parser i after (i + content.length)
  read : ∃ row tokens held' token', Within source after (i + content.length) next held' token' ∧
    Adds source parser after row tokens (content != []) ∧
    fieldsOf delimiter mode held content = row ++ [held'] ∧
    tokensOf delimiter mode token content = tokens ++ [token']

theorem Read.behind {front content token' held' : Text} {middle : CsvParser} {mode' next : Mode}
    {row tokens : List Text} (nonempty : front ≠ [])
    (comes : Comes source delimiter limits parser i middle (i + front.length))
    (adds : Adds source parser middle row tokens true)
    (fields : fieldsOf delimiter mode held (front ++ content) =
      row ++ fieldsOf delimiter mode' held' content)
    (written : tokensOf delimiter mode token (front ++ content) =
      tokens ++ tokensOf delimiter mode' token' content)
    (read : Read source delimiter limits middle (i + front.length) mode' held' token' content after
      next) :
    Read source delimiter limits parser i mode held token (front ++ content) after next := by
  obtain ⟨later, row', tokens', last, lastToken, within, adds', isFields, isTokens⟩ := read
  have shape : i + (front ++ content).length = i + front.length + content.length := by
    rw [List.length_append, Nat.add_assoc]
  refine ⟨?_, row ++ row', tokens ++ tokens', last, lastToken, ?_, ?_, ?_, ?_⟩
  · rw [shape]
    exact comes.trans later
  · rw [shape]
    exact within
  · have some : ((front ++ content) != []) = (true || (content != [])) := by
      cases front with
      | nil => exact absurd rfl nonempty
      | cons ch front => rfl
    rw [some]
    exact adds.trans adds'
  · rw [fields, isFields, List.append_assoc]
  · rw [written, isTokens, List.append_assoc]

theorem adds_content (parser : CsvParser) (parts : List Text) (fieldLength start : ℕ)
    (inQuotes : Bool) : Adds source parser { parser with
      parts := parts, fieldLength := fieldLength, start := start, inQuotes := inQuotes,
      hasContent := true } [] [] true :=
  ⟨rfl, (List.append_nil _).symm, rfl, rfl, rfl, (Bool.or_true _).symm, [], (List.append_nil _).symm,
    rfl⟩

section Marks

variable {ch : UInt16}

theorem mark_quote (isQuote : ch = quote) :
    mark delimiter.toNat .quoted ch.toNat = (.skip, .closing) := by
  rw [isQuote]
  rfl

theorem mark_quoted (other : ch ≠ quote) :
    mark delimiter.toNat .quoted ch.toNat = (.keep, .quoted) := by
  have apart : ch.toNat ≠ 34 := fun same => other (UInt16.toNat_inj.mp same)
  simp [mark, apart]

theorem mark_opening (isQuote : ch = quote) :
    mark delimiter.toNat .start ch.toNat = (.skip, .quoted) := by
  rw [isQuote]
  rfl

theorem mark_delimiter (unquoted : mode ≠ .quoted) (isDelimiter : ch = delimiter)
    (other : ch = quote → mode = .bare) :
    mark delimiter.toNat mode ch.toNat = (.field, .start) := by
  have apart : ch.toNat = 34 → mode = .bare := fun same => other (UInt16.toNat_inj.mp same)
  unfold mark
  rw [if_neg unquoted, if_neg, if_neg, if_pos (congrArg UInt16.toNat isDelimiter)]
  · rintro ⟨same, rfl⟩
    cases apart same
  · rintro ⟨same, rfl⟩
    cases apart same

theorem mark_break (unquoted : mode ≠ .quoted) (notDelimiter : ch ≠ delimiter)
    (breaks : ch = carriageReturn ∨ ch = lineFeed) :
    mark delimiter.toNat mode ch.toNat = (.record, .start) := by
  have apart : ch.toNat ≠ delimiter.toNat := fun same => notDelimiter (UInt16.toNat_inj.mp same)
  have codes : ch.toNat = 13 ∨ ch.toNat = 10 := by
    rcases breaks with rfl | rfl
    · exact .inl rfl
    · exact .inr rfl
  have noQuote : ch.toNat ≠ 34 := by omega
  simp [mark, unquoted, apart, codes, noQuote]

theorem mark_other (unquoted : mode ≠ .quoted) (notDelimiter : ch ≠ delimiter)
    (other : ch = quote → mode = .bare) (breaks : ¬(ch = carriageReturn ∨ ch = lineFeed)) :
    mark delimiter.toNat mode ch.toNat = (.keep, .bare) := by
  have apart : ch.toNat = 34 → mode = .bare := fun same => other (UInt16.toNat_inj.mp same)
  have delimits : ch.toNat ≠ delimiter.toNat := fun same => notDelimiter (UInt16.toNat_inj.mp same)
  have codes : ¬(ch.toNat = 13 ∨ ch.toNat = 10) := by
    rintro (same | same)
    · exact breaks (.inl (UInt16.toNat_inj.mp same))
    · exact breaks (.inr (UInt16.toNat_inj.mp same))
  unfold mark
  rw [if_neg unquoted, if_neg, if_neg, if_neg delimits, if_neg codes]
  · rintro ⟨same, rfl⟩
    cases apart same
  · rintro ⟨same, rfl⟩
    cases apart same

end Marks

theorem step_unlimited {bom retain : Bool} (parser : CsvParser) (i : ℕ) (ch : UInt16) :
    step source delimiter (.unlimited bom retain) parser i ch =
      if parser.inQuotes then
        if ch = quote then
          let spanned := parser.appendSpan source i
          if source[i + 1]? = some quote then
            .ok ({ spanned with
              parts := spanned.parts ++ [[quote]]
              fieldLength := spanned.fieldLength + 1
              start := i + 2 }, i + 2)
          else .ok ({ spanned with inQuotes := false, start := i + 1 }, i + 1)
        else .ok (parser, i + 1)
      else if ch = quote ∧ parser.fieldLength + i - parser.start = 0 then
        .ok ({ parser with inQuotes := true, hasContent := true, start := i + 1 }, i + 1)
      else if ch = delimiter then
        (parser.pushField source (.unlimited bom retain) i).map fun pushed =>
          ({ pushed with hasContent := true }, i + 1)
      else if ch = carriageReturn ∨ ch = lineFeed then
        let last := if ch = carriageReturn ∧ source[i + 1]? = some lineFeed then i + 1 else i
        (parser.pushRow source (.unlimited bom retain) i (last + 1)).map fun pushed =>
          (pushed, last + 1)
      else .ok ({ parser with hasContent := true }, i + 1) := rfl

/-- The loop reads a content up to the letter that ends its record. -/
theorem content_read {bom retain : Bool} {content rest : Text} {next : Mode}
    (scanned : scanText delimiter mode content = some next)
    (here : source.drop i = content ++ rest) (within : Within source parser i mode held token)
    (closing : mode = .closing → (content ++ rest).head? ≠ some quote)
    (closed : next = .closing → rest.head? ≠ some quote) :
    ∃ after, Read source delimiter (.unlimited bom retain) parser i mode held token content after
      next := by
  induction bound' : content.length using Nat.strongRecOn
    generalizing content i parser mode held token with
  | ind bound ih =>
    cases content with
    | nil =>
      cases scanned
      exact ⟨parser, .refl parser i, [], [], held, token, within, .refl parser, rfl, rfl⟩
    | cons ch content =>
      have read : source[i]? = some ch := @getElem?_drop source _ i 0 here
      have later : source.drop (i + 1) = content ++ rest := by
        rw [← List.drop_drop, here]
        rfl
      have behind : ∀ {middle : CsvParser} {mode' : Mode} {held' token' : Text},
          scanText delimiter mode' content = some next →
          Within source middle (i + 1) mode' held' token' →
          (mode' = .closing → (content ++ rest).head? ≠ some quote) →
          ∃ after, Read source delimiter (.unlimited bom retain) middle (i + 1) mode' held' token'
            content after next := fun scanned' within' closing' =>
        ih content.length (by rw [← bound']; exact Nat.lt_succ_self _) scanned' later within'
          closing' rfl
      have forward := @Comes.step source delimiter (.unlimited bom retain) parser
      by_cases quoted : mode = .quoted
      · have isQuoted : parser.inQuotes = true := within.quoted.mpr quoted
        subst quoted
        have isContent : { parser with hasContent := true } = parser := by
          rw [← within.content (absurd · (by decide))]
        by_cases isQuote : ch = quote
        · obtain ⟨parts, spanned, value⟩ := appendSpan_spec within
          have marked := @mark_quote delimiter ch isQuote
          simp only [scanText, scan, marked] at scanned
          have following : source[i + 1]? = (content ++ rest).head? := by
            rw [List.head?_eq_getElem?]
            exact @getElem?_drop source _ (i + 1) 0 later
          by_cases doubled : source[i + 1]? = some quote
          · rw [doubled] at following
            cases content with
            | nil =>
              cases scanned
              exact absurd following.symm (closed rfl)
            | cons second content =>
              have isSecond : quote = second := Option.some.inj following
              have marked' : mark delimiter.toNat .closing second.toNat = (.keep, .quoted) := by
                rw [← isSecond]
                rfl
              simp only [scan, marked'] at scanned
              have stepped : step source delimiter (.unlimited bom retain) parser i ch =
                  .ok ({ parser with
                    parts := parts ++ [[quote]],
                    fieldLength := (parts ++ [[quote]]).flatten.length,
                    inQuotes := true, hasContent := true, start := i + 1 + 1 }, i + 1 + 1) := by
                rw [step_unlimited, if_pos isQuoted, if_pos isQuote, spanned]
                dsimp only
                have measured : (parts ++ [[quote]]).flatten.length = parts.flatten.length + 1 := by
                  simp
                rw [if_pos doubled, within.content (absurd · (by decide)),
                  isQuoted, measured]
              have first : Within source { parser with
                    parts := parts, fieldLength := parts.flatten.length, inQuotes := true,
                    hasContent := true, start := i + 1 } (i + 1) .quoted held (token ++ [ch]) :=
                within.skip here value rfl ⟨fun _ => rfl, fun _ => rfl⟩
                  ⟨(absurd · (by decide)), (absurd · (by decide))⟩
              have within' : Within source { parser with
                    parts := parts ++ [[quote]],
                    fieldLength := (parts ++ [[quote]]).flatten.length,
                    inQuotes := true, hasContent := true, start := i + 1 + 1 } (i + 1 + 1) .quoted
                    (held ++ [second]) (token ++ [ch] ++ [second]) :=
                first.skip later (by rw [← isSecond, ← value]; simp) rfl
                  ⟨fun _ => rfl, fun _ => rfl⟩
                  ⟨(absurd · (by decide)), (absurd · (by decide))⟩
              have later' : source.drop (i + 1 + 1) = content ++ rest := by
                rw [← List.drop_drop, later]
                rfl
              have shorter : content.length < bound := by
                rw [← bound']
                exact Nat.lt_succ_of_lt (Nat.lt_succ_self _)
              obtain ⟨after, read'⟩ := ih content.length shorter scanned later' within'
                (absurd · (by decide)) rfl
              refine ⟨after, @Read.behind source delimiter _ parser after i .quoted held token
                [ch, second] content _ _ _ .quoted next [] [] (List.cons_ne_nil _ _)
                (forward here stepped (Nat.lt_add_right 1 (Nat.lt_succ_self i))) (adds_content parser _ _ _ _) ?_ ?_ read'⟩
              · simp only [fieldsOf, fields, List.cons_append, marked, marked', List.nil_append]
              · simp only [tokensOf, tokens, List.cons_append, marked, marked', List.nil_append]
          · have stepped : step source delimiter (.unlimited bom retain) parser i ch =
                .ok ({ parser with
                  parts := parts, fieldLength := parts.flatten.length, inQuotes := false,
                  hasContent := true, start := i + 1 }, i + 1) := by
              rw [step_unlimited, if_pos isQuoted, if_pos isQuote, spanned]
              dsimp only
              rw [if_neg doubled, within.content (absurd · (by decide))]
            have within' : Within source { parser with
                  parts := parts, fieldLength := parts.flatten.length, inQuotes := false,
                  hasContent := true, start := i + 1 } (i + 1) .closing held (token ++ [ch]) :=
              within.skip here value rfl
                ⟨(absurd · (by decide)), (absurd · (by decide))⟩
                ⟨(absurd · (by decide)), (absurd · (by decide))⟩
            rw [following] at doubled
            obtain ⟨after, read'⟩ := behind scanned within' fun _ => doubled
            refine ⟨after, @Read.behind source delimiter _ parser after i .quoted held token [ch]
              content _ _ _ .closing next [] [] (List.cons_ne_nil _ _)
              (forward here stepped (Nat.lt_succ_self i)) (adds_content parser _ _ _ _) ?_ ?_ read'⟩
            · simp only [fieldsOf, fields, List.singleton_append, marked, List.nil_append]
            · simp only [tokensOf, tokens, List.singleton_append, marked, List.nil_append]
        · have marked := @mark_quoted delimiter ch isQuote
          simp only [scanText, scan, marked] at scanned
          have stepped : step source delimiter (.unlimited bom retain) parser i ch =
              .ok ({ parser with hasContent := true }, i + 1) := by
            rw [step_unlimited, if_pos isQuoted, if_neg isQuote, isContent]
          have within' : Within source { parser with hasContent := true } (i + 1) .quoted
              (held ++ [ch]) (token ++ [ch]) :=
            within.keep here Iff.rfl (absurd · (by decide))
          obtain ⟨after, read'⟩ := behind scanned within' (absurd · (by decide))
          refine ⟨after, @Read.behind source delimiter _ parser after i .quoted held token [ch] content
            _ _ _ .quoted next [] [] (List.cons_ne_nil _ _)
            (forward here stepped (Nat.lt_succ_self i)) (adds_content parser _ _ _ _) ?_ ?_ read'⟩
          · simp only [fieldsOf, fields, List.singleton_append, marked, List.nil_append]
          · simp only [tokensOf, tokens, List.singleton_append, marked, List.nil_append]
      · have unquoted : ¬parser.inQuotes = true := fun isQuoted =>
          quoted (within.quoted.mp isQuoted)
        by_cases opening : ch = quote ∧ mode = .start
        · obtain ⟨isQuote, rfl⟩ := opening
          have marked : mark delimiter.toNat .start ch.toNat = (.skip, .quoted) :=
            mark_opening isQuote
          simp only [scanText, scan, marked] at scanned
          have empty := within.empty rfl
          have nothing : parser.parts.flatten = [] := by
            have value := within.value
            rw [empty] at value
            exact (List.append_eq_nil_iff.mp value).1
          have stepped : step source delimiter (.unlimited bom retain) parser i ch =
              .ok ({ parser with inQuotes := true, hasContent := true, start := i + 1 }, i + 1) := by
            rw [step_unlimited, if_neg unquoted,
              if_pos ⟨isQuote, (measured_zero within).mpr empty⟩]
          have within' : Within source
              { parser with inQuotes := true, hasContent := true, start := i + 1 } (i + 1) .quoted
              held (token ++ [ch]) :=
            within.skip here (nothing.trans empty.symm) within.measured
              ⟨fun _ => rfl, fun _ => rfl⟩
              ⟨(absurd · (by decide)), (absurd · (by decide))⟩
          obtain ⟨after, read'⟩ := behind scanned within' (absurd · (by decide))
          refine ⟨after, @Read.behind source delimiter _ parser after i .start held token [ch] content
            _ _ _ .quoted next [] [] (List.cons_ne_nil _ _)
            (forward here stepped (Nat.lt_succ_self i)) (adds_content parser _ _ _ _) ?_ ?_ read'⟩
          · simp only [fieldsOf, fields, List.singleton_append, marked, List.nil_append]
          · simp only [tokensOf, tokens, List.singleton_append, marked, List.nil_append]
        · have other : ch = quote → mode = .bare := by
            intro isQuote
            cases mode with
            | start => exact absurd ⟨isQuote, rfl⟩ opening
            | bare => rfl
            | quoted => exact absurd rfl quoted
            | closing => exact absurd (congrArg some isQuote) (closing rfl)
          by_cases isDelimiter : ch = delimiter
          · have marked := mark_delimiter quoted isDelimiter other
            simp only [scanText, scan, marked] at scanned
            have stepped : step source delimiter (.unlimited bom retain) parser i ch =
                .ok ({ parser with
                  cells := parser.cells + 1
                  row := parser.row ++ [held]
                  onField := parser.onField ++ [(parser.fieldStart, i)]
                  parts := []
                  fieldLength := 0
                  start := i + 1
                  fieldStart := i + 1
                  hasContent := true }, i + 1) := by
              rw [step_unlimited, if_neg unquoted, if_neg, if_pos isDelimiter,
                pushField_spec within]
              · rfl
              · rintro ⟨isQuote, empty⟩
                exact within.filled (other isQuote) ((measured_zero within).mp empty)
            have within' := Within.fresh (inside_succ here) { parser with
                  cells := parser.cells + 1
                  row := parser.row ++ [held]
                  onField := parser.onField ++ [(parser.fieldStart, i)]
                  parts := []
                  fieldLength := 0
                  start := i + 1
                  fieldStart := i + 1
                  hasContent := true } rfl rfl rfl rfl (Bool.eq_false_iff.mpr unquoted)
            obtain ⟨after, read'⟩ := behind scanned within' (absurd · (by decide))
            refine ⟨after, @Read.behind source delimiter _ parser after i mode held token [ch] content
              _ _ _ .start next [held] [token] (List.cons_ne_nil _ _)
              (forward here stepped (Nat.lt_succ_self i)) ⟨rfl, rfl, rfl, rfl, rfl,
                (Bool.or_true _).symm, _, rfl, ?_⟩ ?_ ?_ read'⟩
            · rw [List.map_singleton, within.written]
            · simp only [fieldsOf, fields, List.singleton_append, marked]
            · simp only [tokensOf, tokens, List.singleton_append, marked]
          · by_cases breaks : ch = carriageReturn ∨ ch = lineFeed
            · rw [scanText, scan, mark_break quoted isDelimiter breaks] at scanned
              cases scanned
            · have marked := mark_other quoted isDelimiter other breaks
              simp only [scanText, scan, marked] at scanned
              have within' : Within source { parser with hasContent := true } (i + 1) .bare
                  (held ++ [ch]) (token ++ [ch]) :=
                within.keep here ⟨fun isQuoted => absurd isQuoted quoted,
                  (absurd · (by decide))⟩ (absurd · (by decide))
              obtain ⟨after, read'⟩ := behind scanned within' (absurd · (by decide))
              have stepped : step source delimiter (.unlimited bom retain) parser i ch =
                  .ok ({ parser with hasContent := true }, i + 1) := by
                rw [step_unlimited, if_neg unquoted, if_neg, if_neg isDelimiter,
                  if_neg breaks]
                rintro ⟨isQuote, empty⟩
                exact within.filled (other isQuote) ((measured_zero within).mp empty)
              refine ⟨after, @Read.behind source delimiter _ parser after i mode held token [ch] content
                _ _ _ .bare next [] [] (List.cons_ne_nil _ _)
                (forward here stepped (Nat.lt_succ_self i)) (adds_content parser _ _ _ _) ?_ ?_ read'⟩
              · simp only [fieldsOf, fields, List.singleton_append, marked, List.nil_append]
              · simp only [tokensOf, tokens, List.singleton_append, marked, List.nil_append]

/-! ## Records -/

theorem pushRow_spec {bom retain : Bool} (within : Within source parser i mode held token)
    (next : ℕ) :
    parser.pushRow source (.unlimited bom retain) i next = .ok { parser with
      cells := parser.cells + 1
      onField := parser.onField ++ [(parser.fieldStart, i)]
      parts := []
      fieldLength := 0
      maxColumns := max parser.maxColumns (parser.row ++ [held]).length
      rows := if retain then parser.rows ++ [parser.row ++ [held]] else parser.rows
      onRecord := parser.onRecord ++ [(parser.recordStart, i, next)]
      row := []
      hasContent := false
      start := next
      recordStart := next
      fieldStart := next } := by
  have noLimit : exceeds (CsvParseLimits.unlimited bom retain).maxRecordLength
      (i - parser.recordStart) = false := rfl
  rw [pushRow, noLimit, if_neg Bool.false_ne_true, pushField_spec within]
  rfl

/-- Before a record's first letter. -/
structure Fresh (parser : CsvParser) (i : ℕ) : Prop where
  row : parser.row = []
  start : parser.start = i
  recordStart : parser.recordStart = i
  fieldStart : parser.fieldStart = i
  parts : parser.parts = []
  fieldLength : parser.fieldLength = 0
  inQuotes : parser.inQuotes = false
  hasContent : parser.hasContent = false

/-- Where the records begin, where their contents end and where they end. -/
def spansFrom : ℕ → List (Record UInt16) → List (ℕ × ℕ × ℕ)
  | _, [] => []
  | i, record :: records =>
    (i, i + record.content.length, i + record.text.length) ::
      spansFrom (i + record.text.length) records

def rowOf (delimiter : UInt16) (record : Record UInt16) : List Text :=
  record.row UInt16.toNat delimiter.toNat

def recordTokens (delimiter : UInt16) (record : Record UInt16) : List Text :=
  tokensOf delimiter .start [] record.content

structure AddsRecords (source : Text) (delimiter : UInt16) (retain : Bool) (parser : CsvParser) (i : ℕ)
    (records : List (Record UInt16)) (after : CsvParser) : Prop where
  rows : after.rows = parser.rows ++ if retain then records.map (rowOf delimiter) else []
  onRecord : after.onRecord = parser.onRecord ++ spansFrom i records
  maxColumns : after.maxColumns =
    (records.map fun record => (rowOf delimiter record).length).foldl max parser.maxColumns
  onField : ∃ spans, after.onField = parser.onField ++ spans ∧
    spans.map (fun span => slice source span.1 span.2) = records.flatMap (recordTokens delimiter)

theorem pushRow_adds {record : Record UInt16} {bom retain : Bool} {next : Mode} (fresh : Fresh parser i)
    (read : Read source delimiter (.unlimited bom retain) parser i .start [] [] record.content after next)
    (stop : ℕ) :
    ∃ pushed, after.pushRow source (.unlimited bom retain) (i + record.content.length) stop = .ok pushed ∧
      (next ≠ .quoted → Fresh pushed stop) ∧
      pushed.rows = parser.rows ++ (if retain then [rowOf delimiter record] else []) ∧
      pushed.onRecord = parser.onRecord ++ [(i, i + record.content.length, stop)] ∧
      pushed.maxColumns = max parser.maxColumns (rowOf delimiter record).length ∧
      ∃ spans, pushed.onField = parser.onField ++ spans ∧
        spans.map (fun span => slice source span.1 span.2) = recordTokens delimiter record := by
  obtain ⟨-, row, tokens, held, token, within, adds, isRow, isTokens⟩ := read
  have whole : after.row ++ [held] = rowOf delimiter record := by
    rw [adds.row, fresh.row, List.nil_append]
    exact isRow.symm
  refine ⟨_, pushRow_spec within stop, fun unquoted => ?_, ?_, ?_, ?_, ?_⟩
  · exact ⟨rfl, rfl, rfl, rfl, rfl, rfl,
      Bool.eq_false_iff.mpr fun isQuoted => unquoted (within.quoted.mp isQuoted), rfl⟩
  · dsimp only
    rw [whole, adds.rows]
    cases retain with
    | true => rfl
    | false => exact (List.append_nil _).symm
  · dsimp only
    rw [adds.onRecord, adds.recordStart, fresh.recordStart]
  · dsimp only
    rw [whole, adds.maxColumns]
  · obtain ⟨spans, isSpans, written⟩ := adds.onField
    refine ⟨spans ++ [(after.fieldStart, i + record.content.length)], ?_, ?_⟩
    · dsimp only
      rw [isSpans, List.append_assoc]
    · rw [List.map_append, written, List.map_singleton, within.written]
      exact isTokens.symm

theorem ending_read {ending following : Text} {bom retain : Bool} {pushed : CsvParser}
    (ends : Ends UInt16.toNat delimiter.toNat mode ending following)
    (here : source.drop i = ending ++ following) (within : Within source parser i mode held token)
    (isPushed : parser.pushRow source (.unlimited bom retain) i (i + ending.length) = .ok pushed) :
    Comes source delimiter (.unlimited bom retain) parser i pushed (i + ending.length) := by
  obtain ⟨ch, rest, rfl, record, behind⟩ := ends
  obtain ⟨breaks, unquoted⟩ := mark_record record
  have notDelimiter : ch ≠ delimiter := fun same =>
    mark_record_delimiter record (congrArg UInt16.toNat same)
  have notQuote : ¬(ch = quote ∧ parser.fieldLength + i - parser.start = 0) := by
    rintro ⟨rfl, -⟩
    rcases breaks with impossible | impossible <;> cases impossible
  have isBreak : ch = carriageReturn ∨ ch = lineFeed :=
    breaks.imp (fun same => UInt16.toNat_inj.mp same) fun same => UInt16.toNat_inj.mp same
  have unquoted' : ¬parser.inQuotes = true := fun isQuoted => unquoted (within.quoted.mp isQuoted)
  have later : source.drop (i + 1) = rest ++ following := by
    rw [← List.drop_drop, here]
    rfl
  have after : source[i + 1]? = (rest ++ following).head? := by
    rw [List.head?_eq_getElem?]
    exact @getElem?_drop source _ (i + 1) 0 later
  have last : (if ch = carriageReturn ∧ source[i + 1]? = some lineFeed then i + 1 else i) + 1 =
      i + (ch :: rest).length := by
    rw [after]
    by_cases isReturn : ch = carriageReturn
    · have thirteen : ch.toNat = 13 := congrArg UInt16.toNat isReturn
      rw [if_pos thirteen] at behind
      rcases behind with ⟨feed, rfl, isFeed⟩ | ⟨rfl, other⟩
      · rw [if_pos ⟨isReturn, congrArg some (UInt16.toNat_inj.mp isFeed)⟩]
        rfl
      · rw [if_neg]
        · rfl
        · rintro ⟨-, isFeed⟩
          exact other lineFeed isFeed rfl
    · have thirteen : ¬ch.toNat = 13 := fun same => isReturn (UInt16.toNat_inj.mp same)
      rw [if_neg thirteen] at behind
      rw [if_neg fun both => isReturn both.1, behind]
      rfl
  refine Comes.step here ?_ (Nat.lt_add_of_pos_right (Nat.succ_pos _))
  rw [step_unlimited, if_neg unquoted', if_neg notQuote, if_neg notDelimiter, if_pos isBreak]
  dsimp only
  rw [last, isPushed]
  rfl

theorem loop_ended (rounds : ℕ) (ended : source.length ≤ i) :
    loop source delimiter limits rounds parser i = .ok parser := by
  cases rounds with
  | zero => rfl
  | succ rounds => rw [loop, List.getElem?_eq_none ended]

/-- The loop and its end read the records a source goes on with. -/
theorem records_read {bom retain : Bool} {records : List (Record UInt16)}
    (splits : SplitsText delimiter records) (here : source.drop i = joined records)
    (inside : i ≤ source.length) (fresh : Fresh parser i) (rounds : ℕ)
    (enough : source.length ≤ i + rounds) :
    ∃ after, (loop source delimiter (.unlimited bom retain) rounds parser i).bind
        (finish source (.unlimited bom retain)) = .ok after ∧
      AddsRecords source delimiter retain parser i records after := by
  induction splits generalizing i parser rounds with
  | none =>
    have ended : source.length ≤ i := List.drop_eq_nil_iff.mp here
    refine ⟨parser, ?_, ?_⟩
    · rw [loop_ended rounds ended]
      change finish source _ parser = _
      rw [finish, fresh.hasContent, fresh.row]
      rfl
    · refine ⟨?_, (List.append_nil _).symm, rfl, [], (List.append_nil _).symm, rfl⟩
      rw [List.map_nil, ite_self, List.append_nil]
  | last content nonempty mode scanned =>
    have here' : source.drop i = content ++ [] := by
      rw [here]
      simp [joined, Record.text]
    have within := Within.fresh inside parser fresh.parts fresh.fieldLength fresh.start
      fresh.fieldStart fresh.inQuotes
    obtain ⟨after, read⟩ := @content_read source delimiter parser i .start [] [] bom retain content []
      mode scanned here' within (absurd · (by decide)) fun _ => by simp
    obtain ⟨left, -, same⟩ := read.comes rounds enough
    have length : i + content.length = source.length := by
      have measured := congrArg List.length here'
      rw [List.length_drop, List.append_nil] at measured
      omega
    have record : Read source delimiter (.unlimited bom retain) parser i .start [] []
        (Record.mk content []).content after mode := read
    obtain ⟨pushed, isPushed, -, rows, onRecord, maxColumns, onField⟩ :=
      pushRow_adds fresh record source.length
    have stop : i + (Record.mk content []).content.length = source.length := length
    rw [stop] at isPushed
    have some : after.hasContent = true := by
      obtain ⟨_, _, _, _, _, adds, -, -⟩ := read.read
      rw [adds.hasContent, fresh.hasContent, Bool.false_or]
      exact bne_iff_ne.mpr nonempty
    refine ⟨pushed, ?_, ?_, ?_, maxColumns, ?_⟩
    · rw [same, loop_ended left (le_of_eq length.symm)]
      change finish source _ after = _
      rw [finish, some]
      exact isPushed
    · exact rows
    · rw [onRecord, spansFrom, spansFrom, Record.text, List.append_nil, stop]
    · obtain ⟨spans, isSpans, written⟩ := onField
      exact ⟨spans, isSpans, written.trans (List.append_nil _).symm⟩
  | cons content ending records mode scanned ends splits ih =>
    have here' : source.drop i = content ++ (ending ++ joined records) := by
      rw [here]
      exact List.append_assoc _ _ _
    have within := Within.fresh inside parser fresh.parts fresh.fieldLength fresh.start
      fresh.fieldStart fresh.inQuotes
    have notQuote : (ending ++ joined records).head? ≠ some quote := by
      obtain ⟨first, rest, rfl, record, -⟩ := ends
      intro isQuote
      have breaks := (mark_record record).1
      rw [Option.some.inj isQuote] at breaks
      rcases breaks with impossible | impossible <;> cases impossible
    obtain ⟨after, read⟩ := @content_read source delimiter parser i .start [] [] bom retain content
      (ending ++ joined records) mode scanned here' within (absurd · (by decide))
      fun _ => notQuote
    have record : Read source delimiter (.unlimited bom retain) parser i .start [] []
        (Record.mk content ending).content after mode := read
    have unquoted : mode ≠ .quoted := by
      obtain ⟨first, rest, -, record, -⟩ := ends
      exact (mark_record record).2
    obtain ⟨pushed, isPushed, fresh', rows, onRecord, maxColumns, onField⟩ :=
      pushRow_adds fresh record (i + content.length + ending.length)
    obtain ⟨_, _, _, _, within', -, -, -⟩ := read.read
    have atEnding : source.drop (i + content.length) = ending ++ joined records := by
      rw [← List.drop_drop, here', List.drop_left]
    have behind : source.drop (i + content.length + ending.length) = joined records := by
      rw [← List.drop_drop, atEnding, List.drop_left]
    have inside' : i + content.length + ending.length ≤ source.length := by
      have measured := congrArg List.length here'
      rw [List.length_drop, List.length_append, List.length_append] at measured
      obtain ⟨first, rest, rfl, -, -⟩ := ends
      rw [List.length_cons] at measured ⊢
      omega
    have comes := read.comes.trans (ending_read ends atEnding within' isPushed)
    obtain ⟨left, enough', same⟩ := comes rounds enough
    obtain ⟨final, finished, adds⟩ := ih behind inside' (fresh' unquoted) left enough'
    have stop : i + (Record.mk content ending).text.length = i + content.length + ending.length := by
      rw [Record.text, List.length_append, Nat.add_assoc]
    refine ⟨final, same ▸ finished, ?_, ?_, ?_, ?_⟩
    · rw [adds.rows, rows, List.append_assoc]
      cases retain with
      | true => rfl
      | false => rfl
    · rw [adds.onRecord, onRecord, spansFrom, stop, List.append_assoc]
      rfl
    · rw [adds.maxColumns, maxColumns, List.map_cons, List.foldl_cons]
    · obtain ⟨spans, isSpans, written⟩ := onField
      obtain ⟨spans', isSpans', written'⟩ := adds.onField
      refine ⟨spans ++ spans', ?_, ?_⟩
      · rw [isSpans', isSpans, List.append_assoc]
      · rw [List.map_append, written, written']
        rfl

end CsvParser

/-! ## The parser -/

open CsvParser in
theorem parseCsv_joined {source start : Text} {delimiter : UInt16} {bom retain : Bool}
    {records : List (Record UInt16)} (splits : SplitsText delimiter records)
    (isSource : source = start ++ joined records)
    (begun : contentStart source (.unlimited bom retain) = start.length) :
    ∃ parsed, parseCsv source delimiter (.unlimited bom retain) = .ok parsed ∧
      AddsRecords source delimiter retain (.initial start.length) start.length records parsed := by
  rw [parseCsv, begun]
  refine @records_read source delimiter (.initial start.length) start.length bom retain records splits
    ?_ ?_ ⟨rfl, rfl, rfl, rfl, rfl, rfl, rfl, rfl⟩ source.length (Nat.le_add_left _ _)
  · rw [isSource, List.drop_left]
  · rw [isSource, List.length_append]
    exact Nat.le_add_right _ _

end OxeeUI.Csv
