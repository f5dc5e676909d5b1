import OxeeUI.Library.Utf16

/-!
# Windows command lines

An argument is quoted for two readers: `CommandLineToArgvW`, which takes a doubled
quote and an escaped one as literal, and `cmd`, which counts quotes and expands
percent signs.
-/

namespace OxeeUI.ProcessHost

open OxeeUI.Library

def quoteMark : UInt16 := 34
def backslash : UInt16 := 92
def percentSign : UInt16 := 37
def caret : UInt16 := 94
def space : UInt16 := 32
def tab : UInt16 := 9

/-! ## Quoting -/

/-- `/[\\"%]/` or `/[\\"]/` -/
def needsEscape (escapePercent : Bool) (unit : UInt16) : Bool :=
  unit = backslash || unit = quoteMark || escapePercent && unit = percentSign

/-- The loop over the characters, with the backslashes not written yet.  A character of
two code units is copied as one is, so the loop goes over the units. -/
def quoteUnits (escapePercent : Bool) : ℕ → Text → Text
  | backslashes, [] => List.replicate (backslashes * 2) backslash ++ [quoteMark]
  | backslashes, unit :: rest =>
    if unit = backslash then quoteUnits escapePercent (backslashes + 1) rest
    else if unit = quoteMark then
      List.replicate (backslashes * 2) backslash ++
        ([quoteMark, quoteMark] ++ quoteUnits escapePercent 0 rest)
    else if escapePercent ∧ unit = percentSign then
      -- Break %VAR% expansion outside quotes.
      List.replicate (backslashes * 2) backslash ++
        ([quoteMark, caret, percentSign, quoteMark] ++ quoteUnits escapePercent 0 rest)
    else List.replicate backslashes backslash ++ unit :: quoteUnits escapePercent 0 rest

def quoteWindows (value : Text) (escapePercent : Bool) : Text :=
  if value.any (needsEscape escapePercent) then quoteMark :: quoteUnits escapePercent 0 value
  else quoteMark :: value ++ [quoteMark]

def quoteWindowsArgument (value : Text) : Text := quoteWindows value false

def quoteWindowsCmdArgument (value : Text) : Text := quoteWindows value true

/-- `values.join(' ')` -/
def joinArguments (values : List Text) : Text := [space].intercalate values

/-! ## Reading -/

/-- `/[ \t]/` -/
def isBlank (unit : UInt16) : Bool := unit = space || unit = tab

/-- The loop of the parser, at what is left of the line. -/
def parseArguments (current : Text) (quoted started : Bool) (line : Text) : List Text :=
  match line with
  | [] => if started then [current] else []
  | unit :: rest =>
    if !started && isBlank unit then parseArguments current quoted false rest
    else if unit = backslash then
      let backslashes := 1 + (rest.takeWhile (· = backslash)).length
      let after := rest.dropWhile (· = backslash)
      if after.head? = some quoteMark then
        let half := current ++ List.replicate (backslashes / 2) backslash
        if backslashes % 2 = 1 then parseArguments (half ++ [quoteMark]) quoted true after.tail
        else parseArguments half quoted true after
      else parseArguments (current ++ List.replicate backslashes backslash) quoted true after
    else if unit = quoteMark then
      if quoted && rest.head? = some quoteMark then
        parseArguments (current ++ [quoteMark]) quoted true rest.tail
      else parseArguments current (!quoted) true rest
    else if !quoted && isBlank unit then current :: parseArguments [] quoted false rest
    else parseArguments (current ++ [unit]) quoted true rest
termination_by line.length
decreasing_by
  all_goals
    simp only [List.length_cons, List.length_tail]
    have shorter := (List.dropWhile_sublist (l := rest) (· = backslash)).length_le
    omega

def parseWindowsCommandLine (line : Text) : List Text := parseArguments [] false false line

/-! ## What `cmd` reads -/

/-- The flag that every quote toggles, after some of a line. -/
def cmdInQuotes (quoted : Bool) : Text → Bool
  | [] => quoted
  | unit :: rest => cmdInQuotes (if unit = quoteMark then !quoted else quoted) rest

/-- A line without the carets that are met outside quotes. -/
def cmdText (quoted : Bool) : Text → Text
  | [] => []
  | unit :: rest =>
    if unit = quoteMark then unit :: cmdText (!quoted) rest
    else if unit = caret ∧ quoted = false then cmdText quoted rest
    else unit :: cmdText quoted rest

/-- The units other than quotes that are met inside quotes, or outside. -/
def unitsWhere (inside quoted : Bool) : Text → Text
  | [] => []
  | unit :: rest =>
    if unit = quoteMark then unitsWhere inside (!quoted) rest
    else if quoted = inside then unit :: unitsWhere inside quoted rest
    else unitsWhere inside quoted rest

section Quoted

/-- A quoted value, with any text for a percent sign. -/
def quotedRuns (percentAs : Option Text) : ℕ → Text → Text
  | backslashes, [] => List.replicate (backslashes * 2) backslash ++ [quoteMark]
  | backslashes, unit :: rest =>
    if unit = backslash then quotedRuns percentAs (backslashes + 1) rest
    else if unit = quoteMark then
      List.replicate (backslashes * 2) backslash ++
        ([quoteMark, quoteMark] ++ quotedRuns percentAs 0 rest)
    else
      match percentAs with
      | some text =>
        if unit = percentSign then
          List.replicate (backslashes * 2) backslash ++ (text ++ quotedRuns percentAs 0 rest)
        else List.replicate backslashes backslash ++ unit :: quotedRuns percentAs 0 rest
      | none => List.replicate backslashes backslash ++ unit :: quotedRuns percentAs 0 rest

def percentBreak (escapePercent : Bool) : Option Text :=
  if escapePercent then some [quoteMark, caret, percentSign, quoteMark] else none

/-- A percent sign outside quotes, its caret read. -/
def percentRead : Text := [quoteMark, percentSign, quoteMark]

theorem quoteUnits_eq (escapePercent : Bool) (backslashes : ℕ) (value : Text) :
    quoteUnits escapePercent backslashes value =
      quotedRuns (percentBreak escapePercent) backslashes value := by
  induction value generalizing backslashes with
  | nil => rfl
  | cons unit rest ih =>
    unfold quoteUnits quotedRuns
    rw [ih, ih]
    cases escapePercent <;> simp [percentBreak]

theorem quotedRuns_plain (percentAs : Option Text) {value : Text}
    (plain : ∀ unit ∈ value, unit ≠ backslash ∧ unit ≠ quoteMark ∧
      (percentAs ≠ none → unit ≠ percentSign)) :
    quotedRuns percentAs 0 value = value ++ [quoteMark] := by
  induction value with
  | nil => rfl
  | cons unit rest ih =>
    obtain ⟨notBackslash, notQuote, notPercent⟩ := plain unit List.mem_cons_self
    unfold quotedRuns
    rw [if_neg notBackslash, if_neg notQuote,
      ih fun other member => plain other (List.mem_cons_of_mem _ member)]
    cases percentAs with
    | none => rfl
    | some text =>
      dsimp only
      rw [if_neg (notPercent (Option.some_ne_none text))]
      rfl

theorem quoteWindows_eq (value : Text) (escapePercent : Bool) :
    quoteWindows value escapePercent =
      quoteMark :: quotedRuns (percentBreak escapePercent) 0 value := by
  unfold quoteWindows
  split
  · rw [quoteUnits_eq]
  · next plain =>
    rw [quotedRuns_plain]
    · rfl
    · intro unit member
      have free := Bool.eq_false_iff.mpr fun needs =>
        plain (List.any_eq_true.mpr ⟨unit, member, needs⟩)
      unfold needsEscape at free
      cases escapePercent <;> simp_all [percentBreak]

end Quoted

section Parsed

variable {current : Text} {quoted : Bool}

theorem takeWhile_replicate {count : ℕ} {rest : Text} (stop : rest.head? ≠ some backslash) :
    (List.replicate count backslash ++ rest).takeWhile (· = backslash) =
        List.replicate count backslash ∧
      (List.replicate count backslash ++ rest).dropWhile (· = backslash) = rest := by
  induction count with
  | zero =>
    cases rest with
    | nil => exact ⟨rfl, rfl⟩
    | cons unit rest =>
      have other : unit ≠ backslash := fun same => stop (congrArg some same)
      simp [other]
  | succ count ih =>
    rw [List.replicate_succ, List.cons_append]
    refine ⟨?_, ?_⟩
    · rw [List.takeWhile_cons_of_pos (by decide), ih.1]
    · rw [List.dropWhile_cons_of_pos (by decide), ih.2]

theorem parseArguments_run (count : ℕ) {rest : Text} (stop : rest.head? ≠ some backslash) :
    parseArguments current quoted true (List.replicate (count + 1) backslash ++ rest) =
      if rest.head? = some quoteMark then
        if (count + 1) % 2 = 1 then
          parseArguments (current ++ List.replicate ((count + 1) / 2) backslash ++ [quoteMark])
            quoted true rest.tail
        else parseArguments (current ++ List.replicate ((count + 1) / 2) backslash) quoted true rest
      else parseArguments (current ++ List.replicate (count + 1) backslash) quoted true rest := by
  obtain ⟨run, after⟩ := @takeWhile_replicate count rest stop
  rw [List.replicate_succ, List.cons_append, parseArguments]
  rw [if_neg (by simp), if_pos rfl]
  dsimp only
  rw [run, after, List.length_replicate, Nat.add_comm 1 count]
  rfl

theorem parseArguments_doubled (count : ℕ) (rest : Text) :
    parseArguments current quoted true
        (List.replicate (count * 2) backslash ++ quoteMark :: rest) =
      parseArguments (current ++ List.replicate count backslash) quoted true
        (quoteMark :: rest) := by
  cases count with
  | zero => simp
  | succ count =>
    have stop : (quoteMark :: rest).head? ≠ some backslash := by
      rw [List.head?_cons]
      decide
    have double : (count + 1) * 2 = (count * 2 + 1) + 1 := by omega
    rw [double, parseArguments_run _ stop, List.head?_cons, if_pos rfl, if_neg (by omega)]
    have half : (count * 2 + 1 + 1) / 2 = count + 1 := by omega
    rw [half]

theorem parseArguments_single (count : ℕ) {unit : UInt16} (rest : Text)
    (notBackslash : unit ≠ backslash) (notQuote : unit ≠ quoteMark) :
    parseArguments current quoted true (List.replicate count backslash ++ unit :: rest) =
      parseArguments (current ++ List.replicate count backslash) quoted true (unit :: rest) := by
  cases count with
  | zero => simp
  | succ count =>
    have stop : (unit :: rest).head? ≠ some backslash := by
      rw [List.head?_cons]
      exact fun same => notBackslash (Option.some.inj same)
    have other : (unit :: rest).head? ≠ some quoteMark := by
      rw [List.head?_cons]
      exact fun same => notQuote (Option.some.inj same)
    rw [parseArguments_run _ stop, if_neg other]

theorem parseArguments_pair (rest : Text) :
    parseArguments current true true (quoteMark :: quoteMark :: rest) =
      parseArguments (current ++ [quoteMark]) true true rest := by
  rw [parseArguments, if_neg (by simp), if_neg (by decide), if_pos rfl]
  rfl

theorem parseArguments_close {rest : Text} (lone : rest.head? ≠ some quoteMark) :
    parseArguments current true true (quoteMark :: rest) =
      parseArguments current false true rest := by
  rw [parseArguments, if_neg (by simp), if_neg (by decide), if_pos rfl]
  rw [if_neg (by simpa using lone)]
  rfl

theorem parseArguments_reopen (rest : Text) (started : Bool) :
    parseArguments current false started (quoteMark :: rest) =
      parseArguments current true true rest := by
  rw [parseArguments, if_neg (by cases started <;> decide), if_neg (by decide), if_pos rfl]
  rfl

theorem parseArguments_inside {unit : UInt16} (rest : Text) (notBackslash : unit ≠ backslash)
    (notQuote : unit ≠ quoteMark) :
    parseArguments current true true (unit :: rest) =
      parseArguments (current ++ [unit]) true true rest := by
  rw [parseArguments, if_neg (by simp), if_neg notBackslash, if_neg notQuote, if_neg (by simp)]

theorem parseArguments_percent (rest : Text) :
    parseArguments current true true (percentRead ++ rest) =
      parseArguments (current ++ [percentSign]) true true rest := by
  have read : parseArguments current false true (percentSign :: quoteMark :: rest) =
      parseArguments (current ++ [percentSign]) false true (quoteMark :: rest) := by
    rw [parseArguments, if_neg (by simp), if_neg (by decide), if_neg (by decide),
      if_neg (by decide)]
  have lone : (percentSign :: quoteMark :: rest).head? ≠ some quoteMark := by
    rw [List.head?_cons]
    decide
  calc parseArguments current true true (percentRead ++ rest)
      = parseArguments current false true (percentSign :: quoteMark :: rest) :=
        parseArguments_close lone
    _ = parseArguments (current ++ [percentSign]) false true (quoteMark :: rest) := read
    _ = parseArguments (current ++ [percentSign]) true true rest := parseArguments_reopen rest true

/-- Quotes that are read back: percent signs as they are, or outside quotes. -/
def Readable (percentAs : Option Text) : Prop := percentAs = none ∨ percentAs = some percentRead

/-- The parser reads a quoted value back, and is outside quotes after it. -/
theorem parseArguments_quotedRuns {percentAs : Option Text} (readable : Readable percentAs)
    {tail : Text} (lone : tail.head? ≠ some quoteMark) (value : Text) (backslashes : ℕ) :
    parseArguments current true true (quotedRuns percentAs backslashes value ++ tail) =
      parseArguments (current ++ List.replicate backslashes backslash ++ value) false true tail := by
  induction value generalizing current backslashes with
  | nil =>
    rw [quotedRuns, List.append_assoc, List.singleton_append, parseArguments_doubled,
      parseArguments_close lone, List.append_nil]
  | cons unit rest ih =>
    -- The literal unit after single backslashes.
    have literal (notBackslash : unit ≠ backslash) (notQuote : unit ≠ quoteMark) :
        parseArguments current true true
            (List.replicate backslashes backslash ++ unit :: quotedRuns percentAs 0 rest ++ tail) =
          parseArguments (current ++ List.replicate backslashes backslash ++ unit :: rest)
            false true tail := by
      rw [List.append_assoc, List.cons_append, parseArguments_single _ _ notBackslash notQuote,
        parseArguments_inside _ notBackslash notQuote, ih]
      simp
    unfold quotedRuns
    split
    · next isBackslash =>
      rw [ih, List.replicate_succ', isBackslash]
      simp
    · next notBackslash =>
      split
      · next isQuote =>
        rw [List.append_assoc, List.append_assoc, List.cons_append, parseArguments_doubled]
        rw [List.singleton_append, parseArguments_pair, ih, isQuote]
        simp
      · next notQuote =>
        rcases readable with plain | broken
        · rw [plain] at literal ih ⊢
          exact literal notBackslash notQuote
        · rw [broken] at literal ih ⊢
          dsimp only
          split
          · next isPercent =>
            rw [List.append_assoc, List.append_assoc]
            refine (parseArguments_doubled backslashes _).trans ?_
            refine (parseArguments_percent _).trans ?_
            rw [ih, isPercent]
            simp
          · exact literal notBackslash notQuote

def quotedValue (percentAs : Option Text) (value : Text) : Text :=
  quoteMark :: quotedRuns percentAs 0 value

theorem parseWindowsCommandLine_joined {percentAs : Option Text} (readable : Readable percentAs)
    (args : List Text) :
    parseWindowsCommandLine (joinArguments (args.map (quotedValue percentAs))) = args := by
  unfold parseWindowsCommandLine joinArguments
  induction args with
  | nil =>
    rw [List.map_nil, List.intercalate_nil, parseArguments]
    rfl
  | cons arg args ih =>
    cases args with
    | nil =>
      have read := @parseArguments_quotedRuns [] percentAs readable []
        (by simp) arg 0
      rw [List.map_singleton, List.intercalate_singleton, quotedValue, parseArguments_reopen]
      rw [List.append_nil] at read
      rw [read, parseArguments]
      rfl
    | cons next args =>
      rw [List.map_cons] at ih ⊢
      rw [List.map_cons, List.intercalate_cons_cons, ← List.map_cons, List.append_assoc,
        quotedValue, List.cons_append, parseArguments_reopen]
      rw [parseArguments_quotedRuns readable (by simp [space, quoteMark])]
      rw [List.singleton_append, parseArguments, if_neg (by decide), if_neg (by decide),
        if_neg (by decide), if_pos (by decide), List.map_cons, ih]
      rfl

end Parsed

section Cmd

/-- What `quoteWindowsCmdArgument` writes for a percent sign. -/
def percentWritten : Text := [quoteMark, caret, percentSign, quoteMark]

theorem cmdInQuotes_append (quoted : Bool) (front back : Text) :
    cmdInQuotes quoted (front ++ back) = cmdInQuotes (cmdInQuotes quoted front) back := by
  induction front generalizing quoted with
  | nil => rfl
  | cons unit front ih => exact ih _

/-- The units of an argument that are read inside quotes as they are. -/
def isPlain (unit : UInt16) : Bool :=
  unit ≠ quoteMark && unit ≠ percentSign && unit ≠ backslash

/-- The percent signs of an argument, each after a caret. -/
def percentsOutside (value : Text) : Text :=
  (value.filter (· = percentSign)).flatMap fun _ => [caret, percentSign]

/-- How `cmd` reads some text: the flag after it, its text, the units it meets outside
quotes, and the ones it meets inside them beside backslashes. -/
structure CmdReads (quoted : Bool) (text : Text) (after : Bool) (read outer inner : Text) : Prop where
  flag : cmdInQuotes quoted text = after
  kept : cmdText quoted text = read
  outer : unitsWhere false quoted text = outer
  inner : (unitsWhere true quoted text).filter (· ≠ backslash) = inner

theorem CmdReads.nil (quoted : Bool) : CmdReads quoted [] quoted [] [] [] := ⟨rfl, rfl, rfl, rfl⟩

theorem CmdReads.append {quoted middle after : Bool} {front back : Text}
    {read outer inner laterRead laterOuter laterInner : Text}
    (early : CmdReads quoted front middle read outer inner)
    (late : CmdReads middle back after laterRead laterOuter laterInner) :
    CmdReads quoted (front ++ back) after (read ++ laterRead) (outer ++ laterOuter)
      (inner ++ laterInner) := by
  induction front generalizing quoted read outer inner with
  | nil =>
    obtain ⟨rfl, rfl, rfl, rfl⟩ := early
    exact late
  | cons unit front ih =>
    obtain ⟨rfl, rfl, rfl, rfl⟩ := early
    obtain ⟨flag, read, outer, inner⟩ := @ih (if unit = quoteMark then !quoted else quoted) _ _ _
      ⟨rfl, rfl, rfl, rfl⟩
    rw [List.cons_append, cmdText, unitsWhere, unitsWhere]
    by_cases isQuote : unit = quoteMark
    · rw [if_pos isQuote] at flag read outer inner
      rw [if_pos isQuote, if_pos isQuote, if_pos isQuote]
      refine ⟨?_, ?_, ?_, ?_⟩
      · rw [cmdInQuotes, if_pos isQuote, flag]
      · rw [cmdText, if_pos isQuote, read, List.cons_append]
      · rw [unitsWhere, if_pos isQuote, outer]
      · rw [unitsWhere, if_pos isQuote, inner]
    · rw [if_neg isQuote] at flag read outer inner
      rw [if_neg isQuote, if_neg isQuote, if_neg isQuote]
      refine ⟨?_, ?_, ?_, ?_⟩
      · rw [cmdInQuotes, if_neg isQuote, flag]
      · rw [cmdText, if_neg isQuote, read]
        split <;> rfl
      · rw [unitsWhere, if_neg isQuote, outer]
        split <;> rfl
      · rw [unitsWhere, if_neg isQuote]
        split
        · rw [← List.singleton_append, List.filter_append, inner, ← List.append_assoc,
            ← List.filter_append]
          rfl
        · exact inner

theorem CmdReads.inside {text : Text} (free : quoteMark ∉ text) :
    CmdReads true text true text [] (text.filter (· ≠ backslash)) := by
  induction text with
  | nil => exact .nil true
  | cons unit rest ih =>
    rw [List.mem_cons, not_or] at free
    have notQuote : unit ≠ quoteMark := fun same => free.1 same.symm
    have head : CmdReads true [unit] true [unit] [] ([unit].filter (· ≠ backslash)) := by
      refine ⟨?_, ?_, ?_, ?_⟩
      · rw [cmdInQuotes, if_neg notQuote]
        rfl
      · rw [cmdText, if_neg notQuote, if_neg (by simp)]
        rfl
      · rw [unitsWhere, if_neg notQuote]
        rfl
      · rw [unitsWhere, if_neg notQuote]
        rfl
    have both := head.append (ih free.2)
    rw [← List.filter_append] at both
    exact both

theorem CmdReads.backslashes (count : ℕ) :
    CmdReads true (List.replicate count backslash) true (List.replicate count backslash) [] [] := by
  have free : quoteMark ∉ List.replicate count backslash := fun member =>
    absurd (List.eq_of_mem_replicate member) (by decide)
  have bare : (List.replicate count backslash).filter (· ≠ backslash) = [] := by
    rw [List.filter_eq_nil_iff]
    intro unit member
    simp [List.eq_of_mem_replicate member]
  have reads := CmdReads.inside free
  rw [bare] at reads
  exact reads

/-- What `cmd` makes of the rest of a quoted argument. -/
theorem cmdReads_quotedRuns (value : Text) (backslashes : ℕ) :
    CmdReads true (quotedRuns (some percentWritten) backslashes value) false
      (quotedRuns (some percentRead) backslashes value) (percentsOutside value)
      (value.filter isPlain) := by
  induction value generalizing backslashes with
  | nil =>
    rw [quotedRuns, quotedRuns]
    exact (CmdReads.backslashes _).append ⟨rfl, rfl, rfl, rfl⟩
  | cons unit rest ih =>
    unfold quotedRuns
    by_cases isBackslash : unit = backslash
    · rw [if_pos isBackslash, if_pos isBackslash, isBackslash]
      exact ih (backslashes + 1)
    · rw [if_neg isBackslash, if_neg isBackslash]
      by_cases isQuote : unit = quoteMark
      · rw [if_pos isQuote, if_pos isQuote, isQuote]
        have pair : CmdReads true [quoteMark, quoteMark] true [quoteMark, quoteMark] [] [] :=
          ⟨rfl, rfl, rfl, rfl⟩
        exact (CmdReads.backslashes _).append (pair.append (ih 0))
      · rw [if_neg isQuote, if_neg isQuote]
        dsimp only
        by_cases isPercent : unit = percentSign
        · rw [if_pos isPercent, if_pos isPercent, isPercent]
          have broken : CmdReads true percentWritten true percentRead [caret, percentSign] [] :=
            ⟨rfl, rfl, rfl, rfl⟩
          exact (CmdReads.backslashes _).append (broken.append (ih 0))
        · rw [if_neg isPercent, if_neg isPercent]
          have notQuote : quoteMark ∉ [unit] := by
            rw [List.mem_singleton]
            exact fun same => isQuote same.symm
          have one := (CmdReads.inside notQuote).append (ih 0)
          have outer : percentsOutside (unit :: rest) = percentsOutside rest := by
            simp [percentsOutside, isPercent]
          have inner : (unit :: rest).filter isPlain =
              [unit].filter (· ≠ backslash) ++ rest.filter isPlain := by
            simp [isPlain, isPercent, isQuote, isBackslash]
          rw [outer, inner]
          exact (CmdReads.backslashes _).append one

/-- Every percent sign comes right after a caret that is met outside quotes. -/
def PercentsGuarded (quoted : Bool) (text : Text) : Prop :=
  ∀ front back, text = front ++ percentSign :: back →
    ∃ start, front = start ++ [caret] ∧ cmdInQuotes quoted start = false

theorem PercentsGuarded.of_free (quoted : Bool) {text : Text} (free : percentSign ∉ text) :
    PercentsGuarded quoted text := by
  intro front back split
  apply absurd _ free
  rw [split]
  exact List.mem_append_right _ List.mem_cons_self

theorem PercentsGuarded.append {quoted : Bool} {first second : Text}
    (early : PercentsGuarded quoted first)
    (late : PercentsGuarded (cmdInQuotes quoted first) second) :
    PercentsGuarded quoted (first ++ second) := by
  intro front back split
  rcases List.append_eq_append_iff.mp split with ⟨middle, isFront, isSecond⟩ | ⟨middle, isFirst, isBack⟩
  · obtain ⟨start, ends, outside⟩ := late middle back isSecond
    refine ⟨first ++ start, ?_, ?_⟩
    · rw [isFront, ends, List.append_assoc]
    · rw [cmdInQuotes_append]
      exact outside
  · cases middle with
    | nil =>
      obtain ⟨start, ends, _⟩ := late [] back isBack.symm
      exact absurd ends (by simp)
    | cons unit middle =>
      rw [List.cons_append, List.cons.injEq] at isBack
      rw [← isBack.1] at isFirst
      exact early front middle isFirst

theorem percentsGuarded_written : PercentsGuarded true percentWritten := by
  intro front back split
  rcases front with _ | ⟨first, _ | ⟨second, _ | ⟨third, _ | ⟨fourth, front⟩⟩⟩⟩
  · simp [percentWritten, quoteMark, percentSign] at split
  · simp [percentWritten, caret, percentSign] at split
  · refine ⟨[quoteMark], ?_, rfl⟩
    simp only [percentWritten, List.cons_append, List.nil_append, List.cons.injEq] at split
    rw [split.1, split.2.1]
    rfl
  · simp [percentWritten, quoteMark, percentSign] at split
  · simp [percentWritten] at split

theorem percentsGuarded_quotedRuns (value : Text) (backslashes : ℕ) :
    PercentsGuarded true (quotedRuns (some percentWritten) backslashes value) := by
  have run : ∀ count, PercentsGuarded true (List.replicate count backslash) := fun count =>
    .of_free _ fun member => absurd (List.eq_of_mem_replicate member) (by decide)
  have flag : ∀ count, cmdInQuotes true (List.replicate count backslash) = true := fun count =>
    (CmdReads.backslashes count).flag
  induction value generalizing backslashes with
  | nil =>
    rw [quotedRuns]
    exact (run _).append (.of_free _ (by decide))
  | cons unit rest ih =>
    unfold quotedRuns
    split
    · exact ih _
    · split
      · apply (run _).append
        rw [flag]
        exact PercentsGuarded.append (.of_free _ (by decide)) (ih 0)
      · next notQuote =>
        dsimp only
        split
        · apply (run _).append
          rw [flag]
          exact percentsGuarded_written.append (ih 0)
        · next notPercent =>
          rw [List.append_cons]
          apply PercentsGuarded.append
          · apply (run _).append
            apply PercentsGuarded.of_free
            rw [List.mem_singleton]
            exact fun same => notPercent same.symm
          · rw [cmdInQuotes_append, flag, cmdInQuotes, if_neg notQuote]
            exact ih 0

theorem cmdReads_quotedValue (value : Text) :
    CmdReads false (quotedValue (some percentWritten) value) false
      (quotedValue (some percentRead) value) (percentsOutside value) (value.filter isPlain) := by
  have opens : CmdReads false [quoteMark] true [quoteMark] [] [] := ⟨rfl, rfl, rfl, rfl⟩
  exact opens.append (cmdReads_quotedRuns value 0)

theorem percentsGuarded_quotedValue (value : Text) :
    PercentsGuarded false (quotedValue (some percentWritten) value) :=
  @PercentsGuarded.append false [quoteMark] _ (.of_free _ (by decide))
    (percentsGuarded_quotedRuns value 0)

theorem cmdReads_joined (args : List Text) :
    CmdReads false (joinArguments (args.map (quotedValue (some percentWritten)))) false
        (joinArguments (args.map (quotedValue (some percentRead))))
        (joinArguments (args.map percentsOutside)) (args.flatMap (·.filter isPlain)) ∧
      PercentsGuarded false (joinArguments (args.map (quotedValue (some percentWritten)))) := by
  unfold joinArguments
  induction args with
  | nil => exact ⟨.nil false, .of_free _ List.not_mem_nil⟩
  | cons arg args ih =>
    have reads := cmdReads_quotedValue arg
    have guarded := percentsGuarded_quotedValue arg
    cases args with
    | nil =>
      simp only [List.map_singleton, List.intercalate_singleton, List.flatMap_singleton]
      exact ⟨reads, guarded⟩
    | cons next args =>
      obtain ⟨later, laterGuarded⟩ := ih
      simp only [List.map_cons, List.intercalate_cons_cons] at later laterGuarded ⊢
      have blank : CmdReads false [space] false [space] [space] [] := ⟨rfl, rfl, rfl, rfl⟩
      refine ⟨?_, ?_⟩
      · rw [List.flatMap_cons]
        have both := (reads.append blank).append later
        rw [List.append_nil] at both
        exact both
      · apply PercentsGuarded.append
        · apply guarded.append
          exact .of_free _ (by decide)
        · rw [cmdInQuotes_append, reads.flag]
          exact laterGuarded

end Cmd

/-- Both readers recover the arguments.  `cmd` meets every percent sign outside quotes and
after a caret it deletes; it meets nothing else of an argument outside quotes, and meets
inside every unit of an argument that is not a quote, a percent sign or a backslash. -/
theorem command_lines_round_trip (args : List Text) :
    parseWindowsCommandLine (joinArguments (args.map quoteWindowsArgument)) = args ∧
      let line := joinArguments (args.map quoteWindowsCmdArgument)
      (∀ front back, line = front ++ percentSign :: back →
        ∃ start, front = start ++ [caret] ∧ cmdInQuotes false start = false ∧
          cmdInQuotes false front = false) ∧
        unitsWhere false false line =
          joinArguments (args.map fun arg =>
            (arg.filter (· = percentSign)).flatMap fun _ => [caret, percentSign]) ∧
        (unitsWhere true false line).filter (· ≠ backslash) =
          args.flatMap (·.filter fun unit =>
            unit ≠ quoteMark && unit ≠ percentSign && unit ≠ backslash) ∧
        parseWindowsCommandLine (cmdText false line) = args := by
  have plain : args.map quoteWindowsArgument = args.map (quotedValue none) := by
    apply List.map_congr_left
    intro value _
    exact quoteWindows_eq value false
  have broken : args.map quoteWindowsCmdArgument =
      args.map (quotedValue (some percentWritten)) := by
    apply List.map_congr_left
    intro value _
    exact quoteWindows_eq value true
  rw [plain, broken]
  obtain ⟨reads, guarded⟩ := cmdReads_joined args
  refine ⟨parseWindowsCommandLine_joined (Or.inl rfl) args, ?_, reads.outer, reads.inner, ?_⟩
  · intro front back split
    obtain ⟨start, ends, outside⟩ := guarded front back split
    refine ⟨start, ends, outside, ?_⟩
    rw [ends, cmdInQuotes_append, outside]
    rfl
  · rw [reads.kept]
    exact parseWindowsCommandLine_joined (Or.inr rfl) args

end OxeeUI.ProcessHost
