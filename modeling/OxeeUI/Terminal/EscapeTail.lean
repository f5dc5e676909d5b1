import Mathlib.Data.List.Induction
import OxeeUI.Library.Utf16

/-!
# Incomplete escapes at the end of terminal output

One grammar of escapes is scanned three ways: for the whole incomplete tail, for a
state of constant size, and for the length of what continues an open escape.
-/

namespace OxeeUI.Terminal

open OxeeUI.Library

def escapeUnit : UInt16 := 0x1b
def cancelUnit : UInt16 := 0x18
def substituteUnit : UInt16 := 0x1a
def bellUnit : UInt16 := 0x07
def backslashUnit : UInt16 := 0x5c

/-! ## Introducers -/

inductive TerminalEscapeIntroducer where
  | csi | osc | string | intermediate | execute | final

def classifyTerminalEscapeIntroducer (code : UInt16) : TerminalEscapeIntroducer :=
  if code = 0x5b then .csi
  else if code = 0x5d then .osc
  else if code = 0x50 ∨ code = 0x58 ∨ code = 0x5e ∨ code = 0x5f then .string
  else if 0x20 ≤ code ∧ code ≤ 0x2f then .intermediate
  else if code < 0x20 ∨ code = 0x7f then .execute
  else .final

/-! ## The scan -/

inductive ScanState where
  | ground | esc | escIntermediate | csi | osc | oscEsc | string | stringEsc
deriving DecidableEq

def stateAfterEscByte (code : UInt16) : ScanState :=
  match classifyTerminalEscapeIntroducer code with
  | .csi => .csi
  | .osc => .osc
  | .string => .string
  | .intermediate => .escIntermediate
  -- The ESC is still pending.
  | .execute => .esc
  | .final => .ground

def isAbort (code : UInt16) : Bool := code = cancelUnit || code = substituteUnit

/-- The state of a scan, and where its escape started. -/
structure Scan where
  state : ScanState
  start : ℕ

/-- The ESC in a string finished it, aborted it, or opened a new sequence before `index`. -/
def afterStringEsc (scan : Scan) (index : ℕ) (code : UInt16) : Scan :=
  if code = backslashUnit then { scan with state := .ground }
  else if code = escapeUnit then ⟨.esc, index⟩
  else ⟨if isAbort code then .ground else stateAfterEscByte code, index - 1⟩

/-- One code unit; from the ground everything up to the next ESC is skipped. -/
def scanUnit (scan : Scan) (index : ℕ) (code : UInt16) : Scan :=
  match scan.state with
  | .ground => if code = escapeUnit then ⟨.esc, index⟩ else scan
  | .esc =>
    if code = escapeUnit then ⟨.esc, index⟩
    else if isAbort code then { scan with state := .ground }
    else { scan with state := stateAfterEscByte code }
  | .escIntermediate =>
    if code = escapeUnit then ⟨.esc, index⟩
    else if isAbort code then { scan with state := .ground }
    else if 0x30 ≤ code ∧ code ≤ 0x7e then { scan with state := .ground }
    else scan
  | .csi =>
    if code = escapeUnit then ⟨.esc, index⟩
    else if isAbort code then { scan with state := .ground }
    else if 0x40 ≤ code ∧ code ≤ 0x7e then { scan with state := .ground }
    else scan
  | .osc =>
    if code = bellUnit ∨ isAbort code then { scan with state := .ground }
    else if code = escapeUnit then { scan with state := .oscEsc }
    else scan
  | .string =>
    if isAbort code then { scan with state := .ground }
    else if code = escapeUnit then { scan with state := .stringEsc }
    else scan
  | .oscEsc | .stringEsc => afterStringEsc scan index code

def scanUnits (scan : Scan) (index : ℕ) : Text → Scan
  | [] => scan
  | code :: rest => scanUnits (scanUnit scan index code) (index + 1) rest

/-- `STATE_PREFIX` -/
def statePrefix : ScanState → Text
  | .ground => []
  | .esc | .oscEsc | .stringEsc => [escapeUnit]
  | .escIntermediate => [escapeUnit, 0x20]
  | .csi => [escapeUnit, 0x5b]
  | .osc => [escapeUnit, 0x5d]
  | .string => [escapeUnit, 0x50]

def scanPartialEscapeTail (stream : Text) (stateOnly : Bool) : Text :=
  let scan := scanUnits ⟨.ground, 0⟩ 0 stream
  -- ESC already ends a string; only its pending escape state is replayed.
  if scan.state = .oscEsc ∨ scan.state = .stringEsc then [escapeUnit]
  else if stateOnly then statePrefix scan.state
  else if scan.state = .ground then []
  else stream.drop scan.start

/-- The incomplete trailing escape, empty when the stream is clean. -/
def extractPartialEscapeTail (stream : Text) : Text := scanPartialEscapeTail stream false

/-- Its state of constant size is not a tail to replay. -/
def advanceTerminalEscapeBoundary (stateSoFar chunk : Text) : Text :=
  if stateSoFar = [] ∧ escapeUnit ∉ chunk then []
  else scanPartialEscapeTail (stateSoFar ++ chunk) true

/-! ## Continuations -/

/-- `STATE_BY_PREFIX[statePrefix] ?? 'ground'` -/
def stateByPrefix (text : Text) : ScanState :=
  if text = [escapeUnit] then .esc
  else if text = [escapeUnit, 0x20] then .escIntermediate
  else if text = [escapeUnit, 0x5b] then .csi
  else if text = [escapeUnit, 0x5d] then .osc
  else if text = [escapeUnit, 0x50] then .string
  else .ground

/-- The loop over the chunk at `index`; `none` stands for -1. -/
def continuationFrom (state : ScanState) (index : ℕ) : Text → Option ℕ
  | [] => if state = .ground then some index else none
  | code :: rest =>
    if state = .ground then some index
    else if isAbort code then some (index + 1)
    else
      match state with
      | .ground => some index
      | .esc =>
        if code = escapeUnit then some index
        else if stateAfterEscByte code = .ground then some (index + 1)
        else continuationFrom (stateAfterEscByte code) (index + 1) rest
      | .escIntermediate =>
        if code = escapeUnit then some index
        else if 0x30 ≤ code ∧ code ≤ 0x7e then some (index + 1)
        else continuationFrom state (index + 1) rest
      | .csi =>
        if code = escapeUnit then some index
        else if 0x40 ≤ code ∧ code ≤ 0x7e then some (index + 1)
        else continuationFrom state (index + 1) rest
      | .osc | .string =>
        if code = bellUnit ∧ state = .osc then some (index + 1)
        else if code = escapeUnit then
          if rest.head? = some backslashUnit then some (index + 2) else some index
        else continuationFrom state (index + 1) rest
      | .oscEsc | .stringEsc =>
        if code = backslashUnit then some (index + 1) else some index

/-- The units of the chunk that finish the escape left open by a state. -/
def openEscapeContinuationLength (stateSoFar chunk : Text) : Option ℕ :=
  continuationFrom (stateByPrefix stateSoFar) 0 chunk

structure SkippedContinuation where
  rest : Text
  stillOpen : Text

/-- Drop what continues the open escape; `stillOpen` carries it when the chunk ends first. -/
def skipOpenEscapeContinuation (stateSoFar chunk : Text) : SkippedContinuation :=
  match openEscapeContinuationLength stateSoFar chunk with
  | none => ⟨[], advanceTerminalEscapeBoundary stateSoFar chunk⟩
  | some length => ⟨chunk.drop length, []⟩

section States

/-- The state after one code unit, which does not depend on where the escape started. -/
def nextState (state : ScanState) (code : UInt16) : ScanState := (scanUnit ⟨state, 0⟩ 0 code).state

theorem scanUnit_state (scan : Scan) (index : ℕ) (code : UInt16) :
    (scanUnit scan index code).state = nextState scan.state code := by
  obtain ⟨state, start⟩ := scan
  unfold nextState scanUnit afterStringEsc
  cases state <;> dsimp only <;> split_ifs <;> rfl

theorem scanUnits_state (scan : Scan) (index : ℕ) (text : Text) :
    (scanUnits scan index text).state = text.foldl nextState scan.state := by
  induction text generalizing scan index with
  | nil => rfl
  | cons code rest ih => rw [scanUnits, ih, scanUnit_state, List.foldl_cons]

theorem scanUnits_append (scan : Scan) (index : ℕ) (front back : Text) :
    scanUnits scan index (front ++ back) =
      scanUnits (scanUnits scan index front) (index + front.length) back := by
  induction front generalizing scan index with
  | nil => rfl
  | cons code front ih =>
    rw [List.cons_append, scanUnits, ih, scanUnits, List.length_cons]
    congr 1
    omega

def isStringEsc (state : ScanState) : Bool := state = .oscEsc || state = .stringEsc

/-- An ESC in a string is as open as one outside it. -/
def settled : ScanState → ScanState
  | .oscEsc | .stringEsc => .esc
  | state => state

theorem nextState_esc (code : UInt16) : nextState .esc code =
    if code = escapeUnit then .esc
    else if isAbort code then .ground else stateAfterEscByte code := by
  unfold nextState scanUnit
  dsimp only
  split_ifs <;> rfl

theorem nextState_stringEsc {state : ScanState} (isEsc : isStringEsc state = true)
    (code : UInt16) : nextState state code = nextState .esc code := by
  have terminator : stateAfterEscByte backslashUnit = .ground := by decide
  have both : nextState state code =
      if code = backslashUnit then .ground
      else if code = escapeUnit then .esc
      else if isAbort code then .ground else stateAfterEscByte code := by
    cases state with
    | oscEsc | stringEsc =>
      unfold nextState scanUnit afterStringEsc
      dsimp only
      split_ifs <;> rfl
    | _ => cases isEsc
  rw [both, nextState_esc]
  by_cases ends : code = backslashUnit
  · rw [if_pos ends, ends, if_neg (by decide), if_neg (by decide), terminator]
  · rw [if_neg ends]

theorem settled_of_stringEsc {state : ScanState} (isEsc : isStringEsc state = true) :
    settled state = .esc := by
  cases state with
  | oscEsc | stringEsc => rfl
  | _ => cases isEsc

theorem settled_of_not {state : ScanState} (other : isStringEsc state = false) :
    settled state = state := by
  cases state with
  | oscEsc | stringEsc => cases other
  | _ => rfl

theorem nextState_settled (state : ScanState) (code : UInt16) :
    nextState (settled state) code = nextState state code := by
  by_cases isEsc : isStringEsc state = true
  · rw [settled_of_stringEsc isEsc, nextState_stringEsc isEsc]
  · rw [settled_of_not (Bool.eq_false_iff.mpr isEsc)]

theorem settled_foldl (state : ScanState) (text : Text) :
    settled (text.foldl nextState (settled state)) = settled (text.foldl nextState state) := by
  cases text with
  | nil => cases state <;> rfl
  | cons code rest => rw [List.foldl_cons, List.foldl_cons, nextState_settled]

theorem statePrefix_settled (state : ScanState) : statePrefix (settled state) = statePrefix state := by
  cases state <;> rfl

theorem statePrefix_eq_nil {state : ScanState} : statePrefix state = [] ↔ state = .ground := by
  cases state <;> simp [statePrefix]

theorem foldl_statePrefix (state : ScanState) :
    (statePrefix state).foldl nextState .ground = settled state := by
  cases state <;> decide

theorem foldl_ground {text : Text} (absent : escapeUnit ∉ text) :
    text.foldl nextState .ground = .ground := by
  induction text with
  | nil => rfl
  | cons code rest ih =>
    rw [List.mem_cons, not_or] at absent
    have stays : nextState .ground code = .ground := by
      unfold nextState scanUnit
      dsimp only
      rw [if_neg fun same => absent.1 same.symm]
    rw [List.foldl_cons, stays]
    exact ih absent.2

theorem advanceTerminalEscapeBoundary_eq (state : ScanState) (chunk : Text) :
    advanceTerminalEscapeBoundary (statePrefix state) chunk =
      statePrefix (chunk.foldl nextState state) := by
  unfold advanceTerminalEscapeBoundary
  by_cases quick : statePrefix state = [] ∧ escapeUnit ∉ chunk
  · rw [if_pos quick, statePrefix_eq_nil.mp quick.1, foldl_ground quick.2]
    rfl
  · rw [if_neg quick]
    have scanned : (scanUnits ⟨.ground, 0⟩ 0 (statePrefix state ++ chunk)).state =
        chunk.foldl nextState (settled state) := by
      rw [scanUnits_state, List.foldl_append, foldl_statePrefix]
    have written : scanPartialEscapeTail (statePrefix state ++ chunk) true =
        statePrefix (chunk.foldl nextState (settled state)) := by
      unfold scanPartialEscapeTail
      dsimp only
      rw [scanned, if_pos rfl]
      split
      · next isEsc => rcases isEsc with isEsc | isEsc <;> rw [isEsc] <;> rfl
      · rfl
    rw [written, ← statePrefix_settled, settled_foldl, statePrefix_settled]

theorem foldl_advanceTerminalEscapeBoundary (state : ScanState) (chunks : List Text) :
    chunks.foldl advanceTerminalEscapeBoundary (statePrefix state) =
      statePrefix (chunks.flatten.foldl nextState state) := by
  induction chunks generalizing state with
  | nil => rfl
  | cons chunk chunks ih =>
    rw [List.foldl_cons, advanceTerminalEscapeBoundary_eq, ih, List.flatten_cons,
      List.foldl_append]

end States

section Tails

theorem isStringEsc_stateAfterEscByte (code : UInt16) :
    isStringEsc (stateAfterEscByte code) = false := by
  unfold stateAfterEscByte
  split <;> rfl

/-- A unit leaves the start where it was, is an ESC that starts an escape, or follows an
ESC in a string that started one. -/
theorem scanUnit_cases (state : ScanState) (code : UInt16) :
    ((∀ start index, scanUnit ⟨state, start⟩ index code = ⟨nextState state code, start⟩) ∧
        (state = .ground → nextState state code = .ground) ∧
        (isStringEsc (nextState state code) = true → code = escapeUnit)) ∨
      (code = escapeUnit ∧ ∀ start index, scanUnit ⟨state, start⟩ index code = ⟨.esc, index⟩) ∨
      (isStringEsc state = true ∧ code ≠ escapeUnit ∧ ∀ start index,
        scanUnit ⟨state, start⟩ index code = ⟨nextState .esc code, index - 1⟩ ∧
          isStringEsc (nextState .esc code) = false) := by
  have plain := isStringEsc_stateAfterEscByte code
  cases state with
  | oscEsc | stringEsc =>
    by_cases ends : code = backslashUnit
    · left
      rw [ends]
      exact ⟨fun _ _ => rfl, fun same => (by cases same), fun isEsc => by cases isEsc⟩
    · by_cases isEscape : code = escapeUnit
      · right
        left
        rw [isEscape]
        exact ⟨rfl, fun _ _ => rfl⟩
      · right
        right
        refine ⟨rfl, isEscape, fun start index => ⟨?_, ?_⟩⟩
        · unfold scanUnit afterStringEsc
          dsimp only
          rw [if_neg ends, if_neg isEscape, nextState_esc, if_neg isEscape]
        · rw [nextState_esc, if_neg isEscape]
          split
          · rfl
          · exact plain
  | ground =>
    by_cases isEscape : code = escapeUnit
    · right
      left
      rw [isEscape]
      exact ⟨rfl, fun _ _ => rfl⟩
    · left
      have stays : ∀ start index, scanUnit ⟨.ground, start⟩ index code = ⟨.ground, start⟩ := by
        intro start index
        unfold scanUnit
        dsimp only
        rw [if_neg isEscape]
      have next : nextState .ground code = .ground := congrArg Scan.state (stays 0 0)
      rw [next]
      exact ⟨stays, fun _ => rfl, fun isEsc => by cases isEsc⟩
  | osc =>
    left
    unfold nextState scanUnit
    dsimp only
    split_ifs with ends isEscape
    · exact ⟨fun _ _ => rfl, fun same => (by cases same), fun isEsc => by cases isEsc⟩
    · exact ⟨fun _ _ => rfl, fun same => (by cases same), fun _ => isEscape⟩
    · exact ⟨fun _ _ => rfl, fun same => (by cases same), fun isEsc => by cases isEsc⟩
  | string =>
    left
    unfold nextState scanUnit
    dsimp only
    split_ifs with ends isEscape
    · exact ⟨fun _ _ => rfl, fun same => (by cases same), fun isEsc => by cases isEsc⟩
    · exact ⟨fun _ _ => rfl, fun same => (by cases same), fun _ => isEscape⟩
    · exact ⟨fun _ _ => rfl, fun same => (by cases same), fun isEsc => by cases isEsc⟩
  | esc =>
    by_cases isEscape : code = escapeUnit
    · right
      left
      rw [isEscape]
      exact ⟨rfl, fun _ _ => rfl⟩
    · left
      unfold nextState scanUnit
      dsimp only
      rw [if_neg isEscape]
      simp only [isEscape, if_false]
      split_ifs
      · exact ⟨fun _ _ => rfl, fun same => (by cases same), fun isEsc => by cases isEsc⟩
      · refine ⟨fun _ _ => rfl, fun same => (by cases same), fun isEsc => ?_⟩
        rw [plain] at isEsc
        cases isEsc
  | escIntermediate | csi =>
    by_cases isEscape : code = escapeUnit
    · right
      left
      rw [isEscape]
      exact ⟨rfl, fun _ _ => rfl⟩
    · left
      unfold nextState scanUnit
      dsimp only
      simp only [isEscape, if_false]
      split_ifs <;>
        exact ⟨fun _ _ => rfl, fun same => (by cases same), fun isEsc => by cases isEsc⟩

/-- Where an escape is open, scanning from its start reaches the same state. -/
theorem scanUnits_drop (text : Text) :
    let scan := scanUnits ⟨.ground, 0⟩ 0 text
    (scan.state ≠ .ground → scan.start < text.length ∧
        scanUnits ⟨.ground, 0⟩ 0 (text.drop scan.start) = ⟨scan.state, 0⟩) ∧
      (isStringEsc scan.state = true → ∃ front, text = front ++ [escapeUnit]) := by
  induction text using List.reverseRecOn with
  | nil => exact ⟨fun open' => absurd rfl open', fun isEsc => by cases isEsc⟩
  | append_singleton text code ih =>
    dsimp only at ih ⊢
    rw [scanUnits_append, scanUnits, scanUnits, Nat.zero_add]
    generalize scanUnits ⟨.ground, 0⟩ 0 text = scan at ih
    obtain ⟨state, start⟩ := scan
    dsimp only at ih
    rcases scanUnit_cases state code with
      ⟨kept, grounded, ends⟩ | ⟨isEscape, opened⟩ | ⟨isEsc, notEscape, reopened⟩
    · rw [kept]
      refine ⟨fun stays => ?_, fun isEsc => ⟨text, by rw [ends isEsc]⟩⟩
      have wasOpen : state ≠ .ground := fun same => stays (grounded same)
      obtain ⟨within, again⟩ := ih.1 wasOpen
      refine ⟨?_, ?_⟩
      · exact Nat.lt_of_lt_of_le within (List.length_append ▸ Nat.le_add_right _ _)
      · rw [List.drop_append_of_le_length (Nat.le_of_lt within), scanUnits_append, again, scanUnits,
          scanUnits, kept]
    · rw [opened, isEscape]
      refine ⟨fun _ => ⟨?_, ?_⟩, fun isEsc => by cases isEsc⟩
      · rw [List.length_append, List.length_singleton]
        exact Nat.lt_succ_self _
      · rw [List.drop_left]
        rfl
    · obtain ⟨written, plain⟩ := reopened start text.length
      rw [written]
      refine ⟨fun stays => ?_, fun isEsc => ?_⟩
      · obtain ⟨front, endsWith⟩ := ih.2 isEsc
        have before : text.length - 1 = front.length := by
          rw [endsWith, List.length_append, List.length_singleton]
          rfl
        dsimp only
        rw [before, endsWith, List.append_assoc, List.drop_left]
        refine ⟨?_, ?_⟩
        · rw [List.length_append]
          exact Nat.lt_add_of_pos_right (Nat.succ_pos _)
        · rcases scanUnit_cases .esc code with ⟨kept, _, _⟩ | ⟨isEscape, _⟩ | ⟨none, _⟩
          · exact kept 0 1
          · exact absurd isEscape notEscape
          · cases none
      · rw [plain] at isEsc
        cases isEsc

/-- Two scans of the same units at positions `offset` apart. -/
structure Shifted (offset index : ℕ) (first second : Scan) : Prop where
  state : first.state = second.state
  start : first.state ≠ .ground → first.start = second.start + offset
  begun : second.state ≠ .ground → 0 < index

theorem Shifted.step {offset index : ℕ} {first second : Scan}
    (shifted : Shifted offset index first second) (code : UInt16) :
    Shifted offset (index + 1) (scanUnit first (index + offset) code)
      (scanUnit second index code) := by
  obtain ⟨firstState, firstStart⟩ := first
  obtain ⟨secondState, secondStart⟩ := second
  obtain ⟨same, start, begun⟩ := shifted
  dsimp only at same start begun
  subst same
  rcases scanUnit_cases firstState code with
    ⟨kept, grounded, _⟩ | ⟨_, opened⟩ | ⟨isEsc, _, reopened⟩
  · rw [kept, kept]
    exact ⟨rfl, fun stays => start fun same => stays (grounded same), fun _ => Nat.succ_pos _⟩
  · rw [opened, opened]
    exact ⟨rfl, fun _ => rfl, fun _ => Nat.succ_pos _⟩
  · rw [(reopened _ _).1, (reopened _ _).1]
    have positive := begun fun same => by
      rw [same] at isEsc
      cases isEsc
    refine ⟨rfl, fun _ => ?_, fun _ => Nat.succ_pos _⟩
    dsimp only
    omega

theorem Shifted.run {offset index : ℕ} {first second : Scan}
    (shifted : Shifted offset index first second) (text : Text) :
    Shifted offset (index + text.length) (scanUnits first (index + offset) text)
      (scanUnits second index text) := by
  induction text generalizing index first second with
  | nil => exact shifted
  | cons code rest ih =>
    have later := ih (shifted.step code)
    have position : index + (rest.length + 1) = index + 1 + rest.length := by omega
    have next : index + offset + 1 = index + 1 + offset := by omega
    rw [scanUnits, scanUnits, List.length_cons, position, next]
    exact later

theorem extractPartialEscapeTail_congr {offset index : ℕ} {first second : Text}
    (shifted : Shifted offset index (scanUnits ⟨.ground, 0⟩ 0 first)
      (scanUnits ⟨.ground, 0⟩ 0 second)) (ends : first.drop offset = second) :
    extractPartialEscapeTail first = extractPartialEscapeTail second := by
  unfold extractPartialEscapeTail scanPartialEscapeTail
  dsimp only
  rw [shifted.state]
  split
  · rfl
  · rw [if_neg Bool.false_ne_true, if_neg Bool.false_ne_true]
    split
    · rfl
    · next stays =>
      rw [shifted.start (by rw [shifted.state]; exact stays), Nat.add_comm, ← List.drop_drop, ends]

theorem Scan.shifted_stringEsc (scan : Scan) (isEsc : isStringEsc scan.state = true) (offset : ℕ)
    (code : UInt16) : Shifted offset 2 (scanUnit scan (1 + offset) code) (scanUnit ⟨.esc, 0⟩ 1 code) := by
  have first : scanUnit scan (1 + offset) code = afterStringEsc scan (1 + offset) code := by
    obtain ⟨state, start⟩ := scan
    cases state with
    | oscEsc | stringEsc => rfl
    | _ => cases isEsc
  have states : nextState scan.state code = nextState .esc code := nextState_stringEsc isEsc code
  refine ⟨?_, ?_, fun _ => Nat.succ_pos 1⟩
  · rw [scanUnit_state, scanUnit_state, states]
  · intro stays
    rw [first] at stays ⊢
    unfold afterStringEsc at stays ⊢
    unfold scanUnit
    dsimp only at stays ⊢
    split_ifs at stays ⊢ with ends isEscape abort
    · exact absurd rfl stays
    · exact absurd rfl stays
    · exact absurd rfl stays
    · rfl
    · exact absurd rfl stays
    · dsimp only
      omega

theorem extractPartialEscapeTail_of_ground {text : Text}
    (ground : (scanUnits ⟨.ground, 0⟩ 0 text).state = .ground) :
    extractPartialEscapeTail text = [] := by
  unfold extractPartialEscapeTail scanPartialEscapeTail
  dsimp only
  rw [ground]
  rfl

theorem extractPartialEscapeTail_of_stringEsc {text : Text}
    (isEsc : isStringEsc (scanUnits ⟨.ground, 0⟩ 0 text).state = true) :
    extractPartialEscapeTail text = [escapeUnit] := by
  unfold extractPartialEscapeTail scanPartialEscapeTail
  dsimp only
  apply if_pos
  unfold isStringEsc at isEsc
  rwa [Bool.or_eq_true, decide_eq_true_eq, decide_eq_true_eq] at isEsc

theorem extractPartialEscapeTail_of_open {text : Text}
    (stays : (scanUnits ⟨.ground, 0⟩ 0 text).state ≠ .ground)
    (other : isStringEsc (scanUnits ⟨.ground, 0⟩ 0 text).state = false) :
    extractPartialEscapeTail text = text.drop (scanUnits ⟨.ground, 0⟩ 0 text).start := by
  unfold extractPartialEscapeTail scanPartialEscapeTail
  dsimp only
  unfold isStringEsc at other
  rw [Bool.or_eq_false_iff, decide_eq_false_iff_not, decide_eq_false_iff_not] at other
  rw [if_neg (not_or.mpr other), if_neg Bool.false_ne_true, if_neg stays]

theorem extractPartialEscapeTail_eq_nil {text : Text} :
    extractPartialEscapeTail text = [] ↔ text.foldl nextState .ground = .ground := by
  have state := scanUnits_state ⟨.ground, 0⟩ 0 text
  dsimp only at state
  rw [← state]
  refine ⟨fun empty => ?_, extractPartialEscapeTail_of_ground⟩
  by_contra stays
  by_cases isEsc : isStringEsc (scanUnits ⟨.ground, 0⟩ 0 text).state = true
  · rw [extractPartialEscapeTail_of_stringEsc isEsc] at empty
    cases empty
  · rw [extractPartialEscapeTail_of_open stays (Bool.eq_false_iff.mpr isEsc),
      List.drop_eq_nil_iff] at empty
    exact absurd ((scanUnits_drop text).1 stays).1 (Nat.not_lt.mpr empty)

/-- The tail is all of the output so far that its continuation needs. -/
theorem extractPartialEscapeTail_append (front back : Text) :
    extractPartialEscapeTail (front ++ back) =
      extractPartialEscapeTail (extractPartialEscapeTail front ++ back) := by
  obtain ⟨again, endsWith⟩ := scanUnits_drop front
  by_cases ground : (scanUnits ⟨.ground, 0⟩ 0 front).state = .ground
  · rw [extractPartialEscapeTail_of_ground ground, List.nil_append]
    have start : Shifted front.length 0 (scanUnits ⟨.ground, 0⟩ 0 front) ⟨.ground, 0⟩ :=
      ⟨ground, fun stays => absurd ground stays, fun stays => absurd rfl stays⟩
    have later := start.run back
    rw [← scanUnits_append] at later
    exact extractPartialEscapeTail_congr later List.drop_left
  · obtain ⟨within, same⟩ := again ground
    by_cases isEsc : isStringEsc (scanUnits ⟨.ground, 0⟩ 0 front).state = true
    · rw [extractPartialEscapeTail_of_stringEsc isEsc]
      cases back with
      | nil =>
        rw [List.append_nil, extractPartialEscapeTail_of_stringEsc isEsc]
        decide
      | cons code back =>
        obtain ⟨start, isStart⟩ := endsWith isEsc
        have before : 1 + start.length = 0 + front.length := by
          rw [isStart, List.length_append, List.length_singleton]
          omega
        have later := ((scanUnits ⟨.ground, 0⟩ 0 front).shifted_stringEsc isEsc
          start.length code).run back
        have position : 2 + start.length = 0 + front.length + 1 := by omega
        rw [before, position] at later
        have first : scanUnits ⟨.ground, 0⟩ 0 (front ++ code :: back) =
            scanUnits (scanUnit (scanUnits ⟨.ground, 0⟩ 0 front) (0 + front.length) code)
              (0 + front.length + 1) back := by
          rw [scanUnits_append, scanUnits]
        rw [← first] at later
        apply extractPartialEscapeTail_congr later
        rw [isStart, List.append_assoc, List.drop_left]
    · have other := Bool.eq_false_iff.mpr isEsc
      rw [extractPartialEscapeTail_of_open ground other]
      have start : Shifted (scanUnits ⟨.ground, 0⟩ 0 front).start
          (front.drop (scanUnits ⟨.ground, 0⟩ 0 front).start).length
          (scanUnits ⟨.ground, 0⟩ 0 front)
          (scanUnits ⟨.ground, 0⟩ 0 (front.drop (scanUnits ⟨.ground, 0⟩ 0 front).start)) := by
        rw [same]
        refine ⟨rfl, fun _ => (Nat.zero_add _).symm, fun _ => ?_⟩
        rw [List.length_drop]
        omega
      have later := start.run back
      have position : (front.drop (scanUnits ⟨.ground, 0⟩ 0 front).start).length +
          (scanUnits ⟨.ground, 0⟩ 0 front).start = 0 + front.length := by
        rw [List.length_drop]
        omega
      have second := scanUnits_append ⟨.ground, 0⟩ 0
        (front.drop (scanUnits ⟨.ground, 0⟩ 0 front).start) back
      rw [Nat.zero_add] at second
      rw [position, ← scanUnits_append, ← second] at later
      apply extractPartialEscapeTail_congr later
      exact List.drop_append_of_le_length (Nat.le_of_lt within)

end Tails

section Continuations

theorem stateByPrefix_statePrefix (state : ScanState) :
    stateByPrefix (statePrefix state) = settled state := by
  cases state <;> decide

/-- What a continuation of a length says: after it the rest is scanned from the ground,
and before its end the escape stays open. -/
structure Finishes (state : ScanState) (length : ℕ) (chunk : Text) : Prop where
  within : length ≤ chunk.length
  same : settled (chunk.foldl nextState state) =
    settled ((chunk.drop length).foldl nextState .ground)
  stays : ∀ count < length, (chunk.take count).foldl nextState state ≠ .ground

theorem Finishes.zero {state : ScanState} {chunk : Text}
    (same : settled (chunk.foldl nextState state) = settled (chunk.foldl nextState .ground)) :
    Finishes state 0 chunk :=
  ⟨Nat.zero_le _, same, fun _ few => absurd few (Nat.not_lt_zero _)⟩

theorem Finishes.cons {state : ScanState} {length : ℕ} {code : UInt16} {rest : Text}
    (stillOpen : state ≠ .ground) (finishes : Finishes (nextState state code) length rest) :
    Finishes state (length + 1) (code :: rest) where
  within := Nat.succ_le_succ finishes.within
  same := finishes.same
  stays := by
    intro count few
    cases count with
    | zero => exact stillOpen
    | succ count => exact finishes.stays count (Nat.lt_of_succ_lt_succ few)

theorem Finishes.last {state : ScanState} {code : UInt16} {rest : Text}
    (stillOpen : state ≠ .ground) (ends : nextState state code = .ground) :
    Finishes state 1 (code :: rest) :=
  .cons stillOpen (.zero (by rw [ends]))

/-- The answer of a continuation, read at an index of its chunk. -/
def Continues (state : ScanState) (index : ℕ) (chunk : Text) : Option ℕ → Prop
  | none => chunk.foldl nextState state ≠ .ground
  | some length => ∃ consumed, length = index + consumed ∧ Finishes state consumed chunk

theorem Continues.step {state : ScanState} {index : ℕ} {code : UInt16} {rest : Text}
    {answer : Option ℕ} (stillOpen : state ≠ .ground)
    (later : Continues (nextState state code) (index + 1) rest answer) :
    Continues state index (code :: rest) answer := by
  cases answer with
  | none => exact later
  | some length =>
    obtain ⟨consumed, isLength, finishes⟩ := later
    refine ⟨consumed + 1, ?_, .cons stillOpen finishes⟩
    rw [isLength]
    omega

theorem Continues.reopened {state : ScanState} {index : ℕ} {rest : Text}
    (opens : settled (nextState state escapeUnit) = .esc) :
    Continues state index (escapeUnit :: rest) (some index) := by
  refine ⟨0, rfl, .zero ?_⟩
  have ground : nextState .ground escapeUnit = .esc := by decide
  rw [List.foldl_cons, List.foldl_cons, ground, ← settled_foldl, opens]

theorem Continues.ended {state : ScanState} {index : ℕ} {code : UInt16} {rest : Text}
    (stillOpen : state ≠ .ground) (ends : nextState state code = .ground) :
    Continues state index (code :: rest) (some (index + 1)) :=
  ⟨1, rfl, .last stillOpen ends⟩

theorem Continues.sequence {state : ScanState} {index : ℕ} {code : UInt16} {rest : Text}
    (final : Prop) [Decidable final] (stillOpen : state ≠ .ground)
    (isAborted : isAbort code = false)
    (next : nextState state code = if code = escapeUnit then .esc
      else if isAbort code then .ground else if final then .ground else state)
    (later : Continues state (index + 1) rest (continuationFrom state (index + 1) rest)) :
    Continues state index (code :: rest)
      (if code = escapeUnit then some index
        else if final then some (index + 1) else continuationFrom state (index + 1) rest) := by
  split
  · next isEscape =>
    rw [if_pos isEscape] at next
    rw [isEscape] at next ⊢
    exact .reopened (by rw [next]; rfl)
  · next notEscape =>
    rw [if_neg notEscape, isAborted, if_neg Bool.false_ne_true] at next
    split
    · next isFinal =>
      rw [if_pos isFinal] at next
      exact .ended stillOpen next
    · next notFinal =>
      rw [if_neg notFinal] at next
      apply Continues.step stillOpen
      rw [next]
      exact later

/-- In a string, BEL may end it and ESC keeps it open for its terminator. -/
theorem Continues.string {state after : ScanState} {index : ℕ} {code : UInt16} {rest : Text}
    (bell : Prop) [Decidable bell] (stillOpen : state ≠ .ground) (isEsc : isStringEsc after = true)
    (isAborted : isAbort code = false) (bellEnds : bell → nextState state code = .ground)
    (next : ¬bell → nextState state code =
      if isAbort code then .ground else if code = escapeUnit then after else state)
    (later : Continues state (index + 1) rest (continuationFrom state (index + 1) rest)) :
    Continues state index (code :: rest)
      (if bell then some (index + 1)
        else if code = escapeUnit then
          if rest.head? = some backslashUnit then some (index + 2) else some index
        else continuationFrom state (index + 1) rest) := by
  split
  · next isBell => exact .ended stillOpen (bellEnds isBell)
  · next notBell =>
    have nextIs := next notBell
    rw [isAborted, if_neg Bool.false_ne_true] at nextIs
    split
    · next isEscape =>
      rw [if_pos isEscape] at nextIs
      split
      · next terminated =>
        obtain ⟨more, isRest⟩ := List.head?_eq_some_iff.mp terminated
        have openStill : after ≠ .ground := fun same => by
          rw [same] at isEsc
          cases isEsc
        refine ⟨2, rfl, .cons stillOpen ?_⟩
        rw [nextIs, isRest]
        apply Finishes.last openStill
        rw [nextState_stringEsc isEsc]
        decide
      · rw [isEscape] at nextIs ⊢
        exact .reopened (by rw [nextIs, settled_of_stringEsc isEsc])
    · next notEscape =>
      rw [if_neg notEscape] at nextIs
      apply Continues.step stillOpen
      rw [nextIs]
      exact later

theorem nextState_of_abort {code : UInt16} (aborted : isAbort code = true) (state : ScanState) :
    nextState state code = .ground := by
  unfold isAbort at aborted
  rw [Bool.or_eq_true, decide_eq_true_eq, decide_eq_true_eq] at aborted
  rcases aborted with rfl | rfl
  · cases state <;> decide
  · cases state <;> decide

theorem continuationFrom_continues {state : ScanState} (plain : isStringEsc state = false)
    (index : ℕ) (chunk : Text) :
    Continues state index chunk (continuationFrom state index chunk) := by
  induction chunk generalizing state index with
  | nil =>
    unfold continuationFrom
    split
    · exact ⟨0, rfl, .zero (by rename_i ground; rw [ground])⟩
    · next stillOpen => exact stillOpen
  | cons code rest ih =>
    unfold continuationFrom
    split
    · exact ⟨0, rfl, .zero (by rename_i ground; rw [ground])⟩
    · next stillOpen =>
      split
      · next aborted => exact .ended stillOpen (nextState_of_abort aborted state)
      · next notAborted =>
        have isAborted := Bool.eq_false_iff.mpr notAborted
        cases state with
        | ground => exact absurd rfl stillOpen
        | oscEsc | stringEsc => cases plain
        | esc =>
          have next := nextState_esc code
          rw [isAborted, if_neg Bool.false_ne_true] at next
          dsimp only
          split
          · next isEscape =>
            rw [isEscape]
            exact .reopened (by decide)
          · next notEscape =>
            rw [if_neg notEscape] at next
            split
            · next isFinal => exact .ended stillOpen (next.trans isFinal)
            · apply Continues.step stillOpen
              rw [next]
              exact ih (isStringEsc_stateAfterEscByte code) _
        | escIntermediate =>
          exact .sequence _ stillOpen isAborted (by
            unfold nextState scanUnit
            dsimp only
            split_ifs <;> rfl) (ih plain _)
        | csi =>
          exact .sequence _ stillOpen isAborted (by
            unfold nextState scanUnit
            dsimp only
            split_ifs <;> rfl) (ih plain _)
        | osc =>
          refine .string _ stillOpen (show isStringEsc .oscEsc = true from rfl) isAborted
            (fun isBell => ?_) (fun notBell => ?_) (ih plain _)
          · rw [isBell.1]
            decide
          · have other : code ≠ bellUnit := fun same => notBell ⟨same, rfl⟩
            unfold nextState scanUnit
            dsimp only
            simp only [other, false_or]
            split_ifs <;> rfl
        | string =>
          refine .string _ stillOpen (show isStringEsc .stringEsc = true from rfl) isAborted
            (fun isBell => by cases isBell.2) (fun _ => ?_) (ih plain _)
          unfold nextState scanUnit
          dsimp only
          split_ifs <;> rfl

end Continuations

/-- Tracking the tail is incremental, and the boundary and the continuation of an open
escape agree with it. -/
theorem escape_tails_agree :
    (∀ front back, extractPartialEscapeTail (front ++ back) =
        extractPartialEscapeTail (extractPartialEscapeTail front ++ back)) ∧
      ∀ chunks : List Text,
        let boundary := chunks.foldl advanceTerminalEscapeBoundary []
        boundary = advanceTerminalEscapeBoundary [] chunks.flatten ∧
          (boundary = [] ↔ extractPartialEscapeTail chunks.flatten = []) ∧
          ∀ chunk : Text,
            (∀ length, openEscapeContinuationLength boundary chunk = some length →
              advanceTerminalEscapeBoundary boundary chunk =
                  advanceTerminalEscapeBoundary [] (chunk.drop length) ∧
                ∀ early, early <+: chunk.take length → early ≠ chunk.take length →
                  advanceTerminalEscapeBoundary boundary early ≠ []) ∧
            (openEscapeContinuationLength boundary chunk = none →
              advanceTerminalEscapeBoundary boundary chunk ≠ [] ∧
                advanceTerminalEscapeBoundary boundary chunk =
                  (skipOpenEscapeContinuation boundary chunk).stillOpen) := by
  refine ⟨extractPartialEscapeTail_append, ?_⟩
  intro chunks boundary
  have folded : boundary = statePrefix (chunks.flatten.foldl nextState .ground) :=
    foldl_advanceTerminalEscapeBoundary .ground chunks
  have whole : advanceTerminalEscapeBoundary [] chunks.flatten =
      statePrefix (chunks.flatten.foldl nextState .ground) :=
    advanceTerminalEscapeBoundary_eq .ground chunks.flatten
  refine ⟨folded.trans whole.symm, ?_, ?_⟩
  · rw [folded, statePrefix_eq_nil, extractPartialEscapeTail_eq_nil]
  · intro chunk
    rw [folded, ← statePrefix_settled]
    generalize chunks.flatten.foldl nextState .ground = state
    have plain : isStringEsc (settled state) = false := by
      cases state <;> rfl
    have continues := continuationFrom_continues plain 0 chunk
    have lengthIs : openEscapeContinuationLength (statePrefix (settled state)) chunk =
        continuationFrom (settled state) 0 chunk := by
      unfold openEscapeContinuationLength
      rw [stateByPrefix_statePrefix, settled_of_not plain]
    rw [advanceTerminalEscapeBoundary_eq]
    refine ⟨?_, ?_⟩
    · intro length answer
      rw [← lengthIs, answer] at continues
      obtain ⟨consumed, isLength, finishes⟩ := continues
      rw [Nat.zero_add] at isLength
      rw [isLength]
      refine ⟨?_, ?_⟩
      · have ground : advanceTerminalEscapeBoundary [] (chunk.drop consumed) =
            statePrefix ((chunk.drop consumed).foldl nextState .ground) :=
          advanceTerminalEscapeBoundary_eq .ground _
        rw [ground, ← statePrefix_settled, finishes.same, statePrefix_settled]
      · intro early isEarly proper
        have taken := List.prefix_iff_eq_take.mp isEarly
        have shorter : early.length < consumed := by
          have whole := List.length_take_of_le finishes.within
          have bound := isEarly.length_le
          have different : early.length ≠ (chunk.take consumed).length := fun same =>
            proper (isEarly.eq_of_length same)
          omega
        rw [List.take_take, Nat.min_eq_left (Nat.le_of_lt shorter)] at taken
        rw [taken, advanceTerminalEscapeBoundary_eq]
        exact fun empty => finishes.stays _ shorter (statePrefix_eq_nil.mp empty)
    · intro answer
      rw [← lengthIs, answer] at continues
      refine ⟨fun empty => continues (statePrefix_eq_nil.mp empty), ?_⟩
      unfold skipOpenEscapeContinuation
      rw [answer]
      exact (advanceTerminalEscapeBoundary_eq _ _).symm

end OxeeUI.Terminal
