import OxeeUI.Chat.EditDiff
import OxeeUI.Library.CommonSubsequence

/-!
# The diff is exact

Both diffs list each side whole, in order and with its true numbers.  The table
holds the lengths of longest common subsequences, and the walk keeps one; the
linear diff keeps the common lines at both ends.
-/

namespace OxeeUI.Chat

open Library NativeChatEditLine

/-- The rows that are on the old side, with their numbers there. -/
def oldSide (rows : List NativeChatEditLine) : List (Text × Option ℕ) :=
  (rows.filter fun row => row.kind ≠ .add).map fun row => (row.text, row.oldLineNumber)

def newSide (rows : List NativeChatEditLine) : List (Text × Option ℕ) :=
  (rows.filter fun row => row.kind ≠ .del).map fun row => (row.text, row.newLineNumber)

def numbered (lines : List Text) : List (Text × Option ℕ) :=
  lines.mapIdx fun index line => (line, some (index + 1))

def contextRows (rows : List NativeChatEditLine) : List NativeChatEditLine :=
  rows.filter fun row => row.kind = .context

/-- A context row is a line of each side, the same on both. -/
def PairsLines (original modified : List Text) (row : NativeChatEditLine) : Prop :=
  ∃ i j, row.oldLineNumber = some (i + 1) ∧ row.newLineNumber = some (j + 1) ∧
    original[i]? = some row.text ∧ modified[j]? = some row.text

structure ExactRows (original modified : List Text) (rows : List NativeChatEditLine) : Prop where
  old : oldSide rows = numbered original
  new : newSide rows = numbered modified
  pairs : ∀ row ∈ contextRows rows, PairsLines original modified row
  noGap : ∀ row ∈ rows, row.kind ≠ .gap

section Sides

variable {original modified lines : List Text} {rows more : List NativeChatEditLine}
  {start count : ℕ}

def numberedRange (lines : List Text) (start count : ℕ) : List (Text × Option ℕ) :=
  (List.range' start count).map fun i => (lines.getD i [], some (i + 1))

theorem numberedRange_all (lines : List Text) : numberedRange lines 0 lines.length = numbered lines := by
  apply List.ext_getElem
  · simp [numberedRange, numbered]
  · intro index inside _
    have bound : index < lines.length := by simpa [numberedRange] using inside
    simp [numberedRange, numbered, bound]

theorem numberedRange_succ (lines : List Text) (start count : ℕ) :
    numberedRange lines start (count + 1) =
      (lines.getD start [], some (start + 1)) :: numberedRange lines (start + 1) count := rfl

theorem numberedRange_append (lines : List Text) (start first second : ℕ) :
    numberedRange lines start first ++ numberedRange lines (start + first) second =
      numberedRange lines start (first + second) := by
  unfold numberedRange
  rw [← List.map_append, List.range'_append_1]

theorem oldSide_append : oldSide (rows ++ more) = oldSide rows ++ oldSide more := by
  simp [oldSide]

theorem newSide_append : newSide (rows ++ more) = newSide rows ++ newSide more := by
  simp [newSide]

theorem contextRows_append : contextRows (rows ++ more) = contextRows rows ++ contextRows more := by
  simp [contextRows]

theorem kind_removals : ∀ row ∈ removals lines start count, row.kind = .del := by
  intro row member
  obtain ⟨i, _, rfl⟩ := List.mem_map.mp member
  rfl

theorem kind_additions : ∀ row ∈ additions lines start count, row.kind = .add := by
  intro row member
  obtain ⟨i, _, rfl⟩ := List.mem_map.mp member
  rfl

theorem oldSide_removals : oldSide (removals lines start count) = numberedRange lines start count := by
  unfold oldSide
  rw [List.filter_eq_self.mpr fun row member => by simp [kind_removals row member]]
  unfold removals numberedRange
  rw [List.map_map]
  rfl

theorem newSide_removals : newSide (removals lines start count) = [] := by
  unfold newSide
  rw [List.filter_eq_nil_iff.mpr fun row member => by simp [kind_removals row member],
    List.map_nil]

theorem contextRows_removals : contextRows (removals lines start count) = [] :=
  List.filter_eq_nil_iff.mpr fun row member => by simp [kind_removals row member]

theorem oldSide_additions : oldSide (additions lines start count) = [] := by
  unfold oldSide
  rw [List.filter_eq_nil_iff.mpr fun row member => by simp [kind_additions row member],
    List.map_nil]

theorem newSide_additions : newSide (additions lines start count) = numberedRange lines start count := by
  unfold newSide
  rw [List.filter_eq_self.mpr fun row member => by simp [kind_additions row member]]
  unfold additions numberedRange
  rw [List.map_map]
  rfl

theorem contextRows_additions : contextRows (additions lines start count) = [] :=
  List.filter_eq_nil_iff.mpr fun row member => by simp [kind_additions row member]

end Sides

section Table

variable {original modified : List Text}

theorem cell_inj {i j i' j' width : ℕ} (inside : j < width) (inside' : j' < width)
    (same : i * width + j = i' * width + j') : i = i' ∧ j = j' := by
  have row : (i * width + j) / width = (i' * width + j') / width := by rw [same]
  have positive : 0 < width := Nat.zero_lt_of_lt inside
  rw [Nat.add_comm, Nat.add_mul_div_right _ _ positive, Nat.div_eq_of_lt inside, Nat.zero_add,
    Nat.add_comm, Nat.add_mul_div_right _ _ positive, Nat.div_eq_of_lt inside', Nat.zero_add] at row
  subst row
  exact ⟨rfl, Nat.add_left_cancel same⟩

theorem cell_lt {i j rows width : ℕ} (row : i < rows) (inside : j < width) :
    i * width + j < rows * width := by
  have next : (i + 1) * width ≤ rows * width := Nat.mul_le_mul_right width row
  rw [Nat.succ_mul] at next
  omega

/-- The cells from a row on are lengths of longest common subsequences. -/
structure Filled (original modified : List Text) (dp : Array ℕ) (row column : ℕ) : Prop where
  size : dp.size = (original.length + 1) * tableWidth modified
  below : ∀ i, row < i → i ≤ original.length → ∀ j ≤ modified.length,
    cellAt modified dp i j = lcsLength (original.drop i) (modified.drop j)
  here : ∀ j, column ≤ j → j ≤ modified.length →
    cellAt modified dp row j = lcsLength (original.drop row) (modified.drop j)

theorem lcsLength_drop {i j : ℕ} (inOld : i < original.length) (inNew : j < modified.length) :
    lcsLength (original.drop i) (modified.drop j) =
      if original[i]? = modified[j]? then
        lcsLength (original.drop (i + 1)) (modified.drop (j + 1)) + 1
      else max (lcsLength (original.drop (i + 1)) (modified.drop j))
        (lcsLength (original.drop i) (modified.drop (j + 1))) := by
  rw [List.drop_eq_getElem_cons inOld, List.drop_eq_getElem_cons inNew, lcsLength_cons,
    List.getElem?_eq_getElem inOld, List.getElem?_eq_getElem inNew]
  simp only [Option.some.injEq]

theorem cellAt_set {dp : Array ℕ} {i j i' j' value : ℕ}
    (size : dp.size = (original.length + 1) * tableWidth modified) (row : i ≤ original.length)
    (column : j ≤ modified.length) (column' : j' ≤ modified.length) :
    cellAt modified (dp.setIfInBounds (i * tableWidth modified + j) value) i' j' =
      if i' = i ∧ j' = j then value else cellAt modified dp i' j' := by
  have bound : i * tableWidth modified + j < dp.size := by
    rw [size]
    exact cell_lt (Nat.lt_succ_of_le row) (Nat.lt_succ_of_le column)
  unfold cellAt
  by_cases same : i' = i ∧ j' = j
  · obtain ⟨rfl, rfl⟩ := same
    simp [bound]
  · rw [if_neg same]
    have different : i * tableWidth modified + j ≠ i' * tableWidth modified + j' := by
      intro equal
      obtain ⟨sameRow, sameColumn⟩ := cell_inj (Nat.lt_succ_of_le column) (Nat.lt_succ_of_le column') equal
      exact same ⟨sameRow.symm, sameColumn.symm⟩
    simp [different]

theorem Filled.row {dp : Array ℕ} {i column : ℕ} (inOld : i < original.length)
    (bound : column ≤ modified.length) (filled : Filled original modified dp i column) :
    Filled original modified (fillRow original modified i column dp) i 0 := by
  induction column generalizing dp with
  | zero => exact filled
  | succ j ih =>
    have inNew : j < modified.length := bound
    refine ih (Nat.le_of_succ_le bound) ?_
    have value : lcsCell original modified dp i j =
        lcsLength (original.drop i) (modified.drop j) := by
      rw [lcsLength_drop inOld inNew, lcsCell,
        filled.below (i + 1) (Nat.lt_succ_self i) inOld (j + 1) inNew,
        filled.below (i + 1) (Nat.lt_succ_self i) inOld j (Nat.le_of_lt inNew),
        filled.here (j + 1) (le_refl _) inNew]
    have set : ∀ i' j', j' ≤ modified.length →
        cellAt modified (dp.setIfInBounds (i * tableWidth modified + j)
          (lcsCell original modified dp i j)) i' j' =
        if i' = i ∧ j' = j then lcsCell original modified dp i j else cellAt modified dp i' j' :=
      fun i' j' inside => cellAt_set filled.size (Nat.le_of_lt inOld) (Nat.le_of_lt inNew) inside
    constructor
    · rw [Array.size_setIfInBounds, filled.size]
    · intro i' later within j' inside
      rw [set i' j' inside, if_neg (fun same => Nat.ne_of_gt later same.1)]
      exact filled.below i' later within j' inside
    · intro j' least inside
      rw [set i j' inside]
      split
      case isTrue same => rw [same.2, value]
      case isFalse other =>
        have different : j' ≠ j := fun same => other ⟨rfl, same⟩
        exact filled.here j' (by omega) inside

theorem cellAt_fillRow {dp : Array ℕ} {i column i' j' : ℕ} (different : i' ≠ i)
    (row : i ≤ original.length) (bound : column ≤ modified.length) (inside : j' ≤ modified.length)
    (size : dp.size = (original.length + 1) * tableWidth modified) :
    cellAt modified (fillRow original modified i column dp) i' j' = cellAt modified dp i' j' := by
  induction column generalizing dp with
  | zero => rfl
  | succ j ih =>
    have earlier := Nat.le_of_succ_le bound
    rw [fillRow, ih earlier (by rw [Array.size_setIfInBounds, size]),
      cellAt_set size row earlier inside, if_neg (fun same => different same.1)]

theorem filled_table {dp : Array ℕ} {row : ℕ} (bound : row ≤ original.length)
    (size : dp.size = (original.length + 1) * tableWidth modified)
    (below : ∀ i, row ≤ i → i ≤ original.length → ∀ j ≤ modified.length,
      cellAt modified dp i j = lcsLength (original.drop i) (modified.drop j))
    (empty : ∀ i < row, cellAt modified dp i modified.length = 0) :
    ∀ i ≤ original.length, ∀ j ≤ modified.length,
      cellAt modified (fillTable original modified row dp) i j =
        lcsLength (original.drop i) (modified.drop j) := by
  induction row generalizing dp with
  | zero => exact fun i within j inside => below i (Nat.zero_le i) within j inside
  | succ i ih =>
    have filled : Filled original modified dp i modified.length := by
      refine ⟨size, fun i' later => below i' later, fun j least inside => ?_⟩
      have last : j = modified.length := le_antisymm inside least
      rw [last, empty i (Nat.lt_succ_self i), List.drop_length, lcsLength_nil_right]
    have done' := filled.row bound (le_refl _)
    refine ih (Nat.le_of_succ_le bound) done'.size (fun i' least within j inside => ?_) ?_
    · rcases Nat.eq_or_lt_of_le least with same | later
      · rw [← same]
        exact done'.here j (Nat.zero_le j) inside
      · exact done'.below i' later within j inside
    · intro i' earlier
      rw [cellAt_fillRow (Nat.ne_of_lt earlier) (Nat.le_of_succ_le bound) (le_refl _) (le_refl _)
        size]
      exact empty i' (Nat.lt_succ_of_lt earlier)

theorem cellAt_lcsTable {i j : ℕ} (row : i ≤ original.length) (inside : j ≤ modified.length) :
    cellAt modified (lcsTable original modified) i j =
      lcsLength (original.drop i) (modified.drop j) := by
  have zero : ∀ i j, cellAt modified
      (Array.replicate ((original.length + 1) * tableWidth modified) 0) i j = 0 := by
    intro i j
    unfold cellAt
    rw [Array.getD_eq_getD_getElem?, Array.getElem?_replicate]
    split
    · rfl
    · rfl
  refine filled_table (le_refl _) (by simp) (fun i least within j _ => ?_) (fun i _ => zero i _)
    i row j inside
  rw [zero, le_antisymm within least, List.drop_length, lcsLength_nil_left]

end Table

section Walk

variable {original modified : List Text}

structure Walked (original modified : List Text) (oldIndex newIndex : ℕ)
    (rows : List NativeChatEditLine) : Prop where
  old : oldSide rows = numberedRange original oldIndex (original.length - oldIndex)
  new : newSide rows = numberedRange modified newIndex (modified.length - newIndex)
  pairs : ∀ row ∈ contextRows rows, PairsLines original modified row
  noGap : ∀ row ∈ rows, row.kind ≠ .gap
  longest : (contextRows rows).length =
    lcsLength (original.drop oldIndex) (modified.drop newIndex)

theorem numberedRange_drop {lines : List Text} {index : ℕ} (inside : index < lines.length) :
    numberedRange lines index (lines.length - index) =
      (lines.getD index [], some (index + 1)) ::
        numberedRange lines (index + 1) (lines.length - (index + 1)) := by
  have count : lines.length - index = lines.length - (index + 1) + 1 := by omega
  rw [count, numberedRange_succ]

theorem walked_lcsWalk (oldIndex newIndex : ℕ) (inOld : oldIndex ≤ original.length)
    (inNew : newIndex ≤ modified.length) :
    Walked original modified oldIndex newIndex
      (lcsWalk original modified (lcsTable original modified) oldIndex newIndex) := by
  fun_induction lcsWalk original modified (lcsTable original modified) oldIndex newIndex with
  | case1 oldIndex newIndex inside same ih =>
    have walked := ih inside.1 inside.2
    have text : modified.getD newIndex [] = original.getD oldIndex [] := by
      simp only [List.getD_eq_getElem?_getD, same]
    constructor
    · rw [numberedRange_drop inside.1, ← walked.old]
      rfl
    · rw [numberedRange_drop inside.2, ← walked.new, text]
      rfl
    · intro row member
      rcases List.mem_cons.mp member with rfl | later
      · refine ⟨oldIndex, newIndex, rfl, rfl, ?_, ?_⟩
        · simp [contextLine, inside.1]
        · rw [← same]
          simp [contextLine, inside.1]
      · exact walked.pairs row later
    · intro row member
      rcases List.mem_cons.mp member with rfl | later
      · simp [contextLine]
      · exact walked.noGap row later
    · rw [lcsLength_drop inside.1 inside.2, if_pos same, ← walked.longest]
      rfl
  | case2 oldIndex newIndex inside different below ih =>
    have walked := ih inside.1 inNew
    rw [cellAt_lcsTable (Nat.le_of_lt inside.1) inside.2,
      cellAt_lcsTable inside.1 (Nat.le_of_lt inside.2)] at below
    constructor
    · rw [numberedRange_drop inside.1, ← walked.old]
      rfl
    · rw [← walked.new]
      rfl
    · exact walked.pairs
    · intro row member
      rcases List.mem_cons.mp member with rfl | later
      · simp [removal]
      · exact walked.noGap row later
    · rw [lcsLength_drop inside.1 inside.2, if_neg different, max_eq_left below, ← walked.longest]
      rfl
  | case3 oldIndex newIndex inside different above ih =>
    have walked := ih inOld inside.2
    rw [cellAt_lcsTable (Nat.le_of_lt inside.1) inside.2,
      cellAt_lcsTable inside.1 (Nat.le_of_lt inside.2)] at above
    constructor
    · rw [← walked.old]
      rfl
    · rw [numberedRange_drop inside.2, ← walked.new]
      rfl
    · exact walked.pairs
    · intro row member
      rcases List.mem_cons.mp member with rfl | later
      · simp [addition]
      · exact walked.noGap row later
    · rw [lcsLength_drop inside.1 inside.2, if_neg different,
        max_eq_right (Nat.le_of_lt (Nat.lt_of_not_le above)), ← walked.longest]
      rfl
  | case4 oldIndex newIndex ended =>
    constructor
    · rw [oldSide_append, oldSide_removals, oldSide_additions, List.append_nil]
    · rw [newSide_append, newSide_removals, newSide_additions, List.nil_append]
    · rw [contextRows_append, contextRows_removals, contextRows_additions]
      exact fun row member => by cases member
    · intro row member
      rcases List.mem_append.mp member with old | new
      · simp [kind_removals row old]
      · simp [kind_additions row new]
    · rw [contextRows_append, contextRows_removals, contextRows_additions]
      -- One of the sides is at its end.
      rcases Nat.lt_or_ge oldIndex original.length with more | finished
      · have finished : modified.length ≤ newIndex := by
          by_contra inside
          exact ended ⟨more, Nat.lt_of_not_le inside⟩
        rw [List.drop_eq_nil_of_le finished, lcsLength_nil_right]
        rfl
      · rw [List.drop_eq_nil_of_le finished, lcsLength_nil_left]
        rfl

end Walk

section Ends

variable {original modified : List Text}

def AgreesFirst (original modified : List Text) (count : ℕ) : Prop :=
  count ≤ original.length ∧ count ≤ modified.length ∧ original.take count = modified.take count

/-- The contents agree on so many last lines, after so many first ones. -/
def AgreesLast (original modified : List Text) (prefixed count : ℕ) : Prop :=
  count + prefixed ≤ original.length ∧ count + prefixed ≤ modified.length ∧
    original.drop (original.length - count) = modified.drop (modified.length - count)

theorem take_eq_iff {count : ℕ} :
    original.take count = modified.take count ↔ ∀ i < count, original[i]? = modified[i]? := by
  constructor
  · intro same i inside
    have here := congrArg (fun lines => lines[i]?) same
    simpa [List.getElem?_take, inside] using here
  · intro same
    refine List.ext_getElem? fun i => ?_
    by_cases inside : i < count
    · simpa [List.getElem?_take, inside] using same i inside
    · simp [List.getElem?_take, inside]

theorem drop_eq_iff {count : ℕ} (inOld : count ≤ original.length) (inNew : count ≤ modified.length) :
    original.drop (original.length - count) = modified.drop (modified.length - count) ↔
      ∀ k < count, original[original.length - k - 1]? = modified[modified.length - k - 1]? := by
  constructor
  · intro same k inside
    have here := congrArg (fun lines => lines[count - 1 - k]?) same
    have old : original.length - count + (count - 1 - k) = original.length - k - 1 := by omega
    have new : modified.length - count + (count - 1 - k) = modified.length - k - 1 := by omega
    simpa only [List.getElem?_drop, old, new] using here
  · intro same
    refine List.ext_getElem? fun i => ?_
    rw [List.getElem?_drop, List.getElem?_drop]
    by_cases inside : i < count
    · have here := same (count - 1 - i) (by omega)
      have old : original.length - (count - 1 - i) - 1 = original.length - count + i := by omega
      have new : modified.length - (count - 1 - i) - 1 = modified.length - count + i := by omega
      rwa [old, new] at here
    · rw [List.getElem?_eq_none (by omega), List.getElem?_eq_none (by omega)]

theorem commonPrefix_spec (prefixed : ℕ) (agrees : AgreesFirst original modified prefixed) :
    AgreesFirst original modified (commonPrefix original modified prefixed) ∧
      ¬ AgreesFirst original modified (commonPrefix original modified prefixed + 1) := by
  fun_induction commonPrefix original modified prefixed with
  | case1 prefixed more ih =>
    refine ih ⟨more.1, more.2.1, ?_⟩
    rw [take_eq_iff]
    intro i inside
    rcases Nat.lt_succ_iff_lt_or_eq.mp inside with earlier | rfl
    · exact take_eq_iff.mp agrees.2.2 i earlier
    · exact more.2.2
  | case2 prefixed stopped =>
    refine ⟨agrees, fun longer => stopped ⟨longer.1, longer.2.1, ?_⟩⟩
    exact take_eq_iff.mp longer.2.2 prefixed (Nat.lt_succ_self _)

theorem agreesFirst_mono {less more : ℕ} (within : less ≤ more)
    (agrees : AgreesFirst original modified more) : AgreesFirst original modified less := by
  refine ⟨within.trans agrees.1, within.trans agrees.2.1, ?_⟩
  rw [take_eq_iff]
  intro i inside
  exact take_eq_iff.mp agrees.2.2 i (lt_of_lt_of_le inside within)

theorem commonPrefix_isGreatest :
    IsGreatest {count | AgreesFirst original modified count} (commonPrefix original modified 0) := by
  obtain ⟨agrees, longest⟩ := @commonPrefix_spec original modified 0
    ⟨Nat.zero_le _, Nat.zero_le _, rfl⟩
  refine ⟨agrees, fun count longer => ?_⟩
  by_contra beyond
  exact longest (agreesFirst_mono (Nat.lt_of_not_le beyond) longer)

theorem commonSuffix_spec (prefixed suffixed : ℕ)
    (agrees : AgreesLast original modified prefixed suffixed) :
    AgreesLast original modified prefixed (commonSuffix original modified prefixed suffixed) ∧
      ¬ AgreesLast original modified prefixed (commonSuffix original modified prefixed suffixed + 1) := by
  fun_induction commonSuffix original modified prefixed suffixed with
  | case1 suffixed more ih =>
    refine ih ⟨by omega, by omega, ?_⟩
    rw [drop_eq_iff (by omega) (by omega)]
    intro k inside
    rcases Nat.lt_succ_iff_lt_or_eq.mp inside with earlier | rfl
    · exact (drop_eq_iff (by omega) (by omega)).mp agrees.2.2 k earlier
    · exact more.2.2
  | case2 suffixed stopped =>
    refine ⟨agrees, fun longer => ?_⟩
    obtain ⟨inOld, inNew, same⟩ := longer
    refine stopped ⟨by omega, by omega, ?_⟩
    exact (drop_eq_iff (by omega) (by omega)).mp same suffixed (Nat.lt_succ_self _)

theorem agreesLast_mono {prefixed less more : ℕ} (within : less ≤ more)
    (agrees : AgreesLast original modified prefixed more) :
    AgreesLast original modified prefixed less := by
  obtain ⟨inOld, inNew, same⟩ := agrees
  refine ⟨by omega, by omega, ?_⟩
  rw [drop_eq_iff (by omega) (by omega)]
  intro k inside
  exact (drop_eq_iff (by omega) (by omega)).mp same k (lt_of_lt_of_le inside within)

theorem commonSuffix_isGreatest {prefixed : ℕ} (agrees : AgreesFirst original modified prefixed) :
    IsGreatest {count | AgreesLast original modified prefixed count}
      (commonSuffix original modified prefixed 0) := by
  obtain ⟨ends, longest⟩ := @commonSuffix_spec original modified prefixed 0
    ⟨by rw [Nat.zero_add]; exact agrees.1, by rw [Nat.zero_add]; exact agrees.2.1, by simp⟩
  refine ⟨ends, fun count longer => ?_⟩
  by_contra beyond
  exact longest (agreesLast_mono (Nat.lt_of_not_le beyond) longer)

end Ends

section Linear

variable {original modified : List Text}

/-- Lines of both sides at a distance from one another. -/
def contextRange (original : List Text) (start count newStart : ℕ) : List NativeChatEditLine :=
  (List.range' start count).map fun i =>
    contextLine (original.getD i []) (i + 1) (newStart + (i - start) + 1)

theorem kind_contextRange {start count newStart : ℕ} :
    ∀ row ∈ contextRange original start count newStart, row.kind = .context := by
  intro row member
  obtain ⟨i, _, rfl⟩ := List.mem_map.mp member
  rfl

theorem oldSide_contextRange (start count newStart : ℕ) :
    oldSide (contextRange original start count newStart) = numberedRange original start count := by
  unfold oldSide
  rw [List.filter_eq_self.mpr fun row member => by simp [kind_contextRange row member]]
  unfold contextRange numberedRange
  rw [List.map_map]
  rfl

theorem contextRows_contextRange (start count newStart : ℕ) :
    contextRows (contextRange original start count newStart) =
      contextRange original start count newStart :=
  List.filter_eq_self.mpr fun row member => by simp [kind_contextRange row member]

theorem newSide_contextRange {start count newStart : ℕ}
    (same : ∀ k < count, original.getD (start + k) [] = modified.getD (newStart + k) []) :
    newSide (contextRange original start count newStart) = numberedRange modified newStart count := by
  unfold newSide
  rw [List.filter_eq_self.mpr fun row member => by simp [kind_contextRange row member]]
  unfold contextRange numberedRange
  rw [List.map_map]
  apply List.ext_getElem
  · simp
  · intro k inside _
    have bound : k < count := by simpa using inside
    have shift : start + k - start = k := Nat.add_sub_cancel_left start k
    have text := same k bound
    simp only [List.getElem_map, List.getElem_range', Nat.one_mul, Function.comp_apply, contextLine,
      shift, text]

theorem pairs_contextRange {start count newStart : ℕ} (inOld : start + count ≤ original.length)
    (same : ∀ k < count, original[start + k]? = modified[newStart + k]?) :
    ∀ row ∈ contextRange original start count newStart, PairsLines original modified row := by
  intro row member
  obtain ⟨i, inside, rfl⟩ := List.mem_map.mp member
  obtain ⟨k, bound, rfl⟩ := List.mem_range'.mp inside
  rw [Nat.one_mul]
  have shift : start + k - start = k := Nat.add_sub_cancel_left start k
  have found : original[start + k]? = some (original.getD (start + k) []) := by
    rw [List.getD_eq_getElem?_getD, List.getElem?_eq_getElem (by omega), Option.getD_some]
  refine ⟨start + k, newStart + k, rfl, ?_, found, ?_⟩
  · simp [contextLine, shift]
  · rw [← same k bound]
    exact found

theorem getD_eq_of_getElem? {i j : ℕ} (same : original[i]? = modified[j]?) :
    original.getD i [] = modified.getD j [] := by
  rw [List.getD_eq_getElem?_getD, List.getD_eq_getElem?_getD, same]

theorem prefixSuffixLines_eq (original modified : List Text) :
    prefixSuffixLines original modified =
      let prefixed := commonPrefix original modified 0
      let suffixed := commonSuffix original modified prefixed 0
      contextRange original 0 prefixed 0 ++
        removals original prefixed (original.length - suffixed - prefixed) ++
        additions modified prefixed (modified.length - suffixed - prefixed) ++
        contextRange original (original.length - suffixed) suffixed (modified.length - suffixed) := by
  unfold prefixSuffixLines contextRange
  simp

theorem exactRows_prefixSuffixLines (original modified : List Text) :
    ExactRows original modified (prefixSuffixLines original modified) ∧
      (contextRows (prefixSuffixLines original modified)).length =
        commonPrefix original modified 0 +
          commonSuffix original modified (commonPrefix original modified 0) 0 := by
  rw [prefixSuffixLines_eq]
  have first := (@commonPrefix_isGreatest original modified).1
  have last := (commonSuffix_isGreatest first).1
  dsimp only
  generalize commonPrefix original modified 0 = prefixed at first last ⊢
  generalize commonSuffix original modified prefixed 0 = suffixed at last ⊢
  obtain ⟨_, _, starts⟩ := first
  obtain ⟨inOld, inNew, ends⟩ := last
  have sameFirst : ∀ k < prefixed, original[0 + k]? = modified[0 + k]? := fun k inside => by
    rw [Nat.zero_add]
    exact take_eq_iff.mp starts k inside
  have sameLast : ∀ k < suffixed,
      original[original.length - suffixed + k]? = modified[modified.length - suffixed + k]? := by
    intro k _
    have here := congrArg (fun lines => lines[k]?) ends
    simpa only [List.getElem?_drop] using here
  have oldMiddle : original.length - suffixed = prefixed + (original.length - suffixed - prefixed) := by
    omega
  have newMiddle : modified.length - suffixed = prefixed + (modified.length - suffixed - prefixed) := by
    omega
  refine ⟨⟨?_, ?_, ?_, ?_⟩, ?_⟩
  · have joined := numberedRange_append original 0 prefixed (original.length - suffixed - prefixed)
    have whole := numberedRange_append original 0 (original.length - suffixed) suffixed
    rw [Nat.zero_add] at joined whole
    rw [oldSide_append, oldSide_append, oldSide_append, oldSide_contextRange, oldSide_removals,
      oldSide_additions, oldSide_contextRange, List.append_nil, joined, ← oldMiddle, whole,
      Nat.sub_add_cancel (by omega), numberedRange_all]
  · have joined := numberedRange_append modified 0 prefixed (modified.length - suffixed - prefixed)
    have whole := numberedRange_append modified 0 (modified.length - suffixed) suffixed
    rw [Nat.zero_add] at joined whole
    rw [newSide_append, newSide_append, newSide_append,
      newSide_contextRange fun k inside => getD_eq_of_getElem? (sameFirst k inside),
      newSide_removals, newSide_additions,
      newSide_contextRange fun k inside => getD_eq_of_getElem? (sameLast k inside),
      List.append_nil, joined, ← newMiddle, whole, Nat.sub_add_cancel (by omega), numberedRange_all]
  · rw [contextRows_append, contextRows_append, contextRows_append, contextRows_contextRange,
      contextRows_removals, contextRows_additions, contextRows_contextRange]
    intro row member
    simp only [List.append_nil] at member
    rcases List.mem_append.mp member with early | late
    · exact pairs_contextRange (by omega) sameFirst row early
    · exact pairs_contextRange (by omega) sameLast row late
  · intro row member
    simp only [List.mem_append] at member
    rcases member with ((early | removed) | added) | late
    · simp [kind_contextRange row early]
    · simp [kind_removals row removed]
    · simp [kind_additions row added]
    · simp [kind_contextRange row late]
  · rw [contextRows_append, contextRows_append, contextRows_append, contextRows_contextRange,
      contextRows_removals, contextRows_additions, contextRows_contextRange]
    simp [contextRange]

end Linear

/-- The diff lists both contents exactly, and keeps as many lines as its method can. -/
theorem editLinesFromContents_exact (originalContent modifiedContent : Text) :
    let original := (splitEditContent originalContent).lines
    let modified := (splitEditContent modifiedContent).lines
    let rows := (editLinesFromContents originalContent modifiedContent).1
    ExactRows original modified rows ∧
    (original.length * modified.length ≤ maxEditDiffCells →
      IsGreatest {length | ∃ common : List Text, common.Sublist original ∧
        common.Sublist modified ∧ common.length = length} (contextRows rows).length) ∧
    (maxEditDiffCells < original.length * modified.length →
      ∃ prefixed suffixed, (contextRows rows).length = prefixed + suffixed ∧
        IsGreatest {count | AgreesFirst original modified count} prefixed ∧
        IsGreatest {count | AgreesLast original modified prefixed count} suffixed) := by
  intro original modified rows
  subst rows
  unfold editLinesFromContents
  dsimp only
  have originals : (splitEditContent originalContent).lines = original := rfl
  have modifieds : (splitEditContent modifiedContent).lines = modified := rfl
  rw [originals, modifieds]
  by_cases small : original.length * modified.length ≤ maxEditDiffCells
  · rw [if_pos small]
    have walked := @walked_lcsWalk original modified 0 0 (Nat.zero_le _) (Nat.zero_le _)
    refine ⟨⟨?_, ?_, walked.pairs, walked.noGap⟩, fun _ => ?_, fun large => ?_⟩
    · exact walked.old.trans (numberedRange_all original)
    · exact walked.new.trans (numberedRange_all modified)
    · have longest := walked.longest
      rw [List.drop_zero, List.drop_zero] at longest
      unfold lcsLines
      rw [longest]
      exact lcsLength_isGreatest original modified
    · exact absurd small (Nat.not_le_of_lt large)
  · rw [if_neg small]
    obtain ⟨exactly, kept⟩ := exactRows_prefixSuffixLines original modified
    refine ⟨exactly, fun few => absurd few small, fun _ => ?_⟩
    have starts := @commonPrefix_isGreatest original modified
    exact ⟨_, _, kept, starts, commonSuffix_isGreatest starts.1⟩

end OxeeUI.Chat
