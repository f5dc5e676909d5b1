import OxeeUI.Layout.Trees

/-!
# Dragged dividers

A window sends the dividers it changed as ratios at paths.  Setting a ratio changes one label
and no shape, so whether an intent finds its split does not depend on the intents before it.
-/

namespace OxeeUI.Layout

open OxeeUI.Library SplitTree

abbrev SegmentPath := List (List Char)

def childPath (path segment : String) : String :=
  if path.length > 0 then path ++ "." ++ segment else segment

def identityOf (label : SplitLabel) (first second : SplitTree String SplitLabel) :
    SplitIdentity :=
  ⟨label.direction, first.leading, second.leading⟩

/-- `split.ratio ?? 0.5`. -/
def effectiveRatio (label : SplitLabel) : Rat := label.ratio.getD (1 / 2)

/-- The ratios that differ between trees of one shape. -/
def changedSplitRatios :
    (before after : SplitTree String SplitLabel) → (path : String) → List SplitRatioIntent
  | .split label first second, .split label' first' second', path =>
    (if effectiveRatio label ≠ effectiveRatio label' then
      [⟨path, effectiveRatio label', some (identityOf label' first' second')⟩]
    else []) ++
      changedSplitRatios first first' (childPath path "first") ++
      changedSplitRatios second second' (childPath path "second")
  | _, _, _ => []

def nodeAt : SegmentPath → SplitTree String SplitLabel → Option (SplitTree String SplitLabel)
  | [], node => some node
  | _ :: _, .leaf _ => none
  | segment :: rest, .split _ first second =>
    if segment = "first".toList then nodeAt rest first
    else if segment = "second".toList then nodeAt rest second
    else none

def labelOf : SplitTree String SplitLabel → Option SplitLabel
  | .leaf _ => none
  | .split label _ _ => some label

def labelAt (segments : SegmentPath) (tree : SplitTree String SplitLabel) : Option SplitLabel :=
  (nodeAt segments tree).bind labelOf

/-- Whether a node is a split, and the one an intent means. -/
def nodeMeant (intent : SplitRatioIntent) : SplitTree String SplitLabel → Bool
  | .leaf _ => false
  | .split label first second => isSplitMeant label first second intent.split

/-- The intent's path reaches a split of its direction and leading ids. -/
def Meant (tree : SplitTree String SplitLabel) (intent : SplitRatioIntent) : Prop :=
  (nodeAt (segmentsOf intent.path) tree).any (nodeMeant intent) = true

instance (tree : SplitTree String SplitLabel) (intent : SplitRatioIntent) :
    Decidable (Meant tree intent) :=
  inferInstanceAs (Decidable (_ = true))

variable {tree next : SplitTree String SplitLabel} {saved : Rat → Option Rat}
  {intent : SplitRatioIntent} {segments : SegmentPath}

/-! ## Paths -/

theorem segmentsOf_childPath (path : String) {segment : String} (nonempty : segment ≠ "")
    (plain : '.' ∉ segment.toList) :
    segmentsOf (childPath path segment) = segmentsOf path ++ [segment.toList] := by
  have alone : splitOnChar '.' segment.toList = [segment.toList] := splitOnChar_of_absent plain
  unfold childPath
  by_cases root : path = ""
  · subst root
    simp [segmentsOf, nonempty, alone]
  · have positive : path.length > 0 := by
      rw [← String.length_toList]
      exact List.length_pos_of_ne_nil (by simpa using root)
    have joined : path ++ "." ++ segment ≠ "" := by simp [root]
    rw [if_pos positive, segmentsOf, if_neg joined, segmentsOf, if_neg root, String.toList_append,
      String.toList_append, List.append_assoc]
    have appended := splitOnChar_append '.' path.toList segment.toList
    rwa [alone] at appended

@[simp]
theorem labelAt_nil (tree : SplitTree String SplitLabel) : labelAt [] tree = labelOf tree := rfl

theorem labelAt_cons (segment : List Char) (rest : SegmentPath) (label : SplitLabel)
    (first second : SplitTree String SplitLabel) :
    labelAt (segment :: rest) (.split label first second) =
      if segment = "first".toList then labelAt rest first
      else if segment = "second".toList then labelAt rest second
      else none := by
  unfold labelAt
  rw [nodeAt]
  split
  · rfl
  · split
    · rfl
    · rfl

/-! ## Trees of one shape -/

theorem sameIgnoringRatios_refl (tree : SplitTree String SplitLabel) :
    sameIgnoringRatios tree tree = true := by
  induction tree with
  | leaf id => simp [sameIgnoringRatios]
  | split label first second firstIH secondIH => simp [sameIgnoringRatios, firstIH, secondIH]

theorem sameIgnoringRatios_trans {first second third : SplitTree String SplitLabel}
    (left : sameIgnoringRatios first second = true)
    (right : sameIgnoringRatios second third = true) : sameIgnoringRatios first third = true := by
  induction first generalizing second third with
  | leaf id =>
    cases second with
    | split => simp [sameIgnoringRatios] at left
    | leaf other =>
      obtain rfl : id = other := by simpa [sameIgnoringRatios] using left
      exact right
  | split label inner outer innerIH outerIH =>
    cases second with
    | leaf => simp [sameIgnoringRatios] at left
    | split label' inner' outer' =>
      cases third with
      | leaf => simp [sameIgnoringRatios] at right
      | split label'' inner'' outer'' =>
        simp only [sameIgnoringRatios, Bool.and_eq_true, decide_eq_true_eq] at left right ⊢
        exact ⟨⟨left.1.1.trans right.1.1, innerIH left.1.2 right.1.2⟩,
          outerIH left.2 right.2⟩

theorem sameIgnoringRatios_symm (same : sameIgnoringRatios tree next = true) :
    sameIgnoringRatios next tree = true := by
  induction tree generalizing next with
  | leaf id =>
    cases next with
    | split => simp [sameIgnoringRatios] at same
    | leaf other => simpa [sameIgnoringRatios, eq_comm] using same
  | split label first second firstIH secondIH =>
    cases next with
    | leaf => simp [sameIgnoringRatios] at same
    | split label' first' second' =>
      simp only [sameIgnoringRatios, Bool.and_eq_true, decide_eq_true_eq] at same ⊢
      exact ⟨⟨same.1.1.symm, firstIH same.1.2⟩, secondIH same.2⟩

theorem leading_eq_of_sameIgnoringRatios (same : sameIgnoringRatios tree next = true) :
    next.leading = tree.leading := by
  induction tree generalizing next with
  | leaf id =>
    cases next with
    | split => simp [sameIgnoringRatios] at same
    | leaf other => simpa [sameIgnoringRatios, leading, eq_comm] using same
  | split label first second firstIH _ =>
    cases next with
    | leaf => simp [sameIgnoringRatios] at same
    | split label' first' second' =>
      simp only [sameIgnoringRatios, Bool.and_eq_true] at same
      have first_leading := firstIH same.1.2
      simpa only [leading] using first_leading

theorem nodeMeant_eq_of_sameIgnoringRatios (same : sameIgnoringRatios tree next = true) :
    nodeMeant intent next = nodeMeant intent tree := by
  cases tree with
  | leaf id =>
    cases next with
    | split => simp [sameIgnoringRatios] at same
    | leaf other => rfl
  | split label first second =>
    cases next with
    | leaf => simp [sameIgnoringRatios] at same
    | split label' first' second' =>
      simp only [sameIgnoringRatios, Bool.and_eq_true, decide_eq_true_eq] at same
      simp only [nodeMeant, isSplitMeant, same.1.1, leading_eq_of_sameIgnoringRatios same.1.2,
        leading_eq_of_sameIgnoringRatios same.2]

theorem nodeAt_same (same : sameIgnoringRatios tree next = true) (segments : SegmentPath) :
    Option.Rel (fun left right => sameIgnoringRatios left right = true) (nodeAt segments tree)
      (nodeAt segments next) := by
  induction tree generalizing next segments with
  | leaf id =>
    cases next with
    | split => simp [sameIgnoringRatios] at same
    | leaf other =>
      cases segments with
      | nil => exact .some same
      | cons => exact .none
  | split label first second firstIH secondIH =>
    cases next with
    | leaf => simp [sameIgnoringRatios] at same
    | split label' first' second' =>
      cases segments with
      | nil => exact .some same
      | cons segment rest =>
        simp only [sameIgnoringRatios, Bool.and_eq_true] at same
        simp only [nodeAt]
        split
        · exact firstIH same.1.2 rest
        · split
          · exact secondIH same.2 rest
          · exact .none

theorem meant_iff_of_sameIgnoringRatios (same : sameIgnoringRatios tree next = true) :
    Meant next intent ↔ Meant tree intent := by
  have reached := nodeAt_same same (segmentsOf intent.path)
  unfold Meant
  generalize nodeAt (segmentsOf intent.path) tree = left at reached
  generalize nodeAt (segmentsOf intent.path) next = right at reached
  cases reached with
  | none => exact Iff.rfl
  | some alike => rw [Option.any_some, Option.any_some, nodeMeant_eq_of_sameIgnoringRatios alike]

/-! ## Setting one ratio -/

theorem isSome_withRatio :
    (withRatio saved intent segments tree).isSome =
      (nodeAt segments tree).any (nodeMeant intent) := by
  induction tree generalizing segments with
  | leaf id => cases segments <;> rfl
  | split label first second firstIH secondIH =>
    cases segments with
    | nil =>
      by_cases meant : isSplitMeant label first second intent.split = true <;>
        simp [withRatio, nodeAt, nodeMeant, meant]
    | cons segment rest =>
      simp only [withRatio, nodeAt]
      split
      · rw [Option.isSome_map, firstIH]
      · split
        · rw [Option.isSome_map, secondIH]
        · rfl

theorem sameIgnoringRatios_withRatio (changed : withRatio saved intent segments tree = some next) :
    sameIgnoringRatios tree next = true := by
  induction tree generalizing segments next with
  | leaf id => cases segments <;> cases changed
  | split label first second firstIH secondIH =>
    cases segments with
    | nil =>
      simp only [withRatio, Option.ite_none_right_eq_some] at changed
      cases changed.2
      simp [sameIgnoringRatios, sameIgnoringRatios_refl]
    | cons segment rest =>
      unfold withRatio at changed
      split at changed
      · obtain ⟨inner, found, rfl⟩ := Option.map_eq_some_iff.mp changed
        simp [sameIgnoringRatios, sameIgnoringRatios_refl, firstIH found]
      · simp only [Option.ite_none_right_eq_some] at changed
        obtain ⟨inner, found, rfl⟩ := Option.map_eq_some_iff.mp changed.2
        simp [sameIgnoringRatios, sameIgnoringRatios_refl, secondIH found]

/-- The divider at the intent's path takes its ratio, and every other one stays. -/
theorem labelAt_withRatio (changed : withRatio saved intent segments tree = some next)
    (others : SegmentPath) :
    labelAt others next =
      if others = segments then
        (labelAt others tree).map fun label => ⟨label.direction, saved intent.ratio⟩
      else labelAt others tree := by
  induction tree generalizing segments others next with
  | leaf id => cases segments <;> cases changed
  | split label first second firstIH secondIH =>
    cases segments with
    | nil =>
      simp only [withRatio, Option.ite_none_right_eq_some] at changed
      cases changed.2
      cases others with
      | nil => rfl
      | cons segment rest => rfl
    | cons segment rest =>
      unfold withRatio at changed
      split at changed
      · next leads =>
        obtain ⟨inner, found, rfl⟩ := Option.map_eq_some_iff.mp changed
        cases others with
        | nil => rfl
        | cons other below =>
          simp only [labelAt_cons, firstIH found, List.cons.injEq]
          by_cases same : other = "first".toList
          · simp [same, leads]
          · simp only [leads, same, false_and, if_false]
      · next trails =>
        simp only [Option.ite_none_right_eq_some] at changed
        obtain ⟨is_second, changed⟩ := changed
        obtain ⟨inner, found, rfl⟩ := Option.map_eq_some_iff.mp changed
        cases others with
        | nil => rfl
        | cons other below =>
          simp only [labelAt_cons, secondIH found, List.cons.injEq]
          by_cases same : other = "second".toList
          · simp [same, is_second]
          · simp only [is_second, same, false_and, if_false]

/-! ## Setting ratios in order -/

section Ratios

variable {ratios : List SplitRatioIntent}

theorem withSplitRatios_cons :
    withSplitRatios saved tree (intent :: ratios) = some next ↔
      ∃ middle, withRatio saved intent (segmentsOf intent.path) tree = some middle ∧
        withSplitRatios saved middle ratios = some next := by
  simp only [withSplitRatios, List.foldlM_cons, Option.bind_eq_bind, Option.bind_eq_some_iff]

theorem isSome_withSplitRatios_iff :
    (withSplitRatios saved tree ratios).isSome ↔ ∀ intent ∈ ratios, Meant tree intent := by
  induction ratios generalizing tree with
  | nil => simp [withSplitRatios]
  | cons intent rest ih =>
    rw [List.forall_mem_cons]
    have reached : Meant tree intent ↔
        (withRatio saved intent (segmentsOf intent.path) tree).isSome := by
      rw [isSome_withRatio, Meant]
    rw [reached]
    cases first : withRatio saved intent (segmentsOf intent.path) tree with
    | none => simp [withSplitRatios, first]
    | some middle =>
      have continued : withSplitRatios saved tree (intent :: rest) =
          withSplitRatios saved middle rest := by
        simp [withSplitRatios, first]
      have same := sameIgnoringRatios_withRatio first
      rw [continued, ih]
      constructor
      · intro meant
        exact ⟨rfl, fun other member => (meant_iff_of_sameIgnoringRatios same).mp
          (meant other member)⟩
      · rintro ⟨_, meant⟩ other member
        exact (meant_iff_of_sameIgnoringRatios same).mpr (meant other member)

theorem sameIgnoringRatios_withSplitRatios
    (changed : withSplitRatios saved tree ratios = some next) :
    sameIgnoringRatios tree next = true := by
  induction ratios generalizing tree with
  | nil =>
    cases changed
    exact sameIgnoringRatios_refl _
  | cons intent rest ih =>
    obtain ⟨middle, first, later⟩ := withSplitRatios_cons.mp changed
    exact sameIgnoringRatios_trans (sameIgnoringRatios_withRatio first) (ih later)

theorem labelAt_withSplitRatios (changed : withSplitRatios saved tree ratios = some next)
    (segments : SegmentPath) :
    (labelAt segments next = labelAt segments tree ∧
      ∀ intent ∈ ratios, segmentsOf intent.path ≠ segments) ∨
    ∃ intent ∈ ratios, segmentsOf intent.path = segments ∧
      labelAt segments next =
        (labelAt segments tree).map fun label => ⟨label.direction, saved intent.ratio⟩ := by
  induction ratios generalizing tree with
  | nil =>
    cases changed
    exact .inl ⟨rfl, by simp⟩
  | cons intent rest ih =>
    obtain ⟨middle, first, later⟩ := withSplitRatios_cons.mp changed
    have set_first := labelAt_withRatio first segments
    rcases ih later with ⟨kept, missed⟩ | ⟨other, member, at_path, set_later⟩
    · rw [set_first] at kept
      split at kept
      · next here => exact .inr ⟨intent, List.mem_cons_self, here.symm, kept⟩
      · next elsewhere =>
        exact .inl ⟨kept, List.forall_mem_cons.mpr ⟨Ne.symm elsewhere, missed⟩⟩
    · refine .inr ⟨other, List.mem_cons_of_mem _ member, at_path, ?_⟩
      rw [set_later, set_first]
      split
      · rw [Option.map_map]
        rfl
      · rfl

end Ratios

/-! ## The ratios that differ -/

section Changed

variable {before after : SplitTree String SplitLabel}

theorem segmentsOf_first (path : String) :
    segmentsOf (childPath path "first") = segmentsOf path ++ ["first".toList] :=
  segmentsOf_childPath path (by decide) (by decide)

theorem segmentsOf_second (path : String) :
    segmentsOf (childPath path "second") = segmentsOf path ++ ["second".toList] :=
  segmentsOf_childPath path (by decide) (by decide)

theorem mem_changedSplitRatios (same : sameIgnoringRatios before after = true) (path : String)
    (changed : intent ∈ changedSplitRatios before after path) :
    ∃ segments, segmentsOf intent.path = segmentsOf path ++ segments ∧
      (nodeAt segments before).any (nodeMeant intent) = true ∧
      (labelAt segments after).map effectiveRatio = some intent.ratio := by
  induction before generalizing after path with
  | leaf id => simp [changedSplitRatios] at changed
  | split label first second firstIH secondIH =>
    cases after with
    | leaf => simp [sameIgnoringRatios] at same
    | split label' first' second' =>
      simp only [sameIgnoringRatios, Bool.and_eq_true, decide_eq_true_eq] at same
      rw [changedSplitRatios, List.mem_append, List.mem_append] at changed
      rcases changed with (here | below) | below
      · split at here
        · obtain rfl := List.mem_singleton.mp here
          refine ⟨[], by simp, ?_, rfl⟩
          simp [nodeAt, nodeMeant, isSplitMeant, identityOf, same.1.1,
            leading_eq_of_sameIgnoringRatios same.1.2, leading_eq_of_sameIgnoringRatios same.2]
        · cases here
      · obtain ⟨segments, at_path, meant, ratio⟩ := firstIH same.1.2 _ below
        refine ⟨"first".toList :: segments, ?_, ?_, ?_⟩
        · rw [at_path, segmentsOf_first, List.append_assoc, List.singleton_append]
        · simpa [nodeAt] using meant
        · simpa [labelAt_cons] using ratio
      · obtain ⟨segments, at_path, meant, ratio⟩ := secondIH same.2 _ below
        refine ⟨"second".toList :: segments, ?_, ?_, ?_⟩
        · rw [at_path, segmentsOf_second, List.append_assoc, List.singleton_append]
        · simpa [nodeAt] using meant
        · simpa [labelAt_cons] using ratio

/-- Where the effective ratios differ, a changed ratio says so. -/
theorem exists_changedSplitRatios (same : sameIgnoringRatios before after = true) (path : String)
    (segments : SegmentPath)
    (differ : (labelAt segments before).map effectiveRatio ≠
      (labelAt segments after).map effectiveRatio) :
    ∃ intent ∈ changedSplitRatios before after path,
      segmentsOf intent.path = segmentsOf path ++ segments := by
  induction before generalizing after path segments with
  | leaf id =>
    cases after with
    | split => simp [sameIgnoringRatios] at same
    | leaf => exact absurd (by cases segments <;> rfl) differ
  | split label first second firstIH secondIH =>
    cases after with
    | leaf => simp [sameIgnoringRatios] at same
    | split label' first' second' =>
      simp only [sameIgnoringRatios, Bool.and_eq_true] at same
      rw [changedSplitRatios]
      cases segments with
      | nil =>
        have ratios : effectiveRatio label ≠ effectiveRatio label' := by
          simpa [labelOf] using differ
        rw [if_pos ratios]
        refine ⟨⟨path, effectiveRatio label', some (identityOf label' first' second')⟩, ?_,
          (List.append_nil _).symm⟩
        simp
      | cons segment rest =>
        rw [labelAt_cons, labelAt_cons] at differ
        by_cases leads : segment = "first".toList
        · rw [if_pos leads, if_pos leads] at differ
          obtain ⟨intent, member, at_path⟩ :=
            firstIH same.1.2 (childPath path "first") rest differ
          refine ⟨intent, by simp [member], ?_⟩
          rw [at_path, segmentsOf_first, leads, List.append_assoc, List.singleton_append]
        · rw [if_neg leads, if_neg leads] at differ
          by_cases trails : segment = "second".toList
          · rw [if_pos trails, if_pos trails] at differ
            obtain ⟨intent, member, at_path⟩ :=
              secondIH same.2 (childPath path "second") rest differ
            refine ⟨intent, by simp [member], ?_⟩
            rw [at_path, segmentsOf_second, trails, List.append_assoc,
              List.singleton_append]
          · rw [if_neg trails, if_neg trails] at differ
            exact absurd rfl differ

theorem labelAt_isSome_of_same (same : sameIgnoringRatios before after = true)
    (segments : SegmentPath) :
    (labelAt segments before).isSome = (labelAt segments after).isSome := by
  have reached := nodeAt_same same segments
  unfold labelAt
  generalize nodeAt segments before = left at reached
  generalize nodeAt segments after = right at reached
  cases reached with
  | none => rfl
  | @some left right alike =>
    cases left <;> cases right <;> simp [sameIgnoringRatios, labelOf] at alike ⊢

theorem withGroupSplitRatios_changed (same : sameGroupsIgnoringRatios before after = true) :
    ∃ result, withGroupSplitRatios before (changedSplitRatios before after "") = some result ∧
      sameGroupsIgnoringRatios result after = true ∧
      ∀ segments, (labelAt segments result).map effectiveRatio =
        (labelAt segments after).map effectiveRatio := by
  have all : ∀ intent ∈ changedSplitRatios before after "", Meant before intent := by
    intro intent member
    obtain ⟨segments, at_path, meant, _⟩ := mem_changedSplitRatios same "" member
    rw [Meant, at_path]
    exact meant
  have present : (withSplitRatios some before (changedSplitRatios before after "")).isSome :=
    isSome_withSplitRatios_iff.mpr all
  obtain ⟨result, changed⟩ := Option.isSome_iff_exists.mp present
  have shape := sameIgnoringRatios_withSplitRatios changed
  refine ⟨result, changed, sameIgnoringRatios_trans (sameIgnoringRatios_symm shape) same, ?_⟩
  intro segments
  rcases labelAt_withSplitRatios changed segments with ⟨kept, missed⟩ | ⟨intent, member, here, set⟩
  · rw [kept]
    by_contra differ
    obtain ⟨intent, member, at_path⟩ := exists_changedSplitRatios same "" segments differ
    exact missed intent member at_path
  · obtain ⟨reached, at_path, _, ratio⟩ := mem_changedSplitRatios same "" member
    obtain rfl : reached = segments := at_path.symm.trans here
    have held : (labelAt reached before).isSome := by
      rw [labelAt_isSome_of_same same, ← Option.isSome_map (f := effectiveRatio), ratio]
      rfl
    obtain ⟨label, at_label⟩ := Option.isSome_iff_exists.mp held
    rw [set, ratio, at_label]
    rfl

/-- Changed ratios set the other tree's ratios; any intents set no more than they mean. -/
theorem groupSplitRatios_carry_difference :
    (∀ before after : TabGroupLayoutNode, sameGroupsIgnoringRatios before after = true →
      ∃ result, withGroupSplitRatios before (changedSplitRatios before after "") = some result ∧
        sameGroupsIgnoringRatios result after = true ∧
        ∀ segments, (labelAt segments result).map effectiveRatio =
          (labelAt segments after).map effectiveRatio) ∧
    (∀ (root : TabGroupLayoutNode) (ratios : List SplitRatioIntent) (result : TabGroupLayoutNode),
      withGroupSplitRatios root ratios = some result →
        sameGroupsIgnoringRatios root result = true ∧
        ∀ segments, labelAt segments result ≠ labelAt segments root →
          ∃ intent ∈ ratios, segmentsOf intent.path = segments ∧ Meant root intent ∧
            (labelAt segments result).map effectiveRatio = some intent.ratio) ∧
    ∀ (root : TabGroupLayoutNode) (ratios : List SplitRatioIntent),
      withGroupSplitRatios root ratios = none ↔ ∃ intent ∈ ratios, ¬Meant root intent := by
  refine ⟨fun before after => withGroupSplitRatios_changed, ?_, ?_⟩
  · intro root ratios result changed
    refine ⟨sameIgnoringRatios_withSplitRatios changed, ?_⟩
    intro segments differ
    have meant := isSome_withSplitRatios_iff.mp (Option.isSome_of_eq_some changed)
    rcases labelAt_withSplitRatios changed segments with ⟨kept, _⟩ | ⟨intent, member, here, set⟩
    · exact absurd kept differ
    · refine ⟨intent, member, here, meant intent member, ?_⟩
      have changed_label : labelAt segments root ≠ none := by
        intro missing
        rw [set, missing] at differ
        exact differ rfl
      obtain ⟨label, at_label⟩ := Option.ne_none_iff_exists'.mp changed_label
      rw [set, at_label]
      rfl
  · intro root ratios
    have reached : (withGroupSplitRatios root ratios).isSome ↔
        ∀ intent ∈ ratios, Meant root intent := isSome_withSplitRatios_iff
    rw [← Option.not_isSome_iff_eq_none, reached]
    simp only [not_forall, exists_prop]

/-- Two nested splits share their leading group; the path tells them apart. -/
theorem dragged_inner_divider_carries :
    ∃ result,
      withGroupSplitRatios
        (.split ⟨.horizontal, none⟩ (.split ⟨.vertical, none⟩ (.leaf "a") (.leaf "b")) (.leaf "c"))
        (changedSplitRatios
          (.split ⟨.horizontal, none⟩ (.split ⟨.vertical, none⟩ (.leaf "a") (.leaf "b"))
            (.leaf "c"))
          (.split ⟨.horizontal, some (1 / 2)⟩
            (.split ⟨.vertical, some (3 / 10)⟩ (.leaf "a") (.leaf "b")) (.leaf "c")) "") =
        some result ∧
      (labelAt ["first".toList] result).map effectiveRatio = some (3 / 10) := by
  obtain ⟨result, changed, _, ratios⟩ := groupSplitRatios_carry_difference.1
    (.split ⟨.horizontal, none⟩ (.split ⟨.vertical, none⟩ (.leaf "a") (.leaf "b")) (.leaf "c"))
    (.split ⟨.horizontal, some (1 / 2)⟩
      (.split ⟨.vertical, some (3 / 10)⟩ (.leaf "a") (.leaf "b")) (.leaf "c")) (by decide)
  exact ⟨result, changed, (ratios ["first".toList]).trans rfl⟩

end Changed

end OxeeUI.Layout
