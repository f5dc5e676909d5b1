import OxeeUI.Library.JsMap
import OxeeUI.Library.Chains

/-!
# Cycles of a parent map

Each walk follows the parents from one child until it leaves the map, meets what an earlier
walk processed, or meets its own path; only the part of the path behind that meeting lies
on a cycle.
-/

namespace OxeeUI.Lineage

open Library Relation

variable {Key : Type*} [DecidableEq Key]

/-- The path of a walk and what of it lies on a cycle, in as many rounds as may be left.
The index of a key on the path is the one it was set with. -/
def walkParents (parentByChild : JsMap Key Key) (processed : List Key) :
    ℕ → List Key → Option Key → List Key × List Key
  | rounds + 1, path, some currentId =>
    if parentByChild.has currentId && !processed.contains currentId then
      match path.idxOf? currentId with
      | some cycleStart => (path, path.drop cycleStart)
      | none =>
        walkParents parentByChild processed rounds (path ++ [currentId])
          (parentByChild.get? currentId)
    else (path, [])
  | _, path, _ => (path, [])

/-- The keys processed and those on cycles, after the walk from one more child. -/
def walkFrom (parentByChild : JsMap Key Key) (found : List Key × List Key) (childId : Key) :
    List Key × List Key :=
  if found.1.contains childId then found
  else
    let walked := walkParents parentByChild found.1 (parentByChild.size + 1) [] (some childId)
    (found.1 ++ walked.1, found.2 ++ walked.2)

def getCyclicLineageChildKeys (parentByChild : JsMap Key Key) : List Key :=
  (parentByChild.keys.foldl (walkFrom parentByChild) ([], [])).2

/-! ## Walks -/

def Parent (parentByChild : JsMap Key Key) (child parent : Key) : Prop :=
  parentByChild.get? child = some parent

variable {parentByChild : JsMap Key Key} {processed path : List Key} {current : Key}

theorem parent_functional (a b c : Key) (first : Parent parentByChild a b)
    (second : Parent parentByChild a c) : b = c :=
  Option.some.inj (first.symm.trans second)

/-- Each key of a path is followed by the next, and the last of them by the current key. -/
def Leads (parentByChild : JsMap Key Key) (path : List Key) (current : Key) : Prop :=
  ∀ front key back, path = front ++ key :: back →
    ∃ next, (back ++ [current]).head? = some next ∧ Parent parentByChild key next

theorem Leads.reaches (leads : Leads parentByChild path current) {front back : List Key} {key : Key}
    (split : path = front ++ key :: back) : TransGen (Parent parentByChild) key current := by
  induction back generalizing front key with
  | nil =>
    obtain ⟨next, first, step⟩ := leads front key [] split
    cases first
    exact .single step
  | cons second back ih =>
    obtain ⟨next, first, step⟩ := leads front key (second :: back) split
    cases first
    have rest := @ih (front ++ [key]) second (by rw [split, List.append_assoc]; rfl)
    exact .head step rest

theorem Leads.forward (leads : Leads parentByChild path current) {front middle back : List Key}
    {first last : Key} (split : path = front ++ (first :: middle) ++ last :: back) :
    TransGen (Parent parentByChild) first last := by
  induction middle generalizing front first with
  | nil =>
    obtain ⟨next, isNext, step⟩ := leads front first (last :: back) (by rw [split]; simp)
    cases isNext
    exact .single step
  | cons second middle ih =>
    obtain ⟨next, isNext, step⟩ := leads front first (second :: middle ++ last :: back)
      (by rw [split]; simp)
    cases isNext
    exact .head step (@ih (front ++ [first]) second (by rw [split]; simp))

theorem Leads.extend (leads : Leads parentByChild path current) {next : Key}
    (step : Parent parentByChild current next) :
    Leads parentByChild (path ++ [current]) next := by
  intro front key back split
  rcases List.eq_nil_or_concat back with rfl | ⟨back, last, rfl⟩
  · obtain ⟨-, same⟩ := List.append_inj' split rfl
    cases same
    exact ⟨next, rfl, step⟩
  · rw [List.concat_eq_append] at split ⊢
    have shape : path ++ [current] = (front ++ key :: back) ++ [last] := by
      rw [split]
      simp
    obtain ⟨before, same⟩ := List.append_inj' shape rfl
    cases same
    obtain ⟨later, isLater, step'⟩ := leads front key back before
    refine ⟨later, ?_, step'⟩
    rw [List.head?_append, isLater]
    rfl

/-- What is not left again: the keys processed, and those that are no children. -/
def Behind (parentByChild : JsMap Key Key) (processed : List Key) (key : Key) : Prop :=
  key ∈ processed ∨ parentByChild.has key = false

/-- The keys processed so far, and those of them on cycles. -/
structure Processed (parentByChild : JsMap Key Key) (processed cyclic : List Key) : Prop where
  closed : ∀ child parent, child ∈ processed → Parent parentByChild child parent →
    Behind parentByChild processed parent
  within : ∀ key ∈ cyclic, key ∈ processed
  cyclic : ∀ key ∈ processed, key ∈ cyclic ↔ TransGen (Parent parentByChild) key key

theorem Processed.behind_closed {cyclic : List Key} (found : Processed parentByChild processed cyclic)
    (child parent : Key) (behind : Behind parentByChild processed child)
    (step : Parent parentByChild child parent) : Behind parentByChild processed parent := by
  rcases behind with member | absent
  · exact found.closed child parent member step
  · have isNone : parentByChild.get? child = none := by
      rw [JsMap.has] at absent
      exact Option.not_isSome_iff_eq_none.mp (by rw [absent]; exact Bool.false_ne_true)
    rw [Parent, isNone] at step
    cases step

structure Walking (parentByChild : JsMap Key Key) (processed path : List Key) (current : Key) :
    Prop where
  distinct : path.Nodup
  children : ∀ key ∈ path, parentByChild.has key = true
  fresh : ∀ key ∈ path, key ∉ processed
  leads : Leads parentByChild path current

structure Walked (parentByChild : JsMap Key Key) (processed path : List Key) (start : Option Key)
    (walked : List Key × List Key) : Prop where
  extends' : path <+: walked.1
  reached : ∀ key ∈ start, parentByChild.has key = true → key ∉ processed → key ∈ walked.1
  closed : ∀ child parent, child ∈ walked.1 → Parent parentByChild child parent →
    Behind parentByChild (processed ++ walked.1) parent
  within : ∀ key ∈ walked.2, key ∈ walked.1
  cyclic : ∀ key ∈ walked.1, key ∈ walked.2 ↔ TransGen (Parent parentByChild) key key

theorem Walking.length_le (walking : Walking parentByChild processed path current) :
    path.length ≤ parentByChild.size := by
  have contained : path ⊆ parentByChild.keys := fun key member =>
    JsMap.has_iff_mem_keys.mp (walking.children key member)
  have bound := (walking.distinct.subperm contained).length_le
  rwa [JsMap.keys, List.length_map] at bound

theorem Leads.next (leads : Leads parentByChild path current) {child parent : Key}
    (member : child ∈ path) (step : Parent parentByChild child parent) :
    parent ∈ path ∨ parent = current := by
  obtain ⟨front, back, split⟩ := List.append_of_mem member
  obtain ⟨next, isNext, step'⟩ := leads front child back split
  have same := parent_functional child parent next step step'
  cases back with
  | nil =>
    cases isNext
    exact .inr same
  | cons second back =>
    cases isNext
    refine .inl ?_
    rw [same, split]
    simp

theorem Walking.stops {cyclic : List Key} (walking : Walking parentByChild processed path current)
    (found : Processed parentByChild processed cyclic)
    (behind : Behind parentByChild processed current) :
    Walked parentByChild processed path (some current) (path, []) := by
  refine ⟨List.prefix_rfl, ?_, ?_, fun _ none => absurd none List.not_mem_nil, ?_⟩
  · rintro key ⟨⟩ child unprocessed
    rcases behind with member | absent
    · exact absurd member unprocessed
    · rw [absent] at child
      cases child
  · intro child parent member step
    rcases walking.leads.next member step with onPath | rfl
    · exact .inl (List.mem_append_right _ onPath)
    · exact behind.imp_left (List.mem_append_left _)
  · intro key member
    refine ⟨fun none => absurd none List.not_mem_nil, fun cycle => ?_⟩
    obtain ⟨front, back, split⟩ := List.append_of_mem member
    have back' := returns_of_reaches parent_functional cycle (walking.leads.reaches split).to_reflTransGen
    rcases reaches_closed found.behind_closed behind back' with processed' | absent
    · exact absurd processed' (walking.fresh key member)
    · rw [walking.children key member] at absent
      cases absent

/-- A walk that meets its own path has found the cycle behind that place. -/
theorem Walking.closes {front back : List Key} (walking : Walking parentByChild processed path current)
    (split : path = front ++ current :: back) :
    Walked parentByChild processed path (some current) (path, current :: back) := by
  have onPath : current ∈ path := split ▸ List.mem_append_right _ List.mem_cons_self
  have cycle : ∀ key ∈ current :: back, TransGen (Parent parentByChild) key key := by
    intro key member
    have toCurrent : TransGen (Parent parentByChild) key current := by
      obtain ⟨early, late, isBack⟩ := List.append_of_mem member
      exact @Leads.reaches _ _ _ _ _ walking.leads (front ++ early) late key
        (by rw [split, isBack, List.append_assoc])
    rcases List.mem_cons.mp member with rfl | later
    · exact toCurrent
    · obtain ⟨middle, late, rfl⟩ := List.append_of_mem later
      have fromCurrent := @Leads.forward _ _ _ _ _ walking.leads front middle late current key
        (by rw [split]; simp)
      exact toCurrent.trans fromCurrent
  refine ⟨List.prefix_rfl, ?_, ?_, ?_, ?_⟩
  · rintro key ⟨⟩ - -
    exact onPath
  · intro child parent member step
    refine .inl (List.mem_append_right _ ?_)
    rcases walking.leads.next member step with inside | rfl
    · exact inside
    · exact onPath
  · intro key member
    rw [split]
    exact List.mem_append_right _ member
  · intro key member
    refine ⟨cycle key, fun onCycle => ?_⟩
    obtain ⟨early, late, isPath⟩ := List.append_of_mem member
    have back' := returns_of_reaches parent_functional onCycle
      (walking.leads.reaches isPath).to_reflTransGen
    -- The cycle of the current key does not leave the path behind it.
    refine @reaches_closed Key (Parent parentByChild) current key (· ∈ current :: back) ?_
      List.mem_cons_self back'
    intro child parent inside step
    obtain ⟨early', late', isBack⟩ := List.append_of_mem inside
    obtain ⟨next, isNext, step'⟩ := walking.leads (front ++ early') child late'
      (by rw [split, isBack, List.append_assoc])
    rw [parent_functional child parent next step step']
    cases late' with
    | nil =>
      cases isNext
      exact List.mem_cons_self
    | cons second late' =>
      cases isNext
      rw [isBack]
      simp

/-- Every walk finds what of its path lies on a cycle. -/
theorem walkParents_spec {cyclic : List Key} (found : Processed parentByChild processed cyclic)
    (rounds : ℕ) (walking : Walking parentByChild processed path current)
    (enough : parentByChild.size < rounds + path.length) :
    Walked parentByChild processed path (some current)
      (walkParents parentByChild processed rounds path (some current)) := by
  induction rounds generalizing path current with
  | zero => exact absurd walking.length_le (by omega)
  | succ rounds ih =>
    rw [walkParents]
    split
    · next goes =>
      rw [Bool.and_eq_true] at goes
      obtain ⟨child, unprocessed⟩ := goes
      have unprocessed' : current ∉ processed := by
        intro member
        rw [List.contains_iff_mem.mpr member] at unprocessed
        cases unprocessed
      cases place : path.idxOf? current with
      | some cycleStart =>
        obtain ⟨inside, isCurrent, -⟩ := List.idxOf?_eq_some_iff.mp place
        have split : path = path.take cycleStart ++ current :: path.drop (cycleStart + 1) := by
          rw [← isCurrent, List.getElem_cons_drop, List.take_append_drop]
        have cycle : path.drop cycleStart = current :: path.drop (cycleStart + 1) := by
          rw [← isCurrent, List.getElem_cons_drop]
        dsimp only
        rw [cycle]
        exact walking.closes split
      | none =>
        have absent := List.idxOf?_eq_none_iff.mp place
        obtain ⟨next, step⟩ := Option.isSome_iff_exists.mp child
        have walking' : Walking parentByChild processed (path ++ [current]) next := by
          refine ⟨?_, ?_, ?_, walking.leads.extend step⟩
          · exact List.nodup_append.mpr ⟨walking.distinct, List.nodup_singleton _, fun key member
              other isOther same => absent (List.mem_singleton.mp isOther ▸ same ▸ member)⟩
          · simpa [or_imp, forall_and] using ⟨walking.children, child⟩
          · simpa [or_imp, forall_and] using ⟨walking.fresh, unprocessed'⟩
        have walked := ih walking' (by rw [List.length_append, List.length_singleton]; omega)
        dsimp only
        rw [step]
        have onPath : current ∈ path ++ [current] := List.mem_append_right _ List.mem_cons_self
        refine ⟨(List.prefix_append _ _).trans walked.extends', ?_, walked.closed, walked.within,
          walked.cyclic⟩
        rintro key ⟨⟩ - -
        exact walked.extends'.subset onPath
    · next stays =>
      apply walking.stops found
      rw [Bool.and_eq_true, not_and_or] at stays
      rcases stays with absent | present
      · exact .inr (Bool.eq_false_iff.mpr absent)
      · refine .inl (List.contains_iff_mem.mp ?_)
        simpa using present

/-! ## All walks -/

theorem walkFrom_spec {found : List Key × List Key} (processed : Processed parentByChild found.1 found.2)
    {childId : Key} (child : parentByChild.has childId = true) :
    Processed parentByChild (walkFrom parentByChild found childId).1
        (walkFrom parentByChild found childId).2 ∧
      childId ∈ (walkFrom parentByChild found childId).1 ∧
      found.1 ⊆ (walkFrom parentByChild found childId).1 := by
  unfold walkFrom
  split
  · next member => exact ⟨processed, List.contains_iff_mem.mp member, List.Subset.refl _⟩
  · next fresh =>
    have begun : Walking parentByChild found.1 [] childId :=
      ⟨List.nodup_nil, fun _ none => absurd none List.not_mem_nil,
        fun _ none => absurd none List.not_mem_nil, fun front key back split => by simp at split⟩
    have walked := walkParents_spec processed (parentByChild.size + 1) begun (by simp)
    have unprocessed : childId ∉ found.1 := fun member => fresh (List.contains_iff_mem.mpr member)
    refine ⟨⟨?_, ?_, ?_⟩, ?_, List.subset_append_left _ _⟩
    · intro child parent member step
      rcases List.mem_append.mp member with earlier | onPath
      · exact (processed.closed child parent earlier step).imp_left (List.mem_append_left _)
      · exact walked.closed child parent onPath step
    · intro key member
      rcases List.mem_append.mp member with earlier | onCycle
      · exact List.mem_append_left _ (processed.within key earlier)
      · exact List.mem_append_right _ (walked.within key onCycle)
    · intro key member
      constructor
      · intro onCycle
        rcases List.mem_append.mp onCycle with earlier | later
        · exact (processed.cyclic key (processed.within key earlier)).mp earlier
        · exact (walked.cyclic key (walked.within key later)).mp later
      · intro cycle
        rcases List.mem_append.mp member with earlier | onPath
        · exact List.mem_append_left _ ((processed.cyclic key earlier).mpr cycle)
        · exact List.mem_append_right _ ((walked.cyclic key onPath).mpr cycle)
    · exact List.mem_append_right _ (walked.reached childId rfl child unprocessed)

theorem foldl_walkFrom {keys : List Key} (children : ∀ key ∈ keys, parentByChild.has key = true)
    {found : List Key × List Key} (processed : Processed parentByChild found.1 found.2) :
    let last := keys.foldl (walkFrom parentByChild) found
    Processed parentByChild last.1 last.2 ∧ found.1 ⊆ last.1 ∧ keys ⊆ last.1 := by
  induction keys generalizing found with
  | nil => exact ⟨processed, List.Subset.refl _, List.nil_subset _⟩
  | cons key keys ih =>
    obtain ⟨child, later⟩ := List.forall_mem_cons.mp children
    obtain ⟨processed', member, kept⟩ := walkFrom_spec processed child
    obtain ⟨last, kept', all⟩ := ih later processed'
    exact ⟨last, List.Subset.trans kept kept', List.cons_subset.mpr ⟨kept' member, all⟩⟩

theorem mem_getCyclicLineageChildKeys (parentByChild : JsMap Key Key) (key : Key) :
    key ∈ getCyclicLineageChildKeys parentByChild ↔ TransGen (Parent parentByChild) key key := by
  have nothing : Processed parentByChild ([] : List Key) [] :=
    ⟨fun _ _ none => absurd none List.not_mem_nil, fun _ none => absurd none List.not_mem_nil,
      fun _ none => absurd none List.not_mem_nil⟩
  obtain ⟨processed, -, all⟩ := @foldl_walkFrom Key _ parentByChild parentByChild.keys
    (fun key member => JsMap.has_iff_mem_keys.mpr member) ([], []) nothing
  constructor
  · intro member
    exact (processed.cyclic key (processed.within key member)).mp member
  · intro cycle
    obtain ⟨next, step, -⟩ := TransGen.head'_iff.mp cycle
    exact (processed.cyclic key (all (JsMap.mem_keys_of_get? step))).mpr cycle

end OxeeUI.Lineage
