import Mathlib.Data.List.Nodup
import Mathlib.Data.List.Perm.Basic

/-!
# Split trees

Binary trees that divide an area between the ids at their leaves.  What an operation
does to a tree is said by what it does to the list of its leaves, in order.
-/

namespace OxeeUI.Library

universe u v

inductive SplitTree (Id : Type u) (Split : Type v) where
  | leaf (id : Id)
  | split (label : Split) (first second : SplitTree Id Split)
deriving DecidableEq

namespace SplitTree

variable {Id : Type u} {Split : Type v}

def leaves : SplitTree Id Split → List Id
  | .leaf id => [id]
  | .split _ first second => first.leaves ++ second.leaves

def leavesOf : Option (SplitTree Id Split) → List Id
  | none => []
  | some tree => tree.leaves

@[simp] theorem leaves_leaf (id : Id) : (leaf id : SplitTree Id Split).leaves = [id] := rfl

@[simp]
theorem leaves_split (label : Split) (first second : SplitTree Id Split) :
    (split label first second).leaves = first.leaves ++ second.leaves := rfl

@[simp] theorem leavesOf_none : leavesOf (none : Option (SplitTree Id Split)) = [] := rfl

@[simp]
theorem leavesOf_some (tree : SplitTree Id Split) : leavesOf (some tree) = tree.leaves := rfl

theorem leaves_ne_nil (tree : SplitTree Id Split) : tree.leaves ≠ [] := by
  induction tree with
  | leaf id => simp
  | split label first second firstIH secondIH => simp [firstIH]

theorem leavesOf_eq_nil_iff {tree : Option (SplitTree Id Split)} :
    leavesOf tree = [] ↔ tree = none := by
  cases tree with
  | none => simp
  | some tree => simp [leaves_ne_nil]

def leading : SplitTree Id Split → Id
  | .leaf id => id
  | .split _ first _ => first.leading

/-- What is left when only some ids stay; a side that is left alone takes the whole area. -/
def keep (test : Id → Bool) : SplitTree Id Split → Option (SplitTree Id Split)
  | .leaf id => if test id then some (.leaf id) else none
  | .split label first second =>
    match first.keep test, second.keep test with
    | some first, some second => some (.split label first second)
    | some first, none => some first
    | none, second => second

theorem keep_split (test : Id → Bool) (label : Split) (first second : SplitTree Id Split) :
    (split label first second).keep test =
      match first.keep test, second.keep test with
      | some first, some second => some (.split label first second)
      | some first, none => some first
      | none, second => second := rfl

theorem leavesOf_keep (test : Id → Bool) (tree : SplitTree Id Split) :
    leavesOf (tree.keep test) = tree.leaves.filter test := by
  induction tree with
  | leaf id => by_cases kept : test id = true <;> simp [keep, kept]
  | split label first second firstIH secondIH =>
    rw [leaves_split, List.filter_append, ← firstIH, ← secondIH, keep_split]
    cases first.keep test with
    | none => simp
    | some first => cases second.keep test <;> simp

section Decidable

variable [DecidableEq Id]

def holds (tree : SplitTree Id Split) (id : Id) : Bool :=
  match tree with
  | .leaf other => other = id
  | .split _ first second => first.holds id || second.holds id

theorem holds_iff {tree : SplitTree Id Split} {id : Id} :
    tree.holds id = true ↔ id ∈ tree.leaves := by
  induction tree with
  | leaf other => simp [holds, eq_comm]
  | split label first second firstIH secondIH => simp [holds, firstIH, secondIH]

theorem filter_ne_eq_erase {ids : List Id} {id : Id} (distinct : ids.Nodup) :
    ids.filter (· ≠ id) = ids.erase id := by
  rw [distinct.erase_eq_filter]
  exact List.filter_congr fun other _ => by by_cases same : other = id <;> simp [same]

/-- Put a tree in the place of every leaf with an id. -/
def substitute (target : Id) (replacement : SplitTree Id Split) (tree : SplitTree Id Split) :
    SplitTree Id Split :=
  match tree with
  | .leaf id => if id = target then replacement else .leaf id
  | .split label first second =>
    .split label (substitute target replacement first) (substitute target replacement second)

variable {target id : Id} {replacement tree : SplitTree Id Split}

theorem leaves_substitute :
    (substitute target replacement tree).leaves =
      tree.leaves.flatMap fun id => if id = target then replacement.leaves else [id] := by
  induction tree with
  | leaf id => by_cases same : id = target <;> simp [substitute, same]
  | split label first second firstIH secondIH => simp [substitute, firstIH, secondIH]

theorem leaves_substitute_perm (distinct : tree.leaves.Nodup) (member : target ∈ tree.leaves) :
    (substitute target replacement tree).leaves.Perm
      (replacement.leaves ++ tree.leaves.erase target) := by
  have traded : tree.leaves.Perm (target :: tree.leaves.erase target) :=
    List.perm_cons_erase member
  rw [leaves_substitute]
  refine (traded.flatMap_right _).trans ?_
  rw [List.flatMap_cons, if_pos rfl]
  refine List.Perm.append_left _ (List.Perm.of_eq ?_)
  have others : ∀ id ∈ tree.leaves.erase target, id ≠ target := fun id inside =>
    (distinct.mem_erase_iff.mp inside).1
  generalize tree.leaves.erase target = rest at others
  induction rest with
  | nil => rfl
  | cons id rest ih =>
    rw [List.flatMap_cons, if_neg (others id List.mem_cons_self), List.singleton_append,
      ih fun other inside => others other (List.mem_cons_of_mem _ inside)]

/-- Whether a tree is nothing but the leaf of an id. -/
def isLeafOf (target : Id) : SplitTree Id Split → Bool
  | .leaf id => id = target
  | .split .. => false

theorem isLeafOf_iff : tree.isLeafOf target = true ↔ tree = .leaf target := by
  cases tree <;> simp [isLeafOf]

/-- Take one leaf out: a side that is exactly that leaf leaves the area to the other side. -/
def removeLeaf (target : Id) : SplitTree Id Split → Option (SplitTree Id Split)
  | .leaf id => if id = target then none else some (.leaf id)
  | .split label first second =>
    if first.isLeafOf target then some second
    else if second.isLeafOf target then some first
    else
      match first.removeLeaf target, second.removeLeaf target with
      | none, second => second
      | some first, none => some first
      | some first, some second => some (.split label first second)

variable (target) in
/-- Where the ids are distinct, nothing else goes. -/
theorem leavesOf_removeLeaf (distinct : tree.leaves.Nodup) :
    leavesOf (tree.removeLeaf target) = tree.leaves.filter (· ≠ target) := by
  induction tree with
  | leaf id => by_cases same : id = target <;> simp [removeLeaf, same]
  | split label first second firstIH secondIH =>
    rw [leaves_split] at distinct ⊢
    have apart := List.nodup_append.mp distinct
    rw [List.filter_append]
    have unaffected : ∀ {other : SplitTree Id Split}, target ∉ other.leaves →
        other.leaves.filter (· ≠ target) = other.leaves := by
      intro other absent
      refine List.filter_eq_self.mpr fun id member => ?_
      exact decide_eq_true fun same => absent (same ▸ member)
    unfold removeLeaf
    split
    case isTrue alone =>
      rw [isLeafOf_iff] at alone
      subst alone
      have absent : target ∉ second.leaves := fun inside =>
        apart.2.2 target (by simp) target inside rfl
      rw [unaffected absent]
      simp
    case isFalse =>
      split
      case isTrue alone =>
        rw [isLeafOf_iff] at alone
        subst alone
        have absent : target ∉ first.leaves := fun inside =>
          apart.2.2 target inside target (by simp) rfl
        rw [unaffected absent]
        simp
      case isFalse =>
        rw [← firstIH apart.1, ← secondIH apart.2.1]
        cases first.removeLeaf target with
        | none => simp
        | some first => cases second.removeLeaf target <;> simp

end Decidable

end SplitTree

end OxeeUI.Library
