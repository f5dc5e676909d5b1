import Mathlib.Data.List.Chain
import Mathlib.Data.List.Nodup
import Mathlib.Data.List.Perm.Subperm
import Mathlib.Logic.Relation
import Mathlib.Data.List.Basic

/-!
# Chains of parents

Where every member has at most one parent, what is reached from a member on a cycle leads
back to it.  Without cycles chains repeat nothing.
-/

namespace OxeeUI.Library

open Relation

variable {Member : Type*} {Parent : Member → Member → Prop} {a b c : Member}

theorem returns_of_reaches (functional : ∀ a b c, Parent a b → Parent a c → b = c)
    (cycle : TransGen Parent a a) (reached : ReflTransGen Parent a b) : ReflTransGen Parent b a := by
  induction reached with
  | refl => exact .refl
  | tail before last ih =>
    rcases ReflTransGen.cases_head ih with same | ⟨next, first, rest⟩
    · rw [same] at last
      obtain ⟨next, first, rest⟩ := TransGen.head'_iff.mp cycle
      rw [functional _ _ _ last first]
      exact rest
    · rw [functional _ _ _ last first]
      exact rest

theorem reaches_closed {inside : Member → Prop} (closed : ∀ a b, inside a → Parent a b → inside b)
    (start : inside a) (reached : ReflTransGen Parent a b) : inside b := by
  induction reached with
  | refl => exact start
  | tail before last ih => exact closed _ _ ih last

theorem chain_nodup (acyclic : ∀ a, ¬TransGen Parent a a) {path : List Member}
    (chain : path.IsChain Parent) : path.Nodup := by
  have ordered : path.Pairwise (TransGen Parent) :=
    (chain.imp fun _ _ step => .single step).pairwise
  refine ordered.imp fun reached same => ?_
  rw [same] at reached
  exact acyclic _ reached

theorem chain_length_le {Parent : ℕ → ℕ → Prop} (acyclic : ∀ a, ¬TransGen Parent a a) {count : ℕ}
    (below : ∀ a b, Parent a b → b < count) {first : ℕ} (start : first < count) {path : List ℕ}
    (chain : (first :: path).IsChain Parent) :
    (first :: path).Nodup ∧ (first :: path).length ≤ count := by
  have distinct := chain_nodup acyclic chain
  have inside : ∀ member ∈ first :: path, member < count := by
    clear distinct
    induction path generalizing first with
    | nil => simpa using start
    | cons next path ih =>
      obtain ⟨step, rest⟩ := List.isChain_cons_cons.mp chain
      exact List.forall_mem_cons.mpr ⟨start, ih (below _ _ step) rest⟩
  refine ⟨distinct, ?_⟩
  have contained : first :: path ⊆ List.range count := fun member isMember =>
    List.mem_range.mpr (inside member isMember)
  simpa using (distinct.subperm contained).length_le

end OxeeUI.Library

/-!
## Linked chains

A list of cells is chained when every cell points to the one after it and the
last points nowhere.  A doubly linked list is a chain by its forward pointers
whose reversal is a chain by its backward pointers.
-/

namespace OxeeUI.Library

universe u

variable {Cell : Type u}

def Chained (next : Cell → Option Cell) : List Cell → Prop
  | [] => True
  | cell :: rest => next cell = rest.head? ∧ Chained next rest

namespace Chained

variable {next after : Cell → Option Cell} {cells front back : List Cell} {cell : Cell}

theorem congr (chained : Chained next cells) (same : ∀ cell ∈ cells, after cell = next cell) :
    Chained after cells := by
  induction cells with
  | nil => trivial
  | cons cell cells ih =>
    refine ⟨(same cell List.mem_cons_self).trans chained.1, ih chained.2 ?_⟩
    exact fun other member => same other (List.mem_cons_of_mem _ member)

theorem of_append (chained : Chained next (front ++ back)) : Chained next back := by
  induction front with
  | nil => exact chained
  | cons first front ih => exact ih chained.2

theorem next_eq (chained : Chained next (front ++ cell :: back)) : next cell = back.head? :=
  chained.of_append.1

theorem snoc (chained : Chained next cells) (tail : after cell = none)
    (linked : ∀ last, cells.getLast? = some last → after last = some cell)
    (others : ∀ other ∈ cells, cells.getLast? ≠ some other → after other = next other)
    (distinct : cells.Nodup) : Chained after (cells ++ [cell]) := by
  induction cells with
  | nil => exact ⟨tail, trivial⟩
  | cons first rest ih =>
    rw [List.nodup_cons] at distinct
    cases rest with
    | nil => exact ⟨linked first rfl, tail, trivial⟩
    | cons second rest =>
      have lasts : (first :: second :: rest).getLast? = (second :: rest).getLast? :=
        List.getLast?_cons_cons
      rw [lasts] at linked others
      refine ⟨?_, ih chained.2 linked ?_ distinct.2⟩
      · refine (others first List.mem_cons_self fun isLast => ?_).trans chained.1
        exact distinct.1 (List.mem_of_getLast? isLast)
      · exact fun other member => others other (List.mem_cons_of_mem _ member)

theorem remove (chained : Chained next (front ++ cell :: back))
    (distinct : (front ++ cell :: back).Nodup)
    (linked : ∀ last, front.getLast? = some last → after last = back.head?)
    (others : ∀ other ∈ front ++ back, front.getLast? ≠ some other → after other = next other) :
    Chained after (front ++ back) := by
  induction front with
  | nil => exact chained.2.congr fun other member => others other member (by simp)
  | cons first front ih =>
    rw [List.cons_append, List.nodup_cons] at distinct
    cases front with
    | nil =>
      refine ⟨linked first rfl, chained.2.2.congr fun other member => ?_⟩
      refine others other (List.mem_cons_of_mem _ member) fun isFirst => ?_
      cases isFirst
      exact distinct.1 (List.mem_cons_of_mem _ member)
    | cons second front =>
      have lasts : (first :: second :: front).getLast? = (second :: front).getLast? :=
        List.getLast?_cons_cons
      rw [lasts] at linked others
      refine ⟨?_, ih chained.2 distinct.2 linked ?_⟩
      · refine (others first List.mem_cons_self fun isLast => ?_).trans chained.1
        exact distinct.1 (List.mem_append_left _ (List.mem_of_getLast? isLast))
      · exact fun other member => others other (List.mem_cons_of_mem _ member)

end Chained

end OxeeUI.Library
