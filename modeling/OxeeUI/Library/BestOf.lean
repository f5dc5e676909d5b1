import Mathlib.Data.List.Induction
import Mathlib.Data.List.Perm.Basic
import Mathlib.Order.Defs.Unbundled

/-!
# The first of several in an order

A first of a list under a total preorder, and two scans that find one: a plain
scan of the whole list, and a scan of sorted lists that leaves a list as soon as
nothing further on in it can come first.
-/

namespace OxeeUI.Library

universe u

variable {Item : Type u} {precedes : Item → Item → Prop}

/-- A first of the items; nothing if there are no items. -/
structure BestOf (precedes : Item → Item → Prop) (items : List Item) (result : Option Item) :
    Prop where
  empty : result = none → items = []
  member : ∀ best, result = some best → best ∈ items
  least : ∀ best, result = some best → ∀ item ∈ items, precedes best item

namespace BestOf

variable {items other : List Item} {result : Option Item}

theorem nil : BestOf precedes [] none :=
  { empty := fun _ => rfl
    member := fun _ found => by cases found
    least := fun _ found => by cases found }

theorem congr (best : BestOf precedes items result) (same : ∀ item, item ∈ other ↔ item ∈ items) :
    BestOf precedes other result := by
  refine ⟨fun none => ?_, fun item found => (same item).mpr (best.member item found),
    fun item found later member => best.least item found later ((same later).mp member)⟩
  refine List.eq_nil_iff_forall_not_mem.mpr fun item member => ?_
  have before := (same item).mp member
  rw [best.empty none] at before
  cases before

theorem perm (best : BestOf precedes items result) (same : items.Perm other) :
    BestOf precedes other result :=
  best.congr fun _ => same.mem_iff.symm

theorem append_later {held : Item} (best : BestOf precedes items (some held))
    (later : ∀ item ∈ other, precedes held item) :
    BestOf precedes (items ++ other) (some held) := by
  refine ⟨fun none => (by cases none), fun item found => ?_, fun item found next member => ?_⟩
  · exact List.mem_append_left _ (best.member item found)
  · cases found
    rcases List.mem_append.mp member with old | new
    · exact best.least held rfl next old
    · exact later next new

theorem replace [IsTrans Item precedes] [Std.Total precedes] (best : BestOf precedes items result)
    {item : Item} (ahead : ∀ held, result = some held → precedes item held)
    (later : ∀ next ∈ other, precedes item next) :
    BestOf precedes (items ++ item :: other) (some item) := by
  refine ⟨fun none => (by cases none), fun found same => ?_, fun found same next member => ?_⟩
  · cases same
    exact List.mem_append_right _ List.mem_cons_self
  · cases same
    rcases List.mem_append.mp member with old | new
    · cases held : result with
      | none =>
        rw [best.empty held] at old
        cases old
      | some first =>
        exact IsTrans.trans _ _ _ (ahead first held) (best.least first held next old)
    · rcases List.mem_cons.mp new with rfl | behind
      · exact Std.Refl.refl next
      · exact later next behind

theorem tie {first second : Item} (one : BestOf precedes items (some first))
    (two : BestOf precedes items (some second)) : precedes first second ∧ precedes second first :=
  ⟨one.least first rfl second (two.member second rfl),
    two.least second rfl first (one.member first rfl)⟩

theorem unique {result' : Option Item} (one : BestOf precedes items result)
    (two : BestOf precedes items result')
    (strict : ∀ first ∈ items, ∀ second ∈ items,
      precedes first second → precedes second first → first = second) : result = result' := by
  cases first : result with
  | none =>
    cases second : result' with
    | none => rfl
    | some item =>
      have member := two.member item second
      rw [one.empty first] at member
      cases member
  | some item =>
    cases second : result' with
    | none =>
      have member := one.member item first
      rw [two.empty second] at member
      cases member
    | some item' =>
      rw [first] at one
      rw [second] at two
      obtain ⟨before, after⟩ := one.tie two
      rw [strict item (one.member item rfl) item' (two.member item' rfl) before after]

end BestOf

section Scans

variable (precedes) [DecidableRel precedes]

/-- Read every item, and keep the first that the kept one does not precede. -/
def plainScan (items : List Item) : Option Item :=
  items.foldl (fun best item => if best.any (precedes · item) then best else some item) none

/-- Read a sorted list up to the first item that passes the test, or that what is kept precedes. -/
def scanSorted (test : Item → Bool) (best : Option Item) : List Item → Option Item
  | [] => best
  | item :: rest =>
    if best.any (precedes · item) then best
    else if test item then some item
    else scanSorted test best rest

variable {precedes} [Std.Total precedes]

theorem ahead_of_unheld {result : Option Item} {item : Item}
    (unheld : result.any (precedes · item) = false) :
    ∀ held, result = some held → precedes item held := by
  intro held kept
  rw [kept, Option.any_some, decide_eq_false_iff_not] at unheld
  exact (Std.Total.total (r := precedes) held item).resolve_left unheld

variable [IsTrans Item precedes]

theorem bestOf_plainScan (items : List Item) : BestOf precedes items (plainScan precedes items) := by
  unfold plainScan
  induction items using List.reverseRecOn with
  | nil => exact .nil
  | append_singleton items item ih =>
    rw [List.foldl_append]
    generalize items.foldl _ none = result at ih ⊢
    rw [List.foldl_cons, List.foldl_nil]
    split
    case isTrue kept =>
      cases held : result with
      | none =>
        rw [held] at kept
        cases kept
      | some best =>
        rw [held] at kept ih
        refine ih.append_later fun next member => ?_
        rw [List.mem_singleton.mp member]
        exact of_decide_eq_true kept
    case isFalse unheld =>
      exact ih.replace (ahead_of_unheld (Bool.eq_false_iff.mpr unheld))
        fun next member => by cases member

theorem BestOf.scanSorted {items : List Item} {result : Option Item}
    (best : BestOf precedes items result) (test : Item → Bool) {list : List Item} (sorted : list.Pairwise precedes) :
    BestOf precedes (items ++ list.filter test) (scanSorted precedes test result list) := by
  induction list with
  | nil => simpa [Library.scanSorted] using best
  | cons item rest ih =>
    obtain ⟨first, ordered⟩ := List.pairwise_cons.mp sorted
    unfold Library.scanSorted
    split
    case isTrue kept =>
      cases held : result with
      | none =>
        rw [held] at kept
        cases kept
      | some earlier =>
        rw [held] at kept best
        have before : precedes earlier item := of_decide_eq_true kept
        refine best.append_later fun next member => ?_
        rcases List.mem_cons.mp (List.mem_filter.mp member).1 with rfl | behind
        · exact before
        · exact IsTrans.trans _ _ _ before (first next behind)
    case isFalse unheld =>
      split
      case isTrue passed =>
        rw [List.filter_cons, if_pos passed]
        refine best.replace (ahead_of_unheld (Bool.eq_false_iff.mpr unheld)) ?_
        exact fun next member => first next (List.mem_filter.mp member).1
      case isFalse failed =>
        rw [List.filter_cons, if_neg failed]
        exact ih ordered

theorem bestOf_scanLists {test : Item → Bool} {lists : List (List Item)}
    (sorted : ∀ list ∈ lists, list.Pairwise precedes) :
    BestOf precedes (lists.flatten.filter test)
      (lists.foldl (Library.scanSorted precedes test) none) := by
  induction lists using List.reverseRecOn with
  | nil => exact .nil
  | append_singleton lists list ih =>
    have before := ih fun other member => sorted other (List.mem_append_left _ member)
    rw [List.foldl_append, List.foldl_cons, List.foldl_nil, List.flatten_append,
      List.filter_append]
    simpa using before.scanSorted test
      (sorted list (List.mem_append_right _ List.mem_cons_self))

end Scans

end OxeeUI.Library
