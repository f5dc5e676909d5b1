import Mathlib.Algebra.BigOperators.Group.List.Basic
import Mathlib.Data.List.Basic

/-!
# Objects by their handles

Objects are kept in the order of their creation, and an object's handle is its place.  What
is counted over the objects changes by what one of them is and becomes.
-/

namespace OxeeUI.Library

variable {Object : Type*} {objects : List Object} {handle : Nat} {old : Object}

theorem countP_set_add (found : objects[handle]? = some old) (test : Object → Bool)
    (new : Object) :
    (objects.set handle new).countP test + (if test old then 1 else 0) =
      objects.countP test + (if test new then 1 else 0) := by
  obtain ⟨bound, rfl⟩ := List.getElem?_eq_some_iff.mp found
  rw [List.countP_set bound]
  cases held : test objects[handle] with
  | true =>
    have some : 0 < objects.countP test :=
      List.countP_pos_iff.mpr ⟨_, List.getElem_mem bound, held⟩
    simp only [if_true]
    omega
  | false => simp

theorem sum_map_set_add {Amount : Type*} [AddCommMonoid Amount]
    (found : objects[handle]? = some old) (amount : Object → Amount) (new : Object) :
    ((objects.set handle new).map amount).sum + amount old =
      (objects.map amount).sum + amount new := by
  induction objects generalizing handle with
  | nil => cases found
  | cons first rest ih =>
    cases handle with
    | zero =>
      obtain rfl := Option.some.inj found
      simp only [List.set_cons_zero, List.map_cons, List.sum_cons]
      rw [add_comm, add_left_comm, add_comm (amount new), add_assoc]
    | succ handle =>
      simp only [List.set_cons_succ, List.map_cons, List.sum_cons, add_assoc]
      rw [ih found]

theorem countP_append_singleton (test : Object → Bool) (new : Object) :
    (objects ++ [new]).countP test = objects.countP test + (if test new then 1 else 0) := by
  rw [List.countP_append, List.countP_singleton]

theorem getElem?_append_singleton_eq_some {new object : Object} :
    (objects ++ [new])[handle]? = some object ↔
      objects[handle]? = some object ∨ (handle = objects.length ∧ object = new) := by
  rcases Nat.lt_trichotomy handle objects.length with below | rfl | above
  · rw [List.getElem?_append_left below]
    exact ⟨Or.inl, fun found => found.resolve_right fun last => Nat.ne_of_lt below last.1⟩
  · simp [eq_comm]
  · rw [List.getElem?_append_right (Nat.le_of_lt above),
      List.getElem?_eq_none (Nat.le_of_lt above),
      List.getElem?_eq_none (by rw [List.length_singleton]; omega)]
    simp [Nat.ne_of_gt above]

theorem countP_eq_zero_of_getElem? {test : Object → Bool}
    (none : ∀ (handle : Nat) (object : Object), objects[handle]? = some object → test object = false) :
    objects.countP test = 0 := by
  refine List.countP_eq_zero.mpr fun object member => ?_
  obtain ⟨handle, found⟩ := List.mem_iff_getElem?.mp member
  rw [none handle object found]
  exact Bool.false_ne_true

structure Lasting (ended : Object → Bool) (before after : List Object) : Prop where
  stays : ∀ (handle : Nat) (object : Object), before[handle]? = some object → ended object = true →
    ∃ later, after[handle]? = some later ∧ ended later = true

theorem Lasting.refl (ended : Object → Bool) (objects : List Object) :
    Lasting ended objects objects :=
  ⟨fun _ object found ended => ⟨object, found, ended⟩⟩

theorem Lasting.trans {ended : Object → Bool} {before middle after : List Object}
    (early : Lasting ended before middle) (late : Lasting ended middle after) :
    Lasting ended before after := by
  constructor
  intro handle object found ended
  obtain ⟨later, found', ended'⟩ := early.stays handle object found ended
  exact late.stays handle later found' ended'

theorem lasting_append (ended : Object → Bool) (objects : List Object) (new : Object) :
    Lasting ended objects (objects ++ [new]) := by
  constructor
  intro handle object found ended
  obtain ⟨bound, -⟩ := List.getElem?_eq_some_iff.mp found
  exact ⟨object, (List.getElem?_append_left bound).trans found, ended⟩

theorem lasting_set {ended : Object → Bool} (found : objects[handle]? = some old) {new : Object}
    (stays : ended old = true → ended new = true) :
    Lasting ended objects (objects.set handle new) := by
  constructor
  intro other object found' ended
  by_cases same : other = handle
  · subst same
    obtain rfl := Option.some.inj (found.symm.trans found')
    obtain ⟨bound, -⟩ := List.getElem?_eq_some_iff.mp found
    exact ⟨new, List.getElem?_set_self bound, stays ended⟩
  · exact ⟨object, (List.getElem?_set_ne (Ne.symm same)).trans found', ended⟩

end OxeeUI.Library
