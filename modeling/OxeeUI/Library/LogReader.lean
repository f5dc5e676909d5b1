import Mathlib.Data.List.Basic

/-!
# Readers of a growing log

A log is a list of changes that only grows, and a state is what its first changes amount to.  A
reader that holds the state after some of them stays exact when it follows numbered changes in
order, skips those it has and stops at a gap.
-/

namespace OxeeUI.Library

variable {State Change : Type*} (apply : State → Change → State) (start : State)
variable {log : List Change} {seq : Nat}

def stateAt (log : List Change) (seq : Nat) : State := (log.take seq).foldl apply start

@[simp] theorem stateAt_zero (log : List Change) : stateAt apply start log 0 = start := rfl

theorem stateAt_append (within : seq ≤ log.length) (later : List Change) :
    stateAt apply start (log ++ later) seq = stateAt apply start log seq := by
  rw [stateAt, List.take_append_of_le_length within]
  rfl

theorem stateAt_succ {change : Change} (found : log[seq]? = some change) :
    stateAt apply start log (seq + 1) = apply (stateAt apply start log seq) change := by
  rw [stateAt, List.take_add_one, found, List.foldl_append]
  rfl

theorem stateAt_view {View : Type*} (view : State → View) (change : View → Change → View)
    (agrees : ∀ state next, view (apply state next) = change (view state) next)
    (log : List Change) (seq : Nat) :
    view (stateAt apply start log seq) = stateAt change (view start) log seq := by
  unfold stateAt
  generalize log.take seq = past
  induction past generalizing start with
  | nil => rfl
  | cons first rest ih => rw [List.foldl_cons, List.foldl_cons, ih, agrees]

theorem stateAt_preserves {Invariant : State → Prop} (initially : Invariant start)
    (kept : ∀ state, ∀ change ∈ log, Invariant state → Invariant (apply state change))
    (seq : Nat) : Invariant (stateAt apply start log seq) := by
  unfold stateAt
  have past : ∀ change ∈ log.take seq, change ∈ log := fun _ member =>
    List.mem_of_mem_take member
  generalize log.take seq = first at past
  induction first generalizing start with
  | nil => exact initially
  | cons change rest ih =>
    refine ih _ (kept start change (past change List.mem_cons_self) initially) ?_
    exact fun later member => past later (List.mem_cons_of_mem _ member)

def Numbered (log : List Change) (changes : List (Nat × Change)) : Prop :=
  ∀ entry ∈ changes, ∃ place, entry.1 = place + 1 ∧ log[place]? = some entry.2

theorem Numbered.append {changes : List (Nat × Change)} (numbered : Numbered log changes)
    (later : List Change) : Numbered (log ++ later) changes := by
  intro entry member
  obtain ⟨place, number, found⟩ := numbered entry member
  refine ⟨place, number, ?_⟩
  rw [List.getElem?_append_left (List.getElem?_eq_some_iff.mp found).1, found]

/-- A reader follows numbered changes; none at a gap. -/
def follow : List (Nat × Change) → Nat → State → Option (Nat × State)
  | [], seq, state => some (seq, state)
  | entry :: rest, seq, state =>
    if entry.1 ≤ seq then follow rest seq state
    else if entry.1 ≠ seq + 1 then none
    else follow rest entry.1 (apply state entry.2)

/-- A reader whose state is related to the log's past before is so after, wherever it ends. -/
theorem follow_exact {Image : Type*} {change : Image → Change → Image}
    (Related : Image → State → Prop)
    (kept : ∀ image state, ∀ next ∈ log, Related image state →
      Related (change image next) (apply state next))
    {changes : List (Nat × Change)} {image later : Image} {last : Nat}
    (numbered : Numbered log changes) (within : seq ≤ log.length)
    (exactly : Related image (stateAt apply start log seq))
    (followed : follow change changes seq image = some (last, later)) :
    last ≤ log.length ∧ Related later (stateAt apply start log last) := by
  induction changes generalizing seq image with
  | nil =>
    obtain ⟨rfl, rfl⟩ := Prod.mk.inj (Option.some.inj followed)
    exact ⟨within, exactly⟩
  | cons entry rest ih =>
    have behind : Numbered log rest := fun other member =>
      numbered other (List.mem_cons_of_mem _ member)
    unfold follow at followed
    split at followed
    case isTrue => exact ih behind within exactly followed
    case isFalse =>
      split at followed
      case isTrue => cases followed
      case isFalse next =>
        obtain ⟨place, number, found⟩ := numbered entry List.mem_cons_self
        have same : place = seq := by omega
        subst same
        refine ih behind ?_ ?_ followed
        · have bound := (List.getElem?_eq_some_iff.mp found).1
          omega
        · rw [number, stateAt_succ apply start found]
          exact kept _ _ _ (List.mem_of_getElem? found) exactly

end OxeeUI.Library
