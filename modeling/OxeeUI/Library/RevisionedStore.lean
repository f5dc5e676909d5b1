import Mathlib.Data.Int.ConditionallyCompleteOrder
import Mathlib.Order.ConditionallyCompleteLattice.Basic
import Mathlib.Data.Int.Order.Basic
import Mathlib.Logic.Relation
import Mathlib.Order.MinMax
import Mathlib.Order.WithBot
import OxeeUI.Library.JsMap

/-!
# Stores that remember what they removed

Every live value has a revision, and a removed key leaves the revision of its
removal behind.  A store step is applied only when it is newer than both, so the
highest revision seen under a key never falls and no removed value comes back.
-/

namespace OxeeUI.Library

universe u v

/-- Live values beside the revisions of removed ones. -/
structure RevisionedStore (Key : Type u) (Value : Type v) where
  live : JsMap Key Value
  tombstones : JsMap Key Int

namespace RevisionedStore

variable {Key : Type u} {Value : Type v} [DecidableEq Key]

/-- A revision that may be absent, below every revision when it is. -/
def bound : Option Int → WithBot Int
  | none => ⊥
  | some revision => (revision : WithBot Int)

@[simp] theorem bound_none : bound none = ⊥ := rfl
@[simp] theorem bound_some (revision : Int) : bound (some revision) = revision := rfl

/-- The highest revision a key has had, live or removed. -/
def highWater (revisionOf : Value → Int) (store : RevisionedStore Key Value) (key : Key) :
    WithBot Int :=
  max (bound ((store.live.get? key).map revisionOf)) (bound (store.tombstones.get? key))

def Exclusive (store : RevisionedStore Key Value) : Prop :=
  ∀ key, store.live.get? key = none ∨ store.tombstones.get? key = none

/-- One change of a store: a newer value, a newer removal, or a change of a live
value that keeps its revision. -/
inductive Step (revisionOf : Value → Int) :
    RevisionedStore Key Value → RevisionedStore Key Value → Prop
  | write {store : RevisionedStore Key Value} (key : Key) (value : Value)
      (newer : store.highWater revisionOf key < revisionOf value) :
      Step revisionOf store ⟨store.live.set key value, store.tombstones.delete key⟩
  | remove {store : RevisionedStore Key Value} (key : Key) (revision : Int)
      (newer : store.highWater revisionOf key < revision) :
      Step revisionOf store ⟨store.live.delete key, store.tombstones.set key revision⟩
  | adjust {store : RevisionedStore Key Value} (key : Key) (value changed : Value)
      (found : store.live.get? key = some value)
      (sameRevision : revisionOf changed = revisionOf value) :
      Step revisionOf store ⟨store.live.set key changed, store.tombstones⟩

variable {revisionOf : Value → Int} {first second : RevisionedStore Key Value}

theorem Step.exclusive (step : Step revisionOf first second) (before : first.Exclusive) :
    second.Exclusive := by
  intro other
  cases step with
  | write key value newer =>
    by_cases here : other = key
    · right
      simp [here]
    · simpa [here] using before other
  | remove key revision newer =>
    by_cases here : other = key
    · left
      simp [here]
    · simpa [here] using before other
  | adjust key value changed found sameRevision =>
    by_cases here : other = key
    · right
      have absent := before key
      rw [found] at absent
      simpa [here] using absent
    · simpa [here] using before other

theorem Step.highWater_le (step : Step revisionOf first second) (other : Key) :
    first.highWater revisionOf other ≤ second.highWater revisionOf other := by
  cases step with
  | write key value newer =>
    by_cases here : other = key
    · subst here
      exact le_trans newer.le (by simp [highWater])
    · simp [highWater, here]
  | remove key revision newer =>
    by_cases here : other = key
    · subst here
      exact le_trans newer.le (by simp [highWater])
    · simp [highWater, here]
  | adjust key value changed found sameRevision =>
    by_cases here : other = key
    · subst here
      simp [highWater, found, sameRevision]
    · simp [highWater, here]

def Steps (revisionOf : Value → Int) :
    RevisionedStore Key Value → RevisionedStore Key Value → Prop :=
  Relation.ReflTransGen (Step revisionOf)

theorem Steps.refl (store : RevisionedStore Key Value) : Steps revisionOf store store :=
  Relation.ReflTransGen.refl

theorem Step.steps (step : Step revisionOf first second) : Steps revisionOf first second :=
  Relation.ReflTransGen.single step

theorem Steps.trans {third : RevisionedStore Key Value}
    (early : Steps revisionOf first second) (late : Steps revisionOf second third) :
    Steps revisionOf first third :=
  Relation.ReflTransGen.trans early late

theorem Steps.exclusive (steps : Steps revisionOf first second) (before : first.Exclusive) :
    second.Exclusive := by
  induction steps with
  | refl => exact before
  | tail earlier step ih => exact step.exclusive ih

theorem Steps.highWater_le (steps : Steps revisionOf first second) (key : Key) :
    first.highWater revisionOf key ≤ second.highWater revisionOf key := by
  induction steps with
  | refl => exact le_rfl
  | tail earlier step ih => exact le_trans ih (step.highWater_le key)

end RevisionedStore

end OxeeUI.Library
