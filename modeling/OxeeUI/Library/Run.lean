import Mathlib.Data.List.Basic
import Mathlib.Logic.Basic

/-!
# Runs of a state machine

A step relation reads an input and relates the state before to the state after.
A run is a finite sequence of steps.  The rules say what every run inherits
from one step: an invariant, and a reflexive and transitive comparison of the
states along it.
-/

namespace OxeeUI.Library

universe u v

variable {State : Type u} {Input : Type v}

/-- A finite sequence of steps, one for each input in order. -/
inductive Run (Step : State → Input → State → Prop) :
    State → List Input → State → Prop
  | nil (state : State) : Run Step state [] state
  | cons {start middle finish : State} {input : Input} {inputs : List Input} :
      Step start input middle → Run Step middle inputs finish →
        Run Step start (input :: inputs) finish

namespace Run

variable {Step : State → Input → State → Prop}

theorem preserves {Invariant : State → Prop}
    (step : ∀ start input finish,
      Invariant start → Step start input finish → Invariant finish)
    {start finish : State} {inputs : List Input}
    (run : Run Step start inputs finish) (initially : Invariant start) :
    Invariant finish := by
  induction run with
  | nil state => exact initially
  | cons first rest ih => exact ih (step _ _ _ initially first)

theorem mono {Weaker : State → Input → State → Prop}
    (weaken : ∀ start input finish, Step start input finish → Weaker start input finish)
    {start finish : State} {inputs : List Input}
    (run : Run Step start inputs finish) : Run Weaker start inputs finish := by
  induction run with
  | nil state => exact .nil state
  | cons step rest ih => exact .cons (weaken _ _ _ step) ih

theorem of_foldlM {step : State → Input → Option State} {start finish : State}
    {inputs : List Input} (ran : inputs.foldlM step start = some finish) :
    Run (fun before input after => step before input = some after) start inputs finish := by
  induction inputs generalizing start with
  | nil =>
    cases ran
    exact .nil _
  | cons input rest ih =>
    rw [List.foldlM_cons] at ran
    obtain ⟨middle, first, later⟩ := Option.bind_eq_some_iff.mp ran
    exact .cons first (ih later)

end Run

section Fold

variable {step : State → Input → State}

theorem foldl_preserves {Invariant : State → Prop} {start : State}
    (initially : Invariant start)
    (preserved : ∀ state input, Invariant state → Invariant (step state input))
    (inputs : List Input) : Invariant (inputs.foldl step start) := by
  induction inputs generalizing start with
  | nil => exact initially
  | cons input rest ih => exact ih (preserved start input initially)

theorem foldl_preserves_of_mem {Invariant : State → Prop} {start : State}
    (initially : Invariant start) {inputs : List Input}
    (preserved : ∀ state, ∀ input ∈ inputs, Invariant state → Invariant (step state input)) :
    Invariant (inputs.foldl step start) := by
  induction inputs generalizing start with
  | nil => exact initially
  | cons input rest ih =>
    refine ih (preserved start input List.mem_cons_self initially) ?_
    intro state later membership
    exact preserved state later (List.mem_cons_of_mem _ membership)

theorem foldl_frame {Part : Type*} (part : State → Part)
    (unchanged : ∀ state input, part (step state input) = part state)
    (start : State) (inputs : List Input) : part (inputs.foldl step start) = part start := by
  induction inputs generalizing start with
  | nil => rfl
  | cons input rest ih => exact (ih (step start input)).trans (unchanged start input)

theorem foldl_relates {Related : State → State → Prop}
    (refl : ∀ state, Related state state)
    (trans : ∀ {first second third}, Related first second → Related second third →
      Related first third)
    (related : ∀ state input, Related state (step state input))
    (start : State) (inputs : List Input) :
    Related start (inputs.foldl step start) := by
  induction inputs generalizing start with
  | nil => exact refl start
  | cons input rest ih => exact trans (related start input) (ih (step start input))

theorem foldlM_preserves_of_mem {Failure : Type*} {attempt : State → Input → Except Failure State}
    {Invariant : State → Prop} {start finish : State} (initially : Invariant start)
    {inputs : List Input}
    (preserved : ∀ state next, ∀ input ∈ inputs, Invariant state →
      attempt state input = .ok next → Invariant next)
    (ran : inputs.foldlM attempt start = .ok finish) : Invariant finish := by
  induction inputs generalizing start with
  | nil =>
    cases ran
    exact initially
  | cons input rest ih =>
    rw [List.foldlM_cons] at ran
    cases stepped : attempt start input with
    | error failure =>
      rw [stepped] at ran
      cases ran
    | ok next =>
      rw [stepped] at ran
      refine ih (preserved start next input List.mem_cons_self initially stepped) ?_ ran
      intro state later other membership
      exact preserved state later other (List.mem_cons_of_mem _ membership)

end Fold

end OxeeUI.Library
