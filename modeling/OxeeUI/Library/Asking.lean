import Mathlib.Tactic.TypeStar

/-!
# Programs that ask

A program that pauses at each question it asks the world is a tree: a question, and what
follows for each of its answers.  What a program may ask can depend on the answers it has had,
so a rule speaks of what is known when the question is put.
-/

namespace OxeeUI.Library

universe u v w

/-- A program of questions, with a value at its end. -/
inductive Asking (Question : Type u) (Answer : Question → Type v) (Value : Type w) :
    Type (max u v w)
  | pure (value : Value)
  | ask (question : Question) (next : Answer question → Asking Question Answer Value)

namespace Asking

variable {Question : Type u} {Answer : Question → Type v} {Value Result : Type w}

def bind (program : Asking Question Answer Value)
    (next : Value → Asking Question Answer Result) : Asking Question Answer Result :=
  match program with
  | .pure value => next value
  | .ask question follow => .ask question fun answer => (follow answer).bind next

instance : Monad (Asking Question Answer) where
  pure := .pure
  bind := bind

/-! ## Rules -/

section Rules

variable {Known : Type*} (allowed : Known → Question → Prop)
variable (learn : Known → (question : Question) → Answer question → Known)

/-- Every question is allowed by what is known when it is put, and the value at the end meets
`post`. -/
def Obeys (known : Known) (post : Known → Value → Prop) :
    Asking Question Answer Value → Prop
  | .pure value => post known value
  | .ask question next =>
    allowed known question ∧
      ∀ answer, (next answer).Obeys (learn known question answer) post

variable {allowed learn} {known : Known}
variable {post : Known → Value → Prop} {program : Asking Question Answer Value}

theorem Obeys.mono {weaker : Known → Value → Prop}
    (obeys : program.Obeys allowed learn known post)
    (implies : ∀ known value, post known value → weaker known value) :
    program.Obeys allowed learn known weaker := by
  induction program generalizing known with
  | pure value => exact implies known value obeys
  | ask question next ih => exact ⟨obeys.1, fun answer => ih answer (obeys.2 answer)⟩

theorem Obeys.bind {next : Value → Asking Question Answer Result}
    {last : Known → Result → Prop}
    (obeys : program.Obeys allowed learn known fun known value =>
      (next value).Obeys allowed learn known last) :
    (program >>= next).Obeys allowed learn known last := by
  induction program generalizing known with
  | pure value => exact obeys
  | ask question follow ih => exact ⟨obeys.1, fun answer => ih answer (obeys.2 answer)⟩

end Rules

/-! ## Running -/

/-- Answer the questions that need no waiting, from a state they may change, up to the first
that does.  A list of hints answers what the state does not say. -/
def advance {State Hint : Type*}
    (answers : (question : Question) → State → List Hint →
      Option (Answer question × State × List Hint)) :
    Asking Question Answer Value → State → List Hint →
      Asking Question Answer Value × State
  | .pure value, state, _ => (.pure value, state)
  | .ask question next, state, hints =>
    match answers question state hints with
    | none => (.ask question next, state)
    | some (answer, changed, rest) => (next answer).advance answers changed rest

theorem Obeys.advance {Known State Hint : Type*} {allowed : Known → Question → Prop}
    {learn : Known → (question : Question) → Answer question → Known}
    {answers : (question : Question) → State → List Hint →
      Option (Answer question × State × List Hint)}
    (nothing : ∀ known question state hints answered answer,
      answers question state hints = some answered → learn known question answer = known)
    {known : Known} {post : Known → Value → Prop} {program : Asking Question Answer Value}
    (obeys : program.Obeys allowed learn known post) (state : State) (hints : List Hint) :
    (program.advance answers state hints).1.Obeys allowed learn known post := by
  induction program generalizing state hints with
  | pure value => exact obeys
  | ask question next ih =>
    simp only [Asking.advance]
    split
    case h_1 => exact obeys
    case h_2 answer changed rest answered =>
      have later := obeys.2 answer
      rw [nothing known question state hints _ answer answered] at later
      exact ih answer later changed rest

end Asking

end OxeeUI.Library
