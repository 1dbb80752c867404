/-!
# Plans

A plan is what a pass does, apart from whom it talks to: a value that is reached at once, or a
question and, for each answer to it, the rest of the plan. Every path through a plan is finite, so a
bound on its questions holds whatever the answers are. `run` answers the questions of a plan from a
state.
-/

namespace ManagedPrometheus

variable {Question : Type}

/-- A plan that asks questions, each with a type of answers of its own, and ends with an `α`. -/
inductive Plan (Answer : Question → Type) (α : Type)
  | done (value : α)
  | ask (question : Question) (next : Answer question → Plan Answer α)

namespace Plan

variable {Answer : Question → Type} {α β σ : Type}

/-- Continues a plan after its end. -/
def bind : Plan Answer α → (α → Plan Answer β) → Plan Answer β
  | .done value, f => f value
  | .ask question next, f => .ask question fun answer => (next answer).bind f

def question (q : Question) : Plan Answer (Answer q) := .ask q .done

instance : Monad (Plan Answer) where
  pure := .done
  bind := .bind

@[simp] theorem bind_done (value : α) (f : α → Plan Answer β) : (done value).bind f = f value := rfl

@[simp] theorem bind_ask (q : Question) (next : Answer q → Plan Answer α) (f : α → Plan Answer β) :
    (ask q next).bind f = ask q fun answer => (next answer).bind f := rfl

/-! ### Running -/

/-- Runs a plan: each question is answered from the state that the answers before it have left. -/
def run (answer : (q : Question) → σ → Answer q × σ) : Plan Answer α → σ → α × σ
  | .done value, state => (value, state)
  | .ask q next, state => (next (answer q state).1).run answer (answer q state).2

variable {answer : (q : Question) → σ → Answer q × σ}

@[simp] theorem run_done (value : α) (state : σ) :
    (done value : Plan Answer α).run answer state = (value, state) := rfl

@[simp] theorem run_ask (q : Question) (next : Answer q → Plan Answer α) (state : σ) :
    (ask q next).run answer state = (next (answer q state).1).run answer (answer q state).2 := rfl

theorem run_bind (plan : Plan Answer α) (f : α → Plan Answer β) (state : σ) :
    (plan.bind f).run answer state
      = (f (plan.run answer state).1).run answer (plan.run answer state).2 := by
  induction plan generalizing state with
  | done value => rfl
  | ask q next ih => simp only [bind_ask, run_ask, ih]

/-! ### Widening -/

/-- Puts the questions of a plan to an interface that has them among others. -/
def within {Wide : Type} {WideAnswer : Wide → Type} (embed : Question → Wide)
    (project : (q : Question) → WideAnswer (embed q) → Answer q) :
    Plan Answer α → Plan WideAnswer α
  | .done value => .done value
  | .ask q next => .ask (embed q) fun answer => (next (project q answer)).within embed project

end Plan

end ManagedPrometheus
