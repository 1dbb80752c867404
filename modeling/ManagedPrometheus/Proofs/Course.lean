import ManagedPrometheus.Reconcile

/-!
# Courses of passes

What a pass does depends on the answers that it hears. A *course* of a pass is one way through it:
the exchanges that are made and the value that is reached. Every run of a session takes a course
(`Course.of_run`), so what holds of all courses holds against every backend, for every pattern of
errors, calls without answer and cancellations.

The courses of two passes in a row are pairs of courses (`Course.bind_inv`), which is how the
courses of a pass are put together from those of its parts.
-/

namespace ManagedPrometheus

variable {σ α β : Type} {kind : Kind}

/-! ### Running a session -/

namespace Session

theorem run_done (backend : Backend σ) (limit : Duration) (value : α)
    (session : Session σ) : session.run backend kind limit (.done value) = (value, session) := rfl

/-- A pass that is not cancelled goes on with what it makes of the next answer. -/
theorem run_ask (backend : Backend σ) (limit : Duration) {call : Call}
    (next : call.Result → Pass α) (state : σ) (exchanges : List Exchange) :
    let answered := backend.answer kind call state
    let result : call.Result := resultOf (call.api kind) limit answered.1
    (Session.mk state false exchanges).run backend kind limit (.ask call next)
      = (Session.mk answered.2 answered.1.cancels (exchanges ++ [⟨call, result⟩])).run backend kind
          limit (next result) := rfl

end Session

/-! ### Courses -/

/-- Whether an exchange can be made: its result is what a pass makes of some answer to its call. -/
def Exchange.Admissible (kind : Kind) (limit : Duration) (exchange : Exchange) : Prop :=
  ∃ answer : Answer exchange.call.Reply,
    exchange.result = Session.resultOf (exchange.call.api kind) limit answer

/-- The courses of a pass. Once a pass is cancelled its next call is refused without being made. -/
inductive Course (kind : Kind) (limit : Duration) : Pass α → List Exchange → α → Prop
  | done (value : α) : Course kind limit (.done value) [] value
  | refused {call : Call} {next : call.Result → Pass α} {made : List Exchange} {value : α} :
      Course kind limit (next (.error .cancelled)) made value →
      Course kind limit (.ask call next) made value
  | answered {call : Call} {next : call.Result → Pass α} (result : call.Result)
      {made : List Exchange} {value : α} :
      Exchange.Admissible kind limit ⟨call, result⟩ → Course kind limit (next result) made value →
      Course kind limit (.ask call next) (⟨call, result⟩ :: made) value

namespace Course

variable {limit : Duration}

/-- A run of a session takes a course of its pass and appends the exchanges of the course to those
that were made before. -/
theorem of_run_from (backend : Backend σ) (pass : Pass α) (session : Session σ) :
    ∃ made, (session.run backend kind limit pass).2.exchanges = session.exchanges ++ made ∧
      Course kind limit pass made (session.run backend kind limit pass).1 := by
  induction pass generalizing session with
  | done value => exact ⟨[], by simp [Session.run], .done value⟩
  | ask call next ih =>
    by_cases hcancelled : session.cancelled = true
    · have hperform : Session.perform backend kind limit call session
          = (.error .cancelled, session) := by
        simp [Session.perform, hcancelled]
      obtain ⟨made, hmade, hcourse⟩ := ih (.error .cancelled) session
      refine ⟨made, ?_, .refused ?_⟩
      · simpa [Session.run, hperform] using hmade
      · simpa [Session.run, hperform] using hcourse
    · let answer := backend.answer kind call session.backend
      let result : call.Result := Session.resultOf (call.api kind) limit answer.1
      let after : Session σ :=
        ⟨answer.2, answer.1.cancels, session.exchanges ++ [⟨call, result⟩]⟩
      have hperform : Session.perform backend kind limit call session = (result, after) := by
        simp [Session.perform, hcancelled, result, after, answer]
      obtain ⟨made, hmade, hcourse⟩ := ih result after
      refine ⟨⟨call, result⟩ :: made, ?_, .answered result ⟨answer.1, rfl⟩ ?_⟩
      · simpa [Session.run, hperform, after] using hmade
      · simpa [Session.run, hperform] using hcourse

/-- Every run of a pass takes one of its courses. -/
theorem of_run (backend : Backend σ) (pass : Pass α) (state : σ) (cancelled : Bool) :
    Course kind limit pass
      ((Session.start state cancelled).run backend kind limit pass).2.exchanges
      ((Session.start state cancelled).run backend kind limit pass).1 := by
  obtain ⟨made, hmade, hcourse⟩ :=
    @of_run_from _ _ kind limit backend pass (Session.start state cancelled)
  rw [show (Session.start state cancelled).exchanges = [] from rfl, List.nil_append] at hmade
  rw [hmade]
  exact hcourse

theorem admissible {pass : Pass α} {made : List Exchange} {value : α}
    (h : Course kind limit pass made value) :
    ∀ exchange ∈ made, exchange.Admissible kind limit := by
  induction h with
  | done value => simp
  | refused _ ih => exact ih
  | answered result hadmissible _ ih =>
    intro exchange hmem
    rcases List.mem_cons.mp hmem with rfl | hmem
    · exact hadmissible
    · exact ih exchange hmem

/-- The courses of two passes in a row are those of the first, each continued by one of the
second. -/
theorem bind_inv {pass : Pass α} {next : α → Pass β} {made : List Exchange} {value : β}
    (h : Course kind limit (pass.bind next) made value) :
    ∃ first second middle, made = first ++ second ∧ Course kind limit pass first middle ∧
      Course kind limit (next middle) second value := by
  induction pass generalizing made with
  | done middle => exact ⟨[], made, middle, rfl, .done middle, h⟩
  | ask call rest ih =>
    rw [Plan.bind_ask] at h
    cases h with
    | refused h =>
      obtain ⟨first, second, middle, hmade, hfirst, hsecond⟩ := ih _ h
      exact ⟨first, second, middle, hmade, .refused hfirst, hsecond⟩
    | answered result hadmissible h =>
      obtain ⟨first, second, middle, rfl, hfirst, hsecond⟩ := ih _ h
      exact ⟨_ :: first, second, middle, rfl, .answered result hadmissible hfirst, hsecond⟩

theorem done_inv {reached value : α} {made : List Exchange}
    (h : Course kind limit (.done reached) made value) : made = [] ∧ value = reached := by
  cases h
  exact ⟨rfl, rfl⟩

/-- The course of one call after which nothing more is asked. -/
theorem ask_done_inv {call : Call} {conclude : call.Result → α} {made : List Exchange} {value : α}
    (h : Course kind limit (.ask call fun result => .done (conclude result)) made value) :
    (made = [] ∧ value = conclude (.error .cancelled)) ∨
      ∃ result, made = [⟨call, result⟩] ∧ value = conclude result := by
  cases h with
  | refused h => exact .inl (done_inv h)
  | answered result _ h =>
    obtain ⟨rfl, rfl⟩ := done_inv h
    exact .inr ⟨result, rfl, rfl⟩

end Course

/-! ### What a session leads to -/

/-- What holds of a session and is kept by each call that is made holds in the end. -/
theorem Session.run_induction (backend : Backend σ) (kind : Kind) (limit : Duration) (pass : Pass α)
    {motive : Session σ → Prop} {session : Session σ} (hstart : motive session)
    (hcall : ∀ call ∈ (session.run backend kind limit pass).2.calls, ∀ before : Session σ,
      before.cancelled = false → motive before →
        motive (Session.perform backend kind limit call before).2) :
    motive (session.run backend kind limit pass).2 := by
  induction pass generalizing session with
  | done value => exact hstart
  | ask call next ih =>
    let performed := Session.perform backend kind limit call session
    have hrest : motive performed.2 := by
      rcases hcancelled : session.cancelled with _ | _
      · have hperformed : performed.2.exchanges = session.exchanges ++ [⟨call, performed.1⟩] := by
          simp [performed, perform, hcancelled]
        obtain ⟨made, hmade, -⟩ := @Course.of_run_from _ _ kind limit backend (next performed.1)
          performed.2
        have hexchanges : (session.run backend kind limit (.ask call next)).2.exchanges
            = session.exchanges ++ ⟨call, performed.1⟩ :: made := by
          rw [List.append_cons, ← hperformed]
          exact hmade
        apply hcall call _ session hcancelled hstart
        simp [calls, hexchanges]
      · have hperformed : performed = (.error .cancelled, session) := by
          simp [performed, perform, hcancelled]
        rw [hperformed]
        exact hstart
    exact ih performed.1 hrest hcall

/-- The first answer that is heard is the one that the backend gives from the state at the start. -/
theorem Session.result_of_first (backend : Backend σ) (limit : Duration) (pass : Pass α) (state : σ)
    (cancelled : Bool) {exchange : Exchange} {rest : List Exchange}
    (h : ((Session.start state cancelled).run backend kind limit pass).2.exchanges
      = exchange :: rest) :
    exchange.result = resultOf (exchange.call.api kind) limit
      (backend.answer kind exchange.call state).1 := by
  cases pass with
  | done value => cases h
  | ask call next =>
    cases cancelled with
    | true =>
      let ended := (Session.start state true).run backend kind limit (.ask call next)
      have hsilent : ended.2.cancelled = true ∧ ended.2.exchanges = [] := by
        apply run_induction backend kind limit
          (motive := fun session => session.cancelled = true ∧ session.exchanges = [])
        · exact ⟨rfl, rfl⟩
        · intro _ _ before hrunning hbefore
          cases hrunning.symm.trans hbefore.1
      cases hsilent.2.symm.trans h
    | false =>
      rw [Session.start, run_ask] at h
      obtain ⟨made, hmade, -⟩ := @Course.of_run_from _ _ kind limit backend
        (next (resultOf (call.api kind) limit (backend.answer kind call state).1)) _
      rw [hmade] at h
      cases h
      rfl

end ManagedPrometheus
