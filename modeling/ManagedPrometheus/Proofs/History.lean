import ManagedPrometheus.Proofs.Exits

/-!
# Histories of passes

A history is a series of passes over one resource, against one backend whose state runs through.
Each pass starts from the resource that the pass before it returned, as changed in between: a
`Round` says what is changed, which pass is made, when, and whether it is cancelled before it
begins. What was exchanged in each pass is kept in a `PassRecord`. As rounds and backend are
arbitrary, a claim about all histories speaks of every order of passes, of all edits between them,
and of all answers, errors, calls without answer and cancellations.
-/

namespace ManagedPrometheus

variable {σ : Type} {kind : Kind}

/-- The passes that can be made over a resource. -/
inductive Task
  | sync
  | finalize
  deriving DecidableEq, Repr

def Task.pass (settings : PassSettings) (now : String) (resource : Resource kind) :
    Task → Pass (PassResult kind)
  | .sync => resource.sync settings now
  | .finalize => resource.finalize settings now

/-- One pass of a history and what comes before it. -/
structure Round (kind : Kind) where
  /-- What is changed since the pass before. -/
  edit : Resource kind → Resource kind
  task : Task
  now : String
  /-- Whether the pass is cancelled before it begins. -/
  cancelled : Bool

structure PassRecord (kind : Kind) where
  task : Task
  now : String
  input : Resource kind
  exchanges : List Exchange
  result : PassResult kind

/-- The calls of a pass, in their order. -/
def PassRecord.calls (record : PassRecord kind) : List Call := record.exchanges.map (·.call)

/-- Makes the pass of a round. -/
def Round.run (backend : Backend σ) (settings : PassSettings) (round : Round kind)
    (resource : Resource kind) (state : σ) : PassRecord kind × σ :=
  let input := round.edit resource
  let ended := (Session.start state round.cancelled).run backend kind settings.callTimeout
    (round.task.pass settings round.now input)
  (⟨round.task, round.now, input, ended.2.exchanges, ended.1⟩, ended.2.backend)

/-- The passes of a series of rounds, each over the resource that the one before it returned. -/
def history (backend : Backend σ) (settings : PassSettings) :
    List (Round kind) → Resource kind → σ → List (PassRecord kind)
  | [], _, _ => []
  | round :: rest, resource, state =>
    let made := round.run backend settings resource state
    made.1 :: history backend settings rest made.1.result.resource made.2

/-- The state of the backend after the passes of a history. -/
def stateAfter (backend : Backend σ) (settings : PassSettings) :
    List (Round kind) → Resource kind → σ → σ
  | [], _, state => state
  | round :: rest, resource, state =>
    let made := round.run backend settings resource state
    stateAfter backend settings rest made.1.result.resource made.2

/-! ### Courses of the passes -/

/-- A pass took one of its courses. -/
def PassRecord.Lawful (settings : PassSettings) (record : PassRecord kind) : Prop :=
  Course kind settings.callTimeout (record.task.pass settings record.now record.input)
    record.exchanges record.result

theorem Round.run_lawful (backend : Backend σ) (settings : PassSettings) (round : Round kind)
    (resource : Resource kind) (state : σ) :
    (round.run backend settings resource state).1.Lawful settings :=
  Course.of_run backend _ state round.cancelled

/-- Every pass of a history takes one of its courses. -/
theorem history_lawful (backend : Backend σ) (settings : PassSettings) (rounds : List (Round kind))
    (resource : Resource kind) (state : σ) :
    ∀ record ∈ history backend settings rounds resource state, record.Lawful settings := by
  induction rounds generalizing resource state with
  | nil => simp [history]
  | cons round rest ih =>
    intro record hrecord
    rcases List.mem_cons.mp hrecord with rfl | hrecord
    · exact round.run_lawful backend settings resource state
    · exact ih _ _ record hrecord

/-- The pass has taken an exit of its task, with a decision. -/
def PassRecord.Exits (record : PassRecord kind) (decision : Decision kind) : Prop :=
  (record.task = .sync ∧ Syncs record.now record.input record.exchanges decision) ∨
    (record.task = .finalize ∧ Deletes record.now record.input record.exchanges decision)

/-- What a lawful pass did: the exit that it took, and the decision that its result sums up. -/
theorem PassRecord.Lawful.exit {settings : PassSettings} {record : PassRecord kind}
    (h : record.Lawful settings) :
    ∃ decision, record.result = record.input.conclude settings record.now decision ∧
      record.Exits decision := by
  obtain ⟨task, now, input, exchanges, result⟩ := record
  cases task with
  | sync =>
    obtain ⟨decision, hsyncs, hresult⟩ := Syncs.of_course h
    exact ⟨decision, hresult, .inl ⟨rfl, hsyncs⟩⟩
  | finalize =>
    obtain ⟨decision, hdeletes, hresult⟩ := Deletes.of_finalize_course h
    exact ⟨decision, hresult, .inr ⟨rfl, hdeletes⟩⟩

end ManagedPrometheus
