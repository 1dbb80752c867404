import ManagedPrometheus.Manifest
import ManagedPrometheus.Proofs.Conditions

/-!
# Conditions over a series of steps

The conditions of a status are changed in steps: a verdict is entered, `Synced` is set, or any
condition is. A step takes place at a time, and stamps it on the conditions that appear or change
their value, and on no others (`Condition.Stamped`). So over a series of steps a condition carries
the time of the last one at which its value changed, and a step that is repeated changes nothing.
`Status.takeAll_storesConditions` says so for every series of steps.
-/

namespace ManagedPrometheus

/-! ### Stamps -/

/-- A condition carries the time that it had if its value is the one that it had, and `now` if it
has appeared or its value has changed. It does not disappear. -/
def Condition.Stamped (now : String) (before after : Option Condition) : Prop :=
  after.bind (·.lastTransitionTime)
    = if after.map (·.value) = before.map (·.value) then before.bind (·.lastTransitionTime)
      else some now

namespace Condition.Stamped

variable {now : String} {first second third : Option Condition}

theorem refl (now : String) (condition? : Option Condition) :
    Stamped now condition? condition? := by
  rw [Stamped, if_pos rfl]

/-- Two changes at one time count as one, unless the second takes back the first. -/
theorem trans (h : Stamped now first second) (hnext : Stamped now second third)
    (hback : third.map (·.value) = first.map (·.value) →
      second.map (·.value) = first.map (·.value)) : Stamped now first third := by
  unfold Stamped at h hnext ⊢
  by_cases hsame : third.map (·.value) = first.map (·.value)
  · rw [hnext, h, if_pos hsame, if_pos (hback hsame), if_pos (hsame.trans (hback hsame).symm)]
  · rw [hnext, h, if_neg hsame]
    -- the value has changed in one of the two
    by_cases hlast : third.map (·.value) = second.map (·.value)
    · rw [if_pos hlast, if_neg fun hfirst => hsame (hlast.trans hfirst)]
    · rw [if_neg hlast]

end Condition.Stamped

namespace Conditions

theorem stamped_set (conditions : Conditions) (now : String) (type other : ConditionType)
    (value : ConditionValue) (message : Option String) :
    Condition.Stamped now (conditions.get? other)
      ((conditions.set now type value message).get? other) := by
  rw [get?_set]
  split
  · rename_i hsame
    rw [hsame, Condition.Stamped, Option.bind_some, Option.map_some, entry_value,
      entry_lastTransitionTime]
  · exact .refl now _

theorem stamped_clear (conditions : Conditions) (now : String) (type other : ConditionType) :
    Condition.Stamped now (conditions.get? other) ((conditions.clear now type).get? other) := by
  rw [clear]
  split
  · exact conditions.stamped_set now type other .no none
  · exact .refl now _

/-- What there is none of is not made by clearing it. -/
theorem get?_clear_of_none {conditions : Conditions} {type : ConditionType}
    (h : conditions.get? type = none) (now : String) (cleared : ConditionType) :
    (conditions.clear now cleared).get? type = none := by
  by_cases htype : type = cleared
  · rw [← htype, clear_eq_self _ now, h]
    intro condition hcondition
    cases h.symm.trans hcondition
  · rw [get?_clear_of_ne conditions now htype, h]

end Conditions

theorem Status.stamped_enter (status : Status) (now : String) (verdict : Verdict)
    (type : ConditionType) :
    Condition.Stamped now (status.conditions.get? type)
      ((status.enter now verdict).conditions.get? type) := by
  cases verdict with
  | terminal message => exact status.conditions.stamped_set now _ type _ _
  | recoverable message =>
    rw [enter]
    by_cases htype : type = .terminal
    · have hset : (status.conditions.set now .recoverable .yes (some message)).get? type
          = status.conditions.get? type := by
        rw [Conditions.get?_set, if_neg (by simp [htype])]
      rw [← hset]
      exact Conditions.stamped_clear _ now .terminal type
    · rw [Conditions.get?_clear_of_ne _ now htype]
      exact status.conditions.stamped_set now .recoverable type _ _
  | success =>
    rw [enter]
    by_cases htype : type = .recoverable
    · have hcleared := Conditions.get?_clear_of_ne status.conditions now
        (show type ≠ .terminal by simp [htype])
      rw [← hcleared]
      exact Conditions.stamped_clear _ now .recoverable type
    · rw [Conditions.get?_clear_of_ne _ now htype]
      exact status.conditions.stamped_clear now .terminal type

/-! ### Steps -/

/-- What is done to the conditions of a status. -/
inductive ConditionStep
  | enter (verdict : Verdict)
  | setSynced (synced : Bool) (message : Option String)
  | set (type : ConditionType) (value : ConditionValue) (message : Option String)
  deriving DecidableEq, Repr

/-- A step and the time at which it takes place. -/
structure TimedStep where
  now : String
  step : ConditionStep
  deriving DecidableEq, Repr

namespace Status

/-- The status after a step, and whether the step is reported to have changed anything. -/
def report (status : Status) (timed : TimedStep) : Status × Bool :=
  match timed.step with
  | .enter verdict => status.fold timed.now verdict
  | .setSynced synced message => status.foldSynced timed.now synced message
  | .set type value message =>
    status.reported (status.setCondition timed.now type value message)

def take (status : Status) (timed : TimedStep) : Status := (status.report timed).1

/-- The status after a series of steps. -/
def takeAll (status : Status) (steps : List TimedStep) : Status := steps.foldl take status

def value? (status : Status) (type : ConditionType) : Option ConditionValue :=
  (status.conditions.get? type).map (·.value)

def time? (status : Status) (type : ConditionType) : Option String :=
  (status.conditions.get? type).bind (·.lastTransitionTime)

/-- The times of those steps at which the condition of a type appears or changes its value. -/
def flipTimes (type : ConditionType) : Status → List TimedStep → List String
  | _, [] => []
  | status, timed :: rest =>
    if (status.take timed).value? type = status.value? type then
      flipTimes type (status.take timed) rest
    else timed.now :: flipTimes type (status.take timed) rest

/-! ### What one step does -/

/-- What is reported is whether the step changes the status. -/
theorem report_eq (status : Status) (timed : TimedStep) :
    status.report timed = (status.take timed, status.take timed != status) := by
  obtain ⟨now, step⟩ := timed
  cases step <;> rfl

theorem keyed_take {status : Status} (h : status.conditions.Keyed) (timed : TimedStep) :
    (status.take timed).conditions.Keyed := by
  obtain ⟨now, step⟩ := timed
  cases step with
  | enter verdict => exact keyed_enter h now verdict
  | setSynced synced message => exact h.set now .synced (.ofBool synced) message
  | set type value message => exact h.set now type value message

theorem take_time? (status : Status) (timed : TimedStep) (type : ConditionType) :
    (status.take timed).time? type
      = if (status.take timed).value? type = status.value? type then status.time? type
        else some timed.now := by
  obtain ⟨now, step⟩ := timed
  cases step with
  | enter verdict => exact status.stamped_enter now verdict type
  | setSynced synced message => exact status.conditions.stamped_set now .synced type _ _
  | set other value message => exact status.conditions.stamped_set now other type _ _

theorem take_with_conditions (status : Status) (timed : TimedStep) (conditions : Conditions) :
    { status.take timed with conditions } = { status with conditions } := by
  obtain ⟨now, step⟩ := timed
  cases step <;> rfl

/-- A step that is repeated changes nothing. -/
theorem take_again (status : Status) (now later : String) (step : ConditionStep) :
    (status.take ⟨now, step⟩).take ⟨later, step⟩ = status.take ⟨now, step⟩ := by
  have hset : ∀ type value message,
      (status.setCondition now type value message).setCondition later type value message
        = status.setCondition now type value message := by
    intro type value message
    simp only [setCondition,
      Conditions.set_eq_self (status.conditions.says_set now type value message) later]
  cases step with
  | enter verdict => exact enter_eq_self (status.enter_shows now verdict) later
  | setSynced synced message => exact hset .synced _ message
  | set type value message => exact hset type value message

/-! ### What a series of steps does -/

theorem keyed_takeAll {start : Status} (h : start.conditions.Keyed) (steps : List TimedStep) :
    (start.takeAll steps).conditions.Keyed := by
  induction steps generalizing start with
  | nil => exact h
  | cons timed rest ih => exact ih (keyed_take h timed)

theorem takeAll_time? (start : Status) (steps : List TimedStep) (type : ConditionType) :
    (start.takeAll steps).time? type
      = (flipTimes type start steps).getLast?.or (start.time? type) := by
  induction steps generalizing start with
  | nil => rfl
  | cons timed rest ih =>
    have hrest : (start.takeAll (timed :: rest)).time? type
        = (flipTimes type (start.take timed) rest).getLast?.or ((start.take timed).time? type) :=
      ih (start.take timed)
    rw [hrest, take_time?, flipTimes]
    by_cases hkept : (start.take timed).value? type = start.value? type
    · rw [if_pos hkept, if_pos hkept]
    · rw [if_neg hkept, if_neg hkept, List.getLast?_cons]
      cases (flipTimes type (start.take timed) rest).getLast? <;> rfl

theorem takeAll_with_conditions (start : Status) (steps : List TimedStep)
    (conditions : Conditions) :
    { start.takeAll steps with conditions } = { start with conditions } := by
  induction steps generalizing start with
  | nil => rfl
  | cons timed rest ih => exact (ih (start.take timed)).trans (start.take_with_conditions timed _)

end Status

/-! ### The list that is written -/

namespace Conditions

theorem mem_values_iff {conditions : Conditions} (h : conditions.Keyed) (condition : Condition) :
    condition ∈ conditions.values ↔ conditions.get? condition.type = some condition := by
  rw [values, List.mem_filterMap]
  constructor
  · rintro ⟨type, -, hcondition⟩
    rwa [h type condition hcondition]
  · intro hcondition
    exact ⟨condition.type, by cases condition.type <;> decide, hcondition⟩

theorem types_values {conditions : Conditions} (h : conditions.Keyed) :
    conditions.values.map (·.type)
      = ConditionType.all.filter fun type => (conditions.get? type).isSome := by
  have htype : (fun type => (conditions.get? type).map (·.type))
      = Option.guard fun type => (conditions.get? type).isSome := by
    funext type
    rcases hcondition : conditions.get? type with _ | condition
    · simp [Option.guard, hcondition]
    · simp [Option.guard, hcondition, h type condition hcondition]
  rw [values, List.map_filterMap, htype, List.filterMap_eq_filter]

theorem types_values_nodup {conditions : Conditions} (h : conditions.Keyed) :
    (conditions.values.map (·.type)).Nodup := by
  rw [types_values h]
  exact List.filter_sublist.nodup (by decide)

end Conditions

/-- How the conditions of a status stand after a series of steps, and what one more step does. -/
structure Status.StoresConditions (start : Status) (steps : List TimedStep) : Prop where
  keyed : (start.takeAll steps).conditions.Keyed
  /-- What is written is a list with one condition at most of each type, the one that is stored
  under it. -/
  listed : ∃ list : List Condition,
    (start.takeAll steps).conditions.toJson = .list (list.map Condition.toJson) ∧
      (list.map (·.type)).Nodup ∧ ∀ condition, condition ∈ list ↔
        (start.takeAll steps).conditions.get? condition.type = some condition
  /-- A condition carries the time of the last step that made it or changed its value. -/
  time : ∀ type, (start.takeAll steps).time? type
    = (flipTimes type start steps).getLast?.or (start.time? type)
  terminal_keeps : ∀ now message,
    ((start.takeAll steps).take ⟨now, .enter (.terminal message)⟩).conditions.get? .recoverable
      = (start.takeAll steps).conditions.get? .recoverable
  success_makes_none : ∀ now type, (start.takeAll steps).conditions.get? type = none →
      ((start.takeAll steps).take ⟨now, .enter .success⟩).conditions.get? type = none
  recoverable_makes_none : ∀ now message,
    (start.takeAll steps).conditions.get? .terminal = none →
      ((start.takeAll steps).take ⟨now, .enter (.recoverable message)⟩).conditions.get? .terminal
        = none
  /-- Nothing but the conditions is changed. -/
  frame : { start.takeAll steps with conditions := start.conditions } = start
  repeated : ∀ past last, steps = past ++ [last] → ∀ later,
    (start.takeAll steps).report ⟨later, last.step⟩ = (start.takeAll steps, false)

/-- **Conditions over any series of steps.** Whatever status there is at the start, if its
conditions are stored under their own types, and whichever steps are taken at whatever times: each
type has one condition at most, which is stored under its own type and carries the time of the last
step that made it or changed its value; a terminal step leaves `Recoverable` and no step makes what
it is to clear; nothing but the conditions is changed; and a step that is repeated changes nothing
and reports so. -/
theorem Status.takeAll_storesConditions (start : Status) (hstart : start.conditions.Keyed)
    (steps : List TimedStep) : start.StoresConditions steps := by
  have hkeyed := keyed_takeAll hstart steps
  constructor
  case keyed => exact hkeyed
  case listed =>
    exact ⟨_, rfl, Conditions.types_values_nodup hkeyed, Conditions.mem_values_iff hkeyed⟩
  case time => exact start.takeAll_time? steps
  case terminal_keeps =>
    intro now message
    exact get?_enter_terminal _ now message (by decide)
  case success_makes_none =>
    intro now type hnone
    exact Conditions.get?_clear_of_none (Conditions.get?_clear_of_none hnone now .terminal) now
      .recoverable
  case recoverable_makes_none =>
    intro now message hnone
    apply Conditions.get?_clear_of_none _ now .terminal
    rw [Conditions.get?_set, if_neg (by decide), hnone]
  case frame => exact start.takeAll_with_conditions steps start.conditions
  case repeated =>
    rintro past ⟨now, step⟩ rfl later
    have hagain : (start.takeAll (past ++ [⟨now, step⟩])).take ⟨later, step⟩
        = start.takeAll (past ++ [⟨now, step⟩]) := by
      rw [takeAll, List.foldl_append]
      exact take_again _ now later step
    rw [report_eq, hagain, bne_self_eq_false]

/-- A terminal failure, then one that is retried, then a success. -/
theorem Status.takeAll_storesConditions_recovered :
    let start : Status :=
      { Status.empty with
        statusCode := some .active
        conditions := ⟨none, some ⟨.terminal, .yes, some "T0", some "invalid"⟩, none⟩ }
    let steps : List TimedStep :=
      [⟨"T1", .setSynced false (some "waiting")⟩, ⟨"T2", .enter (.recoverable "slow down")⟩,
        ⟨"T3", .set .synced .no (some "still waiting")⟩, ⟨"T4", .enter (.recoverable "slow")⟩,
        ⟨"T5", .enter .success⟩]
    start.conditions.Keyed ∧
      (start.takeAll steps).conditions
        = ⟨some ⟨.synced, .no, some "T1", some "still waiting"⟩,
            some ⟨.terminal, .no, some "T2", none⟩, some ⟨.recoverable, .no, some "T5", none⟩⟩ ∧
      start.StoresConditions steps := by
  intro start steps
  have hstart : start.conditions.Keyed := by decide
  exact ⟨hstart, by decide, takeAll_storesConditions start hstart steps⟩

end ManagedPrometheus
