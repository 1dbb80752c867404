import ManagedPrometheus.Proofs.History
import ManagedPrometheus.Proofs.Mutations
import ManagedPrometheus.Script

/-!
# The discipline of calls

Which calls a pass makes, in which order and how many, and what has to be known before each of them:
a resource is created only if the backend has just said that there is none, and it is changed or
deleted only in a phase that the backend has just reported and that admits it. The main statement,
`history_disciplined`, holds of every pass of every history.

The bound on the number of calls comes from the policy of the kind: a pass describes once and then
makes the calls of its concerns, two for tags and one for every other concern.
-/

namespace ManagedPrometheus

variable {σ : Type} {kind : Kind} {now : String} {settings : PassSettings}

/-! ### The latest phase -/

/-- The phase of a snapshot is the one that the description reports, or the stored one if it reports
none: neither the address nor a failed validation touches it. -/
@[simp] theorem Resource.snapshot_phase (desired : Resource kind) (key : ResourceKey)
    (object : WireObject) :
    (desired.snapshot now key object).phase = (desired.statusOrEmpty.observe object).phase := by
  simp only [snapshot, phase, phaseOf]
  split <;> rfl

/-- The phases in which a pass may ask for a change. -/
def MayChange (kind : Kind) (phase : Phase) : Prop :=
  phase ∉ [Phase.creating, .updating, .deleting, .unrecognized] ∧
    (kind = .workspace → phase = .active) ∧
    (kind = .ruleGroupsNamespace → phase ∉ [Phase.creationFailed, .updateFailed])

theorem decideByPhase_eq_none_iff {desired latest : Resource kind} :
    desired.decideByPhase latest = none ↔ MayChange kind latest.phase := by
  unfold Resource.decideByPhase MayChange
  generalize latest.phase = phase
  cases kind <;> cases phase <;> simp [Kind.policy, Phase.isTransient, Phase.isFailed]

theorem mayChange_of_decideAtOnce {desired latest : Resource kind}
    (h : desired.decideAtOnce latest = none) : MayChange kind latest.phase := by
  rcases hphase : desired.decideByPhase latest with _ | decision
  · exact decideByPhase_eq_none_iff.mp hphase
  · simp [Resource.decideAtOnce, hphase] at h

theorem mayChange_of_active {phase : Phase} (h : phase = .active) : MayChange kind phase := by
  rw [h]
  cases kind <;> simp [MayChange]

theorem mem_of_deletable {phase : Phase} (h : kind.policy.deletable phase = true) :
    phase ∈ [Phase.active, .creationFailed, .updateFailed] := by
  cases kind <;> cases phase <;> revert h <;> decide

/-! ### How many calls the parts of a pass make -/

theorem Reads.calls_length_le {desired : Resource kind} {made : List Exchange}
    {value : Except Failure (Option (Resource kind))} (h : Reads now desired made value) :
    made.length ≤ 1 := by
  cases h <;> simp

theorem Creates.calls_length_le {desired : Resource kind} {made : List Exchange}
    {decision : Decision kind} (h : Creates desired made decision) : made.length ≤ 1 := by
  cases h <;> simp

theorem Updates.calls_length_le {desired latest : Resource kind} {made : List Exchange}
    {decision : Decision kind} (h : Updates desired latest made decision) : made.length ≤ 3 := by
  cases h with
  | decided => simp
  | unidentified => simp
  | changing _ hmutations happlies =>
    have hprefix := happlies.calls_isPrefix.length_le
    have hle := mutations_length_le hmutations
    rw [List.length_map, List.length_map] at hprefix
    omega

/-! ### The discipline -/

/-- What a pass has to know before it makes a call. What it creates passes the local checks, and has
no address or has just been described as missing. What it changes or deletes has just been
described, in a phase that admits this. -/
def PassRecord.Warrants (record : PassRecord kind) : Call → Prop
  | .describe key => record.input.key? = some key
  | .create _ => record.task = .sync ∧ record.input.spec.problem? = none ∧
      (record.input.key? = none ∨
        ∃ key, record.input.key? = some key ∧ ⟨.describe key, .ok none⟩ ∈ record.exchanges)
  | .update _ => record.task = .sync ∧ ∃ key object, record.input.key? = some key ∧
      ⟨.describe key, .ok (some object)⟩ ∈ record.exchanges ∧
      MayChange kind (record.input.statusOrEmpty.observe object).phase
  | .delete key => record.task = .finalize ∧ ∃ object, record.input.key? = some key ∧
      ⟨.describe key, .ok (some object)⟩ ∈ record.exchanges ∧
      (record.input.statusOrEmpty.observe object).phase ∈
        [Phase.active, .creationFailed, .updateFailed]

/-- What a pass keeps to in its calls. -/
structure PassRecord.Disciplined (record : PassRecord kind) : Prop where
  /-- There is at most one description, and it comes first. -/
  describes_first : ∀ key, Call.describe key ∉ record.calls.tail
  calls_length_le : record.calls.length ≤ 4
  warranted : ∀ call ∈ record.calls, record.Warrants call

theorem mem_tail_append {α : Type} {first second : List α} {x : α} (hfirst : first.length ≤ 1)
    (h : x ∈ (first ++ second).tail) : x ∈ second := by
  rcases first with _ | ⟨a, _ | ⟨b, rest⟩⟩
  · exact List.mem_of_mem_tail h
  · exact h
  · simp at hfirst

theorem disciplined_of_unread {record : PassRecord kind} {failure : Failure}
    (hreads : Reads record.now record.input record.exchanges (.error failure)) :
    record.Disciplined := by
  have hlength : record.calls.length ≤ 1 := by
    rw [PassRecord.calls, List.length_map]
    exact hreads.calls_length_le
  refine ⟨?_, by omega, ?_⟩
  · intro key hmem
    cases mem_tail_append hlength ((List.append_nil record.calls).symm ▸ hmem)
  · intro call hmem
    obtain ⟨key, haddress, rfl⟩ := hreads.mem_calls hmem
    exact haddress

theorem disciplined_of_creating {record : PassRecord kind} {read made : List Exchange}
    {decision : Decision kind} (htask : record.task = .sync)
    (hexchanges : record.exchanges = read ++ made)
    (hreads : Reads record.now record.input read (.ok none))
    (hcreates : Creates record.input made decision) : record.Disciplined := by
  have hcalls : record.calls = read.map (·.call) ++ made.map (·.call) := by
    rw [PassRecord.calls, hexchanges, List.map_append]
  have hread := hreads.calls_length_le
  have hmade := hcreates.calls_length_le
  refine ⟨?_, ?_, ?_⟩
  · intro key hmem
    rw [hcalls] at hmem
    cases (hcreates.mem_calls (mem_tail_append (by simpa using hread) hmem)).2
  · rw [hcalls, List.length_append, List.length_map, List.length_map]
    omega
  · intro call hmem
    rw [hcalls] at hmem
    rcases List.mem_append.mp hmem with hmem | hmem
    · obtain ⟨key, haddress, rfl⟩ := hreads.mem_calls hmem
      exact haddress
    · obtain ⟨hvalid, rfl⟩ := hcreates.mem_calls hmem
      refine ⟨htask, hvalid, hreads.absence.imp_right ?_⟩
      rintro ⟨key, haddress, hdescribed⟩
      exact ⟨key, haddress, hexchanges ▸ List.mem_append_left made hdescribed⟩

theorem disciplined_of_updating {record : PassRecord kind} {key : ResourceKey}
    {object : WireObject} {made : List Exchange} {decision : Decision kind}
    (htask : record.task = .sync)
    (hexchanges : record.exchanges = ⟨.describe key, .ok (some object)⟩ :: made)
    (haddress : record.input.key? = some key)
    (hupdates : Updates record.input (record.input.snapshot record.now key object) made decision) :
    record.Disciplined := by
  have hcalls : record.calls = .describe key :: made.map (·.call) := by
    rw [PassRecord.calls, hexchanges, List.map_cons]
  have hmade := hupdates.calls_length_le
  refine ⟨?_, ?_, ?_⟩
  · intro other hmem
    rw [hcalls] at hmem
    obtain ⟨_, mutation, hcall⟩ := hupdates.mem_calls hmem
    cases hcall
  · rw [hcalls, List.length_cons, List.length_map]
    omega
  · intro call hmem
    rw [hcalls] at hmem
    rcases List.mem_cons.mp hmem with rfl | hmem
    · exact haddress
    · obtain ⟨hopen, mutation, rfl⟩ := hupdates.mem_calls hmem
      have hphase := mayChange_of_decideAtOnce hopen
      rw [Resource.snapshot_phase] at hphase
      exact ⟨htask, key, object, haddress, by simp [hexchanges], hphase⟩

theorem disciplined_of_deleting {record : PassRecord kind} {key : ResourceKey}
    {object : WireObject} {answer : Except Failure Unit} (htask : record.task = .finalize)
    (hexchanges : record.exchanges =
      [⟨.describe key, .ok (some object)⟩, ⟨.delete key, answer⟩])
    (haddress : record.input.key? = some key)
    (hallowed : kind.policy.deletable
      (record.input.snapshot record.now key object).phase = true) :
    record.Disciplined := by
  have hcalls : record.calls = [.describe key, .delete key] := by
    rw [PassRecord.calls, hexchanges, List.map_cons, List.map_singleton]
  refine ⟨?_, ?_, ?_⟩
  · intro other hmem
    simp [hcalls] at hmem
  · rw [hcalls]
    exact Nat.le_add_left 2 2
  · intro call hmem
    rw [hcalls] at hmem
    rcases List.mem_cons.mp hmem with rfl | hmem
    · exact haddress
    · obtain rfl := List.mem_singleton.mp hmem
      rw [Resource.snapshot_phase] at hallowed
      exact ⟨htask, object, haddress, by simp [hexchanges], mem_of_deletable hallowed⟩

/-- A pass that made no call or one description. -/
theorem disciplined_of_description {record : PassRecord kind} {key : ResourceKey}
    (haddress : record.input.key? = some key) (hcalls : record.calls = [.describe key]) :
    record.Disciplined := by
  refine ⟨by simp [hcalls], by simp [hcalls], ?_⟩
  intro call hmem
  rw [hcalls] at hmem
  obtain rfl := List.mem_singleton.mp hmem
  exact haddress

theorem PassRecord.Lawful.disciplined {record : PassRecord kind} (h : record.Lawful settings) :
    record.Disciplined := by
  obtain ⟨decision, _, ⟨htask, hsyncs⟩ | ⟨htask, hdeletes⟩⟩ := h.exit
  · generalize hexchanges : record.exchanges = exchanges at hsyncs
    cases hsyncs with
    | unread hreads => exact disciplined_of_unread (hexchanges ▸ hreads)
    | creating hreads hcreates => exact disciplined_of_creating htask hexchanges hreads hcreates
    | updating haddress hupdates =>
      exact disciplined_of_updating htask hexchanges haddress hupdates
  · generalize hexchanges : record.exchanges = exchanges at hdeletes
    cases hdeletes with
    | unaddressed =>
      have hcalls : record.calls = [] := by rw [PassRecord.calls, hexchanges, List.map_nil]
      exact ⟨by simp [hcalls], by simp [hcalls], by simp [hcalls]⟩
    | unread hreads => exact disciplined_of_unread (hexchanges ▸ hreads)
    | absent haddress =>
      exact disciplined_of_description haddress (by simp [PassRecord.calls, hexchanges])
    | blocked haddress =>
      exact disciplined_of_description haddress (by simp [PassRecord.calls, hexchanges])
    | refused haddress =>
      exact disciplined_of_description haddress (by simp [PassRecord.calls, hexchanges])
    | failed haddress hallowed =>
      exact disciplined_of_deleting htask hexchanges haddress hallowed
    | accepted haddress hallowed =>
      exact disciplined_of_deleting htask hexchanges haddress hallowed

/-- **The discipline of calls.** For every kind, all settings and every backend, each pass of each
history describes at most once and first, makes at most four calls, and makes each of them only with
the warrant that it needs. -/
theorem history_disciplined (backend : Backend σ) (settings : PassSettings)
    (rounds : List (Round kind)) (resource : Resource kind) (state : σ) :
    ∀ record ∈ history backend settings rounds resource state, record.Disciplined := by
  intro record hrecord
  exact (history_lawful backend settings rounds resource state record hrecord).disciplined

/-- A namespace whose tags and configuration both differ takes all four calls. -/
theorem history_disciplined_four_calls :
    let rules : Resource .ruleGroupsNamespace :=
      ⟨.empty, ⟨"rules", "ws-1", some "groups: []", .ofList [("team", "infra")]⟩, none⟩
    let found : WireObject :=
      { WireObject.empty with
        arn := some "arn"
        status := some ⟨"ACTIVE", none⟩
        tags := some (.ofList [("owner", "ops")]) }
    let script : Script := { Script.empty with describes := [.ok found] }
    let settings := Settings.default.passSettings ⟨none, none⟩
    let rounds : List (Round .ruleGroupsNamespace) := [⟨id, .sync, "T", false⟩]
    ∃ record ∈ history scripted settings rounds rules script,
      record.calls.map (·.api .ruleGroupsNamespace) =
          ["DescribeRuleGroupsNamespace", "UntagResource", "TagResource",
            "PutRuleGroupsNamespace"] ∧
        record.Disciplined := by
  intro rules found script settings rounds
  have hmem : (Round.run scripted settings ⟨id, .sync, "T", false⟩ rules script).1 ∈
      history scripted settings rounds rules script := List.mem_cons_self
  exact ⟨_, hmem, by decide, history_disciplined scripted settings rounds rules script _ hmem⟩

end ManagedPrometheus
