import ManagedPrometheus.Proofs.Course

/-!
# Exits of passes

A pass can end in about a dozen ways. For each part of a pass a relation lists them, one constructor
for each exit, with the exchanges that lead there and the decision that is taken: `Reads`,
`Creates`, `Applies`, `Updates` and `Deletes`, and `Syncs` for a whole pass over a resource that is
to exist. A claim about passes is then a case distinction over exits, and no proof but those of this
file opens the definitions of the passes.
-/

namespace ManagedPrometheus

variable {kind : Kind} {limit : Duration} {now : String} {settings : PassSettings}

/-! ### Reading -/

/-- The exits of a reading: what was exchanged, and the latest state or the failure. -/
inductive Reads (now : String) (desired : Resource kind) :
    List Exchange → Except Failure (Option (Resource kind)) → Prop
  | unaddressed (haddress : desired.key? = none) : Reads now desired [] (.ok none)
  | refused {key : ResourceKey} (haddress : desired.key? = some key) :
      Reads now desired [] (.error .cancelled)
  | failed {key : ResourceKey} {failure : Failure} (haddress : desired.key? = some key) :
      Reads now desired [⟨.describe key, .error failure⟩] (.error failure)
  | absent {key : ResourceKey} (haddress : desired.key? = some key) :
      Reads now desired [⟨.describe key, .ok none⟩] (.ok none)
  | found {key : ResourceKey} {object : WireObject} (haddress : desired.key? = some key) :
      Reads now desired [⟨.describe key, .ok (some object)⟩]
        (.ok (some (desired.snapshot now key object)))

theorem Reads.of_course {desired : Resource kind} {made : List Exchange}
    {value : Except Failure (Option (Resource kind))}
    (h : Course kind limit (desired.readLatest now) made value) : Reads now desired made value := by
  unfold Resource.readLatest at h
  rcases haddress : desired.key? with _ | key
  · simp only [haddress] at h
    obtain ⟨rfl, rfl⟩ := h.done_inv
    exact .unaddressed haddress
  · simp only [haddress] at h
    rcases h.ask_done_inv with ⟨rfl, rfl⟩ | ⟨result, rfl, rfl⟩
    · exact .refused haddress
    · rcases result with failure | _ | object
      · exact .failed haddress
      · exact .absent haddress
      · exact .found haddress

/-! ### Creating -/

/-- The exits of a create. -/
inductive Creates (desired : Resource kind) : List Exchange → Decision kind → Prop
  | invalid {problem : SpecProblem} (hproblem : desired.spec.problem? = some problem) :
      Creates desired [] ⟨desired, .failed (.invalidSpec problem.message)⟩
  | refused (hvalid : desired.spec.problem? = none) :
      Creates desired [] ⟨desired, .failed .cancelled⟩
  | failed {failure : Failure} (hvalid : desired.spec.problem? = none) :
      Creates desired [⟨.create desired.createRequest, .error failure⟩] ⟨desired, .failed failure⟩
  | created {object : WireObject} (hvalid : desired.spec.problem? = none) :
      Creates desired [⟨.create desired.createRequest, .ok object⟩]
        (desired.adoptCreated object).settled

theorem Creates.of_course {desired : Resource kind} {made : List Exchange}
    {decision : Decision kind} (h : Course kind limit desired.create made decision) :
    Creates desired made decision := by
  unfold Resource.create at h
  rcases hproblem : desired.spec.problem? with _ | problem
  · simp only [hproblem] at h
    cases h with
    | refused h =>
      obtain ⟨rfl, rfl⟩ := h.done_inv
      exact .refused hproblem
    | answered result _ h =>
      rcases result with failure | object
      · obtain ⟨rfl, rfl⟩ := h.done_inv
        exact .failed hproblem
      · obtain ⟨rfl, rfl⟩ := h.done_inv
        exact .created hproblem
  · simp only [hproblem] at h
    obtain ⟨rfl, rfl⟩ := h.done_inv
    exact .invalid hproblem

/-! ### Changing -/

/-- The exits of a series of changes: it stops at the first that is not made or fails, and the
reports up to there are folded in. -/
inductive Applies : Resource kind → List Mutation → List Exchange → Decision kind → Prop
  | finished {resource : Resource kind} : Applies resource [] [] resource.settled
  | refused {resource : Resource kind} {mutation : Mutation} {rest : List Mutation} :
      Applies resource (mutation :: rest) [] ⟨resource, .failed .cancelled⟩
  | failed {resource : Resource kind} {mutation : Mutation} {rest : List Mutation}
      {failure : Failure} :
      Applies resource (mutation :: rest) [⟨.update mutation, .error failure⟩]
        ⟨resource, .failed failure⟩
  | silent {resource : Resource kind} {mutation : Mutation} {rest : List Mutation}
      {made : List Exchange} {decision : Decision kind} (h : Applies resource rest made decision) :
      Applies resource (mutation :: rest) (⟨.update mutation, .ok none⟩ :: made) decision
  | reported {resource : Resource kind} {mutation : Mutation} {rest : List Mutation}
      {object : WireObject} {made : List Exchange} {decision : Decision kind}
      (h : Applies (resource.foldResponse object) rest made decision) :
      Applies resource (mutation :: rest) (⟨.update mutation, .ok (some object)⟩ :: made) decision

theorem Applies.of_course {resource : Resource kind} {mutations : List Mutation}
    {made : List Exchange} {decision : Decision kind}
    (h : Course kind limit (resource.applyAll mutations) made decision) :
    Applies resource mutations made decision := by
  induction mutations generalizing resource made with
  | nil =>
    obtain ⟨rfl, rfl⟩ := h.done_inv
    exact .finished
  | cons mutation rest ih =>
    rw [Resource.applyAll] at h
    cases h with
    | refused h =>
      obtain ⟨rfl, rfl⟩ := h.done_inv
      exact .refused
    | answered result _ h =>
      rcases result with failure | _ | object
      · obtain ⟨rfl, rfl⟩ := h.done_inv
        exact .failed
      · exact .silent (ih h)
      · exact .reported (ih h)

/-- The decision of an update that makes no call, none if there is something to change. -/
def Resource.decideAtOnce (desired latest : Resource kind) : Option (Decision kind) :=
  desired.decideByPhase latest <|> desired.decideByDelta latest

/-- The exits of an update. -/
inductive Updates (desired latest : Resource kind) : List Exchange → Decision kind → Prop
  | decided {decision : Decision kind} (hdecided : desired.decideAtOnce latest = some decision) :
      Updates desired latest [] decision
  | unidentified {failure : Failure} (hopen : desired.decideAtOnce latest = none)
      (hmutations : desired.mutations latest = .error failure) :
      Updates desired latest [] ⟨desired.withStatusOf latest, .failed failure⟩
  | changing {changes : List Mutation} {made : List Exchange} {decision : Decision kind}
      (hopen : desired.decideAtOnce latest = none)
      (hmutations : desired.mutations latest = .ok changes)
      (happlies : Applies (desired.withStatusOf latest) changes made decision) :
      Updates desired latest made decision

theorem Updates.of_course {desired latest : Resource kind} {made : List Exchange}
    {decision : Decision kind} (h : Course kind limit (desired.update latest) made decision) :
    Updates desired latest made decision := by
  unfold Resource.update at h
  rcases hdecided : desired.decideAtOnce latest with _ | decided
  · simp only [show (desired.decideByPhase latest <|> desired.decideByDelta latest) = none
      from hdecided] at h
    rcases hmutations : desired.mutations latest with failure | changes
    · simp only [hmutations] at h
      obtain ⟨rfl, rfl⟩ := h.done_inv
      exact .unidentified hdecided hmutations
    · simp only [hmutations] at h
      exact .changing hdecided hmutations (.of_course h)
  · simp only [show (desired.decideByPhase latest <|> desired.decideByDelta latest) = some decided
      from hdecided] at h
    obtain ⟨rfl, rfl⟩ := h.done_inv
    exact .decided hdecided

/-! ### Deleting -/

/-- The exits of a delete. -/
inductive Deletes (now : String) (resource : Resource kind) :
    List Exchange → Decision kind → Prop
  | unaddressed (haddress : resource.key? = none) :
      Deletes now resource [] ⟨resource, .deleted⟩
  | unread {made : List Exchange} {failure : Failure}
      (hreads : Reads now resource made (.error failure)) :
      Deletes now resource made ⟨resource, .failed failure⟩
  | absent {key : ResourceKey} (haddress : resource.key? = some key) :
      Deletes now resource [⟨.describe key, .ok none⟩] ⟨resource, .deleted⟩
  | blocked {key : ResourceKey} {object : WireObject} (haddress : resource.key? = some key)
      (hblocked : kind.policy.deletable (resource.snapshot now key object).phase = false) :
      Deletes now resource [⟨.describe key, .ok (some object)⟩]
        ⟨resource, .wait (.deleteBlocked (resource.snapshot now key object).phase)⟩
  | refused {key : ResourceKey} {object : WireObject} (haddress : resource.key? = some key)
      (hallowed : kind.policy.deletable (resource.snapshot now key object).phase = true) :
      Deletes now resource [⟨.describe key, .ok (some object)⟩]
        ⟨resource.snapshot now key object, .failed .cancelled⟩
  | failed {key : ResourceKey} {object : WireObject} {failure : Failure}
      (haddress : resource.key? = some key)
      (hallowed : kind.policy.deletable (resource.snapshot now key object).phase = true) :
      Deletes now resource [⟨.describe key, .ok (some object)⟩, ⟨.delete key, .error failure⟩]
        ⟨resource.snapshot now key object, .failed failure⟩
  | accepted {key : ResourceKey} {object : WireObject} (haddress : resource.key? = some key)
      (hallowed : kind.policy.deletable (resource.snapshot now key object).phase = true) :
      Deletes now resource [⟨.describe key, .ok (some object)⟩, ⟨.delete key, .ok ()⟩]
        ⟨resource.snapshot now key object, .wait (.inProgress .deleting)⟩

theorem Deletes.of_course {resource : Resource kind} {made : List Exchange}
    {decision : Decision kind} (h : Course kind limit (resource.delete now) made decision) :
    Deletes now resource made decision := by
  unfold Resource.delete at h
  rcases haddress : resource.key? with _ | key
  · simp only [haddress] at h
    obtain ⟨rfl, rfl⟩ := h.done_inv
    exact .unaddressed haddress
  · simp only [haddress] at h
    obtain ⟨first, second, latest, rfl, hfirst, h⟩ := h.bind_inv
    -- the address is known, so the reading has described it
    have hreads := Reads.of_course hfirst
    cases hreads with
    | unaddressed hnone => simp [haddress] at hnone
    | refused _ =>
      obtain ⟨rfl, rfl⟩ := h.done_inv
      exact .unread (.refused haddress)
    | failed hsome =>
      obtain ⟨rfl, rfl⟩ := h.done_inv
      exact .unread (.failed hsome)
    | absent hsome =>
      obtain ⟨rfl, rfl⟩ := h.done_inv
      exact .absent hsome
    | @found other object hsome =>
      obtain rfl : key = other := by simpa [haddress] using hsome
      by_cases hallowed : kind.policy.deletable (resource.snapshot now key object).phase = true
      · simp only [hallowed, if_true] at h
        cases h with
        | refused h =>
          obtain ⟨rfl, rfl⟩ := h.done_inv
          exact .refused haddress hallowed
        | answered result _ h =>
          rcases result with failure | ⟨⟩
          · obtain ⟨rfl, rfl⟩ := h.done_inv
            exact .failed haddress hallowed
          · obtain ⟨rfl, rfl⟩ := h.done_inv
            exact .accepted haddress hallowed
      · simp only [hallowed] at h
        obtain ⟨rfl, rfl⟩ := h.done_inv
        exact .blocked haddress (by simpa using hallowed)

/-! ### Whole passes -/

/-- The exits of a pass over a resource that is to exist, before the decision is summed up. -/
inductive Syncs (now : String) (desired : Resource kind) : List Exchange → Decision kind → Prop
  | unread {made : List Exchange} {failure : Failure}
      (hreads : Reads now desired made (.error failure)) :
      Syncs now desired made ⟨desired, .failed failure⟩
  | creating {read made : List Exchange} {decision : Decision kind}
      (hreads : Reads now desired read (.ok none)) (hcreates : Creates desired made decision) :
      Syncs now desired (read ++ made) decision
  | updating {key : ResourceKey} {object : WireObject} {made : List Exchange}
      {decision : Decision kind} (haddress : desired.key? = some key)
      (hupdates : Updates desired (desired.snapshot now key object) made decision) :
      Syncs now desired (⟨.describe key, .ok (some object)⟩ :: made) decision

theorem Syncs.of_course {desired : Resource kind} {made : List Exchange}
    {result : PassResult kind}
    (h : Course kind limit (desired.sync settings now) made result) :
    ∃ decision, Syncs now desired made decision ∧
      result = desired.conclude settings now decision := by
  obtain ⟨read, rest, latest, rfl, hread, h⟩ := h.bind_inv
  have hreads := Reads.of_course hread
  rcases latest with failure | latest?
  · obtain ⟨rfl, rfl⟩ := h.done_inv
    exact ⟨_, by simpa using Syncs.unread hreads, rfl⟩
  · simp only [Resource.reconcile] at h
    obtain ⟨first, second, decision, rfl, hfirst, h⟩ := h.bind_inv
    obtain ⟨rfl, rfl⟩ := h.done_inv
    refine ⟨decision, ?_, rfl⟩
    rw [List.append_nil]
    cases hreads with
    | unaddressed haddress => exact .creating (.unaddressed haddress) (.of_course hfirst)
    | absent haddress => exact .creating (.absent haddress) (.of_course hfirst)
    | found haddress => exact .updating haddress (.of_course hfirst)

theorem Deletes.of_finalize_course {resource : Resource kind} {made : List Exchange}
    {result : PassResult kind}
    (h : Course kind limit (resource.finalize settings now) made result) :
    ∃ decision, Deletes now resource made decision ∧
      result = resource.conclude settings now decision := by
  obtain ⟨first, second, decision, rfl, hfirst, h⟩ := h.bind_inv
  obtain ⟨rfl, rfl⟩ := h.done_inv
  exact ⟨decision, by simpa using Deletes.of_course hfirst, rfl⟩

/-! ### Calls -/

theorem Reads.mem_calls {desired : Resource kind} {made : List Exchange}
    {value : Except Failure (Option (Resource kind))} (h : Reads now desired made value)
    {call : Call} (hmem : call ∈ made.map (·.call)) :
    ∃ key, desired.key? = some key ∧ call = .describe key := by
  cases h with
  | unaddressed => simp at hmem
  | refused => simp at hmem
  | failed haddress => exact ⟨_, haddress, by simpa using hmem⟩
  | absent haddress => exact ⟨_, haddress, by simpa using hmem⟩
  | found haddress => exact ⟨_, haddress, by simpa using hmem⟩

/-- A resource that is read as absent has no address, or the backend has just said that there is
none under its address. -/
theorem Reads.absence {desired : Resource kind} {made : List Exchange}
    (h : Reads now desired made (.ok none)) :
    desired.key? = none ∨
      ∃ key, desired.key? = some key ∧ ⟨.describe key, .ok none⟩ ∈ made := by
  cases h with
  | unaddressed haddress => exact .inl haddress
  | @absent key haddress => exact .inr ⟨key, haddress, List.mem_singleton.mpr rfl⟩

theorem Reads.eq_of_absent {resource : Resource kind} {made : List Exchange}
    (h : Reads now resource made (.ok none)) {key : ResourceKey}
    (haddress : resource.key? = some key) : made = [⟨.describe key, .ok none⟩] := by
  cases h with
  | unaddressed hnone => cases haddress.symm.trans hnone
  | absent hsame =>
    cases haddress.symm.trans hsame
    rfl

theorem Creates.mem_calls {desired : Resource kind} {made : List Exchange}
    {decision : Decision kind} (h : Creates desired made decision) {call : Call}
    (hmem : call ∈ made.map (·.call)) :
    desired.spec.problem? = none ∧ call = .create desired.createRequest := by
  cases h with
  | invalid => simp at hmem
  | refused => simp at hmem
  | failed hvalid => exact ⟨hvalid, by simpa using hmem⟩
  | created hvalid => exact ⟨hvalid, by simpa using hmem⟩

/-- The calls of a series of changes are the first ones of the series. -/
theorem Applies.calls_isPrefix {resource : Resource kind} {changes : List Mutation}
    {made : List Exchange} {decision : Decision kind}
    (h : Applies resource changes made decision) :
    made.map (·.call) <+: changes.map Call.update := by
  induction h with
  | finished => exact List.prefix_refl _
  | refused => exact List.nil_prefix
  | failed => simp
  | silent _ ih => simpa using ih
  | reported _ ih => simpa using ih

/-- Changes of which one fails end with its failure. -/
theorem Applies.outcome_of_failed {resource : Resource kind} {changes : List Mutation}
    {made : List Exchange} {decision : Decision kind} (h : Applies resource changes made decision)
    {mutation : Mutation} {failure : Failure}
    (hmem : ⟨.update mutation, .error failure⟩ ∈ made) : decision.outcome = .failed failure := by
  induction h with
  | finished => cases hmem
  | refused => cases hmem
  | failed =>
    cases List.mem_singleton.mp hmem
    rfl
  | silent _ ih =>
    rcases List.mem_cons.mp hmem with hsame | hmem
    · cases hsame
    · exact ih hmem
  | reported _ ih =>
    rcases List.mem_cons.mp hmem with hsame | hmem
    · cases hsame
    · exact ih hmem

/-- A single change that fails leaves the resource as it is. -/
theorem Applies.resource_of_single {resource : Resource kind} {change mutation : Mutation}
    {made : List Exchange} {decision : Decision kind} {failure : Failure}
    (h : Applies resource [change] made decision)
    (hmem : ⟨.update mutation, .error failure⟩ ∈ made) : decision.resource = resource := by
  cases h with
  | refused => cases hmem
  | failed => rfl
  | silent h =>
    cases h
    cases List.mem_singleton.mp hmem
  | reported h =>
    cases h
    cases List.mem_singleton.mp hmem

theorem Updates.mem_calls {desired latest : Resource kind} {made : List Exchange}
    {decision : Decision kind} (h : Updates desired latest made decision) {call : Call}
    (hmem : call ∈ made.map (·.call)) :
    desired.decideAtOnce latest = none ∧ ∃ mutation, call = .update mutation := by
  cases h with
  | decided => simp at hmem
  | unidentified => simp at hmem
  | changing hopen _ happlies =>
    obtain ⟨mutation, _, rfl⟩ := List.mem_map.mp (happlies.calls_isPrefix.subset hmem)
    exact ⟨hopen, mutation, rfl⟩

theorem Deletes.mem_calls {resource : Resource kind} {made : List Exchange}
    {decision : Decision kind} (h : Deletes now resource made decision) {call : Call}
    (hmem : call ∈ made.map (·.call)) :
    ∃ key, resource.key? = some key ∧ (call = .describe key ∨ call = .delete key) := by
  cases h with
  | unaddressed => simp at hmem
  | unread hreads =>
    obtain ⟨key, haddress, hcall⟩ := hreads.mem_calls hmem
    exact ⟨key, haddress, .inl hcall⟩
  | absent haddress => exact ⟨_, haddress, .inl (by simpa using hmem)⟩
  | blocked haddress => exact ⟨_, haddress, .inl (by simpa using hmem)⟩
  | refused haddress => exact ⟨_, haddress, .inl (by simpa using hmem)⟩
  | failed haddress => exact ⟨_, haddress, by simpa using hmem⟩
  | accepted haddress => exact ⟨_, haddress, by simpa using hmem⟩

theorem Deletes.eq_of_deleted {resource : Resource kind} {made : List Exchange}
    {decision : Decision kind} (h : Deletes now resource made decision) {key : ResourceKey}
    (haddress : resource.key? = some key) (hdeleted : decision.outcome = .deleted) :
    made = [⟨.describe key, .ok none⟩] := by
  cases h with
  | unaddressed hnone => cases haddress.symm.trans hnone
  | absent hsame =>
    cases haddress.symm.trans hsame
    rfl
  | unread | blocked | refused | failed | accepted => cases hdeleted

theorem Syncs.of_create_call {desired : Resource kind} {made : List Exchange}
    {decision : Decision kind} (h : Syncs now desired made decision) {request : Request}
    (hmem : .create request ∈ made.map (·.call)) :
    desired.spec.problem? = none ∧ request = desired.createRequest := by
  cases h with
  | unread hreads =>
    obtain ⟨_, _, hcall⟩ := hreads.mem_calls hmem
    cases hcall
  | creating hreads hcreates =>
    rw [List.map_append] at hmem
    rcases List.mem_append.mp hmem with hmem | hmem
    · obtain ⟨_, _, hcall⟩ := hreads.mem_calls hmem
      cases hcall
    · obtain ⟨hvalid, hcall⟩ := hcreates.mem_calls hmem
      exact ⟨hvalid, Call.create.inj hcall⟩
  | updating _ hupdates =>
    rcases List.mem_cons.mp hmem with hcall | hmem
    · cases hcall
    · obtain ⟨_, _, hcall⟩ := hupdates.mem_calls hmem
      cases hcall

theorem Syncs.eq_of_create {desired : Resource kind} {made : List Exchange}
    {decision : Decision kind} (h : Syncs now desired made decision) {key : ResourceKey}
    (haddress : desired.key? = some key) {request : Request}
    (hcreate : .create request ∈ made.map (·.call)) :
    ∃ rest, made = ⟨.describe key, .ok none⟩ :: rest := by
  cases h with
  | unread hreads =>
    obtain ⟨_, _, hcall⟩ := hreads.mem_calls hcreate
    cases hcall
  | creating hreads hcreates =>
    rw [hreads.eq_of_absent haddress]
    exact ⟨_, rfl⟩
  | updating _ hupdates =>
    rcases List.mem_cons.mp hcreate with hcall | hcall
    · cases hcall
    · obtain ⟨_, _, hcall⟩ := hupdates.mem_calls hcall
      cases hcall

/-- The answer to a create is taken over. -/
theorem Syncs.of_created {desired : Resource kind} {made : List Exchange}
    {decision : Decision kind} (h : Syncs now desired made decision) {request : Request}
    {object : WireObject} (hmem : ⟨.create request, .ok object⟩ ∈ made) :
    request = desired.createRequest ∧ decision = (desired.adoptCreated object).settled := by
  have hcall : Call.create request ∈ made.map (·.call) :=
    List.mem_map_of_mem (f := (·.call)) hmem
  cases h with
  | unread hreads =>
    obtain ⟨key, _, hkey⟩ := hreads.mem_calls hcall
    cases hkey
  | creating hreads hcreates =>
    rcases List.mem_append.mp hmem with hmem | hmem
    · obtain ⟨key, _, hkey⟩ := hreads.mem_calls (List.mem_map_of_mem (f := (·.call)) hmem)
      cases hkey
    · cases hcreates with
      | invalid => cases hmem
      | refused => cases hmem
      | failed => cases List.mem_singleton.mp hmem
      | created =>
        cases List.mem_singleton.mp hmem
        exact ⟨rfl, rfl⟩
  | updating _ hupdates =>
    rcases List.mem_cons.mp hcall with hkey | hcall
    · cases hkey
    · obtain ⟨_, mutation, hkey⟩ := hupdates.mem_calls hcall
      cases hkey

/-- A pass that was told of the resource has gone on to an update. -/
theorem Syncs.updates_of_described {desired : Resource kind} {made : List Exchange}
    {decision : Decision kind} (h : Syncs now desired made decision) {key : ResourceKey}
    {object : WireObject} (hmem : ⟨.describe key, .ok (some object)⟩ ∈ made) :
    desired.key? = some key ∧
      ∃ rest, made = ⟨.describe key, .ok (some object)⟩ :: rest ∧
        Updates desired (desired.snapshot now key object) rest decision := by
  cases h with
  | unread hreads =>
    cases hreads with
    | refused => cases hmem
    | failed => cases List.mem_singleton.mp hmem
  | creating hreads hcreates =>
    rcases List.mem_append.mp hmem with hmem | hmem
    · cases hreads with
      | unaddressed => cases hmem
      | absent => cases List.mem_singleton.mp hmem
    · cases (hcreates.mem_calls (List.mem_map_of_mem (f := (·.call)) hmem)).2
  | updating haddress hupdates =>
    rcases List.mem_cons.mp hmem with hsame | hmem
    · cases hsame
      exact ⟨haddress, _, rfl, hupdates⟩
    · obtain ⟨_, _, hcall⟩ := hupdates.mem_calls (List.mem_map_of_mem (f := (·.call)) hmem)
      cases hcall

/-- A pass that asks for a change was told of the resource. -/
theorem Syncs.described_of_update {desired : Resource kind} {made : List Exchange}
    {decision : Decision kind} (h : Syncs now desired made decision) {mutation : Mutation}
    (hmem : .update mutation ∈ made.map (·.call)) :
    ∃ key object, ⟨.describe key, .ok (some object)⟩ ∈ made := by
  cases h with
  | unread hreads =>
    obtain ⟨_, _, hcall⟩ := hreads.mem_calls hmem
    cases hcall
  | creating hreads hcreates =>
    rw [List.map_append] at hmem
    rcases List.mem_append.mp hmem with hmem | hmem
    · obtain ⟨_, _, hcall⟩ := hreads.mem_calls hmem
      cases hcall
    · cases (hcreates.mem_calls hmem).2
  | updating => exact ⟨_, _, List.mem_cons_self⟩

end ManagedPrometheus
