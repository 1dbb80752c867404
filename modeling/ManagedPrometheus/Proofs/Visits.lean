import ManagedPrometheus.Proofs.Cluster

/-!
# Ways of a visit

A visit is a pass between two writes, each of which may be left out. The relation `Visits` lists the
ways that it can go, one constructor for each, with the steps that are made; every turn takes one of
them (`Turn.run_visits`), whatever the backend answers and whatever others do to the object. What a
claim assumes of the others is about a `view` of the object that they leave as it is.
-/

namespace ManagedPrometheus

variable {σ α : Type} {kind : Kind}

/-! ### Running a visit -/

/-- What a session has done before does not matter to what it does next. -/
theorem Session.run_frame (session : Session σ) (backend : Backend σ) (limit : Duration)
    (pass : Pass α) :
    let ended := (Session.start session.backend session.cancelled).run backend kind limit pass
    session.run backend kind limit pass
      = (ended.1, ⟨ended.2.backend, ended.2.cancelled,
          session.exchanges ++ ended.2.exchanges⟩) := by
  induction pass generalizing session with
  | done value => simp [run_done, start]
  | ask call next ih =>
    obtain ⟨state, _ | _, exchanges⟩ := session
    · simp only [start, run_ask]
      rw [ih, ih _ ⟨_, _, [] ++ _⟩]
      simp
    · simpa [start, run, perform] using ih (.error .cancelled) ⟨state, true, exchanges⟩

namespace Scene

variable (backend : Backend σ) (limit : Duration)

theorem resume_start (scene : Scene σ kind) :
    scene.resume (Session.start scene.backend scene.cancelled) = scene := by
  simp [resume, Session.start]

/-- A pass in a visit is a session that goes on from there. -/
theorem run_ofPass (pass : Pass α) (scene : Scene σ kind) :
    let ended := (Session.start scene.backend scene.cancelled).run backend kind limit pass
    (Visit.ofPass pass).run (answer backend limit) scene = (ended.1, scene.resume ended.2) := by
  induction pass generalizing scene with
  | done value => exact congrArg (Prod.mk value) scene.resume_start.symm
  | ask call next ih =>
    let answered := Session.perform backend kind limit call
      (Session.start scene.backend scene.cancelled)
    have hnext := ih answered.1 (scene.resume answered.2)
    have hsession : (Session.start scene.backend scene.cancelled).run backend kind limit
        (.ask call next) = answered.2.run backend kind limit (next answered.1) := rfl
    rw [hsession, answered.2.run_frame backend limit (next answered.1)]
    refine Eq.trans hnext ?_
    simp [resume, answered]

theorem run_send (scene : Scene σ kind) {write : Write} (h : write.name ≠ "") :
    (Visit.send write).run (answer backend limit) scene = scene.write write := by
  rw [Visit.send, if_neg (by simpa using h)]
  rfl

end Scene

/-! ### Ways of a visit -/

namespace Turn

/-- Others leave what `view` shows of the object as it is. -/
structure Leaves (turn : Turn kind) (view : Stored kind → α) : Prop where
  edit : ∀ stored, view (turn.edit stored) = view stored
  meanwhile : ∀ delivery ∈ turn.deliveries, ∀ stored, view (delivery.meanwhile stored) = view stored

/-- No write is turned down, and every report of a write arrives. -/
def Reliable (turn : Turn kind) : Prop :=
  ∀ delivery ∈ turn.deliveries, delivery.fate = .accepted

/-- What can surround a write of the turn. -/
def Offers (turn : Turn kind) (delivery : Delivery kind) : Prop :=
  delivery = .prompt ∨ delivery ∈ turn.deliveries

/-- A write was sent while `stored` was stored. -/
structure Sends (turn : Turn kind) (stored : Stored kind) (write : Write) (accepted : Bool)
    (step : Step kind) : Prop where
  deed : step.deed = .wrote write accepted
  arrival : ∃ delivery, turn.Offers delivery ∧ step.before = delivery.meanwhile stored ∧
    delivery.bring stored write = (accepted, step.after)

/-- A resource that is not guarded is guarded first. -/
inductive Opens (turn : Turn kind) (read : Stored kind) : List (Step kind) → Stored kind → Prop
  | guarded (h : read.resource.isGuarded = true) : Opens turn read [] read
  | guarding {step : Step kind} (hunmarked : read.resource.isMarkedForDeletion = false)
      (hunguarded : read.resource.isGuarded = false)
      (hsends : turn.Sends read read.resource.guardWrite true step) :
      Opens turn read [step] step.after

/-- A visit ends with its last write, if there is one to make. -/
inductive Closes (turn : Turn kind) (stored : Stored kind) (result : PassResult kind) :
    Option Write → List (Step kind) → Stored kind → Visit kind → Prop
  | quiet : Closes turn stored result none [] stored (.ended result)
  | accepted {write : Write} {step : Step kind} (hsends : turn.Sends stored write true step) :
      Closes turn stored result (some write) [step] step.after (.ended result)
  | refused {write : Write} {step : Step kind} (hsends : turn.Sends stored write false step) :
      Closes turn stored result (some write) [step] step.after .broken

/-- The ways of a visit. -/
inductive Visits (turn : Turn kind) (settings : PassSettings) (read : Stored kind) :
    List (Step kind) → Stored kind → Visit kind → Prop
  | skipped (hmarked : read.resource.isMarkedForDeletion = true)
      (hunguarded : read.resource.isGuarded = false) : Visits turn settings read [] read .skipped
  | unguarded {step : Step kind} (hunmarked : read.resource.isMarkedForDeletion = false)
      (hunguarded : read.resource.isGuarded = false)
      (hsends : turn.Sends read read.resource.guardWrite false step) :
      Visits turn settings read [step] step.after .broken
  | passed {opening closing : List (Step kind)} {stored left : Stored kind} {visit : Visit kind}
      {pass : PassRecord kind} (hopens : turn.Opens read opening stored)
      (htask : pass.task = if read.resource.isMarkedForDeletion then .finalize else .sync)
      (hnow : pass.now = turn.now) (hinput : pass.input = read.resource)
      (hlawful : pass.Lawful settings)
      (hcloses : turn.Closes stored pass.result
        (Visit.closingWrite? read.resource pass.result) closing left visit) :
      Visits turn settings read
        (opening ++ pass.exchanges.map (Step.ofExchange stored) ++ closing) left visit

end Turn

/-! ### Writes -/

namespace Turn.Sends

variable {turn : Turn kind} {stored : Stored kind} {write : Write} {accepted : Bool}
  {step : Step kind}

theorem kept (h : turn.Sends stored write accepted step) {view : Stored kind → α}
    (hleaves : turn.Leaves view) : view step.before = view stored := by
  obtain ⟨delivery, hoffers, hbefore, -⟩ := h.arrival
  rw [hbefore]
  rcases hoffers with rfl | hmem
  · rfl
  · exact hleaves.meanwhile delivery hmem stored

theorem effect (h : turn.Sends stored write accepted step) :
    step.before.receive? write = some step.after ∨ accepted = false ∧ step.after = step.before := by
  obtain ⟨delivery, -, hbefore, hbring⟩ := h.arrival
  rw [Delivery.bring, ← hbefore] at hbring
  rcases hfate : delivery.fate with _ | _ | _ <;>
    rcases hafter : step.before.receive? write with _ | after <;>
    simp_all

/-- A write of finalizers that is reported as applied is. -/
theorem after_of_finalizers (h : turn.Sends stored write accepted step)
    {resource : Resource kind} {names : List String}
    (hwrite : write = resource.finalizersWrite names) :
    step.after = step.before.withFinalizers names ∨
      accepted = false ∧ step.after = step.before := by
  subst hwrite
  have happlies := step.before.receive?_finalizersWrite resource names
  rcases h.effect with hafter | hrefused
  · exact .inl (Option.some.inj (hafter.symm.trans happlies))
  · exact .inr hrefused

/-- A write that can be applied is, where no write gets lost. -/
theorem accepted_of_reliable (h : turn.Sends stored write accepted step)
    (hreliable : turn.Reliable) {after : Stored kind}
    (happlies : step.before.receive? write = some after) :
    accepted = true ∧ step.after = after := by
  obtain ⟨delivery, hoffers, hbefore, hbring⟩ := h.arrival
  have hfate : delivery.fate = .accepted := by
    rcases hoffers with rfl | hmem
    · rfl
    · exact hreliable delivery hmem
  rw [Delivery.bring, ← hbefore, hfate, happlies] at hbring
  obtain ⟨haccepted, hafter⟩ := Prod.mk.inj hbring
  exact ⟨haccepted.symm, hafter.symm⟩

end Turn.Sends

namespace Turn

variable {turn : Turn kind} {settings : PassSettings} {read stored left : Stored kind}

theorem Opens.sends {opening : List (Step kind)} (h : turn.Opens read opening stored)
    {step : Step kind} (hstep : step ∈ opening) :
    turn.Sends read read.resource.guardWrite true step := by
  cases h with
  | guarded => cases hstep
  | guarding _ _ hsends => rwa [List.mem_singleton.mp hstep]

theorem Closes.sends {result : PassResult kind} {write? : Option Write}
    {closing : List (Step kind)} {visit : Visit kind}
    (h : turn.Closes stored result write? closing left visit) {step : Step kind}
    (hstep : step ∈ closing) :
    ∃ write accepted, write? = some write ∧ turn.Sends stored write accepted step := by
  cases h with
  | quiet => cases hstep
  | accepted hsends =>
    obtain rfl := List.mem_singleton.mp hstep
    exact ⟨_, true, rfl, hsends⟩
  | refused hsends =>
    obtain rfl := List.mem_singleton.mp hstep
    exact ⟨_, false, rfl, hsends⟩

/-- Whatever a visit wrote was sent. -/
theorem Visits.sends {steps : List (Step kind)} {visit : Visit kind}
    (h : turn.Visits settings read steps left visit) {step : Step kind} (hstep : step ∈ steps)
    {write : Write} {accepted : Bool} (hdeed : step.deed = .wrote write accepted) :
    ∃ stored, turn.Sends stored write accepted step := by
  have hsent {stored : Stored kind} {sent : Write} {reported : Bool}
      (hsends : turn.Sends stored sent reported step) :
      ∃ stored, turn.Sends stored write accepted step := by
    obtain ⟨rfl, rfl⟩ := Deed.wrote.inj (hdeed.symm.trans hsends.deed)
    exact ⟨stored, hsends⟩
  cases h with
  | skipped => cases hstep
  | unguarded _ _ hsends =>
    obtain rfl := List.mem_singleton.mp hstep
    exact hsent hsends
  | passed hopens _ _ _ _ hcloses =>
    rcases List.mem_append.mp hstep with hstep | hclosing
    · rcases List.mem_append.mp hstep with hopening | hcall
      · exact hsent (hopens.sends hopening)
      · obtain ⟨exchange, -, rfl⟩ := List.mem_map.mp hcall
        cases hdeed
    · obtain ⟨sent, reported, -, hsends⟩ := hcloses.sends hclosing
      exact hsent hsends

end Turn

/-- What a visit writes at its end. -/
theorem Visit.closingWrite?_eq_some {read : Resource kind} {result : PassResult kind}
    {write : Write} (h : Visit.closingWrite? read result = some write) :
    (read.isMarkedForDeletion = true ∧ result.outcome = .deleted ∧ write = read.releaseWrite) ∨
      (read.status ≠ result.resource.status ∧
        write = read.writeTo .status (Status.patch read.status result.resource.status)) := by
  rw [Visit.closingWrite?] at h
  split at h
  · rename_i hgone
    obtain rfl := Option.some.inj h
    obtain ⟨hmarked, hdeleted⟩ : read.isMarkedForDeletion = true ∧ result.outcome = .deleted := by
      simpa using hgone
    exact .inl ⟨hmarked, hdeleted, rfl⟩
  · rw [Resource.statusWrite?] at h
    split at h
    · cases h
    · rename_i hdiffer
      obtain rfl := Option.some.inj h
      exact .inr ⟨hdiffer, rfl⟩

/-- A visit that writes nothing at its end found the status as its pass returned it. -/
theorem Visit.closingWrite?_eq_none {read : Resource kind} {result : PassResult kind}
    (h : Visit.closingWrite? read result = none) : read.status = result.resource.status := by
  rw [Visit.closingWrite?] at h
  split at h
  · cases h
  · rw [Resource.statusWrite?] at h
    split at h
    · assumption
    · cases h

/-! ### Every turn takes one of the ways -/

namespace Scene

variable {turn : Turn kind} {backend : Backend σ} {limit : Duration}

/-- What is left of a turn's deliveries surrounds the next writes of a scene. -/
def Within (scene : Scene σ kind) (turn : Turn kind) : Prop :=
  ∀ delivery ∈ scene.deliveries, delivery ∈ turn.deliveries

theorem Within.offers {scene : Scene σ kind} (h : scene.Within turn) :
    turn.Offers scene.delivery := by
  rcases hdeliveries : scene.deliveries with _ | ⟨next, rest⟩
  · exact .inl (by rw [delivery, hdeliveries]; rfl)
  · refine .inr ?_
    rw [delivery, hdeliveries]
    exact h next (hdeliveries ▸ List.mem_cons_self)

theorem Within.write {scene : Scene σ kind} (h : scene.Within turn) (write : Write) :
    (scene.write write).2.Within turn :=
  fun delivery hmem => h delivery (List.mem_of_mem_tail hmem)

theorem Within.sends {scene : Scene σ kind} (h : scene.Within turn) (write : Write) :
    ∃ step, (scene.write write).2.steps = scene.steps ++ [step] ∧
      step.after = (scene.write write).2.stored ∧
        turn.Sends scene.stored write (scene.write write).1 step :=
  ⟨_, rfl, rfl, rfl, scene.delivery, h.offers, rfl, rfl⟩

theorem Within.run_closeWith {scene : Scene σ kind} (h : scene.Within turn)
    (result : PassResult kind) {write? : Option Write}
    (hnamed : ∀ write ∈ write?, write.name ≠ "") :
    let ended := (Visit.closeWith result write?).run (answer backend limit) scene
    ∃ closing, ended.2.steps = scene.steps ++ closing ∧
      turn.Closes scene.stored result write? closing ended.2.stored ended.1 := by
  rcases write? with _ | write
  · exact ⟨[], (List.append_nil _).symm, .quiet⟩
  · obtain ⟨step, hsteps, hafter, hsends⟩ := h.sends write
    simp only [Visit.closeWith, Plan.run_bind, run_send _ _ scene (hnamed write rfl), Plan.run_done]
    refine ⟨[step], hsteps, ?_⟩
    rw [← hafter]
    rcases haccepted : (scene.write write).1 with _ | _
    · exact .refused (haccepted ▸ hsends)
    · exact .accepted (haccepted ▸ hsends)

/-- A pass, after what was done to be allowed to make it. -/
theorem Within.run_runPass {scene : Scene σ kind} (h : scene.Within turn) (backend : Backend σ)
    (settings : PassSettings) {read : Stored kind} {task : Task}
    (hopens : turn.Opens read scene.steps scene.stored)
    (htask : task = if read.resource.isMarkedForDeletion then .finalize else .sync) :
    let ended := (Visit.runPass read.resource (task.pass settings turn.now read.resource)).run
      (answer backend settings.callTimeout) scene
    turn.Visits settings read ended.2.steps ended.2.stored ended.1 := by
  let ended := (Session.start scene.backend scene.cancelled).run backend kind settings.callTimeout
    (task.pass settings turn.now read.resource)
  let pass : PassRecord kind :=
    ⟨task, turn.now, read.resource, ended.2.exchanges, ended.1⟩
  have hlawful : pass.Lawful settings := Course.of_run backend _ scene.backend scene.cancelled
  have hnamed : ∀ write ∈ Visit.closingWrite? read.resource pass.result, write.name ≠ "" := by
    intro write hwrite
    obtain ⟨-, -, rfl⟩ | ⟨-, rfl⟩ := Visit.closingWrite?_eq_some hwrite
    · exact read.named
    · exact read.named
  have hresumed : (scene.resume ended.2).Within turn := h
  obtain ⟨closing, hsteps, hcloses⟩ := hresumed.run_closeWith pass.result hnamed
  simp only [Visit.runPass, Plan.run_bind, run_ofPass]
  rw [hsteps]
  exact .passed hopens htask rfl rfl hlawful hcloses

end Scene

/-- Every turn takes one of the ways of a visit. -/
theorem Turn.run_visits (backend : Backend σ) (settings : PassSettings) (turn : Turn kind)
    (stored : Stored kind) (state : σ) :
    let record := (turn.run backend settings stored state).1
    turn.Visits settings record.read record.steps record.left record.visit := by
  let read := turn.edit stored
  let scene : Scene σ kind := ⟨state, turn.cancelled, read, turn.deliveries, []⟩
  have hwithin : scene.Within turn := fun _ => id
  simp only [Turn.run, Visit.plan]
  by_cases hmarked : read.resource.isMarkedForDeletion = true
  · rw [if_pos hmarked]
    by_cases hguarded : read.resource.isGuarded = true
    · rw [if_pos hguarded]
      exact hwithin.run_runPass backend settings (.guarded hguarded) (if_pos hmarked).symm
    · rw [if_neg hguarded]
      exact .skipped hmarked (Bool.eq_false_iff.mpr hguarded)
  · rw [if_neg hmarked]
    by_cases hguarded : read.resource.isGuarded = true
    · rw [if_pos hguarded]
      exact hwithin.run_runPass backend settings (.guarded hguarded) (if_neg hmarked).symm
    · have hname : read.resource.guardWrite.name ≠ "" := read.named
      obtain ⟨step, hsteps, hafter, hsends⟩ := hwithin.sends read.resource.guardWrite
      have hunmarked := Bool.eq_false_iff.mpr hmarked
      have hunguarded := Bool.eq_false_iff.mpr hguarded
      rw [if_neg hguarded, Plan.run_bind, Scene.run_send _ _ scene hname]
      -- a pass is made only if the write that guards the object is reported as applied
      rcases haccepted : (scene.write read.resource.guardWrite).1 with _ | _
      · rw [if_neg Bool.false_ne_true, Plan.run_done, hsteps, ← hafter]
        exact .unguarded hunmarked hunguarded (haccepted ▸ hsends)
      · rw [if_pos rfl]
        have hopens : turn.Opens read (scene.write read.resource.guardWrite).2.steps
            (scene.write read.resource.guardWrite).2.stored := by
          rw [hsteps, ← hafter]
          exact .guarding hunmarked hunguarded (haccepted ▸ hsends)
        exact (hwithin.write read.resource.guardWrite).run_runPass backend settings hopens
          (if_neg hmarked).symm

/-- The record is one of a visit of the turn. -/
structure VisitRecord.MadeIn (record : VisitRecord kind) (turn : Turn kind)
    (settings : PassSettings) : Prop where
  now : record.now = turn.now
  visits : turn.Visits settings record.read record.steps record.left record.visit

theorem Turn.run_madeIn (backend : Backend σ) {settings : PassSettings} (turn : Turn kind)
    (stored : Stored kind) (state : σ) :
    (turn.run backend settings stored state).1.MadeIn turn settings :=
  ⟨rfl, turn.run_visits backend settings stored state⟩

/-! ### Series of visits -/

/-- A visit of a series is one of its turns, and the visits after it are a series of their own. -/
theorem exists_turn_of_watch_eq (backend : Backend σ) (settings : PassSettings)
    {turns : List (Turn kind)} {stored : Stored kind} {state : σ}
    {before after : List (VisitRecord kind)} {record : VisitRecord kind}
    (h : watch backend settings turns stored state = before ++ record :: after) :
    ∃ turn ∈ turns, ∃ rest, (∀ later ∈ rest, later ∈ turns) ∧ ∃ last reached,
      record = (turn.run backend settings last reached).1 ∧
        after = watch backend settings rest record.left
          (turn.run backend settings last reached).2 := by
  induction turns generalizing before stored state with
  | nil => simp [watch] at h
  | cons turn rest ih =>
    rcases before with _ | ⟨first, others⟩
    · obtain ⟨rfl, rfl⟩ := List.cons.inj h
      exact ⟨turn, List.mem_cons_self, rest, fun later => List.mem_cons_of_mem turn, stored, state,
        rfl, rfl⟩
    · obtain ⟨-, hrest⟩ := List.cons.inj h
      obtain ⟨found, hfound, later, hlater, hrun⟩ := ih hrest
      exact ⟨found, List.mem_cons_of_mem turn hfound, later,
        fun other hother => List.mem_cons_of_mem turn (hlater other hother), hrun⟩

theorem madeIn_of_mem_watch {backend : Backend σ} {settings : PassSettings}
    {turns : List (Turn kind)} {stored : Stored kind} {state : σ} {record : VisitRecord kind}
    (h : record ∈ watch backend settings turns stored state) :
    ∃ turn ∈ turns, record.MadeIn turn settings := by
  obtain ⟨before, after, hsplit⟩ := List.append_of_mem h
  obtain ⟨turn, hturn, -, -, last, reached, rfl, -⟩ :=
    exists_turn_of_watch_eq backend settings hsplit
  exact ⟨turn, hturn, turn.run_madeIn backend last reached⟩

end ManagedPrometheus
