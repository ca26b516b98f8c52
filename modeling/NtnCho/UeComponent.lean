import NtnCho.Ue

/-!
# A UE as a component

Every handler is a function over the global variables, yet UE `i` is touched by the ticks and by its
own scheduled phases alone, and each of them reads nothing of the other UEs. `ueComponent` packages
this; `AnyOrderRun.toUe` and `SimRun.toUe` turn a run of a simulator into a run of `ueHandler`, and
`ueRun_invariant` is the induction rule for such runs.
-/

namespace NtnCho

open EventSystem

variable {P : Program} {env : Env}

/-! ## The handler of one UE -/

/-- What an event does to UE `i`, with the effects. -/
def ueAction (P : Program) (env : Env) (i : ℕ) (event : Event) (now : ℤ) (ue : UeInfo) :
    UeInfo × List Effect :=
  match event with
  | .checkHandoverConditions => ueTick P env i (getSeconds now) ue
  | .cho handler _ sourceCell targetCell =>
      choHandler P env handler i sourceCell targetCell (getSeconds now) ue
  | .evaluatePendingPrediction _ => (ue, [])

theorem ueAction_tick (i : ℕ) (now : ℤ) (ue : UeInfo) :
    ueAction P env i .checkHandoverConditions now ue = ueTick P env i (getSeconds now) ue := rfl

theorem ueAction_cho (i ueId : ℕ) (handler : ChoHandler) (sourceCell targetCell : String) (now : ℤ)
    (ue : UeInfo) :
    ueAction P env i (.cho handler ueId sourceCell targetCell) now ue =
      choHandler P env handler i sourceCell targetCell (getSeconds now) ue := rfl

/-- The event of a phase that UE `i` schedules at `now`. -/
def scheduledPhase (i : ℕ) (now : ℤ) (phase : ℚ × ChoHandler × String × String) :
    Pending ℤ Event :=
  ⟨now + seconds phase.1, .cho phase.2.1 i phase.2.2.1 phase.2.2.2⟩

/-- A tick schedules the next one. -/
def nextTick (event : Event) (now : ℤ) : Schedule :=
  match event with
  | .checkHandoverConditions => [⟨now + seconds 1, .checkHandoverConditions⟩]
  | _ => []

/-- The handler of UE `i`; it does nothing when there is no such UE. -/
def ueHandler (P : Program) (env : Env) (i : ℕ) : Handler ℤ (Option UeInfo) Event :=
  fun event now ue? =>
    match ue? with
    | none => (none, nextTick event now)
    | some ue =>
        let (ue', effects) := ueAction P env i event now ue
        (some ue', (phases effects).map (scheduledPhase i now) ++ nextTick event now)

/-- The completion of a handover. -/
def Event.isCompletion : Event → Bool
  | .cho .phase7ExecutionComplete _ _ _ => true
  | _ => false

/-- The events that concern UE `i`. -/
def Event.concerns (i : ℕ) : Event → Bool
  | .checkHandoverConditions => true
  | .cho _ ueId _ _ => ueId == i
  | .evaluatePendingPrediction _ => false

/-- The events of a schedule that concern UE `i`. -/
def Schedule.of (i : ℕ) (schedule : Schedule) : Schedule :=
  schedule.filter fun q => q.ev.concerns i

@[simp] theorem Schedule.of_nil (i : ℕ) : Schedule.of i [] = [] := rfl

@[simp] theorem Schedule.of_append (i : ℕ) (l l' : Schedule) :
    Schedule.of i (l ++ l') = Schedule.of i l ++ Schedule.of i l' := List.filter_append ..

theorem Schedule.of_phases (i : ℕ) (now : ℤ) (l : List (ℚ × ChoHandler × String × String)) :
    Schedule.of i (l.map (scheduledPhase i now)) = l.map (scheduledPhase i now) := by
  apply List.filter_eq_self.mpr
  intro q member
  obtain ⟨phase, _, rfl⟩ := List.mem_map.mp member
  simp [scheduledPhase, Event.concerns]

/-! ## Effects on the global state -/

@[simp] theorem Sim.record_ues (now : ℤ) (s : Sim) (r : RecordEffect) :
    (s.record now r).1.ues = s.ues := by cases r <;> rfl

@[simp] theorem Sim.applyEffect_ues (now : ℤ) (s : Sim) (effect : Effect) :
    (s.applyEffect now effect).1.ues = s.ues := by
  cases effect with
  | record r => exact s.record_ues now r
  | schedule => rfl
  | stat => rfl
  | handoverCount => rfl

@[simp] theorem Sim.applyEffects_ues (now : ℤ) (s : Sim) (effects : List Effect) :
    (s.applyEffects now effects).1.ues = s.ues := by
  induction effects generalizing s with
  | nil => rfl
  | cons effect effects ih => exact (ih _).trans (s.applyEffect_ues now effect)

theorem Sim.applyEffects_append (now : ℤ) (s : Sim) (effects effects' : List Effect) :
    s.applyEffects now (effects ++ effects') =
      (((s.applyEffects now effects).1.applyEffects now effects').1,
        (s.applyEffects now effects).2 ++
          ((s.applyEffects now effects).1.applyEffects now effects').2) := by
  induction effects generalizing s with
  | nil => rfl
  | cons effect effects ih =>
      simp only [List.cons_append, Sim.applyEffects, ih, List.append_assoc]

/-- Of its own effects, a UE sees the phases they schedule. -/
theorem Sim.of_applyEffect_own {i : ℕ} {effect : Effect} (now : ℤ) (s : Sim)
    (own : effect.OwnedBy i) :
    Schedule.of i (s.applyEffect now effect).2 = effect.phase.map (scheduledPhase i now) := by
  cases effect with
  | record r => cases r <;> rfl
  | schedule delay handler ueId sourceCell targetCell =>
      obtain rfl : ueId = i := own
      exact Schedule.of_phases ueId now [(delay, handler, sourceCell, targetCell)]
  | stat => rfl
  | handoverCount => rfl

/-- Of the effects of another UE, a UE sees nothing. -/
theorem Sim.of_applyEffect_other {i j : ℕ} {effect : Effect} (now : ℤ) (s : Sim)
    (own : effect.OwnedBy j) (other : j ≠ i) :
    Schedule.of i (s.applyEffect now effect).2 = [] := by
  cases effect with
  | record r => cases r <;> rfl
  | schedule delay handler ueId sourceCell targetCell =>
      obtain rfl : ueId = j := own
      simp [Sim.applyEffect, Schedule.of, Event.concerns, other]
  | stat => rfl
  | handoverCount => rfl

theorem Sim.of_applyEffects_own {i : ℕ} (now : ℤ) (s : Sim) (effects : List Effect)
    (own : ∀ effect ∈ effects, effect.OwnedBy i) :
    Schedule.of i (s.applyEffects now effects).2 =
      (phases effects).map (scheduledPhase i now) := by
  induction effects generalizing s with
  | nil => rfl
  | cons effect effects ih =>
      have first := s.of_applyEffect_own now (own effect List.mem_cons_self)
      have rest := ih (s.applyEffect now effect).1
        fun effect member => own effect (List.mem_cons_of_mem _ member)
      simp only [Sim.applyEffects, Schedule.of_append, first, rest, phases, List.flatMap_cons,
        List.map_append]

theorem Sim.of_applyEffects_other {i : ℕ} (now : ℤ) (s : Sim) (effects : List Effect)
    (own : ∀ effect ∈ effects, ∃ j, j ≠ i ∧ effect.OwnedBy j) :
    Schedule.of i (s.applyEffects now effects).2 = [] := by
  induction effects generalizing s with
  | nil => rfl
  | cons effect effects ih =>
      obtain ⟨j, other, owned⟩ := own effect List.mem_cons_self
      have first := s.of_applyEffect_other now owned other
      have rest := ih (s.applyEffect now effect).1
        fun effect member => own effect (List.mem_cons_of_mem _ member)
      simp only [Sim.applyEffects, Schedule.of_append, first, rest, List.append_nil]

/-! ## The loop over all UEs -/

section Loop

variable {body : ℕ → UeInfo → UeInfo × List Effect}

theorem forEachUe_getElem? (k i : ℕ) (ues : List UeInfo) :
    (forEachUe body k ues).1[i]? = ues[i]?.map fun ue => (body (k + i) ue).1 := by
  induction ues generalizing k i with
  | nil => rfl
  | cons ue ues ih =>
      cases i with
      | zero => rfl
      | succ i =>
          rw [forEachUe, List.getElem?_cons_succ, List.getElem?_cons_succ, ih,
            show k + 1 + i = k + (i + 1) by omega]

theorem forEachUe_map (f : UeInfo → UeInfo) (k : ℕ) (ues : List UeInfo) :
    forEachUe body k (ues.map f) = forEachUe (fun i ue => body i (f ue)) k ues := by
  induction ues generalizing k with
  | nil => rfl
  | cons ue ues ih => simp [forEachUe, ih]

variable (owned : ∀ i ue, ∀ effect ∈ (body i ue).2, effect.OwnedBy i)

include owned

/-- The effects of a loop from index `k` on are owned by UEs from `k` on. -/
theorem forEachUe_owned {k : ℕ} {ues : List UeInfo} {effect : Effect}
    (member : effect ∈ (forEachUe body k ues).2) : ∃ j, k ≤ j ∧ effect.OwnedBy j := by
  induction ues generalizing k with
  | nil => cases member
  | cons ue ues ih =>
      rcases List.mem_append.mp member with first | rest
      · exact ⟨k, le_rfl, owned k ue effect first⟩
      · obtain ⟨j, later, own⟩ := ih rest
        exact ⟨j, by omega, own⟩

/-- Of all that a loop does, UE `k + i` sees the phases of its own round. -/
theorem Sim.of_applyEffects_forEachUe (now : ℤ) (s : Sim) (k i : ℕ) (ues : List UeInfo) :
    Schedule.of (k + i) (s.applyEffects now (forEachUe body k ues).2).2 =
      match ues[i]? with
      | none => []
      | some ue => (phases (body (k + i) ue).2).map (scheduledPhase (k + i) now) := by
  induction ues generalizing k i s with
  | nil => rfl
  | cons ue ues ih =>
      simp only [forEachUe, Sim.applyEffects_append, Schedule.of_append]
      cases i with
      | zero =>
          have own := s.of_applyEffects_own now (body k ue).2 (owned k ue)
          have others := Sim.of_applyEffects_other (i := k) now
            (s.applyEffects now (body k ue).2).1 (forEachUe body (k + 1) ues).2
            fun effect member => by
              obtain ⟨j, later, own⟩ := forEachUe_owned owned member
              exact ⟨j, by omega, own⟩
          simp only [Nat.add_zero, own, others, List.append_nil, List.getElem?_cons_zero]
      | succ i =>
          have first := Sim.of_applyEffects_other (i := k + (i + 1)) now s (body k ue).2
            fun effect member => ⟨k, by omega, owned k ue effect member⟩
          have rest := ih (s.applyEffects now (body k ue).2).1 (k + 1) i
          rw [show k + 1 + i = k + (i + 1) by omega] at rest
          rw [first, rest, List.nil_append, List.getElem?_cons_succ]

end Loop

/-! ## The component -/

theorem ownedBy_ueTick {i : ℕ} {simTime : ℚ} {ue : UeInfo} {effect : Effect}
    (member : effect ∈ (ueTick P env i simTime ue).2) : effect.OwnedBy i := by
  obtain ⟨ue₁, _, action⟩ := ueTick_spec P env i simTime ue
  exact action.ownedBy member

@[simp] theorem Sim.verify_ues (simTime : ℚ) (s : Sim) :
    ((s.verifyPendingMeasurements simTime).verifyPendingServingSnrFollowups simTime).ues = s.ues :=
  rfl

@[simp] theorem Sim.evaluatePendingPrediction_ues (now : ℤ) (r : PendingPredictionEval) (s : Sim) :
    (s.evaluatePendingPrediction now r).ues = s.ues := by
  unfold Sim.evaluatePendingPrediction
  dsimp only
  split
  · rfl
  · split <;> rfl

/-- The verifications of a tick. -/
def Sim.verified (P : Program) (env : Env) (simTime : ℚ) (s : Sim) : Sim :=
  let measured : Sim :=
    { s with
      ues := (s.ues.map (updateChannelCache P env simTime)).map (updateChannelState P env simTime) }
  (measured.verifyPendingMeasurements simTime).verifyPendingServingSnrFollowups simTime

/-- A tick is a loop of `ueTick` over all UEs. -/
theorem Sim.checkHandoverConditions_eq (now : ℤ) (s : Sim) :
    s.checkHandoverConditions P env now =
      (({ s.verified P env (getSeconds now) with
            ues := (forEachUe (fun i => ueTick P env i (getSeconds now)) 0 s.ues).1 }.applyEffects now
          (forEachUe (fun i => ueTick P env i (getSeconds now)) 0 s.ues).2).1,
        ({ s.verified P env (getSeconds now) with
            ues := (forEachUe (fun i => ueTick P env i (getSeconds now)) 0 s.ues).1 }.applyEffects now
          (forEachUe (fun i => ueTick P env i (getSeconds now)) 0 s.ues).2).2 ++
          [⟨now + seconds 1, .checkHandoverConditions⟩]) := by
  have loop : forEachUe (fun i => checkHandover P env i (getSeconds now)) 0
      ((s.ues.map (updateChannelCache P env (getSeconds now))).map
        (updateChannelState P env (getSeconds now))) =
      forEachUe (fun i => ueTick P env i (getSeconds now)) 0 s.ues := by
    rw [forEachUe_map, forEachUe_map]
    rfl
  simp only [Sim.checkHandoverConditions, Sim.verify_ues, loop]
  rfl

theorem Sim.checkHandoverConditions_getElem? (now : ℤ) (s : Sim) (i : ℕ) :
    (s.checkHandoverConditions P env now).1.ues[i]? =
      s.ues[i]?.map fun ue => (ueTick P env i (getSeconds now) ue).1 := by
  rw [Sim.checkHandoverConditions_eq]
  simp only [Sim.applyEffects_ues, forEachUe_getElem?, Nat.zero_add]

theorem Sim.checkHandoverConditions_of (now : ℤ) (s : Sim) (i : ℕ) :
    Schedule.of i (s.checkHandoverConditions P env now).2 =
      (match s.ues[i]? with
        | none => []
        | some ue =>
            (phases (ueTick P env i (getSeconds now) ue).2).map (scheduledPhase i now)) ++
        nextTick .checkHandoverConditions now := by
  have tick : Schedule.of i [⟨now + seconds 1, .checkHandoverConditions⟩] =
      [⟨now + seconds 1, .checkHandoverConditions⟩] := rfl
  have owned : ∀ i ue, ∀ effect ∈ (ueTick P env i (getSeconds now) ue).2, effect.OwnedBy i :=
    fun i ue effect => ownedBy_ueTick
  have loop := fun s' => Sim.of_applyEffects_forEachUe owned now s' 0 i s.ues
  simp only [Nat.zero_add] at loop
  rw [Sim.checkHandoverConditions_eq, Schedule.of_append, loop, tick]
  rfl

/-- UE `i` as a component of a simulator. -/
def ueComponent (P : Program) (env : Env) (i : ℕ) :
    Component (simHandler P env) (Option UeInfo) where
  view s := s.ues[i]?
  rel := Event.concerns i
  handler := ueHandler P env i
  view_rel := by
    intro event now s rel
    cases event with
    | checkHandoverConditions =>
        refine (Sim.checkHandoverConditions_getElem? now s i).trans ?_
        cases s.ues[i]? <;> rfl
    | cho handler ueId sourceCell targetCell =>
        obtain rfl : ueId = i := by simpa [Event.concerns] using rel
        simp only [simHandler, Sim.cho]
        split
        · rename_i absent
          simp [ueHandler, absent]
        · rename_i ue present
          obtain ⟨bound, rfl⟩ := List.getElem?_eq_some_iff.mp present
          simp [ueHandler, ueAction, bound]
    | evaluatePendingPrediction => cases rel
  sched_rel := by
    intro event now s rel
    cases event with
    | checkHandoverConditions =>
        refine (Sim.checkHandoverConditions_of now s i).trans ?_
        cases s.ues[i]? <;> rfl
    | cho handler ueId sourceCell targetCell =>
        obtain rfl : ueId = i := by simpa [Event.concerns] using rel
        simp only [simHandler, Sim.cho]
        split
        · rename_i absent
          simp [ueHandler, absent, nextTick]
        · rename_i ue present
          refine (Sim.of_applyEffects_own now _ _ fun effect => ownedBy_choHandler).trans ?_
          simp [ueHandler, ueAction, present, nextTick]
    | evaluatePendingPrediction => cases rel
  view_irrel := by
    intro event now s irrel
    cases event with
    | checkHandoverConditions => cases irrel
    | cho handler ueId sourceCell targetCell =>
        have other : ueId ≠ i := by simpa [Event.concerns] using irrel
        simp only [simHandler, Sim.cho]
        split
        · rfl
        · simp [other]
    | evaluatePendingPrediction r => simp [simHandler]
  sched_irrel := by
    intro event now s irrel
    cases event with
    | checkHandoverConditions => cases irrel
    | cho handler ueId sourceCell targetCell =>
        have other : ueId ≠ i := by simpa [Event.concerns] using irrel
        simp only [simHandler, Sim.cho]
        split
        · rfl
        · exact Sim.of_applyEffects_other now _ _
            fun effect member => ⟨ueId, other, ownedBy_choHandler member⟩
    | evaluatePendingPrediction r => rfl

/-! ## Runs of one UE -/

/-- The start of a simulation, seen from UE `i`. -/
def ueInitial (env : Env) (rows : List UeRow) (i : ℕ) : Conf ℤ (Option UeInfo) Event :=
  ⟨rows[i]?.map (initialUe env i), [⟨0, .checkHandoverConditions⟩]⟩

theorem ueComponent_initial (P : Program) (env : Env) (rows : List UeRow) (i : ℕ) :
    (ueComponent P env i).conf (initial env rows) = ueInitial env rows i := by
  simp only [Component.conf, ueComponent, initial, ueInitial, List.getElem?_mapIdx]
  rfl

theorem Event.conflict_of_concerns {i : ℕ} {e e' : Event} (concerns : e.concerns i = true)
    (concerns' : e'.concerns i = true) : e.conflict e' := by
  cases e <;> cases e' <;> simp_all [Event.concerns, Event.conflict]

section Run

variable {rows : List UeRow} {h : List (Firing ℤ Sim Event)} {c : Conf ℤ Sim Event}

/-- A run, seen from UE `i`. -/
theorem AnyOrderRun.toUe (run : AnyOrderRun P env rows h c) (i : ℕ) :
    Run (ueHandler P env i) anyOrder (ueInitial env rows i) ((ueComponent P env i).history h)
      ((ueComponent P env i).conf c) := by
  have projected := Component.run_project (ueComponent P env i).projects_anyOrder run
  rwa [ueComponent_initial] at projected

/-- A run in time order, seen from UE `i`: its events fire first-in first-out. -/
theorem SimRun.toUe (run : SimRun P env rows h c) (i : ℕ) :
    Run (ueHandler P env i) fifo (ueInitial env rows i) ((ueComponent P env i).history h)
      ((ueComponent P env i).conf c) := by
  have projected := Component.run_project
    ((ueComponent P env i).projects_fifo Event.conflict_of_concerns) run
  rwa [ueComponent_initial] at projected

end Run

/-- What a firing of a UE's event does. -/
structure UeStep (P : Program) (env : Env) (i : ℕ) (ue : UeInfo) (p : Pending ℤ Event)
    (pre post : Schedule) (c' : Conf ℤ (Option UeInfo) Event) : Prop where
  state : c'.state = some (ueAction P env i p.ev p.ts ue).1
  queue : c'.queue = pre ++ post ++
    ((phases (ueAction P env i p.ev p.ts ue).2).map (scheduledPhase i p.ts) ++ nextTick p.ev p.ts)

theorem ueStep {ok : Policy ℤ Event} {i : ℕ} {c c' : Conf ℤ (Option UeInfo) Event}
    {p : Pending ℤ Event} {ue : UeInfo} (step : Step (ueHandler P env i) ok c p c')
    (present : c.state = some ue) :
    ∃ pre post, c.queue = pre ++ p :: post ∧ ok pre p post ∧ UeStep P env i ue p pre post c' := by
  cases step with
  | @fire s pre p post allowed =>
      obtain rfl : s = some ue := present
      exact ⟨pre, post, rfl, allowed, rfl, rfl⟩

/-- The UE after one of its events. -/
theorem ueState_of_step {ok : Policy ℤ Event} {i : ℕ} {c c' : Conf ℤ (Option UeInfo) Event}
    {p : Pending ℤ Event} {ue : UeInfo} (step : Step (ueHandler P env i) ok c p c')
    (present : c.state = some ue) : c'.state = some (ueAction P env i p.ev p.ts ue).1 := by
  obtain ⟨_, _, -, -, state, -⟩ := ueStep step present
  exact state

/-- Only events that concern UE `i` are pending for it, and only ticks when there is no such UE. -/
def UeQueue (i : ℕ) (c : Conf ℤ (Option UeInfo) Event) : Prop :=
  ∀ q ∈ c.queue, q.ev.concerns i = true ∧
    (c.state = none → q.ev = .checkHandoverConditions)

theorem nextTick_ev {event : Event} {now : ℤ} {q : Pending ℤ Event}
    (member : q ∈ nextTick event now) : q.ev = .checkHandoverConditions := by
  cases event with
  | checkHandoverConditions =>
      obtain rfl := List.mem_singleton.mp member
      rfl
  | cho => cases member
  | evaluatePendingPrediction => cases member

theorem UeQueue.step {ok : Policy ℤ Event} {i : ℕ} {c c' : Conf ℤ (Option UeInfo) Event}
    {p : Pending ℤ Event} (queue : UeQueue i c) (step : Step (ueHandler P env i) ok c p c') :
    UeQueue i c' := by
  cases step with
  | @fire s pre p post allowed =>
      intro q member
      rcases List.mem_append.mp member with old | new
      · obtain ⟨concerns, tick⟩ := queue q (by
          rcases List.mem_append.mp old with old | old <;> simp [old])
        refine ⟨concerns, fun absent => tick ?_⟩
        cases s with
        | none => rfl
        | some ue => cases absent
      · cases s with
        | none =>
            have tick := nextTick_ev new
            exact ⟨by rw [tick]; rfl, fun _ => tick⟩
        | some ue =>
            refine ⟨?_, fun absent => by cases absent⟩
            rcases List.mem_append.mp new with phase | tick
            · obtain ⟨phase, _, rfl⟩ := List.mem_map.mp phase
              simp [scheduledPhase, Event.concerns]
            · rw [nextTick_ev tick]
              rfl

theorem ueQueue_of_run {ok : Policy ℤ Event} {i : ℕ} {rows : List UeRow}
    {h : List (Firing ℤ (Option UeInfo) Event)} {c : Conf ℤ (Option UeInfo) Event}
    (run : Run (ueHandler P env i) ok (ueInitial env rows i) h c) : UeQueue i c := by
  refine run.invariant ?_ UeQueue.step
  intro q member
  obtain rfl := List.mem_singleton.mp member
  exact ⟨rfl, fun _ => rfl⟩

/-- A UE stays when it is there, and there is none without a row. -/
theorem ueRun_isSome {ok : Policy ℤ Event} {i : ℕ} {rows : List UeRow}
    {h : List (Firing ℤ (Option UeInfo) Event)} {c : Conf ℤ (Option UeInfo) Event}
    (run : Run (ueHandler P env i) ok (ueInitial env rows i) h c) :
    c.state.isSome = rows[i]?.isSome := by
  refine run.invariant (I := fun c => c.state.isSome = rows[i]?.isSome) Option.isSome_map ?_
  intro c p c' known step
  cases step with
  | @fire s pre p post _ =>
      rw [← known]
      cases s <;> rfl

theorem ueRun_isSome_of_mem {ok : Policy ℤ Event} {i : ℕ} {rows : List UeRow}
    {h : List (Firing ℤ (Option UeInfo) Event)} {c : Conf ℤ (Option UeInfo) Event}
    (run : Run (ueHandler P env i) ok (ueInitial env rows i) h c)
    {f : Firing ℤ (Option UeInfo) Event} (member : f ∈ h) {ue : UeInfo}
    (present : f.before.state = some ue) : c.state.isSome = true := by
  have known := ueRun_isSome run
  obtain ⟨h₁, h₂, rfl⟩ := List.append_of_mem member
  rw [known, ← ueRun_isSome run.split.1, present]
  rfl

/-- **The invariant rule for one UE**, for what may depend on its history. -/
theorem ueRun_history {ok : Policy ℤ Event} {i : ℕ} {rows : List UeRow}
    {h : List (Firing ℤ (Option UeInfo) Event)} {c : Conf ℤ (Option UeInfo) Event}
    {I : List (Firing ℤ (Option UeInfo) Event) → Conf ℤ (Option UeInfo) Event → UeInfo → Prop}
    (run : Run (ueHandler P env i) ok (ueInitial env rows i) h c)
    (init : ∀ {row}, rows[i]? = some row → I [] (ueInitial env rows i) (initialUe env i row))
    (keep : ∀ {h c p c' ue}, Run (ueHandler P env i) ok (ueInitial env rows i) h c →
      Step (ueHandler P env i) ok c p c' → c.state = some ue → p.ev.concerns i = true → I h c ue →
      I (h ++ [⟨c, p, c'⟩]) c' (ueAction P env i p.ev p.ts ue).1) :
    ∀ {ue}, c.state = some ue → I h c ue := by
  induction run with
  | nil =>
      intro ue present
      obtain ⟨row, atRow, rfl⟩ := Option.map_eq_some_iff.mp present
      exact init atRow
  | @snoc h c c' p prior step ih =>
      intro ue' present'
      have concerns := (ueQueue_of_run prior p step.mem_queue).1
      cases state : c.state with
      | none =>
          cases step with
          | fire allowed =>
              obtain rfl : _ = none := state
              cases present'
      | some ue =>
          have state' := ueState_of_step step state
          obtain rfl : (ueAction P env i p.ev p.ts ue).1 = ue' := by
            rw [state'] at present'
            exact Option.some.inj present'
          exact keep prior step state concerns (ih state)

/-- The invariant rule for what depends on the state and the queue. -/
theorem ueRun_invariant {ok : Policy ℤ Event} {i : ℕ} {rows : List UeRow}
    {h : List (Firing ℤ (Option UeInfo) Event)} {c : Conf ℤ (Option UeInfo) Event}
    {I : Conf ℤ (Option UeInfo) Event → UeInfo → Prop}
    (run : Run (ueHandler P env i) ok (ueInitial env rows i) h c)
    (init : ∀ {row}, rows[i]? = some row → I (ueInitial env rows i) (initialUe env i row))
    (keep : ∀ {c p c' ue}, c.state = some ue → p.ev.concerns i = true → I c ue →
      Step (ueHandler P env i) ok c p c' → I c' (ueAction P env i p.ev p.ts ue).1) :
    ∀ {ue}, c.state = some ue → I c ue :=
  ueRun_history (I := fun _ c ue => I c ue) run init
    fun _ step present concerns good => keep present concerns good step

/-- The invariant rule for what the state of a UE alone keeps. -/
theorem ueRun_stateInvariant {ok : Policy ℤ Event} {i : ℕ} {rows : List UeRow}
    {h : List (Firing ℤ (Option UeInfo) Event)} {c : Conf ℤ (Option UeInfo) Event}
    {I : UeInfo → Prop} (run : Run (ueHandler P env i) ok (ueInitial env rows i) h c)
    (init : ∀ row, I (initialUe env i row))
    (keep : ∀ {event now ue}, I ue → I (ueAction P env i event now ue).1) :
    ∀ {ue}, c.state = some ue → I ue :=
  ueRun_invariant (I := fun _ ue => I ue) run (fun _ => init _) fun _ _ good _ => keep good

end NtnCho
