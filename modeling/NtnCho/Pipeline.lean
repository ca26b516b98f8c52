import NtnCho.UeComponent

/-!
# One phase event per procedure

The handlers of the handover procedure know a procedure by its UE number only. `Pipeline` is the
invariant that makes this enough: the phase events of a UE in the event queue are exactly the one
whose guard tests the phase of the UE, with the cells of the UE as its arguments, or none when the
phase needs none. It holds in every order of events, `phase_events`.
-/

namespace NtnCho

open EventSystem

variable {P : Program} {env : Env}

/-- The phase that the guard of a handler tests. -/
def ChoHandler.guard : ChoHandler → ChoPhase
  | .phase1ReportArrived => .measReportUplink
  | .phase2SendXnRequest => .gnbChoDecision
  | .phase3XnResponse => .xnRequest
  | .phase4SendRrcReconfig => .xnResponse
  | .phase5UeStoresConfig => .rrcReconfigDownlink
  | .phase7ExecutionComplete => .ueExecuting

/-- The handler and the cells of a phase event of UE `i`. -/
def Event.phaseOf (i : ℕ) : Event → Option (ChoHandler × String × String)
  | .cho handler ueId sourceCell targetCell =>
      if ueId = i then some (handler, sourceCell, targetCell) else none
  | _ => none

/-- The pending phase events of UE `i`. -/
def pendingPhases (i : ℕ) (queue : Schedule) : List (ChoHandler × String × String) :=
  queue.filterMap fun q => q.ev.phaseOf i

theorem pendingPhases_append (i : ℕ) (l l' : Schedule) :
    pendingPhases i (l ++ l') = pendingPhases i l ++ pendingPhases i l' := List.filterMap_append

/-- A UE sees all of its phase events. -/
theorem pendingPhases_of (i : ℕ) (queue : Schedule) :
    pendingPhases i (Schedule.of i queue) = pendingPhases i queue := by
  unfold pendingPhases Schedule.of
  rw [List.filterMap_filter]
  congr 1
  funext q
  rcases q with ⟨_, _ | ⟨_, ueId, _, _⟩ | _⟩ <;> simp [Event.concerns, Event.phaseOf]

@[simp] theorem pendingPhases_nextTick (i : ℕ) (event : Event) (now : ℤ) :
    pendingPhases i (nextTick event now) = [] := by cases event <;> rfl

theorem pendingPhases_scheduled (i : ℕ) (now : ℤ) (l : List (ℚ × ChoHandler × String × String)) :
    pendingPhases i (l.map (scheduledPhase i now)) = l.map Prod.snd := by
  unfold pendingPhases
  rw [List.filterMap_map]
  have phase : (fun q : Pending ℤ Event => q.ev.phaseOf i) ∘ scheduledPhase i now =
      some ∘ Prod.snd := by
    funext phase
    simp [scheduledPhase, Event.phaseOf]
  rw [phase, List.filterMap_eq_map]

/-- The phase event that a procedure state needs: none, or the one that its phase waits for. -/
def UeChoProcedureState.expects (s : UeChoProcedureState) : List (ChoHandler × String × String) :=
  match s.phase with
  | .measReportUplink => [(.phase1ReportArrived, s.sourceCell, s.targetCell)]
  | .gnbChoDecision => [(.phase2SendXnRequest, s.sourceCell, s.targetCell)]
  | .xnRequest => [(.phase3XnResponse, s.sourceCell, s.targetCell)]
  | .xnResponse => [(.phase4SendRrcReconfig, s.sourceCell, s.targetCell)]
  | .rrcReconfigDownlink => [(.phase5UeStoresConfig, s.sourceCell, s.targetCell)]
  | .ueExecuting => [(.phase7ExecutionComplete, s.sourceCell, s.targetCell)]
  | _ => []

/-- The phases that can be observed between two events. -/
def ChoPhase.Observable (phase : ChoPhase) : Prop :=
  phase = .idle ∨ phase = .ueEvaluating ∨ ∃ handler : ChoHandler, phase = handler.guard

theorem UeChoProcedureState.expects_guard {s : UeChoProcedureState} {handler : ChoHandler}
    (guard : s.phase = handler.guard) : s.expects = [(handler, s.sourceCell, s.targetCell)] := by
  unfold UeChoProcedureState.expects
  rw [guard]
  cases handler <;> rfl

theorem UeChoProcedureState.expects_idle {s : UeChoProcedureState} (idle : s.phase = .idle) :
    s.expects = [] := by
  unfold UeChoProcedureState.expects
  rw [idle]

theorem UeChoProcedureState.expects_evaluating {s : UeChoProcedureState}
    (evaluating : s.phase = .ueEvaluating) : s.expects = [] := by
  unfold UeChoProcedureState.expects
  rw [evaluating]

theorem UeChoProcedureState.guard_of_expects {s : UeChoProcedureState} {handler : ChoHandler}
    {sourceCell targetCell : String} (expects : s.expects = [(handler, sourceCell, targetCell)]) :
    s.phase = handler.guard ∧ s.sourceCell = sourceCell ∧ s.targetCell = targetCell := by
  unfold UeChoProcedureState.expects at expects
  split at expects
  case h_7 => cases expects
  all_goals
    rename_i phase
    simp only [List.cons.injEq, Prod.mk.injEq, and_true] at expects
    obtain ⟨rfl, source, target⟩ := expects
    exact ⟨phase, source, target⟩

/-! ## One action -/

/-- After an action, the UE expects what it expected before and what the action schedules. -/
structure Expects (before : List (ChoHandler × String × String)) (result : UeInfo × List Effect) :
    Prop where
  observable : result.1.choProcState.phase.Observable
  expects : result.1.choProcState.expects = before ++ (phases result.2).map Prod.snd

theorem ChoHandler.guard_observable (handler : ChoHandler) : handler.guard.Observable :=
  .inr (.inr ⟨handler, rfl⟩)

theorem expects_choTriggerProcedure (P : Program) (i : ℕ) (simTime : ℚ)
    (report : MeasurementReport) {ue : UeInfo} (idle : ue.choProcState.phase = .idle) :
    Expects [] (choTriggerProcedure P i simTime report ue) := by
  unfold choTriggerProcedure
  rw [if_neg (not_not.mpr idle)]
  refine ⟨?_, ?_⟩
  · rw [UeInfo.count_choProcState]
    exact ChoHandler.guard_observable .phase1ReportArrived
  · simp [UeChoProcedureState.expects, phases, Effect.phase, choLog]

theorem expects_choPhase6UeExecutes (i : ℕ) (simTime : ℚ) (ue : UeInfo)
    (evaluating : ue.choProcState.phase = .ueEvaluating) :
    Expects [] (choPhase6UeExecutes P env i ue.choProcState.sourceCell ue.choProcState.targetCell
      simTime ue) := by
  unfold choPhase6UeExecutes
  rw [if_neg (not_not.mpr evaluating)]
  refine ⟨?_, ?_⟩
  · rw [applyUeErrorModelImmediately_choProcState, UeInfo.count_choProcState]
    exact ChoHandler.guard_observable .phase7ExecutionComplete
  · simp [UeChoProcedureState.expects, phases, Effect.phase, choLog]

theorem expects_choConfigExpired (ue : UeInfo) : Expects [] (choConfigExpired P ue) where
  observable := by simp [choConfigExpired, ChoPhase.Observable]
  expects := by
    simp [choConfigExpired, UeChoProcedureState.expects, phases, Effect.phase]

/-- What a tick schedules is what the UE expects after it. -/
theorem TickAction.expects {i : ℕ} {simTime : ℚ} {ue : UeInfo} {result : UeInfo × List Effect}
    (action : TickAction P env i simTime ue result)
    (observable : ue.choProcState.phase.Observable) : Expects ue.choProcState.expects result := by
  cases action with
  | quiet records => exact ⟨observable, by simp⟩
  | timer active start evaluating =>
      refine ⟨observable, ?_⟩
      simp [UeInfo.setExecutionTtt, UeChoProcedureState.expects, evaluating, phases]
  | expires evaluating =>
      rw [UeChoProcedureState.expects_evaluating evaluating]
      exact expects_choConfigExpired ue
  | executes start evaluating =>
      rw [UeChoProcedureState.expects_evaluating evaluating]
      exact expects_choPhase6UeExecutes i simTime (ue.setExecutionTtt false start) evaluating
  | reports records report idle =>
      rw [UeChoProcedureState.expects_idle idle]
      obtain ⟨observable, expects⟩ := expects_choTriggerProcedure P i simTime report idle
      exact ⟨observable, by simpa using expects⟩
  | reselects records idle =>
      exact ⟨observable, by simp [UeInfo.forceReselection]⟩

theorem expects_ueTick {i : ℕ} {simTime : ℚ} {ue : UeInfo}
    (observable : ue.choProcState.phase.Observable) :
    Expects ue.choProcState.expects (ueTick P env i simTime ue) := by
  obtain ⟨ue₁, same, action⟩ := ueTick_spec P env i simTime ue
  rw [← same.choProcState] at observable ⊢
  exact action.expects observable

theorem expects_choPhase7ExecutionComplete {i : ℕ} {simTime : ℚ} {sourceCell targetCell : String}
    {ue : UeInfo} (executing : ue.choProcState.phase = .ueExecuting) :
    Expects [] (choPhase7ExecutionComplete P env i sourceCell targetCell simTime ue) := by
  unfold choPhase7ExecutionComplete
  rw [if_neg (not_not.mpr executing)]
  dsimp only
  split
  · refine ⟨.inl rfl, ?_⟩
    unfold hoResult
    split <;> simp [UeInfo.completed, UeChoProcedureState.expects, phases, Effect.phase, choLog]
  · refine ⟨.inl rfl, ?_⟩
    simp [choHandleFailure, UeChoProcedureState.expects, phases, Effect.phase, choLog]

/-- One stage of the pipeline hands the procedure on to the next. -/
theorem expects_choAdvance {i : ℕ} {expected next : ChoPhase} {delay simTime : ℚ}
    {handler : ChoHandler} {ue : UeInfo} (guard : ue.choProcState.phase = expected)
    (stage : next = handler.guard) :
    Expects [] (choAdvance expected next delay handler i ue.choProcState.sourceCell
      ue.choProcState.targetCell simTime ue) := by
  unfold choAdvance
  rw [if_neg (not_not.mpr guard)]
  refine ⟨?_, ?_⟩
  · rw [stage]
    exact handler.guard_observable
  · rw [UeChoProcedureState.expects_guard stage]
    rfl

/-- The handler of the expected phase event consumes it and schedules the next one. -/
theorem expects_choHandler {i : ℕ} {simTime : ℚ} {handler : ChoHandler} {ue : UeInfo}
    (guard : ue.choProcState.phase = handler.guard) :
    Expects [] (choHandler P env handler i ue.choProcState.sourceCell ue.choProcState.targetCell
      simTime ue) := by
  cases handler with
  | phase1ReportArrived => exact expects_choAdvance guard rfl
  | phase2SendXnRequest => exact expects_choAdvance guard rfl
  | phase3XnResponse => exact expects_choAdvance guard rfl
  | phase4SendRrcReconfig =>
      replace guard : ue.choProcState.phase = .xnResponse := guard
      simp only [choHandler, choPhase4SendRrcReconfig]
      rw [if_neg (not_not.mpr guard)]
      refine ⟨?_, ?_⟩
      · rw [UeInfo.count_choProcState]
        exact ChoHandler.guard_observable .phase5UeStoresConfig
      · simp [UeChoProcedureState.expects, phases, Effect.phase]
  | phase5UeStoresConfig =>
      replace guard : ue.choProcState.phase = .rrcReconfigDownlink := guard
      simp only [choHandler, choPhase5UeStoresConfig]
      rw [if_neg (not_not.mpr guard)]
      refine ⟨?_, ?_⟩
      · simp [ChoPhase.Observable]
      · simp [UeChoProcedureState.expects, phases, Effect.phase, choLog]
  | phase7ExecutionComplete => exact expects_choPhase7ExecutionComplete guard

/-- A handler whose guard fails does nothing. -/
theorem choHandler_of_guard_ne {i : ℕ} {simTime : ℚ} {handler : ChoHandler}
    {sourceCell targetCell : String} {ue : UeInfo} (guard : ue.choProcState.phase ≠ handler.guard) :
    choHandler P env handler i sourceCell targetCell simTime ue = (ue, []) := by
  cases handler <;> exact if_pos guard

/-! ## Which events enter a phase -/

@[simp] theorem UeInfo.setExecutionTtt_phase (active : Bool) (start : ℚ) (ue : UeInfo) :
    (ue.setExecutionTtt active start).choProcState.phase = ue.choProcState.phase := rfl

@[simp] theorem UeInfo.setExecutionTtt_sourceCell (active : Bool) (start : ℚ) (ue : UeInfo) :
    (ue.setExecutionTtt active start).choProcState.sourceCell = ue.choProcState.sourceCell := rfl

@[simp] theorem UeInfo.setExecutionTtt_targetCell (active : Bool) (start : ℚ) (ue : UeInfo) :
    (ue.setExecutionTtt active start).choProcState.targetCell = ue.choProcState.targetCell := rfl

theorem choConfigExpired_phase (ue : UeInfo) :
    (choConfigExpired P ue).1.choProcState.phase = .idle := by
  rw [choConfigExpired, UeInfo.count_choProcState]

theorem choPhase6UeExecutes_phase {ueId : ℕ} {simTime : ℚ} {sourceCell targetCell : String}
    {ue : UeInfo} (evaluating : ue.choProcState.phase = .ueEvaluating) :
    (choPhase6UeExecutes P env ueId sourceCell targetCell simTime ue).1.choProcState.phase =
      .ueExecuting := by
  unfold choPhase6UeExecutes
  rw [if_neg (not_not.mpr evaluating)]
  dsimp only
  rw [applyUeErrorModelImmediately_choProcState, UeInfo.count_choProcState]

theorem choTriggerProcedure_phase {ueId : ℕ} {simTime : ℚ} {report : MeasurementReport}
    {ue : UeInfo} (idle : ue.choProcState.phase = .idle) :
    (choTriggerProcedure P ueId simTime report ue).1.choProcState.phase = .measReportUplink := by
  unfold choTriggerProcedure
  rw [if_neg (not_not.mpr idle)]
  dsimp only
  rw [UeInfo.count_choProcState]

/-- A tick leaves a UE that does not evaluate a configuration in its phase, or an idle one reports. -/
theorem ueTick_phase (P : Program) (env : Env) (ueId : ℕ) (simTime : ℚ) {ue : UeInfo}
    (other : ue.choProcState.phase ≠ .ueEvaluating) :
    (ueTick P env ueId simTime ue).1.choProcState.phase = ue.choProcState.phase ∨
      (ue.choProcState.phase = .idle ∧
        (ueTick P env ueId simTime ue).1.choProcState.phase = .measReportUplink) := by
  obtain ⟨ue₁, same, action⟩ := ueTick_spec P env ueId simTime ue
  have phase := congrArg UeChoProcedureState.phase same.choProcState
  rw [← phase] at other ⊢
  generalize ueTick P env ueId simTime ue = result at action ⊢
  cases action with
  | quiet => exact .inl rfl
  | timer _ _ evaluating => exact absurd evaluating other
  | expires evaluating => exact absurd evaluating other
  | executes _ evaluating => exact absurd evaluating other
  | reports _ _ idle => exact .inr ⟨idle, choTriggerProcedure_phase idle⟩
  | reselects => exact .inl rfl

/-- The phase that a handler enters. -/
def ChoHandler.next : ChoHandler → ChoPhase
  | .phase1ReportArrived => .gnbChoDecision
  | .phase2SendXnRequest => .xnRequest
  | .phase3XnResponse => .xnResponse
  | .phase4SendRrcReconfig => .rrcReconfigDownlink
  | .phase5UeStoresConfig => .ueEvaluating
  | .phase7ExecutionComplete => .idle

theorem choHandler_phase (P : Program) (env : Env) {handler : ChoHandler} (ueId : ℕ)
    (sourceCell targetCell : String) (simTime : ℚ) {ue : UeInfo} (guard : ue.choProcState.phase = handler.guard) :
    (choHandler P env handler ueId sourceCell targetCell simTime ue).1.choProcState.phase =
      handler.next := by
  have advance : ∀ {next delay handler'},
      (choAdvance handler.guard next delay handler' ueId sourceCell targetCell simTime
        ue).1.choProcState.phase = next := by
    intro next delay handler'
    unfold choAdvance
    rw [if_neg (not_not.mpr guard)]
  cases handler with
  | phase1ReportArrived => exact advance
  | phase2SendXnRequest => exact advance
  | phase3XnResponse => exact advance
  | phase4SendRrcReconfig =>
      replace guard : ue.choProcState.phase = .xnResponse := guard
      simp only [choHandler, choPhase4SendRrcReconfig]
      rw [if_neg (not_not.mpr guard)]
      exact congrArg UeChoProcedureState.phase (UeInfo.count_choProcState ..)
  | phase5UeStoresConfig =>
      replace guard : ue.choProcState.phase = .rrcReconfigDownlink := guard
      simp only [choHandler, choPhase5UeStoresConfig]
      rw [if_neg (not_not.mpr guard)]
      exact congrArg UeChoProcedureState.phase (UeInfo.count_choProcState ..)
  | phase7ExecutionComplete =>
      replace guard : ue.choProcState.phase = .ueExecuting := guard
      simp only [choHandler, choPhase7ExecutionComplete]
      rw [if_neg (not_not.mpr guard)]
      split <;> rfl

/-! ## Every run -/

/-- The pending phase events of UE `i` are the expected ones. -/
structure Pipeline (i : ℕ) (c : Conf ℤ (Option UeInfo) Event) (ue : UeInfo) : Prop where
  present : c.state = some ue
  observable : ue.choProcState.phase.Observable
  pending : pendingPhases i c.queue = ue.choProcState.expects

/-- A phase event that fires finds its guard satisfied and its cells in the state of the UE. -/
theorem Pipeline.guard_of_fire {i : ℕ} {c : Conf ℤ (Option UeInfo) Event} {ue : UeInfo}
    {pre post : Schedule} {ts : ℤ} {handler : ChoHandler} {sourceCell targetCell : String}
    (pipeline : Pipeline i c ue)
    (queue : c.queue = pre ++ ⟨ts, .cho handler i sourceCell targetCell⟩ :: post) :
    ue.choProcState.phase = handler.guard ∧ ue.choProcState.sourceCell = sourceCell ∧
      ue.choProcState.targetCell = targetCell ∧ pendingPhases i (pre ++ post) = [] := by
  have pending := pipeline.pending
  rw [queue, pendingPhases_append] at pending
  have fired : pendingPhases i (⟨ts, .cho handler i sourceCell targetCell⟩ :: post) =
      (handler, sourceCell, targetCell) :: pendingPhases i post := by
    simp [pendingPhases, Event.phaseOf]
  rw [fired] at pending
  have single : ue.choProcState.expects = [(handler, sourceCell, targetCell)] ∧
      pendingPhases i pre = [] ∧ pendingPhases i post = [] := by
    rcases pipeline.observable with idle | evaluating | ⟨handler', guard⟩
    · rw [UeChoProcedureState.expects_idle idle] at pending
      simp at pending
    · rw [UeChoProcedureState.expects_evaluating evaluating] at pending
      simp at pending
    · rw [UeChoProcedureState.expects_guard guard] at pending ⊢
      simp only [List.append_eq_singleton_iff, List.cons.injEq, reduceCtorEq, and_false,
        or_false] at pending
      simp_all
  obtain ⟨guard, source, target⟩ := UeChoProcedureState.guard_of_expects single.1
  exact ⟨guard, source, target, by rw [pendingPhases_append, single.2.1, single.2.2]; rfl⟩

theorem Pipeline.step {ok : Policy ℤ Event} {i : ℕ} {c c' : Conf ℤ (Option UeInfo) Event}
    {p : Pending ℤ Event} {ue : UeInfo} (pipeline : Pipeline i c ue)
    (concerns : p.ev.concerns i = true) (step : Step (ueHandler P env i) ok c p c') :
    Pipeline i c' (ueAction P env i p.ev p.ts ue).1 := by
  obtain ⟨pre, post, queue, -, state, queue'⟩ := ueStep step pipeline.present
  have key : ∀ before, pendingPhases i (pre ++ post) = before →
      Expects before (ueAction P env i p.ev p.ts ue) →
      Pipeline i c' (ueAction P env i p.ev p.ts ue).1 := by
    intro before rest expects
    refine ⟨state, expects.observable, ?_⟩
    rw [queue', pendingPhases_append, rest, pendingPhases_append, pendingPhases_nextTick,
      pendingPhases_scheduled, List.append_nil, expects.expects]
  rcases p with ⟨ts, _ | ⟨handler, ueId, sourceCell, targetCell⟩ | _⟩
  · apply key _ ?_ (expects_ueTick pipeline.observable)
    rw [← pipeline.pending, queue]
    simp [pendingPhases, Event.phaseOf]
  · obtain rfl : ueId = i := by simpa [Event.concerns] using concerns
    obtain ⟨guard, rfl, rfl, rest⟩ := pipeline.guard_of_fire queue
    exact key [] rest (expects_choHandler guard)
  · cases concerns

theorem pipeline_of_run {ok : Policy ℤ Event} {i : ℕ} {rows : List UeRow}
    {h : List (Firing ℤ (Option UeInfo) Event)} {c : Conf ℤ (Option UeInfo) Event} {ue : UeInfo}
    (run : Run (ueHandler P env i) ok (ueInitial env rows i) h c) (present : c.state = some ue) :
    Pipeline i c ue := by
  refine ueRun_invariant run ?_ (fun _ concerns pipeline step => pipeline.step concerns step) present
  intro row atRow
  exact ⟨by simp [ueInitial, atRow], .inl rfl, rfl⟩

/-- A phase event of a UE fires in the phase that its guard tests, with the cells of the procedure. -/
theorem guard_of_step {ok : Policy ℤ Event} {i ueId : ℕ} {rows : List UeRow}
    {h : List (Firing ℤ (Option UeInfo) Event)} {c c' : Conf ℤ (Option UeInfo) Event} {ts : ℤ}
    {handler : ChoHandler} {sourceCell targetCell : String} {ue : UeInfo}
    (prior : Run (ueHandler P env i) ok (ueInitial env rows i) h c)
    (step : Step (ueHandler P env i) ok c ⟨ts, .cho handler ueId sourceCell targetCell⟩ c')
    (present : c.state = some ue) :
    ueId = i ∧ ue.choProcState.phase = handler.guard ∧ ue.choProcState.sourceCell = sourceCell ∧
      ue.choProcState.targetCell = targetCell := by
  have concerns := (ueQueue_of_run prior _ step.mem_queue).1
  obtain rfl : ueId = i := by simpa [Event.concerns] using concerns
  obtain ⟨_, _, queue, -⟩ := ueStep step present
  obtain ⟨guard, source, target, -⟩ := (pipeline_of_run prior present).guard_of_fire queue
  exact ⟨rfl, guard, source, target⟩

/-- What is pending for a UE, by its phase. -/
theorem Pipeline.cases {i : ℕ} {c : Conf ℤ (Option UeInfo) Event} {ue : UeInfo}
    (pipeline : Pipeline i c ue) :
    ((ue.choProcState.phase = .idle ∨ ue.choProcState.phase = .ueEvaluating) ∧
        pendingPhases i c.queue = []) ∨
      ∃ handler : ChoHandler, ue.choProcState.phase = handler.guard ∧
        pendingPhases i c.queue =
          [(handler, ue.choProcState.sourceCell, ue.choProcState.targetCell)] := by
  rw [pipeline.pending]
  rcases pipeline.observable with idle | evaluating | ⟨handler, guard⟩
  · exact .inl ⟨.inl idle, UeChoProcedureState.expects_idle idle⟩
  · exact .inl ⟨.inr evaluating, UeChoProcedureState.expects_evaluating evaluating⟩
  · exact .inr ⟨handler, guard, UeChoProcedureState.expects_guard guard⟩

/-- **One phase event per procedure.** Whatever the order of events, a UE in an in-flight phase has
exactly one phase event pending, the one whose guard tests this phase, with the cells of its
procedure; a UE in `CHO_IDLE` or `CHO_UE_EVALUATING` has none, and no other phase is observed. No
phase event ever falls through its guard. -/
theorem phase_events {rows : List UeRow} {h : List (Firing ℤ Sim Event)} {c : Conf ℤ Sim Event}
    (run : AnyOrderRun tdCho env rows h c) :
    (∀ (i : ℕ) ue, c.state.ues[i]? = some ue →
      ((ue.choProcState.phase = .idle ∨ ue.choProcState.phase = .ueEvaluating) ∧
          pendingPhases i c.queue = []) ∨
        ∃ handler : ChoHandler, ue.choProcState.phase = handler.guard ∧
          pendingPhases i c.queue =
            [(handler, ue.choProcState.sourceCell, ue.choProcState.targetCell)]) ∧
      ∀ f ∈ h, ∀ handler i sourceCell targetCell,
        f.event.ev = .cho handler i sourceCell targetCell →
          ∃ ue, f.before.state.ues[i]? = some ue ∧ ue.choProcState.phase = handler.guard := by
  refine ⟨fun i ue present => ?_, fun f member handler i sourceCell targetCell fired => ?_⟩
  · have pipeline := pipeline_of_run (run.toUe i) present
    have pending := pendingPhases_of i c.queue
    rw [← pending]
    exact pipeline.cases
  · obtain ⟨h₁, h₂, rfl⟩ := List.append_of_mem member
    obtain ⟨before, step⟩ := run.split
    have seen := AnyOrderRun.toUe before i
    have relevant : (ueComponent tdCho env i).rel f.event.ev = true := by
      rw [fired]
      exact beq_self_eq_true i
    have next : Step (ueHandler tdCho env i) anyOrder _ f.event _ :=
      ((Component.step_project (ueComponent tdCho env i).projects_anyOrder step).resolve_left
        fun irrelevant => by simp [relevant] at irrelevant).2
    cases present : f.before.state.ues[i]? with
    | none =>
        have tick := (ueQueue_of_run seen f.event next.mem_queue).2 present
        rw [fired] at tick
        cases tick
    | some ue =>
        rcases event : f.event with ⟨ts, ev⟩
        rw [event] at fired next
        obtain rfl : ev = _ := fired
        exact ⟨ue, rfl, (guard_of_step seen next present).2.1⟩

theorem phase_events_crossing :
    ∃ ue, (sampleRun tdCho crossing sampleRows 9).2.state.ues[0]? = some ue ∧
      ue.choProcState.phase = .ueEvaluating ∧
      pendingPhases 0 (sampleRun tdCho crossing sampleRows 9).2.queue = [] := by
  have evaluating : (sampleRun tdCho crossing sampleRows 9).2.state.ues[0]?.map
      (fun ue => ue.choProcState.phase) = some .ueEvaluating := by decide +kernel
  obtain ⟨ue, present, phase⟩ := Option.map_eq_some_iff.mp evaluating
  have run := (simRun_sampleRun tdCho crossing sampleRows 9).anyOrder
  rcases (phase_events run).1 0 ue present with ⟨-, none⟩ | ⟨handler, guard, -⟩
  · exact ⟨ue, present, phase, none⟩
  · rw [phase] at guard
    cases handler <;> cases guard

end NtnCho
