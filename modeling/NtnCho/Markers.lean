import NtnCho.Isolation
import NtnCho.Pipeline

/-!
# The markers of an execution

Four places say that a UE executes a handover: its phase, `interruptionActive`, `executionPending`
with `executionTargetCell`, and the error models, which drop all packets under an interruption.
`Markers` says that they agree. Every handler keeps them in agreement, with one exception:
`CHO_HandleFailure` ends the interruption but leaves the pending execution and the error models. So
the markers agree along a run exactly if no execution fails, `markers_iff`; a target without a name
would leave the error models too.
-/

namespace NtnCho

open EventSystem

variable {P : Program} {env : Env}

/-! ## The markers -/

/-- The error model drops all packets under an interruption, which is active iff `executing`. -/
structure RateErrorModel.Marks (model : RateErrorModel) (executing : Prop) : Prop where
  interrupted : model.underInterruption = true ↔ executing
  forced : model.underInterruption = true → model.errorRate = 1

/-- The markers of an ongoing execution agree. -/
structure Markers (ue : UeInfo) : Prop where
  interruption : ue.hoState.interruptionActive = true ↔ ue.choProcState.phase = .ueExecuting
  pending : ue.choConfigState.executionPending = true ↔ ue.choProcState.phase = .ueExecuting
  target : ue.choConfigState.executionTargetCell =
    if ue.choProcState.phase = .ueExecuting then ue.choProcState.targetCell else ""
  uplink : ue.ulErrorModel.Marks (ue.choProcState.phase = .ueExecuting)
  downlink : ue.dlErrorModel.Marks (ue.choProcState.phase = .ueExecuting)

/-- `ue'` has the markers of `ue`, its phase apart. -/
structure SameMarks (ue ue' : UeInfo) : Prop where
  interruption : ue'.hoState.interruptionActive = ue.hoState.interruptionActive
  pending : ue'.choConfigState.executionPending = ue.choConfigState.executionPending
  target : ue'.choConfigState.executionTargetCell = ue.choConfigState.executionTargetCell
  uplink : ue'.ulErrorModel = ue.ulErrorModel
  downlink : ue'.dlErrorModel = ue.dlErrorModel

theorem SameMarks.count {op : StatOp} {ue ue' : UeInfo} (same : SameMarks ue ue') :
    SameMarks ue (ue'.count P op) := by
  obtain ⟨interruption, pending, target, uplink, downlink⟩ := same
  unfold UeInfo.count
  split <;> exact ⟨interruption, pending, target, uplink, downlink⟩

/-- The markers go on to agree when neither they nor the procedure change. -/
theorem Markers.of_same {ue ue' : UeInfo} (markers : Markers ue) (same : SameMarks ue ue')
    (procedure : ue'.choProcState.phase = ue.choProcState.phase ∧
      ue'.choProcState.targetCell = ue.choProcState.targetCell) : Markers ue' := by
  obtain ⟨phase, target⟩ := procedure
  constructor
  · rw [same.interruption, phase]
    exact markers.interruption
  · rw [same.pending, phase]
    exact markers.pending
  · rw [same.target, phase, target]
    exact markers.target
  · rw [same.uplink, phase]
    exact markers.uplink
  · rw [same.downlink, phase]
    exact markers.downlink

/-- The markers go on to agree when the UE moves between two phases that are not execution. -/
theorem Markers.of_move {ue ue' : UeInfo} (markers : Markers ue) (same : SameMarks ue ue')
    (before : ue.choProcState.phase ≠ .ueExecuting) (after : ue'.choProcState.phase ≠ .ueExecuting) :
    Markers ue' := by
  have moved : ue'.choProcState.phase = .ueExecuting ↔ ue.choProcState.phase = .ueExecuting :=
    iff_of_false after before
  constructor
  · rw [same.interruption, moved]
    exact markers.interruption
  · rw [same.pending, moved]
    exact markers.pending
  · rw [same.target, if_neg after, markers.target, if_neg before]
  · rw [same.uplink, moved]
    exact markers.uplink
  · rw [same.downlink, moved]
    exact markers.downlink

theorem Markers.of_measured {ue ue' : UeInfo} (markers : Markers ue) (only : OnlyMeasured ue ue') :
    Markers ue' := by
  have procedure := only.choProcState
  refine markers.of_same ?_ ⟨congrArg UeChoProcedureState.phase procedure,
    congrArg UeChoProcedureState.targetCell procedure⟩
  unfold OnlyMeasured at only
  rw [only]
  exact ⟨rfl, rfl, rfl, rfl, rfl⟩

/-! ## The error models -/

/-- The error model that `setErrorRate` sets marks the interruption. -/
theorem setErrorRate_marks {executing : Prop} (env : Env) (metrics : UeSatMetrics) {ue : UeInfo}
    (interruption : ue.hoState.interruptionActive = true ↔ executing) :
    (ue.setErrorRate env metrics).ulErrorModel.Marks executing ∧
      (ue.setErrorRate env metrics).dlErrorModel.Marks executing := by
  have forced : ue.hoState.interruptionActive = true →
      (if ue.hoState.interruptionActive then 1 else packetErrorRate env.link metrics.snrDb) = 1 :=
    fun active => if_pos active
  exact ⟨⟨interruption, forced⟩, ⟨interruption, forced⟩⟩

theorem markers_setChannel {ue : UeInfo} (markers : Markers ue) : Markers (ue.setChannel env) := by
  unfold UeInfo.setChannel
  split
  · exact markers
  · split
    · exact markers
    · rename_i metrics _
      obtain ⟨uplink, downlink⟩ :=
        setErrorRate_marks env metrics markers.interruption
      exact ⟨markers.interruption, markers.pending, markers.target, uplink, downlink⟩

theorem markers_updated {simTime : ℚ} {ue : UeInfo} (markers : Markers ue) :
    Markers (ue.updated P env simTime) := by
  refine markers_setChannel (markers.of_same ?_ ?_)
  · unfold UeInfo.selectServing
    dsimp only
    split
    · split <;> exact ⟨rfl, rfl, rfl, rfl, rfl⟩
    · exact ⟨rfl, rfl, rfl, rfl, rfl⟩
  · have same := (sameProcedure_selectServing P env simTime
      (updateChannelCache P env simTime ue)).choProcState
    rw [same]
    exact ⟨rfl, rfl⟩

theorem applyUeErrorModelImmediately_eq (env : Env) {ue : UeInfo} (served : ue.context.servingGnb ≠ "")
    (cached : ue.context.servingGnb ∈ ue.phy.channel.channelCache) :
    ∃ metrics, applyUeErrorModelImmediately env ue = ue.setErrorRate env metrics := by
  obtain ⟨metrics, found⟩ := Option.isSome_iff_exists.mp (UeInfo.cached_isSome.mpr cached)
  refine ⟨metrics, ?_⟩
  unfold applyUeErrorModelImmediately
  rw [if_neg served, found]

/-- A UE that enters execution with its interruption applied to a serving satellite. -/
theorem markers_applyUeErrorModelImmediately {ue : UeInfo}
    (served : ue.context.servingGnb ≠ "")
    (cached : ue.context.servingGnb ∈ ue.phy.channel.channelCache)
    (executing : ue.choProcState.phase = .ueExecuting)
    (interruption : ue.hoState.interruptionActive = true)
    (pending : ue.choConfigState.executionPending = true)
    (target : ue.choConfigState.executionTargetCell = ue.choProcState.targetCell) :
    Markers (applyUeErrorModelImmediately env ue) := by
  obtain ⟨metrics, applied⟩ := applyUeErrorModelImmediately_eq env served cached
  have marks := iff_of_true interruption executing
  obtain ⟨uplink, downlink⟩ := setErrorRate_marks env metrics marks
  rw [applied]
  exact ⟨marks, iff_of_true pending executing, target.trans (if_pos executing).symm, uplink, downlink⟩

/-! ## One event -/

/-- A UE with a procedure has a serving satellite. -/
def UeInfo.BusyServed (ue : UeInfo) : Prop :=
  ue.choProcState.phase ≠ .idle → ue.context.servingGnb ≠ ""

theorem markers_choPhase6UeExecutes {ueId : ℕ} {simTime : ℚ} {ue : UeInfo}
    (evaluating : ue.choProcState.phase = .ueEvaluating) (served : ue.ServingCached)
    (busy : ue.BusyServed) :
    Markers (choPhase6UeExecutes P env ueId ue.choProcState.sourceCell ue.choProcState.targetCell
      simTime ue).1 := by
  have serving : ue.context.servingGnb ≠ "" := busy (by rw [evaluating]; decide)
  have cached := served.resolve_left serving
  unfold choPhase6UeExecutes
  rw [if_neg (not_not.mpr evaluating)]
  apply markers_applyUeErrorModelImmediately
  · rwa [UeInfo.count_context]
  · rwa [UeInfo.count_context, UeInfo.count_phy]
  · rw [UeInfo.count_choProcState]
  · rw [UeInfo.count_hoState]
  · rw [UeInfo.count_choConfigState]
  · rw [UeInfo.count_choConfigState, UeInfo.count_choProcState]

theorem TickAction.markers {ueId : ℕ} {simTime : ℚ} {ue : UeInfo} {result : UeInfo × List Effect}
    (action : TickAction P env ueId simTime ue result) (markers : Markers ue)
    (served : ue.ServingCached) (busy : ue.BusyServed) : Markers result.1 := by
  cases action with
  | quiet => exact markers
  | timer => exact markers.of_same ⟨rfl, rfl, rfl, rfl, rfl⟩ ⟨rfl, rfl⟩
  | expires evaluating =>
      refine markers.of_move (.count ⟨rfl, rfl, rfl, rfl, rfl⟩) (by rw [evaluating]; decide) ?_
      rw [choConfigExpired_phase]
      decide
  | executes start evaluating =>
      exact @markers_choPhase6UeExecutes _ _ _ _ (ue.setExecutionTtt false start) evaluating served busy
  | reports records report idle =>
      refine markers.of_move ?_ (by rw [idle]; decide) ?_
      · unfold choTriggerProcedure
        rw [if_neg (not_not.mpr idle)]
        exact .count ⟨rfl, rfl, rfl, rfl, rfl⟩
      · rw [choTriggerProcedure_phase idle]
        decide
  | reselects => exact markers.of_same ⟨rfl, rfl, rfl, rfl, rfl⟩ ⟨rfl, rfl⟩

/-- A handler before execution leaves the markers alone. -/
theorem sameMarks_choHandler {handler : ChoHandler} {ueId : ℕ} {sourceCell targetCell : String}
    {simTime : ℚ} {ue : UeInfo} (early : handler ≠ .phase7ExecutionComplete) :
    SameMarks ue (choHandler P env handler ueId sourceCell targetCell simTime ue).1 := by
  have advance : ∀ {expected next delay handler},
      SameMarks ue
        (choAdvance expected next delay handler ueId sourceCell targetCell simTime ue).1 := by
    intro expected next delay handler
    unfold choAdvance
    split <;> exact ⟨rfl, rfl, rfl, rfl, rfl⟩
  cases handler with
  | phase1ReportArrived => exact advance
  | phase2SendXnRequest => exact advance
  | phase3XnResponse => exact advance
  | phase4SendRrcReconfig =>
      simp only [choHandler, choPhase4SendRrcReconfig]
      split
      · exact ⟨rfl, rfl, rfl, rfl, rfl⟩
      · exact .count ⟨rfl, rfl, rfl, rfl, rfl⟩
  | phase5UeStoresConfig =>
      simp only [choHandler, choPhase5UeStoresConfig]
      split
      · exact ⟨rfl, rfl, rfl, rfl, rfl⟩
      · exact .count ⟨rfl, rfl, rfl, rfl, rfl⟩
  | phase7ExecutionComplete => exact absurd rfl early

/-- A completed handover clears the markers, if its target is viable and has a name. -/
theorem markers_choPhase7_viable {ueId : ℕ} {sourceCell targetCell : String} {simTime : ℚ}
    {ue : UeInfo} (executing : ue.choProcState.phase = .ueExecuting)
    (viable : choIsLinkViable env ue targetCell = true) (named : targetCell ≠ "") :
    Markers (choPhase7ExecutionComplete P env ueId sourceCell targetCell simTime ue).1 := by
  unfold choPhase7ExecutionComplete
  rw [if_neg (not_not.mpr executing)]
  dsimp only
  rw [if_pos viable]
  generalize StatOp.success _ _ = success
  have cached := mem_of_choIsLinkViable viable
  have kept : targetCell ∈ ((ue.count P success).handedOver targetCell).phy.channel.channelCache := by
    rw [show ((ue.count P success).handedOver targetCell).phy = _ from UeInfo.count_phy success ue]
    exact cached
  obtain ⟨metrics, applied⟩ :=
    @applyUeErrorModelImmediately_eq env ((ue.count P success).handedOver targetCell) named kept
  rw [applied]
  have marks : ((ue.count P success).handedOver targetCell).hoState.interruptionActive = true ↔
      ChoPhase.idle = .ueExecuting := iff_of_false (by simp [UeInfo.handedOver]) (by decide)
  obtain ⟨uplink, downlink⟩ := setErrorRate_marks env metrics marks
  exact ⟨iff_of_false (by simp [UeInfo.completed, UeInfo.setErrorRate, UeInfo.handedOver])
      (by simp [UeInfo.completed]),
    iff_of_false (by simp [UeInfo.completed, UeInfo.setErrorRate, UeInfo.handedOver])
      (by simp [UeInfo.completed]),
    rfl, uplink, downlink⟩

theorem UeInfo.count_ulErrorModel (op : StatOp) (ue : UeInfo) :
    (ue.count P op).ulErrorModel = ue.ulErrorModel := by
  unfold UeInfo.count
  split <;> rfl

/-- A failed execution leaves the pending execution, and one without a named target the error
models. -/
theorem not_markers_choPhase7 {ueId : ℕ} {sourceCell targetCell : String} {simTime : ℚ}
    {ue : UeInfo} (markers : Markers ue) (executing : ue.choProcState.phase = .ueExecuting)
    (failed : ¬ (choIsLinkViable env ue targetCell = true ∧ targetCell ≠ "")) :
    ¬ Markers (choPhase7ExecutionComplete P env ueId sourceCell targetCell simTime ue).1 := by
  unfold choPhase7ExecutionComplete
  rw [if_neg (not_not.mpr executing)]
  dsimp only
  split
  · rename_i viable
    obtain rfl : targetCell = "" := not_not.mp fun named => failed ⟨viable, named⟩
    intro after
    have under := markers.uplink.interrupted.mpr executing
    have unserved : ∀ op, applyUeErrorModelImmediately env ((ue.count P op).handedOver "") =
        (ue.count P op).handedOver "" := fun op => if_pos rfl
    have still := after.uplink.interrupted.mp (by
      dsimp only
      rw [unserved]
      exact (congrArg RateErrorModel.underInterruption (UeInfo.count_ulErrorModel ..)).trans under)
    cases still
  · intro after
    have pending := markers.pending.mpr executing
    have still := after.pending.mp (by
      rw [choHandleFailure]
      exact (congrArg UeChoConfigState.executionPending (UeInfo.count_choConfigState ..)).trans
        pending)
    cases still

/-! ## The serving satellite of a busy UE -/

theorem busyServed_updated {simTime : ℚ} {ue : UeInfo} (busy : ue.BusyServed) :
    (ue.updated P env simTime).BusyServed := by
  intro procedure
  rw [(sameProcedure_updated P env simTime ue).choProcState] at procedure
  rw [updated_context (busy procedure)]
  exact busy procedure

theorem OnlyMeasured.busyServed {ue ue' : UeInfo} (only : OnlyMeasured ue ue')
    (busy : ue.BusyServed) : ue'.BusyServed := by
  intro procedure
  rw [only.phase] at procedure
  rw [only.context]
  exact busy procedure

/-- A program that does not re-select keeps a busy UE served: a UE is measured only when it is
served, and no handler before the end of the procedure changes the serving satellite. -/
theorem busyServed_ueTick (keeps : P.reselectOnRlf = false) {ueId : ℕ} {simTime : ℚ} {ue : UeInfo}
    (busy : ue.BusyServed) : (ueTick P env ueId simTime ue).1.BusyServed := by
  have updated : (ue.updated P env simTime).BusyServed := busyServed_updated busy
  have acted : ∀ {ue₁ result}, TickAction P env ueId simTime ue₁ result →
      ue₁.context.servingGnb ≠ "" → result.1.context.servingGnb ≠ "" := by
    intro ue₁ result action served
    cases action with
    | quiet => exact served
    | timer => exact served
    | expires => simpa [choConfigExpired] using served
    | executes start evaluating =>
        unfold choPhase6UeExecutes
        split
        · exact served
        · rw [applyUeErrorModelImmediately_context, UeInfo.count_context]
          exact served
    | reports => simpa using served
    | reselects _ _ reselection =>
        rw [keeps] at reselection
        cases reselection
  change (checkHandover P env ueId simTime (ue.updated P env simTime)).1.BusyServed
  rcases checkHandover_spec P env ueId simTime (ue.updated P env simTime) with
    ⟨procedure, -, action⟩ | ⟨idle, -, stays | adopts⟩ | ⟨due, idle, measured, measures⟩
  · exact fun _ => acted action (updated procedure)
  · rw [stays]
    exact fun procedure => absurd idle procedure
  · rw [adopts]
    exact (onlyMeasured_adoptServingCell simTime _).busyServed updated
  · rw [measures]
    obtain ⟨-, -, served⟩ := UeInfo.due?_eq_some measured
    have only := (onlyMeasured_of_due measured).trans
      (onlyMeasured_ueEvaluateAndReport P env ueId simTime due)
    refine fun _ => acted (measureAndReport_action P env ueId simTime
      ((onlyMeasured_of_due measured).phase.trans idle)) ?_
    rwa [only.context]

theorem busyServed_ueAction (keeps : P.reselectOnRlf = false) {i : ℕ} {event : Event} {now : ℤ}
    {ue : UeInfo} (busy : ue.BusyServed) : (ueAction P env i event now ue).1.BusyServed := by
  cases event with
  | checkHandoverConditions => exact busyServed_ueTick keeps busy
  | cho handler ueId sourceCell targetCell =>
      rw [ueAction_cho]
      by_cases guard : ue.choProcState.phase = handler.guard
      case neg =>
        rw [choHandler_of_guard_ne guard]
        exact busy
      case pos =>
        intro procedure
        rw [choHandler_phase _ _ _ _ _ _ guard] at procedure
        have early : handler ≠ .phase7ExecutionComplete := by
          rintro rfl
          exact procedure rfl
        rw [(onlyProcedure_choHandler early).context]
        exact busy (by rw [guard]; cases handler <;> decide)
  | evaluatePendingPrediction => exact busy

/-! ## Every run -/

/-- A firing of `CHO_Phase7_ExecutionComplete` of UE `i`, for the UE before it. -/
structure Completes (i : ℕ) (f : Firing ℤ (Option UeInfo) Event) (sourceCell targetCell : String)
    (ue : UeInfo) : Prop where
  event : f.event.ev = .cho .phase7ExecutionComplete i sourceCell targetCell
  before : f.before.state = some ue

/-- An execution that completes is the one in flight. -/
theorem Completes.inFlight {i : ℕ} {ok : Policy ℤ Event} {rows : List UeRow}
    {h : List (Firing ℤ (Option UeInfo) Event)} {f : Firing ℤ (Option UeInfo) Event}
    {sourceCell targetCell : String} {ue : UeInfo} (completes : Completes i f sourceCell targetCell ue)
    (prior : Run (ueHandler P env i) ok (ueInitial env rows i) h f.before)
    (step : Step (ueHandler P env i) ok f.before f.event f.after) :
    ue.choProcState.phase = .ueExecuting ∧ ue.choProcState.sourceCell = sourceCell ∧
      ue.choProcState.targetCell = targetCell := by
  have event : f.event = ⟨f.event.ts, .cho .phase7ExecutionComplete i sourceCell targetCell⟩ := by
    rw [← completes.event]
  rw [event] at step
  exact (guard_of_step prior step completes.before).2

/-- The execution that `f` completes succeeds: its target is viable, and has a name. -/
def Succeeds (env : Env) (i : ℕ) (f : Firing ℤ (Option UeInfo) Event) : Prop :=
  ∀ sourceCell targetCell ue, Completes i f sourceCell targetCell ue →
    choIsLinkViable env ue targetCell = true ∧ targetCell ≠ ""

/-- `Succeeds`, computed. -/
def succeeds (env : Env) (i : ℕ) (f : Firing ℤ (Option UeInfo) Event) : Bool :=
  match f.event.ev, f.before.state with
  | .cho .phase7ExecutionComplete ueId _ targetCell, some ue =>
      ueId ≠ i ∨ (choIsLinkViable env ue targetCell = true ∧ targetCell ≠ "")
  | _, _ => true

theorem succeeds_iff (env : Env) (i : ℕ) (f : Firing ℤ (Option UeInfo) Event) :
    succeeds env i f = true ↔ Succeeds env i f := by
  unfold succeeds
  constructor
  · intro checked sourceCell targetCell ue completes
    rw [completes.event, completes.before] at checked
    simpa using checked
  · intro succeed
    split
    · next ueId sourceCell targetCell ue event before =>
        rw [decide_eq_true_eq, or_iff_not_imp_left, not_not]
        rintro rfl
        exact succeed sourceCell targetCell ue ⟨event, before⟩
    · rfl

instance (env : Env) (i : ℕ) (f : Firing ℤ (Option UeInfo) Event) : Decidable (Succeeds env i f) :=
  decidable_of_iff _ (succeeds_iff env i f)

section Run

variable {i : ℕ} {rows : List UeRow} {h : List (Firing ℤ (Option UeInfo) Event)}
  {c : Conf ℤ (Option UeInfo) Event} {ok : Policy ℤ Event}

theorem busyServed_of_run (keeps : P.reselectOnRlf = false) {ue : UeInfo}
    (run : Run (ueHandler P env i) ok (ueInitial env rows i) h c) (present : c.state = some ue) :
    ue.BusyServed :=
  ueRun_stateInvariant run (fun _ procedure => absurd rfl procedure) (busyServed_ueAction keeps)
    present

theorem markers_initialUe (row : UeRow) : Markers (initialUe env i row) where
  interruption := by simp [initialUe]
  pending := by simp [initialUe]
  target := rfl
  uplink := ⟨by simp [initialUe], fun active => by cases active⟩
  downlink := ⟨by simp [initialUe], fun active => by cases active⟩

/-- An event keeps the markers in agreement exactly if it is not a failed execution. -/
theorem markers_step_iff (lawful : P.Lawful) (keeps : P.reselectOnRlf = false)
    {f : Firing ℤ (Option UeInfo) Event} {ue ue' : UeInfo}
    (prior : Run (ueHandler P env i) ok (ueInitial env rows i) h f.before)
    (step : Step (ueHandler P env i) ok f.before f.event f.after) (present : f.before.state = some ue)
    (after : f.after.state = some ue') (markers : Markers ue) :
    Markers ue' ↔ Succeeds env i f := by
  rcases f with ⟨c, ⟨ts, event⟩, c'⟩
  have state := ueState_of_step step present
  obtain rfl := Option.some.inj (after.symm.trans state)
  have link := linkInvariant_of_run lawful prior present
  have busy := busyServed_of_run keeps prior present
  have other : (∀ source target, event ≠ .cho .phase7ExecutionComplete i source target) →
      Succeeds env i ⟨c, ⟨ts, event⟩, c'⟩ :=
    fun different source target _ completes => absurd completes.event (different source target)
  rcases event with _ | ⟨handler, ueId, sourceCell, targetCell⟩ | _
  · refine iff_of_true ?_ (other fun _ _ => by simp)
    rw [ueAction_tick]
    obtain ⟨ue₁, measured, action⟩ := ueTick_action lawful env i (getSeconds ts) ue
    refine action.markers ?_ (measured.servingCached lawful link.served)
      (measured.only.busyServed (busyServed_updated busy))
    exact (markers_updated markers).of_measured measured.only
  · obtain ⟨rfl, guard, -⟩ := guard_of_step prior step present
    rw [ueAction_cho]
    by_cases early : handler = .phase7ExecutionComplete
    case neg =>
      refine iff_of_true (markers.of_move (sameMarks_choHandler early) ?_ ?_)
        (other fun _ _ => by simp [early])
      · rw [guard]
        cases handler <;> first | decide | exact absurd rfl early
      · rw [choHandler_phase _ _ _ _ _ _ guard]
        cases handler <;> decide
    case pos =>
      subst early
      constructor
      · intro marked source target before ⟨fired, seen⟩
        obtain rfl := Option.some.inj (present.symm.trans seen)
        obtain ⟨rfl, rfl⟩ : sourceCell = source ∧ targetCell = target := by simpa using fired
        by_contra failed
        exact not_markers_choPhase7 markers guard failed marked
      · intro succeeds
        obtain ⟨viable, named⟩ := succeeds sourceCell targetCell ue ⟨rfl, present⟩
        exact markers_choPhase7_viable guard viable named
  · cases (ueQueue_of_run prior _ step.mem_queue).1

/-- Along a run the markers agree exactly if every execution succeeds. -/
theorem markers_ueRun_iff (lawful : P.Lawful) (keeps : P.reselectOnRlf = false)
    (run : Run (ueHandler P env i) ok (ueInitial env rows i) h c) :
    ((∀ f ∈ h, ∀ ue, f.after.state = some ue → Markers ue) ↔ ∀ f ∈ h, Succeeds env i f) ∧
      ((∀ f ∈ h, Succeeds env i f) → ∀ ue, c.state = some ue → Markers ue) := by
  induction run with
  | nil =>
      refine ⟨iff_of_true (fun f member => ?_) (fun f member => ?_), ?_⟩
      · cases member
      · cases member
      · intro _ ue present
        obtain ⟨row, -, rfl⟩ := Option.map_eq_some_iff.mp present
        exact markers_initialUe row
  | @snoc h c c' p prior step ih =>
      obtain ⟨same, reached⟩ := ih
      have last : (∀ f ∈ h, Succeeds env i f) →
          ((∀ ue, c'.state = some ue → Markers ue) ↔ Succeeds env i ⟨c, p, c'⟩) := by
        intro earlier
        cases state : c.state with
        | none =>
            have gone : c'.state = none := by
              cases step with
              | fire _ =>
                  obtain rfl : _ = none := state
                  rfl
            refine iff_of_true (fun ue after => ?_) fun source target ue completes => ?_
            · rw [gone] at after
              cases after
            · have present := completes.before
              rw [state] at present
              cases present
        | some ue =>
            have after := ueState_of_step step state
            rw [after]
            simp only [Option.some.injEq, forall_eq']
            exact markers_step_iff (f := ⟨c, p, c'⟩) lawful keeps prior step state after
              (reached earlier ue state)
      simp only [List.forall_mem_append, List.forall_mem_singleton]
      refine ⟨⟨fun ⟨agree, now⟩ => ?_, fun ⟨earlier, now⟩ => ?_⟩, fun ⟨earlier, now⟩ => ?_⟩
      · have earlier := same.mp agree
        exact ⟨earlier, (last earlier).mp now⟩
      · exact ⟨same.mpr earlier, (last earlier).mpr now⟩
      · exact (last earlier).mpr now

end Run

/-- **The markers of an execution.** Along a run the markers of UE `i` agree in every state exactly
if every execution finds its target viable, and with a name; and then they agree in the state
reached. -/
theorem markers_iff {rows : List UeRow} {h : List (Firing ℤ Sim Event)} {c : Conf ℤ Sim Event}
    (run : AnyOrderRun tdCho env rows h c) (i : ℕ) :
    ((∀ f ∈ ueHistory tdCho env i h, ∀ ue, f.after.state = some ue → Markers ue) ↔
        ∀ f ∈ ueHistory tdCho env i h, Succeeds env i f) ∧
      ((∀ f ∈ ueHistory tdCho env i h, Succeeds env i f) →
        ∀ ue, c.state.ues[i]? = some ue → Markers ue) :=
  markers_ueRun_iff TdCho.lawful rfl (run.toUe i)

theorem markers_iff_crossing :
    ∃ ue, (sampleRun tdCho crossing sampleRows 11).2.state.ues[0]? = some ue ∧
      ue.choProcState.phase = .idle ∧ ue.hoCount = 1 ∧ Markers ue ∧
      ∀ f ∈ ueHistory tdCho crossing 0 (sampleRun tdCho crossing sampleRows 11).1,
        ∀ ue, f.after.state = some ue → Markers ue := by
  have complete : (sampleRun tdCho crossing sampleRows 11).2.state.ues[0]?.map
      (fun ue => (ue.choProcState.phase, ue.hoCount)) = some (.idle, 1) := by decide +kernel
  have succeed : ∀ f ∈ ueHistory tdCho crossing 0 (sampleRun tdCho crossing sampleRows 11).1,
      Succeeds crossing 0 f := by decide +kernel
  obtain ⟨ue, present, state⟩ := Option.map_eq_some_iff.mp complete
  obtain ⟨idle, success⟩ := Prod.mk.inj state
  have markers := markers_iff (simRun_sampleRun tdCho crossing sampleRows 11).anyOrder 0
  exact ⟨ue, present, idle, success, markers.2 succeed ue present, markers.1.mpr succeed⟩

/-- `N` is too far away to be viable, though its signal is strong enough. -/
def remote : Env where
  link :=
    { sampleLink
        [overhead "S" [(0, 500000), (1, 5000000), (60, 5000000)],
          overhead "N" [(0, 3000000), (60, 3000000)]] with
      txPower := 40 }
  ho := {}

/-- After the failed execution of `remote` the UE is idle with its execution pending. -/
theorem markers_fail_remote :
    ¬ ∀ {env : Env} {rows : List UeRow} {h : List (Firing ℤ Sim Event)} {c : Conf ℤ Sim Event},
      AnyOrderRun tdCho env rows h c → ∀ (i : ℕ) ue, c.state.ues[i]? = some ue → Markers ue := by
  intro always
  have failed : (sampleRun tdCho remote sampleRows 11).2.state.ues[0]?.map
      (fun ue => (ue.choProcState.phase, ue.hoFail, ue.choConfigState.executionPending)) =
      some (.idle, 1, true) := by decide +kernel
  obtain ⟨ue, present, state⟩ := Option.map_eq_some_iff.mp failed
  simp only [Prod.mk.injEq] at state
  obtain ⟨idle, -, pending⟩ := state
  have markers := always (simRun_sampleRun tdCho remote sampleRows 11).anyOrder 0 ue present
  have executing := markers.pending.mp pending
  rw [idle] at executing
  cases executing

end NtnCho
