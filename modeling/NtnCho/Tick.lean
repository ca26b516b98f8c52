import NtnCho.Cache

/-!
# A tick in detail

`ueTick_spec` says what a tick does to the procedure of a UE. This module says what it does to the
rest: `UeInfo.updated` is the UE after the channel update, `UeInfo.due?` the UE that is measured at
the tick, if it is, and `checkHandover_spec` splits the tick accordingly. A measurement writes what
`OnlyMeasured` says, no action on the procedure touches the link (`SameLink`), and `ueTick_action`
puts the two together. From this follows `LinkInvariant`, which holds along every run: the cache is
good, the serving satellite is cached, the configuration stays.
-/

namespace NtnCho

open EventSystem

variable {P : Program} {env : Env}

/-! ## The UE that is measured -/

/-- The UE after the channel update of a tick. -/
def UeInfo.updated (P : Program) (env : Env) (simTime : ℚ) (ue : UeInfo) : UeInfo :=
  updateChannelState P env simTime (updateChannelCache P env simTime ue)

/-- The UE for which `CheckHandover` calls `UE_EvaluateAndReport`, when it does. -/
def UeInfo.due? (simTime : ℚ) (ue : UeInfo) : Option UeInfo :=
  let adopted := ue.adoptServingCell simTime
  if ue.choProcState.phase ≠ .idle ∨ ue.hoState.currentPhase ≠ .idle ∨
      ue.context.servingGnb = "" ∨
      simTime - adopted.measState.lastMeasurementTime < adopted.measConfig.measurementPeriod then
    none
  else some (adopted.startMeasurement simTime)

/-- A tick acts on the procedure of a UE that is not idle, leaves an idle UE that is not measured
alone, and measures the others. -/
theorem checkHandover_spec (P : Program) (env : Env) (ueId : ℕ) (simTime : ℚ) (ue : UeInfo) :
    (ue.choProcState.phase ≠ .idle ∧ ue.due? simTime = none ∧
        TickAction P env ueId simTime ue (checkHandover P env ueId simTime ue)) ∨
      (ue.choProcState.phase = .idle ∧ ue.due? simTime = none ∧
        (checkHandover P env ueId simTime ue = (ue, []) ∨
          checkHandover P env ueId simTime ue = (ue.adoptServingCell simTime, []))) ∨
      ∃ due, ue.choProcState.phase = .idle ∧ ue.due? simTime = some due ∧
        checkHandover P env ueId simTime ue = measureAndReport P env ueId simTime due := by
  unfold UeInfo.due? checkHandover
  dsimp only
  by_cases idle : ue.choProcState.phase = .idle
  case neg =>
    refine .inl ⟨idle, if_pos (.inl idle), ?_⟩
    rw [if_pos idle]
    split
    · rename_i evaluating
      exact choCheckExecutionCondition_action evaluating
    · exact .quiet []
  case pos =>
    refine .inr ?_
    rw [if_neg (not_not.mpr idle)]
    split
    · rename_i stale
      refine .inl ⟨idle, rfl, ?_⟩
      split
      · exact .inl rfl
      · split
        · exact .inl rfl
        · rename_i handing serving
          have early := stale.resolve_left (not_not.mpr idle) |>.resolve_left handing
            |>.resolve_left serving
          rw [if_pos early]
          exact .inr rfl
    · rename_i due
      simp only [not_or] at due
      obtain ⟨-, handing, serving, late⟩ := due
      refine .inr ⟨_, idle, rfl, ?_⟩
      rw [if_neg handing, if_neg serving, if_neg late]

/-! ## What a measurement writes -/

/-- `ue'` differs from `ue` at most in what a measurement writes. -/
def OnlyMeasured (ue ue' : UeInfo) : Prop :=
  ue' = { ue with phy := ue'.phy, measState := ue'.measState, hoContext := ue'.hoContext }

theorem OnlyMeasured.refl (ue : UeInfo) : OnlyMeasured ue ue := rfl

theorem OnlyMeasured.trans {ue₁ ue₂ ue₃ : UeInfo} (first : OnlyMeasured ue₁ ue₂)
    (second : OnlyMeasured ue₂ ue₃) : OnlyMeasured ue₁ ue₃ := by
  unfold OnlyMeasured at first second ⊢
  rw [second, first]

theorem OnlyMeasured.geo {ue ue' : UeInfo} (only : OnlyMeasured ue ue') : ue'.geo = ue.geo := by
  unfold OnlyMeasured at only
  rw [only]

theorem OnlyMeasured.context {ue ue' : UeInfo} (only : OnlyMeasured ue ue') :
    ue'.context = ue.context := by
  unfold OnlyMeasured at only
  rw [only]

theorem OnlyMeasured.measConfig {ue ue' : UeInfo} (only : OnlyMeasured ue ue') :
    ue'.measConfig = ue.measConfig := by
  unfold OnlyMeasured at only
  rw [only]

theorem OnlyMeasured.hoState {ue ue' : UeInfo} (only : OnlyMeasured ue ue') :
    ue'.hoState = ue.hoState := by
  unfold OnlyMeasured at only
  rw [only]

theorem OnlyMeasured.choProcState {ue ue' : UeInfo} (only : OnlyMeasured ue ue') :
    ue'.choProcState = ue.choProcState := by
  unfold OnlyMeasured at only
  rw [only]

theorem OnlyMeasured.phase {ue ue' : UeInfo} (only : OnlyMeasured ue ue') :
    ue'.choProcState.phase = ue.choProcState.phase :=
  congrArg UeChoProcedureState.phase only.choProcState

theorem onlyMeasured_adoptServingCell (simTime : ℚ) (ue : UeInfo) :
    OnlyMeasured ue (ue.adoptServingCell simTime) := by
  unfold UeInfo.adoptServingCell
  dsimp only
  split <;> rfl

@[simp] theorem UeInfo.adoptServingCell_phy (simTime : ℚ) (ue : UeInfo) :
    (ue.adoptServingCell simTime).phy = ue.phy := by
  unfold UeInfo.adoptServingCell
  dsimp only
  split <;> rfl

theorem UeInfo.due?_eq_some {simTime : ℚ} {ue due : UeInfo} (measured : ue.due? simTime = some due) :
    due = (ue.adoptServingCell simTime).startMeasurement simTime ∧
      ue.choProcState.phase = .idle ∧ ue.context.servingGnb ≠ "" := by
  unfold UeInfo.due? at measured
  dsimp only at measured
  split at measured
  · cases measured
  · rename_i due
    simp only [not_or, not_not] at due
    exact ⟨(Option.some.inj measured).symm, due.1, due.2.2.1⟩

theorem onlyMeasured_of_due {simTime : ℚ} {ue due : UeInfo}
    (measured : ue.due? simTime = some due) : OnlyMeasured ue due := by
  obtain ⟨rfl, -⟩ := UeInfo.due?_eq_some measured
  exact (onlyMeasured_adoptServingCell simTime ue).trans rfl

theorem UeInfo.due_phy {simTime : ℚ} {ue due : UeInfo} (measured : ue.due? simTime = some due) :
    due.phy = ue.phy := by
  obtain ⟨rfl, -⟩ := UeInfo.due?_eq_some measured
  exact ue.adoptServingCell_phy simTime

/-- A measured UE measures the cell that serves it. -/
theorem UeInfo.due_servingCellId {simTime : ℚ} {ue due : UeInfo}
    (measured : ue.due? simTime = some due) :
    due.measState.servingCellId = ue.context.servingGnb := by
  obtain ⟨rfl, -⟩ := UeInfo.due?_eq_some measured
  unfold UeInfo.startMeasurement UeInfo.adoptServingCell
  dsimp only
  split
  · rfl
  · rename_i same
    exact not_not.mp fun other => same (.inr other)

/-- What `evaluateNeighbors` finds for the UE. -/
def UeInfo.evaluation (P : Program) (env : Env) (ueId : ℕ) (simTime : ℚ) (ue : UeInfo)
    (servingMeas : MeasResultCell) : Evaluation :=
  P.evaluateNeighbors env ueId simTime (ue.measured servingMeas) servingMeas
    (uePerformMeasurements (P.snrFloor env.ho) env simTime ue)

/-- The serving cell of the UE as it is measured, unless it is not detectable. -/
def UeInfo.serving? (P : Program) (env : Env) (simTime : ℚ) (ue : UeInfo) : Option MeasResultCell :=
  servingMeasurement (uePerformMeasurements (P.snrFloor env.ho) env simTime ue)
    ue.measState.servingCellId

/-- The exits of `UE_EvaluateAndReport`. -/
theorem ueEvaluateAndReport_cases (P : Program) (env : Env) (ueId : ℕ) (simTime : ℚ) (ue : UeInfo) :
    (ue.measState.servingCellId = "" ∧
        ueEvaluateAndReport P env ueId simTime ue =
          ({ ue with hoContext := resetHoContext }, none, [])) ∨
      (ue.serving? P env simTime = none ∧
        ueEvaluateAndReport P env ueId simTime ue =
          ({ ue with hoContext := resetHoContext },
            some (rlfReport simTime ue.measState.servingCellId), [])) ∨
      ∃ servingMeas, ue.serving? P env simTime = some servingMeas ∧
        ueEvaluateAndReport P env ueId simTime ue =
          ((timeToTrigger P simTime servingMeas (ue.evaluation P env ueId simTime servingMeas)
              (ue.evaluated (ue.evaluation P env ueId simTime servingMeas))).1,
            (timeToTrigger P simTime servingMeas (ue.evaluation P env ueId simTime servingMeas)
              (ue.evaluated (ue.evaluation P env ueId simTime servingMeas))).2,
            (ue.evaluation P env ueId simTime servingMeas).records) := by
  unfold ueEvaluateAndReport UeInfo.serving?
  dsimp only
  split
  · rename_i none
    exact .inl ⟨none, rfl⟩
  · refine .inr ?_
    cases found : servingMeasurement (uePerformMeasurements (P.snrFloor env.ho) env simTime ue)
      ue.measState.servingCellId with
    | none => exact .inl ⟨rfl, rfl⟩
    | some servingMeas => exact .inr ⟨servingMeas, rfl, rfl⟩

/-- What the time-to-trigger logic does to the timer: it starts it, ends it with a report, waits, or
resets it. -/
theorem timeToTrigger_cases (P : Program) (simTime : ℚ) (servingMeas : MeasResultCell)
    (evaluation : Evaluation) (ue : UeInfo) :
    (evaluation.triggerConditionMet = true ∧
        timeToTrigger P simTime servingMeas evaluation ue =
          ({ ue with
              measState :=
                { ue.measState with
                  triggerActive := true
                  triggerStartTime := simTime
                  candidateTargetCell := evaluation.candidateCell } }, none)) ∨
      (evaluation.triggerConditionMet = true ∧ ue.measState.triggerActive = true ∧
        (evaluation.ntnTrigger = true ∨
          evaluation.candidateCell = ue.measState.candidateTargetCell) ∧
        ((ue.measConfig.timeToTrigger ≤ simTime - ue.measState.triggerStartTime ∧
            timeToTrigger P simTime servingMeas evaluation ue =
              ({ ue with
                  measState :=
                    { ue.measState with
                      reportsSent := ue.measState.reportsSent + 1
                      lastReportTime := simTime
                      triggerActive := false } },
                some (measurementReport P simTime servingMeas evaluation))) ∨
          timeToTrigger P simTime servingMeas evaluation ue = (ue, none))) ∨
      (evaluation.triggerConditionMet = false ∧
        timeToTrigger P simTime servingMeas evaluation ue =
          ({ ue with
              measState :=
                { ue.measState with
                  triggerActive := false, triggerStartTime := -1, candidateTargetCell := "" }
              hoContext := resetHoContext }, none)) := by
  unfold timeToTrigger
  dsimp only
  cases met : evaluation.triggerConditionMet with
  | false => exact .inr (.inr ⟨rfl, rfl⟩)
  | true =>
      rw [if_pos rfl]
      cases active : ue.measState.triggerActive with
      | false => exact .inl ⟨rfl, rfl⟩
      | true =>
          rw [if_neg (by simp)]
          split
          · exact .inl ⟨rfl, rfl⟩
          · rename_i same
            refine .inr (.inl ⟨rfl, rfl, ?_, ?_⟩)
            · simpa [or_iff_not_imp_left] using same
            · split
              · rename_i elapsed
                exact .inl ⟨elapsed, rfl⟩
              · exact .inr rfl

theorem onlyMeasured_timeToTrigger (simTime : ℚ) (servingMeas : MeasResultCell)
    (evaluation : Evaluation) (ue : UeInfo) :
    OnlyMeasured ue (timeToTrigger P simTime servingMeas evaluation ue).1 := by
  rcases timeToTrigger_cases P simTime servingMeas evaluation ue with
    ⟨-, starts⟩ | ⟨-, -, -, ⟨-, reports⟩ | waits⟩ | ⟨-, resets⟩
  · rw [starts]
    rfl
  · rw [reports]
    rfl
  · rw [waits]
    rfl
  · rw [resets]
    rfl

@[simp] theorem timeToTrigger_phy (simTime : ℚ) (servingMeas : MeasResultCell)
    (evaluation : Evaluation) (ue : UeInfo) :
    (timeToTrigger P simTime servingMeas evaluation ue).1.phy = ue.phy := by
  rcases timeToTrigger_cases P simTime servingMeas evaluation ue with
    ⟨-, starts⟩ | ⟨-, -, -, ⟨-, reports⟩ | waits⟩ | ⟨-, resets⟩
  · rw [starts]
  · rw [reports]
  · rw [waits]
  · rw [resets]

theorem onlyMeasured_ueEvaluateAndReport (P : Program) (env : Env) (ueId : ℕ) (simTime : ℚ)
    (ue : UeInfo) :
    OnlyMeasured ue (ueEvaluateAndReport P env ueId simTime ue).1 := by
  rcases ueEvaluateAndReport_cases P env ueId simTime ue with
    ⟨-, unserved⟩ | ⟨-, failed⟩ | ⟨servingMeas, -, evaluated⟩
  · rw [unserved]
    rfl
  · rw [failed]
    rfl
  · rw [evaluated]
    exact (show OnlyMeasured ue (ue.evaluated (ue.evaluation P env ueId simTime servingMeas)) from rfl).trans
      (onlyMeasured_timeToTrigger ..)

/-- A measurement changes the physical layer by link updates alone. -/
theorem phyReach_ueEvaluateAndReport (lawful : P.Lawful) (env : Env) (ueId : ℕ) (simTime : ℚ) (ue : UeInfo) :
    PhyReach P.phyRules env ue.geo ue.phy (ueEvaluateAndReport P env ueId simTime ue).1.phy := by
  rcases ueEvaluateAndReport_cases P env ueId simTime ue with
    ⟨-, unserved⟩ | ⟨-, failed⟩ | ⟨servingMeas, -, evaluated⟩
  · rw [unserved]
    exact .refl
  · rw [failed]
    exact .refl
  · rw [evaluated, timeToTrigger_phy]
    exact lawful.phy env ueId simTime (ue.measured servingMeas) servingMeas _

/-! ## What a phase before the completion writes -/

/-- `ue'` differs from `ue` at most in what a phase before the completion writes. -/
def OnlyProcedure (ue ue' : UeInfo) : Prop :=
  ue' = { ue with
    choProcState := ue'.choProcState
    choConfigState := ue'.choConfigState
    choNtnStats := ue'.choNtnStats }

theorem OnlyProcedure.count {op : StatOp} {ue ue' : UeInfo} (only : OnlyProcedure ue ue') :
    OnlyProcedure ue (ue'.count P op) := by
  unfold OnlyProcedure at only ⊢
  unfold UeInfo.count
  split
  · rw [only]
  · exact only

theorem OnlyProcedure.context {ue ue' : UeInfo} (only : OnlyProcedure ue ue') :
    ue'.context = ue.context := by
  unfold OnlyProcedure at only
  rw [only]

theorem OnlyProcedure.measState {ue ue' : UeInfo} (only : OnlyProcedure ue ue') :
    ue'.measState = ue.measState := by
  unfold OnlyProcedure at only
  rw [only]

theorem OnlyProcedure.hoContext {ue ue' : UeInfo} (only : OnlyProcedure ue ue') :
    ue'.hoContext = ue.hoContext := by
  unfold OnlyProcedure at only
  rw [only]

theorem OnlyProcedure.hoCount {ue ue' : UeInfo} (only : OnlyProcedure ue ue') :
    ue'.hoCount = ue.hoCount := by
  unfold OnlyProcedure at only
  rw [only]

theorem onlyProcedure_choTriggerProcedure (ueId : ℕ) (simTime : ℚ) (report : MeasurementReport)
    (ue : UeInfo) : OnlyProcedure ue (choTriggerProcedure P ueId simTime report ue).1 := by
  unfold choTriggerProcedure
  split
  · rfl
  · exact OnlyProcedure.count rfl

theorem onlyProcedure_choHandler {handler : ChoHandler} {ueId : ℕ}
    {sourceCell targetCell : String} {simTime : ℚ} {ue : UeInfo}
    (early : handler ≠ .phase7ExecutionComplete) :
    OnlyProcedure ue (choHandler P env handler ueId sourceCell targetCell simTime ue).1 := by
  have advance : ∀ {expected next delay handler'},
      OnlyProcedure ue
        (choAdvance expected next delay handler' ueId sourceCell targetCell simTime ue).1 := by
    intro expected next delay handler'
    unfold choAdvance
    split <;> rfl
  cases handler with
  | phase1ReportArrived => exact advance
  | phase2SendXnRequest => exact advance
  | phase3XnResponse => exact advance
  | phase4SendRrcReconfig =>
      simp only [choHandler, choPhase4SendRrcReconfig]
      split
      · rfl
      · exact OnlyProcedure.count rfl
  | phase5UeStoresConfig =>
      simp only [choHandler, choPhase5UeStoresConfig]
      split
      · rfl
      · exact OnlyProcedure.count rfl
  | phase7ExecutionComplete => exact absurd rfl early

/-! ## What no action on the procedure touches -/

/-- `ue'` has the link and the configuration of `ue`. -/
structure SameLink (ue ue' : UeInfo) : Prop where
  geo : ue'.geo = ue.geo
  measConfig : ue'.measConfig = ue.measConfig
  currentPhase : ue'.hoState.currentPhase = ue.hoState.currentPhase
  phy : ue'.phy = ue.phy

theorem SameLink.refl (ue : UeInfo) : SameLink ue ue := ⟨rfl, rfl, rfl, rfl⟩

theorem SameLink.trans {ue₁ ue₂ ue₃ : UeInfo} (first : SameLink ue₁ ue₂)
    (second : SameLink ue₂ ue₃) : SameLink ue₁ ue₃ where
  geo := second.geo.trans first.geo
  measConfig := second.measConfig.trans first.measConfig
  currentPhase := second.currentPhase.trans first.currentPhase
  phy := second.phy.trans first.phy

theorem SameLink.count {op : StatOp} {ue ue' : UeInfo} (same : SameLink ue ue') :
    SameLink ue (ue'.count P op) := by
  unfold UeInfo.count
  split
  · exact same.trans ⟨rfl, rfl, rfl, rfl⟩
  · exact same

theorem SameLink.applyUeErrorModel {ue ue' : UeInfo} (same : SameLink ue ue') :
    SameLink ue (applyUeErrorModelImmediately env ue') := by
  unfold applyUeErrorModelImmediately
  split
  · exact same
  · split
    · exact same
    · exact same.trans ⟨rfl, rfl, rfl, rfl⟩

theorem sameLink_choTriggerProcedure (ueId : ℕ) (simTime : ℚ) (report : MeasurementReport)
    (ue : UeInfo) : SameLink ue (choTriggerProcedure P ueId simTime report ue).1 := by
  unfold choTriggerProcedure
  split
  · exact .refl ue
  · exact .count ⟨rfl, rfl, rfl, rfl⟩

theorem sameLink_choPhase6UeExecutes (ueId : ℕ) (sourceCell targetCell : String) (simTime : ℚ)
    (ue : UeInfo) :
    SameLink ue (choPhase6UeExecutes P env ueId sourceCell targetCell simTime ue).1 := by
  unfold choPhase6UeExecutes
  split
  · exact .refl ue
  · exact .applyUeErrorModel (.count ⟨rfl, rfl, rfl, rfl⟩)

theorem TickAction.sameLink {ueId : ℕ} {simTime : ℚ} {ue : UeInfo} {result : UeInfo × List Effect}
    (action : TickAction P env ueId simTime ue result) : SameLink ue result.1 := by
  cases action with
  | quiet => exact .refl ue
  | timer => exact ⟨rfl, rfl, rfl, rfl⟩
  | expires => exact .count ⟨rfl, rfl, rfl, rfl⟩
  | executes start evaluating =>
      exact SameLink.trans (show SameLink ue (ue.setExecutionTtt false start) from ⟨rfl, rfl, rfl, rfl⟩)
        (sameLink_choPhase6UeExecutes ..)
  | reports => exact sameLink_choTriggerProcedure ..
  | reselects => exact ⟨rfl, rfl, rfl, rfl⟩

theorem sameLink_choPhase7ExecutionComplete (ueId : ℕ) (sourceCell targetCell : String)
    (simTime : ℚ) (ue : UeInfo) :
    SameLink ue (choPhase7ExecutionComplete P env ueId sourceCell targetCell simTime ue).1 := by
  unfold choPhase7ExecutionComplete
  split
  · exact .refl ue
  · dsimp only
    split
    · have handed : ∀ op, SameLink ue (applyUeErrorModelImmediately env
          ((ue.count P op).handedOver targetCell)) := fun op =>
        .applyUeErrorModel ((SameLink.refl ue).count.trans ⟨rfl, rfl, rfl, rfl⟩)
      exact (handed _).trans ⟨rfl, rfl, rfl, rfl⟩
    · exact (SameLink.refl ue).count.trans ⟨rfl, rfl, rfl, rfl⟩

theorem OnlyProcedure.sameLink {ue ue' : UeInfo} (only : OnlyProcedure ue ue') : SameLink ue ue' := by
  unfold OnlyProcedure at only
  rw [only]
  exact ⟨rfl, rfl, rfl, rfl⟩

theorem sameLink_choHandler (P : Program) (env : Env) (handler : ChoHandler) (ueId : ℕ)
    (sourceCell targetCell : String) (simTime : ℚ) (ue : UeInfo) :
    SameLink ue (choHandler P env handler ueId sourceCell targetCell simTime ue).1 := by
  by_cases completes : handler = .phase7ExecutionComplete
  case pos =>
    subst completes
    exact sameLink_choPhase7ExecutionComplete ..
  case neg => exact (onlyProcedure_choHandler completes).sameLink

/-! ## The decision of a procedure -/

/-- `s'` is a later state of the procedure that `s` is a state of: what it took from its report is
the same. -/
structure SameDecision (s s' : UeChoProcedureState) : Prop where
  sourceCell : s'.sourceCell = s.sourceCell
  targetCell : s'.targetCell = s.targetCell
  procedureStartTime : s'.procedureStartTime = s.procedureStartTime
  servingSnrAtReport : s'.servingSnrAtReport = s.servingSnrAtReport
  targetSnrAtReport : s'.targetSnrAtReport = s.targetSnrAtReport

theorem SameDecision.refl (s : UeChoProcedureState) : SameDecision s s := ⟨rfl, rfl, rfl, rfl, rfl⟩

theorem sameDecision_choPhase6UeExecutes (P : Program) (env : Env) (ueId : ℕ)
    (sourceCell targetCell : String) (simTime : ℚ) (ue : UeInfo) :
    SameDecision ue.choProcState
      (choPhase6UeExecutes P env ueId sourceCell targetCell simTime ue).1.choProcState := by
  unfold choPhase6UeExecutes
  split
  · exact .refl _
  · dsimp only
    rw [applyUeErrorModelImmediately_choProcState, UeInfo.count_choProcState]
    exact ⟨rfl, rfl, rfl, rfl, rfl⟩

/-- An action of a tick on a procedure leaves its decision alone. -/
theorem TickAction.sameDecision {ueId : ℕ} {simTime : ℚ} {ue : UeInfo}
    {result : UeInfo × List Effect} (action : TickAction P env ueId simTime ue result)
    (busy : ue.choProcState.phase ≠ .idle) :
    SameDecision ue.choProcState result.1.choProcState := by
  cases action with
  | quiet => exact .refl _
  | timer => exact ⟨rfl, rfl, rfl, rfl, rfl⟩
  | expires =>
      rw [choConfigExpired, UeInfo.count_choProcState]
      exact ⟨rfl, rfl, rfl, rfl, rfl⟩
  | executes start evaluating =>
      obtain ⟨source, target, started, serving, neighbor⟩ := sameDecision_choPhase6UeExecutes P env
        ueId ue.choProcState.sourceCell ue.choProcState.targetCell simTime
        (ue.setExecutionTtt false start)
      exact ⟨source, target, started, serving, neighbor⟩
  | reports _ _ idle => exact absurd idle busy
  | reselects _ idle => exact absurd idle busy

/-- A phase leaves the decision of the procedure alone. -/
theorem sameDecision_choHandler (P : Program) (env : Env) (handler : ChoHandler) (ueId : ℕ)
    (sourceCell targetCell : String) (simTime : ℚ) (ue : UeInfo) :
    SameDecision ue.choProcState
      (choHandler P env handler ueId sourceCell targetCell simTime ue).1.choProcState := by
  have advance : ∀ {expected next delay handler'},
      SameDecision ue.choProcState (choAdvance expected next delay handler' ueId sourceCell targetCell
        simTime ue).1.choProcState := by
    intro expected next delay handler'
    unfold choAdvance
    split <;> exact ⟨rfl, rfl, rfl, rfl, rfl⟩
  cases handler with
  | phase1ReportArrived => exact advance
  | phase2SendXnRequest => exact advance
  | phase3XnResponse => exact advance
  | phase4SendRrcReconfig =>
      simp only [choHandler, choPhase4SendRrcReconfig]
      split
      · exact .refl _
      · rw [UeInfo.count_choProcState]
        exact ⟨rfl, rfl, rfl, rfl, rfl⟩
  | phase5UeStoresConfig =>
      simp only [choHandler, choPhase5UeStoresConfig]
      split
      · exact .refl _
      · rw [UeInfo.count_choProcState]
        exact ⟨rfl, rfl, rfl, rfl, rfl⟩
  | phase7ExecutionComplete =>
      simp only [choHandler, choPhase7ExecutionComplete]
      split
      · exact .refl _
      · split
        · simp only [UeInfo.completed, applyUeErrorModelImmediately_choProcState,
            UeInfo.handedOver, UeInfo.count_choProcState]
          exact ⟨rfl, rfl, rfl, rfl, rfl⟩
        · simp only [choHandleFailure, UeInfo.count_choProcState]
          exact ⟨rfl, rfl, rfl, rfl, rfl⟩

/-! ## The link of a UE along a run -/

theorem sameLink_selectServing (simTime : ℚ) (ue : UeInfo) :
    SameLink ue (ue.selectServing P env simTime) := by
  unfold UeInfo.selectServing
  split
  · dsimp only
    split
    · exact .refl ue
    · exact ⟨rfl, rfl, rfl, rfl⟩
  · exact .refl ue

theorem sameLink_setChannel (ue : UeInfo) : SameLink ue (ue.setChannel env) := by
  unfold UeInfo.setChannel
  split
  · exact .refl ue
  · split
    · exact .refl ue
    · exact ⟨rfl, rfl, rfl, rfl⟩

theorem sameLink_updateChannelState (simTime : ℚ) (ue : UeInfo) :
    SameLink ue (updateChannelState P env simTime ue) :=
  (sameLink_selectServing simTime ue).trans (sameLink_setChannel _)

theorem UeInfo.updated_phy (simTime : ℚ) (ue : UeInfo) :
    (ue.updated P env simTime).phy =
      (updateAllSatellites P.phyRules env ue.geo simTime env.link.satellites.keys ue.phy).2 :=
  (sameLink_updateChannelState simTime _).phy

theorem sameProcedure_updated (P : Program) (env : Env) (simTime : ℚ) (ue : UeInfo) :
    SameProcedure ue (ue.updated P env simTime) :=
  (sameProcedure_updateChannelCache simTime ue).trans (sameProcedure_updateChannelState simTime _)

/-- How an event changes the link of a UE: by link updates alone. -/
structure LinkStep (P : Program) (env : Env) (ue ue' : UeInfo) : Prop where
  geo : ue'.geo = ue.geo
  measConfig : ue'.measConfig = ue.measConfig
  currentPhase : ue'.hoState.currentPhase = ue.hoState.currentPhase
  phy : PhyReach P.phyRules env ue.geo ue.phy ue'.phy

theorem SameLink.step {ue ue' : UeInfo} (same : SameLink ue ue') : LinkStep P env ue ue' where
  geo := same.geo
  measConfig := same.measConfig
  currentPhase := same.currentPhase
  phy := by
    rw [same.phy]
    exact .refl

theorem LinkStep.trans {ue₁ ue₂ ue₃ : UeInfo} (first : LinkStep P env ue₁ ue₂)
    (second : LinkStep P env ue₂ ue₃) : LinkStep P env ue₁ ue₃ where
  geo := second.geo.trans first.geo
  measConfig := second.measConfig.trans first.measConfig
  currentPhase := second.currentPhase.trans first.currentPhase
  phy := by
    have later := second.phy
    rw [first.geo] at later
    exact first.phy.trans later

theorem linkStep_updated (P : Program) (env : Env) (simTime : ℚ) (ue : UeInfo) :
    LinkStep P env ue (ue.updated P env simTime) where
  geo := (sameLink_updateChannelState simTime _).geo
  measConfig := (sameLink_updateChannelState simTime _).measConfig
  currentPhase := (sameLink_updateChannelState simTime _).currentPhase
  phy := by
    rw [UeInfo.updated_phy]
    exact phyReach_updateAllSatellites ..

theorem OnlyMeasured.step {ue ue' : UeInfo} (only : OnlyMeasured ue ue')
    (phy : PhyReach P.phyRules env ue.geo ue.phy ue'.phy) : LinkStep P env ue ue' where
  geo := only.geo
  measConfig := only.measConfig
  currentPhase := congrArg HandoverState.currentPhase only.hoState
  phy := phy

/-- A program that does not re-select starts a procedure from every report. -/
theorem measureAndReport_fst (keeps : P.reselectOnRlf = false) (ueId : ℕ) (simTime : ℚ)
    (due : UeInfo) :
    (measureAndReport P env ueId simTime due).1 =
      match (ueEvaluateAndReport P env ueId simTime due).2.1 with
      | none => (ueEvaluateAndReport P env ueId simTime due).1
      | some report =>
          (choTriggerProcedure P ueId simTime report
            (ueEvaluateAndReport P env ueId simTime due).1).1 := by
  unfold measureAndReport handleReport
  dsimp only
  rw [keeps]
  cases (ueEvaluateAndReport P env ueId simTime due).2.1 <;> rfl

/-- What becomes of the report of a measurement: there is none or it is ignored, a failure report makes
the UE re-select, and any other starts a procedure. -/
theorem measureAndReport_cases (P : Program) (env : Env) (ueId : ℕ) (simTime : ℚ) (due : UeInfo) :
    measureAndReport P env ueId simTime due =
        ((ueEvaluateAndReport P env ueId simTime due).1,
          (ueEvaluateAndReport P env ueId simTime due).2.2.map .record) ∨
      (∃ report, (ueEvaluateAndReport P env ueId simTime due).2.1 = some report ∧
        P.reselectOnRlf = true ∧ report.eventType = "RLF" ∧
        measureAndReport P env ueId simTime due =
          ((ueEvaluateAndReport P env ueId simTime due).1.forceReselection,
            (ueEvaluateAndReport P env ueId simTime due).2.2.map .record)) ∨
      ∃ report, (ueEvaluateAndReport P env ueId simTime due).2.1 = some report ∧
        (P.reselectOnRlf = true → report.eventType ≠ "RLF" ∧ report.neighborCells ≠ []) ∧
        measureAndReport P env ueId simTime due =
          ((choTriggerProcedure P ueId simTime report
              (ueEvaluateAndReport P env ueId simTime due).1).1,
            (ueEvaluateAndReport P env ueId simTime due).2.2.map .record ++
              (choTriggerProcedure P ueId simTime report
                (ueEvaluateAndReport P env ueId simTime due).1).2) := by
  unfold measureAndReport
  dsimp only
  cases (ueEvaluateAndReport P env ueId simTime due).2.1 with
  | none => exact .inl rfl
  | some report =>
      unfold handleReport
      dsimp only
      by_cases reselection : P.reselectOnRlf = true
      case neg =>
        rw [if_neg reselection]
        exact .inr (.inr ⟨report, rfl, fun always => absurd always reselection, rfl⟩)
      case pos =>
        rw [if_pos reselection]
        by_cases rlf : report.eventType = "RLF"
        · rw [if_pos rlf]
          exact .inr (.inl ⟨report, rfl, reselection, rlf, by rw [List.append_nil]⟩)
        · rw [if_neg rlf]
          by_cases neighbours : report.neighborCells = []
          · rw [if_neg (not_not.mpr neighbours)]
            exact .inl (by rw [List.append_nil])
          · rw [if_pos neighbours]
            exact .inr (.inr ⟨report, rfl, fun _ => ⟨rlf, neighbours⟩, rfl⟩)

/-- `ue'` is `ue` after the channel update and the measurements of a tick. -/
structure MeasuredBy (P : Program) (env : Env) (simTime : ℚ) (ue ue' : UeInfo) : Prop where
  only : OnlyMeasured (ue.updated P env simTime) ue'
  link : LinkStep P env (ue.updated P env simTime) ue'

/-- A tick leaves the physical layer as the channel update left it, or as the evaluation of a served
UE did. -/
theorem ueTick_phy (P : Program) (env : Env) (ueId : ℕ) (simTime : ℚ) (ue : UeInfo) :
    (ueTick P env ueId simTime ue).1.phy = (ue.updated P env simTime).phy ∨
      ∃ due serving, (ue.updated P env simTime).due? simTime = some due ∧
        due.serving? P env simTime = some serving ∧
        (ueTick P env ueId simTime ue).1.phy = (due.evaluation P env ueId simTime serving).phy := by
  change (checkHandover P env ueId simTime (ue.updated P env simTime)).1.phy = _ ∨ ∃ due serving,
    _ ∧ _ ∧ (checkHandover P env ueId simTime (ue.updated P env simTime)).1.phy = _
  rcases checkHandover_spec P env ueId simTime (ue.updated P env simTime) with
    ⟨-, -, action⟩ | ⟨-, -, stays | adopts⟩ | ⟨due, idle, measured, measures⟩
  · exact .inl action.sameLink.phy
  · rw [stays]
    exact .inl rfl
  · rw [adopts]
    exact .inl (UeInfo.adoptServingCell_phy ..)
  · have action := measureAndReport_action P env ueId simTime
      ((onlyMeasured_of_due measured).phase.trans idle)
    have kept := UeInfo.due_phy measured
    rw [measures, action.sameLink.phy]
    rcases ueEvaluateAndReport_cases P env ueId simTime due with
      ⟨-, unserved⟩ | ⟨-, failed⟩ | ⟨serving, found, evaluated⟩
    · rw [unserved]
      exact .inl kept
    · rw [failed]
      exact .inl kept
    · rw [evaluated, timeToTrigger_phy]
      exact .inr ⟨due, serving, measured, found, rfl⟩

/-- A tick updates the channel, measures, and acts on the procedure. -/
theorem ueTick_action (lawful : P.Lawful) (env : Env) (ueId : ℕ) (simTime : ℚ) (ue : UeInfo) :
    ∃ ue₁, MeasuredBy P env simTime ue ue₁ ∧
      TickAction P env ueId simTime ue₁ (ueTick P env ueId simTime ue) := by
  change ∃ ue₁, MeasuredBy P env simTime ue ue₁ ∧
    TickAction P env ueId simTime ue₁ (checkHandover P env ueId simTime (ue.updated P env simTime))
  rcases checkHandover_spec P env ueId simTime (ue.updated P env simTime) with
    ⟨-, -, action⟩ | ⟨-, -, stays | adopts⟩ | ⟨due, idle, measured, measures⟩
  · exact ⟨_, ⟨.refl _, (SameLink.refl _).step⟩, action⟩
  · rw [stays]
    exact ⟨_, ⟨.refl _, (SameLink.refl _).step⟩, .quiet []⟩
  · rw [adopts]
    have only := onlyMeasured_adoptServingCell simTime (ue.updated P env simTime)
    refine ⟨_, ⟨only, only.step ?_⟩, .quiet []⟩
    rw [UeInfo.adoptServingCell_phy]
    exact .refl
  · rw [measures]
    have only := (onlyMeasured_of_due measured).trans
      (onlyMeasured_ueEvaluateAndReport P env ueId simTime due)
    have reach := phyReach_ueEvaluateAndReport lawful env ueId simTime due
    rw [UeInfo.due_phy measured, (onlyMeasured_of_due measured).geo] at reach
    exact ⟨_, ⟨only, only.step reach⟩, measureAndReport_action P env ueId simTime
      ((onlyMeasured_of_due measured).phase.trans idle)⟩

theorem linkStep_ueAction (lawful : P.Lawful) (i : ℕ) (event : Event) (now : ℤ) (ue : UeInfo) :
    LinkStep P env ue (ueAction P env i event now ue).1 := by
  cases event with
  | checkHandoverConditions =>
      obtain ⟨ue₁, measured, action⟩ := ueTick_action lawful env i (getSeconds now) ue
      exact ((linkStep_updated ..).trans measured.link).trans action.sameLink.step
  | cho handler ueId sourceCell targetCell => exact (sameLink_choHandler ..).step
  | evaluatePendingPrediction => exact (SameLink.refl ue).step

/-! ## The serving satellite -/

/-- The UE has no serving satellite or a cached one. -/
def UeInfo.ServingCached (ue : UeInfo) : Prop :=
  ue.context.servingGnb = "" ∨ ue.context.servingGnb ∈ ue.phy.channel.channelCache

theorem UeInfo.cached_isSome {ue : UeInfo} {cellId : String} :
    (ue.cached cellId).isSome = true ↔ cellId ∈ ue.phy.channel.channelCache := by
  rw [UeInfo.cached, Option.isSome_map, Std.TreeMap.mem_iff_isSome_getElem?]

theorem UeInfo.ServingCached.of_eq {ue ue' : UeInfo} (served : ue.ServingCached)
    (context : ue'.context = ue.context)
    (kept : ue.context.servingGnb ∈ ue.phy.channel.channelCache →
      ue.context.servingGnb ∈ ue'.phy.channel.channelCache) : ue'.ServingCached := by
  unfold UeInfo.ServingCached
  rw [context]
  exact served.imp_right kept

@[simp] theorem UeInfo.setChannel_context (ue : UeInfo) :
    (ue.setChannel env).context = ue.context := by
  unfold UeInfo.setChannel
  split
  · rfl
  · split <;> rfl

theorem UeInfo.setChannel_measState (ue : UeInfo) : (ue.setChannel env).measState = ue.measState := by
  unfold UeInfo.setChannel
  split
  · rfl
  · split <;> rfl

/-- A served UE selects no satellite. -/
theorem selectServing_updateChannelCache {simTime : ℚ} {ue : UeInfo}
    (served : ue.context.servingGnb ≠ "") :
    (updateChannelCache P env simTime ue).selectServing P env simTime =
      updateChannelCache P env simTime ue := if_neg served

theorem updated_context {simTime : ℚ} {ue : UeInfo} (served : ue.context.servingGnb ≠ "") :
    (ue.updated P env simTime).context = ue.context := by
  unfold UeInfo.updated updateChannelState
  rw [UeInfo.setChannel_context, selectServing_updateChannelCache served]
  rfl

theorem updated_measState {simTime : ℚ} {ue : UeInfo} (served : ue.context.servingGnb ≠ "") :
    (ue.updated P env simTime).measState = ue.measState := by
  unfold UeInfo.updated updateChannelState
  rw [UeInfo.setChannel_measState, selectServing_updateChannelCache served]
  rfl

theorem updated_hoContext (simTime : ℚ) (ue : UeInfo) :
    (ue.updated P env simTime).hoContext = ue.hoContext := by
  have selected : ((updateChannelCache P env simTime ue).selectServing P env simTime).hoContext =
      ue.hoContext := by
    unfold UeInfo.selectServing
    dsimp only
    split
    · split <;> rfl
    · rfl
  unfold UeInfo.updated updateChannelState UeInfo.setChannel
  split
  · exact selected
  · split <;> exact selected

/-- The channel update of a tick serves the UE by its satellite, by a selected one or by none. -/
theorem servingCached_updated (lawful : P.Lawful) {simTime : ℚ} {ue : UeInfo}
    (served : ue.ServingCached) : (ue.updated P env simTime).ServingCached := by
  have measured : (updateChannelCache P env simTime ue).ServingCached :=
    served.of_eq rfl (phyReach_updateAllSatellites ..).cached
  refine @UeInfo.ServingCached.of_eq ((updateChannelCache P env simTime ue).selectServing P env
    simTime) _ ?_ (UeInfo.setChannel_context _) fun cached => ?_
  · unfold UeInfo.selectServing
    split
    · dsimp only
      split
      · exact measured
      · rename_i found
        exact .inr ((lawful.selected env simTime _).resolve_left found)
    · exact measured
  · rwa [UeInfo.updated, updateChannelState, (sameLink_setChannel _).phy]

@[simp] theorem UeInfo.count_phy (op : StatOp) (ue : UeInfo) : (ue.count P op).phy = ue.phy := by
  unfold UeInfo.count
  split <;> rfl

@[simp] theorem UeInfo.count_hoState (op : StatOp) (ue : UeInfo) :
    (ue.count P op).hoState = ue.hoState := by
  unfold UeInfo.count
  split <;> rfl

@[simp] theorem UeInfo.count_choConfigState (op : StatOp) (ue : UeInfo) :
    (ue.count P op).choConfigState = ue.choConfigState := by
  unfold UeInfo.count
  split <;> rfl

@[simp] theorem UeInfo.count_context (op : StatOp) (ue : UeInfo) :
    (ue.count P op).context = ue.context := by
  unfold UeInfo.count
  split <;> rfl

@[simp] theorem applyUeErrorModelImmediately_context (ue : UeInfo) :
    (applyUeErrorModelImmediately env ue).context = ue.context := by
  unfold applyUeErrorModelImmediately
  split
  · rfl
  · split <;> rfl

@[simp] theorem choTriggerProcedure_context (ueId : ℕ) (simTime : ℚ) (report : MeasurementReport)
    (ue : UeInfo) : (choTriggerProcedure P ueId simTime report ue).1.context = ue.context := by
  unfold choTriggerProcedure
  split
  · rfl
  · exact UeInfo.count_context ..

theorem TickAction.servingCached {ueId : ℕ} {simTime : ℚ} {ue : UeInfo}
    {result : UeInfo × List Effect} (action : TickAction P env ueId simTime ue result)
    (served : ue.ServingCached) : result.1.ServingCached := by
  have phy := action.sameLink.phy
  have kept : ∀ context : UeContext, context.servingGnb ∈ ue.phy.channel.channelCache →
      context.servingGnb ∈ result.1.phy.channel.channelCache := by
    intro context cached
    rwa [phy]
  cases action with
  | quiet => exact served
  | timer => exact served
  | expires => exact served.of_eq (by simp [choConfigExpired]) (kept _)
  | executes start evaluating =>
      refine served.of_eq ?_ (kept _)
      unfold choPhase6UeExecutes
      split
      · rfl
      · exact (applyUeErrorModelImmediately_context _).trans (UeInfo.count_context ..)
  | reports => exact served.of_eq (choTriggerProcedure_context ..) (kept _)
  | reselects => exact .inl rfl

/-- A viable link is cached. -/
theorem mem_of_choIsLinkViable {ue : UeInfo} {cellId : String}
    (viable : choIsLinkViable env ue cellId = true) : cellId ∈ ue.phy.channel.channelCache := by
  rw [← UeInfo.cached_isSome]
  unfold choIsLinkViable at viable
  split at viable
  · cases viable
  · rename_i cached
    rw [cached]
    rfl

/-- A handler leaves the serving satellite alone, except that a completed handover serves the UE by
a viable target. -/
theorem servingCached_choHandler {handler : ChoHandler} {ueId : ℕ} {sourceCell targetCell : String}
    {simTime : ℚ} {ue : UeInfo} (served : ue.ServingCached) :
    (choHandler P env handler ueId sourceCell targetCell simTime ue).1.ServingCached := by
  have phy := (sameLink_choHandler P env handler ueId sourceCell targetCell simTime ue).phy
  by_cases completes : handler = .phase7ExecutionComplete
  case neg =>
    exact served.of_eq (onlyProcedure_choHandler completes).context fun cached => by rwa [phy]
  case pos =>
    subst completes
    unfold UeInfo.ServingCached
    rw [phy]
    simp only [choHandler, choPhase7ExecutionComplete]
    split
    · exact served
    · split
      · rename_i viable
        refine .inr ?_
        simp only [UeInfo.completed, applyUeErrorModelImmediately_context, UeInfo.handedOver]
        exact mem_of_choIsLinkViable viable
      · simp only [choHandleFailure, UeInfo.count_context]
        exact served

theorem MeasuredBy.servingCached (lawful : P.Lawful) {simTime : ℚ} {ue ue' : UeInfo}
    (measured : MeasuredBy P env simTime ue ue') (served : ue.ServingCached) : ue'.ServingCached :=
  (servingCached_updated lawful served).of_eq measured.only.context measured.link.phy.cached

theorem servingCached_ueAction (lawful : P.Lawful) {i : ℕ} {event : Event} {now : ℤ} {ue : UeInfo}
    (served : ue.ServingCached) : (ueAction P env i event now ue).1.ServingCached := by
  cases event with
  | checkHandoverConditions =>
      obtain ⟨ue₁, measured, action⟩ := ueTick_action lawful env i (getSeconds now) ue
      exact action.servingCached (measured.servingCached lawful served)
  | cho handler ueId sourceCell targetCell => exact servingCached_choHandler served
  | evaluatePendingPrediction => exact served

/-! ## Every run -/

/-- What holds of the link of a UE between two events. -/
structure LinkInvariant (P : Program) (env : Env) (ue : UeInfo) : Prop where
  good : ue.phy.Good P.phyRules env.link ue.geo
  served : ue.ServingCached
  measurementPeriod : ue.measConfig.measurementPeriod = 1
  timeToTrigger : ue.measConfig.timeToTrigger = env.ho.timeToTrigger
  currentPhase : ue.hoState.currentPhase = .idle

theorem LinkInvariant.of_step {ue ue' : UeInfo} (inv : LinkInvariant P env ue)
    (link : LinkStep P env ue ue') (served : ue'.ServingCached) : LinkInvariant P env ue' where
  good := by
    rw [link.geo]
    exact link.phy.good inv.good
  served := served
  measurementPeriod := by
    rw [link.measConfig]
    exact inv.measurementPeriod
  timeToTrigger := by
    rw [link.measConfig]
    exact inv.timeToTrigger
  currentPhase := by
    rw [link.currentPhase]
    exact inv.currentPhase

theorem LinkInvariant.updated (lawful : P.Lawful) {simTime : ℚ} {ue : UeInfo}
    (inv : LinkInvariant P env ue) : LinkInvariant P env (ue.updated P env simTime) :=
  inv.of_step (linkStep_updated P env simTime ue) (servingCached_updated lawful inv.served)

theorem LinkInvariant.measured (lawful : P.Lawful) {simTime : ℚ} {ue ue' : UeInfo}
    (inv : LinkInvariant P env ue) (measured : MeasuredBy P env simTime ue ue') :
    LinkInvariant P env ue' :=
  (inv.updated lawful).of_step measured.link (measured.servingCached lawful inv.served)

theorem LinkInvariant.ueAction (lawful : P.Lawful) {i : ℕ} {event : Event} {now : ℤ} {ue : UeInfo}
    (inv : LinkInvariant P env ue) : LinkInvariant P env (ueAction P env i event now ue).1 :=
  inv.of_step (linkStep_ueAction lawful i event now ue) (servingCached_ueAction lawful inv.served)

theorem linkInvariant_initialUe (i : ℕ) (row : UeRow) :
    LinkInvariant P env (initialUe env i row) where
  good cached := by simp [initialUe] at cached
  served := .inl rfl
  measurementPeriod := rfl
  timeToTrigger := rfl
  currentPhase := rfl

theorem linkInvariant_of_run (lawful : P.Lawful) {ok : Policy ℤ Event} {i : ℕ} {rows : List UeRow}
    {h : List (Firing ℤ (Option UeInfo) Event)} {c : Conf ℤ (Option UeInfo) Event} {ue : UeInfo}
    (run : Run (ueHandler P env i) ok (ueInitial env rows i) h c) (present : c.state = some ue) :
    LinkInvariant P env ue :=
  ueRun_stateInvariant run (linkInvariant_initialUe i) (LinkInvariant.ueAction lawful) present

/-- The geometry of a UE is that of its row. -/
theorem geo_of_run (lawful : P.Lawful) {ok : Policy ℤ Event} {i : ℕ} {rows : List UeRow} {row : UeRow}
    {h : List (Firing ℤ (Option UeInfo) Event)} {c : Conf ℤ (Option UeInfo) Event} {ue : UeInfo}
    (atRow : rows[i]? = some row) (run : Run (ueHandler P env i) ok (ueInitial env rows i) h c)
    (present : c.state = some ue) : ue.geo = (initialUe env i row).geo := by
  refine ueRun_history (I := fun _ _ ue => ue.geo = (initialUe env i row).geo) run ?_ ?_ present
  · intro other same
    obtain rfl := Option.some.inj (same.symm.trans atRow)
    rfl
  · intro h c p c' ue _ _ _ _ geo
    rw [(linkStep_ueAction lawful i p.ev p.ts ue).geo, geo]

end NtnCho
