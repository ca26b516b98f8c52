import NtnCho.Isolation
import NtnCho.Pipeline

/-!
# The target of a procedure

A procedure takes its target from the measurement report that starts it. The report of a
time-to-trigger window names the best neighbour; the report of a radio-link failure, made when the
serving cell is not among the measured cells, names none, and TD-CHO starts a procedure from it all
the same. So a procedure has a real target exactly if the serving cell was measured when it started
and the best neighbour has a name, `real_target_iff`.
-/

namespace NtnCho

open EventSystem

variable {P : Program} {env : Env}

/-! ## The measured cells -/

theorem UeInfo.cached_congr {ue ue' : UeInfo} (phy : ue'.phy = ue.phy) (cellId : String) :
    ue'.cached cellId = ue.cached cellId := by
  unfold UeInfo.cached
  rw [phy]

theorem uePerformMeasurements_congr {ue ue' : UeInfo} (phy : ue'.phy = ue.phy) (snrFloor simTime : ℚ) :
    uePerformMeasurements snrFloor env simTime ue' = uePerformMeasurements snrFloor env simTime ue := by
  unfold uePerformMeasurements ueMeasureCell
  simp only [UeInfo.cached_congr phy, phy]

/-- The names of the cells that `UE_PerformMeasurements` returns for a UE at a tick. -/
def measuredCells (P : Program) (env : Env) (simTime : ℚ) (ue : UeInfo) : List String :=
  (uePerformMeasurements (P.snrFloor env.ho) env simTime (ue.updated P env simTime)).map
    MeasResultCell.cellId

/-- The name of the best neighbour that a UE finds at a tick. -/
def bestNeighborAt (P : Program) (env : Env) (ueId : ℕ) (simTime : ℚ) (ue : UeInfo) : Option String :=
  ((ue.updated P env simTime).due? simTime).bind fun due =>
    (due.serving? P env simTime).bind fun servingMeas =>
      (due.evaluation P env ueId simTime servingMeas).bestNeighbor.map MeasResultCell.cellId

/-- The serving satellite of the UE is among the measured cells of a tick. -/
def ServingMeasured (P : Program) (env : Env) (simTime : ℚ) (ue : UeInfo) : Prop :=
  (ue.updated P env simTime).context.servingGnb ∈ measuredCells P env simTime ue

theorem servingMeasurement_isSome {measurements : List MeasResultCell} {servingCellId : String} :
    (servingMeasurement measurements servingCellId).isSome = true ↔
      servingCellId ∈ measurements.map MeasResultCell.cellId := by
  simp [servingMeasurement, List.find?_isSome]

theorem servingMeasurement_eq_some {measurements : List MeasResultCell} {servingCellId : String}
    {meas : MeasResultCell} (found : servingMeasurement measurements servingCellId = some meas) :
    meas.cellId = servingCellId := by
  have same := List.find?_some found
  simpa using same

/-- The measurement of a UE that is measured finds its serving cell iff it is among the measured
cells. -/
theorem servingMeasured_iff {simTime : ℚ} {ue due : UeInfo}
    (measured : (ue.updated P env simTime).due? simTime = some due) :
    ServingMeasured P env simTime ue ↔ (due.serving? P env simTime).isSome = true := by
  unfold ServingMeasured measuredCells UeInfo.serving?
  rw [servingMeasurement_isSome, UeInfo.due_servingCellId measured,
    uePerformMeasurements_congr (UeInfo.due_phy measured)]

/-! ## The start of a procedure -/

/-- A firing that takes a UE out of `CHO_IDLE`. -/
structure Triggers (f : Firing ℤ (Option UeInfo) Event) (ue ue' : UeInfo) : Prop where
  before : f.before.state = some ue
  after : f.after.state = some ue'
  idle : ue.choProcState.phase = .idle
  busy : ue'.choProcState.phase ≠ .idle

/-- The procedure of `ue'` has a target: a cell other than its source that was measured when the
procedure started. -/
structure RealTarget (P : Program) (env : Env) (simTime : ℚ) (ue ue' : UeInfo) : Prop where
  named : ue'.choProcState.targetCell ≠ ""
  other : ue'.choProcState.targetCell ≠ ue'.choProcState.sourceCell
  measured : ue'.choProcState.targetCell ∈ measuredCells P env simTime ue

/-- The cells that `CHO_TriggerProcedure` takes from a report. -/
theorem choTriggerProcedure_cells (P : Program) (ueId : ℕ) (simTime : ℚ)
    (report : MeasurementReport) {ue : UeInfo} (idle : ue.choProcState.phase = .idle) :
    (choTriggerProcedure P ueId simTime report ue).1.choProcState.sourceCell =
        report.servingCell.cellId ∧
      (choTriggerProcedure P ueId simTime report ue).1.choProcState.targetCell =
        (report.neighborCells.head?.map MeasResultCell.cellId).getD "" := by
  unfold choTriggerProcedure
  rw [if_neg (not_not.mpr idle)]
  dsimp only
  rw [UeInfo.count_choProcState]
  exact ⟨rfl, rfl⟩

/-- The report of a time-to-trigger window names a measured neighbour. -/
theorem report_target (lawful : P.Lawful) {ueId : ℕ} {simTime : ℚ} {due : UeInfo}
    {servingMeas : MeasResultCell} {report : MeasurementReport}
    (reported : (timeToTrigger P simTime servingMeas (due.evaluation P env ueId simTime servingMeas)
      (due.evaluated (due.evaluation P env ueId simTime servingMeas))).2 = some report) :
    report.servingCell = servingMeas ∧ ∃ neighbor, report.neighborCells.head? = some neighbor ∧
      (due.evaluation P env ueId simTime servingMeas).bestNeighbor = some neighbor ∧
      neighbor ∈ uePerformMeasurements (P.snrFloor env.ho) env simTime due ∧
      neighbor.cellId ≠ due.measState.servingCellId := by
  rcases timeToTrigger_cases P simTime servingMeas (due.evaluation P env ueId simTime servingMeas)
      (due.evaluated (due.evaluation P env ueId simTime servingMeas)) with
    ⟨-, starts⟩ | ⟨met, -, -, ⟨-, reports⟩ | waits⟩ | ⟨-, resets⟩
  · rw [starts] at reported
    cases reported
  · rw [reports] at reported
    obtain rfl := Option.some.inj reported
    refine ⟨rfl, ?_⟩
    have triggered := lawful.trigger env ueId simTime (due.measured servingMeas) servingMeas _ met
    obtain ⟨neighbor, best⟩ := Option.isSome_iff_exists.mp triggered
    obtain ⟨listed, other⟩ := lawful.best env ueId simTime _ _ _ neighbor best
    refine ⟨neighbor, ?_, best, listed, other⟩
    rw [measurementReport, show (due.evaluation P env ueId simTime servingMeas).bestNeighbor = _ from
      best]
    rfl
  · rw [waits] at reported
    cases reported
  · rw [resets] at reported
    cases reported

/-- A tick that takes a UE out of `CHO_IDLE` does so with a report: without a target when the serving
cell is not measured, with the best neighbour otherwise. -/
theorem ueTick_target (lawful : P.Lawful) (keeps : P.reselectOnRlf = false) {ueId : ℕ}
    {simTime : ℚ} {ue : UeInfo} (idle : ue.choProcState.phase = .idle)
    (busy : (ueTick P env ueId simTime ue).1.choProcState.phase ≠ .idle) :
    (¬ ServingMeasured P env simTime ue ∧
        (ueTick P env ueId simTime ue).1.choProcState.targetCell = "") ∨
      (ServingMeasured P env simTime ue ∧
        bestNeighborAt P env ueId simTime ue =
          some (ueTick P env ueId simTime ue).1.choProcState.targetCell ∧
        (ueTick P env ueId simTime ue).1.choProcState.targetCell ≠
          (ueTick P env ueId simTime ue).1.choProcState.sourceCell ∧
        (ueTick P env ueId simTime ue).1.choProcState.targetCell ∈ measuredCells P env simTime ue) := by
  have same := (sameProcedure_updated P env simTime ue).choProcState
  have result : ueTick P env ueId simTime ue =
      checkHandover P env ueId simTime (ue.updated P env simTime) := rfl
  rw [result] at busy ⊢
  rcases checkHandover_spec P env ueId simTime (ue.updated P env simTime) with
    ⟨procedure, -, -⟩ | ⟨-, -, stays | adopts⟩ | ⟨due, -, measured, measures⟩
  · rw [same] at procedure
    exact absurd idle procedure
  · rw [stays, same] at busy
    exact absurd idle busy
  · rw [adopts, (onlyMeasured_adoptServingCell simTime _).choProcState, same] at busy
    exact absurd idle busy
  · have quiet : due.choProcState.phase = .idle := by
      rw [(onlyMeasured_of_due measured).phase, same]
      exact idle
    rw [measures, measureAndReport_fst keeps] at busy ⊢
    rw [servingMeasured_iff measured]
    have evaluated := (onlyMeasured_ueEvaluateAndReport P env ueId simTime due).phase.trans quiet
    generalize hresult : ueEvaluateAndReport P env ueId simTime due = outcome at busy evaluated ⊢
    rcases ueEvaluateAndReport_cases P env ueId simTime due with
      ⟨-, unserved⟩ | ⟨none, failed⟩ | ⟨servingMeas, found, evaluates⟩
    · rw [hresult] at unserved
      rw [unserved] at busy
      exact absurd quiet busy
    · rw [hresult] at failed
      rw [failed] at evaluated ⊢
      rw [none]
      exact .inl ⟨by simp, (choTriggerProcedure_cells P _ _ _ evaluated).2⟩
    · rw [hresult] at evaluates
      rw [evaluates] at busy evaluated ⊢
      cases reported : (timeToTrigger P simTime servingMeas
          (due.evaluation P env ueId simTime servingMeas)
          (due.evaluated (due.evaluation P env ueId simTime servingMeas))).2 with
      | none =>
          rw [reported] at busy
          exact absurd evaluated busy
      | some report =>
          obtain ⟨serving, neighbor, head, best, listed, other⟩ := report_target lawful reported
          obtain ⟨source, target⟩ := choTriggerProcedure_cells P ueId simTime
            report evaluated
          rw [head] at target
          dsimp only
          rw [source, target, found, serving, servingMeasurement_eq_some found]
          refine .inr ⟨rfl, ?_, other, ?_⟩
          · unfold bestNeighborAt
            rw [measured, Option.bind_some, found, Option.bind_some, best]
            rfl
          unfold measuredCells
          rw [← uePerformMeasurements_congr (UeInfo.due_phy measured)]
          exact List.mem_map_of_mem listed

/-! ## Every run -/

/-- The procedure names a target that is not its source. -/
structure NamedTarget (s : UeChoProcedureState) : Prop where
  named : s.targetCell ≠ ""
  other : s.targetCell ≠ s.sourceCell

/-- An action of a tick on a procedure leaves its cells alone. -/
theorem TickAction.cells {ueId : ℕ} {simTime : ℚ} {ue : UeInfo} {result : UeInfo × List Effect}
    (action : TickAction P env ueId simTime ue result) (busy : ue.choProcState.phase ≠ .idle) :
    result.1.choProcState.sourceCell = ue.choProcState.sourceCell ∧
      result.1.choProcState.targetCell = ue.choProcState.targetCell :=
  ⟨(action.sameDecision busy).sourceCell, (action.sameDecision busy).targetCell⟩

/-- A handler leaves the cells of the procedure alone. -/
theorem choHandler_cells {handler : ChoHandler} {ueId : ℕ} {sourceCell targetCell : String}
    {simTime : ℚ} {ue : UeInfo} :
    (choHandler P env handler ueId sourceCell targetCell simTime ue).1.choProcState.sourceCell =
        ue.choProcState.sourceCell ∧
      (choHandler P env handler ueId sourceCell targetCell simTime ue).1.choProcState.targetCell =
        ue.choProcState.targetCell := by
  have same := sameDecision_choHandler P env handler ueId sourceCell targetCell simTime ue
  exact ⟨same.sourceCell, same.targetCell⟩

section Run

variable {i : ℕ} {rows : List UeRow} {h : List (Firing ℤ (Option UeInfo) Event)}
  {c : Conf ℤ (Option UeInfo) Event} {ok : Policy ℤ Event}

/-- A firing that takes a UE out of `CHO_IDLE` is a tick. -/
theorem Triggers.tick {f : Firing ℤ (Option UeInfo) Event} {ue ue' : UeInfo}
    (triggers : Triggers f ue ue')
    (prior : Run (ueHandler P env i) ok (ueInitial env rows i) h f.before)
    (step : Step (ueHandler P env i) ok f.before f.event f.after) :
    ue' = (ueTick P env i (fireTime f) ue).1 := by
  obtain ⟨present, after, idle, busy⟩ := triggers
  rcases f with ⟨c, ⟨ts, event⟩, c'⟩
  have state := ueState_of_step step present
  obtain rfl := Option.some.inj (after.symm.trans state)
  rcases event with _ | ⟨handler, ueId, sourceCell, targetCell⟩ | _
  · rfl
  · have guard : ue.choProcState.phase ≠ handler.guard := by
      rw [idle]
      cases handler <;> decide
    rw [ueAction_cho, choHandler_of_guard_ne guard] at busy
    exact absurd idle busy
  · cases (ueQueue_of_run prior _ step.mem_queue).1

/-- A procedure has a real target exactly if the serving cell was measured when it started and the best
neighbour has a name. -/
theorem Triggers.target_iff (lawful : P.Lawful) (keeps : P.reselectOnRlf = false)
    {f : Firing ℤ (Option UeInfo) Event} {ue ue' : UeInfo} (triggers : Triggers f ue ue')
    (prior : Run (ueHandler P env i) ok (ueInitial env rows i) h f.before)
    (step : Step (ueHandler P env i) ok f.before f.event f.after) :
    RealTarget P env (fireTime f) ue ue' ↔
      ServingMeasured P env (fireTime f) ue ∧ bestNeighborAt P env i (fireTime f) ue ≠ some "" := by
  obtain rfl := triggers.tick prior step
  rcases ueTick_target lawful keeps triggers.idle triggers.busy with
    ⟨lost, none⟩ | ⟨served, best, other, measured⟩
  · exact iff_of_false (fun real => real.named none) fun both => lost both.1
  · rw [best]
    exact ⟨fun real => ⟨served, fun same => real.named (Option.some.inj same)⟩,
      fun both => ⟨fun none => both.2 (congrArg some none), other, measured⟩⟩

/-- Every procedure that `h` starts for UE `i`, starts with the serving cell measured and a best neighbour
that has a name. -/
def StartsServed (P : Program) (env : Env) (i : ℕ) (h : List (Firing ℤ (Option UeInfo) Event)) : Prop :=
  ∀ f ∈ h, ∀ ue ue', Triggers f ue ue' →
    ServingMeasured P env (fireTime f) ue ∧ bestNeighborAt P env i (fireTime f) ue ≠ some ""

/-- Along a run that starts no procedure without the serving cell, every procedure has a target. -/
theorem namedTarget_of_run (lawful : P.Lawful) (keeps : P.reselectOnRlf = false) {ue : UeInfo}
    (run : Run (ueHandler P env i) ok (ueInitial env rows i) h c) (served : StartsServed P env i h)
    (present : c.state = some ue) (busy : ue.choProcState.phase ≠ .idle) :
    NamedTarget ue.choProcState := by
  revert served
  refine ueRun_history (I := fun h _ ue => ue.choProcState.phase ≠ .idle → StartsServed P env i h →
    NamedTarget ue.choProcState) run (fun _ busy => absurd rfl busy) ?_ present busy
  intro h c p c' ue prior step present concerns ih after served
  have earlier : StartsServed P env i h := fun f member => served f (List.mem_append_left _ member)
  have state := ueState_of_step step present
  by_cases idle : ue.choProcState.phase = .idle
  case pos =>
    have triggers : Triggers ⟨c, p, c'⟩ ue (ueAction P env i p.ev p.ts ue).1 :=
      ⟨present, state, idle, after⟩
    have real := (triggers.target_iff lawful keeps prior step).mpr (served _ (by simp) _ _ triggers)
    exact ⟨real.named, real.other⟩
  case neg =>
    obtain ⟨named, other⟩ := ih idle earlier
    have cells : (ueAction P env i p.ev p.ts ue).1.choProcState.sourceCell =
        ue.choProcState.sourceCell ∧ (ueAction P env i p.ev p.ts ue).1.choProcState.targetCell =
        ue.choProcState.targetCell := by
      rcases p with ⟨ts, _ | ⟨handler, ueId, sourceCell, targetCell⟩ | _⟩
      · obtain ⟨ue₁, same, action⟩ := ueTick_spec P env i (getSeconds ts) ue
        have procedure := same.choProcState
        rw [← procedure] at idle ⊢
        exact action.cells idle
      · exact choHandler_cells
      · exact ⟨rfl, rfl⟩
    exact ⟨by rwa [cells.2], by rwa [cells.1, cells.2]⟩

end Run

/-- **The target of a procedure.** A procedure that starts has a real target exactly if the serving cell was
measured and the best neighbour has a name; and in a run that starts every procedure so, every procedure
names a target that is not its source. -/
theorem real_target_iff {rows : List UeRow} {h : List (Firing ℤ Sim Event)} {c : Conf ℤ Sim Event}
    (run : AnyOrderRun tdCho env rows h c) (i : ℕ) :
    (∀ f ∈ ueHistory tdCho env i h, ∀ ue ue', Triggers f ue ue' →
        (RealTarget tdCho env (fireTime f) ue ue' ↔
          ServingMeasured tdCho env (fireTime f) ue ∧
            bestNeighborAt tdCho env i (fireTime f) ue ≠ some "")) ∧
      (StartsServed tdCho env i (ueHistory tdCho env i h) →
        ∀ ue, c.state.ues[i]? = some ue → ue.choProcState.phase ≠ .idle →
          NamedTarget ue.choProcState) := by
  have own := run.toUe i
  refine ⟨fun f member ue ue' triggers => ?_, fun served ue present busy => ?_⟩
  · obtain ⟨h₁, h₂, split⟩ := List.append_of_mem member
    rw [show (ueComponent tdCho env i).history h = _ from split] at own
    obtain ⟨prior, step⟩ := own.split
    exact triggers.target_iff TdCho.lawful rfl prior step
  · exact namedTarget_of_run TdCho.lawful rfl own served present busy

theorem real_target_iff_crossing :
    ∃ f ∈ ueHistory tdCho crossing 0 (sampleRun tdCho crossing sampleRows 3).1, ∃ ue ue',
      Triggers f ue ue' ∧ RealTarget tdCho crossing (fireTime f) ue ue' := by
  have starts : (ueHistory tdCho crossing 0
      (sampleRun tdCho crossing sampleRows 3).1).getLast?.bind (fun f =>
        f.before.state.bind fun ue => f.after.state.map fun ue' =>
          (ue.choProcState.phase, ue'.choProcState.phase,
            measuredCells tdCho crossing (fireTime f) ue, bestNeighborAt tdCho crossing 0 (fireTime f) ue,
            (ue.updated tdCho crossing (fireTime f)).context.servingGnb)) =
      some (.idle, .measReportUplink, ["N", "S"], some "N", "S") := by decide +kernel
  obtain ⟨f, last, starts⟩ := Option.bind_eq_some_iff.mp starts
  obtain ⟨ue, present, starts⟩ := Option.bind_eq_some_iff.mp starts
  obtain ⟨ue', after, starts⟩ := Option.map_eq_some_iff.mp starts
  simp only [Prod.mk.injEq] at starts
  obtain ⟨idle, busy, cells, best, serving⟩ := starts
  have member := List.mem_of_getLast? last
  have triggers : Triggers f ue ue' := ⟨present, after, idle, by rw [busy]; decide⟩
  have target := (real_target_iff (simRun_sampleRun tdCho crossing sampleRows 3).anyOrder 0).1 f
    member ue ue' triggers
  refine ⟨f, member, ue, ue', triggers, target.mpr ⟨?_, ?_⟩⟩
  · unfold ServingMeasured
    rw [cells, serving]
    decide
  · rw [best]
    decide

/-- The trajectory of the serving satellite `S` ends, that of `N` goes on. -/
def ending : Env where
  link := sampleLink
    [overhead "S" [(0, 500000), (1, 500000)], overhead "N" [(0, 1000000), (60, 1000000)]]
  ho := {}

/-- When `S` has ended in `ending`, the UE measures `N` and starts a procedure without a target. -/
theorem real_target_ending :
    ¬ ∀ {env : Env} {rows : List UeRow} {h : List (Firing ℤ Sim Event)} {c : Conf ℤ Sim Event},
      SimRun tdCho env rows h c → ∀ i, ∀ f ∈ ueHistory tdCho env i h, ∀ ue ue', Triggers f ue ue' →
        RealTarget tdCho env (fireTime f) ue ue' := by
  intro always
  have starts : (ueHistory tdCho ending 0
      (sampleRun tdCho ending sampleRows 3).1).getLast?.bind (fun f =>
        f.before.state.bind fun ue => f.after.state.map fun ue' =>
          (ue.choProcState.phase, ue'.choProcState.phase, ue'.choProcState.targetCell,
            measuredCells tdCho ending (fireTime f) ue)) =
      some (.idle, .measReportUplink, "", ["N"]) := by decide +kernel
  obtain ⟨f, last, starts⟩ := Option.bind_eq_some_iff.mp starts
  obtain ⟨ue, present, starts⟩ := Option.bind_eq_some_iff.mp starts
  obtain ⟨ue', after, starts⟩ := Option.map_eq_some_iff.mp starts
  simp only [Prod.mk.injEq] at starts
  obtain ⟨idle, busy, target, -⟩ := starts
  have real := always (simRun_sampleRun tdCho ending sampleRows 3) 0 f (List.mem_of_getLast? last) ue
    ue' ⟨present, after, idle, by rw [busy]; decide⟩
  exact real.named target

end NtnCho
