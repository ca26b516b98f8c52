import NtnCho.Output
import NtnCho.Serving

/-!
# The results of handovers

A report leaves its decision in two places: `choProcState`, from which the procedure goes on, and
`hoContext`, from which the `[HO_RESULT]` line of the completed handover is printed. `Mirrors` says
that the two agree while a procedure from a report of a time-to-trigger window is in flight. A
procedure from a failure report has no decision; it can only reach a nameless satellite. So in every
other dataset each successful handover prints one result, with the data of its own report,
`results_explained`.
-/

namespace NtnCho

open EventSystem

variable {P : Program} {env : Env}

/-! ## The decision of a report -/

/-- `hoContext` as it stands for the decision to leave `serving` for `neighbor`. -/
def decision (triggerType : String) (simTime : ℚ) (serving neighbor : MeasResultCell) : HoContext where
  preServingSnr := serving.sinr
  preNeighborSnr := neighbor.sinr
  decisionTime := simTime
  valid := true
  sourceCellId := serving.cellId
  targetCellId := neighbor.cellId
  triggerType := triggerType

/-- When the trigger of the program is met, its decision stands in `hoContext`. -/
structure Program.Decides (P : Program) (triggerType : String) : Prop where
  decides : ∀ env ueId simTime ue serving measurements,
    (P.evaluateNeighbors env ueId simTime ue serving measurements).triggerConditionMet = true →
      (P.evaluateNeighbors env ueId simTime ue serving measurements).ntnTrigger = false ∧
      ∃ neighbor,
        (P.evaluateNeighbors env ueId simTime ue serving measurements).bestNeighbor =
          some neighbor ∧
        (P.evaluateNeighbors env ueId simTime ue serving measurements).hoContext =
          decision triggerType simTime serving neighbor

theorem TdCho.decides : tdCho.Decides "A3+prediction" where
  decides env ueId simTime ue serving measurements := by
    change (TdCho.evaluateNeighbors env ueId simTime ue serving measurements).triggerConditionMet =
      true → _
    simp only [tdCho, TdCho.evaluateNeighbors]
    cases (TdCho.scanNeighbors env ueId simTime ue measurements).bestNeighbor with
    | none => exact fun met => by cases met
    | some neighbor =>
        intro met
        simp only [TdCho.evaluateBest, TdCho.ueEvaluateNtnTriggers, Bool.false_or] at met ⊢
        rw [if_pos met]
        exact ⟨trivial, neighbor, rfl, rfl⟩

/-- A report is a failure report, which leaves no decision, or one of a time-to-trigger window, whose
decision stands in `hoContext`. -/
theorem report_decision {triggerType : String} (decides : P.Decides triggerType) {ueId : ℕ}
    {simTime : ℚ} {due : UeInfo} {report : MeasurementReport}
    (reported : (ueEvaluateAndReport P env ueId simTime due).2.1 = some report) :
    (report.eventType = "RLF" ∧ report.neighborCells = [] ∧
        (ueEvaluateAndReport P env ueId simTime due).1.hoContext = resetHoContext) ∨
      (report.eventType = "CHO_PREP" ∧ ∃ neighbor, report.neighborCells = [neighbor] ∧
        (ueEvaluateAndReport P env ueId simTime due).1.hoContext =
          decision triggerType simTime report.servingCell neighbor) := by
  rcases ueEvaluateAndReport_cases P env ueId simTime due with
    ⟨-, unserved⟩ | ⟨-, failed⟩ | ⟨serving, -, evaluated⟩
  · rw [unserved] at reported
    cases reported
  · rw [failed] at reported ⊢
    obtain rfl := Option.some.inj reported
    exact .inl ⟨rfl, rfl, rfl⟩
  · rw [evaluated] at reported ⊢
    rcases timeToTrigger_cases P simTime serving (due.evaluation P env ueId simTime serving)
        (due.evaluated (due.evaluation P env ueId simTime serving)) with
      ⟨-, starts⟩ | ⟨met, -, -, ⟨-, reports⟩ | waits⟩ | ⟨-, resets⟩
    · rw [starts] at reported
      cases reported
    · rw [reports] at reported ⊢
      obtain rfl := Option.some.inj reported
      obtain ⟨regular, neighbor, best, decided⟩ := decides.decides env ueId simTime _ _ _ met
      replace regular : (due.evaluation P env ueId simTime serving).ntnTrigger = false := regular
      replace best : (due.evaluation P env ueId simTime serving).bestNeighbor = some neighbor := best
      refine .inr ⟨?_, neighbor, ?_, decided⟩
      · simp [measurementReport, regular]
      · simp [measurementReport, best]
    · rw [waits] at reported
      cases reported
    · rw [resets] at reported
      cases reported

/-- What `CHO_TriggerProcedure` takes from a report. -/
theorem choTriggerProcedure_decision (P : Program) (ueId : ℕ) (simTime : ℚ)
    (report : MeasurementReport) {ue : UeInfo} (idle : ue.choProcState.phase = .idle) :
    (choTriggerProcedure P ueId simTime report ue).1.choProcState.procedureStartTime = simTime ∧
      (choTriggerProcedure P ueId simTime report ue).1.choProcState.servingSnrAtReport =
        report.servingCell.sinr ∧
      (choTriggerProcedure P ueId simTime report ue).1.choProcState.targetSnrAtReport =
        (report.neighborCells.head?.map MeasResultCell.sinr).getD (-999) := by
  unfold choTriggerProcedure
  rw [if_neg (not_not.mpr idle)]
  dsimp only
  rw [UeInfo.count_choProcState]
  exact ⟨rfl, rfl, rfl⟩

/-! ## The two copies of the decision -/

/-- `hoContext` and `choProcState` agree on the decision of the procedure. -/
structure Mirrors (triggerType : String) (ue : UeInfo) : Prop where
  valid : ue.hoContext.valid = true
  source : ue.hoContext.sourceCellId = ue.choProcState.sourceCell
  target : ue.hoContext.targetCellId = ue.choProcState.targetCell
  servingSnr : ue.hoContext.preServingSnr = ue.choProcState.servingSnrAtReport
  neighborSnr : ue.hoContext.preNeighborSnr = ue.choProcState.targetSnrAtReport
  decisionTime : ue.hoContext.decisionTime = ue.choProcState.procedureStartTime
  triggerType : ue.hoContext.triggerType = triggerType

theorem Mirrors.of_same {triggerType : String} {ue ue' : UeInfo} (mirrors : Mirrors triggerType ue)
    (context : ue'.hoContext = ue.hoContext) (same : SameDecision ue.choProcState ue'.choProcState) :
    Mirrors triggerType ue' where
  valid := by rw [context, mirrors.valid]
  source := by rw [context, same.sourceCell, mirrors.source]
  target := by rw [context, same.targetCell, mirrors.target]
  servingSnr := by rw [context, same.servingSnrAtReport, mirrors.servingSnr]
  neighborSnr := by rw [context, same.targetSnrAtReport, mirrors.neighborSnr]
  decisionTime := by rw [context, same.procedureStartTime, mirrors.decisionTime]
  triggerType := by rw [context, mirrors.triggerType]

/-- The report that a firing makes, if it is a tick at which the UE reports. -/
def reportOf (P : Program) (env : Env) (i : ℕ) (f : Firing ℤ (Option UeInfo) Event) :
    Option MeasurementReport :=
  match f.event.ev with
  | .checkHandoverConditions => f.before.state.bind (tickReport P env i (fireTime f))
  | _ => none

/-- The last report of a history: while a procedure is in flight, the one that started it. -/
def startReport (P : Program) (env : Env) (i : ℕ) (h : List (Firing ℤ (Option UeInfo) Event)) :
    Option MeasurementReport := (h.filterMap (reportOf P env i)).getLast?

/-- What the decision of a procedure in flight, started by `report`, looks like. -/
def Explains (triggerType : String) (report : MeasurementReport) (ue : UeInfo) : Prop :=
  (report.eventType = "CHO_PREP" ∧ Mirrors triggerType ue) ∨
    (report.eventType = "RLF" ∧ ue.hoContext = resetHoContext ∧ ue.choProcState.targetCell = "")

theorem Explains.of_same {triggerType : String} {report : MeasurementReport} {ue ue' : UeInfo}
    (explains : Explains triggerType report ue) (context : ue'.hoContext = ue.hoContext)
    (same : SameDecision ue.choProcState ue'.choProcState) : Explains triggerType report ue' := by
  rcases explains with ⟨regular, mirrors⟩ | ⟨failure, none, target⟩
  · exact .inl ⟨regular, mirrors.of_same context same⟩
  · exact .inr ⟨failure, context.trans none, same.targetCell.trans target⟩

/-- The procedure that a report starts has the decision of the report. -/
theorem explains_of_report {triggerType : String} (decides : P.Decides triggerType) {ueId : ℕ}
    {simTime : ℚ} {due : UeInfo} {report : MeasurementReport}
    (reported : (ueEvaluateAndReport P env ueId simTime due).2.1 = some report)
    (idle : due.choProcState.phase = .idle) :
    Explains triggerType report
      (choTriggerProcedure P ueId simTime report (ueEvaluateAndReport P env ueId simTime due).1).1 := by
  have idle₁ : (ueEvaluateAndReport P env ueId simTime due).1.choProcState.phase = .idle :=
    (onlyMeasured_ueEvaluateAndReport P env ueId simTime due).phase.trans idle
  have context := (onlyProcedure_choTriggerProcedure (P := P) ueId simTime report
    (ueEvaluateAndReport P env ueId simTime due).1).hoContext
  obtain ⟨source, target⟩ := choTriggerProcedure_cells P ueId simTime report idle₁
  obtain ⟨start, serving, neighborSnr⟩ := choTriggerProcedure_decision P ueId simTime report idle₁
  rcases report_decision decides reported with
    ⟨failure, neighbours, reset⟩ | ⟨regular, neighbor, neighbours, decided⟩
  · refine .inr ⟨failure, context.trans reset, ?_⟩
    rw [target, neighbours]
    rfl
  · rw [neighbours] at target neighborSnr
    rw [decided] at context
    refine .inl ⟨regular, ?_⟩
    constructor
    · rw [context]
      rfl
    · rw [context, source]
      rfl
    · rw [context, target]
      rfl
    · rw [context, serving]
      rfl
    · rw [context, neighborSnr]
      rfl
    · rw [context, start]
      rfl
    · rw [context]
      rfl

/-! ## A tick and its report -/

/-- A tick of a program that does not re-select acts on a procedure in flight, leaves the UE idle, or
starts the procedure of its report. -/
theorem ueTick_report (keeps : P.reselectOnRlf = false) (env : Env) (ueId : ℕ) (simTime : ℚ)
    (ue : UeInfo) :
    (tickReport P env ueId simTime ue = none ∧ ue.choProcState.phase ≠ .idle ∧
        TickAction P env ueId simTime (ue.updated P env simTime) (ueTick P env ueId simTime ue)) ∨
      (tickReport P env ueId simTime ue = none ∧ ue.choProcState.phase = .idle ∧
        (ueTick P env ueId simTime ue).1.choProcState.phase = .idle) ∨
      ∃ due report, (ue.updated P env simTime).due? simTime = some due ∧
        (ueEvaluateAndReport P env ueId simTime due).2.1 = some report ∧
        tickReport P env ueId simTime ue = some report ∧
        (ueTick P env ueId simTime ue).1 =
          (choTriggerProcedure P ueId simTime report
            (ueEvaluateAndReport P env ueId simTime due).1).1 := by
  have procedure := (sameProcedure_updated P env simTime ue).choProcState
  unfold tickReport
  change (_ ∧ _ ∧ TickAction P env ueId simTime (ue.updated P env simTime)
      (checkHandover P env ueId simTime (ue.updated P env simTime))) ∨
    (_ ∧ _ ∧ (checkHandover P env ueId simTime (ue.updated P env simTime)).1.choProcState.phase = _) ∨
    ∃ due report, _ ∧ _ ∧ _ ∧
      (checkHandover P env ueId simTime (ue.updated P env simTime)).1 = _
  rw [← procedure]
  rcases checkHandover_spec P env ueId simTime (ue.updated P env simTime) with
    ⟨busy, unmeasured, action⟩ | ⟨idle, unmeasured, stays | adopts⟩ | ⟨due, idle, measured, measures⟩
  · exact .inl ⟨by rw [unmeasured]; rfl, busy, action⟩
  · exact .inr (.inl ⟨by rw [unmeasured]; rfl, idle, by rw [stays]; exact idle⟩)
  · refine .inr (.inl ⟨by rw [unmeasured]; rfl, idle, ?_⟩)
    rw [adopts, (onlyMeasured_adoptServingCell simTime _).phase]
    exact idle
  · have idle₁ := ((onlyMeasured_of_due measured).trans
      (onlyMeasured_ueEvaluateAndReport P env ueId simTime due)).phase.trans idle
    rw [measured, Option.bind_some, measures, measureAndReport_fst keeps]
    cases reported : (ueEvaluateAndReport P env ueId simTime due).2.1 with
    | none => exact .inr (.inl ⟨rfl, idle, idle₁⟩)
    | some report => exact .inr (.inr ⟨due, report, rfl, reported, rfl, rfl⟩)

theorem UeInfo.count_hoContext (op : StatOp) (ue : UeInfo) :
    (ue.count P op).hoContext = ue.hoContext := by
  unfold UeInfo.count
  split <;> rfl

/-- An action of a tick that leaves a procedure in flight leaves `hoContext` alone. -/
theorem TickAction.hoContext {ueId : ℕ} {simTime : ℚ} {ue : UeInfo} {result : UeInfo × List Effect}
    (action : TickAction P env ueId simTime ue result) (busy : ue.choProcState.phase ≠ .idle)
    (goes_on : result.1.choProcState.phase ≠ .idle) : result.1.hoContext = ue.hoContext := by
  cases action with
  | quiet => rfl
  | timer => rfl
  | expires => exact absurd (choConfigExpired_phase ue) goes_on
  | executes start evaluating =>
      unfold choPhase6UeExecutes applyUeErrorModelImmediately
      split
      · rfl
      · dsimp only
        split
        · exact UeInfo.count_hoContext ..
        · split <;> exact UeInfo.count_hoContext ..
  | reports _ _ idle => exact absurd idle busy
  | reselects _ idle => exact absurd idle busy

/-! ## Every run -/

section Run

variable {ok : Policy ℤ Event} {i : ℕ} {rows : List UeRow}
  {h : List (Firing ℤ (Option UeInfo) Event)} {c : Conf ℤ (Option UeInfo) Event} {ue : UeInfo}

theorem startReport_snoc (h : List (Firing ℤ (Option UeInfo) Event))
    (f : Firing ℤ (Option UeInfo) Event) :
    startReport P env i (h ++ [f]) =
      match reportOf P env i f with
      | none => startReport P env i h
      | some report => some report := by
  unfold startReport
  rw [List.filterMap_append]
  cases reported : reportOf P env i f <;> simp [reported]

/-- While a procedure is in flight, its decision is that of the last report. -/
theorem explains_of_run {triggerType : String} (decides : P.Decides triggerType)
    (keeps : P.reselectOnRlf = false)
    (run : Run (ueHandler P env i) ok (ueInitial env rows i) h c) (present : c.state = some ue)
    (busy : ue.choProcState.phase ≠ .idle) :
    ∃ report, startReport P env i h = some report ∧ Explains triggerType report ue := by
  refine ueRun_history (I := fun h _ ue => ue.choProcState.phase ≠ .idle →
    ∃ report, startReport P env i h = some report ∧ Explains triggerType report ue) run
    (fun _ busy => absurd rfl busy) ?_ present busy
  intro h c p c' ue prior step present concerns ih
  rw [startReport_snoc]
  rcases p with ⟨ts, _ | ⟨handler, ueId, sourceCell, targetCell⟩ | _⟩
  · rw [ueAction_tick]
    intro busy
    have seen : reportOf P env i ⟨c, ⟨ts, .checkHandoverConditions⟩, c'⟩ =
        tickReport P env i (getSeconds ts) ue := by
      simp [reportOf, present, fireTime]
    rw [seen]
    rcases ueTick_report keeps env i (getSeconds ts) ue with
      ⟨none, before, action⟩ | ⟨-, -, idle⟩ | ⟨due, report, measured, reported, some_report, triggers⟩
    · rw [none]
      have procedure := (sameProcedure_updated P env (getSeconds ts) ue).choProcState
      have before₁ : (ue.updated P env (getSeconds ts)).choProcState.phase ≠ .idle := by
        rw [procedure]
        exact before
      obtain ⟨report, started, explains⟩ := ih before
      have same := action.sameDecision before₁
      rw [procedure] at same
      exact ⟨report, started, explains.of_same
        ((action.hoContext before₁ busy).trans (updated_hoContext _ ue)) same⟩
    · exact absurd idle busy
    · rw [some_report, triggers]
      have idle := (onlyMeasured_of_due measured).phase.trans (UeInfo.due?_eq_some measured).2.1
      exact ⟨report, rfl, explains_of_report decides reported idle⟩
  · intro busy
    rw [ueAction_cho] at busy ⊢
    obtain ⟨rfl, guard, -⟩ := guard_of_step prior step present
    have early : handler ≠ .phase7ExecutionComplete := by
      rintro rfl
      exact busy (choHandler_phase P env ueId sourceCell targetCell (getSeconds ts) guard)
    obtain ⟨report, started, explains⟩ := ih (by rw [guard]; cases handler <;> decide)
    exact ⟨report, started, explains.of_same (onlyProcedure_choHandler early).hoContext
      (sameDecision_choHandler ..)⟩
  · cases concerns

/-- The end of a procedure leaves `hoContext` reset. -/
theorem hoContext_of_ends (resets : P.resetContextOnExpiry = true) {f : Firing ℤ (Option UeInfo) Event}
    (prior : Run (ueHandler P env i) ok (ueInitial env rows i) h f.before)
    (step : Step (ueHandler P env i) ok f.before f.event f.after) {ue ue' : UeInfo}
    (present : f.before.state = some ue) (after : f.after.state = some ue')
    (busy : ue.choProcState.phase ≠ .idle) (ends : ue'.choProcState.phase = .idle) :
    ue'.hoContext = resetHoContext := by
  rcases f with ⟨c, ⟨ts, event⟩, c'⟩
  have state := ueState_of_step step present
  obtain rfl := Option.some.inj (after.symm.trans state)
  rcases event with _ | ⟨handler, ueId, sourceCell, targetCell⟩ | _
  · rw [ueAction_tick] at ends ⊢
    obtain ⟨ue₁, same, action⟩ := ueTick_spec P env i (getSeconds ts) ue
    rw [← same.choProcState] at busy
    generalize ueTick P env i (getSeconds ts) ue = result at action ends ⊢
    cases action with
    | quiet => exact absurd ends busy
    | timer => exact absurd ends busy
    | expires =>
        unfold choConfigExpired
        rw [UeInfo.count_hoContext]
        exact if_pos resets
    | executes start evaluating =>
        have still : (ue₁.setExecutionTtt false start).choProcState.phase = .ueEvaluating := evaluating
        rw [choPhase6UeExecutes_phase still] at ends
        cases ends
    | reports _ _ idle => exact absurd idle busy
    | reselects _ idle => exact absurd idle busy
  · obtain ⟨rfl, guard, -⟩ := guard_of_step prior step present
    rw [ueAction_cho] at ends ⊢
    rw [choHandler_phase P env ueId sourceCell targetCell (getSeconds ts) guard] at ends
    obtain rfl : handler = .phase7ExecutionComplete := by cases handler <;> first | rfl | cases ends
    simp only [choHandler, choPhase7ExecutionComplete]
    split
    · rename_i other
      exact absurd guard other
    · split <;> rfl
  · cases (ueQueue_of_run prior _ step.mem_queue).1

end Run

/-! ## The printed results -/

/-- The line is a result of UE `i`. -/
def LogLine.isResultOf (i : ℕ) : LogLine → Bool
  | .stdout "HO_RESULT" (("ue", .nat j) :: _) => j == i
  | _ => false

/-- The `[HO_RESULT]` line that explains a handover completed at `time` by the decision of the
procedure. -/
def resultLine (i : ℕ) (time : ℚ) (ue : UeInfo) : LogLine :=
  let choState := ue.choProcState
  let targetSnr := getCachedSnr ue choState.targetCell
  .stdout "HO_RESULT"
    [("ue", .nat i), ("t", .fixed 3 time),
      ("pre_serving_sinr", .fixed 2 choState.servingSnrAtReport),
      ("pre_neighbor_sinr", .fixed 2 choState.targetSnrAtReport),
      ("post_serving_sinr", .fixed 2 targetSnr),
      ("sinr_gain", .fixed 2 (targetSnr - choState.servingSnrAtReport)),
      ("decision_delay", .fixed 3 (time - choState.procedureStartTime)),
      ("trigger_type", .str "A3+prediction")]

/-- The results of a firing: one for a successful handover. -/
def resultsOf (env : Env) (i : ℕ) (f : Firing ℤ (Option UeInfo) Event) : List LogLine :=
  match handoverOf env f with
  | none => []
  | some _ => (f.before.state.map (resultLine i (fireTime f))).toList

theorem TdCho.isResultOf_of_early {i j : ℕ} {line : LogLine} (early : tdCho.PrintsEarly env j line) :
    line.isResultOf i = false := by
  cases early with
  | evaluation recorded =>
      rcases TdCho.mem_records recorded with ⟨fields, rfl⟩ | ⟨rest, rfl⟩ <;> rfl
  | row => rfl

theorem TdCho.ownLines_results (i : ℕ) : OwnLines tdCho env i (LogLine.isResultOf i) where
  others other member := by
    cases prints_of_mem member with
    | early printed => exact TdCho.isResultOf_of_early printed
    | result rest => simpa [LogLine.isResultOf] using other
    | success => rfl
    | complete => rfl
    | failure => rfl
  validation := rfl
  followup := rfl
  future := rfl

theorem filter_results_of_early {i : ℕ} {l : List LogLine}
    (early : ∀ line ∈ l, tdCho.PrintsEarly env i line) : l.filter (LogLine.isResultOf i) = [] :=
  List.filter_eq_nil_iff.mpr fun line member => by simp [TdCho.isResultOf_of_early (early line member)]

/-- The result of a completed execution, by the two copies of the decision. -/
theorem results_choPhase7ExecutionComplete {i : ℕ} {time : ℚ} {ue : UeInfo}
    (executing : ue.choProcState.phase = .ueExecuting) :
    (lines (choPhase7ExecutionComplete tdCho env i ue.choProcState.sourceCell
        ue.choProcState.targetCell time ue).2).filter (LogLine.isResultOf i) =
      if choIsLinkViable env ue ue.choProcState.targetCell then
        lines (hoResult i ue.choProcState.sourceCell ue.choProcState.targetCell time
          (getCachedSnr ue ue.choProcState.targetCell) ue.hoContext)
      else [] := by
  unfold choPhase7ExecutionComplete
  rw [if_neg (not_not.mpr executing)]
  dsimp only
  split
  · rw [lines_append, lines_append, List.filter_append, List.filter_append]
    have own : (lines (hoResult i ue.choProcState.sourceCell ue.choProcState.targetCell time
        (getCachedSnr ue ue.choProcState.targetCell) ue.hoContext)).filter (LogLine.isResultOf i) =
        lines (hoResult i ue.choProcState.sourceCell ue.choProcState.targetCell time
          (getCachedSnr ue ue.choProcState.targetCell) ue.hoContext) := by
      unfold hoResult
      split
      · exact List.filter_cons_of_pos (by simp [LogLine.isResultOf])
      · rfl
    rw [own]
    simp [lines, Effect.line, choLog, LogLine.isResultOf]
  · rfl

/-- A decision that mirrors the procedure is printed. -/
theorem lines_hoResult_of_mirrors {i : ℕ} {time : ℚ} {ue : UeInfo}
    (mirrors : Mirrors "A3+prediction" ue) :
    lines (hoResult i ue.choProcState.sourceCell ue.choProcState.targetCell time
      (getCachedSnr ue ue.choProcState.targetCell) ue.hoContext) = [resultLine i time ue] := by
  unfold hoResult
  rw [if_pos ⟨mirrors.valid, mirrors.source, mirrors.target⟩]
  simp [lines, Effect.line, resultLine, mirrors.triggerType, mirrors.servingSnr,
    mirrors.neighborSnr, mirrors.decisionTime]

/-- A procedure without a decision prints no result. -/
theorem lines_hoResult_of_reset {i : ℕ} {sourceCell targetCell : String} {time targetSnr : ℚ} :
    lines (hoResult i sourceCell targetCell time targetSnr resetHoContext) = [] := rfl

/-- The last report is one of a time-to-trigger window. -/
def regular (report : Option MeasurementReport) : Bool :=
  report.any fun report => report.eventType == "CHO_PREP"

/-- The results of a history after `report`: one for each successful handover of a procedure that a
report of a time-to-trigger window started. -/
def resultsAfter (env : Env) (i : ℕ) :
    Option MeasurementReport → List (Firing ℤ (Option UeInfo) Event) → List LogLine
  | _, [] => []
  | report, f :: h =>
      (if regular report then resultsOf env i f else []) ++
        resultsAfter env i ((reportOf tdCho env i f).or report) h

theorem startReport_cons {i : ℕ} (f : Firing ℤ (Option UeInfo) Event)
    (h : List (Firing ℤ (Option UeInfo) Event)) :
    startReport P env i (f :: h) = (startReport P env i h).or (reportOf P env i f) := by
  unfold startReport
  rw [List.filterMap_cons]
  cases reported : reportOf P env i f with
  | none => rw [Option.or_none]
  | some first =>
      rw [List.getLast?_cons]
      cases List.getLast? _ <;> rfl

theorem resultsAfter_append (report : Option MeasurementReport)
    (h h' : List (Firing ℤ (Option UeInfo) Event)) (i : ℕ) :
    resultsAfter env i report (h ++ h') =
      resultsAfter env i report h ++
        resultsAfter env i ((startReport tdCho env i h).or report) h' := by
  induction h generalizing report with
  | nil => rfl
  | cons f h ih =>
      rw [List.cons_append, resultsAfter, resultsAfter, ih, startReport_cons, Option.or_assoc,
        List.append_assoc]

theorem resultsAfter_snoc (report : Option MeasurementReport)
    (h : List (Firing ℤ (Option UeInfo) Event)) (f : Firing ℤ (Option UeInfo) Event) (i : ℕ) :
    resultsAfter env i report (h ++ [f]) =
      resultsAfter env i report h ++
        if regular ((startReport tdCho env i h).or report) then resultsOf env i f else [] := by
  rw [resultsAfter_append, resultsAfter, resultsAfter, List.append_nil]

section Run

variable {ok : Policy ℤ Event} {i : ℕ} {rows : List UeRow}
  {h : List (Firing ℤ (Option UeInfo) Event)}

/-- A firing prints the result of the handover it completes when a report of a time-to-trigger window
started the procedure. -/
theorem results_printedBy {f : Firing ℤ (Option UeInfo) Event}
    (prior : Run (ueHandler tdCho env i) ok (ueInitial env rows i) h f.before)
    (step : Step (ueHandler tdCho env i) ok f.before f.event f.after) :
    (printedBy tdCho env i f).filter (LogLine.isResultOf i) =
      if regular (startReport tdCho env i h) then resultsOf env i f else [] := by
  rcases f with ⟨c, ⟨ts, event⟩, c'⟩
  have quiet : handoverOf env ⟨c, ⟨ts, event⟩, c'⟩ = none →
      (if regular (startReport tdCho env i h) then resultsOf env i ⟨c, ⟨ts, event⟩, c'⟩ else []) =
        [] := by
    intro unhanded
    simp [resultsOf, unhanded]
  unfold printedBy
  cases present : c.state with
  | none =>
      have unhanded : handoverOf env ⟨c, ⟨ts, event⟩, c'⟩ = none := by
        unfold handoverOf
        split <;> simp [present]
      rw [quiet unhanded]
      rfl
  | some ue =>
      dsimp only
      have concerns := (ueQueue_of_run prior _ step.mem_queue).1
      rcases event with _ | ⟨handler, ueId, sourceCell, targetCell⟩ | _
      · rw [quiet rfl]
        exact filter_results_of_early fun line member => prints_ueTick member
      · obtain rfl : ueId = i := by simpa [Event.concerns] using concerns
        by_cases completes : handler = .phase7ExecutionComplete
        case neg =>
          have unhanded :
              handoverOf env ⟨c, ⟨ts, .cho handler ueId sourceCell targetCell⟩, c'⟩ = none := by
            unfold handoverOf
            cases handler with
            | phase7ExecutionComplete => exact absurd rfl completes
            | _ => rfl
          rw [quiet unhanded]
          exact filter_results_of_early fun line member => prints_choHandler_early completes member
        case pos =>
          subst completes
          obtain ⟨-, guard, rfl, rfl⟩ := guard_of_step prior step present
          replace guard : ue.choProcState.phase = .ueExecuting := guard
          have busy : ue.choProcState.phase ≠ .idle := by
            rw [guard]
            decide
          rw [ueAction_cho]
          simp only [choHandler]
          rw [results_choPhase7ExecutionComplete guard]
          simp only [resultsOf, handoverOf, present, Option.bind_some]
          obtain ⟨report, started, ⟨window, mirrors⟩ | ⟨failure, reset, -⟩⟩ :=
            explains_of_run TdCho.decides rfl prior present busy
          · rw [started, lines_hoResult_of_mirrors mirrors]
            simp only [regular, Option.any_some, window, beq_self_eq_true, if_true]
            split <;> rfl
          · rw [started, reset, lines_hoResult_of_reset]
            simp [regular, failure]
      · cases concerns

/-- When no satellite is nameless, only procedures of time-to-trigger windows succeed. -/
theorem regular_of_handover (named : "" ∉ env.link.satellites)
    {f : Firing ℤ (Option UeInfo) Event}
    (prior : Run (ueHandler tdCho env i) ok (ueInitial env rows i) h f.before)
    (step : Step (ueHandler tdCho env i) ok f.before f.event f.after) {pair : String × String}
    (handed : handoverOf env f = some pair) : regular (startReport tdCho env i h) = true := by
  obtain ⟨flight, listed⟩ := inFlight_of_handoverOf TdCho.lawful prior step handed
  obtain ⟨ue, present, executing, -, target⟩ := flight.procedure
  have busy : ue.choProcState.phase ≠ .idle := by
    rw [executing]
    decide
  obtain ⟨report, started, ⟨window, -⟩ | ⟨-, -, unnamed⟩⟩ :=
    explains_of_run TdCho.decides rfl prior present busy
  · rw [started]
    simp [regular, window]
  · rw [← target, unnamed] at listed
    exact absurd listed named

end Run

/-- The results among the lines of a UE are those of its history. -/
theorem filter_printed_results {ok : Policy ℤ Event} {i : ℕ} {rows : List UeRow}
    {h : List (Firing ℤ (Option UeInfo) Event)} {c : Conf ℤ (Option UeInfo) Event}
    (run : Run (ueHandler tdCho env i) ok (ueInitial env rows i) h c) :
    (printed tdCho env i h).filter (LogLine.isResultOf i) = resultsAfter env i none h := by
  induction run with
  | nil => rfl
  | @snoc h c c' p prior step ih =>
      rw [printed_snoc, List.filter_append, ih, resultsAfter_snoc, Option.or_none,
        results_printedBy (f := ⟨c, p, c'⟩) prior step]

/-- When no satellite is nameless, every successful handover has its result. -/
theorem resultsAfter_of_named {ok : Policy ℤ Event} {i : ℕ} {rows : List UeRow}
    {h : List (Firing ℤ (Option UeInfo) Event)} {c : Conf ℤ (Option UeInfo) Event}
    (named : "" ∉ env.link.satellites) (run : Run (ueHandler tdCho env i) ok (ueInitial env rows i) h c) :
    resultsAfter env i none h = h.flatMap (resultsOf env i) := by
  induction run with
  | nil => rfl
  | @snoc h c c' p prior step ih =>
      rw [resultsAfter_snoc, Option.or_none, ih, List.flatMap_append, List.flatMap_singleton]
      cases handed : handoverOf env ⟨c, p, c'⟩ with
      | none => simp [resultsOf, handed]
      | some pair =>
          rw [if_pos (regular_of_handover (f := ⟨c, p, c'⟩) named prior step handed)]

/-- **Every success is explained by its decision.** Whatever the order of events, `hoContext` mirrors a
procedure that a `CHO_PREP` report started, as long as it is in flight, and is reset at its end. The
results in the output are one for each successful handover of such a procedure, with the data of its
decision; in a dataset without a nameless satellite these are all successful handovers. -/
theorem results_explained {rows : List UeRow} {h : List (Firing ℤ Sim Event)} {c : Conf ℤ Sim Event}
    (run : AnyOrderRun tdCho env rows h c) (i : ℕ) :
    (∀ ue, c.state.ues[i]? = some ue → ue.choProcState.phase ≠ .idle →
      ∃ report, startReport tdCho env i (ueHistory tdCho env i h) = some report ∧
        (report.eventType = "CHO_PREP" → Mirrors "A3+prediction" ue)) ∧
    (∀ f ∈ ueHistory tdCho env i h, ∀ ue ue', f.before.state = some ue → f.after.state = some ue' →
      ue.choProcState.phase ≠ .idle → ue'.choProcState.phase = .idle →
        ue'.hoContext = resetHoContext) ∧
    c.state.log.filter (LogLine.isResultOf i) =
      resultsAfter env i none (ueHistory tdCho env i h) ∧
    ("" ∉ env.link.satellites →
      resultsAfter env i none (ueHistory tdCho env i h) =
        (ueHistory tdCho env i h).flatMap (resultsOf env i)) := by
  have seen := run.toUe i
  refine ⟨fun ue present busy => ?_, fun f member ue ue' present after busy ends => ?_,
    (log_of_run (TdCho.ownLines_results i) run).trans (filter_printed_results seen),
    fun named => resultsAfter_of_named named seen⟩
  · obtain ⟨report, started, explains⟩ := explains_of_run TdCho.decides rfl seen present busy
    refine ⟨report, started, fun window => ?_⟩
    rcases explains with ⟨-, mirrors⟩ | ⟨failure, -⟩
    · exact mirrors
    · rw [window] at failure
      exact absurd failure (by decide)
  · obtain ⟨h₁, h₂, split⟩ := List.append_of_mem member
    rw [← ueHistory, split] at seen
    obtain ⟨prior, step⟩ := seen.split
    exact hoContext_of_ends rfl prior step present after busy ends

theorem results_explained_crossing :
    ((sampleRun tdCho crossing sampleRows 11).2.state.log.filter (LogLine.isResultOf 0)).length = 1 ∧
      (sampleRun tdCho crossing sampleRows 11).2.state.log.filter (LogLine.isResultOf 0) =
        (ueHistory tdCho crossing 0 (sampleRun tdCho crossing sampleRows 11).1).flatMap
          (resultsOf crossing 0) := by
  have run := (simRun_sampleRun tdCho crossing sampleRows 11).anyOrder
  obtain ⟨-, -, printed, all⟩ := results_explained run 0
  exact ⟨by decide +kernel, printed.trans (all (by decide +kernel))⟩

/-- The trajectory of `S` ends; the only other satellite has no name. -/
def namelessTarget : Env where
  link := sampleLink
    [overhead "S" [(0, 1000000), (1, 1000000)],
      overhead "" [(0, 3000000), (1, 500000), (60, 500000)]]
  ho := {}

/-- In `namelessTarget` the procedure of a failure report succeeds, and prints no result. -/
theorem results_unexplained :
    ¬ ∀ {env : Env} {rows : List UeRow} {h : List (Firing ℤ Sim Event)} {c : Conf ℤ Sim Event},
      SimRun tdCho env rows h c → ∀ i,
        c.state.log.filter (LogLine.isResultOf i) =
          (ueHistory tdCho env i h).flatMap (resultsOf env i) := by
  intro always
  have same := congrArg List.length
    (always (simRun_sampleRun tdCho namelessTarget sampleRows 11) 0)
  have none : ((sampleRun tdCho namelessTarget sampleRows 11).2.state.log.filter
      (LogLine.isResultOf 0)).length = 0 := by decide +kernel
  have one : ((ueHistory tdCho namelessTarget 0
      (sampleRun tdCho namelessTarget sampleRows 11).1).flatMap
        (resultsOf namelessTarget 0)).length = 1 := by decide +kernel
  rw [none, one] at same
  cases same

end NtnCho
