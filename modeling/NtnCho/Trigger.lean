import NtnCho.Isolation
import NtnCho.Pipeline

/-!
# The time-to-trigger of a report

TD-CHO and SNR-CHO report a neighbour when the A3 condition has held for the time-to-trigger.
`Armed` links the timer of the UE to its history: while `triggerActive` is set the UE is idle and
measured at every tick, and at every tick since `triggerStartTime` the condition has held for the
candidate. All exits of `UE_EvaluateAndReport` keep this but one: when the serving cell is not
measured, the function returns early and leaves the timer running, while the UE turns to the
procedure of the failure report. So reports are sound along every run in which the serving cell is
never lost while the timer runs, `reports_sound`.
-/

namespace NtnCho

open EventSystem

variable {P : Program} {env : Env}

/-! ## The A3 condition -/

/-- The margin of the A3 condition, for what `evaluateNeighbors` gets and a neighbour. -/
abbrev A3Margin := Env → ℕ → ℚ → UeInfo → List MeasResultCell → MeasResultCell → ℚ

/-- The trigger of the program is the A3 condition with this margin for its best neighbour. -/
structure Program.TriggersOnA3 (P : Program) (margin : A3Margin) : Prop where
  ntn : ∀ env ueId simTime ue serving measurements,
    (P.evaluateNeighbors env ueId simTime ue serving measurements).ntnTrigger = false
  met : ∀ env ueId simTime ue serving measurements,
    (P.evaluateNeighbors env ueId simTime ue serving measurements).triggerConditionMet = true →
      ∃ neighbor,
        (P.evaluateNeighbors env ueId simTime ue serving measurements).bestNeighbor =
          some neighbor ∧
        serving.sinr + margin env ueId simTime ue measurements neighbor < neighbor.sinr

/-- The dynamic margin of TD-CHO, from the trend of the serving SNR. -/
def TdCho.a3Margin : A3Margin := fun env ueId simTime ue measurements neighbor =>
  let scan := TdCho.scanNeighbors env ueId simTime ue measurements
  let trends :=
    TdCho.trends env ue.geo simTime ue.measState.servingCellId neighbor.cellId scan.phy
  max 1 (TdCho.marginOf env.ho trends.servingSnrTrend)

theorem TdCho.triggersOnA3 : tdCho.TriggersOnA3 TdCho.a3Margin where
  ntn env ueId simTime ue serving measurements := by
    simp only [tdCho, TdCho.evaluateNeighbors]
    split <;> rfl
  met env ueId simTime ue serving measurements met := by
    simp only [tdCho, TdCho.evaluateNeighbors] at met ⊢
    cases best : (TdCho.scanNeighbors env ueId simTime ue measurements).bestNeighbor with
    | none =>
        rw [best] at met
        cases met
    | some neighbor =>
        rw [best] at met
        exact ⟨neighbor, rfl, of_decide_eq_true met⟩

/-- The margin of SNR-CHO: the neighbour may be worse by the reporting offset. -/
def SnrCho.a3Margin : A3Margin := fun env _ _ _ _ _ => -env.ho.reportingOffset

theorem SnrCho.triggersOnA3 : snrCho.TriggersOnA3 SnrCho.a3Margin where
  ntn env ueId simTime ue serving measurements := by
    simp only [snrCho, SnrCho.evaluateNeighbors]
    split <;> rfl
  met env ueId simTime ue serving measurements met := by
    simp only [snrCho, SnrCho.evaluateNeighbors] at met ⊢
    cases best : (SnrCho.scanNeighbors ue measurements).bestNeighbor with
    | none =>
        rw [best] at met
        cases met
    | some neighbor =>
        rw [best] at met
        refine ⟨neighbor, rfl, ?_⟩
        have better : serving.sinr - env.ho.reportingOffset < neighbor.sinr := of_decide_eq_true met
        unfold SnrCho.a3Margin
        linarith

/-! ## A tick of the timer -/

/-- At the tick `g` UE `i` is evaluated, its serving cell is measured, its best neighbour is
`cellId`, and the A3 condition holds. -/
def A3At (P : Program) (margin : A3Margin) (env : Env) (i : ℕ) (cellId : String)
    (g : Firing ℤ (Option UeInfo) Event) : Prop :=
  ∃ ue due serving neighbor, g.before.state = some ue ∧
    (ue.updated P env (fireTime g)).due? (fireTime g) = some due ∧
    due.serving? P env (fireTime g) = some serving ∧
    (due.evaluation P env i (fireTime g) serving).bestNeighbor = some neighbor ∧
    neighbor.cellId = cellId ∧
    serving.sinr + margin env i (fireTime g) (due.measured serving)
      (uePerformMeasurements (P.snrFloor env.ho) env (fireTime g) due) neighbor < neighbor.sinr

/-- The report that `UE_EvaluateAndReport` returns at a tick, if the UE is evaluated. -/
def tickReport (P : Program) (env : Env) (i : ℕ) (simTime : ℚ) (ue : UeInfo) :
    Option MeasurementReport :=
  ((ue.updated P env simTime).due? simTime).bind fun due =>
    (ueEvaluateAndReport P env i simTime due).2.1

/-- At the tick `f` the serving cell of the UE is not measured while the timer runs. -/
def LostWhileArmed (P : Program) (env : Env) (f : Firing ℤ (Option UeInfo) Event) : Prop :=
  ∃ ue ∈ f.before.state, ue.measState.triggerActive = true ∧
    ∃ due ∈ (ue.updated P env (fireTime f)).due? (fireTime f),
      due.serving? P env (fireTime f) = none

instance (P : Program) (env : Env) (f : Firing ℤ (Option UeInfo) Event) :
    Decidable (LostWhileArmed P env f) :=
  inferInstanceAs (Decidable (∃ ue ∈ f.before.state, ue.measState.triggerActive = true ∧
    ∃ due ∈ (ue.updated P env (fireTime f)).due? (fireTime f),
      due.serving? P env (fireTime f) = none))

/-- What a running timer stands for. -/
structure Armed (P : Program) (margin : A3Margin) (env : Env) (i : ℕ)
    (h : List (Firing ℤ (Option UeInfo) Event)) (ue : UeInfo) : Prop where
  idle : ue.choProcState.phase = .idle
  served : ue.context.servingGnb ≠ ""
  serving : ue.measState.servingCellId = ue.context.servingGnb
  recent : ∃ g ∈ ticks h, ue.measState.lastMeasurementTime = fireTime g
  window : HeldSince fireTime (A3At P margin env i ue.measState.candidateTargetCell) (ticks h)
    ue.measState.triggerStartTime

/-- An armed UE is measured at the next tick. -/
theorem due_of_armed {simTime : ℚ} {ue : UeInfo} (link : LinkInvariant P env ue)
    (idle : ue.choProcState.phase = .idle) (served : ue.context.servingGnb ≠ "")
    (serving : ue.measState.servingCellId = ue.context.servingGnb)
    (late : ue.measState.lastMeasurementTime + 1 ≤ simTime) :
    ue.due? simTime = some (ue.startMeasurement simTime) := by
  have adopted : ue.adoptServingCell simTime = ue := by
    unfold UeInfo.adoptServingCell
    dsimp only
    rw [if_neg]
    rw [serving]
    simpa using served
  unfold UeInfo.due?
  dsimp only
  rw [adopted, if_neg]
  simp only [not_or, not_not, not_lt]
  refine ⟨idle, link.currentPhase, served, ?_⟩
  rw [link.measurementPeriod]
  linarith

/-- The channel update does not start a timer. -/
theorem updated_triggerActive {simTime : ℚ} {ue : UeInfo} :
    (ue.updated P env simTime).measState.triggerActive = ue.measState.triggerActive := by
  unfold UeInfo.updated updateChannelState
  rw [UeInfo.setChannel_measState]
  unfold UeInfo.selectServing
  dsimp only
  split
  · split <;> rfl
  · rfl

/-- `CheckHandover` starts no timer when it adopts the serving cell. -/
theorem triggerActive_of_adoptServingCell {simTime : ℚ} {ue : UeInfo}
    (active : (ue.adoptServingCell simTime).measState.triggerActive = true) :
    ue.measState.triggerActive = true := by
  unfold UeInfo.adoptServingCell at active
  dsimp only at active
  split at active
  · cases active
  · exact active

/-! ## What leaves the timer alone -/

theorem UeInfo.count_measState (op : StatOp) (ue : UeInfo) :
    (ue.count P op).measState = ue.measState := by
  unfold UeInfo.count
  split <;> rfl

theorem applyUeErrorModelImmediately_measState (ue : UeInfo) :
    (applyUeErrorModelImmediately env ue).measState = ue.measState := by
  unfold applyUeErrorModelImmediately
  split
  · rfl
  · split <;> rfl

theorem choTriggerProcedure_measState (ueId : ℕ) (simTime : ℚ) (report : MeasurementReport)
    (ue : UeInfo) : (choTriggerProcedure P ueId simTime report ue).1.measState = ue.measState := by
  unfold choTriggerProcedure
  split
  · rfl
  · exact UeInfo.count_measState ..

/-- An action of a tick on a procedure leaves the measurements alone. -/
theorem TickAction.measState {ueId : ℕ} {simTime : ℚ} {ue : UeInfo} {result : UeInfo × List Effect}
    (action : TickAction P env ueId simTime ue result) (busy : ue.choProcState.phase ≠ .idle) :
    result.1.measState = ue.measState := by
  cases action with
  | quiet => rfl
  | timer => rfl
  | expires => exact UeInfo.count_measState ..
  | executes start evaluating =>
      unfold choPhase6UeExecutes
      split
      · rfl
      · dsimp only
        rw [applyUeErrorModelImmediately_measState, UeInfo.count_measState]
        rfl
  | reports _ _ idle => exact absurd idle busy
  | reselects _ idle => exact absurd idle busy

/-- A phase of a procedure starts no timer. -/
theorem choHandler_triggerActive {handler : ChoHandler} {ueId : ℕ} {sourceCell targetCell : String}
    {simTime : ℚ} {ue : UeInfo} (inactive : ue.measState.triggerActive = false) :
    (choHandler P env handler ueId sourceCell targetCell simTime ue).1.measState.triggerActive =
      false := by
  by_cases completes : handler = .phase7ExecutionComplete
  case neg =>
    rw [(onlyProcedure_choHandler completes).measState]
    exact inactive
  case pos =>
    subst completes
    simp only [choHandler, choPhase7ExecutionComplete]
    split
    · exact inactive
    · split
      · simp only [UeInfo.completed, applyUeErrorModelImmediately_measState, UeInfo.handedOver]
      · simp only [choHandleFailure, UeInfo.count_measState, inactive]

/-- A program that does not re-select leaves what `UE_EvaluateAndReport` wrote. -/
theorem measureAndReport_measState (keeps : P.reselectOnRlf = false) (ueId : ℕ) (simTime : ℚ)
    (due : UeInfo) :
    (measureAndReport P env ueId simTime due).1.measState =
      (ueEvaluateAndReport P env ueId simTime due).1.measState := by
  rw [measureAndReport_fst keeps]
  split
  · rfl
  · exact choTriggerProcedure_measState ..

/-! ## The invariant -/

section Step

variable {margin : A3Margin} {ok : Policy ℤ Event} {i : ℕ} {rows : List UeRow}
  {h : List (Firing ℤ (Option UeInfo) Event)} {c c' : Conf ℤ (Option UeInfo) Event}
  {p : Pending ℤ Event} {ue : UeInfo}

/-- When the trigger is met at a tick, the A3 condition holds for the best neighbour. -/
theorem a3At_of_met {due : UeInfo} {serving : MeasResultCell} (a3 : P.TriggersOnA3 margin)
    (present : c.state = some ue)
    (measured : (ue.updated P env (getSeconds p.ts)).due? (getSeconds p.ts) = some due)
    (found : due.serving? P env (getSeconds p.ts) = some serving)
    (met : (due.evaluation P env i (getSeconds p.ts) serving).triggerConditionMet = true) :
    ∃ neighbor, (due.evaluation P env i (getSeconds p.ts) serving).bestNeighbor = some neighbor ∧
      A3At P margin env i neighbor.cellId ⟨c, p, c'⟩ := by
  obtain ⟨neighbor, best, better⟩ := a3.met env i _ _ _ _ met
  exact ⟨neighbor, best, ue, due, serving, neighbor, present, measured, found, best, rfl, better⟩

/-- An armed UE is measured at the next tick, with the measurement state it has. -/
theorem Armed.due (lawful : P.Lawful) (prior : Run (ueHandler P env i) ok (ueInitial env rows i) h c)
    (step : Step (ueHandler P env i) ok c p c') (tick : p.ev = .checkHandoverConditions)
    (present : c.state = some ue) (armed : Armed P margin env i h ue) :
    (ue.updated P env (getSeconds p.ts)).due? (getSeconds p.ts) =
      some ((ue.updated P env (getSeconds p.ts)).startMeasurement (getSeconds p.ts)) := by
  have link := @LinkInvariant.updated P env lawful (getSeconds p.ts) ue
    (linkInvariant_of_run lawful prior present)
  obtain ⟨g, member, measured⟩ := armed.recent
  have context := @updated_context P env (getSeconds p.ts) ue armed.served
  have measState := @updated_measState P env (getSeconds p.ts) ue armed.served
  refine due_of_armed link ?_ ?_ ?_ ?_
  · rw [(sameProcedure_updated P env _ ue).choProcState]
    exact armed.idle
  · rw [context]
    exact armed.served
  · rw [context, measState]
    exact armed.serving
  · rw [measState, measured]
    exact tick_add_one_le prior step.mem_queue tick member

/-- What an armed UE finds when the trigger is met for its candidate. -/
theorem Armed.goesOn {due : UeInfo} {serving : MeasResultCell} (lawful : P.Lawful)
    (a3 : P.TriggersOnA3 margin) (prior : Run (ueHandler P env i) ok (ueInitial env rows i) h c)
    (step : Step (ueHandler P env i) ok c p c') (tick : p.ev = .checkHandoverConditions)
    (present : c.state = some ue) (armed : Armed P margin env i h ue)
    (measured : (ue.updated P env (getSeconds p.ts)).due? (getSeconds p.ts) = some due)
    (found : due.serving? P env (getSeconds p.ts) = some serving)
    (met : (due.evaluation P env i (getSeconds p.ts) serving).triggerConditionMet = true)
    (candidate : (due.evaluation P env i (getSeconds p.ts) serving).ntnTrigger = true ∨
      (due.evaluation P env i (getSeconds p.ts) serving).candidateCell =
        due.measState.candidateTargetCell) :
    due.measState.triggerStartTime = ue.measState.triggerStartTime ∧
      due.measState.candidateTargetCell = ue.measState.candidateTargetCell ∧
      ∃ neighbor,
        (due.evaluation P env i (getSeconds p.ts) serving).bestNeighbor = some neighbor ∧
        neighbor.cellId = ue.measState.candidateTargetCell ∧
        A3At P margin env i neighbor.cellId ⟨c, p, c'⟩ := by
  have again := Option.some.inj ((armed.due lawful prior step tick present).symm.trans measured)
  have measState := @updated_measState P env (getSeconds p.ts) ue armed.served
  have start : due.measState.triggerStartTime = ue.measState.triggerStartTime := by
    rw [← again, ← measState]
    rfl
  have cell : due.measState.candidateTargetCell = ue.measState.candidateTargetCell := by
    rw [← again, ← measState]
    rfl
  obtain ⟨neighbor, best, now⟩ := a3At_of_met a3 present measured found met
  have quiet : (due.evaluation P env i (getSeconds p.ts) serving).ntnTrigger = false := a3.ntn ..
  rw [Evaluation.candidateCell, best, quiet] at candidate
  exact ⟨start, cell, neighbor, best, (candidate.resolve_left (by simp)).trans cell, now⟩

/-- The timer that is started at a tick. -/
theorem Armed.begin (prior : Run (ueHandler P env i) ok (ueInitial env rows i) h c)
    (step : Step (ueHandler P env i) ok c p c') (tick : p.ev = .checkHandoverConditions)
    {ue' : UeInfo} (idle : ue'.choProcState.phase = .idle) (served : ue'.context.servingGnb ≠ "")
    (serving : ue'.measState.servingCellId = ue'.context.servingGnb)
    (measured : ue'.measState.lastMeasurementTime = getSeconds p.ts)
    (start : ue'.measState.triggerStartTime = getSeconds p.ts)
    (now : A3At P margin env i ue'.measState.candidateTargetCell ⟨c, p, c'⟩) :
    Armed P margin env i (h ++ [⟨c, p, c'⟩]) ue' where
  idle := idle
  served := served
  serving := serving
  recent := ⟨⟨c, p, c'⟩, mem_ticks.mpr ⟨by simp, tick⟩, measured⟩
  window := by
    rw [ticks_snoc tick, start]
    change HeldSince fireTime _ _ (fireTime ⟨c, p, c'⟩)
    refine HeldSince.begin (fun g member => ?_) now
    have later := tick_add_one_le prior step.mem_queue tick member
    unfold fireTime
    linarith

/-- The timer that goes on at a tick. -/
theorem Armed.extend (armed : Armed P margin env i h ue) (tick : p.ev = .checkHandoverConditions)
    {ue' : UeInfo} (idle : ue'.choProcState.phase = .idle) (served : ue'.context.servingGnb ≠ "")
    (serving : ue'.measState.servingCellId = ue'.context.servingGnb)
    (measured : ue'.measState.lastMeasurementTime = getSeconds p.ts)
    (start : ue'.measState.triggerStartTime = ue.measState.triggerStartTime)
    (candidate : ue'.measState.candidateTargetCell = ue.measState.candidateTargetCell)
    (now : A3At P margin env i ue.measState.candidateTargetCell ⟨c, p, c'⟩) :
    Armed P margin env i (h ++ [⟨c, p, c'⟩]) ue' where
  idle := idle
  served := served
  serving := serving
  recent := ⟨⟨c, p, c'⟩, mem_ticks.mpr ⟨by simp, tick⟩, measured⟩
  window := by
    rw [ticks_snoc tick, start, candidate]
    exact armed.window.extend now

/-- A measurement with the serving cell measured ends with the timer off, or as `Armed` says. -/
theorem armed_measurement (lawful : P.Lawful) (keeps : P.reselectOnRlf = false)
    (a3 : P.TriggersOnA3 margin) (prior : Run (ueHandler P env i) ok (ueInitial env rows i) h c)
    (step : Step (ueHandler P env i) ok c p c') (tick : p.ev = .checkHandoverConditions)
    (present : c.state = some ue)
    (armed : ue.measState.triggerActive = true → Armed P margin env i h ue)
    (kept : ¬ LostWhileArmed P env ⟨c, p, c'⟩) {due : UeInfo}
    (measured : (ue.updated P env (getSeconds p.ts)).due? (getSeconds p.ts) = some due)
    (after : (measureAndReport P env i (getSeconds p.ts) due).1.measState.triggerActive = true) :
    Armed P margin env i (h ++ [⟨c, p, c'⟩]) (measureAndReport P env i (getSeconds p.ts) due).1 := by
  have active : due.measState.triggerActive = true → ue.measState.triggerActive = true := by
    intro active
    rw [(UeInfo.due?_eq_some measured).1] at active
    exact updated_triggerActive.symm.trans (triggerActive_of_adoptServingCell active)
  obtain ⟨adopted, idle, served⟩ := UeInfo.due?_eq_some measured
  have only := onlyMeasured_of_due measured
  have cell := UeInfo.due_servingCellId measured
  have idle' : due.choProcState.phase = .idle := only.phase.trans idle
  have served' : due.context.servingGnb ≠ "" := by
    rw [only.context]
    exact served
  have cell' : due.measState.servingCellId = due.context.servingGnb := by
    rw [only.context]
    exact cell
  have last : due.measState.lastMeasurementTime = getSeconds p.ts := by
    rw [adopted]
    rfl
  rw [measureAndReport_measState keeps] at after
  rcases ueEvaluateAndReport_cases P env i (getSeconds p.ts) due with
    ⟨unserved, -⟩ | ⟨lost, failed⟩ | ⟨serving, found, evaluated⟩
  · exact absurd (cell.symm.trans unserved) served
  · rw [failed] at after
    exact absurd ⟨ue, present, active after, due, measured, lost⟩ kept
  · rcases timeToTrigger_cases P (getSeconds p.ts) serving
        (due.evaluation P env i (getSeconds p.ts) serving)
        (due.evaluated (due.evaluation P env i (getSeconds p.ts) serving)) with
      ⟨met, starts⟩ | ⟨met, wasActive, candidate, ⟨-, reports⟩ | waits⟩ | ⟨-, resets⟩
    · rw [measureAndReport_fst keeps, evaluated, starts]
      obtain ⟨neighbor, best, now⟩ := @a3At_of_met P env margin i c c' p ue due serving a3 present
        measured found met
      dsimp only
      refine Armed.begin prior step tick idle' served' cell' last rfl ?_
      rwa [show (due.evaluation P env i (getSeconds p.ts) serving).candidateCell = neighbor.cellId by
        rw [Evaluation.candidateCell, best]
        rfl]
    · rw [evaluated, reports] at after
      cases after
    · rw [measureAndReport_fst keeps, evaluated, waits]
      have before := armed (active wasActive)
      obtain ⟨start, cell, neighbor, -, name, now⟩ :=
        before.goesOn lawful a3 prior step tick present measured found met candidate
      dsimp only
      rw [name] at now
      exact before.extend tick idle' served' cell' last start cell now
    · rw [evaluated, resets] at after
      cases after

/-- **The step lemma of a tick**: unless the serving cell is lost, a timer that runs after the tick
was started by it, or was running and has been extended. -/
theorem armed_tick (lawful : P.Lawful) (keeps : P.reselectOnRlf = false)
    (a3 : P.TriggersOnA3 margin) (prior : Run (ueHandler P env i) ok (ueInitial env rows i) h c)
    (step : Step (ueHandler P env i) ok c p c') (tick : p.ev = .checkHandoverConditions)
    (present : c.state = some ue)
    (armed : ue.measState.triggerActive = true → Armed P margin env i h ue)
    (kept : ¬ LostWhileArmed P env ⟨c, p, c'⟩)
    (after : (ueTick P env i (getSeconds p.ts) ue).1.measState.triggerActive = true) :
    Armed P margin env i (h ++ [⟨c, p, c'⟩]) (ueTick P env i (getSeconds p.ts) ue).1 := by
  have same := (sameProcedure_updated P env (getSeconds p.ts) ue).choProcState
  have active := @updated_triggerActive P env (getSeconds p.ts) ue
  have result : ueTick P env i (getSeconds p.ts) ue =
      checkHandover P env i (getSeconds p.ts) (ue.updated P env (getSeconds p.ts)) := rfl
  rw [result] at after ⊢
  rcases checkHandover_spec P env i (getSeconds p.ts) (ue.updated P env (getSeconds p.ts)) with
    ⟨procedure, -, action⟩ | ⟨-, early, stays | adopts⟩ | ⟨due, idle, measured, measures⟩
  · rw [action.measState procedure, active] at after
    rw [same] at procedure
    exact absurd (armed after).idle procedure
  · rw [stays, active] at after
    rw [(armed after).due lawful prior step tick present] at early
    cases early
  · rw [adopts] at after
    have before := active.symm.trans (triggerActive_of_adoptServingCell after)
    rw [(armed before).due lawful prior step tick present] at early
    cases early
  · rw [measures] at after ⊢
    exact armed_measurement lawful keeps a3 prior step tick present armed kept measured after

end Step

/-- **The run lemma**: as long as the serving cell is never lost while the timer runs, a running
timer is what `Armed` says. -/
theorem armed_of_run (lawful : P.Lawful) (keeps : P.reselectOnRlf = false) {margin : A3Margin}
    (a3 : P.TriggersOnA3 margin) {ok : Policy ℤ Event} {i : ℕ} {rows : List UeRow}
    {h : List (Firing ℤ (Option UeInfo) Event)} {c : Conf ℤ (Option UeInfo) Event} {ue : UeInfo}
    (run : Run (ueHandler P env i) ok (ueInitial env rows i) h c) (present : c.state = some ue)
    (kept : ∀ g ∈ ticks h, ¬ LostWhileArmed P env g) (active : ue.measState.triggerActive = true) :
    Armed P margin env i h ue := by
  refine ueRun_history (I := fun h _ ue => (∀ g ∈ ticks h, ¬ LostWhileArmed P env g) →
    ue.measState.triggerActive = true → Armed P margin env i h ue) run
    (fun _ _ inactive => by cases inactive) ?_ present kept active
  intro h c p c' ue prior step present concerns ih kept after
  have armed := ih fun g member => kept g (by
    rw [ticks_append]
    exact List.mem_append_left _ member)
  have state := ueState_of_step step present
  rcases p with ⟨ts, _ | ⟨handler, ueId, sourceCell, targetCell⟩ | _⟩
  · exact armed_tick lawful keeps a3 prior step rfl present armed
      (kept _ (mem_ticks.mpr ⟨by simp, rfl⟩)) after
  · -- a phase event finds the UE in its procedure, and so with the timer off
    obtain ⟨rfl, guard, -⟩ := guard_of_step prior step present
    have inactive : ue.measState.triggerActive = false := by
      by_contra active
      have idle := (armed (by simpa using active)).idle
      rw [guard] at idle
      cases handler <;> cases idle
    rw [ueAction_cho, choHandler_triggerActive inactive] at after
    cases after
  · cases concerns

/-! ## Reports -/

/-- The report at `f` names one cell, and at every tick of a window that has lasted for the
time-to-trigger the A3 condition held for this cell. -/
def SoundReport (P : Program) (margin : A3Margin) (env : Env) (i : ℕ)
    (h : List (Firing ℤ (Option UeInfo) Event)) (f : Firing ℤ (Option UeInfo) Event)
    (timeToTrigger : ℚ) (report : MeasurementReport) : Prop :=
  ∃ neighbor, report.neighborCells = [neighbor] ∧
    ∃ start ∈ ticks h, fireTime start ≤ fireTime f - timeToTrigger ∧
      ∀ g ∈ ticks h, fireTime start ≤ fireTime g → fireTime g ≤ fireTime f →
        A3At P margin env i neighbor.cellId g

/-- Every report of a history for the preparation of a handover is sound. -/
def ReportsSound (P : Program) (margin : A3Margin) (env : Env) (i : ℕ)
    (h : List (Firing ℤ (Option UeInfo) Event)) : Prop :=
  ∀ f ∈ ticks h, ∀ ue report, f.before.state = some ue →
    tickReport P env i (fireTime f) ue = some report → report.eventType = "CHO_PREP" →
    SoundReport P margin env i h f ue.measConfig.timeToTrigger report

/-- The serving cell of the UE is never lost while its timer runs. -/
def NeverLostWhileArmed (P : Program) (env : Env) (h : List (Firing ℤ (Option UeInfo) Event)) : Prop :=
  ∀ g ∈ ticks h, ¬ LostWhileArmed P env g

theorem reportsSound_of_run (lawful : P.Lawful) (keeps : P.reselectOnRlf = false)
    {margin : A3Margin} (a3 : P.TriggersOnA3 margin) {ok : Policy ℤ Event} {i : ℕ}
    {rows : List UeRow} {h : List (Firing ℤ (Option UeInfo) Event)}
    {c : Conf ℤ (Option UeInfo) Event}
    (run : Run (ueHandler P env i) ok (ueInitial env rows i) h c)
    (kept : NeverLostWhileArmed P env h) : ReportsSound P margin env i h := by
  intro f ticking ue report present reported prep
  obtain ⟨member, tick⟩ := mem_ticks.mp ticking
  obtain ⟨h₁, h₂, rfl⟩ := List.append_of_mem member
  obtain ⟨prior, step⟩ := run.split
  obtain ⟨due, measured, reported⟩ := Option.bind_eq_some_iff.mp reported
  rcases ueEvaluateAndReport_cases P env i (fireTime f) due with
    ⟨-, unserved⟩ | ⟨-, failed⟩ | ⟨serving, found, evaluated⟩
  · rw [unserved] at reported
    cases reported
  · rw [failed] at reported
    obtain rfl := Option.some.inj reported
    simp [rlfReport] at prep
  · rcases timeToTrigger_cases P (fireTime f) serving
        (due.evaluation P env i (fireTime f) serving)
        (due.evaluated (due.evaluation P env i (fireTime f) serving)) with
      ⟨-, starts⟩ | ⟨met, wasActive, candidate, ⟨elapsed, reports⟩ | waits⟩ | ⟨-, resets⟩
    · rw [evaluated, starts] at reported
      cases reported
    · rw [evaluated, reports] at reported
      obtain rfl := Option.some.inj reported
      have active : ue.measState.triggerActive = true := by
        rw [UeInfo.evaluated, (UeInfo.due?_eq_some measured).1] at wasActive
        exact updated_triggerActive.symm.trans (triggerActive_of_adoptServingCell wasActive)
      have armed := armed_of_run lawful keeps a3 prior present (fun g earlier => kept g (by
        rw [ticks_append]
        exact List.mem_append_left _ earlier)) active
      obtain ⟨start, cell, neighbor, best, name, now⟩ :=
        armed.goesOn lawful a3 prior step tick present measured found met candidate
      have timer := (onlyMeasured_of_due measured).measConfig.trans
        (linkStep_updated P env (fireTime f) ue).measConfig
      obtain ⟨first, first_member, started⟩ := armed.window.started
      refine ⟨neighbor, ?_, first, ?_, ?_, fun g ticked after before => ?_⟩
      · exact congrArg Option.toList best
      · rw [ticks_append]
        exact List.mem_append_left _ first_member
      · change due.measConfig.timeToTrigger ≤ fireTime f - due.measState.triggerStartTime at elapsed
        rw [started, ← timer, ← start]
        linarith
      · rcases mem_ticks_of_le run tick ticked before with earlier | rfl
        · rw [name]
          exact armed.window.held g earlier (started.symm.trans_le after)
        · exact now
    · rw [evaluated, waits] at reported
      cases reported
    · rw [evaluated, resets] at reported
      cases reported

/-- **Sound reports.** In every run of TD-CHO and of SNR-CHO in which the serving cell of a UE is never
lost while its timer runs, every report of the UE rests on a window of measured ticks. -/
theorem reports_sound {env : Env} {rows : List UeRow} :
    (∀ {h : List (Firing ℤ Sim Event)} {c : Conf ℤ Sim Event}, AnyOrderRun tdCho env rows h c →
        ∀ i, NeverLostWhileArmed tdCho env (ueHistory tdCho env i h) →
          ReportsSound tdCho TdCho.a3Margin env i (ueHistory tdCho env i h)) ∧
      ∀ {h : List (Firing ℤ Sim Event)} {c : Conf ℤ Sim Event}, AnyOrderRun snrCho env rows h c →
        ∀ i, NeverLostWhileArmed snrCho env (ueHistory snrCho env i h) →
          ReportsSound snrCho SnrCho.a3Margin env i (ueHistory snrCho env i h) :=
  ⟨fun run i => reportsSound_of_run TdCho.lawful rfl TdCho.triggersOnA3 (run.toUe i),
    fun run i => reportsSound_of_run SnrCho.lawful rfl SnrCho.triggersOnA3 (run.toUe i)⟩

/-- What a firing reports: its time, the type of the report and the cells it names. -/
def reported (P : Program) (env : Env) (i : ℕ) (f : Firing ℤ (Option UeInfo) Event) :
    Option (ℚ × ℚ × String × List String) :=
  f.before.state.bind fun ue => (tickReport P env i (fireTime f) ue).map fun report =>
    (fireTime f, ue.measConfig.timeToTrigger, report.eventType,
      report.neighborCells.map MeasResultCell.cellId)

theorem exists_of_reported {i : ℕ} {f : Firing ℤ (Option UeInfo) Event} {time timeToTrigger : ℚ}
    {eventType : String} {cells : List String}
    (reports : reported P env i f = some (time, timeToTrigger, eventType, cells)) :
    fireTime f = time ∧ ∃ ue report, f.before.state = some ue ∧
      ue.measConfig.timeToTrigger = timeToTrigger ∧
      tickReport P env i (fireTime f) ue = some report ∧ report.eventType = eventType ∧
      report.neighborCells.map MeasResultCell.cellId = cells := by
  obtain ⟨ue, present, reports⟩ := Option.bind_eq_some_iff.mp reports
  obtain ⟨report, reported, data⟩ := Option.map_eq_some_iff.mp reports
  simp only [Prod.mk.injEq] at data
  obtain ⟨at_time, timer, type, cells⟩ := data
  exact ⟨at_time, ue, report, present, timer, reported, type, cells⟩

/-- In `crossing` both programs report `N` at the tick of second 2, on a window since second 1. -/
theorem reports_sound_crossing :
    (∃ f ue report, f.before.state = some ue ∧
        tickReport tdCho crossing 0 (fireTime f) ue = some report ∧
        SoundReport tdCho TdCho.a3Margin crossing 0
          (ueHistory tdCho crossing 0 (sampleRun tdCho crossing sampleRows 3).1) f
          ue.measConfig.timeToTrigger report) ∧
      ∃ f ue report, f.before.state = some ue ∧
        tickReport snrCho crossing 0 (fireTime f) ue = some report ∧
        SoundReport snrCho SnrCho.a3Margin crossing 0
          (ueHistory snrCho crossing 0 (sampleRun snrCho crossing sampleRows 3).1) f
          ue.measConfig.timeToTrigger report := by
  constructor
  · have kept : ∀ g ∈ ticks (ueHistory tdCho crossing 0 (sampleRun tdCho crossing sampleRows 3).1),
        ¬ LostWhileArmed tdCho crossing g := by decide +kernel
    have reports : (ticks (ueHistory tdCho crossing 0
        (sampleRun tdCho crossing sampleRows 3).1)).getLast?.bind (reported tdCho crossing 0) =
        some (2, 1, "CHO_PREP", ["N"]) := by decide +kernel
    obtain ⟨f, last, reports⟩ := Option.bind_eq_some_iff.mp reports
    obtain ⟨-, ue, report, present, -, reported, type, -⟩ := exists_of_reported reports
    exact ⟨f, ue, report, present, reported,
      reports_sound.1 (simRun_sampleRun tdCho crossing sampleRows 3).anyOrder 0 kept f
        (List.mem_of_getLast? last) ue report present reported type⟩
  · have kept : ∀ g ∈ ticks (ueHistory snrCho crossing 0 (sampleRun snrCho crossing sampleRows 3).1),
        ¬ LostWhileArmed snrCho crossing g := by decide +kernel
    have reports : (ticks (ueHistory snrCho crossing 0
        (sampleRun snrCho crossing sampleRows 3).1)).getLast?.bind (reported snrCho crossing 0) =
        some (2, 1, "CHO_PREP", ["N"]) := by decide +kernel
    obtain ⟨f, last, reports⟩ := Option.bind_eq_some_iff.mp reports
    obtain ⟨-, ue, report, present, -, reported, type, -⟩ := exists_of_reported reports
    exact ⟨f, ue, report, present, reported,
      reports_sound.2 (simRun_sampleRun snrCho crossing sampleRows 3).anyOrder 0 kept f
        (List.mem_of_getLast? last) ue report present reported type⟩

/-- The serving satellite `S` fades at second 2, when the timer for `N` runs, and comes back. -/
def outage : Env where
  link := sampleLink
    [overhead "S" [(0, 500000), (1, 1000000), (2, 3000000), (3, 1000000), (70, 1000000)],
      overhead "N" [(0, 1000000), (1, 500000), (70, 500000)]]
  ho := {}

/-- In `outage` the UE reports `N` at the tick of second 64 with the timer of second 1, though it was
in a procedure, and not measured, at the tick of second 63. -/
theorem reports_sound_outage :
    ¬ ∀ {env : Env} {rows : List UeRow} {h : List (Firing ℤ Sim Event)} {c : Conf ℤ Sim Event},
      SimRun tdCho env rows h c →
        ∀ i, ReportsSound tdCho TdCho.a3Margin env i (ueHistory tdCho env i h) := by
  intro always
  have sound := always (simRun_sampleRun tdCho outage sampleRows 71) 0
  have seen : ((ticks (ueHistory tdCho outage 0
        (sampleRun tdCho outage sampleRows 71).1)).getLast?.bind (reported tdCho outage 0),
      (ticks (ueHistory tdCho outage 0 (sampleRun tdCho outage sampleRows 71).1))[63]?.map fun g =>
        (fireTime g, g.before.state.map fun ue => ue.choProcState.phase)) =
      (some (64, 1, "CHO_PREP", ["N"]), some (63, some .ueEvaluating)) := by decide +kernel
  generalize ueHistory tdCho outage 0 (sampleRun tdCho outage sampleRows 71).1 = h at sound seen
  simp only [Prod.mk.injEq] at seen
  obtain ⟨reports, evaluates⟩ := seen
  obtain ⟨f, last, reports⟩ := Option.bind_eq_some_iff.mp reports
  obtain ⟨at_64, ue, report, present, timer, reported, type, -⟩ := exists_of_reported reports
  obtain ⟨g, before, evaluates⟩ := Option.map_eq_some_iff.mp evaluates
  simp only [Prod.mk.injEq, Option.map_eq_some_iff] at evaluates
  obtain ⟨at_63, busy, evaluating, phase⟩ := evaluates
  obtain ⟨neighbor, -, start, -, first, held⟩ :=
    sound f (List.mem_of_getLast? last) ue report present reported type
  obtain ⟨ue', due, -, -, present', measured, -⟩ := held g (List.mem_of_getElem? before)
    (by linarith) (by linarith)
  obtain rfl := Option.some.inj (evaluating.symm.trans present')
  have idle := (UeInfo.due?_eq_some measured).2.1
  rw [(sameProcedure_updated tdCho outage _ busy).choProcState, phase] at idle
  cases idle

end NtnCho
