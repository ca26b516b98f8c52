import NtnCho.Simulator

/-!
# One UE of a simulator

What a tick does to one UE, `ueTick`, and what its own scheduled phases do. `ueTick_spec` says once
what a tick can do to the procedure of a UE: after the measurements, which leave the procedure
alone, at most one of the actions of `TickAction`. All effects of a handler are its UE's own,
`Effect.OwnedBy`.
-/

namespace NtnCho

open EventSystem

variable {P : Program} {env : Env}

/-! ## What the measurements leave alone -/

/-- `ue'` differs from `ue` at most in what the measurements and the channel update write. -/
structure SameProcedure (ue ue' : UeInfo) : Prop where
  geo : ue'.geo = ue.geo
  measConfig : ue'.measConfig = ue.measConfig
  choProcState : ue'.choProcState = ue.choProcState
  choConfigState : ue'.choConfigState = ue.choConfigState
  hoState : ue'.hoState = ue.hoState
  choNtnStats : ue'.choNtnStats = ue.choNtnStats
  hoCount : ue'.hoCount = ue.hoCount
  hoFail : ue'.hoFail = ue.hoFail

theorem SameProcedure.refl (ue : UeInfo) : SameProcedure ue ue := by constructor <;> rfl

theorem SameProcedure.trans {ue₁ ue₂ ue₃ : UeInfo} (h : SameProcedure ue₁ ue₂)
    (h' : SameProcedure ue₂ ue₃) : SameProcedure ue₁ ue₃ where
  geo := h'.geo.trans h.geo
  measConfig := h'.measConfig.trans h.measConfig
  choProcState := h'.choProcState.trans h.choProcState
  choConfigState := h'.choConfigState.trans h.choConfigState
  hoState := h'.hoState.trans h.hoState
  choNtnStats := h'.choNtnStats.trans h.choNtnStats
  hoCount := h'.hoCount.trans h.hoCount
  hoFail := h'.hoFail.trans h.hoFail

theorem sameProcedure_updateChannelCache (simTime : ℚ) (ue : UeInfo) :
    SameProcedure ue (updateChannelCache P env simTime ue) := by constructor <;> rfl

theorem sameProcedure_selectServing (P : Program) (env : Env) (simTime : ℚ) (ue : UeInfo) :
    SameProcedure ue (ue.selectServing P env simTime) := by
  unfold UeInfo.selectServing
  split
  · dsimp only
    split
    · exact .refl ue
    · constructor <;> rfl
  · exact .refl ue

theorem sameProcedure_setChannel (ue : UeInfo) : SameProcedure ue (ue.setChannel env) := by
  unfold UeInfo.setChannel
  split
  · exact .refl ue
  · split
    · exact .refl ue
    · constructor <;> rfl

theorem sameProcedure_updateChannelState (simTime : ℚ) (ue : UeInfo) :
    SameProcedure ue (updateChannelState P env simTime ue) :=
  (sameProcedure_selectServing P env simTime ue).trans (sameProcedure_setChannel _)

theorem sameProcedure_adoptServingCell (simTime : ℚ) (ue : UeInfo) :
    SameProcedure ue (ue.adoptServingCell simTime) := by
  unfold UeInfo.adoptServingCell
  dsimp only
  split
  · constructor <;> rfl
  · exact .refl ue

theorem sameProcedure_timeToTrigger (simTime : ℚ) (servingMeas : MeasResultCell)
    (evaluation : Evaluation) (ue : UeInfo) :
    SameProcedure ue (timeToTrigger P simTime servingMeas evaluation ue).1 := by
  unfold timeToTrigger
  dsimp only
  split_ifs
  all_goals constructor <;> rfl

theorem sameProcedure_ueEvaluateAndReport (ueId : ℕ) (simTime : ℚ) (ue : UeInfo) :
    SameProcedure ue (ueEvaluateAndReport P env ueId simTime ue).1 := by
  unfold ueEvaluateAndReport
  dsimp only
  split
  · constructor <;> rfl
  · split
    · constructor <;> rfl
    · rename_i servingMeas _
      let evaluation := P.evaluateNeighbors env ueId simTime (ue.measured servingMeas) servingMeas
        (uePerformMeasurements (P.snrFloor env.ho) env simTime ue)
      have before : SameProcedure ue (ue.evaluated evaluation) := by constructor <;> rfl
      exact before.trans (sameProcedure_timeToTrigger simTime servingMeas evaluation _)

theorem sameProcedure_applyUeErrorModelImmediately (ue : UeInfo) :
    SameProcedure ue (applyUeErrorModelImmediately env ue) := by
  unfold applyUeErrorModelImmediately
  split
  · exact .refl ue
  · split
    · exact .refl ue
    · constructor <;> rfl

@[simp] theorem UeInfo.count_choProcState (op : StatOp) (ue : UeInfo) :
    (ue.count P op).choProcState = ue.choProcState := by
  unfold UeInfo.count
  split <;> rfl

@[simp] theorem applyUeErrorModelImmediately_choProcState (ue : UeInfo) :
    (applyUeErrorModelImmediately env ue).choProcState = ue.choProcState :=
  (sameProcedure_applyUeErrorModelImmediately ue).choProcState

/-! ## What a tick can do to the procedure -/

/-- What a tick does to one UE. -/
def ueTick (P : Program) (env : Env) (ueId : ℕ) (simTime : ℚ) (ue : UeInfo) :
    UeInfo × List Effect :=
  checkHandover P env ueId simTime
    (updateChannelState P env simTime (updateChannelCache P env simTime ue))

/-- The actions of a tick on the procedure of a UE; `ue` is the UE after the measurements. -/
inductive TickAction (P : Program) (env : Env) (ueId : ℕ) (simTime : ℚ) (ue : UeInfo) :
    UeInfo × List Effect → Prop
  | quiet (records : List RecordEffect) :
      TickAction P env ueId simTime ue (ue, records.map .record)
  | timer (active : Bool) (start : ℚ) (evaluating : ue.choProcState.phase = .ueEvaluating) :
      TickAction P env ueId simTime ue (ue.setExecutionTtt active start, [])
  | expires (evaluating : ue.choProcState.phase = .ueEvaluating) :
      TickAction P env ueId simTime ue (choConfigExpired P ue)
  | executes (start : ℚ) (evaluating : ue.choProcState.phase = .ueEvaluating) :
      TickAction P env ueId simTime ue
        (choPhase6UeExecutes P env ueId ue.choProcState.sourceCell ue.choProcState.targetCell simTime
          (ue.setExecutionTtt false start))
  | reports (records : List RecordEffect) (report : MeasurementReport)
      (idle : ue.choProcState.phase = .idle) :
      TickAction P env ueId simTime ue
        ((choTriggerProcedure P ueId simTime report ue).1,
          records.map .record ++ (choTriggerProcedure P ueId simTime report ue).2)
  | reselects (records : List RecordEffect) (idle : ue.choProcState.phase = .idle)
      (reselection : P.reselectOnRlf = true) :
      TickAction P env ueId simTime ue (ue.forceReselection, records.map .record)

theorem choCheckExecutionCondition_action {ueId : ℕ} {simTime : ℚ} {ue : UeInfo}
    (evaluating : ue.choProcState.phase = .ueEvaluating) :
    TickAction P env ueId simTime ue (choCheckExecutionCondition P env ueId simTime ue) := by
  unfold choCheckExecutionCondition
  dsimp only
  rw [if_neg (not_not.mpr evaluating)]
  split
  · exact .expires evaluating
  · split
    · exact .quiet []
    · exact .timer false (-1) evaluating
    · split
      · exact .timer true simTime evaluating
      · split
        · exact .executes _ evaluating
        · exact .quiet []

theorem measureAndReport_action (P : Program) (env : Env) (ueId : ℕ) (simTime : ℚ) {due : UeInfo}
    (idle : due.choProcState.phase = .idle) :
    TickAction P env ueId simTime (ueEvaluateAndReport P env ueId simTime due).1
      (measureAndReport P env ueId simTime due) := by
  have same : SameProcedure due (ueEvaluateAndReport P env ueId simTime due).1 :=
    sameProcedure_ueEvaluateAndReport ueId simTime due
  have idle₁ := (congrArg UeChoProcedureState.phase same.choProcState).trans idle
  unfold measureAndReport
  dsimp only
  split
  · exact .quiet _
  · unfold handleReport
    split_ifs with reselection rlf neighbours
    · simpa using TickAction.reselects _ idle₁ reselection
    · exact .reports _ _ idle₁
    · simpa using TickAction.quiet _
    · exact .reports _ _ idle₁

theorem checkHandover_action (P : Program) (env : Env) (ueId : ℕ) (simTime : ℚ) (ue : UeInfo) :
    ∃ ue₁, SameProcedure ue ue₁ ∧
      TickAction P env ueId simTime ue₁ (checkHandover P env ueId simTime ue) := by
  unfold checkHandover
  split
  · split
    · rename_i evaluating
      exact ⟨ue, .refl ue, choCheckExecutionCondition_action evaluating⟩
    · exact ⟨ue, .refl ue, .quiet []⟩
  · rename_i idle
    rw [not_not] at idle
    have same := sameProcedure_adoptServingCell simTime ue
    dsimp only
    split
    · exact ⟨ue, .refl ue, .quiet []⟩
    · split
      · exact ⟨ue, .refl ue, .quiet []⟩
      · split
        · exact ⟨_, same, .quiet []⟩
        · have same₀ : SameProcedure ue ((ue.adoptServingCell simTime).startMeasurement simTime) :=
            same.trans (by constructor <;> rfl)
          have idle₀ := (congrArg UeChoProcedureState.phase same₀.choProcState).trans idle
          exact ⟨_, same₀.trans (sameProcedure_ueEvaluateAndReport ..),
            measureAndReport_action P env ueId simTime idle₀⟩

/-- What a tick can do to a UE: measurements, then at most one action on the procedure. -/
theorem ueTick_spec (P : Program) (env : Env) (ueId : ℕ) (simTime : ℚ) (ue : UeInfo) :
    ∃ ue₁, SameProcedure ue ue₁ ∧
      TickAction P env ueId simTime ue₁ (ueTick P env ueId simTime ue) := by
  obtain ⟨ue₁, same, action⟩ := checkHandover_action P env ueId simTime
    (updateChannelState P env simTime (updateChannelCache P env simTime ue))
  exact ⟨ue₁, ((sameProcedure_updateChannelCache simTime ue).trans
    (sameProcedure_updateChannelState simTime _)).trans same, action⟩

/-! ## Effects -/

/-- The effect is one of UE `i`: it schedules no phase of another UE. -/
def Effect.OwnedBy (i : ℕ) : Effect → Prop
  | .schedule _ _ ueId _ _ => ueId = i
  | _ => True

/-- The phase that an effect schedules. -/
def Effect.phase : Effect → List (ℚ × ChoHandler × String × String)
  | .schedule delay handler _ sourceCell targetCell => [(delay, handler, sourceCell, targetCell)]
  | _ => []

/-- The phases that a handler of a UE schedules. -/
def phases (effects : List Effect) : List (ℚ × ChoHandler × String × String) :=
  effects.flatMap Effect.phase

@[simp] theorem phases_records (records : List RecordEffect) :
    phases (records.map .record) = [] := by
  unfold phases
  induction records with
  | nil => rfl
  | cons _ _ ih => simp [Effect.phase]

@[simp] theorem phases_append (effects effects' : List Effect) :
    phases (effects ++ effects') = phases effects ++ phases effects' := List.flatMap_append

theorem ownedBy_record {i : ℕ} {records : List RecordEffect} {effect : Effect}
    (member : effect ∈ records.map .record) : effect.OwnedBy i := by
  obtain ⟨record, _, rfl⟩ := List.mem_map.mp member
  trivial

theorem ownedBy_choTriggerProcedure {i : ℕ} {simTime : ℚ} {report : MeasurementReport}
    {ue : UeInfo} {effect : Effect}
    (member : effect ∈ (choTriggerProcedure P i simTime report ue).2) : effect.OwnedBy i := by
  unfold choTriggerProcedure at member
  split at member
  · cases member
  · simp only [choLog, List.mem_cons, List.not_mem_nil, or_false] at member
    rcases member with rfl | rfl | rfl <;> trivial

theorem ownedBy_choPhase6UeExecutes {i : ℕ} {simTime : ℚ} {sourceCell targetCell : String}
    {ue : UeInfo} {effect : Effect}
    (member : effect ∈ (choPhase6UeExecutes P env i sourceCell targetCell simTime ue).2) :
    effect.OwnedBy i := by
  unfold choPhase6UeExecutes at member
  split at member
  · cases member
  · simp only [choLog, List.mem_cons, List.not_mem_nil, or_false] at member
    rcases member with rfl | rfl | rfl <;> trivial

theorem TickAction.ownedBy {i : ℕ} {simTime : ℚ} {ue : UeInfo} {result : UeInfo × List Effect}
    (action : TickAction P env i simTime ue result) {effect : Effect}
    (member : effect ∈ result.2) : effect.OwnedBy i := by
  cases action with
  | quiet records => exact ownedBy_record member
  | timer => cases member
  | expires =>
      obtain rfl := List.mem_singleton.mp member
      trivial
  | executes => exact ownedBy_choPhase6UeExecutes member
  | reports =>
      rcases List.mem_append.mp member with record | trigger
      · exact ownedBy_record record
      · exact ownedBy_choTriggerProcedure trigger
  | reselects => exact ownedBy_record member

theorem ownedBy_choAdvance {i : ℕ} {expected next : ChoPhase} {delay simTime : ℚ}
    {handler : ChoHandler} {sourceCell targetCell : String} {ue : UeInfo} {effect : Effect}
    (member : effect ∈
      (choAdvance expected next delay handler i sourceCell targetCell simTime ue).2) :
    effect.OwnedBy i := by
  unfold choAdvance at member
  split at member
  · cases member
  · obtain rfl := List.mem_singleton.mp member
    rfl

theorem ownedBy_choPhase7ExecutionComplete {i : ℕ} {simTime : ℚ} {sourceCell targetCell : String}
    {ue : UeInfo} {effect : Effect}
    (member : effect ∈ (choPhase7ExecutionComplete P env i sourceCell targetCell simTime ue).2) :
    effect.OwnedBy i := by
  unfold choPhase7ExecutionComplete hoResult choHandleFailure at member
  split at member
  · cases member
  · dsimp only at member
    split at member
    · split at member
      all_goals
        simp only [choLog, List.cons_append, List.nil_append, List.append_nil, List.mem_cons,
          List.not_mem_nil, or_false] at member
        rcases member with rfl | rfl | rfl | rfl | rfl <;> trivial
    · simp only [choLog, List.mem_cons, List.not_mem_nil, or_false] at member
      rcases member with rfl | rfl | rfl <;> trivial

theorem ownedBy_choHandler {i : ℕ} {simTime : ℚ} {handler : ChoHandler}
    {sourceCell targetCell : String} {ue : UeInfo} {effect : Effect}
    (member : effect ∈ (choHandler P env handler i sourceCell targetCell simTime ue).2) :
    effect.OwnedBy i := by
  cases handler with
  | phase1ReportArrived => exact ownedBy_choAdvance member
  | phase2SendXnRequest => exact ownedBy_choAdvance member
  | phase3XnResponse => exact ownedBy_choAdvance member
  | phase4SendRrcReconfig =>
      simp only [choHandler, choPhase4SendRrcReconfig] at member
      split at member
      · cases member
      · simp only [List.mem_cons, List.not_mem_nil, or_false] at member
        rcases member with rfl | rfl <;> trivial
  | phase5UeStoresConfig =>
      simp only [choHandler, choPhase5UeStoresConfig] at member
      split at member
      · cases member
      · simp only [choLog, List.mem_cons, List.not_mem_nil, or_false] at member
        rcases member with rfl | rfl <;> trivial
  | phase7ExecutionComplete => exact ownedBy_choPhase7ExecutionComplete member

end NtnCho
