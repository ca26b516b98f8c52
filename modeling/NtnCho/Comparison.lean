import NtnCho.Isolation
import NtnCho.Ledger
import NtnCho.Report
import NtnCho.ServingTime

/-!
# Comparable report columns

The tables of the strategies are compared column by column. TD-CHO prints under `MR-Report` the reports
that started a procedure; Distance-CHO and Serving-time-CHO print the attempts that ended, `hoCount`
and `hoFail` together. The balance of a UE (`balance_of_run`) says what lies between the two: the
configurations that expired and the procedure that goes on at the end.
-/

namespace NtnCho

open EventSystem

variable {P : Program} {env : Env}

/-! ## The turns of a procedure -/

/-- The phase of a UE, the attempts that ended and the reports counted. -/
structure Account where
  phase : ChoPhase
  attempts : ℕ
  reports : ℕ

def UeInfo.account (ue : UeInfo) : Account where
  phase := ue.choProcState.phase
  attempts := ue.hoCount + ue.hoFail
  reports := ue.choNtnStats.totalReports

/-- The turn that a procedure takes at an event. -/
inductive Turn (P : Program) : Account → Account → Prop
  | goesOn {phase phase' : ChoPhase} {attempts reports : ℕ}
      (busy : phase' = .idle ↔ phase = .idle) :
      Turn P ⟨phase, attempts, reports⟩ ⟨phase', attempts, reports⟩
  | starts {phase : ChoPhase} {attempts reports : ℕ} (busy : phase ≠ .idle) :
      Turn P ⟨.idle, attempts, reports⟩
        ⟨phase, attempts, if P.perUeStats then reports + 1 else reports⟩
  | expires {attempts reports : ℕ} :
      Turn P ⟨.ueEvaluating, attempts, reports⟩ ⟨.idle, attempts, reports⟩
  | ends {attempts reports : ℕ} :
      Turn P ⟨.ueExecuting, attempts, reports⟩ ⟨.idle, attempts + 1, reports⟩

theorem UeInfo.account_eq {ue : UeInfo} {phase : ChoPhase} (atPhase : ue.choProcState.phase = phase) :
    ue.account = ⟨phase, ue.account.attempts, ue.account.reports⟩ := by
  rw [← atPhase]
  rfl

theorem Turn.refl (a : Account) : Turn P a a := .goesOn Iff.rfl

theorem SameProcedure.account {ue ue' : UeInfo} (same : SameProcedure ue ue') :
    ue'.account = ue.account := by
  unfold UeInfo.account
  rw [same.choProcState, same.hoCount, same.hoFail, same.choNtnStats]

/-- Only a report is counted as a report. -/
theorem UeInfo.count_account {op : StatOp} (other : ∀ time, op ≠ .report time) (ue : UeInfo) :
    (ue.count P op).account = ue.account := by
  unfold UeInfo.count
  split
  · cases op with
    | report time => exact absurd rfl (other time)
    | _ => rfl
  · rfl

theorem UeInfo.count_report (time : ℚ) (ue : UeInfo) :
    (ue.count P (.report time)).account =
      { ue.account with
        reports := if P.perUeStats then ue.account.reports + 1 else ue.account.reports } := by
  unfold UeInfo.count
  split <;> rfl

theorem turn_choAdvance {i : ℕ} {expected next : ChoPhase} {delay simTime : ℚ}
    {handler : ChoHandler} {sourceCell targetCell : String} {ue : UeInfo}
    (before : expected ≠ .idle) (after : next ≠ .idle) :
    Turn P ue.account
      (choAdvance expected next delay handler i sourceCell targetCell simTime ue).1.account := by
  unfold choAdvance
  split
  · exact .refl _
  · rename_i guard
    rw [not_not] at guard
    refine .goesOn (iff_of_false after ?_)
    rwa [guard]

theorem turn_choTriggerProcedure {i : ℕ} {simTime : ℚ} {report : MeasurementReport} {ue : UeInfo}
    (idle : ue.choProcState.phase = .idle) :
    Turn P ue.account (choTriggerProcedure P i simTime report ue).1.account := by
  unfold choTriggerProcedure
  rw [if_neg (not_not.mpr idle)]
  dsimp only
  rw [UeInfo.count_report]
  rw [UeInfo.account_eq idle]
  exact .starts (by simp [UeInfo.account])

theorem turn_choConfigExpired {ue : UeInfo} (evaluating : ue.choProcState.phase = .ueEvaluating) :
    Turn P ue.account (choConfigExpired P ue).1.account := by
  unfold choConfigExpired
  dsimp only
  rw [UeInfo.count_account (by simp)]
  rw [UeInfo.account_eq evaluating]
  exact .expires

theorem turn_choPhase6UeExecutes {i : ℕ} {simTime : ℚ} {sourceCell targetCell : String} {ue : UeInfo}
    (evaluating : ue.choProcState.phase = .ueEvaluating) :
    Turn P ue.account (choPhase6UeExecutes P env i sourceCell targetCell simTime ue).1.account := by
  unfold choPhase6UeExecutes
  rw [if_neg (not_not.mpr evaluating)]
  dsimp only
  rw [(sameProcedure_applyUeErrorModelImmediately _).account, UeInfo.count_account (by simp)]
  refine .goesOn (iff_of_false (by simp) ?_)
  simp [evaluating]

theorem TickAction.turn {i : ℕ} {simTime : ℚ} {ue : UeInfo} {result : UeInfo × List Effect}
    (action : TickAction P env i simTime ue result) : Turn P ue.account result.1.account := by
  cases action with
  | quiet records => exact .refl _
  | timer active start evaluating => exact .goesOn Iff.rfl
  | expires evaluating => exact turn_choConfigExpired evaluating
  | executes start evaluating =>
      have started : (ue.setExecutionTtt false start).choProcState.phase = .ueEvaluating := evaluating
      exact turn_choPhase6UeExecutes started
  | reports records report idle => exact turn_choTriggerProcedure idle
  | reselects records idle => exact .refl _

theorem turn_choPhase7ExecutionComplete {i : ℕ} {simTime : ℚ} {sourceCell targetCell : String}
    {ue : UeInfo} (executing : ue.choProcState.phase = .ueExecuting) :
    Turn P ue.account
      (choPhase7ExecutionComplete P env i sourceCell targetCell simTime ue).1.account := by
  have ended {ue' : UeInfo} (idle : ue'.choProcState.phase = .idle)
      (attempts : ue'.account.attempts = ue.account.attempts + 1)
      (reports : ue'.account.reports = ue.account.reports) : Turn P ue.account ue'.account := by
    rw [UeInfo.account_eq executing, UeInfo.account_eq idle, attempts, reports]
    exact .ends
  unfold choPhase7ExecutionComplete
  rw [if_neg (not_not.mpr executing)]
  dsimp only
  split
  · generalize counted : ue.count P (.success _ _) = counted'
    have same : counted'.account = ue.account := by
      rw [← counted]
      exact UeInfo.count_account (by simp) ue
    have applied := (@sameProcedure_applyUeErrorModelImmediately env
      (counted'.handedOver targetCell)).account
    have attempts := congrArg Account.attempts applied
    have reports := congrArg Account.reports applied
    refine ended rfl ?_ ?_
    · rw [← same]
      refine attempts.trans ?_
      simp only [UeInfo.account, UeInfo.handedOver]
      omega
    · rw [← same]
      exact reports
  · have same : (ue.count P .failedAtExecution).account = ue.account :=
      UeInfo.count_account (by simp) ue
    refine ended rfl ?_ ?_
    · rw [← same]
      rfl
    · rw [← same]
      rfl

theorem turn_choHandler {i : ℕ} {simTime : ℚ} {handler : ChoHandler}
    {sourceCell targetCell : String} {ue : UeInfo} :
    Turn P ue.account
      (choHandler P env handler i sourceCell targetCell simTime ue).1.account := by
  by_cases guard : ue.choProcState.phase = handler.guard
  · cases handler with
    | phase1ReportArrived => exact turn_choAdvance (by simp) (by simp)
    | phase2SendXnRequest => exact turn_choAdvance (by simp) (by simp)
    | phase3XnResponse => exact turn_choAdvance (by simp) (by simp)
    | phase4SendRrcReconfig =>
        have sent : ue.choProcState.phase = .xnResponse := guard
        simp only [choHandler, choPhase4SendRrcReconfig]
        rw [if_neg (not_not.mpr sent), UeInfo.count_account (by simp)]
        refine .goesOn (iff_of_false (by simp) ?_)
        simp [sent]
    | phase5UeStoresConfig =>
        have received : ue.choProcState.phase = .rrcReconfigDownlink := guard
        simp only [choHandler, choPhase5UeStoresConfig]
        rw [if_neg (not_not.mpr received), UeInfo.count_account (by simp)]
        refine .goesOn (iff_of_false (by simp) ?_)
        simp [received]
    | phase7ExecutionComplete => exact turn_choPhase7ExecutionComplete guard
  · rw [choHandler_of_guard_ne guard]
    exact .refl _

/-- At every event the procedure of a UE takes one turn. -/
theorem turn_ueAction (P : Program) (env : Env) (i : ℕ) (event : Event) (now : ℤ) (ue : UeInfo) :
    Turn P ue.account (ueAction P env i event now ue).1.account := by
  cases event with
  | checkHandoverConditions =>
      obtain ⟨ue₁, same, action⟩ := ueTick_spec P env i (getSeconds now) ue
      rw [← same.account]
      exact action.turn
  | cho handler ueId sourceCell targetCell => exact turn_choHandler
  | evaluatePendingPrediction r => exact .refl _

/-! ## The balance of a run -/

def phaseAt (c : Conf ℤ (Option UeInfo) Event) : Option ChoPhase :=
  c.state.map fun ue => ue.choProcState.phase

/-- The event leaves `CHO_IDLE`, as only `CHO_TriggerProcedure` does. -/
def startsProcedure (f : Firing ℤ (Option UeInfo) Event) : Bool :=
  decide (phaseAt f.before = some .idle) && !decide (phaseAt f.after = some .idle)

/-- The event drops a configuration that was not executed. -/
def dropsConfig (f : Firing ℤ (Option UeInfo) Event) : Bool :=
  decide (phaseAt f.before = some .ueEvaluating) && decide (phaseAt f.after = some .idle)

/-- The reports that started a procedure. -/
def started (h : List (Firing ℤ (Option UeInfo) Event)) : ℕ := h.countP startsProcedure

/-- The configurations that expired without an execution. -/
def expired (h : List (Firing ℤ (Option UeInfo) Event)) : ℕ := h.countP dropsConfig

/-- A procedure that started has ended, has expired or goes on. -/
structure Balance (P : Program) (h : List (Firing ℤ (Option UeInfo) Event)) (a : Account) :
    Prop where
  attempts : started h = a.attempts + expired h + if a.phase = .idle then 0 else 1
  reports : P.perUeStats = true → a.reports = started h

theorem Balance.turn {h : List (Firing ℤ (Option UeInfo) Event)} {a a' : Account}
    {f : Firing ℤ (Option UeInfo) Event} (balance : Balance P h a) (turn : Turn P a a')
    (before : phaseAt f.before = some a.phase) (after : phaseAt f.after = some a'.phase) :
    Balance P (h ++ [f]) a' := by
  obtain ⟨attempts, reports⟩ := balance
  have starting : started (h ++ [f]) = started h + if startsProcedure f then 1 else 0 := by
    simp only [started, List.countP_append, List.countP_singleton]
  have dropping : expired (h ++ [f]) = expired h + if dropsConfig f then 1 else 0 := by
    simp only [expired, List.countP_append, List.countP_singleton]
  cases turn with
  | @goesOn phase phase' _ _ busy =>
      have goesOn : startsProcedure f = false := by simp [startsProcedure, before, after, busy]
      have keeps : dropsConfig f = false := by
        simp only [dropsConfig, before, after, Option.some.injEq, busy]
        cases phase <;> rfl
      simp only [goesOn, keeps, Bool.false_eq_true, if_false, add_zero] at starting dropping
      refine ⟨?_, fun perUe => (reports perUe).trans starting.symm⟩
      rw [starting, dropping, attempts]
      simp only [busy]
  | @starts phase _ _ busy =>
      have starts : startsProcedure f = true := by simp [startsProcedure, before, after, busy]
      have keeps : dropsConfig f = false := by simp [dropsConfig, before]
      simp only [starts, keeps, if_true, Bool.false_eq_true, if_false] at starting dropping
      refine ⟨?_, fun perUe => ?_⟩
      · rw [starting, dropping, attempts]
        simp [busy]
      · have counted := reports perUe
        simp only [perUe, if_true] at counted ⊢
        omega
  | expires =>
      have goesOn : startsProcedure f = false := by simp [startsProcedure, before]
      have drops : dropsConfig f = true := by simp [dropsConfig, before, after]
      simp only [goesOn, drops, if_true, Bool.false_eq_true, if_false] at starting dropping
      refine ⟨?_, fun perUe => (reports perUe).trans starting.symm⟩
      rw [starting, dropping, attempts]
      simp
      omega
  | ends =>
      have goesOn : startsProcedure f = false := by simp [startsProcedure, before]
      have keeps : dropsConfig f = false := by simp [dropsConfig, before]
      simp only [goesOn, keeps, Bool.false_eq_true, if_false] at starting dropping
      refine ⟨?_, fun perUe => (reports perUe).trans starting.symm⟩
      rw [starting, dropping, attempts]
      simp
      omega

theorem balance_of_run {ok : Policy ℤ Event} {i : ℕ} {rows : List UeRow}
    {h : List (Firing ℤ (Option UeInfo) Event)} {c : Conf ℤ (Option UeInfo) Event}
    (run : Run (ueHandler P env i) ok (ueInitial env rows i) h c) :
    ∀ {ue}, c.state = some ue → Balance P h ue.account := by
  refine ueRun_history (I := fun h _ ue => Balance P h ue.account) run ?_ ?_
  · intro row _
    exact ⟨rfl, fun _ => rfl⟩
  · intro h c p c' ue _ step present _ balance
    have state' := ueState_of_step step present
    refine balance.turn (turn_ueAction P env i p.ev p.ts ue) ?_ ?_
    · rw [phaseAt, present]
      rfl
    · rw [phaseAt, state']
      rfl

/-! ## The columns -/

/-- The columns of a per-UE table that are about handovers. -/
structure ReportColumns where
  hoOk : ℕ
  hoFail : ℕ
  mrReport : ℕ
  successRate : ℚ

/-- What TD-CHO prints. -/
def TdCho.reportColumns (ue : UeInfo) : ReportColumns where
  hoOk := ue.choNtnStats.successfulHandovers
  hoFail := ue.choNtnStats.failedAtExecution
  mrReport := ue.choNtnStats.totalReports
  successRate :=
    if 0 < ue.choNtnStats.totalReports then
      100 * (ue.choNtnStats.successfulHandovers : ℚ) / ue.choNtnStats.totalReports
    else 0

/-- What a program without statistics of the UEs prints. -/
def attemptColumns (ue : UeInfo) : ReportColumns :=
  let totalAttempts := ue.hoCount + ue.hoFail
  { hoOk := ue.hoCount
    hoFail := ue.hoFail
    mrReport := totalAttempts
    successRate :=
      if 0 < totalAttempts then 100 * (ue.hoCount : ℚ) / (totalAttempts : ℕ) else 0 }

def Distance.reportColumns (ue : UeInfo) : ReportColumns := attemptColumns ue

def ServingTime.reportColumns (ue : UeInfo) : ReportColumns := attemptColumns ue

/-- The strategies whose tables are compared and read here. -/
inductive Strategy where
  | tdCho
  | distanceCho
  | servingTimeCho

namespace Strategy

def program : Strategy → Program
  | tdCho => NtnCho.tdCho
  | distanceCho => NtnCho.distanceCho
  | servingTimeCho => NtnCho.servingTimeCho

def reportColumns : Strategy → UeInfo → ReportColumns
  | tdCho => TdCho.reportColumns
  | distanceCho => Distance.reportColumns
  | servingTimeCho => ServingTime.reportColumns

end Strategy

/-- `MR-Report` counts the reports that started a procedure, and `Successful-Rate%` is taken of
them. -/
structure Comparable (columns : ReportColumns) (reports : ℕ) : Prop where
  mrReport : columns.mrReport = reports
  successRate : columns.successRate = 100 * (columns.hoOk : ℚ) / reports

theorem TdCho.comparable (ue : UeInfo) :
    Comparable (TdCho.reportColumns ue) ue.choNtnStats.totalReports where
  mrReport := rfl
  successRate := by
    unfold TdCho.reportColumns
    dsimp only
    split
    · rfl
    · rename_i none
      rw [Nat.eq_zero_of_not_pos none, Nat.cast_zero, div_zero]

/-- The attempts are comparable when every report that started a procedure led to one. -/
theorem comparable_attemptColumns {ue : UeInfo} {reports : ℕ} :
    Comparable (attemptColumns ue) reports ↔ ue.hoCount + ue.hoFail = reports := by
  refine ⟨Comparable.mrReport, ?_⟩
  rintro rfl
  refine ⟨rfl, ?_⟩
  unfold attemptColumns
  dsimp only
  split
  · rfl
  · rename_i none
    rw [Nat.eq_zero_of_not_pos none, Nat.cast_zero, div_zero]

theorem Balance.attempts_iff {h : List (Firing ℤ (Option UeInfo) Event)} {ue : UeInfo}
    (balance : Balance P h ue.account) :
    ue.hoCount + ue.hoFail = started h ↔ expired h = 0 ∧ ue.choProcState.phase = .idle := by
  have attempts := balance.attempts
  simp only [UeInfo.account] at attempts
  by_cases idle : ue.choProcState.phase = .idle
  · simp only [idle, if_true, and_true] at attempts ⊢
    omega
  · simp only [idle, if_false, and_false, iff_false] at attempts ⊢
    omega

/-- **Comparable columns.** TD-CHO prints the reports that started a procedure. The other two print
the same exactly when no configuration of the UE has expired and no procedure of it goes on. -/
theorem comparable_columns_iff {strategy : Strategy} {rows : List UeRow}
    {h : List (Firing ℤ Sim Event)} {c : Conf ℤ Sim Event}
    (run : AnyOrderRun strategy.program env rows h c) {i : ℕ} {ue : UeInfo}
    (present : c.state.ues[i]? = some ue) :
    Comparable (strategy.reportColumns ue) (started (ueHistory strategy.program env i h)) ↔
      strategy = .tdCho ∨
        (expired (ueHistory strategy.program env i h) = 0 ∧ ue.choProcState.phase = .idle) := by
  have balance := balance_of_run (run.toUe i) present
  cases strategy with
  | tdCho =>
      have reports : ue.choNtnStats.totalReports = _ := balance.reports rfl
      refine iff_of_true ?_ (.inl rfl)
      have comparable := TdCho.comparable ue
      rwa [reports] at comparable
  | distanceCho =>
      simp only [reduceCtorEq, false_or]
      exact comparable_attemptColumns.trans balance.attempts_iff
  | servingTimeCho =>
      simp only [reduceCtorEq, false_or]
      exact comparable_attemptColumns.trans balance.attempts_iff

/-- A completed handover of Distance-CHO. -/
theorem comparable_columns_iff_crossing :
    ∃ ue, (sampleRun distanceCho crossing sampleRows 11).2.state.ues[0]? = some ue ∧
      ue.hoCount = 1 ∧
      Comparable (Distance.reportColumns ue)
        (started (ueHistory distanceCho crossing 0
          (sampleRun distanceCho crossing sampleRows 11).1)) := by
  have ended : (sampleRun distanceCho crossing sampleRows 11).2.state.ues[0]?.map
      (fun ue => (ue.hoCount, ue.choProcState.phase)) = some (1, .idle) := by decide +kernel
  have unexpired : expired (ueHistory distanceCho crossing 0
      (sampleRun distanceCho crossing sampleRows 11).1) = 0 := by decide +kernel
  obtain ⟨ue, present, ended⟩ := Option.map_eq_some_iff.mp ended
  obtain ⟨count, idle⟩ := Prod.mk.inj ended
  have run : AnyOrderRun Strategy.distanceCho.program crossing sampleRows _ _ :=
    (simRun_sampleRun distanceCho crossing sampleRows 11).anyOrder
  exact ⟨ue, present, count, (comparable_columns_iff run present).mpr (.inr ⟨unexpired, idle⟩)⟩

/-- Two satellites that stand still at the same altitude. -/
def still : Env where
  link := sampleLink
    [overhead "S" [(0, 1000000), (100, 1000000)], overhead "N" [(0, 1000000), (100, 1000000)]]
  ho := {}

/-- Between `still` satellites a report of Distance-CHO starts a procedure that never executes: its
configuration expires, and no report is printed. -/
theorem columns_drift :
    ¬ ∀ {strategy : Strategy} {env : Env} {rows : List UeRow} {h : List (Firing ℤ Sim Event)}
      {c : Conf ℤ Sim Event}, SimRun strategy.program env rows h c →
        ∀ (i : ℕ) ue, c.state.ues[i]? = some ue →
          Comparable (strategy.reportColumns ue) (started (ueHistory strategy.program env i h)) := by
  intro always
  have ended : (sampleRun distanceCho still sampleRows 71).2.state.ues[0]?.map
      (fun ue => ue.hoCount + ue.hoFail) = some 0 := by decide +kernel
  have reported : started (ueHistory distanceCho still 0
      (sampleRun distanceCho still sampleRows 71).1) = 1 := by decide +kernel
  obtain ⟨ue, present, none⟩ := Option.map_eq_some_iff.mp ended
  have run : SimRun Strategy.distanceCho.program still sampleRows _ _ :=
    simRun_sampleRun distanceCho still sampleRows 71
  have counted : ue.hoCount + ue.hoFail = started (ueHistory distanceCho still 0 _) :=
    (always run 0 ue present).mrReport
  rw [none, reported] at counted
  cases counted

end NtnCho
