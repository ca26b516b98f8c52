import NtnCho.Pipeline
import Mathlib.Algebra.BigOperators.Group.List.Basic

/-!
# The handover ledger

Every handler counts what it does twice, in the statistics of the UE and in the global ones.
`Ledger` balances the counters of one UE against its phase, handler by handler. That the global
counters are the sums over the UEs is one argument for all of them: a `Tally` is a quantity that a
UE gains by its actions exactly as the global state gains it by the effects of these actions.
-/

namespace NtnCho

open EventSystem

variable {P : Program} {env : Env}

/-! ## The ledger of one UE -/

/-- The report has been sent and the configuration has not. -/
def ChoPhase.inPreparation (phase : ChoPhase) : Prop :=
  phase = .measReportUplink ∨ phase = .gnbChoDecision ∨ phase = .xnRequest ∨ phase = .xnResponse

instance (phase : ChoPhase) : Decidable phase.inPreparation := by
  unfold ChoPhase.inPreparation
  infer_instance

/-- Each counter is the next one with what has left the pipeline, plus the procedure in between. -/
structure Ledger (ue : UeInfo) : Prop where
  reports : ue.choNtnStats.totalReports =
    ue.choNtnStats.configsSent + if ue.choProcState.phase.inPreparation then 1 else 0
  sent : ue.choNtnStats.configsSent =
    ue.choNtnStats.configsReceived + if ue.choProcState.phase = .rrcReconfigDownlink then 1 else 0
  received : ue.choNtnStats.configsReceived =
    ue.choNtnStats.executionsTriggered + ue.choNtnStats.configsExpired +
      if ue.choProcState.phase = .ueEvaluating then 1 else 0
  executed : ue.choNtnStats.executionsTriggered =
    ue.choNtnStats.successfulHandovers + ue.choNtnStats.failedAtExecution +
      if ue.choProcState.phase = .ueExecuting then 1 else 0
  hoCount : ue.hoCount = ue.choNtnStats.successfulHandovers
  hoFail : ue.hoFail = ue.choNtnStats.failedAtExecution

/-- No more handovers succeed than reports are sent. -/
theorem Ledger.success_le_reports {ue : UeInfo} (ledger : Ledger ue) :
    ue.choNtnStats.successfulHandovers ≤ ue.choNtnStats.totalReports := by
  have reports := ledger.reports
  have sent := ledger.sent
  have received := ledger.received
  have executed := ledger.executed
  omega

theorem Ledger.of_same {ue ue' : UeInfo} (ledger : Ledger ue) (same : SameProcedure ue ue') :
    Ledger ue' := by
  obtain ⟨reports, sent, received, executed, hoCount, hoFail⟩ := ledger
  constructor <;> simpa only [same.choProcState, same.choNtnStats, same.hoCount, same.hoFail]

theorem UeInfo.count_eq (perUe : P.perUeStats = true) (op : StatOp) (ue : UeInfo) :
    ue.count P op = { ue with choNtnStats := op.apply ue.choNtnStats } := by
  unfold UeInfo.count
  rw [if_pos perUe]

/-- A stage inside the preparation moves no counter. -/
theorem ledger_choAdvance {i : ℕ} {expected next : ChoPhase} {delay simTime : ℚ}
    {handler : ChoHandler} {sourceCell targetCell : String} {ue : UeInfo}
    (guard : ue.choProcState.phase = expected) (before : expected.inPreparation)
    (after : next.inPreparation) (ledger : Ledger ue) :
    Ledger (choAdvance expected next delay handler i sourceCell targetCell simTime ue).1 := by
  obtain ⟨reports, sent, received, executed, hoCount, hoFail⟩ := ledger
  have outside : ∀ {phase : ChoPhase}, phase.inPreparation → phase ≠ .rrcReconfigDownlink ∧
      phase ≠ .ueEvaluating ∧ phase ≠ .ueExecuting := by
    rintro _ (rfl | rfl | rfl | rfl) <;> simp
  obtain ⟨_, _, _⟩ := outside before
  obtain ⟨_, _, _⟩ := outside after
  unfold choAdvance
  rw [if_neg (not_not.mpr guard)]
  constructor <;> simp_all only [if_true, if_false]

section Ledger

variable (perUe : P.perUeStats = true)

include perUe

/-- A report opens a procedure: one more report, and one procedure in preparation. -/
theorem ledger_choTriggerProcedure {i : ℕ} {simTime : ℚ} {report : MeasurementReport} {ue : UeInfo}
    (idle : ue.choProcState.phase = .idle) (ledger : Ledger ue) :
    Ledger (choTriggerProcedure P i simTime report ue).1 := by
  obtain ⟨reports, sent, received, executed, hoCount, hoFail⟩ := ledger
  simp only [idle, ChoPhase.inPreparation, reduceCtorEq, or_self, if_false, add_zero]
    at reports sent received executed
  unfold choTriggerProcedure
  rw [if_neg (not_not.mpr idle)]
  dsimp only
  rw [UeInfo.count_eq perUe]
  constructor <;> simp only [StatOp.apply, ChoPhase.inPreparation, true_or, reduceCtorEq, if_true,
    if_false, add_zero]
  all_goals omega

/-- An expired configuration leaves the pipeline. -/
theorem ledger_choConfigExpired {ue : UeInfo} (evaluating : ue.choProcState.phase = .ueEvaluating)
    (ledger : Ledger ue) : Ledger (choConfigExpired P ue).1 := by
  obtain ⟨reports, sent, received, executed, hoCount, hoFail⟩ := ledger
  simp only [evaluating, ChoPhase.inPreparation, reduceCtorEq, or_self, if_false, if_true, add_zero]
    at reports sent received executed
  unfold choConfigExpired
  dsimp only
  rw [UeInfo.count_eq perUe]
  constructor <;> simp only [StatOp.apply, ChoPhase.inPreparation, or_self, reduceCtorEq,
    if_false, add_zero]
  all_goals omega

/-- An execution takes the configuration out of evaluation. -/
theorem ledger_choPhase6UeExecutes {i : ℕ} {simTime : ℚ} {sourceCell targetCell : String}
    {ue : UeInfo} (evaluating : ue.choProcState.phase = .ueEvaluating) (ledger : Ledger ue) :
    Ledger (choPhase6UeExecutes P env i sourceCell targetCell simTime ue).1 := by
  obtain ⟨reports, sent, received, executed, hoCount, hoFail⟩ := ledger
  simp only [evaluating, ChoPhase.inPreparation, reduceCtorEq, or_self, if_false, if_true, add_zero]
    at reports sent received executed
  unfold choPhase6UeExecutes
  rw [if_neg (not_not.mpr evaluating)]
  dsimp only
  rw [UeInfo.count_eq perUe]
  refine Ledger.of_same ?_ (sameProcedure_applyUeErrorModelImmediately _)
  constructor <;> simp only [StatOp.apply, ChoPhase.inPreparation, or_self, reduceCtorEq, if_true,
    if_false, add_zero]
  all_goals omega

theorem TickAction.ledger {i : ℕ} {simTime : ℚ} {ue : UeInfo} {result : UeInfo × List Effect}
    (action : TickAction P env i simTime ue result) (ledger : Ledger ue) : Ledger result.1 := by
  cases action with
  | quiet records => exact ledger
  | timer active start evaluating => exact ⟨ledger.1, ledger.2, ledger.3, ledger.4, ledger.5, ledger.6⟩
  | expires evaluating => exact ledger_choConfigExpired perUe evaluating ledger
  | executes start evaluating =>
      have timer : Ledger (ue.setExecutionTtt false start) :=
        ⟨ledger.1, ledger.2, ledger.3, ledger.4, ledger.5, ledger.6⟩
      exact ledger_choPhase6UeExecutes perUe evaluating timer
  | reports records report idle => exact ledger_choTriggerProcedure perUe idle ledger
  | reselects records idle => exact ⟨ledger.1, ledger.2, ledger.3, ledger.4, ledger.5, ledger.6⟩

theorem ledger_choPhase4SendRrcReconfig {i : ℕ} {simTime : ℚ} {sourceCell targetCell : String}
    {ue : UeInfo} (guard : ue.choProcState.phase = .xnResponse) (ledger : Ledger ue) :
    Ledger (choPhase4SendRrcReconfig P i sourceCell targetCell simTime ue).1 := by
  obtain ⟨reports, sent, received, executed, hoCount, hoFail⟩ := ledger
  simp only [guard, ChoPhase.inPreparation, reduceCtorEq, or_true, if_false, if_true, add_zero]
    at reports sent received executed
  unfold choPhase4SendRrcReconfig
  rw [if_neg (not_not.mpr guard)]
  dsimp only
  rw [UeInfo.count_eq perUe]
  constructor <;> simp only [StatOp.apply, ChoPhase.inPreparation, or_self, reduceCtorEq, if_true,
    if_false, add_zero]
  all_goals omega

theorem ledger_choPhase5UeStoresConfig {i : ℕ} {simTime : ℚ} {sourceCell targetCell : String}
    {ue : UeInfo} (guard : ue.choProcState.phase = .rrcReconfigDownlink) (ledger : Ledger ue) :
    Ledger (choPhase5UeStoresConfig P env i sourceCell targetCell simTime ue).1 := by
  obtain ⟨reports, sent, received, executed, hoCount, hoFail⟩ := ledger
  simp only [guard, ChoPhase.inPreparation, reduceCtorEq, or_self, if_false, if_true, add_zero]
    at reports sent received executed
  unfold choPhase5UeStoresConfig
  rw [if_neg (not_not.mpr guard)]
  dsimp only
  rw [UeInfo.count_eq perUe]
  constructor <;> simp only [StatOp.apply, ChoPhase.inPreparation, or_self, reduceCtorEq, if_true,
    if_false, add_zero]
  all_goals omega

/-- An execution ends as a success or as a failure. -/
theorem ledger_choPhase7ExecutionComplete {i : ℕ} {simTime : ℚ} {sourceCell targetCell : String}
    {ue : UeInfo} (guard : ue.choProcState.phase = .ueExecuting) (ledger : Ledger ue) :
    Ledger (choPhase7ExecutionComplete P env i sourceCell targetCell simTime ue).1 := by
  obtain ⟨reports, sent, received, executed, hoCount, hoFail⟩ := ledger
  simp only [guard, ChoPhase.inPreparation, reduceCtorEq, or_self, if_false, if_true, add_zero]
    at reports sent received executed
  unfold choPhase7ExecutionComplete
  rw [if_neg (not_not.mpr guard)]
  dsimp only
  split
  · rw [UeInfo.count_eq perUe]
    generalize handed : UeInfo.handedOver targetCell _ = handedOver
    have same := @sameProcedure_applyUeErrorModelImmediately env handedOver
    constructor <;> simp only [UeInfo.completed, same.choNtnStats, same.hoCount, same.hoFail,
      ChoPhase.inPreparation, or_self, reduceCtorEq, if_false, add_zero]
    all_goals
      subst handed
      simp only [UeInfo.handedOver, StatOp.apply]
      omega
  · rw [UeInfo.count_eq perUe]
    constructor <;> simp only [choHandleFailure, StatOp.apply, ChoPhase.inPreparation, or_self,
      reduceCtorEq, if_false, add_zero]
    all_goals omega

theorem ledger_choHandler {i : ℕ} {simTime : ℚ} {handler : ChoHandler}
    {sourceCell targetCell : String} {ue : UeInfo} (ledger : Ledger ue) :
    Ledger (choHandler P env handler i sourceCell targetCell simTime ue).1 := by
  by_cases guard : ue.choProcState.phase = handler.guard
  · cases handler with
    | phase1ReportArrived =>
        exact ledger_choAdvance guard (.inl rfl) (.inr (.inl rfl)) ledger
    | phase2SendXnRequest =>
        exact ledger_choAdvance guard (.inr (.inl rfl)) (.inr (.inr (.inl rfl))) ledger
    | phase3XnResponse =>
        exact ledger_choAdvance guard (.inr (.inr (.inl rfl))) (.inr (.inr (.inr rfl))) ledger
    | phase4SendRrcReconfig => exact ledger_choPhase4SendRrcReconfig perUe guard ledger
    | phase5UeStoresConfig => exact ledger_choPhase5UeStoresConfig perUe guard ledger
    | phase7ExecutionComplete => exact ledger_choPhase7ExecutionComplete perUe guard ledger
  · rw [choHandler_of_guard_ne guard]
    exact ledger

theorem ledger_ueAction {i : ℕ} {event : Event} {now : ℤ} {ue : UeInfo} (ledger : Ledger ue) :
    Ledger (ueAction P env i event now ue).1 := by
  cases event with
  | checkHandoverConditions =>
      obtain ⟨ue₁, same, action⟩ := ueTick_spec P env i (getSeconds now) ue
      exact action.ledger perUe (ledger.of_same same)
  | cho handler ueId sourceCell targetCell => exact ledger_choHandler perUe ledger
  | evaluatePendingPrediction r => exact ledger

end Ledger

theorem ledger_initialUe (i : ℕ) (row : UeRow) : Ledger (initialUe env i row) := by
  constructor <;> rfl

/-! ## The global counters -/

/-- The statistics and the number of handovers, of a UE or of the simulation. -/
structure Books where
  stats : ChoNtnStatistics := {}
  handovers : ℕ := 0

def Sim.books (s : Sim) : Books := ⟨s.choNtnStats, s.handoverCount⟩

def UeInfo.books (ue : UeInfo) : Books := ⟨ue.choNtnStats, ue.hoCount⟩

/-- What an effect enters into the books. -/
def Effect.enter (b : Books) : Effect → Books
  | .stat op => { b with stats := op.apply b.stats }
  | .handoverCount => { b with handovers := b.handovers + 1 }
  | _ => b

theorem foldl_enter_records (b : Books) (records : List RecordEffect) :
    (records.map Effect.record).foldl Effect.enter b = b := by
  induction records with
  | nil => rfl
  | cons _ _ ih => exact ih

theorem Sim.books_applyEffect (now : ℤ) (s : Sim) (effect : Effect) :
    (s.applyEffect now effect).1.books = effect.enter s.books := by
  cases effect with
  | record r => cases r <;> rfl
  | schedule => rfl
  | stat => rfl
  | handoverCount => rfl

theorem Sim.books_applyEffects (now : ℤ) (s : Sim) (effects : List Effect) :
    (s.applyEffects now effects).1.books = effects.foldl Effect.enter s.books := by
  induction effects generalizing s with
  | nil => rfl
  | cons effect effects ih =>
      rw [List.foldl_cons, ← s.books_applyEffect now effect]
      exact ih _

theorem UeInfo.books_of_same {ue ue' : UeInfo} (same : SameProcedure ue ue') :
    ue'.books = ue.books := by
  unfold UeInfo.books
  rw [same.choNtnStats, same.hoCount]

section Books

variable (perUe : P.perUeStats = true)

include perUe

theorem TickAction.books {i : ℕ} {simTime : ℚ} {ue : UeInfo} {result : UeInfo × List Effect}
    (action : TickAction P env i simTime ue result) :
    result.1.books = result.2.foldl Effect.enter ue.books := by
  cases action with
  | quiet records => rw [foldl_enter_records]
  | timer => rfl
  | expires =>
      unfold choConfigExpired
      dsimp only
      rw [UeInfo.count_eq perUe]
      rfl
  | executes start evaluating =>
      have guard : (ue.setExecutionTtt false start).choProcState.phase = .ueEvaluating := evaluating
      unfold choPhase6UeExecutes
      rw [if_neg (not_not.mpr guard)]
      dsimp only
      rw [UeInfo.count_eq perUe]
      exact UeInfo.books_of_same (sameProcedure_applyUeErrorModelImmediately _)
  | reports records report idle =>
      rw [List.foldl_append, foldl_enter_records]
      unfold choTriggerProcedure
      rw [if_neg (not_not.mpr idle)]
      dsimp only
      rw [UeInfo.count_eq perUe]
      rfl
  | reselects records => exact (foldl_enter_records _ _).symm

theorem books_choPhase7ExecutionComplete {i : ℕ} {simTime : ℚ} {sourceCell targetCell : String}
    {ue : UeInfo} :
    (choPhase7ExecutionComplete P env i sourceCell targetCell simTime ue).1.books =
      (choPhase7ExecutionComplete P env i sourceCell targetCell simTime ue).2.foldl Effect.enter
        ue.books := by
  unfold choPhase7ExecutionComplete
  split
  · rfl
  · dsimp only
    split
    · rw [UeInfo.count_eq perUe]
      generalize handed : UeInfo.handedOver targetCell _ = handedOver
      have same : handedOver.books = (applyUeErrorModelImmediately env handedOver).completed.books :=
        (UeInfo.books_of_same (sameProcedure_applyUeErrorModelImmediately handedOver)).symm
      rw [← same, ← handed]
      unfold hoResult
      split <;> rfl
    · rw [UeInfo.count_eq perUe]
      rfl

theorem books_choHandler {i : ℕ} {simTime : ℚ} {handler : ChoHandler}
    {sourceCell targetCell : String} {ue : UeInfo} :
    (choHandler P env handler i sourceCell targetCell simTime ue).1.books =
      (choHandler P env handler i sourceCell targetCell simTime ue).2.foldl Effect.enter
        ue.books := by
  by_cases guard : ue.choProcState.phase = handler.guard
  · cases handler with
    | phase1ReportArrived =>
        simp only [choHandler, choPhase1ReportArrived, choAdvance]
        split <;> rfl
    | phase2SendXnRequest =>
        simp only [choHandler, choPhase2SendXnRequest, choAdvance]
        split <;> rfl
    | phase3XnResponse =>
        simp only [choHandler, choPhase3XnResponse, choAdvance]
        split <;> rfl
    | phase4SendRrcReconfig =>
        simp only [choHandler, choPhase4SendRrcReconfig, UeInfo.count_eq perUe]
        split <;> rfl
    | phase5UeStoresConfig =>
        simp only [choHandler, choPhase5UeStoresConfig, UeInfo.count_eq perUe]
        split <;> rfl
    | phase7ExecutionComplete => exact books_choPhase7ExecutionComplete perUe
  · rw [choHandler_of_guard_ne guard]
    rfl

/-- A UE enters into its books what its effects enter into the global ones. -/
theorem books_ueAction {i : ℕ} {event : Event} {now : ℤ} {ue : UeInfo} :
    (ueAction P env i event now ue).1.books =
      (ueAction P env i event now ue).2.foldl Effect.enter ue.books := by
  cases event with
  | checkHandoverConditions =>
      obtain ⟨ue₁, same, action⟩ := ueTick_spec P env i (getSeconds now) ue
      rw [← UeInfo.books_of_same same]
      exact action.books perUe
  | cho handler ueId sourceCell targetCell => exact books_choHandler perUe
  | evaluatePendingPrediction r => rfl

end Books

/-- A quantity that the books count. -/
structure Tally (α : Type) [AddCommMonoid α] where
  value : Books → α
  weight : Effect → α
  zero : value {} = 0
  enter : ∀ b effect, value (effect.enter b) = value b + weight effect

section Tally

variable {α : Type} [AddCommMonoid α] (T : Tally α)

def Tally.total (effects : List Effect) : α := (effects.map T.weight).sum

theorem Tally.value_foldl (b : Books) (effects : List Effect) :
    T.value (effects.foldl Effect.enter b) = T.value b + T.total effects := by
  induction effects generalizing b with
  | nil => exact (add_zero _).symm
  | cons effect effects ih =>
      rw [List.foldl_cons, ih, T.enter, add_assoc]
      rfl

/-- The sum over all UEs. -/
def Tally.overUes (ues : List UeInfo) : α := (ues.map fun ue => T.value ue.books).sum

variable (perUe : P.perUeStats = true)

include perUe

theorem Tally.ueAction (env : Env) (i : ℕ) (event : Event) (now : ℤ) (ue : UeInfo) :
    T.value (ueAction P env i event now ue).1.books =
      T.value ue.books + T.total (NtnCho.ueAction P env i event now ue).2 := by
  rw [books_ueAction perUe, T.value_foldl]

omit perUe in
/-- A loop over the UEs adds up what its rounds gain. -/
theorem Tally.overUes_forEachUe {body : ℕ → UeInfo → UeInfo × List Effect}
    (gain : ∀ i ue, T.value (body i ue).1.books = T.value ue.books + T.total (body i ue).2) (k : ℕ)
    (ues : List UeInfo) :
    T.overUes (forEachUe body k ues).1 = T.overUes ues + T.total (forEachUe body k ues).2 := by
  induction ues generalizing k with
  | nil => exact (add_zero _).symm
  | cons ue ues ih =>
      have first := gain k ue
      have rest := ih (k + 1)
      simp only [Tally.overUes, Tally.total, forEachUe, List.map_cons, List.sum_cons,
        List.map_append, List.sum_append] at first rest ⊢
      rw [first, rest]
      exact add_add_add_comm _ _ _ _

omit perUe in
/-- A change of one UE changes the sum by what this UE gains. -/
theorem Tally.overUes_set {ues : List UeInfo} {i : ℕ} {ue ue' : UeInfo} {gain : α}
    (present : ues[i]? = some ue) (gained : T.value ue'.books = T.value ue.books + gain) :
    T.overUes (ues.set i ue') = T.overUes ues + gain := by
  unfold Tally.overUes
  induction ues generalizing i with
  | nil => cases present
  | cons first rest ih =>
      cases i with
      | zero =>
          obtain rfl : first = ue := Option.some.inj present
          rw [List.set_cons_zero, List.map_cons, List.sum_cons, List.map_cons, List.sum_cons, gained,
            add_right_comm]
      | succ i =>
          rw [List.set_cons_succ, List.map_cons, List.sum_cons, List.map_cons, List.sum_cons,
            ih present, add_assoc]

/-- The global books show the sum over all UEs. -/
def Tally.Balanced (s : Sim) : Prop := T.value s.books = T.overUes s.ues

theorem Tally.balanced_simHandler {event : Event} {now : ℤ} {s : Sim} (balanced : T.Balanced s) :
    T.Balanced (simHandler P env event now s).1 := by
  unfold Tally.Balanced at balanced ⊢
  cases event with
  | checkHandoverConditions =>
      have gained := fun i ue => T.ueAction perUe env i .checkHandoverConditions now ue
      have loop := T.overUes_forEachUe gained 0 s.ues
      rw [simHandler, Sim.checkHandoverConditions_eq, Sim.books_applyEffects, T.value_foldl,
        Sim.applyEffects_ues]
      exact (congrArg (· + _) balanced).trans loop.symm
  | cho handler ueId sourceCell targetCell =>
      simp only [simHandler, Sim.cho]
      split
      · exact balanced
      · rename_i ue present
        have gained :=
          T.ueAction perUe env ueId (.cho handler ueId sourceCell targetCell) now ue
        rw [Sim.books_applyEffects, T.value_foldl, Sim.applyEffects_ues]
        exact (congrArg (· + _) balanced).trans (T.overUes_set present gained).symm
  | evaluatePendingPrediction r =>
      rw [simHandler, Sim.evaluatePendingPrediction_ues, ← balanced]
      unfold Sim.evaluatePendingPrediction
      dsimp only
      split
      · rfl
      · split <;> rfl

omit perUe in
theorem Tally.balanced_initial (rows : List UeRow) : T.Balanced (initial env rows).state := by
  refine T.zero.trans (List.sum_eq_zero ?_).symm
  intro value member
  obtain ⟨ue, listed, rfl⟩ := List.mem_map.mp member
  obtain ⟨i, bound, rfl⟩ := List.mem_mapIdx.mp listed
  exact T.zero

theorem Tally.balanced_of_run {ok : Policy ℤ Event} {rows : List UeRow}
    {h : List (Firing ℤ Sim Event)} {c : Conf ℤ Sim Event}
    (run : Run (simHandler P env) ok (initial env rows) h c) : T.Balanced c.state := by
  refine run.invariant (I := fun c => T.Balanced c.state) (T.balanced_initial rows) ?_
  intro c p c' balanced step
  cases step with
  | fire _ => exact T.balanced_simHandler perUe balanced

end Tally

/-- A counter of the statistics, which each update raises by `delta`. -/
def counterTally (counter : ChoNtnStatistics → ℕ) (delta : StatOp → ℕ) (zero : counter {} = 0)
    (apply : ∀ s op, counter (op.apply s) = counter s + delta op) : Tally ℕ where
  value b := counter b.stats
  weight
    | .stat op => delta op
    | _ => 0
  zero := zero
  enter b effect := by cases effect <;> first | exact apply _ _ | rfl

/-- The number of handovers. -/
def handoverTally : Tally ℕ where
  value b := b.handovers
  weight
    | .handoverCount => 1
    | _ => 0
  zero := rfl
  enter b effect := by cases effect <;> rfl

/-- The global counters are the sums over the UEs. -/
structure GlobalLedger (s : Sim) : Prop where
  totalReports :
    s.choNtnStats.totalReports = (s.ues.map fun ue => ue.choNtnStats.totalReports).sum
  configsSent : s.choNtnStats.configsSent = (s.ues.map fun ue => ue.choNtnStats.configsSent).sum
  configsReceived :
    s.choNtnStats.configsReceived = (s.ues.map fun ue => ue.choNtnStats.configsReceived).sum
  executionsTriggered :
    s.choNtnStats.executionsTriggered =
      (s.ues.map fun ue => ue.choNtnStats.executionsTriggered).sum
  successfulHandovers :
    s.choNtnStats.successfulHandovers =
      (s.ues.map fun ue => ue.choNtnStats.successfulHandovers).sum
  failedAtExecution :
    s.choNtnStats.failedAtExecution = (s.ues.map fun ue => ue.choNtnStats.failedAtExecution).sum
  configsExpired :
    s.choNtnStats.configsExpired = (s.ues.map fun ue => ue.choNtnStats.configsExpired).sum
  handoverCount : s.handoverCount = (s.ues.map fun ue => ue.hoCount).sum

theorem globalLedger_of_run {ok : Policy ℤ Event} {rows : List UeRow}
    {h : List (Firing ℤ Sim Event)} {c : Conf ℤ Sim Event} (perUe : P.perUeStats = true)
    (run : Run (simHandler P env) ok (initial env rows) h c) : GlobalLedger c.state where
  totalReports :=
    (counterTally (·.totalReports) (fun | .report _ => 1 | _ => 0) rfl
      fun _ op => by cases op <;> rfl).balanced_of_run perUe run
  configsSent :=
    (counterTally (·.configsSent) (fun | .configSent => 1 | _ => 0) rfl
      fun _ op => by cases op <;> rfl).balanced_of_run perUe run
  configsReceived :=
    (counterTally (·.configsReceived) (fun | .configReceived => 1 | _ => 0) rfl
      fun _ op => by cases op <;> rfl).balanced_of_run perUe run
  executionsTriggered :=
    (counterTally (·.executionsTriggered) (fun | .executionTriggered => 1 | _ => 0) rfl
      fun _ op => by cases op <;> rfl).balanced_of_run perUe run
  successfulHandovers :=
    (counterTally (·.successfulHandovers) (fun | .success _ _ => 1 | _ => 0) rfl
      fun _ op => by cases op <;> rfl).balanced_of_run perUe run
  failedAtExecution :=
    (counterTally (·.failedAtExecution) (fun | .failedAtExecution => 1 | _ => 0) rfl
      fun _ op => by cases op <;> rfl).balanced_of_run perUe run
  configsExpired :=
    (counterTally (·.configsExpired) (fun | .configExpired => 1 | _ => 0) rfl
      fun _ op => by cases op <;> rfl).balanced_of_run perUe run
  handoverCount := handoverTally.balanced_of_run perUe run

/-- **The handover ledger.** Whatever the order of events, the counters of every UE balance, and the
global counters are their sums; so no success rate exceeds one. -/
theorem handover_ledger {rows : List UeRow} {h : List (Firing ℤ Sim Event)} {c : Conf ℤ Sim Event}
    (run : AnyOrderRun tdCho env rows h c) :
    (∀ (i : ℕ) ue, c.state.ues[i]? = some ue →
      Ledger ue ∧ ue.choNtnStats.successfulHandovers ≤ ue.choNtnStats.totalReports) ∧
      GlobalLedger c.state := by
  refine ⟨fun i ue present => ?_, globalLedger_of_run rfl run⟩
  have ledger : Ledger ue :=
    ueRun_stateInvariant (run.toUe i) (ledger_initialUe i) (ledger_ueAction rfl) present
  exact ⟨ledger, ledger.success_le_reports⟩

theorem handover_ledger_crossing :
    ∃ ue, (sampleRun tdCho crossing sampleRows 11).2.state.ues[0]? = some ue ∧ ue.hoCount = 1 ∧
      Ledger ue := by
  have handedOver : (sampleRun tdCho crossing sampleRows 11).2.state.ues[0]?.map
      (fun ue => ue.hoCount) = some 1 := by decide +kernel
  obtain ⟨ue, present, count⟩ := Option.map_eq_some_iff.mp handedOver
  have run := (simRun_sampleRun tdCho crossing sampleRows 11).anyOrder
  exact ⟨ue, present, count, ((handover_ledger run).1 0 ue present).1⟩

end NtnCho
