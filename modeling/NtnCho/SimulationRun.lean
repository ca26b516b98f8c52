import NtnCho.DefaultSimulator
import NtnCho.EventSystem.Budget
import NtnCho.EventSystem.Part
import NtnCho.Hysteresis
import NtnCho.Prediction

/-!
# A simulation from its start to its stop

`main` schedules the first tick, one print-out and the event that stops the simulator, then runs it. For
each UE a tick leads to at most one evaluation of a prediction, and to five phases, if it starts a
procedure, or to one, if it executes a configuration. So only so many events fire up to any time
(`simulation_events_le`), and `Simulator::Run` comes to its end, after the ticks of all seconds before the
stop (`simulation_ends`).

The packets of the applications are not among the events here; no handler of the handover procedure
looks at them.
-/

namespace NtnCho

open EventSystem

variable {P : Program} {env : Env}

/-- The six simulators. -/
def programs : List Program :=
  [tdCho, snrCho, sdTopsisCho, distanceCho, elevationCho, servingTimeCho]

theorem lawful_of_mem_programs (member : P ∈ programs) : P.Lawful := by
  simp only [programs, List.mem_cons, List.not_mem_nil, or_false] at member
  rcases member with rfl | rfl | rfl | rfl | rfl | rfl
  · exact TdCho.lawful
  · exact SnrCho.lawful
  · exact Topsis.lawful
  · exact Distance.lawful
  · exact Elevation.lawful
  · exact ServingTime.lawful

/-! ## What events lead to -/

/-- The events that a record leads to. -/
def RecordEffect.weight : RecordEffect → ℕ
  | .predictionEval _ => 1
  | _ => 0

/-- The scheduled phases of a procedure from this one on, up to the storing of a configuration or the
completion of its execution. -/
def ChoHandler.weight : ChoHandler → ℕ
  | .phase1ReportArrived => 5
  | .phase2SendXnRequest => 4
  | .phase3XnResponse => 3
  | .phase4SendRrcReconfig => 2
  | .phase5UeStoresConfig => 1
  | .phase7ExecutionComplete => 1

theorem ChoHandler.one_le_weight (handler : ChoHandler) : 1 ≤ handler.weight := by
  cases handler <;> exact Nat.succ_le_succ (Nat.zero_le _)

def Effect.weight : Effect → ℕ
  | .schedule _ handler _ _ _ => handler.weight
  | .record r => r.weight
  | _ => 0

def Event.weight : Event → ℕ
  | .checkHandoverConditions => 0
  | .cho handler _ _ _ => handler.weight
  | .evaluatePendingPrediction _ => 1

/-- The events that the effects of a handler lead to. -/
def weightOf (effects : List Effect) : ℕ := (effects.map Effect.weight).sum

@[simp] theorem weightOf_nil : weightOf [] = 0 := rfl

@[simp] theorem weightOf_cons (effect : Effect) (effects : List Effect) :
    weightOf (effect :: effects) = effect.weight + weightOf effects := rfl

@[simp] theorem weightOf_append (l l' : List Effect) : weightOf (l ++ l') = weightOf l + weightOf l' := by
  unfold weightOf
  rw [List.map_append, List.sum_append]

@[simp] theorem weight_choLog (fields : List Field) : (choLog fields).weight = 0 := rfl

theorem Sim.weigh_applyEffect (now : ℤ) (s : Sim) (effect : Effect) :
    weigh Event.weight (s.applyEffect now effect).2 = effect.weight := by
  cases effect with
  | record r => cases r <;> rfl
  | _ => rfl

theorem Sim.weigh_applyEffects (now : ℤ) (s : Sim) (effects : List Effect) :
    weigh Event.weight (s.applyEffects now effects).2 = weightOf effects := by
  induction effects generalizing s with
  | nil => rfl
  | cons effect effects ih =>
      have first := s.weigh_applyEffect now effect
      simp only [Sim.applyEffects, weigh_append, weightOf_cons, ih, first]

/-- A procedure is started with all its phases ahead. -/
theorem weightOf_choTriggerProcedure (i : ℕ) (simTime : ℚ) (report : MeasurementReport) (ue : UeInfo) :
    weightOf (choTriggerProcedure P i simTime report ue).2 ≤ 5 := by
  unfold choTriggerProcedure
  split
  · exact Nat.zero_le _
  · exact le_rfl

theorem weightOf_choPhase6UeExecutes (i : ℕ) (sourceCell targetCell : String) (simTime : ℚ)
    (ue : UeInfo) : weightOf (choPhase6UeExecutes P env i sourceCell targetCell simTime ue).2 ≤ 1 := by
  unfold choPhase6UeExecutes
  split
  · exact Nat.zero_le _
  · exact le_rfl

theorem weightOf_hoResult (i : ℕ) (sourceCell targetCell : String) (simTime targetSnr : ℚ)
    (hoContext : HoContext) :
    weightOf (hoResult i sourceCell targetCell simTime targetSnr hoContext) = 0 := by
  unfold hoResult
  split <;> rfl

/-- A phase has fewer phases ahead than the one before it. -/
theorem weightOf_choHandler (P : Program) (env : Env) (handler : ChoHandler) (i : ℕ) (sourceCell targetCell : String)
    (simTime : ℚ) (ue : UeInfo) :
    weightOf (choHandler P env handler i sourceCell targetCell simTime ue).2 + 1 ≤ handler.weight := by
  cases handler with
  | phase1ReportArrived | phase2SendXnRequest | phase3XnResponse =>
      simp only [choHandler, choPhase1ReportArrived, choPhase2SendXnRequest, choPhase3XnResponse,
        choAdvance]
      split
      · exact Nat.succ_le_succ (Nat.zero_le _)
      · exact le_rfl
  | phase4SendRrcReconfig =>
      unfold choHandler choPhase4SendRrcReconfig
      dsimp only
      split
      · exact Nat.succ_le_succ (Nat.zero_le _)
      · exact le_rfl
  | phase5UeStoresConfig =>
      unfold choHandler choPhase5UeStoresConfig
      dsimp only
      split
      · exact le_rfl
      · exact le_rfl
  | phase7ExecutionComplete =>
      unfold choHandler choPhase7ExecutionComplete
      dsimp only
      split
      · exact le_rfl
      · split
        · rw [weightOf_append, weightOf_append, weightOf_hoResult]
          exact le_rfl
        · exact le_rfl

theorem weightOf_choCheckExecutionCondition (i : ℕ) (simTime : ℚ) {ue : UeInfo}
    (evaluating : ue.choProcState.phase = .ueEvaluating) :
    weightOf (choCheckExecutionCondition P env i simTime ue).2 ≤ 1 := by
  have check := choCheckExecutionCondition_check P env i simTime evaluating
  generalize choCheckExecutionCondition P env i simTime ue = result at check
  cases check with
  | executes => exact weightOf_choPhase6UeExecutes ..
  | _ => exact Nat.zero_le _

/-! ## Evaluations of predictions -/

/-- What the records of an evaluation lead to. -/
def recordWeight (records : List RecordEffect) : ℕ := (records.map RecordEffect.weight).sum

theorem weightOf_records (records : List RecordEffect) :
    weightOf (records.map .record) = recordWeight records := by
  unfold weightOf recordWeight
  rw [List.map_map]
  rfl

/-- A measurement schedules at most one evaluation of its prediction. -/
def Program.PredictsOnce (P : Program) : Prop :=
  ∀ env i simTime ue serving measurements,
    recordWeight (P.evaluateNeighbors env i simTime ue serving measurements).records ≤ 1

/-- The validations and follow-ups of TD-CHO lead to no event. -/
theorem TdCho.recordWeight_scanNeighbors (env : Env) (i : ℕ) (simTime : ℚ) (ue : UeInfo)
    (measurements : List MeasResultCell) :
    recordWeight (TdCho.scanNeighbors env i simTime ue measurements).records = 0 := by
  refine List.sum_eq_zero fun n member => ?_
  obtain ⟨r, recorded, rfl⟩ := List.mem_map.mp member
  obtain ⟨it, rfl, -⟩ := TdCho.mem_records_scanNeighbors recorded
  rfl

theorem TdCho.recordWeight_evaluateBest (i : ℕ) (simTime : ℚ) (ue : UeInfo)
    (serving neighbor : MeasResultCell) {scan : TdCho.NeighborScan}
    (silent : recordWeight scan.records = 0) :
    recordWeight (TdCho.evaluateBest env i simTime ue serving neighbor scan).records ≤ 1 := by
  unfold recordWeight at silent ⊢
  unfold TdCho.evaluateBest
  dsimp only
  rw [List.map_append, List.map_append, List.sum_append, List.sum_append, silent]
  split <;> exact le_rfl

theorem predictsOnce_of_mem_programs (member : P ∈ programs) : P.PredictsOnce := by
  intro env i simTime ue serving measurements
  simp only [programs, List.mem_cons, List.not_mem_nil, or_false] at member
  rcases member with rfl | rfl | rfl | rfl | rfl | rfl
  · change recordWeight (TdCho.evaluateNeighbors env i simTime ue serving measurements).records ≤ 1
    have silent := TdCho.recordWeight_scanNeighbors env i simTime ue measurements
    unfold TdCho.evaluateNeighbors
    dsimp only
    split
    · exact TdCho.recordWeight_evaluateBest i simTime ue serving _ silent
    · exact silent.le.trans (Nat.zero_le _)
  · change recordWeight (SnrCho.evaluateNeighbors env i simTime ue serving measurements).records ≤ 1
    unfold SnrCho.evaluateNeighbors
    dsimp only
    split
    · exact Nat.zero_le _
    · exact le_rfl
  · change recordWeight (Topsis.evaluateNeighbors env i simTime ue serving measurements).records ≤ 1
    exact Nat.zero_le _
  · change recordWeight (Distance.evaluateNeighbors env i simTime ue serving measurements).records ≤ 1
    unfold Distance.evaluateNeighbors
    dsimp only
    split
    · exact Nat.zero_le _
    · exact le_rfl
  · change recordWeight (Elevation.evaluateNeighbors env i simTime ue serving measurements).records ≤ 1
    unfold Elevation.evaluateNeighbors
    dsimp only
    split
    · exact Nat.zero_le _
    · exact le_rfl
  · change recordWeight (ServingTime.evaluateNeighbors env i simTime ue serving measurements).records ≤ 1
    unfold ServingTime.evaluateNeighbors
    dsimp only
    split
    · exact Nat.zero_le _
    · exact le_rfl

/-! ## A tick -/

theorem weightOf_measureAndReport (predicts : P.PredictsOnce) (i : ℕ) (simTime : ℚ) (due : UeInfo) :
    weightOf (measureAndReport P env i simTime due).2 ≤ 6 := by
  have records : recordWeight (ueEvaluateAndReport P env i simTime due).2.2 ≤ 1 := by
    rw [ueEvaluateAndReport_records]
    split
    · exact Nat.zero_le _
    · split
      · exact Nat.zero_le _
      · exact predicts ..
  rcases measureAndReport_cases P env i simTime due with
    quiet | ⟨report, -, -, -, reselects⟩ | ⟨report, -, -, triggers⟩
  · rw [quiet, weightOf_records]
    omega
  · rw [reselects, weightOf_records]
    omega
  · have started := weightOf_choTriggerProcedure (P := P) i simTime report
      (ueEvaluateAndReport P env i simTime due).1
    rw [triggers, weightOf_append, weightOf_records]
    omega

theorem weightOf_ueTick (predicts : P.PredictsOnce) (env : Env) (i : ℕ) (simTime : ℚ) (ue : UeInfo) :
    weightOf (ueTick P env i simTime ue).2 ≤ 6 := by
  change weightOf (checkHandover P env i simTime (ue.updated P env simTime)).2 ≤ 6
  rcases checkHandover_spec P env i simTime (ue.updated P env simTime) with
    ⟨busy, -, -⟩ | ⟨-, -, stays | adopts⟩ | ⟨due, -, -, measures⟩
  · unfold checkHandover
    rw [if_pos busy]
    split
    · rename_i evaluating
      exact (weightOf_choCheckExecutionCondition i simTime evaluating).trans (by omega)
    · exact Nat.zero_le _
  · rw [stays]
    exact Nat.zero_le _
  · rw [adopts]
    exact Nat.zero_le _
  · rw [measures]
    exact weightOf_measureAndReport predicts i simTime due

theorem weightOf_forEachUe {body : ℕ → UeInfo → UeInfo × List Effect} {m : ℕ}
    (each : ∀ i ue, weightOf (body i ue).2 ≤ m) (k : ℕ) (ues : List UeInfo) :
    weightOf (forEachUe body k ues).2 ≤ m * ues.length := by
  induction ues generalizing k with
  | nil => exact Nat.zero_le _
  | cons ue ues ih =>
      have first := each k ue
      have rest := ih (k + 1)
      rw [List.length_cons, Nat.mul_succ]
      simp only [forEachUe, weightOf_append]
      omega

/-! ## The events of a simulation -/

theorem length_forEachUe (body : ℕ → UeInfo → UeInfo × List Effect) (k : ℕ) (ues : List UeInfo) :
    (forEachUe body k ues).1.length = ues.length := by
  induction ues generalizing k with
  | nil => rfl
  | cons ue ues ih => exact congrArg Nat.succ (ih (k + 1))

/-- No UE comes or goes. -/
theorem length_ues_simHandler (event : Event) (now : ℤ) (s : Sim) :
    (simHandler P env event now s).1.ues.length = s.ues.length := by
  cases event with
  | checkHandoverConditions =>
      rw [simHandler, Sim.checkHandoverConditions_eq, Sim.applyEffects_ues, length_forEachUe]
  | cho handler ueId sourceCell targetCell =>
      simp only [simHandler, Sim.cho]
      split
      · rfl
      · rw [Sim.applyEffects_ues, List.length_set]
  | evaluatePendingPrediction r =>
      rw [simHandler, Sim.evaluatePendingPrediction_ues]

/-- Events pay for what they lead to; a tick brings in six events for each of `n` UEs. -/
def simBudget (n : ℕ) : Budget Sim Event where
  store _ := 0
  weight := Event.weight
  credit
    | .checkHandoverConditions => 6 * n + 1
    | _ => 0

theorem simBudget_covers (predicts : P.PredictsOnce) (env : Env) (s : Sim) (p : Pending ℤ Event) :
    (simBudget s.ues.length).Covers (simHandler P env) s p := by
  rcases p with ⟨now, event⟩
  unfold Budget.Covers simBudget
  dsimp only
  cases event with
  | checkHandoverConditions =>
      have ticks := weightOf_forEachUe (m := 6)
        (fun i ue => weightOf_ueTick predicts env i (getSeconds now) ue) 0 s.ues
      rw [simHandler, Sim.checkHandoverConditions_eq]
      dsimp only
      rw [weigh_append, Sim.weigh_applyEffects, weigh_cons, weigh_nil]
      simp only [Event.weight]
      omega
  | cho handler ueId sourceCell targetCell =>
      simp only [simHandler, Sim.cho, Event.weight]
      split
      · have positive := handler.one_le_weight
        rw [weigh_nil]
        omega
      · rename_i ue _
        have fewer := weightOf_choHandler P env handler ueId sourceCell targetCell
          (getSeconds now) ue
        rw [Sim.weigh_applyEffects]
        omega
  | evaluatePendingPrediction r => exact le_rfl

section Runs

variable {rows : List UeRow} {h : List (Firing ℤ Sim Event)} {c : Conf ℤ Sim Event}

theorem length_ues_of_run (run : AnyOrderRun P env rows h c) : c.state.ues.length = rows.length := by
  refine run.invariant (I := fun c => c.state.ues.length = rows.length) ?_ ?_
  · exact List.length_mapIdx
  · intro c p c' known step
    rw [step.state_eq, length_ues_simHandler, known]

/-- Only ticks bring in credit. -/
theorem simBudget_credits (P : Program) (env : Env) (n : ℕ) (h : List (Firing ℤ Sim Event)) :
    (simBudget n).credits h = (6 * n + 1) * tickCount P env h := by
  induction h with
  | nil => rfl
  | cons f h ih =>
      have split : (simBudget n).credits (f :: h) =
          (simBudget n).credit f.event.ev + (simBudget n).credits h := rfl
      have count : tickCount P env (f :: h) =
          (if f.event.ev = .checkHandoverConditions then 1 else 0) + tickCount P env h := by
        have append := congrArg (fun l => (ticks l).length)
          ((ueComponent P env 0).history_append [f] h)
        rw [ticks_append, List.length_append] at append
        refine append.trans (congrArg (· + tickCount P env h) ?_)
        cases rel : (ueComponent P env 0).rel f.event.ev with
        | true =>
            rw [(ueComponent P env 0).history_singleton_rel rel]
            simp only [ticks, List.filter_cons, List.filter_nil]
            split <;> simp_all
        | false =>
            rw [(ueComponent P env 0).history_singleton_irrel rel, if_neg]
            · rfl
            · intro tick
              rw [tick] at rel
              cases rel
      rw [split, count, ih]
      cases f.event.ev with
      | checkHandoverConditions => simp only [simBudget, if_pos]; ring
      | cho => simp [simBudget]
      | evaluatePendingPrediction => simp [simBudget]

theorem length_le_tickCount (predicts : P.PredictsOnce) (run : AnyOrderRun P env rows h c) :
    h.length + weigh Event.weight c.queue ≤ (6 * rows.length + 1) * tickCount P env h := by
  have covers : ∀ f ∈ h, (simBudget rows.length).Covers (simHandler P env) f.before.state f.event := by
    intro f member
    obtain ⟨h₁, h₂, rfl⟩ := List.append_of_mem member
    rw [← length_ues_of_run run.split.1]
    exact simBudget_covers predicts env f.before.state f.event
  have length := Run.length_add_funds_le run covers
  rw [simBudget_credits P env] at length
  have start : (simBudget rows.length).funds (initial env rows) = 0 := rfl
  have left : (simBudget rows.length).funds c = weigh Event.weight c.queue := Nat.zero_add _
  omega

/-- The ticks up to second `t`. -/
theorem tickCount_le (run : AnyOrderRun P env rows h c) {t : ℕ}
    (early : ∀ f ∈ h, getSeconds f.event.ts ≤ t) : tickCount P env h ≤ t + 1 := by
  by_contra more
  have fired := (ueTicks_of_run (run.toUe 0)).2
  have inside : tickNumber (t + 1) ∈ (ticks (ueHistory P env 0 h)).map Firing.event := by
    rw [fired]
    exact List.mem_map_of_mem (List.mem_range.mpr (not_le.mp more))
  obtain ⟨g, ticking, event⟩ := List.mem_map.mp inside
  obtain ⟨f, member, -, rfl⟩ := (Component.mem_history _).mp (mem_ticks.mp ticking).1
  have soon := early f member
  rw [show f.event = tickNumber (t + 1) from event, getSeconds_tickNumber] at soon
  exact absurd (Nat.cast_le.mp soon) (by omega)

/-- **The events of a simulation.** In whatever order its events fire, a simulation of `n` UEs fires at
most `6 n + 1` events for each second up to its last event: it cannot get stuck in a second. -/
theorem simulation_events_le (member : P ∈ programs) (run : AnyOrderRun P env rows h c) {t : ℕ}
    (early : ∀ f ∈ h, getSeconds f.event.ts ≤ t) : h.length ≤ (6 * rows.length + 1) * (t + 1) := by
  have length := length_le_tickCount (predictsOnce_of_mem_programs member) run
  have most := Nat.mul_le_mul_left (6 * rows.length + 1) (tickCount_le run early)
  omega

/-- The first ten events of TD-CHO with one UE. -/
theorem simulation_events_le_crossing :
    (∀ f ∈ (sampleRun tdCho crossing sampleRows 10).1, getSeconds f.event.ts ≤ (4 : ℕ)) ∧
      (sampleRun tdCho crossing sampleRows 10).1.length ≤ (6 * sampleRows.length + 1) * (4 + 1) := by
  have early : ∀ f ∈ (sampleRun tdCho crossing sampleRows 10).1, getSeconds f.event.ts ≤ (4 : ℕ) := by
    decide +kernel
  exact ⟨early, simulation_events_le (by simp [programs]) (simRun_sampleRun tdCho crossing sampleRows 10).anyOrder
    early⟩

end Runs

/-! ## Nothing is scheduled into the past -/

/-- All UEs are on time. -/
def SimOnTime (P : Program) (env : Env) (s : Sim) : Prop :=
  ∀ i : ℕ, UeOnTime P env s.ues[i]?

theorem simOnTime_initial (rows : List UeRow) : SimOnTime P env (initial env rows).state := by
  intro i
  have start : UeOnTime P env (ueInitial env rows i).state := onTime_ueInitial rows i
  rw [← ueComponent_initial P] at start
  exact start

/-- A phase concerns its UE, a tick the first one; the evaluations of predictions lie ahead. -/
theorem simHandler_forward (lawful : P.Lawful) : Forward (simHandler P env) (SimOnTime P env) := by
  intro event now s onTime
  have each : ∀ i, (ueComponent P env i).rel event = true →
      UeOnTime P env (simHandler P env event now s).1.ues[i]? ∧
        ∀ q ∈ Schedule.of i (simHandler P env event now s).2, now ≤ q.ts := by
    intro i rel
    have state := (ueComponent P env i).view_rel (t := now) (s := s) rel
    have queue := (ueComponent P env i).sched_rel (t := now) (s := s) rel
    have forward := @ueHandler_forward P env lawful i event now _ (onTime i)
    change (simHandler P env event now s).1.ues[i]? = _ at state
    change Schedule.of i (simHandler P env event now s).2 = _ at queue
    rw [state, queue]
    exact forward
  have other : ∀ i, (ueComponent P env i).rel event = false →
      (simHandler P env event now s).1.ues[i]? = s.ues[i]? ∧
        Schedule.of i (simHandler P env event now s).2 = [] :=
    fun i irrel => ⟨(ueComponent P env i).view_irrel irrel, (ueComponent P env i).sched_irrel irrel⟩
  have seen : ∀ i, ∀ q ∈ Schedule.of i (simHandler P env event now s).2, now ≤ q.ts := by
    intro i q member
    cases rel : (ueComponent P env i).rel event with
    | true => exact (each i rel).2 q member
    | false =>
        rw [(other i rel).2] at member
        cases member
  refine ⟨fun i => ?_, fun q member => ?_⟩
  · cases rel : (ueComponent P env i).rel event with
    | true => exact (each i rel).1
    | false =>
        rw [(other i rel).1]
        exact onTime i
  · cases ev : q.ev with
    | checkHandoverConditions => exact seen 0 q (List.mem_filter.mpr ⟨member, by rw [ev]; rfl⟩)
    | cho handler ueId sourceCell targetCell =>
        exact seen ueId q (List.mem_filter.mpr ⟨member, by simp [ev, Event.concerns]⟩)
    | evaluatePendingPrediction r =>
        have evaluation : ∀ {s' : Sim} {effects : List Effect},
            q ∈ (s'.applyEffects now effects).2 → now ≤ q.ts := by
          intro s' effects scheduled
          rcases Sim.mem_scheduled_applyEffects scheduled with ⟨_, _, _, _, phase⟩ | ⟨r', -, rfl⟩
          · rw [ev] at phase
            cases phase
          · have ahead := seconds_nonneg (le_max_left 0 (r'.evalTime - getSeconds now))
            dsimp only
            omega
        cases event with
        | checkHandoverConditions =>
            rw [simHandler, Sim.checkHandoverConditions_eq] at member
            rcases List.mem_append.mp member with effects | next
            · exact evaluation effects
            · rw [List.mem_singleton.mp next] at ev
              cases ev
        | cho handler ueId sourceCell targetCell =>
            simp only [simHandler, Sim.cho] at member
            split at member
            · cases member
            · exact evaluation member
        | evaluatePendingPrediction r' => cases member

/-! ## The events of `main` -/

inductive MainEvent
  | sim (event : Event)
  | printLinkQuality
  | stop

def MainEvent.isStop : MainEvent → Bool
  | .stop => true
  | _ => false

/-- `PrintLinkQuality` only prints; `Simulator::Stop` ends the loop. -/
def mainHandler (P : Program) (env : Env) : Handler ℤ Sim MainEvent
  | .sim event, now, s =>
      let (s', scheduled) := simHandler P env event now s
      (s', scheduled.map fun q => ⟨q.ts, .sim q.ev⟩)
  | .printLinkQuality, _, s => (s, [])
  | .stop, _, s => (s, [])

/-- What `main` has scheduled when it calls `Simulator::Run`. -/
def mainInitial (env : Env) (rows : List UeRow) (simTime : ℚ) : Conf ℤ Sim MainEvent :=
  ⟨(initial env rows).state,
    [⟨0, .sim .checkHandoverConditions⟩, ⟨seconds 2, .printLinkQuality⟩, ⟨seconds simTime, .stop⟩]⟩

def MainEvent.sim? : MainEvent → Option Event
  | .sim event => some event
  | _ => none

/-- The simulator without the events of `main` around it. -/
def simPart (P : Program) (env : Env) : Part (mainHandler P env) Sim Event where
  view s := s
  event := MainEvent.sim?
  handler _ := simHandler P env
  view_own := by
    intro e f t s own
    cases e with
    | sim event =>
        obtain rfl : event = f := Option.some.inj own
        rfl
    | printLinkQuality => cases own
    | stop => cases own
  sched_own := by
    intro e f t s own
    cases e with
    | sim event =>
        obtain rfl : event = f := Option.some.inj own
        exact translate_map MainEvent.sim (fun _ => rfl) _
    | printLinkQuality => cases own
    | stop => cases own
  view_other := by
    intro e t s other
    cases e with
    | sim => cases other
    | printLinkQuality => rfl
    | stop => rfl
  sched_other := by
    intro e t s other
    cases e with
    | sim => cases other
    | printLinkQuality => rfl
    | stop => rfl

theorem mainHandler_forward (lawful : P.Lawful) : Forward (mainHandler P env) (SimOnTime P env) := by
  intro event now s onTime
  cases event with
  | sim event =>
      have forward := @simHandler_forward P env lawful event now _ onTime
      refine ⟨forward.1, fun q member => ?_⟩
      obtain ⟨q', scheduled, rfl⟩ := List.mem_map.mp member
      exact forward.2 q' scheduled
  | printLinkQuality => exact ⟨onTime, fun q member => by cases member⟩
  | stop => exact ⟨onTime, fun q member => by cases member⟩

/-- The events of `main` pay for themselves. -/
def mainBudget (n : ℕ) : Budget Sim MainEvent where
  store _ := 0
  weight
    | .sim event => event.weight
    | _ => 1
  credit
    | .sim event => (simBudget n).credit event
    | _ => 0

theorem mainBudget_covers (predicts : P.PredictsOnce) (s : Sim) (p : Pending ℤ MainEvent) :
    (mainBudget s.ues.length).Covers (mainHandler P env) s p := by
  rcases p with ⟨now, event⟩
  cases event with
  | sim event =>
      have covers := simBudget_covers predicts env s ⟨now, event⟩
      unfold Budget.Covers weigh at covers ⊢
      simp only [mainHandler, List.map_map]
      exact covers
  | printLinkQuality => exact le_rfl
  | stop => exact le_rfl

section Main

variable {rows : List UeRow} {simTime : ℚ} {h : List (Firing ℤ Sim MainEvent)}
  {c : Conf ℤ Sim MainEvent}

/-- `main` does not disturb the simulator. -/
theorem simRun_of_mainRun (run : Run (mainHandler P env) fifo (mainInitial env rows simTime) h c) :
    SimRun P env rows ((simPart P env).history h) ((simPart P env).conf c) := by
  have projects : (simPart P env).Projects fifo (timeOrder Event.conflict) :=
    Part.projects_timeOrder _ fun _ _ _ => trivial
  exact Part.run_project projects (fun _ => rfl) run

theorem mainBudget_credits (P : Program) (env : Env) (n : ℕ) (h : List (Firing ℤ Sim MainEvent)) :
    (mainBudget n).credits h = (6 * n + 1) * tickCount P env ((simPart P env).history h) := by
  rw [← simBudget_credits P env]
  induction h with
  | nil => rfl
  | cons f h ih =>
      have split : (mainBudget n).credits (f :: h) =
          (mainBudget n).credit f.event.ev + (mainBudget n).credits h := rfl
      rw [split, ih]
      rcases f with ⟨before, ⟨ts, event⟩, after⟩
      cases event with
      | sim event => rfl
      | printLinkQuality => exact Nat.zero_add _
      | stop => exact Nat.zero_add _

theorem length_add_weigh_le (predicts : P.PredictsOnce)
    (run : Run (mainHandler P env) fifo (mainInitial env rows simTime) h c) :
    h.length + weigh (mainBudget rows.length).weight c.queue ≤
      (6 * rows.length + 1) * tickCount P env ((simPart P env).history h) + 2 := by
  have covers : ∀ f ∈ h,
      (mainBudget rows.length).Covers (mainHandler P env) f.before.state f.event := by
    intro f member
    obtain ⟨h₁, h₂, rfl⟩ := List.append_of_mem member
    have same : f.before.state.ues.length = rows.length :=
      length_ues_of_run (simRun_of_mainRun run.split.1).anyOrder
    rw [← same]
    exact mainBudget_covers predicts f.before.state f.event
  have length := Run.length_add_funds_le run covers
  rw [mainBudget_credits P env] at length
  have start : (mainBudget rows.length).funds (mainInitial env rows simTime) = 2 := rfl
  have left : (mainBudget rows.length).funds c = weigh (mainBudget rows.length).weight c.queue :=
    Nat.zero_add _
  omega

/-- The event that stops the simulator is the one that `main` has scheduled. -/
theorem eq_stop_of_mem (run : Run (mainHandler P env) fifo (mainInitial env rows simTime) h c)
    {q : Pending ℤ MainEvent} (pending : q ∈ c.queue) (stops : q.ev.isStop = true) :
    q = ⟨seconds simTime, .stop⟩ := by
  revert q
  refine run.invariant (I := fun c => ∀ {q}, q ∈ c.queue → q.ev.isStop = true → q = _) ?_ ?_
  · intro q pending stops
    simp only [mainInitial, List.mem_cons, List.not_mem_nil, or_false] at pending
    rcases pending with rfl | rfl | rfl
    · cases stops
    · cases stops
    · rfl
  · intro c p c' known step q pending stops
    cases step with
    | @fire s pre p post _ =>
        rcases List.mem_append.mp pending with old | new
        · refine known ?_ stops
          exact ((List.Sublist.refl pre).append (List.sublist_cons_self p post)).subset old
        · rcases p with ⟨ts, event⟩
          cases event with
          | sim event =>
              obtain ⟨q', -, rfl⟩ := List.mem_map.mp new
              cases stops
          | printLinkQuality => cases new
          | stop => cases new

/-- The events of `main` up to second `t`. -/
theorem length_le_of_early (predicts : P.PredictsOnce)
    (run : Run (mainHandler P env) fifo (mainInitial env rows simTime) h c) {t : ℕ}
    (early : ∀ f ∈ h, getSeconds f.event.ts ≤ t) : h.length ≤ (6 * rows.length + 1) * (t + 1) + 2 := by
  have length := length_add_weigh_le predicts run
  have few : tickCount P env ((simPart P env).history h) ≤ t + 1 := by
    refine tickCount_le (simRun_of_mainRun run).anyOrder fun g member => ?_
    obtain ⟨f, fired, here⟩ := List.mem_filterMap.mp member
    obtain ⟨e, -, rfl⟩ := Option.map_eq_some_iff.mp here
    exact early f fired
  have most := Nat.mul_le_mul_left (6 * rows.length + 1) few
  omega

end Main

/-! ## The stop -/

/-- A run of `main` whose last event stops the simulator. -/
structure Stops (P : Program) (env : Env) (rows : List UeRow) (simTime : ℚ)
    (h : List (Firing ℤ Sim MainEvent)) (c : Conf ℤ Sim MainEvent) : Prop where
  run : Run (mainHandler P env) fifo (mainInitial env rows simTime) h c
  last : ∃ f, h.getLast? = some f ∧ f.event = ⟨seconds simTime, .stop⟩
  unstopped : ∀ f ∈ h.dropLast, f.event.ev.isStop = false

theorem exists_stops (predicts : P.PredictsOnce) (env : Env) (rows : List UeRow) (simTime : ℚ) :
    ∃ h c, Stops P env rows simTime h c := by
  have early : ∀ {h : List (Firing ℤ Sim MainEvent)} {c},
      Run (mainHandler P env) fifo (mainInitial env rows simTime) h c →
      (∀ f ∈ h, f.event.ts ≤ seconds simTime) →
      h.length ≤ (6 * rows.length + 1) * (⌈getSeconds (seconds simTime)⌉₊ + 1) + 2 := by
    intro h c run soon
    refine length_le_of_early predicts run fun f member => ?_
    refine le_trans ?_ (Nat.le_ceil _)
    have le : ((f.event.ts : ℤ) : ℚ) ≤ seconds simTime := by exact_mod_cast soon f member
    unfold getSeconds
    linarith
  have pending : (⟨seconds simTime, .stop⟩ : Pending ℤ MainEvent) ∈
      (mainInitial env rows simTime).queue := by simp [mainInitial]
  obtain ⟨h, f, c, run, -, stops, others⟩ := exists_run_to MainEvent.isStop pending rfl early
  obtain ⟨prior, step⟩ := run.split
  refine ⟨h ++ [f], c, run, ⟨f, List.getLast?_concat .., ?_⟩, ?_⟩
  · exact eq_stop_of_mem prior step.mem_queue stops
  · rw [List.dropLast_concat]
    exact others

namespace Stops

variable {rows : List UeRow} {simTime : ℚ} {h : List (Firing ℤ Sim MainEvent)}
  {c : Conf ℤ Sim MainEvent}

/-- The run up to the stop, and the stop. -/
theorem exists_stop (stops : Stops P env rows simTime h c) :
    ∃ before f, h = before ++ [f] ∧ f.event = ⟨seconds simTime, .stop⟩ ∧
      Run (mainHandler P env) fifo (mainInitial env rows simTime) before f.before ∧
      Step (mainHandler P env) fifo f.before f.event f.after := by
  obtain ⟨f, last, event⟩ := stops.last
  obtain ⟨before, rfl⟩ := List.getLast?_eq_some_iff.mp last
  obtain ⟨prior, step⟩ := stops.run.split
  exact ⟨before, f, rfl, event, prior, step⟩

/-- There is one run to the stop. -/
theorem unique {h' : List (Firing ℤ Sim MainEvent)} {c' : Conf ℤ Sim MainEvent}
    (stops : Stops P env rows simTime h c) (stops' : Stops P env rows simTime h' c') : h = h' ∧ c = c' := by
  have shorter : ∀ {h h' c c'}, Stops P env rows simTime h c → Stops P env rows simTime h' c' →
      h <+: h' → h = h' := by
    rintro h _ c c' stops stops' ⟨rest, rfl⟩
    obtain ⟨f, last, event⟩ := stops.last
    rcases List.eq_nil_or_concat rest with rfl | ⟨others, g, rfl⟩
    · exact (List.append_nil h).symm
    · -- the stop of the shorter run would come before the last event of the longer one
      have inside : f ∈ (h ++ others.concat g).dropLast := by
        rw [List.concat_eq_append, ← List.append_assoc, List.dropLast_concat]
        exact List.mem_append_left _ (List.mem_of_getLast? last)
      have other := stops'.unstopped f inside
      rw [event] at other
      cases other
  have same : h = h' := by
    rcases stops.run.fifo_prefix stops'.run with before | after
    · exact shorter stops stops' before
    · exact (shorter stops' stops after).symm
  subst same
  exact ⟨rfl, stops.run.end_unique stops'.run⟩

/-- The first event is the first tick. -/
theorem first_tick (stops : Stops P env rows simTime h c) (nonneg : 0 ≤ simTime) :
    0 < tickCount P env ((simPart P env).history h) := by
  obtain ⟨f, last, event⟩ := stops.last
  have run := stops.run
  cases h with
  | nil => cases last
  | cons g h =>
      have first : g.event = ⟨0, .sim .checkHandoverConditions⟩ := by
        refine run.first_fires fun r later => ?_
        have print : 0 ≤ seconds 2 := seconds_nonneg (by norm_num)
        have stop : 0 ≤ seconds simTime := seconds_nonneg nonneg
        rcases List.mem_cons.mp later with rfl | later
        · exact print
        · rw [List.mem_singleton.mp later]
          exact stop
      have own : (simPart P env).event g.event.ev = some .checkHandoverConditions := by
        rw [first]
        rfl
      have member : (⟨(simPart P env).conf g.before, ⟨g.event.ts, .checkHandoverConditions⟩,
          (simPart P env).conf g.after⟩ : Firing ℤ Sim Event) ∈ (simPart P env).history (g :: h) := by
        refine List.mem_filterMap.mpr ⟨g, List.mem_cons_self, ?_⟩
        rw [own, Option.map_some]
      obtain ⟨n, less, -⟩ := sim_exists_tickNumber (simRun_of_mainRun run).anyOrder member rfl
      exact (Nat.zero_le n).trans_lt less

/-- No tick is missing: the next one would not come before the stop. -/
theorem le_next_tick (stops : Stops P env rows simTime h c) :
    seconds simTime ≤ (tickNumber (tickCount P env ((simPart P env).history h))).ts := by
  obtain ⟨before, f, rfl, event, prior, step⟩ := stops.exists_stop
  have same : (simPart P env).history (before ++ [f]) = (simPart P env).history before := by
    unfold Part.history
    rw [List.filterMap_append]
    have other : (simPart P env).event f.event.ev = none := by
      rw [event]
      rfl
    simp [other]
  have pending := sim_tick_pending (simRun_of_mainRun prior).anyOrder
  obtain ⟨q, waits, ts, -⟩ := mem_translate.mp pending
  rw [same, ← ts]
  rw [event] at step
  exact step.le_of_mem waits

/-- A tick after the first one comes before the stop: the stop was scheduled earlier, so it wins over a
tick of the same time. -/
theorem tick_lt_stop (stops : Stops P env rows simTime h c) {m : ℕ} (later : 0 < m)
    (fired : m < tickCount P env ((simPart P env).history h)) :
    (tickNumber m).ts < seconds simTime := by
  obtain ⟨before, f, rfl, event, -, -⟩ := stops.exists_stop
  have run := stops.run
  -- the firing of the tick
  have inside : tickNumber m ∈ (ticks (ueHistory P env 0
      ((simPart P env).history (before ++ [f])))).map Firing.event := by
    rw [(ueTicks_of_run ((simRun_of_mainRun run).toUe 0)).2]
    exact List.mem_map_of_mem (List.mem_range.mpr fired)
  obtain ⟨g, ticking, tick⟩ := List.mem_map.mp inside
  obtain ⟨g', member', -, rfl⟩ := (Component.mem_history _).mp (mem_ticks.mp ticking).1
  obtain ⟨g, member, here⟩ := List.mem_filterMap.mp member'
  obtain ⟨e, own, rfl⟩ := Option.map_eq_some_iff.mp here
  have number : g.event = ⟨(tickNumber m).ts, .sim .checkHandoverConditions⟩ := by
    rcases g with ⟨_, ⟨ts, ev⟩, _⟩
    cases ev with
    | sim ev =>
        obtain rfl : ev = e := Option.some.inj own
        have pair : (⟨ts, ev⟩ : Pending ℤ Event) = tickNumber m := tick
        have ts_eq : ts = (tickNumber m).ts := congrArg Pending.ts pair
        have ev_eq : ev = .checkHandoverConditions := congrArg Pending.ev pair
        rw [ts_eq, ev_eq]
    | printLinkQuality => cases own
    | stop => cases own
  -- the stop is pending then, before all that has been scheduled since the start
  have unstopped : ∀ k ∈ before, k.event.ev.isStop = false := by
    have known := stops.unstopped
    rwa [List.dropLast_concat] at known
  have earlier : g ∈ before := by
    rcases List.mem_append.mp member with old | new
    · exact old
    · obtain rfl := List.mem_singleton.mp new
      rw [number] at event
      exact absurd (congrArg Pending.ev event) MainEvent.noConfusion
  obtain ⟨h₁, h₂, rfl⟩ := List.append_of_mem earlier
  rw [List.append_assoc, List.cons_append] at run
  obtain ⟨prior, step⟩ := run.split
  obtain ⟨old, new, queue, order, rest⟩ := prior.exists_left
  have waits : (⟨seconds simTime, .stop⟩ : Pending ℤ MainEvent) ∈ old := by
    rcases rest _ (List.mem_cons_of_mem _ (List.mem_cons_of_mem _ List.mem_cons_self)) with
      waits | ⟨k, gone, same⟩
    · exact waits
    · have still := unstopped k (List.mem_append_left _ gone)
      rw [same] at still
      cases still
  have fresh : g.event ∉ old := by
    intro start
    have initial := order.subset start
    rw [number] at initial
    simp only [mainInitial, List.mem_cons, Pending.mk.injEq, reduceCtorEq, and_false, and_true,
      List.not_mem_nil, or_false, tickNumber] at initial
    omega
  rw [number] at step fresh
  generalize g.before = b, g.after = a at step queue
  cases step with
  | @fire s pre p post allowed =>
      have stands : (⟨seconds simTime, .stop⟩ : Pending ℤ MainEvent) ∈ pre := by
        rcases List.append_eq_append_iff.mp queue with ⟨as, rfl, tail⟩ | ⟨bs, rfl, -⟩
        · cases as with
          | nil => simpa using waits
          | cons p' as =>
              obtain ⟨rfl, -⟩ := List.cons.inj tail
              exact absurd (List.mem_append_right _ List.mem_cons_self) fresh
        · exact List.mem_append_left _ waits
      have le := allowed.1 _ (List.mem_append_left post stands)
      have ne := fun same => allowed.2 _ stands same trivial
      exact lt_of_le_of_ne le fun same => ne same.symm

/-- **The ticks of a simulation.** There is one at the start of every second before the stop, and the
first in any case. -/
theorem tickCount_eq (stops : Stops P env rows simTime h c) (nonneg : 0 ≤ simTime) :
    tickCount P env ((simPart P env).history h) = max 1 ⌈getSeconds (seconds simTime)⌉₊ := by
  have some_tick := stops.first_tick nonneg
  have next := stops.le_next_tick
  have before := @tick_lt_stop P env rows simTime h c stops
  generalize tickCount P env ((simPart P env).history h) = k at *
  have upper : ⌈getSeconds (seconds simTime)⌉₊ ≤ k := by
    refine Nat.ceil_le.mpr ?_
    unfold getSeconds
    rw [div_le_iff₀ (by norm_num)]
    simp only [tickNumber] at next
    exact_mod_cast next
  have lower : 1 < k → k ≤ ⌈getSeconds (seconds simTime)⌉₊ := by
    intro more
    have last := before (m := k - 1) (by omega) (by omega)
    have less : k - 1 < ⌈getSeconds (seconds simTime)⌉₊ := by
      refine Nat.lt_ceil.mpr ?_
      unfold getSeconds
      rw [lt_div_iff₀ (by norm_num)]
      simp only [tickNumber] at last
      exact_mod_cast last
    omega
  omega

/-- Apart from the next tick, every event that is left has a weight. -/
theorem length_queue_le (stops : Stops P env rows simTime h c) (n : ℕ) :
    c.queue.length ≤ weigh (mainBudget n).weight c.queue + 1 := by
  have counted : ∀ l : List (Pending ℤ MainEvent), l.length ≤ weigh (mainBudget n).weight l +
      (pendingTicks (Schedule.of 0 (translate MainEvent.sim? l))).length := by
    intro l
    induction l with
    | nil => exact le_rfl
    | cons q l ih =>
        rcases q with ⟨ts, event⟩
        rw [List.length_cons, weigh_cons]
        cases event with
        | sim event =>
            have split : pendingTicks (Schedule.of 0 (translate MainEvent.sim? (⟨ts, .sim event⟩ :: l))) =
                pendingTicks (Schedule.of 0 [⟨ts, event⟩]) ++
                  pendingTicks (Schedule.of 0 (translate MainEvent.sim? l)) := by
              rw [← pendingTicks_append, ← Schedule.of_append]
              rfl
            rw [split, List.length_append]
            cases event with
            | checkHandoverConditions =>
                have one : (pendingTicks (Schedule.of 0
                    [(⟨ts, .checkHandoverConditions⟩ : Pending ℤ Event)])).length = 1 := rfl
                omega
            | cho handler ueId sourceCell targetCell =>
                have positive : 1 ≤ (mainBudget n).weight
                    (.sim (.cho handler ueId sourceCell targetCell)) := handler.one_le_weight
                dsimp only
                omega
            | evaluatePendingPrediction r =>
                have one : (mainBudget n).weight (.sim (.evaluatePendingPrediction r)) = 1 := rfl
                dsimp only
                omega
        | printLinkQuality =>
            have one : (mainBudget n).weight .printLinkQuality = 1 := rfl
            rw [translate_cons_none rfl]
            dsimp only
            omega
        | stop =>
            have one : (mainBudget n).weight .stop = 1 := rfl
            rw [translate_cons_none rfl]
            dsimp only
            omega
  have single := (ueTicks_of_run ((simRun_of_mainRun stops.run).toUe 0)).1
  have one := congrArg List.length single
  rw [List.length_singleton] at one
  have all := counted c.queue
  change (pendingTicks (Schedule.of 0 (translate MainEvent.sim? c.queue))).length = 1 at one
  omega

/-- Time stamps and event numbers fit when the pending time stamps do, and the simulation is not too
large. -/
theorem inRange (stops : Stops P env rows simTime h c) (lawful : P.Lawful) (predicts : P.PredictsOnce)
    (nonneg : 0 ≤ simTime) (left : ∀ q ∈ c.queue, q.ts < 2 ^ 63)
    (small : (6 * rows.length + 1) * max 1 ⌈getSeconds (seconds simTime)⌉₊ + 7 < 2 ^ 32) :
    DefaultSimulatorImpl.InRange h c where
  fired := by
    intro f member
    have pending := sim_tick_pending (simRun_of_mainRun stops.run).anyOrder
    obtain ⟨q, waits, -, -⟩ := mem_translate.mp pending
    have start : SimOnTime P env (mainInitial env rows simTime).state := simOnTime_initial rows
    have later := stops.run.notBefore (mainHandler_forward lawful) start f member
    exact (later q waits).trans_lt (left q waits)
  left := left
  numbers := by
    have total := length_add_weigh_le predicts stops.run
    have queue := stops.length_queue_le rows.length
    rw [stops.tickCount_eq nonneg] at total
    omega

end Stops

/-- **`Simulator::Run` ends.** For every strategy, the simulation of `n` UEs comes to the event that
stops it, after the ticks of the `T` seconds before and at most `6 n + 1` events for each of them. On
whatever event list, the loop of the simulator takes this course, as long as its time stamps and event
numbers do not overflow. -/
theorem simulation_ends (member : P ∈ programs) (env : Env) (rows : List UeRow) {simTime : ℚ}
    (nonneg : 0 ≤ simTime) :
    ∃ h c, Stops P env rows simTime h c ∧
      SimRun P env rows ((simPart P env).history h) ((simPart P env).conf c) ∧
      tickCount P env ((simPart P env).history h) = max 1 ⌈getSeconds (seconds simTime)⌉₊ ∧
      h.length ≤ (6 * rows.length + 1) * max 1 ⌈getSeconds (seconds simTime)⌉₊ + 2 ∧
      ((∀ q ∈ c.queue, q.ts < 2 ^ 63) →
        (6 * rows.length + 1) * max 1 ⌈getSeconds (seconds simTime)⌉₊ + 7 < 2 ^ 32 →
        ∀ {L : FutureEvents (Scheduler.Event MainEvent)} {ok : Scheduler.Event MainEvent → Prop},
          L.Lawful Scheduler.Event.order ok → (∀ ev, ev.key.ts < 2 ^ 63 → ok ev) →
          ∃ S₀ S : DefaultSimulatorImpl L,
            (DefaultSimulatorImpl.construct L).scheduleAll (mainInitial env rows simTime).queue = some S₀ ∧
            (∀ turns, h.length ≤ turns → DefaultSimulatorImpl.run (mainHandler P env) MainEvent.isStop
              turns (S₀, (initial env rows).state) = some (S, c.state)) ∧
            S.eventCount = h.length) := by
  have lawful := lawful_of_mem_programs member
  have predicts := predictsOnce_of_mem_programs member
  obtain ⟨h, c, stops⟩ := exists_stops predicts env rows simTime
  have count := stops.tickCount_eq nonneg
  have length := length_add_weigh_le predicts stops.run
  rw [count] at length
  refine ⟨h, c, stops, simRun_of_mainRun stops.run, count, by omega, ?_⟩
  intro left small L ok events fits
  have start : (mainInitial env rows simTime).NotBefore 0 := by
    intro q pending
    simp only [mainInitial, List.mem_cons, List.not_mem_nil, or_false] at pending
    rcases pending with rfl | rfl | rfl
    · exact le_rfl
    · exact seconds_nonneg (by norm_num)
    · exact seconds_nonneg nonneg
  obtain ⟨f, last, stop⟩ := stops.last
  obtain ⟨S₀, S, scheduled, loop, events, -⟩ := DefaultSimulatorImpl.loop_of_fifo events fits
    (mainHandler_forward lawful) (simOnTime_initial rows) start stops.run
    (stops.inRange lawful predicts nonneg left small) stops.unstopped
    (.inr ⟨f, last, by rw [stop]; rfl⟩)
  exact ⟨S₀, S, scheduled, loop, events⟩

/-- Ten seconds of TD-CHO with one UE take ten ticks and at most 72 events, in fact 20. -/
theorem simulation_ends_crossing :
    ∃ h c, Stops tdCho crossing sampleRows 10 h c ∧
      SimRun tdCho crossing sampleRows ((simPart tdCho crossing).history h)
        ((simPart tdCho crossing).conf c) ∧
      tickCount tdCho crossing ((simPart tdCho crossing).history h) = 10 ∧ h.length ≤ 72 ∧
      ∃ S₀ S : DefaultSimulatorImpl (listScheduler MainEvent),
        (DefaultSimulatorImpl.construct _).scheduleAll (mainInitial crossing sampleRows 10).queue =
          some S₀ ∧
        (∀ turns, 20 ≤ turns → DefaultSimulatorImpl.run (mainHandler tdCho crossing)
          MainEvent.isStop turns (S₀, (initial crossing sampleRows).state) = some (S, c.state)) ∧
        S.eventCount = 20 := by
  have second : seconds 10 = 10000000000 := by decide +kernel
  have count : max 1 ⌈getSeconds (seconds 10)⌉₊ = 10 := by
    rw [second, show getSeconds 10000000000 = ((10 : ℕ) : ℚ) by norm_num [getSeconds], Nat.ceil_natCast]
    rfl
  have ends := @simulation_ends tdCho (by simp [programs]) crossing sampleRows 10 (by norm_num)
  rw [count] at ends
  obtain ⟨h, c, stops, run, ticks, length, loop⟩ := ends
  -- the run is known: twenty events, and then the tick of second 11 is left
  let known := runFifo (mainHandler tdCho crossing) 20 (mainInitial crossing sampleRows 10)
  have stopped : known.1.getLast?.map (fun f => (f.event.ts, f.event.ev.isStop)) =
      some (10000000000, true) := by decide +kernel
  have course : known.1.length = 20 ∧ (∀ f ∈ known.1.dropLast, f.event.ev.isStop = false) ∧
      ∀ q ∈ known.2.queue, q.ts < 2 ^ 63 := by decide +kernel
  obtain ⟨twenty, unstopped, range⟩ := course
  obtain ⟨f, last, stop⟩ := Option.map_eq_some_iff.mp stopped
  have event : f.event = ⟨seconds 10, .stop⟩ := by
    obtain ⟨ts, stop⟩ := Prod.mk.inj stop
    rcases f with ⟨_, ⟨ts', ev⟩, _⟩
    cases ev with
    | stop => rw [second, ← ts]
    | _ => cases stop
  obtain ⟨rfl, rfl⟩ := stops.unique
    ⟨runFifo_run 20 (mainInitial crossing sampleRows 10), ⟨f, last, event⟩, unstopped⟩
  obtain ⟨S₀, S, scheduled, turns, events⟩ := loop range (by decide) (listSchedulerLawful MainEvent)
    fun _ _ => trivial
  rw [twenty] at turns events
  exact ⟨_, _, stops, run, ticks, length, S₀, S, scheduled, turns, events⟩

end NtnCho
