import Mathlib.Algebra.BigOperators.Ring.Finset
import NtnCho.Followup
import NtnCho.History
import NtnCho.Prediction
import NtnCho.TriggerAnalysis

/-!
# The two inputs of the trigger analysis

Every evaluation of a best neighbour prints a `[HO_DEBUG]` line, and before it a row of
`serving_snr_trigger_analysis.csv` when the SNR of the serving cell degrades. So both inputs of the
analysis are tables of the evaluations of a run. They differ in two decisions: the log decides on the
printed trend, and takes the serving satellite as receding when the UE was evaluated with the same serving
cell one second before, at a smaller printed distance. The tables agree exactly if these decisions do
(`trigger_inputs_agree`).
-/

namespace NtnCho

open EventSystem Frames Text Text.Regex

variable {env : Env}

/-! ## The evaluations of a run -/

/-- An evaluation of a best neighbour. -/
structure BestEvaluation where
  ueId : ℕ
  simTime : ℚ
  serving : MeasResultCell
  neighbor : MeasResultCell
  trends : TdCho.Trends
  timeToTrigger : ℚ

namespace BestEvaluation

/-- The SNR of the serving cell degrades. -/
def Triggers (env : Env) (e : BestEvaluation) : Prop :=
  e.trends.servingSnrTrend < -env.ho.servingTrendThreshold

instance (env : Env) (e : BestEvaluation) : Decidable (e.Triggers env) :=
  inferInstanceAs (Decidable (_ < _))

/-- The fields of the row about a degrading serving cell. -/
def fields (env : Env) (e : BestEvaluation) : List Field :=
  [.fixed 3 e.simTime, .nat e.ueId, .str e.serving.cellId, .str e.neighbor.cellId,
    .fixed 6 e.trends.servingSnrTrend, .fixed 6 e.trends.servingDistTrend,
    .nat (if 0 < e.trends.servingDistTrend then 1 else 0), .fixed 2 e.serving.sinr,
    .fixed 2 e.serving.distance, .fixed 2 e.trends.neighborSnrTrend,
    .fixed 6 e.trends.neighborDistTrend, .fixed 2 e.neighbor.sinr, .fixed 2 e.neighbor.distance,
    .fixed 2 (TdCho.marginOf env.ho e.trends.servingSnrTrend)]

/-- The clamped margin. -/
def dynamicMargin (env : Env) (e : BestEvaluation) : ℚ :=
  max 1 (TdCho.marginOf env.ho e.trends.servingSnrTrend)

/-- The `[HO_DEBUG]` line. -/
def debug (env : Env) (e : BestEvaluation) : LogLine :=
  TdCho.hoDebug e.ueId e.simTime e.trends.servingSnrTrend e.trends.neighborSnrTrend
    e.trends.neighborDistTrend (e.dynamicMargin env)
    (e.serving.sinr + e.trends.servingSnrTrend * e.timeToTrigger)
    (e.neighbor.sinr + e.trends.neighborSnrTrend * e.timeToTrigger)
    (TdCho.a3Condition (e.dynamicMargin env) e.serving e.neighbor) e.serving e.neighbor

/-- What the evaluation prints. -/
def lines (env : Env) (e : BestEvaluation) : List LogLine :=
  (if e.Triggers env then [.csv "serving_snr_trigger_analysis" (e.fields env)] else []) ++ [e.debug env]

end BestEvaluation

/-- The evaluation of the best neighbour of a measured UE, if it has one. -/
def UeInfo.bestEvaluation (env : Env) (ueId : ℕ) (simTime : ℚ) (due : UeInfo)
    (serving : MeasResultCell) : Option BestEvaluation :=
  let scan := TdCho.scanNeighbors env ueId simTime (due.measured serving)
    (uePerformMeasurements (tdCho.snrFloor env.ho) env simTime due)
  scan.bestNeighbor.map fun neighbor =>
    { ueId := ueId
      simTime := simTime
      serving := serving
      neighbor := neighbor
      trends :=
        TdCho.trends env due.geo simTime due.measState.servingCellId neighbor.cellId scan.phy
      timeToTrigger := due.measConfig.timeToTrigger }

/-- The evaluation of a tick, if it measures the UE and its serving cell. -/
def bestEvaluation (env : Env) (ueId : ℕ) (simTime : ℚ) (ue : UeInfo) : Option BestEvaluation :=
  ((ue.updated tdCho env simTime).due? simTime).bind fun due =>
    (due.serving? tdCho env simTime).bind (due.bestEvaluation env ueId simTime)

/-- The evaluations of an event, in the order of the UEs. -/
def Sim.bestEvaluations (env : Env) (event : Event) (now : ℤ) (s : Sim) : List BestEvaluation :=
  match event with
  | .checkHandoverConditions =>
      s.ues.zipIdx.filterMap fun p : UeInfo × ℕ => bestEvaluation env p.2 (getSeconds now) p.1
  | _ => []

/-- The evaluations of a history. -/
def bestEvaluations (env : Env) (h : List (Firing ℤ Sim Event)) : List BestEvaluation :=
  h.flatMap fun f => f.before.state.bestEvaluations env f.event.ev f.event.ts

theorem bestEvaluations_snoc (h : List (Firing ℤ Sim Event)) (f : Firing ℤ Sim Event) :
    bestEvaluations env (h ++ [f]) =
      bestEvaluations env h ++ f.before.state.bestEvaluations env f.event.ev f.event.ts := by
  simp [bestEvaluations]

/-! ### What an evaluation prints -/

theorem recordLines_evaluateBest (env : Env) (ueId : ℕ) (simTime : ℚ) (ue : UeInfo)
    (serving neighbor : MeasResultCell) {scan : TdCho.NeighborScan}
    (scanned : recordLines scan.records = []) :
    recordLines (TdCho.evaluateBest env ueId simTime ue serving neighbor scan).records =
      BestEvaluation.lines env
        { ueId := ueId
          simTime := simTime
          serving := serving
          neighbor := neighbor
          trends :=
            TdCho.trends env ue.geo simTime ue.measState.servingCellId neighbor.cellId scan.phy
          timeToTrigger := ue.measConfig.timeToTrigger } := by
  unfold TdCho.evaluateBest
  generalize TdCho.trends env ue.geo simTime ue.measState.servingCellId neighbor.cellId scan.phy = trends
  dsimp only
  rw [recordLines, List.filterMap_append, List.filterMap_append,
    show scan.records.filterMap RecordEffect.line = [] from scanned, List.nil_append]
  by_cases degrades : trends.servingSnrTrend < -env.ho.servingTrendThreshold
  · have triggers : BestEvaluation.Triggers env
        ⟨ueId, simTime, serving, neighbor, trends, ue.measConfig.timeToTrigger⟩ := degrades
    rw [BestEvaluation.lines, if_pos triggers, if_pos degrades]
    rfl
  · have quiet : ¬ BestEvaluation.Triggers env
        ⟨ueId, simTime, serving, neighbor, trends, ue.measConfig.timeToTrigger⟩ := degrades
    rw [BestEvaluation.lines, if_neg quiet, if_neg degrades]
    rfl

theorem recordLines_evaluation (env : Env) (ueId : ℕ) (simTime : ℚ) (due : UeInfo)
    (serving : MeasResultCell) :
    recordLines (due.evaluation tdCho env ueId simTime serving).records =
      (due.bestEvaluation env ueId simTime serving).toList.flatMap (BestEvaluation.lines env) := by
  have scanned := TdCho.recordLines_scanNeighbors env ueId simTime (due.measured serving)
    (uePerformMeasurements (tdCho.snrFloor env.ho) env simTime due)
  change recordLines (TdCho.evaluateNeighbors env ueId simTime (due.measured serving) serving
    (uePerformMeasurements (tdCho.snrFloor env.ho) env simTime due)).records = _
  unfold UeInfo.bestEvaluation TdCho.evaluateNeighbors
  generalize TdCho.scanNeighbors env ueId simTime (due.measured serving) _ = scan at scanned ⊢
  dsimp only
  cases scan.bestNeighbor with
  | none => exact scanned
  | some neighbor =>
      rw [Option.map_some, Option.toList_some, List.flatMap_singleton]
      exact recordLines_evaluateBest env ueId simTime (due.measured serving) serving neighbor scanned

/-- A tick prints the lines of its evaluation. -/
theorem ofEvaluation_ueTick (env : Env) (i : ℕ) (simTime : ℚ) (ue : UeInfo) :
    (lines (ueTick tdCho env i simTime ue).2).filter LogLine.ofEvaluation =
      (bestEvaluation env i simTime ue).toList.flatMap (BestEvaluation.lines env) := by
  have executes : ∀ ue₁ sourceCell targetCell,
      (lines (choPhase6UeExecutes tdCho env i sourceCell targetCell simTime ue₁).2).filter
        LogLine.ofEvaluation = [] := by
    intro ue₁ sourceCell targetCell
    unfold choPhase6UeExecutes
    split <;> rfl
  have starts : ∀ report ue₁, (lines (choTriggerProcedure tdCho i simTime report ue₁).2).filter
      LogLine.ofEvaluation = [] := by
    intro report ue₁
    unfold choTriggerProcedure
    split <;> rfl
  have own : ∀ e : BestEvaluation, (e.lines env).filter LogLine.ofEvaluation = e.lines env := by
    intro e
    unfold BestEvaluation.lines
    split <;> rfl
  unfold bestEvaluation
  rcases lines_ueTick tdCho env i simTime ue with
    ⟨unmeasured, none | ⟨ue₁, sourceCell, targetCell, phase6⟩⟩ | ⟨due, measured, measures⟩
  · rw [unmeasured, none]
    rfl
  · rw [unmeasured, phase6, executes]
    rfl
  · have printed : (lines (measureAndReport tdCho env i simTime due).2).filter LogLine.ofEvaluation =
        (recordLines (ueEvaluateAndReport tdCho env i simTime due).2.2).filter
          LogLine.ofEvaluation := by
      rw [lines_measureAndReport rfl, List.filter_append]
      split
      · rw [List.filter_nil, List.append_nil]
      · rw [starts, List.append_nil]
    rw [measured, Option.bind_some, measures, printed]
    rcases ueEvaluateAndReport_cases tdCho env i simTime due with
      ⟨unserved, -⟩ | ⟨lost, failed⟩ | ⟨serving, found, evaluated⟩
    · rw [UeInfo.due_servingCellId measured] at unserved
      obtain ⟨-, -, served⟩ := UeInfo.due?_eq_some measured
      exact absurd unserved served
    · rw [lost, failed]
      rfl
    · rw [found, evaluated, recordLines_evaluation, Option.bind_some]
      cases due.bestEvaluation env i simTime serving with
      | none => rfl
      | some e =>
          rw [Option.toList_some, List.flatMap_singleton]
          exact own e

/-! ### What a run prints -/

theorem lines_forEachUe (body : ℕ → UeInfo → UeInfo × List Effect) (k : ℕ) (ues : List UeInfo) :
    lines (forEachUe body k ues).2 = (ues.zipIdx k).flatMap fun p => lines (body p.2 p.1).2 := by
  induction ues generalizing k with
  | nil => rfl
  | cons ue ues ih =>
      rw [forEachUe, List.zipIdx_cons, List.flatMap_cons]
      dsimp only
      rw [lines_append, ih]

theorem ofEvaluation_of_unowned {line : LogLine} (unowned : line.ofUe = false) :
    line.ofEvaluation = false := by
  cases line with
  | csv file fields =>
      by_contra own
      obtain rfl : file = "serving_snr_trigger_analysis" := by simpa [LogLine.ofEvaluation] using own
      cases unowned
  | stdout tag fields =>
      obtain rfl : tag = "FUTURE_DEBUG" := by simpa [LogLine.ofUe] using unowned
      rfl

/-- An event prints the lines of its evaluations. -/
theorem ofEvaluation_simHandler (env : Env) (event : Event) (now : ℤ) (s : Sim) :
    (simHandler tdCho env event now s).1.log.filter LogLine.ofEvaluation =
      s.log.filter LogLine.ofEvaluation ++
        (s.bestEvaluations env event now).flatMap (BestEvaluation.lines env) := by
  unfold Sim.bestEvaluations
  cases event with
  | checkHandoverConditions =>
      obtain ⟨rows, verified, others⟩ := @exists_log_verified tdCho env (getSeconds now) s
      have silent : rows.filter LogLine.ofEvaluation = [] :=
        List.filter_eq_nil_iff.mpr fun line member => by
          simp [ofEvaluation_of_unowned (others line member)]
      rw [simHandler, Sim.checkHandoverConditions_eq, Sim.log_applyEffects]
      dsimp only
      rw [verified, List.filter_append, List.filter_append, silent, List.append_nil, lines_forEachUe,
        List.filter_flatMap, List.filterMap_eq_flatMap_toList, List.flatMap_assoc]
      simp only [ofEvaluation_ueTick]
  | cho handler ueId sourceCell targetCell =>
      simp only [simHandler, Sim.cho]
      cases s.ues[ueId]? with
      | none => exact (List.append_nil _).symm
      | some ue =>
          dsimp only
          rw [Sim.log_applyEffects, List.filter_append, ofEvaluation_choHandler]
          rfl
  | evaluatePendingPrediction r =>
      rw [simHandler]
      unfold Sim.evaluatePendingPrediction
      dsimp only
      split
      · exact (List.append_nil _).symm
      · split
        · rw [List.filter_append]
          rfl
        · exact (List.append_nil _).symm

section Run

variable {rows : List UeRow} {h : List (Firing ℤ Sim Event)} {c : Conf ℤ Sim Event}

/-- A run prints the lines of its evaluations. -/
theorem ofEvaluation_of_run (run : AnyOrderRun tdCho env rows h c) :
    c.state.log.filter LogLine.ofEvaluation =
      (bestEvaluations env h).flatMap (BestEvaluation.lines env) := by
  induction run with
  | nil => rfl
  | @snoc h c c' p prior step ih =>
      have after : c'.state = (simHandler tdCho env p.ev p.ts c.state).1 := step.state_eq
      rw [after, ofEvaluation_simHandler, ih, bestEvaluations_snoc, List.flatMap_append]

/-! ### The order of the evaluations -/

/-- The evaluation comes before another: at an earlier time, or for an earlier UE at the same time. -/
def BestEvaluation.Before (e e' : BestEvaluation) : Prop :=
  e.simTime < e'.simTime ∨ e.simTime = e'.simTime ∧ e.ueId < e'.ueId

/-- The evaluations are made at whole seconds, one after the other. -/
structure InOrder (evaluations : List BestEvaluation) : Prop where
  whole : ∀ e ∈ evaluations, ∃ n : ℕ, e.simTime = n
  order : evaluations.Pairwise BestEvaluation.Before

theorem InOrder.init {evaluations : List BestEvaluation} {e : BestEvaluation}
    (inOrder : InOrder (evaluations ++ [e])) : InOrder evaluations where
  whole e' member := inOrder.whole e' (List.mem_append_left _ member)
  order := (List.pairwise_append.mp inOrder.order).1

/-- The evaluation is the one of this UE at this time, on measured cells. -/
theorem bestEvaluation_spec {i : ℕ} {simTime : ℚ} {ue : UeInfo} {e : BestEvaluation}
    (found : bestEvaluation env i simTime ue = some e) :
    e.ueId = i ∧ e.simTime = simTime ∧ ∃ due, (ue.updated tdCho env simTime).due? simTime = some due ∧
      e.serving ∈ uePerformMeasurements (tdCho.snrFloor env.ho) env simTime due ∧
      e.neighbor ∈ uePerformMeasurements (tdCho.snrFloor env.ho) env simTime due := by
  obtain ⟨due, measured, further⟩ := Option.bind_eq_some_iff.mp found
  obtain ⟨serving, served, further⟩ := Option.bind_eq_some_iff.mp further
  obtain ⟨neighbor, best, rfl⟩ := Option.map_eq_some_iff.mp further
  exact ⟨rfl, rfl, due, measured, List.mem_of_find?_eq_some served, (TdCho.best_scanNeighbors best).1⟩

theorem mem_bestEvaluations_sim {event : Event} {now : ℤ} {s : Sim} {e : BestEvaluation}
    (member : e ∈ s.bestEvaluations env event now) :
    event = .checkHandoverConditions ∧
      ∃ ue, s.ues[e.ueId]? = some ue ∧ bestEvaluation env e.ueId (getSeconds now) ue = some e := by
  unfold Sim.bestEvaluations at member
  cases event with
  | checkHandoverConditions =>
      obtain ⟨⟨ue, i⟩, listed, found⟩ := List.mem_filterMap.mp member
      dsimp only at found
      obtain ⟨rfl, -⟩ := bestEvaluation_spec found
      exact ⟨rfl, ue, List.mem_zipIdx_iff_getElem?.mp listed, found⟩
  | cho => cases member
  | evaluatePendingPrediction => cases member

/-- The UEs of a tick are evaluated in their order. -/
theorem pairwise_bestEvaluations_sim (env : Env) (event : Event) (now : ℤ) (s : Sim) :
    (s.bestEvaluations env event now).Pairwise fun e e' => e.ueId < e'.ueId := by
  unfold Sim.bestEvaluations
  cases event with
  | checkHandoverConditions =>
      have numbers : (s.ues.zipIdx.map Prod.snd).Pairwise (· < ·) := by
        rw [List.zipIdx_map_snd]
        exact List.pairwise_lt_range'
      refine List.pairwise_filterMap.mpr ((List.pairwise_map.mp numbers).imp ?_)
      intro p p' lt e found e' found'
      rwa [(bestEvaluation_spec found).1, (bestEvaluation_spec found').1]
  | cho => exact .nil
  | evaluatePendingPrediction => exact .nil

theorem inOrder_of_run (run : AnyOrderRun tdCho env rows h c) : InOrder (bestEvaluations env h) := by
  induction run with
  | nil =>
      exact { whole := fun e member => (by cases member), order := List.Pairwise.nil }
  | @snoc h c c' p prior step ih =>
      have now : ∀ e ∈ c.state.bestEvaluations env p.ev p.ts, e.simTime = tickCount tdCho env h := by
        intro e member
        obtain ⟨tick, ue, -, found⟩ := mem_bestEvaluations_sim member
        have number := sim_eq_tickNumber prior step.mem_queue tick
        rw [(bestEvaluation_spec found).2.1, number, getSeconds_tickNumber]
      have earlier : ∀ e ∈ bestEvaluations env h, e.simTime < tickCount tdCho env h := by
        intro e member
        obtain ⟨f, fired, made⟩ := List.mem_flatMap.mp member
        obtain ⟨tick, ue, -, found⟩ := mem_bestEvaluations_sim made
        obtain ⟨n, lt, number⟩ := sim_exists_tickNumber prior fired tick
        rw [(bestEvaluation_spec found).2.1, number, getSeconds_tickNumber]
        exact_mod_cast lt
      rw [bestEvaluations_snoc]
      dsimp only
      constructor
      · intro e member
        exact (List.mem_append.mp member).elim (ih.whole e) fun new => ⟨_, now e new⟩
      · refine List.pairwise_append.mpr ⟨ih.order, ?_, ?_⟩
        · refine (pairwise_bestEvaluations_sim env p.ev p.ts c.state).imp_of_mem ?_
          intro e e' member member' lt
          exact .inr ⟨(now e member).trans (now e' member').symm, lt⟩
        · intro e old e' new
          rw [BestEvaluation.Before, now e' new]
          exact .inl (earlier e old)

/-- The cells of an evaluation are satellites of the dataset. -/
theorem mem_satellites_of_evaluated (run : AnyOrderRun tdCho env rows h c) {e : BestEvaluation}
    (member : e ∈ bestEvaluations env h) :
    e.serving.cellId ∈ env.link.satellites ∧ e.neighbor.cellId ∈ env.link.satellites := by
  obtain ⟨f, fired, made⟩ := List.mem_flatMap.mp member
  obtain ⟨h₁, h₂, rfl⟩ := List.append_of_mem fired
  have prior : AnyOrderRun tdCho env rows h₁ f.before := run.split.1
  obtain ⟨tick, ue, present, found⟩ := mem_bestEvaluations_sim made
  obtain ⟨-, -, due, measured, serving, neighbor⟩ := bestEvaluation_spec found
  have link : LinkInvariant tdCho env (ue.updated tdCho env (getSeconds f.event.ts)) :=
    (linkInvariant_of_run TdCho.lawful (prior.toUe e.ueId) present).updated TdCho.lawful
  have known : ∀ meas ∈ uePerformMeasurements (tdCho.snrFloor env.ho) env (getSeconds f.event.ts) due,
      meas.cellId ∈ env.link.satellites := by
    intro meas listed
    obtain ⟨entry, cached, -⟩ := TdCho.cached_of_measured listed
    rw [UeInfo.due_phy measured] at cached
    refine link.mem_satellites ?_
    rw [Std.TreeMap.mem_iff_isSome_getElem?, cached]
    rfl
  exact ⟨known _ serving, known _ neighbor⟩

end Run

/-! ## The tables of the evaluations -/

namespace ServingTrigger

/-- What the two tables are compared by: time, UE, serving cell, neighbour and `servingIsReceding`. -/
abbrev Key := ℚ × ℕ × String × String × ℕ

def TriggerRow.key (row : TriggerRow) : Key :=
  (row.time, row.ueId, row.servingCellId, row.bestNeighborCellId, row.servingIsReceding)

def keyCells (key : Key) : List Cell :=
  [.number key.1, .number key.2.1, .text key.2.2.1, .text key.2.2.2.1, .number key.2.2.2.2]

def keyColumns : List String := ["time", "ueId", "servingCellId", "bestNeighborCellId", "servingIsReceding"]

/-- The keys of the rows of a frame. -/
def keys (df : DataFrame) : List (List Cell) :=
  df.rows.map fun row => keyColumns.map fun name => df.column name row

/-- The key of the row of an evaluation. -/
def keyOf (e : BestEvaluation) (receding : Prop) [Decidable receding] : Key :=
  (decimals 3 e.simTime, e.ueId, e.serving.cellId, e.neighbor.cellId, if receding then 1 else 0)

/-- The fields of a row of the file. -/
def csvFields : LogLine → Option (List Field)
  | .csv "serving_snr_trigger_analysis" fields => some fields
  | _ => none

/-- The header of the file. -/
def triggerHeader : List (List Char) :=
  ["time", "ueId", "servingCellId", "bestNeighborCellId", "servingSnrTrend", "servingDistanceTrend",
    "servingIsReceding", "servingSinr", "servingDistance", "neighborSnrTrend", "neighborDistanceTrend",
    "neighborSinr", "neighborDistance", "dynamicMarginBeforeClamp"].map String.toList

/-- The text of the file. -/
def triggerText (log : List LogLine) : List Char :=
  unlines (csv triggerHeader :: (log.filterMap csvFields).map csvLine)

/-- The text of a `[HO_DEBUG]` line. -/
def debugText : LogLine → Option (List Char)
  | .stdout "HO_DEBUG" fields => some (recordText "HO_DEBUG" fields)
  | _ => none

/-- The text of the `[HO_DEBUG]` line of an evaluation. -/
def textOf (env : Env) (e : BestEvaluation) : List Char := ((debugText (e.debug env)).getD [])

/-- The printed SNR of the serving cell degrades. -/
def PrintsTrigger (env : Env) (e : BestEvaluation) : Prop :=
  decimals 2 e.trends.servingSnrTrend < -env.ho.servingTrendThreshold

instance (env : Env) (e : BestEvaluation) : Decidable (PrintsTrigger env e) :=
  inferInstanceAs (Decidable (_ < _))

/-- The serving satellite recedes. -/
def Recedes (e : BestEvaluation) : Prop := 0 < e.trends.servingDistTrend

instance (e : BestEvaluation) : Decidable (Recedes e) := inferInstanceAs (Decidable (_ < _))

/-- The UE was evaluated with this serving cell one second before, at a smaller printed distance. -/
def SeenReceding (evaluations : List BestEvaluation) (e : BestEvaluation) : Prop :=
  ∃ e' ∈ evaluations, e'.ueId = e.ueId ∧ e'.serving.cellId = e.serving.cellId ∧
    e'.simTime + 1 = e.simTime ∧ decimals 2 e'.serving.distance < decimals 2 e.serving.distance

instance (evaluations : List BestEvaluation) (e : BestEvaluation) :
    Decidable (SeenReceding evaluations e) :=
  inferInstanceAs (Decidable (∃ e' ∈ evaluations, _))

/-! ### The table of the file -/

/-- A field that `read_csv` reads as it is printed. -/
def ReadAsPrinted : Field → Prop
  | .nat n => n < 2 ^ 63
  | .fixed precision _ => 0 < precision
  | .str s => WordText s.toList
  | _ => False

theorem reads_field : ∀ {field : Field}, ReadAsPrinted field → Reads field.text field.cell
  | .nat _, bounded => .integer bounded
  | .fixed _ x, positive => .decimal positive x
  | .str s, word => by
      have reads := Reads.word word
      rwa [String.ofList_toList] at reads

theorem plainField_of_readAsPrinted : ∀ {field : Field}, ReadAsPrinted field → PlainField field.text
  | .nat n, _ => plainField_showNat n
  | .fixed precision x, _ => plainField_showFixed precision x
  | .str _, word => word.plain

/-- The evaluation is of a UE with a number of 32 bits and of cells with names that are read as words. -/
structure WordCells (e : BestEvaluation) : Prop where
  ueId : e.ueId < 2 ^ 32
  serving : WordText e.serving.cellId.toList
  neighbor : WordText e.neighbor.cellId.toList

theorem WordCells.readAsPrinted {e : BestEvaluation} (words : WordCells e) (env : Env) :
    ∀ field ∈ e.fields env, ReadAsPrinted field := by
  have number : ∀ n, n < 2 ^ 32 → ReadAsPrinted (.nat n) := fun n bounded => by
    change n < 2 ^ 63
    omega
  have fixed : ∀ precision x, 0 < precision → ReadAsPrinted (.fixed precision x) := fun _ _ positive => positive
  unfold BestEvaluation.fields
  simp only [List.forall_mem_cons]
  refine ⟨fixed _ _ (by decide), number _ words.ueId, words.serving, words.neighbor, fixed _ _ (by decide),
    fixed _ _ (by decide), number _ (by split <;> decide), ?_⟩
  refine ⟨fixed _ _ (by decide), fixed _ _ (by decide), fixed _ _ (by decide), fixed _ _ (by decide),
    fixed _ _ (by decide), fixed _ _ (by decide), fixed _ _ (by decide), List.forall_mem_nil _⟩

/-- The file is a table of the printed values. -/
theorem csvTable_fields {evaluations : List BestEvaluation} (words : ∀ e ∈ evaluations, WordCells e) (env : Env) :
    CsvTable triggerHeader (evaluations.map fun e => (e.fields env).map Field.text)
      (evaluations.map fun e => (e.fields env).map Field.cell) where
  columns := by decide
  named := by decide +kernel
  distinct := by decide
  width row member := by
    obtain ⟨e, -, rfl⟩ := List.mem_map.mp member
    rfl
  plain row member field listed := by
    obtain ⟨e, own, rfl⟩ := List.mem_map.mp member
    obtain ⟨field, printed, rfl⟩ := List.mem_map.mp listed
    exact plainField_of_readAsPrinted ((words e own).readAsPrinted env field printed)
  reads := by
    refine List.forall₂_map_left_iff.mpr (List.forall₂_map_right_iff.mpr (List.forall₂_same.mpr fun e own => ?_))
    refine List.forall₂_map_left_iff.mpr (List.forall₂_map_right_iff.mpr (List.forall₂_same.mpr fun field printed => ?_))
    exact reads_field ((words e own).readAsPrinted env field printed)
  typed k := by
    by_cases cells : k = 2 ∨ k = 3
    · right
      intro row member cell found
      obtain ⟨e, -, rfl⟩ := List.mem_map.mp member
      rcases cells with rfl | rfl <;> (obtain rfl := Option.some.inj found; trivial)
    · left
      intro row member cell found
      obtain ⟨e, -, rfl⟩ := List.mem_map.mp member
      match k, cells, found with
      | 0, _, found | 1, _, found | 4, _, found | 5, _, found | 6, _, found | 7, _, found | 8, _, found
      | 9, _, found | 10, _, found | 11, _, found | 12, _, found | 13, _, found =>
          obtain rfl := Option.some.inj found
          trivial
      | 2, cells, _ | 3, cells, _ => exact absurd (by decide) cells

/-- A list that is not empty. -/
def unlessEmpty {α : Type} (rows : List α) : Option (List α) := if rows.isEmpty then none else some rows

variable {pd : Pandas}

theorem triggerHeader_ofList : triggerHeader.map String.ofList = requiredColumns := by
  simp [triggerHeader, requiredColumns]

/-- The key of the row of an evaluation. -/
theorem key_fields (env : Env) (e : BestEvaluation) (rows : List (List Cell)) :
    (keyColumns.map fun name => DataFrame.column ⟨requiredColumns, rows⟩ name ((e.fields env).map Field.cell)) =
      keyCells (keyOf e (Recedes e)) := by
  by_cases recedes : 0 < e.trends.servingDistTrend <;>
    simp [keyColumns, DataFrame.column, requiredColumns, BestEvaluation.fields, Field.cell, keyCells, keyOf,
      Recedes, List.lookup_cons, recedes]

theorem loadCsv_fields (documented : pd.Documented) {evaluations : List BestEvaluation}
    (words : ∀ e ∈ evaluations, WordCells e) (env : Env) :
    (loadCsv pd (unlines (csv triggerHeader :: (evaluations.map (BestEvaluation.fields env)).map csvLine))).map
        keys =
      (unlessEmpty (evaluations.map fun e => keyOf e (Recedes e))).map (List.map keyCells) := by
  have read := documented.read_csv (csvTable_fields words env)
  rw [List.map_map, triggerHeader_ofList] at read
  unfold loadCsv
  rw [List.map_map, show csvLine ∘ BestEvaluation.fields env = csv ∘ fun e => (e.fields env).map Field.text from rfl,
    read, Option.bind_some]
  cases evaluations with
  | nil => rfl
  | cons e evaluations =>
      have columns : requiredColumns.all requiredColumns.contains = true := by simp
      rw [if_neg (by simp), if_pos columns, Option.map_some, keys, List.map_map]
      simp only [Function.comp_def, key_fields, unlessEmpty, List.map_cons, List.isEmpty_cons, List.map_map,
        Bool.false_eq_true, if_false, Option.map_some]

/-! ### The table of the log -/

/-- The key of the row of a line, if the printed trend triggers. -/
def addedKeys (env : Env) (measurementPeriod : ℚ) (seen : Option (ℚ × ℚ)) (e : BestEvaluation) :
    List Key :=
  if PrintsTrigger env e then
    [keyOf e (0 < servingDistTrend measurementPeriod (decimals 3 e.simTime)
      (decimals 2 e.serving.distance) seen)]
  else []

/-- What the expression captures of a printed line. -/
def textGroups (env : Env) (e : BestEvaluation) : Groups :=
  [showNat e.ueId, showFixed 3 e.simTime, e.serving.cellId.toList, e.neighbor.cellId.toList,
    showFixed 2 e.serving.sinr, showFixed 2 e.neighbor.sinr, showFixed 2 e.trends.servingSnrTrend,
    showFixed 2 e.trends.neighborSnrTrend, showFixed 2 e.serving.distance,
    showFixed 2 e.neighbor.distance, showFixed 2 e.trends.neighborDistTrend,
    showFixed 2 (e.dynamicMargin env)]

theorem search_textOf {e : BestEvaluation} (plain : PlainName e.serving.cellId.toList)
    (plain' : PlainName e.neighbor.cellId.toList) :
    search hoDebugPattern (textOf env e) = some (textGroups env e) := search_hoDebug plain plain'

theorem scanLine_textOf {e : BestEvaluation} (plain : PlainName e.serving.cellId.toList)
    (plain' : PlainName e.neighbor.cellId.toList) (env : Env) (measurementPeriod : ℚ)
    (sourceLog : String) (s : ScanState) :
    ∃ added : List TriggerRow,
      added.map TriggerRow.key = addedKeys env measurementPeriod
        (s.lastSeen.lookup (e.ueId, e.serving.cellId)) e ∧
      scanLine (-env.ho.servingTrendThreshold) measurementPeriod sourceLog s (textOf env e) =
        some
          { rows := s.rows ++ added
            lastSeen := setKey (e.ueId, e.serving.cellId)
              (decimals 3 e.simTime, decimals 2 e.serving.distance) s.lastSeen } := by
  have number : ∀ x, pyFloat (showFixed 2 x) = some (decimals 2 x) := pyFloat_showFixed (by decide)
  have time : pyFloat (showFixed 3 e.simTime) = some (decimals 3 e.simTime) :=
    pyFloat_showFixed (by decide) _
  unfold scanLine
  rw [search_textOf plain plain']
  simp only [textGroups, Pingpong.group, List.getD_cons_zero, List.getD_cons_succ, Nat.reduceSub,
    pyNat_showNat, String.ofList_toList, number, time, Option.bind_eq_bind, Option.bind_some,
    rowOfMatch]
  by_cases triggers : decimals 2 e.trends.servingSnrTrend < -env.ho.servingTrendThreshold
  · rw [if_pos triggers, addedKeys, if_pos (show PrintsTrigger env e from triggers)]
    exact ⟨_, rfl, rfl⟩
  · rw [if_neg triggers, addedKeys, if_neg (show ¬ PrintsTrigger env e from triggers)]
    exact ⟨_, rfl, rfl⟩

/-- What the log shows last of the UE and the cell of `e`. -/
def lastSeen (evaluations : List BestEvaluation) (key : ℕ × String) : Option (ℚ × ℚ) :=
  ((evaluations.filter fun e => (e.ueId, e.serving.cellId) = key).getLast?).map fun e =>
    (decimals 3 e.simTime, decimals 2 e.serving.distance)

theorem lastSeen_snoc (evaluations : List BestEvaluation) (e : BestEvaluation) (key : ℕ × String) :
    lastSeen (evaluations ++ [e]) key =
      if key = (e.ueId, e.serving.cellId) then
        some (decimals 3 e.simTime, decimals 2 e.serving.distance)
      else lastSeen evaluations key := by
  unfold lastSeen
  rw [List.filter_append]
  split
  · rename_i same
    rw [List.filter_cons_of_pos (by simp [same]), List.filter_nil, List.getLast?_concat]
    rfl
  · rename_i other
    rw [List.filter_cons_of_neg (by simp [Ne.symm other]), List.filter_nil, List.append_nil]

theorem simTime_lt {e e' : BestEvaluation} (before : e.Before e') (same : e.ueId = e'.ueId) :
    e.simTime < e'.simTime :=
  before.resolve_right fun ⟨_, lt⟩ => absurd same lt.ne

theorem decimals_simTime {evaluations : List BestEvaluation} (inOrder : InOrder evaluations)
    {e : BestEvaluation} (member : e ∈ evaluations) : decimals 3 e.simTime = e.simTime := by
  obtain ⟨n, time⟩ := inOrder.whole e member
  rw [time, decimals_natCast]

/-- Whole seconds within a microsecond of each other are equal. -/
theorem near_iff {m n : ℕ} : |(n : ℚ) - m - 1| < 0.000001 ↔ (m : ℚ) + 1 = n := by
  constructor
  · intro near
    obtain ⟨below, above⟩ := abs_lt.mp near
    have lt : n < m + 2 := by
      have : (n : ℚ) < m + 2 := by linarith
      exact_mod_cast this
    have gt : m < n := by
      have : (m : ℚ) < n := by linarith
      exact_mod_cast this
    have next : m + 1 = n := by omega
    exact_mod_cast next
  · intro next
    rw [← next, show (m : ℚ) + 1 - m - 1 = 0 by ring, abs_zero]
    norm_num

/-- An evaluation of the UE and the cell one second before the newest one is the last of them, as any
between the two would be at a whole second. -/
theorem getLast?_of_secondBefore {evaluations : List BestEvaluation} {e e' : BestEvaluation}
    (inOrder : InOrder (evaluations ++ [e])) (member : e' ∈ evaluations ++ [e]) (ue : e'.ueId = e.ueId)
    (cell : e'.serving.cellId = e.serving.cellId) (time : e'.simTime + 1 = e.simTime) :
    (evaluations.filter fun e' =>
      (e'.ueId, e'.serving.cellId) = (e.ueId, e.serving.cellId)).getLast? = some e' := by
  obtain ⟨order, -, before⟩ := List.pairwise_append.mp inOrder.order
  have old : e' ∈ evaluations := by
    refine (List.mem_append.mp member).resolve_right fun new => ?_
    rw [List.mem_singleton.mp new] at time
    linarith
  have listed : e' ∈ evaluations.filter fun e' =>
      (e'.ueId, e'.serving.cellId) = (e.ueId, e.serving.cellId) :=
    List.mem_filter.mpr ⟨old, by simp [ue, cell]⟩
  cases last : (evaluations.filter fun e' =>
      (e'.ueId, e'.serving.cellId) = (e.ueId, e.serving.cellId)).getLast? with
  | none =>
      rw [List.getLast?_eq_none_iff.mp last] at listed
      cases listed
  | some l =>
      obtain ⟨init, shape⟩ := List.getLast?_eq_some_iff.mp last
      obtain ⟨seen, key⟩ := List.mem_filter.mp (List.mem_of_getLast? last)
      simp only [Prod.mk.injEq, decide_eq_true_eq] at key
      have gap := simTime_lt (before l seen e (List.mem_singleton_self e)) key.1
      have sorted := order.filter fun e' => (e'.ueId, e'.serving.cellId) = (e.ueId, e.serving.cellId)
      rw [shape] at listed sorted
      rcases List.mem_append.mp listed with sooner | here
      · have lt := simTime_lt ((List.pairwise_append.mp sorted).2.2 e' sooner l
          (List.mem_singleton_self l)) (ue.trans key.1.symm)
        obtain ⟨k, first⟩ := inOrder.whole e' member
        obtain ⟨m, second⟩ := inOrder.whole l (List.mem_append_left _ seen)
        rw [first, second] at lt
        rw [second, ← time, first] at gap
        have lt : k < m := by exact_mod_cast lt
        have gap : m < k + 1 := by exact_mod_cast gap
        omega
      · rw [List.mem_singleton.mp here]

/-- In a list in order the last evaluation of the UE and the cell is one second old if any is. -/
theorem servingDistTrend_lastSeen {evaluations : List BestEvaluation} {e : BestEvaluation}
    (inOrder : InOrder (evaluations ++ [e])) :
    0 < servingDistTrend 1 (decimals 3 e.simTime) (decimals 2 e.serving.distance)
        (lastSeen evaluations (e.ueId, e.serving.cellId)) ↔
      SeenReceding (evaluations ++ [e]) e := by
  have own : e ∈ evaluations ++ [e] := by simp
  unfold lastSeen
  cases last : (evaluations.filter fun e' =>
      (e'.ueId, e'.serving.cellId) = (e.ueId, e.serving.cellId)).getLast? with
  | none =>
      constructor
      · intro lt
        exact absurd lt (lt_irrefl 0)
      · rintro ⟨e', member, ue, cell, time, -⟩
        rw [getLast?_of_secondBefore inOrder member ue cell time] at last
        cases last
  | some l =>
      obtain ⟨old, key⟩ := List.mem_filter.mp (List.mem_of_getLast? last)
      simp only [Prod.mk.injEq, decide_eq_true_eq] at key
      have listed : l ∈ evaluations ++ [e] := List.mem_append_left _ old
      rw [Option.map_some, servingDistTrend, decimals_simTime inOrder own,
        decimals_simTime inOrder listed]
      obtain ⟨m, seen⟩ := inOrder.whole l listed
      obtain ⟨n, now⟩ := inOrder.whole e own
      rw [seen, now]
      split
      · rename_i near
        have time : l.simTime + 1 = e.simTime := by
          rw [seen, now]
          exact near_iff.mp near
        rw [sub_pos]
        constructor
        · exact fun recedes => ⟨l, listed, key.1, key.2, time, recedes⟩
        · rintro ⟨e', member, ue, cell, time', recedes⟩
          rw [getLast?_of_secondBefore inOrder member ue cell time'] at last
          obtain rfl := Option.some.inj last
          exact recedes
      · rename_i far
        refine ⟨fun lt => absurd lt (lt_irrefl 0), ?_⟩
        rintro ⟨e', member, ue, cell, time, -⟩
        rw [getLast?_of_secondBefore inOrder member ue cell time] at last
        obtain rfl := Option.some.inj last
        rw [seen, now] at time
        exact absurd (near_iff.mpr time) far

/-- A later evaluation is no evidence on an earlier one. -/
theorem seenReceding_snoc {evaluations : List BestEvaluation} {e e' : BestEvaluation}
    (inOrder : InOrder (evaluations ++ [e])) (member : e' ∈ evaluations) :
    SeenReceding (evaluations ++ [e]) e' ↔ SeenReceding evaluations e' := by
  have before := (List.pairwise_append.mp inOrder.order).2.2 e' member e (List.mem_singleton_self e)
  have le : e'.simTime ≤ e.simTime := before.elim le_of_lt fun same => same.1.le
  constructor
  · rintro ⟨e'', listed, ue, cell, time, recedes⟩
    rcases List.mem_append.mp listed with old | new
    · exact ⟨e'', old, ue, cell, time, recedes⟩
    · rw [List.mem_singleton.mp new] at time
      linarith
  · rintro ⟨e'', old, seen⟩
    exact ⟨e'', List.mem_append_left _ old, seen⟩

/-- The keys of the rows that are read from the log. -/
def logKeys (env : Env) (evaluations : List BestEvaluation) : List Key :=
  (evaluations.filter fun e => PrintsTrigger env e).map fun e => keyOf e (SeenReceding evaluations e)

/-- The cells of the evaluations have plain names. -/
def PlainCells (evaluations : List BestEvaluation) : Prop :=
  ∀ e ∈ evaluations, PlainName e.serving.cellId.toList ∧ PlainName e.neighbor.cellId.toList

/-- The `[HO_DEBUG]` lines of evaluations in order are read as one row for each printed trigger. -/
theorem scan_evaluations {evaluations : List BestEvaluation} (inOrder : InOrder evaluations)
    (plain : PlainCells evaluations) (env : Env) (sourceLog : String) :
    ∃ s : ScanState, (evaluations.map (textOf env)).foldlM
        (scanLine (-env.ho.servingTrendThreshold) 1 sourceLog) { rows := [] } = some s ∧
      s.rows.map TriggerRow.key = logKeys env evaluations ∧
      ∀ key, s.lastSeen.lookup key = lastSeen evaluations key := by
  induction evaluations using List.reverseRecOn with
  | nil => exact ⟨_, rfl, rfl, fun key => rfl⟩
  | append_singleton evaluations e ih =>
      obtain ⟨s, scanned, keys, seen⟩ := ih inOrder.init
        fun e' member => plain e' (List.mem_append_left _ member)
      obtain ⟨serving, neighbor⟩ := plain e (by simp)
      obtain ⟨added, addedKeys', step⟩ := scanLine_textOf serving neighbor env 1 sourceLog s
      have earlier : (evaluations.filter fun e' => PrintsTrigger env e').map
          (fun e' => keyOf e' (SeenReceding (evaluations ++ [e]) e')) = logKeys env evaluations := by
        refine List.map_congr_left fun e' member => ?_
        simp only [keyOf, seenReceding_snoc inOrder (List.mem_of_mem_filter member)]
      have whole : ((evaluations ++ [e]).map (textOf env)).foldlM
          (scanLine (-env.ho.servingTrendThreshold) 1 sourceLog) { rows := [] } =
            scanLine (-env.ho.servingTrendThreshold) 1 sourceLog s (textOf env e) := by
        rw [List.map_append, List.foldlM_append, scanned]
        exact bind_pure (m := Option) _
      rw [step] at whole
      refine ⟨_, whole, ?_, fun key => ?_⟩
      · rw [List.map_append, keys, addedKeys', seen, addedKeys, ← earlier]
        unfold logKeys
        rw [List.filter_append, List.map_append]
        congr 1
        split
        · rename_i triggers
          rw [List.filter_cons_of_pos (by simpa using triggers)]
          simp only [keyOf, servingDistTrend_lastSeen inOrder]
          rfl
        · rename_i quiet
          rw [List.filter_cons_of_neg (by simpa using quiet)]
          rfl
      · rw [lookup_setKey, lastSeen_snoc, seen]

/-- The frame of rows has their keys. -/
theorem keys_fromRecords (documented : pd.Documented) {rows : List TriggerRow} (some_row : rows ≠ []) :
    keys (pd.fromRecords (rows.map TriggerRow.record)) = (rows.map TriggerRow.key).map keyCells := by
  have same : ∀ record ∈ rows.map TriggerRow.record,
      record.map Prod.fst = requiredColumns ++ ["sourceLog"] := by
    intro record member
    obtain ⟨row, -, rfl⟩ := List.mem_map.mp member
    rfl
  rw [documented.from_records (by simpa using some_row) same]
  simp only [keys, List.map_map, Function.comp_def]
  refine List.map_congr_left fun row _ => ?_
  simp [keyColumns, DataFrame.column, requiredColumns, TriggerRow.record, TriggerRow.key, keyCells,
    List.lookup_cons]

/-- The rows that are read from the log, when the lines of the evaluations are among its lines. -/
theorem parseHoDebugLogs_keys (documented : pd.Documented) {evaluations : List BestEvaluation}
    (inOrder : InOrder evaluations) (plain : PlainCells evaluations) {content : List Char} (sourceLog : String)
    (printed : Among (fun line => search hoDebugPattern line = none) (evaluations.map (textOf env))
      (fileLines content)) :
    (parseHoDebugLogs pd [(sourceLog, some content)] (-env.ho.servingTrendThreshold) 1).map keys =
      (unlessEmpty (logKeys env evaluations)).map (List.map keyCells) := by
  obtain ⟨s, scanned, keys, -⟩ := scan_evaluations inOrder plain env sourceLog
  have passes : ∀ s line, search hoDebugPattern line = none →
      scanLine (-env.ho.servingTrendThreshold) 1 sourceLog s line = some s := by
    intro s line unmatched
    rw [scanLine, unmatched]
  have read : scanLog (-env.ho.servingTrendThreshold) 1 [] (sourceLog, some content) = some s.rows := by
    unfold scanLog
    dsimp only
    rw [printed.foldlM passes, scanned, Option.map_some]
  unfold parseHoDebugLogs unlessEmpty
  rw [List.foldlM_cons, read, ← keys]
  by_cases empty : s.rows = []
  · rw [empty]
    rfl
  · have some_row : s.rows.isEmpty = false := by simpa using empty
    change Option.map _ (Option.bind (some s.rows) _) = _
    rw [Option.bind_some, some_row, List.isEmpty_map, some_row, if_neg Bool.false_ne_true,
      if_neg Bool.false_ne_true, Option.map_some, Option.map_some, keys_fromRecords documented empty]

/-! ### The decisions -/

/-- The keys of the rows of the file. -/
def csvKeys (env : Env) (evaluations : List BestEvaluation) : List Key :=
  (evaluations.filter fun e => e.Triggers env).map fun e => keyOf e (Recedes e)

/-- The log leads to the decisions that the simulation made in the evaluation. -/
structure Reconstructed (env : Env) (evaluations : List BestEvaluation) (e : BestEvaluation) : Prop where
  trigger : PrintsTrigger env e ↔ e.Triggers env
  receding : e.Triggers env → (SeenReceding evaluations e ↔ Recedes e)

instance (env : Env) (evaluations : List BestEvaluation) (e : BestEvaluation) :
    Decidable (Reconstructed env evaluations e) :=
  decidable_of_iff ((PrintsTrigger env e ↔ e.Triggers env) ∧
      (e.Triggers env → (SeenReceding evaluations e ↔ Recedes e)))
    ⟨fun ⟨trigger, receding⟩ => ⟨trigger, receding⟩, fun ⟨trigger, receding⟩ => ⟨trigger, receding⟩⟩

theorem keyOf_eq_iff {e : BestEvaluation} {p q : Prop} [Decidable p] [Decidable q] :
    keyOf e p = keyOf e q ↔ (p ↔ q) := by
  unfold keyOf
  by_cases yes : p <;> by_cases yes' : q <;> simp [yes, yes']

/-- The tables agree exactly if all decisions do. -/
theorem logKeys_eq_csvKeys_iff {evaluations : List BestEvaluation} (inOrder : InOrder evaluations)
    (env : Env) :
    logKeys env evaluations = csvKeys env evaluations ↔
      ∀ e ∈ evaluations, Reconstructed env evaluations e := by
  have nodup : (evaluations.map fun e => (decimals 3 e.simTime, e.ueId)).Nodup := by
    refine List.pairwise_map.mpr (inOrder.order.imp_of_mem ?_)
    intro e e' member member' before same
    obtain ⟨time, ue⟩ := Prod.mk.inj same
    rw [decimals_simTime inOrder member, decimals_simTime inOrder member'] at time
    exact absurd (simTime_lt before ue) time.not_lt
  unfold logKeys csvKeys
  refine (map_filter_eq_iff (fun key : Key => (key.1, key.2.1)) (fun e => ?_) (fun e => ?_) nodup _ _).trans
    (forall₂_congr fun e _ => ?_)
  · rfl
  · rfl
  rw [decide_eq_decide, decide_eq_true_eq, keyOf_eq_iff]
  constructor
  · exact fun ⟨trigger, receding⟩ => ⟨trigger, fun triggers => receding (trigger.mpr triggers)⟩
  · exact fun ⟨trigger, receding⟩ => ⟨trigger, fun prints => receding (trigger.mp prints)⟩

/-! ### The report -/

/-- `servingIsReceding` of a key -/
def flag (key : Key) : ℕ := key.2.2.2.2

/-- The count and the probability of a report. -/
def Report.counts (report : Report) : ℕ × List Char := (report.total, report.recedingProbability)

theorem toInt_natCast (n : ℕ) : toInt (.number n) = some (n : ℤ) := by
  have nonneg : ¬ ((n : ℚ) < 0) := not_lt.mpr (Nat.cast_nonneg n)
  simp [toInt, Cell.value, nonneg]

/-- The count and the probability are those of the keys. -/
theorem counts_analyzeFrame (documented : pd.Documented) {df : DataFrame} {list : List Key} (some_key : list ≠ [])
    (same : keys df = list.map keyCells) :
    (analyzeFrame pd df).map Report.counts =
      some (list.length, fmtRatio ((list.map flag).sum : ℕ) list.length) := by
  have length : df.rows.length = list.length := by
    have lengths := congrArg List.length same
    rwa [keys, List.length_map, List.length_map] at lengths
  have flags : df.rows.map (df.column "servingIsReceding") = list.map fun key => Cell.number (flag key : ℕ) := by
    have last := congrArg (List.map fun cells : List Cell => cells.getLastD .missing) same
    rw [keys, List.map_map, List.map_map] at last
    exact last
  have ints : (df.rows.mapM fun row => pd.astypeInt (df.column "servingIsReceding" row)) =
      some (list.map fun key => Cell.number (flag key : ℕ)) := by
    calc (df.rows.mapM fun row => pd.astypeInt (df.column "servingIsReceding" row))
        = (df.rows.map (df.column "servingIsReceding")).mapM pd.astypeInt := (List.mapM_map ..).symm
      _ = (list.map fun key => Cell.number (flag key : ℕ)).mapM pd.astypeInt := by rw [flags]
      _ = some (list.map fun key => Cell.number (flag key : ℕ)) := by
          clear flags length same some_key
          induction list with
          | nil => rfl
          | cons key list ih => simp [documented.astype_int, ih]
  have sum : pd.sum (list.map fun key => Cell.number (flag key : ℕ)) =
      .number (((list.map flag).sum : ℕ) : ℚ) := by
    have numbers := documented.sum (list.map fun key => ((flag key : ℕ) : ℚ))
    rw [List.map_map] at numbers
    rw [Nat.cast_list_sum, List.map_map]
    exact numbers
  have some_row : ¬ df.rows.isEmpty = true := by
    intro none
    rw [List.isEmpty_iff.mp none] at length
    exact some_key (List.length_eq_zero_iff.mp length.symm)
  unfold analyzeFrame
  rw [if_neg some_row, ints]
  simp only [Option.bind_eq_bind, Option.bind_some, sum, toInt_natCast, length]
  rfl

/-- Tables lead to the count and the probability of their keys. -/
theorem counts_of_keys (documented : pd.Documented) {df : Option DataFrame} {list : List Key}
    (same : df.map keys = (unlessEmpty list).map (List.map keyCells)) :
    (df.bind (analyzeFrame pd)).map Report.counts =
      (unlessEmpty list).map fun list => (list.length, fmtRatio ((list.map flag).sum : ℕ) list.length) := by
  unfold unlessEmpty at same ⊢
  by_cases empty : list.isEmpty = true
  case pos =>
    rw [if_pos empty] at same ⊢
    rw [Option.map_eq_none_iff.mp same]
    rfl
  case neg =>
    rw [if_neg empty] at same ⊢
    obtain ⟨df, rfl, keys⟩ := Option.map_eq_some_iff.mp same
    exact counts_analyzeFrame documented (by simpa using empty) keys

end ServingTrigger

open ServingTrigger

/-! ## Every run -/

section Run

variable {rows : List UeRow} {h : List (Firing ℤ Sim Event)} {c : Conf ℤ Sim Event}

theorem filterMap_ofEvaluation {α : Type} {read : LogLine → Option α}
    (own : ∀ line, line.ofEvaluation = false → read line = none) (log : List LogLine) :
    (log.filter LogLine.ofEvaluation).filterMap read = log.filterMap read := by
  rw [List.filterMap_filter]
  refine List.filterMap_congr fun line _ => ?_
  split
  · rfl
  · rename_i other
    rw [own line (Bool.eq_false_iff.mpr other)]

/-- The rows of the file are those of the evaluations that trigger. -/
theorem csvFields_of_run (run : AnyOrderRun tdCho env rows h c) :
    c.state.log.filterMap csvFields =
      ((bestEvaluations env h).filter fun e => e.Triggers env).map (BestEvaluation.fields env) := by
  have own : ∀ line : LogLine, line.ofEvaluation = false → csvFields line = none := by
    intro line other
    unfold csvFields
    split
    · cases other
    · rfl
  have one : ∀ e : BestEvaluation, (e.lines env).filterMap csvFields =
      if e.Triggers env then [e.fields env] else [] := by
    intro e
    unfold BestEvaluation.lines
    split <;> rfl
  rw [← filterMap_ofEvaluation own, ofEvaluation_of_run run, List.filterMap_flatMap]
  simp only [one]
  induction bestEvaluations env h with
  | nil => rfl
  | cons e evaluations ih =>
      rw [List.flatMap_cons, ih]
      by_cases triggers : e.Triggers env <;> simp [triggers]

/-- The `[HO_DEBUG]` lines of the log are those of the evaluations. -/
theorem debugText_of_run (run : AnyOrderRun tdCho env rows h c) :
    c.state.log.filterMap debugText = (bestEvaluations env h).map (textOf env) := by
  have own : ∀ line : LogLine, line.ofEvaluation = false → debugText line = none := by
    intro line other
    unfold debugText
    split
    · cases other
    · rfl
  have one : ∀ e : BestEvaluation, (e.lines env).filterMap debugText = [textOf env e] := by
    intro e
    unfold BestEvaluation.lines
    split <;> rfl
  rw [← filterMap_ofEvaluation own, ofEvaluation_of_run run, List.filterMap_flatMap]
  simp only [one]
  exact List.flatMap_pure_eq_map ..

/-- Every name of the dataset is one that `read_csv` reads as a word. -/
def Link.WordNames (L : Link) : Prop := ∀ name ∈ L.satellites.keys, WordText name.toList

/-- The evaluations are of UEs of the run and of satellites. -/
theorem wordCells_of_run (names : Link.WordNames env.link) (few : rows.length ≤ 2 ^ 32)
    (run : AnyOrderRun tdCho env rows h c) : ∀ e ∈ bestEvaluations env h, WordCells e := by
  intro e member
  obtain ⟨serving, neighbor⟩ := mem_satellites_of_evaluated run member
  obtain ⟨f, fired, made⟩ := List.mem_flatMap.mp member
  obtain ⟨h₁, h₂, rfl⟩ := List.append_of_mem fired
  have prior : AnyOrderRun tdCho env rows h₁ f.before := run.split.1
  obtain ⟨-, ue, present, -⟩ := mem_bestEvaluations_sim made
  have known := ueRun_isSome (prior.toUe e.ueId)
  have inside : rows[e.ueId]?.isSome = true := by
    rw [← known]
    exact Option.isSome_iff_exists.mpr ⟨ue, present⟩
  have number : e.ueId < rows.length := by simpa using inside
  exact
    { ueId := by omega
      serving := names _ (Std.TreeMap.mem_keys.mpr serving)
      neighbor := names _ (Std.TreeMap.mem_keys.mpr neighbor) }

end Run

/-- **The two inputs of the trigger analysis.** Whatever the number of UEs and the order of their events,
and whatever other lines stand in the log, the log is read as one row for each evaluation whose printed
trend triggers, and the file as one row for each evaluation that triggers, both in order and with the
printed time, UE and cells. The tables agree exactly if in every evaluation the printed trend triggers when
the trend does, and, when it does, the serving satellite recedes exactly if the log has the UE and the
serving cell one second before at a smaller distance. Then both inputs lead to the same count and the same
probability, those of the evaluations that trigger. -/
theorem trigger_inputs_agree {pd : Pandas} (documented : pd.Documented) {env : Env} {rows : List UeRow}
    {h : List (Firing ℤ Sim Event)} {c : Conf ℤ Sim Event} {path : String} {content : List Char}
    (names : Link.WordNames env.link) (few : rows.length ≤ 2 ^ 32) (period : env.ho.measurementPeriod = 1)
    (run : AnyOrderRun tdCho env rows h c)
    (printed : Among (fun line => search hoDebugPattern line = none) (c.state.log.filterMap debugText)
      (fileLines content)) :
    (parseHoDebugLogs pd [(path, some content)] (-env.ho.servingTrendThreshold)
        env.ho.measurementPeriod).map keys =
        (unlessEmpty (logKeys env (bestEvaluations env h))).map (List.map keyCells) ∧
      (loadCsv pd (triggerText c.state.log)).map keys =
        (unlessEmpty (csvKeys env (bestEvaluations env h))).map (List.map keyCells) ∧
      (logKeys env (bestEvaluations env h) = csvKeys env (bestEvaluations env h) ↔
        ∀ e ∈ bestEvaluations env h, Reconstructed env (bestEvaluations env h) e) ∧
      ((∀ e ∈ bestEvaluations env h, Reconstructed env (bestEvaluations env h) e) →
        (analyze pd none [(path, some content)] (-env.ho.servingTrendThreshold)
            env.ho.measurementPeriod).map Report.counts =
          (analyze pd (some (some (triggerText c.state.log))) [] (-env.ho.servingTrendThreshold)
            env.ho.measurementPeriod).map Report.counts ∧
        (analyze pd (some (some (triggerText c.state.log))) [] (-env.ho.servingTrendThreshold)
            env.ho.measurementPeriod).map Report.counts =
          (unlessEmpty (csvKeys env (bestEvaluations env h))).map fun keys =>
            (keys.length, fmtRatio ((keys.map flag).sum : ℕ) keys.length)) := by
  have inOrder := inOrder_of_run run
  have words := wordCells_of_run names few run
  have plain : PlainCells (bestEvaluations env h) := fun e member =>
    ⟨⟨(words e member).serving.plain.comma, (words e member).serving.plain.newline⟩,
      ⟨(words e member).neighbor.plain.comma, (words e member).neighbor.plain.newline⟩⟩
  rw [debugText_of_run run] at printed
  have log := parseHoDebugLogs_keys documented inOrder plain path printed
  have csv := loadCsv_fields documented (fun e member =>
    words e (List.mem_of_mem_filter (p := fun e => decide (e.Triggers env)) member)) env
  rw [← csvFields_of_run run] at csv
  have agree := logKeys_eq_csvKeys_iff inOrder env
  rw [period]
  refine ⟨log, csv, agree, fun all => ?_⟩
  have fromCsv := counts_of_keys documented csv
  have fromLog := counts_of_keys documented log
  rw [agree.mpr all] at fromLog
  exact ⟨fromLog.trans fromCsv.symm, fromCsv⟩

/-- The satellite with this name stands still before it recedes. -/
def recedingFrom (name : String) : Env where
  link := sampleLink
    [overhead name [(0, 500000), (1, 500000), (2, 1000000), (60, 1000000)],
      overhead "S" [(0, 500000), (60, 500000)]]
  ho := { trendWindowSize := 1 }

/-- The log of the first three seconds, behind a line of another tool. -/
def sampleTriggerLog (env : Env) : List (List Char) :=
  "NS-3 started".toList :: (sampleRun tdCho env sampleRows 3).2.state.log.filterMap debugText

/-- The other line is none of the evaluations. -/
theorem among_sampleTriggerLog {env : Env} (writable : ∀ line ∈ sampleTriggerLog env, '\n' ∉ line ∧ '\r' ∉ line) :
    Among (fun line => search hoDebugPattern line = none)
      ((sampleRun tdCho env sampleRows 3).2.state.log.filterMap debugText)
      (fileLines (unlines (sampleTriggerLog env))) := by
  have silent : search hoDebugPattern "NS-3 started".toList = none := by decide +kernel
  rw [fileLines_unlines writable]
  exact .quiet silent (among_self _ _)

theorem trigger_inputs_agree_receding :
    (analyze plainPandas none [("run.log", some (unlines (sampleTriggerLog (recedingFrom "A"))))]
        (-(recedingFrom "A").ho.servingTrendThreshold) (recedingFrom "A").ho.measurementPeriod).map
          Report.counts = some (1, "1/1 = 100.00%".toList) := by
  have names : Link.WordNames (recedingFrom "A").link := by
    unfold Link.WordNames
    decide +kernel
  have reconstructed : ∀ e ∈ bestEvaluations (recedingFrom "A") (sampleRun tdCho (recedingFrom "A") sampleRows 3).1,
      Reconstructed (recedingFrom "A")
        (bestEvaluations (recedingFrom "A") (sampleRun tdCho (recedingFrom "A") sampleRows 3).1) e := by
    decide +kernel
  obtain ⟨-, -, -, counts⟩ := @trigger_inputs_agree plainPandas plainPandas_documented (recedingFrom "A")
    sampleRows _ _ "run.log" _ names (by decide) rfl (simRun_sampleRun tdCho (recedingFrom "A") sampleRows 3).anyOrder
    (among_sampleTriggerLog (by decide +kernel))
  obtain ⟨same, written⟩ := counts reconstructed
  rw [same, written]
  decide +kernel

/-- The two inputs are read as the same keys. -/
def SameKeys (pd : Pandas) (env : Env) (log : List LogLine) (path : String) (content : List Char) : Prop :=
  (parseHoDebugLogs pd [(path, some content)] (-env.ho.servingTrendThreshold) env.ho.measurementPeriod).map keys =
    (loadCsv pd (triggerText log)).map keys

/-- In `trending` the first evaluation triggers, and the log shows no distance of the second before. And a
satellite with the name `NA` is missing in the table of the file, even if all decisions agree. -/
theorem trigger_inputs_disagree :
    (¬ ∀ {pd : Pandas}, pd.Documented → ∀ {env : Env} {rows : List UeRow} {h : List (Firing ℤ Sim Event)}
        {c : Conf ℤ Sim Event} {path : String} {content : List Char}, Link.WordNames env.link →
      env.ho.measurementPeriod = 1 → SimRun tdCho env rows h c →
      Among (fun line => search hoDebugPattern line = none) (c.state.log.filterMap debugText)
        (fileLines content) → SameKeys pd env c.state.log path content) ∧
    ¬ ∀ {pd : Pandas}, pd.Documented → ∀ {env : Env} {rows : List UeRow} {h : List (Firing ℤ Sim Event)}
        {c : Conf ℤ Sim Event} {path : String} {content : List Char}, env.link.PlainNames →
      env.ho.measurementPeriod = 1 → SimRun tdCho env rows h c →
      Among (fun line => search hoDebugPattern line = none) (c.state.log.filterMap debugText)
        (fileLines content) →
      (∀ e ∈ bestEvaluations env h, Reconstructed env (bestEvaluations env h) e) →
      SameKeys pd env c.state.log path content := by
  constructor
  · intro always
    have names : Link.WordNames trending.link := by
      unfold Link.WordNames
      decide +kernel
    have writable : ∀ line ∈ sampleTriggerLog trending, '\n' ∉ line ∧ '\r' ∉ line := by decide +kernel
    have same := @always plainPandas plainPandas_documented trending sampleRows _ _ "run.log" _ names rfl
      (simRun_sampleRun tdCho trending sampleRows 3) (among_sampleTriggerLog writable)
    have read : ((parseHoDebugLogs plainPandas [("run.log", some (unlines (sampleTriggerLog trending)))]
        (-trending.ho.servingTrendThreshold) trending.ho.measurementPeriod).map keys).map
          (List.map fun cells => cells.getD 4 .missing) = some [.number 0] := by
      unfold parseHoDebugLogs
      rw [List.foldlM_cons, scanLog]
      dsimp only
      rw [fileLines_unlines writable]
      decide +kernel
    have written : ((loadCsv plainPandas (triggerText (sampleRun tdCho trending sampleRows 3).2.state.log)).map
        keys).map (List.map fun cells => cells.getD 4 .missing) = some [.number 1] := by
      decide +kernel
    rw [SameKeys] at same
    rw [same, written] at read
    cases read
  · intro always
    have names : (recedingFrom "NA").link.PlainNames := by
      unfold Link.PlainNames
      decide +kernel
    have writable : ∀ line ∈ sampleTriggerLog (recedingFrom "NA"), '\n' ∉ line ∧ '\r' ∉ line := by decide +kernel
    have same := @always plainPandas plainPandas_documented (recedingFrom "NA") sampleRows _ _ "run.log" _ names rfl
      (simRun_sampleRun tdCho (recedingFrom "NA") sampleRows 3) (among_sampleTriggerLog writable)
      (by decide +kernel)
    have read : ((parseHoDebugLogs plainPandas [("run.log", some (unlines (sampleTriggerLog (recedingFrom "NA"))))]
        (-(recedingFrom "NA").ho.servingTrendThreshold) (recedingFrom "NA").ho.measurementPeriod).map
          keys).map (List.map fun cells => cells.getD 2 .missing) = some [.text "NA"] := by
      unfold parseHoDebugLogs
      rw [List.foldlM_cons, scanLog]
      dsimp only
      rw [fileLines_unlines writable]
      decide +kernel
    have written : ((loadCsv plainPandas (triggerText
        (sampleRun tdCho (recedingFrom "NA") sampleRows 3).2.state.log)).map keys).map
          (List.map fun cells => cells.getD 2 .missing) = some [.missing] := by
      decide +kernel
    rw [SameKeys] at same
    rw [same, written] at read
    cases read

end NtnCho
