import NtnCho.Frames.Pandas
import NtnCho.Pacing
import NtnCho.Results

/-!
# Joining results to decisions

`merge_handover_frames` of `tools/parse_handover_log.py` looks for the decision of a handover in the
log: the last `[HO_DEBUG]` line of the UE at or before its `[HO_RESULT]`, by the printed times. While a
procedure is in flight the UE prints no `[HO_DEBUG]`, so in the order of printing that line is the one
of the report, `debug_of_run`. By the printed times it is, unless a later tick lies at or before the
printed time of the result, `results_joined`.

The functions of pandas are a parameter. Of a record of the log the keys `ue`, `t` and `sinr_gain` are read
back; a key that a line prints twice has the same value both times.
-/

namespace NtnCho

open EventSystem Frames

variable {env : Env}

/-! ## The frames of a log -/

def LogLine.isTagged (tag : String) : LogLine → Bool
  | .stdout tag' _ => tag' == tag
  | .csv .. => false

/-- The number that a printed number reads back as. -/
def Field.number : Field → Option ℚ
  | .nat n => some n
  | .fixed precision x => some (decimals precision x)
  | _ => none

/-- What a printed value reads back as. -/
def Field.cell : Field → Cell
  | .nat n => .number n
  | .fixed precision x => .number (decimals precision x)
  | .num x => .number x
  | .str s => .text s
  | .empty => .missing

/-- The cell of a line in a column; it is missing in the lines that lack the key. -/
def LogLine.cell (key : String) (line : LogLine) : Cell := ((line.value key).map Field.cell).getD .missing

/-- A row of a frame. -/
structure FrameRow where
  ue : Cell
  t : Cell
  line : LogLine
  deriving DecidableEq

/-- The row of a line, of `records_to_dataframe`. -/
def LogLine.frameRow (pd : Pandas) (line : LogLine) : FrameRow where
  ue := pd.toNumeric (line.cell "ue")
  t := pd.toNumeric (line.cell "t")
  line := line

/-- The frame of the lines with a tag, of `parse_log`. -/
def frame (pd : Pandas) (tag : String) (log : List LogLine) : List FrameRow :=
  (log.filter (LogLine.isTagged tag)).map (LogLine.frameRow pd)

/-- The frame has the column. -/
def hasColumn (key : String) (df : List FrameRow) : Bool := df.any fun row => (row.line.value key).isSome

/-- `_t_debug_td` and `_t_result_td` -/
def FrameRow.td (pd : Pandas) (row : FrameRow) : Cell := pd.toTimedelta row.t

/-- A row of the merged frame: a result with its decision. -/
structure MergedRow where
  result : FrameRow
  debug : Option FrameRow
  isGoodHo : Bool
  deriving DecidableEq

/-- `t_debug` -/
def tDebug (pair : FrameRow × Option FrameRow) : Cell := (pair.2.map FrameRow.t).getD .missing

/-- The merged frame of the results of one UE, if it has decisions. -/
def mergedGroup (pd : Pandas) (tolerance : Option Cell) (debug : List FrameRow)
    (group : Cell × List FrameRow) : Option (List (FrameRow × Option FrameRow)) :=
  let debugGroup := pd.select FrameRow.ue group.1 debug
  if debugGroup.isEmpty then none
  else
    some (pd.mergeAsof tolerance (FrameRow.td pd) (FrameRow.td pd)
      (pd.sortValues (FrameRow.td pd) group.2) (pd.sortValues (FrameRow.td pd) debugGroup))

/-- `sinr_gain` of a merged row; a column of both frames is renamed. -/
def sinrGain (dfDebug dfResult : List FrameRow) (pair : FrameRow × Option FrameRow) : Option Cell :=
  match hasColumn "sinr_gain" dfResult, hasColumn "sinr_gain" dfDebug with
  | true, false => some (pair.1.line.cell "sinr_gain")
  | false, true => some ((pair.2.map fun row => row.line.cell "sinr_gain").getD .missing)
  | _, _ => none

/-- `is_good_ho` -/
def isGoodHo (pd : Pandas) (dfDebug dfResult : List FrameRow) (pair : FrameRow × Option FrameRow) : Bool :=
  match (sinrGain dfDebug dfResult pair).map pd.toNumeric with
  | some (.number gain) => decide (0 < gain)
  | _ => false

def mergeHandoverFrames (pd : Pandas) (dfDebug dfResult : List FrameRow) (useNearestTime : Bool)
    (timeTolerance : Option ℚ) : List MergedRow :=
  if dfDebug.isEmpty || dfResult.isEmpty then []
  else
    let dfHo :=
      if !useNearestTime || !hasColumn "t" dfDebug || !hasColumn "t" dfResult then
        (pd.merge FrameRow.ue FrameRow.ue dfDebug dfResult).map fun pair => (pair.2, some pair.1)
      else
        let debug := dfDebug.map fun row => { row with t := pd.toNumeric row.t }
        let result := dfResult.map fun row => { row with t := pd.toNumeric row.t }
        let debug := pd.dropna [FrameRow.ue, FrameRow.t] debug
        let result := pd.dropna [FrameRow.ue, FrameRow.t] result
        let tolerance := timeTolerance.map fun seconds => pd.toTimedelta (.number seconds)
        let mergedGroups := (pd.groupby false FrameRow.ue result).filterMap (mergedGroup pd tolerance debug)
        if mergedGroups.isEmpty then [] else pd.dropna [tDebug] (pd.concat mergedGroups)
    dfHo.map fun pair =>
      { result := pair.1, debug := pair.2, isGoodHo := isGoodHo pd dfDebug dfResult pair }

/-! ## Frames of printed times -/

/-- The number of the time of a row. -/
def FrameRow.time (row : FrameRow) : ℚ := row.t.value.getD 0

/-- The rows of a UE. -/
def ofUe (i : ℕ) (df : List FrameRow) : List FrameRow := df.filter fun row => decide (row.ue = .number i)

/-- The rows have the number of a UE and a time; the times of one UE increase. -/
structure OfUes (df : List FrameRow) : Prop where
  ue : ∀ row ∈ df, ∃ i : ℕ, row.ue = .number i
  column : ∀ row ∈ df, (row.line.value "t").isSome = true
  timed : ∀ row ∈ df, row.t = .number row.time ∧ Millisecond row.time
  sorted : ∀ i, (ofUe i df).Pairwise fun a b => a.time < b.time

theorem ue_of_mem_ofUe {i : ℕ} {df : List FrameRow} {row : FrameRow} (member : row ∈ ofUe i df) :
    row.ue = .number i := of_decide_eq_true (List.mem_filter.mp member).2

namespace OfUes

variable {pd : Pandas} {df : List FrameRow}

theorem timed_ofUe (rows : OfUes df) {i : ℕ} :
    ∀ row ∈ ofUe i df, row.t = .number row.time ∧ Millisecond row.time :=
  fun row member => rows.timed row (List.mem_filter.mp member).1

theorem hasColumn (rows : OfUes df) (some_row : df ≠ []) : hasColumn "t" df = true := by
  obtain ⟨row, member⟩ := List.exists_mem_of_ne_nil df some_row
  exact List.any_eq_true.mpr ⟨row, member, rows.column row member⟩

/-- The times are numbers as they are. -/
theorem toNumeric (rows : OfUes df) (documented : pd.Documented) :
    (df.map fun row => { row with t := pd.toNumeric row.t }) = df := by
  conv_rhs => rw [← List.map_id df]
  refine List.map_congr_left fun row member => ?_
  rw [(rows.timed row member).1, documented.to_numeric, ← (rows.timed row member).1]
  rfl

/-- No number of a UE and no time is missing. -/
theorem dropna (rows : OfUes df) (documented : pd.Documented) : pd.dropna [FrameRow.ue, FrameRow.t] df = df := by
  rw [documented.dropna]
  refine List.filter_eq_self.mpr fun row member => ?_
  obtain ⟨i, ue⟩ := rows.ue row member
  simp [ue, (rows.timed row member).1]

/-- The rows of a UE are in order. -/
theorem sortValues (rows : OfUes df) (documented : pd.Documented) (i : ℕ) :
    pd.sortValues (FrameRow.td pd) (ofUe i df) = ofUe i df :=
  documented.sortValues_toTimedelta rows.timed_ofUe (rows.sorted i)

end OfUes

section Merge

variable {pd : Pandas} {debug result : List FrameRow}

/-- The merged frame of a UE. -/
theorem mergedGroup_eq (documented : pd.Documented) (debugs : OfUes debug) (results : OfUes result) (i : ℕ) :
    mergedGroup pd none debug (.number i, ofUe i result) =
      if (ofUe i debug).isEmpty then none
      else some ((ofUe i result).map fun row => (row, asOf FrameRow.time (ofUe i debug) row.time)) := by
  have selected : pd.select FrameRow.ue (.number i) debug = ofUe i debug :=
    documented.select FrameRow.ue debug Cell.noConfusion
  unfold mergedGroup
  dsimp only
  rw [selected, results.sortValues documented, debugs.sortValues documented]
  congr 2
  exact documented.mergeAsof_toTimedelta results.timed_ofUe debugs.timed_ofUe (results.sorted i) (debugs.sorted i)

/-- The groups of the other UEs and of no UE have no rows of a UE. -/
theorem filter_mergedGroups (documented : pd.Documented) (debugs : OfUes debug) (results : OfUes result) (i : ℕ) :
    (pd.concat ((pd.groupby false FrameRow.ue result).filterMap (mergedGroup pd none debug))).filter
        (fun pair => decide (pair.1.ue = .number i)) =
      (mergedGroup pd none debug (.number i, ofUe i result)).getD [] := by
  refine documented.filter_concat_groupby (fun row member missing => ?_) (fun value listed made group => ?_)
    fun made group => ?_
  · obtain ⟨j, ue⟩ := results.ue row member
    rw [ue] at missing
    cases missing
  · intro pair member
    obtain ⟨row, own, rfl⟩ := List.mem_map.mp listed
    obtain ⟨j, ue⟩ := results.ue row own
    rw [ue] at group ⊢
    rw [show (result.filter fun a => decide (a.ue = .number j)) = ofUe j result from rfl,
      mergedGroup_eq documented debugs results] at group
    split at group
    · cases group
    · obtain rfl := Option.some.inj group
      obtain ⟨row, own, rfl⟩ := List.mem_map.mp member
      exact ue_of_mem_ofUe own
  · have none : OfUes ([] : List FrameRow) := by constructor <;> intros <;> first | contradiction | exact .nil
    rw [show ([] : List FrameRow) = ofUe i [] from rfl, mergedGroup_eq documented debugs none] at group
    split at group
    · cases group
    · exact (Option.some.inj group).symm

/-- **The merged frame**, when every result of a UE has a decision at or before it. -/
theorem mergeHandoverFrames_ofUe (documented : pd.Documented) (debugs : OfUes debug) (results : OfUes result)
    {i : ℕ} (found : ∀ row ∈ ofUe i result, (asOf FrameRow.time (ofUe i debug) row.time).isSome = true) :
    ((mergeHandoverFrames pd debug result true none).filter fun row => decide (row.result.ue = .number i)).map
        (fun row => (row.result, row.debug)) =
      (ofUe i result).map fun row => (row, asOf FrameRow.time (ofUe i debug) row.time) := by
  have undecided : ofUe i debug = [] → ofUe i result = [] := by
    intro none
    refine List.eq_nil_iff_forall_not_mem.mpr fun row member => ?_
    have partner := found row member
    rw [none] at partner
    cases partner
  unfold mergeHandoverFrames
  by_cases empty : (debug.isEmpty || result.isEmpty) = true
  case pos =>
    have none : ofUe i result = [] := by
      rcases Bool.or_eq_true_iff.mp empty with debugEmpty | resultEmpty
      · exact undecided (by rw [List.isEmpty_iff.mp debugEmpty]; rfl)
      · rw [List.isEmpty_iff.mp resultEmpty]
        rfl
    rw [if_pos empty, none]
    rfl
  case neg =>
    obtain ⟨someDebug, someResult⟩ : debug ≠ [] ∧ result ≠ [] := by simpa using empty
    rw [if_neg empty]
    dsimp only
    rw [debugs.hasColumn someDebug, results.hasColumn someResult, if_neg (by decide),
      debugs.toNumeric documented, results.toNumeric documented, debugs.dropna documented,
      results.dropna documented, Option.map_none]
    have own := filter_mergedGroups documented debugs results i
    have dropped : ∀ groups : List (List (FrameRow × Option FrameRow)),
        (if groups.isEmpty then [] else pd.dropna [tDebug] (pd.concat groups)) =
          (pd.concat groups).filter fun pair => decide (tDebug pair ≠ .missing) := by
      intro groups
      rw [documented.dropna]
      cases groups with
      | nil =>
          rw [documented.concat]
          rfl
      | cons => simp
    rw [dropped, List.filter_map, List.map_map]
    have swap : ∀ pairs : List (FrameRow × Option FrameRow),
        (pairs.filter fun pair => decide (tDebug pair ≠ .missing)).filter
            (fun pair => decide (pair.1.ue = .number i)) =
          (pairs.filter fun pair => decide (pair.1.ue = .number i)).filter
            fun pair => decide (tDebug pair ≠ .missing) := by
      intro pairs
      rw [List.filter_filter, List.filter_filter]
      exact List.filter_congr fun pair _ => Bool.and_comm ..
    refine (List.map_id _).trans ?_
    refine (swap _).trans ?_
    rw [own, mergedGroup_eq documented debugs results]
    split
    · rename_i none
      rw [undecided (List.isEmpty_iff.mp none)]
      rfl
    · refine List.filter_eq_self.mpr fun pair member => ?_
      obtain ⟨row, listed, rfl⟩ := List.mem_map.mp member
      obtain ⟨partner, met⟩ := Option.isSome_iff_exists.mp (found row listed)
      have timed := debugs.timed_ofUe partner (List.mem_filter.mp (List.mem_of_getLast? met)).1
      simp [tDebug, met, timed.1]

end Merge

/-! ## The lines of decisions -/

/-- The line has the tag and the number of UE `i`. -/
def LogLine.isOf (tag : String) (i : ℕ) (line : LogLine) : Bool :=
  line.isTagged tag && decide ((line.value "ue").bind Field.number = some (i : ℚ))

/-- A `[HO_DEBUG]` line of UE `i` on its serving cell and its best neighbour. -/
structure DebugLine (i : ℕ) (time : ℚ) (serving neighbor : String) (a3 : Bool) (line : LogLine) :
    Prop where
  tag : line.isTagged "HO_DEBUG" = true
  ue : line.value "ue" = some (.nat i)
  t : line.value "t" = some (.fixed 3 time)
  serving : line.value "serving" = some (.str serving)
  neighbor : line.value "neighbor" = some (.str neighbor)
  a3 : line.value "a3" = some (.nat (if a3 then 1 else 0))

theorem DebugLine.isOf {i : ℕ} {time : ℚ} {serving neighbor : String} {a3 : Bool} {line : LogLine}
    (debug : DebugLine i time serving neighbor a3 line) : line.isOf "HO_DEBUG" i = true := by
  simp [LogLine.isOf, debug.tag, debug.ue, Field.number]

theorem DebugLine.frameRow {i : ℕ} {time : ℚ} {serving neighbor : String} {a3 : Bool}
    {line : LogLine} (debug : DebugLine i time serving neighbor a3 line) {pd : Pandas}
    (documented : pd.Documented) :
    line.frameRow pd = ⟨.number i, .number (decimals 3 time), line⟩ := by
  simp [LogLine.frameRow, LogLine.cell, debug.ue, debug.t, Field.cell, documented.to_numeric]

namespace TdCho

theorem debugLine_hoDebug {i : ℕ} {simTime servingSnrTrend neighborSnrTrend neighborDistTrend
    dynamicMargin predictedServing predictedNeighbor : ℚ} {a3Trigger : Bool}
    {serving neighbor : MeasResultCell} :
    DebugLine i simTime serving.cellId neighbor.cellId a3Trigger
      (hoDebug i simTime servingSnrTrend neighborSnrTrend neighborDistTrend dynamicMargin
        predictedServing predictedNeighbor a3Trigger serving neighbor) := by
  constructor <;> rfl

theorem debug_evaluateBest (env : Env) (i : ℕ) (simTime : ℚ) (ue : UeInfo)
    (serving neighbor : MeasResultCell) {scan : NeighborScan} (scanned : recordLines scan.records = []) :
    ∃ line, (recordLines (evaluateBest env i simTime ue serving neighbor scan).records).filter
        (LogLine.isOf "HO_DEBUG" i) = [line] ∧
      DebugLine i simTime serving.cellId neighbor.cellId
        (evaluateBest env i simTime ue serving neighbor scan).triggerConditionMet line := by
  have row : ∀ {p : Prop} [Decidable p] {a b c d e : ℚ},
      ((if p then servingTrigger i simTime a b c d e serving neighbor else []).filterMap
        RecordEffect.line).filter (LogLine.isOf "HO_DEBUG" i) = [] := by
    intro p _ a b c d e
    split <;> rfl
  unfold evaluateBest ueEvaluateNtnTriggers
  dsimp only
  rw [Bool.false_or]
  apply Exists.intro
  constructor
  · rw [recordLines, List.filterMap_append, List.filterMap_append,
      show scan.records.filterMap RecordEffect.line = [] from scanned, List.nil_append,
      List.filter_append, row, List.nil_append]
    exact List.filter_cons_of_pos (debugLine_hoDebug (i := i)).isOf
  · exact debugLine_hoDebug

/-- An evaluation prints `[HO_DEBUG]` once, when there is a best neighbour. -/
theorem debug_evaluation (env : Env) (i : ℕ) (simTime : ℚ) (ue : UeInfo) (serving : MeasResultCell)
    (measurements : List MeasResultCell) :
    ((tdCho.evaluateNeighbors env i simTime ue serving measurements).triggerConditionMet = false ∧
      (recordLines (tdCho.evaluateNeighbors env i simTime ue serving measurements).records).filter
        (LogLine.isOf "HO_DEBUG" i) = []) ∨
    ∃ neighbor line,
      (tdCho.evaluateNeighbors env i simTime ue serving measurements).bestNeighbor =
        some neighbor ∧
      (recordLines (tdCho.evaluateNeighbors env i simTime ue serving measurements).records).filter
        (LogLine.isOf "HO_DEBUG" i) = [line] ∧
      DebugLine i simTime serving.cellId neighbor.cellId
        (tdCho.evaluateNeighbors env i simTime ue serving measurements).triggerConditionMet line := by
  have scanned := recordLines_scanNeighbors env i simTime ue measurements
  simp only [tdCho, evaluateNeighbors]
  cases (scanNeighbors env i simTime ue measurements).bestNeighbor with
  | none =>
      refine .inl ⟨rfl, ?_⟩
      dsimp only
      rw [scanned]
      rfl
  | some neighbor =>
      obtain ⟨line, printed, debug⟩ := debug_evaluateBest env i simTime ue serving neighbor scanned
      exact .inr ⟨neighbor, line, rfl, printed, debug⟩

end TdCho

/-! ## The decision of a tick -/

theorem isOf_choTriggerProcedure {P : Program} {i j : ℕ} {simTime : ℚ} {report : MeasurementReport}
    {ue : UeInfo} {tag : String} :
    (lines (choTriggerProcedure P i simTime report ue).2).filter (LogLine.isOf tag j) = [] := by
  unfold choTriggerProcedure
  split <;> rfl

theorem isOf_choPhase6UeExecutes {P : Program} {i j : ℕ} {simTime : ℚ}
    {sourceCell targetCell : String} {ue : UeInfo} {tag : String} :
    (lines (choPhase6UeExecutes P env i sourceCell targetCell simTime ue).2).filter
      (LogLine.isOf tag j) = [] := by
  unfold choPhase6UeExecutes
  split <;> rfl

theorem isOf_measureAndReport {i j : ℕ} {simTime : ℚ} {due : UeInfo} {tag : String} :
    (lines (measureAndReport tdCho env i simTime due).2).filter (LogLine.isOf tag j) =
      (recordLines (ueEvaluateAndReport tdCho env i simTime due).2.2).filter
        (LogLine.isOf tag j) := by
  rw [lines_measureAndReport rfl, List.filter_append]
  split
  · rw [List.filter_nil, List.append_nil]
  · rw [isOf_choTriggerProcedure, List.append_nil]

/-- The decision that a tick prints, with the report that it may make. -/
structure PrintedDecision (i : ℕ) (simTime : ℚ) (report : Option MeasurementReport)
    (line : LogLine) : Prop where
  debug : ∃ serving neighbor a3, DebugLine i simTime serving neighbor a3 line
  reported : ∀ r ∈ report, DebugLine i simTime r.servingCell.cellId
    ((r.neighborCells.head?.map MeasResultCell.cellId).getD "") true line

/-- A measurement prints at most one decision, and one when it makes a report that is none of a
failure. -/
theorem debug_ueEvaluateAndReport (env : Env) (i : ℕ) (simTime : ℚ) (due : UeInfo) :
    ((recordLines (ueEvaluateAndReport tdCho env i simTime due).2.2).filter
        (LogLine.isOf "HO_DEBUG" i) = [] ∧
      ∀ report ∈ (ueEvaluateAndReport tdCho env i simTime due).2.1, report.eventType = "RLF") ∨
    ∃ line, (recordLines (ueEvaluateAndReport tdCho env i simTime due).2.2).filter
        (LogLine.isOf "HO_DEBUG" i) = [line] ∧
      PrintedDecision i simTime (ueEvaluateAndReport tdCho env i simTime due).2.1 line := by
  rcases ueEvaluateAndReport_cases tdCho env i simTime due with
    ⟨-, unserved⟩ | ⟨-, failed⟩ | ⟨serving, -, evaluated⟩
  · rw [unserved]
    exact .inl ⟨rfl, fun report member => by cases member⟩
  · rw [failed]
    refine .inl ⟨rfl, fun report member => ?_⟩
    obtain rfl := Option.some.inj member
    rfl
  · rw [evaluated]
    have printed := TdCho.debug_evaluation env i simTime (due.measured serving) serving
      (uePerformMeasurements (tdCho.snrFloor env.ho) env simTime due)
    change (due.evaluation tdCho env i simTime serving).triggerConditionMet = false ∧
      (recordLines (due.evaluation tdCho env i simTime serving).records).filter _ = [] ∨
      ∃ neighbor line, (due.evaluation tdCho env i simTime serving).bestNeighbor = some neighbor ∧
        (recordLines (due.evaluation tdCho env i simTime serving).records).filter _ = [line] ∧
        DebugLine i simTime serving.cellId neighbor.cellId
          (due.evaluation tdCho env i simTime serving).triggerConditionMet line at printed
    generalize due.evaluation tdCho env i simTime serving = evaluation at printed ⊢
    rcases printed with ⟨unmet, none⟩ | ⟨neighbor, line, best, one, debug⟩
    · refine .inl ⟨none, fun report member => ?_⟩
      rcases timeToTrigger_cases tdCho simTime serving evaluation (due.evaluated evaluation) with
        ⟨met, -⟩ | ⟨met, -⟩ | ⟨-, resets⟩
      · rw [unmet] at met
        cases met
      · rw [unmet] at met
        cases met
      · rw [resets] at member
        cases member
    · refine .inr ⟨line, one, ⟨_, _, _, debug⟩, fun report member => ?_⟩
      rcases timeToTrigger_cases tdCho simTime serving evaluation (due.evaluated evaluation) with
        ⟨-, starts⟩ | ⟨met, -, -, ⟨-, reports⟩ | waits⟩ | ⟨-, resets⟩
      · rw [starts] at member
        cases member
      · rw [reports] at member
        obtain rfl := Option.some.inj member
        rw [met] at debug
        simpa [measurementReport, best] using debug
      · rw [waits] at member
        cases member
      · rw [resets] at member
        cases member

/-- A tick prints at most one decision, of an idle UE, and one when it makes a report that is none of a
failure. -/
theorem debug_ueTick (env : Env) (i : ℕ) (simTime : ℚ) (ue : UeInfo) :
    ((lines (ueTick tdCho env i simTime ue).2).filter (LogLine.isOf "HO_DEBUG" i) = [] ∧
      ∀ report ∈ tickReport tdCho env i simTime ue, report.eventType = "RLF") ∨
    ∃ line, (lines (ueTick tdCho env i simTime ue).2).filter (LogLine.isOf "HO_DEBUG" i) = [line] ∧
      ue.choProcState.phase = .idle ∧
      PrintedDecision i simTime (tickReport tdCho env i simTime ue) line := by
  unfold tickReport
  rcases lines_ueTick tdCho env i simTime ue with
    ⟨unmeasured, none | ⟨ue₁, sourceCell, targetCell, executes⟩⟩ | ⟨due, measured, measures⟩
  · rw [unmeasured, none]
    exact .inl ⟨rfl, fun report member => by cases member⟩
  · rw [unmeasured, executes, isOf_choPhase6UeExecutes]
    exact .inl ⟨rfl, fun report member => by cases member⟩
  · have idle : ue.choProcState.phase = .idle := by
      rw [← (sameProcedure_updated tdCho env simTime ue).choProcState]
      exact (UeInfo.due?_eq_some measured).2.1
    rw [measured, Option.bind_some, measures, isOf_measureAndReport]
    rcases debug_ueEvaluateAndReport env i simTime due with unprinted | ⟨line, printed, decision⟩
    · exact .inl unprinted
    · exact .inr ⟨line, printed, idle, decision⟩

/-! ## The lines of a UE -/

theorem isOf_cons (tag tag' : String) (i j : ℕ) (rest : List (String × Field)) :
    (LogLine.stdout tag' (("ue", .nat j) :: rest)).isOf tag i = (tag' == tag && j == i) := by
  have same : decide ((j : ℚ) = i) = (j == i) := by
    rw [Bool.eq_iff_iff]
    simp
  rw [← same]
  simp [LogLine.isOf, LogLine.isTagged, LogLine.value, Field.number]

theorem ownLines_isOf {tag : String} (i : ℕ) (other : tag ≠ "FUTURE_DEBUG") :
    OwnLines tdCho env i (LogLine.isOf tag i) where
  others differs member := by
    cases prints_of_mem member with
    | early printed =>
        cases printed with
        | evaluation recorded =>
            rcases TdCho.mem_records recorded with ⟨fields, rfl⟩ | ⟨rest, rfl⟩
            · rfl
            · simp [isOf_cons, differs]
        | row => rfl
    | success => rfl
    | result rest => simp [isOf_cons, differs]
    | complete rest => simp [isOf_cons, differs]
    | failure time reason ue => exact (isOf_cons ..).trans (by simp [differs])
  validation := rfl
  followup := rfl
  future := by
    intro fields
    simp [LogLine.isOf, LogLine.isTagged, other.symm]

/-- Among the lines of TD-CHO the results of a UE are those with the tag and its number. -/
theorem isOf_result {i j : ℕ} {line : LogLine} (printed : tdCho.Prints env j line) :
    line.isOf "HO_RESULT" i = line.isResultOf i := by
  cases printed with
  | early early =>
      cases early with
      | evaluation recorded =>
          rcases TdCho.mem_records recorded with ⟨fields, rfl⟩ | ⟨rest, rfl⟩ <;> rfl
      | row => rfl
  | success => rfl
  | result rest => exact (isOf_cons ..).trans (by simp [LogLine.isResultOf])
  | complete => rfl
  | failure => rfl

theorem prints_of_mem_printed {P : Program} {i : ℕ} {h : List (Firing ℤ (Option UeInfo) Event)}
    {line : LogLine} (member : line ∈ printed P env i h) : P.Prints env i line := by
  obtain ⟨f, -, printed⟩ := List.mem_flatMap.mp member
  unfold printedBy at printed
  split at printed
  · cases printed
  · exact prints_of_mem printed

section Run

variable {ok : Policy ℤ Event} {i : ℕ} {rows : List UeRow}
  {h : List (Firing ℤ (Option UeInfo) Event)} {c : Conf ℤ (Option UeInfo) Event} {ue : UeInfo}

theorem filter_isOf_result (run : Run (ueHandler tdCho env i) ok (ueInitial env rows i) h c) :
    (printed tdCho env i h).filter (LogLine.isOf "HO_RESULT" i) = resultsAfter env i none h := by
  rw [← filter_printed_results run]
  exact List.filter_congr fun line member => isOf_result (prints_of_mem_printed member)

/-- The decisions that a history prints. -/
def debugs (env : Env) (i : ℕ) (h : List (Firing ℤ (Option UeInfo) Event)) : List LogLine :=
  (printed tdCho env i h).filter (LogLine.isOf "HO_DEBUG" i)

theorem debugs_append (h h' : List (Firing ℤ (Option UeInfo) Event)) :
    debugs env i (h ++ h') = debugs env i h ++ debugs env i h' := by
  simp [debugs, printed]

theorem debugs_cons (f : Firing ℤ (Option UeInfo) Event)
    (h : List (Firing ℤ (Option UeInfo) Event)) :
    debugs env i (f :: h) = debugs env i [f] ++ debugs env i h := debugs_append [f] h

theorem debugs_singleton {f : Firing ℤ (Option UeInfo) Event} (present : f.before.state = some ue) :
    debugs env i [f] =
      (lines (ueAction tdCho env i f.event.ev f.event.ts ue).2).filter
        (LogLine.isOf "HO_DEBUG" i) := by
  simp [debugs, printed, printedBy, present]

/-- The phases of a procedure print no decision. -/
theorem debugs_choHandler (handler : ChoHandler) (ueId : ℕ) (sourceCell targetCell : String)
    (simTime : ℚ) (ue : UeInfo) :
    (lines (choHandler tdCho env handler ueId sourceCell targetCell simTime ue).2).filter
      (LogLine.isOf "HO_DEBUG" i) = [] := by
  have none := @ofEvaluation_choHandler env handler ueId sourceCell targetCell simTime ue
  refine List.filter_eq_nil_iff.mpr fun line member => ?_
  have other := List.filter_eq_nil_iff.mp none line member
  cases line with
  | csv => exact Bool.false_ne_true
  | stdout tag fields =>
      have tag : (tag == "HO_DEBUG") = false := by simpa [LogLine.ofEvaluation] using other
      simp [LogLine.isOf, LogLine.isTagged, tag]

/-- A firing that prints a decision is a tick of an idle UE, and prints one. -/
theorem debugs_firing {f : Firing ℤ (Option UeInfo) Event} {line : LogLine}
    (member : line ∈ debugs env i [f]) :
    f.event.ev = .checkHandoverConditions ∧ debugs env i [f] = [line] ∧
      ∃ ue, f.before.state = some ue ∧ ue.choProcState.phase = .idle ∧
        PrintedDecision i (fireTime f) (tickReport tdCho env i (fireTime f) ue) line := by
  cases present : f.before.state with
  | none => simp [debugs, printed, printedBy, present] at member
  | some ue =>
      rw [debugs_singleton present] at member ⊢
      cases event : f.event.ev with
      | checkHandoverConditions =>
          rw [event, ueAction_tick] at member
          rw [ueAction_tick]
          rcases debug_ueTick env i (getSeconds f.event.ts) ue with
            ⟨none, -⟩ | ⟨printed, one, idle, decision⟩
          · rw [none] at member
            cases member
          · rw [one] at member
            obtain rfl := List.mem_singleton.mp member
            exact ⟨rfl, one, ue, rfl, idle, decision⟩
      | cho handler ueId sourceCell targetCell =>
          rw [event, ueAction_cho, debugs_choHandler] at member
          cases member
      | evaluatePendingPrediction =>
          rw [event] at member
          cases member

/-- The decision on the procedure of a UE, printed by the tick `g` that made its report. -/
structure DecidedBy (env : Env) (i : ℕ) (report : MeasurementReport) (s : UeChoProcedureState)
    (g : Firing ℤ (Option UeInfo) Event) (line : LogLine) : Prop where
  reported : reportOf tdCho env i g = some report
  printed : debugs env i [g] = [line]
  time : fireTime g = s.procedureStartTime
  debug : DebugLine i s.procedureStartTime s.sourceCell s.targetCell true line

theorem DecidedBy.of_same {report : MeasurementReport} {s s' : UeChoProcedureState}
    {g : Firing ℤ (Option UeInfo) Event} {line : LogLine} (decided : DecidedBy env i report s g line)
    (same : SameDecision s s') : DecidedBy env i report s' g line where
  reported := decided.reported
  printed := decided.printed
  time := by rw [same.procedureStartTime, decided.time]
  debug := by
    rw [same.procedureStartTime, same.sourceCell, same.targetCell]
    exact decided.debug

/-- In the order of printing, the last decision before a point in a procedure from a report of a
time-to-trigger window is the decision on it. -/
theorem debug_of_run (run : Run (ueHandler tdCho env i) ok (ueInitial env rows i) h c)
    (present : c.state = some ue) (busy : ue.choProcState.phase ≠ .idle)
    {report : MeasurementReport} (started : startReport tdCho env i h = some report)
    (window : report.eventType = "CHO_PREP") :
    ∃ h₁ g h₂ line, h = h₁ ++ g :: h₂ ∧ debugs env i h₂ = [] ∧
      DecidedBy env i report ue.choProcState g line := by
  refine ueRun_history (I := fun h _ ue => ue.choProcState.phase ≠ .idle →
    startReport tdCho env i h = some report → ∃ h₁ g h₂ line, h = h₁ ++ g :: h₂ ∧
      debugs env i h₂ = [] ∧ DecidedBy env i report ue.choProcState g line) run
    (fun _ busy => absurd rfl busy) ?_ present busy started
  intro h c p c' ue prior step present concerns ih busy started
  rw [startReport_snoc] at started
  -- a firing that keeps the procedure and prints no decision
  have goes_on : ∀ {ue' : UeInfo}, ue.choProcState.phase ≠ .idle →
      reportOf tdCho env i ⟨c, p, c'⟩ = none → SameDecision ue.choProcState ue'.choProcState →
      ∃ h₁ g h₂ line, h ++ [⟨c, p, c'⟩] = h₁ ++ g :: h₂ ∧ debugs env i h₂ = [] ∧
        DecidedBy env i report ue'.choProcState g line := by
    intro ue' before unreported same
    rw [unreported] at started
    obtain ⟨h₁, g, h₂, line, split, none, decided⟩ := ih before started
    refine ⟨h₁, g, h₂ ++ [⟨c, p, c'⟩], line, by rw [split]; simp, ?_, decided.of_same same⟩
    rw [debugs_append, none, List.nil_append]
    refine List.eq_nil_iff_forall_not_mem.mpr fun line member => ?_
    obtain ⟨-, -, ue₀, present₀, idle, -⟩ := debugs_firing member
    obtain rfl := Option.some.inj (present.symm.trans present₀)
    exact before idle
  rcases p with ⟨ts, _ | ⟨handler, ueId, sourceCell, targetCell⟩ | _⟩
  · rw [ueAction_tick] at busy ⊢
    have seen : reportOf tdCho env i ⟨c, ⟨ts, .checkHandoverConditions⟩, c'⟩ =
        tickReport tdCho env i (getSeconds ts) ue := by
      simp [reportOf, present, fireTime]
    rcases ueTick_report (P := tdCho) rfl env i (getSeconds ts) ue with
      ⟨none, before, action⟩ | ⟨-, -, idle⟩ | ⟨due, report', measured, reported, tick, triggers⟩
    · have procedure := (sameProcedure_updated tdCho env (getSeconds ts) ue).choProcState
      have same := action.sameDecision (by rwa [procedure])
      rw [procedure] at same
      exact goes_on before (seen.trans none) same
    · exact absurd idle busy
    · rw [seen, tick] at started
      obtain rfl := Option.some.inj started
      have idle := (onlyMeasured_of_due measured).phase.trans (UeInfo.due?_eq_some measured).2.1
      have idle₁ := (onlyMeasured_ueEvaluateAndReport tdCho env i (getSeconds ts) due).phase.trans idle
      obtain ⟨start, -⟩ := choTriggerProcedure_decision tdCho i (getSeconds ts) report' idle₁
      obtain ⟨source, target⟩ := choTriggerProcedure_cells tdCho i (getSeconds ts) report' idle₁
      rcases debug_ueTick env i (getSeconds ts) ue with ⟨-, failure⟩ | ⟨line, printed, -, decision⟩
      · rw [failure report' tick] at window
        exact absurd window (by decide)
      · refine ⟨h, ⟨c, ⟨ts, .checkHandoverConditions⟩, c'⟩, [], line, rfl, rfl, ?_⟩
        rw [triggers]
        refine ⟨seen.trans tick, ?_, start.symm, ?_⟩
        · rw [debugs_singleton (f := ⟨c, ⟨ts, .checkHandoverConditions⟩, c'⟩) present]
          exact printed
        · rw [start, source, target]
          exact decision.reported report' tick
  · rw [ueAction_cho] at busy ⊢
    obtain ⟨rfl, guard, -⟩ := guard_of_step prior step present
    exact goes_on (by rw [guard]; cases handler <;> decide) rfl (sameDecision_choHandler ..)
  · cases concerns

/-! ## The rows of a UE -/

theorem mem_debugs {line : LogLine} :
    line ∈ debugs env i h ↔ ∃ g ∈ h, line ∈ debugs env i [g] := by
  simp [debugs, printed, and_assoc, ← exists_and_right]

/-- The row of a decision, which falls on a whole second. -/
theorem frameRow_of_debug (run : Run (ueHandler tdCho env i) ok (ueInitial env rows i) h c)
    {g : Firing ℤ (Option UeInfo) Event} (member : g ∈ h) {line : LogLine}
    (printed : line ∈ debugs env i [g]) {pd : Pandas} (documented : pd.Documented) :
    line.frameRow pd = ⟨.number i, .number (fireTime g), line⟩ := by
  obtain ⟨tick, -, ue, -, -, ⟨serving, neighbor, a3, debug⟩, -⟩ := debugs_firing printed
  obtain ⟨n, whole⟩ := fireTime_eq_natCast run (mem_ticks.mpr ⟨member, tick⟩)
  rw [debug.frameRow documented, whole, decimals_natCast]

theorem frameRow_resultLine {pd : Pandas} (documented : pd.Documented) (time : ℚ) (ue : UeInfo) :
    (resultLine i time ue).frameRow pd =
      ⟨.number i, .number (decimals 3 time), resultLine i time ue⟩ := by
  simp [LogLine.frameRow, LogLine.cell, LogLine.value, resultLine, List.lookup_cons, Field.cell,
    documented.to_numeric]

theorem mem_resultsOf {f : Firing ℤ (Option UeInfo) Event} {line : LogLine}
    (member : line ∈ resultsOf env i f) :
    ∃ ue pair, f.before.state = some ue ∧ handoverOf env f = some pair ∧
      line = resultLine i (fireTime f) ue := by
  unfold resultsOf at member
  split at member
  · cases member
  · rename_i pair handed
    cases present : f.before.state with
    | none => simp [present] at member
    | some ue => exact ⟨ue, pair, rfl, handed, by simpa [present] using member⟩

/-- A result is printed by a successful handover of a procedure of a time-to-trigger window. -/
theorem mem_resultsAfter {report : Option MeasurementReport} {line : LogLine}
    (member : line ∈ resultsAfter env i report h) :
    ∃ h₁ f h₂, h = h₁ ++ f :: h₂ ∧ regular ((startReport tdCho env i h₁).or report) = true ∧
      line ∈ resultsOf env i f := by
  induction h generalizing report with
  | nil => cases member
  | cons f h ih =>
      rcases List.mem_append.mp member with now | later
      · split at now
        · rename_i window
          exact ⟨[], f, h, rfl, window, now⟩
        · cases now
      · obtain ⟨h₁, g, h₂, rfl, window, printed⟩ := ih later
        refine ⟨f :: h₁, g, h₂, rfl, ?_, printed⟩
        rwa [startReport_cons, Option.or_assoc]

theorem regular_eq_true {report : Option MeasurementReport} :
    regular report = true ↔ ∃ r, report = some r ∧ r.eventType = "CHO_PREP" := by
  cases report <;> simp [regular]

theorem result_of_printedBy (run : Run (ueHandler tdCho env i) ok (ueInitial env rows i) h c)
    {f : Firing ℤ (Option UeInfo) Event} (member : f ∈ h) {line : LogLine}
    (printed : line ∈ (printedBy tdCho env i f).filter (LogLine.isOf "HO_RESULT" i)) :
    (printedBy tdCho env i f).filter (LogLine.isOf "HO_RESULT" i) = [line] ∧
      ∃ ue pair, handoverOf env f = some pair ∧ line = resultLine i (fireTime f) ue := by
  obtain ⟨h₁, h₂, split⟩ := List.append_of_mem member
  rw [split] at run
  obtain ⟨prior, step⟩ := run.split
  have same : (printedBy tdCho env i f).filter (LogLine.isOf "HO_RESULT" i) =
      (printedBy tdCho env i f).filter (LogLine.isResultOf i) := by
    refine List.filter_congr fun line own => ?_
    have prints : tdCho.Prints env i line :=
      prints_of_mem_printed (List.mem_flatMap.mpr ⟨f, List.mem_singleton_self f, own⟩)
    exact isOf_result prints
  rw [same, results_printedBy prior step] at printed ⊢
  split at printed
  · rename_i window
    obtain ⟨ue, pair, present, handed, rfl⟩ := mem_resultsOf printed
    rw [if_pos window]
    refine ⟨?_, ue, pair, handed, rfl⟩
    simp [resultsOf, handed, present]
  · cases printed

/-! ### The order of the rows -/

theorem isCompletion_of_handoverOf {f : Firing ℤ (Option UeInfo) Event} {pair : String × String}
    (handed : handoverOf env f = some pair) : f.event.ev.isCompletion = true := by
  unfold handoverOf at handed
  split at handed
  · rename_i event
    rw [event]
    rfl
  · cases handed

/-- A procedure that completes began two seconds before, and after the completions before it. -/
theorem exists_start {c' : Conf ℤ (Option UeInfo) Event} {p : Pending ℤ Event}
    (prior : Run (ueHandler tdCho env i) fifo (ueInitial env rows i) h c)
    (step : Step (ueHandler tdCho env i) fifo c p c') (completes : p.ev.isCompletion = true) :
    ∃ n : ℕ, ((n + 2 : ℕ) : ℚ) ≤ getSeconds p.ts ∧
      ∀ g ∈ h, g.event.ev.isCompletion = true → fireTime g ≤ n := by
  obtain ⟨ue, present, executing, phase⟩ := completion_of_step prior step completes
  have paced := paced_of_run TdCho.lawful prior present
  have busy : ue.choProcState.phase ≠ .idle := by
    rw [executing]
    exact ChoPhase.noConfusion
  obtain ⟨n, start, -⟩ := paced.started busy
  refine ⟨n, ?_, fun g member earlier => ?_⟩
  · have long := paced.executing executing p step.mem_queue phase
    have least := le_max_left (1 : ℚ) env.ho.choNtnConfig.executionTimeToTrigger
    unfold minHandoverTime at long
    push_cast
    linarith
  · rw [← start]
    exact paced.ended busy g member earlier

/-- In a run the rows of a tag increase when each firing has one and they increase from firing to firing. -/
theorem increasing_rows {pd : Pandas} {tag : String}
    (run : Run (ueHandler tdCho env i) fifo (ueInitial env rows i) h c)
    (once : ∀ f ∈ h, ∀ line ∈ (printedBy tdCho env i f).filter (LogLine.isOf tag i),
      (printedBy tdCho env i f).filter (LogLine.isOf tag i) = [line])
    (later : ∀ {h c p c'}, Run (ueHandler tdCho env i) fifo (ueInitial env rows i) h c →
      Step (ueHandler tdCho env i) fifo c p c' → ∀ g ∈ h,
        ∀ line ∈ (printedBy tdCho env i g).filter (LogLine.isOf tag i),
        ∀ line' ∈ (printedBy tdCho env i ⟨c, p, c'⟩).filter (LogLine.isOf tag i),
          (line.frameRow pd).time < (line'.frameRow pd).time) :
    (((printed tdCho env i h).filter (LogLine.isOf tag i)).map (LogLine.frameRow pd)).Pairwise
      fun a b => a.time < b.time := by
  have firings : h.Pairwise fun g f => ∀ line ∈ (printedBy tdCho env i g).filter (LogLine.isOf tag i),
      ∀ line' ∈ (printedBy tdCho env i f).filter (LogLine.isOf tag i),
        (line.frameRow pd).time < (line'.frameRow pd).time := by
    induction run with
    | nil => exact .nil
    | @snoc h c c' p prior step ih =>
        refine List.pairwise_append.mpr ⟨ih fun f member => once f (List.mem_append_left _ member),
          List.pairwise_singleton .., fun g member f new => ?_⟩
        obtain rfl := List.mem_singleton.mp new
        exact later prior step g member
  unfold printed
  rw [List.filter_flatMap, List.pairwise_map, List.pairwise_flatMap]
  refine ⟨fun f member => ?_, firings⟩
  cases lines : (printedBy tdCho env i f).filter (LogLine.isOf tag i) with
  | nil => exact .nil
  | cons line rest =>
      have single := once f member line (by simp [lines])
      rw [← lines, single]
      exact List.pairwise_singleton ..

theorem debugs_singleton_eq (f : Firing ℤ (Option UeInfo) Event) :
    debugs env i [f] = (printedBy tdCho env i f).filter (LogLine.isOf "HO_DEBUG" i) := by
  simp [debugs, printed]

theorem increasing_debugs {pd : Pandas} (documented : pd.Documented)
    (run : Run (ueHandler tdCho env i) fifo (ueInitial env rows i) h c) :
    ((debugs env i h).map (LogLine.frameRow pd)).Pairwise fun a b => a.time < b.time := by
  refine increasing_rows run (fun f member line printed => ?_)
    fun {h c p c'} prior step g member line printed line' printed' => ?_
  · rw [← debugs_singleton_eq] at printed ⊢
    exact (debugs_firing printed).2.1
  · rw [← debugs_singleton_eq] at printed printed'
    rw [frameRow_of_debug prior member printed documented,
      frameRow_of_debug (prior.snoc step) (by simp) printed' documented]
    have apart := tick_add_one_le prior step.mem_queue (debugs_firing printed').1
      (mem_ticks.mpr ⟨member, (debugs_firing printed).1⟩)
    change fireTime g < getSeconds p.ts
    unfold fireTime
    linarith

theorem increasing_results {pd : Pandas} (documented : pd.Documented)
    (run : Run (ueHandler tdCho env i) fifo (ueInitial env rows i) h c) :
    ((resultsAfter env i none h).map (LogLine.frameRow pd)).Pairwise fun a b => a.time < b.time := by
  rw [← filter_isOf_result run]
  refine increasing_rows run (fun f member line printed => (result_of_printedBy run member printed).1)
    fun {h c p c'} prior step g member line printed line' printed' => ?_
  obtain ⟨-, ue, pair, handed, rfl⟩ := result_of_printedBy prior member printed
  obtain ⟨-, ue', pair', handed', rfl⟩ := result_of_printedBy (prior.snoc step) (by simp) printed'
  rw [frameRow_resultLine documented, frameRow_resultLine documented]
  obtain ⟨n, long, ended⟩ := exists_start prior step (isCompletion_of_handoverOf handed')
  have before := decimals_mono 3 (ended g member (isCompletion_of_handoverOf handed))
  rw [decimals_natCast] at before
  have after := natCast_le_decimals 3 long
  push_cast at after
  change decimals 3 (fireTime g) < decimals 3 (getSeconds p.ts)
  linarith

/-- Decisions fall on whole seconds, which printing does not move: those before an event have times at or
before its printed one. -/
theorem debugs_time_le {pd : Pandas} (documented : pd.Documented) {f : Firing ℤ (Option UeInfo) Event}
    {c' : Conf ℤ (Option UeInfo) Event} (prior : Run (ueHandler tdCho env i) fifo (ueInitial env rows i) h c)
    (step : Step (ueHandler tdCho env i) fifo c f.event c') {row : FrameRow}
    (member : row ∈ (debugs env i h).map (LogLine.frameRow pd)) : row.time ≤ decimals 3 (fireTime f) := by
  obtain ⟨line, listed, rfl⟩ := List.mem_map.mp member
  obtain ⟨tick, fired, printed⟩ := mem_debugs.mp listed
  rw [frameRow_of_debug prior fired printed documented]
  obtain ⟨n, whole⟩ := fireTime_eq_natCast prior (mem_ticks.mpr ⟨fired, (debugs_firing printed).1⟩)
  have before := ueRun_times_le TdCho.lawful prior step fired
  rw [show getSeconds tick.event.ts = n from whole] at before
  change fireTime tick ≤ _
  rw [whole]
  exact natCast_le_decimals 3 before

/-- By the printed times, the decision on a handover is among those at or before its result, and is the
last of them when no later tick is. -/
theorem asOf_result {pd : Pandas} (documented : pd.Documented) {f : Firing ℤ (Option UeInfo) Event}
    {h₁ h₂ : List (Firing ℤ (Option UeInfo) Event)}
    (run : Run (ueHandler tdCho env i) fifo (ueInitial env rows i) (h₁ ++ f :: h₂) c)
    (present : f.before.state = some ue) {report : MeasurementReport}
    (started : startReport tdCho env i h₁ = some report) (window : report.eventType = "CHO_PREP")
    {pair : String × String} (handed : handoverOf env f = some pair) :
    ∃ g ∈ h₁, ∃ line, DecidedBy env i report ue.choProcState g line ∧
      (asOf FrameRow.time ((debugs env i (h₁ ++ f :: h₂)).map (LogLine.frameRow pd))
        (decimals 3 (fireTime f))).isSome = true ∧
      ((∀ tick ∈ h₂, tick.event.ev = .checkHandoverConditions →
          decimals 3 (fireTime f) < fireTime tick) →
        asOf FrameRow.time ((debugs env i (h₁ ++ f :: h₂)).map (LogLine.frameRow pd))
          (decimals 3 (fireTime f)) =
            some ⟨.number i, .number ue.choProcState.procedureStartTime, line⟩) := by
  obtain ⟨prior, step⟩ := run.split
  obtain ⟨flight, -⟩ := inFlight_of_handoverOf TdCho.lawful prior step handed
  obtain ⟨ue₀, present₀, executing, -⟩ := flight.procedure
  obtain rfl := Option.some.inj (present.symm.trans present₀)
  have busy : ue.choProcState.phase ≠ .idle := by
    rw [executing]
    decide
  obtain ⟨h₃, g, h₄, line, rfl, none, decided⟩ := debug_of_run prior present busy started window
  have printed : line ∈ debugs env i [g] := by
    rw [decided.printed]
    exact List.mem_singleton_self line
  have row : line.frameRow pd = ⟨.number i, .number ue.choProcState.procedureStartTime, line⟩ := by
    rw [← decided.time]
    exact frameRow_of_debug run (by simp) printed documented
  have quiet : debugs env i [f] = [] := by
    refine List.eq_nil_iff_forall_not_mem.mpr fun line member => ?_
    obtain ⟨-, -, ue₀, present₀, idle, -⟩ := debugs_firing member
    obtain rfl := Option.some.inj (present.symm.trans present₀)
    exact busy idle
  have rowsBefore : (debugs env i (h₃ ++ g :: h₄)).map (LogLine.frameRow pd) =
      (debugs env i h₃).map (LogLine.frameRow pd) ++
        [⟨.number i, .number ue.choProcState.procedureStartTime, line⟩] := by
    rw [debugs_append, debugs_cons, decided.printed, none, List.append_nil, List.map_append,
      List.map_cons, row, List.map_nil]
  have split : (debugs env i ((h₃ ++ g :: h₄) ++ f :: h₂)).map (LogLine.frameRow pd) =
      (debugs env i (h₃ ++ g :: h₄)).map (LogLine.frameRow pd) ++
        (debugs env i h₂).map (LogLine.frameRow pd) := by
    rw [debugs_append, debugs_cons f, quiet, List.nil_append, List.map_append]
  have le : ∀ row ∈ (debugs env i (h₃ ++ g :: h₄)).map (LogLine.frameRow pd),
      row.time ≤ decimals 3 (fireTime f) := fun row => debugs_time_le documented prior step
  refine ⟨g, by simp, line, decided, ?_, fun later => ?_⟩
  · rw [split, rowsBefore]
    have listed : (⟨.number i, .number ue.choProcState.procedureStartTime, line⟩ : FrameRow) ∈
        (debugs env i (h₃ ++ g :: h₄)).map (LogLine.frameRow pd) := by
      rw [rowsBefore]
      simp
    exact asOf_isSome (List.mem_append_left _ (List.mem_append_right _ (List.mem_singleton_self _)))
      (le _ listed)
  · rw [split, asOf_append le, rowsBefore, List.getLast?_concat]
    intro row member
    obtain ⟨line, listed, rfl⟩ := List.mem_map.mp member
    obtain ⟨tick, fired, printed⟩ := mem_debugs.mp listed
    rw [frameRow_of_debug run (by simp [fired]) printed documented]
    exact later tick fired (debugs_firing printed).1

end Run

/-! ## The join of a log -/

/-- Every line of the output of a UE has its number. -/
theorem ue_of_prints {i : ℕ} {tag : String} {line : LogLine} (prints : tdCho.Prints env i line)
    (tagged : line.isTagged tag = true) : line.value "ue" = some (.nat i) := by
  cases prints with
  | early early =>
      cases early with
      | evaluation recorded =>
          rcases TdCho.mem_records recorded with ⟨fields, rfl⟩ | ⟨rest, rfl⟩
          · cases tagged
          · rfl
      | row => cases tagged
  | success => cases tagged
  | result => rfl
  | complete => rfl
  | failure => rfl

section Log

variable {rows : List UeRow} {h : List (Firing ℤ Sim Event)} {c : Conf ℤ Sim Event} {pd : Pandas}

/-- A tagged line in the log of a run is one of a UE, with its number. -/
theorem exists_isOf (run : SimRun tdCho env rows h c) {tag : String} (other : tag ≠ "FUTURE_DEBUG")
    {line : LogLine} (member : line ∈ c.state.log) (tagged : line.isTagged tag = true) :
    ∃ j, line.value "ue" = some (.nat j) ∧
      line ∈ (printed tdCho env j (ueHistory tdCho env j h)).filter (LogLine.isOf tag j) := by
  have own : line.ofUe = true := by
    cases line with
    | csv => cases tagged
    | stdout tag' fields =>
        obtain rfl : tag' = tag := by simpa [LogLine.isTagged] using tagged
        simpa [LogLine.ofUe] using other
  obtain ⟨j, printed⟩ := printed_of_mem_log own run member
  have value := ue_of_prints (prints_of_mem_printed printed) tagged
  exact ⟨j, value, List.mem_filter.mpr ⟨printed, by simp [LogLine.isOf, tagged, value, Field.number]⟩⟩

/-- The rows of a UE are those of the lines that it printed. -/
theorem ofUe_frame (documented : pd.Documented) (run : SimRun tdCho env rows h c) {tag : String}
    (other : tag ≠ "FUTURE_DEBUG") (i : ℕ) :
    ofUe i (frame pd tag c.state.log) =
      ((printed tdCho env i (ueHistory tdCho env i h)).filter (LogLine.isOf tag i)).map
        (LogLine.frameRow pd) := by
  rw [← log_of_run (ownLines_isOf i other) run]
  unfold ofUe frame
  rw [List.filter_map, List.filter_filter]
  refine congrArg _ (List.filter_congr fun line member => ?_)
  unfold LogLine.isOf
  cases tagged : line.isTagged tag with
  | false => simp
  | true =>
      obtain ⟨j, value, -⟩ := exists_isOf run other member tagged
      simp [LogLine.frameRow, LogLine.cell, value, Field.cell, Field.number, documented.to_numeric]

theorem ofUe_debug (documented : pd.Documented) (run : SimRun tdCho env rows h c) (i : ℕ) :
    ofUe i (frame pd "HO_DEBUG" c.state.log) =
      (debugs env i (ueHistory tdCho env i h)).map (LogLine.frameRow pd) :=
  ofUe_frame documented run (by decide) i

theorem ofUe_result (documented : pd.Documented) (run : SimRun tdCho env rows h c) (i : ℕ) :
    ofUe i (frame pd "HO_RESULT" c.state.log) =
      (resultsAfter env i none (ueHistory tdCho env i h)).map (LogLine.frameRow pd) := by
  rw [ofUe_frame documented run (by decide), filter_isOf_result (run.toUe i)]

/-! ### Their times -/

/-- Printing to the millisecond leaves a time within the range of durations. -/
theorem millisecond_decimals {x : ℚ} (nonneg : 0 ≤ x) (bounded : x ≤ 9200000000) : Millisecond (decimals 3 x) where
  whole := ⟨roundHalfEven (x * 10 ^ 3), by norm_num [decimals]⟩
  bounded := by
    have below := decimals_mono 3 nonneg
    have above := decimals_mono 3 bounded
    have zero : decimals 3 0 = 0 := decimals_natCast 3 0
    have top : decimals 3 9200000000 = 9200000000 := decimals_natCast 3 9200000000
    rw [zero] at below
    rw [top] at above
    exact abs_le.mpr ⟨by linarith, above⟩

theorem fireTime_le_of_bounded {i : ℕ} {g : Firing ℤ (Option UeInfo) Event}
    (bounded : ∀ f ∈ h, getSeconds f.event.ts ≤ 9200000000) (member : g ∈ ueHistory tdCho env i h) :
    fireTime g ≤ 9200000000 := by
  obtain ⟨f, fired, -, rfl⟩ := ((ueComponent tdCho env i).mem_history).mp member
  exact bounded f fired

theorem ofUes_debug (documented : pd.Documented) (run : SimRun tdCho env rows h c)
    (bounded : ∀ f ∈ h, getSeconds f.event.ts ≤ 9200000000) : OfUes (frame pd "HO_DEBUG" c.state.log) := by
  have spec : ∀ row ∈ frame pd "HO_DEBUG" c.state.log, (∃ i : ℕ, row.ue = .number i) ∧
      (row.line.value "t").isSome = true ∧ row.t = .number row.time ∧ Millisecond row.time := by
    intro row member
    obtain ⟨line, listed, rfl⟩ := List.mem_map.mp member
    obtain ⟨logged, tagged⟩ := List.mem_filter.mp listed
    obtain ⟨i, -, own⟩ := exists_isOf run (by decide) logged tagged
    obtain ⟨g, fired, printed⟩ := mem_debugs.mp own
    have made := frameRow_of_debug (run.toUe i) fired printed documented
    obtain ⟨tick, -, -, -, -, ⟨serving, neighbor, a3, debug⟩, -⟩ := debugs_firing printed
    obtain ⟨n, whole⟩ := fireTime_eq_natCast (run.toUe i) (mem_ticks.mpr ⟨fired, tick⟩)
    have time := millisecond_decimals (whole ▸ Nat.cast_nonneg n) (fireTime_le_of_bounded bounded fired)
    rw [whole, decimals_natCast, ← whole] at time
    rw [made]
    exact ⟨⟨i, rfl⟩, by rw [debug.t]; rfl, rfl, time⟩
  exact
    { ue := fun row member => (spec row member).1
      column := fun row member => (spec row member).2.1
      timed := fun row member => (spec row member).2.2
      sorted := fun i => by
        rw [ofUe_debug documented run]
        exact increasing_debugs documented (run.toUe i) }

theorem ofUes_result (documented : pd.Documented) (run : SimRun tdCho env rows h c)
    (bounded : ∀ f ∈ h, getSeconds f.event.ts ≤ 9200000000) : OfUes (frame pd "HO_RESULT" c.state.log) := by
  have spec : ∀ row ∈ frame pd "HO_RESULT" c.state.log, (∃ i : ℕ, row.ue = .number i) ∧
      (row.line.value "t").isSome = true ∧ row.t = .number row.time ∧ Millisecond row.time := by
    intro row member
    obtain ⟨line, listed, rfl⟩ := List.mem_map.mp member
    obtain ⟨logged, tagged⟩ := List.mem_filter.mp listed
    obtain ⟨i, -, own⟩ := exists_isOf run (by decide) logged tagged
    rw [filter_isOf_result (run.toUe i)] at own
    obtain ⟨h₁, f, h₂, split, -, printed⟩ := mem_resultsAfter own
    obtain ⟨ue, pair, -, handed, rfl⟩ := mem_resultsOf printed
    have fired : f ∈ ueHistory tdCho env i h := by
      rw [show ueHistory tdCho env i h = h₁ ++ f :: h₂ from split]
      simp
    have seen := run.toUe i
    rw [split] at seen
    obtain ⟨prior, step⟩ := seen.split
    obtain ⟨n, later, -⟩ := exists_start prior step (isCompletion_of_handoverOf handed)
    have nonneg : 0 ≤ fireTime f := (Nat.cast_nonneg _).trans later
    rw [frameRow_resultLine documented]
    exact ⟨⟨i, rfl⟩, rfl, rfl, millisecond_decimals nonneg (fireTime_le_of_bounded bounded fired)⟩
  exact
    { ue := fun row member => (spec row member).1
      column := fun row member => (spec row member).2.1
      timed := fun row member => (spec row member).2.2
      sorted := fun i => by
        rw [ofUe_result documented run]
        exact increasing_results documented (run.toUe i) }

/-! ### The merged frame -/

/-- Every result of a UE has a decision at or before it. -/
theorem asOf_isSome_of_result {i : ℕ} (documented : pd.Documented) (run : SimRun tdCho env rows h c) :
    ∀ row ∈ (resultsAfter env i none (ueHistory tdCho env i h)).map (LogLine.frameRow pd),
      (asOf FrameRow.time ((debugs env i (ueHistory tdCho env i h)).map (LogLine.frameRow pd))
        row.time).isSome = true := by
  intro row member
  obtain ⟨line, printed, rfl⟩ := List.mem_map.mp member
  obtain ⟨h₁, f, h₂, split, window, result⟩ := mem_resultsAfter printed
  obtain ⟨ue, pair, present, handed, rfl⟩ := mem_resultsOf result
  rw [Option.or_none] at window
  obtain ⟨report, started, window⟩ := regular_eq_true.mp window
  rw [frameRow_resultLine documented]
  have seen := run.toUe i
  rw [← ueHistory, split] at seen
  obtain ⟨g, -, line, -, found, -⟩ := asOf_result documented seen present started window handed
  rw [split]
  exact found

/-- The rows of UE `i` in the merged frame of a log. -/
def joined (pd : Pandas) (log : List LogLine) (i : ℕ) : List MergedRow :=
  (mergeHandoverFrames pd (frame pd "HO_DEBUG" log) (frame pd "HO_RESULT" log) true none).filter
    fun row => decide (row.result.ue = .number i)

/-- The join of a UE is that of its own lines. -/
theorem joined_eq (documented : pd.Documented) (run : SimRun tdCho env rows h c)
    (bounded : ∀ f ∈ h, getSeconds f.event.ts ≤ 9200000000) (i : ℕ) :
    (joined pd c.state.log i).map (fun row => (row.result, row.debug)) =
      ((resultsAfter env i none (ueHistory tdCho env i h)).map (LogLine.frameRow pd)).map fun row =>
        (row, asOf FrameRow.time ((debugs env i (ueHistory tdCho env i h)).map (LogLine.frameRow pd))
          row.time) := by
  have found := asOf_isSome_of_result (i := i) documented run
  rw [← ofUe_result documented run, ← ofUe_debug documented run] at found ⊢
  exact mergeHandoverFrames_ofUe documented (ofUes_debug documented run bounded)
    (ofUes_result documented run bounded) found

/-- **The join of results and decisions.** In the log of a run each result of a UE is joined once, to a
decision of the UE. The result of a handover is joined to the decision printed by the tick that made its
report, with the source and the target of the handover, unless a later tick lies at or before the printed
time of the result. -/
theorem results_joined (documented : pd.Documented) (run : SimRun tdCho env rows h c)
    (bounded : ∀ f ∈ h, getSeconds f.event.ts ≤ 9200000000) (i : ℕ) :
    (joined pd c.state.log i).map MergedRow.result = ofUe i (frame pd "HO_RESULT" c.state.log) ∧
    (∀ row ∈ joined pd c.state.log i, ∃ debug ∈ ofUe i (frame pd "HO_DEBUG" c.state.log),
      row.debug = some debug) ∧
    ∀ {h₁ h₂ f ue report pair}, ueHistory tdCho env i h = h₁ ++ f :: h₂ →
      f.before.state = some ue → startReport tdCho env i h₁ = some report →
      report.eventType = "CHO_PREP" → handoverOf env f = some pair →
      (∀ tick ∈ h₂, tick.event.ev = .checkHandoverConditions →
        decimals 3 (fireTime f) < fireTime tick) →
      ∃ g ∈ h₁, ∃ line, DecidedBy env i report ue.choProcState g line ∧
        pair = (ue.choProcState.sourceCell, ue.choProcState.targetCell) ∧
        (∃ row, (joined pd c.state.log i)[(resultsAfter env i none h₁).length]? = some row ∧
          row.result = ⟨.number i, .number (decimals 3 (fireTime f)), resultLine i (fireTime f) ue⟩ ∧
          row.debug = some ⟨.number i, .number ue.choProcState.procedureStartTime, line⟩) ∧
        ue.choProcState.procedureStartTime = decimals 3 (fireTime f) -
          decimals 3 (fireTime f - ue.choProcState.procedureStartTime) := by
  have seen := run.toUe i
  have join := joined_eq documented run bounded i
  refine ⟨?_, fun row member => ?_,
    fun {h₁ h₂ f ue report pair} split present started window handed later => ?_⟩
  case refine_1 =>
    have results := congrArg (List.map Prod.fst) join
    rw [List.map_map, List.map_map, ← ofUe_result documented run] at results
    exact results.trans (List.map_id _)
  case refine_2 =>
    have listed : (row.result, row.debug) ∈
        (joined pd c.state.log i).map fun row => (row.result, row.debug) :=
      List.mem_map.mpr ⟨row, member, rfl⟩
    rw [join] at listed
    obtain ⟨result, own, same⟩ := List.mem_map.mp listed
    obtain ⟨debug, met⟩ := Option.isSome_iff_exists.mp (asOf_isSome_of_result documented run result own)
    rw [met] at same
    refine ⟨debug, ?_, (congrArg Prod.snd same).symm⟩
    rw [ofUe_debug documented run]
    exact (List.mem_filter.mp (List.mem_of_getLast? met)).1
  case refine_3 =>
    rw [← ueHistory, split] at seen
    obtain ⟨prior, step⟩ := seen.split
    obtain ⟨g, member, line, decided, -, last⟩ := asOf_result documented seen present started window handed
    refine ⟨g, member, line, decided, ?_, ?_, ?_⟩
    · obtain ⟨flight, -⟩ := inFlight_of_handoverOf TdCho.lawful prior step handed
      obtain ⟨ue₀, present₀, -, source, target⟩ := flight.procedure
      obtain rfl := Option.some.inj (present.symm.trans present₀)
      rw [source, target]
    · have results : resultsAfter env i none (ueHistory tdCho env i h) =
          resultsAfter env i none h₁ ++ resultLine i (fireTime f) ue ::
            resultsAfter env i ((reportOf tdCho env i f).or (some report)) h₂ := by
        have printed : resultsOf env i f = [resultLine i (fireTime f) ue] := by
          simp [resultsOf, handed, present]
        rw [split, resultsAfter_append, resultsAfter, started, Option.some_or,
          if_pos (regular_eq_true.mpr ⟨report, rfl, window⟩), printed, List.singleton_append]
      have at_place := congrArg (fun rows => rows[(resultsAfter env i none h₁).length]?) join
      rw [List.getElem?_map, List.getElem?_map, List.getElem?_map, results,
        List.getElem?_append_right (Nat.le_refl _), Nat.sub_self, List.getElem?_cons_zero,
        Option.map_some, Option.map_some, frameRow_resultLine documented] at at_place
      obtain ⟨row, found, same⟩ := Option.map_eq_some_iff.mp at_place
      refine ⟨row, found, congrArg Prod.fst same, (congrArg Prod.snd same).trans ?_⟩
      rw [split]
      exact last later
    · obtain ⟨n, whole⟩ := fireTime_eq_natCast prior (mem_ticks.mpr ⟨member,
        (debugs_firing (by rw [decided.printed]; exact List.mem_singleton_self line)).1⟩)
      rw [← decided.time, whole, decimals_sub_natCast 2, sub_sub_cancel]

end Log

/-- The only handover of `crossing` is joined to the decision of second 2. -/
theorem results_joined_crossing :
    ∃ f ue report g line row, handoverOf crossing f = some ("S", "N") ∧ f.before.state = some ue ∧
      DecidedBy crossing 0 report ue.choProcState g line ∧
      (joined plainPandas (sampleRun tdCho crossing sampleRows 12).2.state.log 0)[0]? = some row ∧
      row.result = ⟨.number 0, .number (decimals 3 (fireTime f)), resultLine 0 (fireTime f) ue⟩ ∧
      row.debug = some ⟨.number 0, .number ue.choProcState.procedureStartTime, line⟩ := by
  let history := ueHistory tdCho crossing 0 (sampleRun tdCho crossing sampleRows 12).1
  let f := history.get ⟨10, by decide +kernel⟩
  have split : history = history.take 10 ++ f :: history.drop 11 := by
    conv_lhs => rw [← List.take_append_drop 10 history]
    rw [List.drop_eq_getElem_cons (by decide +kernel)]
    rfl
  have served : f.before.state.isSome = true := by decide +kernel
  obtain ⟨ue, present⟩ := Option.isSome_iff_exists.mp served
  have window : regular (startReport tdCho crossing 0 (history.take 10)) = true := by decide +kernel
  obtain ⟨report, started, window⟩ := regular_eq_true.mp window
  have handed : handoverOf crossing f = some ("S", "N") := by decide +kernel
  have later : ∀ time ∈ (history.drop 11).map fireTime, decimals 3 (fireTime f) < time := by
    decide +kernel
  have first : (resultsAfter crossing 0 none (history.take 10)).length = 0 := by decide +kernel
  have bounded : ∀ time ∈ (sampleRun tdCho crossing sampleRows 12).1.map (fun f => getSeconds f.event.ts),
      time ≤ 9200000000 := by decide +kernel
  obtain ⟨g, -, line, decided, -, ⟨row, place, result, debug⟩, -⟩ :=
    (results_joined plainPandas_documented (simRun_sampleRun tdCho crossing sampleRows 12)
      (fun f member => bounded _ (List.mem_map_of_mem member)) 0).2.2 split present started window
      handed fun tick member _ => later _ (List.mem_map_of_mem member)
  rw [first] at place
  exact ⟨f, ue, report, g, line, row, handed, present, decided, place, by exact_mod_cast result,
    by exact_mod_cast debug⟩

/-- The propagation times from `S`, at 287240 km, make the execution take 0.9998 s. -/
def distant : Env where
  link :=
    { sampleLink
        [overhead "S" [(0, 287240000), (60, 287240000)], overhead "N" [(1, 500000), (60, 500000)]] with
      libm :=
        { sampleLibm with
          log10 := fun x => if x = 287240000 then 8.458245 else sampleLog10 x }
      txPower := 72 }
  ho := {}

/-- In `distant` the result of the handover is joined to a later evaluation, which triggers
nothing. -/
theorem results_joined_distant :
    ¬ ∀ {pd : Pandas}, pd.Documented → ∀ {env : Env} {rows : List UeRow}
      {h : List (Firing ℤ Sim Event)} {c : Conf ℤ Sim Event},
      SimRun tdCho env rows h c → (∀ f ∈ h, getSeconds f.event.ts ≤ 9200000000) →
      ∀ i, ∀ row ∈ joined pd c.state.log i, ∀ debug ∈ row.debug,
        debug.line.value "a3" = some (.nat 1) := by
  intro always
  have run := simRun_sampleRun tdCho distant sampleRows 17
  have bounded : ∀ time ∈ (sampleRun tdCho distant sampleRows 17).1.map (fun f => getSeconds f.event.ts),
      time ≤ 9200000000 := by decide +kernel
  have bounded : ∀ f ∈ (sampleRun tdCho distant sampleRows 17).1, getSeconds f.event.ts ≤ 9200000000 :=
    fun f member => bounded _ (List.mem_map_of_mem member)
  have joins : ((joined plainPandas (sampleRun tdCho distant sampleRows 17).2.state.log 0).map
      (fun row => (row.result, row.debug))).map
        (fun pair => pair.2.bind fun debug => debug.line.value "a3") = [some (.nat 0)] := by
    rw [joined_eq plainPandas_documented run bounded]
    decide +kernel
  have listed : some (.nat 0) ∈ ((joined plainPandas (sampleRun tdCho distant sampleRows 17).2.state.log 0).map
      (fun row => (row.result, row.debug))).map
        (fun pair => pair.2.bind fun debug => debug.line.value "a3") := by
    rw [joins]
    exact List.mem_singleton_self _
  rw [List.map_map] at listed
  obtain ⟨row, member, untriggered⟩ := List.mem_map.mp listed
  obtain ⟨debug, met, untriggered⟩ := Option.bind_eq_some_iff.mp untriggered
  have triggered := always plainPandas_documented run bounded 0 row member debug met
  rw [triggered] at untriggered
  cases untriggered

end NtnCho
