import NtnCho.HandoverLog
import NtnCho.Join

/-!
# The analysis of serving triggers

`analyze_serving_snr_trigger.py` counts how often the serving satellite recedes when its SNR degrades, from
`serving_snr_trigger_analysis.csv` or from the `[HO_DEBUG]` lines of logs. The rows of the file carry what
the simulation has decided. The lines carry the trend with two decimals, from which the decision is made
again, and the distance trend is reconstructed from the line that was last seen of the UE and its serving
cell.

The functions of pandas are a parameter, so the file is a text.
-/

namespace NtnCho

open EventSystem Frames Text Text.Regex Pingpong

namespace ServingTrigger

/-! ## The script -/

/-- `REQUIRED_COLUMNS` -/
def requiredColumns : List String :=
  ["time", "ueId", "servingCellId", "bestNeighborCellId", "servingSnrTrend", "servingDistanceTrend",
    "servingIsReceding", "servingSinr", "servingDistance", "neighborSnrTrend", "neighborDistanceTrend",
    "neighborSinr", "neighborDistance", "dynamicMarginBeforeClamp"]

/-- `load_csv` on the text of an existing file, `none` for a `ValueError`. -/
def loadCsv (pd : Pandas) (content : List Char) : Option DataFrame :=
  (pd.readCsv content).bind fun df =>
    if df.rows.isEmpty then none
    else if requiredColumns.all df.columns.contains then some df else none

/-- A row that is read from a log. -/
structure TriggerRow where
  time : ℚ
  ueId : ℕ
  servingCellId : String
  bestNeighborCellId : String
  servingSnrTrend : ℚ
  servingDistanceTrend : ℚ
  servingIsReceding : ℕ
  servingSinr : ℚ
  servingDistance : ℚ
  neighborSnrTrend : ℚ
  neighborDistanceTrend : ℚ
  neighborSinr : ℚ
  neighborDistance : ℚ
  dynamicMarginBeforeClamp : ℚ
  sourceLog : String

/-- The dictionary of a row. -/
def TriggerRow.record (row : TriggerRow) : List (String × Cell) :=
  [("time", .number row.time), ("ueId", .number row.ueId), ("servingCellId", .text row.servingCellId),
    ("bestNeighborCellId", .text row.bestNeighborCellId), ("servingSnrTrend", .number row.servingSnrTrend),
    ("servingDistanceTrend", .number row.servingDistanceTrend),
    ("servingIsReceding", .number row.servingIsReceding), ("servingSinr", .number row.servingSinr),
    ("servingDistance", .number row.servingDistance), ("neighborSnrTrend", .number row.neighborSnrTrend),
    ("neighborDistanceTrend", .number row.neighborDistanceTrend), ("neighborSinr", .number row.neighborSinr),
    ("neighborDistance", .number row.neighborDistance),
    ("dynamicMarginBeforeClamp", .number row.dynamicMarginBeforeClamp), ("sourceLog", .text row.sourceLog)]

/-- `[-\d.]` -/
def isSignedChar (c : Char) : Bool := c == '-' || isPyDigit c || c == '.'

/-- `pattern`, up to the numbers behind the cells. -/
def hoDebugPattern : List Piece :=
  let number := Piece.run isSignedChar 1 true true
  [.lit "[HO_DEBUG],ue=".toList, .run isPyDigit 1 true true, .lit ",t=".toList, number,
    .lit ",serving=".toList, .run isDot 0 false true, .lit ",neighbor=".toList, .run isDot 0 false true,
    .lit ",serving_sinr=".toList, number, .lit ",neighbor_sinr=".toList, number,
    .lit ",serving_trend=".toList, number, .lit ",neighbor_trend=".toList, number,
    .lit ",serving_dist=".toList, number, .lit ",neighbor_dist=".toList, number,
    .lit ",neighbor_dist_trend=".toList, number, .lit ",dynamic_margin=".toList, number, .lit [',']]

/-- `serving_dist_trend`, from the time and the distance that were seen last of the UE and the cell. -/
def servingDistTrend (measurementPeriod simTime servingDist : ℚ) : Option (ℚ × ℚ) → ℚ
  | none => 0
  | some (prevTime, prevDist) =>
      if |simTime - prevTime - measurementPeriod| < 0.000001 then servingDist - prevDist else 0

/-- The row that is appended for a match. -/
def rowOfMatch (m : Groups) (sourceLog : String) (ueId : ℕ) (simTime : ℚ) (servingCell : String)
    (servingDist servingTrend servingDistTrend : ℚ) : Option TriggerRow := do
  let servingSinr ← pyFloat (group 5 m)
  let neighborSnrTrend ← pyFloat (group 8 m)
  let neighborDistanceTrend ← pyFloat (group 11 m)
  let neighborSinr ← pyFloat (group 6 m)
  let neighborDistance ← pyFloat (group 10 m)
  let dynamicMargin ← pyFloat (group 12 m)
  pure
    { time := simTime
      ueId := ueId
      servingCellId := servingCell
      bestNeighborCellId := String.ofList (group 4 m)
      servingSnrTrend := servingTrend
      servingDistanceTrend := servingDistTrend
      servingIsReceding := if 0 < servingDistTrend then 1 else 0
      servingSinr := servingSinr
      servingDistance := servingDist
      neighborSnrTrend := neighborSnrTrend
      neighborDistanceTrend := neighborDistanceTrend
      neighborSinr := neighborSinr
      neighborDistance := neighborDistance
      dynamicMarginBeforeClamp := dynamicMargin
      sourceLog := sourceLog }

/-- The variables of the loop over the lines. -/
structure ScanState where
  rows : List TriggerRow
  lastSeen : List ((ℕ × String) × ℚ × ℚ) := []

/-- One round of the loop over the lines, `none` for a `ValueError`. -/
def scanLine (threshold measurementPeriod : ℚ) (sourceLog : String) (s : ScanState)
    (line : List Char) : Option ScanState :=
  match search hoDebugPattern line with
  | none => some s
  | some m => do
      let ueId := pyNat (group 1 m)
      let simTime ← pyFloat (group 2 m)
      let servingCell := String.ofList (group 3 m)
      let servingDist ← pyFloat (group 9 m)
      let servingTrend ← pyFloat (group 7 m)
      let prev := s.lastSeen.lookup (ueId, servingCell)
      let added ←
        if servingTrend < threshold then
          (rowOfMatch m sourceLog ueId simTime servingCell servingDist servingTrend
            (servingDistTrend measurementPeriod simTime servingDist prev)).map fun row => [row]
        else some []
      pure
        { rows := s.rows ++ added
          lastSeen := setKey (ueId, servingCell) (simTime, servingDist) s.lastSeen }

/-- A log with its path; one that does not exist is passed over. -/
def scanLog (threshold measurementPeriod : ℚ) (rows : List TriggerRow)
    (log : String × Option (List Char)) : Option (List TriggerRow) :=
  match log.2 with
  | none => some rows
  | some content =>
      ((fileLines content).foldlM (scanLine threshold measurementPeriod log.1) { rows := rows }).map
        ScanState.rows

/-- `parse_ho_debug_logs`, `none` for a `ValueError`. -/
def parseHoDebugLogs (pd : Pandas) (logs : List (String × Option (List Char)))
    (threshold measurementPeriod : ℚ) : Option DataFrame :=
  (logs.foldlM (scanLog threshold measurementPeriod) []).bind fun rows =>
    if rows.isEmpty then none else some (pd.fromRecords (rows.map TriggerRow.record))

/-- `fmt_ratio` -/
def fmtRatio (count : ℤ) (total : ℕ) : List Char :=
  showInt count ++ '/' :: showNat total ++ " = ".toList ++
    if total = 0 then "n/a".toList else showFixed 2 (count / total * 100) ++ ['%']

/-- `int` of a cell, `none` if it raises. -/
def toInt (cell : Cell) : Option ℤ := cell.value.map fun x => if x < 0 then ⌈x⌉ else ⌊x⌋

/-- A row of `per_ue`. -/
structure PerUe where
  ueId : Cell
  triggerEvents : ℕ
  recedingEvents : Cell
  meanServingSnrTrend : Cell
  meanServingDistanceTrend : Cell
  recedingProbabilityPct : Cell

/-- The row of a group; its rows stand with their `servingIsReceding`. -/
def PerUe.ofGroup (pd : Pandas) (df : DataFrame) (group : Cell × List (List Cell × Cell)) : PerUe :=
  let mean name := pd.mean (group.2.map fun row => df.column name row.1)
  let recedingEvents := pd.sum (group.2.map Prod.snd)
  { ueId := group.1
    triggerEvents := group.2.length
    recedingEvents := recedingEvents
    meanServingSnrTrend := mean "servingSnrTrend"
    meanServingDistanceTrend := mean "servingDistanceTrend"
    recedingProbabilityPct :=
      if 0 < group.2.length then
        (recedingEvents.value.map fun receding => Cell.number (receding / group.2.length * 100)).getD .missing
      else .number 0 }

/-- The values of the report, in its order. -/
structure Report where
  total : ℕ
  recedingProbability : List Char
  nonReceding : List Char
  approaching : List Char
  receding : List Char
  flat : List Char
  meanServingSnrTrend : Cell
  meanServingDistanceTrend : Cell
  meanServingSinr : Cell
  meanNeighborSinr : Cell
  meanDynamicMargin : Cell
  perUe : List PerUe

/-- `analyze_frame`, `none` for its exit on an empty table and for an error. -/
def analyzeFrame (pd : Pandas) (df : DataFrame) : Option Report :=
  if df.rows.isEmpty then none
  else do
    let servingIsReceding ← df.rows.mapM fun row => pd.astypeInt (df.column "servingIsReceding" row)
    let total := df.rows.length
    let receding ← toInt (pd.sum servingIsReceding)
    let trend := fun row => (df.column "servingDistanceTrend" row).value
    let approaching := df.rows.countP fun row => (trend row).any fun x => decide (x < 0)
    let flat := df.rows.countP fun row => (trend row).any fun x => decide (x = 0)
    let mean := fun name => pd.mean (df.rows.map (df.column name))
    let groups := pd.groupby true (fun row => df.column "ueId" row.1) (df.rows.zip servingIsReceding)
    pure
      { total := total
        recedingProbability := fmtRatio receding total
        nonReceding := fmtRatio (total - receding) total
        approaching := fmtRatio approaching total
        receding := fmtRatio receding total
        flat := fmtRatio flat total
        meanServingSnrTrend := mean "servingSnrTrend"
        meanServingDistanceTrend := mean "servingDistanceTrend"
        meanServingSinr := mean "servingSinr"
        meanNeighborSinr := mean "neighborSinr"
        meanDynamicMargin := mean "dynamicMarginBeforeClamp"
        perUe := pd.sortValues PerUe.ueId (groups.map (PerUe.ofGroup pd df)) }

/-- `analyze`, from a file, which may not exist, or else from logs. -/
def analyze (pd : Pandas) (csv : Option (Option (List Char))) (logs : List (String × Option (List Char)))
    (threshold measurementPeriod : ℚ) : Option Report :=
  match csv with
  | some file => (file.bind (loadCsv pd)).bind (analyzeFrame pd)
  | none =>
      if logs.isEmpty then none
      else (parseHoDebugLogs pd logs threshold measurementPeriod).bind (analyzeFrame pd)

/-! ## Lines that are read -/

theorem isSignedChar_of_mem {precision : ℕ} {x : ℚ} {c : Char} (member : c ∈ showFixed precision x) :
    isSignedChar c = true := by
  unfold isSignedChar
  rcases mem_showFixed member with digit | rfl | rfl
  · simp [isPyDigit, asciiDigit_of_isDigit digit, digit]
  · rfl
  · rfl

/-- A key with a printed number is read, before another key. -/
theorem matchHere_number {literal : List Char} {key : String} (printed : literal = ',' :: (key.toList ++ ['=']))
    {precision : ℕ} {x : ℚ} {next : String × Field} {rest : List (String × Field)} {pieces : List Piece}
    {groups : Groups} (found : matchHere pieces ((next :: rest).flatMap pairText) = some groups) :
    matchHere (.lit literal :: .run isSignedChar 1 true true :: pieces)
      (((key, Field.fixed precision x) :: next :: rest).flatMap pairText) =
        some (showFixed precision x :: groups) := by
  have shape : ((key, Field.fixed precision x) :: next :: rest).flatMap pairText =
      literal ++ (showFixed precision x ++ (next :: rest).flatMap pairText) := by
    rw [printed, List.flatMap_cons]
    simp [pairText, Field.text]
  rw [shape, matchHere_lit]
  exact matchHere_greedy (fun c => isSignedChar_of_mem) (stops_at rfl rfl)
    (List.length_pos_iff.mpr (List.ne_nil_of_mem (point_mem_showFixed precision x))) found

/-- A name that stands between two keys: on one line and without a comma. -/
structure PlainName (name : List Char) : Prop where
  comma : ',' ∉ name
  line : '\n' ∉ name

instance (name : List Char) : Decidable (PlainName name) :=
  decidable_of_iff (',' ∉ name ∧ '\n' ∉ name)
    ⟨fun ⟨comma, line⟩ => ⟨comma, line⟩, fun ⟨comma, line⟩ => ⟨comma, line⟩⟩

/-- A key with a name is read, before another key. -/
theorem matchHere_name {literal tail : List Char} {key name : String}
    (printed : literal = ',' :: (key.toList ++ ['='])) (plain : PlainName name.toList)
    {fields : List (String × Field)} {pieces : List Piece} {groups : Groups}
    (found : matchHere (.lit (',' :: tail) :: pieces) (fields.flatMap pairText) = some groups) :
    matchHere (.lit literal :: .run isDot 0 false true :: .lit (',' :: tail) :: pieces)
      (((key, Field.str name) :: fields).flatMap pairText) = some (name.toList :: groups) := by
  have shape : ((key, Field.str name) :: fields).flatMap pairText =
      literal ++ (name.toList ++ fields.flatMap pairText) := by
    rw [printed, List.flatMap_cons]
    simp [pairText, Field.text]
  have dots : ∀ c ∈ name.toList, isDot c = true := by
    intro c member
    unfold isDot
    rw [bne_iff_ne]
    rintro rfl
    exact plain.line member
  rw [shape, matchHere_lit]
  exact matchHere_lazy dots plain.comma found

/-- The text of a record of the log. -/
def recordText (tag : String) (fields : List (String × Field)) : List Char :=
  '[' :: tag.toList ++ ']' :: fields.flatMap pairText

/-- The groups of a `[HO_DEBUG]` line. -/
theorem search_hoDebug {ueId : ℕ} {simTime servingSnrTrend neighborSnrTrend neighborDistTrend
    dynamicMargin : ℚ} {serving neighbor : MeasResultCell} (plain : PlainName serving.cellId.toList)
    (plain' : PlainName neighbor.cellId.toList) {next : String × Field} {rest : List (String × Field)} :
    search hoDebugPattern (recordText "HO_DEBUG"
        (("ue", .nat ueId) :: ("t", .fixed 3 simTime) :: ("serving", .str serving.cellId) ::
          ("neighbor", .str neighbor.cellId) :: ("serving_sinr", .fixed 2 serving.sinr) ::
          ("neighbor_sinr", .fixed 2 neighbor.sinr) :: ("serving_trend", .fixed 2 servingSnrTrend) ::
          ("neighbor_trend", .fixed 2 neighborSnrTrend) :: ("serving_dist", .fixed 2 serving.distance) ::
          ("neighbor_dist", .fixed 2 neighbor.distance) ::
          ("neighbor_dist_trend", .fixed 2 neighborDistTrend) ::
          ("dynamic_margin", .fixed 2 dynamicMargin) :: next :: rest)) =
      some [showNat ueId, showFixed 3 simTime, serving.cellId.toList, neighbor.cellId.toList,
        showFixed 2 serving.sinr, showFixed 2 neighbor.sinr, showFixed 2 servingSnrTrend,
        showFixed 2 neighborSnrTrend, showFixed 2 serving.distance, showFixed 2 neighbor.distance,
        showFixed 2 neighborDistTrend, showFixed 2 dynamicMargin] := by
  have shape : ∀ fields : List (String × Field),
      recordText "HO_DEBUG" (("ue", .nat ueId) :: fields) =
        "[HO_DEBUG],ue=".toList ++ (showNat ueId ++ fields.flatMap pairText) := by
    intro fields
    rw [recordText, List.flatMap_cons, pairText, Field.text]
    simp
  have last : matchHere [.lit [',']] ((next :: rest).flatMap pairText) = some [] :=
    matchHere_lit [','] [] _
  refine search_of_matchHere ?_
  rw [shape, hoDebugPattern]
  refine (matchHere_lit _ _ _).trans ?_
  refine matchHere_greedy (fun c => isPyDigit_of_mem_showNat) (stops_at rfl rfl)
    (List.length_pos_iff.mpr (showNat_ne_nil ueId)) ?_
  refine matchHere_number (by rfl) ?_
  refine matchHere_name (by rfl) plain ?_
  refine matchHere_name (by rfl) plain' ?_
  iterate 8 refine matchHere_number (by rfl) ?_
  exact last

end ServingTrigger

end NtnCho
