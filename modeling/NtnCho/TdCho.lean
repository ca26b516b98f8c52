import NtnCho.Procedure

/-!
# TD-CHO

The program of `MultiUE-CHO-SNR-TDCHO`: the best neighbour has the highest SNR after a penalty for
moving away, and is reported when its SNR exceeds that of the serving cell by a dynamic margin.
`GetDistanceTrend` calls `UpdateSatelliteState` for a past time, so the evaluation changes the
physical layer state of the UE; it is threaded through `NeighborScan`.
-/

namespace NtnCho

namespace TdCho

/-! ## Trends -/

/-- `UpdateSnrHistory` on the history of one cell. -/
def pushSample (trendWindowSize : ℤ) (simTime snrDb : ℚ) (history : List (ℚ × ℚ)) :
    List (ℚ × ℚ) :=
  let extended :=
    match history.getLast? with
    | some (time, _) =>
        if |simTime - time| < 0.000000001 then history.dropLast ++ [(time, snrDb)]
        else history ++ [(simTime, snrDb)]
    | none => [(simTime, snrDb)]
  let maxSamples := (2 * trendWindowSize).toNat
  extended.drop (extended.length - maxSamples)

/-- `UpdateSnrHistory`. -/
def updateSnrHistory (ho : HandoverParams) (cellId : String) (simTime snrDb : ℚ)
    (snrHistory : SnrHistory) : SnrHistory :=
  if ho.trendWindowSize ≤ 0 then snrHistory
  else
    let history := snrHistory[cellId]?.getD []
    match history.getLast? with
    | some (time, _) =>
        if simTime < time then snrHistory
        else snrHistory.insert cellId (pushSample ho.trendWindowSize simTime snrDb history)
    | none => snrHistory.insert cellId (pushSample ho.trendWindowSize simTime snrDb history)

/-- `UpdateSatelliteState` has no test for gaps, and keeps the history. -/
def phyRules : PhyRules where
  inPass _ _ := true
  updateHistory := updateSnrHistory

/-- `GetSnrAtTime`: the sample closest to `targetTime`, if it is at most two seconds away. -/
def getSnrAtTime (snrHistory : SnrHistory) (cellId : String) (targetTime : ℚ) : Option ℚ :=
  match snrHistory[cellId]?.getD [] with
  | [] => none
  | front :: rest =>
      let closest := (front :: rest).foldl
        (fun closest sample =>
          if |targetTime - sample.1| < |targetTime - closest.1| then sample else closest) front
      if |targetTime - closest.1| ≤ 2 then some closest.2 else none

/-- `GetSnrTrend`. -/
def getSnrTrend (ho : HandoverParams) (snrHistory : SnrHistory) (cellId : String) : ℚ :=
  match snrHistory[cellId]? with
  | none => 0
  | some history =>
      if ho.trendWindowSize ≤ 0 ∨ history.length < (2 * ho.trendWindowSize).toNat then 0
      else
        let window := ho.trendWindowSize.toNat
        let recentStart := history.length - window
        let pastStart := recentStart - window
        let snrs := history.map Prod.snd
        let pastSum := ((snrs.drop pastStart).take window).sum
        let recentSum := (snrs.drop recentStart).sum
        recentSum / window - pastSum / window

/-- `GetDistanceTrend`. -/
def getDistanceTrend (env : Env) (geo : UeGeo) (cellId : String) (currentTime : ℚ) (phy : Phy) :
    ℚ × Phy :=
  if currentTime < env.ho.measurementPeriod then (0, phy)
  else
    let prevTime := currentTime - env.ho.measurementPeriod
    match phy.channel.channelCache[cellId]? with
    | none => (0, phy)
    | some (_, current) =>
        let (prevMetrics, phy') := updateSatelliteState phyRules env geo cellId prevTime phy
        (current.distance - prevMetrics.distance, phy')

/-! ## The neighbours -/

/-- The variables of the loop over the measured cells. -/
structure NeighborScan where
  phy : Phy
  lastMeasurements : StdMap MeasResultCell
  bestNeighbor : Option MeasResultCell
  bestMetric : ℚ
  records : List RecordEffect

/-- The body of the loop over the measured cells. -/
def scanNeighbor (env : Env) (ueId : ℕ) (geo : UeGeo) (servingCellId : String) (simTime : ℚ)
    (scan : NeighborScan) (meas : MeasResultCell) : NeighborScan :=
  if meas.cellId = servingCellId then scan
  else if meas.sinr < 3 then scan
  else
    let (distTrend, phy) := getDistanceTrend env geo meas.cellId simTime scan.phy
    let validationRecord : PendingMeasurementValidation :=
      { recordTime := simTime
        ueId := ueId
        cellId := meas.cellId
        distanceTrend := distTrend
        currentSinr := meas.sinr
        verificationTime := simTime + 5 }
    let penalty := if 0 < distTrend then 2 else 0
    let evalMetric := meas.sinr - penalty
    let better := scan.bestMetric < evalMetric
    { phy := phy
      lastMeasurements := scan.lastMeasurements.insert meas.cellId meas
      bestNeighbor := if better then some meas else scan.bestNeighbor
      bestMetric := if better then evalMetric else scan.bestMetric
      records := scan.records ++ [.measurementValidation validationRecord] }

/-- The loop over the measured cells. -/
def scanNeighbors (env : Env) (ueId : ℕ) (simTime : ℚ) (ue : UeInfo)
    (measurements : List MeasResultCell) : NeighborScan :=
  measurements.foldl (scanNeighbor env ueId ue.geo ue.measState.servingCellId simTime)
    { phy := ue.phy
      lastMeasurements := ue.measState.lastMeasurements
      bestNeighbor := none
      bestMetric := -999
      records := [] }

/-- The follow-ups and the log row of a degrading serving cell. -/
def servingTrigger (ueId : ℕ) (simTime servingSnrTrend servingDistTrend neighborSnrTrend
    neighborDistTrend dynamicMargin : ℚ) (serving neighbor : MeasResultCell) :
    List RecordEffect :=
  .log (.csv "serving_snr_trigger_analysis"
    [.fixed 3 simTime, .nat ueId, .str serving.cellId, .str neighbor.cellId,
      .fixed 6 servingSnrTrend, .fixed 6 servingDistTrend,
      .nat (if 0 < servingDistTrend then 1 else 0), .fixed 2 serving.sinr,
      .fixed 2 serving.distance, .fixed 2 neighborSnrTrend, .fixed 6 neighborDistTrend,
      .fixed 2 neighbor.sinr, .fixed 2 neighbor.distance, .fixed 2 dynamicMargin]) ::
    [1, 3, 5].map fun horizonSec => .servingSnrFollowup
      { recordTime := simTime
        ueId := ueId
        servingCellId := serving.cellId
        servingSnrTrend := servingSnrTrend
        servingDistanceTrend := servingDistTrend
        currentSinr := serving.sinr
        horizonSec := horizonSec
        verificationTime := simTime + horizonSec }

/-- The `[HO_DEBUG]` line, its keys in printed order. -/
def hoDebug (ueId : ℕ) (simTime servingSnrTrend neighborSnrTrend neighborDistTrend dynamicMargin
    predictedServing predictedNeighbor : ℚ) (a3Trigger : Bool)
    (serving neighbor : MeasResultCell) : LogLine :=
  .stdout "HO_DEBUG"
    [("ue", .nat ueId), ("t", .fixed 3 simTime), ("serving", .str serving.cellId),
      ("neighbor", .str neighbor.cellId), ("serving_sinr", .fixed 2 serving.sinr),
      ("neighbor_sinr", .fixed 2 neighbor.sinr), ("serving_trend", .fixed 2 servingSnrTrend),
      ("neighbor_trend", .fixed 2 neighborSnrTrend), ("serving_dist", .fixed 2 serving.distance),
      ("neighbor_dist", .fixed 2 neighbor.distance),
      ("neighbor_dist_trend", .fixed 2 neighborDistTrend),
      ("dynamic_margin", .fixed 2 dynamicMargin), ("pred_serving", .fixed 2 predictedServing),
      ("pred_neighbor", .fixed 2 predictedNeighbor), ("serving_trend", .fixed 2 servingSnrTrend),
      ("neighbor_trend", .fixed 2 neighborSnrTrend),
      ("trend_diff", .fixed 2 (servingSnrTrend - neighborSnrTrend)),
      ("a3", .nat (if a3Trigger then 1 else 0))]

/-- `dynamicMargin`, before it is clamped: a degrading serving cell lowers it. -/
def marginOf (ho : HandoverParams) (servingSnrTrend : ℚ) : ℚ :=
  if servingSnrTrend < -ho.servingTrendThreshold then ho.trendHandoverMargin - 2
  else ho.trendHandoverMargin

/-- `a3Trigger`: the neighbour is better by the clamped margin. -/
def a3Condition (dynamicMargin : ℚ) (serving neighbor : MeasResultCell) : Bool :=
  decide (serving.sinr + dynamicMargin < neighbor.sinr)

/-- `UE_EvaluateNtnTriggers`. -/
def ueEvaluateNtnTriggers (_serving : MeasResultCell) : Bool := false

/-- The trends of the serving cell and of the best neighbour, and the state after computing
them. -/
structure Trends where
  servingDistTrend : ℚ
  neighborDistTrend : ℚ
  neighborSnrTrend : ℚ
  servingSnrTrend : ℚ
  phy : Phy

def trends (env : Env) (geo : UeGeo) (simTime : ℚ) (servingCellId neighborCellId : String)
    (phy : Phy) : Trends :=
  let (servingDistTrend, phy₁) := getDistanceTrend env geo servingCellId simTime phy
  let (neighborDistTrend, phy₂) := getDistanceTrend env geo neighborCellId simTime phy₁
  { servingDistTrend := servingDistTrend
    neighborDistTrend := neighborDistTrend
    neighborSnrTrend := getSnrTrend env.ho phy₂.snrHistory neighborCellId
    servingSnrTrend := getSnrTrend env.ho phy₂.snrHistory servingCellId
    phy := phy₂ }

/-- The evaluation of a best neighbour. -/
def evaluateBest (env : Env) (ueId : ℕ) (simTime : ℚ) (ue : UeInfo)
    (serving neighbor : MeasResultCell) (scan : NeighborScan) : Evaluation :=
  let trends := trends env ue.geo simTime ue.measState.servingCellId neighbor.cellId scan.phy
  let margin := marginOf env.ho trends.servingSnrTrend
  let dynamicMargin := max 1 margin
  let a3Trigger := a3Condition dynamicMargin serving neighbor
  let t := ue.measConfig.timeToTrigger
  let predictedNeighbor := neighbor.sinr + trends.neighborSnrTrend * t
  let predictedServing := serving.sinr + trends.servingSnrTrend * t
  let followups :=
    if trends.servingSnrTrend < -env.ho.servingTrendThreshold then
      servingTrigger ueId simTime trends.servingSnrTrend trends.servingDistTrend
        trends.neighborSnrTrend trends.neighborDistTrend margin serving neighbor
    else []
  let ntnTrigger := ueEvaluateNtnTriggers serving
  { phy := trends.phy
    lastMeasurements := scan.lastMeasurements
    hoContext :=
      if a3Trigger then
        { preServingSnr := serving.sinr
          preNeighborSnr := neighbor.sinr
          decisionTime := simTime
          valid := true
          sourceCellId := serving.cellId
          targetCellId := neighbor.cellId
          triggerType := "A3+prediction" }
      else resetHoContext
    bestNeighbor := some neighbor
    ntnTrigger := ntnTrigger
    triggerConditionMet := ntnTrigger || a3Trigger
    betterNeighborAvailable := true
    records := scan.records ++ followups ++
      [.log (hoDebug ueId simTime trends.servingSnrTrend trends.neighborSnrTrend
          trends.neighborDistTrend dynamicMargin predictedServing predictedNeighbor a3Trigger serving
          neighbor),
        .predictionEval
          { ueId := ueId
            servingCell := serving.cellId
            neighborCell := neighbor.cellId
            decisionTime := simTime
            evalTime := simTime + env.ho.predictionEvalDelay }] }

/-- The middle part of `UE_EvaluateAndReport`. -/
def evaluateNeighbors (env : Env) (ueId : ℕ) (simTime : ℚ) (ue : UeInfo)
    (serving : MeasResultCell) (measurements : List MeasResultCell) : Evaluation :=
  let scan := scanNeighbors env ueId simTime ue measurements
  match scan.bestNeighbor with
  | some neighbor => evaluateBest env ueId simTime ue serving neighbor scan
  | none =>
      let ntnTrigger := ueEvaluateNtnTriggers serving
      { phy := scan.phy
        lastMeasurements := scan.lastMeasurements
        hoContext := resetHoContext
        bestNeighbor := none
        ntnTrigger := ntnTrigger
        triggerConditionMet := ntnTrigger
        betterNeighborAvailable := false
        records := scan.records }

/-! ## The program -/

/-- `conditionMet` of `CHO_CheckExecutionCondition`. -/
def executionCondition (env : Env) (_currentTime : ℚ) (_servingCell _targetCell : String)
    (serving target : UeSatMetrics) : Bool :=
  decide (env.ho.choExecutionOffset ≤ target.snrDb - serving.snrDb) &&
    decide (env.ho.minSNR < serving.snrDb)

/-- The body of the loop of `SelectBestSatellite`. -/
def selectBetter (env : Env) (simTime : ℚ) (best : String × ℚ)
    (entry : String × ℚ × UeSatMetrics) : String × ℚ :=
  let metrics := entry.2.2
  if metrics.elevation < 0 then best
  else if ended (env.link.trajectory entry.1) simTime then best
  else if best.2 < metrics.snrDb then (entry.1, metrics.snrDb)
  else best

/-- `SelectBestSatellite`. -/
def selectBestSatellite (env : Env) (simTime : ℚ) (ue : UeInfo) (currentSat : String) : String :=
  let best := ue.phy.channel.channelCache.toList.foldl (selectBetter env simTime) (currentSat, -999)
  if best.1 ≠ currentSat ∧ best.2 < getCachedSnr ue currentSat + env.ho.choExecutionOffset then
    currentSat
  else best.1

/-- What `CHO_HandleFailure` prints. -/
def failureLine (ueId : ℕ) (_failureTime : ℚ) (reason : String) (_ue : UeInfo) : LogLine :=
  .stdout "CHO HANDOVER FAILED" [("ue", .nat ueId), ("reason", .str reason)]

end TdCho

/-- The TD-CHO simulator. -/
def tdCho : Program where
  phyRules := TdCho.phyRules
  snrFloor _ := -6
  evaluateNeighbors := TdCho.evaluateNeighbors
  ntnReason := "NTN distance threshold exceeded"
  choPrepReason := "CHO Phase-1 MR triggered"
  executionCondition := TdCho.executionCondition
  selectBestSatellite := TdCho.selectBestSatellite
  failureLine := TdCho.failureLine
  perUeStats := true
  resetContextOnExpiry := true
  reselectOnRlf := false

end NtnCho
