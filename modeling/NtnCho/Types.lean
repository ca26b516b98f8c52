import Mathlib.Data.Rat.Floor
import Std.Data.TreeMap

/-!
# Data of the multi-UE CHO simulators

The structures that the simulators under `scratch/MultiUE-CHO-*` share. A `double` is a rational,
so arithmetic is exact; a `std::map` keyed by satellite names is a `Std.TreeMap` on strings, which
iterates in the same order. Left out are the fields nothing reads after `main` has set them up:
most of `UeContext` and `HandoverState`, the unused thresholds of `UeMeasurementConfig`, and the
names and user counts of the UE groups.

`Link` is what the physical layer computes from (the dataset, the link budget, the seed),
`HandoverParams` what the handover logic is configured with; `Env` is both.
-/

namespace NtnCho

/-- `std::map<std::string, α>`. -/
abbrev StdMap (α : Type) := Std.TreeMap String α

/-! ## The dataset and the parameters -/

structure TrajectoryPoint where
  time : ℚ
  xEcef : ℚ
  yEcef : ℚ
  zEcef : ℚ
  latDeg : ℚ
  lonDeg : ℚ
  altM : ℚ

structure SatelliteState where
  name : String
  trajectory : List TrajectoryPoint

/-- The functions of `<cmath>` that the simulators call. -/
structure Libm where
  sqrt : ℚ → ℚ
  log10 : ℚ → ℚ
  pow : ℚ → ℚ → ℚ
  sin : ℚ → ℚ
  cos : ℚ → ℚ
  asin : ℚ → ℚ
  erfc : ℚ → ℚ
  sqrt_nonneg : ∀ x, 0 ≤ sqrt x

/-- `std::default_random_engine`, its state a number, with the distributions drawn from it.
`normalPair` is two draws from one `std::normal_distribution` object. -/
structure Rng where
  seed : ℕ → ℕ
  normal : ℕ → ℚ × ℕ
  normalPair : ℕ → (ℚ × ℚ) × ℕ
  uniform : ℕ → ℚ × ℕ

/-- Everything the physical layer reads. -/
structure Link where
  libm : Libm
  rng : Rng
  satellites : StdMap SatelliteState
  randomSeed : ℕ := 45
  frequency : ℚ := 20000000000
  txPower : ℚ := 19.5
  txAntennaGain : ℚ := 30.5
  rxGain : ℚ := 39.7
  noiseFigure : ℚ := 1.2
  bandwidth : ℚ := 250000000
  fecCodingGain : ℚ := 1
  packetSize : ℕ := 1250

structure ChoNtnConfig where
  configValidityPeriod : ℚ := 60
  executionTimeToTrigger : ℚ := 1
  minViableSinr : ℚ := 0
  maxViableDistance : ℚ := 2500

/-- The parameters of the handover logic. -/
structure HandoverParams where
  choNtnConfig : ChoNtnConfig := {}
  reportingOffset : ℚ := 1
  minSNR : ℚ := 0
  timeToTrigger : ℚ := 1
  maxDistance : ℚ := 1500
  minServingTime : ℚ := 360
  choExecutionOffset : ℚ := 3
  measurementPeriod : ℚ := 1
  trendWindowSize : ℤ := 5
  trendHandoverMargin : ℚ := 2
  predictionEvalDelay : ℚ := 5
  servingTrendThreshold : ℚ := 1.5

structure Env where
  link : Link
  ho : HandoverParams

/-! ## One UE -/

structure UeSatMetrics where
  elevation : ℚ
  distance : ℚ
  dopplerShift : ℚ
  snrDb : ℚ
  deriving DecidableEq

structure MeasResultCell where
  cellId : String
  rsrp : ℚ
  rsrq : ℚ
  sinr : ℚ
  distance : ℚ
  elevation : ℚ
  dopplerShift : ℚ
  measurementTime : ℚ
  deriving DecidableEq

structure MeasurementReport where
  reportTime : ℚ
  servingCell : MeasResultCell
  neighborCells : List MeasResultCell
  eventType : String
  triggerReason : String
  servingCellBelowThreshold : Bool
  betterNeighborAvailable : Bool
  deriving DecidableEq

structure UeMeasurementConfig where
  measurementPeriod : ℚ
  timeToTrigger : ℚ
  deriving DecidableEq

structure UeMeasurementState where
  servingCellId : String
  lastMeasurementTime : ℚ
  triggerActive : Bool
  triggerStartTime : ℚ
  candidateTargetCell : String
  lastMeasurements : StdMap MeasResultCell
  reportsSent : ℕ
  lastReportTime : ℚ

structure ChoConfiguration where
  targetCellId : String
  configurationTime : ℚ
  isValid : Bool
  expiryTime : ℚ
  deriving DecidableEq

inductive ChoPhase where
  | idle
  | measReportUplink
  | gnbChoDecision
  | xnRequest
  | xnResponse
  | rrcReconfigDownlink
  | configStored
  | ueEvaluating
  | ueExecuting
  | xnSuccess
  | xnCancel
  deriving DecidableEq

structure UeChoProcedureState where
  phase : ChoPhase
  sourceCell : String
  targetCell : String
  procedureStartTime : ℚ
  phaseStartTime : ℚ
  servingSnrAtReport : ℚ
  targetSnrAtReport : ℚ
  configReceivedTime : ℚ
  configExpiryTime : ℚ
  executionConditionMetTime : ℚ
  executionStartTime : ℚ
  servingSnrAtExecution : ℚ
  targetSnrAtExecution : ℚ
  executionTttActive : Bool
  executionTttStartTime : ℚ
  executionTimeToTrigger : ℚ
  measReportUplinkDelay : ℚ
  reconfigDownlinkDelay : ℚ
  failed : Bool
  failureReason : String
  deriving DecidableEq

structure UeChoConfigState where
  choConfigs : StdMap ChoConfiguration
  executionPending : Bool
  executionTargetCell : String
  executionTriggerTime : ℚ
  choConfigsReceived : ℕ

structure UeContext where
  servingGnb : String
  deriving DecidableEq

inductive HandoverPhase where
  | idle
  | preparation
  | execution
  | completion
  deriving DecidableEq

structure HandoverState where
  currentPhase : HandoverPhase
  interruptionActive : Bool
  deriving DecidableEq

structure HoContext where
  preServingSnr : ℚ
  preNeighborSnr : ℚ
  decisionTime : ℚ
  valid : Bool
  sourceCellId : String
  targetCellId : String
  triggerType : String
  deriving DecidableEq

/-- `ResetHoContext`. -/
def resetHoContext : HoContext where
  preServingSnr := -999
  preNeighborSnr := -999
  decisionTime := -1
  valid := false
  sourceCellId := ""
  targetCellId := ""
  triggerType := ""

structure ChoNtnStatistics where
  totalReports : ℕ := 0
  configsSent : ℕ := 0
  configsReceived : ℕ := 0
  executionsTriggered : ℕ := 0
  successfulHandovers : ℕ := 0
  failedAtExecution : ℕ := 0
  configsExpired : ℕ := 0
  totalProcedureDelay : ℚ := 0
  avgProcedureDelay : ℚ := 0
  totalExecutionDelay : ℚ := 0
  avgExecutionDelay : ℚ := 0
  lastReportTime : ℚ := -999
  deriving DecidableEq

/-- The statements that update a `ChoNtnStatistics`, per UE and globally. -/
inductive StatOp where
  | report (currentTime : ℚ)
  | configSent
  | configReceived
  | executionTriggered
  | success (totalProcedureDelay executionOnlyDelay : ℚ)
  | failedAtExecution
  | configExpired
  deriving DecidableEq

def StatOp.apply : StatOp → ChoNtnStatistics → ChoNtnStatistics
  | report currentTime, s =>
      { s with totalReports := s.totalReports + 1, lastReportTime := currentTime }
  | configSent, s => { s with configsSent := s.configsSent + 1 }
  | configReceived, s => { s with configsReceived := s.configsReceived + 1 }
  | executionTriggered, s => { s with executionsTriggered := s.executionsTriggered + 1 }
  | success totalProcedureDelay executionOnlyDelay, s =>
      let procedure := s.totalProcedureDelay + totalProcedureDelay
      let execution := s.totalExecutionDelay + executionOnlyDelay
      let handovers := s.successfulHandovers + 1
      { s with
        totalProcedureDelay := procedure
        totalExecutionDelay := execution
        successfulHandovers := handovers
        avgProcedureDelay := procedure / handovers
        avgExecutionDelay := execution / handovers }
  | failedAtExecution, s => { s with failedAtExecution := s.failedAtExecution + 1 }
  | configExpired, s => { s with configsExpired := s.configsExpired + 1 }

/-- `RateErrorModel`. `underInterruption` is a ghost: whether the last `SetAttribute("ErrorRate")`
was made under an active interruption. -/
structure RateErrorModel where
  errorRate : ℚ := 0
  underInterruption : Bool := false
  deriving DecidableEq

/-- Position and scenario of a UE, from its row of the UE-groups CSV. -/
structure UeGeo where
  lat : ℚ
  lon : ℚ
  scenario : String
  ecefX : ℚ
  ecefY : ℚ
  ecefZ : ℚ
  deriving DecidableEq

/-- The per-satellite caches that one link computation reads and writes, with the random engine. -/
structure ChannelState where
  channelCache : StdMap (ℚ × UeSatMetrics) := ∅
  shadowFadingCache : StdMap ℚ := ∅
  losStateCache : StdMap Bool := ∅
  lastEvalElev : StdMap ℚ := ∅
  rng : ℕ

/-- `snrHistory`: for each cell the time-stamped SNR samples, oldest first. -/
abbrev SnrHistory := StdMap (List (ℚ × ℚ))

/-- The physical layer cache of a UE. -/
structure Phy where
  channel : ChannelState
  snrHistory : SnrHistory := ∅

structure UeInfo where
  geo : UeGeo
  context : UeContext
  hoState : HandoverState
  measConfig : UeMeasurementConfig
  measState : UeMeasurementState
  choProcState : UeChoProcedureState
  choConfigState : UeChoConfigState
  hoContext : HoContext
  choNtnStats : ChoNtnStatistics := {}
  hoCount : ℕ := 0
  hoFail : ℕ := 0
  ulErrorModel : RateErrorModel := {}
  dlErrorModel : RateErrorModel := {}
  p2pDelay : ℚ := 0
  phy : Phy

/-! ## Events and what a handler writes outside its UE -/

/-- The scheduled handlers of the CHO procedure. -/
inductive ChoHandler where
  | phase1ReportArrived
  | phase2SendXnRequest
  | phase3XnResponse
  | phase4SendRrcReconfig
  | phase5UeStoresConfig
  | phase7ExecutionComplete
  deriving DecidableEq

structure PendingPredictionEval where
  ueId : ℕ
  servingCell : String
  neighborCell : String
  decisionTime : ℚ
  evalTime : ℚ
  deriving DecidableEq

structure PendingMeasurementValidation where
  recordTime : ℚ
  ueId : ℕ
  cellId : String
  distanceTrend : ℚ
  currentSinr : ℚ
  verificationTime : ℚ
  deriving DecidableEq

structure PendingServingSnrFollowup where
  recordTime : ℚ
  ueId : ℕ
  servingCellId : String
  servingSnrTrend : ℚ
  servingDistanceTrend : ℚ
  currentSinr : ℚ
  horizonSec : ℚ
  verificationTime : ℚ
  deriving DecidableEq

/-- What the event queue holds. -/
inductive Event where
  | checkHandoverConditions
  | cho (handler : ChoHandler) (ueId : ℕ) (sourceCell targetCell : String)
  | evaluatePendingPrediction (pendingEval : PendingPredictionEval)
  deriving DecidableEq

/-- A printed value: a number with a fixed precision or in the default format, a text. -/
inductive Field where
  | nat (n : ℕ)
  | fixed (precision : ℕ) (x : ℚ)
  | num (x : ℚ)
  | str (s : String)
  | empty
  deriving DecidableEq

/-- A line of output: tagged `key=value` pairs on the standard output, or a row of a CSV file. -/
inductive LogLine where
  | stdout (tag : String) (fields : List (String × Field))
  | csv (file : String) (fields : List Field)
  deriving DecidableEq

/-- What the measurement code of a UE records outside the UE. -/
inductive RecordEffect where
  | measurementValidation (r : PendingMeasurementValidation)
  | servingSnrFollowup (r : PendingServingSnrFollowup)
  | predictionEval (r : PendingPredictionEval)
  | log (line : LogLine)
  deriving DecidableEq

/-- What a handler of a UE does outside the UE. -/
inductive Effect where
  | schedule (delay : ℚ) (handler : ChoHandler) (ueId : ℕ) (sourceCell targetCell : String)
  | stat (op : StatOp)
  | handoverCount
  | record (r : RecordEffect)
  deriving DecidableEq

/-- `SPEED_OF_LIGHT`. -/
def speedOfLight : ℚ := 299792458

/-- `DELAY_RRC_PROC`. -/
def delayRrcProc : ℚ := 0.010

/-- `DELAY_BEAM_SWITCH`. -/
def delayBeamSwitch : ℚ := 0.005

end NtnCho
