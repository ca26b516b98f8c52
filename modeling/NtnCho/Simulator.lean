import NtnCho.EventSystem.Component
import NtnCho.TdCho

/-!
# The simulators as discrete-event systems

The global variables, the event queue and the handlers on them: `CheckHandoverConditions`, which
goes through all UEs once a second, the scheduled phases of the UEs and
`EvaluatePendingPrediction`. Time stamps are nanoseconds, as in `ns3::Time`.

`SimRun` are the runs that ns-3 can produce, in any order of same-time events of different UEs.
-/

namespace NtnCho

open EventSystem

/-! ## Time -/

/-- `Seconds(x)`, rounded to nanoseconds. -/
def seconds (x : ℚ) : ℤ := ⌊x * 1000000000 + 1 / 2⌋

/-- `Time::GetSeconds`. -/
def getSeconds (now : ℤ) : ℚ := now / 1000000000

/-! ## Global state -/

/-- The global variables. -/
structure Sim where
  ues : List UeInfo
  choNtnStats : ChoNtnStatistics := {}
  handoverCount : ℕ := 0
  pendingPredictionEvals : List PendingPredictionEval := []
  pendingMeasurementValidations : List PendingMeasurementValidation := []
  pendingServingSnrFollowups : List PendingServingSnrFollowup := []
  log : List LogLine := []

/-- The events a handler schedules. -/
abbrev Schedule := List (Pending ℤ Event)

/-- What a record of the measurement code does to the global state; `predictionEval` is
`SchedulePendingPredictionEval`. -/
def Sim.record (now : ℤ) (s : Sim) : RecordEffect → Sim × Schedule
  | .measurementValidation r =>
      ({ s with pendingMeasurementValidations := s.pendingMeasurementValidations ++ [r] }, [])
  | .servingSnrFollowup r =>
      ({ s with pendingServingSnrFollowups := s.pendingServingSnrFollowups ++ [r] }, [])
  | .predictionEval r =>
      ({ s with pendingPredictionEvals := s.pendingPredictionEvals ++ [r] },
        [⟨now + seconds (max 0 (r.evalTime - getSeconds now)), .evaluatePendingPrediction r⟩])
  | .log line => ({ s with log := s.log ++ [line] }, [])

/-- What an effect does to the global state. -/
def Sim.applyEffect (now : ℤ) (s : Sim) : Effect → Sim × Schedule
  | .schedule delay handler ueId sourceCell targetCell =>
      (s, [⟨now + seconds delay, .cho handler ueId sourceCell targetCell⟩])
  | .stat op => ({ s with choNtnStats := op.apply s.choNtnStats }, [])
  | .handoverCount => ({ s with handoverCount := s.handoverCount + 1 }, [])
  | .record r => s.record now r

def Sim.applyEffects (now : ℤ) : Sim → List Effect → Sim × Schedule
  | s, [] => (s, [])
  | s, effect :: effects =>
      let (s₁, scheduled₁) := s.applyEffect now effect
      let (s₂, scheduled₂) := s₁.applyEffects now effects
      (s₂, scheduled₁ ++ scheduled₂)

/-- A loop over `g_ues` from index `i` on: the UEs after it, and the effects in order. -/
def forEachUe (body : ℕ → UeInfo → UeInfo × List Effect) :
    ℕ → List UeInfo → List UeInfo × List Effect
  | _, [] => ([], [])
  | i, ue :: ues =>
      let (ue', effects) := body i ue
      let (ues', effects') := forEachUe body (i + 1) ues
      (ue' :: ues', effects ++ effects')

/-! ## Pending verifications -/

/-- The row of `distance_trend_validation.csv` for a validation that is due. -/
def validationRow (ues : List UeInfo) (it : PendingMeasurementValidation) : List LogLine :=
  match ues[it.ueId]?.bind fun ue =>
      TdCho.getSnrAtTime ue.phy.snrHistory it.cellId it.verificationTime with
  | none => []
  | some futureSinr =>
      [.csv "distance_trend_validation"
        [.fixed 3 it.recordTime, .nat it.ueId, .str it.cellId, .fixed 6 it.distanceTrend,
          .fixed 2 it.currentSinr, .fixed 2 futureSinr, .fixed 2 (futureSinr - it.currentSinr)]]

/-- `VerifyPendingMeasurements`. -/
def Sim.verifyPendingMeasurements (simTime : ℚ) (s : Sim) : Sim :=
  let (due, rest) :=
    s.pendingMeasurementValidations.partition fun it => decide (it.verificationTime ≤ simTime)
  { s with
    pendingMeasurementValidations := rest
    log := s.log ++ due.flatMap (validationRow s.ues) }

/-- The row of `serving_snr_trigger_followup.csv` for a follow-up that is due. -/
def followupRow (ues : List UeInfo) (it : PendingServingSnrFollowup) : LogLine :=
  let found := ues[it.ueId]?.bind fun ue =>
    TdCho.getSnrAtTime ue.phy.snrHistory it.servingCellId it.verificationTime
  let observation : List Field :=
    match found with
    | some futureSinr =>
        let sinrDelta := futureSinr - it.currentSinr
        [.nat 1, .fixed 2 futureSinr, .fixed 2 sinrDelta, .nat (if sinrDelta < 0 then 1 else 0),
          .nat (if sinrDelta ≤ -1 then 1 else 0)]
    | none => [.nat 0, .str "NA", .str "NA", .nat 0, .nat 0]
  .csv "serving_snr_trigger_followup"
    ([.fixed 3 it.recordTime, .nat it.ueId, .str it.servingCellId, .fixed 6 it.servingSnrTrend,
      .fixed 6 it.servingDistanceTrend, .fixed 2 it.currentSinr, .fixed 1 it.horizonSec,
      .fixed 3 it.verificationTime] ++ observation)

/-- `VerifyPendingServingSnrFollowups`. -/
def Sim.verifyPendingServingSnrFollowups (simTime : ℚ) (s : Sim) : Sim :=
  let (due, rest) :=
    s.pendingServingSnrFollowups.partition fun it => decide (it.verificationTime ≤ simTime)
  { s with
    pendingServingSnrFollowups := rest
    log := s.log ++ due.map (followupRow s.ues) }

/-- The test of `EvaluatePendingPrediction` for the entry it removes. -/
def PendingPredictionEval.same (pendingEval item : PendingPredictionEval) : Bool :=
  item.ueId == pendingEval.ueId && item.servingCell == pendingEval.servingCell &&
    item.neighborCell == pendingEval.neighborCell &&
    decide (|item.decisionTime - pendingEval.decisionTime| < 0.000000001)

/-- `EvaluatePendingPrediction`. -/
def Sim.evaluatePendingPrediction (now : ℤ) (pendingEval : PendingPredictionEval) (s : Sim) :
    Sim :=
  let s' : Sim :=
    { s with
      pendingPredictionEvals := s.pendingPredictionEvals.filter fun item => !pendingEval.same item }
  match s.ues[pendingEval.ueId]? with
  | none => s'
  | some ue =>
      match ue.cached pendingEval.servingCell, ue.cached pendingEval.neighborCell with
      | some serving, some neighbor =>
          { s' with
            log := s'.log ++ [.stdout "FUTURE_DEBUG"
              [("ue", .nat pendingEval.ueId), ("t_decision", .fixed 3 pendingEval.decisionTime),
                ("t_eval", .fixed 3 (getSeconds now)), ("future_serving_sinr", .fixed 2 serving.snrDb),
                ("future_neighbor_sinr", .fixed 2 neighbor.snrDb)]] }
      | _, _ => s'

/-! ## Events -/

/-- Step 1 of `CheckHandoverConditions` for one UE. -/
def updateChannelCache (P : Program) (env : Env) (simTime : ℚ) (ue : UeInfo) : UeInfo :=
  { ue with
    phy := (updateAllSatellites P.phyRules env ue.geo simTime env.link.satellites.keys ue.phy).2 }

/-- `CheckHandoverConditions`. Only TD-CHO ever has validations and follow-ups pending. -/
def Sim.checkHandoverConditions (P : Program) (env : Env) (now : ℤ) (s : Sim) : Sim × Schedule :=
  let simTime := getSeconds now
  let s₁ : Sim := { s with ues := s.ues.map (updateChannelCache P env simTime) }
  let s₂ : Sim := { s₁ with ues := s₁.ues.map (updateChannelState P env simTime) }
  let s₃ := (s₂.verifyPendingMeasurements simTime).verifyPendingServingSnrFollowups simTime
  let (ues, effects) := forEachUe (fun i => checkHandover P env i simTime) 0 s₃.ues
  let (s₄, scheduled) := { s₃ with ues := ues }.applyEffects now effects
  (s₄, scheduled ++ [⟨now + seconds 1, .checkHandoverConditions⟩])

/-- A scheduled phase of a UE. -/
def Sim.cho (P : Program) (env : Env) (handler : ChoHandler) (ueId : ℕ)
    (sourceCell targetCell : String) (now : ℤ) (s : Sim) : Sim × Schedule :=
  match s.ues[ueId]? with
  | none => (s, [])
  | some ue =>
      let (ue', effects) :=
        choHandler P env handler ueId sourceCell targetCell (getSeconds now) ue
      { s with ues := s.ues.set ueId ue' }.applyEffects now effects

/-- The handlers of all events. -/
def simHandler (P : Program) (env : Env) : Handler ℤ Sim Event
  | .checkHandoverConditions, now, s => s.checkHandoverConditions P env now
  | .cho handler ueId sourceCell targetCell, now, s =>
      s.cho P env handler ueId sourceCell targetCell now
  | .evaluatePendingPrediction pendingEval, now, s =>
      (s.evaluatePendingPrediction now pendingEval, [])

/-! ## Runs -/

/-- A row of the UE-groups CSV. -/
structure UeRow where
  lat : ℚ
  lon : ℚ
  scenario : String
  deriving DecidableEq

/-- The UE that `LoadUeGroupsFromCsv` makes of the row with index `index`. -/
def initialUe (env : Env) (index : ℕ) (row : UeRow) : UeInfo :=
  let ecef := geographicToECEF env.link.libm row.lat row.lon 0
  { geo := ⟨row.lat, row.lon, row.scenario, ecef.x, ecef.y, ecef.z⟩
    context := ⟨""⟩
    hoState := ⟨.idle, false⟩
    measConfig := ⟨1, env.ho.timeToTrigger⟩
    measState := ⟨"", -1, false, -1, "", ∅, 0, -1⟩
    choProcState :=
      { phase := .idle
        sourceCell := ""
        targetCell := ""
        procedureStartTime := 0
        phaseStartTime := 0
        servingSnrAtReport := 0
        targetSnrAtReport := 0
        configReceivedTime := -999
        configExpiryTime := -999
        executionConditionMetTime := -999
        executionStartTime := -999
        servingSnrAtExecution := 0
        targetSnrAtExecution := 0
        executionTttActive := false
        executionTttStartTime := -1
        executionTimeToTrigger := env.ho.choNtnConfig.executionTimeToTrigger
        measReportUplinkDelay := 0
        reconfigDownlinkDelay := 0
        failed := false
        failureReason := "" }
    choConfigState := ⟨∅, false, "", -1, 0⟩
    hoContext := resetHoContext
    phy := { channel := { rng := env.link.rng.seed (env.link.randomSeed + index) } } }

/-- The configuration at the start of `Simulator::Run`. -/
def initial (env : Env) (rows : List UeRow) : Conf ℤ Sim Event :=
  ⟨{ ues := rows.mapIdx (initialUe env) }, [⟨0, .checkHandoverConditions⟩]⟩

/-- Events whose order matters when they fall on the same time: ticks, and events of one UE. -/
def Event.conflict : Event → Event → Prop
  | .checkHandoverConditions, _ => True
  | _, .checkHandoverConditions => True
  | .cho _ i _ _, .cho _ j _ _ => i = j
  | _, _ => False

/-- The runs of a simulator: by time, conflicting events of the same time as scheduled. -/
abbrev SimRun (P : Program) (env : Env) (rows : List UeRow) :
    List (Firing ℤ Sim Event) → Conf ℤ Sim Event → Prop :=
  Run (simHandler P env) (timeOrder Event.conflict) (initial env rows)

/-- The runs that fire pending events in any order at all. -/
abbrev AnyOrderRun (P : Program) (env : Env) (rows : List UeRow) :
    List (Firing ℤ Sim Event) → Conf ℤ Sim Event → Prop :=
  Run (simHandler P env) anyOrder (initial env rows)

/-! ## A sample environment

Rational stand-ins for `<cmath>`, accurate at the arguments that the sample runs reach, and an
engine whose normal draws are zero. Satellites stand above a UE at the origin of the coordinates. -/

def newtonSqrt : ℕ → ℕ → ℕ → ℕ
  | 0, _, r => r
  | steps + 1, n, r => newtonSqrt steps n ((r + n / r) / 2)

/-- The square root, rounded down to six decimals. -/
def sampleSqrt (x : ℚ) : ℚ :=
  let n := ⌊x * 1000000000000⌋.toNat
  (newtonSqrt 8 n (2 ^ (n.log2 / 2 + 1)) : ℚ) / 1000000

def sampleLog10 (x : ℚ) : ℚ :=
  if x = 20 then 1.30103
  else if x = 250000000 then 8.39794
  else if x = 500000 then 5.69897
  else if x = 1000000 then 6
  else if x = 3000000 then 6.477121
  else if x = 5000000 then 6.69897
  else (x - 1) * 0.4342945

def samplePow (x y : ℚ) : ℚ :=
  if y = 2 then x * x
  else if y = 2.801 then 632.4
  else if x = 10 then if y ≤ -10 then 0 else (1 + y * 0.287823) ^ 8
  else if x < 1 then 0
  else 1

def sampleLibm : Libm where
  sqrt := sampleSqrt
  log10 := sampleLog10
  pow := samplePow
  sin x := x
  cos _ := 1
  asin x := if x ≤ -1 then -mPi / 2 else if 1 ≤ x then mPi / 2 else x
  erfc x := 1 / (1 + x) ^ 6
  sqrt_nonneg x := by
    unfold sampleSqrt
    positivity

def sampleRng : Rng where
  seed n := n
  normal n := (0, n + 1)
  normalPair n := ((0, 0), n + 1)
  uniform n := (0.5, n + 1)

/-- A satellite that stands at the given altitudes above the UE at the given times. -/
def overhead (name : String) (altitudes : List (ℚ × ℚ)) : SatelliteState where
  name := name
  trajectory := altitudes.map fun (time, altM) => ⟨time, 6378137 + altM, 0, 0, 0, 0, altM⟩

def sampleLink (satellites : List SatelliteState) : Link where
  libm := sampleLibm
  rng := sampleRng
  satellites := satellites.foldl (fun loaded sat => loaded.insert sat.name sat) ∅

/-- The satellite `S` recedes while `N` comes closer: a UE below them is handed over. -/
def crossing : Env where
  link := sampleLink
    [overhead "S" [(0, 500000), (1, 1000000), (60, 1000000)],
      overhead "N" [(0, 1000000), (1, 500000), (60, 500000)]]
  ho := {}

/-- A UE at the origin of the coordinates. -/
def sampleRows : List UeRow := [⟨0, 0, "Rural"⟩]

/-- The first `n` events of a simulation. -/
def sampleRun (P : Program) (env : Env) (rows : List UeRow) (n : ℕ) :
    List (Firing ℤ Sim Event) × Conf ℤ Sim Event :=
  runFifo (simHandler P env) n (initial env rows)

theorem simRun_sampleRun (P : Program) (env : Env) (rows : List UeRow) (n : ℕ) :
    SimRun P env rows (sampleRun P env rows n).1 (sampleRun P env rows n).2 :=
  (runFifo_run n (initial env rows)).mono timeOrder_of_fifo

end NtnCho
