import NtnCho.Types
import Mathlib.Algebra.Field.Rat
import Mathlib.Algebra.Order.Ring.Rat
import Mathlib.Data.List.Infix
import Mathlib.Logic.Relation

/-!
# The satellite link of a UE

`UpdateSatelliteState` and what it calls: the interpolated trajectory, the 3GPP tables and the link
budget. A link computation draws from the random engine of the UE and writes its caches; it is
skipped when the cache holds an entry for the current second, when the satellite is out of coverage
and when the UE is closer than one metre. `linkUpdate` keeps the two outcomes apart.

The simulators differ in two places, which `PhyRules` names: serving-time CHO also refuses a time in
a gap between two passes, and TD-CHO records each computed SNR in a history.
-/

namespace NtnCho

/-! ## Trajectories -/

structure Ecef where
  x : ℚ
  y : ℚ
  z : ℚ
  deriving DecidableEq

/-- `M_PI`. -/
def mPi : ℚ := 3.14159265358979323846

/-- `GeographicToECEF` (WGS84). -/
def geographicToECEF (libm : Libm) (latDeg lonDeg altM : ℚ) : Ecef :=
  let a : ℚ := 6378137
  let e2 : ℚ := 0.00669437999014
  let latRad := latDeg * mPi / 180
  let lonRad := lonDeg * mPi / 180
  let n := a / libm.sqrt (1 - e2 * libm.sin latRad * libm.sin latRad)
  { x := (n + altM) * libm.cos latRad * libm.cos lonRad
    y := (n + altM) * libm.cos latRad * libm.sin lonRad
    z := (n * (1 - e2) + altM) * libm.sin latRad }

def TrajectoryPoint.ecef (p : TrajectoryPoint) : Ecef := ⟨p.xEcef, p.yEcef, p.zEcef⟩

/-- The scan of `InterpolatePosition` for the points around `simTime`. It stops before the end of
the trajectory whenever `simTime` does not lie beyond the last point. -/
def surroundingPoints (simTime : ℚ) :
    TrajectoryPoint → List TrajectoryPoint → TrajectoryPoint × TrajectoryPoint
  | p1, [] => (p1, p1)
  | p1, p2 :: rest => if p2.time < simTime then surroundingPoints simTime p2 rest else (p1, p2)

/-- `InterpolatePosition` of a trajectory. -/
def interpolatePosition (simTime : ℚ) : List TrajectoryPoint → Ecef
  | [] => ⟨0, 0, 0⟩
  | front :: rest =>
      let back := rest.getLastD front
      if simTime ≤ front.time then front.ecef
      else if back.time ≤ simTime then back.ecef
      else
        let (p1, p2) := surroundingPoints simTime front rest
        let alpha := (simTime - p1.time) / (p2.time - p1.time)
        { x := p1.xEcef + alpha * (p2.xEcef - p1.xEcef)
          y := p1.yEcef + alpha * (p2.yEcef - p1.yEcef)
          z := p1.zEcef + alpha * (p2.zEcef - p1.zEcef) }

/-- The trajectory of a satellite of the dataset, empty for an unknown name. -/
def Link.trajectory (L : Link) (satName : String) : List TrajectoryPoint :=
  match L.satellites[satName]? with
  | none => []
  | some sat => sat.trajectory

/-- `t` lies between the first and the last point. -/
def covers (trajectory : List TrajectoryPoint) (t : ℚ) : Bool :=
  match trajectory with
  | [] => false
  | front :: rest => decide (front.time ≤ t) && decide (t ≤ (rest.getLastD front).time)

/-- The trajectory has ended before `t`: the test of `UE_PerformMeasurements` and
`SelectBestSatellite`. -/
def ended (trajectory : List TrajectoryPoint) (t : ℚ) : Bool :=
  match trajectory with
  | [] => false
  | front :: rest => decide ((rest.getLastD front).time < t)

/-- `GetIslDelay`. -/
def getIslDelay (L : Link) (sat1 sat2 : String) (simTime : ℚ) : ℚ :=
  if sat1 = sat2 then 0
  else
    let p := interpolatePosition simTime (L.trajectory sat1)
    let q := interpolatePosition simTime (L.trajectory sat2)
    let dx := p.x - q.x
    let dy := p.y - q.y
    let dz := p.z - q.z
    L.libm.sqrt (dx * dx + dy * dy + dz * dz) / speedOfLight

/-! ## The 3GPP tables -/

/-- `std::map<int, double>`, its entries by increasing elevation. -/
abbrev Table := List (ℤ × ℚ)

/-- A table with entries at 10, 20, ..., 90 degrees. -/
def table (v10 v20 v30 v40 v50 v60 v70 v80 v90 : ℚ) : Table :=
  [(10, v10), (20, v20), (30, v30), (40, v40), (50, v50), (60, v60), (70, v70), (80, v80),
    (90, v90)]

/-- `Get3GPPParameter`; `none` is `table.at` of a missing key. -/
def get3GPPParameter {K : Type} [DivisionRing K] [LinearOrder K] [FloorRing K] (table : List (ℤ × K))
    (elevation : K) : Option K :=
  let elevLow : ℤ := max 10 (min 90 (⌊elevation / 10⌋ * 10))
  let elevHigh : ℤ := max 10 (min 90 (⌈elevation / 10⌉ * 10))
  if elevLow = elevHigh ∨ elevation ≤ 10 then table.lookup elevLow
  else do
    let valLow ← table.lookup elevLow
    let valHigh ← table.lookup elevHigh
    let alpha := (elevation - elevLow) / (elevHigh - elevLow)
    pure (valLow + alpha * (valHigh - valLow))

def shadowFadingStdRural : Table := table 1.9 1.6 1.9 2.3 2.7 3.1 3.0 3.6 0.4
def shadowFadingStdSuburban : Table := table 1.9 1.6 1.9 2.3 2.7 3.1 3.0 3.6 0.4
def shadowFadingStdUrban : Table := table 4.0 4.0 4.0 4.0 4.0 4.0 4.0 4.0 4.0
def shadowFadingStdDenseUrban : Table := table 2.9 2.4 2.7 2.4 2.4 2.7 2.6 2.8 0.6

def troposphericScintillation : Table := table 1.08 0.48 0.30 0.22 0.17 0.13 0.12 0.12 0.12

def clutterLossDenseUrbanNLOS : Table := table 44.3 39.9 37.5 35.8 34.6 33.8 33.3 33.0 32.9
def clutterLossUrbanNLOS : Table := table 44.3 39.9 37.5 35.8 34.6 33.8 33.3 33.0 32.9
def clutterLossRuralNLOS : Table := table 29.5 24.6 21.9 20.0 18.7 17.8 17.2 16.9 16.8
def clutterLossSuburbanNLOS : Table := table 29.5 24.6 21.9 20.0 18.7 17.8 17.2 16.9 16.8

def shadowFadingStdDenseUrbanNLOS : Table := table 17.1 17.1 15.6 14.6 14.2 12.6 12.1 12.3 12.3
def shadowFadingStdUrbanNLOS : Table := table 6.0 6.0 6.0 6.0 6.0 6.0 6.0 6.0 6.0
def shadowFadingStdRuralNLOS : Table := table 10.7 10.0 11.2 11.6 11.8 10.8 10.8 10.8 10.8
def shadowFadingStdSuburbanNLOS : Table := table 10.7 10.0 11.2 11.6 11.8 10.8 10.8 10.8 10.8

def ricianKDbDenseUrban : Table := table 6.1 13.7 12.9 10.3 9.2 8.4 8.0 7.4 7.6
def ricianKDbUrban : Table := table 40.18 23.62 12.48 8.56 7.42 5.97 4.88 4.22 3.81
def ricianKDbSuburban : Table := table 8.9 14.0 11.3 9.0 7.5 6.6 5.9 5.5 5.4
def ricianKDbRural : Table := table 4.63 6.83 12.91 18.9 22.44 25.69 27.95 31.45 28.01

/-- `s.find(pattern) != std::string::npos`. -/
def contains (s pattern : String) : Bool := decide (pattern.toList <:+: s.toList)

/-- `isUrban`, the test for plain urban: `suburban` contains `urban` too. -/
def isUrbanScenario (s : String) : Bool := contains s "urban" && !contains s "suburban"

/-- The case-insensitive dispatch of the table getters on the scenario. -/
def byScenario {α : Type} (scenario : String) (denseUrban urban suburban rural : α) : α :=
  let s := scenario.map Char.toLower
  if contains s "dense" then denseUrban
  else if isUrbanScenario s then urban
  else if contains s "suburban" then suburban
  else rural

def getShadowFadingTable (scenario : String) : Table :=
  byScenario scenario shadowFadingStdDenseUrban shadowFadingStdUrban shadowFadingStdSuburban
    shadowFadingStdRural

def getShadowFadingTableNLOS (scenario : String) : Table :=
  byScenario scenario shadowFadingStdDenseUrbanNLOS shadowFadingStdUrbanNLOS
    shadowFadingStdSuburbanNLOS shadowFadingStdRuralNLOS

def getClutterLossTable (scenario : String) : Table :=
  byScenario scenario clutterLossDenseUrbanNLOS clutterLossUrbanNLOS clutterLossSuburbanNLOS
    clutterLossRuralNLOS

def getRicianKFactorDb (scenario : String) (elevation : ℚ) : Option ℚ :=
  get3GPPParameter (byScenario scenario ricianKDbDenseUrban ricianKDbUrban ricianKDbSuburban
    ricianKDbRural) elevation

/-- The scenario of the UE without a trailing carriage return, in lower case. -/
def lowerScenario (scenario : String) : String :=
  (if scenario.back = '\r' then (scenario.dropEnd 1).toString else scenario).map Char.toLower

/-- The scan of `UpdateSatelliteState` over `elevAngles` and `probTable`. -/
def losTableScan {K : Type} [DivisionRing K] [LinearOrder K] (clampedElev : K) : List (K × K) → K
  | [] => 1
  | [(_, prob)] => prob
  | (angle, prob) :: (angle', prob') :: rest =>
      if angle' ≤ clampedElev then losTableScan clampedElev ((angle', prob') :: rest)
      else
        let alpha := (clampedElev - angle) / (angle' - angle)
        prob + alpha * (prob' - prob)

/-- `plos`, the probability of a line of sight. -/
def losProbability (isUrban : Bool) (elevation : ℚ) : ℚ :=
  let elevAngles : List ℚ := [10, 20, 30, 40, 50, 60, 70, 80, 90]
  let probTable : List ℚ :=
    if isUrban then [0.246, 0.386, 0.493, 0.613, 0.726, 0.805, 0.919, 0.968, 0.992]
    else [0.782, 0.869, 0.919, 0.929, 0.935, 0.940, 0.949, 0.952, 0.998]
  losTableScan (max 10 (min 90 elevation)) (elevAngles.zip probTable)

/-! ## The link budget -/

/-- `m.distance`, the slant range in metres. -/
def slantRange (L : Link) (geo : UeGeo) (trajectory : List TrajectoryPoint) (simTime : ℚ) : ℚ :=
  let sat := interpolatePosition simTime trajectory
  let dx := sat.x - geo.ecefX
  let dy := sat.y - geo.ecefY
  let dz := sat.z - geo.ecefZ
  L.libm.sqrt (dx * dx + dy * dy + dz * dz)

/-- `m.elevation` in degrees. -/
def linkElevation (L : Link) (geo : UeGeo) (trajectory : List TrajectoryPoint) (simTime : ℚ) : ℚ :=
  let sat := interpolatePosition simTime trajectory
  let distance := slantRange L geo trajectory simTime
  let dx := sat.x - geo.ecefX
  let dy := sat.y - geo.ecefY
  let dz := sat.z - geo.ecefZ
  let ueR := L.libm.sqrt
    (geo.ecefX * geo.ecefX + geo.ecefY * geo.ecefY + geo.ecefZ * geo.ecefZ)
  let dotRn := dx * (geo.ecefX / ueR) + dy * (geo.ecefY / ueR) + dz * (geo.ecefZ / ueR)
  L.libm.asin (max (-1) (min 1 (dotRn / distance))) * 180 / mPi

/-- `m.dopplerShift` in Hz, from the positions now and one second later. -/
def linkDoppler (L : Link) (geo : UeGeo) (trajectory : List TrajectoryPoint) (simTime : ℚ) : ℚ :=
  let sat := interpolatePosition simTime trajectory
  let distance := slantRange L geo trajectory simTime
  let dt : ℚ := 1
  let next := interpolatePosition (simTime + dt) trajectory
  let vx := (next.x - sat.x) / dt
  let vy := (next.y - sat.y) / dt
  let vz := (next.z - sat.z) / dt
  let rx := (geo.ecefX - sat.x) / distance
  let ry := (geo.ecefY - sat.y) / distance
  let rz := (geo.ecefZ - sat.z) / distance
  let vRadial := vx * rx + vy * ry + vz * rz
  L.frequency * vRadial / speedOfLight

/-- `m.snrDb` from the geometry, the shadow-fading feature, the line of sight and the two fading
draws. The table look-ups hit: every table has all nine entries. -/
def linkSnrDb (L : Link) (geo : UeGeo) (distance elevation dopplerShift sfFeature : ℚ)
    (isLOS : Bool) (gauss : ℚ × ℚ) : ℚ :=
  let libm := L.libm
  let frequencyGHz := L.frequency / 1000000000
  let fspl := 32.45 + 20 * libm.log10 frequencyGHz + 20 * libm.log10 distance
  let atmosLoss : ℚ := 0.2
  let tropLoss := (get3GPPParameter troposphericScintillation elevation).getD 0
  let isUrban := isUrbanScenario (lowerScenario geo.scenario)
  let sLower :=
    if isLOS then (if isUrban then "Urban-LOS" else "Rural-LOS")
    else (if isUrban then "Urban-NLOS" else "Rural-NLOS")
  let clutterLoss :=
    if isLOS then 0 else (get3GPPParameter (getClutterLossTable sLower) elevation).getD 0
  let shadowStd :=
    if isLOS then (get3GPPParameter (getShadowFadingTable sLower) elevation).getD 0
    else (get3GPPParameter (getShadowFadingTableNLOS sLower) elevation).getD 0
  let shadowFading := sfFeature * shadowStd
  let kFactorDb := (getRicianKFactorDb sLower elevation).getD 0
  let k := libm.pow 10 (kFactorDb / 10)
  let sigma := libm.sqrt (1 / (2 * (k + 1)))
  let s := libm.sqrt (k / (k + 1))
  let x := sigma * gauss.1
  let y := sigma * gauss.2
  let r := libm.sqrt (libm.pow (s + x) 2 + libm.pow y 2)
  let ricianFading := -20 * libm.log10 r
  let totalPathLoss := fspl + atmosLoss + tropLoss + clutterLoss + shadowFading + ricianFading
  let rxPower := L.txPower + L.txAntennaGain + L.rxGain - totalPathLoss
  let noisePowerDbm := -174 + 10 * libm.log10 L.bandwidth + L.noiseFigure
  let residualDoppler := |dopplerShift| * 0.01
  let frequencyOffsetRatio := residualDoppler / L.bandwidth
  let dopplerSnrLoss :=
    if 0.001 < frequencyOffsetRatio then 10 * libm.log10 (1 + frequencyOffsetRatio * 100) else 0
  rxPower - noisePowerDbm + L.fecCodingGain - dopplerSnrLoss

/-- The packet error rate of an SNR, clamped to `[0, 1]`. -/
def packetErrorRate (L : Link) (snrDb : ℚ) : ℚ :=
  let snrLinear := L.libm.pow 10 (snrDb / 10)
  let ber := 0.5 * L.libm.erfc (L.libm.sqrt snrLinear)
  let per := 1 - L.libm.pow (1 - ber) (L.packetSize * 8 : ℕ)
  max 0 (min 1 per)

/-! ## Updating a link -/

/-- Where the simulators' `UpdateSatelliteState` differ: `inPass` is the further coverage test,
`updateHistory` what a computed SNR does to the history. -/
structure PhyRules where
  inPass : List TrajectoryPoint → ℚ → Bool
  updateHistory : HandoverParams → String → ℚ → ℚ → SnrHistory → SnrHistory

/-- The metrics of a satellite out of coverage. -/
def outOfCoverage : UeSatMetrics := ⟨-90, 1000000000, 0, -999⟩

/-- The shadow-fading feature of a satellite, drawn at its first use. -/
def drawShadowFading (L : Link) (satName : String) (ch : ChannelState) : ℚ × ChannelState :=
  match ch.shadowFadingCache[satName]? with
  | some sfFeature => (sfFeature, ch)
  | none =>
      let (sfFeature, rng) := L.rng.normal ch.rng
      (sfFeature,
        { ch with shadowFadingCache := ch.shadowFadingCache.insert satName sfFeature, rng := rng })

/-- The line of sight of a satellite, drawn at its first use. -/
def drawLineOfSight (L : Link) (satName : String) (plos elevation : ℚ) (ch : ChannelState) :
    Bool × ChannelState :=
  match ch.losStateCache[satName]? with
  | some isLOS => (isLOS, ch)
  | none =>
      let (u, rng) := L.rng.uniform ch.rng
      let isLOS := decide (u ≤ plos)
      (isLOS,
        { ch with
          losStateCache := ch.losStateCache.insert satName isLOS
          lastEvalElev := ch.lastEvalElev.insert satName elevation
          rng := rng })

/-- The outcome of `UpdateSatelliteState`: metrics returned with nothing written, or computed
metrics with the channel state they leave. -/
inductive LinkUpdate where
  | returned (m : UeSatMetrics)
  | computed (m : UeSatMetrics) (ch : ChannelState)

/-- The computation of `UpdateSatelliteState` for a covered satellite. -/
def linkCompute (L : Link) (geo : UeGeo) (satName : String) (trajectory : List TrajectoryPoint)
    (simTime : ℚ) (ch : ChannelState) : UeSatMetrics × ChannelState :=
  let distance := slantRange L geo trajectory simTime
  let elevation := linkElevation L geo trajectory simTime
  let dopplerShift := linkDoppler L geo trajectory simTime
  let (sfFeature, ch₁) := drawShadowFading L satName ch
  let isUrban := isUrbanScenario (lowerScenario geo.scenario)
  let (isLOS, ch₂) := drawLineOfSight L satName (losProbability isUrban elevation) elevation ch₁
  let (gauss, rng) := L.rng.normalPair ch₂.rng
  let m : UeSatMetrics :=
    { elevation := elevation
      distance := distance
      dopplerShift := dopplerShift
      snrDb := linkSnrDb L geo distance elevation dopplerShift sfFeature isLOS gauss }
  (m, { ch₂ with channelCache := ch₂.channelCache.insert satName (simTime, m), rng := rng })

/-- `UpdateSatelliteState` past its cache test. -/
def linkRefresh (rules : PhyRules) (L : Link) (geo : UeGeo) (satName : String) (simTime : ℚ)
    (ch : ChannelState) : LinkUpdate :=
  let trajectory := L.trajectory satName
  if covers trajectory simTime && rules.inPass trajectory simTime then
    let distance := slantRange L geo trajectory simTime
    if distance < 1 then .returned { outOfCoverage with distance := distance }
    else
      let (m, ch') := linkCompute L geo satName trajectory simTime ch
      .computed m ch'
  else .returned outOfCoverage

/-- `UpdateSatelliteState` on the channel state. -/
def linkUpdate (rules : PhyRules) (L : Link) (geo : UeGeo) (satName : String) (simTime : ℚ)
    (ch : ChannelState) : LinkUpdate :=
  let discreteTime : ℚ := ⌊simTime + 0.000001⌋
  match ch.channelCache[satName]? with
  | some (time, m) =>
      if time = discreteTime then .returned m else linkRefresh rules L geo satName simTime ch
  | none => linkRefresh rules L geo satName simTime ch

/-- `UpdateSatelliteState`. -/
def updateSatelliteState (rules : PhyRules) (env : Env) (geo : UeGeo) (satName : String)
    (simTime : ℚ) (phy : Phy) : UeSatMetrics × Phy :=
  match linkUpdate rules env.link geo satName simTime phy.channel with
  | .returned m => (m, phy)
  | .computed m ch =>
      (m, { channel := ch
            snrHistory := rules.updateHistory env.ho satName simTime m.snrDb phy.snrHistory })

/-- Step 1 of `CheckHandoverConditions` for one UE: every satellite is updated, in name order.
Returns what each update returns. -/
def updateAllSatellites (rules : PhyRules) (env : Env) (geo : UeGeo) (simTime : ℚ) :
    List String → Phy → List (String × UeSatMetrics) × Phy
  | [], phy => ([], phy)
  | satName :: rest, phy =>
      let (m, phy₁) := updateSatelliteState rules env geo satName simTime phy
      let (ms, phy₂) := updateAllSatellites rules env geo simTime rest phy₁
      ((satName, m) :: ms, phy₂)

end NtnCho
