import NtnCho.SnrCho

/-!
# SD-TOPSIS-CHO

The program of `MultiUE-CHO-TOPSIS`: the best neighbour has the highest SD-TOPSIS score, its closeness
to the ideal cell when SNR, elevation and distance are weighted by their standard deviations. It is
reported under the condition of SNR-CHO. The program has no `hoContext`: the one of the model stays
as it is reset.
-/

namespace NtnCho

namespace Topsis

/-! ## SD-TOPSIS -/

/-- The columns of the decision matrix. The distance is a cost, the other two are benefits. -/
inductive Criterion where
  | sinr
  | elevation
  | distance
  deriving DecidableEq

/-- A row of the decision matrix. -/
abbrev Row := Criterion → ℚ

def row (candidate : MeasResultCell) : Row
  | .sinr => candidate.sinr
  | .elevation => candidate.elevation
  | .distance => candidate.distance

def overCriteria (f : Criterion → ℚ) : ℚ := f .sinr + f .elevation + f .distance

/-- Step 1, vector normalization. -/
def normMatrix (libm : Libm) (matrix : List Row) : List Row :=
  let sumSquares j := (matrix.map fun r : Row => r j * r j).sum
  matrix.map fun r j => if 0 < sumSquares j then r j / libm.sqrt (sumSquares j) else r j

/-- Step 2, the standard deviation of each column. -/
def stdDev (libm : Libm) (normalized : List Row) (j : Criterion) : ℚ :=
  let mean := (normalized.map fun r : Row => r j).sum / normalized.length
  libm.sqrt ((normalized.map fun r : Row => libm.pow (r j - mean) 2).sum / normalized.length)

def weight (libm : Libm) (normalized : List Row) (j : Criterion) : ℚ :=
  let sumStdDev := overCriteria (stdDev libm normalized)
  if 0.000001 < sumStdDev then stdDev libm normalized j / sumStdDev else 1 / 3

/-- Step 3, the weighted normalized matrix. -/
def weighted (libm : Libm) (matrix : List Row) : List Row :=
  let normalized := normMatrix libm matrix
  normalized.map fun r j => r j * weight libm normalized j

def greatest (matrix : List Row) (j : Criterion) : ℚ :=
  matrix.foldl (fun found r => max found (r j)) (-1000000000)

def least (matrix : List Row) (j : Criterion) : ℚ :=
  matrix.foldl (fun found r => min found (r j)) 1000000000

/-- Step 4, the positive ideal solution. -/
def pis (matrix : List Row) : Row
  | .distance => least matrix .distance
  | j => greatest matrix j

/-- Step 4, the negative ideal solution. -/
def nis (matrix : List Row) : Row
  | .distance => greatest matrix .distance
  | j => least matrix j

/-- Step 5, the score of a row. -/
def score (libm : Libm) (matrix : List Row) (r : Row) : ℚ :=
  let distance (ideal : Row) := libm.sqrt (overCriteria fun j => libm.pow (r j - ideal j) 2)
  let distPIS := distance (pis matrix)
  let distNIS := distance (nis matrix)
  if 0 < distPIS + distNIS then distNIS / (distPIS + distNIS) else 0

/-- The body of the loop over the scores. -/
def takeHigher (best : MeasResultCell × ℚ) (scored : MeasResultCell × ℚ) : MeasResultCell × ℚ :=
  if best.2 < scored.2 then scored else best

/-- `FindBestTargetWithSD_TOPSIS`. -/
def findBestTargetWithSD_TOPSIS (libm : Libm) (candidates : List MeasResultCell) :
    Option MeasResultCell :=
  match candidates with
  | [] => none
  | [candidate] => some candidate
  | first :: rest =>
      let matrix := weighted libm ((first :: rest).map row)
      let scores := matrix.map (score libm matrix)
      some (((first :: rest).zip scores).foldl takeHigher (first, -1)).1

/-! ## The program -/

/-- The loop over the measured cells: the candidates, and the measurements it stores. -/
def validCandidates (ue : UeInfo) (measurements : List MeasResultCell) : List MeasResultCell :=
  measurements.filter fun meas => meas.cellId != ue.measState.servingCellId

def storeMeasurements (ue : UeInfo) (candidates : List MeasResultCell) : StdMap MeasResultCell :=
  candidates.foldl (fun stored meas => stored.insert meas.cellId meas) ue.measState.lastMeasurements

/-- The middle part of `UE_EvaluateAndReport`. -/
def evaluateNeighbors (env : Env) (_ueId : ℕ) (_simTime : ℚ) (ue : UeInfo)
    (serving : MeasResultCell) (measurements : List MeasResultCell) : Evaluation :=
  let ntnTrigger := SnrCho.ueEvaluateNtnTriggers serving
  let candidates := validCandidates ue measurements
  let bestNeighbor := findBestTargetWithSD_TOPSIS env.link.libm candidates
  let eventA3Triggered :=
    match bestNeighbor with
    | none => false
    | some neighbor =>
        SnrCho.ueEvaluateCHOPreparationCondition serving neighbor env.ho.reportingOffset
  { phy := ue.phy
    lastMeasurements := storeMeasurements ue candidates
    hoContext := ue.hoContext
    bestNeighbor := bestNeighbor
    ntnTrigger := ntnTrigger
    triggerConditionMet := ntnTrigger || eventA3Triggered
    betterNeighborAvailable := bestNeighbor.isSome
    records := [] }

/-- `SelectBestSatellite`: no hysteresis. -/
def selectBestSatellite (env : Env) (simTime : ℚ) (ue : UeInfo) (currentSat : String) : String :=
  let best :=
    ue.phy.channel.channelCache.toList.foldl (SnrCho.selectBetter env simTime) (currentSat, -999)
  if best.1 ≠ currentSat ∧ best.2 < getCachedSnr ue currentSat then currentSat else best.1

/-- What `CHO_HandleFailure` prints. -/
def failureLine (ueId : ℕ) (_failureTime : ℚ) (reason : String) (_ue : UeInfo) : LogLine :=
  .stdout "CHO HANDOVER FAILED" [("ue", .nat ueId), ("reason", .str reason)]

end Topsis

/-- The SD-TOPSIS-CHO simulator. `UpdateSatelliteState`, the reporting condition and the Phase-2
condition are those of SNR-CHO, word for word. -/
def sdTopsisCho : Program where
  phyRules := SnrCho.phyRules
  snrFloor _ := -6
  evaluateNeighbors := Topsis.evaluateNeighbors
  ntnReason := "NTN distance threshold exceeded"
  choPrepReason := "CHO Phase-1 MR triggered"
  executionCondition := SnrCho.executionCondition
  selectBestSatellite := Topsis.selectBestSatellite
  failureLine := Topsis.failureLine
  perUeStats := true
  resetContextOnExpiry := false
  reselectOnRlf := false

end NtnCho
