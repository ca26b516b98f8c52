import NtnCho.Serving
import NtnCho.Text.Csv

/-!
# The visualization snapshots

At the end of a tick `WriteVisualizationSnapshot` writes a row for every UE, in the order of the UEs. So
the rows of one UE are those of its ticks, in order, and a row shows the serving satellite after its
tick.
-/

namespace NtnCho

open EventSystem Text

variable {P : Program} {env : Env} {i : ℕ}

/-! ## What is written -/

/-- `NormalizeLongitude`: its loops take off or add whole turns until the longitude is in range. -/
def normalizeLongitude (lonDeg : ℚ) : ℚ :=
  if 180 < lonDeg then lonDeg - 360 * ⌈(lonDeg - 180) / 360⌉
  else if lonDeg < -180 then lonDeg + 360 * ⌈(-180 - lonDeg) / 360⌉
  else lonDeg

/-- One round of the loop for a longitude that is too large. -/
theorem normalizeLongitude_of_gt {lonDeg : ℚ} (large : 180 < lonDeg) :
    normalizeLongitude lonDeg = normalizeLongitude (lonDeg - 360) := by
  have shift : ⌈(lonDeg - 360 - 180) / 360⌉ = ⌈(lonDeg - 180) / 360⌉ - 1 := by
    rw [← Int.ceil_sub_one]
    congr 1
    ring
  have above : -180 < lonDeg - 360 := by linarith
  unfold normalizeLongitude
  rw [if_pos large, if_neg (not_lt.mpr above.le), shift]
  split
  · push_cast
    ring
  · have one : ⌈(lonDeg - 180) / 360⌉ = 1 := by
      rw [Int.ceil_eq_iff]
      push_cast
      constructor <;> linarith
    rw [one]
    push_cast
    ring

/-- One round of the loop for a longitude that is too small. -/
theorem normalizeLongitude_of_lt {lonDeg : ℚ} (small : lonDeg < -180) :
    normalizeLongitude lonDeg = normalizeLongitude (lonDeg + 360) := by
  have shift : ⌈(-180 - (lonDeg + 360)) / 360⌉ = ⌈(-180 - lonDeg) / 360⌉ - 1 := by
    rw [← Int.ceil_sub_one]
    congr 1
    ring
  have below : lonDeg + 360 < 180 := by linarith
  unfold normalizeLongitude
  rw [if_neg (by linarith), if_pos small, if_neg (not_lt.mpr below.le), shift]
  split
  · push_cast
    ring
  · have one : ⌈(-180 - lonDeg) / 360⌉ = 1 := by
      rw [Int.ceil_eq_iff]
      push_cast
      constructor <;> linarith
    rw [one]
    push_cast
    ring

/-- A position above the ground. -/
structure GeoPosition where
  latDeg : ℚ
  lonDeg : ℚ
  altKm : ℚ

def TrajectoryPoint.geoPosition (p : TrajectoryPoint) : GeoPosition := ⟨p.latDeg, p.lonDeg, p.altM / 1000⟩

/-- `InterpolateGeoPosition` of a trajectory. -/
def interpolateGeoPosition (simTime : ℚ) : List TrajectoryPoint → GeoPosition
  | [] => ⟨0, 0, 0⟩
  | front :: rest =>
      let back := rest.getLastD front
      if simTime ≤ front.time then front.geoPosition
      else if back.time ≤ simTime then back.geoPosition
      else
        let (p1, p2) := surroundingPoints simTime front rest
        let alpha := (simTime - p1.time) / (p2.time - p1.time)
        let far := 180 < |p2.lonDeg - p1.lonDeg|
        let lon1 := if far ∧ p1.lonDeg < p2.lonDeg then p1.lonDeg + 360 else p1.lonDeg
        let lon2 := if far ∧ ¬ p1.lonDeg < p2.lonDeg then p2.lonDeg + 360 else p2.lonDeg
        { latDeg := p1.latDeg + alpha * (p2.latDeg - p1.latDeg)
          lonDeg := normalizeLongitude (lon1 + alpha * (lon2 - lon1))
          altKm := (p1.altM + alpha * (p2.altM - p1.altM)) / 1000 }

/-- The body of the loop of `GetBestNeighborForVisualization`. -/
def visualizeBetter (env : Env) (simTime : ℚ) (servingSat : String) (best : String × ℚ)
    (entry : String × ℚ × UeSatMetrics) : String × ℚ :=
  let satName := entry.1
  let metrics := entry.2.2
  if satName = servingSat ∨ metrics.elevation < 0 then best
  else if ended (env.link.trajectory satName) simTime then best
  else if best.2 < metrics.snrDb then (satName, metrics.snrDb)
  else best

/-- `GetBestNeighborForVisualization`: the satellite, none if empty, and its SNR. -/
def getBestNeighborForVisualization (env : Env) (simTime : ℚ) (ue : UeInfo) (servingSat : String) :
    String × ℚ :=
  ue.phy.channel.channelCache.toList.foldl (visualizeBetter env simTime servingSat) ("", -999)

/-- A row of `visualization_snapshot.csv`. -/
structure SnapshotRow where
  simTime : ℚ
  ueId : ℕ
  lat : ℚ
  lon : ℚ
  servingSat : String
  serving : GeoPosition
  servingSnr : ℚ
  bestNeighborSat : String
  neighbor : GeoPosition
  bestNeighborSnr : ℚ
  hoInProgress : Bool

/-- The position that is written for a satellite, zero for none. -/
def visualPosition (env : Env) (simTime : ℚ) (satName : String) : GeoPosition :=
  if satName = "" then ⟨0, 0, 0⟩ else interpolateGeoPosition simTime (env.link.trajectory satName)

/-- The row of a UE. -/
def snapshotRow (env : Env) (simTime : ℚ) (ueId : ℕ) (ue : UeInfo) : SnapshotRow :=
  let servingSat := ue.context.servingGnb
  let best := getBestNeighborForVisualization env simTime ue servingSat
  { simTime := simTime
    ueId := ueId
    lat := ue.geo.lat
    lon := ue.geo.lon
    servingSat := servingSat
    serving := visualPosition env simTime servingSat
    servingSnr :=
      if servingSat = "" then -999 else ((ue.cached servingSat).map UeSatMetrics.snrDb).getD (-999)
    bestNeighborSat := best.1
    neighbor := visualPosition env simTime best.1
    bestNeighborSnr := best.2
    hoInProgress := decide (ue.choProcState.phase ≠ .idle) }

/-- `WriteVisualizationSnapshot`. -/
def writeVisualizationSnapshot (env : Env) (simTime : ℚ) (ues : List UeInfo) : List SnapshotRow :=
  ues.mapIdx (snapshotRow env simTime)

/-- The columns of the file. -/
def snapshotColumns : List String :=
  ["time_s", "ue_id", "ue_lat", "ue_lon", "serving_satellite", "serving_sat_lat", "serving_sat_lon",
    "serving_sat_alt_km", "serving_snr_dB", "best_neighbor_satellite", "best_neighbor_sat_lat",
    "best_neighbor_sat_lon", "best_neighbor_sat_alt_km", "best_neighbor_snr_dB", "ho_in_progress"]

/-- The fields of a row, as they are printed. -/
def SnapshotRow.fields (row : SnapshotRow) : List (List Char) :=
  [showFixed 3 row.simTime, showNat row.ueId, showFixed 6 row.lat, showFixed 6 row.lon,
    row.servingSat.toList, showFixed 6 row.serving.latDeg, showFixed 6 row.serving.lonDeg,
    showFixed 3 row.serving.altKm, showFixed 4 row.servingSnr, row.bestNeighborSat.toList,
    showFixed 6 row.neighbor.latDeg, showFixed 6 row.neighbor.lonDeg, showFixed 3 row.neighbor.altKm,
    showFixed 4 row.bestNeighborSnr, showNat row.hoInProgress.toNat]

/-- The file with these rows below its header. -/
def snapshotCsv (rows : List SnapshotRow) : List Char :=
  unlines (csv (snapshotColumns.map String.toList) :: rows.map fun row => csv row.fields)

/-- The rows that a history writes. -/
def snapshots (env : Env) (h : List (Firing ℤ Sim Event)) : List SnapshotRow :=
  h.flatMap fun f =>
    match f.event.ev with
    | .checkHandoverConditions =>
        writeVisualizationSnapshot env (getSeconds f.event.ts) f.after.state.ues
    | _ => []

/-! ## The rows of one UE -/

/-- The row that a tick of UE `i` writes. -/
def rowAfter (env : Env) (i : ℕ) (f : Firing ℤ (Option UeInfo) Event) : Option SnapshotRow :=
  f.after.state.map (snapshotRow env (fireTime f) i)

/-- Among entries that carry their index, those with index `k` are one at most. -/
theorem filter_mapIdx {α β : Type} (key : β → ℕ) (l : List α) (f : ℕ → α → β) (shift k : ℕ)
    (own : ∀ j a, key (f j a) = shift + j) :
    (l.mapIdx f).filter (fun b => key b = shift + k) = (l[k]?.map (f k)).toList := by
  induction l generalizing f shift k with
  | nil => rfl
  | cons a l ih =>
      rw [List.mapIdx_cons]
      have next : ∀ j a, key (f (j + 1) a) = shift + 1 + j := fun j a => by
        rw [own]
        omega
      cases k with
      | zero =>
          have none : (l.mapIdx fun j => f (j + 1)).filter (fun b => key b = shift + 0) = [] := by
            refine List.filter_eq_nil_iff.mpr fun b member => ?_
            obtain ⟨j, bound, rfl⟩ := List.mem_mapIdx.mp member
            simp [own]
          rw [List.filter_cons_of_pos (by simp [own]), none]
          rfl
      | succ k =>
          rw [List.filter_cons_of_neg (by simp [own])]
          have rest := ih (fun j => f (j + 1)) (shift + 1) k next
          rw [show shift + 1 + k = shift + (k + 1) by omega] at rest
          exact rest

/-- A snapshot has one row for each UE. -/
theorem filter_writeVisualizationSnapshot (simTime : ℚ) (ues : List UeInfo) (i : ℕ) :
    (writeVisualizationSnapshot env simTime ues).filter (fun row => row.ueId = i) =
      (ues[i]?.map (snapshotRow env simTime i)).toList := by
  have all := filter_mapIdx SnapshotRow.ueId ues (snapshotRow env simTime) 0 i fun j ue => by
    rw [Nat.zero_add]
    rfl
  rwa [Nat.zero_add] at all

/-- The rows of UE `i` are those of its ticks. -/
theorem filter_snapshots (h : List (Firing ℤ Sim Event)) :
    (snapshots env h).filter (fun row => row.ueId = i) =
      (ticks (ueHistory P env i h)).filterMap (rowAfter env i) := by
  induction h with
  | nil => rfl
  | cons f h ih =>
      have split : ueHistory P env i (f :: h) = ueHistory P env i [f] ++ ueHistory P env i h :=
        (ueComponent P env i).history_append [f] h
      have first : snapshots env (f :: h) = snapshots env [f] ++ snapshots env h := by
        simp [snapshots]
      rw [split, ticks_append, List.filterMap_append, first, List.filter_append, ih]
      congr 1
      obtain ⟨before, ⟨ts, event⟩, after⟩ := f
      cases event with
      | checkHandoverConditions =>
          have own : ueHistory P env i [⟨before, ⟨ts, .checkHandoverConditions⟩, after⟩] =
              [⟨(ueComponent P env i).conf before, ⟨ts, .checkHandoverConditions⟩,
                (ueComponent P env i).conf after⟩] :=
            (ueComponent P env i).history_singleton_rel rfl
          rw [own]
          have written := @filter_writeVisualizationSnapshot env (getSeconds ts) after.state.ues i
          have row : rowAfter env i ⟨(ueComponent P env i).conf before,
              ⟨ts, .checkHandoverConditions⟩, (ueComponent P env i).conf after⟩ =
              after.state.ues[i]?.map (snapshotRow env (getSeconds ts) i) := rfl
          simp only [snapshots, List.flatMap_cons, List.flatMap_nil, List.append_nil]
          rw [written]
          change _ = List.filterMap (rowAfter env i) [_]
          rw [List.filterMap_cons, List.filterMap_nil, row]
          cases after.state.ues[i]?.map (snapshotRow env (getSeconds ts) i) <;> rfl
      | cho handler ueId sourceCell targetCell =>
          have other : ticks (ueHistory P env i
              [⟨before, ⟨ts, .cho handler ueId sourceCell targetCell⟩, after⟩]) = [] := by
            refine List.filter_eq_nil_iff.mpr fun g member => ?_
            obtain ⟨f, listed, -, rfl⟩ := (ueComponent P env i).mem_history.mp member
            rw [List.mem_singleton.mp listed]
            simp
          rw [other]
          rfl
      | evaluatePendingPrediction r =>
          rw [show ueHistory P env i [⟨before, ⟨ts, .evaluatePendingPrediction r⟩, after⟩] = [] from
            (ueComponent P env i).history_singleton_irrel rfl]
          rfl

/-! ## Names in the rows -/

/-- No name of the dataset is empty or needs quotes in a CSV file. -/
structure Link.CsvNames (L : Link) : Prop where
  named : "" ∉ L.satellites
  plain : ∀ name ∈ L.satellites.keys, PlainField name.toList

/-- The best neighbour of a snapshot is cached. -/
theorem getBestNeighborForVisualization_cached (env : Env) (simTime : ℚ) (ue : UeInfo)
    (servingSat : String) :
    (getBestNeighborForVisualization env simTime ue servingSat).1 = "" ∨
      (getBestNeighborForVisualization env simTime ue servingSat).1 ∈ ue.phy.channel.channelCache := by
  refine selected_of_foldl Prod.fst _ _ ue.phy rfl fun best entry => ?_
  unfold visualizeBetter
  dsimp only
  split
  · exact .inl rfl
  · split
    · exact .inl rfl
    · split
      · exact .inr rfl
      · exact .inl rfl

theorem SnapshotRow.plain {row : SnapshotRow} (serving : PlainField row.servingSat.toList)
    (neighbor : PlainField row.bestNeighborSat.toList) : ∀ field ∈ row.fields, PlainField field := by
  unfold SnapshotRow.fields
  simp only [List.mem_cons, List.not_mem_nil, or_false, forall_eq_or_imp, forall_eq]
  exact ⟨plainField_showFixed .., plainField_showNat _, plainField_showFixed .., plainField_showFixed ..,
    serving, plainField_showFixed .., plainField_showFixed .., plainField_showFixed ..,
    plainField_showFixed .., neighbor, plainField_showFixed .., plainField_showFixed ..,
    plainField_showFixed .., plainField_showFixed .., plainField_showNat _⟩

/-- The rows of a run need no quotes. -/
theorem plain_of_mem_snapshots (lawful : P.Lawful)
    (names : ∀ name ∈ env.link.satellites.keys, PlainField name.toList) {rows : List UeRow}
    {h : List (Firing ℤ Sim Event)} {c : Conf ℤ Sim Event} (run : AnyOrderRun P env rows h c)
    {row : SnapshotRow} (member : row ∈ snapshots env h) : ∀ field ∈ row.fields, PlainField field := by
  have own : row ∈ (snapshots env h).filter fun other => other.ueId = row.ueId :=
    List.mem_filter.mpr ⟨member, decide_eq_true rfl⟩
  rw [@filter_snapshots P env row.ueId h] at own
  obtain ⟨f, ticking, written⟩ := List.mem_filterMap.mp own
  obtain ⟨ue, present, same⟩ := Option.map_eq_some_iff.mp written
  obtain ⟨h₁, h₂, split⟩ := List.append_of_mem (mem_ticks.mp ticking).1
  have seen := run.toUe row.ueId
  rw [show (ueComponent P env row.ueId).history h = _ from split] at seen
  have link := linkInvariant_of_run lawful (seen.split.1.snoc seen.split.2) present
  have known : ∀ name, name = "" ∨ name ∈ ue.phy.channel.channelCache → PlainField name.toList := by
    rintro name (rfl | cached)
    · exact ⟨by decide, by decide, by decide, by decide⟩
    · exact names name (Std.TreeMap.mem_keys.mpr (link.mem_satellites cached))
  rw [← same]
  exact SnapshotRow.plain (known _ link.served)
    (known _ (getBestNeighborForVisualization_cached env _ ue _))

end NtnCho
