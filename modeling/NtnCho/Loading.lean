import NtnCho.Discovery
import NtnCho.Simulator

/-!
# Loading the satellites

`LoadTrajectory` of the TD-CHO simulator reads the trajectory of one satellite from the file in which
`DiscoverSatellites` found it. It looks at rows with eleven fields, not five, and reads other numbers, so the two
agree on which satellites there are and on the times exactly under a condition on the rows that discovery
counts (`discovery_agrees_iff`).
-/

namespace NtnCho

open Text

/-! ## `LoadTrajectory` -/

/-- The variables of the loop of `LoadTrajectory`. -/
structure Loading where
  startTime : ℚ := -1
  trajectory : List TrajectoryPoint := []

/-- The point of a row, `none` for an exception of `std::stod`. -/
def rowPoint (clib : CsvLib) (libm : Libm) (time : ℚ) (lat lon height : String) :
    Option TrajectoryPoint := do
  let satLat ← clib.stod lat
  let satLon ← clib.stod lon
  let height ← clib.stod height
  let satAlt := height * 1000
  let ecef := geographicToECEF libm satLat satLon satAlt
  pure
    { time := time
      xEcef := ecef.x
      yEcef := ecef.y
      zEcef := ecef.z
      latDeg := satLat
      lonDeg := satLon
      altM := satAlt }

/-- The body of the loop of `LoadTrajectory`. -/
def loadTrajectoryLine (clib : CsvLib) (libm : Libm) (satName : String) (loading : Loading) (line : String) :
    Loading :=
  match getlines ',' line with
  | timestamp :: name :: _ :: _ :: _ :: lat :: lon :: height :: _ :: _ :: _ :: _ =>
      let absTime : ℚ := clib.timegm timestamp
      let startTime := if loading.startTime < 0 then absTime else loading.startTime
      let loading : Loading := { loading with startTime := startTime }
      if name ≠ satName then loading
      else
        match rowPoint clib libm (absTime - startTime) lat lon height with
        | none => loading
        | some point => { loading with trajectory := loading.trajectory ++ [point] }
  | _ => loading

/-- `LoadTrajectory` of a file with the given content: what it returns, and the satellites after it. -/
def loadTrajectory (clib : CsvLib) (libm : Libm) (file : Option String) (satName : String)
    (satellites : StdMap SatelliteState) : Bool × StdMap SatelliteState :=
  match file with
  | none => (false, satellites)
  | some content =>
      let loading := (getlines '\n' content).tail.foldl (loadTrajectoryLine clib libm satName) {}
      if loading.trajectory.isEmpty then (false, satellites)
      else (true, satellites.insert satName ⟨satName, loading.trajectory⟩)

/-! ## What loading reads -/

variable {clib : CsvLib} {libm : Libm} {simTime minElevation : ℚ} {satName : String}

/-- Loading after some lines. -/
def loading (clib : CsvLib) (libm : Libm) (satName : String) (lines : List String) : Loading :=
  lines.foldl (loadTrajectoryLine clib libm satName) {}

theorem loading_snoc (lines : List String) (line : String) :
    loading clib libm satName (lines ++ [line]) =
      loadTrajectoryLine clib libm satName (loading clib libm satName lines) line := List.foldl_append

/-- The line has eleven fields, and the latitude, the longitude and the height can be read. -/
def hasPoint (clib : CsvLib) (line : String) : Bool :=
  match getlines ',' line with
  | _ :: _ :: _ :: _ :: _ :: lat :: lon :: height :: _ :: _ :: _ :: _ =>
      (clib.stod lat).isSome && (clib.stod lon).isSome && (clib.stod height).isSome
  | _ => false

/-- The satellite that a line is about. -/
def lineName (line : String) : Option String :=
  match getlines ',' line with
  | _ :: name :: _ => some name
  | _ => none

theorem rowPoint_isSome (time : ℚ) (lat lon height : String) :
    (rowPoint clib libm time lat lon height).isSome =
      ((clib.stod lat).isSome && (clib.stod lon).isSome && (clib.stod height).isSome) := by
  unfold rowPoint
  cases clib.stod lat <;> cases clib.stod lon <;> cases clib.stod height <;> rfl

theorem time_rowPoint {time : ℚ} {lat lon height : String} {point : TrajectoryPoint}
    (read : rowPoint clib libm time lat lon height = some point) : point.time = time := by
  unfold rowPoint at read
  simp only [Option.bind_eq_bind, Option.bind_eq_some_iff, Option.pure_def, Option.some.injEq] at read
  obtain ⟨_, -, _, -, _, -, rfl⟩ := read
  rfl

/-- The body of the loop by what it reads. -/
theorem loadTrajectoryLine_spec (loading : Loading) (line : String) :
    match rowTime clib 11 line with
    | none => loadTrajectoryLine clib libm satName loading line = loading
    | some t =>
        (loadTrajectoryLine clib libm satName loading line).startTime =
            (if loading.startTime < 0 then t else loading.startTime) ∧
          ((lineName line = some satName ∧ hasPoint clib line = true ∧
              ∃ point, (loadTrajectoryLine clib libm satName loading line).trajectory =
                  loading.trajectory ++ [point] ∧
                point.time = t - if loading.startTime < 0 then t else loading.startTime) ∨
            (¬ (lineName line = some satName ∧ hasPoint clib line = true) ∧
              (loadTrajectoryLine clib libm satName loading line).trajectory = loading.trajectory)) := by
  unfold rowTime loadTrajectoryLine lineName hasPoint
  generalize getlines ',' line = fields
  rcases fields with _ | ⟨timestamp, _ | ⟨name, _ | ⟨f2, _ | ⟨f3, _ | ⟨f4, _ | ⟨lat, _ | ⟨lon, _ | ⟨height,
    _ | ⟨f8, _ | ⟨f9, _ | ⟨f10, rest⟩⟩⟩⟩⟩⟩⟩⟩⟩⟩⟩
  case nil => rfl
  case cons.cons.cons.cons.cons.cons.cons.cons.cons.cons.cons =>
    have eleven : 11 ≤ (name :: f2 :: f3 :: f4 :: lat :: lon :: height :: f8 :: f9 :: f10 :: rest).length + 1 := by
      simp only [List.length_cons]
      omega
    simp only [if_pos eleven]
    generalize (if loading.startTime < 0 then (clib.timegm timestamp : ℚ) else loading.startTime) = start
    have readable := @rowPoint_isSome clib libm (clib.timegm timestamp - start) lat lon height
    by_cases own : name = satName
    case neg =>
      rw [if_pos own]
      exact ⟨rfl, .inr ⟨fun both => own (Option.some.inj both.1), rfl⟩⟩
    case pos =>
      rw [if_neg (not_not.mpr own), ← readable]
      cases read : rowPoint clib libm (clib.timegm timestamp - start) lat lon height with
      | none => exact ⟨rfl, .inr ⟨by simp, rfl⟩⟩
      | some point => exact ⟨rfl, .inl ⟨congrArg some own, rfl, point, rfl, time_rowPoint read⟩⟩
  all_goals rfl

theorem startTime_loading (lines : List String) :
    (loading clib libm satName lines).startTime = startAfter (rowTimes clib 11 lines) := by
  induction lines using List.reverseRecOn with
  | nil => rfl
  | append_singleton lines line ih =>
      have step := @loadTrajectoryLine_spec clib libm satName (loading clib libm satName lines) line
      rw [loading_snoc, rowTimes_snoc]
      cases time : rowTime clib 11 line with
      | none =>
          rw [time] at step
          rw [step, ih, Option.toList_none, List.append_nil]
      | some t =>
          rw [time] at step
          rw [step.1, ih, Option.toList_some, startAfter_snoc]

theorem trajectory_subset (before after : List String) {point : TrajectoryPoint}
    (member : point ∈ (loading clib libm satName before).trajectory) :
    point ∈ (loading clib libm satName (before ++ after)).trajectory := by
  induction after using List.reverseRecOn with
  | nil => rwa [List.append_nil]
  | append_singleton after line ih =>
      have step := @loadTrajectoryLine_spec clib libm satName (loading clib libm satName (before ++ after)) line
      rw [← List.append_assoc, loading_snoc]
      cases time : rowTime clib 11 line with
      | none =>
          rw [time] at step
          rwa [step]
      | some t =>
          rw [time] at step
          rcases step.2 with ⟨-, -, added, grown, -⟩ | ⟨-, same⟩
          · rw [grown]
            exact List.mem_append_left _ ih
          · rwa [same]

/-- A line with a point has eleven fields. -/
theorem rowTime_of_hasPoint {line : String} {t : ℚ} (point : hasPoint clib line = true)
    (time : rowTime clib 5 line = some t) : rowTime clib 11 line = some t := by
  unfold hasPoint at point
  unfold rowTime at time ⊢
  split at point
  · rename_i fields
    rw [fields] at time ⊢
    simpa using time
  · cases point

theorem lineName_of_discoveryRow {line : String} {row : DiscoveryRow}
    (read : discoveryRow clib line = some row) : lineName line = some row.satName := by
  unfold discoveryRow at read
  unfold lineName
  split at read
  · rename_i fields
    rw [fields]
    simp only [Option.bind_eq_bind, Option.bind_eq_some_iff, Option.pure_def, Option.some.injEq] at read
    obtain ⟨_, -, _, -, rfl⟩ := read
    rfl
  · cases read

/-! ## Rows of both -/

/-- Loading turns the row `line`, which comes after the lines `before`, into `point`. -/
structure Loaded (clib : CsvLib) (libm : Libm) (satName : String) (lines before : List String)
    (line : String) (point : TrajectoryPoint) : Prop where
  split : ∃ after, lines = before ++ line :: after
  added : (loading clib libm satName (before ++ [line])).trajectory =
    (loading clib libm satName before).trajectory ++ [point]

def visibility (d : Discovery) (satName : String) : ℕ :=
  match d.satelliteMap[satName]? with
  | none => 0
  | some info => info.visibilityCount

/-- Discovery counts the row `line`, which comes after the lines `before`, for the satellite at the relative
time `r`. -/
structure SeenAt (clib : CsvLib) (simTime : ℚ) (lines before : List String) (line satName : String) (r : ℚ) :
    Prop where
  split : ∃ after, lines = before ++ line :: after
  info : ∃ info : SatelliteInfo, (discovery clib simTime (before ++ [line])).satelliteMap[satName]? = some info ∧
    info.lastSeenTime = r ∧ info.visibilityCount = visibility (discovery clib simTime before) satName + 1

theorem exists_count (d : Discovery) (satName : String) (relativeTime elevation distance : ℚ) :
    ∃ info : SatelliteInfo,
      (d.count satName relativeTime elevation distance).satelliteMap[satName]? = some info ∧
        info.lastSeenTime = relativeTime ∧ info.visibilityCount = visibility d satName + 1 := by
  rw [Discovery.count, Std.TreeMap.getElem?_insert_self]
  refine ⟨_, rfl, ?_⟩
  unfold visibility
  cases d.satelliteMap[satName]? with
  | none => exact ⟨rfl, rfl⟩
  | some info => exact ⟨rfl, rfl⟩

theorem getElem?_count_of_ne (d : Discovery) {counted satName : String} (differ : counted ≠ satName)
    (relativeTime elevation distance : ℚ) :
    (d.count counted relativeTime elevation distance).satelliteMap[satName]? = d.satelliteMap[satName]? := by
  rw [Discovery.count, Std.TreeMap.getElem?_insert, if_neg]
  exact fun equal => differ (Std.LawfulEqOrd.eq_of_compare equal)

theorem seenAt_iff {lines before : List String} {line : String} {r : ℚ} :
    SeenAt clib simTime lines before line satName r ↔
      ∃ row, Counted clib simTime lines before line row ∧ row.satName = satName ∧
        r = row.time - startFor (rowTimes clib 5 before) row.time := by
  have step := @discovery_map clib simTime before line
  -- a satellite whose entry is the old one is not counted
  have kept : ∀ info : SatelliteInfo,
      (discovery clib simTime before).satelliteMap[satName]? = some info →
        info.visibilityCount ≠ visibility (discovery clib simTime before) satName + 1 := by
    intro info present
    rw [visibility, present]
    exact (Nat.lt_succ_self _).ne
  constructor
  · rintro ⟨split, info, present, last, visible⟩
    rcases step with ⟨row, within, read, grown⟩ | ⟨-, same⟩
    · rw [grown] at present
      by_cases name : row.satName = satName
      case neg =>
        rw [getElem?_count_of_ne _ name] at present
        exact absurd visible (kept info present)
      case pos =>
        subst name
        obtain ⟨info', present', last', -⟩ := exists_count (discovery clib simTime before) row.satName
          (row.time - startFor (rowTimes clib 5 before) row.time) row.elevation row.distance
        obtain rfl := Option.some.inj (present.symm.trans present')
        exact ⟨row, ⟨split, within, read⟩, rfl, last.symm.trans last'⟩
    · rw [same] at present
      exact absurd visible (kept info present)
  · rintro ⟨row, ⟨split, within, read⟩, rfl, rfl⟩
    rcases step with ⟨row', -, read', grown⟩ | ⟨uncounted, -⟩
    · obtain rfl := Option.some.inj (read.symm.trans read')
      refine ⟨split, ?_⟩
      rw [grown]
      exact exists_count ..
    · exact absurd ⟨within, row, read⟩ uncounted

theorem loaded_iff {lines before after : List String} {line : String} (split : lines = before ++ line :: after)
    {t : ℚ} (time : rowTime clib 5 line = some t) (r : ℚ) :
    (∃ point, Loaded clib libm satName lines before line point ∧ point.time = r) ↔
      lineName line = some satName ∧ hasPoint clib line = true ∧
        r = t - startFor (rowTimes clib 11 before) t := by
  have step := @loadTrajectoryLine_spec clib libm satName (loading clib libm satName before) line
  constructor
  · rintro ⟨point, ⟨-, added⟩, rfl⟩
    rw [loading_snoc] at added
    cases eleven : rowTime clib 11 line with
    | none =>
        rw [eleven] at step
        rw [step] at added
        simp at added
    | some t' =>
        rw [eleven] at step
        rcases step.2 with ⟨name, readable, point', grown, at_time⟩ | ⟨-, same⟩
        · rw [grown, List.append_cancel_left_eq, List.singleton_inj] at added
          subst added
          rw [rowTime_of_hasPoint readable time] at eleven
          obtain rfl := Option.some.inj eleven
          rw [startTime_loading, ← startAfter_snoc, startAfter_snoc_eq] at at_time
          exact ⟨name, readable, at_time⟩
        · rw [same] at added
          simp at added
  · rintro ⟨name, readable, rfl⟩
    rw [rowTime_of_hasPoint readable time] at step
    rcases step.2 with ⟨-, -, point, grown, at_time⟩ | ⟨neither, -⟩
    · rw [startTime_loading, ← startAfter_snoc, startAfter_snoc_eq] at at_time
      exact ⟨point, ⟨⟨after, split⟩, by rw [loading_snoc, grown]⟩, at_time⟩
    · exact absurd ⟨name, readable⟩ neither

/-- Every row that discovery counts has a point, and the first row with a time that is not negative has the
same time among the rows with five fields up to it and among those with eleven. -/
def LoadsAll (clib : CsvLib) (simTime : ℚ) (lines : List String) : Prop :=
  ∀ before line row, Counted clib simTime lines before line row →
    hasPoint clib line = true ∧
      startFor (rowTimes clib 11 before) row.time = startFor (rowTimes clib 5 before) row.time

/-- Every satellite found is loaded, and every row counted becomes a point at its relative time. -/
structure Agree (clib : CsvLib) (libm : Libm) (content : String) (minElevation simTime : ℚ)
    (satellites : StdMap SatelliteState) : Prop where
  loads : ∀ satName ∈ discoverSatellites clib (some content) minElevation simTime,
    (loadTrajectory clib libm (some content) satName satellites).1 = true
  times : ∀ before line satName r, SeenAt clib simTime (fileRows content) before line satName r →
    ∃ point, Loaded clib libm satName (fileRows content) before line point ∧ point.time = r

/-- **Discovery and loading agree** exactly when every row that discovery counts can be loaded and has the same
start in both. -/
theorem discovery_agrees_iff (clib : CsvLib) (libm : Libm) (content : String) (minElevation simTime : ℚ)
    (satellites : StdMap SatelliteState) :
    Agree clib libm content minElevation simTime satellites ↔ LoadsAll clib simTime (fileRows content) := by
  constructor
  · intro agree before line row counted
    obtain ⟨after, split⟩ := counted.split
    have seen := seenAt_iff.mpr ⟨row, counted, rfl, rfl⟩
    have loaded := agree.times before line row.satName _ seen
    obtain ⟨-, readable, same⟩ := (loaded_iff split (rowTime_discoveryRow counted.read) _).mp loaded
    exact ⟨readable, by linarith⟩
  · intro loadsAll
    have times : ∀ before line satName r, SeenAt clib simTime (fileRows content) before line satName r →
        ∃ point, Loaded clib libm satName (fileRows content) before line point ∧ point.time = r := by
      intro before line satName r seen
      obtain ⟨row, counted, rfl, rfl⟩ := seenAt_iff.mp seen
      obtain ⟨after, split⟩ := counted.split
      obtain ⟨readable, same⟩ := loadsAll before line row counted
      refine (loaded_iff split (rowTime_discoveryRow counted.read) _).mpr ⟨?_, readable, by rw [same]⟩
      exact lineName_of_discoveryRow counted.read
    refine ⟨fun satName found => ?_, times⟩
    obtain ⟨before, line, row, counted, rfl, -⟩ := (mem_discoverSatellites content satName).mp found
    obtain ⟨point, loaded, -⟩ := times before line row.satName _ (seenAt_iff.mpr ⟨row, counted, rfl, rfl⟩)
    obtain ⟨after, split⟩ := loaded.split
    have inside : point ∈ (loading clib libm row.satName (fileRows content)).trajectory := by
      rw [split, List.append_cons]
      refine trajectory_subset _ after ?_
      rw [loaded.added]
      exact List.mem_append_right _ (List.mem_singleton.mpr rfl)
    have loads : (loading clib libm row.satName (fileRows content)).trajectory.isEmpty = false := by
      rw [List.isEmpty_eq_false_iff]
      exact List.ne_nil_of_mem inside
    rw [loading, fileRows] at loads
    unfold loadTrajectory
    dsimp only
    rw [loads]
    rfl

/-- A file whose only row has five fields. -/
def shortFile : String :=
  "time,satellite,elevation_deg,azimuth_deg,distance_km\n" ++ "1970-01-01 00:00:10,A,45,45,500\n"

/-- The satellite of the short row is found and cannot be loaded. -/
theorem discovery_disagrees :
    ¬ ∀ (clib : CsvLib) (libm : Libm) (content : String) (minElevation simTime : ℚ)
      (satellites : StdMap SatelliteState), Agree clib libm content minElevation simTime satellites := by
  intro always
  have found : "A" ∈ discoverSatellites sampleCsvLib (some shortFile) 30 10 := by decide +kernel
  have loads := (always sampleCsvLib sampleLibm shortFile 30 10 ∅).loads "A" found
  exact absurd loads (by decide +kernel)

end NtnCho
