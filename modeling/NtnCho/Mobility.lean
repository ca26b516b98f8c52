import NtnCho.Simulator
import NtnCho.Text.Lines
import Mathlib.Data.List.Sort

/-!
# The SGP4 mobility model

`Sgp4CsvMobilityModel`: `LoadTrajectory` reads the trajectory of a satellite from a CSV file and
schedules `UpdatePosition`, which reschedules itself every second. A failed load leaves an empty
trajectory behind, so after a failed load over a loaded trajectory the flag `m_trajectoryLoaded` is
wrong and the next `UpdatePosition` looks at the back of an empty vector. Exactly these loads break
the model, `trajectory_survives_iff`.

A `double` is a rational. What `LoadTrajectory` gets from the file system, the content of the file or
nothing, is part of the call. Positions of one time, whose order `std::sort` leaves open, stay in the
order of the file.
-/

namespace NtnCho

open EventSystem Text

namespace Mobility

/-! ## The model -/

structure PositionData where
  time : ℚ
  lat : ℚ
  lon : ℚ
  alt : ℚ
  xEcef : ℚ
  yEcef : ℚ
  zEcef : ℚ
  elevation : ℚ
  azimuth : ℚ
  distance : ℚ
  deriving DecidableEq

structure Vector where
  x : ℚ
  y : ℚ
  z : ℚ
  deriving DecidableEq

/-- The position of the parent class, as it was last set. -/
inductive Position where
  | geocentric (v : Vector)
  | geographic (v : Vector)
  deriving DecidableEq

/-- `Sgp4CsvMobilityModel`. -/
structure Sgp4CsvMobilityModel where
  trajectory : List PositionData := []
  satelliteName : String := ""
  useEcef : Bool := true
  startTime : ℚ := 0
  trajectoryLoaded : Bool := false
  position : Position := .geocentric ⟨0, 0, 0⟩
  deriving DecidableEq

/-- The functions of the C++ library on texts: `std::get_time` with the format of the files and
`std::mktime` of its result, and `std::stod`; `none` is a failure or an exception. -/
structure Clib where
  getTime : String → Option ℤ
  stod : String → Option ℚ

/-! ## Loading -/

/-- `ParseTimestamp`. -/
def parseTimestamp (clib : Clib) (timestamp : String) : ℚ :=
  match clib.getTime timestamp with
  | none => 0
  | some time => time

/-- The variables of the loop of `LoadTrajectory`. -/
structure LoadState where
  firstTime : ℚ
  startTime : ℚ
  trajectory : List PositionData

/-- The numbers of a row, in the order in which they are read. -/
def positionFields (clib : Clib) (elevation azimuth distance lat lon height x y z : String) :
    Option PositionData := do
  let elevation ← clib.stod elevation
  let azimuth ← clib.stod azimuth
  let distance ← clib.stod distance
  let lat ← clib.stod lat
  let lon ← clib.stod lon
  let height ← clib.stod height
  let x ← clib.stod x
  let y ← clib.stod y
  let z ← clib.stod z
  pure
    { time := 0
      lat := lat
      lon := lon
      alt := height * 1000
      xEcef := x * 1000
      yEcef := y * 1000
      zEcef := z * 1000
      elevation := elevation
      azimuth := azimuth
      distance := distance * 1000 }

/-- The body of the loop of `LoadTrajectory`. -/
def loadLine (clib : Clib) (satelliteName : String) (loaded : LoadState) (line : String) :
    LoadState :=
  match getlines ',' line with
  | time :: satName :: elevation :: azimuth :: distance :: lat :: lon :: height :: x :: y :: z :: _ =>
      if satName ≠ satelliteName then loaded
      else
        let timestamp := parseTimestamp clib time
        let timed : LoadState :=
          if loaded.firstTime < 0 then { loaded with firstTime := timestamp, startTime := timestamp }
          else loaded
        match positionFields clib elevation azimuth distance lat lon height x y z with
        | some data =>
            let data : PositionData := { data with time := timestamp - timed.firstTime }
            { timed with trajectory := timed.trajectory ++ [data] }
        -- an exception of `std::stod`, after the times are set
        | none => timed
  | _ => loaded

/-- The position that `m_useEcef` selects from a point of the trajectory. -/
def PositionData.vector (useEcef : Bool) (data : PositionData) : Vector :=
  if useEcef then ⟨data.xEcef, data.yEcef, data.zEcef⟩ else ⟨data.lat, data.lon, data.alt⟩

/-- `SetGeocentricPosition` or `SetGeographicPosition`. -/
def Sgp4CsvMobilityModel.setPosition (v : Vector) (m : Sgp4CsvMobilityModel) :
    Sgp4CsvMobilityModel :=
  { m with position := if m.useEcef then .geocentric v else .geographic v }

/-- `LoadTrajectory` of a file with the given content, `none` when it cannot be opened: what it
returns, and the model after it. A successful load schedules `UpdatePosition`. -/
def Sgp4CsvMobilityModel.loadTrajectory (clib : Clib) (file : Option String)
    (satelliteName : String) (m : Sgp4CsvMobilityModel) : Bool × Sgp4CsvMobilityModel :=
  let m : Sgp4CsvMobilityModel := { m with satelliteName := satelliteName, trajectory := [] }
  match file with
  | none => (false, m)
  | some content =>
      let lines := (getlines '\n' content).tail
      let loaded := lines.foldl (loadLine clib satelliteName) ⟨-1, m.startTime, []⟩
      let m : Sgp4CsvMobilityModel := { m with startTime := loaded.startTime }
      match loaded.trajectory.insertionSort fun a b => a.time ≤ b.time with
      | [] => (false, m)
      | front :: rest =>
          let m : Sgp4CsvMobilityModel :=
            { m with trajectory := front :: rest, trajectoryLoaded := true }
          (true, m.setPosition (front.vector m.useEcef))

/-! ## Positions -/

/-- `std::lower_bound` of the trajectory after `p1`, for a time before its last point: the point found
and the one before it. -/
def lowerBound (t : ℚ) : PositionData → List PositionData → PositionData × PositionData
  | p1, [] => (p1, p1)
  | p1, p2 :: rest => if p2.time < t then lowerBound t p2 rest else (p1, p2)

/-- `InterpolatePosition`; `none` is `front()` or `back()` of an empty vector. -/
def Sgp4CsvMobilityModel.interpolatePosition (t : ℚ) (m : Sgp4CsvMobilityModel) : Option Vector :=
  if !m.trajectoryLoaded || m.trajectory.isEmpty then some ⟨0, 0, 0⟩
  else do
    let front ← m.trajectory.head?
    let back ← m.trajectory.getLast?
    if t ≤ front.time then pure (front.vector m.useEcef)
    else if back.time ≤ t then pure (back.vector m.useEcef)
    else
      let (p1, p2) := lowerBound t front m.trajectory.tail
      let alpha := (t - p1.time) / (p2.time - p1.time)
      let v1 := p1.vector m.useEcef
      let v2 := p2.vector m.useEcef
      pure
        ⟨v1.x + alpha * (v2.x - v1.x), v1.y + alpha * (v2.y - v1.y), v1.z + alpha * (v2.z - v1.z)⟩

/-- `CalculateVelocity`. -/
def Sgp4CsvMobilityModel.calculateVelocity (t : ℚ) (m : Sgp4CsvMobilityModel) : Option Vector :=
  if !m.trajectoryLoaded || decide (m.trajectory.length < 2) then some ⟨0, 0, 0⟩
  else do
    let dt : ℚ := 1
    let p1 ← m.interpolatePosition t
    let p2 ← m.interpolatePosition (t + dt)
    pure ⟨(p2.x - p1.x) / dt, (p2.y - p1.y) / dt, (p2.z - p1.z) / dt⟩

/-- `DoGetVelocity`. -/
def Sgp4CsvMobilityModel.doGetVelocity (simTime : ℚ) (m : Sgp4CsvMobilityModel) : Option Vector :=
  if !m.trajectoryLoaded then some ⟨0, 0, 0⟩ else m.calculateVelocity simTime

/-- `UpdatePosition`: the model after it, and whether it schedules itself again; `none` is `back()` of
an empty vector. -/
def Sgp4CsvMobilityModel.updatePosition (simTime : ℚ) (m : Sgp4CsvMobilityModel) :
    Option (Sgp4CsvMobilityModel × Bool) :=
  if !m.trajectoryLoaded then some (m, false)
  else do
    let back ← m.trajectory.getLast?
    if back.time < simTime then pure (m, false)
    else
      let pos ← m.interpolatePosition simTime
      pure (m.setPosition pos, true)

/-! ## Calls and events -/

/-- The calls of the model, with what a load finds under its file name. -/
inductive Call where
  | loadTrajectory (file : Option String) (satelliteName : String)
  | updatePosition
  | doGetVelocity
  deriving DecidableEq

/-- What the calls do to the model and schedule; the state `none` is undefined. -/
def callHandler (clib : Clib) : Handler ℤ (Option Sgp4CsvMobilityModel) Call := fun call now m? =>
  match m? with
  | none => (none, [])
  | some m =>
      match call with
      | .loadTrajectory file satelliteName =>
          let (loaded, m') := m.loadTrajectory clib file satelliteName
          (some m', if loaded then [⟨now + seconds 1, .updatePosition⟩] else [])
      | .updatePosition =>
          match m.updatePosition (getSeconds now) with
          | none => (none, [])
          | some (m', again) => (some m', if again then [⟨now + seconds 1, .updatePosition⟩] else [])
      | .doGetVelocity => ((m.doGetVelocity (getSeconds now)).map fun _ => m, [])

/-- A newly made model, and calls to be made of it. -/
def created (useEcef : Bool) (calls : List (Pending ℤ Call)) :
    Conf ℤ (Option Sgp4CsvMobilityModel) Call := ⟨some { useEcef := useEcef }, calls⟩

/-! ## What a load reads -/

/-- The line has a position of the satellite: eleven fields, its name, and nine numbers. -/
def hasPosition (clib : Clib) (satelliteName line : String) : Bool :=
  match getlines ',' line with
  | _ :: satName :: elevation :: azimuth :: distance :: lat :: lon :: height :: x :: y :: z :: _ =>
      satName == satelliteName &&
        (positionFields clib elevation azimuth distance lat lon height x y z).isSome
  | _ => false

/-- The file can be opened and has a position of the satellite after its header. -/
def HasTrajectory (clib : Clib) (file : Option String) (satelliteName : String) : Prop :=
  ∃ content, file = some content ∧
    ∃ line ∈ (getlines '\n' content).tail, hasPosition clib satelliteName line = true

variable {clib : Clib} {file : Option String} {satelliteName : String}

theorem loadLine_trajectory (clib : Clib) (satelliteName : String) (loaded : LoadState)
    (line : String) :
    (hasPosition clib satelliteName line = false ∧
      (loadLine clib satelliteName loaded line).trajectory = loaded.trajectory) ∨
    (hasPosition clib satelliteName line = true ∧ ∃ data,
      (loadLine clib satelliteName loaded line).trajectory = loaded.trajectory ++ [data]) := by
  have timed : ∀ timestamp, (if loaded.firstTime < 0 then
      ({ loaded with firstTime := timestamp, startTime := timestamp } : LoadState)
      else loaded).trajectory = loaded.trajectory := by
    intro timestamp
    split <;> rfl
  unfold loadLine hasPosition
  split
  · rename_i time satName elevation azimuth distance lat lon height x y z _ _
    by_cases same : satName = satelliteName
    case neg =>
      rw [if_pos same]
      exact .inl ⟨by simp [same], rfl⟩
    case pos =>
      rw [if_neg (not_not.mpr same)]
      dsimp only
      cases positionFields clib elevation azimuth distance lat lon height x y z with
      | none => exact .inl ⟨by simp, timed _⟩
      | some data =>
          refine .inr ⟨by simp [same], ?_⟩
          dsimp only
          rw [timed]
          exact ⟨_, rfl⟩
  · exact .inl ⟨rfl, rfl⟩

instance : Std.Total fun a b : PositionData => a.time ≤ b.time := ⟨fun a b => le_total a.time b.time⟩

instance : IsTrans PositionData fun a b => a.time ≤ b.time := ⟨fun _ _ _ => le_trans⟩

theorem loadLines_trajectory (clib : Clib) (satelliteName : String) (lines : List String) (loaded : LoadState) :
    (lines.foldl (loadLine clib satelliteName) loaded).trajectory ≠ [] ↔
      loaded.trajectory ≠ [] ∨ ∃ line ∈ lines, hasPosition clib satelliteName line = true := by
  induction lines generalizing loaded with
  | nil => simp
  | cons line lines ih =>
      rw [List.foldl_cons, ih]
      rcases loadLine_trajectory clib satelliteName loaded line with
        ⟨none, same⟩ | ⟨found, data, grown⟩
      · simp [none, same]
      · simp [found, grown]

/-- The trajectory is there and sorted by time when the flag says that it is loaded. -/
structure Sound (m : Sgp4CsvMobilityModel) : Prop where
  nonempty : m.trajectoryLoaded = true → m.trajectory ≠ []
  sorted : m.trajectoryLoaded = true → m.trajectory.Pairwise fun a b => a.time ≤ b.time

/-- A load succeeds exactly when the file has the trajectory, and then leaves it sorted; a failed load
leaves no trajectory and the flag as it was. -/
theorem loadTrajectory_spec (clib : Clib) (file : Option String) (satelliteName : String)
    (m : Sgp4CsvMobilityModel) :
    (HasTrajectory clib file satelliteName ∧ (m.loadTrajectory clib file satelliteName).1 = true ∧
      Sound (m.loadTrajectory clib file satelliteName).2) ∨
    (¬ HasTrajectory clib file satelliteName ∧ (m.loadTrajectory clib file satelliteName).1 = false ∧
      (m.loadTrajectory clib file satelliteName).2.trajectory = [] ∧
      (m.loadTrajectory clib file satelliteName).2.trajectoryLoaded = m.trajectoryLoaded) := by
  unfold HasTrajectory Sgp4CsvMobilityModel.loadTrajectory
  cases file with
  | none => exact .inr ⟨by simp, rfl, rfl, rfl⟩
  | some content =>
      dsimp only
      have found := loadLines_trajectory clib satelliteName
        (getlines '\n' content).tail ⟨-1, m.startTime, []⟩
      generalize (getlines '\n' content).tail.foldl (loadLine clib satelliteName)
        ⟨-1, m.startTime, []⟩ = loaded at found ⊢
      have sorted := List.pairwise_insertionSort (fun a b : PositionData => a.time ≤ b.time)
        loaded.trajectory
      have same := List.perm_insertionSort (fun a b : PositionData => a.time ≤ b.time)
        loaded.trajectory
      have opened : (∃ content', some content = some content' ∧
          ∃ line ∈ (getlines '\n' content').tail, hasPosition clib satelliteName line = true) ↔
          loaded.trajectory ≠ [] := by
        rw [found]
        simp
      rw [opened]
      cases read : loaded.trajectory.insertionSort fun a b => a.time ≤ b.time with
      | nil =>
          rw [read, List.nil_perm] at same
          exact .inr ⟨by simp [same], rfl, rfl, rfl⟩
      | cons front rest =>
          rw [read] at sorted same
          refine .inl ⟨?_, rfl, ⟨fun _ => List.cons_ne_nil front rest, fun _ => sorted⟩⟩
          rintro none
          rw [none, List.perm_nil] at same
          cases same

/-! ## Calls -/

theorem interpolatePosition_isSome (t : ℚ) (m : Sgp4CsvMobilityModel) :
    (m.interpolatePosition t).isSome = true := by
  unfold Sgp4CsvMobilityModel.interpolatePosition
  split
  · rfl
  · rename_i loaded
    cases points : m.trajectory with
    | nil => simp [points] at loaded
    | cons front rest =>
        simp only [List.head?_cons, List.getLast?_cons, Option.bind_eq_bind, Option.bind_some]
        split_ifs <;> rfl

/-- `DoGetVelocity` never looks into an empty trajectory. -/
theorem doGetVelocity_isSome (t : ℚ) (m : Sgp4CsvMobilityModel) :
    (m.doGetVelocity t).isSome = true := by
  unfold Sgp4CsvMobilityModel.doGetVelocity Sgp4CsvMobilityModel.calculateVelocity
  obtain ⟨p1, first⟩ := Option.isSome_iff_exists.mp (interpolatePosition_isSome t m)
  obtain ⟨p2, second⟩ := Option.isSome_iff_exists.mp (interpolatePosition_isSome (t + 1) m)
  dsimp only
  rw [first, second]
  split_ifs <;> rfl

/-- An update of a sound model is defined, and leaves it sound. -/
theorem Sound.updatePosition {m : Sgp4CsvMobilityModel} (sound : Sound m) (t : ℚ) :
    ∃ m' again, m.updatePosition t = some (m', again) ∧ Sound m' := by
  unfold Sgp4CsvMobilityModel.updatePosition
  cases loaded : m.trajectoryLoaded with
  | false => exact ⟨m, false, rfl, sound⟩
  | true =>
      have there := List.getLast?_isSome.mpr (sound.nonempty loaded)
      obtain ⟨back, last⟩ := Option.isSome_iff_exists.mp there
      obtain ⟨pos, at_t⟩ := Option.isSome_iff_exists.mp (interpolatePosition_isSome t m)
      simp only [last, at_t, Bool.not_true, Bool.false_eq_true, if_false, Option.bind_eq_bind,
        Option.bind_some]
      split
      · exact ⟨m, false, rfl, sound⟩
      · exact ⟨_, true, rfl, ⟨sound.nonempty, sound.sorted⟩⟩

/-- The model is defined and sound. -/
def Defined (c : Conf ℤ (Option Sgp4CsvMobilityModel) Call) : Prop := ∃ m, c.state = some m ∧ Sound m

/-- The updates that are scheduled. -/
def updates (c : Conf ℤ (Option Sgp4CsvMobilityModel) Call) : List (Pending ℤ Call) :=
  c.queue.filter fun p => decide (p.ev = .updatePosition)

/-- A failed load leaves a loaded trajectory, its satellite and its updates as they are. -/
def Survives (clib : Clib) (f : Firing ℤ (Option Sgp4CsvMobilityModel) Call) : Prop :=
  ∀ file satelliteName m, f.event.ev = .loadTrajectory file satelliteName →
    f.before.state = some m → m.trajectoryLoaded = true →
    (m.loadTrajectory clib file satelliteName).1 = false →
      ∃ m', f.after.state = some m' ∧ m'.trajectory = m.trajectory ∧
        m'.satelliteName = m.satelliteName ∧ updates f.after = updates f.before

/-- A load over a loaded trajectory finds the new one. -/
def Replaces (clib : Clib) (f : Firing ℤ (Option Sgp4CsvMobilityModel) Call) : Prop :=
  ∀ file satelliteName m, f.event.ev = .loadTrajectory file satelliteName →
    f.before.state = some m → m.trajectoryLoaded = true → HasTrajectory clib file satelliteName

variable {ok : Policy ℤ Call} {c c' : Conf ℤ (Option Sgp4CsvMobilityModel) Call} {p : Pending ℤ Call}

/-- A step keeps a model sound, when a load over a loaded trajectory finds the new one. -/
theorem Defined.step (defined : Defined c) (step : Step (callHandler clib) ok c p c')
    (replaces : Replaces clib ⟨c, p, c'⟩) : Defined c' := by
  obtain ⟨m, present, sound⟩ := defined
  have after := step.state_eq
  rw [present] at after
  rcases p with ⟨ts, ⟨file, satelliteName⟩ | _ | _⟩
  · rcases loadTrajectory_spec clib file satelliteName m with
      ⟨-, -, loaded⟩ | ⟨missing, -, -, flag⟩
    · exact ⟨_, after, loaded⟩
    · have unloaded : m.trajectoryLoaded ≠ true := fun loaded =>
        missing (replaces file satelliteName m rfl present loaded)
      rw [← flag] at unloaded
      exact ⟨_, after, ⟨fun loaded => absurd loaded unloaded, fun loaded => absurd loaded unloaded⟩⟩
  · obtain ⟨m', again, updated, sound'⟩ := sound.updatePosition (getSeconds ts)
    refine ⟨m', ?_, sound'⟩
    rw [after]
    simp only [callHandler, updated]
  · obtain ⟨v, velocity⟩ := Option.isSome_iff_exists.mp (doGetVelocity_isSome (getSeconds ts) m)
    refine ⟨m, ?_, sound⟩
    rw [after]
    simp only [callHandler, velocity, Option.map_some]

/-- A failed load over a loaded trajectory leaves the flag without a trajectory. -/
theorem replaces_of_defined (step : Step (callHandler clib) ok c p c') (defined : Defined c') :
    Replaces clib ⟨c, p, c'⟩ := by
  rcases p with ⟨ts, call⟩
  intro file satelliteName m event present loaded
  obtain rfl : call = .loadTrajectory file satelliteName := event
  replace present : c.state = some m := present
  have after := step.state_eq
  rw [present] at after
  obtain ⟨m', present', sound⟩ := defined
  obtain rfl := Option.some.inj (present'.symm.trans after)
  rcases loadTrajectory_spec clib file satelliteName m with ⟨found, -⟩ | ⟨-, -, empty, flag⟩
  · exact found
  · exact absurd empty (sound.nonempty (flag.trans loaded))

theorem survives_of_replaces {f : Firing ℤ (Option Sgp4CsvMobilityModel) Call}
    (replaces : Replaces clib f) : Survives clib f := by
  intro file satelliteName m event present loaded failed
  rcases loadTrajectory_spec clib file satelliteName m with ⟨-, succeeded, -⟩ | ⟨missing, -⟩
  · rw [succeeded] at failed
    cases failed
  · exact absurd (replaces file satelliteName m event present loaded) missing

/-- **When a loaded trajectory survives.** Whatever the calls and their order, the model stays sound and
failed loads leave a loaded trajectory alone if and only if no load over a loaded trajectory fails. -/
theorem trajectory_survives_iff {useEcef : Bool} {calls : List (Pending ℤ Call)}
    {h : List (Firing ℤ (Option Sgp4CsvMobilityModel) Call)}
    (run : Run (callHandler clib) anyOrder (created useEcef calls) h c) :
    (∀ f ∈ h, Defined f.after ∧ Survives clib f) ↔ ∀ f ∈ h, Replaces clib f := by
  constructor
  · intro good f member
    exact replaces_of_defined (run.step_of_mem member) (good f member).1
  · intro replaces
    have reached : Defined c ∧ ∀ f ∈ h, Defined f.after := by
      induction run with
      | nil =>
          have fresh : Sound { useEcef := useEcef } :=
            ⟨fun loaded => absurd loaded Bool.false_ne_true, fun _ => .nil⟩
          exact ⟨⟨_, rfl, fresh⟩, by simp⟩
      | @snoc h c c' p prior step ih =>
          obtain ⟨defined, before⟩ := ih fun f member => replaces f (List.mem_append_left _ member)
          have after := defined.step step (replaces ⟨c, p, c'⟩ (by simp))
          refine ⟨after, fun f member => ?_⟩
          rcases List.mem_append.mp member with earlier | now
          · exact before f earlier
          · obtain rfl := List.mem_singleton.mp now
            exact after
    exact fun f member => ⟨reached.2 f member, survives_of_replaces (replaces f member)⟩

/-- A C library that reads the texts of the sample files. -/
def sampleClib : Clib where
  getTime timestamp := if timestamp = "2025-11-26 14:16:50" then some 1764166610 else none
  stod text :=
    let digits := text.toList
    if digits ≠ [] ∧ digits.all Char.isDigit = true then
      some (digits.foldl (fun n digit => 10 * n + (digit.toNat - 48 : ℕ)) 0)
    else none

/-- A file with one position of `S`. -/
def sampleFile : String :=
  "time,satellite,elevation_deg,azimuth_deg,distance_km,lat,lon,height_km,x,y,z\n" ++
    "2025-11-26 14:16:50,S,90,0,500,0,0,500,6878,0,0\n"

/-- A load, and a second one over it. -/
def reload (second : Option String) : List (Pending ℤ Call) :=
  [⟨0, .loadTrajectory (some sampleFile) "S"⟩, ⟨0, .loadTrajectory second "S"⟩]

def sampleCalls (second : Option String) (n : ℕ) :
    List (Firing ℤ (Option Sgp4CsvMobilityModel) Call) ×
      Conf ℤ (Option Sgp4CsvMobilityModel) Call :=
  runFifo (callHandler sampleClib) n (created true (reload second))

theorem run_sampleCalls (second : Option String) (n : ℕ) :
    Run (callHandler sampleClib) anyOrder (created true (reload second)) (sampleCalls second n).1
      (sampleCalls second n).2 :=
  (runFifo_run n (created true (reload second))).anyOrder

theorem trajectory_survives_iff_reload :
    (sampleCalls (some sampleFile) 3).1.length = 3 ∧
      ∀ f ∈ (sampleCalls (some sampleFile) 3).1, Defined f.after ∧ Survives sampleClib f := by
  refine ⟨by decide +kernel,
    (trajectory_survives_iff (run_sampleCalls (some sampleFile) 3)).mpr ?_⟩
  intro f member file satelliteName m event present loaded
  have calls : (sampleCalls (some sampleFile) 3).1.map (fun f => f.event.ev) =
      [.loadTrajectory (some sampleFile) "S", .loadTrajectory (some sampleFile) "S",
        .updatePosition] := by decide +kernel
  have listed : f.event.ev ∈ (sampleCalls (some sampleFile) 3).1.map (fun f => f.event.ev) :=
    List.mem_map_of_mem member
  rw [calls, event] at listed
  obtain ⟨rfl, rfl⟩ : file = some sampleFile ∧ satelliteName = "S" := by simpa using listed
  exact ⟨sampleFile, rfl, "2025-11-26 14:16:50,S,90,0,500,0,0,500,6878,0,0", by decide +kernel,
    by decide +kernel⟩

/-- When the second load finds no file, the update that the first one scheduled is undefined. -/
theorem trajectory_lost :
    ¬ ∀ {clib : Clib} {useEcef : Bool} {calls : List (Pending ℤ Call)}
      {h : List (Firing ℤ (Option Sgp4CsvMobilityModel) Call)}
      {c : Conf ℤ (Option Sgp4CsvMobilityModel) Call},
      Run (callHandler clib) anyOrder (created useEcef calls) h c →
        ∀ f ∈ h, Defined f.after ∧ Survives clib f := by
  intro always
  have undefined : ∃ f ∈ (sampleCalls none 3).1, f.after.state = none := by decide +kernel
  obtain ⟨f, member, lost⟩ := undefined
  obtain ⟨⟨m, present, -⟩, -⟩ := always (run_sampleCalls none 3) f member
  rw [lost] at present
  cases present

end Mobility

end NtnCho
