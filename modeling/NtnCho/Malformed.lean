import NtnCho.Mobility
import Mathlib.Algebra.BigOperators.Group.List.Basic
import Mathlib.Data.List.MinMax

/-!
# Malformed rows of a trajectory file

A row is malformed when it has fewer than eleven fields, no readable time or a number that cannot be read.
`LoadTrajectory` of the mobility model skips rows with few fields, but takes a time that it cannot read as
0, and sets the origin of the times before it reads the numbers. So malformed rows are harmless only under
a condition, which `malformed_rows_iff` gives exactly.
-/

namespace NtnCho

open Text

namespace Mobility

variable {clib : Clib} {satelliteName : String}

/-! ## Rows -/

/-- What a row with eleven fields says about its satellite. -/
structure Row where
  timestamp : Option ℤ
  position : Option PositionData
  deriving DecidableEq

/-- The time as `ParseTimestamp` returns it. -/
def Row.time (row : Row) : ℚ :=
  match row.timestamp with
  | none => 0
  | some time => time

def Row.wellFormed (row : Row) : Bool := row.timestamp.isSome && row.position.isSome

/-- The row of a line that is about the satellite. -/
def satelliteRow (clib : Clib) (satelliteName line : String) : Option Row :=
  match getlines ',' line with
  | time :: satName :: elevation :: azimuth :: distance :: lat :: lon :: height :: x :: y :: z :: _ =>
      if satName ≠ satelliteName then none
      else
        some ⟨clib.getTime time, positionFields clib elevation azimuth distance lat lon height x y z⟩
  | _ => none

/-- Fewer than eleven fields, or a time or a number that cannot be read. -/
def malformed (clib : Clib) (line : String) : Bool :=
  match getlines ',' line with
  | time :: _ :: elevation :: azimuth :: distance :: lat :: lon :: height :: x :: y :: z :: _ =>
      (clib.getTime time).isNone ||
        (positionFields clib elevation azimuth distance lat lon height x y z).isNone
  | _ => true

/-- The text without its malformed rows; the first line is the header. -/
def deleteMalformed (clib : Clib) (content : String) : String :=
  match getlines '\n' content with
  | [] => ""
  | header :: rows =>
      String.ofList (unlines ((header :: rows.filter fun line => !malformed clib line).map String.toList))

def satelliteRows (clib : Clib) (satelliteName content : String) : List Row :=
  (getlines '\n' content).tail.filterMap (satelliteRow clib satelliteName)

/-- The body of the loop of `LoadTrajectory`, for a row of the satellite. -/
def loadRow (loaded : LoadState) (row : Row) : LoadState :=
  let timed : LoadState :=
    if loaded.firstTime < 0 then { loaded with firstTime := row.time, startTime := row.time } else loaded
  match row.position with
  | some data =>
      { timed with trajectory := timed.trajectory ++ [{ data with time := row.time - timed.firstTime }] }
  | none => timed

theorem loadLine_eq (loaded : LoadState) (line : String) :
    loadLine clib satelliteName loaded line =
      match satelliteRow clib satelliteName line with
      | none => loaded
      | some row => loadRow loaded row := by
  unfold loadLine satelliteRow
  generalize getlines ',' line = fields
  split
  · rename_i satName _ _ _ _ _ _ _ _ _ _
    by_cases other : satName ≠ satelliteName
    · rw [if_pos other]
      simp only [if_pos other]
    · rw [if_neg other]
      simp only [if_neg other]
      rfl
  · -- a line of few fields is no row
    split
    · rfl
    · grind

theorem foldl_loadLine (lines : List String) (loaded : LoadState) :
    lines.foldl (loadLine clib satelliteName) loaded =
      (lines.filterMap (satelliteRow clib satelliteName)).foldl loadRow loaded := by
  induction lines generalizing loaded with
  | nil => rfl
  | cons line lines ih =>
      rw [List.foldl_cons, ih, loadLine_eq, List.filterMap_cons]
      cases satelliteRow clib satelliteName line <;> rfl

/-- The rows of the satellite that are left are the well-formed ones. -/
theorem wellFormed_eq {line : String} {row : Row} (read : satelliteRow clib satelliteName line = some row) :
    row.wellFormed = !malformed clib line := by
  unfold satelliteRow at read
  unfold malformed
  split at read
  · split at read
    · cases read
    · obtain rfl := Option.some.inj read
      simp [Row.wellFormed]
  · cases read

theorem satelliteRows_deleteMalformed (content : String) :
    satelliteRows clib satelliteName (deleteMalformed clib content) =
      (satelliteRows clib satelliteName content).filter Row.wellFormed := by
  unfold satelliteRows deleteMalformed
  cases lines : getlines '\n' content with
  | nil => rfl
  | cons header rows =>
  dsimp only
  have clean : ∀ line ∈ header :: rows.filter fun line => !malformed clib line, '\n' ∉ line.toList := by
    intro line member
    have listed : line ∈ getlines '\n' content := by
      rw [lines]
      exact (List.Sublist.cons_cons header (List.filter_sublist)).subset member
    exact notMem_of_mem_getlines listed
  rw [getlines_unlines clean, List.tail_cons, List.tail_cons, List.filterMap_filter, List.filter_filterMap]
  refine List.filterMap_congr fun line _ => ?_
  cases read : satelliteRow clib satelliteName line with
  | none => simp
  | some row =>
      rw [Option.filter_some, wellFormed_eq read]

/-! ## Points -/

/-- The points of rows once the origin is fixed. -/
def pointsFrom (origin : ℚ) (rows : List Row) : List PositionData :=
  rows.filterMap fun row => row.position.map fun data => { data with time := row.time - origin }

/-- The points of rows with the origin still open: as long as the times are negative, each is the origin of
its own row. -/
def points : List Row → List PositionData
  | [] => []
  | row :: rows =>
      pointsFrom row.time [row] ++ if row.time < 0 then points rows else pointsFrom row.time rows

theorem foldl_loadRow_fixed (rows : List Row) (loaded : LoadState) (fixed : 0 ≤ loaded.firstTime) :
    (rows.foldl loadRow loaded).trajectory = loaded.trajectory ++ pointsFrom loaded.firstTime rows := by
  induction rows generalizing loaded with
  | nil => simp [pointsFrom]
  | cons row rows ih =>
      have step : (loadRow loaded row).firstTime = loaded.firstTime ∧
          (loadRow loaded row).trajectory = loaded.trajectory ++ pointsFrom loaded.firstTime [row] := by
        rw [loadRow, if_neg (not_lt.mpr fixed)]
        cases position : row.position <;> simp [pointsFrom, position]
      rw [List.foldl_cons, ih _ (fixed.trans_eq step.1.symm), step.1, step.2, List.append_assoc]
      exact congrArg _ (List.filterMap_append ..).symm

theorem foldl_loadRow (rows : List Row) (loaded : LoadState) (floating : loaded.firstTime < 0) :
    (rows.foldl loadRow loaded).trajectory = loaded.trajectory ++ points rows := by
  induction rows generalizing loaded with
  | nil => simp [points]
  | cons row rows ih =>
      have step : (loadRow loaded row).firstTime = row.time ∧
          (loadRow loaded row).trajectory = loaded.trajectory ++ pointsFrom row.time [row] := by
        rw [loadRow, if_pos floating]
        cases position : row.position <;> simp [pointsFrom, position]
      rw [List.foldl_cons, points, ← List.append_assoc, ← step.2]
      split
      · rename_i negative
        exact ih _ (step.1.trans_lt negative)
      · rename_i started
        rw [foldl_loadRow_fixed _ _ ((not_lt.mp started).trans_eq step.1.symm), step.1]

/-- What `LoadTrajectory` builds. -/
theorem trajectory_loadTrajectory (clib : Clib) (content satelliteName : String)
    (m : Sgp4CsvMobilityModel) :
    (m.loadTrajectory clib (some content) satelliteName).2.trajectory =
      (points (satelliteRows clib satelliteName content)).insertionSort fun a b => a.time ≤ b.time := by
  have read : ((getlines '\n' content).tail.foldl (loadLine clib satelliteName)
      ⟨-1, m.startTime, []⟩).trajectory = points (satelliteRows clib satelliteName content) := by
    rw [foldl_loadLine, foldl_loadRow _ _ (by norm_num)]
    rfl
  unfold Sgp4CsvMobilityModel.loadTrajectory
  rw [← read]
  dsimp only
  cases sorted : ((getlines '\n' content).tail.foldl (loadLine clib satelliteName)
      ⟨-1, m.startTime, []⟩).trajectory.insertionSort fun a b => a.time ≤ b.time with
  | nil => rfl
  | cons front rest => rfl

/-! ## When the malformed rows are harmless -/

/-- No row has readable numbers and an unreadable time; and when the first row whose time is not negative,
with 0 for an unreadable one, is malformed, the next well-formed row has the time of that row. -/
structure Harmless (rows : List Row) : Prop where
  timed : ∀ row ∈ rows, row.position.isSome = true → row.timestamp.isSome = true
  origin : ∀ before row after next, rows = before ++ row :: after → (∀ r ∈ before, r.time < 0) →
    0 ≤ row.time → row.wellFormed = false → after.find? Row.wellFormed = some next →
    next.time = row.time

theorem pointsFrom_append (origin : ℚ) (rows rows' : List Row) :
    pointsFrom origin (rows ++ rows') = pointsFrom origin rows ++ pointsFrom origin rows' :=
  List.filterMap_append ..

theorem length_pointsFrom (origin : ℚ) (rows : List Row) :
    (pointsFrom origin rows).length = rows.countP fun row => row.position.isSome := by
  induction rows with
  | nil => rfl
  | cons row rows ih =>
      rw [pointsFrom, List.filterMap_cons, List.countP_cons, ← ih, pointsFrom]
      cases row.position <;> simp

theorem length_points (rows : List Row) :
    (points rows).length = rows.countP fun row => row.position.isSome := by
  induction rows with
  | nil => rfl
  | cons row rows ih =>
      have rest : (if row.time < 0 then points rows else pointsFrom row.time rows).length =
          rows.countP fun row => row.position.isSome := by
        split
        · exact ih
        · exact length_pointsFrom row.time rows
      rw [points, List.length_append, rest, length_pointsFrom, List.countP_cons, List.countP_cons,
        List.countP_nil]
      omega

/-- Rows before the origin is fixed. -/
theorem points_append {before : List Row} (negative : ∀ row ∈ before, row.time < 0) (rows : List Row) :
    points (before ++ rows) = points before ++ points rows := by
  induction before with
  | nil => rfl
  | cons row before ih =>
      have first := negative row List.mem_cons_self
      rw [List.cons_append, points, points, if_pos first, if_pos first,
        ih fun r member => negative r (List.mem_cons_of_mem row member), List.append_assoc]

/-- The row that fixes the origin, and those after it. -/
theorem points_cons {row : Row} (started : 0 ≤ row.time) (rows : List Row) :
    points (row :: rows) = pointsFrom row.time (row :: rows) := by
  rw [points, if_neg (not_lt.mpr started), ← pointsFrom_append, List.singleton_append]

theorem Row.wellFormed_of_time {row : Row} (moved : row.time ≠ 0) :
    row.wellFormed = row.position.isSome := by
  unfold Row.time at moved
  unfold Row.wellFormed
  cases stamp : row.timestamp with
  | none => simp [stamp] at moved
  | some time => simp

theorem pointsFrom_filter {rows : List Row}
    (same : ∀ row ∈ rows, row.wellFormed = row.position.isSome) (origin : ℚ) :
    pointsFrom origin (rows.filter Row.wellFormed) = pointsFrom origin rows := by
  unfold pointsFrom
  rw [List.filterMap_filter]
  refine List.filterMap_congr fun row member => ?_
  rw [same row member]
  cases row.position <;> rfl

theorem points_filter {rows : List Row} (negative : ∀ row ∈ rows, row.time < 0) :
    points (rows.filter Row.wellFormed) = points rows := by
  induction rows with
  | nil => rfl
  | cons row rows ih =>
      have first := negative row List.mem_cons_self
      have rest := ih fun r member => negative r (List.mem_cons_of_mem row member)
      have same := Row.wellFormed_of_time first.ne
      rw [List.filter_cons, points, if_pos first, ← rest]
      cases position : row.position with
      | none =>
          rw [position] at same
          rw [same, if_neg (by simp)]
          simp [pointsFrom, position]
      | some data =>
          rw [position] at same
          rw [same, if_pos (by simp), points, if_pos first]

/-- The rows up to the one that fixes the origin. -/
theorem exists_origin (rows : List Row) :
    (∀ row ∈ rows, row.time < 0) ∨
      ∃ before row after, rows = before ++ row :: after ∧ (∀ r ∈ before, r.time < 0) ∧ 0 ≤ row.time := by
  induction rows with
  | nil => exact .inl (by simp)
  | cons row rows ih =>
      rcases lt_or_ge row.time 0 with first | first
      case inr => exact .inr ⟨[], row, rows, rfl, by simp, first⟩
      case inl =>
        rcases ih with rest | ⟨before, origin, after, rfl, negative, started⟩
        · exact .inl (List.forall_mem_cons.mpr ⟨first, rest⟩)
        · exact .inr ⟨row :: before, origin, after, rfl, List.forall_mem_cons.mpr ⟨first, negative⟩,
            started⟩

section Times

variable {rows : List Row} (read : ∀ row ∈ rows, row.position.isSome = true)

include read

theorem times_pointsFrom (origin : ℚ) :
    (pointsFrom origin rows).map PositionData.time = rows.map fun row => row.time - origin := by
  induction rows with
  | nil => rfl
  | cons row rows ih =>
      obtain ⟨data, position⟩ := Option.isSome_iff_exists.mp (read row List.mem_cons_self)
      have rest := ih fun r member => read r (List.mem_cons_of_mem row member)
      rw [pointsFrom] at rest ⊢
      rw [List.filterMap_cons, position, Option.map_some, List.map_cons, List.map_cons, rest]

theorem times_points (negative : ∀ row ∈ rows, row.time < 0) :
    (points rows).map PositionData.time = rows.map fun _ => 0 := by
  induction rows with
  | nil => rfl
  | cons row rows ih =>
      have rest := ih (fun r member => read r (List.mem_cons_of_mem row member))
        fun r member => negative r (List.mem_cons_of_mem row member)
      have first := @times_pointsFrom [row]
        (fun r member => List.mem_singleton.mp member ▸ read row List.mem_cons_self) row.time
      rw [points, if_pos (negative row List.mem_cons_self), List.map_append, rest, first, List.map_cons,
        List.map_nil, sub_self]
      rfl

end Times

theorem sum_shift (rows : List Row) (origin origin' : ℚ) :
    (rows.map fun row => row.time - origin).sum =
      (rows.map fun row => row.time - origin').sum + rows.length * (origin' - origin) := by
  induction rows with
  | nil => simp
  | cons row rows ih =>
      rw [List.map_cons, List.map_cons, List.sum_cons, List.sum_cons, ih, List.length_cons]
      push_cast
      ring

theorem sum_shift_neg {rows : List Row} (negative : ∀ row ∈ rows, row.time < 0) {origin : ℚ}
    (started : 0 ≤ origin) :
    (rows.map fun row => row.time - origin).sum ≤ 0 ∧
      ((rows.map fun row => row.time - origin).sum = 0 → rows = []) := by
  induction rows with
  | nil => simp
  | cons row rows ih =>
      have first := negative row List.mem_cons_self
      have rest := (ih fun r member => negative r (List.mem_cons_of_mem row member)).1
      rw [List.map_cons, List.sum_cons]
      refine ⟨by linarith, fun zero => ?_⟩
      linarith

/-- The row with the latest time. -/
theorem exists_latest {rows : List Row} (some_row : rows ≠ []) :
    ∃ latest ∈ rows, ∀ row ∈ rows, row.time ≤ latest.time := by
  obtain ⟨latest, found⟩ : ∃ latest, List.argmax Row.time rows = some latest :=
    Option.ne_none_iff_exists'.mp fun none => some_row (List.argmax_eq_none.mp none)
  exact ⟨latest, List.argmax_mem found, fun row member => List.le_of_mem_argmax member found⟩

/-- Well-formed rows after an origin have the same times as without it only if the first has its time. -/
theorem head_time_of_perm {rows : List Row} (read : ∀ row ∈ rows, row.position.isSome = true) {origin : ℚ}
    (started : 0 ≤ origin) (same : (pointsFrom origin rows).Perm (points rows)) {next : Row}
    (head : rows.head? = some next) : next.time = origin := by
  have times := same.map PositionData.time
  rw [times_pointsFrom read] at times
  rcases exists_origin rows with negative | ⟨before, row, after, rfl, negative, started'⟩
  · -- every time is negative: the sum of the times is 0 without the origin and less with it
    rw [times_points read negative] at times
    have zero := times.sum_eq
    rw [List.map_const', List.sum_replicate, nsmul_zero] at zero
    rw [(sum_shift_neg negative started).2 zero] at head
    cases head
  · rw [points_append negative, points_cons started'] at times
    have readBefore : ∀ r ∈ before, r.position.isSome = true := fun r member =>
      read r (List.mem_append_left _ member)
    have readAfter : ∀ r ∈ row :: after, r.position.isSome = true := fun r member =>
      read r (List.mem_append_right _ member)
    rw [List.map_append, List.map_append, times_points readBefore negative, times_pointsFrom readAfter] at times
    rcases lt_or_ge origin row.time with later | notLater
    · -- the latest time with the origin is later than every time without it
      obtain ⟨latest, member, all⟩ := exists_latest (List.cons_ne_nil row after)
      have found : latest.time - origin ∈ before.map (fun _ => (0 : ℚ)) ++
          (row :: after).map fun r => r.time - row.time :=
        times.subset (List.mem_append_right _ (List.mem_map.mpr ⟨latest, member, rfl⟩))
      have first := all row List.mem_cons_self
      rcases List.mem_append.mp found with zero | shifted
      · obtain ⟨_, -, zero⟩ := List.mem_map.mp zero
        linarith
      · obtain ⟨r, listed, same⟩ := List.mem_map.mp shifted
        have := all r listed
        linarith
    · -- no time with the origin is later than it is without, and some are earlier
      have sums := times.sum_eq
      rw [List.sum_append, List.sum_append, List.map_const', List.sum_replicate,
        nsmul_zero, sum_shift (row :: after) origin row.time] at sums
      obtain ⟨atMost, only⟩ := sum_shift_neg negative started
      have count : (1 : ℚ) ≤ (row :: after).length := by
        rw [List.length_cons]
        push_cast
        linarith [(Nat.cast_nonneg after.length : (0 : ℚ) ≤ after.length)]
      have shift : ((row :: after).length : ℚ) * (row.time - origin) ≤ row.time - origin := by
        nlinarith
      have none : before = [] := only (by linarith)
      subst none
      obtain rfl := Option.some.inj head
      linarith

theorem Row.position_of_wellFormed {row : Row} (wellFormed : row.wellFormed = true) :
    row.position.isSome = true := by
  unfold Row.wellFormed at wellFormed
  exact (Bool.and_eq_true_iff.mp wellFormed).2

/-- As many points with the malformed rows as without them. -/
theorem timed_of_length {rows : List Row}
    (same : (rows.countP fun row => row.position.isSome) = rows.countP Row.wellFormed) :
    ∀ row ∈ rows, row.wellFormed = row.position.isSome := by
  induction rows with
  | nil => simp
  | cons row rows ih =>
      have fewer : rows.countP Row.wellFormed ≤ rows.countP fun row => row.position.isSome :=
        List.countP_mono_left fun r _ wellFormed => Row.position_of_wellFormed wellFormed
      rw [List.countP_cons, List.countP_cons] at same
      have first : row.wellFormed = row.position.isSome := by
        cases wellFormed : row.wellFormed with
        | true => rw [Row.position_of_wellFormed wellFormed]
        | false =>
            cases position : row.position.isSome with
            | false => rfl
            | true =>
                rw [wellFormed, position] at same
                simp only [if_true, Bool.false_eq_true, if_false] at same
                omega
      rw [first] at same
      exact List.forall_mem_cons.mpr ⟨first, ih (by omega)⟩

/-- Where the origin is fixed, a malformed row counts only for it. -/
theorem points_of_origin {before after : List Row} {row : Row} (negative : ∀ r ∈ before, r.time < 0)
    (started : 0 ≤ row.time) (same : ∀ r ∈ before ++ row :: after, r.wellFormed = r.position.isSome)
    (malformed : row.wellFormed = false) :
    points (before ++ row :: after) =
        points before ++ pointsFrom row.time (after.filter Row.wellFormed) ∧
      points ((before ++ row :: after).filter Row.wellFormed) =
        points before ++ points (after.filter Row.wellFormed) := by
  have position : row.position = none := by
    have none := same row (by simp)
    rw [malformed] at none
    exact Option.not_isSome_iff_eq_none.mp (by rw [← none]; simp)
  have kept : ∀ r ∈ before.filter Row.wellFormed, r.time < 0 := fun r member =>
    negative r (List.mem_of_mem_filter member)
  constructor
  · rw [points_append negative, points_cons started,
      pointsFrom_filter fun r member => same r (by simp [member])]
    simp [pointsFrom, position]
  · rw [List.filter_append, List.filter_cons, if_neg (by simp [malformed]), points_append kept,
      points_filter negative]

theorem sorted_points_iff (rows : List Row) :
    ((points rows).insertionSort fun a b => a.time ≤ b.time) =
        ((points (rows.filter Row.wellFormed)).insertionSort fun a b => a.time ≤ b.time) ↔
      Harmless rows := by
  constructor
  · intro sorted
    have perm : (points rows).Perm (points (rows.filter Row.wellFormed)) := by
      have before := List.perm_insertionSort (fun a b : PositionData => a.time ≤ b.time) (points rows)
      rw [sorted] at before
      exact before.symm.trans (List.perm_insertionSort ..)
    have same : ∀ row ∈ rows, row.wellFormed = row.position.isSome := by
      refine timed_of_length ?_
      have length := perm.length_eq
      rw [length_points, length_points, List.countP_filter] at length
      rw [length]
      refine List.countP_congr fun row _ => ?_
      rw [Bool.and_eq_true_iff]
      exact ⟨fun both => both.2, fun wellFormed => ⟨Row.position_of_wellFormed wellFormed, wellFormed⟩⟩
    refine ⟨fun row member position => ?_, ?_⟩
    · have wellFormed := same row member
      rw [position] at wellFormed
      exact (Bool.and_eq_true_iff.mp wellFormed).1
    · rintro before row after next rfl negative started malformed found
      obtain ⟨full, left⟩ := points_of_origin negative started same malformed
      rw [full, left, List.perm_append_left_iff] at perm
      refine head_time_of_perm (fun r member => ?_) started perm ?_
      · exact Row.position_of_wellFormed (List.mem_filter.mp member).2
      · rw [List.head?_filter, found]
  · intro harmless
    have same : ∀ row ∈ rows, row.wellFormed = row.position.isSome := by
      intro row member
      cases position : row.position.isSome with
      | true =>
          rw [Row.wellFormed, position, harmless.timed row member position]
          rfl
      | false => rw [Row.wellFormed, position, Bool.and_false]
    congr 1
    rcases exists_origin rows with negative | ⟨before, row, after, rfl, negative, started⟩
    · exact (points_filter negative).symm
    · cases wellFormed : row.wellFormed with
      | true =>
          have kept : ∀ r ∈ before.filter Row.wellFormed, r.time < 0 := fun r member =>
            negative r (List.mem_of_mem_filter member)
          have after_same : ∀ r ∈ row :: after, r.wellFormed = r.position.isSome := fun r member =>
            same r (List.mem_append_right before member)
          rw [List.filter_append, points_append negative, points_append kept, points_filter negative,
            points_cons started, ← pointsFrom_filter after_same, List.filter_cons, if_pos wellFormed,
            points_cons started]
      | false =>
          obtain ⟨full, left⟩ := points_of_origin negative started same wellFormed
          rw [full, left]
          congr 1
          cases kept : after.filter Row.wellFormed with
          | nil => rfl
          | cons next rest =>
              have found : after.find? Row.wellFormed = some next := by
                rw [← List.head?_filter, kept, List.head?_cons]
              have time := harmless.origin before row after next rfl negative started wellFormed found
              rw [points_cons (started.trans_eq time.symm), time]

/-- **When malformed rows contribute nothing.** The trajectory that is built from a text is that of the text
without its malformed rows exactly when its rows of the satellite are harmless. -/
theorem malformed_rows_iff (clib : Clib) (content satelliteName : String) (m : Sgp4CsvMobilityModel) :
    (m.loadTrajectory clib (some content) satelliteName).2.trajectory =
        (m.loadTrajectory clib (some (deleteMalformed clib content)) satelliteName).2.trajectory ↔
      Harmless (satelliteRows clib satelliteName content) := by
  rw [trajectory_loadTrajectory, trajectory_loadTrajectory, satelliteRows_deleteMalformed]
  exact sorted_points_iff _

/-- A file with a row of `S` that has no readable time. -/
def unreadableFile : String :=
  "time,satellite,elevation_deg,azimuth_deg,distance_km,lat,lon,height_km,x,y,z\n" ++
    "2025-11-26 14:16:50,S,90,0,500,0,0,500,6878,0,0\n" ++ "yesterday,S,90,0,500,0,0,500,6878,0,0\n"

/-- The unreadable time becomes a point long before the first one. -/
theorem malformed_row_counts :
    ¬ ∀ (clib : Clib) (content satelliteName : String) (m : Sgp4CsvMobilityModel),
      (m.loadTrajectory clib (some content) satelliteName).2.trajectory =
        (m.loadTrajectory clib (some (deleteMalformed clib content)) satelliteName).2.trajectory := by
  intro always
  have same := always sampleClib unreadableFile "S" {}
  rw [trajectory_loadTrajectory, trajectory_loadTrajectory] at same
  have lengths := congrArg List.length same
  rw [List.length_insertionSort, List.length_insertionSort] at lengths
  exact absurd lengths (by decide +kernel)

end Mobility

end NtnCho
