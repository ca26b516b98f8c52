import Mathlib.Algebra.Order.Archimedean.Basic
import NtnCho.Frames.AsOf
import NtnCho.Frames.Groups
import NtnCho.Snapshot

/-!
# The handover player

The player reads the snapshots of a run, groups them by UE and takes a change of the serving satellite
from one snapshot of a UE to the next for a handover. A UE completes at most one handover between two
ticks, so the player shows each successful handover once, at the first snapshot after it, and nothing
else, `dashboard_shows`. An empty name is no satellite to the player, and quotes in a name are taken off.
-/

namespace NtnCho

open EventSystem Frames Text

variable {P : Program} {env : Env} {i : ℕ}

/-! ## The player -/

namespace Player

/-- `Number` of a decimal numeral; no other text stands in a numeric column of the two files. -/
def number (text : List Char) : ℚ := readNumber text

structure UeMeta where
  ueId : ℚ
  groupName : String
  lat : ℚ
  lon : ℚ
  scenario : String

structure Frame where
  time : ℚ
  ueId : ℚ
  ueLat : ℚ
  ueLon : ℚ
  servingSat : String
  servingLat : ℚ
  servingLon : ℚ
  servingAltKm : ℚ
  servingSnr : ℚ
  targetSat : String
  targetLat : ℚ
  targetLon : ℚ
  targetAltKm : ℚ
  targetSnr : ℚ
  hoInProgress : Bool
  deriving DecidableEq

structure HandoverEvent where
  time : ℚ
  fromSat : String
  toSat : String
  ueId : ℚ
  ueLat : ℚ
  ueLon : ℚ
  deriving DecidableEq

/-- The part of `state` that `ingestData` writes. -/
structure Page where
  ueMeta : List (ℚ × UeMeta) := []
  framesByUe : List (ℚ × List Frame) := []
  handoverEventsByUe : List (ℚ × List HandoverEvent) := []
  selectedUe : Option ℚ := none
  timelineUe : Option ℚ := none
  times : List ℚ := []
  frameIndex : ℕ := 0
  lastLoadedFrameCount : ℕ := 0

/-- The option `preferredTime`: a time, `Number.POSITIVE_INFINITY`, or `null`. -/
inductive PreferredTime where
  | null
  | latest
  | time (t : ℚ)

/-- A row of `visualization_ue_positions.csv`. -/
def ueMetaOf (row : CsvRow) : UeMeta where
  ueId := number (row.field "ue_id")
  groupName := .ofList (row.field "group_name")
  lat := number (row.field "lat")
  lon := number (row.field "lon")
  scenario := .ofList (row.field "scenario")

/-- A row of `visualization_snapshot.csv`. -/
def frameOf (row : CsvRow) : Frame where
  time := number (row.field "time_s")
  ueId := number (row.field "ue_id")
  ueLat := number (row.field "ue_lat")
  ueLon := number (row.field "ue_lon")
  servingSat := .ofList (row.field "serving_satellite")
  servingLat := number (row.field "serving_sat_lat")
  servingLon := number (row.field "serving_sat_lon")
  servingAltKm := number (row.field "serving_sat_alt_km")
  servingSnr := number (row.field "serving_snr_dB")
  targetSat := .ofList (row.field "best_neighbor_satellite")
  targetLat := number (row.field "best_neighbor_sat_lat")
  targetLon := number (row.field "best_neighbor_sat_lon")
  targetAltKm := number (row.field "best_neighbor_sat_alt_km")
  targetSnr := number (row.field "best_neighbor_snr_dB")
  hoInProgress := decide (number (row.field "ho_in_progress") = 1)

theorem frameOf_time (row : CsvRow) : (frameOf row).time = number (row.field "time_s") := rfl

/-- The variables of the loop of `deriveHandoverEvents`. -/
structure Derivation where
  events : List HandoverEvent := []
  previousServing : Option String := none

/-- The body of the loop. An empty name is falsy, as `null` is. -/
def deriveStep (d : Derivation) (frame : Frame) : Derivation where
  events :=
    match d.previousServing with
    | none => d.events
    | some previous =>
        if previous ≠ "" ∧ frame.servingSat ≠ "" ∧ frame.servingSat ≠ previous then
          d.events ++
            [{ time := frame.time
               fromSat := previous
               toSat := frame.servingSat
               ueId := frame.ueId
               ueLat := frame.ueLat
               ueLon := frame.ueLon }]
        else d.events
  previousServing := if frame.servingSat ≠ "" then some frame.servingSat else d.previousServing

def deriveHandoverEvents (frames : List Frame) : List HandoverEvent :=
  (frames.foldl deriveStep {}).events

/-- The UE with the smallest number. -/
def chooseInitialUe (framesByUe : List (ℚ × List Frame)) : Option ℚ :=
  (sortBy id (framesByUe.map Prod.fst)).head?

/-- The loop of `resolveFrameIndex`: the index of the nearest time, and how near it is. -/
def nearest (preferredTime : ℚ) (best : ℕ × Option ℚ) (entry : ℚ × ℕ) : ℕ × Option ℚ :=
  let delta := |entry.1 - preferredTime|
  match best.2 with
  | none => (entry.2, some delta)
  | some bestDelta => if delta < bestDelta then (entry.2, some delta) else best

def resolveFrameIndex (times : List ℚ) (frameIndex : ℕ) (preferredTime : PreferredTime) : ℕ :=
  if times = [] then 0
  else
    match preferredTime with
    | .latest => times.length - 1
    | .null => min frameIndex (times.length - 1)
    | .time t => (times.zipIdx.foldl (nearest t) (0, none)).1

/-- `ingestData`, up to what it draws. -/
def ingestData (ueCsvText snapshotCsvText : List Char) (preserveSelection : Bool)
    (preferredTime : PreferredTime) (page : Page) : Page :=
  let ueRows := parseCsv ueCsvText
  let snapshotRows := parseCsv snapshotCsvText
  if ueRows = [] ∨ snapshotRows = [] then page
  else
    let times := sortBy id (snapshotRows.map fun row => number (row.field "time_s")).eraseDups
    let ueMeta := ueRows.foldl (fun entries row => setKey (ueMetaOf row).ueId (ueMetaOf row) entries) []
    let grouped :=
      snapshotRows.foldl (fun groups row => push (frameOf row).ueId (frameOf row) groups) []
    let framesByUe := grouped.map fun entry => (entry.1, sortBy Frame.time entry.2)
    let selectable := fun ue : ℚ => (framesByUe.lookup ue).isSome
    let previousSelectedUe := if preserveSelection then page.selectedUe else none
    let previousTimelineUe := if preserveSelection then page.timelineUe else none
    let selectedUe := (previousSelectedUe.filter selectable).or (chooseInitialUe framesByUe)
    { ueMeta := ueMeta
      framesByUe := framesByUe
      handoverEventsByUe := framesByUe.map fun entry => (entry.1, deriveHandoverEvents entry.2)
      selectedUe := selectedUe
      timelineUe := (previousTimelineUe.filter selectable).or selectedUe
      times := times
      frameIndex := resolveFrameIndex times page.frameIndex preferredTime
      lastLoadedFrameCount := times.length }

def frameForSelectedUe (page : Page) (index : ℕ) : Option Frame :=
  page.selectedUe.bind fun ue => ((page.framesByUe.lookup ue).getD [])[index]?

/-- The handover events of a UE, as the event list shows them. -/
def eventsOf (page : Page) (ue : ℚ) : List HandoverEvent := (page.handoverEventsByUe.lookup ue).getD []

end Player

/-! ## The two files -/

/-- What a UE has from its row of the group file besides its place. -/
structure UeGroup where
  groupName : String
  groupId : ℤ
  numUsers : ℤ

/-- The file `visualization_ue_positions.csv`. -/
def positionsCsv (group : ℕ → UeGroup) (ues : List UeInfo) : List Char :=
  unlines (csv (["ue_id", "group_name", "group_id", "num_users", "lat", "lon", "scenario"].map
      String.toList) ::
    ues.mapIdx fun i ue =>
      csv [showNat i, (group i).groupName.toList, showInt (group i).groupId, showInt (group i).numUsers,
        showFixed 6 ue.geo.lat, showFixed 6 ue.geo.lon, ue.geo.scenario.toList])

/-- A row as the player reads it. -/
def SnapshotRow.frame (row : SnapshotRow) : Player.Frame where
  time := decimals 3 row.simTime
  ueId := row.ueId
  ueLat := decimals 6 row.lat
  ueLon := decimals 6 row.lon
  servingSat := row.servingSat
  servingLat := decimals 6 row.serving.latDeg
  servingLon := decimals 6 row.serving.lonDeg
  servingAltKm := decimals 3 row.serving.altKm
  servingSnr := decimals 4 row.servingSnr
  targetSat := row.bestNeighborSat
  targetLat := decimals 6 row.neighbor.latDeg
  targetLon := decimals 6 row.neighbor.lonDeg
  targetAltKm := decimals 3 row.neighbor.altKm
  targetSnr := decimals 4 row.bestNeighborSnr
  hoInProgress := row.hoInProgress

/-- The row with the columns of the file. -/
def SnapshotRow.csvRow (row : SnapshotRow) : CsvRow :=
  (snapshotColumns.map String.toList).mapIdx fun index key => (key, (row.fields[index]?).getD [])

theorem SnapshotRow.field_csvRow (row : SnapshotRow) (index : ℕ) {key : String} {value : List Char}
    (column : snapshotColumns[index]? = some key) (written : row.fields[index]? = some value) :
    row.csvRow.field key = value :=
  field_mapIdx (by decide) column written

theorem SnapshotRow.frameOf_csvRow (row : SnapshotRow) : Player.frameOf row.csvRow = row.frame := by
  have number : ∀ {precision : ℕ}, 0 < precision → ∀ x,
      Player.number (showFixed precision x) = decimals precision x := fun pos x =>
    readNumber_showFixed pos x
  have index : ∀ n, Player.number (showNat n) = n := readNumber_showNat
  have busy : decide ((row.hoInProgress.toNat : ℚ) = 1) = row.hoInProgress := by
    cases row.hoInProgress <;> decide
  unfold Player.frameOf SnapshotRow.frame
  rw [row.field_csvRow 0 rfl rfl, row.field_csvRow 1 rfl rfl, row.field_csvRow 2 rfl rfl,
    row.field_csvRow 3 rfl rfl, row.field_csvRow 4 rfl rfl, row.field_csvRow 5 rfl rfl,
    row.field_csvRow 6 rfl rfl, row.field_csvRow 7 rfl rfl, row.field_csvRow 8 rfl rfl,
    row.field_csvRow 9 rfl rfl, row.field_csvRow 10 rfl rfl, row.field_csvRow 11 rfl rfl,
    row.field_csvRow 12 rfl rfl, row.field_csvRow 13 rfl rfl, row.field_csvRow 14 rfl rfl]
  simp only [number (by decide : 0 < 3), number (by decide : 0 < 4), number (by decide : 0 < 6), index,
    String.ofList_toList, busy]

/-- The player reads the rows that were written. -/
theorem parseCsv_snapshotCsv {rows : List SnapshotRow}
    (plain : ∀ row ∈ rows, ∀ field ∈ row.fields, PlainField field) :
    parseCsv (snapshotCsv rows) = rows.map SnapshotRow.csvRow := by
  have header : ∀ name ∈ snapshotColumns.map String.toList, PlainField name := by decide
  have written := @parseCsv_unlines (snapshotColumns.map String.toList) (rows.map SnapshotRow.fields)
    header (by decide) (fun fields member => ?_) fun fields member => ?_
  · rw [List.map_map, List.map_map] at written
    exact written
  · obtain ⟨row, listed, rfl⟩ := List.mem_map.mp member
    exact plain row listed
  · obtain ⟨row, listed, rfl⟩ := List.mem_map.mp member
    rfl

/-- The file of the UEs has a row when there is a UE. -/
theorem parseCsv_positionsCsv (group : ℕ → UeGroup) {ues : List UeInfo} (some_ue : ues ≠ []) :
    parseCsv (positionsCsv group ues) ≠ [] := by
  obtain ⟨ue, rest, rfl⟩ := List.exists_cons_of_ne_nil some_ue
  unfold positionsCsv
  rw [List.mapIdx_cons]
  refine parseCsv_ne_nil (c := 'u') (d := ',') (by decide) ?_ (by decide) (by decide)
  simp [csv, List.intercalate]

/-! ## Handovers and snapshots -/

/-- The successful handovers of a history that a snapshot follows, each with the time of the first
snapshot after it. -/
def shownHandovers (env : Env) : List (Firing ℤ (Option UeInfo) Event) → List (ℚ × String × String)
  | [] => []
  | f :: rest =>
      match handoverOf env f, (ticks rest).head? with
      | some pair, some g => (fireTime g, pair) :: shownHandovers env rest
      | _, _ => shownHandovers env rest

/-- The successful handovers of a history that no snapshot follows. -/
def unshownHandovers (env : Env) : List (Firing ℤ (Option UeInfo) Event) → List (String × String)
  | [] => []
  | f :: rest =>
      match handoverOf env f, (ticks rest).head? with
      | some pair, none => pair :: unshownHandovers env rest
      | _, _ => unshownHandovers env rest

theorem handoverOf_tick {f : Firing ℤ (Option UeInfo) Event}
    (tick : f.event.ev = .checkHandoverConditions) : handoverOf env f = none := by
  rw [handoverOf, tick]

/-- A tick shows the handovers that no snapshot followed before. -/
theorem shownHandovers_tick {g : Firing ℤ (Option UeInfo) Event}
    (tick : g.event.ev = .checkHandoverConditions) (h : List (Firing ℤ (Option UeInfo) Event)) :
    shownHandovers env (h ++ [g]) =
        shownHandovers env h ++ (unshownHandovers env h).map (fireTime g, ·) ∧
      unshownHandovers env (h ++ [g]) = [] := by
  induction h with
  | nil => simp [shownHandovers, unshownHandovers, handoverOf_tick tick]
  | cons f rest ih =>
      have next : (ticks (rest ++ [g])).head? = some (((ticks rest).head?).getD g) := by
        rw [ticks_snoc tick]
        cases ticks rest <;> rfl
      rw [List.cons_append, shownHandovers, unshownHandovers, shownHandovers, unshownHandovers, next,
        ih.1, ih.2]
      cases handed : handoverOf env f with
      | none => exact ⟨rfl, rfl⟩
      | some pair =>
          cases later : (ticks rest).head? with
          | some g' => exact ⟨rfl, rfl⟩
          | none =>
              refine ⟨?_, rfl⟩
              -- nothing of `rest` is shown when no tick is in it
              have none : shownHandovers env rest = [] := by
                clear ih next
                induction rest with
                | nil => rfl
                | cons f' rest ih =>
                    have quiet : (ticks rest).head? = none := by
                      rw [List.head?_eq_none_iff] at later ⊢
                      exact List.eq_nil_of_sublist_nil (later ▸ (List.sublist_cons_self f' rest).filter _)
                    rw [shownHandovers, quiet, ih quiet]
                    cases handoverOf env f' <;> rfl
              rw [none]
              rfl

/-- Another event shows nothing, and adds its handover. -/
theorem shownHandovers_other {g : Firing ℤ (Option UeInfo) Event}
    (other : g.event.ev ≠ .checkHandoverConditions) (h : List (Firing ℤ (Option UeInfo) Event)) :
    shownHandovers env (h ++ [g]) = shownHandovers env h ∧
      unshownHandovers env (h ++ [g]) = unshownHandovers env h ++ (handoverOf env g).toList := by
  induction h with
  | nil =>
      cases handed : handoverOf env g <;> simp [shownHandovers, unshownHandovers, handed, ticks]
  | cons f rest ih =>
      rw [List.cons_append, shownHandovers, unshownHandovers, shownHandovers, unshownHandovers,
        ticks_snoc_of_ne other, ih.1, ih.2]
      cases handoverOf env f <;> cases (ticks rest).head? <;> exact ⟨rfl, rfl⟩

/-- What is shown of a history goes on from what is shown up to one of its snapshots. -/
theorem shownHandovers_append {h : List (Firing ℤ (Option UeInfo) Event)}
    (all : unshownHandovers env h = []) (later : List (Firing ℤ (Option UeInfo) Event)) :
    shownHandovers env (h ++ later) = shownHandovers env h ++ shownHandovers env later := by
  induction h with
  | nil => rfl
  | cons f rest ih =>
      rw [unshownHandovers] at all
      rw [List.cons_append, shownHandovers, shownHandovers, ticks_append, List.head?_append]
      cases handed : handoverOf env f with
      | none =>
          rw [handed] at all
          exact ih all
      | some pair =>
          rw [handed] at all
          cases next : (ticks rest).head? with
          | none =>
              rw [next] at all
              cases all
          | some g =>
              rw [next] at all
              exact congrArg ((fireTime g, pair) :: ·) (ih all)

/-- A handover is shown at the time of a snapshot of the history. -/
theorem exists_of_mem_shownHandovers {h : List (Firing ℤ (Option UeInfo) Event)}
    {e : ℚ × String × String} (member : e ∈ shownHandovers env h) : ∃ g ∈ ticks h, e.1 = fireTime g := by
  induction h with
  | nil => cases member
  | cons f rest ih =>
      have old : (∃ g ∈ ticks rest, e.1 = fireTime g) → ∃ g ∈ ticks (f :: rest), e.1 = fireTime g :=
        fun ⟨g, listed, same⟩ =>
          ⟨g, ((List.sublist_cons_self f rest).filter _).subset listed, same⟩
      rw [shownHandovers] at member
      cases handed : handoverOf env f with
      | none =>
          rw [handed] at member
          exact old (ih member)
      | some pair =>
          cases next : (ticks rest).head? with
          | none =>
              rw [handed, next] at member
              exact old (ih member)
          | some g =>
              rw [handed, next] at member
              rcases List.mem_cons.mp member with rfl | later
              · exact old ⟨g, List.mem_of_mem_head? next, rfl⟩
              · exact old (ih later)

/-! ## The player follows the UE -/

/-- The rows of a UE along its history. -/
def ueRows (env : Env) (i : ℕ) (h : List (Firing ℤ (Option UeInfo) Event)) : List SnapshotRow :=
  (ticks h).filterMap (rowAfter env i)

/-- What `deriveHandoverEvents` makes of the rows of a UE. -/
def derivation (rows : List SnapshotRow) : Player.Derivation :=
  (rows.map SnapshotRow.frame).foldl Player.deriveStep {}

/-- The time, the source and the target of an event of the player. -/
def Player.HandoverEvent.shown (e : Player.HandoverEvent) : ℚ × String × String :=
  (e.time, e.fromSat, e.toSat)

/-- The serving satellite as `deriveHandoverEvents` keeps it. -/
def keptServing (serving : String) : Option String := if serving = "" then none else some serving

/-- The player has shown the handovers before the last snapshot, and knows the satellite that served
then: the one that serves now, or the source of the only handover since, which left the UE idle. -/
structure Followed (env : Env) (i : ℕ) (h : List (Firing ℤ (Option UeInfo) Event)) (ue : UeInfo) :
    Prop where
  events : (derivation (ueRows env i h)).events.map Player.HandoverEvent.shown = shownHandovers env h
  current :
    (unshownHandovers env h = [] ∧
        (derivation (ueRows env i h)).previousServing = keptServing ue.context.servingGnb) ∨
      ∃ sourceCell, unshownHandovers env h = [(sourceCell, ue.context.servingGnb)] ∧
        (derivation (ueRows env i h)).previousServing = some sourceCell ∧ sourceCell ≠ "" ∧
        ue.context.servingGnb ≠ "" ∧ sourceCell ≠ ue.context.servingGnb ∧
        ue.choProcState.phase = .idle

theorem ueRows_tick {f : Firing ℤ (Option UeInfo) Event} {ue : UeInfo}
    (tick : f.event.ev = .checkHandoverConditions) (after : f.after.state = some ue)
    (h : List (Firing ℤ (Option UeInfo) Event)) :
    ueRows env i (h ++ [f]) = ueRows env i h ++ [snapshotRow env (fireTime f) i ue] := by
  unfold ueRows
  rw [ticks_snoc tick, List.filterMap_append]
  simp [rowAfter, after]

theorem ueRows_other {f : Firing ℤ (Option UeInfo) Event}
    (other : f.event.ev ≠ .checkHandoverConditions) (h : List (Firing ℤ (Option UeInfo) Event)) :
    ueRows env i (h ++ [f]) = ueRows env i h := by
  unfold ueRows
  rw [ticks_snoc_of_ne other]

theorem derivation_snoc (rows : List SnapshotRow) (row : SnapshotRow) :
    derivation (rows ++ [row]) = Player.deriveStep (derivation rows) row.frame := by
  unfold derivation
  rw [List.map_append, List.foldl_append]
  rfl

section Run

variable {ok : Policy ℤ Event} {rows : List UeRow} {h : List (Firing ℤ (Option UeInfo) Event)}
  {c c' : Conf ℤ (Option UeInfo) Event} {p : Pending ℤ Event} {ue : UeInfo}

/-- **The step lemma of a tick**: it shows the handover since the last one, if there is one. -/
theorem followed_tick (keeps : P.reselectOnRlf = false)
    (prior : Run (ueHandler P env i) ok (ueInitial env rows i) h c)
    (step : Step (ueHandler P env i) ok c p c') (tick : p.ev = .checkHandoverConditions)
    (present : c.state = some ue) (followed : Followed env i h ue) :
    Followed env i (h ++ [⟨c, p, c'⟩]) (ueTick P env i (getSeconds p.ts) ue).1 := by
  obtain ⟨n, second⟩ : ∃ n : ℕ, fireTime ⟨c, p, c'⟩ = n :=
    fireTime_eq_natCast (prior.snoc step) (mem_ticks.mpr ⟨by simp, tick⟩)
  have state := ueState_of_step step present
  rw [tick, ueAction_tick] at state
  have context : (ueTick P env i (getSeconds p.ts) ue).1.context =
      (ue.updated P env (getSeconds p.ts)).context :=
    (ueTick_context_cases P env i (getSeconds p.ts) ue).resolve_right fun reselects => by
      rw [keeps] at reselects
      cases reselects.1
  have served : ue.context.servingGnb ≠ "" →
      (ueTick P env i (getSeconds p.ts) ue).1.context.servingGnb = ue.context.servingGnb := by
    intro some_serving
    rw [context, updated_context some_serving]
  obtain ⟨shows, none_left⟩ := @shownHandovers_tick env ⟨c, p, c'⟩ tick h
  have drawn := derivation_snoc (ueRows env i h)
    (snapshotRow env (fireTime ⟨c, p, c'⟩) i (ueTick P env i (getSeconds p.ts) ue).1)
  rw [← @ueRows_tick env i ⟨c, p, c'⟩ _ tick state h] at drawn
  have time : decimals 3 (fireTime ⟨c, p, c'⟩) = fireTime ⟨c, p, c'⟩ := by
    rw [second, decimals_natCast]
  generalize hue : (ueTick P env i (getSeconds p.ts) ue).1 = ue' at *
  have frame : (snapshotRow env (fireTime ⟨c, p, c'⟩) i ue').frame.servingSat = ue'.context.servingGnb :=
    rfl
  have at_time : (snapshotRow env (fireTime ⟨c, p, c'⟩) i ue').frame.time = fireTime ⟨c, p, c'⟩ := time
  rcases followed.current with ⟨none, knows⟩ | ⟨source, one, knows, named, target, moved, -⟩
  · -- nothing to show: the UE is served as before, or for the first time
    have unchanged : (Player.deriveStep (derivation (ueRows env i h))
        (snapshotRow env (fireTime ⟨c, p, c'⟩) i ue').frame).events =
        (derivation (ueRows env i h)).events := by
      unfold Player.deriveStep
      rw [knows]
      unfold keptServing
      by_cases unserved : ue.context.servingGnb = ""
      · rw [if_pos unserved]
      · rw [if_neg unserved]
        dsimp only
        rw [if_neg fun changes => changes.2.2 (frame.trans (served unserved))]
    refine ⟨?_, .inl ⟨none_left, ?_⟩⟩
    · rw [drawn, unchanged, followed.events, shows, none]
      simp
    · rw [drawn]
      unfold Player.deriveStep keptServing
      dsimp only
      rw [frame]
      by_cases unserved : ue'.context.servingGnb = ""
      · rw [if_neg (not_not.mpr unserved), if_pos unserved, knows, keptServing, if_pos]
        by_contra before
        exact before ((served before).symm.trans unserved)
      · rw [if_pos unserved, if_neg unserved]
  · have same := served target
    refine ⟨?_, .inl ⟨none_left, ?_⟩⟩
    · rw [drawn, shows, one, ← followed.events]
      unfold Player.deriveStep
      rw [knows]
      dsimp only
      rw [if_pos ⟨named, by rwa [frame, same], by rw [frame, same]; exact moved.symm⟩, List.map_append]
      simp [Player.HandoverEvent.shown, frame, same, at_time]
    · rw [drawn]
      unfold Player.deriveStep keptServing
      dsimp only
      rw [frame, same, if_pos target, if_neg target]

/-- **The step lemma of a phase**: it completes a handover at most when none waits to be shown. -/
theorem followed_phase (lawful : P.Lawful) (named : "" ∉ env.link.satellites)
    (prior : Run (ueHandler P env i) ok (ueInitial env rows i) h c)
    (step : Step (ueHandler P env i) ok c p c') {handler : ChoHandler} {sourceCell targetCell : String}
    (phase : p.ev = .cho handler i sourceCell targetCell) (present : c.state = some ue)
    (followed : Followed env i h ue) :
    Followed env i (h ++ [⟨c, p, c'⟩]) (ueAction P env i p.ev p.ts ue).1 := by
  obtain ⟨ts, event⟩ := p
  obtain rfl : event = .cho handler i sourceCell targetCell := phase
  have other : (⟨c, ⟨ts, .cho handler i sourceCell targetCell⟩, c'⟩ :
      Firing ℤ (Option UeInfo) Event).event.ev ≠ .checkHandoverConditions := by simp
  have state := ueState_of_step step present
  obtain ⟨-, guard, -⟩ := guard_of_step prior step present
  have idle := choHandler_phase P env i sourceCell targetCell (getSeconds ts) guard
  obtain ⟨shows, left⟩ := @shownHandovers_other env _ other h
  have same_rows := @ueRows_other env i _ other h
  rw [ueAction_cho] at state ⊢
  rcases followed.current with ⟨none, knows⟩ | ⟨source, -, -, -, -, -, rest⟩
  · cases handed : handoverOf env ⟨c, ⟨ts, .cho handler i sourceCell targetCell⟩, c'⟩ with
    | none =>
        have kept := servingOf_of_phase step rfl handed
        rw [servingOf_eq present, servingOf_eq state] at kept
        refine ⟨by rw [same_rows, shows, followed.events], .inl ⟨?_, ?_⟩⟩
        · rw [left, none, handed]
          rfl
        · rw [same_rows, knows, kept]
    | some pair =>
        obtain ⟨flight, listed⟩ := inFlight_of_handoverOf (f := ⟨c, _, c'⟩) lawful prior step handed
        have before := flight.before
        have after := flight.after
        rw [servingOf_eq present] at before
        rw [servingOf_eq state] at after
        have completes : handler = .phase7ExecutionComplete := by
          by_contra early
          rw [handoverOf] at handed
          split at handed
          · rename_i completion
            exact early (Event.cho.inj completion).1
          · cases handed
        refine ⟨by rw [same_rows, shows, followed.events], .inr ⟨pair.1, ?_, ?_, flight.served, ?_,
          ?_, ?_⟩⟩
        · rw [left, none, handed, after]
          rfl
        · rw [same_rows, knows, before, keptServing, if_neg flight.served]
        · rw [after]
          rintro unnamed
          exact named (unnamed ▸ listed)
        · rw [after]
          exact flight.moves
        · rw [idle, completes]
          rfl
  · rw [guard] at rest
    cases handler <;> cases rest

/-- **The run lemma**: at every point of a run the player follows the UE. -/
theorem followed_of_run (lawful : P.Lawful) (keeps : P.reselectOnRlf = false)
    (named : "" ∉ env.link.satellites)
    (run : Run (ueHandler P env i) ok (ueInitial env rows i) h c) (present : c.state = some ue) :
    Followed env i h ue := by
  refine ueRun_history (I := fun h _ ue => Followed env i h ue) run ?_ ?_ present
  · intro row _
    exact ⟨rfl, .inl ⟨rfl, rfl⟩⟩
  intro h c p c' ue prior step present concerns followed
  cases event : p.ev with
  | checkHandoverConditions =>
      rw [ueAction_tick]
      exact followed_tick keeps prior step event present followed
  | cho handler ueId sourceCell targetCell =>
      rw [event] at concerns
      obtain rfl : ueId = i := by simpa [Event.concerns] using concerns
      rw [← event]
      exact followed_phase lawful named prior step event present followed
  | evaluatePendingPrediction r =>
      rw [event] at concerns
      cases concerns

end Run

/-! ## Prefixes of the file -/

/-- The file up to its line `k`. -/
def snapshotPrefix (rows : List SnapshotRow) (k : ℕ) : List Char :=
  unlines ((csv (snapshotColumns.map String.toList) :: rows.map fun row => csv row.fields).take k)

theorem parseCsv_snapshotPrefix {rows : List SnapshotRow}
    (plain : ∀ row ∈ rows, ∀ field ∈ row.fields, PlainField field) (k : ℕ) :
    parseCsv (snapshotPrefix rows k) = (rows.take (k - 1)).map SnapshotRow.csvRow := by
  cases k with
  | zero => rfl
  | succ k =>
      have written : snapshotPrefix rows (k + 1) = snapshotCsv (rows.take k) := by
        simp [snapshotPrefix, snapshotCsv, List.map_take]
      rw [written, parseCsv_snapshotCsv fun row member => plain row (List.mem_of_mem_take member)]
      rfl

/-- The first ticks of a history are those of a part of it that ends with a tick. -/
theorem exists_split_ticks (h : List (Firing ℤ (Option UeInfo) Event)) (m : ℕ) :
    ∃ h₁ h₂, h = h₁ ++ h₂ ∧ ticks h₁ = (ticks h).take m ∧
      (h₁ = [] ∨ ∃ h' g, h₁ = h' ++ [g] ∧ g.event.ev = .checkHandoverConditions) := by
  induction h using List.reverseRecOn with
  | nil => exact ⟨[], [], rfl, by simp [ticks], .inl rfl⟩
  | append_singleton h f ih =>
      obtain ⟨h₁, h₂, rfl, first, ends⟩ := ih
      by_cases tick : f.event.ev = .checkHandoverConditions
      case neg =>
        refine ⟨h₁, h₂ ++ [f], List.append_assoc .., ?_, ends⟩
        rw [ticks_snoc_of_ne tick]
        exact first
      case pos =>
        by_cases short : m ≤ (ticks (h₁ ++ h₂)).length
        · refine ⟨h₁, h₂ ++ [f], List.append_assoc .., ?_, ends⟩
          rw [ticks_snoc tick, List.take_append_of_le_length short]
          exact first
        · refine ⟨h₁ ++ h₂ ++ [f], [], by simp, ?_, .inr ⟨h₁ ++ h₂, f, rfl, tick⟩⟩
          rw [List.take_of_length_le]
          rw [ticks_snoc tick, List.length_append, List.length_singleton]
          omega

theorem filterMap_take {α β : Type} {f : α → Option β} {l : List α} (all : ∀ a ∈ l, (f a).isSome = true)
    (m : ℕ) : (l.take m).filterMap f = (l.filterMap f).take m := by
  induction l generalizing m with
  | nil => simp
  | cons a l ih =>
      obtain ⟨b, found⟩ := Option.isSome_iff_exists.mp (all a List.mem_cons_self)
      cases m with
      | zero => rfl
      | succ m =>
          rw [List.take_succ_cons, List.filterMap_cons_some found, List.filterMap_cons_some found,
            List.take_succ_cons, ih fun a member => all a (List.mem_cons_of_mem _ member)]

section Run

variable {ok : Policy ℤ Event} {rows : List UeRow} {h : List (Firing ℤ (Option UeInfo) Event)}
  {c : Conf ℤ (Option UeInfo) Event}

/-- Every tick of a UE that is there writes a row, and no other does. -/
theorem rowAfter_isSome (run : Run (ueHandler P env i) ok (ueInitial env rows i) h c)
    {f : Firing ℤ (Option UeInfo) Event} (member : f ∈ ticks h) :
    (rowAfter env i f).isSome = rows[i]?.isSome := by
  obtain ⟨h₁, h₂, rfl⟩ := List.append_of_mem (mem_ticks.mp member).1
  obtain ⟨prior, step⟩ := run.split
  rw [rowAfter, Option.isSome_map]
  exact ueRun_isSome (prior.snoc step)

theorem ueRows_eq_nil (run : Run (ueHandler P env i) ok (ueInitial env rows i) h c)
    (absent : rows[i]? = none) : ueRows env i h = [] := by
  refine List.filterMap_eq_nil_iff.mpr fun f member => ?_
  rw [← Option.not_isSome_iff_eq_none, rowAfter_isSome run member, absent]
  simp

/-- The rows of a UE carry the seconds `0, 1, 2, …`. -/
theorem times_ueRows (run : Run (ueHandler P env i) ok (ueInitial env rows i) h c) :
    ∃ m : ℕ, (ueRows env i h).map SnapshotRow.simTime = (List.range m).map Nat.cast := by
  cases present : rows[i]? with
  | none =>
      refine ⟨0, ?_⟩
      rw [ueRows_eq_nil run present]
      rfl
  | some row =>
      refine ⟨(ticks h).length, ?_⟩
      have events := (ueTicks_of_run run).2
      have times : (ueRows env i h).map SnapshotRow.simTime = (ticks h).map fireTime := by
        unfold ueRows
        rw [List.map_filterMap, ← List.filterMap_eq_map]
        refine List.filterMap_congr fun f member => ?_
        have written := rowAfter_isSome run member
        rw [present] at written
        obtain ⟨written, found⟩ := Option.isSome_iff_exists.mp written
        obtain ⟨ue, -, rfl⟩ := Option.map_eq_some_iff.mp found
        rw [found]
        rfl
      have seconds : (ticks h).map fireTime =
          ((ticks h).map Firing.event).map fun p => getSeconds p.ts := by
        rw [List.map_map]
        rfl
      rw [times, seconds, events, List.map_map]
      exact List.map_congr_left fun n _ => getSeconds_tickNumber n

end Run

/-! ## The frames -/

/-- In rows at the seconds `0, 1, 2, …` the row of second `n` is the row number `n`. -/
theorem find?_of_times {rows : List SnapshotRow} {m : ℕ}
    (times : rows.map SnapshotRow.simTime = (List.range m).map Nat.cast) (n : ℕ) :
    rows.find? (fun row : SnapshotRow => decide (row.simTime = (n : ℚ))) = rows[n]? := by
  have at_index : ∀ {j : ℕ} {row : SnapshotRow}, rows[j]? = some row → row.simTime = (j : ℚ) := by
    intro j row found
    have time := congrArg (·[j]?) times
    simp only [List.getElem?_map, found, Option.map_some] at time
    obtain ⟨k, listed, same⟩ := Option.map_eq_some_iff.mp time.symm
    obtain ⟨bound, rfl⟩ := List.getElem?_eq_some_iff.mp listed
    rw [← same, List.getElem_range]
  cases found : rows[n]? with
  | none =>
      refine List.find?_eq_none.mpr fun row member => ?_
      obtain ⟨j, listed⟩ := List.mem_iff_getElem?.mp member
      rw [at_index listed]
      have beyond := List.getElem?_eq_none_iff.mp found
      have inside := (List.getElem?_eq_some_iff.mp listed).1
      simp only [decide_eq_true_eq, Nat.cast_inj]
      omega
  | some row =>
      obtain ⟨bound, rfl⟩ := List.getElem?_eq_some_iff.mp found
      refine List.find?_eq_some_iff_getElem.mpr ⟨by simpa using at_index found, n, bound, rfl, ?_⟩
      intro j below
      have earlier := at_index (List.getElem?_eq_getElem (below.trans bound))
      simp only [earlier, Bool.not_eq_eq_eq_not, Bool.not_true, decide_eq_false_iff_not, Nat.cast_inj]
      omega

/-- Where the times of all rows are the seconds up to `m`, the row number `n` of a UE with rows at the
seconds `0, 1, 2, …` is its row at the time number `n`. -/
theorem getElem?_eq_find? {read own : List SnapshotRow} {i m bound : ℕ}
    (rowsOf : read.filter (fun row => row.ueId = i) = own)
    (times : own.map SnapshotRow.simTime = (List.range bound).map Nat.cast) (within : bound ≤ m)
    (n : ℕ) :
    own[n]? = ((List.range m).map (Nat.cast : ℕ → ℚ))[n]?.bind fun t =>
      read.find? fun row => row.ueId = i ∧ row.simTime = t := by
  have found : ∀ t, (read.find? fun row => row.ueId = i ∧ row.simTime = t) =
      own.find? fun row : SnapshotRow => row.simTime = t := by
    intro t
    rw [← rowsOf, List.find?_filter]
    simp
  rw [List.getElem?_map]
  by_cases inside : n < m
  · rw [List.getElem?_range inside, Option.map_some, Option.bind_some, found, find?_of_times times]
  · have length : own.length = bound := by
      have lengths := congrArg List.length times
      rwa [List.length_map, List.length_map, List.length_range] at lengths
    have beyond : (List.range m)[n]? = none := by simpa using inside
    rw [beyond, Option.map_none, Option.bind_none, List.getElem?_eq_none_iff]
    omega

/-- Some second is none of the times. -/
theorem exists_second_notMem (times : List ℚ) : ∃ n : ℕ, (n : ℚ) ∉ times := by
  have above : ∃ n : ℕ, ∀ t ∈ times, t < n := by
    induction times with
    | nil => exact ⟨0, by simp⟩
    | cons t rest ih =>
        obtain ⟨n, above⟩ := ih
        obtain ⟨k, greater⟩ := exists_nat_gt t
        refine ⟨max n k, fun u member => ?_⟩
        push_cast
        rcases List.mem_cons.mp member with rfl | later
        · exact lt_max_of_lt_right greater
        · exact lt_max_of_lt_left (above u later)
  obtain ⟨n, above⟩ := above
  exact ⟨n, fun member => lt_irrefl _ (above n member)⟩

/-- Times that leave out no second are, sorted, the seconds up to some point. -/
theorem sortBy_seconds {times : List ℚ} (seconds : ∀ t ∈ times, ∃ n : ℕ, t = n)
    (down : ∀ m n : ℕ, (n : ℚ) ∈ times → m ≤ n → (m : ℚ) ∈ times) :
    ∃ m, sortBy id times.eraseDups = (List.range m).map Nat.cast := by
  have bounded := exists_second_notMem times
  have member_iff : ∀ n : ℕ, (n : ℚ) ∈ times ↔ n < Nat.find bounded := by
    intro n
    constructor
    · intro member
      by_contra beyond
      exact Nat.find_spec bounded (down _ n member (not_lt.mp beyond))
    · intro below
      exact not_not.mp (Nat.find_min bounded below)
  refine ⟨Nat.find bounded, ?_⟩
  have same : (sortBy id times.eraseDups).Perm ((List.range (Nat.find bounded)).map Nat.cast) := by
    refine (List.mergeSort_perm _ _).trans ?_
    refine (List.perm_ext_iff_of_nodup (nodup_eraseDups _)
      (List.nodup_range.map Nat.cast_injective)).mpr fun t => ?_
    rw [List.mem_eraseDups, List.mem_map]
    constructor
    · intro member
      obtain ⟨n, rfl⟩ := seconds t member
      exact ⟨n, List.mem_range.mpr ((member_iff n).mp member), rfl⟩
    · rintro ⟨n, below, rfl⟩
      exact (member_iff n).mpr (List.mem_range.mp below)
  have increasing : ((List.range (Nat.find bounded)).map Nat.cast : List ℚ).Pairwise (· ≤ ·) :=
    List.pairwise_map.mpr (List.pairwise_le_range.imp fun le => Nat.cast_le.mpr le)
  exact List.Perm.eq_of_pairwise (fun _ _ _ _ => le_antisymm) (pairwise_sortBy id _) increasing same

/-- The rows of a UE in a prefix are its first rows. -/
theorem exists_take_filter {α : Type} (p : α → Bool) (l : List α) (k : ℕ) :
    ∃ m, (l.take k).filter p = (l.filter p).take m :=
  ⟨_, List.prefix_iff_eq_take.mp ((List.take_prefix k l).filter p)⟩

/-- The frames of all UEs on a page that was read. -/
def framesByUe (rows : List SnapshotRow) : List (ℚ × List Player.Frame) :=
  (rows.foldl (fun groups row => push row.frame.ueId row.frame groups) []).map fun entry =>
    (entry.1, sortBy Player.Frame.time entry.2)

theorem ingestData_of_parsed {ueCsvText snapshotCsvText : List Char} {rows : List SnapshotRow}
    (ues : parseCsv ueCsvText ≠ []) (parsed : parseCsv snapshotCsvText = rows.map SnapshotRow.csvRow)
    (some_row : rows ≠ []) (preserve : Bool) (preferred : Player.PreferredTime) (page : Player.Page) :
    let shown := Player.ingestData ueCsvText snapshotCsvText preserve preferred page
    shown.framesByUe = framesByUe rows ∧
      shown.handoverEventsByUe =
        (framesByUe rows).map (fun entry => (entry.1, Player.deriveHandoverEvents entry.2)) ∧
      shown.times = sortBy id (rows.map fun row => row.frame.time).eraseDups := by
  have read : ¬ (parseCsv ueCsvText = [] ∨ parseCsv snapshotCsvText = []) := by
    rw [parsed, List.map_eq_nil_iff]
    exact fun none => none.elim ues some_row
  have grouped : framesByUe rows =
      ((rows.map SnapshotRow.csvRow).foldl (fun groups row =>
        push (Player.frameOf row).ueId (Player.frameOf row) groups) []).map fun entry =>
          (entry.1, sortBy Player.Frame.time entry.2) := by
    rw [List.foldl_map]
    simp only [SnapshotRow.frameOf_csvRow]
    rfl
  have times : (rows.map SnapshotRow.csvRow).map (fun row => Player.number (row.field "time_s")) =
      rows.map fun row => row.frame.time := by
    rw [List.map_map]
    refine List.map_congr_left fun row _ => ?_
    rw [Function.comp_apply, ← Player.frameOf_time, row.frameOf_csvRow]
  rw [grouped, ← times, ← parsed]
  unfold Player.ingestData
  dsimp only
  rw [if_neg read]
  exact ⟨rfl, rfl, rfl⟩

/-- The frames and the events of a UE on a page that was read, whose rows come in the order of time. -/
theorem lookup_framesByUe {rows : List SnapshotRow} {i : ℕ}
    (increasing : (rows.filter fun row => row.ueId = i).Pairwise fun a b =>
      a.frame.time ≤ b.frame.time) :
    ((framesByUe rows).lookup (i : ℚ)).getD [] =
      (rows.filter fun row => row.ueId = i).map SnapshotRow.frame := by
  have grouped := lookup_foldl_push (fun row : SnapshotRow => row.frame.ueId) SnapshotRow.frame
    rows [] (i : ℚ)
  have own : (rows.filter fun row => row.frame.ueId = (i : ℚ)) =
      rows.filter fun row => row.ueId = i :=
    List.filter_congr fun row _ => decide_eq_decide.mpr Nat.cast_inj
  rw [own, List.lookup_nil, Option.getD_none, List.nil_append] at grouped
  unfold framesByUe
  rw [lookup_map, ← sortBy_eq_self (List.pairwise_map.mpr increasing), ← grouped]
  cases List.lookup (i : ℚ) (rows.foldl (fun groups row => push row.frame.ueId row.frame groups) []) with
  | none => exact (sortBy_eq_self List.Pairwise.nil).symm
  | some frames => rfl

theorem eventsOf_of_frames {page : Player.Page} {rows : List SnapshotRow} {i : ℕ}
    (events : page.handoverEventsByUe =
      (framesByUe rows).map fun entry => (entry.1, Player.deriveHandoverEvents entry.2))
    (increasing : (rows.filter fun row => row.ueId = i).Pairwise fun a b =>
      a.frame.time ≤ b.frame.time) :
    Player.eventsOf page i = (derivation (rows.filter fun row => row.ueId = i)).events := by
  unfold Player.eventsOf derivation
  rw [events, lookup_map, ← lookup_framesByUe increasing]
  cases (framesByUe rows).lookup (i : ℚ) <;> rfl

/-- What a page shows of the rows that were read: for each UE the handovers up to its last row, at the
times of their first rows, and for each time the row of that time. -/
structure Shows (env : Env) (h : List (Firing ℤ Sim Event)) (read : List SnapshotRow)
    (page : Player.Page) : Prop where
  times : page.times.Pairwise (· < ·) ∧ ∀ t, t ∈ page.times ↔ ∃ row ∈ read, row.simTime = t
  events : ∀ i : ℕ, (Player.eventsOf page i).map Player.HandoverEvent.shown =
    (shownHandovers env (ueHistory tdCho env i h)).filter fun e =>
      decide (∃ row ∈ read, row.ueId = i ∧ e.1 ≤ row.simTime)
  frames : ∀ i index : ℕ, Player.frameForSelectedUe { page with selectedUe := some (i : ℚ) } index =
    page.times[index]?.bind fun t =>
      (read.find? fun row => row.ueId = i ∧ row.simTime = t).map SnapshotRow.frame

section Read

variable {rows : List UeRow} {h : List (Firing ℤ Sim Event)} {c : Conf ℤ Sim Event}

/-- The rows of a UE in a prefix of the file are those of a first part of its history, all of whose
handovers are shown. -/
theorem exists_history_of_take (run : AnyOrderRun tdCho env rows h c) (i k : ℕ) :
    ∃ h₁ h₂ c₁, ueHistory tdCho env i h = h₁ ++ h₂ ∧
      Run (ueHandler tdCho env i) anyOrder (ueInitial env rows i) h₁ c₁ ∧
      ((snapshots env h).take k).filter (fun row => row.ueId = i) = ueRows env i h₁ ∧
      unshownHandovers env h₁ = [] := by
  obtain ⟨m, own⟩ := exists_take_filter (fun row : SnapshotRow => decide (row.ueId = i))
    (snapshots env h) k
  rw [@filter_snapshots tdCho env i h] at own
  have ueRun := run.toUe i
  cases present : rows[i]? with
  | none =>
      refine ⟨[], _, _, rfl, .nil, ?_, rfl⟩
      rw [own, show (ticks (ueHistory tdCho env i h)).filterMap (rowAfter env i) = [] from
        ueRows_eq_nil ueRun present, List.take_nil]
      rfl
  | some row =>
      obtain ⟨h₁, h₂, split, first, ends⟩ := exists_split_ticks (ueHistory tdCho env i h) m
      obtain ⟨c₁, ueRun₁⟩ : ∃ c₁, Run (ueHandler tdCho env i) _ (ueInitial env rows i) h₁ c₁ := by
        rw [show (ueComponent tdCho env i).history h = h₁ ++ h₂ from split] at ueRun
        cases h₂ with
        | nil => exact ⟨_, List.append_nil h₁ ▸ ueRun⟩
        | cons f h₂ => exact ⟨_, ueRun.split.1⟩
      refine ⟨h₁, h₂, c₁, split, ueRun₁, ?_, ?_⟩
      · rw [own, ueRows, first, filterMap_take fun f member => ?_]
        rw [rowAfter_isSome ueRun member, present]
        rfl
      · rcases ends with rfl | ⟨h', g, rfl, tick⟩
        · rfl
        · exact (shownHandovers_tick tick h').2

/-- The seconds in a prefix of the file: each UE has its row of every second up to its last. -/
theorem times_of_take (run : AnyOrderRun tdCho env rows h c) (k : ℕ) :
    (∀ row ∈ (snapshots env h).take k, ∃ n : ℕ, row.simTime = n) ∧
      ∀ row ∈ (snapshots env h).take k, ∀ m n : ℕ, row.simTime = n → m ≤ n →
        ∃ row' ∈ (snapshots env h).take k, row'.simTime = m := by
  have own : ∀ row ∈ (snapshots env h).take k, ∃ bound : ℕ, ∀ t : ℚ,
      (∃ row' ∈ ((snapshots env h).take k).filter (fun other => other.ueId = row.ueId),
        row'.simTime = t) ↔ ∃ n < bound, (n : ℚ) = t := by
    intro row member
    obtain ⟨h₁, h₂, c₁, -, ueRun, rowsOf, -⟩ := exists_history_of_take run row.ueId k
    obtain ⟨bound, times⟩ := times_ueRows ueRun
    refine ⟨bound, fun t => ?_⟩
    rw [rowsOf]
    have listed : t ∈ (ueRows env row.ueId h₁).map SnapshotRow.simTime ↔
        t ∈ (List.range bound).map Nat.cast := by rw [times]
    simpa [List.mem_map] using listed
  have self : ∀ row ∈ (snapshots env h).take k,
      row ∈ ((snapshots env h).take k).filter fun other => other.ueId = row.ueId :=
    fun row member => List.mem_filter.mpr ⟨member, decide_eq_true rfl⟩
  constructor
  · intro row member
    obtain ⟨bound, iff⟩ := own row member
    obtain ⟨n, -, same⟩ := (iff row.simTime).mp ⟨row, self row member, rfl⟩
    exact ⟨n, same.symm⟩
  · intro row member m n at_n le
    obtain ⟨bound, iff⟩ := own row member
    obtain ⟨n', below, same⟩ := (iff row.simTime).mp ⟨row, self row member, rfl⟩
    rw [at_n, Nat.cast_inj] at same
    obtain ⟨row', listed, at_m⟩ := (iff m).mpr ⟨m, by omega, rfl⟩
    exact ⟨row', (List.mem_filter.mp listed).1, at_m⟩

/-- The handovers that a part of a history shows are those up to its last row. -/
theorem shownHandovers_upTo {i : ℕ} {ok : Policy ℤ Event} {h₁ h₂ : List (Firing ℤ (Option UeInfo) Event)}
    {c : Conf ℤ (Option UeInfo) Event} {read : List SnapshotRow}
    (run : Run (ueHandler P env i) ok (ueInitial env rows i) (h₁ ++ h₂) c)
    (present : rows[i]?.isSome = true) (all : unshownHandovers env h₁ = [])
    (own : read.filter (fun row => row.ueId = i) = ueRows env i h₁) :
    (shownHandovers env (h₁ ++ h₂)).filter (fun e =>
      decide (∃ row ∈ read, row.ueId = i ∧ e.1 ≤ row.simTime)) = shownHandovers env h₁ := by
  have mem_iff : ∀ row, row ∈ read ∧ row.ueId = i ↔ ∃ g ∈ ticks h₁, rowAfter env i g = some row := by
    intro row
    have listed : row ∈ read.filter (fun row => row.ueId = i) ↔ row ∈ ueRows env i h₁ := by rw [own]
    simpa [ueRows, List.mem_filterMap] using listed
  have time : ∀ {g row}, rowAfter env i g = some row → row.simTime = fireTime g := by
    intro g row written
    obtain ⟨ue, -, rfl⟩ := Option.map_eq_some_iff.mp written
    rfl
  rw [shownHandovers_append all, List.filter_append]
  have kept : (shownHandovers env h₁).filter (fun e =>
      decide (∃ row ∈ read, row.ueId = i ∧ e.1 ≤ row.simTime)) = shownHandovers env h₁ := by
    refine List.filter_eq_self.mpr fun e member => decide_eq_true ?_
    obtain ⟨g, ticking, at_g⟩ := exists_of_mem_shownHandovers member
    have written : (rowAfter env i g).isSome = true := by
      rw [rowAfter_isSome run (by rw [ticks_append]; exact List.mem_append_left _ ticking), present]
    obtain ⟨row, written⟩ := Option.isSome_iff_exists.mp written
    obtain ⟨listed, named⟩ := (mem_iff row).mpr ⟨g, ticking, written⟩
    exact ⟨row, listed, named, by rw [at_g, time written]⟩
  have dropped : (shownHandovers env h₂).filter (fun e =>
      decide (∃ row ∈ read, row.ueId = i ∧ e.1 ≤ row.simTime)) = [] := by
    refine List.filter_eq_nil_iff.mpr fun e member => ?_
    rw [decide_eq_true_eq]
    rintro ⟨row, listed, named, le⟩
    obtain ⟨g, ticking, at_g⟩ := exists_of_mem_shownHandovers member
    obtain ⟨g', earlier, written⟩ := (mem_iff row).mp ⟨listed, named⟩
    obtain ⟨h₃, h₄, rfl⟩ := List.append_of_mem (mem_ticks.mp earlier).1
    rw [List.append_assoc, List.cons_append] at run
    have later := tick_lt_of_split run (mem_ticks.mp earlier).2
      (by rw [ticks_append]; exact List.mem_append_right _ ticking)
    rw [at_g, time written] at le
    unfold fireTime at le
    linarith
  rw [kept, dropped, List.append_nil]

/-- The rows of a UE in a prefix are printed with whole seconds, in their order. -/
theorem increasing_ueRows {i : ℕ} {ok : Policy ℤ Event} {h₁ : List (Firing ℤ (Option UeInfo) Event)}
    {c₁ : Conf ℤ (Option UeInfo) Event} (run : Run (ueHandler tdCho env i) ok (ueInitial env rows i) h₁ c₁) :
    (ueRows env i h₁).Pairwise fun a b => a.simTime ≤ b.simTime := by
  obtain ⟨m, times⟩ := times_ueRows run
  have sorted : ((ueRows env i h₁).map SnapshotRow.simTime).Pairwise (· ≤ ·) := by
    rw [times, List.pairwise_map]
    exact List.pairwise_le_range.imp fun le => Nat.cast_le.mpr le
  exact List.pairwise_map.mp sorted

/-- Every row of a prefix is the row of a UE. -/
theorem ue_of_mem_take (run : AnyOrderRun tdCho env rows h c) {k : ℕ} {row : SnapshotRow}
    (member : row ∈ (snapshots env h).take k) : rows[row.ueId]?.isSome = true := by
  obtain ⟨h₁, h₂, c₁, -, ueRun, own, -⟩ := exists_history_of_take run row.ueId k
  by_contra absent
  rw [Option.not_isSome_iff_eq_none] at absent
  rw [ueRows_eq_nil ueRun absent, List.filter_eq_nil_iff] at own
  exact own row member (decide_eq_true rfl)

/-- The time that the player reads is that of the row, a whole second. -/
theorem frame_time_of_take (run : AnyOrderRun tdCho env rows h c) {k : ℕ} {row : SnapshotRow}
    (member : row ∈ (snapshots env h).take k) : row.frame.time = row.simTime := by
  obtain ⟨n, second⟩ := (times_of_take run k).1 row member
  exact (congrArg (decimals 3) second).trans ((decimals_natCast 3 n).trans second.symm)

theorem increasing_of_take (run : AnyOrderRun tdCho env rows h c) (i k : ℕ) :
    (((snapshots env h).take k).filter fun row => row.ueId = i).Pairwise fun a b =>
      a.frame.time ≤ b.frame.time := by
  obtain ⟨h₁, h₂, c₁, -, ueRun, own, -⟩ := exists_history_of_take run i k
  refine List.Pairwise.imp_of_mem (fun {a b} first second le => ?_) (own ▸ increasing_ueRows ueRun)
  rw [frame_time_of_take run (List.mem_filter.mp first).1,
    frame_time_of_take run (List.mem_filter.mp second).1]
  exact le

/-- The handovers derived from the rows of a UE are those of its history up to the last row. -/
theorem events_of_take (names : env.link.CsvNames) (run : AnyOrderRun tdCho env rows h c) (i k : ℕ) :
    (derivation (((snapshots env h).take k).filter fun row => row.ueId = i)).events.map
        Player.HandoverEvent.shown =
      (shownHandovers env (ueHistory tdCho env i h)).filter fun e =>
        decide (∃ row ∈ (snapshots env h).take k, row.ueId = i ∧ e.1 ≤ row.simTime) := by
  obtain ⟨h₁, h₂, c₁, split, ueRun, own, all⟩ := exists_history_of_take run i k
  rw [own]
  cases present : rows[i]? with
  | none =>
      have nobody : ∀ row ∈ (snapshots env h).take k, row.ueId ≠ i := by
        rintro row member rfl
        have there := ue_of_mem_take run member
        rw [present] at there
        cases there
      rw [ueRows_eq_nil ueRun present]
      refine (List.filter_eq_nil_iff.mpr fun e _ => ?_).symm
      rw [decide_eq_true_eq]
      rintro ⟨row, member, named, -⟩
      exact nobody row member named
  | some row =>
      have there : rows[i]?.isSome = true := by rw [present]; rfl
      have followed : Followed env i h₁ _ :=
        followed_of_run TdCho.lawful rfl names.named ueRun
          (Option.some_get ((ueRun_isSome ueRun).trans there)).symm
      rw [split, followed.events]
      have whole := run.toUe i
      rw [show (ueComponent tdCho env i).history h = _ from split] at whole
      exact (shownHandovers_upTo whole there all own).symm

/-- **The dashboard shows exactly the handovers that happened.** -/
theorem dashboard_shows (names : env.link.CsvNames) (run : AnyOrderRun tdCho env rows h c)
    (group : ℕ → UeGroup) (preserve : Bool) (preferred : Player.PreferredTime) (page : Player.Page)
    (k : ℕ) :
    let read := (snapshots env h).take (k - 1)
    let shown := Player.ingestData (positionsCsv group (initial env rows).state.ues)
      (snapshotPrefix (snapshots env h) k) preserve preferred page
    (read = [] → shown = page) ∧ (read ≠ [] → Shows env h read shown) := by
  intro read shown
  have parsed : parseCsv (snapshotPrefix (snapshots env h) k) = read.map SnapshotRow.csvRow :=
    parseCsv_snapshotPrefix (fun row => plain_of_mem_snapshots TdCho.lawful names.plain run) k
  constructor
  · intro empty
    have none : parseCsv (snapshotPrefix (snapshots env h) k) = [] := by rw [parsed, empty, List.map_nil]
    simp only [shown, Player.ingestData, none, or_true, if_true]
  intro some_row
  obtain ⟨whole, down⟩ := times_of_take run (k - 1)
  have ues : (initial env rows).state.ues ≠ [] := by
    obtain ⟨row, member⟩ := List.exists_mem_of_ne_nil read some_row
    have there := ue_of_mem_take run member
    rintro none
    rw [List.mapIdx_eq_nil_iff.mp none] at there
    cases there
  obtain ⟨frames, events, times⟩ := ingestData_of_parsed (parseCsv_positionsCsv group ues) parsed some_row
    preserve preferred page
  have timesOf : ∀ t, t ∈ read.map (fun row => row.frame.time) ↔ ∃ row ∈ read, row.simTime = t := by
    intro t
    rw [List.map_congr_left fun row member => frame_time_of_take run member, List.mem_map]
  obtain ⟨m, seconds⟩ := @sortBy_seconds (read.map fun row => row.frame.time)
    (fun t member => by
      obtain ⟨row, listed, rfl⟩ := (timesOf t).mp member
      exact whole row listed)
    (fun m n member le => by
      obtain ⟨row, listed, at_n⟩ := (timesOf n).mp member
      exact (timesOf m).mpr (down row listed m n at_n le))
  have member_iff : ∀ t, t ∈ shown.times ↔ ∃ row ∈ read, row.simTime = t := by
    intro t
    rw [times, mem_sortBy, List.mem_eraseDups]
    exact timesOf t
  refine ⟨⟨?_, member_iff⟩, fun i => ?_, fun i index => ?_⟩
  · rw [times, seconds, List.pairwise_map]
    exact List.pairwise_lt_range.imp fun lt => Nat.cast_lt.mpr lt
  · rw [eventsOf_of_frames events (increasing_of_take run i (k - 1))]
    exact events_of_take names run i (k - 1)
  · obtain ⟨h₁, h₂, c₁, -, ueRun, own, -⟩ := exists_history_of_take run i (k - 1)
    obtain ⟨bound, ownTimes⟩ := times_ueRows ueRun
    have within : bound ≤ m := by
      by_contra beyond
      have last : (m : ℚ) ∈ (ueRows env i h₁).map SnapshotRow.simTime := by
        rw [ownTimes]
        exact List.mem_map_of_mem (List.mem_range.mpr (not_le.mp beyond))
      obtain ⟨row, listed, at_m⟩ := List.mem_map.mp last
      rw [← own] at listed
      have second := (member_iff m).mpr ⟨row, (List.mem_filter.mp listed).1, at_m⟩
      rw [times, seconds] at second
      simp at second
    unfold Player.frameForSelectedUe
    rw [frames, Option.bind_some, lookup_framesByUe (increasing_of_take run i (k - 1)), own, List.getElem?_map,
      getElem?_eq_find? own ownTimes within, times, seconds, Option.map_bind]
    rfl

end Read

/-- In `crossing` the player shows the handover from `S` to `N`. -/
theorem dashboard_shows_crossing :
    let h := (sampleRun tdCho crossing sampleRows 12).1
    let page := Player.ingestData
      (positionsCsv (fun _ => ⟨"Users", 0, 1⟩) (initial crossing sampleRows).state.ues)
      (snapshotPrefix (snapshots crossing h) 7) true .latest {}
    Shows crossing h ((snapshots crossing h).take 6) page ∧
      (Player.eventsOf page 0).map Player.HandoverEvent.shown = [(5, "S", "N")] := by
  intro h page
  have names : crossing.link.CsvNames := ⟨by decide +kernel, by decide +kernel⟩
  have shows : Shows crossing h ((snapshots crossing h).take 6) page :=
    (dashboard_shows names (simRun_sampleRun tdCho crossing sampleRows 12).anyOrder
      (fun _ => ⟨"Users", 0, 1⟩) true .latest {} 7).2 (by decide +kernel)
  refine ⟨shows, (shows.events 0).trans ?_⟩
  decide +kernel

/-- In `nameless` the player does not show a handover to the satellite with the empty name. -/
theorem dashboard_shows_nameless :
    ¬ ∀ {env : Env} {rows : List UeRow} {h : List (Firing ℤ Sim Event)} {c : Conf ℤ Sim Event},
      SimRun tdCho env rows h c → ∀ (group : ℕ → UeGroup) (preserve : Bool)
        (preferred : Player.PreferredTime) (page : Player.Page) (k : ℕ),
        let read := (snapshots env h).take (k - 1)
        let shown := Player.ingestData (positionsCsv group (initial env rows).state.ues)
          (snapshotPrefix (snapshots env h) k) preserve preferred page
        read ≠ [] → Shows env h read shown := by
  intro always
  have run := simRun_sampleRun tdCho nameless sampleRows 12
  have plain : ∀ name ∈ nameless.link.satellites.keys, PlainField name.toList := by
    decide +kernel
  have some_row : (snapshots nameless (sampleRun tdCho nameless sampleRows 12).1).take 6 ≠ [] := by
    decide +kernel
  have shows := always run (fun _ => ⟨"Users", 0, 1⟩) true .latest {} 7 some_row
  have ues : parseCsv (positionsCsv (fun _ => ⟨"Users", 0, 1⟩)
      (initial nameless sampleRows).state.ues) ≠ [] :=
    parseCsv_positionsCsv _ (by simp [initial, sampleRows])
  have events := (ingestData_of_parsed ues
    (parseCsv_snapshotPrefix (fun row => plain_of_mem_snapshots TdCho.lawful plain run.anyOrder) 7)
    some_row true .latest {}).2.1
  have increasing : (((snapshots nameless (sampleRun tdCho nameless sampleRows 12).1).take 6).filter
      fun row => row.ueId = 0).Pairwise fun a b => a.frame.time ≤ b.frame.time := by decide +kernel
  have told := (congrArg (List.map Player.HandoverEvent.shown) (eventsOf_of_frames events increasing)).symm.trans
    (shows.events 0)
  revert told
  decide +kernel

end NtnCho
