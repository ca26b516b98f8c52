import NtnCho.Channel
import NtnCho.Text.Lines
import Mathlib.Data.List.Pairwise

/-!
# Finding the satellites

`DiscoverSatellites` of the TD-CHO simulator reads the names of the satellites that rise high enough in the
simulated time. It takes the time of the first row as the start, where `startTime < 0` says that there is none
yet, so on a well-formed sorted file it finds what it should unless the file starts before 1970
(`discoverSatellites_iff`).

A `double` is a rational. `std::map` is a tree map, whose keys are in order.
-/

namespace NtnCho

open Text

/-- The functions of the C library on texts: `strptime` with the format of the files followed by `timegm`,
which yield a time for every text, and `std::stod`, where `none` is an exception. -/
structure CsvLib where
  timegm : String → ℤ
  stod : String → Option ℚ

/-! ## `DiscoverSatellites` -/

/-- `SatelliteInfo`. -/
structure SatelliteInfo where
  name : String
  peakElevation : ℚ
  firstAppearanceTime : ℚ
  lastSeenTime : ℚ
  minDistance : ℚ
  visibilityCount : ℕ

/-- The variables of the loop of `DiscoverSatellites`; `ended` is set by its `break`. -/
structure Discovery where
  startTime : ℚ := -1
  satelliteMap : StdMap SatelliteInfo := ∅
  ended : Bool := false

def SatelliteInfo.seen (relativeTime elevation distance : ℚ) (info : SatelliteInfo) : SatelliteInfo where
  name := info.name
  peakElevation := if info.peakElevation < elevation then elevation else info.peakElevation
  firstAppearanceTime := info.firstAppearanceTime
  lastSeenTime := relativeTime
  minDistance := if distance < info.minDistance then distance else info.minDistance
  visibilityCount := info.visibilityCount + 1

/-- A row of a satellite in the map. -/
def Discovery.count (satName : String) (relativeTime elevation distance : ℚ) (d : Discovery) : Discovery :=
  let info : SatelliteInfo :=
    match d.satelliteMap[satName]? with
    | none => ⟨satName, elevation, relativeTime, relativeTime, distance, 1⟩
    | some info => info.seen relativeTime elevation distance
  { d with satelliteMap := d.satelliteMap.insert satName info }

/-- The body of the loop of `DiscoverSatellites`. -/
def discoverLine (clib : CsvLib) (simTime : ℚ) (d : Discovery) (line : String) : Discovery :=
  if d.ended then d
  else
    match getlines ',' line with
    | timestamp :: satName :: elevation :: distance :: _ :: _ =>
        let absTime : ℚ := clib.timegm timestamp
        let startTime := if d.startTime < 0 then absTime else d.startTime
        let d : Discovery := { d with startTime := startTime }
        let relativeTime := absTime - startTime
        if simTime < relativeTime then { d with ended := true }
        else
          match clib.stod elevation, clib.stod distance with
          | some elevation, some distance => d.count satName relativeTime elevation distance
          -- an exception of `std::stod`, after the start is set
          | _, _ => d
    | _ => d

/-- `DiscoverSatellites` of a file with the given content, `none` when it cannot be opened. -/
def discoverSatellites (clib : CsvLib) (file : Option String) (minElevation simTime : ℚ) : List String :=
  match file with
  | none => []
  | some content =>
      let d := (getlines '\n' content).tail.foldl (discoverLine clib simTime) {}
      let candidates := (d.satelliteMap.toList.map Prod.snd).filter fun info =>
        decide (minElevation ≤ info.peakElevation)
      candidates.map SatelliteInfo.name

/-! ## The start -/

/-- The start for a row at time `t` after rows at the times `earlier`: the first time that is not negative, or
its own if there is none. -/
def startFor (earlier : List ℚ) (t : ℚ) : ℚ := ((earlier ++ [t]).find? fun time => decide (0 ≤ time)).getD t

/-- `startTime` after rows at the given times. -/
def startAfter (times : List ℚ) : ℚ :=
  times.foldl (fun startTime t => if startTime < 0 then t else startTime) (-1)

theorem startAfter_snoc (times : List ℚ) (t : ℚ) :
    startAfter (times ++ [t]) = if startAfter times < 0 then t else startAfter times := by
  rw [startAfter, List.foldl_append]
  rfl

/-- The loops have the start of the last row. -/
theorem startAfter_eq (times : List ℚ) :
    (startAfter times < 0 → ∀ t ∈ times, t < 0) ∧
      (0 ≤ startAfter times → times.find? (fun time => decide (0 ≤ time)) = some (startAfter times)) := by
  induction times using List.reverseRecOn with
  | nil => exact ⟨by simp, fun started => absurd started (by norm_num [startAfter])⟩
  | append_singleton times t ih =>
      rw [startAfter_snoc]
      split
      · rename_i floating
        have negative := ih.1 floating
        refine ⟨fun below => ?_, fun started => ?_⟩
        · intro time member
          rcases List.mem_append.mp member with earlier | last
          · exact negative time earlier
          · exact List.mem_singleton.mp last ▸ below
        · rw [List.find?_append, List.find?_eq_none.mpr fun time member => by simpa using negative time member]
          simp [started]
      · rename_i fixed
        have started := not_lt.mp fixed
        refine ⟨fun below => absurd below fixed, fun _ => ?_⟩
        rw [List.find?_append, ih.2 started, Option.some_or]

theorem startAfter_snoc_eq (times : List ℚ) (t : ℚ) : startAfter (times ++ [t]) = startFor times t := by
  obtain ⟨floating, fixed⟩ := startAfter_eq (times ++ [t])
  unfold startFor
  rcases lt_or_ge (startAfter (times ++ [t])) 0 with below | started
  · have negative := floating below
    rw [List.find?_eq_none.mpr fun time member => by simpa using negative time member, Option.getD_none]
    rw [startAfter_snoc]
    split
    · rfl
    · rename_i started
      rw [startAfter_snoc, if_neg started] at below
      exact absurd below started
  · rw [fixed started, Option.getD_some]

/-! ## What discovery counts -/

variable {clib : CsvLib} {libm : Libm} {simTime minElevation : ℚ}

/-- The time of a row with at least `count` fields. -/
def rowTime (clib : CsvLib) (count : ℕ) (line : String) : Option ℚ :=
  match getlines ',' line with
  | [] => none
  | timestamp :: rest => if count ≤ rest.length + 1 then some (clib.timegm timestamp) else none

def rowTimes (clib : CsvLib) (count : ℕ) (lines : List String) : List ℚ :=
  lines.filterMap (rowTime clib count)

/-- What discovery reads of a row. -/
structure DiscoveryRow where
  time : ℚ
  satName : String
  elevation : ℚ
  distance : ℚ
  deriving DecidableEq

/-- A row with five fields and readable numbers. -/
def discoveryRow (clib : CsvLib) (line : String) : Option DiscoveryRow :=
  match getlines ',' line with
  | timestamp :: satName :: elevation :: distance :: _ :: _ => do
      let elevation ← clib.stod elevation
      let distance ← clib.stod distance
      pure ⟨clib.timegm timestamp, satName, elevation, distance⟩
  | _ => none

theorem rowTime_discoveryRow {line : String} {row : DiscoveryRow}
    (read : discoveryRow clib line = some row) : rowTime clib 5 line = some row.time := by
  unfold discoveryRow at read
  unfold rowTime
  split at read
  · rename_i timestamp satName elevation distance fifth rest fields
    rw [fields]
    simp only [Option.bind_eq_bind, Option.bind_eq_some_iff, Option.pure_def, Option.some.injEq] at read
    obtain ⟨_, -, _, -, rfl⟩ := read
    simp
  · cases read

/-- The body of the loop by what it reads. -/
theorem discoverLine_eq (d : Discovery) (line : String) :
    discoverLine clib simTime d line =
      if d.ended then d
      else
        match rowTime clib 5 line with
        | none => d
        | some t =>
            let startTime := if d.startTime < 0 then t else d.startTime
            let d : Discovery := { d with startTime := startTime }
            if simTime < t - startTime then { d with ended := true }
            else
              match discoveryRow clib line with
              | none => d
              | some row => d.count row.satName (t - startTime) row.elevation row.distance := by
  unfold discoverLine rowTime discoveryRow
  generalize getlines ',' line = fields
  split
  · rfl
  · rcases fields with _ | ⟨timestamp, _ | ⟨satName, _ | ⟨elevation, _ | ⟨distance, _ | ⟨fifth, rest⟩⟩⟩⟩⟩
    · rfl
    · rfl
    · rfl
    · rfl
    · rfl
    · have five : 5 ≤ rest.length + 1 + 1 + 1 + 1 + 1 := by omega
      simp only [List.length_cons, if_pos five]
      cases clib.stod elevation with
      | none => rfl
      | some elevation =>
          cases clib.stod distance <;> rfl

/-- Every row with five fields is at most `simTime` after its start, so discovery does not stop. -/
def Within (clib : CsvLib) (simTime : ℚ) (lines : List String) : Prop :=
  ∀ earlier t later, rowTimes clib 5 lines = earlier ++ t :: later → t - startFor earlier t ≤ simTime

/-- Discovery after some lines. -/
def discovery (clib : CsvLib) (simTime : ℚ) (lines : List String) : Discovery :=
  lines.foldl (discoverLine clib simTime) {}

theorem discovery_snoc (lines : List String) (line : String) :
    discovery clib simTime (lines ++ [line]) =
      discoverLine clib simTime (discovery clib simTime lines) line := List.foldl_append

/-- Where a list with one more element is split: at the new element or before it. -/
theorem snoc_eq_append_cons {α : Type} {l before after : List α} {last a : α}
    (split : l ++ [last] = before ++ a :: after) :
    (before = l ∧ a = last) ∨ ∃ after', l = before ++ a :: after' := by
  rcases List.eq_nil_or_concat after with rfl | ⟨after, final, rfl⟩
  · obtain ⟨rfl, same⟩ := List.append_inj' split rfl
    exact .inl ⟨rfl, (List.cons.inj same).1.symm⟩
  · rw [List.concat_eq_append, ← List.cons_append, ← List.append_assoc] at split
    exact .inr ⟨after, List.append_inj_left' split rfl⟩

theorem rowTimes_snoc (count : ℕ) (lines : List String) (line : String) :
    rowTimes clib count (lines ++ [line]) = rowTimes clib count lines ++ (rowTime clib count line).toList := by
  rw [rowTimes, List.filterMap_append]
  cases row : rowTime clib count line <;> simp [row, rowTimes]

theorem within_snoc (lines : List String) (line : String) :
    Within clib simTime (lines ++ [line]) ↔
      Within clib simTime lines ∧
        ∀ t, rowTime clib 5 line = some t → t - startFor (rowTimes clib 5 lines) t ≤ simTime := by
  unfold Within
  rw [rowTimes_snoc]
  cases row : rowTime clib 5 line with
  | none => simp
  | some t =>
      rw [Option.toList_some]
      constructor
      · intro within
        refine ⟨fun earlier time later split => ?_, fun time same => ?_⟩
        · exact within earlier time (later ++ [t]) (by rw [split]; simp)
        · obtain rfl := Option.some.inj same
          exact within _ _ [] rfl
      · rintro ⟨within, last⟩ earlier time later split
        rcases snoc_eq_append_cons split with ⟨rfl, rfl⟩ | ⟨later', split'⟩
        · exact last time rfl
        · exact within earlier time later' split'

/-- The row is counted when discovery gets to it and can read it. -/
theorem discoverLine_running {d : Discovery} {line : String} {t : ℚ} (running : d.ended = false)
    (row : rowTime clib 5 line = some t) :
    (discoverLine clib simTime d line).startTime = (if d.startTime < 0 then t else d.startTime) ∧
      ((discoverLine clib simTime d line).ended = true ↔
        simTime < t - if d.startTime < 0 then t else d.startTime) := by
  rw [discoverLine_eq, running, row]
  dsimp only
  rw [if_neg Bool.false_ne_true]
  generalize (if d.startTime < 0 then t else d.startTime) = startTime
  split
  · rename_i beyond
    exact ⟨rfl, iff_of_true rfl beyond⟩
  · rename_i inside
    cases discoveryRow clib line with
    | none => exact ⟨rfl, iff_of_false (by simp) inside⟩
    | some row => exact ⟨rfl, iff_of_false (by simp [Discovery.count]) inside⟩

/-- The variables of the loop besides the map. -/
theorem discovery_spec (lines : List String) :
    ((discovery clib simTime lines).ended = false ↔ Within clib simTime lines) ∧
      ((discovery clib simTime lines).ended = false →
        (discovery clib simTime lines).startTime = startAfter (rowTimes clib 5 lines)) := by
  induction lines using List.reverseRecOn with
  | nil =>
      refine ⟨iff_of_true rfl ?_, fun _ => rfl⟩
      intro earlier t later split
      simp [rowTimes] at split
  | append_singleton lines line ih =>
      rw [discovery_snoc, within_snoc]
      cases ended : (discovery clib simTime lines).ended with
      | true =>
          have stays : (discoverLine clib simTime (discovery clib simTime lines) line).ended = true := by
            rw [discoverLine, if_pos ended, ended]
          have beyond : ¬ Within clib simTime lines := fun within =>
            Bool.false_ne_true ((ih.1.mpr within).symm.trans ended)
          rw [stays]
          exact ⟨iff_of_false (by simp) fun within => beyond within.1, by simp⟩
      | false =>
          have start := ih.2 ended
          have within := ih.1.mp ended
          rw [rowTimes_snoc]
          cases row : rowTime clib 5 line with
          | none =>
              have same : discoverLine clib simTime (discovery clib simTime lines) line =
                  discovery clib simTime lines := by
                rw [discoverLine_eq, ended, row]
                simp
              rw [same, ended, start]
              exact ⟨iff_of_true rfl ⟨within, by simp⟩, by simp⟩
          | some t =>
              obtain ⟨next, stops⟩ := @discoverLine_running clib simTime _ _ _ ended row
              rw [start, ← startAfter_snoc, startAfter_snoc_eq] at next stops
              rw [next, Option.toList_some, startAfter_snoc_eq]
              refine ⟨?_, fun _ => rfl⟩
              rw [← Bool.not_eq_true, stops, not_lt]
              exact ⟨fun inside => ⟨within, fun _ same => Option.some.inj same ▸ inside⟩,
                fun both => both.2 t rfl⟩

/-- Discovery counts the row `line` that comes after the lines `before`. -/
structure Counted (clib : CsvLib) (simTime : ℚ) (lines before : List String) (line : String)
    (row : DiscoveryRow) : Prop where
  split : ∃ after, lines = before ++ line :: after
  within : Within clib simTime (before ++ [line])
  read : discoveryRow clib line = some row

theorem countedRow_snoc (lines before : List String) (line last : String) (row : DiscoveryRow) :
    Counted clib simTime (lines ++ [last]) before line row ↔
      Counted clib simTime lines before line row ∨
        (before = lines ∧ line = last ∧ Within clib simTime (lines ++ [last]) ∧
          discoveryRow clib last = some row) := by
  constructor
  · rintro ⟨⟨after, split⟩, within, read⟩
    rcases snoc_eq_append_cons split with ⟨rfl, rfl⟩ | earlier
    · exact .inr ⟨rfl, rfl, within, read⟩
    · exact .inl ⟨earlier, within, read⟩
  · rintro (⟨⟨after, rfl⟩, within, read⟩ | ⟨rfl, rfl, within, read⟩)
    · exact ⟨⟨after ++ [last], by simp⟩, within, read⟩
    · exact ⟨⟨[], rfl⟩, within, read⟩

/-- What the map says: its names are its keys, and the peaks are those of the rows counted. -/
structure Peaks (clib : CsvLib) (simTime : ℚ) (lines : List String) (infos : StdMap SatelliteInfo) :
    Prop where
  name : ∀ (satName : String) (info : SatelliteInfo), infos[satName]? = some info → info.name = satName
  peak : ∀ (satName : String) (minElevation : ℚ),
    (∃ info : SatelliteInfo, infos[satName]? = some info ∧ minElevation ≤ info.peakElevation) ↔
      ∃ before line row, Counted clib simTime lines before line row ∧ row.satName = satName ∧
        minElevation ≤ row.elevation

theorem name_count {d : Discovery} {counted : String} {relativeTime elevation distance : ℚ}
    (names : ∀ (satName : String) (info : SatelliteInfo),
      d.satelliteMap[satName]? = some info → info.name = satName)
    {satName : String} {info : SatelliteInfo}
    (present : (d.count counted relativeTime elevation distance).satelliteMap[satName]? = some info) :
    info.name = satName := by
  rw [Discovery.count, Std.TreeMap.getElem?_insert] at present
  split at present
  · rename_i same
    obtain rfl := Option.some.inj present
    obtain rfl := Std.LawfulEqOrd.eq_of_compare same
    cases old : d.satelliteMap[counted]? with
    | none => rfl
    | some info => exact names counted info old
  · exact names satName info present

theorem peak_count (d : Discovery) (counted satName : String)
    (relativeTime elevation distance minElevation : ℚ) :
    (∃ info : SatelliteInfo,
      (d.count counted relativeTime elevation distance).satelliteMap[satName]? = some info ∧
        minElevation ≤ info.peakElevation) ↔
      (∃ info : SatelliteInfo, d.satelliteMap[satName]? = some info ∧ minElevation ≤ info.peakElevation) ∨
        (counted = satName ∧ minElevation ≤ elevation) := by
  rw [Discovery.count, Std.TreeMap.getElem?_insert]
  by_cases same : counted = satName
  case neg =>
    rw [if_neg fun equal => same (Std.LawfulEqOrd.eq_of_compare equal)]
    simp [same]
  case pos =>
    subst same
    rw [if_pos Std.ReflOrd.compare_self]
    cases old : d.satelliteMap[counted]? with
    | none => simp
    | some info =>
        simp only [Option.some.injEq, exists_eq_left', SatelliteInfo.seen, true_and]
        split
        · exact ⟨.inr, fun either => either.elim (fun le => le.trans (by linarith)) id⟩
        · exact ⟨.inl, fun either => either.elim id fun le => le.trans (by linarith)⟩

/-- What a line does to the map. -/
theorem discovery_map (lines : List String) (line : String) :
    (∃ row, Within clib simTime (lines ++ [line]) ∧ discoveryRow clib line = some row ∧
      (discovery clib simTime (lines ++ [line])).satelliteMap =
        ((discovery clib simTime lines).count row.satName
          (row.time - startFor (rowTimes clib 5 lines) row.time) row.elevation
          row.distance).satelliteMap) ∨
    (¬ (Within clib simTime (lines ++ [line]) ∧ ∃ row, discoveryRow clib line = some row) ∧
      (discovery clib simTime (lines ++ [line])).satelliteMap =
        (discovery clib simTime lines).satelliteMap) := by
  have reached := (@discovery_spec clib simTime (lines ++ [line])).1
  rw [← reached, discovery_snoc]
  cases ended : (discovery clib simTime lines).ended with
  | true =>
      have stays : discoverLine clib simTime (discovery clib simTime lines) line =
          discovery clib simTime lines := by
        rw [discoverLine, if_pos ended]
      rw [stays, ended]
      exact .inr ⟨by simp, rfl⟩
  | false =>
      cases time : rowTime clib 5 line with
      | none =>
          have same : discoverLine clib simTime (discovery clib simTime lines) line =
              discovery clib simTime lines := by
            rw [discoverLine_eq, ended, time]
            simp
          rw [same]
          refine .inr ⟨?_, rfl⟩
          rintro ⟨-, row, read⟩
          rw [rowTime_discoveryRow read] at time
          cases time
      | some t =>
          have start := (@discovery_spec clib simTime lines).2 ended
          rw [discoverLine_eq, ended, time]
          dsimp only
          rw [if_neg Bool.false_ne_true, start, ← startAfter_snoc, startAfter_snoc_eq]
          split
          · exact .inr ⟨by simp, rfl⟩
          · cases read : discoveryRow clib line with
            | none => exact .inr ⟨by simp, rfl⟩
            | some row =>
                rw [rowTime_discoveryRow read] at time
                obtain rfl := Option.some.inj time
                exact .inl ⟨row, by simp [Discovery.count], rfl, rfl⟩

/-- The map of discovery. -/
theorem peaks_discovery (lines : List String) :
    Peaks clib simTime lines (discovery clib simTime lines).satelliteMap := by
  induction lines using List.reverseRecOn with
  | nil =>
      refine ⟨fun satName info present => ?_, fun satName minElevation => iff_of_false ?_ ?_⟩
      · simp [discovery] at present
      · simp [discovery]
      · rintro ⟨before, line, row, ⟨⟨after, split⟩, -, -⟩, -⟩
        simp at split
  | append_singleton lines line ih =>
      rcases @discovery_map clib simTime lines line with
        ⟨row, within, read, grown⟩ | ⟨uncounted, same⟩
      · rw [grown]
        refine ⟨fun satName info present => name_count ih.name present, fun satName minElevation => ?_⟩
        rw [peak_count, ih.peak]
        constructor
        · rintro (⟨before, own, row', counted, name, high⟩ | ⟨name, high⟩)
          · exact ⟨before, own, row', (countedRow_snoc ..).mpr (.inl counted), name, high⟩
          · exact ⟨lines, line, row, (countedRow_snoc ..).mpr (.inr ⟨rfl, rfl, within, read⟩), name, high⟩
        · rintro ⟨before, own, row', counted, name, high⟩
          rcases (countedRow_snoc ..).mp counted with earlier | ⟨-, -, -, read'⟩
          · exact .inl ⟨before, own, row', earlier, name, high⟩
          · obtain rfl := Option.some.inj (read.symm.trans read')
            exact .inr ⟨name, high⟩
      · rw [same]
        refine ⟨ih.name, fun satName minElevation => ?_⟩
        rw [ih.peak]
        constructor
        · rintro ⟨before, own, row', counted, name, high⟩
          exact ⟨before, own, row', (countedRow_snoc ..).mpr (.inl counted), name, high⟩
        · rintro ⟨before, own, row', counted, name, high⟩
          rcases (countedRow_snoc ..).mp counted with earlier | ⟨-, -, within, read⟩
          · exact ⟨before, own, row', earlier, name, high⟩
          · exact absurd ⟨within, row', read⟩ uncounted

/-- The rows of a file, without its header. -/
def fileRows (content : String) : List String := (getlines '\n' content).tail

theorem discoverSatellites_eq (content : String) :
    discoverSatellites clib (some content) minElevation simTime =
      (((discovery clib simTime (fileRows content)).satelliteMap.toList.filter fun entry =>
        decide (minElevation ≤ entry.2.peakElevation)).map Prod.fst) := by
  have names := (@peaks_discovery clib simTime (fileRows content)).name
  unfold discoverSatellites
  dsimp only
  rw [List.filter_map, List.map_map]
  refine List.map_congr_left fun entry member => ?_
  have present := Std.TreeMap.mem_toList_iff_getElem?_eq_some.mp (List.mem_of_mem_filter member)
  exact names entry.1 entry.2 present

/-- The names are in order, none twice. -/
theorem discoverSatellites_increasing (content : String) :
    (discoverSatellites clib (some content) minElevation simTime).Pairwise (· < ·) := by
  rw [discoverSatellites_eq]
  refine List.Pairwise.map _ (fun a b less => ?_) (Std.TreeMap.ordered_keys_toList.filter _)
  exact compareOfLessAndEq_eq_lt.mp less

/-- A satellite is found exactly when a row counted is high enough. -/
theorem mem_discoverSatellites (content satName : String) :
    satName ∈ discoverSatellites clib (some content) minElevation simTime ↔
      ∃ before line row, Counted clib simTime (fileRows content) before line row ∧ row.satName = satName ∧
        minElevation ≤ row.elevation := by
  rw [discoverSatellites_eq, ← (peaks_discovery (fileRows content)).peak]
  constructor
  · intro member
    obtain ⟨entry, listed, rfl⟩ := List.mem_map.mp member
    obtain ⟨listed, high⟩ := List.mem_filter.mp listed
    exact ⟨entry.2, Std.TreeMap.mem_toList_iff_getElem?_eq_some.mp listed, of_decide_eq_true high⟩
  · rintro ⟨info, present, high⟩
    exact List.mem_map.mpr ⟨(satName, info), List.mem_filter.mpr
      ⟨Std.TreeMap.mem_toList_iff_getElem?_eq_some.mpr present, decide_eq_true high⟩, rfl⟩

/-! ## Well-formed sorted files -/

theorem startFor_of_nonneg {times earlier later : List ℚ} {t : ℚ} (split : times = earlier ++ t :: later)
    (started : 0 ≤ t) : times.find? (fun time => decide (0 ≤ time)) = some (startFor earlier t) := by
  have last : ∃ start, (earlier ++ [t]).find? (fun time => decide (0 ≤ time)) = some start :=
    Option.isSome_iff_exists.mp (List.find?_isSome.mpr ⟨t, by simp, by simpa using started⟩)
  obtain ⟨start, found⟩ := last
  rw [split, List.append_cons, List.find?_append, startFor, found]
  rfl

theorem startFor_of_neg {earlier : List ℚ} {t : ℚ} (negative : ∀ e ∈ earlier, e < 0) (below : t < 0) :
    startFor earlier t = t := by
  have none : (earlier ++ [t]).find? (fun time => decide (0 ≤ time)) = none := by
    refine List.find?_eq_none.mpr fun time member => ?_
    rcases List.mem_append.mp member with before | last
    · simpa using negative time before
    · rw [List.mem_singleton.mp last]
      simpa using below
  rw [startFor, none, Option.getD_none]

/-- The rows that discovery can read. -/
def readRows (clib : CsvLib) (content : String) : List DiscoveryRow :=
  (fileRows content).filterMap (discoveryRow clib)

/-- The row is at most `simTime` after the first row. -/
def InWindow (simTime : ℚ) (rows : List DiscoveryRow) (row : DiscoveryRow) : Prop :=
  ∀ first, rows.head? = some first → row.time - first.time ≤ simTime

/-- The row is before 1970, or at most `simTime` after the first row that is not. -/
def InSeenWindow (simTime : ℚ) (rows : List DiscoveryRow) (row : DiscoveryRow) : Prop :=
  row.time < 0 ∨ ∀ start, rows.find? (fun row => decide (0 ≤ row.time)) = some start →
    row.time - start.time ≤ simTime

/-- Every row can be read, and their times do not decrease. -/
structure WellFormedFile (clib : CsvLib) (content : String) : Prop where
  read : ∀ line ∈ fileRows content, ∃ row, discoveryRow clib line = some row
  sorted : (readRows clib content).Pairwise fun a b => a.time ≤ b.time

section WellFormed

variable {content : String}

theorem rowTimes_eq {lines : List String} (read : ∀ line ∈ lines, ∃ row, discoveryRow clib line = some row) :
    rowTimes clib 5 lines = (lines.filterMap (discoveryRow clib)).map DiscoveryRow.time := by
  rw [rowTimes, List.map_filterMap]
  refine List.filterMap_congr fun line member => ?_
  obtain ⟨row, same⟩ := read line member
  rw [rowTime_discoveryRow same, same, Option.map_some]

theorem WellFormedFile.times (file : WellFormedFile clib content) :
    rowTimes clib 5 (fileRows content) = (readRows clib content).map DiscoveryRow.time :=
  rowTimes_eq file.read

/-- The rows counted are those in the window that discovery sees. -/
theorem counted_iff (file : WellFormedFile clib content) (nonneg : 0 ≤ simTime) (row : DiscoveryRow) :
    (∃ before line, Counted clib simTime (fileRows content) before line row) ↔
      row ∈ readRows clib content ∧ InSeenWindow simTime (readRows clib content) row := by
  have times := file.times
  have sorted : (rowTimes clib 5 (fileRows content)).Pairwise (· ≤ ·) := by
    rw [times]
    exact List.pairwise_map.mpr file.sorted
  have first : (rowTimes clib 5 (fileRows content)).find? (fun time => decide (0 ≤ time)) =
      ((readRows clib content).find? fun row => decide (0 ≤ row.time)).map DiscoveryRow.time := by
    rw [times, List.find?_map]
    rfl
  have whole : ∀ before line after, fileRows content = before ++ line :: after →
      rowTimes clib 5 (fileRows content) = rowTimes clib 5 (before ++ [line]) ++ rowTimes clib 5 after := by
    intro before line after split
    rw [split, List.append_cons, rowTimes, rowTimes, rowTimes, List.filterMap_append]
  constructor
  · rintro ⟨before, line, ⟨⟨after, split⟩, within, read⟩⟩
    refine ⟨List.mem_filterMap.mpr ⟨line, by rw [split]; simp, read⟩, ?_⟩
    rcases lt_or_ge row.time 0 with below | started
    · exact .inl below
    · refine .inr fun start found => ?_
      have last := @rowTimes_snoc clib 5 before line
      rw [rowTime_discoveryRow read, Option.toList_some] at last
      have inside := within _ row.time [] last
      have parts : rowTimes clib 5 (fileRows content) =
          rowTimes clib 5 before ++ row.time :: rowTimes clib 5 after := by
        rw [whole before line after split, last, List.append_assoc]
        rfl
      have found' := startFor_of_nonneg parts started
      rw [first, found, Option.map_some] at found'
      rw [Option.some.inj found']
      exact inside
  · rintro ⟨member, seen⟩
    obtain ⟨line, listed, read⟩ := List.mem_filterMap.mp member
    obtain ⟨before, after, split⟩ := List.append_of_mem listed
    refine ⟨before, line, ⟨after, split⟩, ?_, read⟩
    intro earlier t later prefixed
    have last := @rowTimes_snoc clib 5 before line
    rw [rowTime_discoveryRow read, Option.toList_some] at last
    have all := whole before line after split
    rw [all] at sorted
    obtain ⟨sorted, -, -⟩ := List.pairwise_append.mp sorted
    have atMost : t ≤ row.time := by
      have member : t ∈ rowTimes clib 5 before ++ [row.time] := by
        rw [← last, prefixed]
        simp
      rw [last] at sorted
      rcases List.mem_append.mp member with earlier | same
      · exact (List.pairwise_append.mp sorted).2.2 t earlier row.time (List.mem_singleton.mpr rfl)
      · exact (List.mem_singleton.mp same).le
    rcases lt_or_ge t 0 with below | started
    · have negative : ∀ e ∈ earlier, e < 0 := by
        rw [prefixed] at sorted
        intro e inEarlier
        exact ((List.pairwise_append.mp sorted).2.2 e inEarlier t List.mem_cons_self).trans_lt below
      rw [startFor_of_neg negative below, sub_self]
      exact nonneg
    · have parts : rowTimes clib 5 (fileRows content) =
          earlier ++ t :: (later ++ rowTimes clib 5 after) := by
        rw [all, prefixed, List.append_assoc]
        rfl
      have found := startFor_of_nonneg parts started
      rw [first] at found
      obtain ⟨start, found, same⟩ := Option.map_eq_some_iff.mp found
      rw [← same]
      rcases seen with below | inside
      · exact absurd (started.trans atMost) (not_le.mpr below)
      · linarith [inside start found]

/-- What discovery should find: in name order and without repetition, the satellites with a row in the window
that is high enough. -/
structure Finds (clib : CsvLib) (content : String) (minElevation simTime : ℚ) (result : List String) :
    Prop where
  increasing : result.Pairwise (· < ·)
  mem : ∀ satName, satName ∈ result ↔
    ∃ row ∈ readRows clib content, row.satName = satName ∧ InWindow simTime (readRows clib content) row ∧
      minElevation ≤ row.elevation

/-- The file starts in 1970 or later; or else every satellite with a row high enough before 1970, or at most
`simTime` after the first row that is not, has one at most `simTime` after the first row. -/
def StartsOrRepeats (clib : CsvLib) (content : String) (minElevation simTime : ℚ) : Prop :=
  (∀ first, (readRows clib content).head? = some first → 0 ≤ first.time) ∨
    ∀ row ∈ readRows clib content, InSeenWindow simTime (readRows clib content) row →
      minElevation ≤ row.elevation →
      ∃ row' ∈ readRows clib content, row'.satName = row.satName ∧
        InWindow simTime (readRows clib content) row' ∧ minElevation ≤ row'.elevation

theorem WellFormedFile.first_le (file : WellFormedFile clib content) {first row : DiscoveryRow}
    {rest : List DiscoveryRow} (rows : readRows clib content = first :: rest) (member : row ∈ first :: rest) :
    first.time ≤ row.time := by
  have sorted := file.sorted
  rw [rows] at sorted
  rcases List.mem_cons.mp member with rfl | later
  · exact le_rfl
  · exact (List.pairwise_cons.mp sorted).1 row later

/-- A row in the window is seen. -/
theorem InWindow.seen (file : WellFormedFile clib content) {row : DiscoveryRow}
    (window : InWindow simTime (readRows clib content) row) :
    InSeenWindow simTime (readRows clib content) row := by
  refine .inr fun start found => ?_
  cases rows : readRows clib content with
  | nil =>
      rw [rows] at found
      cases found
  | cons first rest =>
      rw [rows] at window found
      have earliest : first.time ≤ start.time := file.first_le rows (List.mem_of_find?_eq_some found)
      linarith [window first rfl]

/-- In a file from 1970 on the two windows are one. -/
theorem inWindow_of_seen (file : WellFormedFile clib content)
    (starts : ∀ first, (readRows clib content).head? = some first → 0 ≤ first.time) {row : DiscoveryRow}
    (member : row ∈ readRows clib content) (seen : InSeenWindow simTime (readRows clib content) row) :
    InWindow simTime (readRows clib content) row := by
  intro first head
  cases rows : readRows clib content with
  | nil =>
      rw [rows] at head
      cases head
  | cons first' rest =>
      rw [rows] at head member seen
      obtain rfl := Option.some.inj head
      have started := starts first' (by rw [rows]; rfl)
      have earliest : first'.time ≤ row.time := file.first_le rows member
      rcases seen with below | inside
      · exact absurd (started.trans earliest) (not_le.mpr below)
      · exact inside first' (by rw [List.find?_cons_of_pos (by simpa using started)])

/-- **What discovery finds.** On well-formed files sorted by time, `DiscoverSatellites` returns the satellites
that it should exactly when the file starts in 1970 or later, or the rows that it sees too many make no
difference. -/
theorem discoverSatellites_iff (file : WellFormedFile clib content) (nonneg : 0 ≤ simTime)
    (minElevation : ℚ) :
    Finds clib content minElevation simTime (discoverSatellites clib (some content) minElevation simTime) ↔
      StartsOrRepeats clib content minElevation simTime := by
  have found : ∀ satName, satName ∈ discoverSatellites clib (some content) minElevation simTime ↔
      ∃ row ∈ readRows clib content, InSeenWindow simTime (readRows clib content) row ∧
        row.satName = satName ∧ minElevation ≤ row.elevation := by
    intro satName
    rw [mem_discoverSatellites]
    constructor
    · rintro ⟨before, line, row, counted, name, high⟩
      obtain ⟨member, seen⟩ := (counted_iff file nonneg row).mp ⟨before, line, counted⟩
      exact ⟨row, member, seen, name, high⟩
    · rintro ⟨row, member, seen, name, high⟩
      obtain ⟨before, line, counted⟩ := (counted_iff file nonneg row).mpr ⟨member, seen⟩
      exact ⟨before, line, row, counted, name, high⟩
  constructor
  · intro finds
    refine .inr fun row member seen high => ?_
    exact (finds.mem row.satName).mp ((found row.satName).mpr ⟨row, member, seen, rfl, high⟩)
  · intro startsOrRepeats
    refine ⟨discoverSatellites_increasing content, fun satName => ?_⟩
    rw [found]
    constructor
    · rintro ⟨row, member, seen, rfl, high⟩
      rcases startsOrRepeats with starts | repeats
      · exact ⟨row, member, rfl, inWindow_of_seen file starts member seen, high⟩
      · exact repeats row member seen high
    · rintro ⟨row, member, rfl, window, high⟩
      exact ⟨row, member, window.seen file, rfl, high⟩

end WellFormed

/-- A C library that reads a few texts. -/
def sampleCsvLib : CsvLib where
  timegm timestamp :=
    if timestamp = "1969-12-31 23:59:00" then -60
    else if timestamp = "1969-12-31 23:59:59" then -1
    else if timestamp = "1970-01-01 00:00:10" then 10
    else 0
  stod text := if text = "45" then some 45 else if text = "500" then some 500 else none

/-- Two rows a minute apart. -/
def minuteFile : String :=
  "time,satellite,elevation_deg,azimuth_deg,distance_km\n" ++ "1969-12-31 23:59:00,A,45,45,500\n" ++
    "1969-12-31 23:59:59,B,45,45,500\n"

theorem minuteFile_rows : readRows sampleCsvLib minuteFile = [⟨-60, "A", 45, 45⟩, ⟨-1, "B", 45, 45⟩] := by
  decide +kernel

theorem wellFormed_minuteFile : WellFormedFile sampleCsvLib minuteFile := by
  refine ⟨?_, by rw [minuteFile_rows]; simp⟩
  have read : ∀ line ∈ fileRows minuteFile, (discoveryRow sampleCsvLib line).isSome = true := by
    decide +kernel
  exact fun line member => Option.isSome_iff_exists.mp (read line member)

theorem discoverSatellites_iff_minute :
    Finds sampleCsvLib minuteFile 30 100
        (discoverSatellites sampleCsvLib (some minuteFile) 30 100) ↔
      StartsOrRepeats sampleCsvLib minuteFile 30 100 :=
  discoverSatellites_iff wellFormed_minuteFile (by norm_num) 30

/-- Before 1970 every row is the start of its own window. -/
theorem discoverSatellites_late :
    ¬ ∀ (clib : CsvLib) (content : String) (minElevation simTime : ℚ), WellFormedFile clib content →
      0 ≤ simTime →
      Finds clib content minElevation simTime
        (discoverSatellites clib (some content) minElevation simTime) := by
  intro always
  have finds := always sampleCsvLib minuteFile 30 10 wellFormed_minuteFile (by norm_num)
  have found : "B" ∈ discoverSatellites sampleCsvLib (some minuteFile) 30 10 := by decide +kernel
  obtain ⟨row, member, name, window, -⟩ := (finds.mem "B").mp found
  rw [minuteFile_rows] at member window
  have late := window ⟨-60, "A", 45, 45⟩ rfl
  simp only [List.mem_cons, List.not_mem_nil, or_false] at member
  rcases member with rfl | rfl
  · exact absurd name (by decide)
  · norm_num at late

end NtnCho
