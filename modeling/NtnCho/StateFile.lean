import Mathlib.Algebra.BigOperators.Group.List.Lemmas
import Mathlib.Tactic.FieldSimp
import NtnCho.Frames.Decimal
import NtnCho.Frames.Groups
import NtnCho.Frames.Sorting
import NtnCho.Text.Literal

/-!
# The state file of the emulator

`generate_ntn_state.py` averages the log of a satellite over consecutive windows: `read_rows` parses and
sorts the rows, `smooth_rows` groups them by the index of their window. `smoothed_states` says which states
come out: one for each window that has rows, whatever the order of the rows in the file.

A `float` is a rational. A row of `csv.DictReader` is the list of its cells under their columns; a cell that
is missing is not in the list.
-/

namespace NtnCho

open Frames Text

namespace StateFile

abbrev Record := List (String × String)

structure Row where
  time : ℚ
  pdr : ℚ
  delayUeRan : ℚ
  delayRan5g : ℚ

structure State where
  time : ℚ
  satellite : String
  delayUeRan : ℚ
  delayRan5g : ℚ
  pdr : ℚ

/-! ## Reading -/

/-- `sorted(REQUIRED_COLUMNS)`. -/
def requiredColumns : List String := ["pdr", "sat_cn_delay_ms", "time_s", "ue_sat_delay_ms"]

/-- `parse_float`. -/
def parseFloat (row : Record) (name : String) (rowNumber : ℕ) : Except String ℚ :=
  match (row.lookup name).bind fun text => floatOf (strip text.toList) with
  | some (.finite x) => .ok x
  | some _ => .error ("row " ++ toString rowNumber ++ ": '" ++ name ++ "' must be finite")
  | none => .error ("row " ++ toString rowNumber ++ ": invalid '" ++ name ++ "' value")

/-- The body of the loop of `read_rows`. -/
def readRow (rowNumber : ℕ) (row : Record) : Except String Row := do
  let time ← parseFloat row "time_s" rowNumber
  let pdr ← parseFloat row "pdr" rowNumber
  let delayUeRan ← parseFloat row "ue_sat_delay_ms" rowNumber
  let delayRan5g ← parseFloat row "sat_cn_delay_ms" rowNumber
  pure ⟨time, pdr, delayUeRan, delayRan5g⟩

/-- `read_rows` of a file with the given columns and rows. -/
def readRows (inputPath : String) (columns : List String) (records : List Record) :
    Except String (List Row) := do
  let missing := requiredColumns.filter fun column => !columns.contains column
  if missing.isEmpty then
    let rows ← (records.zipIdx 2).mapM fun record => readRow record.2 record.1
    if rows.isEmpty then throw (inputPath ++ ": no data rows")
    else pure (sortBy Row.time rows)
  else throw (inputPath ++ ": missing required column(s): " ++ ", ".intercalate missing)

/-! ## Smoothing -/

def mean (values : List ℚ) : ℚ := values.sum / values.length

/-- The healthy state at the beginning. -/
def healthy (startTime : ℚ) (satellite : String) : State := ⟨startTime, satellite, 0, 0, 1⟩

/-- The state for the rows of the window with the given index. -/
def smoothed (startTime windowSeconds : ℚ) (satellite : String) (index : ℤ) (window : List Row) :
    State where
  time := startTime + (index + 2) * windowSeconds
  satellite := satellite
  delayUeRan := decimals 4 (mean (window.map Row.delayUeRan))
  delayRan5g := decimals 4 (mean (window.map Row.delayRan5g))
  pdr := decimals 6 (min 1 (max 0 (mean (window.map Row.pdr) / 100)))

/-- `smooth_rows`. -/
def smoothRows (rows : List Row) (satellite : String) (windowSeconds : ℚ) :
    Except String (List State) :=
  if windowSeconds ≤ 0 then .error "window size must be greater than zero"
  else
    match rows with
    -- `rows[0]` of an empty list
    | [] => .error "list index out of range"
    | first :: _ =>
        let startTime := first.time
        let windows := groupBy (fun row => ⌊(row.time - startTime) / windowSeconds⌋) id rows
        let states := (sortBy id (windows.map Prod.fst)).map fun index =>
          smoothed startTime windowSeconds satellite index ((windows.lookup index).getD [])
        .ok (healthy startTime satellite :: states)

/-- The states that `main` writes. -/
def generate (inputPath : String) (columns : List String) (records : List Record)
    (satellite : String) (windowSeconds : ℚ) : Except String (List State) := do
  let rows ← readRows inputPath columns records
  smoothRows rows satellite windowSeconds

/-! ## The rows of a file -/

/-- The number of a cell. -/
def number (record : Record) (name : String) : Option ℚ :=
  (record.lookup name).bind fun text => pyFloat text.toList

/-- The row that a record logs, if its four cells are finite numbers. -/
def loggedRow (record : Record) : Option Row := do
  let time ← number record "time_s"
  let pdr ← number record "pdr"
  let delayUeRan ← number record "ue_sat_delay_ms"
  let delayRan5g ← number record "sat_cn_delay_ms"
  pure { time, pdr, delayUeRan, delayRan5g }

theorem parseFloat_of_number {record : Record} {name : String} {x : ℚ} (read : number record name = some x)
    (rowNumber : ℕ) : parseFloat record name rowNumber = .ok x := by
  obtain ⟨text, cell, read⟩ := Option.bind_eq_some_iff.mp read
  unfold pyFloat at read
  rw [parseFloat, cell, Option.bind_some]
  split at read
  · rename_i value
    rw [value, Option.some.inj read]
  · cases read

/-- A row that is logged is read, under every number. -/
theorem readRow_of_loggedRow {record : Record} {row : Row} (logged : loggedRow record = some row)
    (rowNumber : ℕ) : readRow rowNumber record = .ok row := by
  obtain ⟨time, first, logged⟩ := Option.bind_eq_some_iff.mp logged
  obtain ⟨pdr, second, logged⟩ := Option.bind_eq_some_iff.mp logged
  obtain ⟨delayUeRan, third, logged⟩ := Option.bind_eq_some_iff.mp logged
  obtain ⟨delayRan5g, fourth, logged⟩ := Option.bind_eq_some_iff.mp logged
  rw [readRow, parseFloat_of_number first, parseFloat_of_number second, parseFloat_of_number third,
    parseFloat_of_number fourth]
  exact congrArg Except.ok (Option.some.inj logged)

theorem mapM_readRow {records : List Record} (n : ℕ)
    (valid : ∀ record ∈ records, (loggedRow record).isSome = true) :
    ((records.zipIdx n).mapM fun record => readRow record.2 record.1) =
      .ok (records.filterMap loggedRow) := by
  induction records generalizing n with
  | nil => rfl
  | cons record records ih =>
      obtain ⟨row, logged⟩ := Option.isSome_iff_exists.mp (valid record List.mem_cons_self)
      have rest := ih (n + 1) fun record member => valid record (List.mem_cons_of_mem _ member)
      rw [List.zipIdx_cons, List.mapM_cons, readRow_of_loggedRow logged, rest,
        List.filterMap_cons_some logged]
      rfl

/-- A file with the columns and only rows of numbers is read, sorted by time. -/
theorem readRows_of_valid {inputPath : String} {columns : List String}
    {records : List Record} (headed : ∀ column ∈ requiredColumns, column ∈ columns)
    (some_row : records ≠ [])
    (valid : ∀ record ∈ records, (loggedRow record).isSome = true) :
    readRows inputPath columns records = .ok (sortBy Row.time (records.filterMap loggedRow)) := by
  have none_missing : (requiredColumns.filter fun column => !columns.contains column) = [] := by
    apply List.filter_eq_nil_iff.mpr
    intro column required
    simpa using headed column required
  have not_empty : (records.filterMap loggedRow).isEmpty = false := by
    obtain ⟨record, rest, rfl⟩ := List.exists_cons_of_ne_nil some_row
    obtain ⟨row, logged⟩ := Option.isSome_iff_exists.mp (valid record List.mem_cons_self)
    rw [List.filterMap_cons_some logged]
    rfl
  unfold readRows
  simp only [none_missing, List.isEmpty_nil, if_true, mapM_readRow 2 valid, bind, Except.bind,
    not_empty, Bool.false_eq_true, if_false]
  rfl

/-! ## The windows -/

/-- The row lies in the window with index `k`. -/
def InWindow (start width : ℚ) (k : ℤ) (row : Row) : Prop :=
  start + k * width ≤ row.time ∧ row.time < start + (k + 1) * width

instance (start width : ℚ) (k : ℤ) (row : Row) : Decidable (InWindow start width k row) :=
  inferInstanceAs (Decidable (_ ∧ _))

theorem inWindow_iff {start width : ℚ} (pos : 0 < width) {k : ℤ} {row : Row} :
    InWindow start width k row ↔ ⌊(row.time - start) / width⌋ = k := by
  rw [Int.floor_eq_iff, le_div_iff₀ pos, div_lt_iff₀ pos, InWindow]
  constructor
  · rintro ⟨lower, upper⟩
    constructor <;> linarith
  · rintro ⟨lower, upper⟩
    constructor <;> linarith

theorem mean_mem {values : List ℚ} {lo hi : ℚ} (some_value : values ≠ [])
    (bounds : ∀ x ∈ values, lo ≤ x ∧ x ≤ hi) : lo ≤ mean values ∧ mean values ≤ hi := by
  have positive : (0 : ℚ) < values.length := by exact_mod_cast List.length_pos_iff.mpr some_value
  have lower := List.card_nsmul_le_sum values lo fun x member => (bounds x member).1
  have upper := List.sum_le_card_nsmul values hi fun x member => (bounds x member).2
  rw [nsmul_eq_mul, mul_comm] at lower upper
  exact ⟨(le_div_iff₀ positive).mpr lower, (div_le_iff₀ positive).mpr upper⟩

/-- The state of the window with index `k` and the rows `window`: one period behind the end of the window,
with the means of the rows. -/
structure WindowState (start width : ℚ) (satellite : String) (window : List Row) (k : ℤ) (state : State) :
    Prop where
  time : state.time = start + (k + 2) * width
  satellite : state.satellite = satellite
  delayUeRan : state.delayUeRan = decimals 4 ((window.map Row.delayUeRan).sum / window.length)
  delayRan5g : state.delayRan5g = decimals 4 ((window.map Row.delayRan5g).sum / window.length)
  pdr : state.pdr = decimals 6 (min 1 (max 0 ((window.map Row.pdr).sum / window.length / 100)))

/-- The fields make the state. -/
theorem WindowState.eq {start width : ℚ} {satellite : String} {window window' : List Row} {k : ℤ}
    {state state' : State} (made : WindowState start width satellite window k state)
    (made' : WindowState start width satellite window' k state') (same : window.Perm window') :
    state = state' := by
  rcases state with ⟨time, name, delayUeRan, delayRan5g, pdr⟩
  rcases state' with ⟨time', name', delayUeRan', delayRan5g', pdr'⟩
  obtain ⟨rfl, rfl, rfl, rfl, rfl⟩ := made
  obtain ⟨rfl, rfl, rfl, rfl, rfl⟩ := made'
  rw [(same.map Row.delayUeRan).sum_eq, (same.map Row.delayRan5g).sum_eq, (same.map Row.pdr).sum_eq,
    same.length_eq]

/-- The state of the code does not depend on the order of the rows. -/
theorem windowState_smoothed (start width : ℚ) (satellite : String) {window window' : List Row}
    (same : window.Perm window') (k : ℤ) :
    WindowState start width satellite window' k (smoothed start width satellite k window) := by
  have means : ∀ column : Row → ℚ, mean (window.map column) = (window'.map column).sum / window'.length := by
    intro column
    rw [mean, List.length_map, (same.map column).sum_eq, same.length_eq]
  exact
    { time := rfl
      satellite := rfl
      delayUeRan := congrArg (decimals 4) (means Row.delayUeRan)
      delayRan5g := congrArg (decimals 4) (means Row.delayRan5g)
      pdr := congrArg (fun x => decimals 6 (min 1 (max 0 (x / 100)))) (means Row.pdr) }

/-- The states of the rows `logged` with the earliest time `start`: a healthy one at this time, and one for
each window with rows, over these rows. -/
structure Smoothed (start width : ℚ) (satellite : String) (logged : List Row) (states : List State) :
    Prop where
  earliest : start ∈ logged.map Row.time
  least : ∀ row ∈ logged, start ≤ row.time
  windows : ∃ (ks : List ℤ) (smooth : List State),
    states = { time := start, satellite, delayUeRan := 0, delayRan5g := 0, pdr := 1 } :: smooth ∧
    ks.Pairwise (· < ·) ∧ (∀ k, k ∈ ks ↔ ∃ row ∈ logged, InWindow start width k row) ∧
    List.Forall₂ (fun k state =>
      WindowState start width satellite (logged.filter fun row => InWindow start width k row) k state) ks smooth

theorem smoothRows_sortBy {logged : List Row} {satellite : String} {width : ℚ} (pos : 0 < width)
    (some_row : logged ≠ []) :
    ∃ start states, smoothRows (sortBy Row.time logged) satellite width = .ok states ∧
      Smoothed start width satellite logged states := by
  have same : (sortBy Row.time logged).Perm logged := List.mergeSort_perm _ _
  have sorted := pairwise_sortBy Row.time logged
  cases rows : sortBy Row.time logged with
  | nil =>
      rw [rows] at same
      exact absurd (List.nil_perm.mp same) some_row
  | cons first rest =>
      rw [rows] at same sorted
      have least : ∀ row ∈ logged, first.time ≤ row.time := by
        intro row member
        rcases List.mem_cons.mp (same.mem_iff.mpr member) with rfl | later
        · exact le_rfl
        · exact List.rel_of_pairwise_cons sorted later
      let name : Row → ℤ := fun row => ⌊(row.time - first.time) / width⌋
      let windows := groupBy name id (first :: rest)
      have keys := nodup_keys_groupBy name id (first :: rest)
      have indices : ∀ k, k ∈ sortBy id (windows.map Prod.fst) ↔
          ∃ row ∈ logged, InWindow first.time width k row := by
        intro k
        rw [mem_sortBy, mem_keys_groupBy, List.mem_map]
        constructor
        · rintro ⟨row, member, index⟩
          exact ⟨row, same.mem_iff.mp member, (inWindow_iff pos).mpr index⟩
        · rintro ⟨row, member, inside⟩
          exact ⟨row, same.mem_iff.mpr member, (inWindow_iff pos).mp inside⟩
      have distinct : (sortBy id (windows.map Prod.fst)).Nodup :=
        (List.mergeSort_perm _ _).nodup_iff.mpr keys
      have increasing : (sortBy id (windows.map Prod.fst)).Pairwise (· < ·) :=
        ((pairwise_sortBy id (windows.map Prod.fst)).and distinct).imp fun ⟨le, ne⟩ => lt_of_le_of_ne le ne
      refine ⟨first.time, _, (if_neg (not_le.mpr pos)).trans rfl,
        List.mem_map_of_mem (same.mem_iff.mp List.mem_cons_self), least,
        sortBy id (windows.map Prod.fst), _, rfl, increasing, indices, ?_⟩
      refine List.forall₂_map_right_iff.mpr (List.forall₂_same.mpr fun k _ => ?_)
      refine windowState_smoothed first.time width satellite ?_ k
      have window := lookup_foldl_push name id (first :: rest) [] k
      change ((windows.lookup k).getD []) = _ at window
      rw [window]
      simp only [List.lookup_nil, Option.getD_none, List.nil_append, List.map_id]
      have chosen : (logged.filter fun row => decide (InWindow first.time width k row)) =
          logged.filter fun row => name row = k := by
        refine List.filter_congr fun row _ => ?_
        simp only [inWindow_iff pos, name]
      rw [chosen]
      exact same.filter _

/-- The times of the states are those of their windows. -/
theorem map_time_windowStates {start width : ℚ} {satellite : String} {window : ℤ → List Row} {ks : List ℤ}
    {smooth : List State}
    (made : List.Forall₂ (fun k state => WindowState start width satellite (window k) k state) ks smooth) :
    smooth.map State.time = ks.map fun k : ℤ => start + ((k : ℚ) + 2) * width := by
  induction made with
  | nil => rfl
  | cons state _ ih => rw [List.map_cons, List.map_cons, state.time, ih]

theorem Smoothed.times_increasing {start width : ℚ} {satellite : String} {logged : List Row}
    {states : List State} (pos : 0 < width) (result : Smoothed start width satellite logged states) :
    (states.map State.time).Pairwise (· < ·) := by
  obtain ⟨ks, smooth, rfl, increasing, indices, made⟩ := result.windows
  rw [List.map_cons, map_time_windowStates made]
  refine List.pairwise_cons.mpr ⟨fun t member => ?_, ?_⟩
  · obtain ⟨k, inKs, rfl⟩ := List.mem_map.mp member
    obtain ⟨row, logs, -, upper⟩ := (indices k).mp inKs
    -- a window with rows does not lie before the start
    have after : (0 : ℚ) < k + 1 := by
      have lower := result.least row logs
      by_contra negative
      have : ((k : ℚ) + 1) * width ≤ 0 := mul_nonpos_of_nonpos_of_nonneg (not_lt.mp negative) pos.le
      linarith
    have later : 0 < ((k : ℚ) + 2) * width := mul_pos (by linarith) pos
    linarith
  · refine List.pairwise_map.mpr (increasing.imp fun {k k'} less => ?_)
    have cast : (k : ℚ) < k' := by exact_mod_cast less
    have scaled : (k : ℚ) * width < k' * width := mul_lt_mul_of_pos_right cast pos
    linarith

/-- States of the same windows are the same. -/
theorem windowStates_unique {start width : ℚ} {satellite : String} {window window' : ℤ → List Row}
    {ks : List ℤ} {smooth smooth' : List State} (same : ∀ k, (window k).Perm (window' k))
    (made : List.Forall₂ (fun k state => WindowState start width satellite (window k) k state) ks smooth)
    (made' : List.Forall₂ (fun k state => WindowState start width satellite (window' k) k state) ks smooth') :
    smooth = smooth' := by
  induction made generalizing smooth' with
  | nil =>
      cases made'
      rfl
  | cons state _ ih =>
      cases made' with
      | cons state' rest' => rw [state.eq state' (same _), ih rest']

/-- The result is the same for another order of the rows. -/
theorem Smoothed.unique {start start' width : ℚ} {satellite : String} {logged logged' : List Row}
    {states states' : List State} (same : logged.Perm logged')
    (result : Smoothed start width satellite logged states)
    (result' : Smoothed start' width satellite logged' states') : states = states' := by
  obtain ⟨first, inLogged, time⟩ := List.mem_map.mp result.earliest
  obtain ⟨first', inLogged', time'⟩ := List.mem_map.mp result'.earliest
  obtain rfl : start = start' := by
    apply le_antisymm
    · rw [← time']
      exact result.least first' (same.mem_iff.mpr inLogged')
    · rw [← time]
      exact result'.least first (same.mem_iff.mp inLogged)
  obtain ⟨ks, smooth, rfl, increasing, indices, made⟩ := result.windows
  obtain ⟨ks', smooth', rfl, increasing', indices', made'⟩ := result'.windows
  have windows : ks = ks' := by
    apply List.Perm.eq_of_pairwise (fun _ _ _ _ less less' => absurd less (not_lt.mpr less'.le))
      increasing increasing'
    refine (List.perm_ext_iff_of_nodup (increasing.imp fun less => less.ne)
      (increasing'.imp fun less => less.ne)).mpr fun k => ?_
    rw [indices, indices']
    exact exists_congr fun row => and_congr_left fun _ => same.mem_iff
  subst windows
  rw [windowStates_unique (fun k => same.filter _) made made']

/-- **The states of a log.** From a file of rows in any order come the healthy state at the earliest time
and one state for each window with rows, in increasing order of their times; every row lies in exactly one
window, and the order of the rows in the file does not matter. -/
theorem smoothed_states {inputPath : String} {columns : List String}
    {records : List Record} {width : ℚ} (headed : ∀ column ∈ requiredColumns, column ∈ columns)
    (some_row : records ≠ []) (valid : ∀ record ∈ records, (loggedRow record).isSome = true)
    (pos : 0 < width) (satellite : String) :
    ∃ start states, generate inputPath columns records satellite width = .ok states ∧
      Smoothed start width satellite (records.filterMap loggedRow) states ∧
      (∀ row ∈ records.filterMap loggedRow, ∃! k, InWindow start width k row) ∧
      (states.map State.time).Pairwise (· < ·) ∧
      ∀ records', records.Perm records' →
        generate inputPath columns records' satellite width = .ok states := by
  have generated : ∀ {records : List Record}, records ≠ [] →
      (∀ record ∈ records, (loggedRow record).isSome = true) →
      ∃ start states, generate inputPath columns records satellite width = .ok states ∧
        Smoothed start width satellite (records.filterMap loggedRow) states := by
    intro records some_row valid
    have not_empty : records.filterMap loggedRow ≠ [] := by
      obtain ⟨record, rest, rfl⟩ := List.exists_cons_of_ne_nil some_row
      obtain ⟨row, logged⟩ := Option.isSome_iff_exists.mp (valid record List.mem_cons_self)
      rw [List.filterMap_cons_some logged]
      exact List.cons_ne_nil _ _
    obtain ⟨start, states, smooth, result⟩ := smoothRows_sortBy pos not_empty
    refine ⟨start, states, ?_, result⟩
    rw [generate, readRows_of_valid headed some_row valid]
    exact smooth
  obtain ⟨start, states, smooth, result⟩ := generated some_row valid
  refine ⟨start, states, smooth, result, ?_, result.times_increasing pos, ?_⟩
  · intro row _
    refine ⟨_, (inWindow_iff pos).mpr rfl, fun k inside => ((inWindow_iff pos).mp inside).symm⟩
  · intro records' same
    have some_row' : records' ≠ [] := fun none => some_row (List.perm_nil.mp (none ▸ same))
    obtain ⟨start', states', smooth', result'⟩ := generated some_row'
      fun record member => valid record (same.mem_iff.mpr member)
    rw [smooth', result.unique (same.filterMap _) result']

def sampleRecord (time : String) : Record :=
  [("time_s", time), ("pdr", "12"), ("ue_sat_delay_ms", "12"), ("sat_cn_delay_ms", "0")]

/-- Two rows in different windows, the later one first. -/
theorem smoothed_states_unsorted :
    ∃ start states,
      generate "log.csv" requiredColumns [sampleRecord "12", sampleRecord "0"] "S" 10 = .ok states ∧
      Smoothed start 10 "S" ([sampleRecord "12", sampleRecord "0"].filterMap loggedRow) states := by
  obtain ⟨start, states, smooth, result, -⟩ := @smoothed_states "log.csv"
    requiredColumns [sampleRecord "12", sampleRecord "0"] 10 (fun _ member => member) (by simp)
    (by decide +kernel) (by norm_num) "S"
  exact ⟨start, states, smooth, result⟩

end StateFile

end NtnCho
