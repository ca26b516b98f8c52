import NtnCho.Frames.AsOf
import NtnCho.Frames.Decimal
import NtnCho.Text.Csv
import NtnCho.Text.Literal

/-!
# Frames of pandas

The scripts call functions of pandas, which are not theirs: here they are a parameter. `Pandas` names
them, and `Pandas.Documented` says of them what their documentation does, as far as it is relied on. A frame
is the list of its rows, a column the function that reads a cell of a row, and a row of a merged frame the
pair of the rows that it was made of.

`plainPandas` is one such library (`plainPandas_documented`). Others may sort rows of one key in another
order, and round durations otherwise.
-/

namespace Frames

open Text

/-! ## Cells -/

/-- A cell of a frame; `missing` is `NaN` or `NaT`. -/
inductive Cell where
  | missing
  | number (x : ℚ)
  | text (s : String)
  | timedelta (ns : ℤ)
  deriving DecidableEq

/-- The value of a number. -/
def Cell.value : Cell → Option ℚ
  | .number x => some x
  | _ => none

/-- The texts that `read_csv` takes as missing. -/
def naValues : List (List Char) :=
  ["", "#N/A", "#N/A N/A", "#NA", "-1.#IND", "-1.#QNAN", "-NaN", "-nan", "1.#IND", "1.#QNAN", "<NA>",
    "N/A", "NA", "NULL", "NaN", "None", "n/a", "nan", "null"].map String.toList

/-- The texts that `read_csv` takes as truth values. -/
def truthValues : List (List Char) :=
  ["True", "TRUE", "true", "False", "FALSE", "false"].map String.toList

/-- A text that `read_csv` takes as itself: without quotes and separators, no missing value, no truth
value and no number. -/
structure WordText (text : List Char) : Prop where
  plain : PlainField text
  present : text ∉ naValues
  untrue : text ∉ truthValues
  wordy : floatOf (strip text) = none

instance (text : List Char) : Decidable (WordText text) :=
  decidable_of_iff (PlainField text ∧ text ∉ naValues ∧ text ∉ truthValues ∧ floatOf (strip text) = none)
    ⟨fun ⟨plain, present, untrue, wordy⟩ => ⟨plain, present, untrue, wordy⟩,
      fun word => ⟨word.plain, word.present, word.untrue, word.wordy⟩⟩

/-- What the text of a cell of a file reads as. -/
inductive Reads : List Char → Cell → Prop
  | integer {n : ℕ} (bounded : n < 2 ^ 63) : Reads (showNat n) (.number n)
  | decimal {precision : ℕ} (positive : 0 < precision) (x : ℚ) :
      Reads (showFixed precision x) (.number (decimals precision x))
  | word {text : List Char} (word : WordText text) : Reads text (.text (String.ofList text))
  | missing {text : List Char} (missing : text ∈ naValues) : Reads text .missing

def Cell.isNumeric : Cell → Prop
  | .missing | .number _ => True
  | _ => False

def Cell.isWord : Cell → Prop
  | .missing | .text _ => True
  | _ => False

/-- A file of rows under a header, with the cells that it reads as: each column holds numbers or words. -/
structure CsvTable (header : List (List Char)) (rows : List (List (List Char))) (cells : List (List Cell)) :
    Prop where
  columns : 1 < header.length
  named : ∀ name ∈ header, WordText name
  distinct : header.Nodup
  width : ∀ row ∈ rows, row.length = header.length
  plain : ∀ row ∈ rows, ∀ field ∈ row, PlainField field
  reads : List.Forall₂ (List.Forall₂ Reads) rows cells
  typed : ∀ k : ℕ, (∀ row ∈ cells, ∀ cell : Cell, row[k]? = some cell → cell.isNumeric) ∨
    ∀ row ∈ cells, ∀ cell : Cell, row[k]? = some cell → cell.isWord

/-- A frame of cells. -/
structure DataFrame where
  columns : List String
  rows : List (List Cell)

/-- A column of a frame. -/
def DataFrame.column (df : DataFrame) (name : String) (row : List Cell) : Cell :=
  ((df.columns.zip row).lookup name).getD .missing

/-! ## The library -/

/-- The functions of pandas. -/
structure Pandas where
  /-- `read_csv`, `none` if it raises. -/
  readCsv : List Char → Option DataFrame
  /-- `DataFrame` of dictionaries -/
  fromRecords : List (List (String × Cell)) → DataFrame
  /-- `to_numeric` with `errors="coerce"` -/
  toNumeric : Cell → Cell
  /-- `to_timedelta` with `unit="s"` -/
  toTimedelta : Cell → Cell
  /-- `astype(int)`, `none` if it raises. -/
  astypeInt : Cell → Option Cell
  sum : List Cell → Cell
  mean : List Cell → Cell
  /-- `frame.dropna(subset=columns)` -/
  dropna : {α : Type} → List (α → Cell) → List α → List α
  /-- `frame[column == value]` -/
  select : {α : Type} → (α → Cell) → Cell → List α → List α
  /-- `frame.groupby(column, sort=sort)` -/
  groupby : {α : Type} → Bool → (α → Cell) → List α → List (Cell × List α)
  /-- `frame.sort_values(column)` -/
  sortValues : {α : Type} → (α → Cell) → List α → List α
  /-- `merge_asof` with `direction="backward"` and a tolerance: the partner of each row of the left frame. -/
  mergeAsof : {α β : Type} → Option Cell → (α → Cell) → (β → Cell) → List α → List β → List (α × Option β)
  /-- `left.merge(right, how="inner")` on one column. -/
  merge : {α β : Type} → (α → Cell) → (β → Cell) → List α → List β → List (α × β)
  /-- `concat` with `ignore_index=True` -/
  concat : {α : Type} → List (List α) → List α

/-- What the documentation says. -/
structure Pandas.Documented (pd : Pandas) : Prop where
  read_csv : ∀ {header rows cells}, CsvTable header rows cells →
    pd.readCsv (unlines (csv header :: rows.map csv)) = some ⟨header.map String.ofList, cells⟩
  /-- Of dictionaries with the same keys. -/
  from_records : ∀ {columns records}, records ≠ [] → (∀ record ∈ records, record.map Prod.fst = columns) →
    pd.fromRecords records = ⟨columns, records.map (List.map Prod.snd)⟩
  to_numeric : ∀ x, pd.toNumeric (.number x) = .number x
  /-- Durations are counted in nanoseconds, with 64 bits; the seconds are a double. -/
  to_timedelta : ∀ x, |x| ≤ 9200000000 →
    ∃ ns : ℤ, pd.toTimedelta (.number x) = .timedelta ns ∧ |ns - x * 1000000000| < 500000
  /-- Of whole numbers. -/
  astype_int : ∀ n : ℕ, pd.astypeInt (.number n) = some (.number n)
  sum : ∀ numbers : List ℚ, pd.sum (numbers.map Cell.number) = .number numbers.sum
  dropna : ∀ {α : Type} (columns : List (α → Cell)) (rows : List α),
    pd.dropna columns rows = rows.filter fun a => columns.all fun column => decide (column a ≠ .missing)
  select : ∀ {α : Type} (column : α → Cell) {value : Cell} (rows : List α), value ≠ .missing →
    pd.select column value rows = rows.filter fun a => decide (column a = value)
  /-- Groups in the order in which they appear, each with its rows in their order. -/
  groupby : ∀ {α : Type} (column : α → Cell) {rows : List α}, (∀ a ∈ rows, column a ≠ .missing) →
    pd.groupby false column rows = (rows.map column).eraseDups.map fun value =>
      (value, rows.filter fun a => decide (column a = value))
  /-- The default algorithm is not stable. -/
  sort_values : ∀ {α : Type} {column : α → Cell} {ns : α → ℤ} {rows : List α},
    (∀ a ∈ rows, column a = .timedelta (ns a)) →
      (pd.sortValues column rows).Perm rows ∧ (pd.sortValues column rows).Pairwise fun a b => ns a ≤ ns b
  /-- For frames that are sorted: the last row of the right frame that is not later. -/
  merge_asof : ∀ {α β : Type} {leftOn : α → Cell} {rightOn : β → Cell} {leftNs : α → ℤ} {rightNs : β → ℤ}
    {left : List α} {right : List β}, (∀ a ∈ left, leftOn a = .timedelta (leftNs a)) →
      (∀ b ∈ right, rightOn b = .timedelta (rightNs b)) →
      (left.Pairwise fun a b => leftNs a ≤ leftNs b) → (right.Pairwise fun a b => rightNs a ≤ rightNs b) →
      pd.mergeAsof none leftOn rightOn left right = left.map fun a => (a, asOf rightNs right (leftNs a))
  concat : ∀ {α : Type} (frames : List (List α)), pd.concat frames = frames.flatten

/-! ## Durations -/

/-- A time in seconds that is printed to the millisecond and that a duration can hold. -/
structure Millisecond (x : ℚ) : Prop where
  whole : ∃ n : ℤ, x = n / 1000
  bounded : |x| ≤ 9200000000

/-- Milliseconds that differ do so by one at least. -/
theorem Millisecond.add_le {x y : ℚ} (first : Millisecond x) (second : Millisecond y) (lt : x < y) :
    x + 1 / 1000 ≤ y := by
  obtain ⟨m, rfl⟩ := first.whole
  obtain ⟨n, rfl⟩ := second.whole
  have le : m + 1 ≤ n := by
    have : (m : ℚ) < n := by linarith
    exact_mod_cast this
  have : (m : ℚ) + 1 ≤ n := by exact_mod_cast le
  linarith

namespace Pandas

/-- The nanoseconds of a duration. -/
def nanoseconds (pd : Pandas) (x : ℚ) : ℤ :=
  match pd.toTimedelta (.number x) with
  | .timedelta ns => ns
  | _ => 0

namespace Documented

variable {pd : Pandas} {α β : Type}

theorem toTimedelta_number (documented : pd.Documented) {x : ℚ} (time : Millisecond x) :
    pd.toTimedelta (.number x) = .timedelta (pd.nanoseconds x) := by
  obtain ⟨ns, made, -⟩ := documented.to_timedelta x time.bounded
  rw [nanoseconds, made]

/-- Durations are in the order of their times. -/
theorem nanoseconds_lt (documented : pd.Documented) {x y : ℚ} (first : Millisecond x)
    (second : Millisecond y) (lt : x < y) : pd.nanoseconds x < pd.nanoseconds y := by
  obtain ⟨ns, made, near⟩ := documented.to_timedelta x first.bounded
  obtain ⟨ns', made', near'⟩ := documented.to_timedelta y second.bounded
  rw [nanoseconds, nanoseconds, made, made']
  have apart := first.add_le second lt
  have below := (abs_lt.mp near).2
  have above := (abs_lt.mp near').1
  have : (ns : ℚ) < ns' := by linarith
  exact_mod_cast this

theorem nanoseconds_le_iff (documented : pd.Documented) {x y : ℚ} (first : Millisecond x)
    (second : Millisecond y) : pd.nanoseconds x ≤ pd.nanoseconds y ↔ x ≤ y := by
  constructor
  · intro le
    by_contra lt
    exact absurd le (not_le.mpr (documented.nanoseconds_lt second first (not_le.mp lt)))
  · intro le
    rcases le.lt_or_eq with lt | rfl
    · exact (documented.nanoseconds_lt first second lt).le
    · exact le_rfl

section Times

variable {seconds : α → Cell} {time : α → ℚ} {rows : List α}

/-- Rows that are sorted by their times, one at a time, stay as they stand. -/
theorem sortValues_toTimedelta (documented : pd.Documented)
    (timed : ∀ a ∈ rows, seconds a = .number (time a) ∧ Millisecond (time a))
    (sorted : rows.Pairwise fun a b => time a < time b) :
    pd.sortValues (fun a => pd.toTimedelta (seconds a)) rows = rows := by
  have keys : ∀ a ∈ rows, pd.toTimedelta (seconds a) = .timedelta (pd.nanoseconds (time a)) := by
    intro a member
    rw [(timed a member).1, documented.toTimedelta_number (timed a member).2]
  obtain ⟨same, increasing⟩ := documented.sort_values keys
  have strict : rows.Pairwise fun a b => pd.nanoseconds (time a) < pd.nanoseconds (time b) :=
    sorted.imp_of_mem fun first second lt =>
      documented.nanoseconds_lt (timed _ first).2 (timed _ second).2 lt
  have distinct : (rows.map fun a => pd.nanoseconds (time a)).Nodup :=
    List.pairwise_map.mpr (strict.imp fun lt => lt.ne)
  refine same.eq_of_pairwise (fun a b first second le le' => ?_) increasing (strict.imp le_of_lt)
  exact List.inj_on_of_nodup_map distinct (same.mem_iff.mp first) second (le_antisymm le le')

variable {seconds' : β → Cell} {time' : β → ℚ} {right : List β}

/-- Each row meets the last one that is not later, by the times. -/
theorem mergeAsof_toTimedelta (documented : pd.Documented)
    (timed : ∀ a ∈ rows, seconds a = .number (time a) ∧ Millisecond (time a))
    (timed' : ∀ b ∈ right, seconds' b = .number (time' b) ∧ Millisecond (time' b))
    (sorted : rows.Pairwise fun a b => time a < time b)
    (sorted' : right.Pairwise fun a b => time' a < time' b) :
    pd.mergeAsof none (fun a => pd.toTimedelta (seconds a)) (fun b => pd.toTimedelta (seconds' b)) rows right =
      rows.map fun a => (a, asOf time' right (time a)) := by
  have keys : ∀ a ∈ rows, pd.toTimedelta (seconds a) = .timedelta (pd.nanoseconds (time a)) := by
    intro a member
    rw [(timed a member).1, documented.toTimedelta_number (timed a member).2]
  have keys' : ∀ b ∈ right, pd.toTimedelta (seconds' b) = .timedelta (pd.nanoseconds (time' b)) := by
    intro b member
    rw [(timed' b member).1, documented.toTimedelta_number (timed' b member).2]
  rw [documented.merge_asof keys keys']
  · refine List.map_congr_left fun a member => ?_
    refine congrArg (fun rows : List β => (a, rows.getLast?)) (List.filter_congr fun b member' => ?_)
    rw [decide_eq_decide]
    exact documented.nanoseconds_le_iff (timed' b member').2 (timed a member).2
  · exact sorted.imp_of_mem fun first second lt =>
      (documented.nanoseconds_lt (timed _ first).2 (timed _ second).2 lt).le
  · exact sorted'.imp_of_mem fun first second lt =>
      (documented.nanoseconds_lt (timed' _ first).2 (timed' _ second).2 lt).le

end Times

/-- One group of the groups of a frame, after each has been made into another frame of its key. -/
theorem filter_concat_groupby (documented : pd.Documented) {column : α → Cell} {rows : List α}
    (present : ∀ a ∈ rows, column a ≠ .missing) {made : Cell × List α → Option (List β)} {name : β → Cell}
    (named : ∀ value ∈ rows.map column, ∀ frame,
      made (value, rows.filter fun a => decide (column a = value)) = some frame → ∀ b ∈ frame, name b = value)
    {value : Cell} (outside : ∀ frame, made (value, []) = some frame → frame = []) :
    (pd.concat ((pd.groupby false column rows).filterMap made)).filter (fun b => decide (name b = value)) =
      (made (value, rows.filter fun a => decide (column a = value))).getD [] := by
  have groups : pd.concat ((pd.groupby false column rows).filterMap made) =
      (rows.map column).eraseDups.flatMap fun value =>
        (made (value, rows.filter fun a => decide (column a = value))).getD [] := by
    rw [documented.concat, documented.groupby column present, List.filterMap_map]
    generalize (rows.map column).eraseDups = keys
    induction keys with
    | nil => rfl
    | cons key keys ih =>
        rw [List.filterMap_cons, List.flatMap_cons, ← ih, Function.comp_apply]
        cases made (key, rows.filter fun a => decide (column a = key)) <;> rfl
  rw [groups]
  refine filter_flatMap_group name (nodup_eraseDups _) (fun key listed b member => ?_) fun absent => ?_
  · cases frame : made (key, rows.filter fun a => decide (column a = key)) with
    | none => simp [frame] at member
    | some frame' =>
        exact named key (List.mem_eraseDups.mp listed) frame' frame b (by simpa [frame] using member)
  · have empty : rows.filter (fun a => decide (column a = value)) = [] := by
      refine List.filter_eq_nil_iff.mpr fun a member same => absent ?_
      rw [List.mem_eraseDups]
      exact List.mem_map.mpr ⟨a, member, of_decide_eq_true same⟩
    rw [empty]
    cases frame : made (value, []) with
    | none => rfl
    | some frame' => exact outside frame' frame

end Documented

end Pandas

/-! ## One library -/

/-- A cell of a file: missing, a number or a text. -/
def readCell (text : List Char) : Cell :=
  if text ∈ naValues then .missing
  else
    match floatOf (strip text) with
    | some (.finite x) => .number x
    | _ => .text (String.ofList text)

/-- What cells are ordered by. -/
def Cell.order : Cell → ℚ
  | .number x => x
  | .timedelta ns => ns
  | _ => 0

/-- The functions on exact numbers, without errors. -/
def plainPandas : Pandas where
  readCsv text :=
    match ((text.filter (· ≠ '\r')).splitOn '\n').filter (· ≠ []) with
    | [] => none
    | first :: rest =>
        some ⟨(splitCsvLine first).map String.ofList, rest.map fun line => (splitCsvLine line).map readCell⟩
  fromRecords records := ⟨(records.headD []).map Prod.fst, records.map (List.map Prod.snd)⟩
  toNumeric
    | .number x => .number x
    | .text s => readCell s.toList
    | _ => .missing
  toTimedelta cell := cell.value.elim .missing fun x => .timedelta (roundHalfEven (x * 1000000000))
  astypeInt cell := cell.value.map fun x => .number ⌊x⌋
  sum cells := .number (cells.filterMap Cell.value).sum
  mean cells :=
    let numbers := cells.filterMap Cell.value
    if numbers.isEmpty then .missing else .number (numbers.sum / numbers.length)
  dropna columns rows := rows.filter fun a => columns.all fun column => decide (column a ≠ .missing)
  select column value rows := rows.filter fun a => decide (column a = value ∧ value ≠ .missing)
  groupby sort column rows :=
    let values := (rows.map column).eraseDups.filter fun value => decide (value ≠ .missing)
    (if sort then sortBy Cell.order values else values).map fun value =>
      (value, rows.filter fun a => decide (column a = value))
  sortValues column rows := sortBy (fun a => (column a).order) rows
  mergeAsof tolerance leftOn rightOn left right :=
    left.map fun a =>
      (a, (asOf (fun b => (rightOn b).order) right (leftOn a).order).filter fun b =>
        tolerance.all fun within => decide ((leftOn a).order - (rightOn b).order ≤ within.order))
  merge leftOn rightOn left right :=
    left.flatMap fun a => (right.filter fun b => decide (leftOn a = rightOn b)).map fun b => (a, b)
  concat := List.flatten

theorem isPySpace_of_mem_showNat {n : ℕ} {c : Char} (member : c ∈ showNat n) : isPySpace c = false :=
  isPySpace_of_isDigit (isDigit_of_mem_showNat member)

/-- A printed number is none of the missing values. -/
theorem notMem_naValues {text : List Char} (some_char : text ≠ [])
    (numeric : ∀ c ∈ text, c.isDigit = true ∨ c = '-' ∨ c = '.') : text ∉ naValues := by
  have lettered : ∀ value ∈ naValues, value = [] ∨
      value.any (fun c => !c.isDigit && c != '-' && c != '.') = true := by decide
  intro missing
  rcases lettered text missing with empty | letter
  · exact some_char empty
  · obtain ⟨c, member, other⟩ := List.any_eq_true.mp letter
    rcases numeric c member with digit | rfl | rfl
    · simp [digit] at other
    · exact absurd other (by decide)
    · exact absurd other (by decide)

/-- Texts are read as they have to be. -/
theorem readCell_of_reads {text : List Char} {cell : Cell} (reads : Reads text cell) : readCell text = cell := by
  unfold readCell
  cases reads with
  | @integer n bounded =>
      rw [if_neg (notMem_naValues (showNat_ne_nil n) fun c member => .inl (isDigit_of_mem_showNat member)),
        strip_of_solid fun c => isPySpace_of_mem_showNat, floatOf_showNat]
  | @decimal precision positive x =>
      rw [if_neg (notMem_naValues (List.ne_nil_of_mem (point_mem_showFixed precision x)) fun c => mem_showFixed),
        strip_of_solid fun c => isPySpace_of_mem_showFixed, floatOf_showFixed positive]
  | word word => rw [if_neg word.present, word.wordy]
  | missing missing => rw [if_pos missing]

theorem map_eq_of_forall₂ {α β : Type} {R : α → β → Prop} {f : α → β} (read : ∀ a b, R a b → f a = b)
    {l : List α} {l' : List β} (all : List.Forall₂ R l l') : l.map f = l' := by
  induction all with
  | nil => rfl
  | cons first _ ih => rw [List.map_cons, read _ _ first, ih]

theorem plainPandas_readCsv {header : List (List Char)} {rows : List (List (List Char))}
    {cells : List (List Cell)} (table : CsvTable header rows cells) :
    plainPandas.readCsv (unlines (csv header :: rows.map csv)) = some ⟨header.map String.ofList, cells⟩ := by
  have columns := table.columns
  have named : ∀ name ∈ header, PlainField name := fun name member => (table.named name member).plain
  have some_field : ∀ row ∈ rows, row ≠ [] := fun row member =>
    List.ne_nil_of_length_pos (by rw [table.width row member]; omega)
  have read : rows.map (fun row => (splitCsvLine (csv row)).map readCell) = cells := by
    calc rows.map (fun row => (splitCsvLine (csv row)).map readCell)
        = rows.map (List.map readCell) := List.map_congr_left fun row member => by
          rw [splitCsvLine_csv (table.plain row member) (some_field row member)]
      _ = cells :=
          map_eq_of_forall₂ (fun row cells => @map_eq_of_forall₂ _ _ Reads readCell
            (fun _ _ => readCell_of_reads) row cells) table.reads
  unfold plainPandas
  dsimp only
  rw [lines_csv named columns table.plain table.width]
  dsimp only
  rw [splitCsvLine_csv named (List.ne_nil_of_length_pos (by omega)), List.map_map]
  exact congrArg (fun cells => some (DataFrame.mk (header.map String.ofList) cells)) read

/-- Rounding moves a number by one at most. -/
theorem abs_roundHalfEven_sub_le (x : ℚ) : |roundHalfEven x - x| ≤ 1 := by
  have below : (⌊x⌋ : ℚ) ≤ roundHalfEven x := by exact_mod_cast floor_le_roundHalfEven x
  have above : (roundHalfEven x : ℚ) ≤ ⌊x⌋ + 1 := by exact_mod_cast roundHalfEven_le x
  have floor := Int.floor_le x
  have ceil := Int.lt_floor_add_one x
  exact abs_le.mpr ⟨by linarith, by linarith⟩

section Keys

variable {α β : Type} {leftOn : α → Cell} {leftNs : α → ℤ} {left : List α}

theorem order_of_timedelta (keys : ∀ a ∈ left, leftOn a = .timedelta (leftNs a)) {a : α} (member : a ∈ left) :
    (leftOn a).order = leftNs a := by
  rw [keys a member, Cell.order]

theorem plainPandas_sortValues (keys : ∀ a ∈ left, leftOn a = .timedelta (leftNs a)) :
    (plainPandas.sortValues leftOn left).Perm left ∧
      (plainPandas.sortValues leftOn left).Pairwise fun a b => leftNs a ≤ leftNs b := by
  have sorted := pairwise_sortBy (fun a => (leftOn a).order) left
  refine ⟨List.mergeSort_perm _ _, sorted.imp_of_mem fun {a b} first second le => ?_⟩
  rw [order_of_timedelta keys (mem_sortBy.mp first), order_of_timedelta keys (mem_sortBy.mp second)] at le
  exact_mod_cast le

theorem plainPandas_mergeAsof {rightOn : β → Cell} {rightNs : β → ℤ} {right : List β}
    (keys : ∀ a ∈ left, leftOn a = .timedelta (leftNs a))
    (keys' : ∀ b ∈ right, rightOn b = .timedelta (rightNs b)) :
    plainPandas.mergeAsof none leftOn rightOn left right =
      left.map fun a => (a, asOf rightNs right (leftNs a)) := by
  refine List.map_congr_left fun a member => ?_
  have same : asOf (fun b => (rightOn b).order) right (leftOn a).order = asOf rightNs right (leftNs a) := by
    unfold asOf
    refine congrArg List.getLast? (List.filter_congr fun b member' => ?_)
    rw [decide_eq_decide, order_of_timedelta keys member]
    change (rightOn b).order ≤ leftNs a ↔ _
    rw [order_of_timedelta keys' member', Int.cast_le]
  rw [same]
  cases asOf rightNs right (leftNs a) <;> rfl

end Keys

/-- The exact functions do what the documentation says. -/
theorem plainPandas_documented : plainPandas.Documented where
  read_csv table := plainPandas_readCsv table
  from_records {columns records} some_record same := by
    obtain ⟨record, rest, rfl⟩ := List.exists_cons_of_ne_nil some_record
    rw [← same record List.mem_cons_self]
    rfl
  to_numeric _ := rfl
  to_timedelta x _ :=
    ⟨roundHalfEven (x * 1000000000), rfl, (abs_roundHalfEven_sub_le _).trans_lt (by norm_num)⟩
  astype_int n := by simp [plainPandas, Cell.value]
  sum numbers := by
    have values : (numbers.map Cell.number).filterMap Cell.value = numbers := by
      rw [List.filterMap_map]
      exact List.filterMap_some
    change Cell.number _ = _
    rw [values]
  dropna _ _ := rfl
  select column value rows present := by simp [plainPandas, present]
  groupby column rows present := by
    have kept : (rows.map column).eraseDups.filter (fun value => decide (value ≠ .missing)) =
        (rows.map column).eraseDups := by
      refine List.filter_eq_self.mpr fun value member => decide_eq_true ?_
      obtain ⟨a, listed, rfl⟩ := List.mem_map.mp (List.mem_eraseDups.mp member)
      exact present a listed
    change List.map _ (if false then _ else (rows.map column).eraseDups.filter _) = _
    rw [if_neg Bool.false_ne_true, kept]
  sort_values keys := plainPandas_sortValues keys
  merge_asof keys keys' _ _ := plainPandas_mergeAsof keys keys'
  concat _ := rfl

end Frames
