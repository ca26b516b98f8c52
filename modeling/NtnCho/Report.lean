import NtnCho.Text.Number
import NtnCho.Text.Words
import NtnCho.Simulator

/-!
# The per-UE table and its reader

At its end `main` prints a table with one row for each UE. `parse_log` of
`compare_all_cho_strategies.sh` finds the table in the log of the run and reads it back, column by
column, by the names of the header. The columns have fixed widths and the reader splits at white space:
a row is read back when every text before the last column leaves a space.
-/

namespace NtnCho.Report

open Frames Text

/-! ## The table -/

/-- What `UeFlowStats` holds of the flows of one UE for its row of the table. -/
structure UeFlowStats where
  txPackets : ℕ := 0
  rxPackets : ℕ := 0
  rxBytes : ℕ := 0
  delayMsTotal : ℚ := 0
  firstTxTime : ℚ := 10 ^ 18
  lastRxTime : ℚ := 0

namespace UeFlowStats

def uePdr (ufs : UeFlowStats) : ℚ :=
  if 0 < ufs.txPackets then (ufs.rxPackets : ℚ) / ufs.txPackets * 100 else 0

def ueLatency (ufs : UeFlowStats) : ℚ :=
  if 0 < ufs.rxPackets then ufs.delayMsTotal / ufs.rxPackets else 0

def duration (ufs : UeFlowStats) (simTime : ℚ) : ℚ :=
  if ufs.firstTxTime < ufs.lastRxTime ∧ ufs.firstTxTime < 10 ^ 17 then
    ufs.lastRxTime - ufs.firstTxTime
  else simTime

def tputKbps (ufs : UeFlowStats) (simTime : ℚ) : ℚ :=
  if 0 < ufs.duration simTime then (ufs.rxBytes : ℚ) * 8 / ufs.duration simTime / 1000 else 0

end UeFlowStats

/-- A UE with the rest of its row of the UE-groups CSV and with its flows. -/
structure TableUe where
  info : UeInfo
  groupName : String
  numUsers : ℤ
  flow : UeFlowStats

namespace TableUe

def successRate (ue : TableUe) : ℚ :=
  if 0 < ue.info.choNtnStats.totalReports then
    100 * (ue.info.choNtnStats.successfulHandovers : ℚ) / ue.info.choNtnStats.totalReports
  else 0

def label (i : ℕ) : List Char := "UE-".toList ++ showNat i

/-- The columns of the row of UE `i`, each with its width. -/
def cells (simTime : ℚ) (i : ℕ) (ue : TableUe) : List (ℕ × List Char) :=
  [(6, label i),
   (14, ue.groupName.toList.take 13),
   (12, ue.info.geo.scenario.toList.take 11),
   (8, showInt ue.numUsers),
   (8, showFixed 2 ue.info.geo.lat),
   (8, showFixed 2 ue.info.geo.lon),
   (8, showNat ue.info.choNtnStats.successfulHandovers),
   (10, showNat ue.info.choNtnStats.failedAtExecution),
   (10, showNat ue.info.choNtnStats.totalReports),
   (18, showFixed 2 ue.successRate),
   (8, showFixed 2 ue.flow.uePdr),
   (12, showFixed 2 (ue.flow.tputKbps simTime)),
   (12, showFixed 2 ue.flow.ueLatency)]

end TableUe

def headerCells : List (ℕ × List Char) :=
  [(6, "UE".toList), (14, "Group".toList), (12, "Scenario".toList), (8, "Users".toList),
   (8, "Lat".toList), (8, "Lon".toList), (8, "HO-OK".toList), (10, "HO-Fail".toList),
   (10, "MR-Report".toList), (18, "Successful-Rate%".toList), (8, "PDR%".toList),
   (12, "Tput(Kbps)".toList), (12, "Latency(ms)".toList)]

/-- `totalPdr`; the totals are of type `uint32_t`. -/
def totalPdr (ues : List TableUe) : ℚ :=
  let totalUeTx : ℕ := ues.foldl (fun total ue => (total + ue.flow.txPackets) % 2 ^ 32) 0
  let totalUeRx : ℕ := ues.foldl (fun total ue => (total + ue.flow.rxPackets) % 2 ^ 32) 0
  if 0 < totalUeTx then (totalUeRx : ℚ) / totalUeTx * 100 else 0

def totalCells (simTime : ℚ) (ues : List TableUe) : List (ℕ × List Char) :=
  [(6, "TOTAL".toList), (14, []), (12, []), (8, []), (8, []), (8, []),
   (8, showNat (ues.map (·.info.choNtnStats.successfulHandovers)).sum),
   (10, showNat (ues.map (·.info.choNtnStats.failedAtExecution)).sum), (10, []), (18, []),
   (8, showFixed 2 (totalPdr ues)),
   (12, showFixed 2 (ues.map (·.flow.tputKbps simTime)).sum), (12, [])]

def tableLine (cells : List (ℕ × List Char)) : List Char := ' ' :: ' ' :: layout cells

def ruler : List Char := ' ' :: ' ' :: List.replicate 132 '-'

def title : List Char := "PER-UE HANDOVER & PDR BREAKDOWN:".toList

/-- The lines that `main` prints from the table on. -/
def table (simTime : ℚ) (ues : List TableUe) : List (List Char) :=
  [[], "📋 ".toList ++ title, ruler, tableLine headerCells, ruler] ++
    ues.zipIdx.map (fun p => tableLine (p.1.cells simTime p.2)) ++
    [ruler, tableLine (totalCells simTime ues), ruler, [], List.replicate 70 '=',
      "✅ Simulation completed successfully!".toList, List.replicate 70 '=', []]

/-! ## The reader -/

/-- The members of a line "UE" of the parsed metrics. -/
structure UeRecord where
  label : List Char
  seed : List Char
  ue : List Char
  group : List Char
  scenario : List Char
  users : List Char
  lat : List Char
  lon : List Char
  hoOk : List Char
  hoFail : List Char
  mr : List Char
  success : List Char
  pdr : List Char
  tput : List Char
  latency : List Char
  deriving DecidableEq

/-- The members of a line "SUMMARY" of the parsed metrics. -/
structure Summary where
  label : List Char
  seed : List Char
  overallPdr : List Char
  latency : List Char
  hoOk : List Char
  hoFail : List Char
  mr : List Char
  success : List Char
  tput : List Char
  deriving DecidableEq

/-- The variables of the awk program, `records` being the lines "UE" printed so far. -/
structure Awk where
  inTable : Bool := false
  haveHeader : Bool := false
  header : List (List Char) := []
  overallPdr : List Char := []
  ueCount : ℕ := 0
  sumLatency : ℚ := 0
  sumHoOk : ℚ := 0
  sumHoFail : ℚ := 0
  sumMr : ℚ := 0
  sumPdr : ℚ := 0
  sumTput : ℚ := 0
  haveMr : Bool := false
  records : List UeRecord := []

/-- `sub(/^.*pattern/, "")`: what follows the last occurrence of the pattern. -/
def afterLast (pattern : List Char) : List Char → List Char
  | [] => []
  | c :: rest =>
      if pattern <:+: rest then afterLast pattern rest
      else if pattern <+: c :: rest then (c :: rest).drop pattern.length
      else c :: rest

/-- `header_index[name]`, 0 for a name that the header does not have. -/
def headerIndex (header : List (List Char)) (name : List Char) : ℕ :=
  header.length - header.reverse.idxOf name

def value (header row : List (List Char)) (name fallback : String) : List Char :=
  let position := headerIndex header name.toList
  if 0 < position ∧ position ≤ row.length then row.getD (position - 1) [] else fallback.toList

/-- `line ~ /^UE-[0-9]+([[:space:]]|$)/` -/
def isUeLine (line : List Char) : Bool :=
  "UE-".toList.isPrefixOf (firstWord line) && (firstWord line).drop 3 != [] &&
    ((firstWord line).drop 3).all Char.isDigit

def readRow (label seed : List Char) (header row : List (List Char)) : UeRecord where
  label := label
  seed := seed
  ue := row.getD 0 []
  group := value header row "Group" ""
  scenario := value header row "Scenario" ""
  users := value header row "Users" "0"
  lat := value header row "Lat" "0"
  lon := value header row "Lon" "0"
  hoOk := value header row "HO-OK" "0"
  hoFail := value header row "HO-Fail" "0"
  mr := value header row "MR-Report" "NA"
  success := value header row "Successful-Rate%" "NA"
  pdr := value header row "PDR%" "0"
  tput := value header row "Tput(Kbps)" "0"
  latency := value header row "Latency(ms)" "0"

namespace Awk

def count (s : Awk) (r : UeRecord) : Awk :=
  let s := { s with
    ueCount := s.ueCount + 1
    sumLatency := s.sumLatency + readNumber r.latency
    sumHoOk := s.sumHoOk + readNumber r.hoOk
    sumHoFail := s.sumHoFail + readNumber r.hoFail
    sumPdr := s.sumPdr + readNumber r.pdr
    sumTput := s.sumTput + readNumber r.tput
    records := s.records ++ [r] }
  if r.mr ≠ "NA".toList ∧ r.mr ≠ [] then
    { s with sumMr := s.sumMr + readNumber r.mr, haveMr := true }
  else s

/-- What the program does with a line. On a trimmed line the words are the fields of
`split(line, row, /[[:space:]]+/)`. -/
def step (label seed : List Char) (s : Awk) (line : List Char) : Awk :=
  if s.inTable = false then
    let s :=
      if "Overall PDR:".toList <:+: line then
        { s with overallPdr :=
            ((afterLast "Overall PDR:".toList line).dropWhile isSpace).takeWhile (· != '%') }
      else s
    if title <:+: line then { s with inTable := true, haveHeader := false } else s
  else
    let line := trim line
    if line = [] ∨ line.all (· == '-') then s
    else if s.haveHeader = false ∧ firstWord line = "UE".toList ∧ firstWord line ≠ line then
      { s with header := words line, haveHeader := true }
    else if s.haveHeader = false ∨ firstWord line = "TOTAL".toList ∨ isUeLine line = false then s
    else s.count (readRow label seed s.header (words line))

/-- The `END` block: no summary without a row. -/
def finish (label seed : List Char) (s : Awk) : Option Summary :=
  if s.ueCount = 0 then none
  else some
    { label := label
      seed := seed
      overallPdr := showFixed 3
        (if s.overallPdr = [] then s.sumPdr / s.ueCount else readNumber s.overallPdr)
      latency := showFixed 3 (s.sumLatency / s.ueCount)
      hoOk := showFixed 3 s.sumHoOk
      hoFail := showFixed 3 s.sumHoFail
      mr := if s.haveMr then showFixed 3 s.sumMr else "NA".toList
      success :=
        if s.haveMr ∧ 0 < s.sumMr then showFixed 3 (100 * s.sumHoOk / s.sumMr) else "NA".toList
      tput := showFixed 3 s.sumTput }

end Awk

/-- `parse_log`: the lines "UE" and the line "SUMMARY". -/
def parseLog (label seed : List Char) (log : List (List Char)) : List UeRecord × Option Summary :=
  let s := log.foldl (Awk.step label seed) {}
  (s.records, s.finish label seed)

/-! ## What is read back -/

/-- What the comparison uses of a row: the UE with its counters and metrics. -/
structure PrintedRow where
  ue : List Char
  hoOk : List Char
  hoFail : List Char
  mr : List Char
  success : List Char
  pdr : List Char
  tput : List Char
  latency : List Char
  deriving DecidableEq

def UeRecord.printed (r : UeRecord) : PrintedRow :=
  ⟨r.ue, r.hoOk, r.hoFail, r.mr, r.success, r.pdr, r.tput, r.latency⟩

/-- The texts of the row of UE `i` as the table prints them. -/
def TableUe.printed (simTime : ℚ) (i : ℕ) (ue : TableUe) : PrintedRow where
  ue := label i
  hoOk := showNat ue.info.choNtnStats.successfulHandovers
  hoFail := showNat ue.info.choNtnStats.failedAtExecution
  mr := showNat ue.info.choNtnStats.totalReports
  success := showFixed 2 ue.successRate
  pdr := showFixed 2 ue.flow.uePdr
  tput := showFixed 2 (ue.flow.tputKbps simTime)
  latency := showFixed 2 ue.flow.ueLatency

/-- The totals of the summary are the sums of the printed values. -/
structure Summary.TotalsOf (summary : Summary) (simTime : ℚ) (ues : List TableUe) : Prop where
  hoOk : summary.hoOk =
    showFixed 3 (ues.map fun ue => (ue.info.choNtnStats.successfulHandovers : ℚ)).sum
  hoFail : summary.hoFail =
    showFixed 3 (ues.map fun ue => (ue.info.choNtnStats.failedAtExecution : ℚ)).sum
  mr : summary.mr = showFixed 3 (ues.map fun ue => (ue.info.choNtnStats.totalReports : ℚ)).sum
  tput : summary.tput = showFixed 3 (ues.map fun ue => decimals 2 (ue.flow.tputKbps simTime)).sum
  latency : summary.latency =
    showFixed 3 ((ues.map fun ue => decimals 2 ue.flow.ueLatency).sum / ues.length)

/-- The reader yields one record for each UE, in order, with the printed texts, and their sums. -/
structure ReadsBack (label seed : List Char) (log : List (List Char)) (simTime : ℚ)
    (ues : List TableUe) : Prop where
  records : (parseLog label seed log).1.map UeRecord.printed =
    ues.zipIdx.map fun p => p.1.printed simTime p.2
  totals : ∃ summary, (parseLog label seed log).2 = some summary ∧ summary.TotalsOf simTime ues

/-- The row of UE `i` leaves a space after each text that another column follows. -/
structure TableUe.Fits (simTime : ℚ) (i : ℕ) (ue : TableUe) : Prop where
  index : i < 100
  numUsers : -10 ^ 6 < ue.numUsers ∧ ue.numUsers < 10 ^ 7
  lat : -10 ^ 3 < decimals 2 ue.info.geo.lat ∧ decimals 2 ue.info.geo.lat < 10 ^ 4
  lon : -10 ^ 3 < decimals 2 ue.info.geo.lon ∧ decimals 2 ue.info.geo.lon < 10 ^ 4
  hoOk : ue.info.choNtnStats.successfulHandovers < 10 ^ 7
  hoFail : ue.info.choNtnStats.failedAtExecution < 10 ^ 9
  mr : ue.info.choNtnStats.totalReports < 10 ^ 9
  pdr : decimals 2 ue.flow.uePdr < 10 ^ 4
  tput : decimals 2 (ue.flow.tputKbps simTime) < 10 ^ 8

/-- Group and scenario are words, as a field of the UE-groups CSV is. -/
structure TableUe.Named (ue : TableUe) : Prop where
  group : IsWord ue.groupName.toList
  scenario : IsWord ue.info.geo.scenario.toList

/-! ## The columns of a row -/

theorem isWord_label (i : ℕ) : IsWord (TableUe.label i) where
  ne_nil := List.append_ne_nil_of_right_ne_nil _ (showNat_ne_nil i)
  solid c member := by
    rcases List.mem_append.mp member with front | digit
    · have word : IsWord "UE-".toList := .of_all (by decide +kernel) (by decide +kernel)
      exact word.solid c front
    · exact isSpace_of_isDigit (isDigit_of_mem_showNat digit)

theorem isWord_take {text : List Char} (word : IsWord text) (n : ℕ) : IsWord (text.take (n + 1)) where
  ne_nil empty := by
    rcases List.take_eq_nil_iff.mp empty with zero | nil
    · cases zero
    · exact word.ne_nil nil
  solid c member := word.solid c (List.mem_of_mem_take member)

theorem isWord_cells {ue : TableUe} (named : ue.Named) (simTime : ℚ) (i : ℕ) :
    ∀ cell ∈ ue.cells simTime i, IsWord cell.2 := by
  simp only [TableUe.cells, List.forall_mem_cons]
  exact ⟨isWord_label i, isWord_take named.group 12, isWord_take named.scenario 10,
    isWord_showInt _, isWord_showFixed _ _, isWord_showFixed _ _, isWord_showNat _,
    isWord_showNat _, isWord_showNat _, isWord_showFixed _ _, isWord_showFixed _ _,
    isWord_showFixed _ _, isWord_showFixed _ _, List.forall_mem_nil _⟩

theorem UeFlowStats.uePdr_nonneg (ufs : UeFlowStats) : 0 ≤ ufs.uePdr := by
  unfold UeFlowStats.uePdr
  split
  · positivity
  · exact le_rfl

theorem UeFlowStats.tputKbps_nonneg (ufs : UeFlowStats) (simTime : ℚ) :
    0 ≤ ufs.tputKbps simTime := by
  unfold UeFlowStats.tputKbps
  split
  · positivity
  · exact le_rfl

/-- A metric that is not negative takes fewer than `m + precision + 3` characters when its printed
value has at most `m + 1` digits before the point. -/
theorem length_metric_lt_iff {m : ℕ} (some_digit : 0 < m) {x : ℚ} (nonneg : 0 ≤ x) :
    (showFixed 2 x).length < m + 2 + 3 ↔ decimals 2 x < 10 ^ (m + 1) := by
  rw [length_showFixed_lt_iff (by decide) some_digit]
  refine and_iff_right ?_
  exact lt_of_lt_of_le (neg_lt_zero.mpr (by positivity)) (decimals_nonneg 2 nonneg)

/-- A success rate is short whenever its numerator is. -/
theorem length_successRate {ue : TableUe} (few : ue.info.choNtnStats.successfulHandovers < 10 ^ 7) :
    (showFixed 2 ue.successRate).length < 18 := by
  have bounds : 0 ≤ ue.successRate ∧ ue.successRate ≤ ((10 ^ 9 : ℕ) : ℚ) := by
    unfold TableUe.successRate
    split
    · rename_i reports
      have reports : (1 : ℚ) ≤ ue.info.choNtnStats.totalReports := by exact_mod_cast reports
      have few : (ue.info.choNtnStats.successfulHandovers : ℚ) < 10 ^ 7 := by exact_mod_cast few
      constructor
      · positivity
      · rw [div_le_iff₀ (by linarith)]
        push_cast
        nlinarith
    · norm_num
  have small := decimals_mono 2 bounds.2
  rw [decimals_natCast] at small
  exact (length_metric_lt_iff (m := 13) (by decide) bounds.1).mpr
    (lt_of_le_of_lt small (by norm_num))

theorem length_label_lt_iff (i : ℕ) : (TableUe.label i).length < 6 ↔ i < 100 := by
  have digits := length_showNat_le_iff (n := i) (k := 2) (by decide)
  have length : (TableUe.label i).length = 3 + (showNat i).length := List.length_append ..
  omega

theorem length_take_lt (text : List Char) (n : ℕ) : (text.take n).length < n + 1 :=
  Nat.lt_succ_of_le (List.length_take_le n text)

/-- The columns leave a space exactly when the values fit. -/
theorem columns_fit_iff (simTime : ℚ) (i : ℕ) (ue : TableUe) :
    (∀ cell ∈ (ue.cells simTime i).dropLast, cell.2.length < cell.1) ↔ ue.Fits simTime i := by
  have degrees (x : ℚ) := length_showFixed_lt_iff (p := 2) (m := 3) (by decide) (by decide) x
  have pdr := length_metric_lt_iff (m := 3) (by decide) ue.flow.uePdr_nonneg
  have tput := length_metric_lt_iff (m := 7) (by decide) (ue.flow.tputKbps_nonneg simTime)
  have users := length_showInt_lt_iff (m := 6) (by decide) ue.numUsers
  have counter (n k : ℕ) (pos : 0 < k) : (showNat n).length < k + 1 ↔ n < 10 ^ k :=
    Nat.lt_succ_iff.trans (length_showNat_le_iff pos)
  simp only [TableUe.cells, List.dropLast, List.forall_mem_cons]
  constructor
  · rintro ⟨index, -, -, numUsers, lat, lon, hoOk, hoFail, mr, -, short_pdr, short_tput, -⟩
    exact
      { index := (length_label_lt_iff i).mp index
        numUsers := users.mp numUsers
        lat := (degrees _).mp lat
        lon := (degrees _).mp lon
        hoOk := (counter _ 7 (by decide)).mp hoOk
        hoFail := (counter _ 9 (by decide)).mp hoFail
        mr := (counter _ 9 (by decide)).mp mr
        pdr := pdr.mp short_pdr
        tput := tput.mp short_tput }
  · intro fits
    exact ⟨(length_label_lt_iff i).mpr fits.index, length_take_lt _ 13, length_take_lt _ 11,
      users.mpr fits.numUsers, (degrees _).mpr fits.lat, (degrees _).mpr fits.lon,
      (counter _ 7 (by decide)).mpr fits.hoOk, (counter _ 9 (by decide)).mpr fits.hoFail,
      (counter _ 9 (by decide)).mpr fits.mr, length_successRate fits.hoOk, pdr.mpr fits.pdr,
      tput.mpr fits.tput, List.forall_mem_nil _⟩

/-! ## The reader up to the header -/

section Reader

variable {label seed : List Char}

def headerNames : List (List Char) := headerCells.map Prod.snd

/-- The reader once it has read the header. -/
def Awk.opened (overallPdr : List Char) : Awk :=
  { inTable := true, haveHeader := true, header := headerNames, overallPdr := overallPdr }

theorem step_before (label seed : List Char) {line : List Char} (untitled : ¬title <:+: line) (s : Awk)
    (outside : s.inTable = false) :
    ∃ overallPdr, Awk.step label seed s line = { s with overallPdr := overallPdr } := by
  unfold Awk.step
  rw [if_pos outside]
  dsimp only
  rw [if_neg untitled]
  split
  · exact ⟨_, rfl⟩
  · exact ⟨s.overallPdr, rfl⟩

theorem foldl_before (label seed : List Char) {before : List (List Char)} (untitled : ∀ line ∈ before, ¬title <:+: line)
    (overallPdr : List Char) :
    ∃ overallPdr', before.foldl (Awk.step label seed) { overallPdr := overallPdr } =
      { overallPdr := overallPdr' } := by
  induction before generalizing overallPdr with
  | nil => exact ⟨overallPdr, rfl⟩
  | cons line before ih =>
      obtain ⟨next, step⟩ := step_before label seed
        (untitled line (List.mem_cons_self ..)) { overallPdr := overallPdr } rfl
      rw [List.foldl_cons, step]
      exact ih (fun line' member => untitled line' (List.mem_cons_of_mem line member)) next

theorem step_title (overallPdr : List Char) :
    Awk.step label seed { overallPdr := overallPdr } ("📋 ".toList ++ title) =
      { inTable := true, overallPdr := overallPdr } := by
  unfold Awk.step
  rw [if_pos rfl]
  dsimp only
  rw [if_pos (by decide +kernel), if_neg (by decide +kernel)]

theorem step_ruler (s : Awk) (inTable : s.inTable = true) : Awk.step label seed s ruler = s := by
  unfold Awk.step
  rw [if_neg (by simp [inTable])]
  exact if_pos (by decide +kernel)

theorem step_header (overallPdr : List Char) :
    Awk.step label seed { inTable := true, overallPdr := overallPdr } (tableLine headerCells) =
      Awk.opened overallPdr := by
  have names : words (trim (tableLine headerCells)) = headerNames := by decide +kernel
  unfold Awk.step
  rw [if_neg Bool.true_eq_false.mp]
  dsimp only
  rw [if_neg (by decide +kernel), if_pos (by decide +kernel), names]
  rfl

theorem foldl_front (label seed : List Char) {before : List (List Char)} (untitled : ∀ line ∈ before, ¬title <:+: line) :
    ∃ overallPdr, (before ++ [[], "📋 ".toList ++ title, ruler, tableLine headerCells, ruler]).foldl
      (Awk.step label seed) {} = Awk.opened overallPdr := by
  have blank : ∀ line ∈ before ++ [[]], ¬title <:+: line := by
    intro line member
    rcases List.mem_append.mp member with inside | last
    · exact untitled line inside
    · obtain rfl := List.mem_singleton.mp last
      decide +kernel
  obtain ⟨overallPdr, front⟩ := foldl_before label seed blank []
  refine ⟨overallPdr, ?_⟩
  rw [show before ++ [[], "📋 ".toList ++ title, ruler, tableLine headerCells, ruler] =
    (before ++ [[]]) ++ ["📋 ".toList ++ title, ruler, tableLine headerCells, ruler] by simp,
    List.foldl_append, front]
  simp only [List.foldl_cons, List.foldl_nil]
  rw [step_title, step_ruler { inTable := true, overallPdr := overallPdr } rfl, step_header,
    step_ruler (Awk.opened overallPdr) rfl]

/-! ## The reader on the rows -/

/-- The record that the reader makes of a line of the table, if any. -/
def recordOf (label seed line : List Char) : Option UeRecord :=
  if trim line = [] ∨ (trim line).all (· == '-') ∨ firstWord (trim line) = "TOTAL".toList ∨
      isUeLine (trim line) = false then
    none
  else some (readRow label seed headerNames (words (trim line)))

/-- The reader is below the header. -/
structure Awk.Below (s : Awk) : Prop where
  inTable : s.inTable = true
  haveHeader : s.haveHeader = true
  header : s.header = headerNames

theorem Awk.Below.count {s : Awk} (below : s.Below) (r : UeRecord) : (s.count r).Below := by
  unfold Awk.count
  dsimp only
  split <;> exact ⟨below.inTable, below.haveHeader, below.header⟩

theorem step_below {s : Awk} (below : s.Below) (line : List Char) :
    Awk.step label seed s line = ((recordOf label seed line).elim s s.count) := by
  unfold Awk.step recordOf
  rw [if_neg (by simp [below.inTable])]
  dsimp only
  rw [below.haveHeader, below.header]
  by_cases blank : trim line = [] ∨ (trim line).all (· == '-')
  · rw [if_pos blank, if_pos]
    · rfl
    · tauto
  · rw [if_neg blank, if_neg (by simp)]
    by_cases skipped : firstWord (trim line) = "TOTAL".toList ∨ isUeLine (trim line) = false
    · rw [if_pos (.inr skipped), if_pos]
      · rfl
      · tauto
    · rw [if_neg (by simpa using skipped), if_neg]
      · rfl
      · tauto

theorem foldl_below {s : Awk} (below : s.Below) (lines : List (List Char)) :
    lines.foldl (Awk.step label seed) s =
      (lines.filterMap (recordOf label seed)).foldl Awk.count s := by
  induction lines generalizing s with
  | nil => rfl
  | cons line lines ih =>
      rw [List.foldl_cons, step_below below, List.filterMap_cons]
      cases recordOf label seed line with
      | none => exact ih below
      | some r => exact ih (below.count r)

/-- What the reader has counted of the records so far. -/
structure Awk.Counted (s : Awk) (rs : List UeRecord) : Prop where
  records : s.records = rs
  ueCount : s.ueCount = rs.length
  hoOk : s.sumHoOk = (rs.map fun r => readNumber r.hoOk).sum
  hoFail : s.sumHoFail = (rs.map fun r => readNumber r.hoFail).sum
  tput : s.sumTput = (rs.map fun r => readNumber r.tput).sum
  latency : s.sumLatency = (rs.map fun r => readNumber r.latency).sum
  mr : (∀ r ∈ rs, r.mr ≠ "NA".toList ∧ r.mr ≠ []) →
    s.sumMr = (rs.map fun r => readNumber r.mr).sum ∧ (rs ≠ [] → s.haveMr = true)

theorem Awk.Counted.count {s : Awk} {rs : List UeRecord} (counted : s.Counted rs)
    (r : UeRecord) : (s.count r).Counted (rs ++ [r]) := by
  have shared : (s.count r).records = s.records ++ [r] ∧ (s.count r).ueCount = s.ueCount + 1 ∧
      (s.count r).sumHoOk = s.sumHoOk + readNumber r.hoOk ∧
      (s.count r).sumHoFail = s.sumHoFail + readNumber r.hoFail ∧
      (s.count r).sumTput = s.sumTput + readNumber r.tput ∧
      (s.count r).sumLatency = s.sumLatency + readNumber r.latency := by
    unfold Awk.count
    dsimp only
    split <;> exact ⟨rfl, rfl, rfl, rfl, rfl, rfl⟩
  obtain ⟨printed, ueCount, hoOk, hoFail, tput, latency⟩ := shared
  refine ⟨?_, ?_, ?_, ?_, ?_, ?_, ?_⟩
  · rw [printed, counted.records]
  · rw [ueCount, counted.ueCount, List.length_append, List.length_singleton]
  · rw [hoOk, counted.hoOk, List.map_append, List.sum_append, List.map_singleton, List.sum_singleton]
  · rw [hoFail, counted.hoFail, List.map_append, List.sum_append, List.map_singleton,
      List.sum_singleton]
  · rw [tput, counted.tput, List.map_append, List.sum_append, List.map_singleton, List.sum_singleton]
  · rw [latency, counted.latency, List.map_append, List.sum_append, List.map_singleton,
      List.sum_singleton]
  · intro reported
    obtain ⟨sumMr, -⟩ := counted.mr fun r' member => reported r' (List.mem_append_left _ member)
    have this := reported r (List.mem_append_right _ (List.mem_singleton_self r))
    unfold Awk.count
    dsimp only
    rw [if_pos this]
    refine ⟨?_, fun _ => rfl⟩
    rw [sumMr, List.map_append, List.sum_append, List.map_singleton, List.sum_singleton]

theorem counted_foldl (overallPdr : List Char) (rs : List UeRecord) :
    (rs.foldl Awk.count (Awk.opened overallPdr)).Counted rs := by
  induction rs using List.reverseRecOn with
  | nil => exact ⟨rfl, rfl, rfl, rfl, rfl, rfl, fun _ => ⟨rfl, fun some => absurd rfl some⟩⟩
  | append_singleton rs r ih =>
      rw [List.foldl_append]
      exact ih.count r

/-! ## The record of a row -/

theorem words_tableLine (cells : List (ℕ × List Char)) : words (tableLine cells) = words (layout cells) :=
  (words_cons_space rfl _).trans (words_cons_space rfl _)

theorem value_of_index {row : List (List Char)} {name fallback : String} {k : ℕ}
    (index : headerIndex headerNames name.toList = k + 1) (inside : k < row.length) :
    value headerNames row name fallback = row.getD k [] := by
  unfold value
  dsimp only
  rw [index, if_pos ⟨by omega, inside⟩]
  rfl

example : value headerNames ["UE0".toList, "Hsinchu".toList] "Group" "NA" = "Hsinchu".toList := by
  decide +kernel

/-- A row with a field missing has no latency. -/
theorem latency_of_short {row : List (List Char)} (short : row.length < 13) :
    (readRow label seed headerNames row).latency = "0".toList := by
  have index : headerIndex headerNames "Latency(ms)".toList = 13 := by decide +kernel
  change value headerNames row "Latency(ms)" "0" = _
  unfold value
  dsimp only
  rw [index, if_neg (by omega)]

theorem printed_readRow (simTime : ℚ) (i : ℕ) (ue : TableUe) :
    (readRow label seed headerNames ((ue.cells simTime i).map Prod.snd)).printed =
      ue.printed simTime i := by
  have column {name fallback : String} (k : ℕ) (index : headerIndex headerNames name.toList = k + 1)
      (inside : k < 13) : value headerNames ((ue.cells simTime i).map Prod.snd) name fallback =
        ((ue.cells simTime i).map Prod.snd).getD k [] := value_of_index index inside
  unfold readRow UeRecord.printed TableUe.printed
  dsimp only
  rw [column 6 (by decide +kernel) (by decide), column 7 (by decide +kernel) (by decide),
    column 8 (by decide +kernel) (by decide), column 9 (by decide +kernel) (by decide),
    column 10 (by decide +kernel) (by decide), column 11 (by decide +kernel) (by decide),
    column 12 (by decide +kernel) (by decide)]
  rfl

/-- The label of a UE is no other line of the table. -/
theorem recordOf_label {line : List Char} {i : ℕ}
    (head : (words line).head? = some (TableUe.label i)) :
    recordOf label seed line = some (readRow label seed headerNames (words line)) := by
  have first := firstWord_trim head
  have start : TableUe.label i = 'U' :: ('E' :: '-' :: showNat i) := rfl
  unfold recordOf
  rw [words_trim, if_neg]
  rintro (blank | dashes | total | other)
  · rw [blank] at first
    exact absurd first (by rw [start]; simp [firstWord])
  · have member : 'U' ∈ firstWord (trim line) := by rw [first, start]; exact List.mem_cons_self ..
    have dash := List.all_eq_true.mp dashes 'U' ((List.takeWhile_prefix _).mem member)
    exact absurd dash (by decide)
  · rw [first, start] at total
    exact absurd total (by simp)
  · have digits : (showNat i).all Char.isDigit = true :=
      List.all_eq_true.mpr fun c => isDigit_of_mem_showNat
    have some_digit := showNat_ne_nil i
    unfold isUeLine at other
    rw [first, start] at other
    simp [digits, some_digit] at other

theorem recordOf_fits {simTime : ℚ} {i : ℕ} {ue : TableUe} (named : ue.Named)
    (fits : ue.Fits simTime i) :
    ∃ r, recordOf label seed (tableLine (ue.cells simTime i)) = some r ∧
      r.printed = ue.printed simTime i := by
  have texts : words (tableLine (ue.cells simTime i)) = (ue.cells simTime i).map Prod.snd := by
    rw [words_tableLine]
    exact words_layout (isWord_cells named simTime i) ((columns_fit_iff simTime i ue).mpr fits)
  refine ⟨_, recordOf_label (i := i) (by rw [texts]; rfl), ?_⟩
  rw [texts]
  exact printed_readRow simTime i ue

/-- A row with a full column is skipped or loses its latency. -/
theorem fits_of_recordOf {simTime : ℚ} {i : ℕ} {ue : TableUe} (named : ue.Named) {r : UeRecord}
    (record : recordOf label seed (tableLine (ue.cells simTime i)) = some r)
    (same : r.printed = ue.printed simTime i) : ue.Fits simTime i := by
  by_contra misfit
  rw [← columns_fit_iff] at misfit
  push Not at misfit
  have short := length_words_layout_lt (isWord_cells named simTime i) misfit
  have latency : r.latency = showFixed 2 ue.flow.ueLatency := congrArg PrintedRow.latency same
  unfold recordOf at record
  split at record
  · cases record
  · obtain rfl := Option.some.inj record
    rw [words_trim, words_tableLine, latency_of_short short] at latency
    have point := point_mem_showFixed 2 ue.flow.ueLatency
    rw [← latency] at point
    exact absurd point (by decide +kernel)

/-- The lines that follow the rows are no rows. -/
theorem recordOf_total (simTime : ℚ) (ues : List TableUe) :
    recordOf label seed (tableLine (totalCells simTime ues)) = none := by
  have word : IsWord "TOTAL".toList := .of_all (by decide +kernel) (by decide +kernel)
  have head : (words (tableLine (totalCells simTime ues))).head? = some "TOTAL".toList := by
    rw [words_tableLine]
    unfold totalCells layout
    rw [List.flatMap_cons, words_padRight_append word (by decide +kernel)]
    rfl
  unfold recordOf
  exact if_pos (.inr (.inr (.inl (firstWord_trim head))))

example : recordOf "TDCHO".toList "1".toList (tableLine (totalCells 60 [])) = none := by
  decide +kernel

theorem filterMap_end (simTime : ℚ) (ues : List TableUe) :
    [ruler, tableLine (totalCells simTime ues), ruler, [], List.replicate 70 '=',
      "✅ Simulation completed successfully!".toList, List.replicate 70 '=', []].filterMap
        (recordOf label seed) = [] := by
  have skipped : ∀ line ∈ [ruler, ruler, [], List.replicate 70 '=',
      "✅ Simulation completed successfully!".toList, List.replicate 70 '=', []],
      recordOf label seed line = none := by
    intro line member
    unfold recordOf
    refine if_pos ?_
    revert line
    decide +kernel
  simp only [List.forall_mem_cons] at skipped
  obtain ⟨ruler, -, blank, bar, done, -, -, -⟩ := skipped
  simp only [List.filterMap_cons, recordOf_total, ruler, blank, bar, done, List.filterMap_nil]

/-- The records of the table are those of its rows, and the reader counts them. -/
theorem parse_table (label seed : List Char) {before : List (List Char)} (untitled : ∀ line ∈ before, ¬title <:+: line)
    (simTime : ℚ) (ues : List TableUe) :
    ∃ s, (before ++ table simTime ues).foldl (Awk.step label seed) {} = s ∧
      s.Counted (ues.zipIdx.filterMap fun p =>
        recordOf label seed (tableLine (p.1.cells simTime p.2))) := by
  obtain ⟨overallPdr, front⟩ := foldl_front label seed untitled
  have below : (Awk.opened overallPdr).Below := ⟨rfl, rfl, rfl⟩
  refine ⟨_, rfl, ?_⟩
  unfold table
  rw [List.append_assoc, ← List.append_assoc before, List.foldl_append, front, foldl_below below,
    List.filterMap_append, filterMap_end, List.append_nil, List.filterMap_map]
  exact counted_foldl overallPdr _

end Reader

/-! ## The round trip -/

/-- A list read piece by piece shows what was written exactly when each piece does. -/
theorem map_filterMap_eq_iff {α β γ : Type} (read : α → Option β) (shown : β → γ) (written : α → γ)
    (l : List α) :
    (l.filterMap read).map shown = l.map written ↔
      ∀ x ∈ l, ∃ r, read x = some r ∧ shown r = written x := by
  induction l with
  | nil => simp
  | cons x l ih =>
      rw [List.forall_mem_cons, List.filterMap_cons, List.map_cons]
      cases this : read x with
      | none =>
          constructor
          · intro same
            have length := congrArg List.length same
            have fewer := List.length_filterMap_le read l
            simp only [List.length_map, List.length_cons] at length
            omega
          · rintro ⟨⟨r, some, -⟩, -⟩
            cases some
      | some r =>
          dsimp only
          rw [List.map_cons, List.cons.injEq, ih]
          simp

/-- Sums over the records are sums over the UEs. -/
theorem sum_records {simTime : ℚ} {ues : List TableUe} {rs : List UeRecord}
    (same : rs.map UeRecord.printed = ues.zipIdx.map fun p => p.1.printed simTime p.2)
    (column : PrintedRow → List Char) {value : TableUe → ℚ}
    (agrees : ∀ i (ue : TableUe), readNumber (column (ue.printed simTime i)) = value ue) :
    (rs.map fun r => readNumber (column r.printed)).sum = (ues.map value).sum := by
  have rows : (rs.map fun r => readNumber (column r.printed)) =
      (rs.map UeRecord.printed).map fun row => readNumber (column row) := by
    rw [List.map_map]
    rfl
  have values : ues.zipIdx.map (fun p => readNumber (column (p.1.printed simTime p.2))) =
      ues.map value := by
    conv_rhs => rw [← List.zipIdx_map_fst 0 ues, List.map_map]
    exact List.map_congr_left fun p _ => agrees p.2 p.1
  rw [rows, same, List.map_map, ← values]
  rfl

/-- The summary of records that show the rows of the table has their totals. -/
theorem totalsOf_records {label seed : List Char} {simTime : ℚ} {ues : List TableUe} {s : Awk}
    {rs : List UeRecord} (counted : s.Counted rs)
    (same : rs.map UeRecord.printed = ues.zipIdx.map fun p => p.1.printed simTime p.2)
    (some_ue : ues ≠ []) :
    ∃ summary, s.finish label seed = some summary ∧ summary.TotalsOf simTime ues := by
  have length : rs.length = ues.length := by
    have length := congrArg List.length same
    rwa [List.length_map, List.length_map, List.length_zipIdx] at length
  have positive := List.length_pos_iff.mpr some_ue
  have reported : ∀ r ∈ rs, r.mr ≠ "NA".toList ∧ r.mr ≠ [] := by
    intro r member
    have row : r.printed ∈ rs.map UeRecord.printed := List.mem_map_of_mem member
    rw [same] at row
    obtain ⟨p, -, written⟩ := List.mem_map.mp row
    have mr : r.mr = showNat p.1.info.choNtnStats.totalReports :=
      (congrArg PrintedRow.mr written).symm
    rw [mr]
    refine ⟨fun na => ?_, showNat_ne_nil _⟩
    have member : 'N' ∈ showNat p.1.info.choNtnStats.totalReports := by
      rw [na]
      decide +kernel
    exact absurd (isDigit_of_mem_showNat member) (by decide)
  obtain ⟨mr, have_mr⟩ := counted.mr reported
  have have_mr := have_mr (List.length_pos_iff.mp (by omega))
  unfold Awk.finish
  rw [if_neg (by rw [counted.ueCount]; omega)]
  refine ⟨_, rfl, ?_, ?_, ?_, ?_, ?_⟩
  · change showFixed 3 s.sumHoOk = _
    rw [counted.hoOk]
    exact congrArg (showFixed 3)
      (sum_records same PrintedRow.hoOk fun i ue => readNumber_showNat _)
  · change showFixed 3 s.sumHoFail = _
    rw [counted.hoFail]
    exact congrArg (showFixed 3)
      (sum_records same PrintedRow.hoFail fun i ue => readNumber_showNat _)
  · change (if s.haveMr = true then showFixed 3 s.sumMr else "NA".toList) = _
    rw [if_pos have_mr, mr]
    exact congrArg (showFixed 3) (sum_records same PrintedRow.mr fun i ue => readNumber_showNat _)
  · change showFixed 3 s.sumTput = _
    rw [counted.tput]
    exact congrArg (showFixed 3)
      (sum_records same PrintedRow.tput fun i ue => readNumber_showFixed two_pos _)
  · change showFixed 3 (s.sumLatency / s.ueCount) = _
    rw [counted.latency, counted.ueCount, length]
    exact congrArg (fun sum : ℚ => showFixed 3 (sum / ues.length))
      (sum_records same PrintedRow.latency fun i ue => readNumber_showFixed two_pos _)

section RoundTrip

variable {before : List (List Char)} {simTime : ℚ} {ues : List TableUe}

/-- The records show the rows exactly when every row fits. -/
theorem records_iff_fits (label seed : List Char) (untitled : ∀ line ∈ before, ¬title <:+: line)
    (named : ∀ ue ∈ ues, ue.Named) :
    ((parseLog label seed (before ++ table simTime ues)).1.map UeRecord.printed =
        ues.zipIdx.map fun p => p.1.printed simTime p.2) ↔
      ∀ i (ue : TableUe), ues[i]? = some ue → ue.Fits simTime i := by
  obtain ⟨s, parsed, counted⟩ := parse_table label seed untitled simTime ues
  have records : (parseLog label seed (before ++ table simTime ues)).1 = _ :=
    (congrArg Awk.records parsed).trans counted.records
  rw [records, map_filterMap_eq_iff]
  constructor
  · intro rows i ue at_i
    obtain ⟨r, record, same⟩ := rows (ue, i) (List.mk_mem_zipIdx_iff_getElem?.mpr at_i)
    exact fits_of_recordOf (named ue (List.mem_of_getElem? at_i)) record same
  · rintro fits ⟨ue, i⟩ member
    have at_i := List.mk_mem_zipIdx_iff_getElem?.mp member
    exact recordOf_fits (named ue (List.mem_of_getElem? at_i)) (fits i ue at_i)

/-- **The round trip of the report table.** The reader yields one record for each UE of the table, in
order and with the printed counters and metrics, and the sums of these, exactly when the table has a
row and every row fits: each text that another column follows is shorter than its column. -/
theorem table_read_back_iff (label seed : List Char) {before : List (List Char)}
    (untitled : ∀ line ∈ before, ¬title <:+: line) (simTime : ℚ) {ues : List TableUe}
    (named : ∀ ue ∈ ues, ue.Named) :
    ReadsBack label seed (before ++ table simTime ues) simTime ues ↔
      ues ≠ [] ∧ ∀ i (ue : TableUe), ues[i]? = some ue → ue.Fits simTime i := by
  obtain ⟨s, parsed, counted⟩ := parse_table label seed untitled simTime ues
  have records : (parseLog label seed (before ++ table simTime ues)).1 = _ :=
    (congrArg Awk.records parsed).trans counted.records
  have finish : (parseLog label seed (before ++ table simTime ues)).2 = s.finish label seed :=
    congrArg (Awk.finish label seed) parsed
  constructor
  · rintro ⟨same, summary, finished, -⟩
    refine ⟨?_, (records_iff_fits label seed untitled named).mp same⟩
    rintro rfl
    -- without a row there is no summary
    rw [finish] at finished
    unfold Awk.finish at finished
    rw [if_pos (show s.ueCount = 0 from counted.ueCount)] at finished
    cases finished
  · rintro ⟨some_ue, fits⟩
    have same := (records_iff_fits label seed untitled named).mpr fits
    refine ⟨same, ?_⟩
    rw [records] at same
    rw [finish]
    exact totalsOf_records counted same some_ue

end RoundTrip

def sampleTableUe : TableUe where
  info := { initialUe crossing 0 ⟨24.79, 121, "Rural"⟩ with
    choNtnStats := { totalReports := 3, successfulHandovers := 2 } }
  groupName := "Hsinchu"
  numUsers := 40
  flow := { txPackets := 1000, rxPackets := 998, rxBytes := 510976, delayMsTotal := 7485
            firstTxTime := 1, lastRxTime := 59 }

theorem named_sampleTableUe : sampleTableUe.Named :=
  ⟨.of_all (by decide +kernel) (by decide +kernel), .of_all (by decide +kernel) (by decide +kernel)⟩

theorem table_read_back_iff_two :
    ReadsBack "TDCHO".toList "1".toList
      (["Overall PDR: 99.8%".toList] ++ table 60 [sampleTableUe, sampleTableUe]) 60
      [sampleTableUe, sampleTableUe] := by
  have fits : ∀ i < 2, sampleTableUe.Fits 60 i := by
    intro i small
    exact
      { index := by omega
        numUsers := by decide +kernel
        lat := by decide +kernel
        lon := by decide +kernel
        hoOk := by decide +kernel
        hoFail := by decide +kernel
        mr := by decide +kernel
        pdr := by decide +kernel
        tput := by decide +kernel }
  refine (table_read_back_iff _ _ (by decide +kernel) 60 ?_).mpr ⟨by simp, ?_⟩
  · intro ue member
    have same : ue = sampleTableUe := by simpa using member
    exact same ▸ named_sampleTableUe
  · intro i ue at_i
    have same : ue = sampleTableUe := by simpa using List.mem_of_getElem? at_i
    have small : i < 2 := (List.getElem?_eq_some_iff.mp at_i).1
    exact same ▸ fits i small

/-- The label of the UE 100 fills its column: the row of the UE 100 is skipped. -/
theorem table_misread :
    (∀ ue ∈ List.replicate 101 sampleTableUe, ue.Named) ∧
      ¬ReadsBack "TDCHO".toList "1".toList
        (["Overall PDR: 99.8%".toList] ++ table 60 (List.replicate 101 sampleTableUe)) 60
        (List.replicate 101 sampleTableUe) := by
  have named : ∀ ue ∈ List.replicate 101 sampleTableUe, ue.Named := by
    intro ue member
    obtain ⟨-, rfl⟩ := List.mem_replicate.mp member
    exact named_sampleTableUe
  refine ⟨named, fun reads => ?_⟩
  have fits := (records_iff_fits _ _ (by decide +kernel) named).mp reads.records
  exact absurd (fits 100 sampleTableUe rfl).index (by decide)

end NtnCho.Report
