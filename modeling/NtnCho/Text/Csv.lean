import Mathlib.Data.List.Basic
import Mathlib.Data.List.Nodup
import NtnCho.Text.Number

/-!
# CSV texts

`splitCsvLine` splits a line at its commas, outside of quotes, and `parseCsv` reads a text into rows that
are keyed by the first line. A text of plain fields, without commas, quotes and line breaks, is read back
field by field, and so is a text that grows line by line and is read in between.
-/

namespace Text

/-- The loop of `splitCsvLine`: the fields so far, the current one, and whether it is quoted. -/
def splitCsvScan (out : List (List Char)) (cur : List Char) (inQuotes : Bool) :
    List Char → List (List Char)
  | [] => out ++ [cur]
  | ch :: rest =>
      if ch = '"' then
        match inQuotes, rest with
        | true, '"' :: rest => splitCsvScan out (cur ++ ['"']) true rest
        | _, rest => splitCsvScan out cur (!inQuotes) rest
      else if ch = ',' ∧ inQuotes = false then splitCsvScan (out ++ [cur]) [] inQuotes rest
      else splitCsvScan out (cur ++ [ch]) inQuotes rest

/-- The fields of a line. -/
def splitCsvLine (line : List Char) : List (List Char) := splitCsvScan [] [] false line

example : splitCsvLine "a,\"b,\"\"c\",".toList = ["a".toList, "b,\"c".toList, []] := by decide +kernel

/-- A row of a text: its fields, with the names of their columns. -/
abbrev CsvRow := List (List Char × List Char)

/-- The rows below the first line, which names the columns. A field that a row lacks is empty. -/
def parseCsv (text : List Char) : List CsvRow :=
  match ((text.filter (· ≠ '\r')).splitOn '\n').filter (· ≠ []) with
  | [] => []
  | first :: rest =>
      let header := splitCsvLine first
      rest.map fun line =>
        let values := splitCsvLine line
        header.mapIdx fun index key => (key, (values[index]?).getD [])

/-- The field of a column; of two columns with one name the later one counts. -/
def CsvRow.field (row : CsvRow) (key : String) : List Char := (row.reverse.lookup key.toList).getD []

/-- A line of fields. -/
def csv (fields : List (List Char)) : List Char := [','].intercalate fields

/-- A text of lines. -/
def unlines (lines : List (List Char)) : List Char := (lines.map (· ++ ['\n'])).flatten

/-- A field that needs no quotes. -/
structure PlainField (field : List Char) : Prop where
  comma : ',' ∉ field
  quote : '"' ∉ field
  newline : '\n' ∉ field
  carriageReturn : '\r' ∉ field

instance (field : List Char) : Decidable (PlainField field) :=
  decidable_of_iff (',' ∉ field ∧ '"' ∉ field ∧ '\n' ∉ field ∧ '\r' ∉ field)
    ⟨fun ⟨comma, quote, newline, carriageReturn⟩ => ⟨comma, quote, newline, carriageReturn⟩,
      fun plain => ⟨plain.comma, plain.quote, plain.newline, plain.carriageReturn⟩⟩

/-! ## Lines -/

/-- Outside of quotes a comma ends a field, and any other character but a quote belongs to it. -/
theorem splitCsvScan_unquoted {ch : Char} (quote : ch ≠ '"') (out : List (List Char))
    (cur rest : List Char) :
    splitCsvScan out cur false (ch :: rest) =
      if ch = ',' then splitCsvScan (out ++ [cur]) [] false rest
      else splitCsvScan out (cur ++ [ch]) false rest := by
  rw [splitCsvScan.eq_def]
  simp [quote]

theorem splitCsvScan_field {field : List Char} (plain : PlainField field) (out : List (List Char))
    (cur rest : List Char) :
    splitCsvScan out cur false (field ++ rest) = splitCsvScan out (cur ++ field) false rest := by
  have comma := plain.comma
  have quote := plain.quote
  clear plain
  induction field generalizing cur with
  | nil => simp
  | cons ch field ih =>
      simp only [List.mem_cons, not_or] at comma quote
      rw [List.cons_append, splitCsvScan_unquoted (Ne.symm quote.1), if_neg (Ne.symm comma.1),
        ih _ comma.2 quote.2]
      simp

/-- Plain fields are read back from their line. -/
theorem splitCsvLine_csv {fields : List (List Char)} (plain : ∀ field ∈ fields, PlainField field)
    (some_field : fields ≠ []) : splitCsvLine (csv fields) = fields := by
  have scan : ∀ out, splitCsvScan out [] false (csv fields) = out ++ fields := by
    induction fields with
    | nil => exact absurd rfl some_field
    | cons field fields ih =>
        intro out
        have first := splitCsvScan_field (plain field List.mem_cons_self) out []
        cases fields with
        | nil => simpa [csv, splitCsvScan] using first []
        | cons next fields =>
            have line : csv (field :: next :: fields) = field ++ ',' :: csv (next :: fields) := by
              simp [csv, List.intercalate]
            have rest := ih (fun other member => plain other (List.mem_cons_of_mem _ member))
              (List.cons_ne_nil _ _) (out ++ [field])
            rw [line, first, splitCsvScan_unquoted (by decide), if_pos rfl]
            simpa using rest
  exact scan []

theorem mem_intercalate {sep c : Char} {pieces : List (List Char)}
    (member : c ∈ [sep].intercalate pieces) : c = sep ∨ ∃ piece ∈ pieces, c ∈ piece := by
  induction pieces with
  | nil => simp at member
  | cons piece pieces ih =>
      cases pieces with
      | nil => exact .inr ⟨piece, by simp, by simpa using member⟩
      | cons next pieces =>
          have line : [sep].intercalate (piece :: next :: pieces) =
              piece ++ sep :: [sep].intercalate (next :: pieces) := by
            simp [List.intercalate]
          rw [line] at member
          rcases List.mem_append.mp member with own | later
          · exact .inr ⟨piece, by simp, own⟩
          · rcases List.mem_cons.mp later with same | rest
            · exact .inl same
            · exact (ih rest).imp_right fun ⟨other, listed, own⟩ =>
                ⟨other, List.mem_cons_of_mem _ listed, own⟩

/-! ## Texts -/

theorem unlines_eq (lines : List (List Char)) : unlines lines = ['\n'].intercalate (lines ++ [[]]) := by
  induction lines with
  | nil => simp [unlines]
  | cons line lines ih =>
      have step : unlines (line :: lines) = line ++ '\n' :: unlines lines := by simp [unlines]
      rw [step, ih]
      cases lines <;> simp [List.intercalate]

/-- Lines without breaks in them are read back from their text. -/
theorem splitOn_unlines {lines : List (List Char)} (some_char : ∀ line ∈ lines, line ≠ [])
    (newline : ∀ line ∈ lines, '\n' ∉ line) (carriageReturn : ∀ line ∈ lines, '\r' ∉ line) :
    (((unlines lines).filter (· ≠ '\r')).splitOn '\n').filter (· ≠ []) = lines := by
  have kept : (unlines lines).filter (· ≠ '\r') = unlines lines := by
    refine List.filter_eq_self.mpr fun c member => ?_
    obtain ⟨_, ended, own⟩ := List.mem_flatten.mp member
    obtain ⟨line, listed, rfl⟩ := List.mem_map.mp ended
    rcases List.mem_append.mp own with own | newline
    · exact decide_eq_true fun same => carriageReturn line listed (same ▸ own)
    · rw [List.mem_singleton.mp newline]
      decide
  rw [kept, unlines_eq, List.splitOn_intercalate '\n' ?_ (by simp), List.filter_append]
  · rw [List.filter_eq_self.mpr fun line member => decide_eq_true (some_char line member)]
    simp
  · intro line member
    rcases List.mem_append.mp member with listed | last
    · exact newline line listed
    · rw [List.mem_singleton.mp last]
      exact List.not_mem_nil

/-- A text with something in its first two lines has a row, whatever else is in it. -/
theorem parseCsv_ne_nil {first second : List Char} {rest : List (List Char)} {c d : Char}
    (inFirst : c ∈ first) (inSecond : d ∈ second) (solid : c ≠ '\n' ∧ c ≠ '\r')
    (solid' : d ≠ '\n' ∧ d ≠ '\r') : parseCsv (unlines (first :: second :: rest)) ≠ [] := by
  have piece : ∀ {text : List Char} {e : Char}, e ∈ text → e ≠ '\n' ∧ e ≠ '\r' →
      ∃ piece ∈ (text.filter (· ≠ '\r')).splitOn '\n', piece ≠ [] := by
    intro text e member solid
    have kept : e ∈ ['\n'].intercalate ((text.filter (· ≠ '\r')).splitOn '\n') := by
      rw [List.intercalate_splitOn]
      exact List.mem_filter.mpr ⟨member, decide_eq_true solid.2⟩
    rcases mem_intercalate kept with newline | ⟨piece, listed, own⟩
    · exact absurd newline solid.1
    · exact ⟨piece, listed, List.ne_nil_of_mem own⟩
  have parts : (unlines (first :: second :: rest)).filter (· ≠ '\r') =
      first.filter (· ≠ '\r') ++ '\n' :: (unlines (second :: rest)).filter (· ≠ '\r') := by
    simp [unlines]
  have later : d ∈ unlines (second :: rest) := by simp [unlines, inSecond]
  obtain ⟨p, listed, some_p⟩ := piece inFirst solid
  obtain ⟨q, listed', some_q⟩ := piece later solid'
  have filled : p ∈ ((first.filter (· ≠ '\r')).splitOn '\n').filter (· ≠ []) :=
    List.mem_filter.mpr ⟨listed, decide_eq_true some_p⟩
  have filled' : q ∈ (((unlines (second :: rest)).filter (· ≠ '\r')).splitOn '\n').filter (· ≠ []) :=
    List.mem_filter.mpr ⟨listed', decide_eq_true some_q⟩
  have two : 2 ≤ ((((unlines (first :: second :: rest)).filter (· ≠ '\r')).splitOn '\n').filter
      (· ≠ [])).length := by
    rw [parts, List.splitOn_eq_splitOnP, List.splitOnP_append_cons _ _ (by simp), List.filter_append,
      List.length_append]
    rw [List.splitOn_eq_splitOnP] at filled filled'
    have one := List.length_pos_of_mem filled
    have one' := List.length_pos_of_mem filled'
    omega
  unfold parseCsv
  split
  · rename_i none
    rw [none] at two
    simp at two
  · rename_i header rows split
    rw [split] at two
    intro none
    rw [List.map_eq_nil_iff] at none
    rw [none] at two
    simp at two

section Table

variable {header : List (List Char)} {rows : List (List (List Char))}

/-- The lines of a text of plain fields below a header. -/
theorem lines_csv (plainHeader : ∀ name ∈ header, PlainField name) (some_column : 1 < header.length)
    (plain : ∀ row ∈ rows, ∀ field ∈ row, PlainField field)
    (width : ∀ row ∈ rows, row.length = header.length) :
    (((unlines (csv header :: rows.map csv)).filter (· ≠ '\r')).splitOn '\n').filter (· ≠ []) =
      csv header :: rows.map csv := by
  have long : ∀ fields : List (List Char), 1 < fields.length → csv fields ≠ [] := by
    intro fields length
    match fields, length with
    | first :: second :: rest, _ => simp [csv, List.intercalate]
  have solid : ∀ fields : List (List Char), (∀ field ∈ fields, PlainField field) →
      '\n' ∉ csv fields ∧ '\r' ∉ csv fields := by
    intro fields all
    constructor
    · intro newline
      rcases mem_intercalate newline with comma | ⟨field, listed, own⟩
      · exact absurd comma (by decide)
      · exact (all field listed).newline own
    · intro carriageReturn
      rcases mem_intercalate carriageReturn with comma | ⟨field, listed, own⟩
      · exact absurd comma (by decide)
      · exact (all field listed).carriageReturn own
  have all : ∀ line ∈ csv header :: rows.map csv, line ≠ [] ∧ '\n' ∉ line ∧ '\r' ∉ line := by
    intro line member
    rcases List.mem_cons.mp member with rfl | listed
    · exact ⟨long header some_column, solid header plainHeader⟩
    · obtain ⟨row, written, rfl⟩ := List.mem_map.mp listed
      exact ⟨long row (by rw [width row written]; exact some_column), solid row (plain row written)⟩
  exact splitOn_unlines (fun line member => (all line member).1) (fun line member => (all line member).2.1)
    fun line member => (all line member).2.2

/-- **Reading back.** A text of plain fields below a header of plain names gives its rows. -/
theorem parseCsv_unlines (plainHeader : ∀ name ∈ header, PlainField name) (some_column : 1 < header.length)
    (plain : ∀ row ∈ rows, ∀ field ∈ row, PlainField field)
    (width : ∀ row ∈ rows, row.length = header.length) :
    parseCsv (unlines (csv header :: rows.map csv)) =
      rows.map fun row => header.mapIdx fun index key => (key, (row[index]?).getD []) := by
  unfold parseCsv
  rw [lines_csv plainHeader some_column plain width]
  dsimp only
  rw [splitCsvLine_csv plainHeader (List.ne_nil_of_length_pos (by omega)), List.map_map]
  refine List.map_congr_left fun row written => ?_
  have fields := splitCsvLine_csv (plain row written)
    (List.ne_nil_of_length_pos (by rw [width row written]; omega))
  simp only [Function.comp_apply, fields]

end Table

theorem lookup_of_mem {κ α : Type*} [BEq κ] [LawfulBEq κ] {key : κ} {value : α} {entries : List (κ × α)}
    (nodup : (entries.map Prod.fst).Nodup) (member : (key, value) ∈ entries) :
    entries.lookup key = some value := by
  induction entries with
  | nil => cases member
  | cons entry entries ih =>
      rw [List.map_cons, List.nodup_cons] at nodup
      rcases List.mem_cons.mp member with rfl | later
      · simp
      · have other : (key == entry.1) = false := by
          refine beq_eq_false_iff_ne.mpr fun same => nodup.1 ?_
          rw [← same]
          exact List.mem_map_of_mem later
        rw [List.lookup_cons, other]
        exact ih nodup.2 later

/-- The field of a column under a header without repeated names. -/
theorem field_mapIdx {columns : List String} (nodup : columns.Nodup) {values : List (List Char)}
    {index : ℕ} {key : String} {value : List Char} (column : columns[index]? = some key)
    (written : values[index]? = some value) :
    CsvRow.field ((columns.map String.toList).mapIdx fun index key => (key, (values[index]?).getD []))
      key = value := by
  unfold CsvRow.field
  rw [@lookup_of_mem _ _ _ _ _ value]
  · rfl
  · have names : ((columns.map String.toList).mapIdx fun index key =>
        (key, (values[index]?).getD [])).map Prod.fst = columns.map String.toList := by
      apply List.ext_getElem <;> simp
    rw [List.map_reverse, List.nodup_reverse, names]
    exact nodup.map fun _ _ same => String.toList_inj.mp same
  · rw [List.mem_reverse, List.mem_mapIdx]
    have bound : index < columns.length := (List.getElem?_eq_some_iff.mp column).1
    refine ⟨index, by simpa using bound, ?_⟩
    simp [(List.getElem?_eq_some_iff.mp column).2, written]

/-! ## Printed numbers -/

theorem plainField_of_numeric {text : List Char}
    (numeric : ∀ c ∈ text, c.isDigit = true ∨ c = '-' ∨ c = '.') : PlainField text := by
  have other : ∀ c : Char, c.isDigit = false → c ≠ '-' → c ≠ '.' → c ∉ text := by
    intro c digit sign point member
    rcases numeric c member with yes | rfl | rfl
    · rw [digit] at yes
      cases yes
    · exact sign rfl
    · exact point rfl
  exact ⟨other _ rfl (by decide) (by decide), other _ rfl (by decide) (by decide),
    other _ rfl (by decide) (by decide), other _ rfl (by decide) (by decide)⟩

theorem plainField_showFixed (precision : ℕ) (x : ℚ) : PlainField (showFixed precision x) :=
  plainField_of_numeric fun _ => mem_showFixed

theorem plainField_showNat (n : ℕ) : PlainField (showNat n) :=
  plainField_of_numeric fun _ member => .inl (isDigit_of_mem_showNat member)

end Text
