import NtnCho.Text.Csv
import NtnCho.Text.Number

/-!
# Texts in Python

The functions on strings and files that Python scripts read logs with.
-/

namespace Text

open Frames

/-- A property of the characters of a text is decided on the text, not on all characters. -/
instance (priority := high) decidableForallMem (text : List Char) (p : Char → Prop) [DecidablePred p] :
    Decidable (∀ c ∈ text, p c) := List.decidableBAll p text

instance (priority := high) decidableForallNext (next : Option Char) (p : Char → Prop) [DecidablePred p] :
    Decidable (∀ c ∈ next, p c) := Option.decidableForallMem next

/-- The white space above ASCII. -/
def wideSpaces : List Char :=
  ['\u0085', '\u00a0', '\u1680', '\u2000', '\u2001', '\u2002', '\u2003', '\u2004', '\u2005', '\u2006',
    '\u2007', '\u2008', '\u2009', '\u200a', '\u2028', '\u2029', '\u202f', '\u205f', '\u3000']

/-- The white space of `str.strip` and of `\s`. -/
def isPySpace (c : Char) : Bool :=
  (9 ≤ c.toNat && c.toNat ≤ 13) || (28 ≤ c.toNat && c.toNat ≤ 32) || wideSpaces.contains c

/-- `str.strip` -/
def strip (text : List Char) : List Char := (text.dropWhile isPySpace).rdropWhile isPySpace

/-- A boundary of `str.splitlines`. -/
def isLineBreak (c : Char) : Bool :=
  (10 ≤ c.toNat && c.toNat ≤ 13) || (28 ≤ c.toNat && c.toNat ≤ 30) ||
    ['\u0085', '\u2028', '\u2029'].contains c

/-- The lines of a text of which `line` has been read. -/
def splitlinesFrom (line : List Char) : List Char → List (List Char)
  | [] => if line = [] then [] else [line]
  | '\r' :: '\n' :: rest => line :: splitlinesFrom [] rest
  | c :: rest =>
      if isLineBreak c then line :: splitlinesFrom [] rest else splitlinesFrom (line ++ [c]) rest

/-- `str.splitlines` -/
def splitlines (text : List Char) : List (List Char) := splitlinesFrom [] text

example : splitlines "a\r\n\nb".toList = [['a'], [], ['b']] := by decide +kernel

/-- The lines of an open text file of which `line` has been read, without their ends. -/
def fileLinesFrom (line : List Char) : List Char → List (List Char)
  | [] => if line = [] then [] else [line]
  | '\r' :: '\n' :: rest => line :: fileLinesFrom [] rest
  | c :: rest =>
      if c = '\n' ∨ c = '\r' then line :: fileLinesFrom [] rest else fileLinesFrom (line ++ [c]) rest

/-- The lines of an open text file. -/
def fileLines (text : List Char) : List (List Char) := fileLinesFrom [] text

/-- A number without its sign. -/
def unsigned : List Char → List Char
  | '-' :: text => text
  | '+' :: text => text
  | text => text

def isDigits (text : List Char) : Bool := !text.isEmpty && text.all Char.isDigit

/-- Nothing, or an exponent. -/
def isExponent : List Char → Bool
  | [] => true
  | e :: rest => (e == 'e' || e == 'E') && isDigits (unsigned rest)

/-- The decimal numbers that `float` reads. -/
def isFloat (text : List Char) : Bool :=
  let body := unsigned text
  let whole := body.takeWhile Char.isDigit
  match body.dropWhile Char.isDigit with
  | '.' :: rest =>
      isDigits (whole ++ rest.takeWhile Char.isDigit) && isExponent (rest.dropWhile Char.isDigit)
  | rest => isDigits whole && isExponent rest

/-! ## The lines of a text -/

theorem splitlinesFrom_append {line : List Char} (clean : ∀ c ∈ line, isLineBreak c = false)
    (taken rest : List Char) :
    splitlinesFrom taken (line ++ rest) = splitlinesFrom (taken ++ line) rest := by
  induction line generalizing taken with
  | nil => rw [List.nil_append, List.append_nil]
  | cons c line ih =>
      obtain ⟨inside, clean⟩ := List.forall_mem_cons.mp clean
      rw [List.cons_append, splitlinesFrom, inside, if_neg Bool.false_ne_true, ih clean,
        List.append_assoc, List.singleton_append]
      rintro rest rfl -
      cases inside

/-- Lines without boundaries in them are split from their text. -/
theorem splitlines_unlines {lines : List (List Char)}
    (clean : ∀ line ∈ lines, ∀ c ∈ line, isLineBreak c = false) : splitlines (unlines lines) = lines := by
  induction lines with
  | nil => rfl
  | cons line lines ih =>
      obtain ⟨first, clean⟩ := List.forall_mem_cons.mp clean
      have split : unlines (line :: lines) = line ++ '\n' :: unlines lines := by simp [unlines]
      have rest : splitlinesFrom [] (unlines lines) = lines := ih clean
      rw [splitlines, split, splitlinesFrom_append first, List.nil_append, splitlinesFrom,
        if_pos (by decide), rest]
      exact fun _ same _ => by cases same

/-- A line of a file has no line break in it. -/
theorem newline_notMem_fileLines {text line : List Char} (member : line ∈ fileLines text) :
    '\n' ∉ line := by
  have scan : ∀ taken : List Char, '\n' ∉ taken → ∀ line ∈ fileLinesFrom taken text, '\n' ∉ line := by
    clear member
    intro taken
    induction taken, text using fileLinesFrom.induct with
    | case1 => simp [fileLinesFrom]
    | case2 taken filled =>
        intro clean line member
        rw [fileLinesFrom, if_neg filled, List.mem_singleton] at member
        rwa [member]
    | case3 taken rest ih =>
        intro clean line member
        rw [fileLinesFrom] at member
        rcases List.mem_cons.mp member with rfl | later
        · exact clean
        · exact ih (by simp) line later
    | case4 taken c rest notBoth ends ih =>
        intro clean line member
        rw [fileLinesFrom, if_pos ends] at member
        · rcases List.mem_cons.mp member with rfl | later
          · exact clean
          · exact ih (by simp) line later
        · exact notBoth
    | case5 taken c rest notBoth inside ih =>
        intro clean line member
        rw [fileLinesFrom, if_neg inside] at member
        · refine ih ?_ line member
          simp only [List.mem_append, List.mem_singleton, not_or]
          exact ⟨clean, fun same => inside (.inl same.symm)⟩
        · exact notBoth
  exact scan [] (by simp) line member

theorem fileLinesFrom_append {line : List Char} (newline : '\n' ∉ line) (carriageReturn : '\r' ∉ line)
    (taken rest : List Char) :
    fileLinesFrom taken (line ++ rest) = fileLinesFrom (taken ++ line) rest := by
  induction line generalizing taken with
  | nil => rw [List.nil_append, List.append_nil]
  | cons c line ih =>
      simp only [List.mem_cons, not_or] at newline carriageReturn
      have inside : ¬ (c = '\n' ∨ c = '\r') :=
        not_or.mpr ⟨Ne.symm newline.1, Ne.symm carriageReturn.1⟩
      rw [List.cons_append, fileLinesFrom, if_neg inside, ih newline.2 carriageReturn.2,
        List.append_assoc, List.singleton_append]
      exact fun _ same _ => carriageReturn.1 same.symm

/-- Lines without breaks in them are the lines of their text. -/
theorem fileLines_unlines {lines : List (List Char)}
    (clean : ∀ line ∈ lines, '\n' ∉ line ∧ '\r' ∉ line) : fileLines (unlines lines) = lines := by
  induction lines with
  | nil => rfl
  | cons line lines ih =>
      obtain ⟨⟨newline, carriageReturn⟩, clean⟩ := List.forall_mem_cons.mp clean
      have split : unlines (line :: lines) = line ++ '\n' :: unlines lines := by simp [unlines]
      have rest : fileLinesFrom [] (unlines lines) = lines := ih clean
      rw [fileLines, split, fileLinesFrom_append newline carriageReturn, List.nil_append,
        fileLinesFrom, if_pos (.inl rfl), rest]
      exact fun _ same _ => by cases same

/-! ## Lines among others -/

/-- The lines in their order, with quiet ones in between. -/
inductive Among (quiet : List Char → Prop) : List (List Char) → List (List Char) → Prop
  | nil : Among quiet [] []
  | line {lines text : List (List Char)} (line : List Char) (rest : Among quiet lines text) :
      Among quiet (line :: lines) (line :: text)
  | quiet {lines text : List (List Char)} {line : List Char} (silent : quiet line)
      (rest : Among quiet lines text) : Among quiet lines (line :: text)

/-- A reader that passes over the quiet lines reads the others. -/
theorem Among.foldlM {σ : Type} {quiet : List Char → Prop} {read : σ → List Char → Option σ}
    (passes : ∀ s line, quiet line → read s line = some s) {lines text : List (List Char)}
    (among : Among quiet lines text) (s : σ) : text.foldlM read s = lines.foldlM read s := by
  induction among generalizing s with
  | nil => rfl
  | line line rest ih =>
      rw [List.foldlM_cons, List.foldlM_cons]
      exact bind_congr fun s' => ih s'
  | @quiet lines text line silent rest ih =>
      rw [List.foldlM_cons, passes s line silent]
      exact ih s

theorem among_self (quiet : List Char → Prop) (lines : List (List Char)) : Among quiet lines lines := by
  induction lines with
  | nil => exact .nil
  | cons line lines ih => exact .line line ih

theorem Among.subset {quiet : List Char → Prop} {lines text : List (List Char)}
    (among : Among quiet lines text) : ∀ line ∈ lines, line ∈ text := by
  induction among with
  | nil => exact fun line member => member
  | line line rest ih =>
      intro other member
      rcases List.mem_cons.mp member with rfl | later
      · exact List.mem_cons_self
      · exact List.mem_cons_of_mem _ (ih other later)
  | quiet silent rest ih => exact fun other member => List.mem_cons_of_mem _ (ih other member)

/-! ## White space at the ends -/

theorem isPySpace_of_isDigit {c : Char} (digit : c.isDigit = true) : isPySpace c = false := by
  have bounds := toNat_of_isDigit digit
  have narrow : wideSpaces.contains c = false := by
    rw [Bool.eq_false_iff]
    intro member
    have wide : ∀ d ∈ wideSpaces, 57 < d.toNat := by decide
    have high := wide c (List.contains_iff_mem.mp member)
    omega
  simp only [isPySpace, narrow, Bool.or_false, Bool.or_eq_false_iff, Bool.and_eq_false_iff,
    decide_eq_false_iff_not]
  omega

theorem strip_spaces_append {spaces : List Char} (all : ∀ c ∈ spaces, isPySpace c = true)
    (text : List Char) : strip (spaces ++ text) = strip text := by
  unfold strip
  rw [List.dropWhile_append_of_pos all]

theorem strip_append_spaces {spaces : List Char} (all : ∀ c ∈ spaces, isPySpace c = true)
    (text : List Char) : strip (text ++ spaces) = strip text := by
  unfold strip
  rw [List.dropWhile_append]
  split
  · rename_i empty
    rw [List.isEmpty_iff.mp empty, List.dropWhile_eq_nil_iff.mpr all]
  · induction spaces using List.reverseRecOn with
    | nil => rw [List.append_nil]
    | append_singleton spaces c ih =>
        rw [← List.append_assoc, List.rdropWhile_concat_pos _ _ _ (all c (by simp))]
        exact ih fun d member => all d (List.mem_append_left _ member)

theorem rdropWhile_append_of_neg {α : Type*} {p : α → Bool} {a : α} (neg : p a = false) (front rest : List α) :
    (front ++ a :: rest).rdropWhile p = front ++ a :: rest.rdropWhile p := by
  induction rest using List.reverseRecOn with
  | nil =>
      rw [List.rdropWhile_concat_neg _ _ _ (by simp [neg]), List.rdropWhile_nil]
  | append_singleton rest b ih =>
      rw [← List.cons_append, ← List.append_assoc]
      by_cases drop : p b
      · rw [List.rdropWhile_concat_pos _ _ _ drop, ih, List.rdropWhile_concat_pos _ _ _ drop]
      · rw [List.rdropWhile_concat_neg _ _ _ drop, List.rdropWhile_concat_neg _ _ _ drop]
        simp

/-- White space is left inside a text. -/
theorem strip_of_ends {text : List Char} (first : ∀ c ∈ text.head?, isPySpace c = false)
    (last : ∀ c ∈ text.getLast?, isPySpace c = false) : strip text = text := by
  have front : text.dropWhile isPySpace = text := by
    cases text with
    | nil => rfl
    | cons c rest => exact List.dropWhile_cons_of_neg (by simp [first c rfl])
  unfold strip
  rw [front, List.rdropWhile_eq_self_iff]
  intro some_char
  simp [last _ (List.getLast?_eq_getLast_of_ne_nil some_char)]

theorem strip_of_solid {text : List Char} (solid : ∀ c ∈ text, isPySpace c = false) :
    strip text = text :=
  strip_of_ends (fun c head => solid c (List.mem_of_mem_head? head))
    fun c last => solid c (List.mem_of_mem_getLast? last)

/-! ## Printed numbers -/

theorem isFloat_digits {whole decimals : List Char} (some_digit : whole ≠ [])
    (wholeDigits : ∀ c ∈ whole, c.isDigit = true) (decimalDigits : ∀ c ∈ decimals, c.isDigit = true)
    {text : List Char} (body : unsigned text = whole ++ '.' :: decimals) : isFloat text = true := by
  have point : ∀ c ∈ ('.' :: decimals).head?, c.isDigit = false := by
    intro c head
    obtain rfl := Option.some.inj head
    rfl
  obtain ⟨taken, dropped⟩ := takeWhile_digits wholeDigits point
  unfold isFloat
  rw [body]
  dsimp only
  rw [taken, dropped]
  change (isDigits (whole ++ decimals.takeWhile Char.isDigit) &&
    isExponent (decimals.dropWhile Char.isDigit)) = true
  rw [List.takeWhile_eq_self_iff.mpr decimalDigits, List.dropWhile_eq_nil_iff.mpr decimalDigits]
  simp only [isDigits, isExponent, Bool.and_true, Bool.and_eq_true, Bool.not_eq_true',
    List.all_eq_true, List.mem_append]
  refine ⟨by simp [some_digit], fun c member => ?_⟩
  exact member.elim (wholeDigits c) (decimalDigits c)

theorem unsigned_of_digit {text : List Char} (digit : ∀ c ∈ text.head?, c.isDigit = true) :
    unsigned text = text := by
  unfold unsigned
  split
  · exact absurd (digit '-' rfl) (by decide)
  · exact absurd (digit '+' rfl) (by decide)
  · rfl

theorem isFloat_showNat (n : ℕ) : isFloat (showNat n) = true := by
  have digits : ∀ c ∈ showNat n, c.isDigit = true := fun c => isDigit_of_mem_showNat
  unfold isFloat
  rw [unsigned_of_digit fun c head => digits c (List.mem_of_mem_head? head)]
  dsimp only
  rw [List.takeWhile_eq_self_iff.mpr digits, List.dropWhile_eq_nil_iff.mpr digits]
  simpa [isDigits, isExponent, showNat_ne_nil] using digits

theorem isFloat_showFixed (precision : ℕ) (x : ℚ) : isFloat (showFixed precision x) = true := by
  refine isFloat_digits (showNat_ne_nil (scaled precision x / 10 ^ precision))
    (fun c => isDigit_of_mem_showNat)
    (fun c => @isDigit_of_mem_showDecimals precision (scaled precision x % 10 ^ precision) c) ?_
  unfold showFixed
  split
  · rfl
  · refine unsigned_of_digit fun c head => ?_
    rw [List.nil_append, List.head?_append_of_ne_nil _ (showNat_ne_nil _)] at head
    exact isDigit_of_mem_showNat (List.mem_of_mem_head? head)

theorem isPySpace_of_mem_showFixed {precision : ℕ} {x : ℚ} {c : Char} (member : c ∈ showFixed precision x) :
    isPySpace c = false := by
  rcases mem_showFixed member with digit | rfl | rfl
  · exact isPySpace_of_isDigit digit
  · rfl
  · rfl

end Text
