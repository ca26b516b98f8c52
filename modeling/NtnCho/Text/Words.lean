import Mathlib.Data.List.Basic
import Mathlib.Data.List.DropRight

/-!
# Words of a line

The pieces of a line between white space, and lines that are laid out in columns. A column that its
text fills has no space after it: its text and that of the next column are one word.
-/

namespace Text

/-- `[[:space:]]` -/
def isSpace (c : Char) : Bool := c == ' ' || (9 ≤ c.toNat && c.toNat ≤ 13)

/-- The pieces between runs of white space. -/
def words (line : List Char) : List (List Char) := (line.splitOnP isSpace).filter (· ≠ [])

/-- The line without the white space at either end. -/
def trim (line : List Char) : List Char := (line.dropWhile isSpace).rdropWhile isSpace

/-- What stands before the first white space. -/
def firstWord (line : List Char) : List Char := line.takeWhile (!isSpace ·)

/-- `std::left << std::setw(width) << text` -/
def padRight (width : ℕ) (text : List Char) : List Char :=
  text ++ List.replicate (width - text.length) ' '

/-- Columns side by side, each with its width. -/
def layout (cells : List (ℕ × List Char)) : List Char :=
  cells.flatMap fun cell => padRight cell.1 cell.2

example : words (layout [(4, ['a']), (2, ['b', 'c']), (3, ['d'])]) = [['a'], ['b', 'c', 'd']] := by
  decide +kernel

structure IsWord (text : List Char) : Prop where
  ne_nil : text ≠ []
  solid : ∀ c ∈ text, isSpace c = false

/-- A text is seen to be a word. -/
theorem IsWord.of_all {text : List Char} (ne_nil : text.isEmpty = false)
    (solid : (text.all fun c => !isSpace c) = true) : IsWord text where
  ne_nil := by
    rintro rfl
    cases ne_nil
  solid c member := by simpa using List.all_eq_true.mp solid c member

/-! ## Words -/

theorem words_nil : words [] = [] := rfl

theorem words_append_space {c : Char} (space : isSpace c = true) (front rest : List Char) :
    words (front ++ c :: rest) = words front ++ words rest := by
  unfold words
  rw [List.splitOnP_append_cons front rest space, List.filter_append]

theorem words_cons_space {c : Char} (space : isSpace c = true) (rest : List Char) :
    words (c :: rest) = words rest := words_append_space space [] rest

theorem words_of_isWord {text : List Char} (word : IsWord text) : words text = [text] := by
  unfold words
  rw [List.splitOnP_eq_singleton word.solid]
  exact List.filter_eq_self.mpr fun piece member => by
    obtain rfl := List.mem_singleton.mp member
    exact decide_eq_true word.ne_nil

theorem words_spaces {spaces : List Char} (all : ∀ c ∈ spaces, isSpace c = true) :
    words spaces = [] := by
  induction spaces with
  | nil => exact words_nil
  | cons c spaces ih =>
      rw [words_cons_space (all c (List.mem_cons_self ..))]
      exact ih fun d member => all d (List.mem_cons_of_mem c member)

theorem words_append_spaces (front : List Char) {spaces : List Char}
    (all : ∀ c ∈ spaces, isSpace c = true) : words (front ++ spaces) = words front := by
  cases spaces with
  | nil => rw [List.append_nil]
  | cons c spaces =>
      rw [words_append_space (all c (List.mem_cons_self ..)),
        words_spaces fun d member => all d (List.mem_cons_of_mem c member), List.append_nil]

theorem words_spaces_append {spaces : List Char} (all : ∀ c ∈ spaces, isSpace c = true)
    (rest : List Char) : words (spaces ++ rest) = words rest := by
  induction spaces with
  | nil => rfl
  | cons c spaces ih =>
      rw [List.cons_append, words_cons_space (all c (List.mem_cons_self ..))]
      exact ih fun d member => all d (List.mem_cons_of_mem c member)

/-- A line's words are its first word and those of the rest. -/
theorem words_eq_firstWord {c : Char} {rest : List Char} (solid : isSpace c = false) :
    words (c :: rest) =
      firstWord (c :: rest) :: words ((c :: rest).dropWhile (!isSpace ·)) := by
  have word : IsWord (firstWord (c :: rest)) := by
    constructor
    · simp [firstWord, solid]
    · intro d member
      simpa using List.mem_takeWhile_imp member
  have split := List.takeWhile_append_dropWhile (p := (!isSpace ·)) (l := c :: rest)
  cases dropped : (c :: rest).dropWhile (!isSpace ·) with
  | nil =>
      rw [dropped, List.append_nil] at split
      have whole : firstWord (c :: rest) = c :: rest := split
      rw [whole] at word ⊢
      rw [words_of_isWord word, words_nil]
  | cons d rest' =>
      have space : isSpace d = true := by
        have stop := List.head?_dropWhile_not (!isSpace ·) (c :: rest)
        rw [dropped] at stop
        simpa using stop
      rw [dropped] at split
      conv_lhs => rw [← split]
      rw [words_append_space space, words_cons_space space]
      change words (firstWord (c :: rest)) ++ _ = _
      rw [words_of_isWord word]
      rfl

theorem words_trim (line : List Char) : words (trim line) = words line := by
  have front : words (line.dropWhile isSpace) = words line := by
    conv_rhs => rw [← List.takeWhile_append_dropWhile (p := isSpace) (l := line)]
    exact (words_spaces_append (fun c member => List.mem_takeWhile_imp member) _).symm
  rw [← front]
  conv_rhs => rw [← List.rdropWhile_append_rtakeWhile (p := isSpace) (l := line.dropWhile isSpace)]
  exact (words_append_spaces _ fun c member => List.mem_rtakeWhile_imp member).symm

/-- The first word of a line is what a trimmed line starts with. -/
theorem firstWord_trim {line word : List Char} (head : (words line).head? = some word) :
    firstWord (trim line) = word := by
  rw [← words_trim] at head
  cases trimmed : trim line with
  | nil => rw [trimmed] at head; cases head
  | cons c rest =>
      have solid : isSpace c = false := by
        obtain ⟨rest', dropped⟩ : trim line <+: line.dropWhile isSpace := List.rdropWhile_prefix ..
        have stop := List.head?_dropWhile_not isSpace line
        rw [← dropped, trimmed] at stop
        simpa using stop
      rw [trimmed, words_eq_firstWord solid] at head
      exact Option.some.inj head

/-! ## Columns -/

theorem words_append_le {text : List Char} (solid : ∀ c ∈ text, isSpace c = false)
    (rest : List Char) : (words (text ++ rest)).length ≤ (words rest).length + 1 := by
  have pieces : (text ++ rest).splitOnP isSpace =
      (rest.splitOnP isSpace).modifyHead (text ++ ·) := by
    induction text with
    | nil => rw [List.nil_append]; cases rest.splitOnP isSpace <;> rfl
    | cons c text ih =>
        have later : ∀ d ∈ text, isSpace d = false := fun d member =>
          solid d (List.mem_cons_of_mem c member)
        rw [List.cons_append, List.splitOnP_cons_eq_if_modifyHead, ih later,
          solid c (List.mem_cons_self ..)]
        cases rest.splitOnP isSpace <;> rfl
  unfold words
  rw [pieces]
  cases rest.splitOnP isSpace with
  | nil => simp
  | cons piece more =>
      have shorter : (more.filter (· ≠ [])).length ≤ ((piece :: more).filter (· ≠ [])).length :=
        (List.Sublist.filter _ (List.sublist_cons_self piece more)).length_le
      have longer : (((text ++ piece) :: more).filter (· ≠ [])).length ≤
          (more.filter (· ≠ [])).length + 1 := by
        rw [List.filter_cons]
        split <;> simp
      exact longer.trans (Nat.add_le_add_right shorter 1)

theorem isSpace_of_mem_padding {n : ℕ} {c : Char} (member : c ∈ List.replicate n ' ') :
    isSpace c = true := by
  rw [(List.mem_replicate.mp member).2]
  rfl

/-- A column that its text does not fill ends the word. -/
theorem words_padRight_append {width : ℕ} {text : List Char} (word : IsWord text)
    (fits : text.length < width) (rest : List Char) :
    words (padRight width text ++ rest) = text :: words rest := by
  obtain ⟨padding, more⟩ := Nat.exists_eq_add_of_lt fits
  have spaces : width - text.length = padding + 1 := by omega
  unfold padRight
  rw [spaces, List.replicate_succ, List.append_assoc, List.cons_append, words_append_space rfl,
    words_of_isWord word, words_spaces_append fun c => isSpace_of_mem_padding]
  rfl

/-- The columns are read back as they were written, when each but the last has a space left. -/
theorem words_layout {cells : List (ℕ × List Char)} (word : ∀ cell ∈ cells, IsWord cell.2)
    (fits : ∀ cell ∈ cells.dropLast, cell.2.length < cell.1) :
    words (layout cells) = cells.map Prod.snd := by
  induction cells with
  | nil => exact words_nil
  | cons cell cells ih =>
      have this := word cell (List.mem_cons_self ..)
      cases cells with
      | nil =>
          change words (padRight cell.1 cell.2 ++ []) = [cell.2]
          rw [List.append_nil, padRight, words_append_spaces _ fun c => isSpace_of_mem_padding,
            words_of_isWord this]
      | cons next cells =>
          have rest := ih (fun c member => word c (List.mem_cons_of_mem cell member))
            (fun c member => fits c (List.mem_cons_of_mem cell member))
          change words (padRight cell.1 cell.2 ++ layout (next :: cells)) = _
          rw [words_padRight_append this (fits cell (List.mem_cons_self ..)), rest]
          rfl

theorem length_words_padRight_append (width : ℕ) {text : List Char} (word : IsWord text)
    (rest : List Char) :
    (words (padRight width text ++ rest)).length ≤ (words rest).length + 1 := by
  have le := words_append_le word.solid (List.replicate (width - text.length) ' ' ++ rest)
  rw [words_spaces_append fun c => isSpace_of_mem_padding] at le
  unfold padRight
  rwa [List.append_assoc]

theorem length_words_layout {cells : List (ℕ × List Char)} (word : ∀ cell ∈ cells, IsWord cell.2) :
    (words (layout cells)).length ≤ cells.length := by
  induction cells with
  | nil => exact Nat.le_refl 0
  | cons cell cells ih =>
      have le := length_words_padRight_append cell.1 (word cell (List.mem_cons_self ..))
        (layout cells)
      have rest := ih fun c member => word c (List.mem_cons_of_mem cell member)
      exact le.trans (Nat.add_le_add_right rest 1)

/-- A full column before the last joins two words. -/
theorem length_words_layout_lt {cells : List (ℕ × List Char)}
    (word : ∀ cell ∈ cells, IsWord cell.2)
    (full : ∃ cell ∈ cells.dropLast, cell.1 ≤ cell.2.length) :
    (words (layout cells)).length < cells.length := by
  induction cells with
  | nil => obtain ⟨cell, member, -⟩ := full; cases member
  | cons cell cells ih =>
      have this := word cell (List.mem_cons_self ..)
      have later : ∀ c ∈ cells, IsWord c.2 := fun c member => word c (List.mem_cons_of_mem cell member)
      cases cells with
      | nil => obtain ⟨cell', member, -⟩ := full; cases member
      | cons next cells =>
          obtain ⟨cell', member, filled⟩ := full
          rcases List.mem_cons.mp member with rfl | member
          · -- the text runs into that of the next column
            have glued : ∀ c ∈ cell'.2 ++ next.2, isSpace c = false := by
              intro c member
              rcases List.mem_append.mp member with here | there
              · exact this.solid c here
              · exact (later next (List.mem_cons_self ..)).solid c there
            have le := words_append_le glued
              (List.replicate (next.1 - next.2.length) ' ' ++ layout cells)
            rw [words_spaces_append fun c => isSpace_of_mem_padding] at le
            have rest := length_words_layout fun c member => later c (List.mem_cons_of_mem next member)
            have no_padding : cell'.1 - cell'.2.length = 0 := Nat.sub_eq_zero_of_le filled
            have line : layout (cell' :: next :: cells) = cell'.2 ++ next.2 ++
                (List.replicate (next.1 - next.2.length) ' ' ++ layout cells) := by
              simp [layout, padRight, no_padding]
            rw [line]
            simp only [List.length_cons]
            omega
          · have le := length_words_padRight_append cell.1 this (layout (next :: cells))
            have rest := ih later ⟨cell', member, filled⟩
            exact le.trans_lt (Nat.add_lt_add_right rest 1)

end Text
