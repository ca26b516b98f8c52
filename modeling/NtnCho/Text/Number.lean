import Mathlib.Data.Int.Log
import Mathlib.Data.List.TakeWhile
import NtnCho.Frames.Decimal
import NtnCho.Text.Words

/-!
# Numbers in texts

Numbers as a stream prints them, whole or with a fixed number of decimals, and the number that a text
starts with. What is printed reads back as the printed value.
-/

namespace Text

open Frames

/-- A whole number. -/
def showNat (n : ℕ) : List Char := Nat.toDigits 10 n

/-- A number with its sign. -/
def showInt (n : ℤ) : List Char := (if n < 0 then ['-'] else []) ++ showNat n.natAbs

/-- `x` in units of the last decimal. -/
def scaled (precision : ℕ) (x : ℚ) : ℕ := (roundHalfEven (|x| * 10 ^ precision)).toNat

/-- The last `precision` decimals of `n`, with zeros in front. -/
def showDecimals (precision n : ℕ) : List Char :=
  List.replicate (precision - (showNat n).length) '0' ++ showNat n

/-- `x` with a fixed number of decimals, at least one. -/
def showFixed (precision : ℕ) (x : ℚ) : List Char :=
  (if x < 0 then ['-'] else []) ++ (showNat (scaled precision x / 10 ^ precision) ++
    '.' :: showDecimals precision (scaled precision x % 10 ^ precision))

/-- The decimals behind the point, without the zeros at their end. -/
def showFraction (digits : List Char) : List Char :=
  match digits.rdropWhile (· == '0') with
  | [] => []
  | decimals => '.' :: decimals

/-- Six significant digits `n` of a number, the first of which stands for `10 ^ exponent`. -/
def showSignificant (n : ℕ) (exponent : ℤ) : List Char :=
  let digits := showNat n
  if exponent < -4 ∨ 6 ≤ exponent then
    digits.take 1 ++ (showFraction (digits.drop 1) ++
      'e' :: (if exponent < 0 then '-' else '+') :: showDecimals 2 exponent.natAbs)
  else if exponent < 0 then
    '0' :: showFraction (List.replicate (exponent.natAbs - 1) '0' ++ digits)
  else digits.take (exponent.natAbs + 1) ++ showFraction (digits.drop (exponent.natAbs + 1))

/-- `x` in the default format of a stream. -/
def showGeneral (x : ℚ) : List Char :=
  if x = 0 then ['0']
  else
    let exponent := Int.log 10 |x|
    let n := roundHalfEven (|x| * 10 ^ (5 - exponent))
    (if x < 0 then ['-'] else []) ++
      if n = 1000000 then showSignificant 100000 (exponent + 1)
      else showSignificant n.toNat exponent

/-- The power of ten that a text starts with, 1 when there is none. -/
def readPower : List Char → ℚ
  | [] => 1
  | e :: rest =>
      if e = 'e' ∨ e = 'E' then
        match rest with
        | '-' :: digits => (10 ^ Nat.ofDigitChars 10 (digits.takeWhile Char.isDigit) 0)⁻¹
        | '+' :: digits => 10 ^ Nat.ofDigitChars 10 (digits.takeWhile Char.isDigit) 0
        | digits => 10 ^ Nat.ofDigitChars 10 (digits.takeWhile Char.isDigit) 0
      else 1

/-- The number without a sign that a text starts with. -/
def readUnsigned (text : List Char) : ℚ :=
  let whole := text.takeWhile Char.isDigit
  match text.dropWhile Char.isDigit with
  | '.' :: rest =>
      let decimals := rest.takeWhile Char.isDigit
      (Nat.ofDigitChars 10 (whole ++ decimals) 0 : ℚ) / 10 ^ decimals.length *
        readPower (rest.dropWhile Char.isDigit)
  | rest => (Nat.ofDigitChars 10 whole 0 : ℚ) * readPower rest

/-- The number that a text starts with, as `strtod` reads it, 0 when there is none. -/
def readNumber : List Char → ℚ
  | '-' :: text => -readUnsigned text
  | '+' :: text => readUnsigned text
  | text => readUnsigned text

example : readNumber (showFixed 2 (-12.345)) = -12.34 := by decide +kernel
example : readNumber "7e2x".toList = 700 := by decide +kernel
example : showGeneral 1234567 = "1.23457e+06".toList := by decide +kernel

/-! ## Digits -/

theorem isDigit_of_mem_showNat {n : ℕ} {c : Char} (member : c ∈ showNat n) : c.isDigit = true :=
  Nat.isDigit_of_mem_toDigits (by decide) (by decide) member

theorem showNat_ne_nil (n : ℕ) : showNat n ≠ [] := Nat.toDigits_ne_nil

theorem length_showNat_le_iff {n k : ℕ} (pos : 0 < k) : (showNat n).length ≤ k ↔ n < 10 ^ k :=
  Nat.length_toDigits_le_iff (by decide) pos

theorem isDigit_of_mem_showDecimals {precision n : ℕ} {c : Char}
    (member : c ∈ showDecimals precision n) : c.isDigit = true := by
  rcases List.mem_append.mp member with zero | digit
  · rw [(List.mem_replicate.mp zero).2]
    rfl
  · exact isDigit_of_mem_showNat digit

theorem length_showDecimals {precision n : ℕ} (pos : 0 < precision) (lt : n < 10 ^ precision) :
    (showDecimals precision n).length = precision := by
  have le := (length_showNat_le_iff pos).mpr lt
  unfold showDecimals
  rw [List.length_append, List.length_replicate]
  omega

theorem length_showInt (n : ℤ) :
    (showInt n).length = (if n < 0 then 1 else 0) + (showNat n.natAbs).length := by
  unfold showInt
  rw [List.length_append]
  split <;> rfl

theorem length_showFixed {precision : ℕ} (pos : 0 < precision) (x : ℚ) :
    (showFixed precision x).length =
      (if x < 0 then 1 else 0) + (showNat (scaled precision x / 10 ^ precision)).length + 1 +
        precision := by
  have decimals := length_showDecimals pos
    (Nat.mod_lt (scaled precision x) (pow_pos (by decide) precision))
  unfold showFixed
  rw [List.length_append, List.length_append, List.length_cons, decimals]
  split <;> simp <;> omega

theorem scaled_div (precision : ℕ) (x : ℚ) :
    (scaled precision x : ℚ) / 10 ^ precision = decimals precision |x| := by
  have nonneg : 0 ≤ roundHalfEven (|x| * 10 ^ precision) := roundHalfEven_nonneg (by positivity)
  have rounded : (scaled precision x : ℚ) = roundHalfEven (|x| * 10 ^ precision) := by
    unfold scaled
    exact_mod_cast Int.toNat_of_nonneg nonneg
  rw [rounded]
  rfl

/-- The digits before the point are as many as those of the printed value. -/
theorem length_whole_le_iff {p k : ℕ} (pos : 0 < k) (x : ℚ) :
    (showNat (scaled p x / 10 ^ p)).length ≤ k ↔ decimals p |x| < 10 ^ k := by
  rw [length_showNat_le_iff pos, Nat.div_lt_iff_lt_mul (by positivity), ← scaled_div,
    div_lt_iff₀ (by positivity)]
  exact_mod_cast Iff.rfl

/-- A number with its sign takes fewer than `m + 2` characters. -/
theorem length_showInt_lt_iff {m : ℕ} (pos : 0 < m) (n : ℤ) :
    (showInt n).length < m + 2 ↔ -10 ^ m < n ∧ n < 10 ^ (m + 1) := by
  have power : (0 : ℤ) < 10 ^ m ∧ (0 : ℤ) < 10 ^ (m + 1) := by constructor <;> positivity
  rw [length_showInt]
  by_cases negative : n < 0
  · have digits := length_showNat_le_iff (n := n.natAbs) pos
    zify at digits
    rw [abs_of_neg negative] at digits
    rw [if_pos negative]
    constructor
    · intro short
      have small := digits.mp (by omega)
      omega
    · rintro ⟨small, -⟩
      have short := digits.mpr (by omega)
      omega
  · have digits := length_showNat_le_iff (n := n.natAbs) (k := m + 1) (by omega)
    zify at digits
    rw [abs_of_nonneg (not_lt.mp negative)] at digits
    rw [if_neg negative]
    constructor
    · intro short
      have small := digits.mp (by omega)
      omega
    · rintro ⟨-, small⟩
      have short := digits.mpr small
      omega

theorem decimals_nonneg (precision : ℕ) {x : ℚ} (nonneg : 0 ≤ x) : 0 ≤ decimals precision x := by
  have le := natCast_le_decimals precision (n := 0) (by exact_mod_cast nonneg)
  exact_mod_cast le

theorem length_showFixed_lt_iff {p m : ℕ} (pos : 0 < p) (some_digit : 0 < m) (x : ℚ) :
    (showFixed p x).length < m + p + 3 ↔
      -10 ^ m < decimals p x ∧ decimals p x < 10 ^ (m + 1) := by
  have power : (0 : ℚ) < 10 ^ m ∧ (0 : ℚ) < 10 ^ (m + 1) := by constructor <;> positivity
  rw [length_showFixed pos]
  by_cases negative : x < 0
  · have digits := length_whole_le_iff (p := p) some_digit x
    have nonneg := decimals_nonneg p (x := -x) (by linarith)
    rw [abs_of_neg negative] at digits
    rw [decimals_neg] at digits nonneg
    rw [if_pos negative]
    constructor
    · intro short
      have small := digits.mp (by omega)
      constructor <;> linarith
    · rintro ⟨small, -⟩
      have short := digits.mpr (by linarith)
      omega
  · have digits := length_whole_le_iff (p := p) (k := m + 1) (by omega) x
    have nonneg := decimals_nonneg p (not_lt.mp negative)
    rw [abs_of_nonneg (not_lt.mp negative)] at digits
    rw [if_neg negative]
    constructor
    · intro short
      have small := digits.mp (by omega)
      constructor <;> linarith
    · rintro ⟨-, small⟩
      have short := digits.mpr small
      omega

/-- A printed number has digits, a sign and a point, and nothing else. -/
theorem mem_showFixed {precision : ℕ} {x : ℚ} {c : Char} (member : c ∈ showFixed precision x) :
    c.isDigit = true ∨ c = '-' ∨ c = '.' := by
  unfold showFixed at member
  rcases List.mem_append.mp member with sign | unsigned
  · split at sign <;> simp_all
  · rcases List.mem_append.mp unsigned with digit | point
    · exact .inl (isDigit_of_mem_showNat digit)
    · rcases List.mem_cons.mp point with rfl | digit
      · exact .inr (.inr rfl)
      · exact .inl (isDigit_of_mem_showDecimals digit)

/-- The characters of numbers. -/
def IsNumeric (c : Char) : Prop := c.isDigit = true ∨ c ∈ ['-', '+', '.', 'e']

theorem isNumeric_showFraction {digits : List Char} (all : ∀ c ∈ digits, c.isDigit = true) {c : Char}
    (member : c ∈ showFraction digits) : IsNumeric c := by
  have kept : ∀ d ∈ digits.rdropWhile (· == '0'), d.isDigit = true :=
    fun d listed => all d ((List.rdropWhile_prefix _ digits).subset listed)
  unfold showFraction at member
  split at member
  · cases member
  · rcases List.mem_cons.mp member with rfl | decimal
    · exact .inr (by decide)
    · exact .inl (kept c decimal)

theorem isNumeric_showSignificant {n : ℕ} {exponent : ℤ} {c : Char}
    (member : c ∈ showSignificant n exponent) : IsNumeric c := by
  have digits : ∀ d ∈ showNat n, d.isDigit = true := fun d => isDigit_of_mem_showNat
  have taken (k : ℕ) : ∀ d ∈ (showNat n).take k, d.isDigit = true :=
    fun d listed => digits d (List.mem_of_mem_take listed)
  have dropped (k : ℕ) : ∀ d ∈ (showNat n).drop k, d.isDigit = true :=
    fun d listed => digits d (List.mem_of_mem_drop listed)
  unfold showSignificant at member
  dsimp only at member
  split at member
  · rcases List.mem_append.mp member with first | rest
    · exact .inl (taken 1 c first)
    · rcases List.mem_append.mp rest with fraction | power
      · exact isNumeric_showFraction (dropped 1) fraction
      · rcases List.mem_cons.mp power with rfl | power
        · exact .inr (by decide)
        · rcases List.mem_cons.mp power with rfl | power
          · split <;> exact .inr (by decide)
          · exact .inl (isDigit_of_mem_showDecimals power)
  · split at member
    · rcases List.mem_cons.mp member with rfl | fraction
      · exact .inl rfl
      · refine isNumeric_showFraction (fun d listed => ?_) fraction
        rcases List.mem_append.mp listed with zero | digit
        · rw [(List.mem_replicate.mp zero).2]
          rfl
        · exact digits d digit
    · rcases List.mem_append.mp member with whole | fraction
      · exact .inl (taken _ c whole)
      · exact isNumeric_showFraction (dropped _) fraction

theorem isNumeric_showGeneral {x : ℚ} {c : Char} (member : c ∈ showGeneral x) : IsNumeric c := by
  unfold showGeneral at member
  split at member
  · rw [List.mem_singleton.mp member]
    exact .inl rfl
  · dsimp only at member
    rcases List.mem_append.mp member with sign | unsigned
    · split at sign
      · rw [List.mem_singleton.mp sign]
        exact .inr (by decide)
      · cases sign
    · split at unsigned <;> exact isNumeric_showSignificant unsigned

theorem mem_showInt {n : ℤ} {c : Char} (member : c ∈ showInt n) : c.isDigit = true ∨ c = '-' := by
  unfold showInt at member
  rcases List.mem_append.mp member with sign | digit
  · split at sign <;> simp_all
  · exact .inl (isDigit_of_mem_showNat digit)

theorem point_mem_showFixed (precision : ℕ) (x : ℚ) : '.' ∈ showFixed precision x := by
  simp [showFixed]

theorem toNat_of_isDigit {c : Char} (digit : c.isDigit = true) : 48 ≤ c.toNat ∧ c.toNat ≤ 57 := by
  simpa [Char.isDigit, UInt32.le_iff_toNat_le] using digit

theorem isSpace_of_isDigit {c : Char} (digit : c.isDigit = true) : isSpace c = false := by
  have bounds := toNat_of_isDigit digit
  have no_space : c ≠ ' ' := by
    rintro rfl
    exact absurd bounds.1 (by decide)
  have high : ¬c.toNat ≤ 13 := by omega
  simp [isSpace, no_space, high]

theorem isWord_showNat (n : ℕ) : IsWord (showNat n) where
  ne_nil := showNat_ne_nil n
  solid _ member := isSpace_of_isDigit (isDigit_of_mem_showNat member)

theorem isWord_showInt (n : ℤ) : IsWord (showInt n) where
  ne_nil := List.append_ne_nil_of_right_ne_nil _ (showNat_ne_nil _)
  solid c member := by
    rcases mem_showInt member with digit | rfl
    · exact isSpace_of_isDigit digit
    · rfl

theorem isWord_showFixed (precision : ℕ) (x : ℚ) : IsWord (showFixed precision x) where
  ne_nil := List.ne_nil_of_mem (point_mem_showFixed precision x)
  solid c member := by
    rcases mem_showFixed member with digit | rfl | rfl
    · exact isSpace_of_isDigit digit
    · rfl
    · rfl

/-! ## Reading back -/

theorem takeWhile_digits {digits rest : List Char} (all : ∀ c ∈ digits, c.isDigit = true)
    (stop : ∀ c ∈ rest.head?, c.isDigit = false) :
    (digits ++ rest).takeWhile Char.isDigit = digits ∧
      (digits ++ rest).dropWhile Char.isDigit = rest := by
  rw [List.takeWhile_append_of_pos all, List.dropWhile_append_of_pos all]
  cases rest with
  | nil => simp
  | cons c rest =>
      have stops := stop c rfl
      simp [stops]

theorem ofDigitChars_showNat (n : ℕ) : Nat.ofDigitChars 10 (showNat n) 0 = n :=
  Nat.ofDigitChars_ten_toDigits

theorem ofDigitChars_showDecimals (precision n : ℕ) :
    Nat.ofDigitChars 10 (showDecimals precision n) 0 = n := by
  unfold showDecimals
  rw [Nat.ofDigitChars_append, Nat.ofDigitChars_replicate_zero, mul_zero]
  exact ofDigitChars_showNat n

theorem readNumber_of_unsigned {text : List Char}
    (unsigned : ∀ c ∈ text.head?, c.isDigit = true) : readNumber text = readUnsigned text := by
  unfold readNumber
  split
  · exact absurd (unsigned '-' rfl) (by decide)
  · exact absurd (unsigned '+' rfl) (by decide)
  · rfl

theorem readUnsigned_point {whole decimals : List Char} (wholeDigits : ∀ c ∈ whole, c.isDigit = true)
    (decimalDigits : ∀ c ∈ decimals, c.isDigit = true) :
    readUnsigned (whole ++ '.' :: decimals) =
      (Nat.ofDigitChars 10 (whole ++ decimals) 0 : ℚ) / 10 ^ decimals.length := by
  have point : ∀ c ∈ ('.' :: decimals).head?, c.isDigit = false := by
    intro c head
    obtain rfl := Option.some.inj head
    rfl
  obtain ⟨whole_taken, whole_dropped⟩ := takeWhile_digits wholeDigits point
  have taken := List.takeWhile_eq_self_iff.mpr decimalDigits
  have dropped := List.dropWhile_eq_nil_iff.mpr decimalDigits
  unfold readUnsigned
  rw [whole_taken, whole_dropped]
  change (Nat.ofDigitChars 10 (whole ++ decimals.takeWhile Char.isDigit) 0 : ℚ) /
    10 ^ (decimals.takeWhile Char.isDigit).length * readPower (decimals.dropWhile Char.isDigit) = _
  rw [taken, dropped]
  exact mul_one _

theorem readNumber_showNat (n : ℕ) : readNumber (showNat n) = n := by
  have digits : ∀ c ∈ showNat n, c.isDigit = true := fun c => isDigit_of_mem_showNat
  have taken := List.takeWhile_eq_self_iff.mpr digits
  have dropped := List.dropWhile_eq_nil_iff.mpr digits
  rw [readNumber_of_unsigned (fun c head => digits c (List.mem_of_mem_head? head))]
  unfold readUnsigned
  rw [taken, dropped]
  dsimp only
  rw [ofDigitChars_showNat]
  exact mul_one _

theorem readUnsigned_showFixed {precision : ℕ} (pos : 0 < precision) (x : ℚ) :
    readUnsigned (showNat (scaled precision x / 10 ^ precision) ++
      '.' :: showDecimals precision (scaled precision x % 10 ^ precision)) =
        decimals precision |x| := by
  have length := length_showDecimals pos
    (Nat.mod_lt (scaled precision x) (pow_pos (by decide) precision))
  have digits : Nat.ofDigitChars 10 (showNat (scaled precision x / 10 ^ precision) ++
      showDecimals precision (scaled precision x % 10 ^ precision)) 0 = scaled precision x := by
    rw [Nat.ofDigitChars_append, Nat.ofDigitChars_eq_ofDigitChars_zero, length,
      ofDigitChars_showDecimals, ofDigitChars_showNat]
    exact Nat.div_add_mod ..
  rw [readUnsigned_point (fun c => isDigit_of_mem_showNat) (fun c => isDigit_of_mem_showDecimals),
    digits, length, scaled_div]

/-- **A printed number reads back as its printed value.** -/
theorem readNumber_showFixed {precision : ℕ} (pos : 0 < precision) (x : ℚ) :
    readNumber (showFixed precision x) = decimals precision x := by
  have unsigned := readUnsigned_showFixed pos x
  unfold showFixed
  by_cases negative : x < 0
  · have value : decimals precision |x| = -decimals precision x := by
      rw [abs_of_neg negative, decimals_neg]
    rw [if_pos negative, List.singleton_append]
    change -readUnsigned _ = _
    rw [unsigned, value, neg_neg]
  · rw [if_neg negative, List.nil_append, readNumber_of_unsigned, unsigned,
      abs_of_nonneg (not_lt.mp negative)]
    intro c head
    have first : c ∈ (showNat (scaled precision x / 10 ^ precision)).head? := by
      rwa [List.head?_append_of_ne_nil _ (showNat_ne_nil _)] at head
    exact isDigit_of_mem_showNat (List.mem_of_mem_head? first)

end Text
