import NtnCho.Text.Python

/-!
# Numbers as Python reads them

`float` of a text reads more than decimal numbers: digits of other scripts, underscores between digits,
infinities and `nan`. Numbers are exact here and without bound. In an expression `\d` is a digit of any
script as well.
-/

namespace Text

open Frames

/-- The zeros of the decimal digits beyond ASCII. -/
def digitZeros : List ℕ :=
  [0x660, 0x6f0, 0x7c0, 0x966, 0x9e6, 0xa66, 0xae6, 0xb66, 0xbe6, 0xc66, 0xce6, 0xd66, 0xde6, 0xe50,
    0xed0, 0xf20, 0x1040, 0x1090, 0x17e0, 0x1810, 0x1946, 0x19d0, 0x1a80, 0x1a90, 0x1b50, 0x1bb0,
    0x1c40, 0x1c50, 0xa620, 0xa8d0, 0xa900, 0xa9d0, 0xa9f0, 0xaa50, 0xabf0, 0xff10, 0x104a0, 0x10d30,
    0x11066, 0x110f0, 0x11136, 0x111d0, 0x112f0, 0x11450, 0x114d0, 0x11650, 0x116c0, 0x11730, 0x118e0,
    0x11950, 0x11c50, 0x11d50, 0x11da0, 0x16a60, 0x16ac0, 0x16b50, 0x1d7ce, 0x1d7d8, 0x1d7e2, 0x1d7ec,
    0x1d7f6, 0x1e140, 0x1e2f0, 0x1e950, 0x1fbf0]

/-- A digit of any script as one of ASCII; other characters stay. -/
def asciiDigit (c : Char) : Char :=
  match digitZeros.find? fun z => z ≤ c.toNat && c.toNat < z + 10 with
  | some z => Char.ofNat (48 + (c.toNat - z))
  | none => c

/-- `\d` -/
def isPyDigit (c : Char) : Bool := (asciiDigit c).isDigit

/-- `int` of digits. -/
def pyNat (digits : List Char) : ℕ := Nat.ofDigitChars 10 (digits.map asciiDigit) 0

/-- Underscores stand between digits in the text behind `prev`. -/
def underscored (prev : Char) : List Char → Bool
  | [] => prev != '_'
  | c :: rest => (if c = '_' then prev.isDigit else prev != '_' || c.isDigit) && underscored c rest

/-- A float. -/
inductive FloatValue where
  | finite (x : ℚ)
  | infinite (negative : Bool)
  | nan
  deriving DecidableEq

namespace FloatValue

def sub : FloatValue → FloatValue → FloatValue
  | .nan, _ | _, .nan => .nan
  | .finite x, .finite y => .finite (x - y)
  | .finite _, .infinite negative => .infinite (!negative)
  | .infinite negative, .finite _ => .infinite negative
  | .infinite negative, .infinite negative' => if negative = negative' then .nan else .infinite negative

def abs : FloatValue → FloatValue
  | .finite x => .finite |x|
  | .infinite _ => .infinite false
  | .nan => .nan

/-- `<`, which does not hold of `nan`. -/
def lt : FloatValue → FloatValue → Bool
  | .nan, _ | _, .nan => false
  | .finite x, .finite y => decide (x < y)
  | .finite _, .infinite negative => !negative
  | .infinite negative, .finite _ => negative
  | .infinite negative, .infinite negative' => negative && !negative'

end FloatValue

/-- `float` of a text without white space at its ends, `none` for a `ValueError`. -/
def floatOf (text : List Char) : Option FloatValue :=
  let text := text.map asciiDigit
  let number := text.filter (· ≠ '_')
  let word := (unsigned number).map Char.toLower
  if underscored '\x00' text then
    if word = "inf".toList ∨ word = "infinity".toList then some (.infinite (number.head? == some '-'))
    else if word = "nan".toList then some .nan
    else if isFloat number then some (.finite (readNumber number))
    else none
  else none

/-- `float` of a text that is no word, `none` for a `ValueError`. -/
def pyFloat (text : List Char) : Option ℚ :=
  match floatOf (strip text) with
  | some (.finite x) => some x
  | _ => none

/-- `int(float(text))` of such a text, which rounds towards zero: `some none` for a `ValueError`, `none` for
the `OverflowError` of an infinity. -/
def intOfFloat (text : List Char) : Option (Option ℤ) :=
  match floatOf text with
  | some (.finite x) => some (some (if x < 0 then ⌈x⌉ else ⌊x⌋))
  | some (.infinite _) => none
  | _ => some none

/-- `int` of a text, `none` for a `ValueError`. -/
def pyInt (text : List Char) : Option ℤ :=
  let text := (strip text).map asciiDigit
  let number := text.filter (· ≠ '_')
  let value : ℤ := Nat.ofDigitChars 10 (unsigned number) 0
  if underscored '\x00' text && isDigits (unsigned number) then
    some (if number.head? = some '-' then -value else value)
  else none

example : floatOf "1_000".toList = some (.finite 1000) := by decide +kernel
example : floatOf "-iNF".toList = some (.infinite true) := by decide +kernel
example : floatOf "STARLINK-30".toList = none := by decide +kernel

/-! ## Printed numbers -/

theorem asciiDigit_of_lt {c : Char} (ascii : c.toNat < 128) : asciiDigit c = c := by
  have none_found : digitZeros.find? (fun z => z ≤ c.toNat && c.toNat < z + 10) = none := by
    refine List.find?_eq_none.mpr fun z member => ?_
    have high : ∀ z ∈ digitZeros, 128 ≤ z := by decide
    have beyond := high z member
    simp only [Bool.and_eq_true, decide_eq_true_eq, not_and, not_lt]
    omega
  rw [asciiDigit, none_found]

theorem underscored_of_notMem {prev : Char} {text : List Char} (first : prev ≠ '_') (absent : '_' ∉ text) :
    underscored prev text = true := by
  induction text generalizing prev with
  | nil => simpa [underscored] using first
  | cons c rest ih =>
      simp only [List.mem_cons, not_or] at absent
      rw [underscored, if_neg (Ne.symm absent.1), ih (Ne.symm absent.1) absent.2]
      simp [first]

theorem toLower_of_isDigit {c : Char} (digit : c.isDigit = true) : c.toLower = c := by
  have bounds := toNat_of_isDigit digit
  unfold Char.toLower
  rw [dif_neg]
  simp only [UInt32.le_iff_toNat_le, ge_iff_le, not_and]
  intro high
  change 65 ≤ c.toNat at high
  omega

theorem mem_of_mem_unsigned {text : List Char} {c : Char} (member : c ∈ unsigned text) : c ∈ text := by
  unfold unsigned at member
  split at member
  · exact List.mem_cons_of_mem _ member
  · exact List.mem_cons_of_mem _ member
  · exact member

/-- A decimal number without letters is read as what it says. -/
theorem floatOf_of_isFloat {text : List Char} (valid : isFloat text = true)
    (plain : ∀ c ∈ text, c.isDigit = true ∨ c = '-' ∨ c = '.') :
    floatOf text = some (.finite (readNumber text)) := by
  have ascii : text.map asciiDigit = text := by
    refine (List.map_congr_left fun c member => ?_).trans (List.map_id text)
    rcases plain c member with digit | rfl | rfl
    · exact asciiDigit_of_lt ((toNat_of_isDigit digit).2.trans_lt (by decide))
    · exact asciiDigit_of_lt (by decide)
    · exact asciiDigit_of_lt (by decide)
  have absent : '_' ∉ text := fun member => absurd (plain '_' member) (by decide)
  have number : text.filter (· ≠ '_') = text := by
    refine List.filter_eq_self.mpr fun c member => decide_eq_true ?_
    rintro rfl
    exact absent member
  have noWord : ∀ letter rest, 57 < letter.toNat → (unsigned text).map Char.toLower ≠ letter :: rest := by
    intro letter rest high same
    obtain ⟨c, rest', split, rfl, -⟩ := List.map_eq_cons_iff.mp same
    rcases plain c (mem_of_mem_unsigned (split ▸ List.mem_cons_self)) with digit | rfl | rfl
    · rw [toLower_of_isDigit digit] at high
      exact absurd (toNat_of_isDigit digit).2 (not_le.mpr high)
    · exact absurd high (by decide)
    · exact absurd high (by decide)
  unfold floatOf
  dsimp only
  rw [ascii, number, underscored_of_notMem (by decide) absent, if_pos rfl, if_neg, if_neg, if_pos valid]
  · exact noWord 'n' _ (by decide)
  · exact not_or.mpr ⟨noWord 'i' _ (by decide), noWord 'i' _ (by decide)⟩

theorem floatOf_showNat (n : ℕ) : floatOf (showNat n) = some (.finite n) := by
  rw [floatOf_of_isFloat (isFloat_showNat n) fun c member => .inl (isDigit_of_mem_showNat member),
    readNumber_showNat]

theorem floatOf_showFixed {precision : ℕ} (pos : 0 < precision) (x : ℚ) :
    floatOf (showFixed precision x) = some (.finite (decimals precision x)) := by
  rw [floatOf_of_isFloat (isFloat_showFixed precision x) fun c => mem_showFixed, readNumber_showFixed pos]

/-- A printed number is read as its printed value. -/
theorem pyFloat_showFixed {precision : ℕ} (pos : 0 < precision) (x : ℚ) :
    pyFloat (showFixed precision x) = some (decimals precision x) := by
  unfold pyFloat
  rw [strip_of_solid fun c => isPySpace_of_mem_showFixed, floatOf_showFixed pos]

theorem asciiDigit_of_isDigit {c : Char} (digit : c.isDigit = true) : asciiDigit c = c :=
  asciiDigit_of_lt (by have := toNat_of_isDigit digit; omega)

theorem isPyDigit_of_mem_showNat {n : ℕ} {c : Char} (member : c ∈ showNat n) : isPyDigit c = true := by
  have digit := isDigit_of_mem_showNat member
  rw [isPyDigit, asciiDigit_of_isDigit digit, digit]

theorem pyNat_showNat (n : ℕ) : pyNat (showNat n) = n := by
  have same : (showNat n).map asciiDigit = showNat n := by
    conv_rhs => rw [← List.map_id (showNat n)]
    exact List.map_congr_left fun c member => asciiDigit_of_isDigit (isDigit_of_mem_showNat member)
  rw [pyNat, same, ofDigitChars_showNat]

end Text
