import Mathlib.Order.Lattice

/-!
# Heap order

A binary heap in level order: the positions are `1` to `n`, the parent of `i` is `i / 2`. What stands
where is a function of the position, so the same facts serve a heap in any kind of sequence.

* `Ordered n f`: no position holds less than its parent; then the root holds the least
  (`Ordered.root_le`).
* `UpReady n f i` and `DownReady n f i`: the order holds but for what stands at `i`, which may be too
  small for its parent or too great for its children. An exchange with the parent or with the least
  child moves the exception one level on (`UpReady.exch`, `DownReady.exch`).
-/

namespace BinaryHeap

variable {κ : Type*} {n i : ℕ} {f : ℕ → κ}

/-- Exchange what stands at `a` and `b`. -/
def exch (f : ℕ → κ) (a b : ℕ) : ℕ → κ := fun j => if j = a then f b else if j = b then f a else f j

@[simp] theorem exch_left (f : ℕ → κ) (a b : ℕ) : exch f a b a = f b := by simp [exch]

@[simp] theorem exch_right (f : ℕ → κ) (a b : ℕ) : exch f a b b = f a := by
  simp only [exch, if_true]
  split <;> simp_all

theorem exch_of_ne {a b j : ℕ} (f : ℕ → κ) (ha : j ≠ a) (hb : j ≠ b) : exch f a b j = f j := by
  simp [exch, ha, hb]

variable [LinearOrder κ]

/-- No position holds less than its parent. -/
def Ordered (n : ℕ) (f : ℕ → κ) : Prop := ∀ j, 2 ≤ j → j ≤ n → f (j / 2) ≤ f j

/-- The root holds the least. -/
theorem Ordered.root_le (ordered : Ordered n f) {j : ℕ} (first : 1 ≤ j) (last : j ≤ n) :
    f 1 ≤ f j := by
  induction j using Nat.strong_induction_on with
  | _ j ih =>
      rcases Nat.lt_or_ge j 2 with root | inner
      · obtain rfl : j = 1 := by omega
        exact le_rfl
      · exact (ih (j / 2) (by omega) (by omega) (by omega)).trans (ordered j inner last)

theorem ordered_zero : Ordered 0 f := fun j inner last => by omega

theorem Ordered.shorten {m : ℕ} (ordered : Ordered n f) (le : m ≤ n) : Ordered m f :=
  fun j inner last => ordered j inner (last.trans le)

theorem Ordered.congr {g : ℕ → κ} (ordered : Ordered n f) (same : ∀ j, 1 ≤ j → j ≤ n → g j = f j) :
    Ordered n g := by
  intro j inner last
  rw [same j (by omega) last, same (j / 2) (by omega) (by omega)]
  exact ordered j inner last

/-! ## Upwards -/

/-- The heap order holds but for `i`, which may hold less than its parent. -/
structure UpReady (n : ℕ) (f : ℕ → κ) (i : ℕ) : Prop where
  position : 1 ≤ i ∧ i ≤ n
  others : ∀ j, 2 ≤ j → j ≤ n → j ≠ i → f (j / 2) ≤ f j
  above : ∀ j, j ≤ n → j / 2 = i → 2 ≤ i → f (i / 2) ≤ f j

/-- An entry behind a heap is all that can break its order. -/
theorem Ordered.upReady (ordered : Ordered n f) : UpReady (n + 1) f (n + 1) where
  position := ⟨by omega, le_rfl⟩
  others := fun j inner last other => ordered j inner (by omega)
  above := fun j last child inner => by omega

theorem UpReady.ordered (ready : UpReady n f i) (settled : i = 1 ∨ f (i / 2) ≤ f i) :
    Ordered n f := by
  intro j inner last
  rcases eq_or_ne j i with rfl | other
  · rcases settled with root | le
    · omega
    · exact le
  · exact ready.others j inner last other

theorem UpReady.exch (ready : UpReady n f i) (inner : 2 ≤ i) (less : f i < f (i / 2)) :
    UpReady n (exch f i (i / 2)) (i / 2) := by
  have last := ready.position.2
  have parent_ne : i / 2 ≠ i := by omega
  refine ⟨⟨by omega, by omega⟩, fun j inside le other => ?_, fun j le child higher => ?_⟩
  · rcases eq_or_ne j i with rfl | apart
    · rw [exch_left, exch_right]
      exact less.le
    · rw [exch_of_ne f apart other]
      by_cases below : j / 2 = i
      · rw [below, exch_left]
        exact ready.above j le below inner
      · by_cases beside : j / 2 = i / 2
        · have kept := ready.others j inside le apart
          rw [beside] at kept ⊢
          rw [exch_right]
          exact less.le.trans kept
        · rw [exch_of_ne f below beside]
          exact ready.others j inside le apart
  · have kept := ready.others (i / 2) higher (by omega) parent_ne
    rw [exch_of_ne f (show i / 2 / 2 ≠ i by omega) (show i / 2 / 2 ≠ i / 2 by omega)]
    rcases eq_or_ne j i with rfl | apart
    · rw [exch_left]
      exact kept
    · rw [exch_of_ne f apart (show j ≠ i / 2 by omega)]
      have next := ready.others j (by omega) le apart
      rw [child] at next
      exact kept.trans next

/-! ## Downwards -/

/-- The heap order holds but for `i`, which may hold more than its children. -/
structure DownReady (n : ℕ) (f : ℕ → κ) (i : ℕ) : Prop where
  position : 1 ≤ i
  others : ∀ j, 2 ≤ j → j ≤ n → j / 2 ≠ i → f (j / 2) ≤ f j
  above : ∀ j, j ≤ n → j / 2 = i → 2 ≤ i → f (i / 2) ≤ f j

theorem DownReady.ordered (ready : DownReady n f i)
    (settled : ∀ j, 2 ≤ j → j ≤ n → j / 2 = i → f i ≤ f j) : Ordered n f := by
  intro j inner last
  by_cases child : j / 2 = i
  · rw [child]
    exact settled j inner last child
  · exact ready.others j inner last child

/-- Exchange with a child that holds no more than the other. -/
theorem DownReady.exch {c : ℕ} (ready : DownReady n f i) (child : c / 2 = i) (last : c ≤ n)
    (least : ∀ j, j ≤ n → j / 2 = i → f c ≤ f j) (le : f c ≤ f i) :
    DownReady n (exch f i c) c := by
  have position := ready.position
  have apart : i ≠ c := by omega
  refine ⟨by omega, fun j inner inside other => ?_, fun j inside below _ => ?_⟩
  · rcases eq_or_ne j c with rfl | not_c
    · rw [child, exch_left, exch_right]
      exact le
    · rcases eq_or_ne j i with rfl | not_i
      · rw [exch_left, exch_of_ne f (show j / 2 ≠ j by omega) other]
        exact ready.above c last child inner
      · rw [exch_of_ne f not_i not_c]
        by_cases beside : j / 2 = i
        · rw [beside, exch_left]
          exact least j inside beside
        · rw [exch_of_ne f beside other]
          exact ready.others j inner inside beside
  · have kept := ready.others j (by omega) inside (by omega)
    rw [child, exch_left, exch_of_ne f (show j ≠ i by omega) (show j ≠ c by omega)]
    rwa [below] at kept

/-- Putting another value at `i` leaves the order but for `i`, provided it is not too small there. -/
theorem Ordered.downReady {g : ℕ → κ} (ordered : Ordered n f) (position : 1 ≤ i)
    (same : ∀ j, 1 ≤ j → j ≤ n → j ≠ i → g j = f j) (fits : 2 ≤ i → i ≤ n → f (i / 2) ≤ g i) :
    DownReady n g i := by
  refine ⟨position, fun j inner last other => ?_, fun j last child inner => ?_⟩
  · rcases eq_or_ne j i with rfl | apart
    · rw [same (j / 2) (by omega) (by omega) (by omega)]
      exact fits inner last
    · rw [same j (by omega) last apart, same (j / 2) (by omega) (by omega) other]
      exact ordered j inner last
  · have up := ordered i inner (by omega)
    have down := ordered j (by omega) last
    rw [same j (by omega) last (by omega), same (i / 2) (by omega) (by omega) (by omega)]
    rw [child] at down
    exact up.trans down

end BinaryHeap
