import NtnCho.Heap.Order
import NtnCho.Schedulers

/-!
# The heap event list of ns-3

`HeapScheduler` on its vector of events, with the loops `BottomUp` and `TopDown`. Insertion and
removal of the next event keep the heap order, so the heap is a lawful future event list; `Remove`
keeps it exactly when the event that moves into the gap is not less than the parent of the gap.
-/

namespace NtnCho

open EventSystem

/-- `m_heap` from position 1 on; what stands at position 0 is never read. -/
abbrev EventHeap (ε : Type) := List (Scheduler.Event ε)

variable {ε : Type}

namespace HeapScheduler

/-- `m_heap[id]`. -/
def heapAt (heap : EventHeap ε) : ℕ → Option (Scheduler.Event ε)
  | 0 => none
  | id + 1 => heap[id]?

/-- `Parent`. -/
def parent (id : ℕ) : ℕ := id / 2

/-- `LeftChild`. -/
def leftChild (id : ℕ) : ℕ := id * 2

/-- `RightChild`. -/
def rightChild (id : ℕ) : ℕ := id * 2 + 1

/-- `Root`. -/
def root : ℕ := 1

/-- `IsRoot`. -/
def isRoot (id : ℕ) : Bool := id == root

/-- `Last`; `m_heap.size()` counts position 0. -/
def last (heap : EventHeap ε) : ℕ := heap.length + 1 - 1

/-- `IsBottom`. -/
def isBottom (heap : EventHeap ε) (id : ℕ) : Bool := decide (id ≥ heap.length + 1)

/-- `Exch`. -/
def exch (heap : EventHeap ε) (a b : ℕ) : EventHeap ε :=
  match heapAt heap a, heapAt heap b with
  | some tmp, some other => (heap.set (a - 1) other).set (b - 1) tmp
  | _, _ => heap

/-- `IsLessStrictly`. -/
def isLessStrictly (heap : EventHeap ε) (a b : ℕ) : Bool :=
  match heapAt heap a, heapAt heap b with
  | some x, some y => x.key.less y.key
  | _, _ => false

/-- `Smallest`. -/
def smallest (heap : EventHeap ε) (a b : ℕ) : ℕ := if isLessStrictly heap a b then a else b

/-- `BottomUp` from `index` on; each turn of the loop takes one off the first argument. -/
def bottomUp : ℕ → EventHeap ε → ℕ → EventHeap ε
  | 0, heap, _ => heap
  | turns + 1, heap, index =>
      if !isRoot index && isLessStrictly heap index (parent index) then
        bottomUp turns (exch heap index (parent index)) (parent index)
      else heap

/-- `TopDown` from `index` on; each turn of the loop takes one off the first argument. -/
def topDown : ℕ → EventHeap ε → ℕ → EventHeap ε
  | 0, heap, _ => heap
  | turns + 1, heap, index =>
      let right := rightChild index
      let left := leftChild index
      if !isBottom heap right then
        let tmp := smallest heap left right
        if isLessStrictly heap index tmp then heap else topDown turns (exch heap index tmp) tmp
      else if isBottom heap index then heap
      else if isBottom heap left then heap
      else if isLessStrictly heap index left then heap
      else exch heap index left

/-- `Insert`. -/
def insert (ev : Scheduler.Event ε) (heap : EventHeap ε) : EventHeap ε :=
  let pushed := heap ++ [ev]
  bottomUp (last pushed) pushed (last pushed)

/-- The last steps of `RemoveNext` and `Remove`: the last event goes to position `i`, and down. -/
def fill (heap : EventHeap ε) (i : ℕ) : EventHeap ε :=
  let popped := (exch heap i (last heap)).dropLast
  topDown (last heap) popped i

/-- `RemoveNext`. -/
def removeNext (heap : EventHeap ε) : Option (Scheduler.Event ε × EventHeap ε) :=
  (heapAt heap root).map fun next => (next, fill heap root)

/-- `Remove`; the loop stops at the first event of the number. -/
def remove (ev : Scheduler.Event ε) (heap : EventHeap ε) : EventHeap ε :=
  match heap.findIdx? fun i => ev.key.uid == i.key.uid with
  | none => heap
  | some i => fill heap (i + 1)

end HeapScheduler

open HeapScheduler

/-- `HeapScheduler`. -/
def heapScheduler (ε : Type) : FutureEvents (Scheduler.Event ε) where
  Queue := EventHeap ε
  empty := []
  insert := HeapScheduler.insert
  isEmpty heap := heap.length + 1 == 1
  peekNext heap := heapAt heap root
  removeNext := HeapScheduler.removeNext
  remove := HeapScheduler.remove

namespace HeapScheduler

/-! ## Keys by position -/

/-- The key of the event at a position. -/
def keyAt (heap : EventHeap ε) (id : ℕ) : ℕ ×ₗ ℕ :=
  ((heapAt heap id).map Scheduler.Event.order).getD ⊥

/-- No event is less than its parent. -/
def InOrder (heap : EventHeap ε) : Prop := BinaryHeap.Ordered heap.length (keyAt heap)

variable {heap : EventHeap ε} {a b index : ℕ}

theorem heapAt_of_le (first : 1 ≤ a) (inside : a ≤ heap.length) :
    ∃ ev, heapAt heap a = some ev ∧ heap[a - 1]? = some ev ∧ keyAt heap a = ev.order := by
  obtain ⟨id, rfl⟩ : ∃ id, a = id + 1 := ⟨a - 1, by omega⟩
  have found : heapAt heap (id + 1) = some heap[id] := List.getElem?_eq_getElem (by omega)
  exact ⟨heap[id], found, found, by rw [keyAt, found]; rfl⟩

theorem exch_eq (ha : 1 ≤ a ∧ a ≤ heap.length) (hb : 1 ≤ b ∧ b ≤ heap.length) :
    ∃ x y, heap[a - 1]? = some x ∧ heap[b - 1]? = some y ∧
      exch heap a b = (heap.set (a - 1) y).set (b - 1) x := by
  obtain ⟨x, atA, getA, -⟩ := heapAt_of_le ha.1 ha.2
  obtain ⟨y, atB, getB, -⟩ := heapAt_of_le hb.1 hb.2
  exact ⟨x, y, getA, getB, by rw [exch, atA, atB]⟩

@[simp] theorem length_exch : (exch heap a b).length = heap.length := by
  unfold exch
  split <;> simp

theorem exch_perm (ha : 1 ≤ a ∧ a ≤ heap.length) (hb : 1 ≤ b ∧ b ≤ heap.length) :
    (exch heap a b).Perm heap := by
  obtain ⟨x, y, getA, getB, same⟩ := exch_eq ha hb
  have inA : a - 1 < heap.length := by omega
  have inB : b - 1 < heap.length := by omega
  rw [List.getElem?_eq_getElem inA, Option.some.injEq] at getA
  rw [List.getElem?_eq_getElem inB, Option.some.injEq] at getB
  rw [same, ← getA, ← getB]
  exact List.set_set_perm inA inB

theorem keyAt_exch (ha : 1 ≤ a ∧ a ≤ heap.length) (hb : 1 ≤ b ∧ b ≤ heap.length) :
    keyAt (exch heap a b) = BinaryHeap.exch (keyAt heap) a b := by
  obtain ⟨x, y, getA, getB, same⟩ := exch_eq ha hb
  funext j
  cases j with
  | zero =>
      rw [BinaryHeap.exch_of_ne _ (by omega) (by omega)]
      rfl
  | succ j =>
      rw [same]
      have reads : ∀ l : EventHeap ε, keyAt l (j + 1) = ((l[j]?).map Scheduler.Event.order).getD ⊥ :=
        fun _ => rfl
      rcases eq_or_ne (j + 1) b with rfl | notB
      · rw [BinaryHeap.exch_right, reads, keyAt, heapAt.eq_def]
        obtain ⟨a, rfl⟩ : ∃ a', a = a' + 1 := ⟨a - 1, by omega⟩
        simp only [Nat.add_sub_cancel] at getA ⊢
        rw [List.getElem?_set_self (by simp; omega), getA]
      · rcases eq_or_ne (j + 1) a with rfl | notA
        · rw [BinaryHeap.exch_left, reads, keyAt, heapAt.eq_def]
          obtain ⟨b, rfl⟩ : ∃ b', b = b' + 1 := ⟨b - 1, by omega⟩
          simp only [Nat.add_sub_cancel] at getB ⊢
          rw [List.getElem?_set_ne (by omega), List.getElem?_set_self (by omega), getB]
        · rw [BinaryHeap.exch_of_ne _ notA notB, reads, reads, List.getElem?_set_ne (by omega),
            List.getElem?_set_ne (by omega)]

theorem isLessStrictly_eq (ha : 1 ≤ a ∧ a ≤ heap.length) (hb : 1 ≤ b ∧ b ≤ heap.length) :
    isLessStrictly heap a b = decide (keyAt heap a < keyAt heap b) := by
  obtain ⟨x, atA, -, keyA⟩ := heapAt_of_le ha.1 ha.2
  obtain ⟨y, atB, -, keyB⟩ := heapAt_of_le hb.1 hb.2
  rw [isLessStrictly, atA, atB, keyA, keyB]
  exact Scheduler.Event.less_eq x y

/-! ## The loops -/

/-- `BottomUp` restores the order above `index`. -/
theorem bottomUp_spec {turns : ℕ}
    (ready : BinaryHeap.UpReady heap.length (keyAt heap) index) (enough : index ≤ turns) :
    InOrder (bottomUp turns heap index) ∧ (bottomUp turns heap index).Perm heap := by
  obtain ⟨first, inside⟩ := ready.position
  induction turns generalizing heap index with
  | zero => omega
  | succ turns ih =>
      rw [bottomUp]
      split
      · rename_i climbs
        rw [Bool.and_eq_true, Bool.not_eq_true', isRoot, root, beq_eq_false_iff_ne] at climbs
        obtain ⟨inner, less⟩ := climbs
        have here : 1 ≤ index ∧ index ≤ heap.length := ⟨first, inside⟩
        have up : 1 ≤ parent index ∧ parent index ≤ heap.length := by
          unfold parent
          omega
        rw [isLessStrictly_eq here up, decide_eq_true_iff] at less
        have moved := ready.exch (by omega) less
        have keys : keyAt (exch heap index (parent index)) =
            BinaryHeap.exch (keyAt heap) index (index / 2) := keyAt_exch here up
        have next : BinaryHeap.UpReady (exch heap index (parent index)).length
            (keyAt (exch heap index (parent index))) (parent index) := by
          rw [length_exch, keys]
          exact moved
        obtain ⟨ordered, perm⟩ := ih next (by unfold parent; omega) up.1 (by rw [length_exch]; exact up.2)
        exact ⟨ordered, perm.trans (exch_perm here up)⟩
      · rename_i stops
        refine ⟨ready.ordered ?_, .refl heap⟩
        by_cases top : index = 1
        · exact .inl top
        · right
          have here : 1 ≤ index ∧ index ≤ heap.length := ⟨first, inside⟩
          have up : 1 ≤ parent index ∧ parent index ≤ heap.length := by
            unfold parent
            omega
          have not_less : isLessStrictly heap index (parent index) = false := by
            simpa [isRoot, root, top] using stops
          rw [isLessStrictly_eq here up] at not_less
          exact not_lt.mp (of_decide_eq_false not_less)

/-- `Smallest` finds a child that holds no more than the other. -/
theorem smallest_spec (first : 1 ≤ index) (right : rightChild index ≤ heap.length) :
    smallest heap (leftChild index) (rightChild index) / 2 = index ∧
      (1 ≤ smallest heap (leftChild index) (rightChild index) ∧
        smallest heap (leftChild index) (rightChild index) ≤ heap.length) ∧
      ∀ j, j ≤ heap.length → j / 2 = index →
        keyAt heap (smallest heap (leftChild index) (rightChild index)) ≤ keyAt heap j := by
  have inLeft : 1 ≤ leftChild index ∧ leftChild index ≤ heap.length := by
    unfold leftChild rightChild at *
    omega
  have inRight : 1 ≤ rightChild index ∧ rightChild index ≤ heap.length :=
    ⟨by unfold rightChild; omega, right⟩
  have either : ∀ j, j / 2 = index → j = leftChild index ∨ j = rightChild index := by
    intro j child
    unfold leftChild rightChild
    omega
  rw [smallest, isLessStrictly_eq inLeft inRight]
  split
  · rename_i less
    have below : keyAt heap (leftChild index) < keyAt heap (rightChild index) :=
      of_decide_eq_true less
    refine ⟨by unfold leftChild; omega, inLeft, fun j _ child => ?_⟩
    rcases either j child with rfl | rfl
    · exact le_rfl
    · exact below.le
  · rename_i not_less
    have below : keyAt heap (rightChild index) ≤ keyAt heap (leftChild index) := by
      simpa using not_less
    refine ⟨by unfold rightChild; omega, inRight, fun j _ child => ?_⟩
    rcases either j child with rfl | rfl
    · exact below
    · exact le_rfl

/-- `TopDown` restores the order below `index`. -/
theorem topDown_spec {turns : ℕ}
    (ready : BinaryHeap.DownReady heap.length (keyAt heap) index)
    (enough : heap.length < index + turns) :
    InOrder (topDown turns heap index) ∧ (topDown turns heap index).Perm heap := by
  have first := ready.position
  induction turns generalizing heap index with
  | zero => exact ⟨ready.ordered fun j _ inside child => by omega, .refl heap⟩
  | succ turns ih =>
      rw [topDown]
      simp only [isBottom, Bool.not_eq_true', decide_eq_false_iff_not, decide_eq_true_eq, ge_iff_le,
        not_le]
      split
      · rename_i right
        obtain ⟨child, inside, least⟩ := smallest_spec first (Nat.le_of_lt_succ right)
        generalize smallest heap (leftChild index) (rightChild index) = tmp at *
        have here : 1 ≤ index ∧ index ≤ heap.length := by omega
        rw [isLessStrictly_eq here inside]
        split
        · rename_i settled
          have below : keyAt heap index < keyAt heap tmp := of_decide_eq_true settled
          refine ⟨ready.ordered fun j _ inRange under => ?_, .refl heap⟩
          exact below.le.trans (least j inRange under)
        · rename_i sinks
          have le : keyAt heap tmp ≤ keyAt heap index := by simpa using sinks
          have next : BinaryHeap.DownReady (exch heap index tmp).length
              (keyAt (exch heap index tmp)) tmp := by
            rw [length_exch, keyAt_exch here inside]
            exact ready.exch child inside.2 least le
          obtain ⟨ordered, perm⟩ := ih next (by rw [length_exch]; omega) inside.1
          exact ⟨ordered, perm.trans (exch_perm here inside)⟩
      · rename_i no_right
        have onlyLeft : ∀ j, j ≤ heap.length → j / 2 = index → j = leftChild index := by
          intro j inRange child
          unfold rightChild at no_right
          unfold leftChild
          omega
        split
        · rename_i outside
          exact ⟨ready.ordered fun j _ inRange child => by omega, .refl heap⟩
        · split
          · rename_i no_left
            refine ⟨ready.ordered fun j _ inRange child => ?_, .refl heap⟩
            have := onlyLeft j inRange child
            omega
          · rename_i left
            have here : 1 ≤ index ∧ index ≤ heap.length := by omega
            have inLeft : 1 ≤ leftChild index ∧ leftChild index ≤ heap.length := by
              unfold leftChild at *
              omega
            rw [isLessStrictly_eq here inLeft]
            split
            · rename_i settled
              have below : keyAt heap index < keyAt heap (leftChild index) :=
                of_decide_eq_true settled
              refine ⟨ready.ordered fun j _ inRange child => ?_, .refl heap⟩
              rw [onlyLeft j inRange child]
              exact below.le
            · rename_i sinks
              have le : keyAt heap (leftChild index) ≤ keyAt heap index := by simpa using sinks
              have moved := ready.exch (c := leftChild index) (by unfold leftChild; omega) inLeft.2
                (fun j inRange child => by rw [onlyLeft j inRange child]) le
              refine ⟨?_, exch_perm here inLeft⟩
              rw [InOrder, length_exch, keyAt_exch here inLeft]
              -- the left child was the last position, so nothing stands below it
              refine moved.ordered fun j _ inRange child => ?_
              unfold leftChild rightChild at *
              omega

/-! ## Filling a gap -/

/-- What is left when the last event has gone to position `index`. -/
theorem popped_spec {ev : Scheduler.Event ε} (found : heapAt heap index = some ev) :
    heap.Perm (ev :: (exch heap index (last heap)).dropLast) ∧
      (exch heap index (last heap)).dropLast.length = heap.length - 1 ∧
      ∀ j, 1 ≤ j → j ≤ heap.length - 1 →
        keyAt (exch heap index (last heap)).dropLast j =
          if j = index then keyAt heap heap.length else keyAt heap j := by
  have inside : 1 ≤ index ∧ index ≤ heap.length := by
    cases index with
    | zero => cases found
    | succ id => exact ⟨by omega, List.getElem?_eq_some_iff.mp found |>.1⟩
  have here : 1 ≤ last heap ∧ last heap ≤ heap.length := by
    unfold last
    omega
  have nonempty : exch heap index (last heap) ≠ [] := by
    rw [← List.length_pos_iff, length_exch]
    omega
  obtain ⟨x, y, getX, getY, same⟩ := exch_eq inside here
  have isEv : x = ev := by
    obtain ⟨id, rfl⟩ : ∃ id, index = id + 1 := ⟨index - 1, by omega⟩
    exact Option.some.inj (getX.symm.trans found)
  have final : (exch heap index (last heap)).getLast nonempty = ev := by
    have read : (exch heap index (last heap)).getLast? = some ev := by
      have size : heap.length - 1 = last heap - 1 := rfl
      rw [List.getLast?_eq_getElem?, length_exch, same, size, ← isEv]
      exact List.getElem?_set_self (by rw [List.length_set]; unfold last; omega)
    exact Option.some.inj ((List.getLast?_eq_some_getLast nonempty).symm.trans read)
  refine ⟨?_, by simp, fun j first upTo => ?_⟩
  · have whole := List.dropLast_append_getLast nonempty
    rw [final] at whole
    have swapped := exch_perm inside here
    rw [← whole] at swapped
    exact swapped.symm.trans (List.perm_append_singleton ev _)
  · have kept : keyAt (exch heap index (last heap)).dropLast j =
        keyAt (exch heap index (last heap)) j := by
      obtain ⟨id, rfl⟩ : ∃ id, j = id + 1 := ⟨j - 1, by omega⟩
      rw [keyAt, keyAt, heapAt, heapAt, List.getElem?_dropLast, if_pos (by simp; omega)]
    rw [kept, keyAt_exch inside here]
    have notLast : j ≠ last heap := by
      unfold last
      omega
    by_cases gap : j = index
    · rw [if_pos gap, gap, BinaryHeap.exch_left]
      rfl
    · rw [if_neg gap, BinaryHeap.exch_of_ne _ gap notLast]

/-- The event that moves into the gap at `index` is not less than the parent of the gap. -/
def Fits (heap : EventHeap ε) (index : ℕ) : Prop :=
  index = root ∨ index = last heap ∨ isLessStrictly heap (last heap) (parent index) = false

/-- An event that fits its gap keeps the heap order. -/
theorem fill_ordered {ev : Scheduler.Event ε} (ordered : InOrder heap)
    (found : heapAt heap index = some ev) (inside : 1 ≤ index ∧ index ≤ heap.length) (fits : Fits heap index) :
    InOrder (fill heap index) ∧ heap.Perm (ev :: fill heap index) := by
  obtain ⟨perm, length, keys⟩ := popped_spec found
  have ready : BinaryHeap.DownReady (exch heap index (last heap)).dropLast.length
      (keyAt (exch heap index (last heap)).dropLast) index := by
    rw [length]
    refine (ordered.shorten (Nat.sub_le _ 1)).downReady inside.1 (fun j first upTo other => ?_) ?_
    · rw [keys j first upTo, if_neg other]
    · intro inner upTo
      rw [keys index inside.1 upTo, if_pos rfl]
      unfold Fits root last at fits
      rcases fits with top | final | fits
      · omega
      · omega
      · rw [isLessStrictly_eq (by omega) (by unfold parent; omega)] at fits
        exact not_lt.mp (of_decide_eq_false fits)
  have enough : (exch heap index (last heap)).dropLast.length < index + last heap := by
    rw [length]
    unfold last
    omega
  obtain ⟨restored, sunk⟩ := topDown_spec ready enough
  exact ⟨restored, perm.trans (sunk.symm.cons ev)⟩

/-- An event that does not fit its gap stays there: `TopDown` does not move it. -/
theorem fill_eq_of_not_fits {ev : Scheduler.Event ε} (ordered : InOrder heap)
    (found : heapAt heap index = some ev) (inside : 1 ≤ index ∧ index ≤ heap.length) (not_fits : ¬ Fits heap index) :
    fill heap index = (exch heap index (last heap)).dropLast ∧ 2 ≤ index ∧
      index ≤ heap.length - 1 ∧ keyAt heap heap.length < keyAt heap (index / 2) := by
  obtain ⟨-, length, keys⟩ := popped_spec found
  have not_top : index ≠ 1 := fun top => not_fits (.inl top)
  have not_last : index ≠ heap.length := fun final => not_fits (.inr (.inl final))
  have less : keyAt heap heap.length < keyAt heap (index / 2) := by
    have read : isLessStrictly heap (last heap) (parent index) = true := by
      by_contra no
      exact not_fits (.inr (.inr (by simpa using no)))
    unfold last at read
    rw [isLessStrictly_eq (by omega) (by unfold parent; omega)] at read
    exact of_decide_eq_true read
  refine ⟨?_, by omega, by omega, less⟩
  rw [fill]
  generalize hp : (exch heap index (last heap)).dropLast = popped at *
  -- a child of the gap is not less than the parent of the gap, which is greater than the new event
  have above : ∀ j, j ≤ heap.length - 1 → j / 2 = index →
      isLessStrictly popped index j = true := by
    intro j upTo child
    have up := ordered index (by omega) (by omega)
    have down := ordered j (by omega) (by omega)
    rw [child] at down
    rw [isLessStrictly_eq (by omega) (by omega), decide_eq_true_iff, keys index (by omega) (by omega),
      keys j (by omega) upTo, if_pos rfl, if_neg (by omega)]
    exact less.trans_le (up.trans down)
  obtain ⟨turns, enough⟩ : ∃ turns, last heap = turns + 1 := ⟨heap.length - 1, by unfold last; omega⟩
  rw [enough, topDown]
  simp only [isBottom, Bool.not_eq_true', decide_eq_false_iff_not, decide_eq_true_eq, ge_iff_le,
    not_le]
  split
  · rename_i right
    obtain ⟨child, range, -⟩ := smallest_spec inside.1 (Nat.le_of_lt_succ right)
    rw [if_pos (above _ (by omega) child)]
  · split
    · rfl
    · split
      · rfl
      · rename_i left
        rw [if_pos (above _ (by omega) (by unfold leftChild; omega))]

/-! ## The event list -/

theorem insert_spec (ordered : InOrder heap) (ev : Scheduler.Event ε) :
    InOrder (insert ev heap) ∧ (insert ev heap).Perm (ev :: heap) := by
  have length : (heap ++ [ev]).length = heap.length + 1 := by simp
  have same : ∀ j, 1 ≤ j → j ≤ heap.length → keyAt (heap ++ [ev]) j = keyAt heap j := by
    intro j first upTo
    obtain ⟨id, rfl⟩ : ∃ id, j = id + 1 := ⟨j - 1, by omega⟩
    rw [keyAt, keyAt, heapAt, heapAt, List.getElem?_append_left (by omega)]
  have ready : BinaryHeap.UpReady (heap ++ [ev]).length (keyAt (heap ++ [ev])) (last (heap ++ [ev])) := by
    rw [last, length]
    exact (ordered.congr same).upReady
  have enough : last (heap ++ [ev]) ≤ last (heap ++ [ev]) := le_rfl
  obtain ⟨restored, perm⟩ := bottomUp_spec ready enough
  exact ⟨restored, perm.trans (List.perm_append_singleton ev heap)⟩

/-- `RemoveNext` takes the least event of a heap in order, and leaves the rest in order. -/
theorem removeNext_spec (ordered : InOrder heap) (some_left : heap ≠ []) :
    ∃ next, heapAt heap root = some next ∧ heap.Perm (next :: fill heap root) ∧
      (∀ b ∈ fill heap root, next.order ≤ b.order) ∧ InOrder (fill heap root) := by
  have nonempty : 1 ≤ heap.length := List.length_pos_iff.mpr some_left
  obtain ⟨next, found, -, key⟩ := heapAt_of_le (a := root) le_rfl nonempty
  obtain ⟨kept, perm⟩ := fill_ordered ordered found ⟨le_rfl, nonempty⟩ (.inl rfl)
  refine ⟨next, found, perm, fun b member => ?_, kept⟩
  have inside : b ∈ heap := perm.mem_iff.mpr (List.mem_cons_of_mem next member)
  obtain ⟨j, inRange, at_j⟩ := List.getElem_of_mem inside
  have keyB : keyAt heap (j + 1) = b.order := by
    rw [keyAt, heapAt, List.getElem?_eq_getElem inRange, at_j]
    rfl
  rw [← key, ← keyB]
  exact ordered.root_le (by omega) (by omega)

/-- `Remove` finds the event of a number that only one event has. -/
theorem remove_eq {ev : Scheduler.Event ε} (numbers : (heap.map Scheduler.Event.uid).Nodup)
    (found : heapAt heap index = some ev) : remove ev heap = fill heap index := by
  cases index with
  | zero => cases found
  | succ id =>
      obtain ⟨inside, at_id⟩ := List.getElem?_eq_some_iff.mp found
      have first : heap.findIdx? (fun i => ev.key.uid == i.key.uid) = some id := by
        rw [List.findIdx?_eq_some_iff_getElem]
        refine ⟨inside, by rw [at_id]; exact beq_self_eq_true _, fun j earlier same => ?_⟩
        have inside_j : j < (heap.map Scheduler.Event.uid).length := by
          rw [List.length_map]
          omega
        have inside_id : id < (heap.map Scheduler.Event.uid).length := by rwa [List.length_map]
        have numbers_eq :
            (heap.map Scheduler.Event.uid)[j] = (heap.map Scheduler.Event.uid)[id] := by
          rw [List.getElem_map, List.getElem_map, at_id]
          exact (beq_iff_eq.mp same).symm
        have positions := (List.Nodup.getElem_inj_iff numbers).mp numbers_eq
        omega
      rw [remove, first]

/-- **`Remove`.** The event is gone and all others are there, but the heap order survives exactly when
the last event fits the gap: `Remove` only ever moves it down. -/
theorem remove_inOrder_iff {ev : Scheduler.Event ε} (ordered : InOrder heap)
    (numbers : (heap.map Scheduler.Event.uid).Nodup) (found : heapAt heap index = some ev) :
    heap.Perm (ev :: remove ev heap) ∧
      (InOrder (remove ev heap) ↔ index = root ∨ index = last heap ∨
        isLessStrictly heap (last heap) (parent index) = false) := by
  have inside : 1 ≤ index ∧ index ≤ heap.length := by
    cases index with
    | zero => cases found
    | succ id => exact ⟨by omega, List.getElem?_eq_some_iff.mp found |>.1⟩
  rw [remove_eq numbers found]
  change _ ∧ (_ ↔ Fits heap index)
  by_cases fits : Fits heap index
  · obtain ⟨kept, perm⟩ := fill_ordered ordered found inside fits
    exact ⟨perm, iff_of_true kept fits⟩
  · obtain ⟨stays, inner, upTo, less⟩ := fill_eq_of_not_fits ordered found inside fits
    obtain ⟨perm, length, keys⟩ := popped_spec found
    rw [stays]
    refine ⟨perm, iff_of_false (fun kept => ?_) fits⟩
    have edge := kept index inner (by rw [length]; exact upTo)
    rw [keys index (by omega) upTo, if_pos rfl, keys (index / 2) (by omega) (by omega),
      if_neg (by omega)] at edge
    exact absurd less (not_lt.mpr edge)

theorem isEmpty_iff : (heap.length + 1 == 1) = true ↔ (heap : Multiset (Scheduler.Event ε)) = 0 := by
  rw [beq_iff_eq, Nat.add_eq_right, List.length_eq_zero_iff, Multiset.coe_eq_zero]

end HeapScheduler

/-- `HeapScheduler` keeps the heap order under `Insert` and `RemoveNext`. -/
def heapSchedulerLawful (ε : Type) :
    (heapScheduler ε).Lawful Scheduler.Event.order fun _ => True where
  holds _ q s := InOrder q ∧ Multiset.ofList q = s
  holds_empty := ⟨BinaryHeap.ordered_zero, rfl⟩
  holds_insert := by
    rintro floor q s a ⟨ordered, rfl⟩ _ _ _
    obtain ⟨kept, perm⟩ := insert_spec ordered a
    exact ⟨kept, Multiset.coe_eq_coe.mpr perm⟩
  isEmpty_iff := by
    rintro floor q s ⟨_, rfl⟩
    exact isEmpty_iff
  next := by
    rintro floor q s ⟨ordered, rfl⟩ some_left
    obtain ⟨a, found, perm, least, kept⟩ := removeNext_spec ordered fun empty =>
      some_left ((Multiset.coe_eq_zero q).mpr empty)
    have removed : HeapScheduler.removeNext q = some (a, fill q root) :=
      congrArg (Option.map fun next => (next, fill q root)) found
    exact ⟨a, fill q root, fill q root,
      ⟨removed, found, Multiset.coe_eq_coe.mpr perm, least, kept, rfl⟩⟩

theorem heapScheduler_accepts : FutureEvents.Accepts (heapSchedulerLawful ε) fun _ _ => True := by
  intro floor q s a held fits _ fresh
  exact @FutureEvents.Lawful.holds_insert _ _ _ _ _ _ _ (heapSchedulerLawful ε) ⊥ q s a held fits bot_le fresh

/-- Removing the event at 7 from the heap that insertions at 5, 1, 3, 7, 6, 4 and 2 make moves 3 below
5: from then on the event at 4 comes before the event at 3. -/
theorem remove_inOrder_iff_seven :
    let heap := [1, 5, 2, 7, 6, 4, 3].map fun ts => sampleEvent ts ts
    let left := HeapScheduler.remove (sampleEvent 7 7) heap
    heap.Perm (sampleEvent 7 7 :: left) ∧ ¬ InOrder left ∧
      ((heapScheduler ℕ).answers (List.replicate 6 .removeNext) left).filterMap
        (fun answer => answer.2.map Scheduler.Event.uid) = [1, 2, 4, 3, 5, 6] := by
  have ordered : InOrder ([1, 5, 2, 7, 6, 4, 3].map fun ts => sampleEvent ts ts) := by
    have each : ∀ j < 8, 2 ≤ j →
        keyAt ([1, 5, 2, 7, 6, 4, 3].map fun ts => sampleEvent ts ts) (j / 2) ≤
          keyAt ([1, 5, 2, 7, 6, 4, 3].map fun ts => sampleEvent ts ts) j := by decide
    exact fun j inner upTo => each j (Nat.lt_succ_of_le upTo) inner
  have gap : heapAt ([1, 5, 2, 7, 6, 4, 3].map fun ts => sampleEvent ts ts) 4 =
      some (sampleEvent 7 7) := rfl
  have spec := remove_inOrder_iff ordered (by decide) gap
  refine ⟨spec.1, fun kept => ?_, by decide +kernel⟩
  have fits := spec.2.mp kept
  revert fits
  decide

/-- The heap answers every sequence of insertions and removals of the next event as the list does, and is in
order after it. -/
theorem heapScheduler_answers {ops : List (Operation (Scheduler.Event ε))}
    (admissible : Admissible (fun _ _ => True) Scheduler.Event.order Scheduler.Event.uid (fun _ => True) ⊥ 0
      ops)
    (kept : ∀ ev, .remove ev ∉ ops) :
    (heapScheduler ε).answers ops (heapScheduler ε).empty =
        (listScheduler ε).answers ops (listScheduler ε).empty ∧
      InOrder ((heapScheduler ε).after ops (heapScheduler ε).empty) := by
  refine ⟨(heapSchedulerLawful ε).answers_empty (listSchedulerLawful ε) heapScheduler_accepts
    listScheduler_accepts (fun ev member => absurd member (kept ev)) admissible, ?_⟩
  obtain ⟨_, _, held⟩ := (heapSchedulerLawful ε).holds_after heapScheduler_accepts
    (fun ev member => absurd member (kept ev)) (heapSchedulerLawful ε).holds_empty admissible
  exact held.1

/-- Seven events, in no order, and all of them taken out again. -/
theorem heapScheduler_answers_seven :
    let ops := ([(7, 4), (3, 5), (5, 6), (3, 7), (9, 8), (1, 9), (4, 10)].map fun (ts, uid) =>
      Operation.insert (sampleEvent ts uid)) ++ List.replicate 7 Operation.removeNext
    (heapScheduler ℕ).answers ops (heapScheduler ℕ).empty =
        (listScheduler ℕ).answers ops (listScheduler ℕ).empty ∧
      ((heapScheduler ℕ).answers ops (heapScheduler ℕ).empty).filterMap
          (fun answer => answer.2.map Scheduler.Event.uid) = [9, 5, 7, 10, 6, 4, 8] := by
  refine ⟨(heapScheduler_answers ?_ (by simp)).1, by decide +kernel⟩
  refine ⟨⟨trivial, trivial, by simp⟩, ⟨trivial, trivial, by decide⟩, ⟨trivial, trivial, by decide⟩,
    ⟨trivial, trivial, by decide⟩, ⟨trivial, trivial, by decide⟩, ⟨trivial, trivial, by decide⟩,
    ⟨trivial, trivial, by decide⟩, ?_⟩
  exact admissible_removeNext (n := 7) (by decide)

end NtnCho
