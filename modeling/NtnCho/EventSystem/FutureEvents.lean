import Mathlib.Data.Multiset.AddSub
import Mathlib.Order.BoundedOrder.Basic
import NtnCho.EventSystem.Basic

/-!
# Future event lists

The data structure in which a simulator keeps its pending events, and what a simulator expects of
it. Entries carry a key; the next entry is the one of the least key.

* `FutureEvents` are the operations, `Lawful` what they do to the entries held. A queue has to take entries
  at or above the key that was removed last, its floor; it may accept others (`Accepts`).
* `Lawful.removeNext_fifo`: when keys are a time stamp and then a number that grows with every
  entry, the next entry is the one that fires in first-in first-out order.
* `answers_eq`: two lawful future event lists give the same answers to every sequence of operations.
* `HoldsSorted`: a list sorted by key holds its entries as a future event list does.
-/

namespace EventSystem

universe u

variable {τ κ ε : Type*} {α : Type u}

/-- The operations of a future event list. -/
structure FutureEvents (α : Type u) where
  Queue : Type u
  empty : Queue
  insert : α → Queue → Queue
  isEmpty : Queue → Bool
  peekNext : Queue → Option α
  removeNext : Queue → Option (α × Queue)
  remove : α → Queue → Queue

/-- `removeNext` takes an entry of the least key among `s` and leaves the queue holding the rest. -/
structure FutureEvents.Next [LinearOrder κ] (L : FutureEvents α) (key : α → κ)
    (holds : κ → L.Queue → Multiset α → Prop) (q : L.Queue) (s : Multiset α) (a : α) (q' : L.Queue)
    (rest : Multiset α) : Prop where
  removed : L.removeNext q = some (a, q')
  peeked : L.peekNext q = some a
  contents : s = a ::ₘ rest
  least : ∀ b ∈ rest, key a ≤ key b
  holds : holds (key a) q' rest

/-- A future event list that keeps entries satisfying `ok`: `holds floor q s` says that `q` holds the
entries `s` and accepts entries from `floor` on. -/
structure FutureEvents.Lawful [LinearOrder κ] [OrderBot κ] (L : FutureEvents α) (key : α → κ)
    (ok : α → Prop) where
  holds : κ → L.Queue → Multiset α → Prop
  holds_empty : holds ⊥ L.empty 0
  holds_insert : ∀ {floor q s a}, holds floor q s → ok a → floor ≤ key a →
    (∀ b ∈ s, key b ≠ key a) → holds floor (L.insert a q) (a ::ₘ s)
  isEmpty_iff : ∀ {floor q s}, holds floor q s → (L.isEmpty q = true ↔ s = 0)
  next : ∀ {floor q s}, holds floor q s → s ≠ 0 → ∃ a q' rest, L.Next key holds q s a q' rest

/-- `remove` takes out the entry it is given, when no other has its number. -/
def FutureEvents.Removes [LinearOrder κ] [OrderBot κ] {L : FutureEvents α} {key : α → κ}
    {ok : α → Prop} (lawful : L.Lawful key ok) (number : α → ℕ) : Prop :=
  ∀ {floor q s a}, lawful.holds floor q (a ::ₘ s) → (∀ b ∈ s, number b ≠ number a) →
    lawful.holds floor (L.remove a q) s

/-- `insert` keeps what is held when the floor of the queue accepts the key of a new entry. -/
def FutureEvents.Accepts [LinearOrder κ] [OrderBot κ] {L : FutureEvents α} {key : α → κ}
    {ok : α → Prop} (lawful : L.Lawful key ok) (accepts : κ → κ → Prop) : Prop :=
  ∀ {floor q s a}, lawful.holds floor q s → ok a → accepts floor (key a) → (∀ b ∈ s, key b ≠ key a) →
    lawful.holds floor (L.insert a q) (a ::ₘ s)

/-- Every future event list takes entries at or above its floor. -/
theorem FutureEvents.Lawful.accepts_le [LinearOrder κ] [OrderBot κ] {L : FutureEvents α} {key : α → κ}
    {ok : α → Prop} (lawful : L.Lawful key ok) : Accepts lawful (· ≤ ·) := lawful.holds_insert

/-- A future event list keeps what it keeps under a narrower condition on the entries too. -/
def FutureEvents.Lawful.restrict [LinearOrder κ] [OrderBot κ] {L : FutureEvents α} {key : α → κ}
    {ok ok' : α → Prop} (lawful : L.Lawful key ok) (narrower : ∀ a, ok' a → ok a) :
    L.Lawful key ok' where
  holds := lawful.holds
  holds_empty := lawful.holds_empty
  holds_insert held fits above fresh := lawful.holds_insert held (narrower _ fits) above fresh
  isEmpty_iff := lawful.isEmpty_iff
  next := lawful.next

/-! ## Sequences of operations -/

/-- An operation that changes a future event list. -/
inductive Operation (α : Type u)
  | insert (a : α)
  | removeNext
  | remove (a : α)

/-- Whether a future event list is empty, and the next entry if it is not. -/
def FutureEvents.observe (L : FutureEvents α) (q : L.Queue) : Bool × Option α :=
  (L.isEmpty q, if L.isEmpty q then none else L.peekNext q)

/-- What can be seen of a future event list before each operation, and what the operation hands out. -/
def FutureEvents.answers (L : FutureEvents α) :
    List (Operation α) → L.Queue → List ((Bool × Option α) × Option α)
  | [], _ => []
  | .insert a :: ops, q => (L.observe q, none) :: L.answers ops (L.insert a q)
  | .removeNext :: ops, q =>
      match L.removeNext q with
      | none => [(L.observe q, none)]
      | some (a, q') => (L.observe q, some a) :: L.answers ops q'
  | .remove a :: ops, q => (L.observe q, none) :: L.answers ops (L.remove a q)

/-- The queue after the operations; nothing more is done once there is no next entry to remove. -/
def FutureEvents.after (L : FutureEvents α) : List (Operation α) → L.Queue → L.Queue
  | [], q => q
  | .insert a :: ops, q => L.after ops (L.insert a q)
  | .removeNext :: ops, q =>
      match L.removeNext q with
      | none => q
      | some (_, q') => L.after ops q'
  | .remove a :: ops, q => L.after ops (L.remove a q)

/-- Operations that may be asked for when the entries `s` are held: entries of new keys and numbers are
inserted whose keys the floor `accepts`, and entries removed that are there. -/
def Admissible [LinearOrder κ] (accepts : κ → κ → Prop) (key : α → κ) (number : α → ℕ) (ok : α → Prop) :
    κ → Multiset α → List (Operation α) → Prop
  | _, _, [] => True
  | floor, s, .insert a :: ops =>
      (ok a ∧ accepts floor (key a) ∧ ∀ b ∈ s, key b ≠ key a ∧ number b ≠ number a) ∧
        Admissible accepts key number ok floor (a ::ₘ s) ops
  | _, s, .removeNext :: ops =>
      s ≠ 0 ∧ ∀ a rest, s = a ::ₘ rest → (∀ b ∈ rest, key a ≤ key b) →
        Admissible accepts key number ok (key a) rest ops
  | floor, s, .remove a :: ops =>
      ∃ rest, s = a ::ₘ rest ∧ (∀ b ∈ rest, number b ≠ number a) ∧
        Admissible accepts key number ok floor rest ops

section Answers

variable {L L' : FutureEvents α} {key : α → κ} {number : α → ℕ} {ok : α → Prop}

/-- No two of the entries have the same key. -/
def Distinct (key : α → κ) (s : Multiset α) : Prop := ∀ b c t, s = b ::ₘ c ::ₘ t → key b ≠ key c

theorem distinct_of_cons {a : α} {s : Multiset α} (distinct : Distinct key (a ::ₘ s)) :
    Distinct key s := by
  intro b c t split
  refine distinct b c (a ::ₘ t) ?_
  rw [split, Multiset.cons_swap a b, Multiset.cons_swap a c]

theorem distinct_cons {a : α} {s : Multiset α} (distinct : Distinct key s)
    (fresh : ∀ b ∈ s, key b ≠ key a) : Distinct key (a ::ₘ s) := by
  intro b c t split
  rcases Multiset.cons_eq_cons.mp split with ⟨rfl, rest⟩ | ⟨_, u, rest, tail⟩
  · exact (fresh c (rest ▸ Multiset.mem_cons_self c t)).symm
  · rcases Multiset.cons_eq_cons.mp tail with ⟨rfl, -⟩ | ⟨_, v, -, same⟩
    · exact fresh b (rest ▸ Multiset.mem_cons_self b u)
    · exact distinct b c v (by rw [rest, same])

variable [LinearOrder κ]

/-- The next entry is the same wherever keys are distinct. -/
theorem FutureEvents.Next.eq {holds : κ → L.Queue → Multiset α → Prop}
    {holds' : κ → L'.Queue → Multiset α → Prop} {q r : L.Queue} {q' r' : L'.Queue}
    {s rest rest' : Multiset α} {a a' : α} (next : L.Next key holds q s a r rest)
    (next' : L'.Next key holds' q' s a' r' rest')
    (distinct : Distinct key s) : a = a' ∧ rest = rest' := by
  have same := next.contents.symm.trans next'.contents
  rcases Multiset.cons_eq_cons.mp same with both | ⟨_, t, front, front'⟩
  · exact both
  · -- otherwise each of the two is among the other's rest, and neither key is less
    have member : a' ∈ rest := front ▸ Multiset.mem_cons_self a' t
    have member' : a ∈ rest' := front' ▸ Multiset.mem_cons_self a t
    have keys := le_antisymm (next.least a' member) (next'.least a member')
    exact absurd keys (distinct a a' t (by rw [next.contents, front]))

variable [OrderBot κ]

theorem FutureEvents.Lawful.observe_eq (lawful : L.Lawful key ok) (lawful' : L'.Lawful key ok)
    {floor : κ} {q : L.Queue} {q' : L'.Queue} {s : Multiset α} (held : lawful.holds floor q s)
    (held' : lawful'.holds floor q' s) (distinct : Distinct key s) : L.observe q = L'.observe q' := by
  have empty : L.isEmpty q = L'.isEmpty q' := by
    rw [Bool.eq_iff_iff, lawful.isEmpty_iff held, lawful'.isEmpty_iff held']
  rw [observe, observe, ← empty]
  split
  · rfl
  · rename_i some_left
    have some_left' : s ≠ 0 := fun none_left => some_left ((lawful.isEmpty_iff held).mpr none_left)
    obtain ⟨a, _, _, next⟩ := lawful.next held some_left'
    obtain ⟨a', _, _, next'⟩ := lawful'.next held' some_left'
    rw [next.peeked, next'.peeked, (next.eq next' distinct).1]

/-- **Interchangeable event lists.** Two lawful future event lists that hold the same entries answer
every admissible sequence of operations alike. -/
theorem FutureEvents.Lawful.answers_eq (lawful : L.Lawful key ok) (lawful' : L'.Lawful key ok)
    {accepts : κ → κ → Prop} (insertion : Accepts lawful accepts) (insertion' : Accepts lawful' accepts)
    {ops : List (Operation α)} {floor : κ} {q : L.Queue} {q' : L'.Queue} {s : Multiset α}
    (removal : ∀ a, .remove a ∈ ops → Removes lawful number ∧ Removes lawful' number)
    (held : lawful.holds floor q s) (held' : lawful'.holds floor q' s) (distinct : Distinct key s)
    (admissible : Admissible accepts key number ok floor s ops) : L.answers ops q = L'.answers ops q' := by
  induction ops generalizing floor q q' s with
  | nil => rfl
  | cons op ops ih =>
      have removal' : ∀ a, .remove a ∈ ops → Removes lawful number ∧ Removes lawful' number :=
        fun a member => removal a (List.mem_cons_of_mem op member)
      have seen := lawful.observe_eq lawful' held held' distinct
      cases op with
      | insert a =>
          obtain ⟨⟨fits, above, fresh⟩, admissible⟩ := admissible
          have fresh' : ∀ b ∈ s, key b ≠ key a := fun b member => (fresh b member).1
          have rest := ih removal' (insertion held fits above fresh')
            (insertion' held' fits above fresh') (distinct_cons distinct fresh') admissible
          rw [answers, answers, seen, rest]
      | removeNext =>
          obtain ⟨some_left, admissible⟩ := admissible
          obtain ⟨a, r, rest, next⟩ := lawful.next held some_left
          obtain ⟨a', r', rest', next'⟩ := lawful'.next held' some_left
          obtain ⟨rfl, rfl⟩ := next.eq next' distinct
          rw [next.contents] at distinct
          have later := ih removal' next.holds next'.holds (distinct_of_cons distinct)
            (admissible a rest next.contents next.least)
          rw [answers, answers, next.removed, next'.removed, seen]
          exact congrArg (List.cons (L'.observe q', some a)) later
      | remove a =>
          obtain ⟨rest, rfl, others, admissible⟩ := admissible
          obtain ⟨removes, removes'⟩ := removal a List.mem_cons_self
          have later := ih removal' (removes held others) (removes' held' others)
            (distinct_of_cons distinct) admissible
          rw [answers, answers, seen, later]

/-- From the start, two lawful future event lists cannot be told apart. -/
theorem FutureEvents.Lawful.answers_empty (lawful : L.Lawful key ok) (lawful' : L'.Lawful key ok)
    {accepts : κ → κ → Prop} (insertion : Accepts lawful accepts) (insertion' : Accepts lawful' accepts)
    {ops : List (Operation α)}
    (removal : ∀ a, .remove a ∈ ops → Removes lawful number ∧ Removes lawful' number)
    (admissible : Admissible accepts key number ok ⊥ 0 ops) :
    L.answers ops L.empty = L'.answers ops L'.empty := by
  refine lawful.answers_eq lawful' insertion insertion' removal lawful.holds_empty lawful'.holds_empty ?_
    admissible
  intro b c t split
  exact absurd split (Multiset.zero_ne_cons)

/-- What a lawful future event list holds, it holds after admissible operations too. -/
theorem FutureEvents.Lawful.holds_after (lawful : L.Lawful key ok) {accepts : κ → κ → Prop}
    (insertion : Accepts lawful accepts) {ops : List (Operation α)} {floor : κ} {q : L.Queue}
    {s : Multiset α} (removal : ∀ a, .remove a ∈ ops → Removes lawful number)
    (held : lawful.holds floor q s) (admissible : Admissible accepts key number ok floor s ops) :
    ∃ floor' s', lawful.holds floor' (L.after ops q) s' := by
  induction ops generalizing floor q s with
  | nil => exact ⟨floor, s, held⟩
  | cons op ops ih =>
      have removal' : ∀ a, .remove a ∈ ops → Removes lawful number :=
        fun a member => removal a (List.mem_cons_of_mem op member)
      cases op with
      | insert a =>
          obtain ⟨⟨fits, above, fresh⟩, admissible⟩ := admissible
          exact ih removal' (insertion held fits above fun b member => (fresh b member).1) admissible
      | removeNext =>
          obtain ⟨some_left, admissible⟩ := admissible
          obtain ⟨a, r, rest, next⟩ := lawful.next held some_left
          rw [after, next.removed]
          exact ih removal' next.holds (admissible a rest next.contents next.least)
      | remove a =>
          obtain ⟨rest, rfl, others, admissible⟩ := admissible
          exact ih removal' (removal a List.mem_cons_self held others) admissible

end Answers

/-- Taking out as many entries as are held is admissible. -/
theorem admissible_removeNext [LinearOrder κ] {accepts : κ → κ → Prop} {key : α → κ} {number : α → ℕ}
    {ok : α → Prop} {n : ℕ} {floor : κ} {s : Multiset α} (enough : n ≤ s.card) :
    Admissible accepts key number ok floor s (List.replicate n .removeNext) := by
  induction n generalizing floor s with
  | zero => trivial
  | succ n ih =>
      refine ⟨?_, fun a rest split _ => ih ?_⟩
      · rintro rfl
        simp at enough
      · rw [split, Multiset.card_cons] at enough
        exact Nat.le_of_succ_le_succ enough

/-! ## The first-in first-out order -/

/-- Of entries in the order of their numbers, one of the least time stamp and then of the least number
is the first of the least time stamp. -/
theorem fifo_of_least [LE τ] {pre post : List α} {a : α} (pending : α → Pending τ ε)
    (number : α → ℕ)
    (inOrder : (pre ++ a :: post).Pairwise fun b c => number b < number c)
    (least : ∀ b ∈ pre ++ post, (pending a).ts ≤ (pending b).ts)
    (first : ∀ b ∈ pre, (pending b).ts = (pending a).ts → number a ≤ number b) :
    fifo (pre.map pending) (pending a) (post.map pending) := by
  refine ⟨fun q member => ?_, fun q member same _ => ?_⟩
  · rw [← List.map_append] at member
    obtain ⟨b, inside, rfl⟩ := List.mem_map.mp member
    exact least b inside
  · obtain ⟨b, inside, rfl⟩ := List.mem_map.mp member
    have before : number b < number a :=
      (List.pairwise_append.mp inOrder).2.2 b inside a List.mem_cons_self
    exact absurd (first b inside same) (by omega)

/-- Adding an entry of a new highest number keeps the order of numbers. -/
theorem pairwise_number_snoc {l : List α} {a : α} {number : α → ℕ}
    (inOrder : l.Pairwise fun b c => number b < number c) (highest : ∀ b ∈ l, number b < number a) :
    (l ++ [a]).Pairwise fun b c => number b < number c := by
  rw [List.pairwise_append]
  refine ⟨inOrder, List.pairwise_singleton _ _, fun b member c new => ?_⟩
  rw [List.mem_singleton.mp new]
  exact highest b member

/-- A future event list takes the entries out in first-in first-out order. -/
theorem FutureEvents.Lawful.removeNext_fifo [LinearOrder κ] [OrderBot κ] [LE τ]
    {L : FutureEvents α} {key : α → κ} {ok : α → Prop} (lawful : L.Lawful key ok) {floor : κ}
    {q : L.Queue} {l : List α} (pending : α → Pending τ ε) (number : α → ℕ)
    (ordered : ∀ {a b}, key a ≤ key b → (pending a).ts ≤ (pending b).ts ∧
      ((pending b).ts = (pending a).ts → number a ≤ number b))
    (inOrder : l.Pairwise fun b c => number b < number c) (held : lawful.holds floor q l)
    (some_left : l ≠ []) :
    ∃ pre a post q', l = pre ++ a :: post ∧ L.removeNext q = some (a, q') ∧
      fifo (pre.map pending) (pending a) (post.map pending) ∧
      (∀ b ∈ pre ++ post, key a ≤ key b) ∧
      lawful.holds (key a) q' (pre ++ post : List α) := by
  obtain ⟨a, q', rest, next⟩ := lawful.next held (by simpa using some_left)
  have member : a ∈ l := by
    rw [← Multiset.mem_coe, next.contents]
    exact Multiset.mem_cons_self a rest
  obtain ⟨pre, post, rfl⟩ := List.append_of_mem member
  have left : rest = (pre ++ post : List α) := by
    have contents := next.contents
    rw [← Multiset.coe_eq_coe.mpr List.perm_middle.symm, ← Multiset.cons_coe] at contents
    exact ((Multiset.cons_inj_right a).mp contents).symm
  subst left
  have least : ∀ b ∈ pre ++ post, key a ≤ key b := fun b inside => next.least b inside
  refine ⟨pre, a, post, q', rfl, next.removed, ?_, least, next.holds⟩
  refine fifo_of_least pending number inOrder (fun b inside => (ordered (least b inside)).1) ?_
  exact fun b inside same => (ordered (least b (List.mem_append_left _ inside))).2 same

/-! ## Sorted lists -/

section Sorted

variable [LinearOrder κ] {key : α → κ}

/-- Put `a` in front of the first entry that it comes before. -/
def insertBefore (before : α → α → Bool) (a : α) : List α → List α
  | [] => [a]
  | b :: rest => if before a b then a :: b :: rest else b :: insertBefore before a rest

theorem insertBefore_perm (before : α → α → Bool) (a : α) (l : List α) :
    (insertBefore before a l).Perm (a :: l) := by
  induction l with
  | nil => rfl
  | cons b rest ih =>
      rw [insertBefore]
      split
      · rfl
      · exact (ih.cons b).trans (.swap a b rest)

/-- Insertion keeps a list sorted in any order in which the new entry can be compared with the rest. -/
theorem pairwise_insertBefore {r : α → α → Prop} {before : α → α → Bool} {a : α} {l : List α}
    (trans : ∀ {b c d}, r b c → r c d → r b d) (sorted : l.Pairwise r)
    (yes : ∀ b ∈ l, before a b = true → r a b) (no : ∀ b ∈ l, before a b = false → r b a) :
    (insertBefore before a l).Pairwise r := by
  induction l with
  | nil => exact List.pairwise_singleton r a
  | cons b rest ih =>
      obtain ⟨front, sorted⟩ := List.pairwise_cons.mp sorted
      rw [insertBefore]
      split
      · rename_i here
        have first := yes b List.mem_cons_self here
        refine List.pairwise_cons.mpr ⟨fun c member => ?_, List.pairwise_cons.mpr ⟨front, sorted⟩⟩
        rcases List.mem_cons.mp member with rfl | member
        · exact first
        · exact trans first (front c member)
      · rename_i later
        refine List.pairwise_cons.mpr ⟨fun c member => ?_, ?_⟩
        · rcases List.mem_cons.mp ((insertBefore_perm before a rest).mem_iff.mp member) with rfl | member
          · exact no b List.mem_cons_self (by simpa using later)
          · exact front c member
        · exact ih sorted (fun c member => yes c (List.mem_cons_of_mem b member))
            (fun c member => no c (List.mem_cons_of_mem b member))

/-- The entries of `q`, sorted by key. -/
def SortedBy (key : α → κ) (q : List α) : Prop := q.Pairwise fun a b => key a < key b

theorem SortedBy.insertBefore {before : α → α → Bool} {a : α} {q : List α}
    (reads : ∀ {b c}, before b c = decide (key b < key c)) (sorted : SortedBy key q)
    (fresh : ∀ b ∈ q, key b ≠ key a) : SortedBy key (insertBefore before a q) := by
  refine pairwise_insertBefore (fun first second => lt_trans first second) sorted ?_ ?_
  · intro b _ yes
    rw [reads] at yes
    exact of_decide_eq_true yes
  · intro b member no
    rw [reads] at no
    exact lt_of_le_of_ne (not_lt.mp (of_decide_eq_false no)) (fresh b member)

/-- `q` holds the entries `s` in the order of their keys. -/
structure HoldsSorted (key : α → κ) (q : List α) (s : Multiset α) : Prop where
  sorted : SortedBy key q
  contents : (q : Multiset α) = s

theorem HoldsSorted.nil : HoldsSorted key [] 0 := ⟨List.Pairwise.nil, rfl⟩

theorem HoldsSorted.insertBefore {before : α → α → Bool} {a : α} {q : List α} {s : Multiset α}
    (reads : ∀ {b c}, before b c = decide (key b < key c)) (held : HoldsSorted key q s)
    (fresh : ∀ b ∈ s, key b ≠ key a) : HoldsSorted key (insertBefore before a q) (a ::ₘ s) := by
  obtain ⟨sorted, rfl⟩ := held
  exact ⟨sorted.insertBefore reads fresh, Multiset.coe_eq_coe.mpr (insertBefore_perm before a q)⟩

theorem HoldsSorted.isEmpty_iff {q : List α} {s : Multiset α} (held : HoldsSorted key q s) :
    q.isEmpty = true ↔ s = 0 := by
  rw [← held.contents, List.isEmpty_iff, Multiset.coe_eq_zero]

/-- The first entry is the next one. -/
theorem HoldsSorted.cons {a : α} {q : List α} {s : Multiset α} (held : HoldsSorted key (a :: q) s) :
    s = a ::ₘ (q : Multiset α) ∧ (∀ b ∈ q, key a ≤ key b) ∧ HoldsSorted key q q := by
  obtain ⟨first, sorted⟩ := List.pairwise_cons.mp held.sorted
  exact ⟨held.contents.symm, fun b member => (first b member).le, sorted, rfl⟩

theorem HoldsSorted.ne_nil {q : List α} {s : Multiset α} (held : HoldsSorted key q s)
    (some_left : s ≠ 0) : ∃ a rest, q = a :: rest := by
  refine List.exists_cons_of_ne_nil fun empty => some_left ?_
  rw [← held.contents, empty]
  rfl

end Sorted

end EventSystem
