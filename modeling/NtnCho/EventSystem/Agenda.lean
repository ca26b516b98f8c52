import Mathlib.Data.List.Basic
import Mathlib.Data.List.Infix
import Mathlib.Order.Lattice

/-!
# Agendas

Entries that are due at some time wait in a vector. A round at time `t` goes through the vector with an
iterator, settles and erases what is due at `t`, and then adds new entries at the end. When time advances
and new entries are due later, each entry is settled in the first round that is not before its time, and
the entries of one round in the order in which they were added.

* `settleLoop` is the loop with the iterator; `settleLoop_eq` says what it settles and what it leaves.
* `pendingAfter` and `settledAt` are what rounds leave and settle; `pendingAfter_eq` and `settledAt_eq` say
  which of the added entries these are.
-/

namespace EventSystem

variable {α τ : Type*}

/-! ## One round -/

/-- The loop over `v` from the iterator `it` on, which erases what it settles: the entries that it settles,
in order, and what is left. -/
def settleLoop (isDue : α → Bool) (v : List α) (it : ℕ) : List α × List α :=
  if inside : it < v.length then
    if isDue v[it] then
      (v[it] :: (settleLoop isDue (v.eraseIdx it) it).1, (settleLoop isDue (v.eraseIdx it) it).2)
    else settleLoop isDue v (it + 1)
  else ([], v)
termination_by v.length - it
decreasing_by
  · rw [List.length_eraseIdx_of_lt inside]
    omega
  · omega

/-- The loop settles all that is due, in order, and leaves the rest. -/
theorem settleLoop_eq (isDue : α → Bool) (v : List α) (it : ℕ) :
    settleLoop isDue v it =
      ((v.drop it).filter isDue, v.take it ++ (v.drop it).filter fun a => !isDue a) := by
  fun_induction settleLoop isDue v it with
  | case1 v it inside due ih =>
      have length : (v.take it).length = it := List.length_take_of_le inside.le
      have before : (v.eraseIdx it).take it = v.take it := by
        rw [List.eraseIdx_eq_take_drop_succ, List.take_left' length]
      have behind : (v.eraseIdx it).drop it = v.drop (it + 1) := by
        rw [List.eraseIdx_eq_take_drop_succ, List.drop_left' length]
      rw [before, behind] at ih
      rw [ih, List.drop_eq_getElem_cons inside, List.filter_cons_of_pos due,
        List.filter_cons_of_neg (by simp [due])]
  | case2 v it inside later ih =>
      rw [ih, List.drop_eq_getElem_cons inside, List.filter_cons_of_neg later,
        List.filter_cons_of_pos (by simpa using later), List.take_add_one,
        List.getElem?_eq_getElem inside, Option.toList_some, List.append_assoc, List.singleton_append]
  | case3 v it outside =>
      rw [List.drop_eq_nil_of_le (not_lt.mp outside), List.take_of_length_le (not_lt.mp outside)]
      simp

theorem settleLoop_zero (isDue : α → Bool) (v : List α) : settleLoop isDue v 0 = v.partition isDue := by
  rw [settleLoop_eq, List.partition_eq_filter_filter]
  rfl

/-- No entry is lost or doubled. -/
theorem settleLoop_perm (isDue : α → Bool) (v : List α) :
    ((settleLoop isDue v 0).1 ++ (settleLoop isDue v 0).2).Perm v := by
  rw [settleLoop_eq]
  exact List.filter_append_perm isDue v

/-! ## All rounds -/

/-- A round with its time and the entries that it adds. -/
structure Round (τ α : Type*) where
  time : τ
  added : List α

variable [LinearOrder τ] {due : α → τ} {rounds : List (Round τ α)}

/-- The entries that wait after the rounds. -/
def pendingAfter (due : α → τ) (rounds : List (Round τ α)) : List α :=
  rounds.foldl (fun pending r => pending.filter (fun a => decide (r.time < due a)) ++ r.added) []

/-- The entries that a round at `t` settles after the rounds. -/
def settledAt (due : α → τ) (rounds : List (Round τ α)) (t : τ) : List α :=
  (pendingAfter due rounds).filter fun a => decide (due a ≤ t)

/-- Time advances from round to round, and what a round adds is due later. -/
structure Advancing (due : α → τ) (rounds : List (Round τ α)) : Prop where
  times : rounds.Pairwise fun r r' => r.time < r'.time
  later : ∀ r ∈ rounds, ∀ a ∈ r.added, r.time < due a

theorem pendingAfter_snoc (due : α → τ) (rounds : List (Round τ α)) (r : Round τ α) :
    pendingAfter due (rounds ++ [r]) =
      (pendingAfter due rounds).filter (fun a => decide (r.time < due a)) ++ r.added := by
  rw [pendingAfter, List.foldl_append, List.foldl_cons, List.foldl_nil, pendingAfter]

theorem Advancing.init {r : Round τ α} (advancing : Advancing due (rounds ++ [r])) :
    Advancing due rounds :=
  ⟨(List.pairwise_append.mp advancing.times).1,
    fun r' member => advancing.later r' (List.mem_append_left _ member)⟩

/-- What waits is what no round has reached. -/
theorem pendingAfter_eq (advancing : Advancing due rounds) :
    pendingAfter due rounds =
      (rounds.flatMap Round.added).filter fun a => decide (∀ r ∈ rounds, r.time < due a) := by
  induction rounds using List.reverseRecOn with
  | nil => rfl
  | append_singleton rounds r ih =>
      have kept : r.added.filter (fun a => decide (∀ r' ∈ rounds ++ [r], r'.time < due a)) = r.added := by
        refine List.filter_eq_self.mpr fun a member => decide_eq_true fun r' inside => ?_
        have future := advancing.later r (by simp) a member
        rcases List.mem_append.mp inside with earlier | last
        · exact ((List.pairwise_append.mp advancing.times).2.2 r' earlier r (by simp)).trans future
        · rwa [List.mem_singleton.mp last]
      rw [pendingAfter_snoc, ih advancing.init, List.filter_filter, List.flatMap_append,
        List.flatMap_singleton, List.filter_append, kept]
      congr 1
      refine List.filter_congr fun a _ => ?_
      simp [or_imp, forall_and, and_comm]

/-- A round settles the entries that are due for the first time, in the order in which they were added. -/
theorem settledAt_eq (advancing : Advancing due rounds) (t : τ) :
    settledAt due rounds t = (rounds.flatMap Round.added).filter fun a =>
      decide (due a ≤ t ∧ ∀ r ∈ rounds, r.time < due a) := by
  rw [settledAt, pendingAfter_eq advancing, List.filter_filter]
  refine List.filter_congr fun a _ => ?_
  simp

end EventSystem
