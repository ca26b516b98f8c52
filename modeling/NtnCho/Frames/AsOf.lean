import Mathlib.Data.List.Basic
import Mathlib.Order.Lattice

/-!
# As-of joins

`asOf` is the last row of a table whose key is not greater than a bound, `sortBy` the table in the order of
its keys. A table that is made group by group gives the rows of one group back (`filter_flatMap_group`).
-/

namespace Frames

variable {α β κ τ : Type*} [LinearOrder τ]

/-- The last row with a key not greater than `t`, as if the rows were in the order of their keys. -/
def asOf (key : β → τ) (right : List β) (t : τ) : Option β :=
  (right.filter fun b => decide (key b ≤ t)).getLast?

/-- The rows sorted by their key, rows of one key as they come. -/
def sortBy (key : α → τ) (rows : List α) : List α := rows.mergeSort fun a b => decide (key a ≤ key b)

theorem sortBy_eq_self {key : α → τ} {rows : List α}
    (sorted : rows.Pairwise fun a b => key a ≤ key b) : sortBy key rows = rows :=
  List.mergeSort_of_pairwise (sorted.imp fun le => decide_eq_true le)

theorem key_trans (key : α → τ) (a b c : α) (first : decide (key a ≤ key b) = true)
    (second : decide (key b ≤ key c) = true) : decide (key a ≤ key c) = true :=
  decide_eq_true (le_trans (of_decide_eq_true first) (of_decide_eq_true second))

theorem key_total (key : α → τ) (a b : α) : (decide (key a ≤ key b) || decide (key b ≤ key a)) = true := by
  rcases le_total (key a) (key b) with le | le <;> simp [le]

theorem pairwise_sortBy (key : α → τ) (rows : List α) :
    (sortBy key rows).Pairwise fun a b => key a ≤ key b :=
  (List.pairwise_mergeSort (key_trans key) (key_total key) rows).imp fun le => of_decide_eq_true le

theorem mem_sortBy {key : α → τ} {rows : List α} {a : α} : a ∈ sortBy key rows ↔ a ∈ rows :=
  (List.mergeSort_perm _ _).mem_iff

/-- Of the rows up to a point in a sorted table, the last one. -/
theorem asOf_append {key : β → τ} {before after : List β} {t : τ} (le : ∀ b ∈ before, key b ≤ t)
    (lt : ∀ b ∈ after, t < key b) : asOf key (before ++ after) t = before.getLast? := by
  have kept : before.filter (fun b => decide (key b ≤ t)) = before :=
    List.filter_eq_self.mpr fun b member => decide_eq_true (le b member)
  have dropped : after.filter (fun b => decide (key b ≤ t)) = [] :=
    List.filter_eq_nil_iff.mpr fun b member => by simpa using lt b member
  unfold asOf
  rw [List.filter_append, kept, dropped, List.append_nil]

theorem asOf_isSome {key : β → τ} {right : List β} {b : β} {t : τ} (member : b ∈ right)
    (le : key b ≤ t) : (asOf key right t).isSome = true := by
  unfold asOf
  rw [List.getLast?_isSome]
  exact List.ne_nil_of_mem (List.mem_filter.mpr ⟨member, decide_eq_true le⟩)

section Groups

variable [DecidableEq κ]

theorem nodup_eraseDups : ∀ l : List κ, l.eraseDups.Nodup
  | [] => List.nodup_nil
  | a :: l => by
      rw [List.eraseDups_cons, List.nodup_cons]
      refine ⟨?_, nodup_eraseDups _⟩
      rw [List.mem_eraseDups]
      simp
  termination_by l => l.length
  decreasing_by exact Nat.lt_succ_of_le (List.length_filter_le _ _)

/-- Selecting one group from a concatenation of groups. -/
theorem filter_flatMap_group (name : α → κ) {keys : List κ} {group : κ → List α} (nodup : keys.Nodup)
    (named : ∀ k ∈ keys, ∀ a ∈ group k, name a = k) {k : κ} (outside : k ∉ keys → group k = []) :
    (keys.flatMap group).filter (fun a => decide (name a = k)) = group k := by
  have other : ∀ k' ∈ keys, k' ≠ k → (group k').filter (fun a => decide (name a = k)) = [] := by
    intro k' listed differs
    refine List.filter_eq_nil_iff.mpr fun a member => ?_
    simpa [named k' listed a member] using differs
  induction keys with
  | nil => exact (outside List.not_mem_nil).symm
  | cons k' keys ih =>
      obtain ⟨fresh, nodup⟩ := List.nodup_cons.mp nodup
      rw [List.flatMap_cons, List.filter_append]
      by_cases same : k' = k
      case pos =>
        subst same
        have own : (group k').filter (fun a => decide (name a = k')) = group k' :=
          List.filter_eq_self.mpr fun a member =>
            decide_eq_true (named k' List.mem_cons_self a member)
        have rest : (keys.flatMap group).filter (fun a => decide (name a = k')) = [] := by
          rw [List.filter_flatMap]
          refine List.flatMap_eq_nil_iff.mpr fun k member =>
            other k (List.mem_cons_of_mem _ member) ?_
          rintro rfl
          exact fresh member
        rw [own, rest, List.append_nil]
      case neg =>
        rw [other k' List.mem_cons_self same, List.nil_append]
        refine ih nodup (fun k member => named k (List.mem_cons_of_mem _ member))
          (fun absent => outside (by simp [absent, Ne.symm same])) fun k member => ?_
        exact other k (List.mem_cons_of_mem _ member)

end Groups

end Frames
