import Mathlib.Data.List.Lemmas
import Mathlib.Data.List.Nodup
import Mathlib.Data.List.Perm.Subperm

/-!
# Boundaries in a history

Things begin at some time and end at a later one or never, each once. Where a history is cut, some are
under way: they have begun before the cut and end behind it. What ends in a part of the history differs
from what begins in it and ends at some time by what is under way at the two ends of the part
(`length_add_underWay`).
-/

namespace EventSystem

variable {κ : Type*} [DecidableEq κ]

/-- How many of `begun` end in `ended`. -/
def underWay (begun ended : List κ) : ℕ := begun.countP (· ∈ ended)

theorem underWay_append (a b e : List κ) : underWay (a ++ b) e = underWay a e + underWay b e :=
  List.countP_append

theorem underWay_le (a e : List κ) : underWay a e ≤ a.length := List.countP_le_length

/-- What has not begun does not end. -/
theorem underWay_eq_zero {a b e : List κ} (begun : e ⊆ a) (disjoint : a.Disjoint b) : underWay b e = 0 :=
  List.countP_eq_zero.mpr fun _ member ended => disjoint (begun (of_decide_eq_true ended)) member

/-- What ends in one part does not end in another. -/
theorem underWay_ended_append {e f : List κ} (disjoint : e.Disjoint f) (a : List κ) :
    underWay a (e ++ f) = underWay a e + underWay a f := by
  induction a with
  | nil => rfl
  | cons k a ih =>
      unfold underWay at ih ⊢
      rw [List.countP_cons, List.countP_cons, List.countP_cons, ih]
      by_cases inE : k ∈ e
      · have absent : k ∉ f := disjoint inE
        simp [inE, absent]
        omega
      · simp [inE]
        omega

/-- All that ends has begun. -/
theorem underWay_eq_length {a e : List κ} (once : a.Nodup) (once' : e.Nodup) (begun : e ⊆ a) :
    underWay a e = e.length := by
  have same : (a.filter (· ∈ e)).Perm e := by
    refine (List.perm_ext_iff_of_nodup (once.filter _) once').mpr fun k => ?_
    rw [List.mem_filter, decide_eq_true_eq]
    exact ⟨And.right, fun member => ⟨begun member, member⟩⟩
  rw [underWay, List.countP_eq_length_filter, same.length_eq]

/-- **The count of a part.** `a` begins before the part, `b` in it; `e` ends in the part, `f` behind it. -/
theorem length_add_underWay {a b e f : List κ} (once : (a ++ b).Nodup) (once' : (e ++ f).Nodup)
    (begun : e ⊆ a ++ b) :
    e.length + underWay (a ++ b) f = underWay b (e ++ f) + underWay a (e ++ f) := by
  have disjoint : e.Disjoint f := (List.nodup_append'.mp once').2.2
  have inside := underWay_eq_length once (List.nodup_append'.mp once').1 begun
  rw [underWay_append] at inside
  rw [underWay_append, underWay_ended_append disjoint, underWay_ended_append disjoint, ← inside]
  omega

end EventSystem
