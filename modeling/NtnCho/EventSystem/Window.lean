import Mathlib.Data.List.DropRight
import Mathlib.Data.List.MinMax
import Mathlib.Order.Basic

/-!
# Windows of an observation log

A system that observes a condition again and again starts a timer when the condition begins to hold
and acts when the timer has run long enough. `HeldSince` is what the timer stands for: the condition
has held at every observation since the one that started it. `begin` and `extend` are the two ways
in which the timer is kept.

A system that keeps the last `k` observations drops the oldest one with every new one: what it keeps is
the end of the log (`rtake_snoc_rtake`).
-/

namespace EventSystem

variable {α τ : Type*} [Preorder τ] {time : α → τ} {met : α → Prop} {log : List α} {start : τ}
  {f : α}

/-- `met` has held at every entry of `log` since `start`, which is the time of an entry. -/
structure HeldSince (time : α → τ) (met : α → Prop) (log : List α) (start : τ) : Prop where
  started : ∃ g ∈ log, time g = start
  held : ∀ g ∈ log, start ≤ time g → met g

/-- A condition that holds at a new latest entry has held since that entry. -/
theorem HeldSince.begin (later : ∀ g ∈ log, time g < time f) (now : met f) :
    HeldSince time met (log ++ [f]) (time f) where
  started := ⟨f, by simp, rfl⟩
  held := by
    intro g member since
    rcases List.mem_append.mp member with old | new
    · exact absurd since (later g old).not_ge
    · rwa [List.mem_singleton.mp new]

/-- A condition that holds at a new entry goes on to have held. -/
theorem HeldSince.extend (since : HeldSince time met log start) (now : met f) :
    HeldSince time met (log ++ [f]) start where
  started := by
    obtain ⟨g, member, at_start⟩ := since.started
    exact ⟨g, List.mem_append_left _ member, at_start⟩
  held := by
    intro g member after
    rcases List.mem_append.mp member with old | new
    · exact since.held g old after
    · rwa [List.mem_singleton.mp new]

/-! ## The last observations -/

/-- The last `k` entries of a log are the last `k` of what was kept and the new entry. -/
theorem rtake_snoc_rtake (k : ℕ) (log : List α) (x : α) :
    (log.rtake k ++ [x]).rtake k = (log ++ [x]).rtake k := by
  cases k with
  | zero => rw [List.rtake_zero, List.rtake_zero]
  | succ k =>
      rw [List.rtake_concat_succ, List.rtake_concat_succ, List.rtake_eq_reverse_take_reverse,
        List.rtake_eq_reverse_take_reverse, List.rtake_eq_reverse_take_reverse, List.reverse_reverse,
        List.take_take, min_eq_left (Nat.le_succ k)]

theorem rtake_eq_drop (k : ℕ) (log : List α) : log.rtake k = log.drop (log.length - k) := rfl

theorem rtake_suffix (k : ℕ) (log : List α) : log.rtake k <:+ log := List.drop_suffix ..

/-! ## The closest observation -/

variable {β : Type*} [LinearOrder β]

/-- The scan that keeps the first of the least entries. -/
theorem argmin_eq_foldl (f : α → β) (front : α) (rest : List α) :
    (front :: rest).argmin f =
      some (rest.foldl (fun least x => if f x < f least then x else least) front) := by
  induction rest using List.reverseRecOn with
  | nil => rfl
  | append_singleton rest last ih =>
      rw [← List.cons_append, List.argmin_concat, ih, List.foldl_concat]
      exact (apply_ite some ..).symm

/-- In a log in the order of time the entry found is less than any given one, or not later. -/
theorem exists_argmin [DecidableEq α] (f : α → β) (increasing : (log.map time).Pairwise (· < ·)) {x : α}
    (member : x ∈ log) :
    ∃ least, log.argmin f = some least ∧ least ∈ log ∧ (f least < f x ∨ time least ≤ time x) := by
  cases found : log.argmin f with
  | none =>
      rw [List.argmin_eq_none.mp found] at member
      cases member
  | some least =>
      obtain ⟨member', -, first⟩ := List.mem_argmin_iff.mp found
      refine ⟨least, rfl, member', ?_⟩
      rcases lt_or_ge (f least) (f x) with less | tie
      · exact .inl less
      · right
        have bound := List.idxOf_lt_length_of_mem member
        have bound' := List.idxOf_lt_length_of_mem member'
        rcases (first x member tie).lt_or_eq with earlier | same
        · have order := List.pairwise_iff_getElem.mp increasing (log.idxOf least) (log.idxOf x)
            (by simpa using bound') (by simpa using bound) earlier
          rw [List.getElem_map, List.getElem_map, List.getElem_idxOf, List.getElem_idxOf] at order
          exact order.le
        · rw [(List.idxOf_inj member').mp same]

end EventSystem
