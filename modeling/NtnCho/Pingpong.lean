import Mathlib.Algebra.BigOperators.Group.Finset.Piecewise
import Mathlib.Algebra.Order.BigOperators.Group.Finset
import Mathlib.Algebra.Order.Ring.Rat
import NtnCho.Frames.Groups
import NtnCho.Frames.Sorting

/-!
# Counting ping-pongs

`count_pingpong` of `analyze_pingpong.py`: the handovers of each UE in the order of their times, and among
them the neighbours that lead back within a window. `count_eq_sum` reads the nested loops as a sum over
UEs; `pingpong_per_ue` says what this sum counts and derives what it does not depend on.
-/

namespace NtnCho

open Frames

namespace Pingpong

/-- An event of `parse_handovers_cho`, `none` for `None`. -/
structure Handover where
  time : ℚ
  ue : Option ℕ
  src : Option String
  tgt : Option String
  triggerType : Option String
  deriving DecidableEq

/-- `PING_PONG_WINDOW` in seconds. -/
def pingPongWindow : ℚ := 60

/-- Both cells are known. -/
def Handover.complete (e : Handover) : Bool := e.src.isSome && e.tgt.isSome

/-- The second handover leads back within the window. -/
def isPingpong (window : ℚ) (first second : Handover) : Bool :=
  second.src == first.tgt && second.tgt == first.src && decide (second.time - first.time ≤ window)

abbrev Pairs := List (Option ℕ × Handover × Handover)

/-- The loop over the handovers of one UE. -/
def countNeighbours (window : ℚ) (found : ℕ × Pairs) (group : Option ℕ × List Handover) : ℕ × Pairs :=
  (adjacent (sortBy Handover.time group.2)).foldl
    (fun found p =>
      if isPingpong window p.1 p.2 then (found.1 + 1, found.2 ++ [(group.1, p.1, p.2)]) else found)
    found

/-- `count_pingpong`. -/
def countPingpong (events : List Handover) (window : ℚ) : ℕ × Pairs :=
  let eventsByUe := groupBy Handover.ue id (events.filter Handover.complete)
  eventsByUe.foldl (countNeighbours window) (0, [])

/-! ## The count as a sum -/

/-- The complete handovers of a UE, in the order of the list. -/
def ofUe (events : List Handover) (ue : Option ℕ) : List Handover :=
  events.filter fun e => e.complete && decide (e.ue = ue)

/-- The ping-pongs among the neighbours in time of a list. -/
def backAndForth (window : ℚ) (events : List Handover) : ℕ :=
  (adjacent (sortBy Handover.time events)).countP fun p => isPingpong window p.1 p.2

theorem countNeighbours_fst (window : ℚ) (found : ℕ × Pairs) (group : Option ℕ × List Handover) :
    (countNeighbours window found group).1 = found.1 + backAndForth window group.2 := by
  unfold countNeighbours backAndForth
  generalize adjacent (sortBy Handover.time group.2) = neighbours
  induction neighbours generalizing found with
  | nil => rfl
  | cons p neighbours ih =>
      rw [List.foldl_cons, ih]
      by_cases back : isPingpong window p.1 p.2 = true
      · rw [if_pos back, List.countP_cons, if_pos back]
        omega
      · rw [if_neg back, List.countP_cons, if_neg back]
        rfl

theorem foldl_countNeighbours_fst (window : ℚ) (found : ℕ × Pairs)
    (groups : List (Option ℕ × List Handover)) :
    (groups.foldl (countNeighbours window) found).1 =
      found.1 + (groups.map fun group => backAndForth window group.2).sum := by
  induction groups generalizing found with
  | nil => rfl
  | cons group groups ih =>
      rw [List.foldl_cons, ih, countNeighbours_fst, List.map_cons, List.sum_cons]
      omega

theorem backAndForth_nil (window : ℚ) : backAndForth window [] = 0 := by
  simp [backAndForth, sortBy, adjacent]

/-- The count is the sum over any set of UEs that has those of all complete handovers. -/
theorem count_eq_sum {events : List Handover} {window : ℚ} {ues : Finset (Option ℕ)}
    (all : ∀ e ∈ events, e.complete = true → e.ue ∈ ues) :
    (countPingpong events window).1 = ∑ ue ∈ ues, backAndForth window (ofUe events ue) := by
  have grouped := sum_groupBy (fun _ events => backAndForth window events) Handover.ue id
    (events.filter Handover.complete)
  have own : ∀ ue, (((events.filter Handover.complete).filter fun e => e.ue = ue).map id) =
      ofUe events ue := by
    intro ue
    rw [List.map_id, List.filter_filter, ofUe]
    exact List.filter_congr fun e _ => Bool.and_comm _ _
  simp only [own] at grouped
  unfold countPingpong
  rw [foldl_countNeighbours_fst, Nat.zero_add, grouped]
  refine Finset.sum_subset ?_ fun ue _ absent => ?_
  · intro ue member
    obtain ⟨e, kept, rfl⟩ := List.mem_map.mp (List.mem_toFinset.mp member)
    obtain ⟨inEvents, complete⟩ := List.mem_filter.mp kept
    exact all e inEvents complete
  · -- a UE without complete handovers counts nothing
    have none : ofUe events ue = [] := by
      apply List.filter_eq_nil_iff.mpr
      intro e member own
      obtain ⟨complete, rfl⟩ : e.complete = true ∧ e.ue = ue := by simpa using own
      exact absent (List.mem_toFinset.mpr
        (List.mem_map_of_mem (List.mem_filter.mpr ⟨member, complete⟩)))
    rw [none, backAndForth_nil]

/-! ## What the count depends on -/

/-- The handover at `j` follows the one at `i` in time and leads back within the window. -/
structure PingpongAt (window : ℚ) (events : List Handover) (i j : ℕ) : Prop where
  consecutive : Consecutive Handover.time events i j
  back : ∃ a b, events[i]? = some a ∧ events[j]? = some b ∧ b.src = a.tgt ∧ b.tgt = a.src ∧
    b.time - a.time ≤ window

/-- `events'` is `events` in another order, which keeps that of the handovers of one UE at one time. -/
structure Reordering (events events' : List Handover) : Prop where
  perm : events.Perm events'
  order : ∀ ue t, (events.filter fun e => e.ue = ue ∧ e.time = t) =
    events'.filter fun e => e.ue = ue ∧ e.time = t

theorem isPingpong_iff {window : ℚ} {a b : Handover} :
    isPingpong window a b = true ↔ b.src = a.tgt ∧ b.tgt = a.src ∧ b.time - a.time ≤ window := by
  simp [isPingpong, and_assoc]

theorem backAndForth_eq (window : ℚ) (events : List Handover) :
    backAndForth window events =
      Set.ncard {p : ℕ × ℕ | PingpongAt window events p.1 p.2} := by
  unfold backAndForth
  rw [countP_adjacent_sortBy]
  congr 1
  ext ⟨i, j⟩
  simp only [Set.mem_ofPred_eq, isPingpong_iff]
  exact ⟨fun ⟨consecutive, back⟩ => ⟨consecutive, back⟩, fun at_ => ⟨at_.consecutive, at_.back⟩⟩

theorem backAndForth_mono {window window' : ℚ} (le : window ≤ window') (events : List Handover) :
    backAndForth window events ≤ backAndForth window' events := by
  refine List.countP_mono_left fun p _ back => ?_
  obtain ⟨src, tgt, within⟩ := isPingpong_iff.mp back
  exact isPingpong_iff.mpr ⟨src, tgt, within.trans le⟩

theorem Reordering.ofUe {events events' : List Handover} (same : Reordering events events')
    (ue : Option ℕ) : sortBy Handover.time (ofUe events ue) = sortBy Handover.time (ofUe events' ue) := by
  have levels : ∀ (l : List Handover) (t : ℚ), ((Pingpong.ofUe l ue).filter fun e => e.time = t) =
      (l.filter fun e => e.ue = ue ∧ e.time = t).filter Handover.complete := by
    intro l t
    rw [Pingpong.ofUe, List.filter_filter, List.filter_filter]
    refine List.filter_congr fun e _ => ?_
    rw [Bool.decide_and]
    grind
  refine sortBy_congr fun t => ?_
  rw [levels, levels, same.order]

/-- **Ping-pongs are counted UE by UE.** The count is the number of pairs of handovers of one UE that
follow each other in time and lead back within the window, summed over the UEs. So it is the same for
every order of the list that keeps the handovers of one UE at one time in order, it is the sum of the counts
over the classes of a partition of the UEs, and it grows with the window. -/
theorem pingpong_per_ue :
    (∀ events window, (countPingpong events window).1 =
      ∑ ue ∈ (events.map Handover.ue).toFinset,
        Set.ncard {p : ℕ × ℕ | PingpongAt window (ofUe events ue) p.1 p.2}) ∧
    (∀ events events' window, Reordering events events' →
      (countPingpong events window).1 = (countPingpong events' window).1) ∧
    (∀ {κ : Type} [DecidableEq κ] (part : Option ℕ → κ) events window,
      (countPingpong events window).1 =
        ∑ k ∈ (events.map fun e => part e.ue).toFinset,
          (countPingpong (events.filter fun e => part e.ue = k) window).1) ∧
    ∀ events window window', window ≤ window' →
      (countPingpong events window).1 ≤ (countPingpong events window').1 := by
  have total : ∀ events window, (countPingpong events window).1 =
      ∑ ue ∈ (events.map Handover.ue).toFinset, backAndForth window (ofUe events ue) :=
    fun events window => count_eq_sum fun e member _ =>
      List.mem_toFinset.mpr (List.mem_map_of_mem member)
  refine ⟨?_, ?_, ?_, ?_⟩
  · intro events window
    rw [total]
    exact Finset.sum_congr rfl fun ue _ => backAndForth_eq window (ofUe events ue)
  · intro events events' window same
    have ues : (events.map Handover.ue).toFinset = (events'.map Handover.ue).toFinset :=
      List.toFinset_eq_of_perm _ _ (same.perm.map Handover.ue)
    rw [total, total, ues]
    refine Finset.sum_congr rfl fun ue _ => ?_
    rw [backAndForth, backAndForth, same.ofUe ue]
  · intro κ _ part events window
    -- of the handovers of a class, a UE has all or none
    have split : ∀ k ue, ofUe (events.filter fun e => part e.ue = k) ue =
        if part ue = k then ofUe events ue else [] := by
      intro k ue
      rw [ofUe, List.filter_filter]
      split
      · rename_i inClass
        refine List.filter_congr fun e _ => ?_
        grind
      · rename_i notInClass
        refine List.filter_eq_nil_iff.mpr fun e _ => ?_
        grind
    have classes : ∀ k, (countPingpong (events.filter fun e => part e.ue = k) window).1 =
        ∑ ue ∈ (events.map Handover.ue).toFinset,
          if part ue = k then backAndForth window (ofUe events ue) else 0 := by
      intro k
      have listed : ∀ e ∈ events.filter fun e => part e.ue = k, e.complete = true →
          e.ue ∈ (events.map Handover.ue).toFinset := fun e member _ =>
        List.mem_toFinset.mpr (List.mem_map_of_mem (List.mem_of_mem_filter member))
      rw [count_eq_sum listed]
      refine Finset.sum_congr rfl fun ue _ => ?_
      rw [split]
      split
      · rfl
      · exact backAndForth_nil window
    rw [total, Finset.sum_congr rfl fun k _ => classes k, Finset.sum_comm]
    refine Finset.sum_congr rfl fun ue member => ?_
    rw [Finset.sum_ite_eq, if_pos]
    obtain ⟨e, inEvents, rfl⟩ := List.mem_map.mp (List.mem_toFinset.mp member)
    exact List.mem_toFinset.mpr (List.mem_map_of_mem inEvents)
  · intro events window window' le
    rw [total, total]
    exact Finset.sum_le_sum fun ue _ => backAndForth_mono le (ofUe events ue)

/-- A handover of UE 1, and 30 seconds later the one back. -/
def there : Handover := ⟨10, some 1, some "A", some "B", none⟩

def andBack : Handover := ⟨40, some 1, some "B", some "A", none⟩

theorem pingpong_per_ue_swapped :
    (countPingpong [there, andBack] pingPongWindow).1 =
      (countPingpong [andBack, there] pingPongWindow).1 := by
  refine pingpong_per_ue.2.1 [there, andBack] [andBack, there] pingPongWindow ⟨.swap .., ?_⟩
  intro ue t
  -- no time has both
  by_cases early : there.time = t
  · have notLate : ¬ andBack.time = t := by
      rw [← early]
      decide
    simp [List.filter_cons, notLate]
  · simp [List.filter_cons, early]

end Pingpong

end NtnCho
