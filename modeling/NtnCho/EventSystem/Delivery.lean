import Mathlib.Data.List.Induction
import Mathlib.Data.List.Perm.Basic
import Mathlib.Order.Lattice
import Mathlib.Order.Nat

/-!
# Packets with fixed arrival times

Packets are numbered in the order in which they are sent, and the time at which a packet arrives is
fixed when it is sent. The packets in flight are received in the order of these times, packets of one
time in the order in which they were sent.

`Deliveries` is what holds at any time of the packets received and in flight; `Deliveries.send` and
`Deliveries.deliver` keep it. `Deliveries.in_order_iff` says when packets come out in the order in
which they were sent.
-/

namespace EventSystem

variable {τ : Type*} [LinearOrder τ] {arrival arrival' : ℕ → τ} {received flying : List ℕ} {sent : ℕ}

/-- Packet `k` comes out before packet `l`. -/
def Before (arrival : ℕ → τ) (k l : ℕ) : Prop :=
  arrival k < arrival l ∨ arrival k = arrival l ∧ k < l

theorem Before.le {k l : ℕ} (before : Before arrival k l) : arrival k ≤ arrival l :=
  before.elim le_of_lt fun same => same.1.le

theorem Before.ne {k l : ℕ} (before : Before arrival k l) : k ≠ l := by
  rintro rfl
  rcases before with earlier | ⟨_, less⟩
  · exact lt_irrefl _ earlier
  · omega

/-- Of a packet that comes out before one sent earlier, the arrival is earlier. -/
theorem Before.lt {k l : ℕ} (before : Before arrival k l) (less : l < k) : arrival k < arrival l := by
  rcases before with earlier | ⟨_, less'⟩
  · exact earlier
  · omega

theorem before_of_le {k l : ℕ} (le : arrival k ≤ arrival l) (less : k < l) : Before arrival k l :=
  (lt_or_eq_of_le le).imp_right fun same => ⟨same, less⟩

/-- Of `sent` packets, `received` came out in this order and `flying` are in flight, in the order in
which they were sent. -/
structure Deliveries (arrival : ℕ → τ) (received flying : List ℕ) (sent : ℕ) : Prop where
  once : (received ++ flying).Perm (List.range sent)
  issued : flying.Pairwise (· < ·)
  ordered : received.Pairwise (Before arrival)
  later : ∀ k ∈ received, ∀ l ∈ flying, Before arrival k l

namespace Deliveries

theorem empty : Deliveries arrival [] [] 0 where
  once := .refl _
  issued := .nil
  ordered := .nil
  later := by simp

theorem lt_of_received (inv : Deliveries arrival received flying sent) {k : ℕ}
    (member : k ∈ received) : k < sent :=
  List.mem_range.mp (inv.once.subset (List.mem_append_left _ member))

theorem lt_of_flying (inv : Deliveries arrival received flying sent) {k : ℕ}
    (member : k ∈ flying) : k < sent :=
  List.mem_range.mp (inv.once.subset (List.mem_append_right _ member))

/-- Only the arrivals of the packets sent matter. -/
theorem congr (inv : Deliveries arrival received flying sent)
    (same : ∀ k < sent, arrival' k = arrival k) : Deliveries arrival' received flying sent where
  once := inv.once
  issued := inv.issued
  ordered := by
    refine inv.ordered.imp_of_mem fun {k l} inK inL before => ?_
    rwa [Before, same k (inv.lt_of_received inK), same l (inv.lt_of_received inL)]
  later k inK l inL := by
    rw [Before, same k (inv.lt_of_received inK), same l (inv.lt_of_flying inL)]
    exact inv.later k inK l inL

/-- A packet is sent that arrives no earlier than what was received. -/
theorem send (inv : Deliveries arrival received flying sent)
    (future : ∀ k ∈ received, arrival k ≤ arrival sent) :
    Deliveries arrival received (flying ++ [sent]) (sent + 1) where
  once := by
    rw [← List.append_assoc, List.range_succ]
    exact inv.once.append_right [sent]
  issued := by
    refine List.pairwise_append.mpr ⟨inv.issued, List.pairwise_singleton _ _, fun k member l last => ?_⟩
    rw [List.mem_singleton.mp last]
    exact inv.lt_of_flying member
  ordered := inv.ordered
  later k inK l inL := by
    rcases List.mem_append.mp inL with old | new
    · exact inv.later k inK l old
    · rw [List.mem_singleton.mp new]
      exact before_of_le (future k inK) (inv.lt_of_received inK)

/-- A packet in flight is received that arrives first, and among those of its time was sent first. -/
theorem deliver {pre post : List ℕ} {k : ℕ}
    (inv : Deliveries arrival received (pre ++ k :: post) sent)
    (least : ∀ l ∈ pre ++ post, arrival k ≤ arrival l) (first : ∀ l ∈ pre, arrival l ≠ arrival k) :
    Deliveries arrival (received ++ [k]) (pre ++ post) sent where
  once := by
    refine List.Perm.trans ?_ inv.once
    rw [List.append_assoc, List.singleton_append]
    exact List.perm_middle.symm.append_left received
  issued := inv.issued.sublist ((List.Sublist.refl pre).append (List.sublist_cons_self k post))
  ordered := by
    refine List.pairwise_append.mpr ⟨inv.ordered, List.pairwise_singleton _ _, fun l member m last => ?_⟩
    rw [List.mem_singleton.mp last]
    exact inv.later l member k (by simp)
  later l inL m inM := by
    rcases List.mem_append.mp inL with old | new
    · refine inv.later l old m ?_
      rcases List.mem_append.mp inM with inPre | inPost
      · exact List.mem_append_left _ inPre
      · exact List.mem_append_right _ (List.mem_cons_of_mem k inPost)
    · rw [List.mem_singleton.mp new]
      rcases List.mem_append.mp inM with inPre | inPost
      · exact .inl (lt_of_le_of_ne (least m inM) (first m inPre).symm)
      · have after := (List.pairwise_append.mp inv.issued).2.1
        exact before_of_le (least m inM) (List.rel_of_pairwise_cons after inPost)

/-- Ascending numbers without a gap are counted from zero. -/
theorem eq_range_of_closed {l : List ℕ} (ascending : l.Pairwise (· < ·))
    (closed : ∀ a ∈ l, ∀ b < a, b ∈ l) : l = List.range l.length := by
  induction l using List.reverseRecOn with
  | nil => rfl
  | append_singleton l a ih =>
      obtain ⟨ascending', _, below⟩ := List.pairwise_append.mp ascending
      have below : ∀ b ∈ l, b < a := fun b member => below b member a (List.mem_singleton_self a)
      have inFront : ∀ {b}, b < a → b ∈ l ++ [a] → b ∈ l := by
        intro b less member
        rcases List.mem_append.mp member with old | new
        · exact old
        · rw [List.mem_singleton.mp new] at less
          exact absurd less (lt_irrefl a)
      have shape : l = List.range l.length := ih ascending' fun b member d less =>
        inFront (less.trans (below b member)) (closed b (List.mem_append_left _ member) d less)
      have last : a = l.length := by
        apply le_antisymm
        · by_contra gap
          have member := inFront (not_le.mp gap) (closed a (by simp) l.length (not_le.mp gap))
          rw [shape, List.length_range] at member
          exact absurd member (by simp)
        · by_contra small
          have member : a ∈ l := by
            rw [shape]
            exact List.mem_range.mpr (not_le.mp small)
          exact absurd (below a member) (lt_irrefl a)
      rw [List.length_append, List.length_singleton, List.range_succ, ← shape, ← last]

/-- **In order.** Packets come out in the order in which they were sent, without a gap, exactly when
no packet received was to arrive before one that was sent before it. -/
theorem in_order_iff (inv : Deliveries arrival received flying sent) :
    received = List.range received.length ↔
      ∀ k l, k < l → l ∈ received → arrival k ≤ arrival l := by
  constructor
  · intro inOrder k l less member
    have bound : l < received.length := by
      rw [inOrder] at member
      exact List.mem_range.mp member
    have sorted := inv.ordered
    rw [inOrder, List.pairwise_iff_getElem] at sorted
    have before := sorted k l (by simp; omega) (by simpa using bound) less
    rw [List.getElem_range, List.getElem_range] at before
    exact before.le
  · intro never
    refine eq_range_of_closed ?_ ?_
    · refine inv.ordered.imp_of_mem fun {k l} inK inL before => ?_
      by_contra notLess
      have less : l < k := lt_of_le_of_ne (not_lt.mp notLess) before.ne.symm
      exact absurd (never l k less inK) (not_le.mpr (before.lt less))
    · intro l member k less
      have present : k ∈ received ++ flying :=
        inv.once.mem_iff.mpr (List.mem_range.mpr (less.trans (inv.lt_of_received member)))
      rcases List.mem_append.mp present with done | inFlight
      · exact done
      · exact absurd (never k l less member) (not_le.mpr ((inv.later l member k inFlight).lt less))

end Deliveries

end EventSystem
