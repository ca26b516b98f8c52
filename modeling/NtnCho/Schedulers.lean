import Mathlib.Algebra.Group.Int.Defs
import Mathlib.Algebra.Group.Nat.Defs
import Mathlib.Data.Prod.Lex
import Mathlib.Order.Nat
import NtnCho.EventSystem.FutureEvents

/-!
# The event lists of ns-3

The events of the `Scheduler` interface and its implementations on a sorted list, on a map and on a
priority queue. Each is a lawful future event list: it hands out its events by time stamp and then by
number, whatever was inserted and removed before.
-/

namespace NtnCho

open EventSystem

namespace Scheduler

/-- `Scheduler::EventKey`. -/
structure EventKey where
  ts : ℕ
  uid : ℕ
  context : ℕ
  deriving DecidableEq

/-- `operator<` on keys. -/
def EventKey.less (a b : EventKey) : Bool :=
  if a.ts < b.ts then true
  else if a.ts = b.ts ∧ a.uid < b.uid then true
  else false

/-- `operator>` on keys. -/
def EventKey.greater (a b : EventKey) : Bool :=
  if a.ts > b.ts then true
  else if a.ts = b.ts ∧ a.uid > b.uid then true
  else false

/-- `operator==` on keys. -/
def EventKey.same (a b : EventKey) : Bool := a.uid == b.uid

/-- `Scheduler::Event`. -/
structure Event (ε : Type) where
  impl : ε
  key : EventKey
  deriving DecidableEq

variable {ε : Type}

/-- What events are ordered by. -/
def Event.order (ev : Event ε) : ℕ ×ₗ ℕ := toLex (ev.key.ts, ev.key.uid)

/-- What `Simulator` numbers events by. -/
def Event.uid (ev : Event ε) : ℕ := ev.key.uid

theorem Event.order_lt {a b : Event ε} :
    a.order < b.order ↔ a.key.ts < b.key.ts ∨ a.key.ts = b.key.ts ∧ a.key.uid < b.key.uid := by
  rw [order, order, Prod.Lex.toLex_lt_toLex]

theorem Event.order_le {a b : Event ε} :
    a.order ≤ b.order ↔ a.key.ts < b.key.ts ∨ a.key.ts = b.key.ts ∧ a.key.uid ≤ b.key.uid := by
  rw [order, order, Prod.Lex.toLex_le_toLex]

theorem Event.order_ne {a b : Event ε} (distinct : a.uid ≠ b.uid) : a.order ≠ b.order := by
  intro same
  have parts := toLex_inj.mp same
  exact distinct (congrArg Prod.snd parts)

theorem Event.less_eq (a b : Event ε) : a.key.less b.key = decide (a.order < b.order) := by
  rw [EventKey.less, Bool.eq_iff_iff, decide_eq_true_iff, Event.order_lt]
  split
  · simp [*]
  · split <;> simp_all

theorem Event.greater_eq (a b : Event ε) : a.key.greater b.key = b.key.less a.key := by
  simp only [EventKey.greater, EventKey.less, gt_iff_lt, eq_comm]

end Scheduler

open Scheduler

/-! ## ListScheduler -/

/-- `ListScheduler`. -/
def listScheduler (ε : Type) : FutureEvents (Scheduler.Event ε) where
  Queue := List (Scheduler.Event ε)
  empty := []
  insert ev events := insertBefore (fun ev i => ev.key.less i.key) ev events
  isEmpty events := events.isEmpty
  peekNext events := events.head?
  removeNext
    | [] => none
    | next :: events => some (next, events)
  remove ev events := events.eraseP fun i => i.key.uid == ev.key.uid

variable {ε : Type}

/-- Taking out the event with the number of `a` leaves the others. -/
theorem eraseP_uid {a : Scheduler.Event ε} {l : List (Scheduler.Event ε)}
    {s : Multiset (Scheduler.Event ε)} (contents : (l : Multiset (Scheduler.Event ε)) = a ::ₘ s)
    (distinct : ∀ b ∈ s, b.uid ≠ a.uid) :
    ((l.eraseP fun i => i.key.uid == a.key.uid : List (Scheduler.Event ε)) :
      Multiset (Scheduler.Event ε)) = s := by
  have member : a ∈ l := by
    rw [← Multiset.mem_coe, contents]
    exact Multiset.mem_cons_self a s
  obtain ⟨pre, post, rfl⟩ := List.append_of_mem member
  have left : s = (pre ++ post : List (Scheduler.Event ε)) := by
    rw [← Multiset.coe_eq_coe.mpr List.perm_middle.symm, ← Multiset.cons_coe] at contents
    exact ((Multiset.cons_inj_right a).mp contents).symm
  have others : ∀ b ∈ pre, ¬ (b.key.uid == a.key.uid) = true := by
    intro b inside
    have apart := distinct b (by rw [left]; exact List.mem_append_left post inside)
    simpa [Scheduler.Event.uid] using apart
  rw [List.eraseP_append_right _ (by simpa using others), List.eraseP_cons_of_pos (by simp), left]

/-- `ListScheduler` keeps its list sorted. -/
def listSchedulerLawful (ε : Type) :
    (listScheduler ε).Lawful Scheduler.Event.order fun _ => True where
  holds _ q s := HoldsSorted Scheduler.Event.order q s
  holds_empty := .nil
  holds_insert held _ _ fresh :=
    held.insertBefore (fun {b c} => Scheduler.Event.less_eq b c) fresh
  isEmpty_iff held := held.isEmpty_iff
  next := by
    intro floor q s held some_left
    obtain ⟨a, rest, rfl⟩ := held.ne_nil some_left
    obtain ⟨contents, least, left⟩ := held.cons
    exact ⟨a, rest, rest, ⟨rfl, rfl, contents, least, left⟩⟩

/-- The list takes events of any time. -/
theorem listScheduler_accepts : FutureEvents.Accepts (listSchedulerLawful ε) fun _ _ => True := by
  intro floor q s a held fits _ fresh
  exact @FutureEvents.Lawful.holds_insert _ _ _ _ _ _ _ (listSchedulerLawful ε) ⊥ q s a held fits bot_le fresh

theorem listScheduler_removes : FutureEvents.Removes (listSchedulerLawful ε) Scheduler.Event.uid := by
  intro floor q s a held distinct
  have found := eraseP_uid held.contents distinct
  exact ⟨held.sorted.sublist List.eraseP_sublist, found⟩

/-! ## MapScheduler -/

/-- `std::map::insert`: an entry with an equivalent key stays as it is. -/
def mapInsert (ev : Scheduler.Event ε) : List (Scheduler.Event ε) → List (Scheduler.Event ε)
  | [] => [ev]
  | i :: rest =>
      if ev.key.less i.key then ev :: i :: rest
      else if i.key.less ev.key then i :: mapInsert ev rest
      else i :: rest

/-- `MapScheduler`; the map is the list of its entries in the order of their keys. -/
def mapScheduler (ε : Type) : FutureEvents (Scheduler.Event ε) where
  Queue := List (Scheduler.Event ε)
  empty := []
  insert ev events := mapInsert ev events
  isEmpty events := events.isEmpty
  peekNext events := events.head?
  removeNext
    | [] => none
    | next :: events => some (next, events)
  remove ev events := events.eraseP fun i => !(i.key.less ev.key) && !(ev.key.less i.key)

/-- With distinct keys the map is filled as the list is. -/
theorem mapInsert_eq {a : Scheduler.Event ε} {q : List (Scheduler.Event ε)}
    (fresh : ∀ b ∈ q, b.order ≠ a.order) :
    mapInsert a q = insertBefore (fun ev i => ev.key.less i.key) a q := by
  induction q with
  | nil => rfl
  | cons b rest ih =>
      have later := ih fun c member => fresh c (List.mem_cons_of_mem b member)
      have apart := fresh b List.mem_cons_self
      rw [mapInsert, insertBefore, later, Scheduler.Event.less_eq, Scheduler.Event.less_eq]
      rcases lt_or_gt_of_ne apart with before | after
      · simp [before]
      · simp [after]

/-- `MapScheduler` keeps its entries sorted. -/
def mapSchedulerLawful (ε : Type) :
    (mapScheduler ε).Lawful Scheduler.Event.order fun _ => True where
  holds _ q s := HoldsSorted Scheduler.Event.order q s
  holds_empty := .nil
  holds_insert := by
    intro floor q s a held ok above fresh
    have same : (mapScheduler ε).insert a q = (listScheduler ε).insert a q := by
      refine mapInsert_eq fun b member => fresh b ?_
      rw [← held.contents]
      exact Multiset.mem_coe.mpr member
    rw [same]
    exact (listSchedulerLawful ε).holds_insert held ok above fresh
  isEmpty_iff held := held.isEmpty_iff
  next := by
    intro floor q s held some_left
    obtain ⟨a, rest, rfl⟩ := held.ne_nil some_left
    obtain ⟨contents, least, left⟩ := held.cons
    exact ⟨a, rest, rest, ⟨rfl, rfl, contents, least, left⟩⟩

theorem mapScheduler_accepts : FutureEvents.Accepts (mapSchedulerLawful ε) fun _ _ => True := by
  intro floor q s a held fits _ fresh
  exact @FutureEvents.Lawful.holds_insert _ _ _ _ _ _ _ (mapSchedulerLawful ε) ⊥ q s a held fits bot_le fresh

/-- Neither key comes before the other: `std::map::find` takes the two for one. -/
theorem equivalent_eq (a b : Scheduler.Event ε) :
    (!(b.key.less a.key) && !(a.key.less b.key)) = decide (b.order = a.order) := by
  rw [Scheduler.Event.less_eq, Scheduler.Event.less_eq, Bool.eq_iff_iff]
  simp only [Bool.and_eq_true, Bool.not_eq_true', decide_eq_false_iff_not, not_lt,
    decide_eq_true_iff]
  exact ⟨fun both => le_antisymm both.2 both.1, fun same => ⟨same.ge, same.le⟩⟩

theorem eraseP_congr {α : Type} {p p' : α → Bool} {l : List α} (same : ∀ b ∈ l, p b = p' b) :
    l.eraseP p = l.eraseP p' := by
  induction l with
  | nil => rfl
  | cons b rest ih =>
      rw [List.eraseP_cons, List.eraseP_cons, same b List.mem_cons_self,
        ih fun c member => same c (List.mem_cons_of_mem b member)]

theorem mapScheduler_removes : FutureEvents.Removes (mapSchedulerLawful ε) Scheduler.Event.uid := by
  intro floor q s a held distinct
  have same : (mapScheduler ε).remove a q = (listScheduler ε).remove a q := by
    refine eraseP_congr fun b member => ?_
    rw [equivalent_eq]
    have inside : b ∈ a ::ₘ s := by
      rw [← held.contents]
      exact Multiset.mem_coe.mpr member
    rcases Multiset.mem_cons.mp inside with rfl | other
    · simp
    · have apart := distinct b other
      simp [Scheduler.Event.order_ne apart, show b.key.uid ≠ a.key.uid from apart]
  rw [same]
  exact @listScheduler_removes ε floor q s a held distinct

/-! ## PriorityQueueScheduler -/

/-- `top` and `pop` of the `std::priority_queue`, which puts the events that are not greater on top. -/
def priorityPop : List (Scheduler.Event ε) →
    Option (Scheduler.Event ε × List (Scheduler.Event ε))
  | [] => none
  | ev :: rest =>
      match priorityPop rest with
      | none => some (ev, [])
      | some (top, others) =>
          if ev.key.greater top.key then some (top, ev :: others) else some (ev, rest)

/-- `PriorityQueueScheduler`; where an event stands in the container is left open. -/
def priorityQueueScheduler (ε : Type) : FutureEvents (Scheduler.Event ε) where
  Queue := List (Scheduler.Event ε)
  empty := []
  insert ev queue := ev :: queue
  isEmpty queue := queue.isEmpty
  peekNext queue := (priorityPop queue).map Prod.fst
  removeNext queue := priorityPop queue
  remove ev queue := queue.eraseP fun i => i.key.same ev.key

theorem priorityPop_eq_none {q : List (Scheduler.Event ε)} : priorityPop q = none ↔ q = [] := by
  cases q with
  | nil => simp [priorityPop]
  | cons ev rest =>
      simp only [priorityPop, reduceCtorEq, iff_false]
      split
      · simp
      · split <;> simp

theorem priorityPop_spec {q rest : List (Scheduler.Event ε)} {a : Scheduler.Event ε}
    (popped : priorityPop q = some (a, rest)) :
    q.Perm (a :: rest) ∧ ∀ b ∈ rest, a.order ≤ b.order := by
  induction q generalizing a rest with
  | nil => simp [priorityPop] at popped
  | cons ev others ih =>
      rw [priorityPop] at popped
      split at popped
      · rename_i none_left
        obtain rfl := priorityPop_eq_none.mp none_left
        obtain ⟨rfl, rfl⟩ : ev = a ∧ [] = rest := by simpa using popped
        exact ⟨.refl _, by simp⟩
      · rename_i top left taken
        obtain ⟨perm, least⟩ := ih taken
        rw [Scheduler.Event.greater_eq, Scheduler.Event.less_eq] at popped
        split at popped
        · rename_i below
          obtain ⟨rfl, rfl⟩ : top = a ∧ ev :: left = rest := by simpa using popped
          refine ⟨(perm.cons ev).trans (.swap top ev left), fun b member => ?_⟩
          rcases List.mem_cons.mp member with rfl | member
          · exact (of_decide_eq_true below).le
          · exact least b member
        · rename_i above
          obtain ⟨rfl, rfl⟩ : ev = a ∧ others = rest := by simpa using popped
          have first : ev.order ≤ top.order := by simpa using above
          refine ⟨.refl _, fun b member => ?_⟩
          rcases List.mem_cons.mp (perm.mem_iff.mp member) with rfl | member
          · exact first
          · exact first.trans (least b member)

/-- `PriorityQueueScheduler` pops an event of the least key. -/
def priorityQueueSchedulerLawful (ε : Type) :
    (priorityQueueScheduler ε).Lawful Scheduler.Event.order fun _ => True where
  holds _ q s := Multiset.ofList q = s
  holds_empty := rfl
  holds_insert := by
    rintro floor q s a rfl _ _ _
    rfl
  isEmpty_iff := by
    rintro floor q s rfl
    exact (Multiset.coe_eq_zero_iff_isEmpty q).symm
  next := by
    rintro floor q s rfl some_left
    cases popped : priorityPop q with
    | none => exact absurd ((Multiset.coe_eq_zero q).mpr (priorityPop_eq_none.mp popped)) some_left
    | some found =>
        obtain ⟨perm, least⟩ := priorityPop_spec popped
        exact ⟨found.1, found.2, found.2, ⟨popped, congrArg (Option.map Prod.fst) popped,
          Multiset.coe_eq_coe.mpr perm, least, rfl⟩⟩

theorem priorityQueueScheduler_accepts :
    FutureEvents.Accepts (priorityQueueSchedulerLawful ε) fun _ _ => True := by
  intro floor q s a held fits _ fresh
  exact @FutureEvents.Lawful.holds_insert _ _ _ _ _ _ _ (priorityQueueSchedulerLawful ε) ⊥ q s a held fits bot_le
    fresh

theorem priorityQueueScheduler_removes :
    FutureEvents.Removes (priorityQueueSchedulerLawful ε) Scheduler.Event.uid := by
  intro floor q s a held distinct
  exact eraseP_uid held distinct

/-! ## One for the other -/

/-- The map and the priority queue answer every sequence of calls as the list does. -/
theorem mapScheduler_answers {ops : List (Operation (Scheduler.Event ε))}
    (admissible : Admissible (fun _ _ => True) Scheduler.Event.order Scheduler.Event.uid (fun _ => True) ⊥ 0
      ops) :
    (mapScheduler ε).answers ops (mapScheduler ε).empty =
        (listScheduler ε).answers ops (listScheduler ε).empty ∧
      (priorityQueueScheduler ε).answers ops (priorityQueueScheduler ε).empty =
        (listScheduler ε).answers ops (listScheduler ε).empty :=
  ⟨(mapSchedulerLawful ε).answers_empty (listSchedulerLawful ε) mapScheduler_accepts listScheduler_accepts
      (fun _ _ => ⟨mapScheduler_removes, listScheduler_removes⟩) admissible,
    (priorityQueueSchedulerLawful ε).answers_empty (listSchedulerLawful ε) priorityQueueScheduler_accepts
      listScheduler_accepts (fun _ _ => ⟨priorityQueueScheduler_removes, listScheduler_removes⟩) admissible⟩

/-- An event that stands for its number. -/
def sampleEvent (ts uid : ℕ) : Scheduler.Event ℕ := ⟨uid, ⟨ts, uid, 0⟩⟩

/-- Three events of which the last comes first, one of them removed, and an event before the one that was
taken out last. -/
theorem mapScheduler_answers_three :
    let ops : List (Operation (Scheduler.Event ℕ)) :=
      [.insert (sampleEvent 5 4), .insert (sampleEvent 5 5), .insert (sampleEvent 2 6),
        .remove (sampleEvent 5 4), .removeNext, .insert (sampleEvent 1 7), .removeNext, .removeNext]
    (mapScheduler ℕ).answers ops (mapScheduler ℕ).empty =
        (listScheduler ℕ).answers ops (listScheduler ℕ).empty ∧
      (priorityQueueScheduler ℕ).answers ops (priorityQueueScheduler ℕ).empty =
        (listScheduler ℕ).answers ops (listScheduler ℕ).empty ∧
      ((listScheduler ℕ).answers ops (listScheduler ℕ).empty).map Prod.snd =
        [none, none, none, none, some (sampleEvent 2 6), none, some (sampleEvent 1 7),
          some (sampleEvent 5 5)] := by
  have admissible : Admissible (fun _ _ => True) Scheduler.Event.order Scheduler.Event.uid (fun _ => True) ⊥ 0
      [.insert (sampleEvent 5 4), .insert (sampleEvent 5 5), .insert (sampleEvent 2 6),
        .remove (sampleEvent 5 4), .removeNext, .insert (sampleEvent 1 7), .removeNext, .removeNext] := by
    refine ⟨⟨trivial, trivial, by simp⟩, ⟨trivial, trivial, by decide⟩, ⟨trivial, trivial, by decide⟩,
      {sampleEvent 2 6, sampleEvent 5 5}, by decide, by decide, by decide, fun a rest split least => ?_⟩
    rcases Multiset.cons_eq_cons.mp split with ⟨rfl, rfl⟩ | ⟨_, t, single, rfl⟩
    · exact ⟨⟨trivial, trivial, by decide⟩, admissible_removeNext (n := 2) (by decide)⟩
    · obtain rfl : a = sampleEvent 5 5 :=
        Multiset.mem_singleton.mp (single ▸ Multiset.mem_cons_self a t)
      exact absurd (least _ (Multiset.mem_cons_self _ t)) (by decide)
  exact ⟨(mapScheduler_answers admissible).1, (mapScheduler_answers admissible).2, by decide +kernel⟩

end NtnCho
