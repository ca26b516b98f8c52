import Mathlib.Algebra.BigOperators.Group.List.Basic
import Mathlib.Algebra.GroupWithZero.Nat
import NtnCho.EventSystem.Basic

/-!
# How many events a run fires

Events pay for what they cause. A pending event has a weight, the state may keep some more in store,
and some events bring in a credit; every firing costs at least one unit.

* `Run.length_add_funds_le`: a run is no longer than what it started with and the credits of its events.
* `exists_run_past`: if only so many events can fire up to a time, some run gets past that time.
* `exists_run_to`: and in some run an event that stops the system is the last to fire.
-/

namespace EventSystem

variable {τ σ ε : Type*} {M : Handler τ σ ε}

/-! ## Funds -/

/-- The weight of the events of a queue. -/
def weigh (weight : ε → ℕ) (queue : List (Pending τ ε)) : ℕ := (queue.map fun q => weight q.ev).sum

@[simp] theorem weigh_nil (weight : ε → ℕ) : weigh weight ([] : List (Pending τ ε)) = 0 := rfl

@[simp] theorem weigh_cons (weight : ε → ℕ) (q : Pending τ ε) (queue : List (Pending τ ε)) :
    weigh weight (q :: queue) = weight q.ev + weigh weight queue := rfl

@[simp] theorem weigh_append (weight : ε → ℕ) (l l' : List (Pending τ ε)) :
    weigh weight (l ++ l') = weigh weight l + weigh weight l' := by
  unfold weigh
  rw [List.map_append, List.sum_append]

/-- What the state has in store, what an event will cost, and what it brings in. -/
structure Budget (σ ε : Type*) where
  store : σ → ℕ
  weight : ε → ℕ
  credit : ε → ℕ

namespace Budget

variable (B : Budget σ ε)

/-- What there is for the events of the rest of a run. -/
def funds (c : Conf τ σ ε) : ℕ := B.store c.state + weigh B.weight c.queue

/-- What the events of a history have brought in. -/
def credits (h : List (Firing τ σ ε)) : ℕ := (h.map fun f => B.credit f.event.ev).sum

@[simp] theorem credits_nil : B.credits ([] : List (Firing τ σ ε)) = 0 := rfl

theorem credits_snoc (h : List (Firing τ σ ε)) (f : Firing τ σ ε) :
    B.credits (h ++ [f]) = B.credits h + B.credit f.event.ev := by
  unfold credits
  rw [List.map_append, List.sum_append, List.map_singleton, List.sum_singleton]

/-- The event pays for itself and for what it schedules. -/
def Covers (M : Handler τ σ ε) (s : σ) (p : Pending τ ε) : Prop :=
  B.store (M p.ev p.ts s).1 + weigh B.weight (M p.ev p.ts s).2 + 1 ≤
    B.store s + B.weight p.ev + B.credit p.ev

variable {B}

theorem Covers.step {ok : Policy τ ε} {c c' : Conf τ σ ε} {p : Pending τ ε}
    (covers : B.Covers M c.state p) (step : Step M ok c p c') :
    B.funds c' + 1 ≤ B.funds c + B.credit p.ev := by
  cases step with
  | @fire s pre p post _ =>
      unfold Covers at covers
      simp only [funds, Conf.fire, weigh_append, weigh_cons] at covers ⊢
      omega

end Budget

/-- **The length of a run.** If every event pays, a run is no longer than the funds at its start and
the credits of its events. -/
theorem Run.length_add_funds_le {B : Budget σ ε} {ok : Policy τ ε} {c₀ c : Conf τ σ ε}
    {h : List (Firing τ σ ε)} (run : Run M ok c₀ h c)
    (covers : ∀ f ∈ h, B.Covers M f.before.state f.event) :
    h.length + B.funds c ≤ B.funds c₀ + B.credits h := by
  induction run with
  | nil => exact (Nat.zero_add _).le
  | @snoc h c c' p _ step ih =>
      have before := ih fun f member => covers f (List.mem_append_left _ member)
      have paid : B.Covers M c.state p :=
        covers ⟨c, p, c'⟩ (List.mem_append_right _ List.mem_cons_self)
      have last := paid.step step
      rw [List.length_append, List.length_singleton, B.credits_snoc]
      dsimp only
      omega

/-! ## Runs that get somewhere -/

/-- What is pending at the start has fired, or still stands before all that has been scheduled since, in
the order in which it stood. -/
theorem Run.exists_left {ok : Policy τ ε} {c₀ c : Conf τ σ ε} {h : List (Firing τ σ ε)}
    (run : Run M ok c₀ h c) :
    ∃ old new, c.queue = old ++ new ∧ old.Sublist c₀.queue ∧
      ∀ q ∈ c₀.queue, q ∈ old ∨ ∃ f ∈ h, f.event = q := by
  induction run with
  | nil => exact ⟨c₀.queue, [], (List.append_nil _).symm, .refl _, fun q pending => .inl pending⟩
  | @snoc h c c' p _ step ih =>
      obtain ⟨old, new, queue, order, rest⟩ := ih
      have others : ∀ q ∈ c₀.queue, (∃ f ∈ h, f.event = q) →
          ∃ f ∈ h ++ [⟨c, p, c'⟩], f.event = q := fun q _ ⟨f, member, same⟩ =>
        ⟨f, List.mem_append_left _ member, same⟩
      cases step with
      | @fire s pre p post _ =>
          rcases List.append_eq_append_iff.mp queue with ⟨as, rfl, here⟩ | ⟨bs, rfl, here⟩
          · cases as with
            | nil =>
                rw [List.nil_append] at here
                refine ⟨pre, post ++ (M p.ev p.ts s).2, List.append_assoc .., by simpa using order,
                  fun q pending => ?_⟩
                rcases rest q pending with waits | fired
                · exact .inl (by simpa using waits)
                · exact .inr (others q pending fired)
            | cons a as =>
                obtain ⟨rfl, rfl⟩ := List.cons.inj here
                refine ⟨pre ++ as, new ++ (M p.ev p.ts s).2, ?_, ?_, fun q pending => ?_⟩
                · change pre ++ (as ++ new) ++ _ = _
                  simp only [List.append_assoc]
                · exact ((List.Sublist.refl pre).append (List.sublist_cons_self p as)).trans order
                · rcases rest q pending with waits | fired
                  · rcases List.mem_append.mp waits with before | after
                    · exact .inl (List.mem_append_left _ before)
                    rcases List.mem_cons.mp after with rfl | after
                    · exact .inr ⟨_, List.mem_append_right _ List.mem_cons_self, rfl⟩
                    · exact .inl (List.mem_append_right _ after)
                  · exact .inr (others q pending fired)
          · refine ⟨old, bs ++ post ++ (M p.ev p.ts s).2, ?_, order, fun q pending => ?_⟩
            · simp only [Conf.fire, List.append_assoc]
            · exact (rest q pending).imp_right (others q pending)

/-- What is pending at the start has fired or is pending still. -/
theorem Run.fired_or_pending {ok : Policy τ ε} {c₀ c : Conf τ σ ε} {h : List (Firing τ σ ε)}
    {q : Pending τ ε} (run : Run M ok c₀ h c) (pending : q ∈ c₀.queue) :
    q ∈ c.queue ∨ ∃ f ∈ h, f.event = q := by
  obtain ⟨old, new, queue, -, rest⟩ := run.exists_left
  refine (rest q pending).imp_left fun waits => ?_
  rw [queue]
  exact List.mem_append_left new waits

/-- An event at the head of the queue that no other precedes in time is the first to fire. -/
theorem Run.first_fires [PartialOrder τ] {s : σ} {q : Pending τ ε} {rest : List (Pending τ ε)}
    {f : Firing τ σ ε} {h : List (Firing τ σ ε)} {c : Conf τ σ ε}
    (run : Run M fifo ⟨s, q :: rest⟩ (f :: h) c) (least : ∀ r ∈ rest, q.ts ≤ r.ts) : f.event = q := by
  obtain ⟨start, step⟩ := @Run.split _ _ _ _ _ _ _ [] h f run
  have before : f.before = ⟨s, q :: rest⟩ := start.end_eq
  rw [before] at step
  generalize f.event = p, f.after = c' at step
  generalize queue : q :: rest = l at step
  cases step with
  | @fire _ pre p post allowed =>
      cases pre with
      | nil => exact (List.cons.inj queue).1.symm
      | cons r pre =>
          obtain ⟨rfl, rfl⟩ := List.cons.inj queue
          have soon : p.ts ≤ q.ts := allowed.1 q (List.mem_append_left _ List.mem_cons_self)
          have late : q.ts ≤ p.ts := least p (List.mem_append_right _ List.mem_cons_self)
          exact absurd trivial (allowed.2 q List.mem_cons_self (le_antisymm late soon))

section Past

variable [LinearOrder τ] {c₀ : Conf τ σ ε} {t : τ} {N : ℕ}

/-- **Getting past a time.** If at most `N` events can fire up to `t`, some run fires everything up
to `t`. -/
theorem exists_run_past
    (bound : ∀ {h c}, Run M fifo c₀ h c → (∀ f ∈ h, f.event.ts ≤ t) → h.length ≤ N) :
    ∃ h c, Run M fifo c₀ h c ∧ (∀ f ∈ h, f.event.ts ≤ t) ∧ ∀ q ∈ c.queue, t < q.ts := by
  by_contra stuck
  -- then a run up to `t` of any length could be continued
  have longer : ∀ n, ∃ h c, Run M fifo c₀ h c ∧ (∀ f ∈ h, f.event.ts ≤ t) ∧ h.length = n := by
    intro n
    induction n with
    | zero => exact ⟨[], c₀, .nil, by simp, rfl⟩
    | succ n ih =>
        obtain ⟨h, c, run, early, length⟩ := ih
        have left : ∃ q ∈ c.queue, q.ts ≤ t := by
          by_contra late
          refine stuck ⟨h, c, run, early, fun q member => ?_⟩
          by_contra here
          exact late ⟨q, member, not_lt.mp here⟩
        obtain ⟨q, member, here⟩ := left
        cases least : splitMin c.queue with
        | none =>
            rw [splitMin_eq_none.mp least] at member
            cases member
        | some found =>
            obtain ⟨pre, p, post⟩ := found
            obtain ⟨queue, first⟩ := splitMin_spec least
            rcases c with ⟨s, _⟩
            dsimp only at queue
            subst queue
            have step : Step M fifo ⟨s, pre ++ p :: post⟩ p (.fire M s pre p post) := .fire first
            have soon : p.ts ≤ t := (step.le_of_mem member).trans here
            refine ⟨_, _, .snoc run step, fun f fired => ?_, ?_⟩
            · rcases List.mem_append.mp fired with old | new
              · exact early f old
              · rw [List.mem_singleton.mp new]
                exact soon
            · rw [List.length_append, List.length_singleton, length]
  obtain ⟨h, c, run, early, length⟩ := longer (N + 1)
  have := bound run early
  omega

/-- **Getting to a stop.** If an event that stops the system is pending and only so many events can
fire up to its time, in some run it, or an earlier such event, is the last that fires. -/
theorem exists_run_to {p : Pending τ ε} (isStop : ε → Bool) (pending : p ∈ c₀.queue)
    (stops : isStop p.ev = true)
    (bound : ∀ {h c}, Run M fifo c₀ h c → (∀ f ∈ h, f.event.ts ≤ p.ts) → h.length ≤ N) :
    ∃ h f c, Run M fifo c₀ (h ++ [f]) c ∧ (∀ g ∈ h ++ [f], g.event.ts ≤ p.ts) ∧
      isStop f.event.ev = true ∧ ∀ g ∈ h, isStop g.event.ev = false := by
  obtain ⟨h, c, run, early, past⟩ := exists_run_past bound
  obtain ⟨g, fired, same⟩ : ∃ f ∈ h, f.event = p := by
    rcases run.fired_or_pending pending with waits | fired
    · exact absurd (past p waits) (lt_irrefl _)
    · exact fired
  have some_stop : (h.find? fun f => isStop f.event.ev).isSome = true := by
    rw [List.find?_isSome]
    exact ⟨g, fired, by rw [same]; exact stops⟩
  obtain ⟨f, first⟩ := Option.isSome_iff_exists.mp some_stop
  obtain ⟨stop, before, after, rfl, others⟩ := List.find?_eq_some_iff_append.mp first
  obtain ⟨until_f, step⟩ := run.split
  refine ⟨before, f, f.after, until_f.snoc step, fun g member => early g ?_, stop, fun g member => ?_⟩
  · rcases List.mem_append.mp member with old | new
    · exact List.mem_append_left _ old
    · rw [List.mem_singleton.mp new]
      exact List.mem_append_right _ List.mem_cons_self
  · simpa using others g member

end Past

end EventSystem
