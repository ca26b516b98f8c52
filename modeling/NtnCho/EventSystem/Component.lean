import NtnCho.EventSystem.Basic

/-!
# Components of a discrete-event system

A component of a system sees part of the state, `view`, and the events relevant to it, `rel`. Its
relevant events act on what it sees as a handler of its own, and no other event touches it.

`Run.project`: what a component sees of a run is a run of its own handler. When relevant events
conflict with each other, that run is first-in first-out, hence determined by what the component
sees at the start (`Component.isolation`, `Component.isolation_until`): neither the rest of the
state nor the order of the other events matters.
-/

namespace EventSystem

variable {τ σ σ' ε : Type*}

/-- A part of a system that its own events act on alone. -/
structure Component (M : Handler τ σ ε) (σ' : Type*) where
  view : σ → σ'
  rel : ε → Bool
  handler : Handler τ σ' ε
  view_rel : ∀ {e t s}, rel e = true → view (M e t s).1 = (handler e t (view s)).1
  sched_rel : ∀ {e t s}, rel e = true →
    (M e t s).2.filter (fun q => rel q.ev) = (handler e t (view s)).2
  view_irrel : ∀ {e t s}, rel e = false → view (M e t s).1 = view s
  sched_irrel : ∀ {e t s}, rel e = false → (M e t s).2.filter (fun q => rel q.ev) = []

namespace Component

variable {M : Handler τ σ ε} (C : Component M σ')

/-- The relevant events of a queue. -/
def relevant (queue : List (Pending τ ε)) : List (Pending τ ε) := queue.filter fun q => C.rel q.ev

/-- What the component sees of a configuration. -/
def conf (c : Conf τ σ ε) : Conf τ σ' ε := ⟨C.view c.state, C.relevant c.queue⟩

/-- What the component sees of a history: its own firings. -/
def history (h : List (Firing τ σ ε)) : List (Firing τ σ' ε) :=
  h.filterMap fun f =>
    if C.rel f.event.ev then some ⟨C.conf f.before, f.event, C.conf f.after⟩ else none

theorem history_append (h₁ h₂ : List (Firing τ σ ε)) :
    C.history (h₁ ++ h₂) = C.history h₁ ++ C.history h₂ := List.filterMap_append

theorem history_singleton_rel {f : Firing τ σ ε} (rel : C.rel f.event.ev = true) :
    C.history [f] = [⟨C.conf f.before, f.event, C.conf f.after⟩] := by simp [history, rel]

theorem history_singleton_irrel {f : Firing τ σ ε} (irrel : C.rel f.event.ev = false) :
    C.history [f] = [] := by simp [history, irrel]

theorem mem_history {h : List (Firing τ σ ε)} {g : Firing τ σ' ε} :
    g ∈ C.history h ↔
      ∃ f ∈ h, C.rel f.event.ev = true ∧ g = ⟨C.conf f.before, f.event, C.conf f.after⟩ := by
  simp only [history, List.mem_filterMap, Option.ite_none_right_eq_some, Option.some.injEq]
  grind

/-- Firing among the relevant events keeps to the policy `ok'`. -/
def Projects (ok ok' : Policy τ ε) : Prop := ∀ {pre p post}, ok pre p post → C.rel p.ev = true →
  ok' (C.relevant pre) p (C.relevant post)

theorem projects_anyOrder : C.Projects anyOrder anyOrder := fun _ _ => trivial

/-- Relevant events that all conflict with each other fire in first-in first-out order. -/
theorem projects_fifo [LE τ] {conflict : ε → ε → Prop}
    (exclusive : ∀ {e e'}, C.rel e = true → C.rel e' = true → conflict e e') :
    C.Projects (timeOrder conflict) fifo := by
  rintro pre p post ⟨least, first⟩ rel
  refine ⟨fun q member => least q ?_, fun q member same _ => ?_⟩
  · rw [relevant, relevant, ← List.filter_append] at member
    exact List.mem_of_mem_filter member
  · obtain ⟨inPre, relq⟩ := List.mem_filter.mp member
    exact first q inPre same (exclusive relq rel)

variable {C} {ok ok' : Policy τ ε} {c₀ c c' : Conf τ σ ε} {p : Pending τ ε}
  {h : List (Firing τ σ ε)}

/-- A firing is invisible to the component or is a firing of its own handler. -/
theorem step_project (projects : C.Projects ok ok') (step : Step M ok c p c') :
    (C.rel p.ev = false ∧ C.conf c' = C.conf c) ∨
      (C.rel p.ev = true ∧ Step C.handler ok' (C.conf c) p (C.conf c')) := by
  cases step with
  | @fire s pre p post allowed =>
      cases rel : C.rel p.ev with
      | false =>
          refine .inl ⟨rfl, ?_⟩
          simp only [conf, Conf.fire, relevant, C.view_irrel rel, List.filter_append,
            C.sched_irrel rel, List.filter_cons, rel, Bool.false_eq_true, if_false,
            List.append_nil]
      | true =>
          refine .inr ⟨rfl, ?_⟩
          have before : C.conf ⟨s, pre ++ p :: post⟩ =
              ⟨C.view s, C.relevant pre ++ p :: C.relevant post⟩ := by
            simp only [conf, relevant, List.filter_append, List.filter_cons, rel, if_true]
          have after : C.conf (.fire M s pre p post) =
              .fire C.handler (C.view s) (C.relevant pre) p (C.relevant post) := by
            simp only [conf, Conf.fire, relevant, List.filter_append, C.view_rel rel,
              C.sched_rel rel]
          rw [before, after]
          exact .fire (projects allowed rel)

/-- What a component sees of a run is a run of its own handler. -/
theorem run_project (projects : C.Projects ok ok') (run : Run M ok c₀ h c) :
    Run C.handler ok' (C.conf c₀) (C.history h) (C.conf c) := by
  induction run with
  | nil => exact .nil
  | @snoc h c c' p _ step ih =>
      rw [history_append]
      rcases step_project projects step with ⟨irrel, same⟩ | ⟨rel, next⟩
      · rw [C.history_singleton_irrel (f := ⟨c, p, c'⟩) irrel, List.append_nil, same]
        exact ih
      · rw [C.history_singleton_rel (f := ⟨c, p, c'⟩) rel]
        exact .snoc ih next

section Isolation

variable {c₁ c₂ d₁ d₂ : Conf τ σ ε} {h₁ h₂ : List (Firing τ σ ε)}

/-- **Isolation.** In two runs that start alike for a component whose events conflict with each
other, the component goes through the same firings, as far as both runs go. -/
theorem isolation [LinearOrder τ] {conflict : ε → ε → Prop}
    (exclusive : ∀ {e e'}, C.rel e = true → C.rel e' = true → conflict e e')
    (run₁ : Run M (timeOrder conflict) c₁ h₁ d₁) (run₂ : Run M (timeOrder conflict) c₂ h₂ d₂)
    (alike : C.conf c₁ = C.conf c₂) :
    C.history h₁ <+: C.history h₂ ∨ C.history h₂ <+: C.history h₁ := by
  have left := run_project (C.projects_fifo exclusive) run₁
  have right := run_project (C.projects_fifo exclusive) run₂
  rw [alike] at left
  exact left.fifo_prefix right

/-- Two such runs that have both fired everything up to `t` agree for the component up to `t`. -/
theorem isolation_until [LinearOrder τ] {conflict : ε → ε → Prop} {I : σ' → Prop} {t : τ}
    (exclusive : ∀ {e e'}, C.rel e = true → C.rel e' = true → conflict e e')
    (forward : Forward C.handler I) (good : I (C.view c₂.state))
    (run₁ : Run M (timeOrder conflict) c₁ h₁ d₁) (run₂ : Run M (timeOrder conflict) c₂ h₂ d₂)
    (alike : C.conf c₁ = C.conf c₂) (idle₁ : ∀ q ∈ d₁.queue, t < q.ts)
    (idle₂ : ∀ q ∈ d₂.queue, t < q.ts) :
    (C.history h₁).filter (fun f => f.event.ts ≤ t) =
      (C.history h₂).filter (fun f => f.event.ts ≤ t) := by
  have left := run_project (C.projects_fifo exclusive) run₁
  have right := run_project (C.projects_fifo exclusive) run₂
  rw [alike] at left
  exact left.fifo_until forward good right
    (fun q member => idle₁ q (List.mem_of_mem_filter member))
    (fun q member => idle₂ q (List.mem_of_mem_filter member))

end Isolation

end Component

end EventSystem
