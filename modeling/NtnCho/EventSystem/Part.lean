import NtnCho.EventSystem.Basic

/-!
# Parts of a discrete-event system

A part of a system sees `view` of the state and those events that `event` translates into its own.
Unlike a `Component`, its handler may read the rest of the state, and its events are of a type of their
own.

`Part.step_project`: a firing of the system is invisible to the part or fires its handler.
`Part.run_project`: if the handler does not read the rest of the state, the part goes through a run.
-/

namespace EventSystem

variable {τ σ σ' ε ε' : Type*}

/-- The events of a queue that `event` translates. -/
def translate (event : ε → Option ε') (queue : List (Pending τ ε)) : List (Pending τ ε') :=
  queue.filterMap fun q => (event q.ev).map (Pending.mk q.ts)

section Translate

variable {event : ε → Option ε'} {queue : List (Pending τ ε)}

@[simp] theorem translate_nil : translate event ([] : List (Pending τ ε)) = [] := rfl

theorem translate_append (l l' : List (Pending τ ε)) :
    translate event (l ++ l') = translate event l ++ translate event l' := List.filterMap_append

theorem translate_cons_some {p : Pending τ ε} {e : ε'} (own : event p.ev = some e) :
    translate event (p :: queue) = ⟨p.ts, e⟩ :: translate event queue := by
  simp [translate, own]

theorem translate_cons_none {p : Pending τ ε} (other : event p.ev = none) :
    translate event (p :: queue) = translate event queue := by
  simp [translate, other]

theorem mem_translate {q : Pending τ ε'} :
    q ∈ translate event queue ↔ ∃ p ∈ queue, p.ts = q.ts ∧ event p.ev = some q.ev := by
  simp only [translate, List.mem_filterMap, Option.map_eq_some_iff]
  constructor
  · rintro ⟨p, member, e, found, rfl⟩
    exact ⟨p, member, rfl, found⟩
  · rintro ⟨p, member, same, found⟩
    exact ⟨p, member, q.ev, found, by rw [same]⟩

/-- Events that come from the part all stay. -/
theorem translate_map (back : ε' → ε) (own : ∀ e, event (back e) = some e)
    (l : List (Pending τ ε')) : translate event (l.map fun q => ⟨q.ts, back q.ev⟩) = l := by
  induction l with
  | nil => rfl
  | cons q l ih => rw [List.map_cons, translate_cons_some (own q.ev), ih]

theorem translate_eq_nil (other : ∀ q ∈ queue, event q.ev = none) : translate event queue = [] := by
  simp only [translate, List.filterMap_eq_nil_iff]
  intro q member
  rw [other q member, Option.map_none]

end Translate

/-- A part of a system that its own events act on alone. -/
structure Part (M : Handler τ σ ε) (σ' ε' : Type*) where
  view : σ → σ'
  event : ε → Option ε'
  handler : σ → Handler τ σ' ε'
  view_own : ∀ {e f t s}, event e = some f → view (M e t s).1 = (handler s f t (view s)).1
  sched_own : ∀ {e f t s}, event e = some f → translate event (M e t s).2 = (handler s f t (view s)).2
  view_other : ∀ {e t s}, event e = none → view (M e t s).1 = view s
  sched_other : ∀ {e t s}, event e = none → translate event (M e t s).2 = []

namespace Part

variable {M : Handler τ σ ε} (C : Part M σ' ε')

/-- What the part sees of a configuration. -/
def conf (c : Conf τ σ ε) : Conf τ σ' ε' := ⟨C.view c.state, translate C.event c.queue⟩

/-- What the part sees of a history: its own firings. -/
def history (h : List (Firing τ σ ε)) : List (Firing τ σ' ε') :=
  h.filterMap fun f =>
    (C.event f.event.ev).map fun e => ⟨C.conf f.before, ⟨f.event.ts, e⟩, C.conf f.after⟩

/-- Firing among the events of the part keeps to the policy `ok'`. -/
def Projects (ok : Policy τ ε) (ok' : Policy τ ε') : Prop := ∀ {pre p post e}, ok pre p post →
  C.event p.ev = some e → ok' (translate C.event pre) ⟨p.ts, e⟩ (translate C.event post)

/-- Time order is kept when no conflict of the part is lost. -/
theorem projects_timeOrder [LE τ] {conflict : ε → ε → Prop} {conflict' : ε' → ε' → Prop}
    (conflicts : ∀ {e e' f f'}, C.event e = some f → C.event e' = some f' → conflict' f f' →
      conflict e e') :
    C.Projects (timeOrder conflict) (timeOrder conflict') := by
  rintro pre p post e ⟨least, first⟩ own
  refine ⟨fun q member => ?_, fun q member same clash => ?_⟩
  · rw [← translate_append] at member
    obtain ⟨q', inQueue, ts, _⟩ := mem_translate.mp member
    rw [← ts]
    exact least q' inQueue
  · obtain ⟨q', inPre, ts, own'⟩ := mem_translate.mp member
    exact first q' inPre (ts.trans same) (conflicts own' own clash)

variable {C} {ok : Policy τ ε} {ok' : Policy τ ε'} {c₀ c c' : Conf τ σ ε} {p : Pending τ ε}
  {h : List (Firing τ σ ε)}

/-- A firing is invisible to the part or is a firing of its own handler. -/
theorem step_project (projects : C.Projects ok ok') (step : Step M ok c p c') :
    (C.event p.ev = none ∧ C.conf c' = C.conf c) ∨
      ∃ e, C.event p.ev = some e ∧
        Step (C.handler c.state) ok' (C.conf c) ⟨p.ts, e⟩ (C.conf c') := by
  cases step with
  | @fire s pre p post allowed =>
      cases own : C.event p.ev with
      | none =>
          refine .inl ⟨rfl, ?_⟩
          simp only [conf, Conf.fire, C.view_other own, translate_append, C.sched_other own,
            translate_cons_none own, List.append_nil]
      | some e =>
          refine .inr ⟨e, rfl, ?_⟩
          have before : C.conf ⟨s, pre ++ p :: post⟩ =
              ⟨C.view s, translate C.event pre ++ ⟨p.ts, e⟩ :: translate C.event post⟩ := by
            rw [conf, translate_append, translate_cons_some own]
          have after : C.conf (.fire M s pre p post) =
              .fire (C.handler s) (C.view s) (translate C.event pre) ⟨p.ts, e⟩
                (translate C.event post) := by
            simp only [conf, Conf.fire, translate_append, C.view_own own, C.sched_own own]
          rw [before, after]
          exact .fire (projects allowed own)

/-- What a part with one handler sees of a run is a run of that handler. -/
theorem run_project {H : Handler τ σ' ε'} (projects : C.Projects ok ok')
    (same : ∀ s, C.handler s = H) (run : Run M ok c₀ h c) :
    Run H ok' (C.conf c₀) (C.history h) (C.conf c) := by
  induction run with
  | nil => exact .nil
  | @snoc h c c' p _ step ih =>
      rw [history, List.filterMap_append]
      rcases step_project projects step with ⟨other, stays⟩ | ⟨e, own, next⟩
      · simp only [List.filterMap_cons, other, Option.map_none, List.filterMap_nil, List.append_nil]
        rw [stays]
        exact ih
      · simp only [List.filterMap_cons, own, Option.map_some, List.filterMap_nil]
        rw [same] at next
        exact .snoc ih next

end Part

end EventSystem
