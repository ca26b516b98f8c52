import Mathlib.Data.List.Infix
import Mathlib.Order.Lattice

/-!
# Discrete-event systems

A configuration is a state and the queue of pending events, in the order in which they were
scheduled. Firing an event removes it from the queue, runs the handler at the event's time stamp
and appends what the handler schedules.

* `Policy` says which pending event may fire: `anyOrder` any of them, `timeOrder conflict` one with
  the least time stamp that no conflicting event of the same time precedes, `fifo` the first of
  those with the least time stamp.
* `Run` is a run with its history, one `Firing` for each event; `Run.invariant` is its induction
  rule, `Run.split` cuts it at a firing, `Run.times_le` orders its time stamps.
* `splitMin` and `runFifo` execute the `fifo` policy.
-/

namespace EventSystem

variable {τ σ ε : Type*}

/-- An event waiting for its time stamp. -/
structure Pending (τ ε : Type*) where
  ts : τ
  ev : ε
  deriving DecidableEq

/-- What an event does to the state, and what it schedules. -/
abbrev Handler (τ σ ε : Type*) := ε → τ → σ → σ × List (Pending τ ε)

/-- A state and its pending events, oldest first. -/
structure Conf (τ σ ε : Type*) where
  state : σ
  queue : List (Pending τ ε)

/-- Which event of a queue `pre ++ p :: post` may fire. -/
abbrev Policy (τ ε : Type*) := List (Pending τ ε) → Pending τ ε → List (Pending τ ε) → Prop

/-- Every pending event may fire. -/
def anyOrder : Policy τ ε := fun _ _ _ => True

/-- An event of the least time stamp may fire unless a conflicting one of the same time was
scheduled before it. -/
def timeOrder [LE τ] (conflict : ε → ε → Prop) : Policy τ ε := fun pre p post =>
  (∀ q ∈ pre ++ post, p.ts ≤ q.ts) ∧ ∀ q ∈ pre, q.ts = p.ts → ¬ conflict q.ev p.ev

/-- The first event of the least time stamp fires. -/
def fifo [LE τ] : Policy τ ε := timeOrder fun _ _ => True

theorem timeOrder_of_fifo [LE τ] {conflict : ε → ε → Prop} {pre post : List (Pending τ ε)}
    {p : Pending τ ε} (h : fifo pre p post) : timeOrder conflict pre p post :=
  ⟨h.1, fun q member same => (h.2 q member same trivial).elim⟩

/-- The configuration after firing `p` out of `pre ++ p :: post`. -/
def Conf.fire (M : Handler τ σ ε) (s : σ) (pre : List (Pending τ ε)) (p : Pending τ ε)
    (post : List (Pending τ ε)) : Conf τ σ ε :=
  ⟨(M p.ev p.ts s).1, pre ++ post ++ (M p.ev p.ts s).2⟩

/-- One firing. -/
inductive Step (M : Handler τ σ ε) (ok : Policy τ ε) :
    Conf τ σ ε → Pending τ ε → Conf τ σ ε → Prop
  | fire {s : σ} {pre : List (Pending τ ε)} {p : Pending τ ε} {post : List (Pending τ ε)} :
    ok pre p post → Step M ok ⟨s, pre ++ p :: post⟩ p (.fire M s pre p post)

/-- A firing with the configurations around it. -/
structure Firing (τ σ ε : Type*) where
  before : Conf τ σ ε
  event : Pending τ ε
  after : Conf τ σ ε

/-- `Run M ok c₀ h c`: the firings `h`, oldest first, lead from `c₀` to `c`. -/
inductive Run (M : Handler τ σ ε) (ok : Policy τ ε) (c₀ : Conf τ σ ε) :
    List (Firing τ σ ε) → Conf τ σ ε → Prop
  | nil : Run M ok c₀ [] c₀
  | snoc {h : List (Firing τ σ ε)} {c c' : Conf τ σ ε} {p : Pending τ ε} :
    Run M ok c₀ h c → Step M ok c p c' → Run M ok c₀ (h ++ [⟨c, p, c'⟩]) c'

variable {M : Handler τ σ ε} {ok ok' : Policy τ ε} {c₀ c c' : Conf τ σ ε} {p : Pending τ ε}
  {h h' : List (Firing τ σ ε)}

theorem Step.mono (weaker : ∀ {pre p post}, ok pre p post → ok' pre p post)
    (step : Step M ok c p c') : Step M ok' c p c' := by
  cases step with
  | fire allowed => exact .fire (weaker allowed)

theorem Step.mem_queue (step : Step M ok c p c') : p ∈ c.queue := by
  cases step with
  | fire _ => simp

theorem Step.state_eq (step : Step M ok c p c') : c'.state = (M p.ev p.ts c.state).1 := by
  cases step with
  | fire _ => rfl

theorem Run.mono (weaker : ∀ {pre p post}, ok pre p post → ok' pre p post)
    (run : Run M ok c₀ h c) : Run M ok' c₀ h c := by
  induction run with
  | nil => exact .nil
  | snoc _ step ih => exact .snoc ih (step.mono weaker)

/-- Every run fires pending events, whatever its policy. -/
theorem Run.anyOrder (run : Run M ok c₀ h c) : Run M anyOrder c₀ h c :=
  run.mono fun _ => trivial

/-- **The invariant rule.** What holds at the start and is kept by every firing holds at the end of
every run. -/
theorem Run.invariant {I : Conf τ σ ε → Prop} (run : Run M ok c₀ h c) (init : I c₀)
    (keep : ∀ {c p c'}, I c → Step M ok c p c' → I c') : I c := by
  induction run with
  | nil => exact init
  | snoc _ step ih => exact keep ih step

/-- The run up to a firing of its history, and that firing. -/
theorem Run.split {h₁ h₂ : List (Firing τ σ ε)} {f : Firing τ σ ε}
    (run : Run M ok c₀ (h₁ ++ f :: h₂) c) :
    Run M ok c₀ h₁ f.before ∧ Step M ok f.before f.event f.after := by
  generalize hh : h₁ ++ f :: h₂ = h at run
  induction run generalizing h₂ with
  | nil => simp at hh
  | @snoc h c c' p prior step ih =>
      rcases List.eq_nil_or_concat h₂ with rfl | ⟨h₃, g, rfl⟩
      · obtain ⟨rfl, last⟩ := List.append_inj' hh rfl
        cases last
        exact ⟨prior, step⟩
      · rw [List.concat_eq_append, ← List.cons_append, ← List.append_assoc] at hh
        exact ih (List.append_inj_left' hh rfl)

/-- The first part of a run is a run. -/
theorem Run.exists_of_append (run : Run M ok c₀ (h ++ h') c) : ∃ c', Run M ok c₀ h c' := by
  cases h' with
  | nil => exact ⟨c, by simpa using run⟩
  | cons f _ => exact ⟨f.before, run.split.1⟩

/-- A run ends where its last firing leads. -/
theorem Run.end_eq (run : Run M ok c₀ h c) : c = (h.getLast?.map Firing.after).getD c₀ := by
  cases run with
  | nil => rfl
  | snoc _ _ => simp

theorem Run.end_unique (run : Run M ok c₀ h c) (run' : Run M ok' c₀ h c') : c = c' :=
  run.end_eq.trans run'.end_eq.symm

/-- A firing in front of a run. -/
theorem Run.cons {c₁ : Conf τ σ ε} (step : Step M ok c₀ p c₁) (run : Run M ok c₁ h c) :
    Run M ok c₀ (⟨c₀, p, c₁⟩ :: h) c := by
  induction run with
  | nil => exact .snoc .nil step
  | snoc _ next ih => exact .snoc ih next

theorem Run.step_of_mem {f : Firing τ σ ε} (run : Run M ok c₀ h c) (member : f ∈ h) :
    Step M ok f.before f.event f.after := by
  obtain ⟨h₁, h₂, rfl⟩ := List.append_of_mem member
  exact run.split.2

/-! ## Time -/

section Time

variable [Preorder τ]

/-- No pending event of `c` lies before `t`. -/
def Conf.NotBefore (t : τ) (c : Conf τ σ ε) : Prop := ∀ q ∈ c.queue, t ≤ q.ts

/-- From states that satisfy `I`, handlers schedule no event into the past. -/
def Forward (M : Handler τ σ ε) (I : σ → Prop) : Prop :=
  ∀ {ev t s}, I s → I (M ev t s).1 ∧ ∀ q ∈ (M ev t s).2, t ≤ q.ts

variable {I : σ → Prop} {conflict : ε → ε → Prop}

/-- After a firing nothing is pending before its time stamp. -/
theorem Step.notBefore (forward : Forward M I) (good : I c.state)
    (step : Step M (timeOrder conflict) c p c') : c'.NotBefore p.ts := by
  cases step with
  | fire allowed =>
      intro q member
      rcases List.mem_append.mp member with old | new
      · exact allowed.1 q old
      · exact (forward good).2 q new

/-- The event that fires is not later than any pending one. -/
theorem Step.le_of_mem {q : Pending τ ε} (step : Step M (timeOrder conflict) c p c')
    (member : q ∈ c.queue) : p.ts ≤ q.ts := by
  cases step with
  | fire allowed =>
      rcases List.mem_append.mp member with earlier | later
      · exact allowed.1 q (List.mem_append_left _ earlier)
      · rcases List.mem_cons.mp later with rfl | later
        · exact le_rfl
        · exact allowed.1 q (List.mem_append_right _ later)

theorem Step.le_of_notBefore {t : τ} (step : Step M ok c p c') (bound : c.NotBefore t) :
    t ≤ p.ts := by
  cases step with
  | fire _ => exact bound _ (by simp)

theorem Step.state_of_forward (forward : Forward M I) (good : I c.state)
    (step : Step M ok c p c') : I c'.state := by
  cases step with
  | fire _ => exact (forward good).1

theorem Run.state_of_forward (forward : Forward M I) (good : I c₀.state)
    (run : Run M ok c₀ h c) : I c.state :=
  run.invariant (I := fun c => I c.state) good fun good step => step.state_of_forward forward good

/-- Time never goes back: nothing is pending before an event that has fired. -/
theorem Run.notBefore (forward : Forward M I) (good : I c₀.state)
    (run : Run M (timeOrder conflict) c₀ h c) : ∀ f ∈ h, c.NotBefore f.event.ts := by
  induction run with
  | nil => simp
  | @snoc h c c' p prior step ih =>
      have now := step.notBefore forward (prior.state_of_forward forward good)
      intro f member
      rcases List.mem_append.mp member with old | new
      · exact fun q pending => (step.le_of_notBefore (ih f old)).trans (now q pending)
      · rw [List.mem_singleton.mp new]
        exact now

/-- Whatever the order of events, nothing is ever pending before the start. -/
theorem Run.notBefore_start {t : τ} (forward : Forward M I) (good : I c₀.state) (start : c₀.NotBefore t)
    (run : Run M ok c₀ h c) : c.NotBefore t := by
  induction run with
  | nil => exact start
  | @snoc h c c' p prior step ih =>
      have later := step.le_of_notBefore ih
      have good' := prior.state_of_forward forward good
      cases step with
      | @fire s pre p post _ =>
          intro q member
          rcases List.mem_append.mp member with old | new
          · refine ih q ?_
            rcases List.mem_append.mp old with before | after
            · exact List.mem_append_left _ before
            · exact List.mem_append_right _ (List.mem_cons_of_mem _ after)
          · exact later.trans ((forward good').2 q new)

/-- The time stamps of a history are ordered. -/
theorem Run.times_le {h₁ h₂ : List (Firing τ σ ε)} {f g : Firing τ σ ε} (forward : Forward M I)
    (good : I c₀.state) (run : Run M (timeOrder conflict) c₀ (h₁ ++ f :: h₂) c) (member : g ∈ h₁) :
    g.event.ts ≤ f.event.ts :=
  run.split.2.le_of_notBefore (run.split.1.notBefore forward good g member)

end Time

/-! ## The first-in first-out order -/

section Fifo

variable [LinearOrder τ]

/-- In first-in first-out order the event that fires is determined. -/
theorem fifo_unique {pre pre' post post' : List (Pending τ ε)} {p p' : Pending τ ε}
    (same : pre ++ p :: post = pre' ++ p' :: post') (h : fifo pre p post)
    (h' : fifo pre' p' post') : pre = pre' ∧ p = p' ∧ post = post' := by
  rcases List.append_eq_append_iff.mp same with ⟨as, hpre, hpost⟩ | ⟨bs, hpre, hpost⟩
  · cases as with
    | nil => simp_all
    | cons a as =>
        simp only [List.cons_append, List.cons.injEq] at hpost
        obtain ⟨rfl, rfl⟩ := hpost
        have le := h.1 p' (by simp)
        have ge := h'.1 p (by simp [hpre])
        exact (h'.2 p (by simp [hpre]) (le_antisymm le ge) trivial).elim
  · cases bs with
    | nil => simp_all
    | cons b bs =>
        simp only [List.cons_append, List.cons.injEq] at hpost
        obtain ⟨rfl, rfl⟩ := hpost
        have le := h'.1 p (by simp)
        have ge := h.1 p' (by simp [hpre])
        exact (h.2 p' (by simp [hpre]) (le_antisymm le ge) trivial).elim

theorem Step.fifo_unique {q : Pending τ ε} {c'' : Conf τ σ ε} (left : Step M fifo c p c')
    (right : Step M fifo c q c'') : p = q ∧ c' = c'' := by
  generalize hc : c = d at right
  cases left with
  | fire allowed =>
      cases right with
      | fire allowed' =>
          injection hc with state queue
          obtain ⟨rfl, rfl, rfl⟩ := EventSystem.fifo_unique queue allowed allowed'
          exact ⟨rfl, by rw [state]⟩

/-- Of two first-in first-out runs from one configuration, one history is a prefix of the other. -/
theorem Run.fifo_prefix (run : Run M fifo c₀ h c) (run' : Run M fifo c₀ h' c') :
    h <+: h' ∨ h' <+: h := by
  induction run generalizing h' c' with
  | nil => exact .inl h'.nil_prefix
  | @snoc h c d p prior step ih =>
      rcases ih run' with ⟨rest, rfl⟩ | shorter
      · cases rest with
        | nil => exact .inr ⟨[⟨c, p, d⟩], by simp⟩
        | cons f rest =>
            -- both runs stand at `c`, where one event is determined to fire
            obtain ⟨before, next⟩ := run'.split
            rcases f with ⟨_, q, e⟩
            obtain rfl : _ = c := before.end_unique prior
            obtain ⟨rfl, rfl⟩ := step.fifo_unique next
            exact .inl ⟨rest, by simp⟩
      · exact .inr (shorter.trans (List.prefix_append _ _))

/-- What a run fires after a configuration with nothing pending up to `t` lies beyond `t`. -/
theorem Run.lt_of_extends {I : σ → Prop} {t : τ} {rest : List (Firing τ σ ε)}
    (forward : Forward M I) (good : I c₀.state) (run : Run M fifo c₀ h c)
    (longer : Run M fifo c₀ (h ++ rest) c') (idle : ∀ q ∈ c.queue, t < q.ts) :
    ∀ f ∈ rest, t < f.event.ts := by
  intro f member
  obtain ⟨rest₁, rest₂, rfl⟩ := List.append_of_mem member
  have first : ∀ {g rest'}, Run M fifo c₀ (h ++ g :: rest') c' → t < g.event.ts := by
    intro g rest' longer
    obtain ⟨before, next⟩ := longer.split
    rw [before.end_unique run] at next
    exact idle _ next.mem_queue
  cases rest₁ with
  | nil => exact first longer
  | cons g rest₁ =>
      rw [← List.append_assoc] at longer
      have ordered := longer.times_le forward good (g := g) (by simp)
      rw [List.append_assoc] at longer
      exact (first longer).trans_le ordered

/-- Two first-in first-out runs from one configuration that have both fired everything up to `t`
agree up to `t`. -/
theorem Run.fifo_until {I : σ → Prop} {t : τ} (forward : Forward M I) (good : I c₀.state)
    (run : Run M fifo c₀ h c) (run' : Run M fifo c₀ h' c') (idle : ∀ q ∈ c.queue, t < q.ts)
    (idle' : ∀ q ∈ c'.queue, t < q.ts) :
    h.filter (fun f => f.event.ts ≤ t) = h'.filter (fun f => f.event.ts ≤ t) := by
  have beyond : ∀ {rest : List (Firing τ σ ε)}, (∀ f ∈ rest, t < f.event.ts) →
      rest.filter (fun f => f.event.ts ≤ t) = [] := fun late =>
    List.filter_eq_nil_iff.mpr fun f member => by simpa using late f member
  rcases run.fifo_prefix run' with ⟨rest, rfl⟩ | ⟨rest, rfl⟩
  · rw [List.filter_append, beyond (run.lt_of_extends forward good run' idle), List.append_nil]
  · rw [List.filter_append, beyond (run'.lt_of_extends forward good run idle'), List.append_nil]

/-- The first event of the least time stamp, with what stands before and after it. -/
def splitMin : List (Pending τ ε) →
    Option (List (Pending τ ε) × Pending τ ε × List (Pending τ ε))
  | [] => none
  | q :: rest =>
      match splitMin rest with
      | none => some ([], q, rest)
      | some (pre, p, post) => if q.ts ≤ p.ts then some ([], q, rest) else some (q :: pre, p, post)

theorem splitMin_eq_none {l : List (Pending τ ε)} : splitMin l = none ↔ l = [] := by
  cases l with
  | nil => simp [splitMin]
  | cons q rest =>
      simp only [splitMin, reduceCtorEq, iff_false]
      split
      · simp
      · split <;> simp

theorem splitMin_spec {l pre post : List (Pending τ ε)} {p : Pending τ ε}
    (found : splitMin l = some (pre, p, post)) : l = pre ++ p :: post ∧ fifo pre p post := by
  induction l generalizing pre p post with
  | nil => simp [splitMin] at found
  | cons q rest ih =>
      rw [splitMin] at found
      split at found
      · rename_i empty
        obtain rfl := splitMin_eq_none.mp empty
        simp only [Option.some.injEq, Prod.mk.injEq] at found
        obtain ⟨rfl, rfl, rfl⟩ := found
        exact ⟨rfl, by simp, by simp⟩
      · rename_i pre' p' post' least
        obtain ⟨rfl, le, strict⟩ := ih least
        split at found
        · rename_i first
          simp only [Option.some.injEq, Prod.mk.injEq] at found
          obtain ⟨rfl, rfl, rfl⟩ := found
          refine ⟨rfl, fun r member => ?_, by simp⟩
          rcases List.mem_append.mp member with nowhere | member
          · cases nowhere
          rcases List.mem_append.mp member with member | member
          · exact first.trans (le r (by simp [member]))
          rcases List.mem_cons.mp member with rfl | member
          · exact first
          · exact first.trans (le r (by simp [member]))
        · rename_i later
          simp only [Option.some.injEq, Prod.mk.injEq] at found
          obtain ⟨rfl, rfl, rfl⟩ := found
          refine ⟨rfl, fun r member => ?_, fun r member same => ?_⟩
          · rcases List.mem_cons.mp member with rfl | member
            · exact (not_le.mp later).le
            · exact le r member
          · rcases List.mem_cons.mp member with rfl | member
            · exact fun _ => later same.le
            · exact strict r member same

/-- Fire at most `n` events in first-in first-out order. -/
def runFifo (M : Handler τ σ ε) : ℕ → Conf τ σ ε → List (Firing τ σ ε) × Conf τ σ ε
  | 0, c => ([], c)
  | n + 1, c =>
      match splitMin c.queue with
      | none => ([], c)
      | some (pre, p, post) =>
          let c' := Conf.fire M c.state pre p post
          let rest := runFifo M n c'
          (⟨c, p, c'⟩ :: rest.1, rest.2)

theorem runFifo_run (n : ℕ) (c : Conf τ σ ε) :
    Run M fifo c (runFifo M n c).1 (runFifo M n c).2 := by
  induction n generalizing c with
  | zero => exact .nil
  | succ n ih =>
      rw [runFifo]
      split
      · exact .nil
      · rename_i pre p post least
        obtain ⟨queue, first⟩ := splitMin_spec least
        rcases c with ⟨s, _⟩
        subst queue
        exact .cons (.fire first) (ih _)

end Fifo

end EventSystem
