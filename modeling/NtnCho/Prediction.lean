import NtnCho.Realisation
import NtnCho.Transcript

/-!
# The evaluation of a prediction

A tick schedules the evaluation of its prediction some seconds ahead. The evaluation and the tick of that
second fall on the same time, and the evaluation has been scheduled first, by an earlier tick or earlier in
the same one. So it runs first: what it reads is what the tick of the second before has left
(`future_reads_past`), never what the tick of its own second draws. The numbers are those that this tick
draws only if the cache was left with them.
-/

namespace NtnCho

open EventSystem Text

variable {P : Program} {env : Env}

/-! ## The ticks of a simulation -/

section Ticks

variable {rows : List UeRow} {h : List (Firing ℤ Sim Event)} {c : Conf ℤ Sim Event}

/-- The number of ticks that have fired. -/
def tickCount (P : Program) (env : Env) (h : List (Firing ℤ Sim Event)) : ℕ :=
  (ticks (ueHistory P env 0 h)).length

/-- A pending tick of a simulation has the number of the ticks before it. -/
theorem sim_eq_tickNumber (run : AnyOrderRun P env rows h c) {p : Pending ℤ Event} (pending : p ∈ c.queue)
    (tick : p.ev = .checkHandoverConditions) : p = tickNumber (tickCount P env h) := by
  refine eq_tickNumber (run.toUe 0) (List.mem_filter.mpr ⟨pending, ?_⟩) tick
  rw [tick]
  rfl

theorem sim_exists_tickNumber (run : AnyOrderRun P env rows h c) {f : Firing ℤ Sim Event} (member : f ∈ h)
    (tick : f.event.ev = .checkHandoverConditions) : ∃ n < tickCount P env h, f.event = tickNumber n := by
  have rel : (ueComponent P env 0).rel f.event.ev = true := by
    rw [tick]
    rfl
  have own := Component.mem_history (ueComponent P env 0) (g := ⟨_, f.event, _⟩) |>.mpr
    ⟨f, member, rel, rfl⟩
  exact exists_tickNumber (run.toUe 0) (mem_ticks.mpr ⟨own, tick⟩)

/-- A tick is always pending. -/
theorem sim_tick_pending (run : AnyOrderRun P env rows h c) :
    tickNumber (tickCount P env h) ∈ c.queue := by
  have pending : tickNumber (tickCount P env h) ∈ pendingTicks ((ueComponent P env 0).conf c).queue := by
    rw [(ueTicks_of_run (run.toUe 0)).1]
    exact List.mem_singleton_self _
  exact List.mem_of_mem_filter (List.mem_of_mem_filter pending)

/-- No other tick is pending besides one that fires. -/
theorem sim_tick_unique (run : AnyOrderRun P env rows h c) {p : Pending ℤ Event} {pre post : Schedule}
    (queue : c.queue = pre ++ p :: post) (tick : p.ev = .checkHandoverConditions) {q : Pending ℤ Event}
    (other : q ∈ pre ++ post) : q.ev ≠ .checkHandoverConditions := by
  intro tick'
  have single := (ueTicks_of_run (run.toUe 0)).1
  have seen : (pendingTicks ((ueComponent P env 0).conf c).queue) = c.queue.filter fun q =>
      q.ev = .checkHandoverConditions := by
    change (c.queue.filter _).filter _ = _
    rw [List.filter_filter]
    refine List.filter_congr fun q _ => ?_
    rcases q with ⟨ts, _ | _ | _⟩ <;> simp [ueComponent, Event.concerns]
  rw [seen, queue, List.filter_append, List.filter_cons_of_pos (by simpa using tick)] at single
  have count := congrArg List.length single
  have more : 0 < ((pre ++ post).filter fun q => q.ev = .checkHandoverConditions).length :=
    List.length_pos_of_mem (List.mem_filter.mpr ⟨other, by simpa using tick'⟩)
  rw [List.filter_append, List.length_append] at more
  rw [List.length_append, List.length_cons, List.length_singleton] at count
  omega

end Ticks

/-! ## What a handler schedules -/

/-- The effects of a handler schedule phases, and the evaluations of predictions. -/
theorem Sim.mem_scheduled_applyEffects {q : Pending ℤ Event} {now : ℤ} {s : Sim} {effects : List Effect}
    (scheduled : q ∈ (s.applyEffects now effects).2) :
    (∃ handler ueId sourceCell targetCell, q.ev = .cho handler ueId sourceCell targetCell) ∨
      ∃ r, .record (.predictionEval r) ∈ effects ∧
        q = ⟨now + seconds (max 0 (r.evalTime - getSeconds now)), .evaluatePendingPrediction r⟩ := by
  induction effects generalizing s with
  | nil => cases scheduled
  | cons effect effects ih =>
      rcases List.mem_append.mp scheduled with first | rest
      · rcases effect with ⟨delay, handler, ueId, sourceCell, targetCell⟩ | _ | _ | r
        · rw [List.mem_singleton.mp first]
          exact .inl ⟨handler, ueId, sourceCell, targetCell, rfl⟩
        · cases first
        · cases first
        · cases r with
          | predictionEval r => exact .inr ⟨r, List.mem_cons_self, List.mem_singleton.mp first⟩
          | _ => cases first
      · exact (ih rest).imp_right fun ⟨r, made, entry⟩ => ⟨r, List.mem_cons_of_mem _ made, entry⟩

theorem seconds_natCast (n : ℕ) : seconds n = n * 1000000000 := by
  unfold seconds
  rw [Int.floor_eq_iff]
  push_cast
  constructor <;> linarith

/-- A pending evaluation is due whole seconds after the tick that scheduled it, at a tick of the future. -/
structure Due (d : ℕ) (r : PendingPredictionEval) (m : ℕ) : Prop where
  eval : r.evalTime = m
  decision : r.decisionTime + d = m
  after : d ≤ m

/-- What the tick with number `n` schedules before the next tick. -/
theorem scheduled_of_tick {d n : ℕ} (delay : env.ho.predictionEvalDelay = d) {s s' : Sim}
    {q : Pending ℤ Event}
    (scheduled : q ∈ (s'.applyEffects (tickNumber n).ts
      (forEachUe (fun i => ueTick tdCho env i (getSeconds (tickNumber n).ts)) 0 s.ues).2).2) :
    (∃ handler ueId sourceCell targetCell, q.ev = .cho handler ueId sourceCell targetCell) ∨
      ∃ r, q = ⟨(tickNumber (n + d)).ts, .evaluatePendingPrediction r⟩ ∧ Due d r (n + d) := by
  refine (Sim.mem_scheduled_applyEffects scheduled).imp_right ?_
  rintro ⟨r, made, rfl⟩
  obtain ⟨j, ue, -, made⟩ := mem_forEachUe made
  rcases @evaluationRecord_of_ueAction env _ .checkHandoverConditions _ ue _ made with
    ⟨line, other⟩ | ⟨-, evaluated⟩
  · cases other
  · cases evaluated with
    | prediction r decision eval =>
        rw [getSeconds_tickNumber] at decision eval
        rw [delay] at eval
        have whole : max 0 (r.evalTime - getSeconds (tickNumber n).ts) = (d : ℚ) := by
          rw [getSeconds_tickNumber, eval, add_sub_cancel_left]
          exact max_eq_right (Nat.cast_nonneg d)
        refine ⟨r, ?_, by rw [eval, Nat.cast_add], by rw [decision, Nat.cast_add], Nat.le_add_left ..⟩
        rw [whole, seconds_natCast]
        simp only [tickNumber, Pending.mk.injEq, and_true]
        push_cast
        ring

/-! ## The order of the queue -/

/-- The evaluations that are pending precede the pending tick in the queue, and lie after all ticks that
have fired. -/
structure PredictionsAhead (d : ℕ) (h : List (Firing ℤ Sim Event)) (c : Conf ℤ Sim Event) : Prop where
  ordered : c.queue.Pairwise fun p q =>
    p.ev = .checkHandoverConditions → ∀ r, q.ev ≠ .evaluatePendingPrediction r
  due : ∀ q ∈ c.queue, ∀ r, q.ev = .evaluatePendingPrediction r → ∃ m, q.ts = (tickNumber m).ts ∧
    Due d r m ∧ ∀ f ∈ h, f.event.ev = .checkHandoverConditions → f.event.ts < q.ts

theorem tickNumber_lt {m n : ℕ} : (tickNumber m).ts < (tickNumber n).ts ↔ m < n := by
  simp only [tickNumber]
  omega

/-- An event other than a tick schedules phases alone. -/
theorem scheduled_of_phase {event : Event} (other : event ≠ .checkHandoverConditions) {now : ℤ} {s : Sim}
    {q : Pending ℤ Event} (scheduled : q ∈ (simHandler tdCho env event now s).2) :
    ∃ handler ueId sourceCell targetCell, q.ev = .cho handler ueId sourceCell targetCell := by
  cases event with
  | checkHandoverConditions => exact absurd rfl other
  | cho handler ueId sourceCell targetCell =>
      simp only [simHandler, Sim.cho] at scheduled
      split at scheduled
      · cases scheduled
      · rcases Sim.mem_scheduled_applyEffects scheduled with phase | ⟨r, made, -⟩
        · exact phase
        · obtain ⟨line, other⟩ := onlyLines_choHandler made
          cases other
  | evaluatePendingPrediction r => cases scheduled

/-- Only what is scheduled, and what was pending besides the event, is pending after it. -/
theorem mem_queue_fire {M : Handler ℤ Sim Event} {s : Sim} {pre post : Schedule} {p q : Pending ℤ Event}
    (pending : q ∈ (Conf.fire M s pre p post).queue) : q ∈ pre ++ post ∨ q ∈ (M p.ev p.ts s).2 :=
  List.mem_append.mp pending

/-- **The step lemma, for a tick.** An evaluation that is pending at a tick has been scheduled before it,
so it is due later. -/
theorem PredictionsAhead.tick {d : ℕ} (positive : 1 ≤ d) (delay : env.ho.predictionEvalDelay = d)
    {rows : List UeRow} {h : List (Firing ℤ Sim Event)} {s : Sim} {pre post : Schedule}
    {p : Pending ℤ Event} (ahead : PredictionsAhead d h ⟨s, pre ++ p :: post⟩)
    (prior : SimRun tdCho env rows h ⟨s, pre ++ p :: post⟩)
    (allowed : timeOrder Event.conflict pre p post) (tick : p.ev = .checkHandoverConditions) :
    PredictionsAhead d (h ++ [⟨⟨s, pre ++ p :: post⟩, p, .fire (simHandler tdCho env) s pre p post⟩])
      (.fire (simHandler tdCho env) s pre p post) := by
  obtain ⟨least, first⟩ := allowed
  have unique : ∀ q ∈ pre ++ post, q.ev ≠ .checkHandoverConditions := fun q other =>
    sim_tick_unique prior.anyOrder rfl tick other
  have fired : ∀ f ∈ h, f.event.ev = .checkHandoverConditions →
      ∃ k < tickCount tdCho env h, f.event = tickNumber k :=
    fun f member => sim_exists_tickNumber prior.anyOrder member
  obtain rfl : p = tickNumber (tickCount tdCho env h) := sim_eq_tickNumber prior.anyOrder (by simp) tick
  generalize tickCount tdCho env h = n at *
  have scheduled : ∀ q ∈ (simHandler tdCho env (tickNumber n).ev (tickNumber n).ts s).2,
      (∃ handler ueId sourceCell targetCell, q.ev = .cho handler ueId sourceCell targetCell) ∨
        (∃ r, q = ⟨(tickNumber (n + d)).ts, .evaluatePendingPrediction r⟩ ∧ Due d r (n + d)) ∨
        q = ⟨(tickNumber n).ts + seconds 1, .checkHandoverConditions⟩ := by
    intro q member
    rw [show (tickNumber n).ev = .checkHandoverConditions from rfl, simHandler,
      Sim.checkHandoverConditions_eq] at member
    rcases List.mem_append.mp member with effects | next
    · exact (scheduled_of_tick delay effects).imp_right .inl
    · exact .inr (.inr (List.mem_singleton.mp next))
  refine ⟨?_, ?_⟩
  · -- the next tick is last, and no other tick is left
    change (pre ++ post ++ (simHandler tdCho env .checkHandoverConditions (tickNumber n).ts s).2).Pairwise _
    rw [simHandler, Sim.checkHandoverConditions_eq, ← List.append_assoc]
    refine List.pairwise_append.mpr ⟨List.pairwise_of_forall_mem_list fun a member b _ tick' => ?_,
      List.pairwise_singleton .., fun a _ b next _ r evaluates => ?_⟩
    · rcases List.mem_append.mp member with old | new
      · exact absurd tick' (unique a old)
      · rcases scheduled_of_tick delay new with ⟨_, _, _, _, phase⟩ | ⟨r', rfl, -⟩
        · rw [phase] at tick'
          cases tick'
        · cases tick'
    · rw [List.mem_singleton.mp next] at evaluates
      cases evaluates
  · intro q pending r evaluates
    rcases mem_queue_fire pending with old | new
    · obtain ⟨m, time, dueAt, later⟩ := ahead.due q
        (((List.Sublist.refl pre).append (List.sublist_cons_self _ post)).subset old) r evaluates
      refine ⟨m, time, dueAt, fun f member ticking => ?_⟩
      rcases List.mem_append.mp member with earlier | now
      · exact later f earlier ticking
      · obtain rfl := List.mem_singleton.mp now
        rcases List.mem_append.mp old with before | after
        · refine lt_of_le_of_ne (least q (List.mem_append_left _ before)) fun same => ?_
          refine first q before same.symm ?_
          rw [evaluates]
          exact trivial
        · have order := (List.pairwise_append.mp ahead.ordered).2.1
          exact absurd evaluates ((List.pairwise_cons.mp order).1 q after rfl r)
    · rcases scheduled q new with ⟨_, _, _, _, phase⟩ | ⟨r', rfl, dueAt⟩ | rfl
      · rw [phase] at evaluates
        cases evaluates
      · obtain rfl := Event.evaluatePendingPrediction.inj evaluates
        refine ⟨n + d, rfl, dueAt, fun f member ticking => ?_⟩
        rcases List.mem_append.mp member with earlier | now
        · obtain ⟨k, before, event⟩ := fired f earlier ticking
          rw [event]
          exact tickNumber_lt.mpr (by omega)
        · obtain rfl := List.mem_singleton.mp now
          exact tickNumber_lt.mpr (by omega)
      · cases evaluates

/-- **The step lemma, for another event.** It schedules no evaluation. -/
theorem PredictionsAhead.phase {d : ℕ} {h : List (Firing ℤ Sim Event)} {s : Sim} {pre post : Schedule}
    {p : Pending ℤ Event} (ahead : PredictionsAhead d h ⟨s, pre ++ p :: post⟩)
    (other : p.ev ≠ .checkHandoverConditions) :
    PredictionsAhead d (h ++ [⟨⟨s, pre ++ p :: post⟩, p, .fire (simHandler tdCho env) s pre p post⟩])
      (.fire (simHandler tdCho env) s pre p post) := by
  have left := (List.Sublist.refl pre).append (List.sublist_cons_self p post)
  have phases : ∀ q ∈ (simHandler tdCho env p.ev p.ts s).2, ∀ r, q.ev ≠ .evaluatePendingPrediction r := by
    intro q scheduled r evaluates
    obtain ⟨_, _, _, _, phase⟩ := scheduled_of_phase other scheduled
    rw [phase] at evaluates
    cases evaluates
  refine ⟨?_, fun q pending r evaluates => ?_⟩
  · exact List.pairwise_append.mpr ⟨ahead.ordered.sublist left,
      List.pairwise_of_forall_mem_list fun _ _ q scheduled _ => phases q scheduled,
      fun _ _ q scheduled _ => phases q scheduled⟩
  · rcases mem_queue_fire pending with old | new
    · obtain ⟨m, time, dueAt, later⟩ := ahead.due q (left.subset old) r evaluates
      refine ⟨m, time, dueAt, fun f member ticking => ?_⟩
      rcases List.mem_append.mp member with earlier | now
      · exact later f earlier ticking
      · obtain rfl := List.mem_singleton.mp now
        exact absurd ticking other
    · exact absurd evaluates (phases q new r)

/-- **The run lemma.** -/
theorem predictionsAhead_of_run {d : ℕ} (positive : 1 ≤ d) (delay : env.ho.predictionEvalDelay = d)
    {rows : List UeRow} {h : List (Firing ℤ Sim Event)} {c : Conf ℤ Sim Event}
    (run : SimRun tdCho env rows h c) : PredictionsAhead d h c := by
  induction run with
  | nil =>
      refine ⟨List.pairwise_singleton .., fun q pending r evaluates => ?_⟩
      rw [List.mem_singleton.mp pending] at evaluates
      cases evaluates
  | @snoc h c c' p prior step ahead =>
      cases step with
      | fire allowed =>
          by_cases tick : p.ev = .checkHandoverConditions
          · exact ahead.tick positive delay prior allowed tick
          · exact ahead.phase tick

/-! ## What an evaluation reads -/

theorem length_ticks_ueHistory {rows : List UeRow} {h : List (Firing ℤ Sim Event)} {c : Conf ℤ Sim Event}
    (run : AnyOrderRun P env rows h c) (i : ℕ) :
    (ticks (ueHistory P env i h)).length = tickCount P env h := by
  have pending : tickNumber (ticks (ueHistory P env i h)).length ∈
      pendingTicks ((ueComponent P env i).conf c).queue := by
    rw [(ueTicks_of_run (run.toUe i)).1]
    exact List.mem_singleton_self _
  have same := sim_eq_tickNumber run (List.mem_of_mem_filter (List.mem_of_mem_filter pending)) rfl
  have ts := congrArg Pending.ts same
  simp only [tickNumber] at ts
  omega

/-- Between two ticks the physical layer of a UE is what the first one left. -/
theorem phy_of_lastTick {ok : Policy ℤ Event} {i : ℕ} {rows : List UeRow}
    {h : List (Firing ℤ (Option UeInfo) Event)} {c : Conf ℤ (Option UeInfo) Event} {ue : UeInfo}
    (run : Run (ueHandler tdCho env i) ok (ueInitial env rows i) h c) (present : c.state = some ue)
    {g : Firing ℤ (Option UeInfo) Event} (last : (ticks h).getLast? = some g) :
    ∃ ue', g.after.state = some ue' ∧ ue.phy = ue'.phy := by
  revert g
  refine ueRun_history (I := fun h _ ue => ∀ {g}, (ticks h).getLast? = some g →
    ∃ ue', g.after.state = some ue' ∧ ue.phy = ue'.phy) run ?_ ?_ present
  · intro row _ g last
    cases last
  intro h c p c' ue prior step present concerns before g last
  rcases p with ⟨ts, _ | ⟨handler, ueId, sourceCell, targetCell⟩ | _⟩
  · rw [ticks_snoc rfl, List.getLast?_concat] at last
    obtain rfl := Option.some.inj last
    obtain ⟨_, _, _, _, after⟩ := ueStep step present
    exact ⟨_, after.state, rfl⟩
  · rw [ticks_snoc_of_ne (by simp)] at last
    rw [ueAction_cho, (sameLink_choHandler tdCho env handler i sourceCell targetCell (getSeconds ts) ue).phy]
    exact before last
  · cases concerns

/-- The evaluation `f` reads the past: the physical layer that `g`, the tick of the second before it,
left. -/
structure ReadsPast (env : Env) (h : List (Firing ℤ Sim Event)) (f : Firing ℤ Sim Event)
    (r : PendingPredictionEval) (g : Firing ℤ (Option UeInfo) Event) : Prop where
  last : (ticks (ueHistory tdCho env r.ueId h)).getLast? = some g
  second : fireTime g + 1 = getSeconds f.event.ts
  left : ∀ ue, f.before.state.ues[r.ueId]? = some ue → ∃ ue', g.after.state = some ue' ∧ ue.phy = ue'.phy

/-- The evaluation `f` prints of each of its cells that is in coverage at the tick `g` the SNR that step 1
of this tick draws. -/
def PrintsDrawn (env : Env) (f : Firing ℤ Sim Event) (r : PendingPredictionEval)
    (g : Firing ℤ (Option UeInfo) Event) : Prop :=
  ∀ line ∈ newLines f, ∀ ue ∈ g.before.state,
    ∀ printed ∈ [("future_serving_sinr", r.servingCell), ("future_neighbor_sinr", r.neighborCell)],
      InCoverage env ue.geo printed.2 (fireTime g) →
        (line.value printed.1).map Field.text =
          ((stepOne tdCho env (fireTime g) ue).lookup printed.2).map fun m => showFixed 2 m.snrDb

/-- The tick `g'` leaves in the cache, for each of the cells that is in coverage at the tick `g`, an SNR
that is printed like the one that step 1 of `g` draws; unless one of the cells is not in the cache. -/
def LeavesDrawn (env : Env) (g' : Firing ℤ (Option UeInfo) Event) (r : PendingPredictionEval)
    (g : Firing ℤ (Option UeInfo) Event) : Prop :=
  ∀ ue' ∈ g'.after.state, (ue'.cached r.servingCell).isSome → (ue'.cached r.neighborCell).isSome →
    ∀ ue ∈ g.before.state, ∀ cellId ∈ [r.servingCell, r.neighborCell],
      InCoverage env ue.geo cellId (fireTime g) →
        (ue'.cached cellId).map (fun m => showFixed 2 m.snrDb) =
          ((stepOne tdCho env (fireTime g) ue).lookup cellId).map fun m => showFixed 2 m.snrDb

instance (env : Env) (f : Firing ℤ Sim Event) (r : PendingPredictionEval)
    (g : Firing ℤ (Option UeInfo) Event) : Decidable (PrintsDrawn env f r g) :=
  inferInstanceAs (Decidable (∀ line ∈ newLines f, ∀ ue ∈ g.before.state, ∀ _ ∈ _, _ → _))

/-- The line that is printed of a UE. -/
def futureDebug (now : ℚ) (r : PendingPredictionEval) (ue : UeInfo) : Option LogLine := do
  let serving ← ue.cached r.servingCell
  let neighbor ← ue.cached r.neighborCell
  some (.stdout "FUTURE_DEBUG"
    [("ue", .nat r.ueId), ("t_decision", .fixed 3 r.decisionTime), ("t_eval", .fixed 3 now),
      ("future_serving_sinr", .fixed 2 serving.snrDb), ("future_neighbor_sinr", .fixed 2 neighbor.snrDb)])

/-- An evaluation prints the cached SNRs, if the UE and both cells are there. -/
theorem newLines_evaluation {ok : Policy ℤ Event} {f : Firing ℤ Sim Event} {r : PendingPredictionEval}
    (step : Step (simHandler tdCho env) ok f.before f.event f.after)
    (evaluates : f.event.ev = .evaluatePendingPrediction r) :
    newLines f =
      (f.before.state.ues[r.ueId]?.bind (futureDebug (getSeconds f.event.ts) r)).toList := by
  unfold newLines
  rw [step.state_eq, evaluates, simHandler]
  unfold Sim.evaluatePendingPrediction
  rcases f.before.state.ues[r.ueId]? with _ | ue
  · exact List.drop_length
  · dsimp only
    rw [Option.bind_some, futureDebug]
    rcases ue.cached r.servingCell with _ | serving
    · exact List.drop_length
    · rcases ue.cached r.neighborCell with _ | neighbor
      · exact List.drop_length
      · exact List.drop_left

/-- With the cache that `g'` left, the drawn SNRs are printed if they have been left. -/
theorem printsDrawn_iff {f : Firing ℤ Sim Event} {r : PendingPredictionEval}
    {g g' : Firing ℤ (Option UeInfo) Event} {ue ue' : UeInfo}
    (lines : newLines f = (futureDebug (getSeconds f.event.ts) r ue).toList)
    (left : g'.after.state = some ue') (same : ue.phy = ue'.phy) :
    PrintsDrawn env f r g ↔ LeavesDrawn env g' r g := by
  have cached : ∀ cellId, ue.cached cellId = ue'.cached cellId := fun cellId => by
    unfold UeInfo.cached
    rw [same]
  unfold PrintsDrawn LeavesDrawn
  rw [lines, left, futureDebug, cached, cached]
  constructor
  · intro prints ue'' own serving neighbor ue₀ present cellId member inside
    obtain rfl := Option.some.inj own
    obtain ⟨m, serving⟩ := Option.isSome_iff_exists.mp serving
    obtain ⟨m', neighbor⟩ := Option.isSome_iff_exists.mp neighbor
    rw [serving, neighbor] at prints
    have printed := prints _ (List.mem_singleton_self _) ue₀ present
    rcases List.mem_pair.mp member with rfl | rfl
    · rw [serving]
      exact printed ("future_serving_sinr", r.servingCell) (by simp) inside
    · rw [neighbor]
      exact printed ("future_neighbor_sinr", r.neighborCell) (by simp) inside
  · intro leaves line printed ue₀ present pair member inside
    obtain ⟨m, serving, rest⟩ := Option.bind_eq_some_iff.mp (Option.mem_toList.mp printed)
    obtain ⟨m', neighbor, rest⟩ := Option.bind_eq_some_iff.mp rest
    obtain rfl := Option.some.inj rest
    have drawn := leaves ue' rfl (by rw [serving]; rfl) (by rw [neighbor]; rfl) ue₀ present
    rcases List.mem_pair.mp member with rfl | rfl
    · have := drawn r.servingCell (by simp) inside
      rw [serving] at this
      exact this
    · have := drawn r.neighborCell (by simp) inside
      rw [neighbor] at this
      exact this

/-- A UE that is not there has never been. -/
theorem after_of_none {ok : Policy ℤ Event} {i : ℕ} {rows : List UeRow}
    {h : List (Firing ℤ (Option UeInfo) Event)} {c : Conf ℤ (Option UeInfo) Event}
    (run : Run (ueHandler P env i) ok (ueInitial env rows i) h c) (absent : c.state = none)
    {g : Firing ℤ (Option UeInfo) Event} (member : g ∈ h) : g.after.state = none := by
  have known := ueRun_isSome run
  obtain ⟨h₁, h₂, rfl⟩ := List.append_of_mem member
  obtain ⟨prior, step⟩ := run.split
  rw [absent, ← ueRun_isSome (prior.snoc step)] at known
  exact Option.isNone_iff_eq_none.mp (by simpa using known.symm)

/-- An evaluation fires at its due time, the number of the ticks that have fired before it, and reads what
the last of them has left. -/
theorem exists_readsPast {rows : List UeRow} {c : Conf ℤ Sim Event} {d : ℕ} (positive : 1 ≤ d)
    (delay : env.ho.predictionEvalDelay = d) {h₁ h₂ : List (Firing ℤ Sim Event)}
    {f : Firing ℤ Sim Event} (run : SimRun tdCho env rows (h₁ ++ f :: h₂) c) {r : PendingPredictionEval}
    (evaluates : f.event.ev = .evaluatePendingPrediction r) :
    getSeconds f.event.ts = r.decisionTime + d ∧
      getSeconds f.event.ts = (tickCount tdCho env h₁ : ℕ) ∧ ∃ g', ReadsPast env h₁ f r g' := by
  obtain ⟨prior, step⟩ := run.split
  obtain ⟨m, time, dueAt, later⟩ := (predictionsAhead_of_run positive delay prior).due f.event
    step.mem_queue r evaluates
  have own := length_ticks_ueHistory prior.anyOrder r.ueId
  have ownRun := SimRun.toUe prior r.ueId
  have seconds : getSeconds f.event.ts = m := by rw [time, getSeconds_tickNumber]
  have bound : m ≤ tickCount tdCho env h₁ := by
    have le := step.le_of_mem (sim_tick_pending prior.anyOrder)
    rw [time] at le
    exact not_lt.mp fun more => absurd (tickNumber_lt.mpr more) (not_lt.mpr le)
  obtain ⟨g', last⟩ : ∃ g', (ticks (ueHistory tdCho env r.ueId h₁)).getLast? = some g' := by
    have some_tick : 0 < (ticks (ueHistory tdCho env r.ueId h₁)).length := by
      rw [own]
      exact (positive.trans dueAt.after).trans bound
    exact ⟨_, List.getLast?_eq_some_getLast (List.ne_nil_of_length_pos some_tick)⟩
  obtain ⟨event, some_tick⟩ := lastTick_event ownRun last
  have count : m = tickCount tdCho env h₁ := by
    have ticking := mem_ticks.mp (List.mem_of_getLast? last)
    obtain ⟨f', member, -, rfl⟩ := (Component.mem_history (ueComponent tdCho env r.ueId)).mp ticking.1
    have before := later f' member ticking.2
    rw [show f'.event = _ from event, time, tickNumber_lt, own] at before
    rw [own] at some_tick
    omega
  refine ⟨seconds.trans dueAt.decision.symm, by rw [seconds, count], g', last, ?_,
    fun ue present => phy_of_lastTick ownRun present last⟩
  rw [fireTime, event, getSeconds_tickNumber, seconds, own, ← count]
  rw [own, ← count] at some_tick
  exact_mod_cast Nat.sub_add_cancel some_tick

/-- A tick at the time at which an evaluation fires after as many ticks as seconds comes after it. -/
theorem mem_ticks_after {rows : List UeRow} {h₁ h₂ : List (Firing ℤ Sim Event)} {f : Firing ℤ Sim Event}
    {c : Conf ℤ Sim Event} (run : SimRun tdCho env rows (h₁ ++ f :: h₂) c) {r : PendingPredictionEval}
    (evaluates : f.event.ev = .evaluatePendingPrediction r)
    (due : getSeconds f.event.ts = (tickCount tdCho env h₁ : ℕ)) {g : Firing ℤ (Option UeInfo) Event}
    (ticking : g ∈ ticks (ueHistory tdCho env r.ueId (h₁ ++ f :: h₂)))
    (now : fireTime g = getSeconds f.event.ts) : g ∈ ticks (ueHistory tdCho env r.ueId h₂) := by
  obtain ⟨prior, -⟩ := run.split
  have parts : ticks (ueHistory tdCho env r.ueId (h₁ ++ f :: h₂)) =
      ticks (ueHistory tdCho env r.ueId h₁) ++ ticks (ueHistory tdCho env r.ueId h₂) := by
    have irrel : (ueComponent tdCho env r.ueId).rel f.event.ev = false := by
      rw [evaluates]
      rfl
    rw [List.append_cons, List.append_assoc, ueHistory, Component.history_append, Component.history_append,
      Component.history_singleton_irrel _ irrel, List.nil_append, ticks_append]
  rw [parts] at ticking
  refine (List.mem_append.mp ticking).resolve_left fun earlier => ?_
  obtain ⟨k, before, event⟩ := exists_tickNumber (SimRun.toUe prior r.ueId) earlier
  rw [fireTime, event, getSeconds_tickNumber, due] at now
  rw [length_ticks_ueHistory prior.anyOrder r.ueId] at before
  exact absurd (Nat.cast_inj.mp now) before.ne

/-- **An evaluation reads the past.** An evaluation fires at the time for which it was scheduled, a
positive number of whole seconds after the decision, before the tick of this time: it reads what the tick
before has left. So the SNRs that it prints are those that the tick of its time draws exactly if the tick
before has left them. -/
theorem future_reads_past {rows : List UeRow} {h : List (Firing ℤ Sim Event)} {c : Conf ℤ Sim Event}
    (run : SimRun tdCho env rows h c) {d : ℕ} (positive : 1 ≤ d)
    (delay : env.ho.predictionEvalDelay = d) {h₁ h₂ : List (Firing ℤ Sim Event)}
    {f : Firing ℤ Sim Event} (split : h = h₁ ++ f :: h₂) {r : PendingPredictionEval}
    (evaluates : f.event.ev = .evaluatePendingPrediction r) :
    getSeconds f.event.ts = r.decisionTime + d ∧
      ∃ g', ReadsPast env h₁ f r g' ∧
        ∀ g ∈ ticks (ueHistory tdCho env r.ueId h), fireTime g = getSeconds f.event.ts →
          g ∈ ticks (ueHistory tdCho env r.ueId h₂) ∧
            (PrintsDrawn env f r g ↔ LeavesDrawn env g' r g) := by
  subst split
  obtain ⟨decision, due, g', past⟩ := exists_readsPast positive delay run evaluates
  obtain ⟨prior, step⟩ := run.split
  have lines := newLines_evaluation step evaluates
  refine ⟨decision, g', past, fun g ticking now => ⟨mem_ticks_after run evaluates due ticking now, ?_⟩⟩
  rcases present : f.before.state.ues[r.ueId]? with _ | ue
  · -- without the UE nothing is printed, and nothing has been left
    rw [present] at lines
    have known : g'.after.state = none := after_of_none (SimRun.toUe prior r.ueId) present
      (mem_ticks.mp (List.mem_of_getLast? past.last)).1
    exact iff_of_true (fun line printed => by simp [lines] at printed)
      (fun ue' own => by simp [known] at own)
  · obtain ⟨ue', left, same⟩ := past.left ue present
    rw [present, Option.bind_some] at lines
    exact printsDrawn_iff lines left same

/-! ## A sample run -/

/-- The satellite `S` recedes from second 1 on. -/
def drifting : Env where
  link := sampleLink
    [overhead "S" [(0, 500000), (1, 500000), (2, 1000000), (60, 1000000)],
      overhead "N" [(0, 500000), (60, 500000)]]
  ho := { predictionEvalDelay := 1 }

/-- The prediction that an event evaluates. -/
def Event.prediction : Event → Option PendingPredictionEval
  | .evaluatePendingPrediction r => some r
  | _ => none

theorem Event.eq_of_prediction {event : Event} {r : PendingPredictionEval}
    (evaluates : event.prediction = some r) : event = .evaluatePendingPrediction r := by
  cases event with
  | evaluatePendingPrediction r' => rw [Option.some.inj evaluates]
  | _ => cases evaluates

/-- At second 1 the satellite `S` is not where it was, and from second 2 on there is no satellite. -/
def vanishing : Env where
  link := sampleLink
    [overhead "S" [(0, 500000), (1, 500000), (3 / 2, 1000000)], overhead "N" [(0, 500000), (1, 500000)]]
  ho := { predictionEvalDelay := 1 }

/-- What a firing evaluates, with the tick of the same time, number `n`, and whether it prints what this
tick draws. -/
def evaluated (env : Env) (h : List (Firing ℤ Sim Event)) (n : ℕ) (f : Firing ℤ Sim Event) :
    Option (Bool × Bool) :=
  f.event.ev.prediction.bind fun r => (ticks (ueHistory tdCho env r.ueId h))[n]?.map fun g =>
    (decide (fireTime g = getSeconds f.event.ts), decide (PrintsDrawn env f r g))

theorem evaluated_eq_some {h : List (Firing ℤ Sim Event)} {n : ℕ} {f : Firing ℤ Sim Event} {drawn : Bool}
    (found : evaluated env h n f = some (true, drawn)) :
    ∃ r, f.event.ev = .evaluatePendingPrediction r ∧ ∃ g ∈ ticks (ueHistory tdCho env r.ueId h),
      fireTime g = getSeconds f.event.ts ∧ (PrintsDrawn env f r g ↔ drawn = true) := by
  obtain ⟨r, evaluates, found⟩ := Option.bind_eq_some_iff.mp found
  obtain ⟨g, place, found⟩ := Option.map_eq_some_iff.mp found
  obtain ⟨time, drawn⟩ := Prod.mk.inj found
  exact ⟨r, Event.eq_of_prediction evaluates, g, List.mem_of_getElem? place, of_decide_eq_true time,
    by rw [← drawn, decide_eq_true_eq]⟩

/-- The first evaluation of `vanishing` does not print what is drawn; the second one does, as no cell is in
coverage. -/
theorem future_reads_past_vanishing :
    (∃ h₁ f h₂ r g' g, (sampleRun tdCho vanishing sampleRows 5).1 = h₁ ++ f :: h₂ ∧
      f.event.ev = .evaluatePendingPrediction r ∧ ReadsPast vanishing h₁ f r g' ∧
      g ∈ ticks (ueHistory tdCho vanishing r.ueId h₂) ∧ ¬ PrintsDrawn vanishing f r g ∧
      ¬ LeavesDrawn vanishing g' r g) ∧
    ∃ h₁ f h₂ r g' g, (sampleRun tdCho vanishing sampleRows 5).1 = h₁ ++ f :: h₂ ∧
      f.event.ev = .evaluatePendingPrediction r ∧ ReadsPast vanishing h₁ f r g' ∧
      g ∈ ticks (ueHistory tdCho vanishing r.ueId h₂) ∧ PrintsDrawn vanishing f r g ∧
      LeavesDrawn vanishing g' r g := by
  have run := simRun_sampleRun tdCho vanishing sampleRows 5
  have delay : vanishing.ho.predictionEvalDelay = (1 : ℕ) := by decide +kernel
  let h := (sampleRun tdCho vanishing sampleRows 5).1
  constructor
  · have seen : h[1]?.bind (evaluated vanishing h 1) = some (true, false) := by decide +kernel
    obtain ⟨f, second, seen⟩ := Option.bind_eq_some_iff.mp seen
    obtain ⟨r, evaluates, g, ticking, time, prints⟩ := evaluated_eq_some seen
    obtain ⟨h₁, h₂, split⟩ := List.append_of_mem (List.mem_of_getElem? second)
    obtain ⟨-, g', past, leaves⟩ := future_reads_past run le_rfl delay split evaluates
    obtain ⟨after, leaves⟩ := leaves g ticking time
    rw [prints] at leaves
    exact ⟨h₁, f, h₂, r, g', g, split, evaluates, past, after, by simp [prints], by simp [← leaves]⟩
  · have seen : h[3]?.bind (evaluated vanishing h 2) = some (true, true) := by decide +kernel
    obtain ⟨f, fourth, seen⟩ := Option.bind_eq_some_iff.mp seen
    obtain ⟨r, evaluates, g, ticking, time, prints⟩ := evaluated_eq_some seen
    obtain ⟨h₁, h₂, split⟩ := List.append_of_mem (List.mem_of_getElem? fourth)
    obtain ⟨-, g', past, leaves⟩ := future_reads_past run le_rfl delay split evaluates
    obtain ⟨after, leaves⟩ := leaves g ticking time
    rw [prints] at leaves
    exact ⟨h₁, f, h₂, r, g', g, split, evaluates, past, after, by simp [prints], by simp [← leaves]⟩

/-- What the second evaluation of `drifting` prints of `S` is not what the tick of its second draws. -/
theorem future_reads_drifting :
    ¬ ∀ {env : Env} {rows : List UeRow} {h : List (Firing ℤ Sim Event)} {c : Conf ℤ Sim Event},
      SimRun tdCho env rows h c → ∀ d : ℕ, 1 ≤ d → env.ho.predictionEvalDelay = d → ∀ f ∈ h, ∀ r,
        f.event.ev = .evaluatePendingPrediction r → ∀ g ∈ ticks (ueHistory tdCho env r.ueId h),
        fireTime g = getSeconds f.event.ts → PrintsDrawn env f r g := by
  intro always
  let h := (sampleRun tdCho drifting sampleRows 5).1
  have seen : h[3]?.bind (evaluated drifting h 2) = some (true, false) := by decide +kernel
  obtain ⟨f, fourth, seen⟩ := Option.bind_eq_some_iff.mp seen
  obtain ⟨r, evaluates, g, ticking, time, prints⟩ := evaluated_eq_some seen
  exact absurd (always (simRun_sampleRun tdCho drifting sampleRows 5) 1 le_rfl (by decide +kernel) f
    (List.mem_of_getElem? fourth) r evaluates g ticking time) (by simp [prints])

end NtnCho
