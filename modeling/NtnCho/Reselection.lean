import NtnCho.Serving

/-!
# Re-selection after a radio-link failure

In Distance-CHO `CheckHandover` clears the serving satellite when it is not among the measured cells, and
the next `UpdateChannelState` selects one from the cache. The cache never forgets a satellite, but one
whose trajectory has not ended is in coverage, and its entry is that of the tick unless it is within one
metre: so the selection is by the metrics of the tick. The failure stops the timer of the UE, so every
procedure rests on a window that began after the satellite was selected.
-/

namespace NtnCho

open EventSystem

variable {P : Program} {env : Env} {i : ℕ}

/-! ## The selection -/

namespace Distance

/-- The satellite is in coverage, and the metrics drawn last for it pass the filters of
`SelectBestSatellite`. -/
structure Eligible (env : Env) (simTime : ℚ) (phy : Phy) (satName : String)
    (metrics : UeSatMetrics) : Prop where
  covered : covers (env.link.trajectory satName) simTime = true
  drawn : ∃ time, phy.channel.channelCache[satName]? = some (time, metrics)
  elevation : 0 ≤ metrics.elevation
  distance : metrics.distance / 1000 ≤ env.ho.maxDistance
  snr : -6 ≤ metrics.snrDb

/-- All cached satellites have begun. -/
def AllBegun (env : Env) (simTime : ℚ) (phy : Phy) : Prop :=
  ∀ {satName}, satName ∈ phy.channel.channelCache → begun (env.link.trajectory satName) simTime

theorem eligible_of_selectable {simTime : ℚ} {phy : Phy} (all : AllBegun env simTime phy)
    {entry : String × ℚ × UeSatMetrics} (listed : entry ∈ phy.channel.channelCache.toList)
    (selects : selectable env simTime entry.1 entry.2.2 = true) :
    Eligible env simTime phy entry.1 entry.2.2 := by
  obtain ⟨satName, time, metrics⟩ := entry
  simp only [selectable, Bool.and_eq_true, Bool.not_eq_true', decide_eq_false_iff_not,
    not_lt] at selects
  obtain ⟨⟨⟨elevation, going⟩, distance⟩, snr⟩ := selects
  have cached := mem_channelCache_of_mem_toList listed
  exact ⟨covers_iff.mpr ⟨all cached, going⟩,
    ⟨time, Std.TreeMap.mem_toList_iff_getElem?_eq_some.mp listed⟩, elevation, distance, snr⟩

theorem Eligible.selectable {simTime : ℚ} {phy : Phy} {satName : String} {metrics : UeSatMetrics}
    (eligible : Eligible env simTime phy satName metrics) :
    ∃ time, (satName, time, metrics) ∈ phy.channel.channelCache.toList ∧
      Distance.selectable env simTime satName metrics = true := by
  obtain ⟨time, cached⟩ := eligible.drawn
  refine ⟨time, Std.TreeMap.mem_toList_iff_getElem?_eq_some.mpr cached, ?_⟩
  have going := (covers_iff.mp eligible.covered).2
  simp only [Distance.selectable, going, Bool.not_false, Bool.and_true, Bool.and_eq_true,
    Bool.not_eq_true', decide_eq_false_iff_not, not_lt]
  exact ⟨⟨eligible.elevation, eligible.distance⟩, eligible.snr⟩

/-- The loop of `SelectBestSatellite` keeps what it starts from, when no selectable satellite is closer,
or ends with the closest selectable one. -/
theorem foldl_selectBetter (env : Env) (simTime : ℚ) (entries : List (String × ℚ × UeSatMetrics))
    (start : String × ℚ) :
    (entries.foldl (selectBetter env simTime) start = start ∧
        ∀ entry ∈ entries, selectable env simTime entry.1 entry.2.2 = true →
          start.2 ≤ entry.2.2.distance) ∨
      ∃ best ∈ entries, selectable env simTime best.1 best.2.2 = true ∧
        best.2.2.distance < start.2 ∧
        entries.foldl (selectBetter env simTime) start = (best.1, best.2.2.distance) ∧
        ∀ entry ∈ entries, selectable env simTime entry.1 entry.2.2 = true →
          best.2.2.distance ≤ entry.2.2.distance := by
  induction entries generalizing start with
  | nil => exact .inl ⟨rfl, fun entry member => by cases member⟩
  | cons first rest ih =>
      rw [List.foldl_cons]
      by_cases better : selectable env simTime first.1 first.2.2 = true ∧
          first.2.2.distance < start.2
      case pos =>
        obtain ⟨selects, closer⟩ := better
        have step : selectBetter env simTime start first = (first.1, first.2.2.distance) := by
          simp [selectBetter, selects, closer]
        rw [step]
        rcases ih (first.1, first.2.2.distance) with
          ⟨stays, none⟩ | ⟨best, member, selects', closer', found, least⟩
        · refine .inr ⟨first, List.mem_cons_self, selects, closer, stays, ?_⟩
          intro entry listed eligible
          rcases List.mem_cons.mp listed with rfl | later
          · exact le_rfl
          · exact none entry later eligible
        · refine .inr ⟨best, List.mem_cons_of_mem _ member, selects', closer'.trans closer, found, ?_⟩
          intro entry listed eligible
          rcases List.mem_cons.mp listed with rfl | later
          · exact closer'.le
          · exact least entry later eligible
      case neg =>
        have step : selectBetter env simTime start first = start := by
          unfold selectBetter
          dsimp only
          split
          · rfl
          · rename_i selects
            exact if_neg fun closer => better ⟨by simpa using selects, closer⟩
        rw [step]
        have kept : selectable env simTime first.1 first.2.2 = true →
            start.2 ≤ first.2.2.distance := fun selects =>
          not_lt.mp fun closer => better ⟨selects, closer⟩
        rcases ih start with ⟨stays, none⟩ | ⟨best, member, selects', closer', found, least⟩
        · refine .inl ⟨stays, fun entry listed eligible => ?_⟩
          rcases List.mem_cons.mp listed with rfl | later
          · exact kept eligible
          · exact none entry later eligible
        · refine .inr ⟨best, List.mem_cons_of_mem _ member, selects', closer', found, ?_⟩
          intro entry listed eligible
          rcases List.mem_cons.mp listed with rfl | later
          · exact closer'.le.trans (kept eligible)
          · exact least entry later eligible

/-- The satellite is closer than the bounds that the selection starts from. -/
def WithinBounds (env : Env) (metrics : UeSatMetrics) : Prop :=
  metrics.distance < 10 ^ 18 ∧ env.ho.choExecutionOffset ≤ 10 ^ 15 - metrics.distance / 1000

/-- What `SelectBestSatellite` selects for a UE without a serving satellite. -/
structure Selects (env : Env) (simTime : ℚ) (phy : Phy) (selected : String) : Prop where
  some_iff : selected ≠ "" ↔ ∃ satName metrics, Eligible env simTime phy satName metrics ∧
    WithinBounds env metrics
  closest : selected ≠ "" → ∃ metrics, Eligible env simTime phy selected metrics ∧
    ∀ satName metrics', Eligible env simTime phy satName metrics' →
      metrics.distance ≤ metrics'.distance

theorem selects_selectBestSatellite {simTime : ℚ} {ue : UeInfo} (all : AllBegun env simTime ue.phy)
    (named : "" ∉ ue.phy.channel.channelCache) :
    Selects env simTime ue.phy (selectBestSatellite env simTime ue "") := by
  have uncached : ue.cached "" = none := by
    rw [← Option.not_isSome_iff_eq_none, UeInfo.cached_isSome]
    exact named
  have start : selectBestSatellite env simTime ue "" =
      let best := ue.phy.channel.channelCache.toList.foldl (selectBetter env simTime) ("", 10 ^ 18)
      if best.1 ≠ "" ∧ (10 : ℚ) ^ 15 - best.2 / 1000 < env.ho.choExecutionOffset then ""
      else best.1 := by
    unfold selectBestSatellite
    rw [uncached]
    norm_num
  rcases foldl_selectBetter env simTime ue.phy.channel.channelCache.toList ("", 10 ^ 18) with
    ⟨stays, none⟩ | ⟨best, listed, selects, closer, found, least⟩
  · rw [start, stays]
    simp only [ne_eq, not_true_eq_false, false_and, if_false]
    refine ⟨⟨fun some => absurd rfl some, ?_⟩, fun some => absurd rfl some⟩
    rintro ⟨satName, metrics, eligible, near, -⟩
    obtain ⟨time, member, selects⟩ := eligible.selectable
    exact absurd (none _ member selects) (not_le.mpr near)
  · have eligible := eligible_of_selectable all listed selects
    have some_name : best.1 ≠ "" := by
      intro unnamed
      exact named (unnamed ▸ mem_channelCache_of_mem_toList listed)
    have minimal : ∀ satName metrics', Eligible env simTime ue.phy satName metrics' →
        best.2.2.distance ≤ metrics'.distance := by
      intro satName metrics' eligible'
      obtain ⟨time, member, selects'⟩ := eligible'.selectable
      exact least _ member selects'
    rw [start, found]
    dsimp only
    by_cases hysteresis : (10 : ℚ) ^ 15 - best.2.2.distance / 1000 < env.ho.choExecutionOffset
    · rw [if_pos ⟨some_name, hysteresis⟩]
      refine ⟨⟨fun some => absurd rfl some, ?_⟩, fun some => absurd rfl some⟩
      rintro ⟨satName, metrics', eligible', -, above⟩
      have le := minimal satName metrics' eligible'
      linarith
    · rw [if_neg fun both => hysteresis both.2]
      refine ⟨⟨fun _ => ⟨best.1, best.2.2, eligible, closer, not_lt.mp hysteresis⟩,
        fun _ => some_name⟩, fun _ => ⟨best.2.2, eligible, minimal⟩⟩

end Distance

/-! ## The loss of the serving satellite -/

/-- The satellite that serves the UE at a firing: at a tick, the one after the channel update. -/
def servedAt (P : Program) (env : Env) (f : Firing ℤ (Option UeInfo) Event) : String :=
  match f.event.ev with
  | .checkHandoverConditions =>
      (f.before.state.map fun ue => (ue.updated P env (fireTime f)).context.servingGnb).getD ""
  | _ => servingOf f.before

/-- The firing is a tick that loses the serving satellite on the report of a radio-link failure, and
leaves nothing of a procedure or of a timer. -/
structure LostByFailure (P : Program) (env : Env) (i : ℕ) (f : Firing ℤ (Option UeInfo) Event) :
    Prop where
  tick : f.event.ev = .checkHandoverConditions
  failure : ∃ ue report, f.before.state = some ue ∧ tickReport P env i (fireTime f) ue = some report ∧
    report.eventType = "RLF"
  cleared : ∃ ue, f.after.state = some ue ∧ ue.choProcState.phase = .idle ∧
    ue.measState.triggerActive = false
  pending : pendingPhases i f.after.queue = []

section Step

variable {ok : Policy ℤ Event} {rows : List UeRow} {h : List (Firing ℤ (Option UeInfo) Event)}
  {f : Firing ℤ (Option UeInfo) Event} {ue : UeInfo}

theorem servedAt_tick (tick : f.event.ev = .checkHandoverConditions)
    (present : f.before.state = some ue) :
    servedAt P env f = (ue.updated P env (fireTime f)).context.servingGnb := by
  unfold servedAt
  rw [tick, present]
  rfl

/-- A served UE keeps its satellite in the channel update. -/
theorem servedAt_of_served (served : servingOf f.before ≠ "") :
    servedAt P env f = servingOf f.before := by
  unfold servedAt
  split
  · cases present : f.before.state with
    | none =>
        rw [servingOf, present] at served
        exact absurd rfl served
    | some ue =>
        rw [servingOf_eq present] at served ⊢
        exact congrArg UeContext.servingGnb (updated_context served)
  · rfl

theorem lostByFailure_of_run (lawful : P.Lawful) (named : "" ∉ env.link.satellites)
    (prior : Run (ueHandler P env i) ok (ueInitial env rows i) h f.before)
    (step : Step (ueHandler P env i) ok f.before f.event f.after) (served : servedAt P env f ≠ "")
    (lost : servingOf f.after = "") : LostByFailure P env i f := by
  have concerns := (ueQueue_of_run prior _ step.mem_queue).1
  cases event : f.event.ev with
  | checkHandoverConditions =>
      cases present : f.before.state with
      | none =>
          rw [servedAt, event, present] at served
          exact absurd rfl served
      | some ue =>
          rw [servedAt_tick event present] at served
          have state := ueState_of_step step present
          rw [event, ueAction_tick] at state
          rw [servingOf_eq state] at lost
          rcases ueTick_context_cases P env i (getSeconds f.event.ts) ue with
            kept | ⟨-, ⟨report, reported, failed⟩, -, idle, inactive⟩
          · rw [kept] at lost
            exact absurd lost served
          · refine ⟨event, ⟨ue, report, present, reported, failed⟩, ⟨_, state, idle, inactive⟩, ?_⟩
            have pipeline := pipeline_of_run (prior.snoc step) state
            rw [pipeline.pending, UeChoProcedureState.expects_idle idle]
  | cho handler ueId sourceCell targetCell =>
      rw [show servedAt P env f = servingOf f.before by rw [servedAt, event]] at served
      cases handed : handoverOf env f with
      | none =>
          rw [servingOf_of_phase step event handed] at served
          exact absurd lost served
      | some pair =>
          obtain ⟨flight, listed⟩ := inFlight_of_handoverOf lawful prior step handed
          rw [flight.after] at lost
          exact absurd (lost ▸ listed) named
  | evaluatePendingPrediction r =>
      rw [event] at concerns
      cases concerns

end Step

/-! ## The selections of a run -/

/-- What the tick `f` does for a UE without a serving satellite: step 1 draws the metrics of every
satellite that is in coverage and a metre away, and the channel update selects from the cache. -/
structure SelectsAt (env : Env) (f : Firing ℤ (Option UeInfo) Event) (ue : UeInfo) : Prop where
  drawn : ∀ {satName}, covers (env.link.trajectory satName) (fireTime f) = true →
    1 ≤ slantRange env.link ue.geo (env.link.trajectory satName) (fireTime f) →
    (updateChannelCache distanceCho env (fireTime f) ue).phy.MeasuredAt satName (fireTime f)
  selects : Distance.Selects env (fireTime f) (updateChannelCache distanceCho env (fireTime f) ue).phy
    (servedAt distanceCho env f)

theorem selectsAt_of_run {ok : Policy ℤ Event} {rows : List UeRow}
    {h : List (Firing ℤ (Option UeInfo) Event)} {f : Firing ℤ (Option UeInfo) Event} {ue : UeInfo}
    (named : "" ∉ env.link.satellites)
    (prior : Run (ueHandler distanceCho env i) ok (ueInitial env rows i) h f.before)
    (step : Step (ueHandler distanceCho env i) ok f.before f.event f.after)
    (tick : f.event.ev = .checkHandoverConditions) (present : f.before.state = some ue)
    (unserved : ue.context.servingGnb = "") : SelectsAt env f ue := by
  have live := liveCache_of_run Distance.lawful prior present
  have link := linkInvariant_of_run Distance.lawful prior present
  have second : ∃ n : ℕ, fireTime f = n :=
    fireTime_eq_natCast (prior.snoc step) (mem_ticks.mpr ⟨by simp, tick⟩)
  have known : ∀ {satName},
      satName ∈ (updateChannelCache distanceCho env (fireTime f) ue).phy.channel.channelCache →
      satName ∈ ue.phy.channel.channelCache ∨
        Usable distanceCho.phyRules env.link ue.geo satName (fireTime f) :=
    fun cached => mem_updateAllSatellites cached
  refine ⟨fun {satName} covered far => ?_, ?_⟩
  · obtain ⟨n, at_second⟩ := second
    rw [at_second] at covered far ⊢
    exact measuredAt_updateAllSatellites ⟨covered, rfl, far⟩ (mem_keys_of_covers covered) ue.phy
  · rw [servedAt_tick tick present, updated_servingGnb, if_pos unserved]
    refine Distance.selects_selectBestSatellite (fun {satName} cached => ?_) fun unnamed => ?_
    · rcases known cached with old | usable
      · obtain ⟨g, member, begins⟩ := live.begun old
        have earlier := tick_add_one_le prior step.mem_queue tick member
        unfold fireTime at begins
        exact begun_mono (by unfold fireTime; linarith) begins
      · exact (covers_iff.mp usable.covers).1
    · rcases known unnamed with old | usable
      · exact named (link.mem_satellites old)
      · exact named (Std.TreeMap.mem_keys.mp (mem_keys_of_covers usable.covers))

/-! ## The satellite acquired last -/

/-- A tick that serves a UE without a serving satellite. -/
def Reselects (P : Program) (env : Env) (f : Firing ℤ (Option UeInfo) Event) : Prop :=
  servingOf f.before = "" ∧ servedAt P env f ≠ ""

instance (P : Program) (env : Env) (f : Firing ℤ (Option UeInfo) Event) :
    Decidable (Reselects P env f) :=
  inferInstanceAs (Decidable (servingOf f.before = "" ∧ servedAt P env f ≠ ""))

/-- The satellite that the firing makes the serving one, by a handover or by a selection. -/
def acquired (P : Program) (env : Env) (f : Firing ℤ (Option UeInfo) Event) : Option String :=
  match handoverOf env f with
  | some (_, targetCell) => some targetCell
  | none => if Reselects P env f then some (servedAt P env f) else none

/-- The satellite that was selected or handed over to last. -/
def lastAcquired (P : Program) (env : Env) (h : List (Firing ℤ (Option UeInfo) Event)) :
    Option String :=
  (h.filterMap (acquired P env)).getLast?

theorem lastAcquired_snoc (h : List (Firing ℤ (Option UeInfo) Event))
    (f : Firing ℤ (Option UeInfo) Event) :
    lastAcquired P env (h ++ [f]) = (acquired P env f).or (lastAcquired P env h) := by
  unfold lastAcquired
  rw [List.filterMap_append, List.getLast?_append]
  cases found : acquired P env f <;> simp [found]

section Step

variable {ok : Policy ℤ Event} {rows : List UeRow} {h : List (Firing ℤ (Option UeInfo) Event)}
  {f : Firing ℤ (Option UeInfo) Event} {c : Conf ℤ (Option UeInfo) Event} {ue : UeInfo}

/-- A firing that leaves the UE served acquired the satellite that serves, or changed nothing. -/
theorem acquired_of_step (lawful : P.Lawful)
    (prior : Run (ueHandler P env i) ok (ueInitial env rows i) h f.before)
    (step : Step (ueHandler P env i) ok f.before f.event f.after) (served : servingOf f.after ≠ "") :
    acquired P env f = some (servingOf f.after) ∨
      (acquired P env f = none ∧ servingOf f.before = servingOf f.after) := by
  have concerns := (ueQueue_of_run prior _ step.mem_queue).1
  cases event : f.event.ev with
  | checkHandoverConditions =>
      have handed : handoverOf env f = none := by rw [handoverOf, event]
      cases present : f.before.state with
      | none =>
          rw [servingOf, absent_of_step step present] at served
          exact absurd rfl served
      | some ue =>
          have state := ueState_of_step step present
          rw [event, ueAction_tick] at state
          have at_tick := @servedAt_tick P env f ue event present
          rw [servingOf_eq state] at served ⊢
          rcases ueTick_context_cases P env i (getSeconds f.event.ts) ue with
            kept | ⟨-, -, cleared, -⟩
          · rw [kept] at served ⊢
            unfold acquired
            rw [handed]
            dsimp only
            by_cases unserved : servingOf f.before = ""
            · refine .inl ?_
              rw [if_pos ⟨unserved, by rwa [at_tick]⟩, at_tick]
              rfl
            · refine .inr ⟨if_neg fun reselects => unserved reselects.1, ?_⟩
              rw [← @servedAt_of_served P env _ unserved, at_tick]
              rfl
          · exact absurd cleared served
  | cho handler ueId sourceCell targetCell =>
      cases handed : handoverOf env f with
      | some pair =>
          have flight := (inFlight_of_handoverOf lawful prior step handed).1
          refine .inl ?_
          rw [acquired, handed, flight.after]
      | none =>
          have same : servedAt P env f = servingOf f.before := by rw [servedAt, event]
          refine .inr ⟨?_, servingOf_of_phase step event handed⟩
          unfold acquired
          rw [handed]
          exact if_neg fun reselects => reselects.2 (same.trans reselects.1)
  | evaluatePendingPrediction r =>
      rw [event] at concerns
      cases concerns

/-- The satellite that serves is the one acquired last. -/
theorem lastAcquired_of_run (lawful : P.Lawful)
    (run : Run (ueHandler P env i) ok (ueInitial env rows i) h c) (served : servingOf c ≠ "") :
    lastAcquired P env h = some (servingOf c) := by
  induction run with
  | nil =>
      have unserved : servingOf (ueInitial env rows i) = "" := by
        unfold servingOf ueInitial
        cases rows[i]? <;> rfl
      exact absurd unserved served
  | @snoc h c c' p prior step ih =>
      rw [lastAcquired_snoc]
      rcases acquired_of_step (f := ⟨c, p, c'⟩) lawful prior step served with
        acquires | ⟨none, same⟩
      · rw [acquires]
        rfl
      · rw [none, Option.none_or]
        replace same : servingOf c = servingOf c' := same
        rw [← same] at served ⊢
        exact ih served

/-- A procedure leads away from the satellite acquired last. -/
theorem sourceCell_of_run (lawful : P.Lawful)
    (run : Run (ueHandler P env i) ok (ueInitial env rows i) h c) (present : c.state = some ue)
    (busy : ue.choProcState.phase ≠ .idle) :
    lastAcquired P env h = some ue.choProcState.sourceCell := by
  have serves := servedBySource_of_run lawful run present
  have serving := servingOf_eq present
  rw [serves.source busy, ← serving]
  refine lastAcquired_of_run lawful run ?_
  rw [serving]
  exact serves.served busy

end Step

/-! ## The windows after a selection -/

/-- At the tick `g` UE `i` and its serving cell are measured, and the trigger is met with the best
neighbour `cellId`. -/
def MetAt (P : Program) (env : Env) (i : ℕ) (cellId : String)
    (g : Firing ℤ (Option UeInfo) Event) : Prop :=
  ∃ ue due serving, g.before.state = some ue ∧
    (ue.updated P env (fireTime g)).due? (fireTime g) = some due ∧
    due.serving? P env (fireTime g) = some serving ∧
    (due.evaluation P env i (fireTime g) serving).triggerConditionMet = true ∧
    (due.evaluation P env i (fireTime g) serving).candidateCell = cellId

/-- What a running timer stands for in a program that re-selects. -/
structure Timed (P : Program) (env : Env) (i : ℕ) (h : List (Firing ℤ (Option UeInfo) Event))
    (ue : UeInfo) : Prop where
  idle : ue.choProcState.phase = .idle
  served : ue.context.servingGnb ≠ ""
  recent : ∃ g ∈ ticks h, ue.measState.lastMeasurementTime = fireTime g
  window : HeldSince fireTime (MetAt P env i ue.measState.candidateTargetCell) (ticks h)
    ue.measState.triggerStartTime
  fresh : ∀ r ∈ ticks h, Reselects P env r → fireTime r ≤ ue.measState.triggerStartTime

/-- A measurement of `due` leaves the timer running in `ue`: it has started it for its best neighbour,
or it has let it go on. -/
structure RunsTimer (P : Program) (env : Env) (ueId : ℕ) (simTime : ℚ) (due ue : UeInfo)
    (serving : MeasResultCell) : Prop where
  found : due.serving? P env simTime = some serving
  met : (due.evaluation P env ueId simTime serving).triggerConditionMet = true
  only : OnlyMeasured due ue
  measured : ue.measState.lastMeasurementTime = due.measState.lastMeasurementTime
  timer : (ue.measState.triggerStartTime = simTime ∧
      ue.measState.candidateTargetCell = (due.evaluation P env ueId simTime serving).candidateCell) ∨
    (due.measState.triggerActive = true ∧
      ((due.evaluation P env ueId simTime serving).ntnTrigger = true ∨
        (due.evaluation P env ueId simTime serving).candidateCell =
          due.measState.candidateTargetCell) ∧
      ue.measState.triggerStartTime = due.measState.triggerStartTime ∧
      ue.measState.candidateTargetCell = due.measState.candidateTargetCell)

theorem measureAndReport_timer (reselects : P.reselectOnRlf = true) {ueId : ℕ} {simTime : ℚ}
    {due : UeInfo} (served : due.measState.servingCellId ≠ "")
    (after : (measureAndReport P env ueId simTime due).1.measState.triggerActive = true) :
    ∃ serving,
      RunsTimer P env ueId simTime due (measureAndReport P env ueId simTime due).1 serving := by
  have only := onlyMeasured_ueEvaluateAndReport P env ueId simTime due
  unfold measureAndReport at after ⊢
  dsimp only at after ⊢
  rcases ueEvaluateAndReport_cases P env ueId simTime due with
    ⟨unserved, -⟩ | ⟨-, failed⟩ | ⟨serving, found, evaluated⟩
  · exact absurd unserved served
  · -- the failure report turns the timer off
    rw [failed] at after
    dsimp only at after
    rw [handleReport, if_pos reselects, if_pos (by rfl)] at after
    cases after
  · refine ⟨serving, ?_⟩
    rcases timeToTrigger_cases P simTime serving (due.evaluation P env ueId simTime serving)
        (due.evaluated (due.evaluation P env ueId simTime serving)) with
      ⟨met, starts⟩ | ⟨met, active, candidate, ⟨-, reports⟩ | waits⟩ | ⟨-, resets⟩
    · rw [evaluated, starts] at only ⊢
      exact ⟨found, met, only, rfl, .inl ⟨rfl, rfl⟩⟩
    · -- a report turns the timer off, whatever becomes of it
      rw [evaluated, reports] at after
      dsimp only at after
      unfold handleReport at after
      rw [if_pos reselects] at after
      split at after
      · cases after
      · split at after
        · rw [choTriggerProcedure_measState] at after
          cases after
        · cases after
    · rw [evaluated, waits] at only ⊢
      exact ⟨found, met, only, rfl, .inr ⟨active, candidate, rfl, rfl⟩⟩
    · rw [evaluated, resets] at after
      cases after

/-- The program has no trigger besides the one of the best neighbour. -/
def Program.NtnTriggerOff (P : Program) : Prop :=
  ∀ env ueId simTime ue serving measurements,
    (P.evaluateNeighbors env ueId simTime ue serving measurements).ntnTrigger = false

theorem Distance.ntnTriggerOff : distanceCho.NtnTriggerOff := by
  intro env ueId simTime ue serving measurements
  simp only [distanceCho, Distance.evaluateNeighbors]
  split <;> rfl

section Window

variable {ok : Policy ℤ Event} {rows : List UeRow} {h : List (Firing ℤ (Option UeInfo) Event)}
  {c c' : Conf ℤ (Option UeInfo) Event} {p : Pending ℤ Event} {ue : UeInfo}

/-- A UE with a running timer is measured at the next tick, with the measurement state it has. -/
theorem Timed.due (lawful : P.Lawful) (prior : Run (ueHandler P env i) ok (ueInitial env rows i) h c)
    (step : Step (ueHandler P env i) ok c p c') (tick : p.ev = .checkHandoverConditions)
    (present : c.state = some ue) (timed : Timed P env i h ue) :
    (ue.updated P env (getSeconds p.ts)).due? (getSeconds p.ts) =
      some ((ue.updated P env (getSeconds p.ts)).startMeasurement (getSeconds p.ts)) := by
  have link := @LinkInvariant.updated P env lawful (getSeconds p.ts) ue
    (linkInvariant_of_run lawful prior present)
  obtain ⟨g, member, measured⟩ := timed.recent
  have context := @updated_context P env (getSeconds p.ts) ue timed.served
  have measState := @updated_measState P env (getSeconds p.ts) ue timed.served
  refine due_of_armed link ?_ ?_ ?_ ?_
  · rw [(sameProcedure_updated P env _ ue).choProcState]
    exact timed.idle
  · rw [context]
    exact timed.served
  · rw [context, measState]
    exact (servedBySource_of_run lawful prior present).measured
  · rw [measState, measured]
    exact tick_add_one_le prior step.mem_queue tick member

theorem Timed.due_measState (lawful : P.Lawful)
    (prior : Run (ueHandler P env i) ok (ueInitial env rows i) h c)
    (step : Step (ueHandler P env i) ok c p c') (tick : p.ev = .checkHandoverConditions)
    (present : c.state = some ue) (timed : Timed P env i h ue) {due : UeInfo}
    (measured : (ue.updated P env (getSeconds p.ts)).due? (getSeconds p.ts) = some due) :
    due.measState.triggerStartTime = ue.measState.triggerStartTime ∧
      due.measState.candidateTargetCell = ue.measState.candidateTargetCell := by
  have again := Option.some.inj ((timed.due lawful prior step tick present).symm.trans measured)
  rw [← again, ← @updated_measState P env (getSeconds p.ts) ue timed.served]
  exact ⟨rfl, rfl⟩

/-- No tick is later than the one that fires. -/
theorem fireTime_le_of_snoc (prior : Run (ueHandler P env i) ok (ueInitial env rows i) h c)
    (step : Step (ueHandler P env i) ok c p c') (tick : p.ev = .checkHandoverConditions)
    {r : Firing ℤ (Option UeInfo) Event} (member : r ∈ ticks h ++ [⟨c, p, c'⟩]) :
    fireTime r ≤ getSeconds p.ts := by
  rcases List.mem_append.mp member with old | new
  · have later := tick_add_one_le prior step.mem_queue tick old
    unfold fireTime
    linarith
  · rw [List.mem_singleton.mp new]
    rfl

/-- A measurement extends the window of a timer that goes on, and begins one for a timer it starts. -/
theorem timed_measurement (lawful : P.Lawful) (reselects : P.reselectOnRlf = true)
    (quiet : P.NtnTriggerOff)
    (prior : Run (ueHandler P env i) ok (ueInitial env rows i) h c)
    (step : Step (ueHandler P env i) ok c p c') (tick : p.ev = .checkHandoverConditions)
    (present : c.state = some ue) (timed : ue.measState.triggerActive = true → Timed P env i h ue)
    {due : UeInfo}
    (measured : (ue.updated P env (getSeconds p.ts)).due? (getSeconds p.ts) = some due)
    (after : (measureAndReport P env i (getSeconds p.ts) due).1.measState.triggerActive = true) :
    Timed P env i (h ++ [⟨c, p, c'⟩]) (measureAndReport P env i (getSeconds p.ts) due).1 := by
  obtain ⟨adopted, idle, served⟩ := UeInfo.due?_eq_some measured
  have cell := UeInfo.due_servingCellId measured
  obtain ⟨serving, runs⟩ := measureAndReport_timer reselects (by rwa [cell]) after
  have only := (onlyMeasured_of_due measured).trans runs.only
  have now : MetAt P env i (due.evaluation P env i (getSeconds p.ts) serving).candidateCell
      ⟨c, p, c'⟩ := ⟨ue, due, serving, present, measured, runs.found, runs.met, rfl⟩
  have all : ticks (h ++ [⟨c, p, c'⟩]) = ticks h ++ [⟨c, p, c'⟩] := ticks_snoc tick h
  have recent : ∃ g ∈ ticks (h ++ [⟨c, p, c'⟩]),
      (measureAndReport P env i (getSeconds p.ts) due).1.measState.lastMeasurementTime =
        fireTime g := by
    refine ⟨⟨c, p, c'⟩, by simp [all], ?_⟩
    rw [runs.measured, adopted]
    rfl
  rcases runs.timer with ⟨start, candidate⟩ | ⟨wasActive, candidate, start, kept⟩
  · refine ⟨only.phase.trans idle, by rwa [only.context], recent, ?_, fun r member _ => ?_⟩
    · rw [all, start, candidate]
      change HeldSince fireTime _ _ (fireTime ⟨c, p, c'⟩)
      refine HeldSince.begin (fun g member => ?_) now
      have later := tick_add_one_le prior step.mem_queue tick member
      unfold fireTime
      linarith
    · rw [all] at member
      rw [start]
      exact fireTime_le_of_snoc prior step tick member
  · have before : Timed P env i h ue := by
      refine timed ?_
      rw [adopted] at wasActive
      exact updated_triggerActive.symm.trans (triggerActive_of_adoptServingCell wasActive)
    obtain ⟨started, named⟩ := before.due_measState lawful prior step tick present measured
    have same := candidate.resolve_left fun ntn => absurd ntn (by simp [UeInfo.evaluation, quiet ..])
    refine ⟨only.phase.trans idle, by rwa [only.context], recent, ?_, fun r member selects => ?_⟩
    · rw [all, start, started, kept, named]
      rw [same, named] at now
      exact before.window.extend now
    · rw [start, started]
      rw [all] at member
      rcases List.mem_append.mp member with old | new
      · exact before.fresh r old selects
      · rw [List.mem_singleton.mp new] at selects
        have unserved : servingOf c = "" := selects.1
        rw [servingOf_eq present] at unserved
        exact absurd unserved before.served

/-- **The step lemma of a tick**: a timer that runs after the tick was started by it, or was running
and has been extended. -/
theorem timed_tick (lawful : P.Lawful) (reselects : P.reselectOnRlf = true)
    (quiet : P.NtnTriggerOff)
    (prior : Run (ueHandler P env i) ok (ueInitial env rows i) h c)
    (step : Step (ueHandler P env i) ok c p c') (tick : p.ev = .checkHandoverConditions)
    (present : c.state = some ue) (timed : ue.measState.triggerActive = true → Timed P env i h ue)
    (after : (ueTick P env i (getSeconds p.ts) ue).1.measState.triggerActive = true) :
    Timed P env i (h ++ [⟨c, p, c'⟩]) (ueTick P env i (getSeconds p.ts) ue).1 := by
  have same := (sameProcedure_updated P env (getSeconds p.ts) ue).choProcState
  have active := @updated_triggerActive P env (getSeconds p.ts) ue
  have result : ueTick P env i (getSeconds p.ts) ue =
      checkHandover P env i (getSeconds p.ts) (ue.updated P env (getSeconds p.ts)) := rfl
  rw [result] at after ⊢
  rcases checkHandover_spec P env i (getSeconds p.ts) (ue.updated P env (getSeconds p.ts)) with
    ⟨procedure, -, action⟩ | ⟨-, early, stays | adopts⟩ | ⟨due, idle, measured, measures⟩
  · rw [action.measState procedure, active] at after
    rw [same] at procedure
    exact absurd (timed after).idle procedure
  · rw [stays, active] at after
    rw [(timed after).due lawful prior step tick present] at early
    cases early
  · rw [adopts] at after
    have before := active.symm.trans (triggerActive_of_adoptServingCell after)
    rw [(timed before).due lawful prior step tick present] at early
    cases early
  · rw [measures] at after ⊢
    exact timed_measurement lawful reselects quiet prior step tick present timed measured after

/-- **The run lemma**: a running timer is what `Timed` says. -/
theorem timed_of_run (lawful : P.Lawful) (reselects : P.reselectOnRlf = true)
    (quiet : P.NtnTriggerOff)
    (run : Run (ueHandler P env i) ok (ueInitial env rows i) h c) (present : c.state = some ue)
    (active : ue.measState.triggerActive = true) : Timed P env i h ue := by
  refine ueRun_history (I := fun h _ ue => ue.measState.triggerActive = true → Timed P env i h ue) run
    (fun _ inactive => by cases inactive) ?_ present active
  intro h c p c' ue prior step present concerns timed after
  rcases p with ⟨ts, _ | ⟨handler, ueId, sourceCell, targetCell⟩ | _⟩
  · exact timed_tick lawful reselects quiet prior step rfl present timed after
  · -- a phase event finds the UE in its procedure, and so with the timer off
    obtain ⟨rfl, guard, -⟩ := guard_of_step prior step present
    have inactive : ue.measState.triggerActive = false := by
      by_contra active
      have idle := (timed (by simpa using active)).idle
      rw [guard] at idle
      cases handler <;> cases idle
    rw [ueAction_cho, choHandler_triggerActive inactive] at after
    cases after
  · cases concerns

/-- The report at `f` names one cell. The trigger was met for it at every tick of a window that has
lasted for the time-to-trigger, and every selection up to `f` was made before the window began or at its
first tick. -/
def FreshReport (P : Program) (env : Env) (i : ℕ) (h : List (Firing ℤ (Option UeInfo) Event))
    (f : Firing ℤ (Option UeInfo) Event) (timeToTrigger : ℚ) (report : MeasurementReport) : Prop :=
  ∃ neighbor, report.neighborCells = [neighbor] ∧
    ∃ start ∈ ticks h, fireTime start ≤ fireTime f - timeToTrigger ∧
      (∀ g ∈ ticks h, fireTime start ≤ fireTime g → fireTime g ≤ fireTime f →
        MetAt P env i neighbor.cellId g) ∧
      ∀ r ∈ ticks h, Reselects P env r → fireTime r ≤ fireTime f → fireTime r ≤ fireTime start

/-- Every report of the time-to-trigger logic is fresh. -/
def ReportsFresh (P : Program) (env : Env) (i : ℕ) (h : List (Firing ℤ (Option UeInfo) Event)) :
    Prop :=
  ∀ f ∈ ticks h, ∀ ue report, f.before.state = some ue →
    tickReport P env i (fireTime f) ue = some report → report.eventType ≠ "RLF" →
    FreshReport P env i h f ue.measConfig.timeToTrigger report

theorem reportsFresh_of_run (lawful : P.Lawful) (reselects : P.reselectOnRlf = true)
    (quiet : P.NtnTriggerOff)
    (run : Run (ueHandler P env i) ok (ueInitial env rows i) h c) : ReportsFresh P env i h := by
  intro f ticking ue report present reported other
  obtain ⟨member, tick⟩ := mem_ticks.mp ticking
  obtain ⟨h₁, h₂, rfl⟩ := List.append_of_mem member
  obtain ⟨prior, step⟩ := run.split
  obtain ⟨due, measured, reported⟩ := Option.bind_eq_some_iff.mp reported
  rcases ueEvaluateAndReport_cases P env i (fireTime f) due with
    ⟨-, unserved⟩ | ⟨-, failed⟩ | ⟨serving, found, evaluated⟩
  · rw [unserved] at reported
    cases reported
  · rw [failed] at reported
    obtain rfl := Option.some.inj reported
    exact absurd rfl other
  · rcases timeToTrigger_cases P (fireTime f) serving
        (due.evaluation P env i (fireTime f) serving)
        (due.evaluated (due.evaluation P env i (fireTime f) serving)) with
      ⟨-, starts⟩ | ⟨met, wasActive, candidate, ⟨elapsed, reports⟩ | waits⟩ | ⟨-, resets⟩
    · rw [evaluated, starts] at reported
      cases reported
    · rw [evaluated, reports] at reported
      obtain rfl := Option.some.inj reported
      obtain ⟨neighbor, best⟩ := Option.isSome_iff_exists.mp
        (lawful.trigger env i _ (due.measured serving) serving _ met)
      replace best : (due.evaluation P env i (fireTime f) serving).bestNeighbor = some neighbor := best
      have cell : (due.evaluation P env i (fireTime f) serving).candidateCell = neighbor.cellId := by
        rw [Evaluation.candidateCell, best]
        rfl
      have timed : Timed P env i h₁ ue := by
        refine timed_of_run lawful reselects quiet prior present ?_
        rw [UeInfo.evaluated, (UeInfo.due?_eq_some measured).1] at wasActive
        exact updated_triggerActive.symm.trans (triggerActive_of_adoptServingCell wasActive)
      obtain ⟨started, named⟩ := timed.due_measState lawful prior step tick present measured
      have name : neighbor.cellId = ue.measState.candidateTargetCell := by
        rw [← cell, ← named]
        exact candidate.resolve_left fun ntn => absurd ntn (by simp [UeInfo.evaluation, quiet ..])
      have timer := (onlyMeasured_of_due measured).measConfig.trans
        (linkStep_updated P env (fireTime f) ue).measConfig
      obtain ⟨first, first_member, first_at⟩ := timed.window.started
      refine ⟨neighbor, congrArg Option.toList best, first, ?_, ?_, fun g ticked after before => ?_,
        fun r ticked selects before => ?_⟩
      · rw [ticks_append]
        exact List.mem_append_left _ first_member
      · change due.measConfig.timeToTrigger ≤ fireTime f - due.measState.triggerStartTime at elapsed
        rw [first_at, ← timer, ← started]
        linarith
      · rcases mem_ticks_of_le run tick ticked before with earlier | rfl
        · rw [name]
          exact timed.window.held g earlier (first_at.symm.trans_le after)
        · exact ⟨ue, due, serving, present, measured, found, met, cell⟩
      · rw [first_at]
        rcases mem_ticks_of_le run tick ticked before with earlier | rfl
        · exact timed.fresh r earlier selects
        · have unserved := selects.1
          rw [servingOf_eq present] at unserved
          exact absurd unserved timed.served
    · rw [evaluated, waits] at reported
      cases reported
    · rw [evaluated, resets] at reported
      cases reported

end Window

/-! ## Every run -/

/-- What re-selection means along a history: the serving satellite is lost on failure reports alone, a
tick without one selects, reports rest on windows that began after the last selection, and executions
start from the satellite acquired last. -/
structure Reselection (env : Env) (i : ℕ) (h : List (Firing ℤ (Option UeInfo) Event)) : Prop where
  lost : ∀ f ∈ h, servedAt distanceCho env f ≠ "" → servingOf f.after = "" →
    LostByFailure distanceCho env i f
  selects : ∀ f ∈ ticks h, ∀ ue, f.before.state = some ue → ue.context.servingGnb = "" →
    SelectsAt env f ue
  reports : ReportsFresh distanceCho env i h
  source : ∀ {h₁ h₂ f sourceCell targetCell ue}, h = h₁ ++ f :: h₂ →
    Completes i f sourceCell targetCell ue → lastAcquired distanceCho env h₁ = some sourceCell

/-- **Re-selection after a radio-link failure.** In every run of Distance-CHO, over a dataset without a
nameless satellite, every UE loses its serving satellite on a failure report alone, selects the closest
eligible satellite as soon as there is one, and starts anew from there. -/
theorem reselection {rows : List UeRow} {h : List (Firing ℤ Sim Event)} {c : Conf ℤ Sim Event}
    (named : "" ∉ env.link.satellites) (run : AnyOrderRun distanceCho env rows h c) (i : ℕ) :
    Reselection env i (ueHistory distanceCho env i h) := by
  have seen := run.toUe i
  have split : ∀ {f}, f ∈ ueHistory distanceCho env i h → ∃ h₁,
      Run (ueHandler distanceCho env i) anyOrder (ueInitial env rows i) h₁ f.before ∧
        Step (ueHandler distanceCho env i) anyOrder f.before f.event f.after := by
    intro f member
    obtain ⟨h₁, h₂, parts⟩ := List.append_of_mem member
    rw [show (ueComponent distanceCho env i).history h = _ from parts] at seen
    exact ⟨h₁, seen.split⟩
  refine ⟨fun f member served lost => ?_, fun f ticking ue present unserved => ?_, ?_, ?_⟩
  · obtain ⟨h₁, prior, step⟩ := split member
    exact lostByFailure_of_run Distance.lawful named prior step served lost
  · obtain ⟨member, tick⟩ := mem_ticks.mp ticking
    obtain ⟨h₁, prior, step⟩ := split member
    exact selectsAt_of_run named prior step tick present unserved
  · exact reportsFresh_of_run Distance.lawful rfl Distance.ntnTriggerOff seen
  · intro h₁ h₂ f sourceCell targetCell ue parts completes
    rw [show (ueComponent distanceCho env i).history h = _ from parts] at seen
    obtain ⟨prior, step⟩ := seen.split
    obtain ⟨guard, source, -⟩ := completes.inFlight prior step
    rw [← source]
    refine sourceCell_of_run Distance.lawful prior completes.before ?_
    rw [guard]
    decide

/-- The serving satellite `S` comes to the end of its trajectory, and `N` goes on. -/
def regained : Env where
  link := sampleLink
    [overhead "N" [(0, 1000000), (60, 1000000)], overhead "S" [(0, 500000), (1, 500000)]]
  ho := {}

/-- What a firing does to the serving satellite: its time, and the satellite before, at and after it. -/
def servingChange (P : Program) (env : Env) (f : Firing ℤ (Option UeInfo) Event) :
    ℚ × String × String × String :=
  (fireTime f, servingOf f.before, servedAt P env f, servingOf f.after)

/-- In `regained` the UE loses `S` at second 2 and selects `N` at second 3. -/
theorem reselection_regained :
    ∃ f g ue, LostByFailure distanceCho regained 0 f ∧ fireTime f = 2 ∧ SelectsAt regained g ue ∧
      fireTime g = 3 ∧ servedAt distanceCho regained g = "N" := by
  have seen : (ueHistory distanceCho regained 0
      (sampleRun distanceCho regained sampleRows 4).1).map (servingChange distanceCho regained) =
      [(0, "", "S", "S"), (1, "S", "S", "S"), (2, "S", "S", ""), (3, "", "N", "N")] := by
    decide +kernel
  have all : ∀ f ∈ ueHistory distanceCho regained 0 (sampleRun distanceCho regained sampleRows 4).1,
      f.event.ev = .checkHandoverConditions ∧ f.before.state.isSome = true := by decide +kernel
  have holds := reselection (by decide +kernel)
    (simRun_sampleRun distanceCho regained sampleRows 4).anyOrder 0
  generalize ueHistory distanceCho regained 0 (sampleRun distanceCho regained sampleRows 4).1 = h
    at seen all holds
  have third := congrArg (·[2]?) seen
  have fourth := congrArg (·[3]?) seen
  simp only [List.getElem?_map, Option.map_eq_some_iff, List.getElem?_cons_succ,
    List.getElem?_cons_zero] at third fourth
  obtain ⟨f, lost, data⟩ := third
  obtain ⟨g, selects, data'⟩ := fourth
  simp only [servingChange, Prod.mk.injEq] at data data'
  have member := List.mem_of_getElem? selects
  obtain ⟨ue, present⟩ := Option.isSome_iff_exists.mp (all g member).2
  have unserved := data'.2.1
  rw [servingOf_eq present] at unserved
  refine ⟨f, g, ue, holds.lost f (List.mem_of_getElem? lost) ?_ data.2.2.2, data.1,
    holds.selects g (mem_ticks.mpr ⟨member, (all g member).1⟩) ue present unserved, data'.1,
    data'.2.2.1⟩
  rw [data.2.2.1]
  decide

/-- As `crossing`, but `N` has no name. -/
def crossingNameless : Env where
  link := sampleLink
    [overhead "S" [(0, 500000), (1, 1000000), (60, 1000000)],
      overhead "" [(0, 1000000), (1, 500000), (60, 500000)]]
  ho := {}

/-- A hysteresis that no satellite can overcome. -/
def unreachable : Env where
  link := sampleLink [overhead "S" [(0, 500000), (60, 500000)]]
  ho := { choExecutionOffset := 1000000000000000 }

/-- The satellite `S` descends to the UE while the other one ends. -/
def descending : Env where
  link := sampleLink
    [overhead "N" [(0, 500000), (1, 500000)],
      overhead "S" [(0, 1000000), (2, 1000000), (3, 0), (60, 0)]]
  ho := {}

/-- Some satellite is eligible by metrics drawn at the tick `f` itself. -/
def DrawnEligible (env : Env) (f : Firing ℤ (Option UeInfo) Event) (ue : UeInfo) : Prop :=
  ∃ satName metrics,
    Distance.Eligible env (fireTime f) (updateChannelCache distanceCho env (fireTime f) ue).phy satName
      metrics ∧
    (updateChannelCache distanceCho env (fireTime f) ue).phy.channel.channelCache[satName]? =
      some (fireTime f, metrics)

/-- The entries of the cache after step 1 of a tick: the satellite, the time of its metrics, and whether
it is in coverage and passes the filters of the selection. -/
def entriesAt (env : Env) (f : Firing ℤ (Option UeInfo) Event) : Option (List (String × ℚ × Bool)) :=
  f.before.state.map fun ue =>
    (updateChannelCache distanceCho env (fireTime f) ue).phy.channel.channelCache.toList.map
      fun entry => (entry.1, entry.2.1, covers (env.link.trajectory entry.1) (fireTime f) &&
        Distance.selectable env (fireTime f) entry.1 entry.2.2)

theorem drawnEligible_of_entriesAt {f : Firing ℤ (Option UeInfo) Event} {ue : UeInfo}
    {entries : List (String × ℚ × Bool)} (present : f.before.state = some ue)
    (seen : entriesAt env f = some entries) {satName : String}
    (listed : (satName, fireTime f, true) ∈ entries) : DrawnEligible env f ue := by
  rw [entriesAt, present, Option.map_some, Option.some.injEq] at seen
  rw [← seen] at listed
  obtain ⟨⟨name, time, metrics⟩, cached, data⟩ := List.mem_map.mp listed
  simp only [Prod.mk.injEq, Bool.and_eq_true] at data
  obtain ⟨rfl, rfl, covered, selects⟩ := data
  have entry := Std.TreeMap.mem_toList_iff_getElem?_eq_some.mp cached
  simp only [Distance.selectable, Bool.and_eq_true, Bool.not_eq_true', decide_eq_false_iff_not,
    not_lt] at selects
  exact ⟨name, metrics,
    ⟨covered, ⟨_, entry⟩, selects.1.1.1, selects.1.2, selects.2⟩, entry⟩

theorem exists_time_of_drawnEligible {f : Firing ℤ (Option UeInfo) Event} {ue : UeInfo}
    {entries : List (String × ℚ × Bool)} (present : f.before.state = some ue)
    (seen : entriesAt env f = some entries) (drawn : DrawnEligible env f ue) :
    ∃ entry ∈ entries, entry.2.1 = fireTime f := by
  obtain ⟨satName, metrics, -, cached⟩ := drawn
  rw [entriesAt, present, Option.map_some, Option.some.injEq] at seen
  rw [← seen]
  exact ⟨_, List.mem_map_of_mem (Std.TreeMap.mem_toList_iff_getElem?_eq_some.mpr cached), rfl⟩

/-- A handover to a nameless satellite leaves a UE without a serving one; a hysteresis out of reach keeps
an eligible satellite from being selected; and a UE selects the satellite it has met by the metrics of
the tick before. -/
theorem reselection_boundaries :
    (¬ ∀ {env : Env} {rows : List UeRow} {h : List (Firing ℤ Sim Event)} {c : Conf ℤ Sim Event},
        SimRun distanceCho env rows h c → ∀ i, ∀ f ∈ ueHistory distanceCho env i h,
          servedAt distanceCho env f ≠ "" → servingOf f.after = "" →
            LostByFailure distanceCho env i f) ∧
      (¬ ∀ {env : Env} {rows : List UeRow} {h : List (Firing ℤ Sim Event)} {c : Conf ℤ Sim Event},
        SimRun distanceCho env rows h c → ∀ i, ∀ f ∈ ticks (ueHistory distanceCho env i h), ∀ ue,
          f.before.state = some ue → ue.context.servingGnb = "" →
            DrawnEligible env f ue → servedAt distanceCho env f ≠ "") ∧
      ¬ ∀ {env : Env} {rows : List UeRow} {h : List (Firing ℤ Sim Event)} {c : Conf ℤ Sim Event},
        SimRun distanceCho env rows h c → ∀ i, ∀ f ∈ ticks (ueHistory distanceCho env i h), ∀ ue,
          f.before.state = some ue → ue.context.servingGnb = "" →
            servedAt distanceCho env f ≠ "" → DrawnEligible env f ue := by
  refine ⟨fun always => ?_, fun always => ?_, fun always => ?_⟩
  · have holds := always (simRun_sampleRun distanceCho crossingNameless sampleRows 11) 0
    have seen : (ueHistory distanceCho crossingNameless 0
        (sampleRun distanceCho crossingNameless sampleRows 11).1).getLast?.map
          (fun f => (servedAt distanceCho crossingNameless f, servingOf f.after,
            decide (f.event.ev = .checkHandoverConditions))) = some ("S", "", false) := by
      decide +kernel
    obtain ⟨f, last, data⟩ := Option.map_eq_some_iff.mp seen
    simp only [Prod.mk.injEq, decide_eq_false_iff_not] at data
    obtain ⟨wasServed, lost, other⟩ := data
    exact other (holds f (List.mem_of_getLast? last) (by simp [wasServed]) lost).tick
  · have holds := always (simRun_sampleRun distanceCho unreachable sampleRows 1) 0
    have seen : (ticks (ueHistory distanceCho unreachable 0
        (sampleRun distanceCho unreachable sampleRows 1).1)).getLast?.map (servingChange distanceCho unreachable) =
        some (0, "", "", "") := by decide +kernel
    have found : (ticks (ueHistory distanceCho unreachable 0
        (sampleRun distanceCho unreachable sampleRows 1).1)).getLast?.bind (entriesAt unreachable) =
        some [("S", 0, true)] := by decide +kernel
    obtain ⟨f, last, data⟩ := Option.map_eq_some_iff.mp seen
    rw [last, Option.bind_some] at found
    simp only [servingChange, Prod.mk.injEq] at data
    obtain ⟨now, unserved, none, -⟩ := data
    obtain ⟨ue, present, -⟩ := Option.map_eq_some_iff.mp found
    rw [servingOf_eq present] at unserved
    exact holds f (List.mem_of_getLast? last) ue present unserved
      (drawnEligible_of_entriesAt present found
        (show ("S", fireTime f, true) ∈ [("S", 0, true)] by simp [now])) none
  · have holds := always (simRun_sampleRun distanceCho descending sampleRows 4) 0
    have seen : (ticks (ueHistory distanceCho descending 0
        (sampleRun distanceCho descending sampleRows 4).1)).getLast?.map (servingChange distanceCho descending) =
        some (3, "", "S", "S") := by decide +kernel
    have found : (ticks (ueHistory distanceCho descending 0
        (sampleRun distanceCho descending sampleRows 4).1)).getLast?.bind (entriesAt descending) =
        some [("N", 1, false), ("S", 2, true)] := by decide +kernel
    obtain ⟨f, last, data⟩ := Option.map_eq_some_iff.mp seen
    rw [last, Option.bind_some] at found
    simp only [servingChange, Prod.mk.injEq] at data
    obtain ⟨now, unserved, selected, -⟩ := data
    obtain ⟨ue, present, -⟩ := Option.map_eq_some_iff.mp found
    rw [servingOf_eq present] at unserved
    have drawn := holds f (List.mem_of_getLast? last) ue present unserved (by simp [selected])
    obtain ⟨entry, listed, time⟩ := exists_time_of_drawnEligible present found drawn
    rw [now] at time
    simp only [List.mem_cons, List.not_mem_nil, or_false] at listed
    rcases listed with rfl | rfl <;> norm_num at time

end NtnCho
