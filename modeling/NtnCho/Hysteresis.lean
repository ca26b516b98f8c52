import NtnCho.Elevation
import NtnCho.Execution
import NtnCho.Serving

/-!
# The hysteresis of Elevation-CHO

The execution condition compares cached elevations. Step 1 of a tick renews the entry of a satellite in
coverage and leaves the entry of one that has ended, so an execution has the geometric hysteresis
exactly if both satellites are in coverage at its tick, `hysteresis_iff`. The measurements leave out a
satellite that has ended; the execution condition does not.
-/

namespace NtnCho

open EventSystem

variable {P : Program} {env : Env} {i : ℕ}

namespace Elevation

theorem best_scanNeighbors {ue : UeInfo} {measurements : List MeasResultCell}
    {neighbor : MeasResultCell}
    (found : (scanNeighbors ue measurements).bestNeighbor = some neighbor) :
    neighbor ∈ measurements ∧ neighbor.cellId ≠ ue.measState.servingCellId := by
  refine best_of_foldl NeighborScan.bestNeighbor _ _
    (fun meas => meas.cellId ≠ ue.measState.servingCellId) measurements rfl ?_ found
  intro scan meas
  unfold scanNeighbor
  split
  · exact .inl rfl
  · rename_i serving
    exact (ite_eq_or_eq _ (some meas) scan.bestNeighbor).symm.imp_right (⟨·, serving⟩)

theorem selectBetter_cases {simTime : ℚ} (best : String × ℚ) (entry : String × ℚ × UeSatMetrics) :
    (selectBetter env simTime best entry).1 = best.1 ∨
      (selectBetter env simTime best entry).1 = entry.1 := by
  unfold selectBetter
  dsimp only
  split_ifs
  all_goals first | exact .inl rfl | exact .inr rfl

theorem lawful : elevationCho.Lawful where
  phy env ueId simTime ue serving measurements := by
    simp only [elevationCho, evaluateNeighbors]
    split <;> exact .refl
  names env ueId simTime ue serving measurements name cached := by
    simp only [elevationCho, evaluateNeighbors] at cached
    split at cached <;> exact cached
  best env ueId simTime ue serving measurements neighbor found := by
    simp only [elevationCho, evaluateNeighbors] at found
    split at found
    · cases found
    · rename_i best scanned
      obtain rfl := Option.some.inj found
      exact best_scanNeighbors scanned
  trigger env ueId simTime ue serving measurements met := by
    simp only [elevationCho, evaluateNeighbors] at met ⊢
    split at met
    · cases met
    · rfl
  selected env simTime ue := by
    simp only [elevationCho, selectBestSatellite]
    split
    · exact .inl rfl
    · exact selected_of_foldl Prod.fst _ _ ue.phy rfl fun best entry => selectBetter_cases best entry

end Elevation

/-! ## Elevations at a tick -/

/-- The elevation of a satellite seen from a UE at `t`, from its trajectory; none out of coverage. -/
def elevationSeen (env : Env) (geo : UeGeo) (satName : String) (t : ℚ) : Option ℚ :=
  if InCoverage env geo satName t then
    some (linkElevation env.link geo (env.link.trajectory satName) t)
  else none

/-- The target stands higher than the source by the execution offset, the source not below the horizon,
both in coverage. -/
def HysteresisAt (env : Env) (geo : UeGeo) (t : ℚ) (sourceCell targetCell : String) : Prop :=
  ∃ source target, elevationSeen env geo sourceCell t = some source ∧
    elevationSeen env geo targetCell t = some target ∧
    env.ho.choExecutionOffset ≤ target - source ∧ 0 ≤ source

theorem HysteresisAt.inCoverage {geo : UeGeo} {t : ℚ} {sourceCell targetCell : String}
    (hysteresis : HysteresisAt env geo t sourceCell targetCell) :
    InCoverage env geo sourceCell t ∧ InCoverage env geo targetCell t := by
  obtain ⟨source, target, seen, seen', -⟩ := hysteresis
  unfold elevationSeen at seen seen'
  constructor
  · by_contra outside
    rw [if_neg outside] at seen
    cases seen
  · by_contra outside
    rw [if_neg outside] at seen'
    cases seen'

/-- After the channel update of a tick the cached elevation of a satellite in coverage is that of the
tick. -/
theorem cached_elevation (rules : P.phyRules = SnrCho.phyRules) {n : ℕ} {ue : UeInfo}
    {satName : String} {metrics : UeSatMetrics} (link : LinkInvariant P env ue)
    (inside : InCoverage env ue.geo satName n)
    (cached : (ue.updated P env n).cached satName = some metrics) :
    elevationSeen env ue.geo satName n = some metrics.elevation := by
  have usable : Usable P.phyRules env.link ue.geo satName n := by
    rw [rules]
    exact ⟨inside.1, rfl, inside.2⟩
  obtain ⟨m, found⟩ :=
    measuredAt_updateAllSatellites usable (mem_keys_of_covers inside.1) ue.phy
  have good : (ue.updated P env n).phy.Good P.phyRules env.link ue.geo := by
    rw [UeInfo.updated_phy]
    exact (phyReach_updateAllSatellites n _ ue.phy).good link.good
  rw [← UeInfo.updated_phy] at found
  have entry : metrics = m := by
    unfold UeInfo.cached at cached
    rw [found] at cached
    exact (Option.some.inj cached).symm
  unfold elevationSeen
  rw [if_pos inside, entry]
  exact congrArg some (good found).elevation.symm

section Run

variable {ok : Policy ℤ Event} {rows : List UeRow} {h : List (Firing ℤ (Option UeInfo) Event)}
  {c : Conf ℤ (Option UeInfo) Event} {f : Firing ℤ (Option UeInfo) Event} {ue ue' : UeInfo}

/-- An execution has the hysteresis exactly if both satellites are in coverage. -/
theorem EntersExecution.hysteresisAt_iff (enters : EntersExecution f ue ue')
    (prior : Run (ueHandler elevationCho env i) fifo (ueInitial env rows i) h f.before)
    (step : Step (ueHandler elevationCho env i) fifo f.before f.event f.after) :
    HysteresisAt env ue'.geo (fireTime f) ue'.choProcState.sourceCell ue'.choProcState.targetCell ↔
      InCoverage env ue'.geo ue'.choProcState.sourceCell (fireTime f) ∧
        InCoverage env ue'.geo ue'.choProcState.targetCell (fireTime f) := by
  refine ⟨HysteresisAt.inCoverage, fun ⟨source_inside, target_inside⟩ => ?_⟩
  obtain ⟨tick, -, source, target, -, met, -⟩ := enters.spec prior step
  have state := ueState_of_step step enters.before
  have geo : ue'.geo = ue.geo := by
    obtain rfl := Option.some.inj (enters.after.symm.trans state)
    exact (linkStep_ueAction Elevation.lawful i f.event.ev f.event.ts ue).geo
  obtain ⟨n, second⟩ : ∃ n : ℕ, fireTime f = n :=
    fireTime_eq_natCast (prior.snoc step) (mem_ticks.mpr ⟨by simp, tick⟩)
  obtain ⟨ue₀, present, serving, candidate, cached, cached', holds⟩ := met
  obtain rfl := Option.some.inj (present.symm.trans enters.before)
  have link := linkInvariant_of_run Elevation.lawful prior enters.before
  rw [geo, source, second] at source_inside
  rw [geo, target, second] at target_inside
  rw [second] at cached cached'
  rw [geo, source, target, second]
  simp only [elevationCho, Elevation.executionCondition, Bool.and_eq_true, decide_eq_true_eq] at holds
  exact ⟨_, _, cached_elevation rfl link source_inside cached,
    cached_elevation rfl link target_inside cached', holds⟩

/-! ## What triggers a handover -/

/-- The execution from `sourceCell` to `targetCell` that is under way before `g` was triggered by `f`. -/
structure TriggeredBy (f g : Firing ℤ (Option UeInfo) Event) (sourceCell targetCell : String) :
    Prop where
  enters : ∃ ue ue', EntersExecution f ue ue' ∧ ue'.choProcState.sourceCell = sourceCell ∧
    ue'.choProcState.targetCell = targetCell
  start : ∃ ue, g.before.state = some ue ∧ ue.choProcState.executionStartTime = fireTime f

/-- A UE that executes was taken into execution by a firing of its history. -/
structure Executing (h : List (Firing ℤ (Option UeInfo) Event)) (ue : UeInfo) : Prop where
  entered : ∃ f ∈ h, ∃ ue₀ ue₁, EntersExecution f ue₀ ue₁ ∧
    ue₁.choProcState.sourceCell = ue.choProcState.sourceCell ∧
    ue₁.choProcState.targetCell = ue.choProcState.targetCell ∧
    ue.choProcState.executionStartTime = fireTime f

/-- A tick leaves the procedure of a UE that executes alone. -/
theorem ueTick_executing {simTime : ℚ} (executing : ue.choProcState.phase = .ueExecuting) :
    (ueTick P env i simTime ue).1.choProcState = ue.choProcState := by
  obtain ⟨ue₁, same, action⟩ := ueTick_spec P env i simTime ue
  have busy := (congrArg UeChoProcedureState.phase same.choProcState).trans executing
  generalize ueTick P env i simTime ue = result at action ⊢
  cases action with
  | quiet => exact same.choProcState
  | timer _ _ evaluating => rw [busy] at evaluating; cases evaluating
  | expires evaluating => rw [busy] at evaluating; cases evaluating
  | executes _ evaluating => rw [busy] at evaluating; cases evaluating
  | reports _ _ idle => rw [busy] at idle; cases idle
  | reselects _ idle => rw [busy] at idle; cases idle

/-- The time of an execution is that of the tick that triggers it. -/
theorem EntersExecution.start (enters : EntersExecution f ue ue')
    (prior : Run (ueHandler P env i) fifo (ueInitial env rows i) h f.before)
    (step : Step (ueHandler P env i) fifo f.before f.event f.after) :
    ue'.choProcState.executionStartTime = fireTime f := by
  obtain ⟨tick, phase, -⟩ := enters.spec prior step
  obtain ⟨present, after, other, executing⟩ := enters
  rcases f with ⟨c, ⟨ts, event⟩, c'⟩
  obtain rfl : event = .checkHandoverConditions := tick
  have state := ueState_of_step step present
  obtain rfl := Option.some.inj (after.symm.trans state)
  rw [ueAction_tick] at executing ⊢
  have check := ueTick_evaluating P env i (getSeconds ts) phase
  have same := (sameProcedure_updated P env (getSeconds ts) ue).choProcState
  have stays : (ue.updated P env (getSeconds ts)).choProcState.phase ≠ .ueExecuting := by
    rw [same, phase]
    decide
  generalize ueTick P env i (getSeconds ts) ue = result at check executing ⊢
  cases check with
  | expired =>
      rw [choConfigExpired_phase] at executing
      cases executing
  | missing => exact absurd executing stays
  | unmet => exact absurd executing stays
  | starts => exact absurd executing stays
  | waits => exact absurd executing stays
  | executes =>
      have evaluating : ((ue.updated P env (getSeconds ts)).setExecutionTtt false
          (ue.updated P env (getSeconds ts)).choProcState.executionTttStartTime).choProcState.phase =
          .ueEvaluating := (congrArg UeChoProcedureState.phase same).trans phase
      unfold choPhase6UeExecutes
      rw [if_neg (not_not.mpr evaluating)]
      dsimp only
      rw [applyUeErrorModelImmediately_choProcState, UeInfo.count_choProcState]
      rfl

theorem executing_of_run (run : Run (ueHandler P env i) fifo (ueInitial env rows i) h c)
    (present : c.state = some ue) (executing : ue.choProcState.phase = .ueExecuting) :
    Executing h ue := by
  refine ueRun_history
    (I := fun h _ ue => ue.choProcState.phase = .ueExecuting → Executing h ue) run
    (fun _ idle => by cases idle) ?_ present executing
  intro h c p c' ue prior step present concerns ih after
  have state := ueState_of_step step present
  by_cases before : ue.choProcState.phase = .ueExecuting
  case neg =>
    have enters : EntersExecution ⟨c, p, c'⟩ ue _ := ⟨present, state, before, after⟩
    exact ⟨⟨_, by simp, _, _, enters, rfl, rfl, enters.start prior step⟩⟩
  case pos =>
    obtain ⟨f, member, ue₀, ue₁, enters, source, target, start⟩ := (ih before).entered
    have kept : (ueAction P env i p.ev p.ts ue).1.choProcState = ue.choProcState := by
      rcases p with ⟨ts, _ | ⟨handler, ueId, sourceCell, targetCell⟩ | _⟩
      · exact ueTick_executing before
      · -- the only phase event of a UE that executes ends its execution
        obtain ⟨rfl, guard, -⟩ := guard_of_step prior step present
        rw [ueAction_cho, choHandler_phase P env ueId sourceCell targetCell (getSeconds ts) guard]
          at after
        cases handler <;> cases after
      · cases concerns
    rw [← kept] at source target start
    exact ⟨⟨f, List.mem_append_left _ member, ue₀, ue₁, enters, source, target, start⟩⟩

/-- A handover has been triggered by an execution of the history. -/
theorem exists_triggeredBy (lawful : P.Lawful) {g : Firing ℤ (Option UeInfo) Event}
    {sourceCell targetCell : String} (run : Run (ueHandler P env i) fifo (ueInitial env rows i) h c)
    (member : g ∈ h) (handed : handoverOf env g = some (sourceCell, targetCell)) :
    ∃ f ∈ h, TriggeredBy f g sourceCell targetCell := by
  obtain ⟨h₁, h₂, rfl⟩ := List.append_of_mem member
  obtain ⟨prior, step⟩ := run.split
  obtain ⟨ue, present, executing, rfl, rfl⟩ := (inFlight_of_handoverOf lawful prior step handed).1.procedure
  obtain ⟨f, earlier, ue₀, ue₁, enters, source, target, start⟩ :=
    (executing_of_run prior present executing).entered
  exact ⟨f, List.mem_append_left _ earlier, ⟨ue₀, ue₁, enters, source, target⟩, ue, present, start⟩

end Run

/-- The elevation of a satellite over the horizon of a UE. -/
def elevationAt (env : Env) (geo : UeGeo) (satName : String) (t : ℚ) : ℚ :=
  linkElevation env.link geo (env.link.trajectory satName) t

theorem HysteresisAt.le_sub {geo : UeGeo} {t : ℚ} {sourceCell targetCell : String}
    (hysteresis : HysteresisAt env geo t sourceCell targetCell) :
    env.ho.choExecutionOffset ≤ elevationAt env geo targetCell t - elevationAt env geo sourceCell t := by
  obtain ⟨source_inside, target_inside⟩ := hysteresis.inCoverage
  obtain ⟨source, target, seen, seen', higher, -⟩ := hysteresis
  unfold elevationSeen at seen seen'
  rw [if_pos source_inside] at seen
  rw [if_pos target_inside] at seen'
  obtain rfl := Option.some.inj seen
  obtain rfl := Option.some.inj seen'
  exact higher

/-- **The hysteresis of Elevation-CHO.** An execution has the geometric hysteresis exactly if both
satellites are in coverage at its tick; between the triggers of a handover and of one back, all four in
coverage, the source has risen over the target by twice the execution offset. -/
theorem hysteresis_iff {rows : List UeRow} {h : List (Firing ℤ Sim Event)} {c : Conf ℤ Sim Event}
    (run : SimRun elevationCho env rows h c) {row : UeRow} (atRow : rows[i]? = some row) :
    let geo := (initialUe env i row).geo
    let history := ueHistory elevationCho env i h
    (∀ f ∈ history, ∀ ue ue', EntersExecution f ue ue' →
      (HysteresisAt env geo (fireTime f) ue'.choProcState.sourceCell ue'.choProcState.targetCell ↔
        InCoverage env geo ue'.choProcState.sourceCell (fireTime f) ∧
          InCoverage env geo ue'.choProcState.targetCell (fireTime f))) ∧
      ∀ g₁ ∈ history, ∀ g₂ ∈ history, ∀ a b, handoverOf env g₁ = some (a, b) →
        handoverOf env g₂ = some (b, a) →
        ∃ f₁ ∈ history, ∃ f₂ ∈ history, TriggeredBy f₁ g₁ a b ∧ TriggeredBy f₂ g₂ b a ∧
          (InCoverage env geo a (fireTime f₁) → InCoverage env geo b (fireTime f₁) →
            InCoverage env geo a (fireTime f₂) → InCoverage env geo b (fireTime f₂) →
            elevationAt env geo a (fireTime f₁) - elevationAt env geo b (fireTime f₁) +
                2 * env.ho.choExecutionOffset ≤
              elevationAt env geo a (fireTime f₂) - elevationAt env geo b (fireTime f₂)) := by
  intro geo history
  have own := run.toUe i
  have executions : ∀ f ∈ history, ∀ ue ue', EntersExecution f ue ue' →
      (HysteresisAt env geo (fireTime f) ue'.choProcState.sourceCell ue'.choProcState.targetCell ↔
        InCoverage env geo ue'.choProcState.sourceCell (fireTime f) ∧
          InCoverage env geo ue'.choProcState.targetCell (fireTime f)) := by
    intro f member ue ue' enters
    obtain ⟨h₁, h₂, split⟩ := List.append_of_mem member
    have seen := own
    rw [show (ueComponent elevationCho env i).history h = _ from split] at seen
    obtain ⟨prior, step⟩ := seen.split
    have place : ue'.geo = geo := geo_of_run Elevation.lawful atRow (prior.snoc step) enters.after
    rw [← place]
    exact enters.hysteresisAt_iff prior step
  refine ⟨executions, fun g₁ member₁ g₂ member₂ a b there back => ?_⟩
  obtain ⟨f₁, early, by₁⟩ := exists_triggeredBy Elevation.lawful own member₁ there
  obtain ⟨f₂, late, by₂⟩ := exists_triggeredBy Elevation.lawful own member₂ back
  refine ⟨f₁, early, f₂, late, by₁, by₂, fun a₁ b₁ a₂ b₂ => ?_⟩
  obtain ⟨ue₁, ue₁', enters₁, source₁, target₁⟩ := by₁.enters
  obtain ⟨ue₂, ue₂', enters₂, source₂, target₂⟩ := by₂.enters
  have first := executions f₁ early _ _ enters₁
  have second := executions f₂ late _ _ enters₂
  rw [source₁, target₁] at first
  rw [source₂, target₂] at second
  have away := (first.mpr ⟨a₁, b₁⟩).le_sub
  have home := (second.mpr ⟨b₂, a₂⟩).le_sub
  linarith

/-! ## Runs -/

/-- The satellites of `crossing` with an offset that equal elevations meet. -/
def level : Env := { crossing with ho := { choExecutionOffset := 0 } }

/-- The serving satellite `N` ends while its handover to `S` is under way. -/
def leaving : Env where
  link := sampleLink
    [overhead "S" [(0, 1000000), (60, 1000000)], overhead "N" [(0, 500000), (2, 500000)]]
  ho := { choExecutionOffset := 0 }

/-- In `level` the UE goes from `N` to `S` and back, with both in coverage. -/
theorem hysteresis_iff_level :
    let history := ueHistory elevationCho level 0 (sampleRun elevationCho level sampleRows 22).1
    handovers level history = [("N", "S"), ("S", "N")] ∧
      ∃ f₁ ∈ history, ∃ f₂ ∈ history, fireTime f₁ < fireTime f₂ ∧
        elevationAt level (initialUe level 0 ⟨0, 0, "Rural"⟩).geo "N" (fireTime f₁) -
              elevationAt level (initialUe level 0 ⟨0, 0, "Rural"⟩).geo "S" (fireTime f₁) + 2 * 0 ≤
          elevationAt level (initialUe level 0 ⟨0, 0, "Rural"⟩).geo "N" (fireTime f₂) -
            elevationAt level (initialUe level 0 ⟨0, 0, "Rural"⟩).geo "S" (fireTime f₂) := by
  intro history
  have all : handovers level history = [("N", "S"), ("S", "N")] := by decide +kernel
  have covered : ∀ f ∈ history, fireTime f ≤ 60 →
      InCoverage level (initialUe level 0 ⟨0, 0, "Rural"⟩).geo "N" (fireTime f) ∧
        InCoverage level (initialUe level 0 ⟨0, 0, "Rural"⟩).geo "S" (fireTime f) := by decide +kernel
  have soon : ∀ f ∈ history, fireTime f ≤ 60 := by decide +kernel
  have starts : ∀ f ∈ history,
      (handoverOf level f = some ("N", "S") → f.before.state.map (fun ue =>
        ue.choProcState.executionStartTime) = some 3) ∧
      (handoverOf level f = some ("S", "N") → f.before.state.map (fun ue =>
        ue.choProcState.executionStartTime) = some 7) := by decide +kernel
  obtain ⟨g₁, member₁, there⟩ := List.mem_filterMap.mp
    (show ("N", "S") ∈ handovers level history by rw [all]; simp)
  obtain ⟨g₂, member₂, back⟩ := List.mem_filterMap.mp
    (show ("S", "N") ∈ handovers level history by rw [all]; simp)
  obtain ⟨f₁, early, f₂, late, by₁, by₂, rises⟩ :=
    (hysteresis_iff (simRun_sampleRun elevationCho level sampleRows 22)
      (show sampleRows[0]? = some ⟨0, 0, "Rural"⟩ from rfl)).2 g₁ member₁ g₂ member₂ "N" "S" there back
  obtain ⟨ue₁, present₁, start₁⟩ := by₁.start
  obtain ⟨ue₂, present₂, start₂⟩ := by₂.start
  have third := (starts g₁ member₁).1 there
  have seventh := (starts g₂ member₂).2 back
  rw [present₁, Option.map_some, start₁, Option.some.injEq] at third
  rw [present₂, Option.map_some, start₂, Option.some.injEq] at seventh
  obtain ⟨a₁, b₁⟩ := covered f₁ early (soon f₁ early)
  obtain ⟨a₂, b₂⟩ := covered f₂ late (soon f₂ late)
  exact ⟨all, f₁, early, f₂, late, by rw [third, seventh]; norm_num, rises a₁ b₁ a₂ b₂⟩

/-- In `leaving` the UE executes the handover from `N` at second 3, when `N` has ended at second 2. -/
theorem hysteresis_leaving :
    ¬ ∀ {env : Env} {rows : List UeRow} {h : List (Firing ℤ Sim Event)} {c : Conf ℤ Sim Event},
      0 ≤ env.ho.choExecutionOffset → SimRun elevationCho env rows h c →
      ∀ {i : ℕ} {row : UeRow}, rows[i]? = some row →
        ∀ f ∈ ueHistory elevationCho env i h, ∀ ue ue', EntersExecution f ue ue' →
          HysteresisAt env (initialUe env i row).geo (fireTime f) ue'.choProcState.sourceCell
            ue'.choProcState.targetCell := by
  intro always
  have enters : (ueHistory elevationCho leaving 0
      (sampleRun elevationCho leaving sampleRows 9).1).getLast?.bind (fun f =>
        f.before.state.bind fun ue => f.after.state.map fun ue' =>
          ((ue.choProcState.phase, ue'.choProcState.phase),
            ue'.choProcState.sourceCell, fireTime f)) =
      some ((.ueEvaluating, .ueExecuting), "N", 3) := by decide +kernel
  obtain ⟨f, last, enters⟩ := Option.bind_eq_some_iff.mp enters
  obtain ⟨ue, present, enters⟩ := Option.bind_eq_some_iff.mp enters
  obtain ⟨ue', after, enters⟩ := Option.map_eq_some_iff.mp enters
  simp only [Prod.mk.injEq] at enters
  obtain ⟨⟨evaluating, executing⟩, source, time⟩ := enters
  have hysteresis := always (le_refl 0) (simRun_sampleRun elevationCho leaving sampleRows 9)
    (show sampleRows[0]? = some ⟨0, 0, "Rural"⟩ from rfl) f (List.mem_of_getLast? last) ue ue'
    ⟨present, after, by rw [evaluating]; decide, executing⟩
  have inside := hysteresis.inCoverage.1.1
  rw [source, time] at inside
  have outside : covers (leaving.link.trajectory "N") 3 = false := by decide +kernel
  rw [outside] at inside
  cases inside

end NtnCho
