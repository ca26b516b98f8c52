import NtnCho.Markers

/-!
# The data of the liveness check

`CHO_IsLinkViable` and the execution condition read the cache of the UE, and neither asks whether the
trajectory of the satellite has ended. A UE that executes is not measured, so its cache is what step 1
of the last tick left (`LiveCache`), and step 1 renews the entry of every satellite that is usable and
keeps the entry of every other. So a handover completes on metrics of the last tick exactly if its
target was still usable then, `fresh_liveness_iff`.
-/

namespace NtnCho

open EventSystem

variable {P : Program} {env : Env}

/-! ## Coverage -/

/-- The trajectory has begun at `t`. -/
def begun (trajectory : List TrajectoryPoint) (t : ℚ) : Prop :=
  ∃ front ∈ trajectory.head?, front.time ≤ t

theorem begun_mono {trajectory : List TrajectoryPoint} {t t' : ℚ} (le : t ≤ t')
    (begins : begun trajectory t) : begun trajectory t' := by
  obtain ⟨front, first, before⟩ := begins
  exact ⟨front, first, before.trans le⟩

/-- A trajectory covers the times between its begin and its end. -/
theorem covers_iff {trajectory : List TrajectoryPoint} {t : ℚ} :
    covers trajectory t = true ↔ begun trajectory t ∧ ended trajectory t = false := by
  cases trajectory with
  | nil => simp [covers, begun]
  | cons front rest => simp [covers, begun, ended]

/-! ## The cache along a run -/

/-- Every cached satellite had begun at some tick, and while the UE executes the cache is what step 1
of the last tick left. -/
structure LiveCache (P : Program) (env : Env) (h : List (Firing ℤ (Option UeInfo) Event))
    (ue : UeInfo) : Prop where
  begun : ∀ {satName}, satName ∈ ue.phy.channel.channelCache →
    ∃ g ∈ ticks h, begun (env.link.trajectory satName) (fireTime g)
  renewed : ue.choProcState.phase = .ueExecuting →
    ∃ g phy, (ticks h).getLast? = some g ∧
      ue.phy = (updateAllSatellites P.phyRules env ue.geo (fireTime g) env.link.satellites.keys phy).2

/-- A tick adds to the cache what its step 1 adds. -/
theorem mem_ueTick (lawful : P.Lawful) {ueId : ℕ} {simTime : ℚ} {ue : UeInfo} {satName : String}
    (cached : satName ∈ (ueTick P env ueId simTime ue).1.phy.channel.channelCache) :
    satName ∈ ue.phy.channel.channelCache ∨
      Usable P.phyRules env.link ue.geo satName simTime := by
  have step1 : satName ∈ (ue.updated P env simTime).phy.channel.channelCache := by
    rcases ueTick_phy P env ueId simTime ue with same | ⟨due, serving, measured, -, evaluated⟩
    · rwa [same] at cached
    · rw [evaluated] at cached
      rw [← UeInfo.due_phy measured]
      exact lawful.names env ueId simTime (due.measured serving) serving _ satName cached
  rw [UeInfo.updated_phy] at step1
  exact mem_updateAllSatellites step1

/-- A tick that leaves a UE executing does not measure it. -/
theorem ueTick_phy_of_executing {ueId : ℕ} {simTime : ℚ} {ue : UeInfo}
    (executing : (ueTick P env ueId simTime ue).1.choProcState.phase = .ueExecuting) :
    (ueTick P env ueId simTime ue).1.phy = (ue.updated P env simTime).phy := by
  rcases ueTick_phy P env ueId simTime ue with same | ⟨due, serving, measured, -, -⟩
  · exact same
  · have idle := (UeInfo.due?_eq_some measured).2.1
    rw [(sameProcedure_updated P env simTime ue).choProcState] at idle
    rcases ueTick_phase P env ueId simTime (by rw [idle]; decide) with stays | ⟨-, reported⟩
    · rw [stays, idle] at executing
      cases executing
    · rw [reported] at executing
      cases executing

theorem liveCache_of_run (lawful : P.Lawful) {ok : Policy ℤ Event} {i : ℕ} {rows : List UeRow}
    {h : List (Firing ℤ (Option UeInfo) Event)} {c : Conf ℤ (Option UeInfo) Event} {ue : UeInfo}
    (run : Run (ueHandler P env i) ok (ueInitial env rows i) h c) (present : c.state = some ue) :
    LiveCache P env h ue := by
  refine ueRun_history (I := fun h _ ue => LiveCache P env h ue) run ?_ ?_ present
  · intro row _
    refine ⟨fun cached => ?_, fun executing => by cases executing⟩
    simp [initialUe] at cached
  intro h c p c' ue prior step present concerns live
  rcases p with ⟨ts, _ | ⟨handler, ueId, sourceCell, targetCell⟩ | _⟩
  · rw [ueAction_tick]
    refine ⟨fun cached => ?_, fun executing => ?_⟩
    · rw [ticks_snoc rfl]
      rcases mem_ueTick lawful cached with old | usable
      · obtain ⟨g, member, begins⟩ := live.begun old
        exact ⟨g, List.mem_append_left _ member, begins⟩
      · exact ⟨⟨c, ⟨ts, .checkHandoverConditions⟩, c'⟩, by simp, (covers_iff.mp usable.covers).1⟩
    · refine ⟨⟨c, ⟨ts, .checkHandoverConditions⟩, c'⟩, ue.phy, ?_, ?_⟩
      · rw [ticks_snoc rfl, List.getLast?_concat]
      have geo : (ueTick P env i (getSeconds ts) ue).1.geo = ue.geo :=
        (linkStep_ueAction lawful i .checkHandoverConditions ts ue).geo
      rw [ueTick_phy_of_executing executing, geo, UeInfo.updated_phy]
      rfl
  · -- a phase event leaves the physical layer alone, and no UE executing
    obtain ⟨rfl, guard, -⟩ := guard_of_step prior step present
    rw [ueAction_cho]
    refine ⟨fun cached => ?_, fun executing => ?_⟩
    · rw [ticks_snoc_of_ne (by simp)]
      rw [(sameLink_choHandler P env handler ueId sourceCell targetCell (getSeconds ts) ue).phy]
        at cached
      exact live.begun cached
    · rw [choHandler_phase P env ueId sourceCell targetCell (getSeconds ts) guard] at executing
      cases handler <;> cases executing
  · cases concerns

/-! ## The liveness check -/

/-- `f` completes a handover of UE `i` to `targetCell` successfully. -/
structure HandsOver (env : Env) (i : ℕ) (f : Firing ℤ (Option UeInfo) Event) (targetCell : String)
    (ue : UeInfo) : Prop where
  completes : ∃ sourceCell, Completes i f sourceCell targetCell ue
  viable : choIsLinkViable env ue targetCell = true

/-- The satellite is in coverage at `time`, and the metrics of it that the UE has cached were computed
at `time`. -/
structure FreshTarget (env : Env) (ue : UeInfo) (cellId : String) (time : ℚ) : Prop where
  covered : covers (env.link.trajectory cellId) time = true
  measured : ue.phy.MeasuredAt cellId time

/-- The trajectory of the satellite has not ended at `time`, and it is at least one metre away. -/
structure StillUsable (env : Env) (ue : UeInfo) (cellId : String) (time : ℚ) : Prop where
  going : ended (env.link.trajectory cellId) time = false
  distance : 1 ≤ slantRange env.link ue.geo (env.link.trajectory cellId) time

/-- Every handover of a history completes on a fresh target exactly if its target was still usable at
the last tick before. -/
def FreshIffUsable (env : Env) (i : ℕ) (h : List (Firing ℤ (Option UeInfo) Event)) : Prop :=
  ∀ {h₁ h₂ f targetCell ue}, h = h₁ ++ f :: h₂ → HandsOver env i f targetCell ue →
    ∃ g, (ticks h₁).getLast? = some g ∧ fireTime g ≤ fireTime f ∧ fireTime f ≤ fireTime g + 1 ∧
      (FreshTarget env ue targetCell (fireTime g) ↔ StillUsable env ue targetCell (fireTime g))

theorem freshIffUsable_of_run (lawful : P.Lawful)
    (anywhere : ∀ trajectory t, P.phyRules.inPass trajectory t = true) {i : ℕ} {rows : List UeRow}
    {h : List (Firing ℤ (Option UeInfo) Event)} {c : Conf ℤ (Option UeInfo) Event}
    (run : Run (ueHandler P env i) fifo (ueInitial env rows i) h c) : FreshIffUsable env i h := by
  rintro h₁ h₂ f targetCell ue rfl ⟨⟨sourceCell, completes⟩, viable⟩
  obtain ⟨prior, step⟩ := run.split
  have present := completes.before
  have live := liveCache_of_run lawful prior present
  have link := linkInvariant_of_run lawful prior present
  have cached := mem_of_choIsLinkViable viable
  obtain ⟨g, phy, last, renewed⟩ := live.renewed (completes.inFlight prior step).1
  have member := List.mem_of_getLast? last
  obtain ⟨n, second⟩ := fireTime_eq_natCast prior member
  refine ⟨g, last, ueRun_times_le lawful prior step (mem_ticks.mp member).1,
    le_lastTick_add_one prior step last, fun fresh => ?_, fun usable => ?_⟩
  · obtain ⟨m, entry⟩ := fresh.measured
    exact ⟨(covers_iff.mp fresh.covered).2, (link.good entry).usable.distance⟩
  · obtain ⟨g', member', begins⟩ := live.begun cached
    have covered : covers (env.link.trajectory targetCell) (fireTime g) = true :=
      covers_iff.mpr ⟨begun_mono (fireTime_le_lastTick prior last member') begins, usable.going⟩
    refine ⟨covered, ?_⟩
    rw [second] at covered usable renewed ⊢
    rw [renewed]
    exact measuredAt_updateAllSatellites ⟨covered, anywhere _ _, usable.distance⟩
      (mem_keys_of_covers covered) phy

/-- **Fresh data.** In every run of TD-CHO and of SNR-CHO a handover completes on a target in coverage,
with metrics of the last tick, exactly if the trajectory of the target had not ended at the last tick
(and the satellite was a metre away). -/
theorem fresh_liveness_iff {env : Env} {rows : List UeRow} :
    (∀ {h : List (Firing ℤ Sim Event)} {c : Conf ℤ Sim Event}, SimRun tdCho env rows h c →
        ∀ i, FreshIffUsable env i (ueHistory tdCho env i h)) ∧
      ∀ {h : List (Firing ℤ Sim Event)} {c : Conf ℤ Sim Event}, SimRun snrCho env rows h c →
        ∀ i, FreshIffUsable env i (ueHistory snrCho env i h) :=
  ⟨fun run i => freshIffUsable_of_run TdCho.lawful (fun _ _ => rfl) (run.toUe i),
    fun run i => freshIffUsable_of_run SnrCho.lawful (fun _ _ => rfl) (run.toUe i)⟩

/-- What the last firing of a history does: its event, the viability of `targetCell` before it, and at
the last tick before it whether the satellite has ended and whether it is a metre away. -/
def lastCompletion (env : Env) (targetCell : String) (h : List (Firing ℤ (Option UeInfo) Event)) :
    Option (Event × Bool × Bool × Bool) :=
  h.getLast?.bind fun f => f.before.state.bind fun ue => (ticks h.dropLast).getLast?.map fun g =>
    (f.event.ev, choIsLinkViable env ue targetCell, ended (env.link.trajectory targetCell) (fireTime g),
      decide (1 ≤ slantRange env.link ue.geo (env.link.trajectory targetCell) (fireTime g)))

theorem exists_of_lastCompletion {i : ℕ} {sourceCell targetCell : String} {past far : Bool}
    {h : List (Firing ℤ (Option UeInfo) Event)}
    (seen : lastCompletion env targetCell h =
      some (.cho .phase7ExecutionComplete i sourceCell targetCell, true, past, far)) :
    ∃ h₁ f ue g, h = h₁ ++ [f] ∧ HandsOver env i f targetCell ue ∧ (ticks h₁).getLast? = some g ∧
      ended (env.link.trajectory targetCell) (fireTime g) = past ∧
      decide (1 ≤ slantRange env.link ue.geo (env.link.trajectory targetCell) (fireTime g)) = far := by
  obtain ⟨f, last, seen⟩ := Option.bind_eq_some_iff.mp seen
  obtain ⟨ue, present, seen⟩ := Option.bind_eq_some_iff.mp seen
  obtain ⟨g, tick, seen⟩ := Option.map_eq_some_iff.mp seen
  simp only [Prod.mk.injEq] at seen
  obtain ⟨event, viable, ends, distance⟩ := seen
  exact ⟨h.dropLast, f, ue, g, (List.dropLast_append_getLast? f last).symm,
    ⟨⟨sourceCell, event, present⟩, viable⟩, tick, ends, distance⟩

/-- In `crossing` both programs complete a handover to `N`, which is in coverage. -/
theorem fresh_liveness_iff_crossing :
    (∃ h₁ f ue g, ueHistory tdCho crossing 0 (sampleRun tdCho crossing sampleRows 11).1 = h₁ ++ [f] ∧
        HandsOver crossing 0 f "N" ue ∧ (ticks h₁).getLast? = some g ∧
        FreshTarget crossing ue "N" (fireTime g)) ∧
      ∃ h₁ f ue g, ueHistory snrCho crossing 0 (sampleRun snrCho crossing sampleRows 11).1 = h₁ ++ [f] ∧
        HandsOver crossing 0 f "N" ue ∧ (ticks h₁).getLast? = some g ∧
        FreshTarget crossing ue "N" (fireTime g) := by
  constructor
  · have seen : lastCompletion crossing "N"
        (ueHistory tdCho crossing 0 (sampleRun tdCho crossing sampleRows 11).1) =
        some (.cho .phase7ExecutionComplete 0 "S" "N", true, false, true) := by decide +kernel
    obtain ⟨h₁, f, ue, g, split, completes, last, going, far⟩ := exists_of_lastCompletion seen
    obtain ⟨g', last', -, -, fresh⟩ :=
      fresh_liveness_iff.1 (simRun_sampleRun tdCho crossing sampleRows 11) 0 split completes
    obtain rfl := Option.some.inj (last.symm.trans last')
    exact ⟨h₁, f, ue, g, split, completes, last, fresh.mpr ⟨going, of_decide_eq_true far⟩⟩
  · have seen : lastCompletion crossing "N"
        (ueHistory snrCho crossing 0 (sampleRun snrCho crossing sampleRows 11).1) =
        some (.cho .phase7ExecutionComplete 0 "S" "N", true, false, true) := by decide +kernel
    obtain ⟨h₁, f, ue, g, split, completes, last, going, far⟩ := exists_of_lastCompletion seen
    obtain ⟨g', last', -, -, fresh⟩ :=
      fresh_liveness_iff.2 (simRun_sampleRun snrCho crossing sampleRows 11) 0 split completes
    obtain rfl := Option.some.inj (last.symm.trans last')
    exact ⟨h₁, f, ue, g, split, completes, last, fresh.mpr ⟨going, of_decide_eq_true far⟩⟩

/-- As `crossing`, but the trajectory of `N` ends at second 2. -/
def setting : Env where
  link := sampleLink
    [overhead "S" [(0, 500000), (1, 1000000), (60, 1000000)],
      overhead "N" [(0, 1000000), (1, 500000), (2, 500000)]]
  ho := {}

/-- In `setting` the handover to `N` completes after second 4, two seconds after the end of `N`. -/
theorem stale_liveness_setting :
    ¬ ∀ {env : Env} {rows : List UeRow} {h : List (Firing ℤ Sim Event)} {c : Conf ℤ Sim Event},
      SimRun tdCho env rows h c → ∀ (i : ℕ) {h₁ h₂ f targetCell ue},
        ueHistory tdCho env i h = h₁ ++ f :: h₂ → HandsOver env i f targetCell ue →
        ∃ g, (ticks h₁).getLast? = some g ∧ FreshTarget env ue targetCell (fireTime g) := by
  intro always
  have seen : lastCompletion setting "N"
      (ueHistory tdCho setting 0 (sampleRun tdCho setting sampleRows 11).1) =
      some (.cho .phase7ExecutionComplete 0 "S" "N", true, true, true) := by decide +kernel
  obtain ⟨h₁, f, ue, g, split, completes, last, past, -⟩ := exists_of_lastCompletion seen
  obtain ⟨g', last', fresh⟩ :=
    always (simRun_sampleRun tdCho setting sampleRows 11) 0 split completes
  obtain rfl := Option.some.inj (last.symm.trans last')
  have going := (covers_iff.mp fresh.covered).2
  rw [past] at going
  cases going

end NtnCho
