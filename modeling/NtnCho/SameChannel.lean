import NtnCho.CommonNumbers

/-!
# One channel for every strategy

The evaluations of SNR-CHO and of SD-TOPSIS-CHO read the cache and compute no link (`Passive`). So in
a run of either nothing but step 1 of a tick draws from the engine of a UE or writes its cache, and
step 1 finds the realised channel, which no handover parameter and no decision has part in. The two
programs share `UpdateSatelliteState`: they are compared on one realisation.
-/

namespace NtnCho

open EventSystem

variable {P : Program} {env : Env}

/-- The neighbour evaluation leaves the physical layer alone. -/
def Program.Passive (P : Program) : Prop :=
  ∀ env ueId simTime ue serving measurements,
    (P.evaluateNeighbors env ueId simTime ue serving measurements).phy = ue.phy

theorem SnrCho.passive : snrCho.Passive := by
  intro env ueId simTime ue serving measurements
  simp only [snrCho, SnrCho.evaluateNeighbors]
  split <;> rfl

theorem Topsis.passive : sdTopsisCho.Passive := fun _ _ _ _ _ _ => rfl

theorem Program.Passive.keepsChannel (passive : P.Passive) {i : ℕ}
    (g : Firing ℤ (Option UeInfo) Event) : KeepsChannel P env i g := by
  intro ue present
  rcases ueTick_phy P env i (fireTime g) ue with same | ⟨due, serving, measured, found, evaluated⟩
  · rw [same]
  · have kept : (due.evaluation P env i (fireTime g) serving).phy = due.phy := passive ..
    rw [evaluated, kept, UeInfo.due_phy measured]

/-! ## What an event does to a channel -/

/-- At the event `f` the channel state of UE `i` becomes what step 1 makes of it, if `f` is a tick, and
stays as it is otherwise. -/
def ChannelByStepOne (P : Program) (env : Env) (i : ℕ) (f : Firing ℤ Sim Event) : Prop :=
  ∀ ue, f.before.state.ues[i]? = some ue → ∃ ue', f.after.state.ues[i]? = some ue' ∧
    ue'.phy.channel =
      if f.event.ev = .checkHandoverConditions then
        (ue.updated P env (getSeconds f.event.ts)).phy.channel
      else ue.phy.channel

/-- An event changes a UE that it concerns by the action of this UE, and no other. -/
theorem ues_simHandler (event : Event) (now : ℤ) (s : Sim) (i : ℕ) :
    (simHandler P env event now s).1.ues[i]? = s.ues[i]?.map fun ue =>
      if event.concerns i = true then (ueAction P env i event now ue).1 else ue := by
  by_cases concerns : event.concerns i = true
  · refine ((ueComponent P env i).view_rel concerns).trans ?_
    simp only [concerns, if_true]
    change (ueHandler P env i event now s.ues[i]?).1 = _
    cases s.ues[i]? <;> rfl
  · have outside : event.concerns i = false := by simpa using concerns
    refine ((ueComponent P env i).view_irrel outside).trans ?_
    simp only [outside, Bool.false_eq_true, if_false, Option.map_id']
    rfl

theorem Program.Passive.channelByStepOne (passive : P.Passive) {f : Firing ℤ Sim Event}
    (step : Step (simHandler P env) anyOrder f.before f.event f.after) (i : ℕ) :
    ChannelByStepOne P env i f := by
  intro ue present
  obtain ⟨before, ⟨ts, event⟩, after⟩ := f
  dsimp only at step present ⊢
  have state : after.state = (simHandler P env event ts before.state).1 := by
    cases step
    rfl
  have moved := @ues_simHandler P env event ts before.state i
  replace present : before.state.ues[i]? = some ue := present
  rw [← state, present] at moved
  refine ⟨_, moved, ?_⟩
  rcases event with _ | ⟨handler, ueId, sourceCell, targetCell⟩ | prediction
  · exact passive.keepsChannel ⟨⟨some ue, []⟩, ⟨ts, .checkHandoverConditions⟩, ⟨none, []⟩⟩ ue rfl
  · rw [if_neg (by simp)]
    split
    · exact congrArg Phy.channel
        (sameLink_choHandler P env handler i sourceCell targetCell (getSeconds ts) ue).phy
    · rfl
  · rw [if_neg (by simp)]
    rfl

/-! ## The comparison -/

/-- Before a tick of a passive program the UE is the realised one. -/
theorem Program.Passive.realised (passive : P.Passive) (lawful : P.Lawful) {rows : List UeRow}
    {h : List (Firing ℤ Sim Event)} {c : Conf ℤ Sim Event} (run : AnyOrderRun P env rows h c) {i : ℕ}
    {f : Firing ℤ (Option UeInfo) Event} (ticking : f ∈ ticks (ueHistory P env i h)) {ue : UeInfo}
    (present : f.before.state = some ue) :
    ∃ n : ℕ, fireTime f = n ∧ ∃ row, rows[i]? = some row ∧ Realised P env i row n ue :=
  realised_of_tick lawful (run.toUe i) (fun g _ => passive.keepsChannel g) ticking present

/-- **The same channel for SNR-CHO and SD-TOPSIS-CHO.** On one dataset, UE list and seed, whatever the
handover parameters of the two runs, step 1 of the tick of a second computes the same metrics for a UE
and leaves the same cache and engine in both. And in either run no other code touches a channel. -/
theorem same_channel {L : Link} {ho ho' : HandoverParams} {rows : List UeRow}
    {h h' : List (Firing ℤ Sim Event)} {c c' : Conf ℤ Sim Event}
    (run : AnyOrderRun snrCho ⟨L, ho⟩ rows h c)
    (run' : AnyOrderRun sdTopsisCho ⟨L, ho'⟩ rows h' c') (i : ℕ) :
    (∀ f ∈ ticks (ueHistory snrCho ⟨L, ho⟩ i h), ∀ f' ∈ ticks (ueHistory sdTopsisCho ⟨L, ho'⟩ i h'),
      fireTime f = fireTime f' → ∀ ue ue', f.before.state = some ue → f'.before.state = some ue' →
        stepOne snrCho ⟨L, ho⟩ (fireTime f) ue = stepOne sdTopsisCho ⟨L, ho'⟩ (fireTime f') ue' ∧
          (ue.updated snrCho ⟨L, ho⟩ (fireTime f)).phy.channel =
            (ue'.updated sdTopsisCho ⟨L, ho'⟩ (fireTime f')).phy.channel) ∧
      (∀ f ∈ h, ChannelByStepOne snrCho ⟨L, ho⟩ i f) ∧
      ∀ f ∈ h', ChannelByStepOne sdTopsisCho ⟨L, ho'⟩ i f := by
  refine ⟨?_, fun f member => SnrCho.passive.channelByStepOne (run.step_of_mem member) i,
    fun f member => Topsis.passive.channelByStepOne (run'.step_of_mem member) i⟩
  intro f ticking f' ticking' same ue ue' present present'
  obtain ⟨n, time, row, atRow, realised⟩ :=
    SnrCho.passive.realised SnrCho.lawful run ticking present
  obtain ⟨n', time', row', atRow', realised'⟩ :=
    Topsis.passive.realised Topsis.lawful run' ticking' present'
  obtain rfl : n = n' := by exact_mod_cast time.symm.trans (same.trans time')
  obtain rfl := Option.some.inj (atRow.symm.trans atRow')
  rw [time, time']
  constructor
  · rw [realised.stepOne, realised'.stepOne]
    rfl
  · rw [realised.updated, realised'.updated]
    rfl

/-- The runs of the two programs over `varying`, one with a longer time to trigger, agree at second
2. -/
theorem same_channel_varying :
    ∃ f ∈ ticks (ueHistory snrCho ⟨varying, {}⟩ 0 (sampleRun snrCho ⟨varying, {}⟩ sampleRows 3).1),
      ∃ f' ∈ ticks (ueHistory sdTopsisCho ⟨varying, hesitant⟩ 0
          (sampleRun sdTopsisCho ⟨varying, hesitant⟩ sampleRows 3).1),
        fireTime f = 2 ∧ fireTime f' = 2 ∧ ∃ ue ue', f.before.state = some ue ∧
          f'.before.state = some ue' ∧
          stepOne snrCho ⟨varying, {}⟩ (fireTime f) ue =
            stepOne sdTopsisCho ⟨varying, hesitant⟩ (fireTime f') ue' := by
  have seen : (lastSnrs snrCho ⟨varying, {}⟩ (ueHistory snrCho ⟨varying, {}⟩ 0
      (sampleRun snrCho ⟨varying, {}⟩ sampleRows 3).1)).map Prod.fst = some 2 := by decide +kernel
  have seen' : (lastSnrs sdTopsisCho ⟨varying, hesitant⟩ (ueHistory sdTopsisCho ⟨varying, hesitant⟩ 0
      (sampleRun sdTopsisCho ⟨varying, hesitant⟩ sampleRows 3).1)).map Prod.fst = some 2 := by
    decide +kernel
  obtain ⟨f, member, ue, present, time, -⟩ := exists_of_lastSnrs seen
  obtain ⟨f', member', ue', present', time', -⟩ := exists_of_lastSnrs seen'
  refine ⟨f, member, f', member', time, time', ue, ue', present, present', ?_⟩
  exact ((same_channel (simRun_sampleRun snrCho ⟨varying, {}⟩ sampleRows 3).anyOrder
    (simRun_sampleRun sdTopsisCho ⟨varying, hesitant⟩ sampleRows 3).anyOrder 0).1 f member f' member'
      (time.trans time'.symm) ue ue' present present').1

end NtnCho
