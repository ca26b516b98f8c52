import NtnCho.EventSystem.Agenda
import NtnCho.Followup
import NtnCho.Prediction

/-!
# Settling pending validations

A tick of TD-CHO first goes through the two vectors of pending validations, which the measurement code of
all UEs fills later in the same tick. Each vector is an agenda: what a tick pushes is due at a later time,
and the first tick that is not before this time settles it.
-/

namespace NtnCho

open EventSystem

variable {env : Env} {α : Type}

/-! ## The loops -/

/-- `VerifyPendingMeasurements` with its iterator. -/
theorem Sim.verifyPendingMeasurements_eq (simTime : ℚ) (s : Sim) :
    s.verifyPendingMeasurements simTime =
      let (due, rest) := settleLoop (fun it => decide (it.verificationTime ≤ simTime))
        s.pendingMeasurementValidations 0
      { s with
        pendingMeasurementValidations := rest
        log := s.log ++ due.flatMap (validationRow s.ues) } := by
  rw [settleLoop_zero]
  rfl

/-- `VerifyPendingServingSnrFollowups` with its iterator. -/
theorem Sim.verifyPendingServingSnrFollowups_eq (simTime : ℚ) (s : Sim) :
    s.verifyPendingServingSnrFollowups simTime =
      let (due, rest) := settleLoop (fun it => decide (it.verificationTime ≤ simTime))
        s.pendingServingSnrFollowups 0
      { s with
        pendingServingSnrFollowups := rest
        log := s.log ++ due.map (followupRow s.ues) } := by
  rw [settleLoop_zero]
  rfl

/-! ## The two vectors -/

/-- A vector of pending entries, and the entry that a record adds to it. -/
structure PendingVector (α : Type) where
  entries : Sim → List α
  verificationTime : α → ℚ
  ofRecord : RecordEffect → Option α

/-- `g_pendingMeasurementValidations` -/
def measurementValidations : PendingVector PendingMeasurementValidation where
  entries := Sim.pendingMeasurementValidations
  verificationTime := PendingMeasurementValidation.verificationTime
  ofRecord
    | .measurementValidation it => some it
    | _ => none

/-- `g_pendingServingSnrFollowups` -/
def servingSnrFollowups : PendingVector PendingServingSnrFollowup where
  entries := Sim.pendingServingSnrFollowups
  verificationTime := PendingServingSnrFollowup.verificationTime
  ofRecord
    | .servingSnrFollowup it => some it
    | _ => none

/-- The firings of a history that are ticks. -/
def simTicks (h : List (Firing ℤ Sim Event)) : List (Firing ℤ Sim Event) :=
  h.filter fun f => f.event.ev = .checkHandoverConditions

theorem mem_simTicks {h : List (Firing ℤ Sim Event)} {f : Firing ℤ Sim Event} :
    f ∈ simTicks h ↔ f ∈ h ∧ f.event.ev = .checkHandoverConditions := by
  simp [simTicks]

namespace PendingVector

variable (V : PendingVector α)

/-- The loop of a tick over the vector: what it settles, and what it leaves. -/
def verify (f : Firing ℤ Sim Event) : List α × List α :=
  settleLoop (fun it => decide (V.verificationTime it ≤ getSeconds f.event.ts))
    (V.entries f.before.state) 0

/-- The entries that a tick removes. -/
def settled (f : Firing ℤ Sim Event) : List α := (V.verify f).1

/-- The entries that a tick leaves. -/
def left (f : Firing ℤ Sim Event) : List α := (V.verify f).2

/-- The entries that a tick pushes, behind those that it leaves. -/
def pushed (f : Firing ℤ Sim Event) : List α := (V.entries f.after.state).drop (V.left f).length

/-- The entry that an effect adds. -/
def ofEffect : Effect → Option α
  | .record r => V.ofRecord r
  | _ => none

/-- What changes the vector: the verification, and the records of evaluations, which are due later. -/
structure Tracked (env : Env) : Prop where
  verified : ∀ simTime s, V.entries (s.verified tdCho env simTime) =
    (settleLoop (fun it => decide (V.verificationTime it ≤ simTime)) (V.entries s) 0).2
  ues : ∀ s ues, V.entries { s with ues := ues } = V.entries s
  effect : ∀ now s effect,
    V.entries (Sim.applyEffect now s effect).1 = V.entries s ++ (V.ofEffect effect).toList
  evaluation : ∀ now r s, V.entries (Sim.evaluatePendingPrediction now r s) = V.entries s
  line : ∀ line, V.ofRecord (.log line) = none
  later : ∀ {i simTime r it}, TdCho.EvaluationRecord env i simTime r → V.ofRecord r = some it →
    simTime < V.verificationTime it

end PendingVector

theorem tracked_measurementValidations (env : Env) : measurementValidations.Tracked env where
  verified simTime s := by
    rw [Sim.verified, Sim.verifyPendingMeasurements_eq]
    rfl
  ues _ _ := rfl
  effect now s effect := by
    cases effect with
    | record r => cases r <;> first | rfl | exact (List.append_nil _).symm
    | _ => exact (List.append_nil _).symm
  evaluation now r s := by
    unfold Sim.evaluatePendingPrediction
    dsimp only
    split
    · rfl
    · split <;> rfl
  line _ := rfl
  later evaluated some_entry := by
    cases evaluated with
    | validation it verification =>
        obtain rfl := Option.some.inj some_entry
        change _ < it.verificationTime
        rw [verification]
        exact lt_add_of_pos_right _ (by norm_num)
    | _ => cases some_entry

theorem tracked_servingSnrFollowups (env : Env) : servingSnrFollowups.Tracked env where
  verified simTime s := by
    rw [Sim.verified, Sim.verifyPendingServingSnrFollowups_eq]
    rfl
  ues _ _ := rfl
  effect now s effect := by
    cases effect with
    | record r => cases r <;> first | rfl | exact (List.append_nil _).symm
    | _ => exact (List.append_nil _).symm
  evaluation now r s := by
    unfold Sim.evaluatePendingPrediction
    dsimp only
    split
    · rfl
    · split <;> rfl
  line _ := rfl
  later evaluated some_entry := by
    cases evaluated with
    | followup it record horizon verification =>
        obtain rfl := Option.some.inj some_entry
        change _ < it.verificationTime
        simp only [List.mem_cons, List.not_mem_nil, or_false] at horizon
        rw [verification]
        refine lt_add_of_pos_right _ ?_
        rcases horizon with second | three | five <;> linarith
    | _ => cases some_entry

/-! ## Events -/

namespace PendingVector

variable {V : PendingVector α}

theorem Tracked.applyEffects (tracked : V.Tracked env) (now : ℤ) (s : Sim) (effects : List Effect) :
    V.entries (s.applyEffects now effects).1 = V.entries s ++ effects.filterMap V.ofEffect := by
  induction effects generalizing s with
  | nil => exact (List.append_nil _).symm
  | cons effect effects ih =>
      rw [Sim.applyEffects]
      dsimp only
      rw [ih, tracked.effect, List.append_assoc, List.filterMap_cons]
      cases V.ofEffect effect <;> rfl

/-- What an event of a UE pushes, it pushes at a tick and for later. -/
theorem Tracked.later_of_ueAction (tracked : V.Tracked env) {i : ℕ} {event : Event} {now : ℤ} {ue : UeInfo}
    {effect : Effect} {it : α} (member : effect ∈ (ueAction tdCho env i event now ue).2)
    (entry : V.ofEffect effect = some it) :
    event = .checkHandoverConditions ∧ getSeconds now < V.verificationTime it := by
  cases effect with
  | record r =>
      rcases evaluationRecord_of_ueAction member with ⟨line, rfl⟩ | ⟨tick, evaluated⟩
      · rw [ofEffect, tracked.line] at entry
        cases entry
      · exact ⟨tick, tracked.later evaluated entry⟩
  | _ => cases entry

/-- A tick pushes behind what its verification leaves. -/
theorem Tracked.tick (tracked : V.Tracked env) (now : ℤ) (s : Sim) :
    ∃ pushed, V.entries (simHandler tdCho env .checkHandoverConditions now s).1 =
        (settleLoop (fun it => decide (V.verificationTime it ≤ getSeconds now)) (V.entries s) 0).2 ++ pushed ∧
      ∀ it ∈ pushed, getSeconds now < V.verificationTime it := by
  refine ⟨(forEachUe (fun i => ueTick tdCho env i (getSeconds now)) 0 s.ues).2.filterMap V.ofEffect, ?_, ?_⟩
  · rw [simHandler, Sim.checkHandoverConditions_eq]
    dsimp only
    rw [tracked.applyEffects, tracked.ues, tracked.verified]
  · intro it member
    obtain ⟨effect, made, entry⟩ := List.mem_filterMap.mp member
    obtain ⟨j, ue, -, made⟩ := mem_forEachUe made
    exact (@tracked.later_of_ueAction env α V _ .checkHandoverConditions now ue effect it made entry).2

/-- Another event leaves the vector alone. -/
theorem Tracked.other (tracked : V.Tracked env) {event : Event} (other : event ≠ .checkHandoverConditions)
    (now : ℤ) (s : Sim) : V.entries (simHandler tdCho env event now s).1 = V.entries s := by
  cases event with
  | checkHandoverConditions => exact absurd rfl other
  | cho handler ueId sourceCell targetCell =>
      simp only [simHandler, Sim.cho]
      split
      · rfl
      · rename_i ue _
        have none : (choHandler tdCho env handler ueId sourceCell targetCell (getSeconds now) ue).2.filterMap
            V.ofEffect = [] := by
          refine List.filterMap_eq_nil_iff.mpr fun effect made => ?_
          cases entry : V.ofEffect effect with
          | none => rfl
          | some it =>
              exact absurd (@tracked.later_of_ueAction env α V ueId
                (.cho handler ueId sourceCell targetCell) now ue effect it made entry).1 other
        rw [tracked.applyEffects, tracked.ues, none, List.append_nil]
  | evaluatePendingPrediction r => exact tracked.evaluation now r s

/-! ## Runs -/

/-- The ticks of a history as rounds. -/
def rounds (V : PendingVector α) (h : List (Firing ℤ Sim Event)) : List (Round ℚ α) :=
  (simTicks h).map fun f => ⟨getSeconds f.event.ts, V.pushed f⟩

theorem flatMap_rounds (h : List (Firing ℤ Sim Event)) :
    (V.rounds h).flatMap Round.added = (simTicks h).flatMap V.pushed := by
  rw [rounds, List.flatMap_map]

variable {rows : List UeRow} {h : List (Firing ℤ Sim Event)} {c : Conf ℤ Sim Event}

/-- A tick of a run pushes behind what it leaves, for later. -/
theorem Tracked.pushed_spec (tracked : V.Tracked env) {f : Firing ℤ Sim Event}
    (step : Step (simHandler tdCho env) anyOrder f.before f.event f.after)
    (tick : f.event.ev = .checkHandoverConditions) :
    V.entries f.after.state = V.left f ++ V.pushed f ∧
      ∀ it ∈ V.pushed f, getSeconds f.event.ts < V.verificationTime it := by
  have after : f.after.state = (simHandler tdCho env f.event.ev f.event.ts f.before.state).1 :=
    step.state_eq
  obtain ⟨pushed, entries, later⟩ := tracked.tick f.event.ts f.before.state
  rw [← tick, ← after] at entries
  have same : V.pushed f = pushed := by
    unfold PendingVector.pushed
    rw [entries]
    exact List.drop_left
  rw [same]
  exact ⟨entries, later⟩

theorem simTicks_append (h h' : List (Firing ℤ Sim Event)) :
    simTicks (h ++ h') = simTicks h ++ simTicks h' := List.filter_append ..

/-- **The run lemma**: the ticks advance, and the vector is what they leave pending. -/
theorem Tracked.entries_of_run (tracked : V.Tracked env) (run : AnyOrderRun tdCho env rows h c)
    (start : V.entries { ues := rows.mapIdx (initialUe env) } = []) :
    Advancing V.verificationTime (V.rounds h) ∧
      V.entries c.state = pendingAfter V.verificationTime (V.rounds h) := by
  induction run with
  | nil => exact ⟨⟨.nil, fun r member => by cases member⟩, start⟩
  | @snoc h c c' p prior step ih =>
      obtain ⟨advancing, entries⟩ := ih
      by_cases tick : p.ev = .checkHandoverConditions
      case neg =>
        have same : V.rounds (h ++ [⟨c, p, c'⟩]) = V.rounds h := by
          rw [rounds, simTicks_append]
          simp [simTicks, tick, rounds]
        have after : c'.state = (simHandler tdCho env p.ev p.ts c.state).1 := step.state_eq
        rw [same, after, tracked.other tick]
        exact ⟨advancing, entries⟩
      case pos =>
        obtain ⟨after, later⟩ := @tracked.pushed_spec env α V ⟨c, p, c'⟩ step tick
        have more : V.rounds (h ++ [⟨c, p, c'⟩]) =
            V.rounds h ++ [⟨getSeconds p.ts, V.pushed ⟨c, p, c'⟩⟩] := by
          rw [rounds, simTicks_append]
          simp [simTicks, tick, rounds]
        have earlier : ∀ r ∈ V.rounds h, r.time < getSeconds p.ts := by
          intro r member
          obtain ⟨f, fired, rfl⟩ := List.mem_map.mp member
          obtain ⟨old, ticking⟩ := mem_simTicks.mp fired
          obtain ⟨n, before, event⟩ := sim_exists_tickNumber prior old ticking
          dsimp only
          rw [sim_eq_tickNumber prior step.mem_queue tick, event, getSeconds_tickNumber,
            getSeconds_tickNumber]
          exact_mod_cast before
        rw [more]
        refine ⟨⟨?_, ?_⟩, ?_⟩
        · refine List.pairwise_append.mpr ⟨advancing.times, List.pairwise_singleton _ _, ?_⟩
          intro r member r' last
          rw [List.mem_singleton.mp last]
          exact earlier r member
        · intro r member
          rcases List.mem_append.mp member with old | last
          · exact advancing.later r old
          · rw [List.mem_singleton.mp last]
            exact later
        · rw [pendingAfter_snoc, ← entries]
          refine after.trans ?_
          unfold PendingVector.left verify
          rw [settleLoop_eq, List.take_zero, List.nil_append, List.drop_zero]
          simp only [← decide_not, not_le]

/-- How a run deals with the entries of a vector. -/
structure Settles (V : PendingVector α) (env : Env) (h : List (Firing ℤ Sim Event)) (c : Conf ℤ Sim Event) :
    Prop where
  /-- After the verification step of a tick, the entries that are left are due later. -/
  left : ∀ f ∈ simTicks h,
    V.entries (f.before.state.verified tdCho env (getSeconds f.event.ts)) = V.left f ∧
      ∀ it ∈ V.left f, getSeconds f.event.ts < V.verificationTime it
  /-- What a tick pushes then stands behind them. -/
  pushed : ∀ f ∈ simTicks h, V.entries f.after.state = V.left f ++ V.pushed f
  /-- A tick removes what has been pushed before and is due for the first time, in the order of pushing. -/
  settled : ∀ h₁ f h₂, h = h₁ ++ f :: h₂ → f.event.ev = .checkHandoverConditions →
    V.settled f = ((simTicks h₁).flatMap V.pushed).filter fun it =>
      decide (V.verificationTime it ≤ getSeconds f.event.ts ∧
        ∀ g ∈ simTicks h₁, getSeconds g.event.ts < V.verificationTime it)
  /-- Each entry that is pushed is removed once or still pending. -/
  once : ((simTicks h).flatMap V.settled ++ V.entries c.state).Perm ((simTicks h).flatMap V.pushed)

theorem settled_eq_filter (f : Firing ℤ Sim Event) :
    V.settled f = (V.entries f.before.state).filter fun it =>
      decide (V.verificationTime it ≤ getSeconds f.event.ts) := by
  rw [PendingVector.settled, verify, settleLoop_eq, List.drop_zero]

theorem later_of_mem_left {f : Firing ℤ Sim Event} {it : α} (member : it ∈ V.left f) :
    getSeconds f.event.ts < V.verificationTime it := by
  rw [PendingVector.left, verify, settleLoop_eq, List.take_zero, List.nil_append, List.drop_zero] at member
  simpa using (List.mem_filter.mp member).2

/-- Nothing is lost or doubled in a run. -/
theorem Tracked.once (tracked : V.Tracked env) (run : AnyOrderRun tdCho env rows h c)
    (start : V.entries { ues := rows.mapIdx (initialUe env) } = []) :
    ((simTicks h).flatMap V.settled ++ V.entries c.state).Perm ((simTicks h).flatMap V.pushed) := by
  induction run with
  | nil =>
      rw [initial, start]
      exact .nil
  | @snoc h c c' p prior step ih =>
      by_cases tick : p.ev = .checkHandoverConditions
      case neg =>
        have none : simTicks [⟨c, p, c'⟩] = [] := by simp [simTicks, tick]
        have after : c'.state = (simHandler tdCho env p.ev p.ts c.state).1 := step.state_eq
        rw [simTicks_append, none, List.append_nil, after, tracked.other tick]
        exact ih
      case pos =>
        have single : simTicks [⟨c, p, c'⟩] = [⟨c, p, c'⟩] := by simp [simTicks, tick]
        obtain ⟨after, -⟩ := @tracked.pushed_spec env α V ⟨c, p, c'⟩ step tick
        have loop : (V.settled ⟨c, p, c'⟩ ++ V.left ⟨c, p, c'⟩).Perm (V.entries c.state) :=
          settleLoop_perm _ _
        rw [simTicks_append, single, List.flatMap_append, List.flatMap_append, List.flatMap_singleton,
          List.flatMap_singleton, after, List.append_assoc, ← List.append_assoc (V.settled _)]
        refine ((loop.append_right _).append_left _).trans ?_
        rw [← List.append_assoc]
        exact ih.append_right _

theorem Tracked.settles (tracked : V.Tracked env) (run : AnyOrderRun tdCho env rows h c)
    (start : V.entries { ues := rows.mapIdx (initialUe env) } = []) : V.Settles env h c where
  left f member := by
    refine ⟨tracked.verified .., fun it waits => later_of_mem_left waits⟩
  pushed f member := by
    obtain ⟨fired, tick⟩ := mem_simTicks.mp member
    exact (tracked.pushed_spec (run.step_of_mem fired) tick).1
  settled h₁ f h₂ split tick := by
    subst split
    obtain ⟨prior, -⟩ := run.split
    obtain ⟨advancing, entries⟩ := tracked.entries_of_run prior start
    have rounds_of : ∀ it, (∀ r ∈ V.rounds h₁, r.time < V.verificationTime it) ↔
        ∀ g ∈ simTicks h₁, getSeconds g.event.ts < V.verificationTime it := by
      intro it
      simp [rounds]
    have settles := settledAt_eq advancing (getSeconds f.event.ts)
    rw [settledAt, ← entries, flatMap_rounds] at settles
    rw [settled_eq_filter, settles]
    exact List.filter_congr fun it _ => decide_eq_decide.mpr (and_congr_right' (rounds_of it))
  once := tracked.once run start

end PendingVector

/-! ## Rows -/

/-- The UEs that a verification at `f` looks at. -/
def uesAt (env : Env) (f : Firing ℤ Sim Event) : List UeInfo :=
  (f.before.state.verified tdCho env (getSeconds f.event.ts)).ues

/-- What the verification step of a tick writes. -/
theorem log_verified (f : Firing ℤ Sim Event) :
    (f.before.state.verified tdCho env (getSeconds f.event.ts)).log =
      f.before.state.log ++ (measurementValidations.settled f).flatMap (validationRow (uesAt env f)) ++
        (servingSnrFollowups.settled f).map (followupRow (uesAt env f)) := by
  unfold uesAt
  rw [Sim.verified, Sim.verifyPendingServingSnrFollowups_eq, Sim.verifyPendingMeasurements_eq]
  rfl

/-- A validation produces at most one row. -/
theorem length_validationRow_le (ues : List UeInfo) (it : PendingMeasurementValidation) :
    (validationRow ues it).length ≤ 1 := by
  unfold validationRow
  split
  · exact Nat.zero_le 1
  · exact le_rfl

theorem filter_validationRow (ues : List UeInfo) (it : PendingMeasurementValidation) :
    (validationRow ues it).filter (LogLine.isRowOf "distance_trend_validation") = validationRow ues it ∧
      (validationRow ues it).filter (LogLine.isRowOf "serving_snr_trigger_followup") = [] := by
  unfold validationRow
  split <;> exact ⟨rfl, rfl⟩

/-- The rows of a file in the output of a run are those of its verifications, in order. -/
theorem rows_of_run {file : String} (verifies : file ∈ verificationFiles) {rows : List UeRow}
    {h : List (Firing ℤ Sim Event)} {c : Conf ℤ Sim Event} (run : AnyOrderRun tdCho env rows h c) :
    c.state.log.filter (LogLine.isRowOf file) = (simTicks h).flatMap fun f =>
      ((measurementValidations.settled f).flatMap (validationRow (uesAt env f)) ++
        (servingSnrFollowups.settled f).map (followupRow (uesAt env f))).filter (LogLine.isRowOf file) := by
  induction run with
  | nil => rfl
  | @snoc h c c' p prior step ih =>
      have after : c'.state = (simHandler tdCho env p.ev p.ts c.state).1 := step.state_eq
      rw [after, filter_log_rows verifies, PendingVector.simTicks_append, List.flatMap_append]
      rcases p with ⟨ts, event⟩
      cases event with
      | checkHandoverConditions =>
          have tick : simTicks [⟨c, ⟨ts, .checkHandoverConditions⟩, c'⟩] =
              [⟨c, ⟨ts, .checkHandoverConditions⟩, c'⟩] := by simp [simTicks]
          have written := @log_verified env ⟨c, ⟨ts, .checkHandoverConditions⟩, c'⟩
          dsimp only at written ⊢
          rw [tick, List.flatMap_singleton, written, List.append_assoc, List.filter_append, ih]
      | cho => simpa [simTicks] using ih
      | evaluatePendingPrediction => simpa [simTicks] using ih

/-- **Pending validations are settled exactly once and on time.** In every run, whatever the number of UEs
and the order of events, each validation and each follow-up that a tick pushes is removed by the first tick
that is not before its verification time, in the order of pushing; what a tick leaves is due later; and the
rows of the two files are those of the removed entries, in order: one for each follow-up and at most one for
each validation. -/
theorem validations_settled {rows : List UeRow} {h : List (Firing ℤ Sim Event)} {c : Conf ℤ Sim Event}
    (run : AnyOrderRun tdCho env rows h c) :
    measurementValidations.Settles env h c ∧ servingSnrFollowups.Settles env h c ∧
      c.state.log.filter (LogLine.isRowOf "distance_trend_validation") = (simTicks h).flatMap (fun f =>
        (measurementValidations.settled f).flatMap (validationRow (uesAt env f))) ∧
      (∀ ues it, (validationRow ues it).length ≤ 1) ∧
      c.state.log.filter (LogLine.isRowOf "serving_snr_trigger_followup") = (simTicks h).flatMap fun f =>
        (servingSnrFollowups.settled f).map (followupRow (uesAt env f)) := by
  refine ⟨(tracked_measurementValidations env).settles run rfl,
    (tracked_servingSnrFollowups env).settles run rfl, ?_, length_validationRow_le, ?_⟩
  · rw [rows_of_run (by decide) run]
    refine List.flatMap_congr fun f _ => ?_
    rw [List.filter_append, List.filter_flatMap]
    simp [filter_validationRow, followupRow, LogLine.isRowOf, List.filter_map, Function.comp_def]
  · rw [rows_of_run (by decide) run]
    refine List.flatMap_congr fun f _ => ?_
    rw [List.filter_append, List.filter_flatMap]
    simp [filter_validationRow, followupRow, LogLine.isRowOf, List.filter_map, Function.comp_def]

theorem validations_settled_trending :
    servingSnrFollowups.Settles trending (sampleRun tdCho trending sampleRows 8).1
        (sampleRun tdCho trending sampleRows 8).2 ∧
      (simTicks (sampleRun tdCho trending sampleRows 8).1).flatMap servingSnrFollowups.settled ≠ [] := by
  refine ⟨(validations_settled (simRun_sampleRun tdCho trending sampleRows 8).anyOrder).2.1, ?_⟩
  have settled : servingSnrFollowups.settled = fun f => (servingSnrFollowups.entries f.before.state).filter
      fun it => decide (it.verificationTime ≤ getSeconds f.event.ts) :=
    funext PendingVector.settled_eq_filter
  rw [settled]
  decide +kernel

end NtnCho
