import NtnCho.EventSystem.Window
import NtnCho.Output

/-!
# The follow-ups of a degrading serving cell

A follow-up asks, one, three and five seconds after a serving-cell trigger, for the SNR of that cell. It
takes the sample of the history that is closest to its time, on either side, if it is at most two seconds
away. Three and five seconds are too far for a sample that is not later than the trigger; one second is
not. So a row reports the future exactly if the history has a later sample that is closer than those of
the last second before the trigger, `followup_rows_iff`: when the satellite leaves coverage within the
second, the row compares the SNR of the trigger with itself.
-/

namespace NtnCho

open EventSystem

variable {env : Env}

/-! ## The sample that is used -/

/-- The first of the samples closest to `targetTime`, if it is at most two seconds away. -/
def usedSample (history : List (ℚ × ℚ)) (targetTime : ℚ) : Option (ℚ × ℚ) :=
  (history.argmin fun sample => |targetTime - sample.1|).filter fun sample =>
    decide (|targetTime - sample.1| ≤ 2)

/-- `GetSnrAtTime` returns the SNR of the sample that is used. -/
theorem TdCho.getSnrAtTime_eq (snrHistory : SnrHistory) (cellId : String) (targetTime : ℚ) :
    getSnrAtTime snrHistory cellId targetTime =
      (usedSample (snrHistory[cellId]?.getD []) targetTime).map Prod.snd := by
  unfold getSnrAtTime usedSample
  cases snrHistory[cellId]?.getD [] with
  | nil => rfl
  | cons front rest =>
      dsimp only
      rw [List.foldl_cons, if_neg (lt_irrefl _), argmin_eq_foldl, Option.filter_some]
      split_ifs with near far far
      · rfl
      · exact absurd (decide_eq_true near) far
      · exact absurd (of_decide_eq_true far) near
      · rfl

/-- The sample that is used is one of the history, at most two seconds away, and none is closer. -/
theorem usedSample_spec {history : List (ℚ × ℚ)} {targetTime : ℚ} {sample : ℚ × ℚ}
    (used : usedSample history targetTime = some sample) :
    sample ∈ history ∧ |targetTime - sample.1| ≤ 2 ∧
      ∀ other ∈ history, |targetTime - sample.1| ≤ |targetTime - other.1| := by
  obtain ⟨closest, near⟩ := Option.filter_eq_some_iff.mp used
  obtain ⟨member, least, -⟩ := List.mem_argmin_iff.mp closest
  exact ⟨member, of_decide_eq_true near, least⟩

/-- Of a history in the order of time the earliest of the closest samples is used. -/
theorem exists_usedSample {history : List (ℚ × ℚ)}
    (increasing : (history.map Prod.fst).Pairwise (· < ·)) {targetTime : ℚ} {sample : ℚ × ℚ}
    (member : sample ∈ history) (near : |targetTime - sample.1| ≤ 2) :
    ∃ closest, usedSample history targetTime = some closest ∧ closest ∈ history ∧
      (|targetTime - closest.1| < |targetTime - sample.1| ∨ closest.1 ≤ sample.1) := by
  obtain ⟨closest, found, member', earlier⟩ :=
    exists_argmin (fun sample : ℚ × ℚ => |targetTime - sample.1|) increasing member
  refine ⟨closest, ?_, member', earlier⟩
  have least := List.le_of_mem_argmin member found
  unfold usedSample
  rw [found, Option.filter_some, if_pos (decide_eq_true (least.trans near))]

/-! ## Histories in the order of time -/

/-- The samples of every history stand in the order of their times. -/
def Phy.Increasing (phy : Phy) : Prop :=
  ∀ cellId : String, ((phy.snrHistory[cellId]?.getD []).map Prod.fst).Pairwise (· < ·)

/-- A sample that is not older than the last one is appended after it, or replaces it. -/
theorem TdCho.increasing_pushSample {N : ℤ} {simTime snrDb : ℚ} {history : List (ℚ × ℚ)}
    (increasing : (history.map Prod.fst).Pairwise (· < ·))
    (late : ∀ sample, history.getLast? = some sample → sample.1 ≤ simTime) :
    ((pushSample N simTime snrDb history).map Prod.fst).Pairwise (· < ·) := by
  unfold pushSample
  dsimp only
  refine List.Pairwise.sublist ((List.drop_suffix ..).sublist.map _) ?_
  cases last : history.getLast? with
  | none => exact List.pairwise_singleton ..
  | some sample =>
      obtain ⟨init, rfl⟩ := List.getLast?_eq_some_iff.mp last
      have time := late sample last
      rw [List.map_append, List.pairwise_append] at increasing
      obtain ⟨before, -, earlier⟩ := increasing
      dsimp only
      split
      · rw [List.dropLast_concat, List.map_append, List.pairwise_append]
        exact ⟨before, List.pairwise_singleton .., earlier⟩
      · rename_i apart
        have later : sample.1 < simTime := by
          refine lt_of_le_of_ne time fun same => apart ?_
          rw [same, sub_self, abs_zero]
          norm_num
        rw [List.map_append, List.map_append, List.pairwise_append, List.pairwise_append]
        refine ⟨⟨before, List.pairwise_singleton .., earlier⟩, List.pairwise_singleton .., ?_⟩
        intro time' member last' single
        obtain rfl := List.mem_singleton.mp single
        rcases List.mem_append.mp member with old | new
        · exact (earlier time' old sample.1 (List.mem_singleton_self _)).trans later
        · rwa [List.mem_singleton.mp new]

theorem TdCho.increasing_updateSatelliteState {geo : UeGeo} {satName : String} {simTime : ℚ} {phy : Phy}
    (increasing : phy.Increasing) :
    (updateSatelliteState phyRules env geo satName simTime phy).2.Increasing := by
  rcases @updateSatelliteState_cases env phyRules geo satName simTime phy with same | ⟨-, -, computed⟩
  · rw [same]
    exact increasing
  · rw [computed]
    intro cellId
    dsimp only [phyRules]
    have pushed : ∀ snrDb, (∀ sample, (phy.snrHistory[satName]?.getD []).getLast? = some sample →
        sample.1 ≤ simTime) →
        (((phy.snrHistory.insert satName (pushSample env.ho.trendWindowSize simTime snrDb
          (phy.snrHistory[satName]?.getD [])))[cellId]?.getD []).map Prod.fst).Pairwise (· < ·) := by
      intro snrDb late
      rw [Std.TreeMap.getElem?_insert]
      split
      · exact increasing_pushSample (increasing satName) late
      · exact increasing cellId
    unfold updateSnrHistory
    dsimp only
    split
    · exact increasing cellId
    · split
      · rename_i time snrDb last
        split
        · exact increasing cellId
        · rename_i late
          refine pushed _ fun sample found => ?_
          obtain rfl := Option.some.inj (last.symm.trans found)
          exact not_lt.mp late
      · rename_i none
        refine pushed _ fun sample found => ?_
        rw [none] at found
        cases found

theorem TdCho.increasing_of_reach {geo : UeGeo} {phy phy' : Phy}
    (reach : PhyReach phyRules env geo phy phy') (increasing : phy.Increasing) : phy'.Increasing :=
  reach.invariant (I := Phy.Increasing) increasing_updateSatelliteState increasing

theorem increasing_of_run {ok : Policy ℤ Event} {i : ℕ} {rows : List UeRow}
    {h : List (Firing ℤ (Option UeInfo) Event)} {c : Conf ℤ (Option UeInfo) Event} {ue : UeInfo}
    (run : Run (ueHandler tdCho env i) ok (ueInitial env rows i) h c) (present : c.state = some ue) :
    ue.phy.Increasing := by
  refine ueRun_stateInvariant (I := fun ue => ue.phy.Increasing) run ?_ ?_ present
  · intro row cellId
    simp [initialUe]
  · intro event now ue increasing
    exact TdCho.increasing_of_reach (linkStep_ueAction TdCho.lawful i event now ue).phy increasing

/-! ## The rows of a run -/

/-- A follow-up that is verified, and the UEs at this time. -/
structure Verification where
  followup : PendingServingSnrFollowup
  ues : List UeInfo

namespace Verification

/-- The SNR history that the verification looks into. -/
def history (v : Verification) : List (ℚ × ℚ) :=
  (v.ues[v.followup.ueId]?.bind fun ue => ue.phy.snrHistory[v.followup.servingCellId]?).getD []

/-- The sample that the verification uses. -/
def used (v : Verification) : Option (ℚ × ℚ) := usedSample v.history v.followup.verificationTime

/-- The row that the verification writes. -/
def row (v : Verification) : LogLine := followupRow v.ues v.followup

end Verification

/-- A column of a row of a CSV file. -/
def LogLine.column (n : ℕ) : LogLine → Option Field
  | .csv _ fields => fields[n]?
  | .stdout .. => none

def LogLine.isFollowup : LogLine → Bool
  | .csv file _ => file == "serving_snr_trigger_followup"
  | .stdout .. => false

/-- The verifications of a tick. -/
def verificationsAt (env : Env) (simTime : ℚ) (s : Sim) : List Verification :=
  (s.pendingServingSnrFollowups.filter fun it => decide (it.verificationTime ≤ simTime)).map fun it =>
    ⟨it, (s.ues.map (updateChannelCache tdCho env simTime)).map (updateChannelState tdCho env simTime)⟩

def verificationsBy (env : Env) (f : Firing ℤ Sim Event) : List Verification :=
  match f.event.ev with
  | .checkHandoverConditions => verificationsAt env (getSeconds f.event.ts) f.before.state
  | _ => []

/-- The verifications of a history. -/
def verifications (env : Env) (h : List (Firing ℤ Sim Event)) : List Verification :=
  h.flatMap (verificationsBy env)

/-- The row stands in the file. -/
def LogLine.isRowOf (file : String) : LogLine → Bool
  | .csv file' _ => file' == file
  | .stdout .. => false

/-- The files that only verifications write. -/
def verificationFiles : List String := ["distance_trend_validation", "serving_snr_trigger_followup"]

/-- The rows of the verifications are written by no UE. -/
theorem isRowOf_of_ueAction {file : String} (verifies : file ∈ verificationFiles) {i : ℕ} {event : Event}
    {now : ℤ} {ue : UeInfo} {line : LogLine}
    (member : line ∈ lines (ueAction tdCho env i event now ue).2) : line.isRowOf file = false := by
  simp only [verificationFiles, List.mem_cons, List.not_mem_nil, or_false] at verifies
  cases prints_of_mem member with
  | early printed =>
      cases printed with
      | evaluation recorded =>
          rcases TdCho.mem_records recorded with ⟨fields, rfl⟩ | ⟨rest, rfl⟩
          · rcases verifies with rfl | rfl <;> rfl
          · rfl
      | row => rcases verifies with rfl | rfl <;> rfl
  | failure time reason ue => rfl
  | _ => rcases verifies with rfl | rfl <;> rfl

/-- An event writes rows of the verifications when it is a tick, and then before its UEs act. -/
theorem filter_log_rows {file : String} (verifies : file ∈ verificationFiles) (event : Event) (now : ℤ)
    (s : Sim) :
    (simHandler tdCho env event now s).1.log.filter (LogLine.isRowOf file) =
      (match event with
        | .checkHandoverConditions => s.verified tdCho env (getSeconds now)
        | _ => s).log.filter (LogLine.isRowOf file) := by
  cases event with
  | checkHandoverConditions =>
      have none : (lines (forEachUe (fun i => ueTick tdCho env i (getSeconds now)) 0 s.ues).2).filter
          (LogLine.isRowOf file) = [] := by
        refine List.filter_eq_nil_iff.mpr fun line member => ?_
        obtain ⟨j, ue, -, printed⟩ := mem_lines_forEachUe member
        rw [@isRowOf_of_ueAction env _ verifies _ .checkHandoverConditions now ue line printed]
        decide
      rw [simHandler, Sim.checkHandoverConditions_eq, Sim.log_applyEffects, List.filter_append, none,
        List.append_nil]
  | cho handler ueId sourceCell targetCell =>
      simp only [simHandler, Sim.cho]
      cases s.ues[ueId]? with
      | none => rfl
      | some ue =>
          dsimp only
          rw [Sim.log_applyEffects, List.filter_append]
          refine (congrArg _ (List.filter_eq_nil_iff.mpr fun line member => ?_)).trans (List.append_nil _)
          rw [@isRowOf_of_ueAction env _ verifies ueId (.cho handler ueId sourceCell targetCell) now ue line
            member]
          decide
  | evaluatePendingPrediction r =>
      rw [simHandler]
      unfold Sim.evaluatePendingPrediction
      dsimp only
      split
      · rfl
      · split
        · rw [List.filter_append]
          exact List.append_nil _
        · rfl

theorem isFollowup_eq : LogLine.isFollowup = LogLine.isRowOf "serving_snr_trigger_followup" := by
  funext line
  cases line <;> rfl

/-- The rows that a tick writes about due follow-ups. -/
theorem filter_log_verifications (simTime : ℚ) (s : Sim) :
    (s.verified tdCho env simTime).log.filter LogLine.isFollowup =
      s.log.filter LogLine.isFollowup ++ (verificationsAt env simTime s).map Verification.row := by
  have validation : ∀ ues it, (validationRow ues it).filter LogLine.isFollowup = [] := by
    intro ues it
    unfold validationRow
    split <;> rfl
  have followup : ∀ ues (due : List PendingServingSnrFollowup),
      (due.map (followupRow ues)).filter LogLine.isFollowup = due.map (followupRow ues) := by
    intro ues due
    refine List.filter_eq_self.mpr fun line member => ?_
    obtain ⟨it, -, rfl⟩ := List.mem_map.mp member
    rfl
  unfold Sim.verified Sim.verifyPendingServingSnrFollowups Sim.verifyPendingMeasurements verificationsAt
  dsimp only
  rw [List.filter_append, List.filter_append, List.filter_flatMap, followup, List.map_map]
  simp [validation, Function.comp_def, List.partition_eq_filter_filter, Verification.row]

/-- An event adds to the follow-up rows those of its verifications. -/
theorem filter_log_followups (event : Event) (now : ℤ) (s : Sim) :
    (simHandler tdCho env event now s).1.log.filter LogLine.isFollowup =
      s.log.filter LogLine.isFollowup ++
        (match event with
          | .checkHandoverConditions => verificationsAt env (getSeconds now) s
          | _ => []).map Verification.row := by
  rw [isFollowup_eq, filter_log_rows (by decide), ← isFollowup_eq]
  cases event with
  | checkHandoverConditions => exact filter_log_verifications _ s
  | cho => exact (List.append_nil _).symm
  | evaluatePendingPrediction => exact (List.append_nil _).symm

/-- The follow-up rows in the output of a run are those of its verifications, in order. -/
theorem followup_rows_of_run {ok : Policy ℤ Event} {rows : List UeRow} {h : List (Firing ℤ Sim Event)}
    {c : Conf ℤ Sim Event} (run : Run (simHandler tdCho env) ok (initial env rows) h c) :
    c.state.log.filter LogLine.isFollowup = (verifications env h).map Verification.row := by
  induction run with
  | nil => rfl
  | @snoc h c c' p prior step ih =>
      have after : c'.state = (simHandler tdCho env p.ev p.ts c.state).1 := step.state_eq
      rw [after, filter_log_followups, ih, verifications, verifications, List.flatMap_append,
        List.map_append, List.flatMap_singleton]
      rfl

/-! ## The pending follow-ups -/

/-- A follow-up is due one, three or five seconds after it was recorded. -/
structure WellTimed (it : PendingServingSnrFollowup) : Prop where
  horizon : it.horizonSec ∈ [1, 3, 5]
  verification : it.verificationTime = it.recordTime + it.horizonSec

theorem Sim.mem_pending_applyEffects {it : PendingServingSnrFollowup} {now : ℤ} {s : Sim}
    {effects : List Effect} (pending : it ∈ (s.applyEffects now effects).1.pendingServingSnrFollowups) :
    it ∈ s.pendingServingSnrFollowups ∨ .record (.servingSnrFollowup it) ∈ effects := by
  induction effects generalizing s with
  | nil => exact .inl pending
  | cons effect effects ih =>
      rcases ih pending with earlier | made
      · rcases effect with _ | _ | _ | r
        · exact .inl earlier
        · exact .inl earlier
        · exact .inl earlier
        · cases r with
          | servingSnrFollowup new =>
              refine (List.mem_append.mp earlier).imp_right fun single => ?_
              rw [List.mem_singleton.mp single]
              exact List.mem_cons_self
          | _ => exact .inl earlier
      · exact .inr (List.mem_cons_of_mem _ made)

theorem wellTimed_of_record {i : ℕ} {event : Event} {now : ℤ} {ue : UeInfo}
    {it : PendingServingSnrFollowup}
    (made : .record (.servingSnrFollowup it) ∈ (ueAction tdCho env i event now ue).2) : WellTimed it := by
  rcases evaluationRecord_of_ueAction made with ⟨line, other⟩ | ⟨-, evaluated⟩
  · cases other
  · cases evaluated with
    | followup it record horizon verification => exact ⟨horizon, by rw [verification, record]⟩

/-- **The run lemma**: all pending follow-ups are well timed. -/
theorem wellTimed_of_run {ok : Policy ℤ Event} {rows : List UeRow} {h : List (Firing ℤ Sim Event)}
    {c : Conf ℤ Sim Event} (run : Run (simHandler tdCho env) ok (initial env rows) h c) :
    ∀ it ∈ c.state.pendingServingSnrFollowups, WellTimed it := by
  induction run with
  | nil => exact fun it pending => by cases pending
  | @snoc h c c' p prior step ih =>
      have after : c'.state = (simHandler tdCho env p.ev p.ts c.state).1 := step.state_eq
      intro it pending
      rw [after] at pending
      rcases p with ⟨ts, _ | ⟨handler, ueId, sourceCell, targetCell⟩ | r⟩
      · rw [simHandler, Sim.checkHandoverConditions_eq] at pending
        rcases Sim.mem_pending_applyEffects pending with earlier | made
        · have kept : it ∈ c.state.pendingServingSnrFollowups := by
            simp only [Sim.verified, Sim.verifyPendingServingSnrFollowups, Sim.verifyPendingMeasurements,
              List.partition_eq_filter_filter] at earlier
            exact List.mem_of_mem_filter earlier
          exact ih it kept
        · obtain ⟨j, ue, -, made⟩ := mem_forEachUe made
          exact @wellTimed_of_record env _ .checkHandoverConditions ts ue it made
      · simp only [simHandler, Sim.cho] at pending
        split at pending
        · exact ih it pending
        · rename_i ue _
          rcases Sim.mem_pending_applyEffects pending with earlier | made
          · exact ih it earlier
          · exact @wellTimed_of_record env ueId (.cho handler ueId sourceCell targetCell) ts ue it made
      · rw [simHandler] at pending
        unfold Sim.evaluatePendingPrediction at pending
        dsimp only at pending
        split at pending
        · exact ih it pending
        · split at pending <;> exact ih it pending

/-- What a verification of a run is about. -/
structure SoundVerification (v : Verification) : Prop where
  timed : WellTimed v.followup
  increasing : (v.history.map Prod.fst).Pairwise (· < ·)

theorem soundVerification_of_run {rows : List UeRow} {h : List (Firing ℤ Sim Event)}
    {c : Conf ℤ Sim Event} (run : AnyOrderRun tdCho env rows h c) {v : Verification}
    (verified : v ∈ verifications env h) : SoundVerification v := by
  obtain ⟨f, member, made⟩ := List.mem_flatMap.mp verified
  obtain ⟨h₁, h₂, rfl⟩ := List.append_of_mem member
  obtain ⟨prior, -⟩ := run.split
  unfold verificationsBy at made
  split at made
  · obtain ⟨it, due, rfl⟩ := List.mem_map.mp made
    refine ⟨wellTimed_of_run prior it (List.mem_of_mem_filter due), ?_⟩
    unfold Verification.history
    dsimp only
    rw [List.getElem?_map, List.getElem?_map, Option.map_map]
    cases present : f.before.state.ues[it.ueId]? with
    | none => exact .nil
    | some ue =>
        have before : ue.phy.Increasing := increasing_of_run (AnyOrderRun.toUe prior it.ueId) present
        have updated : (ue.updated tdCho env (getSeconds f.event.ts)).phy.Increasing := by
          rw [UeInfo.updated_phy]
          exact TdCho.increasing_of_reach (phyReach_updateAllSatellites ..) before
        exact updated it.servingCellId
  · cases made

/-! ## What a row reports -/

namespace Verification

/-- The row reports the future: one that says it has observed the SNR uses a sample that is later than
the record and none of the history is closer to the verification; without a later sample the row says
that it has not. -/
structure ReportsFuture (v : Verification) : Prop where
  observed : v.row.column 8 = some (.nat 1) → ∃ sample ∈ v.history, v.used = some sample ∧
    v.row.column 9 = some (.fixed 2 sample.2) ∧ v.followup.recordTime < sample.1 ∧
    ∀ other ∈ v.history, |v.followup.verificationTime - sample.1| ≤
      |v.followup.verificationTime - other.1|
  unobserved : (∀ sample ∈ v.history, sample.1 ≤ v.followup.recordTime) →
    v.row.column 8 = some (.nat 0)

/-- A verification after one second finds for every sample of the second before the record a later sample
that is closer. -/
def SampledLater (v : Verification) : Prop :=
  v.followup.horizonSec = 1 → ∀ sample ∈ v.history, v.followup.recordTime - 1 ≤ sample.1 →
    sample.1 ≤ v.followup.recordTime → ∃ later ∈ v.history, v.followup.recordTime < later.1 ∧
      |v.followup.verificationTime - later.1| < |v.followup.verificationTime - sample.1|

instance (v : Verification) : Decidable v.SampledLater :=
  inferInstanceAs (Decidable (_ → ∀ sample ∈ v.history, _ → _ → ∃ later ∈ v.history, _ ∧ _))

variable {v : Verification}

theorem row_eq (v : Verification) :
    (v.used = none ∧ v.row.column 8 = some (.nat 0)) ∨
      ∃ sample, v.used = some sample ∧ v.row.column 8 = some (.nat 1) ∧
        v.row.column 9 = some (.fixed 2 sample.2) := by
  have found : (v.ues[v.followup.ueId]?.bind fun ue =>
      TdCho.getSnrAtTime ue.phy.snrHistory v.followup.servingCellId v.followup.verificationTime) =
      v.used.map Prod.snd := by
    unfold used history
    cases v.ues[v.followup.ueId]? with
    | none => rfl
    | some ue => exact TdCho.getSnrAtTime_eq ..
  unfold row followupRow
  dsimp only
  rw [found]
  cases v.used with
  | none => exact .inl ⟨rfl, rfl⟩
  | some sample => exact .inr ⟨sample, rfl, rfl, rfl⟩

/-- A row reports the future exactly if the sample that it uses is later than the record. -/
theorem reportsFuture_iff :
    v.ReportsFuture ↔ ∀ sample, v.used = some sample → v.followup.recordTime < sample.1 := by
  constructor
  · intro reports sample used
    rcases v.row_eq with ⟨none, -⟩ | ⟨sample', used', observed, -⟩
    · rw [none] at used
      cases used
    · obtain ⟨sample'', -, used'', -, later, -⟩ := reports.observed observed
      rw [used] at used''
      rwa [Option.some.inj used'']
  · intro later
    rcases v.row_eq with ⟨-, unobserved⟩ | ⟨sample, used, observed, snr⟩
    · refine ⟨fun observed => ?_, fun _ => unobserved⟩
      rw [unobserved] at observed
      cases observed
    · obtain ⟨member, -, least⟩ := usedSample_spec used
      refine ⟨fun _ => ⟨sample, member, used, snr, later sample used, least⟩, fun old => ?_⟩
      exact absurd (later sample used) (not_lt.mpr (old sample member))

/-- **The row lemma**: a sound verification reports the future exactly if it finds a later sample that is
closer than those of the second before the record. -/
theorem reportsFuture_iff_sampledLater (sound : SoundVerification v) :
    v.ReportsFuture ↔ v.SampledLater := by
  rw [reportsFuture_iff]
  have time := sound.timed.verification
  constructor
  · intro reports second sample member recent old
    rw [second] at time
    have near : |v.followup.verificationTime - sample.1| ≤ 2 := by
      rw [time, abs_of_nonneg (by linarith)]
      linarith
    obtain ⟨closest, used, member', closer⟩ := exists_usedSample sound.increasing member near
    have later := reports closest used
    refine ⟨closest, member', later, closer.resolve_right ?_⟩
    exact not_le.mpr (old.trans_lt later)
  · intro later sample used
    by_contra old
    rw [not_lt] at old
    obtain ⟨member, near, least⟩ := usedSample_spec used
    have horizon := sound.timed.horizon
    simp only [List.mem_cons, List.not_mem_nil, or_false] at horizon
    have bound := (abs_le.mp near).2
    rcases horizon with second | three | five
    · rw [second] at time
      obtain ⟨closer, member', -, less⟩ := later second sample member (by linarith) old
      exact absurd (least closer member') (not_le.mpr less)
    · rw [three] at time
      linarith
    · rw [five] at time
      linarith

end Verification

/-- **The follow-up rows.** The rows of `serving_snr_trigger_followup.csv` are those of the verifications
of the run, and each reports the future exactly if its history has been sampled later. -/
theorem followup_rows_iff {rows : List UeRow} {h : List (Firing ℤ Sim Event)} {c : Conf ℤ Sim Event}
    (run : AnyOrderRun tdCho env rows h c) :
    c.state.log.filter LogLine.isFollowup = (verifications env h).map Verification.row ∧
      ∀ v ∈ verifications env h, v.ReportsFuture ↔ v.SampledLater :=
  ⟨followup_rows_of_run run, fun _ verified =>
    Verification.reportsFuture_iff_sampledLater (soundVerification_of_run run verified)⟩

/-- The satellites of `crossing`, with a trend from one second to the next. -/
def trending : Env := { crossing with ho := { trendWindowSize := 1 } }

theorem followup_rows_iff_trending :
    ∃ v ∈ verifications trending (sampleRun tdCho trending sampleRows 3).1,
      v.ReportsFuture ∧ v.row.column 8 = some (.nat 1) := by
  have seen : (verifications trending (sampleRun tdCho trending sampleRows 3).1).head?.map
      (fun v => (decide v.SampledLater, v.row.column 8)) = some (true, some (.nat 1)) := by decide +kernel
  obtain ⟨v, first, seen⟩ := Option.map_eq_some_iff.mp seen
  simp only [Prod.mk.injEq, decide_eq_true_eq] at seen
  have verified := List.mem_of_mem_head? first
  exact ⟨v, verified, ((followup_rows_iff
    (simRun_sampleRun tdCho trending sampleRows 3).anyOrder).2 v verified).mpr seen.1, seen.2⟩

/-- The satellite `S` recedes and ends. -/
def departing : Env where
  link := sampleLink
    [overhead "S" [(0, 500000), (1, 1000000)],
      overhead "N" [(0, 1000000), (1, 500000), (60, 500000)]]
  ho := { trendWindowSize := 1 }

/-- In `departing` the follow-up of second 1 after one second uses the sample of second 1. -/
theorem followup_rows_departing :
    ¬ ∀ {env : Env} {rows : List UeRow} {h : List (Firing ℤ Sim Event)} {c : Conf ℤ Sim Event},
      SimRun tdCho env rows h c → ∀ v ∈ verifications env h, v.ReportsFuture := by
  intro always
  have seen : (verifications departing (sampleRun tdCho departing sampleRows 3).1).head?.map
      (fun v => (v.followup.recordTime, v.used.map Prod.fst)) = some (1, some 1) := by decide +kernel
  obtain ⟨v, first, seen⟩ := Option.map_eq_some_iff.mp seen
  obtain ⟨record, used⟩ := Prod.mk.inj seen
  obtain ⟨sample, used, time⟩ := Option.map_eq_some_iff.mp used
  have reports := always (simRun_sampleRun tdCho departing sampleRows 3) v (List.mem_of_mem_head? first)
  have later := Verification.reportsFuture_iff.mp reports sample used
  rw [record, time] at later
  exact lt_irrefl _ later

end NtnCho
