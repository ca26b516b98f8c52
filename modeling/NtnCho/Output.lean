import NtnCho.Execution

/-!
# What a UE prints

The handlers of all UEs print to the same files. When the lines of interest can be told apart by their
UE (`OwnLines`), those of UE `i` in the output of a simulation are what the events of UE `i` printed,
in this order: `log_of_run`. So a claim about the output is one about the history of a UE.
-/

namespace NtnCho

open EventSystem

variable {P : Program} {env : Env}

/-! ## Lines -/

/-- The value of a key of a printed line. -/
def LogLine.value (key : String) : LogLine → Option Field
  | .stdout _ fields => fields.lookup key
  | .csv .. => none

/-- The lines that a firing adds to the output. -/
def newLines (f : Firing ℤ Sim Event) : List LogLine :=
  f.after.state.log.drop f.before.state.log.length

/-- The line that an effect prints. -/
def Effect.line : Effect → Option LogLine
  | .record (.log line) => some line
  | _ => none

/-- The lines that a handler prints. -/
def lines (effects : List Effect) : List LogLine := effects.filterMap Effect.line

theorem lines_append (effects effects' : List Effect) :
    lines (effects ++ effects') = lines effects ++ lines effects' := List.filterMap_append

theorem mem_lines {effects : List Effect} {line : LogLine} :
    line ∈ lines effects ↔ .record (.log line) ∈ effects := by
  unfold lines
  rw [List.mem_filterMap]
  constructor
  · rintro ⟨effect, member, printed⟩
    cases effect with
    | record r =>
        cases r with
        | log =>
            obtain rfl := Option.some.inj printed
            exact member
        | _ => cases printed
    | _ => cases printed
  · exact fun member => ⟨_, member, rfl⟩

theorem Sim.log_applyEffect (now : ℤ) (s : Sim) (effect : Effect) :
    (s.applyEffect now effect).1.log = s.log ++ effect.line.toList := by
  cases effect with
  | record r =>
      cases r with
      | log => rfl
      | _ => exact (List.append_nil _).symm
  | _ => exact (List.append_nil _).symm

theorem Sim.log_applyEffects (now : ℤ) (s : Sim) (effects : List Effect) :
    (s.applyEffects now effects).1.log = s.log ++ lines effects := by
  induction effects generalizing s with
  | nil => exact (List.append_nil _).symm
  | cons effect effects ih =>
      rw [Sim.applyEffects]
      dsimp only
      rw [ih, Sim.log_applyEffect, List.append_assoc]
      cases printed : effect.line <;> simp [lines, printed]

/-! ## The lines of a UE -/

/-- The lines `mine` are printed by events of UE `i` alone. -/
structure OwnLines (P : Program) (env : Env) (i : ℕ) (mine : LogLine → Bool) : Prop where
  others : ∀ {j event now ue line}, j ≠ i → line ∈ lines (ueAction P env j event now ue).2 →
    mine line = false
  validation : ∀ {fields}, mine (.csv "distance_trend_validation" fields) = false
  followup : ∀ {fields}, mine (.csv "serving_snr_trigger_followup" fields) = false
  future : ∀ {fields}, mine (.stdout "FUTURE_DEBUG" fields) = false

/-- What a firing prints. -/
def printedBy (P : Program) (env : Env) (i : ℕ) (f : Firing ℤ (Option UeInfo) Event) :
    List LogLine :=
  match f.before.state with
  | none => []
  | some ue => lines (ueAction P env i f.event.ev f.event.ts ue).2

/-- What the firings of a history print. -/
def printed (P : Program) (env : Env) (i : ℕ) (h : List (Firing ℤ (Option UeInfo) Event)) :
    List LogLine := h.flatMap (printedBy P env i)

theorem printed_snoc (h : List (Firing ℤ (Option UeInfo) Event))
    (f : Firing ℤ (Option UeInfo) Event) (i : ℕ) :
    printed P env i (h ++ [f]) = printed P env i h ++ printedBy P env i f := by
  simp [printed]

section Filter

variable {i : ℕ} {mine : LogLine → Bool}

theorem filter_lines_of_other (own : OwnLines P env i mine) {j : ℕ} (other : j ≠ i) (event : Event)
    (now : ℤ) (ue : UeInfo) :
    (lines (ueAction P env j event now ue).2).filter mine = [] :=
  List.filter_eq_nil_iff.mpr fun line member => by simpa using own.others other member

/-- The rows that a tick writes about due verifications are no UE's own. -/
theorem filter_log_verified (own : OwnLines P env i mine) (simTime : ℚ) (s : Sim) :
    (s.verified P env simTime).log.filter mine = s.log.filter mine := by
  have validation : ∀ ues it, (validationRow ues it).filter mine = [] := by
    intro ues it
    unfold validationRow
    split
    · rfl
    · simp [own.validation]
  have followup : ∀ ues (due : List PendingServingSnrFollowup),
      (due.map (followupRow ues)).filter mine = [] := by
    intro ues due
    refine List.filter_eq_nil_iff.mpr fun line member => ?_
    obtain ⟨it, -, rfl⟩ := List.mem_map.mp member
    simpa [followupRow] using own.followup
  unfold Sim.verified Sim.verifyPendingServingSnrFollowups Sim.verifyPendingMeasurements
  dsimp only
  rw [List.filter_append, List.filter_append, List.filter_flatMap, followup, List.append_nil]
  simp [validation, Function.comp_def]

/-- Of the lines of a tick, those of UE `i` are printed in its own round of the loop. -/
theorem filter_lines_forEachUe (own : OwnLines P env i mine) (now : ℤ) (k : ℕ) (ues : List UeInfo) :
    (lines (forEachUe (fun j => ueTick P env j (getSeconds now)) k ues).2).filter mine =
      if k ≤ i then
        match ues[i - k]? with
        | none => []
        | some ue => (lines (ueTick P env i (getSeconds now) ue).2).filter mine
      else [] := by
  induction ues generalizing k with
  | nil =>
      simp only [forEachUe]
      split <;> rfl
  | cons ue ues ih =>
      have first : ∀ {j}, j ≠ i → (lines (ueTick P env j (getSeconds now) ue).2).filter mine = [] :=
        fun other => filter_lines_of_other own other .checkHandoverConditions now ue
      simp only [forEachUe]
      rw [lines_append, List.filter_append, ih]
      rcases lt_trichotomy k i with before | rfl | after
      · rw [first before.ne, if_pos (Nat.succ_le_of_lt before), if_pos before.le, List.nil_append,
          show i - k = (i - (k + 1)) + 1 by omega, List.getElem?_cons_succ]
      · simp
      · rw [first after.ne', if_neg (by omega), if_neg (by omega)]
        rfl

/-- An event adds to the lines of UE `i` what it prints as an event of UE `i`. -/
theorem filter_log_simHandler (own : OwnLines P env i mine) (event : Event) (now : ℤ) (s : Sim) :
    (simHandler P env event now s).1.log.filter mine =
      s.log.filter mine ++
        if event.concerns i then
          match s.ues[i]? with
          | none => []
          | some ue => (lines (ueAction P env i event now ue).2).filter mine
        else [] := by
  cases event with
  | checkHandoverConditions =>
      rw [simHandler, Sim.checkHandoverConditions_eq, Sim.log_applyEffects, List.filter_append,
        filter_lines_forEachUe own]
      exact congrArg (· ++ _) (filter_log_verified own _ s)
  | cho handler ueId sourceCell targetCell =>
      simp only [simHandler, Sim.cho]
      by_cases concerned : ueId = i
      case pos =>
        subst concerned
        rw [if_pos (by simp [Event.concerns])]
        cases present : s.ues[ueId]? with
        | none => exact (List.append_nil _).symm
        | some ue =>
            dsimp only
            rw [Sim.log_applyEffects, List.filter_append]
            rfl
      case neg =>
        rw [if_neg (by simpa [Event.concerns] using concerned), List.append_nil]
        cases present : s.ues[ueId]? with
        | none => rfl
        | some ue =>
            dsimp only
            rw [Sim.log_applyEffects, List.filter_append]
            have others := filter_lines_of_other own concerned
              (.cho handler ueId sourceCell targetCell) now ue
            rw [ueAction_cho] at others
            rw [others, List.append_nil]
  | evaluatePendingPrediction r =>
      rw [if_neg (by simp [Event.concerns]), List.append_nil, simHandler]
      unfold Sim.evaluatePendingPrediction
      dsimp only
      split
      · rfl
      · split
        · rw [List.filter_append]
          simp [own.future]
        · rfl

/-- **The output of a UE.** The lines of UE `i` in the output of a run are what the events of UE `i`
printed, in order. -/
theorem log_of_run (own : OwnLines P env i mine) {ok : Policy ℤ Event} {rows : List UeRow}
    {h : List (Firing ℤ Sim Event)} {c : Conf ℤ Sim Event}
    (run : Run (simHandler P env) ok (initial env rows) h c) :
    c.state.log.filter mine = (printed P env i (ueHistory P env i h)).filter mine := by
  induction run with
  | nil => rfl
  | @snoc h c c' p prior step ih =>
      have after : c'.state = (simHandler P env p.ev p.ts c.state).1 := step.state_eq
      rw [after, filter_log_simHandler own, ih, ueHistory, ueHistory, Component.history_append]
      cases concerned : p.ev.concerns i with
      | false =>
          rw [Component.history_singleton_irrel (ueComponent P env i) (f := ⟨c, p, c'⟩) concerned]
          simp
      | true =>
          rw [Component.history_singleton_rel (ueComponent P env i) (f := ⟨c, p, c'⟩) concerned,
            printed_snoc, List.filter_append, if_pos rfl]
          have view : ((ueComponent P env i).conf c).state = c.state.ues[i]? := rfl
          unfold printedBy
          dsimp only
          rw [view]
          cases c.state.ues[i]? <;> rfl

end Filter

/-! ## Whose a line is -/

/-- The line is not one of the verifications that belong to no UE. -/
def LogLine.ofUe : LogLine → Bool
  | .csv file _ => file != "distance_trend_validation" && file != "serving_snr_trigger_followup"
  | .stdout tag _ => tag != "FUTURE_DEBUG"

/-- The verifications of a tick print no line of a UE. -/
theorem exists_log_verified (simTime : ℚ) (s : Sim) :
    ∃ rows, (s.verified P env simTime).log = s.log ++ rows ∧ ∀ line ∈ rows, line.ofUe = false := by
  unfold Sim.verified Sim.verifyPendingServingSnrFollowups Sim.verifyPendingMeasurements
  dsimp only
  rw [List.append_assoc]
  refine ⟨_, rfl, fun line member => ?_⟩
  rcases List.mem_append.mp member with validation | followup
  · obtain ⟨it, -, row⟩ := List.mem_flatMap.mp validation
    unfold validationRow at row
    split at row
    · cases row
    · obtain rfl := List.mem_singleton.mp row
      rfl
  · obtain ⟨it, -, rfl⟩ := List.mem_map.mp followup
    rfl

theorem mem_forEachUe {body : ℕ → UeInfo → UeInfo × List Effect} {effect : Effect} {k : ℕ}
    {ues : List UeInfo} (member : effect ∈ (forEachUe body k ues).2) :
    ∃ j ue, ues[j]? = some ue ∧ effect ∈ (body (k + j) ue).2 := by
  induction ues generalizing k with
  | nil => cases member
  | cons ue ues ih =>
      rw [forEachUe] at member
      rcases List.mem_append.mp member with first | rest
      · exact ⟨0, ue, rfl, first⟩
      · obtain ⟨j, ue', present, made⟩ := ih rest
        exact ⟨j + 1, ue', present, by rwa [show k + (j + 1) = k + 1 + j by omega]⟩

theorem mem_lines_forEachUe {body : ℕ → UeInfo → UeInfo × List Effect} {line : LogLine} {k : ℕ}
    {ues : List UeInfo} (member : line ∈ lines (forEachUe body k ues).2) :
    ∃ j ue, ues[j]? = some ue ∧ line ∈ lines (body (k + j) ue).2 := by
  obtain ⟨j, ue, present, made⟩ := mem_forEachUe (mem_lines.mp member)
  exact ⟨j, ue, present, mem_lines.mpr made⟩

/-- What an event prints is of no UE, or of one that it concerns. -/
theorem exists_log_simHandler (event : Event) (now : ℤ) (s : Sim) :
    ∃ new, (simHandler P env event now s).1.log = s.log ++ new ∧
      ∀ line ∈ new, line.ofUe = true → ∃ j ue, s.ues[j]? = some ue ∧ event.concerns j = true ∧
        line ∈ lines (ueAction P env j event now ue).2 := by
  cases event with
  | checkHandoverConditions =>
      obtain ⟨rows, verified, others⟩ := @exists_log_verified P env (getSeconds now) s
      rw [simHandler, Sim.checkHandoverConditions_eq, Sim.log_applyEffects]
      dsimp only
      rw [verified, List.append_assoc]
      refine ⟨_, rfl, fun line member own => ?_⟩
      rcases List.mem_append.mp member with row | printed
      · rw [others line row] at own
        cases own
      · obtain ⟨j, ue, present, printed⟩ := mem_lines_forEachUe printed
        rw [Nat.zero_add] at printed
        exact ⟨j, ue, present, rfl, printed⟩
  | cho handler ueId sourceCell targetCell =>
      simp only [simHandler, Sim.cho]
      cases present : s.ues[ueId]? with
      | none => exact ⟨[], (List.append_nil _).symm, fun line member => by cases member⟩
      | some ue =>
          dsimp only
          rw [Sim.log_applyEffects]
          exact ⟨_, rfl, fun line member _ => ⟨ueId, ue, present, beq_self_eq_true ueId, member⟩⟩
  | evaluatePendingPrediction r =>
      rw [simHandler]
      unfold Sim.evaluatePendingPrediction
      dsimp only
      split
      · exact ⟨[], (List.append_nil _).symm, fun line member => by cases member⟩
      · split
        · refine ⟨_, rfl, fun line member own => ?_⟩
          obtain rfl := List.mem_singleton.mp member
          cases own
        · exact ⟨[], (List.append_nil _).symm, fun line member => by cases member⟩

/-- An event prints the lines of the UEs that it concerns. -/
theorem mem_log_simHandler {line : LogLine} (own : line.ofUe = true) {event : Event} {now : ℤ}
    {s : Sim} (member : line ∈ (simHandler P env event now s).1.log) :
    line ∈ s.log ∨ ∃ j ue, s.ues[j]? = some ue ∧ event.concerns j = true ∧
      line ∈ lines (ueAction P env j event now ue).2 := by
  obtain ⟨new, log, printed⟩ := @exists_log_simHandler P env event now s
  rw [log] at member
  exact (List.mem_append.mp member).imp_right fun member => printed line member own

/-- Every line in the output of a run that is not of a verification was printed by an event of a UE. -/
theorem printed_of_mem_log {line : LogLine} (own : line.ofUe = true) {ok : Policy ℤ Event}
    {rows : List UeRow} {h : List (Firing ℤ Sim Event)} {c : Conf ℤ Sim Event}
    (run : Run (simHandler P env) ok (initial env rows) h c) (member : line ∈ c.state.log) :
    ∃ j, line ∈ printed P env j (ueHistory P env j h) := by
  induction run with
  | nil => cases member
  | @snoc h c c' p prior step ih =>
      have after : c'.state = (simHandler P env p.ev p.ts c.state).1 := step.state_eq
      rw [after] at member
      rcases mem_log_simHandler own member with old | ⟨j, ue, present, concerned, new⟩
      · obtain ⟨j, earlier⟩ := ih old
        refine ⟨j, ?_⟩
        rw [ueHistory, Component.history_append, printed, List.flatMap_append]
        exact List.mem_append_left _ earlier
      · refine ⟨j, ?_⟩
        rw [ueHistory, Component.history_append,
          Component.history_singleton_rel (ueComponent P env j) (f := ⟨c, p, c'⟩) concerned,
          printed_snoc]
        refine List.mem_append_right _ ?_
        have view : ((ueComponent P env j).conf c).state = some ue := present
        unfold printedBy
        dsimp only
        rw [view]
        exact new

/-! ## What the handlers print -/

/-- The line that a record prints. -/
def RecordEffect.line : RecordEffect → Option LogLine
  | .log line => some line
  | _ => none

/-- The lines among the records of a measurement. -/
def recordLines (records : List RecordEffect) : List LogLine := records.filterMap RecordEffect.line

theorem lines_records (records : List RecordEffect) :
    lines (records.map .record) = recordLines records := by
  unfold lines recordLines
  rw [List.filterMap_map]
  refine List.filterMap_congr fun r _ => ?_
  cases r <;> rfl

theorem mem_recordLines {records : List RecordEffect} {line : LogLine} :
    line ∈ recordLines records ↔ .log line ∈ records := by
  rw [← lines_records, mem_lines, List.mem_map]
  simp

/-- A measurement prints what the evaluation records, and the start of a procedure. -/
theorem lines_measureAndReport (keeps : P.reselectOnRlf = false) (ueId : ℕ) (simTime : ℚ)
    (due : UeInfo) :
    lines (measureAndReport P env ueId simTime due).2 =
      recordLines (ueEvaluateAndReport P env ueId simTime due).2.2 ++
        match (ueEvaluateAndReport P env ueId simTime due).2.1 with
        | none => []
        | some report =>
            lines (choTriggerProcedure P ueId simTime report
              (ueEvaluateAndReport P env ueId simTime due).1).2 := by
  unfold measureAndReport handleReport
  dsimp only
  rw [keeps]
  cases (ueEvaluateAndReport P env ueId simTime due).2.1 with
  | none => exact (lines_records _).trans (List.append_nil _).symm
  | some report =>
      dsimp only
      rw [lines_append, lines_records]
      rfl

/-- What a tick prints: nothing, the start of an execution, or what a measurement prints. -/
theorem lines_ueTick (P : Program) (env : Env) (ueId : ℕ) (simTime : ℚ) (ue : UeInfo) :
    ((ue.updated P env simTime).due? simTime = none ∧
        (lines (ueTick P env ueId simTime ue).2 = [] ∨
          ∃ ue₁ sourceCell targetCell, lines (ueTick P env ueId simTime ue).2 =
            lines (choPhase6UeExecutes P env ueId sourceCell targetCell simTime ue₁).2)) ∨
      ∃ due, (ue.updated P env simTime).due? simTime = some due ∧
        ueTick P env ueId simTime ue = measureAndReport P env ueId simTime due := by
  rcases checkHandover_spec P env ueId simTime (ue.updated P env simTime) with
    ⟨busy, unmeasured, -⟩ | ⟨-, unmeasured, stays | adopts⟩ | ⟨due, -, measured, measures⟩
  · refine .inl ⟨unmeasured, ?_⟩
    change lines (checkHandover P env ueId simTime (ue.updated P env simTime)).2 = [] ∨
      ∃ ue₁ sourceCell targetCell,
        lines (checkHandover P env ueId simTime (ue.updated P env simTime)).2 = _
    unfold checkHandover
    rw [if_pos busy]
    split
    · rename_i evaluating
      have check := choCheckExecutionCondition_check P env ueId simTime evaluating
      generalize choCheckExecutionCondition P env ueId simTime (ue.updated P env simTime) = result
        at check ⊢
      cases check with
      | executes => exact .inr ⟨_, _, _, rfl⟩
      | _ => exact .inl rfl
    · exact .inl rfl
  · refine .inl ⟨unmeasured, .inl ?_⟩
    change lines (checkHandover P env ueId simTime (ue.updated P env simTime)).2 = []
    rw [stays]
    rfl
  · refine .inl ⟨unmeasured, .inl ?_⟩
    change lines (checkHandover P env ueId simTime (ue.updated P env simTime)).2 = []
    rw [adopts]
    rfl
  · exact .inr ⟨due, measured, measures⟩

/-- The lines that UE `i` can print before its execution completes: those of an evaluation, and rows of
`cho-detailed-log.csv`. -/
inductive Program.PrintsEarly (P : Program) (env : Env) (i : ℕ) : LogLine → Prop
  | evaluation {simTime : ℚ} {ue : UeInfo} {serving : MeasResultCell}
      {measurements : List MeasResultCell} {line : LogLine}
      (recorded : .log line ∈ (P.evaluateNeighbors env i simTime ue serving measurements).records) :
      P.PrintsEarly env i line
  | row (time : Field) (rest : List Field) :
      P.PrintsEarly env i (.csv "cho-detailed-log" (time :: .nat i :: rest))

/-- The lines that UE `i` can print. -/
inductive Program.Prints (P : Program) (env : Env) (i : ℕ) : LogLine → Prop
  | early {line : LogLine} (printed : P.PrintsEarly env i line) : P.Prints env i line
  | success (time : Field) (rest : List Field) :
      P.Prints env i (.csv "cho-detailed-log" (time :: .str ("CHO_SUCCESS_UE" ++ toString i) :: rest))
  | result (rest : List (String × Field)) : P.Prints env i (.stdout "HO_RESULT" (("ue", .nat i) :: rest))
  | complete (rest : List (String × Field)) :
      P.Prints env i (.stdout "CHO HANDOVER COMPLETE" (("ue", .nat i) :: rest))
  | failure (time : ℚ) (reason : String) (ue : UeInfo) :
      P.Prints env i (P.failureLine i time reason ue)

theorem prints_choTriggerProcedure {i : ℕ} {simTime : ℚ} {report : MeasurementReport} {ue : UeInfo}
    {line : LogLine} (member : line ∈ lines (choTriggerProcedure P i simTime report ue).2) :
    P.PrintsEarly env i line := by
  unfold choTriggerProcedure at member
  split at member
  · cases member
  · simp only [lines, choLog, List.filterMap_cons, Effect.line, List.filterMap_nil,
      List.mem_singleton] at member
    rw [member]
    exact .row _ _

theorem prints_choPhase6UeExecutes {i : ℕ} {simTime : ℚ} {sourceCell targetCell : String}
    {ue : UeInfo} {line : LogLine}
    (member : line ∈ lines (choPhase6UeExecutes P env i sourceCell targetCell simTime ue).2) :
    P.PrintsEarly env i line := by
  unfold choPhase6UeExecutes at member
  split at member
  · cases member
  · simp only [lines, choLog, List.filterMap_cons, Effect.line, List.filterMap_nil,
      List.mem_singleton] at member
    rw [member]
    exact .row _ _

/-- The records of a measurement are those of its evaluation. -/
theorem ueEvaluateAndReport_records (P : Program) (env : Env) (ueId : ℕ) (simTime : ℚ)
    (due : UeInfo) :
    (ueEvaluateAndReport P env ueId simTime due).2.2 =
      if due.measState.servingCellId = "" then []
      else
        match due.serving? P env simTime with
        | none => []
        | some serving => (due.evaluation P env ueId simTime serving).records := by
  unfold ueEvaluateAndReport UeInfo.serving? UeInfo.evaluation
  dsimp only
  split
  · rfl
  · cases servingMeasurement (uePerformMeasurements (P.snrFloor env.ho) env simTime due)
      due.measState.servingCellId with
    | none => rfl
    | some serving => rfl

theorem prints_measureAndReport {i : ℕ} {simTime : ℚ} {due : UeInfo} {line : LogLine}
    (member : line ∈ lines (measureAndReport P env i simTime due).2) : P.PrintsEarly env i line := by
  have recorded : line ∈ recordLines (ueEvaluateAndReport P env i simTime due).2.2 →
      P.PrintsEarly env i line := by
    intro recorded
    rw [mem_recordLines, ueEvaluateAndReport_records] at recorded
    split at recorded
    · cases recorded
    · split at recorded
      · cases recorded
      · exact .evaluation recorded
  rcases measureAndReport_cases P env i simTime due with
    quiet | ⟨report, -, -, -, reselects⟩ | ⟨report, -, -, triggers⟩
  · rw [quiet, lines_records] at member
    exact recorded member
  · rw [reselects, lines_records] at member
    exact recorded member
  · rw [triggers, lines_append, lines_records] at member
    rcases List.mem_append.mp member with evaluated | triggered
    · exact recorded evaluated
    · exact prints_choTriggerProcedure triggered

theorem prints_ueTick {i : ℕ} {simTime : ℚ} {ue : UeInfo} {line : LogLine}
    (member : line ∈ lines (ueTick P env i simTime ue).2) : P.PrintsEarly env i line := by
  rcases lines_ueTick P env i simTime ue with
    ⟨-, none | ⟨ue₁, sourceCell, targetCell, executes⟩⟩ | ⟨due, -, measures⟩
  · rw [none] at member
    cases member
  · rw [executes] at member
    exact prints_choPhase6UeExecutes member
  · rw [measures] at member
    exact prints_measureAndReport member

theorem prints_choPhase7ExecutionComplete {i : ℕ} {simTime : ℚ} {sourceCell targetCell : String}
    {ue : UeInfo} {line : LogLine}
    (member : line ∈ lines
      (choPhase7ExecutionComplete P env i sourceCell targetCell simTime ue).2) :
    P.Prints env i line := by
  unfold choPhase7ExecutionComplete hoResult choHandleFailure at member
  split at member
  · cases member
  · dsimp only at member
    split at member
    · rw [lines_append, lines_append] at member
      rcases List.mem_append.mp member with first | last
      · rcases List.mem_append.mp first with stats | result
        · cases stats
        · split at result
          · obtain rfl := List.mem_singleton.mp result
            exact .result _
          · cases result
      · simp only [lines, choLog, List.filterMap_cons, Effect.line, List.filterMap_nil,
          List.mem_cons, List.not_mem_nil, or_false] at last
        rcases last with rfl | rfl
        · exact .complete _
        · exact .success _ _
    · simp only [lines, choLog, List.filterMap_cons, Effect.line, List.filterMap_nil,
        List.mem_cons, List.not_mem_nil, or_false] at member
      rcases member with rfl | rfl
      · exact .failure _ _ _
      · exact .early (.row _ _)

theorem prints_choHandler_early {i : ℕ} {simTime : ℚ} {handler : ChoHandler}
    {sourceCell targetCell : String} {ue : UeInfo} {line : LogLine}
    (early : handler ≠ .phase7ExecutionComplete)
    (member : line ∈ lines (choHandler P env handler i sourceCell targetCell simTime ue).2) :
    P.PrintsEarly env i line := by
  have advance : ∀ {expected next delay handler'},
      line ∉ lines (choAdvance expected next delay handler' i sourceCell targetCell simTime ue).2 := by
    intro expected next delay handler' printed
    unfold choAdvance at printed
    split at printed <;> cases printed
  cases handler with
  | phase1ReportArrived => exact absurd member advance
  | phase2SendXnRequest => exact absurd member advance
  | phase3XnResponse => exact absurd member advance
  | phase4SendRrcReconfig =>
      simp only [choHandler, choPhase4SendRrcReconfig] at member
      split at member <;> cases member
  | phase5UeStoresConfig =>
      simp only [choHandler, choPhase5UeStoresConfig] at member
      split at member
      · cases member
      · obtain rfl := List.mem_singleton.mp member
        exact .row _ _
  | phase7ExecutionComplete => exact absurd rfl early

/-- The events of a UE print nothing else. -/
theorem prints_of_mem {i : ℕ} {event : Event} {now : ℤ} {ue : UeInfo} {line : LogLine}
    (member : line ∈ lines (ueAction P env i event now ue).2) : P.Prints env i line := by
  cases event with
  | checkHandoverConditions => exact .early (prints_ueTick member)
  | cho handler ueId sourceCell targetCell =>
      by_cases completes : handler = .phase7ExecutionComplete
      · subst completes
        exact prints_choPhase7ExecutionComplete member
      · exact .early (prints_choHandler_early completes member)
  | evaluatePendingPrediction => cases member

/-- The line is one of an evaluation of the neighbours. -/
def LogLine.ofEvaluation : LogLine → Bool
  | .csv file _ => file == "serving_snr_trigger_analysis"
  | .stdout tag _ => tag == "HO_DEBUG"

/-- The phases of a procedure print no line of an evaluation. -/
theorem ofEvaluation_choHandler (handler : ChoHandler) (ueId : ℕ) (sourceCell targetCell : String)
    (simTime : ℚ) (ue : UeInfo) :
    (lines (choHandler tdCho env handler ueId sourceCell targetCell simTime ue).2).filter
      LogLine.ofEvaluation = [] := by
  cases handler with
  | phase4SendRrcReconfig =>
      unfold choHandler choPhase4SendRrcReconfig
      dsimp only
      split <;> rfl
  | phase5UeStoresConfig =>
      unfold choHandler choPhase5UeStoresConfig
      dsimp only
      split <;> rfl
  | phase7ExecutionComplete =>
      unfold choHandler choPhase7ExecutionComplete hoResult choHandleFailure
      dsimp only
      split_ifs <;> rfl
  | _ =>
      simp only [choHandler, choPhase1ReportArrived, choPhase2SendXnRequest, choPhase3XnResponse,
        choAdvance]
      split <;> rfl

/-! ## The records of an event -/

/-- The effects make no record but lines. -/
def OnlyLines (effects : List Effect) : Prop := ∀ {r}, Effect.record r ∈ effects → ∃ line, r = .log line

theorem onlyLines_choTriggerProcedure {i : ℕ} {simTime : ℚ} {report : MeasurementReport} {ue : UeInfo} :
    OnlyLines (choTriggerProcedure P i simTime report ue).2 := by
  intro r member
  unfold choTriggerProcedure at member
  split at member
  · cases member
  · simp only [choLog, List.mem_cons, reduceCtorEq, Effect.record.injEq, List.not_mem_nil, false_or,
      or_false] at member
    exact ⟨_, member⟩

theorem onlyLines_choPhase6UeExecutes {i : ℕ} {simTime : ℚ} {sourceCell targetCell : String}
    {ue : UeInfo} : OnlyLines (choPhase6UeExecutes P env i sourceCell targetCell simTime ue).2 := by
  intro r member
  unfold choPhase6UeExecutes at member
  split at member
  · cases member
  · simp only [choLog, List.mem_cons, reduceCtorEq, Effect.record.injEq, List.not_mem_nil, false_or,
      or_false] at member
    exact ⟨_, member⟩

theorem onlyLines_choHandler {handler : ChoHandler} {i : ℕ} {sourceCell targetCell : String}
    {simTime : ℚ} {ue : UeInfo} :
    OnlyLines (choHandler P env handler i sourceCell targetCell simTime ue).2 := by
  intro r member
  cases handler with
  | phase1ReportArrived | phase2SendXnRequest | phase3XnResponse =>
      simp only [choHandler, choPhase1ReportArrived, choPhase2SendXnRequest, choPhase3XnResponse,
        choAdvance] at member
      split at member
      · cases member
      · simp at member
  | phase4SendRrcReconfig =>
      simp only [choHandler, choPhase4SendRrcReconfig] at member
      split at member
      · cases member
      · simp at member
  | phase5UeStoresConfig =>
      simp only [choHandler, choPhase5UeStoresConfig] at member
      split at member
      · cases member
      · simp only [choLog, List.mem_cons, reduceCtorEq, Effect.record.injEq, List.not_mem_nil, false_or,
          or_false] at member
        exact ⟨_, member⟩
  | phase7ExecutionComplete =>
      simp only [choHandler, choPhase7ExecutionComplete, hoResult, choHandleFailure] at member
      split at member
      · cases member
      · split at member
        · split at member <;> simp only [choLog, List.mem_append, List.mem_cons, reduceCtorEq,
            Effect.record.injEq, List.not_mem_nil, false_or, or_false] at member
          · rcases member with rfl | rfl | rfl <;> exact ⟨_, rfl⟩
          · rcases member with rfl | rfl <;> exact ⟨_, rfl⟩
        · simp only [choLog, List.mem_cons, reduceCtorEq, Effect.record.injEq, List.not_mem_nil, false_or,
            or_false] at member
          rcases member with rfl | rfl <;> exact ⟨_, rfl⟩

/-- The records of a tick are lines, or those of its measurement. -/
theorem record_of_ueTick {i : ℕ} {simTime : ℚ} {ue : UeInfo} {r : RecordEffect}
    (member : .record r ∈ (ueTick P env i simTime ue).2) :
    (∃ line, r = .log line) ∨ ∃ due, (ue.updated P env simTime).due? simTime = some due ∧
      r ∈ (ueEvaluateAndReport P env i simTime due).2.2 := by
  change .record r ∈ (checkHandover P env i simTime (ue.updated P env simTime)).2 at member
  rcases checkHandover_spec P env i simTime (ue.updated P env simTime) with
    ⟨busy, -, -⟩ | ⟨-, -, stays | adopts⟩ | ⟨due, -, measured, measures⟩
  · unfold checkHandover at member
    rw [if_pos busy] at member
    split at member
    · rename_i evaluating
      have check := choCheckExecutionCondition_check P env i simTime evaluating
      generalize choCheckExecutionCondition P env i simTime (ue.updated P env simTime) = result
        at check member
      cases check with
      | executes => exact .inl (onlyLines_choPhase6UeExecutes member)
      | expired => simp [choConfigExpired] at member
      | _ => cases member
    · cases member
  · rw [stays] at member
    cases member
  · rw [adopts] at member
    cases member
  · refine (em _).imp_right fun other => ⟨due, measured, ?_⟩
    have recorded : Effect.record r ∈ (ueEvaluateAndReport P env i simTime due).2.2.map .record →
        r ∈ (ueEvaluateAndReport P env i simTime due).2.2 := by
      intro recorded
      obtain ⟨r', member', same⟩ := List.mem_map.mp recorded
      exact Effect.record.inj same ▸ member'
    rw [measures] at member
    rcases measureAndReport_cases P env i simTime due with
      quiet | ⟨report, -, -, -, reselects⟩ | ⟨report, -, -, triggers⟩
    · rw [quiet] at member
      exact recorded member
    · rw [reselects] at member
      exact recorded member
    · rw [triggers] at member
      rcases List.mem_append.mp member with evaluated | triggered
      · exact recorded evaluated
      · exact absurd (onlyLines_choTriggerProcedure triggered) other

/-! ## What TD-CHO prints -/

namespace TdCho

/-- The records that an evaluation of UE `i` makes. -/
inductive EvaluationRecord (env : Env) (i : ℕ) (simTime : ℚ) : RecordEffect → Prop
  | validation (it : PendingMeasurementValidation) (verification : it.verificationTime = simTime + 5) :
      EvaluationRecord env i simTime (.measurementValidation it)
  | trigger (fields : List Field) :
      EvaluationRecord env i simTime (.log (.csv "serving_snr_trigger_analysis" fields))
  | followup (it : PendingServingSnrFollowup) (record : it.recordTime = simTime)
      (horizon : it.horizonSec ∈ [1, 3, 5])
      (verification : it.verificationTime = simTime + it.horizonSec) :
      EvaluationRecord env i simTime (.servingSnrFollowup it)
  | debug (rest : List (String × Field)) :
      EvaluationRecord env i simTime (.log (.stdout "HO_DEBUG" (("ue", .nat i) :: rest)))
  | prediction (it : PendingPredictionEval) (decision : it.decisionTime = simTime)
      (eval : it.evalTime = simTime + env.ho.predictionEvalDelay) :
      EvaluationRecord env i simTime (.predictionEval it)

/-- The loop over the measured cells records validations. -/
theorem mem_records_scanNeighbors {env : Env} {ueId : ℕ} {simTime : ℚ} {ue : UeInfo}
    {measurements : List MeasResultCell} {r : RecordEffect}
    (recorded : r ∈ (scanNeighbors env ueId simTime ue measurements).records) :
    ∃ it, r = .measurementValidation it ∧ it.verificationTime = simTime + 5 := by
  revert r
  unfold scanNeighbors
  refine List.foldlRecOn measurements _
    (motive := fun scan : NeighborScan => ∀ {r}, r ∈ scan.records →
      ∃ it, r = .measurementValidation it ∧ it.verificationTime = simTime + 5)
    (fun recorded => by cases recorded) ?_
  intro scan earlier meas _ r recorded
  unfold scanNeighbor at recorded
  split_ifs at recorded
  · exact earlier recorded
  · exact earlier recorded
  · rcases List.mem_append.mp recorded with old | new
    · exact earlier old
    · exact ⟨_, List.mem_singleton.mp new, rfl⟩

theorem evaluationRecord_of_mem {env : Env} {ueId : ℕ} {simTime : ℚ} {ue : UeInfo}
    {serving : MeasResultCell} {measurements : List MeasResultCell} {r : RecordEffect}
    (recorded : r ∈ (tdCho.evaluateNeighbors env ueId simTime ue serving measurements).records) :
    EvaluationRecord env ueId simTime r := by
  have scanned : r ∈ (scanNeighbors env ueId simTime ue measurements).records →
      EvaluationRecord env ueId simTime r := by
    intro scanned
    obtain ⟨it, rfl, verification⟩ := mem_records_scanNeighbors scanned
    exact .validation it verification
  change r ∈ (evaluateNeighbors env ueId simTime ue serving measurements).records at recorded
  unfold evaluateNeighbors at recorded
  dsimp only at recorded
  split at recorded
  · unfold evaluateBest at recorded
    dsimp only at recorded
    rcases List.mem_append.mp recorded with earlier | last
    · rcases List.mem_append.mp earlier with scan | followups
      · exact scanned scan
      · split at followups
        · rcases List.mem_cons.mp followups with rfl | followup
          · exact .trigger _
          · obtain ⟨horizonSec, horizon, rfl⟩ := List.mem_map.mp followup
            exact .followup _ rfl horizon rfl
        · cases followups
    · rcases List.mem_cons.mp last with rfl | eval
      · exact .debug _
      · obtain rfl := List.mem_singleton.mp eval
        exact .prediction _ rfl rfl
  · exact scanned recorded

/-- The loop over the measured cells prints nothing. -/
theorem recordLines_scanNeighbors (env : Env) (ueId : ℕ) (simTime : ℚ) (ue : UeInfo)
    (measurements : List MeasResultCell) :
    recordLines (scanNeighbors env ueId simTime ue measurements).records = [] := by
  refine List.filterMap_eq_nil_iff.mpr fun r recorded => ?_
  obtain ⟨it, rfl, -⟩ := mem_records_scanNeighbors recorded
  rfl

/-- The lines of an evaluation: a row about a degrading serving cell, and `[HO_DEBUG]`. -/
theorem mem_records {env : Env} {ueId : ℕ} {simTime : ℚ} {ue : UeInfo} {serving : MeasResultCell}
    {measurements : List MeasResultCell} {line : LogLine}
    (recorded : .log line ∈
      (tdCho.evaluateNeighbors env ueId simTime ue serving measurements).records) :
    (∃ fields, line = .csv "serving_snr_trigger_analysis" fields) ∨
      ∃ rest, line = .stdout "HO_DEBUG" (("ue", .nat ueId) :: rest) := by
  cases evaluationRecord_of_mem recorded with
  | trigger fields => exact .inl ⟨fields, rfl⟩
  | debug rest => exact .inr ⟨rest, rfl⟩

end TdCho

/-- The records that a UE of TD-CHO makes are lines, or those of an evaluation at a tick. -/
theorem evaluationRecord_of_ueAction {env : Env} {i : ℕ} {event : Event} {now : ℤ} {ue : UeInfo}
    {r : RecordEffect} (member : .record r ∈ (ueAction tdCho env i event now ue).2) :
    (∃ line, r = .log line) ∨
      event = .checkHandoverConditions ∧ TdCho.EvaluationRecord env i (getSeconds now) r := by
  cases event with
  | checkHandoverConditions =>
      refine (record_of_ueTick member).imp_right ?_
      rintro ⟨due, -, recorded⟩
      rw [ueEvaluateAndReport_records] at recorded
      split at recorded
      · cases recorded
      · split at recorded
        · cases recorded
        · exact ⟨rfl, TdCho.evaluationRecord_of_mem recorded⟩
  | cho handler ueId sourceCell targetCell => exact .inl (onlyLines_choHandler member)
  | evaluatePendingPrediction r => cases member

end NtnCho
