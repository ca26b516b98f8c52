import NtnCho.Ledger
import NtnCho.Liveness
import NtnCho.Output
import NtnCho.Serving
import NtnCho.Text.Number

/-!
# The detailed log

`cho-detailed-log.csv` has a row for every event of a procedure that a counter of the UE counts. The rows
and the counted events correspond one to one (`Recorded`), and every row but that of a success has the
ten fields of the header: in a success row the UE number stands in the event name, so a field is
missing and the columns after it are those of their neighbours.
-/

namespace NtnCho

open EventSystem Text

variable {P : Program} {env : Env} {i : ℕ}

/-! ## The file -/

/-- The text of a printed value. -/
def Field.text : Field → List Char
  | .nat n => showNat n
  | .fixed precision x => showFixed precision x
  | .num x => showGeneral x
  | .str s => s.toList
  | .empty => []

/-- A row of a CSV file. -/
def csvLine (fields : List Field) : List Char := [','].intercalate (fields.map Field.text)

/-- The fields of a row of `cho-detailed-log.csv`. -/
def LogLine.choRow : LogLine → Option (List Field)
  | .csv file fields => if file = "cho-detailed-log" then some fields else none
  | .stdout _ _ => none

/-- The rows of `cho-detailed-log.csv` below its header. -/
def choLogRows (log : List LogLine) : List (List Char) := (log.filterMap LogLine.choRow).map csvLine

/-- The header of `cho-detailed-log.csv`. -/
def choLogHeader : List Char :=
  "time_s,ue_id,event,source_cell,target_cell,serving_sinr_dB,target_sinr_dB,delay_ms,value,notes".toList

/-- The value of a row in a column of the header. -/
def choLogColumn (name : String) (row : List Char) : Option (List Char) :=
  ((choLogHeader.splitOn ',').zip (row.splitOn ',')).lookup name.toList

/-! ## The events -/

/-- The events of a procedure that are both counted and logged. -/
inductive ChoEvent where
  | triggered
  | configStored
  | executionTriggered
  | success
  | failure
  deriving DecidableEq

namespace ChoEvent

/-- The name of an event of UE `i` in the log. -/
def name (i : ℕ) : ChoEvent → String
  | triggered => "CHO_TRIGGERED"
  | configStored => "CONFIG_STORED"
  | executionTriggered => "EXECUTION_TRIGGERED"
  | success => "CHO_SUCCESS_UE" ++ toString i
  | failure => "CHO_FAILURE"

def counter : ChoEvent → ChoNtnStatistics → ℕ
  | triggered => ChoNtnStatistics.totalReports
  | configStored => ChoNtnStatistics.configsReceived
  | executionTriggered => ChoNtnStatistics.executionsTriggered
  | success => ChoNtnStatistics.successfulHandovers
  | failure => ChoNtnStatistics.failedAtExecution

end ChoEvent

/-- The log of a simulation is a transcript of it: every row has the fields of the header, with the
number of a UE and the name of an event in their columns, and for each UE the rows of each event are as
many as its counter says. -/
structure Transcript (s : Sim) : Prop where
  fields : ∀ row ∈ choLogRows s.log,
    (row.splitOn ',').length = (choLogHeader.splitOn ',').length
  named : ∀ row ∈ choLogRows s.log, ∃ i < s.ues.length, ∃ event : ChoEvent,
    choLogColumn "ue_id" row = some (showNat i) ∧
      choLogColumn "event" row = some (event.name i).toList
  counted : ∀ (i : ℕ) ue, s.ues[i]? = some ue → ∀ event : ChoEvent,
    (choLogRows s.log).countP (fun row => decide (choLogColumn "ue_id" row = some (showNat i)) &&
        decide (choLogColumn "event" row = some (event.name i).toList)) =
      event.counter ue.choNtnStats

/-! ## The rows of a handler -/

/-- The event that an update of the statistics counts. -/
def StatOp.event : StatOp → Option ChoEvent
  | .report _ => some .triggered
  | .configReceived => some .configStored
  | .executionTriggered => some .executionTriggered
  | .success _ _ => some .success
  | .failedAtExecution => some .failure
  | .configSent => none
  | .configExpired => none

def Effect.event : Effect → Option ChoEvent
  | .stat op => op.event
  | _ => none

def Effect.choRow (effect : Effect) : Option (List Field) := effect.line.bind LogLine.choRow

/-- The field has no comma in its text. -/
def Field.Plain (field : Field) : Prop := ',' ∉ field.text

instance (field : Field) : Decidable field.Plain := by
  unfold Field.Plain
  infer_instance

/-- The row of an event of UE `i`, whose procedure leads from `sourceCell` to `targetCell`. -/
inductive RowOf (i : ℕ) (sourceCell targetCell : String) : ChoEvent → List Field → Prop
  | full {event : ChoEvent} (other : event ≠ .success) (time : ℚ)
      {servingSinr targetSinr delay value : Field} {notes : String} (serving : servingSinr.Plain)
      (target : targetSinr.Plain) (delayed : delay.Plain) (valued : value.Plain)
      (noted : (Field.str notes).Plain) :
      RowOf i sourceCell targetCell event
        [.num time, .nat i, .str (event.name i), .str sourceCell, .str targetCell, servingSinr,
          targetSinr, delay, value, .str notes]
  | success (time servingSnr targetSnr delay snrImprovement : ℚ) :
      RowOf i sourceCell targetCell .success
        [.num time, .str (ChoEvent.success.name i), .str sourceCell, .str targetCell,
          .num servingSnr, .num targetSnr, .num delay, .num snrImprovement, .str "COMPLETE"]

/-- The rows among the effects are those of the counted events, one by one. -/
def Recorded (i : ℕ) (sourceCell targetCell : String) (effects : List Effect) : Prop :=
  List.Forall₂ (RowOf i sourceCell targetCell) (effects.filterMap Effect.event)
    (effects.filterMap Effect.choRow)

theorem Field.Plain.num (x : ℚ) : (Field.num x).Plain := by
  intro comma
  rcases isNumeric_showGeneral comma with digit | other
  · exact absurd digit (by decide)
  · exact absurd other (by decide)

theorem Field.Plain.nat (n : ℕ) : (Field.nat n).Plain := by
  intro comma
  exact absurd (isDigit_of_mem_showNat comma) (by decide)

theorem Field.Plain.empty : Field.empty.Plain := List.not_mem_nil

theorem comma_not_mem_toString (n : ℕ) : ',' ∉ (toString n).toList := by
  rw [show (toString n).toList = showNat n from Nat.toList_repr]
  exact Field.Plain.nat n

theorem comma_not_mem_stdToString (x : ℚ) : ',' ∉ (stdToString x).toList := by
  have zeros (n : ℕ) : ',' ∉ List.replicate n '0' := by
    intro comma
    exact absurd (List.mem_replicate.mp comma).2 (by decide)
  unfold stdToString
  dsimp only
  simp only [String.toList_append, String.toList_ofList, List.mem_append, not_or]
  refine ⟨⟨⟨⟨?_, comma_not_mem_toString _⟩, by decide⟩, zeros _⟩, comma_not_mem_toString _⟩
  split <;> decide

theorem recorded_nil (sourceCell targetCell : String) : Recorded i sourceCell targetCell [] := .nil

/-- Records without a row of the log do not matter. -/
theorem Recorded.of_records {sourceCell targetCell : String} {records : List RecordEffect}
    {effects : List Effect} (recorded : Recorded i sourceCell targetCell effects)
    (silent : (recordLines records).filterMap LogLine.choRow = []) :
    Recorded i sourceCell targetCell (records.map .record ++ effects) := by
  have uncounted : (records.map Effect.record).filterMap Effect.event = [] := by
    rw [List.filterMap_map]
    exact List.filterMap_eq_nil_iff.mpr fun _ _ => rfl
  have unlogged : (records.map Effect.record).filterMap Effect.choRow = [] := by
    rw [← lines_records] at silent
    unfold lines at silent
    rwa [List.filterMap_filterMap] at silent
  unfold Recorded
  rw [List.filterMap_append, List.filterMap_append, uncounted, unlogged]
  exact recorded

theorem recorded_choTriggerProcedure {simTime : ℚ} {report : MeasurementReport} {ue : UeInfo}
    (idle : ue.choProcState.phase = .idle) :
    Recorded i (choTriggerProcedure P i simTime report ue).1.choProcState.sourceCell
      (choTriggerProcedure P i simTime report ue).1.choProcState.targetCell
      (choTriggerProcedure P i simTime report ue).2 := by
  unfold choTriggerProcedure
  rw [if_neg (not_not.mpr idle)]
  dsimp only
  rw [UeInfo.count_choProcState]
  exact .cons (.full (by simp) _ (.num _) (.num _) (.num _) .empty
    (by decide)) .nil

theorem recorded_choPhase6UeExecutes {simTime : ℚ} {sourceCell targetCell : String} {ue : UeInfo} :
    Recorded i sourceCell targetCell
      (choPhase6UeExecutes P env i sourceCell targetCell simTime ue).2 := by
  unfold choPhase6UeExecutes
  split
  · exact .nil
  · exact .cons (.full (by simp) _ (.num _) (.num _) (.num _) .empty
      (by decide)) .nil

theorem recorded_choPhase5UeStoresConfig {simTime : ℚ} {sourceCell targetCell : String}
    {ue : UeInfo} :
    Recorded i sourceCell targetCell
      (choPhase5UeStoresConfig P env i sourceCell targetCell simTime ue).2 := by
  unfold choPhase5UeStoresConfig
  split
  · exact .nil
  · exact .cons (.full (by simp) _ .empty .empty .empty .empty
      (by decide)) .nil

theorem TdCho.recorded_choPhase7ExecutionComplete {simTime : ℚ} {ue : UeInfo} :
    Recorded i ue.choProcState.sourceCell ue.choProcState.targetCell
      (choPhase7ExecutionComplete tdCho env i ue.choProcState.sourceCell ue.choProcState.targetCell simTime
        ue).2 := by
  unfold choPhase7ExecutionComplete
  split
  · exact .nil
  · dsimp only
    split
    · have result : ∀ {targetSnr : ℚ} {hoContext : HoContext},
          (hoResult i ue.choProcState.sourceCell ue.choProcState.targetCell simTime targetSnr
            hoContext).filterMap Effect.event = [] ∧
          (hoResult i ue.choProcState.sourceCell ue.choProcState.targetCell simTime targetSnr
            hoContext).filterMap Effect.choRow = [] := by
        intro targetSnr hoContext
        unfold hoResult
        split <;> exact ⟨rfl, rfl⟩
      unfold Recorded
      simp only [List.filterMap_append, result.1, result.2]
      exact .cons (.success ..) .nil
    · unfold choHandleFailure
      dsimp only
      rw [UeInfo.count_choProcState]
      have reason : (Field.str ("TARGET_NOT_VIABLE (SINR=" ++
          stdToString (getCachedSnr ue ue.choProcState.targetCell) ++ " dB)")).Plain := by
        unfold Field.Plain Field.text
        simp only [String.toList_append, List.mem_append, not_or]
        exact ⟨⟨by decide, comma_not_mem_stdToString _⟩, by decide⟩
      exact .cons (.full (by simp) _ .empty .empty .empty (.num _) reason) .nil

/-- The records of an evaluation of TD-CHO are no rows of the log. -/
theorem TdCho.silent_ueEvaluateAndReport (env : Env) (i : ℕ) (simTime : ℚ) (due : UeInfo) :
    (recordLines (ueEvaluateAndReport tdCho env i simTime due).2.2).filterMap LogLine.choRow = [] := by
  refine List.filterMap_eq_nil_iff.mpr fun line member => ?_
  rw [mem_recordLines, ueEvaluateAndReport_records] at member
  split at member
  · cases member
  · split at member
    · cases member
    · rcases TdCho.mem_records member with ⟨fields, rfl⟩ | ⟨rest, rfl⟩
      · rfl
      · rfl

theorem TdCho.recorded_ueTick {simTime : ℚ} {ue : UeInfo} :
    Recorded i (ueTick tdCho env i simTime ue).1.choProcState.sourceCell
      (ueTick tdCho env i simTime ue).1.choProcState.targetCell
      (ueTick tdCho env i simTime ue).2 := by
  change Recorded i (checkHandover tdCho env i simTime (ue.updated tdCho env simTime)).1.choProcState.sourceCell
      (checkHandover tdCho env i simTime (ue.updated tdCho env simTime)).1.choProcState.targetCell
      (checkHandover tdCho env i simTime (ue.updated tdCho env simTime)).2
  rcases checkHandover_spec tdCho env i simTime (ue.updated tdCho env simTime) with
    ⟨busy, -, -⟩ | ⟨-, -, stays | adopts⟩ | ⟨due, idle, measured, measures⟩
  · unfold checkHandover
    rw [if_pos busy]
    split
    · rename_i evaluating
      have check := choCheckExecutionCondition_check tdCho env i simTime evaluating
      generalize choCheckExecutionCondition tdCho env i simTime (ue.updated tdCho env simTime) =
        result at check ⊢
      cases check with
      | executes valid met active elapsed =>
          generalize (ue.updated tdCho env simTime).choProcState.executionTttStartTime = start
          have cells := sameDecision_choPhase6UeExecutes tdCho env i
            (ue.updated tdCho env simTime).choProcState.sourceCell
            (ue.updated tdCho env simTime).choProcState.targetCell simTime
            ((ue.updated tdCho env simTime).setExecutionTtt false start)
          rw [cells.sourceCell, cells.targetCell]
          exact recorded_choPhase6UeExecutes
      | _ => exact .nil
    · exact .nil
  · rw [stays]
    exact .nil
  · rw [adopts]
    exact .nil
  · rw [measures]
    have idle₁ : (ueEvaluateAndReport tdCho env i simTime due).1.choProcState.phase = .idle :=
      ((onlyMeasured_of_due measured).trans
        (onlyMeasured_ueEvaluateAndReport tdCho env i simTime due)).phase.trans idle
    have silent := TdCho.silent_ueEvaluateAndReport env i simTime due
    rcases measureAndReport_cases tdCho env i simTime due with
      quiet | ⟨report, -, reselection, -⟩ | ⟨report, -, -, triggers⟩
    · rw [quiet]
      have none := (recorded_nil (i := i) (ueEvaluateAndReport tdCho env i simTime
        due).1.choProcState.sourceCell (ueEvaluateAndReport tdCho env i simTime
        due).1.choProcState.targetCell).of_records silent
      rwa [List.append_nil] at none
    · cases reselection
    · rw [triggers]
      exact (recorded_choTriggerProcedure idle₁).of_records silent

theorem TdCho.recorded_choHandler {handler : ChoHandler} {simTime : ℚ} {ue : UeInfo} :
    Recorded i ue.choProcState.sourceCell ue.choProcState.targetCell
      (choHandler tdCho env handler i ue.choProcState.sourceCell ue.choProcState.targetCell simTime
        ue).2 := by
  have advance : ∀ {expected next : ChoPhase} {delay : ℚ} {handler' : ChoHandler},
      Recorded i ue.choProcState.sourceCell ue.choProcState.targetCell
        (choAdvance expected next delay handler' i ue.choProcState.sourceCell
          ue.choProcState.targetCell simTime ue).2 := by
    intro expected next delay handler'
    unfold choAdvance
    split <;> exact .nil
  cases handler with
  | phase1ReportArrived => exact advance
  | phase2SendXnRequest => exact advance
  | phase3XnResponse => exact advance
  | phase4SendRrcReconfig =>
      simp only [choHandler, choPhase4SendRrcReconfig]
      split <;> exact .nil
  | phase5UeStoresConfig => exact recorded_choPhase5UeStoresConfig
  | phase7ExecutionComplete => exact recorded_choPhase7ExecutionComplete

/-- At every event a UE logs what it counts, with the cells of its procedure. -/
theorem TdCho.recorded_ueAction {c : Conf ℤ (Option UeInfo) Event} {p : Pending ℤ Event}
    {ue : UeInfo} {pre post : Schedule} (pipeline : Pipeline i c ue)
    (queue : c.queue = pre ++ p :: post) (concerns : p.ev.concerns i = true) :
    Recorded i (ueAction tdCho env i p.ev p.ts ue).1.choProcState.sourceCell
      (ueAction tdCho env i p.ev p.ts ue).1.choProcState.targetCell
      (ueAction tdCho env i p.ev p.ts ue).2 := by
  rcases p with ⟨ts, _ | ⟨handler, ueId, sourceCell, targetCell⟩ | _⟩
  · exact recorded_ueTick
  · obtain rfl : ueId = i := by simpa [Event.concerns] using concerns
    obtain ⟨-, rfl, rfl, -⟩ := pipeline.guard_of_fire queue
    rw [ueAction_cho, choHandler_cells.1, choHandler_cells.2]
    exact recorded_choHandler
  · exact .nil

/-! ## The cells -/

/-- The name is empty, or one of the dataset. -/
def Link.Knows (L : Link) (name : String) : Prop := name = "" ∨ name ∈ L.satellites.keys

theorem LinkInvariant.knows {ue : UeInfo} (inv : LinkInvariant P env ue) {name : String}
    (cached : name ∈ ue.phy.channel.channelCache) : env.link.Knows name :=
  .inr (Std.TreeMap.mem_keys.mpr (inv.mem_satellites cached))

theorem LinkInvariant.knows_measured {ue : UeInfo} {simTime : ℚ}
    (inv : LinkInvariant P env (ue.updated P env simTime)) {name : String}
    (measured : name ∈ measuredCells P env simTime ue) : env.link.Knows name := by
  obtain ⟨meas, member, rfl⟩ := List.mem_map.mp measured
  obtain ⟨entry, kept, rfl⟩ := List.mem_map.mp member
  have cell : (ueMeasureCell env simTime (ue.updated P env simTime) entry.1).cellId = entry.1 := by
    unfold ueMeasureCell
    split <;> rfl
  rw [cell]
  exact inv.knows (mem_channelCache_of_mem_toList (List.mem_of_mem_filter kept))

/-- The procedure leads from and to satellites of the dataset. -/
structure KnownCells (L : Link) (s : UeChoProcedureState) : Prop where
  source : L.Knows s.sourceCell
  target : L.Knows s.targetCell

/-- A tick that starts no procedure leaves the cells alone. -/
theorem TickAction.cells_of_unstarted {simTime : ℚ} {ue : UeInfo} {result : UeInfo × List Effect}
    (action : TickAction P env i simTime ue result)
    (unstarted : ue.choProcState.phase = .idle → result.1.choProcState.phase = .idle) :
    result.1.choProcState.sourceCell = ue.choProcState.sourceCell ∧
      result.1.choProcState.targetCell = ue.choProcState.targetCell := by
  by_cases idle : ue.choProcState.phase = .idle
  case neg => exact action.cells idle
  case pos =>
    have after := unstarted idle
    cases action with
    | quiet => exact ⟨rfl, rfl⟩
    | timer => exact ⟨rfl, rfl⟩
    | reselects => exact ⟨rfl, rfl⟩
    | expires evaluating => exact absurd (idle.symm.trans evaluating) (by decide)
    | executes start evaluating => exact absurd (idle.symm.trans evaluating) (by decide)
    | reports records report _ =>
        dsimp only at after
        rw [choTriggerProcedure_phase idle] at after
        cases after

theorem knownCells_of_run (lawful : P.Lawful) (keeps : P.reselectOnRlf = false) {ok : Policy ℤ Event}
    {rows : List UeRow} {h : List (Firing ℤ (Option UeInfo) Event)}
    {c : Conf ℤ (Option UeInfo) Event} {ue : UeInfo}
    (run : Run (ueHandler P env i) ok (ueInitial env rows i) h c) (present : c.state = some ue) :
    KnownCells env.link ue.choProcState := by
  refine ueRun_history (I := fun _ _ ue => KnownCells env.link ue.choProcState) run
    (fun _ => ⟨.inl rfl, .inl rfl⟩) ?_ present
  intro h c p c' ue prior step present concerns known
  have kept (cells : (ueAction P env i p.ev p.ts ue).1.choProcState.sourceCell =
        ue.choProcState.sourceCell ∧ (ueAction P env i p.ev p.ts ue).1.choProcState.targetCell =
        ue.choProcState.targetCell) :
      KnownCells env.link (ueAction P env i p.ev p.ts ue).1.choProcState := by
    refine ⟨?_, ?_⟩
    · rw [cells.1]
      exact known.source
    · rw [cells.2]
      exact known.target
  rcases p with ⟨ts, _ | ⟨handler, ueId, sourceCell, targetCell⟩ | _⟩
  · have after := ueState_of_step step present
    rw [ueAction_tick] at kept after ⊢
    by_cases starts : ue.choProcState.phase = .idle ∧
        (ueTick P env i (getSeconds ts) ue).1.choProcState.phase ≠ .idle
    case pos =>
      obtain ⟨idle, busy⟩ := starts
      have inv' := linkInvariant_of_run lawful (prior.snoc step) after
      have serves := servedBySource_of_run lawful (prior.snoc step) after
      refine ⟨?_, ?_⟩
      · rw [serves.source busy]
        exact inv'.served.imp_right fun cached => (inv'.knows cached).resolve_left (serves.served busy)
      · rcases ueTick_target lawful keeps idle busy with ⟨-, none⟩ | ⟨-, -, -, measured⟩
        · exact .inl none
        · exact ((linkInvariant_of_run lawful prior present).updated lawful).knows_measured measured
    case neg =>
      refine kept ?_
      obtain ⟨ue₁, same, action⟩ := ueTick_spec P env i (getSeconds ts) ue
      rw [← same.choProcState] at starts ⊢
      exact action.cells_of_unstarted fun idle => by
        by_contra busy
        exact starts ⟨idle, busy⟩
  · exact kept choHandler_cells
  · exact known

/-! ## The log of a run -/

/-- The row of an event of UE `i`, with cells of the dataset. -/
def LogRow (L : Link) (i : ℕ) (event : ChoEvent) (fields : List Field) : Prop :=
  ∃ sourceCell targetCell, L.Knows sourceCell ∧ L.Knows targetCell ∧
    RowOf i sourceCell targetCell event fields

/-- The events that a firing counts. -/
def countedBy (P : Program) (env : Env) (i : ℕ) (f : Firing ℤ (Option UeInfo) Event) :
    List ChoEvent :=
  match f.before.state with
  | none => []
  | some ue => (ueAction P env i f.event.ev f.event.ts ue).2.filterMap Effect.event

/-- The events that the firings of a history count. -/
def counted (P : Program) (env : Env) (i : ℕ) (h : List (Firing ℤ (Option UeInfo) Event)) :
    List ChoEvent := h.flatMap (countedBy P env i)

theorem counted_snoc (h : List (Firing ℤ (Option UeInfo) Event))
    (f : Firing ℤ (Option UeInfo) Event) :
    counted P env i (h ++ [f]) = counted P env i h ++ countedBy P env i f := by
  simp [counted]

section Run

variable {rows : List UeRow} {h : List (Firing ℤ (Option UeInfo) Event)}
  {c : Conf ℤ (Option UeInfo) Event} {ok : Policy ℤ Event}

/-- Along a run the rows of a UE are those of its counted events, one by one. -/
theorem TdCho.rows_of_run (run : Run (ueHandler tdCho env i) ok (ueInitial env rows i) h c) :
    List.Forall₂ (LogRow env.link i) (counted tdCho env i h)
      ((printed tdCho env i h).filterMap LogLine.choRow) := by
  induction run with
  | nil => exact .nil
  | @snoc h c c' p prior step ih =>
      rw [counted_snoc, printed_snoc, List.filterMap_append]
      refine List.rel_append ih ?_
      unfold countedBy printedBy
      dsimp only
      cases present : c.state with
      | none => exact .nil
      | some ue =>
          obtain ⟨pre, post, queue, -, after, -⟩ := ueStep step present
          have concerns := (ueQueue_of_run prior p step.mem_queue).1
          have recorded := @recorded_ueAction env i c p ue pre post (pipeline_of_run prior present)
            queue concerns
          have known := knownCells_of_run TdCho.lawful rfl (prior.snoc step) after
          have rowsOf : (lines (ueAction tdCho env i p.ev p.ts ue).2).filterMap LogLine.choRow =
              (ueAction tdCho env i p.ev p.ts ue).2.filterMap Effect.choRow := List.filterMap_filterMap
          dsimp only
          rw [rowsOf]
          exact recorded.imp fun _ _ row => ⟨_, _, known.source, known.target, row⟩

theorem ChoEvent.counter_apply (event : ChoEvent) (op : StatOp) (stats : ChoNtnStatistics) :
    event.counter (op.apply stats) =
      event.counter stats + (op.event.toList).count event := by
  cases op <;> cases event <;> rfl

/-- A counter gains the counted events among the effects. -/
theorem ChoEvent.counter_foldl (event : ChoEvent) (b : Books) (effects : List Effect) :
    event.counter (effects.foldl Effect.enter b).stats =
      event.counter b.stats + (effects.filterMap Effect.event).count event := by
  induction effects generalizing b with
  | nil => rfl
  | cons effect effects ih =>
      rw [List.foldl_cons, ih]
      cases effect with
      | stat op =>
          have gained := event.counter_apply op b.stats
          cases counts : op.event with
          | none =>
              rw [counts] at gained
              rw [List.filterMap_cons_none (show (Effect.stat op).event = none from counts)]
              exact congrArg (· + _) gained
          | some e =>
              rw [counts] at gained
              rw [List.filterMap_cons_some (show (Effect.stat op).event = some e from counts),
                ← List.singleton_append, List.count_append, ← add_assoc]
              exact congrArg (· + _) gained
      | record => rfl
      | schedule => rfl
      | handoverCount => rfl

/-- The counters of a UE are the numbers of its counted events. -/
theorem counter_of_run (perUe : P.perUeStats = true)
    (run : Run (ueHandler P env i) ok (ueInitial env rows i) h c) {ue : UeInfo}
    (present : c.state = some ue) (event : ChoEvent) :
    event.counter ue.choNtnStats = (counted P env i h).count event := by
  refine ueRun_history (I := fun h _ ue => event.counter ue.choNtnStats =
    (counted P env i h).count event) run ?_ ?_ present
  · intro row _
    cases event <;> rfl
  · intro h c p c' ue prior step present _ counts
    have gained := event.counter_foldl ue.books (ueAction P env i p.ev p.ts ue).2
    rw [← books_ueAction perUe] at gained
    rw [counted_snoc, List.count_append, ← counts]
    unfold countedBy
    dsimp only
    rw [present]
    exact gained

/-- No action of a tick is a completed handover. -/
theorem TickAction.success_not_mem {simTime : ℚ} {ue : UeInfo} {result : UeInfo × List Effect}
    (action : TickAction P env i simTime ue result) :
    ChoEvent.success ∉ result.2.filterMap Effect.event := by
  have records : ∀ l : List RecordEffect, (l.map Effect.record).filterMap Effect.event = [] := by
    intro l
    rw [List.filterMap_map]
    exact List.filterMap_eq_nil_iff.mpr fun _ _ => rfl
  cases action with
  | quiet l => simp [records]
  | timer => simp
  | expires => simp [choConfigExpired, Effect.event, StatOp.event]
  | executes start evaluating =>
      unfold choPhase6UeExecutes
      split
      · simp
      · simp [Effect.event, StatOp.event, choLog]
  | reports l report idle =>
      rw [List.filterMap_append, records, List.nil_append]
      unfold choTriggerProcedure
      split
      · simp
      · simp [Effect.event, StatOp.event, choLog]
  | reselects l => simp [records]

/-- Of the phases, a successful completion counts as a success. -/
theorem success_mem_choHandler_iff {handler : ChoHandler} {sourceCell targetCell : String}
    {simTime : ℚ} {ue : UeInfo} (guard : ue.choProcState.phase = handler.guard) :
    ChoEvent.success ∈
        (choHandler P env handler i sourceCell targetCell simTime ue).2.filterMap Effect.event ↔
      handler = .phase7ExecutionComplete ∧ choIsLinkViable env ue targetCell = true := by
  have advance : ∀ {expected next : ChoPhase} {delay : ℚ} {handler' : ChoHandler},
      ChoEvent.success ∉ (choAdvance expected next delay handler' i sourceCell targetCell simTime
        ue).2.filterMap Effect.event := by
    intro expected next delay handler'
    unfold choAdvance
    split <;> simp [Effect.event]
  cases handler with
  | phase1ReportArrived => exact iff_of_false advance (by simp)
  | phase2SendXnRequest => exact iff_of_false advance (by simp)
  | phase3XnResponse => exact iff_of_false advance (by simp)
  | phase4SendRrcReconfig =>
      refine iff_of_false ?_ (by simp)
      simp only [choHandler, choPhase4SendRrcReconfig]
      split <;> simp [Effect.event, StatOp.event]
  | phase5UeStoresConfig =>
      refine iff_of_false ?_ (by simp)
      simp only [choHandler, choPhase5UeStoresConfig]
      split <;> simp [Effect.event, StatOp.event, choLog]
  | phase7ExecutionComplete =>
      have executing : ue.choProcState.phase = .ueExecuting := guard
      simp only [choHandler, choPhase7ExecutionComplete]
      rw [if_neg (not_not.mpr executing)]
      split
      · rename_i viable
        exact iff_of_true List.mem_cons_self ⟨trivial, viable⟩
      · rename_i unviable
        refine iff_of_false ?_ fun succeeds => unviable succeeds.2
        simp [choHandleFailure, Effect.event, StatOp.event, choLog]

/-- A firing counts a success when it completes a handover. -/
theorem success_mem_countedBy_iff {f : Firing ℤ (Option UeInfo) Event}
    (prior : Run (ueHandler P env i) ok (ueInitial env rows i) h f.before)
    (step : Step (ueHandler P env i) ok f.before f.event f.after) :
    ChoEvent.success ∈ countedBy P env i f ↔ ∃ targetCell ue, HandsOver env i f targetCell ue := by
  obtain ⟨before, p, after⟩ := f
  dsimp only at prior step
  have concerns := (ueQueue_of_run prior p step.mem_queue).1
  unfold countedBy
  dsimp only
  cases present : before.state with
  | none =>
      refine iff_of_false List.not_mem_nil ?_
      rintro ⟨targetCell, ue, ⟨sourceCell, completes⟩, -⟩
      have some_ue := completes.before
      rw [show before.state = none from present] at some_ue
      cases some_ue
  | some ue =>
      rcases p with ⟨ts, _ | ⟨handler, ueId, sourceCell, targetCell⟩ | _⟩
      · obtain ⟨ue₁, -, action⟩ := ueTick_spec P env i (getSeconds ts) ue
        refine iff_of_false action.success_not_mem ?_
        rintro ⟨targetCell, ue, ⟨sourceCell, completes⟩, -⟩
        cases completes.event
      · obtain ⟨rfl, guard, -⟩ := guard_of_step prior step present
        refine (success_mem_choHandler_iff guard).trans ⟨?_, ?_⟩
        · rintro ⟨rfl, viable⟩
          exact ⟨targetCell, ue, ⟨sourceCell, rfl, present⟩, viable⟩
        · rintro ⟨targetCell', ue', ⟨sourceCell', completes⟩, viable⟩
          obtain rfl : ue = ue' := Option.some.inj (present.symm.trans completes.before)
          obtain ⟨rfl, -, -, rfl⟩ := Event.cho.inj completes.event
          exact ⟨rfl, viable⟩
      · cases concerns

end Run

/-! ## The text of a row -/

theorem splitOn_csvLine {fields : List Field} (plain : ∀ field ∈ fields, field.Plain)
    (some_field : fields ≠ []) : (csvLine fields).splitOn ',' = fields.map Field.text := by
  refine List.splitOn_intercalate ',' ?_ (by simpa using some_field)
  intro cell member
  obtain ⟨field, listed, rfl⟩ := List.mem_map.mp member
  exact plain field listed

theorem choLogHeader_splitOn : choLogHeader.splitOn ',' =
    ["time_s".toList, "ue_id".toList, "event".toList, "source_cell".toList, "target_cell".toList,
      "serving_sinr_dB".toList, "target_sinr_dB".toList, "delay_ms".toList, "value".toList,
      "notes".toList] := by decide +kernel

theorem showNat_injective {m n : ℕ} (same : showNat m = showNat n) : m = n := by
  rw [← ofDigitChars_showNat m, same, ofDigitChars_showNat]

theorem ChoEvent.name_plain (i : ℕ) (event : ChoEvent) : (Field.str (event.name i)).Plain := by
  cases event with
  | triggered => exact (by decide : (Field.str "CHO_TRIGGERED").Plain)
  | configStored => exact (by decide : (Field.str "CONFIG_STORED").Plain)
  | executionTriggered => exact (by decide : (Field.str "EXECUTION_TRIGGERED").Plain)
  | failure => exact (by decide : (Field.str "CHO_FAILURE").Plain)
  | success =>
      change ',' ∉ ("CHO_SUCCESS_UE" ++ toString i).toList
      rw [String.toList_append, List.mem_append, not_or]
      exact ⟨by decide, comma_not_mem_toString i⟩

/-- The first letters of the name of an event. -/
def ChoEvent.letters : ChoEvent → String
  | triggered => "CHO_TRIGGERED"
  | configStored => "CONFIG_STORED"
  | executionTriggered => "EXECUTION_TRI"
  | success => "CHO_SUCCESS_U"
  | failure => "CHO_FAILURE"

theorem ChoEvent.name_take (i : ℕ) (event : ChoEvent) :
    (event.name i).toList.take 13 = event.letters.toList := by
  cases event with
  | triggered => exact (by decide : "CHO_TRIGGERED".toList.take 13 = "CHO_TRIGGERED".toList)
  | configStored => exact (by decide : "CONFIG_STORED".toList.take 13 = "CONFIG_STORED".toList)
  | executionTriggered =>
      exact (by decide : "EXECUTION_TRIGGERED".toList.take 13 = "EXECUTION_TRI".toList)
  | failure => exact (by decide : "CHO_FAILURE".toList.take 13 = "CHO_FAILURE".toList)
  | success =>
      change ("CHO_SUCCESS_UE" ++ toString i).toList.take 13 = _
      rw [String.toList_append, List.take_append_of_le_length (by decide)]
      decide

theorem ChoEvent.name_injective {i : ℕ} {event event' : ChoEvent}
    (same : event.name i = event'.name i) : event = event' := by
  have letters := congrArg (fun s : String => s.toList.take 13) same
  rw [show (event.name i).toList.take 13 = _ from event.name_take i,
    show (event'.name i).toList.take 13 = _ from event'.name_take i] at letters
  cases event <;> cases event' <;> first | rfl | exact absurd letters (by decide)

/-- No name of the dataset has a comma in it. -/
def Link.PlainNames (L : Link) : Prop := ∀ name ∈ L.satellites.keys, ',' ∉ name.toList

theorem Link.PlainNames.of_knows {L : Link} (plain : L.PlainNames) {name : String}
    (knows : L.Knows name) : (Field.str name).Plain := by
  rcases knows with rfl | listed
  · exact List.not_mem_nil
  · exact plain name listed

theorem LogRow.plain {L : Link} (plain : L.PlainNames) {event : ChoEvent} {fields : List Field}
    (row : LogRow L i event fields) : ∀ field ∈ fields, field.Plain := by
  obtain ⟨sourceCell, targetCell, source, target, row⟩ := row
  cases row with
  | full _ time serving target' delayed valued noted =>
      simp only [List.mem_cons, List.not_mem_nil, or_false, forall_eq_or_imp, forall_eq]
      exact ⟨.num _, .nat _, event.name_plain i, plain.of_knows source, plain.of_knows target,
        serving, target', delayed, valued, noted⟩
  | success time servingSnr targetSnr delay snrImprovement =>
      simp only [List.mem_cons, List.not_mem_nil, or_false, forall_eq_or_imp, forall_eq]
      exact ⟨.num _, ChoEvent.success.name_plain i, plain.of_knows source, plain.of_knows target,
        .num _, .num _, .num _, .num _, by decide⟩

/-- A full row has its fields in the columns of the header. -/
theorem LogRow.columns {L : Link} (plain : L.PlainNames) {event : ChoEvent} {fields : List Field}
    (row : LogRow L i event fields) (other : event ≠ .success) :
    ((csvLine fields).splitOn ',').length = (choLogHeader.splitOn ',').length ∧
      choLogColumn "ue_id" (csvLine fields) = some (showNat i) ∧
      choLogColumn "event" (csvLine fields) = some (event.name i).toList := by
  have plainRow := row.plain plain
  obtain ⟨sourceCell, targetCell, -, -, row⟩ := row
  cases row with
  | success => exact absurd rfl other
  | full =>
      unfold choLogColumn
      rw [splitOn_csvLine plainRow (List.cons_ne_nil _ _), choLogHeader_splitOn]
      exact ⟨rfl, rfl, rfl⟩

/-- A success row lacks a field. -/
theorem LogRow.success_length {L : Link} (plain : L.PlainNames) {fields : List Field}
    (row : LogRow L i .success fields) :
    ((csvLine fields).splitOn ',').length ≠ (choLogHeader.splitOn ',').length := by
  have plainRow := row.plain plain
  obtain ⟨sourceCell, targetCell, -, -, row⟩ := row
  cases row with
  | full other => exact absurd rfl other
  | success =>
      rw [splitOn_csvLine plainRow (List.cons_ne_nil _ _), choLogHeader_splitOn]
      simp

/-! ## The whole file -/

/-- The row is that of an event of UE `i`, as a full row shows it. -/
def rowMatches (i : ℕ) (event : ChoEvent) (fields : List Field) : Bool :=
  decide (fields[1]? = some (.nat i)) && decide (fields[2]? = some (.str (event.name i)))

theorem LogRow.rowMatches_iff {L : Link} {j : ℕ} {event event' : ChoEvent} {fields : List Field}
    (row : LogRow L j event fields) (other : event ≠ .success) :
    rowMatches i event' fields = true ↔ j = i ∧ event = event' := by
  obtain ⟨sourceCell, targetCell, -, -, row⟩ := row
  cases row with
  | success => exact absurd rfl other
  | full =>
      simp only [rowMatches, List.getElem?_cons_succ, List.getElem?_cons_zero, Option.some.injEq,
        Field.nat.injEq, Field.str.injEq, Bool.and_eq_true, decide_eq_true_eq]
      constructor
      · rintro ⟨rfl, same⟩
        exact ⟨rfl, ChoEvent.name_injective same⟩
      · rintro ⟨rfl, rfl⟩
        exact ⟨rfl, rfl⟩

theorem TdCho.ownLines_rows (i : ℕ) (event : ChoEvent) :
    OwnLines tdCho env i fun line => (line.choRow.map (rowMatches i event)).getD false where
  others other member := by
    cases prints_of_mem member with
    | early printed =>
        cases printed with
        | evaluation recorded =>
            rcases TdCho.mem_records recorded with ⟨fields, rfl⟩ | ⟨rest, rfl⟩ <;> rfl
        | row time rest => simp [LogLine.choRow, rowMatches, other]
    | success => simp [LogLine.choRow, rowMatches]
    | result => rfl
    | complete => rfl
    | failure => rfl
  validation := rfl
  followup := rfl
  future := rfl

/-- Corresponding lists agree in how many of their members are selected. -/
theorem countP_of_forall₂ {α β : Type} {R : α → β → Prop} {p : α → Bool} {q : β → Bool}
    {l : List α} {l' : List β} (related : List.Forall₂ R l l')
    (agree : ∀ a ∈ l, ∀ b, R a b → p a = q b) : l.countP p = l'.countP q := by
  induction related with
  | nil => rfl
  | @cons a b l l' related _ ih =>
      rw [List.countP_cons, List.countP_cons, agree a List.mem_cons_self b related,
        ih fun a member => agree a (List.mem_cons_of_mem _ member)]

theorem exists_of_forall₂ {α β : Type} {R : α → β → Prop} {l : List α} {l' : List β}
    (related : List.Forall₂ R l l') {b : β} (member : b ∈ l') : ∃ a ∈ l, R a b := by
  induction related with
  | nil => cases member
  | @cons a b' l l' first _ ih =>
      rcases List.mem_cons.mp member with rfl | later
      · exact ⟨a, List.mem_cons_self, first⟩
      · obtain ⟨a, listed, relates⟩ := ih later
        exact ⟨a, List.mem_cons_of_mem _ listed, relates⟩

section Log

variable {rows : List UeRow} {h : List (Firing ℤ Sim Event)} {c : Conf ℤ Sim Event}

/-- Every row of the log is that of an event that some UE counts. -/
theorem TdCho.exists_of_mem_log (run : AnyOrderRun tdCho env rows h c) {fields : List Field}
    (member : fields ∈ c.state.log.filterMap LogLine.choRow) :
    ∃ j < c.state.ues.length, ∃ event ∈ counted tdCho env j (ueHistory tdCho env j h),
      LogRow env.link j event fields := by
  obtain ⟨line, logged, row⟩ := List.mem_filterMap.mp member
  cases line with
  | stdout => cases row
  | csv file cells =>
      by_cases named : file = "cho-detailed-log"
      case neg => cases (if_neg named).symm.trans row
      case pos =>
        subst named
        obtain rfl := Option.some.inj row
        obtain ⟨j, printed⟩ := printed_of_mem_log (by rfl) run logged
        obtain ⟨event, counts, logs⟩ := exists_of_forall₂ (TdCho.rows_of_run (run.toUe j))
          (List.mem_filterMap.mpr ⟨_, printed, rfl⟩)
        refine ⟨j, ?_, event, counts, logs⟩
        obtain ⟨f, listed, counts⟩ := List.mem_flatMap.mp counts
        unfold countedBy at counts
        split at counts
        · cases counts
        · rename_i present
          obtain ⟨last, stays⟩ : ∃ last, c.state.ues[j]? = some last :=
            Option.isSome_iff_exists.mp (ueRun_isSome_of_mem (run.toUe j) listed present)
          exact (List.getElem?_eq_some_iff.mp stays).1

/-- The rows of an event of a UE are as many as the UE counts. -/
theorem TdCho.countP_rows (run : AnyOrderRun tdCho env rows h c) {i : ℕ}
    (unfinished : ChoEvent.success ∉ counted tdCho env i (ueHistory tdCho env i h))
    (event : ChoEvent) :
    (c.state.log.filterMap LogLine.choRow).countP (rowMatches i event) =
      (counted tdCho env i (ueHistory tdCho env i h)).count event := by
  have own := log_of_run (@TdCho.ownLines_rows env i event) run
  have agree := countP_of_forall₂ (p := fun e => e == event) (q := rowMatches i event)
    (TdCho.rows_of_run (run.toUe i)) (by
      intro e counts fields row
      have other : e ≠ .success := fun same => unfinished (same ▸ counts)
      have matched : rowMatches i event fields = true ↔ i = i ∧ e = event := row.rowMatches_iff other
      rw [Bool.eq_iff_iff, matched, beq_iff_eq]
      simp)
  rw [List.countP_filterMap, List.countP_eq_length_filter, own, ← List.countP_eq_length_filter,
    ← List.countP_filterMap]
  exact agree.symm

theorem success_mem_counted_iff (run : AnyOrderRun tdCho env rows h c) {i : ℕ} :
    ChoEvent.success ∈ counted tdCho env i (ueHistory tdCho env i h) ↔
      ∃ f ∈ ueHistory tdCho env i h, ∃ targetCell ue, HandsOver env i f targetCell ue := by
  unfold counted
  rw [List.mem_flatMap]
  refine exists_congr fun f => and_congr_right fun member => ?_
  obtain ⟨h₁, h₂, split⟩ := List.append_of_mem member
  have own := run.toUe i
  rw [show (ueComponent tdCho env i).history h = _ from split] at own
  exact success_mem_countedBy_iff own.split.1 own.split.2

/-- Without a completed handover every row is full, and the rows are as many as the events. -/
theorem TdCho.transcript (run : AnyOrderRun tdCho env rows h c) (plain : env.link.PlainNames)
    (unfinished : ∀ i, ChoEvent.success ∉ counted tdCho env i (ueHistory tdCho env i h)) :
    Transcript c.state := by
  have full : ∀ fields ∈ c.state.log.filterMap LogLine.choRow, ∃ j < c.state.ues.length,
      ∃ event : ChoEvent, event ≠ .success ∧ LogRow env.link j event fields := by
    intro fields member
    obtain ⟨j, bound, event, counts, row⟩ := exists_of_mem_log run member
    exact ⟨j, bound, event, fun same => unfinished j (same ▸ counts), row⟩
  refine ⟨fun row member => ?_, fun row member => ?_, fun i ue present event => ?_⟩
  · obtain ⟨fields, listed, rfl⟩ := List.mem_map.mp member
    obtain ⟨j, -, event, other, row⟩ := full fields listed
    exact (row.columns plain other).1
  · obtain ⟨fields, listed, rfl⟩ := List.mem_map.mp member
    obtain ⟨j, bound, event, other, row⟩ := full fields listed
    exact ⟨j, bound, event, (row.columns plain other).2⟩
  · rw [counter_of_run rfl (run.toUe i) present, ← countP_rows run (unfinished i), choLogRows,
      List.countP_map]
    refine List.countP_congr fun fields listed => ?_
    obtain ⟨j, -, event', other, row⟩ := full fields listed
    obtain ⟨-, ueId, name⟩ := row.columns plain other
    rw [row.rowMatches_iff other]
    simp only [Function.comp_apply, ueId, name, Option.some.injEq, Bool.and_eq_true,
      decide_eq_true_eq]
    constructor
    · rintro ⟨number, text⟩
      obtain rfl := showNat_injective number
      exact ⟨rfl, ChoEvent.name_injective (String.toList_inj.mp text)⟩
    · rintro ⟨rfl, rfl⟩
      exact ⟨rfl, rfl⟩

/-- **The detailed log.** When no satellite has a comma in its name, the log of a run is a transcript
of it exactly if the run completes no handover. -/
theorem transcript_iff (run : AnyOrderRun tdCho env rows h c) (plain : env.link.PlainNames) :
    Transcript c.state ↔ ∀ i, ∀ f ∈ ueHistory tdCho env i h, ∀ targetCell ue,
      ¬ HandsOver env i f targetCell ue := by
  constructor
  · intro transcript i f member targetCell ue handsOver
    have counts := (success_mem_counted_iff run).mpr ⟨f, member, targetCell, ue, handsOver⟩
    obtain ⟨sourceCell, completes⟩ := handsOver.completes
    obtain ⟨last, present⟩ : ∃ last, c.state.ues[i]? = some last :=
      Option.isSome_iff_exists.mp (ueRun_isSome_of_mem (run.toUe i) member completes.before)
    have counter := transcript.counted i last present .success
    rw [counter_of_run rfl (run.toUe i) present] at counter
    have some_row : 0 < (counted tdCho env i (ueHistory tdCho env i h)).count .success :=
      List.count_pos_iff.mpr counts
    rw [← counter, List.countP_pos_iff] at some_row
    obtain ⟨row, listed, matched⟩ := some_row
    have length := transcript.fields row listed
    obtain ⟨fields, logged, rfl⟩ := List.mem_map.mp listed
    obtain ⟨j, -, event, -, logs⟩ := TdCho.exists_of_mem_log run logged
    by_cases success : event = .success
    · subst success
      exact logs.success_length plain length
    · obtain ⟨-, ueId, name⟩ := logs.columns plain success
      rw [ueId, name] at matched
      simp only [Option.some.injEq, Bool.and_eq_true, decide_eq_true_eq] at matched
      obtain ⟨number, text⟩ := matched
      obtain rfl := showNat_injective number
      exact success (ChoEvent.name_injective (String.toList_inj.mp text))
  · intro unfinished
    refine TdCho.transcript run plain fun i counts => ?_
    obtain ⟨f, member, targetCell, ue, handsOver⟩ := (success_mem_counted_iff run).mp counts
    exact unfinished i f member targetCell ue handsOver

end Log

/-- Up to the evaluation of its configuration the log of `crossing` is a transcript. -/
theorem transcript_iff_crossing :
    Transcript (sampleRun tdCho crossing sampleRows 9).2.state := by
  have running : ∀ f ∈ (sampleRun tdCho crossing sampleRows 9).1,
      f.event.ev.isCompletion = false := by decide +kernel
  have plain : crossing.link.PlainNames := by
    unfold Link.PlainNames
    decide +kernel
  refine (transcript_iff (simRun_sampleRun tdCho crossing sampleRows 9).anyOrder plain).mpr ?_
  rintro i f member targetCell ue ⟨⟨sourceCell, completes⟩, -⟩
  obtain ⟨g, fired, -, rfl⟩ := (ueComponent tdCho crossing i).mem_history.mp member
  have early := running g fired
  have event : g.event.ev = .cho .phase7ExecutionComplete i sourceCell targetCell := completes.event
  rw [event] at early
  cases early

/-- The row of the handover of `crossing` has nine fields. -/
theorem transcript_misses_field :
    ¬ ∀ {env : Env} {rows : List UeRow} {h : List (Firing ℤ Sim Event)} {c : Conf ℤ Sim Event},
      SimRun tdCho env rows h c → env.link.PlainNames → Transcript c.state := by
  intro always
  have plain : crossing.link.PlainNames := by
    unfold Link.PlainNames
    decide +kernel
  have short : ∃ row ∈ choLogRows (sampleRun tdCho crossing sampleRows 11).2.state.log,
      (row.splitOn ',').length = 9 := by decide +kernel
  obtain ⟨row, logged, length⟩ := short
  have full := (always (simRun_sampleRun tdCho crossing sampleRows 11) plain).fields row logged
  rw [length, choLogHeader_splitOn] at full
  cases full

end NtnCho
