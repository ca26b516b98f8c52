import NtnCho.Timeline

/-!
# Isolation of the UEs

All UEs share the event queue and the global variables, and the simulator goes through them in one
loop. Yet the events of UE `i` see of this only UE `i`: `ueComponent` is a component, its events
conflict with each other, so the run of the UE is determined by its row and its index. Neither the
other rows nor the order of same-time events of different UEs matters.
-/

namespace NtnCho

open EventSystem

variable {P : Program} {env : Env}

/-- What UE `i` goes through in a history: its ticks and its own phases, each with the state of the
UE and its pending events before and after. -/
abbrev ueHistory (P : Program) (env : Env) (i : ℕ) (h : List (Firing ℤ Sim Event)) :
    List (Firing ℤ (Option UeInfo) Event) := (ueComponent P env i).history h

/-- The start of a simulation, seen from UE `i`, depends on the row of this UE alone. -/
theorem ueComponent_initial_congr {rows rows' : List UeRow} {i : ℕ} (same : rows[i]? = rows'[i]?) :
    (ueComponent P env i).conf (initial env rows) =
      (ueComponent P env i).conf (initial env rows') := by
  rw [ueComponent_initial, ueComponent_initial, ueInitial, ueInitial, same]

/-- UE `i` has passed through the same events in two runs that have both passed `t`. -/
theorem ueHistory_until (lawful : P.Lawful) {rows rows' : List UeRow} {i : ℕ}
    {h h' : List (Firing ℤ Sim Event)} {c c' : Conf ℤ Sim Event} {t : ℤ}
    (run : SimRun P env rows h c) (run' : SimRun P env rows' h' c')
    (same : rows[i]? = rows'[i]?) (passed : ∀ q ∈ c.queue, t < q.ts)
    (passed' : ∀ q ∈ c'.queue, t < q.ts) :
    (ueHistory P env i h).filter (fun f => f.event.ts ≤ t) =
      (ueHistory P env i h').filter (fun f => f.event.ts ≤ t) := by
  have start := congrArg Conf.state (ueComponent_initial P env rows' i)
  have onTime : UeOnTime P env ((ueComponent P env i).view (initial env rows').state) := by
    rw [show (ueComponent P env i).view (initial env rows').state = _ from start]
    exact onTime_ueInitial rows' i
  exact Component.isolation_until Event.conflict_of_concerns (ueHandler_forward lawful i) onTime run
    run' (ueComponent_initial_congr same) passed passed'

/-- **Isolation of the UEs.** In two runs with the same dataset, seed and parameters whose UE lists
agree at index `i`, UE `i` goes through the same states at the same times, as far as both runs go;
and two runs that have both passed `t` agree for UE `i` up to `t`. -/
theorem ue_isolation {rows rows' : List UeRow} {i : ℕ} {h h' : List (Firing ℤ Sim Event)}
    {c c' : Conf ℤ Sim Event} (run : SimRun tdCho env rows h c)
    (run' : SimRun tdCho env rows' h' c') (same : rows[i]? = rows'[i]?) :
    (ueHistory tdCho env i h <+: ueHistory tdCho env i h' ∨
        ueHistory tdCho env i h' <+: ueHistory tdCho env i h) ∧
      ∀ t, (∀ q ∈ c.queue, t < q.ts) → (∀ q ∈ c'.queue, t < q.ts) →
        (ueHistory tdCho env i h).filter (fun f => f.event.ts ≤ t) =
          (ueHistory tdCho env i h').filter (fun f => f.event.ts ≤ t) := by
  refine ⟨?_, fun t passed passed' => ueHistory_until TdCho.lawful run run' same passed passed'⟩
  exact Component.isolation Event.conflict_of_concerns run run' (ueComponent_initial_congr same)

theorem ue_isolation_crossing :
    ueHistory tdCho crossing 0 (sampleRun tdCho crossing sampleRows 5).1 <+:
        ueHistory tdCho crossing 0
          (sampleRun tdCho crossing (sampleRows ++ [⟨1, 2, "Urban"⟩]) 8).1 ∨
      ueHistory tdCho crossing 0
          (sampleRun tdCho crossing (sampleRows ++ [⟨1, 2, "Urban"⟩]) 8).1 <+:
        ueHistory tdCho crossing 0 (sampleRun tdCho crossing sampleRows 5).1 :=
  (ue_isolation (simRun_sampleRun tdCho crossing sampleRows 5)
    (simRun_sampleRun tdCho crossing (sampleRows ++ [⟨1, 2, "Urban"⟩]) 8) rfl).1

end NtnCho
