import Mathlib.Algebra.Order.BigOperators.Group.List
import Mathlib.Tactic.Linarith
import NtnCho.UdpExample

/-!
# The delivery ratio

A row of the log divides the packets that have been received since the last row by those that have been
sent. A packet in flight at a row is sent in one second and received in another.

* `conservation` counts the packets of a part of a run by what is in flight at its two ends.
* `pdr_eq_iff` says when the PDR of a row is the delivery percentage of its second: when as many packets
  are in flight at the row as at the last one.
* A PDR above 100 is what the clamp of `smooth_rows` hides.
-/

namespace NtnCho

open EventSystem StateFile

namespace UdpExample

variable {E : Setting} {h h₁ h₂ : List (Firing ℤ State UdpEvent)} {f : Firing ℤ State UdpEvent}
  {c : Conf ℤ State UdpEvent}

/-- The packets sent in a part of a run. -/
def sentIn (E : Setting) (h : List (Firing ℤ State UdpEvent)) : List Packet := h.flatMap (transmitted E)

/-- The packets received in a part of a run. -/
def receivedIn (E : Setting) (h : List (Firing ℤ State UdpEvent)) : List Packet := h.flatMap (delivered E)

theorem sentIn_append (h h' : List (Firing ℤ State UdpEvent)) :
    sentIn E (h ++ h') = sentIn E h ++ sentIn E h' := List.flatMap_append

theorem receivedIn_append (h h' : List (Firing ℤ State UdpEvent)) :
    receivedIn E (h ++ h') = receivedIn E h ++ receivedIn E h' := List.flatMap_append

/-- The packets in flight where a history is cut: sent in the first part and received in the second. -/
def inFlight (E : Setting) (h h' : List (Firing ℤ State UdpEvent)) : ℕ :=
  underWay (sentIn E h) (receivedIn E h')

/-- How much of what is sent is received, in percent, and 100 when nothing is sent. -/
def deliveryPercentage (sent received : List Packet) : ℚ :=
  if sent = [] then 100 else underWay sent received / sent.length * 100

theorem deliveryPercentage_mem (sent received : List Packet) :
    0 ≤ deliveryPercentage sent received ∧ deliveryPercentage sent received ≤ 100 := by
  unfold deliveryPercentage
  split
  · norm_num
  · have le : (underWay sent received : ℚ) ≤ sent.length := by exact_mod_cast underWay_le sent received
    have ratio : (underWay sent received : ℚ) / sent.length ≤ 1 := div_le_one_of_le₀ le (Nat.cast_nonneg _)
    have nonneg : (0 : ℚ) ≤ underWay sent received / sent.length := by positivity
    constructor <;> linarith

/-! ## Counting -/

/-- **Conservation.** What is received in the part `b` of a run is what is sent in it and received at some
time, but for what is in flight at its two ends. -/
theorem conservation {a b d : List (Firing ℤ State UdpEvent)} (run : UdpRun E (a ++ (b ++ d)) c) :
    (receivedIn E b).length + inFlight E (a ++ b) d =
      underWay (sentIn E b) (receivedIn E (a ++ (b ++ d))) + inFlight E a (b ++ d) := by
  have whole : Monitored c.state (sentIn E (a ++ (b ++ d))) (receivedIn E (a ++ (b ++ d))) :=
    monitored_of_run run
  obtain ⟨_, first⟩ := run.exists_of_append
  have before : receivedIn E a ⊆ sentIn E a := (monitored_of_run first).begun
  rw [← List.append_assoc] at run
  obtain ⟨_, prior⟩ := run.exists_of_append
  have begun : receivedIn E (a ++ b) ⊆ sentIn E (a ++ b) := (monitored_of_run prior).begun
  have once : (sentIn E (a ++ b)).Nodup := (monitored_of_run prior).sentOnce
  have once' := whole.receivedOnce
  rw [sentIn_append] at begun once
  rw [receivedIn_append] at begun
  rw [receivedIn_append, receivedIn_append] at once'
  obtain ⟨-, onceBehind, apart⟩ := List.nodup_append'.mp once'
  have notYet : underWay (sentIn E b) (receivedIn E a) = 0 :=
    underWay_eq_zero before (List.nodup_append'.mp once).2.2
  rw [inFlight, inFlight, sentIn_append, receivedIn_append, receivedIn_append,
    underWay_ended_append apart, notYet, zero_add]
  exact length_add_underWay once onceBehind (List.append_subset.mp begun).2

/-- The PDR, by what is sent and received since the last row. -/
theorem pdr_of_run (run : UdpRun E h c) :
    c.state.pdr =
      if sentIn E (sinceRow h) = [] then 100
      else ((receivedIn E (sinceRow h)).length : ℚ) / (sentIn E (sinceRow h)).length * 100 := by
  have monitored : Monitored c.state (sentIn E h) (receivedIn E h) := monitored_of_run run
  obtain ⟨prevTx, prevRx, -⟩ := log_of_run run
  have deltaTx : c.state.monitor.totalTx - c.state.prevTxPackets = (sentIn E (sinceRow h)).length := by
    rw [monitored.totalTx, prevTx, ← logged_append_sinceRow h, sentIn_append]
    simp [logged_append_sinceRow, sentIn]
  have deltaRx : c.state.monitor.totalRx - c.state.prevRxPackets = (receivedIn E (sinceRow h)).length := by
    rw [monitored.totalRx, prevRx, ← logged_append_sinceRow h, receivedIn_append]
    simp [logged_append_sinceRow, receivedIn]
  rw [State.pdr, deltaTx, deltaRx]
  simp only [List.length_pos_iff]
  split <;> simp_all

/-! ## Rows -/

/-- Nothing has been sent since the last row, or as many packets are in flight at this row as at the last
one. -/
def SteadyRow (E : Setting) (h₁ h₂ : List (Firing ℤ State UdpEvent)) : Prop :=
  sentIn E (sinceRow h₁) = [] ∨ inFlight E (logged h₁) (sinceRow h₁ ++ h₂) = inFlight E h₁ h₂

instance : Decidable (SteadyRow E h₁ h₂) := inferInstanceAs (Decidable (_ ∨ _))

/-- The row that `f` logs is about the second before it, and its PDR is the percentage of the packets sent
in this second that are received. -/
structure FaithfulRow (E : Setting) (h₁ : List (Firing ℤ State UdpEvent)) (f : Firing ℤ State UdpEvent)
    (h₂ : List (Firing ℤ State UdpEvent)) : Prop where
  interval : ∀ g ∈ sinceRow h₁, f.event.ts - seconds 1 ≤ g.event.ts ∧ g.event.ts ≤ f.event.ts
  pdr_mem : 0 ≤ f.before.state.pdr ∧ f.before.state.pdr ≤ 100
  pdr_eq : f.before.state.pdr =
    deliveryPercentage (sentIn E (sinceRow h₁)) (receivedIn E (h₁ ++ f :: h₂))

theorem pdr_eq_iff (run : UdpRun E (h₁ ++ f :: h₂) c) :
    f.before.state.pdr = deliveryPercentage (sentIn E (sinceRow h₁)) (receivedIn E (h₁ ++ f :: h₂)) ↔
      SteadyRow E h₁ (f :: h₂) := by
  rw [pdr_of_run run.split.1, deliveryPercentage, SteadyRow]
  by_cases idle : sentIn E (sinceRow h₁) = []
  case pos => simp [idle]
  case neg =>
    have positive : ((sentIn E (sinceRow h₁)).length : ℚ) ≠ 0 := by
      simpa using idle
    have whole : h₁ ++ f :: h₂ = logged h₁ ++ (sinceRow h₁ ++ f :: h₂) := by
      rw [← List.append_assoc, logged_append_sinceRow]
    have count := conservation (whole ▸ run)
    rw [← whole, logged_append_sinceRow] at count
    rw [if_neg idle, if_neg idle, or_iff_right idle, mul_left_inj' (by norm_num), div_left_inj' positive,
      Nat.cast_inj]
    omega

/-- **A row.** -/
theorem faithfulRow_iff (run : UdpRun E (h₁ ++ f :: h₂) c) (row : logs f = true) :
    FaithfulRow E h₁ f h₂ ↔ SteadyRow E h₁ (f :: h₂) := by
  constructor
  · intro faithful
    exact (pdr_eq_iff run).mp faithful.pdr_eq
  · intro steady
    have same := (pdr_eq_iff run).mpr steady
    exact
      { interval := fun g member => events_between run row member
        pdr_mem := same ▸ deliveryPercentage_mem ..
        pdr_eq := same }

/-! ## The log -/

/-- The rows of a run, and what the emulator makes of them: averages that the clamp leaves alone. -/
structure FaithfulLog (E : Setting) (h : List (Firing ℤ State UdpEvent)) (c : Conf ℤ State UdpEvent) :
    Prop where
  fullLog : c.state.fullLog = (h.filter logs).map fun f => f.before.state.logRow E f.event.ts
  rows : ∀ h₁ f h₂, h = h₁ ++ f :: h₂ → logs f = true → FaithfulRow E h₁ f h₂
  clamp : ∀ window ≠ [], window ⊆ c.state.fullLog → ∀ startTime windowSeconds satellite index,
    (smoothed startTime windowSeconds satellite index window).pdr =
      Frames.decimals 6 (mean (window.map Row.pdr) / 100)

/-- Every row is steady. -/
def Steady (E : Setting) (h : List (Firing ℤ State UdpEvent)) : Prop :=
  ∀ h₁ f h₂, h = h₁ ++ f :: h₂ → logs f = true → SteadyRow E h₁ (f :: h₂)

theorem steady_iff : Steady E h ↔
    ∀ n < h.length, ∀ f ∈ h[n]?, logs f = true → SteadyRow E (h.take n) (h.drop n) := by
  constructor
  · intro steady n inside f found row
    obtain ⟨_, rfl⟩ := List.getElem?_eq_some_iff.mp found
    rw [List.drop_eq_getElem_cons inside]
    refine steady _ _ _ ?_ row
    rw [← List.drop_eq_getElem_cons inside, List.take_append_drop]
  · intro steady h₁ f h₂ split row
    subst split
    have here := steady h₁.length (by simp) f (by simp) row
    rwa [List.take_left, List.drop_left] at here

instance : Decidable (Steady E h) := decidable_of_iff _ steady_iff.symm

/-- A row neither sends nor receives. -/
theorem nothing_of_logs (row : logs f = true) : transmitted E f = [] ∧ delivered E f = [] := by
  have update : f.event.ev = .updateChannelConditions := of_decide_eq_true row
  unfold transmitted delivered
  rw [update]
  exact ⟨rfl, rfl⟩

theorem inFlight_row (row : logs f = true) (h h' : List (Firing ℤ State UdpEvent)) :
    inFlight E (h ++ [f]) h' = inFlight E h (f :: h') := by
  obtain ⟨sends, receives⟩ := @nothing_of_logs E f row
  simp [inFlight, sentIn, receivedIn, sends, receives]

/-- Where something is sent in every second, as by a client that sends every millisecond, the rows are
steady only if nothing is ever in flight at a row. -/
theorem inFlight_eq_zero (steady : Steady E h)
    (busy : ∀ h₁ f h₂, h = h₁ ++ f :: h₂ → logs f = true → logged h₁ ≠ [] → sentIn E (sinceRow h₁) ≠ [])
    (split : h = h₁ ++ f :: h₂) (row : logs f = true) : inFlight E h₁ (f :: h₂) = 0 := by
  -- by induction on the rows before `f`
  induction hn : h₁.length using Nat.strong_induction_on generalizing h₁ f h₂ with
  | _ n ih =>
      subst hn
      have whole := logged_append_sinceRow h₁
      rcases steady h₁ f h₂ split row with idle | same
      · have first : logged h₁ = [] := by
          by_contra later
          exact busy h₁ f h₂ split row later idle
        rw [first, List.nil_append] at whole
        rw [inFlight, ← whole, idle]
        rfl
      · rw [← same]
        rcases List.eq_nil_or_concat (logged h₁) with first | ⟨h₀, e, last⟩
        · rw [first]
          rfl
        · rw [List.concat_eq_append] at last
          have row' := logs_of_logged last
          rw [last, inFlight_row row']
          rw [last] at whole
          have shorter : h₀.length < h₁.length := by
            rw [← whole]
            simp
          refine ih h₀.length shorter ?_ row' rfl
          rw [split]
          nth_rewrite 1 [← whole]
          simp

/-- Percentages are averaged without the clamp. -/
theorem smoothed_pdr {window : List Row} (some_row : window ≠ [])
    (percentages : ∀ row ∈ window, 0 ≤ row.pdr ∧ row.pdr ≤ 100) (startTime windowSeconds : ℚ)
    (satellite : String) (index : ℤ) :
    (smoothed startTime windowSeconds satellite index window).pdr =
      Frames.decimals 6 (mean (window.map Row.pdr) / 100) := by
  obtain ⟨lower, upper⟩ : 0 ≤ mean (window.map Row.pdr) ∧ mean (window.map Row.pdr) ≤ 100 := by
    refine mean_mem (by simpa using some_row) fun x member => ?_
    obtain ⟨row, inWindow, rfl⟩ := List.mem_map.mp member
    exact percentages row inWindow
  rw [smoothed, max_eq_right (by positivity), min_eq_right (by linarith)]

/-- **The log of a run.** -/
theorem faithfulLog_iff (run : UdpRun E h c) : FaithfulLog E h c ↔ Steady E h := by
  constructor
  · intro faithful h₁ f h₂ split row
    subst split
    exact (faithfulRow_iff run row).mp (faithful.rows h₁ f h₂ rfl row)
  · intro steady
    obtain ⟨-, -, fullLog⟩ := log_of_run run
    have rows : ∀ h₁ f h₂, h = h₁ ++ f :: h₂ → logs f = true → FaithfulRow E h₁ f h₂ := by
      intro h₁ f h₂ split row
      subst split
      exact (faithfulRow_iff run row).mpr (steady h₁ f h₂ rfl row)
    refine ⟨fullLog, rows, fun window some_row inLog => smoothed_pdr some_row fun row member => ?_⟩
    have logged := inLog member
    rw [fullLog] at logged
    obtain ⟨f, fired, rfl⟩ := List.mem_map.mp logged
    obtain ⟨inRun, isRow⟩ := List.mem_filter.mp fired
    obtain ⟨h₁, h₂, split⟩ := List.append_of_mem inRun
    exact (rows h₁ f h₂ split isRow).pdr_mem

/-- The example with packets of the client at the given intervals, 550 km from the ground. -/
def exampleSetting (isCorrupt : Packet → Bool) (interval : ℕ → ℕ) (maxPackets : ℕ) : Setting where
  distance _ := 550000
  distance_nonneg _ := by norm_num
  isCorrupt := isCorrupt
  interval := interval
  maxPackets := maxPackets

theorem udpRun_runFifo (E : Setting) (n : ℕ) :
    UdpRun E (runFifo (udpHandler E) n (udpInitial E)).1 (runFifo (udpHandler E) n (udpInitial E)).2 :=
  (runFifo_run n _).mono timeOrder_of_fifo

/-- Packets at 0, 500 and 1200 ms; the echo of the first one is corrupted. -/
def betweenRows : Setting :=
  exampleSetting (· = ⟨.uplink, 0⟩) (fun sent => if sent = 1 then 500000000 else 700000000) 3

theorem faithfulLog_betweenRows :
    ∃ h c, UdpRun betweenRows h c ∧ c.state.fullLog.map Row.pdr = [100, 75, 100] ∧
      FaithfulLog betweenRows h c := by
  have run := udpRun_runFifo betweenRows 20
  exact ⟨_, _, run, by decide +kernel, (faithfulLog_iff run).mpr (by decide +kernel)⟩

/-- Packets at 0 and 998 ms; nothing is lost, but the second packet is in flight at the row of 1 s. -/
def acrossRow : Setting := exampleSetting (fun _ => false) (fun _ => 998000000) 2

theorem not_faithfulLog_acrossRow :
    ∃ h c, UdpRun acrossRow h c ∧ (sentIn acrossRow h).length = 4 ∧ (receivedIn acrossRow h).length = 4 ∧
      c.state.fullLog.map Row.pdr = [100, 200 / 3, 200] ∧ ¬ FaithfulLog acrossRow h c := by
  have run := udpRun_runFifo acrossRow 15
  have log : (runFifo (udpHandler acrossRow) 15 (udpInitial acrossRow)).2.state.fullLog.map Row.pdr =
      [100, 200 / 3, 200] := by
    decide +kernel
  refine ⟨_, _, run, by decide +kernel, by decide +kernel, log, fun faithful => ?_⟩
  obtain ⟨row, inLog, doubled⟩ := List.mem_map.mp
    (show (200 : ℚ) ∈ (runFifo (udpHandler acrossRow) 15 (udpInitial acrossRow)).2.state.fullLog.map Row.pdr
      by rw [log]; simp)
  -- the average of this row alone is 2, which the clamp takes to 1
  have clamp := faithful.clamp [row] (by simp) (by simpa using inLog) 0 10 "" 0
  simp only [smoothed, List.map_cons, List.map_nil, doubled] at clamp
  exact absurd clamp (by decide +kernel)

end UdpExample

end NtnCho
