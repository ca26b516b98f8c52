import NtnCho.Channel

/-!
# The tables of a scenario

The table getters tell four kinds of scenarios apart. `UpdateSatelliteState` tells urban from not urban and
calls the getters with a scenario of its own, so a UE in a dense urban or a suburban scenario is computed with
the tables of another one (`scenario_tables_iff`).
-/

namespace NtnCho

/-- The scenario of a UE without a trailing carriage return. -/
def withoutReturn (scenario : String) : String :=
  if scenario.back = '\r' then (scenario.dropEnd 1).toString else scenario

theorem lowerScenario_eq (scenario : String) :
    lowerScenario scenario = (withoutReturn scenario).map Char.toLower := rfl

/-- The table of `GetRicianKFactorDb`. -/
def getRicianKTable (scenario : String) : Table :=
  byScenario scenario ricianKDbDenseUrban ricianKDbUrban ricianKDbSuburban ricianKDbRural

/-- The tables of a link; with a line of sight there is no clutter loss. -/
structure LinkTables where
  shadowFading : Table
  clutterLoss : Option Table
  ricianK : Table
  deriving DecidableEq

/-- What the getters select for a scenario. -/
def selectedTables (scenario : String) (isLOS : Bool) : LinkTables where
  shadowFading := if isLOS then getShadowFadingTable scenario else getShadowFadingTableNLOS scenario
  clutterLoss := if isLOS then none else some (getClutterLossTable scenario)
  ricianK := getRicianKTable scenario

/-- The scenario that `UpdateSatelliteState` calls the getters with. -/
def linkScenario (scenario : String) (isLOS : Bool) : String :=
  let isUrban := isUrbanScenario (lowerScenario scenario)
  if isLOS then (if isUrban then "Urban-LOS" else "Rural-LOS")
  else (if isUrban then "Urban-NLOS" else "Rural-NLOS")

/-- The tables that `UpdateSatelliteState` uses. -/
def usedTables (scenario : String) (isLOS : Bool) : LinkTables :=
  selectedTables (linkScenario scenario isLOS) isLOS

/-- The SNR of `UpdateSatelliteState` with given tables. -/
def LinkTables.snrDb (tables : LinkTables) (L : Link) (distance elevation dopplerShift sfFeature : ℚ)
    (gauss : ℚ × ℚ) : ℚ :=
  let libm := L.libm
  let frequencyGHz := L.frequency / 1000000000
  let fspl := 32.45 + 20 * libm.log10 frequencyGHz + 20 * libm.log10 distance
  let atmosLoss : ℚ := 0.2
  let tropLoss := (get3GPPParameter troposphericScintillation elevation).getD 0
  let clutterLoss :=
    match tables.clutterLoss with
    | none => 0
    | some table => (get3GPPParameter table elevation).getD 0
  let shadowStd := (get3GPPParameter tables.shadowFading elevation).getD 0
  let shadowFading := sfFeature * shadowStd
  let kFactorDb := (get3GPPParameter tables.ricianK elevation).getD 0
  let k := libm.pow 10 (kFactorDb / 10)
  let sigma := libm.sqrt (1 / (2 * (k + 1)))
  let s := libm.sqrt (k / (k + 1))
  let x := sigma * gauss.1
  let y := sigma * gauss.2
  let r := libm.sqrt (libm.pow (s + x) 2 + libm.pow y 2)
  let ricianFading := -20 * libm.log10 r
  let totalPathLoss := fspl + atmosLoss + tropLoss + clutterLoss + shadowFading + ricianFading
  let rxPower := L.txPower + L.txAntennaGain + L.rxGain - totalPathLoss
  let noisePowerDbm := -174 + 10 * libm.log10 L.bandwidth + L.noiseFigure
  let residualDoppler := |dopplerShift| * 0.01
  let frequencyOffsetRatio := residualDoppler / L.bandwidth
  let dopplerSnrLoss :=
    if 0.001 < frequencyOffsetRatio then 10 * libm.log10 (1 + frequencyOffsetRatio * 100) else 0
  rxPower - noisePowerDbm + L.fecCodingGain - dopplerSnrLoss

/-- The link budget uses these tables and the scenario in no other way. -/
theorem linkSnrDb_eq (L : Link) (geo : UeGeo) (distance elevation dopplerShift sfFeature : ℚ) (isLOS : Bool)
    (gauss : ℚ × ℚ) :
    linkSnrDb L geo distance elevation dopplerShift sfFeature isLOS gauss =
      (usedTables geo.scenario isLOS).snrDb L distance elevation dopplerShift sfFeature gauss := by
  cases isLOS <;> rfl

/-! ## The dispatch -/

section Dispatch

variable {α : Type} {scenario : String} (denseUrban urban suburban rural : α)

theorem byScenario_dense (dense : contains (scenario.map Char.toLower) "dense" = true) :
    byScenario scenario denseUrban urban suburban rural = denseUrban := by
  simp only [byScenario, dense, if_true]

theorem byScenario_urban (dense : contains (scenario.map Char.toLower) "dense" = false)
    (isUrban : isUrbanScenario (scenario.map Char.toLower) = true) :
    byScenario scenario denseUrban urban suburban rural = urban := by
  simp only [byScenario, dense, isUrban, Bool.false_eq_true, if_false, if_true]

theorem byScenario_notUrban (dense : contains (scenario.map Char.toLower) "dense" = false)
    (isUrban : isUrbanScenario (scenario.map Char.toLower) = false) :
    byScenario scenario denseUrban urban suburban rural =
      if contains (scenario.map Char.toLower) "suburban" then suburban else rural := by
  simp only [byScenario, dense, isUrban, Bool.false_eq_true, if_false]

/-- `UpdateSatelliteState` knows urban and rural only. -/
theorem byScenario_linkScenario (scenario : String) (isLOS : Bool) :
    byScenario (linkScenario scenario isLOS) denseUrban urban suburban rural =
      if isUrbanScenario (lowerScenario scenario) then urban else rural := by
  unfold linkScenario
  cases isUrbanScenario (lowerScenario scenario) with
  | true =>
      cases isLOS with
      | true => exact byScenario_urban _ _ _ _ (by decide +kernel) (by decide +kernel)
      | false => exact byScenario_urban _ _ _ _ (by decide +kernel) (by decide +kernel)
  | false =>
      have plain : ∀ name ∈ ["Rural-LOS", "Rural-NLOS"],
          byScenario name denseUrban urban suburban rural = rural := by
        intro name member
        have flags : ∀ name ∈ ["Rural-LOS", "Rural-NLOS"],
            contains (name.map Char.toLower) "dense" = false ∧
              isUrbanScenario (name.map Char.toLower) = false ∧
                contains (name.map Char.toLower) "suburban" = false := by decide +kernel
        obtain ⟨dense, isUrban, isSuburban⟩ := flags name member
        rw [byScenario_notUrban _ _ _ _ dense isUrban, isSuburban, if_neg Bool.false_ne_true]
      cases isLOS with
      | true => exact plain _ (by simp)
      | false => exact plain _ (by simp)

end Dispatch

/-! ## The four kinds -/

def denseUrbanTables (isLOS : Bool) : LinkTables where
  shadowFading := if isLOS then shadowFadingStdDenseUrban else shadowFadingStdDenseUrbanNLOS
  clutterLoss := if isLOS then none else some clutterLossDenseUrbanNLOS
  ricianK := ricianKDbDenseUrban

def urbanTables (isLOS : Bool) : LinkTables where
  shadowFading := if isLOS then shadowFadingStdUrban else shadowFadingStdUrbanNLOS
  clutterLoss := if isLOS then none else some clutterLossUrbanNLOS
  ricianK := ricianKDbUrban

def suburbanTables (isLOS : Bool) : LinkTables where
  shadowFading := if isLOS then shadowFadingStdSuburban else shadowFadingStdSuburbanNLOS
  clutterLoss := if isLOS then none else some clutterLossSuburbanNLOS
  ricianK := ricianKDbSuburban

def ruralTables (isLOS : Bool) : LinkTables where
  shadowFading := if isLOS then shadowFadingStdRural else shadowFadingStdRuralNLOS
  clutterLoss := if isLOS then none else some clutterLossRuralNLOS
  ricianK := ricianKDbRural

/-- The tables depend on the scenario through the dispatch. -/
theorem selectedTables_eq (scenario : String) (isLOS : Bool) :
    selectedTables scenario isLOS =
      byScenario scenario (denseUrbanTables isLOS) (urbanTables isLOS) (suburbanTables isLOS)
        (ruralTables isLOS) := by
  unfold selectedTables getShadowFadingTable getShadowFadingTableNLOS getClutterLossTable getRicianKTable
    byScenario
  dsimp only
  generalize contains (scenario.map Char.toLower) "dense" = dense
  generalize isUrbanScenario (scenario.map Char.toLower) = isUrban
  generalize contains (scenario.map Char.toLower) "suburban" = isSuburban
  cases dense <;> cases isUrban <;> cases isSuburban <;> cases isLOS <;> rfl

theorem usedTables_eq (scenario : String) (isLOS : Bool) :
    usedTables scenario isLOS =
      if isUrbanScenario (lowerScenario scenario) then urbanTables isLOS else ruralTables isLOS := by
  rw [usedTables, selectedTables_eq, byScenario_linkScenario]

/-- No other kind has the tables of a dense urban or a suburban scenario. -/
theorem tables_differ (isLOS : Bool) :
    urbanTables isLOS ≠ denseUrbanTables isLOS ∧ ruralTables isLOS ≠ denseUrbanTables isLOS ∧
      ruralTables isLOS ≠ suburbanTables isLOS := by
  cases isLOS <;> decide +kernel

/-- In either case of the line of sight. -/
theorem usedTables_eq_iff (scenario : String) (isLOS : Bool) :
    usedTables scenario isLOS = selectedTables (withoutReturn scenario) isLOS ↔
      contains (lowerScenario scenario) "dense" = false ∧
        contains (lowerScenario scenario) "suburban" = false := by
  obtain ⟨urban, rural, rural'⟩ := tables_differ isLOS
  rw [usedTables_eq, selectedTables_eq, lowerScenario_eq]
  cases dense : contains ((withoutReturn scenario).map Char.toLower) "dense" with
  | true =>
      rw [byScenario_dense _ _ _ _ dense]
      refine iff_of_false ?_ (by simp)
      split
      · exact urban
      · exact rural
  | false =>
      cases isUrban : isUrbanScenario ((withoutReturn scenario).map Char.toLower) with
      | true =>
          rw [byScenario_urban _ _ _ _ dense isUrban, if_pos rfl]
          unfold isUrbanScenario at isUrban
          exact iff_of_true rfl ⟨rfl, by simpa using (Bool.and_eq_true_iff.mp isUrban).2⟩
      | false =>
          rw [byScenario_notUrban _ _ _ _ dense isUrban, if_neg Bool.false_ne_true]
          cases contains ((withoutReturn scenario).map Char.toLower) "suburban" with
          | true => exact iff_of_false rural' (by simp)
          | false => exact iff_of_true rfl ⟨rfl, rfl⟩

/-- **The tables of a UE.** The link budget is that of the tables used, and these are the ones that the getters
select for the scenario of the UE exactly when it contains neither `dense` nor `suburban`. -/
theorem scenario_tables_iff (L : Link) (geo : UeGeo) (distance elevation dopplerShift sfFeature : ℚ)
    (isLOS : Bool) (gauss : ℚ × ℚ) :
    linkSnrDb L geo distance elevation dopplerShift sfFeature isLOS gauss =
        (usedTables geo.scenario isLOS).snrDb L distance elevation dopplerShift sfFeature gauss ∧
      (usedTables geo.scenario isLOS = selectedTables (withoutReturn geo.scenario) isLOS ↔
        contains (lowerScenario geo.scenario) "dense" = false ∧
          contains (lowerScenario geo.scenario) "suburban" = false) :=
  ⟨linkSnrDb_eq .., usedTables_eq_iff ..⟩

/-- A UE in a dense urban scenario is computed with the tables of an urban one. -/
theorem scenario_tables_denseUrban :
    ¬ ∀ (scenario : String) (isLOS : Bool),
      usedTables scenario isLOS = selectedTables (withoutReturn scenario) isLOS := by
  intro always
  exact absurd (always "DenseUrban" true) (by decide +kernel)

end NtnCho
