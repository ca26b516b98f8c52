import NtnCho.Text.Literal
import NtnCho.TriggerInputs

/-!
# Readers of decisions

Three scripts read the `[HO_DEBUG]` lines of TD-CHO: `parse_handover_log.py` splits a line into keys and
values and guesses the type of a value from its key or else from its text, `analyze_serving_snr_trigger.py`
matches one long expression, and `analyze_snr_delta.py` searches for the two SINRs. They read the same
numbers. The names of the satellites are read as they are printed by the expression, while the guess turns
a name that looks like a number or a truth value into one, and drops white space at its ends.
-/

namespace NtnCho

open Frames Text Text.Regex Pingpong ServingTrigger

/-! ## `parse_handover_log.py` -/

namespace LogParser

/-- `KNOWN_PREFIXES` -/
def knownPrefixes : List (List Char × String) :=
  [("HO_DEBUG".toList, "debug"), ("HO_RESULT".toList, "result"), ("TREND_DEBUG".toList, "trend"),
    ("HO_SKIPPED".toList, "skipped")]

/-- `[A-Z_]` -/
def isTagChar (c : Char) : Bool := c.isUpper || c == '_'

/-- The tag and the body that `LINE_RE` finds in a line without white space at its ends. -/
def lineRe : List Char → Option (List Char × List Char)
  | '[' :: line =>
      let tag := line.takeWhile isTagChar
      match line.dropWhile isTagChar with
      | ']' :: rest =>
          let rest := rest.dropWhile isPySpace
          let body := (if rest.head? = some ',' then rest.tail else rest).dropWhile isPySpace
          if tag = [] ∨ '\n' ∈ body then none else some (tag, body)
      | _ => none
  | _ => none

/-- `INT_FIELDS` -/
def intFields : List (List Char) := ["ue".toList, "a3".toList, "prediction".toList]

/-- `FLOAT_FIELDS` -/
def floatFields : List (List Char) :=
  ["t".toList, "decision_delay".toList, "dynamic_margin".toList, "sinr_gain".toList, "prev_snr".toList,
    "curr_snr".toList]

/-- A key, without white space at its ends, that one of `FLOAT_PATTERNS` matches. -/
def matchesFloatPattern (key : List Char) : Bool :=
  !key.contains '\n' &&
    ("_sinr".toList.isSuffixOf key || "_trend".toList.isSuffixOf key || "_dist".toList.isSuffixOf key ||
      "pred_".toList.isPrefixOf key)

/-- A value of a record. -/
inductive PyValue where
  | none
  | bool (b : Bool)
  | int (n : ℤ)
  | float (x : FloatValue)
  | str (s : List Char)
  deriving DecidableEq

/-- `_coerce_value`, for a key that says nothing about the type. -/
def guessValue (value : List Char) : PyValue :=
  let lowered := value.map Char.toLower
  if lowered = "true".toList ∨ lowered = "false".toList then .bool (lowered == "true".toList)
  else
    match floatOf value with
    | Option.none => .str value
    | some (.finite x) =>
        if x.den = 1 ∧ isDigits (unsigned (value.map asciiDigit)) then .int x.num
        else .float (.finite x)
    | some x => .float x

/-- `_coerce_value`, `none` for the `OverflowError` of an infinite integer. -/
def coerceValue (key value : List Char) : Option PyValue :=
  let value := strip value
  if value = [] then some .none
  else if intFields.contains key then
    (intOfFloat value).map fun int => (int.map .int).getD (.str value)
  else if floatFields.contains key ∨ matchesFloatPattern key then
    some (((floatOf value).map .float).getD (.str value))
  else some (guessValue value)

/-- A record with its keys in the order in which they came. -/
abbrev Record := List (List Char × PyValue)

/-- One round of the loop over the parts. -/
def readPart (record : Record) (part : List Char) : Option Record :=
  let part := strip part
  if part = [] ∨ '=' ∉ part then some record
  else
    let key := strip (part.takeWhile (· != '='))
    let rawValue := part.drop ((part.takeWhile (· != '=')).length + 1)
    if key = [] then some record
    else (coerceValue key rawValue).map fun value => setKey key value record

/-- `parse_key_value_body` -/
def parseKeyValueBody (body : List Char) : Option Record := (body.splitOn ',').foldlM readPart []

/-- `parse_log_line`, `none` for `(None, None)`. -/
def parseLogLine (line : List Char) : Option (String × Record) := do
  let (tag, body) ← lineRe (strip line)
  let kind ← knownPrefixes.lookup tag
  let record ← parseKeyValueBody body
  pure (kind, record)

end LogParser

/-! ## What is read -/

/-- `ho_debug_pattern` of `analyze_snr_delta.py` -/
def SnrDelta.hoDebugPattern : List Piece :=
  [.lit "serving_sinr=".toList, .run isSignedChar 1 true true, .lit [','],
    .run isPySpace 0 true false, .lit "neighbor_sinr=".toList,
    .run isSignedChar 1 true true]

/-- The two SINRs that `analyze_snr_file` reads from a line. -/
def SnrDelta.sinrs (line : List Char) : Option (ℚ × ℚ) := do
  let m ← search hoDebugPattern line
  let servingSinr ← pyFloat (group 1 m)
  let neighborSinr ← pyFloat (group 2 m)
  pure (servingSinr, neighborSinr)

/-- What a reader finds in a line. -/
structure Reading where
  ue : ℤ
  time : ℚ
  serving : LogParser.PyValue
  neighbor : LogParser.PyValue
  servingSinr : ℚ
  neighborSinr : ℚ
  servingTrend : ℚ
  neighborTrend : ℚ
  servingDist : ℚ
  neighborDist : ℚ
  neighborDistTrend : ℚ
  dynamicMargin : ℚ
  deriving DecidableEq

def LogParser.PyValue.integer : LogParser.PyValue → Option ℤ
  | .int n => some n
  | _ => Option.none

def LogParser.PyValue.number : LogParser.PyValue → Option ℚ
  | .float (.finite x) => some x
  | _ => Option.none

/-- The reading of a record of `parse_log_line`. -/
def Reading.ofRecord (record : LogParser.Record) : Option Reading := do
  let ue ← (record.lookup "ue".toList).bind LogParser.PyValue.integer
  let time ← (record.lookup "t".toList).bind LogParser.PyValue.number
  let serving ← record.lookup "serving".toList
  let neighbor ← record.lookup "neighbor".toList
  let servingSinr ← (record.lookup "serving_sinr".toList).bind LogParser.PyValue.number
  let neighborSinr ← (record.lookup "neighbor_sinr".toList).bind LogParser.PyValue.number
  let servingTrend ← (record.lookup "serving_trend".toList).bind LogParser.PyValue.number
  let neighborTrend ← (record.lookup "neighbor_trend".toList).bind LogParser.PyValue.number
  let servingDist ← (record.lookup "serving_dist".toList).bind LogParser.PyValue.number
  let neighborDist ← (record.lookup "neighbor_dist".toList).bind LogParser.PyValue.number
  let neighborDistTrend ← (record.lookup "neighbor_dist_trend".toList).bind LogParser.PyValue.number
  let dynamicMargin ← (record.lookup "dynamic_margin".toList).bind LogParser.PyValue.number
  pure
    { ue, time, serving, neighbor, servingSinr, neighborSinr, servingTrend, neighborTrend, servingDist
      neighborDist, neighborDistTrend, dynamicMargin }

/-- The reading of a match of `parse_ho_debug_logs`. -/
def Reading.ofMatch (m : Groups) : Option Reading := do
  let time ← pyFloat (group 2 m)
  let servingSinr ← pyFloat (group 5 m)
  let neighborSinr ← pyFloat (group 6 m)
  let servingTrend ← pyFloat (group 7 m)
  let neighborTrend ← pyFloat (group 8 m)
  let servingDist ← pyFloat (group 9 m)
  let neighborDist ← pyFloat (group 10 m)
  let neighborDistTrend ← pyFloat (group 11 m)
  let dynamicMargin ← pyFloat (group 12 m)
  pure
    { ue := pyNat (group 1 m)
      time := time
      serving := .str (group 3 m)
      neighbor := .str (group 4 m)
      servingSinr := servingSinr
      neighborSinr := neighborSinr
      servingTrend := servingTrend
      neighborTrend := neighborTrend
      servingDist := servingDist
      neighborDist := neighborDist
      neighborDistTrend := neighborDistTrend
      dynamicMargin := dynamicMargin }

/-- What is printed of an evaluation. -/
def Reading.printed (env : Env) (e : BestEvaluation) : Reading where
  ue := e.ueId
  time := decimals 3 e.simTime
  serving := .str e.serving.cellId.toList
  neighbor := .str e.neighbor.cellId.toList
  servingSinr := decimals 2 e.serving.sinr
  neighborSinr := decimals 2 e.neighbor.sinr
  servingTrend := decimals 2 e.trends.servingSnrTrend
  neighborTrend := decimals 2 e.trends.neighborSnrTrend
  servingDist := decimals 2 e.serving.distance
  neighborDist := decimals 2 e.neighbor.distance
  neighborDistTrend := decimals 2 e.trends.neighborDistTrend
  dynamicMargin := decimals 2 (e.dynamicMargin env)

variable {env : Env} {e : BestEvaluation}

/-- The expression of `parse_ho_debug_logs` finds what is printed. -/
theorem ofMatch_textGroups (env : Env) (e : BestEvaluation) :
    Reading.ofMatch (textGroups env e) = some (.printed env e) := by
  have number : ∀ x, pyFloat (showFixed 2 x) = some (decimals 2 x) := pyFloat_showFixed (by decide)
  have time : pyFloat (showFixed 3 e.simTime) = some (decimals 3 e.simTime) :=
    pyFloat_showFixed (by decide) _
  unfold Reading.ofMatch textGroups
  simp only [Pingpong.group, List.getD_cons_zero, List.getD_cons_succ, Nat.reduceSub,
    pyNat_showNat, number, time, Option.bind_eq_bind, Option.bind_some]
  rfl

/-! ## Parts of a line -/

/-- `key=value` -/
def partText (pair : String × Field) : List Char := pair.1.toList ++ '=' :: pair.2.text

/-- The pairs of a line are its parts behind a comma. -/
theorem flatMap_pairText (pair : String × Field) (pairs : List (String × Field)) :
    (pair :: pairs).flatMap pairText = ',' :: [','].intercalate ((pair :: pairs).map partText) := by
  induction pairs generalizing pair with
  | nil => simp [pairText, partText]
  | cons next pairs ih =>
      rw [List.flatMap_cons, ih next]
      simp [pairText, partText, List.intercalate]

namespace LogParser

/-- A key as the simulation prints them. -/
structure PlainKey (key : List Char) : Prop where
  some_char : key ≠ []
  solid : ∀ c ∈ key, isPySpace c = false
  plain : ',' ∉ key ∧ '=' ∉ key ∧ '\n' ∉ key

instance (key : List Char) : Decidable (PlainKey key) :=
  decidable_of_iff (key ≠ [] ∧ (∀ c ∈ key, isPySpace c = false) ∧ ',' ∉ key ∧ '=' ∉ key ∧ '\n' ∉ key)
    ⟨fun ⟨some_char, solid, plain⟩ => ⟨some_char, solid, plain⟩,
      fun ⟨some_char, solid, plain⟩ => ⟨some_char, solid, plain⟩⟩

/-- White space at the end of a value does not matter. -/
theorem coerceValue_rdropWhile (key value : List Char) :
    coerceValue key (value.rdropWhile isPySpace) = coerceValue key value := by
  have same : strip (value.rdropWhile isPySpace) = strip value := by
    have split := List.rdropWhile_append_rtakeWhile (p := isPySpace) (l := value)
    have spaces : ∀ c ∈ value.rtakeWhile isPySpace, isPySpace c = true := fun c => List.mem_rtakeWhile_imp
    conv_rhs => rw [← split]
    rw [strip_append_spaces spaces]
  unfold coerceValue
  rw [same]

theorem readPart_of_key {key : List Char} (plain : PlainKey key) (text : List Char) (record : Record) :
    readPart record (key ++ '=' :: text) =
      (coerceValue key text).map fun value => setKey key value record := by
  obtain ⟨c, rest, rfl⟩ := List.exists_cons_of_ne_nil plain.some_char
  have stripped : strip (c :: rest ++ '=' :: text) = c :: rest ++ '=' :: text.rdropWhile isPySpace := by
    unfold strip
    rw [List.cons_append, List.dropWhile_cons_of_neg (by simp [plain.solid c List.mem_cons_self]),
      ← List.cons_append, rdropWhile_append_of_neg (by decide)]
  have inKey : ∀ d ∈ c :: rest, (d != '=') = true := by
    intro d member
    rw [bne_iff_ne]
    rintro rfl
    exact plain.plain.2.1 member
  have taken : (c :: rest ++ '=' :: text.rdropWhile isPySpace).takeWhile (· != '=') = c :: rest := by
    rw [List.takeWhile_append_of_pos inKey, List.takeWhile_cons_of_neg (by decide), List.append_nil]
  have dropped : (c :: rest ++ '=' :: text.rdropWhile isPySpace).drop ((c :: rest).length + 1) =
      text.rdropWhile isPySpace := by
    rw [← List.drop_drop, List.drop_left, List.drop_one, List.tail_cons]
  unfold readPart
  rw [stripped]
  dsimp only
  rw [taken, dropped, strip_of_solid plain.solid, coerceValue_rdropWhile, if_neg (by simp),
    if_neg (by simp)]

/-- The value that the parser makes of a name, which no key tells it to be a number. -/
def nameValue (name : List Char) : PyValue :=
  if strip name = [] then .none else guessValue (strip name)

/-- A pair of a line that is read as a value. -/
structure ReadsAs (pair : String × Field) (value : PyValue) : Prop where
  key : PlainKey pair.1.toList
  text : ',' ∉ pair.2.text ∧ '\n' ∉ pair.2.text
  coerced : coerceValue pair.1.toList pair.2.text = some value

theorem readsAs_nat {key : String} (plain : PlainKey key.toList)
    (int : intFields.contains key.toList) (n : ℕ) : ReadsAs (key, .nat n) (.int n) where
  key := plain
  text := by
    constructor <;> exact fun member => absurd (isDigit_of_mem_showNat member) (by decide)
  coerced := by
    have solid : strip (showNat n) = showNat n :=
      strip_of_solid fun c member => isPySpace_of_isDigit (isDigit_of_mem_showNat member)
    have nonneg : ¬ (n : ℚ) < 0 := not_lt.mpr n.cast_nonneg
    have value : intOfFloat (showNat n) = some (some (n : ℤ)) := by
      unfold intOfFloat
      rw [floatOf_showNat]
      dsimp only
      rw [if_neg nonneg, Int.floor_natCast]
    dsimp only [Field.text]
    unfold coerceValue
    rw [solid, if_neg (showNat_ne_nil n), if_pos int, value]
    rfl

theorem plain_showFixed (precision : ℕ) (x : ℚ) :
    ',' ∉ showFixed precision x ∧ '\n' ∉ showFixed precision x := by
  constructor <;> exact fun member => absurd (mem_showFixed member) (by decide)

theorem readsAs_fixed {key : String} (plain : PlainKey key.toList) (other : ¬ intFields.contains key.toList)
    (float : floatFields.contains key.toList ∨ matchesFloatPattern key.toList) {precision : ℕ}
    (pos : 0 < precision) (x : ℚ) :
    ReadsAs (key, .fixed precision x) (.float (.finite (decimals precision x))) where
  key := plain
  text := plain_showFixed precision x
  coerced := by
    have solid : strip (showFixed precision x) = showFixed precision x :=
      strip_of_solid fun c => isPySpace_of_mem_showFixed
    have some_char : showFixed precision x ≠ [] := List.ne_nil_of_mem (point_mem_showFixed precision x)
    dsimp only [Field.text]
    unfold coerceValue
    rw [solid, if_neg some_char, if_neg other, if_pos float, floatOf_showFixed pos]
    rfl

theorem coerceValue_of_other {key : List Char} (other : ¬ intFields.contains key)
    (free : ¬ (floatFields.contains key ∨ matchesFloatPattern key)) (value : List Char) :
    coerceValue key value = some (nameValue value) := by
  unfold coerceValue nameValue
  dsimp only
  rw [if_neg other, if_neg free]
  split <;> rfl

/-- The record of a body has the values of its parts. -/
theorem foldlM_readPart {pairs : List (String × Field)} {values : List PyValue}
    (read : List.Forall₂ ReadsAs pairs values) (record : Record) :
    (pairs.map partText).foldlM readPart record =
      some (((pairs.map fun pair => pair.1.toList).zip values).foldl
        (fun record entry => setKey entry.1 entry.2 record) record) := by
  induction read generalizing record with
  | nil => rfl
  | @cons pair value pairs values first rest ih =>
      have part : readPart record (partText pair) = some (setKey pair.1.toList value record) := by
        rw [partText, readPart_of_key first.key, first.coerced, Option.map_some]
      rw [List.map_cons, List.foldlM_cons, part]
      exact ih _

theorem notMem_partText {pairs : List (String × Field)} {values : List PyValue}
    (read : List.Forall₂ ReadsAs pairs values) :
    ∀ part ∈ pairs.map partText, ',' ∉ part ∧ '\n' ∉ part := by
  induction read with
  | nil => exact fun part member => by cases member
  | @cons pair value pairs values first rest ih =>
      refine List.forall_mem_cons.mpr ⟨?_, ih⟩
      simp [partText, first.key.plain, first.text]

/-- `LINE_RE` on a printed line. -/
theorem lineRe_recordText {pair : String × Field} {c : Char} {rest body : List Char}
    (first : partText pair = c :: rest) (solid : isPySpace c = false) (pairs : List (String × Field))
    (split : body = [','].intercalate ((pair :: pairs).map partText)) (newline : '\n' ∉ body) :
    lineRe (recordText "HO_DEBUG" (pair :: pairs)) = some ("HO_DEBUG".toList, body) := by
  obtain ⟨more, begins⟩ : ∃ more, body = c :: more := by
    rw [split, List.map_cons, first]
    cases pairs with
    | nil => exact ⟨rest, by simp⟩
    | cons next pairs => exact ⟨_, rfl⟩
  have tagged : lineRe (recordText "HO_DEBUG" (pair :: pairs)) =
      if "HO_DEBUG".toList = [] ∨ '\n' ∈ body.dropWhile isPySpace then none
      else some ("HO_DEBUG".toList, body.dropWhile isPySpace) := by
    rw [recordText, flatMap_pairText, ← split]
    rfl
  have kept : body.dropWhile isPySpace = body := by
    rw [begins, List.dropWhile_cons_of_neg (by simp [solid])]
  rw [tagged, kept, if_neg (not_or.mpr ⟨by decide, newline⟩)]

/-- A line with a number at its end has no white space there. -/
theorem getLast?_recordText {tag key : String} {fields : List (String × Field)} {n : ℕ}
    (last : fields.getLast? = some (key, .nat n)) :
    ∀ c ∈ (recordText tag fields).getLast?, isPySpace c = false := by
  obtain ⟨front, rfl⟩ := List.getLast?_eq_some_iff.mp last
  have ends : recordText tag (front ++ [(key, .nat n)]) =
      recordText tag front ++ ',' :: (key.toList ++ ['=']) ++ showNat n := by
    simp [recordText, pairText, Field.text]
  intro c member
  rw [ends, List.getLast?_append_of_ne_nil _ (showNat_ne_nil n)] at member
  exact isPySpace_of_isDigit (isDigit_of_mem_showNat (List.mem_of_mem_getLast? member))

/-- **The parser on a printed line.** -/
theorem parseLogLine_recordText {pair : String × Field} {pairs : List (String × Field)}
    {values : List PyValue} (read : List.Forall₂ ReadsAs (pair :: pairs) values) {key : String} {n : ℕ}
    (last : (pair :: pairs).getLast? = some (key, .nat n)) :
    parseLogLine (recordText "HO_DEBUG" (pair :: pairs)) =
      some ("debug", (((pair :: pairs).map fun pair => pair.1.toList).zip values).foldl
        (fun record entry => setKey entry.1 entry.2 record) []) := by
  have stripped : strip (recordText "HO_DEBUG" (pair :: pairs)) = recordText "HO_DEBUG" (pair :: pairs) := by
    refine strip_of_ends (fun c head => ?_) (getLast?_recordText last)
    obtain rfl := Option.some.inj head
    rfl
  have parts := notMem_partText read
  have newline : '\n' ∉ [','].intercalate ((pair :: pairs).map partText) := by
    intro member
    rcases mem_intercalate member with same | ⟨part, listed, inside⟩
    · cases same
    · exact (parts part listed).2 inside
  have pieces : ([','].intercalate ((pair :: pairs).map partText)).splitOn ',' =
      (pair :: pairs).map partText :=
    List.splitOn_intercalate ',' (fun part listed => (parts part listed).1) (by simp)
  have head : ReadsAs pair (values.head (by rintro rfl; cases read)) := by
    cases read with
    | cons first _ => exact first
  obtain ⟨c, rest, key⟩ := List.exists_cons_of_ne_nil head.key.some_char
  have first : partText pair = c :: (rest ++ '=' :: pair.2.text) := by
    rw [partText, key, List.cons_append]
  have solid : isPySpace c = false := head.key.solid c (key ▸ List.mem_cons_self)
  unfold parseLogLine parseKeyValueBody
  rw [stripped, lineRe_recordText first solid pairs rfl newline]
  change (knownPrefixes.lookup "HO_DEBUG".toList).bind (fun kind =>
    (((([','].intercalate ((pair :: pairs).map partText)).splitOn ',').foldlM readPart []).bind
      fun record => some (kind, record))) = _
  rw [pieces, foldlM_readPart read]
  rfl

theorem readsAs_other {key : String} (plain : PlainKey key.toList) (other : ¬ intFields.contains key.toList)
    (free : ¬ (floatFields.contains key.toList ∨ matchesFloatPattern key.toList)) {field : Field}
    (text : ',' ∉ field.text ∧ '\n' ∉ field.text) : ReadsAs (key, field) (nameValue field.text) where
  key := plain
  text := text
  coerced := coerceValue_of_other other free field.text

/-- The keys of a printed line. -/
def textKeys : List (List Char) :=
  ["ue".toList, "t".toList, "serving".toList, "neighbor".toList, "serving_sinr".toList,
    "neighbor_sinr".toList, "serving_trend".toList, "neighbor_trend".toList, "serving_dist".toList,
    "neighbor_dist".toList, "neighbor_dist_trend".toList, "dynamic_margin".toList,
    "pred_serving".toList, "pred_neighbor".toList, "serving_trend".toList, "neighbor_trend".toList,
    "trend_diff".toList, "a3".toList]

/-- The values of a printed line, in the order of its keys. -/
def textValues (env : Env) (e : BestEvaluation) : List PyValue :=
  let number (precision : ℕ) (x : ℚ) : PyValue := .float (.finite (decimals precision x))
  [.int e.ueId, number 3 e.simTime, nameValue e.serving.cellId.toList, nameValue e.neighbor.cellId.toList,
    number 2 e.serving.sinr, number 2 e.neighbor.sinr, number 2 e.trends.servingSnrTrend,
    number 2 e.trends.neighborSnrTrend, number 2 e.serving.distance, number 2 e.neighbor.distance,
    number 2 e.trends.neighborDistTrend, number 2 (e.dynamicMargin env),
    number 2 (e.serving.sinr + e.trends.servingSnrTrend * e.timeToTrigger),
    number 2 (e.neighbor.sinr + e.trends.neighborSnrTrend * e.timeToTrigger),
    number 2 e.trends.servingSnrTrend, number 2 e.trends.neighborSnrTrend,
    nameValue (showFixed 2 (e.trends.servingSnrTrend - e.trends.neighborSnrTrend)),
    .int (if TdCho.a3Condition (e.dynamicMargin env) e.serving e.neighbor then 1 else 0 : ℕ)]

/-- **The parser on the line of an evaluation.** -/
theorem parseLogLine_textOf (plain : PlainName e.serving.cellId.toList)
    (plain' : PlainName e.neighbor.cellId.toList) :
    parseLogLine (textOf env e) = some ("debug", (textKeys.zip (textValues env e)).foldl
      (fun record entry => setKey entry.1 entry.2 record) []) := by
  refine parseLogLine_recordText ?_ rfl
  refine .cons (readsAs_nat (by decide) (by decide) _) ?_
  refine .cons (readsAs_fixed (by decide) (by decide) (by decide) (by decide) _) ?_
  refine .cons (readsAs_other (by decide) (by decide) (by decide) ⟨plain.comma, plain.line⟩) ?_
  refine .cons (readsAs_other (by decide) (by decide) (by decide) ⟨plain'.comma, plain'.line⟩) ?_
  iterate 12 refine .cons (readsAs_fixed (by decide) (by decide) (by decide) (by decide) _) ?_
  refine .cons (readsAs_other (by decide) (by decide) (by decide) (plain_showFixed _ _)) ?_
  exact .cons (readsAs_nat (by decide) (by decide) _) .nil

/-- The last of the values of a key is read. -/
theorem ofRecord_textValues (env : Env) (e : BestEvaluation) :
    Reading.ofRecord ((textKeys.zip (textValues env e)).foldl
        (fun record entry => setKey entry.1 entry.2 record) []) =
      some { Reading.printed env e with
        serving := nameValue e.serving.cellId.toList
        neighbor := nameValue e.neighbor.cellId.toList } := by
  unfold Reading.ofRecord
  simp only [lookup_foldl_setKey, List.lookup_nil, Option.or_none]
  rfl

/-- A name that the parser leaves as it is: without white space at its ends, and neither a truth value
nor a number. -/
structure Unguessed (name : List Char) : Prop where
  some_char : name ≠ []
  stripped : strip name = name
  noBool : name.map Char.toLower ≠ "true".toList ∧ name.map Char.toLower ≠ "false".toList
  noNumber : floatOf name = none

instance (name : List Char) : Decidable (Unguessed name) :=
  decidable_of_iff (name ≠ [] ∧ strip name = name ∧
      (name.map Char.toLower ≠ "true".toList ∧ name.map Char.toLower ≠ "false".toList) ∧
      floatOf name = none)
    ⟨fun ⟨some_char, stripped, noBool, noNumber⟩ => ⟨some_char, stripped, noBool, noNumber⟩,
      fun ⟨some_char, stripped, noBool, noNumber⟩ => ⟨some_char, stripped, noBool, noNumber⟩⟩

theorem guessValue_eq_str_iff {value name : List Char} :
    guessValue value = .str name ↔ value = name ∧
      (value.map Char.toLower ≠ "true".toList ∧ value.map Char.toLower ≠ "false".toList) ∧
      floatOf value = none := by
  unfold guessValue
  dsimp only
  by_cases truth : value.map Char.toLower = "true".toList ∨ value.map Char.toLower = "false".toList
  · rw [if_pos truth]
    refine iff_of_false (by simp) fun ⟨_, noBool, _⟩ => ?_
    exact truth.elim noBool.1 noBool.2
  · rw [if_neg truth]
    cases number : floatOf value with
    | none =>
        dsimp only
        rw [PyValue.str.injEq]
        exact ⟨fun same => ⟨same, not_or.mp truth, rfl⟩, And.left⟩
    | some x =>
        refine iff_of_false ?_ (by simp)
        cases x with
        | finite x => dsimp only; split <;> simp
        | _ => simp

/-- The names that stay names. -/
theorem nameValue_eq_str_iff (name : List Char) : nameValue name = .str name ↔ Unguessed name := by
  unfold nameValue
  constructor
  · intro kept
    split at kept
    · cases kept
    · rename_i some_char
      obtain ⟨stripped, noBool, noNumber⟩ := guessValue_eq_str_iff.mp kept
      rw [stripped] at some_char noBool noNumber
      exact ⟨some_char, stripped, noBool, noNumber⟩
  · intro unguessed
    rw [unguessed.stripped, if_neg unguessed.some_char]
    exact guessValue_eq_str_iff.mpr ⟨rfl, unguessed.noBool, unguessed.noNumber⟩

end LogParser

namespace SnrDelta

/-- What follows the comma in `ho_debug_pattern`. -/
def behindComma : List Piece :=
  [.run isPySpace 0 true false, .lit "neighbor_sinr=".toList, .run isSignedChar 1 true true]

theorem comma_notMem_isSignedChar {run : List Char} (all : ∀ c ∈ run, isSignedChar c = true) : ',' ∉ run :=
  fun member => absurd (all ',' member) (by decide)

/-- No match begins in a text without commas when behind its comma there is no SINR of a neighbour. -/
theorem matchHere_none {part more : List Char} (plain : ',' ∉ part)
    (absent : matchHere behindComma more = none) : matchHere hoDebugPattern (part ++ ',' :: more) = none := by
  cases found : matchHere hoDebugPattern (part ++ ',' :: more) with
  | none => rfl
  | some groups =>
      obtain ⟨rest, split, found⟩ := exists_of_matchHere_lit found
      obtain ⟨run, rest', groups', rfl, all, -, found, -⟩ := exists_of_matchHere_run found
      obtain ⟨more', rfl, found⟩ := exists_of_matchHere_lit found
      -- both sides have their first comma there
      have front : ∀ c ∈ part, (c != ',') = true := fun c member => by
        rw [bne_iff_ne]
        rintro rfl
        exact plain member
      have front' : ∀ c ∈ "serving_sinr=".toList ++ run, (c != ',') = true := fun c member => by
        rw [bne_iff_ne]
        rintro rfl
        rcases List.mem_append.mp member with literal | inRun
        · exact absurd literal (by decide)
        · exact comma_notMem_isSignedChar all inRun
      have behind := congrArg (List.dropWhile (· != ',')) split
      rw [List.singleton_append, ← List.append_assoc, List.dropWhile_append_of_pos front,
        List.dropWhile_append_of_pos front', List.dropWhile_cons_of_neg (by decide),
        List.dropWhile_cons_of_neg (by decide)] at behind
      rw [(List.cons.inj behind).2, show matchHere behindComma more' = some groups' from found] at absent
      cases absent

/-- A part without SINRs is passed over. -/
theorem search_part {part more : List Char} (plain : ',' ∉ part)
    (absent : matchHere behindComma more = none) :
    search hoDebugPattern (part ++ ',' :: more) = search hoDebugPattern more := by
  rw [List.append_cons]
  refine search_append_of_none fun suffix inside some_char => ?_
  obtain ⟨front, rfl⟩ : ∃ front, suffix = front ++ [','] := by
    obtain ⟨before, split⟩ := inside
    have ends := List.getLast?_append_of_ne_nil before some_char
    rw [split] at ends
    exact List.getLast?_eq_some_iff.mp (ends.symm.trans (by simp))
  have within : front <:+ part := by
    obtain ⟨before, split⟩ := inside
    rw [← List.append_assoc] at split
    exact ⟨before, List.append_cancel_right split⟩
  rw [← List.append_cons]
  exact matchHere_none (fun member => plain (within.subset member)) absent

theorem behindComma_none {text : List Char} (solid : ∀ c ∈ text.head?, isPySpace c = false)
    (other : "neighbor_sinr=".toList.isPrefixOf text = false) : matchHere behindComma text = none := by
  have literal : matchHere (behindComma.drop 1) text = none := by
    rw [behindComma, List.drop_one, List.tail_cons, matchHere, other, if_neg Bool.false_ne_true]
  cases text with
  | nil => rfl
  | cons c text =>
      rw [behindComma, matchHere, matchRun, solid c rfl, if_pos (Nat.zero_le _)]
      simpa [behindComma] using literal

/-- A part before another key is passed over. -/
theorem search_pair {part : List Char} (plain : ',' ∉ part) {pair : String × Field}
    {pairs : List (String × Field)}
    (absent : matchHere behindComma (partText pair ++ pairs.flatMap pairText) = none) :
    search hoDebugPattern (part ++ (pair :: pairs).flatMap pairText) =
      search hoDebugPattern (partText pair ++ pairs.flatMap pairText) := search_part plain absent

theorem comma_notMem_partText {key : String} {field : Field} (plainKey : ',' ∉ key.toList)
    (plain : field.Plain) : ',' ∉ partText (key, field) := by
  simp only [partText, List.mem_append, List.mem_cons, not_or]
  exact ⟨plainKey, by decide, plain⟩

/-- `ho_debug_pattern` finds the SINRs of a printed line. -/
theorem search_recordText {ueId : ℕ} {simTime : ℚ} {serving neighbor : MeasResultCell}
    (plain : PlainName serving.cellId.toList) (plain' : PlainName neighbor.cellId.toList)
    {next : String × Field} {rest : List (String × Field)} :
    search hoDebugPattern (recordText "HO_DEBUG"
        (("ue", .nat ueId) :: ("t", .fixed 3 simTime) :: ("serving", .str serving.cellId) ::
          ("neighbor", .str neighbor.cellId) :: ("serving_sinr", .fixed 2 serving.sinr) ::
          ("neighbor_sinr", .fixed 2 neighbor.sinr) :: next :: rest)) =
      some [showFixed 2 serving.sinr, showFixed 2 neighbor.sinr] := by
  have time : (Field.fixed 3 simTime).Plain := (LogParser.plain_showFixed 3 simTime).1
  have name : (Field.str serving.cellId).Plain := plain.comma
  have name' : (Field.str neighbor.cellId).Plain := plain'.comma
  have shape : ∀ fields, recordText "HO_DEBUG" fields = "[HO_DEBUG]".toList ++ fields.flatMap pairText :=
    fun _ => rfl
  have absent : ∀ (key : String) (field : Field) (pairs : List (String × Field)),
      key ∈ ["ue", "t", "serving", "neighbor", "serving_sinr"] →
      matchHere behindComma (partText (key, field) ++ pairs.flatMap pairText) = none := by
    intro key field pairs member
    simp only [List.mem_cons, List.not_mem_nil, or_false] at member
    refine behindComma_none ?_ ?_
    · rcases member with rfl | rfl | rfl | rfl | rfl <;> simp [partText] <;> rfl
    · rcases member with rfl | rfl | rfl | rfl | rfl <;> simp [partText, List.isPrefixOf]
  rw [shape, search_pair (by decide) (absent _ _ _ (by decide)),
    search_pair (comma_notMem_partText (by decide) (.nat ueId)) (absent _ _ _ (by decide)),
    search_pair (comma_notMem_partText (by decide) time) (absent _ _ _ (by decide)),
    search_pair (comma_notMem_partText (by decide) name) (absent _ _ _ (by decide)),
    search_pair (comma_notMem_partText (by decide) name') (absent _ _ _ (by decide))]
  have signed : ∀ x, ∀ c ∈ showFixed 2 x, isSignedChar c = true := fun x c => isSignedChar_of_mem
  have filled : ∀ x, 1 ≤ (showFixed 2 x).length := fun x =>
    List.length_pos_iff.mpr (List.ne_nil_of_mem (point_mem_showFixed 2 x))
  have second : matchHere behindComma
      ("neighbor_sinr=".toList ++ (showFixed 2 neighbor.sinr ++ (next :: rest).flatMap pairText)) =
        some [showFixed 2 neighbor.sinr] := by
    have spaces := @matchHere_greedy isPySpace 0 false (behindComma.drop 1) [showFixed 2 neighbor.sinr] []
      ("neighbor_sinr=".toList ++ (showFixed 2 neighbor.sinr ++ (next :: rest).flatMap pairText))
      (by simp) (stops_at rfl rfl) le_rfl
    refine spaces ((matchHere_lit _ _ _).trans ?_)
    exact matchHere_greedy (signed _) (stops_at rfl rfl) (filled _) rfl
  have line : partText ("serving_sinr", .fixed 2 serving.sinr) ++
      (("neighbor_sinr", Field.fixed 2 neighbor.sinr) :: next :: rest).flatMap pairText =
        "serving_sinr=".toList ++ (showFixed 2 serving.sinr ++ ([','] ++
          ("neighbor_sinr=".toList ++ (showFixed 2 neighbor.sinr ++ (next :: rest).flatMap pairText)))) := by
    rw [List.flatMap_cons]
    simp [partText, pairText, Field.text]
  refine search_of_matchHere ?_
  rw [line]
  refine (matchHere_lit _ _ _).trans ?_
  exact matchHere_greedy (signed _) (stops_at rfl rfl) (filled _) ((matchHere_lit _ _ _).trans second)

theorem sinrs_textOf (plain : PlainName e.serving.cellId.toList) (plain' : PlainName e.neighbor.cellId.toList) :
    sinrs (textOf env e) = some (decimals 2 e.serving.sinr, decimals 2 e.neighbor.sinr) := by
  have number : ∀ x, pyFloat (showFixed 2 x) = some (decimals 2 x) := pyFloat_showFixed (by decide)
  have found : search hoDebugPattern (textOf env e) =
      some [showFixed 2 e.serving.sinr, showFixed 2 e.neighbor.sinr] := search_recordText plain plain'
  unfold sinrs
  rw [found]
  simp only [Pingpong.group, List.getD_cons_zero, List.getD_cons_succ, Nat.reduceSub, number,
    Option.bind_eq_bind, Option.bind_some]
  rfl

end SnrDelta

open LogParser

/-- **The readers of a decision.** On every line that is printed of an evaluation, whatever its numbers and
the names of its satellites, all three readers find the numbers as they are printed, of the keys that stand
on it twice too. The expression finds the names as they are printed, and the parser what it makes of them;
so the two read the same exactly if the parser leaves both names as they are. -/
theorem readings_agree (env : Env) {e : BestEvaluation} (plain : PlainName e.serving.cellId.toList)
    (plain' : PlainName e.neighbor.cellId.toList) :
    ∃ record m, parseLogLine (textOf env e) = some ("debug", record) ∧
      search ServingTrigger.hoDebugPattern (textOf env e) = some m ∧
      Reading.ofMatch m = some (.printed env e) ∧
      Reading.ofRecord record = some { Reading.printed env e with
        serving := nameValue e.serving.cellId.toList
        neighbor := nameValue e.neighbor.cellId.toList } ∧
      SnrDelta.sinrs (textOf env e) = some (decimals 2 e.serving.sinr, decimals 2 e.neighbor.sinr) ∧
      (Reading.ofRecord record = Reading.ofMatch m ↔
        Unguessed e.serving.cellId.toList ∧ Unguessed e.neighbor.cellId.toList) := by
  refine ⟨_, _, parseLogLine_textOf plain plain', ServingTrigger.search_textOf plain plain',
    ofMatch_textGroups env e, ofRecord_textValues env e, SnrDelta.sinrs_textOf plain plain', ?_⟩
  rw [ofRecord_textValues, ofMatch_textGroups, Option.some.injEq, ← nameValue_eq_str_iff,
    ← nameValue_eq_str_iff]
  constructor
  · intro same
    exact ⟨congrArg Reading.serving same, congrArg Reading.neighbor same⟩
  · rintro ⟨serving, neighbor⟩
    rw [serving, neighbor]
    rfl

/-- A measurement of a satellite with this name. -/
def sampleCell (cellId : String) (sinr distance : ℚ) : MeasResultCell where
  cellId := cellId
  rsrp := -90
  rsrq := -11
  sinr := sinr
  distance := distance
  elevation := 45
  dopplerShift := 0
  measurementTime := 1

/-- An evaluation of two satellites with these names. -/
def sampleEvaluation (serving neighbor : String) : BestEvaluation where
  ueId := 0
  simTime := 1
  serving := sampleCell serving 12 900000
  neighbor := sampleCell neighbor (27 / 2) 800000
  trends :=
    { servingDistTrend := 100
      neighborDistTrend := -100
      neighborSnrTrend := 1
      servingSnrTrend := -2
      phy := { channel := { rng := 1 } } }
  timeToTrigger := 1

theorem readings_agree_starlink :
    ∃ record m, parseLogLine (textOf crossing (sampleEvaluation "STARLINK-29" "STARLINK-30")) =
        some ("debug", record) ∧
      search ServingTrigger.hoDebugPattern
        (textOf crossing (sampleEvaluation "STARLINK-29" "STARLINK-30")) = some m ∧
      Reading.ofRecord record = Reading.ofMatch m := by
  obtain ⟨record, m, parsed, found, -, -, -, same⟩ :=
    readings_agree crossing (e := sampleEvaluation "STARLINK-29" "STARLINK-30") (by decide +kernel)
      (by decide +kernel)
  exact ⟨record, m, parsed, found, same.mpr (by decide +kernel)⟩

/-- A name that is a number is read as a number. -/
theorem not_readings_agree :
    ¬ ∀ (env : Env) (e : BestEvaluation), e.serving.cellId.toList ≠ [] → e.neighbor.cellId.toList ≠ [] →
      PlainName e.serving.cellId.toList → PlainName e.neighbor.cellId.toList →
      ∃ record m, parseLogLine (textOf env e) = some ("debug", record) ∧
        search ServingTrigger.hoDebugPattern (textOf env e) = some m ∧
        Reading.ofRecord record = Reading.ofMatch m := by
  intro claim
  obtain ⟨record, m, parsed, found, same⟩ := claim crossing (sampleEvaluation "41730" "STARLINK-30")
    (by decide +kernel) (by decide +kernel) (by decide +kernel) (by decide +kernel)
  have number : ((parseLogLine (textOf crossing (sampleEvaluation "41730" "STARLINK-30"))).bind
      fun read => (Reading.ofRecord read.2).map Reading.serving) = some (.int 41730) := by decide +kernel
  have name : ((search ServingTrigger.hoDebugPattern
      (textOf crossing (sampleEvaluation "41730" "STARLINK-30"))).bind
        fun m => (Reading.ofMatch m).map Reading.serving) = some (.str "41730".toList) := by decide +kernel
  rw [parsed, Option.bind_some, same] at number
  rw [found, Option.bind_some, number] at name
  cases name

end NtnCho
