import NtnCho.Frames.Groups
import NtnCho.Pingpong
import NtnCho.Text.Literal
import NtnCho.Text.Regex

/-!
# Reading handovers from a log

`parse_handovers_cho` of `analyze_pingpong.py`. The parser keeps, for each UE, a queue of results and the
time of the last execution; a completion takes its time from the queue, or else from the execution.

Of its state only a part matters for what is read: the events, whether a result waits, and the time of the
last execution (`Reads`). Other lines leave it alone (`reads_quiet`), and a result or an execution followed
by the completion of the same UE adds one event, so the events of a log are read off its lines one after
the other, whatever stands between them (`Leads`).
-/

namespace NtnCho

open Frames Text Text.Regex

namespace Pingpong

/-! ## Expressions -/

/-- `.` -/
def isDot (c : Char) : Bool := c != '\n'

/-- `[0-9.]` -/
def isNumberChar (c : Char) : Bool := c.isDigit || c == '.'

/-- `RE_CHO_EXEC` -/
def reChoExec : List Piece :=
  [.lit "EXECUTION COMPLETE at t=".toList, .run isNumberChar 1 true true, .lit ['s']]

/-- `RE_CHO_EXEC_UE` -/
def reChoExecUe : List Piece :=
  .lit "[UE-".toList :: .run isPyDigit 1 true true :: .lit [']'] :: .run isDot 0 true false :: reChoExec

/-- `RE_CHO_COMPLETE` -/
def reChoComplete : List Piece :=
  [.lit "CHO HANDOVER COMPLETE:".toList, .run isPySpace 1 true false, .run isDot 1 false true,
    .run isPySpace 1 true false, .lit ['→'], .run isPySpace 1 true false, .run isDot 1 true true]

/-- `RE_CHO_COMPLETE_UE` -/
def reChoCompleteUe : List Piece :=
  .lit "[UE-".toList :: .run isPyDigit 1 true true :: .lit [']'] :: .run isDot 0 true false ::
    reChoComplete

/-- `RE_HO_RESULT`, for a match at the beginning of a line. -/
def reHoResult : List Piece :=
  [.run isPySpace 0 true false, .lit "[HO_RESULT],ue=".toList, .run isPyDigit 1 true true,
    .lit ",t=".toList, .run isNumberChar 1 true true, .run isDot 0 true true]

/-- `RE_HO_DEBUG`, for a match at the beginning of a line. -/
def reHoDebug : List Piece :=
  [.run isPySpace 0 true false, .lit "[HO_DEBUG],".toList, .run isDot 0 true true]

/-- `m.group(n)` -/
def group (n : ℕ) (m : Groups) : List Char := m.getD (n - 1) []

/-! ## Satellite names -/

/-- What stands behind the first `]`, when it stands on the line. -/
def behindBracket : List Char → Option (List Char)
  | [] => none
  | c :: rest => if c = ']' then some rest else if isDot c then behindBracket rest else none

/-- What stands behind a match of `\s*\[.*?\]`. -/
def behindTag (text : List Char) : Option (List Char) :=
  match text.dropWhile isPySpace with
  | '[' :: rest => behindBracket rest
  | _ => none

/-- The first `n` rounds of the search for tags, which each delete one or keep a character. -/
def removeTagsWithin : ℕ → List Char → List Char
  | 0, text => text
  | _ + 1, [] => []
  | n + 1, c :: rest =>
      match behindTag (c :: rest) with
      | some behind => removeTagsWithin n behind
      | none => c :: removeTagsWithin n rest

/-- `re.sub(r'\s*\[.*?\]', '', text)` -/
def removeTags (text : List Char) : List Char := removeTagsWithin text.length text

/-- `normalize` -/
def normalize (satName : List Char) : String := String.ofList (strip (removeTags satName))

/-! ## The parser -/

/-- One part of `parse_kv_pairs`. -/
def readPair (data : List (List Char × List Char)) (part : List Char) : List (List Char × List Char) :=
  let part := strip part
  if part = [] ∨ '=' ∉ part then data
  else
    let key := part.takeWhile (· != '=')
    setKey (strip key) (strip (part.drop (key.length + 1))) data

/-- `parse_kv_pairs` -/
def parseKvPairs (text : List Char) : List (List Char × List Char) :=
  (text.splitOn ',').foldl readPair []

/-- A decision of `debug_by_ue`. -/
structure DebugEntry where
  time : FloatValue
  serving : String
  neighbor : String
  a3 : Option ℤ

/-- The variables of the loop over the lines. -/
structure ParserState where
  events : List Handover := []
  pendingExec : List (Option ℕ × ℚ) := []
  pendingResult : List (ℕ × List Handover) := []
  debugByUe : List (ℤ × List DebugEntry) := []

/-- One round of the loop in `_pick_debug_match`; the best decision so far stands with its `delta`. -/
def pickDebug (targetTime : FloatValue) (window : ℚ) (preferA3 : Bool)
    (best : Option (DebugEntry × FloatValue)) (entry : DebugEntry) : Option (DebugEntry × FloatValue) :=
  let delta := (entry.time.sub targetTime).abs
  if (FloatValue.finite window).lt delta then best
  else
    match best with
    | none => some (entry, delta)
    | some (kept, bestDelta) =>
        if preferA3 ∧ entry.a3 = some 1 ∧ kept.a3 ≠ some 1 then some (entry, delta)
        else if delta.lt bestDelta then some (entry, delta)
        else best

/-- `_pick_debug_match` -/
def pickDebugMatch (debugByUe : List (ℤ × List DebugEntry)) (ue : ℕ) (targetTime : FloatValue) (window : ℚ)
    (preferA3 : Bool) : Option DebugEntry :=
  (((debugByUe.lookup (ue : ℤ)).getD []).foldl (pickDebug targetTime window preferA3) none).map Prod.fst

/-- `a3` of a decision; `none` for an `OverflowError`, which nothing catches. -/
def readA3 (text : List Char) : Option (Option ℤ) := intOfFloat (strip text)

/-- The decision of a line that matches `RE_HO_DEBUG`, if it is complete; `none` for an error that nothing
catches. -/
def debugEntry (m : Groups) : Option (Option (ℤ × DebugEntry)) :=
  let extra := parseKvPairs (group 1 m)
  match extra.lookup "ue".toList, extra.lookup "t".toList, extra.lookup "serving".toList,
    extra.lookup "neighbor".toList with
  | some ue, some t, some serving, some neighbor =>
      match pyInt ue, floatOf (strip t) with
      | some ue, some tVal =>
          (((extra.lookup "a3".toList).map readA3).getD (some none)).map fun a3 =>
            some (ue, ⟨tVal, normalize serving, normalize neighbor, a3⟩)
      | _, _ => some none
  | _, _, _, _ => some none

/-- A line that matches `RE_HO_DEBUG`. -/
def readDebug (s : ParserState) (m : Groups) : Option ParserState :=
  (debugEntry m).map fun
    | some (ue, entry) => { s with debugByUe := push ue entry s.debugByUe }
    | none => s

/-- A line that matches `RE_HO_RESULT`. -/
def readResult (s : ParserState) (m : Groups) : Option ParserState := do
  let ue := pyNat (group 1 m)
  let time ← pyFloat (group 2 m)
  let extra := parseKvPairs ((group 3 m).dropWhile (· == ','))
  let decisionTime :=
    (extra.lookup "decision_delay".toList).bind fun delay =>
      (floatOf (strip delay)).map (FloatValue.finite time).sub
  let best :=
    (decisionTime.bind fun decisionTime => pickDebugMatch s.debugByUe ue decisionTime 1 true).or
      (pickDebugMatch s.debugByUe ue (.finite time) 2 false)
  let event : Handover :=
    { time := time
      ue := some ue
      src := best.map DebugEntry.serving
      tgt := best.map DebugEntry.neighbor
      triggerType := (extra.lookup "trigger_type".toList).map String.ofList }
  pure { s with pendingResult := push ue event s.pendingResult }

/-- `dict.pop`, for what it leaves. -/
def popKey {κ α : Type} [DecidableEq κ] (key : κ) (entries : List (κ × α)) : List (κ × α) :=
  entries.filter fun entry => entry.1 ≠ key

/-- A line that matches `RE_CHO_COMPLETE_UE`. The argument `pending_exec.pop(None, None)` is evaluated
before the entry of the UE is looked up. -/
def readCompleteUe (s : ParserState) (m : Groups) : ParserState :=
  let ue := pyNat (group 1 m)
  let src := normalize (group 2 m)
  let tgt := normalize (group 3 m)
  match s.pendingResult.lookup ue with
  | some (event :: later) =>
      { s with
        pendingResult := setKey ue later s.pendingResult
        events := s.events ++ [{ event with src := some src, tgt := some tgt }] }
  | _ =>
      let others := popKey none s.pendingExec
      let timeValue := (others.lookup (some ue)).or (s.pendingExec.lookup none)
      { s with
        pendingExec := popKey (some ue) others
        events := s.events ++ (timeValue.map fun t => ⟨t, some ue, some src, some tgt, none⟩).toList }

/-- A line that matches `RE_CHO_COMPLETE` alone. -/
def readComplete (s : ParserState) (m : Groups) : ParserState :=
  let src := normalize (group 1 m)
  let tgt := normalize (group 2 m)
  let timeValue := s.pendingExec.lookup none
  { s with
    pendingExec := popKey none s.pendingExec
    events := s.events ++ (timeValue.map fun t => ⟨t, none, some src, some tgt, none⟩).toList }

/-- One round of the loop over the lines, `none` for an error that nothing catches. -/
def parseLine (s : ParserState) (line : List Char) : Option ParserState :=
  match matchHere reHoDebug line with
  | some m => readDebug s m
  | none =>
      match matchHere reHoResult line with
      | some m => readResult s m
      | none =>
          match search reChoExecUe line with
          | some m =>
              (pyFloat (group 2 m)).map fun time =>
                { s with
                  pendingExec :=
                    setKey (some (pyNat (group 1 m))) time s.pendingExec }
          | none =>
              match search reChoExec line with
              | some m =>
                  (pyFloat (group 1 m)).map fun time =>
                    { s with pendingExec := setKey none time s.pendingExec }
              | none =>
                  match search reChoCompleteUe line with
                  | some m => some (readCompleteUe s m)
                  | none =>
                      if s.pendingExec = [] then some s
                      else some (((search reChoComplete line).map (readComplete s)).getD s)

/-- `parse_handovers_cho` -/
def parseHandoversCho (content : List Char) : Option (List Handover) :=
  ((splitlines content).foldlM parseLine {}).map fun s =>
    s.events ++ s.pendingResult.flatMap Prod.snd

/-! ## Names between white space -/

theorem length_behindBracket {text rest : List Char} (found : behindBracket text = some rest) :
    rest.length < text.length := by
  induction text with
  | nil => cases found
  | cons c text ih =>
      rw [behindBracket] at found
      rw [List.length_cons]
      split at found
      · obtain rfl := Option.some.inj found
        exact Nat.lt_succ_self _
      · split at found
        · exact (ih found).trans (Nat.lt_succ_self _)
        · cases found

theorem length_behindTag {text rest : List Char} (found : behindTag text = some rest) :
    rest.length < text.length := by
  unfold behindTag at found
  split at found
  · rename_i bracket split
    have suffix := (List.dropWhile_suffix (l := text) isPySpace).length_le
    have shorter := length_behindBracket found
    rw [split, List.length_cons] at suffix
    omega
  · cases found

/-- As many rounds as characters are enough. -/
theorem removeTagsWithin_eq {n : ℕ} {text : List Char} (enough : text.length ≤ n) :
    removeTagsWithin n text = removeTags text := by
  suffices same : ∀ n m text, text.length ≤ n → text.length ≤ m →
      removeTagsWithin n text = removeTagsWithin m text from same n _ text enough le_rfl
  intro n
  induction n with
  | zero =>
      intro m text empty _
      rw [List.eq_nil_of_length_eq_zero (Nat.le_zero.mp empty)]
      cases m <;> rfl
  | succ n ih =>
      intro m text enough enough'
      cases text with
      | nil => cases m <;> rfl
      | cons c rest =>
          cases m with
          | zero => cases enough'
          | succ m =>
              rw [removeTagsWithin, removeTagsWithin]
              cases found : behindTag (c :: rest) with
              | some behind =>
                  have shorter := length_behindTag found
                  exact ih m behind (by omega) (by omega)
              | none =>
                  rw [List.length_cons] at enough enough'
                  exact congrArg (c :: ·) (ih m rest (by omega) (by omega))

theorem removeTags_of_tag {text behind : List Char} (found : behindTag text = some behind) :
    removeTags text = removeTags behind := by
  cases text with
  | nil => cases found
  | cons c rest =>
      have shorter := length_behindTag found
      rw [List.length_cons] at shorter
      rw [removeTags, List.length_cons, removeTagsWithin, found]
      exact removeTagsWithin_eq (by omega)

theorem removeTags_cons {c : Char} {rest : List Char} (none : behindTag (c :: rest) = none) :
    removeTags (c :: rest) = c :: removeTags rest := by
  rw [removeTags, List.length_cons, removeTagsWithin, none]
  rfl

/-- A name without brackets keeps all of its text. -/
theorem removeTags_of_untagged {text : List Char} (untagged : '[' ∉ text) : removeTags text = text := by
  induction text with
  | nil => rfl
  | cons c rest ih =>
      have none : behindTag (c :: rest) = none := by
        unfold behindTag
        split
        · rename_i bracket split
          have member : '[' ∈ (c :: rest).dropWhile isPySpace := split ▸ List.mem_cons_self
          exact absurd ((List.dropWhile_suffix isPySpace).subset member) untagged
        · rfl
      rw [removeTags_cons none, ih fun member => untagged (List.mem_cons_of_mem _ member)]

section Spaces

variable {spaces : List Char}

theorem behindTag_cons_space {c : Char} (space : isPySpace c = true) (text : List Char) :
    behindTag (c :: text) = behindTag text := by
  unfold behindTag
  rw [List.dropWhile_cons_of_pos space]

theorem strip_removeTags_space_cons {c : Char} (space : isPySpace c = true) (text : List Char) :
    strip (removeTags (c :: text)) = strip (removeTags text) := by
  cases found : behindTag (c :: text) with
  | some behind =>
      rw [removeTags_of_tag found]
      rw [behindTag_cons_space space] at found
      rw [removeTags_of_tag found]
  | none =>
      rw [removeTags_cons found]
      exact @strip_spaces_append [c] (by simpa using space) (removeTags text)

theorem behindBracket_spaces (all : ∀ c ∈ spaces, isPySpace c = true) : behindBracket spaces = none := by
  induction spaces with
  | nil => rfl
  | cons c spaces ih =>
      have other : c ≠ ']' := by
        rintro rfl
        exact absurd (all ']' List.mem_cons_self) (by decide)
      rw [behindBracket, if_neg other, ih fun d member => all d (List.mem_cons_of_mem _ member), ite_self]

theorem behindBracket_append (all : ∀ c ∈ spaces, isPySpace c = true) (text : List Char) :
    behindBracket (text ++ spaces) = (behindBracket text).map (· ++ spaces) := by
  induction text with
  | nil => exact behindBracket_spaces all
  | cons c text ih =>
      rw [List.cons_append, behindBracket, behindBracket, ih]
      split
      · rfl
      · split <;> rfl

theorem behindTag_append (all : ∀ c ∈ spaces, isPySpace c = true) (text : List Char) :
    behindTag (text ++ spaces) = (behindTag text).map (· ++ spaces) := by
  unfold behindTag
  rw [List.dropWhile_append]
  cases text.dropWhile isPySpace with
  | nil =>
      rw [List.dropWhile_eq_nil_iff.mpr all]
      rfl
  | cons c rest =>
      rw [if_neg (by simp)]
      by_cases bracket : c = '['
      · subst bracket
        exact behindBracket_append all rest
      · simp [bracket]

theorem removeTags_append_spaces (all : ∀ c ∈ spaces, isPySpace c = true) (text : List Char) :
    removeTags (text ++ spaces) = removeTags text ++ spaces := by
  -- a tag may delete any number of characters
  induction length : text.length using Nat.strong_induction_on generalizing text with
  | _ n ih =>
      cases text with
      | nil =>
          refine removeTags_of_untagged fun member => ?_
          exact absurd (all '[' member) (by decide)
      | cons c rest =>
          have appended := behindTag_append all (c :: rest)
          cases found : behindTag (c :: rest) with
          | some behind =>
              rw [found] at appended
              rw [removeTags_of_tag appended, removeTags_of_tag found]
              exact ih _ (length ▸ length_behindTag found) behind rfl
          | none =>
              rw [found] at appended
              have later := ih rest.length (by simp [← length]) rest rfl
              rw [List.cons_append] at appended
              rw [removeTags_cons found, List.cons_append, removeTags_cons appended, later,
                List.cons_append]

/-- White space around a name does not change what it is normalized to. -/
theorem normalize_spaces {before after : List Char} (allBefore : ∀ c ∈ before, isPySpace c = true)
    (allAfter : ∀ c ∈ after, isPySpace c = true) (text : List Char) :
    normalize (before ++ (text ++ after)) = normalize text := by
  have front : ∀ text, strip (removeTags (before ++ text)) = strip (removeTags text) := by
    intro text
    induction before with
    | nil => rfl
    | cons c before ih =>
        rw [List.cons_append, strip_removeTags_space_cons (allBefore c List.mem_cons_self)]
        exact ih fun d member => allBefore d (List.mem_cons_of_mem _ member)
  rw [normalize, normalize, front, removeTags_append_spaces allAfter, strip_append_spaces allAfter]

end Spaces

/-! ## What a line does -/

/-- A line that the parser takes as a result, an execution or a completion, or that it fails at. -/
def matters (line : List Char) : Bool :=
  match matchHere reHoDebug line with
  | some m => (debugEntry m).isNone
  | none =>
      (matchHere reHoResult line).isSome || (search reChoExecUe line).isSome ||
        (search reChoExec line).isSome || (search reChoCompleteUe line).isSome ||
        (search reChoComplete line).isSome

/-- What the parser has read and what it waits for: nothing, or the completion of a UE, at the time of a
result or of an execution. -/
inductive Awaits where
  | nothing
  | result (ue : ℕ) (time : ℚ)
  | execution (ue : ℕ) (time : ℚ)

structure Progress where
  read : List Handover
  awaits : Awaits

/-- A handover without its trigger, of which a log of completions says nothing. -/
def Handover.untyped (e : Handover) : Handover := { e with triggerType := none }

/-- No result waits for its completion. -/
def Settled (pendingResult : List (ℕ × List Handover)) : Prop := ∀ group ∈ pendingResult, group.2 = []

def Awaits.Holds (s : ParserState) : Awaits → Prop
  | .nothing => Settled s.pendingResult
  | .result ue time => ∃ groups event, Settled groups ∧ s.pendingResult = push ue event groups ∧
      event.time = time ∧ event.ue = some ue
  | .execution ue time => Settled s.pendingResult ∧ s.pendingExec.lookup (some ue) = some time

/-- The state of the parser, as far as it matters for what it reads. -/
structure Reads (s : ParserState) (p : Progress) : Prop where
  events : s.events.map Handover.untyped = p.read
  awaits : p.awaits.Holds s

theorem exists_readDebug {m : Groups} (readable : (debugEntry m).isNone = false) (s : ParserState) :
    ∃ debug, readDebug s m = some { s with debugByUe := debug } := by
  unfold readDebug
  cases read : debugEntry m with
  | none => simp [read] at readable
  | some entry => cases entry <;> exact ⟨_, rfl⟩

/-- A line that does not matter leaves alone what does. -/
theorem reads_quiet {line : List Char} (quiet : matters line = false) {s : ParserState} {p : Progress}
    (reads : Reads s p) : ∃ s', parseLine s line = some s' ∧ Reads s' p := by
  have same : ∀ debug, Reads { s with debugByUe := debug } p := by
    refine fun debug => ⟨reads.events, ?_⟩
    have holds := reads.awaits
    cases awaits : p.awaits <;> rw [awaits] at holds <;> exact holds
  unfold matters at quiet
  unfold parseLine
  cases debug : matchHere reHoDebug line with
  | some m =>
      rw [debug] at quiet
      obtain ⟨entries, read⟩ := exists_readDebug quiet s
      exact ⟨_, read, same entries⟩
  | none =>
      simp only [debug, Bool.or_eq_false_iff, Option.isSome_eq_false_iff,
        Option.isNone_iff_eq_none] at quiet
      obtain ⟨⟨⟨⟨result, execUe⟩, exec⟩, completeUe⟩, complete⟩ := quiet
      rw [result, execUe, exec, completeUe, complete]
      refine ⟨s, ?_, same s.debugByUe⟩
      dsimp only
      split <;> rfl

section Lines

variable {line : List Char} {s : ParserState} {read : List Handover} {ue : ℕ} {time : ℚ}

theorem Settled.lookup {groups : List (ℕ × List Handover)} (settled : Settled groups) (ue : ℕ) :
    (groups.lookup ue).getD [] = [] := by
  cases found : groups.lookup ue with
  | none => rfl
  | some events =>
      obtain ⟨before, after, rfl, -⟩ := List.lookup_eq_some_iff.mp found
      exact settled (ue, events) (by simp)

theorem Settled.setKey {groups : List (ℕ × List Handover)} (settled : Settled groups) (ue : ℕ) :
    Settled (setKey ue [] groups) := by
  intro group member
  rcases mem_setKey member with rfl | old
  · rfl
  · exact settled group old

theorem pyNat_group {m : Groups} (first : m.head? = some (showNat ue)) : pyNat (group 1 m) = ue := by
  cases m with
  | nil => cases first
  | cons digits rest =>
      obtain rfl := Option.some.inj first
      exact pyNat_showNat ue

/-- A result waits for the completion of its UE. -/
theorem reads_result (debug : matchHere reHoDebug line = none) {t rest : List Char}
    (found : matchHere reHoResult line = some [showNat ue, t, rest]) (number : pyFloat t = some time)
    (reads : Reads s ⟨read, .nothing⟩) :
    ∃ s', parseLine s line = some s' ∧ Reads s' ⟨read, .result ue time⟩ := by
  have own : pyNat (group 1 [showNat ue, t, rest]) = ue := pyNat_group rfl
  have second : group 2 [showNat ue, t, rest] = t := rfl
  unfold parseLine
  rw [debug, found]
  dsimp only
  unfold readResult
  rw [own, second, number]
  exact ⟨_, rfl, reads.events, s.pendingResult, _, reads.awaits, rfl, rfl, rfl⟩

/-- An execution waits for the completion of its UE. -/
theorem reads_execution (debug : matchHere reHoDebug line = none) (result : matchHere reHoResult line = none)
    {t : List Char} (found : search reChoExecUe line = some [showNat ue, t])
    (number : pyFloat t = some time) (reads : Reads s ⟨read, .nothing⟩) :
    ∃ s', parseLine s line = some s' ∧ Reads s' ⟨read, .execution ue time⟩ := by
  have own : pyNat (group 1 [showNat ue, t]) = ue := pyNat_group rfl
  have second : group 2 [showNat ue, t] = t := rfl
  unfold parseLine
  rw [debug, result, found]
  dsimp only
  rw [own, second, number]
  refine ⟨_, rfl, reads.events, reads.awaits, ?_⟩
  exact (lookup_setKey (some ue) time s.pendingExec (some ue)).trans (if_pos rfl)

/-- A completion is read with the time that waits for it. -/
theorem reads_completion (debug : matchHere reHoDebug line = none) (result : matchHere reHoResult line = none)
    (execUe : search reChoExecUe line = none) (exec : search reChoExec line = none) {src tgt : List Char}
    (found : search reChoCompleteUe line = some [showNat ue, src, tgt])
    (reads : Reads s ⟨read, .result ue time⟩ ∨ Reads s ⟨read, .execution ue time⟩) :
    ∃ s', parseLine s line = some s' ∧
      Reads s' ⟨read ++ [⟨time, some ue, some (normalize src), some (normalize tgt), none⟩], .nothing⟩ := by
  have own : pyNat (group 1 [showNat ue, src, tgt]) = ue := pyNat_group rfl
  unfold parseLine
  rw [debug, result, execUe, exec, found]
  refine ⟨_, rfl, ?_⟩
  unfold readCompleteUe
  rw [own]
  dsimp only
  rcases reads with ⟨events, groups, event, settled, waits, at_time, of_ue⟩ | ⟨events, settled, executed⟩
  · have queue : s.pendingResult.lookup ue = some [event] := by
      rw [waits, push, lookup_setKey, if_pos rfl, settled.lookup, List.nil_append]
    rw [queue]
    constructor
    · simp only [List.map_append, events, List.map_cons, List.map_nil, Handover.untyped, at_time, of_ue]
      rfl
    · change Settled (setKey ue [] s.pendingResult)
      rw [waits, push, setKey_setKey]
      exact settled.setKey ue
  · have kept : (popKey none s.pendingExec).lookup (some ue) = some time := by
      rw [← executed]
      unfold popKey
      generalize s.pendingExec = entries
      induction entries with
      | nil => rfl
      | cons entry entries ih =>
          by_cases unnamed : entry.1 = none
          · rw [List.filter_cons_of_neg (by simpa using unnamed), ih, List.lookup_cons, unnamed]
            rfl
          · rw [List.filter_cons_of_pos (by simpa using unnamed), List.lookup_cons, List.lookup_cons, ih]
    have queue : ∀ event later, s.pendingResult.lookup ue ≠ some (event :: later) := by
      intro event later waits
      have empty := settled.lookup ue
      rw [waits] at empty
      cases empty
    split
    · rename_i event later waits
      exact absurd waits (queue event later)
    · refine ⟨?_, settled⟩
      rw [kept]
      simp only [List.map_append, events]
      rfl

end Lines

/-! ## What lines do -/

/-- A text consists of `lines`, in order, and of other lines that do not matter. -/
inductive Interspersed : List (List Char) → List (List Char) → Prop
  | nil : Interspersed [] []
  | line {lines text : List (List Char)} (line : List Char) (rest : Interspersed lines text) :
      Interspersed (line :: lines) (line :: text)
  | quiet {lines text : List (List Char)} {line : List Char} (quiet : matters line = false)
      (rest : Interspersed lines text) : Interspersed lines (line :: text)

theorem interspersed_self (lines : List (List Char)) : Interspersed lines lines := by
  induction lines with
  | nil => exact .nil
  | cons line lines ih => exact .line line ih

theorem Interspersed.split {lines lines' text : List (List Char)}
    (all : Interspersed (lines ++ lines') text) :
    ∃ front rest, text = front ++ rest ∧ Interspersed lines front ∧ Interspersed lines' rest := by
  generalize whole : lines ++ lines' = joined at all
  induction all generalizing lines with
  | nil =>
      obtain ⟨rfl, rfl⟩ := List.append_eq_nil_iff.mp whole
      exact ⟨[], [], rfl, .nil, .nil⟩
  | @line joined text first rest ih =>
      cases lines with
      | nil =>
          rw [List.nil_append] at whole
          rw [whole]
          exact ⟨[], first :: text, rfl, .nil, .line first rest⟩
      | cons line lines =>
          obtain ⟨rfl, later⟩ := List.cons.inj whole
          obtain ⟨front, behind, rfl, inFront, inRest⟩ := ih later
          exact ⟨line :: front, behind, rfl, .line line inFront, inRest⟩
  | @quiet joined text first silent rest ih =>
      obtain ⟨front, behind, rfl, inFront, inRest⟩ := ih whole
      exact ⟨first :: front, behind, rfl, .quiet silent inFront, inRest⟩

/-- `lines`, whatever stands between them, lead the parser from one progress to another. -/
def Leads (lines : List (List Char)) (p p' : Progress) : Prop :=
  ∀ ⦃text : List (List Char)⦄ ⦃s : ParserState⦄, Interspersed lines text → Reads s p →
    ∃ s', text.foldlM parseLine s = some s' ∧ Reads s' p'

theorem leads_nil (p : Progress) : Leads [] p p := by
  intro text s silent reads
  induction text generalizing s with
  | nil => exact ⟨s, rfl, reads⟩
  | cons line text ih =>
      cases silent with
      | quiet quiet rest =>
          obtain ⟨s₁, parsed, reads₁⟩ := reads_quiet quiet reads
          rw [List.foldlM_cons, parsed]
          exact ih rest reads₁

theorem Leads.append {lines lines' : List (List Char)} {p p' p'' : Progress} (first : Leads lines p p')
    (second : Leads lines' p' p'') : Leads (lines ++ lines') p p'' := by
  intro text s all reads
  obtain ⟨front, rest, rfl, inFront, inRest⟩ := all.split
  obtain ⟨s₁, parsed, reads₁⟩ := first inFront reads
  rw [List.foldlM_append, parsed]
  exact second inRest reads₁

theorem leads_line {line : List Char} {p p' : Progress}
    (step : ∀ {s}, Reads s p → ∃ s', parseLine s line = some s' ∧ Reads s' p') : Leads [line] p p' := by
  intro text s single reads
  induction text generalizing s with
  | nil => cases single
  | cons first text ih =>
      cases single with
      | line _ rest =>
          obtain ⟨s₁, parsed, reads₁⟩ := step reads
          rw [List.foldlM_cons, parsed]
          exact leads_nil p' rest reads₁
      | quiet quiet rest =>
          obtain ⟨s₁, parsed, reads₁⟩ := reads_quiet quiet reads
          rw [List.foldlM_cons, parsed]
          exact ih rest reads₁

/-- What the lines of a log lead to is what is read from it. -/
theorem parseHandoversCho_of_leads {lines : List (List Char)} {read : List Handover}
    (leads : Leads lines ⟨[], .nothing⟩ ⟨read, .nothing⟩) {content : List Char}
    (printed : Interspersed lines (splitlines content)) :
    ∃ events, parseHandoversCho content = some events ∧ events.map Handover.untyped = read := by
  have start : Reads {} ⟨[], .nothing⟩ := ⟨rfl, fun group member => by cases member⟩
  obtain ⟨s, parsed, reads⟩ := leads printed start
  have left : s.pendingResult.flatMap Prod.snd = [] := List.flatMap_eq_nil_iff.mpr reads.awaits
  refine ⟨s.events, ?_, reads.events⟩
  rw [parseHandoversCho, parsed, Option.map_some, left, List.append_nil]

end Pingpong

end NtnCho
