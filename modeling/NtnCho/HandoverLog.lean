import NtnCho.HandoverParser
import NtnCho.Results
import NtnCho.Text.Csv
import NtnCho.Transcript

/-!
# Handovers in the log

What a simulation prints about its executions is read by `parse_handovers_cho` as the handovers that it
completed. TD-CHO prints `[HO_RESULT]` before `CHO HANDOVER COMPLETE`, SD-TOPSIS-CHO `EXECUTION COMPLETE`
at the start of every execution and `CHO HANDOVER COMPLETE` when the execution succeeds. Within one event
nothing of another UE is printed in between, so each completion finds the time of its own execution, and
that of a failed execution is overwritten or never used.
-/

namespace NtnCho

open EventSystem Frames Text Text.Regex

variable {P : Program} {env : Env}

/-! ## The printed lines -/

/-- `,key=value` -/
def pairText (pair : String × Field) : List Char := ',' :: (pair.1.toList ++ '=' :: pair.2.text)

/-- The line that `CHO_Phase7_ExecutionComplete` prints on a success. -/
def completeText (ue : ℕ) (source target : List Char) : List Char :=
  "✓ [UE-".toList ++ (showNat ue ++ ("] CHO HANDOVER COMPLETE: ".toList ++
    (source ++ (" → ".toList ++ target))))

/-- The line that `CHO_Phase7_ExecutionComplete` of SD-TOPSIS-CHO prints first, after earlier lines
have set `std::fixed`. -/
def executionText (ue : ℕ) (time : ℚ) : List Char :=
  "  [UE-".toList ++ (showNat ue ++ ("] Phase 7: EXECUTION COMPLETE at t=".toList ++
    (showFixed 1 time ++ ['s'])))

/-- The text of a line on a handover. -/
def LogLine.handoverText : LogLine → Option (List Char)
  | .stdout "HO_RESULT" fields => some ("[HO_RESULT]".toList ++ fields.flatMap pairText)
  | .stdout "CHO HANDOVER COMPLETE" [("ue", .nat ue), ("source", .str source), ("target", .str target)] =>
      some (completeText ue source.toList target.toList)
  | _ => none

namespace Pingpong

/-- An arrow stands between white space. -/
def hasSpacedArrow : List Char → Bool
  | c :: '→' :: d :: rest => isPySpace c && isPySpace d || hasSpacedArrow ('→' :: d :: rest)
  | _ :: rest => hasSpacedArrow rest
  | [] => false

/-- A name that is read back from a completion: not empty, on one line, without an arrow between white
space when it is printed between spaces, and without the beginnings of other expressions. -/
structure Readable (name : List Char) : Prop where
  some_char : name ≠ []
  line : ∀ c ∈ name, isLineBreak c = false
  arrow : hasSpacedArrow (' ' :: (name ++ [' '])) = false
  completion : ¬ "CHO HANDOVER COMPLETE:".toList <:+: name
  execution : ¬ "EXECUTION COMPLETE at t=".toList <:+: name

instance (name : List Char) : Decidable (Readable name) :=
  decidable_of_iff (name ≠ [] ∧ (∀ c ∈ name, isLineBreak c = false) ∧
      hasSpacedArrow (' ' :: (name ++ [' '])) = false ∧
      ¬ "CHO HANDOVER COMPLETE:".toList <:+: name ∧ ¬ "EXECUTION COMPLETE at t=".toList <:+: name)
    ⟨fun ⟨some_char, line, arrow, completion, execution⟩ => ⟨some_char, line, arrow, completion, execution⟩,
      fun ⟨some_char, line, arrow, completion, execution⟩ =>
        ⟨some_char, line, arrow, completion, execution⟩⟩

example : Readable "A→B".toList := by decide +kernel

theorem Readable.isDot {name : List Char} (readable : Readable name) : ∀ c ∈ name, isDot c = true := by
  intro c member
  have line := readable.line c member
  unfold Pingpong.isDot
  by_contra newline
  obtain rfl : c = '\n' := by simpa using newline
  cases line

/-! ### Results -/

theorem isNumberChar_of_mem {precision : ℕ} {x : ℚ} (nonneg : 0 ≤ x) {c : Char}
    (member : c ∈ showFixed precision x) : isNumberChar c = true := by
  have signless : c ≠ '-' := by
    rintro rfl
    unfold showFixed at member
    rw [if_neg (not_lt.mpr nonneg), List.nil_append] at member
    rcases List.mem_append.mp member with digit | point
    · exact absurd (isDigit_of_mem_showNat digit) (by decide)
    · rcases List.mem_cons.mp point with other | digit
      · cases other
      · exact absurd (isDigit_of_mem_showDecimals digit) (by decide)
  unfold isNumberChar
  rcases mem_showFixed member with digit | rfl | rfl
  · rw [digit, Bool.true_or]
  · exact absurd rfl signless
  · rfl

theorem debug_result (fields : List (String × Field)) :
    matchHere reHoDebug ("[HO_RESULT]".toList ++ fields.flatMap pairText) = none := rfl

/-- A result is read up to its time. -/
theorem matchHere_result (ue : ℕ) {time : ℚ} (nonneg : 0 ≤ time) {fields : List (String × Field)}
    (line : ∀ c ∈ fields.flatMap pairText, isDot c = true) :
    matchHere reHoResult ("[HO_RESULT]".toList ++
        (("ue", Field.nat ue) :: ("t", Field.fixed 3 time) :: fields).flatMap pairText) =
      some [showNat ue, showFixed 3 time, fields.flatMap pairText] := by
  have shape : "[HO_RESULT]".toList ++
      (("ue", Field.nat ue) :: ("t", Field.fixed 3 time) :: fields).flatMap pairText =
      [] ++ ("[HO_RESULT],ue=".toList ++ (showNat ue ++ (",t=".toList ++
        (showFixed 3 time ++ fields.flatMap pairText)))) := by
    simp only [List.flatMap_cons, pairText, Field.text, List.cons_append, List.append_assoc]
    rfl
  have stop : ∀ c ∈ (fields.flatMap pairText).head?, isNumberChar c = false := by
    intro c head
    cases fields with
    | nil => cases head
    | cons pair fields =>
        obtain rfl := Option.some.inj head
        rfl
  have rest := matchHere_last line (Nat.zero_le _)
  rw [shape]
  refine matchHere_greedy (fun c member => by cases member) (stops_at rfl rfl) (Nat.zero_le _) ?_
  rw [matchHere_lit]
  refine matchHere_greedy (fun c => isPyDigit_of_mem_showNat) (stops_at rfl rfl)
    (List.length_pos_iff.mpr (showNat_ne_nil ue)) ?_
  rw [matchHere_lit]
  exact matchHere_greedy (fun c => isNumberChar_of_mem nonneg) stop
    (List.length_pos_iff.mpr (List.ne_nil_of_mem (point_mem_showFixed 3 time))) rest

/-! ### Executions -/

/-- The literal of an expression, in the text before and behind it. -/
theorem matchHere_behind {literal front rest : List Char} {pieces : List Piece} {groups : Groups}
    (some_char : literal ≠ []) (line : ∀ c ∈ front, isDot c = true)
    (earlier : ¬ literal <:+: front ++ literal.dropLast)
    (unbordered : ∀ suffix ∈ literal.tail.tails, suffix ≠ [] → ¬ suffix <+: literal)
    (absent : ¬ literal <:+: rest) (found : matchHere pieces rest = some groups) :
    matchHere (.run isDot 0 true false :: .lit literal :: pieces) (front ++ (literal ++ rest)) =
      some groups := by
  have here : matchHere (.lit literal :: pieces) (literal ++ rest) = some groups := by
    rw [matchHere_lit, found]
  have exists_ : (matchHere (.run isDot 0 true false :: .lit literal :: pieces)
      (front ++ (literal ++ rest))).isSome = true :=
    isSome_matchHere_run line (Nat.zero_le _) (by rw [here]; rfl)
  obtain ⟨groups', found'⟩ := Option.isSome_iff_exists.mp exists_
  obtain ⟨run, behind, _, split, -, -, next, rfl⟩ := exists_of_matchHere_run found'
  obtain ⟨rest', rfl, next'⟩ := exists_of_matchHere_lit next
  -- wherever the run ends, the literal stands where it was printed
  obtain ⟨-, rfl⟩ := lit_unique some_char split earlier (not_infix_tail unbordered absent)
  rw [found] at next'
  rw [found']
  exact next'.symm

/-- An execution is read with its UE and its time. -/
theorem search_execution (ue : ℕ) {time : ℚ} (nonneg : 0 ≤ time) :
    search reChoExecUe (executionText ue time) = some [showNat ue, showFixed 1 time] := by
  have shape : executionText ue time = "  ".toList ++ ("[UE-".toList ++ (showNat ue ++ ("]".toList ++
      (" Phase 7: ".toList ++ ("EXECUTION COMPLETE at t=".toList ++ (showFixed 1 time ++ ['s'])))))) := rfl
  have digits : ∀ c ∈ showFixed 1 time ++ ['s'], isNumberChar c = true ∨ c = 's' := by
    intro c member
    exact (List.mem_append.mp member).imp (isNumberChar_of_mem nonneg) List.mem_singleton.mp
  have absent : ¬ "EXECUTION COMPLETE at t=".toList <:+: showFixed 1 time ++ ['s'] := by
    intro inside
    have letter := digits 'E' (inside.subset (by decide))
    exact absurd letter (by decide)
  have number : matchHere [.run isNumberChar 1 true true, .lit ['s']] (showFixed 1 time ++ ['s']) =
      some [showFixed 1 time] :=
    matchHere_greedy (fun c => isNumberChar_of_mem nonneg) (by decide)
      (List.length_pos_iff.mpr (List.ne_nil_of_mem (point_mem_showFixed 1 time))) rfl
  rw [shape]
  refine (search_append (by decide) _ _).trans (search_of_matchHere ?_)
  refine (matchHere_lit _ _ _).trans ?_
  refine matchHere_greedy (fun c => isPyDigit_of_mem_showNat) (stops_at rfl rfl)
    (List.length_pos_iff.mpr (showNat_ne_nil ue)) ?_
  refine (matchHere_lit _ _ _).trans ?_
  exact matchHere_behind (by decide) (by decide) (by decide) (by decide) absent number

theorem debug_execution (ue : ℕ) (time : ℚ) : matchHere reHoDebug (executionText ue time) = none := rfl

theorem result_execution (ue : ℕ) (time : ℚ) : matchHere reHoResult (executionText ue time) = none := rfl

/-! ### Completions -/

theorem debug_completion (ue : ℕ) (source target : List Char) :
    matchHere reHoDebug (completeText ue source target) = none := rfl

theorem result_completion (ue : ℕ) (source target : List Char) :
    matchHere reHoResult (completeText ue source target) = none := rfl

/-- A literal without space at its ends does not begin or end in the spaces around a name. -/
theorem not_infix_spaces {literal name : List Char} (first : literal.head? ≠ some ' ')
    (last : literal.getLast? ≠ some ' ') (some_char : literal ≠ []) (absent : ¬ literal <:+: name) :
    ¬ literal <:+: ' ' :: name ∧ ¬ literal <:+: ' ' :: (name ++ [' ']) := by
  have front : ∀ text, literal <:+: ' ' :: text → literal <:+: text := by
    intro text inside
    refine (List.infix_cons_iff.mp inside).resolve_left fun before => ?_
    obtain ⟨c, tail, rfl⟩ := List.exists_cons_of_ne_nil some_char
    exact first (congrArg some (List.cons_prefix_cons.mp before).1)
  refine ⟨fun inside => absent (front name inside), fun inside => ?_⟩
  rcases List.infix_concat_iff.mp (front _ inside) with behind | inside
  · rcases List.suffix_concat_iff.mp behind with empty | ⟨text, rfl, -⟩
    · exact some_char empty
    · exact last List.getLast?_concat
  · exact absent inside

/-- No literal without an arrow that neither name contains stands in the text of a completion. -/
theorem not_infix_cells {literal source target : List Char} (first : literal.head? ≠ some ' ')
    (last : literal.getLast? ≠ some ' ') (some_char : literal ≠ []) (arrow : '→' ∉ literal)
    (absent : ¬ literal <:+: source) (absent' : ¬ literal <:+: target) :
    ¬ literal <:+: ' ' :: (source ++ (" → ".toList ++ target)) := by
  have shape : ' ' :: (source ++ (" → ".toList ++ target)) =
      ' ' :: (source ++ [' ']) ++ '→' :: ' ' :: target := by
    simp
  rw [shape]
  intro inside
  rcases infix_or_infix arrow inside with before | behind
  · exact (not_infix_spaces first last some_char absent).2 before
  · exact (not_infix_spaces first last some_char absent').1 behind

/-- An arrow in a text, with the characters around it. -/
theorem hasSpacedArrow_of_split {front back : List Char} {c d : Char} (space : isPySpace c = true)
    (space' : isPySpace d = true) : hasSpacedArrow (front ++ c :: '→' :: d :: back) = true := by
  induction front with
  | nil => simp [hasSpacedArrow, space, space']
  | cons e front ih =>
      rw [List.cons_append]
      unfold hasSpacedArrow
      split
      · rename_i same
        obtain ⟨-, rest⟩ := List.cons.inj same
        rw [← rest, ih, Bool.or_true]
      · rename_i same
        obtain ⟨-, rfl⟩ := List.cons.inj same
        exact ih
      · rename_i same
        cases same

theorem hasSpacedArrow_append (rest : List Char) {text : List Char} (spaced : hasSpacedArrow text = true) :
    hasSpacedArrow (text ++ rest) = true := by
  fun_induction hasSpacedArrow text with
  | case1 c d text ih =>
      rcases Bool.or_eq_true_iff.mp spaced with here | later
      · simp [hasSpacedArrow, here]
      · have later := ih later
        rw [List.cons_append, List.cons_append] at later
        simp [hasSpacedArrow, later]
  | case2 c text other ih =>
      rw [List.cons_append]
      unfold hasSpacedArrow
      split
      · rename_i same
        obtain ⟨-, tail⟩ := List.cons.inj same
        rw [← tail, ih spaced, Bool.or_true]
      · rename_i same
        obtain ⟨-, rfl⟩ := List.cons.inj same
        exact ih spaced
      · rename_i same
        cases same
  | case3 => cases spaced

/-- Of two ways to split a text at an arrow between white space, one is the other, unless a part of one has
another such arrow. -/
theorem arrow_unique {front front' back back' : List Char} {c c' d d' : Char}
    (same : (front ++ [c]) ++ '→' :: d :: back = (front' ++ [c']) ++ '→' :: d' :: back')
    (space : isPySpace c = true) (space' : isPySpace d = true)
    (around : hasSpacedArrow (front' ++ [c']) = false) (behind : hasSpacedArrow (d' :: back') = false) :
    front ++ [c] = front' ++ [c'] ∧ d :: back = d' :: back' := by
  rcases List.append_eq_append_iff.mp same with ⟨more, front'_eq, rest⟩ | ⟨more, front_eq, rest⟩
  · -- the first arrow comes first
    cases more with
    | nil => exact ⟨by simpa using front'_eq.symm, (List.cons.inj rest).2⟩
    | cons e more =>
        obtain ⟨first, tail⟩ := List.cons.inj rest
        cases more with
        | nil =>
            obtain ⟨arrow, -⟩ := List.cons.inj tail
            rw [arrow] at space'
            cases space'
        | cons e' more =>
            obtain ⟨next, -⟩ := List.cons.inj tail
            rw [front'_eq, ← first, ← next, List.append_assoc, List.singleton_append,
              hasSpacedArrow_of_split space space'] at around
            cases around
  · -- the second arrow comes first, and the white space before the first one is in what follows it
    cases more with
    | nil => exact ⟨by simpa using front_eq, (List.cons.inj rest).2.symm⟩
    | cons e more =>
        obtain ⟨first, tail⟩ := List.cons.inj rest
        have ends := congrArg List.getLast? front_eq
        rcases List.eq_nil_or_concat more with rfl | ⟨more, last, rfl⟩
        · rw [List.getLast?_concat, List.getLast?_concat] at ends
          rw [Option.some.inj ends, ← first] at space
          cases space
        · rw [List.concat_eq_append, List.getLast?_concat, ← List.cons_append, ← List.append_assoc,
            List.getLast?_concat] at ends
          have split : d' :: back' = more ++ c :: '→' :: d :: back := by
            rw [Option.some.inj ends]
            simpa using tail
          rw [split, hasSpacedArrow_of_split space space'] at behind
          cases behind

/-- The names behind `CHO HANDOVER COMPLETE:`, up to the white space around them. -/
theorem exists_cells {source target : List Char} (readable : Readable source)
    (readable' : Readable target) :
    ∃ src tgt, matchHere reChoComplete.tail (' ' :: (source ++ (" → ".toList ++ target))) =
        some [src, tgt] ∧ normalize src = normalize source ∧ normalize tgt = normalize target := by
  have space : ∀ c ∈ [' '], isPySpace c = true := by decide
  have some_match : (matchHere reChoComplete.tail
      ([' '] ++ (source ++ ([' '] ++ ("→".toList ++ ([' '] ++ target)))))).isSome = true := by
    refine isSome_matchHere_run space (by decide) ?_
    refine isSome_matchHere_run readable.isDot (List.length_pos_iff.mpr readable.some_char) ?_
    refine isSome_matchHere_run space (by decide) ?_
    refine (congrArg Option.isSome (matchHere_lit _ _ _)).trans ?_
    refine isSome_matchHere_run space (by decide) ?_
    rw [matchHere_last readable'.isDot (List.length_pos_iff.mpr readable'.some_char)]
    rfl
  obtain ⟨groups, found⟩ := Option.isSome_iff_exists.mp some_match
  obtain ⟨before, rest₁, _, split₁, spaces₁, -, found₁, rfl⟩ := exists_of_matchHere_run found
  obtain ⟨src, rest₂, _, rfl, -, -, found₂, rfl⟩ := exists_of_matchHere_run found₁
  obtain ⟨after, rest₃, _, rfl, spaces₂, least₂, found₃, rfl⟩ := exists_of_matchHere_run found₂
  obtain ⟨rest₄, rfl, found₄⟩ := exists_of_matchHere_lit found₃
  obtain ⟨before', tgt, _, rfl, spaces₃, least₃, found₅, rfl⟩ := exists_of_matchHere_run found₄
  -- neither name has an arrow between white space, so the one that is found is the one between them
  obtain ⟨after', c, rfl⟩ := (List.eq_nil_or_concat after).resolve_left (List.length_pos_iff.mp least₂)
  obtain ⟨d, before'', rfl⟩ := List.exists_cons_of_ne_nil (List.length_pos_iff.mp least₃)
  have same : ((before ++ src ++ after') ++ [c]) ++ '→' :: d :: (before'' ++ tgt) =
      ((' ' :: source) ++ [' ']) ++ '→' :: ' ' :: target := by simpa using split₁.symm
  have behind : hasSpacedArrow (' ' :: target) = false := by
    by_contra spaced
    have spaced := hasSpacedArrow_append [' '] (by simpa using spaced)
    rw [List.cons_append, readable'.arrow] at spaced
    cases spaced
  obtain ⟨first, second⟩ := arrow_unique same (spaces₂ c (by simp)) (spaces₃ d List.mem_cons_self)
    readable.arrow behind
  replace first : ' ' :: (source ++ [' ']) = before ++ (src ++ after'.concat c) := by
    simpa using first.symm
  replace second : ' ' :: target = d :: before'' ++ tgt := second.symm
  have some_char : tgt ≠ [] := by
    obtain ⟨run, _, _, rfl, -, enough, -⟩ := exists_of_matchHere_run found₅
    exact List.append_ne_nil_of_left_ne_nil (List.length_pos_iff.mp enough) _
  have line : ∀ c ∈ tgt, isDot c = true := by
    intro c member
    have inside : c ∈ ' ' :: target := by
      rw [second]
      exact List.mem_append_right _ member
    rcases List.mem_cons.mp inside with rfl | inTarget
    · rfl
    · exact readable'.isDot c inTarget
  rw [matchHere_last line (List.length_pos_iff.mpr some_char)] at found₅
  obtain rfl := Option.some.inj found₅
  refine ⟨src, tgt, found, ?_, ?_⟩
  · rw [← normalize_spaces spaces₁ spaces₂ src, ← first]
    exact normalize_spaces space space source
  · have own := normalize_spaces spaces₃ (List.forall_mem_nil _) tgt
    have printed := normalize_spaces space (List.forall_mem_nil _) target
    rw [List.append_nil] at own printed
    rw [← own, ← second]
    exact printed

/-- A completion is read with its UE and its cells. -/
theorem exists_search_completion (ue : ℕ) {source target : List Char} (readable : Readable source)
    (readable' : Readable target) :
    ∃ src tgt, search reChoCompleteUe (completeText ue source target) = some [showNat ue, src, tgt] ∧
      normalize src = normalize source ∧ normalize tgt = normalize target := by
  have shape : completeText ue source target = "✓ ".toList ++ ("[UE-".toList ++ (showNat ue ++
      ("]".toList ++ (" ".toList ++ ("CHO HANDOVER COMPLETE:".toList ++
        (' ' :: (source ++ (" → ".toList ++ target)))))))) := rfl
  obtain ⟨src, tgt, cells, same, same'⟩ := exists_cells readable readable'
  have absent : ¬ "CHO HANDOVER COMPLETE:".toList <:+: ' ' :: (source ++ (" → ".toList ++ target)) :=
    not_infix_cells (by decide) (by decide) (by decide) (by decide) readable.completion
      readable'.completion
  refine ⟨src, tgt, ?_, same, same'⟩
  rw [shape]
  refine (search_append (by decide) _ _).trans (search_of_matchHere ?_)
  refine (matchHere_lit _ _ _).trans ?_
  refine matchHere_greedy (fun c => isPyDigit_of_mem_showNat) (stops_at rfl rfl)
    (List.length_pos_iff.mpr (showNat_ne_nil ue)) ?_
  refine (matchHere_lit _ _ _).trans ?_
  exact matchHere_behind (by decide) (by decide) (by decide) (by decide) absent cells

/-- A completion is no execution. -/
theorem execution_completion (ue : ℕ) {source target : List Char} (readable : Readable source)
    (readable' : Readable target) :
    search reChoExecUe (completeText ue source target) = none ∧
      search reChoExec (completeText ue source target) = none := by
  have shape : completeText ue source target =
      ("✓ [UE-".toList ++ (showNat ue ++ "] CHO HANDOVER COMPLETE".toList)) ++
        ':' :: ' ' :: (source ++ (" → ".toList ++ target)) := by
    simp [completeText]
  have absent : ¬ "EXECUTION COMPLETE at t=".toList <:+: completeText ue source target := by
    rw [shape]
    intro inside
    rcases infix_or_infix (by decide) inside with before | cells
    · have sign : '=' ∈ "✓ [UE-".toList ++ (showNat ue ++ "] CHO HANDOVER COMPLETE".toList) :=
        before.subset (by decide)
      rcases List.mem_append.mp sign with first | rest
      · exact absurd first (by decide)
      · rcases List.mem_append.mp rest with digit | last
        · exact absurd (isDigit_of_mem_showNat digit) (by decide)
        · exact absurd last (by decide)
    · exact not_infix_cells (by decide) (by decide) (by decide) (by decide) readable.execution
        readable'.execution cells
  exact ⟨search_eq_none (by simp [reChoExecUe, reChoExec]) absent,
    search_eq_none (by simp [reChoExec]) absent⟩

/-! ## What the printed lines lead to -/

section Leads

variable {read : List Handover} {ue : ℕ} {time : ℚ} {source target : List Char}

theorem leads_result (nonneg : 0 ≤ time) {fields : List (String × Field)}
    (line : ∀ c ∈ fields.flatMap pairText, isDot c = true) :
    Leads ["[HO_RESULT]".toList ++
        (("ue", Field.nat ue) :: ("t", Field.fixed 3 time) :: fields).flatMap pairText]
      ⟨read, .nothing⟩ ⟨read, .result ue (decimals 3 time)⟩ :=
  leads_line fun reads => reads_result (debug_result _) (matchHere_result ue nonneg line)
    (pyFloat_showFixed (by decide) time) reads

theorem leads_execution (nonneg : 0 ≤ time) :
    Leads [executionText ue time] ⟨read, .nothing⟩ ⟨read, .execution ue (decimals 1 time)⟩ :=
  leads_line fun reads => reads_execution (debug_execution ue time) (result_execution ue time)
    (search_execution ue nonneg) (pyFloat_showFixed (by decide) time) reads

/-- A failed execution leaves nothing that is waited for. -/
theorem leads_failed (nonneg : 0 ≤ time) :
    Leads [executionText ue time] ⟨read, .nothing⟩ ⟨read, .nothing⟩ := by
  intro text s printed reads
  obtain ⟨s', parsed, events, settled, -⟩ := leads_execution nonneg printed reads
  exact ⟨s', parsed, events, settled⟩

theorem leads_completion (readable : Readable source) (readable' : Readable target) {awaits : Awaits}
    (waits : awaits = .result ue time ∨ awaits = .execution ue time) :
    Leads [completeText ue source target] ⟨read, awaits⟩
      ⟨read ++ [⟨time, some ue, some (normalize source), some (normalize target), none⟩],
        .nothing⟩ := by
  obtain ⟨src, tgt, found, same, same'⟩ := exists_search_completion ue readable readable'
  obtain ⟨execUe, exec⟩ := execution_completion ue readable readable'
  rw [← same, ← same']
  refine leads_line fun {s} reads => reads_completion (debug_completion ue source target)
    (result_completion ue source target) execUe exec found ?_
  rcases waits with rfl | rfl
  · exact .inl reads
  · exact .inr reads

end Leads

end Pingpong

open Pingpong

/-! ## What an event prints -/

/-- The announcement of an execution that completes or fails. -/
def executionOf (f : Firing ℤ Sim Event) : List (List Char) :=
  match f.event.ev with
  | .cho .phase7ExecutionComplete ueId _ _ =>
      match f.before.state.ues[ueId]? with
      | none => []
      | some ue =>
          if ue.choProcState.phase = .ueExecuting then [executionText ueId (getSeconds f.event.ts)]
          else []
  | _ => []

/-- What a firing prints on executions and handovers; a program that `announces` its executions does so
first. -/
def handoverOutput (announces : Bool) (f : Firing ℤ Sim Event) : List (List Char) :=
  (if announces then executionOf f else []) ++ (newLines f).filterMap LogLine.handoverText

/-- The handover that a firing completes, as it is to be read, with the printed decimals of its time. -/
def completionOf (env : Env) (precision : ℕ) (f : Firing ℤ Sim Event) : Option Handover :=
  match f.event.ev with
  | .cho .phase7ExecutionComplete ueId sourceCell targetCell =>
      f.before.state.ues[ueId]?.bind fun ue =>
        if ue.choProcState.phase = .ueExecuting ∧ choIsLinkViable env ue targetCell = true then
          some ⟨decimals precision (getSeconds f.event.ts), some ueId,
            some (normalize sourceCell.toList), some (normalize targetCell.toList), none⟩
        else none
  | _ => none

/-! ### Other events -/

/-- The evaluations and failures of a program print no line on handovers. -/
structure Program.Quiet (P : Program) : Prop where
  evaluation : ∀ {env i simTime ue serving measurements line},
    .log line ∈ (P.evaluateNeighbors env i simTime ue serving measurements).records →
      line.handoverText = none
  failure : ∀ i time reason ue, (P.failureLine i time reason ue).handoverText = none

theorem TdCho.quiet : tdCho.Quiet where
  evaluation recorded := by
    rcases TdCho.mem_records recorded with ⟨fields, rfl⟩ | ⟨rest, rfl⟩ <;> rfl
  failure _ _ _ _ := rfl

theorem Topsis.quiet : sdTopsisCho.Quiet where
  evaluation recorded := by cases recorded
  failure _ _ _ _ := rfl

theorem handoverText_of_early (quiet : P.Quiet) {i : ℕ} {line : LogLine}
    (early : P.PrintsEarly env i line) : line.handoverText = none := by
  cases early with
  | evaluation recorded => exact quiet.evaluation recorded
  | row => rfl

theorem handoverText_of_unowned {line : LogLine} (unowned : line.ofUe = false) :
    line.handoverText = none := by
  cases line with
  | csv => rfl
  | stdout tag fields =>
      obtain rfl : tag = "FUTURE_DEBUG" := by simpa [LogLine.ofUe] using unowned
      rfl

section Firing

variable {f : Firing ℤ Sim Event}

theorem log_after (step : Step (simHandler P env) anyOrder f.before f.event f.after) :
    f.after.state.log = (simHandler P env f.event.ev f.event.ts f.before.state).1.log :=
  congrArg Sim.log step.state_eq

/-- Only an event that completes an execution prints on handovers. -/
theorem newLines_quiet (quiet : P.Quiet)
    (step : Step (simHandler P env) anyOrder f.before f.event f.after)
    (other : ∀ ueId sourceCell targetCell,
      f.event.ev ≠ .cho .phase7ExecutionComplete ueId sourceCell targetCell) :
    (newLines f).filterMap LogLine.handoverText = [] := by
  obtain ⟨new, log, printed⟩ := @exists_log_simHandler P env f.event.ev f.event.ts f.before.state
  unfold newLines
  rw [log_after step, log, List.drop_left, List.filterMap_eq_nil_iff]
  intro line member
  cases own : line.ofUe with
  | false => exact handoverText_of_unowned own
  | true =>
      obtain ⟨j, ue, -, -, made⟩ := printed line member own
      refine @handoverText_of_early P env quiet j line ?_
      generalize f.event.ev = event at other made
      cases event with
      | checkHandoverConditions => exact prints_ueTick made
      | cho handler ueId sourceCell targetCell =>
          refine prints_choHandler_early ?_ made
          rintro rfl
          exact other ueId sourceCell targetCell rfl
      | evaluatePendingPrediction => cases made

/-- The end of an execution prints its result, when there is one, and the completion. -/
theorem newLines_completion (quiet : P.Quiet)
    (step : Step (simHandler P env) anyOrder f.before f.event f.after) {i : ℕ}
    {sourceCell targetCell : String} {ue : UeInfo}
    (event : f.event.ev = .cho .phase7ExecutionComplete i sourceCell targetCell)
    (present : f.before.state.ues[i]? = some ue) (executing : ue.choProcState.phase = .ueExecuting) :
    (newLines f).filterMap LogLine.handoverText =
      if choIsLinkViable env ue targetCell then
        (lines (hoResult i sourceCell targetCell (getSeconds f.event.ts) (getCachedSnr ue targetCell)
          ue.hoContext)).filterMap LogLine.handoverText ++
          [completeText i sourceCell.toList targetCell.toList]
      else [] := by
  have new : newLines f =
      lines (choPhase7ExecutionComplete P env i sourceCell targetCell (getSeconds f.event.ts) ue).2 := by
    unfold newLines
    rw [log_after step, event, simHandler, Sim.cho, present]
    dsimp only
    rw [Sim.log_applyEffects]
    exact List.drop_left
  rw [new]
  unfold choPhase7ExecutionComplete
  rw [if_neg (not_not.mpr executing)]
  dsimp only
  split
  · rw [lines_append, lines_append, List.filterMap_append, List.filterMap_append]
    rfl
  · rw [List.filterMap_eq_nil_iff]
    intro line member
    simp only [choHandleFailure, lines, choLog, List.filterMap_cons, Effect.line, List.filterMap_nil,
      List.mem_cons, List.not_mem_nil, or_false] at member
    rcases member with rfl | rfl
    · exact quiet.failure ..
    · rfl

end Firing

/-! ## The context of SD-TOPSIS-CHO -/

namespace Topsis

/-- `hoContext` is never set. -/
theorem hoContext_ueEvaluateAndReport {i : ℕ} {simTime : ℚ} {due : UeInfo}
    (reset : due.hoContext = resetHoContext) :
    (ueEvaluateAndReport sdTopsisCho env i simTime due).1.hoContext = resetHoContext := by
  rcases ueEvaluateAndReport_cases sdTopsisCho env i simTime due with
    ⟨-, unserved⟩ | ⟨-, failed⟩ | ⟨serving, -, evaluated⟩
  · rw [unserved]
  · rw [failed]
  · have kept : (due.evaluated (due.evaluation sdTopsisCho env i simTime serving)).hoContext =
        resetHoContext := reset
    rw [evaluated]
    dsimp only
    rcases timeToTrigger_cases sdTopsisCho simTime serving
        (due.evaluation sdTopsisCho env i simTime serving)
        (due.evaluated (due.evaluation sdTopsisCho env i simTime serving)) with
      ⟨-, starts⟩ | ⟨-, -, -, ⟨-, reports⟩ | waits⟩ | ⟨-, resets⟩
    · rw [starts]
      exact kept
    · rw [reports]
      exact kept
    · rw [waits]
      exact kept
    · rw [resets]

theorem hoContext_ueTick {i : ℕ} {simTime : ℚ} {ue : UeInfo} (reset : ue.hoContext = resetHoContext) :
    (ueTick sdTopsisCho env i simTime ue).1.hoContext = resetHoContext := by
  have updated := (@updated_hoContext sdTopsisCho env simTime ue).trans reset
  have adopted : ((ue.updated sdTopsisCho env simTime).adoptServingCell simTime).hoContext =
      resetHoContext := by
    unfold UeInfo.adoptServingCell
    dsimp only
    split <;> exact updated
  change (checkHandover sdTopsisCho env i simTime (ue.updated sdTopsisCho env simTime)).1.hoContext = _
  rcases checkHandover_spec sdTopsisCho env i simTime (ue.updated sdTopsisCho env simTime) with
    ⟨busy, -, action⟩ | ⟨-, -, stays | adopts⟩ | ⟨due, -, measured, measures⟩
  · generalize checkHandover sdTopsisCho env i simTime (ue.updated sdTopsisCho env simTime) = result
      at action
    by_cases goes_on : result.1.choProcState.phase = .idle
    case neg => exact (action.hoContext busy goes_on).trans updated
    case pos =>
      cases action with
      | quiet => exact updated
      | timer => exact updated
      | expires => exact (UeInfo.count_hoContext ..).trans updated
      | executes start evaluating =>
          have still : ((ue.updated sdTopsisCho env simTime).setExecutionTtt false
              start).choProcState.phase = .ueEvaluating := evaluating
          rw [choPhase6UeExecutes_phase still] at goes_on
          cases goes_on
      | reports _ _ idle => exact absurd idle busy
      | reselects _ idle => exact absurd idle busy
  · rw [stays]
    exact updated
  · rw [adopts]
    exact adopted
  · obtain ⟨rfl, -⟩ := UeInfo.due?_eq_some measured
    have evaluated := @hoContext_ueEvaluateAndReport env i simTime
      (((ue.updated sdTopsisCho env simTime).adoptServingCell simTime).startMeasurement simTime) adopted
    rw [measures]
    rcases measureAndReport_cases sdTopsisCho env i simTime _ with
      quiet | ⟨report, -, reselection, -⟩ | ⟨report, -, -, triggers⟩
    · rw [quiet]
      exact evaluated
    · cases reselection
    · rw [triggers]
      exact (onlyProcedure_choTriggerProcedure ..).hoContext.trans evaluated

theorem hoContext_of_run {ok : Policy ℤ Event} {i : ℕ} {rows : List UeRow}
    {h : List (Firing ℤ (Option UeInfo) Event)} {c : Conf ℤ (Option UeInfo) Event} {ue : UeInfo}
    (run : Run (ueHandler sdTopsisCho env i) ok (ueInitial env rows i) h c)
    (present : c.state = some ue) : ue.hoContext = resetHoContext := by
  refine ueRun_stateInvariant (I := fun ue => ue.hoContext = resetHoContext) run (fun _ => rfl) ?_
    present
  intro event now ue reset
  cases event with
  | checkHandoverConditions => exact hoContext_ueTick reset
  | cho handler ueId sourceCell targetCell =>
      rw [ueAction_cho]
      by_cases completes : handler = .phase7ExecutionComplete
      · subst completes
        simp only [choHandler, choPhase7ExecutionComplete]
        split
        · exact reset
        · split <;> rfl
      · exact (onlyProcedure_choHandler completes).hoContext.trans reset
  | evaluatePendingPrediction => exact reset

end Topsis

/-! ## Every run -/

/-- The names of all satellites are read back from the completions. -/
def Link.ReadableNames (L : Link) : Prop := ∀ name ∈ L.satellites.keys, Readable name.toList

instance (L : Link) : Decidable L.ReadableNames :=
  inferInstanceAs (Decidable (∀ name ∈ L.satellites.keys, Readable name.toList))

/-- The firing ends the execution of a UE. -/
structure EndsExecution (f : Firing ℤ Sim Event) (i : ℕ) (sourceCell targetCell : String) (ue : UeInfo) :
    Prop where
  event : f.event.ev = .cho .phase7ExecutionComplete i sourceCell targetCell
  present : f.before.state.ues[i]? = some ue
  executing : ue.choProcState.phase = .ueExecuting
  source : ue.choProcState.sourceCell = sourceCell
  target : ue.choProcState.targetCell = targetCell
  nonneg : 0 ≤ getSeconds f.event.ts

section Run

variable {rows : List UeRow} {h : List (Firing ℤ Sim Event)} {f : Firing ℤ Sim Event} {i : ℕ}
  {sourceCell targetCell : String} {ue : UeInfo}

/-- The end of an execution is a step of its UE. -/
theorem ueStep_of_completion (step : Step (simHandler P env) anyOrder f.before f.event f.after)
    (event : f.event.ev = .cho .phase7ExecutionComplete i sourceCell targetCell) :
    Step (ueHandler P env i) anyOrder ((ueComponent P env i).conf f.before) f.event
      ((ueComponent P env i).conf f.after) := by
  have concerns : f.event.ev.concerns i = true := by
    rw [event]
    exact beq_self_eq_true i
  rcases Component.step_project (ueComponent P env i).projects_anyOrder step with ⟨irrel, -⟩ | ⟨-, own⟩
  · exact absurd (concerns.symm.trans irrel) (by decide)
  · exact own

theorem exists_endsExecution (lawful : P.Lawful) (prior : AnyOrderRun P env rows h f.before)
    (step : Step (simHandler P env) anyOrder f.before f.event f.after)
    (event : f.event.ev = .cho .phase7ExecutionComplete i sourceCell targetCell) :
    ∃ ue, EndsExecution f i sourceCell targetCell ue := by
  have seen := prior.toUe i
  have own := ueStep_of_completion step event
  have start : (ueInitial env rows i).NotBefore 0 := by
    intro q member
    rw [List.mem_singleton.mp member]
  have later : 0 ≤ f.event.ts :=
    seen.notBefore_start (ueHandler_forward lawful i) (onTime_ueInitial rows i) start _ own.mem_queue
  cases present : ((ueComponent P env i).conf f.before).state with
  | none =>
      have tick := (ueQueue_of_run seen _ own.mem_queue).2 present
      rw [event] at tick
      cases tick
  | some ue =>
      rcases f with ⟨c, ⟨ts, ev⟩, c'⟩
      obtain rfl := event
      obtain ⟨-, guard, source, target⟩ := guard_of_step seen own present
      refine ⟨ue, rfl, present, guard, source, target, ?_⟩
      unfold getSeconds
      exact div_nonneg (Int.cast_nonneg later) (by norm_num)

theorem handoverOutput_of_other (quiet : P.Quiet)
    (step : Step (simHandler P env) anyOrder f.before f.event f.after)
    (other : ∀ ueId sourceCell targetCell,
      f.event.ev ≠ .cho .phase7ExecutionComplete ueId sourceCell targetCell) (announces : Bool)
    (precision : ℕ) : handoverOutput announces f = [] ∧ completionOf env precision f = none := by
  have unannounced : executionOf f = [] := by
    unfold executionOf
    split
    · rename_i event
      exact absurd event (other _ _ _)
    · rfl
  refine ⟨?_, ?_⟩
  · rw [handoverOutput, unannounced, ite_self, newLines_quiet quiet step other, List.append_nil]
  · unfold completionOf
    split
    · rename_i event
      exact absurd event (other _ _ _)
    · rfl

namespace EndsExecution

theorem handoverOutput (ends : EndsExecution f i sourceCell targetCell ue) (quiet : P.Quiet)
    (step : Step (simHandler P env) anyOrder f.before f.event f.after) (announces : Bool) :
    handoverOutput announces f =
      (if announces then [executionText i (getSeconds f.event.ts)] else []) ++
        if choIsLinkViable env ue targetCell then
          (lines (hoResult i sourceCell targetCell (getSeconds f.event.ts)
            (getCachedSnr ue targetCell) ue.hoContext)).filterMap LogLine.handoverText ++
            [completeText i sourceCell.toList targetCell.toList]
        else [] := by
  rw [NtnCho.handoverOutput, newLines_completion quiet step ends.event ends.present ends.executing,
    executionOf, ends.event]
  dsimp only
  rw [ends.present]
  dsimp only
  rw [if_pos ends.executing]

theorem completionOf (ends : EndsExecution f i sourceCell targetCell ue) (env : Env) (precision : ℕ) :
    completionOf env precision f =
      if choIsLinkViable env ue targetCell then
        some ⟨decimals precision (getSeconds f.event.ts), some i, some (normalize sourceCell.toList),
          some (normalize targetCell.toList), none⟩
      else none := by
  rw [NtnCho.completionOf, ends.event]
  dsimp only
  rw [ends.present, Option.bind_some]
  simp only [ends.executing, true_and]

/-- The cells of a handover are satellites of the dataset. -/
theorem readable (ends : EndsExecution f i sourceCell targetCell ue) (lawful : P.Lawful)
    (keeps : P.reselectOnRlf = false) (names : env.link.ReadableNames)
    (prior : AnyOrderRun P env rows h f.before)
    (step : Step (simHandler P env) anyOrder f.before f.event f.after)
    (viable : choIsLinkViable env ue targetCell = true) :
    Readable sourceCell.toList ∧ Readable targetCell.toList := by
  have seen := prior.toUe i
  have own := ueStep_of_completion step ends.event
  have present : ((ueComponent P env i).conf f.before).state = some ue := ends.present
  have handed : handoverOf env ⟨(ueComponent P env i).conf f.before, f.event,
      (ueComponent P env i).conf f.after⟩ = some (sourceCell, targetCell) := by
    rw [handoverOf, ends.event]
    dsimp only
    rw [present, Option.bind_some, if_pos viable]
  obtain ⟨flight, listed⟩ := inFlight_of_handoverOf lawful seen own handed
  have known := (knownCells_of_run lawful keeps seen present).source
  rw [ends.source] at known
  exact ⟨names _ (known.resolve_left flight.served), names _ (Std.TreeMap.mem_keys.mpr listed)⟩

end EndsExecution

/-- A firing is read when it is when it ends an execution. -/
theorem leads_firing {announces : Bool} {precision : ℕ} {read : List Handover} (lawful : P.Lawful)
    (quiet : P.Quiet) (prior : AnyOrderRun P env rows h f.before)
    (step : Step (simHandler P env) anyOrder f.before f.event f.after)
    (fails : ∀ {i sourceCell targetCell ue}, EndsExecution f i sourceCell targetCell ue →
      Leads (if announces then [executionText i (getSeconds f.event.ts)] else []) ⟨read, .nothing⟩
        ⟨read, .nothing⟩)
    (succeeds : ∀ {i sourceCell targetCell ue}, EndsExecution f i sourceCell targetCell ue →
      choIsLinkViable env ue targetCell = true →
      Leads ((if announces then [executionText i (getSeconds f.event.ts)] else []) ++
          ((lines (hoResult i sourceCell targetCell (getSeconds f.event.ts)
            (getCachedSnr ue targetCell) ue.hoContext)).filterMap LogLine.handoverText ++
            [completeText i sourceCell.toList targetCell.toList])) ⟨read, .nothing⟩
        ⟨read ++ [⟨decimals precision (getSeconds f.event.ts), some i,
          some (normalize sourceCell.toList), some (normalize targetCell.toList), none⟩], .nothing⟩) :
    Leads (handoverOutput announces f) ⟨read, .nothing⟩
      ⟨read ++ (completionOf env precision f).toList, .nothing⟩ := by
  by_cases completes : ∃ ueId sourceCell targetCell,
      f.event.ev = .cho .phase7ExecutionComplete ueId sourceCell targetCell
  case neg =>
    simp only [not_exists] at completes
    obtain ⟨unprinted, uncompleted⟩ := handoverOutput_of_other quiet step completes announces precision
    rw [unprinted, uncompleted, Option.toList_none, List.append_nil]
    exact leads_nil _
  case pos =>
    obtain ⟨i, sourceCell, targetCell, event⟩ := completes
    obtain ⟨ue, ends⟩ := exists_endsExecution lawful prior step event
    rw [ends.handoverOutput quiet step, ends.completionOf]
    by_cases viable : choIsLinkViable env ue targetCell = true
    case neg =>
      rw [if_neg viable, if_neg viable, Option.toList_none, List.append_nil, List.append_nil]
      exact fails ends
    case pos =>
      rw [if_pos viable, if_pos viable, Option.toList_some]
      exact succeeds ends viable

/-- A run is read when each of its firings is. -/
theorem leads_run {announces : Bool} {precision : ℕ} {c : Conf ℤ Sim Event}
    (firing : ∀ {h f}, AnyOrderRun P env rows h f.before →
      Step (simHandler P env) anyOrder f.before f.event f.after → ∀ read,
        Leads (handoverOutput announces f) ⟨read, .nothing⟩
          ⟨read ++ (completionOf env precision f).toList, .nothing⟩)
    (run : AnyOrderRun P env rows h c) :
    Leads (h.flatMap (handoverOutput announces)) ⟨[], .nothing⟩
      ⟨h.filterMap (completionOf env precision), .nothing⟩ := by
  induction run with
  | nil => exact leads_nil _
  | @snoc h c c' p prior step ih =>
      rw [List.flatMap_append, List.flatMap_singleton, List.filterMap_append]
      have last := ih.append (firing (f := ⟨c, p, c'⟩) prior step _)
      cases completed : completionOf env precision ⟨c, p, c'⟩ with
      | none =>
          rw [completed] at last
          simpa [completed] using last
      | some e =>
          rw [completed] at last
          simpa [completed] using last

/-! ### TD-CHO -/

theorem isDot_flatMap {fields : List (String × Field)}
    (all : ∀ pair ∈ fields, (∀ c ∈ pair.1.toList, isDot c = true) ∧ ∀ c ∈ pair.2.text, isDot c = true) :
    ∀ c ∈ fields.flatMap pairText, isDot c = true := by
  intro c member
  obtain ⟨pair, listed, inside⟩ := List.mem_flatMap.mp member
  obtain ⟨key, value⟩ := all pair listed
  rcases List.mem_cons.mp inside with rfl | inside
  · rfl
  · rcases List.mem_append.mp inside with inKey | inside
    · exact key c inKey
    · rcases List.mem_cons.mp inside with rfl | inValue
      · rfl
      · exact value c inValue

theorem isDot_showFixed (precision : ℕ) (x : ℚ) : ∀ c ∈ showFixed precision x, isDot c = true := by
  intro c member
  unfold isDot
  rcases mem_showFixed member with digit | rfl | rfl
  · have other : c ≠ '\n' := by
      rintro rfl
      cases digit
    simpa using other
  · rfl
  · rfl

/-- The result of a handover is read up to its time. -/
theorem leads_resultLine {read : List Handover} {time : ℚ} (nonneg : 0 ≤ time) (ue : UeInfo) :
    Leads ([resultLine i time ue].filterMap LogLine.handoverText) ⟨read, .nothing⟩
      ⟨read, .result i (decimals 3 time)⟩ := by
  refine leads_result nonneg (isDot_flatMap ?_)
  simp only [List.forall_mem_cons]
  refine ⟨⟨by decide, isDot_showFixed _ _⟩, ⟨by decide, isDot_showFixed _ _⟩,
    ⟨by decide, isDot_showFixed _ _⟩, ⟨by decide, isDot_showFixed _ _⟩, ⟨by decide, isDot_showFixed _ _⟩,
    ⟨by decide, by decide⟩, List.forall_mem_nil _⟩

/-- In a dataset without a nameless satellite an execution that succeeds has its decision in
`hoContext`. -/
theorem EndsExecution.mirrors (ends : EndsExecution f i sourceCell targetCell ue)
    (named : "" ∉ env.link.satellites) (prior : AnyOrderRun tdCho env rows h f.before)
    (viable : choIsLinkViable env ue targetCell = true) :
    Mirrors "A3+prediction" ue := by
  have seen := prior.toUe i
  have busy : ue.choProcState.phase ≠ .idle := by
    rw [ends.executing]
    decide
  have present : ((ueComponent tdCho env i).conf f.before).state = some ue := ends.present
  obtain ⟨report, started, ⟨-, mirrors⟩ | ⟨-, -, unnamed⟩⟩ :=
    explains_of_run TdCho.decides rfl seen present busy
  · exact mirrors
  · have listed := (linkInvariant_of_run TdCho.lawful seen present).mem_satellites
      (mem_of_choIsLinkViable viable)
    rw [← ends.target, unnamed] at listed
    exact absurd listed named

theorem Link.ReadableNames.named {L : Link} (names : L.ReadableNames) : "" ∉ L.satellites := fun listed =>
  (names "" (Std.TreeMap.mem_keys.mpr listed)).some_char rfl

theorem TdCho.leads_firing (names : env.link.ReadableNames)
    (prior : AnyOrderRun tdCho env rows h f.before)
    (step : Step (simHandler tdCho env) anyOrder f.before f.event f.after) (read : List Handover) :
    Leads (handoverOutput false f) ⟨read, .nothing⟩
      ⟨read ++ (completionOf env 3 f).toList, .nothing⟩ := by
  refine NtnCho.leads_firing TdCho.lawful TdCho.quiet prior step (fun _ => leads_nil _) ?_
  intro i sourceCell targetCell ue ends viable
  have mirrors := ends.mirrors names.named prior viable
  obtain ⟨readable, readable'⟩ := ends.readable TdCho.lawful rfl names prior step viable
  have printed := @lines_hoResult_of_mirrors i (getSeconds f.event.ts) ue mirrors
  rw [ends.source, ends.target] at printed
  rw [printed]
  exact (leads_resultLine ends.nonneg ue).append (leads_completion readable readable' (.inl rfl))

/-! ### SD-TOPSIS-CHO -/

theorem Topsis.leads_firing (names : env.link.ReadableNames)
    (prior : AnyOrderRun sdTopsisCho env rows h f.before)
    (step : Step (simHandler sdTopsisCho env) anyOrder f.before f.event f.after)
    (read : List Handover) :
    Leads (handoverOutput true f) ⟨read, .nothing⟩
      ⟨read ++ (completionOf env 1 f).toList, .nothing⟩ := by
  refine NtnCho.leads_firing Topsis.lawful Topsis.quiet prior step
    (fun ends => leads_failed ends.nonneg) ?_
  intro i sourceCell targetCell ue ends viable
  obtain ⟨readable, readable'⟩ := ends.readable Topsis.lawful rfl names prior step viable
  have reset := Topsis.hoContext_of_run (prior.toUe i) ends.present
  rw [reset, lines_hoResult_of_reset]
  exact (leads_execution ends.nonneg).append (leads_completion readable readable' (.inr rfl))

end Run

/-- **The handovers of a log are those of its simulation.** Whatever the number of UEs and the order of
their events, and whatever other lines stand in the log, `parse_handovers_cho` reads from the output of
TD-CHO and of SD-TOPSIS-CHO one handover for each execution that succeeded, in order, with its UE, its
normalized cells and its printed time, and none for an execution that failed: when the names of the
satellites are not empty, on one line, and without an arrow between white space and the beginnings of other
lines in them. -/
theorem handovers_extracted :
    (∀ {env : Env} {rows : List UeRow} {h : List (Firing ℤ Sim Event)} {c : Conf ℤ Sim Event}
        {content : List Char}, env.link.ReadableNames → AnyOrderRun tdCho env rows h c →
      Interspersed (h.flatMap (handoverOutput false)) (splitlines content) →
      ∃ events, parseHandoversCho content = some events ∧
        events.map Handover.untyped = h.filterMap (completionOf env 3)) ∧
    ∀ {env : Env} {rows : List UeRow} {h : List (Firing ℤ Sim Event)} {c : Conf ℤ Sim Event}
        {content : List Char}, env.link.ReadableNames → AnyOrderRun sdTopsisCho env rows h c →
      Interspersed (h.flatMap (handoverOutput true)) (splitlines content) →
      ∃ events, parseHandoversCho content = some events ∧
        events.map Handover.untyped = h.filterMap (completionOf env 1) := by
  constructor
  · intro env rows h c content names run printed
    exact parseHandoversCho_of_leads (leads_run (TdCho.leads_firing names) run) printed
  · intro env rows h c content names run printed
    exact parseHandoversCho_of_leads (leads_run (Topsis.leads_firing names) run) printed

/-- A log with a decision before the lines on handovers. -/
def sampleLog (output : List (List Char)) : List (List Char) :=
  "[HO_DEBUG],ue=0,t=2.000,serving=S,neighbor=N,a3=1".toList :: output

theorem handovers_extracted_crossing :
    (∃ events, parseHandoversCho (unlines (sampleLog ((sampleRun tdCho crossing sampleRows 11).1.flatMap
        (handoverOutput false)))) = some events ∧ events.map Handover.untyped =
          (sampleRun tdCho crossing sampleRows 11).1.filterMap (completionOf crossing 3)) ∧
      ∃ events, parseHandoversCho (unlines (sampleLog
        ((sampleRun sdTopsisCho crossing sampleRows 11).1.flatMap (handoverOutput true)))) =
          some events ∧ events.map Handover.untyped =
            (sampleRun sdTopsisCho crossing sampleRows 11).1.filterMap (completionOf crossing 1) := by
  have names : crossing.link.ReadableNames := by decide +kernel
  have silent : ∀ output, Interspersed output (sampleLog output) := fun output =>
    .quiet (by decide +kernel) (interspersed_self output)
  constructor
  · refine handovers_extracted.1 names (simRun_sampleRun tdCho crossing sampleRows 11).anyOrder ?_
    have lines : splitlines (unlines (sampleLog ((sampleRun tdCho crossing sampleRows 11).1.flatMap
        (handoverOutput false)))) =
          sampleLog ((sampleRun tdCho crossing sampleRows 11).1.flatMap (handoverOutput false)) :=
      splitlines_unlines (by decide +kernel)
    rw [lines]
    exact silent _
  · refine handovers_extracted.2 names (simRun_sampleRun sdTopsisCho crossing sampleRows 11).anyOrder ?_
    have lines : splitlines (unlines (sampleLog
        ((sampleRun sdTopsisCho crossing sampleRows 11).1.flatMap (handoverOutput true)))) =
          sampleLog ((sampleRun sdTopsisCho crossing sampleRows 11).1.flatMap (handoverOutput true)) :=
      splitlines_unlines (by decide +kernel)
    rw [lines]
    exact silent _

/-- The completion of a handover to a nameless satellite is not read. -/
theorem handovers_missed :
    ¬ ∀ {env : Env} {rows : List UeRow} {h : List (Firing ℤ Sim Event)} {c : Conf ℤ Sim Event}
        {content : List Char}, SimRun tdCho env rows h c →
      Interspersed (h.flatMap (handoverOutput false)) (splitlines content) →
      ∃ events, parseHandoversCho content = some events ∧
        events.map Handover.untyped = h.filterMap (completionOf env 3) := by
  intro always
  have lines : splitlines (unlines ((sampleRun tdCho namelessTarget sampleRows 11).1.flatMap
      (handoverOutput false))) =
        (sampleRun tdCho namelessTarget sampleRows 11).1.flatMap (handoverOutput false) :=
    splitlines_unlines (by decide +kernel)
  have printed : Interspersed ((sampleRun tdCho namelessTarget sampleRows 11).1.flatMap
      (handoverOutput false)) (splitlines (unlines
        ((sampleRun tdCho namelessTarget sampleRows 11).1.flatMap (handoverOutput false)))) := by
    rw [lines]
    exact interspersed_self _
  obtain ⟨events, parsed, same⟩ := always (simRun_sampleRun tdCho namelessTarget sampleRows 11) printed
  have none : parseHandoversCho (unlines ((sampleRun tdCho namelessTarget sampleRows 11).1.flatMap
      (handoverOutput false))) = some [] := by
    decide +kernel
  have one : ((sampleRun tdCho namelessTarget sampleRows 11).1.filterMap
      (completionOf namelessTarget 3)).length = 1 := by
    decide +kernel
  obtain rfl := Option.some.inj (none.symm.trans parsed)
  rw [← same] at one
  cases one

end NtnCho
