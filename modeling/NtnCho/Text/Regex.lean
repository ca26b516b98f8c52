import Mathlib.Data.List.Infix

/-!
# Regular expressions

The regular expressions of a line parser: literals and runs of classes of characters in sequence, matched
with backtracking. Every match splits the text along the expression (`exists_of_matchHere_run`), and a text
that splits along it has a match (`isSome_matchHere_run`). So a parser that looks for an expression finds
what was printed wherever the printed line splits in one way, and the order of the alternatives matters
only where two runs meet (`matchHere_greedy`).

A literal stands at one place of a text when it overlaps neither itself nor what surrounds it
(`lit_unique`).
-/

namespace Text

namespace Regex

/-- A literal, or at least `least` characters of a class, as many as possible if `greedy` and as few as
possible otherwise. -/
inductive Piece where
  | lit (literal : List Char)
  | run (inClass : Char → Bool) (least : ℕ) (greedy captured : Bool)

/-- What the captured runs of a match have taken, in order. -/
abbrev Groups := List (List Char)

/-- A run that has taken `taken`, before what `next` matches behind it. -/
def matchRun (inClass : Char → Bool) (least : ℕ) (greedy : Bool)
    (next : List Char → List Char → Option Groups) (taken : List Char) : List Char → Option Groups
  | [] => if least ≤ taken.length then next taken [] else none
  | c :: rest =>
      let stop := if least ≤ taken.length then next taken (c :: rest) else none
      let further :=
        if inClass c then matchRun inClass least greedy next (taken ++ [c]) rest else none
      if greedy then further.or stop else stop.or further

/-- `re.match` -/
def matchHere : List Piece → List Char → Option Groups
  | [], _ => some []
  | .lit literal :: pieces, text =>
      if literal.isPrefixOf text then matchHere pieces (text.drop literal.length) else none
  | .run inClass least greedy captured :: pieces, text =>
      matchRun inClass least greedy
        (fun run rest =>
          (matchHere pieces rest).map fun groups => if captured then run :: groups else groups)
        [] text

/-- `re.search` -/
def search (pieces : List Piece) : List Char → Option Groups
  | [] => matchHere pieces []
  | c :: rest => (matchHere pieces (c :: rest)).or (search pieces rest)

/-! ## Runs -/

section Run

variable {inClass : Char → Bool} {least : ℕ} {greedy captured : Bool}
  {next : List Char → List Char → Option Groups} {pieces : List Piece} {groups : Groups}

theorem exists_of_matchRun {taken text : List Char}
    (found : matchRun inClass least greedy next taken text = some groups) :
    ∃ run rest, text = run ++ rest ∧ (∀ c ∈ run, inClass c = true) ∧
      least ≤ (taken ++ run).length ∧ next (taken ++ run) rest = some groups := by
  induction text generalizing taken with
  | nil =>
      rw [matchRun] at found
      split at found
      · rename_i enough
        refine ⟨[], [], rfl, fun c member => (by cases member), ?_, ?_⟩ <;> rwa [List.append_nil]
      · cases found
  | cons c rest ih =>
      rw [matchRun] at found
      have alternatives : (if least ≤ taken.length then next taken (c :: rest) else none) = some groups ∨
          (if inClass c then matchRun inClass least greedy next (taken ++ [c]) rest else none) =
            some groups := by
        split at found
        · exact (Option.or_eq_some_iff.mp found).symm.imp And.right id
        · exact (Option.or_eq_some_iff.mp found).imp id And.right
      rcases alternatives with stop | further
      · split at stop
        · rename_i enough
          refine ⟨[], c :: rest, rfl, fun d member => (by cases member), ?_, ?_⟩ <;> rwa [List.append_nil]
        · cases stop
      · split at further
        · rename_i inside
          obtain ⟨run, behind, rfl, all, enough, found⟩ := ih further
          rw [List.append_assoc, List.singleton_append] at enough found
          refine ⟨c :: run, behind, rfl, ?_, enough, found⟩
          rintro d (_ | ⟨_, member⟩)
          · exact inside
          · exact all d member
        · cases further

theorem isSome_matchRun {taken run rest : List Char} (all : ∀ c ∈ run, inClass c = true)
    (enough : least ≤ (taken ++ run).length) (found : (next (taken ++ run) rest).isSome = true) :
    (matchRun inClass least greedy next taken (run ++ rest)).isSome = true := by
  induction run generalizing taken with
  | nil =>
      rw [List.append_nil] at enough found
      rw [List.nil_append]
      cases rest with
      | nil => rwa [matchRun, if_pos enough]
      | cons c rest =>
          rw [matchRun, if_pos enough]
          split <;> simp [Option.isSome_or, found]
  | cons c run ih =>
      rw [List.append_cons] at enough found
      have further := ih (fun d member => all d (List.mem_cons_of_mem _ member)) enough found
      rw [List.cons_append, matchRun, if_pos (all c List.mem_cons_self)]
      split <;> simp [Option.isSome_or, further]

theorem matchRun_greedy {taken run rest : List Char} (all : ∀ c ∈ run, inClass c = true)
    (stop : ∀ c ∈ rest.head?, inClass c = false) (enough : least ≤ (taken ++ run).length)
    (found : next (taken ++ run) rest = some groups) :
    matchRun inClass least true next taken (run ++ rest) = some groups := by
  induction run generalizing taken with
  | nil =>
      rw [List.append_nil] at enough found
      rw [List.nil_append]
      cases rest with
      | nil => rwa [matchRun, if_pos enough]
      | cons c rest =>
          rw [matchRun, if_pos enough, stop c rfl]
          exact found
  | cons c run ih =>
      rw [List.append_cons] at enough found
      have further := ih (fun d member => all d (List.mem_cons_of_mem _ member)) enough found
      rw [List.cons_append, matchRun, if_pos (all c List.mem_cons_self)]
      rw [if_pos rfl, further, Option.some_or]

/-- A match of a run takes a run of the text. -/
theorem exists_of_matchHere_run {text : List Char}
    (found : matchHere (.run inClass least greedy captured :: pieces) text = some groups) :
    ∃ run rest groups', text = run ++ rest ∧ (∀ c ∈ run, inClass c = true) ∧ least ≤ run.length ∧
      matchHere pieces rest = some groups' ∧ groups = if captured then run :: groups' else groups' := by
  obtain ⟨run, rest, split, all, enough, next⟩ := exists_of_matchRun found
  rw [List.nil_append] at enough next
  obtain ⟨groups', found', taken⟩ := Option.map_eq_some_iff.mp next
  exact ⟨run, rest, groups', split, all, enough, found', taken.symm⟩

/-- Where a run of the text stands before a match there is one. -/
theorem isSome_matchHere_run {run rest : List Char} (all : ∀ c ∈ run, inClass c = true)
    (enough : least ≤ run.length) (found : (matchHere pieces rest).isSome = true) :
    (matchHere (.run inClass least greedy captured :: pieces) (run ++ rest)).isSome = true := by
  rw [matchHere]
  exact isSome_matchRun all enough (by simpa using found)

/-- A greedy run takes the whole run of the text when there is a match behind it. -/
theorem matchHere_greedy {run rest : List Char} (all : ∀ c ∈ run, inClass c = true)
    (stop : ∀ c ∈ rest.head?, inClass c = false) (enough : least ≤ run.length)
    (found : matchHere pieces rest = some groups) :
    matchHere (.run inClass least true captured :: pieces) (run ++ rest) =
      some (if captured then run :: groups else groups) := by
  rw [matchHere]
  refine matchRun_greedy all stop enough ?_
  rw [List.nil_append, found, Option.map_some]

theorem stops_at {c : Char} {rest : List Char} (head : rest.head? = some c) (outside : inClass c = false) :
    ∀ d ∈ rest.head?, inClass d = false := by
  intro d member
  rw [head] at member
  obtain rfl := Option.some.inj member
  exact outside

/-- A greedy run at the end takes all of the text. -/
theorem matchHere_last {run : List Char} (all : ∀ c ∈ run, inClass c = true)
    (enough : least ≤ run.length) :
    matchHere [.run inClass least true true] run = some [run] := by
  have taken := @matchHere_greedy inClass least true [] [] run [] all (by simp) enough rfl
  rwa [List.append_nil] at taken

end Run

/-! ## Literals -/

section Lit

variable {literal : List Char} {pieces : List Piece} {groups : Groups}

theorem matchHere_lit (literal : List Char) (pieces : List Piece) (rest : List Char) :
    matchHere (.lit literal :: pieces) (literal ++ rest) = matchHere pieces rest := by
  rw [matchHere, if_pos (by simp), List.drop_left]

theorem exists_of_matchHere_lit {text : List Char}
    (found : matchHere (.lit literal :: pieces) text = some groups) :
    ∃ rest, text = literal ++ rest ∧ matchHere pieces rest = some groups := by
  rw [matchHere] at found
  split at found
  · rename_i before
    obtain ⟨rest, rfl⟩ := List.isPrefixOf_iff_prefix.mp before
    rw [List.drop_left] at found
    exact ⟨rest, rfl, found⟩
  · cases found

/-- A match contains the literals of its expression. -/
theorem infix_of_matchHere {text : List Char} (member : .lit literal ∈ pieces)
    (found : matchHere pieces text = some groups) : literal <:+: text := by
  induction pieces generalizing text groups with
  | nil => cases member
  | cons piece pieces ih =>
      cases piece with
      | lit literal' =>
          obtain ⟨rest, rfl, found'⟩ := exists_of_matchHere_lit found
          rcases List.mem_cons.mp member with same | later
          · obtain rfl := Piece.lit.inj same
            exact (List.prefix_append ..).isInfix
          · exact (ih later found').trans (List.suffix_append ..).isInfix
      | run inClass least greedy captured =>
          obtain ⟨run, rest, groups', rfl, -, -, found', -⟩ := exists_of_matchHere_run found
          have later : .lit literal ∈ pieces := by simpa using member
          exact (ih later found').trans (List.suffix_append ..).isInfix

/-- Where no match begins in front of a text, the first match begins in the text. -/
theorem search_append_of_none {front text : List Char}
    (none_begins : ∀ suffix, suffix <:+ front → suffix ≠ [] → matchHere pieces (suffix ++ text) = none) :
    search pieces (front ++ text) = search pieces text := by
  induction front with
  | nil => rfl
  | cons d front ih =>
      have here := none_begins (d :: front) List.suffix_rfl (List.cons_ne_nil _ _)
      rw [List.cons_append] at here
      rw [List.cons_append, search, here, Option.none_or]
      exact ih fun suffix inside => none_begins suffix (inside.trans (List.suffix_cons ..))

/-- A literal is not found before its first character. -/
theorem search_append {c : Char} {tail front : List Char} (missing : c ∉ front) (pieces : List Piece)
    (text : List Char) :
    search (.lit (c :: tail) :: pieces) (front ++ text) = search (.lit (c :: tail) :: pieces) text := by
  refine search_append_of_none fun suffix inside some_char => ?_
  obtain ⟨d, rest, rfl⟩ := List.exists_cons_of_ne_nil some_char
  have other : (c == d) = false := by
    rw [beq_eq_false_iff_ne]
    rintro rfl
    exact missing (inside.subset List.mem_cons_self)
  rw [List.cons_append, matchHere, List.isPrefixOf_cons_cons, other, Bool.false_and, if_neg (by decide)]

theorem search_of_matchHere {text : List Char} (found : matchHere pieces text = some groups) :
    search pieces text = some groups := by
  cases text with
  | nil => exact found
  | cons c rest => rw [search, found, Option.some_or]

theorem infix_of_search {text : List Char} (member : .lit literal ∈ pieces)
    (found : search pieces text = some groups) : literal <:+: text := by
  induction text with
  | nil => exact infix_of_matchHere member found
  | cons c rest ih =>
      rw [search] at found
      rcases Option.or_eq_some_iff.mp found with here | ⟨-, later⟩
      · exact infix_of_matchHere member here
      · exact (ih later).trans (List.suffix_cons ..).isInfix

/-- A lazy run ends before the first place of the literal behind it. -/
theorem matchHere_lazy {inClass : Char → Bool} {captured : Bool} {c : Char} {tail run rest : List Char}
    (all : ∀ d ∈ run, inClass d = true) (missing : c ∉ run)
    (found : matchHere (.lit (c :: tail) :: pieces) rest = some groups) :
    matchHere (.run inClass 0 false captured :: .lit (c :: tail) :: pieces) (run ++ rest) =
      some (if captured then run :: groups else groups) := by
  have scan : ∀ taken, matchRun inClass 0 false
      (fun run rest => (matchHere (.lit (c :: tail) :: pieces) rest).map fun groups =>
        if captured then run :: groups else groups) taken (run ++ rest) =
        some (if captured then (taken ++ run) :: groups else groups) := by
    induction run with
    | nil =>
        intro taken
        cases rest <;> simp [matchRun, found]
    | cons d run ih =>
        intro taken
        have other : (c == d) = false := by
          rw [beq_eq_false_iff_ne]
          rintro rfl
          exact missing List.mem_cons_self
        have here : matchHere (.lit (c :: tail) :: pieces) (d :: (run ++ rest)) = none := by
          rw [matchHere, List.isPrefixOf_cons_cons, other, Bool.false_and, if_neg (by decide)]
        have further := ih (fun e member => all e (List.mem_cons_of_mem _ member))
          (fun member => missing (List.mem_cons_of_mem _ member)) (taken ++ [d])
        rw [List.cons_append, matchRun, here, if_pos (all d List.mem_cons_self), further]
        simp
  rw [matchHere, scan, List.nil_append]

/-- Nothing is found in a text without one of the literals. -/
theorem search_eq_none {text : List Char} (member : .lit literal ∈ pieces)
    (absent : ¬ literal <:+: text) : search pieces text = none := by
  cases found : search pieces text with
  | none => rfl
  | some groups => exact absurd (infix_of_search member found) absent

end Lit

/-! ## Places of a literal -/

section Place

variable {literal : List Char}

/-- A literal that neither begins earlier nor later stands at one place. -/
theorem lit_unique {front front' rest rest' : List Char} (some_char : literal ≠ [])
    (same : front ++ (literal ++ rest) = front' ++ (literal ++ rest'))
    (earlier : ¬ literal <:+: front ++ literal.dropLast)
    (later : ¬ literal <:+: literal.tail ++ rest) : front = front' ∧ rest = rest' := by
  rcases List.append_eq_append_iff.mp same with ⟨between, rfl, moved⟩ | ⟨between, rfl, moved⟩
  · cases between with
    | nil => exact ⟨(List.append_nil _).symm, List.append_cancel_left moved⟩
    | cons c between =>
        obtain ⟨d, tail, rfl⟩ := List.exists_cons_of_ne_nil some_char
        have inTail : tail ++ rest = between ++ ((d :: tail) ++ rest') := (List.cons.inj moved).2
        refine absurd ?_ later
        rw [List.tail_cons, inTail, ← List.append_assoc]
        exact List.infix_append ..
  · cases between with
    | nil => exact ⟨List.append_nil _, (List.append_cancel_left moved).symm⟩
    | cons c between =>
        -- the literal ends before the one behind `front` does
        have whole : literal <+: c :: between ++ (literal ++ rest) := moved ▸ List.prefix_append ..
        have short : c :: between ++ literal.dropLast <+: c :: between ++ (literal ++ rest) :=
          (List.prefix_append_right_inj _).mpr ((List.dropLast_prefix _).trans (List.prefix_append ..))
        have fits : literal.length ≤ (c :: between ++ literal.dropLast).length := by
          rw [List.length_append, List.length_dropLast, List.length_cons]
          omega
        refine absurd ?_ earlier
        rw [List.append_assoc]
        exact ((List.prefix_of_prefix_length_le whole short fits).isInfix).trans
          (List.suffix_append ..).isInfix

/-- A literal of which no end is a beginning does not begin inside itself. -/
theorem not_infix_tail {rest : List Char}
    (unbordered : ∀ suffix ∈ literal.tail.tails, suffix ≠ [] → ¬ suffix <+: literal)
    (absent : ¬ literal <:+: rest) : ¬ literal <:+: literal.tail ++ rest := by
  rintro ⟨front, behind, split⟩
  rw [List.append_assoc] at split
  rcases List.append_eq_append_iff.mp split with ⟨between, inTail, moved⟩ | ⟨between, rfl, moved⟩
  · by_cases empty : between = []
    · rw [empty, List.nil_append] at moved
      exact absent ⟨[], behind, by rw [List.nil_append, moved]⟩
    · refine unbordered between ?_ empty ?_
      · rw [List.mem_tails, inTail]
        exact List.suffix_append ..
      · have shorter : between.length ≤ literal.length := by
          have tail := congrArg List.length inTail
          rw [List.length_append, List.length_tail] at tail
          omega
        exact List.prefix_of_prefix_length_le ⟨rest, rfl⟩ ⟨behind, moved⟩ shorter
  · exact absent ⟨between, behind, by rw [List.append_assoc, moved]⟩

/-- A literal does not reach over a character that it does not have. -/
theorem infix_or_infix {c : Char} {front rest : List Char} (missing : c ∉ literal)
    (member : literal <:+: front ++ c :: rest) : literal <:+: front ∨ literal <:+: rest := by
  obtain ⟨before, behind, split⟩ := member
  rcases List.append_eq_append_iff.mp split with ⟨between, rfl, moved⟩ | ⟨between, within, moved⟩
  · exact .inl ⟨before, between, rfl⟩
  · cases between with
    | nil =>
        rw [List.append_nil] at within
        exact .inl ⟨before, [], by rw [List.append_nil, within]⟩
    | cons d between =>
        obtain ⟨rfl, rfl⟩ := List.cons.inj moved
        rcases List.append_eq_append_iff.mp within with ⟨inside, rfl, beyond⟩ | ⟨inside, rfl, beyond⟩
        · refine absurd ?_ missing
          rw [beyond]
          exact List.mem_append_right _ List.mem_cons_self
        · cases inside with
          | nil => exact absurd ((show c :: between = literal from beyond) ▸ List.mem_cons_self) missing
          | cons e inside =>
              obtain ⟨rfl, rfl⟩ := List.cons.inj beyond
              exact .inr ⟨inside, behind, rfl⟩

end Place

end Regex

end Text
