import NtnCho.Text.Csv
import Mathlib.Data.List.Basic

/-!
# Reading pieces of a text

`std::getline` with a delimiter, as a function on the whole text: the pieces between the delimiters,
without the empty piece after a final delimiter. A text of lines is read back line by line.
-/

namespace Text

/-- The pieces that repeated calls of `std::getline` read. -/
def getlines (delim : Char) (text : String) : List String :=
  let pieces := text.toList.splitOn delim
  (if pieces.getLast? = some [] then pieces.dropLast else pieces).map String.ofList

example : getlines ',' "a,,b," = ["a", "", "b"] := by decide +kernel
example : getlines ',' "" = [] := by decide +kernel

theorem notMem_of_mem_splitOn {delim : Char} {text piece : List Char} (member : piece ∈ text.splitOn delim) :
    delim ∉ piece := by
  induction text generalizing piece with
  | nil =>
      rw [List.splitOn_nil, List.mem_singleton] at member
      subst member
      exact List.not_mem_nil
  | cons c text ih =>
      rw [List.splitOn_cons_eq_if_modifyHead] at member
      split at member
      · rcases List.mem_cons.mp member with rfl | later
        · exact List.not_mem_nil
        · exact ih later
      · rename_i other
        cases pieces : text.splitOn delim with
        | nil =>
            rw [pieces] at member
            cases member
        | cons head tail =>
            rw [pieces] at member ih
            rcases List.mem_cons.mp member with rfl | later
            · intro inside
              rcases List.mem_cons.mp inside with same | inHead
              · exact other (beq_iff_eq.mpr same.symm)
              · exact ih List.mem_cons_self inHead
            · exact ih (List.mem_cons_of_mem _ later)

theorem notMem_of_mem_getlines {delim : Char} {text line : String} (member : line ∈ getlines delim text) :
    delim ∉ line.toList := by
  obtain ⟨piece, listed, rfl⟩ := List.mem_map.mp member
  rw [String.toList_ofList]
  split at listed
  · exact notMem_of_mem_splitOn (List.dropLast_subset _ listed)
  · exact notMem_of_mem_splitOn listed

/-- Lines are read back from their text. -/
theorem getlines_unlines {lines : List String} (clean : ∀ line ∈ lines, '\n' ∉ line.toList) :
    getlines '\n' (String.ofList (unlines (lines.map String.toList))) = lines := by
  have pieces : (unlines (lines.map String.toList)).splitOn '\n' = lines.map String.toList ++ [[]] := by
    rw [unlines_eq, List.splitOn_intercalate '\n' ?_ (by simp)]
    intro line member
    rcases List.mem_append.mp member with listed | last
    · obtain ⟨own, own_listed, rfl⟩ := List.mem_map.mp listed
      exact clean own own_listed
    · rw [List.mem_singleton.mp last]
      exact List.not_mem_nil
  unfold getlines
  rw [String.toList_ofList, pieces]
  simp [Function.comp_def]

end Text
