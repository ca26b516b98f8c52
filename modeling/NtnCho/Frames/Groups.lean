import Mathlib.Algebra.BigOperators.Group.Finset.Basic
import Mathlib.Algebra.GroupWithZero.Nat

/-!
# Maps in order of insertion

A map as the list of its entries, in the order in which their keys came: `setKey` sets the value of a
key, `push` adds to the list of a key. Pushing the rows of a table one by one groups them by their keys,
`groupBy`, each key once.
-/

namespace Frames

variable {α β κ : Type*} [DecidableEq κ]

/-- The map with a new value for `key`: in its place, or at the end. -/
def setKey (key : κ) (value : α) : List (κ × α) → List (κ × α)
  | [] => [(key, value)]
  | entry :: rest =>
      if entry.1 = key then (key, value) :: rest else entry :: setKey key value rest

/-- The map with `value` added to the list of `key`. -/
def push (key : κ) (value : α) (groups : List (κ × List α)) : List (κ × List α) :=
  setKey key ((groups.lookup key).getD [] ++ [value]) groups

theorem lookup_setKey [BEq κ] [LawfulBEq κ] (key : κ) (value : α) (entries : List (κ × α)) (k : κ) :
    (setKey key value entries).lookup k = if k = key then some value else entries.lookup k := by
  induction entries with
  | nil =>
      by_cases same : k = key
      · simp [setKey, same]
      · have other : (k == key) = false := by simpa using same
        rw [if_neg same]
        simp only [setKey, List.lookup_cons, List.lookup_nil, other]
  | cons entry rest ih =>
      unfold setKey
      by_cases found : entry.1 = key
      · rw [if_pos found]
        by_cases same : k = key
        · simp [same]
        · have other : (k == key) = false := by simpa using same
          have other' : (k == entry.1) = false := by rwa [found]
          rw [List.lookup_cons, other, List.lookup_cons, other', if_neg same]
      · rw [if_neg found, List.lookup_cons, List.lookup_cons, ih]
        by_cases here : k = entry.1
        · have other : ¬ k = key := fun same => found (here.symm.trans same)
          subst here
          simp [found]
        · have other : (k == entry.1) = false := by simpa using here
          rw [other]

/-- Setting a key changes the sum over the entries by the new value minus the old one. -/
theorem sum_setKey [BEq κ] [LawfulBEq κ] (value : α → ℕ) (key : κ) (new : α) (entries : List (κ × α)) :
    ((setKey key new entries).map fun entry => value entry.2).sum + ((entries.lookup key).map value).getD 0 =
      (entries.map fun entry => value entry.2).sum + value new := by
  induction entries with
  | nil => simp [setKey]
  | cons entry rest ih =>
      unfold setKey
      by_cases found : entry.1 = key
      · subst found
        rw [if_pos rfl, List.lookup_cons_self, List.map_cons, List.map_cons, List.sum_cons, List.sum_cons]
        dsimp only [Option.map_some, Option.getD_some]
        omega
      · have other : (key == entry.1) = false := by simpa using fun same => found same.symm
        rw [if_neg found, List.lookup_cons, other, List.map_cons, List.map_cons, List.sum_cons,
          List.sum_cons]
        dsimp only
        omega

/-- Without the entries of a key the sum is lower by its value. -/
theorem sum_filter_key_le [BEq κ] [LawfulBEq κ] (value : α → ℕ) (key : κ) (entries : List (κ × α)) :
    ((entries.filter fun entry => entry.1 ≠ key).map fun entry => value entry.2).sum +
        ((entries.lookup key).map value).getD 0 ≤
      (entries.map fun entry => value entry.2).sum := by
  induction entries with
  | nil => simp
  | cons entry rest ih =>
      by_cases found : entry.1 = key
      · subst found
        rw [List.filter_cons_of_neg (by simp), List.lookup_cons_self, List.map_cons, List.sum_cons]
        dsimp only [Option.map_some, Option.getD_some]
        omega
      · have other : (key == entry.1) = false := by simpa using fun same => found same.symm
        rw [List.filter_cons_of_pos (by simpa using found), List.lookup_cons, other, List.map_cons,
          List.map_cons, List.sum_cons, List.sum_cons]
        dsimp only
        omega

theorem setKey_setKey (key : κ) (value value' : α) (entries : List (κ × α)) :
    setKey key value' (setKey key value entries) = setKey key value' entries := by
  induction entries with
  | nil => simp [setKey]
  | cons entry rest ih =>
      by_cases found : entry.1 = key
      · simp [setKey, found]
      · simp only [setKey, if_neg found, ih]

theorem mem_setKey {key : κ} {value : α} {entries : List (κ × α)} {entry : κ × α}
    (member : entry ∈ setKey key value entries) : entry = (key, value) ∨ entry ∈ entries := by
  induction entries with
  | nil => exact .inl (List.mem_singleton.mp member)
  | cons first rest ih =>
      unfold setKey at member
      split at member
      · exact (List.mem_cons.mp member).imp_right (List.mem_cons_of_mem _)
      · rcases List.mem_cons.mp member with rfl | later
        · exact .inr List.mem_cons_self
        · exact (ih later).imp_right (List.mem_cons_of_mem _)

/-- Of the values that are set one by one for a key the last one stays. -/
theorem lookup_foldl_setKey [BEq κ] [LawfulBEq κ] (pairs entries : List (κ × α)) (k : κ) :
    (pairs.foldl (fun entries pair => setKey pair.1 pair.2 entries) entries).lookup k =
      (pairs.reverse.lookup k).or (entries.lookup k) := by
  induction pairs generalizing entries with
  | nil => rfl
  | cons pair pairs ih =>
      obtain ⟨key, value⟩ := pair
      rw [List.foldl_cons, ih, lookup_setKey, List.reverse_cons, List.lookup_append, Option.or_assoc]
      congr 1
      by_cases same : k = key
      · simp [same]
      · have other : (k == key) = false := beq_eq_false_iff_ne.mpr same
        simp [List.lookup_cons, same, other]

/-- Pushing rows one by one leaves each key with its rows, in their order. -/
theorem lookup_foldl_push (name : β → κ) (row : β → α) (rows : List β) (groups : List (κ × List α))
    (k : κ) :
    ((rows.foldl (fun groups b => push (name b) (row b) groups) groups).lookup k).getD [] =
      (groups.lookup k).getD [] ++ (rows.filter fun b => name b = k).map row := by
  induction rows generalizing groups with
  | nil => simp
  | cons b rows ih =>
      rw [List.foldl_cons, ih, push, lookup_setKey]
      by_cases same : name b = k
      · subst same
        simp
      · have other : ¬ k = name b := fun eq => same eq.symm
        simp [other, same]

theorem lookup_map (f : α → β) (entries : List (κ × α)) (k : κ) :
    (entries.map fun entry => (entry.1, f entry.2)).lookup k = (entries.lookup k).map f := by
  induction entries with
  | nil => rfl
  | cons entry rest ih =>
      rw [List.map_cons, List.lookup_cons, List.lookup_cons]
      cases k == entry.1 with
      | true => rfl
      | false => exact ih

/-! ## Rows that are told apart -/

omit [DecidableEq κ] in
/-- Two selections of rows that are told apart give the same table exactly if they select the same rows
and give the same for each. -/
theorem map_filter_eq_iff {name : α → κ} {f g : α → β} (back : β → κ) (back_f : ∀ a, back (f a) = name a)
    (back_g : ∀ a, back (g a) = name a) {rows : List α} (nodup : (rows.map name).Nodup)
    (p q : α → Bool) :
    (rows.filter p).map f = (rows.filter q).map g ↔
      ∀ a ∈ rows, p a = q a ∧ (p a = true → f a = g a) := by
  constructor
  · intro same
    induction rows with
    | nil => exact fun a member => by cases member
    | cons a rows ih =>
        obtain ⟨new, nodup⟩ := List.nodup_cons.mp nodup
        have absent : ∀ {r : α → Bool} {k : α → β}, (∀ a, back (k a) = name a) → ∀ b, back b = name a →
            b ∉ (rows.filter r).map k := by
          intro r k back_k b named member
          obtain ⟨a', listed, rfl⟩ := List.mem_map.mp member
          rw [back_k] at named
          exact new (List.mem_map.mpr ⟨a', List.mem_of_mem_filter listed, named⟩)
        cases inP : p a <;> cases inQ : q a
        case false.false =>
          rw [List.filter_cons_of_neg (by simp [inP]), List.filter_cons_of_neg (by simp [inQ])] at same
          exact List.forall_mem_cons.mpr ⟨⟨inP.trans inQ.symm, fun taken =>
            absurd (inP.symm.trans taken) Bool.false_ne_true⟩, ih nodup same⟩
        case false.true =>
          rw [List.filter_cons_of_neg (by simp [inP]), List.filter_cons_of_pos (by simp [inQ]),
            List.map_cons] at same
          exact absurd (same ▸ List.mem_cons_self) (absent back_f _ (back_g a))
        case true.false =>
          rw [List.filter_cons_of_pos (by simp [inP]), List.filter_cons_of_neg (by simp [inQ]),
            List.map_cons] at same
          exact absurd (same ▸ List.mem_cons_self) (absent back_g _ (back_f a))
        case true.true =>
          rw [List.filter_cons_of_pos (by simp [inP]), List.filter_cons_of_pos (by simp [inQ]),
            List.map_cons, List.map_cons] at same
          obtain ⟨first, rest⟩ := List.cons.inj same
          exact List.forall_mem_cons.mpr ⟨⟨inP.trans inQ.symm, fun _ => first⟩, ih nodup rest⟩
  · intro agree
    rw [List.filter_congr fun a member => (agree a member).1]
    refine List.map_congr_left fun a member => ?_
    obtain ⟨listed, inQ⟩ := List.mem_filter.mp member
    exact (agree a listed).2 ((agree a listed).1.trans inQ)

/-! ## Grouping a table -/

/-- The rows of a table by their keys. -/
def groupBy (name : β → κ) (row : β → α) (rows : List β) : List (κ × List α) :=
  rows.foldl (fun groups b => push (name b) (row b) groups) []

theorem keys_setKey (key : κ) (value : α) (entries : List (κ × α)) :
    (setKey key value entries).map Prod.fst =
      if key ∈ entries.map Prod.fst then entries.map Prod.fst else entries.map Prod.fst ++ [key] := by
  induction entries with
  | nil => rfl
  | cons entry rest ih =>
      unfold setKey
      by_cases found : entry.1 = key
      · simp [found]
      · have other : ¬ key = entry.1 := fun same => found same.symm
        rw [if_neg found, List.map_cons, ih]
        by_cases later : key ∈ rest.map Prod.fst
        · simp only [List.map_cons, List.mem_cons, other, later, or_true, if_true]
        · simp only [List.map_cons, List.mem_cons, other, later, or_false, if_false,
            List.cons_append]

theorem nodup_setKey {entries : List (κ × α)} (nodup : (entries.map Prod.fst).Nodup) (key : κ)
    (value : α) : ((setKey key value entries).map Prod.fst).Nodup := by
  rw [keys_setKey]
  split
  · exact nodup
  · next other =>
      refine nodup.append (List.nodup_singleton key) fun k member here => ?_
      rw [List.mem_singleton.mp here] at member
      exact other member

omit [DecidableEq κ] in
theorem lookup_of_mem [BEq κ] [LawfulBEq κ] {entries : List (κ × α)}
    (nodup : (entries.map Prod.fst).Nodup) {entry : κ × α} (member : entry ∈ entries) :
    entries.lookup entry.1 = some entry.2 := by
  induction entries with
  | nil => cases member
  | cons first rest ih =>
      obtain ⟨new, others⟩ := List.nodup_cons.mp nodup
      rcases List.mem_cons.mp member with rfl | later
      · exact List.lookup_cons_self
      · have differs : (entry.1 == first.1) = false := by
          rw [beq_eq_false_iff_ne]
          intro same
          exact new (same ▸ List.mem_map_of_mem later)
        rw [List.lookup_cons, differs]
        exact ih others later

/-- Every key of the table is there once, and no other. -/
theorem keys_foldl_push (name : β → κ) (row : β → α) (rows : List β) {groups : List (κ × List α)}
    (nodup : (groups.map Prod.fst).Nodup) :
    let grouped := rows.foldl (fun groups b => push (name b) (row b) groups) groups
    (grouped.map Prod.fst).Nodup ∧
      ∀ k, k ∈ grouped.map Prod.fst ↔ k ∈ groups.map Prod.fst ∨ k ∈ rows.map name := by
  induction rows generalizing groups with
  | nil => exact ⟨nodup, fun k => by simp⟩
  | cons b rows ih =>
      have keys := keys_setKey (name b) ((groups.lookup (name b)).getD [] ++ [row b]) groups
      change (push (name b) (row b) groups).map Prod.fst = _ at keys
      rw [List.foldl_cons]
      by_cases there : name b ∈ groups.map Prod.fst
      · rw [if_pos there] at keys
        obtain ⟨distinct, all⟩ := ih (keys ▸ nodup)
        refine ⟨distinct, fun k => ?_⟩
        rw [all, keys, List.map_cons, List.mem_cons]
        constructor
        · exact fun found => found.imp_right .inr
        · rintro (old | rfl | new)
          · exact .inl old
          · exact .inl there
          · exact .inr new
      · rw [if_neg there] at keys
        have distinct' : ((push (name b) (row b) groups).map Prod.fst).Nodup := by
          rw [keys]
          refine List.nodup_append.mpr ⟨nodup, List.nodup_singleton _, ?_⟩
          rintro k inOld _ isNew rfl
          rw [List.mem_singleton.mp isNew] at inOld
          exact there inOld
        obtain ⟨distinct, all⟩ := ih distinct'
        refine ⟨distinct, fun k => ?_⟩
        rw [all, keys, List.map_cons, List.mem_cons, List.mem_append, List.mem_singleton, or_assoc]

theorem nodup_keys_groupBy (name : β → κ) (row : β → α) (rows : List β) :
    ((groupBy name row rows).map Prod.fst).Nodup := by
  have none : (([] : List (κ × List α)).map Prod.fst).Nodup := List.nodup_nil
  exact (keys_foldl_push name row rows none).1

theorem mem_keys_groupBy (name : β → κ) (row : β → α) (rows : List β) (k : κ) :
    k ∈ (groupBy name row rows).map Prod.fst ↔ k ∈ rows.map name := by
  have none : (([] : List (κ × List α)).map Prod.fst).Nodup := List.nodup_nil
  rw [groupBy, (keys_foldl_push name row rows none).2 k]
  simp

/-- The group of a key has its rows, in their order. -/
theorem snd_of_mem_groupBy {name : β → κ} {row : β → α} {rows : List β} {group : κ × List α}
    (member : group ∈ groupBy name row rows) :
    group.2 = (rows.filter fun b => name b = group.1).map row := by
  have found : (groupBy name row rows).lookup group.1 = some group.2 := by
    have distinct := nodup_keys_groupBy name row rows
    obtain ⟨before, after, split⟩ := List.append_of_mem member
    rw [split] at distinct ⊢
    refine List.lookup_eq_some_iff.mpr ⟨before, after, rfl, fun entry earlier => ?_⟩
    rw [List.map_append, List.map_cons] at distinct
    have apart := (List.nodup_append.mp distinct).2.2 entry.1 (List.mem_map_of_mem earlier) group.1
      List.mem_cons_self
    simpa using apart.symm
  have rowsOf := lookup_foldl_push name row rows [] group.1
  change ((groupBy name row rows).lookup group.1).getD [] = _ at rowsOf
  rw [found] at rowsOf
  simpa using rowsOf

/-- A sum over the groups is a sum over the keys. -/
theorem sum_groupBy {M : Type*} [AddCommMonoid M] (f : κ → List α → M) (name : β → κ) (row : β → α)
    (rows : List β) :
    ((groupBy name row rows).map fun group => f group.1 group.2).sum =
      ∑ k ∈ (rows.map name).toFinset, f k ((rows.filter fun b => name b = k).map row) := by
  have keys : (rows.map name).toFinset = ((groupBy name row rows).map Prod.fst).toFinset := by
    ext k
    rw [List.mem_toFinset, List.mem_toFinset, mem_keys_groupBy]
  rw [keys, List.sum_toFinset _ (nodup_keys_groupBy name row rows), List.map_map]
  congr 1
  refine List.map_congr_left fun group member => ?_
  rw [Function.comp_apply, snd_of_mem_groupBy member]

end Frames
