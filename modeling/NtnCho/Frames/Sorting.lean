import Mathlib.Data.Finset.Card
import Mathlib.Data.Set.Card
import NtnCho.Frames.AsOf

/-!
# Sorting and neighbours

`sortBy` is stable: rows of one key keep their order. So the sorted table depends only on the rows of each
key, in their order (`sortBy_congr`), and its neighbours are the rows between which, by key and then by
position, no other row lies (`mem_adjacent_sortBy`).
-/

namespace Frames

variable {α κ τ : Type*} [LinearOrder τ] {key : α → τ}

/-! ## Stability -/

theorem filter_sortBy (key : α → τ) (rows : List α) (t : τ) :
    (sortBy key rows).filter (fun a => key a = t) = rows.filter fun a => key a = t := by
  -- the rows of one key are a sorted part of the table, which the sort keeps as it is
  have level : (rows.filter fun a => key a = t).Pairwise fun a b => decide (key a ≤ key b) = true := by
    refine List.Pairwise.imp_of_mem (fun {a b} inA inB _ => ?_)
      (List.pairwise_of_forall fun _ _ => trivial)
    have here : key a = t := by simpa using (List.mem_filter.mp inA).2
    have here' : key b = t := by simpa using (List.mem_filter.mp inB).2
    exact decide_eq_true (by rw [here, here'])
  have part := (List.sublist_mergeSort (key_trans key) (key_total key) level
    (List.filter_sublist (l := rows))).filter fun a => key a = t
  rw [List.filter_filter] at part
  have same : (rows.filter fun a => decide (key a = t) && decide (key a = t)) =
      rows.filter fun a => key a = t := by simp
  rw [same] at part
  refine (part.eq_of_length ?_).symm
  exact ((List.mergeSort_perm rows _).filter _).length_eq.symm

/-- A sorted table is determined by the rows of each key. -/
theorem eq_of_sorted {rows rows' : List α} (sorted : rows.Pairwise fun a b => key a ≤ key b)
    (sorted' : rows'.Pairwise fun a b => key a ≤ key b)
    (same : ∀ t, (rows.filter fun a => key a = t) = rows'.filter fun a => key a = t) :
    rows = rows' := by
  induction rows generalizing rows' with
  | nil =>
      cases rows' with
      | nil => rfl
      | cons b rest' =>
          have none := same (key b)
          simp at none
  | cons a rest ih =>
      cases rows' with
      | nil =>
          have none := same (key a)
          simp at none
      | cons b rest' =>
          -- the first rows have the least key, and both come first among the rows of that key
          have least : key a ≤ key b := by
            have member : b ∈ (a :: rest).filter fun c => key c = key b := by
              rw [same (key b)]
              simp
            rcases List.mem_cons.mp (List.mem_of_mem_filter member) with rfl | later
            · exact le_rfl
            · exact List.rel_of_pairwise_cons sorted later
          have least' : key b ≤ key a := by
            have member : a ∈ (b :: rest').filter fun c => key c = key a := by
              rw [← same (key a)]
              simp
            rcases List.mem_cons.mp (List.mem_of_mem_filter member) with rfl | later
            · exact le_rfl
            · exact List.rel_of_pairwise_cons sorted' later
          have level : key a = key b := le_antisymm least least'
          have heads := same (key a)
          rw [List.filter_cons_of_pos (by simp), List.filter_cons_of_pos (by simp [level])] at heads
          obtain ⟨rfl, -⟩ := List.cons.inj heads
          congr 1
          refine ih sorted.of_cons sorted'.of_cons fun t => ?_
          have tails := same t
          by_cases here : key a = t
          · rw [List.filter_cons_of_pos (by simpa using here),
              List.filter_cons_of_pos (by simpa using here)] at tails
            exact (List.cons.inj tails).2
          · rwa [List.filter_cons_of_neg (by simpa using here),
              List.filter_cons_of_neg (by simpa using here)] at tails

/-- The order among the rows of different keys does not matter. -/
theorem sortBy_congr {rows rows' : List α}
    (same : ∀ t, (rows.filter fun a => key a = t) = rows'.filter fun a => key a = t) :
    sortBy key rows = sortBy key rows' := by
  refine eq_of_sorted (pairwise_sortBy key rows) (pairwise_sortBy key rows') fun t => ?_
  rw [filter_sortBy, filter_sortBy, same t]

/-! ## Neighbours -/

/-- The pairs of neighbours. -/
def adjacent (l : List α) : List (α × α) := l.zip l.tail

theorem adjacent_cons_cons (a b : α) (l : List α) :
    adjacent (a :: b :: l) = (a, b) :: adjacent (b :: l) := rfl

theorem adjacent_map {β : Type*} (f : α → β) (l : List α) :
    adjacent (l.map f) = (adjacent l).map fun p => (f p.1, f p.2) := by
  unfold adjacent
  rw [← List.map_tail]
  exact List.zip_map

theorem fst_adjacent_sublist (l : List α) : ((adjacent l).map Prod.fst).Sublist l := by
  induction l with
  | nil => exact .slnil
  | cons a l ih =>
      cases l with
      | nil => exact List.nil_sublist _
      | cons b l => exact ih.cons_cons a

/-- In a strictly sorted list the neighbours are the entries between which there is none. -/
theorem mem_adjacent {r : α → α → Prop} (irrefl : ∀ a, ¬ r a a)
    (trans : ∀ a b c, r a b → r b c → r a c) {l : List α} (sorted : l.Pairwise r) {a b : α} :
    (a, b) ∈ adjacent l ↔ a ∈ l ∧ b ∈ l ∧ r a b ∧ ∀ c ∈ l, ¬ (r a c ∧ r c b) := by
  induction l with
  | nil => simp [adjacent]
  | cons x l ih =>
      cases l with
      | nil =>
          simp only [adjacent, List.tail_cons, List.zip_nil_right, List.not_mem_nil, false_iff]
          rintro ⟨inA, inB, less, -⟩
          rw [List.mem_singleton.mp inA, List.mem_singleton.mp inB] at less
          exact irrefl x less
      | cons y l =>
          have first : ∀ c ∈ y :: l, r x c := fun c member => List.rel_of_pairwise_cons sorted member
          have second : ∀ c ∈ l, r y c := fun c member =>
            List.rel_of_pairwise_cons sorted.of_cons member
          rw [adjacent_cons_cons, List.mem_cons, ih sorted.of_cons]
          constructor
          · rintro (same | ⟨inA, inB, less, none⟩)
            · obtain ⟨rfl, rfl⟩ := Prod.mk.inj same
              refine ⟨by simp, by simp, first b List.mem_cons_self, ?_⟩
              rintro c member ⟨after, before⟩
              rcases List.mem_cons.mp member with rfl | member
              · exact irrefl c after
              · rcases List.mem_cons.mp member with rfl | member
                · exact irrefl c before
                · exact irrefl b (trans b c b (second c member) before)
            · refine ⟨List.mem_cons_of_mem x inA, List.mem_cons_of_mem x inB, less, ?_⟩
              rintro c member ⟨after, before⟩
              rcases List.mem_cons.mp member with rfl | member
              · exact irrefl c (trans c a c (first a inA) after)
              · exact none c member ⟨after, before⟩
          · rintro ⟨inA, inB, less, none⟩
            have notX : b ∈ y :: l := by
              rcases List.mem_cons.mp inB with rfl | inB
              · rcases List.mem_cons.mp inA with rfl | inA
                · exact absurd less (irrefl a)
                · exact absurd (trans b a b (first a inA) less) (irrefl b)
              · exact inB
            rcases List.mem_cons.mp inA with rfl | inA
            · left
              rcases List.mem_cons.mp notX with rfl | later
              · rfl
              · exact absurd ⟨first y List.mem_cons_self, second b later⟩ (none y (by simp))
            · exact .inr ⟨inA, notX, less, fun c member => none c (List.mem_cons_of_mem x member)⟩

/-! ## Neighbours in a sorted table -/

/-- The row at `i` comes before the row at `j`, by key and then by position. -/
def Earlier (key : α → τ) (rows : List α) (i j : ℕ) : Prop :=
  ∃ a b, rows[i]? = some a ∧ rows[j]? = some b ∧ (key a < key b ∨ key a = key b ∧ i < j)

/-- The row at `i` comes before the row at `j`, and none comes between them. -/
structure Consecutive (key : α → τ) (rows : List α) (i j : ℕ) : Prop where
  earlier : Earlier key rows i j
  between : ∀ k, ¬ (Earlier key rows i k ∧ Earlier key rows k j)

/-- The order by key and then by position. -/
def indexedLT (key : α → τ) (p q : α × ℕ) : Prop := key p.1 < key q.1 ∨ key p.1 = key q.1 ∧ p.2 < q.2

/-- The rows with their positions, sorted. -/
def sortIndexed (key : α → τ) (rows : List α) : List (α × ℕ) :=
  rows.zipIdx.mergeSort (List.zipIdxLE fun a b => decide (key a ≤ key b))

theorem map_sortIndexed (key : α → τ) (rows : List α) :
    (sortIndexed key rows).map Prod.fst = sortBy key rows := List.mergeSort_zipIdx

theorem mem_sortIndexed {rows : List α} {a : α} {i : ℕ} :
    (a, i) ∈ sortIndexed key rows ↔ rows[i]? = some a :=
  List.mem_mergeSort.trans List.mk_mem_zipIdx_iff_getElem?

theorem nodup_sortIndexed (key : α → τ) (rows : List α) :
    ((sortIndexed key rows).map Prod.snd).Nodup := by
  have positions : (rows.zipIdx.map Prod.snd).Nodup := by
    rw [List.zipIdx_map_snd]
    exact List.nodup_range'
  exact positions.perm ((List.mergeSort_perm _ _).map Prod.snd).symm

theorem pairwise_sortIndexed (key : α → τ) (rows : List α) :
    (sortIndexed key rows).Pairwise (indexedLT key) := by
  have sorted := List.pairwise_mergeSort (List.zipIdxLE_trans (key_trans key))
    (List.zipIdxLE_total (key_total key)) rows.zipIdx
  have distinct := List.pairwise_map.mp (nodup_sortIndexed key rows)
  refine (sorted.and distinct).imp ?_
  rintro ⟨a, i⟩ ⟨b, j⟩ ⟨le, ne⟩
  unfold List.zipIdxLE at le
  rcases lt_trichotomy (key a) (key b) with less | level | more
  · exact .inl less
  · refine .inr ⟨level, lt_of_le_of_ne ?_ ne⟩
    simpa [level] using le
  · simp [not_le.mpr more] at le

/-- The neighbours with a property in the sorted table are its consecutive rows with it. -/
theorem countP_adjacent_sortBy (key : α → τ) (rows : List α) (property : α → α → Bool) :
    (adjacent (sortBy key rows)).countP (fun p => property p.1 p.2) =
      Set.ncard {p : ℕ × ℕ | Consecutive key rows p.1 p.2 ∧
        ∃ a b, rows[p.1]? = some a ∧ rows[p.2]? = some b ∧ property a b = true} := by
  have irrefl : ∀ p : α × ℕ, ¬ indexedLT key p p := by
    rintro p (less | ⟨_, less⟩)
    · exact lt_irrefl _ less
    · exact lt_irrefl _ less
  have trans : ∀ p q s : α × ℕ, indexedLT key p q → indexedLT key q s → indexedLT key p s := by
    rintro p q s (first | ⟨level, first⟩) (second | ⟨level', second⟩)
    · exact .inl (first.trans second)
    · exact .inl (first.trans_eq level')
    · exact .inl (level.trans_lt second)
    · exact .inr ⟨level.trans level', first.trans second⟩
  have neighbours := fun p q => @mem_adjacent (α × ℕ) (indexedLT key) irrefl trans
    (sortIndexed key rows) (pairwise_sortIndexed key rows) p q
  let found := ((adjacent (sortIndexed key rows)).filter fun p => property p.1.1 p.2.1).map
    fun p => (p.1.2, p.2.2)
  have distinct : found.Nodup := by
    have firsts : (((adjacent (sortIndexed key rows)).map Prod.fst).map Prod.snd).Nodup :=
      (nodup_sortIndexed key rows).sublist ((fst_adjacent_sublist _).map Prod.snd)
    rw [List.map_map] at firsts
    have kept := firsts.sublist
      ((List.filter_sublist (p := fun p => property p.1.1 p.2.1)).map (Prod.snd ∘ Prod.fst))
    refine List.Nodup.of_map Prod.fst ?_
    rw [List.map_map]
    exact kept
  have earlier : ∀ {i j : ℕ} {a b : α}, rows[i]? = some a → rows[j]? = some b →
      (Earlier key rows i j ↔ indexedLT key (a, i) (b, j)) := by
    intro i j a b atI atJ
    constructor
    · rintro ⟨a', b', atI', atJ', order⟩
      obtain rfl := Option.some.inj (atI.symm.trans atI')
      obtain rfl := Option.some.inj (atJ.symm.trans atJ')
      exact order
    · exact fun order => ⟨a, b, atI, atJ, order⟩
  have same : {p : ℕ × ℕ | Consecutive key rows p.1 p.2 ∧
      ∃ a b, rows[p.1]? = some a ∧ rows[p.2]? = some b ∧ property a b = true} =
      (found.toFinset : Set (ℕ × ℕ)) := by
    ext ⟨i, j⟩
    simp only [Set.mem_ofPred_eq, List.coe_toFinset, found, List.mem_map, List.mem_filter]
    constructor
    · rintro ⟨⟨first, between⟩, a, b, atI, atJ, holds⟩
      refine ⟨((a, i), (b, j)), ⟨(neighbours _ _).mpr ⟨mem_sortIndexed.mpr atI,
        mem_sortIndexed.mpr atJ, (earlier atI atJ).mp first, ?_⟩, holds⟩, rfl⟩
      rintro ⟨c, k⟩ member ⟨after, before⟩
      have atK := mem_sortIndexed.mp member
      exact between k ⟨(earlier atI atK).mpr after, (earlier atK atJ).mpr before⟩
    · rintro ⟨⟨⟨a, i'⟩, ⟨b, j'⟩⟩, ⟨member, holds⟩, positions⟩
      obtain ⟨rfl, rfl⟩ := Prod.mk.inj positions
      obtain ⟨inA, inB, less, none⟩ := (neighbours _ _).mp member
      have atI := mem_sortIndexed.mp inA
      have atJ := mem_sortIndexed.mp inB
      refine ⟨⟨(earlier atI atJ).mpr less, ?_⟩, a, b, atI, atJ, holds⟩
      rintro k ⟨after, before⟩
      obtain ⟨_, c, _, atK, _⟩ := id after
      exact none (c, k) (mem_sortIndexed.mpr atK)
        ⟨(earlier atI atK).mp after, (earlier atK atJ).mp before⟩
  rw [same, Set.ncard_coe_finset, List.toFinset_card_of_nodup distinct, List.length_map,
    ← List.countP_eq_length_filter, ← map_sortIndexed, adjacent_map, List.countP_map]
  rfl

end Frames
