import Mathlib.Data.Multiset.MapFold
import NtnCho.Schedulers

/-!
# The calendar event list of ns-3

`CalendarScheduler` spreads the events over buckets by time, a bucket covering one width in each turn
of the calendar, and looks for the next event from the bucket of the last one on. It changes the number
of buckets and their width as it fills and empties. Whatever it has done before, the event it finds is
the least: `calendarSchedulerLawful`.

Time stamps lie below `2 ^ 63`, the maximum of `ns3::Time`; on them the search never leaves the range
of `uint64_t`, although widths are computed modulo `2 ^ 64`.
-/

namespace NtnCho

open EventSystem

variable {ε : Type}

/-- `CalendarScheduler`; `m_nBuckets` is the number of `buckets`. -/
structure CalendarScheduler (ε : Type) where
  buckets : List (List (Scheduler.Event ε))
  width : ℕ
  lastBucket : ℕ
  bucketTop : ℕ
  lastPrio : ℕ
  qSize : ℕ

namespace CalendarScheduler

/-- The range of `uint64_t`. -/
abbrev uint64 : ℕ := 2 ^ 64

/-- `m_nBuckets`. -/
def nBuckets (c : CalendarScheduler ε) : ℕ := c.buckets.length

/-- The bucket that `Hash` finds. -/
def hash (c : CalendarScheduler ε) (ts : ℕ) : ℕ := ts / c.width % c.nBuckets

/-- `m_buckets[i]`. -/
def bucket (c : CalendarScheduler ε) (i : ℕ) : List (Scheduler.Event ε) := (c.buckets[i]?).getD []

/-- `Init`; `m_qSize` stays as it is. -/
def init (qSize nBuckets width startPrio : ℕ) : CalendarScheduler ε where
  buckets := List.replicate nBuckets []
  width := width
  lastBucket := startPrio / width % nBuckets
  bucketTop := (startPrio / width + 1) * width % uint64
  lastPrio := startPrio
  qSize := qSize

/-- `Order`, `NextEvent` and `Pop` as `SetReverse` sets them. -/
def order (reverse : Bool) (a b : Scheduler.Event ε) : Bool :=
  if reverse then a.key.greater b.key else a.key.less b.key

def nextEvent (reverse : Bool) (b : List (Scheduler.Event ε)) : Option (Scheduler.Event ε) :=
  if reverse then b.getLast? else b.head?

def pop (reverse : Bool) (b : List (Scheduler.Event ε)) : List (Scheduler.Event ε) :=
  if reverse then b.dropLast else b.tail

/-- `DoInsert`. -/
def doInsert (reverse : Bool) (ev : Scheduler.Event ε) (c : CalendarScheduler ε) :
    CalendarScheduler ε :=
  let bucket := c.hash ev.key.ts
  { c with buckets := c.buckets.set bucket (insertBefore (order reverse) ev (c.bucket bucket)) }

/-- What a search through the buckets has found: an event below the top of its bucket, or the least
first event of all buckets. -/
inductive Found (ε : Type)
  | below (i bucketTop : ℕ) (next : Scheduler.Event ε)
  | least (minKey : Scheduler.EventKey) (minBucket : Option ℕ)

/-- The loop of `DoRemoveNext`, with the number of buckets left until `i` comes round to
`m_lastBucket`. -/
def search (reverse : Bool) (c : CalendarScheduler ε) :
    ℕ → ℕ → ℕ → Scheduler.EventKey → Option ℕ → Found ε
  | 0, _, _, minKey, minBucket => .least minKey minBucket
  | turns + 1, i, bucketTop, minKey, minBucket =>
      let i' := (i + 1) % c.nBuckets
      let bucketTop' := (bucketTop + c.width) % uint64
      match nextEvent reverse (c.bucket i) with
      | none => search reverse c turns i' bucketTop' minKey minBucket
      | some next =>
          if next.key.ts < bucketTop then .below i bucketTop next
          else if next.key.less minKey then
            search reverse c turns i' bucketTop' next.key (some i)
          else search reverse c turns i' bucketTop' minKey minBucket

/-- `DoRemoveNext`. -/
def doRemoveNext (reverse : Bool) (c : CalendarScheduler ε) :
    Option (Scheduler.Event ε × CalendarScheduler ε) :=
  match search reverse c c.nBuckets c.lastBucket c.bucketTop ⟨uint64 - 1, 0, 0xffffffff⟩ none with
  | .below i bucketTop next =>
      some (next,
        { c with
          lastBucket := i
          lastPrio := next.key.ts
          bucketTop := bucketTop
          buckets := c.buckets.set i (pop reverse (c.bucket i)) })
  | .least minKey minBucket =>
      match minBucket with
      | none => none
      | some i =>
          (nextEvent reverse (c.bucket i)).map fun next =>
            (next,
              { c with
                lastPrio := minKey.ts
                lastBucket := c.hash minKey.ts
                bucketTop := (minKey.ts / c.width + 1) * c.width % uint64
                buckets := c.buckets.set i (pop reverse (c.bucket i)) })

/-- The loop of `PeekNext`. -/
def peek (reverse : Bool) (c : CalendarScheduler ε) :
    ℕ → ℕ → ℕ → Scheduler.EventKey × Option (Scheduler.Event ε) → Option (Scheduler.Event ε)
  | 0, _, _, minEvent => minEvent.2
  | turns + 1, i, bucketTop, minEvent =>
      let i' := (i + 1) % c.nBuckets
      let bucketTop' := (bucketTop + c.width) % uint64
      match nextEvent reverse (c.bucket i) with
      | none => peek reverse c turns i' bucketTop' minEvent
      | some next =>
          if next.key.ts < bucketTop then some next
          else if next.key.less minEvent.1 then peek reverse c turns i' bucketTop' (next.key, some next)
          else peek reverse c turns i' bucketTop' minEvent

/-- `PeekNext`. -/
def peekNext (reverse : Bool) (c : CalendarScheduler ε) : Option (Scheduler.Event ε) :=
  peek reverse c c.nBuckets c.lastBucket c.bucketTop (⟨uint64 - 1, 2 ^ 32 - 1, 0⟩, none)

/-- The first loop of `CalculateNewWidth`. -/
def takeSamples (reverse : Bool) :
    ℕ → CalendarScheduler ε → List (Scheduler.Event ε) × CalendarScheduler ε
  | 0, c => ([], c)
  | nSamples + 1, c =>
      match doRemoveNext reverse c with
      | none => ([], c)
      | some (next, c') =>
          let (samples, c'') := takeSamples reverse nSamples c'
          (next :: samples, c'')

/-- The differences of the successive time stamps. -/
def separations : List (Scheduler.Event ε) → List ℕ
  | cur :: next :: rest =>
      (next.key.ts + uint64 - cur.key.ts) % uint64 :: separations (next :: rest)
  | _ => []

/-- Three times the sum of the separations up to twice their average. -/
def widthOf (nSamples : ℕ) (samples : List (Scheduler.Event ε)) : ℕ :=
  let totalSeparation := (separations samples).foldl (fun total diff => (total + diff) % uint64) 0
  let twiceAvg := totalSeparation / (nSamples - 1) * 2 % uint64
  let kept := (separations samples).foldl
    (fun total diff => if diff ≤ twiceAvg then (total + diff) % uint64 else total) 0
  max (kept * 3 % uint64) 1

/-- `CalculateNewWidth`. -/
def calculateNewWidth (reverse : Bool) (c : CalendarScheduler ε) : ℕ × CalendarScheduler ε :=
  if c.qSize < 2 then (1, c)
  else
    let nSamples := min (if c.qSize ≤ 5 then c.qSize else 5 + c.qSize / 10) 25
    let (samples, taken) := takeSamples reverse nSamples c
    let back := samples.foldl (fun c ev => doInsert reverse ev c) taken
    (widthOf nSamples samples,
      { back with lastBucket := c.lastBucket, bucketTop := c.bucketTop, lastPrio := c.lastPrio })

/-- `DoResize`. -/
def doResize (reverse : Bool) (newSize newWidth : ℕ) (c : CalendarScheduler ε) :
    CalendarScheduler ε :=
  c.buckets.flatten.foldl (fun c ev => doInsert reverse ev c)
    (init c.qSize newSize newWidth c.lastPrio)

/-- `Resize`. -/
def resize (reverse : Bool) (newSize : ℕ) (c : CalendarScheduler ε) : CalendarScheduler ε :=
  let (newWidth, c') := calculateNewWidth reverse c
  doResize reverse newSize newWidth c'

/-- `ResizeUp`. -/
def resizeUp (reverse : Bool) (c : CalendarScheduler ε) : CalendarScheduler ε :=
  if c.qSize > c.nBuckets * 2 ∧ c.nBuckets < 32768 then resize reverse (c.nBuckets * 2) c else c

/-- `ResizeDown`. -/
def resizeDown (reverse : Bool) (c : CalendarScheduler ε) : CalendarScheduler ε :=
  if c.qSize < c.nBuckets / 2 then resize reverse (c.nBuckets / 2) c else c

/-- `Insert`. -/
def insert (reverse : Bool) (ev : Scheduler.Event ε) (c : CalendarScheduler ε) :
    CalendarScheduler ε :=
  let c' := doInsert reverse ev c
  resizeUp reverse { c' with qSize := c'.qSize + 1 }

/-- `RemoveNext`. -/
def removeNext (reverse : Bool) (c : CalendarScheduler ε) :
    Option (Scheduler.Event ε × CalendarScheduler ε) :=
  (doRemoveNext reverse c).map fun (ev, c') =>
    (ev, resizeDown reverse { c' with qSize := c'.qSize - 1 })

/-- `Remove`. -/
def remove (reverse : Bool) (ev : Scheduler.Event ε) (c : CalendarScheduler ε) :
    CalendarScheduler ε :=
  let i := c.hash ev.key.ts
  if (c.bucket i).any fun e => e.key.uid == ev.key.uid then
    resizeDown reverse
      { c with
        buckets := c.buckets.set i ((c.bucket i).eraseP fun e => e.key.uid == ev.key.uid)
        qSize := c.qSize - 1 }
  else c

/-! ## Buckets -/

/-- A bucket is stored in increasing or, reversed, in decreasing order. -/
def BucketSorted (reverse : Bool) (b : List (Scheduler.Event ε)) : Prop :=
  if reverse then b.Pairwise fun x y => y.order < x.order
  else SortedBy Scheduler.Event.order b

variable {reverse : Bool} {c : CalendarScheduler ε} {s : Multiset (Scheduler.Event ε)}
  {a ev : Scheduler.Event ε} {b : List (Scheduler.Event ε)}

theorem BucketSorted.nil : BucketSorted reverse ([] : List (Scheduler.Event ε)) := by
  cases reverse <;> exact List.Pairwise.nil

theorem BucketSorted.sublist {b' : List (Scheduler.Event ε)} (sorted : BucketSorted reverse b)
    (sub : b'.Sublist b) : BucketSorted reverse b' := by
  cases reverse <;> exact List.Pairwise.sublist sub sorted

theorem BucketSorted.insertBefore (sorted : BucketSorted reverse b)
    (fresh : ∀ x ∈ b, x.order ≠ ev.order) :
    BucketSorted reverse (insertBefore (order reverse) ev b) := by
  cases reverse with
  | false => exact SortedBy.insertBefore (fun {x y} => Scheduler.Event.less_eq x y) sorted fresh
  | true =>
      have reads : ∀ x, order true ev x = decide (x.order < ev.order) := fun x =>
        (Scheduler.Event.greater_eq ev x).trans (Scheduler.Event.less_eq x ev)
      refine pairwise_insertBefore (fun first second => lt_trans second first) sorted ?_ ?_
      · intro x _ yes
        rw [reads] at yes
        exact of_decide_eq_true yes
      · intro x member no
        rw [reads] at no
        exact lt_of_le_of_ne (not_lt.mp (of_decide_eq_false no)) (fresh x member).symm

/-- `NextEvent` is the least event of a bucket, and `Pop` takes it out. -/
theorem BucketSorted.next (sorted : BucketSorted reverse b) (some_left : b ≠ []) :
    ∃ a, nextEvent reverse b = some a ∧ b.Perm (a :: pop reverse b) ∧
      (∀ x ∈ pop reverse b, a.order < x.order) ∧ BucketSorted reverse (pop reverse b) := by
  cases reverse with
  | false =>
      obtain ⟨a, rest, rfl⟩ := List.exists_cons_of_ne_nil some_left
      obtain ⟨first, sorted⟩ := List.pairwise_cons.mp sorted
      exact ⟨a, rfl, .refl _, first, sorted⟩
  | true =>
      obtain rfl | ⟨rest, a, rfl⟩ := List.eq_nil_or_concat b
      · exact absurd rfl some_left
      · simp only [List.concat_eq_append] at sorted ⊢
        have parts := List.pairwise_append.mp sorted
        have popped : pop true (rest ++ [a]) = rest := List.dropLast_concat
        rw [popped]
        exact ⟨a, List.getLast?_concat, List.perm_append_singleton a rest,
          fun x member => parts.2.2 x member a List.mem_cons_self, parts.1⟩

theorem nextEvent_eq_none (empty : b = []) : nextEvent reverse b = none := by
  rw [empty]
  cases reverse <;> rfl

/-- Replacing one list of a list of lists. -/
theorem flatten_set {α : Type} {l : List (List α)} {i : ℕ} (inside : i < l.length) :
    ∃ rest : Multiset α, (l.flatten : Multiset α) = ((l[i]?).getD [] : List α) + rest ∧
      ∀ b' : List α, ((l.set i b').flatten : Multiset α) = (b' : Multiset α) + rest := by
  refine ⟨((l.take i).flatten ++ (l.drop (i + 1)).flatten : List α), ?_, fun b' => ?_⟩
  · have whole : l = l.take i ++ l[i] :: l.drop (i + 1) := by
      rw [List.getElem_cons_drop, List.take_append_drop]
    rw [List.getElem?_eq_getElem inside, Option.getD_some]
    conv_lhs => rw [whole]
    rw [List.flatten_append, List.flatten_cons, Multiset.coe_add]
    refine Multiset.coe_eq_coe.mpr ?_
    rw [← List.append_assoc, ← List.append_assoc]
    exact List.perm_append_comm.append_right _
  · rw [List.set_eq_take_append_cons_drop, if_pos inside, List.flatten_append, List.flatten_cons,
      Multiset.coe_add]
    refine Multiset.coe_eq_coe.mpr ?_
    rw [← List.append_assoc, ← List.append_assoc]
    exact List.perm_append_comm.append_right _

/-- The buckets of `c` hold the events `s`, each where `Hash` looks for it. -/
structure Spread (reverse : Bool) (c : CalendarScheduler ε) (s : Multiset (Scheduler.Event ε)) :
    Prop where
  nonempty : 0 < c.nBuckets
  width_pos : 0 < c.width
  width_lt : c.width < uint64
  sorted : ∀ i, BucketSorted reverse (c.bucket i)
  hashed : ∀ i, ∀ e ∈ c.bucket i, c.hash e.key.ts = i
  contents : (c.buckets.flatten : Multiset (Scheduler.Event ε)) = s
  distinct : (s.map Scheduler.Event.order).Nodup

theorem Spread.hash_lt (spread : Spread reverse c s) (ts : ℕ) : c.hash ts < c.buckets.length :=
  Nat.mod_lt _ spread.nonempty

theorem bucket_eq {i : ℕ} (inside : i < c.buckets.length) : c.bucket i = c.buckets[i] := by
  rw [bucket, List.getElem?_eq_getElem inside, Option.getD_some]

theorem Spread.mem_bucket (spread : Spread reverse c s) {e : Scheduler.Event ε} (member : e ∈ s) :
    e ∈ c.bucket (c.hash e.key.ts) := by
  rw [← spread.contents, Multiset.mem_coe] at member
  obtain ⟨l, inside, found⟩ := List.mem_flatten.mp member
  obtain ⟨i, inRange, rfl⟩ := List.getElem_of_mem inside
  rw [← bucket_eq inRange] at found
  rwa [spread.hashed i e found]

theorem Spread.mem_of_bucket (spread : Spread reverse c s) {e : Scheduler.Event ε} {i : ℕ}
    (member : e ∈ c.bucket i) : e ∈ s := by
  rw [← spread.contents, Multiset.mem_coe, List.mem_flatten]
  by_cases inRange : i < c.buckets.length
  · exact ⟨c.buckets[i], List.getElem_mem inRange, by rwa [← bucket_eq inRange]⟩
  · rw [bucket, List.getElem?_eq_none (by omega)] at member
    cases member

/-- The buckets of `c`, with `b` in the place of the bucket for `ts`. -/
theorem bucket_set (c : CalendarScheduler ε) (i j : ℕ) (b : List (Scheduler.Event ε))
    (inside : i < c.buckets.length) :
    ((c.buckets.set i b)[j]?).getD [] = if i = j then b else c.bucket j := by
  rw [bucket]
  split
  · rename_i same
    rw [← same, List.getElem?_set_self inside, Option.getD_some]
  · rename_i other
    rw [List.getElem?_set_ne other]

/-- Changing the bucket for a time stamp to one that holds other events of its hash. -/
theorem Spread.set (spread : Spread reverse c s) {ts : ℕ} {c' : CalendarScheduler ε}
    {rest kept : Multiset (Scheduler.Event ε)} (width : c'.width = c.width)
    (buckets : c'.buckets = c.buckets.set (c.hash ts) b) (sorted : BucketSorted reverse b)
    (hashed : ∀ e ∈ b, c.hash e.key.ts = c.hash ts)
    (before : (c.bucket (c.hash ts) : Multiset (Scheduler.Event ε)) + rest = s)
    (after : (b : Multiset (Scheduler.Event ε)) + rest = kept)
    (distinct : (kept.map Scheduler.Event.order).Nodup) : Spread reverse c' kept := by
  have inside := spread.hash_lt ts
  have size : c'.nBuckets = c.nBuckets := by rw [nBuckets, nBuckets, buckets, List.length_set]
  have hash : ∀ t, c'.hash t = c.hash t := fun t => by rw [CalendarScheduler.hash,
    CalendarScheduler.hash, size, width]
  have read : ∀ j, c'.bucket j = if c.hash ts = j then b else c.bucket j := by
    intro j
    rw [← bucket_set c _ j b inside, ← buckets]
    rfl
  refine ⟨by rw [size]; exact spread.nonempty, by rw [width]; exact spread.width_pos,
    by rw [width]; exact spread.width_lt, fun j => ?_, fun j e member => ?_, ?_, distinct⟩
  · rw [read]
    split
    · exact sorted
    · exact spread.sorted j
  · rw [read] at member
    rw [hash]
    split at member
    · rename_i same
      rw [← same]
      exact hashed e member
    · exact spread.hashed j e member
  · obtain ⟨others, whole, replaced⟩ := flatten_set inside
    have same : rest = others := by
      rw [spread.contents, ← before] at whole
      exact Multiset.add_right_inj.mp whole
    rw [buckets, replaced, ← same, after]

/-- The content of the bucket for `ts`, and the rest. -/
theorem Spread.split (spread : Spread reverse c s) (ts : ℕ) :
    ∃ rest : Multiset (Scheduler.Event ε),
      (c.bucket (c.hash ts) : Multiset (Scheduler.Event ε)) + rest = s := by
  obtain ⟨rest, whole, -⟩ := flatten_set (spread.hash_lt ts)
  exact ⟨rest, whole.symm.trans spread.contents⟩

theorem doInsert_spread (spread : Spread reverse c s) (fresh : ∀ e ∈ s, e.order ≠ ev.order) :
    Spread reverse (doInsert reverse ev c) (ev ::ₘ s) := by
  obtain ⟨rest, split⟩ := spread.split ev.key.ts
  have perm := insertBefore_perm (order reverse) ev (c.bucket (c.hash ev.key.ts))
  refine spread.set rfl rfl ?_ (fun e member => ?_) split ?_ ?_
  · exact (spread.sorted _).insertBefore fun x member => fresh x (spread.mem_of_bucket member)
  · rcases List.mem_cons.mp (perm.mem_iff.mp member) with rfl | old
    · rfl
    · exact spread.hashed _ e old
  · rw [Multiset.coe_eq_coe.mpr perm, ← Multiset.cons_coe, Multiset.cons_add, split]
  · rw [Multiset.map_cons, Multiset.nodup_cons]
    refine ⟨fun inside => ?_, spread.distinct⟩
    obtain ⟨e, member, same⟩ := Multiset.mem_map.mp inside
    exact fresh e member same

/-- Taking the least event out of its bucket. -/
theorem pop_spread {rest : Multiset (Scheduler.Event ε)} (spread : Spread reverse c (a ::ₘ rest))
    {c' : CalendarScheduler ε} (width : c'.width = c.width)
    (buckets : c'.buckets =
      c.buckets.set (c.hash a.key.ts) (pop reverse (c.bucket (c.hash a.key.ts))))
    (popped : (c.bucket (c.hash a.key.ts)).Perm (a :: pop reverse (c.bucket (c.hash a.key.ts))))
    (sorted : BucketSorted reverse (pop reverse (c.bucket (c.hash a.key.ts)))) :
    Spread reverse c' rest := by
  obtain ⟨others, split⟩ := spread.split a.key.ts
  refine spread.set width buckets sorted (fun e member => ?_) split ?_ ?_
  · exact spread.hashed _ e (popped.mem_iff.mpr (List.mem_cons_of_mem a member))
  · rw [Multiset.coe_eq_coe.mpr popped, ← Multiset.cons_coe, Multiset.cons_add] at split
    exact (Multiset.cons_inj_right a).mp split
  · have distinct := spread.distinct
    rw [Multiset.map_cons, Multiset.nodup_cons] at distinct
    exact distinct.2

/-! ## The search -/

/-- The buckets hold `s`, and the search starts where the last event was found. -/
structure Cursor (reverse : Bool) (c : CalendarScheduler ε) (s : Multiset (Scheduler.Event ε)) :
    Prop where
  spread : Spread reverse c s
  lastBucket : c.lastBucket = c.lastPrio / c.width % c.nBuckets
  bucketTop : c.bucketTop = (c.lastPrio / c.width + 1) * c.width % uint64
  later : ∀ e ∈ s, c.lastPrio ≤ e.key.ts
  inRange : ∀ e ∈ s, e.key.ts < 2 ^ 63

/-- Up to the turn of the next event the search stays in the range of `uint64_t`. -/
theorem top_lt {w ts : ℕ} (width : w < uint64) (inRange : ts < 2 ^ 63) :
    (ts / w + 1) * w < uint64 := by
  have below : ts / w * w ≤ ts := Nat.div_mul_le_self ts w
  rw [Nat.add_mul, Nat.one_mul]
  unfold uint64 at *
  rcases Nat.eq_zero_or_pos (ts / w) with zero | pos
  · rw [zero]
    omega
  · have : w ≤ ts / w * w := Nat.le_mul_of_pos_left w pos
    omega

/-- `a` is the event that comes before all others in `s`. -/
structure Least (s : Multiset (Scheduler.Event ε)) (a : Scheduler.Event ε) : Prop where
  mem : a ∈ s
  first : ∀ e ∈ s, e = a ∨ a.order < e.order

theorem Least.le (least : Least s a) {e : Scheduler.Event ε} (member : e ∈ s) :
    a.key.ts ≤ e.key.ts := by
  rcases least.first e member with rfl | before
  · exact le_rfl
  · rcases Scheduler.Event.order_lt.mp before with lt | ⟨same, -⟩
    · exact lt.le
    · exact same.le

/-- The first event of the bucket of the least event is that event. -/
theorem Least.nextEvent (least : Least s a) (spread : Spread reverse c s) :
    nextEvent reverse (c.bucket (c.hash a.key.ts)) = some a ∧
      (c.bucket (c.hash a.key.ts)).Perm (a :: pop reverse (c.bucket (c.hash a.key.ts))) ∧
      BucketSorted reverse (pop reverse (c.bucket (c.hash a.key.ts))) := by
  have here := spread.mem_bucket least.mem
  obtain ⟨f, next, popped, above, sorted⟩ :=
    (spread.sorted (c.hash a.key.ts)).next (List.ne_nil_of_mem here)
  have inside : f ∈ s := spread.mem_of_bucket (popped.mem_iff.mpr List.mem_cons_self)
  obtain rfl : f = a := by
    rcases List.mem_cons.mp (popped.mem_iff.mp here) with same | later
    · exact same.symm
    · rcases least.first f inside with same | before
      · exact same
      · exact absurd before (above a later).asymm
  exact ⟨next, popped, sorted⟩

/-- The bucket of `a` is one of the first `k` that the search visits. -/
def Visited (c : CalendarScheduler ε) (a : Scheduler.Event ε) (k : ℕ) : Prop :=
  ∃ j < k, (c.lastPrio / c.width + j) % c.nBuckets = c.hash a.key.ts

/-- What the search has seen of `k` buckets: the least event `a`, or only later ones. -/
structure Seen (c : CalendarScheduler ε) (a : Scheduler.Event ε) (k : ℕ)
    (minKey : Scheduler.EventKey) (minBucket : Option ℕ) : Prop where
  found : Visited c a k → minKey = a.key ∧ minBucket = some (c.hash a.key.ts)
  later : ¬ Visited c a k → a.key.less minKey = true

theorem visited_succ {k : ℕ} :
    Visited c a (k + 1) ↔
      Visited c a k ∨ (c.lastPrio / c.width + k) % c.nBuckets = c.hash a.key.ts := by
  refine ⟨fun ⟨j, lt, at_j⟩ => ?_, fun either => ?_⟩
  · rcases Nat.lt_succ_iff_lt_or_eq.mp lt with earlier | rfl
    · exact .inl ⟨j, earlier, at_j⟩
    · exact .inr at_j
  · rcases either with ⟨j, lt, at_j⟩ | here
    · exact ⟨j, by omega, at_j⟩
    · exact ⟨k, by omega, here⟩

theorem Seen.skip {k : ℕ} {minKey : Scheduler.EventKey} {minBucket : Option ℕ}
    (seen : Seen c a k minKey minBucket)
    (other : (c.lastPrio / c.width + k) % c.nBuckets ≠ c.hash a.key.ts) :
    Seen c a (k + 1) minKey minBucket where
  found visited := seen.found ((visited_succ.mp visited).resolve_right other)
  later unvisited := seen.later fun earlier => unvisited (visited_succ.mpr (.inl earlier))

theorem Seen.here {k : ℕ} (at_k : (c.lastPrio / c.width + k) % c.nBuckets = c.hash a.key.ts) :
    Seen c a (k + 1) a.key (some (c.hash a.key.ts)) where
  found _ := ⟨rfl, rfl⟩
  later unvisited := absurd (visited_succ.mpr (.inr at_k)) unvisited

/-- The loop finds the least event: below the top of its bucket, or as the least of all. -/
theorem search_spec {turns k i bucketTop : ℕ} {minKey : Scheduler.EventKey} {minBucket : Option ℕ}
    (cursor : Cursor reverse c s) (least : Least s a) (left : turns + k = c.nBuckets)
    (upTo : c.lastPrio / c.width + k ≤ a.key.ts / c.width)
    (at_i : i = (c.lastPrio / c.width + k) % c.nBuckets)
    (top : bucketTop = (c.lastPrio / c.width + k + 1) * c.width % uint64)
    (seen : Seen c a k minKey minBucket) :
    search reverse c turns i bucketTop minKey minBucket =
        .below (c.hash a.key.ts) ((a.key.ts / c.width + 1) * c.width % uint64) a ∨
      search reverse c turns i bucketTop minKey minBucket =
        .least a.key (some (c.hash a.key.ts)) := by
  have spread := cursor.spread
  induction turns generalizing k i bucketTop minKey minBucket with
  | zero =>
      right
      rw [search]
      -- all buckets have been visited, that of the least event too
      have all : Visited c a k := by
        obtain ⟨d, hd⟩ := Nat.exists_eq_add_of_le (Nat.le_of_add_right_le upTo)
        refine ⟨d % c.nBuckets, ?_, ?_⟩
        · have := Nat.mod_lt d spread.nonempty
          omega
        · rw [hash, hd, Nat.add_mod_mod]
      obtain ⟨key, bucket⟩ := seen.found all
      rw [key, bucket]
  | succ turns ih =>
      rw [search]
      have wraps : (i + 1) % c.nBuckets = (c.lastPrio / c.width + (k + 1)) % c.nBuckets := by
        rw [at_i, Nat.mod_add_mod, Nat.add_assoc]
      have rises : (bucketTop + c.width) % uint64 =
          (c.lastPrio / c.width + (k + 1) + 1) * c.width % uint64 := by
        rw [top, Nat.mod_add_mod, ← Nat.succ_mul]
        rfl
      rcases Nat.eq_or_lt_of_le upTo with now | later
      · -- the turn of the least event
        have bucket_i : i = c.hash a.key.ts := by rw [at_i, now, hash]
        have top_eq : bucketTop = (a.key.ts / c.width + 1) * c.width := by
          rw [top, now]
          exact Nat.mod_eq_of_lt (top_lt spread.width_lt (cursor.inRange a least.mem))
        have below : a.key.ts < bucketTop := by
          rw [top_eq]
          exact Nat.lt_mul_of_div_lt (Nat.lt_succ_self _) spread.width_pos
        left
        simp only [bucket_i, (least.nextEvent spread).1]
        rw [if_pos below, top, now]
      · -- no event lies below the top of this bucket
        have below_top : bucketTop ≤ a.key.ts := by
          rw [top]
          refine (Nat.mod_le _ _).trans ?_
          exact (Nat.mul_le_mul_right c.width later).trans (Nat.div_mul_le_self a.key.ts c.width)
        by_cases home : i = c.hash a.key.ts
        · have next := (least.nextEvent spread).1
          rw [← home] at next
          simp only [next]
          rw [if_neg (by omega)]
          have now_seen : Seen c a (k + 1) a.key (some i) := by
            rw [home]
            exact Seen.here (at_i.symm.trans home)
          split
          · exact ih (by omega) (by omega) wraps rises now_seen
          · rename_i not_less
            -- the bucket was seen before, with the same result
            have again : minKey = a.key ∧ minBucket = some (c.hash a.key.ts) := by
              by_cases visited : Visited c a k
              · exact seen.found visited
              · exact absurd (seen.later visited) not_less
            refine ih (by omega) (by omega) wraps rises ?_
            rw [again.1, again.2, ← home]
            exact now_seen
        · have skip : (c.lastPrio / c.width + k) % c.nBuckets ≠ c.hash a.key.ts := by
            rwa [← at_i]
          cases next : nextEvent reverse (c.bucket i) with
          | none => exact ih (by omega) (by omega) wraps rises (seen.skip skip)
          | some f =>
              have some_left : c.bucket i ≠ [] := by
                intro empty
                rw [nextEvent_eq_none empty] at next
                cases next
              obtain ⟨f', next', popped, -, -⟩ := (spread.sorted i).next some_left
              obtain rfl : f = f' := Option.some.inj (next.symm.trans next')
              have member : f ∈ c.bucket i := popped.mem_iff.mpr List.mem_cons_self
              have inside := spread.mem_of_bucket member
              have not_least : a.order < f.order := by
                rcases least.first f inside with rfl | before
                · exact absurd (spread.hashed i f member).symm home
                · exact before
              have high := least.le inside
              simp only
              rw [if_neg (by omega)]
              split
              · rename_i less
                have still : Seen c a k f.key (some i) := by
                  refine ⟨fun visited => ?_, fun _ => ?_⟩
                  · rw [(seen.found visited).1, Scheduler.Event.less_eq, decide_eq_true_iff] at less
                    exact absurd less not_least.asymm
                  · rw [Scheduler.Event.less_eq]
                    exact decide_eq_true not_least
                exact ih (by omega) (by omega) wraps rises (still.skip skip)
              · exact ih (by omega) (by omega) wraps rises (seen.skip skip)

/-- The whole search, as `DoRemoveNext` starts it. -/
theorem Cursor.search (cursor : Cursor reverse c s) (least : Least s a) :
    search reverse c c.nBuckets c.lastBucket c.bucketTop ⟨uint64 - 1, 0, 0xffffffff⟩ none =
        .below (c.hash a.key.ts) ((a.key.ts / c.width + 1) * c.width % uint64) a ∨
      search reverse c c.nBuckets c.lastBucket c.bucketTop ⟨uint64 - 1, 0, 0xffffffff⟩ none =
        .least a.key (some (c.hash a.key.ts)) := by
  refine search_spec (k := 0) cursor least (Nat.add_zero _) ?_ ?_ ?_ ⟨fun visited => ?_, fun _ => ?_⟩
  · exact Nat.div_le_div_right (cursor.later a least.mem)
  · exact cursor.lastBucket
  · exact cursor.bucketTop
  · obtain ⟨j, none_before, -⟩ := visited
    exact absurd none_before (Nat.not_lt_zero j)
  · have inRange := cursor.inRange a least.mem
    have below : a.key.ts < uint64 - 1 := by
      unfold uint64
      omega
    rw [Scheduler.EventKey.less, if_pos below]

/-- The calendar after the least event has been taken out. -/
def without (reverse : Bool) (c : CalendarScheduler ε) (a : Scheduler.Event ε) :
    CalendarScheduler ε :=
  { c with
    lastPrio := a.key.ts
    lastBucket := c.hash a.key.ts
    bucketTop := (a.key.ts / c.width + 1) * c.width % uint64
    buckets := c.buckets.set (c.hash a.key.ts) (pop reverse (c.bucket (c.hash a.key.ts))) }

/-- `DoRemoveNext` takes out the least event. -/
theorem doRemoveNext_spec {rest : Multiset (Scheduler.Event ε)}
    (cursor : Cursor reverse c (a ::ₘ rest)) (least : Least (a ::ₘ rest) a) :
    doRemoveNext reverse c = some (a, without reverse c a) ∧
      Cursor reverse (without reverse c a) rest := by
  obtain ⟨next, popped, sorted⟩ := least.nextEvent cursor.spread
  have spread : Spread reverse (without reverse c a) rest :=
    pop_spread cursor.spread rfl rfl popped sorted
  have size : (without reverse c a).nBuckets = c.nBuckets := List.length_set
  refine ⟨?_, spread, ?_, rfl, fun e member => ?_, fun e member => ?_⟩
  · rw [doRemoveNext]
    rcases cursor.search least with found | found
    · rw [found]
      rfl
    · rw [found]
      simp only [next]
      rfl
  · rw [size]
    rfl
  · exact least.le (Multiset.mem_cons_of_mem member)
  · exact cursor.inRange e (Multiset.mem_cons_of_mem member)

/-- `PeekNext` searches as `DoRemoveNext` does. -/
theorem peek_eq {turns i bucketTop : ℕ} {key minKey : Scheduler.EventKey}
    {minBucket : Option ℕ} {event : Option (Scheduler.Event ε)}
    (same : ∀ j, ∀ next ∈ c.bucket j, next.key.less key = next.key.less minKey)
    (held : event = minBucket.bind fun j => nextEvent reverse (c.bucket j)) :
    peek reverse c turns i bucketTop (key, event) =
      match search reverse c turns i bucketTop minKey minBucket with
      | .below _ _ next => some next
      | .least _ j => j.bind fun j => nextEvent reverse (c.bucket j) := by
  induction turns generalizing i bucketTop key minKey minBucket event with
  | zero => exact held
  | succ turns ih =>
      rw [peek, search]
      cases next : nextEvent reverse (c.bucket i) with
      | none => exact ih same held
      | some f =>
          have member : f ∈ c.bucket i := by
            cases reverse with
            | false => exact List.mem_of_mem_head? next
            | true => exact List.mem_of_getLast? next
          simp only
          split
          · rfl
          · rw [same i f member]
            split
            · exact ih (fun _ _ _ => rfl) next.symm
            · exact ih same held

theorem peekNext_spec (cursor : Cursor reverse c s) (least : Least s a) :
    peekNext reverse c = some a := by
  have start : ∀ j, ∀ next ∈ c.bucket j,
      next.key.less ⟨uint64 - 1, 2 ^ 32 - 1, 0⟩ = next.key.less ⟨uint64 - 1, 0, 0xffffffff⟩ := by
    intro j next member
    have inRange := cursor.inRange next (cursor.spread.mem_of_bucket member)
    have below : next.key.ts < uint64 - 1 := by
      unfold uint64
      omega
    rw [Scheduler.EventKey.less, Scheduler.EventKey.less, if_pos below, if_pos below]
  have nothing : (none : Option (Scheduler.Event ε)) =
      (none : Option ℕ).bind fun j => nextEvent reverse (c.bucket j) := rfl
  rw [peekNext, peek_eq start nothing]
  rcases cursor.search least with found | found
  · rw [found]
  · rw [found]
    exact (least.nextEvent cursor.spread).1

/-- A queue that is not empty has a least event. -/
theorem exists_least (distinct : (s.map Scheduler.Event.order).Nodup) (some_left : s ≠ 0) :
    ∃ a rest, s = a ::ₘ rest ∧ Least (a ::ₘ rest) a := by
  induction s using Multiset.induction with
  | empty => exact absurd rfl some_left
  | cons e s ih =>
      rw [Multiset.map_cons, Multiset.nodup_cons] at distinct
      by_cases empty : s = 0
      · refine ⟨e, 0, by rw [empty], Multiset.mem_cons_self e 0, fun x member => .inl ?_⟩
        simpa using member
      · obtain ⟨a, rest, rfl, least⟩ := ih distinct.2 empty
        have apart : e.order ≠ a.order := fun same =>
          distinct.1 (same ▸ Multiset.mem_map_of_mem _ least.mem)
        rcases lt_or_gt_of_ne apart with before | after
        · refine ⟨e, a ::ₘ rest, rfl, Multiset.mem_cons_self _ _, fun x member => ?_⟩
          rcases Multiset.mem_cons.mp member with rfl | inside
          · exact .inl rfl
          · rcases least.first x inside with rfl | above
            · exact .inr before
            · exact .inr (before.trans above)
        · refine ⟨a, e ::ₘ rest, Multiset.cons_swap e a rest, Multiset.mem_cons_self _ _,
            fun x member => ?_⟩
          rcases Multiset.mem_cons.mp member with rfl | inside
          · exact .inl rfl
          · rcases Multiset.mem_cons.mp inside with rfl | inside
            · exact .inr after
            · exact least.first x (Multiset.mem_cons_of_mem inside)

theorem Spread.of_eq {c' : CalendarScheduler ε} (spread : Spread reverse c s)
    (buckets : c'.buckets = c.buckets) (width : c'.width = c.width) : Spread reverse c' s := by
  have size : c'.nBuckets = c.nBuckets := by rw [nBuckets, nBuckets, buckets]
  have read : ∀ i, c'.bucket i = c.bucket i := fun i => by rw [bucket, bucket, buckets]
  refine ⟨by rw [size]; exact spread.nonempty, by rw [width]; exact spread.width_pos,
    by rw [width]; exact spread.width_lt, fun i => ?_, fun i e member => ?_, ?_, spread.distinct⟩
  · rw [read]
    exact spread.sorted i
  · rw [hash, width, size]
    rw [read] at member
    exact spread.hashed i e member
  · rw [buckets]
    exact spread.contents

/-! ## Resizing -/

/-- Inserting a list of events. -/
theorem foldl_doInsert_spread {samples : List (Scheduler.Event ε)} (spread : Spread reverse c s)
    (distinct : (((samples : Multiset (Scheduler.Event ε)) + s).map Scheduler.Event.order).Nodup) :
    Spread reverse (samples.foldl (fun c ev => doInsert reverse ev c) c)
      ((samples : Multiset (Scheduler.Event ε)) + s) := by
  induction samples generalizing c s with
  | nil => simpa using spread
  | cons ev rest ih =>
      have split : ((ev :: rest : List (Scheduler.Event ε)) : Multiset (Scheduler.Event ε)) + s =
          (rest : Multiset (Scheduler.Event ε)) + ev ::ₘ s := by
        rw [← Multiset.cons_coe, Multiset.cons_add, Multiset.add_cons]
      have apart := distinct
      rw [← Multiset.cons_coe, Multiset.cons_add, Multiset.map_cons, Multiset.nodup_cons] at apart
      have fresh : ∀ e ∈ s, e.order ≠ ev.order := fun e member same =>
        apart.1 (same ▸ Multiset.mem_map_of_mem _ (Multiset.mem_add.mpr (.inr member)))
      rw [List.foldl_cons, split]
      refine ih (doInsert_spread spread fresh) ?_
      rwa [← split]

theorem foldl_doInsert_frame (samples : List (Scheduler.Event ε)) (c : CalendarScheduler ε) :
    (samples.foldl (fun c ev => doInsert reverse ev c) c).nBuckets = c.nBuckets ∧
      (samples.foldl (fun c ev => doInsert reverse ev c) c).width = c.width ∧
      (samples.foldl (fun c ev => doInsert reverse ev c) c).lastBucket = c.lastBucket ∧
      (samples.foldl (fun c ev => doInsert reverse ev c) c).bucketTop = c.bucketTop ∧
      (samples.foldl (fun c ev => doInsert reverse ev c) c).lastPrio = c.lastPrio ∧
      (samples.foldl (fun c ev => doInsert reverse ev c) c).qSize = c.qSize := by
  induction samples generalizing c with
  | nil => exact ⟨rfl, rfl, rfl, rfl, rfl, rfl⟩
  | cons ev rest ih =>
      obtain ⟨size, others⟩ := ih (doInsert reverse ev c)
      exact ⟨size.trans List.length_set, others⟩

/-- Taking samples splits the events held. -/
theorem takeSamples_spec {n : ℕ} (cursor : Cursor reverse c s) (enough : n ≤ s.card) :
    ∃ rest, s = ((takeSamples reverse n c).1 : Multiset (Scheduler.Event ε)) + rest ∧
      Spread reverse (takeSamples reverse n c).2 rest ∧
      (takeSamples reverse n c).2.nBuckets = c.nBuckets ∧
      (takeSamples reverse n c).2.width = c.width ∧
      (takeSamples reverse n c).2.qSize = c.qSize := by
  induction n generalizing c s with
  | zero => exact ⟨s, by simp [takeSamples], cursor.spread, rfl, rfl, rfl⟩
  | succ n ih =>
      have some_left : s ≠ 0 := by
        rintro rfl
        simp at enough
      obtain ⟨a, rest, rfl, least⟩ := exists_least cursor.spread.distinct some_left
      obtain ⟨removed, left⟩ := doRemoveNext_spec cursor least
      rw [Multiset.card_cons] at enough
      obtain ⟨rest', split, spread, size, width, qSize⟩ := ih left (Nat.le_of_succ_le_succ enough)
      rw [takeSamples, removed]
      refine ⟨rest', ?_, spread, size.trans List.length_set, width, qSize⟩
      change a ::ₘ rest =
        ((a :: (takeSamples reverse n (without reverse c a)).1 : List (Scheduler.Event ε)) :
          Multiset (Scheduler.Event ε)) + rest'
      rw [← Multiset.cons_coe, Multiset.cons_add, ← split]

theorem widthOf_range (n : ℕ) (samples : List (Scheduler.Event ε)) :
    0 < widthOf n samples ∧ widthOf n samples < uint64 := by
  unfold widthOf
  dsimp only
  generalize List.foldl _ 0 (separations samples) = kept
  have reduced : kept * 3 % uint64 < uint64 := Nat.mod_lt _ (by decide)
  exact ⟨Nat.one_pos.trans_le (le_max_right _ _), max_lt reduced (by decide)⟩

/-- `CalculateNewWidth` finds a width in range and puts back the samples that it took. -/
theorem calculateNewWidth_spec (cursor : Cursor reverse c s) (size : c.qSize = s.card) :
    0 < (calculateNewWidth reverse c).1 ∧ (calculateNewWidth reverse c).1 < uint64 ∧
      Spread reverse (calculateNewWidth reverse c).2 s ∧
      (calculateNewWidth reverse c).2.lastPrio = c.lastPrio ∧
      (calculateNewWidth reverse c).2.qSize = c.qSize := by
  rw [calculateNewWidth]
  split
  · have one_lt : 1 < uint64 := by decide
    exact ⟨Nat.one_pos, one_lt, cursor.spread, rfl, rfl⟩
  · dsimp only
    generalize hn : min (if c.qSize ≤ 5 then c.qSize else 5 + c.qSize / 10) 25 = n
    have enough : n ≤ s.card := by
      rw [← size, ← hn]
      split <;> omega
    obtain ⟨rest, split, spread, -, -, qSize⟩ := takeSamples_spec cursor enough
    have distinct := cursor.spread.distinct
    rw [split] at distinct
    have back := foldl_doInsert_spread spread distinct
    rw [← split] at back
    obtain ⟨-, -, -, -, -, kept⟩ :=
      @foldl_doInsert_frame ε reverse (takeSamples reverse n c).1 (takeSamples reverse n c).2
    obtain ⟨width_pos, width_lt⟩ := widthOf_range n (takeSamples reverse n c).1
    exact ⟨width_pos, width_lt, back.of_eq rfl rfl, rfl, kept.trans qSize⟩

theorem init_spread {qSize n width startPrio : ℕ} (nonempty : 0 < n) (width_pos : 0 < width)
    (width_lt : width < uint64) :
    Spread reverse (init qSize n width startPrio : CalendarScheduler ε) 0 := by
  have read : ∀ i, (init qSize n width startPrio : CalendarScheduler ε).bucket i = [] := by
    intro i
    rw [bucket, init]
    simp only [List.getElem?_replicate]
    split <;> rfl
  refine ⟨?_, width_pos, width_lt, fun i => ?_, fun i e member => ?_, ?_, ?_⟩
  · rw [nBuckets, init, List.length_replicate]
    exact nonempty
  · rw [read]
    exact .nil
  · rw [read] at member
    cases member
  · simp [init]
  · simp

/-- `DoResize` spreads the events anew and starts the search where the last event was found. -/
theorem doResize_cursor {newSize newWidth : ℕ} (spread : Spread reverse c s) (nonempty : 0 < newSize)
    (width_pos : 0 < newWidth) (width_lt : newWidth < uint64)
    (later : ∀ e ∈ s, c.lastPrio ≤ e.key.ts) (inRange : ∀ e ∈ s, e.key.ts < 2 ^ 63) :
    Cursor reverse (doResize reverse newSize newWidth c) s ∧
      (doResize reverse newSize newWidth c).lastPrio = c.lastPrio ∧
      (doResize reverse newSize newWidth c).qSize = c.qSize := by
  have empty : Spread reverse (init c.qSize newSize newWidth c.lastPrio : CalendarScheduler ε) 0 :=
    init_spread nonempty width_pos width_lt
  have whole : (c.buckets.flatten : Multiset (Scheduler.Event ε)) + 0 = s :=
    (Multiset.add_zero _).trans spread.contents
  have distinct := spread.distinct
  rw [← whole] at distinct
  have filled := foldl_doInsert_spread empty distinct
  rw [whole] at filled
  obtain ⟨size, width, lastBucket, bucketTop, prio, qSize⟩ :=
    @foldl_doInsert_frame ε reverse c.buckets.flatten (init c.qSize newSize newWidth c.lastPrio)
  rw [doResize]
  refine ⟨⟨filled, ?_, ?_, fun e member => ?_, inRange⟩, prio, qSize⟩
  · rw [lastBucket, prio, size, width]
    simp [init, nBuckets]
  · rw [bucketTop, prio, width]
    rfl
  · rw [prio]
    exact later e member

/-- `Resize` keeps the events and the place of the search. -/
theorem resize_cursor {newSize : ℕ} (cursor : Cursor reverse c s) (size : c.qSize = s.card)
    (nonempty : 0 < newSize) :
    Cursor reverse (resize reverse newSize c) s ∧
      (resize reverse newSize c).lastPrio = c.lastPrio ∧
      (resize reverse newSize c).qSize = c.qSize := by
  obtain ⟨width_pos, width_lt, spread, lastPrio, qSize⟩ := calculateNewWidth_spec cursor size
  have later : ∀ e ∈ s, (calculateNewWidth reverse c).2.lastPrio ≤ e.key.ts := by
    rw [lastPrio]
    exact cursor.later
  obtain ⟨resized, prio, count⟩ :=
    doResize_cursor spread nonempty width_pos width_lt later cursor.inRange
  exact ⟨resized, prio.trans lastPrio, count.trans qSize⟩

/-! ## The event list -/

/-- What `CalendarScheduler` keeps: the events, their number and the place of the search. -/
structure Holds (reverse : Bool) (floor : ℕ ×ₗ ℕ) (c : CalendarScheduler ε)
    (s : Multiset (Scheduler.Event ε)) : Prop where
  cursor : Cursor reverse c s
  size : c.qSize = s.card
  reached : c.lastPrio ≤ (ofLex floor).1

theorem resizeUp_holds {floor : ℕ ×ₗ ℕ} (held : Holds reverse floor c s) :
    Holds reverse floor (resizeUp reverse c) s := by
  rw [resizeUp]
  split
  · obtain ⟨cursor, prio, count⟩ := resize_cursor held.cursor held.size
      (Nat.mul_pos held.cursor.spread.nonempty Nat.two_pos)
    exact ⟨cursor, count.trans held.size, prio.le.trans held.reached⟩
  · exact held

theorem resizeDown_holds {floor : ℕ ×ₗ ℕ} (held : Holds reverse floor c s) :
    Holds reverse floor (resizeDown reverse c) s := by
  rw [resizeDown]
  split
  · rename_i few
    obtain ⟨cursor, prio, count⟩ := resize_cursor held.cursor held.size (Nat.zero_lt_of_lt few)
    exact ⟨cursor, count.trans held.size, prio.le.trans held.reached⟩
  · exact held

theorem Cursor.of_eq {c' : CalendarScheduler ε} (cursor : Cursor reverse c s)
    (same : c' = { c with qSize := c'.qSize }) : Cursor reverse c' s := by
  have spread : Spread reverse c' s := cursor.spread.of_eq (by rw [same]) (by rw [same])
  refine ⟨spread, ?_, ?_, fun e member => ?_, cursor.inRange⟩
  · rw [same]
    exact cursor.lastBucket
  · rw [same]
    exact cursor.bucketTop
  · rw [same]
    exact cursor.later e member

theorem insert_holds {floor : ℕ ×ₗ ℕ} (held : Holds reverse floor c s) (inRange : ev.key.ts < 2 ^ 63)
    (above : floor ≤ ev.order) (fresh : ∀ e ∈ s, e.order ≠ ev.order) :
    Holds reverse floor (insert reverse ev c) (ev ::ₘ s) := by
  have cursor := held.cursor
  have spread := doInsert_spread cursor.spread fresh
  have size : (doInsert reverse ev c).nBuckets = c.nBuckets := List.length_set
  have after : c.lastPrio ≤ ev.key.ts := by
    have first : (ofLex floor).1 ≤ ev.key.ts := by
      rcases Prod.Lex.le_iff.mp above with lt | ⟨same, -⟩
      · exact lt.le
      · exact same.le
    exact held.reached.trans first
  refine resizeUp_holds ⟨⟨spread.of_eq rfl rfl, ?_, cursor.bucketTop, fun e member => ?_,
    fun e member => ?_⟩, ?_, held.reached⟩
  · exact cursor.lastBucket.trans (congrArg _ size.symm)
  · rcases Multiset.mem_cons.mp member with rfl | old
    · exact after
    · exact cursor.later e old
  · rcases Multiset.mem_cons.mp member with rfl | old
    · exact inRange
    · exact cursor.inRange e old
  · rw [Multiset.card_cons, ← held.size]
    rfl

theorem removeNext_holds {floor : ℕ ×ₗ ℕ} (held : Holds reverse floor c s) (some_left : s ≠ 0) :
    ∃ a c' rest, removeNext reverse c = some (a, c') ∧ peekNext reverse c = some a ∧
      s = a ::ₘ rest ∧ (∀ e ∈ rest, a.order ≤ e.order) ∧ Holds reverse a.order c' rest := by
  obtain ⟨a, rest, rfl, least⟩ := exists_least held.cursor.spread.distinct some_left
  obtain ⟨removed, cursor⟩ := doRemoveNext_spec held.cursor least
  have fewer : Holds reverse a.order
      { without reverse c a with qSize := (without reverse c a).qSize - 1 } rest := by
    refine ⟨cursor.of_eq rfl, ?_, le_rfl⟩
    have size := held.size
    rw [Multiset.card_cons] at size
    exact Nat.sub_eq_of_eq_add size
  refine ⟨a, _, rest, ?_, peekNext_spec held.cursor least, rfl, fun e member => ?_,
    resizeDown_holds fewer⟩
  · rw [removeNext, removed]
    rfl
  · rcases least.first e (Multiset.mem_cons_of_mem member) with rfl | before
    · exact le_rfl
    · exact before.le

/-- `Remove` takes the event out of its bucket. -/
theorem remove_holds {floor : ℕ ×ₗ ℕ} (held : Holds reverse floor c (a ::ₘ s))
    (distinct : ∀ e ∈ s, e.uid ≠ a.uid) : Holds reverse floor (remove reverse a c) s := by
  have cursor := held.cursor
  have spread := cursor.spread
  have here : a ∈ c.bucket (c.hash a.key.ts) := spread.mem_bucket (Multiset.mem_cons_self a s)
  obtain ⟨pre, post, at_a⟩ := List.append_of_mem here
  obtain ⟨others, split⟩ := spread.split a.key.ts
  have front : (c.bucket (c.hash a.key.ts) : Multiset (Scheduler.Event ε)) =
      a ::ₘ ((pre ++ post : List (Scheduler.Event ε)) : Multiset (Scheduler.Event ε)) := by
    rw [at_a, Multiset.cons_coe]
    exact Multiset.coe_eq_coe.mpr List.perm_middle
  have rest : ((pre ++ post : List (Scheduler.Event ε)) : Multiset (Scheduler.Event ε)) + others = s := by
    rw [front, Multiset.cons_add] at split
    exact (Multiset.cons_inj_right a).mp split
  have erased := eraseP_uid front fun e member =>
    distinct e (rest ▸ Multiset.mem_add.mpr (.inl member))
  have found : ((c.bucket (c.hash a.key.ts)).any fun e => e.key.uid == a.key.uid) = true :=
    List.any_eq_true.mpr ⟨a, here, beq_self_eq_true _⟩
  have apart := spread.distinct
  rw [Multiset.map_cons, Multiset.nodup_cons] at apart
  rw [remove]
  simp only [found, if_true]
  refine resizeDown_holds ⟨⟨?_, ?_, cursor.bucketTop, fun e member => ?_, fun e member => ?_⟩, ?_,
    held.reached⟩
  · refine spread.set rfl rfl ((spread.sorted _).sublist List.eraseP_sublist) (fun e member => ?_)
      split (by rw [erased]; exact rest) apart.2
    exact spread.hashed _ e (List.eraseP_sublist.mem member)
  · exact cursor.lastBucket.trans (congrArg _ List.length_set.symm)
  · exact cursor.later e (Multiset.mem_cons_of_mem member)
  · exact cursor.inRange e (Multiset.mem_cons_of_mem member)
  · have size := held.size
    rw [Multiset.card_cons] at size
    exact Nat.sub_eq_of_eq_add size

end CalendarScheduler

/-- `CalendarScheduler`, as constructed. -/
def calendarScheduler (reverse : Bool) (ε : Type) : FutureEvents (Scheduler.Event ε) where
  Queue := CalendarScheduler ε
  empty := .init 0 2 1 0
  insert := CalendarScheduler.insert reverse
  isEmpty c := c.qSize == 0
  peekNext := CalendarScheduler.peekNext reverse
  removeNext := CalendarScheduler.removeNext reverse
  remove := CalendarScheduler.remove reverse

/-- `CalendarScheduler` finds the least event, in whatever sizes the calendar has had. -/
def calendarSchedulerLawful (reverse : Bool) (ε : Type) :
    (calendarScheduler reverse ε).Lawful Scheduler.Event.order fun ev => ev.key.ts < 2 ^ 63 where
  holds floor c s := CalendarScheduler.Holds reverse floor c s
  holds_empty := by
    refine ⟨⟨CalendarScheduler.init_spread Nat.two_pos Nat.one_pos (by decide), rfl, rfl, ?_, ?_⟩,
      rfl, Nat.zero_le _⟩
    · exact fun e member => absurd member (Multiset.notMem_zero e)
    · exact fun e member => absurd member (Multiset.notMem_zero e)
  holds_insert held ok above fresh := CalendarScheduler.insert_holds held ok above fresh
  isEmpty_iff := by
    intro floor c s held
    have count := held.size
    have read : (calendarScheduler reverse ε).isEmpty c = true ↔ c.qSize = 0 := beq_iff_eq
    rw [read, count, Multiset.card_eq_zero]
  next := by
    intro floor c s held some_left
    obtain ⟨a, c', rest, removed, peeked, contents, least, left⟩ :=
      CalendarScheduler.removeNext_holds held some_left
    exact ⟨a, c', rest, ⟨removed, peeked, contents, least, left⟩⟩

theorem calendarScheduler_removes {reverse : Bool} :
    FutureEvents.Removes (calendarSchedulerLawful reverse ε) Scheduler.Event.uid := by
  intro floor q s a held distinct
  exact CalendarScheduler.remove_holds held distinct

/-- The calendar, stored in either order, answers every sequence of calls as the list does, when no event is
inserted before the one that was taken out last. -/
theorem calendarScheduler_answers {reverse : Bool} {ops : List (Operation (Scheduler.Event ε))}
    (admissible : Admissible (· ≤ ·) Scheduler.Event.order Scheduler.Event.uid
      (fun ev => ev.key.ts < 2 ^ 63) ⊥ 0 ops) :
    (calendarScheduler reverse ε).answers ops (calendarScheduler reverse ε).empty =
      (listScheduler ε).answers ops (listScheduler ε).empty :=
  (calendarSchedulerLawful reverse ε).answers_empty
    ((listSchedulerLawful ε).restrict fun _ _ => trivial) (calendarSchedulerLawful reverse ε).accepts_le
    ((listSchedulerLawful ε).restrict fun _ _ => trivial).accepts_le
    (fun _ _ => ⟨calendarScheduler_removes,
      fun {floor q s a} held distinct => @listScheduler_removes ε floor q s a held distinct⟩) admissible

/-- Seven events far apart, for which the calendar grows and shrinks again. -/
theorem calendarScheduler_answers_seven :
    let ops := ([(7000, 4), (3, 5), (500000, 6), (3, 7), (90, 8), (1, 9), (4, 10)].map
      fun (ts, uid) => Operation.insert (sampleEvent ts uid)) ++ List.replicate 7 Operation.removeNext
    (calendarScheduler true ℕ).answers ops (calendarScheduler true ℕ).empty =
        (listScheduler ℕ).answers ops (listScheduler ℕ).empty ∧
      ((calendarScheduler true ℕ).answers ops (calendarScheduler true ℕ).empty).filterMap
          (fun answer => answer.2.map Scheduler.Event.uid) = [9, 5, 7, 10, 8, 4, 6] := by
  refine ⟨calendarScheduler_answers ?_, by decide +kernel⟩
  refine ⟨⟨by decide, bot_le, by simp⟩, ⟨by decide, bot_le, by decide⟩, ⟨by decide, bot_le, by decide⟩,
    ⟨by decide, bot_le, by decide⟩, ⟨by decide, bot_le, by decide⟩, ⟨by decide, bot_le, by decide⟩,
    ⟨by decide, bot_le, by decide⟩, ?_⟩
  exact admissible_removeNext (n := 7) (by decide)

end NtnCho
