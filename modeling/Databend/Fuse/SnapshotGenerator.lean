import Mathlib
import Databend.Library.IndexList

namespace Databend.Fuse

-- the counters of `Statistics`; the column and cluster statistics are not modelled
structure Statistics where
  row_count : UInt64
  block_count : UInt64
  perfect_block_count : UInt64
  uncompressed_byte_size : UInt64
  compressed_byte_size : UInt64
  index_size : UInt64
  deriving DecidableEq, Repr, Inhabited

-- `merge_statistics`: the counters add up in wrapping u64 arithmetic (overflow checks are off)
def merge_statistics (l r : Statistics) : Statistics :=
  ⟨l.row_count + r.row_count, l.block_count + r.block_count,
    l.perfect_block_count + r.perfect_block_count, l.uncompressed_byte_size + r.uncompressed_byte_size,
    l.compressed_byte_size + r.compressed_byte_size, l.index_size + r.index_size⟩

def deduct_statistics (l r : Statistics) : Statistics :=
  ⟨l.row_count - r.row_count, l.block_count - r.block_count,
    l.perfect_block_count - r.perfect_block_count, l.uncompressed_byte_size - r.uncompressed_byte_size,
    l.compressed_byte_size - r.compressed_byte_size, l.index_size - r.index_size⟩

-- a snapshot's summary and segment locations; ids, timestamps and the schema are not modelled
structure TableSnapshot (α : Type) where
  summary : Statistics
  segments : List α
  deriving DecidableEq, Repr

def TableSnapshot.new_empty_snapshot {α : Type} : TableSnapshot α := ⟨default, []⟩

structure IndexMap (V : Type) where
  entries : List (Nat × V)
  keys_nodup : (entries.map Prod.fst).Nodup

namespace IndexMap

variable {V : Type}

def empty : IndexMap V := ⟨[], List.nodup_nil⟩

def get? (m : IndexMap V) (k : Nat) : Option V := (m.entries.find? (fun e => e.1 == k)).map Prod.snd

-- `HashMap::insert`: the new value takes the place of the key's old entry
def insert (m : IndexMap V) (k : Nat) (v : V) : IndexMap V :=
  ⟨(k, v) :: m.entries.filter (fun e => e.1 != k), by
    refine List.nodup_cons.mpr ⟨?_, m.keys_nodup.sublist (List.Sublist.map Prod.fst List.filter_sublist)⟩
    simp⟩

theorem get?_eq_some_iff {m : IndexMap V} {k : Nat} {v : V} : m.get? k = some v ↔ (k, v) ∈ m.entries := by
  unfold get?
  constructor
  · intro h
    obtain ⟨e, he, rfl⟩ := Option.map_eq_some_iff.mp h
    have hk : e.1 = k := by simpa using List.find?_some he
    rw [← hk]
    exact List.mem_of_find?_eq_some he
  · intro h
    -- a first entry of key `k` is found, and it is the only one
    obtain ⟨e, he⟩ := Option.isSome_iff_exists.mp
      ((List.find?_isSome (p := fun e : Nat × V => e.1 == k)).mpr ⟨(k, v), h, beq_self_eq_true k⟩)
    have hk : e.1 = k := by simpa using List.find?_some he
    have heq : e = (k, v) := List.inj_on_of_nodup_map m.keys_nodup (List.mem_of_find?_eq_some he) h hk
    rw [he, heq]
    rfl

theorem get?_insert (m : IndexMap V) (k k' : Nat) (v : V) :
    (m.insert k v).get? k' = if k' = k then some v else m.get? k' := by
  by_cases h : k' = k
  · subst h
    simp [get?, insert]
  · simp only [get?, insert, List.find?_cons, beq_false_of_ne (Ne.symm h), List.find?_filter, if_neg h]
    congr 2
    funext e
    by_cases he : e.1 = k'
    · simp [he, h]
    · simp [he]

@[simp] theorem get?_empty (k : Nat) : (empty : IndexMap V).get? k = none := rfl

theorem get?_foldl_insert {es : List (Nat × V)} (f : Nat → Nat) (hf : (es.map (fun e => f e.1)).Nodup)
    (acc : IndexMap V) (p : Nat) :
    (es.foldl (fun m e => m.insert (f e.1) e.2) acc).get? p =
      ((es.find? (fun e => f e.1 == p)).map Prod.snd).or (acc.get? p) := by
  induction es generalizing acc with
  | nil => rfl
  | cons e es ih =>
      obtain ⟨he, hf'⟩ := List.nodup_cons.mp hf
      rw [List.foldl_cons, ih hf', get?_insert, List.find?_cons]
      by_cases hp : f e.1 = p
      · -- no later insertion is at `p`, the keys being distinct
        have hnone : es.find? (fun e => f e.1 == p) = none := by
          rw [List.find?_eq_none]
          intro e' he' heq
          exact he (List.mem_map.mpr ⟨e', he', (beq_iff_eq.mp heq).trans hp.symm⟩)
        simp [hp, hnone]
      · rw [beq_false_of_ne hp]
        simp [Ne.symm hp]

end IndexMap

structure SnapshotChanges (α : Type) where
  appended_segments : List α
  replaced_segments : IndexMap α
  removed_segment_indexes : List Nat
  merged_statistics : Statistics
  removed_statistics : Statistics

inductive ConflictResolveContext (α : Type) where
  -- the merged segments and schema it carries are not read by the mutation generator
  | AppendOnly
  | ModifiedSegmentExistsInLatest (changes : SnapshotChanges α)

inductive CommitError where
  | Internal (msg : String)
  | UnresolvableConflict
  -- a Rust panic: an index or a slice range out of bounds, or a capacity overflow
  | Panic
  deriving DecidableEq, Repr

section Resolve

variable {α : Type}

-- `latest.segments.iter().enumerate().map(|(i, x)| (x, i)).collect::<HashMap<_, usize>>()`:
-- a later position of a repeated location overwrites an earlier one
def latest_positions [DecidableEq α] (latest : List α) : α → Option Nat :=
  latest.zipIdx.foldl (fun m e => fun x => if x = e.1 then some e.2 else m x) (fun _ => none)

-- the loop over `removed_segments`, pushing the latest position of each removed base segment and
-- returning `None` at the first one the latest snapshot does not hold
def removed_positions (base : List α) (positions : α → Option Nat) (removed : List Nat) :
    List Nat → Except CommitError (Option (List Nat))
  | [] => .ok (some removed)
  | j :: js =>
      match base[j]? with
      | none => .error .Panic
      | some seg =>
          match positions seg with
          | some p => removed_positions base positions (removed ++ [p]) js
          | none => .ok none

-- the loop over `replaced_segments`, keyed by latest positions instead of base positions
def replaced_positions (base : List α) (positions : α → Option Nat) (replaced : IndexMap α) :
    List (Nat × α) → Except CommitError (Option (IndexMap α))
  | [] => .ok (some replaced)
  | (i, location) :: es =>
      match base[i]? with
      | none => .error .Panic
      | some seg =>
          match positions seg with
          | some p => replaced_positions base positions (replaced.insert p location) es
          | none => .ok none

def is_modified_segments_exists_in_latest [DecidableEq α] (base latest : List α) (replaced_segments : IndexMap α)
    (removed_segments : List Nat) : Except CommitError (Option (List Nat × IndexMap α)) := do
  let latest_segments := latest_positions latest
  match ← removed_positions base latest_segments [] removed_segments with
  | none => return none
  | some removed =>
      match ← replaced_positions base latest_segments IndexMap.empty replaced_segments.entries with
      | none => return none
      | some replaced => return some (removed, replaced)

-- one turn of the `for blank in blanks` loop: copy `base_segments[last..blank]`, which panics
-- unless `last ≤ blank ≤ len`, and continue after the blank
def extend_blank (base : List α) (acc : List α × Nat) (blank : Nat) : Except CommitError (List α × Nat) :=
  if acc.2 ≤ blank ∧ blank ≤ base.length then .ok (acc.1 ++ (base.take blank).drop acc.2, blank + 1)
  else .error .Panic

-- after the loop: `base_segments[last..]`, which panics unless `last ≤ len`
def extend_rest (base : List α) (acc : List α × Nat) : Except CommitError (List α) :=
  if acc.2 ≤ base.length then .ok (acc.1 ++ base.drop acc.2) else .error .Panic

def extend_blanks (base : List α) (blanks : List Nat) : Except CommitError (List α) :=
  blanks.foldlM (extend_blank base) ([], 0) >>= extend_rest base

def merge_segments (base_segments appended_segments : List α) (replaced_segments : IndexMap α)
    (removed_segment_indexes : List Nat) : Except CommitError (List α) := do
  -- `base_segments[k] = v` panics on a position out of bounds
  let base_segments ← replaced_segments.entries.foldlM
    (fun b e => if e.1 < b.length then .ok (b.set e.1 e.2) else .error .Panic) base_segments
  -- `sort_unstable`: any sort gives the one increasing order of the positions
  let blanks := removed_segment_indexes.insertionSort (· ≤ ·)
  -- `Vec::with_capacity(base.len() + appended.len() - blanks.len())`: a wrapped subtraction asks
  -- for a capacity that overflows
  if base_segments.length + appended_segments.length < blanks.length then throw .Panic
  let merged_segments ←
    if !blanks.isEmpty then extend_blanks base_segments blanks else pure base_segments
  return appended_segments ++ merged_segments

structure MutationGenerator (α : Type) where
  base_snapshot : TableSnapshot α
  conflict_resolve_ctx : Option (ConflictResolveContext α)

def MutationGenerator.generate_new_snapshot [DecidableEq α] (g : MutationGenerator α) (previous : Option (TableSnapshot α)) :
    Except CommitError (TableSnapshot α) := do
  let previous := previous.getD TableSnapshot.new_empty_snapshot
  let some ctx := g.conflict_resolve_ctx | throw (.Internal "conflict_solve_ctx not set")
  match ctx with
  | .AppendOnly => throw (.Internal "conflict_resolve_ctx should not be AppendOnly in MutationGenerator")
  | .ModifiedSegmentExistsInLatest ctx =>
      match ← is_modified_segments_exists_in_latest g.base_snapshot.segments previous.segments
          ctx.replaced_segments ctx.removed_segment_indexes with
      | some (removed, replaced) =>
          let new_segments ← merge_segments previous.segments ctx.appended_segments replaced removed
          let new_summary := deduct_statistics (merge_statistics ctx.merged_statistics previous.summary)
            ctx.removed_statistics
          return ⟨new_summary, new_segments⟩
      | none => throw .UnresolvableConflict

theorem foldl_update_eq_some [DecidableEq α] {β : Type} {es : List (α × β)} {m : α → Option β} {x : α} {b : β}
    (h : es.foldl (fun m e => fun y => if y = e.1 then some e.2 else m y) m x = some b) :
    (x, b) ∈ es ∨ m x = some b := by
  induction es generalizing m with
  | nil => exact .inr h
  | cons e es ih =>
      rcases ih h with hmem | hm
      · exact .inl (List.mem_cons_of_mem _ hmem)
      · beta_reduce at hm
        by_cases hx : x = e.1
        · rw [if_pos hx, Option.some.injEq] at hm
          subst hx hm
          exact .inl List.mem_cons_self
        · rw [if_neg hx] at hm
          exact .inr hm

theorem foldl_update_eq_none [DecidableEq α] {β : Type} {es : List (α × β)} {m : α → Option β} {x : α} :
    es.foldl (fun m e => fun y => if y = e.1 then some e.2 else m y) m x = none ↔
      (∀ e ∈ es, e.1 ≠ x) ∧ m x = none := by
  induction es generalizing m with
  | nil => simp
  | cons e es ih =>
      rw [List.foldl_cons, ih]
      by_cases hx : x = e.1
      · simp [hx]
      · simp [hx, Ne.symm hx]

theorem latest_positions_eq_none [DecidableEq α] {latest : List α} {seg : α} :
    latest_positions latest seg = none ↔ seg ∉ latest := by
  rw [latest_positions, foldl_update_eq_none]
  simp only [and_true]
  constructor
  · intro h hmem
    obtain ⟨p, hp⟩ := List.mem_iff_getElem?.mp hmem
    exact h (seg, p) (List.mem_zipIdx_iff_getElem?.mpr hp) rfl
  · intro h e he heq
    exact h (heq ▸ List.mem_of_getElem? (List.mem_zipIdx_iff_getElem?.mp he))

theorem latest_positions_eq_some [DecidableEq α] {latest : List α} (hl : latest.Nodup) {seg : α} {p : Nat} :
    latest_positions latest seg = some p ↔ latest[p]? = some seg := by
  have found : ∀ {q}, latest_positions latest seg = some q → latest[q]? = some seg := by
    intro q hq
    rcases foldl_update_eq_some hq with hmem | hnone
    · exact List.mem_zipIdx_iff_getElem?.mp hmem
    · cases hnone
  refine ⟨found, fun hp => ?_⟩
  -- the location is held, so it has a position, which is `p` as the locations are distinct
  obtain ⟨q, hq⟩ := Option.ne_none_iff_exists'.mp
    (mt latest_positions_eq_none.mp (not_not.mpr (List.mem_of_getElem? hp)))
  have hqp : latest[q]? = latest[p]? := (found hq).trans hp.symm
  have hq_lt : q < latest.length := (List.getElem?_eq_some_iff.mp (found hq)).1
  rw [hq, (List.getElem?_inj hq_lt hl).mp hqp]

section Loops

variable (base : List α) (positions : α → Option Nat)

theorem removed_positions_found {js : List Nat} (acc : List Nat)
    (h : ∀ j ∈ js, (base[j]?.bind positions).isSome) :
    removed_positions base positions acc js = .ok (some (acc ++ js.filterMap (fun j => base[j]?.bind positions))) := by
  induction js generalizing acc with
  | nil => simp [removed_positions]
  | cons j js ih =>
      obtain ⟨p, hp⟩ := Option.isSome_iff_exists.mp (h j List.mem_cons_self)
      obtain ⟨seg, hseg, hpos⟩ := Option.bind_eq_some_iff.mp hp
      simp only [removed_positions, hseg, hpos]
      rw [ih _ (fun j' hj' => h j' (List.mem_cons_of_mem _ hj')), List.filterMap_cons, hp]
      simp

theorem removed_positions_missing {js : List Nat} (acc : List Nat) (hlt : ∀ j ∈ js, j < base.length)
    (h : ∃ j ∈ js, base[j]?.bind positions = none) : removed_positions base positions acc js = .ok none := by
  induction js generalizing acc with
  | nil => simp at h
  | cons j js ih =>
      have hj : j < base.length := hlt j List.mem_cons_self
      have hseg : base[j]? = some base[j] := List.getElem?_eq_getElem hj
      cases hpos : positions base[j] with
      | none => simp only [removed_positions, hseg, hpos]
      | some p =>
          -- the missing segment is a later one
          have h' : ∃ j' ∈ js, base[j']?.bind positions = none := by
            obtain ⟨j', hj', hnone⟩ := h
            rcases List.mem_cons.mp hj' with rfl | hj'
            · simp [hseg, hpos] at hnone
            · exact ⟨j', hj', hnone⟩
          simp only [removed_positions, hseg, hpos]
          exact ih _ (fun j' hj' => hlt j' (List.mem_cons_of_mem _ hj')) h'

theorem replaced_positions_found {es : List (Nat × α)} (acc : IndexMap α)
    (h : ∀ e ∈ es, (base[e.1]?.bind positions).isSome) :
    replaced_positions base positions acc es =
      .ok (some (es.foldl (fun m e => m.insert ((base[e.1]?.bind positions).getD 0) e.2) acc)) := by
  induction es generalizing acc with
  | nil => rfl
  | cons e es ih =>
      obtain ⟨p, hp⟩ := Option.isSome_iff_exists.mp (h e List.mem_cons_self)
      obtain ⟨seg, hseg, hpos⟩ := Option.bind_eq_some_iff.mp hp
      obtain ⟨i, location⟩ := e
      simp only [replaced_positions, hseg, hpos]
      rw [ih _ (fun e' he' => h e' (List.mem_cons_of_mem _ he')), List.foldl_cons, hp]
      rfl

theorem replaced_positions_missing {es : List (Nat × α)} (acc : IndexMap α)
    (hlt : ∀ e ∈ es, e.1 < base.length) (h : ∃ e ∈ es, base[e.1]?.bind positions = none) :
    replaced_positions base positions acc es = .ok none := by
  induction es generalizing acc with
  | nil => simp at h
  | cons e es ih =>
      obtain ⟨i, location⟩ := e
      have hi : i < base.length := hlt _ List.mem_cons_self
      have hseg : base[i]? = some base[i] := List.getElem?_eq_getElem hi
      cases hpos : positions base[i] with
      | none => simp only [replaced_positions, hseg, hpos]
      | some p =>
          have h' : ∃ e' ∈ es, base[e'.1]?.bind positions = none := by
            obtain ⟨e', he', hnone⟩ := h
            rcases List.mem_cons.mp he' with rfl | he'
            · simp [hseg, hpos] at hnone
            · exact ⟨e', he', hnone⟩
          simp only [replaced_positions, hseg, hpos]
          exact ih _ (fun e' he' => hlt e' (List.mem_cons_of_mem _ he')) h'

end Loops

theorem foldlM_set {es : List (Nat × α)} (l : List α) (hlt : ∀ e ∈ es, e.1 < l.length) :
    es.foldlM (fun b e => if e.1 < b.length then .ok (b.set e.1 e.2) else .error .Panic) l =
      (.ok (es.foldl (fun b e => b.set e.1 e.2) l) : Except CommitError (List α)) := by
  induction es generalizing l with
  | nil => rfl
  | cons e es ih =>
      have hlt' : ∀ e' ∈ es, e'.1 < (l.set e.1 e.2).length := by
        intro e' he'
        rw [List.length_set]
        exact hlt e' (List.mem_cons_of_mem _ he')
      rw [List.foldlM_cons, if_pos (hlt e List.mem_cons_self), List.foldl_cons]
      exact ih _ hlt'

theorem filterMap_range'_split (base : List α) {blanks : List Nat} {b last : Nat} (hlast : last ≤ b)
    (hb : b < base.length) (hbl : ∀ b' ∈ blanks, b < b') :
    (List.range' last (base.length - last)).filterMap (fun i => if i ∈ b :: blanks then none else base[i]?) =
      (base.take b).drop last ++
        (List.range' (b + 1) (base.length - (b + 1))).filterMap (fun i => if i ∈ blanks then none else base[i]?) := by
  have h1 : base.length - last = (b - last) + (base.length - b) := by omega
  have h2 : base.length - b = (base.length - (b + 1)) + 1 := by omega
  have h3 : last + 1 * (b - last) = b := by omega
  rw [h1, ← List.range'_append, h3, h2, List.range'_succ, List.filterMap_append, List.filterMap_cons,
    if_pos List.mem_cons_self, List.drop_take_eq_filterMap_range' base hlast hb.le]
  congr 1
  · -- no blank lies before `b`
    apply List.filterMap_congr
    intro i hi
    have hib : i < b := by
      rw [List.mem_range'_1] at hi
      omega
    have hnot : i ∉ b :: blanks := by
      rintro (_ | ⟨_, hi'⟩)
      · omega
      · exact absurd (hbl i hi') (by omega)
    rw [if_neg hnot]
  · -- after `b`, the blanks are the later ones
    apply List.filterMap_congr
    intro i hi
    have hbi : b < i := by
      rw [List.mem_range'_1] at hi
      omega
    have hiff : i ∈ b :: blanks ↔ i ∈ blanks := by
      rw [List.mem_cons]
      exact ⟨fun h => h.resolve_left (by omega), Or.inr⟩
    simp only [hiff]

theorem foldlM_extend_blank (base : List α) {blanks : List Nat} (hs : blanks.Pairwise (· < ·)) (acc : List α)
    (last : Nat) (hlast : last ≤ base.length) (hbl : ∀ b ∈ blanks, last ≤ b ∧ b < base.length) :
    blanks.foldlM (extend_blank base) (acc, last) >>= extend_rest base =
      .ok (acc ++ (List.range' last (base.length - last)).filterMap
        (fun i => if i ∈ blanks then none else base[i]?)) := by
  induction blanks generalizing acc last with
  | nil =>
      simp only [List.not_mem_nil, if_false]
      rw [← List.drop_take_eq_filterMap_range' base hlast (Nat.le_refl _), List.take_length]
      show extend_rest base (acc, last) = _
      rw [extend_rest, if_pos hlast]
  | cons b bs ih =>
      obtain ⟨hlt, hs'⟩ := List.pairwise_cons.mp hs
      obtain ⟨hlb, hb⟩ := hbl b List.mem_cons_self
      rw [List.foldlM_cons, extend_blank, if_pos ⟨hlb, hb.le⟩]
      show bs.foldlM (extend_blank base) (acc ++ (base.take b).drop last, b + 1) >>= extend_rest base = _
      rw [ih hs' _ _ hb (fun b' hb' => ⟨hlt b' hb', (hbl b' (List.mem_cons_of_mem _ hb')).2⟩),
        filterMap_range'_split base hlb hb hlt, List.append_assoc]

theorem merge_segments_eq (L A : List α) (R : IndexMap α) (bs : List Nat) (hR : ∀ e ∈ R.entries, e.1 < L.length)
    (hbs : bs.Nodup) (hlt : ∀ b ∈ bs, b < L.length) :
    merge_segments L A R bs =
      .ok (A ++ (List.range L.length).filterMap (fun p => if p ∈ bs then none else (R.get? p).or L[p]?)) := by
  have hlen := List.length_foldl_set R.entries L
  have hget : ∀ p, (R.entries.foldl (fun b e => b.set e.1 e.2) L)[p]? = (R.get? p).or L[p]? :=
    List.getElem?_foldl_set R.keys_nodup L hR
  -- the blanks: the removed positions sorted, hence increasing, and no more than the positions
  have hperm := List.perm_insertionSort (· ≤ ·) bs
  have hsorted : (bs.insertionSort (· ≤ ·)).Pairwise (· < ·) :=
    ((List.pairwise_insertionSort (· ≤ ·) bs).and (List.nodup_iff_pairwise_ne.mp (hperm.nodup_iff.mpr hbs))).imp
      (fun ⟨h1, h2⟩ => lt_of_le_of_ne h1 h2)
  have hmem : ∀ p, p ∈ bs.insertionSort (· ≤ ·) ↔ p ∈ bs := fun p => hperm.mem_iff
  have hblen : (bs.insertionSort (· ≤ ·)).length ≤ L.length := by
    rw [hperm.length_eq]
    have hsub : bs ⊆ List.range L.length := fun b hb => List.mem_range.mpr (hlt b hb)
    simpa using hbs.length_le_of_subset hsub
  unfold merge_segments
  rw [foldlM_set L hR]
  simp only [bind, Except.bind, pure, Except.pure, hlen,
    if_neg (show ¬ L.length + A.length < (bs.insertionSort (· ≤ ·)).length by omega)]
  -- read position by position, the written segments are the old ones with the replacements
  have hfilter : ∀ blanks : List Nat, (∀ p, p ∈ blanks ↔ p ∈ bs) →
      (List.range L.length).filterMap (fun p => if p ∈ bs then none else (R.get? p).or L[p]?) =
        (List.range' 0 ((R.entries.foldl (fun b e => b.set e.1 e.2) L).length - 0)).filterMap
          (fun p => if p ∈ blanks then none else (R.entries.foldl (fun b e => b.set e.1 e.2) L)[p]?) := by
    intro blanks hb
    rw [Nat.sub_zero, hlen, ← List.range_eq_range']
    apply List.filterMap_congr
    intro p _
    simp only [hb, hget]
  split_ifs with hne
  · rw [extend_blanks, foldlM_extend_blank _ hsorted [] 0 (Nat.zero_le _)
      (fun b hb => ⟨Nat.zero_le _, hlen ▸ hlt b ((hmem b).mp hb)⟩), hfilter _ hmem]
    rfl
  · -- no blanks: every position is kept
    have hnil : bs.insertionSort (· ≤ ·) = [] := by simpa using hne
    rw [hfilter [] (fun p => by rw [← hmem, hnil]), Nat.sub_zero, ← List.range_eq_range']
    simp only [List.not_mem_nil, if_false, List.filterMap_getElem?_range]

theorem is_modified_found [DecidableEq α] (base latest : List α) (R : IndexMap α) (rs : List Nat)
    (hrem : ∀ j ∈ rs, (base[j]?.bind (latest_positions latest)).isSome)
    (hrep : ∀ e ∈ R.entries, (base[e.1]?.bind (latest_positions latest)).isSome) :
    is_modified_segments_exists_in_latest base latest R rs =
      .ok (some (rs.filterMap (fun j => base[j]?.bind (latest_positions latest)),
        R.entries.foldl (fun m e => m.insert ((base[e.1]?.bind (latest_positions latest)).getD 0) e.2)
          IndexMap.empty)) := by
  simp only [is_modified_segments_exists_in_latest, removed_positions_found _ _ [] hrem,
    replaced_positions_found _ _ _ hrep, bind, Except.bind, pure, Except.pure, List.nil_append]

theorem is_modified_missing [DecidableEq α] (base latest : List α) (R : IndexMap α) (rs : List Nat)
    (hlt : ∀ i ∈ R.entries.map Prod.fst ++ rs, i < base.length)
    (h : ∃ i ∈ R.entries.map Prod.fst ++ rs, base[i]?.bind (latest_positions latest) = none) :
    is_modified_segments_exists_in_latest base latest R rs = .ok none := by
  by_cases hrem : ∀ j ∈ rs, (base[j]?.bind (latest_positions latest)).isSome
  · -- every removed segment is found, so a replaced one is missing
    have hrep : ∃ e ∈ R.entries, base[e.1]?.bind (latest_positions latest) = none := by
      obtain ⟨i, hi, hnone⟩ := h
      rcases List.mem_append.mp hi with hi | hi
      · obtain ⟨e, he, rfl⟩ := List.mem_map.mp hi
        exact ⟨e, he, hnone⟩
      · exact absurd (hrem i hi) (by simp [hnone])
    simp only [is_modified_segments_exists_in_latest, removed_positions_found _ _ [] hrem, bind, Except.bind,
      replaced_positions_missing _ _ _ (fun e he => hlt e.1 (List.mem_append_left _ (List.mem_map_of_mem he))) hrep,
      pure, Except.pure]
  · obtain ⟨j, hj, hnone⟩ : ∃ j ∈ rs, base[j]?.bind (latest_positions latest) = none := by
      simpa [Option.isSome_iff_ne_none] using hrem
    simp only [is_modified_segments_exists_in_latest, bind, Except.bind, pure, Except.pure,
      removed_positions_missing _ _ [] (fun j hj => hlt j (List.mem_append_right _ hj)) ⟨j, hj, hnone⟩]

end Resolve

section Spec

variable {α : Type}

def SnapshotChanges.modified (c : SnapshotChanges α) : List Nat :=
  c.replaced_segments.entries.map Prod.fst ++ c.removed_segment_indexes

-- changes computed against a base of `n` segments: distinct removed positions, none of them also
-- replaced, every position inside the base
structure SnapshotChanges.ValidFor (c : SnapshotChanges α) (n : Nat) : Prop where
  removed_nodup : c.removed_segment_indexes.Nodup
  disjoint : ∀ i ∈ c.removed_segment_indexes, i ∉ c.replaced_segments.entries.map Prod.fst
  lt : ∀ i ∈ c.modified, i < n

def resolve_segment [DecidableEq α] (base : List α) (changes : SnapshotChanges α) (seg : α) : Option α :=
  if base.idxOf seg ∈ changes.removed_segment_indexes then none
  else some ((changes.replaced_segments.get? (base.idxOf seg)).getD seg)

end Spec

section Commit

variable {α : Type} [DecidableEq α] {B L : List α}

theorem base_position_iff (hB : B.Nodup) (hL : L.Nodup) {p : Nat} {x : α} (hx : L[p]? = some x) {j : Nat}
    (hj : j < B.length) : B[j]?.bind (latest_positions L) = some p ↔ j = B.idxOf x := by
  rw [Option.bind_eq_some_iff]
  constructor
  · rintro ⟨y, hy, hyp⟩
    have hyx : y = x := Option.some.inj (((latest_positions_eq_some hL).mp hyp).symm.trans hx)
    rw [List.getElem?_eq_getElem hj, Option.some.injEq] at hy
    rw [← hyx, ← hy, hB.idxOf_getElem]
  · rintro rfl
    have hmem : x ∈ B := List.idxOf_lt_length_iff.mp hj
    exact ⟨x, List.getElem?_idxOf hmem, (latest_positions_eq_some hL).mpr hx⟩

theorem latest_position_lt (hL : L.Nodup) {j p : Nat} (h : B[j]?.bind (latest_positions L) = some p) :
    j < B.length ∧ p < L.length := by
  obtain ⟨y, hy, hyp⟩ := Option.bind_eq_some_iff.mp h
  exact ⟨(List.getElem?_eq_some_iff.mp hy).1, (List.getElem?_eq_some_iff.mp ((latest_positions_eq_some hL).mp hyp)).1⟩

theorem latest_position_inj (hB : B.Nodup) (hL : L.Nodup) {a a' p : Nat}
    (ha : B[a]?.bind (latest_positions L) = some p) (ha' : B[a']?.bind (latest_positions L) = some p) : a = a' := by
  obtain ⟨x, hx⟩ : ∃ x, L[p]? = some x := ⟨_, List.getElem?_eq_getElem (latest_position_lt hL ha).2⟩
  rw [(base_position_iff hB hL hx (latest_position_lt hL ha).1).mp ha,
    (base_position_iff hB hL hx (latest_position_lt hL ha').1).mp ha']

theorem mem_modified_of_replaced {c : SnapshotChanges α} {e : Nat × α} (he : e ∈ c.replaced_segments.entries) :
    e.1 ∈ c.modified :=
  List.mem_append_left _ (List.mem_map_of_mem he)

theorem mem_modified_of_removed {c : SnapshotChanges α} {j : Nat} (hj : j ∈ c.removed_segment_indexes) :
    j ∈ c.modified :=
  List.mem_append_right _ hj

section Found

-- every changed base segment is found in the latest snapshot: the changes move to latest positions
variable (hB : B.Nodup) (hL : L.Nodup) {changes : SnapshotChanges α}
  (hfound : ∀ i ∈ changes.modified, (B[i]?.bind (latest_positions L)).isSome)
include hB hL hfound

theorem replaced_latest_keys_nodup :
    (changes.replaced_segments.entries.map (fun e => (B[e.1]?.bind (latest_positions L)).getD 0)).Nodup := by
  refine List.Nodup.map_on ?_ (changes.replaced_segments.keys_nodup.of_map _)
  intro e he e' he' heq
  obtain ⟨p, hp⟩ := Option.isSome_iff_exists.mp (hfound e.1 (mem_modified_of_replaced he))
  obtain ⟨p', hp'⟩ := Option.isSome_iff_exists.mp (hfound e'.1 (mem_modified_of_replaced he'))
  rw [hp, hp', Option.getD_some, Option.getD_some] at heq
  subst heq
  exact List.inj_on_of_nodup_map changes.replaced_segments.keys_nodup he he' (latest_position_inj hB hL hp hp')

theorem replaced_latest_get? (p : Nat) :
    (changes.replaced_segments.entries.foldl
        (fun m e => m.insert ((B[e.1]?.bind (latest_positions L)).getD 0) e.2) IndexMap.empty).get? p =
      (changes.replaced_segments.entries.find?
        (fun e => (B[e.1]?.bind (latest_positions L)).getD 0 == p)).map Prod.snd := by
  rw [IndexMap.get?_foldl_insert (fun k => (B[k]?.bind (latest_positions L)).getD 0)
    (replaced_latest_keys_nodup hB hL hfound), IndexMap.get?_empty, Option.or_none]

theorem replaced_latest_lt :
    ∀ e ∈ (changes.replaced_segments.entries.foldl
        (fun m e => m.insert ((B[e.1]?.bind (latest_positions L)).getD 0) e.2) IndexMap.empty).entries,
      e.1 < L.length := by
  intro e he
  have hget := IndexMap.get?_eq_some_iff.mpr he
  rw [replaced_latest_get? hB hL hfound] at hget
  obtain ⟨e', he', -⟩ := Option.map_eq_some_iff.mp hget
  have hk : (B[e'.1]?.bind (latest_positions L)).getD 0 = e.1 := by simpa using List.find?_some he'
  obtain ⟨p, hp⟩ := Option.isSome_iff_exists.mp
    (hfound e'.1 (mem_modified_of_replaced (List.mem_of_find?_eq_some he')))
  rw [hp, Option.getD_some] at hk
  exact hk ▸ (latest_position_lt hL hp).2

-- the latest segment at `p` reads through the base position of its segment
theorem replaced_latest_get?_of_getElem? {p : Nat} {x : α} (hx : L[p]? = some x) :
    (changes.replaced_segments.entries.foldl
        (fun m e => m.insert ((B[e.1]?.bind (latest_positions L)).getD 0) e.2) IndexMap.empty).get? p =
      changes.replaced_segments.get? (B.idxOf x) := by
  rw [replaced_latest_get? hB hL hfound, IndexMap.get?]
  congr 1
  apply List.find?_congr_of_mem
  intro e he
  obtain ⟨q, hq⟩ := Option.isSome_iff_exists.mp (hfound e.1 (mem_modified_of_replaced he))
  have hiff : B[e.1]?.bind (latest_positions L) = some p ↔ e.1 = B.idxOf x :=
    base_position_iff hB hL hx (latest_position_lt hL hq).1
  rw [hq, Option.some.injEq] at hiff
  rw [hq, Option.getD_some]
  exact Bool.eq_iff_iff.mpr (by simpa using hiff)

theorem mem_removed_latest_iff {p : Nat} {x : α} (hx : L[p]? = some x) :
    p ∈ changes.removed_segment_indexes.filterMap (fun j => B[j]?.bind (latest_positions L)) ↔
      B.idxOf x ∈ changes.removed_segment_indexes := by
  rw [List.mem_filterMap]
  constructor
  · rintro ⟨j, hj, hgj⟩
    obtain ⟨q, hq⟩ := Option.isSome_iff_exists.mp (hfound j (mem_modified_of_removed hj))
    rw [← (base_position_iff hB hL hx (latest_position_lt hL hq).1).mp hgj]
    exact hj
  · intro hi
    obtain ⟨q, hq⟩ := Option.isSome_iff_exists.mp (hfound _ (mem_modified_of_removed hi))
    exact ⟨_, hi, (base_position_iff hB hL hx (latest_position_lt hL hq).1).mpr rfl⟩

-- position by position, what `merge_segments` keeps of the latest segments is what
-- `resolve_segment` says
theorem filterMap_resolve_segment :
    (List.range L.length).filterMap (fun p =>
        if p ∈ changes.removed_segment_indexes.filterMap (fun j => B[j]?.bind (latest_positions L)) then none
        else ((changes.replaced_segments.entries.foldl
          (fun m e => m.insert ((B[e.1]?.bind (latest_positions L)).getD 0) e.2) IndexMap.empty).get? p).or L[p]?) =
      L.filterMap (resolve_segment B changes) := by
  rw [List.filterMap_eq_filterMap_range L]
  apply List.filterMap_congr
  intro p hp
  obtain ⟨x, hx⟩ : ∃ x, L[p]? = some x := ⟨_, List.getElem?_eq_getElem (List.mem_range.mp hp)⟩
  simp only [mem_removed_latest_iff hB hL hfound hx, replaced_latest_get?_of_getElem? hB hL hfound hx, hx]
  simp only [Option.bind, Option.or_some, resolve_segment]

end Found

theorem generate_new_snapshot_resolved (base latest : TableSnapshot α) (changes : SnapshotChanges α)
    (hB : base.segments.Nodup) (hL : latest.segments.Nodup) (hC : changes.ValidFor base.segments.length)
    (hfound : ∀ i ∈ changes.modified, (base.segments[i]?.bind (latest_positions latest.segments)).isSome) :
    MutationGenerator.generate_new_snapshot ⟨base, some (.ModifiedSegmentExistsInLatest changes)⟩ (some latest) =
      .ok ⟨deduct_statistics (merge_statistics changes.merged_statistics latest.summary) changes.removed_statistics,
        changes.appended_segments ++ latest.segments.filterMap (resolve_segment base.segments changes)⟩ := by
  have his := is_modified_found base.segments latest.segments changes.replaced_segments
    changes.removed_segment_indexes (fun j hj => hfound j (mem_modified_of_removed hj))
    (fun e he => hfound e.1 (mem_modified_of_replaced he))
  -- the blanks are the latest positions of the removed segments: distinct, and inside the snapshot
  have hbs_nodup : (changes.removed_segment_indexes.filterMap
      (fun j => base.segments[j]?.bind (latest_positions latest.segments))).Nodup :=
    hC.removed_nodup.filterMap (fun _ _ _ ha ha' => latest_position_inj hB hL ha ha')
  have hbs_lt : ∀ b ∈ changes.removed_segment_indexes.filterMap
      (fun j => base.segments[j]?.bind (latest_positions latest.segments)), b < latest.segments.length := by
    intro b hb
    obtain ⟨j, -, hj⟩ := List.mem_filterMap.mp hb
    exact (latest_position_lt hL hj).2
  simp only [MutationGenerator.generate_new_snapshot, Option.getD_some, his,
    merge_segments_eq _ _ _ _ (replaced_latest_lt hB hL hfound) hbs_nodup hbs_lt, bind, Except.bind, pure,
    Except.pure, filterMap_resolve_segment hB hL hfound]

theorem generate_new_snapshot_conflict (base latest : TableSnapshot α) (changes : SnapshotChanges α)
    (hC : changes.ValidFor base.segments.length)
    (h : ∃ i ∈ changes.modified, ∃ seg, base.segments[i]? = some seg ∧ seg ∉ latest.segments) :
    MutationGenerator.generate_new_snapshot ⟨base, some (.ModifiedSegmentExistsInLatest changes)⟩ (some latest) =
      .error .UnresolvableConflict := by
  obtain ⟨i, hi, seg, hseg, hnot⟩ := h
  have hmissing := is_modified_missing base.segments latest.segments changes.replaced_segments
    changes.removed_segment_indexes hC.lt ⟨i, hi, by simp [hseg, latest_positions_eq_none.mpr hnot]⟩
  simp only [MutationGenerator.generate_new_snapshot, Option.getD_some, hmissing, bind, Except.bind]
  rfl

theorem generate_new_snapshot_merges (base latest : TableSnapshot α) (changes : SnapshotChanges α)
    (hB : base.segments.Nodup) (hL : latest.segments.Nodup) (hC : changes.ValidFor base.segments.length) :
    (MutationGenerator.generate_new_snapshot ⟨base, some (.ModifiedSegmentExistsInLatest changes)⟩ (some latest) =
        .error .UnresolvableConflict ↔
      ∃ i ∈ changes.modified, ∀ seg, base.segments[i]? = some seg → seg ∉ latest.segments) ∧
    ((∀ i ∈ changes.modified, ∀ seg, base.segments[i]? = some seg → seg ∈ latest.segments) →
      ∃ snap, MutationGenerator.generate_new_snapshot ⟨base, some (.ModifiedSegmentExistsInLatest changes)⟩
          (some latest) = .ok snap ∧
        snap.segments = changes.appended_segments ++ latest.segments.filterMap (resolve_segment base.segments changes) ∧
        snap.summary.row_count = latest.summary.row_count + changes.merged_statistics.row_count -
          changes.removed_statistics.row_count ∧
        snap.summary.block_count = latest.summary.block_count + changes.merged_statistics.block_count -
          changes.removed_statistics.block_count) := by
  have hvalid : ∀ i ∈ changes.modified, ∃ x, base.segments[i]? = some x :=
    fun i hi => ⟨_, List.getElem?_eq_getElem (hC.lt i hi)⟩
  by_cases hall : ∀ i ∈ changes.modified, ∀ seg, base.segments[i]? = some seg → seg ∈ latest.segments
  · have hfound : ∀ i ∈ changes.modified, (base.segments[i]?.bind (latest_positions latest.segments)).isSome := by
      intro i hi
      obtain ⟨x, hx⟩ := hvalid i hi
      obtain ⟨p, hp⟩ := Option.ne_none_iff_exists'.mp
        (mt latest_positions_eq_none.mp (not_not.mpr (hall i hi x hx)))
      simp [hx, hp]
    have hgen := generate_new_snapshot_resolved base latest changes hB hL hC hfound
    refine ⟨⟨fun h => (by rw [hgen] at h; cases h), fun ⟨i, hi, hnot⟩ => ?_⟩, fun _ => ⟨_, hgen, rfl, ?_, ?_⟩⟩
    · obtain ⟨x, hx⟩ := hvalid i hi
      exact absurd (hall i hi x hx) (hnot x hx)
    · simp only [deduct_statistics, merge_statistics, UInt64.add_comm]
    · simp only [deduct_statistics, merge_statistics, UInt64.add_comm]
  · obtain ⟨i, hi, seg, hseg, hnot⟩ : ∃ i ∈ changes.modified, ∃ seg, base.segments[i]? = some seg ∧
        seg ∉ latest.segments := by
      simpa using hall
    have hgen := generate_new_snapshot_conflict base latest changes hC ⟨i, hi, seg, hseg, hnot⟩
    refine ⟨⟨fun _ => ⟨i, hi, fun seg' hseg' => ?_⟩, fun _ => hgen⟩, fun h => absurd h hall⟩
    rw [hseg, Option.some.injEq] at hseg'
    exact hseg' ▸ hnot

theorem generate_new_snapshot_merges_concurrent :
    (⟨default, [1, 2, 3]⟩ : TableSnapshot Nat).segments.Nodup ∧
      (⟨default, [4, 1, 2, 3]⟩ : TableSnapshot Nat).segments.Nodup ∧
      (⟨[5], ⟨[(0, 6)], by decide⟩, [2], default, default⟩ : SnapshotChanges Nat).ValidFor 3 ∧
      ((MutationGenerator.generate_new_snapshot
          ⟨⟨default, [1, 2, 3]⟩, some (.ModifiedSegmentExistsInLatest ⟨[5], ⟨[(0, 6)], by decide⟩, [2], default, default⟩)⟩
          (some ⟨default, [4, 1, 2, 3]⟩) = .error .UnresolvableConflict ↔
        ∃ i ∈ (⟨[5], ⟨[(0, 6)], by decide⟩, [2], default, default⟩ : SnapshotChanges Nat).modified,
          ∀ seg, ([1, 2, 3] : List Nat)[i]? = some seg → seg ∉ [4, 1, 2, 3]) ∧
      ((∀ i ∈ (⟨[5], ⟨[(0, 6)], by decide⟩, [2], default, default⟩ : SnapshotChanges Nat).modified,
          ∀ seg, ([1, 2, 3] : List Nat)[i]? = some seg → seg ∈ [4, 1, 2, 3]) →
        ∃ snap, MutationGenerator.generate_new_snapshot
            ⟨⟨default, [1, 2, 3]⟩, some (.ModifiedSegmentExistsInLatest ⟨[5], ⟨[(0, 6)], by decide⟩, [2], default, default⟩)⟩
            (some ⟨default, [4, 1, 2, 3]⟩) = .ok snap ∧
          snap.segments = [5] ++ ([4, 1, 2, 3] : List Nat).filterMap
            (resolve_segment [1, 2, 3] ⟨[5], ⟨[(0, 6)], by decide⟩, [2], default, default⟩) ∧
          snap.summary.row_count = (default : Statistics).row_count + (default : Statistics).row_count -
            (default : Statistics).row_count ∧
          snap.summary.block_count = (default : Statistics).block_count + (default : Statistics).block_count -
            (default : Statistics).block_count)) :=
  ⟨by decide, by decide, ⟨by decide, by decide, by decide⟩,
    generate_new_snapshot_merges ⟨default, [1, 2, 3]⟩ ⟨default, [4, 1, 2, 3]⟩
      ⟨[5], ⟨[(0, 6)], by decide⟩, [2], default, default⟩ (by decide) (by decide) ⟨by decide, by decide, by decide⟩⟩

theorem generate_new_snapshot_repeated_base_segment :
    ([7] : List Nat).Nodup ∧
      (⟨[], IndexMap.empty, [0, 1], default, default⟩ : SnapshotChanges Nat).ValidFor 2 ∧
      MutationGenerator.generate_new_snapshot
          ⟨⟨default, [7, 7]⟩, some (.ModifiedSegmentExistsInLatest ⟨[], IndexMap.empty, [0, 1], default, default⟩)⟩
          (some ⟨default, [7]⟩) = .error .Panic :=
  ⟨by decide, ⟨by decide, by decide, by decide⟩, by decide⟩

end Commit

end Databend.Fuse
