import Mathlib
import Databend.Library.MinQueue
import Databend.Sort.Cursor

namespace Databend.Sort

open MinQueue

variable {R Item : Type} [Rows R Item] [RowOrd Item]

section Merge

-- `pop` and `peek` give the greatest `Reverse`, the least cursor
def heap_pop (heap : List (Cursor R)) : Option (Cursor R × List (Cursor R)) := pop_min Cursor.cmp heap

def heap_peek (heap : List (Cursor R)) : Option (Cursor R) := (heap_pop heap).map Prod.fst

def heap_push (heap : List (Cursor R)) (cursor : Cursor R) : List (Cursor R) := cursor :: heap

-- `while !cursor.is_finished() { output_indices.push((block_idx, cursor.advance())) }`
def drain_all (block_idx : Nat) : Nat → Cursor R → List (Nat × Nat) → Option (Cursor R × List (Nat × Nat))
  | 0, _, _ => none
  | fuel + 1, cursor, output_indices =>
      if !cursor.is_finished then
        drain_all block_idx fuel cursor.advance.2 (output_indices ++ [(block_idx, cursor.advance.1)])
      else some (cursor, output_indices)

-- `while !cursor.is_finished() && cursor.le(next_cursor) { .. }`
def drain_le (block_idx : Nat) (next_cursor : Cursor R) :
    Nat → Cursor R → List (Nat × Nat) → Option (Cursor R × List (Nat × Nat))
  | 0, _, _ => none
  | fuel + 1, cursor, output_indices =>
      if !cursor.is_finished && (cursor.cmp next_cursor).isLE then
        drain_le block_idx next_cursor fuel cursor.advance.2 (output_indices ++ [(block_idx, cursor.advance.1)])
      else some (cursor, output_indices)

-- `while let Some(Reverse(mut cursor)) = heap.pop()`; `heap.is_empty()` is `heap.peek() = None`
def drain_heap : Nat → List (Cursor R) → List (Nat × Nat) → Option (List (Nat × Nat))
  | 0, _, _ => none
  | fuel + 1, heap, output_indices =>
      match heap_pop heap with
      | none => some output_indices
      | some (cursor, heap) =>
          let block_idx := cursor.input_index
          match heap_peek heap with
          | none => do
              let (_, output_indices) ← drain_all block_idx fuel cursor output_indices
              drain_heap fuel heap output_indices
          | some next_cursor =>
              if (RowOrd.cmp cursor.last next_cursor.current).isLE then do
                let (_, output_indices) ← drain_all block_idx fuel cursor output_indices
                drain_heap fuel heap output_indices
              else do
                let (cursor, output_indices) ← drain_le block_idx next_cursor fuel cursor output_indices
                drain_heap fuel (if !cursor.is_finished then heap_push heap cursor else heap) output_indices

def init_heap (blocks : List R) : List (Cursor R) :=
  blocks.zipIdx.foldl (fun heap (rows, i) => heap_push heap (Cursor.new i rows)) []

-- steps 1 and 2 of `compact_final`, on the rows of its non-empty blocks
def merge_indices (fuel : Nat) (blocks : List R) : Option (List (Nat × Nat)) :=
  drain_heap fuel (init_heap blocks) []

end Merge

section Loops

def Cursor.remaining (c : Cursor R) : List (Nat × Nat) :=
  (List.range' c.row_index (c.num_rows - c.row_index)).map (c.input_index, ·)

theorem Cursor.remaining_of_lt {c : Cursor R} (h : c.row_index < c.num_rows) :
    c.remaining = (c.input_index, c.row_index) :: c.advance.2.remaining := by
  have hn : c.num_rows - c.row_index = (c.num_rows - (c.row_index + 1)) + 1 := by omega
  rw [Cursor.remaining, hn, List.range'_succ, List.map_cons]
  rfl

theorem drain_all_eq {fuel : Nat} {c : Cursor R} (out : List (Nat × Nat)) (hle : c.row_index ≤ c.num_rows)
    (hfuel : c.num_rows - c.row_index < fuel) :
    drain_all c.input_index fuel c out = some ({ c with row_index := c.num_rows }, out ++ c.remaining) := by
  induction fuel generalizing c out with
  | zero => omega
  | succ fuel ih =>
    rw [drain_all]
    by_cases hfin : c.is_finished = true
    · have hn := Cursor.is_finished_iff.mp hfin
      have hrem : c.remaining = [] := by simp [Cursor.remaining, hn]
      rw [if_neg (by simp [hfin]), hrem, List.append_nil]
      obtain ⟨input_index, row_index, num_rows, rows⟩ := c
      dsimp only at hn ⊢
      rw [hn]
    · have hlt := Cursor.row_index_lt hle hfin
      rw [if_pos (by simp [hfin]), Cursor.remaining_of_lt hlt, Cursor.advance_fst, Cursor.advance_snd]
      rw [ih (c := { c with row_index := c.row_index + 1 }) _ (by dsimp only; omega) (by dsimp only; omega)]
      simp

theorem drain_le_eq (next : Cursor R) {fuel : Nat} {c : Cursor R} (out : List (Nat × Nat))
    (hle : c.row_index ≤ c.num_rows) (hfuel : c.num_rows - c.row_index < fuel) :
    ∃ k, c.row_index + k ≤ c.num_rows ∧
      drain_le c.input_index next fuel c out =
        some ({ c with row_index := c.row_index + k }, out ++ (List.range' c.row_index k).map (c.input_index, ·)) ∧
      (∀ j, c.row_index ≤ j → j < c.row_index + k → (({ c with row_index := j } : Cursor R).cmp next).isLE) ∧
      (c.row_index + k < c.num_rows → (({ c with row_index := c.row_index + k } : Cursor R).cmp next).isLE = false) := by
  induction fuel generalizing c out with
  | zero => omega
  | succ fuel ih =>
    rw [drain_le]
    by_cases hgo : (!c.is_finished && (c.cmp next).isLE) = true
    · -- the row is taken and the loop goes on from the next one
      rw [Bool.and_eq_true, Bool.not_eq_true'] at hgo
      have hlt := Cursor.row_index_lt hle (by simp [hgo.1])
      obtain ⟨k, hk, heq, hguard, hstop⟩ := ih (c := { c with row_index := c.row_index + 1 })
        (out ++ [(c.input_index, c.row_index)]) (by dsimp only; omega) (by dsimp only; omega)
      dsimp only at hk heq hguard hstop
      have hrow : c.row_index + 1 + k = c.row_index + (k + 1) := by omega
      refine ⟨k + 1, by omega, ?_, ?_, ?_⟩
      · rw [if_pos (by simp [hgo.1, hgo.2]), Cursor.advance_fst, Cursor.advance_snd, heq, hrow,
          List.range'_succ, List.map_cons, List.append_assoc, List.singleton_append]
      · intro j hj1 hj2
        rcases Nat.eq_or_lt_of_le hj1 with rfl | hj1
        · exact hgo.2
        · exact hguard j hj1 (by omega)
      · rw [← hrow]
        exact hstop
    · -- the loop stops here
      refine ⟨0, by omega, ?_, fun j h1 h2 => by omega, fun h => ?_⟩
      · rw [if_neg hgo, Nat.add_zero, List.range'_zero, List.map_nil, List.append_nil]
      · have hfin : c.is_finished = false := by
          rw [Cursor.is_finished, beq_eq_false_iff_ne]
          omega
        simpa [hfin] using hgo

end Loops

section Order

theorem Cursor.cmp_self (c : Cursor R) : c.cmp c = .eq := by
  rw [Cursor.cmp, if_pos rfl]
  exact Nat.compare_eq_eq.mpr rfl

theorem Cursor.cmp_of_ne {c d : Cursor R} (h : c.input_index ≠ d.input_index) :
    c.cmp d = (RowOrd.cmp c.current d.current).then (compare c.input_index d.input_index) := by
  rw [Cursor.cmp, if_neg h]

theorem Cursor.isLE_current {c d : Cursor R} (h : c.input_index ≠ d.input_index) (hle : (c.cmp d).isLE) :
    (RowOrd.cmp c.current d.current).isLE := by
  rw [Cursor.cmp_of_ne h, Ordering.isLE_then_iff_and] at hle
  exact hle.1

variable [Std.TransCmp (RowOrd.cmp : Item → Item → Ordering)]

theorem Cursor.totalOn {l : List (Cursor R)} (h : (l.map Cursor.input_index).Nodup) :
    TotalOn Cursor.cmp l := by
  have := transCmp_comap (RowOrd.cmp : Item → Item → Ordering) (Cursor.current (R := R))
  refine TotalOn.of_agree (compareLex (fun c d : Cursor R => RowOrd.cmp c.current d.current)
    (compareOn Cursor.input_index)) fun a ha b hb => ?_
  by_cases hab : a.input_index = b.input_index
  · obtain rfl := List.inj_on_of_nodup_map h ha hb hab
    rw [Cursor.cmp_self]
    exact Std.ReflCmp.compare_self.symm
  · rw [Cursor.cmp_of_ne hab]
    rfl

end Order

section Invariant

def all_indices (blocks : List R) : List (Nat × Nat) :=
  blocks.zipIdx.flatMap fun (rows, i) => (List.range (Rows.len rows)).map (i, ·)

def row_at (blocks : List R) (p : Nat × Nat) : Option Item := blocks[p.1]?.map (Rows.row · p.2)

def Rows.Sorted (r : R) : Prop :=
  ∀ j, j < Rows.len r → ∀ i, i ≤ j → (RowOrd.cmp (Rows.row r i) (Rows.row r j)).isLE

instance (r : R) : Decidable (Rows.Sorted r) :=
  inferInstanceAs (Decidable (∀ j, j < Rows.len r → ∀ i, i ≤ j → _))

-- every cursor of the heap reads an unfinished block of its own; `output_indices` and the rows left
-- in the heap are all the rows; the rows taken are sorted, at most every row left, and in their
-- block's order
structure MergeInv (blocks : List R) (heap : List (Cursor R)) (out : List (Nat × Nat)) : Prop where
  block : ∀ c ∈ heap, blocks[c.input_index]? = some c.rows ∧ c.num_rows = Rows.len c.rows
  unfinished : ∀ c ∈ heap, c.row_index < c.num_rows
  nodup : (heap.map Cursor.input_index).Nodup
  perm : (out ++ heap.flatMap Cursor.remaining).Perm (all_indices blocks)
  sorted : (out.filterMap (row_at blocks)).Pairwise fun a b => (RowOrd.cmp a b).isLE
  below : ∀ a ∈ out.filterMap (row_at blocks), ∀ c ∈ heap, (RowOrd.cmp a c.current).isLE
  done : ∀ p ∈ out, ∀ c ∈ heap, p.1 = c.input_index → p.2 < c.row_index
  in_order : out.Pairwise fun p q => p.1 = q.1 → p.2 < q.2

variable {blocks : List R} {heap heap' : List (Cursor R)} {out : List (Nat × Nat)} {c : Cursor R}

theorem Rows.Sorted.pairwise_range' {r : R} (hs : Rows.Sorted r) {s k : Nat} (h : s + k ≤ Rows.len r) :
    ((List.range' s k).map (Rows.row r)).Pairwise fun a b => (RowOrd.cmp a b).isLE := by
  rw [List.pairwise_map]
  refine (List.pairwise_lt_range' (s := s) (n := k)).imp_of_mem fun {a b} _ hb hab => ?_
  exact hs b (by have := List.mem_range'_1.mp hb; omega) a hab.le

omit [RowOrd Item] in
theorem filterMap_row_at {blocks : List R} {i : Nat} {r : R} (hi : blocks[i]? = some r) (l : List Nat) :
    (l.map (i, ·)).filterMap (row_at blocks) = l.map (Rows.row r) := by
  induction l with
  | nil => rfl
  | cons j l ih => simp [row_at, hi, ih]

theorem heap_peek_eq_none_iff : heap_peek heap = none ↔ heap = [] := by
  rw [heap_peek, Option.map_eq_none_iff, heap_pop, pop_min_eq_none_iff]

omit [RowOrd Item] in
theorem Cursor.length_remaining (c : Cursor R) : c.remaining.length = c.num_rows - c.row_index := by
  simp [Cursor.remaining]

theorem length_remaining_take (c : Cursor R) (k : Nat) :
    ((if !({ c with row_index := c.row_index + k } : Cursor R).is_finished then
        heap_push heap' { c with row_index := c.row_index + k } else heap').flatMap Cursor.remaining).length =
      (c.num_rows - (c.row_index + k)) + (heap'.flatMap Cursor.remaining).length := by
  by_cases hfin : ({ c with row_index := c.row_index + k } : Cursor R).is_finished = true
  · have hend := Cursor.is_finished_iff.mp hfin
    dsimp only at hend
    rw [if_neg (by simp [hfin])]
    omega
  · rw [if_pos (by simp [hfin]), heap_push, List.flatMap_cons, List.length_append, Cursor.length_remaining]

omit [RowOrd Item] in
theorem init_heap_eq (blocks : List R) :
    init_heap blocks = (blocks.zipIdx.map fun p => Cursor.new p.2 p.1).reverse := by
  have h : ∀ (l : List (R × Nat)) (heap : List (Cursor R)),
      l.foldl (fun heap (p : R × Nat) => heap_push heap (Cursor.new p.2 p.1)) heap =
        (l.map fun p => Cursor.new p.2 p.1).reverse ++ heap := by
    intro l
    induction l with
    | nil => intro heap; rfl
    | cons p l ih =>
      intro heap
      rw [List.foldl_cons, ih, heap_push, List.map_cons, List.reverse_cons, List.append_assoc]
      rfl
  rw [init_heap, ← List.append_nil (List.reverse _), ← h]

theorem MergeInv.init (hne : ∀ r ∈ blocks, 0 < Rows.len r) : MergeInv blocks (init_heap blocks) [] := by
  have hmem : ∀ c ∈ init_heap blocks, ∃ p ∈ blocks.zipIdx, c = Cursor.new p.2 p.1 := by
    intro c hc
    rw [init_heap_eq, List.mem_reverse, List.mem_map] at hc
    obtain ⟨p, hp, rfl⟩ := hc
    exact ⟨p, hp, rfl⟩
  refine ⟨fun c hc => ?_, fun c hc => ?_, ?_, ?_, List.Pairwise.nil, fun a ha => absurd ha List.not_mem_nil,
    fun p hp => absurd hp List.not_mem_nil, List.Pairwise.nil⟩
  · obtain ⟨p, hp, rfl⟩ := hmem c hc
    exact ⟨List.mem_zipIdx_iff_getElem?.mp hp, rfl⟩
  · obtain ⟨p, hp, rfl⟩ := hmem c hc
    exact hne p.1 (List.mem_of_getElem? (List.mem_zipIdx_iff_getElem?.mp hp))
  · rw [init_heap_eq, List.map_reverse, List.map_map, List.nodup_reverse]
    have hsnd : (blocks.zipIdx.map fun p => (Cursor.new p.2 p.1 : Cursor R).input_index) =
        blocks.zipIdx.map Prod.snd := rfl
    rw [Function.comp_def, hsnd, List.zipIdx_map_snd]
    exact List.nodup_range'
  · -- each block's cursor starts at row 0, so it holds all the block's rows
    rw [List.nil_append, init_heap_eq, all_indices]
    refine (List.reverse_perm _ |>.flatMap_right _).trans ?_
    rw [List.flatMap_map]
    refine List.Perm.of_eq (List.flatMap_congr fun p _ => ?_)
    obtain ⟨rows, i⟩ := p
    simp only [Cursor.remaining, Cursor.new, Nat.sub_zero, List.range_eq_range']

theorem MergeInv.perm_all (hinv : MergeInv blocks [] out) : out.Perm (all_indices blocks) := by
  simpa using hinv.perm

variable [Std.TransCmp (RowOrd.cmp : Item → Item → Ordering)]

theorem MergeInv.pop (hinv : MergeInv blocks heap out) (hpop : heap_pop heap = some (c, heap')) :
    (c :: heap').Perm heap ∧ (∀ x ∈ heap', x.input_index ≠ c.input_index) ∧
      ∀ x ∈ heap', (c.cmp x).isLE := by
  have hperm := pop_min_perm hpop
  have hnodup : ((c :: heap').map Cursor.input_index).Nodup := (hperm.map _).nodup_iff.mpr hinv.nodup
  refine ⟨hperm, fun x hx he => ?_, pop_min_isLE (Cursor.totalOn hinv.nodup) hpop⟩
  rw [List.map_cons, List.nodup_cons] at hnodup
  exact hnodup.1 (he ▸ List.mem_map_of_mem hx)

omit [Std.TransCmp (RowOrd.cmp : Item → Item → Ordering)] [RowOrd Item] in
theorem Cursor.remaining_take (c : Cursor R) {k : Nat} (hk : c.row_index + k ≤ c.num_rows) :
    c.remaining = (List.range' c.row_index k).map (c.input_index, ·) ++
      ({ c with row_index := c.row_index + k } : Cursor R).remaining := by
  have hsplit : c.num_rows - c.row_index = k + (c.num_rows - (c.row_index + k)) := by omega
  rw [Cursor.remaining, Cursor.remaining, hsplit, ← List.range'_append, List.map_append, Nat.one_mul]

-- the rows taken are at least every row taken before
theorem MergeInv.sorted_take (hinv : MergeInv blocks heap out) (hc : c ∈ heap) (hs : Rows.Sorted c.rows)
    {k : Nat} (hk : c.row_index + k ≤ c.num_rows) :
    (out.filterMap (row_at blocks) ++ (List.range' c.row_index k).map (Rows.row c.rows)).Pairwise
      fun a b => (RowOrd.cmp a b).isLE := by
  have hlen := (hinv.block c hc).2
  refine List.pairwise_append.mpr ⟨hinv.sorted, hs.pairwise_range' (hlen ▸ hk), fun a ha b hb => ?_⟩
  obtain ⟨j, hj, rfl⟩ := List.mem_map.mp hb
  have hj := List.mem_range'_1.mp hj
  exact Std.TransCmp.isLE_trans (hinv.below a ha c hc) (hs j (by omega) _ hj.1)

omit [Std.TransCmp (RowOrd.cmp : Item → Item → Ordering)] in
theorem MergeInv.in_order_take (hinv : MergeInv blocks heap out) (hc : c ∈ heap) (k : Nat) :
    (out ++ (List.range' c.row_index k).map (c.input_index, ·)).Pairwise fun p q => p.1 = q.1 → p.2 < q.2 := by
  refine List.pairwise_append.mpr ⟨hinv.in_order, ?_, fun p hp q hq hpq => ?_⟩
  · rw [List.pairwise_map]
    refine (List.pairwise_lt_range' (s := c.row_index) (n := k)).imp ?_
    intro a b h _
    exact h
  · obtain ⟨j, hj, rfl⟩ := List.mem_map.mp hq
    have := hinv.done p hp c hc hpq
    have := (List.mem_range'_1.mp hj).1
    omega

theorem MergeInv.take (hinv : MergeInv blocks heap out) (hsorted : ∀ r ∈ blocks, Rows.Sorted r)
    (hpop : heap_pop heap = some (c, heap')) {k : Nat} (hk : c.row_index + k ≤ c.num_rows)
    (hbelow : ∀ j, c.row_index ≤ j → j < c.row_index + k → ∀ x ∈ heap',
      (RowOrd.cmp (Rows.row c.rows j) x.current).isLE) :
    MergeInv blocks
      (if !({ c with row_index := c.row_index + k } : Cursor R).is_finished then
        heap_push heap' { c with row_index := c.row_index + k } else heap')
      (out ++ (List.range' c.row_index k).map (c.input_index, ·)) := by
  obtain ⟨hperm, hne, -⟩ := hinv.pop hpop
  have hc : c ∈ heap := hperm.subset List.mem_cons_self
  have hsub : ∀ x ∈ heap', x ∈ heap := fun x hx => hperm.subset (List.mem_cons_of_mem c hx)
  obtain ⟨hblock, hlen⟩ := hinv.block c hc
  have hs : Rows.Sorted c.rows := hsorted _ (List.mem_of_getElem? hblock)
  have hvals : (out ++ (List.range' c.row_index k).map (c.input_index, ·)).filterMap (row_at blocks) =
      out.filterMap (row_at blocks) ++ (List.range' c.row_index k).map (Rows.row c.rows) := by
    rw [List.filterMap_append, filterMap_row_at hblock]
  -- the rows taken are at most every row left in `heap'`
  have hbelow' : ∀ a ∈ out.filterMap (row_at blocks) ++ (List.range' c.row_index k).map (Rows.row c.rows),
      ∀ x ∈ heap', (RowOrd.cmp a x.current).isLE := by
    intro a ha x hx
    rcases List.mem_append.mp ha with ha | ha
    · exact hinv.below a ha x (hsub x hx)
    · obtain ⟨j, hj, rfl⟩ := List.mem_map.mp ha
      have hj := List.mem_range'_1.mp hj
      exact hbelow j hj.1 hj.2 x hx
  have hdone' : ∀ p ∈ out ++ (List.range' c.row_index k).map (c.input_index, ·), ∀ x ∈ heap',
      p.1 = x.input_index → p.2 < x.row_index := by
    intro p hp x hx hpx
    rcases List.mem_append.mp hp with hp | hp
    · exact hinv.done p hp x (hsub x hx) hpx
    · obtain ⟨j, -, rfl⟩ := List.mem_map.mp hp
      exact absurd hpx.symm (hne x hx)
  have hbase : (out ++ (c.remaining ++ heap'.flatMap Cursor.remaining)).Perm (all_indices blocks) := by
    refine List.Perm.trans ?_ hinv.perm
    rw [← List.flatMap_cons]
    exact (hperm.flatMap_right _).append_left out
  have hnodup : ((c :: heap').map Cursor.input_index).Nodup := (hperm.map _).nodup_iff.mpr hinv.nodup
  rw [c.remaining_take hk] at hbase
  by_cases hfin : ({ c with row_index := c.row_index + k } : Cursor R).is_finished = true
  · -- the block is done: every row left of it was taken
    have hend : c.row_index + k = c.num_rows := (Cursor.is_finished_iff.mp hfin).symm
    have hnil : ({ c with row_index := c.row_index + k } : Cursor R).remaining = [] := by
      simp only [Cursor.remaining, hend, Nat.sub_self, List.range'_zero, List.map_nil]
    rw [if_neg (by simp [hfin])]
    refine ⟨fun x hx => hinv.block x (hsub x hx), fun x hx => hinv.unfinished x (hsub x hx),
      (List.nodup_cons.mp hnodup).2, ?_, hvals ▸ hinv.sorted_take hc hs hk, hvals ▸ hbelow', hdone',
      hinv.in_order_take hc k⟩
    simpa only [List.append_assoc, hnil, List.nil_append] using hbase
  · -- the cursor goes back into the heap at its first row not taken
    have hlt : c.row_index + k < c.num_rows := Cursor.row_index_lt hk hfin
    rw [if_pos (by simp [hfin])]
    refine ⟨fun x hx => ?_, fun x hx => ?_, hnodup, ?_, hvals ▸ hinv.sorted_take hc hs hk, fun a ha x hx => ?_,
      fun p hp x hx hpx => ?_, hinv.in_order_take hc k⟩
    · rcases List.mem_cons.mp hx with rfl | hx
      · exact ⟨hblock, hlen⟩
      · exact hinv.block x (hsub x hx)
    · rcases List.mem_cons.mp hx with rfl | hx
      · exact hlt
      · exact hinv.unfinished x (hsub x hx)
    · simpa only [heap_push, List.flatMap_cons, List.append_assoc] using hbase
    · rw [hvals] at ha
      rcases List.mem_cons.mp hx with rfl | hx
      · -- the rows of the block are sorted, so everything taken is at most its next row
        rcases List.mem_append.mp ha with ha | ha
        · exact Std.TransCmp.isLE_trans (hinv.below a ha c hc) (hs _ (by dsimp only; omega) _ (by dsimp only; omega))
        · obtain ⟨j, hj, rfl⟩ := List.mem_map.mp ha
          exact hs _ (by dsimp only; omega) _ (by have := List.mem_range'_1.mp hj; dsimp only; omega)
      · exact hbelow' a ha x hx
    · rcases List.mem_cons.mp hx with rfl | hx
      · rcases List.mem_append.mp hp with hp | hp
        · have := hinv.done p hp c hc hpx
          dsimp only
          omega
        · obtain ⟨j, hj, rfl⟩ := List.mem_map.mp hp
          have := List.mem_range'_1.mp hj
          dsimp only
          omega
      · exact hdone' p hp x hx hpx

theorem peek_below (hnodup : (heap.map Cursor.input_index).Nodup) {next : Cursor R}
    (hpeek : heap_peek heap = some next) : next ∈ heap ∧ ∀ x ∈ heap, (RowOrd.cmp next.current x.current).isLE := by
  obtain ⟨⟨m, rest⟩, hpop, rfl⟩ := Option.map_eq_some_iff.mp hpeek
  have hperm := pop_min_perm hpop
  have hmin := pop_min_isLE (Cursor.totalOn hnodup) hpop
  have hnodup' : ((m :: rest).map Cursor.input_index).Nodup := (hperm.map _).nodup_iff.mpr hnodup
  refine ⟨hperm.subset List.mem_cons_self, fun x hx => ?_⟩
  rcases List.mem_cons.mp (hperm.symm.subset hx) with rfl | hx
  · exact Std.ReflCmp.isLE_rfl
  · have hne : m.input_index ≠ x.input_index := by
      rw [List.map_cons, List.nodup_cons] at hnodup'
      exact fun he => hnodup'.1 (he ▸ List.mem_map_of_mem hx)
    exact Cursor.isLE_current hne (hmin x hx)

theorem MergeInv.drain_heap_eq (hsorted : ∀ r ∈ blocks, Rows.Sorted r) {fuel : Nat} :
    ∀ {heap : List (Cursor R)} {out : List (Nat × Nat)}, MergeInv blocks heap out →
      (heap.flatMap Cursor.remaining).length + 2 ≤ fuel →
      ∃ out', drain_heap fuel heap out = some out' ∧ MergeInv blocks [] out' := by
  induction fuel with
  | zero => intro heap out _ hfuel; omega
  | succ fuel ih =>
    intro heap out hinv hfuel
    rw [drain_heap]
    cases hpop : heap_pop heap with
    | none =>
      have hnil : heap = [] := pop_min_eq_none_iff.mp hpop
      exact ⟨out, rfl, hnil ▸ hinv⟩
    | some p =>
    obtain ⟨c, heap'⟩ := p
    obtain ⟨hperm, hne, hmin⟩ := hinv.pop hpop
    have hc : c ∈ heap := hperm.subset List.mem_cons_self
    have hunf := hinv.unfinished c hc
    have hrows : (heap.flatMap Cursor.remaining).length =
        (c.num_rows - c.row_index) + (heap'.flatMap Cursor.remaining).length := by
      rw [← (hperm.flatMap_right Cursor.remaining).length_eq, List.flatMap_cons, List.length_append,
        Cursor.length_remaining]
    have hnodup' : (heap'.map Cursor.input_index).Nodup :=
      (List.nodup_cons.mp ((hperm.map _).nodup_iff.mpr hinv.nodup)).2
    -- draining the whole block leaves the cursor finished and the rest of the heap
    have hall : (∀ j, c.row_index ≤ j → j < c.row_index + (c.num_rows - c.row_index) → ∀ x ∈ heap',
        (RowOrd.cmp (Rows.row c.rows j) x.current).isLE) →
        ∃ out', drain_heap fuel heap' (out ++ c.remaining) = some out' ∧ MergeInv blocks [] out' := by
      intro hbelow
      have htake := hinv.take hsorted hpop (show c.row_index + (c.num_rows - c.row_index) ≤ c.num_rows by omega) hbelow
      have hfin : ({ c with row_index := c.row_index + (c.num_rows - c.row_index) } : Cursor R).is_finished = true :=
        Cursor.is_finished_iff.mpr (by dsimp only; omega)
      rw [if_neg (by simp [hfin])] at htake
      exact ih htake (by omega)
    dsimp only
    cases hpeek : heap_peek heap' with
    | none =>
      have hnil : heap' = [] := heap_peek_eq_none_iff.mp hpeek
      rw [drain_all_eq out hunf.le (by omega)]
      exact hall fun j _ _ x hx => absurd (hnil ▸ hx) List.not_mem_nil
    | some next =>
    obtain ⟨hnext, hnext_min⟩ := peek_below hnodup' hpeek
    have hblock := (hinv.block c hc)
    have hs : Rows.Sorted c.rows := hsorted _ (List.mem_of_getElem? hblock.1)
    dsimp only
    split
    · next hlast =>
      rw [drain_all_eq out hunf.le (by omega)]
      refine hall fun j hj1 hj2 x hx => ?_
      -- every row of the block is at most its last, which is at most the next cursor's row
      have hj : (RowOrd.cmp (Rows.row c.rows j) c.last).isLE :=
        hs (c.num_rows - 1) (by rw [← hblock.2]; omega) j (by omega)
      exact Std.TransCmp.isLE_trans (Std.TransCmp.isLE_trans hj hlast) (hnext_min x hx)
    · have hf : c.num_rows - c.row_index < fuel := by omega
      obtain ⟨k, hk, heq, hguard, hstop⟩ := drain_le_eq next out hunf.le hf
      rw [heq]
      have hbelow : ∀ j, c.row_index ≤ j → j < c.row_index + k → ∀ x ∈ heap',
          (RowOrd.cmp (Rows.row c.rows j) x.current).isLE := by
        intro j hj1 hj2 x hx
        have hne' : ({ c with row_index := j } : Cursor R).input_index ≠ next.input_index := (hne next hnext).symm
        exact Std.TransCmp.isLE_trans (Cursor.isLE_current hne' (hguard j hj1 hj2)) (hnext_min x hx)
      -- the least cursor takes at least its current row
      have hk0 : 0 < k := by
        refine Nat.pos_of_ne_zero fun hk0 => ?_
        subst hk0
        have := hstop (by omega)
        rw [show ({ c with row_index := c.row_index + 0 } : Cursor R) = c from rfl, hmin next hnext] at this
        exact Bool.noConfusion this
      refine ih (hinv.take hsorted hpop hk hbelow) ?_
      rw [length_remaining_take]
      omega

end Invariant

section Exact

variable [Std.TransCmp (RowOrd.cmp : Item → Item → Ordering)]

theorem merge_indices_inv {blocks : List R} (hne : ∀ r ∈ blocks, 0 < Rows.len r)
    (hsorted : ∀ r ∈ blocks, Rows.Sorted r) {fuel : Nat} (hfuel : (all_indices blocks).length + 2 ≤ fuel) :
    ∃ output_indices, merge_indices fuel blocks = some output_indices ∧ MergeInv blocks [] output_indices := by
  have hinv := MergeInv.init hne
  have hrows : ((init_heap blocks).flatMap Cursor.remaining).length = (all_indices blocks).length := by
    simpa using hinv.perm.length_eq
  exact hinv.drain_heap_eq hsorted (by omega)

theorem sort_merge_exact (blocks : List R) (hne : ∀ r ∈ blocks, 0 < Rows.len r)
    (hsorted : ∀ r ∈ blocks, Rows.Sorted r) (fuel : Nat) (hfuel : (all_indices blocks).length + 2 ≤ fuel) :
    ∃ output_indices, merge_indices fuel blocks = some output_indices ∧
      output_indices.Perm (all_indices blocks) ∧
      (output_indices.filterMap (row_at blocks)).Pairwise (fun a b => (RowOrd.cmp a b).isLE) ∧
      output_indices.Pairwise fun p q => p.1 = q.1 → p.2 < q.2 := by
  obtain ⟨out, hout, hinv⟩ := merge_indices_inv hne hsorted hfuel
  exact ⟨out, hout, hinv.perm_all, hinv.sorted, hinv.in_order⟩

theorem sort_merge_exact_two_blocks :
    ∃ output_indices, merge_indices 5 [(⟨[[1], [3]]⟩ : StringColumn), ⟨[[2]]⟩] = some output_indices ∧
      output_indices.Perm (all_indices [(⟨[[1], [3]]⟩ : StringColumn), ⟨[[2]]⟩]) ∧
      (output_indices.filterMap (row_at [(⟨[[1], [3]]⟩ : StringColumn), ⟨[[2]]⟩])).Pairwise
        (fun a b => (RowOrd.cmp a b).isLE) ∧
      output_indices.Pairwise fun p q => p.1 = q.1 → p.2 < q.2 :=
  sort_merge_exact ([⟨[[1], [3]]⟩, ⟨[[2]]⟩] : List StringColumn) (by decide) (by decide) 5 (by decide)

example : merge_indices 5 [(⟨[[1], [3]]⟩ : StringColumn), ⟨[[2]]⟩] = some [(0, 0), (1, 0), (0, 1)] := by decide

-- equal rows of two blocks are not ordered by block: block 1 is drained whole before block 0
example : merge_indices 5 [(⟨[[5]]⟩ : StringColumn), ⟨[[3], [5]]⟩] = some [(1, 0), (1, 1), (0, 0)] := by decide

end Exact

end Databend.Sort
