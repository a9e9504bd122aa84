import Mathlib
import Databend.Sort.SortMerge

namespace Databend.Sort

variable {R Item : Type} [Rows R Item] [RowOrd Item]

section Slices

def usize_max : Nat := 2 ^ 64 - 1

-- `usize::div_ceil`, whose `/` panics on a zero divisor
def div_ceil (lhs rhs : Nat) : Option Nat :=
  if rhs = 0 then none else some (lhs / rhs + if lhs % rhs > 0 then 1 else 0)

-- `merge_slices` is kept last slice first; a row of the last slice's block lengthens it
def push_merge_slice : List (Nat × Nat × Nat) → Nat × Nat → List (Nat × Nat × Nat)
  | (b, r, n) :: rest, (block_idx, row_idx) =>
      if block_idx = b then (b, r, n + 1) :: rest else (block_idx, row_idx, 1) :: (b, r, n) :: rest
  | [], (block_idx, row_idx) => [(block_idx, row_idx, 1)]

-- the merge slices of output block `i`; `output_indices[start]` panics past the end
def merge_slices (output_indices : List (Nat × Nat)) (block_size i : Nat) : Option (List (Nat × Nat × Nat)) :=
  let start := i * block_size
  let end_ := min (start + block_size) output_indices.length
  match output_indices[start]? with
  | none => none
  | some (block_idx, row_idx) =>
      some (((output_indices.take end_).drop (start + 1)).foldl push_merge_slice [(block_idx, row_idx, 1)]).reverse

-- the loop of `take_column_by_slices_limit`: each slice gives at most `remain` rows, and the loop
-- ends when none remain
def take_slices : List (Nat × Nat × Nat) → Nat → List (Nat × Nat)
  | [], _ => []
  | (index, start, len) :: slices, remain =>
      let len := min len remain
      let remain := remain - len
      (List.range' start len).map (index, ·) ++ if remain = 0 then [] else take_slices slices remain

def take_column_by_slices_limit (slices : List (Nat × Nat × Nat)) (limit : Option Nat) : List (Nat × Nat) :=
  take_slices slices (min (limit.getD usize_max) (slices.map fun s => s.2.2).sum)

-- the column taken and the row count of the block built
def take_by_slices_limit_from_blocks (blocks : List R) (slices : List (Nat × Nat × Nat)) (limit : Option Nat) :
    List (Nat × Nat) × Nat :=
  let total_num_rows := (blocks.map Rows.len).sum
  let result_size := (slices.map fun s => s.2.2).sum
  let result_size := min total_num_rows (min result_size (limit.getD result_size))
  (take_column_by_slices_limit slices limit, result_size)

-- steps 1 to 3 of `compact_final`, on its non-empty blocks
def compact_final_blocks (fuel block_size : Nat) (blocks : List R) : Option (List (List (Nat × Nat) × Nat)) := do
  let output_size := (blocks.map Rows.len).sum
  let output_block_num ← div_ceil output_size block_size
  let output_indices ← merge_indices fuel blocks
  (List.range output_block_num).mapM fun i => do
    let merge_slices ← merge_slices output_indices block_size i
    pure (take_by_slices_limit_from_blocks blocks merge_slices none)

-- `compact_final` without `gen_order_col` and the aborting checks: no row gives no block, a single
-- non-empty block is returned as it is, and otherwise steps 1 to 3 run on the non-empty blocks
def compact_final (fuel block_size : Nat) (blocks : List R) : Option (List (List (Nat × Nat) × Nat)) :=
  if blocks.isEmpty then some []
  else if (blocks.map Rows.len).sum = 0 then some []
  else
    match blocks.filter (fun b => Rows.len b != 0) with
    | [b] => some [((List.range (Rows.len b)).map (0, ·), Rows.len b)]
    | blocks => compact_final_blocks fuel block_size blocks

theorem sum_len_filter (blocks : List R) :
    ((blocks.filter fun b => Rows.len b != 0).map Rows.len).sum = (blocks.map Rows.len).sum := by
  induction blocks with
  | nil => rfl
  | cons b bs ih => by_cases h : Rows.len b = 0 <;> simp [List.filter_cons, h, ih]

theorem compact_final_eq (fuel block_size : Nat) (blocks : List R) :
    compact_final fuel block_size blocks =
      match blocks.filter (fun b => Rows.len b != 0) with
      | [] => some []
      | [b] => some [((List.range (Rows.len b)).map (0, ·), Rows.len b)]
      | blocks => compact_final_blocks fuel block_size blocks := by
  have hsum := sum_len_filter blocks
  unfold compact_final
  split_ifs with hnil h0
  · rw [List.isEmpty_iff.mp hnil]
    rfl
  · -- no row: no block is kept
    have hf : blocks.filter (fun b => Rows.len b != 0) = [] := by
      rw [List.filter_eq_nil_iff]
      intro b hb
      have := List.le_sum_of_mem (List.mem_map_of_mem (f := Rows.len) hb)
      simp only [bne_iff_ne, ne_eq, decide_not, Bool.not_eq_true', decide_eq_false_iff_not, not_not]
      omega
    rw [hf]
  · -- some row: some block is kept
    cases hf : blocks.filter (fun b => Rows.len b != 0) with
    | nil =>
        rw [hf, List.map_nil, List.sum_nil] at hsum
        omega
    | cons b bs => cases bs <;> rfl

end Slices

section SliceRows

-- the rows a list of merge slices stands for
def slice_rows (slices : List (Nat × Nat × Nat)) : List (Nat × Nat) :=
  slices.flatMap fun s => (List.range' s.2.1 s.2.2).map (s.1, ·)

@[simp] theorem slice_rows_nil : slice_rows [] = [] := rfl

@[simp] theorem slice_rows_cons (s : Nat × Nat × Nat) (slices : List (Nat × Nat × Nat)) :
    slice_rows (s :: slices) = (List.range' s.2.1 s.2.2).map (s.1, ·) ++ slice_rows slices := rfl

@[simp] theorem slice_rows_append (s t : List (Nat × Nat × Nat)) :
    slice_rows (s ++ t) = slice_rows s ++ slice_rows t := List.flatMap_append

theorem length_slice_rows (slices : List (Nat × Nat × Nat)) :
    (slice_rows slices).length = (slices.map fun s => s.2.2).sum := by
  induction slices with
  | nil => rfl
  | cons s slices ih => simp [ih]

theorem take_slices_sum (slices : List (Nat × Nat × Nat)) :
    take_slices slices (slices.map fun s => s.2.2).sum = slice_rows slices := by
  induction slices with
  | nil => rfl
  | cons s slices ih =>
    obtain ⟨index, start, len⟩ := s
    have hmin : min len (len + (slices.map fun s => s.2.2).sum) = len := by omega
    have hrem : len + (slices.map fun s => s.2.2).sum - len = (slices.map fun s => s.2.2).sum := by omega
    simp only [List.map_cons, List.sum_cons, take_slices, hmin, hrem, slice_rows_cons]
    split
    · next h =>
      rw [List.eq_nil_of_length_eq_zero ((length_slice_rows slices).trans h)]
    · rw [ih]

omit [RowOrd Item] in
theorem take_by_slices_none (blocks : List R) (slices : List (Nat × Nat × Nat))
    (hmax : (slice_rows slices).length ≤ usize_max) (htotal : (slice_rows slices).length ≤ (blocks.map Rows.len).sum) :
    take_by_slices_limit_from_blocks blocks slices none = (slice_rows slices, (slice_rows slices).length) := by
  rw [length_slice_rows] at hmax htotal ⊢
  simp only [take_by_slices_limit_from_blocks, take_column_by_slices_limit, Option.getD_none,
    Nat.min_eq_right hmax, take_slices_sum, min_self, Nat.min_eq_right htotal]

end SliceRows

section Window

-- two positions one after the other in `output_indices`: a row of the same block is the next row
def next_row (p q : Nat × Nat) : Prop := p.1 = q.1 → q.2 = p.2 + 1

theorem slice_rows_foldl (l : List (Nat × Nat)) (b r n : Nat) (rest : List (Nat × Nat × Nat))
    (hl : ((b, r + n) :: l).IsChain next_row) :
    slice_rows (l.foldl push_merge_slice ((b, r, n + 1) :: rest)).reverse =
      slice_rows ((b, r, n + 1) :: rest).reverse ++ l := by
  induction l generalizing b r n rest with
  | nil => simp
  | cons p l ih =>
    obtain ⟨pb, pr⟩ := p
    obtain ⟨hp, hl'⟩ := List.isChain_cons_cons.mp hl
    rw [List.foldl_cons, push_merge_slice]
    by_cases hb : pb = b
    · -- the row continues the last slice
      subst hb
      have hr : pr = r + n + 1 := hp rfl
      subst hr
      rw [if_pos rfl, ih pb r (n + 1) rest hl']
      simp [List.range'_concat, Nat.add_assoc]
    · -- the row starts a slice of its own
      rw [if_neg hb, ih pb pr 0 ((b, r, n + 1) :: rest) hl']
      simp

theorem merge_slices_eq {output_indices : List (Nat × Nat)} (hchain : output_indices.IsChain next_row)
    {block_size i : Nat} (hbs : 0 < block_size) (hstart : i * block_size < output_indices.length) :
    ∃ slices, merge_slices output_indices block_size i = some slices ∧
      slice_rows slices = (output_indices.drop (i * block_size)).take block_size := by
  have hlen : i * block_size < (output_indices.take (min (i * block_size + block_size) output_indices.length)).length := by
    rw [List.length_take]
    omega
  -- the rows `take(end).skip(start)` goes over are the window of `block_size` rows from `start`
  have hwin : (output_indices.take (min (i * block_size + block_size) output_indices.length)).drop (i * block_size) =
      (output_indices.drop (i * block_size)).take block_size := by
    rw [List.drop_take, List.take_eq_take_iff, List.length_drop]
    omega
  have hcons := List.drop_eq_getElem_cons hlen
  rw [List.getElem_take] at hcons
  have hchain' := hcons ▸ (hchain.take _).drop (i * block_size)
  have hget := List.getElem?_eq_getElem hstart
  generalize output_indices[i * block_size] = p at hcons hchain' hget
  obtain ⟨pb, pr⟩ := p
  simp only [merge_slices, hget, Option.some.injEq, exists_eq_left']
  rw [← hwin, hcons, slice_rows_foldl _ pb pr 0 [] hchain']
  simp

end Window

section Chain

omit [RowOrd Item] in
theorem mem_all_indices {blocks : List R} {p : Nat × Nat} :
    p ∈ all_indices blocks ↔ ∃ r, blocks[p.1]? = some r ∧ p.2 < Rows.len r := by
  rw [all_indices, List.mem_flatMap]
  constructor
  · rintro ⟨⟨rows, i⟩, hmem, hp⟩
    obtain ⟨j, hj, rfl⟩ := List.mem_map.mp hp
    exact ⟨rows, List.mem_zipIdx_iff_getElem?.mp hmem, List.mem_range.mp hj⟩
  · rintro ⟨r, hr, hlt⟩
    exact ⟨(r, p.1), List.mem_zipIdx_iff_getElem?.mpr hr, List.mem_map.mpr ⟨p.2, List.mem_range.mpr hlt, rfl⟩⟩

omit [RowOrd Item] in
theorem length_all_indices (blocks : List R) : (all_indices blocks).length = (blocks.map Rows.len).sum := by
  have hfst : (blocks.zipIdx.map fun p => Rows.len p.1) = (blocks.zipIdx.map Prod.fst).map Rows.len := by
    rw [List.map_map]
    rfl
  simp only [all_indices, List.length_flatMap, List.length_map, List.length_range]
  rw [hfst, List.zipIdx_map_fst]

omit [RowOrd Item] in
theorem next_row_chain {blocks : List R} {out : List (Nat × Nat)} (hperm : out.Perm (all_indices blocks))
    (hord : out.Pairwise fun p q => p.1 = q.1 → p.2 < q.2) : out.IsChain next_row := by
  rw [List.isChain_iff_forall_rel_of_append_cons_cons]
  rintro ⟨pb, pr⟩ ⟨qb, qr⟩ A B rfl (hb : pb = qb)
  subst hb
  rw [List.pairwise_append, List.pairwise_cons, List.pairwise_cons] at hord
  obtain ⟨-, ⟨hp, hq, -⟩, hA⟩ := hord
  have hlt : pr < qr := hp (pb, qr) List.mem_cons_self rfl
  by_contra hne
  obtain ⟨r, hr, hqr⟩ := mem_all_indices.mp (hperm.subset (by simp) : (pb, qr) ∈ all_indices blocks)
  -- the row after `pr` is listed somewhere, and every place contradicts the order
  have hx : (pb, pr + 1) ∈ A ++ (pb, pr) :: (pb, qr) :: B :=
    hperm.symm.subset (mem_all_indices.mpr ⟨r, hr, by dsimp only at hqr ⊢; omega⟩)
  rcases List.mem_append.mp hx with hx | hx
  · have := hA _ hx (pb, pr) List.mem_cons_self rfl
    dsimp only at this
    omega
  rcases List.mem_cons.mp hx with hx | hx
  · simp at hx
  rcases List.mem_cons.mp hx with hx | hx
  · simp only [Prod.mk.injEq, true_and] at hx
    omega
  · have := hq _ hx rfl
    dsimp only at this
    omega

end Chain

section Blocks

theorem div_ceil_eq {lhs rhs : Nat} (h : 0 < rhs) :
    div_ceil lhs rhs = some (lhs / rhs + if lhs % rhs > 0 then 1 else 0) :=
  if_neg (Nat.pos_iff_ne_zero.mp h)

theorem mul_lt_of_lt_div_ceil {a b i : Nat} (hb : 0 < b) (hi : i < a / b + if a % b > 0 then 1 else 0) :
    i * b < a := by
  have hdm := Nat.div_add_mod' a b
  split_ifs at hi with hmod
  · have := Nat.mul_le_mul_right b (show i ≤ a / b by omega)
    omega
  · have := Nat.mul_le_mul_right b (show i + 1 ≤ a / b by omega)
    rw [Nat.add_mul, Nat.one_mul] at this
    omega

theorem le_div_ceil_mul {a b : Nat} (hb : 0 < b) : a ≤ (a / b + if a % b > 0 then 1 else 0) * b := by
  have hdm := Nat.div_add_mod' a b
  have hlt := Nat.mod_lt a hb
  split_ifs with hmod
  · rw [Nat.add_mul, Nat.one_mul]
    omega
  · rw [Nat.add_zero]
    omega

theorem flatten_chunks {α : Type} (l : List α) (b n : Nat) :
    ((List.range n).map fun i => (l.drop (i * b)).take b).flatten = l.take (n * b) := by
  induction n with
  | zero => simp
  | succ n ih =>
    rw [List.range_succ, List.map_append, List.flatten_append, ih, List.map_singleton, List.flatten_singleton,
      Nat.succ_mul, List.take_add]

theorem mapM_eq_some {α β : Type} {f : α → Option β} {g : α → β} :
    ∀ {l : List α}, (∀ a ∈ l, f a = some (g a)) → l.mapM f = some (l.map g)
  | [], _ => rfl
  | a :: l, h => by
    rw [List.mapM_cons, h a List.mem_cons_self, mapM_eq_some fun x hx => h x (List.mem_cons_of_mem a hx)]
    rfl

end Blocks

section Exact

variable [Std.TransCmp (RowOrd.cmp : Item → Item → Ordering)]

theorem compact_final_blocks_eq {blocks : List R} (hne : ∀ r ∈ blocks, 0 < Rows.len r)
    (hsorted : ∀ r ∈ blocks, Rows.Sorted r) {fuel : Nat} (hfuel : (all_indices blocks).length + 2 ≤ fuel)
    {block_size : Nat} (hbs : 0 < block_size) (hbs_max : block_size ≤ usize_max) :
    ∃ out, MergeInv blocks [] out ∧
      compact_final_blocks fuel block_size blocks =
        some ((List.range (out.length / block_size + if out.length % block_size > 0 then 1 else 0)).map fun i =>
          ((out.drop (i * block_size)).take block_size, ((out.drop (i * block_size)).take block_size).length)) := by
  obtain ⟨out, hout, hinv⟩ := merge_indices_inv hne hsorted hfuel
  have hperm := hinv.perm_all
  have hchain := next_row_chain hperm hinv.in_order
  have hsize : (blocks.map Rows.len).sum = out.length := by rw [← length_all_indices, hperm.length_eq]
  refine ⟨out, hinv, ?_⟩
  simp only [compact_final_blocks, hsize, div_ceil_eq hbs, hout, Option.bind_eq_bind, Option.bind_some]
  refine mapM_eq_some fun i hi => ?_
  obtain ⟨slices, hms, hrows⟩ := merge_slices_eq hchain hbs (mul_lt_of_lt_div_ceil hbs (List.mem_range.mp hi))
  have hwin : ((out.drop (i * block_size)).take block_size).length ≤ block_size := List.length_take_le _ _
  have hwin' : ((out.drop (i * block_size)).take block_size).length ≤ out.length := by
    rw [List.length_take, List.length_drop]
    omega
  rw [hms, Option.bind_some, take_by_slices_none blocks slices (hrows ▸ hwin.trans hbs_max)
    (hrows ▸ hsize ▸ hwin'), hrows]
  rfl

theorem compact_final_exact (blocks : List R) (hne : ∀ r ∈ blocks, 0 < Rows.len r)
    (hsorted : ∀ r ∈ blocks, Rows.Sorted r) (fuel : Nat) (hfuel : (all_indices blocks).length + 2 ≤ fuel)
    (block_size : Nat) (hbs : 0 < block_size) (hbs_max : block_size ≤ usize_max) :
    ∃ output_blocks, compact_final_blocks fuel block_size blocks = some output_blocks ∧
      (output_blocks.map Prod.fst).flatten.Perm (all_indices blocks) ∧
      ((output_blocks.map Prod.fst).flatten.filterMap (row_at blocks)).Pairwise (fun a b => (RowOrd.cmp a b).isLE) ∧
      (∀ b ∈ output_blocks, b.2 = b.1.length ∧ 0 < b.1.length ∧ b.1.length ≤ block_size) ∧
      ∀ b ∈ output_blocks.dropLast, b.1.length = block_size := by
  obtain ⟨out, hinv, heq⟩ := compact_final_blocks_eq hne hsorted hfuel hbs hbs_max
  have hn := le_div_ceil_mul (a := out.length) hbs
  have hflat : (((List.range (out.length / block_size + if out.length % block_size > 0 then 1 else 0)).map
      fun i => ((out.drop (i * block_size)).take block_size, ((out.drop (i * block_size)).take block_size).length)).map
        Prod.fst).flatten = out := by
    rw [List.map_map, Function.comp_def, flatten_chunks, List.take_of_length_le hn]
  refine ⟨_, heq, ?_, ?_, ?_, ?_⟩
  · rw [hflat]
    exact hinv.perm_all
  · rw [hflat]
    exact hinv.sorted
  · intro b hb
    obtain ⟨i, hi, rfl⟩ := List.mem_map.mp hb
    have := mul_lt_of_lt_div_ceil hbs (List.mem_range.mp hi)
    refine ⟨rfl, ?_, List.length_take_le _ _⟩
    rw [List.length_take, List.length_drop]
    omega
  · -- every block but the last ends at most at the end of `output_indices`
    generalize hN : out.length / block_size + (if out.length % block_size > 0 then 1 else 0) = N at hn
    cases N with
    | zero => simp
    | succ N =>
      rw [List.range_succ, List.map_append, List.map_singleton, List.dropLast_concat]
      intro b hb
      obtain ⟨i, hi, rfl⟩ := List.mem_map.mp hb
      have := mul_lt_of_lt_div_ceil (i := i + 1) hbs (by rw [hN]; have := List.mem_range.mp hi; omega)
      simp only [List.length_take, List.length_drop]
      rw [Nat.add_mul, Nat.one_mul] at this
      omega

theorem compact_final_exact_two_blocks :
    ∃ output_blocks, compact_final_blocks 5 2 [(⟨[[1], [3]]⟩ : StringColumn), ⟨[[2]]⟩] = some output_blocks ∧
      (output_blocks.map Prod.fst).flatten.Perm (all_indices [(⟨[[1], [3]]⟩ : StringColumn), ⟨[[2]]⟩]) ∧
      ((output_blocks.map Prod.fst).flatten.filterMap (row_at [(⟨[[1], [3]]⟩ : StringColumn), ⟨[[2]]⟩])).Pairwise
        (fun a b => (RowOrd.cmp a b).isLE) ∧
      (∀ b ∈ output_blocks, b.2 = b.1.length ∧ 0 < b.1.length ∧ b.1.length ≤ 2) ∧
      ∀ b ∈ output_blocks.dropLast, b.1.length = 2 :=
  compact_final_exact ([⟨[[1], [3]]⟩, ⟨[[2]]⟩] : List StringColumn) (by decide) (by decide) 5 (by decide) 2
    (by decide) (by decide)

example : compact_final_blocks 5 2 [(⟨[[1], [3]]⟩ : StringColumn), ⟨[[2]]⟩] =
    some [([(0, 0), (1, 0)], 2), ([(0, 1)], 1)] := by decide

end Exact

end Databend.Sort
