import Databend.HashJoin.ProbeLoop

namespace Databend.HashJoin

open Databend.Hashtable Buffer

-- the variables of the loop of `left_semi_anti_join`
structure SemiProbe where
  matched_num : Nat
  probe_indexes : List UInt32
  result_blocks : List (List UInt32)

section NoConjunct

variable {K : Type} [DecidableEq K]

def left_semi_anti_row (semi : Bool) (max_block_size : Nat) (from_correlated_subquery : Bool)
    (valids : Option (List Bool)) (i : Nat) (key : K) (ptr : List (RawEntry K)) (st : SemiProbe) : SemiProbe :=
  let contains := if probe_row_valid from_correlated_subquery valids i then next_contains key ptr else false
  if contains = semi then
    let st := { st with
      probe_indexes := st.probe_indexes.set st.matched_num i.toUInt32
      matched_num := st.matched_num + 1 }
    if st.matched_num ≥ max_block_size then
      { st with result_blocks := st.result_blocks ++ [st.probe_indexes], matched_num := 0 }
    else st
  else st

def left_semi_anti_rows (semi : Bool) (max_block_size : Nat) (from_correlated_subquery : Bool)
    (valids : Option (List Bool)) : Nat → List (K × List (RawEntry K)) → SemiProbe → SemiProbe
  | _, [], st => st
  | i, (key, ptr) :: rows, st =>
      left_semi_anti_rows semi max_block_size from_correlated_subquery valids (i + 1) rows
        (left_semi_anti_row semi max_block_size from_correlated_subquery valids i key ptr st)

def left_semi_anti_join (semi : Bool) (ps : ProbeState) (bufs : ProbeBuffers ps) (from_correlated_subquery : Bool)
    (valids : Option (List Bool)) (keys : List K) (pointers : List (List (RawEntry K))) : List (List UInt32) :=
  let st := left_semi_anti_rows semi ps.max_block_size from_correlated_subquery valids 0 (keys.zip pointers)
    ⟨0, bufs.probe_indexes, []⟩
  if st.matched_num = 0 then st.result_blocks
  else st.result_blocks ++ [st.probe_indexes.take st.matched_num]

-- whether the probe row is kept
def semi_row_taken (semi : Bool) (from_correlated_subquery : Bool) (valids : Option (List Bool)) (i : Nat) (key : K)
    (ptr : List (RawEntry K)) : Bool :=
  (if probe_row_valid from_correlated_subquery valids i then next_contains key ptr else false) = semi

def semi_taken_rows (semi : Bool) (from_correlated_subquery : Bool) (valids : Option (List Bool))
    (rows : List (K × List (RawEntry K))) (i : Nat) : List UInt32 :=
  (rows.zipIdx i).filterMap fun r =>
    if semi_row_taken semi from_correlated_subquery valids r.2 r.1.1 r.1.2 then some r.2.toUInt32 else none

namespace SemiProbe

-- the buffer keeps its size and has room, every block so far is full, and the blocks and the
-- buffer's rows are the rows `out` kept so far
structure Holds (M : Nat) (st : SemiProbe) (out : List UInt32) : Prop where
  length : st.probe_indexes.length = M
  lt : st.matched_num < M
  full : ∀ b ∈ st.result_blocks, b.length = M
  rows : st.result_blocks.flatten ++ st.probe_indexes.take st.matched_num = out

end SemiProbe

theorem left_semi_anti_row_holds (semi : Bool) {M : Nat} (from_correlated_subquery : Bool)
    (valids : Option (List Bool)) (i : Nat) (key : K) (ptr : List (RawEntry K)) {st : SemiProbe}
    {out : List UInt32} (h : st.Holds M out) :
    (left_semi_anti_row semi M from_correlated_subquery valids i key ptr st).Holds M
      (out ++ if semi_row_taken semi from_correlated_subquery valids i key ptr then [i.toUInt32] else []) := by
  unfold left_semi_anti_row semi_row_taken
  generalize (if probe_row_valid from_correlated_subquery valids i then next_contains key ptr else false) = contains
  dsimp only
  by_cases htaken : contains = semi
  · have hlt := h.lt
    have hlen := h.length
    rw [if_pos htaken, if_pos (decide_eq_true htaken)]
    -- the row is written at `matched_num`
    have htake : (st.probe_indexes.set st.matched_num i.toUInt32).take (st.matched_num + 1) =
        st.probe_indexes.take st.matched_num ++ [i.toUInt32] :=
      @take_write_at _ st.probe_indexes st.matched_num [i.toUInt32] (by simp only [List.length_singleton]; omega)
    split
    · next hge =>
      have hfull : st.matched_num + 1 = M := by omega
      refine ⟨by rw [List.length_set, hlen], by dsimp only; omega, fun b hb => ?_, ?_⟩
      · rcases List.mem_append.mp hb with hb | hb
        · exact h.full b hb
        · rw [List.mem_singleton.mp hb, List.length_set, hlen]
      · rw [List.take_zero, List.append_nil, List.flatten_append, List.flatten_singleton, ← h.rows, List.append_assoc,
          ← htake, hfull, List.take_of_length_le (by rw [List.length_set, hlen])]
    · next hlt' =>
      refine ⟨by rw [List.length_set, hlen], by dsimp only at hlt' ⊢; omega, h.full, ?_⟩
      rw [htake, ← List.append_assoc, h.rows]
  · rw [if_neg htaken, if_neg (by simpa using htaken), List.append_nil]
    exact h

theorem left_semi_anti_rows_holds (semi : Bool) {M : Nat} (from_correlated_subquery : Bool)
    (valids : Option (List Bool)) (rows : List (K × List (RawEntry K))) (i : Nat) {st : SemiProbe}
    {out : List UInt32} (h : st.Holds M out) :
    (left_semi_anti_rows semi M from_correlated_subquery valids i rows st).Holds M
      (out ++ semi_taken_rows semi from_correlated_subquery valids rows i) := by
  induction rows generalizing i st out with
  | nil => simpa [left_semi_anti_rows, semi_taken_rows] using h
  | cons r rows ih =>
    obtain ⟨key, ptr⟩ := r
    have h' := ih (i + 1) (left_semi_anti_row_holds semi from_correlated_subquery valids i key ptr h)
    rw [left_semi_anti_rows, semi_taken_rows, List.zipIdx_cons, List.filterMap_cons, ← semi_taken_rows]
    split at h' <;> simp_all

theorem left_semi_anti_join_blocks (semi : Bool) (ps : ProbeState) (bufs : ProbeBuffers ps)
    (from_correlated_subquery : Bool) (valids : Option (List Bool)) (keys : List K)
    (pointers : List (List (RawEntry K))) :
    Chunked ps.max_block_size (left_semi_anti_join semi ps bufs from_correlated_subquery valids keys pointers) ∧
      (left_semi_anti_join semi ps bufs from_correlated_subquery valids keys pointers).flatten =
        semi_taken_rows semi from_correlated_subquery valids (keys.zip pointers) 0 := by
  have hM := ps.max_block_size_pos
  have h := left_semi_anti_rows_holds semi from_correlated_subquery valids (keys.zip pointers) 0
    (⟨bufs.probe_indexes_length, hM, by simp, by simp⟩ : SemiProbe.Holds ps.max_block_size ⟨0, bufs.probe_indexes, []⟩ [])
  rw [List.nil_append] at h
  unfold left_semi_anti_join
  generalize left_semi_anti_rows semi ps.max_block_size from_correlated_subquery valids 0 (keys.zip pointers)
    ⟨0, bufs.probe_indexes, []⟩ = st at h
  dsimp only
  split
  · next hzero =>
    have hrows := h.rows
    rw [hzero, List.take_zero, List.append_nil] at hrows
    exact ⟨Chunked.of_full hM h.full, hrows⟩
  · next hpos =>
    have hlt := h.lt
    refine ⟨Chunked.append_last h.full (List.ne_nil_of_length_pos (by rw [List.length_take, h.length]; omega))
      (by rw [List.length_take, h.length]; omega), ?_⟩
    rw [List.flatten_append, List.flatten_singleton, h.rows]

-- the probe rows a left semi (anti) join keeps: those whose key is probed and is (is not) the
-- key of a build row
def semi_anti_rows (semi : Bool) (from_correlated_subquery : Bool) (valids : Option (List Bool)) (keys : List K)
    (order : List (RowPtr × K)) : List UInt32 :=
  keys.zipIdx.filterMap fun r =>
    if (probe_row_valid from_correlated_subquery valids r.2 && order.any fun x => x.2 = r.1) = semi then
      some r.2.toUInt32
    else none

theorem semi_taken_rows_build (hash : K → UInt64) (row_num : Nat) (order : List (RowPtr × K)) (semi : Bool)
    (from_correlated_subquery : Bool) (valids : Option (List Bool)) (keys : List K) (i : Nat) :
    semi_taken_rows semi from_correlated_subquery valids
        (keys.zip (((HashJoinHashTable.with_build_row_num row_num).insert_rows hash order).probe (keys.map hash))) i =
      (keys.zipIdx i).filterMap fun r =>
        if (probe_row_valid from_correlated_subquery valids r.2 && order.any fun x => x.2 = r.1) = semi then
          some r.2.toUInt32
        else none := by
  induction keys generalizing i with
  | nil => rfl
  | cons key keys ih =>
    simp only [semi_taken_rows, HashJoinHashTable.probe, List.map_cons, List.zip_cons_cons, List.zipIdx_cons,
      List.filterMap_cons] at ih ⊢
    rw [ih]
    -- the key is found in its bucket exactly when a build row has it
    have hfound : next_contains key
        (((HashJoinHashTable.with_build_row_num row_num).insert_rows hash order).bucket (hash key)) =
        order.any fun x => x.2 = key := by
      rw [Bool.eq_iff_iff, next_contains_build, List.any_eq_true]
      simp
    simp only [semi_row_taken, hfound]
    congr 1
    by_cases hv : probe_row_valid from_correlated_subquery valids i = true <;> simp [hv]

theorem left_semi_anti_join_exact (semi : Bool) (hash : K → UInt64) (row_num : Nat) (order : List (RowPtr × K))
    (ps : ProbeState) (bufs : ProbeBuffers ps) (from_correlated_subquery : Bool) (valids : Option (List Bool))
    (keys : List K) :
    let t := (HashJoinHashTable.with_build_row_num row_num).insert_rows hash order
    Chunked ps.max_block_size
        (left_semi_anti_join semi ps bufs from_correlated_subquery valids keys (t.probe (keys.map hash))) ∧
      (left_semi_anti_join semi ps bufs from_correlated_subquery valids keys (t.probe (keys.map hash))).flatten =
        semi_anti_rows semi from_correlated_subquery valids keys order := by
  intro t
  have h := left_semi_anti_join_blocks semi ps bufs from_correlated_subquery valids keys (t.probe (keys.map hash))
  rw [semi_taken_rows_build] at h
  exact h

end NoConjunct

section Conjunct

-- keep the first row of each probe row that passes the predicate
def fill_null_for_semi_join (bm : List Bool) (probe_indexes : List UInt32) (row_state : List Nat) :
    List Bool × List Nat :=
  probe_indexes.zipIdx.foldl (fun (bm, row_state) (row, index) =>
    if bm.getD index false then
      if row_state.getD row.toNat 0 = 0 then (bm, row_state.set row.toNat 1)
      else (bm.set index false, row_state)
    else (bm, row_state)) (bm, row_state)

-- keep a probe row with no match left, and one whose last match fails the predicate while all
-- the matches before it did too
def fill_null_for_anti_join (bm : List Bool) (probe_indexes : List UInt32) (row_state : List Nat) :
    List Bool × List Nat :=
  probe_indexes.zipIdx.foldl (fun (bm, row_state) (row, index) =>
    let state := row_state.getD row.toNat 0
    if state = 0 then (bm.set index true, row_state)
    else if state = 1 then (bm.set index (!bm.getD index false), row_state.set row.toNat (state - 1))
    else if !bm.getD index false then (bm, row_state.set row.toNat (state - 1))
    else (bm.set index false, row_state)) (bm, row_state)

-- what `left_semi_anti_join_with_conjunct` keeps across blocks
structure SemiAntiState where
  row_state : List Nat
  result_blocks : List (List UInt32)

-- a probe row without match gets the dummy build row in an anti join, and its matches are counted
-- in its u32 counter, `row_state[i] += match_count as u32`, which wraps
def semi_anti_hooks (semi : Bool) (is_probe_projected : Bool) (other_predicate : UInt32 × RowPtr → Bool) :
    ProbeHooks SemiAntiState where
  unmatched := if semi then none else some ⟨0, 0⟩
  on_match s i match_count :=
    if semi then s else { s with row_state := s.row_state.modify i (fun c => (c + match_count) % 2 ^ 32) }
  emit s block :=
    let probe_indexes := block.map Prod.fst
    let bm := block.map other_predicate
    let (bm, row_state) :=
      if semi then fill_null_for_semi_join bm probe_indexes s.row_state
      else fill_null_for_anti_join bm probe_indexes s.row_state
    let result_block := (probe_indexes.zip bm).filterMap fun (row, keep) => if keep then some row else none
    ⟨row_state, if is_probe_projected && !result_block.isEmpty then s.result_blocks ++ [result_block]
      else s.result_blocks⟩

def left_semi_anti_join_with_conjunct {K : Type} [DecidableEq K] (semi : Bool) (ps : ProbeState)
    (bufs : ProbeBuffers ps) (is_probe_projected : Bool) (from_correlated_subquery : Bool) (valids : Option (List Bool))
    (other_predicate : UInt32 × RowPtr → Bool) (keys : List K) (pointers : List (List (RawEntry K))) :
    List (List UInt32) :=
  (probe_loop (semi_anti_hooks semi is_probe_projected other_predicate) ps bufs from_correlated_subquery valids
    keys pointers ⟨List.replicate keys.length 0, []⟩).result_blocks

end Conjunct

section Passes

def semi_bit (row : UInt32) (keep : Bool) (row_state : List Nat) : Bool × List Nat :=
  if keep && row_state.getD row.toNat 0 = 0 then (true, row_state.set row.toNat 1) else (false, row_state)

def anti_bit (row : UInt32) (keep : Bool) (row_state : List Nat) : Bool × List Nat :=
  let state := row_state.getD row.toNat 0
  if state = 0 then (true, row_state)
  else if state = 1 then (!keep, row_state.set row.toNat 0)
  else if keep then (false, row_state)
  else (false, row_state.set row.toNat (state - 1))

theorem set_getD_self (l : List Bool) (k : Nat) : l.set k (l.getD k false) = l := by
  by_cases hk : k < l.length
  · rw [List.getD_eq_getElem _ _ hk, List.set_getElem_self]
  · rw [List.set_eq_of_length_le (by omega)]

theorem fill_null_for_semi_join_eq {bm : List Bool} {probe_indexes : List UInt32}
    (h : bm.length = probe_indexes.length) (row_state : List Nat) :
    fill_null_for_semi_join bm probe_indexes row_state = scan_bits semi_bit (probe_indexes.zip bm) row_state := by
  have hfold := foldl_zipIdx_set semi_bit probe_indexes [] bm row_state h
  simp only [List.nil_append, List.length_nil] at hfold
  rw [fill_null_for_semi_join]
  refine Eq.trans ?_ hfold
  congr 1
  funext acc x
  obtain ⟨bm, row_state⟩ := acc
  obtain ⟨row, index⟩ := x
  cases hb : bm.getD index false
  · -- a row that fails the predicate stays dropped
    have hset : bm.set index false = bm := hb ▸ set_getD_self bm index
    simp only [semi_bit, hb, Bool.false_and, Bool.false_eq_true, ↓reduceIte, hset]
  · by_cases hs : row_state.getD row.toNat 0 = 0
    · have hset : bm.set index true = bm := hb ▸ set_getD_self bm index
      simp only [semi_bit, hb, hs, decide_true, Bool.and_self, ↓reduceIte, hset]
    · simp only [semi_bit, hb, hs, decide_false, Bool.and_false, Bool.false_eq_true, ↓reduceIte]

theorem fill_null_for_anti_join_eq {bm : List Bool} {probe_indexes : List UInt32}
    (h : bm.length = probe_indexes.length) (row_state : List Nat) :
    fill_null_for_anti_join bm probe_indexes row_state = scan_bits anti_bit (probe_indexes.zip bm) row_state := by
  have hfold := foldl_zipIdx_set anti_bit probe_indexes [] bm row_state h
  simp only [List.nil_append, List.length_nil] at hfold
  rw [fill_null_for_anti_join]
  refine Eq.trans ?_ hfold
  congr 1
  funext acc x
  obtain ⟨bm, row_state⟩ := acc
  obtain ⟨row, index⟩ := x
  by_cases hs0 : row_state.getD row.toNat 0 = 0
  · simp only [anti_bit, hs0, ↓reduceIte]
  · by_cases hs1 : row_state.getD row.toNat 0 = 1
    · simp only [anti_bit, hs1, Nat.one_ne_zero, ↓reduceIte, Nat.sub_self]
    · cases hb : bm.getD index false
      · -- a match that fails the predicate is counted off
        have hset : bm.set index false = bm := hb ▸ set_getD_self bm index
        simp only [anti_bit, hs0, hs1, hb, Bool.not_false, ↓reduceIte, Bool.false_eq_true, hset]
      · simp only [anti_bit, hs0, hs1, hb, Bool.not_true, ↓reduceIte, Bool.false_eq_true]

variable (f : UInt32 → Bool → List Nat → Bool × List Nat) (p : UInt32 × RowPtr → Bool)

-- the probe rows a pass over a block keeps, and the counters it leaves
def pass_kept (block : List (UInt32 × RowPtr)) (row_state : List Nat) : List UInt32 :=
  ((block.map Prod.fst).zip (scan_bits f ((block.map Prod.fst).zip (block.map p)) row_state).1).filterMap
    fun x => if x.2 then some x.1 else none

def pass_state (block : List (UInt32 × RowPtr)) (row_state : List Nat) : List Nat :=
  (scan_bits f ((block.map Prod.fst).zip (block.map p)) row_state).2

@[simp] theorem pass_kept_nil (row_state : List Nat) : pass_kept f p [] row_state = [] := rfl

@[simp] theorem pass_state_nil (row_state : List Nat) : pass_state f p [] row_state = row_state := rfl

theorem pass_kept_cons (x : UInt32 × RowPtr) (xs : List (UInt32 × RowPtr)) (row_state : List Nat) :
    pass_kept f p (x :: xs) row_state =
      (if (f x.1 (p x) row_state).1 then [x.1] else []) ++ pass_kept f p xs (f x.1 (p x) row_state).2 := by
  simp only [pass_kept, List.map_cons, List.zip_cons_cons, scan_bits, List.filterMap_cons]
  by_cases hf : (f x.1 (p x) row_state).1 = true <;> simp [hf]

theorem pass_state_cons (x : UInt32 × RowPtr) (xs : List (UInt32 × RowPtr)) (row_state : List Nat) :
    pass_state f p (x :: xs) row_state = pass_state f p xs (f x.1 (p x) row_state).2 := rfl

theorem pass_append (xs ys : List (UInt32 × RowPtr)) (row_state : List Nat) :
    pass_kept f p (xs ++ ys) row_state = pass_kept f p xs row_state ++ pass_kept f p ys (pass_state f p xs row_state) ∧
      pass_state f p (xs ++ ys) row_state = pass_state f p ys (pass_state f p xs row_state) := by
  induction xs generalizing row_state with
  | nil => exact ⟨rfl, rfl⟩
  | cons x xs ih =>
    rw [List.cons_append, pass_kept_cons, pass_kept_cons, pass_state_cons, pass_state_cons, (ih _).1, (ih _).2,
      List.append_assoc]
    exact ⟨rfl, rfl⟩

theorem getD_append_cons (pre rest : List Nat) (c : Nat) : (pre ++ c :: rest).getD pre.length 0 = c := by simp

theorem set_append_cons (pre rest : List Nat) (c v : Nat) : (pre ++ c :: rest).set pre.length v = pre ++ v :: rest := by
  simp

theorem modify_append_cons (pre rest : List Nat) (c : Nat) (f : Nat → Nat) :
    (pre ++ c :: rest).modify pre.length f = pre ++ f c :: rest := by
  induction pre with
  | nil => rfl
  | cons a pre ih => rw [List.cons_append, List.length_cons, List.modify_succ_cons, ih, List.cons_append]

theorem semi_bit_at {pre rest : List Nat} {r : UInt32} (hr : r.toNat = pre.length) (keep : Bool) (c : Nat) :
    semi_bit r keep (pre ++ c :: rest) =
      if keep && c = 0 then (true, pre ++ 1 :: rest) else (false, pre ++ c :: rest) := by
  simp only [semi_bit, hr, getD_append_cons, set_append_cons]

end Passes

section Emit

variable (p : UInt32 × RowPtr → Bool)

theorem semi_anti_emit (semi is_probe_projected : Bool) (s : SemiAntiState) (block : List (UInt32 × RowPtr)) :
    ((semi_anti_hooks semi is_probe_projected p).emit s block).row_state =
        pass_state (if semi then semi_bit else anti_bit) p block s.row_state ∧
      ((semi_anti_hooks semi is_probe_projected p).emit s block).result_blocks.flatten =
        s.result_blocks.flatten ++
          (if is_probe_projected then pass_kept (if semi then semi_bit else anti_bit) p block s.row_state else []) ∧
      ∀ b ∈ ((semi_anti_hooks semi is_probe_projected p).emit s block).result_blocks,
        b ∈ s.result_blocks ∨ (b ≠ [] ∧ b.length ≤ block.length) := by
  have hlen : (block.map p).length = (block.map Prod.fst).length := by simp
  have hfill : (if semi then fill_null_for_semi_join (block.map p) (block.map Prod.fst) s.row_state
      else fill_null_for_anti_join (block.map p) (block.map Prod.fst) s.row_state) =
      scan_bits (if semi then semi_bit else anti_bit) ((block.map Prod.fst).zip (block.map p)) s.row_state := by
    cases semi
    · exact fill_null_for_anti_join_eq hlen s.row_state
    · exact fill_null_for_semi_join_eq hlen s.row_state
  simp only [semi_anti_hooks, pass_kept, pass_state]
  rw [hfill]
  generalize scan_bits (if semi then semi_bit else anti_bit) ((block.map Prod.fst).zip (block.map p)) s.row_state = r
  obtain ⟨bm, row_state⟩ := r
  dsimp only
  -- the kept rows, as many as the block's rows at most
  generalize hkept : ((block.map Prod.fst).zip bm).filterMap (fun x => if x.2 = true then some x.1 else none) = kept
  have hkept_len : kept.length ≤ block.length := by
    rw [← hkept]
    exact (List.length_filterMap_le _ _).trans (by simp)
  refine ⟨rfl, ?_, fun b hb => ?_⟩
  · cases is_probe_projected <;> by_cases hne : kept.isEmpty = true <;> simp_all [List.isEmpty_iff]
  · split at hb
    · next hc =>
      rcases List.mem_append.mp hb with hb | hb
      · exact Or.inl hb
      · rw [List.mem_singleton.mp hb]
        have hne : kept ≠ [] := by simp only [Bool.and_eq_true, Bool.not_eq_true', List.isEmpty_eq_false_iff] at hc; exact hc.2
        exact Or.inr ⟨hne, hkept_len⟩
    · exact Or.inl hb

theorem foldl_on_entry_result_blocks (semi is_probe_projected : Bool) (es : List JoinEntry) (s : SemiAntiState) :
    (es.foldl (semi_anti_hooks semi is_probe_projected p).on_entry s).result_blocks = s.result_blocks := by
  induction es generalizing s with
  | nil => rfl
  | cons e es ih =>
    rw [List.foldl_cons, ih]
    unfold ProbeHooks.on_entry
    split
    · simp only [semi_anti_hooks]
      split <;> rfl
    · rfl

theorem foldl_semi_anti_blocks {M : Nat} (semi is_probe_projected : Bool) (bs : List (List JoinEntry))
    (s : SemiAntiState) (hbs : ∀ b ∈ bs, b.length ≤ M) (hs : ∀ b ∈ s.result_blocks, b ≠ [] ∧ b.length ≤ M) :
    ∀ b ∈ (bs.foldl (semi_anti_hooks semi is_probe_projected p).step s).result_blocks, b ≠ [] ∧ b.length ≤ M := by
  induction bs generalizing s with
  | nil => exact hs
  | cons b bs ih =>
    rw [List.foldl_cons]
    refine ih _ (fun c hc => hbs c (List.mem_cons_of_mem b hc)) fun c hc => ?_
    rw [ProbeHooks.step] at hc
    rcases (semi_anti_emit p semi is_probe_projected _ (b.map JoinEntry.row)).2.2 c hc with hc | ⟨hne, hle⟩
    · rw [foldl_on_entry_result_blocks] at hc
      exact hs c hc
    · exact ⟨hne, hle.trans (by rw [List.length_map]; exact hbs b List.mem_cons_self)⟩

end Emit

section SemiSpec

variable {K : Type} [DecidableEq K] (p : UInt32 × RowPtr → Bool)

theorem toNat_toUInt32_of_lt {i : Nat} (h : i < 2 ^ 32) : i.toUInt32.toNat = i := by
  rw [Nat.toUInt32_eq, UInt32.toNat_ofNat', Nat.mod_eq_of_lt h]

theorem semi_pass_kept_row {pre rest : List Nat} {r : UInt32} (hr : r.toNat = pre.length) {c : Nat} (hc : c ≠ 0)
    (bs : List RowPtr) :
    pass_kept semi_bit p (bs.map ((r, ·))) (pre ++ c :: rest) = [] ∧
      pass_state semi_bit p (bs.map ((r, ·))) (pre ++ c :: rest) = pre ++ c :: rest := by
  induction bs with
  | nil => exact ⟨rfl, rfl⟩
  | cons b bs ih =>
    rw [List.map_cons, pass_kept_cons, pass_state_cons, semi_bit_at hr]
    simpa [hc] using ih

theorem semi_pass_row {pre rest : List Nat} {r : UInt32} (hr : r.toNat = pre.length) (bs : List RowPtr) :
    pass_kept semi_bit p (bs.map ((r, ·))) (pre ++ 0 :: rest) = (if bs.any (fun b => p (r, b)) then [r] else []) ∧
      ∃ v, pass_state semi_bit p (bs.map ((r, ·))) (pre ++ 0 :: rest) = pre ++ v :: rest := by
  induction bs with
  | nil => exact ⟨rfl, 0, rfl⟩
  | cons b bs ih =>
    rw [List.map_cons, pass_kept_cons, pass_state_cons, List.any_cons, semi_bit_at hr]
    by_cases hp : p (r, b) = true
    · obtain ⟨hk, hs⟩ := semi_pass_kept_row p hr Nat.one_ne_zero bs
      rw [if_pos (show (p (r, b) && decide (0 = 0)) = true by simp [hp])]
      dsimp only
      rw [hk, hs]
      exact ⟨by simp [hp], 1, rfl⟩
    · simpa [hp] using ih

theorem semi_pass_rows (from_correlated_subquery : Bool) (valids : Option (List Bool))
    (rows : List (K × List (RawEntry K))) (pre post : List Nat) (hbound : pre.length + rows.length ≤ 2 ^ 32) :
    pass_kept semi_bit p ((join_entries none from_correlated_subquery valids rows pre.length).map JoinEntry.row)
        (pre ++ List.replicate rows.length 0 ++ post) =
      (rows.zipIdx pre.length).filterMap fun r =>
        if probe_row_valid from_correlated_subquery valids r.2 &&
            (chain_matches r.1.1 r.1.2).any (fun b => p (r.2.toUInt32, b)) then some r.2.toUInt32
        else none := by
  induction rows generalizing pre with
  | nil => rfl
  | cons r rows ih =>
    obtain ⟨key, ptr⟩ := r
    rw [List.length_cons] at hbound
    have hi : pre.length.toUInt32.toNat = pre.length := toNat_toUInt32_of_lt (by omega)
    have hst : pre ++ List.replicate (rows.length + 1) 0 ++ post = pre ++ 0 :: (List.replicate rows.length 0 ++ post) := by
      simp [List.replicate_succ]
    obtain ⟨hk, v, hs⟩ := @semi_pass_row p pre (List.replicate rows.length 0 ++ post) _ hi
      (if probe_row_valid from_correlated_subquery valids pre.length then chain_matches key ptr else [])
    -- the next rows start after this row's counter
    have hrest := ih (pre ++ [v]) (by rw [List.length_append, List.length_singleton]; omega)
    simp only [List.length_append, List.length_singleton, List.append_assoc, List.cons_append, List.nil_append]
      at hrest
    rw [List.length_cons, hst, join_entries, List.zipIdx_cons, List.flatMap_cons, ← join_entries, List.map_append,
      (pass_append _ _ _ _ _).1, map_row_entries_none, hk, hs, hrest, List.filterMap_cons]
    by_cases hv : probe_row_valid from_correlated_subquery valids pre.length = true
    · rw [if_pos hv, hv, Bool.true_and]
      by_cases hf : (chain_matches key ptr).any (fun b => p (pre.length.toUInt32, b)) = true
      · rw [if_pos hf, if_pos hf]
        rfl
      · rw [if_neg hf, if_neg hf]
        rfl
    · rw [if_neg hv, Bool.eq_false_iff.mpr hv, Bool.false_and]
      rfl

theorem semi_hooks_lawful (is_probe_projected : Bool) : (semi_anti_hooks true is_probe_projected p).Lawful :=
  ⟨fun _ _ _ _ => rfl⟩

theorem foldl_semi_step (is_probe_projected : Bool) (bs : List (List JoinEntry)) (s : SemiAntiState) :
    (bs.foldl (semi_anti_hooks true is_probe_projected p).step s).result_blocks.flatten =
      s.result_blocks.flatten ++
        (if is_probe_projected then pass_kept semi_bit p (bs.flatten.map JoinEntry.row) s.row_state else []) := by
  induction bs generalizing s with
  | nil => cases is_probe_projected <;> simp
  | cons b bs ih =>
    -- the semi join's `on_match` changes nothing
    have hcount : b.foldl (semi_anti_hooks true is_probe_projected p).on_entry s = s :=
      List.foldl_fixed' (fun e => by unfold ProbeHooks.on_entry; split <;> rfl) b
    obtain ⟨hrs, hflat, -⟩ := semi_anti_emit p true is_probe_projected s (b.map JoinEntry.row)
    rw [List.foldl_cons, ProbeHooks.step, hcount, ih, hflat, hrs, List.flatten_cons, List.map_append,
      (pass_append _ _ _ _ _).1]
    cases is_probe_projected <;> simp

theorem any_matches_build (hash : K → UInt64) (row_num : Nat) (order : List (RowPtr × K)) (key : K) (r : UInt32) :
    (chain_matches key (((HashJoinHashTable.with_build_row_num row_num).insert_rows hash order).bucket (hash key))).any
        (fun b => p (r, b)) =
      order.any fun x => x.2 = key && p (r, x.1) := by
  rw [chain_matches_build, Bool.eq_iff_iff]
  simp only [List.any_eq_true, List.mem_map, List.mem_reverse, List.mem_filter, decide_eq_true_eq, Bool.and_eq_true]
  constructor
  · rintro ⟨_, ⟨x, ⟨hx, hk⟩, rfl⟩, hp⟩
    exact ⟨x, hx, hk, hp⟩
  · rintro ⟨x, hx, hk, hp⟩
    exact ⟨x.1, ⟨x, ⟨hx, hk⟩, rfl⟩, hp⟩

theorem semi_conjunct_rows_build (hash : K → UInt64) (row_num : Nat) (order : List (RowPtr × K))
    (from_correlated_subquery : Bool) (valids : Option (List Bool)) (keys : List K) (i : Nat) :
    ((keys.zip (((HashJoinHashTable.with_build_row_num row_num).insert_rows hash order).probe (keys.map hash))).zipIdx
        i).filterMap (fun r =>
          if probe_row_valid from_correlated_subquery valids r.2 &&
              (chain_matches r.1.1 r.1.2).any (fun b => p (r.2.toUInt32, b)) then some r.2.toUInt32
          else none) =
      (keys.zipIdx i).filterMap fun r =>
        if probe_row_valid from_correlated_subquery valids r.2 &&
            order.any (fun x => x.2 = r.1 && p (r.2.toUInt32, x.1)) then some r.2.toUInt32
        else none := by
  induction keys generalizing i with
  | nil => rfl
  | cons key keys ih =>
    simp only [HashJoinHashTable.probe, List.map_cons, List.zip_cons_cons, List.zipIdx_cons,
      List.filterMap_cons] at ih ⊢
    rw [ih, any_matches_build]

theorem left_semi_join_with_conjunct_exact (hash : K → UInt64) (row_num : Nat) (order : List (RowPtr × K))
    (ps : ProbeState) (bufs : ProbeBuffers ps) (is_probe_projected from_correlated_subquery : Bool)
    (valids : Option (List Bool)) (keys : List K) (hkeys : keys.length ≤ 2 ^ 32) :
    let t := (HashJoinHashTable.with_build_row_num row_num).insert_rows hash order
    (∀ b ∈ left_semi_anti_join_with_conjunct true ps bufs is_probe_projected from_correlated_subquery valids p keys
        (t.probe (keys.map hash)), b ≠ [] ∧ b.length ≤ ps.max_block_size) ∧
      (left_semi_anti_join_with_conjunct true ps bufs is_probe_projected from_correlated_subquery valids p keys
          (t.probe (keys.map hash))).flatten =
        if is_probe_projected then
          keys.zipIdx.filterMap fun r =>
            if probe_row_valid from_correlated_subquery valids r.2 &&
                order.any (fun x => x.2 = r.1 && p (r.2.toUInt32, x.1)) then some r.2.toUInt32
            else none
        else [] := by
  intro t
  obtain ⟨bs, hchunk, hflat, hloop⟩ := probe_loop_refines (semi_hooks_lawful p is_probe_projected) ps bufs
    from_correlated_subquery valids keys (t.probe (keys.map hash)) ⟨List.replicate keys.length 0, []⟩
  unfold left_semi_anti_join_with_conjunct
  rw [hloop]
  refine ⟨foldl_semi_anti_blocks p true is_probe_projected bs _ hchunk.le (by simp), ?_⟩
  have hinit : List.replicate keys.length 0 = [] ++ List.replicate (keys.zip (t.probe (keys.map hash))).length 0 ++ [] := by
    simp [HashJoinHashTable.probe]
  rw [foldl_semi_step, hflat, show (semi_anti_hooks true is_probe_projected p).unmatched = none from rfl]
  dsimp only
  have h := semi_pass_rows p from_correlated_subquery valids (keys.zip (t.probe (keys.map hash))) [] []
    (by simpa [HashJoinHashTable.probe] using hkeys)
  rw [List.length_nil] at h
  rw [hinit, h, semi_conjunct_rows_build]
  rfl

theorem left_semi_join_with_conjunct_exact_two_keys :
    [5, 7, 5].length ≤ 2 ^ 32 ∧
      (left_semi_anti_join_with_conjunct true ⟨2, by decide⟩ (ProbeBuffers.create _) true false none
        (fun x => x.2.row_index = 1) [5, 7, 5]
        (((HashJoinHashTable.with_build_row_num 3).insert_rows (fun k : Nat => k.toUInt64)
          [(⟨0, 0⟩, 5), (⟨0, 1⟩, 5), (⟨0, 2⟩, 7)]).probe ([5, 7, 5].map fun k : Nat => k.toUInt64))).flatten =
        [0, 2] := by
  refine ⟨by decide, ?_⟩
  rw [(left_semi_join_with_conjunct_exact (fun x => x.2.row_index = 1) (fun k : Nat => k.toUInt64) 3
    [(⟨0, 0⟩, 5), (⟨0, 1⟩, 5), (⟨0, 2⟩, 7)] ⟨2, by decide⟩ (ProbeBuffers.create _) true false none [5, 7, 5]
    (by decide)).2]
  decide

end SemiSpec

end Databend.HashJoin
