import Databend.HashJoin.LeftMark
import Databend.Library.Buffer

namespace Databend.HashJoin

open Databend.Hashtable Buffer

-- the reusable buffers of a `ProbeState`, of `max_block_size` slots each
structure ProbeBuffers (ps : ProbeState) where
  probe_indexes : List UInt32
  build_indexes : List RowPtr
  probe_indexes_length : probe_indexes.length = ps.max_block_size
  build_indexes_length : build_indexes.length = ps.max_block_size

def ProbeBuffers.create (ps : ProbeState) : ProbeBuffers ps :=
  ⟨List.replicate ps.max_block_size 0, List.replicate ps.max_block_size ⟨0, 0⟩,
    List.length_replicate, List.length_replicate⟩

def probe_row_valid (from_correlated_subquery : Bool) (valids : Option (List Bool)) (i : Nat) : Bool :=
  from_correlated_subquery || valids.elim true fun v => v.getD i false

structure ProbeHooks (σ : Type) where
  unmatched : Option RowPtr
  on_match : σ → Nat → Nat → σ
  emit : σ → List (UInt32 × RowPtr) → σ

-- the variables of the loop
structure ProbeLoop (σ : Type) where
  matched_num : Nat
  probe_indexes : List UInt32
  build_indexes : List RowPtr
  acc : σ

section Loop

variable {K σ : Type} [DecidableEq K] (hooks : ProbeHooks σ)

namespace ProbeLoop

def push_matches (st : ProbeLoop σ) (i : Nat) (written : List RowPtr) : ProbeLoop σ :=
  { st with
    probe_indexes := write_at st.probe_indexes st.matched_num (List.replicate written.length i.toUInt32)
    build_indexes := write_at st.build_indexes st.matched_num written
    matched_num := st.matched_num + written.length }

-- the whole buffers, which are full, become a block
def emit_block (st : ProbeLoop σ) : ProbeLoop σ :=
  { st with acc := hooks.emit st.acc (st.probe_indexes.zip st.build_indexes), matched_num := 0 }

def finish (st : ProbeLoop σ) : σ :=
  if st.matched_num > 0 then
    hooks.emit st.acc ((st.probe_indexes.take st.matched_num).zip (st.build_indexes.take st.matched_num))
  else st.acc

end ProbeLoop

-- the inner loop for a probe row whose rows filled the buffers: resumed from where the last
-- `next_probe` stopped until the chain ends or the buffers are left with room
def probe_chain (max_block_size : Nat) (key : K) (i : Nat) (incomplete : List (RawEntry K)) (st : ProbeLoop σ) :
    ProbeLoop σ :=
  let st := st.emit_block hooks
  if incomplete = [] then st
  else
    match h : next_probe key incomplete st.matched_num max_block_size with
    | (written, incomplete') =>
        if hw : written = [] then st
        else
          let st := { st with acc := hooks.on_match st.acc i written.length }
          let st := st.push_matches i written
          if st.matched_num < max_block_size then st
          else probe_chain max_block_size key i incomplete' st
termination_by incomplete.length
decreasing_by
  have hlt := @next_probe_length_lt K _ key incomplete _ max_block_size (by rw [h]; exact hw)
  rw [h] at hlt
  exact hlt

def probe_row (max_block_size : Nat) (from_correlated_subquery : Bool) (valids : Option (List Bool)) (i : Nat)
    (key : K) (ptr : List (RawEntry K)) (st : ProbeLoop σ) : ProbeLoop σ :=
  let (written, incomplete) :=
    if probe_row_valid from_correlated_subquery valids i then next_probe key ptr st.matched_num max_block_size
    else ([], [])
  -- a probe row without match is skipped, or gets the dummy build row
  let copied :=
    if written = [] then hooks.unmatched.map fun dummy => (st, [dummy])
    else some ({ st with acc := hooks.on_match st.acc i written.length }, written)
  match copied with
  | none => st
  | some (st, written) =>
      let st := st.push_matches i written
      if st.matched_num ≥ max_block_size then probe_chain hooks max_block_size key i incomplete st else st

def probe_rows (max_block_size : Nat) (from_correlated_subquery : Bool) (valids : Option (List Bool)) :
    Nat → List (K × List (RawEntry K)) → ProbeLoop σ → ProbeLoop σ
  | _, [], st => st
  | i, (key, ptr) :: rows, st =>
      probe_rows max_block_size from_correlated_subquery valids (i + 1) rows
        (probe_row hooks max_block_size from_correlated_subquery valids i key ptr st)

def probe_loop (ps : ProbeState) (bufs : ProbeBuffers ps) (from_correlated_subquery : Bool)
    (valids : Option (List Bool)) (keys : List K) (pointers : List (List (RawEntry K))) (acc : σ) : σ :=
  (probe_rows hooks ps.max_block_size from_correlated_subquery valids 0 (keys.zip pointers)
    ⟨0, bufs.probe_indexes, bufs.build_indexes, acc⟩).finish hooks

end Loop

section Stream

-- a row of the join stream: a probe row, a build row, and whether the build row is a match or the
-- dummy of a probe row without match
structure JoinEntry where
  probe : Nat
  build : RowPtr
  matched : Bool
  deriving DecidableEq, Repr

def JoinEntry.row (e : JoinEntry) : UInt32 × RowPtr := (e.probe.toUInt32, e.build)

variable {K σ : Type} [DecidableEq K]

-- the rows of probe row `i`: one for each match of its key, in chain order, or the dummy
def row_entries (unmatched : Option RowPtr) (from_correlated_subquery : Bool) (valids : Option (List Bool))
    (i : Nat) (key : K) (ptr : List (RawEntry K)) : List JoinEntry :=
  let ms := if probe_row_valid from_correlated_subquery valids i then chain_matches key ptr else []
  if ms = [] then unmatched.toList.map fun dummy => ⟨i, dummy, false⟩ else ms.map fun p => ⟨i, p, true⟩

def join_entries (unmatched : Option RowPtr) (from_correlated_subquery : Bool) (valids : Option (List Bool))
    (rows : List (K × List (RawEntry K))) (i : Nat) : List JoinEntry :=
  (rows.zipIdx i).flatMap fun r => row_entries unmatched from_correlated_subquery valids r.2 r.1.1 r.1.2

theorem map_row_entries_none (from_correlated_subquery : Bool) (valids : Option (List Bool)) (i : Nat) (key : K)
    (ptr : List (RawEntry K)) :
    (row_entries none from_correlated_subquery valids i key ptr).map JoinEntry.row =
      (if probe_row_valid from_correlated_subquery valids i then chain_matches key ptr else []).map
        fun p => (i.toUInt32, p) := by
  unfold row_entries
  generalize (if probe_row_valid from_correlated_subquery valids i then chain_matches key ptr else []) = ms
  dsimp only
  split
  · next hms => rw [hms]; rfl
  · rw [List.map_map]
    rfl

namespace ProbeHooks

variable (hooks : ProbeHooks σ)

def on_entry (acc : σ) (e : JoinEntry) : σ := if e.matched then hooks.on_match acc e.probe 1 else acc

-- a block taken in: its matches counted, then the block
def step (acc : σ) (b : List JoinEntry) : σ := hooks.emit (b.foldl hooks.on_entry acc) (b.map JoinEntry.row)

-- counting matches in two parts counts them all
structure Lawful : Prop where
  on_match_add : ∀ acc i a b, hooks.on_match acc i (a + b) = hooks.on_match (hooks.on_match acc i a) i b

theorem Lawful.on_match_length {hooks : ProbeHooks σ} (h : hooks.Lawful) (i : Nat) {written : List RowPtr}
    (hne : written ≠ []) (acc : σ) :
    hooks.on_match acc i written.length = (written.map fun p => (⟨i, p, true⟩ : JoinEntry)).foldl hooks.on_entry acc := by
  induction written generalizing acc with
  | nil => exact absurd rfl hne
  | cons p rest ih =>
    have hfirst : hooks.on_entry acc ⟨i, p, true⟩ = hooks.on_match acc i 1 := if_pos rfl
    rw [List.map_cons, List.foldl_cons, hfirst]
    by_cases hr : rest = []
    · rw [hr]
      rfl
    · rw [List.length_cons, Nat.add_comm, h.on_match_add, ih hr]

theorem foldl_on_entry_unmatched (es : List JoinEntry) (hes : ∀ e ∈ es, e.matched = false) (acc : σ) :
    es.foldl hooks.on_entry acc = acc := by
  induction es generalizing acc with
  | nil => rfl
  | cons e es ih =>
    rw [List.foldl_cons, ih (fun e' he' => hes e' (List.mem_cons_of_mem e he'))]
    simp [on_entry, hes e List.mem_cons_self]

end ProbeHooks

end Stream

section Refinement

variable {K σ : Type} [DecidableEq K]

theorem next_probe_chain (key : K) {ptr : List (RawEntry K)} {occupied capacity : Nat} (hroom : occupied < capacity)
    {written : List RowPtr} {incomplete : List (RawEntry K)} (h : next_probe key ptr occupied capacity = (written, incomplete)) :
    chain_matches key ptr = written ++ chain_matches key incomplete ∧ written.length ≤ capacity - occupied ∧
      (written.length < capacity - occupied → chain_matches key incomplete = []) := by
  have hw : (chain_matches key ptr).take (capacity - occupied) = written := by rw [← next_probe_fst, h]
  by_cases hne : written = []
  · -- nothing copied although there was room: no match, and the walk returns the null pointer
    have hcm : chain_matches key ptr = [] := by
      rw [hne, List.take_eq_nil_iff] at hw
      exact hw.resolve_left (by omega)
    have hnil := next_probe_eq_nil key (Or.inl hcm : chain_matches key ptr = [] ∨ capacity ≤ occupied)
    rw [h, Prod.mk.injEq] at hnil
    rw [hcm, hne, hnil.2, chain_matches_nil]
    exact ⟨rfl, Nat.zero_le _, fun _ => rfl⟩
  · have hrest := next_probe_snd key (show (next_probe key ptr occupied capacity).1 ≠ [] by rw [h]; exact hne)
    rw [h] at hrest
    dsimp only at hrest
    refine ⟨by rw [hrest, ← hw, List.take_append_drop], by rw [← hw]; exact List.length_take_le _ _, fun hlt => ?_⟩
    rw [hrest, List.drop_eq_nil_iff]
    rw [← hw, List.length_take] at hlt
    omega

namespace ProbeLoop

variable (hooks : ProbeHooks σ)

def pending (st : ProbeLoop σ) : List (UInt32 × RowPtr) :=
  (st.probe_indexes.take st.matched_num).zip (st.build_indexes.take st.matched_num)

-- the loop has cut the full blocks `bs` from the stream and holds the rows `pend` in its buffers;
-- the accumulator has taken in the blocks and the matches of the rows it holds
structure Holds (M : Nat) (acc0 : σ) (st : ProbeLoop σ) (bs : List (List JoinEntry)) (pend : List JoinEntry) :
    Prop where
  probe_length : st.probe_indexes.length = M
  build_length : st.build_indexes.length = M
  le : st.matched_num ≤ M
  full : ∀ b ∈ bs, b.length = M
  pend_length : pend.length = st.matched_num
  pending : st.pending = pend.map JoinEntry.row
  acc : st.acc = pend.foldl hooks.on_entry (bs.foldl hooks.step acc0)

variable {hooks} {M : Nat} {acc0 : σ} {st : ProbeLoop σ} {bs : List (List JoinEntry)} {pend : List JoinEntry}

theorem Holds.push (h : st.Holds hooks M acc0 bs pend) (i : Nat) (m : Bool) {written : List RowPtr}
    (hroom : st.matched_num + written.length ≤ M) {acc : σ}
    (hacc : acc = (written.map fun p => (⟨i, p, m⟩ : JoinEntry)).foldl hooks.on_entry st.acc) :
    ({ st with acc := acc }.push_matches i written).Holds hooks M acc0 bs
      (pend ++ written.map fun p => (⟨i, p, m⟩ : JoinEntry)) := by
  have hp := h.probe_length
  have hb := h.build_length
  have hpend : ({ st with acc := acc }.push_matches i written).pending =
      st.pending ++ written.map fun p => (i.toUInt32, p) := by
    simp only [ProbeLoop.push_matches, ProbeLoop.pending]
    have htp := @take_write_at _ st.probe_indexes st.matched_num (List.replicate written.length i.toUInt32)
      (by rw [List.length_replicate]; omega)
    rw [List.length_replicate] at htp
    rw [htp, take_write_at (by omega), List.zip_append (by simp only [List.length_take]; omega),
      List.map_prod_right_eq_zip, List.map_const']
  refine ⟨by simp [ProbeLoop.push_matches, hp], by simp [ProbeLoop.push_matches, hb], hroom, h.full, ?_, ?_, ?_⟩
  · simp [ProbeLoop.push_matches, h.pend_length]
  · rw [hpend, h.pending, List.map_append, List.map_map]
    rfl
  · rw [List.foldl_append, ← h.acc]
    exact hacc

theorem Holds.emit_block (h : st.Holds hooks M acc0 bs pend) (hfull : st.matched_num = M) :
    (st.emit_block hooks).Holds hooks M acc0 (bs ++ [pend]) [] := by
  -- the full buffers are the rows held
  have hzip : st.probe_indexes.zip st.build_indexes = pend.map JoinEntry.row := by
    rw [← h.pending, ProbeLoop.pending, hfull, List.take_of_length_le h.probe_length.le,
      List.take_of_length_le h.build_length.le]
  refine ⟨h.probe_length, h.build_length, Nat.zero_le _, fun b hb => ?_, rfl,
    by simp [ProbeLoop.pending, ProbeLoop.emit_block], ?_⟩
  · rcases List.mem_append.mp hb with hb | hb
    · exact h.full b hb
    · rw [List.mem_singleton.mp hb, h.pend_length, hfull]
  · simp only [ProbeLoop.emit_block, List.foldl_nil, List.foldl_append, List.foldl_cons, ProbeHooks.step, hzip, h.acc]

theorem probe_chain_holds (hlaw : hooks.Lawful) (hM : 0 < M) (key : K) (i : Nat) (incomplete : List (RawEntry K))
    (h : st.Holds hooks M acc0 bs pend) (hfull : st.matched_num = M) :
    ∃ bs' pend', (probe_chain hooks M key i incomplete st).Holds hooks M acc0 bs' pend' ∧
      bs'.flatten ++ pend' = bs.flatten ++ pend ++ (chain_matches key incomplete).map (fun p => ⟨i, p, true⟩) ∧
      (probe_chain hooks M key i incomplete st).matched_num < M := by
  -- on the length of the chain, which every `next_probe` that copies something shortens
  induction hn : incomplete.length using Nat.strong_induction_on generalizing incomplete st bs pend with
  | _ n ih =>
  have he := h.emit_block hfull
  have hcut : (bs ++ [pend]).flatten ++ [] = bs.flatten ++ pend := by simp
  rw [probe_chain]
  split
  · next hnil =>
    rw [hnil, chain_matches_nil, List.map_nil, List.append_nil]
    exact ⟨_, _, he, hcut, hM⟩
  · split
    next written incomplete' hprobe =>
    have hprobe : next_probe key incomplete 0 M = (written, incomplete') := hprobe
    obtain ⟨hsplit, hlen, hend⟩ := next_probe_chain key hM hprobe
    rw [Nat.sub_zero] at hlen hend
    rw [hsplit, List.map_append, ← List.append_assoc, ← hcut]
    split
    · next hnil =>
      rw [hend (by rw [hnil]; exact hM), hnil, List.map_nil, List.append_nil, List.append_nil]
      exact ⟨_, _, he, rfl, hM⟩
    · next hne =>
      have hpush := he.push i true (show (st.emit_block hooks).matched_num + written.length ≤ M by
        simpa [ProbeLoop.emit_block] using hlen) (hlaw.on_match_length i hne _)
      dsimp only
      split
      · next hlt =>
        -- the chain ends inside the new block
        rw [hend (by simpa [ProbeLoop.push_matches, ProbeLoop.emit_block] using hlt), List.map_nil, List.append_nil]
        exact ⟨_, _, hpush, (List.append_assoc _ _ _).symm, hlt⟩
      · next hge =>
        have hfull' := hpush.le
        have hlt : incomplete'.length < n := by
          have := next_probe_length_lt key (show (next_probe key incomplete 0 M).1 ≠ [] by rw [hprobe]; exact hne)
          rw [hprobe] at this
          dsimp only at this
          omega
        obtain ⟨bs', pend', h', hcut', hlt'⟩ := ih _ hlt incomplete' hpush (by omega) rfl
        exact ⟨bs', pend', h', by rw [hcut']; simp only [List.append_assoc, List.nil_append], hlt'⟩

theorem push_then_chain (hlaw : hooks.Lawful) (hM : 0 < M) (key : K) (i : Nat) (incomplete : List (RawEntry K))
    (m : Bool) (h : st.Holds hooks M acc0 bs pend) {written : List RowPtr} (hroom : st.matched_num + written.length ≤ M)
    (hend : st.matched_num + written.length < M → chain_matches key incomplete = []) {acc : σ}
    (hacc : acc = (written.map fun p => (⟨i, p, m⟩ : JoinEntry)).foldl hooks.on_entry st.acc) :
    ∃ bs' pend', (if ({ st with acc := acc }.push_matches i written).matched_num ≥ M then
          probe_chain hooks M key i incomplete ({ st with acc := acc }.push_matches i written)
        else { st with acc := acc }.push_matches i written).Holds hooks M acc0 bs' pend' ∧
      bs'.flatten ++ pend' = bs.flatten ++ pend ++ written.map (fun p => ⟨i, p, m⟩) ++
        (chain_matches key incomplete).map (fun p => ⟨i, p, true⟩) ∧
      (if ({ st with acc := acc }.push_matches i written).matched_num ≥ M then
          probe_chain hooks M key i incomplete ({ st with acc := acc }.push_matches i written)
        else { st with acc := acc }.push_matches i written).matched_num < M := by
  have hpush := h.push i m hroom hacc
  split
  · next hge =>
    -- the buffers are full: the rest of the chain goes through the inner loop
    obtain ⟨bs', pend', h', hcut, hlt⟩ := probe_chain_holds hlaw hM key i incomplete hpush (by have := hpush.le; omega)
    exact ⟨bs', pend', h', by rw [hcut]; simp only [List.append_assoc], hlt⟩
  · next hlt =>
    have hlt' : st.matched_num + written.length < M := by simpa [ProbeLoop.push_matches] using hlt
    rw [hend hlt', List.map_nil, List.append_nil]
    exact ⟨bs, _, hpush, (List.append_assoc _ _ _).symm, by omega⟩

theorem probe_row_next (key : K) (ptr : List (RawEntry K)) (from_correlated_subquery : Bool)
    (valids : Option (List Bool)) (i : Nat) {occupied : Nat} (hroom : occupied < M) {written : List RowPtr}
    {incomplete : List (RawEntry K)}
    (h : (if probe_row_valid from_correlated_subquery valids i then next_probe key ptr occupied M else ([], [])) =
      (written, incomplete)) :
    (if probe_row_valid from_correlated_subquery valids i then chain_matches key ptr else []) =
        written ++ chain_matches key incomplete ∧
      written.length ≤ M - occupied ∧ (written.length < M - occupied → chain_matches key incomplete = []) := by
  split at h
  · next hv =>
    rw [if_pos hv]
    exact next_probe_chain key hroom h
  · next hv =>
    rw [if_neg hv]
    obtain ⟨rfl, rfl⟩ := Prod.mk.inj h
    exact ⟨rfl, Nat.zero_le _, fun _ => rfl⟩

theorem probe_row_holds (hlaw : hooks.Lawful) (hM : 0 < M) (from_correlated_subquery : Bool)
    (valids : Option (List Bool)) (i : Nat) (key : K) (ptr : List (RawEntry K))
    (h : st.Holds hooks M acc0 bs pend) (hlt : st.matched_num < M) :
    ∃ bs' pend', (probe_row hooks M from_correlated_subquery valids i key ptr st).Holds hooks M acc0 bs' pend' ∧
      bs'.flatten ++ pend' = bs.flatten ++ pend ++ row_entries hooks.unmatched from_correlated_subquery valids i key ptr ∧
      (probe_row hooks M from_correlated_subquery valids i key ptr st).matched_num < M := by
  unfold probe_row row_entries
  generalize hE : (if probe_row_valid from_correlated_subquery valids i then
    next_probe key ptr st.matched_num M else ([], [])) = r
  obtain ⟨written, incomplete⟩ := r
  obtain ⟨hsplit, hlen, hend⟩ := probe_row_next key ptr from_correlated_subquery valids i hlt hE
  dsimp only
  rw [hsplit]
  by_cases hw : written = []
  · -- no match: the row is skipped, or its dummy build row is copied
    have hrest : chain_matches key incomplete = [] := hend (by rw [hw, List.length_nil]; omega)
    rw [if_pos hw, hw, hrest, List.nil_append, if_pos rfl]
    cases hooks.unmatched with
    | none => exact ⟨bs, pend, h, by simp, hlt⟩
    | some dummy =>
      obtain ⟨bs', pend', h', hcut, hlt'⟩ := @push_then_chain K σ _ hooks M acc0 st bs pend hlaw hM key i
        incomplete false h [dummy] (by simp only [List.length_singleton]; omega) (fun _ => hrest) _ rfl
      rw [hrest, List.map_nil, List.append_nil] at hcut
      exact ⟨bs', pend', h', hcut, hlt'⟩
  · rw [if_neg hw, if_neg (by simp [hw])]
    obtain ⟨bs', pend', h', hcut, hlt'⟩ := push_then_chain hlaw hM key i incomplete true h
      (by omega) (fun hl => hend (by omega)) (hlaw.on_match_length i hw st.acc)
    exact ⟨bs', pend', h', by rw [hcut, List.map_append, List.append_assoc _ _ (List.map _ _)], hlt'⟩

theorem probe_rows_holds (hlaw : hooks.Lawful) (hM : 0 < M) (from_correlated_subquery : Bool)
    (valids : Option (List Bool)) (rows : List (K × List (RawEntry K))) (i : Nat)
    (h : st.Holds hooks M acc0 bs pend) (hlt : st.matched_num < M) :
    ∃ bs' pend', (probe_rows hooks M from_correlated_subquery valids i rows st).Holds hooks M acc0 bs' pend' ∧
      bs'.flatten ++ pend' = bs.flatten ++ pend ++ join_entries hooks.unmatched from_correlated_subquery valids rows i ∧
      (probe_rows hooks M from_correlated_subquery valids i rows st).matched_num < M := by
  induction rows generalizing i st bs pend with
  | nil => exact ⟨bs, pend, h, by simp [join_entries], hlt⟩
  | cons r rows ih =>
    obtain ⟨key, ptr⟩ := r
    obtain ⟨bs₁, pend₁, h₁, hcut₁, hlt₁⟩ := probe_row_holds hlaw hM from_correlated_subquery valids i key ptr h hlt
    obtain ⟨bs₂, pend₂, h₂, hcut₂, hlt₂⟩ := ih (i + 1) h₁ hlt₁
    refine ⟨bs₂, pend₂, h₂, ?_, hlt₂⟩
    rw [hcut₂, hcut₁]
    simp only [join_entries, List.zipIdx_cons, List.flatMap_cons, List.append_assoc]

theorem Holds.finish (h : st.Holds hooks M acc0 bs pend) (hM : 0 < M) :
    ∃ bs', Chunked M bs' ∧ bs'.flatten = bs.flatten ++ pend ∧ st.finish hooks = bs'.foldl hooks.step acc0 := by
  unfold ProbeLoop.finish
  split
  · next hpos =>
    refine ⟨bs ++ [pend], Chunked.append_last h.full (List.ne_nil_of_length_pos (by rw [h.pend_length]; exact hpos))
      (by rw [h.pend_length]; exact h.le), by simp, ?_⟩
    rw [← ProbeLoop.pending, h.pending, h.acc, List.foldl_append, List.foldl_cons, List.foldl_nil]
    rfl
  · next hzero =>
    have hnil : pend = [] := List.eq_nil_of_length_eq_zero (by rw [h.pend_length]; omega)
    subst hnil
    exact ⟨bs, Chunked.of_full hM h.full, by simp, h.acc⟩

end ProbeLoop

theorem probe_loop_refines {hooks : ProbeHooks σ} (hlaw : hooks.Lawful) (ps : ProbeState) (bufs : ProbeBuffers ps)
    (from_correlated_subquery : Bool) (valids : Option (List Bool)) (keys : List K)
    (pointers : List (List (RawEntry K))) (acc0 : σ) :
    ∃ bs, Chunked ps.max_block_size bs ∧
      bs.flatten = join_entries hooks.unmatched from_correlated_subquery valids (keys.zip pointers) 0 ∧
      probe_loop hooks ps bufs from_correlated_subquery valids keys pointers acc0 = bs.foldl hooks.step acc0 := by
  have hM := ps.max_block_size_pos
  have h0 : ProbeLoop.Holds hooks ps.max_block_size acc0 ⟨0, bufs.probe_indexes, bufs.build_indexes, acc0⟩ [] [] :=
    ⟨bufs.probe_indexes_length, bufs.build_indexes_length, Nat.zero_le _, by simp, rfl,
      by simp [ProbeLoop.pending], rfl⟩
  obtain ⟨bs, pend, h, hcut, -⟩ := ProbeLoop.probe_rows_holds hlaw hM from_correlated_subquery valids
    (keys.zip pointers) 0 h0 hM
  obtain ⟨bs', hchunk, hflat, hfin⟩ := h.finish hM
  exact ⟨bs', hchunk, by rw [hflat, hcut, List.flatten_nil, List.nil_append, List.nil_append], hfin⟩

end Refinement

end Databend.HashJoin
