import Databend.HashJoin.SemiJoin

namespace Databend.HashJoin

open Databend.Hashtable Buffer

section Counters

theorem anti_bit_at {pre rest : List Nat} {r : UInt32} (hr : r.toNat = pre.length) (keep : Bool) (c : Nat) :
    anti_bit r keep (pre ++ c :: rest) =
      if c = 0 then (true, pre ++ c :: rest)
      else if c = 1 then (!keep, pre ++ 0 :: rest)
      else if keep then (false, pre ++ c :: rest)
      else (false, pre ++ (c - 1) :: rest) := by
  simp only [anti_bit, hr, getD_append_cons, set_append_cons]

variable (p : UInt32 × RowPtr → Bool)

theorem anti_pass_seen {pre rest : List Nat} {r : UInt32} (hr : r.toNat = pre.length) (bs : List RowPtr) {c : Nat}
    (hc : bs.length < c) :
    pass_kept anti_bit p (bs.map ((r, ·))) (pre ++ c :: rest) = [] ∧
      ∃ v, pass_state anti_bit p (bs.map ((r, ·))) (pre ++ c :: rest) = pre ++ v :: rest := by
  induction bs generalizing c with
  | nil => exact ⟨rfl, c, rfl⟩
  | cons b bs ih =>
    rw [List.length_cons] at hc
    have h0 : c ≠ 0 := by omega
    have h1 : c ≠ 1 := by omega
    simp only [List.map_cons, pass_kept_cons, pass_state_cons]
    rw [anti_bit_at hr, if_neg h0, if_neg h1]
    by_cases hp : p (r, b) = true
    · obtain ⟨hk, hs⟩ := ih (show bs.length < c by omega)
      simpa [hp] using ⟨hk, hs⟩
    · obtain ⟨hk, hs⟩ := ih (show bs.length < c - 1 by omega)
      simpa [hp] using ⟨hk, hs⟩

theorem anti_pass_fresh {pre rest : List Nat} {r : UInt32} (hr : r.toNat = pre.length) (bs : List RowPtr)
    (hbs : bs ≠ []) :
    pass_kept anti_bit p (bs.map ((r, ·))) (pre ++ bs.length :: rest) =
        (if bs.all (fun b => !p (r, b)) then [r] else []) ∧
      ∃ v, pass_state anti_bit p (bs.map ((r, ·))) (pre ++ bs.length :: rest) = pre ++ v :: rest := by
  induction bs with
  | nil => exact absurd rfl hbs
  | cons b bs ih =>
    simp only [List.map_cons, pass_kept_cons, pass_state_cons, List.length_cons, List.all_cons]
    rw [anti_bit_at hr, if_neg (Nat.succ_ne_zero _)]
    by_cases hnil : bs = []
    · subst hnil
      by_cases hp : p (r, b) = true <;> simp [hp]
    · have h1 : bs.length + 1 ≠ 1 := by have := List.length_pos_of_ne_nil hnil; omega
      rw [if_neg h1]
      by_cases hp : p (r, b) = true
      · -- a passing match: the counter stays above the matches left
        obtain ⟨hk, hs⟩ := anti_pass_seen p hr bs (show bs.length < bs.length + 1 by omega)
        simpa [hp] using ⟨hk, hs⟩
      · obtain ⟨hk, hs⟩ := ih hnil
        simpa [hp] using And.intro hk hs

end Counters

section Rows

variable {K : Type} [DecidableEq K] (p : UInt32 × RowPtr → Bool) (from_correlated_subquery : Bool)
  (valids : Option (List Bool))

-- the matches the probe loop counts for probe row `i`
def anti_row_count (i : Nat) (key : K) (ptr : List (RawEntry K)) : Nat :=
  (if probe_row_valid from_correlated_subquery valids i then chain_matches key ptr else []).length

-- whether the anti join should keep probe row `i`: no match of its key passes the predicate
def anti_row_taken (i : Nat) (key : K) (ptr : List (RawEntry K)) : Bool :=
  (if probe_row_valid from_correlated_subquery valids i then chain_matches key ptr else []).all
    fun b => !p (i.toUInt32, b)

theorem anti_hooks_lawful (is_probe_projected : Bool) : (semi_anti_hooks false is_probe_projected p).Lawful := by
  refine ⟨fun s i a b => ?_⟩
  -- adding in two parts wraps as adding at once
  have hadd : ((fun c => (c + b) % 2 ^ 32) ∘ (fun c => (c + a) % 2 ^ 32) : Nat → Nat) =
      (fun c => (c + (a + b)) % 2 ^ 32) := by
    funext x
    simp only [Function.comp_apply]
    omega
  simp only [semi_anti_hooks, Bool.false_eq_true, ↓reduceIte, List.modify_modify_eq, hadd]

theorem length_row_entries_some (i : Nat) (key : K) (ptr : List (RawEntry K)) :
    (row_entries (some ⟨0, 0⟩) from_correlated_subquery valids i key ptr).length =
      max 1 (anti_row_count from_correlated_subquery valids i key ptr) := by
  unfold row_entries anti_row_count
  generalize (if probe_row_valid from_correlated_subquery valids i then chain_matches key ptr else []) = ms
  dsimp only
  split
  · next hms => rw [hms]; rfl
  · next hms =>
    have := List.length_pos_of_ne_nil hms
    rw [List.length_map]
    omega

theorem anti_row_entries_count (is_probe_projected : Bool) (i : Nat) (key : K) (ptr : List (RawEntry K))
    {pre rest : List Nat} (hi : i = pre.length) (c : Nat) (result_blocks : List (List UInt32))
    (hc : c + anti_row_count from_correlated_subquery valids i key ptr < 2 ^ 32) :
    (row_entries (some ⟨0, 0⟩) from_correlated_subquery valids i key ptr).foldl
        (semi_anti_hooks false is_probe_projected p).on_entry ⟨pre ++ c :: rest, result_blocks⟩ =
      ⟨pre ++ (c + anti_row_count from_correlated_subquery valids i key ptr) :: rest, result_blocks⟩ := by
  unfold row_entries anti_row_count at *
  generalize (if probe_row_valid from_correlated_subquery valids i then chain_matches key ptr else []) = ms at hc ⊢
  dsimp only
  split
  · next hms => subst hms; rfl
  · next hms =>
    rw [← (anti_hooks_lawful p is_probe_projected).on_match_length i hms]
    simp only [semi_anti_hooks, Bool.false_eq_true, ↓reduceIte, hi, modify_append_cons, Nat.mod_eq_of_lt hc]

theorem anti_row_entries_pass (i : Nat) (key : K) (ptr : List (RawEntry K)) {pre rest : List Nat}
    (hi : i.toUInt32.toNat = pre.length) :
    pass_kept anti_bit p ((row_entries (some ⟨0, 0⟩) from_correlated_subquery valids i key ptr).map JoinEntry.row)
        (pre ++ anti_row_count from_correlated_subquery valids i key ptr :: rest) =
        (if anti_row_taken p from_correlated_subquery valids i key ptr then [i.toUInt32] else []) ∧
      ∃ v, pass_state anti_bit p ((row_entries (some ⟨0, 0⟩) from_correlated_subquery valids i key ptr).map JoinEntry.row)
        (pre ++ anti_row_count from_correlated_subquery valids i key ptr :: rest) = pre ++ v :: rest := by
  unfold row_entries anti_row_count anti_row_taken
  generalize (if probe_row_valid from_correlated_subquery valids i then chain_matches key ptr else []) = ms
  dsimp only
  split
  · next hms =>
    -- the dummy build row of a probe row without match, whose counter is zero
    subst hms
    have hstep := @anti_bit_at pre rest _ hi (p (i.toUInt32, ⟨0, 0⟩)) 0
    rw [if_pos rfl] at hstep
    simp [pass_kept_cons, pass_state_cons, JoinEntry.row, hstep]
  · next hms =>
    rw [List.map_map]
    exact anti_pass_fresh p hi ms hms

theorem anti_rows_count (is_probe_projected : Bool) (rows : List (K × List (RawEntry K))) (pre post : List Nat)
    (result_blocks : List (List UInt32))
    (hcount : ∀ r ∈ rows.zipIdx pre.length, anti_row_count from_correlated_subquery valids r.2 r.1.1 r.1.2 < 2 ^ 32) :
    (join_entries (some ⟨0, 0⟩) from_correlated_subquery valids rows pre.length).foldl
        (semi_anti_hooks false is_probe_projected p).on_entry ⟨pre ++ List.replicate rows.length 0 ++ post, result_blocks⟩ =
      ⟨pre ++ (rows.zipIdx pre.length).map (fun r => anti_row_count from_correlated_subquery valids r.2 r.1.1 r.1.2) ++
        post, result_blocks⟩ := by
  induction rows generalizing pre with
  | nil => rfl
  | cons r rows ih =>
    obtain ⟨key, ptr⟩ := r
    rw [List.zipIdx_cons] at hcount
    have h := ih (pre ++ [anti_row_count from_correlated_subquery valids pre.length key ptr])
      (by simpa using fun r hr => hcount r (List.mem_cons_of_mem _ hr))
    rw [List.length_append, List.length_singleton] at h
    rw [join_entries, List.zipIdx_cons, List.flatMap_cons, ← join_entries, List.foldl_append, List.length_cons,
      List.replicate_succ, List.append_assoc, List.cons_append,
      anti_row_entries_count p from_correlated_subquery valids is_probe_projected pre.length key ptr rfl 0 _
        (by simpa using hcount _ List.mem_cons_self), Nat.zero_add, List.append_cons]
    simp only [List.append_assoc] at h ⊢
    rw [h]
    simp

theorem anti_rows_pass (rows : List (K × List (RawEntry K))) (pre post : List Nat)
    (hbound : pre.length + rows.length ≤ 2 ^ 32) :
    pass_kept anti_bit p ((join_entries (some ⟨0, 0⟩) from_correlated_subquery valids rows pre.length).map JoinEntry.row)
        (pre ++ (rows.zipIdx pre.length).map (fun r => anti_row_count from_correlated_subquery valids r.2 r.1.1 r.1.2) ++
          post) =
        (rows.zipIdx pre.length).filterMap (fun r =>
          if anti_row_taken p from_correlated_subquery valids r.2 r.1.1 r.1.2 then some r.2.toUInt32 else none) ∧
      ∃ pre', pre'.length = pre.length + rows.length ∧
        pass_state anti_bit p ((join_entries (some ⟨0, 0⟩) from_correlated_subquery valids rows pre.length).map JoinEntry.row)
          (pre ++ (rows.zipIdx pre.length).map (fun r => anti_row_count from_correlated_subquery valids r.2 r.1.1 r.1.2) ++
            post) = pre' ++ post := by
  induction rows generalizing pre with
  | nil => exact ⟨rfl, pre, rfl, by simp [join_entries]⟩
  | cons r rows ih =>
    obtain ⟨key, ptr⟩ := r
    rw [List.length_cons] at hbound
    have hi : pre.length.toUInt32.toNat = pre.length := toNat_toUInt32_of_lt (by omega)
    obtain ⟨hk, v, hs⟩ := @anti_row_entries_pass K _ p from_correlated_subquery valids pre.length key ptr pre
      ((rows.zipIdx (pre.length + 1)).map (fun r => anti_row_count from_correlated_subquery valids r.2 r.1.1 r.1.2) ++
        post) hi
    -- the next rows start after this row's counter
    obtain ⟨hk', pre', hlen, hs'⟩ := ih (pre ++ [v]) (by rw [List.length_append, List.length_singleton]; omega)
    simp only [List.length_append, List.length_singleton, List.append_assoc, List.cons_append, List.nil_append]
      at hk' hs' hlen
    rw [join_entries, List.zipIdx_cons, List.flatMap_cons, ← join_entries, List.map_append, List.map_cons,
      List.filterMap_cons, List.append_assoc, List.cons_append]
    dsimp only
    rw [(pass_append _ _ _ _ _).1, (pass_append _ _ _ _ _).2, hk, hs, hk', hs']
    refine ⟨?_, pre', by rw [hlen, List.length_cons]; omega, rfl⟩
    by_cases ht : anti_row_taken p from_correlated_subquery valids pre.length key ptr = true <;> simp [ht]

theorem anti_step_rows (is_probe_projected : Bool) (rows : List (K × List (RawEntry K))) (pre post : List Nat)
    (s : SemiAntiState) (hs : s.row_state = pre ++ List.replicate rows.length 0 ++ post)
    (hbound : pre.length + rows.length ≤ 2 ^ 32)
    (hcount : ∀ r ∈ rows.zipIdx pre.length, anti_row_count from_correlated_subquery valids r.2 r.1.1 r.1.2 < 2 ^ 32) :
    ((semi_anti_hooks false is_probe_projected p).step s
        (join_entries (some ⟨0, 0⟩) from_correlated_subquery valids rows pre.length)).result_blocks.flatten =
        s.result_blocks.flatten ++
          (if is_probe_projected then
            (rows.zipIdx pre.length).filterMap fun r =>
              if anti_row_taken p from_correlated_subquery valids r.2 r.1.1 r.1.2 then some r.2.toUInt32 else none
          else []) ∧
      ∃ pre', pre'.length = pre.length + rows.length ∧
        ((semi_anti_hooks false is_probe_projected p).step s
          (join_entries (some ⟨0, 0⟩) from_correlated_subquery valids rows pre.length)).row_state = pre' ++ post := by
  obtain ⟨row_state, result_blocks⟩ := s
  dsimp only at hs ⊢
  subst hs
  obtain ⟨hk, pre', hlen, hs⟩ := anti_rows_pass p from_correlated_subquery valids rows pre post hbound
  obtain ⟨hrs, hflat, -⟩ := semi_anti_emit p false is_probe_projected
    ⟨pre ++ (rows.zipIdx pre.length).map (fun r => anti_row_count from_correlated_subquery valids r.2 r.1.1 r.1.2) ++
      post, result_blocks⟩
    ((join_entries (some ⟨0, 0⟩) from_correlated_subquery valids rows pre.length).map JoinEntry.row)
  simp only [Bool.false_eq_true, ↓reduceIte] at hrs hflat
  rw [ProbeHooks.step, anti_rows_count _ _ _ _ _ _ _ _ hcount, hflat, hk, hrs, hs]
  exact ⟨rfl, pre', hlen, rfl⟩

theorem anti_foldl_runs (is_probe_projected : Bool) (gss : List (List (List JoinEntry)))
    (rows : List (K × List (RawEntry K))) (pre : List Nat) (s : SemiAntiState)
    (hs : s.row_state = pre ++ List.replicate rows.length 0)
    (hgss : gss.flatten =
      (rows.zipIdx pre.length).map fun r => row_entries (some ⟨0, 0⟩) from_correlated_subquery valids r.2 r.1.1 r.1.2)
    (hbound : pre.length + rows.length ≤ 2 ^ 32)
    (hcount : ∀ r ∈ rows.zipIdx pre.length, anti_row_count from_correlated_subquery valids r.2 r.1.1 r.1.2 < 2 ^ 32) :
    ((gss.map List.flatten).foldl (semi_anti_hooks false is_probe_projected p).step s).result_blocks.flatten =
      s.result_blocks.flatten ++
        (if is_probe_projected then
          (rows.zipIdx pre.length).filterMap fun r =>
            if anti_row_taken p from_correlated_subquery valids r.2 r.1.1 r.1.2 then some r.2.toUInt32 else none
        else []) := by
  induction gss generalizing rows pre s with
  | nil =>
    have hrows : rows = [] := by
      rw [List.flatten_nil, eq_comm, List.map_eq_nil_iff, List.zipIdx_eq_nil_iff] at hgss
      exact hgss
    subst hrows
    cases is_probe_projected <;> simp
  | cons G gss ih =>
    have hk : G.length ≤ rows.length := by
      have := congrArg List.length hgss
      rw [List.flatten_cons, List.length_append, List.length_map, List.length_zipIdx] at this
      omega
    -- the first block is the rows of its runs, and the other blocks the rows after them
    rw [List.flatten_cons, ← List.take_append_drop G.length rows, List.zipIdx_append, List.map_append] at hgss
    obtain ⟨hG, hrest⟩ := List.append_inj hgss (by simp [hk])
    have hblock : G.flatten =
        join_entries (some ⟨0, 0⟩) from_correlated_subquery valids (rows.take G.length) pre.length := by
      rw [join_entries, List.flatMap_def, ← hG]
    have hidx : rows.zipIdx pre.length =
        (rows.take G.length).zipIdx pre.length ++ (rows.drop G.length).zipIdx (pre.length + G.length) := by
      conv_lhs => rw [← List.take_append_drop G.length rows]
      rw [List.zipIdx_append, List.length_take, Nat.min_eq_left hk]
    have hzero : s.row_state =
        pre ++ List.replicate (rows.take G.length).length 0 ++ List.replicate (rows.drop G.length).length 0 := by
      rw [hs, List.append_assoc, ← List.replicate_add, ← List.length_append, List.take_append_drop]
    obtain ⟨hflat, pre', hlen, hs'⟩ := anti_step_rows p from_correlated_subquery valids is_probe_projected
      (rows.take G.length) pre (List.replicate (rows.drop G.length).length 0) s hzero (by simp; omega)
      (fun r hr => hcount r (by rw [hidx]; exact List.mem_append_left _ hr))
    rw [List.length_take, Nat.min_eq_left hk] at hlen hrest
    have hsplit : (rows.zipIdx pre.length).filterMap (fun r =>
          if anti_row_taken p from_correlated_subquery valids r.2 r.1.1 r.1.2 then some r.2.toUInt32 else none) =
        ((rows.take G.length).zipIdx pre.length).filterMap (fun r =>
          if anti_row_taken p from_correlated_subquery valids r.2 r.1.1 r.1.2 then some r.2.toUInt32 else none) ++
        ((rows.drop G.length).zipIdx pre'.length).filterMap (fun r =>
          if anti_row_taken p from_correlated_subquery valids r.2 r.1.1 r.1.2 then some r.2.toUInt32 else none) := by
      conv_lhs => rw [← List.take_append_drop G.length rows]
      rw [List.zipIdx_append, List.filterMap_append, List.length_take, Nat.min_eq_left hk, hlen]
    rw [List.map_cons, List.foldl_cons, hblock, ih (rows.drop G.length) pre' _ hs' (by rw [hlen]; exact hrest)
      (by rw [hlen, List.length_drop]; omega) (fun r hr => hcount r (by rw [hidx]; rw [hlen] at hr; exact List.mem_append_right _ hr)),
      hflat, hsplit]
    cases is_probe_projected <;> simp

end Rows

section AntiSpec

variable {K : Type} [DecidableEq K] (p : UInt32 × RowPtr → Bool)

-- the rows the probe loop makes of probe row `r` of an anti join: one per match, or the dummy
def anti_row_width (from_correlated_subquery : Bool) (valids : Option (List Bool)) (order : List (RowPtr × K))
    (r : K × Nat) : Nat :=
  max 1 (if probe_row_valid from_correlated_subquery valids r.2 then (order.filter fun x => x.2 = r.1).length else 0)

theorem anti_row_widths_build (hash : K → UInt64) (row_num : Nat) (order : List (RowPtr × K))
    (from_correlated_subquery : Bool) (valids : Option (List Bool)) (keys : List K) (i : Nat) :
    (((keys.zip (((HashJoinHashTable.with_build_row_num row_num).insert_rows hash order).probe (keys.map hash))).zipIdx
        i).map fun r => row_entries (some ⟨0, 0⟩) from_correlated_subquery valids r.2 r.1.1 r.1.2).map List.length =
      (keys.zipIdx i).map (anti_row_width from_correlated_subquery valids order) := by
  induction keys generalizing i with
  | nil => rfl
  | cons key keys ih =>
    simp only [HashJoinHashTable.probe, List.map_cons, List.zip_cons_cons, List.zipIdx_cons] at ih ⊢
    rw [ih, length_row_entries_some, anti_row_count, anti_row_width, chain_matches_build]
    congr 2
    split <;> simp

theorem anti_taken_rows_build (hash : K → UInt64) (row_num : Nat) (order : List (RowPtr × K))
    (from_correlated_subquery : Bool) (valids : Option (List Bool)) (keys : List K) (i : Nat) :
    ((keys.zip (((HashJoinHashTable.with_build_row_num row_num).insert_rows hash order).probe (keys.map hash))).zipIdx
        i).filterMap (fun r =>
          if anti_row_taken p from_correlated_subquery valids r.2 r.1.1 r.1.2 then some r.2.toUInt32 else none) =
      (keys.zipIdx i).filterMap fun r =>
        if !(probe_row_valid from_correlated_subquery valids r.2 &&
            order.any (fun x => x.2 = r.1 && p (r.2.toUInt32, x.1))) then some r.2.toUInt32
        else none := by
  induction keys generalizing i with
  | nil => rfl
  | cons key keys ih =>
    simp only [HashJoinHashTable.probe, List.map_cons, List.zip_cons_cons, List.zipIdx_cons,
      List.filterMap_cons] at ih ⊢
    rw [ih, anti_row_taken]
    -- no match passes exactly when no build row of the key passes
    by_cases hv : probe_row_valid from_correlated_subquery valids i = true
    · rw [if_pos hv, hv, Bool.true_and, List.all_eq_not_any_not]
      simp only [Bool.not_not]
      rw [any_matches_build]
    · rw [if_neg hv, Bool.eq_false_iff.mpr hv, Bool.false_and]
      rfl

theorem left_anti_join_with_conjunct_exact (hash : K → UInt64) (row_num : Nat) (order : List (RowPtr × K))
    (ps : ProbeState) (bufs : ProbeBuffers ps) (is_probe_projected from_correlated_subquery : Bool)
    (valids : Option (List Bool)) (keys : List K) (hkeys : keys.length ≤ 2 ^ 32) (hM : ps.max_block_size < 2 ^ 32)
    (hfit : runs_fit ps.max_block_size 0 (keys.zipIdx.map (anti_row_width from_correlated_subquery valids order)) = true) :
    let t := (HashJoinHashTable.with_build_row_num row_num).insert_rows hash order
    (∀ b ∈ left_semi_anti_join_with_conjunct false ps bufs is_probe_projected from_correlated_subquery valids p keys
        (t.probe (keys.map hash)), b ≠ [] ∧ b.length ≤ ps.max_block_size) ∧
      (left_semi_anti_join_with_conjunct false ps bufs is_probe_projected from_correlated_subquery valids p keys
          (t.probe (keys.map hash))).flatten =
        if is_probe_projected then
          keys.zipIdx.filterMap fun r =>
            if !(probe_row_valid from_correlated_subquery valids r.2 &&
                order.any (fun x => x.2 = r.1 && p (r.2.toUInt32, x.1))) then some r.2.toUInt32
            else none
        else [] := by
  intro t
  obtain ⟨bs, hchunk, hflat, hloop⟩ := probe_loop_refines (anti_hooks_lawful p is_probe_projected) ps bufs
    from_correlated_subquery valids keys (t.probe (keys.map hash)) ⟨List.replicate keys.length 0, []⟩
  unfold left_semi_anti_join_with_conjunct
  rw [hloop]
  refine ⟨foldl_semi_anti_blocks p false is_probe_projected bs _ hchunk.le (by simp), ?_⟩
  have hlen : (keys.zip (t.probe (keys.map hash))).length = keys.length := by simp [HashJoinHashTable.probe]
  rw [show (semi_anti_hooks false is_probe_projected p).unmatched = some ⟨0, 0⟩ from rfl, join_entries,
    List.flatMap_def] at hflat
  -- every probe row makes a row, and no block boundary falls inside a probe row's rows
  have hne : ∀ g ∈ ((keys.zip (t.probe (keys.map hash))).zipIdx).map (fun r =>
      row_entries (some ⟨0, 0⟩) from_correlated_subquery valids r.2 r.1.1 r.1.2), g ≠ [] := by
    intro g hg
    obtain ⟨r, -, rfl⟩ := List.mem_map.mp hg
    exact List.ne_nil_of_length_pos (by rw [length_row_entries_some]; omega)
  have hfit' := hfit
  rw [← anti_row_widths_build] at hfit'
  obtain ⟨gss, hgss, rfl⟩ := hchunk.runs hne hfit' hflat
  -- a probe row's rows fit in one block, so its counter does not wrap
  have hcount : ∀ r ∈ (keys.zip (t.probe (keys.map hash))).zipIdx,
      anti_row_count from_correlated_subquery valids r.2 r.1.1 r.1.2 < 2 ^ 32 := by
    intro r hr
    have hw := runs_fit_le ps.max_block_size_pos hfit' _ (List.mem_map_of_mem (List.mem_map_of_mem hr))
    rw [length_row_entries_some] at hw
    omega
  have h := anti_foldl_runs p from_correlated_subquery valids is_probe_projected gss
    (keys.zip (t.probe (keys.map hash))) [] ⟨List.replicate keys.length 0, []⟩ (by rw [hlen]; rfl) hgss
    (by rw [hlen, List.length_nil, Nat.zero_add]; exact hkeys) hcount
  rw [h, anti_taken_rows_build]
  rfl

theorem left_anti_join_with_conjunct_exact_four_keys :
    [5, 7, 9, 5].length ≤ 2 ^ 32 ∧ 2 < 2 ^ 32 ∧
      runs_fit 2 0 ([5, 7, 9, 5].zipIdx.map (anti_row_width false none [(⟨0, 0⟩, 5), (⟨0, 1⟩, 5), (⟨0, 2⟩, 7)])) = true ∧
      (left_semi_anti_join_with_conjunct false ⟨2, by decide⟩ (ProbeBuffers.create _) true false none
        (fun x => x.2.row_index = 1) [5, 7, 9, 5]
        (((HashJoinHashTable.with_build_row_num 3).insert_rows (fun k : Nat => k.toUInt64)
          [(⟨0, 0⟩, 5), (⟨0, 1⟩, 5), (⟨0, 2⟩, 7)]).probe ([5, 7, 9, 5].map fun k : Nat => k.toUInt64))).flatten =
        [1, 2] := by
  refine ⟨by decide, by decide, by decide, ?_⟩
  rw [(left_anti_join_with_conjunct_exact (fun x => x.2.row_index = 1) (fun k : Nat => k.toUInt64) 3
    [(⟨0, 0⟩, 5), (⟨0, 1⟩, 5), (⟨0, 2⟩, 7)] ⟨2, by decide⟩ (ProbeBuffers.create _) true false none [5, 7, 9, 5]
    (by decide) (by decide) (by decide)).2]
  decide

end AntiSpec

section Straddle

variable {K : Type} [DecidableEq K] (p : UInt32 × RowPtr → Bool)

theorem anti_on_entry_match (is_probe_projected : Bool) {pre rest : List Nat} (c : Nat) (b : RowPtr)
    (result_blocks : List (List UInt32)) (hc : c + 1 < 2 ^ 32) :
    (semi_anti_hooks false is_probe_projected p).on_entry ⟨pre ++ c :: rest, result_blocks⟩ ⟨pre.length, b, true⟩ =
      ⟨pre ++ (c + 1) :: rest, result_blocks⟩ := by
  simp only [ProbeHooks.on_entry, ↓reduceIte, semi_anti_hooks, Bool.false_eq_true, modify_append_cons,
    Nat.mod_eq_of_lt hc]

theorem unmatched_rows (from_correlated_subquery : Bool) (valids : Option (List Bool)) {key : K}
    {ptr : List (RawEntry K)} (hptr : chain_matches key ptr = []) (n i : Nat) :
    join_entries (some ⟨0, 0⟩) from_correlated_subquery valids (List.replicate n (key, ptr)) i =
      (List.range' i n).map (fun j => ⟨j, ⟨0, 0⟩, false⟩) := by
  induction n generalizing i with
  | zero => rfl
  | succ n ih =>
    have hms : (if probe_row_valid from_correlated_subquery valids i then chain_matches key ptr else []) = [] := by
      split <;> simp [hptr]
    rw [List.replicate_succ, join_entries, List.zipIdx_cons, List.flatMap_cons, ← join_entries, List.range'_succ,
      List.map_cons, ih (i + 1)]
    simp [row_entries, hms]

theorem anti_pass_one {pre : List Nat} {r : UInt32} (hr : r.toNat = pre.length) (b : RowPtr) :
    pass_kept anti_bit p [(r, b)] (pre ++ [1]) = (if p (r, b) then [] else [r]) ∧
      pass_state anti_bit p [(r, b)] (pre ++ [1]) = pre ++ [0] := by
  have hstep := @anti_bit_at pre [] r hr (p (r, b)) 1
  simp only [Nat.one_ne_zero, ↓reduceIte] at hstep
  simp only [pass_kept_cons, pass_state_cons, pass_kept_nil, pass_state_nil, hstep]
  cases p (r, b) <;> simp

theorem anti_pass_dummies (pre rest : List Nat) (k : Nat) (hbound : pre.length + k ≤ 2 ^ 32) :
    pass_kept anti_bit p ((List.range' pre.length k).map fun j => (j.toUInt32, (⟨0, 0⟩ : RowPtr)))
        (pre ++ List.replicate k 0 ++ rest) = (List.range' pre.length k).map Nat.toUInt32 ∧
      pass_state anti_bit p ((List.range' pre.length k).map fun j => (j.toUInt32, (⟨0, 0⟩ : RowPtr)))
        (pre ++ List.replicate k 0 ++ rest) = pre ++ List.replicate k 0 ++ rest := by
  induction k generalizing pre with
  | zero => exact ⟨rfl, rfl⟩
  | succ k ih =>
    have hr : pre.length.toUInt32.toNat = pre.length := toNat_toUInt32_of_lt (by omega)
    have hst : pre ++ List.replicate (k + 1) 0 ++ rest = pre ++ 0 :: (List.replicate k 0 ++ rest) := by
      simp [List.replicate_succ]
    have hst' : pre ++ [0] ++ List.replicate k 0 ++ rest = pre ++ 0 :: (List.replicate k 0 ++ rest) := by simp
    obtain ⟨hk, hs⟩ := ih (pre ++ [0]) (by rw [List.length_append, List.length_singleton]; omega)
    rw [hst', List.length_append, List.length_singleton] at hk hs
    rw [hst, List.range'_succ, List.map_cons, List.map_cons, pass_kept_cons, pass_state_cons, anti_bit_at hr,
      if_pos rfl]
    simp [hk, hs]

theorem anti_step_dummies_match (pre : List Nat) (k : Nat) (b : RowPtr) (s : SemiAntiState)
    (hs : s.row_state = pre ++ List.replicate k 0 ++ [0]) (hbound : pre.length + k < 2 ^ 32) :
    ((semi_anti_hooks false true p).step s
        ((List.range' pre.length k).map (fun j => ⟨j, ⟨0, 0⟩, false⟩) ++ [⟨pre.length + k, b, true⟩])).row_state =
        pre ++ List.replicate k 0 ++ [0] ∧
      ((semi_anti_hooks false true p).step s
        ((List.range' pre.length k).map (fun j => ⟨j, ⟨0, 0⟩, false⟩) ++ [⟨pre.length + k, b, true⟩])).result_blocks.flatten =
        s.result_blocks.flatten ++ (List.range' pre.length k).map Nat.toUInt32 ++
          (if p ((pre.length + k).toUInt32, b) then [] else [(pre.length + k).toUInt32]) := by
  obtain ⟨row_state, result_blocks⟩ := s
  dsimp only at hs ⊢
  subst hs
  have hlen : (pre ++ List.replicate k 0).length = pre.length + k := by simp
  -- the rows without match count nothing; the match sets its row's counter to one
  have hcount : ((List.range' pre.length k).map (fun j => (⟨j, ⟨0, 0⟩, false⟩ : JoinEntry)) ++
      [(⟨pre.length + k, b, true⟩ : JoinEntry)]).foldl (semi_anti_hooks false true p).on_entry
        ⟨pre ++ List.replicate k 0 ++ [0], result_blocks⟩ = ⟨pre ++ List.replicate k 0 ++ [1], result_blocks⟩ := by
    rw [List.foldl_append, List.foldl_cons, List.foldl_nil, ProbeHooks.foldl_on_entry_unmatched _ _
      (fun e he => by obtain ⟨j, -, rfl⟩ := List.mem_map.mp he; rfl),
      ← hlen, anti_on_entry_match p true 0 b result_blocks (by norm_num)]
  have hrows : ((List.range' pre.length k).map (fun j => (⟨j, ⟨0, 0⟩, false⟩ : JoinEntry)) ++
      [(⟨pre.length + k, b, true⟩ : JoinEntry)]).map JoinEntry.row =
      (List.range' pre.length k).map (fun j => (j.toUInt32, (⟨0, 0⟩ : RowPtr))) ++ [((pre.length + k).toUInt32, b)] := by
    simp [JoinEntry.row]
  obtain ⟨hrs, hfl, -⟩ := semi_anti_emit p false true ⟨pre ++ List.replicate k 0 ++ [1], result_blocks⟩
    ((List.range' pre.length k).map (fun j => (j.toUInt32, (⟨0, 0⟩ : RowPtr))) ++ [((pre.length + k).toUInt32, b)])
  simp only [Bool.false_eq_true, ↓reduceIte] at hrs hfl
  have hdum := anti_pass_dummies p pre [1] k hbound.le
  have hr : (pre.length + k).toUInt32.toNat = (pre ++ List.replicate k 0).length := by
    rw [hlen, toNat_toUInt32_of_lt hbound]
  obtain ⟨hk1, hs1⟩ := anti_pass_one p hr b
  rw [(pass_append _ _ _ _ _).2, hdum.2, hs1] at hrs
  rw [(pass_append _ _ _ _ _).1, hdum.1, hdum.2, hk1] at hfl
  rw [ProbeHooks.step, hcount, hrows]
  exact ⟨hrs, by rw [hfl, List.append_assoc]⟩

theorem left_anti_join_with_conjunct_keeps_matched (hash : Nat → UInt64) (ps : ProbeState) (bufs : ProbeBuffers ps)
    (hM : ps.max_block_size ≤ 2 ^ 32) :
    let order : List (RowPtr × Nat) := [(⟨0, 0⟩, 1), (⟨0, 1⟩, 1)]
    let keys := List.replicate (ps.max_block_size - 1) 2 ++ [1]
    let t := (HashJoinHashTable.with_build_row_num 2).insert_rows hash order
    (left_semi_anti_join_with_conjunct false ps bufs true false none (fun x => x.2.row_index = 0) keys
        (t.probe (keys.map hash))).flatten = (List.range ps.max_block_size).map Nat.toUInt32 ∧
      (keys.zipIdx.filterMap fun r =>
        if !(probe_row_valid false none r.2 && order.any (fun x => x.2 = r.1 && x.1.row_index = 0)) then
          some r.2.toUInt32
        else none) = (List.range (ps.max_block_size - 1)).map Nat.toUInt32 := by
  intro order keys t
  obtain ⟨n, hn⟩ : ∃ n, ps.max_block_size = n + 1 := ⟨ps.max_block_size - 1, by have := ps.max_block_size_pos; omega⟩
  have hsub : ps.max_block_size - 1 = n := by omega
  have hkeys : keys = List.replicate n 2 ++ [1] := by
    show List.replicate (ps.max_block_size - 1) 2 ++ [1] = _
    rw [hsub]
  have h2 : chain_matches 2 (t.bucket (hash 2)) = [] := by rw [chain_matches_build]; rfl
  have h1 : chain_matches 1 (t.bucket (hash 1)) = [⟨0, 1⟩, ⟨0, 0⟩] := by rw [chain_matches_build]; rfl
  have hrows : keys.zip (t.probe (keys.map hash)) =
      List.replicate n (2, t.bucket (hash 2)) ++ [(1, t.bucket (hash 1))] := by
    rw [hkeys, HashJoinHashTable.probe, List.map_append, List.map_append, List.map_replicate, List.map_replicate,
      List.zip_append (by simp), List.zip_replicate, Nat.min_self]
    rfl
  have hstream : join_entries (some ⟨0, 0⟩) false none (keys.zip (t.probe (keys.map hash))) 0 =
      (List.range' 0 n).map (fun j => ⟨j, ⟨0, 0⟩, false⟩) ++ [⟨n, ⟨0, 1⟩, true⟩, ⟨n, ⟨0, 0⟩, true⟩] := by
    rw [hrows, join_entries, List.zipIdx_append, List.flatMap_append, ← join_entries, unmatched_rows false none h2 n 0]
    simp [row_entries, h1, probe_row_valid]
  obtain ⟨bs, hchunk, hflat, hloop⟩ := probe_loop_refines (anti_hooks_lawful (fun x => x.2.row_index = 0) true) ps bufs
    false none keys (t.probe (keys.map hash)) ⟨List.replicate keys.length 0, []⟩
  rw [show (semi_anti_hooks false true fun x => x.2.row_index = 0).unmatched = some ⟨0, 0⟩ from rfl, hstream] at hflat
  -- the first block ends inside the last probe row's matches
  have hbs : bs = [(List.range' 0 n).map (fun j => ⟨j, ⟨0, 0⟩, false⟩) ++ [⟨n, ⟨0, 1⟩, true⟩], [⟨n, ⟨0, 0⟩, true⟩]] := by
    rw [hchunk.eq_two_blocks (by simp [hflat, hn]) (by simp [hflat, hn]; omega), hflat, hn]
    generalize hX : (List.range' 0 n).map (fun j => (⟨j, ⟨0, 0⟩, false⟩ : JoinEntry)) = X
    have hlen : X.length = n := by rw [← hX]; simp
    rw [List.take_append, List.drop_append, List.take_of_length_le (show X.length ≤ n + 1 by omega),
      List.drop_eq_nil_of_le (show X.length ≤ n + 1 by omega), hlen, Nat.add_sub_cancel_left]
    rfl
  refine ⟨?_, ?_⟩
  · -- the first block keeps the probe rows without match and the last one, whose first match fails;
    -- the second block counts that row's other match afresh and drops it
    obtain ⟨hs1, hf1⟩ := anti_step_dummies_match (fun x => x.2.row_index = 0) [] n ⟨0, 1⟩
      ⟨List.replicate keys.length 0, []⟩ (by rw [hkeys]; simp [List.replicate_succ']) (by simp; omega)
    simp only [List.length_nil, Nat.zero_add] at hs1 hf1
    obtain ⟨-, hf2⟩ := anti_step_dummies_match (fun x => x.2.row_index = 0) (List.replicate n 0) 0 ⟨0, 0⟩ _
      (by rw [hs1, List.replicate_zero, List.append_nil]; rfl) (by simp; omega)
    simp only [List.length_replicate, List.range'_zero, List.map_nil, List.nil_append, Nat.add_zero] at hf2
    unfold left_semi_anti_join_with_conjunct
    rw [hloop, hbs, List.foldl_cons, List.foldl_cons, List.foldl_nil, hf2, hf1, hn, List.range_succ,
      List.range_eq_range']
    simp
  · rw [hkeys, hsub, List.zipIdx_append, List.filterMap_append,
      filterMap_zipIdx_replicate 2 (g := Nat.toUInt32) (fun j => by simp [order, probe_row_valid]) n 0,
      List.range_eq_range']
    simp [order, probe_row_valid]

theorem left_anti_join_with_conjunct_keeps_matched_default :
    65536 ≤ 2 ^ 32 ∧
      (left_semi_anti_join_with_conjunct false ⟨65536, by decide⟩ (ProbeBuffers.create _) true false none
        (fun x => x.2.row_index = 0) (List.replicate 65535 2 ++ [1])
        (((HashJoinHashTable.with_build_row_num 2).insert_rows (fun k : Nat => k.toUInt64) [(⟨0, 0⟩, 1), (⟨0, 1⟩, 1)]).probe
          ((List.replicate 65535 2 ++ [1]).map fun k : Nat => k.toUInt64))).flatten =
        (List.range 65536).map Nat.toUInt32 :=
  ⟨by decide, (left_anti_join_with_conjunct_keeps_matched (fun k : Nat => k.toUInt64) ⟨65536, by decide⟩
    (ProbeBuffers.create _) (by decide)).1⟩

end Straddle

end Databend.HashJoin
