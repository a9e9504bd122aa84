import Databend.HashJoin.ProbeLoop

namespace Databend.HashJoin

open Databend.Hashtable Buffer

def inner_hooks : ProbeHooks (List (List (UInt32 × RowPtr))) where
  unmatched := none
  on_match result_blocks _ _ := result_blocks
  emit result_blocks block := result_blocks ++ [block]

-- `other_predicate`, cast to a non-nullable boolean, filters every block, and empty blocks are dropped
def filter_other_predicate (other_predicate : Option (UInt32 × RowPtr → Bool))
    (result_blocks : List (List (UInt32 × RowPtr))) : List (List (UInt32 × RowPtr)) :=
  match other_predicate with
  | none => result_blocks
  | some p => (result_blocks.map fun b => b.filter p).filter fun b => !b.isEmpty

def probe_inner_join {K : Type} [DecidableEq K] (ps : ProbeState) (bufs : ProbeBuffers ps)
    (from_correlated_subquery : Bool) (valids : Option (List Bool)) (other_predicate : Option (UInt32 × RowPtr → Bool))
    (keys : List K) (pointers : List (List (RawEntry K))) : List (List (UInt32 × RowPtr)) :=
  filter_other_predicate other_predicate (probe_loop inner_hooks ps bufs from_correlated_subquery valids keys pointers [])

section Spec

variable {K : Type} [DecidableEq K]

theorem inner_hooks_lawful : inner_hooks.Lawful := ⟨fun _ _ _ _ => rfl⟩

theorem foldl_inner_step (bs : List (List JoinEntry)) (acc : List (List (UInt32 × RowPtr))) :
    bs.foldl inner_hooks.step acc = acc ++ bs.map (List.map JoinEntry.row) := by
  -- counting matches leaves the blocks as they are
  have hentry : ∀ (b : List JoinEntry) acc, b.foldl inner_hooks.on_entry acc = acc := by
    intro b
    induction b with
    | nil => intro acc; rfl
    | cons e b ih =>
      intro acc
      have he : inner_hooks.on_entry acc e = acc := by
        unfold ProbeHooks.on_entry
        split <;> rfl
      rw [List.foldl_cons, he, ih]
  induction bs generalizing acc with
  | nil => simp
  | cons b bs ih =>
    rw [List.foldl_cons, ih, ProbeHooks.step, hentry]
    simp [inner_hooks]

-- the rows the probe of row `i` yields: one for each match of its key, in chain order
def inner_row_matches (from_correlated_subquery : Bool) (valids : Option (List Bool)) (i : Nat) (key : K)
    (ptr : List (RawEntry K)) : List (UInt32 × RowPtr) :=
  if probe_row_valid from_correlated_subquery valids i then (chain_matches key ptr).map fun p => (i.toUInt32, p)
  else []

theorem row_entries_none (from_correlated_subquery : Bool) (valids : Option (List Bool)) (i : Nat) (key : K)
    (ptr : List (RawEntry K)) :
    (row_entries none from_correlated_subquery valids i key ptr).map JoinEntry.row =
      inner_row_matches from_correlated_subquery valids i key ptr := by
  rw [map_row_entries_none, inner_row_matches]
  split <;> rfl

theorem filter_other_predicate_some (p : UInt32 × RowPtr → Bool) (result_blocks : List (List (UInt32 × RowPtr))) :
    (filter_other_predicate (some p) result_blocks).flatten = result_blocks.flatten.filter p ∧
      ∀ b ∈ filter_other_predicate (some p) result_blocks, b ≠ [] ∧ ∃ b' ∈ result_blocks, b.length ≤ b'.length := by
  rw [filter_other_predicate]
  refine ⟨by rw [List.flatten_filter_not_isEmpty, List.filter_flatten], fun b hb => ?_⟩
  obtain ⟨hb, hne⟩ := List.mem_filter.mp hb
  obtain ⟨b', hb', rfl⟩ := List.mem_map.mp hb
  exact ⟨by simpa using hne, b', hb', List.length_filter_le _ _⟩

theorem probe_inner_join_blocks (ps : ProbeState) (bufs : ProbeBuffers ps) (from_correlated_subquery : Bool)
    (valids : Option (List Bool)) (keys : List K) (pointers : List (List (RawEntry K))) :
    Chunked ps.max_block_size (probe_inner_join ps bufs from_correlated_subquery valids none keys pointers) ∧
      (probe_inner_join ps bufs from_correlated_subquery valids none keys pointers).flatten =
        ((keys.zip pointers).zipIdx).flatMap (fun r => inner_row_matches from_correlated_subquery valids r.2 r.1.1 r.1.2) ∧
      ∀ p, (∀ b ∈ probe_inner_join ps bufs from_correlated_subquery valids (some p) keys pointers,
          b ≠ [] ∧ b.length ≤ ps.max_block_size) ∧
        (probe_inner_join ps bufs from_correlated_subquery valids (some p) keys pointers).flatten =
          (((keys.zip pointers).zipIdx).flatMap fun r => inner_row_matches from_correlated_subquery valids r.2 r.1.1 r.1.2).filter p := by
  obtain ⟨bs, hchunk, hflat, hloop⟩ :=
    probe_loop_refines inner_hooks_lawful ps bufs from_correlated_subquery valids keys pointers []
  rw [foldl_inner_step, List.nil_append] at hloop
  -- the blocks are the stream's blocks, each row read as a pair of indexes
  have hrows : (bs.map (List.map JoinEntry.row)).flatten =
      ((keys.zip pointers).zipIdx).flatMap fun r => inner_row_matches from_correlated_subquery valids r.2 r.1.1 r.1.2 := by
    rw [← List.map_flatten, hflat, join_entries, List.map_flatMap]
    simp only [show inner_hooks.unmatched = none from rfl, row_entries_none]
  have hchunk' := hchunk.map JoinEntry.row
  simp only [probe_inner_join, hloop, filter_other_predicate]
  refine ⟨hchunk', hrows, fun p => ⟨fun b hb => ?_, ?_⟩⟩
  · obtain ⟨hne, b', hb', hle⟩ := (filter_other_predicate_some p _).2 b hb
    exact ⟨hne, hle.trans (hchunk'.le b' hb')⟩
  · rw [← hrows]
    exact (filter_other_predicate_some p _).1

-- the inner join of the probe rows with the build rows inserted in `order`: every probed row with
-- every build row of its key, the last inserted first
def inner_join_rows (from_correlated_subquery : Bool) (valids : Option (List Bool)) (keys : List K)
    (order : List (RowPtr × K)) : List (UInt32 × RowPtr) :=
  keys.zipIdx.flatMap fun r =>
    if probe_row_valid from_correlated_subquery valids r.2 then
      (order.filter fun x => x.2 = r.1).reverse.map fun x => (r.2.toUInt32, x.1)
    else []

theorem inner_row_matches_build (hash : K → UInt64) (row_num : Nat) (order : List (RowPtr × K))
    (from_correlated_subquery : Bool) (valids : Option (List Bool)) (keys : List K) (i : Nat) :
    ((keys.zip (((HashJoinHashTable.with_build_row_num row_num).insert_rows hash order).probe (keys.map hash))).zipIdx
        i).flatMap (fun r => inner_row_matches from_correlated_subquery valids r.2 r.1.1 r.1.2) =
      (keys.zipIdx i).flatMap fun r =>
        if probe_row_valid from_correlated_subquery valids r.2 then
          (order.filter fun x => x.2 = r.1).reverse.map fun x => (r.2.toUInt32, x.1)
        else [] := by
  induction keys generalizing i with
  | nil => rfl
  | cons key keys ih =>
    simp only [HashJoinHashTable.probe, List.map_cons, List.zip_cons_cons, List.zipIdx_cons, List.flatMap_cons] at ih ⊢
    rw [ih, inner_row_matches, chain_matches_build, List.map_map]
    rfl

theorem probe_inner_join_exact (hash : K → UInt64) (row_num : Nat) (order : List (RowPtr × K)) (ps : ProbeState)
    (bufs : ProbeBuffers ps) (from_correlated_subquery : Bool) (valids : Option (List Bool)) (keys : List K) :
    let t := (HashJoinHashTable.with_build_row_num row_num).insert_rows hash order
    Chunked ps.max_block_size (probe_inner_join ps bufs from_correlated_subquery valids none keys (t.probe (keys.map hash))) ∧
      (probe_inner_join ps bufs from_correlated_subquery valids none keys (t.probe (keys.map hash))).flatten =
        inner_join_rows from_correlated_subquery valids keys order ∧
      ∀ p, (∀ b ∈ probe_inner_join ps bufs from_correlated_subquery valids (some p) keys (t.probe (keys.map hash)),
          b ≠ [] ∧ b.length ≤ ps.max_block_size) ∧
        (probe_inner_join ps bufs from_correlated_subquery valids (some p) keys (t.probe (keys.map hash))).flatten =
          (inner_join_rows from_correlated_subquery valids keys order).filter p := by
  intro t
  have h := probe_inner_join_blocks ps bufs from_correlated_subquery valids keys (t.probe (keys.map hash))
  rw [inner_row_matches_build] at h
  exact h

end Spec

end Databend.HashJoin
