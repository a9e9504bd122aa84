import Mathlib

namespace Databend.Hashtable

structure RowPtr where
  chunk_index : Nat
  row_index : Nat
  deriving DecidableEq, Repr

structure RawEntry (K : Type) where
  row_ptr : RowPtr
  key : K
  deriving DecidableEq, Repr

structure HashJoinHashTable (K : Type) where
  pointers : List (List (RawEntry K))
  hash_mask : UInt64
  -- every masked hash is the index of a bucket
  index_lt : ∀ h : UInt64, (h &&& hash_mask).toNat < pointers.length

namespace HashJoinHashTable

variable {K : Type}

theorem mask_lt_capacity (capacity : Nat) (h : 0 < capacity) : (capacity.toUInt64 - 1).toNat < capacity := by
  rw [UInt64.toNat_sub, UInt64.toNat_one, Nat.toUInt64_eq, UInt64.toNat_ofNat']
  omega

def with_build_row_num (row_num : Nat) : HashJoinHashTable K :=
  let capacity := max (row_num * 2).nextPowerOfTwo (1 <<< 10)
  { pointers := List.replicate capacity []
    hash_mask := capacity.toUInt64 - 1
    index_lt := fun h => by
      rw [List.length_replicate]
      exact Nat.lt_of_le_of_lt (by rw [UInt64.toNat_and]; exact Nat.and_le_right)
        (mask_lt_capacity capacity (Nat.lt_of_lt_of_le (by decide) (Nat.le_max_right _ _))) }

variable (hash : K → UInt64)

def bucket (t : HashJoinHashTable K) (h : UInt64) : List (RawEntry K) :=
  t.pointers.getD (h &&& t.hash_mask).toNat []

def insert (t : HashJoinHashTable K) (key : K) (row_ptr : RowPtr) : HashJoinHashTable K :=
  let index := (hash key &&& t.hash_mask).toNat
  { pointers := t.pointers.modify index (fun head => ⟨row_ptr, key⟩ :: head)
    hash_mask := t.hash_mask
    index_lt := fun h => by rw [List.length_modify]; exact t.index_lt h }

def probe (t : HashJoinHashTable K) (hashes : List UInt64) : List (List (RawEntry K)) :=
  hashes.map t.bucket

end HashJoinHashTable

section NextProbe

variable {K : Type} [DecidableEq K]

def next_probe_loop (key : K) : List (RawEntry K) → Nat → Nat → List RowPtr × List (RawEntry K)
  | [], _, _ => ([], [])
  | e :: rest, occupied, capacity =>
      if occupied ≥ capacity then ([], e :: rest)
      else if key = e.key then
        let r := next_probe_loop key rest (occupied + 1) capacity
        (e.row_ptr :: r.1, r.2)
      else next_probe_loop key rest occupied capacity

def next_probe (key : K) (ptr : List (RawEntry K)) (occupied capacity : Nat) :
    List RowPtr × List (RawEntry K) :=
  let r := next_probe_loop key ptr occupied capacity
  if r.1.isEmpty then ([], []) else r

def next_contains (key : K) : List (RawEntry K) → Bool
  | [] => false
  | e :: rest => if key = e.key then true else next_contains key rest

def chain_matches (key : K) (ptr : List (RawEntry K)) : List RowPtr :=
  (ptr.filter fun e => key = e.key).map RawEntry.row_ptr

variable (key : K)

@[simp] theorem chain_matches_nil : chain_matches key [] = [] := rfl

theorem chain_matches_cons (e : RawEntry K) (rest : List (RawEntry K)) :
    chain_matches key (e :: rest) =
      if key = e.key then e.row_ptr :: chain_matches key rest else chain_matches key rest := by
  by_cases hk : key = e.key <;> simp [chain_matches, hk]

theorem chain_matches_eq_nil {ptr : List (RawEntry K)} (h : ∀ e ∈ ptr, e.key ≠ key) : chain_matches key ptr = [] := by
  rw [chain_matches, List.map_eq_nil_iff, List.filter_eq_nil_iff]
  intro e he hk
  exact h e he (of_decide_eq_true hk).symm

theorem next_probe_loop_fst (ptr : List (RawEntry K)) (occupied capacity : Nat) :
    (next_probe_loop key ptr occupied capacity).1 = (chain_matches key ptr).take (capacity - occupied) := by
  induction ptr generalizing occupied with
  | nil => simp [next_probe_loop]
  | cons e rest ih =>
      rw [next_probe_loop, chain_matches_cons]
      by_cases hc : occupied ≥ capacity
      · simp [hc, Nat.sub_eq_zero_of_le hc]
      · have hroom : capacity - occupied = capacity - (occupied + 1) + 1 := by omega
        by_cases hk : key = e.key
        · rw [if_neg hc, if_pos hk, if_pos hk, hroom, List.take_succ_cons, ← ih]
        · rw [if_neg hc, if_neg hk, if_neg hk, ih]

theorem next_probe_loop_snd (ptr : List (RawEntry K)) (occupied capacity : Nat) :
    chain_matches key (next_probe_loop key ptr occupied capacity).2 =
      (chain_matches key ptr).drop (capacity - occupied) := by
  induction ptr generalizing occupied with
  | nil => simp [next_probe_loop]
  | cons e rest ih =>
      rw [next_probe_loop, chain_matches_cons]
      by_cases hc : occupied ≥ capacity
      · simp [hc, Nat.sub_eq_zero_of_le hc, chain_matches_cons]
      · have hroom : capacity - occupied = capacity - (occupied + 1) + 1 := by omega
        by_cases hk : key = e.key
        · rw [if_neg hc, if_pos hk, if_pos hk, hroom, List.drop_succ_cons, ← ih]
        · rw [if_neg hc, if_neg hk, if_neg hk, ih]

theorem next_probe_loop_length (ptr : List (RawEntry K)) (occupied capacity : Nat) :
    (next_probe_loop key ptr occupied capacity).2.length ≤ ptr.length ∧
      ((next_probe_loop key ptr occupied capacity).1 ≠ [] →
        (next_probe_loop key ptr occupied capacity).2.length < ptr.length) := by
  induction ptr generalizing occupied with
  | nil => simp [next_probe_loop]
  | cons e rest ih =>
      rw [next_probe_loop]
      by_cases hc : occupied ≥ capacity
      · simp [hc]
      · by_cases hk : key = e.key
        · have hle := (ih (occupied + 1)).1
          rw [if_neg hc, if_pos hk, List.length_cons]
          dsimp only
          exact ⟨by omega, fun _ => by omega⟩
        · have hle := (ih occupied).1
          have hlt := (ih occupied).2
          rw [if_neg hc, if_neg hk, List.length_cons]
          exact ⟨by omega, fun h => by have := hlt h; omega⟩

theorem next_probe_loop_snd_suffix (ptr : List (RawEntry K)) (occupied capacity : Nat) :
    (next_probe_loop key ptr occupied capacity).2 <:+ ptr := by
  induction ptr generalizing occupied with
  | nil => exact List.suffix_refl _
  | cons e rest ih =>
      rw [next_probe_loop]
      by_cases hc : occupied ≥ capacity
      · rw [if_pos hc]
      · rw [if_neg hc]
        split
        · exact (ih _).trans (List.suffix_cons e rest)
        · exact (ih _).trans (List.suffix_cons e rest)

theorem next_probe_fst (ptr : List (RawEntry K)) (occupied capacity : Nat) :
    (next_probe key ptr occupied capacity).1 = (chain_matches key ptr).take (capacity - occupied) := by
  rw [next_probe, ← next_probe_loop_fst]
  split
  · next h => exact (List.isEmpty_iff.mp h).symm
  · rfl

theorem next_probe_snd {ptr : List (RawEntry K)} {occupied capacity : Nat}
    (h : (next_probe key ptr occupied capacity).1 ≠ []) :
    chain_matches key (next_probe key ptr occupied capacity).2 =
      (chain_matches key ptr).drop (capacity - occupied) := by
  rw [next_probe] at h ⊢
  split at h
  · exact absurd rfl h
  · next hne => rw [if_neg hne]; exact next_probe_loop_snd key ptr occupied capacity

theorem next_probe_snd_suffix (ptr : List (RawEntry K)) (occupied capacity : Nat) :
    (next_probe key ptr occupied capacity).2 <:+ ptr := by
  rw [next_probe]
  split
  · exact List.nil_suffix
  · exact next_probe_loop_snd_suffix key ptr occupied capacity

theorem next_probe_length_lt {ptr : List (RawEntry K)} {occupied capacity : Nat}
    (h : (next_probe key ptr occupied capacity).1 ≠ []) :
    (next_probe key ptr occupied capacity).2.length < ptr.length := by
  rw [next_probe] at h ⊢
  split at h
  · exact absurd rfl h
  · next hne => rw [if_neg hne]; exact (next_probe_loop_length key ptr occupied capacity).2 h

theorem next_probe_eq_nil {ptr : List (RawEntry K)} {occupied capacity : Nat}
    (h : chain_matches key ptr = [] ∨ capacity ≤ occupied) : next_probe key ptr occupied capacity = ([], []) := by
  have hfst : (next_probe_loop key ptr occupied capacity).1 = [] := by
    rw [next_probe_loop_fst]
    rcases h with h | h
    · rw [h, List.take_nil]
    · rw [Nat.sub_eq_zero_of_le h, List.take_zero]
  rw [next_probe, hfst]
  rfl

theorem next_probe_of_fst_eq_nil {ptr : List (RawEntry K)} {occupied capacity : Nat}
    (h : (next_probe key ptr occupied capacity).1 = []) : next_probe key ptr occupied capacity = ([], []) := by
  rw [next_probe] at h ⊢
  split
  · rfl
  · next hne => rw [if_neg hne] at h; exact absurd (List.isEmpty_iff.mpr h) hne

theorem next_probe_snd_length_lt {ptr : List (RawEntry K)} (hptr : ptr ≠ []) (occupied capacity : Nat) :
    (next_probe key ptr occupied capacity).2.length < ptr.length := by
  by_cases h : (next_probe key ptr occupied capacity).1 = []
  · rw [next_probe_of_fst_eq_nil key h, List.length_nil]
    exact List.length_pos_iff.mpr hptr
  · exact next_probe_length_lt key h

def probe_matches (capacity : Nat) : List (RawEntry K) → List RowPtr
  | [] => []
  | e :: rest =>
      (next_probe key (e :: rest) 0 capacity).1 ++ probe_matches capacity (next_probe key (e :: rest) 0 capacity).2
termination_by ptr => ptr.length
decreasing_by exact next_probe_snd_length_lt key (List.cons_ne_nil e rest) 0 capacity

theorem probe_matches_eq {capacity : Nat} (hc : 0 < capacity) (ptr : List (RawEntry K)) :
    probe_matches key capacity ptr = chain_matches key ptr := by
  -- on the length of the chain, which every call shortens
  induction hn : ptr.length using Nat.strong_induction_on generalizing ptr with
  | _ n ih =>
  cases ptr with
  | nil => rw [probe_matches, chain_matches_nil]
  | cons e rest =>
    have hlt := next_probe_snd_length_lt key (List.cons_ne_nil e rest) 0 capacity
    rw [probe_matches, ih _ (hn ▸ hlt) _ rfl]
    by_cases hfst : (next_probe key (e :: rest) 0 capacity).1 = []
    · -- nothing was copied although there was room: the chain holds no match
      have hnil : chain_matches key (e :: rest) = [] := by
        rw [next_probe_fst, Nat.sub_zero, List.take_eq_nil_iff] at hfst
        exact hfst.resolve_left (Nat.ne_of_gt hc)
      rw [next_probe_of_fst_eq_nil key hfst, hnil]
      rfl
    · rw [next_probe_snd key hfst, next_probe_fst, Nat.sub_zero, List.take_append_drop]

theorem next_contains_iff (ptr : List (RawEntry K)) : next_contains key ptr = true ↔ ∃ e ∈ ptr, e.key = key := by
  induction ptr with
  | nil => simp [next_contains]
  | cons e rest ih => by_cases hk : key = e.key <;> simp [next_contains, hk, ih, eq_comm]

end NextProbe

section Table

variable {K : Type} (hash : K → UInt64)

theorem HashJoinHashTable.bucket_insert (t : HashJoinHashTable K) (key : K) (row_ptr : RowPtr) (h : UInt64) :
    (t.insert hash key row_ptr).bucket h =
      if (hash key &&& t.hash_mask).toNat = (h &&& t.hash_mask).toNat then ⟨row_ptr, key⟩ :: t.bucket h
      else t.bucket h := by
  have hlt := t.index_lt h
  simp only [HashJoinHashTable.bucket, HashJoinHashTable.insert, List.getD_eq_getElem?_getD,
    List.getElem?_modify, List.getElem?_eq_getElem hlt, Option.map_eq_map, Option.map_some, Option.getD_some]

theorem HashJoinHashTable.mem_bucket_insert {t : HashJoinHashTable K} {key : K} {row_ptr : RowPtr} {h : UInt64}
    {e : RawEntry K} (he : e ∈ (t.insert hash key row_ptr).bucket h) : e = ⟨row_ptr, key⟩ ∨ e ∈ t.bucket h := by
  rw [HashJoinHashTable.bucket_insert] at he
  split at he
  · exact List.mem_cons.mp he
  · exact Or.inr he

def HashJoinHashTable.insert_rows (t : HashJoinHashTable K) (rows : List (RowPtr × K)) : HashJoinHashTable K :=
  rows.foldl (fun t x => t.insert hash x.2 x.1) t

theorem HashJoinHashTable.getD_pointers_insert (t : HashJoinHashTable K) (key : K) (row_ptr : RowPtr) (i : Nat) :
    (t.insert hash key row_ptr).pointers.getD i [] =
      if (hash key &&& t.hash_mask).toNat = i then ⟨row_ptr, key⟩ :: t.pointers.getD i [] else t.pointers.getD i [] := by
  have hlt := t.index_lt (hash key)
  simp only [HashJoinHashTable.insert, List.getD_eq_getElem?_getD, List.getElem?_modify]
  split
  · next hi => rw [← hi, List.getElem?_eq_getElem hlt]; rfl
  · simp

@[simp] theorem HashJoinHashTable.hash_mask_insert_rows (t : HashJoinHashTable K) (rows : List (RowPtr × K)) :
    (t.insert_rows hash rows).hash_mask = t.hash_mask := by
  induction rows using List.reverseRecOn with
  | nil => rfl
  | append_singleton rows x ih => rw [HashJoinHashTable.insert_rows, List.foldl_append] at *; exact ih

theorem HashJoinHashTable.getD_pointers_insert_rows (t : HashJoinHashTable K) (rows : List (RowPtr × K)) (i : Nat) :
    (t.insert_rows hash rows).pointers.getD i [] =
      ((rows.filter fun x => (hash x.2 &&& t.hash_mask).toNat = i).reverse.map fun x => ⟨x.1, x.2⟩) ++
        t.pointers.getD i [] := by
  induction rows using List.reverseRecOn with
  | nil => rfl
  | append_singleton rows x ih =>
    have hmask := HashJoinHashTable.hash_mask_insert_rows hash t rows
    rw [HashJoinHashTable.insert_rows, List.foldl_append] at *
    rw [List.foldl_cons, List.foldl_nil, HashJoinHashTable.getD_pointers_insert, hmask, ih,
      List.filter_append, List.reverse_append, List.map_append, List.append_assoc]
    by_cases hx : (hash x.2 &&& t.hash_mask).toNat = i
    · rw [if_pos hx, List.filter_singleton, decide_eq_true hx, cond_true]
      rfl
    · rw [if_neg hx, List.filter_singleton, decide_eq_false hx, cond_false]
      rfl

theorem HashJoinHashTable.bucket_with_build_row_num (row_num : Nat) (h : UInt64) :
    (HashJoinHashTable.with_build_row_num row_num : HashJoinHashTable K).bucket h = [] := by
  have hlt := (HashJoinHashTable.with_build_row_num row_num : HashJoinHashTable K).index_lt h
  rw [HashJoinHashTable.bucket, List.getD_eq_getElem?_getD, List.getElem?_eq_getElem hlt]
  simp [HashJoinHashTable.with_build_row_num]

theorem HashJoinHashTable.getD_pointers_with_build_row_num (row_num i : Nat) :
    (HashJoinHashTable.with_build_row_num row_num : HashJoinHashTable K).pointers.getD i [] = [] := by
  simp [HashJoinHashTable.with_build_row_num, List.getD_eq_getElem?_getD, List.getElem?_replicate]
  split <;> rfl

theorem HashJoinHashTable.getD_pointers_build (row_num : Nat) (rows : List (RowPtr × K)) (i : Nat) :
    ((HashJoinHashTable.with_build_row_num row_num).insert_rows hash rows).pointers.getD i [] =
      (rows.filter fun x =>
        (hash x.2 &&& (HashJoinHashTable.with_build_row_num row_num : HashJoinHashTable K).hash_mask).toNat = i).reverse.map
        fun x => ⟨x.1, x.2⟩ := by
  rw [HashJoinHashTable.getD_pointers_insert_rows, HashJoinHashTable.getD_pointers_with_build_row_num, List.append_nil]

variable [DecidableEq K]

theorem chain_matches_build (row_num : Nat) (rows : List (RowPtr × K)) (key : K) :
    chain_matches key (((HashJoinHashTable.with_build_row_num row_num).insert_rows hash rows).bucket (hash key)) =
      (rows.filter fun x => x.2 = key).reverse.map Prod.fst := by
  rw [HashJoinHashTable.bucket, HashJoinHashTable.hash_mask_insert_rows, HashJoinHashTable.getD_pointers_build,
    chain_matches, List.filter_map, List.map_map, List.filter_reverse, List.map_reverse, List.map_reverse,
    List.filter_filter]
  congr 2
  refine List.filter_congr fun x _ => ?_
  -- a row with the key is in the key's bucket
  by_cases hx : x.2 = key
  · simp [hx]
  · simp [hx, Ne.symm hx]

theorem next_contains_build (row_num : Nat) (rows : List (RowPtr × K)) (key : K) :
    next_contains key (((HashJoinHashTable.with_build_row_num row_num).insert_rows hash rows).bucket (hash key)) = true ↔
      ∃ x ∈ rows, x.2 = key := by
  rw [next_contains_iff, HashJoinHashTable.bucket, HashJoinHashTable.hash_mask_insert_rows,
    HashJoinHashTable.getD_pointers_build]
  simp only [List.map_reverse, List.mem_reverse, List.mem_map, List.mem_filter, decide_eq_true_eq]
  constructor
  · rintro ⟨_, ⟨x, ⟨hx, -⟩, rfl⟩, rfl⟩
    exact ⟨x, hx, rfl⟩
  · rintro ⟨x, hx, rfl⟩
    exact ⟨_, ⟨x, ⟨hx, rfl⟩, rfl⟩, rfl⟩

end Table

end Databend.Hashtable
