import Mathlib
import Databend.Library.Cyclic

-- the set keeps its source name, `Hashtable`, inside the namespace of the crate
set_option linter.dupNamespace false

namespace Databend.Hashtable

def slot {K : Type} (entries : List (Option K)) (i : Nat) : Option K := entries.getD i none

structure Table0 (K : Type) where
  len : Nat
  entries : List (Option K)

inductive InsertResult where
  | Ok (slot : Nat)
  | Err (slot : Nat)
  deriving DecidableEq, Repr

-- `(hash as usize) & (capacity - 1)`
def bucket (hash : UInt64) (capacity : Nat) : Nat := hash.toNat &&& (capacity - 1)

-- `(index..capacity).chain(0..index)`
def probe_order (capacity index : Nat) : List Nat :=
  List.range' index (capacity - index) ++ List.range index

section Model

variable {K : Type} [DecidableEq K]

namespace Table0

def capacity (t : Table0 K) : Nat := t.entries.length

def with_capacity (capacity : Nat) : Table0 K :=
  ⟨0, List.replicate (max 8 capacity.nextPowerOfTwo) none⟩

-- the loop of `get_with_hash`: stop at the key or at the first empty slot
def find_loop (entries : List (Option K)) (key : K) : List Nat → Option Nat
  | [] => none
  | i :: rest =>
      match slot entries i with
      | none => none
      | some k => if k = key then some i else find_loop entries key rest

def get_with_hash (t : Table0 K) (key : K) (hash : UInt64) : Option Nat :=
  find_loop t.entries key (probe_order t.capacity (bucket hash t.capacity))

-- the loop of `insert_with_hash`: the first empty slot, or the key's own
def insert_loop (entries : List (Option K)) (key : K) : List Nat → Option InsertResult
  | [] => none
  | i :: rest =>
      match slot entries i with
      | none => some (.Ok i)
      | some k => if k = key then some (.Err i) else insert_loop entries key rest

def insert_with_hash (t : Table0 K) (key : K) (hash : UInt64) : Except String (Table0 K × InsertResult) :=
  match insert_loop t.entries key (probe_order t.capacity (bucket hash t.capacity)) with
  | some (.Ok i) => .ok (⟨t.len + 1, t.entries.set i (some key)⟩, .Ok i)
  | some (.Err i) => .ok (t, .Err i)
  | none => .error "the hash table overflows"

-- the inner loop of both passes of `grow`: the key at `i` moves to the first empty slot its
-- probe meets before reaching `i`
def move_loop (entries : List (Option K)) (i : Nat) (k : K) : List Nat → List (Option K)
  | [] => entries
  | j :: rest =>
      if j = i then entries
      else
        match slot entries j with
        | none => (entries.set j (some k)).set i none
        | some _ => move_loop entries i k rest

-- one step of either pass of `grow`, at slot `i` of the grown table
def rehash (hash : K → UInt64) (entries : List (Option K)) (i : Nat) : List (Option K) :=
  match slot entries i with
  | none => entries
  | some k => move_loop entries i k (probe_order entries.length (bucket (hash k) entries.length))

-- the second pass, which stops at the first empty slot after the old capacity
def rehash_run (hash : K → UInt64) (entries : List (Option K)) : List Nat → List (Option K)
  | [] => entries
  | i :: rest =>
      match slot entries i with
      | none => entries
      | some _ => rehash_run hash (rehash hash entries i) rest

def grow (t : Table0 K) (hash : K → UInt64) (shift : Nat) : Table0 K :=
  let old_capacity := t.capacity
  let new_capacity := old_capacity <<< shift
  let entries := t.entries ++ List.replicate (new_capacity - old_capacity) none
  let entries := (List.range old_capacity).foldl (rehash hash) entries
  { t with entries := rehash_run hash entries (List.range' old_capacity (new_capacity - old_capacity)) }

def check_grow (t : Table0 K) (hash : K → UInt64) : Table0 K :=
  if (t.len + 1) * 2 > t.capacity then
    if t.capacity >>> 22 = 0 then t.grow hash 2 else t.grow hash 1
  else t

def keys (t : Table0 K) : List K := t.entries.filterMap id

-- the loop of `set_merge` that grows until both tables fit at half load; the source loops
-- until then, which takes fewer grows than `fuel` when the capacity is positive
def grow_to_fit (hash : K → UInt64) (other_len : Nat) : Nat → Table0 K → Table0 K
  | 0, t => t
  | fuel + 1, t =>
      if (t.len + other_len) * 2 > t.capacity then
        grow_to_fit hash other_len fuel (if t.capacity >>> 22 = 0 then t.grow hash 2 else t.grow hash 1)
      else t

def insert_all (hash : K → UInt64) : Table0 K → List K → Except String (Table0 K)
  | t, [] => .ok t
  | t, key :: rest => do
      let (t, _) ← t.insert_with_hash key (hash key)
      insert_all hash t rest

def set_merge (t other : Table0 K) (hash : K → UInt64) : Except String (Table0 K) :=
  insert_all hash (grow_to_fit hash other.len ((t.len + other.len) * 2 + 1) t) other.keys

end Table0

structure Keyable (K : Type) where
  hash : K → UInt64
  zero : K

structure Hashtable (K : Type) where
  table : Table0 K
  zero : Bool

namespace Hashtable

def new_in : Hashtable K := ⟨Table0.with_capacity 256, false⟩

def len (ht : Hashtable K) : Nat := (if ht.zero then 1 else 0) + ht.table.len

def contains (kk : Keyable K) (ht : Hashtable K) (key : K) : Bool :=
  if key = kk.zero then ht.zero else (ht.table.get_with_hash key (kk.hash key)).isSome

def insert_and_entry (kk : Keyable K) (ht : Hashtable K) (key : K) : Except String (Hashtable K × Bool) :=
  if key = kk.zero then .ok ({ ht with zero := true }, !ht.zero)
  else do
    let (table, r) ← (ht.table.check_grow kk.hash).insert_with_hash key (kk.hash key)
    pure ({ ht with table }, r matches .Ok _)

def set_merge (kk : Keyable K) (ht other : Hashtable K) : Except String (Hashtable K) := do
  let table ← ht.table.set_merge other.table kk.hash
  pure ⟨table, ht.zero || other.zero⟩

def iter (kk : Keyable K) (ht : Hashtable K) : List K :=
  (if ht.zero then [kk.zero] else []) ++ ht.table.keys

end Hashtable

end Model

section Slots

variable {K : Type}

open Cyclic

theorem slot_set (entries : List (Option K)) {j : Nat} (hj : j < entries.length) (x : Option K) (q : Nat) :
    slot (entries.set j x) q = if q = j then x else slot entries q := by
  unfold slot
  rw [List.getD_eq_getElem?_getD, List.getD_eq_getElem?_getD, List.getElem?_set]
  by_cases hq : q = j
  · simp [hq, hj]
  · simp [hq, Ne.symm hq]

theorem slot_eq_none_of_le (entries : List (Option K)) {q : Nat} (hq : entries.length ≤ q) : slot entries q = none := by
  simp [slot, List.getD_eq_getElem?_getD, List.getElem?_eq_none hq]

theorem lt_of_slot_eq_some {entries : List (Option K)} {q : Nat} {k : K} (h : slot entries q = some k) :
    q < entries.length := by
  by_contra hq
  rw [slot_eq_none_of_le entries (by omega)] at h
  cases h

theorem bucket_lt (hash : UInt64) {N : Nat} (hN : 0 < N) : bucket hash N < N :=
  Nat.lt_of_le_of_lt Nat.and_le_right (by omega)

theorem probe_order_eq {N b : Nat} (hb : b < N) : probe_order N b = (List.range N).map (pos N b) := by
  have hN : N = (N - b) + b := by omega
  rw [probe_order, hN, List.range_add, List.map_append, List.map_map, List.range'_eq_map_range,
    ← hN]
  congr 1
  · refine List.map_congr_left (fun d hd => ?_)
    have hd := List.mem_range.mp hd
    simp only [pos]
    rw [if_pos (by omega)]
  · conv_lhs => rw [← List.map_id (List.range b)]
    refine List.map_congr_left (fun d hd => ?_)
    have hd := List.mem_range.mp hd
    simp only [Function.comp_apply, pos, id]
    rw [if_neg (by omega)]
    omega

def occupied_count (entries : List (Option K)) : Nat := entries.countP Option.isSome

end Slots

section Probing

variable {K : Type}

open Cyclic

theorem find_loop_eq [DecidableEq K] (entries : List (Option K)) (key : K) (ps : List Nat) :
    Table0.find_loop entries key ps =
      (ps.find? (fun i => (slot entries i).all (· = key))).bind
        (fun i => if slot entries i = some key then some i else none) := by
  induction ps with
  | nil => rfl
  | cons i rest ih =>
      cases h : slot entries i with
      | none => simp [Table0.find_loop, h]
      | some k =>
          by_cases hk : k = key
          · simp [Table0.find_loop, h, hk]
          · simp [Table0.find_loop, h, hk, ih]

theorem insert_loop_eq [DecidableEq K] (entries : List (Option K)) (key : K) (ps : List Nat) :
    Table0.insert_loop entries key ps =
      (ps.find? (fun i => (slot entries i).all (· = key))).map
        (fun i => if slot entries i = none then .Ok i else .Err i) := by
  induction ps with
  | nil => rfl
  | cons i rest ih =>
      cases h : slot entries i with
      | none => simp [Table0.insert_loop, h]
      | some k =>
          by_cases hk : k = key
          · simp [Table0.insert_loop, h, hk]
          · simp [Table0.insert_loop, h, hk, ih]

theorem move_loop_eq (entries : List (Option K)) (i : Nat) (k : K) (ps : List Nat) :
    Table0.move_loop entries i k ps =
      match ps.find? (fun j => decide (j = i) || (slot entries j).isNone) with
      | some j => if j = i then entries else (entries.set j (some k)).set i none
      | none => entries := by
  induction ps with
  | nil => rfl
  | cons j rest ih =>
      by_cases hj : j = i
      · simp [Table0.move_loop, hj]
      · cases h : slot entries j with
        | none => simp [Table0.move_loop, hj, h]
        | some k' => simp [Table0.move_loop, hj, h, ih]

def ProbeInv (bkt : K → Nat) (entries : List (Option K)) : Prop :=
  ∀ p k, slot entries p = some k →
    ∀ d < dist entries.length (bkt k) p, (slot entries (pos entries.length (bkt k) d)).isSome

def KeysDistinct (entries : List (Option K)) : Prop :=
  ∀ p q k, slot entries p = some k → slot entries q = some k → p = q

variable {bkt : K → Nat} {entries : List (Option K)}

theorem find?_probe_of_mem [DecidableEq K] (hinv : ProbeInv bkt entries) (hd : KeysDistinct entries)
    (hb : bkt key < entries.length) {p : Nat} (hp : slot entries p = some key) :
    ((List.range entries.length).map (pos entries.length (bkt key))).find?
        (fun i => (slot entries i).all (· = key)) = some p := by
  have hpN := lt_of_slot_eq_some hp
  rw [List.find?_map_range_eq_some]
  refine ⟨dist entries.length (bkt key) p, dist_lt hpN, pos_dist hb hpN, by simp [hp], ?_⟩
  intro d hd'
  have hdN : d < entries.length := Nat.lt_trans hd' (dist_lt hpN)
  -- the slots before are occupied, by other keys since the key is stored once
  obtain ⟨k', hk'⟩ := Option.isSome_iff_exists.mp (hinv p key hp d hd')
  have hne : k' ≠ key := by
    intro heq
    rw [heq] at hk'
    have hpos := hd _ _ _ hk' hp
    rw [← pos_dist hb hpN] at hpos
    exact absurd (pos_injective hb hdN (dist_lt hpN) hpos) (Nat.ne_of_lt hd')
  simp [hk', hne]

theorem find?_probe_of_not_mem [DecidableEq K] (hnot : ∀ p, slot entries p ≠ some key) {b : Nat} :
    ((List.range entries.length).map (pos entries.length b)).find? (fun i => (slot entries i).all (· = key)) =
      ((List.range entries.length).map (pos entries.length b)).find? (fun i => (slot entries i).isNone) := by
  congr 1
  funext i
  cases h : slot entries i with
  | none => rfl
  | some k => simp [show k ≠ key from fun hk => hnot i (hk ▸ h)]

theorem exists_free_of_count_lt (h : occupied_count entries < entries.length) :
    ∃ q < entries.length, slot entries q = none := by
  by_contra hall
  push Not at hall
  have hfull : occupied_count entries = entries.length := by
    rw [occupied_count, List.countP_eq_length]
    intro x hx
    obtain ⟨q, hq, rfl⟩ := List.getElem_of_mem hx
    have hs := hall q hq
    simp only [slot, List.getD_eq_getElem?_getD, List.getElem?_eq_getElem hq, Option.getD_some] at hs
    exact Option.ne_none_iff_isSome.mp hs
  omega

theorem occupied_count_set_some {j : Nat} (hj : j < entries.length) (hfree : slot entries j = none) (k : K) :
    occupied_count (entries.set j (some k)) = occupied_count entries + 1 := by
  have hget : entries[j] = none := by
    simpa [slot, List.getD_eq_getElem?_getD, List.getElem?_eq_getElem hj] using hfree
  rw [occupied_count, List.countP_set hj, hget]
  simp [occupied_count]

theorem find?_probe_free (hfree : ∃ q < entries.length, slot entries q = none) {b : Nat} (hb : b < entries.length) :
    ∃ d < entries.length, ((List.range entries.length).map (pos entries.length b)).find? (fun i => (slot entries i).isNone) =
        some (pos entries.length b d) ∧ slot entries (pos entries.length b d) = none ∧
        ∀ d' < d, (slot entries (pos entries.length b d')).isSome := by
  cases h : ((List.range entries.length).map (pos entries.length b)).find? (fun i => (slot entries i).isNone) with
  | none =>
      obtain ⟨q, hq, hqs⟩ := hfree
      have := List.find?_map_range_eq_none.mp h (dist entries.length b q) (dist_lt hq)
      rw [pos_dist hb hq, hqs] at this
      cases this
  | some j =>
      obtain ⟨d, hd, rfl, hnone, hbefore⟩ := List.find?_map_range_eq_some.mp h
      refine ⟨d, hd, rfl, Option.isNone_iff_eq_none.mp hnone, fun d' hd' => ?_⟩
      simpa using hbefore d' hd'

theorem probeInv_set_first_free (hinv : ProbeInv bkt entries) {key : K} {d : Nat} (hN : bkt key < entries.length)
    (hd : d < entries.length) (hbefore : ∀ d' < d, (slot entries (pos entries.length (bkt key) d')).isSome) :
    ProbeInv bkt (entries.set (pos entries.length (bkt key) d) (some key)) := by
  have hj := pos_lt hN hd
  intro p k hp d' hd'
  rw [List.length_set] at hd' ⊢
  rw [slot_set entries hj] at hp
  rw [slot_set entries hj]
  by_cases hdj : pos entries.length (bkt k) d' = pos entries.length (bkt key) d
  · rw [if_pos hdj]
    rfl
  · rw [if_neg hdj]
    by_cases hpj : p = pos entries.length (bkt key) d
    · -- the new key: the slots before it were occupied already
      rw [if_pos hpj] at hp
      cases hp
      rw [hpj, dist_pos hN hd] at hd'
      exact hbefore d' hd'
    · rw [if_neg hpj] at hp
      exact hinv p k hp d' hd'

theorem keysDistinct_set_absent (hd : KeysDistinct entries) {key : K} (hnot : ∀ p, slot entries p ≠ some key)
    {j : Nat} (hj : j < entries.length) :
    KeysDistinct (entries.set j (some key)) := by
  intro p q k hp hq
  rw [slot_set entries hj] at hp hq
  split_ifs at hp hq with hpj hqj hqj
  · rw [hpj, hqj]
  · cases hp
    exact absurd hq (hnot q)
  · cases hq
    exact absurd hp (hnot p)
  · exact hd p q k hp hq

end Probing

section Table

variable {K : Type} [DecidableEq K] {t : Table0 K} {hash : K → UInt64}

open Cyclic

structure Table0.Inv (t : Table0 K) (hash : K → UInt64) : Prop where
  probe : ProbeInv (fun k => bucket (hash k) t.capacity) t.entries
  distinct : KeysDistinct t.entries
  len_eq : t.len = occupied_count t.entries

theorem get_with_hash_eq_some_iff (hN : 0 < t.capacity) (hinv : t.Inv hash) (key : K) (p : Nat) :
    t.get_with_hash key (hash key) = some p ↔ slot t.entries p = some key := by
  have hprobe := hinv.probe
  simp only [Table0.capacity] at hN hprobe
  unfold Table0.get_with_hash Table0.capacity
  rw [find_loop_eq, probe_order_eq (bucket_lt _ hN)]
  constructor
  · intro h
    obtain ⟨i, -, hb⟩ := Option.bind_eq_some_iff.mp h
    split_ifs at hb with hs
    cases hb
    exact hs
  · intro hp
    rw [find?_probe_of_mem hprobe hinv.distinct (bucket_lt _ hN) hp]
    simp [hp]

theorem insert_with_hash_present (hN : 0 < t.capacity) (hinv : t.Inv hash) {key : K} {p : Nat}
    (hp : slot t.entries p = some key) :
    t.insert_with_hash key (hash key) = .ok (t, .Err p) := by
  have hprobe := hinv.probe
  simp only [Table0.capacity] at hN hprobe
  unfold Table0.insert_with_hash Table0.capacity
  rw [insert_loop_eq, probe_order_eq (bucket_lt _ hN),
    find?_probe_of_mem hprobe hinv.distinct (bucket_lt _ hN) hp]
  simp [hp]

theorem insert_with_hash_absent (hN : 0 < t.capacity) (hinv : t.Inv hash) {key : K}
    (hnot : ∀ p, slot t.entries p ≠ some key) (hfree : occupied_count t.entries < t.capacity) :
    ∃ j < t.capacity, slot t.entries j = none ∧
      t.insert_with_hash key (hash key) = .ok (⟨t.len + 1, t.entries.set j (some key)⟩, .Ok j) ∧
      (⟨t.len + 1, t.entries.set j (some key)⟩ : Table0 K).Inv hash := by
  have hprobe := hinv.probe
  simp only [Table0.capacity] at hN hprobe hfree
  have hb := bucket_lt (hash key) hN
  obtain ⟨d, hd, hfind, hnone, hbefore⟩ := find?_probe_free (exists_free_of_count_lt hfree) hb
  have hj := pos_lt hb hd
  refine ⟨_, hj, hnone, ?_, ?_⟩
  · unfold Table0.insert_with_hash Table0.capacity
    rw [insert_loop_eq, probe_order_eq hb, find?_probe_of_not_mem hnot, hfind]
    simp [hnone]
  · refine ⟨?_, keysDistinct_set_absent hinv.distinct hnot hj, ?_⟩
    · have h := probeInv_set_first_free hprobe hb hd hbefore
      simpa [Table0.capacity, List.length_set] using h
    · rw [occupied_count_set_some hj hnone, ← hinv.len_eq]

end Table

end Databend.Hashtable
