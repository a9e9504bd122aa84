import Mathlib
import Databend.Hashtable.HashJoinHashtable

-- the hash join table for string keys (`hashjoin_string_hashtable.rs`)

namespace Databend.Hashtable

def STRING_EARLY_SIZE : Nat := 4

structure StringRawEntry where
  row_ptr : RowPtr
  length : UInt32
  early : List UInt8
  key : List UInt8
  deriving DecidableEq, Repr

-- the entry `insert_string_key` writes for a row: `length` is `key.len() as u32` and `early` holds
-- the first `min(STRING_EARLY_SIZE, key.len())` bytes of the key, the rest of the array unwritten
def StringRawEntry.of (e : RawEntry (List UInt8)) : StringRawEntry :=
  { row_ptr := e.row_ptr, length := e.key.length.toUInt32, early := e.key.take STRING_EARLY_SIZE, key := e.key }

def StringRawEntry.key_ref (e : StringRawEntry) : List UInt8 := e.key.take e.length.toNat

section StringProbe

variable (key : List UInt8)

def string_next_probe_loop : List StringRawEntry → Nat → Nat → List RowPtr × List StringRawEntry
  | [], _, _ => ([], [])
  | e :: rest, occupied, capacity =>
      if occupied ≥ capacity then ([], e :: rest)
      else
        let min_len := min STRING_EARLY_SIZE key.length
        if e.length.toNat = key.length ∧ key.take min_len = e.early.take min_len ∧ key = e.key_ref then
          let r := string_next_probe_loop rest (occupied + 1) capacity
          (e.row_ptr :: r.1, r.2)
        else string_next_probe_loop rest occupied capacity

def string_next_probe (ptr : List StringRawEntry) (occupied capacity : Nat) : List RowPtr × List StringRawEntry :=
  let r := string_next_probe_loop key ptr occupied capacity
  if r.1.isEmpty then ([], []) else r

def string_next_contains : List StringRawEntry → Bool
  | [] => false
  | e :: rest =>
      let min_len := min STRING_EARLY_SIZE (min key.length e.length.toNat)
      if e.length.toNat = key.length ∧ key.take min_len = e.early.take min_len ∧ key = e.key_ref then true
      else string_next_contains rest

theorem string_next_probe_loop_length (ptr : List StringRawEntry) (occupied capacity : Nat) :
    (string_next_probe_loop key ptr occupied capacity).2.length ≤ ptr.length ∧
      ((string_next_probe_loop key ptr occupied capacity).1 ≠ [] →
        (string_next_probe_loop key ptr occupied capacity).2.length < ptr.length) := by
  induction ptr generalizing occupied with
  | nil => simp [string_next_probe_loop]
  | cons e rest ih =>
      rw [string_next_probe_loop]
      by_cases hc : occupied ≥ capacity
      · simp [hc]
      · rw [if_neg hc]
        dsimp only
        split
        · have hle := (ih (occupied + 1)).1
          dsimp only
          rw [List.length_cons]
          exact ⟨by omega, fun _ => by omega⟩
        · have hle := (ih occupied).1
          have hlt := (ih occupied).2
          rw [List.length_cons]
          exact ⟨by omega, fun h => by have := hlt h; omega⟩

theorem string_next_probe_snd_length_lt {ptr : List StringRawEntry} (hptr : ptr ≠ []) (occupied capacity : Nat) :
    (string_next_probe key ptr occupied capacity).2.length < ptr.length := by
  rw [string_next_probe]
  split
  · exact List.length_pos_iff.mpr hptr
  · next hne =>
    exact (string_next_probe_loop_length key ptr occupied capacity).2 fun h => hne (List.isEmpty_iff.mpr h)

def string_probe_matches (capacity : Nat) : List StringRawEntry → List RowPtr
  | [] => []
  | e :: rest =>
      (string_next_probe key (e :: rest) 0 capacity).1 ++
        string_probe_matches capacity (string_next_probe key (e :: rest) 0 capacity).2
termination_by ptr => ptr.length
decreasing_by exact string_next_probe_snd_length_lt key (List.cons_ne_nil e rest) 0 capacity

-- the entry of a key of fewer than `2^32` bytes: its length and early bytes are the key's
def StringRawEntry.Valid (e : RawEntry (List UInt8)) : Prop := e.key.length < 2 ^ 32

theorem length_of_toNat {e : RawEntry (List UInt8)} (he : StringRawEntry.Valid e) :
    (StringRawEntry.of e).length.toNat = e.key.length := by
  simp only [StringRawEntry.of, Nat.toUInt32_eq, UInt32.toNat_ofNat']
  exact Nat.mod_eq_of_lt he

theorem string_matches_of_valid {e : RawEntry (List UInt8)} (he : StringRawEntry.Valid e) (min_len : Nat) :
    ((StringRawEntry.of e).length.toNat = key.length ∧
        key.take (min STRING_EARLY_SIZE min_len) = (StringRawEntry.of e).early.take (min STRING_EARLY_SIZE min_len) ∧
        key = (StringRawEntry.of e).key_ref) ↔ key = e.key := by
  have hkey_ref : (StringRawEntry.of e).key_ref = e.key := by
    rw [StringRawEntry.key_ref, length_of_toNat he]
    exact List.take_length
  rw [length_of_toNat he, hkey_ref]
  constructor
  · exact fun h => h.2.2
  · rintro rfl
    refine ⟨rfl, ?_, rfl⟩
    show _ = (e.key.take STRING_EARLY_SIZE).take _
    rw [List.take_take, Nat.min_eq_left (Nat.min_le_left _ _)]

theorem string_next_probe_loop_of (ptr : List (RawEntry (List UInt8))) (hptr : ∀ e ∈ ptr, StringRawEntry.Valid e)
    (occupied capacity : Nat) :
    string_next_probe_loop key (ptr.map StringRawEntry.of) occupied capacity =
      ((next_probe_loop key ptr occupied capacity).1, (next_probe_loop key ptr occupied capacity).2.map StringRawEntry.of) := by
  induction ptr generalizing occupied with
  | nil => rfl
  | cons e rest ih =>
    have hrest := ih fun e' he' => hptr e' (List.mem_cons_of_mem e he')
    rw [List.map_cons, string_next_probe_loop, next_probe_loop]
    by_cases hc : occupied ≥ capacity
    · simp [hc]
    · rw [if_neg hc, if_neg hc]
      dsimp only
      rw [if_congr (string_matches_of_valid key (hptr e List.mem_cons_self) key.length) rfl rfl]
      by_cases hk : key = e.key
      · rw [if_pos hk, if_pos hk, hrest]
        rfl
      · rw [if_neg hk, if_neg hk, hrest]

theorem string_next_probe_of {ptr : List (RawEntry (List UInt8))} (hptr : ∀ e ∈ ptr, StringRawEntry.Valid e)
    (occupied capacity : Nat) :
    string_next_probe key (ptr.map StringRawEntry.of) occupied capacity =
      ((next_probe key ptr occupied capacity).1, (next_probe key ptr occupied capacity).2.map StringRawEntry.of) := by
  rw [string_next_probe, next_probe, string_next_probe_loop_of key ptr hptr]
  dsimp only
  split <;> rfl

theorem string_probe_matches_of {capacity : Nat} (ptr : List (RawEntry (List UInt8)))
    (hptr : ∀ e ∈ ptr, StringRawEntry.Valid e) :
    string_probe_matches key capacity (ptr.map StringRawEntry.of) = probe_matches key capacity ptr := by
  -- on the length of the chain, as for fixed keys; every suffix of the chain is valid
  induction hn : ptr.length using Nat.strong_induction_on generalizing ptr with
  | _ n ih =>
  cases ptr with
  | nil => rw [List.map_nil, string_probe_matches, probe_matches]
  | cons e rest =>
    have hlt := next_probe_snd_length_lt key (List.cons_ne_nil e rest) 0 capacity
    rw [List.map_cons, string_probe_matches, ← List.map_cons, string_next_probe_of key hptr, probe_matches]
    rw [ih _ (hn ▸ hlt) _ ?_ rfl]
    intro e' he'
    exact hptr e' ((next_probe_snd_suffix key (e :: rest) 0 capacity).subset he')

theorem string_next_contains_of (ptr : List (RawEntry (List UInt8))) (hptr : ∀ e ∈ ptr, StringRawEntry.Valid e) :
    string_next_contains key (ptr.map StringRawEntry.of) = next_contains key ptr := by
  induction ptr with
  | nil => rfl
  | cons e rest ih =>
    rw [List.map_cons, string_next_contains, next_contains]
    rw [if_congr (string_matches_of_valid key (hptr e List.mem_cons_self) (min key.length _)) rfl rfl,
      ih fun e' he' => hptr e' (List.mem_cons_of_mem e he')]

theorem length_of_toNat_ne {e : RawEntry (List UInt8)} (he : 2 ^ 32 ≤ e.key.length) :
    (StringRawEntry.of e).length.toNat ≠ e.key.length := by
  simp only [StringRawEntry.of, Nat.toUInt32_eq, UInt32.toNat_ofNat']
  have := Nat.mod_lt e.key.length (show 0 < 2 ^ 32 by decide)
  omega

theorem string_next_contains_long {e : RawEntry (List UInt8)} (he : 2 ^ 32 ≤ e.key.length) :
    string_next_contains e.key [StringRawEntry.of e] = false := by
  simp [string_next_contains, length_of_toNat_ne he]

theorem string_probe_matches_long {e : RawEntry (List UInt8)} (he : 2 ^ 32 ≤ e.key.length) (capacity : Nat) :
    string_probe_matches e.key capacity [StringRawEntry.of e] = [] := by
  have hloop : (string_next_probe_loop e.key [StringRawEntry.of e] 0 capacity).1 = [] := by
    by_cases hc : 0 ≥ capacity
    · simp [string_next_probe_loop, hc]
    · simp [string_next_probe_loop, hc, length_of_toNat_ne he]
  have hwalk : string_next_probe e.key [StringRawEntry.of e] 0 capacity = ([], []) := by
    rw [string_next_probe, if_pos (List.isEmpty_iff.mpr hloop)]
  rw [string_probe_matches, hwalk, string_probe_matches]
  rfl

end StringProbe

end Databend.Hashtable
