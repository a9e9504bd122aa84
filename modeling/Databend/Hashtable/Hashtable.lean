import Mathlib
import Databend.Library.ExceptM
import Databend.Hashtable.Grow

namespace Databend.Hashtable

section Keys

variable {K : Type} {entries : List (Option K)}

theorem mem_filterMap_id {k : K} : k ∈ entries.filterMap id ↔ ∃ p, slot entries p = some k := by
  rw [List.mem_filterMap]
  constructor
  · rintro ⟨x, hx, hxk⟩
    obtain ⟨p, hp⟩ := List.mem_iff_getElem?.mp hx
    refine ⟨p, ?_⟩
    rw [slot, List.getD_eq_getElem?_getD, hp, Option.getD_some]
    exact hxk
  · rintro ⟨p, hp⟩
    rw [slot, List.getD_eq_getElem?_getD] at hp
    cases h : entries[p]? with
    | none =>
        rw [h] at hp
        cases hp
    | some x =>
        rw [h, Option.getD_some] at hp
        exact ⟨x, List.mem_iff_getElem?.mpr ⟨p, h⟩, hp⟩

theorem length_filterMap_id : (entries.filterMap id).length = occupied_count entries := by
  rw [List.length_filterMap_eq_countP]
  rfl

theorem nodup_filterMap_id : ∀ {entries : List (Option K)}, KeysDistinct entries →
    (entries.filterMap id).Nodup
  | [], _ => List.nodup_nil
  | a :: l, hd => by
      have hl : KeysDistinct l := fun p q k hp hq => Nat.succ.inj (hd (p + 1) (q + 1) k hp hq)
      cases a with
      | none => simpa using nodup_filterMap_id hl
      | some k =>
          rw [List.filterMap_cons_some (rfl : id (some k) = some k)]
          refine List.nodup_cons.mpr ⟨fun hk => ?_, nodup_filterMap_id hl⟩
          obtain ⟨p, hp⟩ := mem_filterMap_id.mp hk
          exact absurd (hd 0 (p + 1) k rfl hp) (by omega)

theorem mem_set_some {j : Nat} (hj : j < entries.length) (hnone : slot entries j = none) {key k : K} :
    (∃ p, slot (entries.set j (some key)) p = some k) ↔ k = key ∨ ∃ p, slot entries p = some k := by
  constructor
  · rintro ⟨p, hp⟩
    rw [slot_set _ hj] at hp
    by_cases hpj : p = j
    · rw [if_pos hpj] at hp
      cases hp
      exact Or.inl rfl
    · rw [if_neg hpj] at hp
      exact Or.inr ⟨p, hp⟩
  · rintro (rfl | ⟨p, hp⟩)
    · exact ⟨j, by rw [slot_set _ hj, if_pos rfl]⟩
    · by_cases hpj : p = j
      · rw [hpj, hnone] at hp
        cases hp
      · exact ⟨p, by rw [slot_set _ hj, if_neg hpj]; exact hp⟩

end Keys

section Table

variable {K : Type} {t : Table0 K} {hash : K → UInt64} {zero : K}

structure Table0.SetInv (t : Table0 K) (hash : K → UInt64) (zero : K) : Prop where
  inv : t.Inv hash
  pow : ∃ a, t.capacity = 2 ^ a
  half : 2 * t.len ≤ t.capacity
  no_zero : ∀ p, slot t.entries p ≠ some zero

namespace Table0.SetInv

theorem capacity_pos (h : t.SetInv hash zero) : 0 < t.capacity := by
  obtain ⟨a, ha⟩ := h.pow
  rw [ha]
  exact Nat.two_pow_pos a

theorem len_lt (h : t.SetInv hash zero) : t.len < t.capacity := by
  have := h.half
  have := h.capacity_pos
  omega

end Table0.SetInv

theorem mem_keys {k : K} : k ∈ t.keys ↔ ∃ p, slot t.entries p = some k := mem_filterMap_id

theorem grow_setInv (h : t.SetInv hash zero) {shift : Nat} (hshift : 1 ≤ shift) :
    (t.grow hash shift).SetInv hash zero ∧ (t.grow hash shift).len = t.len ∧
      (∀ k, k ∈ (t.grow hash shift).keys ↔ k ∈ t.keys) ∧ 2 * t.capacity ≤ (t.grow hash shift).capacity := by
  obtain ⟨a, ha⟩ := h.pow
  obtain ⟨hinv, hcap, hlen, hmem⟩ := grow_inv h.inv ha hshift h.len_lt
  have hdouble : 2 * t.capacity ≤ (t.grow hash shift).capacity := by
    rw [hcap, ha]
    exact two_mul_le_pow_add a hshift
  refine ⟨⟨hinv, ⟨a + shift, hcap⟩, ?_, fun p hp => ?_⟩, hlen, fun k => ?_, hdouble⟩
  · rw [hlen]
    have := h.half
    omega
  · obtain ⟨q, hq⟩ := (hmem zero).mp ⟨p, hp⟩
    exact h.no_zero q hq
  · rw [mem_keys, mem_keys]
    exact hmem k

-- `check_grow` and the loop of `set_merge` grow by four below 2^22 slots and by two above
theorem grow_either_setInv (h : t.SetInv hash zero) :
    (if t.capacity >>> 22 = 0 then t.grow hash 2 else t.grow hash 1).SetInv hash zero ∧
      (if t.capacity >>> 22 = 0 then t.grow hash 2 else t.grow hash 1).len = t.len ∧
      (∀ k, k ∈ (if t.capacity >>> 22 = 0 then t.grow hash 2 else t.grow hash 1).keys ↔ k ∈ t.keys) ∧
      2 * t.capacity ≤ (if t.capacity >>> 22 = 0 then t.grow hash 2 else t.grow hash 1).capacity := by
  split
  · exact grow_setInv h (by decide)
  · exact grow_setInv h (by decide)

theorem check_grow_setInv (h : t.SetInv hash zero) :
    (t.check_grow hash).SetInv hash zero ∧ (t.check_grow hash).len = t.len ∧
      (∀ k, k ∈ (t.check_grow hash).keys ↔ k ∈ t.keys) ∧
      ((t.check_grow hash).len + 1) * 2 ≤ (t.check_grow hash).capacity := by
  unfold Table0.check_grow
  split
  · obtain ⟨h', hlen, hkeys, hcap⟩ := grow_either_setInv h
    refine ⟨h', hlen, hkeys, ?_⟩
    rw [hlen]
    have := h.len_lt
    omega
  · exact ⟨h, rfl, fun _ => Iff.rfl, by omega⟩

theorem slot_replicate_none (m p : Nat) : slot (List.replicate m (none : Option K)) p = none := by
  unfold slot
  rw [List.getD_eq_getElem?_getD, List.getElem?_replicate]
  split <;> rfl

theorem with_capacity_setInv (capacity : Nat) : (Table0.with_capacity capacity : Table0 K).SetInv hash zero where
  inv := by
    refine ⟨fun p k hp => ?_, fun p q k hp => ?_, ?_⟩
    · rw [Table0.with_capacity, slot_replicate_none] at hp
      cases hp
    · rw [Table0.with_capacity, slot_replicate_none] at hp
      cases hp
    · simp [Table0.with_capacity, occupied_count, List.countP_replicate]
  pow := by
    obtain ⟨a, ha⟩ := Nat.isPowerOfTwo_nextPowerOfTwo capacity
    simp only [Table0.capacity, Table0.with_capacity, List.length_replicate]
    by_cases h8 : 8 ≤ capacity.nextPowerOfTwo
    · exact ⟨a, by rw [Nat.max_eq_right h8, ha]⟩
    · exact ⟨3, (Nat.max_eq_left (by omega)).trans rfl⟩
  half := by simp [Table0.with_capacity]
  no_zero p := by
    rw [Table0.with_capacity, slot_replicate_none]
    simp

theorem grow_to_fit_setInv (other_len : Nat) : ∀ (fuel : Nat) {t : Table0 K}, t.SetInv hash zero →
    (t.len + other_len) * 2 ≤ t.capacity * 2 ^ fuel →
    (Table0.grow_to_fit hash other_len fuel t).SetInv hash zero ∧
      (Table0.grow_to_fit hash other_len fuel t).len = t.len ∧
      (∀ k, k ∈ (Table0.grow_to_fit hash other_len fuel t).keys ↔ k ∈ t.keys) ∧
      ((Table0.grow_to_fit hash other_len fuel t).len + other_len) * 2 ≤
        (Table0.grow_to_fit hash other_len fuel t).capacity
  | 0, t, h, hfit => by
      rw [Nat.pow_zero, Nat.mul_one] at hfit
      exact ⟨h, rfl, fun _ => Iff.rfl, hfit⟩
  | fuel + 1, t, h, hfit => by
      unfold Table0.grow_to_fit
      split
      · obtain ⟨h', hlen, hkeys, hcap⟩ := grow_either_setInv h
        have hfit' : (t.len + other_len) * 2 ≤ 2 * t.capacity * 2 ^ fuel := by
          rw [Nat.pow_succ, Nat.mul_comm (2 ^ fuel) 2, ← Nat.mul_assoc, Nat.mul_comm t.capacity 2] at hfit
          exact hfit
        obtain ⟨h'', hlen', hkeys', hroom⟩ :=
          grow_to_fit_setInv other_len fuel h' (by rw [hlen]; exact Nat.le_trans hfit' (Nat.mul_le_mul_right _ hcap))
        exact ⟨h'', hlen'.trans hlen, fun k => (hkeys' k).trans (hkeys k), hroom⟩
      · exact ⟨h, rfl, fun _ => Iff.rfl, by omega⟩

variable [DecidableEq K]

theorem insert_with_hash_setInv (h : t.SetInv hash zero) (hroom : (t.len + 1) * 2 ≤ t.capacity)
    {key : K} (hkey : key ≠ zero) :
    ∃ t' r, t.insert_with_hash key (hash key) = .ok (t', r) ∧ t'.SetInv hash zero ∧
      t'.capacity = t.capacity ∧ t'.len ≤ t.len + 1 ∧ (∀ k, k ∈ t'.keys ↔ k = key ∨ k ∈ t.keys) ∧
      (r matches .Ok _) = decide (key ∉ t.keys) := by
  by_cases hmem : key ∈ t.keys
  · obtain ⟨p, hp⟩ := mem_keys.mp hmem
    refine ⟨t, .Err p, insert_with_hash_present h.capacity_pos h.inv hp, h, rfl, by omega,
      fun k => ⟨Or.inr, ?_⟩, by simp [hmem]⟩
    rintro (rfl | hk)
    · exact hmem
    · exact hk
  · have hnot : ∀ p, slot t.entries p ≠ some key := fun p hp => hmem (mem_keys.mpr ⟨p, hp⟩)
    have hfree : occupied_count t.entries < t.capacity := by
      rw [← h.inv.len_eq]
      omega
    obtain ⟨j, hj, hnone, heq, hinv'⟩ := insert_with_hash_absent h.capacity_pos h.inv hnot hfree
    have hcap : (⟨t.len + 1, t.entries.set j (some key)⟩ : Table0 K).capacity = t.capacity := by
      simp [Table0.capacity]
    obtain ⟨a, ha⟩ := h.pow
    refine ⟨_, _, heq, ⟨hinv', ⟨a, by rw [hcap, ha]⟩, ?_, fun p hp => ?_⟩, hcap, by simp, fun k => ?_,
      by simp [hmem]⟩
    · rw [hcap]
      show 2 * (t.len + 1) ≤ t.capacity
      omega
    · rcases (mem_set_some hj hnone).mp ⟨p, hp⟩ with hzk | ⟨q, hq⟩
      · exact hkey hzk.symm
      · exact h.no_zero q hq
    · rw [mem_keys, mem_keys]
      exact mem_set_some hj hnone

theorem insert_all_setInv : ∀ (l : List K) {t : Table0 K}, t.SetInv hash zero → (∀ k ∈ l, k ≠ zero) →
    (t.len + l.length) * 2 ≤ t.capacity →
    ∃ t', Table0.insert_all hash t l = .ok t' ∧ t'.SetInv hash zero ∧ ∀ k, k ∈ t'.keys ↔ k ∈ l ∨ k ∈ t.keys
  | [], t, h, _, _ => ⟨t, rfl, h, fun k => by simp⟩
  | key :: rest, t, h, hl, hfit => by
      rw [List.length_cons] at hfit
      obtain ⟨t1, r, heq, h1, hcap1, hlen1, hkeys1, -⟩ :=
        insert_with_hash_setInv h (by omega) (hl key List.mem_cons_self)
      obtain ⟨t', heq', h', hkeys'⟩ :=
        insert_all_setInv rest h1 (fun k hk => hl k (List.mem_cons_of_mem _ hk)) (by rw [hcap1]; omega)
      refine ⟨t', ?_, h', fun k => ?_⟩
      · simp only [Table0.insert_all, heq, bind, Except.bind]
        exact heq'
      · rw [hkeys', hkeys1, List.mem_cons]
        constructor
        · rintro (hk | hk | hk)
          · exact Or.inl (Or.inr hk)
          · exact Or.inl (Or.inl hk)
          · exact Or.inr hk
        · rintro ((hk | hk) | hk)
          · exact Or.inr (Or.inl hk)
          · exact Or.inl hk
          · exact Or.inr (Or.inr hk)

theorem set_merge_setInv {other : Table0 K} (h : t.SetInv hash zero) (ho : other.SetInv hash zero) :
    ∃ t', t.set_merge other hash = .ok t' ∧ t'.SetInv hash zero ∧ ∀ k, k ∈ t'.keys ↔ k ∈ t.keys ∨ k ∈ other.keys := by
  have hfuel : (t.len + other.len) * 2 ≤ t.capacity * 2 ^ ((t.len + other.len) * 2 + 1) := by
    have := Nat.lt_two_pow_self (n := (t.len + other.len) * 2 + 1)
    calc (t.len + other.len) * 2 ≤ 2 ^ ((t.len + other.len) * 2 + 1) := by omega
      _ ≤ t.capacity * 2 ^ ((t.len + other.len) * 2 + 1) := Nat.le_mul_of_pos_left _ h.capacity_pos
  obtain ⟨hg, -, hgkeys, hgfit⟩ := grow_to_fit_setInv other.len _ h hfuel
  have hlen : other.keys.length = other.len := by
    rw [Table0.keys, length_filterMap_id, ← ho.inv.len_eq]
  have hnz : ∀ k ∈ other.keys, k ≠ zero := by
    rintro k hk rfl
    obtain ⟨p, hp⟩ := mem_keys.mp hk
    exact ho.no_zero p hp
  obtain ⟨t', heq, h', hkeys⟩ := insert_all_setInv other.keys hg hnz (by rw [hlen]; exact hgfit)
  refine ⟨t', heq, h', fun k => ?_⟩
  rw [hkeys, hgkeys, or_comm]

end Table

section Set

variable {K : Type} [DecidableEq K] {kk : Keyable K} {ht other : Hashtable K} {ins ins' : List K}

structure Represents (kk : Keyable K) (ht : Hashtable K) (ins : List K) : Prop where
  table : ht.table.SetInv kk.hash kk.zero
  zero_iff : ht.zero = true ↔ kk.zero ∈ ins
  keys_iff : ∀ k, k ∈ ht.table.keys ↔ k ≠ kk.zero ∧ k ∈ ins

namespace Represents

omit [DecidableEq K] in
theorem new_in : Represents kk Hashtable.new_in [] where
  table := with_capacity_setInv 256
  zero_iff := by simp [Hashtable.new_in]
  keys_iff k := by
    simp only [Hashtable.new_in, List.not_mem_nil, and_false, iff_false]
    intro hk
    obtain ⟨p, hp⟩ := mem_keys.mp hk
    rw [Table0.with_capacity, slot_replicate_none] at hp
    cases hp

theorem insert_and_entry (h : Represents kk ht ins) (key : K) :
    ∃ ht', ht.insert_and_entry kk key = .ok (ht', decide (key ∉ ins)) ∧ Represents kk ht' (key :: ins) := by
  unfold Hashtable.insert_and_entry
  by_cases hz : key = kk.zero
  · -- the zero key only sets the flag beside the table
    rw [if_pos hz]
    subst hz
    have hflag : (!ht.zero) = decide (kk.zero ∉ ins) := by
      by_cases hin : kk.zero ∈ ins
      · rw [h.zero_iff.mpr hin]
        simp [hin]
      · have hzero : ht.zero = false := by
          rw [← Bool.not_eq_true, h.zero_iff]
          exact hin
        rw [hzero]
        simp [hin]
    refine ⟨{ ht with zero := true }, by rw [hflag], h.table, by simp, fun k => ?_⟩
    rw [h.keys_iff, List.mem_cons]
    constructor
    · rintro ⟨hne, hk⟩
      exact ⟨hne, Or.inr hk⟩
    · rintro ⟨hne, rfl | hk⟩
      · exact absurd rfl hne
      · exact ⟨hne, hk⟩
  · rw [if_neg hz]
    obtain ⟨hg, -, hgkeys, hroom⟩ := check_grow_setInv h.table
    obtain ⟨t', r, heq, h', -, -, hkeys', hr⟩ := insert_with_hash_setInv hg hroom hz
    have hmem : key ∈ (ht.table.check_grow kk.hash).keys ↔ key ∈ ins := by
      rw [hgkeys, h.keys_iff]
      exact ⟨And.right, fun hk => ⟨hz, hk⟩⟩
    refine ⟨{ ht with table := t' }, ?_, h', ?_, fun k => ?_⟩
    · -- the answer is read off the entry: `Ok` for a new key, `Err` for a stored one
      cases r with
      | Ok j =>
          have hnew : key ∉ ins := by simpa [hmem] using hr
          simp [bind, Except.bind, heq, pure, Except.pure, hnew]
      | Err j =>
          have hold : key ∈ ins := by simpa [hmem] using hr
          simp [bind, Except.bind, heq, pure, Except.pure, hold]
    · rw [h.zero_iff, List.mem_cons]
      exact ⟨Or.inr, fun hk => hk.resolve_left (Ne.symm hz)⟩
    · rw [hkeys', hgkeys, h.keys_iff, List.mem_cons]
      constructor
      · rintro (rfl | ⟨hne, hk⟩)
        · exact ⟨hz, Or.inl rfl⟩
        · exact ⟨hne, Or.inr hk⟩
      · rintro ⟨hne, rfl | hk⟩
        · exact Or.inl rfl
        · exact Or.inr ⟨hne, hk⟩

theorem set_merge (h : Represents kk ht ins) (ho : Represents kk other ins') :
    ∃ ht', ht.set_merge kk other = .ok ht' ∧ Represents kk ht' (ins ++ ins') := by
  obtain ⟨t', heq, h', hkeys⟩ := set_merge_setInv h.table ho.table
  refine ⟨⟨t', ht.zero || other.zero⟩, ?_, h', ?_, fun k => ?_⟩
  · simp only [Hashtable.set_merge, heq, bind, Except.bind, pure, Except.pure]
  · rw [Bool.or_eq_true, h.zero_iff, ho.zero_iff, List.mem_append]
  · rw [hkeys, h.keys_iff, ho.keys_iff, List.mem_append]
    constructor
    · rintro (⟨hne, hk⟩ | ⟨hne, hk⟩)
      · exact ⟨hne, Or.inl hk⟩
      · exact ⟨hne, Or.inr hk⟩
    · rintro ⟨hne, hk | hk⟩
      · exact Or.inl ⟨hne, hk⟩
      · exact Or.inr ⟨hne, hk⟩

theorem contains_iff (h : Represents kk ht ins) (key : K) : ht.contains kk key = true ↔ key ∈ ins := by
  unfold Hashtable.contains
  by_cases hz : key = kk.zero
  · rw [if_pos hz, hz]
    exact h.zero_iff
  · rw [if_neg hz, Option.isSome_iff_exists]
    have hget := get_with_hash_eq_some_iff h.table.capacity_pos h.table.inv key
    constructor
    · rintro ⟨p, hp⟩
      exact ((h.keys_iff key).mp (mem_keys.mpr ⟨p, (hget p).mp hp⟩)).2
    · intro hk
      obtain ⟨p, hp⟩ := mem_keys.mp ((h.keys_iff key).mpr ⟨hz, hk⟩)
      exact ⟨p, (hget p).mpr hp⟩

theorem mem_iter (h : Represents kk ht ins) (key : K) : key ∈ ht.iter kk ↔ key ∈ ins := by
  unfold Hashtable.iter
  rw [List.mem_append, h.keys_iff]
  cases hzero : ht.zero
  · have hin : kk.zero ∉ ins := by
      rw [← h.zero_iff, hzero]
      simp
    simp only [Bool.false_eq_true, ↓reduceIte, List.not_mem_nil, false_or]
    constructor
    · exact And.right
    · intro hk
      exact ⟨fun hkz => hin (hkz ▸ hk), hk⟩
  · have hin : kk.zero ∈ ins := h.zero_iff.mp hzero
    simp only [↓reduceIte, List.mem_singleton]
    constructor
    · rintro (rfl | ⟨-, hk⟩)
      · exact hin
      · exact hk
    · intro hk
      by_cases hkz : key = kk.zero
      · exact Or.inl hkz
      · exact Or.inr ⟨hkz, hk⟩

omit [DecidableEq K] in
theorem iter_nodup (h : Represents kk ht ins) : (ht.iter kk).Nodup := by
  unfold Hashtable.iter
  have hkeys : ht.table.keys.Nodup := nodup_filterMap_id h.table.inv.distinct
  have hzero : kk.zero ∉ ht.table.keys := fun hk => ((h.keys_iff _).mp hk).1 rfl
  cases ht.zero
  · simpa using hkeys
  · simpa [hzero] using hkeys

theorem len_eq (h : Represents kk ht ins) : ht.len = ins.dedup.length := by
  have hperm : (ht.iter kk).Perm ins.dedup :=
    (List.perm_ext_iff_of_nodup h.iter_nodup (List.nodup_dedup ins)).mpr
      (fun key => by rw [List.mem_dedup, h.mem_iter])
  rw [← hperm.length_eq, Hashtable.iter, List.length_append, Table0.keys, length_filterMap_id,
    ← h.table.inv.len_eq, Hashtable.len]
  cases ht.zero <;> rfl

end Represents

inductive Reachable (kk : Keyable K) : Hashtable K → List K → Prop
  | new_in : Reachable kk Hashtable.new_in []
  | insert_and_entry {ht ins key ht' b} :
      Reachable kk ht ins → ht.insert_and_entry kk key = .ok (ht', b) → Reachable kk ht' (key :: ins)
  | set_merge {ht ins other ins' ht'} :
      Reachable kk ht ins → Reachable kk other ins' → ht.set_merge kk other = .ok ht' →
        Reachable kk ht' (ins ++ ins')

theorem Reachable.represents (h : Reachable kk ht ins) : Represents kk ht ins := by
  induction h with
  | new_in => exact Represents.new_in
  | @insert_and_entry ht ins key ht' b _ hstep ih =>
      obtain ⟨ht'', heq, h''⟩ := ih.insert_and_entry key
      rw [heq] at hstep
      cases hstep
      exact h''
  | @set_merge ht ins other ins' ht' _ _ hstep ih ih' =>
      obtain ⟨ht'', heq, h''⟩ := ih.set_merge ih'
      rw [heq] at hstep
      cases hstep
      exact h''

theorem Reachable.foldlM_insert_and_entry (h : Reachable kk ht ins) {keys : List K} {ht' : Hashtable K}
    (hrun : keys.foldlM (fun ht key => (ht.insert_and_entry kk key).map Prod.fst) ht = .ok ht') :
    Reachable kk ht' (keys.reverse ++ ins) := by
  induction keys generalizing ht ins with
  | nil =>
      cases hrun
      exact h
  | cons key keys ih =>
      rw [List.foldlM_cons] at hrun
      obtain ⟨ht1, h1, h2⟩ := ExceptM.bind_eq_ok hrun
      obtain ⟨⟨ht1', b⟩, h1', rfl⟩ := ExceptM.map_eq_ok h1
      rw [List.reverse_cons, List.append_assoc]
      exact ih (h.insert_and_entry h1') h2

structure SetSpec (kk : Keyable K) (ht : Hashtable K) (ins : List K) : Prop where
  table : ht.table.SetInv kk.hash kk.zero
  contains : ∀ key, ht.contains kk key = true ↔ key ∈ ins
  insert : ∀ key, ∃ ht', ht.insert_and_entry kk key = .ok (ht', decide (key ∉ ins)) ∧
    Reachable kk ht' (key :: ins)
  merge : ∀ other ins', Reachable kk other ins' →
    ∃ ht', ht.set_merge kk other = .ok ht' ∧ Reachable kk ht' (ins ++ ins')
  iter_nodup : (ht.iter kk).Nodup
  mem_iter : ∀ key, key ∈ ht.iter kk ↔ key ∈ ins
  len : ht.len = ins.dedup.length
  grow : ∀ shift, 1 ≤ shift → (ht.table.grow kk.hash shift).SetInv kk.hash kk.zero ∧
    ∀ key, key ∈ (ht.table.grow kk.hash shift).keys ↔ key ∈ ht.table.keys

theorem reachable_set_spec (h : Reachable kk ht ins) : SetSpec kk ht ins := by
  have hr := h.represents
  refine ⟨hr.table, hr.contains_iff, fun key => ?_, fun other ins' ho => ?_, hr.iter_nodup, hr.mem_iter,
    hr.len_eq, fun shift hshift => ?_⟩
  · obtain ⟨ht', heq, -⟩ := hr.insert_and_entry key
    exact ⟨ht', heq, h.insert_and_entry heq⟩
  · obtain ⟨ht', heq, -⟩ := hr.set_merge ho.represents
    exact ⟨ht', heq, h.set_merge ho heq⟩
  · obtain ⟨hg, -, hkeys, -⟩ := grow_setInv hr.table hshift
    exact ⟨hg, hkeys⟩

-- 255 and 511 share bucket 255 of the first 256 slots, so 511 wraps around to slot 0; the 129th
-- insert grows the table to 1024 slots, and the rehash moves 511 from slot 0 to its own bucket
theorem reachable_set_spec_grown :
    ([255, 511].foldlM (fun (ht : Hashtable Nat) key =>
        (ht.insert_and_entry ⟨fun k : Nat => k.toUInt64, 0⟩ key).map Prod.fst) Hashtable.new_in).map
      (fun (ht : Hashtable Nat) => slot ht.table.entries 0) = .ok (some 511) ∧
    ∃ ht, Reachable ⟨fun k : Nat => k.toUInt64, 0⟩ ht ([255, 511] ++ List.range' 1 127).reverse ∧
      ht.table.capacity = 1024 ∧ slot ht.table.entries 511 = some 511 ∧
      SetSpec ⟨fun k : Nat => k.toUInt64, 0⟩ ht ([255, 511] ++ List.range' 1 127).reverse := by
  obtain ⟨ht, hrun⟩ : ∃ ht, ([255, 511] ++ List.range' 1 127).foldlM (fun (ht : Hashtable Nat) key =>
      (ht.insert_and_entry ⟨fun k : Nat => k.toUInt64, 0⟩ key).map Prod.fst) Hashtable.new_in = .ok ht :=
    ExceptM.exists_of_isOk (by decide +kernel)
  have hgrown : (([255, 511] ++ List.range' 1 127).foldlM (fun (ht : Hashtable Nat) key =>
      (ht.insert_and_entry ⟨fun k : Nat => k.toUInt64, 0⟩ key).map Prod.fst) Hashtable.new_in).map
        (fun (ht : Hashtable Nat) => (ht.table.capacity, slot ht.table.entries 511)) = .ok (1024, some 511) := by
    decide +kernel
  rw [hrun] at hgrown
  simp only [Except.map, Except.ok.injEq, Prod.mk.injEq] at hgrown
  have hr := Reachable.new_in.foldlM_insert_and_entry hrun
  rw [List.append_nil] at hr
  exact ⟨by decide +kernel, ht, hr, hgrown.1, hgrown.2, reachable_set_spec hr⟩

end Set

end Databend.Hashtable
