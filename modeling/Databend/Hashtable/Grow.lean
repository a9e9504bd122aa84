import Databend.Hashtable.Table0

namespace Databend.Hashtable

open Cyclic

section Move

variable {K : Type} {s : List (Option K)} {i j : Nat} {k : K}

theorem slot_move (hi : i < s.length) (hj : j < s.length) (q : Nat) :
    slot ((s.set j (some k)).set i none) q = if q = i then none else if q = j then some k else slot s q := by
  rw [slot_set _ (by rw [List.length_set]; exact hi), slot_set _ hj]

theorem occupied_count_move (hi : slot s i = some k) (hjN : j < s.length) (hj : slot s j = none) :
    occupied_count ((s.set j (some k)).set i none) = occupied_count s := by
  have hiN := lt_of_slot_eq_some hi
  have hij : i ≠ j := by
    rintro rfl
    rw [hi] at hj
    cases hj
  have hiN' : i < (s.set j (some k)).length := by rw [List.length_set]; exact hiN
  have hget : (s.set j (some k))[i] = some k := by
    rw [List.getElem_set_ne (Ne.symm hij)]
    simpa [slot, List.getD_eq_getElem?_getD, List.getElem?_eq_getElem hiN] using hi
  rw [occupied_count, List.countP_set hiN', hget, ← occupied_count, occupied_count_set_some hjN hj]
  simp

theorem keysDistinct_move (hd : KeysDistinct s) (hi : slot s i = some k) (hjN : j < s.length) :
    KeysDistinct ((s.set j (some k)).set i none) := by
  have hiN := lt_of_slot_eq_some hi
  intro p q k' hp hq
  rw [slot_move hiN hjN] at hp hq
  split_ifs at hp hq with hpi hpj hqi hqj hqi hqj
  all_goals first
    | cases hp
    | cases hq
    | skip
  · rw [hpj, hqj]
  · exact absurd (hd _ _ _ hi hq) (Ne.symm hqi)
  · exact absurd (hd _ _ _ hi hp) (Ne.symm hpi)
  · exact hd p q k' hp hq

theorem mem_move (hi : slot s i = some k) (hjN : j < s.length) (hj : slot s j = none) (k' : K) :
    (∃ p, slot ((s.set j (some k)).set i none) p = some k') ↔ ∃ p, slot s p = some k' := by
  have hiN := lt_of_slot_eq_some hi
  have hji : j ≠ i := by
    rintro rfl
    rw [hi] at hj
    cases hj
  constructor
  · rintro ⟨p, hp⟩
    rw [slot_move hiN hjN] at hp
    by_cases hpi : p = i
    · rw [if_pos hpi] at hp
      cases hp
    · rw [if_neg hpi] at hp
      by_cases hpj : p = j
      · rw [if_pos hpj] at hp
        cases hp
        exact ⟨i, hi⟩
      · rw [if_neg hpj] at hp
        exact ⟨p, hp⟩
  · rintro ⟨p, hp⟩
    by_cases hpi : p = i
    · subst hpi
      rw [hi] at hp
      cases hp
      exact ⟨j, by rw [slot_move hiN hjN, if_neg hji, if_pos rfl]⟩
    · have hpj : p ≠ j := by
        rintro rfl
        rw [hp] at hj
        cases hj
      exact ⟨p, by rw [slot_move hiN hjN, if_neg hpi, if_neg hpj]; exact hp⟩

theorem isSome_slot_move (hi : i < s.length) (hj : j < s.length) {q : Nat} (hqi : q ≠ i)
    (h : (slot s q).isSome) : (slot ((s.set j (some k)).set i none) q).isSome := by
  rw [slot_move hi hj, if_neg hqi]
  split_ifs <;> simp [h]

theorem slot_move_eq_some (hi : i < s.length) (hj : j < s.length) {q : Nat} {k' : K}
    (h : slot ((s.set j (some k)).set i none) q = some k') :
    (q = j ∧ q ≠ i ∧ k = k') ∨ (q ≠ i ∧ q ≠ j ∧ slot s q = some k') := by
  rw [slot_move hi hj] at h
  by_cases hqi : q = i
  · rw [if_pos hqi] at h
    cases h
  · rw [if_neg hqi] at h
    by_cases hqj : q = j
    · rw [if_pos hqj] at h
      cases h
      exact Or.inl ⟨hqj, hqi, rfl⟩
    · rw [if_neg hqj] at h
      exact Or.inr ⟨hqi, hqj, h⟩

theorem slot_append_none (old : List (Option K)) (m q : Nat) :
    slot (old ++ List.replicate m none) q = slot old q := by
  unfold slot
  rw [List.getD_eq_getElem?_getD, List.getD_eq_getElem?_getD, List.getElem?_append]
  split
  · rfl
  · rw [List.getElem?_eq_none (by omega : old.length ≤ q), List.getElem?_replicate]
    split <;> rfl

theorem occupied_count_append_none (old : List (Option K)) (m : Nat) :
    occupied_count (old ++ List.replicate m none) = occupied_count old := by
  simp [occupied_count, List.countP_replicate]

theorem occupied_count_ge_of_full {n : Nat} (hfull : ∀ q, n ≤ q → q < s.length → (slot s q).isSome) :
    s.length - n ≤ occupied_count s := by
  have hdrop : (s.drop n).countP Option.isSome = (s.drop n).length := by
    rw [List.countP_eq_length]
    intro x hx
    obtain ⟨q, hq, rfl⟩ := List.getElem_of_mem hx
    rw [List.length_drop] at hq
    have hlt : n + q < s.length := by omega
    have hs := hfull (n + q) (by omega) hlt
    rw [slot, List.getD_eq_getElem?_getD, List.getElem?_eq_getElem hlt, Option.getD_some] at hs
    rw [List.getElem_drop]
    exact hs
  have hsplit : occupied_count s = (s.take n).countP Option.isSome + (s.drop n).countP Option.isSome := by
    rw [occupied_count, ← List.countP_append, List.take_append_drop]
  rw [hsplit, hdrop, List.length_drop]
  omega

end Move

section Rehash

variable {K : Type} (hash : K → UInt64) {s : List (Option K)} {i : Nat} {k : K}

theorem rehash_of_none (h : slot s i = none) : Table0.rehash hash s i = s := by
  simp [Table0.rehash, h]

theorem rehash_of_some (h : slot s i = some k) :
    (Table0.rehash hash s i = s ∧
        ∀ d < dist s.length (bucket (hash k) s.length) i,
          (slot s (pos s.length (bucket (hash k) s.length) d)).isSome) ∨
      ∃ d < dist s.length (bucket (hash k) s.length) i,
        slot s (pos s.length (bucket (hash k) s.length) d) = none ∧
        (∀ d' < d, (slot s (pos s.length (bucket (hash k) s.length) d')).isSome) ∧
        Table0.rehash hash s i = (s.set (pos s.length (bucket (hash k) s.length) d) (some k)).set i none := by
  have hiN := lt_of_slot_eq_some h
  have hb := bucket_lt (hash k) (by omega : 0 < s.length)
  unfold Table0.rehash
  rw [h]
  simp only
  rw [move_loop_eq, probe_order_eq hb]
  -- the walk reaches `i` at step `dist`, so it stops there or before
  cases hfind : ((List.range s.length).map (pos s.length (bucket (hash k) s.length))).find?
      (fun j => decide (j = i) || (slot s j).isNone) with
  | none =>
      have := List.find?_map_range_eq_none.mp hfind _ (dist_lt (b := bucket (hash k) s.length) hiN)
      simp [pos_dist hb hiN] at this
  | some x =>
      obtain ⟨d, hd, rfl, hstop, hbefore⟩ := List.find?_map_range_eq_some.mp hfind
      have hsome : ∀ d' < d, (slot s (pos s.length (bucket (hash k) s.length) d')).isSome := by
        intro d' hd'
        have := hbefore d' hd'
        simp only [Bool.or_eq_false_iff, decide_eq_false_iff_not] at this
        simpa using this.2
      by_cases hx : pos s.length (bucket (hash k) s.length) d = i
      · left
        refine ⟨by simp [hx], ?_⟩
        rw [← hx, dist_pos hb hd]
        exact hsome
      · right
        have hnone : slot s (pos s.length (bucket (hash k) s.length) d) = none := by
          simpa [hx] using hstop
        have hdle : d < dist s.length (bucket (hash k) s.length) i := by
          rcases Nat.lt_or_ge d (dist s.length (bucket (hash k) s.length) i) with hlt | hge
          · exact hlt
          · rcases Nat.lt_or_eq_of_le hge with hgt | heq
            · have := hbefore _ hgt
              simp [pos_dist hb hiN] at this
            · exact absurd (by rw [← heq, pos_dist hb hiN]) hx
        exact ⟨d, hdle, hnone, hsome, by simp [hx]⟩

end Rehash

def Reached {K : Type} (s : List (Option K)) (N b p : Nat) : Prop :=
  ∀ d < dist N b p, (slot s (pos N b d)).isSome

section Wrap

variable {K : Type} {s : List (Option K)} {N b q : Nat}

theorem slot_isSome_of_reached (hR : Reached s N b q) (hb : b < N) {q' : Nat} (hq' : q' < N)
    (hlt : dist N b q' < dist N b q) : (slot s q').isSome := by
  have := hR _ hlt
  rwa [pos_dist hb hq'] at this

theorem full_of_reached_wrap (hR : Reached s N b q) (hq : q < b) (hb : b < N) {n : Nat} (hbn : b ≤ n) :
    ∀ q', n ≤ q' → q' < N → (slot s q').isSome := by
  intro q' hnq hq'
  refine slot_isSome_of_reached hR hb hq' ?_
  rw [dist_lt_dist_iff hb hq' (by omega)]
  omega

theorem reached_first_free {d : Nat} (hb : b < N) (hdN : d < N)
    (hbefore : ∀ d' < d, (slot s (pos N b d')).isSome) : Reached s N b (pos N b d) := by
  rw [Reached, dist_pos hb hdN]
  exact hbefore

theorem reached_move {i j : Nat} {k : K} (hiN : i < s.length) (hjN : j < s.length) (hR : Reached s N b q)
    (hb : b < N) (hq : q < N) (hi : ¬ dist N b i < dist N b q) :
    Reached ((s.set j (some k)).set i none) N b q := by
  intro d hd
  have hdN : d < N := Nat.lt_trans hd (dist_lt hq)
  have hpi : pos N b d ≠ i := by
    intro h
    apply hi
    rw [← h, dist_pos hb hdN]
    exact hd
  exact isSome_slot_move hiN hjN hpi (hR d hd)

end Wrap

section Pass1

variable {K : Type} (hash : K → UInt64) (n N : Nat) (old : List (Option K))

structure Pass1Inv (i : Nat) (s : List (Option K)) : Prop where
  length_eq : s.length = N
  untouched : ∀ q, i ≤ q → q < n → slot s q = slot old q
  low : ∀ q < i, ∀ k, slot s q = some k → Reached s N (bucket (hash k) N) q
  high : ∀ q, n ≤ q → ∀ k, slot s q = some k →
    bucket (hash k) N ≤ q ∧ ∀ q', n ≤ q' → bucket (hash k) N ≤ q' → q' < q → (slot s q').isSome
  count : occupied_count s = occupied_count old
  distinct : KeysDistinct s
  mem : ∀ k, (∃ p, slot s p = some k) ↔ ∃ p, slot old p = some k

variable {hash n N old} {i : Nat} {s : List (Option K)} {k : K}

namespace Pass1Inv

theorem skip (I : Pass1Inv hash n N old i s) (hsi : slot s i = none) : Pass1Inv hash n N old (i + 1) s where
  length_eq := I.length_eq
  untouched q hq hqn := I.untouched q (by omega) hqn
  low q hq k' hk' := by
    have hqi : q ≠ i := by
      rintro rfl
      rw [hsi] at hk'
      cases hk'
    exact I.low q (by omega) k' hk'
  high := I.high
  count := I.count
  distinct := I.distinct
  mem := I.mem

theorem stay (I : Pass1Inv hash n N old i s) (hsi : slot s i = some k) (hR : Reached s N (bucket (hash k) N) i) :
    Pass1Inv hash n N old (i + 1) s where
  length_eq := I.length_eq
  untouched q hq hqn := I.untouched q (by omega) hqn
  low q hq k' hk' := by
    by_cases hqi : q = i
    · subst hqi
      rw [hsi] at hk'
      cases hk'
      exact hR
    · exact I.low q (by omega) k' hk'
  high := I.high
  count := I.count
  distinct := I.distinct
  mem := I.mem

theorem not_wrap (I : Pass1Inv hash n N old i s) (hcount : occupied_count old < n) (hhalf : n ≤ N - n)
    {q b : Nat} (hR : Reached s N b q) (hq : q < b) (hbn : b ≤ n) (hb : b < N) : False := by
  have hfull := full_of_reached_wrap hR hq hb hbn
  rw [← I.length_eq] at hfull
  have := occupied_count_ge_of_full hfull
  rw [I.length_eq, I.count] at this
  omega

theorem move_target (I : Pass1Inv hash n N old i s) (hold : old.length = n)
    (hinv : ProbeInv (fun k => bucket (hash k) n) old)
    (hrel : ∀ k, bucket (hash k) N < n → bucket (hash k) N = bucket (hash k) n)
    (hi : i < n) (hiN : i < N) (hsi : slot s i = some k) {d : Nat} (hb : bucket (hash k) N < N)
    (hdN : d < N) (hd : d < dist N (bucket (hash k) N) i) (hnone : slot s (pos N (bucket (hash k) N) d) = none) :
    pos N (bucket (hash k) N) d < i ∨ n ≤ pos N (bucket (hash k) N) d := by
  have hjN := pos_lt hb hdN
  have hdj := dist_pos hb hdN
  by_contra hcon
  have hji : pos N (bucket (hash k) N) d ≠ i := by
    intro h
    rw [h, hsi] at hnone
    cases hnone
  -- the slot comes before `i` on the walk, so the walk goes round the end: `i < b ≤ j`
  have hwalk := (dist_lt_dist_iff hb hjN hiN).mp (by rw [hdj]; exact hd)
  have hbo : bucket (hash k) N = bucket (hash k) n := hrel k (by omega)
  have hob : bucket (hash k) n < n := by omega
  -- in the old table the key's walk passed that slot, which is still as it was
  have hreach : Reached old n (bucket (hash k) n) i := by
    have h := hinv i k ((I.untouched i (Nat.le_refl i) hi) ▸ hsi)
    rwa [hold] at h
  have hjold := slot_isSome_of_reached hreach hob (by omega : pos N (bucket (hash k) N) d < n)
    (by rw [dist_lt_dist_iff hob (by omega) hi]; omega)
  rw [← I.untouched _ (by omega) (by omega), hnone] at hjold
  cases hjold

theorem move (I : Pass1Inv hash n N old i s) (hcount : occupied_count old < n) (hhalf : n ≤ N - n)
    (hi : i < n) (hsi : slot s i = some k) {d : Nat} (hd : d < dist N (bucket (hash k) N) i)
    (hnone : slot s (pos N (bucket (hash k) N) d) = none)
    (hbefore : ∀ d' < d, (slot s (pos N (bucket (hash k) N) d')).isSome)
    (htarget : pos N (bucket (hash k) N) d < i ∨ n ≤ pos N (bucket (hash k) N) d) :
    Pass1Inv hash n N old (i + 1) ((s.set (pos N (bucket (hash k) N) d) (some k)).set i none) := by
  have hiN : i < N := by omega
  have hb : bucket (hash k) N < N := bucket_lt _ (by omega)
  have hdN : d < N := Nat.lt_trans hd (dist_lt hiN)
  have hjN := pos_lt hb hdN
  have hiN' : i < s.length := by rw [I.length_eq]; exact hiN
  have hjN' : pos N (bucket (hash k) N) d < s.length := by rw [I.length_eq]; exact hjN
  have hRj := reached_first_free hb hdN hbefore
  refine ⟨?_, ?_, ?_, ?_, ?_, ?_, ?_⟩
  · rw [List.length_set, List.length_set, I.length_eq]
  · intro q hq hqn
    rw [slot_move hiN' hjN', if_neg (by omega), if_neg (by omega), I.untouched q (by omega) hqn]
  · intro q hq k' hk'
    rcases slot_move_eq_some hiN' hjN' hk' with ⟨rfl, -, rfl⟩ | ⟨hqi, -, hk'⟩
    · exact reached_move hiN' hjN' hRj hb hjN (by rw [dist_pos hb hdN]; omega)
    · -- a walk through the vacated slot to a key below it would go round the end
      have hb' : bucket (hash k') N < N := bucket_lt _ (by omega)
      have hR := I.low q (by omega) k' hk'
      refine reached_move hiN' hjN' hR hb' (by omega) (fun hlt => ?_)
      rw [dist_lt_dist_iff hb' hiN (by omega)] at hlt
      exact I.not_wrap hcount hhalf hR (by omega) (by omega) hb'
  · intro q hnq k' hk'
    rcases slot_move_eq_some hiN' hjN' hk' with ⟨rfl, -, rfl⟩ | ⟨-, -, hk'⟩
    · -- the target is in the new half, so the walk to it went round from a bucket after `i`
      have hwalk := (dist_lt_dist_iff hb hjN hiN).mp (by rw [dist_pos hb hdN]; exact hd)
      have hbj : bucket (hash k) N ≤ pos N (bucket (hash k) N) d := by omega
      refine ⟨hbj, fun q' hnq' hbq' hq' => isSome_slot_move hiN' hjN' (by omega) ?_⟩
      exact slot_isSome_of_reached hRj hb (by omega) (by rw [dist_lt_dist_iff hb (by omega) hjN]; omega)
    · obtain ⟨hbq, hrun⟩ := I.high q hnq k' hk'
      exact ⟨hbq, fun q' hnq' hbq' hq' => isSome_slot_move hiN' hjN' (by omega) (hrun q' hnq' hbq' hq')⟩
  · rw [occupied_count_move hsi hjN' hnone, I.count]
  · exact keysDistinct_move I.distinct hsi hjN'
  · intro k'
    rw [mem_move hsi hjN' hnone k', I.mem k']

theorem step (I : Pass1Inv hash n N old i s) (hold : old.length = n)
    (hinv : ProbeInv (fun k => bucket (hash k) n) old)
    (hrel : ∀ k, bucket (hash k) N < n → bucket (hash k) N = bucket (hash k) n)
    (hcount : occupied_count old < n) (hhalf : n ≤ N - n) (hi : i < n) :
    Pass1Inv hash n N old (i + 1) (Table0.rehash hash s i) := by
  cases hsi : slot s i with
  | none =>
      rw [rehash_of_none hash hsi]
      exact I.skip hsi
  | some k =>
      rcases rehash_of_some hash hsi with ⟨heq, hR⟩ | ⟨d, hd, hnone, hbefore, heq⟩
      · rw [heq]
        rw [I.length_eq] at hR
        exact I.stay hsi hR
      · rw [heq]
        rw [I.length_eq] at hd hnone hbefore ⊢
        have hb : bucket (hash k) N < N := bucket_lt _ (by omega)
        have hdN : d < N := Nat.lt_trans hd (dist_lt (by omega))
        exact I.move hcount hhalf hi hsi hd hnone hbefore
          (I.move_target hold hinv hrel hi (by omega) hsi hb hdN hd hnone)

theorem init (hold : old.length = n) (hnN : n ≤ N) (hd : KeysDistinct old) :
    Pass1Inv hash n N old 0 (old ++ List.replicate (N - n) none) where
  length_eq := by rw [List.length_append, List.length_replicate, hold]; omega
  untouched q _ _ := slot_append_none old _ q
  low q hq := absurd hq (Nat.not_lt_zero q)
  high q hq k hk := by
    rw [slot_append_none, slot_eq_none_of_le old (by omega)] at hk
    cases hk
  count := occupied_count_append_none old _
  distinct p q k hp hq := hd p q k (by rwa [slot_append_none] at hp) (by rwa [slot_append_none] at hq)
  mem k := by simp only [slot_append_none]

theorem foldl_rehash (I : Pass1Inv hash n N old 0 s) (hold : old.length = n)
    (hinv : ProbeInv (fun k => bucket (hash k) n) old)
    (hrel : ∀ k, bucket (hash k) N < n → bucket (hash k) N = bucket (hash k) n)
    (hcount : occupied_count old < n) (hhalf : n ≤ N - n) :
    ∀ m ≤ n, Pass1Inv hash n N old m ((List.range m).foldl (Table0.rehash hash) s)
  | 0, _ => I
  | m + 1, hm => by
      rw [List.range_succ, List.foldl_append, List.foldl_cons, List.foldl_nil]
      exact (foldl_rehash I hold hinv hrel hcount hhalf m (by omega)).step hold hinv hrel hcount hhalf (by omega)

end Pass1Inv

end Pass1

section Pass2

variable {K : Type} (hash : K → UInt64) (n N : Nat) (old S : List (Option K))

structure Pass2Inv (i : Nat) (s : List (Option K)) : Prop where
  length_eq : s.length = N
  untouched : ∀ q, i ≤ q → slot s q = slot S q
  done : ∀ q < i, ∀ k, slot s q = some k → Reached s N (bucket (hash k) N) q
  run : ∀ q, n ≤ q → q < i → (slot S q).isSome
  count : occupied_count s = occupied_count old
  distinct : KeysDistinct s
  mem : ∀ k, (∃ p, slot s p = some k) ↔ ∃ p, slot old p = some k

variable {hash n N old S} {i : Nat} {s : List (Option K)} {k : K}

namespace Pass2Inv

theorem start (hS : Pass1Inv hash n N old n S) : Pass2Inv hash n N old S n S where
  length_eq := hS.length_eq
  untouched _ _ := rfl
  done := hS.low
  run q hq hq' := absurd hq' (by omega)
  count := hS.count
  distinct := hS.distinct
  mem := hS.mem

theorem not_wrap (I : Pass2Inv hash n N old S i s) (hS : Pass1Inv hash n N old n S)
    (hcount : occupied_count old < n) (hhalf : n ≤ N - n)
    {q b : Nat} (hR : Reached s N b q) (hq : q < b) (hbi : b ≤ i) (hb : b < N) : False := by
  have hfull : ∀ p, n ≤ p → p < S.length → (slot S p).isSome := by
    intro p hnp hp
    rw [hS.length_eq] at hp
    by_cases hpi : p < i
    · exact I.run p hnp hpi
    · rw [← I.untouched p (by omega)]
      exact full_of_reached_wrap hR hq hb hbi p (by omega) hp
  have := occupied_count_ge_of_full hfull
  rw [hS.length_eq, hS.count] at this
  omega

theorem stay (I : Pass2Inv hash n N old S i s) (hsi : slot s i = some k)
    (hR : Reached s N (bucket (hash k) N) i) : Pass2Inv hash n N old S (i + 1) s where
  length_eq := I.length_eq
  untouched q hq := I.untouched q (by omega)
  done q hq k' hk' := by
    by_cases hqi : q = i
    · subst hqi
      rw [hsi] at hk'
      cases hk'
      exact hR
    · exact I.done q (by omega) k' hk'
  run q hnq hq := by
    by_cases hqi : q = i
    · rw [hqi, ← I.untouched i (Nat.le_refl i), hsi]
      rfl
    · exact I.run q hnq (by omega)
  count := I.count
  distinct := I.distinct
  mem := I.mem

theorem move (I : Pass2Inv hash n N old S i s) (hS : Pass1Inv hash n N old n S)
    (hcount : occupied_count old < n) (hhalf : n ≤ N - n) (hiN : i < N) (hsi : slot s i = some k)
    (hbi : bucket (hash k) N ≤ i) {d : Nat} (hd : d < dist N (bucket (hash k) N) i)
    (hnone : slot s (pos N (bucket (hash k) N) d) = none)
    (hbefore : ∀ d' < d, (slot s (pos N (bucket (hash k) N) d')).isSome) :
    Pass2Inv hash n N old S (i + 1) ((s.set (pos N (bucket (hash k) N) d) (some k)).set i none) := by
  have hb : bucket (hash k) N < N := by omega
  have hdN : d < N := Nat.lt_trans hd (dist_lt hiN)
  have hjN := pos_lt hb hdN
  have hji : pos N (bucket (hash k) N) d < i := by
    have hwalk := (dist_lt_dist_iff hb hjN hiN).mp (by rw [dist_pos hb hdN]; exact hd)
    omega
  have hiN' : i < s.length := by rw [I.length_eq]; exact hiN
  have hjN' : pos N (bucket (hash k) N) d < s.length := by rw [I.length_eq]; exact hjN
  have hRj := reached_first_free hb hdN hbefore
  refine ⟨?_, ?_, ?_, ?_, ?_, ?_, ?_⟩
  · rw [List.length_set, List.length_set, I.length_eq]
  · intro q hq
    rw [slot_move hiN' hjN', if_neg (by omega), if_neg (by omega), I.untouched q (by omega)]
  · intro q hq k' hk'
    rcases slot_move_eq_some hiN' hjN' hk' with ⟨rfl, -, rfl⟩ | ⟨hqi, -, hk'⟩
    · exact reached_move hiN' hjN' hRj hb hjN (by rw [dist_pos hb hdN]; omega)
    · have hb' : bucket (hash k') N < N := bucket_lt _ (by omega)
      have hR := I.done q (by omega) k' hk'
      refine reached_move hiN' hjN' hR hb' (by omega) (fun hlt => ?_)
      rw [dist_lt_dist_iff hb' hiN (by omega)] at hlt
      exact I.not_wrap hS hcount hhalf hR (by omega) (by omega) hb'
  · intro q hnq hq
    by_cases hqi : q = i
    · rw [hqi, ← I.untouched i (Nat.le_refl i), hsi]
      rfl
    · exact I.run q hnq (by omega)
  · rw [occupied_count_move hsi hjN' hnone, I.count]
  · exact keysDistinct_move I.distinct hsi hjN'
  · intro k'
    rw [mem_move hsi hjN' hnone k', I.mem k']

theorem step (I : Pass2Inv hash n N old S i s) (hS : Pass1Inv hash n N old n S)
    (hcount : occupied_count old < n) (hhalf : n ≤ N - n) (hni : n ≤ i) (hiN : i < N)
    (hsi : slot s i = some k) : Pass2Inv hash n N old S (i + 1) (Table0.rehash hash s i) := by
  have hSi : slot S i = some k := by
    rw [← I.untouched i (Nat.le_refl i)]
    exact hsi
  have hbi := (hS.high i hni k hSi).1
  rcases rehash_of_some hash hsi with ⟨heq, hR⟩ | ⟨d, hd, hnone, hbefore, heq⟩
  · rw [heq]
    rw [I.length_eq] at hR
    exact I.stay hsi hR
  · rw [heq]
    rw [I.length_eq] at hd hnone hbefore ⊢
    exact I.move hS hcount hhalf hiN hsi hbi hd hnone hbefore

theorem rehash_run_spec (hS : Pass1Inv hash n N old n S) (hcount : occupied_count old < n)
    (hhalf : n ≤ N - n) :
    ∀ m, ∀ {i : Nat} {s : List (Option K)}, N - i = m → n ≤ i → Pass2Inv hash n N old S i s →
      ∃ i' s', Pass2Inv hash n N old S i' s' ∧ n ≤ i' ∧ (N ≤ i' ∨ slot s' i' = none) ∧
        Table0.rehash_run hash s (List.range' i m) = s'
  | 0, i, s, hm, hni, I => ⟨i, s, I, hni, Or.inl (by omega), rfl⟩
  | m + 1, i, s, hm, hni, I => by
      rw [List.range'_succ]
      cases hsi : slot s i with
      | none => exact ⟨i, s, I, hni, Or.inr hsi, by simp [Table0.rehash_run, hsi]⟩
      | some k =>
          have I' := I.step hS hcount hhalf hni (by omega) hsi
          obtain ⟨i', s', I'', hni', hend, heq⟩ := rehash_run_spec hS hcount hhalf m (by omega) (by omega) I'
          exact ⟨i', s', I'', hni', hend, by simp [Table0.rehash_run, hsi, heq]⟩

theorem probeInv_of_end (I : Pass2Inv hash n N old S i s) (hS : Pass1Inv hash n N old n S)
    (hni : n ≤ i) (hend : N ≤ i ∨ slot s i = none) : ProbeInv (fun k => bucket (hash k) N) s := by
  intro p k hp
  rw [I.length_eq]
  show Reached s N (bucket (hash k) N) p
  have hpN : p < N := by
    rw [← I.length_eq]
    exact lt_of_slot_eq_some hp
  rcases Nat.lt_trichotomy p i with hpi | rfl | hip
  · exact I.done p hpi k hp
  · rcases hend with hNi | hnone
    · omega
    · rw [hnone] at hp
      cases hp
  · have hnone : slot s i = none := hend.resolve_left (by omega)
    have hSp : slot S p = some k := by
      rw [← I.untouched p (by omega)]
      exact hp
    obtain ⟨hbp, hrun⟩ := hS.high p (by omega) k hSp
    have hib : i < bucket (hash k) N := by
      by_contra hle
      have h := hrun i hni (by omega) hip
      rw [← I.untouched i (Nat.le_refl i), hnone] at h
      cases h
    intro d hd
    obtain ⟨h1, h2⟩ := pos_mem_of_lt_dist hbp hpN hd
    rw [I.untouched _ (by omega)]
    exact hrun _ (by omega) h1 h2

end Pass2Inv

end Pass2

theorem bucket_eq_of_lt_pow (h : UInt64) (a b : Nat) (hlt : bucket h (2 ^ (a + b)) < 2 ^ a) :
    bucket h (2 ^ (a + b)) = bucket h (2 ^ a) := by
  unfold bucket at *
  simp only [Nat.and_two_pow_sub_one_eq_mod] at *
  have hdvd : 2 ^ a ∣ 2 ^ (a + b) := Nat.pow_dvd_pow 2 (Nat.le_add_right a b)
  rw [← Nat.mod_mod_of_dvd _ hdvd, Nat.mod_eq_of_lt hlt]

theorem two_mul_le_pow_add (a : Nat) {b : Nat} (hb : 1 ≤ b) : 2 * 2 ^ a ≤ 2 ^ (a + b) := by
  have h2 : 2 ^ 1 ≤ 2 ^ b := Nat.pow_le_pow_right (by decide) hb
  have := Nat.mul_le_mul_left (2 ^ a) h2
  rw [Nat.pow_one] at this
  rw [Nat.pow_add]
  omega

section Grow

variable {K : Type} {t : Table0 K} {hash : K → UInt64}

theorem grow_inv (hinv : t.Inv hash) {a : Nat} (hcap : t.capacity = 2 ^ a) {shift : Nat}
    (hshift : 1 ≤ shift) (hlen : t.len < t.capacity) :
    (t.grow hash shift).Inv hash ∧ (t.grow hash shift).capacity = 2 ^ (a + shift) ∧
      (t.grow hash shift).len = t.len ∧
      ∀ k, (∃ p, slot (t.grow hash shift).entries p = some k) ↔ ∃ p, slot t.entries p = some k := by
  have hN : t.capacity <<< shift = 2 ^ (a + shift) := by rw [Nat.shiftLeft_eq, hcap, Nat.pow_add]
  have hhalf : t.capacity ≤ 2 ^ (a + shift) - t.capacity := by
    have := two_mul_le_pow_add a hshift
    rw [hcap]
    omega
  have hcount : occupied_count t.entries < t.capacity := by
    rw [← hinv.len_eq]
    exact hlen
  have hrel : ∀ k, bucket (hash k) (2 ^ (a + shift)) < t.capacity →
      bucket (hash k) (2 ^ (a + shift)) = bucket (hash k) t.capacity := by
    intro k hk
    rw [hcap] at hk ⊢
    exact bucket_eq_of_lt_pow _ a shift hk
  -- the first pass over the old slots, then the second over the run after them
  have I0 : Pass1Inv hash t.capacity (2 ^ (a + shift)) t.entries 0
      (t.entries ++ List.replicate (2 ^ (a + shift) - t.capacity) none) :=
    Pass1Inv.init rfl (by omega) hinv.distinct
  have I1 := I0.foldl_rehash rfl hinv.probe hrel hcount hhalf t.capacity (Nat.le_refl _)
  obtain ⟨i, s, I, hni, hend, heq⟩ :=
    Pass2Inv.rehash_run_spec I1 hcount hhalf _ rfl (Nat.le_refl _) (Pass2Inv.start I1)
  have hgrow : (t.grow hash shift).entries = s := by
    rw [← heq, ← hN]
    rfl
  have hcap' : (t.grow hash shift).capacity = 2 ^ (a + shift) := by
    rw [Table0.capacity, hgrow, I.length_eq]
  refine ⟨⟨?_, ?_, ?_⟩, hcap', rfl, ?_⟩
  · rw [hcap', hgrow]
    exact I.probeInv_of_end I1 hni hend
  · rw [hgrow]
    exact I.distinct
  · show t.len = occupied_count (t.grow hash shift).entries
    rw [hgrow, I.count, hinv.len_eq]
  · rw [hgrow]
    exact I.mem

end Grow

end Databend.Hashtable
