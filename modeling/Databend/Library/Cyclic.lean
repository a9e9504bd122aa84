import Mathlib

namespace Cyclic

def pos (N b d : Nat) : Nat := if b + d < N then b + d else b + d - N

def dist (N b q : Nat) : Nat := if b ≤ q then q - b else q + N - b

variable {N b d q : Nat}

theorem pos_lt (hb : b < N) (hd : d < N) : pos N b d < N := by
  unfold pos
  split_ifs <;> omega

theorem dist_lt (hq : q < N) : dist N b q < N := by
  unfold dist
  split_ifs <;> omega

theorem pos_dist (hb : b < N) (hq : q < N) : pos N b (dist N b q) = q := by
  unfold pos dist
  split_ifs <;> omega

theorem dist_pos (hb : b < N) (hd : d < N) : dist N b (pos N b d) = d := by
  unfold pos dist
  split_ifs <;> omega

theorem pos_injective (hb : b < N) {d d' : Nat} (hd : d < N) (hd' : d' < N) (h : pos N b d = pos N b d') :
    d = d' := by
  rw [← dist_pos hb hd, h, dist_pos hb hd']

theorem dist_lt_dist_iff (hb : b < N) {p : Nat} (hp : p < N) (hq : q < N) :
    dist N b p < dist N b q ↔ (b ≤ q ∧ b ≤ p ∧ p < q) ∨ (q < b ∧ (b ≤ p ∨ p < q)) := by
  unfold dist
  split_ifs <;> omega

theorem pos_mem_of_lt_dist (hbq : b ≤ q) (hq : q < N) (hd : d < dist N b q) :
    b ≤ pos N b d ∧ pos N b d < q := by
  unfold pos dist at *
  split_ifs at * <;> omega

end Cyclic

namespace List

variable {α : Type}

theorem find?_map_range_eq_some {f : Nat → α} {p : α → Bool} {n : Nat} {x : α} :
    ((List.range n).map f).find? p = some x ↔
      ∃ d < n, f d = x ∧ p x = true ∧ ∀ d' < d, p (f d') = false := by
  induction n generalizing x with
  | zero => simp
  | succ n ih =>
      rw [List.range_succ, List.map_append, List.find?_append]
      cases h : ((List.range n).map f).find? p with
      | some y =>
          obtain ⟨d, hd, rfl, hp, hbefore⟩ := ih.mp h
          simp only [Option.some_or]
          constructor
          · rintro ⟨⟩
            exact ⟨d, by omega, rfl, hp, hbefore⟩
          · rintro ⟨d', hd', rfl, hp', hbefore'⟩
            -- both are the first: neither index can be below the other
            have hdd : d = d' := by
              rcases Nat.lt_trichotomy d d' with hlt | heq | hgt
              · exact absurd hp (by rw [hbefore' d hlt]; simp)
              · exact heq
              · exact absurd hp' (by rw [hbefore d' hgt]; simp)
            rw [hdd]
      | none =>
          have hnone : ∀ d < n, p (f d) = false := by
            intro d hd
            rw [List.find?_eq_none] at h
            simpa using h (f d) (List.mem_map.mpr ⟨d, List.mem_range.mpr hd, rfl⟩)
          simp only [Option.none_or, List.map_cons, List.map_nil, List.find?_cons, List.find?_nil]
          constructor
          · intro hx
            split at hx
            · next hp => cases hx; exact ⟨n, by omega, rfl, hp, hnone⟩
            · cases hx
          · rintro ⟨d, hd, rfl, hp, hbefore⟩
            have hdn : d = n := by
              by_contra hne
              exact absurd (hnone d (by omega)) (by rw [hp]; simp)
            subst hdn
            simp [hp]

theorem find?_map_range_eq_none {f : Nat → α} {p : α → Bool} {n : Nat} :
    ((List.range n).map f).find? p = none ↔ ∀ d < n, p (f d) = false := by
  rw [List.find?_eq_none]
  constructor
  · intro h d hd
    simpa using h (f d) (List.mem_map.mpr ⟨d, List.mem_range.mpr hd, rfl⟩)
  · intro h x hx
    obtain ⟨d, hd, rfl⟩ := List.mem_map.mp hx
    simpa using h d (List.mem_range.mp hd)

end List
