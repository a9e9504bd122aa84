import Mathlib

namespace List

variable {α β : Type}

theorem drop_take_eq_filterMap_range' (l : List α) {a b : Nat} (hab : a ≤ b) (hb : b ≤ l.length) :
    (l.take b).drop a = (List.range' a (b - a)).filterMap (fun i => l[i]?) := by
  -- induction on the length of the slice, taking its first value off
  induction hn : b - a generalizing a with
  | zero =>
      obtain rfl : b = a := by omega
      simp
  | succ n ih =>
      have ha : a < (l.take b).length := by
        rw [List.length_take]
        omega
      have hget : (l.take b)[a] = l[a] := List.getElem_take
      rw [List.drop_eq_getElem_cons ha, List.range'_succ, List.filterMap_cons,
        List.getElem?_eq_getElem (by omega), hget, ih (by omega) (by omega)]

theorem drop_take_append {l : List α} {a b c : Nat} (hab : a ≤ b) (hbc : b ≤ c) :
    (l.take c).drop a = (l.take b).drop a ++ (l.take c).drop b := by
  have hsplit : l.take c = l.take b ++ (l.take c).drop b := by
    conv_lhs => rw [← List.take_append_drop b (l.take c)]
    rw [List.take_take, Nat.min_eq_left hbc]
  by_cases hlen : a ≤ (l.take b).length
  · conv_lhs => rw [hsplit]
    rw [List.drop_append_of_le_length hlen]
  · -- the list ends before `a`: every part of the slice is empty
    rw [List.length_take] at hlen
    have hc : (l.take c).length ≤ a := by rw [List.length_take]; omega
    rw [List.drop_eq_nil_of_le hc, List.drop_eq_nil_of_le (by rw [List.length_take]; omega),
      List.drop_eq_nil_of_le (by omega : (l.take c).length ≤ b)]
    rfl

theorem filterMap_getElem?_range (l : List α) : (List.range l.length).filterMap (fun i => l[i]?) = l := by
  rw [List.range_eq_range', ← Nat.sub_zero l.length, ← drop_take_eq_filterMap_range' l (Nat.zero_le _) (Nat.le_refl _)]
  simp

theorem filterMap_eq_filterMap_range (l : List α) (f : α → Option β) :
    l.filterMap f = (List.range l.length).filterMap (fun i => l[i]?.bind f) := by
  conv_lhs => rw [← filterMap_getElem?_range l]
  rw [List.filterMap_filterMap]

theorem length_foldl_set (es : List (Nat × α)) (l : List α) :
    (es.foldl (fun l e => l.set e.1 e.2) l).length = l.length := by
  induction es generalizing l with
  | nil => rfl
  | cons e es ih => rw [List.foldl_cons, ih, List.length_set]

theorem find?_congr_of_mem {p q : α → Bool} {l : List α} (h : ∀ x ∈ l, p x = q x) : l.find? p = l.find? q := by
  induction l with
  | nil => rfl
  | cons x xs ih =>
      rw [List.find?_cons, List.find?_cons, h x List.mem_cons_self,
        ih (fun y hy => h y (List.mem_cons_of_mem _ hy))]

theorem getElem?_foldl_set {es : List (Nat × α)} (hk : (es.map Prod.fst).Nodup) (l : List α)
    (hlt : ∀ e ∈ es, e.1 < l.length) (p : Nat) :
    (es.foldl (fun l e => l.set e.1 e.2) l)[p]? = ((es.find? (fun e => e.1 == p)).map Prod.snd).or l[p]? := by
  induction es generalizing l with
  | nil => rfl
  | cons e es ih =>
      obtain ⟨he, hk'⟩ := List.nodup_cons.mp hk
      have hlt' : ∀ e' ∈ es, e'.1 < (l.set e.1 e.2).length := by
        intro e' he'
        rw [List.length_set]
        exact hlt e' (List.mem_cons_of_mem _ he')
      rw [List.foldl_cons, ih hk' _ hlt', List.find?_cons, List.getElem?_set]
      by_cases hp : e.1 = p
      · -- no later write is at `p`, the keys being distinct
        have hnone : es.find? (fun e => e.1 == p) = none := by
          rw [List.find?_eq_none]
          intro e' he' heq
          exact he (hp ▸ (beq_iff_eq.mp heq) ▸ List.mem_map_of_mem he')
        have hpl : p < l.length := hp ▸ hlt e List.mem_cons_self
        simp [hp, hnone, hpl]
      · rw [beq_false_of_ne hp]
        simp [hp]

end List
