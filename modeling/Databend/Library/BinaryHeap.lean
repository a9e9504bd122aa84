import Mathlib

namespace BinaryHeap

variable {α : Type}

def parent (i : Nat) : Nat := (i - 1) / 2

theorem parent_lt {i : Nat} (h : 0 < i) : parent i < i := by
  unfold parent
  omega

@[simp] theorem parent_left (p : Nat) : parent (p * 2 + 1) = p := by
  unfold parent
  omega

@[simp] theorem parent_right (p : Nat) : parent (p * 2 + 2) = p := by
  unfold parent
  omega

theorem child_of_parent {i p : Nat} (h0 : 0 < i) (h : parent i = p) : i = p * 2 + 1 ∨ i = p * 2 + 2 := by
  unfold parent at h
  omega

structure StrictWeak (lt : α → α → Bool) : Prop where
  irrefl : ∀ a, lt a a = false
  asymm : ∀ {a b}, lt a b = true → lt b a = false
  not_trans : ∀ {a b c}, lt a b = false → lt b c = false → lt a c = false

variable (lt : α → α → Bool)

-- no parent at `k` or later comes before one of its children
def HeapFrom (v : List α) (k : Nat) : Prop :=
  ∀ i a b, 0 < i → k ≤ parent i → v[parent i]? = some a → v[i]? = some b → lt a b = false

-- `tmp` sinks from `k` and stands at `hole`: the edges off the hole are ordered, and the hole's
-- parent comes no earlier than `tmp` and the hole's children
structure DownOrder (v : List α) (k hole : Nat) (tmp : α) : Prop where
  le_hole : k ≤ hole
  except : ∀ i a b, 0 < i → k ≤ parent i → i ≠ hole → parent i ≠ hole →
    v[parent i]? = some a → v[i]? = some b → lt a b = false
  above : hole ≠ k → ∀ a, v[parent hole]? = some a → lt a tmp = false
  grand : hole ≠ k → ∀ i a b, 0 < i → parent i = hole →
    v[parent hole]? = some a → v[i]? = some b → lt a b = false
  parent_ge : hole ≠ k → k ≤ parent hole

variable {lt}

theorem HeapFrom.mono {v : List α} {k k' : Nat} (h : HeapFrom lt v k) (hk : k ≤ k') : HeapFrom lt v k' :=
  fun i a b hi hp => h i a b hi (hk.trans hp)

theorem HeapFrom.set_lt {v : List α} {k j : Nat} (h : HeapFrom lt v k) (hj : j < k) (x : α) :
    HeapFrom lt (v.set j x) k := by
  intro i a b hi hp ha hb
  have hpi := parent_lt hi
  rw [List.getElem?_set_ne (by omega)] at ha hb
  exact h i a b hi hp ha hb

theorem heapFrom_of_length_le {v : List α} {k : Nat} (h : v.length ≤ k * 2 + 1) : HeapFrom lt v k := by
  intro i a b hi hp _ hb
  have hlt := (List.getElem?_eq_some_iff.mp hb).1
  unfold parent at hp
  omega

theorem HeapFrom.root (hsw : StrictWeak lt) {v : List α} (h : HeapFrom lt v 0) {r : α} (hr : v[0]? = some r) :
    ∀ (i : Nat) b, v[i]? = some b → lt r b = false := by
  intro i
  induction i using Nat.strong_induction_on with
  | _ i ih =>
    intro b hb
    rcases Nat.eq_zero_or_pos i with rfl | hi
    · rw [hr, Option.some_inj] at hb
      rw [hb]
      exact hsw.irrefl b
    · -- through the parent, which comes no earlier than `b`
      have hpl : parent i < v.length := (parent_lt hi).trans (List.getElem?_eq_some_iff.mp hb).1
      have ha := List.getElem?_eq_getElem hpl
      exact hsw.not_trans (ih _ (parent_lt hi) _ ha) (h i _ b hi (Nat.zero_le _) ha hb)

theorem HeapFrom.root_mem (hsw : StrictWeak lt) {v : List α} (h : HeapFrom lt v 0) {r : α} (hr : v[0]? = some r) :
    ∀ b ∈ v, lt r b = false := by
  intro b hb
  obtain ⟨i, hi⟩ := List.mem_iff_getElem?.mp hb
  exact HeapFrom.root hsw h hr i b hi

theorem DownOrder.start {v : List α} {k : Nat} (h : HeapFrom lt v (k + 1)) (tmp : α) : DownOrder lt v k k tmp where
  le_hole := le_rfl
  except i a b hi hp _ hpk := h i a b hi (by omega)
  above hk := absurd rfl hk
  grand hk := absurd rfl hk
  parent_ge hk := absurd rfl hk

theorem DownOrder.move (hsw : StrictWeak lt) {v : List α} {k hole c : Nat} {tmp x : α}
    (o : DownOrder lt v k hole tmp) (hc0 : 0 < c) (hc : parent c = hole) (hx : v[c]? = some x)
    (hmax : ∀ i b, 0 < i → parent i = hole → v[i]? = some b → lt x b = false) (hlt : lt tmp x = true) :
    DownOrder lt (v.set hole x) k c tmp := by
  have hhc : hole < c := hc ▸ parent_lt hc0
  have hhl : hole < v.length := hhc.trans (List.getElem?_eq_some_iff.mp hx).1
  have hset : (v.set hole x)[hole]? = some x := List.getElem?_set_self hhl
  refine ⟨by have := o.le_hole; omega, fun i a b hi hp hic hpc ha hb => ?_, fun _ a ha => ?_,
    fun _ i a b hi hpi ha hb => ?_, fun _ => hc ▸ o.le_hole⟩
  · by_cases hih : i = hole
    · -- the edge into the hole now ends at `x`, which the hole's parent comes no earlier than
      subst hih
      have hk : i ≠ k := by have := parent_lt hi; omega
      rw [List.getElem?_set_ne (by have := parent_lt hi; omega)] at ha
      rw [hset, Option.some_inj] at hb
      subst hb
      exact o.grand hk c a x hc0 hc ha hx
    · rw [List.getElem?_set_ne (Ne.symm hih)] at hb
      by_cases hph : parent i = hole
      · rw [hph, hset, Option.some_inj] at ha
        subst ha
        exact hmax i b hi hph hb
      · rw [List.getElem?_set_ne (Ne.symm hph)] at ha
        exact o.except i a b hi hp hih hph ha hb
  · rw [hc, hset, Option.some_inj] at ha
    subst ha
    exact hsw.asymm hlt
  · -- `x`'s own children were below it before
    have hic : hole < i := by have := parent_lt hi; omega
    rw [hc, hset, Option.some_inj] at ha
    rw [← ha]
    rw [List.getElem?_set_ne (by omega)] at hb
    have hxe : v[parent i]? = some x := by rw [hpi]; exact hx
    exact o.except i x b hi (by have := o.le_hole; omega) (by omega) (by omega) hxe hb

theorem DownOrder.finish {v : List α} {k hole : Nat} {tmp : α} (o : DownOrder lt v k hole tmp)
    (hhl : hole < v.length) (hstop : ∀ i b, 0 < i → parent i = hole → v[i]? = some b → lt tmp b = false) :
    HeapFrom lt (v.set hole tmp) k := by
  have hset : (v.set hole tmp)[hole]? = some tmp := List.getElem?_set_self hhl
  intro i a b hi hp ha hb
  by_cases hih : i = hole
  · subst hih
    have hk : i ≠ k := by have := parent_lt hi; omega
    rw [List.getElem?_set_ne (by have := parent_lt hi; omega)] at ha
    rw [hset, Option.some_inj] at hb
    subst hb
    exact o.above hk a ha
  · rw [List.getElem?_set_ne (Ne.symm hih)] at hb
    by_cases hph : parent i = hole
    · rw [hph, hset, Option.some_inj] at ha
      subst ha
      exact hstop i b hi hph hb
    · rw [List.getElem?_set_ne (Ne.symm hph)] at ha
      exact o.except i a b hi hp hih hph ha hb

theorem set_set_perm {v : List α} {hole c : Nat} {tmp x : α} (hne : hole ≠ c) (hhl : hole < v.length)
    (hx : v[c]? = some x) : ((v.set hole x).set c tmp).Perm (v.set hole tmp) := by
  have hcl : c < v.length := (List.getElem?_eq_some_iff.mp hx).1
  have hu : (v.set hole tmp).set hole x = v.set hole x := List.set_set tmp
  have hhl' : hole < (v.set hole tmp).toArray.size := by simpa using hhl
  have hcl'' : c < (v.set hole tmp).toArray.size := by simpa using hcl
  have hswap := (Array.swap_perm hhl' hcl'').toList
  have hcl' : c < (v.set hole tmp).length := by simpa using hcl
  have hxc : (v.set hole tmp)[c] = x := by
    rw [List.getElem_set_ne hne]
    exact (List.getElem?_eq_some_iff.mp hx).2
  simpa [Array.swap, hxc, hu] using hswap

end BinaryHeap
