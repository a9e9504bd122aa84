import Mathlib

namespace MinQueue

variable {α : Type} (cmp : α → α → Ordering)

structure TotalOn (l : List α) : Prop where
  eq_swap : ∀ a ∈ l, ∀ b ∈ l, cmp a b = (cmp b a).swap
  isLE_trans : ∀ a ∈ l, ∀ b ∈ l, ∀ c ∈ l, (cmp a b).isLE → (cmp b c).isLE → (cmp a c).isLE

def pop_min : List α → Option (α × List α)
  | [] => none
  | a :: rest =>
      match pop_min rest with
      | none => some (a, [])
      | some (m, rest') => if cmp a m = .gt then some (m, a :: rest') else some (a, rest)

variable {cmp}

theorem TotalOn.mono {l l' : List α} (h : TotalOn cmp l) (hsub : l' ⊆ l) : TotalOn cmp l' where
  eq_swap a ha b hb := h.eq_swap a (hsub ha) b (hsub hb)
  isLE_trans a ha b hb c hc := h.isLE_trans a (hsub ha) b (hsub hb) c (hsub hc)

theorem TotalOn.of_agree (cmp' : α → α → Ordering) [Std.TransCmp cmp'] {l : List α}
    (h : ∀ a ∈ l, ∀ b ∈ l, cmp a b = cmp' a b) : TotalOn cmp l where
  eq_swap a ha b hb := by
    rw [h a ha b hb, h b hb a ha]
    exact Std.OrientedCmp.eq_swap
  isLE_trans a ha b hb c hc hab hbc := by
    rw [h a ha b hb] at hab
    rw [h b hb c hc] at hbc
    rw [h a ha c hc]
    exact Std.TransCmp.isLE_trans hab hbc

theorem transCmp_comap {β : Type} (cmp : α → α → Ordering) [Std.TransCmp cmp] (f : β → α) :
    Std.TransCmp fun a b => cmp (f a) (f b) where
  eq_swap := Std.OrientedCmp.eq_swap
  isLE_trans := Std.TransCmp.isLE_trans

theorem pop_min_eq_none_iff {l : List α} : pop_min cmp l = none ↔ l = [] := by
  cases l with
  | nil => simp [pop_min]
  | cons a rest =>
    simp only [pop_min, reduceCtorEq, iff_false]
    split
    · simp
    · split <;> simp

theorem pop_min_perm {l : List α} {m : α} {rest : List α} (h : pop_min cmp l = some (m, rest)) :
    (m :: rest).Perm l := by
  induction l generalizing m rest with
  | nil => cases h
  | cons a l ih =>
    rw [pop_min] at h
    split at h
    · next hnone =>
      cases h
      rw [pop_min_eq_none_iff.mp hnone]
    · next m' rest' hsome =>
      split at h
      · cases h
        exact (List.Perm.swap a m rest').trans ((ih hsome).cons a)
      · cases h
        exact List.Perm.refl _

theorem pop_min_isLE {l : List α} (htot : TotalOn cmp l) {m : α} {rest : List α}
    (h : pop_min cmp l = some (m, rest)) : ∀ x ∈ rest, (cmp m x).isLE := by
  induction l generalizing m rest with
  | nil => cases h
  | cons a l ih =>
    rw [pop_min] at h
    split at h
    · cases h
      exact fun x hx => absurd hx List.not_mem_nil
    · next m' rest' hsome =>
      have hperm := pop_min_perm hsome
      have hm' : m' ∈ a :: l := List.mem_cons_of_mem a (hperm.subset List.mem_cons_self)
      have ih' := ih (htot.mono (List.subset_cons_self a l)) hsome
      split at h
      · -- `a` is above the least element of the rest, which is taken out
        next hgt =>
        cases h
        intro x hx
        rcases List.mem_cons.mp hx with rfl | hx
        · rw [htot.eq_swap _ hm' _ List.mem_cons_self, hgt]
          rfl
        · exact ih' x hx
      · -- `a` is at most the least element of the rest, hence at most every element
        next hgt =>
        cases h
        have ham : (cmp a m').isLE := Ordering.isLE_iff_ne_gt.mpr hgt
        intro x hx
        rcases List.mem_cons.mp (hperm.symm.subset hx) with rfl | hx'
        · exact ham
        · exact htot.isLE_trans _ List.mem_cons_self _ hm' _ (List.mem_cons_of_mem a hx) ham (ih' x hx')

end MinQueue
