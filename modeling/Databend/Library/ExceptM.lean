import Mathlib

namespace ExceptM

variable {ε α β : Type}

theorem bind_eq_ok {x : Except ε α} {f : α → Except ε β} {b : β} (h : x >>= f = .ok b) :
    ∃ a, x = .ok a ∧ f a = .ok b := by
  cases x with
  | error e => cases h
  | ok a => exact ⟨a, rfl, h⟩

theorem map_eq_ok {x : Except ε α} {f : α → β} {b : β} (h : x.map f = .ok b) : ∃ a, x = .ok a ∧ f a = b := by
  cases x with
  | error e => cases h
  | ok a => cases h; exact ⟨a, rfl, rfl⟩

theorem exists_of_isOk {x : Except ε α} (h : x.isOk) : ∃ a, x = .ok a := by
  cases x with
  | error e => cases h
  | ok a => exact ⟨a, rfl⟩

@[simp] theorem isOk_map (x : Except ε α) (f : α → β) : (x.map f).isOk = x.isOk := by
  cases x <;> rfl

theorem foldlM_append_ok {f : β → α → Except ε β} {l1 l2 : List α} {a b c : β}
    (h1 : l1.foldlM f a = .ok b) (h2 : l2.foldlM f b = .ok c) : (l1 ++ l2).foldlM f a = .ok c := by
  rw [List.foldlM_append, h1]
  exact h2

theorem foldlM_ok_induction {f : β → α → Except ε β} (P : β → Prop)
    (hf : ∀ b a b', P b → f b a = .ok b' → P b') {l : List α} {b b' : β} (hb : P b)
    (h : l.foldlM f b = .ok b') : P b' := by
  induction l generalizing b with
  | nil => cases h; exact hb
  | cons a l ih =>
      rw [List.foldlM_cons] at h
      obtain ⟨b1, h1, h2⟩ := bind_eq_ok h
      exact ih (hf b a b1 hb h1) h2

end ExceptM
