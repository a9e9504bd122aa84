import Mathlib

inductive Kleene where
  | ff | uu | tt
  deriving DecidableEq, Repr

namespace Kleene

def rank : Kleene → Nat
  | ff => 0
  | uu => 1
  | tt => 2

theorem rank_injective : Function.Injective rank := by
  intro a b h
  cases a <;> cases b <;> first | rfl | cases h

instance : LinearOrder Kleene := LinearOrder.lift' rank rank_injective

instance : OrderBot Kleene where
  bot := ff
  bot_le a := by cases a <;> decide

@[simp] theorem bot_eq_ff : (⊥ : Kleene) = ff := rfl

def any (l : List Kleene) : Kleene := l.foldr (· ⊔ ·) ⊥

@[simp] theorem any_nil : any [] = ff := rfl

@[simp] theorem any_cons (a : Kleene) (l : List Kleene) : any (a :: l) = a ⊔ any l := rfl

@[simp] theorem ff_sup (a : Kleene) : ff ⊔ a = a := bot_sup_eq a

@[simp] theorem sup_tt (a : Kleene) : a ⊔ tt = tt := by cases a <;> decide

@[simp] theorem tt_sup (a : Kleene) : tt ⊔ a = tt := by cases a <;> decide

theorem any_eq_tt_iff (l : List Kleene) : any l = tt ↔ tt ∈ l := by
  induction l with
  | nil => simp
  | cons a l ih =>
      rw [any_cons, List.mem_cons, ← ih]
      cases a <;> cases h : any l <;> decide

-- a truth value as a nullable boolean, NULL being `none`
def toOption : Kleene → Option Bool
  | ff => some false
  | uu => none
  | tt => some true

end Kleene
