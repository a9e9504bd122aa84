import Mathlib

namespace Decimal

def digits (n : Nat) : List UInt8 := (Nat.toDigits 10 n).map (fun c => c.toNat.toUInt8)

def isDigit (b : UInt8) : Bool := 48 ≤ b.toNat && b.toNat ≤ 57

def ofDigits (acc : Nat) (l : List UInt8) : Nat := l.foldl (fun a b => a * 10 + (b.toNat - 48)) acc

theorem toNat_lt_of_mem_toDigits {n : Nat} {c : Char} (hc : c ∈ Nat.toDigits 10 n) :
    48 ≤ c.toNat ∧ c.toNat ≤ 57 := by
  have h := Nat.isDigit_of_mem_toDigits (by decide) (by decide) hc
  simp only [Char.isDigit, Bool.and_eq_true, decide_eq_true_eq] at h
  exact ⟨h.1, h.2⟩

theorem isDigit_of_mem_digits {n : Nat} {b : UInt8} (h : b ∈ digits n) : isDigit b = true := by
  obtain ⟨c, hc, rfl⟩ := List.mem_map.mp h
  have := toNat_lt_of_mem_toDigits hc
  simp only [isDigit, Nat.toUInt8_eq, UInt8.toNat_ofNat', Bool.and_eq_true, decide_eq_true_eq]
  omega

theorem digits_ne_nil (n : Nat) : digits n ≠ [] := by
  simp [digits, Nat.toDigits_ne_nil]

theorem le_ofDigits (acc : Nat) (l : List UInt8) : acc ≤ ofDigits acc l := by
  induction l generalizing acc with
  | nil => exact Nat.le_refl acc
  | cons b l ih => exact Nat.le_trans (by omega) (ih (acc * 10 + (b.toNat - 48)))

theorem ofDigits_digits (n : Nat) : ofDigits 0 (digits n) = n := by
  rw [ofDigits, digits, List.foldl_map]
  conv_rhs => rw [← Nat.ofDigitChars_toDigits (b := 10) (n := n) (by decide) (by decide), Nat.ofDigitChars_eq_foldl]
  apply List.foldl_ext
  intro a c hc
  have := toNat_lt_of_mem_toDigits hc
  simp only [Nat.toUInt8_eq, UInt8.toNat_ofNat']
  rw [Nat.mod_eq_of_lt (by omega), Nat.mul_comm]
  rfl

end Decimal
