import Mathlib

namespace Utf8

def is_tail (b : UInt8) : Bool := 0x80 ≤ b.toNat && b.toNat ≤ 0xBF

def second3 (b0 : UInt8) : Nat × Nat :=
  if b0 = 0xE0 then (0xA0, 0xBF) else if b0 = 0xED then (0x80, 0x9F) else (0x80, 0xBF)

def second4 (b0 : UInt8) : Nat × Nat :=
  if b0 = 0xF0 then (0x90, 0xBF) else if b0 = 0xF4 then (0x80, 0x8F) else (0x80, 0xBF)

def within (r : Nat × Nat) (b : UInt8) : Bool := r.1 ≤ b.toNat && b.toNat ≤ r.2

def valid_char : List UInt8 → Bool
  | [b0] => b0.toNat ≤ 0x7F
  | [b0, b1] => 0xC2 ≤ b0.toNat && b0.toNat ≤ 0xDF && is_tail b1
  | [b0, b1, b2] => 0xE0 ≤ b0.toNat && b0.toNat ≤ 0xEF && within (second3 b0) b1 && is_tail b2
  | [b0, b1, b2, b3] =>
      0xF0 ≤ b0.toNat && b0.toNat ≤ 0xF4 && within (second4 b0) b1 && is_tail b2 && is_tail b3
  | _ => false

-- the encodings of the characters of a byte string, in order, or `none` when it is not UTF-8
def decode : List UInt8 → Option (List (List UInt8))
  | [] => some []
  | b0 :: rest =>
      if b0.toNat ≤ 0x7F then (decode rest).map ([b0] :: ·)
      else if b0.toNat ≤ 0xDF then
        match rest with
        | b1 :: rest => if valid_char [b0, b1] then (decode rest).map ([b0, b1] :: ·) else none
        | [] => none
      else if b0.toNat ≤ 0xEF then
        match rest with
        | b1 :: b2 :: rest =>
            if valid_char [b0, b1, b2] then (decode rest).map ([b0, b1, b2] :: ·) else none
        | _ => none
      else
        match rest with
        | b1 :: b2 :: b3 :: rest =>
            if valid_char [b0, b1, b2, b3] then (decode rest).map ([b0, b1, b2, b3] :: ·) else none
        | _ => none

def code_point : List UInt8 → Nat
  | [b0] => b0.toNat
  | [b0, b1] => b0.toNat % 32 * 64 + b1.toNat % 64
  | [b0, b1, b2] => b0.toNat % 16 * 4096 + b1.toNat % 64 * 64 + b2.toNat % 64
  | [b0, b1, b2, b3] => b0.toNat % 8 * 262144 + b1.toNat % 64 * 4096 + b2.toNat % 64 * 64 + b3.toNat % 64
  | _ => 0

def replacement : List UInt8 := [0xEF, 0xBF, 0xBD]

def compare_bytes : List UInt8 → List UInt8 → Ordering
  | [], [] => .eq
  | [], _ :: _ => .lt
  | _ :: _, [] => .gt
  | a :: as, b :: bs => (compare a.toNat b.toNat).then (compare_bytes as bs)

section Order

@[simp]
theorem compare_bytes_cons (a b : UInt8) (as bs : List UInt8) :
    compare_bytes (a :: as) (b :: bs) = (compare a.toNat b.toNat).then (compare_bytes as bs) := rfl

theorem compare_bytes_swap (as bs : List UInt8) : compare_bytes bs as = (compare_bytes as bs).swap := by
  induction as generalizing bs with
  | nil => cases bs <;> rfl
  | cons a as ih =>
      cases bs with
      | nil => rfl
      | cons b bs =>
          rw [compare_bytes_cons, compare_bytes_cons, ih, Ordering.swap_then, ← Nat.compare_swap]

theorem compare_bytes_self (as : List UInt8) : compare_bytes as as = .eq := by
  induction as with
  | nil => rfl
  | cons a as ih => simp [ih]

theorem compare_bytes_eq_iff {as bs : List UInt8} : compare_bytes as bs = .eq ↔ as = bs := by
  induction as generalizing bs with
  | nil => cases bs <;> simp [compare_bytes]
  | cons a as ih =>
      cases bs with
      | nil => simp [compare_bytes]
      | cons b bs =>
          rw [compare_bytes_cons, Ordering.then_eq_eq, Nat.compare_eq_eq, ih, List.cons.injEq,
            ← UInt8.toNat_inj]

theorem compare_bytes_lt_trans {as bs cs : List UInt8} (h1 : compare_bytes as bs = .lt)
    (h2 : compare_bytes bs cs = .lt) : compare_bytes as cs = .lt := by
  induction as generalizing bs cs with
  | nil => cases bs <;> cases cs <;> simp_all [compare_bytes]
  | cons a as ih =>
      cases bs with
      | nil => simp [compare_bytes] at h1
      | cons b bs =>
          cases cs with
          | nil => simp [compare_bytes] at h2
          | cons c cs =>
              rw [compare_bytes_cons, Ordering.then_eq_lt, Nat.compare_eq_lt, Nat.compare_eq_eq] at h1 h2 ⊢
              rcases h1 with h1 | ⟨h1e, h1⟩ <;> rcases h2 with h2 | ⟨h2e, h2⟩
              · exact .inl (by omega)
              · exact .inl (by omega)
              · exact .inl (by omega)
              · exact .inr ⟨by omega, ih h1 h2⟩

theorem compare_bytes_le_trans {as bs cs : List UInt8} (h1 : compare_bytes as bs ≠ .gt)
    (h2 : compare_bytes bs cs ≠ .gt) : compare_bytes as cs ≠ .gt := by
  -- `≠ .gt` is `.lt` or `.eq`, and `.eq` is equality
  have hle : ∀ {xs ys : List UInt8}, compare_bytes xs ys ≠ .gt → compare_bytes xs ys = .lt ∨ xs = ys := by
    intro xs ys h
    cases hc : compare_bytes xs ys
    · exact .inl rfl
    · exact .inr (compare_bytes_eq_iff.mp hc)
    · exact absurd hc h
  rcases hle h1 with h1 | rfl <;> rcases hle h2 with h2 | rfl
  · rw [compare_bytes_lt_trans h1 h2]
    decide
  · rw [h1]
    decide
  · rw [h2]
    decide
  · rw [compare_bytes_self]
    decide

theorem compare_bytes_append_left (p as bs : List UInt8) :
    compare_bytes (p ++ as) (p ++ bs) = compare_bytes as bs := by
  induction p with
  | nil => rfl
  | cons a p ih => simp [ih]

theorem compare_bytes_prefix (p q : List UInt8) : compare_bytes p (p ++ q) ≠ .gt := by
  have h := compare_bytes_append_left p [] q
  rw [List.append_nil] at h
  rw [h]
  cases q <;> simp [compare_bytes]

end Order

section Decode

theorem decode_map_cons {c rest : List UInt8} {chars : List (List UInt8)} (hc : valid_char c = true)
    (ih : ∀ {chars : List (List UInt8)}, decode rest = some chars →
      chars.flatten = rest ∧ ∀ c ∈ chars, valid_char c = true)
    (h : (decode rest).map (c :: ·) = some chars) :
    chars.flatten = c ++ rest ∧ ∀ c' ∈ chars, valid_char c' = true := by
  obtain ⟨chars', hd, rfl⟩ := Option.map_eq_some_iff.mp h
  obtain ⟨hflat, hvalid⟩ := ih hd
  refine ⟨by simp [hflat], fun c' hc' => ?_⟩
  rcases List.mem_cons.mp hc' with rfl | hc'
  · exact hc
  · exact hvalid c' hc'

theorem decode_spec {bytes : List UInt8} {chars : List (List UInt8)} (h : decode bytes = some chars) :
    chars.flatten = bytes ∧ ∀ c ∈ chars, valid_char c = true := by
  fun_induction decode bytes generalizing chars with
  | case1 =>
      cases h
      simp
  | case2 b0 _ hb ih => exact decode_map_cons (by simpa [valid_char] using hb) ih h
  | case3 _ _ _ _ _ hv ih => exact decode_map_cons hv ih h
  | case4 => cases h
  | case5 => cases h
  | case6 _ _ _ _ _ _ _ hv ih => exact decode_map_cons hv ih h
  | case7 => cases h
  | case8 => cases h
  | case9 _ _ _ _ _ _ _ _ hv ih => exact decode_map_cons hv ih h
  | case10 => cases h
  | case11 => cases h

theorem compare_bytes_cons_lt {a b : UInt8} (h : a.toNat < b.toNat) (as bs : List UInt8) :
    compare_bytes (a :: as) (b :: bs) = .lt := by
  simp [Nat.compare_eq_lt.mpr h]

theorem compare_bytes_cons_eq {a b : UInt8} (h : a.toNat = b.toNat) (as bs : List UInt8) :
    compare_bytes (a :: as) (b :: bs) = compare_bytes as bs := by
  simp [h]

theorem compare_bytes_lt_replacement {c : List UInt8} (hc : valid_char c = true)
    (hcp : code_point c < 0xFFFD) (x y : List UInt8) :
    compare_bytes (c ++ x) (replacement ++ y) = .lt := by
  match c, hc, hcp with
  | [b0], hc, _ =>
      simp only [valid_char, decide_eq_true_eq] at hc
      exact compare_bytes_cons_lt (by simp; omega) _ _
  | [b0, b1], hc, _ =>
      simp only [valid_char, Bool.and_eq_true, decide_eq_true_eq] at hc
      exact compare_bytes_cons_lt (by simp; omega) _ _
  | [b0, b1, b2], hc, hcp =>
      simp only [valid_char, within, is_tail, Bool.and_eq_true, decide_eq_true_eq] at hc
      obtain ⟨⟨⟨h0, h0'⟩, h1, h1'⟩, h2, h2'⟩ := hc
      by_cases hlt : b0.toNat < 0xEF
      · exact compare_bytes_cons_lt (by simpa [replacement] using hlt) _ _
      -- the first byte of U+FFFD: below it, the second and third bytes are below `BF BD`
      have hef : b0 = 0xEF := UInt8.toNat_inj.mp (by simp; omega)
      subst hef
      simp [second3] at h1 h1'
      simp only [code_point] at hcp
      simp only [replacement, List.cons_append]
      rw [compare_bytes_cons_eq rfl]
      by_cases hb1 : b1.toNat < 0xBF
      · exact compare_bytes_cons_lt (by simpa using hb1) _ _
      · rw [compare_bytes_cons_eq (by simp; omega)]
        exact compare_bytes_cons_lt (by simp; omega) _ _
  | [b0, b1, b2, b3], hc, hcp =>
      -- four bytes encode U+10000 or above
      simp only [valid_char, within, is_tail, Bool.and_eq_true, decide_eq_true_eq] at hc
      obtain ⟨⟨⟨⟨h0, h0'⟩, h1, h1'⟩, -⟩, -⟩ := hc
      simp only [code_point] at hcp
      by_cases hf0 : b0 = 0xF0
      · subst hf0
        simp [second4] at h1 h1' hcp
        omega
      · have : b0.toNat ≠ 0xF0 := fun h => hf0 (UInt8.toNat_inj.mp (by simpa using h))
        omega

end Decode

end Utf8
