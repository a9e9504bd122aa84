import Mathlib

namespace Databend.Expression

-- the two's complement value of `x` in `w` bits
def wrap (w : Nat) (x : Int) : Int := (x + 2 ^ (w - 1)) % 2 ^ w - 2 ^ (w - 1)

def in_range (w : Nat) (x : Int) : Bool := decide (-2 ^ (w - 1) ≤ x ∧ x < 2 ^ (w - 1))

def checked_mul (w : Nat) (a b : Int) : Option Int := if in_range w (a * b) then some (a * b) else none

def checked_add (w : Nat) (a b : Int) : Option Int := if in_range w (a + b) then some (a + b) else none

-- Rust's `/` rounds toward zero; `MIN / -1` overflows
def checked_div (w : Nat) (a b : Int) : Option Int :=
  if b = 0 then none else if in_range w (a.tdiv b) then some (a.tdiv b) else none

-- `10_i128.pow(n)`, wrapping
def e (w n : Nat) : Int := wrap w (10 ^ n)

inductive DecimalError where
  | BadArguments (msg : String)
  | Overflow (msg : String)
  -- a Rust panic: an index out of bounds
  | Panic
  deriving DecidableEq, Repr

def decimal_parse_error (msg : String) : DecimalError := .BadArguments ("bad decimal literal: " ++ msg)

def decimal_overflow_error : DecimalError := .Overflow "Decimal overflow"

def ok_or_overflow : Option Int → Except DecimalError Int
  | some v => .ok v
  | none => .error decimal_overflow_error

def is_digit (c : UInt8) : Bool := 48 ≤ c.toNat && c.toNat ≤ 57

def digit_value (c : UInt8) : Nat := c.toNat - 48

structure ScanState where
  n : Int
  pos : Nat
  digits : Nat
  leading_digits : Nat
  zeros : Nat
  has_point : Bool
  has_e : Bool
  stop : Int
  deriving DecidableEq, Repr

-- `n = n.checked_mul(T::e(zeros + 1))?; n = n.checked_add(v)?`: append a digit after pending zeros
def push_digit (w : Nat) (n : Int) (zeros : Nat) (c : UInt8) : Except DecimalError Int := do
  let n ← ok_or_overflow (checked_mul w n (e w (zeros + 1)))
  ok_or_overflow (checked_add w n (digit_value c))

-- the leading zeros
def skip_zeros : List UInt8 → Nat → Bool → Nat × Bool
  | c :: rest, pos, leading_zero => if c = 48 then skip_zeros rest (pos + 1) true else (pos, leading_zero)
  | [], pos, leading_zero => (pos, leading_zero)

-- the first loop, over the integer digits; `rest` is the input from `st.pos` on
def integer_loop (w max_digits : Nat) (exact : Bool) : List UInt8 → ScanState → Except DecimalError ScanState
  | [], st => .ok st
  | c :: rest, st =>
      if is_digit c then
        if st.digits + 1 > max_digits then .error decimal_overflow_error
        else if c = 48 then
          integer_loop w max_digits exact rest { st with digits := st.digits + 1, zeros := st.zeros + 1, pos := st.pos + 1 }
        else do
          let n ← push_digit w st.n st.zeros c
          integer_loop w max_digits exact rest { st with n, digits := st.digits + 1, zeros := 0, pos := st.pos + 1 }
      else if c = 46 then .ok { st with has_point := true, leading_digits := st.digits, pos := st.pos + 1 }
      else if c = 101 ∨ c = 69 then .ok { st with has_e := true, pos := st.pos + 1 }
      else if exact then .error (decimal_parse_error "unexpected char")
      else .ok { st with stop := st.pos }

-- the second loop, over the fraction digits; digits past `max_digits` are consumed and cut
def fraction_loop (w max_digits : Nat) (exact : Bool) : List UInt8 → ScanState → Except DecimalError ScanState
  | [], st => .ok st
  | c :: rest, st =>
      if c = 48 then
        if st.digits ≥ max_digits then fraction_loop w max_digits exact rest { st with pos := st.pos + 1 }
        else fraction_loop w max_digits exact rest { st with zeros := st.zeros + 1, pos := st.pos + 1 }
      else if is_digit c then
        if st.digits ≥ max_digits then fraction_loop w max_digits exact rest { st with pos := st.pos + 1 }
        else do
          let n ← push_digit w st.n st.zeros c
          fraction_loop w max_digits exact rest
            { st with n, digits := st.digits + st.zeros + 1, zeros := 0, pos := st.pos + 1 }
      else if c = 101 ∨ c = 69 then .ok { st with has_e := true, pos := st.pos + 1 }
      else if exact then .error (decimal_parse_error "unexpected char")
      else .ok { st with stop := st.pos }

-- the exponent digits, `exp *= 10; exp += d` in wrapping `i32`; `i` counts from `pos`
def exponent_loop (exact : Bool) (pos : Nat) : List UInt8 → Nat → Int → Int → Except DecimalError (Int × Int)
  | [], _, exp, stop => .ok (exp, stop)
  | v :: rest, i, exp, stop =>
      if is_digit v then exponent_loop exact pos rest (i + 1) (wrap 32 (wrap 32 (exp * 10) + digit_value v)) stop
      else if exact then .error (decimal_parse_error ("unexpected char: " ++ toString v.toNat))
      else .ok (exp, pos + i)

def read_decimal (w : Nat) (buf : List UInt8) (max_digits : Nat) (exact : Bool) :
    Except DecimalError (Int × Nat × Int × Nat) := do
  if buf.isEmpty then throw (decimal_parse_error "empty")
  let len := buf.length
  let (sign, pos) : Int × Nat :=
    if buf.head? = some 43 then (1, 1) else if buf.head? = some 45 then (-1, 1) else (1, 0)
  let (pos, leading_zero) := skip_zeros (buf.drop pos) pos false
  let st ← integer_loop w max_digits exact (buf.drop pos) ⟨0, pos, 0, 0, 0, false, false, -1⟩
  -- pending zeros of the integer part
  let st ← if st.zeros > 0 then do
      let n ← ok_or_overflow (checked_mul w st.n (e w st.zeros))
      pure { st with n, zeros := 0 }
    else pure st
  let st ← if st.has_point && st.stop < 0 then fraction_loop w max_digits exact (buf.drop st.pos) st
    else pure st
  if st.digits = 0 && st.zeros = 0 && !leading_zero then throw (decimal_parse_error "no digits")
  let exponent : Int := if st.has_point then wrap 32 ((st.leading_digits : Int) - st.digits) else 0
  let (exponent, stop) ← if st.has_e && st.stop < 0 then do
      if st.pos = len - 1 then throw (decimal_parse_error "empty exponent")
      -- `buf[pos]` panics past the end
      let some c := buf[st.pos]? | throw .Panic
      let (exp_sign, pos) : Int × Nat :=
        if c = 43 then (1, st.pos + 1) else if c = 45 then (-1, st.pos + 1) else (1, st.pos)
      if pos = len - 1 then throw (decimal_parse_error "bad exponent")
      -- `buf[pos..]` panics past the end
      if pos > len then throw .Panic
      let (exp, stop) ← exponent_loop exact pos (buf.drop pos) 0 0 st.stop
      pure (wrap 32 (exponent + wrap 32 (exp * exp_sign)), stop)
    else pure (exponent, st.stop)
  let n ← ok_or_overflow (checked_mul w st.n sign)
  let n_read := if stop > 0 then stop.toNat else len
  return (n, st.digits % 256, exponent, n_read)

structure DecimalSize where
  precision : Nat
  scale : Nat
  deriving DecidableEq, Repr

def read_decimal_with_size (w : Nat) (buf : List UInt8) (size : DecimalSize) (exact : Bool) :
    Except DecimalError (Int × Nat) := do
  let (n, d, e', n_read) ← read_decimal w buf size.precision exact
  -- `size.precision - size.scale` in `u8`
  if wrap 32 (d + e') > ((size.precision : Int) - size.scale) % 256 then throw decimal_overflow_error
  let scale_diff := wrap 32 (e' + size.scale)
  let n ←
    if scale_diff < 0 then ok_or_overflow (checked_div w n (e w ((wrap 32 (-scale_diff)) % 2 ^ 32).toNat))
    else if scale_diff > 0 then ok_or_overflow (checked_mul w n (e w scale_diff.toNat))
    else pure n
  return (n, n_read)

example : read_decimal_with_size 128 [49, 46, 50, 53] ⟨10, 2⟩ true = .ok (125, 4) := by decide

theorem is_digit_bounds {c : UInt8} (h : is_digit c = true) : 48 ≤ c.toNat ∧ c.toNat ≤ 57 := by
  simpa only [is_digit, Bool.and_eq_true, decide_eq_true_eq] using h

theorem is_digit_ne_sign {c : UInt8} (h : is_digit c = true) : ¬ c = 43 ∧ ¬ c = 45 := by
  have hb := is_digit_bounds h
  constructor <;> rintro rfl <;> simp at hb

theorem digit_value_lt {c : UInt8} (h : is_digit c = true) : digit_value c < 10 := by
  have hb := is_digit_bounds h
  unfold digit_value
  omega

theorem in_range_of_lt {w : Nat} (hw : 5 ≤ w) {v : Int} (h0 : 0 ≤ v) (hv : v < 16) : in_range w v = true := by
  have h16 : 2 ^ 4 ≤ 2 ^ (w - 1) := Nat.pow_le_pow_right (by omega) (by omega)
  have hc : ((2 ^ (w - 1) : Nat) : Int) = (2 : Int) ^ (w - 1) := by norm_cast
  simp only [in_range, decide_eq_true_eq, ← hc]
  omega

theorem push_digit_zero {w : Nat} (hw : 5 ≤ w) {c : UInt8} (h : is_digit c = true) :
    push_digit w 0 0 c = .ok (digit_value c) := by
  have hv := digit_value_lt h
  simp only [push_digit, checked_mul, checked_add, Int.zero_mul, Int.zero_add,
    in_range_of_lt hw (Int.le_refl 0) (by omega), if_true, ok_or_overflow, bind, Except.bind,
    in_range_of_lt hw (v := (digit_value c : Int)) (by omega) (by omega)]

theorem read_decimal_one_digit_exponent (w : Nat) (hw : 5 ≤ w) (size : DecimalSize) (hp : 1 ≤ size.precision)
    (m d : UInt8) (hm : is_digit m = true) :
    read_decimal_with_size w [m, 101, d] size true = .error (decimal_parse_error "empty exponent") := by
  by_cases hm0 : m = 48
  · -- a leading zero is skipped and the scan starts on the `e`
    subst hm0
    simp [read_decimal_with_size, read_decimal, skip_zeros, integer_loop, is_digit, bind, Except.bind,
      pure, Except.pure, throw, throwThe, MonadExceptOf.throw]
  · -- the first byte is a nonzero digit: no sign, no leading zero, one mantissa digit
    obtain ⟨h43, h45⟩ := is_digit_ne_sign hm
    have hskip : skip_zeros [m, 101, d] 0 false = (0, false) := by simp [skip_zeros, hm0]
    have hdig : ¬ 0 + 1 > size.precision := by omega
    have hm' := is_digit_bounds hm
    simp [read_decimal_with_size, read_decimal, h43, h45, hskip, integer_loop, hm', hm0, hdig, push_digit_zero hw hm,
      is_digit, bind, Except.bind, pure, Except.pure, throw, throwThe, MonadExceptOf.throw]

theorem read_decimal_one_digit_exponent_five :
    read_decimal_with_size 128 [49, 101, 53] ⟨10, 0⟩ true = .error (decimal_parse_error "empty exponent") :=
  read_decimal_one_digit_exponent 128 (by decide) ⟨10, 0⟩ (by decide) 49 53 (by decide)

theorem read_decimal_bare_exponent_panics (w : Nat) (hw : 5 ≤ w) (size : DecimalSize) (hp : 1 ≤ size.precision)
    (m : UInt8) (hm : is_digit m = true) :
    read_decimal_with_size w [m, 101] size true = .error .Panic := by
  by_cases hm0 : m = 48
  · subst hm0
    simp [read_decimal_with_size, read_decimal, skip_zeros, integer_loop, is_digit, bind, Except.bind,
      pure, Except.pure, throw, throwThe, MonadExceptOf.throw]
  · -- the first byte is a nonzero digit: no sign, no leading zero, one mantissa digit
    obtain ⟨h43, h45⟩ := is_digit_ne_sign hm
    have hskip : skip_zeros [m, 101] 0 false = (0, false) := by simp [skip_zeros, hm0]
    have hdig : ¬ 0 + 1 > size.precision := by omega
    have hm' := is_digit_bounds hm
    simp [read_decimal_with_size, read_decimal, h43, h45, hskip, integer_loop, hm', hm0, hdig, push_digit_zero hw hm,
      is_digit, bind, Except.bind, pure, Except.pure, throw, throwThe, MonadExceptOf.throw]

theorem read_decimal_bare_exponent_panics_one :
    5 ≤ 128 ∧ 1 ≤ (⟨10, 0⟩ : DecimalSize).precision ∧ is_digit 49 = true ∧
      read_decimal_with_size 128 [49, 101] ⟨10, 0⟩ true = .error .Panic :=
  ⟨by decide, by decide, by decide, read_decimal_bare_exponent_panics 128 (by decide) ⟨10, 0⟩ (by decide) 49 (by decide)⟩

end Databend.Expression
