import Mathlib
import Databend.Expression.ReadDecimal

namespace Databend.Expression

inductive DecimalDataType where
  | Decimal128 (size : DecimalSize)
  | Decimal256 (size : DecimalSize)
  deriving DecidableEq, Repr

def MAX_DECIMAL128_PRECISION : Nat := 38
def MAX_DECIMAL256_PRECISION : Nat := 76

namespace DecimalDataType

-- the `u8` sums of this section stay below 256: precisions are at most 76 and scales at most 12
-- above them
def from_size (size : DecimalSize) : Except String DecimalDataType :=
  if size.precision < 1 ∨ size.precision > MAX_DECIMAL256_PRECISION then
    .error ("Decimal precision must be between 1 and " ++ toString MAX_DECIMAL256_PRECISION)
  else if size.scale > size.precision then
    .error ("Decimal scale must be between 0 and precision " ++ toString size.precision)
  else if size.precision ≤ MAX_DECIMAL128_PRECISION then .ok (.Decimal128 size)
  else .ok (.Decimal256 size)

def size : DecimalDataType → DecimalSize
  | .Decimal128 size | .Decimal256 size => size

def scale (t : DecimalDataType) : Nat := t.size.scale

def precision (t : DecimalDataType) : Nat := t.size.precision

def leading_digits (t : DecimalDataType) : Nat := t.size.precision - t.size.scale

def max_precision : DecimalDataType → Nat
  | .Decimal128 _ => MAX_DECIMAL128_PRECISION
  | .Decimal256 _ => MAX_DECIMAL256_PRECISION

def max_result_precision (self other : DecimalDataType) : Nat :=
  match other with
  | .Decimal128 _ => self.max_precision
  | .Decimal256 _ => other.max_precision

def belong_diff_precision (precision_a precision_b : Nat) : Bool :=
  (precision_a > MAX_DECIMAL128_PRECISION && precision_b ≤ MAX_DECIMAL128_PRECISION) ||
    (precision_a ≤ MAX_DECIMAL128_PRECISION && precision_b > MAX_DECIMAL128_PRECISION)

def div_common_type (a b : DecimalDataType) (return_size : DecimalSize) :
    Except String (DecimalDataType × DecimalDataType) := do
  let precision_a := if belong_diff_precision a.precision return_size.precision then return_size.precision
    else a.precision
  let precision_b := if belong_diff_precision b.precision return_size.precision then return_size.precision
    else b.precision
  let a_type ← from_size ⟨precision_a, a.scale⟩
  let b_type ← from_size ⟨precision_b, b.scale⟩
  pure (a_type, b_type)

def binary_result_type (a b : DecimalDataType) (is_multiply is_divide is_plus_minus : Bool) :
    Except String (DecimalDataType × DecimalDataType × DecimalDataType) := do
  let multiply_precision := a.precision + b.precision
  let (precision, scale) :=
    if is_multiply then (min (a.max_result_precision b) multiply_precision, a.scale + b.scale)
    else if is_divide then
      -- from snowflake: P = L + S
      let l := a.leading_digits + b.scale
      let scale := max a.scale (min (a.scale + 6) 12)
      (l + scale, scale)
    else if is_plus_minus then
      let scale := max a.scale b.scale
      (min (a.max_result_precision b) (max a.leading_digits b.leading_digits + scale + 1), scale)
    else (a.max_result_precision b, max a.scale b.scale)
  -- both arguments Decimal128: clamp to 38; otherwise lift a result of at most 38 digits to 256 bits
  let precision :=
    if a.precision ≤ MAX_DECIMAL128_PRECISION ∧ b.precision ≤ MAX_DECIMAL128_PRECISION then
      min precision MAX_DECIMAL128_PRECISION
    else if precision ≤ MAX_DECIMAL128_PRECISION ∧ belong_diff_precision a.precision b.precision then
      MAX_DECIMAL128_PRECISION + 1
    else precision
  let precision := min precision MAX_DECIMAL256_PRECISION
  let result_type ← from_size ⟨precision, scale⟩
  if is_multiply then
    let left ← from_size ⟨precision, a.scale⟩
    let right ← from_size ⟨precision, b.scale⟩
    pure (left, right, result_type)
  else if is_divide then
    let (left, right) ← div_common_type a b result_type.size
    pure (left, right, result_type)
  else pure (result_type, result_type, result_type)

def bits : DecimalDataType → Nat
  | .Decimal128 _ => 128
  | .Decimal256 _ => 256

end DecimalDataType

def max_for_precision (precision : Nat) : Int := 10 ^ precision - 1

def min_for_precision (precision : Nat) : Int := -(10 ^ precision - 1)

inductive DecimalOp where
  | plus
  | minus
  | multiply
  | divide
  deriving DecidableEq, Repr

namespace DecimalOp

def apply : DecimalOp → Int → Int → Int
  | .plus, a, b => a + b
  | .minus, a, b => a - b
  | .multiply, a, b => a * b
  | .divide, a, b => a.tdiv b

-- the line of `register_decimal_arithmetic` that registers the operator: `line!()` in the overflow
-- error names the outermost macro invocation
def register_line : DecimalOp → Nat
  | .plus => 664
  | .minus => 665
  | .divide => 666
  | .multiply => 673

end DecimalOp

-- one row of `binary_decimal!` on raw values `a` and `b` of the bound types, with result size
-- `size`: an error for the row, or its raw result
def binary_decimal (left right : DecimalDataType) (op : DecimalOp) (size : DecimalSize) (a b : Int) :
    Except String Int :=
  let bits := left.bits
  -- `size.precision == <$type_name>::default_decimal_size().precision`
  let overflow := size.precision == left.max_precision
  if op = .divide then
    let scale_a := left.scale
    let scale_b := right.scale
    -- the `else` branch is taken only with `scale_b + size.scale = scale_a`
    let (scale_mul, scale_div) :=
      if scale_b + size.scale > scale_a then (scale_b + size.scale - scale_a, 0)
      else (0, scale_b + size.scale - scale_a)
    let multiplier := e bits scale_mul
    let div := e bits scale_div
    if b = 0 then .error "divided by zero"
    else
      let n := wrap bits (a * multiplier)
      -- a signed division that overflows panics whatever the profile
      if n = -2 ^ (bits - 1) ∧ b = -1 then .error "attempt to divide with overflow"
      else .ok ((n.tdiv b).tdiv div)
  else if overflow then
    let t := wrap bits (op.apply a b)
    if t < min_for_precision size.precision ∨ t > max_for_precision size.precision then
      .error ("Decimal overflow at line : " ++ toString op.register_line)
    else .ok t
  else .ok (wrap bits (op.apply a b))

def eval_decimal_binary_op (op : DecimalOp) (ta tb : DecimalDataType) (a b : Int) : Except String Int := do
  let (left, right, return_type) ← DecimalDataType.binary_result_type ta tb (op = .multiply) (op = .divide)
    (op = .plus ∨ op = .minus)
  binary_decimal left right op return_type.size a b

section Overflow

theorem wrap_spec {w : Nat} (hw : 1 ≤ w) (x : Int) :
    ∃ q : Int, wrap w x = x - 2 ^ w * q ∧ -(2 ^ w : Int) ≤ 2 * wrap w x ∧ 2 * wrap w x < 2 ^ w := by
  have hpow : (2 ^ w : Int) = 2 * 2 ^ (w - 1) := by
    rw [← pow_succ']
    congr 1
    omega
  have hpos : (0 : Int) < 2 ^ w := by positivity
  refine ⟨(x + 2 ^ (w - 1)) / 2 ^ w, ?_, ?_, ?_⟩
  · have := Int.emod_add_mul_ediv (x + 2 ^ (w - 1)) (2 ^ w)
    unfold wrap
    linarith
  · have := Int.emod_nonneg (x + 2 ^ (w - 1)) hpos.ne'
    unfold wrap
    linarith
  · have := Int.emod_lt_of_pos (x + 2 ^ (w - 1)) hpos
    unfold wrap
    linarith

theorem wrap_of_mem {w : Nat} (hw : 1 ≤ w) {x : Int} (h1 : -(2 ^ w : Int) ≤ 2 * x) (h2 : 2 * x < 2 ^ w) :
    wrap w x = x := by
  obtain ⟨q, hq, hlo, hhi⟩ := wrap_spec hw x
  have hpos : (0 : Int) < 2 ^ w := by positivity
  -- `2^w · q` is the difference of two values of one half-open range of width `2^w`
  have hq0 : q = 0 := by
    rcases lt_trichotomy q 0 with hlt | heq | hgt
    · nlinarith
    · exact heq
    · nlinarith
  rw [hq, hq0, mul_zero, sub_zero]

theorem checked_sum_exact {bits p : Nat} {s : Int} (hw : 1 ≤ bits) (hbits : 3 * 10 ^ p < 2 ^ bits)
    (hs : -(2 * 10 ^ p : Int) < s ∧ s < 2 * 10 ^ p) :
    (min_for_precision p ≤ wrap bits s ∧ wrap bits s ≤ max_for_precision p) ↔
      (min_for_precision p ≤ s ∧ s ≤ max_for_precision p) := by
  obtain ⟨q, hq, h1, h2⟩ := wrap_spec hw s
  have hb : (3 * 10 ^ p : Int) < 2 ^ bits := by exact_mod_cast hbits
  have h10 : (0 : Int) < 10 ^ p := by positivity
  unfold min_for_precision max_for_precision
  -- `q` is -1, 0 or 1, and only 0 leaves the value in range
  have hq1 : q = -1 ∨ q = 0 ∨ q = 1 := by
    rcases lt_trichotomy q 0 with hlt | heq | hgt
    · left
      nlinarith
    · exact .inr (.inl heq)
    · right; right
      nlinarith
  rcases hq1 with rfl | rfl | rfl
  · -- wrapped up by `2^bits`: the wrapped value lies above the range and `s` below it
    have hw : 10 ^ p - 1 < wrap bits s := by linarith
    have hs' : s < -(10 ^ p - 1) := by linarith
    constructor <;> rintro ⟨h, h'⟩ <;> linarith
  · simp [hq]
  · have hw : wrap bits s < -(10 ^ p - 1) := by linarith
    have hs' : 10 ^ p - 1 < s := by linarith
    constructor <;> rintro ⟨h, h'⟩ <;> linarith

theorem one_le_bits (t : DecimalDataType) : 1 ≤ t.bits := by
  cases t <;> simp [DecimalDataType.bits]

theorem max_precision_lt_bits (t : DecimalDataType) : 3 * 10 ^ t.max_precision < 2 ^ t.bits := by
  cases t <;> simp only [DecimalDataType.max_precision, DecimalDataType.bits, MAX_DECIMAL128_PRECISION,
    MAX_DECIMAL256_PRECISION] <;> norm_num

theorem binary_decimal_plus_minus_exact (left right : DecimalDataType) (op : DecimalOp)
    (hop : op = .plus ∨ op = .minus) (size : DecimalSize) (hsize : size.precision = left.max_precision)
    (a b : Int) (ha : |a| ≤ max_for_precision size.precision) (hb : |b| ≤ max_for_precision size.precision) :
    binary_decimal left right op size a b =
      if min_for_precision size.precision ≤ op.apply a b ∧ op.apply a b ≤ max_for_precision size.precision
      then .ok (op.apply a b) else .error ("Decimal overflow at line : " ++ toString op.register_line) := by
  have hdiv : op ≠ .divide := by rcases hop with rfl | rfl <;> decide
  have hbits : 3 * 10 ^ size.precision < 2 ^ left.bits := hsize ▸ max_precision_lt_bits left
  -- two values of at most `p` digits have a sum and a difference of less than `2·10^p`
  have hs : -(2 * 10 ^ size.precision : Int) < op.apply a b ∧ op.apply a b < 2 * 10 ^ size.precision := by
    unfold max_for_precision at ha hb
    rw [abs_le] at ha hb
    rcases hop with rfl | rfl <;> simp only [DecimalOp.apply] <;> constructor <;> linarith
  have hexact := checked_sum_exact (one_le_bits left) hbits hs
  simp only [binary_decimal, hdiv, if_false, hsize, beq_self_eq_true, if_true]
  rw [hsize] at hexact hs
  by_cases hin : min_for_precision left.max_precision ≤ op.apply a b ∧
      op.apply a b ≤ max_for_precision left.max_precision
  · -- in range the sum is below `2^(bits-1)` and does not wrap
    have hb3 : (3 * 10 ^ left.max_precision : Int) < 2 ^ left.bits := by
      rw [hsize] at hbits
      exact_mod_cast hbits
    have hwrap : wrap left.bits (op.apply a b) = op.apply a b := by
      unfold min_for_precision max_for_precision at hin
      exact wrap_of_mem (one_le_bits left) (by linarith) (by linarith)
    rw [hwrap, if_neg (by simpa only [not_or, not_lt] using hin), if_pos hin]
  · rw [if_pos (by rw [← hexact] at hin; simpa only [not_and_or, not_le] using hin), if_neg hin]

theorem binary_decimal_plus_minus_exact_max :
    binary_decimal (.Decimal128 ⟨38, 0⟩) (.Decimal128 ⟨38, 0⟩) .minus ⟨38, 0⟩ (-10 ^ 37) (10 ^ 38 - 1) =
      .error "Decimal overflow at line : 665" := by
  rw [binary_decimal_plus_minus_exact _ _ .minus (.inr rfl) ⟨38, 0⟩ rfl _ _
    (by norm_num [max_for_precision]) (by norm_num [max_for_precision])]
  norm_num [DecimalOp.apply, min_for_precision, max_for_precision]
  decide

end Overflow

theorem decimal_multiply_wraps :
    DecimalDataType.binary_result_type (.Decimal128 ⟨20, 0⟩) (.Decimal128 ⟨20, 0⟩) true false false =
        .ok (.Decimal128 ⟨38, 0⟩, .Decimal128 ⟨38, 0⟩, .Decimal128 ⟨38, 0⟩) ∧
      eval_decimal_binary_op .multiply (.Decimal128 ⟨20, 0⟩) (.Decimal128 ⟨20, 0⟩) (2 ^ 64) (2 ^ 64) = .ok 0 ∧
      (2 ^ 64 : Int) ≤ max_for_precision 20 ∧ max_for_precision 38 < 2 ^ 64 * 2 ^ 64 := by
  refine ⟨by decide, by decide, by decide, by decide⟩

end Databend.Expression
