import Mathlib
import Databend.Row.RowConverter
import Databend.Expression.DecimalArith

namespace Databend.Row.NumberDataType

deriving instance DecidableEq for NumberDataType

def bit_width : NumberDataType → Nat
  | .UInt8 | .Int8 => 8
  | .UInt16 | .Int16 => 16
  | .UInt32 | .Int32 | .Float32 => 32
  | .UInt64 | .Int64 | .Float64 => 64

def is_signed : NumberDataType → Bool
  | .UInt8 | .UInt16 | .UInt32 | .UInt64 => false
  | _ => true

def is_float : NumberDataType → Bool
  | .Float32 | .Float64 => true
  | _ => false

def is_integer (t : NumberDataType) : Bool := !t.is_float

-- `NumberDataType::new`; `none` where it panics with "unsupported numeric type"
def new : Nat → Bool → Bool → Option NumberDataType
  | 8, false, false => some .UInt8
  | 16, false, false => some .UInt16
  | 32, false, false => some .UInt32
  | 64, false, false => some .UInt64
  | 8, true, false => some .Int8
  | 16, true, false => some .Int16
  | 32, true, false => some .Int32
  | 64, true, false => some .Int64
  | 32, true, true => some .Float32
  | 64, true, true => some .Float64
  | _, _, _ => none

-- the `next_bit_width` of `number.rs` (its panic is for widths no type has)
def next_bit_width : Nat → Option Nat
  | 8 => some 16
  | 16 => some 32
  | 32 => some 64
  | _ => none

end Databend.Row.NumberDataType

namespace Databend.Expression

open Databend.Row (NumberDataType)

namespace Codegen

inductive OP where
  | Plus | Minus | Mul | Div | IntDiv | Modulo | Super

def next_bit_width (width : Nat) : Nat := if width < 64 then width * 2 else 64

def arithmetic_coercion (a b : NumberDataType) (op : OP) : Option NumberDataType :=
  let is_signed := a.is_signed || b.is_signed
  let is_float := a.is_float || b.is_float
  let bit_width := max a.bit_width b.bit_width
  match op with
  | .Plus | .Mul => NumberDataType.new (next_bit_width bit_width) is_signed is_float
  | .Modulo =>
    if is_float then some .Float64
    else
      let result_is_signed := a.is_signed
      let right_size := b.bit_width
      let size_of_result := if result_is_signed then next_bit_width right_size else right_size
      NumberDataType.new size_of_result result_is_signed false
  | .Minus => NumberDataType.new (next_bit_width bit_width) true is_float
  | .Div => some .Float64
  | .IntDiv => NumberDataType.new bit_width is_signed false
  | .Super => NumberDataType.new bit_width is_signed is_float

end Codegen

open Codegen

def IntegerType := {t : NumberDataType // t.is_integer = true}

namespace IntegerType

def MIN (t : IntegerType) : Int := if t.1.is_signed then -2 ^ (t.1.bit_width - 1) else 0

def MAX (t : IntegerType) : Int :=
  if t.1.is_signed then 2 ^ (t.1.bit_width - 1) - 1 else 2 ^ t.1.bit_width - 1

def contains (t : IntegerType) (x : Int) : Prop := t.MIN ≤ x ∧ x ≤ t.MAX

instance (t : IntegerType) : DecidablePred t.contains :=
  fun x => inferInstanceAs (Decidable (t.MIN ≤ x ∧ x ≤ t.MAX))

-- `AsPrimitive::as_`, Rust's `as`: the value of the type congruent to `x` modulo `2^bit_width`
def as_ (t : IntegerType) (x : Int) : Int := t.MIN + (x - t.MIN) % 2 ^ t.1.bit_width

def cast (t : IntegerType) (x : Int) : Option Int := if t.contains x then some x else none

def checked_add (t : IntegerType) (a b : Int) : Option Int := t.cast (a + b)

def checked_mul (t : IntegerType) (a b : Int) : Option Int := t.cast (a * b)

theorem arithmetic_coercion_integer (L R : IntegerType) (op : OP) (hop : op = .Plus ∨ op = .Minus) :
    ∃ T : NumberDataType, arithmetic_coercion L.1 R.1 op = some T ∧ T.is_integer = true := by
  have h : (arithmetic_coercion L.1 R.1 op).map NumberDataType.is_integer = some true := by
    obtain ⟨l, hl⟩ := L
    obtain ⟨r, hr⟩ := R
    rcases hop with rfl | rfl <;> cases l <;> cases r <;> revert hl hr <;> decide
  simpa [Option.map_eq_some_iff] using h

def AddMul (L R : IntegerType) : IntegerType :=
  ⟨(arithmetic_coercion L.1 R.1 .Plus).get (by
      obtain ⟨T, hT, -⟩ := arithmetic_coercion_integer L R .Plus (.inl rfl)
      simp [hT]), by
    obtain ⟨T, hT, hint⟩ := arithmetic_coercion_integer L R .Plus (.inl rfl)
    simpa [hT] using hint⟩

def Minus (L R : IntegerType) : IntegerType :=
  ⟨(arithmetic_coercion L.1 R.1 .Minus).get (by
      obtain ⟨T, hT, -⟩ := arithmetic_coercion_integer L R .Minus (.inr rfl)
      simp [hT]), by
    obtain ⟨T, hT, hint⟩ := arithmetic_coercion_integer L R .Minus (.inr rfl)
    simpa [hT] using hint⟩

end IntegerType

open IntegerType

structure SimpleDomain (α : Type) where
  min : α
  max : α
  deriving DecidableEq

def SimpleDomain.contains {α : Type} [LE α] (d : SimpleDomain α) (x : α) : Prop :=
  d.min ≤ x ∧ x ≤ d.max

instance {α : Type} [LE α] [DecidableLE α] (d : SimpleDomain α) : DecidablePred d.contains :=
  fun x => inferInstanceAs (Decidable (d.min ≤ x ∧ x ≤ d.max))

inductive FunctionDomain (α : Type) where
  | MayThrow
  | Full
  | Domain (d : α)
  deriving DecidableEq

def binary_eval (T : IntegerType) (op : Int → Int → Int) (a b : Int) : Int :=
  T.as_ (op (T.as_ a) (T.as_ b))

def plus (L R : IntegerType) : Int → Int → Int := binary_eval (L.AddMul R) (· + ·)

def minus (L R : IntegerType) : Int → Int → Int := binary_eval (L.Minus R) (· - ·)

def multiply (L R : IntegerType) : Int → Int → Int := binary_eval (L.AddMul R) (· * ·)

section Corners

variable {α : Type} [CommRing α] [LinearOrder α] [IsStrictOrderedRing α]

end Corners

namespace SimpleDomain

end SimpleDomain

structure F64 where
  sign : Bool
  exponent : Fin 2048
  fraction : Fin (2 ^ 52)

namespace F64

def NEG_INFINITY : F64 := ⟨true, 2047, 0⟩

def NAN : F64 := ⟨false, 2047, 2 ^ 51⟩

def is_nan (x : F64) : Bool := x.exponent = 2047 && x.fraction ≠ 0

instance : Neg F64 := ⟨fun x => { x with sign := !x.sign }⟩

def key (x : F64) : Int :=
  let magnitude : Int := x.exponent.val * 2 ^ 52 + x.fraction.val
  if x.sign then -magnitude else magnitude

def partial_cmp (x y : F64) : Option Ordering :=
  if x.is_nan || y.is_nan then none else some (compare x.key y.key)

def cmp (x y : F64) : Ordering :=
  match x.partial_cmp y with
  | some ordering => ordering
  | none => if x.is_nan then (if y.is_nan then .eq else .gt) else .lt

instance : LE F64 := ⟨fun x y => x.cmp y ≠ .gt⟩

instance : DecidableLE F64 := fun x y => inferInstanceAs (Decidable (x.cmp y ≠ .gt))

def MIN : F64 := NEG_INFINITY

def MAX : F64 := NAN

end F64

def full_domain : SimpleDomain F64 := ⟨F64.MIN, F64.MAX⟩

def unary_minus_float64_domain (val : SimpleDomain F64) : FunctionDomain (SimpleDomain F64) :=
  .Domain ⟨-val.max, -val.min⟩

def unary_minus_float64 (a : F64) : F64 := -a

theorem F64.is_nan_neg (x : F64) : (-x).is_nan = x.is_nan := rfl

theorem F64.cmp_of_is_nan {x y : F64} (hx : x.is_nan = true) (hy : y.is_nan = false) :
    x.cmp y = .gt := by
  simp [F64.cmp, F64.partial_cmp, hx, hy]

theorem unary_minus_float64_full_domain {x : F64} (hx : x.is_nan = false) :
    ∃ d, unary_minus_float64_domain full_domain = .Domain d ∧ ¬ d.contains (unary_minus_float64 x) := by
  refine ⟨_, rfl, fun h => h.1 ?_⟩
  exact F64.cmp_of_is_nan (by decide) (by rw [unary_minus_float64, F64.is_nan_neg, hx])

theorem unary_minus_float64_misses_zero :
    full_domain.contains ⟨false, 0, 0⟩ ∧
      ∃ d, unary_minus_float64_domain full_domain = .Domain d ∧
        ¬ d.contains (unary_minus_float64 ⟨false, 0, 0⟩) :=
  ⟨by decide, unary_minus_float64_full_domain rfl⟩

end Databend.Expression
