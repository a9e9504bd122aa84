import Mathlib
import Databend.Row.RowConverter

namespace Databend.Row.DataType

def is_nullable : DataType → Bool
  | .Nullable _ => true
  | _ => false

def remove_nullable : DataType → DataType
  | .Nullable ty => ty
  | ty => ty

def is_numeric : DataType → Bool
  | .Number _ => true
  | _ => false

def is_date_or_date_time : DataType → Bool
  | .Timestamp | .Date => true
  | _ => false

def is_decimal : DataType → Bool
  | .Decimal _ => true
  | _ => false

def is_string : DataType → Bool
  | .String => true
  | _ => false

def is_variant : DataType → Bool
  | .Variant => true
  | _ => false

def is_unsigned_numeric : DataType → Bool
  | .Number .UInt8 | .Number .UInt16 | .Number .UInt32 | .Number .UInt64 => true
  | _ => false

def is_signed_numeric : DataType → Bool
  | .Number .Int8 | .Number .Int16 | .Number .Int32 | .Number .Int64 => true
  | _ => false

-- `numeric_byte_size`; its error reads "Function number_byte_size argument must be numeric types,
-- but got" the type
def numeric_byte_size : DataType → Except DataType Nat
  | .Number .UInt8 | .Number .Int8 => .ok 1
  | .Number .UInt16 | .Number .Int16 => .ok 2
  | .Date | .Number .UInt32 | .Number .Float32 | .Number .Int32 => .ok 4
  | .Timestamp | .Number .UInt64 | .Number .Float64 | .Number .Int64 => .ok 8
  | .Decimal .Decimal128 => .ok 16
  | .Decimal .Decimal256 => .ok 32
  | ty => .error ty

-- `numeric_byte_size().unwrap()`, taken where the type is known to have a size
def byte_size (ty : DataType) : Nat :=
  match ty.numeric_byte_size with
  | .ok size => size
  | .error _ => 0

end Databend.Row.DataType

namespace Databend.Row

open ByteOrder

-- `Marshal::marshal` of every value: its little-endian bytes, a signed number by its two's
-- complement bits and a float by its IEEE 754 bits
def marshal_number_rows : NumberColumn → List (List UInt8)
  | .UInt8 c => c.map fun v => le_bytes 1 v.toNat
  | .UInt16 c => c.map fun v => le_bytes 2 v.toNat
  | .UInt32 c => c.map fun v => le_bytes 4 v.toNat
  | .UInt64 c => c.map fun v => le_bytes 8 v.toNat
  | .Int8 c => c.map fun v => le_bytes 1 v.toBitVec.toNat
  | .Int16 c => c.map fun v => le_bytes 2 v.toBitVec.toNat
  | .Int32 c => c.map fun v => le_bytes 4 v.toBitVec.toNat
  | .Int64 c => c.map fun v => le_bytes 8 v.toBitVec.toNat
  | .Float32 c => c.map fun v => le_bytes 4 v.toNat
  | .Float64 c => c.map fun v => le_bytes 8 v.toNat

def Column.marshal_rows : Column → Option (List (List UInt8))
  | .Boolean c => some (c.map fun v => [if v then 1 else 0])
  | .Number c => some (marshal_number_rows c)
  | .Decimal (.Decimal128 c) => some (c.map fun v => le_bytes 16 v.toNat)
  | .Decimal (.Decimal256 c) => some (c.map fun v => le_bytes 32 v.toNat)
  | .Date c => some (c.map fun v => le_bytes 4 v.toBitVec.toNat)
  | .Timestamp c => some (c.map fun v => le_bytes 8 v.toBitVec.toNat)
  | _ => none

-- the words of an integer column: an unsigned value as it is, a signed one by its two's complement
-- bits, as the `transmute` to the unsigned buffer reads them
def NumberColumn.words : NumberColumn → Option (List Nat)
  | .UInt8 c => some (c.map (·.toNat))
  | .UInt16 c => some (c.map (·.toNat))
  | .UInt32 c => some (c.map (·.toNat))
  | .UInt64 c => some (c.map (·.toNat))
  | .Int8 c => some (c.map fun v => v.toBitVec.toNat)
  | .Int16 c => some (c.map fun v => v.toBitVec.toNat)
  | .Int32 c => some (c.map fun v => v.toBitVec.toNat)
  | .Int64 c => some (c.map fun v => v.toBitVec.toNat)
  | _ => none

def Column.words : Column → Option (List Nat)
  | .Number c => c.words
  | _ => none

def ordered_float_eq (e f a b : Nat) : Bool :=
  let is_nan (x : Nat) := x / 2 ^ f % 2 ^ e == 2 ^ e - 1 && x % 2 ^ f != 0
  let magnitude (x : Nat) := x % 2 ^ (e + f)
  if is_nan a then is_nan b
  else !is_nan b && (a == b || (magnitude a == 0 && magnitude b == 0))

def NumberColumn.value_eq : NumberColumn → Nat → Nat → Bool
  | .UInt8 c, i, j => c.getD i 0 == c.getD j 0
  | .UInt16 c, i, j => c.getD i 0 == c.getD j 0
  | .UInt32 c, i, j => c.getD i 0 == c.getD j 0
  | .UInt64 c, i, j => c.getD i 0 == c.getD j 0
  | .Int8 c, i, j => c.getD i 0 == c.getD j 0
  | .Int16 c, i, j => c.getD i 0 == c.getD j 0
  | .Int32 c, i, j => c.getD i 0 == c.getD j 0
  | .Int64 c, i, j => c.getD i 0 == c.getD j 0
  | .Float32 c, i, j => ordered_float_eq 8 23 (c.getD i 0).toNat (c.getD j 0).toNat
  | .Float64 c, i, j => ordered_float_eq 11 52 (c.getD i 0).toNat (c.getD j 0).toNat

def Column.value_eq : Column → Nat → Nat → Bool
  | .Null _, _, _ => true
  | .Number c, i, j => c.value_eq i j
  | .Decimal (.Decimal128 c), i, j => c.getD i 0 == c.getD j 0
  | .Decimal (.Decimal256 c), i, j => c.getD i 0 == c.getD j 0
  | .Boolean c, i, j => c.getD i false == c.getD j false
  | .String c, i, j => c.getD i [] == c.getD j []
  | .Timestamp c, i, j => c.getD i 0 == c.getD j 0
  | .Date c, i, j => c.getD i 0 == c.getD j 0
  | .Nullable column _, i, j => column.value_eq i j
  | .Variant c, i, j => c.getD i [] == c.getD j []

def Column.row_eq (c : Column) (i j : Nat) : Bool :=
  match c.is_null i, c.is_null j with
  | true, true => true
  | false, false => c.value_eq i j
  | _, _ => false

end Databend.Row

namespace Databend.Expression

open Databend.Row
open ByteOrder

inductive HashMethodKind where
  | Serializer
  | DictionarySerializer (dict_keys : Nat)
  | SingleString
  | KeysU8
  | KeysU16
  | KeysU32
  | KeysU64
  | KeysU128
  | KeysU256
  deriving DecidableEq

def fixed_keys_method (group_key_len : Nat) : HashMethodKind :=
  if group_key_len = 1 then .KeysU8
  else if group_key_len = 2 then .KeysU16
  else if 3 ≤ group_key_len ∧ group_key_len ≤ 4 then .KeysU32
  else if 5 ≤ group_key_len ∧ group_key_len ≤ 8 then .KeysU64
  else if 9 ≤ group_key_len ∧ group_key_len ≤ 16 then .KeysU128
  else if 17 ≤ group_key_len ∧ group_key_len ≤ 32 then .KeysU256
  else .Serializer

def dict_keys (hash_key_types : List DataType) : Nat :=
  (hash_key_types.foldl (fun (acc : Nat × Bool) data_type =>
    let non_null_type := data_type.remove_nullable
    if non_null_type.is_string || non_null_type.is_variant then (acc.1 + 1, acc.2)
    else if !acc.2 then (acc.1 + 1, true)
    else acc) (0, false)).1

def choose_hash_method_with_types (hash_key_types : List DataType) (efficiently_memory : Bool) :
    HashMethodKind :=
  match hash_key_types with
  | [.String] | [.Variant] | [.Bitmap] => .SingleString
  | _ => go hash_key_types 0
where
  go : List DataType → Nat → HashMethodKind
    | [], group_key_len => fixed_keys_method group_key_len
    | hash_key_type :: rest, group_key_len =>
      let not_null_type := hash_key_type.remove_nullable
      if not_null_type.is_numeric || not_null_type.is_date_or_date_time || not_null_type.is_decimal then
        -- an extra byte for the null flag
        go rest (group_key_len + not_null_type.byte_size + if hash_key_type.is_nullable then 1 else 0)
      else if !efficiently_memory || hash_key_types.length == 1 then .Serializer
      else .DictionarySerializer (dict_keys hash_key_types)

inductive KeyType where
  | u8 | u16 | u32 | u64 | u128 | u256
  deriving DecidableEq

def KeyType.size : KeyType → Nat
  | .u8 => 1
  | .u16 => 2
  | .u32 => 4
  | .u64 => 8
  | .u128 => 16
  | .u256 => 32

def HashMethodKind.key_type : HashMethodKind → Option KeyType
  | .KeysU8 => some .u8
  | .KeysU16 => some .u16
  | .KeysU32 => some .u32
  | .KeysU64 => some .u64
  | .KeysU128 => some .u128
  | .KeysU256 => some .u256
  | _ => none

def write_bytes (key : List UInt8) (pos : Nat) (bytes : List UInt8) : List UInt8 :=
  key.take pos ++ bytes ++ key.drop (pos + bytes.length)

def write_rows : List (List UInt8) → List (List UInt8 → List UInt8) → List (List UInt8)
  | key :: keys, w :: ws => w key :: write_rows keys ws
  | keys, _ => keys

inductive FixedHashError where
  | BadDataValueType (data_type : DataType)
  -- an `unwrap` of `None`, which panics
  | Unwrap

-- `fixed_hash`: each row's value goes to `ptr` in its word; with a validity bitmap, a NULL row
-- instead gets 1 at `ptr + null_offset` and its value bytes stay as they were
def fixed_hash (column : Column) (data_type : DataType) (keys : List (List UInt8)) (ptr : Nat)
    (nulls : Option (Nat × Option (List Bool))) : Except FixedHashError (List (List UInt8)) :=
  match column with
  | .Nullable c validity =>
    match nulls, data_type with
    | some (null_offset, bitmap), .Nullable inner_type =>
      let bitmap := match bitmap with
        | some b => b.zipWith (· && ·) validity
        | none => validity
      fixed_hash c inner_type keys ptr (some (null_offset, some bitmap))
    | _, _ => .error .Unwrap
  | column =>
    match column.marshal_rows with
    | none => .error (.BadDataValueType data_type)
    | some values =>
      match nulls with
      | some (offsize, some bitmap) =>
        .ok (write_rows keys ((values.zip bitmap).map fun (value, valid) key =>
          if valid then write_bytes key ptr value else write_bytes key (ptr + offsize) [1]))
      | _ => .ok (write_rows keys (values.map fun value key => write_bytes key ptr value))

def build (offsize null_offsize : Nat) (keys : List (List UInt8)) (col : Column) (ty : DataType) :
    Except FixedHashError (Nat × Nat × List (List UInt8)) := do
  let size := ty.remove_nullable.byte_size
  let (nulls, null_offsize) :=
    if ty.is_nullable then (some (null_offsize - offsize, none), null_offsize + 1)
    else (none, null_offsize)
  let keys ← fixed_hash col ty keys offsize nulls
  pure (offsize + size, null_offsize, keys)

def build_keys_vec (t : KeyType) (group_columns : List (Column × DataType)) (rows : Nat) :
    Except FixedHashError (List Nat) := do
  let step := t.size
  let null_offsize := (group_columns.map fun (_, ty) => ty.remove_nullable.byte_size).sum
  let group_columns := group_columns.mergeSort fun a b =>
    b.2.remove_nullable.byte_size ≤ a.2.remove_nullable.byte_size
  let (_, _, keys) ← group_columns.foldlM
    (fun (state : Nat × Nat × List (List UInt8)) (col, ty) => build state.1 state.2.1 state.2.2 col ty)
    (0, null_offsize, List.replicate rows (List.replicate step 0))
  pure (keys.map of_le_bytes)

-- a single integer column (for `u8` to `u64`) or a single decimal column (for `u128` and `u256`) is
-- its own words
def build_keys_state (t : KeyType) (group_columns : List (Column × DataType)) (rows : Nat) :
    Except FixedHashError (List Nat) :=
  match t, group_columns with
  | .u128, [(col, ty)] | .u256, [(col, ty)] =>
    match col with
    | .Decimal (.Decimal128 c) => if ty.is_decimal then .ok (c.map BitVec.toNat) else build_keys_vec t group_columns rows
    | .Decimal (.Decimal256 c) => if ty.is_decimal then .ok (c.map BitVec.toNat) else build_keys_vec t group_columns rows
    | _ => build_keys_vec t group_columns rows
  | .u128, _ | .u256, _ => build_keys_vec t group_columns rows
  | _, [(col, ty)] =>
    if ty.is_unsigned_numeric || ty.is_signed_numeric then
      match col.words with
      | some words => .ok words
      | none => .error .Unwrap
    else build_keys_vec t group_columns rows
  | _, _ => build_keys_vec t group_columns rows

theorem group_by_float_zero_keys_differ :
    choose_hash_method_with_types [.Number .Float64] false = .KeysU64 ∧
      build_keys_state .u64 [(.Number (.Float64 [0, 0x8000000000000000]), .Number .Float64)] 2 =
        .ok [0, 0x8000000000000000] ∧
      (Column.Number (.Float64 [0, 0x8000000000000000])).row_eq 0 1 = true := by
  refine ⟨by decide, ?_, by decide⟩
  simp only [build_keys_state, build_keys_vec, List.mergeSort_singleton]
  rfl

end Databend.Expression
