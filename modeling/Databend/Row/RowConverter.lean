import Databend.Row.Variable

namespace Databend.Row

open ByteOrder

inductive NumberDataType
  | UInt8 | UInt16 | UInt32 | UInt64 | Int8 | Int16 | Int32 | Int64 | Float32 | Float64

inductive DecimalDataType
  | Decimal128 | Decimal256

inductive DataType
  | Null
  | EmptyArray
  | EmptyMap
  | Boolean
  | String
  | Number (t : NumberDataType)
  | Decimal (t : DecimalDataType)
  | Timestamp
  | Date
  | Nullable (ty : DataType)
  | Array (ty : DataType)
  | Map (ty : DataType)
  | Bitmap
  | Tuple (tys : List DataType)
  | Variant
  | Generic (i : Nat)

structure SortField where
  data_type : DataType
  asc : Bool
  nulls_first : Bool

def support_data_type : DataType → Bool
  | .Array _ | .EmptyArray | .EmptyMap | .Map _ | .Bitmap | .Tuple _ | .Generic _ => false
  | .Nullable inner => support_data_type inner
  | _ => true

structure RowConverter where
  fields : List SortField
  supported : ∀ f ∈ fields, support_data_type f.data_type = true

inductive ErrorCode
  | Unimplemented (fields : List SortField)

def RowConverter.new (fields : List SortField) : Except ErrorCode RowConverter :=
  if h : fields.all fun f => support_data_type f.data_type then
    .ok ⟨fields, fun f hf => List.all_eq_true.mp h f hf⟩
  else .error (.Unimplemented fields)

inductive NumberColumn
  | UInt8 (c : List UInt8)
  | UInt16 (c : List UInt16)
  | UInt32 (c : List UInt32)
  | UInt64 (c : List UInt64)
  | Int8 (c : List Int8)
  | Int16 (c : List Int16)
  | Int32 (c : List Int32)
  | Int64 (c : List Int64)
  | Float32 (c : List UInt32)
  | Float64 (c : List UInt64)

inductive DecimalColumn
  | Decimal128 (c : List (BitVec 128))
  | Decimal256 (c : List (BitVec 256))

inductive Column
  | Null (len : Nat)
  | Number (col : NumberColumn)
  | Decimal (col : DecimalColumn)
  | Boolean (col : List Bool)
  | String (col : List (List UInt8))
  | Timestamp (col : List Int64)
  | Date (col : List Int32)
  | Nullable (column : Column) (validity : List Bool)
  | Variant (col : List (List UInt8))

def NumberColumn.len : NumberColumn → Nat
  | .UInt8 c => c.length
  | .UInt16 c => c.length
  | .UInt32 c => c.length
  | .UInt64 c => c.length
  | .Int8 c => c.length
  | .Int16 c => c.length
  | .Int32 c => c.length
  | .Int64 c => c.length
  | .Float32 c => c.length
  | .Float64 c => c.length

def DecimalColumn.len : DecimalColumn → Nat
  | .Decimal128 c => c.length
  | .Decimal256 c => c.length

def Column.len : Column → Nat
  | .Null len => len
  | .Number col => col.len
  | .Decimal col => col.len
  | .Boolean col => col.length
  | .String col => col.length
  | .Timestamp col => col.length
  | .Date col => col.length
  | .Nullable column _ => column.len
  | .Variant col => col.length

def Column.validity : Column → Bool × Option (List Bool)
  | .Null _ => (true, none)
  -- all NULL when the bitmap's unset bits are all of it
  | .Nullable _ validity => (validity.count false == validity.length, some validity)
  | _ => (false, none)

def Column.remove_nullable : Column → Column
  | .Nullable column _ => column
  | c => c

section Encode

def encode_number (out : List (List UInt8)) (col : NumberColumn) (validity : Bool × Option (List Bool))
    (asc nulls_first : Bool) : List (List UInt8) :=
  match col with
  | .UInt8 c => Fixed.encode u8_encoding out c validity asc nulls_first
  | .UInt16 c => Fixed.encode u16_encoding out c validity asc nulls_first
  | .UInt32 c => Fixed.encode u32_encoding out c validity asc nulls_first
  | .UInt64 c => Fixed.encode u64_encoding out c validity asc nulls_first
  | .Int8 c => Fixed.encode i8_encoding out c validity asc nulls_first
  | .Int16 c => Fixed.encode i16_encoding out c validity asc nulls_first
  | .Int32 c => Fixed.encode i32_encoding out c validity asc nulls_first
  | .Int64 c => Fixed.encode i64_encoding out c validity asc nulls_first
  | .Float32 c => Fixed.encode f32_encoding out c validity asc nulls_first
  | .Float64 c => Fixed.encode f64_encoding out c validity asc nulls_first

def encode_decimal (out : List (List UInt8)) (col : DecimalColumn) (validity : Bool × Option (List Bool))
    (asc nulls_first : Bool) : List (List UInt8) :=
  match col with
  | .Decimal128 c => Fixed.encode i128_encoding out c validity asc nulls_first
  | .Decimal256 c => Fixed.encode i256_encoding out c validity asc nulls_first

def encode_column_of (out : List (List UInt8)) (column : Column) (validity : Bool × Option (List Bool))
    (asc nulls_first : Bool) : List (List UInt8) :=
  match column with
  | .Null _ => out
  | .Boolean col => Fixed.encode bool_encoding out col validity asc nulls_first
  | .Number col => encode_number out col validity asc nulls_first
  | .Decimal col => encode_decimal out col validity asc nulls_first
  | .Timestamp col => Fixed.encode i64_encoding out col validity asc nulls_first
  | .Date col => Fixed.encode i32_encoding out col validity asc nulls_first
  | .String col => Variable.encode out col validity asc nulls_first
  | .Variant col => Variable.encode out col validity asc nulls_first
  -- `unimplemented!()`: a nullable column does not hold a nullable column
  | .Nullable _ _ => out

def encode_column (out : List (List UInt8)) (column : Column) (asc nulls_first : Bool) : List (List UInt8) :=
  encode_column_of out column.remove_nullable column.validity asc nulls_first

def RowConverter.convert_columns (self : RowConverter) (columns : List Column) (num_rows : Nat) :
    List (List UInt8) :=
  (columns.zip self.fields).foldl (fun out (column, field) => encode_column out column field.asc field.nulls_first)
    (List.replicate num_rows [])

end Encode

section Spec

def Column.is_null : Column → Nat → Bool
  | .Null _, _ => true
  | .Nullable _ validity, k => !validity.getD k false
  | _, _ => false

def NumberColumn.value_compare : NumberColumn → Nat → Nat → Ordering
  | .UInt8 c, i, j => compare (c.getD i 0).toNat (c.getD j 0).toNat
  | .UInt16 c, i, j => compare (c.getD i 0).toNat (c.getD j 0).toNat
  | .UInt32 c, i, j => compare (c.getD i 0).toNat (c.getD j 0).toNat
  | .UInt64 c, i, j => compare (c.getD i 0).toNat (c.getD j 0).toNat
  | .Int8 c, i, j => compare (c.getD i 0).toInt (c.getD j 0).toInt
  | .Int16 c, i, j => compare (c.getD i 0).toInt (c.getD j 0).toInt
  | .Int32 c, i, j => compare (c.getD i 0).toInt (c.getD j 0).toInt
  | .Int64 c, i, j => compare (c.getD i 0).toInt (c.getD j 0).toInt
  | .Float32 c, i, j => total_order (c.getD i 0).toBitVec (c.getD j 0).toBitVec
  | .Float64 c, i, j => total_order (c.getD i 0).toBitVec (c.getD j 0).toBitVec

def Column.value_compare : Column → Nat → Nat → Ordering
  | .Null _, _, _ => .eq
  | .Number col, i, j => col.value_compare i j
  | .Decimal (.Decimal128 c), i, j => compare (c.getD i 0).toInt (c.getD j 0).toInt
  | .Decimal (.Decimal256 c), i, j => compare (c.getD i 0).toInt (c.getD j 0).toInt
  | .Boolean c, i, j => compare (c.getD i false) (c.getD j false)
  | .String c, i, j => compare (c.getD i []) (c.getD j [])
  | .Timestamp c, i, j => compare (c.getD i 0).toInt (c.getD j 0).toInt
  | .Date c, i, j => compare (c.getD i 0).toInt (c.getD j 0).toInt
  | .Nullable column _, i, j => column.value_compare i j
  | .Variant c, i, j => compare (c.getD i []) (c.getD j [])

def Column.row_value (c : Column) (k : Nat) : Option Nat := if c.is_null k then none else some k

def column_compare (field : SortField) (c : Column) (i j : Nat) : Ordering :=
  field_compare field.asc field.nulls_first c.value_compare (c.row_value i) (c.row_value j)

def rows_compare (fields : List SortField) (columns : List Column) (i j : Nat) : Ordering :=
  (columns.zip fields).foldr (fun (c, f) o => (column_compare f c i j).then o) .eq

def Column.HasLen : Column → Nat → Prop
  | .Nullable column validity, n => validity.length = n ∧ column.len = n ∧
      (match column with
       | .Null _ | .Nullable _ _ => False
       | _ => True)
  | c, n => c.len = n

end Spec

section Order

theorem Column.row_value_eq (c : Column) (k : Nat) :
    c.row_value k = if valid_at c.validity k then some k else none := by
  cases c with
  | Nullable column validity =>
      cases h : validity.getD k false <;>
        simp only [Column.row_value, Column.is_null, Column.validity, valid_at, h, Bool.not_false, Bool.not_true,
          if_true, if_false, Bool.false_eq_true]
  | _ => simp [Column.row_value, Column.is_null, Column.validity, valid_at]

theorem Column.value_compare_remove_nullable (c : Column) : c.remove_nullable.value_compare = c.value_compare := by
  cases c <;> rfl

theorem ordered_fields_encode_column_of {p : Column} {validity : Bool × Option (List Bool)} {n : Nat}
    (hp : p.len = n) (hval : ∀ v, validity.2 = some v → v.length = n)
    (hnull : ∀ len, p = .Null len → ∀ k, valid_at validity k = false)
    (hnn : ∀ c v, p ≠ .Nullable c v) (asc nulls_first : Bool) :
    OrderedFields (fun out => encode_column_of out p validity asc nulls_first) n
      (fun i j => field_compare asc nulls_first p.value_compare
        (if valid_at validity i then some i else none) (if valid_at validity j then some j else none)) := by
  cases p with
  | Null len =>
      -- nothing is written, and every row is NULL
      refine ⟨fun _ => [], fun out _ k => by simp [encode_column_of], by simp, fun i j hi hj => ?_⟩
      beta_reduce
      rw [getD_range_map hi, getD_range_map hj, hnull len rfl i, hnull len rfl j]
      exact ⟨rfl, PrefixFree.refl _⟩
  | Number col =>
      cases col with
      | UInt8 c => exact ordered_fields_encode u8_encoding (fun x y => compare_encode_unsigned (n := 1) x.toBitVec y.toBitVec) 0 hp hval asc nulls_first
      | UInt16 c => exact ordered_fields_encode u16_encoding (fun x y => compare_encode_unsigned (n := 2) x.toBitVec y.toBitVec) 0 hp hval asc nulls_first
      | UInt32 c => exact ordered_fields_encode u32_encoding (fun x y => compare_encode_unsigned (n := 4) x.toBitVec y.toBitVec) 0 hp hval asc nulls_first
      | UInt64 c => exact ordered_fields_encode u64_encoding (fun x y => compare_encode_unsigned (n := 8) x.toBitVec y.toBitVec) 0 hp hval asc nulls_first
      | Int8 c => exact ordered_fields_encode i8_encoding (fun x y => compare_encode_signed (n := 0) x.toBitVec y.toBitVec) 0 hp hval asc nulls_first
      | Int16 c => exact ordered_fields_encode i16_encoding (fun x y => compare_encode_signed (n := 1) x.toBitVec y.toBitVec) 0 hp hval asc nulls_first
      | Int32 c => exact ordered_fields_encode i32_encoding (fun x y => compare_encode_signed (n := 3) x.toBitVec y.toBitVec) 0 hp hval asc nulls_first
      | Int64 c => exact ordered_fields_encode i64_encoding (fun x y => compare_encode_signed (n := 7) x.toBitVec y.toBitVec) 0 hp hval asc nulls_first
      | Float32 c => exact ordered_fields_encode f32_encoding (fun x y => compare_encode_float (n := 3) x.toBitVec y.toBitVec) 0 hp hval asc nulls_first
      | Float64 c => exact ordered_fields_encode f64_encoding (fun x y => compare_encode_float (n := 7) x.toBitVec y.toBitVec) 0 hp hval asc nulls_first
  | Decimal col =>
      cases col with
      | Decimal128 c => exact ordered_fields_encode i128_encoding (compare_encode_signed (n := 15)) 0 hp hval asc nulls_first
      | Decimal256 c => exact ordered_fields_encode i256_encoding (compare_encode_signed (n := 31)) 0 hp hval asc nulls_first
  | Boolean col => exact ordered_fields_encode bool_encoding compare_bool_encoding false hp hval asc nulls_first
  | String col => exact Variable.ordered_fields_encode hp hval asc nulls_first
  | Timestamp col => exact ordered_fields_encode i64_encoding (fun x y => compare_encode_signed (n := 7) x.toBitVec y.toBitVec) 0 hp hval asc nulls_first
  | Date col => exact ordered_fields_encode i32_encoding (fun x y => compare_encode_signed (n := 3) x.toBitVec y.toBitVec) 0 hp hval asc nulls_first
  | Nullable c v => exact absurd rfl (hnn c v)
  | Variant col => exact Variable.ordered_fields_encode hp hval asc nulls_first

theorem ordered_fields_encode_column {c : Column} {n : Nat} (hc : c.HasLen n) (field : SortField) :
    OrderedFields (fun out => encode_column out c field.asc field.nulls_first) n (column_compare field c) := by
  have hspec : column_compare field c = fun i j => field_compare field.asc field.nulls_first
      c.remove_nullable.value_compare (if valid_at c.validity i then some i else none)
      (if valid_at c.validity j then some j else none) := by
    funext i j
    rw [column_compare, Column.row_value_eq, Column.row_value_eq, Column.value_compare_remove_nullable]
  rw [hspec]
  cases c with
  | Nullable p validity =>
      obtain ⟨hv, hp, hplain⟩ := hc
      refine ordered_fields_encode_column_of hp (fun v hv' => by cases hv'; exact hv) ?_ ?_ _ _
      · rintro len rfl
        exact absurd hplain id
      · rintro c v rfl
        exact absurd hplain id
  | Null len =>
      exact ordered_fields_encode_column_of hc (fun v hv => by cases hv) (fun _ _ _ => rfl) (fun _ _ h => by cases h) _ _
  | _ =>
      exact ordered_fields_encode_column_of hc (fun v hv => by cases hv) (fun _ h => by cases h)
        (fun _ _ h => by cases h) _ _

theorem convert_columns_order (conv : RowConverter) (columns : List Column) (n : Nat)
    (hcols : ∀ c ∈ columns, c.HasLen n) (i j : Nat) (hi : i < n) (hj : j < n) :
    compare ((conv.convert_columns columns n).getD i []) ((conv.convert_columns columns n).getD j []) =
      rows_compare conv.fields columns i j := by
  have hsteps : ∀ p ∈ columns.zip conv.fields,
      OrderedFields (fun out => encode_column out p.1 p.2.asc p.2.nulls_first) n (column_compare p.2 p.1) :=
    fun p hp => ordered_fields_encode_column (hcols p.1 (List.of_mem_zip hp).1) p.2
  have hrun := RowsOrdered.foldl (columns.zip conv.fields)
    (fun p out => encode_column out p.1 p.2.asc p.2.nulls_first) (fun p => column_compare p.2 p.1) hsteps
    (RowsOrdered.replicate_nil n)
  have h := (hrun.2 i j hi hj).1
  beta_reduce at h
  rw [Ordering.eq_then] at h
  exact h

theorem convert_columns_order_nullable_desc :
    (∀ c ∈ [Column.Nullable (.Number (.Int32 [5, -3, 5])) [true, false, true], Column.String [[0x61], [], [0x61, 0x00]]],
      c.HasLen 3) ∧ 0 < 3 ∧ 2 < 3 ∧
      compare
        ((RowConverter.convert_columns ⟨[⟨.Nullable (.Number .Int32), false, true⟩, ⟨.String, true, false⟩],
          by simp [support_data_type]⟩
          [.Nullable (.Number (.Int32 [5, -3, 5])) [true, false, true], .String [[0x61], [], [0x61, 0x00]]] 3).getD 0 [])
        ((RowConverter.convert_columns ⟨[⟨.Nullable (.Number .Int32), false, true⟩, ⟨.String, true, false⟩],
          by simp [support_data_type]⟩
          [.Nullable (.Number (.Int32 [5, -3, 5])) [true, false, true], .String [[0x61], [], [0x61, 0x00]]] 3).getD 2 []) =
        rows_compare [⟨.Nullable (.Number .Int32), false, true⟩, ⟨.String, true, false⟩]
          [.Nullable (.Number (.Int32 [5, -3, 5])) [true, false, true], .String [[0x61], [], [0x61, 0x00]]] 0 2 :=
  ⟨by simp [Column.HasLen, Column.len, NumberColumn.len], by decide, by decide,
    convert_columns_order _ _ 3 (by simp [Column.HasLen, Column.len, NumberColumn.len]) 0 2 (by decide) (by decide)⟩

end Order

end Databend.Row
