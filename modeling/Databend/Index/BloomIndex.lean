import Mathlib

namespace Databend.Index

inductive DataType where
  | Boolean
  | Number
  | String
  | Date
  | Timestamp
  | Decimal
  | Nullable (inner : DataType)
  deriving DecidableEq, Repr

def DataType.remove_nullable : DataType → DataType
  | .Nullable inner => inner
  | ty => ty

inductive Scalar where
  | Null
  | Boolean (b : Bool)
  | Number (n : Int)
  | String (s : String)
  deriving DecidableEq, Repr

def Scalar.is_null : Scalar → Bool
  | .Null => true
  | _ => false

inductive Expr where
  | Constant (scalar : Scalar) (data_type : DataType)
  | ColumnRef (id : String) (data_type : DataType)
  | Cast (expr : Expr) (dest_type : DataType)
  | FunctionCall (name : String) (args : List Expr) (return_type : DataType)
  deriving Repr

inductive ErrorCode where
  | BadArguments (msg : String)
  deriving DecidableEq, Repr

-- the functions of a registry by name, and casts: `none` is an evaluation error
structure FunctionRegistry where
  call : String → List Scalar → Option Scalar
  cast : DataType → Scalar → Option Scalar

section Eval

variable (fns : FunctionRegistry)

mutual

def eval (row : String → Scalar) : Expr → Option Scalar
  | .Constant scalar _ => some scalar
  | .ColumnRef id _ => some (row id)
  | .Cast expr dest_type => (eval row expr).bind (fns.cast dest_type)
  | .FunctionCall name args _ => (eval_args row args).bind (fns.call name)

def eval_args (row : String → Scalar) : List Expr → Option (List Scalar)
  | [] => some []
  | arg :: args => (eval row arg).bind (fun v => (eval_args row args).map (v :: ·))

end

def Expr.as_constant : Expr → Option Scalar
  | .Constant scalar _ => some scalar
  | _ => none

mutual

def fold : Expr → Expr
  | .Cast expr dest_type =>
      let inner := fold expr
      match inner.as_constant.bind (fns.cast dest_type) with
      | some scalar => .Constant scalar dest_type
      | none => .Cast inner dest_type
  | .FunctionCall name args return_type =>
      let args := fold_args args
      match (args.mapM Expr.as_constant).bind (fns.call name) with
      | some scalar => .Constant scalar return_type
      | none => .FunctionCall name args return_type
  | expr => expr

def fold_args : List Expr → List Expr
  | [] => []
  | arg :: args => fold arg :: fold_args args

end

end Eval

def sql_eq (a b : Scalar) : Scalar :=
  if a.is_null || b.is_null then .Null else .Boolean (a == b)

def builtin_call : String → List Scalar → Option Scalar
  | "eq", [a, b] => some (sql_eq a b)
  | "is_not_null", [a] => some (.Boolean !a.is_null)
  | "not", [.Boolean b] => some (.Boolean !b)
  | "not", [.Null] => some .Null
  | _, _ => none

def BUILTIN_FUNCTIONS : FunctionRegistry where
  call := builtin_call
  cast _ scalar := some scalar

section Bloom

structure TableField where
  name : String
  column_id : Nat
  deriving DecidableEq, Repr

inductive FilterEvalResult where
  | MustFalse
  | Uncertain
  deriving DecidableEq, Repr

structure BloomIndex where
  filters : List (String × (UInt64 → Bool))

def field_with_name (schema : List TableField) (name : String) : Except ErrorCode TableField :=
  match schema.find? (fun f => f.name == name) with
  | some field => .ok field
  | none =>
      .error (.BadArguments ("Unable to get field named \"" ++ name ++ "\". Valid fields: " ++
        toString (schema.map TableField.name)))

-- the filter column of the current index version (V4), named by the column id
def build_filter_column_name (field : TableField) : String :=
  "Bloom(" ++ toString field.column_id ++ ")"

-- `Xor8Filter::supported_type`: NULLs are not added to a filter
def supported_type (data_type : DataType) : Bool :=
  match data_type.remove_nullable with
  | .Number | .Date | .Timestamp | .String | .Decimal => true
  | _ => false

def BloomIndex.find (self : BloomIndex) (filter_column : String) (target : Scalar) (ty : DataType)
    (scalar_map : List (Scalar × UInt64)) : FilterEvalResult :=
  match self.filters.find? (fun f => f.1 == filter_column) with
  | none => .Uncertain
  | some (_, contains_digest) =>
      if !supported_type ty || target.is_null then .Uncertain
      else if (scalar_map.lookup target).elim true contains_digest then .Uncertain
      else .MustFalse

def column_eq_constant : List Expr → Option (String × Scalar × DataType)
  | [.ColumnRef id column_type, .Constant scalar _] => some (id, scalar, column_type)
  | [.Constant scalar _, .ColumnRef id column_type] => some (id, scalar, column_type)
  | _ => none

section Visit

variable (visitor : String → Scalar → DataType → DataType → Except ErrorCode (Option Expr))

-- a call `eq` on a column and a constant, replaced by what the visitor returns for it
def visit_eq (name : String) (args : List Expr) (return_type : DataType) : Except ErrorCode (Option Expr) :=
  if name = "eq" then
    match column_eq_constant args with
    | some (id, scalar, column_type) => visitor id scalar column_type return_type
    | none => .ok none
  else .ok none

mutual

-- the `MapColumn[<key>] = <constant>` patterns are not modelled: the visitor is not called on them
-- and their arguments are visited
def visit_expr_column_eq_constant : Expr → Except ErrorCode Expr
  | .FunctionCall name args return_type => do
      match ← visit_eq visitor name args return_type with
      | some new_expr => pure new_expr
      | none => return .FunctionCall name (← visit_args args) return_type
  | .Cast expr dest_type => return .Cast (← visit_expr_column_eq_constant expr) dest_type
  | expr => pure expr

def visit_args : List Expr → Except ErrorCode (List Expr)
  | [] => pure []
  | arg :: args => return (← visit_expr_column_eq_constant arg) :: (← visit_args args)

end

end Visit

def BloomIndex.apply_visitor (self : BloomIndex) (scalar_map : List (Scalar × UInt64)) (data_schema : List TableField)
    (col_name : String) (scalar : Scalar) (ty return_type : DataType) : Except ErrorCode (Option Expr) := do
  let filter_column := build_filter_column_name (← field_with_name data_schema col_name)
  -- If the column doesn't contain the constant, we rewrite the expression to `false`.
  if self.find filter_column scalar ty scalar_map = .MustFalse then
    pure (some (.Constant (.Boolean false) return_type))
  else pure none

def BloomIndex.apply (self : BloomIndex) (expr : Expr) (scalar_map : List (Scalar × UInt64))
    (data_schema : List TableField) : Except ErrorCode FilterEvalResult := do
  let expr ← visit_expr_column_eq_constant (self.apply_visitor scalar_map data_schema) expr
  match fold BUILTIN_FUNCTIONS expr with
  | .Constant (.Boolean false) _ => pure .MustFalse
  | _ => pure .Uncertain

def is_null_expr (x : Expr) : Expr :=
  .FunctionCall "not" [.FunctionCall "is_not_null" [x] .Boolean] .Boolean

def NoFalseNegatives (contains_digest : UInt64 → Bool) (digest : Scalar → UInt64) (block : List (String → Scalar))
    (col : String) : Prop :=
  ∀ row ∈ block, row col ≠ .Null → contains_digest (digest (row col)) = true

theorem visit_eq_column_constant (visitor : String → Scalar → DataType → DataType → Except ErrorCode (Option Expr))
    (id : String) (ty : DataType) (c : Scalar) (return_type : DataType) :
    visit_eq visitor "eq" [.ColumnRef id ty, .Constant c ty] return_type = visitor id c ty return_type := by
  simp [visit_eq, column_eq_constant]

theorem apply_visitor_absent (self : BloomIndex) (data_schema : List TableField) (field : TableField)
    (hfield : field_with_name data_schema field.name = .ok field) (scalar_map : List (Scalar × UInt64))
    (c : Scalar) (ty return_type : DataType)
    (habsent : self.find (build_filter_column_name field) c ty scalar_map = .MustFalse) :
    self.apply_visitor scalar_map data_schema field.name c ty return_type =
      .ok (some (.Constant (.Boolean false) return_type)) := by
  simp only [BloomIndex.apply_visitor, hfield, habsent, bind, Except.bind, if_true]
  rfl

theorem visit_is_null_column_eq (visitor : String → Scalar → DataType → DataType → Except ErrorCode (Option Expr))
    (col : String) (c : Scalar) (ty return_type : DataType) (e : Expr)
    (hvisit : visitor col c ty return_type = .ok (some e)) :
    visit_expr_column_eq_constant visitor
        (is_null_expr (.FunctionCall "eq" [.ColumnRef col ty, .Constant c ty] return_type)) =
      .ok (is_null_expr e) := by
  have hnot : visit_eq visitor "not" [.FunctionCall "is_not_null"
      [.FunctionCall "eq" [.ColumnRef col ty, .Constant c ty] return_type] .Boolean] .Boolean = .ok none := by
    simp [visit_eq]
  have hnn : visit_eq visitor "is_not_null" [.FunctionCall "eq" [.ColumnRef col ty, .Constant c ty] return_type]
      .Boolean = .ok none := by
    simp [visit_eq]
  simp only [is_null_expr, visit_expr_column_eq_constant, visit_args, hnot, hnn, visit_eq_column_constant, hvisit,
    bind, Except.bind, pure, Except.pure]

theorem fold_is_null_false (return_type : DataType) :
    fold BUILTIN_FUNCTIONS (is_null_expr (.Constant (.Boolean false) return_type)) = .Constant (.Boolean false) .Boolean :=
  rfl

theorem eval_is_null_column_eq (row : String → Scalar) (col : String) (c : Scalar) (ty return_type : DataType)
    (hnull : row col = .Null) :
    eval BUILTIN_FUNCTIONS row (is_null_expr (.FunctionCall "eq" [.ColumnRef col ty, .Constant c ty] return_type)) =
      some (.Boolean true) := by
  simp [is_null_expr, eval, eval_args, hnull, BUILTIN_FUNCTIONS, builtin_call, sql_eq, Scalar.is_null]

theorem apply_is_null_column_eq_unsound (self : BloomIndex) (data_schema : List TableField) (field : TableField)
    (hfield : field_with_name data_schema field.name = .ok field) (scalar_map : List (Scalar × UInt64))
    (c : Scalar) (ty return_type : DataType)
    (habsent : self.find (build_filter_column_name field) c ty scalar_map = .MustFalse)
    (row : String → Scalar) (hnull : row field.name = .Null) :
    self.apply (is_null_expr (.FunctionCall "eq" [.ColumnRef field.name ty, .Constant c ty] return_type))
        scalar_map data_schema = .ok .MustFalse ∧
      eval BUILTIN_FUNCTIONS row
        (is_null_expr (.FunctionCall "eq" [.ColumnRef field.name ty, .Constant c ty] return_type)) =
        some (.Boolean true) := by
  refine ⟨?_, eval_is_null_column_eq row field.name c ty return_type hnull⟩
  have hvisit := visit_is_null_column_eq (self.apply_visitor scalar_map data_schema) field.name c ty return_type _
    (apply_visitor_absent self data_schema field hfield scalar_map c ty return_type habsent)
  simp only [BloomIndex.apply, hvisit, fold_is_null_false, bind, Except.bind, pure, Except.pure]

theorem apply_is_null_column_eq_unsound_null_row :
    NoFalseNegatives (fun d => d == 1) (fun s => match s with | .Number n => n.toNat.toUInt64 | _ => 0)
        [fun _ => .Null, fun _ => .Number 1] "c" ∧
      (BloomIndex.apply ⟨[("Bloom(0)", fun d => d == 1)]⟩
          (is_null_expr (.FunctionCall "eq" [.ColumnRef "c" (.Nullable .Number), .Constant (.Number 5) (.Nullable .Number)]
            (.Nullable .Boolean))) [(.Number 5, 5)] [⟨"c", 0⟩] = .ok .MustFalse ∧
        eval BUILTIN_FUNCTIONS (fun _ => .Null)
          (is_null_expr (.FunctionCall "eq" [.ColumnRef "c" (.Nullable .Number), .Constant (.Number 5) (.Nullable .Number)]
            (.Nullable .Boolean))) = some (.Boolean true)) := by
  refine ⟨?_, apply_is_null_column_eq_unsound ⟨[("Bloom(0)", fun d => d == 1)]⟩ [⟨"c", 0⟩] ⟨"c", 0⟩ rfl
    [(.Number 5, 5)] (.Number 5) (.Nullable .Number) (.Nullable .Boolean) rfl (fun _ => .Null) rfl⟩
  -- the filter holds the digest of the block's one value, 1
  intro row hrow hne
  simp only [List.mem_cons, List.not_mem_nil, or_false] at hrow
  rcases hrow with rfl | rfl
  · exact absurd rfl hne
  · rfl

end Bloom

end Databend.Index
