import Mathlib
import Databend.Library.Utf8

-- the rows a sort merges and the cursors that walk them (`sort/rows`, `sort/cursor.rs`)

namespace Databend.Sort

open Utf8

-- the `Ord` of a row item and the `eq` of its `PartialEq`, run with a budget of `depth` nested
-- calls: `none` is a call that has not returned within them
class RowOrd (Item : Type) where
  cmp : Item → Item → Ordering
  eq : Nat → Item → Item → Option Bool

class Rows (R : Type) (Item : outParam Type) where
  len : R → Nat
  row : R → Nat → Item

structure SimpleRow (α : Type) where
  inner : α
  desc : Bool
  deriving Repr

structure SimpleRows (α : Type) where
  inner : List α
  desc : Bool
  deriving Repr

section SimpleRow

variable {α : Type}

def SimpleRow.cmp [Ord α] (a b : SimpleRow α) : Ordering :=
  if a.desc then (compare a.inner b.inner).swap else compare a.inner b.inner

-- `impl PartialEq<&B> for &A` of the standard library: `PartialEq::eq(*self, *other)`
def ref_eq (eq : α → α → Option Bool) (a b : α) : Option Bool := eq a b

-- the body `self == other` compares two `&SimpleRow<T>`, which is `ref_eq` of this same `eq`
def SimpleRow.eq : Nat → SimpleRow α → SimpleRow α → Option Bool
  | 0, _, _ => none
  | depth + 1, a, b => ref_eq (SimpleRow.eq depth) a b

def SimpleRows.len (r : SimpleRows α) : Nat := r.inner.length

-- `index_column_unchecked` is only called below `len`; past it the model reads `default`
def SimpleRows.row [Inhabited α] (r : SimpleRows α) (index : Nat) : SimpleRow α :=
  ⟨r.inner.getD index default, r.desc⟩

instance [Ord α] : RowOrd (SimpleRow α) where
  cmp := SimpleRow.cmp
  eq := SimpleRow.eq

instance [Inhabited α] : Rows (SimpleRows α) (SimpleRow α) where
  len := SimpleRows.len
  row := SimpleRows.row

theorem SimpleRow.eq_eq_none (depth : Nat) (a b : SimpleRow α) : SimpleRow.eq depth a b = none := by
  induction depth with
  | zero => rfl
  | succ depth ih => exact ih

end SimpleRow

structure StringColumn where
  data : List (List UInt8)
  deriving Repr

def StringColumn.len (c : StringColumn) : Nat := c.data.length

def StringColumn.row (c : StringColumn) (index : Nat) : List UInt8 := c.data.getD index []

instance : Rows StringColumn (List UInt8) where
  len := StringColumn.len
  row := StringColumn.row

-- `Ord for [u8]`, and the slice equality, which does not recurse
instance : RowOrd (List UInt8) where
  cmp := compare_bytes
  eq _ a b := some (a == b)

theorem RowOrd.eq_bytes (depth : Nat) (a b : List UInt8) :
    RowOrd.eq depth a b = some (RowOrd.cmp a b == .eq) := by
  show some (a == b) = some (compare_bytes a b == .eq)
  rw [Option.some_inj, Bool.eq_iff_iff, beq_iff_eq, beq_iff_eq, compare_bytes_eq_iff]

instance transCmp_bytes : Std.TransCmp (RowOrd.cmp : List UInt8 → List UInt8 → Ordering) where
  eq_swap {a b} := compare_bytes_swap b a
  isLE_trans h1 h2 :=
    Ordering.ne_gt_iff_isLE.mp (compare_bytes_le_trans (Ordering.isLE_iff_ne_gt.mp h1) (Ordering.isLE_iff_ne_gt.mp h2))

structure Cursor (R : Type) where
  input_index : Nat
  row_index : Nat
  num_rows : Nat
  rows : R
  deriving Repr

namespace Cursor

variable {R Item : Type} [Rows R Item] [RowOrd Item]

def new (input_index : Nat) (rows : R) : Cursor R := ⟨input_index, 0, Rows.len rows, rows⟩

def advance (c : Cursor R) : Nat × Cursor R := (c.row_index, { c with row_index := c.row_index + 1 })

def is_finished (c : Cursor R) : Bool := c.num_rows == c.row_index

def current (c : Cursor R) : Item := Rows.row c.rows c.row_index

def last (c : Cursor R) : Item := Rows.row c.rows (c.num_rows - 1)

@[simp] theorem advance_fst (c : Cursor R) : c.advance.1 = c.row_index := rfl

@[simp] theorem advance_snd (c : Cursor R) : c.advance.2 = { c with row_index := c.row_index + 1 } := rfl

theorem is_finished_iff {c : Cursor R} : c.is_finished = true ↔ c.num_rows = c.row_index := by
  simp [is_finished]

theorem row_index_lt {c : Cursor R} (hle : c.row_index ≤ c.num_rows) (h : ¬c.is_finished = true) :
    c.row_index < c.num_rows := by
  have hne : ¬c.num_rows = c.row_index := fun he => h (is_finished_iff.mpr he)
  omega

def cmp (c d : Cursor R) : Ordering :=
  if c.input_index = d.input_index then compare c.row_index d.row_index
  else (RowOrd.cmp c.current d.current).then (compare c.input_index d.input_index)

-- `||` reads the rows only when the positions differ
def eq (depth : Nat) (c d : Cursor R) : Option Bool :=
  if c.input_index = d.input_index ∧ c.row_index = d.row_index then some true
  else RowOrd.eq depth c.current d.current

theorem cmp_eq_iff (c d : Cursor R) :
    c.cmp d = .eq ↔ c.input_index = d.input_index ∧ c.row_index = d.row_index := by
  unfold cmp
  by_cases hi : c.input_index = d.input_index
  · rw [if_pos hi, Nat.compare_eq_eq]
    exact ⟨fun h => ⟨hi, h⟩, fun h => h.2⟩
  · -- the tie is broken by the input index, which differs
    rw [if_neg hi, Ordering.then_eq_eq, Nat.compare_eq_eq]
    exact ⟨fun h => absurd h.2 hi, fun h => absurd h.1 hi⟩

theorem eq_of_same {c d : Cursor R} (h : c.input_index = d.input_index ∧ c.row_index = d.row_index)
    (depth : Nat) : c.eq depth d = some true := by
  rw [eq, if_pos h]

theorem eq_of_not_same {c d : Cursor R} (h : ¬(c.input_index = d.input_index ∧ c.row_index = d.row_index))
    (depth : Nat) : c.eq depth d = RowOrd.eq depth c.current d.current := by
  rw [eq, if_neg h]

section Lawful

variable {depth : Nat} (hlaw : ∀ a b : Item, RowOrd.eq depth a b = some (RowOrd.cmp a b == .eq))
include hlaw

theorem eq_of_lawful (c d : Cursor R) :
    c.eq depth d =
      some (decide (c.input_index = d.input_index ∧ c.row_index = d.row_index) || RowOrd.cmp c.current d.current == .eq) := by
  by_cases h : c.input_index = d.input_index ∧ c.row_index = d.row_index
  · rw [eq_of_same h, decide_eq_true h, Bool.true_or]
  · rw [eq_of_not_same h, hlaw, decide_eq_false h, Bool.false_or]

theorem eq_eq_cmp_iff (c d : Cursor R) :
    c.eq depth d = some (c.cmp d == .eq) ↔
      ¬(¬(c.input_index = d.input_index ∧ c.row_index = d.row_index) ∧ RowOrd.cmp c.current d.current = .eq) := by
  rw [eq_of_lawful hlaw, Option.some_inj]
  by_cases h : c.input_index = d.input_index ∧ c.row_index = d.row_index
  · have hcmp : c.cmp d = .eq := (cmp_eq_iff c d).mpr h
    simp [h, hcmp]
  · have hcmp : c.cmp d ≠ .eq := fun e => h ((cmp_eq_iff c d).mp e)
    simp [h, hcmp]

end Lawful

end Cursor

theorem Cursor.eq_simple_rows {α : Type} [Ord α] [Inhabited α] (c d : Cursor (SimpleRows α)) (depth : Nat) :
    c.eq depth d = none ↔ ¬(c.input_index = d.input_index ∧ c.row_index = d.row_index) := by
  by_cases h : c.input_index = d.input_index ∧ c.row_index = d.row_index
  · simp [Cursor.eq_of_same h, h]
  · rw [Cursor.eq_of_not_same h]
    exact ⟨fun _ => h, fun _ => SimpleRow.eq_eq_none depth _ _⟩

theorem Cursor.eq_string_column (c d : Cursor StringColumn) (depth : Nat) :
    c.eq depth d = some (c.cmp d == .eq) ↔
      ¬(¬(c.input_index = d.input_index ∧ c.row_index = d.row_index) ∧ c.current = d.current) := by
  rw [Cursor.eq_eq_cmp_iff (RowOrd.eq_bytes depth)]
  exact not_congr (and_congr_right fun _ => compare_bytes_eq_iff)

theorem sort_row_eq_disagrees_with_cmp :
    (∀ {α : Type} [Ord α] (a b : SimpleRow α) (depth : Nat), SimpleRow.eq depth a b = none) ∧
    (∀ {α : Type} [Ord α] [Inhabited α] (c d : Cursor (SimpleRows α)) (depth : Nat),
      c.eq depth d = none ↔ ¬(c.input_index = d.input_index ∧ c.row_index = d.row_index)) ∧
    (∀ {R Item : Type} [Rows R Item] [RowOrd Item] (c d : Cursor R),
      c.cmp d = .eq ↔ c.input_index = d.input_index ∧ c.row_index = d.row_index) ∧
    (∀ (c d : Cursor StringColumn) (depth : Nat),
      c.eq depth d = some (c.cmp d == .eq) ↔
        ¬(¬(c.input_index = d.input_index ∧ c.row_index = d.row_index) ∧ c.current = d.current)) ∧
    (Cursor.new 0 ⟨[[0x61]]⟩ : Cursor StringColumn).eq 0 (Cursor.new 1 ⟨[[0x61]]⟩) = some true ∧
    (Cursor.new 0 ⟨[[0x61]]⟩ : Cursor StringColumn).cmp (Cursor.new 1 ⟨[[0x61]]⟩) = .lt := by
  refine ⟨fun a b depth => SimpleRow.eq_eq_none depth a b, Cursor.eq_simple_rows, Cursor.cmp_eq_iff,
    Cursor.eq_string_column, ?_, ?_⟩
  · rfl
  · rfl

end Databend.Sort
