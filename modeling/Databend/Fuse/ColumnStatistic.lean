import Mathlib
import Databend.Library.Utf8
import Databend.Index.BloomIndex

namespace Databend.Fuse

open Utf8

inductive Scalar where
  | Null
  | Number (n : Int)
  | String (bytes : List UInt8)
  deriving DecidableEq, Repr

namespace Scalar

def is_null : Scalar → Bool
  | .Null => true
  | _ => false

def cmp : Scalar → Scalar → Ordering
  | .Null, .Null => .eq
  | .Number a, .Number b => compare a b
  | .String a, .String b => compare_bytes a b
  | _, _ => .eq

end Scalar

def min_by {α : Type} (cmp : α → α → Ordering) : List α → Option α
  | [] => none
  | x :: xs => some (xs.foldl (fun a b => if cmp a b = .gt then b else a) x)

def max_by {α : Type} (cmp : α → α → Ordering) : List α → Option α
  | [] => none
  | x :: xs => some (xs.foldl (fun a b => if cmp a b = .gt then a else b) x)

def STATS_STRING_PREFIX_LEN : Nat := 16

namespace Scalar

def trim_min (s : Scalar) (trim_len : Nat) : Option Scalar :=
  match s with
  | .String bytes =>
      match decode bytes with
      | some chars =>
          if bytes.length ≤ trim_len then some (.String bytes)
          else some (.String (chars.take trim_len).flatten)
      | none => none
  | v => some v

def trim_max (s : Scalar) (trim_len : Nat) : Option Scalar :=
  match s with
  | .String bytes =>
      match decode bytes with
      | some chars =>
          if bytes.length ≤ trim_len then some (.String bytes)
          else if chars.length ≤ trim_len then some (.String bytes)
          else
            let sliced := chars.take trim_len
            -- searched from the end, as `char_indices().rev()`; the character index stands for
            -- the byte index the source compares, both growing along the string
            match sliced.zipIdx.reverse.find? (fun e => code_point e.1 < 0xFFFD) with
            | none => none
            | some (_, replacement_point) =>
                some (.String ((sliced.take replacement_point).flatten ++
                  (List.replicate (sliced.length - replacement_point) replacement).flatten))
      | none => none
  | v => some v

end Scalar

structure ColumnStatistics where
  min : Scalar
  max : Scalar
  null_count : Nat
  deriving DecidableEq, Repr

abbrev StatisticsOfColumns := List (Nat × ColumnStatistics)

def StatisticsOfColumns.get (stats : StatisticsOfColumns) (column_id : Nat) : Option ColumnStatistics :=
  (stats.find? (·.1 == column_id)).map (·.2)

structure LeafColumn where
  column_id : Nat
  data_type : Index.DataType
  values : List Scalar

def range_index_supported_type (data_type : Index.DataType) : Bool :=
  match data_type.remove_nullable with
  | .Number | .Date | .Timestamp | .String | .Decimal => true
  | _ => false

-- the `min` aggregate of a column: the least of its values but NULLs, NULL if it has none
def column_min (values : List Scalar) : Scalar :=
  (min_by Scalar.cmp (values.filter fun v => !v.is_null)).getD .Null

def column_max (values : List Scalar) : Scalar :=
  (max_by Scalar.cmp (values.filter fun v => !v.is_null)).getD .Null

-- the statistics of one leaf column; `none` where the loop of `gen_columns_statistics` continues
def gen_column_statistics (col : LeafColumn) : Option ColumnStatistics :=
  if range_index_supported_type col.data_type then do
    let min ← (column_min col.values).trim_min STATS_STRING_PREFIX_LEN
    let max ← (column_max col.values).trim_max STATS_STRING_PREFIX_LEN
    pure ⟨min, max, (col.values.filter Scalar.is_null).length⟩
  else none

def gen_columns_statistics (leaves : List LeafColumn) : StatisticsOfColumns :=
  leaves.filterMap fun col => (gen_column_statistics col).map (col.column_id, ·)

def reduce_block_statistics (stats_of_columns : List StatisticsOfColumns) : StatisticsOfColumns :=
  (stats_of_columns.flatMap (·.map Prod.fst)).dedup.map fun id =>
    let stats := stats_of_columns.filterMap (·.get id)
    (id, ⟨(min_by Scalar.cmp ((stats.map (·.min)).filter fun v => !v.is_null)).getD .Null,
      (max_by Scalar.cmp ((stats.map (·.max)).filter fun v => !v.is_null)).getD .Null,
      (stats.map (·.null_count)).sum⟩)

section Bounds

variable {α : Type} (cmp : α → α → Ordering) (P : α → Prop)
  (htrans : ∀ a b c, P a → P b → P c → cmp a b ≠ .gt → cmp b c ≠ .gt → cmp a c ≠ .gt)
  (hswap : ∀ a b, P a → P b → cmp a b = .gt → cmp b a ≠ .gt)

include hswap in
theorem cmp_refl_of_swap {a : α} (ha : P a) : cmp a a ≠ .gt := fun h => hswap a a ha ha h h

include htrans hswap in
theorem foldl_min_by_le (xs : List α) (hxs : ∀ x ∈ xs, P x) (x : α) (hx : P x) :
    P (xs.foldl (fun a b => if cmp a b = .gt then b else a) x) ∧
      ∀ y ∈ x :: xs, cmp (xs.foldl (fun a b => if cmp a b = .gt then b else a) x) y ≠ .gt := by
  induction xs generalizing x with
  | nil =>
      refine ⟨hx, fun y hy => ?_⟩
      rw [List.mem_singleton.mp hy]
      exact cmp_refl_of_swap cmp P hswap hx
  | cons y ys ih =>
      have hy : P y := hxs y (by simp)
      rw [List.foldl_cons]
      by_cases hxy : cmp x y = .gt
      · -- `y` is the smaller so far
        rw [if_pos hxy]
        obtain ⟨hr, hle⟩ := ih (fun z hz => hxs z (by simp [hz])) y hy
        refine ⟨hr, fun z hz => ?_⟩
        rcases List.mem_cons.mp hz with rfl | hz
        · exact htrans _ y z hr hy hx (hle y (by simp)) (hswap z y hx hy hxy)
        · exact hle z hz
      · rw [if_neg hxy]
        obtain ⟨hr, hle⟩ := ih (fun z hz => hxs z (by simp [hz])) x hx
        refine ⟨hr, fun z hz => ?_⟩
        rcases List.mem_cons.mp hz with rfl | hz
        · exact hle z (by simp)
        · rcases List.mem_cons.mp hz with rfl | hz
          · exact htrans _ x z hr hx hy (hle x (by simp)) hxy
          · exact hle z (by simp [hz])

include htrans hswap in
theorem foldl_max_by_ge (xs : List α) (hxs : ∀ x ∈ xs, P x) (x : α) (hx : P x) :
    P (xs.foldl (fun a b => if cmp a b = .gt then a else b) x) ∧
      ∀ y ∈ x :: xs, cmp y (xs.foldl (fun a b => if cmp a b = .gt then a else b) x) ≠ .gt := by
  induction xs generalizing x with
  | nil =>
      refine ⟨hx, fun y hy => ?_⟩
      rw [List.mem_singleton.mp hy]
      exact cmp_refl_of_swap cmp P hswap hx
  | cons y ys ih =>
      have hy : P y := hxs y (by simp)
      rw [List.foldl_cons]
      by_cases hxy : cmp x y = .gt
      · -- `x` stays the greater
        rw [if_pos hxy]
        obtain ⟨hr, hle⟩ := ih (fun z hz => hxs z (by simp [hz])) x hx
        refine ⟨hr, fun z hz => ?_⟩
        rcases List.mem_cons.mp hz with rfl | hz
        · exact hle z (by simp)
        · rcases List.mem_cons.mp hz with rfl | hz
          · exact htrans z x _ hy hx hr (hswap x z hx hy hxy) (hle x (by simp))
          · exact hle z (by simp [hz])
      · rw [if_neg hxy]
        obtain ⟨hr, hle⟩ := ih (fun z hz => hxs z (by simp [hz])) y hy
        refine ⟨hr, fun z hz => ?_⟩
        rcases List.mem_cons.mp hz with rfl | hz
        · exact htrans z y _ hx hy hr hxy (hle y (by simp))
        · exact hle z hz

include htrans hswap in
theorem min_by_le {l : List α} (hl : ∀ x ∈ l, P x) {m : α} (h : min_by cmp l = some m) :
    P m ∧ ∀ y ∈ l, cmp m y ≠ .gt := by
  cases l with
  | nil => cases h
  | cons x xs =>
      cases h
      exact foldl_min_by_le cmp P htrans hswap xs (fun z hz => hl z (by simp [hz])) x (hl x (by simp))

include htrans hswap in
theorem max_by_ge {l : List α} (hl : ∀ x ∈ l, P x) {m : α} (h : max_by cmp l = some m) :
    P m ∧ ∀ y ∈ l, cmp y m ≠ .gt := by
  cases l with
  | nil => cases h
  | cons x xs =>
      cases h
      exact foldl_max_by_ge cmp P htrans hswap xs (fun z hz => hl z (by simp [hz])) x (hl x (by simp))

end Bounds

section Strings

theorem string_cmp_trans (a b c : Scalar) (ha : ∃ x, a = .String x) (hb : ∃ y, b = .String y)
    (hc : ∃ z, c = .String z) (h1 : a.cmp b ≠ .gt) (h2 : b.cmp c ≠ .gt) : a.cmp c ≠ .gt := by
  obtain ⟨x, rfl⟩ := ha
  obtain ⟨y, rfl⟩ := hb
  obtain ⟨z, rfl⟩ := hc
  exact compare_bytes_le_trans h1 h2

theorem string_cmp_swap (a b : Scalar) (ha : ∃ x, a = .String x) (hb : ∃ y, b = .String y)
    (h : a.cmp b = .gt) : b.cmp a ≠ .gt := by
  obtain ⟨x, rfl⟩ := ha
  obtain ⟨y, rfl⟩ := hb
  change compare_bytes y x ≠ .gt
  change compare_bytes x y = .gt at h
  rw [compare_bytes_swap, h]
  decide

theorem column_min_max_bounds {values : List Scalar}
    (hstr : ∀ v ∈ values, v.is_null = true ∨ ∃ b, v = .String b) {v : Scalar} (hv : v ∈ values)
    (hnull : v.is_null = false) :
    ((∃ b, column_min values = .String b) ∧ (column_min values).cmp v ≠ .gt) ∧
      ((∃ b, column_max values = .String b) ∧ v.cmp (column_max values) ≠ .gt) := by
  have hl : ∀ x ∈ values.filter (fun v => !v.is_null), ∃ b, x = .String b := by
    intro x hx
    obtain ⟨hx, hxn⟩ := List.mem_filter.mp hx
    rcases hstr x hx with h | h
    · simp [h] at hxn
    · exact h
  have hv' : v ∈ values.filter (fun v => !v.is_null) := List.mem_filter.mpr ⟨hv, by simp [hnull]⟩
  obtain ⟨m, hm⟩ : ∃ m, min_by Scalar.cmp (values.filter fun v => !v.is_null) = some m := by
    cases hf : values.filter (fun v => !v.is_null) with
    | nil => simp [hf] at hv'
    | cons x xs => exact ⟨_, rfl⟩
  obtain ⟨M, hM⟩ : ∃ M, max_by Scalar.cmp (values.filter fun v => !v.is_null) = some M := by
    cases hf : values.filter (fun v => !v.is_null) with
    | nil => simp [hf] at hv'
    | cons x xs => exact ⟨_, rfl⟩
  obtain ⟨hmP, hmle⟩ := min_by_le Scalar.cmp _ string_cmp_trans string_cmp_swap hl hm
  obtain ⟨hMP, hMge⟩ := max_by_ge Scalar.cmp _ string_cmp_trans string_cmp_swap hl hM
  simp only [column_min, column_max, hm, hM, Option.getD_some]
  exact ⟨⟨hmP, hmle v hv'⟩, hMP, hMge v hv'⟩

theorem trim_min_string_le {bytes : List UInt8} {n : Nat} {t : Scalar}
    (h : (Scalar.String bytes).trim_min n = some t) : ∃ tb, t = .String tb ∧ compare_bytes tb bytes ≠ .gt := by
  simp only [Scalar.trim_min] at h
  cases hdec : decode bytes with
  | none => simp [hdec] at h
  | some chars =>
      simp only [hdec] at h
      obtain ⟨hflat, -⟩ := decode_spec hdec
      split_ifs at h
      · cases h
        exact ⟨bytes, rfl, by rw [compare_bytes_self]; decide⟩
      · cases h
        refine ⟨_, rfl, ?_⟩
        -- the first `n` characters are a prefix
        have hp := compare_bytes_prefix (chars.take n).flatten (chars.drop n).flatten
        rwa [← List.flatten_append, List.take_append_drop, hflat] at hp

theorem trim_max_string_ge {bytes : List UInt8} {n : Nat} {t : Scalar}
    (h : (Scalar.String bytes).trim_max n = some t) : ∃ tb, t = .String tb ∧ compare_bytes bytes tb ≠ .gt := by
  simp only [Scalar.trim_max] at h
  cases hdec : decode bytes with
  | none => simp [hdec] at h
  | some chars =>
      simp only [hdec] at h
      obtain ⟨hflat, hvalid⟩ := decode_spec hdec
      split_ifs at h
      · cases h
        exact ⟨bytes, rfl, by rw [compare_bytes_self]; decide⟩
      · cases h
        exact ⟨bytes, rfl, by rw [compare_bytes_self]; decide⟩
      · split at h
        · cases h
        · rename_i c k hfind
          cases h
          refine ⟨_, rfl, ?_⟩
          have hck : (chars.take n)[k]? = some c :=
            List.mem_zipIdx_iff_getElem?.mp (List.mem_reverse.mp (List.mem_of_find?_eq_some hfind))
          have hcp : code_point c < 0xFFFD := by simpa using List.find?_some hfind
          obtain ⟨hk, hc⟩ := List.getElem?_eq_some_iff.mp hck
          rw [List.length_take] at hk
          rw [List.getElem_take] at hc
          -- the string is the characters before `c`, then `c`, then the rest
          have hsplit : chars = chars.take k ++ c :: chars.drop (k + 1) := by
            rw [← hc, List.getElem_cons_drop, List.take_append_drop]
          have hm : (chars.take n).length - k = ((chars.take n).length - k - 1) + 1 := by
            rw [List.length_take]
            omega
          have hbytes : chars.flatten = (chars.take k).flatten ++ (c ++ (chars.drop (k + 1)).flatten) := by
            conv_lhs => rw [hsplit]
            rw [List.flatten_append, List.flatten_cons]
          rw [← hflat, hbytes, List.take_take, Nat.min_eq_left (by omega), hm, List.replicate_succ,
            List.flatten_cons, compare_bytes_append_left, compare_bytes_lt_replacement (hvalid c ?_) hcp]
          · decide
          · rw [hsplit]
            simp

end Strings

theorem gen_column_statistics_bounds (col : LeafColumn)
    (hstr : ∀ v ∈ col.values, v.is_null = true ∨ ∃ b, v = .String b) {st : ColumnStatistics}
    (h : gen_column_statistics col = some st) :
    st.null_count = (col.values.filter Scalar.is_null).length ∧
      ∀ v ∈ col.values, v.is_null = false → st.min.cmp v ≠ .gt ∧ v.cmp st.max ≠ .gt := by
  unfold gen_column_statistics at h
  split_ifs at h
  obtain ⟨mn, hmn, mx, hmx, rfl⟩ : ∃ mn, (column_min col.values).trim_min STATS_STRING_PREFIX_LEN = some mn ∧
      ∃ mx, (column_max col.values).trim_max STATS_STRING_PREFIX_LEN = some mx ∧
        ⟨mn, mx, (col.values.filter Scalar.is_null).length⟩ = st := by
    simpa [Option.bind_eq_some_iff] using h
  refine ⟨rfl, fun v hv hnull => ?_⟩
  obtain ⟨⟨⟨m, hm⟩, hmle⟩, ⟨M, hM⟩, hMge⟩ := column_min_max_bounds hstr hv hnull
  have hvs : ∃ b, v = .String b := (hstr v hv).resolve_left (by simp [hnull])
  rw [hm] at hmn hmle
  rw [hM] at hmx hMge
  obtain ⟨tb, rfl, htb⟩ := trim_min_string_le hmn
  obtain ⟨Tb, rfl, hTb⟩ := trim_max_string_ge hmx
  exact ⟨string_cmp_trans _ _ _ ⟨tb, rfl⟩ ⟨m, rfl⟩ hvs htb hmle,
    string_cmp_trans _ _ _ hvs ⟨M, rfl⟩ ⟨Tb, rfl⟩ hMge hTb⟩

theorem gen_column_statistics_bounds_two_strings :
    gen_column_statistics ⟨0, .String, [.String [0x61], .Null, .String [0x62]]⟩ =
        some ⟨.String [0x61], .String [0x62], 1⟩ ∧
      (Scalar.String [0x61]).cmp (.String [0x62]) ≠ .gt ∧ (Scalar.String [0x62]).cmp (.String [0x62]) ≠ .gt := by
  have h : gen_column_statistics ⟨0, .String, [.String [0x61], .Null, .String [0x62]]⟩ =
      some ⟨.String [0x61], .String [0x62], 1⟩ := by decide
  have hstr : ∀ v ∈ [Scalar.String [0x61], .Null, .String [0x62]], v.is_null = true ∨ ∃ b, v = .String b := by
    intro v hv
    simp only [List.mem_cons, List.not_mem_nil, or_false] at hv
    rcases hv with rfl | rfl | rfl <;> simp [Scalar.is_null]
  exact ⟨h, (gen_column_statistics_bounds _ hstr h).2 (.String [0x62]) (by simp) rfl⟩

theorem reduce_block_statistics_misses_block :
    gen_columns_statistics [⟨0, .String, [.String [0xFF]]⟩] = [] ∧
      reduce_block_statistics [gen_columns_statistics [⟨0, .String, [.String [0x61]]⟩],
        gen_columns_statistics [⟨0, .String, [.String [0xFF]]⟩]] =
        [(0, ⟨.String [0x61], .String [0x61], 0⟩)] ∧
      Scalar.cmp (.String [0xFF]) (.String [0x61]) = .gt := by
  refine ⟨by decide, by decide, by decide⟩

end Databend.Fuse
