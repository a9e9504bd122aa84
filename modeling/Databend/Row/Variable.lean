import Databend.Row.Fixed

namespace Databend.Row

open ByteOrder

def BLOCK_SIZE : Nat := 32

def BLOCK_CONTINUATION : UInt8 := 0xFF

def EMPTY_SENTINEL : UInt8 := 1

def NON_EMPTY_SENTINEL : UInt8 := 2

def encoded_len (val : List UInt8) (is_null : Bool) : Nat :=
  if is_null then 1 else 1 + (val.length + BLOCK_SIZE - 1) / BLOCK_SIZE * (BLOCK_SIZE + 1)

def chunks_exact (val : List UInt8) : List (List UInt8) × List UInt8 :=
  if BLOCK_SIZE ≤ val.length then
    ((val.take BLOCK_SIZE) :: (chunks_exact (val.drop BLOCK_SIZE)).1, (chunks_exact (val.drop BLOCK_SIZE)).2)
  else ([], val)
termination_by val.length
decreasing_by all_goals simp only [List.length_drop, BLOCK_SIZE] at *; omega

def write_blocks (val : List UInt8) : List UInt8 :=
  let blocks := (chunks_exact val).1.flatMap (· ++ [BLOCK_CONTINUATION])
  let remainder := (chunks_exact val).2
  if !remainder.isEmpty then
    blocks ++ remainder ++ List.replicate (BLOCK_SIZE - remainder.length) 0 ++ [remainder.length.toUInt8]
  else
    blocks.dropLast ++ [BLOCK_SIZE.toUInt8]

def encode_one (val : List UInt8) (is_null asc nulls_first : Bool) : List UInt8 :=
  if is_null then [null_sentinel nulls_first]
  else if val.isEmpty then [if asc then EMPTY_SENTINEL else ~~~EMPTY_SENTINEL]
  else
    let to_write := NON_EMPTY_SENTINEL :: write_blocks val
    if !asc then to_write.map (~~~·) else to_write

namespace Variable

def encode (out : List (List UInt8)) (i : List (List UInt8)) (validity : Bool × Option (List Bool))
    (asc nulls_first : Bool) : List (List UInt8) :=
  match validity with
  | (_, some validity) =>
      ((out.zip i).zip validity).map fun ((row, val), v) => row ++ encode_one val (!v) asc nulls_first
  | (true, none) => (out.zip i).map fun (row, val) => row ++ encode_one val true asc nulls_first
  | (false, none) => (out.zip i).map fun (row, val) => row ++ encode_one val false asc nulls_first

end Variable

section Blocks

theorem chunks_exact_of_lt {val : List UInt8} (h : val.length < BLOCK_SIZE) : chunks_exact val = ([], val) := by
  rw [chunks_exact, if_neg (Nat.not_le_of_lt h)]

theorem chunks_exact_of_le {val : List UInt8} (h : BLOCK_SIZE ≤ val.length) :
    chunks_exact val = (val.take BLOCK_SIZE :: (chunks_exact (val.drop BLOCK_SIZE)).1,
      (chunks_exact (val.drop BLOCK_SIZE)).2) := by
  rw [chunks_exact, if_pos h]

theorem chunks_exact_snd_of_fst_eq_nil {val : List UInt8} (h : (chunks_exact val).1 = []) :
    (chunks_exact val).2 = val := by
  by_cases hl : BLOCK_SIZE ≤ val.length
  · rw [chunks_exact_of_le hl] at h
    cases h
  · rw [chunks_exact_of_lt (Nat.lt_of_not_le hl)]

theorem length_take_block {val : List UInt8} (h : BLOCK_SIZE < val.length) :
    (val.take BLOCK_SIZE).length = BLOCK_SIZE := by
  rw [List.length_take]
  omega

theorem drop_block_ne_nil {val : List UInt8} (h : BLOCK_SIZE < val.length) : val.drop BLOCK_SIZE ≠ [] := by
  rw [Ne, List.drop_eq_nil_iff]
  omega

theorem length_drop_block_lt {val : List UInt8} (h : BLOCK_SIZE < val.length) :
    (val.drop BLOCK_SIZE).length < val.length := by
  rw [List.length_drop]
  simp only [BLOCK_SIZE] at h ⊢
  omega

theorem write_blocks_of_le {val : List UInt8} (h0 : val ≠ []) (h : val.length ≤ BLOCK_SIZE) :
    write_blocks val = pad BLOCK_SIZE val ++ [val.length.toUInt8] := by
  rcases Nat.lt_or_eq_of_le h with hlt | heq
  · have hr : (!(val.isEmpty)) = true := by simpa using h0
    simp only [write_blocks, chunks_exact_of_lt hlt, List.flatMap_nil, List.nil_append, hr, if_true, pad]
  · have hd : val.drop BLOCK_SIZE = [] := List.drop_eq_nil_of_le (Nat.le_of_eq heq)
    have ht : val.take BLOCK_SIZE = val := List.take_of_length_le (Nat.le_of_eq heq)
    have hz : chunks_exact [] = ([], []) := chunks_exact_of_lt (by decide)
    simp only [write_blocks, chunks_exact_of_le (Nat.le_of_eq heq.symm), hd, ht, hz, List.flatMap_cons,
      List.flatMap_nil, List.append_nil, List.isEmpty_nil, Bool.not_true, Bool.false_eq_true, if_false,
      List.dropLast_concat, pad, heq, Nat.sub_self, List.replicate_zero]

theorem write_blocks_of_lt {val : List UInt8} (h : BLOCK_SIZE < val.length) :
    write_blocks val = val.take BLOCK_SIZE ++ BLOCK_CONTINUATION :: write_blocks (val.drop BLOCK_SIZE) := by
  have hrest := drop_block_ne_nil h
  simp only [write_blocks, chunks_exact_of_le (Nat.le_of_lt h), List.flatMap_cons]
  split
  · simp
  · -- no remainder: the rest has a full block, whose continuation token is the one overwritten
    have hne : (chunks_exact (val.drop BLOCK_SIZE)).1 ≠ [] := fun he => by
      rename_i hr
      rw [chunks_exact_snd_of_fst_eq_nil he] at hr
      simp [hrest] at hr
    have hflat : (chunks_exact (val.drop BLOCK_SIZE)).1.flatMap (· ++ [BLOCK_CONTINUATION]) ≠ [] := by
      obtain ⟨c, cs, hc⟩ := List.exists_cons_of_ne_nil hne
      simp [hc]
    rw [List.dropLast_append_of_ne_nil hflat]
    simp

theorem compare_length_byte {m : Nat} (hm : m ≤ BLOCK_SIZE) : compare m.toUInt8 BLOCK_CONTINUATION = .lt := by
  rw [show BLOCK_CONTINUATION = (255 : Nat).toUInt8 from rfl, compare_toUInt8 (by simp only [BLOCK_SIZE] at hm; omega)
    (by decide)]
  exact Nat.compare_eq_lt.mpr (by simp only [BLOCK_SIZE] at hm; omega)

theorem compare_write_blocks_le_lt {a b : List UInt8} (ha0 : a ≠ []) (ha : a.length ≤ BLOCK_SIZE)
    (hb : BLOCK_SIZE < b.length) : compare (write_blocks a) (write_blocks b) = compare a b := by
  rw [write_blocks_of_le ha0 ha, write_blocks_of_lt hb,
    compare_append_append (PrefixFree.of_length_eq (by rw [length_pad ha, length_take_block hb])),
    List.compare_cons_cons, compare_length_byte ha, Ordering.lt_then, compare_pad_take_then_lt ha hb]

theorem compare_write_blocks {a b : List UInt8} (ha0 : a ≠ []) (hb0 : b ≠ []) :
    compare (write_blocks a) (write_blocks b) = compare a b := by
  -- on the length of `a`, whose blocks are peeled one at a time together with those of `b`
  induction hn : a.length using Nat.strong_induction_on generalizing a b with
  | _ n ih =>
      rcases Nat.lt_or_ge BLOCK_SIZE a.length with ha | ha <;>
        rcases Nat.lt_or_ge BLOCK_SIZE b.length with hb | hb
      · have hlen : (a.drop BLOCK_SIZE).length < n := hn ▸ length_drop_block_lt ha
        rw [write_blocks_of_lt ha, write_blocks_of_lt hb,
          compare_append_append (PrefixFree.of_length_eq (by rw [length_take_block ha, length_take_block hb])),
          List.compare_cons_cons, (Std.ReflCmp.compare_self : compare BLOCK_CONTINUATION BLOCK_CONTINUATION = .eq),
          Ordering.eq_then, ih _ hlen (drop_block_ne_nil ha) (drop_block_ne_nil hb) rfl,
          ← compare_append_append (PrefixFree.of_length_eq (by rw [length_take_block ha, length_take_block hb])),
          List.take_append_drop, List.take_append_drop]
      · have hs : compare (write_blocks a) (write_blocks b) = (compare (write_blocks b) (write_blocks a)).swap :=
          Std.OrientedCmp.eq_swap
        rw [hs, compare_write_blocks_le_lt hb0 hb ha, ← Std.OrientedCmp.eq_swap]
      · exact compare_write_blocks_le_lt ha0 ha hb
      · rw [write_blocks_of_le ha0 ha, write_blocks_of_le hb0 hb,
          compare_append_append (PrefixFree.of_length_eq (by rw [length_pad ha, length_pad hb])),
          List.compare_cons_cons, List.compare_nil_nil, Ordering.then_eq,
          compare_toUInt8 (by simp only [BLOCK_SIZE] at ha; omega) (by simp only [BLOCK_SIZE] at hb; omega),
          compare_pad_then_length ha hb]

theorem prefix_free_write_blocks {a b : List UInt8} (ha0 : a ≠ []) (hb0 : b ≠ []) :
    PrefixFree (write_blocks a) (write_blocks b) := by
  -- a last block against a continued one: the length byte is not the continuation token
  have hmix : ∀ {a b : List UInt8}, a ≠ [] → a.length ≤ BLOCK_SIZE → BLOCK_SIZE < b.length →
      PrefixFree (write_blocks a) (write_blocks b) := by
    intro a b ha0 ha hb
    rw [write_blocks_of_le ha0 ha, write_blocks_of_lt hb]
    refine PrefixFree.append_of_length_eq (by rw [length_pad ha, length_take_block hb]) (PrefixFree.of_head_ne ?_ _ _)
    intro he
    have := compare_length_byte ha
    rw [he, (Std.ReflCmp.compare_self : compare BLOCK_CONTINUATION BLOCK_CONTINUATION = .eq)] at this
    cases this
  induction hn : a.length using Nat.strong_induction_on generalizing a b with
  | _ n ih =>
      rcases Nat.lt_or_ge BLOCK_SIZE a.length with ha | ha <;>
        rcases Nat.lt_or_ge BLOCK_SIZE b.length with hb | hb
      · have hlen : (a.drop BLOCK_SIZE).length < n := hn ▸ length_drop_block_lt ha
        rw [write_blocks_of_lt ha, write_blocks_of_lt hb]
        exact PrefixFree.append_of_length_eq (by rw [length_take_block ha, length_take_block hb])
          (PrefixFree.cons_cons _ (ih _ hlen (drop_block_ne_nil ha) (drop_block_ne_nil hb) rfl))
      · exact (hmix hb0 hb ha).symm
      · exact hmix ha0 ha hb
      · exact PrefixFree.of_length_eq (by
          rw [write_blocks_of_le ha0 ha, write_blocks_of_le hb0 hb, List.length_append, List.length_append,
            length_pad ha, length_pad hb, List.length_singleton, List.length_singleton])

end Blocks

section Order

def encode_asc (val : List UInt8) : List UInt8 :=
  if val.isEmpty then [EMPTY_SENTINEL] else NON_EMPTY_SENTINEL :: write_blocks val

theorem compare_encode_asc (a b : List UInt8) : compare (encode_asc a) (encode_asc b) = compare a b := by
  unfold encode_asc
  cases a with
  | nil => cases b <;> rfl
  | cons x a =>
      cases b with
      | nil => rfl
      | cons y b =>
          rw [List.isEmpty_cons, List.isEmpty_cons, if_neg (by decide), if_neg (by decide), List.compare_cons_cons,
            (Std.ReflCmp.compare_self : compare NON_EMPTY_SENTINEL NON_EMPTY_SENTINEL = .eq), Ordering.eq_then,
            compare_write_blocks (List.cons_ne_nil x a) (List.cons_ne_nil y b)]

theorem prefix_free_encode_asc (a b : List UInt8) : PrefixFree (encode_asc a) (encode_asc b) := by
  unfold encode_asc
  cases a with
  | nil => cases b with
    | nil => exact PrefixFree.refl _
    | cons y b => exact PrefixFree.of_head_ne (by decide) _ _
  | cons x a =>
      cases b with
      | nil => exact PrefixFree.of_head_ne (by decide) _ _
      | cons y b =>
          rw [List.isEmpty_cons, List.isEmpty_cons, if_neg (by decide), if_neg (by decide)]
          exact PrefixFree.cons_cons _ (prefix_free_write_blocks (List.cons_ne_nil x a) (List.cons_ne_nil y b))

def encode_dir (asc : Bool) (val : List UInt8) : List UInt8 :=
  if asc then encode_asc val else (encode_asc val).map (~~~·)

theorem encode_one_eq (val : List UInt8) (is_null asc nulls_first : Bool) :
    encode_one val is_null asc nulls_first =
      encode_nullable nulls_first [] (encode_dir asc) (if is_null then none else some val) := by
  unfold encode_one encode_dir encode_asc
  cases is_null
  · cases asc <;> cases val <;> rfl
  · rfl

theorem compare_encode_dir (asc : Bool) (a b : List UInt8) :
    compare (encode_dir asc a) (encode_dir asc b) = if asc then compare a b else (compare a b).swap := by
  unfold encode_dir
  cases asc
  · rw [if_neg (by simp), if_neg (by simp), if_neg (by simp),
      compare_map_of_swap compare_not (prefix_free_encode_asc a b), compare_encode_asc]
  · rw [if_pos rfl, if_pos rfl, if_pos rfl, compare_encode_asc]

theorem prefix_free_encode_dir (asc : Bool) (a b : List UInt8) : PrefixFree (encode_dir asc a) (encode_dir asc b) := by
  unfold encode_dir
  cases asc
  · exact PrefixFree.map (fun x y h => by simpa using h) (prefix_free_encode_asc a b)
  · exact prefix_free_encode_asc a b

theorem starts_inside_encode_dir (asc : Bool) (val : List UInt8) : StartsInside (encode_dir asc val) := by
  unfold encode_dir encode_asc
  cases asc <;> cases val <;> exact ⟨_, _, rfl, by decide, by decide⟩

theorem compare_encode_one (a b : List UInt8) (na nb asc nulls_first : Bool) :
    compare (encode_one a na asc nulls_first) (encode_one b nb asc nulls_first) =
      field_compare asc nulls_first compare (if na then none else some a) (if nb then none else some b) := by
  rw [encode_one_eq, encode_one_eq]
  exact compare_encode_nullable (compare_encode_dir asc) (starts_inside_encode_dir asc) _ _

theorem prefix_free_encode_one (a b : List UInt8) (na nb asc nulls_first : Bool) :
    PrefixFree (encode_one a na asc nulls_first) (encode_one b nb asc nulls_first) := by
  rw [encode_one_eq, encode_one_eq]
  exact prefix_free_encode_nullable (prefix_free_encode_dir asc) (starts_inside_encode_dir asc) _ _

end Order

theorem length_write_blocks {val : List UInt8} (h0 : val ≠ []) :
    (write_blocks val).length = (val.length + BLOCK_SIZE - 1) / BLOCK_SIZE * (BLOCK_SIZE + 1) := by
  induction hn : val.length using Nat.strong_induction_on generalizing val with
  | _ n ih =>
      rcases Nat.lt_or_ge BLOCK_SIZE val.length with h | h
      · have hlen : (val.drop BLOCK_SIZE).length < n := hn ▸ length_drop_block_lt h
        rw [write_blocks_of_lt h, List.length_append, List.length_cons, length_take_block h,
          ih _ hlen (drop_block_ne_nil h) rfl, List.length_drop]
        simp only [BLOCK_SIZE] at h ⊢
        omega
      · have hpos : 0 < val.length := List.length_pos_of_ne_nil h0
        rw [write_blocks_of_le h0 h, List.length_append, length_pad h, List.length_singleton]
        simp only [BLOCK_SIZE] at h ⊢
        omega

theorem length_encode_one (val : List UInt8) (is_null asc nulls_first : Bool) :
    (encode_one val is_null asc nulls_first).length = encoded_len val is_null := by
  unfold encode_one encoded_len
  cases is_null
  · cases val with
    | nil => cases asc <;> rfl
    | cons x val =>
        have hw := length_write_blocks (List.cons_ne_nil x val)
        cases asc <;> simp [hw, Nat.add_comm]
  · rfl

namespace Variable

theorem getElem?_encode {out : List (List UInt8)} {iter : List (List UInt8)} {validity : Bool × Option (List Bool)}
    {asc nulls_first : Bool} (hiter : iter.length = out.length)
    (hval : ∀ v, validity.2 = some v → v.length = out.length) (k : Nat) :
    (encode out iter validity asc nulls_first)[k]? =
      out[k]?.map (· ++ encode_one (iter.getD k []) (!valid_at validity k) asc nulls_first) := by
  obtain ⟨all_null, validity⟩ := validity
  cases validity with
  | some v =>
      have hv := hval v rfl
      by_cases hk : k < out.length
      · simp [encode, valid_at, hk, hiter ▸ hk, hv ▸ hk, List.getD_eq_getElem?_getD]
      · simp [encode, valid_at, hk]
  | none =>
      by_cases hk : k < out.length
      · cases all_null <;> simp [encode, valid_at, hk, hiter ▸ hk, List.getD_eq_getElem?_getD]
      · cases all_null <;> simp [encode, valid_at, hk]

theorem ordered_fields_encode {iter : List (List UInt8)} {validity : Bool × Option (List Bool)} {n : Nat}
    (hiter : iter.length = n) (hval : ∀ v, validity.2 = some v → v.length = n) (asc nulls_first : Bool) :
    OrderedFields (fun out => encode out iter validity asc nulls_first) n
      (fun i j => field_compare asc nulls_first (fun a b => compare (iter.getD a []) (iter.getD b []))
        (if valid_at validity i then some i else none) (if valid_at validity j then some j else none)) := by
  refine ⟨fun k => encode_one (iter.getD k []) (!valid_at validity k) asc nulls_first,
    fun out hout k => getElem?_encode (hiter.trans hout.symm) (fun v hv => (hval v hv).trans hout.symm) k,
    by simp, fun i j hi hj => ?_⟩
  rw [getD_range_map hi, getD_range_map hj]
  refine ⟨?_, prefix_free_encode_one _ _ _ _ _ _⟩
  have hopt : ∀ k, (if (!valid_at validity k) then none else some (iter.getD k [])) =
      (if valid_at validity k then some k else none).map (iter.getD · []) := by
    intro k
    cases valid_at validity k <;> rfl
  rw [compare_encode_one, hopt, hopt, field_compare_map]

end Variable

end Databend.Row
