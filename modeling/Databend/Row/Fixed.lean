import Databend.Library.ByteOrder

namespace Databend.Row

open ByteOrder

def null_sentinel (nulls_first : Bool) : UInt8 := if nulls_first then 0 else 0xFF

section Nullable

variable {α : Type}

def field_compare (asc nulls_first : Bool) (cmp : α → α → Ordering) : Option α → Option α → Ordering
  | none, none => .eq
  | none, some _ => if nulls_first then .lt else .gt
  | some _, none => if nulls_first then .gt else .lt
  | some a, some b => if asc then cmp a b else (cmp a b).swap

def encode_nullable (nulls_first : Bool) (null_tail : List UInt8) (enc : α → List UInt8) : Option α → List UInt8
  | none => null_sentinel nulls_first :: null_tail
  | some a => enc a

def StartsInside (l : List UInt8) : Prop := ∃ h t, l = h :: t ∧ h ≠ 0 ∧ h ≠ 0xFF

theorem compare_null_sentinel {nulls_first : Bool} {h : UInt8} (h0 : h ≠ 0) (hff : h ≠ 0xFF) :
    compare (null_sentinel nulls_first) h = if nulls_first then .lt else .gt := by
  have hne : h.toNat ≠ 0 := fun e => h0 (UInt8.toNat_inj.mp e)
  have hneff : h.toNat ≠ 255 := fun e => hff (UInt8.toNat_inj.mp e)
  have hlt : h.toNat < 256 := h.toNat_lt
  cases nulls_first
  · show compare (0xFF : UInt8) h = .gt
    rw [compare_eq_compare_toNat]
    exact Nat.compare_eq_gt.mpr (show h.toNat < 255 by omega)
  · show compare (0 : UInt8) h = .lt
    rw [compare_eq_compare_toNat]
    exact Nat.compare_eq_lt.mpr (show 0 < h.toNat by omega)

section
variable {nulls_first asc : Bool} {null_tail : List UInt8} {enc : α → List UInt8}

theorem compare_encode_nullable {cmp : α → α → Ordering}
    (henc : ∀ a b, compare (enc a) (enc b) = if asc then cmp a b else (cmp a b).swap)
    (hhead : ∀ a, StartsInside (enc a)) (x y : Option α) :
    compare (encode_nullable nulls_first null_tail enc x) (encode_nullable nulls_first null_tail enc y) =
      field_compare asc nulls_first cmp x y := by
  cases x with
  | none =>
      cases y with
      | none => exact compare_self_list _
      | some b =>
          obtain ⟨h, t, he, h0, hff⟩ := hhead b
          rw [encode_nullable, encode_nullable, he, List.compare_cons_cons, compare_null_sentinel h0 hff]
          cases nulls_first <;> rfl
  | some a =>
      cases y with
      | none =>
          obtain ⟨h, t, he, h0, hff⟩ := hhead a
          have hs : compare (h :: t) (null_sentinel nulls_first :: null_tail) =
              (compare (null_sentinel nulls_first :: null_tail) (h :: t)).swap := Std.OrientedCmp.eq_swap
          rw [encode_nullable, encode_nullable, he, hs, List.compare_cons_cons, compare_null_sentinel h0 hff]
          cases nulls_first <;> rfl
      | some b => exact henc a b

theorem prefix_free_encode_nullable (hpf : ∀ a b, PrefixFree (enc a) (enc b))
    (hhead : ∀ a, StartsInside (enc a)) (x y : Option α) :
    PrefixFree (encode_nullable nulls_first null_tail enc x) (encode_nullable nulls_first null_tail enc y) := by
  -- a NULL and a value differ in their first byte
  have hnv : ∀ b, PrefixFree (null_sentinel nulls_first :: null_tail) (enc b) := by
    intro b
    obtain ⟨h, t, he, h0, hff⟩ := hhead b
    rw [he]
    refine PrefixFree.of_head_ne ?_ _ _
    cases nulls_first
    · exact Ne.symm hff
    · exact Ne.symm h0
  cases x with
  | none =>
      cases y with
      | none => exact PrefixFree.refl _
      | some b => exact hnv b
  | some a =>
      cases y with
      | none => exact (hnv a).symm
      | some b => exact hpf a b

end

end Nullable

section Fields

def AppendsFields (f : List (List UInt8) → List (List UInt8)) (n : Nat) (chunk : Nat → List UInt8) : Prop :=
  ∀ out : List (List UInt8), out.length = n → ∀ k : Nat, (f out)[k]? = out[k]?.map (· ++ chunk k)

-- `n` rows that compare as `cmp` says, none a proper prefix of another
def RowsOrdered (rows : List (List UInt8)) (n : Nat) (cmp : Nat → Nat → Ordering) : Prop :=
  rows.length = n ∧ ∀ i j, i < n → j < n →
    compare (rows.getD i []) (rows.getD j []) = cmp i j ∧ PrefixFree (rows.getD i []) (rows.getD j [])

def OrderedFields (f : List (List UInt8) → List (List UInt8)) (n : Nat) (cmp : Nat → Nat → Ordering) : Prop :=
  ∃ chunk, AppendsFields f n chunk ∧ RowsOrdered ((List.range n).map chunk) n cmp

theorem AppendsFields.length_eq {f : List (List UInt8) → List (List UInt8)} {n : Nat} {chunk : Nat → List UInt8}
    (h : AppendsFields f n chunk) {out : List (List UInt8)} (hout : out.length = n) : (f out).length = n := by
  have hnone : ∀ k : Nat, (f out)[k]? = none ↔ out[k]? = none := by
    intro k
    rw [h out hout k, Option.map_eq_none_iff]
  apply Nat.le_antisymm
  · have := (hnone n).mpr (List.getElem?_eq_none_iff.mpr (Nat.le_of_eq hout))
    exact List.getElem?_eq_none_iff.mp this
  · have := (hnone (f out).length).mp (List.getElem?_eq_none_iff.mpr (Nat.le_refl _))
    exact hout ▸ List.getElem?_eq_none_iff.mp this

theorem AppendsFields.getD_eq {f : List (List UInt8) → List (List UInt8)} {n : Nat} {chunk : Nat → List UInt8}
    (h : AppendsFields f n chunk) {out : List (List UInt8)} (hout : out.length = n) {k : Nat} (hk : k < n) :
    (f out).getD k [] = out.getD k [] ++ chunk k := by
  rw [List.getD_eq_getElem?_getD, List.getD_eq_getElem?_getD, h out hout k,
    List.getElem?_eq_getElem (hout ▸ hk)]
  rfl

theorem getD_range_map {chunk : Nat → List UInt8} {n k : Nat} (hk : k < n) :
    ((List.range n).map chunk).getD k [] = chunk k := by
  simp [List.getD_eq_getElem?_getD, hk]

theorem RowsOrdered.step {out : List (List UInt8)} {n : Nat} {acc cmp : Nat → Nat → Ordering}
    {f : List (List UInt8) → List (List UInt8)} (hout : RowsOrdered out n acc) (hf : OrderedFields f n cmp) :
    RowsOrdered (f out) n (fun i j => (acc i j).then (cmp i j)) := by
  obtain ⟨hlen, hrows⟩ := hout
  obtain ⟨chunk, happ, -, hchunk⟩ := hf
  refine ⟨happ.length_eq hlen, fun i j hi hj => ?_⟩
  obtain ⟨hc, hpf⟩ := hrows i j hi hj
  obtain ⟨hc', hpf'⟩ := hchunk i j hi hj
  rw [getD_range_map hi, getD_range_map hj] at hc' hpf'
  rw [happ.getD_eq hlen hi, happ.getD_eq hlen hj]
  exact ⟨by rw [compare_append_append hpf, hc, hc'], hpf.append hpf'⟩

theorem RowsOrdered.foldl {β : Type} (steps : List β) (f : β → List (List UInt8) → List (List UInt8))
    (cmp : β → Nat → Nat → Ordering) {n : Nat} (hsteps : ∀ b ∈ steps, OrderedFields (f b) n (cmp b))
    {out : List (List UInt8)} {acc : Nat → Nat → Ordering} (hout : RowsOrdered out n acc) :
    RowsOrdered (steps.foldl (fun o b => f b o) out) n
      (fun i j => (acc i j).then (steps.foldr (fun b o => (cmp b i j).then o) .eq)) := by
  induction steps generalizing out acc with
  | nil =>
      simp only [List.foldl_nil, List.foldr_nil]
      refine ⟨hout.1, fun i j hi hj => ?_⟩
      obtain ⟨hc, hpf⟩ := hout.2 i j hi hj
      exact ⟨hc.trans Ordering.then_eq.symm, hpf⟩
  | cons b steps ih =>
      have hb := hout.step (hsteps b List.mem_cons_self)
      have := ih (fun b' hb' => hsteps b' (List.mem_cons_of_mem b hb')) hb
      simp only [List.foldl_cons, List.foldr_cons, Ordering.then_assoc] at this ⊢
      exact this

theorem RowsOrdered.replicate_nil (n : Nat) : RowsOrdered (List.replicate n []) n (fun _ _ => .eq) := by
  refine ⟨List.length_replicate, fun i j hi hj => ?_⟩
  have hget : ∀ k, k < n → (List.replicate n ([] : List UInt8)).getD k [] = [] := by
    intro k hk
    simp [List.getD_eq_getElem?_getD, hk]
  rw [hget i hi, hget j hj]
  exact ⟨rfl, PrefixFree.refl _⟩

end Fields

structure FixedLengthEncoding (T : Type) where
  size : Nat
  encode : T → List UInt8
  length_encode : ∀ x, (encode x).length = size

def FixedLengthEncoding.ENCODED_LEN {T : Type} (E : FixedLengthEncoding T) : Nat := 1 + E.size

section Encodings

def to_be_bytes {n : Nat} (x : BitVec (8 * n)) : List UInt8 := be_bytes n x.toNat

def encode_unsigned (n : Nat) : FixedLengthEncoding (BitVec (8 * n)) :=
  ⟨n, to_be_bytes, fun _ => length_be_bytes _ _⟩

def encode_signed (n : Nat) : FixedLengthEncoding (BitVec (8 * n)) :=
  ⟨n, fun x => (to_be_bytes x).modifyHead (· ^^^ 0x80), fun _ => by simp [to_be_bytes]⟩

def bool_encoding : FixedLengthEncoding Bool :=
  ⟨1, fun b => [if b then 1 else 0], fun _ => rfl⟩

def u8_encoding : FixedLengthEncoding UInt8 :=
  ⟨1, fun x => (encode_unsigned 1).encode x.toBitVec, fun _ => (encode_unsigned 1).length_encode _⟩
def u16_encoding : FixedLengthEncoding UInt16 :=
  ⟨2, fun x => (encode_unsigned 2).encode x.toBitVec, fun _ => (encode_unsigned 2).length_encode _⟩
def u32_encoding : FixedLengthEncoding UInt32 :=
  ⟨4, fun x => (encode_unsigned 4).encode x.toBitVec, fun _ => (encode_unsigned 4).length_encode _⟩
def u64_encoding : FixedLengthEncoding UInt64 :=
  ⟨8, fun x => (encode_unsigned 8).encode x.toBitVec, fun _ => (encode_unsigned 8).length_encode _⟩

def i8_encoding : FixedLengthEncoding Int8 :=
  ⟨1, fun x => (encode_signed 1).encode x.toBitVec, fun _ => (encode_signed 1).length_encode _⟩
def i16_encoding : FixedLengthEncoding Int16 :=
  ⟨2, fun x => (encode_signed 2).encode x.toBitVec, fun _ => (encode_signed 2).length_encode _⟩
def i32_encoding : FixedLengthEncoding Int32 :=
  ⟨4, fun x => (encode_signed 4).encode x.toBitVec, fun _ => (encode_signed 4).length_encode _⟩
def i64_encoding : FixedLengthEncoding Int64 :=
  ⟨8, fun x => (encode_signed 8).encode x.toBitVec, fun _ => (encode_signed 8).length_encode _⟩
def i128_encoding : FixedLengthEncoding (BitVec 128) := encode_signed 16
def i256_encoding : FixedLengthEncoding (BitVec 256) := encode_signed 32

def float_key {n : Nat} (s : BitVec (8 * (n + 1))) : BitVec (8 * (n + 1)) :=
  s ^^^ (s.sshiftRight (8 * n + 7) >>> 1)

def f32_encoding : FixedLengthEncoding UInt32 :=
  ⟨4, fun x => (encode_signed 4).encode (float_key (n := 3) x.toBitVec), fun _ => (encode_signed 4).length_encode _⟩
def f64_encoding : FixedLengthEncoding UInt64 :=
  ⟨8, fun x => (encode_signed 8).encode (float_key (n := 7) x.toBitVec), fun _ => (encode_signed 8).length_encode _⟩

end Encodings

section Order

theorem compare_to_be_bytes {n : Nat} (x y : BitVec (8 * n)) :
    compare (to_be_bytes x) (to_be_bytes y) = compare x.toNat y.toNat := by
  have hB : (256 : Nat) ^ n = 2 ^ (8 * n) := by rw [Nat.pow_mul]
  exact compare_be_bytes (hB ▸ x.isLt) (hB ▸ y.isLt)

theorem compare_encode_unsigned {n : Nat} (x y : BitVec (8 * n)) :
    compare ((encode_unsigned n).encode x) ((encode_unsigned n).encode y) = compare x.toNat y.toNat :=
  compare_to_be_bytes x y

theorem encode_signed_eq {n : Nat} (x : BitVec (8 * (n + 1))) :
    (encode_signed (n + 1)).encode x = to_be_bytes (x ^^^ BitVec.twoPow _ (8 * n + 7)) := by
  have htop : (x ^^^ BitVec.twoPow _ (8 * n + 7)).toNat = x.toNat ^^^ 2 ^ (8 * n + 7) := by
    rw [BitVec.toNat_xor, BitVec.toNat_twoPow, Nat.mod_eq_of_lt (Nat.pow_lt_pow_right (by decide) (by omega))]
  simp only [encode_signed, to_be_bytes]
  rw [be_bytes_xor_top, htop]

theorem compare_encode_signed {n : Nat} (x y : BitVec (8 * (n + 1))) :
    compare ((encode_signed (n + 1)).encode x) ((encode_signed (n + 1)).encode y) = compare x.toInt y.toInt := by
  rw [encode_signed_eq, encode_signed_eq, compare_to_be_bytes]
  exact compare_toNat_xor_twoPow (k := 8 * n + 7) x y

def total_order {w : Nat} (a b : BitVec w) : Ordering :=
  match a.msb, b.msb with
  | false, false => compare a.toNat b.toNat
  | true, true => compare b.toNat a.toNat
  | true, false => .lt
  | false, true => .gt

theorem float_key_xor_twoPow {n : Nat} (s : BitVec (8 * (n + 1))) :
    float_key s ^^^ BitVec.twoPow _ (8 * n + 7) = if s.msb then ~~~s else s ^^^ BitVec.twoPow _ (8 * n + 7) := by
  have hs := sshiftRight_sub_one s
  rw [show 8 * (n + 1) - 1 = 8 * n + 7 by omega] at hs
  unfold float_key
  rw [hs]
  cases h : s.msb
  · rw [if_neg (by simp), if_neg (by simp), BitVec.zero_ushiftRight, BitVec.xor_zero]
  · -- the shifted sign mask is every bit but the top one, which the toggle then sets
    rw [if_pos rfl, if_pos rfl, BitVec.xor_assoc, ← BitVec.xor_allOnes]
    congr 1
    apply BitVec.eq_of_getLsbD_eq
    intro i hi
    simp only [BitVec.getLsbD_xor, BitVec.getLsbD_ushiftRight, BitVec.getLsbD_twoPow, BitVec.getLsbD_allOnes]
    by_cases hl : i = 8 * n + 7
    · subst hl
      have h1 : ¬ 1 + (8 * n + 7) < 8 * (n + 1) := by omega
      have h2 : 8 * n + 7 < 8 * (n + 1) := by omega
      simp [h1, h2]
    · have h1 : 1 + i < 8 * (n + 1) := by omega
      simp [h1, Ne.symm hl, hi]

theorem toNat_float_key_xor_twoPow {n : Nat} (s : BitVec (8 * (n + 1))) :
    (float_key s ^^^ BitVec.twoPow _ (8 * n + 7)).toNat =
      if s.msb then 2 ^ (8 * (n + 1)) - 1 - s.toNat else s.toNat + 2 ^ (8 * n + 7) := by
  rw [float_key_xor_twoPow]
  cases h : s.msb
  · have hx := toNat_xor_twoPow (k := 8 * n + 7) s
    rw [BitVec.toInt_eq_toNat_of_msb h] at hx
    rw [if_neg (by simp), if_neg (by simp)]
    have hx' : ((s ^^^ BitVec.twoPow (8 * (n + 1)) (8 * n + 7)).toNat : Int) = s.toNat + (2 ^ (8 * n + 7) : Nat) := hx
    generalize 2 ^ (8 * n + 7) = P at hx' ⊢
    omega
  · rw [if_pos rfl, if_pos rfl]
    exact BitVec.toNat_not

theorem compare_encode_float {n : Nat} (s t : BitVec (8 * (n + 1))) :
    compare ((encode_signed (n + 1)).encode (float_key s)) ((encode_signed (n + 1)).encode (float_key t)) =
      total_order s t := by
  rw [encode_signed_eq, encode_signed_eq, compare_to_be_bytes, toNat_float_key_xor_twoPow,
    toNat_float_key_xor_twoPow]
  have hP : 2 ^ (8 * (n + 1)) = 2 * 2 ^ (8 * n + 7) := by
    rw [show 8 * (n + 1) = 8 * n + 7 + 1 by omega, Nat.pow_succ']
  have hs := s.isLt
  have ht := t.isLt
  have hms := @BitVec.msb_eq_true_iff_two_mul_ge _ s
  have hmt := @BitVec.msb_eq_true_iff_two_mul_ge _ t
  unfold total_order
  generalize 2 ^ (8 * (n + 1)) = W at *
  generalize 2 ^ (8 * n + 7) = P at *
  cases h : s.msb <;> cases h' : t.msb <;>
    simp only [h, h', if_true, if_false, Bool.false_eq_true, true_iff, false_iff, ge_iff_le, not_le] at hms hmt ⊢
  · exact compare_eq_compare (by omega) (by omega)
  · exact Nat.compare_eq_gt.mpr (by omega)
  · exact Nat.compare_eq_lt.mpr (by omega)
  · exact compare_eq_compare (by omega) (by omega)

theorem compare_bool_encoding (a b : Bool) :
    compare (bool_encoding.encode a) (bool_encoding.encode b) = compare a b := by
  cases a <;> cases b <;> decide

end Order

section Encode

variable {T : Type} (E : FixedLengthEncoding T)

def encode_value (val : T) (valid asc nulls_first : Bool) : List UInt8 :=
  if valid then 1 :: (if asc then E.encode val else (E.encode val).map (~~~·))
  else null_sentinel nulls_first :: List.replicate E.size 0

namespace Fixed

def encode (out : List (List UInt8)) (iter : List T) (validity : Bool × Option (List Bool)) (asc nulls_first : Bool) :
    List (List UInt8) :=
  match validity with
  | (_, some validity) =>
      ((out.zip iter).zip validity).map fun ((row, val), v) => row ++ encode_value E val v asc nulls_first
  | (true, none) => out.map fun row => row ++ null_sentinel nulls_first :: List.replicate E.size 0
  | (false, none) => (out.zip iter).map fun (row, val) => row ++ encode_value E val true asc nulls_first

end Fixed

theorem length_encode_value (val : T) (valid asc nulls_first : Bool) :
    (encode_value E val valid asc nulls_first).length = E.ENCODED_LEN := by
  unfold encode_value FixedLengthEncoding.ENCODED_LEN
  split
  · split <;> simp [E.length_encode, Nat.add_comm]
  · simp [Nat.add_comm]

def valid_at (validity : Bool × Option (List Bool)) (k : Nat) : Bool :=
  match validity with
  | (_, some validity) => validity.getD k false
  | (all_null, none) => !all_null

namespace Fixed

theorem getElem?_encode (d : T) {out : List (List UInt8)} {iter : List T} {validity : Bool × Option (List Bool)}
    {asc nulls_first : Bool} (hiter : iter.length = out.length)
    (hval : ∀ v, validity.2 = some v → v.length = out.length) (k : Nat) :
    (encode E out iter validity asc nulls_first)[k]? =
      out[k]?.map (· ++ encode_value E (iter.getD k d) (valid_at validity k) asc nulls_first) := by
  obtain ⟨all_null, validity⟩ := validity
  cases validity with
  | some v =>
      have hv := hval v rfl
      by_cases hk : k < out.length
      · simp [encode, valid_at, hk, hiter ▸ hk, hv ▸ hk, List.getD_eq_getElem?_getD]
      · simp [encode, valid_at, hk]
  | none =>
      cases all_null
      · by_cases hk : k < out.length
        · simp [encode, valid_at, hk, hiter ▸ hk, List.getD_eq_getElem?_getD]
        · simp [encode, valid_at, hk]
      · simp [encode, valid_at, encode_value]

end Fixed

theorem encode_value_eq (val : T) (valid asc nulls_first : Bool) :
    encode_value E val valid asc nulls_first =
      encode_nullable nulls_first (List.replicate E.size 0)
        (fun v => 1 :: (if asc then E.encode v else (E.encode v).map (~~~·))) (if valid then some val else none) := by
  cases valid <;> rfl

theorem compare_encode_value {cmp : T → T → Ordering} (hE : ∀ x y, compare (E.encode x) (E.encode y) = cmp x y)
    (x y : T) (vx vy asc nulls_first : Bool) :
    compare (encode_value E x vx asc nulls_first) (encode_value E y vy asc nulls_first) =
      field_compare asc nulls_first cmp (if vx then some x else none) (if vy then some y else none) := by
  rw [encode_value_eq, encode_value_eq]
  apply compare_encode_nullable
  · intro a b
    rw [List.compare_cons_cons, (Std.ReflCmp.compare_self : compare (1 : UInt8) 1 = .eq), Ordering.eq_then]
    cases asc
    · rw [if_neg (by simp), if_neg (by simp), if_neg (by simp), compare_map_of_swap compare_not
        (PrefixFree.of_length_eq (by rw [E.length_encode, E.length_encode])), hE]
    · rw [if_pos rfl, if_pos rfl, if_pos rfl, hE]
  · intro a
    exact ⟨1, _, rfl, by decide, by decide⟩

theorem prefix_free_encode_value (x y : T) (vx vy asc nulls_first : Bool) :
    PrefixFree (encode_value E x vx asc nulls_first) (encode_value E y vy asc nulls_first) :=
  PrefixFree.of_length_eq (by rw [length_encode_value, length_encode_value])

theorem field_compare_map {α β : Type} (asc nulls_first : Bool) (cmp : β → β → Ordering) (g : α → β) (x y : Option α) :
    field_compare asc nulls_first cmp (x.map g) (y.map g) =
      field_compare asc nulls_first (fun a b => cmp (g a) (g b)) x y := by
  cases x <;> cases y <;> rfl

theorem ordered_fields_encode {cmp : T → T → Ordering} (hE : ∀ x y, compare (E.encode x) (E.encode y) = cmp x y)
    (d : T) {iter : List T} {validity : Bool × Option (List Bool)} {n : Nat} (hiter : iter.length = n)
    (hval : ∀ v, validity.2 = some v → v.length = n) (asc nulls_first : Bool) :
    OrderedFields (fun out => Fixed.encode E out iter validity asc nulls_first) n
      (fun i j => field_compare asc nulls_first (fun a b => cmp (iter.getD a d) (iter.getD b d))
        (if valid_at validity i then some i else none) (if valid_at validity j then some j else none)) := by
  refine ⟨fun k => encode_value E (iter.getD k d) (valid_at validity k) asc nulls_first,
    fun out hout k => Fixed.getElem?_encode E d (hiter.trans hout.symm) (fun v hv => (hval v hv).trans hout.symm) k,
    by simp, fun i j hi hj => ?_⟩
  rw [getD_range_map hi, getD_range_map hj]
  refine ⟨?_, prefix_free_encode_value E _ _ _ _ _ _⟩
  have hopt : ∀ k, (if valid_at validity k then some (iter.getD k d) else none) =
      (if valid_at validity k then some k else none).map (iter.getD · d) := by
    intro k
    cases valid_at validity k <;> rfl
  rw [compare_encode_value E hE, hopt, hopt, field_compare_map]

end Encode

end Databend.Row
