import Mathlib

namespace ByteOrder

section PrefixFree

variable {α : Type}

def PrefixFree (a b : List α) : Prop := a <+: b ∨ b <+: a → a = b

theorem PrefixFree.of_length_eq {a b : List α} (h : a.length = b.length) : PrefixFree a b := by
  rintro (h' | h')
  · exact h'.eq_of_length h
  · exact (h'.eq_of_length h.symm).symm

theorem PrefixFree.cons {x : α} {a b : List α} (h : PrefixFree (x :: a) (x :: b)) : PrefixFree a b := by
  intro h'
  have := h (by rwa [List.prefix_cons_inj, List.prefix_cons_inj])
  exact List.cons.inj this |>.2

theorem PrefixFree.map {f : α → α} (hf : f.Injective) {a b : List α} (h : PrefixFree a b) :
    PrefixFree (a.map f) (b.map f) := by
  intro h'
  have hpre : a <+: b ∨ b <+: a := by
    rcases h' with h' | h'
    · exact Or.inl ((List.prefix_map_iff_of_injective hf).mp h')
    · exact Or.inr ((List.prefix_map_iff_of_injective hf).mp h')
  rw [h hpre]

theorem PrefixFree.symm {a b : List α} (h : PrefixFree a b) : PrefixFree b a :=
  fun h' => (h h'.symm).symm

theorem PrefixFree.refl (a : List α) : PrefixFree a a := fun _ => rfl

theorem PrefixFree.append_of_length_eq {a b c d : List α} (hab : a.length = b.length) (hcd : PrefixFree c d) :
    PrefixFree (a ++ c) (b ++ d) := by
  rintro (⟨t, ht⟩ | ⟨t, ht⟩)
  · rw [List.append_assoc] at ht
    obtain ⟨rfl, hd⟩ := List.append_inj ht hab
    rw [hcd (Or.inl ⟨t, hd⟩)]
  · rw [List.append_assoc] at ht
    obtain ⟨rfl, hc⟩ := List.append_inj ht hab.symm
    rw [hcd (Or.inr ⟨t, hc⟩)]

theorem PrefixFree.append {a b c d : List α} (hab : PrefixFree a b) (hcd : PrefixFree c d) :
    PrefixFree (a ++ c) (b ++ d) := by
  have key : ∀ {a b c d : List α}, PrefixFree a b → PrefixFree c d → a ++ c <+: b ++ d → a ++ c = b ++ d := by
    intro a b c d hab hcd h
    -- both `a` and `b` are prefixes of `b ++ d`, so one is a prefix of the other
    obtain rfl := hab (List.prefix_or_prefix_of_prefix ((List.prefix_append a c).trans h) (List.prefix_append b d))
    rw [hcd (Or.inl ((List.prefix_append_right_inj a).mp h))]
  rintro (h | h)
  · exact key hab hcd h
  · exact (key hab.symm hcd.symm h).symm

theorem PrefixFree.cons_cons (x : α) {a b : List α} (h : PrefixFree a b) : PrefixFree (x :: a) (x :: b) :=
  PrefixFree.append_of_length_eq (a := [x]) (b := [x]) rfl h

theorem PrefixFree.of_head_ne {x y : α} (hxy : x ≠ y) (a b : List α) : PrefixFree (x :: a) (y :: b) := by
  rintro (h | h)
  · exact absurd (List.cons_prefix_cons.mp h).1 hxy
  · exact absurd (List.cons_prefix_cons.mp h).1.symm hxy

end PrefixFree

section Lex

variable {α : Type} [Ord α] [Std.LawfulEqOrd α]

theorem compare_self_list (a : List α) : compare a a = .eq := by
  induction a with
  | nil => rfl
  | cons x a ih => rw [List.compare_cons_cons, (Std.ReflCmp.compare_self : compare x x = .eq), Ordering.eq_then, ih]

theorem compare_append_append {a b : List α} (h : PrefixFree a b) (c d : List α) :
    compare (a ++ c) (b ++ d) = (compare a b).then (compare c d) := by
  induction a generalizing b with
  | nil =>
      obtain rfl := h (Or.inl List.nil_prefix)
      rfl
  | cons x a ih =>
      cases b with
      | nil => cases h (Or.inr List.nil_prefix)
      | cons y b =>
          rw [List.cons_append, List.cons_append, List.compare_cons_cons, List.compare_cons_cons]
          cases hxy : compare x y with
          | eq =>
              obtain rfl := Std.LawfulEqOrd.eq_of_compare hxy
              rw [Ordering.eq_then, Ordering.eq_then, ih h.cons]
          | lt => rfl
          | gt => rfl

theorem compare_map_of_swap {f : α → α} (hf : ∀ x y, compare (f x) (f y) = (compare x y).swap) {a b : List α}
    (h : PrefixFree a b) : compare (a.map f) (b.map f) = (compare a b).swap := by
  induction a generalizing b with
  | nil =>
      obtain rfl := h (Or.inl List.nil_prefix)
      rfl
  | cons x a ih =>
      cases b with
      | nil => cases h (Or.inr List.nil_prefix)
      | cons y b =>
          rw [List.map_cons, List.map_cons, List.compare_cons_cons, List.compare_cons_cons, hf, Ordering.swap_then]
          cases hxy : compare x y with
          | eq =>
              obtain rfl := Std.LawfulEqOrd.eq_of_compare hxy
              rw [ih h.cons]
          | lt => rfl
          | gt => rfl

end Lex

section BigEndian

def be_bytes : Nat → Nat → List UInt8
  | 0, _ => []
  | n + 1, v => (v / 256 ^ n % 256).toUInt8 :: be_bytes n v

@[simp] theorem length_be_bytes (n v : Nat) : (be_bytes n v).length = n := by
  induction n with
  | zero => rfl
  | succ n ih => rw [be_bytes, List.length_cons, ih]

theorem be_bytes_mod (n v : Nat) : be_bytes n (v % 256 ^ n) = be_bytes n v := by
  induction n generalizing v with
  | zero => rfl
  | succ n ih =>
      have hdiv : v % 256 ^ (n + 1) / 256 ^ n % 256 = v / 256 ^ n % 256 := by
        rw [Nat.pow_succ, Nat.mod_mul_right_div_self, Nat.mod_mod]
      have hmod : v % 256 ^ (n + 1) % 256 ^ n = v % 256 ^ n :=
        Nat.mod_mod_of_dvd v (Nat.pow_dvd_pow 256 (Nat.le_succ n))
      rw [be_bytes, be_bytes, hdiv, ← ih (v % 256 ^ (n + 1)), hmod, ih]

theorem compare_eq_compare {β γ : Type} [LinearOrder β] [LinearOrder γ] {a b : β} {c d : γ}
    (hlt : a < b ↔ c < d) (heq : a = b ↔ c = d) : compare a b = compare c d := by
  rcases lt_trichotomy a b with h | h | h
  · rw [compare_lt_iff_lt.mpr h, compare_lt_iff_lt.mpr (hlt.mp h)]
  · rw [compare_eq_iff_eq.mpr h, compare_eq_iff_eq.mpr (heq.mp h)]
  · have hne : ¬ c < d := fun h' => absurd (hlt.mpr h') (not_lt.mpr h.le)
    have hne' : c ≠ d := fun h' => absurd (heq.mpr h') (ne_of_gt h)
    rw [compare_gt_iff_gt.mpr h, compare_gt_iff_gt.mpr (lt_of_le_of_ne (not_lt.mp hne) (Ne.symm hne'))]

theorem compare_div_mod (v w B : Nat) :
    compare v w = (compare (v / B) (w / B)).then (compare (v % B) (w % B)) := by
  rcases Nat.lt_trichotomy (v / B) (w / B) with h | h | h
  · rw [Nat.compare_eq_lt.mpr h, Nat.compare_eq_lt.mpr (Nat.lt_of_div_lt_div h)]
    rfl
  · rw [Nat.compare_eq_eq.mpr h, Ordering.eq_then]
    have hv := Nat.div_add_mod v B
    have hw := Nat.div_add_mod w B
    rw [h] at hv
    have hlt : v < w ↔ v % B < w % B := by omega
    have heq : v = w ↔ v % B = w % B := by omega
    exact compare_eq_compare hlt heq
  · rw [Nat.compare_eq_gt.mpr h, Nat.compare_eq_gt.mpr (Nat.lt_of_div_lt_div h)]
    rfl

theorem compare_toUInt8 {a b : Nat} (ha : a < 256) (hb : b < 256) : compare a.toUInt8 b.toUInt8 = compare a b := by
  have hc : ∀ x y : UInt8, compare x y = compare x.toNat y.toNat := by
    intro x y
    simp [compare, compareOfLessAndEq, UInt8.lt_iff_toNat_lt, UInt8.toNat_inj]
  rw [hc, Nat.toUInt8_eq, Nat.toUInt8_eq, UInt8.toNat_ofNat', UInt8.toNat_ofNat', Nat.mod_eq_of_lt ha,
    Nat.mod_eq_of_lt hb]

theorem compare_be_bytes {n v w : Nat} (hv : v < 256 ^ n) (hw : w < 256 ^ n) :
    compare (be_bytes n v) (be_bytes n w) = compare v w := by
  induction n generalizing v w with
  | zero =>
      rw [Nat.pow_zero, Nat.lt_one_iff] at hv hw
      subst hv hw
      rfl
  | succ n ih =>
      have hpos : 0 < 256 ^ n := Nat.pow_pos (by decide)
      have hvq : v / 256 ^ n < 256 := Nat.div_lt_of_lt_mul (by rw [Nat.pow_succ] at hv; exact hv)
      have hwq : w / 256 ^ n < 256 := Nat.div_lt_of_lt_mul (by rw [Nat.pow_succ] at hw; exact hw)
      rw [be_bytes, be_bytes, List.compare_cons_cons, Nat.mod_eq_of_lt hvq, Nat.mod_eq_of_lt hwq,
        compare_toUInt8 hvq hwq, ← be_bytes_mod n v, ← be_bytes_mod n w,
        ih (Nat.mod_lt v hpos) (Nat.mod_lt w hpos), compare_div_mod v w (256 ^ n)]

theorem be_bytes_xor_top (n v : Nat) :
    (be_bytes (n + 1) v).modifyHead (· ^^^ 0x80) = be_bytes (n + 1) (v ^^^ 2 ^ (8 * n + 7)) := by
  have hB : (256 : Nat) ^ n = 2 ^ (8 * n) := by rw [Nat.pow_mul]
  have htop : 2 ^ (8 * n + 7) / 2 ^ (8 * n) = 2 ^ 7 := by
    rw [Nat.pow_add, Nat.mul_div_cancel_left _ (Nat.pow_pos (by decide))]
  have hlow : 2 ^ (8 * n + 7) % 2 ^ (8 * n) = 0 :=
    Nat.mod_eq_zero_of_dvd (Nat.pow_dvd_pow 2 (by omega))
  have hhead : (v ^^^ 2 ^ (8 * n + 7)) / 256 ^ n % 256 = (v / 256 ^ n % 256) ^^^ 128 := by
    rw [hB, Nat.xor_div_two_pow, htop, show (256 : Nat) = 2 ^ 8 by rfl, Nat.xor_mod_two_pow]
    rfl
  have htail : (v ^^^ 2 ^ (8 * n + 7)) % 256 ^ n = v % 256 ^ n := by
    rw [hB, Nat.xor_mod_two_pow, hlow, Nat.xor_zero]
  have hbyte : (v / 256 ^ n % 256).toUInt8 ^^^ 0x80 = ((v / 256 ^ n % 256) ^^^ 128).toUInt8 := by
    apply UInt8.toNat.inj
    have hlt : v / 256 ^ n % 256 < 256 := Nat.mod_lt _ (by decide)
    rw [UInt8.toNat_xor, Nat.toUInt8_eq, Nat.toUInt8_eq, UInt8.toNat_ofNat', UInt8.toNat_ofNat',
      Nat.mod_eq_of_lt hlt, Nat.mod_eq_of_lt (Nat.xor_lt_two_pow (n := 8) hlt (by decide))]
    rfl
  rw [be_bytes, be_bytes, List.modifyHead_cons, hbyte, hhead, ← be_bytes_mod n (v ^^^ _), htail, be_bytes_mod]

theorem xor_two_pow_eq (k : Nat) {v : Nat} (hv : v < 2 ^ (k + 1)) : v ^^^ 2 ^ k = (v + 2 ^ k) % 2 ^ (k + 1) := by
  apply Nat.eq_of_testBit_eq
  intro i
  rw [Nat.testBit_xor, Nat.testBit_two_pow, Nat.testBit_mod_two_pow, Nat.add_comm v]
  rcases Nat.lt_trichotomy i k with h | rfl | h
  · rw [Nat.testBit_two_pow_add_gt h]
    simp [Nat.ne_of_gt h, show i < k + 1 by omega]
  · rw [Nat.testBit_two_pow_add_eq]
    simp
  · have hvi : v.testBit i = false := Nat.testBit_lt_two_pow (Nat.lt_of_lt_of_le hv (Nat.pow_le_pow_right (by decide) h))
    simp [hvi, Nat.ne_of_lt h, show ¬ i < k + 1 by omega]

end BigEndian

section Bytes

theorem compare_eq_compare_toNat (x y : UInt8) : compare x y = compare x.toNat y.toNat := by
  simp [compare, compareOfLessAndEq, UInt8.lt_iff_toNat_lt, UInt8.toNat_inj]

theorem compare_not (x y : UInt8) : compare (~~~x) (~~~y) = (compare x y).swap := by
  have hx := x.toNat_lt
  have hy := y.toNat_lt
  rw [compare_eq_compare_toNat, compare_eq_compare_toNat x, UInt8.toNat_not, UInt8.toNat_not,
    ← Std.OrientedCmp.eq_swap]
  exact compare_eq_compare (by simp only [UInt8.size] at hx hy ⊢; omega) (by simp only [UInt8.size] at hx hy ⊢; omega)

theorem compare_replicate_zero_ne_gt {k : Nat} {c : List UInt8} (hk : k ≤ c.length) :
    compare (List.replicate k 0) c ≠ .gt := by
  induction k generalizing c with
  | zero => cases c <;> simp [List.compare_nil_cons]
  | succ k ih =>
      cases c with
      | nil => simp at hk
      | cons y c =>
          have h0 : compare (0 : UInt8) y ≠ .gt := by
            rw [compare_eq_compare_toNat, Ne, Nat.compare_eq_gt]
            exact Nat.not_lt_zero _
          rw [List.replicate_succ, List.compare_cons_cons]
          cases h : compare (0 : UInt8) y with
          | lt => simp
          | eq => exact ih (Nat.le_of_succ_le_succ hk)
          | gt => exact absurd h h0

def pad (m : Nat) (a : List UInt8) : List UInt8 := a ++ List.replicate (m - a.length) 0

@[simp] theorem length_pad {m : Nat} {a : List UInt8} (h : a.length ≤ m) : (pad m a).length = m := by
  simp [pad]; omega

theorem pad_nil (m : Nat) : pad m [] = List.replicate m 0 := by simp [pad]

theorem pad_cons (m : Nat) (x : UInt8) (a : List UInt8) : pad (m + 1) (x :: a) = x :: pad m a := by
  simp [pad]

theorem then_lt_of_ne_gt {o : Ordering} (h : o ≠ .gt) : o.then .lt = .lt := by
  cases o <;> simp_all

theorem compare_pad_then_length {m : Nat} {a b : List UInt8} (ha : a.length ≤ m) (hb : b.length ≤ m) :
    (compare (pad m a) (pad m b)).then (compare a.length b.length) = compare a b := by
  induction a generalizing b m with
  | nil =>
      cases b with
      | nil => rw [pad_nil, compare_self_list]; rfl
      | cons y b =>
          have hz := compare_replicate_zero_ne_gt (k := m) (c := pad m (y :: b)) (by rw [length_pad hb])
          rw [pad_nil, List.length_nil, List.length_cons, Nat.compare_eq_lt.mpr (Nat.succ_pos _),
            then_lt_of_ne_gt hz, List.compare_nil_cons]
  | cons x a ih =>
      cases b with
      | nil =>
          have hz := compare_replicate_zero_ne_gt (k := m) (c := pad m (x :: a)) (by rw [length_pad ha])
          have hs : compare (pad m (x :: a)) (pad m []) = (compare (pad m []) (pad m (x :: a))).swap :=
            Std.OrientedCmp.eq_swap
          rw [hs, pad_nil, List.length_nil, List.length_cons,
            Nat.compare_eq_gt.mpr (Nat.succ_pos _), List.compare_cons_nil]
          cases h : compare (List.replicate m 0) (pad m (x :: a)) <;> simp_all
      | cons y b =>
          obtain ⟨m, rfl⟩ : ∃ m', m = m' + 1 := ⟨m - 1, by simp at ha; omega⟩
          simp only [List.length_cons, Nat.add_le_add_iff_right] at ha hb
          have hl : compare (a.length + 1) (b.length + 1) = compare a.length b.length :=
            compare_eq_compare (by omega) (by omega)
          rw [pad_cons, pad_cons, List.compare_cons_cons, List.compare_cons_cons, Ordering.then_assoc,
            List.length_cons, List.length_cons, hl, ih ha hb]

theorem compare_pad_take_then_lt {m : Nat} {a b : List UInt8} (ha : a.length ≤ m) (hb : m < b.length) :
    (compare (pad m a) (b.take m)).then .lt = compare a b := by
  induction a generalizing b m with
  | nil =>
      obtain ⟨y, b, rfl⟩ := List.exists_cons_of_length_pos (Nat.lt_of_le_of_lt (Nat.zero_le m) hb)
      have hz := compare_replicate_zero_ne_gt (k := m) (c := (y :: b).take m) (by rw [List.length_take]; omega)
      rw [pad_nil, then_lt_of_ne_gt hz, List.compare_nil_cons]
  | cons x a ih =>
      obtain ⟨m, rfl⟩ : ∃ m', m = m' + 1 := ⟨m - 1, by simp at ha; omega⟩
      obtain ⟨y, b, rfl⟩ := List.exists_cons_of_length_pos (Nat.lt_of_le_of_lt (Nat.zero_le _) hb)
      simp only [List.length_cons, Nat.add_le_add_iff_right, Nat.add_lt_add_iff_right] at ha hb
      rw [pad_cons, List.take_succ_cons, List.compare_cons_cons, List.compare_cons_cons, Ordering.then_assoc,
        ih ha hb]

end Bytes

section OffsetBinary

theorem toNat_xor_twoPow {k : Nat} (x : BitVec (k + 1)) :
    ((x ^^^ BitVec.twoPow (k + 1) k).toNat : Int) = x.toInt + (2 ^ k : Nat) := by
  have hP : 2 ^ (k + 1) = 2 * 2 ^ k := Nat.pow_succ'
  have hx := x.isLt
  rw [BitVec.toNat_xor, BitVec.toNat_twoPow, Nat.mod_eq_of_lt (Nat.pow_lt_pow_succ (by decide)),
    xor_two_pow_eq k hx, BitVec.toInt_eq_toNat_cond]
  by_cases h : x.toNat < 2 ^ k
  · rw [Nat.mod_eq_of_lt (by omega), if_pos (by omega)]
    omega
  · rw [Nat.mod_eq_sub_mod (by omega), Nat.mod_eq_of_lt (by omega), if_neg (by omega)]
    omega

theorem compare_toNat_xor_twoPow {k : Nat} (x y : BitVec (k + 1)) :
    compare (x ^^^ BitVec.twoPow (k + 1) k).toNat (y ^^^ BitVec.twoPow (k + 1) k).toNat =
      compare x.toInt y.toInt := by
  have hx := toNat_xor_twoPow x
  have hy := toNat_xor_twoPow y
  exact compare_eq_compare (by omega) (by omega)

theorem sshiftRight_sub_one {w : Nat} (s : BitVec w) :
    s.sshiftRight (w - 1) = if s.msb then BitVec.allOnes w else 0#w := by
  apply BitVec.eq_of_getLsbD_eq
  intro i hi
  rw [BitVec.getLsbD_sshiftRight]
  cases h : s.msb <;> simp [BitVec.msb_eq_getLsbD_last] at h ⊢ <;> grind

end OffsetBinary

section LittleEndian

def le_bytes : Nat → Nat → List UInt8
  | 0, _ => []
  | n + 1, v => (v % 256).toUInt8 :: le_bytes n (v / 256)

def of_le_bytes : List UInt8 → Nat
  | [] => 0
  | b :: bs => b.toNat + 256 * of_le_bytes bs

@[simp] theorem length_le_bytes (n v : Nat) : (le_bytes n v).length = n := by
  induction n generalizing v with
  | zero => rfl
  | succ n ih => rw [le_bytes, List.length_cons, ih]

end LittleEndian

end ByteOrder
