import Databend.Library.Decimal

namespace Databend.Kvapi

inductive KeyError where
  | FromUtf8Error
  | AsciiError (non_ascii : String)
  | InvalidSegment (i : Nat) (expect got : List UInt8)
  | WrongNumberOfSegments (expect : Nat) (got : List UInt8)
  | AtleastSegments (expect actual : Nat)
  | InvalidId (s : List UInt8) (reason : String)
  -- not a variant of the source: the panics of `unescape`
  | Panic (msg : String)
  deriving DecidableEq, Repr

-- `str::as_bytes`: strings are handled as their UTF-8 bytes
def as_bytes (s : String) : List UInt8 := s.toUTF8.data.toList

-- `String::from_utf8`
def from_utf8 (bytes : List UInt8) : Except KeyError String :=
  match String.fromUTF8? ⟨bytes.toArray⟩ with
  | some s => .ok s
  | none => .error .FromUtf8Error

section Escape

-- `num < 16` at both calls, so the `unreachable!` arm is never taken
def hex (num : UInt8) : UInt8 := if num ≤ 9 then 48 + num else 97 + (num - 10)

-- `b'0'..=b'9' | b'_' | b'a'..=b'z' | b'A'..=b'Z'`
def is_unescaped (c : UInt8) : Bool :=
  (48 ≤ c && c ≤ 57) || c == 95 || (97 ≤ c && c ≤ 122) || (65 ≤ c && c ≤ 90)

def escape_byte (c : UInt8) : List UInt8 :=
  if is_unescaped c then [c] else [0x25, hex (c / 16), hex (c % 16)]

-- `escape`: the bytes of the escaped string
def escape (key : List UInt8) : List UInt8 := key.flatMap escape_byte

def unhex (num : UInt8) : Except KeyError UInt8 :=
  if 48 ≤ num ∧ num ≤ 57 then .ok (num - 48)
  else if 97 ≤ num ∧ num ≤ 102 then .ok (num - 97 + 10)
  else .error (.Panic ("Unreachable branch num = " ++ toString num))

-- the loop of `unescape`: a `%` takes the two bytes after it as hex digits
def unescape_bytes : List UInt8 → Except KeyError (List UInt8)
  | [] => .ok []
  | c :: rest =>
      if c = 0x25 then
        match rest with
        | [] => .error (.Panic "index out of bounds")
        | a :: rest' => do
            let hi ← unhex a
            match rest' with
            | [] => .error (.Panic "index out of bounds")
            | b :: rest'' => do
                let lo ← unhex b
                let tl ← unescape_bytes rest''
                .ok ((hi * 16 + lo) :: tl)
      else do
        let tl ← unescape_bytes rest
        .ok (c :: tl)

def unescape (key : List UInt8) : Except KeyError String := do
  let new_key ← unescape_bytes key
  from_utf8 new_key

end Escape

section Id

def parse_u64_digits (acc : Nat) : List UInt8 → Except String UInt64
  | [] => .ok acc.toUInt64
  | c :: cs =>
      if !Decimal.isDigit c then .error "invalid digit found in string"
      else if acc * 10 + (c.toNat - 48) < 2 ^ 64 then parse_u64_digits (acc * 10 + (c.toNat - 48)) cs
      else .error "number too large to fit in target type"

-- `str::parse::<u64>`: an optional `+`, then decimal digits, without overflow
def parse_u64 (s : List UInt8) : Except String UInt64 :=
  match s with
  | [] => .error "cannot parse integer from empty string"
  | c :: rest =>
      if c = 0x2b then
        if rest = [] then .error "invalid digit found in string" else parse_u64_digits 0 rest
      else parse_u64_digits 0 s

def decode_id (s : List UInt8) : Except KeyError UInt64 :=
  match parse_u64 s with
  | .ok id => .ok id
  | .error reason => .error (.InvalidId s reason)

end Id

structure KeyBuilder where
  buf : List UInt8

namespace KeyBuilder

def new : KeyBuilder := ⟨[]⟩

-- `s` is the pushed `&str` as its bytes
def push_raw (b : KeyBuilder) (s : List UInt8) : KeyBuilder :=
  if b.buf.isEmpty then ⟨b.buf ++ s⟩ else ⟨b.buf ++ 0x2f :: s⟩

def new_prefixed (pfx : List UInt8) : KeyBuilder := new.push_raw pfx

def push_str (b : KeyBuilder) (s : String) : KeyBuilder := b.push_raw (escape (as_bytes s))

-- `format!("{}", n)`
def push_u64 (b : KeyBuilder) (n : UInt64) : KeyBuilder := b.push_raw (Decimal.digits n.toNat)

-- `String::from_utf8(buf).unwrap()`: the key, as its bytes
def done (b : KeyBuilder) : List UInt8 := b.buf

end KeyBuilder

structure KeyParser where
  str_key : List UInt8
  i : Nat
  index : Nat
  -- the segments that `split('/')` has not yielded yet
  elements : List (List UInt8)

namespace KeyParser

def new (source : List UInt8) : KeyParser := ⟨source, 0, 0, source.splitOn 0x2f⟩

def next_raw (p : KeyParser) : Except KeyError (List UInt8 × KeyParser) :=
  match p.elements with
  | s :: rest => .ok (s, { p with i := p.i + 1, index := p.index + s.length + 1, elements := rest })
  | [] => .error (.WrongNumberOfSegments (p.i + 1) p.str_key)

def next_str (p : KeyParser) : Except KeyError (String × KeyParser) := do
  let (elt, p) ← p.next_raw
  let s ← unescape elt
  pure (s, p)

def next_u64 (p : KeyParser) : Except KeyError (UInt64 × KeyParser) := do
  let (elt, p) ← p.next_raw
  let id ← decode_id elt
  pure (id, p)

def next_literal (p : KeyParser) (expect : List UInt8) : Except KeyError KeyParser := do
  let ith := p.i
  let (elt, p) ← p.next_raw
  if elt ≠ expect then throw (.InvalidSegment ith expect elt) else pure p

def new_prefixed (source pfx : List UInt8) : Except KeyError KeyParser := (new source).next_literal pfx

def tail_raw (p : KeyParser) : Except KeyError (List UInt8 × KeyParser) := do
  let index := p.index
  let (_, p) ← p.next_raw
  pure (p.str_key.drop index, p)

def done (p : KeyParser) : Except KeyError Unit :=
  match p.elements with
  | [] => .ok ()
  | _ :: _ => .error (.WrongNumberOfSegments p.i p.str_key)

-- `n` successive `next_str` calls, as a `from_str_key` reading `n` string segments makes them
def next_strs (p : KeyParser) : Nat → Except KeyError (List String × KeyParser)
  | 0 => .ok ([], p)
  | n + 1 => do
      let (s, p) ← p.next_str
      let (ss, p) ← p.next_strs n
      pure (s :: ss, p)

end KeyParser

section EscapeLemmas

theorem unescape_bytes_percent (a b : UInt8) (rest : List UInt8) :
    unescape_bytes (0x25 :: a :: b :: rest) =
      (unhex a >>= fun hi => unhex b >>= fun lo => unescape_bytes rest >>= fun tl => .ok ((hi * 16 + lo) :: tl)) :=
  rfl

theorem unescape_bytes_of_ne {c : UInt8} (hc : c ≠ 0x25) (rest : List UInt8) :
    unescape_bytes (c :: rest) = (unescape_bytes rest >>= fun tl => .ok (c :: tl)) := by
  rw [unescape_bytes.eq_def]
  exact if_neg hc

theorem from_utf8_as_bytes (s : String) : from_utf8 (as_bytes s) = .ok s := by
  have hb : (⟨(as_bytes s).toArray⟩ : ByteArray) = s.toByteArray := by
    simp [as_bytes]
  have h : String.fromUTF8? ⟨(as_bytes s).toArray⟩ = some s := by
    rw [hb, String.fromUTF8?, dif_pos s.isValidUTF8]
    rfl
  rw [from_utf8, h]

theorem unhex_hex_fin : ∀ n : Fin 16, unhex (hex (UInt8.ofNat n)) = .ok (UInt8.ofNat n) := by decide

theorem unhex_hex {d : UInt8} (h : d < 16) : unhex (hex d) = .ok d := by
  have hd : d.toNat < 16 := by simpa [UInt8.lt_iff_toNat_lt] using h
  simpa using unhex_hex_fin ⟨d.toNat, hd⟩

theorem hex_ne_slash_fin : ∀ n : Fin 16, hex (UInt8.ofNat n) ≠ 0x2f := by decide

theorem hex_ne_slash {d : UInt8} (h : d < 16) : hex d ≠ 0x2f := by
  have hd : d.toNat < 16 := by simpa [UInt8.lt_iff_toNat_lt] using h
  simpa using hex_ne_slash_fin ⟨d.toNat, hd⟩

theorem div_mul_add_mod (c : UInt8) : c / 16 * 16 + c % 16 = c := by
  apply UInt8.toNat_inj.mp
  have := c.toNat_lt
  simp [UInt8.toNat_add, UInt8.toNat_mul, UInt8.toNat_div, UInt8.toNat_mod]
  omega

theorem div_lt (c : UInt8) : c / 16 < 16 := by
  have := c.toNat_lt
  simp only [UInt8.lt_iff_toNat_lt, UInt8.toNat_div]
  simp
  omega

theorem mod_lt (c : UInt8) : c % 16 < 16 := by
  simp only [UInt8.lt_iff_toNat_lt, UInt8.toNat_mod]
  simp
  omega

theorem unescape_bytes_escape_byte (c : UInt8) (rest : List UInt8) :
    unescape_bytes (escape_byte c ++ rest) = (unescape_bytes rest).map (c :: ·) := by
  unfold escape_byte
  split_ifs with hc
  · have hne : c ≠ 0x25 := by
      rintro rfl
      simp [is_unescaped] at hc
    rw [List.singleton_append, unescape_bytes_of_ne hne]
    cases unescape_bytes rest <;> rfl
  · simp only [List.cons_append, List.nil_append]
    rw [unescape_bytes_percent, unhex_hex (div_lt c), unhex_hex (mod_lt c)]
    cases unescape_bytes rest <;> simp [bind, Except.bind, Except.map, div_mul_add_mod]

theorem unescape_bytes_escape (bs : List UInt8) : unescape_bytes (escape bs) = .ok bs := by
  induction bs with
  | nil => rfl
  | cons c bs ih =>
      rw [escape, List.flatMap_cons, ← escape, unescape_bytes_escape_byte, ih]
      rfl

theorem unescape_escape (s : String) : unescape (escape (as_bytes s)) = .ok s := by
  rw [unescape, unescape_bytes_escape]
  exact from_utf8_as_bytes s

theorem slash_not_mem_escape (bs : List UInt8) : 0x2f ∉ escape bs := by
  simp only [escape, List.mem_flatMap, not_exists, not_and]
  intro c _
  unfold escape_byte
  split_ifs with hc
  · rintro h
    rw [List.mem_singleton] at h
    subst h
    simp [is_unescaped] at hc
  · simp [Ne.symm (hex_ne_slash (div_lt c)), Ne.symm (hex_ne_slash (mod_lt c))]

end EscapeLemmas

section IdLemmas

theorem parse_u64_digits_ok {acc : Nat} {l : List UInt8} (hl : ∀ b ∈ l, Decimal.isDigit b = true)
    (hv : Decimal.ofDigits acc l < 2 ^ 64) : parse_u64_digits acc l = .ok (Decimal.ofDigits acc l).toUInt64 := by
  induction l generalizing acc with
  | nil => rfl
  | cons b l ih =>
      have hb := hl b (List.mem_cons_self ..)
      -- the value read so far never exceeds the whole value
      have hstep : acc * 10 + (b.toNat - 48) < 2 ^ 64 :=
        Nat.lt_of_le_of_lt (Decimal.le_ofDigits _ l) hv
      rw [parse_u64_digits, if_neg (by simp [hb]), if_pos hstep]
      exact ih (fun b' hb' => hl b' (List.mem_cons_of_mem _ hb')) hv

theorem decode_id_digits (n : UInt64) : decode_id (Decimal.digits n.toNat) = .ok n := by
  have hd : ∀ b ∈ Decimal.digits n.toNat, Decimal.isDigit b = true := fun _ => Decimal.isDigit_of_mem_digits
  have hv : Decimal.ofDigits 0 (Decimal.digits n.toNat) < 2 ^ 64 := by
    rw [Decimal.ofDigits_digits]
    exact n.toNat_lt
  have hparse : parse_u64 (Decimal.digits n.toNat) = .ok n := by
    obtain ⟨c, rest, hcr⟩ := List.exists_cons_of_ne_nil (Decimal.digits_ne_nil n.toNat)
    have hc : c ≠ 0x2b := by
      intro h
      have := hd c (by rw [hcr]; exact List.mem_cons_self ..)
      simp [h, Decimal.isDigit] at this
    rw [hcr, parse_u64, if_neg hc, ← hcr, parse_u64_digits_ok hd hv, Decimal.ofDigits_digits]
    simp
  rw [decode_id, hparse]

theorem slash_not_mem_digits (n : Nat) : 0x2f ∉ Decimal.digits n := by
  intro h
  have := Decimal.isDigit_of_mem_digits h
  simp [Decimal.isDigit] at this

end IdLemmas

section UnescapeLength

theorem bind_eq_ok {ε α β : Type} {x : Except ε α} {f : α → Except ε β} {b : β} (h : (x >>= f) = .ok b) :
    ∃ a, x = .ok a ∧ f a = .ok b := by
  cases x with
  | error e => cases h
  | ok a => exact ⟨a, rfl, h⟩

theorem as_bytes_of_from_utf8 {bs : List UInt8} {s : String} (h : from_utf8 bs = .ok s) : as_bytes s = bs := by
  unfold from_utf8 at h
  split at h
  · rename_i s' hs
    cases h
    unfold String.fromUTF8? at hs
    split_ifs at hs with hv
    cases hs
    simp [as_bytes, String.fromUTF8]
  · cases h

theorem unescape_bytes_of_not_mem {l : List UInt8} (h : (0x25 : UInt8) ∉ l) : unescape_bytes l = .ok l := by
  induction l with
  | nil => rfl
  | cons c l ih =>
      have hc : c ≠ 0x25 := fun hc => h (hc ▸ List.mem_cons_self ..)
      rw [unescape_bytes_of_ne hc, ih (fun hm => h (List.mem_cons_of_mem _ hm))]
      rfl

theorem length_unescape_bytes {l l' : List UInt8} (h : unescape_bytes l = .ok l') :
    l'.length ≤ l.length ∧ ((0x25 : UInt8) ∈ l → l'.length < l.length) := by
  induction l using unescape_bytes.induct generalizing l' with
  | case1 =>
      cases h
      simp
  | case2 =>
      cases h
  | case3 a r ih =>
      rw [unescape_bytes.eq_def] at h
      simp only [if_pos] at h
      obtain ⟨hi, -, h⟩ := bind_eq_ok h
      cases r with
      | nil => cases h
      | cons b r =>
          obtain ⟨lo, -, h⟩ := bind_eq_ok h
          obtain ⟨tl, htl, h⟩ := bind_eq_ok h
          cases h
          have := (ih htl).1
          simp only [List.length_cons]
          omega
  | case4 c r hc ih =>
      rw [unescape_bytes_of_ne hc] at h
      obtain ⟨tl, htl, h⟩ := bind_eq_ok h
      cases h
      obtain ⟨h1, h2⟩ := ih htl
      refine ⟨by simp only [List.length_cons]; omega, fun hm => ?_⟩
      have := h2 ((List.mem_cons.mp hm).resolve_left (Ne.symm hc))
      simp only [List.length_cons]
      omega

theorem unescape_as_bytes_iff (s : String) : unescape (as_bytes s) = .ok s ↔ (0x25 : UInt8) ∉ as_bytes s := by
  constructor
  · intro h hm
    obtain ⟨bs, hbs, hu⟩ := bind_eq_ok h
    have hlen := (length_unescape_bytes hbs).2 hm
    rw [← as_bytes_of_from_utf8 hu] at hlen
    exact Nat.lt_irrefl _ hlen
  · intro h
    rw [unescape, unescape_bytes_of_not_mem h]
    exact from_utf8_as_bytes s

end UnescapeLength

section Segments

theorem KeyBuilder.new_prefixed_buf (pfx : List UInt8) : (KeyBuilder.new_prefixed pfx).buf = pfx := by
  simp [KeyBuilder.new_prefixed, KeyBuilder.push_raw, KeyBuilder.new]

theorem KeyBuilder.push_raw_buf {b : KeyBuilder} (h : b.buf ≠ []) (s : List UInt8) :
    (b.push_raw s).buf = b.buf ++ 0x2f :: s := by
  simp [KeyBuilder.push_raw, h]

variable {p : KeyParser} {rest : List (List UInt8)}

theorem KeyParser.next_raw_cons {e : List UInt8} (h : p.elements = e :: rest) :
    ∃ p', p.next_raw = .ok (e, p') ∧ p'.elements = rest := by
  rw [KeyParser.next_raw, h]
  exact ⟨_, rfl, rfl⟩

theorem KeyParser.next_literal_self {e : List UInt8} (h : p.elements = e :: rest) :
    ∃ p', p.next_literal e = .ok p' ∧ p'.elements = rest := by
  obtain ⟨p', hr, he⟩ := KeyParser.next_raw_cons h
  refine ⟨p', ?_, he⟩
  simp [KeyParser.next_literal, hr, bind, Except.bind, pure, Except.pure]

theorem KeyParser.next_u64_digits {n : UInt64} (h : p.elements = Decimal.digits n.toNat :: rest) :
    ∃ p', p.next_u64 = .ok (n, p') ∧ p'.elements = rest := by
  obtain ⟨p', hr, he⟩ := KeyParser.next_raw_cons h
  refine ⟨p', ?_, he⟩
  simp [KeyParser.next_u64, hr, decode_id_digits, bind, Except.bind, pure, Except.pure]

theorem KeyParser.next_str_cons {e : List UInt8} {s : String} (h : p.elements = e :: rest)
    (hs : unescape e = .ok s) : ∃ p', p.next_str = .ok (s, p') ∧ p'.elements = rest := by
  obtain ⟨p', hr, he⟩ := KeyParser.next_raw_cons h
  refine ⟨p', ?_, he⟩
  simp [KeyParser.next_str, hr, hs, bind, Except.bind, pure, Except.pure]

theorem KeyParser.next_str_escape {s : String} (h : p.elements = escape (as_bytes s) :: rest) :
    ∃ p', p.next_str = .ok (s, p') ∧ p'.elements = rest :=
  KeyParser.next_str_cons h (unescape_escape s)

theorem KeyParser.next_str_ok {s : String} {p' : KeyParser} (h : p.next_str = .ok (s, p')) :
    ∃ e, p.elements = e :: p'.elements ∧ unescape e = .ok s := by
  unfold KeyParser.next_str KeyParser.next_raw at h
  cases he : p.elements with
  | nil => rw [he] at h; cases h
  | cons e rest =>
      rw [he] at h
      obtain ⟨r, hr, h⟩ := bind_eq_ok h
      cases hr
      obtain ⟨s', hs, h⟩ := bind_eq_ok h
      cases h
      exact ⟨e, rfl, hs⟩

theorem KeyParser.done_nil (h : p.elements = []) : p.done = .ok () := by
  rw [KeyParser.done, h]

theorem KeyParser.done_cons {e : List UInt8} (h : p.elements = e :: rest) :
    p.done = .error (.WrongNumberOfSegments p.i p.str_key) := by
  rw [KeyParser.done, h]

theorem KeyParser.done_eq_ok (h : p.done = .ok ()) : p.elements = [] := by
  cases he : p.elements with
  | nil => rfl
  | cons e rest => rw [KeyParser.done_cons he] at h; cases h

theorem KeyParser.new_prefixed_ok {pfx : List UInt8} (hp : (0x2f : UInt8) ∉ pfx) (tail : List UInt8) :
    ∃ p, KeyParser.new_prefixed (pfx ++ 0x2f :: tail) pfx = .ok p ∧ p.elements = tail.splitOn 0x2f := by
  have h : (KeyParser.new (pfx ++ 0x2f :: tail)).elements = pfx :: tail.splitOn 0x2f :=
    List.splitOn_append_cons_self_of_not_mem hp tail
  exact KeyParser.next_literal_self h

theorem splitOn_eq_singleton_iff {α : Type} [BEq α] [LawfulBEq α] {a : α} {xs e : List α} :
    xs.splitOn a = [e] ↔ e = xs ∧ a ∉ xs := by
  constructor
  · intro h
    have he : e = xs := by
      have hjoin : [a].intercalate (xs.splitOn a) = xs := List.intercalate_splitOn a
      rw [h, List.intercalate_singleton] at hjoin
      exact hjoin
    refine ⟨he, fun ha => ?_⟩
    obtain ⟨s, t, rfl⟩ := List.append_of_mem ha
    rw [List.splitOn_append_cons_self] at h
    have hs := List.splitOn_ne_nil a s
    have ht := List.splitOn_ne_nil a t
    have hlen := congrArg List.length h
    rw [List.length_append] at hlen
    have h1 := List.length_pos_of_ne_nil hs
    have h2 := List.length_pos_of_ne_nil ht
    simp only [List.length_singleton] at hlen
    omega
  · rintro ⟨rfl, ha⟩
    exact List.splitOn_eq_singleton ha

theorem splitOn_append_segments {α : Type} [BEq α] [LawfulBEq α] {a : α} {l : List α}
    (hl : a ∉ l) {segs : List (List α)} (hs : ∀ s ∈ segs, a ∉ s) :
    (l ++ segs.flatMap (a :: ·)).splitOn a = l :: segs := by
  induction segs generalizing l with
  | nil => simpa using List.splitOn_eq_singleton hl
  | cons s segs ih =>
      have hs0 : a ∉ s := hs s (List.mem_cons_self ..)
      rw [List.flatMap_cons, List.cons_append, List.splitOn_append_cons_self_of_not_mem hl,
        ih hs0 (fun t ht => hs t (List.mem_cons_of_mem _ ht))]

theorem KeyBuilder.foldl_push_str_buf {b : KeyBuilder} (h : b.buf ≠ []) (strs : List String) :
    (strs.foldl KeyBuilder.push_str b).buf = b.buf ++ (strs.map fun s => escape (as_bytes s)).flatMap (0x2f :: ·) := by
  induction strs generalizing b with
  | nil => simp
  | cons s strs ih =>
      have hb : (b.push_str s).buf = b.buf ++ 0x2f :: escape (as_bytes s) := KeyBuilder.push_raw_buf h _
      rw [List.foldl_cons, ih (by simp [hb]), hb]
      simp

theorem KeyParser.next_strs_escape (strs : List String) {p : KeyParser}
    (h : p.elements = strs.map fun s => escape (as_bytes s)) :
    ∃ p', p.next_strs strs.length = .ok (strs, p') ∧ p'.elements = [] := by
  induction strs generalizing p with
  | nil => exact ⟨p, rfl, h⟩
  | cons s strs ih =>
      have h' : p.elements = escape (as_bytes s) :: strs.map fun s => escape (as_bytes s) := by
        rw [h, List.map_cons]
      obtain ⟨p1, h1, e1⟩ := KeyParser.next_str_escape h'
      obtain ⟨p2, h2, e2⟩ := ih e1
      refine ⟨p2, ?_, e2⟩
      simp [KeyParser.next_strs, h1, h2, bind, Except.bind, pure, Except.pure]

theorem escape_byte_safe {c b : UInt8} (h : b ∈ escape_byte c) : is_unescaped b = true ∨ b = 0x25 := by
  unfold escape_byte at h
  split_ifs at h with hc
  · rw [List.mem_singleton] at h
    exact .inl (h ▸ hc)
  · -- the two digits `hex` writes are `0-9` or `a-f`
    have hhex : ∀ d : Fin 16, is_unescaped (hex (UInt8.ofNat d)) = true := by decide
    have hd : ∀ d : UInt8, d < 16 → is_unescaped (hex d) = true := by
      intro d hd
      have hd' : d.toNat < 16 := by simpa [UInt8.lt_iff_toNat_lt] using hd
      simpa using hhex ⟨d.toNat, hd'⟩
    simp only [List.mem_cons, List.not_mem_nil, or_false] at h
    rcases h with rfl | rfl | rfl
    · exact .inr rfl
    · exact .inl (hd _ (div_lt c))
    · exact .inl (hd _ (mod_lt c))

theorem key_segments_round_trip :
    (∀ s, unescape (escape (as_bytes s)) = .ok s) ∧
    (∀ s, ∀ b ∈ escape (as_bytes s), is_unescaped b = true ∨ b = 0x25) ∧
    (∀ s, (0x2f : UInt8) ∉ escape (as_bytes s)) ∧
    ∀ pfx : List UInt8, pfx ≠ [] → (0x2f : UInt8) ∉ pfx → ∀ strs : List String,
      ∃ p, KeyParser.new_prefixed (strs.foldl KeyBuilder.push_str (KeyBuilder.new_prefixed pfx)).done pfx = .ok p ∧
        ∃ p', p.next_strs strs.length = .ok (strs, p') ∧ p'.done = .ok () := by
  refine ⟨unescape_escape, ?_, fun s => slash_not_mem_escape _, ?_⟩
  · intro s b hb
    obtain ⟨c, -, hc⟩ := List.mem_flatMap.mp hb
    exact escape_byte_safe hc
  · intro pfx hp0 hp strs
    have hbuf := KeyBuilder.foldl_push_str_buf (b := KeyBuilder.new_prefixed pfx)
      (by rwa [KeyBuilder.new_prefixed_buf]) strs
    rw [KeyBuilder.new_prefixed_buf] at hbuf
    have hsplit : (KeyParser.new (strs.foldl KeyBuilder.push_str (KeyBuilder.new_prefixed pfx)).done).elements =
        pfx :: strs.map fun s => escape (as_bytes s) := by
      show List.splitOn _ _ = _
      rw [KeyBuilder.done, hbuf]
      refine splitOn_append_segments hp ?_
      intro e he
      obtain ⟨s, -, rfl⟩ := List.mem_map.mp he
      exact slash_not_mem_escape _
    obtain ⟨p, hp1, e1⟩ := KeyParser.next_literal_self hsplit
    obtain ⟨p', hp2, e2⟩ := KeyParser.next_strs_escape strs e1
    exact ⟨p, hp1, p', hp2, KeyParser.done_nil e2⟩

theorem key_segments_round_trip_database :
    ∃ p, KeyParser.new_prefixed (["db", "t"].foldl KeyBuilder.push_str
        (KeyBuilder.new_prefixed [0x5f, 0x5f, 0x66, 0x64])).done [0x5f, 0x5f, 0x66, 0x64] = .ok p ∧
      ∃ p', p.next_strs 2 = .ok (["db", "t"], p') ∧ p'.done = .ok () :=
  key_segments_round_trip.2.2.2 [0x5f, 0x5f, 0x66, 0x64] (by decide) (by decide) ["db", "t"]

theorem key_builder_empty_prefix_drops_segment :
    (["", "a"].foldl KeyBuilder.push_str (KeyBuilder.new_prefixed [])).done =
      (["a"].foldl KeyBuilder.push_str (KeyBuilder.new_prefixed [])).done ∧
    KeyParser.new_prefixed (["", "a"].foldl KeyBuilder.push_str (KeyBuilder.new_prefixed [])).done [] =
      .error (.InvalidSegment 0 [] [0x61]) := by
  constructor <;> rfl

end Segments

section UnescapePanics

-- the bytes `unhex` maps without reaching its `unreachable!` arm
def is_hex_digit (c : UInt8) : Bool := (48 ≤ c && c ≤ 57) || (97 ≤ c && c ≤ 102)

-- the keys `unescape` reads without a panic: the loop finds two bytes of `0-9a-f` after each `%`
def well_escaped : List UInt8 → Bool
  | [] => true
  | c :: rest =>
      if c = 0x25 then
        match rest with
        | a :: b :: rest' => is_hex_digit a && is_hex_digit b && well_escaped rest'
        | _ => false
      else well_escaped rest

theorem unhex_of_hex_digit {c : UInt8} (h : is_hex_digit c = true) : ∃ d, unhex c = .ok d := by
  simp only [is_hex_digit, Bool.or_eq_true, Bool.and_eq_true, decide_eq_true_eq] at h
  unfold unhex
  split_ifs with h1 h2
  · exact ⟨_, rfl⟩
  · exact ⟨_, rfl⟩
  · exact absurd h (by tauto)

theorem unhex_of_not_hex_digit {c : UInt8} (h : is_hex_digit c = false) :
    unhex c = .error (.Panic ("Unreachable branch num = " ++ toString c)) := by
  simp only [is_hex_digit, Bool.or_eq_false_iff, Bool.and_eq_false_iff, decide_eq_false_iff_not] at h
  rw [unhex, if_neg (by tauto), if_neg (by tauto)]

theorem well_escaped_percent (a b : UInt8) (rest : List UInt8) :
    well_escaped (0x25 :: a :: b :: rest) = (is_hex_digit a && is_hex_digit b && well_escaped rest) := rfl

theorem well_escaped_of_ne {c : UInt8} (hc : c ≠ 0x25) (rest : List UInt8) :
    well_escaped (c :: rest) = well_escaped rest := by
  rw [well_escaped.eq_def]
  exact if_neg hc

theorem unescape_bytes_cases (l : List UInt8) :
    (well_escaped l = true ∧ ∃ l', unescape_bytes l = .ok l') ∨
      (well_escaped l = false ∧ ∃ msg, unescape_bytes l = .error (.Panic msg)) := by
  induction l using well_escaped.induct with
  | case1 => exact .inl ⟨rfl, [], rfl⟩
  | case2 a b rest ih =>
    rw [well_escaped_percent, unescape_bytes_percent]
    -- the first digit is read and mapped before the second
    cases ha : is_hex_digit a with
    | false =>
      rw [unhex_of_not_hex_digit ha]
      exact .inr ⟨rfl, _, rfl⟩
    | true =>
    obtain ⟨hi, hhi⟩ := unhex_of_hex_digit ha
    cases hb : is_hex_digit b with
    | false =>
      rw [hhi, unhex_of_not_hex_digit hb]
      exact .inr ⟨rfl, _, rfl⟩
    | true =>
    obtain ⟨lo, hlo⟩ := unhex_of_hex_digit hb
    rw [hhi, hlo, Bool.true_and, Bool.true_and]
    rcases ih with ⟨hw, l', hl'⟩ | ⟨hw, msg, hmsg⟩
    · exact .inl ⟨hw, _, by rw [hl']; rfl⟩
    · exact .inr ⟨hw, msg, by rw [hmsg]; rfl⟩
  | case3 rest hshort =>
    -- a `%` with fewer than two bytes after it indexes past the end, unless `unhex` panics first
    match rest, hshort with
    | [], _ => exact .inr ⟨rfl, _, rfl⟩
    | [a], _ =>
      have hlast : unescape_bytes [0x25, a] = (unhex a >>= fun _ => .error (.Panic "index out of bounds")) := rfl
      rw [hlast]
      cases ha : is_hex_digit a with
      | false => exact .inr ⟨rfl, _, by rw [unhex_of_not_hex_digit ha]; rfl⟩
      | true =>
        obtain ⟨hi, hhi⟩ := unhex_of_hex_digit ha
        exact .inr ⟨rfl, _, by rw [hhi]; rfl⟩
    | a :: b :: rest', hshort => exact absurd rfl (hshort a b rest')
  | case4 c rest hc ih =>
    rw [well_escaped_of_ne hc, unescape_bytes_of_ne hc]
    rcases ih with ⟨hw, l', hl'⟩ | ⟨hw, msg, hmsg⟩
    · exact .inl ⟨hw, _, by rw [hl']; rfl⟩
    · exact .inr ⟨hw, msg, by rw [hmsg]; rfl⟩

theorem from_utf8_cases (bs : List UInt8) :
    (∃ s, from_utf8 bs = .ok s) ∨ from_utf8 bs = .error .FromUtf8Error := by
  unfold from_utf8
  split
  · exact .inl ⟨_, rfl⟩
  · exact .inr rfl

theorem unescape_cases (key : List UInt8) :
    (well_escaped key = true ∧ ((∃ s, unescape key = .ok s) ∨ unescape key = .error .FromUtf8Error)) ∨
      (well_escaped key = false ∧ ∃ msg, unescape key = .error (.Panic msg)) := by
  rcases unescape_bytes_cases key with ⟨hw, l, hl⟩ | ⟨hw, msg, hmsg⟩
  · refine .inl ⟨hw, ?_⟩
    rw [unescape, hl]
    exact from_utf8_cases l
  · exact .inr ⟨hw, msg, by rw [unescape, hmsg]; rfl⟩

theorem unescape_panic_iff (key : List UInt8) :
    (∃ msg, unescape key = .error (.Panic msg)) ↔ well_escaped key = false := by
  rcases unescape_cases key with ⟨hw, ⟨s, hs⟩ | hs⟩ | ⟨hw, msg, hmsg⟩
  · simp [hw, hs]
  · simp [hw, hs]
  · exact ⟨fun _ => hw, fun _ => ⟨msg, hmsg⟩⟩

theorem well_escaped_escape (bs : List UInt8) : well_escaped (escape bs) = true := by
  rcases unescape_bytes_cases (escape bs) with ⟨hw, -⟩ | ⟨-, msg, hmsg⟩
  · exact hw
  · rw [unescape_bytes_escape] at hmsg
    cases hmsg

theorem KeyParser.next_str_panic_iff (p : KeyParser) :
    (∃ msg, p.next_str = .error (.Panic msg)) ↔ ∃ e rest, p.elements = e :: rest ∧ well_escaped e = false := by
  cases he : p.elements with
  | nil =>
    have hnone : p.next_str = .error (.WrongNumberOfSegments (p.i + 1) p.str_key) := by
      simp [KeyParser.next_str, KeyParser.next_raw, he, bind, Except.bind]
    simp [hnone]
  | cons e rest =>
    obtain ⟨p', hr, -⟩ := KeyParser.next_raw_cons he
    have hstr : p.next_str = (unescape e >>= fun s => .ok (s, p')) := by
      simp [KeyParser.next_str, hr, bind, Except.bind, pure, Except.pure]
    have hseg : (∃ e' rest', e :: rest = e' :: rest' ∧ well_escaped e' = false) ↔ well_escaped e = false := by
      simp
    rw [hseg, hstr, ← unescape_panic_iff]
    rcases unescape_cases e with ⟨-, ⟨s, hs⟩ | hs⟩ | ⟨-, msg, hmsg⟩
    · simp [hs, bind, Except.bind]
    · simp [hs, bind, Except.bind]
    · simp [hmsg, bind, Except.bind]

theorem key_parser_panics_on_malformed :
    (∀ s : String,
      (well_escaped (as_bytes s) = true ∧
          ((∃ t, unescape (as_bytes s) = .ok t) ∨ unescape (as_bytes s) = .error .FromUtf8Error)) ∨
        (well_escaped (as_bytes s) = false ∧ ∃ msg, unescape (as_bytes s) = .error (.Panic msg))) ∧
    (∀ p : KeyParser, (∃ msg, p.next_str = .error (.Panic msg)) ↔
      ∃ e rest, p.elements = e :: rest ∧ well_escaped e = false) ∧
    (∀ s : String, well_escaped (escape (as_bytes s)) = true) ∧
    unescape (as_bytes "a%") = .error (.Panic "index out of bounds") ∧
    unescape (as_bytes "a%4") = .error (.Panic "index out of bounds") ∧
    unescape (as_bytes "%zz") = .error (.Panic "Unreachable branch num = 122") ∧
    unescape (as_bytes "%4A") = .error (.Panic "Unreachable branch num = 65") ∧
    (KeyParser.new (as_bytes "db%/t")).next_str = .error (.Panic "index out of bounds") := by
  refine ⟨fun s => unescape_cases _, KeyParser.next_str_panic_iff, fun s => well_escaped_escape _, ?_⟩
  exact ⟨rfl, rfl, rfl, rfl, rfl⟩

end UnescapePanics

end Databend.Kvapi
