import Mathlib

namespace Databend.Meta

structure KVMeta where
  expire_at : Option Nat
  deriving DecidableEq, Repr

-- `meta` is a Lean keyword: the source's `meta` fields are named `kv_meta` throughout.
structure SeqV (T : Type) where
  seq : Nat
  kv_meta : Option KVMeta
  data : T
  deriving DecidableEq, Repr

structure InternalSeq where
  seq : Nat
  tombstone : Bool
  deriving DecidableEq, Repr

namespace InternalSeq

def normal (seq : Nat) : InternalSeq := ⟨seq, false⟩

def tomb (seq : Nat) : InternalSeq := ⟨seq, true⟩

def toKey (s : InternalSeq) : Lex (Nat × Bool) := toLex (s.seq, s.tombstone)

theorem toKey_injective : Function.Injective toKey := by
  rintro ⟨a, b⟩ ⟨c, d⟩ h
  simpa [toKey] using h

-- the derived `Ord` of the source: by `seq`, then a tombstone after a normal record
instance : LinearOrder InternalSeq := LinearOrder.lift' toKey toKey_injective

theorem le_iff {a b : InternalSeq} :
    a ≤ b ↔ a.seq < b.seq ∨ (a.seq = b.seq ∧ a.tombstone ≤ b.tombstone) :=
  Prod.Lex.le_iff

theorem lt_iff {a b : InternalSeq} :
    a < b ↔ a.seq < b.seq ∨ (a.seq = b.seq ∧ a.tombstone < b.tombstone) :=
  Prod.Lex.lt_iff

end InternalSeq

inductive Marked (T : Type) where
  | TombStone (internal_seq : Nat)
  | Normal (internal_seq : Nat) (value : T) (kv_meta : Option KVMeta)
  deriving DecidableEq, Repr

namespace Marked

variable {T : Type}

def empty : Marked T := .TombStone 0

def new_tomb_stone (internal_seq : Nat) : Marked T := .TombStone internal_seq

def new_with_meta (seq : Nat) (value : T) (kv_meta : Option KVMeta) : Marked T :=
  .Normal seq value kv_meta

def internal_seq : Marked T → InternalSeq
  | .TombStone s => InternalSeq.tomb s
  | .Normal s _ _ => InternalSeq.normal s

def seq : Marked T → Nat
  | .TombStone _ => 0
  | .Normal s _ _ => s

def meta_of : Marked T → Option KVMeta
  | .TombStone _ => none
  | .Normal _ _ m => m

def not_found : Marked T → Bool
  | .TombStone 0 => true
  | _ => false

def is_tomb_stone : Marked T → Bool
  | .TombStone _ => true
  | .Normal .. => false

def is_normal : Marked T → Bool
  | .TombStone _ => false
  | .Normal .. => true

def unpack : Marked T → Option (T × Option KVMeta)
  | .TombStone _ => none
  | .Normal _ v m => some (v, m)

def max (a b : Marked T) : Marked T := if a.internal_seq > b.internal_seq then a else b

def toSeqV : Marked T → Option (SeqV T)
  | .TombStone _ => none
  | .Normal s v m => some ⟨s, m, v⟩

def ofSeqV (v : SeqV T) : Marked T := new_with_meta v.seq v.data v.kv_meta

theorem seq_eq_of_normal {m : Marked T} (h : m.is_normal = true) : m.seq = m.internal_seq.seq := by
  cases m with
  | TombStone s => cases h
  | Normal s v km => rfl

theorem not_found_of_normal {m : Marked T} (h : m.is_normal = true) : m.not_found = false := by
  cases m with
  | TombStone s => cases h
  | Normal s v km => rfl

theorem eq_of_toSeqV_eq {m m' : Marked T} (h : m.toSeqV = m'.toSeqV) (hn : m.is_normal = true) : m = m' := by
  cases m with
  | TombStone s => cases hn
  | Normal s v km =>
      cases m' with
      | TombStone s' => cases h
      | Normal s' v' km' =>
          simp only [toSeqV, Option.some.injEq, SeqV.mk.injEq] at h
          obtain ⟨rfl, rfl, rfl⟩ := h
          rfl

end Marked

-- `SeqValue::expire_at_ms`: seconds to milliseconds in wrapping `u64` arithmetic
def expire_at_ms (m : Option KVMeta) : Option Nat :=
  match m with
  | some km => km.expire_at.map (fun t => t * 1000 % 2 ^ 64)
  | none => none

def Marked.expire_at_ms {T : Type} (m : Marked T) : Option Nat := Databend.Meta.expire_at_ms m.meta_of

theorem Marked.is_normal_of_expire_at_ms {T : Type} {m : Marked T} {ms : Nat} (h : m.expire_at_ms = some ms) :
    m.is_normal = true := by
  cases m with
  | TombStone s => simp [Marked.expire_at_ms, Marked.meta_of, Databend.Meta.expire_at_ms] at h
  | Normal s v km => rfl

structure ExpireKey where
  time_ms : Nat
  seq : Nat
  deriving DecidableEq, Repr

namespace ExpireKey

def toKey (k : ExpireKey) : Lex (Nat × Nat) := toLex (k.time_ms, k.seq)

theorem toKey_injective : Function.Injective toKey := by
  rintro ⟨a, b⟩ ⟨c, d⟩ h
  simpa [toKey] using h

instance : LinearOrder ExpireKey := LinearOrder.lift' toKey toKey_injective

theorem le_iff {a b : ExpireKey} :
    a ≤ b ↔ a.time_ms < b.time_ms ∨ (a.time_ms = b.time_ms ∧ a.seq ≤ b.seq) :=
  Prod.Lex.le_iff

def is_expired (k : ExpireKey) (time_ms : Nat) : Bool := decide (time_ms > k.time_ms)

end ExpireKey

structure ExpireValue where
  seq : Nat
  key : String
  deriving DecidableEq, Repr

def Marked.toExpireValue : Marked String → Option ExpireValue
  | .TombStone _ => none
  | .Normal s v _ => some ⟨s, v⟩

def Marked.ofExpireValue (v : ExpireValue) : Marked String := Marked.new_with_meta v.seq v.key none

end Databend.Meta
