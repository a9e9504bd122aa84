import Mathlib
import Databend.Library.SortedMap
import Databend.Meta.Marked

namespace Databend.Meta

structure StoredMembership (LogId Membership : Type) where
  log_id : Option LogId
  membership : Membership

structure SysData (LogId Membership Node : Type) where
  last_applied : Option LogId
  last_membership : StoredMembership LogId Membership
  nodes : SortedMap Nat Node
  sequence : Nat

structure Level (LogId Membership Node : Type) where
  sys_data : SysData LogId Membership Node
  kv : SortedMap String (Marked (List UInt8))
  expire : SortedMap ExpireKey (Marked String)

structure MapApi (L K V : Type) [LinearOrder K] where
  map : L → SortedMap K (Marked V)
  set : L → K → Option (V × Option KVMeta) → L × (Marked V × Marked V)

def rangeOf {K V : Type} [LinearOrder K] (m : SortedMap K V) : Option K → List (K × V)
  | none => m.entries
  | some lo => m.rangeFrom lo

namespace MapApi

variable {L K V : Type} [LinearOrder K]

def get (api : MapApi L K V) (l : L) (key : K) : Marked V := ((api.map l).get key).getD Marked.empty

def range (api : MapApi L K V) (l : L) (lo : Option K) : List (K × Marked V) := rangeOf (api.map l) lo

end MapApi

namespace Level

variable {LogId Membership Node : Type}

def sys_data_default [Inhabited Membership] : SysData LogId Membership Node :=
  ⟨none, ⟨none, default⟩, SortedMap.empty, 0⟩

def default_level [Inhabited Membership] : Level LogId Membership Node :=
  ⟨sys_data_default, SortedMap.empty, SortedMap.empty⟩

def curr_seq (l : Level LogId Membership Node) : Nat := l.sys_data.sequence

def next_seq (l : Level LogId Membership Node) : Level LogId Membership Node :=
  { l with sys_data := { l.sys_data with sequence := l.sys_data.sequence + 1 } }

def new_level (l : Level LogId Membership Node) : Level LogId Membership Node :=
  ⟨l.sys_data, SortedMap.empty, SortedMap.empty⟩

def str_get (l : Level LogId Membership Node) (key : String) : Marked (List UInt8) :=
  (l.kv.get key).getD Marked.empty

def expire_get (l : Level LogId Membership Node) (key : ExpireKey) : Marked String :=
  (l.expire.get key).getD Marked.empty

-- a normal value takes `next_seq`, a tombstone the unchanged `curr_seq`
def str_set (l : Level LogId Membership Node) (key : String)
    (value : Option (List UInt8 × Option KVMeta)) :
    Level LogId Membership Node × (Marked (List UInt8) × Marked (List UInt8)) :=
  let (l, marked) := match value with
    | some (v, m) => (l.next_seq, Marked.new_with_meta (l.next_seq.curr_seq) v m)
    | none => (l, Marked.new_tomb_stone l.curr_seq)
  let prev := l.str_get key
  ({ l with kv := l.kv.insert key marked }, (prev, marked))

-- every expire-index write, normal or tombstone, takes the unchanged `curr_seq`;
-- `Marked::from((seq, v, meta))` asserts `seq != 0`, see `expire_index_seq_pos`
def expire_set (l : Level LogId Membership Node) (key : ExpireKey)
    (value : Option (String × Option KVMeta)) :
    Level LogId Membership Node × (Marked String × Marked String) :=
  let seq := l.curr_seq
  let marked := match value with
    | some (v, m) => Marked.new_with_meta seq v m
    | none => Marked.TombStone seq
  let prev := l.expire_get key
  ({ l with expire := l.expire.insert key marked }, (prev, marked))

def str_map : MapApi (Level LogId Membership Node) String (List UInt8) := ⟨kv, str_set⟩

def expire_map : MapApi (Level LogId Membership Node) ExpireKey String := ⟨expire, expire_set⟩

@[simp] theorem curr_seq_next_seq (l : Level LogId Membership Node) :
    l.next_seq.curr_seq = l.curr_seq + 1 := rfl

@[simp] theorem curr_seq_new_level (l : Level LogId Membership Node) :
    l.new_level.curr_seq = l.curr_seq := rfl

@[simp] theorem new_level_kv (l : Level LogId Membership Node) : l.new_level.kv = SortedMap.empty := rfl

@[simp] theorem new_level_expire (l : Level LogId Membership Node) :
    l.new_level.expire = SortedMap.empty := rfl

theorem str_set_result (l : Level LogId Membership Node) (key : String)
    (value : Option (List UInt8 × Option KVMeta)) :
    (l.str_set key value).2.2 = match value with
      | some (v, m) => Marked.Normal (l.curr_seq + 1) v m
      | none => Marked.TombStone l.curr_seq := by
  cases value <;> rfl

theorem str_set_kv (l : Level LogId Membership Node) (key : String)
    (value : Option (List UInt8 × Option KVMeta)) :
    (l.str_set key value).1.kv = l.kv.insert key (l.str_set key value).2.2 := by
  cases value <;> rfl

@[simp] theorem str_set_expire (l : Level LogId Membership Node) (key : String)
    (value : Option (List UInt8 × Option KVMeta)) : (l.str_set key value).1.expire = l.expire := by
  cases value <;> rfl

theorem str_set_curr_seq (l : Level LogId Membership Node) (key : String)
    (value : Option (List UInt8 × Option KVMeta)) :
    (l.str_set key value).1.curr_seq = if value.isSome then l.curr_seq + 1 else l.curr_seq := by
  cases value <;> rfl

theorem expire_set_expire (l : Level LogId Membership Node) (key : ExpireKey)
    (value : Option (String × Option KVMeta)) :
    (l.expire_set key value).1.expire = l.expire.insert key (l.expire_set key value).2.2 := rfl

@[simp] theorem expire_set_kv (l : Level LogId Membership Node) (key : ExpireKey)
    (value : Option (String × Option KVMeta)) : (l.expire_set key value).1.kv = l.kv := rfl

@[simp] theorem expire_set_curr_seq (l : Level LogId Membership Node) (key : ExpireKey)
    (value : Option (String × Option KVMeta)) :
    (l.expire_set key value).1.curr_seq = l.curr_seq := rfl

end Level

end Databend.Meta
