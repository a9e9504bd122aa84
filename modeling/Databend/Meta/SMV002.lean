import Databend.Meta.LeveledMap

namespace Databend.Meta

inductive MatchSeq where
  | Any
  | Exact (s : Nat)
  | GE (s : Nat)
  deriving DecidableEq, Repr

-- `MatchSeqExt::match_seq`: `Ok(())` is `true`
def MatchSeq.match_seq : MatchSeq → Nat → Bool
  | .Any, _ => true
  | .Exact s, seq => seq == s
  | .GE s, seq => decide (seq ≥ s)

inductive Operation (T : Type) where
  | Update (v : T)
  | Delete
  | AsIs
  deriving DecidableEq, Repr

structure UpsertKV where
  key : String
  seq : MatchSeq
  value : Operation (List UInt8)
  value_meta : Option KVMeta
  deriving DecidableEq, Repr

namespace UpsertKV

def update (key : String) (value : List UInt8) : UpsertKV := ⟨key, .GE 0, .Update value, none⟩

def delete (key : String) : UpsertKV := ⟨key, .GE 0, .Delete, none⟩

def get_expire_at_ms (u : UpsertKV) : Option Nat := expire_at_ms u.value_meta

end UpsertKV

def U64_MAX : Nat := 2 ^ 64 - 1

structure SMV002 (LogId Membership Node : Type) where
  levels : LeveledMap LogId Membership Node
  expire_cursor : ExpireKey

structure SnapshotViewV002 (LogId Membership Node : Type) where
  compacted : List (Level LogId Membership Node)
  original : List (Level LogId Membership Node)

namespace SnapshotViewV002

variable {LogId Membership Node : Type}

def new (top : List (Level LogId Membership Node)) : SnapshotViewV002 LogId Membership Node :=
  ⟨top, top⟩

-- `compact_mem_levels`: one level holding the normal entries of `range(..)` over all levels,
-- with the system data of the newest level
def compact_mem_levels (kmerge : ∀ {α : Type}, (α → α → Except String Bool) → List (List α) → Except String (List α))
    (v : SnapshotViewV002 LogId Membership Node) : Except String (SnapshotViewV002 LogId Membership Node) :=
  match v.compacted.getLast? with
  | none => .ok v
  | some newest =>
      if v.compacted.length ≤ 1 then .ok v
      else do
        let kv ← compacted_range kmerge Level.str_map.range none v.compacted.reverse
        let expire ← compacted_range kmerge Level.expire_map.range none v.compacted.reverse
        pure { v with compacted := [{ newest.new_level with
          kv := SortedMap.ofList (kv.filter (fun e => e.2.is_normal)),
          expire := SortedMap.ofList (expire.filter (fun e => e.2.is_normal)) }] }

end SnapshotViewV002

namespace SMV002

variable {LogId Membership Node : Type}

def default_sm [Inhabited Membership] : SMV002 LogId Membership Node := ⟨LeveledMap.default_map, ⟨0, 0⟩⟩

def curr_seq (sm : SMV002 LogId Membership Node) : Nat := sm.levels.writable.curr_seq

def get_maybe_expired_kv (sm : SMV002 LogId Membership Node) (key : String) :
    Option (SeqV (List UInt8)) :=
  (sm.levels.get Level.str_map key).toSeqV

def list_kv (kmerge : ∀ {α : Type}, (α → α → Except String Bool) → List (List α) → Except String (List α))
    (sm : SMV002 LogId Membership Node) (pre : String) : Except String (List (String × SeqV (List UInt8))) :=
  (sm.levels.range kmerge Level.str_map (some pre)).map fun strm =>
    (strm.takeWhile (fun e => e.1.startsWith pre)).filterMap (fun e => e.2.toSeqV.map (fun v => (e.1, v)))

def update_expire_cursor (sm : SMV002 LogId Membership Node) (log_time_ms : Nat) :
    SMV002 LogId Membership Node :=
  if log_time_ms < sm.expire_cursor.time_ms then sm else { sm with expire_cursor := ⟨log_time_ms, 0⟩ }

def list_expire_index (kmerge : ∀ {α : Type}, (α → α → Except String Bool) → List (List α) → Except String (List α))
    (sm : SMV002 LogId Membership Node) : Except String (List (ExpireKey × String)) :=
  (sm.levels.range kmerge Level.expire_map (some sm.expire_cursor)).map fun strm =>
    strm.filterMap (fun e => e.2.unpack.map (fun p => (e.1, p.1)))

def full_snapshot_view (sm : SMV002 LogId Membership Node) :
    SMV002 LogId Membership Node × SnapshotViewV002 LogId Membership Node :=
  let levels := sm.levels.freeze_writable
  ({ sm with levels }, SnapshotViewV002.new levels.frozen)

-- the source asserts that `snapshot` was taken of the current frozen levels
def replace_frozen (sm : SMV002 LogId Membership Node) (snapshot : SnapshotViewV002 LogId Membership Node) :
    SMV002 LogId Membership Node :=
  { sm with levels := sm.levels.replace_frozen snapshot.compacted }

def upsert_kv_primary_index (sm : SMV002 LogId Membership Node) (upsert_kv : UpsertKV) :
    SMV002 LogId Membership Node × (Marked (List UInt8) × Marked (List UInt8)) :=
  let prev := sm.levels.get Level.str_map upsert_kv.key
  if !upsert_kv.seq.match_seq prev.seq then (sm, (prev, prev))
  else
    let r := match upsert_kv.value with
      | .Update v => sm.levels.set Level.str_map upsert_kv.key (some (v, upsert_kv.value_meta))
      | .Delete => sm.levels.set Level.str_map upsert_kv.key none
      | .AsIs => sm.levels.update_meta Level.str_map upsert_kv.key upsert_kv.value_meta
    let expire_ms := upsert_kv.get_expire_at_ms.getD U64_MAX
    -- an already expired record is written and then deleted at once
    if expire_ms < sm.expire_cursor.time_ms then
      let d := r.1.set Level.str_map upsert_kv.key none
      ({ sm with levels := d.1 }, (r.2.1, d.2.2))
    else ({ sm with levels := r.1 }, r.2)

def update_expire_index (sm : SMV002 LogId Membership Node) (key : String)
    (removed added : Marked (List UInt8)) : SMV002 LogId Membership Node :=
  if removed = added then sm
  else
    let levels := match removed.expire_at_ms with
      | some exp_ms => (sm.levels.set Level.expire_map ⟨exp_ms, removed.internal_seq.seq⟩ none).1
      | none => sm.levels
    let levels := match added.expire_at_ms with
      | some exp_ms => (levels.set Level.expire_map ⟨exp_ms, added.internal_seq.seq⟩ (some (key, none))).1
      | none => levels
    { sm with levels }

end SMV002

end Databend.Meta
