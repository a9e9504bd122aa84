import Databend.Meta.SMV002

namespace Databend.Meta

inductive Target where
  | Seq (seq : Nat)
  | Value (value : List UInt8)
  deriving DecidableEq, Repr

structure TxnCondition where
  key : String
  expected : Int
  target : Option Target
  deriving DecidableEq, Repr

inductive TxnOpRequest where
  | Get (key : String)
  | Put (key : String) (value : List UInt8) (prev_value : Bool) (expire_at : Option Nat)
  | Delete (key : String) (prev_value : Bool) (match_seq : Option Nat)
  | DeleteByPrefix (pre : String)
  deriving DecidableEq, Repr

structure TxnRequest where
  condition : List TxnCondition
  if_then : List (Option TxnOpRequest)
  else_then : List (Option TxnOpRequest)
  deriving DecidableEq, Repr

inductive TxnOpResponse where
  | Get (key : String) (value : Option (SeqV (List UInt8)))
  | Put (key : String) (prev_value : Option (SeqV (List UInt8)))
  | Delete (key : String) (success : Bool) (prev_value : Option (SeqV (List UInt8)))
  | DeleteByPrefix (pre : String) (count : Nat)
  deriving DecidableEq, Repr

structure TxnReply where
  success : Bool
  error : String
  responses : List TxnOpResponse
  deriving DecidableEq, Repr

inductive Cmd (Node : Type) where
  | AddNode (node_id : Nat) (node : Node) (overriding : Bool)
  | RemoveNode (node_id : Nat)
  | UpsertKV (upsert_kv : UpsertKV)
  | Transaction (txn : TxnRequest)

structure LogEntry (Node : Type) where
  txid : Option (String × Nat)
  time_ms : Option Nat
  cmd : Cmd Node

inductive EntryPayload (Membership Node : Type) where
  | Blank
  | Normal (data : LogEntry Node)
  | Membership (mem : Membership)

structure Entry (LogId Membership Node : Type) where
  log_id : LogId
  payload : EntryPayload Membership Node

inductive AppliedState (Node : Type) where
  | Node (prev result : Option Node)
  | KV (prev result : Option (SeqV (List UInt8)))
  | TxnReply (reply : TxnReply)
  | None

namespace Applier

variable {LogId Membership Node : Type}

section

variable (kmerge : ∀ {α : Type}, (α → α → Except String Bool) → List (List α) → Except String (List α))

def modify_sys_data (sm : SMV002 LogId Membership Node)
    (f : SysData LogId Membership Node → SysData LogId Membership Node) : SMV002 LogId Membership Node :=
  { sm with levels := { sm.levels with writable := { sm.levels.writable with sys_data := f sm.levels.writable.sys_data } } }

def upsert_kv (sm : SMV002 LogId Membership Node) (upsert_kv : UpsertKV) :
    SMV002 LogId Membership Node × (Option (SeqV (List UInt8)) × Option (SeqV (List UInt8))) :=
  let r := sm.upsert_kv_primary_index upsert_kv
  let sm := r.1.update_expire_index upsert_kv.key r.2.1 r.2.2
  (sm, (r.2.1.toSeqV, r.2.2.toSeqV))

def apply_add_node (sm : SMV002 LogId Membership Node) (node_id : Nat) (node : Node) (overriding : Bool) :
    SMV002 LogId Membership Node × AppliedState Node :=
  let prev := sm.levels.writable.sys_data.nodes.get node_id
  if prev.isNone || overriding then
    (modify_sys_data sm (fun d => { d with nodes := d.nodes.insert node_id node }), .Node prev (some node))
  else (sm, .Node prev prev)

def apply_remove_node (sm : SMV002 LogId Membership Node) (node_id : Nat) :
    SMV002 LogId Membership Node × AppliedState Node :=
  let prev := sm.levels.writable.sys_data.nodes.get node_id
  (modify_sys_data sm (fun d => { d with nodes := d.nodes.erase node_id }), .Node prev none)

def eval_seq_condition (left : Nat) (op : Int) (right : Nat) : Bool :=
  match op with
  | 0 => left == right
  | 1 => decide (left > right)
  | 2 => decide (left ≥ right)
  | 3 => decide (left < right)
  | 4 => decide (left ≤ right)
  | 5 => left != right
  | _ => false

def eval_value_condition (left : List UInt8) (op : Int) (right : List UInt8) : Bool :=
  match op with
  | 0 => left == right
  | 1 => decide (left > right)
  | 2 => decide (left ≥ right)
  | 3 => decide (left < right)
  | 4 => decide (left ≤ right)
  | 5 => left != right
  | _ => false

def eval_one_condition (sm : SMV002 LogId Membership Node) (cond : TxnCondition) : Bool :=
  let seqv := sm.get_maybe_expired_kv cond.key
  match cond.target with
  | none => false
  | some (.Seq right) => eval_seq_condition ((seqv.map (·.seq)).getD 0) cond.expected right
  | some (.Value right) =>
      match seqv with
      | some v => eval_value_condition v.data cond.expected right
      | none => false

def eval_txn_conditions (sm : SMV002 LogId Membership Node) (condition : List TxnCondition) : Bool :=
  condition.all (eval_one_condition sm)

def txn_execute_delete_by_prefix (sm : SMV002 LogId Membership Node) (pre : String) :
    Except String (SMV002 LogId Membership Node × TxnOpResponse) := do
  let keys := (← sm.list_kv kmerge pre).map (·.1)
  let sm := keys.foldl (fun sm key => (upsert_kv sm (UpsertKV.delete key)).1) sm
  pure (sm, .DeleteByPrefix pre keys.length)

def txn_execute_operation (sm : SMV002 LogId Membership Node) (op : Option TxnOpRequest) :
    Except String (SMV002 LogId Membership Node × List TxnOpResponse) :=
  match op with
  | none => .ok (sm, [])
  | some (.Get key) => .ok (sm, [.Get key (sm.get_maybe_expired_kv key)])
  | some (.Put key value prev_value expire_at) =>
      let r := upsert_kv sm { UpsertKV.update key value with value_meta := some ⟨expire_at⟩ }
      .ok (r.1, [.Put key (if prev_value then r.2.1 else none)])
  | some (.Delete key prev_value match_seq) =>
      let upsert := match match_seq with
        | some seq => { UpsertKV.delete key with seq := .Exact seq }
        | none => UpsertKV.delete key
      let r := upsert_kv sm upsert
      .ok (r.1, [.Delete key (r.2.1.isSome && r.2.2.isNone) (if prev_value then r.2.1 else none)])
  | some (.DeleteByPrefix pre) => do
      let r ← txn_execute_delete_by_prefix kmerge sm pre
      pure (r.1, [r.2])

def apply_txn (sm : SMV002 LogId Membership Node) (req : TxnRequest) :
    Except String (SMV002 LogId Membership Node × AppliedState Node) := do
  let success := eval_txn_conditions sm req.condition
  let ops := if success then req.if_then else req.else_then
  let r ← ops.foldlM (fun acc op => do
    let s ← txn_execute_operation kmerge acc.1 op
    pure (s.1, acc.2 ++ s.2)) (sm, [])
  pure (r.1, .TxnReply ⟨success, "", r.2⟩)

def apply_cmd (sm : SMV002 LogId Membership Node) (cmd : Cmd Node) :
    Except String (SMV002 LogId Membership Node × AppliedState Node) :=
  match cmd with
  | .AddNode node_id node overriding => .ok (apply_add_node sm node_id node overriding)
  | .RemoveNode node_id => .ok (apply_remove_node sm node_id)
  | .UpsertKV u =>
      let r := upsert_kv sm u
      .ok (r.1, .KV r.2.1 r.2.2)
  | .Transaction txn => apply_txn kmerge sm txn

-- one cleaning step; the two failures are the `assert_eq!` and the `unreachable!` of the source
def clean_one (sm : SMV002 LogId Membership Node) (e : ExpireKey × String) :
    Except String (SMV002 LogId Membership Node) :=
  match sm.get_maybe_expired_kv e.2 with
  | some seq_v =>
      if e.1.seq = seq_v.seq then .ok (upsert_kv sm (UpsertKV.delete e.2)).1
      else .error "assertion failed: expire_key.seq == seq_v.seq"
  | none => .error "trying to remove un-cleanable"

def clean_expired_kvs (log_time_ms : Nat) (sm : SMV002 LogId Membership Node) :
    Except String (SMV002 LogId Membership Node) :=
  if log_time_ms = 0 then .ok sm
  else do
    let to_clean := (← sm.list_expire_index kmerge).takeWhile (fun e => e.1.is_expired log_time_ms)
    (to_clean.foldlM clean_one sm).map (fun sm => sm.update_expire_cursor log_time_ms)

def get_log_time (entry : Entry LogId Membership Node) : Nat :=
  match entry.payload with
  | .Normal data => data.time_ms.getD 0
  | _ => 0

def apply (entry : Entry LogId Membership Node) (sm : SMV002 LogId Membership Node) :
    Except String (SMV002 LogId Membership Node × AppliedState Node) := do
  let sm ← clean_expired_kvs kmerge (get_log_time entry) sm
  let sm := modify_sys_data sm (fun d => { d with last_applied := some entry.log_id })
  match entry.payload with
  | .Blank => pure (sm, .None)
  | .Normal data =>
      if data.txid.isSome then throw "txid is disabled"
      else apply_cmd kmerge sm data.cmd
  | .Membership mem =>
      pure (modify_sys_data sm (fun d => { d with last_membership := ⟨some entry.log_id, mem⟩ }), .None)

end

end Applier

end Databend.Meta
