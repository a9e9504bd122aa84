import Databend.Kvapi.KeyCodec

namespace Databend.App

open Databend.Kvapi

section Prefixes

def PREFIX_TABLE : String := "__fd_table"
def PREFIX_TABLE_BY_ID : String := "__fd_table_by_id"
def PREFIX_TABLE_ID_LIST : String := "__fd_table_id_list"
def PREFIX_TABLE_COUNT : String := "__fd_table_count"
def PREFIX_TABLE_ID_TO_NAME : String := "__fd_table_id_to_name"
def PREFIX_TABLE_COPIED_FILES_LOCK : String := "__fd_table_copied_file_lock"
def PREFIX_TABLE_LOCK : String := "__fd_table_lock"
def PREFIX_TABLE_LVT : String := "__fd_table_lvt"
def PREFIX_SHARE : String := "__fd_share"
def PREFIX_SHARE_BY : String := "__fd_share_by"
def PREFIX_SHARE_ID : String := "__fd_share_id"
def PREFIX_SHARE_ID_TO_NAME : String := "__fd_share_id_to_name"
def PREFIX_SHARE_ACCOUNT_ID : String := "__fd_share_account_id"
def PREFIX_SHARE_ENDPOINT : String := "__fd_share_endpoint"
def PREFIX_SHARE_ENDPOINT_ID : String := "__fd_share_endpoint_id"
def PREFIX_SHARE_ENDPOINT_ID_TO_NAME : String := "__fd_share_endpoint_id_to_name"

end Prefixes

section Shapes

def id_key_to_string (pfx : String) (id : UInt64) : List UInt8 :=
  ((KeyBuilder.new_prefixed (as_bytes pfx)).push_u64 id).done

def id_key_from_str (pfx : String) (s : List UInt8) : Except KeyError UInt64 := do
  let p ← KeyParser.new_prefixed s (as_bytes pfx)
  let (id, p) ← p.next_u64
  p.done
  pure id

def id_name_key_to_string (pfx : String) (id : UInt64) (name : String) : List UInt8 :=
  (((KeyBuilder.new_prefixed (as_bytes pfx)).push_u64 id).push_str name).done

def id_name_key_from_str (pfx : String) (s : List UInt8) : Except KeyError (UInt64 × String) := do
  let p ← KeyParser.new_prefixed s (as_bytes pfx)
  let (id, p) ← p.next_u64
  let (name, p) ← p.next_str
  p.done
  pure (id, name)

def name_name_key_to_string (pfx : String) (name1 name2 : String) : List UInt8 :=
  (((KeyBuilder.new_prefixed (as_bytes pfx)).push_str name1).push_str name2).done

def name_name_key_from_str (pfx : String) (s : List UInt8) : Except KeyError (String × String) := do
  let p ← KeyParser.new_prefixed s (as_bytes pfx)
  let (name1, p) ← p.next_str
  let (name2, p) ← p.next_str
  p.done
  pure (name1, name2)

end Shapes

section TableKeys

structure DBIdTableName where
  db_id : UInt64
  table_name : String
  deriving DecidableEq, Repr

def DBIdTableName.to_string_key (k : DBIdTableName) : List UInt8 :=
  id_name_key_to_string PREFIX_TABLE k.db_id k.table_name

def DBIdTableName.from_str_key (s : List UInt8) : Except KeyError DBIdTableName :=
  (id_name_key_from_str PREFIX_TABLE s).map (fun r => ⟨r.1, r.2⟩)

structure TableIdToName where
  table_id : UInt64
  deriving DecidableEq, Repr

def TableIdToName.to_string_key (k : TableIdToName) : List UInt8 := id_key_to_string PREFIX_TABLE_ID_TO_NAME k.table_id

def TableIdToName.from_str_key (s : List UInt8) : Except KeyError TableIdToName :=
  (id_key_from_str PREFIX_TABLE_ID_TO_NAME s).map TableIdToName.mk

structure TableId where
  table_id : UInt64
  deriving DecidableEq, Repr

def TableId.to_string_key (k : TableId) : List UInt8 := id_key_to_string PREFIX_TABLE_BY_ID k.table_id

def TableId.from_str_key (s : List UInt8) : Except KeyError TableId :=
  (id_key_from_str PREFIX_TABLE_BY_ID s).map TableId.mk

structure TableIdListKey where
  db_id : UInt64
  table_name : String
  deriving DecidableEq, Repr

def TableIdListKey.to_string_key (k : TableIdListKey) : List UInt8 :=
  id_name_key_to_string PREFIX_TABLE_ID_LIST k.db_id k.table_name

def TableIdListKey.from_str_key (s : List UInt8) : Except KeyError TableIdListKey :=
  (id_name_key_from_str PREFIX_TABLE_ID_LIST s).map (fun r => ⟨r.1, r.2⟩)

structure CountTablesKey where
  tenant : String
  deriving DecidableEq, Repr

-- the tenant is pushed raw but read back with `next_str`, which unescapes it
def CountTablesKey.to_string_key (k : CountTablesKey) : List UInt8 :=
  ((KeyBuilder.new_prefixed (as_bytes PREFIX_TABLE_COUNT)).push_raw (as_bytes k.tenant)).done

def CountTablesKey.from_str_key (s : List UInt8) : Except KeyError CountTablesKey := do
  let p ← KeyParser.new_prefixed s (as_bytes PREFIX_TABLE_COUNT)
  let (tenant, p) ← p.next_str
  p.done
  pure ⟨tenant⟩

structure TableCopiedFileLockKey where
  table_id : UInt64
  deriving DecidableEq, Repr

def TableCopiedFileLockKey.to_string_key (k : TableCopiedFileLockKey) : List UInt8 :=
  id_key_to_string PREFIX_TABLE_COPIED_FILES_LOCK k.table_id

def TableCopiedFileLockKey.from_str_key (s : List UInt8) : Except KeyError TableCopiedFileLockKey :=
  (id_key_from_str PREFIX_TABLE_COPIED_FILES_LOCK s).map TableCopiedFileLockKey.mk

structure TableLockKey where
  table_id : UInt64
  revision : UInt64
  deriving DecidableEq, Repr

def TableLockKey.to_string_key (k : TableLockKey) : List UInt8 :=
  (((KeyBuilder.new_prefixed (as_bytes PREFIX_TABLE_LOCK)).push_u64 k.table_id).push_u64 k.revision).done

def TableLockKey.from_str_key (s : List UInt8) : Except KeyError TableLockKey := do
  let p ← KeyParser.new_prefixed s (as_bytes PREFIX_TABLE_LOCK)
  let (table_id, p) ← p.next_u64
  let (revision, p) ← p.next_u64
  p.done
  pure ⟨table_id, revision⟩

structure LeastVisibleTimeKey where
  table_id : UInt64
  deriving DecidableEq, Repr

def LeastVisibleTimeKey.to_string_key (k : LeastVisibleTimeKey) : List UInt8 :=
  id_key_to_string PREFIX_TABLE_LVT k.table_id

def LeastVisibleTimeKey.from_str_key (s : List UInt8) : Except KeyError LeastVisibleTimeKey :=
  (id_key_from_str PREFIX_TABLE_LVT s).map LeastVisibleTimeKey.mk

end TableKeys

section ShareKeys

inductive ShareGrantObject where
  | Database (db_id : UInt64)
  | Table (table_id : UInt64)
  deriving DecidableEq, Repr

def ShareGrantObject.to_string_key : ShareGrantObject → List UInt8
  | .Database db_id =>
      (((KeyBuilder.new_prefixed (as_bytes PREFIX_SHARE_BY)).push_raw (as_bytes "db")).push_u64 db_id).done
  | .Table table_id =>
      (((KeyBuilder.new_prefixed (as_bytes PREFIX_SHARE_BY)).push_raw (as_bytes "table")).push_u64 table_id).done

def ShareGrantObject.from_str_key (s : List UInt8) : Except KeyError ShareGrantObject := do
  let p ← KeyParser.new_prefixed s (as_bytes PREFIX_SHARE_BY)
  let (kind, p) ← p.next_raw
  let (id, p) ← p.next_u64
  p.done
  if kind = as_bytes "db" then pure (.Database id)
  else if kind = as_bytes "table" then pure (.Table id)
  else throw (.InvalidSegment 1 (as_bytes "db or table") kind)

structure ShareNameIdent where
  tenant : String
  share_name : String
  deriving DecidableEq, Repr

def ShareNameIdent.to_string_key (k : ShareNameIdent) : List UInt8 :=
  name_name_key_to_string PREFIX_SHARE k.tenant k.share_name

def ShareNameIdent.from_str_key (s : List UInt8) : Except KeyError ShareNameIdent :=
  (name_name_key_from_str PREFIX_SHARE s).map (fun r => ⟨r.1, r.2⟩)

structure ShareId where
  share_id : UInt64
  deriving DecidableEq, Repr

def ShareId.to_string_key (k : ShareId) : List UInt8 := id_key_to_string PREFIX_SHARE_ID k.share_id

def ShareId.from_str_key (s : List UInt8) : Except KeyError ShareId :=
  (id_key_from_str PREFIX_SHARE_ID s).map ShareId.mk

structure ShareAccountNameIdent where
  account : String
  share_id : UInt64
  deriving DecidableEq, Repr

-- a zero `share_id` gives the listing prefix of the account's keys
def ShareAccountNameIdent.to_string_key (k : ShareAccountNameIdent) : List UInt8 :=
  if k.share_id ≠ 0 then
    (((KeyBuilder.new_prefixed (as_bytes PREFIX_SHARE_ACCOUNT_ID)).push_str k.account).push_u64 k.share_id).done
  else ((KeyBuilder.new_prefixed (as_bytes PREFIX_SHARE_ACCOUNT_ID)).push_str k.account).done

def ShareAccountNameIdent.from_str_key (s : List UInt8) : Except KeyError ShareAccountNameIdent := do
  let p ← KeyParser.new_prefixed s (as_bytes PREFIX_SHARE_ACCOUNT_ID)
  let (account, p) ← p.next_str
  let (share_id, p) ← p.next_u64
  p.done
  pure ⟨account, share_id⟩

structure ShareIdToName where
  share_id : UInt64
  deriving DecidableEq, Repr

def ShareIdToName.to_string_key (k : ShareIdToName) : List UInt8 := id_key_to_string PREFIX_SHARE_ID_TO_NAME k.share_id

def ShareIdToName.from_str_key (s : List UInt8) : Except KeyError ShareIdToName :=
  (id_key_from_str PREFIX_SHARE_ID_TO_NAME s).map ShareIdToName.mk

structure ShareEndpointIdent where
  tenant : String
  endpoint : String
  deriving DecidableEq, Repr

def ShareEndpointIdent.to_string_key (k : ShareEndpointIdent) : List UInt8 :=
  name_name_key_to_string PREFIX_SHARE_ENDPOINT k.tenant k.endpoint

def ShareEndpointIdent.from_str_key (s : List UInt8) : Except KeyError ShareEndpointIdent :=
  (name_name_key_from_str PREFIX_SHARE_ENDPOINT s).map (fun r => ⟨r.1, r.2⟩)

structure ShareEndpointId where
  share_endpoint_id : UInt64
  deriving DecidableEq, Repr

def ShareEndpointId.to_string_key (k : ShareEndpointId) : List UInt8 :=
  id_key_to_string PREFIX_SHARE_ENDPOINT_ID k.share_endpoint_id

def ShareEndpointId.from_str_key (s : List UInt8) : Except KeyError ShareEndpointId :=
  (id_key_from_str PREFIX_SHARE_ENDPOINT_ID s).map ShareEndpointId.mk

structure ShareEndpointIdToName where
  share_endpoint_id : UInt64
  deriving DecidableEq, Repr

def ShareEndpointIdToName.to_string_key (k : ShareEndpointIdToName) : List UInt8 :=
  id_key_to_string PREFIX_SHARE_ENDPOINT_ID_TO_NAME k.share_endpoint_id

def ShareEndpointIdToName.from_str_key (s : List UInt8) : Except KeyError ShareEndpointIdToName :=
  (id_key_from_str PREFIX_SHARE_ENDPOINT_ID_TO_NAME s).map ShareEndpointIdToName.mk

end ShareKeys

section RoundTrips

theorem push_raw_new_prefixed {pfx : List UInt8} (hp0 : pfx ≠ []) (s : List UInt8) :
    ((KeyBuilder.new_prefixed pfx).push_raw s).buf = pfx ++ 0x2f :: s := by
  rw [KeyBuilder.push_raw_buf (by rwa [KeyBuilder.new_prefixed_buf]), KeyBuilder.new_prefixed_buf]

theorem push_raw_push_raw_new_prefixed {pfx : List UInt8} (hp0 : pfx ≠ []) (s t : List UInt8) :
    (((KeyBuilder.new_prefixed pfx).push_raw s).push_raw t).buf = pfx ++ 0x2f :: (s ++ 0x2f :: t) := by
  rw [KeyBuilder.push_raw_buf (by rw [push_raw_new_prefixed hp0]; simp), push_raw_new_prefixed hp0]
  simp

theorem new_prefixed_one {pfx s : List UInt8} (hp : (0x2f : UInt8) ∉ pfx) (hs : (0x2f : UInt8) ∉ s) :
    ∃ p, KeyParser.new_prefixed (pfx ++ 0x2f :: s) pfx = .ok p ∧ p.elements = [s] := by
  obtain ⟨p, h, e⟩ := KeyParser.new_prefixed_ok hp s
  exact ⟨p, h, e.trans (List.splitOn_eq_singleton hs)⟩

theorem new_prefixed_two {pfx s t : List UInt8} (hp : (0x2f : UInt8) ∉ pfx) (hs : (0x2f : UInt8) ∉ s)
    (ht : (0x2f : UInt8) ∉ t) :
    ∃ p, KeyParser.new_prefixed (pfx ++ 0x2f :: (s ++ 0x2f :: t)) pfx = .ok p ∧ p.elements = [s, t] := by
  obtain ⟨p, h, e⟩ := KeyParser.new_prefixed_ok hp (s ++ 0x2f :: t)
  refine ⟨p, h, ?_⟩
  rw [e, List.splitOn_append_cons_self_of_not_mem hs, List.splitOn_eq_singleton ht]

section Shapes

variable {pfx : String} (hp0 : as_bytes pfx ≠ []) (hp : (0x2f : UInt8) ∉ as_bytes pfx)
include hp0 hp

theorem id_key_round_trip (id : UInt64) : id_key_from_str pfx (id_key_to_string pfx id) = .ok id := by
  have hkey : id_key_to_string pfx id = as_bytes pfx ++ 0x2f :: Decimal.digits id.toNat :=
    push_raw_new_prefixed hp0 _
  obtain ⟨p1, h1, e1⟩ := new_prefixed_one hp (slash_not_mem_digits id.toNat)
  obtain ⟨p2, h2, e2⟩ := KeyParser.next_u64_digits e1
  simp [id_key_from_str, hkey, h1, h2, KeyParser.done_nil e2, bind, Except.bind, pure, Except.pure]

theorem id_name_key_round_trip (id : UInt64) (name : String) :
    id_name_key_from_str pfx (id_name_key_to_string pfx id name) = .ok (id, name) := by
  have hkey : id_name_key_to_string pfx id name =
      as_bytes pfx ++ 0x2f :: (Decimal.digits id.toNat ++ 0x2f :: escape (as_bytes name)) :=
    push_raw_push_raw_new_prefixed hp0 _ _
  obtain ⟨p1, h1, e1⟩ := new_prefixed_two hp (slash_not_mem_digits id.toNat) (slash_not_mem_escape (as_bytes name))
  obtain ⟨p2, h2, e2⟩ := KeyParser.next_u64_digits e1
  obtain ⟨p3, h3, e3⟩ := KeyParser.next_str_escape e2
  simp [id_name_key_from_str, hkey, h1, h2, h3, KeyParser.done_nil e3, bind, Except.bind, pure, Except.pure]

theorem name_name_key_round_trip (name1 name2 : String) :
    name_name_key_from_str pfx (name_name_key_to_string pfx name1 name2) = .ok (name1, name2) := by
  have hkey : name_name_key_to_string pfx name1 name2 =
      as_bytes pfx ++ 0x2f :: (escape (as_bytes name1) ++ 0x2f :: escape (as_bytes name2)) :=
    push_raw_push_raw_new_prefixed hp0 _ _
  obtain ⟨p1, h1, e1⟩ :=
    new_prefixed_two hp (slash_not_mem_escape (as_bytes name1)) (slash_not_mem_escape (as_bytes name2))
  obtain ⟨p2, h2, e2⟩ := KeyParser.next_str_escape e1
  obtain ⟨p3, h3, e3⟩ := KeyParser.next_str_escape e2
  simp [name_name_key_from_str, hkey, h1, h2, h3, KeyParser.done_nil e3, bind, Except.bind, pure, Except.pure]

end Shapes

theorem table_lock_key_round_trip (k : TableLockKey) : TableLockKey.from_str_key k.to_string_key = .ok k := by
  have hkey : k.to_string_key = as_bytes PREFIX_TABLE_LOCK ++
      0x2f :: (Decimal.digits k.table_id.toNat ++ 0x2f :: Decimal.digits k.revision.toNat) :=
    push_raw_push_raw_new_prefixed (by decide) _ _
  obtain ⟨p1, h1, e1⟩ := new_prefixed_two (by decide : (0x2f : UInt8) ∉ as_bytes PREFIX_TABLE_LOCK)
    (slash_not_mem_digits k.table_id.toNat) (slash_not_mem_digits k.revision.toNat)
  obtain ⟨p2, h2, e2⟩ := KeyParser.next_u64_digits e1
  obtain ⟨p3, h3, e3⟩ := KeyParser.next_u64_digits e2
  simp [TableLockKey.from_str_key, hkey, h1, h2, h3, KeyParser.done_nil e3, bind, Except.bind, pure, Except.pure]

theorem share_grant_object_round_trip (o : ShareGrantObject) :
    ShareGrantObject.from_str_key o.to_string_key = .ok o := by
  have hp : (0x2f : UInt8) ∉ as_bytes PREFIX_SHARE_BY := by decide
  cases o with
  | Database db_id =>
      have hkey : (ShareGrantObject.Database db_id).to_string_key =
          as_bytes PREFIX_SHARE_BY ++ 0x2f :: (as_bytes "db" ++ 0x2f :: Decimal.digits db_id.toNat) :=
        push_raw_push_raw_new_prefixed (by decide) _ _
      obtain ⟨p1, h1, e1⟩ := new_prefixed_two hp (by decide : (0x2f : UInt8) ∉ as_bytes "db")
        (slash_not_mem_digits db_id.toNat)
      obtain ⟨p2, h2, e2⟩ := KeyParser.next_raw_cons e1
      obtain ⟨p3, h3, e3⟩ := KeyParser.next_u64_digits e2
      simp [ShareGrantObject.from_str_key, hkey, h1, h2, h3, KeyParser.done_nil e3, bind, Except.bind,
        pure, Except.pure]
  | Table table_id =>
      have hkey : (ShareGrantObject.Table table_id).to_string_key =
          as_bytes PREFIX_SHARE_BY ++ 0x2f :: (as_bytes "table" ++ 0x2f :: Decimal.digits table_id.toNat) :=
        push_raw_push_raw_new_prefixed (by decide) _ _
      have hne : as_bytes "table" ≠ as_bytes "db" := by decide
      obtain ⟨p1, h1, e1⟩ := new_prefixed_two hp (by decide : (0x2f : UInt8) ∉ as_bytes "table")
        (slash_not_mem_digits table_id.toNat)
      obtain ⟨p2, h2, e2⟩ := KeyParser.next_raw_cons e1
      obtain ⟨p3, h3, e3⟩ := KeyParser.next_u64_digits e2
      simp [ShareGrantObject.from_str_key, hkey, h1, h2, h3, hne, KeyParser.done_nil e3, bind, Except.bind,
        pure, Except.pure]

theorem share_account_name_ident_round_trip_iff (k : ShareAccountNameIdent) :
    ShareAccountNameIdent.from_str_key k.to_string_key = .ok k ↔ k.share_id ≠ 0 := by
  have hp : (0x2f : UInt8) ∉ as_bytes PREFIX_SHARE_ACCOUNT_ID := by decide
  by_cases h0 : k.share_id = 0
  · have hkey : k.to_string_key = as_bytes PREFIX_SHARE_ACCOUNT_ID ++ 0x2f :: escape (as_bytes k.account) := by
      rw [ShareAccountNameIdent.to_string_key, if_neg (not_not.mpr h0)]
      exact push_raw_new_prefixed (by decide) _
    obtain ⟨p1, h1, e1⟩ := new_prefixed_one hp (slash_not_mem_escape (as_bytes k.account))
    obtain ⟨p2, h2, e2⟩ := KeyParser.next_str_escape e1
    simp [ShareAccountNameIdent.from_str_key, hkey, h1, h2, h0, KeyParser.next_u64, KeyParser.next_raw, e2,
      bind, Except.bind]
  · have hkey : k.to_string_key = as_bytes PREFIX_SHARE_ACCOUNT_ID ++
        0x2f :: (escape (as_bytes k.account) ++ 0x2f :: Decimal.digits k.share_id.toNat) := by
      rw [ShareAccountNameIdent.to_string_key, if_pos h0]
      exact push_raw_push_raw_new_prefixed (by decide) _ _
    obtain ⟨p1, h1, e1⟩ :=
      new_prefixed_two hp (slash_not_mem_escape (as_bytes k.account)) (slash_not_mem_digits k.share_id.toNat)
    obtain ⟨p2, h2, e2⟩ := KeyParser.next_str_escape e1
    obtain ⟨p3, h3, e3⟩ := KeyParser.next_u64_digits e2
    simp [ShareAccountNameIdent.from_str_key, hkey, h1, h2, h3, h0, KeyParser.done_nil e3, bind, Except.bind,
      pure, Except.pure]

theorem count_tables_key_round_trip_iff (k : CountTablesKey) :
    CountTablesKey.from_str_key k.to_string_key = .ok k ↔
      (0x2f : UInt8) ∉ as_bytes k.tenant ∧ (0x25 : UInt8) ∉ as_bytes k.tenant := by
  have hkey : k.to_string_key = as_bytes PREFIX_TABLE_COUNT ++ 0x2f :: as_bytes k.tenant :=
    push_raw_new_prefixed (by decide) _
  obtain ⟨p1, h1, e1⟩ :=
    KeyParser.new_prefixed_ok (by decide : (0x2f : UInt8) ∉ as_bytes PREFIX_TABLE_COUNT) (as_bytes k.tenant)
  constructor
  · intro h
    rw [CountTablesKey.from_str_key, hkey] at h
    obtain ⟨p1', hp1, h⟩ := bind_eq_ok h
    rw [h1] at hp1
    cases hp1
    obtain ⟨⟨t, p2⟩, h2, h⟩ := bind_eq_ok h
    obtain ⟨u, hd, h⟩ := bind_eq_ok h
    cases h
    obtain ⟨e, he, hs⟩ := KeyParser.next_str_ok h2
    -- the parser's last segment was the whole tenant
    rw [KeyParser.done_eq_ok hd, e1] at he
    obtain ⟨rfl, hslash⟩ := splitOn_eq_singleton_iff.mp he
    exact ⟨hslash, (unescape_as_bytes_iff _).mp hs⟩
  · rintro ⟨hslash, hpct⟩
    rw [List.splitOn_eq_singleton hslash] at e1
    obtain ⟨p2, h2, e2⟩ := KeyParser.next_str_cons e1 ((unescape_as_bytes_iff k.tenant).mpr hpct)
    simp [CountTablesKey.from_str_key, hkey, h1, h2, KeyParser.done_nil e2, bind, Except.bind, pure, Except.pure]

theorem count_tables_key_tenant_not_read_back :
    CountTablesKey.from_str_key (CountTablesKey.to_string_key ⟨"a/b"⟩) =
        .error (.WrongNumberOfSegments 2 (as_bytes "__fd_table_count/a/b")) ∧
      CountTablesKey.from_str_key (CountTablesKey.to_string_key ⟨"%41"⟩) = .ok ⟨"A"⟩ := by
  decide

theorem meta_keys_round_trip :
    (∀ k : DBIdTableName, DBIdTableName.from_str_key k.to_string_key = .ok k) ∧
    (∀ k : TableIdToName, TableIdToName.from_str_key k.to_string_key = .ok k) ∧
    (∀ k : TableId, TableId.from_str_key k.to_string_key = .ok k) ∧
    (∀ k : TableIdListKey, TableIdListKey.from_str_key k.to_string_key = .ok k) ∧
    (∀ k : TableCopiedFileLockKey, TableCopiedFileLockKey.from_str_key k.to_string_key = .ok k) ∧
    (∀ k : TableLockKey, TableLockKey.from_str_key k.to_string_key = .ok k) ∧
    (∀ k : LeastVisibleTimeKey, LeastVisibleTimeKey.from_str_key k.to_string_key = .ok k) ∧
    (∀ o : ShareGrantObject, ShareGrantObject.from_str_key o.to_string_key = .ok o) ∧
    (∀ k : ShareNameIdent, ShareNameIdent.from_str_key k.to_string_key = .ok k) ∧
    (∀ k : ShareId, ShareId.from_str_key k.to_string_key = .ok k) ∧
    (∀ k : ShareAccountNameIdent,
      ShareAccountNameIdent.from_str_key k.to_string_key = .ok k ↔ k.share_id ≠ 0) ∧
    (∀ k : ShareIdToName, ShareIdToName.from_str_key k.to_string_key = .ok k) ∧
    (∀ k : ShareEndpointIdent, ShareEndpointIdent.from_str_key k.to_string_key = .ok k) ∧
    (∀ k : ShareEndpointId, ShareEndpointId.from_str_key k.to_string_key = .ok k) ∧
    (∀ k : ShareEndpointIdToName, ShareEndpointIdToName.from_str_key k.to_string_key = .ok k) := by
  refine ⟨fun k => ?_, fun k => ?_, fun k => ?_, fun k => ?_, fun k => ?_, table_lock_key_round_trip,
    fun k => ?_, share_grant_object_round_trip, fun k => ?_, fun k => ?_,
    share_account_name_ident_round_trip_iff, fun k => ?_, fun k => ?_, fun k => ?_, fun k => ?_⟩
  -- the other keys are the three shapes, each at its own prefix
  · simp [DBIdTableName.from_str_key, DBIdTableName.to_string_key,
      @id_name_key_round_trip PREFIX_TABLE (by decide) (by decide), Except.map]
  · simp [TableIdToName.from_str_key, TableIdToName.to_string_key,
      @id_key_round_trip PREFIX_TABLE_ID_TO_NAME (by decide) (by decide), Except.map]
  · simp [TableId.from_str_key, TableId.to_string_key,
      @id_key_round_trip PREFIX_TABLE_BY_ID (by decide) (by decide), Except.map]
  · simp [TableIdListKey.from_str_key, TableIdListKey.to_string_key,
      @id_name_key_round_trip PREFIX_TABLE_ID_LIST (by decide) (by decide), Except.map]
  · simp [TableCopiedFileLockKey.from_str_key, TableCopiedFileLockKey.to_string_key,
      @id_key_round_trip PREFIX_TABLE_COPIED_FILES_LOCK (by decide) (by decide), Except.map]
  · simp [LeastVisibleTimeKey.from_str_key, LeastVisibleTimeKey.to_string_key,
      @id_key_round_trip PREFIX_TABLE_LVT (by decide) (by decide), Except.map]
  · simp [ShareNameIdent.from_str_key, ShareNameIdent.to_string_key,
      @name_name_key_round_trip PREFIX_SHARE (by decide) (by decide), Except.map]
  · simp [ShareId.from_str_key, ShareId.to_string_key,
      @id_key_round_trip PREFIX_SHARE_ID (by decide) (by decide), Except.map]
  · simp [ShareIdToName.from_str_key, ShareIdToName.to_string_key,
      @id_key_round_trip PREFIX_SHARE_ID_TO_NAME (by decide) (by decide), Except.map]
  · simp [ShareEndpointIdent.from_str_key, ShareEndpointIdent.to_string_key,
      @name_name_key_round_trip PREFIX_SHARE_ENDPOINT (by decide) (by decide), Except.map]
  · simp [ShareEndpointId.from_str_key, ShareEndpointId.to_string_key,
      @id_key_round_trip PREFIX_SHARE_ENDPOINT_ID (by decide) (by decide), Except.map]
  · simp [ShareEndpointIdToName.from_str_key, ShareEndpointIdToName.to_string_key,
      @id_key_round_trip PREFIX_SHARE_ENDPOINT_ID_TO_NAME (by decide) (by decide), Except.map]

end RoundTrips

end Databend.App
