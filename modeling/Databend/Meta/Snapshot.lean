import Databend.Meta.Invariant

namespace Databend.Meta

inductive StateMachineMetaKey where
  | LastApplied
  | Initialized
  | LastMembership
  deriving DecidableEq, Repr

inductive StateMachineMetaValue (LogId Membership : Type) where
  | LogId (log_id : LogId)
  | Bool (b : Bool)
  | Membership (membership : StoredMembership LogId Membership)

-- `RaftStoreEntry`; the payloads that neither `export` writes nor `import` reads are left out
inductive RaftStoreEntry (LogId Membership Node : Type) where
  | DataHeader (key : String)
  | Logs
  | Nodes (key : Nat) (value : Node)
  | StateMachineMeta (key : StateMachineMetaKey) (value : StateMachineMetaValue LogId Membership)
  | RaftStateKV
  | Expire (key : ExpireKey) (value : ExpireValue)
  | GenericKV (key : String) (value : SeqV (List UInt8))
  | Sequences (key : String) (value : Nat)
  | ClientLastResps
  | LogMeta

variable {LogId Membership Node : Type}

section Export

def export_sys_data (d : Level LogId Membership Node) : List (RaftStoreEntry LogId Membership Node) :=
  [.DataHeader "header"] ++
    (match d.sys_data.last_applied with
      | some last_applied => [.StateMachineMeta .LastApplied (.LogId last_applied)]
      | none => []) ++
    [.StateMachineMeta .LastMembership (.Membership d.sys_data.last_membership),
      .Sequences "generic-kv" d.curr_seq] ++
    d.sys_data.nodes.entries.map (fun e => .Nodes e.1 e.2)

def export_kv_entry (e : String × Marked (List UInt8)) : Option (RaftStoreEntry LogId Membership Node) :=
  e.2.toSeqV.map (.GenericKV e.1)

def export_expire_entry (e : ExpireKey × Marked String) : Option (RaftStoreEntry LogId Membership Node) :=
  e.2.toExpireValue.map (.Expire e.1)

-- `export`: the system data of the newest level, then the kv and expire ranges over all levels
def SnapshotViewV002.export (kmerge : ∀ {α : Type}, (α → α → Except String Bool) → List (List α) → Except String (List α))
    (v : SnapshotViewV002 LogId Membership Node) : Except String (List (RaftStoreEntry LogId Membership Node)) :=
  match v.compacted.getLast? with
  | none => .error "called `Option::unwrap()` on a `None` value"
  | some d => do
      let kv ← compacted_range kmerge Level.str_map.range none v.compacted.reverse
      let expire ← compacted_range kmerge Level.expire_map.range none v.compacted.reverse
      pure (export_sys_data d ++ kv.filterMap export_kv_entry ++ expire.filterMap export_expire_entry)

end Export

section Import

structure Importer (LogId Membership Node : Type) where
  level_data : Level LogId Membership Node
  kv : SortedMap String (Marked (List UInt8))
  expire : SortedMap ExpireKey (Marked String)
  greatest_seq : Nat

namespace Importer

def default [Inhabited Membership] : Importer LogId Membership Node :=
  ⟨Level.default_level, SortedMap.empty, SortedMap.empty, 0⟩

-- `level_data.sys_data_mut()`
def update_sys_data (imp : Importer LogId Membership Node)
    (f : SysData LogId Membership Node → SysData LogId Membership Node) : Importer LogId Membership Node :=
  { imp with level_data := { imp.level_data with sys_data := f imp.level_data.sys_data } }

-- the error of the derived `TryInto` of `StateMachineMetaValue`
def try_into_error (variant target : String) : String := "Only " ++ variant ++ " can be converted to " ++ target

end Importer

def Importer.import (imp : Importer LogId Membership Node) (entry : RaftStoreEntry LogId Membership Node) :
    Except String (Importer LogId Membership Node) :=
  match entry with
  | .DataHeader _ => .ok imp
  | .Logs => .ok imp
  | .LogMeta => .ok imp
  | .RaftStateKV => .ok imp
  | .ClientLastResps => .error "client last resp is not supported"
  | .Nodes key value => .ok (imp.update_sys_data (fun d => { d with nodes := d.nodes.insert key value }))
  | .StateMachineMeta key value =>
      match key, value with
      | .LastApplied, .LogId lid => .ok (imp.update_sys_data (fun d => { d with last_applied := some lid }))
      | .LastApplied, _ =>
          .error (try_into_error "LogId" "LogId" ++ " when import StateMachineMetaKey::LastApplied")
      | .Initialized, _ => .ok imp
      | .LastMembership, .Membership m => .ok (imp.update_sys_data (fun d => { d with last_membership := m }))
      | .LastMembership, _ =>
          .error (try_into_error "Membership" "StoredMembership" ++ " when import StateMachineMetaKey::LastMembership")
  | .Expire key value =>
      -- an old `ExpireValue` has seq 0, which is read as 1
      let value := if value.seq = 0 then { value with seq := 1 } else value
      .ok { imp with greatest_seq := max imp.greatest_seq value.seq,
                     expire := imp.expire.insert key (Marked.ofExpireValue value) }
  | .GenericKV key value =>
      .ok { imp with greatest_seq := max imp.greatest_seq value.seq, kv := imp.kv.insert key (Marked.ofSeqV value) }
  | .Sequences _ value => .ok (imp.update_sys_data (fun d => { d with sequence := value }))

-- the `assert!` of `commit` is its failure
def Importer.commit (imp : Importer LogId Membership Node) : Except String (Level LogId Membership Node) :=
  let d := { imp.level_data with kv := imp.kv, expire := imp.expire }
  if imp.greatest_seq ≤ d.curr_seq then .ok d
  else .error ("greatest_seq " ++ toString imp.greatest_seq ++ " must be LE curr_seq " ++ toString d.curr_seq ++
    ", otherwise seq may be reused")

def SMV002.import [Inhabited Membership] (data : List (RaftStoreEntry LogId Membership Node)) :
    Except String (Level LogId Membership Node) := do
  let importer ← data.foldlM Importer.import Importer.default
  importer.commit

end Import

section View

theorem SMV002.full_snapshot_view_compacted_reverse (s : SMV002 LogId Membership Node) :
    s.full_snapshot_view.2.compacted.reverse = s.levels.iter_levels := by
  simp [SMV002.full_snapshot_view, LeveledMap.freeze_writable, SnapshotViewV002.new, LeveledMap.iter_levels]

theorem SMV002.full_snapshot_view_newest (s : SMV002 LogId Membership Node) :
    s.full_snapshot_view.2.compacted.getLast? = some s.levels.writable := by
  simp [SMV002.full_snapshot_view, LeveledMap.freeze_writable, SnapshotViewV002.new]

-- exporting the view taken after a key was deleted on both sides of a freeze merges two ranges
-- whose heads hold that key with one internal seq: the assertion of `by_key_seq` fails there, and
-- so does the export
theorem export_double_delete
    (kmerge : ∀ {α : Type}, (α → α → Except String Bool) → List (List α) → Except String (List α))
    (hk : KMerge.MergeSpec kmerge) :
    ∃ s : SMV002 Nat Unit Unit, Reachable kmerge s ∧
      s.full_snapshot_view.2.compacted.reverse.map (fun l => Level.str_map.range l none) =
        [[("a", .TombStone 1)], [("a", .TombStone 1)]] ∧
      by_key_seq_assertion ("a", (Marked.TombStone 1 : Marked (List UInt8))) ("a", .TombStone 1) = false ∧
      SnapshotViewV002.export kmerge s.full_snapshot_view.2 = .error "assertion `left != right` failed" := by
  obtain ⟨s, hr, hkv, -⟩ := reachable_double_delete kmerge
  have hranges : s.full_snapshot_view.2.compacted.reverse.map (fun l => Level.str_map.range l none) =
      [[("a", .TombStone 1)], [("a", .TombStone 1)]] := by
    rw [s.full_snapshot_view_compacted_reverse]
    exact hkv
  refine ⟨s, hr, hranges, by decide, ?_⟩
  rw [SnapshotViewV002.export, s.full_snapshot_view_newest]
  dsimp only
  rw [compacted_range_heads hk hranges (by decide)]
  rfl

theorem export_double_delete_foldMerge :
    ∃ s : SMV002 Nat Unit Unit, Reachable @foldMerge s ∧
      s.full_snapshot_view.2.compacted.reverse.map (fun l => Level.str_map.range l none) =
        [[("a", .TombStone 1)], [("a", .TombStone 1)]] ∧
      by_key_seq_assertion ("a", (Marked.TombStone 1 : Marked (List UInt8))) ("a", .TombStone 1) = false ∧
      SnapshotViewV002.export @foldMerge s.full_snapshot_view.2 =
        .error "assertion `left != right` failed" :=
  export_double_delete @foldMerge foldMerge_mergeSpec

end View

section RoundTrip

theorem export_single {kmerge : ∀ {α : Type}, (α → α → Except String Bool) → List (List α) → Except String (List α)}
    (hk : KMerge.MergeSpec kmerge) (L : Level LogId Membership Node) :
    SnapshotViewV002.export kmerge (SnapshotViewV002.new [L]) =
      .ok (export_sys_data L ++ L.kv.entries.filterMap export_kv_entry ++
        L.expire.entries.filterMap export_expire_entry) := by
  simp only [SnapshotViewV002.export, SnapshotViewV002.new, List.getLast?_singleton, List.reverse_singleton]
  rw [compacted_range_single hk Level.str_map, compacted_range_single hk Level.expire_map]
  rfl

theorem foldlM_import_nodes (l : List (Nat × Node)) (imp : Importer LogId Membership Node) :
    (l.map (fun e => RaftStoreEntry.Nodes e.1 e.2)).foldlM Importer.import imp =
      .ok (imp.update_sys_data (fun d => { d with nodes := l.foldl (fun m e => m.insert e.1 e.2) d.nodes })) := by
  induction l generalizing imp with
  | nil => rfl
  | cons e l ih => exact ih _

theorem foldlM_import_export_sys_data [Inhabited Membership] (d : Level LogId Membership Node) :
    (export_sys_data d).foldlM Importer.import Importer.default =
      .ok (Importer.default.update_sys_data (fun _ => d.sys_data)) := by
  obtain ⟨⟨last_applied, last_membership, nodes, sequence⟩, kv, expire⟩ := d
  cases last_applied <;>
    simp [export_sys_data, foldlM_import_nodes, Importer.import, Importer.update_sys_data,
      Importer.default, Level.default_level, Level.sys_data_default, Level.curr_seq, bind, Except.bind]

theorem foldlM_import_kv {c : Nat} (l : List (String × Marked (List UInt8)))
    (hl : ∀ e ∈ l, e.2.is_normal = true → e.2.seq ≤ c) (imp : Importer LogId Membership Node)
    (hg : imp.greatest_seq ≤ c) :
    ∃ g ≤ c, (l.filterMap export_kv_entry).foldlM Importer.import imp =
      .ok { imp with kv := (l.filter (·.2.is_normal)).foldl (fun m e => m.insert e.1 e.2) imp.kv,
                     greatest_seq := g } := by
  induction l generalizing imp with
  | nil => exact ⟨imp.greatest_seq, hg, rfl⟩
  | cons e l ih =>
      have hl' : ∀ e ∈ l, e.2.is_normal = true → e.2.seq ≤ c := fun e' he' => hl e' (List.mem_cons_of_mem _ he')
      obtain ⟨k, x⟩ := e
      cases x with
      | TombStone s => exact ih hl' imp hg
      | Normal s v m =>
          have hs : s ≤ c := hl _ (List.mem_cons_self ..) rfl
          exact ih hl' { imp with greatest_seq := max imp.greatest_seq s, kv := imp.kv.insert k (.Normal s v m) }
            (max_le hg hs)

def imported_expire (l : List (ExpireKey × Marked String)) : List (ExpireKey × Marked String) :=
  l.filterMap (fun e => e.2.toExpireValue.map (fun x => (e.1, Marked.ofExpireValue x)))

theorem foldlM_import_expire {c : Nat} (l : List (ExpireKey × Marked String))
    (hl : ∀ e ∈ l, e.2.is_normal = true → 1 ≤ e.2.seq ∧ e.2.seq ≤ c) (imp : Importer LogId Membership Node)
    (hg : imp.greatest_seq ≤ c) :
    ∃ g ≤ c, (l.filterMap export_expire_entry).foldlM Importer.import imp =
      .ok { imp with expire := (imported_expire l).foldl (fun m e => m.insert e.1 e.2) imp.expire,
                     greatest_seq := g } := by
  induction l generalizing imp with
  | nil => exact ⟨imp.greatest_seq, hg, rfl⟩
  | cons e l ih =>
      have hl' : ∀ e ∈ l, e.2.is_normal = true → 1 ≤ e.2.seq ∧ e.2.seq ≤ c :=
        fun e' he' => hl e' (List.mem_cons_of_mem _ he')
      obtain ⟨k, x⟩ := e
      cases x with
      | TombStone s => exact ih hl' imp hg
      | Normal s v m =>
          obtain ⟨hs1, hs⟩ := hl _ (List.mem_cons_self ..) rfl
          have hs0 : s ≠ 0 := Nat.one_le_iff_ne_zero.mp hs1
          obtain ⟨g, hgc, hf⟩ := ih hl'
            { imp with greatest_seq := max imp.greatest_seq s, expire := imp.expire.insert k (.Normal s v none) }
            (max_le hg hs)
          refine ⟨g, hgc, ?_⟩
          simp only [List.filterMap_cons, export_expire_entry, Marked.toExpireValue, Option.map_some,
            List.foldlM_cons, Importer.import, if_neg hs0]
          exact hf

theorem imported_expire_sorted (m : SortedMap ExpireKey (Marked String)) :
    (imported_expire m.entries).Pairwise (fun a b => a.1 < b.1) := by
  refine m.sorted.filterMap _ ?_
  intro a b hab a' ha' b' hb'
  obtain ⟨x, -, rfl⟩ := Option.map_eq_some_iff.mp (Option.mem_def.mp ha')
  obtain ⟨y, -, rfl⟩ := Option.map_eq_some_iff.mp (Option.mem_def.mp hb')
  exact hab

theorem filterMap_export_kv_entry_filter (l : List (String × Marked (List UInt8))) :
    (l.filter (·.2.is_normal)).filterMap (export_kv_entry : _ → Option (RaftStoreEntry LogId Membership Node)) =
      l.filterMap export_kv_entry := by
  induction l with
  | nil => rfl
  | cons e l ih =>
      obtain ⟨k, x⟩ := e
      cases x with
      | TombStone s => exact ih
      | Normal s v m => exact congrArg (List.cons _) ih

theorem filterMap_export_expire_entry_imported (l : List (ExpireKey × Marked String)) :
    (imported_expire l).filterMap (export_expire_entry : _ → Option (RaftStoreEntry LogId Membership Node)) =
      l.filterMap export_expire_entry := by
  induction l with
  | nil => rfl
  | cons e l ih =>
      obtain ⟨k, x⟩ := e
      cases x with
      | TombStone s => exact ih
      | Normal s v m => exact congrArg (List.cons _) ih

theorem import_export_single [Inhabited Membership] {kmerge : ∀ {α : Type}, (α → α → Except String Bool) → List (List α) → Except String (List α)}
    (hk : KMerge.MergeSpec kmerge) (L : Level LogId Membership Node)
    (hkv : ∀ e ∈ L.kv.entries, e.2.is_normal = true → e.2.seq ≤ L.curr_seq)
    (hexp : ∀ e ∈ L.expire.entries, e.2.is_normal = true → 1 ≤ e.2.seq ∧ e.2.seq ≤ L.curr_seq) :
    ∃ es L', SnapshotViewV002.export kmerge (SnapshotViewV002.new [L]) = .ok es ∧ SMV002.import es = .ok L' ∧
      L'.sys_data = L.sys_data ∧ L'.kv.entries = L.kv.entries.filter (·.2.is_normal) ∧
      SnapshotViewV002.export kmerge (SnapshotViewV002.new [L']) = .ok es := by
  obtain ⟨g1, hg1, hf1⟩ := foldlM_import_kv L.kv.entries hkv
    (Importer.default.update_sys_data (fun _ => L.sys_data)) (Nat.zero_le _)
  obtain ⟨g2, hg2, hf2⟩ := foldlM_import_expire L.expire.entries hexp
    { Importer.default.update_sys_data (fun _ => L.sys_data) with
      kv := SortedMap.ofList (L.kv.entries.filter (·.2.is_normal)), greatest_seq := g1 } hg1
  let L' : Level LogId Membership Node :=
    ⟨L.sys_data, SortedMap.ofList (L.kv.entries.filter (·.2.is_normal)),
      SortedMap.ofList (imported_expire L.expire.entries)⟩
  have hkvl : L'.kv.entries = L.kv.entries.filter (·.2.is_normal) :=
    SortedMap.ofList_entries (L.kv.sorted.filter _)
  have hexpl : L'.expire.entries = imported_expire L.expire.entries :=
    SortedMap.ofList_entries (imported_expire_sorted L.expire)
  refine ⟨_, L', export_single hk L, ?_, rfl, hkvl, ?_⟩
  · -- the sys data, then the kv entries, then the expire entries, then the seq check of `commit`
    have himp := ExceptM.foldlM_append_ok (ExceptM.foldlM_append_ok (foldlM_import_export_sys_data L) hf1) hf2
    rw [SMV002.import, himp]
    exact if_pos hg2
  · rw [export_single hk L', hkvl, hexpl, filterMap_export_kv_entry_filter, filterMap_export_expire_entry_imported]
    rfl

theorem LevelInv.normal_seq_bounded {lm : LeveledMap LogId Membership Node} (h : LevelInv lm)
    {l : Level LogId Membership Node} (hl : l ∈ lm.iter_levels) :
    (∀ e ∈ l.kv.entries, e.2.is_normal = true → 1 ≤ e.2.seq ∧ e.2.seq ≤ lm.writable.curr_seq) ∧
    (∀ e ∈ l.expire.entries, e.2.is_normal = true → 1 ≤ e.2.seq ∧ e.2.seq ≤ lm.writable.curr_seq) := by
  constructor
  · intro e he hn
    rw [Marked.seq_eq_of_normal hn]
    exact h.kv_bounded l.kv (List.mem_map_of_mem hl) e he
  · intro e he hn
    rw [Marked.seq_eq_of_normal hn]
    exact h.expire_bounded l.expire (List.mem_map_of_mem hl) e he

theorem reachable_snapshot_round_trip [Inhabited Membership]
    {kmerge : ∀ {α : Type}, (α → α → Except String Bool) → List (List α) → Except String (List α)} (hk : KMerge.MergeSpec kmerge)
    {s : SMV002 LogId Membership Node} (hr : Reachable kmerge s) (hf : s.levels.frozen = []) :
    ∃ es L', SnapshotViewV002.export kmerge s.full_snapshot_view.2 = .ok es ∧ SMV002.import es = .ok L' ∧
      L'.sys_data = s.levels.writable.sys_data ∧
      L'.kv.entries = s.levels.writable.kv.entries.filter (·.2.is_normal) ∧
      SnapshotViewV002.export kmerge (SnapshotViewV002.new [L']) = .ok es := by
  have hview : s.full_snapshot_view.2 = SnapshotViewV002.new [s.levels.writable] := by
    simp [SMV002.full_snapshot_view, LeveledMap.freeze_writable, SnapshotViewV002.new, hf]
  have hb := (reachable_levelInv hk hr).normal_seq_bounded (List.mem_cons_self ..)
  rw [hview]
  exact import_export_single hk s.levels.writable (fun e he hn => (hb.1 e he hn).2) hb.2

theorem reachable_snapshot_round_trip_one_level :
    ∃ es L', SnapshotViewV002.export @foldMerge one_level_sm.full_snapshot_view.2 = .ok es ∧
      SMV002.import es = .ok L' ∧ L'.sys_data = one_level_sm.levels.writable.sys_data ∧
      L'.kv.entries = one_level_sm.levels.writable.kv.entries.filter (·.2.is_normal) ∧
      SnapshotViewV002.export @foldMerge (SnapshotViewV002.new [L']) = .ok es :=
  reachable_snapshot_round_trip foldMerge_mergeSpec (reachable_one_level_sm _) rfl

end RoundTrip

end Databend.Meta
