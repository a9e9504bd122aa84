import Databend.Meta.Expire

namespace Databend.Meta

variable {LogId Membership Node : Type}

-- the user-visible value a matched upsert leaves at its key: none after a delete or an already
-- expired write; otherwise the update's value, or for a meta-only update the present value if there
-- is one, with the upsert's meta and the next seq
def upserted (prev : Option (SeqV (List UInt8))) (u : UpsertKV) (seq : Nat) (expired : Bool) :
    Option (SeqV (List UInt8)) :=
  if expired then none
  else
    match u.value with
    | .Update v => some ⟨seq, u.value_meta, v⟩
    | .Delete => none
    | .AsIs => prev.map fun p => ⟨seq, u.value_meta, p.data⟩

theorem Marked.toSeqV_eq_none_of_not_normal {T : Type} {m : Marked T} (h : m.is_normal = false) :
    m.toSeqV = none := by
  cases m
  · rfl
  · cases h

namespace SMV002

variable (sm : SMV002 LogId Membership Node) (u : UpsertKV)

theorem upsert_kv_primary_index_mismatch
    (hm : u.seq.match_seq (sm.levels.get Level.str_map u.key).seq = false) :
    sm.upsert_kv_primary_index u = (sm, (sm.levels.get Level.str_map u.key, sm.levels.get Level.str_map u.key)) := by
  simp [upsert_kv_primary_index, hm]

theorem toSeqV_upsert_kv_primary_index
    (hm : u.seq.match_seq (sm.levels.get Level.str_map u.key).seq = true) :
    (sm.upsert_kv_primary_index u).2.2.toSeqV =
      upserted (sm.levels.get Level.str_map u.key).toSeqV u (sm.curr_seq + 1)
        (decide (u.get_expire_at_ms.getD U64_MAX < sm.expire_cursor.time_ms)) := by
  -- the write, before the expiry check: a set of the key, or nothing for a meta update of a tombstone
  have hexp : ∀ r : LeveledMap LogId Membership Node × (Marked (List UInt8) × Marked (List UInt8)),
      (r.1.set Level.str_map u.key none).2.2.toSeqV = none :=
    fun r => Marked.toSeqV_eq_none_of_not_normal (set_none_not_normal levelApi_str_map _ _)
  unfold upsert_kv_primary_index upserted
  simp only [hm, Bool.not_true, Bool.false_eq_true, if_false]
  by_cases he : u.get_expire_at_ms.getD U64_MAX < sm.expire_cursor.time_ms
  · simp only [he, if_true, decide_true]
    exact hexp _
  · simp only [he, if_false, decide_false, Bool.false_eq_true]
    cases hv : u.value with
    | Update v =>
        dsimp only
        rw [set_str_some]
        rfl
    | Delete => exact Marked.toSeqV_eq_none_of_not_normal (set_none_not_normal levelApi_str_map _ _)
    | AsIs =>
        dsimp only
        rcases hg : sm.levels.get Level.str_map u.key with s | ⟨n, v, m⟩
        · simp only [LeveledMap.update_meta, hg]
          rfl
        · simp only [LeveledMap.update_meta, hg]
          rw [set_str_some]
          rfl

end SMV002

namespace Applier

variable {sm : SMV002 LogId Membership Node} (u : UpsertKV)

theorem upsert_kv_mismatch (hm : u.seq.match_seq (sm.levels.get Level.str_map u.key).seq = false) :
    upsert_kv sm u = (sm, ((sm.levels.get Level.str_map u.key).toSeqV, (sm.levels.get Level.str_map u.key).toSeqV)) := by
  rw [upsert_kv, SMV002.upsert_kv_primary_index_mismatch sm u hm]
  simp [SMV002.update_expire_index]

end Applier

section Reachable

variable [Inhabited Membership] (kmerge : ∀ {α : Type}, (α → α → Except String Bool) → List (List α) → Except String (List α))

theorem upsert_kv_seq_condition (hk : KMerge.MergeSpec kmerge) {s : SMV002 LogId Membership Node}
    (hs : Reachable kmerge s) (u : UpsertKV) :
    (u.seq.match_seq (s.levels.get Level.str_map u.key).seq = false →
      Applier.upsert_kv s u =
        (s, ((s.levels.get Level.str_map u.key).toSeqV, (s.levels.get Level.str_map u.key).toSeqV))) ∧
    (u.seq.match_seq (s.levels.get Level.str_map u.key).seq = true →
      ((Applier.upsert_kv s u).1.levels.get Level.str_map u.key).toSeqV =
          upserted (s.levels.get Level.str_map u.key).toSeqV u (s.curr_seq + 1)
            (decide (u.get_expire_at_ms.getD U64_MAX < s.expire_cursor.time_ms)) ∧
        ∀ k, k ≠ u.key →
          (Applier.upsert_kv s u).1.levels.get Level.str_map k = s.levels.get Level.str_map k) := by
  have h := reachable_levelInv hk hs
  refine ⟨Applier.upsert_kv_mismatch u, fun hm => ⟨?_, fun k hk' => ?_⟩⟩
  · rw [Applier.get_upsert_kv u h, if_pos rfl]
    exact SMV002.toSeqV_upsert_kv_primary_index s u hm
  · rw [Applier.get_upsert_kv u h, if_neg hk']

theorem upsert_kv_seq_condition_three_levels :
    Applier.upsert_kv three_level_sm ⟨"a", .Exact 1, .Update [3], none⟩ = (three_level_sm, (none, none)) ∧
      ((Applier.upsert_kv three_level_sm ⟨"a", .Any, .AsIs, some ⟨some 200⟩⟩).1.levels.get
        Level.str_map "a").toSeqV = none ∧
      ((Applier.upsert_kv three_level_sm ⟨"b", .Exact 2, .AsIs, some ⟨some 200⟩⟩).1.levels.get
        Level.str_map "b").toSeqV = some ⟨3, some ⟨some 200⟩, [2]⟩ ∧
      (Applier.upsert_kv three_level_sm ⟨"b", .Exact 2, .AsIs, some ⟨some 200⟩⟩).1.levels.get Level.str_map "a" =
        three_level_sm.levels.get Level.str_map "a" := by
  have h := fun u => upsert_kv_seq_condition @foldMerge foldMerge_mergeSpec (reachable_three_level_sm _) u
  refine ⟨(h _).1 (by decide), ((h _).2 (by decide)).1, ((h _).2 (by decide)).1, ((h _).2 (by decide)).2 _ (by decide)⟩

theorem upsert_as_is_absent_key :
    (⟨"a", .Any, .AsIs, none⟩ : UpsertKV).seq.match_seq
        ((SMV002.default_sm : SMV002 Nat Unit Unit).levels.get Level.str_map "a").seq = true ∧
      ¬ ((⟨"a", .Any, .AsIs, none⟩ : UpsertKV).get_expire_at_ms.getD U64_MAX <
        (SMV002.default_sm : SMV002 Nat Unit Unit).expire_cursor.time_ms) ∧
      ((Applier.upsert_kv (SMV002.default_sm : SMV002 Nat Unit Unit) ⟨"a", .Any, .AsIs, none⟩).1.levels.get
        Level.str_map "a").is_normal = false := by
  decide

end Reachable

end Databend.Meta
