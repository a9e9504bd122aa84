import Databend.Meta.Invariant

namespace Databend.Meta

variable {LogId Membership Node : Type}

def expireKeyOf {T : Type} (m : Marked T) : Option ExpireKey :=
  m.expire_at_ms.map (fun ms => ⟨ms, m.internal_seq.seq⟩)

def expireIndex (lm : LeveledMap LogId Membership Node) (ek : ExpireKey) : Option String :=
  (lm.get Level.expire_map ek).unpack.map Prod.fst

theorem expireKeyOf_seq {T : Type} {m : Marked T} {ek : ExpireKey} (h : expireKeyOf m = some ek) :
    m.is_normal = true ∧ ek.seq = m.internal_seq.seq ∧ m.expire_at_ms = some ek.time_ms := by
  obtain ⟨ms, hms, rfl⟩ := Option.map_eq_some_iff.mp h
  exact ⟨Marked.is_normal_of_expire_at_ms hms, rfl, hms⟩

theorem expireKeyOf_of_expire_at {T : Type} {m : Marked T} {t : Nat}
    (h : m.meta_of.bind KVMeta.expire_at = some t) :
    expireKeyOf m = some ⟨t * 1000 % 2 ^ 64, m.internal_seq.seq⟩ := by
  obtain ⟨km, hkm, ht⟩ := Option.bind_eq_some_iff.mp h
  simp [expireKeyOf, Marked.expire_at_ms, expire_at_ms, hkm, ht]

theorem expireKeyOf_eq_some_iff {T : Type} {m : Marked T} {ek : ExpireKey}
    (hov : ∀ t, m.meta_of.bind KVMeta.expire_at = some t → t * 1000 < 2 ^ 64) :
    expireKeyOf m = some ek ↔
      ∃ t, m.is_normal = true ∧ m.meta_of.bind KVMeta.expire_at = some t ∧ ek = ⟨t * 1000, m.seq⟩ := by
  constructor
  · intro h
    obtain ⟨hn, hseq, hms⟩ := expireKeyOf_seq h
    cases m with
    | TombStone s => cases hn
    | Normal s v km =>
        rcases km with _ | ⟨_ | t⟩ <;> simp only [Marked.expire_at_ms, Marked.meta_of, expire_at_ms,
          Option.map_none, Option.map_some, reduceCtorEq, Option.some.injEq] at hms
        refine ⟨t, rfl, rfl, ?_⟩
        obtain ⟨tm, sq⟩ := ek
        simp only at hseq hms
        rw [← hms, Nat.mod_eq_of_lt (hov t rfl), hseq]
        rfl
  · rintro ⟨t, -, ht, rfl⟩
    rw [expireKeyOf_of_expire_at ht, Nat.mod_eq_of_lt (hov t ht)]
    cases m with
    | TombStone s => simp [Marked.meta_of] at ht
    | Normal s v km => rfl

theorem expireKeyOf_of_toSeqV {T : Type} {m m' : Marked T} (h : m.toSeqV = m'.toSeqV) :
    expireKeyOf m = expireKeyOf m' := by
  cases m with
  | TombStone s =>
      cases m' with
      | TombStone s' => rfl
      | Normal s' v' km' => cases h
  | Normal s v km => rw [Marked.eq_of_toSeqV_eq h rfl]

theorem unpack_of_toSeqV {T : Type} {m m' : Marked T} (h : m.toSeqV = m'.toSeqV) : m.unpack = m'.unpack := by
  cases m with
  | TombStone s =>
      cases m' with
      | TombStone s' => rfl
      | Normal s' v' km' => cases h
  | Normal s v km => rw [Marked.eq_of_toSeqV_eq h rfl]

theorem expireKeyOf_of_not_normal {T : Type} {m : Marked T} (h : m.is_normal = false) : expireKeyOf m = none := by
  cases m with
  | TombStone s => rfl
  | Normal s v km => cases h

theorem expireIndex_of_toSeqV {lm lm' : LeveledMap LogId Membership Node} {ek : ExpireKey}
    (h : (lm'.get Level.expire_map ek).toSeqV = (lm.get Level.expire_map ek).toSeqV) :
    expireIndex lm' ek = expireIndex lm ek := by
  unfold expireIndex
  rw [unpack_of_toSeqV h]

section IndexWrites

variable {lm : LeveledMap LogId Membership Node}
  (hb : SeqBounded (lm.iter_levels.map Level.expire) lm.writable.curr_seq)
include hb

theorem expireIndex_set_none (ek0 ek : ExpireKey) :
    expireIndex (lm.set Level.expire_map ek0 none).1 ek = if ek0 = ek then none else expireIndex lm ek := by
  unfold expireIndex
  split_ifs with h
  · subst h
    rw [get_set_self levelApi_expire_map hb]
    cases hr : (lm.set Level.expire_map ek0 none).2.2 with
    | TombStone s => rfl
    | Normal s v m =>
        have := set_none_not_normal levelApi_expire_map lm ek0
        rw [hr] at this
        cases this
  · rw [get_set_ne levelApi_expire_map (Ne.symm h)]

theorem expireIndex_set_some (ek0 ek : ExpireKey) (key : String) (km : Option KVMeta) :
    expireIndex (lm.set Level.expire_map ek0 (some (key, km))).1 ek =
      if ek0 = ek then some key else expireIndex lm ek := by
  unfold expireIndex
  split_ifs with h
  · subst h
    rw [get_set_self levelApi_expire_map hb, LeveledMap.set_write (.inr rfl)]
    rfl
  · rw [get_set_ne levelApi_expire_map (Ne.symm h)]

end IndexWrites

namespace SMV002

theorem expireIndex_upsert_kv_primary_index (sm : SMV002 LogId Membership Node) (u : UpsertKV) (ek : ExpireKey) :
    expireIndex (sm.upsert_kv_primary_index u).1.levels ek = expireIndex sm.levels ek := by
  unfold expireIndex
  rw [get_congr_maps (expire_maps_upsert_kv_primary_index u)]

theorem expireIndex_update_expire_index {sm : SMV002 LogId Membership Node} (h : LevelInv sm.levels)
    (key : String) {removed added : Marked (List UInt8)} (hne : removed ≠ added) (ek : ExpireKey) :
    expireIndex (sm.update_expire_index key removed added).levels ek =
      if expireKeyOf added = some ek then some key
      else if expireKeyOf removed = some ek then none else expireIndex sm.levels ek := by
  unfold update_expire_index expireKeyOf
  rw [if_neg hne]
  rcases hr : removed.expire_at_ms with _ | msr <;> rcases ha : added.expire_at_ms with _ | msa <;>
    simp only [Option.map_none, Option.map_some, reduceCtorEq, if_false, Option.some.injEq]
  · rw [expireIndex_set_some h.expire_bounded]
  · rw [expireIndex_set_none h.expire_bounded]
  · rw [expireIndex_set_some (h.set_expire_none _).expire_bounded, expireIndex_set_none h.expire_bounded]

end SMV002

theorem expireIndex_eq_firstEntry {lm : LeveledMap LogId Membership Node} (h : LevelInv lm) (ek : ExpireKey) :
    expireIndex lm ek = (firstEntry ek (lm.iter_levels.map Level.expire)).bind (fun x => x.unpack.map Prod.fst) := by
  unfold expireIndex
  rw [get_eq_firstEntry Level.expire_map h.expire_bounded]
  show Option.map Prod.fst ((firstEntry ek (lm.iter_levels.map Level.expire)).getD Marked.empty).unpack = _
  cases firstEntry ek (lm.iter_levels.map Level.expire) <;> rfl

theorem normal_of_expireIndex {lm : LeveledMap LogId Membership Node} (h : LevelInv lm) {ek : ExpireKey}
    {k : String} (hidx : expireIndex lm ek = some k) {x : Marked String}
    (hx : firstEntry ek (lm.iter_levels.map Level.expire) = some x) : x.is_normal = true := by
  rw [expireIndex_eq_firstEntry h, hx] at hidx
  cases x with
  | TombStone s => cases hidx
  | Normal s v m => rfl

-- an index inverse to a map of keys stays inverse to it when one key moves from `r` to a fresh `a`
theorem index_inverse_update {κ ε : Type} [DecidableEq κ] [DecidableEq ε] {idx idx' : ε → Option κ} {key : κ → Option ε}
    {u : κ} {a r : Option ε} (hinv : ∀ e k, idx e = some k ↔ key k = some e)
    (hidx : ∀ e, idx' e = if a = some e then some u else if r = some e then none else idx e)
    (hr : r = key u) (hfresh : ∀ e, a = some e → ∀ k, key k ≠ some e) (e : ε) (k : κ) :
    idx' e = some k ↔ (if k = u then a else key k) = some e := by
  rw [hidx]
  by_cases hk : k = u
  · subst hk
    rw [if_pos rfl]
    split_ifs with ha hr'
    · simp [ha]
    · simp only [reduceCtorEq, false_iff]
      exact ha
    · rw [hinv, ← hr]
      exact ⟨fun h => absurd h hr', fun h => absurd h ha⟩
  · rw [if_neg hk]
    split_ifs with ha hr'
    · simp only [Option.some.injEq]
      exact ⟨fun h => absurd h.symm hk, fun h => absurd h (hfresh e ha k)⟩
    · simp only [reduceCtorEq, false_iff]
      intro h
      exact hk (Option.some.inj (((hinv e k).mpr h).symm.trans ((hinv e u).mpr (hr ▸ hr'))))
    · exact hinv e k

-- the expire index holds exactly the keys due to the visible normal kv entries, none of them before
-- the expire cursor, and the cursor is always the start of a millisecond; per expire key, newer
-- levels hold strictly greater internal seqs
structure ExpireInv (s : SMV002 LogId Membership Node) : Prop where
  levels : LevelInv s.levels
  exact : ∀ ek k, expireIndex s.levels ek = some k ↔ expireKeyOf (s.levels.get Level.str_map k) = some ek
  after_cursor : ∀ k ek, expireKeyOf (s.levels.get Level.str_map k) = some ek →
    s.expire_cursor.time_ms ≤ ek.time_ms
  cursor_seq : s.expire_cursor.seq = 0
  expire_strict : StrictlyOrdered (s.levels.iter_levels.map Level.expire)

namespace ExpireInv

theorem of_views {s s' : SMV002 LogId Membership Node} (h : ExpireInv s) (hl : LevelInv s'.levels)
    (hkv : ∀ k, (s'.levels.get Level.str_map k).toSeqV = (s.levels.get Level.str_map k).toSeqV)
    (hexp : ∀ ek, (s'.levels.get Level.expire_map ek).toSeqV = (s.levels.get Level.expire_map ek).toSeqV)
    (hc : s'.expire_cursor = s.expire_cursor) (hs : StrictlyOrdered (s'.levels.iter_levels.map Level.expire)) :
    ExpireInv s' where
  levels := hl
  exact ek k := by rw [expireIndex_of_toSeqV (hexp ek), h.exact, expireKeyOf_of_toSeqV (hkv k)]
  after_cursor k ek hk := by
    rw [hc]
    exact h.after_cursor k ek (by rwa [← expireKeyOf_of_toSeqV (hkv k)])
  cursor_seq := hc ▸ h.cursor_seq
  expire_strict := hs

theorem strictlyOrdered_upsert_kv {sm : SMV002 LogId Membership Node} (h : ExpireInv sm) (u : UpsertKV) :
    StrictlyOrdered ((Applier.upsert_kv sm u).1.levels.iter_levels.map Level.expire) := by
  have hprev := (SMV002.upsert_kv_primary_index_cases sm u).1
  have hmaps : (sm.upsert_kv_primary_index u).1.levels.iter_levels.map Level.expire =
      sm.levels.iter_levels.map Level.expire := SMV002.expire_maps_upsert_kv_primary_index u
  apply SMV002.strictlyOrdered_update_expire_index _ _ _ _ (SMV002.levelInv_upsert_kv_primary_index u h.levels)
    (hmaps ▸ h.expire_strict)
  · intro _ ms hms x hx
    rw [hmaps] at hx
    have hidx : expireIndex sm.levels ⟨ms, (sm.upsert_kv_primary_index u).2.1.internal_seq.seq⟩ = some u.key := by
      rw [h.exact, ← hprev, expireKeyOf, hms]
      rfl
    exact normal_of_expireIndex h.levels hidx hx
  · exact fun hne _ hms => Applier.upsert_kv_added_fresh u h.levels hne hms

theorem upsert_kv {sm : SMV002 LogId Membership Node} (h : ExpireInv sm) (u : UpsertKV) :
    ExpireInv (Applier.upsert_kv sm u).1 := by
  have hl := Applier.levelInv_upsert_kv u h.levels
  have hc : (Applier.upsert_kv sm u).1.expire_cursor = sm.expire_cursor := Applier.expire_cursor_upsert_kv u
  have hprev := (SMV002.upsert_kv_primary_index_cases sm u).1
  by_cases hne : (sm.upsert_kv_primary_index u).2.1 = (sm.upsert_kv_primary_index u).2.2
  · refine h.of_views hl (fun k => ?_) (fun ek => ?_) hc (h.strictlyOrdered_upsert_kv u)
    · rw [Applier.get_upsert_kv u h.levels]
      split_ifs with hk
      · rw [← hne, hprev, hk]
      · rfl
    · rw [Applier.upsert_kv, SMV002.update_expire_index, if_pos hne,
        get_congr_maps (SMV002.expire_maps_upsert_kv_primary_index u)]
  · -- the new entry, if it has an expire key, takes the next seq and is not expired yet
    have hnew : ∀ ek, expireKeyOf (sm.upsert_kv_primary_index u).2.2 = some ek →
        ek.seq = sm.curr_seq + 1 ∧ sm.expire_cursor.time_ms ≤ ek.time_ms := by
      intro ek hek
      obtain ⟨hn, hseq, hms⟩ := expireKeyOf_seq hek
      rcases SMV002.upsert_kv_primary_index_normal u hn with heq | ⟨hs, hc', hexp⟩
      · exact absurd heq.symm hne
      · exact ⟨by rw [hseq, hs, hc'], hexp _ hms⟩
    have hold : ∀ k ek, expireKeyOf (sm.levels.get Level.str_map k) = some ek → ek.seq ≤ sm.curr_seq := by
      intro k ek hek
      rw [(expireKeyOf_seq hek).2.1]
      exact get_seq_le Level.str_map h.levels.kv_bounded k
    have hidx : ∀ ek, expireIndex (Applier.upsert_kv sm u).1.levels ek =
        if expireKeyOf (sm.upsert_kv_primary_index u).2.2 = some ek then some u.key
        else if expireKeyOf (sm.upsert_kv_primary_index u).2.1 = some ek then none
        else expireIndex sm.levels ek := by
      intro ek
      rw [Applier.upsert_kv, SMV002.expireIndex_update_expire_index
        (SMV002.levelInv_upsert_kv_primary_index u h.levels) _ hne, SMV002.expireIndex_upsert_kv_primary_index]
    -- an expire key the entry takes is above every seq stored so far
    have hfresh : ∀ ek, expireKeyOf (sm.upsert_kv_primary_index u).2.2 = some ek →
        ∀ k, expireKeyOf (sm.levels.get Level.str_map k) ≠ some ek := by
      intro ek ha k h'
      have := hold k ek h'
      have := (hnew ek ha).1
      omega
    refine ⟨hl, fun ek k => ?_, fun k ek hk => ?_, hc ▸ h.cursor_seq, h.strictlyOrdered_upsert_kv u⟩
    · rw [Applier.get_upsert_kv u h.levels, apply_ite expireKeyOf]
      exact index_inverse_update h.exact hidx (congrArg expireKeyOf hprev) hfresh ek k
    · rw [hc]
      rw [Applier.get_upsert_kv u h.levels] at hk
      split_ifs at hk with hku
      · exact (hnew ek hk).2
      · exact h.after_cursor k ek hk

theorem modify_sys_data {s : SMV002 LogId Membership Node}
    {f : SysData LogId Membership Node → SysData LogId Membership Node} (hf : ∀ d, (f d).sequence = d.sequence)
    (h : ExpireInv s) : ExpireInv (Applier.modify_sys_data s f) :=
  h.of_views (levelInv_modify_sys_data hf h.levels) (fun k => congrArg Marked.toSeqV (get_congr_maps rfl k))
    (fun ek => congrArg Marked.toSeqV (get_congr_maps rfl ek)) rfl h.expire_strict

theorem freeze {s : SMV002 LogId Membership Node} (h : ExpireInv s) : ExpireInv s.full_snapshot_view.1 := by
  have hmap : s.full_snapshot_view.1.levels.iter_levels.map Level.expire =
      SortedMap.empty :: s.levels.iter_levels.map Level.expire := by
    simp [SMV002.full_snapshot_view, LeveledMap.freeze_writable, LeveledMap.iter_levels]
  exact h.of_views h.levels.freeze
    (fun k => congrArg Marked.toSeqV (LeveledMap.freeze_writable_get _ (fun _ => rfl) s.levels k))
    (fun ek => congrArg Marked.toSeqV (LeveledMap.freeze_writable_get _ (fun _ => rfl) s.levels ek)) rfl
    (hmap ▸ strictlyOrdered_empty_cons.mpr h.expire_strict)

theorem compact {kmerge : ∀ {α : Type}, (α → α → Except String Bool) → List (List α) → Except String (List α)}
    (hk : KMerge.MergeSpec kmerge) {s : SMV002 LogId Membership Node} (h : ExpireInv s)
    {v : SnapshotViewV002 LogId Membership Node}
    (hv : (SnapshotViewV002.new s.levels.frozen).compact_mem_levels kmerge = .ok v) :
    ExpireInv (s.replace_frozen v) := by
  refine h.of_views (h.levels.compact hk hv)
    (toSeqV_get_compact hk h.levels.kv_ordered h.levels.kv_bounded (fun _ mk _ hmk _ => ⟨mk, hmk, rfl⟩) hv)
    (toSeqV_get_compact hk h.levels.expire_ordered h.levels.expire_bounded (fun _ _ me _ hme => ⟨me, hme, rfl⟩) hv)
    rfl ?_
  rcases compact_mem_levels_cases hk hv with ⟨-, hc⟩ | ⟨newest, mk, me, -, -, -, hme, -, -, hc⟩
  · show StrictlyOrdered ((s.levels.replace_frozen v.compacted).iter_levels.map Level.expire)
    rw [hc]
    exact h.expire_strict
  · show StrictlyOrdered ((s.levels.replace_frozen v.compacted).iter_levels.map Level.expire)
    have hs := h.expire_strict
    rw [map_iter_levels] at hs
    rw [hc]
    exact strictlyOrdered_compact hme hs

end ExpireInv

theorem SMV002.upsert_kv_primary_index_delete (sm : SMV002 LogId Membership Node) (key : String) :
    (sm.upsert_kv_primary_index (UpsertKV.delete key)).2.2.is_normal = false := by
  unfold SMV002.upsert_kv_primary_index
  have hm : (UpsertKV.delete key).seq.match_seq (sm.levels.get Level.str_map (UpsertKV.delete key).key).seq := by
    simp [UpsertKV.delete, MatchSeq.match_seq]
  dsimp only
  rw [hm, Bool.not_true, if_neg Bool.false_ne_true]
  by_cases hexp : (UpsertKV.delete key).get_expire_at_ms.getD U64_MAX < sm.expire_cursor.time_ms
  · rw [if_pos hexp]
    exact set_none_not_normal levelApi_str_map _ key
  · rw [if_neg hexp]
    exact set_none_not_normal levelApi_str_map sm.levels key

namespace ExpireInv

section CleanOne

variable {sm : SMV002 LogId Membership Node} (h : ExpireInv sm) {e : ExpireKey × String}
  (he : expireIndex sm.levels e.1 = some e.2)
include h he

theorem clean_one_ok : Applier.clean_one sm e = .ok (Applier.upsert_kv sm (UpsertKV.delete e.2)).1 := by
  obtain ⟨hn, hseq, -⟩ := expireKeyOf_seq ((h.exact e.1 e.2).mp he)
  unfold Applier.clean_one SMV002.get_maybe_expired_kv
  cases hg : sm.levels.get Level.str_map e.2 with
  | TombStone s => rw [hg] at hn; cases hn
  | Normal s v km =>
      rw [hg] at hseq
      exact if_pos hseq

theorem expireIndex_clean_one (ek : ExpireKey) :
    expireIndex (Applier.upsert_kv sm (UpsertKV.delete e.2)).1.levels ek =
      if ek = e.1 then none else expireIndex sm.levels ek := by
  have hkey := (h.exact e.1 e.2).mp he
  apply Option.ext
  intro k
  rw [(h.upsert_kv (UpsertKV.delete e.2)).exact, Applier.get_upsert_kv _ h.levels]
  by_cases hk : k = (UpsertKV.delete e.2).key
  · subst hk
    rw [if_pos rfl, expireKeyOf_of_not_normal (SMV002.upsert_kv_primary_index_delete ..)]
    split_ifs with hek
    · simp
    · simp only [false_iff]
      intro hk'
      rw [(h.exact ek e.2).mp hk', Option.some.injEq] at hkey
      exact hek hkey
  · rw [if_neg hk]
    split_ifs with hek
    · subst hek
      simp only [iff_false]
      intro hk'
      have := he.symm.trans ((h.exact _ k).mpr hk')
      exact hk (Option.some.inj this).symm
    · exact (h.exact ek k).symm

end CleanOne

theorem clean_loop {es : List (ExpireKey × String)} {sm : SMV002 LogId Membership Node} (h : ExpireInv sm)
    (hes : ∀ e ∈ es, expireIndex sm.levels e.1 = some e.2) (hd : es.Pairwise (fun a b => a.1 < b.1)) :
    ∃ sm', es.foldlM Applier.clean_one sm = .ok sm' ∧ ExpireInv sm' ∧ sm'.expire_cursor = sm.expire_cursor ∧
      ∀ ek, expireIndex sm'.levels ek = if ek ∈ es.map Prod.fst then none else expireIndex sm.levels ek := by
  induction es generalizing sm with
  | nil => exact ⟨sm, rfl, h, rfl, fun ek => by simp⟩
  | cons e es ih =>
      obtain ⟨hlt, hd'⟩ := List.pairwise_cons.mp hd
      have he := hes e (List.mem_cons_self ..)
      have hidx := h.expireIndex_clean_one he
      -- the later keys are greater than this one, so still indexed after deleting it
      have hes' : ∀ e' ∈ es, expireIndex (Applier.upsert_kv sm (UpsertKV.delete e.2)).1.levels e'.1 = some e'.2 := by
        intro e' he'
        rw [hidx, if_neg (hlt e' he').ne']
        exact hes e' (List.mem_cons_of_mem _ he')
      obtain ⟨sm', hf, h', hc', hidx'⟩ := ih (h.upsert_kv _) hes' hd'
      refine ⟨sm', ?_, h', hc'.trans (Applier.expire_cursor_upsert_kv _), fun ek => ?_⟩
      · rw [List.foldlM_cons, h.clean_one_ok he]
        exact hf
      · rw [hidx', hidx]
        by_cases h1 : ek = e.1 <;> by_cases h2 : ek ∈ es.map Prod.fst <;> simp [h1, h2]

end ExpireInv

section Clean

variable {kmerge : ∀ {α : Type}, (α → α → Except String Bool) → List (List α) → Except String (List α)}
  (hk : KMerge.MergeSpec kmerge)
include hk

theorem list_expire_index_ok {sm : SMV002 LogId Membership Node} (h : LevelInv sm.levels)
    {l : List (ExpireKey × String)} (hl : sm.list_expire_index kmerge = .ok l) :
    l.Pairwise (fun a b => a.1 < b.1) ∧
      ∀ ek key, (ek, key) ∈ l ↔ sm.expire_cursor ≤ ek ∧ expireIndex sm.levels ek = some key := by
  obtain ⟨out, hout, rfl⟩ := ExceptM.map_eq_ok hl
  obtain ⟨m, hm, rfl⟩ := compacted_range_ok hk (fun l _ => SortedMap.rangeFrom_sorted _ _) hout
  have hruns : sm.levels.iter_levels.map (fun l => Level.expire_map.range l (some sm.expire_cursor)) =
      (sm.levels.iter_levels.map Level.expire).map (fun m => m.rangeFrom sm.expire_cursor) := by
    rw [List.map_map]
    rfl
  rw [hruns] at hm
  refine ⟨List.Pairwise.filterMap _ ?_ hm.coalesce_sorted, fun ek key => ?_⟩
  · intro a b hab a' ha' b' hb'
    obtain ⟨p, -, rfl⟩ := Option.map_eq_some_iff.mp (Option.mem_def.mp ha')
    obtain ⟨q, -, rfl⟩ := Option.map_eq_some_iff.mp (Option.mem_def.mp hb')
    exact hab
  · rw [List.mem_filterMap, expireIndex_eq_firstEntry h, Option.bind_eq_some_iff]
    constructor
    · rintro ⟨⟨k, x⟩, hx, he⟩
      obtain ⟨hlo, hf⟩ := (mem_coalesce_rangeFrom_iff h.expire_ordered hm).mp hx
      obtain ⟨p, hp, hpe⟩ := Option.map_eq_some_iff.mp he
      obtain ⟨rfl, rfl⟩ := Prod.mk.inj hpe
      exact ⟨hlo, x, hf, by rw [hp]; rfl⟩
    · rintro ⟨hlo, x, hf, hx⟩
      obtain ⟨p, hp, rfl⟩ := Option.map_eq_some_iff.mp hx
      exact ⟨(ek, x), (mem_coalesce_rangeFrom_iff h.expire_ordered hm).mpr ⟨hlo, hf⟩, by rw [hp]; rfl⟩

theorem list_expire_index_exists_ok {sm : SMV002 LogId Membership Node}
    (hs : StrictlyOrdered (sm.levels.iter_levels.map Level.expire)) :
    ∃ l, sm.list_expire_index kmerge = .ok l := by
  have hd : KeySeqDistinct (sm.levels.iter_levels.map (fun l => Level.expire_map.range l (some sm.expire_cursor))) := by
    have := keySeqDistinct_of_strictlyOrdered hs (some sm.expire_cursor)
    rwa [List.map_map] at this
  obtain ⟨out, hout⟩ := compacted_range_exists_ok hk hd
  exact ⟨_, by rw [SMV002.list_expire_index, LeveledMap.range, hout]; rfl⟩

theorem ExpireInv.clean_expired_kvs {sm : SMV002 LogId Membership Node} (h : ExpireInv sm) (t : Nat) :
    ∃ sm', Applier.clean_expired_kvs kmerge t sm = .ok sm' ∧ ExpireInv sm' ∧ sm.expire_cursor ≤ sm'.expire_cursor ∧
      (t ≠ 0 → t ≤ sm'.expire_cursor.time_ms) := by
  unfold Applier.clean_expired_kvs
  split_ifs with ht
  · exact ⟨sm, rfl, h, le_rfl, fun h0 => absurd ht h0⟩
  · obtain ⟨l, hl⟩ := list_expire_index_exists_ok hk h.expire_strict
    obtain ⟨hsorted, hmem⟩ := list_expire_index_ok hk h.levels hl
    have hsub := List.takeWhile_sublist (fun e : ExpireKey × String => e.1.is_expired t) (l := l)
    obtain ⟨sm1, hf, h1, hc1, hidx1⟩ := h.clean_loop
      (fun e he => ((hmem e.1 e.2).mp (hsub.subset he)).2) (hsorted.sublist hsub)
    refine ⟨sm1.update_expire_cursor t, by rw [hl]; dsimp only [bind, Except.bind]; rw [hf]; rfl, ?_, ?_, ?_⟩
    · unfold SMV002.update_expire_cursor
      split_ifs with hlt
      · exact h1
      refine ⟨h1.levels, h1.exact, fun k ek hk' => ?_, rfl, h1.expire_strict⟩
      show t ≤ ek.time_ms
      -- a key still indexed after the loop was not taken, so it is not expired at `t`
      have hi := (h1.exact ek k).mpr hk'
      rw [hidx1] at hi
      split_ifs at hi with hmem'
      have hcur : sm.expire_cursor ≤ ek := by
        have := h.after_cursor k ek ((h.exact ek k).mp hi)
        rw [ExpireKey.le_iff, h.cursor_seq]
        omega
      have hin := (hmem ek k).mpr ⟨hcur, hi⟩
      by_contra hlt'
      refine hmem' (List.mem_map.mpr ⟨(ek, k), List.mem_takeWhile_of_pairwise hsorted ?_ hin ?_, rfl⟩)
      · intro a b hab hb
        simp only [ExpireKey.is_expired, decide_eq_true_eq] at hb ⊢
        rcases ExpireKey.le_iff.mp hab.le with h' | h' <;> omega
      · simp only [ExpireKey.is_expired, decide_eq_true_eq]
        omega
    · unfold SMV002.update_expire_cursor
      split_ifs with hlt
      · rw [hc1]
      · show sm.expire_cursor ≤ ⟨t, 0⟩
        rw [hc1] at hlt
        rw [ExpireKey.le_iff, h.cursor_seq]
        dsimp only
        omega
    · intro _
      unfold SMV002.update_expire_cursor
      split_ifs with hlt
      · exact hlt.le
      · exact le_rfl

theorem ExpireInv.apply {s s' : SMV002 LogId Membership Node} {entry : Entry LogId Membership Node}
    {r : AppliedState Node} (h : ExpireInv s) (ha : Applier.apply kmerge entry s = .ok (s', r)) :
    ExpireInv s' ∧ (Applier.get_log_time entry ≠ 0 → Applier.get_log_time entry ≤ s'.expire_cursor.time_ms) := by
  obtain ⟨s1, hc, hrest⟩ := Applier.apply_decompose kmerge ha
  obtain ⟨s2, hc2, h2, -, ht⟩ := h.clean_expired_kvs hk (Applier.get_log_time entry)
  rw [hc] at hc2
  cases hc2
  exact hrest (fun s => ExpireInv s ∧ (Applier.get_log_time entry ≠ 0 →
      Applier.get_log_time entry ≤ s.expire_cursor.time_ms))
    (fun s u hs => ⟨hs.1.upsert_kv u, by rw [Applier.expire_cursor_upsert_kv]; exact hs.2⟩)
    (fun s f hf hs => ⟨hs.1.modify_sys_data hf, hs.2⟩) ⟨h2, ht⟩

theorem ExpireInv.step {s s' : SMV002 LogId Membership Node} (hs : Step kmerge s s') (h : ExpireInv s) :
    ExpireInv s' := by
  cases hs with
  | apply entry ha => exact (h.apply hk ha).1
  | snapshot => exact h.freeze
  | compact _ _ hv => exact h.compact hk hv

theorem reachable_expireInv [Inhabited Membership] {s : SMV002 LogId Membership Node}
    (hr : Reachable kmerge s) : ExpireInv s := by
  induction hr with
  | refl =>
      have hget : ∀ k, (SMV002.default_sm : SMV002 LogId Membership Node).levels.get Level.str_map k =
          Marked.empty := fun _ => rfl
      refine ⟨levelInv_default, fun ek k => ?_, fun k ek hek => ?_, rfl, ?_⟩
      · have hidx : expireIndex (SMV002.default_sm : SMV002 LogId Membership Node).levels ek = none := rfl
        rw [hget, hidx, show expireKeyOf (Marked.empty : Marked (List UInt8)) = none from rfl]
        simp
      · rw [hget] at hek
        cases hek
      · simp [LeveledMap.iter_levels, SMV002.default_sm, LeveledMap.default_map, Level.default_level,
          StrictlyOrdered]
  | tail _ hs ih => exact ih.step hk hs

theorem expire_index_consistency [Inhabited Membership] :
    (∀ s : SMV002 LogId Membership Node, Reachable kmerge s →
      (∀ k t, (s.levels.get Level.str_map k).meta_of.bind KVMeta.expire_at = some t → t * 1000 < 2 ^ 64) →
      ∀ ek key, (s.levels.get Level.expire_map ek).unpack.map Prod.fst = some key ↔
        ∃ t, (s.levels.get Level.str_map key).is_normal = true ∧
          (s.levels.get Level.str_map key).meta_of.bind KVMeta.expire_at = some t ∧
          ek = ⟨t * 1000, (s.levels.get Level.str_map key).seq⟩) ∧
    (∀ s : SMV002 LogId Membership Node, Reachable kmerge s →
      ∀ t, ∃ s', Applier.clean_expired_kvs kmerge t s = .ok s') ∧
    (∀ (s s' : SMV002 LogId Membership Node) (entry : Entry LogId Membership Node) (r : AppliedState Node),
      Reachable kmerge s → Applier.apply kmerge entry s = .ok (s', r) → Applier.get_log_time entry ≠ 0 →
      ∀ k t, (s'.levels.get Level.str_map k).is_normal = true →
        (s'.levels.get Level.str_map k).meta_of.bind KVMeta.expire_at = some t →
        Applier.get_log_time entry ≤ t * 1000) := by
  refine ⟨fun s hr hov ek key => ?_, fun s hr t => ?_, fun s s' entry r hr ha ht k t _ hexp => ?_⟩
  · rw [← expireKeyOf_eq_some_iff (hov key)]
    exact (reachable_expireInv hk hr).exact ek key
  · obtain ⟨s', hc, -⟩ := (reachable_expireInv hk hr).clean_expired_kvs hk t
    exact ⟨s', hc⟩
  · obtain ⟨h', hcur⟩ := (reachable_expireInv hk hr).apply hk ha
    have := h'.after_cursor k _ (expireKeyOf_of_expire_at hexp)
    calc Applier.get_log_time entry ≤ s'.expire_cursor.time_ms := hcur ht
      _ ≤ t * 1000 % 2 ^ 64 := this
      _ ≤ t * 1000 := Nat.mod_le _ _

end Clean

theorem expire_index_consistency_two_levels :
    ((two_level_sm.levels.get Level.expire_map ⟨100000, 1⟩).unpack.map Prod.fst = some "a" ↔
      ∃ t, (two_level_sm.levels.get Level.str_map "a").is_normal = true ∧
        (two_level_sm.levels.get Level.str_map "a").meta_of.bind KVMeta.expire_at = some t ∧
        (⟨100000, 1⟩ : ExpireKey) = ⟨t * 1000, (two_level_sm.levels.get Level.str_map "a").seq⟩) ∧
      (∃ s', Applier.clean_expired_kvs @foldMerge 200000 two_level_sm = .ok s') ∧
      ∃ s' r, Applier.apply @foldMerge ⟨3, .Normal ⟨none, some 50000, .UpsertKV (UpsertKV.update "c" [3])⟩⟩
          two_level_sm = .ok (s', r) ∧
        ∀ k t, (s'.levels.get Level.str_map k).is_normal = true →
          (s'.levels.get Level.str_map k).meta_of.bind KVMeta.expire_at = some t → 50000 ≤ t * 1000 := by
  have h := @expire_index_consistency Nat Unit Unit @foldMerge foldMerge_mergeSpec _
  have hr := reachable_two_level_sm @foldMerge
  -- only "a" carries an expiry, at 100 s
  have hov : ∀ k t, (two_level_sm.levels.get Level.str_map k).meta_of.bind KVMeta.expire_at = some t →
      t * 1000 < 2 ^ 64 := by
    intro k t ht
    by_cases ha : "a" = k <;> by_cases hb : "b" = k <;>
      simp [two_level_sm, one_level_sm, LeveledMap.get, LeveledMap.iter_levels, compacted_get, MapApi.get,
        Level.str_map, SortedMap.get, SortedMap.getList, Marked.not_found, Marked.meta_of, Marked.empty, ha, hb] at ht
    all_goals omega
  let e : Entry Nat Unit Unit := ⟨3, .Normal ⟨none, some 50000, .UpsertKV (UpsertKV.update "c" [3])⟩⟩
  have ha : Applier.apply @foldMerge e two_level_sm = .ok _ := rfl
  exact ⟨h.1 _ hr hov _ _, h.2.1 _ hr _, ⟨_, _, ha, h.2.2 _ _ e _ hr ha (by decide)⟩⟩

section Compact

variable {kmerge : ∀ {α : Type}, (α → α → Except String Bool) → List (List α) → Except String (List α)}

theorem reachable_compact_mem_levels [Inhabited Membership] (hk : KMerge.MergeSpec kmerge)
    {s : SMV002 LogId Membership Node} (hr : Reachable kmerge s)
    (hkv : KeySeqDistinct (s.levels.frozen.reverse.map (fun l => Level.str_map.range l none))) :
    ∃ v, (SnapshotViewV002.new s.levels.frozen).compact_mem_levels kmerge = .ok v ∧
    (∀ k, (compacted_get Level.str_map.get k v.compacted.reverse).toSeqV =
      (compacted_get Level.str_map.get k s.levels.frozen.reverse).toSeqV) ∧
    (∀ ek, (compacted_get Level.expire_map.get ek v.compacted.reverse).toSeqV =
      (compacted_get Level.expire_map.get ek s.levels.frozen.reverse).toSeqV) ∧
    (∀ newest, s.levels.frozen.getLast? = some newest → 2 ≤ s.levels.frozen.length →
      v.compacted.map (·.sys_data) = [newest.sys_data] ∧
      ∃ kv expire, compacted_range kmerge Level.str_map.range none s.levels.frozen.reverse = .ok kv ∧
        compacted_range kmerge Level.expire_map.range none s.levels.frozen.reverse = .ok expire ∧
        compacted_range kmerge Level.str_map.range none v.compacted.reverse =
          .ok (kv.filter (fun e => e.2.is_normal)) ∧
        compacted_range kmerge Level.expire_map.range none v.compacted.reverse =
          .ok (expire.filter (fun e => e.2.is_normal))) := by
  have h := reachable_levelInv hk hr
  have he := reachable_expireInv hk hr
  have hko := h.kv_ordered
  have heo := h.expire_ordered
  have hkb := h.kv_bounded
  have heb := h.expire_bounded
  have hes := he.expire_strict
  rw [map_iter_levels] at hko heo hkb heb hes
  -- the expire levels are strictly ordered, so their merge never trips the assertion
  have hexp : KeySeqDistinct (s.levels.frozen.reverse.map (fun l => Level.expire_map.range l none)) := by
    have := keySeqDistinct_of_strictlyOrdered (List.pairwise_cons.mp hes).2 none
    rwa [List.map_map] at this
  obtain ⟨v, hv⟩ : ∃ v, (SnapshotViewV002.new s.levels.frozen).compact_mem_levels kmerge = .ok v :=
    SnapshotViewV002.compact_mem_levels_exists_ok hk hkv hexp
  refine ⟨v, hv, ?_⟩
  rcases compact_mem_levels_cases hk hv with ⟨hs, hc⟩ | ⟨newest, mk, me, hn, -, hmk, hme, hkvr, hexpr, hc⟩
  · rw [hc]
    exact ⟨fun _ => rfl, fun _ => rfl, fun _ _ h2 => absurd h2 (by omega)⟩
  · have hkb' : SeqBounded (s.levels.frozen.reverse.map Level.kv) s.curr_seq :=
      fun m hm => hkb m (List.mem_cons_of_mem _ hm)
    have heb' : SeqBounded (s.levels.frozen.reverse.map Level.expire) s.curr_seq :=
      fun m hm => heb m (List.mem_cons_of_mem _ hm)
    rw [hc]
    refine ⟨fun k => ?_, fun ek => ?_, fun newest' hn' _ => ?_⟩
    · exact toSeqV_compacted_get_compact hk Level.str_map (List.pairwise_cons.mp hko).2 hkb' hmk rfl k
    · exact toSeqV_compacted_get_compact hk Level.expire_map (List.pairwise_cons.mp heo).2 heb' hme rfl ek
    · rw [hn] at hn'
      cases hn'
      refine ⟨rfl, _, _, hkvr, hexpr, ?_, ?_⟩
      · rw [List.reverse_singleton, compacted_range_single hk Level.str_map]
        exact congrArg Except.ok (compactMap_entries hmk)
      · rw [List.reverse_singleton, compacted_range_single hk Level.expire_map]
        exact congrArg Except.ok (compactMap_entries hme)

end Compact

-- freezing the deleted "a" gives three frozen levels: the compacted level keeps "b" alone, and the
-- expire index of "a" goes with its tombstone
set_option synthInstance.maxSize 512 in
theorem reachable_compact_mem_levels_four_levels :
    ((SnapshotViewV002.new three_level_sm.full_snapshot_view.1.levels.frozen).compact_mem_levels @foldMerge).map
        (fun v => v.compacted.map (fun l => (l.kv.entries, l.expire.entries))) =
      .ok [([("b", .Normal 2 [2] none)], [])] ∧
    ∃ v, (SnapshotViewV002.new three_level_sm.full_snapshot_view.1.levels.frozen).compact_mem_levels @foldMerge = .ok v ∧
    (∀ k, (compacted_get Level.str_map.get k v.compacted.reverse).toSeqV =
      (compacted_get Level.str_map.get k three_level_sm.full_snapshot_view.1.levels.frozen.reverse).toSeqV) ∧
    (∀ ek, (compacted_get Level.expire_map.get ek v.compacted.reverse).toSeqV =
      (compacted_get Level.expire_map.get ek three_level_sm.full_snapshot_view.1.levels.frozen.reverse).toSeqV) ∧
    (∀ newest, three_level_sm.full_snapshot_view.1.levels.frozen.getLast? = some newest → 2 ≤ three_level_sm.full_snapshot_view.1.levels.frozen.length →
      v.compacted.map (·.sys_data) = [newest.sys_data] ∧
      ∃ kv expire, compacted_range @foldMerge Level.str_map.range none three_level_sm.full_snapshot_view.1.levels.frozen.reverse = .ok kv ∧
        compacted_range @foldMerge Level.expire_map.range none three_level_sm.full_snapshot_view.1.levels.frozen.reverse = .ok expire ∧
        compacted_range @foldMerge Level.str_map.range none v.compacted.reverse =
          .ok (kv.filter (fun e => e.2.is_normal)) ∧
        compacted_range @foldMerge Level.expire_map.range none v.compacted.reverse =
          .ok (expire.filter (fun e => e.2.is_normal))) :=
  ⟨by decide +kernel, reachable_compact_mem_levels foldMerge_mergeSpec
    (.tail (reachable_three_level_sm _) (Step.snapshot _)) (by decide +kernel)⟩

end Databend.Meta
