import Databend.Meta.Ordered

namespace Databend.Meta

section Ranges

variable {L K V : Type} [LinearOrder K]
  {kmerge : ∀ {α : Type}, (α → α → Except String Bool) → List (List α) → Except String (List α)}
  (hk : KMerge.MergeSpec kmerge) (api : MapApi L K V)
include hk

theorem compacted_range_none_ok {levels : List L} {out : List (K × Marked V)}
    (h : compacted_range kmerge api.range none levels = .ok out) :
    ∃ m, KMerge.MergedRuns Marked.internal_seq ((levels.map api.map).map (·.entries)) m ∧
      out = KMerge.coalesce (KMerge.pickGreater Marked.internal_seq) m := by
  obtain ⟨m, hm, rfl⟩ := compacted_range_ok hk (fun l _ => (api.map l).sorted) h
  have hmap : levels.map (fun l => api.range l none) = (levels.map api.map).map (·.entries) := by
    rw [List.map_map]
    rfl
  rw [hmap] at hm
  exact ⟨m, hm, rfl⟩

theorem compacted_range_single (l : L) : compacted_range kmerge api.range none [l] = .ok (api.map l).entries := by
  have hd : KeySeqDistinct ([l].map (fun l => api.range l none)) := List.pairwise_singleton _ _
  obtain ⟨out, hout⟩ := compacted_range_exists_ok hk hd
  obtain ⟨m, hm, rfl⟩ := compacted_range_none_ok hk api hout
  rw [hout, hm.coalesce_single rfl (api.map l).sorted]

end Ranges

namespace SnapshotViewV002

variable {LogId Membership Node : Type}
  (kmerge : ∀ {α : Type}, (α → α → Except String Bool) → List (List α) → Except String (List α))

theorem compact_mem_levels_short {v : SnapshotViewV002 LogId Membership Node}
    (h : v.compacted.length ≤ 1) : v.compact_mem_levels kmerge = .ok v := by
  unfold compact_mem_levels
  split
  · rfl
  · rw [if_pos h]

theorem compact_mem_levels_long_eq {v : SnapshotViewV002 LogId Membership Node}
    {newest : Level LogId Membership Node} (hn : v.compacted.getLast? = some newest) (h : 2 ≤ v.compacted.length) :
    v.compact_mem_levels kmerge = (do
      let kv ← compacted_range kmerge Level.str_map.range none v.compacted.reverse
      let expire ← compacted_range kmerge Level.expire_map.range none v.compacted.reverse
      pure { v with compacted := [⟨newest.sys_data, SortedMap.ofList (kv.filter (fun e => e.2.is_normal)),
        SortedMap.ofList (expire.filter (fun e => e.2.is_normal))⟩] }) := by
  unfold compact_mem_levels
  simp only [hn, if_neg (show ¬v.compacted.length ≤ 1 by omega)]
  rfl

variable {kmerge} (hk : KMerge.MergeSpec kmerge)
include hk

theorem compact_mem_levels_long {v v' : SnapshotViewV002 LogId Membership Node}
    {newest : Level LogId Membership Node} (hn : v.compacted.getLast? = some newest) (h : 2 ≤ v.compacted.length)
    (hv : v.compact_mem_levels kmerge = .ok v') :
    ∃ mk me, KMerge.MergedRuns Marked.internal_seq ((v.compacted.reverse.map Level.kv).map (·.entries)) mk ∧
      KMerge.MergedRuns Marked.internal_seq ((v.compacted.reverse.map Level.expire).map (·.entries)) me ∧
      compacted_range kmerge Level.str_map.range none v.compacted.reverse =
        .ok (KMerge.coalesce (KMerge.pickGreater Marked.internal_seq) mk) ∧
      compacted_range kmerge Level.expire_map.range none v.compacted.reverse =
        .ok (KMerge.coalesce (KMerge.pickGreater Marked.internal_seq) me) ∧
      v'.compacted = [⟨newest.sys_data, compactMap mk, compactMap me⟩] := by
  rw [compact_mem_levels_long_eq kmerge hn h] at hv
  cases hkv : compacted_range kmerge Level.str_map.range none v.compacted.reverse with
  | error e => rw [hkv] at hv; cases hv
  | ok kv =>
      cases hexp : compacted_range kmerge Level.expire_map.range none v.compacted.reverse with
      | error e => rw [hkv, hexp] at hv; cases hv
      | ok expire =>
          rw [hkv, hexp] at hv
          cases hv
          obtain ⟨mk, hmk, rfl⟩ := compacted_range_none_ok hk Level.str_map hkv
          obtain ⟨me, hme, rfl⟩ := compacted_range_none_ok hk Level.expire_map hexp
          exact ⟨mk, me, hmk, hme, rfl, rfl, rfl⟩

theorem compact_mem_levels_exists_ok {v : SnapshotViewV002 LogId Membership Node}
    (hkv : KeySeqDistinct (v.compacted.reverse.map (fun l => Level.str_map.range l none)))
    (hexp : KeySeqDistinct (v.compacted.reverse.map (fun l => Level.expire_map.range l none))) :
    ∃ v', v.compact_mem_levels kmerge = .ok v' := by
  cases hn : v.compacted.getLast? with
  | none => exact ⟨v, by rw [compact_mem_levels, hn]⟩
  | some newest =>
      by_cases hs : v.compacted.length ≤ 1
      · exact ⟨v, compact_mem_levels_short kmerge hs⟩
      · obtain ⟨kv, hkv'⟩ := compacted_range_exists_ok hk hkv
        obtain ⟨expire, hexp'⟩ := compacted_range_exists_ok hk hexp
        exact ⟨_, by rw [compact_mem_levels_long_eq kmerge hn (by omega), hkv', hexp']; rfl⟩

end SnapshotViewV002

section Compact

variable {kmerge : ∀ {α : Type}, (α → α → Except String Bool) → List (List α) → Except String (List α)}
  (hk : KMerge.MergeSpec kmerge)
include hk

omit hk in
theorem expireKeysBelow_compact {V : Type} {m : SortedMap ExpireKey (Marked V)}
    {ms : List (SortedMap ExpireKey (Marked V))} {merged : List (ExpireKey × Marked V)}
    (hm : KMerge.MergedRuns Marked.internal_seq (ms.map (·.entries)) merged) {n : Nat} (ho : KeyOrdered ms)
    (h : ExpireKeysBelow (m :: ms) n) : ExpireKeysBelow [m, compactMap merged] n := by
  intro m' hm' e he
  rcases List.mem_pair.mp hm' with rfl | rfl
  · exact h m' (List.mem_cons_self ..) e he
  · obtain ⟨⟨m'', hm'', hy⟩, -⟩ := stored_of_compactMap hm ho (SortedMap.get_eq_some.mpr he)
    exact key_below_of_get h (List.mem_cons_of_mem _ hm'') hy

variable {LogId Membership Node : Type} {lm : LeveledMap LogId Membership Node}

theorem compact_mem_levels_cases {v : SnapshotViewV002 LogId Membership Node}
    (hv : (SnapshotViewV002.new lm.frozen).compact_mem_levels kmerge = .ok v) :
    (lm.frozen.length ≤ 1 ∧ v.compacted = lm.frozen) ∨
      ∃ newest mk me, lm.frozen.getLast? = some newest ∧ 2 ≤ lm.frozen.length ∧
        KMerge.MergedRuns Marked.internal_seq ((lm.frozen.reverse.map Level.kv).map (·.entries)) mk ∧
        KMerge.MergedRuns Marked.internal_seq ((lm.frozen.reverse.map Level.expire).map (·.entries)) me ∧
        compacted_range kmerge Level.str_map.range none lm.frozen.reverse =
          .ok (KMerge.coalesce (KMerge.pickGreater Marked.internal_seq) mk) ∧
        compacted_range kmerge Level.expire_map.range none lm.frozen.reverse =
          .ok (KMerge.coalesce (KMerge.pickGreater Marked.internal_seq) me) ∧
        v.compacted = [⟨newest.sys_data, compactMap mk, compactMap me⟩] := by
  by_cases hs : lm.frozen.length ≤ 1
  · rw [SnapshotViewV002.compact_mem_levels_short kmerge hs] at hv
    cases hv
    exact .inl ⟨hs, rfl⟩
  · obtain ⟨newest, hn⟩ : ∃ newest, lm.frozen.getLast? = some newest := by
      cases hf : lm.frozen.getLast? with
      | none => simp_all
      | some newest => exact ⟨newest, rfl⟩
    obtain ⟨mk, me, hmk, hme, hkv, hexp, hc⟩ :=
      SnapshotViewV002.compact_mem_levels_long hk hn (by simp [SnapshotViewV002.new]; omega) hv
    exact .inr ⟨newest, mk, me, hn, by omega, hmk, hme, hkv, hexp, hc⟩

theorem LevelInv.compact (h : LevelInv lm) {v : SnapshotViewV002 LogId Membership Node}
    (hv : (SnapshotViewV002.new lm.frozen).compact_mem_levels kmerge = .ok v) :
    LevelInv (lm.replace_frozen v.compacted) := by
  rcases compact_mem_levels_cases hk hv with ⟨-, hc⟩ | ⟨newest, mk, me, -, -, hmk, hme, -, -, hc⟩
  · rw [hc]
    exact h
  · rw [hc]
    obtain ⟨hko, heo, hkb, heb, hek⟩ := h
    rw [map_iter_levels] at hko heo hkb heb hek
    have hko' := (List.pairwise_cons.mp hko).2
    have heo' := (List.pairwise_cons.mp heo).2
    exact ⟨keyOrdered_compact hmk hko, keyOrdered_compact hme heo, seqBounded_compact hmk hko' hkb,
      seqBounded_compact hme heo' heb, expireKeysBelow_compact hme heo' hek⟩

theorem toSeqV_compacted_get_compact {K V : Type} [LinearOrder K] (api : MapApi (Level LogId Membership Node) K V)
    {frozen : List (Level LogId Membership Node)} {c : Nat} (ho : KeyOrdered (frozen.reverse.map api.map))
    (hb : SeqBounded (frozen.reverse.map api.map) c) {merged : List (K × Marked V)}
    (hm : KMerge.MergedRuns Marked.internal_seq ((frozen.reverse.map api.map).map (·.entries)) merged)
    {L : Level LogId Membership Node} (hL : api.map L = compactMap merged) (k : K) :
    (compacted_get api.get k [L]).toSeqV = (compacted_get api.get k frozen.reverse).toSeqV := by
  have hb' : SeqBounded ([L].map api.map) c := by
    show SeqBounded [api.map L] c
    rw [hL]
    exact seqBounded_compactMap hm ho hb
  rw [compacted_get_eq_firstEntry api k hb', compacted_get_eq_firstEntry api k hb]
  show ((firstEntry k [api.map L]).getD _).toSeqV = _
  rw [hL]
  exact toSeqV_firstEntry_compactMap hm ho k

theorem toSeqV_get_replace_compact {K V : Type} [LinearOrder K] {api : MapApi (Level LogId Membership Node) K V}
    {c : Nat} (ho : KeyOrdered (lm.iter_levels.map api.map)) (hb : SeqBounded (lm.iter_levels.map api.map) c)
    {merged : List (K × Marked V)}
    (hm : KMerge.MergedRuns Marked.internal_seq ((lm.frozen.reverse.map api.map).map (·.entries)) merged)
    {L : Level LogId Membership Node} (hL : api.map L = compactMap merged) (k : K) :
    ((lm.replace_frozen [L]).get api k).toSeqV = (lm.get api k).toSeqV := by
  rw [map_iter_levels] at ho hb
  rw [LeveledMap.get_eq_writable_or_frozen, LeveledMap.get_eq_writable_or_frozen]
  show (if (api.get lm.writable k).not_found then compacted_get api.get k [L] else api.get lm.writable k).toSeqV =
    (if (api.get lm.writable k).not_found then compacted_get api.get k lm.frozen.reverse
      else api.get lm.writable k).toSeqV
  split_ifs
  · exact toSeqV_compacted_get_compact hk api (List.pairwise_cons.mp ho).2
      (fun m hm => hb m (List.mem_cons_of_mem _ hm)) hm hL k
  · rfl

theorem toSeqV_get_compact {K V : Type} [LinearOrder K]
    {api : MapApi (Level LogId Membership Node) K V}
    (ho : KeyOrdered (lm.iter_levels.map api.map)) (hb : SeqBounded (lm.iter_levels.map api.map) lm.writable.curr_seq)
    (hmap : ∀ (d : SysData LogId Membership Node) mk me,
      KMerge.MergedRuns Marked.internal_seq ((lm.frozen.reverse.map Level.kv).map (·.entries)) mk →
      KMerge.MergedRuns Marked.internal_seq ((lm.frozen.reverse.map Level.expire).map (·.entries)) me →
      ∃ merged, KMerge.MergedRuns Marked.internal_seq ((lm.frozen.reverse.map api.map).map (·.entries)) merged ∧
        api.map ⟨d, compactMap mk, compactMap me⟩ = compactMap merged)
    {v : SnapshotViewV002 LogId Membership Node}
    (hv : (SnapshotViewV002.new lm.frozen).compact_mem_levels kmerge = .ok v) (k : K) :
    ((lm.replace_frozen v.compacted).get api k).toSeqV = (lm.get api k).toSeqV := by
  rcases compact_mem_levels_cases hk hv with ⟨-, hc⟩ | ⟨newest, mk, me, -, -, hmk, hme, -, -, hc⟩
  · rw [hc]
    rfl
  · rw [hc]
    obtain ⟨merged, hm, hL⟩ := hmap newest.sys_data mk me hmk hme
    exact toSeqV_get_replace_compact hk ho hb hm hL k

end Compact

end Databend.Meta
