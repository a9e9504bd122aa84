import Databend.Meta.Compaction

namespace Databend.Meta

variable {LogId Membership Node : Type}

theorem compacted_get_map {L K V : Type} [LinearOrder K] (api : MapApi L K V) (k : K) (levels : List L) :
    compacted_get api.get k levels =
      compacted_get (fun m k => (SortedMap.get m k).getD Marked.empty) k (levels.map api.map) := by
  induction levels with
  | nil => rfl
  | cons l ls ih => simp only [compacted_get, List.map_cons, MapApi.get, ih]

theorem get_congr_maps {K V : Type} [LinearOrder K] {api : MapApi (Level LogId Membership Node) K V}
    {lm lm' : LeveledMap LogId Membership Node} (h : lm'.iter_levels.map api.map = lm.iter_levels.map api.map)
    (k : K) : lm'.get api k = lm.get api k := by
  rw [LeveledMap.get, LeveledMap.get, compacted_get_map, compacted_get_map, h]

namespace SMV002

theorem upsert_kv_primary_index_cases (sm : SMV002 LogId Membership Node) (u : UpsertKV) :
    (sm.upsert_kv_primary_index u).2.1 = sm.levels.get Level.str_map u.key ∧
    (sm.upsert_kv_primary_index u).1.expire_cursor = sm.expire_cursor ∧
    ((sm.upsert_kv_primary_index u).1 = sm ∧
        (sm.upsert_kv_primary_index u).2.2 = sm.levels.get Level.str_map u.key ∨
      (∃ x, (sm.upsert_kv_primary_index u).1.levels = (sm.levels.set Level.str_map u.key (some x)).1 ∧
        (sm.upsert_kv_primary_index u).2.2 = (sm.levels.set Level.str_map u.key (some x)).2.2 ∧
        ∀ ms, expire_at_ms x.2 = some ms → sm.expire_cursor.time_ms ≤ ms) ∨
      (∃ lm1, (lm1 = sm.levels ∨ ∃ v, lm1 = (sm.levels.set Level.str_map u.key v).1) ∧
        (sm.upsert_kv_primary_index u).1.levels = (lm1.set Level.str_map u.key none).1 ∧
        (sm.upsert_kv_primary_index u).2.2 = (lm1.set Level.str_map u.key none).2.2)) := by
  unfold upsert_kv_primary_index
  by_cases hm : u.seq.match_seq (sm.levels.get Level.str_map u.key).seq = true
  · simp only [hm, Bool.not_true, Bool.false_eq_true, if_false]
    have hnot : ∀ ms, u.get_expire_at_ms = some ms → ¬ u.get_expire_at_ms.getD U64_MAX < sm.expire_cursor.time_ms →
        sm.expire_cursor.time_ms ≤ ms := by
      intro ms h1 h2
      rw [h1, Option.getD_some] at h2
      omega
    cases hv : u.value with
    | Update v =>
        split_ifs with hexp
        · exact ⟨LeveledMap.set_prev .., rfl, .inr (.inr ⟨_, .inr ⟨_, rfl⟩, rfl, rfl⟩)⟩
        · exact ⟨LeveledMap.set_prev .., rfl, .inr (.inl ⟨_, rfl, rfl, fun ms h => hnot ms h hexp⟩)⟩
    | Delete =>
        split_ifs with hexp
        · exact ⟨LeveledMap.set_prev .., rfl, .inr (.inr ⟨_, .inr ⟨_, rfl⟩, rfl, rfl⟩)⟩
        · exact ⟨LeveledMap.set_prev .., rfl, .inr (.inr ⟨_, .inl rfl, rfl, rfl⟩)⟩
    | AsIs =>
        rcases hg : sm.levels.get Level.str_map u.key with s | ⟨n, v, m⟩
        · simp only [LeveledMap.update_meta, hg]
          split_ifs with hexp
          · exact ⟨rfl, rfl, .inr (.inr ⟨_, .inl rfl, rfl, rfl⟩)⟩
          · exact ⟨rfl, rfl, .inl ⟨rfl, rfl⟩⟩
        · simp only [LeveledMap.update_meta, hg]
          rw [← hg]
          split_ifs with hexp
          · exact ⟨LeveledMap.set_prev .., rfl, .inr (.inr ⟨_, .inr ⟨_, rfl⟩, rfl, rfl⟩)⟩
          · exact ⟨LeveledMap.set_prev .., rfl, .inr (.inl ⟨_, rfl, rfl, fun ms h => hnot ms h hexp⟩)⟩
  · simp [hm]

theorem upsert_kv_primary_index_next_seq (sm : SMV002 LogId Membership Node) (u : UpsertKV)
    (hm : u.seq.match_seq (sm.levels.get Level.str_map u.key).seq = true)
    (hv : (∃ v, u.value = .Update v) ∨ (u.value = .AsIs ∧ (sm.levels.get Level.str_map u.key).is_normal = true)) :
    (sm.upsert_kv_primary_index u).1.curr_seq = sm.curr_seq + 1 ∧
      (sm.upsert_kv_primary_index u).2.2.internal_seq.seq = sm.curr_seq + 1 := by
  have hwrite : ∀ x : List UInt8 × Option KVMeta,
      (if u.get_expire_at_ms.getD U64_MAX < sm.expire_cursor.time_ms then
        (({ sm with levels := ((sm.levels.set Level.str_map u.key (some x)).1.set Level.str_map u.key none).1 },
          ((sm.levels.set Level.str_map u.key (some x)).2.1,
            ((sm.levels.set Level.str_map u.key (some x)).1.set Level.str_map u.key none).2.2)) :
          SMV002 LogId Membership Node × _)
      else ({ sm with levels := (sm.levels.set Level.str_map u.key (some x)).1 },
        (sm.levels.set Level.str_map u.key (some x)).2)).1.curr_seq = sm.curr_seq + 1 ∧
      (if u.get_expire_at_ms.getD U64_MAX < sm.expire_cursor.time_ms then
        (({ sm with levels := ((sm.levels.set Level.str_map u.key (some x)).1.set Level.str_map u.key none).1 },
          ((sm.levels.set Level.str_map u.key (some x)).2.1,
            ((sm.levels.set Level.str_map u.key (some x)).1.set Level.str_map u.key none).2.2)) :
          SMV002 LogId Membership Node × _)
      else ({ sm with levels := (sm.levels.set Level.str_map u.key (some x)).1 },
        (sm.levels.set Level.str_map u.key (some x)).2)).2.2.internal_seq.seq = sm.curr_seq + 1 := by
    intro x
    have hf : ((sm.levels.set Level.str_map u.key (some x)).1.get Level.str_map u.key).not_found = false := by
      rw [get_set_str_some]
      rfl
    split_ifs
    · rw [LeveledMap.set_write (.inl hf), set_str_some]
      exact ⟨rfl, rfl⟩
    · rw [set_str_some]
      exact ⟨rfl, rfl⟩
  unfold upsert_kv_primary_index
  simp only [hm, Bool.not_true, Bool.false_eq_true, if_false]
  rcases hv with ⟨v, hv⟩ | ⟨hv, hn⟩
  · simp only [hv]
    exact hwrite _
  · rcases hg : sm.levels.get Level.str_map u.key with s | ⟨n, v, m⟩
    · rw [hg] at hn
      cases hn
    · simp only [hv, LeveledMap.update_meta, hg]
      exact hwrite _

section Primary

variable {sm : SMV002 LogId Membership Node} (u : UpsertKV)

theorem expire_maps_upsert_kv_primary_index :
    (sm.upsert_kv_primary_index u).1.levels.iter_levels.map Level.expire = sm.levels.iter_levels.map Level.expire := by
  have hset : ∀ (lm : LeveledMap LogId Membership Node) v,
      (lm.set Level.str_map u.key v).1.iter_levels.map Level.expire = lm.iter_levels.map Level.expire :=
    fun lm v => map_set_unchanged Level.str_map lm Level.str_set_expire u.key v
  obtain ⟨-, -, h1 | ⟨x, hl, -⟩ | ⟨lm1, hlm1, hl, -⟩⟩ := upsert_kv_primary_index_cases sm u
  · rw [h1.1]
  · rw [hl, hset]
  · rw [hl, hset]
    rcases hlm1 with rfl | ⟨v, rfl⟩
    · rfl
    · exact hset _ _

theorem curr_seq_le_upsert_kv_primary_index : sm.curr_seq ≤ (sm.upsert_kv_primary_index u).1.curr_seq := by
  have hset := fun (lm : LeveledMap LogId Membership Node) v => curr_seq_set_le levelApi_str_map lm u.key v
  obtain ⟨-, -, h1 | ⟨x, hl, -⟩ | ⟨lm1, hlm1, hl, -⟩⟩ := upsert_kv_primary_index_cases sm u
  · rw [h1.1]
  · unfold curr_seq
    rw [hl]
    exact hset _ _
  · unfold curr_seq
    rw [hl]
    refine le_trans ?_ (hset _ _)
    rcases hlm1 with rfl | ⟨v, rfl⟩
    · exact le_rfl
    · exact hset _ _

theorem upsert_kv_primary_index_normal (hn : (sm.upsert_kv_primary_index u).2.2.is_normal = true) :
    (sm.upsert_kv_primary_index u).2.2 = (sm.upsert_kv_primary_index u).2.1 ∨
      ((sm.upsert_kv_primary_index u).2.2.internal_seq.seq = (sm.upsert_kv_primary_index u).1.curr_seq ∧
        (sm.upsert_kv_primary_index u).1.curr_seq = sm.curr_seq + 1 ∧
        ∀ ms, (sm.upsert_kv_primary_index u).2.2.expire_at_ms = some ms → sm.expire_cursor.time_ms ≤ ms) := by
  obtain ⟨hp, -, h1 | ⟨x, hl, hr, hexp⟩ | ⟨lm1, -, -, hr⟩⟩ := upsert_kv_primary_index_cases sm u
  · exact .inl (h1.2.trans hp.symm)
  · right
    rw [curr_seq, hl, hr, set_str_some]
    exact ⟨rfl, rfl, hexp⟩
  · rw [hr, set_none_not_normal levelApi_str_map] at hn
    cases hn

variable (h : LevelInv sm.levels)
include h

theorem levelInv_upsert_kv_primary_index : LevelInv (sm.upsert_kv_primary_index u).1.levels := by
  obtain ⟨-, -, h1 | ⟨x, hl, -⟩ | ⟨lm1, hlm1, hl, -⟩⟩ := upsert_kv_primary_index_cases sm u
  · rw [h1.1]; exact h
  · rw [hl]; exact h.set_str _ _
  · rw [hl]
    rcases hlm1 with rfl | ⟨v, rfl⟩
    · exact h.set_str _ _
    · exact (h.set_str _ _).set_str _ _

theorem get_upsert_kv_primary_index (k : String) :
    (sm.upsert_kv_primary_index u).1.levels.get Level.str_map k =
      if k = u.key then (sm.upsert_kv_primary_index u).2.2 else sm.levels.get Level.str_map k := by
  obtain ⟨-, -, h1 | ⟨x, hl, hr, -⟩ | ⟨lm1, hlm1, hl, hr⟩⟩ := upsert_kv_primary_index_cases sm u
  · rw [h1.1, h1.2]
    split_ifs with hk
    · rw [hk]
    · rfl
  · rw [hl, hr]
    split_ifs with hk
    · subst hk
      exact get_set_self levelApi_str_map h.kv_bounded _ _
    · exact get_set_ne levelApi_str_map hk _
  · have h1 : LevelInv lm1 := by
      rcases hlm1 with rfl | ⟨v, rfl⟩
      exacts [h, h.set_str _ _]
    rw [hl, hr]
    split_ifs with hk
    · subst hk
      exact get_set_self levelApi_str_map h1.kv_bounded _ _
    · rw [get_set_ne levelApi_str_map hk]
      rcases hlm1 with rfl | ⟨v, rfl⟩
      · rfl
      · exact get_set_ne levelApi_str_map hk _

end Primary

section ExpireIndex

variable (sm : SMV002 LogId Membership Node) (key : String) (removed added : Marked (List UInt8))

theorem expire_cursor_update_expire_index :
    (sm.update_expire_index key removed added).expire_cursor = sm.expire_cursor := by
  unfold update_expire_index
  split_ifs <;> rfl

theorem kv_maps_update_expire_index :
    (sm.update_expire_index key removed added).levels.iter_levels.map Level.kv = sm.levels.iter_levels.map Level.kv := by
  have hset : ∀ (lm : LeveledMap LogId Membership Node) ek v,
      (lm.set Level.expire_map ek v).1.iter_levels.map Level.kv = lm.iter_levels.map Level.kv :=
    fun lm ek v => map_set_unchanged Level.expire_map lm Level.expire_set_kv ek v
  unfold update_expire_index
  split_ifs
  · rfl
  · rcases removed.expire_at_ms with _ | msr <;> rcases added.expire_at_ms with _ | msa <;>
      simp only [hset]

theorem curr_seq_update_expire_index :
    (sm.update_expire_index key removed added).curr_seq = sm.curr_seq := by
  have hnone := fun (lm : LeveledMap LogId Membership Node) ek => curr_seq_set_none levelApi_expire_map lm ek
  have hsome : ∀ (lm : LeveledMap LogId Membership Node) ek x,
      (lm.set Level.expire_map ek (some x)).1.writable.curr_seq = lm.writable.curr_seq := by
    intro lm ek x
    rw [set_fst_of_write (.inr rfl)]
    rfl
  unfold update_expire_index curr_seq
  split_ifs
  · rfl
  · rcases removed.expire_at_ms with _ | msr <;> rcases added.expire_at_ms with _ | msa <;>
      simp only [hnone, hsome]

theorem levelInv_update_expire_index (h : LevelInv sm.levels)
    (hadd : removed ≠ added → ∀ ms, added.expire_at_ms = some ms →
      added.internal_seq.seq = sm.curr_seq ∧ 1 ≤ sm.curr_seq ∧ removed.internal_seq.seq < sm.curr_seq ∧
        ExpireKeysBelow (sm.levels.iter_levels.map Level.expire) sm.curr_seq) :
    LevelInv (sm.update_expire_index key removed added).levels := by
  unfold update_expire_index
  split_ifs with hne
  · exact h
  · rcases hr : removed.expire_at_ms with _ | msr <;> rcases ha : added.expire_at_ms with _ | msa <;>
      simp only
    · exact h
    · obtain ⟨hseq, hpos, -, hfresh⟩ := hadd hne msa ha
      exact h.set_expire_some _ hpos hseq.le (hseq ▸ hfresh)
    · exact h.set_expire_none _
    · obtain ⟨hseq, hpos, hrem, hfresh⟩ := hadd hne msa ha
      have hc := curr_seq_set_none levelApi_expire_map sm.levels ⟨msr, removed.internal_seq.seq⟩
      apply (h.set_expire_none _).set_expire_some _ (hc ▸ hpos) (hc ▸ hseq.le)
      rw [hseq]
      exact expireKeysBelow_set_none hfresh (fun _ => hrem)

theorem strictlyOrdered_update_expire_index (h : LevelInv sm.levels)
    (hs : StrictlyOrdered (sm.levels.iter_levels.map Level.expire))
    (hrem : removed ≠ added → ∀ ms, removed.expire_at_ms = some ms → ∀ x,
      firstEntry ⟨ms, removed.internal_seq.seq⟩ (sm.levels.iter_levels.map Level.expire) = some x →
        x.is_normal = true)
    (hadd : removed ≠ added → ∀ ms, added.expire_at_ms = some ms →
      added.internal_seq.seq = sm.curr_seq ∧ 1 ≤ sm.curr_seq ∧ removed.internal_seq.seq < sm.curr_seq ∧
        ExpireKeysBelow (sm.levels.iter_levels.map Level.expire) sm.curr_seq) :
    StrictlyOrdered ((sm.update_expire_index key removed added).levels.iter_levels.map Level.expire) := by
  unfold update_expire_index
  split_ifs with hne
  · exact hs
  · rcases hr : removed.expire_at_ms with _ | msr <;> rcases ha : added.expire_at_ms with _ | msa <;>
      simp only
    · exact hs
    · obtain ⟨hseq, -, -, hfresh⟩ := hadd hne msa ha
      exact strictlyOrdered_set_expire_some hs _ (hseq ▸ hfresh)
    · exact strictlyOrdered_set_expire_none hs h _ (hrem hne msr hr)
    · obtain ⟨hseq, -, hlt, hfresh⟩ := hadd hne msa ha
      apply strictlyOrdered_set_expire_some (strictlyOrdered_set_expire_none hs h _ (hrem hne msr hr))
      rw [hseq]
      exact expireKeysBelow_set_none hfresh (fun _ => hlt)

end ExpireIndex

end SMV002

namespace Applier

section Upsert

variable {sm : SMV002 LogId Membership Node} (u : UpsertKV)

theorem curr_seq_upsert_kv : (upsert_kv sm u).1.curr_seq = (sm.upsert_kv_primary_index u).1.curr_seq :=
  SMV002.curr_seq_update_expire_index ..

theorem curr_seq_le_upsert_kv : sm.curr_seq ≤ (upsert_kv sm u).1.curr_seq := by
  rw [curr_seq_upsert_kv]
  exact SMV002.curr_seq_le_upsert_kv_primary_index u

theorem expire_cursor_upsert_kv : (upsert_kv sm u).1.expire_cursor = sm.expire_cursor := by
  rw [upsert_kv, SMV002.expire_cursor_update_expire_index]
  exact (SMV002.upsert_kv_primary_index_cases sm u).2.1

variable (h : LevelInv sm.levels)
include h

theorem get_upsert_kv (k : String) :
    (upsert_kv sm u).1.levels.get Level.str_map k =
      if k = u.key then (sm.upsert_kv_primary_index u).2.2 else sm.levels.get Level.str_map k := by
  rw [upsert_kv, get_congr_maps (SMV002.kv_maps_update_expire_index ..)]
  exact SMV002.get_upsert_kv_primary_index u h k

theorem upsert_kv_added_fresh
    (hne : (sm.upsert_kv_primary_index u).2.1 ≠ (sm.upsert_kv_primary_index u).2.2) {ms : Nat}
    (hms : (sm.upsert_kv_primary_index u).2.2.expire_at_ms = some ms) :
    (sm.upsert_kv_primary_index u).2.2.internal_seq.seq = (sm.upsert_kv_primary_index u).1.curr_seq ∧
      1 ≤ (sm.upsert_kv_primary_index u).1.curr_seq ∧
      (sm.upsert_kv_primary_index u).2.1.internal_seq.seq < (sm.upsert_kv_primary_index u).1.curr_seq ∧
      ExpireKeysBelow ((sm.upsert_kv_primary_index u).1.levels.iter_levels.map Level.expire)
        (sm.upsert_kv_primary_index u).1.curr_seq := by
  rcases SMV002.upsert_kv_primary_index_normal u (Marked.is_normal_of_expire_at_ms hms) with heq | ⟨hseq, hc, -⟩
  · exact absurd heq.symm hne
  · have hprev := get_seq_le Level.str_map h.kv_bounded u.key
    rw [← (SMV002.upsert_kv_primary_index_cases sm u).1] at hprev
    refine ⟨hseq, by omega, by unfold SMV002.curr_seq at hc ⊢; omega, ?_⟩
    rw [SMV002.expire_maps_upsert_kv_primary_index, hc]
    exact h.expire_keys

theorem levelInv_upsert_kv : LevelInv (upsert_kv sm u).1.levels :=
  SMV002.levelInv_update_expire_index _ _ _ _ (SMV002.levelInv_upsert_kv_primary_index u h)
    (fun hne _ hms => upsert_kv_added_fresh u h hne hms)

end Upsert

section Closure

variable (kmerge : ∀ {α : Type}, (α → α → Except String Bool) → List (List α) → Except String (List α))
  (P : SMV002 LogId Membership Node → Prop) (hup : ∀ s u, P s → P (upsert_kv s u).1)
include hup

theorem txn_execute_delete_by_prefix_preserves {s s' : SMV002 LogId Membership Node} {resp : TxnOpResponse}
    (h : P s) {pre : String} (hr : txn_execute_delete_by_prefix kmerge s pre = .ok (s', resp)) : P s' := by
  obtain ⟨l, -, hr⟩ := ExceptM.bind_eq_ok hr
  cases hr
  -- each delete of a listed key keeps `P`
  suffices ∀ (keys : List String) s, P s →
      P (keys.foldl (fun sm key => (upsert_kv sm (UpsertKV.delete key)).1) s) from this _ s h
  intro keys
  induction keys with
  | nil => exact fun s h => h
  | cons k ks ih => exact fun s h => ih _ (hup s _ h)

theorem txn_execute_operation_preserves {s s' : SMV002 LogId Membership Node} {resps : List TxnOpResponse}
    (h : P s) {op : Option TxnOpRequest} (hr : txn_execute_operation kmerge s op = .ok (s', resps)) : P s' := by
  rcases op with _ | ⟨key⟩ | ⟨key, value, prev_value, expire_at⟩ | ⟨key, prev_value, match_seq⟩ | ⟨pre⟩ <;>
    simp only [txn_execute_operation, Except.ok.injEq, Prod.mk.injEq] at hr
  · exact hr.1 ▸ h
  · exact hr.1 ▸ h
  · exact hr.1 ▸ hup s _ h
  · exact hr.1 ▸ hup s _ h
  · obtain ⟨r, hr', hr⟩ := ExceptM.bind_eq_ok hr
    cases hr
    exact txn_execute_delete_by_prefix_preserves kmerge P hup h hr'

theorem apply_txn_preserves {s s' : SMV002 LogId Membership Node} {a : AppliedState Node} (h : P s)
    {req : TxnRequest} (hr : apply_txn kmerge s req = .ok (s', a)) : P s' := by
  obtain ⟨r, hf, hr⟩ := ExceptM.bind_eq_ok hr
  cases hr
  -- every operation of the transaction keeps `P`
  refine ExceptM.foldlM_ok_induction (fun acc => P acc.1) (fun acc op acc' hacc hop => ?_) h hf
  obtain ⟨t, ht, hop⟩ := ExceptM.bind_eq_ok hop
  cases hop
  exact txn_execute_operation_preserves kmerge P hup hacc ht

theorem clean_expired_kvs_preserves (hcur : ∀ s t, P s → P (s.update_expire_cursor t))
    {s s' : SMV002 LogId Membership Node} {t : Nat} (h : P s) (hc : clean_expired_kvs kmerge t s = .ok s') :
    P s' := by
  unfold clean_expired_kvs at hc
  split_ifs at hc
  · cases hc
    exact h
  · obtain ⟨l, -, hc⟩ := ExceptM.bind_eq_ok hc
    obtain ⟨s1, hf, rfl⟩ := ExceptM.map_eq_ok hc
    refine hcur s1 t (ExceptM.foldlM_ok_induction P (fun s e s1 hs hs1 => ?_) h hf)
    unfold clean_one at hs1
    split at hs1
    · split_ifs at hs1
      cases hs1
      exact hup s _ hs
    · cases hs1

variable (hsys : ∀ s f, (∀ d, (f d).sequence = d.sequence) → P s → P (modify_sys_data s f))
include hsys

theorem apply_cmd_preserves {s s' : SMV002 LogId Membership Node} {a : AppliedState Node} (h : P s)
    {cmd : Cmd Node} (hr : apply_cmd kmerge s cmd = .ok (s', a)) : P s' := by
  cases cmd with
  | AddNode node_id node overriding =>
      simp only [apply_cmd, apply_add_node, Except.ok.injEq] at hr
      split_ifs at hr <;> rw [← (Prod.mk.inj hr).1]
      · exact hsys s _ (fun _ => rfl) h
      · exact h
  | RemoveNode node_id =>
      simp only [apply_cmd, apply_remove_node, Except.ok.injEq] at hr
      rw [← (Prod.mk.inj hr).1]
      exact hsys s _ (fun _ => rfl) h
  | UpsertKV u =>
      simp only [apply_cmd, Except.ok.injEq] at hr
      rw [← (Prod.mk.inj hr).1]
      exact hup s u h
  | Transaction txn => exact apply_txn_preserves kmerge P hup h hr

end Closure

theorem apply_decompose (kmerge : ∀ {α : Type}, (α → α → Except String Bool) → List (List α) → Except String (List α))
    {s s' : SMV002 LogId Membership Node} {entry : Entry LogId Membership Node} {r : AppliedState Node}
    (ha : apply kmerge entry s = .ok (s', r)) :
    ∃ s1, clean_expired_kvs kmerge (get_log_time entry) s = .ok s1 ∧
      ∀ P : SMV002 LogId Membership Node → Prop, (∀ s u, P s → P (upsert_kv s u).1) →
        (∀ s f, (∀ d, (f d).sequence = d.sequence) → P s → P (modify_sys_data s f)) → P s1 → P s' := by
  obtain ⟨s1, hc, ha⟩ := ExceptM.bind_eq_ok ha
  refine ⟨s1, hc, fun P hup hsys h => ?_⟩
  have h1 := hsys s1 (fun d => { d with last_applied := some entry.log_id }) (fun _ => rfl) h
  dsimp only at ha
  split at ha
  · cases ha
    exact h1
  · split_ifs at ha
    exact apply_cmd_preserves kmerge P hup hsys h1 ha
  · cases ha
    exact hsys _ _ (fun _ => rfl) h1

theorem apply_preserves (kmerge : ∀ {α : Type}, (α → α → Except String Bool) → List (List α) → Except String (List α))
    (P : SMV002 LogId Membership Node → Prop) (hup : ∀ s u, P s → P (upsert_kv s u).1)
    (hsys : ∀ s f, (∀ d, (f d).sequence = d.sequence) → P s → P (modify_sys_data s f))
    (hcur : ∀ s t, P s → P (s.update_expire_cursor t)) {s s' : SMV002 LogId Membership Node}
    {entry : Entry LogId Membership Node} {r : AppliedState Node} (h : P s)
    (ha : apply kmerge entry s = .ok (s', r)) : P s' := by
  obtain ⟨s1, hc, hrest⟩ := apply_decompose kmerge ha
  exact hrest P hup hsys (clean_expired_kvs_preserves kmerge P hup hcur h hc)

end Applier

section Steps

variable {kmerge : ∀ {α : Type}, (α → α → Except String Bool) → List (List α) → Except String (List α)}

theorem levelInv_modify_sys_data {s : SMV002 LogId Membership Node}
    {f : SysData LogId Membership Node → SysData LogId Membership Node} (hf : ∀ d, (f d).sequence = d.sequence)
    (h : LevelInv s.levels) : LevelInv (Applier.modify_sys_data s f).levels :=
  h.of_writable rfl rfl (hf _)

theorem levelInv_update_expire_cursor {s : SMV002 LogId Membership Node} (t : Nat) (h : LevelInv s.levels) :
    LevelInv (s.update_expire_cursor t).levels := by
  unfold SMV002.update_expire_cursor
  split_ifs <;> exact h

theorem levelInv_apply {s s' : SMV002 LogId Membership Node} {entry : Entry LogId Membership Node}
    {r : AppliedState Node} (h : LevelInv s.levels) (ha : Applier.apply kmerge entry s = .ok (s', r)) :
    LevelInv s'.levels :=
  Applier.apply_preserves kmerge (fun s => LevelInv s.levels) (fun _ u h => Applier.levelInv_upsert_kv u h)
    (fun _ _ hf h => levelInv_modify_sys_data hf h) (fun _ t h => levelInv_update_expire_cursor t h) h ha

theorem levelInv_step (hk : KMerge.MergeSpec kmerge) {s s' : SMV002 LogId Membership Node}
    (hs : Step kmerge s s') (h : LevelInv s.levels) : LevelInv s'.levels := by
  cases hs with
  | apply entry ha => exact levelInv_apply h ha
  | snapshot => exact h.freeze
  | compact _ _ hv => exact h.compact hk hv

theorem reachable_levelInv [Inhabited Membership] (hk : KMerge.MergeSpec kmerge) {s : SMV002 LogId Membership Node}
    (hr : Reachable kmerge s) : LevelInv s.levels := by
  induction hr with
  | refl => exact levelInv_default
  | tail _ hs ih => exact levelInv_step hk hs ih

theorem reachable_keyOrdered [Inhabited Membership] (hk : KMerge.MergeSpec kmerge)
    {s : SMV002 LogId Membership Node} (hr : Reachable kmerge s) :
    KeyOrdered (s.levels.iter_levels.map Level.kv) ∧ KeyOrdered (s.levels.iter_levels.map Level.expire) :=
  ⟨(reachable_levelInv hk hr).kv_ordered, (reachable_levelInv hk hr).expire_ordered⟩

theorem reachable_keyOrdered_three_levels :
    KeyOrdered (three_level_sm.levels.iter_levels.map Level.kv) ∧
      KeyOrdered (three_level_sm.levels.iter_levels.map Level.expire) :=
  reachable_keyOrdered foldMerge_mergeSpec (reachable_three_level_sm _)

theorem double_delete_same_internal_seq (kmerge : ∀ {α : Type}, (α → α → Except String Bool) → List (List α) → Except String (List α)) :
    ∃ s : SMV002 Nat Unit Unit, Reachable kmerge s ∧
      s.levels.iter_levels.map (fun l => Level.str_map.range l none) =
        [[("a", .TombStone 1)], [("a", .TombStone 1)]] ∧
      by_key_seq_assertion ("a", (Marked.TombStone 1 : Marked (List UInt8))) ("a", .TombStone 1) = false ∧
      ¬ StrictlyOrdered (s.levels.iter_levels.map Level.kv) := by
  obtain ⟨s, hr, he, hg⟩ := reachable_double_delete kmerge
  refine ⟨s, hr, he, by decide, not_strictlyOrdered_of_same (k := "a") (x := .TombStone 1) ?_⟩
  rw [List.map_map]
  exact hg

end Steps

def SeqUnique (view : String → Marked (List UInt8)) : Prop :=
  ∀ k1 k2, (view k1).is_normal = true → (view k2).is_normal = true → (view k1).seq = (view k2).seq → k1 = k2

theorem seqUnique_update {view : String → Marked (List UInt8)} (h : SeqUnique view) {key : String}
    {a : Marked (List UInt8)}
    (ha : a.is_normal = true → ∀ k, k ≠ key → (view k).is_normal = true → (view k).seq < a.seq) :
    SeqUnique (fun k => if k = key then a else view k) := by
  intro k1 k2 h1 h2 hs
  by_cases hk1 : k1 = key <;> by_cases hk2 : k2 = key <;> simp only [hk1, hk2, if_true, if_false] at h1 h2 hs
  · rw [hk1, hk2]
  · exact absurd hs.symm (ne_of_lt (ha h1 k2 hk2 h2))
  · exact absurd hs (ne_of_lt (ha h2 k1 hk1 h1))
  · exact h k1 k2 h1 h2 hs

theorem seqUnique_of_toSeqV {view view' : String → Marked (List UInt8)} (h : SeqUnique view)
    (hv : ∀ k, (view' k).toSeqV = (view k).toSeqV) : SeqUnique view' := by
  intro k1 k2 h1 h2 hs
  rw [Marked.eq_of_toSeqV_eq (hv k1) h1, Marked.eq_of_toSeqV_eq (hv k2) h2] at hs
  exact h k1 k2 (Marked.eq_of_toSeqV_eq (hv k1) h1 ▸ h1) (Marked.eq_of_toSeqV_eq (hv k2) h2 ▸ h2) hs

structure SeqInv (s : SMV002 LogId Membership Node) : Prop where
  levels : LevelInv s.levels
  unique : SeqUnique (s.levels.get Level.str_map)

section SeqSteps

variable {kmerge : ∀ {α : Type}, (α → α → Except String Bool) → List (List α) → Except String (List α)}

theorem seqInv_upsert_kv {sm : SMV002 LogId Membership Node} (h : SeqInv sm) (u : UpsertKV) :
    SeqInv (Applier.upsert_kv sm u).1 := by
  refine ⟨Applier.levelInv_upsert_kv u h.levels, ?_⟩
  rw [show (Applier.upsert_kv sm u).1.levels.get Level.str_map = _ from funext (Applier.get_upsert_kv u h.levels)]
  by_cases hn : (sm.upsert_kv_primary_index u).2.2.is_normal = true
  · rcases SMV002.upsert_kv_primary_index_normal u hn with heq | ⟨hseq, hc, -⟩
    · have hid : (fun k => if k = u.key then (sm.upsert_kv_primary_index u).2.2 else sm.levels.get Level.str_map k) =
          sm.levels.get Level.str_map := by
        funext k
        split_ifs with hk
        · rw [heq, (SMV002.upsert_kv_primary_index_cases sm u).1, hk]
        · rfl
      rw [hid]
      exact h.unique
    · apply seqUnique_update h.unique
      intro _ k _ hk
      have hle : (sm.levels.get Level.str_map k).internal_seq.seq ≤ sm.curr_seq :=
        get_seq_le Level.str_map h.levels.kv_bounded k
      rw [Marked.seq_eq_of_normal hk, Marked.seq_eq_of_normal hn, hseq]
      omega
  · exact seqUnique_update h.unique (fun hn' => absurd hn' hn)

theorem seqInv_modify_sys_data {s : SMV002 LogId Membership Node}
    {f : SysData LogId Membership Node → SysData LogId Membership Node} (hf : ∀ d, (f d).sequence = d.sequence)
    (h : SeqInv s) : SeqInv (Applier.modify_sys_data s f) :=
  ⟨levelInv_modify_sys_data hf h.levels, by
    rw [show (Applier.modify_sys_data s f).levels.get Level.str_map = s.levels.get Level.str_map from
      funext (get_congr_maps rfl)]
    exact h.unique⟩

theorem seqInv_update_expire_cursor {s : SMV002 LogId Membership Node} (t : Nat) (h : SeqInv s) :
    SeqInv (s.update_expire_cursor t) := by
  unfold SMV002.update_expire_cursor
  split_ifs
  · exact h
  · exact ⟨h.levels, h.unique⟩

theorem seqInv_step (hk : KMerge.MergeSpec kmerge) {s s' : SMV002 LogId Membership Node}
    (hs : Step kmerge s s') (h : SeqInv s) : SeqInv s' := by
  cases hs with
  | apply entry ha =>
      exact Applier.apply_preserves kmerge SeqInv (fun _ u h => seqInv_upsert_kv h u)
        (fun _ _ hf h => seqInv_modify_sys_data hf h) (fun _ t h => seqInv_update_expire_cursor t h) h ha
  | snapshot =>
      refine ⟨h.levels.freeze, ?_⟩
      rw [show s.full_snapshot_view.1.levels.get Level.str_map = s.levels.get Level.str_map from
        funext (LeveledMap.freeze_writable_get _ (fun _ => rfl) s.levels)]
      exact h.unique
  | compact _ _ hv =>
      exact ⟨h.levels.compact hk hv, seqUnique_of_toSeqV h.unique
        (toSeqV_get_compact hk h.levels.kv_ordered h.levels.kv_bounded (fun _ mk _ hmk _ => ⟨mk, hmk, rfl⟩) hv)⟩

theorem reachable_seqInv [Inhabited Membership] (hk : KMerge.MergeSpec kmerge) {s : SMV002 LogId Membership Node}
    (hr : Reachable kmerge s) : SeqInv s := by
  induction hr with
  | refl =>
      refine ⟨levelInv_default, ?_⟩
      intro k1 k2 h1
      have hget : (SMV002.default_sm : SMV002 LogId Membership Node).levels.get Level.str_map k1 = Marked.empty :=
        rfl
      rw [hget] at h1
      cases h1
  | tail _ hs ih => exact seqInv_step hk hs ih

theorem compact_mem_levels_double_tombstone
    (kmerge : ∀ {α : Type}, (α → α → Except String Bool) → List (List α) → Except String (List α)) :
    ∃ s : SMV002 Nat Unit Unit, Reachable kmerge s ∧ 2 ≤ s.levels.frozen.length ∧
      (SnapshotViewV002.new s.levels.frozen).compacted.reverse.map (fun l => Level.str_map.range l none) =
        [[("a", .TombStone 1)], [("a", .TombStone 1)]] ∧
      by_key_seq_assertion ("a", (Marked.TombStone 1 : Marked (List UInt8))) ("a", .TombStone 1) = false := by
  obtain ⟨s, hr, he, -⟩ := reachable_double_delete kmerge
  have hlen := congrArg List.length he
  simp only [LeveledMap.iter_levels, List.map_cons, List.length_cons, List.length_map, List.length_reverse,
    List.length_nil] at hlen
  refine ⟨s.full_snapshot_view.1, hr.tail (Step.snapshot s), ?_, ?_, by decide⟩
  · simp [SMV002.full_snapshot_view, LeveledMap.freeze_writable]
    omega
  · have hrev : (SnapshotViewV002.new s.full_snapshot_view.1.levels.frozen).compacted.reverse = s.levels.iter_levels := by
      simp [SMV002.full_snapshot_view, LeveledMap.freeze_writable, SnapshotViewV002.new, LeveledMap.iter_levels]
    rw [hrev]
    exact he

theorem curr_seq_le_step {s s' : SMV002 LogId Membership Node} (hs : Step kmerge s s') :
    s.curr_seq ≤ s'.curr_seq := by
  cases hs with
  | apply entry ha =>
      refine Applier.apply_preserves kmerge (fun s' => s.curr_seq ≤ s'.curr_seq)
        (fun _ u h => h.trans (Applier.curr_seq_le_upsert_kv u)) (fun s1 f hf h => ?_) (fun s1 t h => ?_) le_rfl ha
      · show s.curr_seq ≤ (f s1.levels.writable.sys_data).sequence
        rw [hf]
        exact h
      · unfold SMV002.update_expire_cursor
        split_ifs
        exacts [h, h]
  | snapshot => exact le_rfl
  | compact _ _ _ => exact le_rfl

theorem sequence_numbers [Inhabited Membership] (hk : KMerge.MergeSpec kmerge) :
    (∀ s s' : SMV002 LogId Membership Node, Step kmerge s s' → s.curr_seq ≤ s'.curr_seq) ∧
    (∀ s : SMV002 LogId Membership Node, Reachable kmerge s →
      (∀ k, (s.levels.get Level.str_map k).is_normal = true →
        1 ≤ (s.levels.get Level.str_map k).seq ∧ (s.levels.get Level.str_map k).seq ≤ s.curr_seq) ∧
      SeqUnique (s.levels.get Level.str_map)) ∧
    (∀ (s : SMV002 LogId Membership Node) (u : UpsertKV),
      u.seq.match_seq (s.levels.get Level.str_map u.key).seq = true →
      (∃ v, u.value = .Update v) ∨ (u.value = .AsIs ∧ (s.levels.get Level.str_map u.key).is_normal = true) →
      (Applier.upsert_kv s u).1.curr_seq = s.curr_seq + 1 ∧
        (s.upsert_kv_primary_index u).2.2.internal_seq.seq = s.curr_seq + 1) := by
  refine ⟨fun s s' hs => curr_seq_le_step hs, fun s hr => ⟨fun k hn => ?_, (reachable_seqInv hk hr).unique⟩,
    fun s u hm hv => ?_⟩
  · rw [Marked.seq_eq_of_normal hn]
    exact seq_pos_of_found Level.str_map (reachable_levelInv hk hr).kv_bounded
      (Marked.not_found_of_normal hn)
  · rw [Applier.curr_seq_upsert_kv]
    exact SMV002.upsert_kv_primary_index_next_seq s u hm hv

end SeqSteps

-- writing "b" after the freeze moves the counter on; "a", live in the frozen level at seq 1, takes
-- the next seq when its meta is updated
theorem sequence_numbers_two_levels :
    one_level_sm.full_snapshot_view.1.curr_seq ≤ two_level_sm.curr_seq ∧
      ((∀ k, (two_level_sm.levels.get Level.str_map k).is_normal = true →
        1 ≤ (two_level_sm.levels.get Level.str_map k).seq ∧
          (two_level_sm.levels.get Level.str_map k).seq ≤ two_level_sm.curr_seq) ∧
        SeqUnique (two_level_sm.levels.get Level.str_map)) ∧
      (Applier.upsert_kv two_level_sm ⟨"a", .Exact 1, .AsIs, none⟩).1.curr_seq = 3 ∧
        (two_level_sm.upsert_kv_primary_index ⟨"a", .Exact 1, .AsIs, none⟩).2.2.internal_seq.seq = 3 := by
  have h := @sequence_numbers Nat Unit Unit @foldMerge _ foldMerge_mergeSpec
  have hs : Step @foldMerge one_level_sm.full_snapshot_view.1 _ :=
    Step.apply ⟨2, .Normal ⟨none, none, .UpsertKV (UpsertKV.update "b" [2])⟩⟩ rfl
  exact ⟨h.1 _ _ hs, h.2.1 _ (reachable_two_level_sm _), h.2.2 _ _ (by decide) (.inr ⟨rfl, by decide⟩)⟩

end Databend.Meta
