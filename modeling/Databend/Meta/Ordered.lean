import Databend.Meta.Reachable

namespace Databend.Meta

section Maps

variable {K V : Type} [LinearOrder K]

def firstEntry (k : K) : List (SortedMap K (Marked V)) → Option (Marked V)
  | [] => none
  | m :: ms => (m.get k).or (firstEntry k ms)

def KeyOrdered (ms : List (SortedMap K (Marked V))) : Prop :=
  ms.Pairwise (fun newer older => ∀ k x y, newer.get k = some x → older.get k = some y →
    y.internal_seq < x.internal_seq ∨ (y = x ∧ x.is_tomb_stone = true))

def StrictlyOrdered (ms : List (SortedMap K (Marked V))) : Prop :=
  ms.Pairwise (fun newer older => ∀ k x y, newer.get k = some x → older.get k = some y →
    y.internal_seq < x.internal_seq)

def SeqBounded (ms : List (SortedMap K (Marked V))) (c : Nat) : Prop :=
  ∀ m ∈ ms, ∀ e ∈ m.entries, 1 ≤ e.2.internal_seq.seq ∧ e.2.internal_seq.seq ≤ c

theorem not_strictlyOrdered_of_same {ms : List (SortedMap K (Marked V))} {k : K} {x : Marked V}
    (h : ms.map (fun m => m.get k) = [some x, some x]) : ¬ StrictlyOrdered ms := by
  obtain ⟨m1, ms', rfl, h1, h'⟩ := List.map_eq_cons_iff.mp h
  obtain ⟨m2, ms'', rfl, h2, -⟩ := List.map_eq_cons_iff.mp h'
  intro hs
  exact lt_irrefl _ ((List.pairwise_cons.mp hs).1 m2 (List.mem_cons_self ..) k x x h1 h2)

theorem firstEntry_eq_some {k : K} {x : Marked V} {ms : List (SortedMap K (Marked V))}
    (h : firstEntry k ms = some x) : ∃ m ∈ ms, m.get k = some x := by
  induction ms with
  | nil => simp [firstEntry] at h
  | cons m ms ih =>
      simp only [firstEntry] at h
      cases hm : m.get k with
      | none =>
          rw [hm, Option.none_or] at h
          obtain ⟨m', hm', hx⟩ := ih h
          exact ⟨m', List.mem_cons_of_mem _ hm', hx⟩
      | some y =>
          rw [hm, Option.some_or] at h
          exact ⟨m, List.mem_cons_self .., h ▸ hm⟩

theorem firstEntry_eq_none {k : K} {ms : List (SortedMap K (Marked V))} :
    firstEntry k ms = none ↔ ∀ m ∈ ms, m.get k = none := by
  induction ms with
  | nil => simp [firstEntry]
  | cons m ms ih => simp [firstEntry, ih]

theorem firstEntry_max {k : K} {x y : Marked V} {ms : List (SortedMap K (Marked V))}
    (ho : KeyOrdered ms) (h : firstEntry k ms = some x) {m : SortedMap K (Marked V)} (hm : m ∈ ms)
    (hy : m.get k = some y) : y.internal_seq < x.internal_seq ∨ y = x := by
  induction ms with
  | nil => simp at hm
  | cons m0 ms ih =>
      obtain ⟨hhead, htail⟩ := List.pairwise_cons.mp ho
      simp only [firstEntry] at h
      cases h0 : m0.get k with
      | none =>
          rw [h0, Option.none_or] at h
          rcases List.mem_cons.mp hm with rfl | hm
          · rw [h0] at hy; cases hy
          · exact ih htail h hm
      | some x0 =>
          rw [h0, Option.some_or] at h
          cases h
          rcases List.mem_cons.mp hm with rfl | hm
          · rw [h0] at hy; cases hy; exact .inr rfl
          · rcases hhead m hm k _ y h0 hy with hlt | ⟨heq, -⟩
            · exact .inl hlt
            · exact .inr heq

theorem firstEntry_atLeast (lo k : K) (ms : List (SortedMap K (Marked V))) :
    firstEntry k (ms.map (·.atLeast lo)) = if lo ≤ k then firstEntry k ms else none := by
  induction ms with
  | nil => simp [firstEntry]
  | cons m ms ih =>
      simp only [List.map_cons, firstEntry, ih, SortedMap.get_atLeast]
      split_ifs <;> simp

theorem keyOrdered_atLeast {ms : List (SortedMap K (Marked V))} (ho : KeyOrdered ms) (lo : K) :
    KeyOrdered (ms.map (·.atLeast lo)) := by
  unfold KeyOrdered at ho ⊢
  rw [List.pairwise_map]
  refine ho.imp (fun h k x y hx hy => ?_)
  rw [SortedMap.get_atLeast] at hx hy
  split_ifs at hx hy
  exact h k x y hx hy

theorem keyOrdered_of_strictlyOrdered {ms : List (SortedMap K (Marked V))} (h : StrictlyOrdered ms) :
    KeyOrdered ms :=
  h.imp (fun h k x y hx hy => .inl (h k x y hx hy))

theorem strictlyOrdered_empty_cons {ms : List (SortedMap K (Marked V))} :
    StrictlyOrdered (SortedMap.empty :: ms) ↔ StrictlyOrdered ms := by
  simp [StrictlyOrdered, List.pairwise_cons]

theorem mem_entries_of_rangeOf {m : SortedMap K (Marked V)} {lo : Option K} {e : K × Marked V}
    (h : e ∈ rangeOf m lo) : e ∈ m.entries := by
  cases lo with
  | none => exact h
  | some lo => exact (SortedMap.mem_rangeFrom.mp h).1

theorem keySeqDistinct_of_strictlyOrdered {ms : List (SortedMap K (Marked V))} (h : StrictlyOrdered ms)
    (lo : Option K) : KeySeqDistinct (ms.map (fun m => rangeOf m lo)) := by
  unfold KeySeqDistinct
  rw [List.pairwise_map]
  refine h.imp (fun hlt a ha b hb => ?_)
  obtain ⟨k, x⟩ := a
  obtain ⟨k', y⟩ := b
  have hx := SortedMap.get_eq_some.mpr (mem_entries_of_rangeOf ha)
  have hy := SortedMap.get_eq_some.mpr (mem_entries_of_rangeOf hb)
  simp only [by_key_seq_assertion, bne_iff_ne, ne_eq, Prod.mk.injEq, not_and]
  rintro rfl
  exact (hlt k x y hx hy).ne'

theorem strictlyOrdered_insert {m : SortedMap K (Marked V)} {ms : List (SortedMap K (Marked V))} {k : K}
    {x : Marked V} (ho : StrictlyOrdered (m :: ms))
    (hx : ∀ m' ∈ ms, ∀ y, m'.get k = some y → y.internal_seq < x.internal_seq) :
    StrictlyOrdered (m.insert k x :: ms) := by
  obtain ⟨hhead, htail⟩ := List.pairwise_cons.mp ho
  refine List.Pairwise.cons (fun m' hm' k' x' y hx' hy => ?_) htail
  rw [SortedMap.get_insert] at hx'
  split_ifs at hx' with hk
  · cases hx'
    exact hx m' hm' y (hk ▸ hy)
  · exact hhead m' hm' k' x' y hx' hy

theorem keyOrdered_insert {m : SortedMap K (Marked V)} {ms : List (SortedMap K (Marked V))} {k : K}
    {x : Marked V} (ho : KeyOrdered (m :: ms))
    (hx : ∀ m' ∈ ms, ∀ y, m'.get k = some y →
      y.internal_seq < x.internal_seq ∨ (y = x ∧ x.is_tomb_stone = true)) :
    KeyOrdered (m.insert k x :: ms) := by
  obtain ⟨hhead, htail⟩ := List.pairwise_cons.mp ho
  refine List.Pairwise.cons (fun m' hm' k' x' y hx' hy => ?_) htail
  rw [SortedMap.get_insert] at hx'
  split_ifs at hx' with hk
  · cases hx'
    exact hx m' hm' y (hk ▸ hy)
  · exact hhead m' hm' k' x' y hx' hy

theorem seqBounded_insert {m : SortedMap K (Marked V)} {ms : List (SortedMap K (Marked V))} {k : K}
    {x : Marked V} {c c' : Nat} (hb : SeqBounded (m :: ms) c) (hc : c ≤ c')
    (hx : 1 ≤ x.internal_seq.seq ∧ x.internal_seq.seq ≤ c') :
    SeqBounded (m.insert k x :: ms) c' := by
  intro m' hm' e he
  rcases List.mem_cons.mp hm' with rfl | hm'
  · rcases SortedMap.mem_insertList he with rfl | he
    · exact hx
    · have := hb m (by simp) e he
      exact ⟨this.1, this.2.trans hc⟩
  · have := hb m' (List.mem_cons_of_mem _ hm') e he
    exact ⟨this.1, this.2.trans hc⟩

theorem seqBounded_mono {ms : List (SortedMap K (Marked V))} {c c' : Nat} (hb : SeqBounded ms c)
    (hc : c ≤ c') : SeqBounded ms c' :=
  fun m hm e he => ⟨(hb m hm e he).1, (hb m hm e he).2.trans hc⟩

theorem seqBounded_get {ms : List (SortedMap K (Marked V))} {c : Nat} (hb : SeqBounded ms c)
    {m : SortedMap K (Marked V)} (hm : m ∈ ms) {k : K} {x : Marked V} (hx : m.get k = some x) :
    1 ≤ x.internal_seq.seq ∧ x.internal_seq.seq ≤ c :=
  hb m hm (k, x) (SortedMap.get_eq_some.mp hx)

theorem not_found_of_seq_pos {x : Marked V} (h : 1 ≤ x.internal_seq.seq) : x.not_found = false := by
  cases x with
  | TombStone s =>
      cases s with
      | zero => simp [Marked.internal_seq, InternalSeq.tomb] at h
      | succ s => rfl
  | Normal s v m => rfl

theorem compacted_get_eq_firstEntry {L : Type} (api : MapApi L K V) (k : K) {levels : List L}
    {c : Nat} (hb : SeqBounded (levels.map api.map) c) :
    compacted_get api.get k levels = (firstEntry k (levels.map api.map)).getD Marked.empty := by
  induction levels with
  | nil => rfl
  | cons l ls ih =>
      have hb' : SeqBounded (ls.map api.map) c := fun m hm => hb m (List.mem_cons_of_mem _ hm)
      simp only [List.map_cons, firstEntry]
      cases hl : (api.map l).get k with
      | none =>
          have hnf : (api.get l k).not_found = true := by
            simp [MapApi.get, hl, Marked.empty, Marked.not_found]
          rw [compacted_get_cons_not_found ls hnf, ih hb', Option.none_or]
      | some x =>
          have hx := seqBounded_get hb (List.mem_cons_self ..) hl
          have hget : api.get l k = x := by simp [MapApi.get, hl]
          rw [compacted_get_cons_found ls (hget ▸ not_found_of_seq_pos hx.1), hget, Option.some_or]
          rfl

theorem mem_flatten_entries {ms : List (SortedMap K (Marked V))} {k : K} {x : Marked V} :
    (k, x) ∈ (ms.map (·.entries)).flatten ↔ ∃ m ∈ ms, m.get k = some x := by
  simp [List.mem_flatten, SortedMap.get_eq_some]

-- the level `compact_mem_levels` builds from the merged range of one map of every level: its
-- normal entries
def compactMap (merged : List (K × Marked V)) : SortedMap K (Marked V) :=
  SortedMap.ofList ((KMerge.coalesce (KMerge.pickGreater Marked.internal_seq) merged).filter
    (fun e => e.2.is_normal))

section Compaction

variable {ms : List (SortedMap K (Marked V))} {merged : List (K × Marked V)}
  (hm : KMerge.MergedRuns Marked.internal_seq (ms.map (·.entries)) merged)
include hm

theorem mem_coalesce_iff (ho : KeyOrdered ms) {k : K} {x : Marked V} :
    (k, x) ∈ KMerge.coalesce (KMerge.pickGreater Marked.internal_seq) merged ↔ firstEntry k ms = some x := by
  have forward : ∀ {x}, (k, x) ∈ KMerge.coalesce (KMerge.pickGreater Marked.internal_seq) merged →
      firstEntry k ms = some x := by
    intro x hx
    obtain ⟨hmem, hmax⟩ := hm.mem_coalesce hx
    obtain ⟨m, hm', hmx⟩ := mem_flatten_entries.mp hmem
    cases hf : firstEntry k ms with
    | none => exact absurd hmx (by simp [firstEntry_eq_none.mp hf m hm'])
    | some f =>
        obtain ⟨mf, hmf, hff⟩ := firstEntry_eq_some hf
        have hle : f.internal_seq ≤ x.internal_seq :=
          hmax (k, f) (mem_flatten_entries.mpr ⟨mf, hmf, hff⟩) rfl
        rcases firstEntry_max ho hf hm' hmx with hlt | heq
        · exact absurd hle (not_le.mpr hlt)
        · rw [heq]
  constructor
  · exact forward
  · intro hf
    obtain ⟨mf, hmf, hff⟩ := firstEntry_eq_some hf
    obtain ⟨⟨k', x'⟩, he', hk'⟩ := hm.coalesce_covers (mem_flatten_entries.mpr ⟨mf, hmf, hff⟩)
    simp only at hk'
    subst hk'
    have := forward he'
    rw [hf] at this
    cases this
    exact he'

theorem compactMap_entries :
    (compactMap merged).entries =
      (KMerge.coalesce (KMerge.pickGreater Marked.internal_seq) merged).filter (fun e => e.2.is_normal) :=
  SortedMap.ofList_entries (hm.coalesce_sorted.filter _)

theorem get_compactMap (ho : KeyOrdered ms) (k : K) :
    (compactMap merged).get k = (firstEntry k ms).filter (fun x => x.is_normal) := by
  apply Option.ext
  intro x
  rw [SortedMap.get_eq_some, compactMap_entries hm, List.mem_filter, mem_coalesce_iff hm ho,
    Option.filter_eq_some_iff]

theorem stored_of_compactMap (ho : KeyOrdered ms) {k : K} {y : Marked V}
    (hy : (compactMap merged).get k = some y) : (∃ m ∈ ms, m.get k = some y) ∧ y.is_normal = true := by
  rw [get_compactMap hm ho, Option.filter_eq_some_iff] at hy
  exact ⟨firstEntry_eq_some hy.1, hy.2⟩

theorem keyOrdered_compact {m : SortedMap K (Marked V)} (ho : KeyOrdered (m :: ms)) :
    KeyOrdered [m, compactMap merged] := by
  obtain ⟨hhead, htail⟩ := List.pairwise_cons.mp ho
  refine List.pairwise_pair.mpr (fun k x y hx hy => ?_)
  obtain ⟨⟨m', hm', hy'⟩, -⟩ := stored_of_compactMap hm htail hy
  exact hhead m' hm' k x y hx hy'

theorem strictlyOrdered_compact {m : SortedMap K (Marked V)} (ho : StrictlyOrdered (m :: ms)) :
    StrictlyOrdered [m, compactMap merged] := by
  obtain ⟨hhead, htail⟩ := List.pairwise_cons.mp ho
  refine List.pairwise_pair.mpr (fun k x y hx hy => ?_)
  obtain ⟨⟨m', hm', hy'⟩, -⟩ := stored_of_compactMap hm (keyOrdered_of_strictlyOrdered htail) hy
  exact hhead m' hm' k x y hx hy'

theorem seqBounded_compactMap {c : Nat} (ho : KeyOrdered ms) (hb : SeqBounded ms c) :
    SeqBounded [compactMap merged] c := by
  intro m' hm' e he
  rw [List.mem_singleton] at hm'
  subst hm'
  obtain ⟨⟨m'', hm'', hy⟩, -⟩ := stored_of_compactMap hm ho (SortedMap.get_eq_some.mpr he)
  exact seqBounded_get hb hm'' hy

theorem seqBounded_compact {m : SortedMap K (Marked V)} {c : Nat} (ho : KeyOrdered ms)
    (hb : SeqBounded (m :: ms) c) : SeqBounded [m, compactMap merged] c := by
  intro m' hm' e he
  rcases List.mem_pair.mp hm' with rfl | rfl
  · exact hb m' (List.mem_cons_self ..) e he
  · exact seqBounded_compactMap hm ho (fun m hm => hb m (List.mem_cons_of_mem _ hm)) _
      (List.mem_singleton_self _) e he

theorem toSeqV_firstEntry_compactMap (ho : KeyOrdered ms) (k : K) :
    ((firstEntry k [compactMap merged]).getD Marked.empty).toSeqV =
      ((firstEntry k ms).getD Marked.empty).toSeqV := by
  simp only [firstEntry, get_compactMap hm ho, Option.or_none]
  cases firstEntry k ms with
  | none => rfl
  | some y => cases y <;> rfl

end Compaction

theorem mem_coalesce_rangeFrom_iff {ms : List (SortedMap K (Marked V))} (ho : KeyOrdered ms) {lo : K}
    {merged : List (K × Marked V)}
    (hm : KMerge.MergedRuns Marked.internal_seq (ms.map (fun m => m.rangeFrom lo)) merged) {k : K} {x : Marked V} :
    (k, x) ∈ KMerge.coalesce (KMerge.pickGreater Marked.internal_seq) merged ↔ lo ≤ k ∧ firstEntry k ms = some x := by
  have hmap : ms.map (fun m => m.rangeFrom lo) = (ms.map (·.atLeast lo)).map (·.entries) := by
    rw [List.map_map]
    rfl
  rw [hmap] at hm
  rw [mem_coalesce_iff hm (keyOrdered_atLeast ho lo), firstEntry_atLeast]
  split_ifs with h <;> simp [h]

theorem keyOrdered_tomb_write {m : SortedMap K (Marked V)} {ms : List (SortedMap K (Marked V))}
    {k : K} {c : Nat} (ho : KeyOrdered (m :: ms)) (hb : SeqBounded (m :: ms) c) :
    KeyOrdered (m.insert k (.TombStone c) :: ms) := by
  apply keyOrdered_insert ho
  intro m' hm' y hy
  have hyc := (seqBounded_get hb (List.mem_cons_of_mem _ hm') hy).2
  rcases Nat.lt_or_eq_of_le hyc with hlt | heq
  · exact .inl (InternalSeq.lt_iff.mpr (.inl hlt))
  · cases y with
    | TombStone s =>
        simp only [Marked.internal_seq, InternalSeq.tomb] at heq
        subst heq
        exact .inr ⟨rfl, rfl⟩
    | Normal s v mt =>
        simp only [Marked.internal_seq, InternalSeq.normal] at heq
        subst heq
        exact .inl (InternalSeq.lt_iff.mpr (.inr ⟨rfl, Bool.false_lt_true⟩))

theorem keyOrdered_normal_write {m : SortedMap K (Marked V)} {ms : List (SortedMap K (Marked V))}
    {k : K} {s : Nat} {v : V} {mt : Option KVMeta} (ho : KeyOrdered (m :: ms))
    (hlt : ∀ m' ∈ ms, ∀ y, m'.get k = some y → y.internal_seq.seq < s) :
    KeyOrdered (m.insert k (.Normal s v mt) :: ms) := by
  apply keyOrdered_insert ho
  intro m' hm' y hy
  exact .inl (InternalSeq.lt_iff.mpr (.inl (hlt m' hm' y hy)))

theorem strictlyOrdered_tomb_write {m : SortedMap K (Marked V)} {ms : List (SortedMap K (Marked V))}
    {k : K} {c : Nat} (ho : StrictlyOrdered (m :: ms)) (hb : SeqBounded (m :: ms) c)
    (hvis : ∀ x, firstEntry k (m :: ms) = some x → x.is_normal = true) :
    StrictlyOrdered (m.insert k (.TombStone c) :: ms) := by
  apply strictlyOrdered_insert ho
  intro m' hm' y hy
  have hm'' : m' ∈ m :: ms := List.mem_cons_of_mem m hm'
  obtain ⟨x, hx⟩ : ∃ x, firstEntry k (m :: ms) = some x := by
    cases hf : firstEntry k (m :: ms) with
    | none => rw [firstEntry_eq_none.mp hf m' hm''] at hy; cases hy
    | some x => exact ⟨x, rfl⟩
  have hyx : y.internal_seq ≤ x.internal_seq := by
    rcases firstEntry_max (keyOrdered_of_strictlyOrdered ho) hx hm'' hy with hlt | rfl
    · exact hlt.le
    · exact le_rfl
  obtain ⟨mx, hmx, hgx⟩ := firstEntry_eq_some hx
  have hxc := (seqBounded_get hb hmx hgx).2
  -- the newest entry is normal, so even of seq `c` it is below the tombstone
  cases x with
  | TombStone s => cases hvis _ hx
  | Normal s v mt =>
      refine lt_of_le_of_lt hyx (InternalSeq.lt_iff.mpr ?_)
      simp only [Marked.internal_seq, InternalSeq.normal, InternalSeq.tomb] at hxc ⊢
      rcases Nat.lt_or_eq_of_le hxc with hlt | rfl
      · exact .inl hlt
      · exact .inr ⟨rfl, Bool.false_lt_true⟩

end Maps

def ExpireKeysBelow {V : Type} (ms : List (SortedMap ExpireKey (Marked V))) (n : Nat) : Prop :=
  ∀ m ∈ ms, ∀ e ∈ m.entries, e.1.seq < n

section ExpireKeys

variable {V : Type} {ms : List (SortedMap ExpireKey (Marked V))} {n : Nat}

theorem expireKeysBelow_mono (h : ExpireKeysBelow ms n) {n' : Nat} (hn : n ≤ n') :
    ExpireKeysBelow ms n' :=
  fun m hm e he => (h m hm e he).trans_le hn

theorem expireKeysBelow_insert {m : SortedMap ExpireKey (Marked V)} (h : ExpireKeysBelow (m :: ms) n)
    {ek : ExpireKey} (hek : ek.seq < n) (x : Marked V) : ExpireKeysBelow (m.insert ek x :: ms) n := by
  intro m' hm' e he
  rcases List.mem_cons.mp hm' with rfl | hm'
  · rcases SortedMap.mem_insertList he with rfl | he
    · exact hek
    · exact h m (List.mem_cons_self ..) e he
  · exact h m' (List.mem_cons_of_mem _ hm') e he

theorem get_eq_none_of_below (h : ExpireKeysBelow ms n) {ek : ExpireKey} (hek : n ≤ ek.seq) :
    ∀ m ∈ ms, m.get ek = none := by
  intro m hm
  rw [SortedMap.get_eq_none]
  rintro e he rfl
  exact absurd (h m hm e he) (not_lt.mpr hek)

theorem key_below_of_get (h : ExpireKeysBelow ms n) {m : SortedMap ExpireKey (Marked V)} (hm : m ∈ ms)
    {ek : ExpireKey} {x : Marked V} (hx : m.get ek = some x) : ek.seq < n :=
  h m hm (ek, x) (SortedMap.get_eq_some.mp hx)

end ExpireKeys

section Levels

variable {LogId Membership Node : Type} {K V : Type} [LinearOrder K]

structure LevelApi (api : MapApi (Level LogId Membership Node) K V) : Prop where
  map_set : ∀ l k v, api.map (api.set l k v).1 = (api.map l).insert k (api.set l k v).2.2
  set_none : ∀ l k, (api.set l k none).2.2 = .TombStone l.curr_seq ∧ (api.set l k none).1.curr_seq = l.curr_seq
  set_some : ∀ l k x, ∃ v m, (api.set l k (some x)).2.2 = .Normal (api.set l k (some x)).1.curr_seq v m ∧
    l.curr_seq ≤ (api.set l k (some x)).1.curr_seq

theorem levelApi_str_map : LevelApi (Level.str_map : MapApi (Level LogId Membership Node) _ _) where
  map_set l k v := Level.str_set_kv l k v
  set_none _ _ := ⟨rfl, rfl⟩
  set_some _ _ x := ⟨x.1, x.2, rfl, Nat.le_succ _⟩

theorem levelApi_expire_map : LevelApi (Level.expire_map : MapApi (Level LogId Membership Node) _ _) where
  map_set l k v := Level.expire_set_expire l k v
  set_none _ _ := ⟨rfl, rfl⟩
  set_some _ _ x := ⟨x.1, x.2, rfl, le_rfl⟩

theorem map_iter_levels {α : Type} (lm : LeveledMap LogId Membership Node) (f : Level LogId Membership Node → α) :
    lm.iter_levels.map f = f lm.writable :: lm.frozen.reverse.map f :=
  rfl

@[simp] theorem iter_levels_with_writable (lm : LeveledMap LogId Membership Node)
    (w : Level LogId Membership Node) :
    ({ lm with writable := w } : LeveledMap LogId Membership Node).iter_levels = w :: lm.frozen.reverse :=
  rfl

theorem get_eq_firstEntry (api : MapApi (Level LogId Membership Node) K V)
    {lm : LeveledMap LogId Membership Node} {c : Nat} (hb : SeqBounded (lm.iter_levels.map api.map) c)
    (k : K) : lm.get api k = (firstEntry k (lm.iter_levels.map api.map)).getD Marked.empty :=
  compacted_get_eq_firstEntry api k hb

theorem firstEntry_of_found {api : MapApi (Level LogId Membership Node) K V}
    {lm : LeveledMap LogId Membership Node} {c : Nat} (hb : SeqBounded (lm.iter_levels.map api.map) c)
    {k : K} (h : (lm.get api k).not_found = false) :
    firstEntry k (lm.iter_levels.map api.map) = some (lm.get api k) := by
  rw [get_eq_firstEntry api hb] at h ⊢
  cases hf : firstEntry k (lm.iter_levels.map api.map) with
  | none => rw [hf] at h; simp [Marked.empty, Marked.not_found] at h
  | some x => rfl

theorem stored_of_found {api : MapApi (Level LogId Membership Node) K V}
    {lm : LeveledMap LogId Membership Node} {c : Nat} (hb : SeqBounded (lm.iter_levels.map api.map) c)
    {k : K} (h : (lm.get api k).not_found = false) :
    ∃ m ∈ lm.iter_levels.map api.map, m.get k = some (lm.get api k) :=
  firstEntry_eq_some (firstEntry_of_found hb h)

theorem seq_pos_of_found (api : MapApi (Level LogId Membership Node) K V)
    {lm : LeveledMap LogId Membership Node} (hb : SeqBounded (lm.iter_levels.map api.map) lm.writable.curr_seq)
    {k : K} (h : (lm.get api k).not_found = false) :
    1 ≤ (lm.get api k).internal_seq.seq ∧ (lm.get api k).internal_seq.seq ≤ lm.writable.curr_seq := by
  obtain ⟨m, hm, hx⟩ := stored_of_found hb h
  exact seqBounded_get hb hm hx

theorem get_eq_empty_of_not_found {api : MapApi (Level LogId Membership Node) K V}
    {lm : LeveledMap LogId Membership Node} {c : Nat} (hb : SeqBounded (lm.iter_levels.map api.map) c)
    {k : K} (h : (lm.get api k).not_found = true) : lm.get api k = Marked.empty := by
  rw [get_eq_firstEntry api hb] at h ⊢
  cases hf : firstEntry k (lm.iter_levels.map api.map) with
  | none => rfl
  | some x =>
      obtain ⟨m, hm, hx⟩ := firstEntry_eq_some hf
      rw [hf] at h
      simp [not_found_of_seq_pos (seqBounded_get hb hm hx).1] at h

theorem get_seq_le (api : MapApi (Level LogId Membership Node) K V)
    {lm : LeveledMap LogId Membership Node} (hb : SeqBounded (lm.iter_levels.map api.map) lm.writable.curr_seq)
    (k : K) : (lm.get api k).internal_seq.seq ≤ lm.writable.curr_seq := by
  cases hf : (lm.get api k).not_found
  · exact (seq_pos_of_found api hb hf).2
  · rw [get_eq_empty_of_not_found hb hf]
    exact Nat.zero_le _

theorem set_fst_of_write {api : MapApi (Level LogId Membership Node) K V} {lm : LeveledMap LogId Membership Node} {k : K} {v : Option (V × Option KVMeta)}
    (hw : (lm.get api k).not_found = false ∨ v.isSome) :
    (lm.set api k v).1 = { lm with writable := (api.set lm.writable k v).1 } := by
  rw [LeveledMap.set_write hw]

theorem map_set_unchanged (api : MapApi (Level LogId Membership Node) K V)
    (lm : LeveledMap LogId Membership Node) {α : Type} {f : Level LogId Membership Node → α}
    (hf : ∀ l k v, f (api.set l k v).1 = f l) (k : K) (v : Option (V × Option KVMeta)) :
    (lm.set api k v).1.iter_levels.map f = lm.iter_levels.map f := by
  by_cases hw : (lm.get api k).not_found = false ∨ v.isSome
  · rw [set_fst_of_write hw, iter_levels_with_writable, List.map_cons, hf, ← List.map_cons]
    rfl
  · obtain ⟨hnf, rfl⟩ : (lm.get api k).not_found = true ∧ v = none := by simpa using hw
    rw [LeveledMap.set_skip hnf]

section Api

variable {api : MapApi (Level LogId Membership Node) K V} (hl : LevelApi api)
  {lm : LeveledMap LogId Membership Node}
include hl

theorem api_get_set (l : Level LogId Membership Node) (k k' : K) (v : Option (V × Option KVMeta)) :
    api.get (api.set l k v).1 k' = if k' = k then (api.set l k v).2.2 else api.get l k' := by
  simp only [MapApi.get, hl.map_set, SortedMap.get_insert, eq_comm (a := k')]
  split_ifs <;> rfl

theorem get_set_ne {k k' : K} (h : k' ≠ k) (v : Option (V × Option KVMeta)) :
    (lm.set api k v).1.get api k' = lm.get api k' := by
  by_cases hw : (lm.get api k).not_found = false ∨ v.isSome
  · rw [LeveledMap.set_write hw]
    simp only
    rw [LeveledMap.get_with_writable, api_get_set hl, if_neg h, ← LeveledMap.get_eq_writable_or_frozen]
  · obtain ⟨hnf, rfl⟩ : (lm.get api k).not_found = true ∧ v = none := by simpa using hw
    rw [LeveledMap.set_skip hnf]

theorem set_result_found (hb : SeqBounded (lm.iter_levels.map api.map) lm.writable.curr_seq)
    {k : K} {v : Option (V × Option KVMeta)} (hw : (lm.get api k).not_found = false ∨ v.isSome) :
    (api.set lm.writable k v).2.2.not_found = false := by
  cases v with
  | none =>
      have hpos := seq_pos_of_found api hb (by simpa using hw)
      rw [(hl.set_none _ _).1]
      exact not_found_of_seq_pos (by simp only [Marked.internal_seq, InternalSeq.tomb]; omega)
  | some x =>
      obtain ⟨v', m, hr, -⟩ := hl.set_some lm.writable k x
      rw [hr]
      rfl

theorem get_set_self (hb : SeqBounded (lm.iter_levels.map api.map) lm.writable.curr_seq) (k : K)
    (v : Option (V × Option KVMeta)) : (lm.set api k v).1.get api k = (lm.set api k v).2.2 := by
  by_cases hw : (lm.get api k).not_found = false ∨ v.isSome
  · have hf := set_result_found hl hb hw
    rw [LeveledMap.set_write hw]
    simp only
    rw [LeveledMap.get_with_writable, api_get_set hl, if_pos rfl, hf]
    rfl
  · obtain ⟨hnf, rfl⟩ : (lm.get api k).not_found = true ∧ v = none := by simpa using hw
    rw [LeveledMap.set_skip hnf, get_eq_empty_of_not_found hb hnf]
    rfl

theorem curr_seq_set_le (lm : LeveledMap LogId Membership Node) (k : K) (v : Option (V × Option KVMeta)) :
    lm.writable.curr_seq ≤ (lm.set api k v).1.writable.curr_seq := by
  by_cases hw : (lm.get api k).not_found = false ∨ v.isSome
  · rw [set_fst_of_write hw]
    cases v with
    | none => exact (hl.set_none _ _).2.ge
    | some x => exact (hl.set_some lm.writable k x).choose_spec.choose_spec.2
  · obtain ⟨hnf, rfl⟩ : (lm.get api k).not_found = true ∧ v = none := by simpa using hw
    rw [LeveledMap.set_skip hnf]

theorem set_none_not_normal (lm : LeveledMap LogId Membership Node) (k : K) : (lm.set api k none).2.2.is_normal = false := by
  by_cases hnf : (lm.get api k).not_found = true
  · rw [LeveledMap.set_skip hnf]
    rfl
  · rw [LeveledMap.set_write (.inl (by simpa using hnf)), (hl.set_none _ _).1]
    rfl

theorem curr_seq_set_none (lm : LeveledMap LogId Membership Node) (k : K) : (lm.set api k none).1.writable.curr_seq = lm.writable.curr_seq := by
  by_cases hnf : (lm.get api k).not_found = true
  · rw [LeveledMap.set_skip hnf]
  · rw [set_fst_of_write (.inl (by simpa using hnf))]
    exact (hl.set_none _ _).2

theorem map_set_of_write {k : K} {v : Option (V × Option KVMeta)}
    (hw : (lm.get api k).not_found = false ∨ v.isSome) :
    (lm.set api k v).1.iter_levels.map api.map =
      (api.map lm.writable).insert k (api.set lm.writable k v).2.2 :: lm.frozen.reverse.map api.map := by
  rw [set_fst_of_write hw, iter_levels_with_writable, List.map_cons, hl.map_set]

theorem keyOrdered_set (ho : KeyOrdered (lm.iter_levels.map api.map))
    (hb : SeqBounded (lm.iter_levels.map api.map) lm.writable.curr_seq) (k : K)
    (v : Option (V × Option KVMeta))
    (hnew : ∀ x, v = some x → ∀ m ∈ lm.frozen.reverse.map api.map, ∀ y, m.get k = some y →
      y.internal_seq.seq < (api.set lm.writable k v).1.curr_seq) :
    KeyOrdered ((lm.set api k v).1.iter_levels.map api.map) := by
  by_cases hw : (lm.get api k).not_found = false ∨ v.isSome
  · rw [map_set_of_write hl hw]
    rw [map_iter_levels] at ho hb
    cases v with
    | none =>
        rw [(hl.set_none _ _).1]
        exact keyOrdered_tomb_write ho hb
    | some x =>
        obtain ⟨v', m, hr, -⟩ := hl.set_some lm.writable k x
        rw [hr]
        exact keyOrdered_normal_write ho (hnew x rfl)
  · obtain ⟨hnf, rfl⟩ : (lm.get api k).not_found = true ∧ v = none := by simpa using hw
    rwa [LeveledMap.set_skip hnf]

theorem seqBounded_set (hb : SeqBounded (lm.iter_levels.map api.map) lm.writable.curr_seq) (k : K)
    (v : Option (V × Option KVMeta)) (hpos : v.isSome → 1 ≤ (api.set lm.writable k v).1.curr_seq) :
    SeqBounded ((lm.set api k v).1.iter_levels.map api.map) (lm.set api k v).1.writable.curr_seq := by
  by_cases hw : (lm.get api k).not_found = false ∨ v.isSome
  · have hc := curr_seq_set_le hl lm k v
    rw [set_fst_of_write hw] at hc ⊢
    rw [iter_levels_with_writable, List.map_cons, hl.map_set]
    rw [map_iter_levels] at hb
    apply seqBounded_insert hb hc
    cases v with
    | none =>
        have := seq_pos_of_found api (by rwa [map_iter_levels]) (by simpa using hw)
        rw [(hl.set_none _ _).1]
        exact ⟨by simp only [Marked.internal_seq, InternalSeq.tomb]; omega, hc⟩
    | some x =>
        obtain ⟨v', m, hr, -⟩ := hl.set_some lm.writable k x
        rw [hr]
        exact ⟨hpos rfl, le_rfl⟩
  · obtain ⟨hnf, rfl⟩ : (lm.get api k).not_found = true ∧ v = none := by simpa using hw
    rwa [LeveledMap.set_skip hnf]

end Api

structure LevelInv (lm : LeveledMap LogId Membership Node) : Prop where
  kv_ordered : KeyOrdered (lm.iter_levels.map Level.kv)
  expire_ordered : KeyOrdered (lm.iter_levels.map Level.expire)
  kv_bounded : SeqBounded (lm.iter_levels.map Level.kv) lm.writable.curr_seq
  expire_bounded : SeqBounded (lm.iter_levels.map Level.expire) lm.writable.curr_seq
  expire_keys : ExpireKeysBelow (lm.iter_levels.map Level.expire) (lm.writable.curr_seq + 1)

theorem keyOrdered_empty_cons {K V : Type} [LinearOrder K] {ms : List (SortedMap K (Marked V))} :
    KeyOrdered (SortedMap.empty :: ms) ↔ KeyOrdered ms := by
  simp [KeyOrdered, List.pairwise_cons]

theorem seqBounded_empty_cons {K V : Type} [LinearOrder K] {ms : List (SortedMap K (Marked V))} {c : Nat} :
    SeqBounded (SortedMap.empty :: ms) c ↔ SeqBounded ms c := by
  simp [SeqBounded, SortedMap.empty]

theorem expireKeysBelow_empty_cons {V : Type} {ms : List (SortedMap ExpireKey (Marked V))} {n : Nat} :
    ExpireKeysBelow (SortedMap.empty :: ms) n ↔ ExpireKeysBelow ms n := by
  simp [ExpireKeysBelow, SortedMap.empty]

theorem levelInv_default [Inhabited Membership] :
    LevelInv (LeveledMap.default_map : LeveledMap LogId Membership Node) := by
  refine ⟨?_, ?_, ?_, ?_, ?_⟩ <;>
    simp [LeveledMap.default_map, LeveledMap.iter_levels, Level.default_level, KeyOrdered, SeqBounded,
      ExpireKeysBelow, SortedMap.empty]

theorem expireKeysBelow_set_none {lm : LeveledMap LogId Membership Node} {n : Nat}
    (h : ExpireKeysBelow (lm.iter_levels.map Level.expire) n) {ek : ExpireKey}
    (hek : (lm.get Level.expire_map ek).not_found = false → ek.seq < n) :
    ExpireKeysBelow ((lm.set Level.expire_map ek none).1.iter_levels.map Level.expire) n := by
  by_cases hnf : (lm.get Level.expire_map ek).not_found = true
  · rw [LeveledMap.set_skip hnf]
    exact h
  · have hf : (lm.get Level.expire_map ek).not_found = false := by simpa using hnf
    rw [map_iter_levels] at h
    have hmap : (lm.set Level.expire_map ek none).1.iter_levels.map Level.expire = _ :=
      map_set_of_write levelApi_expire_map (.inl hf)
    rw [hmap]
    exact expireKeysBelow_insert h (hek hf) _

theorem set_str_some (lm : LeveledMap LogId Membership Node) (k : String) (x : List UInt8 × Option KVMeta) :
    lm.set Level.str_map k (some x) = ({ lm with writable := (lm.writable.str_set k (some x)).1 },
      (lm.get Level.str_map k, .Normal (lm.writable.curr_seq + 1) x.1 x.2)) :=
  LeveledMap.set_write (.inr rfl)

theorem get_set_str_some (lm : LeveledMap LogId Membership Node) (k : String) (x : List UInt8 × Option KVMeta) :
    (lm.set Level.str_map k (some x)).1.get Level.str_map k = .Normal (lm.writable.curr_seq + 1) x.1 x.2 := by
  have hw : Level.str_map.get (lm.writable.str_set k (some x)).1 k = .Normal (lm.writable.curr_seq + 1) x.1 x.2 := by
    simp [MapApi.get, Level.str_map, Level.str_set_kv, Level.str_set_result]
  rw [set_str_some, LeveledMap.get_with_writable, hw]
  rfl

namespace LevelInv

variable {lm : LeveledMap LogId Membership Node}

theorem of_writable (h : LevelInv lm) {w : Level LogId Membership Node} (hkv : w.kv = lm.writable.kv)
    (hexp : w.expire = lm.writable.expire) (hc : w.curr_seq = lm.writable.curr_seq) :
    LevelInv { lm with writable := w } := by
  obtain ⟨hko, heo, hkb, heb, hek⟩ := h
  rw [map_iter_levels] at hko heo hkb heb hek
  constructor <;> simpa only [iter_levels_with_writable, List.map_cons, hkv, hexp, hc]

theorem set_str (h : LevelInv lm) (k : String) (v : Option (List UInt8 × Option KVMeta)) :
    LevelInv (lm.set Level.str_map k v).1 := by
  have hc := curr_seq_set_le levelApi_str_map lm k v
  have hexp := map_set_unchanged Level.str_map lm Level.str_set_expire k v
  refine ⟨?_, ?_, ?_, ?_, ?_⟩
  · apply keyOrdered_set levelApi_str_map h.kv_ordered h.kv_bounded
    rintro x rfl m hm y hy
    have := seqBounded_get h.kv_bounded (List.mem_cons_of_mem _ hm) hy
    simp only [Level.str_map, Level.str_set_curr_seq, Option.isSome_some, if_true]
    omega
  · rw [hexp]; exact h.expire_ordered
  · apply seqBounded_set levelApi_str_map h.kv_bounded
    intro hv
    simp [Level.str_map, Level.str_set_curr_seq, hv]
  · rw [hexp]; exact seqBounded_mono h.expire_bounded hc
  · rw [hexp]; exact expireKeysBelow_mono h.expire_keys (by omega)

theorem set_expire_none (h : LevelInv lm) (ek : ExpireKey) :
    LevelInv (lm.set Level.expire_map ek none).1 := by
  have hc := curr_seq_set_none levelApi_expire_map lm ek
  have hkv := map_set_unchanged Level.expire_map lm Level.expire_set_kv ek none
  refine ⟨?_, ?_, ?_, ?_, ?_⟩
  · rw [hkv]; exact h.kv_ordered
  · exact keyOrdered_set levelApi_expire_map h.expire_ordered h.expire_bounded ek none (by simp)
  · rw [hkv, hc]; exact h.kv_bounded
  · exact seqBounded_set levelApi_expire_map h.expire_bounded ek none (by simp)
  · rw [hc]
    apply expireKeysBelow_set_none h.expire_keys
    intro hf
    obtain ⟨m, hm, hx⟩ := stored_of_found h.expire_bounded hf
    exact key_below_of_get h.expire_keys hm hx

theorem set_expire_some (h : LevelInv lm) {ek : ExpireKey} (x : String × Option KVMeta)
    (hpos : 1 ≤ lm.writable.curr_seq) (hseq : ek.seq ≤ lm.writable.curr_seq)
    (hfresh : ExpireKeysBelow (lm.iter_levels.map Level.expire) ek.seq) :
    LevelInv (lm.set Level.expire_map ek (some x)).1 := by
  have hw : (lm.get Level.expire_map ek).not_found = false ∨ (some x).isSome := .inr rfl
  have hc : (lm.set Level.expire_map ek (some x)).1.writable.curr_seq = lm.writable.curr_seq := by
    rw [set_fst_of_write hw]
    rfl
  have hkv := map_set_unchanged Level.expire_map lm Level.expire_set_kv ek (some x)
  refine ⟨?_, ?_, ?_, ?_, ?_⟩
  · rw [hkv]; exact h.kv_ordered
  · apply keyOrdered_set levelApi_expire_map h.expire_ordered h.expire_bounded
    rintro x' - m hm y hy
    rw [get_eq_none_of_below hfresh le_rfl m (List.mem_cons_of_mem _ hm)] at hy
    cases hy
  · rw [hkv, hc]; exact h.kv_bounded
  · exact seqBounded_set levelApi_expire_map h.expire_bounded ek (some x) (fun _ => hpos)
  · have hkeys := h.expire_keys
    rw [map_iter_levels] at hkeys
    have hmap : (lm.set Level.expire_map ek (some x)).1.iter_levels.map Level.expire = _ :=
      map_set_of_write levelApi_expire_map hw
    rw [hc, hmap]
    exact expireKeysBelow_insert hkeys (by omega) _

theorem freeze (h : LevelInv lm) : LevelInv lm.freeze_writable := by
  have hl : ∀ {α : Type} (f : Level LogId Membership Node → α),
      lm.freeze_writable.iter_levels.map f = f lm.writable.new_level :: lm.iter_levels.map f := by
    intro α f
    simp [LeveledMap.freeze_writable, LeveledMap.iter_levels]
  have hc : lm.freeze_writable.writable.curr_seq = lm.writable.curr_seq := rfl
  refine ⟨?_, ?_, ?_, ?_, ?_⟩ <;>
    simp only [hl, hc, Level.new_level_kv, Level.new_level_expire, keyOrdered_empty_cons,
      seqBounded_empty_cons, expireKeysBelow_empty_cons]
  exacts [h.kv_ordered, h.expire_ordered, h.kv_bounded, h.expire_bounded, h.expire_keys]

end LevelInv

section StrictExpire

variable {lm : LeveledMap LogId Membership Node} (hs : StrictlyOrdered (lm.iter_levels.map Level.expire))
include hs

theorem strictlyOrdered_set_expire_none (h : LevelInv lm) (ek : ExpireKey)
    (hvis : ∀ x, firstEntry ek (lm.iter_levels.map Level.expire) = some x → x.is_normal = true) :
    StrictlyOrdered ((lm.set Level.expire_map ek none).1.iter_levels.map Level.expire) := by
  by_cases hnf : (lm.get Level.expire_map ek).not_found = true
  · rw [LeveledMap.set_skip hnf]
    exact hs
  · have hmap : (lm.set Level.expire_map ek none).1.iter_levels.map Level.expire = _ :=
      map_set_of_write levelApi_expire_map (.inl (by simpa using hnf))
    have hb := h.expire_bounded
    rw [map_iter_levels] at hs hb hvis
    rw [hmap, (levelApi_expire_map.set_none _ _).1]
    exact strictlyOrdered_tomb_write hs hb hvis

theorem strictlyOrdered_set_expire_some {ek : ExpireKey} (x : String × Option KVMeta)
    (hfresh : ExpireKeysBelow (lm.iter_levels.map Level.expire) ek.seq) :
    StrictlyOrdered ((lm.set Level.expire_map ek (some x)).1.iter_levels.map Level.expire) := by
  have hmap : (lm.set Level.expire_map ek (some x)).1.iter_levels.map Level.expire = _ :=
    map_set_of_write levelApi_expire_map (.inr rfl)
  rw [map_iter_levels] at hs
  rw [hmap]
  refine strictlyOrdered_insert hs (fun m hm y hy => ?_)
  rw [get_eq_none_of_below hfresh le_rfl m (List.mem_cons_of_mem _ hm)] at hy
  cases hy

end StrictExpire

end Levels

end Databend.Meta