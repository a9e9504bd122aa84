import Databend.Library.ExceptM
import Databend.Library.Merge
import Databend.Meta.Level

namespace Databend.Meta

structure LeveledMap (LogId Membership Node : Type) where
  writable : Level LogId Membership Node
  -- `StaticLevels::levels`, oldest first
  frozen : List (Level LogId Membership Node)

section Generic

variable {L K V : Type}

def compacted_get (get : L → K → Marked V) (key : K) : List L → Marked V
  | [] => Marked.empty
  | l :: ls => if !(get l key).not_found then get l key else compacted_get get key ls

-- the `assert_ne!` that `by_key_seq` makes before comparing
def by_key_seq_assertion [DecidableEq K] (r1 r2 : K × Marked V) : Bool :=
  (r1.1, r1.2.internal_seq) != (r2.1, r2.2.internal_seq)

-- a failed `assert_ne!` panics inside the merge, which then fails with its message
def by_key_seq [LinearOrder K] (r1 r2 : K × Marked V) : Except String Bool :=
  if by_key_seq_assertion r1 r2 then .ok (decide (toLex (r1.1, r1.2.internal_seq) ≤ toLex (r2.1, r2.2.internal_seq)))
  else .error "assertion `left != right` failed"

def choose_greater [DecidableEq K] (r1 r2 : K × Marked V) :
    Except ((K × Marked V) × (K × Marked V)) (K × Marked V) :=
  if r1.1 = r2.1 then .ok (r1.1, Marked.max r1.2 r2.2) else .error (r1, r2)

-- `KMerge::by(by_key_seq)` merging every level's range, newest level first, then `coalesce`
def compacted_range [LinearOrder K]
    (kmerge : ∀ {α : Type}, (α → α → Except String Bool) → List (List α) → Except String (List α))
    (range : L → Option K → List (K × Marked V)) (lo : Option K) (levels : List L) :
    Except String (List (K × Marked V)) :=
  (kmerge by_key_seq (levels.map (fun l => range l lo))).map (KMerge.coalesce choose_greater)

-- no record of one range has the key and internal seq of a record of another
def KeySeqDistinct [LinearOrder K] (ranges : List (List (K × Marked V))) : Prop :=
  ranges.Pairwise (fun r1 r2 => ∀ a ∈ r1, ∀ b ∈ r2, by_key_seq_assertion a b = true)

instance instDecidableKeySeqDistinct [LinearOrder K] (ranges : List (List (K × Marked V))) :
    Decidable (KeySeqDistinct ranges) :=
  inferInstanceAs (Decidable (ranges.Pairwise _))

theorem by_key_seq_assertion_comm [DecidableEq K] (r1 r2 : K × Marked V) :
    by_key_seq_assertion r1 r2 = by_key_seq_assertion r2 r1 := by
  simp only [by_key_seq_assertion, bne_comm]

theorem by_key_seq_ok [LinearOrder K] {r1 r2 : K × Marked V} {v : Bool} (h : by_key_seq r1 r2 = .ok v) :
    v = decide (KMerge.KeyRankLE Marked.internal_seq r1 r2) := by
  unfold by_key_seq at h
  split_ifs at h
  cases h
  simp only [KMerge.KeyRankLE, Prod.Lex.toLex_le_toLex]

theorem isOk_by_key_seq [LinearOrder K] (r1 r2 : K × Marked V) :
    (by_key_seq r1 r2).isOk = by_key_seq_assertion r1 r2 := by
  unfold by_key_seq
  split_ifs with h
  · rw [h]; rfl
  · rw [Bool.not_eq_true] at h
    rw [h]; rfl

theorem choose_greater_eq [LinearOrder K] :
    (choose_greater : K × Marked V → K × Marked V → _) = KMerge.pickGreater Marked.internal_seq := by
  funext a b
  simp only [choose_greater, KMerge.pickGreater, Marked.max]

section Ranges

variable [LinearOrder K]
  {kmerge : ∀ {α : Type}, (α → α → Except String Bool) → List (List α) → Except String (List α)}
  (hk : KMerge.MergeSpec kmerge) {range : L → Option K → List (K × Marked V)} {lo : Option K} {levels : List L}
include hk

theorem compacted_range_ok (hs : ∀ l ∈ levels, (range l lo).Pairwise (fun a b => a.1 < b.1))
    {out : List (K × Marked V)} (h : compacted_range kmerge range lo levels = .ok out) :
    ∃ m, KMerge.MergedRuns Marked.internal_seq (levels.map (fun l => range l lo)) m ∧
      out = KMerge.coalesce (KMerge.pickGreater Marked.internal_seq) m := by
  dsimp only [compacted_range] at h
  cases hm : kmerge by_key_seq (levels.map (fun l => range l lo)) with
  | error e => rw [hm] at h; cases h
  | ok m =>
      rw [hm] at h
      cases h
      refine ⟨m, hk.mergedRuns (fun a b v hv => by_key_seq_ok hv) ?_ hm, by rw [choose_greater_eq]⟩
      simp only [List.mem_map]
      rintro _ ⟨l, hl, rfl⟩
      exact hs l hl

theorem compacted_range_exists_ok (hd : KeySeqDistinct (levels.map (fun l => range l lo))) :
    ∃ out, compacted_range kmerge range lo levels = .ok out := by
  have hacross : (levels.map (fun l => range l lo)).Pairwise
      (fun r1 r2 => ∀ a ∈ r1, ∀ b ∈ r2, (by_key_seq a b).isOk ∧ (by_key_seq b a).isOk) := by
    refine hd.imp (fun h a ha b hb => ?_)
    rw [isOk_by_key_seq, isOk_by_key_seq, by_key_seq_assertion_comm b a, h a ha b hb]
    exact ⟨rfl, rfl⟩
  obtain ⟨m, hm⟩ := hk.exists_ok hacross
  exact ⟨_, by dsimp only [compacted_range]; rw [hm]; rfl⟩

theorem compacted_range_heads {a b : K × Marked V} {as bs : List (K × Marked V)}
    (h : levels.map (fun l => range l lo) = [a :: as, b :: bs]) (hab : by_key_seq_assertion a b = false) :
    compacted_range kmerge range lo levels = .error "assertion `left != right` failed" := by
  have hab' : by_key_seq a b = .error "assertion `left != right` failed" := by simp [by_key_seq, hab]
  have hba' : by_key_seq b a = .error "assertion `left != right` failed" := by
    simp [by_key_seq, by_key_seq_assertion_comm b a, hab]
  dsimp only [compacted_range]
  rw [h, hk.heads by_key_seq a b as bs _ hab' hba']
  rfl

end Ranges

theorem compacted_get_cons_found {get : L → K → Marked V} {key : K} {l : L} (ls : List L)
    (h : (get l key).not_found = false) : compacted_get get key (l :: ls) = get l key := by
  simp [compacted_get, h]

theorem compacted_get_cons_not_found {get : L → K → Marked V} {key : K} {l : L} (ls : List L)
    (h : (get l key).not_found = true) :
    compacted_get get key (l :: ls) = compacted_get get key ls := by
  simp [compacted_get, h]

end Generic

namespace LeveledMap

variable {LogId Membership Node : Type} {K V : Type} [LinearOrder K]

def default_map [Inhabited Membership] : LeveledMap LogId Membership Node :=
  ⟨Level.default_level, []⟩

-- `iter_levels`: the writable level, then the frozen ones newest first
def iter_levels (m : LeveledMap LogId Membership Node) : List (Level LogId Membership Node) :=
  m.writable :: m.frozen.reverse

def get (api : MapApi (Level LogId Membership Node) K V) (m : LeveledMap LogId Membership Node)
    (key : K) : Marked V :=
  compacted_get api.get key m.iter_levels

def range (kmerge : ∀ {α : Type}, (α → α → Except String Bool) → List (List α) → Except String (List α))
    (api : MapApi (Level LogId Membership Node) K V) (m : LeveledMap LogId Membership Node)
    (lo : Option K) : Except String (List (K × Marked V)) :=
  compacted_range kmerge api.range lo m.iter_levels

-- `RefMut::set`: a delete of a key absent from every level writes nothing
def set (api : MapApi (Level LogId Membership Node) K V) (m : LeveledMap LogId Membership Node)
    (key : K) (value : Option (V × Option KVMeta)) :
    LeveledMap LogId Membership Node × (Marked V × Marked V) :=
  let prev := m.get api key
  if prev.not_found && value.isNone then (m, (prev, Marked.new_tomb_stone 0))
  else
    let r := api.set m.writable key value
    ({ m with writable := r.1 }, (prev, r.2.2))

def freeze_writable (m : LeveledMap LogId Membership Node) : LeveledMap LogId Membership Node :=
  ⟨m.writable.new_level, m.frozen ++ [m.writable]⟩

def replace_frozen (m : LeveledMap LogId Membership Node) (b : List (Level LogId Membership Node)) :
    LeveledMap LogId Membership Node :=
  { m with frozen := b }

-- `MapApiExt::update_meta`: nothing is done for an absent or deleted key
def update_meta (api : MapApi (Level LogId Membership Node) K V) (m : LeveledMap LogId Membership Node)
    (key : K) (kv_meta : Option KVMeta) : LeveledMap LogId Membership Node × (Marked V × Marked V) :=
  match m.get api key with
  | .TombStone s => (m, (.TombStone s, .TombStone s))
  | .Normal _ v _ => m.set api key (some (v, kv_meta))

theorem set_skip {api : MapApi (Level LogId Membership Node) K V} {m : LeveledMap LogId Membership Node}
    {key : K} (h : (m.get api key).not_found = true) :
    m.set api key none = (m, (m.get api key, Marked.TombStone 0)) := by
  simp [set, h, Marked.new_tomb_stone]

theorem set_write {api : MapApi (Level LogId Membership Node) K V} {m : LeveledMap LogId Membership Node}
    {key : K} {value : Option (V × Option KVMeta)}
    (h : (m.get api key).not_found = false ∨ value.isSome) :
    m.set api key value = ({ m with writable := (api.set m.writable key value).1 },
      (m.get api key, (api.set m.writable key value).2.2)) := by
  unfold set
  rcases h with h | h
  · simp [h]
  · cases value <;> simp_all

theorem set_prev (api : MapApi (Level LogId Membership Node) K V) (m : LeveledMap LogId Membership Node)
    (key : K) (value : Option (V × Option KVMeta)) : (m.set api key value).2.1 = m.get api key := by
  unfold set
  dsimp only
  split_ifs <;> rfl

theorem get_with_writable (api : MapApi (Level LogId Membership Node) K V)
    (m : LeveledMap LogId Membership Node) (w : Level LogId Membership Node) (key : K) :
    ({ m with writable := w } : LeveledMap LogId Membership Node).get api key =
      if (api.get w key).not_found then compacted_get api.get key m.frozen.reverse
      else api.get w key := by
  simp only [get, iter_levels, compacted_get]
  split_ifs <;> simp_all

theorem get_eq_writable_or_frozen (api : MapApi (Level LogId Membership Node) K V)
    (m : LeveledMap LogId Membership Node) (key : K) :
    m.get api key = if (api.get m.writable key).not_found then compacted_get api.get key m.frozen.reverse
      else api.get m.writable key := by
  simpa using get_with_writable api m m.writable key

@[simp] theorem freeze_writable_get (api : MapApi (Level LogId Membership Node) K V)
    (hnew : ∀ l : Level LogId Membership Node, api.map l.new_level = SortedMap.empty)
    (m : LeveledMap LogId Membership Node)
    (key : K) : m.freeze_writable.get api key = m.get api key := by
  have hw : (api.get m.writable.new_level key).not_found = true := by
    simp [MapApi.get, hnew, Marked.empty, Marked.not_found]
  simp [get, iter_levels, freeze_writable, compacted_get, hw]

end LeveledMap

end Databend.Meta
