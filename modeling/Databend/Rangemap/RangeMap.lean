import Mathlib
import Databend.Library.SortedMap
import Databend.Rangemap.RangeMerger

-- the range map of `rangemap/range_map.rs` and the watcher dispatch of the meta service built on it

-- `u64` ordered as core orders it
instance instLinearOrderUInt64 : LinearOrder UInt64 where
  le_refl := UInt64.le_refl
  le_trans _ _ _ := UInt64.le_trans
  le_antisymm _ _ := UInt64.le_antisymm
  le_total := UInt64.le_total
  lt_iff_le_not_ge a b := by
    simp only [UInt64.lt_iff_toNat_lt, UInt64.le_iff_toNat_le]
    omega
  toDecidableLE := inferInstance
  compare_eq_compareOfLessAndEq _ _ := rfl

namespace Databend.Rangemap

variable {RV ID V : Type}

namespace Range

def Watches [LinearOrder RV] (r : Range RV) (p : RV) : Prop :=
  (r.start ≤ p ∧ p < r.«end») ∨ (r.start = p ∧ r.«end» = p)

instance [LinearOrder RV] (r : Range RV) (p : RV) : Decidable (r.Watches p) :=
  inferInstanceAs (Decidable (_ ∨ _))

end Range

structure RangeMapKey (RV ID : Type) where
  range : Range RV
  key : ID
  deriving DecidableEq, Repr

namespace RangeMapKey

def cmp [Ord RV] [Ord ID] (a b : RangeMapKey RV ID) : Ordering :=
  (compare a.range.«end» b.range.«end»).then ((compare a.range.start b.range.start).then (compare a.key b.key))

def toLexKey (k : RangeMapKey RV ID) : RV ×ₗ RV ×ₗ ID := toLex (k.range.«end», toLex (k.range.start, k.key))

theorem toLexKey_injective : Function.Injective (toLexKey : RangeMapKey RV ID → RV ×ₗ RV ×ₗ ID) := by
  rintro ⟨⟨a, b⟩, c⟩ ⟨⟨d, e⟩, f⟩ h
  simp only [toLexKey, EmbeddingLike.apply_eq_iff_eq, Prod.mk.injEq] at h
  obtain ⟨rfl, rfl, rfl⟩ := h
  rfl

variable [LinearOrder RV] [LinearOrder ID]

instance : LinearOrder (RangeMapKey RV ID) := LinearOrder.lift' _ toLexKey_injective

theorem compare_eq_cmp (a b : RangeMapKey RV ID) : compare a b = cmp a b := by
  show compare a.toLexKey b.toLexKey = _
  simp [toLexKey, cmp, Prod.Lex.compare_def, compareLex, compareOn]

theorem le_iff {a b : RangeMapKey RV ID} :
    a ≤ b ↔ a.range.«end» < b.range.«end» ∨ a.range.«end» = b.range.«end» ∧
      (a.range.start < b.range.start ∨ a.range.start = b.range.start ∧ a.key ≤ b.key) := by
  show a.toLexKey ≤ b.toLexKey ↔ _
  simp [toLexKey, Prod.Lex.le_iff]

end RangeMapKey

structure RangeMap (RV ID V : Type) [LinearOrder RV] [LinearOrder ID] where
  map : SortedMap (RangeMapKey RV ID) V

namespace RangeMap

variable [LinearOrder RV] [LinearOrder ID]

def new : RangeMap RV ID V := ⟨SortedMap.empty⟩

-- `assert!(range.start <= range.end)`: a reversed range panics
def insert (m : RangeMap RV ID V) (range : Range RV) (id : ID) (val : V) : Option (RangeMap RV ID V) :=
  if range.start ≤ range.«end» then some ⟨m.map.insert ⟨range, id⟩ val⟩ else none

def get_by_point [Inhabited ID] (m : RangeMap RV ID V) (point : RV) : List (RangeMapKey RV ID × V) :=
  let range_key : RangeMapKey RV ID := ⟨⟨point, point⟩, default⟩
  (m.map.rangeFrom range_key).filter fun e => decide (e.1.range.start ≤ point)

def remove (m : RangeMap RV ID V) (range : Range RV) (id : ID) : RangeMap RV ID V :=
  ⟨m.map.erase ⟨range, id⟩⟩

def remove_by_key (m : RangeMap RV ID V) (key : RangeMapKey RV ID) : RangeMap RV ID V :=
  ⟨m.map.erase key⟩

end RangeMap

section Lookup

variable [LinearOrder RV] [LinearOrder ID] [Inhabited ID]

theorem sentinel_le_and_start_iff {k : RangeMapKey RV ID} {p : RV} (hk : default ≤ k.key) :
    ((⟨⟨p, p⟩, default⟩ : RangeMapKey RV ID) ≤ k ∧ k.range.start ≤ p) ↔ k.range.Watches p := by
  rw [RangeMapKey.le_iff]
  simp only [Range.Watches]
  constructor
  · rintro ⟨hend | ⟨hend, hstart | ⟨hstart, -⟩⟩, hle⟩
    · exact .inl ⟨hle, hend⟩
    · exact absurd hle (not_le.mpr hstart)
    · exact .inr ⟨hstart.symm, hend.symm⟩
  · rintro (⟨hle, hend⟩ | ⟨hstart, hend⟩)
    · exact ⟨.inl hend, hle⟩
    · exact ⟨.inr ⟨hend.symm, .inr ⟨hstart.symm, hk⟩⟩, hstart.le⟩

theorem get_by_point_eq_filter (m : RangeMap RV ID V) (p : RV)
    (hmin : ∀ e ∈ m.map.entries, default ≤ e.1.key) :
    m.get_by_point p = m.map.entries.filter fun e => decide (e.1.range.Watches p) := by
  unfold RangeMap.get_by_point SortedMap.rangeFrom
  rw [List.filter_filter]
  apply List.filter_congr
  intro e he
  rw [Bool.and_comm, ← Bool.decide_and]
  exact decide_eq_decide.mpr (sentinel_le_and_start_iff (hmin e he))

end Lookup

theorem get_by_point_exact [LinearOrder RV] (m : RangeMap RV UInt64 V) (p : RV) :
    m.get_by_point p = m.map.entries.filter (fun e => decide (e.1.range.Watches p)) ∧
      (m.get_by_point p).Pairwise (fun a b => a.1 < b.1) := by
  have heq := get_by_point_eq_filter m p (fun e _ => UInt64.le_iff_toNat_le.mpr (Nat.zero_le _))
  refine ⟨heq, ?_⟩
  rw [heq]
  exact m.map.sorted.filter _

theorem insertList_pairwise_key_ne [LinearOrder RV] [LinearOrder ID] {es : List (RangeMapKey RV ID × V)}
    {k : RangeMapKey RV ID} {v : V} (h : es.Pairwise fun e f => e.1.key ≠ f.1.key)
    (hfresh : ∀ e ∈ es, e.1.key < k.key) :
    (SortedMap.insertList k v es).Pairwise fun e f => e.1.key ≠ f.1.key := by
  induction es with
  | nil => simp [SortedMap.insertList]
  | cons e es ih =>
      obtain ⟨he, hes⟩ := List.pairwise_cons.mp h
      have hke : ∀ f ∈ e :: es, k.key ≠ f.1.key := fun f hf => (ne_of_lt (hfresh f hf)).symm
      simp only [SortedMap.insertList]
      split_ifs
      · exact List.Pairwise.cons hke h
      · exact List.Pairwise.cons (fun f hf => hke f (List.mem_cons_of_mem _ hf)) hes
      · refine List.Pairwise.cons ?_ (ih hes fun f hf => hfresh f (List.mem_cons_of_mem _ hf))
        intro f hf
        rcases SortedMap.mem_insertList hf with rfl | hf
        · exact (hke e (List.mem_cons_self ..)).symm
        · exact he f hf

section Watcher

inductive FilterType where
  | All
  | Update
  | Delete
  deriving DecidableEq, Repr

-- `id` is a `Int`, an `i64`: ids are handed out from 2 upwards, one per watcher
structure Watcher where
  id : Int
  filter_type : FilterType
  key_range : Range String
  deriving DecidableEq, Repr

structure WatchRequest where
  key : String
  key_end : Option String
  filter_type : FilterType

-- the dispatcher's state: its watchers, each stored as the `Watcher` of its stream handle (the
-- handle's sender is not modelled; whether a send succeeds is an input of `dispatch_event`)
structure EventDispatcher where
  watcher_range_map : RangeMap String Int Watcher
  current_watcher_id : Int

namespace EventDispatcher

def new : EventDispatcher := ⟨RangeMap.new, 1⟩

def build_key_range (key : String) (key_end : Option String) : Except String (Range String) :=
  match key_end with
  | some key_end => if key > key_end then .error "empty range" else .ok ⟨key, key_end⟩
  | none => .ok ⟨key, key⟩

-- the `insert` assertion is the panic of the source, which `build_key_range` rules out
def add_watcher (d : EventDispatcher) (create : WatchRequest) : Except String (EventDispatcher × Watcher) := do
  let range ← build_key_range create.key create.key_end
  let watcher_id := d.current_watcher_id + 1
  let watcher : Watcher := ⟨watcher_id, create.filter_type, range⟩
  match d.watcher_range_map.insert range watcher_id watcher with
  | some m => .ok (⟨m, watcher_id⟩, watcher)
  | none => .error "assertion failed: range.start <= range.end"

def remove_watcher (d : EventDispatcher) (key : RangeMapKey String Int) : EventDispatcher :=
  { d with watcher_range_map := d.watcher_range_map.remove_by_key key }

def skips (filter : FilterType) (is_delete_event : Bool) : Bool :=
  (filter == .Delete && !is_delete_event) || (filter == .Update && is_delete_event)

-- one watcher of the lookup: skipped, or sent the event (after the `assert_eq!` on its id), and
-- queued for removal when the send fails
def dispatch_one (is_delete_event : Bool) (send_ok : Int → Bool)
    (acc : List Int × List (RangeMapKey String Int)) (e : RangeMapKey String Int × Watcher) :
    Except String (List Int × List (RangeMapKey String Int)) :=
  if skips e.2.filter_type is_delete_event then .ok acc
  else if e.2.id ≠ e.1.key then .error "assertion failed: stream.watcher.id == watcher_id"
  else .ok (acc.1 ++ [e.1.key], if send_ok e.1.key then acc.2 else acc.2 ++ [⟨e.2.key_range, e.1.key⟩])

def dispatch_event (d : EventDispatcher) (k : String) (is_delete_event : Bool) (send_ok : Int → Bool) :
    Except String (EventDispatcher × List Int) := do
  let set := d.watcher_range_map.get_by_point k
  let (sent, remove_range_keys) ← set.foldlM (dispatch_one is_delete_event send_ok) ([], [])
  pure (remove_range_keys.foldl remove_watcher d, sent)

end EventDispatcher

open EventDispatcher

inductive Reachable : EventDispatcher → Prop
  | new : Reachable EventDispatcher.new
  | add_watcher {d d' : EventDispatcher} {w : Watcher} (create : WatchRequest) :
      Reachable d → d.add_watcher create = .ok (d', w) → Reachable d'
  | remove_watcher {d : EventDispatcher} (key : RangeMapKey String Int) :
      Reachable d → Reachable (d.remove_watcher key)
  | dispatch_event {d d' : EventDispatcher} {sent : List Int} (k : String) (is_delete_event : Bool)
      (send_ok : Int → Bool) :
      Reachable d → d.dispatch_event k is_delete_event send_ok = .ok (d', sent) → Reachable d'

structure DispatcherInv (d : EventDispatcher) : Prop where
  counter : 1 ≤ d.current_watcher_id
  stored : ∀ e ∈ d.watcher_range_map.map.entries,
    e.2.id = e.1.key ∧ e.2.key_range = e.1.range ∧ 0 < e.1.key ∧ e.1.key ≤ d.current_watcher_id
  distinct : d.watcher_range_map.map.entries.Pairwise fun e f => e.1.key ≠ f.1.key

theorem DispatcherInv.new : DispatcherInv EventDispatcher.new :=
  ⟨le_refl _, by simp [EventDispatcher.new, RangeMap.new, SortedMap.empty], by
    simp [EventDispatcher.new, RangeMap.new, SortedMap.empty]⟩

theorem DispatcherInv.remove_watcher {d : EventDispatcher} (h : DispatcherInv d)
    (key : RangeMapKey String Int) : DispatcherInv (d.remove_watcher key) := by
  refine ⟨h.counter, ?_, h.distinct.filter _⟩
  intro e he
  exact h.stored e (List.mem_of_mem_filter he)

theorem DispatcherInv.foldl_remove_watcher {d : EventDispatcher} (h : DispatcherInv d)
    (keys : List (RangeMapKey String Int)) : DispatcherInv (keys.foldl EventDispatcher.remove_watcher d) := by
  induction keys generalizing d with
  | nil => exact h
  | cons key keys ih => exact ih (h.remove_watcher key)

theorem build_key_range_ok {key : String} {key_end : Option String} {range : Range String}
    (h : build_key_range key key_end = .ok range) : range.start ≤ range.«end» := by
  unfold build_key_range at h
  split at h
  · split_ifs at h with hgt
    cases h
    exact not_lt.mp hgt
  · cases h
    exact le_refl _

theorem DispatcherInv.add_watcher {d d' : EventDispatcher} {w : Watcher} (h : DispatcherInv d)
    {create : WatchRequest} (hadd : d.add_watcher create = .ok (d', w)) : DispatcherInv d' := by
  unfold EventDispatcher.add_watcher at hadd
  cases hr : build_key_range create.key create.key_end with
  | error e => rw [hr] at hadd; cases hadd
  | ok range =>
      rw [hr] at hadd
      have hle := build_key_range_ok hr
      simp only [bind, Except.bind, RangeMap.insert, if_pos hle] at hadd
      cases hadd
      -- the new watcher's id is above every stored id
      have hfresh : ∀ e ∈ d.watcher_range_map.map.entries, e.1.key < d.current_watcher_id + 1 :=
        fun e he => Int.lt_add_one_iff.mpr (h.stored e he).2.2.2
      have hc := h.counter
      refine ⟨show 1 ≤ d.current_watcher_id + 1 by omega, ?_, ?_⟩
      · intro e he
        rcases SortedMap.mem_insertList he with rfl | he
        · exact ⟨rfl, rfl, show 0 < d.current_watcher_id + 1 by omega, le_refl _⟩
        · obtain ⟨h1, h2, h3, h4⟩ := h.stored e he
          exact ⟨h1, h2, h3, show e.1.key ≤ d.current_watcher_id + 1 by omega⟩
      · exact insertList_pairwise_key_ne h.distinct hfresh

theorem dispatch_one_ok (is_delete_event : Bool) (send_ok : Int → Bool)
    (L : List (RangeMapKey String Int × Watcher)) (hL : ∀ e ∈ L, e.2.id = e.1.key)
    (acc : List Int × List (RangeMapKey String Int)) :
    ∃ removes, L.foldlM (dispatch_one is_delete_event send_ok) acc =
      .ok (acc.1 ++ (L.filter fun e => !skips e.2.filter_type is_delete_event).map (·.1.key), acc.2 ++ removes) := by
  induction L generalizing acc with
  | nil => exact ⟨[], by simp [List.foldlM, pure, Except.pure]⟩
  | cons e L ih =>
      have he := hL e (List.mem_cons_self ..)
      have hL' : ∀ e ∈ L, e.2.id = e.1.key := fun e' he' => hL e' (List.mem_cons_of_mem _ he')
      by_cases hs : skips e.2.filter_type is_delete_event = true
      · obtain ⟨removes, hr⟩ := ih hL' acc
        refine ⟨removes, ?_⟩
        simp [List.foldlM, dispatch_one, hs, hr, bind, Except.bind]
      · -- the event is sent: the id check passes, and a failed send is queued for removal
        set acc' : List Int × List (RangeMapKey String Int) :=
          (acc.1 ++ [e.1.key], if send_ok e.1.key then acc.2 else acc.2 ++ [⟨e.2.key_range, e.1.key⟩])
        obtain ⟨removes, hr⟩ := ih hL' acc'
        refine ⟨(if send_ok e.1.key then [] else [⟨e.2.key_range, e.1.key⟩]) ++ removes, ?_⟩
        have hone : dispatch_one is_delete_event send_ok acc e = .ok acc' := by
          simp [dispatch_one, hs, he, acc']
        simp only [List.foldlM, hone, bind, Except.bind, hr, acc']
        split_ifs <;> simp [hs]

theorem dispatch_event_sent {d : EventDispatcher} (h : DispatcherInv d) (k : String)
    (is_delete_event : Bool) (send_ok : Int → Bool) :
    ∃ d', d.dispatch_event k is_delete_event send_ok = .ok (d',
      (d.watcher_range_map.map.entries.filter fun e =>
        decide (e.1.range.Watches k) && !skips e.2.filter_type is_delete_event).map (·.1.key)) ∧
      DispatcherInv d' := by
  have hget := get_by_point_eq_filter d.watcher_range_map k
    (fun e he => le_of_lt (h.stored e he).2.2.1)
  have hid : ∀ e ∈ d.watcher_range_map.get_by_point k, e.2.id = e.1.key := by
    intro e he
    rw [hget] at he
    exact (h.stored e (List.mem_of_mem_filter he)).1
  obtain ⟨removes, hr⟩ := dispatch_one_ok is_delete_event send_ok _ hid ([], [])
  refine ⟨removes.foldl remove_watcher d, ?_, h.foldl_remove_watcher removes⟩
  simp only [EventDispatcher.dispatch_event, hr, bind, Except.bind, pure, Except.pure, List.nil_append]
  rw [hget, List.filter_filter]
  congr 3
  exact List.filter_congr fun e _ => Bool.and_comm _ _

theorem Reachable.inv {d : EventDispatcher} (h : Reachable d) : DispatcherInv d := by
  induction h with
  | new => exact DispatcherInv.new
  | add_watcher create _ hadd ih => exact ih.add_watcher hadd
  | remove_watcher key _ ih => exact ih.remove_watcher key
  | dispatch_event k del send_ok _ hd ih =>
      obtain ⟨d', hd', hinv⟩ := dispatch_event_sent ih k del send_ok
      rw [hd] at hd'
      cases hd'
      exact hinv

end Watcher

theorem watcher_lookup_exact {V : Type} :
    (∀ (m : RangeMap String UInt64 V) (p : String),
      m.get_by_point p = m.map.entries.filter (fun e => decide (e.1.range.Watches p)) ∧
        (m.get_by_point p).Pairwise (fun a b => a.1 < b.1)) ∧
    ∀ d : EventDispatcher, Reachable d → ∀ (k : String) (is_delete_event : Bool) (send_ok : Int → Bool),
      let sent := (d.watcher_range_map.map.entries.filter fun e =>
        decide (e.1.range.Watches k) && !EventDispatcher.skips e.2.filter_type is_delete_event).map (·.1.key)
      sent.Nodup ∧ ∃ d', d.dispatch_event k is_delete_event send_ok = .ok (d', sent) ∧ Reachable d' := by
  refine ⟨get_by_point_exact, ?_⟩
  intro d hd k is_delete_event send_ok
  have hinv := hd.inv
  obtain ⟨d', hd', -⟩ := dispatch_event_sent hinv k is_delete_event send_ok
  refine ⟨?_, d', hd', Reachable.dispatch_event k is_delete_event send_ok hd hd'⟩
  -- distinct stored ids give distinct recipients
  exact List.pairwise_map.mpr (hinv.distinct.filter _)

-- watchers of a..c for all events, of x..z, and of the key b for updates only: a delete of b
-- reaches the first alone, an update of b the third and then the first
theorem watcher_lookup_exact_three_watchers :
    ∃ d, Reachable d ∧
      (d.dispatch_event "b" true fun _ => true).map Prod.snd = .ok [2] ∧
      (d.dispatch_event "b" false fun _ => true).map Prod.snd = .ok [4, 2] ∧
      let sent := (d.watcher_range_map.map.entries.filter fun e =>
        decide (e.1.range.Watches "b") && !EventDispatcher.skips e.2.filter_type true).map (·.1.key)
      sent.Nodup ∧ ∃ d', d.dispatch_event "b" true (fun _ => true) = .ok (d', sent) ∧ Reachable d' := by
  have hr : Reachable _ := Reachable.add_watcher ⟨"b", none, .Update⟩
    (Reachable.add_watcher ⟨"x", some "z", .All⟩ (Reachable.add_watcher ⟨"a", some "c", .All⟩ Reachable.new rfl) rfl) rfl
  exact ⟨_, hr, by decide, by decide, (watcher_lookup_exact (V := Unit)).2 _ hr "b" true fun _ => true⟩

theorem dispatch_skips_update_watcher :
    ∃ d w, EventDispatcher.new.add_watcher ⟨"a", none, .Update⟩ = .ok (d, w) ∧
      (d.watcher_range_map.get_by_point "a").length = 1 ∧
      (d.dispatch_event "a" true fun _ => true).map Prod.snd = .ok [] :=
  ⟨_, _, rfl, by decide, by decide⟩

end Databend.Rangemap
