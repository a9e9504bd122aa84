import Databend.Hashtable.HashJoinHashtable
import Databend.Library.Kleene

namespace Databend.HashJoin

open Databend.Hashtable

def MARKER_KIND_TRUE : UInt8 := 0
def MARKER_KIND_FALSE : UInt8 := 1
def MARKER_KIND_NULL : UInt8 := 2

structure KeyColumn (K : Type) where
  column : List K
  validity : Option (List Bool)
  deriving DecidableEq, Repr

structure ProbeState where
  max_block_size : Nat
  max_block_size_pos : 0 < max_block_size

structure MarkScanState where
  mark_scan_map : List (List UInt8)
  has_null : Bool
  deriving DecidableEq, Repr

section Build

variable {K : Type} (hash : K → UInt64)

def init_markers (col : KeyColumn K) (markers : List UInt8) : List UInt8 :=
  match col.validity with
  | none => markers
  | some bitmap =>
      -- a bitmap with no unset bit is replaced by the all-true bitmap, which changes nothing
      if bitmap.all id then markers
      else markers.mapIdx fun idx m => if bitmap.getD idx true then m else MARKER_KIND_NULL

def insert_keys (chunk_index : Nat) : HashJoinHashTable K → Nat → List K → HashJoinHashTable K
  | t, _, [] => t
  | t, row_index, key :: keys => insert_keys chunk_index (t.insert hash key ⟨chunk_index, row_index⟩) (row_index + 1) keys

def insert_chunks : HashJoinHashTable K → Nat → List (KeyColumn K) → HashJoinHashTable K
  | t, _, [] => t
  | t, chunk_index, chunk :: chunks => insert_chunks (insert_keys hash chunk_index t 0 chunk.column) (chunk_index + 1) chunks

def build (chunks : List (KeyColumn K)) : HashJoinHashTable K × MarkScanState :=
  let build_num_rows := (chunks.map fun c => c.column.length).sum
  (insert_chunks hash (HashJoinHashTable.with_build_row_num build_num_rows) 0 chunks,
    ⟨chunks.map fun c => init_markers c (List.replicate c.column.length MARKER_KIND_FALSE), false⟩)

theorem mem_bucket_insert_keys {chunk_index : Nat} {h : UInt64} {e : RawEntry K} (keys : List K) :
    ∀ {t : HashJoinHashTable K} {row_index : Nat},
      e ∈ (insert_keys hash chunk_index t row_index keys).bucket h → e ∈ t.bucket h ∨ e.key ∈ keys := by
  induction keys with
  | nil => intro t row_index he; exact Or.inl he
  | cons key keys ih =>
      intro t row_index he
      rw [insert_keys] at he
      rcases ih he with he | he
      · rcases HashJoinHashTable.mem_bucket_insert hash he with rfl | he
        · exact Or.inr List.mem_cons_self
        · exact Or.inl he
      · exact Or.inr (List.mem_cons_of_mem _ he)

theorem mem_bucket_insert_chunks {h : UInt64} {e : RawEntry K} (chunks : List (KeyColumn K)) :
    ∀ {t : HashJoinHashTable K} {chunk_index : Nat},
      e ∈ (insert_chunks hash t chunk_index chunks).bucket h → e ∈ t.bucket h ∨ ∃ c ∈ chunks, e.key ∈ c.column := by
  induction chunks with
  | nil => intro t chunk_index he; exact Or.inl he
  | cons chunk chunks ih =>
      intro t chunk_index he
      rw [insert_chunks] at he
      rcases ih he with he | ⟨c, hc, hk⟩
      · rcases mem_bucket_insert_keys hash _ he with he | hk
        · exact Or.inl he
        · exact Or.inr ⟨chunk, List.mem_cons_self, hk⟩
      · exact Or.inr ⟨c, List.mem_cons_of_mem _ hc, hk⟩

theorem key_mem_of_mem_bucket_build {chunks : List (KeyColumn K)} {h : UInt64} {e : RawEntry K}
    (he : e ∈ (build hash chunks).1.bucket h) : ∃ c ∈ chunks, e.key ∈ c.column := by
  rcases mem_bucket_insert_chunks hash _ he with he | hk
  · rw [HashJoinHashTable.bucket_with_build_row_num] at he
    cases he
  · exact hk

end Build

section Probe

variable {K : Type} [DecidableEq K]

def set_marker (map : List (List UInt8)) (p : RowPtr) (marker : UInt8) : List (List UInt8) :=
  map.modify p.chunk_index fun markers => markers.set p.row_index marker

def set_markers (map : List (List UInt8)) (ps : List RowPtr) (marker : UInt8) : List (List UInt8) :=
  ps.foldl (fun map p => set_marker map p marker) map

structure MarkProbe where
  max_block_size : UInt64
  mark_scan_map : List (List UInt8)
  capacities : List Nat

def next_block_size (i : Nat) (max_block_size : UInt64) : UInt64 :=
  if (i.toUInt64 &&& max_block_size) = 0 then max_block_size <<< 1 else max_block_size

def mark_chain (key : K) (capacity : Nat) (ptr : List (RawEntry K)) (st : MarkProbe) : MarkProbe :=
  match h : next_probe key ptr 0 capacity with
  | (written, incomplete) =>
      let st := { st with capacities := st.capacities ++ [capacity] }
      if hw : written = [] then st
      else
        let st := { st with mark_scan_map := set_markers st.mark_scan_map written MARKER_KIND_TRUE }
        if incomplete = [] then st else mark_chain key capacity incomplete st
termination_by ptr.length
decreasing_by
  have hlt := @next_probe_length_lt K _ key ptr 0 capacity (by rw [h]; exact hw)
  rw [h] at hlt
  exact hlt

def probe_left_mark_rows (from_correlated_subquery : Bool) (valids : Option (List Bool)) :
    Nat → List (K × List (RawEntry K)) → MarkProbe → MarkProbe
  | _, [], st => st
  | i, (key, ptr) :: rows, st =>
      let st := { st with max_block_size := next_block_size i st.max_block_size }
      let st :=
        if from_correlated_subquery || valids.elim true (fun v => v.getD i false) then
          mark_chain key st.max_block_size.toNat ptr st
        else st
      probe_left_mark_rows from_correlated_subquery valids (i + 1) rows st

def probe_left_mark_join (ps : ProbeState) (from_correlated_subquery : Bool) (valids : Option (List Bool))
    (probe_has_null : Bool) (keys : List K) (pointers : List (List (RawEntry K))) (s : MarkScanState) :
    MarkScanState × List Nat :=
  let has_null := s.has_null || probe_has_null
  let st := probe_left_mark_rows from_correlated_subquery valids 0 (keys.zip pointers)
    ⟨ps.max_block_size.toUInt64, s.mark_scan_map, []⟩
  (⟨st.mark_scan_map, has_null⟩, st.capacities)

section ProbeSpec

theorem set_markers_append (map : List (List UInt8)) (l₁ l₂ : List RowPtr) (marker : UInt8) :
    set_markers map (l₁ ++ l₂) marker = set_markers (set_markers map l₁ marker) l₂ marker :=
  List.foldl_append

theorem mark_chain_map (key : K) (capacity : Nat) (ptr : List (RawEntry K)) (st : MarkProbe) :
    (mark_chain key capacity ptr st).mark_scan_map =
      set_markers st.mark_scan_map (if capacity = 0 then [] else chain_matches key ptr) MARKER_KIND_TRUE := by
  -- on the length of the chain, which every call that copies something shortens
  induction hn : ptr.length using Nat.strong_induction_on generalizing ptr st with
  | _ n ih =>
  rw [mark_chain]
  split
  next written incomplete h =>
    have hw : (chain_matches key ptr).take capacity = written := by
      rw [← Nat.sub_zero capacity, ← next_probe_fst, h]
    dsimp only
    split
    · next hnil =>
        -- nothing was copied: there is no match, or no room
        have hcm : capacity = 0 ∨ chain_matches key ptr = [] := by
          rw [hnil, List.take_eq_nil_iff] at hw
          exact hw
        rcases hcm with hc | hc <;> simp [hc, set_markers]
    · next hne =>
        have hc : capacity ≠ 0 := by
          rintro rfl
          rw [List.take_zero] at hw
          exact hne hw.symm
        have hne' : (next_probe key ptr 0 capacity).1 ≠ [] := by rw [h]; exact hne
        have hrest : chain_matches key incomplete = (chain_matches key ptr).drop capacity := by
          have := next_probe_snd key hne'
          rw [h, Nat.sub_zero] at this
          exact this
        split
        · next hinc =>
            rw [hinc, chain_matches_nil] at hrest
            rw [← List.take_append_drop capacity (chain_matches key ptr), ← hrest, hw, List.append_nil]
        · have hlt : incomplete.length < n := by
            have := next_probe_length_lt key hne'
            rw [h] at this
            dsimp only at this
            omega
          rw [ih incomplete.length hlt incomplete _ rfl, if_neg hc, hrest]
          dsimp only
          rw [← set_markers_append, ← hw, List.take_append_drop]

theorem mark_chain_of_nil {key : K} {capacity : Nat} {ptr : List (RawEntry K)} (st : MarkProbe)
    (h : next_probe key ptr 0 capacity = ([], [])) :
    mark_chain key capacity ptr st = { st with capacities := st.capacities ++ [capacity] } := by
  rw [mark_chain]
  split
  next written incomplete h' =>
    rw [h] at h'
    cases h'
    rfl

theorem mark_chain_max_block_size (key : K) (capacity : Nat) (ptr : List (RawEntry K)) (st : MarkProbe) :
    (mark_chain key capacity ptr st).max_block_size = st.max_block_size := by
  induction hn : ptr.length using Nat.strong_induction_on generalizing ptr st with
  | _ n ih =>
  rw [mark_chain]
  split
  next written incomplete h =>
    dsimp only
    split
    · rfl
    · next hne =>
        split
        · rfl
        · have hlt : incomplete.length < n := by
            have := next_probe_length_lt key (by rw [h]; exact hne : (next_probe key ptr 0 capacity).1 ≠ [])
            rw [h] at this
            dsimp only at this
            omega
          exact ih incomplete.length hlt incomplete _ rfl

def block_size_at (max_block_size : UInt64) : Nat → UInt64
  | 0 => max_block_size
  | i + 1 => next_block_size i (block_size_at max_block_size i)

def row_marks (from_correlated_subquery : Bool) (valids : Option (List Bool)) (max_block_size : UInt64)
    (j : Nat) (key : K) (ptr : List (RawEntry K)) : List RowPtr :=
  if (from_correlated_subquery || valids.elim true fun v => v.getD j false) &&
      (block_size_at max_block_size (j + 1)).toNat ≠ 0 then chain_matches key ptr
  else []

theorem probe_left_mark_rows_map (from_correlated_subquery : Bool) (valids : Option (List Bool))
    (max_block_size : UInt64) (rows : List (K × List (RawEntry K))) (i : Nat) (st : MarkProbe)
    (h : st.max_block_size = block_size_at max_block_size i) :
    (probe_left_mark_rows from_correlated_subquery valids i rows st).mark_scan_map =
      set_markers st.mark_scan_map
        ((rows.zipIdx i).flatMap fun r => row_marks from_correlated_subquery valids max_block_size r.2 r.1.1 r.1.2)
        MARKER_KIND_TRUE := by
  induction rows generalizing i st with
  | nil => rfl
  | cons r rows ih =>
      obtain ⟨key, ptr⟩ := r
      have hnext : next_block_size i st.max_block_size = block_size_at max_block_size (i + 1) := by
        rw [h, block_size_at]
      rw [probe_left_mark_rows, List.zipIdx_cons, List.flatMap_cons, set_markers_append]
      dsimp only
      rw [ih]
      · congr 1
        rw [row_marks, ← hnext]
        split
        · next hv =>
            rw [mark_chain_map]
            by_cases hc : (next_block_size i st.max_block_size).toNat = 0
            · rw [if_pos hc, if_neg (by rw [Bool.and_eq_true]; exact fun h' => of_decide_eq_true h'.2 hc)]
            · rw [if_neg hc, if_pos (by rw [Bool.and_eq_true]; exact ⟨hv, decide_eq_true hc⟩)]
        · next hv =>
            rw [if_neg (by rw [Bool.and_eq_true]; exact fun h' => hv h'.1)]
            rfl
      · split
        · rw [mark_chain_max_block_size]; exact hnext
        · exact hnext

end ProbeSpec

end Probe

section Scan

def left_mark_value (has_null : Bool) (marker : UInt8) : Option Bool :=
  let marker := if marker = MARKER_KIND_FALSE && has_null then MARKER_KIND_NULL else marker
  if marker = MARKER_KIND_NULL then none else some (marker = MARKER_KIND_TRUE)

def left_mark_scan_loop (ps : ProbeState) (chunk_index : Nat) (has_null : Bool) (markers : List UInt8)
    (row_index : Nat) : List (List (RowPtr × Option Bool)) :=
  if row_index < markers.length then
    let block_size := min (markers.length - row_index) ps.max_block_size
    let block := (List.range block_size).map fun k =>
      ((⟨chunk_index, row_index + k⟩ : RowPtr),
        left_mark_value has_null (markers.getD (row_index + k) MARKER_KIND_FALSE))
    block :: left_mark_scan_loop ps chunk_index has_null markers (row_index + block_size)
  else []
termination_by markers.length - row_index
decreasing_by have := ps.max_block_size_pos; omega

theorem left_mark_scan_loop_of_le {ps : ProbeState} {chunk_index : Nat} {has_null : Bool} {markers : List UInt8}
    (h0 : markers ≠ []) (h : markers.length ≤ ps.max_block_size) :
    left_mark_scan_loop ps chunk_index has_null markers 0 =
      [(List.range markers.length).map fun k =>
        ((⟨chunk_index, k⟩ : RowPtr), left_mark_value has_null (markers.getD k MARKER_KIND_FALSE))] := by
  have hpos : 0 < markers.length := List.length_pos_of_ne_nil h0
  rw [left_mark_scan_loop, if_pos hpos]
  dsimp only
  rw [Nat.sub_zero, Nat.min_eq_left h, left_mark_scan_loop, if_neg (by omega)]
  simp

def left_mark_scan (ps : ProbeState) (task : Nat) (s : MarkScanState) : List (List (RowPtr × Option Bool)) :=
  left_mark_scan_loop ps task s.has_null (s.mark_scan_map.getD task []) 0

end Scan

section Join

variable {K : Type} [DecidableEq K] (hash : K → UInt64)

def probe_block (ps : ProbeState) (from_correlated_subquery : Bool) (t : HashJoinHashTable K)
    (col : KeyColumn K) (s : MarkScanState) : MarkScanState :=
  let probe_has_null := col.validity.elim false fun v => v.any (! ·)
  (probe_left_mark_join ps from_correlated_subquery col.validity probe_has_null col.column
    (t.probe (col.column.map hash)) s).1

def left_mark_join (ps : ProbeState) (from_correlated_subquery : Bool) (build_side : List (KeyColumn K))
    (probe_side : List (KeyColumn K)) : List (List (RowPtr × Option Bool)) :=
  let (t, s) := build hash build_side
  let s := probe_side.foldl (fun s col => probe_block hash ps from_correlated_subquery t col s) s
  (List.range build_side.length).flatMap fun task => left_mark_scan ps task s

end Join

section Reference

variable {K : Type} [DecidableEq K]

def eq3 : Option K → Option K → Kleene
  | some a, some b => if a = b then .tt else .ff
  | _, _ => .uu

def mark_in (k : Option K) (S : List (Option K)) : Kleene := Kleene.any (S.map (eq3 k))

end Reference

section Overflow

theorem block_size_at_default_48 : block_size_at 65536 48 = 0 := by decide +kernel

theorem left_mark_join_misses_match (hash : UInt64 → UInt64) :
    left_mark_join hash ⟨65536, by decide⟩ false [⟨[1], none⟩] [⟨List.replicate 47 2 ++ [1], none⟩] =
        [[(⟨0, 0⟩, some false)]] ∧
      Kleene.toOption (mark_in (some (1 : UInt64)) ((List.replicate 47 (2 : UInt64) ++ [1]).map some)) = some true ∧
      (probe_left_mark_join ⟨65536, by decide⟩ false none false [(2 : UInt64)] [[]]
        ⟨[[MARKER_KIND_FALSE]], false⟩).2 = [131072] := by
  refine ⟨?_, ?_, ?_⟩
  · set t := (build hash [(⟨[1], none⟩ : KeyColumn UInt64)]).1
    -- every entry of the table holds the build key 1
    have ht : ∀ h' : UInt64, chain_matches 2 (t.bucket h') = [] := by
      intro h'
      apply chain_matches_eq_nil
      intro e he
      obtain ⟨c, hc, hk⟩ := key_mem_of_mem_bucket_build hash he
      rw [List.mem_singleton] at hc
      subst hc
      rw [List.mem_singleton] at hk
      rw [hk]
      decide
    have hrows : ((List.replicate 47 (2 : UInt64) ++ [1]).zip
        (t.probe ((List.replicate 47 (2 : UInt64) ++ [1]).map hash))) =
        (List.replicate 47 2).zip ((List.replicate 47 (2 : UInt64)).map (t.bucket ∘ hash)) ++
          [(1, t.bucket (hash 1))] := by
      rw [HashJoinHashTable.probe, List.map_map, List.map_append, List.zip_append (by simp)]
      rfl
    -- the probe marks nothing: no row before 47 matches, and row 47 has no room
    have hmarks : (probe_block hash ⟨65536, by decide⟩ false t ⟨List.replicate 47 2 ++ [1], none⟩
        ⟨[[MARKER_KIND_FALSE]], false⟩) = ⟨[[MARKER_KIND_FALSE]], false⟩ := by
      rw [probe_block, probe_left_mark_join]
      dsimp only
      rw [probe_left_mark_rows_map false none 65536 _ 0 _ rfl, hrows, List.zipIdx_append, List.flatMap_append]
      have hnil : ((List.replicate 47 (2 : UInt64)).zip ((List.replicate 47 (2 : UInt64)).map (t.bucket ∘ hash))).zipIdx.flatMap
          (fun r => row_marks false none 65536 r.2 r.1.1 r.1.2) = [] := by
        rw [List.flatMap_eq_nil_iff]
        rintro ⟨⟨key, ptr⟩, j⟩ hr
        obtain ⟨hkey, hptr⟩ := List.of_mem_zip (List.fst_mem_of_mem_zipIdx hr)
        rw [List.mem_replicate] at hkey
        obtain ⟨h', -, rfl⟩ := List.mem_map.mp hptr
        rw [row_marks, hkey.2, Function.comp_apply, ht]
        split <;> rfl
      have hlast : ([((1 : UInt64), t.bucket (hash 1))].zipIdx (0 + 47)).flatMap
          (fun r => row_marks false none 65536 r.2 r.1.1 r.1.2) = [] := by
        simp [row_marks, block_size_at_default_48]
      rw [List.length_zip, List.length_map, List.length_replicate, Nat.min_self, hnil, hlast]
      rfl
    show (List.range 1).flatMap (fun task => left_mark_scan ⟨65536, by decide⟩ task
      ([⟨List.replicate 47 2 ++ [1], none⟩].foldl (fun s col => probe_block hash ⟨65536, by decide⟩ false t col s)
        ⟨[[MARKER_KIND_FALSE]], false⟩)) = _
    rw [List.foldl_cons, List.foldl_nil, hmarks]
    simp only [List.range_one, List.flatMap_cons, List.flatMap_nil, List.append_nil, left_mark_scan]
    rw [left_mark_scan_loop_of_le (by decide) (by decide)]
    rfl
  · -- the last row is the only one with `1 = 1`
    have hmem : Kleene.tt ∈ ((List.replicate 47 (2 : UInt64) ++ [1]).map some).map (eq3 (some 1)) :=
      List.mem_map.mpr ⟨some 1, by simp, by simp [eq3]⟩
    rw [mark_in, (Kleene.any_eq_tt_iff _).mpr hmem]
    rfl
  · have hb : next_block_size 0 (65536 : Nat).toUInt64 = 131072 := by decide
    rw [probe_left_mark_join]
    dsimp only
    rw [List.zip_cons_cons, List.zip_nil_left, probe_left_mark_rows, probe_left_mark_rows]
    dsimp only
    rw [hb]
    simp only [Bool.false_or, Option.elim_none, ↓reduceIte]
    rw [mark_chain_of_nil _ (next_probe_eq_nil _ (Or.inl rfl))]
    rfl

end Overflow

end Databend.HashJoin
