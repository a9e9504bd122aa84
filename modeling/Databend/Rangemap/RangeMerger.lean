import Mathlib

namespace Databend.Rangemap

structure Range (Idx : Type) where
  start : Idx
  «end» : Idx
  deriving DecidableEq, Repr

namespace Range

def Covers (m r : Range UInt64) : Prop := m.start ≤ r.start ∧ r.«end» ≤ m.«end»

instance (m r : Range UInt64) : Decidable (m.Covers r) := inferInstanceAs (Decidable (_ ∧ _))

theorem Covers.refl (r : Range UInt64) : r.Covers r := ⟨UInt64.le_refl _, UInt64.le_refl _⟩

theorem Covers.trans {a b c : Range UInt64} (hab : a.Covers b) (hbc : b.Covers c) : a.Covers c :=
  ⟨UInt64.le_trans hab.1 hbc.1, UInt64.le_trans hbc.2 hab.2⟩

end Range

def overlaps (this other : Range UInt64) (max_gap_size max_range_size : UInt64) : Bool :=
  let this_len := this.«end» - this.start
  if this_len ≥ max_range_size then false
  else
    let end_with_gap := this.«end» + max_gap_size
    (other.start ≥ this.start && other.start ≤ end_with_gap) ||
      (other.«end» ≥ this.start && other.«end» ≤ end_with_gap)

def merge (this other : Range UInt64) : Range UInt64 :=
  ⟨if this.start ≤ other.start then this.start else other.start,
    if this.«end» ≤ other.«end» then other.«end» else this.«end»⟩

structure RangeMerger where
  max_gap_size : UInt64
  max_range_size : UInt64
  ranges : List (Range UInt64)

namespace RangeMerger

-- `ranges.last_mut()`: the last range is merged in place, or the range is pushed
def add (rs : RangeMerger) (range : Range UInt64) : RangeMerger :=
  match rs.ranges.getLast? with
  | some last =>
      if overlaps last range rs.max_gap_size rs.max_range_size then
        { rs with ranges := rs.ranges.dropLast ++ [merge last range] }
      else { rs with ranges := rs.ranges ++ [range] }
  | none => { rs with ranges := rs.ranges ++ [range] }

-- `sort_by` on the start is stable, as `mergeSort` is
def from_iter (iter : List (Range UInt64)) (max_gap_size max_range_size : UInt64) : RangeMerger :=
  let raw_ranges := iter.mergeSort fun a b => decide (a.start ≤ b.start)
  raw_ranges.foldl add ⟨max_gap_size, max_range_size, []⟩

def get (rs : RangeMerger) (check : Range UInt64) : Option (Nat × Range UInt64) :=
  (rs.ranges.zipIdx.find? fun p => decide (p.1.Covers check)).map fun p => (p.2, p.1)

end RangeMerger

def IsHull (m : Range UInt64) (S : List (Range UInt64)) : Prop :=
  S ≠ [] ∧ (∀ a ∈ S, m.Covers a) ∧ (∃ a ∈ S, a.start = m.start) ∧ ∃ b ∈ S, b.«end» = m.«end»

section Merge

theorem merge_start (this other : Range UInt64) :
    (merge this other).start = if this.start ≤ other.start then this.start else other.start := rfl

theorem merge_end (this other : Range UInt64) :
    (merge this other).«end» = if this.«end» ≤ other.«end» then other.«end» else this.«end» := rfl

theorem merge_covers_left (this other : Range UInt64) : (merge this other).Covers this := by
  constructor
  · rw [merge_start]
    split_ifs with h
    · exact UInt64.le_refl _
    · exact (UInt64.le_total _ _).resolve_left h
  · rw [merge_end]
    split_ifs with h
    · exact h
    · exact UInt64.le_refl _

theorem merge_covers_right (this other : Range UInt64) : (merge this other).Covers other := by
  constructor
  · rw [merge_start]
    split_ifs with h
    · exact h
    · exact UInt64.le_refl _
  · rw [merge_end]
    split_ifs with h
    · exact UInt64.le_refl _
    · exact (UInt64.le_total _ _).resolve_left h

theorem IsHull.merge {m r : Range UInt64} {S : List (Range UInt64)} (h : IsHull m S) :
    IsHull (merge m r) (S ++ [r]) := by
  obtain ⟨hne, hcov, ⟨a, ha, hsa⟩, ⟨b, hb, heb⟩⟩ := h
  refine ⟨by simp, ?_, ?_, ?_⟩
  · intro x hx
    rcases List.mem_append.mp hx with hx | hx
    · exact (merge_covers_left m r).trans (hcov x hx)
    · rw [List.mem_singleton.mp hx]
      exact merge_covers_right m r
  · -- the new start is the old hull's start or the range's
    rw [merge_start]
    split_ifs
    · exact ⟨a, List.mem_append_left _ ha, hsa⟩
    · exact ⟨r, by simp, rfl⟩
  · rw [merge_end]
    split_ifs
    · exact ⟨r, by simp, rfl⟩
    · exact ⟨b, List.mem_append_left _ hb, heb⟩

end Merge

section Run

structure MergedInv (done : List (Range UInt64)) (rs : RangeMerger) : Prop where
  covered : ∀ r ∈ done, ∃ m ∈ rs.ranges, m.Covers r
  hull : ∀ m ∈ rs.ranges, ∃ S, S ⊆ done ∧ IsHull m S

theorem MergedInv.init (gap size : UInt64) : MergedInv [] ⟨gap, size, []⟩ :=
  ⟨by simp, by simp⟩

theorem MergedInv.add {done : List (Range UInt64)} {rs : RangeMerger} (h : MergedInv done rs) (range : Range UInt64) :
    MergedInv (done ++ [range]) (rs.add range) := by
  -- pushing the range: it covers itself and is its own hull
  have push : MergedInv (done ++ [range]) { rs with ranges := rs.ranges ++ [range] } := by
    constructor
    · intro r hr
      rcases List.mem_append.mp hr with hr | hr
      · obtain ⟨m, hm, hc⟩ := h.covered r hr
        exact ⟨m, List.mem_append_left _ hm, hc⟩
      · rw [List.mem_singleton.mp hr]
        exact ⟨range, by simp, Range.Covers.refl _⟩
    · intro m hm
      rcases List.mem_append.mp hm with hm | hm
      · obtain ⟨S, hS, hh⟩ := h.hull m hm
        exact ⟨S, fun x hx => List.mem_append_left _ (hS hx), hh⟩
      · rw [List.mem_singleton.mp hm]
        refine ⟨[range], by simp, by simp, ?_, ⟨range, by simp, rfl⟩, ⟨range, by simp, rfl⟩⟩
        intro a ha
        rw [List.mem_singleton.mp ha]
        exact Range.Covers.refl _
  unfold RangeMerger.add
  split
  · rename_i last hlast
    obtain ⟨init, hinit⟩ := List.getLast?_eq_some_iff.mp hlast
    split
    · -- merging into the last range keeps everything it covered covered
      have hdrop : rs.ranges.dropLast = init := by rw [hinit, List.dropLast_concat]
      constructor
      · intro r hr
        rcases List.mem_append.mp hr with hr | hr
        · obtain ⟨m, hm, hc⟩ := h.covered r hr
          rw [hinit] at hm
          rcases List.mem_append.mp hm with hm | hm
          · exact ⟨m, by rw [hdrop]; exact List.mem_append_left _ hm, hc⟩
          · rw [List.mem_singleton.mp hm] at hc
            exact ⟨merge last range, by simp, (merge_covers_left last range).trans hc⟩
        · rw [List.mem_singleton.mp hr]
          exact ⟨merge last range, by simp, merge_covers_right last range⟩
      · intro m hm
        rw [hdrop] at hm
        rcases List.mem_append.mp hm with hm | hm
        · obtain ⟨S, hS, hh⟩ := h.hull m (by rw [hinit]; exact List.mem_append_left _ hm)
          exact ⟨S, fun x hx => List.mem_append_left _ (hS hx), hh⟩
        · rw [List.mem_singleton.mp hm]
          obtain ⟨S, hS, hh⟩ := h.hull last (by rw [hinit]; simp)
          refine ⟨S ++ [range], ?_, hh.merge⟩
          intro x hx
          rcases List.mem_append.mp hx with hx | hx
          · exact List.mem_append_left _ (hS hx)
          · exact List.mem_append_right _ hx
    · exact push
  · exact push

theorem MergedInv.foldl {done : List (Range UInt64)} {rs : RangeMerger} (h : MergedInv done rs) (rest : List (Range UInt64)) :
    MergedInv (done ++ rest) (rest.foldl RangeMerger.add rs) := by
  induction rest generalizing done rs with
  | nil => simpa using h
  | cons r rest ih =>
      have := ih (h.add r)
      rwa [List.append_assoc, List.singleton_append] at this

theorem from_iter_inv (iter : List (Range UInt64)) (gap size : UInt64) :
    MergedInv (iter.mergeSort fun a b => decide (a.start ≤ b.start)) (RangeMerger.from_iter iter gap size) := by
  have h := (MergedInv.init gap size).foldl (iter.mergeSort fun a b => decide (a.start ≤ b.start))
  rw [List.nil_append] at h
  exact h

end Run

section Get

theorem get_of_covered {rs : RangeMerger} {check : Range UInt64} (h : ∃ m ∈ rs.ranges, m.Covers check) :
    ∃ i m, rs.get check = some (i, m) ∧ rs.ranges[i]? = some m ∧ m.Covers check := by
  obtain ⟨m, hm, hc⟩ := h
  obtain ⟨i, hi⟩ := List.getElem?_of_mem hm
  have hsome : (rs.ranges.zipIdx.find? fun p => decide (p.1.Covers check)).isSome := by
    rw [List.find?_isSome]
    exact ⟨(m, i), List.mem_zipIdx_iff_getElem?.mpr hi, by simpa using hc⟩
  obtain ⟨p, hp⟩ := Option.isSome_iff_exists.mp hsome
  have hpc : p.1.Covers check := by simpa using List.find?_some hp
  have hpm : rs.ranges[p.2]? = some p.1 := List.mem_zipIdx_iff_getElem?.mp (List.mem_of_find?_eq_some hp)
  exact ⟨p.2, p.1, by simp [RangeMerger.get, hp], hpm, hpc⟩

end Get

theorem range_merger_covers (iter : List (Range UInt64)) (max_gap_size max_range_size : UInt64) :
    let rs := RangeMerger.from_iter iter max_gap_size max_range_size
    (∀ r ∈ iter, ∃ i m, rs.get r = some (i, m) ∧ rs.ranges[i]? = some m ∧ m.Covers r) ∧
      ∀ m ∈ rs.ranges, ∃ S, S ⊆ iter ∧ IsHull m S := by
  intro rs
  have hinv := from_iter_inv iter max_gap_size max_range_size
  have hperm := List.mergeSort_perm iter fun a b => decide (a.start ≤ b.start)
  constructor
  · intro r hr
    exact get_of_covered (hinv.covered r (hperm.mem_iff.mpr hr))
  · intro m hm
    obtain ⟨S, hS, hh⟩ := hinv.hull m hm
    exact ⟨S, fun x hx => hperm.mem_iff.mp (hS hx), hh⟩

section MergeIO

-- the error `merge_io_read` raises when a column's range is in no merged range ("It's a terrible
-- bug, not found raw range ...")
inductive MergeIOError where
  | Internal (column_range : Range UInt64)
  deriving DecidableEq, Repr

def column_chunk (rs : RangeMerger) (column_range : Range UInt64) : Except MergeIOError (Nat × Range UInt64) :=
  match rs.get column_range with
  | some (merged_range_idx, merged_range) =>
      .ok (merged_range_idx,
        ⟨column_range.start - merged_range.start, column_range.«end» - merged_range.start⟩)
  | none => .error (.Internal column_range)

theorem merge_io_column_chunk (iter : List (Range UInt64)) (max_gap_size max_range_size : UInt64) {r : Range UInt64}
    (hr : r ∈ iter) (hle : r.start ≤ r.«end») :
    let rs := RangeMerger.from_iter iter max_gap_size max_range_size
    ∃ i m slice, column_chunk rs r = .ok (i, slice) ∧ rs.ranges[i]? = some m ∧
      m.start.toNat + slice.start.toNat = r.start.toNat ∧
      m.start.toNat + slice.«end».toNat = r.«end».toNat ∧
      slice.start ≤ slice.«end» ∧ slice.«end».toNat ≤ (m.«end» - m.start).toNat := by
  dsimp only
  have hperm := List.mergeSort_perm iter fun a b => decide (a.start ≤ b.start)
  obtain ⟨i, m, hget, hi, hc⟩ :=
    get_of_covered ((from_iter_inv iter max_gap_size max_range_size).covered r (hperm.mem_iff.mpr hr))
  -- all four offsets are differences without wrap-around
  have h1 : m.start.toNat ≤ r.start.toNat := UInt64.le_iff_toNat_le.mp hc.1
  have h2 : r.«end».toNat ≤ m.«end».toNat := UInt64.le_iff_toNat_le.mp hc.2
  have h3 : r.start.toNat ≤ r.«end».toNat := UInt64.le_iff_toNat_le.mp hle
  have hs := UInt64.toNat_sub_of_le r.start m.start hc.1
  have he := UInt64.toNat_sub_of_le r.«end» m.start (UInt64.le_trans hc.1 hle)
  have hm := UInt64.toNat_sub_of_le m.«end» m.start (UInt64.le_trans hc.1 (UInt64.le_trans hle hc.2))
  refine ⟨i, m, ⟨r.start - m.start, r.«end» - m.start⟩, by rw [column_chunk, hget], hi, ?_, ?_, ?_, ?_⟩
  · dsimp only
    omega
  · dsimp only
    omega
  · rw [UInt64.le_iff_toNat_le, hs, he]
    omega
  · dsimp only
    omega

theorem merge_io_column_chunk_adjacent :
    let rs := RangeMerger.from_iter [⟨10, 20⟩, ⟨0, 8⟩] 4 100
    ∃ i m slice, column_chunk rs ⟨10, 20⟩ = .ok (i, slice) ∧ rs.ranges[i]? = some m ∧
      m.start.toNat + slice.start.toNat = (10 : UInt64).toNat ∧
      m.start.toNat + slice.«end».toNat = (20 : UInt64).toNat ∧
      slice.start ≤ slice.«end» ∧ slice.«end».toNat ≤ (m.«end» - m.start).toNat :=
  merge_io_column_chunk [⟨10, 20⟩, ⟨0, 8⟩] 4 100 (by simp) (by decide)

end MergeIO

end Databend.Rangemap
