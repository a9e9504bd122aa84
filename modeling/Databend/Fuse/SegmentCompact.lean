import Mathlib

namespace Databend.Fuse

variable {α B S L : Type}

def chunks (n : Nat) (l : List α) : List (List α) :=
  go l []
where
  -- `cur` is the piece being filled, reversed
  go : List α → List α → List (List α)
    | [], [] => []
    | [], cur => [cur.reverse]
    | x :: xs, cur => if cur.length + 1 = n then (x :: cur).reverse :: go xs [] else go xs (x :: cur)

theorem flatten_chunks_go (n : Nat) (l cur : List α) : (chunks.go n l cur).flatten = cur.reverse ++ l := by
  induction l generalizing cur with
  | nil => cases cur <;> simp [chunks.go]
  | cons x xs ih =>
      unfold chunks.go
      split_ifs
      · simp [ih]
      · simp [ih]

theorem flatten_chunks (n : Nat) (l : List α) : (chunks n l).flatten = l := by
  simp [chunks, flatten_chunks_go]

structure SegmentInfo (B S : Type) where
  blocks : List B
  summary : S
  deriving DecidableEq, Repr

structure SegmentCompactionState (L : Type) where
  segments_locations : List L
  new_segment_paths : List L
  num_fragments_compacted : Nat
  deriving DecidableEq, Repr

structure SegmentIO (B S L : Type) where
  read_segment : L → SegmentInfo B S
  write_segment : SegmentInfo B S → L
  merge_statistics : S → S → S
  default_statistics : S
  cluster_cmp : Option (S → S → Ordering)

structure SegmentCompactor (B S L : Type) where
  threshold : Nat
  fragmented_segments : List (SegmentInfo B S × L)
  accumulated_num_blocks : Nat
  chunk_size : Nat
  chunk_size_pos : 0 < chunk_size
  compacted_state : SegmentCompactionState L

namespace SegmentCompactor

def new (threshold chunk_size : Nat) (h : 0 < chunk_size) : SegmentCompactor B S L :=
  ⟨threshold, [], 0, chunk_size, h, ⟨[], [], 0⟩⟩

variable (io : SegmentIO B S L)

def merged_segment (fragments : List (SegmentInfo B S × L)) : SegmentInfo B S :=
  ⟨fragments.flatMap (·.1.blocks),
    fragments.foldl (fun s f => io.merge_statistics s f.1.summary) io.default_statistics⟩

def push_location (c : SegmentCompactor B S L) (location : L) : SegmentCompactor B S L :=
  { c with compacted_state := { c.compacted_state with
      segments_locations := c.compacted_state.segments_locations ++ [location] } }

def compact_fragments (c : SegmentCompactor B S L) : SegmentCompactor B S L :=
  match c.fragmented_segments with
  | [] => c
  -- only one fragment left: keep it as it is
  | [(_, location)] => push_location { c with fragmented_segments := [], accumulated_num_blocks := 0 } location
  | f :: g :: rest =>
      let fragments := f :: g :: rest
      let st := c.compacted_state
      let location := io.write_segment (merged_segment io fragments)
      { c with
        fragmented_segments := [],
        accumulated_num_blocks := 0,
        compacted_state :=
          { segments_locations := st.segments_locations ++ [location],
            new_segment_paths := st.new_segment_paths ++ [location],
            num_fragments_compacted := st.num_fragments_compacted + fragments.length } }

def add (c : SegmentCompactor B S L) (segment_info : SegmentInfo B S) (location : L) :
    SegmentCompactor B S L :=
  let num_blocks_current_segment := segment_info.blocks.length
  if num_blocks_current_segment = 0 then c
  else
    let s := c.accumulated_num_blocks + num_blocks_current_segment
    if s < c.threshold then
      { c with
        accumulated_num_blocks := s,
        fragmented_segments := c.fragmented_segments ++ [(segment_info, location)] }
    else if s ≥ c.threshold ∧ s < 2 * c.threshold then
      compact_fragments io { c with fragmented_segments := c.fragmented_segments ++ [(segment_info, location)] }
    else
      -- no choice but to compact the fragments collected so far, and keep this segment
      push_location (compact_fragments io c) location

def num_fragments_compacted (c : SegmentCompactor B S L) : Nat :=
  c.compacted_state.num_fragments_compacted

def finalize (c : SegmentCompactor B S L) : SegmentCompactionState L :=
  (if !c.fragmented_segments.isEmpty then compact_fragments io c else c).compacted_state

def segment_infos (chunk : List L) : List (SegmentInfo B S × L) :=
  let segment_infos := chunk.map fun location => (io.read_segment location, location)
  match io.cluster_cmp with
  | some cmp => segment_infos.mergeSort fun a b => cmp a.1.summary b.1.summary != .gt
  | none => segment_infos

def compact_segment (limit : Nat) (acc : SegmentCompactor B S L × Bool) (seg : SegmentInfo B S × L) :
    SegmentCompactor B S L × Bool :=
  if acc.2 then (push_location acc.1 seg.2, true)
  else
    let c := add io acc.1 seg.1 seg.2
    if c.num_fragments_compacted ≥ limit then
      ((if !c.fragmented_segments.isEmpty then compact_fragments io c else c), true)
    else (c, false)

def compact_chunks (limit : Nat) :
    SegmentCompactor B S L → Nat → List (List L) → SegmentCompactor B S L × Nat
  | c, checked_end_at, [] => (c, checked_end_at)
  | c, checked_end_at, chunk :: rest =>
      let r := (segment_infos io chunk).foldl (compact_segment io limit) (c, false)
      let checked_end_at := checked_end_at + chunk.length
      if r.2 then (r.1, checked_end_at) else compact_chunks limit r.1 checked_end_at rest

def compact (c : SegmentCompactor B S L) (reverse_locations : List L) (limit : Nat) :
    SegmentCompactionState L :=
  let r := compact_chunks io limit c 0 (chunks c.chunk_size reverse_locations)
  let compaction := finalize io r.1
  -- if some compaction occurred, the segments outside of the limit are collected too
  let compaction :=
    if !compaction.new_segment_paths.isEmpty then
      { compaction with segments_locations := compaction.segments_locations ++ reverse_locations.drop r.2 }
    else compaction
  -- reverse the segments back
  { compaction with segments_locations := compaction.segments_locations.reverse }

end SegmentCompactor

section Groups

variable (io : SegmentIO B S L)

def nonempty_segment (s : SegmentInfo B S × L) : Bool := !s.1.blocks.isEmpty

def group_location : List (SegmentInfo B S × L) → L
  | [f] => f.2
  | fragments => io.write_segment (SegmentCompactor.merged_segment io fragments)

def of_groups (groups : List (List (SegmentInfo B S × L))) (kept : List (SegmentInfo B S × L)) :
    SegmentCompactionState L :=
  ⟨groups.map (group_location io) ++ kept.map Prod.snd,
    (groups.filter fun g => 2 ≤ g.length).map (group_location io),
    ((groups.filter fun g => 2 ≤ g.length).map List.length).sum⟩

def record (st : SegmentCompactionState L) (g : List (SegmentInfo B S × L)) : SegmentCompactionState L :=
  if 2 ≤ g.length then
    ⟨st.segments_locations ++ [group_location io g], st.new_segment_paths ++ [group_location io g],
      st.num_fragments_compacted + g.length⟩
  else { st with segments_locations := st.segments_locations ++ [group_location io g] }

def GoodGroup (threshold : Nat) (g : List (SegmentInfo B S × L)) : Prop :=
  g ≠ [] ∧ (2 ≤ g.length → (g.map fun s => s.1.blocks.length).sum < 2 * threshold)

@[simp]
theorem group_location_singleton (f : SegmentInfo B S × L) : group_location io [f] = f.2 := rfl

theorem group_location_of_two_le {g : List (SegmentInfo B S × L)} (hg : 2 ≤ g.length) :
    group_location io g = io.write_segment (SegmentCompactor.merged_segment io g) := by
  match g, hg with
  | _ :: _ :: _, _ => rfl

theorem record_of_groups (groups : List (List (SegmentInfo B S × L))) (g : List (SegmentInfo B S × L)) :
    record io (of_groups io groups []) g = of_groups io (groups ++ [g]) [] := by
  by_cases hg : 2 ≤ g.length
  · simp [record, of_groups, hg]
  · simp [record, of_groups, hg]

theorem push_of_groups (groups : List (List (SegmentInfo B S × L))) (kept : List (SegmentInfo B S × L))
    (s : SegmentInfo B S × L) :
    { of_groups io groups kept with
      segments_locations := (of_groups io groups kept).segments_locations ++ [s.2] } =
      of_groups io groups (kept ++ [s]) := by
  simp [of_groups]

def blocks_at (locations : List L) : List B := locations.flatMap fun l => (io.read_segment l).blocks

theorem blocks_group_location (hstore : ∀ s, io.read_segment (io.write_segment s) = s)
    {g : List (SegmentInfo B S × L)} (hg : ∀ s ∈ g, io.read_segment s.2 = s.1) :
    (io.read_segment (group_location io g)).blocks = g.flatMap (·.1.blocks) := by
  match g, hg with
  | [], _ => simp [group_location, hstore, SegmentCompactor.merged_segment]
  | [f], hg => simp [hg f (by simp)]
  | f :: g :: rest, _ =>
      rw [group_location_of_two_le io (by simp), hstore]
      rfl

theorem flatMap_blocks_filter (l : List (SegmentInfo B S × L)) :
    (l.filter nonempty_segment).flatMap (·.1.blocks) = l.flatMap (·.1.blocks) := by
  induction l with
  | nil => rfl
  | cons s l ih =>
      by_cases hs : nonempty_segment s
      · simp [hs, ih]
      · have hb : s.1.blocks = [] := by simpa [nonempty_segment] using hs
        simp [hs, ih, hb]

end Groups

namespace SegmentCompactor

variable (io : SegmentIO B S L)

theorem compact_fragments_eq {c : SegmentCompactor B S L} {fs : List (SegmentInfo B S × L)}
    (hfs : c.fragmented_segments = fs) (hne : fs ≠ []) :
    compact_fragments io c =
      { c with
        fragmented_segments := [],
        accumulated_num_blocks := 0,
        compacted_state := record io c.compacted_state fs } := by
  rcases fs with _ | ⟨f, _ | ⟨g, rest⟩⟩
  · exact absurd rfl hne
  · simp [compact_fragments, hfs, push_location, record]
  · simp [compact_fragments, hfs, record, group_location_of_two_le]

theorem compact_fragments_of_nil {c : SegmentCompactor B S L} (hfs : c.fragmented_segments = []) :
    compact_fragments io c = c := by
  simp [compact_fragments, hfs]

theorem push_location_eq_record (c : SegmentCompactor B S L) (s : SegmentInfo B S × L) :
    (push_location c s.2).compacted_state = record io c.compacted_state [s] := by
  simp [push_location, record]

def CompactInv (threshold : Nat) (c : SegmentCompactor B S L) (done kept : List (SegmentInfo B S × L)) :
    Prop :=
  c.threshold = threshold ∧
  ∃ groups : List (List (SegmentInfo B S × L)),
    groups.flatten ++ c.fragmented_segments = done.filter nonempty_segment ∧
    (∀ g ∈ groups, GoodGroup threshold g) ∧
    c.compacted_state = of_groups io groups kept ∧
    c.accumulated_num_blocks = (c.fragmented_segments.map fun s => s.1.blocks.length).sum ∧
    (c.fragmented_segments ≠ [] → c.accumulated_num_blocks < threshold)

theorem CompactInv.new (threshold chunk_size : Nat) (h : 0 < chunk_size) :
    CompactInv io threshold (new threshold chunk_size h) [] [] :=
  ⟨rfl, [], rfl, by simp, rfl, rfl, fun h => absurd rfl h⟩

theorem compact_fragments_inv {t : Nat} {c : SegmentCompactor B S L} {done : List (SegmentInfo B S × L)}
    (h : CompactInv io t c done []) :
    CompactInv io t (compact_fragments io c) done [] ∧ (compact_fragments io c).fragmented_segments = [] := by
  obtain ⟨ht, groups, hflat, hgood, hst, hacc, hlt⟩ := h
  by_cases hfs : c.fragmented_segments = []
  · rw [compact_fragments_of_nil io hfs]
    exact ⟨⟨ht, groups, hflat, hgood, hst, hacc, hlt⟩, hfs⟩
  rw [compact_fragments_eq io rfl hfs]
  refine ⟨⟨ht, groups ++ [c.fragmented_segments], ?_, ?_, ?_, rfl, by simp⟩, rfl⟩
  · simpa using hflat
  · -- the fragments hold fewer than `threshold` blocks
    intro g hg
    rcases List.mem_append.mp hg with hg | hg
    · exact hgood g hg
    · rw [List.mem_singleton.mp hg]
      exact ⟨hfs, fun _ => by have := hlt hfs; omega⟩
  · simp [hst, record_of_groups]

theorem push_kept_inv {t : Nat} {c : SegmentCompactor B S L} {done kept : List (SegmentInfo B S × L)}
    (h : CompactInv io t c done kept) (s : SegmentInfo B S × L) :
    CompactInv io t (push_location c s.2) done (kept ++ [s]) := by
  obtain ⟨ht, groups, hflat, hgood, hst, hacc, hlt⟩ := h
  refine ⟨ht, groups, hflat, hgood, ?_, hacc, hlt⟩
  simp only [SegmentCompactor.push_location, hst]
  exact push_of_groups io groups kept s

theorem push_group_inv {t : Nat} {c : SegmentCompactor B S L} {done : List (SegmentInfo B S × L)}
    (h : CompactInv io t c done []) (hfs : c.fragmented_segments = []) {s : SegmentInfo B S × L}
    (hs : nonempty_segment s = true) :
    CompactInv io t (SegmentCompactor.push_location c s.2) (done ++ [s]) [] := by
  obtain ⟨ht, groups, hflat, hgood, hst, hacc, hlt⟩ := h
  refine ⟨ht, groups ++ [[s]], ?_, ?_, ?_, hacc, hlt⟩
  · simp only [SegmentCompactor.push_location, hfs, List.append_nil] at hflat ⊢
    simp [List.filter_append, hs, hflat]
  · intro g hg
    rcases List.mem_append.mp hg with hg | hg
    · exact hgood g hg
    · rw [List.mem_singleton.mp hg]
      exact ⟨by simp, fun h2 => by simp at h2⟩
  · rw [push_location_eq_record, hst, record_of_groups]

theorem add_inv {t : Nat} {c : SegmentCompactor B S L} {done : List (SegmentInfo B S × L)}
    (h : CompactInv io t c done []) (seg : SegmentInfo B S × L) :
    CompactInv io t (add io c seg.1 seg.2) (done ++ [seg]) [] := by
  have hc := h
  obtain ⟨ht, groups, hflat, hgood, hst, hacc, hlt⟩ := h
  unfold SegmentCompactor.add
  dsimp only
  split_ifs with h0 h1 h2
  · -- an empty segment is skipped
    have hseg : nonempty_segment seg = false := by simpa [nonempty_segment] using h0
    exact ⟨ht, groups, by simpa [List.filter_append, hseg] using hflat, hgood, hst, hacc, hlt⟩
  all_goals have hseg : nonempty_segment seg = true := by simpa [nonempty_segment] using h0
  · -- still fewer than `threshold` blocks: one more fragment
    refine ⟨ht, groups, ?_, hgood, hst, ?_, fun _ => ht ▸ h1⟩
    · simp [List.filter_append, hseg, ← hflat]
    · simp [hacc]
  · -- from `threshold` to below `2 * threshold`: the fragments and this segment are one run
    rw [compact_fragments_eq io rfl (by simp)]
    refine ⟨ht, groups ++ [c.fragmented_segments ++ [seg]], ?_, ?_, ?_, rfl, by simp⟩
    · simp [List.filter_append, hseg, ← hflat]
    · intro g hg
      rcases List.mem_append.mp hg with hg | hg
      · exact hgood g hg
      · rw [List.mem_singleton.mp hg]
        refine ⟨by simp, fun _ => ?_⟩
        simp only [List.map_append, List.sum_append, List.map_singleton, List.sum_singleton, ← hacc]
        omega
    · simp [hst, record_of_groups]
  · -- `2 * threshold` blocks or more: the fragments are stored, and this segment as its own run
    obtain ⟨hc', hfs'⟩ := compact_fragments_inv io hc
    exact push_group_inv io hc' hfs' hseg

def LoopInv (threshold : Nat) (acc : SegmentCompactor B S L × Bool) (done kept : List (SegmentInfo B S × L)) :
    Prop :=
  CompactInv io threshold acc.1 done kept ∧ (acc.2 = false → kept = []) ∧
    (acc.2 = true → acc.1.fragmented_segments = [])

theorem compact_segment_inv {t : Nat} (limit : Nat) {acc : SegmentCompactor B S L × Bool}
    {done kept : List (SegmentInfo B S × L)} (h : LoopInv io t acc done kept) (seg : SegmentInfo B S × L) :
    ∃ done' kept', done' ++ kept' = done ++ kept ++ [seg] ∧
      LoopInv io t (compact_segment io limit acc seg) done' kept' := by
  obtain ⟨hinv, hkept, hfs⟩ := h
  unfold compact_segment
  cases hend : acc.2
  · -- not yet at the end: `add`, then stop once `limit` segments are compacted
    have hadd := add_inv io (hkept hend ▸ hinv) seg
    simp only [Bool.false_eq_true, if_false]
    split_ifs with hlimit hne
    · obtain ⟨hc, hfs'⟩ := compact_fragments_inv io hadd
      exact ⟨done ++ [seg], [], by simp [hkept hend], hc, by simp, fun _ => hfs'⟩
    · have hnil : (add io acc.1 seg.1 seg.2).fragmented_segments = [] := by simpa using hne
      exact ⟨done ++ [seg], [], by simp [hkept hend], hadd, by simp, fun _ => hnil⟩
    · exact ⟨done ++ [seg], [], by simp [hkept hend], hadd, fun _ => rfl, by simp⟩
  · -- at the end: the segment is kept as it is
    simp only [if_true]
    exact ⟨done, kept ++ [seg], by simp, push_kept_inv io hinv seg, by simp, fun _ => hfs hend⟩

theorem foldl_compact_segment_inv {t : Nat} (limit : Nat) (xs : List (SegmentInfo B S × L))
    {acc : SegmentCompactor B S L × Bool} {done kept : List (SegmentInfo B S × L)}
    (h : LoopInv io t acc done kept) :
    ∃ done' kept', done' ++ kept' = done ++ kept ++ xs ∧
      LoopInv io t (xs.foldl (compact_segment io limit) acc) done' kept' := by
  induction xs generalizing acc done kept with
  | nil => exact ⟨done, kept, by simp, h⟩
  | cons seg xs ih =>
      obtain ⟨done1, kept1, h1, hinv1⟩ := compact_segment_inv io limit h seg
      obtain ⟨done2, kept2, h2, hinv2⟩ := ih hinv1
      exact ⟨done2, kept2, by rw [h2, h1]; simp, hinv2⟩

theorem compact_chunks_inv {t : Nat} (limit : Nat) (cs : List (List L)) {c : SegmentCompactor B S L}
    (checked : Nat) {done : List (SegmentInfo B S × L)} (h : CompactInv io t c done []) :
    ∃ pre post done' kept', cs = pre ++ post ∧
      (compact_chunks io limit c checked cs).2 = checked + pre.flatten.length ∧
      done' ++ kept' = done ++ pre.flatMap (segment_infos io) ∧
      CompactInv io t (compact_chunks io limit c checked cs).1 done' kept' ∧
      ((compact_chunks io limit c checked cs).1.fragmented_segments = [] ∨ (post = [] ∧ kept' = [])) := by
  induction cs generalizing c checked done with
  | nil => exact ⟨[], [], done, [], by simp, rfl, by simp, h, .inr ⟨rfl, rfl⟩⟩
  | cons chunk rest ih =>
      have h0 : LoopInv io t (c, false) done [] := ⟨h, fun _ => rfl, by simp⟩
      obtain ⟨done1, kept1, h1, hinv, hkept, hfs⟩ := foldl_compact_segment_inv io limit (segment_infos io chunk) h0
      simp only [compact_chunks]
      cases hend : ((segment_infos io chunk).foldl (compact_segment io limit) (c, false)).2
      · -- not at the end: on to the next chunk
        simp only [Bool.false_eq_true, if_false]
        obtain rfl : kept1 = [] := hkept hend
        obtain ⟨pre, post, done', kept', hcs, hchk, hdone, hinv', hfs'⟩ := ih (checked + chunk.length) hinv
        refine ⟨chunk :: pre, post, done', kept', by simp [hcs], ?_, ?_, hinv', hfs'⟩
        · rw [hchk, List.flatten_cons, List.length_append]
          omega
        · simp only [List.append_nil] at h1
          rw [hdone, List.flatMap_cons, ← List.append_assoc, h1]
      · -- at the end: the chunks after this one are left unread
        simp only [if_true]
        exact ⟨[chunk], rest, done1, kept1, rfl, by simp, by simpa using h1, hinv, .inl (hfs hend)⟩

theorem finalize_inv {t : Nat} {c : SegmentCompactor B S L} {done kept : List (SegmentInfo B S × L)}
    (h : CompactInv io t c done kept) (hk : c.fragmented_segments = [] ∨ kept = []) :
    ∃ c', finalize io c = c'.compacted_state ∧ CompactInv io t c' done kept ∧ c'.fragmented_segments = [] := by
  by_cases hfs : c.fragmented_segments = []
  · exact ⟨c, by simp [finalize, hfs], h, hfs⟩
  · obtain rfl : kept = [] := hk.resolve_left hfs
    obtain ⟨hc, hfs'⟩ := compact_fragments_inv io h
    exact ⟨compact_fragments io c, by simp [finalize, hfs], hc, hfs'⟩

theorem compact_of_new_segments (c : SegmentCompactor B S L) (reverse_locations : List L) (limit : Nat)
    (hnew : (compact io c reverse_locations limit).new_segment_paths ≠ []) :
    let r := compact_chunks io limit c 0 (chunks c.chunk_size reverse_locations)
    compact io c reverse_locations limit =
      { finalize io r.1 with
        segments_locations := ((finalize io r.1).segments_locations ++ reverse_locations.drop r.2).reverse } := by
  intro r
  unfold compact at hnew ⊢
  dsimp only at hnew ⊢
  split_ifs at hnew ⊢ with hne
  · rfl
  · simp only [Bool.not_eq_true', List.isEmpty_eq_false_iff, not_not] at hne
    simp at hnew
    exact absurd hne hnew

theorem segment_infos_perm (chunk : List L) :
    (segment_infos io chunk).Perm (chunk.map fun l => (io.read_segment l, l)) := by
  unfold segment_infos
  split
  · exact List.mergeSort_perm _ _
  · exact List.Perm.refl _

theorem segment_infos_of_none (h : io.cluster_cmp = none) (chunk : List L) :
    segment_infos io chunk = chunk.map fun l => (io.read_segment l, l) := by
  simp [segment_infos, h]

theorem compact_groups (threshold chunk_size : Nat) (h : 0 < chunk_size) (reverse_locations : List L)
    (limit : Nat) :
    let segs := reverse_locations.map fun l => (io.read_segment l, l)
    let st := compact io (new threshold chunk_size h) reverse_locations limit
    st.new_segment_paths ≠ [] →
    ∃ (groups : List (List (SegmentInfo B S × L))) (kept : List (SegmentInfo B S × L)),
      st.segments_locations.reverse = groups.map (group_location io) ++ kept.map Prod.snd ∧
      st.new_segment_paths = (groups.filter fun g => 2 ≤ g.length).map (group_location io) ∧
      st.num_fragments_compacted = ((groups.filter fun g => 2 ≤ g.length).map List.length).sum ∧
      (∀ g ∈ groups, GoodGroup threshold g ∧ ∀ s ∈ g, nonempty_segment s) ∧
      (∃ dropped : List (SegmentInfo B S × L),
        (∀ s ∈ dropped, s.1.blocks = []) ∧ (groups.flatten ++ kept ++ dropped).Perm segs) ∧
      (io.cluster_cmp = none → ∃ pre, segs = pre ++ kept ∧ groups.flatten = pre.filter nonempty_segment) := by
  intro segs st hnew
  let pair : L → SegmentInfo B S × L := fun l => (io.read_segment l, l)
  set c0 : SegmentCompactor B S L := new threshold chunk_size h
  obtain ⟨pre, post, done, kept, hcs, hchk, hdone, hinv, hfs⟩ :=
    compact_chunks_inv io limit (chunks c0.chunk_size reverse_locations) 0 (CompactInv.new io threshold chunk_size h)
  obtain ⟨c, hfin, ⟨-, groups, hflat, hgood, hst, -, -⟩, hfs'⟩ := finalize_inv io hinv (hfs.imp_right And.right)
  rw [hfs', List.append_nil] at hflat
  -- the unread segments are those of the chunks after `pre`
  have hrev : reverse_locations = pre.flatten ++ post.flatten := by
    rw [← List.flatten_append, ← hcs, flatten_chunks]
  have hdrop : reverse_locations.drop (compact_chunks io limit c0 0 (chunks c0.chunk_size reverse_locations)).2 =
      post.flatten := by
    rw [hchk, Nat.zero_add, hrev, List.drop_left]
  have hst' := compact_of_new_segments io c0 reverse_locations limit hnew
  dsimp only at hst'
  rw [hdrop, hfin, hst] at hst'
  replace hst' : st = _ := hst'
  have hsegs : segs = pre.flatten.map pair ++ post.flatten.map pair := by
    rw [← List.map_append, ← hrev]
  have hpre : (done ++ kept).Perm (pre.flatten.map pair) := by
    rw [hdone, List.nil_append]
    calc (pre.flatMap (segment_infos io)).Perm (pre.flatMap fun chunk => chunk.map pair) :=
          List.Perm.flatMap_left pre fun chunk _ => segment_infos_perm io chunk
      _ = pre.flatten.map pair := by simp [List.map_flatten, List.flatMap]
  refine ⟨groups, kept ++ post.flatten.map pair, ?_, ?_, ?_, ?_, ?_, ?_⟩
  · simp [hst', of_groups, pair, Function.comp_def]
  · simp [hst', of_groups]
  · simp [hst', of_groups]
  · intro g hg
    refine ⟨hgood g hg, fun s hs => ?_⟩
    have hs' : s ∈ done.filter nonempty_segment := hflat ▸ List.mem_flatten.mpr ⟨g, hg, hs⟩
    exact (List.mem_filter.mp hs').2
  · refine ⟨done.filter fun s => !nonempty_segment s, fun s hs => ?_, ?_⟩
    · simpa [nonempty_segment] using (List.mem_filter.mp hs).2
    · -- the empty segments `add` skipped are put back
      rw [hflat, hsegs]
      calc (done.filter nonempty_segment ++ (kept ++ post.flatten.map pair) ++
              done.filter fun s => !nonempty_segment s).Perm
            (done.filter nonempty_segment ++ (done.filter fun s => !nonempty_segment s) ++
              (kept ++ post.flatten.map pair)) := by
            have hx := (@List.perm_append_comm _ (kept ++ post.flatten.map pair)
              (done.filter fun s => !nonempty_segment s)).append_left (done.filter nonempty_segment)
            simpa only [List.append_assoc] using hx
        List.Perm _ (done ++ (kept ++ post.flatten.map pair)) := (List.filter_append_perm _ _).append_right _
        _ = (done ++ kept) ++ post.flatten.map pair := (List.append_assoc _ _ _).symm
        List.Perm _ (pre.flatten.map pair ++ post.flatten.map pair) := hpre.append_right _
  · -- without a cluster key the chunks are read in order
    intro hnone
    have hdone' : done ++ kept = pre.flatten.map pair := by
      rw [hdone, List.nil_append, funext (segment_infos_of_none io hnone)]
      simp [List.map_flatten, List.flatMap, pair]
    refine ⟨done, ?_, hflat⟩
    rw [hsegs, ← hdone', List.append_assoc]

def in_memory : SegmentIO Nat Unit (SegmentInfo Nat Unit) := ⟨id, id, fun _ _ => (), (), none⟩

theorem compact_keeps_blocks (hstore : ∀ s, io.read_segment (io.write_segment s) = s)
    (threshold chunk_size : Nat) (h : 0 < chunk_size) (reverse_locations : List L) (limit : Nat)
    (hnew : (compact io (new threshold chunk_size h) reverse_locations limit).new_segment_paths ≠ []) :
    (blocks_at io (compact io (new threshold chunk_size h) reverse_locations limit).segments_locations).Perm
        (blocks_at io reverse_locations) ∧
      (io.cluster_cmp = none →
        blocks_at io (compact io (new threshold chunk_size h) reverse_locations limit).segments_locations.reverse =
          blocks_at io reverse_locations) ∧
      ∃ merged : List (List (SegmentInfo B S × L)),
        (compact io (new threshold chunk_size h) reverse_locations limit).new_segment_paths =
          merged.map (fun g => io.write_segment (merged_segment io g)) ∧
        (compact io (new threshold chunk_size h) reverse_locations limit).num_fragments_compacted =
          (merged.map List.length).sum ∧
        merged.flatten.Subperm (reverse_locations.map fun l => (io.read_segment l, l)) ∧
        (∀ g ∈ merged, 2 ≤ g.length ∧ (g.map fun s => s.1.blocks.length).sum < 2 * threshold ∧
          ∀ s ∈ g, s.1.blocks ≠ []) ∧
        (io.cluster_cmp = none → ∀ g ∈ merged,
          List.IsInfix g ((reverse_locations.map fun l => (io.read_segment l, l)).filter nonempty_segment)) := by
  set segs := reverse_locations.map fun l => (io.read_segment l, l)
  set st := compact io (new threshold chunk_size h) reverse_locations limit
  obtain ⟨groups, kept, hlocs, hnewp, hnum, hgood, ⟨dropped, hdropped, hperm⟩, hnone⟩ :=
    compact_groups io threshold chunk_size h reverse_locations limit hnew
  -- every segment of the runs and of the kept ones was read at its location
  have hread : ∀ s ∈ groups.flatten ++ kept, io.read_segment s.2 = s.1 := by
    intro s hs
    obtain ⟨l, -, rfl⟩ := List.mem_map.mp (hperm.subset (List.mem_append_left _ hs))
    rfl
  have hblocks : blocks_at io st.segments_locations.reverse = (groups.flatten ++ kept).flatMap (·.1.blocks) := by
    rw [hlocs, blocks_at, List.flatMap_append, List.flatMap_map, List.flatMap_map, List.flatMap_append]
    congr 1
    · rw [List.flatMap_congr fun g hg => blocks_group_location io hstore fun s hs =>
        hread s (List.mem_append_left _ (List.mem_flatten.mpr ⟨g, hg, hs⟩))]
      simp [List.flatMap, List.map_flatten, List.flatten_flatten, Function.comp_def]
    · exact List.flatMap_congr fun s hs => by rw [hread s (List.mem_append_right _ hs)]
  have hsegs : blocks_at io reverse_locations = segs.flatMap (·.1.blocks) := by
    simp [blocks_at, segs, List.flatMap_map]
  refine ⟨?_, ?_, groups.filter fun g => 2 ≤ g.length, ?_, hnum, ?_, ?_, ?_⟩
  · -- the returned locations are the runs and the kept segments, reversed
    calc (blocks_at io st.segments_locations).Perm (blocks_at io st.segments_locations.reverse) :=
          ((List.reverse_perm _).flatMap_right _).symm
      _ = (groups.flatten ++ kept ++ dropped).flatMap (·.1.blocks) := by
          -- the dropped segments are empty
          have hd : dropped.flatMap (·.1.blocks) = [] := List.flatMap_eq_nil_iff.mpr hdropped
          rw [hblocks]
          simp only [List.flatMap_append, hd, List.append_nil]
      List.Perm _ (segs.flatMap (·.1.blocks)) := hperm.flatMap_right _
      _ = blocks_at io reverse_locations := hsegs.symm
  · intro hc
    obtain ⟨pre, hpre, hflat⟩ := hnone hc
    rw [hblocks, hflat, List.flatMap_append, flatMap_blocks_filter, ← List.flatMap_append, ← hpre, hsegs]
  · rw [hnewp]
    exact List.map_congr_left fun g hg => group_location_of_two_le io (by simpa using (List.mem_filter.mp hg).2)
  · -- the merged runs are some of the runs, each input segment at most once
    have hsub : (groups.filter fun g => 2 ≤ g.length).flatten.Sublist (groups.flatten ++ kept ++ dropped) :=
      List.filter_sublist.flatten.trans ((List.sublist_append_left _ _).trans (List.sublist_append_left _ _))
    exact hsub.subperm.trans hperm.subperm
  · intro g hg
    obtain ⟨hg, h2⟩ := List.mem_filter.mp hg
    obtain ⟨⟨-, hsum⟩, hne⟩ := hgood g hg
    have h2' : 2 ≤ g.length := by simpa using h2
    refine ⟨h2', hsum h2', fun s hs => ?_⟩
    simpa [nonempty_segment] using hne s hs
  · intro hc g hg
    obtain ⟨pre, hpre, hflat⟩ := hnone hc
    have hprefix : List.IsPrefix (pre.filter nonempty_segment) ((pre ++ kept).filter nonempty_segment) := by
      rw [List.filter_append]
      exact List.prefix_append _ _
    show List.IsInfix g ((reverse_locations.map fun l => (io.read_segment l, l)).filter nonempty_segment)
    rw [hpre]
    exact (List.infix_of_mem_flatten (List.mem_filter.mp hg).1).trans (hflat ▸ hprefix.isInfix)

theorem compact_keeps_blocks_three_segments :
    (compact in_memory (new 2 4 (by decide)) [⟨[1], ()⟩, ⟨[2], ()⟩, ⟨[3, 4, 5, 6, 7], ()⟩] 10).new_segment_paths ≠ [] ∧
      (blocks_at in_memory (compact in_memory (new 2 4 (by decide))
        [⟨[1], ()⟩, ⟨[2], ()⟩, ⟨[3, 4, 5, 6, 7], ()⟩] 10).segments_locations).Perm
        (blocks_at in_memory [⟨[1], ()⟩, ⟨[2], ()⟩, ⟨[3, 4, 5, 6, 7], ()⟩]) :=
  have hnew : (compact in_memory (new 2 4 (by decide))
      [⟨[1], ()⟩, ⟨[2], ()⟩, ⟨[3, 4, 5, 6, 7], ()⟩] 10).new_segment_paths ≠ [] := by decide
  ⟨hnew, (compact_keeps_blocks in_memory (fun _ => rfl) 2 4 (by decide)
    [⟨[1], ()⟩, ⟨[2], ()⟩, ⟨[3, 4, 5, 6, 7], ()⟩] 10 hnew).1⟩

theorem compact_reverse_reorders_blocks :
    blocks_at in_memory (compact in_memory (new 2 4 (by decide))
        [⟨[1], ()⟩, ⟨[2], ()⟩, ⟨[3, 4, 5, 6, 7], ()⟩] 10).segments_locations = [3, 4, 5, 6, 7, 1, 2] ∧
      blocks_at in_memory [⟨[1], ()⟩, ⟨[2], ()⟩, ⟨[3, 4, 5, 6, 7], ()⟩] = [1, 2, 3, 4, 5, 6, 7] := by
  constructor <;> decide

end SegmentCompactor

end Databend.Fuse
