import Mathlib
import Databend.Library.IndexList

namespace Databend.Aggregate

structure AggregateFunction (σ α β : Type) where
  name : String
  init_state : σ
  accumulate : σ → List α → σ
  accumulate_row : σ → α → σ
  merge_states : σ → σ → σ
  merge_result : σ → σ × β

section Functions

variable {α : Type}

def AggregateSumFunction (T : Type) [Add T] [Zero T] : AggregateFunction T T T where
  name := "AggregateSumFunction"
  init_state := 0
  -- `sum_primitive` over the column, then `value += value`
  accumulate s rows := s + rows.sum
  accumulate_row s x := s + x
  merge_states s t := s + t
  merge_result s := (s, s)

def AggregateCountFunction (α : Type) : AggregateFunction Nat α Nat where
  name := "AggregateCountFunction"
  init_state := 0
  accumulate s rows := s + rows.length
  accumulate_row s _ := s + 1
  merge_states s t := s + t
  merge_result s := (s, s)

-- a hash set's iteration order is left open by the source; the model lists the newest row first
structure DistinctState (α : Type) where
  items : List α
  nodup : items.Nodup

namespace DistinctState

variable [DecidableEq α]

def new : DistinctState α := ⟨[], List.nodup_nil⟩

def len (s : DistinctState α) : Nat := s.items.length

def is_empty (s : DistinctState α) : Bool := s.items.isEmpty

-- `set_insert`: a row already in the set is not inserted again
def add (s : DistinctState α) (x : α) : DistinctState α :=
  if h : x ∈ s.items then s else ⟨x :: s.items, List.nodup_cons.mpr ⟨h, s.nodup⟩⟩

def batch_add (s : DistinctState α) (rows : List α) : DistinctState α := rows.foldl add s

def merge (s rhs : DistinctState α) : DistinctState α := s.batch_add rhs.items

def build_columns (s : DistinctState α) : List α := s.items

end DistinctState

-- `push_u64` is the `UInt64` push of the count path; the source reaches `unreachable!()` for a
-- count whose builder is not `UInt64`, which never happens
def AggregateDistinctCombinator [DecidableEq α] {σ β : Type} (nested_name : String)
    (nested : AggregateFunction σ α β) (push_u64 : Nat → β) :
    AggregateFunction (DistinctState α × σ) α β where
  name := "DistinctCombinator(" ++ nested_name ++ ")"
  init_state := (DistinctState.new, nested.init_state)
  accumulate p rows := (p.1.batch_add rows, p.2)
  accumulate_row p x := (p.1.add x, p.2)
  merge_states p q := (p.1.merge q.1, p.2)
  merge_result p :=
    -- faster path for count
    if nested.name = "AggregateCountFunction" then (p, push_u64 p.1.len)
    else if p.1.is_empty then
      let r := nested.merge_result p.2
      ((p.1, r.1), r.2)
    else
      -- the set is accumulated into the nested state as it stands, with no reset first
      let r := nested.merge_result (nested.accumulate p.2 p.1.build_columns)
      ((p.1, r.1), r.2)

def sum_distinct (T : Type) [Add T] [Zero T] [DecidableEq T] : AggregateFunction (DistinctState T × T) T T :=
  AggregateDistinctCombinator "sum" (AggregateSumFunction T) (fun _ => 0)

def count_distinct (α : Type) [DecidableEq α] : AggregateFunction (DistinctState α × Nat) α Nat :=
  AggregateDistinctCombinator "count" (AggregateCountFunction α) id

end Functions

section Window

variable {σ α β : Type}

structure WindowAggState (σ : Type) where
  place : σ
  prev_frame_start : Nat
  prev_frame_end : Nat

-- `apply_aggregate`, with `frame_end` exclusive: when the frame start has not moved only the rows
-- past the previous frame end are added, else the function is reset and the whole frame added
def apply_aggregate (agg : AggregateFunction σ α β) (rows : List α) (w : WindowAggState σ)
    (frame_start frame_end : Nat) : σ :=
  let (rows_start, rows_end, reset) :=
    if frame_start = w.prev_frame_start then (w.prev_frame_end, frame_end, false)
    else (frame_start, frame_end, true)
  let place := if reset then agg.init_state else w.place
  ((rows.take rows_end).drop rows_start).foldl agg.accumulate_row place

def window_rows (agg : AggregateFunction σ α β) (rows : List α) :
    WindowAggState σ → List (Nat × Nat) → List β
  | _, [] => []
  | w, (frame_start, frame_end) :: frames =>
      let r := agg.merge_result (apply_aggregate agg rows w frame_start frame_end)
      r.2 :: window_rows agg rows ⟨r.1, frame_start, frame_end⟩ frames

def window_partition (agg : AggregateFunction σ α β) (rows : List α) (frames : List (Nat × Nat)) :
    List β :=
  window_rows agg rows ⟨agg.init_state, 0, 0⟩ frames

def running_frames (n : Nat) : List (Nat × Nat) := (List.range n).map (fun i => (0, i + 1))

def running_results (agg : AggregateFunction σ α β) : σ → List α → List β
  | _, [] => []
  | p, x :: xs =>
      let r := agg.merge_result (agg.accumulate_row p x)
      r.2 :: running_results agg r.1 xs

end Window

section Distinct

variable {α : Type} [DecidableEq α]

namespace DistinctState

theorem mem_add (s : DistinctState α) (x y : α) : y ∈ (s.add x).items ↔ y = x ∨ y ∈ s.items := by
  unfold add
  split_ifs with h
  · constructor
    · exact Or.inr
    · rintro (rfl | hy)
      · exact h
      · exact hy
  · exact List.mem_cons

theorem mem_batch_add (s : DistinctState α) (rows : List α) (y : α) :
    y ∈ (s.batch_add rows).items ↔ y ∈ s.items ∨ y ∈ rows := by
  induction rows generalizing s with
  | nil => simp [batch_add]
  | cons x rows ih =>
      have h := ih (s.add x)
      simp only [batch_add, List.foldl_cons] at h ⊢
      rw [h, mem_add, List.mem_cons]
      tauto

theorem perm_batch_add_new (rows : List α) : (new.batch_add rows).items.Perm rows.dedup := by
  rw [List.perm_ext_iff_of_nodup (new.batch_add rows).nodup (List.nodup_dedup rows)]
  intro y
  rw [mem_batch_add, List.mem_dedup]
  simp [new]

theorem is_empty_add (s : DistinctState α) (x : α) : (s.add x).is_empty = false := by
  have hx : x ∈ (s.add x).items := (mem_add s x x).mpr (Or.inl rfl)
  unfold is_empty
  cases h : (s.add x).items with
  | nil => simp [h] at hx
  | cons _ _ => rfl

end DistinctState

end Distinct

section Running

variable {σ α β : Type}

theorem window_rows_running_frames (agg : AggregateFunction σ α β) (rows : List α) (p : σ) (i : Nat) :
    window_rows agg rows ⟨p, 0, i⟩ ((List.range' i (rows.length - i)).map (fun j => (0, j + 1))) =
      running_results agg p (rows.drop i) := by
  -- induction on the number of rows left, the frame start staying at the partition start
  induction hk : rows.length - i generalizing i p with
  | zero =>
      have hdrop : rows.drop i = [] := List.drop_eq_nil_of_le (by omega)
      simp [window_rows, running_results, hdrop]
  | succ k ih =>
      have hi : i < rows.length := by omega
      have hslice : (rows.take (i + 1)).drop i = [rows[i]] := by
        rw [List.drop_take, Nat.add_sub_cancel_left, List.take_one, List.head?_drop, List.getElem?_eq_getElem hi]
        rfl
      rw [List.range'_succ, List.map_cons, List.drop_eq_getElem_cons hi]
      simp only [window_rows, running_results, apply_aggregate, Bool.false_eq_true, ↓reduceIte, hslice,
        List.foldl_cons, List.foldl_nil]
      rw [ih _ (i + 1) (by omega)]

theorem window_partition_running_frames (agg : AggregateFunction σ α β) (rows : List α) :
    window_partition agg rows (running_frames rows.length) = running_results agg agg.init_state rows := by
  have h := window_rows_running_frames agg rows agg.init_state 0
  rw [Nat.sub_zero, List.drop_zero] at h
  rw [window_partition, running_frames, List.range_eq_range', ← h]

theorem foldl_accumulate_row_distinct [DecidableEq α] (nested_name : String) (nested : AggregateFunction σ α β)
    (push_u64 : Nat → β) (p : DistinctState α × σ) (rows : List α) :
    rows.foldl (AggregateDistinctCombinator nested_name nested push_u64).accumulate_row p =
      (p.1.batch_add rows, p.2) := by
  induction rows generalizing p with
  | nil => rfl
  | cons x rows ih => exact ih (p.1.add x, p.2)

theorem count_distinct_merge_result [DecidableEq α] (p : DistinctState α × Nat) :
    (count_distinct α).merge_result p = (p, p.1.len) := by
  have hcount : (AggregateCountFunction α).name = "AggregateCountFunction" := rfl
  unfold count_distinct AggregateDistinctCombinator
  dsimp only
  rw [if_pos hcount]
  rfl

theorem sum_distinct_merge_result_add {T : Type} [AddCommMonoid T] [DecidableEq T] (d : DistinctState T)
    (acc x : T) :
    (sum_distinct T).merge_result ((sum_distinct T).accumulate_row (d, acc) x) =
      ((d.add x, acc + (d.add x).items.sum), acc + (d.add x).items.sum) := by
  have hsum : (AggregateSumFunction T).name ≠ "AggregateCountFunction" := by
    simp only [AggregateSumFunction]
    decide
  unfold sum_distinct AggregateDistinctCombinator
  dsimp only
  rw [if_neg hsum, DistinctState.is_empty_add, if_neg Bool.false_ne_true]
  rfl

theorem running_results_sum_distinct {T : Type} [AddCommMonoid T] [DecidableEq T] (d : DistinctState T)
    (acc : T) (rows : List T) :
    running_results (sum_distinct T) (d, acc) rows =
      (List.range rows.length).map
        (fun i => acc + ((List.range (i + 1)).map (fun j => (d.batch_add (rows.take (j + 1))).items.sum)).sum) := by
  -- induction on the rows, the nested sum carrying the values pushed so far
  induction rows generalizing d acc with
  | nil => rfl
  | cons x rows ih =>
      rw [running_results, sum_distinct_merge_result_add, ih, List.length_cons, List.range_succ_eq_map,
        List.map_cons, List.map_map]
      congr 1
      · simp [DistinctState.batch_add]
      · refine List.map_congr_left (fun i _ => ?_)
        have hsplit : (List.range (i + 1 + 1)).map (fun j => (d.batch_add ((x :: rows).take (j + 1))).items.sum) =
            (d.add x).items.sum :: (List.range (i + 1)).map (fun j => ((d.add x).batch_add (rows.take (j + 1))).items.sum) := by
          rw [List.range_succ_eq_map, List.map_cons, List.map_map]
          rfl
        simp only [Function.comp_apply, Nat.succ_eq_add_one]
        rw [hsplit, List.sum_cons, add_assoc]

theorem window_sum_distinct_running {T : Type} [AddCommMonoid T] [DecidableEq T] (rows : List T) :
    window_partition (sum_distinct T) rows (running_frames rows.length) =
      (List.range rows.length).map
        (fun i => ((List.range (i + 1)).map (fun j => (rows.take (j + 1)).dedup.sum)).sum) := by
  rw [window_partition_running_frames]
  have h := running_results_sum_distinct (T := T) DistinctState.new 0 rows
  simp only [zero_add] at h
  refine h.trans (List.map_congr_left (fun i _ => ?_))
  exact congrArg List.sum (List.map_congr_left (fun j _ => (DistinctState.perm_batch_add_new _).sum_eq))

theorem window_sum_distinct_one_two :
    window_partition (sum_distinct Int) [1, 2] (running_frames 2) = [1, 4] ∧
      (List.range 2).map (fun i => (([1, 2] : List Int).take (i + 1)).dedup.sum) = [1, 3] :=
  ⟨(window_sum_distinct_running [1, 2]).trans (by decide), by decide⟩

end Running

section Frames

variable {σ α β : Type}

def FrameChain : Nat × Nat → List (Nat × Nat) → Prop
  | _, [] => True
  | prev, f :: fs => f.1 ≤ f.2 ∧ (f.1 = prev.1 → prev.2 ≤ f.2) ∧ FrameChain f fs

def frame_state (agg : AggregateFunction σ α β) (rows : List α) (f : Nat × Nat) : σ :=
  ((rows.take f.2).drop f.1).foldl agg.accumulate_row agg.init_state

theorem apply_aggregate_frame (agg : AggregateFunction σ α β) (rows : List α) (w : WindowAggState σ)
    (hw : w.place = frame_state agg rows (w.prev_frame_start, w.prev_frame_end))
    (hwle : w.prev_frame_start ≤ w.prev_frame_end) (f : Nat × Nat)
    (hgrow : f.1 = w.prev_frame_start → w.prev_frame_end ≤ f.2) :
    apply_aggregate agg rows w f.1 f.2 = frame_state agg rows f := by
  unfold apply_aggregate
  by_cases hs : f.1 = w.prev_frame_start
  · rw [if_pos hs]
    simp only [Bool.false_eq_true, ↓reduceIte]
    rw [hw, frame_state, frame_state, ← List.foldl_append, hs,
      ← List.drop_take_append hwle (hgrow hs)]
  · rw [if_neg hs]
    rfl

theorem window_rows_frames (agg : AggregateFunction σ α β) (hpure : ∀ s, (agg.merge_result s).1 = s)
    (rows : List α) (frames : List (Nat × Nat)) (w : WindowAggState σ)
    (hw : w.place = frame_state agg rows (w.prev_frame_start, w.prev_frame_end))
    (hwle : w.prev_frame_start ≤ w.prev_frame_end)
    (hframes : FrameChain (w.prev_frame_start, w.prev_frame_end) frames) :
    window_rows agg rows w frames = frames.map (fun f => (agg.merge_result (frame_state agg rows f)).2) := by
  -- induction on the frames; the state carried is the state of the previous frame
  induction frames generalizing w with
  | nil => rfl
  | cons f fs ih =>
      obtain ⟨hf, hgrow, hchain⟩ := hframes
      rw [window_rows, apply_aggregate_frame agg rows w hw hwle f hgrow, List.map_cons]
      congr 1
      exact ih ⟨_, f.1, f.2⟩ (hpure _) hf hchain

theorem window_partition_frames (agg : AggregateFunction σ α β) (hpure : ∀ s, (agg.merge_result s).1 = s)
    (rows : List α) (frames : List (Nat × Nat)) (hframes : FrameChain (0, 0) frames) :
    window_partition agg rows frames = frames.map (fun f => (agg.merge_result (frame_state agg rows f)).2) :=
  window_rows_frames agg hpure rows frames ⟨agg.init_state, 0, 0⟩ rfl (Nat.le_refl 0) hframes

theorem window_partition_frames_sliding :
    (∀ s, ((AggregateSumFunction Int).merge_result s).1 = s) ∧ FrameChain (0, 0) [(0, 1), (0, 2), (1, 3)] ∧
      window_partition (AggregateSumFunction Int) [1, 2, 3] [(0, 1), (0, 2), (1, 3)] =
        [(0, 1), (0, 2), (1, 3)].map (fun f => ((AggregateSumFunction Int).merge_result
          (frame_state (AggregateSumFunction Int) [1, 2, 3] f)).2) :=
  ⟨fun _ => rfl, by simp [FrameChain],
    window_partition_frames _ (fun _ => rfl) _ _ (by simp [FrameChain])⟩

theorem window_count_distinct_frames [DecidableEq α] (rows : List α) (frames : List (Nat × Nat))
    (hframes : FrameChain (0, 0) frames) :
    window_partition (count_distinct α) rows frames =
      frames.map (fun f => ((rows.take f.2).drop f.1).dedup.length) := by
  rw [window_partition_frames _ (fun p => by rw [count_distinct_merge_result]) rows frames hframes]
  refine List.map_congr_left (fun f _ => ?_)
  rw [count_distinct_merge_result, frame_state, count_distinct, foldl_accumulate_row_distinct]
  exact (DistinctState.perm_batch_add_new _).length_eq

theorem window_count_distinct_frames_sliding :
    FrameChain (0, 0) [(0, 2), (1, 3)] ∧
      window_partition (count_distinct Nat) [1, 2, 1] [(0, 2), (1, 3)] = [2, 2] :=
  ⟨by simp [FrameChain], (window_count_distinct_frames [1, 2, 1] _ (by simp [FrameChain])).trans (by decide)⟩

end Frames

end Databend.Aggregate
