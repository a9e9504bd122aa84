import Mathlib
import Databend.Hashtable.HashJoinHashtable
import Databend.Hashtable.HashJoinStringHashtable
import Databend.Library.LinkedPush

-- the parallel build of the hash join table in `hash_join_build_state.rs`

namespace Databend.HashJoin

open Databend.Hashtable LinkedPush

section Tasks

-- the tasks as ranges of chunk indexes; `none` where `chunks_len / worker_num` divides by zero
def generate_finalize_task (chunks_len worker_num : Nat) : Option (List (Nat × Nat)) :=
  if chunks_len = 0 then some []
  else if worker_num = 0 then none
  else
    let task_size := if chunks_len ≥ worker_num then chunks_len / worker_num else 1
    let task_num := if chunks_len ≥ worker_num then worker_num else chunks_len
    some ((List.range (task_num - 1)).map (fun idx => (idx * task_size, (idx + 1) * task_size)) ++
      [((task_num - 1) * task_size, chunks_len)])

def task_chunks (task : Nat × Nat) : List Nat := List.range' task.1 (task.2 - task.1)

theorem flatMap_task_chunks_range (task_size k : Nat) :
    ((List.range k).map fun idx => (idx * task_size, (idx + 1) * task_size)).flatMap task_chunks =
      List.range' 0 (k * task_size) := by
  induction k with
  | zero => simp
  | succ k ih =>
    rw [List.range_succ, List.map_append, List.flatMap_append, ih, List.map_singleton,
      List.flatMap_singleton, task_chunks]
    dsimp only
    rw [Nat.add_mul, Nat.one_mul, Nat.add_sub_cancel_left, ← List.range'_append_1, Nat.zero_add]

theorem generate_finalize_task_chunks {chunks_len worker_num : Nat} {tasks : List (Nat × Nat)}
    (h : generate_finalize_task chunks_len worker_num = some tasks) :
    tasks.flatMap task_chunks = List.range chunks_len := by
  unfold generate_finalize_task at h
  split at h
  · next h0 => cases h; rw [h0]; rfl
  split at h
  · cases h
  next hc hw =>
  cases h
  -- the last task starts where the others end, inside the chunks
  have hle : ((if chunks_len ≥ worker_num then worker_num else chunks_len) - 1) *
      (if chunks_len ≥ worker_num then chunks_len / worker_num else 1) ≤ chunks_len := by
    split
    · calc (worker_num - 1) * (chunks_len / worker_num) ≤ chunks_len / worker_num * worker_num := by
            rw [Nat.mul_comm]; exact Nat.mul_le_mul_left _ (Nat.sub_le _ _)
        _ ≤ chunks_len := Nat.div_mul_le_self _ _
    · omega
  rw [List.flatMap_append, flatMap_task_chunks_range, List.flatMap_singleton, task_chunks]
  dsimp only
  generalize ((if chunks_len ≥ worker_num then worker_num else chunks_len) - 1) *
      (if chunks_len ≥ worker_num then chunks_len / worker_num else 1) = start at hle ⊢
  have hsplit := @List.range'_append_1 0 start (chunks_len - start)
  rw [Nat.zero_add, Nat.add_sub_cancel' hle] at hsplit
  rw [hsplit, List.range_eq_range']

end Tasks

section Rows

variable {K : Type}

def chunk_rows (chunks : List (List K)) (chunk_index : Nat) : List (RowPtr × K) :=
  (chunks.getD chunk_index []).zipIdx.map fun x => (⟨chunk_index, x.2⟩, x.1)

def task_rows (chunks : List (List K)) (task : Nat × Nat) : List (RowPtr × K) :=
  (task_chunks task).flatMap (chunk_rows chunks)

def build_rows (chunks : List (List K)) : List (RowPtr × K) :=
  (List.range chunks.length).flatMap (chunk_rows chunks)

def key_of (chunks : List (List K)) (row_ptr : RowPtr) : Option K :=
  (chunks.getD row_ptr.chunk_index [])[row_ptr.row_index]?

variable {chunks : List (List K)}

theorem mem_chunk_rows {chunk_index : Nat} {x : RowPtr × K} :
    x ∈ chunk_rows chunks chunk_index ↔ x.1.chunk_index = chunk_index ∧ key_of chunks x.1 = some x.2 := by
  obtain ⟨⟨c, r⟩, key⟩ := x
  simp only [chunk_rows, List.mem_map, List.mem_zipIdx_iff_getElem?, key_of, Prod.mk.injEq, RowPtr.mk.injEq]
  constructor
  · rintro ⟨⟨key', r'⟩, hget, ⟨rfl, rfl⟩, rfl⟩
    exact ⟨rfl, hget⟩
  · rintro ⟨rfl, hget⟩
    exact ⟨(key, r), hget, ⟨rfl, rfl⟩, rfl⟩

theorem mem_build_rows {x : RowPtr × K} : x ∈ build_rows chunks ↔ key_of chunks x.1 = some x.2 := by
  simp only [build_rows, List.mem_flatMap, List.mem_range, mem_chunk_rows]
  constructor
  · rintro ⟨_, _, _, hkey⟩
    exact hkey
  · intro hkey
    refine ⟨x.1.chunk_index, ?_, rfl, hkey⟩
    by_contra hlen
    rw [key_of, List.getD_eq_default _ _ (by omega)] at hkey
    simp at hkey

theorem build_rows_key_unique {p : RowPtr} {key key' : K} (h : (p, key) ∈ build_rows chunks)
    (h' : (p, key') ∈ build_rows chunks) : key = key' := by
  rw [mem_build_rows] at h h'
  exact Option.some_injective _ (h.symm.trans h')

theorem build_rows_eq_of_fst {x y : RowPtr × K} (hx : x ∈ build_rows chunks) (hy : y ∈ build_rows chunks)
    (h : x.1 = y.1) : x = y := by
  obtain ⟨p, key⟩ := x
  obtain ⟨q, key'⟩ := y
  dsimp only at h
  subst h
  rw [build_rows_key_unique hx hy]

theorem nodup_chunk_rows_fst (chunk_index : Nat) : ((chunk_rows chunks chunk_index).map Prod.fst).Nodup := by
  rw [chunk_rows, List.map_map]
  have hmap : (Prod.fst ∘ fun x : K × Nat => ((⟨chunk_index, x.2⟩ : RowPtr), x.1)) =
      (RowPtr.mk chunk_index) ∘ Prod.snd := rfl
  rw [hmap, ← List.map_map, List.zipIdx_map_snd]
  exact (List.nodup_range' ..).map fun _ _ h => (RowPtr.mk.inj h).2

theorem nodup_build_rows_fst : ((build_rows chunks).map Prod.fst).Nodup := by
  rw [build_rows, List.map_flatMap, List.nodup_flatMap]
  refine ⟨fun c _ => nodup_chunk_rows_fst c, ?_⟩
  refine (List.nodup_range).pairwise_of_forall_ne fun c _ c' _ hne => ?_
  intro p hp hp'
  obtain ⟨x, hx, rfl⟩ := List.mem_map.mp hp
  obtain ⟨x', hx', hxx'⟩ := List.mem_map.mp hp'
  exact hne ((mem_chunk_rows.mp hx).1.symm.trans (hxx' ▸ (mem_chunk_rows.mp hx').1))

theorem flatMap_task_rows {worker_num : Nat} {tasks : List (Nat × Nat)}
    (h : generate_finalize_task chunks.length worker_num = some tasks) :
    tasks.flatMap (task_rows chunks) = build_rows chunks := by
  rw [build_rows, ← generate_finalize_task_chunks h, List.flatMap_assoc]
  rfl

end Rows

section Finalize

inductive Insert
  | idle
  | loaded (head : Option RowPtr)
  | exchanged (head : Option RowPtr)
  deriving DecidableEq, Repr

def Insert.toPc : Insert → Pc RowPtr
  | .idle => .idle
  | .loaded head => .loaded head
  | .exchanged head => .linked head

structure Worker (K : Type) where
  rows : List (RowPtr × K)
  insert : Insert
  deriving DecidableEq, Repr

structure FinalizeState (K : Type) (n : Nat) where
  tasks : List (Nat × Nat)
  pointers : Nat → Option RowPtr
  entries : RowPtr → Option (RawEntry K)
  next : RowPtr → Option RowPtr
  workers : Fin n → Worker K

variable {K : Type} (chunks : List (List K)) (hash : K → UInt64) (hash_mask : UInt64) {n : Nat}

def FinalizeState.init (tasks : List (Nat × Nat)) : FinalizeState K n :=
  ⟨tasks, fun _ => none, fun _ => none, fun _ => none, fun _ => ⟨[], .idle⟩⟩

def FinalizeState.finalize_task (s : FinalizeState K n) (w : Fin n) : FinalizeState K n :=
  match s.tasks with
  | [] => s
  | task :: tasks => { s with tasks, workers := Function.update s.workers w ⟨task_rows chunks task, .idle⟩ }

def FinalizeState.load_head (s : FinalizeState K n) (w : Fin n) (row_ptr : RowPtr) (key : K)
    (rows : List (RowPtr × K)) : FinalizeState K n :=
  { s with
    entries := Function.update s.entries row_ptr (some ⟨row_ptr, key⟩)
    next := Function.update s.next row_ptr none
    workers := Function.update s.workers w
      ⟨(row_ptr, key) :: rows, .loaded (s.pointers (hash key &&& hash_mask).toNat)⟩ }

-- on failure, spurious or not, it returns the current head, which the loop retries with
def FinalizeState.compare_exchange_weak (s : FinalizeState K n) (w : Fin n) (spurious : Bool) (row_ptr : RowPtr)
    (key : K) (rows : List (RowPtr × K)) (head : Option RowPtr) : FinalizeState K n :=
  let index := (hash key &&& hash_mask).toNat
  if s.pointers index = head ∧ spurious = false then
    { s with
      pointers := Function.update s.pointers index (some row_ptr)
      workers := Function.update s.workers w ⟨(row_ptr, key) :: rows, .exchanged head⟩ }
  else { s with workers := Function.update s.workers w ⟨(row_ptr, key) :: rows, .loaded (s.pointers index)⟩ }

def FinalizeState.write_next (s : FinalizeState K n) (w : Fin n) (row_ptr : RowPtr) (rows : List (RowPtr × K))
    (head : Option RowPtr) : FinalizeState K n :=
  { s with
    next := Function.update s.next row_ptr head
    workers := Function.update s.workers w ⟨rows, .idle⟩ }

-- one step of worker `w`; an exchange it runs fails spuriously when `spurious` is set
def FinalizeState.step (s : FinalizeState K n) (w : Fin n) (spurious : Bool) : FinalizeState K n :=
  match s.workers w with
  | ⟨[], .idle⟩ => s.finalize_task chunks w
  | ⟨(row_ptr, key) :: rows, .idle⟩ => s.load_head hash hash_mask w row_ptr key rows
  | ⟨(row_ptr, key) :: rows, .loaded head⟩ => s.compare_exchange_weak hash hash_mask w spurious row_ptr key rows head
  | ⟨(row_ptr, _) :: rows, .exchanged head⟩ => s.write_next w row_ptr rows head
  | ⟨[], _⟩ => s

-- the steps of a schedule, in order: any interleaving of the workers, with any spurious failures
def FinalizeState.run (s : FinalizeState K n) (sched : List (Fin n × Bool)) : FinalizeState K n :=
  sched.foldl (fun s a => s.step chunks hash hash_mask a.1 a.2) s

def FinalizeState.finished (s : FinalizeState K n) : Prop :=
  s.tasks = [] ∧ ∀ w, s.workers w = ⟨[], .idle⟩

instance [DecidableEq K] (s : FinalizeState K n) : Decidable s.finished :=
  inferInstanceAs (Decidable (_ ∧ _))

def FinalizeState.queued (s : FinalizeState K n) : List (RowPtr × K) := s.tasks.flatMap (task_rows chunks)

def bucket_of (row_ptr : RowPtr) : Nat :=
  ((key_of chunks row_ptr).map fun key => (hash key &&& hash_mask).toNat).getD 0

end Finalize

section Invariant

variable {K : Type} {chunks : List (List K)} {hash : K → UInt64} {hash_mask : UInt64} {n : Nat}

theorem bucket_of_eq {x : RowPtr × K} (hx : x ∈ build_rows chunks) :
    bucket_of chunks hash hash_mask x.1 = (hash x.2 &&& hash_mask).toNat := by
  rw [bucket_of, mem_build_rows.mp hx]
  rfl

variable (chunks) in
structure FinalizeState.Inv (s : FinalizeState K n) : Prop where
  queued_nodup : ((s.queued chunks).map Prod.fst).Nodup
  rows_nodup : ∀ w, ((s.workers w).rows.map Prod.fst).Nodup
  rows_queued : ∀ w, ∀ x ∈ (s.workers w).rows, ∀ y ∈ s.queued chunks, x.1 ≠ y.1
  rows_rows : ∀ w w', w ≠ w' → ∀ x ∈ (s.workers w).rows, ∀ y ∈ (s.workers w').rows, x.1 ≠ y.1
  queued_sub : ∀ x ∈ s.queued chunks, x ∈ build_rows chunks
  rows_sub : ∀ w, ∀ x ∈ (s.workers w).rows, x ∈ build_rows chunks

variable {s : FinalizeState K n} {w : Fin n} {x : RowPtr × K} {rows : List (RowPtr × K)}

theorem FinalizeState.Inv.ne_of_waiting (hi : s.Inv chunks) (hw : (s.workers w).rows = x :: rows)
    {y : RowPtr × K} (hy : y ∈ rows) : y.1 ≠ x.1 := by
  have hnodup := hi.rows_nodup w
  rw [hw, List.map_cons, List.nodup_cons] at hnodup
  exact fun e => hnodup.1 (e ▸ List.mem_map_of_mem hy)

theorem FinalizeState.Inv.ne_of_other (hi : s.Inv chunks) (hw : (s.workers w).rows = x :: rows) {w' : Fin n}
    (hne : w' ≠ w) {y : RowPtr × K} (hy : y ∈ (s.workers w').rows) : y.1 ≠ x.1 :=
  hi.rows_rows w' w hne y hy x (hw ▸ List.mem_cons_self)

theorem FinalizeState.Inv.ne_of_queued (hi : s.Inv chunks) (hw : (s.workers w).rows = x :: rows)
    {y : RowPtr × K} (hy : y ∈ s.queued chunks) : y.1 ≠ x.1 :=
  (hi.rows_queued w x (hw ▸ List.mem_cons_self) y hy).symm

theorem FinalizeState.Inv.current_mem (hi : s.Inv chunks) (hw : (s.workers w).rows = x :: rows) :
    x ∈ build_rows chunks :=
  hi.rows_sub w x (hw ▸ List.mem_cons_self)

theorem FinalizeState.Inv.of_rows {s' : FinalizeState K n} (hi : s.Inv chunks) (htasks : s'.tasks = s.tasks)
    (hrows : ∀ w, (s'.workers w).rows = (s.workers w).rows) : s'.Inv chunks := by
  have hq : s'.queued chunks = s.queued chunks := by rw [FinalizeState.queued, htasks]; rfl
  refine ⟨?_, fun w => ?_, fun w => ?_, fun w w' hne => ?_, ?_, fun w => ?_⟩ <;>
    simp only [hq, hrows]
  exacts [hi.queued_nodup, hi.rows_nodup w, hi.rows_queued w, hi.rows_rows w w' hne, hi.queued_sub,
    hi.rows_sub w]

theorem FinalizeState.Inv.finalize_task (hi : s.Inv chunks) (hw : (s.workers w).rows = []) :
    (s.finalize_task chunks w).Inv chunks := by
  unfold FinalizeState.finalize_task
  split
  · exact hi
  next task tasks htasks =>
  -- the task's rows move from the queue to the worker
  have hsplit : s.queued chunks = task_rows chunks task ++ tasks.flatMap (task_rows chunks) := by
    rw [FinalizeState.queued, htasks, List.flatMap_cons]
  have hnodup := hi.queued_nodup
  rw [hsplit, List.map_append, List.nodup_append] at hnodup
  have hmem : ∀ y ∈ tasks.flatMap (task_rows chunks), y ∈ s.queued chunks := fun y hy => by
    rw [hsplit]; exact List.mem_append_right _ hy
  have hmem' : ∀ y ∈ task_rows chunks task, y ∈ s.queued chunks := fun y hy => by
    rw [hsplit]; exact List.mem_append_left _ hy
  refine ⟨hnodup.2.1, fun w' => ?_, fun w' y hy z hz => ?_, fun w₁ w₂ hne y hy z hz => ?_,
    fun y hy => hi.queued_sub y (hmem y hy), fun w' y hy => ?_⟩
  · by_cases h : w' = w
    · subst h; simpa using hnodup.1
    · simpa [h] using hi.rows_nodup w'
  · by_cases h : w' = w
    · subst h
      simp only [Function.update_self] at hy
      exact hnodup.2.2 _ (List.mem_map_of_mem hy) _ (List.mem_map_of_mem hz)
    · simp only [Function.update_of_ne h] at hy
      exact hi.rows_queued w' y hy z (hmem z hz)
  · simp only [FinalizeState.queued] at *
    by_cases h₁ : w₁ = w
    · subst h₁
      rw [Function.update_of_ne (Ne.symm hne)] at hz
      simp only [Function.update_self] at hy
      exact (hi.rows_queued w₂ z hz y (hmem' y hy)).symm
    · by_cases h₂ : w₂ = w
      · subst h₂
        rw [Function.update_of_ne h₁] at hy
        simp only [Function.update_self] at hz
        exact hi.rows_queued w₁ y hy z (hmem' z hz)
      · rw [Function.update_of_ne h₁] at hy
        rw [Function.update_of_ne h₂] at hz
        exact hi.rows_rows w₁ w₂ hne y hy z hz
  · by_cases h : w' = w
    · subst h
      simp only [Function.update_self] at hy
      exact hi.queued_sub y (hmem' y hy)
    · simp only [Function.update_of_ne h] at hy
      exact hi.rows_sub w' y hy

theorem FinalizeState.Inv.write_next (hi : s.Inv chunks) (hw : (s.workers w).rows = x :: rows)
    (head : Option RowPtr) : (s.write_next w x.1 rows head).Inv chunks := by
  -- the worker's rows lose their first one
  have hsub : ∀ y ∈ rows, y ∈ (s.workers w).rows := fun y hy => by rw [hw]; exact List.mem_cons_of_mem x hy
  have hq : (s.write_next w x.1 rows head).queued chunks = s.queued chunks := rfl
  refine ⟨hi.queued_nodup, fun w' => ?_, fun w' y hy z hz => ?_, fun w₁ w₂ hne y hy z hz => ?_,
    hi.queued_sub, fun w' y hy => ?_⟩
  · by_cases h : w' = w
    · subst h
      have hnodup := hi.rows_nodup w'
      rw [hw, List.map_cons, List.nodup_cons] at hnodup
      simpa [FinalizeState.write_next] using hnodup.2
    · simpa [FinalizeState.write_next, h] using hi.rows_nodup w'
  · rw [hq] at hz
    by_cases h : w' = w
    · subst h
      simp only [FinalizeState.write_next, Function.update_self] at hy
      exact hi.rows_queued w' y (hsub y hy) z hz
    · simp only [FinalizeState.write_next, Function.update_of_ne h] at hy
      exact hi.rows_queued w' y hy z hz
  · simp only [FinalizeState.write_next] at hy hz
    by_cases h₁ : w₁ = w
    · subst h₁
      rw [Function.update_of_ne (Ne.symm hne)] at hz
      simp only [Function.update_self] at hy
      exact hi.rows_rows w₁ w₂ hne y (hsub y hy) z hz
    · rw [Function.update_of_ne h₁] at hy
      by_cases h₂ : w₂ = w
      · subst h₂
        simp only [Function.update_self] at hz
        exact hi.rows_rows w₁ w₂ hne y hy z (hsub z hz)
      · rw [Function.update_of_ne h₂] at hz
        exact hi.rows_rows w₁ w₂ hne y hy z hz
  · by_cases h : w' = w
    · subst h
      simp only [FinalizeState.write_next, Function.update_self] at hy
      exact hi.rows_sub w' y (hsub y hy)
    · simp only [FinalizeState.write_next, Function.update_of_ne h] at hy
      exact hi.rows_sub w' y hy

end Invariant

section Refinement

variable {K : Type} {chunks : List (List K)} {hash : K → UInt64} {hash_mask : UInt64} {n : Nat}

variable (chunks) in
structure FinalizeState.Refines (s : FinalizeState K n) (d : Conf Nat RowPtr) : Prop where
  head : d.head = s.pointers
  next : d.next = s.next
  current : ∀ w x rows, (s.workers w).rows = x :: rows → d.pc x.1 = (s.workers w).insert.toPc
  waiting : ∀ w x rows, (s.workers w).rows = x :: rows → ∀ y ∈ rows, d.pc y.1 = .idle
  queued : ∀ y ∈ s.queued chunks, d.pc y.1 = .idle
  entries : ∀ p, d.pc p ≠ .idle → ∃ key, s.entries p = some ⟨p, key⟩ ∧ (p, key) ∈ build_rows chunks
  finished : ∀ x ∈ build_rows chunks, x ∉ s.queued chunks → (∀ w, x ∉ (s.workers w).rows) → d.pc x.1 = .done
  outside : ∀ p, key_of chunks p = none → d.pc p = .idle

variable {s s' : FinalizeState K n} {d d' : Conf Nat RowPtr} {w : Fin n} {p : RowPtr} {key : K}
  {rows : List (RowPtr × K)}

theorem FinalizeState.Refines.move {ins ins' : Insert} (hi : s.Inv chunks) (hr : s.Refines chunks d)
    (hw : s.workers w = ⟨(p, key) :: rows, ins⟩) (htasks : s'.tasks = s.tasks)
    (hworkers : s'.workers = Function.update s.workers w ⟨(p, key) :: rows, ins'⟩)
    (hpc : d'.pc = Function.update d.pc p ins'.toPc) (hhead : d'.head = s'.pointers) (hnext : d'.next = s'.next)
    (hentries : ∀ q, q ≠ p → s'.entries q = s.entries q)
    (hentry : ins'.toPc ≠ .idle → ∃ key', s'.entries p = some ⟨p, key'⟩ ∧ (p, key') ∈ build_rows chunks) :
    s'.Refines chunks d' := by
  have hrows : (s.workers w).rows = (p, key) :: rows := by rw [hw]
  have hq : s'.queued chunks = s.queued chunks := by rw [FinalizeState.queued, htasks]; rfl
  have hother : ∀ q, q ≠ p → d'.pc q = d.pc q := fun q hq => by rw [hpc, Function.update_of_ne hq]
  refine ⟨hhead, hnext, fun w' x rs hx => ?_, fun w' x rs hx y hy => ?_, fun y hy => ?_, fun q hq => ?_,
    fun x hx hxq hxw => ?_, fun q hq => ?_⟩
  · by_cases h : w' = w
    · subst h
      rw [hworkers, Function.update_self] at hx ⊢
      cases hx
      rw [hpc, Function.update_self]
    · rw [hworkers, Function.update_of_ne h] at hx ⊢
      rw [hother _ (hi.ne_of_other hrows h (hx ▸ List.mem_cons_self)), hr.current w' x rs hx]
  · by_cases h : w' = w
    · subst h
      rw [hworkers, Function.update_self] at hx
      cases hx
      rw [hother _ (hi.ne_of_waiting hrows hy)]
      exact hr.waiting w' _ _ hrows y hy
    · rw [hworkers, Function.update_of_ne h] at hx
      rw [hother _ (hi.ne_of_other hrows h (hx ▸ List.mem_cons_of_mem x hy))]
      exact hr.waiting w' x rs hx y hy
  · rw [hq] at hy
    rw [hother _ (hi.ne_of_queued hrows hy)]
    exact hr.queued y hy
  · by_cases h : q = p
    · subst h
      rw [hpc, Function.update_self] at hq
      exact hentry hq
    · rw [hother q h] at hq
      rw [hentries q h]
      exact hr.entries q hq
  · -- the row inserted is still with its worker, so `x` is another row
    have hne : x.1 ≠ p := by
      intro e
      have hx' := build_rows_eq_of_fst hx (hi.current_mem hrows) e
      apply hxw w
      rw [hworkers, Function.update_self, hx']
      exact List.mem_cons_self
    rw [hother _ hne]
    rw [hq] at hxq
    refine hr.finished x hx hxq fun w' hw' => hxw w' ?_
    by_cases h : w' = w
    · subst h
      rw [hworkers, Function.update_self]
      rwa [hrows] at hw'
    · rwa [hworkers, Function.update_of_ne h]
  · have hne : q ≠ p := by
      rintro rfl
      rw [mem_build_rows.mp (hi.current_mem hrows)] at hq
      exact Option.some_ne_none _ hq
    rw [hother q hne]
    exact hr.outside q hq

theorem FinalizeState.Refines.load_head (hi : s.Inv chunks) (hr : s.Refines chunks d)
    (hw : s.workers w = ⟨(p, key) :: rows, .idle⟩) :
    ∃ d', Step (bucket_of chunks hash hash_mask) d d' ∧ (s.load_head hash hash_mask w p key rows).Refines chunks d' := by
  have hrows : (s.workers w).rows = (p, key) :: rows := by rw [hw]
  have hidle : d.pc p = .idle := by rw [hr.current w _ _ hrows, hw]; rfl
  have hbucket : bucket_of chunks hash hash_mask p = (hash key &&& hash_mask).toNat :=
    bucket_of_eq (hi.current_mem hrows)
  refine ⟨_, Step.start hidle, hr.move hi hw rfl rfl ?_ ?_ ?_ ?_ ?_⟩
  · rw [hbucket, hr.head]
    rfl
  · exact hr.head
  · simp only [FinalizeState.load_head, hr.next]
  · intro q hq
    simp only [FinalizeState.load_head, Function.update_of_ne hq]
  · intro _
    exact ⟨key, by simp [FinalizeState.load_head], hi.current_mem hrows⟩

theorem FinalizeState.Refines.compare_exchange_weak {head : Option RowPtr} (spurious : Bool)
    (hi : s.Inv chunks) (hr : s.Refines chunks d) (hw : s.workers w = ⟨(p, key) :: rows, .loaded head⟩) :
    ∃ d', Step (bucket_of chunks hash hash_mask) d d' ∧
      (s.compare_exchange_weak hash hash_mask w spurious p key rows head).Refines chunks d' := by
  have hrows : (s.workers w).rows = (p, key) :: rows := by rw [hw]
  have hloaded : d.pc p = .loaded head := by rw [hr.current w _ _ hrows, hw]; rfl
  have hbucket : bucket_of chunks hash hash_mask p = (hash key &&& hash_mask).toNat :=
    bucket_of_eq (hi.current_mem hrows)
  -- the row was started, so its entry is written
  have hentry : ∃ key', s.entries p = some ⟨p, key'⟩ ∧ (p, key') ∈ build_rows chunks :=
    hr.entries p (by rw [hloaded]; exact nofun)
  unfold FinalizeState.compare_exchange_weak
  dsimp only
  split
  · next hcas =>
    have hhead : d.head (bucket_of chunks hash hash_mask p) = head := by rw [hr.head, hbucket]; exact hcas.1
    refine ⟨_, Step.swap hloaded hhead, hr.move hi hw rfl rfl rfl ?_ hr.next (fun _ _ => rfl) fun _ => hentry⟩
    rw [hr.head, hbucket]
  · refine ⟨_, Step.fail hloaded, hr.move hi hw rfl rfl ?_ hr.head hr.next (fun _ _ => rfl) fun _ => hentry⟩
    rw [hr.head, hbucket]
    rfl

theorem FinalizeState.Refines.write_next {head : Option RowPtr} (hi : s.Inv chunks) (hr : s.Refines chunks d)
    (hw : s.workers w = ⟨(p, key) :: rows, .exchanged head⟩) :
    ∃ d', Step (bucket_of chunks hash hash_mask) d d' ∧ (s.write_next w p rows head).Refines chunks d' := by
  have hrows : (s.workers w).rows = (p, key) :: rows := by rw [hw]
  have hlinked : d.pc p = .linked head := by rw [hr.current w _ _ hrows, hw]; rfl
  have hother : ∀ q, q ≠ p →
      (⟨d.head, Function.update d.next p head, Function.update d.pc p .done⟩ : Conf Nat RowPtr).pc q = d.pc q :=
    fun q hq => Function.update_of_ne hq ..
  refine ⟨_, Step.link hlinked, ⟨hr.head, by simp [FinalizeState.write_next, hr.next],
    fun w' x rs hx => ?_, fun w' x rs hx y hy => ?_, fun y hy => ?_, fun q hq => ?_,
    fun x hx hxq hxw => ?_, fun q hq => ?_⟩⟩
  · by_cases h : w' = w
    · subst h
      simp only [FinalizeState.write_next, Function.update_self] at hx ⊢
      have hx' : x ∈ rows := hx ▸ List.mem_cons_self
      rw [Function.update_of_ne (hi.ne_of_waiting hrows hx'), hr.waiting w' _ _ hrows x hx']
      rfl
    · simp only [FinalizeState.write_next, Function.update_of_ne h] at hx ⊢
      rw [Function.update_of_ne (hi.ne_of_other hrows h (hx ▸ List.mem_cons_self)), hr.current w' x rs hx]
  · by_cases h : w' = w
    · subst h
      simp only [FinalizeState.write_next, Function.update_self] at hx
      have hy' : y ∈ rows := hx ▸ List.mem_cons_of_mem x hy
      rw [hother _ (hi.ne_of_waiting hrows hy')]
      exact hr.waiting w' _ _ hrows y hy'
    · simp only [FinalizeState.write_next, Function.update_of_ne h] at hx
      rw [hother _ (hi.ne_of_other hrows h (hx ▸ List.mem_cons_of_mem x hy))]
      exact hr.waiting w' x rs hx y hy
  · rw [hother _ (hi.ne_of_queued hrows hy)]
    exact hr.queued y hy
  · by_cases h : q = p
    · subst h
      exact hr.entries q (by rw [hlinked]; exact nofun)
    · rw [hother q h] at hq
      exact hr.entries q hq
  · by_cases h : x.1 = p
    · -- the row just linked is done
      rw [h]
      exact Function.update_self ..
    · rw [hother _ h]
      refine hr.finished x hx hxq fun w' hw' => ?_
      by_cases hw'w : w' = w
      · subst hw'w
        rw [hrows] at hw'
        rcases List.mem_cons.mp hw' with rfl | hw'
        · exact h rfl
        · exact hxw w' (by simpa [FinalizeState.write_next] using hw')
      · exact hxw w' (by simpa [FinalizeState.write_next, hw'w] using hw')
  · have hne : q ≠ p := by
      rintro rfl
      rw [mem_build_rows.mp (hi.current_mem hrows)] at hq
      exact Option.some_ne_none _ hq
    rw [hother q hne]
    exact hr.outside q hq

theorem FinalizeState.Refines.finalize_task (hr : s.Refines chunks d) (hw : s.workers w = ⟨[], .idle⟩) :
    (s.finalize_task chunks w).Refines chunks d := by
  unfold FinalizeState.finalize_task
  split
  · exact hr
  next task tasks htasks =>
  have hsplit : s.queued chunks = task_rows chunks task ++ tasks.flatMap (task_rows chunks) := by
    rw [FinalizeState.queued, htasks, List.flatMap_cons]
  have hmem : ∀ y ∈ tasks.flatMap (task_rows chunks), y ∈ s.queued chunks := fun y hy => by
    rw [hsplit]; exact List.mem_append_right _ hy
  have hmem' : ∀ y ∈ task_rows chunks task, y ∈ s.queued chunks := fun y hy => by
    rw [hsplit]; exact List.mem_append_left _ hy
  refine ⟨hr.head, hr.next, fun w' x rs hx => ?_, fun w' x rs hx y hy => ?_, fun y hy => hr.queued y (hmem y hy),
    hr.entries, fun x hx hxq hxw => ?_, hr.outside⟩
  · by_cases h : w' = w
    · subst h
      simp only [Function.update_self] at hx ⊢
      exact hr.queued x (hmem' x (hx ▸ List.mem_cons_self))
    · simp only [Function.update_of_ne h] at hx ⊢
      exact hr.current w' x rs hx
  · by_cases h : w' = w
    · subst h
      simp only [Function.update_self] at hx
      exact hr.queued y (hmem' y (hx ▸ List.mem_cons_of_mem x hy))
    · simp only [Function.update_of_ne h] at hx
      exact hr.waiting w' x rs hx y hy
  · -- a row in no worker's hands and not queued now was not queued before either
    refine hr.finished x hx (fun hq => ?_) fun w' hw' => ?_
    · rw [hsplit] at hq
      rcases List.mem_append.mp hq with hq | hq
      · exact hxw w (by simpa using hq)
      · exact hxq hq
    · by_cases h : w' = w
      · subst h
        rw [hw] at hw'
        exact List.not_mem_nil hw'
      · exact hxw w' (by simpa [h] using hw')

end Refinement

section Run

variable {K : Type} {chunks : List (List K)} {hash : K → UInt64} {hash_mask : UInt64} {n : Nat}
  {s : FinalizeState K n} {d : Conf Nat RowPtr}

theorem FinalizeState.Inv.step (hi : s.Inv chunks) (w : Fin n) (spurious : Bool) :
    (s.step chunks hash hash_mask w spurious).Inv chunks := by
  unfold FinalizeState.step
  split
  · next hw => exact hi.finalize_task (by rw [hw])
  · next hw =>
    exact hi.of_rows rfl fun w' => by by_cases h : w' = w <;> simp [FinalizeState.load_head, h, hw]
  · next hw =>
    unfold FinalizeState.compare_exchange_weak
    dsimp only
    split <;> exact hi.of_rows rfl fun w' => by by_cases h : w' = w <;> simp [h, hw]
  · next hw => exact hi.write_next (by rw [hw]) _
  · exact hi

theorem FinalizeState.Refines.step (hi : s.Inv chunks) (hr : s.Refines chunks d) (w : Fin n) (spurious : Bool) :
    ∃ d', Relation.ReflTransGen (Step (bucket_of chunks hash hash_mask)) d d' ∧
      (s.step chunks hash hash_mask w spurious).Refines chunks d' := by
  unfold FinalizeState.step
  split
  · next hw => exact ⟨d, .refl, hr.finalize_task hw⟩
  · next hw =>
    obtain ⟨d', hs, hr'⟩ := hr.load_head hi hw
    exact ⟨d', .single hs, hr'⟩
  · next hw =>
    obtain ⟨d', hs, hr'⟩ := hr.compare_exchange_weak spurious hi hw
    exact ⟨d', .single hs, hr'⟩
  · next hw =>
    obtain ⟨d', hs, hr'⟩ := hr.write_next hi hw
    exact ⟨d', .single hs, hr'⟩
  · exact ⟨d, .refl, hr⟩

variable (chunks hash hash_mask) in
def FinalizeState.Reached (s : FinalizeState K n) : Prop :=
  s.Inv chunks ∧ ∃ d, Relation.ReflTransGen (Step (bucket_of chunks hash hash_mask)) (Conf.init fun _ => none) d ∧
    s.Refines chunks d

theorem FinalizeState.Reached.step (h : s.Reached chunks hash hash_mask) (w : Fin n) (spurious : Bool) :
    (s.step chunks hash hash_mask w spurious).Reached chunks hash hash_mask := by
  obtain ⟨hi, d, hd, hr⟩ := h
  obtain ⟨d', hd', hr'⟩ := hr.step hi w spurious
  exact ⟨hi.step w spurious, d', hd.trans hd', hr'⟩

theorem FinalizeState.Reached.run (h : s.Reached chunks hash hash_mask) (sched : List (Fin n × Bool)) :
    (s.run chunks hash hash_mask sched).Reached chunks hash hash_mask := by
  induction sched generalizing s with
  | nil => exact h
  | cons a sched ih => exact ih (h.step a.1 a.2)

theorem FinalizeState.reached_init {tasks : List (Nat × Nat)}
    (htasks : tasks.flatMap (task_rows chunks) = build_rows chunks) :
    (FinalizeState.init tasks : FinalizeState K n).Reached chunks hash hash_mask := by
  have hq : (FinalizeState.init tasks : FinalizeState K n).queued chunks = build_rows chunks := htasks
  refine ⟨⟨?_, fun _ => List.nodup_nil, fun _ _ h => (nomatch h), fun _ _ _ _ h => (nomatch h), ?_,
    fun _ _ h => (nomatch h)⟩, Conf.init fun _ => none, .refl, ⟨rfl, rfl, fun _ _ _ h => (nomatch h),
    fun _ _ _ h => (nomatch h), fun _ _ => rfl, fun _ h => absurd rfl h, fun x hx hxq _ => ?_, fun _ _ => rfl⟩⟩
  · rw [hq]
    exact nodup_build_rows_fst
  · rw [hq]
    exact fun _ h => h
  · rw [hq] at hxq
    exact absurd hx hxq

theorem map_fst_filter_filterMap {lin : List RowPtr} (hkeys : ∀ p ∈ lin, key_of chunks p ≠ none) (i : Nat) :
    ((lin.filterMap fun p => (key_of chunks p).map (p, ·)).filter fun x => (hash x.2 &&& hash_mask).toNat = i).map
      Prod.fst = lin.filter fun p => bucket_of chunks hash hash_mask p = i := by
  induction lin with
  | nil => rfl
  | cons p lin ih =>
    have ih := ih fun q hq => hkeys q (List.mem_cons_of_mem p hq)
    obtain ⟨key, hkey⟩ := Option.ne_none_iff_exists'.mp (hkeys p List.mem_cons_self)
    have hbucket : bucket_of chunks hash hash_mask p = (hash key &&& hash_mask).toNat := by rw [bucket_of, hkey]; rfl
    rw [List.filterMap_cons, hkey, Option.map_some, List.filter_cons, List.filter_cons, hbucket]
    by_cases hi : (hash key &&& hash_mask).toNat = i
    · simp only [hi, decide_true, if_true, List.map_cons, ih]
    · simp only [hi, decide_false, Bool.false_eq_true, if_false, ih]

theorem FinalizeState.Reached.finished_chains (h : s.Reached chunks hash hash_mask) (hfin : s.finished) :
    ∃ order : List (RowPtr × K), order.Perm (build_rows chunks) ∧
      (∀ i, IsPath s.next (s.pointers i)
        ((order.filter fun x => (hash x.2 &&& hash_mask).toNat = i).reverse.map Prod.fst)) ∧
      ∀ x ∈ order, s.entries x.1 = some ⟨x.1, x.2⟩ := by
  obtain ⟨hi, d, hd, hr⟩ := h
  obtain ⟨lin, hl⟩ := Linearized.of_reachable hd
  -- every build row's push is done and no other push started
  have hdone : ∀ x ∈ build_rows chunks, d.pc x.1 = .done := fun x hx =>
    hr.finished x hx (by simp [FinalizeState.queued, hfin.1]) fun w => by simp [hfin.2 w]
  have hsettled : ∀ p, d.pc p = .idle ∨ d.pc p = .done := by
    intro p
    cases hkey : key_of chunks p with
    | none => exact .inl (hr.outside p hkey)
    | some key => exact .inr (hdone (p, key) (mem_build_rows.mpr hkey))
  -- the pushed rows were started, so their entries are written and they are build rows
  have hentries : ∀ p ∈ lin, ∃ key, s.entries p = some ⟨p, key⟩ ∧ (p, key) ∈ build_rows chunks := by
    intro p hp
    refine hr.entries p fun hidle => ?_
    have hpub := (hl.mem_iff p).mp hp
    rw [hidle] at hpub
    exact Bool.false_ne_true hpub
  have hkeys : ∀ p ∈ lin, key_of chunks p ≠ none := by
    intro p hp
    obtain ⟨key, -, hkey⟩ := hentries p hp
    rw [mem_build_rows.mp hkey]
    exact Option.some_ne_none _
  have hmem : ∀ x, x ∈ lin.filterMap (fun p => (key_of chunks p).map (p, ·)) ↔ x.1 ∈ lin ∧ key_of chunks x.1 = some x.2 := by
    intro x
    simp only [List.mem_filterMap, Option.map_eq_some_iff]
    constructor
    · rintro ⟨p, hp, key, hkey, rfl⟩
      exact ⟨hp, hkey⟩
    · intro hx
      exact ⟨x.1, hx.1, x.2, hx.2, rfl⟩
  refine ⟨lin.filterMap fun p => (key_of chunks p).map (p, ·), ?_, fun i => ?_, fun x hx => ?_⟩
  · have hnodup : (lin.filterMap fun p => (key_of chunks p).map (p, ·)).Nodup := by
      refine hl.nodup.filterMap fun a a' b hb hb' => ?_
      obtain ⟨_, _, rfl⟩ := Option.map_eq_some_iff.mp hb
      obtain ⟨_, _, hb'⟩ := Option.map_eq_some_iff.mp hb'
      exact (Prod.mk.inj hb').1.symm
    refine (List.perm_ext_iff_of_nodup hnodup (nodup_build_rows_fst.of_map _)).mpr fun x => ?_
    rw [hmem, mem_build_rows]
    refine ⟨And.right, fun hx => ⟨(hl.mem_iff x.1).mpr ?_, hx⟩⟩
    rw [hdone x (mem_build_rows.mpr hx)]
    rfl
  · have hpath := hl.path_next hsettled i
    rw [hr.head, hr.next] at hpath
    rwa [List.map_reverse, map_fst_filter_filterMap hkeys i]
  · obtain ⟨hp, hkey⟩ := (hmem x).mp hx
    obtain ⟨key, hentry, hkey'⟩ := hentries x.1 hp
    rw [hentry, build_rows_key_unique hkey' (mem_build_rows.mpr hkey)]

end Run

section Exact

variable {K : Type} {n : Nat}

structure ExactBuild [DecidableEq K] (chunks : List (List K)) (hash : K → UInt64) (s : FinalizeState K n)
    (t : HashJoinHashTable K) : Prop where
  chain : ∀ i, IsPath s.next (s.pointers i) ((t.pointers.getD i []).map RawEntry.row_ptr)
  acyclic : ∀ i, ((t.pointers.getD i []).map RawEntry.row_ptr).Nodup
  entries : ∀ i, ∀ e ∈ t.pointers.getD i [], s.entries e.row_ptr = some e
  rows_once : ∀ x ∈ build_rows chunks, ∀ i,
    ((t.pointers.getD i []).map RawEntry.row_ptr).count x.1 = if (hash x.2 &&& t.hash_mask).toNat = i then 1 else 0
  probe : ∀ key capacity, 0 < capacity →
    (probe_matches key capacity (t.bucket (hash key))).Perm (((build_rows chunks).filter fun x => x.2 = key).map Prod.fst)
  contains : ∀ key, next_contains key (t.bucket (hash key)) = true ↔ ∃ x ∈ build_rows chunks, x.2 = key

structure ExactStringProbe (chunks : List (List (List UInt8))) (hash : List UInt8 → UInt64)
    (t : HashJoinHashTable (List UInt8)) : Prop where
  probe : ∀ key capacity, 0 < capacity →
    (string_probe_matches key capacity ((t.bucket (hash key)).map StringRawEntry.of)).Perm
      (((build_rows chunks).filter fun x => x.2 = key).map Prod.fst)
  contains : ∀ key,
    string_next_contains key ((t.bucket (hash key)).map StringRawEntry.of) = true ↔ ∃ x ∈ build_rows chunks, x.2 = key

variable [DecidableEq K] {chunks : List (List K)} {hash : K → UInt64} {build_num_rows : Nat} {s : FinalizeState K n}

theorem FinalizeState.Reached.exact_build
    (h : s.Reached chunks hash (HashJoinHashTable.with_build_row_num build_num_rows : HashJoinHashTable K).hash_mask)
    (hfin : s.finished) :
    ∃ order : List (RowPtr × K), order.Perm (build_rows chunks) ∧
      ExactBuild chunks hash s ((HashJoinHashTable.with_build_row_num build_num_rows).insert_rows hash order) := by
  obtain ⟨order, hperm, hpath, hentries⟩ := h.finished_chains hfin
  have hchain : ∀ i, (((HashJoinHashTable.with_build_row_num build_num_rows).insert_rows hash order).pointers.getD i
      []).map RawEntry.row_ptr = (order.filter fun x =>
        (hash x.2 &&& (HashJoinHashTable.with_build_row_num build_num_rows : HashJoinHashTable K).hash_mask).toNat = i
        ).reverse.map Prod.fst := by
    intro i
    rw [HashJoinHashTable.getD_pointers_build, List.map_map]
    rfl
  refine ⟨order, hperm, ⟨fun i => ?_, fun i => ?_, fun i e he => ?_, fun x hx i => ?_, fun key c hc => ?_,
    fun key => ?_⟩⟩
  · rw [hchain]
    exact hpath i
  · rw [hchain]
    exact (hpath i).nodup
  · rw [HashJoinHashTable.getD_pointers_build] at he
    obtain ⟨x, hx, rfl⟩ := List.mem_map.mp he
    exact hentries x (List.mem_filter.mp (List.mem_reverse.mp hx)).1
  · have hnodup := (hpath i).nodup
    rw [hchain, HashJoinHashTable.hash_mask_insert_rows]
    split
    · next hi =>
      refine List.count_eq_one_of_mem hnodup (List.mem_map_of_mem ?_)
      exact List.mem_reverse.mpr (List.mem_filter.mpr ⟨hperm.symm.subset hx, decide_eq_true hi⟩)
    · next hi =>
      refine List.count_eq_zero_of_not_mem fun hmem => hi ?_
      -- the only build row with this row pointer is `x`
      obtain ⟨y, hy, hyx⟩ := List.mem_map.mp hmem
      obtain ⟨hy, hyi⟩ := List.mem_filter.mp (List.mem_reverse.mp hy)
      rw [← build_rows_eq_of_fst (hperm.subset hy) hx hyx]
      exact of_decide_eq_true hyi
  · rw [probe_matches_eq key hc, chain_matches_build]
    exact ((List.reverse_perm _).map _).trans ((hperm.filter _).map _)
  · rw [next_contains_build]
    exact ⟨fun ⟨x, hx, hk⟩ => ⟨x, hperm.subset hx, hk⟩, fun ⟨x, hx, hk⟩ => ⟨x, hperm.symm.subset hx, hk⟩⟩

theorem ExactBuild.string_probe {chunks : List (List (List UInt8))} {hash : List UInt8 → UInt64}
    {s : FinalizeState (List UInt8) n} {order : List (RowPtr × List UInt8)}
    (hperm : order.Perm (build_rows chunks)) (hlen : ∀ x ∈ build_rows chunks, x.2.length < 2 ^ 32)
    (hexact : ExactBuild chunks hash s ((HashJoinHashTable.with_build_row_num build_num_rows).insert_rows hash order)) :
    ExactStringProbe chunks hash ((HashJoinHashTable.with_build_row_num build_num_rows).insert_rows hash order) := by
  -- every entry of the table holds the key of a build row
  have hvalid : ∀ key, ∀ e ∈ ((HashJoinHashTable.with_build_row_num build_num_rows).insert_rows hash order).bucket
      (hash key), StringRawEntry.Valid e := by
    intro key e he
    rw [HashJoinHashTable.bucket, HashJoinHashTable.getD_pointers_build] at he
    obtain ⟨x, hx, rfl⟩ := List.mem_map.mp he
    exact hlen x (hperm.subset (List.mem_filter.mp (List.mem_reverse.mp hx)).1)
  refine ⟨fun key c hc => ?_, fun key => ?_⟩
  · rw [string_probe_matches_of key _ (hvalid key)]
    exact hexact.probe key c hc
  · rw [string_next_contains_of key _ (hvalid key)]
    exact hexact.contains key

end Exact

section Build

theorem hash_join_build_exact :
    (∀ {K : Type} [DecidableEq K] {n : Nat} (chunks : List (List K)) (hash : K → UInt64)
        (build_num_rows worker_num : Nat) (tasks : List (Nat × Nat)) (sched : List (Fin n × Bool)) (s : FinalizeState K n),
        generate_finalize_task chunks.length worker_num = some tasks →
        (FinalizeState.init tasks).run chunks hash
          (HashJoinHashTable.with_build_row_num build_num_rows : HashJoinHashTable K).hash_mask sched = s →
        s.finished →
        ∃ order : List (RowPtr × K), order.Perm (build_rows chunks) ∧
          ExactBuild chunks hash s ((HashJoinHashTable.with_build_row_num build_num_rows).insert_rows hash order)) ∧
    (∀ {n : Nat} (chunks : List (List (List UInt8))) (hash : List UInt8 → UInt64)
        (build_num_rows worker_num : Nat) (tasks : List (Nat × Nat)) (sched : List (Fin n × Bool))
        (s : FinalizeState (List UInt8) n),
        generate_finalize_task chunks.length worker_num = some tasks →
        (∀ x ∈ build_rows chunks, x.2.length < 2 ^ 32) →
        (FinalizeState.init tasks).run chunks hash
          (HashJoinHashTable.with_build_row_num build_num_rows : HashJoinHashTable (List UInt8)).hash_mask sched = s →
        s.finished →
        ∃ order : List (RowPtr × List UInt8), order.Perm (build_rows chunks) ∧
          ExactBuild chunks hash s ((HashJoinHashTable.with_build_row_num build_num_rows).insert_rows hash order) ∧
          ExactStringProbe chunks hash ((HashJoinHashTable.with_build_row_num build_num_rows).insert_rows hash order)) := by
  refine ⟨?_, ?_⟩
  · intro K _ n chunks hash build_num_rows worker_num tasks sched s htasks hs hfin
    subst hs
    exact ((FinalizeState.reached_init (flatMap_task_rows htasks)).run sched).exact_build hfin
  · intro n chunks hash build_num_rows worker_num tasks sched s htasks hlen hs hfin
    subst hs
    obtain ⟨order, hperm, hexact⟩ :=
      ((FinalizeState.reached_init (flatMap_task_rows htasks)).run sched).exact_build hfin
    exact ⟨order, hperm, hexact, hexact.string_probe hperm hlen⟩

-- two workers insert rows with the key 7 into one bucket at once: the first exchange of worker 0
-- fails spuriously, and worker 1 loses the race and retries with the head worker 0 published
def race_schedule : List (Fin 2 × Bool) :=
  [(0, false), (1, false), (0, false), (1, false), (0, true), (0, false), (1, false), (1, false), (1, false),
    (0, false), (0, false), (0, false), (0, false)]

theorem hash_join_build_exact_race :
    (∃ order : List (RowPtr × Nat), order.Perm (build_rows [[7, 3], [7]]) ∧
      ExactBuild [[7, 3], [7]] (fun k => k.toUInt64)
        ((FinalizeState.init [(0, 1), (1, 2)]).run [[7, 3], [7]] (fun k => k.toUInt64)
          (HashJoinHashTable.with_build_row_num 3 : HashJoinHashTable Nat).hash_mask race_schedule)
        ((HashJoinHashTable.with_build_row_num 3).insert_rows (fun k => k.toUInt64) order)) ∧
    (∃ order : List (RowPtr × List UInt8), order.Perm (build_rows [[[1, 2], [3]], [[1, 2]]]) ∧
      ExactBuild [[[1, 2], [3]], [[1, 2]]] (fun k => k.length.toUInt64)
        ((FinalizeState.init [(0, 1), (1, 2)]).run [[[1, 2], [3]], [[1, 2]]] (fun k => k.length.toUInt64)
          (HashJoinHashTable.with_build_row_num 3 : HashJoinHashTable (List UInt8)).hash_mask race_schedule)
        ((HashJoinHashTable.with_build_row_num 3).insert_rows (fun k => k.length.toUInt64) order) ∧
      ExactStringProbe [[[1, 2], [3]], [[1, 2]]] (fun k => k.length.toUInt64)
        ((HashJoinHashTable.with_build_row_num 3).insert_rows (fun k => k.length.toUInt64) order)) :=
  ⟨hash_join_build_exact.1 _ _ 3 2 _ race_schedule _ (by decide) rfl (by decide +kernel),
    hash_join_build_exact.2 _ _ 3 2 _ race_schedule _ (by decide) (by decide) rfl (by decide +kernel)⟩

-- one worker builds the table from a chunk of one row whose key has `2^32` bytes
def long_key_run : FinalizeState (List UInt8) 1 :=
  (FinalizeState.init [(0, 1)]).run [[List.replicate (2 ^ 32) 0]] (fun _ => 0)
    (HashJoinHashTable.with_build_row_num 1 : HashJoinHashTable (List UInt8)).hash_mask
    [(0, false), (0, false), (0, false), (0, false)]

theorem string_build_misses_long_key :
    generate_finalize_task 1 1 = some [(0, 1)] ∧ long_key_run.finished ∧
      IsPath long_key_run.next (long_key_run.pointers 0) [⟨0, 0⟩] ∧
      long_key_run.entries ⟨0, 0⟩ = some ⟨⟨0, 0⟩, List.replicate (2 ^ 32) 0⟩ ∧
      (⟨0, 0⟩, List.replicate (2 ^ 32) 0) ∈ build_rows [[List.replicate (2 ^ 32) (0 : UInt8)]] ∧
      string_next_contains (List.replicate (2 ^ 32) 0) [StringRawEntry.of ⟨⟨0, 0⟩, List.replicate (2 ^ 32) 0⟩] = false ∧
      string_probe_matches (List.replicate (2 ^ 32) 0) 1
        [StringRawEntry.of ⟨⟨0, 0⟩, List.replicate (2 ^ 32) 0⟩] = [] := by
  have htasks : generate_finalize_task [[List.replicate (2 ^ 32) (0 : UInt8)]].length 1 = some [(0, 1)] := rfl
  have hfin : long_key_run.finished := by decide +kernel
  have hrows : build_rows [[List.replicate (2 ^ 32) (0 : UInt8)]] = [(⟨0, 0⟩, List.replicate (2 ^ 32) 0)] := rfl
  have hlong : 2 ^ 32 ≤ (List.replicate (2 ^ 32) (0 : UInt8)).length := by rw [List.length_replicate]
  obtain ⟨order, hperm, hexact⟩ := ((FinalizeState.reached_init (flatMap_task_rows htasks)).run _).exact_build hfin
  rw [hrows, List.perm_singleton] at hperm
  subst hperm
  -- the bucket of the key holds the row's entry alone
  have hbucket : ((HashJoinHashTable.with_build_row_num 1).insert_rows (fun _ => 0)
      [((⟨0, 0⟩ : RowPtr), List.replicate (2 ^ 32) (0 : UInt8))]).pointers.getD 0 [] =
      [⟨⟨0, 0⟩, List.replicate (2 ^ 32) 0⟩] := by
    rw [HashJoinHashTable.getD_pointers_build, List.filter_singleton, UInt64.zero_and]
    rfl
  refine ⟨rfl, hfin, ?_, ?_, by rw [hrows]; exact List.mem_singleton_self _, string_next_contains_long hlong,
    @string_probe_matches_long ⟨⟨0, 0⟩, List.replicate (2 ^ 32) 0⟩ hlong 1⟩
  · have hchain := hexact.chain 0
    rw [hbucket] at hchain
    exact hchain
  · exact hexact.entries 0 _ (by rw [hbucket]; exact List.mem_singleton_self _)

end Build

end Databend.HashJoin
