import Mathlib
import Databend.Library.BinaryHeap

namespace Databend.Expression

variable {α : Type}

section Heap

-- `left_child += is_less(v[left_child], v[left_child + 1]) as usize`
def greater_child (is_less : α → α → Bool) (v : List α) (left_child : Nat) (h : left_child < v.length) :
    Fin v.length :=
  if h1 : left_child + 1 < v.length then
    if is_less v[left_child] v[left_child + 1] then ⟨left_child + 1, h1⟩ else ⟨left_child, h⟩
  else ⟨left_child, h⟩

theorem greater_child_val (is_less : α → α → Bool) (v : List α) (left_child : Nat) (h : left_child < v.length) :
    (greater_child is_less v left_child h).val = left_child ∨
      (greater_child is_less v left_child h).val = left_child + 1 := by
  unfold greater_child
  split
  · split
    · exact .inr rfl
    · exact .inl rfl
  · exact .inl rfl

-- the loop of `adjust_heap`: `tmp` is written at `hole` when no child comes after it
def sift_hole (is_less : α → α → Bool) (tmp : α) (v : List α) (hole left_child : Nat) : List α :=
  if h : left_child < v.length then
    let c := greater_child is_less v left_child h
    if is_less tmp v[c] then sift_hole is_less tmp (v.set hole v[c]) c (c * 2 + 1)
    else v.set hole tmp
  else v.set hole tmp
termination_by v.length - left_child
decreasing_by
  have := greater_child_val is_less v left_child h
  simp only [List.length_set]
  omega

-- `v[hole_index]` is in bounds at every call
def adjust_heap (is_less : α → α → Bool) (v : List α) (hole_index : Nat) : List α :=
  match v[hole_index]? with
  | some tmp => sift_hole is_less tmp v hole_index (hole_index * 2 + 1)
  | none => v

-- the loop of `make_heap`, from `parent` down to the root
def make_heap_from (is_less : α → α → Bool) (v : List α) : Nat → List α
  | 0 => adjust_heap is_less v 0
  | parent + 1 => make_heap_from is_less (adjust_heap is_less v (parent + 1)) parent

def make_heap (is_less : α → α → Bool) (v : List α) : List α :=
  if v.length < 2 then v else make_heap_from is_less v ((v.length - 2) / 2)

end Heap

section HeapSpec

open BinaryHeap

variable {is_less : α → α → Bool}

theorem greater_child_cases (v : List α) (left_child : Nat) (h : left_child < v.length) :
    ((greater_child is_less v left_child h).val = left_child + 1 ∧
        ∃ h1 : left_child + 1 < v.length, is_less v[left_child] v[left_child + 1] = true) ∨
      ((greater_child is_less v left_child h).val = left_child ∧
        ∀ h1 : left_child + 1 < v.length, is_less v[left_child] v[left_child + 1] = false) := by
  unfold greater_child
  by_cases h1 : left_child + 1 < v.length
  · rw [dif_pos h1]
    by_cases hl : is_less v[left_child] v[left_child + 1] = true
    · rw [if_pos hl]
      exact .inl ⟨rfl, h1, hl⟩
    · rw [if_neg hl]
      exact .inr ⟨rfl, fun _ => by simpa using hl⟩
  · rw [dif_neg h1]
    exact .inr ⟨rfl, fun h1' => absurd h1' h1⟩

theorem greater_child_max (hsw : StrictWeak is_less) {v : List α} {left_child : Nat} (h : left_child < v.length)
    {x : α} (hx : v[(greater_child is_less v left_child h).val]? = some x) :
    ∀ i b, left_child ≤ i → i ≤ left_child + 1 → v[i]? = some b → is_less x b = false := by
  intro i b hi1 hi2 hb
  have hib : i = left_child ∨ i = left_child + 1 := by omega
  rcases greater_child_cases v left_child h with ⟨hc, h1, hl⟩ | ⟨hc, hl⟩
  · rw [hc, List.getElem?_eq_getElem h1, Option.some_inj] at hx
    subst hx
    rcases hib with rfl | rfl
    · rw [List.getElem?_eq_getElem h, Option.some_inj] at hb
      rw [← hb]
      exact hsw.asymm hl
    · rw [List.getElem?_eq_getElem h1, Option.some_inj] at hb
      rw [← hb]
      exact hsw.irrefl _
  · rw [hc, List.getElem?_eq_getElem h, Option.some_inj] at hx
    subst hx
    rcases hib with rfl | rfl
    · rw [List.getElem?_eq_getElem h, Option.some_inj] at hb
      rw [← hb]
      exact hsw.irrefl _
    · have h1 := (List.getElem?_eq_some_iff.mp hb).1
      rw [List.getElem?_eq_getElem h1, Option.some_inj] at hb
      rw [← hb]
      exact hl h1

theorem sift_hole_spec (hsw : StrictWeak is_less) {tmp : α} {v : List α} {hole left_child k : Nat}
    (hlc : left_child = hole * 2 + 1) (hhl : hole < v.length) (o : DownOrder is_less v k hole tmp) :
    HeapFrom is_less (sift_hole is_less tmp v hole left_child) k ∧
      (sift_hole is_less tmp v hole left_child).Perm (v.set hole tmp) := by
  fun_induction sift_hole is_less tmp v hole left_child generalizing k with
  | case1 v hole lc h c hlt =>
    -- the greater child moves up and the hole moves down to it
    rename_i ih
    subst hlc
    have hx : v[c.val]? = some v[c] := List.getElem?_eq_getElem c.isLt
    have hcv := greater_child_val is_less v (hole * 2 + 1) h
    have hpc : parent c.val = hole := by
      rcases hcv with hc | hc <;> rw [hc]
      · exact parent_left hole
      · exact parent_right hole
    have hmax : ∀ i b, 0 < i → parent i = hole → v[i]? = some b → is_less v[c] b = false := by
      intro i b hi hpi hb
      have := child_of_parent hi hpi
      exact greater_child_max hsw h hx i b (by omega) (by omega) hb
    obtain ⟨hheap, hperm⟩ := ih rfl (by simp) (o.move hsw (by omega) hpc hx hmax hlt)
    exact ⟨hheap, hperm.trans (set_set_perm (by omega) hhl hx)⟩
  | case2 v hole lc h c =>
    -- no child comes after `tmp`
    rename_i hstop
    subst hlc
    refine ⟨o.finish hhl fun i b hi hpi hb => ?_, List.Perm.refl _⟩
    have hx : v[c.val]? = some v[c] := List.getElem?_eq_getElem c.isLt
    have := child_of_parent hi hpi
    exact hsw.not_trans (by simpa using hstop) (greater_child_max hsw h hx i b (by omega) (by omega) hb)
  | case3 v hole lc h =>
    -- the hole has no children
    subst hlc
    refine ⟨o.finish hhl fun i b hi hpi hb => ?_, List.Perm.refl _⟩
    have := child_of_parent hi hpi
    have := (List.getElem?_eq_some_iff.mp hb).1
    omega

theorem adjust_heap_spec (hsw : StrictWeak is_less) {v : List α} {k : Nat} (hk : k < v.length)
    (h : HeapFrom is_less v (k + 1)) :
    HeapFrom is_less (adjust_heap is_less v k) k ∧ (adjust_heap is_less v k).Perm v := by
  have hsift := sift_hole_spec hsw rfl hk (DownOrder.start h v[k])
  rw [List.set_getElem_self] at hsift
  rw [adjust_heap, List.getElem?_eq_getElem hk]
  exact hsift

theorem make_heap_from_spec (hsw : StrictWeak is_less) :
    ∀ (parent : Nat) (v : List α), parent < v.length → HeapFrom is_less v (parent + 1) →
      HeapFrom is_less (make_heap_from is_less v parent) 0 ∧ (make_heap_from is_less v parent).Perm v
  | 0, v, hk, h => adjust_heap_spec hsw hk h
  | parent + 1, v, hk, h => by
    obtain ⟨hheap, hperm⟩ := adjust_heap_spec hsw hk h
    obtain ⟨hheap', hperm'⟩ := make_heap_from_spec hsw parent (adjust_heap is_less v (parent + 1))
      (by rw [hperm.length_eq]; omega) hheap
    exact ⟨hheap', hperm'.trans hperm⟩

theorem make_heap_spec (hsw : StrictWeak is_less) (v : List α) :
    HeapFrom is_less (make_heap is_less v) 0 ∧ (make_heap is_less v).Perm v := by
  unfold make_heap
  split
  · exact ⟨heapFrom_of_length_le (by omega), List.Perm.refl v⟩
  · -- past the last parent every position is a leaf
    exact make_heap_from_spec hsw _ v (by omega) (heapFrom_of_length_le (by omega))

end HeapSpec

structure TopKSorter (α : Type) where
  data : List α
  limit : Nat
  asc : Bool
  deriving Repr

section Sorter

variable [LinearOrder α]

-- the `is_less` of `make_heap` and `adjust`: `|a, b| a.cmp(b) == ordering`
def is_less (ordering : Ordering) (a b : α) : Bool := compare a b == ordering

namespace TopKSorter

def new (limit : Nat) (asc : Bool) : TopKSorter α := ⟨[], limit, asc⟩

def ordering (s : TopKSorter α) : Ordering := if s.asc then .lt else Ordering.lt.swap

def make_heap (s : TopKSorter α) : TopKSorter α :=
  { s with data := Expression.make_heap (is_less s.ordering) s.data }

def adjust (s : TopKSorter α) : TopKSorter α :=
  { s with data := adjust_heap (is_less s.ordering) s.data 0 }

-- `self.data[0]` panics on an empty heap
def push_value (s : TopKSorter α) (value : α) : Option (TopKSorter α × Bool) :=
  match s.data with
  | [] => none
  | data :: _ =>
      if compare data value != s.ordering then some ({ s with data := s.data.set 0 value }.adjust, true)
      else some (s, false)

-- one round of the loop of `push_column_internal`; `bitmap.get(i)` past the bitmap panics
def push_row (acc : TopKSorter α × List Bool) (row : α × Nat) : Option (TopKSorter α × List Bool) :=
  match acc, row with
  | (s, bitmap), (value, i) =>
      match bitmap[i]? with
      | none => none
      | some false => some (s, bitmap)
      | some true =>
          if s.data.length < s.limit then
            let s := { s with data := s.data ++ [value] }
            some (if s.data.length = s.limit then s.make_heap else s, bitmap)
          else
            match s.push_value value with
            | none => none
            | some (s, true) => some (s, bitmap)
            | some (s, false) => some (s, bitmap.set i false)

def push_column_internal (s : TopKSorter α) (col : List α) (bitmap : List Bool) :
    Option (TopKSorter α × List Bool) :=
  col.zipIdx.foldlM push_row (s, bitmap)

-- `self.data[0]` panics on a full heap of `limit` 0
def never_match (s : TopKSorter α) (min max : α) : Option Bool :=
  if s.data.length ≠ s.limit then some false
  else
    match s.data with
    | [] => none
    | data :: _ => some ((s.asc && decide (data < min)) || (!s.asc && decide (data > max)))

def never_match_value (s : TopKSorter α) (val : α) : Option Bool :=
  if s.data.length ≠ s.limit then some false
  else
    match s.data with
    | [] => none
    | data :: _ => some ((s.asc && decide (data < val)) || (!s.asc && decide (data > val)))

def never_match_any_internal (s : TopKSorter α) (col : List α) : Option Bool :=
  match s.data with
  | [] => none
  | data :: _ => some (col.all fun val => !((s.asc && decide (data ≥ val)) || (!s.asc && decide (data ≤ val))))

def never_match_any (s : TopKSorter α) (col : List α) : Option Bool :=
  if s.data.length ≠ s.limit then some false else s.never_match_any_internal col

end TopKSorter

section Order

open BinaryHeap

-- `a` comes strictly before `b` in the order the query asks for
def before (asc : Bool) (a b : α) : Prop := if asc then a < b else b < a

instance instDecidableBefore (asc : Bool) (a b : α) : Decidable (before asc a b) :=
  inferInstanceAs (Decidable (if asc then a < b else b < a))

theorem is_less_ordering (s : TopKSorter α) (a b : α) :
    is_less s.ordering a b = decide (before s.asc a b) := by
  rw [is_less, Bool.eq_iff_iff, beq_iff_eq, decide_eq_true_iff]
  unfold TopKSorter.ordering before
  cases s.asc <;> simp only [Bool.false_eq_true, ↓reduceIte, Ordering.swap]
  · exact compare_gt_iff_gt
  · exact compare_lt_iff_lt

theorem before_irrefl (asc : Bool) (a : α) : ¬before asc a a := by
  unfold before
  split <;> exact lt_irrefl a

theorem before_asymm {asc : Bool} {a b : α} (h : before asc a b) : ¬before asc b a := by
  cases asc <;> simp only [before, Bool.false_eq_true, ↓reduceIte] at * <;> exact lt_asymm h

theorem before_of_not_before {asc : Bool} {r x v : α} (hx : ¬before asc r x) (hv : before asc r v) :
    before asc x v := by
  cases asc <;> simp only [before, Bool.false_eq_true, ↓reduceIte] at * <;> order

theorem not_before_trans {asc : Bool} {a b c : α} (hab : ¬before asc a b) (hbc : ¬before asc b c) :
    ¬before asc a c := by
  cases asc <;> simp only [before, Bool.false_eq_true, ↓reduceIte] at * <;> order

theorem before_trans {asc : Bool} {a b c : α} (hab : before asc a b) (hbc : before asc b c) : before asc a c := by
  cases asc <;> simp only [before, Bool.false_eq_true, ↓reduceIte] at * <;> order

theorem before_of_never_match {asc : Bool} {r min max v : α}
    (h : ((asc && decide (r < min)) || (!asc && decide (r > max))) = true) (h1 : min ≤ v) (h2 : v ≤ max) :
    before asc r v := by
  cases asc <;> simp only [before, Bool.true_and, Bool.false_and, Bool.not_true, Bool.not_false,
    Bool.or_false, Bool.false_or, decide_eq_true_iff, Bool.false_eq_true, ↓reduceIte] at h ⊢ <;> order

theorem before_of_never_match_any {asc : Bool} {r v : α}
    (h : (!((asc && decide (r ≥ v)) || (!asc && decide (r ≤ v)))) = true) : before asc r v := by
  cases asc <;> simp only [before, Bool.true_and, Bool.false_and, Bool.not_true, Bool.not_false,
    Bool.or_false, Bool.false_or, Bool.false_eq_true, ↓reduceIte, Bool.not_eq_true',
    decide_eq_false_iff_not] at h ⊢ <;> order

theorem TopKSorter.strictWeak (s : TopKSorter α) : StrictWeak (is_less (α := α) s.ordering) where
  irrefl a := by rw [is_less_ordering, decide_eq_false_iff_not]; exact before_irrefl _ a
  asymm h := by
    rw [is_less_ordering, decide_eq_true_iff] at h
    rw [is_less_ordering, decide_eq_false_iff_not]
    exact before_asymm h
  not_trans h1 h2 := by
    rw [is_less_ordering, decide_eq_false_iff_not] at h1 h2 ⊢
    exact not_before_trans h1 h2

end Order

section Step

namespace TopKSorter

-- what a round of `push_column_internal` does with a row whose bit is `bit`
def push_bit (s : TopKSorter α) (value : α) (bit : Bool) : Option (TopKSorter α × Bool) :=
  if bit then
    if s.data.length < s.limit then
      let s := { s with data := s.data ++ [value] }
      some (if s.data.length = s.limit then s.make_heap else s, true)
    else s.push_value value
  else some (s, false)

theorem push_value_of_cons {s : TopKSorter α} {r : α} {rest : List α} (hdata : s.data = r :: rest) (value : α) :
    s.push_value value =
      if compare r value != s.ordering then some ({ s with data := s.data.set 0 value }.adjust, true)
      else some (s, false) := by
  unfold push_value
  rw [hdata]

theorem push_row_eq (s : TopKSorter α) (value : α) (pre rest : List Bool) (bit : Bool) :
    push_row (s, pre ++ bit :: rest) (value, pre.length) =
      (s.push_bit value bit).map fun p => (p.1, pre ++ p.2 :: rest) := by
  have hget : (pre ++ bit :: rest)[pre.length]? = some bit := by simp
  have hset : (pre ++ true :: rest).set pre.length false = pre ++ false :: rest := by simp
  unfold push_row push_bit
  dsimp only
  rw [hget]
  cases bit
  · rfl
  · dsimp only
    split
    · rfl
    · cases hpv : s.push_value value with
      | none => rfl
      | some p =>
        obtain ⟨s', kept⟩ := p
        cases kept
        · simp [hset]
        · rfl

end TopKSorter

end Step

omit [LinearOrder α] in
-- the rows of a run of pages, each as (value, bit before, bit after)
def run_rows (pages : List (List α × List Bool)) (bitmaps : List (List Bool)) : List (α × Bool × Bool) :=
  (pages.zip bitmaps).flatMap fun p => p.1.1.zip (p.1.2.zip p.2)

section Run

open BinaryHeap

namespace TopKSorter

-- the rows pushed so far, each as (value, bit before, bit after): the heap holds values of kept
-- rows, `limit` of them once `limit` rows were selected, and a row is only cleared behind `limit`
-- kept rows that come before it
structure Holds (s : TopKSorter α) (rows : List (α × Bool × Bool)) : Prop where
  heap : s.data.length = s.limit → HeapFrom (is_less s.ordering) s.data 0
  held : s.data.Subperm ((rows.filter fun r => r.2.2).map Prod.fst)
  size : s.data.length = min s.limit (rows.countP fun r => r.2.1)
  cleared_only : ∀ r ∈ rows, r.2.2 = true → r.2.1 = true
  sound : ∀ r ∈ rows, r.2.1 = true → r.2.2 = false →
    s.limit ≤ rows.countP fun r' => r'.2.2 && decide (before s.asc r'.1 r.1)

omit [LinearOrder α] in
theorem countP_kept (rows : List (α × Bool × Bool)) (p : α → Bool) :
    ((rows.filter fun r => r.2.2).map Prod.fst).countP p = rows.countP fun r => r.2.2 && p r.1 := by
  rw [List.countP_map, List.countP_filter]
  congr 1
  funext r
  exact Bool.and_comm _ _

theorem Holds.nil (s : TopKSorter α) (h : s.data = []) : s.Holds [] where
  heap hl := by
    rw [h]
    exact heapFrom_of_length_le (by simp)
  held := by rw [h]; exact List.nil_subperm
  size := by simp [h]
  cleared_only _ hr := absurd hr List.not_mem_nil
  sound _ hr := absurd hr List.not_mem_nil

variable {s : TopKSorter α} {rows : List (α × Bool × Bool)}

theorem Holds.sound_append (h : s.Holds rows) (row : α × Bool × Bool) :
    ∀ r ∈ rows, r.2.1 = true → r.2.2 = false →
      s.limit ≤ (rows ++ [row]).countP fun r' => r'.2.2 && decide (before s.asc r'.1 r.1) := by
  intro r hr h1 h2
  rw [List.countP_append]
  exact (h.sound r hr h1 h2).trans (Nat.le_add_right _ _)

theorem Holds.skip (h : s.Holds rows) (value : α) : s.Holds (rows ++ [(value, false, false)]) where
  heap := h.heap
  held := by simpa using h.held
  size := by simpa using h.size
  cleared_only r hr hkept := by
    rcases List.mem_append.mp hr with hr | hr
    · exact h.cleared_only r hr hkept
    · simp only [List.mem_singleton] at hr
      simp [hr] at hkept
  sound r hr h1 h2 := by
    rcases List.mem_append.mp hr with hr | hr
    · exact h.sound_append _ r hr h1 h2
    · simp only [List.mem_singleton] at hr
      simp [hr] at h1

theorem Holds.keep (h : s.Holds rows) {s' : TopKSorter α} {value : α} (hlimit : s'.limit = s.limit)
    (hasc : s'.asc = s.asc) (hsub : s'.data.Subperm (s.data ++ [value]))
    (hsize : s'.data.length = min s.limit ((rows.countP fun r => r.2.1) + 1))
    (hheap : s'.data.length = s'.limit → HeapFrom (is_less s'.ordering) s'.data 0) :
    s'.Holds (rows ++ [(value, true, true)]) where
  heap := hheap
  held := by
    refine hsub.trans ?_
    simpa using List.Subperm.append h.held (List.Subperm.refl [value])
  size := by simpa [hlimit] using hsize
  cleared_only r hr hkept := by
    rcases List.mem_append.mp hr with hr | hr
    · exact h.cleared_only r hr hkept
    · simp only [List.mem_singleton] at hr
      simp [hr]
  sound r hr h1 h2 := by
    rw [hlimit, hasc]
    rcases List.mem_append.mp hr with hr | hr
    · exact h.sound_append _ r hr h1 h2
    · simp only [List.mem_singleton] at hr
      simp [hr] at h2

theorem Holds.limit_le_of_root (h : s.Holds rows) (hfull : s.data.length = s.limit) {r value : α}
    {rest : List α} (hdata : s.data = r :: rest) (hlt : before s.asc r value) :
    s.limit ≤ rows.countP fun r' => r'.2.2 && decide (before s.asc r'.1 value) := by
  have hroot := (h.heap hfull).root_mem s.strictWeak (hdata ▸ rfl : s.data[0]? = some r)
  have hall : ∀ x ∈ s.data, decide (before s.asc x value) = true := by
    intro x hx
    have := hroot x hx
    rw [is_less_ordering, decide_eq_false_iff_not] at this
    exact decide_eq_true (before_of_not_before this hlt)
  calc s.limit = s.data.countP fun x => decide (before s.asc x value) := by
        rw [List.countP_eq_length.mpr hall, hfull]
    _ ≤ ((rows.filter fun r => r.2.2).map Prod.fst).countP fun x => decide (before s.asc x value) :=
        List.Subperm.countP_le _ h.held
    _ = rows.countP fun r' => r'.2.2 && decide (before s.asc r'.1 value) := countP_kept _ _

theorem Holds.clear (h : s.Holds rows) (hfull : s.data.length = s.limit) {r value : α} {rest : List α}
    (hdata : s.data = r :: rest) (hlt : is_less s.ordering r value = true) :
    s.Holds (rows ++ [(value, true, false)]) where
  heap := h.heap
  held := by simpa using h.held
  size := by
    have := h.size
    simp only [List.countP_append, List.countP_singleton, ↓reduceIte]
    omega
  cleared_only r' hr hkept := by
    rcases List.mem_append.mp hr with hr | hr
    · exact h.cleared_only r' hr hkept
    · simp only [List.mem_singleton] at hr
      simp [hr] at hkept
  sound r' hr h1 h2 := by
    rcases List.mem_append.mp hr with hr | hr
    · exact h.sound_append _ r' hr h1 h2
    · simp only [List.mem_singleton] at hr
      subst hr
      rw [is_less_ordering, decide_eq_true_iff] at hlt
      refine (h.limit_le_of_root hfull hdata hlt).trans ?_
      rw [List.countP_append]
      exact Nat.le_add_right _ _

theorem Holds.replace_root (h : s.Holds rows) (hfull : s.data.length = s.limit) {r : α} {rest : List α}
    (hdata : s.data = r :: rest) (value : α) :
    (TopKSorter.adjust { s with data := s.data.set 0 value }).Holds (rows ++ [(value, true, true)]) := by
  let s1 : TopKSorter α := { s with data := s.data.set 0 value }
  have hset : s1.data = value :: rest := by simp [s1, hdata]
  have hfrom : HeapFrom (is_less s1.ordering) s1.data (0 + 1) :=
    ((h.heap hfull).mono (Nat.zero_le 1)).set_lt Nat.zero_lt_one value
  obtain ⟨hheap, hperm⟩ := adjust_heap_spec s1.strictWeak (by rw [hset]; simp) hfrom
  have hsub : (value :: rest).Subperm (s.data ++ [value]) := by
    rw [hdata]
    exact ⟨rest ++ [value], List.perm_append_singleton value rest,
      (List.sublist_cons_self r rest).append_right [value]⟩
  refine h.keep rfl rfl ?_ ?_ fun _ => hheap
  · exact hperm.subperm.trans (hset ▸ hsub)
  · -- the heap stays full: as many rows were selected as it holds
    have hsize := h.size
    rw [show s1.adjust.data = adjust_heap (is_less s1.ordering) s1.data 0 from rfl, hperm.length_eq, hset]
    rw [hdata] at hfull hsize
    simp only [List.length_cons] at hfull hsize ⊢
    omega

theorem Holds.push_bit (h : s.Holds rows) (hpos : 0 < s.limit) (value : α) (bit : Bool) :
    ∃ s' bit', s.push_bit value bit = some (s', bit') ∧ s'.limit = s.limit ∧ s'.asc = s.asc ∧
      s'.Holds (rows ++ [(value, bit, bit')]) := by
  have hsize := h.size
  cases bit with
  | false => exact ⟨s, false, rfl, rfl, rfl, h.skip value⟩
  | true =>
    by_cases hlt : s.data.length < s.limit
    · -- the heap is not full: the row joins it, and it is made a heap once full
      have hc : (rows.countP fun r => r.2.1) = s.data.length := by omega
      let s1 : TopKSorter α := { s with data := s.data ++ [value] }
      have hlen : s1.data.length = min s.limit ((rows.countP fun r => r.2.1) + 1) := by
        simp only [s1, List.length_append, List.length_singleton]
        omega
      have heq : s.push_bit value true = some (if s1.data.length = s1.limit then s1.make_heap else s1, true) := by
        rw [TopKSorter.push_bit, if_pos rfl, if_pos hlt]
      by_cases hfull : s1.data.length = s1.limit
      · obtain ⟨hheap, hperm⟩ := make_heap_spec s1.strictWeak s1.data
        rw [if_pos hfull] at heq
        exact ⟨_, true, heq, rfl, rfl, h.keep rfl rfl hperm.subperm (hperm.length_eq.trans hlen) fun _ => hheap⟩
      · rw [if_neg hfull] at heq
        exact ⟨_, true, heq, rfl, rfl, h.keep rfl rfl (List.Subperm.refl _) hlen fun he => absurd he hfull⟩
    · have hfull : s.data.length = s.limit := by omega
      obtain ⟨r, rest, hdata⟩ := List.exists_cons_of_length_pos (show 0 < s.data.length by omega)
      by_cases hkeep : (compare r value != s.ordering) = true
      · -- the row takes the root's place and sinks from there
        have hpv : s.push_value value = some (TopKSorter.adjust { s with data := s.data.set 0 value }, true) := by
          rw [push_value_of_cons hdata, if_pos hkeep]
        have heq : s.push_bit value true = some (TopKSorter.adjust { s with data := s.data.set 0 value }, true) := by
          rw [TopKSorter.push_bit, if_pos rfl, if_neg hlt, hpv]
        exact ⟨_, true, heq, rfl, rfl, h.replace_root hfull hdata value⟩
      · -- the root comes before the row: its bit is cleared
        have hpv : s.push_value value = some (s, false) := by
          rw [push_value_of_cons hdata, if_neg hkeep]
        have heq : s.push_bit value true = some (s, false) := by
          rw [TopKSorter.push_bit, if_pos rfl, if_neg hlt, hpv]
        have hless : is_less s.ordering r value = true := by simpa [is_less] using hkeep
        exact ⟨s, false, heq, rfl, rfl, h.clear hfull hdata hless⟩

theorem Holds.push_rows (h : s.Holds rows) (hpos : 0 < s.limit) (col : List α) (pre rest : List Bool)
    (hlen : rest.length = col.length) :
    ∃ s' out, (col.zipIdx pre.length).foldlM push_row (s, pre ++ rest) = some (s', pre ++ out) ∧
      out.length = rest.length ∧ s'.limit = s.limit ∧ s'.asc = s.asc ∧
      s'.Holds (rows ++ col.zip (rest.zip out)) := by
  induction col generalizing s rows pre rest with
  | nil =>
    obtain rfl : rest = [] := List.eq_nil_of_length_eq_zero hlen
    exact ⟨s, [], rfl, rfl, rfl, rfl, by simpa using h⟩
  | cons value col ih =>
    obtain ⟨bit, rest, rfl⟩ := List.exists_cons_of_length_pos (show 0 < rest.length by simp [hlen])
    obtain ⟨s1, bit1, hstep, hl1, ha1, h1⟩ := h.push_bit hpos value bit
    obtain ⟨s2, out, hfold, hlen2, hl2, ha2, h2⟩ :=
      ih h1 (hl1 ▸ hpos) (pre ++ [bit1]) rest (by simpa using hlen)
    have happ : pre ++ bit1 :: rest = (pre ++ [bit1]) ++ rest := by simp
    refine ⟨s2, bit1 :: out, ?_, by simp [hlen2], hl2.trans hl1, ha2.trans ha1, by simpa using h2⟩
    rw [List.zipIdx_cons, List.foldlM_cons, push_row_eq, hstep]
    simp only [Option.map_some, Option.bind_eq_bind, Option.bind_some]
    rw [happ]
    simpa using hfold

theorem Holds.push_column_internal (h : s.Holds rows) (hpos : 0 < s.limit) (col : List α) (bitmap : List Bool)
    (hlen : bitmap.length = col.length) :
    ∃ s' out, s.push_column_internal col bitmap = some (s', out) ∧ out.length = bitmap.length ∧
      s'.limit = s.limit ∧ s'.asc = s.asc ∧ s'.Holds (rows ++ col.zip (bitmap.zip out)) := by
  obtain ⟨s', out, hfold, hrest⟩ := h.push_rows hpos col [] bitmap hlen
  exact ⟨s', out, hfold, hrest⟩

-- a run of `push_column` calls, one for each page (column and bitmap) in order
def push_columns (s : TopKSorter α) : List (List α × List Bool) → Option (TopKSorter α × List (List Bool))
  | [] => some (s, [])
  | (col, bitmap) :: pages => do
      let (s, bitmap) ← s.push_column_internal col bitmap
      let (s, bitmaps) ← s.push_columns pages
      pure (s, bitmap :: bitmaps)

theorem Holds.push_columns (h : s.Holds rows) (hpos : 0 < s.limit) (pages : List (List α × List Bool))
    (hlen : ∀ p ∈ pages, p.2.length = p.1.length) :
    ∃ s' bitmaps, s.push_columns pages = some (s', bitmaps) ∧ s'.limit = s.limit ∧ s'.asc = s.asc ∧
      List.Forall₂ (fun p b => b.length = p.2.length) pages bitmaps ∧
      s'.Holds (rows ++ run_rows pages bitmaps) := by
  induction pages generalizing s rows with
  | nil => exact ⟨s, [], rfl, rfl, rfl, List.Forall₂.nil, by simpa [run_rows] using h⟩
  | cons p pages ih =>
    obtain ⟨col, bitmap⟩ := p
    obtain ⟨s1, out, hcol, hlen1, hl1, ha1, h1⟩ :=
      h.push_column_internal hpos col bitmap (hlen _ List.mem_cons_self)
    obtain ⟨s2, bitmaps, hrun, hl2, ha2, hall, h2⟩ :=
      ih h1 (hl1 ▸ hpos) fun q hq => hlen q (List.mem_cons_of_mem _ hq)
    refine ⟨s2, out :: bitmaps, ?_, hl2.trans hl1, ha2.trans ha1, List.Forall₂.cons hlen1 hall, ?_⟩
    · simp only [TopKSorter.push_columns, hcol, hrun, Option.bind_eq_bind, Option.bind_some]
      rfl
    · simpa [run_rows, List.append_assoc] using h2

theorem Holds.min_count_eq (h : s.Holds rows) (t : α) :
    min s.limit (rows.countP fun r => r.2.2 && !decide (before s.asc t r.1)) =
      min s.limit (rows.countP fun r => r.2.1 && !decide (before s.asc t r.1)) := by
  have hle : (rows.countP fun r => r.2.2 && !decide (before s.asc t r.1)) ≤
      rows.countP fun r => r.2.1 && !decide (before s.asc t r.1) := by
    refine List.countP_mono_left fun r hr hk => ?_
    simp only [Bool.and_eq_true] at hk ⊢
    exact ⟨h.cleared_only r hr hk.1, hk.2⟩
  by_cases heq : (rows.countP fun r => r.2.2 && !decide (before s.asc t r.1)) =
      rows.countP fun r => r.2.1 && !decide (before s.asc t r.1)
  · rw [heq]
  · -- a selected row at or before `t` was cleared, behind `limit` kept rows, all before `t`
    obtain ⟨r, hr, hsel, hkept⟩ : ∃ r ∈ rows, (r.2.1 && !decide (before s.asc t r.1)) = true ∧
        ¬(r.2.2 && !decide (before s.asc t r.1)) = true := by
      by_contra hno
      push Not at hno
      exact heq (le_antisymm hle (List.countP_mono_left hno))
    simp only [Bool.and_eq_true, Bool.not_eq_true', decide_eq_false_iff_not] at hsel hkept
    have hcleared : r.2.2 = false := by simpa [hsel.2] using hkept
    have hlim := h.sound r hr hsel.1 hcleared
    have hmono : (rows.countP fun r' => r'.2.2 && decide (before s.asc r'.1 r.1)) ≤
        rows.countP fun r' => r'.2.2 && !decide (before s.asc t r'.1) := by
      refine List.countP_mono_left fun x _ hx => ?_
      simp only [Bool.and_eq_true, decide_eq_true_iff, Bool.not_eq_true', decide_eq_false_iff_not] at hx ⊢
      exact ⟨hx.1, fun htx => hsel.2 (before_trans htx hx.2)⟩
    omega

theorem Holds.check_sound (h : s.Holds rows) (hpos : 0 < s.limit) (o : Option Bool) (cond : α → Bool)
    (vals : α → Prop) (hnot : s.data.length ≠ s.limit → o = some false)
    (hfull : ∀ r rest, s.data.length = s.limit → s.data = r :: rest → o = some (cond r))
    (hcond : ∀ r, cond r = true → ∀ v, vals v → before s.asc r v) :
    ∃ b, o = some b ∧ (b = true → ∀ v, vals v →
      s.limit ≤ rows.countP fun r' => r'.2.2 && decide (before s.asc r'.1 v)) := by
  by_cases hl : s.data.length = s.limit
  · obtain ⟨r, rest, hdata⟩ := List.exists_cons_of_length_pos (show 0 < s.data.length by omega)
    exact ⟨cond r, hfull r rest hl hdata, fun hb v hv => h.limit_le_of_root hl hdata (hcond r hb v hv)⟩
  · exact ⟨false, hnot hl, fun hb => absurd hb Bool.false_ne_true⟩

end TopKSorter

end Run

section Exact

theorem top_k_sorter_push_sound (limit : Nat) (hlimit : 0 < limit) (asc : Bool)
    (pages : List (List α × List Bool)) (hlen : ∀ p ∈ pages, p.2.length = p.1.length) :
    ∃ s bitmaps, (TopKSorter.new limit asc).push_columns pages = some (s, bitmaps) ∧
      List.Forall₂ (fun p b => b.length = p.2.length) pages bitmaps ∧
      (∀ r ∈ run_rows pages bitmaps, r.2.2 = true → r.2.1 = true) ∧
      (∀ r ∈ run_rows pages bitmaps, r.2.1 = true → r.2.2 = false →
        limit ≤ (run_rows pages bitmaps).countP fun r' => r'.2.2 && decide (before asc r'.1 r.1)) ∧
      ∀ t, min limit ((run_rows pages bitmaps).countP fun r => r.2.2 && !decide (before asc t r.1)) =
        min limit ((run_rows pages bitmaps).countP fun r => r.2.1 && !decide (before asc t r.1)) := by
  obtain ⟨s, bitmaps, hrun, hl, ha, hall, h⟩ :=
    (TopKSorter.Holds.nil (TopKSorter.new limit asc) rfl).push_columns hlimit pages hlen
  rw [List.nil_append] at h
  refine ⟨s, bitmaps, hrun, hall, h.cleared_only, fun r hr h1 h2 => ?_, fun t => ?_⟩
  · simpa [hl, ha, TopKSorter.new] using h.sound r hr h1 h2
  · simpa [hl, ha, TopKSorter.new] using h.min_count_eq t

theorem top_k_sorter_push_sound_two_pages :
    ∃ s bitmaps, (TopKSorter.new 2 true).push_columns [([5, 1, 3], [true, true, true]), ([4, 0], [true, false])] =
        some (s, bitmaps) ∧
      List.Forall₂ (fun p b => b.length = p.2.length)
        [([5, 1, 3], [true, true, true]), ([4, 0], [true, false])] bitmaps ∧
      (∀ r ∈ run_rows [([5, 1, 3], [true, true, true]), ([4, 0], [true, false])] bitmaps,
        r.2.2 = true → r.2.1 = true) ∧
      (∀ r ∈ run_rows [([5, 1, 3], [true, true, true]), ([4, 0], [true, false])] bitmaps,
        r.2.1 = true → r.2.2 = false →
        2 ≤ (run_rows [([5, 1, 3], [true, true, true]), ([4, 0], [true, false])] bitmaps).countP
          fun r' => r'.2.2 && decide (before true r'.1 r.1)) ∧
      ∀ t : Nat, min 2 ((run_rows [([5, 1, 3], [true, true, true]), ([4, 0], [true, false])] bitmaps).countP
          fun r => r.2.2 && !decide (before true t r.1)) =
        min 2 ((run_rows [([5, 1, 3], [true, true, true]), ([4, 0], [true, false])] bitmaps).countP
          fun r => r.2.1 && !decide (before true t r.1)) :=
  top_k_sorter_push_sound 2 (by decide) true [([5, 1, 3], [true, true, true]), ([4, 0], [true, false])]
    (by decide)

theorem top_k_never_match_sound (limit : Nat) (hlimit : 0 < limit) (asc : Bool)
    (pages : List (List α × List Bool)) (hlen : ∀ p ∈ pages, p.2.length = p.1.length) :
    ∃ s bitmaps, (TopKSorter.new limit asc).push_columns pages = some (s, bitmaps) ∧
      (∀ min max, ∃ b, s.never_match min max = some b ∧ (b = true → ∀ v, min ≤ v → v ≤ max →
        limit ≤ (run_rows pages bitmaps).countP fun r => r.2.2 && decide (before asc r.1 v))) ∧
      (∀ val, ∃ b, s.never_match_value val = some b ∧ (b = true →
        limit ≤ (run_rows pages bitmaps).countP fun r => r.2.2 && decide (before asc r.1 val))) ∧
      (∀ col, ∃ b, s.never_match_any col = some b ∧ (b = true → ∀ v ∈ col,
        limit ≤ (run_rows pages bitmaps).countP fun r => r.2.2 && decide (before asc r.1 v))) := by
  obtain ⟨s, bitmaps, hrun, hl, ha, -, h⟩ :=
    (TopKSorter.Holds.nil (TopKSorter.new limit asc) rfl).push_columns hlimit pages hlen
  rw [List.nil_append] at h
  have hlim : s.limit = limit := hl
  have hasc : s.asc = asc := ha
  subst hlim hasc
  refine ⟨s, bitmaps, hrun, fun min max => ?_, fun val => ?_, fun col => ?_⟩
  · -- the block's values lie between `min` and `max`, all after the root
    obtain ⟨b, hb, himp⟩ := h.check_sound hlimit (s.never_match min max)
      (fun r => (s.asc && decide (r < min)) || (!s.asc && decide (r > max))) (fun v => min ≤ v ∧ v ≤ max)
      (fun hn => by unfold TopKSorter.never_match; rw [if_pos hn])
      (fun r rest hl hd => by unfold TopKSorter.never_match; rw [if_neg fun hn => hn hl, hd])
      (fun r hr v hv => before_of_never_match hr hv.1 hv.2)
    exact ⟨b, hb, fun hb' v h1 h2 => himp hb' v ⟨h1, h2⟩⟩
  · obtain ⟨b, hb, himp⟩ := h.check_sound hlimit (s.never_match_value val)
      (fun r => (s.asc && decide (r < val)) || (!s.asc && decide (r > val))) (fun v => v = val)
      (fun hn => by unfold TopKSorter.never_match_value; rw [if_pos hn])
      (fun r rest hl hd => by unfold TopKSorter.never_match_value; rw [if_neg fun hn => hn hl, hd])
      (fun r hr v hv => hv ▸ before_of_never_match hr le_rfl le_rfl)
    exact ⟨b, hb, fun hb' => himp hb' val rfl⟩
  · -- every value of the column comes after the root
    exact h.check_sound hlimit (s.never_match_any col)
      (fun r => col.all fun val => !((s.asc && decide (r ≥ val)) || (!s.asc && decide (r ≤ val))))
      (fun v => v ∈ col)
      (fun hn => by unfold TopKSorter.never_match_any; rw [if_pos hn])
      (fun r rest hl hd => by
        unfold TopKSorter.never_match_any TopKSorter.never_match_any_internal
        rw [if_neg fun hn => hn hl, hd])
      (fun r hr v hv => before_of_never_match_any (List.all_eq_true.mp hr v hv))

theorem top_k_never_match_sound_two_pages :
    ∃ s bitmaps, (TopKSorter.new 2 true).push_columns [([5, 1, 3], [true, true, true]), ([4, 0], [true, false])] =
        some (s, bitmaps) ∧
      (∀ min max : Nat, ∃ b, s.never_match min max = some b ∧ (b = true → ∀ v, min ≤ v → v ≤ max →
        2 ≤ (run_rows [([5, 1, 3], [true, true, true]), ([4, 0], [true, false])] bitmaps).countP
          fun r => r.2.2 && decide (before true r.1 v))) ∧
      (∀ val : Nat, ∃ b, s.never_match_value val = some b ∧ (b = true →
        2 ≤ (run_rows [([5, 1, 3], [true, true, true]), ([4, 0], [true, false])] bitmaps).countP
          fun r => r.2.2 && decide (before true r.1 val))) ∧
      (∀ col : List Nat, ∃ b, s.never_match_any col = some b ∧ (b = true → ∀ v ∈ col,
        2 ≤ (run_rows [([5, 1, 3], [true, true, true]), ([4, 0], [true, false])] bitmaps).countP
          fun r => r.2.2 && decide (before true r.1 v))) :=
  top_k_never_match_sound 2 (by decide) true [([5, 1, 3], [true, true, true]), ([4, 0], [true, false])]
    (by decide)

end Exact

end Sorter

end Databend.Expression
