import Mathlib
import Databend.Library.ExceptM

namespace KMerge

variable {α K M S : Type}

def coalesceFrom (f : α → α → Except (α × α) α) : α → List α → List α
  | acc, [] => [acc]
  | acc, x :: xs =>
      match f acc x with
      | .ok c => coalesceFrom f c xs
      | .error (p, q) => p :: coalesceFrom f q xs

def coalesce (f : α → α → Except (α × α) α) : List α → List α
  | [] => []
  | x :: xs => coalesceFrom f x xs

section Greater

variable [LinearOrder K] [LinearOrder S]

def pickGreater (rank : M → S) (a b : K × M) : Except ((K × M) × (K × M)) (K × M) :=
  if a.1 = b.1 then .ok (a.1, if rank a.2 > rank b.2 then a.2 else b.2) else .error (a, b)

def KeyRankLE (rank : M → S) (a b : K × M) : Prop :=
  a.1 < b.1 ∨ (a.1 = b.1 ∧ rank a.2 ≤ rank b.2)

instance (rank : M → S) (a b : K × M) : Decidable (KeyRankLE rank a b) := by
  unfold KeyRankLE; infer_instance

theorem keyRankLE_total (rank : M → S) (a b : K × M) : KeyRankLE rank a b ∨ KeyRankLE rank b a := by
  unfold KeyRankLE
  rcases lt_trichotomy a.1 b.1 with h | h | h
  · exact .inl (.inl h)
  · rcases le_total (rank a.2) (rank b.2) with h' | h'
    · exact .inl (.inr ⟨h, h'⟩)
    · exact .inr (.inr ⟨h.symm, h'⟩)
  · exact .inr (.inl h)

theorem keyRankLE_trans (rank : M → S) {a b c : K × M} :
    KeyRankLE rank a b → KeyRankLE rank b c → KeyRankLE rank a c := by
  unfold KeyRankLE
  rintro (h1 | ⟨h1, h1'⟩) (h2 | ⟨h2, h2'⟩)
  · exact .inl (h1.trans h2)
  · exact .inl (h2 ▸ h1)
  · exact .inl (h1 ▸ h2)
  · exact .inr ⟨h1.trans h2, h1'.trans h2'⟩

theorem keyRankLE_key_le {rank : M → S} {a b : K × M} (h : KeyRankLE rank a b) : a.1 ≤ b.1 := by
  rcases h with h | ⟨h, -⟩
  · exact h.le
  · exact h.le

theorem pickGreater_mem {rank : M → S} {a b c : K × M} (h : pickGreater rank a b = .ok c) :
    c = a ∨ c = b := by
  unfold pickGreater at h
  split_ifs at h with hk hr
  · cases h; exact .inl rfl
  · cases h; exact .inr (Prod.ext hk rfl)

theorem pickGreater_key {rank : M → S} {a b c : K × M} (h : pickGreater rank a b = .ok c) :
    c.1 = a.1 ∧ a.1 = b.1 := by
  unfold pickGreater at h
  split_ifs at h with hk <;> cases h <;> exact ⟨rfl, hk⟩

theorem pickGreater_error {rank : M → S} {a b p q : K × M}
    (h : pickGreater rank a b = .error (p, q)) : p = a ∧ q = b ∧ a.1 ≠ b.1 := by
  unfold pickGreater at h
  split_ifs at h with hk
  cases h; exact ⟨rfl, rfl, hk⟩

theorem pickGreater_of_le {rank : M → S} {a b : K × M} (hk : a.1 = b.1)
    (hr : rank a.2 ≤ rank b.2) : pickGreater rank a b = .ok b := by
  simp [pickGreater, hk, not_lt.mpr hr]

theorem coalesceFrom_mem (rank : M → S) {acc e : K × M} {xs : List (K × M)}
    (h : e ∈ coalesceFrom (pickGreater rank) acc xs) : e ∈ acc :: xs := by
  induction xs generalizing acc with
  | nil => simpa [coalesceFrom] using h
  | cons x xs ih =>
      simp only [coalesceFrom] at h
      split at h
      · rename_i c hc
        rcases List.mem_cons.mp (ih h) with rfl | he
        · rcases pickGreater_mem hc with rfl | rfl <;> simp
        · simp [he]
      · rename_i p q hpq
        obtain ⟨rfl, rfl, -⟩ := pickGreater_error hpq
        rcases List.mem_cons.mp h with rfl | h
        · simp
        · rcases List.mem_cons.mp (ih h) with rfl | he <;> simp [*]

theorem coalesceFrom_covers (rank : M → S) {acc e : K × M} {xs : List (K × M)}
    (h : e ∈ acc :: xs) : ∃ e' ∈ coalesceFrom (pickGreater rank) acc xs, e'.1 = e.1 := by
  induction xs generalizing acc e with
  | nil => exact ⟨acc, by simp [coalesceFrom], by simp_all⟩
  | cons x xs ih =>
      simp only [coalesceFrom]
      split
      · rename_i c hc
        obtain ⟨hca, hax⟩ := pickGreater_key hc
        rcases List.mem_cons.mp h with rfl | h
        · obtain ⟨e', he', hk⟩ := @ih c c (List.mem_cons_self ..)
          exact ⟨e', he', hk.trans hca⟩
        · rcases List.mem_cons.mp h with rfl | h
          · obtain ⟨e', he', hk⟩ := @ih c c (List.mem_cons_self ..)
            exact ⟨e', he', hk.trans (hca.trans hax)⟩
          · exact ih (List.mem_cons_of_mem _ h)
      · rename_i p q hpq
        obtain ⟨rfl, rfl, -⟩ := pickGreater_error hpq
        rcases List.mem_cons.mp h with rfl | h
        · exact ⟨e, by simp, rfl⟩
        · obtain ⟨e', he', hk⟩ := ih h
          exact ⟨e', List.mem_cons_of_mem _ he', hk⟩

theorem coalesceFrom_sorted (rank : M → S) {acc : K × M} {xs : List (K × M)}
    (h : (acc :: xs).Pairwise (KeyRankLE rank)) :
    (coalesceFrom (pickGreater rank) acc xs).Pairwise (fun a b => a.1 < b.1) ∧
      ∀ e ∈ coalesceFrom (pickGreater rank) acc xs, acc.1 ≤ e.1 := by
  induction xs generalizing acc with
  | nil => simp [coalesceFrom]
  | cons x xs ih =>
      obtain ⟨hacc, hxs⟩ := List.pairwise_cons.mp h
      have hax : KeyRankLE rank acc x := hacc x (by simp)
      obtain ⟨ihs, ihk⟩ := ih hxs
      simp only [coalesceFrom]
      split
      · rename_i c hc
        obtain ⟨hca, hk⟩ := pickGreater_key hc
        have hr : rank acc.2 ≤ rank x.2 := by
          rcases hax with hlt | ⟨-, hr⟩
          · exact absurd hk (ne_of_lt hlt)
          · exact hr
        rw [pickGreater_of_le hk hr] at hc
        cases hc
        exact ⟨ihs, fun e he => hk ▸ ihk e he⟩
      · rename_i p q hpq
        obtain ⟨rfl, rfl, hne⟩ := pickGreater_error hpq
        have hlt : p.1 < q.1 := lt_of_le_of_ne (keyRankLE_key_le hax) hne
        refine ⟨List.Pairwise.cons (fun e he => lt_of_lt_of_le hlt (ihk e he)) ihs, ?_⟩
        intro e he
        rcases List.mem_cons.mp he with rfl | he
        · exact le_rfl
        · exact hlt.le.trans (ihk e he)

theorem coalesceFrom_max (rank : M → S) {acc e : K × M} {xs : List (K × M)}
    (h : (acc :: xs).Pairwise (KeyRankLE rank))
    (he : e ∈ coalesceFrom (pickGreater rank) acc xs) :
    ∀ e' ∈ acc :: xs, e'.1 = e.1 → rank e'.2 ≤ rank e.2 := by
  induction xs generalizing acc with
  | nil =>
      simp only [coalesceFrom, List.mem_singleton] at he
      subst he
      intro e' he' _
      rw [List.mem_singleton.mp he']
  | cons x xs ih =>
      obtain ⟨hacc, hxs⟩ := List.pairwise_cons.mp h
      have hax : KeyRankLE rank acc x := hacc x (by simp)
      simp only [coalesceFrom] at he
      split at he
      · rename_i c hc
        obtain ⟨-, hk⟩ := pickGreater_key hc
        have hr : rank acc.2 ≤ rank x.2 := by
          rcases hax with hlt | ⟨-, hr⟩
          · exact absurd hk (ne_of_lt hlt)
          · exact hr
        rw [pickGreater_of_le hk hr] at hc
        cases hc
        have ihx := ih hxs he
        intro e' he' hke
        rcases List.mem_cons.mp he' with rfl | he'
        · exact hr.trans (ihx x (by simp) (hk ▸ hke))
        · exact ihx e' he' hke
      · rename_i p q hpq
        obtain ⟨rfl, rfl, hne⟩ := pickGreater_error hpq
        have hlt : p.1 < q.1 := lt_of_le_of_ne (keyRankLE_key_le hax) hne
        have hbig : ∀ e' ∈ q :: xs, p.1 < e'.1 := by
          intro e' he'
          rcases List.mem_cons.mp he' with rfl | he'
          · exact hlt
          · exact lt_of_lt_of_le hlt (keyRankLE_key_le (List.rel_of_pairwise_cons hxs he'))
        rcases List.mem_cons.mp he with rfl | he
        · intro e' he' hke
          rcases List.mem_cons.mp he' with rfl | he'
          · exact le_rfl
          · exact absurd hke (ne_of_gt (hbig e' he'))
        · have ihq := ih hxs he
          have hq : q.1 ≤ e.1 := (coalesceFrom_sorted rank hxs).2 e he
          intro e' he' hke
          rcases List.mem_cons.mp he' with rfl | he'
          · exact absurd hke (ne_of_lt (lt_of_lt_of_le hlt hq))
          · exact ihq e' he' hke

theorem coalesce_sorted (rank : M → S) {xs : List (K × M)} (h : xs.Pairwise (KeyRankLE rank)) :
    (coalesce (pickGreater rank) xs).Pairwise (fun a b => a.1 < b.1) := by
  cases xs with
  | nil => simp [coalesce]
  | cons x xs => exact (coalesceFrom_sorted rank h).1

theorem mem_coalesce (rank : M → S) {xs : List (K × M)} {e : K × M}
    (h : xs.Pairwise (KeyRankLE rank)) (he : e ∈ coalesce (pickGreater rank) xs) :
    e ∈ xs ∧ ∀ e' ∈ xs, e'.1 = e.1 → rank e'.2 ≤ rank e.2 := by
  cases xs with
  | nil => simp [coalesce] at he
  | cons x xs => exact ⟨coalesceFrom_mem rank he, coalesceFrom_max rank h he⟩

theorem coalesce_covers (rank : M → S) {xs : List (K × M)} {e : K × M} (he : e ∈ xs) :
    ∃ e' ∈ coalesce (pickGreater rank) xs, e'.1 = e.1 := by
  cases xs with
  | nil => simp at he
  | cons x xs => exact coalesceFrom_covers rank he

theorem eq_of_key_eq {l : List (K × M)} (hl : l.Pairwise (fun a b => a.1 < b.1)) {a b : K × M}
    (ha : a ∈ l) (hb : b ∈ l) (hab : a.1 = b.1) : a = b := by
  induction l with
  | nil => simp at ha
  | cons x xs ih =>
      obtain ⟨hx, hxs⟩ := List.pairwise_cons.mp hl
      rcases List.mem_cons.mp ha with hax | hal <;> rcases List.mem_cons.mp hb with hbx | hbl
      · rw [hax, hbx]
      · subst hax; exact absurd hab (ne_of_lt (hx b hbl))
      · subst hbx; exact absurd hab.symm (ne_of_lt (hx a hal))
      · exact ih hxs hal hbl

theorem coalesceFrom_strict (rank : M → S) {acc : K × M} {xs : List (K × M)}
    (h : (acc :: xs).Pairwise (fun a b => a.1 < b.1)) : coalesceFrom (pickGreater rank) acc xs = acc :: xs := by
  induction xs generalizing acc with
  | nil => rfl
  | cons x xs ih =>
      obtain ⟨hacc, hxs⟩ := List.pairwise_cons.mp h
      have hne : acc.1 ≠ x.1 := ne_of_lt (hacc x (List.mem_cons_self ..))
      simp only [coalesceFrom, pickGreater, if_neg hne]
      rw [ih hxs]

theorem coalesce_strict (rank : M → S) {xs : List (K × M)} (h : xs.Pairwise (fun a b => a.1 < b.1)) :
    coalesce (pickGreater rank) xs = xs := by
  cases xs with
  | nil => rfl
  | cons x xs => exact coalesceFrom_strict rank h

-- what a merge of runs sorted by key yields: their records, by key and then by rank
structure MergedRuns (rank : M → S) (ls : List (List (K × M))) (out : List (K × M)) : Prop where
  perm : out.Perm ls.flatten
  sorted : out.Pairwise (KeyRankLE rank)

namespace MergedRuns

variable {rank : M → S} {ls : List (List (K × M))} {out : List (K × M)} (h : MergedRuns rank ls out)
include h

theorem coalesce_sorted : (coalesce (pickGreater rank) out).Pairwise (fun a b => a.1 < b.1) :=
  KMerge.coalesce_sorted rank h.sorted

theorem mem_coalesce {e : K × M} (he : e ∈ coalesce (pickGreater rank) out) :
    e ∈ ls.flatten ∧ ∀ e' ∈ ls.flatten, e'.1 = e.1 → rank e'.2 ≤ rank e.2 := by
  obtain ⟨hmem, hmax⟩ := KMerge.mem_coalesce rank h.sorted he
  exact ⟨h.perm.mem_iff.mp hmem, fun e' he' => hmax e' (h.perm.mem_iff.mpr he')⟩

theorem coalesce_covers {e : K × M} (he : e ∈ ls.flatten) :
    ∃ e' ∈ coalesce (pickGreater rank) out, e'.1 = e.1 :=
  KMerge.coalesce_covers rank (h.perm.mem_iff.mpr he)

theorem coalesce_single {l : List (K × M)} (hs : ls = [l]) (hl : l.Pairwise (fun a b => a.1 < b.1)) :
    coalesce (pickGreater rank) out = l := by
  subst hs
  have hp := h.perm
  rw [List.flatten_singleton] at hp
  have heq : out = l := by
    apply hp.eq_of_pairwise _ h.sorted (hl.imp Or.inl)
    intro a b ha hb hab hba
    exact eq_of_key_eq hl (hp.subset ha) hb (le_antisymm (keyRankLE_key_le hab) (keyRankLE_key_le hba))
  rw [heq, coalesce_strict rank hl]

end MergedRuns

end Greater

section Fallible

variable {ε : Type}

-- a k-way merge of sorted runs whose comparator can fail, as a panic inside it does;
-- the merge then fails with it
structure MergeSpec (kmerge : ∀ {α : Type}, (α → α → Except ε Bool) → List (List α) → Except ε (List α)) :
    Prop where
  merged : ∀ {α : Type} (cmp : α → α → Except ε Bool) (le : α → α → Bool), (∀ a b, le a b ∨ le b a) →
    (∀ a b c, le a b → le b c → le a c) → (∀ a b v, cmp a b = .ok v → v = le a b) →
    ∀ ls out, (∀ l ∈ ls, l.Pairwise (fun a b => le a b)) → kmerge cmp ls = .ok out →
      out.Perm ls.flatten ∧ out.Pairwise (fun a b => le a b)
  -- only records of different runs are compared
  ok_of_across : ∀ {α : Type} (cmp : α → α → Except ε Bool) (ls : List (List α)),
    ls.Pairwise (fun l1 l2 => ∀ a ∈ l1, ∀ b ∈ l2, (cmp a b).isOk ∧ (cmp b a).isOk) → (kmerge cmp ls).isOk
  -- the heads of two runs are compared
  heads : ∀ {α : Type} (cmp : α → α → Except ε Bool) (a b : α) (as bs : List α) (e : ε),
    cmp a b = .error e → cmp b a = .error e → kmerge cmp [a :: as, b :: bs] = .error e

namespace MergeSpec

variable {kmerge : ∀ {α : Type}, (α → α → Except ε Bool) → List (List α) → Except ε (List α)}
  (hk : MergeSpec kmerge)
include hk

theorem exists_ok {cmp : α → α → Except ε Bool} {ls : List (List α)}
    (h : ls.Pairwise (fun l1 l2 => ∀ a ∈ l1, ∀ b ∈ l2, (cmp a b).isOk ∧ (cmp b a).isOk)) :
    ∃ out, kmerge cmp ls = .ok out :=
  ExceptM.exists_of_isOk (hk.ok_of_across cmp ls h)

variable [LinearOrder K] [LinearOrder S]

theorem mergedRuns {rank : M → S} {cmp : K × M → K × M → Except ε Bool}
    (hcmp : ∀ a b v, cmp a b = .ok v → v = decide (KeyRankLE rank a b)) {ls : List (List (K × M))}
    (hls : ∀ l ∈ ls, l.Pairwise (fun a b => a.1 < b.1)) {out : List (K × M)} (h : kmerge cmp ls = .ok out) :
    MergedRuns rank ls out := by
  have hm := hk.merged cmp (fun a b => decide (KeyRankLE rank a b))
    (fun a b => by simpa using keyRankLE_total rank a b)
    (fun a b c h1 h2 => by simpa using keyRankLE_trans rank (by simpa using h1) (by simpa using h2))
    hcmp ls out (fun l hl => (hls l hl).imp (fun h => decide_eq_true (Or.inl h))) h
  exact ⟨hm.1, hm.2.imp (by simp)⟩

end MergeSpec

-- the merge of `x :: xs` into a run, given `rest`, the merge of `xs` into any run: the left head
-- goes first while the comparator allows it
def mergeInto (cmp : α → α → Except ε Bool) (x : α) (xs : List α) (rest : List α → Except ε (List α)) :
    List α → Except ε (List α)
  | [] => .ok (x :: xs)
  | y :: ys =>
      match cmp x y with
      | .error e => .error e
      | .ok true => (rest (y :: ys)).map (x :: ·)
      | .ok false => (mergeInto cmp x xs rest ys).map (y :: ·)

-- a two-way merge of sorted runs
def merge2 (cmp : α → α → Except ε Bool) : List α → List α → Except ε (List α)
  | [], ys => .ok ys
  | x :: xs, ys => mergeInto cmp x xs (merge2 cmp xs) ys

-- the k-way merge folding the runs into the merged prefix one at a time
def foldMerge (cmp : α → α → Except ε Bool) (ls : List (List α)) : Except ε (List α) :=
  ls.foldlM (merge2 cmp) []

section Merge2

variable {cmp : α → α → Except ε Bool} {x : α} {xs : List α} {rest : List α → Except ε (List α)}

theorem mergeInto_ok_cons {y : α} {ys out : List α} (h : mergeInto cmp x xs rest (y :: ys) = .ok out) :
    (cmp x y = .ok true ∧ ∃ r, rest (y :: ys) = .ok r ∧ out = x :: r) ∨
      (cmp x y = .ok false ∧ ∃ r, mergeInto cmp x xs rest ys = .ok r ∧ out = y :: r) := by
  rw [mergeInto] at h
  split at h
  · cases h
  · rename_i hc
    obtain ⟨r, hr, rfl⟩ := ExceptM.map_eq_ok h
    exact .inl ⟨hc, r, hr, rfl⟩
  · rename_i hc
    obtain ⟨r, hr, rfl⟩ := ExceptM.map_eq_ok h
    exact .inr ⟨hc, r, hr, rfl⟩

theorem mergeInto_perm (hrest : ∀ zs out, rest zs = .ok out → out.Perm (xs ++ zs)) {ys out : List α}
    (h : mergeInto cmp x xs rest ys = .ok out) : out.Perm (x :: xs ++ ys) := by
  induction ys generalizing out with
  | nil => rw [mergeInto] at h; cases h; simp
  | cons y ys ih =>
      rcases mergeInto_ok_cons h with ⟨-, r, hr, rfl⟩ | ⟨-, r, hr, rfl⟩
      · exact (hrest _ r hr).cons x
      · exact ((ih hr).cons y).trans List.perm_middle.symm

theorem merge2_perm {xs ys out : List α} (h : merge2 cmp xs ys = .ok out) : out.Perm (xs ++ ys) := by
  induction xs generalizing ys out with
  | nil => rw [merge2] at h; cases h; rfl
  | cons x xs ih =>
      rw [merge2] at h
      exact mergeInto_perm (fun zs out h' => ih h') h

section Sorted

variable {le : α → α → Bool} (htotal : ∀ a b, le a b ∨ le b a) (htrans : ∀ a b c, le a b → le b c → le a c)
  (hcmp : ∀ a b v, cmp a b = .ok v → v = le a b)
include htotal htrans hcmp

theorem mergeInto_sorted (hperm : ∀ zs out, rest zs = .ok out → out.Perm (xs ++ zs))
    (hrest : ∀ zs out, zs.Pairwise (fun a b => le a b) → rest zs = .ok out → out.Pairwise (fun a b => le a b))
    (hx : (x :: xs).Pairwise (fun a b => le a b)) {ys out : List α} (hy : ys.Pairwise (fun a b => le a b))
    (h : mergeInto cmp x xs rest ys = .ok out) : out.Pairwise (fun a b => le a b) := by
  induction ys generalizing out with
  | nil => rw [mergeInto] at h; cases h; exact hx
  | cons y ys ih =>
      obtain ⟨hys, hy'⟩ := List.pairwise_cons.mp hy
      obtain ⟨hxs, -⟩ := List.pairwise_cons.mp hx
      rcases mergeInto_ok_cons h with ⟨hc, r, hr, rfl⟩ | ⟨hc, r, hr, rfl⟩
      · -- the left head is not greater than the right one, so not than anything after it
        have hxy : le x y := (hcmp x y true hc).symm
        refine List.Pairwise.cons (fun z hz => ?_) (hrest _ r hy hr)
        rcases List.mem_append.mp ((hperm _ r hr).subset hz) with hz | hz
        · exact hxs z hz
        · rcases List.mem_cons.mp hz with rfl | hz
          · exact hxy
          · exact htrans _ _ _ hxy (hys z hz)
      · -- the comparator refused the left head, so the right head goes first
        have hyx : le y x := by
          have := hcmp x y false hc
          rcases htotal x y with h' | h'
          · rw [← this] at h'; cases h'
          · exact h'
        refine List.Pairwise.cons (fun z hz => ?_) (ih hy' hr)
        rcases List.mem_append.mp ((mergeInto_perm hperm hr).subset hz) with hz | hz
        · rcases List.mem_cons.mp hz with rfl | hz
          · exact hyx
          · exact htrans _ _ _ hyx (hxs z hz)
        · exact hys z hz

theorem merge2_sorted {xs ys out : List α} (hx : xs.Pairwise (fun a b => le a b))
    (hy : ys.Pairwise (fun a b => le a b)) (h : merge2 cmp xs ys = .ok out) : out.Pairwise (fun a b => le a b) := by
  induction xs generalizing ys out with
  | nil => rw [merge2] at h; cases h; exact hy
  | cons x xs ih =>
      rw [merge2] at h
      exact mergeInto_sorted htotal htrans hcmp (fun zs out h' => merge2_perm h')
        (fun zs out hz h' => ih (List.pairwise_cons.mp hx).2 hz h') hx hy h

end Sorted

theorem mergeInto_isOk (hrest : ∀ zs, (∀ a ∈ xs, ∀ b ∈ zs, (cmp a b).isOk) → (rest zs).isOk) {ys : List α}
    (h : ∀ a ∈ x :: xs, ∀ b ∈ ys, (cmp a b).isOk) : (mergeInto cmp x xs rest ys).isOk := by
  induction ys with
  | nil => rfl
  | cons y ys ih =>
      have hxy := h x List.mem_cons_self y List.mem_cons_self
      rw [mergeInto]
      cases hc : cmp x y with
      | error e => rw [hc] at hxy; cases hxy
      | ok v =>
          cases v
          · rw [ExceptM.isOk_map]
            exact ih (fun a ha b hb => h a ha b (List.mem_cons_of_mem y hb))
          · rw [ExceptM.isOk_map]
            exact hrest _ (fun a ha b hb => h a (List.mem_cons_of_mem x ha) b hb)

theorem merge2_isOk {xs ys : List α} (h : ∀ a ∈ xs, ∀ b ∈ ys, (cmp a b).isOk) : (merge2 cmp xs ys).isOk := by
  induction xs generalizing ys with
  | nil => rfl
  | cons x xs ih =>
      rw [merge2]
      exact mergeInto_isOk (fun zs hz => ih hz) h

end Merge2

theorem foldMerge_mergeSpec : @MergeSpec ε fun {α} => @foldMerge α ε where
  merged := by
    intro α cmp le htotal htrans hcmp ls out hls h
    -- the merged prefix is a sorted permutation of the runs folded so far
    suffices ∀ acc, acc.Pairwise (fun a b => le a b) → ls.foldlM (merge2 cmp) acc = .ok out →
        out.Perm (acc ++ ls.flatten) ∧ out.Pairwise (fun a b => le a b) by
      simpa using this [] List.Pairwise.nil h
    clear h
    induction ls with
    | nil => intro acc hacc h; cases h; exact ⟨by simp, hacc⟩
    | cons l ls ih =>
        intro acc hacc h
        rw [List.foldlM_cons] at h
        obtain ⟨acc', hm, h⟩ := ExceptM.bind_eq_ok h
        obtain ⟨hp, hs⟩ := ih (fun l' hl' => hls l' (List.mem_cons_of_mem l hl')) acc'
          (merge2_sorted htotal htrans hcmp hacc (hls l List.mem_cons_self) hm) h
        refine ⟨hp.trans ?_, hs⟩
        rw [List.flatten_cons, ← List.append_assoc]
        exact (merge2_perm hm).append_right _
  ok_of_across := by
    intro α cmp ls hls
    suffices ∀ acc, (∀ a ∈ acc, ∀ l ∈ ls, ∀ b ∈ l, (cmp a b).isOk) → (ls.foldlM (merge2 cmp) acc).isOk by
      exact this [] (by simp)
    induction ls with
    | nil => intro acc _; rfl
    | cons l ls ih =>
        intro acc hacc
        obtain ⟨hl, hls'⟩ := List.pairwise_cons.mp hls
        obtain ⟨acc', hm⟩ := ExceptM.exists_of_isOk
          (merge2_isOk (fun a ha b hb => hacc a ha l List.mem_cons_self b hb))
        rw [List.foldlM_cons, hm]
        refine ih hls' acc' (fun a ha l' hl' b hb => ?_)
        -- a record of the merged prefix comes from an earlier run
        rcases List.mem_append.mp ((merge2_perm hm).subset ha) with ha | ha
        · exact hacc a ha l' (List.mem_cons_of_mem l hl') b hb
        · exact (hl l' hl' a ha b hb).1
  heads := by
    intro α cmp a b as bs e hab _
    simp [foldMerge, merge2, mergeInto, hab, bind, Except.bind]

end Fallible

end KMerge
