import Mathlib

namespace Buffer

variable {α : Type}

def write_at (buf : List α) (pos : Nat) : List α → List α
  | [] => buf
  | x :: xs => write_at (buf.set pos x) (pos + 1) xs

@[simp] theorem length_write_at (buf : List α) (pos : Nat) (xs : List α) :
    (write_at buf pos xs).length = buf.length := by
  induction xs generalizing buf pos with
  | nil => rfl
  | cons x xs ih => rw [write_at, ih, List.length_set]

theorem write_at_eq {buf : List α} {pos : Nat} {xs : List α} (h : pos + xs.length ≤ buf.length) :
    write_at buf pos xs = buf.take pos ++ xs ++ buf.drop (pos + xs.length) := by
  induction xs generalizing buf pos with
  | nil => simp [write_at]
  | cons x xs ih =>
    rw [List.length_cons] at h
    have hlen : pos + 1 + xs.length ≤ (buf.set pos x).length := by rw [List.length_set]; omega
    have htake : (buf.set pos x).take (pos + 1) = buf.take pos ++ [x] := by
      rw [List.take_succ_eq_append_getElem (by rw [List.length_set]; omega), List.take_set,
        List.set_eq_of_length_le (by rw [List.length_take]; omega), List.getElem_set_self]
    have hdrop : (buf.set pos x).drop (pos + 1 + xs.length) = buf.drop (pos + (xs.length + 1)) := by
      rw [List.drop_set, if_pos (by omega), Nat.add_assoc, Nat.add_comm 1]
    rw [write_at, ih hlen, htake, hdrop]
    simp

theorem take_write_at {buf : List α} {pos : Nat} {xs : List α} (h : pos + xs.length ≤ buf.length) :
    (write_at buf pos xs).take (pos + xs.length) = buf.take pos ++ xs := by
  have hpos : (buf.take pos).length = pos := by rw [List.length_take]; omega
  rw [write_at_eq h, List.append_assoc, List.take_append, hpos, Nat.add_sub_cancel_left,
    List.take_append_of_le_length le_rfl, List.take_length, List.take_of_length_le (by omega)]

-- the blocks a stream is cut into: at most `m` values each, all full but the last, none empty
structure Chunked (m : Nat) (bs : List (List α)) : Prop where
  full : ∀ b ∈ bs.dropLast, b.length = m
  ne_nil : ∀ b ∈ bs, b ≠ []
  le : ∀ b ∈ bs, b.length ≤ m

theorem Chunked.of_full {m : Nat} {bs : List (List α)} (hm : 0 < m) (h : ∀ b ∈ bs, b.length = m) :
    Chunked m bs where
  full b hb := h b (List.dropLast_subset bs hb)
  ne_nil b hb := List.ne_nil_of_length_pos (by rw [h b hb]; exact hm)
  le b hb := (h b hb).le

theorem Chunked.append_last {m : Nat} {bs : List (List α)} {b : List α} (h : ∀ b ∈ bs, b.length = m)
    (hb0 : b ≠ []) (hb : b.length ≤ m) : Chunked m (bs ++ [b]) where
  full c hc := by
    rw [List.dropLast_concat] at hc
    exact h c hc
  ne_nil c hc := by
    rcases List.mem_append.mp hc with hc | hc
    · exact List.ne_nil_of_length_pos (by rw [h c hc]; exact lt_of_lt_of_le (List.length_pos_of_ne_nil hb0) hb)
    · rw [List.mem_singleton.mp hc]
      exact hb0
  le c hc := by
    rcases List.mem_append.mp hc with hc | hc
    · exact (h c hc).le
    · rw [List.mem_singleton.mp hc]
      exact hb

theorem Chunked.map {β : Type} {m : Nat} {bs : List (List α)} (h : Chunked m bs) (f : α → β) :
    Chunked m (bs.map (List.map f)) where
  full b hb := by
    rw [← List.map_dropLast] at hb
    obtain ⟨b', hb', rfl⟩ := List.mem_map.mp hb
    rw [List.length_map]
    exact h.full b' hb'
  ne_nil b hb := by
    obtain ⟨b', hb', rfl⟩ := List.mem_map.mp hb
    exact fun hnil => h.ne_nil b' hb' (List.map_eq_nil_iff.mp hnil)
  le b hb := by
    obtain ⟨b', hb', rfl⟩ := List.mem_map.mp hb
    rw [List.length_map]
    exact h.le b' hb'

theorem Chunked.tail {m : Nat} {b : List α} {bs : List (List α)} (h : Chunked m (b :: bs)) : Chunked m bs where
  full c hc := by
    have hne : bs ≠ [] := by
      rintro rfl
      exact List.not_mem_nil hc
    obtain ⟨c', cs, rfl⟩ := List.exists_cons_of_ne_nil hne
    exact h.full c (by rw [List.dropLast_cons_cons]; exact List.mem_cons_of_mem b hc)
  ne_nil c hc := h.ne_nil c (List.mem_cons_of_mem b hc)
  le c hc := h.le c (List.mem_cons_of_mem b hc)

theorem Chunked.eq_two_blocks {m : Nat} {bs : List (List α)} (h : Chunked m bs) (hlt : m < bs.flatten.length)
    (hle : bs.flatten.length ≤ 2 * m) : bs = [bs.flatten.take m, bs.flatten.drop m] := by
  match bs, h with
  | [], _ => simp at hlt
  | [b], h => simp only [List.flatten_cons, List.flatten_nil, List.append_nil] at hlt; exact absurd (h.le b (by simp)) (by omega)
  | [b, c], h =>
    have hb : b.length = m := h.full b (by simp)
    simp only [List.flatten_cons, List.flatten_nil, List.append_nil]
    rw [List.take_left' hb, List.drop_left' hb]
  | b :: c :: d :: bs, h =>
    have hb : b.length = m := h.full b (by simp)
    have hc : c.length = m := h.full c (by simp)
    have hd : 0 < d.length := List.length_pos_of_ne_nil (h.ne_nil d (by simp))
    simp only [List.flatten_cons, List.length_append] at hle
    omega

theorem filterMap_zipIdx_replicate {β : Type} {f : α × Nat → Option β} {g : Nat → β} (x : α)
    (hf : ∀ j, f (x, j) = some (g j)) (n i : Nat) :
    ((List.replicate n x).zipIdx i).filterMap f = (List.range' i n).map g := by
  induction n generalizing i with
  | zero => rfl
  | succ n ih => simp only [List.replicate_succ, List.zipIdx_cons, List.filterMap_cons, hf, List.range'_succ, List.map_cons, ih]

section Runs

-- whether the runs of widths `ws`, from position `pos` of a stream on, each lie within one block
-- when the stream is cut into blocks of `m`
def runs_fit (m : Nat) : Nat → List Nat → Bool
  | _, [] => true
  | pos, w :: ws => decide (pos / m = (pos + w - 1) / m) && runs_fit m (pos + w) ws

theorem runs_fit_append (m pos : Nat) (xs ys : List Nat) :
    runs_fit m pos (xs ++ ys) = (runs_fit m pos xs && runs_fit m (pos + xs.sum) ys) := by
  induction xs generalizing pos with
  | nil => simp [runs_fit]
  | cons x xs ih => rw [List.cons_append, runs_fit, runs_fit, ih, List.sum_cons, Nat.add_assoc, Bool.and_assoc]

theorem runs_fit_le {m pos : Nat} {ws : List Nat} (hm : 0 < m) (h : runs_fit m pos ws = true) :
    ∀ w ∈ ws, w ≤ m := by
  induction ws generalizing pos with
  | nil => simp
  | cons w ws ih =>
    rw [runs_fit, Bool.and_eq_true, decide_eq_true_eq] at h
    obtain ⟨hfit, hrest⟩ := h
    -- the run's last position lies below the first block boundary after its start
    have hlast : pos + w - 1 < pos + m := calc
      pos + w - 1 < (pos + w - 1) / m * m + m := Nat.lt_div_mul_add hm
      _ = pos / m * m + m := by rw [hfit]
      _ ≤ pos + m := Nat.add_le_add_right (Nat.div_mul_le_self pos m) m
    intro v hv
    rcases List.mem_cons.mp hv with rfl | hv
    · omega
    · exact ih hrest v hv

theorem runs_fit_shift {m : Nat} (hm : 0 < m) (pos : Nat) {ws : List Nat} (hws : ∀ w ∈ ws, 0 < w) :
    runs_fit m (pos + m) ws = runs_fit m pos ws := by
  induction ws generalizing pos with
  | nil => rfl
  | cons w ws ih =>
    have hw := hws w List.mem_cons_self
    have hlast : pos + m + w - 1 = pos + w - 1 + m := by omega
    rw [runs_fit, runs_fit, hlast, Nat.add_div_right _ hm, Nat.add_div_right _ hm, Nat.add_right_comm,
      ih _ fun v hv => hws v (List.mem_cons_of_mem w hv)]
    simp

theorem runs_fit_prefix {m pos : Nat} {ws : List Nat} (hpos : pos < m) (h : runs_fit m pos ws = true)
    (hsum : m ≤ pos + ws.sum) : ∃ k, pos + (ws.take k).sum = m := by
  induction ws generalizing pos with
  | nil => simp at hsum; omega
  | cons w ws ih =>
    rw [runs_fit, Bool.and_eq_true, decide_eq_true_eq, Nat.div_eq_of_lt hpos] at h
    obtain ⟨hfit, hrest⟩ := h
    -- the run ends in the first block
    have hend : pos + w - 1 < m := by
      by_contra hge
      have := Nat.div_pos (Nat.le_of_not_lt hge) (by omega)
      omega
    rw [List.sum_cons] at hsum
    by_cases hw : pos + w = m
    · exact ⟨1, by simpa using hw⟩
    · obtain ⟨k, hk⟩ := ih (by omega) hrest (by omega)
      exact ⟨k + 1, by rw [List.take_succ_cons, List.sum_cons, ← hk, Nat.add_assoc]⟩

theorem Chunked.runs {m : Nat} {bs : List (List α)} {gs : List (List α)} (h : Chunked m bs)
    (hgs : ∀ g ∈ gs, g ≠ []) (hfit : runs_fit m 0 (gs.map List.length) = true) (hflat : bs.flatten = gs.flatten) :
    ∃ gss : List (List (List α)), gss.flatten = gs ∧ bs = gss.map List.flatten := by
  induction bs generalizing gs with
  | nil =>
    have hnil : gs = [] := by
      rw [List.flatten_nil, eq_comm, List.flatten_eq_nil_iff] at hflat
      exact List.eq_nil_iff_forall_not_mem.mpr fun g hg => hgs g hg (hflat g hg)
    exact ⟨[], hnil.symm, rfl⟩
  | cons b bs ih =>
    by_cases hbs : bs = []
    · subst hbs
      exact ⟨[gs], List.flatten_singleton, by rw [List.map_singleton, ← hflat, List.flatten_singleton]⟩
    · have hb : b.length = m := by
        obtain ⟨c, cs, rfl⟩ := List.exists_cons_of_ne_nil hbs
        exact h.full b (by simp)
      have hm : 0 < m := hb ▸ List.length_pos_of_ne_nil (h.ne_nil b List.mem_cons_self)
      have hlen : (gs.map List.length).sum = b.length + bs.flatten.length := by
        rw [← List.length_flatten, ← hflat, List.flatten_cons, List.length_append]
      -- the first block ends where a run ends
      obtain ⟨k, hk⟩ := runs_fit_prefix hm hfit (by omega)
      rw [Nat.zero_add, ← List.map_take, ← List.length_flatten] at hk
      have hsplit := hflat
      rw [List.flatten_cons, ← List.take_append_drop k gs, List.flatten_append] at hsplit
      obtain ⟨hb', hrest⟩ := List.append_inj hsplit (by rw [hb, hk])
      have hk' : ((gs.take k).map List.length).sum = m := by rw [← List.length_flatten, hk]
      have hfit' : runs_fit m 0 ((gs.drop k).map List.length) = true := by
        rw [← List.take_append_drop k gs, List.map_append, runs_fit_append, Bool.and_eq_true, hk'] at hfit
        rw [← runs_fit_shift hm 0 (fun w hw => ?_)]
        · exact hfit.2
        · obtain ⟨g, hg, rfl⟩ := List.mem_map.mp hw
          exact List.length_pos_of_ne_nil (hgs g (List.mem_of_mem_drop hg))
      obtain ⟨gss, hgss, hbs'⟩ := ih h.tail (fun g hg => hgs g (List.mem_of_mem_drop hg)) hfit' hrest
      exact ⟨gs.take k :: gss, by rw [List.flatten_cons, hgss, List.take_append_drop], by rw [hb', hbs', List.map_cons]⟩

end Runs

section Bits

variable {σ : Type}

-- a pass over a bitmap that at each position reads and rewrites only that position's bit, with a
-- state carried along
def scan_bits (f : α → Bool → σ → Bool × σ) : List (α × Bool) → σ → List Bool × σ
  | [], s => ([], s)
  | (a, b) :: xs, s =>
      let r := f a b s
      let t := scan_bits f xs r.2
      (r.1 :: t.1, t.2)

theorem foldl_zipIdx_set (f : α → Bool → σ → Bool × σ) (rows : List α) (pre post : List Bool) (s : σ)
    (hlen : post.length = rows.length) :
    (rows.zipIdx pre.length).foldl
        (fun acc x => (acc.1.set x.2 (f x.1 (acc.1.getD x.2 false) acc.2).1, (f x.1 (acc.1.getD x.2 false) acc.2).2))
        (pre ++ post, s) =
      (pre ++ (scan_bits f (rows.zip post) s).1, (scan_bits f (rows.zip post) s).2) := by
  induction rows generalizing pre post s with
  | nil =>
    rw [List.length_nil, List.length_eq_zero_iff] at hlen
    subst hlen
    rfl
  | cons a rows ih =>
    obtain ⟨b, post, rfl⟩ : ∃ b post', post = b :: post' := List.exists_cons_of_length_pos (by simp [hlen])
    rw [List.length_cons, List.length_cons, Nat.add_right_cancel_iff] at hlen
    have hget : (pre ++ b :: post).getD pre.length false = b := by simp
    have hset : (pre ++ b :: post).set pre.length (f a b s).1 = (pre ++ [(f a b s).1]) ++ post := by
      simp [List.set_append_right]
    rw [List.zipIdx_cons, List.foldl_cons]
    simp only [hget, hset]
    rw [show pre.length + 1 = (pre ++ [(f a b s).1]).length by simp, ih _ _ _ hlen]
    simp [scan_bits]

end Bits

end Buffer
