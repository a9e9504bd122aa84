import Mathlib

namespace SortedMap

variable {K V : Type} [LinearOrder K]

def getList (k : K) : List (K × V) → Option V
  | [] => none
  | e :: es => if e.1 = k then some e.2 else getList k es

def insertList (k : K) (v : V) : List (K × V) → List (K × V)
  | [] => [(k, v)]
  | e :: es =>
      if k < e.1 then (k, v) :: e :: es
      else if k = e.1 then (k, v) :: es
      else e :: insertList k v es

theorem mem_insertList {k : K} {v : V} {a : K × V} {es : List (K × V)}
    (h : a ∈ insertList k v es) : a = (k, v) ∨ a ∈ es := by
  induction es with
  | nil => simpa [insertList] using h
  | cons e es ih =>
      simp only [insertList] at h
      split_ifs at h <;> grind

theorem getList_insertList (k k' : K) (v : V) (es : List (K × V)) :
    getList k' (insertList k v es) = if k = k' then some v else getList k' es := by
  induction es with
  | nil => simp [insertList, getList]
  | cons e es ih =>
      simp only [insertList]
      split_ifs with h1 h2 h3 <;> grind [getList]

theorem insertList_sorted (k : K) (v : V) {es : List (K × V)}
    (h : es.Pairwise (fun a b => a.1 < b.1)) :
    (insertList k v es).Pairwise (fun a b => a.1 < b.1) := by
  induction es with
  | nil => simp [insertList]
  | cons e es ih =>
      obtain ⟨he, hes⟩ := List.pairwise_cons.mp h
      simp only [insertList]
      split_ifs with h1 h2
      · exact List.Pairwise.cons (by grind) h
      · exact List.Pairwise.cons (fun a ha => h2 ▸ he a ha) hes
      · refine List.Pairwise.cons (fun a ha => ?_) (ih hes)
        rcases mem_insertList ha with rfl | ha
        · exact lt_of_le_of_ne (not_lt.mp h1) (Ne.symm h2)
        · exact he a ha

theorem insertList_of_lt (k : K) (v : V) {es : List (K × V)} (h : ∀ e ∈ es, e.1 < k) :
    insertList k v es = es ++ [(k, v)] := by
  induction es with
  | nil => rfl
  | cons e es ih =>
      have he : e.1 < k := h e (by simp)
      simp [insertList, not_lt.mpr he.le, ne_of_gt he, ih (fun a ha => h a (by simp [ha]))]

theorem getList_eq_some {k : K} {v : V} {es : List (K × V)}
    (h : es.Pairwise (fun a b => a.1 < b.1)) :
    getList k es = some v ↔ (k, v) ∈ es := by
  induction es with
  | nil => simp [getList]
  | cons e es ih =>
      obtain ⟨ek, ev⟩ := e
      obtain ⟨he, hes⟩ := List.pairwise_cons.mp h
      by_cases hk : ek = k
      · subst hk
        have hnot : ∀ w, (ek, w) ∉ es := fun w hw => lt_irrefl ek (he (ek, w) hw)
        simp [getList, hnot, eq_comm]
      · simp [getList, hk, ih hes, Ne.symm hk]

theorem getList_eq_none {k : K} {es : List (K × V)} :
    getList k es = none ↔ ∀ e ∈ es, e.1 ≠ k := by
  induction es with
  | nil => simp [getList]
  | cons e es ih => by_cases hk : e.1 = k <;> simp [getList, hk, ih]

end SortedMap

open SortedMap in
structure SortedMap (K V : Type) [LinearOrder K] where
  entries : List (K × V)
  sorted : entries.Pairwise (fun a b => a.1 < b.1)

namespace SortedMap

variable {K V : Type} [LinearOrder K]

def empty : SortedMap K V := ⟨[], .nil⟩

def get (m : SortedMap K V) (k : K) : Option V := getList k m.entries

def insert (m : SortedMap K V) (k : K) (v : V) : SortedMap K V :=
  ⟨insertList k v m.entries, insertList_sorted k v m.sorted⟩

def rangeFrom (m : SortedMap K V) (lo : K) : List (K × V) :=
  m.entries.filter (fun e => decide (lo ≤ e.1))

def ofList (l : List (K × V)) : SortedMap K V :=
  l.foldl (fun m e => m.insert e.1 e.2) empty

@[simp] theorem get_empty (k : K) : (empty : SortedMap K V).get k = none := rfl

@[simp] theorem get_insert (m : SortedMap K V) (k k' : K) (v : V) :
    (m.insert k v).get k' = if k = k' then some v else m.get k' :=
  getList_insertList k k' v m.entries

theorem get_eq_some {m : SortedMap K V} {k : K} {v : V} : m.get k = some v ↔ (k, v) ∈ m.entries :=
  getList_eq_some m.sorted

theorem get_eq_none {m : SortedMap K V} {k : K} : m.get k = none ↔ ∀ e ∈ m.entries, e.1 ≠ k :=
  getList_eq_none

theorem ext_entries {m m' : SortedMap K V} (h : m.entries = m'.entries) : m = m' := by
  cases m
  cases m'
  cases h
  rfl

theorem ofList_entries {l : List (K × V)} (h : l.Pairwise (fun a b => a.1 < b.1)) :
    (ofList l).entries = l := by
  suffices ∀ (m : SortedMap K V) (l : List (K × V)), (∀ e ∈ m.entries, ∀ e' ∈ l, e.1 < e'.1) →
      l.Pairwise (fun a b => a.1 < b.1) → (l.foldl (fun m e => m.insert e.1 e.2) m).entries =
        m.entries ++ l by simpa [ofList, empty] using this empty l (by simp [empty]) h
  intro m l
  induction l generalizing m with
  | nil => simp
  | cons e l ih =>
      intro hlt hl
      obtain ⟨he, hl⟩ := List.pairwise_cons.mp hl
      rw [List.foldl_cons, ih]
      · simp [insert, insertList_of_lt e.1 e.2 (fun a ha => hlt a ha e (by simp))]
      · intro a ha e' he'
        rcases mem_insertList ha with rfl | ha
        · exact he e' he'
        · exact hlt a ha e' (by simp [he'])
      · exact hl

@[simp] theorem foldl_insert_entries (m : SortedMap K V) :
    m.entries.foldl (fun acc e => acc.insert e.1 e.2) empty = m :=
  ext_entries (ofList_entries m.sorted)

theorem mem_rangeFrom {m : SortedMap K V} {lo : K} {e : K × V} :
    e ∈ m.rangeFrom lo ↔ e ∈ m.entries ∧ lo ≤ e.1 := by
  simp [rangeFrom]

theorem rangeFrom_sorted (m : SortedMap K V) (lo : K) :
    (m.rangeFrom lo).Pairwise (fun a b => a.1 < b.1) :=
  m.sorted.filter _

def atLeast (m : SortedMap K V) (lo : K) : SortedMap K V := ⟨m.rangeFrom lo, m.rangeFrom_sorted lo⟩

theorem get_atLeast (m : SortedMap K V) (lo k : K) :
    (m.atLeast lo).get k = if lo ≤ k then m.get k else none := by
  apply Option.ext
  intro v
  rw [get_eq_some]
  show (k, v) ∈ m.rangeFrom lo ↔ _
  rw [mem_rangeFrom]
  split_ifs with h
  · simp [h, get_eq_some]
  · simp [h]

end SortedMap

theorem List.mem_takeWhile_of_pairwise {α : Type} {r : α → α → Prop} {p : α → Bool} {l : List α}
    (hl : l.Pairwise r) (hp : ∀ a b, r a b → p b = true → p a = true) {x : α} (hx : x ∈ l)
    (hpx : p x = true) : x ∈ l.takeWhile p := by
  induction l with
  | nil => simp at hx
  | cons y ys ih =>
      obtain ⟨hy, hys⟩ := List.pairwise_cons.mp hl
      by_cases hpy : p y = true
      · rw [List.takeWhile_cons_of_pos hpy]
        rcases List.mem_cons.mp hx with rfl | hx
        · exact List.mem_cons_self ..
        · exact List.mem_cons_of_mem _ (ih hys hx)
      · rcases List.mem_cons.mp hx with rfl | hx
        · exact absurd hpx hpy
        · exact absurd (hp y x (hy x hx) hpx) hpy

namespace SortedMap

variable {K V : Type} [LinearOrder K]

def erase (m : SortedMap K V) (k : K) : SortedMap K V :=
  ⟨m.entries.filter (fun e => e.1 != k), m.sorted.filter _⟩

end SortedMap
