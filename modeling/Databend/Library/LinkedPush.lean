import Mathlib

-- pushes onto linked lists that run concurrently

namespace LinkedPush

section Path

variable {α : Type}

inductive IsPath (next : α → Option α) : Option α → List α → Prop
  | nil : IsPath next none []
  | cons {p : α} {l : List α} : IsPath next (next p) l → IsPath next (some p) (p :: l)

variable {next next' : α → Option α} {x : Option α} {l l' : List α}

theorem IsPath.eq_head? (h : IsPath next x l) : x = l.head? := by
  cases h <;> rfl

theorem IsPath.unique (h : IsPath next x l) (h' : IsPath next x l') : l = l' := by
  induction h generalizing l' with
  | nil => cases h'; rfl
  | cons _ ih =>
    cases h' with
    | cons h' => rw [ih h']

theorem IsPath.of_append {l₁ l₂ : List α} (h : IsPath next x (l₁ ++ l₂)) : IsPath next l₂.head? l₂ := by
  induction l₁ generalizing x with
  | nil =>
    rw [List.nil_append] at h
    rwa [← h.eq_head?]
  | cons p l₁ ih =>
    cases h with
    | cons h => exact ih h

theorem IsPath.nodup (h : IsPath next x l) : l.Nodup := by
  induction h with
  | nil => exact List.nodup_nil
  | @cons p l hl ih =>
    refine List.nodup_cons.mpr ⟨fun hp => ?_, ih⟩
    obtain ⟨l₁, l₂, rfl⟩ := List.append_of_mem hp
    -- from the second visit of `p` the links give the whole path again, which is longer
    have hwhole : IsPath next (some p) ((p :: l₁) ++ (p :: l₂)) := IsPath.cons hl
    have hagain : IsPath next (some p) (p :: l₂) := hwhole.of_append
    have hlen := congrArg List.length (hwhole.unique hagain)
    simp only [List.length_cons, List.length_append] at hlen
    omega

theorem IsPath.congr (h : IsPath next x l) (heq : ∀ p ∈ l, next p = next' p) : IsPath next' x l := by
  induction h with
  | nil => exact .nil
  | @cons p l _ ih =>
    refine .cons ?_
    rw [← heq p List.mem_cons_self]
    exact ih fun q hq => heq q (List.mem_cons_of_mem p hq)

end Path

section Push

inductive Pc (α : Type)
  | idle
  | loaded (head : Option α)
  | linked (head : Option α)
  | done
  deriving DecidableEq, Repr

def Pc.published {α : Type} : Pc α → Bool
  | .linked _ | .done => true
  | .idle | .loaded _ => false

structure Conf (ι α : Type) where
  head : ι → Option α
  next : α → Option α
  pc : α → Pc α

variable {ι α : Type}

def Conf.init (next : α → Option α) : Conf ι α := ⟨fun _ => none, next, fun _ => .idle⟩

def Conf.link (c : Conf ι α) (p : α) : Option α :=
  match c.pc p with
  | .linked h => h
  | _ => c.next p

theorem Conf.link_eq_of {c c' : Conf ι α} {q : α} (hpc : c'.pc q = c.pc q) (hnext : c'.next q = c.next q) :
    c'.link q = c.link q := by
  simp only [Conf.link, hpc, hnext]

variable [DecidableEq ι] (dst : α → ι)

def pushed (lin : List α) (i : ι) : List α := (lin.filter fun p => dst p = i).reverse

structure Linearized (c : Conf ι α) (lin : List α) : Prop where
  nodup : lin.Nodup
  mem_iff : ∀ p, p ∈ lin ↔ (c.pc p).published = true
  path : ∀ i, IsPath c.link (c.head i) (pushed dst lin i)

variable {dst}

@[simp] theorem pushed_nil (i : ι) : pushed dst [] i = [] := rfl

theorem pushed_append_singleton (lin : List α) (p : α) (i : ι) :
    pushed dst (lin ++ [p]) i = if dst p = i then p :: pushed dst lin i else pushed dst lin i := by
  by_cases hp : dst p = i <;> simp [pushed, hp]

theorem mem_pushed {lin : List α} {p : α} {i : ι} : p ∈ pushed dst lin i ↔ p ∈ lin ∧ dst p = i := by
  simp [pushed]

theorem Linearized.init (next : α → Option α) : Linearized dst (Conf.init next) [] where
  nodup := List.nodup_nil
  mem_iff _ := by simp [Conf.init, Pc.published]
  path _ := .nil

theorem Linearized.not_mem {c : Conf ι α} {lin : List α} {p : α} (hl : Linearized dst c lin)
    (hp : (c.pc p).published = false) : p ∉ lin := by
  rw [hl.mem_iff, hp]
  exact Bool.false_ne_true

theorem Linearized.of_agree {c c' : Conf ι α} {lin : List α} (hl : Linearized dst c lin)
    (hhead : c'.head = c.head) (hpub : ∀ q, (c'.pc q).published = (c.pc q).published)
    (hlink : ∀ q ∈ lin, c'.link q = c.link q) : Linearized dst c' lin where
  nodup := hl.nodup
  mem_iff q := by rw [hpub q]; exact hl.mem_iff q
  path i := by
    rw [hhead]
    exact (hl.path i).congr fun q hq => (hlink q (mem_pushed.mp hq).1).symm

theorem Linearized.path_next {c : Conf ι α} {lin : List α} (hl : Linearized dst c lin)
    (hsettled : ∀ p, c.pc p = .idle ∨ c.pc p = .done) (i : ι) :
    IsPath c.next (c.head i) (pushed dst lin i) := by
  refine (hl.path i).congr fun q _ => ?_
  rcases hsettled q with hq | hq <;> simp [Conf.link, hq]

variable [DecidableEq α] (dst)

-- a failing swap, spurious or not, leaves the push with the head it then reads
inductive Step : Conf ι α → Conf ι α → Prop
  | start {c : Conf ι α} {p : α} : c.pc p = .idle →
      Step c ⟨c.head, Function.update c.next p none, Function.update c.pc p (.loaded (c.head (dst p)))⟩
  | swap {c : Conf ι α} {p : α} {h : Option α} : c.pc p = .loaded h → c.head (dst p) = h →
      Step c ⟨Function.update c.head (dst p) (some p), c.next, Function.update c.pc p (.linked h)⟩
  | fail {c : Conf ι α} {p : α} {h : Option α} : c.pc p = .loaded h →
      Step c ⟨c.head, c.next, Function.update c.pc p (.loaded (c.head (dst p)))⟩
  | link {c : Conf ι α} {p : α} {h : Option α} : c.pc p = .linked h →
      Step c ⟨c.head, Function.update c.next p h, Function.update c.pc p .done⟩

variable {dst}

theorem Linearized.swap {c : Conf ι α} {lin : List α} {p : α} {h : Option α} (hl : Linearized dst c lin)
    (hp : c.pc p = .loaded h) (hh : c.head (dst p) = h) :
    Linearized dst ⟨Function.update c.head (dst p) (some p), c.next, Function.update c.pc p (.linked h)⟩
      (lin ++ [p]) := by
  have hnot : p ∉ lin := hl.not_mem (by rw [hp]; rfl)
  -- the links of the nodes already pushed are unchanged
  have hlink : ∀ q ∈ lin, Conf.link ⟨Function.update c.head (dst p) (some p), c.next,
      Function.update c.pc p (.linked h)⟩ q = c.link q := by
    intro q hq
    have hqp : q ≠ p := fun e => hnot (e ▸ hq)
    exact Conf.link_eq_of (by simp [hqp]) rfl
  refine ⟨List.nodup_append.mpr ⟨hl.nodup, List.nodup_singleton p, ?_⟩, fun q => ?_, fun i => ?_⟩
  · simp only [List.mem_singleton]
    rintro q hq _ rfl rfl
    exact hnot hq
  · by_cases hqp : q = p
    · subst hqp
      simp [Pc.published]
    · simp [hqp, hl.mem_iff q]
  · have hold := (hl.path i).congr fun q hq => (hlink q (mem_pushed.mp hq).1).symm
    rw [pushed_append_singleton]
    by_cases hi : dst p = i
    · subst hi
      rw [if_pos rfl]
      dsimp only
      rw [Function.update_self]
      refine .cons ?_
      have hlinkp : Conf.link ⟨Function.update c.head (dst p) (some p), c.next,
          Function.update c.pc p (.linked h)⟩ p = h := by
        simp [Conf.link]
      rw [hlinkp]
      rwa [hh] at hold
    · rw [if_neg hi]
      dsimp only
      rw [Function.update_of_ne (Ne.symm hi)]
      exact hold

theorem Linearized.step {c c' : Conf ι α} {lin : List α} (hl : Linearized dst c lin) (hs : Step dst c c') :
    ∃ lin', Linearized dst c' lin' := by
  cases hs with
  | @start p hp =>
    refine ⟨lin, hl.of_agree rfl (fun q => ?_) fun q hq => ?_⟩
    · by_cases hqp : q = p
      · subst hqp
        simp [hp, Pc.published]
      · simp [hqp]
    · have hqp : q ≠ p := fun e => hl.not_mem (by rw [hp]; rfl) (e ▸ hq)
      exact Conf.link_eq_of (by simp [hqp]) (by simp [hqp])
  | swap hp hh => exact ⟨_, hl.swap hp hh⟩
  | @fail p h hp =>
    refine ⟨lin, hl.of_agree rfl (fun q => ?_) fun q _ => ?_⟩
    · by_cases hqp : q = p
      · subst hqp
        simp [hp, Pc.published]
      · simp [hqp]
    · by_cases hqp : q = p
      · subst hqp
        simp [Conf.link, hp]
      · exact Conf.link_eq_of (by simp [hqp]) rfl
  | @link p h hp =>
    refine ⟨lin, hl.of_agree rfl (fun q => ?_) fun q _ => ?_⟩
    · by_cases hqp : q = p
      · subst hqp
        simp [hp, Pc.published]
      · simp [hqp]
    · by_cases hqp : q = p
      · subst hqp
        simp [Conf.link, hp]
      · exact Conf.link_eq_of (by simp [hqp]) (by simp [hqp])

theorem Linearized.of_reachable {next : α → Option α} {c : Conf ι α}
    (h : Relation.ReflTransGen (Step dst) (Conf.init next) c) : ∃ lin, Linearized dst c lin := by
  induction h with
  | refl => exact ⟨[], Linearized.init next⟩
  | tail _ hs ih =>
    obtain ⟨lin, hl⟩ := ih
    exact hl.step hs

end Push

end LinkedPush
