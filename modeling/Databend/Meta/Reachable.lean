import Mathlib
import Databend.Meta.Applier

namespace Databend.Meta

variable {LogId Membership Node : Type}

inductive Step (kmerge : ∀ {α : Type}, (α → α → Except String Bool) → List (List α) → Except String (List α)) :
    SMV002 LogId Membership Node → SMV002 LogId Membership Node → Prop
  | apply (entry : Entry LogId Membership Node) {s s' : SMV002 LogId Membership Node}
      {r : AppliedState Node} (h : Applier.apply kmerge entry s = .ok (s', r)) : Step kmerge s s'
  | snapshot (s : SMV002 LogId Membership Node) : Step kmerge s s.full_snapshot_view.1
  | compact (s : SMV002 LogId Membership Node) {v : SnapshotViewV002 LogId Membership Node}
      (h : s.levels.frozen ≠ []) (hv : (SnapshotViewV002.new s.levels.frozen).compact_mem_levels kmerge = .ok v) :
      Step kmerge s (s.replace_frozen v)

def Reachable [Inhabited Membership] (kmerge : ∀ {α : Type}, (α → α → Except String Bool) → List (List α) → Except String (List α))
    (s : SMV002 LogId Membership Node) : Prop :=
  Relation.ReflTransGen (Step kmerge) SMV002.default_sm s

-- the k-way merge to run the model with: two-way merges folded over the ranges
def foldMerge {α : Type} (cmp : α → α → Except String Bool) (ls : List (List α)) : Except String (List α) :=
  KMerge.foldMerge cmp ls

theorem foldMerge_mergeSpec : KMerge.MergeSpec @foldMerge :=
  KMerge.foldMerge_mergeSpec

theorem reachable_double_delete (kmerge : ∀ {α : Type}, (α → α → Except String Bool) → List (List α) → Except String (List α)) :
    ∃ s : SMV002 Nat Unit Unit, Reachable kmerge s ∧
      s.levels.iter_levels.map (fun l => l.kv.entries) = [[("a", .TombStone 1)], [("a", .TombStone 1)]] ∧
      s.levels.iter_levels.map (fun l => l.kv.get "a") = [some (.TombStone 1), some (.TombStone 1)] := by
  let put : Entry Nat Unit Unit := ⟨1, .Normal ⟨none, none, .UpsertKV (UpsertKV.update "a" [1])⟩⟩
  let del : Entry Nat Unit Unit := ⟨2, .Normal ⟨none, none, .UpsertKV (UpsertKV.delete "a")⟩⟩
  exact ⟨_, .tail (.tail (.tail (.tail .refl (Step.apply put rfl)) (Step.apply del rfl)) (Step.snapshot _))
    (Step.apply { del with log_id := 3 } rfl), by decide, by decide⟩

-- sample states: "a" written with an expiry at 100 s; then frozen and "b" written;
-- then frozen again and "a" deleted, which leaves a tombstone over a live frozen entry
def one_level_sm : SMV002 Nat Unit Unit :=
  ⟨⟨⟨⟨some 1, ⟨none, ()⟩, SortedMap.empty, 1⟩,
        ⟨[("a", .Normal 1 [1] (some ⟨some 100⟩))], List.pairwise_singleton _ _⟩,
        ⟨[(⟨100000, 1⟩, .Normal 1 "a" none)], List.pairwise_singleton _ _⟩⟩, []⟩,
    ⟨0, 0⟩⟩

def two_level_sm : SMV002 Nat Unit Unit :=
  ⟨⟨⟨⟨some 2, ⟨none, ()⟩, SortedMap.empty, 2⟩, ⟨[("b", .Normal 2 [2] none)], List.pairwise_singleton _ _⟩,
        SortedMap.empty⟩, [one_level_sm.levels.writable]⟩,
    ⟨0, 0⟩⟩

def three_level_sm : SMV002 Nat Unit Unit :=
  ⟨⟨⟨⟨some 3, ⟨none, ()⟩, SortedMap.empty, 2⟩, ⟨[("a", .TombStone 2)], List.pairwise_singleton _ _⟩,
        ⟨[(⟨100000, 1⟩, .TombStone 2)], List.pairwise_singleton _ _⟩⟩,
      two_level_sm.levels.frozen ++ [two_level_sm.levels.writable]⟩,
    ⟨0, 0⟩⟩

section Samples

variable (kmerge : ∀ {α : Type}, (α → α → Except String Bool) → List (List α) → Except String (List α))

theorem reachable_one_level_sm : Reachable kmerge one_level_sm := by
  let put_a : Entry Nat Unit Unit :=
    ⟨1, .Normal ⟨none, none, .UpsertKV { UpsertKV.update "a" [1] with value_meta := some ⟨some 100⟩ }⟩⟩
  have h : Relation.ReflTransGen (Step kmerge) SMV002.default_sm _ := .tail .refl (Step.apply put_a rfl)
  exact h

theorem reachable_two_level_sm : Reachable kmerge two_level_sm := by
  let put_b : Entry Nat Unit Unit := ⟨2, .Normal ⟨none, none, .UpsertKV (UpsertKV.update "b" [2])⟩⟩
  have h : Relation.ReflTransGen (Step kmerge) SMV002.default_sm _ :=
    .tail (.tail (reachable_one_level_sm kmerge) (Step.snapshot _)) (Step.apply put_b rfl)
  exact h

theorem reachable_three_level_sm : Reachable kmerge three_level_sm := by
  let del_a : Entry Nat Unit Unit := ⟨3, .Normal ⟨none, none, .UpsertKV (UpsertKV.delete "a")⟩⟩
  have h : Relation.ReflTransGen (Step kmerge) SMV002.default_sm _ :=
    .tail (.tail (reachable_two_level_sm kmerge) (Step.snapshot _)) (Step.apply del_a rfl)
  exact h

end Samples

end Databend.Meta
