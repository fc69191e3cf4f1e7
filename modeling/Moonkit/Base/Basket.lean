import Mathlib.Algebra.Ring.Nat
import Mathlib.Algebra.BigOperators.Group.Finset.Piecewise
import Mathlib.Algebra.Order.BigOperators.Group.Finset
import Mathlib.Data.Finset.Sort

/-!
# Amounts put together

A list of amounts may name a thing more than once, and things in any order. Put together, the same
amounts are one entry for each thing, in the order of the things, with what there is of it as far as
an amount can count. So a place in the one list is a place in the other exactly where the list was
in order before.
-/

namespace Basket

variable {K : Type*} [LinearOrder K]

/-- How much there is of `k`. -/
def total (l : List (K × ℕ)) (k : K) : ℕ := (l.map fun e => if e.1 = k then e.2 else 0).sum

/-- `m` is what the amounts of `l` are put together, where an amount counts up to `cap`. -/
structure Merges (cap : ℕ) (l m : List (K × ℕ)) : Prop where
  sorted : (m.map Prod.fst).Pairwise (· < ·)
  mem_keys : ∀ k, k ∈ m.map Prod.fst ↔ k ∈ l.map Prod.fst
  total_eq : ∀ k, total m k = min (total l k) cap

variable {cap : ℕ} {l m : List (K × ℕ)} {e : K × ℕ} {k : K} {n : ℕ}

theorem total_cons : total (e :: l) k = (if e.1 = k then e.2 else 0) + total l k := List.sum_cons

theorem total_of_not_mem : ∀ {l : List (K × ℕ)}, k ∉ l.map Prod.fst → total l k = 0
  | [], _ => rfl
  | e :: l, h => by
    rw [List.map_cons, List.mem_cons, not_or] at h
    rw [total_cons, if_neg (Ne.symm h.1), Nat.zero_add, total_of_not_mem h.2]

theorem total_of_mem : ∀ {l : List (K × ℕ)}, (l.map Prod.fst).Nodup → (k, n) ∈ l → total l k = n
  | e :: l, hd, h => by
    rw [List.map_cons, List.nodup_cons] at hd
    rw [total_cons]
    rcases List.mem_cons.1 h with rfl | h
    · rw [if_pos rfl, total_of_not_mem hd.1, Nat.add_zero]
    · have hne : e.1 ≠ k := fun hk => hd.1 (hk ▸ List.mem_map_of_mem h)
      rw [if_neg hne, Nat.zero_add, total_of_mem hd.2 h]

theorem sum_total (s : Finset K) : ∀ {l : List (K × ℕ)}, (∀ k ∈ l.map Prod.fst, k ∈ s) →
    ∑ k ∈ s, total l k = (l.map Prod.snd).sum
  | [], _ => Finset.sum_const_zero
  | e :: l, h => by
    rw [List.map_cons, List.forall_mem_cons] at h
    simp only [total_cons, Finset.sum_add_distrib, Finset.sum_ite_eq, h.1, if_true,
      List.map_cons, List.sum_cons, sum_total s h.2]

namespace Merges

theorem keys_eq_sort (h : Merges cap l m) : m.map Prod.fst = (l.map Prod.fst).toFinset.sort := by
  refine h.sorted.eq_of_mem_iff (Finset.sortedLT_sort _).pairwise fun k => ?_
  rw [h.mem_keys, Finset.mem_sort, List.mem_toFinset]

/-- There are as many entries as things are named. -/
theorem length_eq (h : Merges cap l m) : m.length = (l.map Prod.fst).toFinset.card := by
  rw [← Finset.length_sort (· ≤ ·), ← h.keys_eq_sort, List.length_map]

theorem amount_of_mem (h : Merges cap l m) (hm : (k, n) ∈ m) : n = min (total l k) cap := by
  rw [← h.total_eq, total_of_mem h.sorted.nodup hm]

theorem length_le (h : Merges cap l m) : m.length ≤ l.length := by
  rw [h.length_eq, ← List.length_map Prod.fst]
  exact List.toFinset_card_le _

/-- Putting together makes nothing. -/
theorem sum_le (h : Merges cap l m) : (m.map Prod.snd).sum ≤ (l.map Prod.snd).sum := by
  rw [← sum_total (l.map Prod.fst).toFinset fun k hk => List.mem_toFinset.2 ((h.mem_keys k).1 hk),
    ← sum_total (l.map Prod.fst).toFinset fun k hk => List.mem_toFinset.2 hk]
  refine Finset.sum_le_sum fun k _ => ?_
  rw [h.total_eq]
  exact min_le_left _ _

end Merges

section Gather

/-- Put one more amount to the others. -/
def put (cap : ℕ) (e : K × ℕ) : List (K × ℕ) → List (K × ℕ)
  | [] => [(e.1, min e.2 cap)]
  | e' :: m =>
    if e.1 < e'.1 then (e.1, min e.2 cap) :: e' :: m
    else if e.1 = e'.1 then (e.1, min (e.2 + e'.2) cap) :: m
    else e' :: put cap e m

def gather (cap : ℕ) (l : List (K × ℕ)) : List (K × ℕ) := l.foldr (put cap) []

theorem mem_keys_put : ∀ {m : List (K × ℕ)},
    k ∈ (put cap e m).map Prod.fst ↔ k = e.1 ∨ k ∈ m.map Prod.fst
  | [] => by simp [put]
  | e' :: m => by
    unfold put
    split_ifs with hlt heq
    · simp
    · simp [heq]
    · rw [List.map_cons, List.mem_cons, mem_keys_put, List.map_cons, List.mem_cons, or_left_comm]

theorem sorted_put : ∀ {m : List (K × ℕ)}, (m.map Prod.fst).Pairwise (· < ·) →
    ((put cap e m).map Prod.fst).Pairwise (· < ·)
  | [], _ => List.pairwise_singleton _ _
  | e' :: m, h => by
    have hcons := h
    rw [List.map_cons, List.pairwise_cons] at hcons
    unfold put
    split_ifs with hlt heq
    · rw [List.map_cons, List.pairwise_cons]
      refine ⟨fun k hk => ?_, h⟩
      rcases List.mem_cons.1 hk with rfl | hk
      · exact hlt
      · exact hlt.trans (hcons.1 k hk)
    · rw [List.map_cons, List.pairwise_cons, heq]
      exact hcons
    · rw [List.map_cons, List.pairwise_cons]
      refine ⟨fun k hk => ?_, sorted_put hcons.2⟩
      rcases mem_keys_put.1 hk with rfl | hk
      · exact lt_of_le_of_ne (not_lt.1 hlt) (Ne.symm heq)
      · exact hcons.1 k hk

theorem total_put : ∀ {m : List (K × ℕ)}, (m.map Prod.fst).Pairwise (· < ·) →
    total (put cap e m) k = if e.1 = k then min (e.2 + total m k) cap else total m k
  | [], _ => by
    rw [put, total_cons]
    rfl
  | e' :: m, h => by
    have hcons := h
    rw [List.map_cons, List.pairwise_cons] at hcons
    unfold put
    by_cases hlt : e.1 < e'.1
    · rw [if_pos hlt, total_cons]
      by_cases hk : e.1 = k
      · subst hk
        have hnot : e.1 ∉ (e' :: m).map Prod.fst := fun hmem => by
          rcases List.mem_cons.1 hmem with heq | hmem
          · exact hlt.ne heq
          · exact (hlt.trans (hcons.1 _ hmem)).false
        rw [if_pos rfl, if_pos rfl, total_of_not_mem hnot, Nat.add_zero, Nat.add_zero]
      · rw [if_neg hk, if_neg hk, Nat.zero_add]
    by_cases heq : e.1 = e'.1
    · rw [if_neg hlt, if_pos heq, total_cons, total_cons, ← heq]
      by_cases hk : e.1 = k
      · subst hk
        have hnot : e.1 ∉ m.map Prod.fst := fun hmem => (hcons.1 _ hmem).ne heq.symm
        simp only [if_true, total_of_not_mem hnot, Nat.add_zero]
      · simp only [if_neg hk, Nat.zero_add]
    · rw [if_neg hlt, if_neg heq, total_cons, total_cons, total_put hcons.2]
      by_cases hk : e.1 = k
      · have hne : e'.1 ≠ k := fun hk' => heq (hk.trans hk'.symm)
        rw [if_pos hk, if_pos hk, if_neg hne, Nat.zero_add, Nat.zero_add]
      · rw [if_neg hk, if_neg hk]

theorem merges_gather : ∀ l : List (K × ℕ), Merges cap l (gather cap l)
  | [] => ⟨List.Pairwise.nil, fun _ => Iff.rfl, fun _ => rfl⟩
  | e :: l => by
    have ih := merges_gather l
    refine ⟨sorted_put ih.sorted, fun k => ?_, fun k => ?_⟩
    · rw [gather, List.foldr_cons, mem_keys_put, ← gather, ih.mem_keys, List.map_cons,
        List.mem_cons]
    · rw [gather, List.foldr_cons, ← gather, total_put ih.sorted, ih.total_eq, total_cons]
      split_ifs with hk
      · omega
      · rw [Nat.zero_add]

end Gather

end Basket
