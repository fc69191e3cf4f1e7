import Mathlib.Data.Finmap
import Mathlib.Algebra.BigOperators.Group.Finset.Basic
import Mathlib.Algebra.Order.BigOperators.Group.Finset
import Mathlib.Data.Finset.Card

/-!
# Totals over a finite map

`Finmap.total f m` adds `f` up over the values `m` holds. Inserting a new key, replacing a value
and erasing a key change it by exactly the values concerned.
-/

namespace Finmap

variable {K V : Type*} [DecidableEq K]

/-- The sum of `f` over the values of `m`. -/
def total (f : V → ℕ) (m : Finmap fun _ : K => V) : ℕ := ∑ k ∈ m.keys, (m.lookup k).elim 0 f

variable {f : V → ℕ} {m : Finmap fun _ : K => V} {k : K} {v w : V}

@[simp] theorem total_empty : total f (∅ : Finmap fun _ : K => V) = 0 := by simp [total]

theorem mem_keys_of_lookup (h : m.lookup k = some v) : k ∈ m.keys :=
  mem_keys.2 (mem_of_lookup_eq_some h)

theorem notMem_keys_of_lookup (h : m.lookup k = none) : k ∉ m.keys := fun hk =>
  lookup_eq_none.1 h (mem_keys.1 hk)

theorem lookup_of_lookup_erase {k' : K} (h : (m.erase k').lookup k = some v) :
    m.lookup k = some v := by
  have hk : k ≠ k' := by
    rintro rfl
    simp at h
  rwa [lookup_erase_ne hk] at h

theorem keys_insert (k : K) (v : V) (m : Finmap fun _ : K => V) :
    (m.insert k v).keys = Insert.insert k m.keys := by
  ext x
  simp [mem_keys]

theorem total_erase_add (h : m.lookup k = some v) : (m.erase k).total f + f v = m.total f := by
  unfold total
  rw [keys_erase, ← Finset.sum_erase_add _ _ (mem_keys_of_lookup h), h, Option.elim_some]
  refine congrArg (· + f v) (Finset.sum_congr rfl fun x hx => ?_)
  rw [lookup_erase_ne (Finset.ne_of_mem_erase hx)]

theorem total_insert_new (h : m.lookup k = none) :
    (m.insert k v).total f = m.total f + f v := by
  unfold total
  rw [keys_insert, Finset.sum_insert (notMem_keys_of_lookup h), lookup_insert, Option.elim_some,
    add_comm]
  refine congrArg (· + f v) (Finset.sum_congr rfl fun x hx => ?_)
  rw [lookup_insert_of_ne]
  rintro rfl
  exact notMem_keys_of_lookup h hx

/-- Replacing a value swaps the old one for the new one in the total. -/
theorem total_insert_add (h : m.lookup k = some w) :
    (m.insert k v).total f + f w = m.total f + f v := by
  have hk := mem_keys_of_lookup h
  unfold total
  rw [keys_insert, Finset.insert_eq_of_mem hk, ← Finset.sum_erase_add _ _ hk,
    ← Finset.sum_erase_add _ (fun x => (m.lookup x).elim 0 f) hk, h, lookup_insert,
    Option.elim_some, Option.elim_some, add_right_comm]
  refine congrArg (· + f w + f v) (Finset.sum_congr rfl fun x hx => ?_)
  rw [lookup_insert_of_ne _ (Finset.ne_of_mem_erase hx)]

theorem le_total (h : m.lookup k = some v) : f v ≤ m.total f := by
  have := total_erase_add (f := f) h
  omega

theorem total_pos : 0 < m.total f ↔ ∃ k v, m.lookup k = some v ∧ 0 < f v := by
  constructor
  · intro h
    obtain ⟨k, hk, hpos⟩ := Finset.exists_ne_zero_of_sum_ne_zero h.ne'
    obtain ⟨v, hv⟩ := mem_iff.1 (mem_keys.1 hk)
    rw [hv, Option.elim_some] at hpos
    exact ⟨k, v, hv, Nat.pos_of_ne_zero hpos⟩
  · rintro ⟨k, v, hv, hpos⟩
    exact hpos.trans_le (le_total hv)

/-- A total of values that are at most one is at most any bound on the numbers of the keys. -/
theorem total_le_of_keys_lt {g : K → ℕ} (hg : Function.Injective g) (hf : ∀ v, f v ≤ 1) {n : ℕ}
    (hk : ∀ k v, m.lookup k = some v → g k < n) : m.total f ≤ n := by
  have hone : ∀ k ∈ m.keys, (m.lookup k).elim 0 f ≤ 1 := by
    intro k _
    rcases m.lookup k with _ | v
    · simp
    · exact hf v
  have hcard : m.keys.card ≤ n := by
    rw [← Finset.card_image_of_injective _ hg, ← Finset.card_range n]
    refine Finset.card_le_card fun x hx => ?_
    obtain ⟨k, hk', rfl⟩ := Finset.mem_image.1 hx
    obtain ⟨v, hv⟩ := mem_iff.1 (mem_keys.1 hk')
    exact Finset.mem_range.2 (hk k v hv)
  calc m.total f ≤ ∑ _k ∈ m.keys, 1 := Finset.sum_le_sum hone
    _ ≤ n := by simpa using hcard

end Finmap
