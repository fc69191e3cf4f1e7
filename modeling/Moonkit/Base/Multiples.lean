import Mathlib.Data.Finset.Card
import Mathlib.Order.Bounds.Basic
import Mathlib.Order.Interval.Finset.Nat

/-!
# The next multiple

A timer that fires at the multiples of an interval finds the next one by rounding down the sum of
the time and the interval. `next i n` is the least multiple of `i` above `n`; a multiple is found
from the time just before it, so the multiples in a window are counted by its length.
-/

namespace Multiples

variable {i m n : ℕ}

/-- `n + i` rounded down to a multiple of `i`. -/
def next (i n : ℕ) : ℕ := (n + i) / i * i

theorem dvd_next (i n : ℕ) : i ∣ next i n := Nat.dvd_mul_left i _

theorem next_le_add (i n : ℕ) : next i n ≤ n + i := Nat.div_mul_le_self (n + i) i

theorem lt_next (hi : 0 < i) (n : ℕ) : n < next i n := by
  have hlt : n + i < (n + i) / i * i + i := by
    rw [← Nat.succ_mul]
    exact (Nat.div_lt_iff_lt_mul hi).1 (Nat.lt_succ_self _)
  unfold next
  omega

/-- Two multiples of `i` are the same or at least `i` apart. -/
theorem add_le_of_lt (hm : i ∣ m) (hn : i ∣ n) (h : m < n) : m + i ≤ n := by
  have hle : i ≤ n - m := Nat.le_of_dvd (Nat.sub_pos_of_lt h) (Nat.dvd_sub hn hm)
  omega

theorem isLeast_next (hi : 0 < i) (n : ℕ) : IsLeast {m | i ∣ m ∧ n < m} (next i n) := by
  refine ⟨⟨dvd_next i n, lt_next hi n⟩, fun m ⟨hm, hlt⟩ => ?_⟩
  by_contra hne
  have hle := add_le_of_lt hm (dvd_next i n) (not_le.1 hne)
  have := next_le_add i n
  omega

/-- A positive multiple is found from the time before it. -/
theorem next_pred (hi : 0 < i) (hm : i ∣ m) (hpos : 0 < m) : next i (m - 1) = m :=
  (isLeast_next hi (m - 1)).unique
    ⟨⟨hm, Nat.sub_lt hpos one_pos⟩, fun _ ⟨_, hlt⟩ => Nat.le_of_pred_lt hlt⟩

/-- The multiples of `i` above `a`, up to `a + l`. -/
def window (i a l : ℕ) : Finset ℕ := {m ∈ Finset.Ioc a (a + l) | i ∣ m}

theorem mem_window {a l : ℕ} : m ∈ window i a l ↔ (a < m ∧ m ≤ a + l) ∧ i ∣ m := by
  simp [window]

/-- There are at least as many as intervals fit into the window. -/
theorem le_card_window (hi : 0 < i) (a l : ℕ) : l / i ≤ (window i a l).card := by
  refine Finset.le_card_of_inj_on_range (fun k => next i a + k * i) (fun k hk => ?_) ?_
  · have hfit : (k + 1) * i ≤ l := (Nat.le_div_iff_mul_le hi).1 hk
    have hadd : (k + 1) * i = k * i + i := Nat.succ_mul k i
    have hlt := lt_next hi a
    have hle := next_le_add i a
    exact mem_window.2 ⟨by omega, Nat.dvd_add (dvd_next i a) (Nat.dvd_mul_left i k)⟩
  · intro k _ k' _ h
    exact Nat.eq_of_mul_eq_mul_right hi (Nat.add_left_cancel h)

end Multiples
