import Mathlib.Data.Nat.Periodic

/-!
# Rotations

Taking turns in the order of a list, again and again: in every window of turns as long as some
rounds of the list, each element gets as many turns as it stands in the list, times the rounds.
-/

namespace Rotation

variable {α : Type*}

/-- Whose turn it is at `i`. -/
def turn (l : List α) (i : ℕ) : Option α := l[i % l.length]?

theorem turn_of_mod_eq {l : List α} {i j : ℕ} (h : i % l.length = j % l.length) :
    turn l i = turn l j := by
  unfold turn
  rw [h]

theorem turn_add_rounds (l : List α) (i k : ℕ) : turn l (i + k * l.length) = turn l i :=
  turn_of_mod_eq (Nat.add_mul_mod_self_right ..)

variable [DecidableEq α] (l : List α) (a : α)

theorem count_getElem : Nat.count (fun i => l[i]? = some a) l.length = l.count a := by
  induction l with
  | nil => simp
  | cons b l ih =>
    rw [List.length_cons, Nat.count_succ', List.count_cons]
    simp only [List.getElem?_cons_succ, List.getElem?_cons_zero, Option.some.injEq, ih,
      beq_iff_eq]

/-- In the first round each element gets as many turns as it stands in the list. -/
theorem count_round : Nat.count (fun i => turn l i = some a) l.length = l.count a := by
  rw [← count_getElem]
  simp only [Nat.count_eq_card_filter_range]
  congr 1
  refine Finset.filter_congr fun i hi => ?_
  rw [turn, Nat.mod_eq_of_lt (Finset.mem_range.1 hi)]

theorem count_rounds (k : ℕ) :
    Nat.count (fun i => turn l i = some a) (k * l.length) = k * l.count a := by
  induction k with
  | zero => simp
  | succ k ih =>
    have hshift : ∀ i, turn l (k * l.length + i) = turn l i := fun i => by
      rw [Nat.add_comm, turn_add_rounds]
    simp only [Nat.succ_mul, Nat.count_add, ih, hshift, count_round]

/-- The turns of an element in a window of `k` rounds, wherever it starts. -/
theorem card_turns (start k : ℕ) :
    ((Finset.Ico start (start + k * l.length)).filter fun i => turn l i = some a).card
      = k * l.count a := by
  have hperiodic : Function.Periodic (fun i => turn l i = some a) (k * l.length) := fun i => by
    simp only [turn_add_rounds]
  rw [Nat.filter_Ico_card_eq_of_periodic _ _ _ hperiodic, count_rounds]

end Rotation
