import Mathlib.Algebra.Group.Nat.Defs
import Mathlib.Order.MinMax
import Mathlib.Order.Basic
import Mathlib.Data.List.Nodup
import Mathlib.Data.List.Perm.Subperm
import Mathlib.Data.List.Range

/-!
# Bounded unsigned integers

`Uint max` is the unsigned integers up to and including `max`, with the checked and the saturating
operations a program uses, and the sum that wraps. Every operation is described by the value it
leaves, so goals about them are goals of linear arithmetic over `ℕ`.
-/

/-- An unsigned integer of at most `max`. -/
structure Uint (max : ℕ) where
  val : ℕ
  le_max : val ≤ max
deriving DecidableEq

abbrev U64 := Uint (2 ^ 64 - 1)

abbrev U32 := Uint (2 ^ 32 - 1)

namespace Uint

variable {max : ℕ}

theorem val_injective : Function.Injective (val : Uint max → ℕ)
  | ⟨_, _⟩, ⟨_, _⟩, rfl => rfl

theorem ext_val {a b : Uint max} (h : a.val = b.val) : a = b := val_injective h

instance : LinearOrder (Uint max) := LinearOrder.lift' val val_injective

theorem le_iff_val {a b : Uint max} : a ≤ b ↔ a.val ≤ b.val := Iff.rfl

theorem lt_iff_val {a b : Uint max} : a < b ↔ a.val < b.val := Iff.rfl

theorem val_monotone : Monotone (val : Uint max → ℕ) := fun _ _ h => h

@[simp] theorem val_min (a b : Uint max) : (min a b).val = min a.val b.val := val_monotone.map_min

@[simp] theorem val_max (a b : Uint max) : (a ⊔ b).val = a.val ⊔ b.val := val_monotone.map_max

/-- The number `n` itself, where it is at most `max`. -/
abbrev lit (n : ℕ) (h : Nat.ble n max = true := by exact Eq.refl true) : Uint max :=
  ⟨n, Nat.le_of_ble_eq_true h⟩

instance : Zero (Uint max) := ⟨⟨0, Nat.zero_le max⟩⟩

@[simp] theorem val_zero : (0 : Uint max).val = 0 := rfl

/-- The sum, or `max` where the sum is above it. -/
def saturatingAdd (a b : Uint max) : Uint max := ⟨min (a.val + b.val) max, min_le_right _ _⟩

/-- The sum, where it is at most `max`. -/
def checkedAdd (a b : Uint max) : Option (Uint max) :=
  if h : a.val + b.val ≤ max then some ⟨a.val + b.val, h⟩ else none

/-- The sum, taken again from zero on where it is above `max`. -/
def wrappingAdd (a b : Uint max) : Uint max :=
  ⟨(a.val + b.val) % (max + 1), Nat.le_of_lt_succ (Nat.mod_lt _ (Nat.succ_pos max))⟩

/-- The difference, where it is not below zero. -/
def checkedSub (a b : Uint max) : Option (Uint max) :=
  if b.val ≤ a.val then some ⟨a.val - b.val, (Nat.sub_le _ _).trans a.le_max⟩ else none

def saturatingSub (a b : Uint max) : Uint max := ⟨a.val - b.val, (Nat.sub_le _ _).trans a.le_max⟩

def saturatingMul (a b : Uint max) : Uint max := ⟨min (a.val * b.val) max, min_le_right _ _⟩

/-- The product, where it is at most `max`. -/
def checkedMul (a b : Uint max) : Option (Uint max) :=
  if h : a.val * b.val ≤ max then some ⟨a.val * b.val, h⟩ else none

/-- The quotient rounded down, where the divisor is not zero. -/
def checkedDiv (a b : Uint max) : Option (Uint max) :=
  if b.val = 0 then none else some ⟨a.val / b.val, (Nat.div_le_self _ _).trans a.le_max⟩

@[simp] theorem saturatingAdd_val (a b : Uint max) :
    (a.saturatingAdd b).val = min (a.val + b.val) max := rfl

@[simp] theorem saturatingMul_val (a b : Uint max) :
    (a.saturatingMul b).val = min (a.val * b.val) max := rfl

/-- A checked operation answers the number it computes, where that fits. -/
theorem dite_fits_eq_some {n : ℕ} {c : Uint max} :
    (if h : n ≤ max then some (⟨n, h⟩ : Uint max) else none) = some c ↔ c.val = n := by
  split_ifs with h
  · simp only [Option.some.injEq]
    exact ⟨fun hc => by rw [← hc], fun hc => ext_val hc.symm⟩
  · simp only [false_iff]
    intro hc
    exact h (hc ▸ c.le_max)

theorem checkedMul_eq_some {a b c : Uint max} :
    a.checkedMul b = some c ↔ c.val = a.val * b.val := dite_fits_eq_some

theorem checkedDiv_eq_some {a b c : Uint max} :
    a.checkedDiv b = some c ↔ 0 < b.val ∧ c.val = a.val / b.val := by
  unfold checkedDiv
  split_ifs with h
  · simp only [false_iff]
    omega
  · simp only [Option.some.injEq]
    refine ⟨fun hc => ⟨Nat.pos_of_ne_zero h, by rw [← hc]⟩, fun hc => ext_val hc.2.symm⟩

theorem checkedAdd_eq_some {a b c : Uint max} :
    a.checkedAdd b = some c ↔ c.val = a.val + b.val := dite_fits_eq_some

theorem checkedSub_eq_some {a b c : Uint max} :
    a.checkedSub b = some c ↔ c.val + b.val = a.val := by
  unfold checkedSub
  split_ifs with h
  · simp only [Option.some.injEq]
    refine ⟨fun hc => ?_, fun hc => ext_val ?_⟩
    · rw [← hc]
      simp only
      omega
    · simp only
      omega
  · simp only [false_iff]
    omega

theorem checkedSub_eq_none {a b : Uint max} : a.checkedSub b = none ↔ a.val < b.val := by
  unfold checkedSub
  split_ifs with h
  · simp only [false_iff]
    omega
  · simp only [true_iff]
    omega

theorem length_le_of_nodup {l : List (Uint max)} (h : l.Nodup) : l.length ≤ max + 1 := by
  have hmap : (l.map val).Nodup := h.map val_injective
  have hsub : l.map val ⊆ List.range (max + 1) := by
    intro n hn
    obtain ⟨a, -, rfl⟩ := List.mem_map.1 hn
    exact List.mem_range.2 (Nat.lt_succ_of_le a.le_max)
  simpa using (List.subperm_of_subset hmap hsub).length_le

theorem le_length_of_forall_mem {l : List (Uint max)} (h : ∀ a, a ∈ l) : max + 1 ≤ l.length := by
  have hsub : List.range (max + 1) ⊆ l.map val := by
    intro n hn
    have hle : n ≤ max := Nat.le_of_lt_succ (List.mem_range.1 hn)
    exact List.mem_map.2 ⟨⟨n, hle⟩, h _, rfl⟩
  simpa using (List.subperm_of_subset List.nodup_range hsub).length_le

end Uint

/-- `u64::from` on a `u32`. -/
def U64.ofU32 (a : U32) : U64 := ⟨a.val, a.le_max.trans (by decide)⟩
