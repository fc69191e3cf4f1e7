import Moonkit.Base.Uint
import Mathlib.Logic.Function.Basic
import Mathlib.Tactic.SplitIfs

/-!
# Currencies with reserved balances

A `ReservableCurrency` splits the balance of an account into a free and a reserved part. Reserving
moves exactly its amount or fails; unreserving moves as much of its amount as is reserved and
answers what it could not move. `ReservableCurrency.standard` is such a currency.
-/

/-- A currency over the accounts `A`, with ledgers `L` and balances of at most `max`. -/
structure ReservableCurrency (A L : Type) (max : ℕ) where
  freeBalance : L → A → Uint max
  reservedBalance : L → A → Uint max
  reserve : L → A → Uint max → Option L
  unreserve : L → A → Uint max → Uint max × L
  reserve_free : ∀ {l l' a n}, reserve l a n = some l' →
    (freeBalance l' a).val + n.val = (freeBalance l a).val
  reserve_reserved : ∀ {l l' a n}, reserve l a n = some l' →
    (reservedBalance l' a).val = (reservedBalance l a).val + n.val
  reserve_other : ∀ {l l' a n}, reserve l a n = some l' → ∀ b, b ≠ a →
    freeBalance l' b = freeBalance l b ∧ reservedBalance l' b = reservedBalance l b
  unreserve_left : ∀ l a n, (unreserve l a n).1.val = n.val - (reservedBalance l a).val
  unreserve_free : ∀ l a n, (freeBalance (unreserve l a n).2 a).val =
    (freeBalance l a).val + min n.val (reservedBalance l a).val
  unreserve_reserved : ∀ l a n,
    (reservedBalance (unreserve l a n).2 a).val = (reservedBalance l a).val - n.val
  unreserve_other : ∀ l a n b, b ≠ a →
    freeBalance (unreserve l a n).2 b = freeBalance l b ∧
      reservedBalance (unreserve l a n).2 b = reservedBalance l b

/-- The two parts of the balance of an account, which is at most `max`. -/
structure AccountData (max : ℕ) where
  free : ℕ
  reserved : ℕ
  le_max : free + reserved ≤ max
deriving DecidableEq

namespace AccountData

variable {max : ℕ}

def reserve (d : AccountData max) (n : ℕ) (h : n ≤ d.free) : AccountData max :=
  ⟨d.free - n, d.reserved + n, by have := d.le_max; omega⟩

def unreserve (d : AccountData max) (n : ℕ) : AccountData max :=
  ⟨d.free + min n d.reserved, d.reserved - n, by have := d.le_max; omega⟩

end AccountData

namespace ReservableCurrency

variable {A : Type} {max : ℕ} [DecidableEq A]

/-- The ledger after reserving `n` of the free balance of `a`, if as much is there and what stays
free is not below the existential deposit. -/
def standardReserve (deposit : ℕ) (l : A → AccountData max) (a : A) (n : Uint max) :
    Option (A → AccountData max) :=
  if n.val = 0 then some l
  else if h : n.val ≤ (l a).free then
    if (l a).free - n.val < deposit then none
    else some (Function.update l a ((l a).reserve n.val h))
  else none

theorem standardReserve_eq_some {deposit : ℕ} {l l' : A → AccountData max} {a : A} {n : Uint max}
    (h : standardReserve deposit l a n = some l') : n.val = 0 ∧ l' = l ∨
      ∃ hn : n.val ≤ (l a).free, l' = Function.update l a ((l a).reserve n.val hn) := by
  unfold standardReserve at h
  split_ifs at h with hzero hn hdeposit
  · exact .inl ⟨hzero, (Option.some.inj h).symm⟩
  · exact .inr ⟨hn, (Option.some.inj h).symm⟩

/-- The standard currency: a ledger of free and reserved balances, with an existential deposit. -/
def standard (A : Type) [DecidableEq A] (max deposit : ℕ) :
    ReservableCurrency A (A → AccountData max) max where
  freeBalance l a := ⟨(l a).free, by have := (l a).le_max; omega⟩
  reservedBalance l a := ⟨(l a).reserved, by have := (l a).le_max; omega⟩
  reserve := standardReserve deposit
  unreserve l a n := (⟨n.val - (l a).reserved, (Nat.sub_le _ _).trans n.le_max⟩,
    Function.update l a ((l a).unreserve n.val))
  reserve_free := by
    intro l l' a n h
    rcases standardReserve_eq_some h with ⟨hzero, rfl⟩ | ⟨hn, rfl⟩
    · rw [hzero, Nat.add_zero]
    · simp only [Function.update_self, AccountData.reserve]
      omega
  reserve_reserved := by
    intro l l' a n h
    rcases standardReserve_eq_some h with ⟨hzero, rfl⟩ | ⟨hn, rfl⟩
    · rw [hzero, Nat.add_zero]
    · simp only [Function.update_self, AccountData.reserve]
  reserve_other := by
    intro l l' a n h b hb
    rcases standardReserve_eq_some h with ⟨-, rfl⟩ | ⟨hn, rfl⟩
    · exact ⟨rfl, rfl⟩
    · simp only [Function.update_of_ne hb, and_self]
  unreserve_left := fun _ _ _ => rfl
  unreserve_free := by
    intro l a n
    simp only [Function.update_self, AccountData.unreserve]
  unreserve_reserved := by
    intro l a n
    simp only [Function.update_self, AccountData.unreserve]
  unreserve_other := by
    intro l a n b hb
    simp only [Function.update_of_ne hb, and_self]

end ReservableCurrency
