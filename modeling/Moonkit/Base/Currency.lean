import Moonkit.Base.Uint
import Mathlib.Algebra.BigOperators.Group.Finset.Basic
import Mathlib.Logic.Function.Basic
import Mathlib.Tactic.SplitIfs

/-!
# Currencies with checked transfers

A `Currency` reads free balances off a ledger and moves them by transfers that keep both accounts
alive: a transfer that succeeds moves exactly its amount, and one that fails leaves no new ledger.
`Currency.checked` is the standard one, with an existential deposit. A transfer of an
`ExpendableCurrency` may end the account it is from: what is left there below the deposit is lost.
What the two have in common is said of their ledgers once (`Issued.Moves`).
-/

inductive TransferError where
  /-- More than was ever issued. -/
  | underflow
  | fundsUnavailable
  | notExpendable
  | belowMinimum
  | overflow
deriving DecidableEq

/-- A currency over the accounts `A`, with ledgers `L` and balances of at most `max`. -/
structure Currency (A L : Type) (max : ℕ) where
  freeBalance : L → A → Uint max
  transfer : L → A → A → Uint max → Except TransferError L
  transfer_self : ∀ {l l' a n}, transfer l a a n = .ok l' → ∀ b, freeBalance l' b = freeBalance l b
  transfer_source : ∀ {l l' a b n}, a ≠ b → transfer l a b n = .ok l' →
    (freeBalance l' a).val + n.val = (freeBalance l a).val
  transfer_dest : ∀ {l l' a b n}, a ≠ b → transfer l a b n = .ok l' →
    (freeBalance l' b).val = (freeBalance l b).val + n.val
  transfer_other : ∀ {l l' a b n}, transfer l a b n = .ok l' →
    ∀ c, c ≠ a → c ≠ b → freeBalance l' c = freeBalance l c

/-- The free balances, and how much was issued in all. -/
structure Issued (A : Type) (max : ℕ) where
  issuance : Uint max
  free : A → Uint max

namespace Issued

variable {A : Type} {max : ℕ} [DecidableEq A] {l l' : Issued A max} {a b : A} {n : Uint max}
  {kept : Uint max → Uint max}

/-- From `l` to `l'` nothing was to move, or `n` moved from `a`, which keeps what `kept` says of the
rest, to `b`. -/
def Moves (l l' : Issued A max) (a b : A) (n : Uint max) (kept : Uint max → Uint max) : Prop :=
  (n.val = 0 ∨ a = b) ∧ l' = l ∨
    a ≠ b ∧ ∃ rest sum, (l.free a).checkedSub n = some rest ∧ (l.free b).checkedAdd n = some sum ∧
      l'.free = Function.update (Function.update l.free a (kept rest)) b sum

theorem Moves.self (h : l.Moves l' a a n kept) (c : A) : l'.free c = l.free c := by
  rcases h with ⟨-, rfl⟩ | ⟨hne, -⟩
  · rfl
  · exact absurd rfl hne

theorem Moves.source (h : l.Moves l' a b n kept) (hab : a ≠ b) :
    ∃ rest, rest.val + n.val = (l.free a).val ∧ (l'.free a = rest ∨ l'.free a = kept rest) := by
  rcases h with ⟨h0 | h0, rfl⟩ | ⟨-, rest, sum, hrest, -, hfree⟩
  · exact ⟨l'.free a, by omega, .inl rfl⟩
  · exact absurd h0 hab
  · refine ⟨rest, Uint.checkedSub_eq_some.1 hrest, .inr ?_⟩
    rw [hfree, Function.update_of_ne hab, Function.update_self]

theorem Moves.dest (h : l.Moves l' a b n kept) (hab : a ≠ b) :
    (l'.free b).val = (l.free b).val + n.val := by
  rcases h with ⟨h0 | h0, rfl⟩ | ⟨-, rest, sum, -, hsum, hfree⟩
  · omega
  · exact absurd h0 hab
  · rw [hfree, Function.update_self]
    exact Uint.checkedAdd_eq_some.1 hsum

theorem Moves.other (h : l.Moves l' a b n kept) (c : A) (hca : c ≠ a) (hcb : c ≠ b) :
    l'.free c = l.free c := by
  rcases h with ⟨-, rfl⟩ | ⟨-, rest, sum, -, -, hfree⟩
  · rfl
  · rw [hfree, Function.update_of_ne hcb, Function.update_of_ne hca]

end Issued

namespace Currency

variable {A L : Type} {max : ℕ} (C : Currency A L max)

theorem transfer_le {l l' : L} {a b : A} {n : Uint max} (h : C.transfer l a b n = .ok l') (c : A) :
    (C.freeBalance l c).val ≤ (C.freeBalance l' c).val + n.val := by
  by_cases hab : a = b
  · subst hab
    rw [C.transfer_self h c]
    omega
  by_cases hca : c = a
  · subst hca
    exact (C.transfer_source hab h).ge
  by_cases hcb : c = b
  · subst hcb
    rw [C.transfer_dest hab h]
    omega
  · rw [C.transfer_other h c hca hcb]
    omega

/-- A transfer of nothing, or to the same account, leaves every balance. -/
theorem transfer_unmoved {l l' : L} {a b : A} {n : Uint max} (hn : n = 0 ∨ a = b)
    (h : C.transfer l a b n = .ok l') (c : A) : C.freeBalance l' c = C.freeBalance l c := by
  by_cases hab : a = b
  · subst hab
    exact C.transfer_self h c
  · obtain rfl := hn.resolve_right hab
    by_cases hca : c = a
    · subst hca
      exact Uint.ext_val (C.transfer_source hab h)
    by_cases hcb : c = b
    · subst hcb
      exact Uint.ext_val (C.transfer_dest hab h)
    · exact C.transfer_other h c hca hcb

/-- Any other transfer changes the balance it goes to. -/
theorem transfer_moved {l l' : L} {a b : A} {n : Uint max} (hn : n ≠ 0) (hab : a ≠ b)
    (h : C.transfer l a b n = .ok l') : C.freeBalance l' b ≠ C.freeBalance l b := by
  intro heq
  have hdest := C.transfer_dest hab h
  rw [heq] at hdest
  have hzero : n.val = (0 : Uint max).val := by
    rw [Uint.val_zero]
    omega
  exact hn (Uint.ext_val hzero)

variable [DecidableEq A]

theorem transfer_sum {l l' : L} {a b : A} {n : Uint max} {S : Finset A} (ha : a ∈ S) (hb : b ∈ S)
    (h : C.transfer l a b n = .ok l') :
    ∑ x ∈ S, (C.freeBalance l' x).val = ∑ x ∈ S, (C.freeBalance l x).val := by
  by_cases hab : a = b
  · subst hab
    exact Finset.sum_congr rfl fun x _ => by rw [C.transfer_self h x]
  · have hb' : b ∈ S.erase a := Finset.mem_erase.2 ⟨Ne.symm hab, hb⟩
    have hrest : ∑ x ∈ (S.erase a).erase b, (C.freeBalance l' x).val =
        ∑ x ∈ (S.erase a).erase b, (C.freeBalance l x).val := by
      refine Finset.sum_congr rfl fun x hx => ?_
      obtain ⟨hxb, hx⟩ := Finset.mem_erase.1 hx
      rw [C.transfer_other h x (Finset.ne_of_mem_erase hx) hxb]
    have hsource := C.transfer_source hab h
    have hdest := C.transfer_dest hab h
    rw [← Finset.add_sum_erase S _ ha, ← Finset.add_sum_erase _ _ hb',
      ← Finset.add_sum_erase S (fun x => (C.freeBalance l x).val) ha,
      ← Finset.add_sum_erase _ (fun x => (C.freeBalance l x).val) hb', hrest]
    omega

/-- The ledger after moving `n` from `a` to `b`, if the checks allow it. -/
def checkedTransfer (deposit : ℕ) (l : Issued A max) (a b : A) (n : Uint max) :
    Except TransferError (Issued A max) :=
  if n.val = 0 ∨ a = b then .ok l
  else if l.issuance.val < n.val then .error .underflow
  else match (l.free a).checkedSub n with
    | none => .error .fundsUnavailable
    | some rest =>
      if rest.val < deposit then .error .notExpendable
      else match (l.free b).checkedAdd n with
        | none => .error .overflow
        | some sum =>
          if sum.val < deposit then .error .belowMinimum
          else .ok { l with free := Function.update (Function.update l.free a rest) b sum }

theorem checkedTransfer_moves {deposit : ℕ} {l l' : Issued A max} {a b : A} {n : Uint max}
    (h : checkedTransfer deposit l a b n = .ok l') : l.Moves l' a b n id := by
  unfold checkedTransfer at h
  split_ifs at h with h0
  · cases h
    exact .inl ⟨h0, rfl⟩
  · refine .inr ⟨fun hab => h0 (.inr hab), ?_⟩
    split at h
    · cases h
    rename_i rest hrest
    split_ifs at h
    split at h
    · cases h
    rename_i sum hsum
    split_ifs at h
    cases h
    exact ⟨rest, sum, hrest, hsum, rfl⟩

/-- The standard currency: neither side of a transfer may be left with less than the existential
deposit. -/
def checked (A : Type) [DecidableEq A] (max deposit : ℕ) : Currency A (Issued A max) max where
  freeBalance := Issued.free
  transfer := checkedTransfer deposit
  transfer_self h := (checkedTransfer_moves h).self
  transfer_source hab h := by
    obtain ⟨rest, hrest, hkept | hkept⟩ := (checkedTransfer_moves h).source hab
    · rw [hkept, hrest]
    · rw [hkept, id, hrest]
  transfer_dest hab h := (checkedTransfer_moves h).dest hab
  transfer_other h := (checkedTransfer_moves h).other

end Currency

/-- A currency whose transfers may take more than their amount from an account they end. -/
structure ExpendableCurrency (A L : Type) (max : ℕ) where
  freeBalance : L → A → Uint max
  transferAllowDeath : L → A → A → Uint max → Except TransferError L
  transfer_self : ∀ {l l' a n}, transferAllowDeath l a a n = .ok l' →
    ∀ b, freeBalance l' b = freeBalance l b
  transfer_source : ∀ {l l' a b n}, a ≠ b → transferAllowDeath l a b n = .ok l' →
    (freeBalance l' a).val + n.val ≤ (freeBalance l a).val
  transfer_dest : ∀ {l l' a b n}, a ≠ b → transferAllowDeath l a b n = .ok l' →
    (freeBalance l' b).val = (freeBalance l b).val + n.val
  transfer_other : ∀ {l l' a b n}, transferAllowDeath l a b n = .ok l' →
    ∀ c, c ≠ a → c ≠ b → freeBalance l' c = freeBalance l c

namespace ExpendableCurrency

variable {A : Type} {max : ℕ} [DecidableEq A]

/-- What stays of a balance: nothing if it is below the deposit. -/
def kept (deposit : ℕ) (rest : Uint max) : Uint max := if rest.val < deposit then 0 else rest

/-- The ledger after moving `n` from `a` to `b`, if the checks allow it. What is not kept is no
longer issued. -/
def reapingTransfer (deposit : ℕ) (l : Issued A max) (a b : A) (n : Uint max) :
    Except TransferError (Issued A max) :=
  if n.val = 0 ∨ a = b then .ok l
  else if l.issuance.val < n.val then .error .underflow
  else match (l.free a).checkedSub n with
    | none => .error .fundsUnavailable
    | some rest => match (l.free b).checkedAdd n with
      | none => .error .overflow
      | some sum =>
        if sum.val < deposit then .error .belowMinimum
        else .ok {
          issuance := l.issuance.saturatingSub (rest.saturatingSub (kept deposit rest))
          free := Function.update (Function.update l.free a (kept deposit rest)) b sum }

theorem kept_le (deposit : ℕ) (rest : Uint max) : (kept deposit rest).val ≤ rest.val := by
  unfold kept
  split_ifs <;> simp

theorem reapingTransfer_moves {deposit : ℕ} {l l' : Issued A max} {a b : A} {n : Uint max}
    (h : reapingTransfer deposit l a b n = .ok l') : l.Moves l' a b n (kept deposit) := by
  unfold reapingTransfer at h
  split_ifs at h with h0
  · cases h
    exact .inl ⟨h0, rfl⟩
  · refine .inr ⟨fun hab => h0 (.inr hab), ?_⟩
    split at h
    · cases h
    rename_i rest hrest
    split at h
    · cases h
    rename_i sum hsum
    split_ifs at h
    cases h
    exact ⟨rest, sum, hrest, hsum, rfl⟩

/-- The standard one: what is left below the existential deposit is lost. -/
def reaping (A : Type) [DecidableEq A] (max deposit : ℕ) :
    ExpendableCurrency A (Issued A max) max where
  freeBalance := Issued.free
  transferAllowDeath := reapingTransfer deposit
  transfer_self h := (reapingTransfer_moves h).self
  transfer_source hab h := by
    obtain ⟨rest, hrest, hkept | hkept⟩ := (reapingTransfer_moves h).source hab
    · rw [hkept, hrest]
    · rw [hkept, ← hrest]
      exact Nat.add_le_add_right (kept_le deposit rest) _
  transfer_dest hab h := (reapingTransfer_moves h).dest hab
  transfer_other h := (reapingTransfer_moves h).other

end ExpendableCurrency
