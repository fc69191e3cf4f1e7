import Moonkit.Base.Total
import Moonkit.Proofs.Registrations

/-!
# Deposits of registrations

While only this pallet reserves, the reserved balance of an account is the sum of the deposits in
the registrations it owns, whatever deposit was asked for when each was made. So a removal gives the
whole stored deposit back, a rotation moves no money, and an account without a registration has
nothing reserved.
-/

namespace Moonkit

namespace AuthorMapping

variable {AccountId Keys Ledger : Type} [DecidableEq AccountId] {C : Config AccountId Keys Ledger}
  {s s' : State C}

/-- What the registrations of the account say is reserved on it. -/
def deposited (s : State C) (a : AccountId) : ℕ :=
  s.mappingWithDeposit.total fun info => if info.account = a then info.deposit.val else 0

section Deposited

variable {accountId : AccountId} {id old new : NimbusId} {keys : Keys} {info : RegistrationInfo C}
  {ledger : Ledger}

theorem deposited_registered (hfree : s.mappingWithDeposit.lookup id = none) (a : AccountId) :
    deposited (s.registered id accountId keys ledger) a =
      deposited s a + if accountId = a then s.depositAmount.val else 0 :=
  Finmap.total_insert_new hfree

theorem deposited_removed (hinfo : s.mappingWithDeposit.lookup id = some info) (a : AccountId) :
    deposited (s.removed id info) a + (if info.account = a then info.deposit.val else 0) =
      deposited s a :=
  Finmap.total_erase_add hinfo

/-- A rotation takes the deposit from the old id to the new one, also where they are the same. -/
theorem deposited_rotated (hold : s.mappingWithDeposit.lookup old = some info)
    (hnew : (s.mappingWithDeposit.erase old).lookup new = none) (a : AccountId) :
    deposited (s.rotated old new info keys) a = deposited s a := by
  unfold deposited
  rw [← Finmap.total_erase_add hold]
  exact Finmap.total_insert_new hnew

theorem deposited_eq_zero {a : AccountId} (hnone : ∀ n, ¬ s.Owns a n) : deposited s a = 0 := by
  by_contra hne
  obtain ⟨n, info, hinfo, hpos⟩ := Finmap.total_pos.1 (Nat.pos_of_ne_zero hne)
  split_ifs at hpos with ha
  · exact hnone n (owns_iff.2 ⟨info, hinfo, ha⟩)
  · exact absurd hpos (lt_irrefl 0)

end Deposited

/-- The reserved balance of every account is what its registrations say. -/
def Backed (s : State C) : Prop :=
  ∀ a, (C.depositCurrency.reservedBalance s.ledger a).val = deposited s a

/-- The rest of the runtime does not touch reserved balances. -/
def KeepsReserved (s : State C) : Op C → Prop
  | .elsewhere ledger _ => ∀ a,
    C.depositCurrency.reservedBalance ledger a = C.depositCurrency.reservedBalance s.ledger a
  | _ => True

/-- Nothing is reserved. -/
def Unreserved (C : Config AccountId Keys Ledger) (ledger : Ledger) : Prop :=
  ∀ a, C.depositCurrency.reservedBalance ledger a = 0

theorem backed_effect {op : Op C} (hs : Backed s) (hop : KeepsReserved s op)
    (heffect : Effect s op s') : Backed s' := by
  intro a
  have ha := hs a
  cases heffect with
  | registered hsigned hfree hreserve =>
    rename_i accountId id keys ledger events
    show (C.depositCurrency.reservedBalance ledger a).val =
      deposited (s.registered id accountId keys ledger) a
    rw [deposited_registered hfree a]
    split_ifs with heq
    · subst heq
      rw [C.depositCurrency.reserve_reserved hreserve, ha]
    · rw [(C.depositCurrency.reserve_other hreserve a (Ne.symm heq)).2, ha, Nat.add_zero]
  | rotated hsigned hold hnew => exact ha.trans (deposited_rotated hold hnew a).symm
  | removed hremoves hinfo =>
    rename_i id info events
    have hsum := deposited_removed hinfo a
    show (C.depositCurrency.reservedBalance
      (C.depositCurrency.unreserve s.ledger info.account info.deposit).2 a).val =
        deposited (s.removed id info) a
    split_ifs at hsum with heq
    · subst heq
      rw [C.depositCurrency.unreserve_reserved, ha]
      omega
    · rw [(C.depositCurrency.unreserve_other _ _ _ a (Ne.symm heq)).2, ha]
      omega
  | elsewhere helse =>
    subst helse
    exact (congrArg Uint.val (hop a)).trans ha

theorem backed_of_run {h : List (RunEvent C)}
    (hr : (machine C (Unreserved C)).Run (fun _ s op => KeepsReserved s op) h s) : Backed s := by
  refine run_invariant (fun _ _ _ => trivial) ?_ backed_effect hr
  intro ledger depositAmount hfresh a
  show (C.depositCurrency.reservedBalance ledger a).val = Finmap.total _ ∅
  rw [hfresh a, Finmap.total_empty]
  rfl

theorem updateAssociation_ledger (origin : RawOrigin AccountId) (old new : NimbusId) (s : State C) :
    (updateAssociation origin old new s).2.ledger = s.ledger := by
  cases origin with
  | signed accountId => exact rotateKeys_ledger old new accountId _ s
  | _ => rfl

theorem unreserved_of_removes (hs : Backed s) {op : Op C} {id : NimbusId}
    {info : RegistrationInfo C} (hop : op.removes s = some (info.account, id))
    (hinfo : s.mappingWithDeposit.lookup id = some info) :
    (C.depositCurrency.unreserve s.ledger info.account info.deposit).1 = 0 ∧
      (C.depositCurrency.freeBalance (op.run s).2.ledger info.account).val =
        (C.depositCurrency.freeBalance s.ledger info.account).val + info.deposit.val ∧
      (C.depositCurrency.reservedBalance (op.run s).2.ledger info.account).val + info.deposit.val =
        (C.depositCurrency.reservedBalance s.ledger info.account).val := by
  have hle : info.deposit.val ≤ (C.depositCurrency.reservedBalance s.ledger info.account).val := by
    have hsum := deposited_removed hinfo info.account
    rw [if_pos rfl] at hsum
    rw [hs info.account]
    omega
  have hledger : (op.run s).2.ledger =
      (C.depositCurrency.unreserve s.ledger info.account info.deposit).2 := by
    rw [run_of_removes hop, rmKeys_ok hinfo]
    rfl
  rw [hledger, C.depositCurrency.unreserve_free, C.depositCurrency.unreserve_reserved]
  refine ⟨Uint.ext_val ?_, ?_, ?_⟩
  · rw [C.depositCurrency.unreserve_left, Uint.val_zero]
    omega
  · omega
  · omega

/-- **Deposits.** In every state of a run the reserved balance of an account is the sum of the
deposits of the registrations it owns. So a removal gives the whole stored deposit back, a rotation
moves no money, and an account without a registration has nothing reserved. -/
theorem deposits_conserved {h : List (RunEvent C)}
    (hr : (machine C (Unreserved C)).Run (fun _ s op => KeepsReserved s op) h s) :
    (∀ a, (C.depositCurrency.reservedBalance s.ledger a).val = deposited s a) ∧
    (∀ a, (∀ n, ¬ s.Owns a n) → C.depositCurrency.reservedBalance s.ledger a = 0) ∧
    (∀ (op : Op C) (id : NimbusId) (info : RegistrationInfo C),
      op.removes s = some (info.account, id) → s.mappingWithDeposit.lookup id = some info →
      (C.depositCurrency.unreserve s.ledger info.account info.deposit).1 = 0 ∧
      (C.depositCurrency.freeBalance (op.run s).2.ledger info.account).val =
        (C.depositCurrency.freeBalance s.ledger info.account).val + info.deposit.val ∧
      (C.depositCurrency.reservedBalance (op.run s).2.ledger info.account).val + info.deposit.val =
        (C.depositCurrency.reservedBalance s.ledger info.account).val) ∧
    (∀ origin old new, (updateAssociation origin old new s).2.ledger = s.ledger) ∧
    ∀ a bytes, (nimbusIdOf s a).isSome →
      (setKeys (.signed a) bytes s).2.ledger = s.ledger := by
  have hb := backed_of_run hr
  refine ⟨hb, fun a hnone => ?_, fun op id info => unreserved_of_removes hb,
    fun origin old new => updateAssociation_ledger origin old new s,
    fun a bytes hlookup => (found_of_lookup hlookup).setKeys bytes⟩
  exact Uint.ext_val ((hb a).trans (deposited_eq_zero hnone))

/-- Account 2 is registered as Bob at a deposit of 100, and registers Alice at one of 30. -/
def twoDeposits : List (RunEvent Mock.test) × State Mock.test :=
  (machine Mock.test (Unreserved Mock.test)).replay [] (Mock.genesis [(Mock.bob, 2)])
    [.elsewhere (Mock.genesis [(Mock.bob, 2)]).ledger (.lit 30),
      .addAssociation (.signed 2) Mock.alice]

theorem deposits_conserved_test :
    (twoDeposits.2.ledger 2).reserved = 130 ∧ deposited twoDeposits.2 2 = 130 := by
  have hrun : (machine Mock.test (Unreserved Mock.test)).Run (fun _ s op => KeepsReserved s op)
      twoDeposits.1 twoDeposits.2 := by
    refine Machine.run_replay _ (.start ?_) ?_
    · exact ⟨[(Mock.bob, 2)], Mock.balances, .lit 100, by decide, fun _ => rfl, rfl⟩
    · exact ⟨fun _ => rfl, trivial, trivial⟩
  have hreserved : (twoDeposits.2.ledger 2).reserved = 130 := by decide +kernel
  exact ⟨hreserved, ((deposits_conserved hrun).1 2).symm.trans hreserved⟩

end AuthorMapping

end Moonkit
