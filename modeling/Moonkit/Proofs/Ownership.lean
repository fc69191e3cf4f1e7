import Moonkit.Proofs.Registrations

/-!
# What a call leaves to other accounts

A call signed by an account changes at most one registration of that account and adds at most one.
The ids are the caller's choice and may belong to anyone: what other accounts own, the ids they are
found by and their balances stay as they are, and a call that fails changes nothing.
-/

namespace Moonkit

namespace AuthorMapping

variable {AccountId Keys Ledger : Type} [DecidableEq AccountId] {C : Config AccountId Keys Ledger}
  {s s' : State C}

open ReverseIndex (lost lost_self lost_insert lost_of_insert lost_erase lost_of_erase lost_move
  lost_of_move)

/-- Only `a` has other registrations, another id or other balances in `s'` than in `s`. -/
structure OnlyTouches (a : AccountId) (s s' : State C) : Prop where
  lost : ∃ e : NimbusId × RegistrationInfo C, e.2.account = a ∧
    lost s.mappingWithDeposit s'.mappingWithDeposit ⊆ {e}
  gained : ∃ e : NimbusId × RegistrationInfo C, e.2.account = a ∧
    ReverseIndex.lost s'.mappingWithDeposit s.mappingWithDeposit ⊆ {e}
  lookup : ∀ b, b ≠ a → nimbusIdOf s' b = nimbusIdOf s b
  freeBalance : ∀ b, b ≠ a →
    C.depositCurrency.freeBalance s'.ledger b = C.depositCurrency.freeBalance s.ledger b
  reservedBalance : ∀ b, b ≠ a →
    C.depositCurrency.reservedBalance s'.ledger b = C.depositCurrency.reservedBalance s.ledger b

/-- The account that asks to remove a registration signed the operation. -/
theorem signer_of_removes {op : Op C} {a : AccountId} {id : NimbusId}
    (h : op.removes s = some (a, id)) : op.signer = some a := by
  cases op with
  | clearAssociation origin _ | removeKeys origin =>
    cases origin <;> simp_all [Op.removes, Op.signer]
  | _ => simp [Op.removes] at h

section Effect

variable {a : AccountId} {op : Op C}

theorem onlyTouches_effect (hop : op.signer = some a) (heffect : Effect s op s') :
    OnlyTouches a s s' := by
  cases heffect with
  | registered hsigned hfree hreserve =>
    rename_i accountId id keys ledger events
    obtain rfl := Option.some.inj (hsigned.symm.trans hop)
    refine ⟨⟨(id, ⟨accountId, s.depositAmount, keys⟩), rfl, ?_⟩, ⟨_, rfl, lost_of_insert⟩,
      fun b hb => ?_, fun b hb => ?_, fun b hb => ?_⟩
    · exact (lost_insert hfree).subset.trans (Set.empty_subset _)
    · exact Finmap.lookup_insert_of_ne _ hb
    · exact (C.depositCurrency.reserve_other hreserve b hb).1
    · exact (C.depositCurrency.reserve_other hreserve b hb).2
  | rotated hsigned hold hnew =>
    rename_i old new info keys events
    obtain rfl := Option.some.inj (hsigned.symm.trans hop)
    refine ⟨⟨_, rfl, lost_move hold hnew⟩, ⟨(new, { info with keys := keys }), rfl, lost_of_move⟩,
      fun b hb => ?_, fun _ _ => rfl, fun _ _ => rfl⟩
    exact Finmap.lookup_insert_of_ne _ hb
  | removed hremoves hinfo =>
    rename_i id info events
    obtain rfl := Option.some.inj ((signer_of_removes hremoves).symm.trans hop)
    refine ⟨⟨_, rfl, lost_erase hinfo⟩, ⟨(id, info), rfl, ?_⟩, fun b hb => ?_, fun b hb => ?_,
      fun b hb => ?_⟩
    · exact lost_of_erase.subset.trans (Set.empty_subset _)
    · exact Finmap.lookup_erase_ne hb
    · exact (C.depositCurrency.unreserve_other _ _ _ b hb).1
    · exact (C.depositCurrency.unreserve_other _ _ _ b hb).2
  | elsewhere helse =>
    subst helse
    simp [Op.signer] at hop

/-- An entry that does not belong to `a` is in both maps or in none. -/
theorem OnlyTouches.entry (h : OnlyTouches a s s') {id : NimbusId} {info : RegistrationInfo C}
    (hinfo : info.account ≠ a) :
    s'.mappingWithDeposit.lookup id = some info ↔ s.mappingWithDeposit.lookup id = some info := by
  obtain ⟨e, he, hlost⟩ := h.lost
  obtain ⟨e', he', hgained⟩ := h.gained
  constructor
  · intro hs'
    by_contra hs
    obtain rfl := hgained (show (id, info) ∈ ReverseIndex.lost _ _ from ⟨hs', hs⟩)
    exact hinfo he'
  · intro hs
    by_contra hs'
    obtain rfl := hlost (show (id, info) ∈ ReverseIndex.lost _ _ from ⟨hs, hs'⟩)
    exact hinfo he

end Effect

/-- **Ownership.** From any state, a call signed by `a` leaves the registrations of every other
account with their deposits and keys, the id it is found by, and its free and reserved balance. At
most one entry of the registrations is lost and at most one is new, and both belong to `a`. A call
that fails changes nothing. -/
theorem call_touches_only_signer (s : State C) {op : Op C} {a : AccountId}
    (hop : op.signer = some a) :
    (∀ b, b ≠ a →
      (∀ id info, info.account = b → ((op.run s).2.mappingWithDeposit.lookup id = some info ↔
        s.mappingWithDeposit.lookup id = some info)) ∧
      nimbusIdOf (op.run s).2 b = nimbusIdOf s b ∧
      C.depositCurrency.freeBalance (op.run s).2.ledger b =
        C.depositCurrency.freeBalance s.ledger b ∧
      C.depositCurrency.reservedBalance (op.run s).2.ledger b =
        C.depositCurrency.reservedBalance s.ledger b) ∧
    (lost s.mappingWithDeposit (op.run s).2.mappingWithDeposit).Subsingleton ∧
    (lost (op.run s).2.mappingWithDeposit s.mappingWithDeposit).Subsingleton ∧
    (∀ e ∈ lost s.mappingWithDeposit (op.run s).2.mappingWithDeposit, e.2.account = a) ∧
    (∀ e ∈ lost (op.run s).2.mappingWithDeposit s.mappingWithDeposit, e.2.account = a) ∧
    ((op.run s).1 ≠ .ok () → (op.run s).2 = s) := by
  rcases exec_effect s op with ⟨e, he⟩ | ⟨hok, heffect⟩
  · rw [he, lost_self]
    simp
  · have h := onlyTouches_effect hop heffect
    refine ⟨fun b hb => ⟨fun id info hinfo => ?_, h.lookup b hb, h.freeBalance b hb,
      h.reservedBalance b hb⟩, ?_, ?_, ?_, ?_, fun hfail => absurd hok hfail⟩
    · exact h.entry (hinfo ▸ hb)
    · obtain ⟨e, -, hlost⟩ := h.lost
      exact Set.subsingleton_singleton.anti hlost
    · obtain ⟨e, -, hgained⟩ := h.gained
      exact Set.subsingleton_singleton.anti hgained
    · obtain ⟨e, he, hlost⟩ := h.lost
      exact fun e' he' => hlost he' ▸ he
    · obtain ⟨e, he, hgained⟩ := h.gained
      exact fun e' he' => hgained he' ▸ he

/-- Account 2 rotates Bob to Alice, who is registered by account 3, and is refused; then to
Charlie. -/
theorem call_touches_only_signer_test :
    (updateAssociation (.signed 2) Mock.bob Mock.alice
      (Mock.genesis [(Mock.bob, 2), (Mock.alice, 3)])).1 = .err (.pallet .alreadyAssociated) ∧
    nimbusIdOf ((Op.updateAssociation (.signed 2) Mock.bob Mock.charlie).run
      (Mock.genesis [(Mock.bob, 2), (Mock.alice, 3)])).2 3 = some Mock.alice := by
  have hframe := call_touches_only_signer (Mock.genesis [(Mock.bob, 2), (Mock.alice, 3)])
    (a := 2)
    (show (Op.updateAssociation (.signed 2) Mock.bob Mock.charlie).signer = some 2 from rfl)
  refine ⟨by decide +kernel, (hframe.1 3 (by decide)).2.1.trans ?_⟩
  decide +kernel

end AuthorMapping

end Moonkit
